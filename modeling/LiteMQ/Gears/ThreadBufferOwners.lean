import LiteMQ.Foundation.Mutex
import LiteMQ.Gears.ThreadBuffer
import Mathlib.Data.List.Count
import Mathlib.Data.List.Perm.Subperm

/-!
# Every buffer has one owner

A step moves a buffer between the pool and the thread, gives the thread a new array, or
deletes the one that it has; all other steps leave every buffer where it is.  With the rules
of `Ledger` each of them keeps `OneOwner`, as long as `type_key_` says what the buffer is
where `free_buffer_` asks (`one_owner_iff`).

`free_buffer_` does not reset `type_key_`, so that this depends on when the exit of the thread
does.  A thread that is given an array by the destructor of a key between the two has none in
`type_key_` any more when the array is freed: it goes into the pool (`array_put_back`).
-/

namespace LiteMQ
namespace Gears
namespace ThreadBuffer

open TransitionSystem Ledger

/-! ## The constructor -/

/-- The loop of the constructor in the middle of the array. -/
theorem construct_loop {THREADS : Nat} (indices : List (Fin THREADS))
    (before behind : List (Option (CharPtr THREADS))) (hlength : behind.length = indices.length) :
    indices.foldl constructRound (before ++ behind, before.length) =
      (before ++ indices.map (fun i => some (.buffers i)), before.length + indices.length) := by
  induction indices generalizing before behind with
  | nil =>
      obtain rfl := List.length_eq_zero_iff.mp hlength
      rfl
  | cons i indices ih =>
      cases behind with
      | nil => cases hlength
      | cons p behind =>
          have hround : constructRound (before ++ p :: behind, before.length) i =
              ((before ++ [some (CharPtr.buffers i)]) ++ behind,
                (before ++ [some (CharPtr.buffers i)]).length) := by
            simp [constructRound]
          rw [List.foldl_cons, hround, ih _ _ (by simpa using hlength)]
          simp [Nat.add_assoc, Nat.add_comm]

/-- The constructor puts every buffer of `buffers_` into the pool. -/
theorem construct_eq (THREADS : Nat) :
    construct THREADS (List.replicate THREADS none) =
      ((List.finRange THREADS).map fun i => some (.buffers i), THREADS) := by
  have hloop := construct_loop (List.finRange THREADS) [] (List.replicate THREADS none) (by simp)
  simpa [construct] using hloop

/-! ## What a thread relies on -/

variable {THREADS : Nat} {T : Type*}

theorem putsBackStatic_of_none {thread : Thread THREADS} (h : thread.pc.putBack = none) :
    thread.PutsBackStatic := by
  intro buffer hbuffer
  rw [h] at hbuffer
  cases hbuffer

theorem exists_buffers_of_isArray {buffer : CharPtr THREADS} (h : buffer.isArray = false) :
    ∃ i, buffer = .buffers i := by
  cases buffer with
  | buffers i => exact ⟨i, rfl⟩
  | heap address => cases h

/-- A thread without a value in `buffer_key_` has the buffer of its variable. -/
theorem references_of_none {thread : Thread THREADS} (h : thread.bufferKey = none)
    (buffer : CharPtr THREADS) :
    thread.references buffer = if thread.pc.buffer = some buffer then 1 else 0 := by
  simp [Thread.references, h, List.count_cons, beq_iff_eq]

theorem references_goTo {thread : Thread THREADS} (h : thread.bufferKey = none)
    (pc : Pc THREADS) (buffer : CharPtr THREADS) :
    (thread.goTo pc).references buffer = if pc.buffer = some buffer then 1 else 0 :=
  @references_of_none _ (thread.goTo pc) h buffer

/-- A thread that goes on with the same variable has the same buffers. -/
theorem references_goTo_eq {thread : Thread THREADS} {pc : Pc THREADS}
    (h : pc.buffer = thread.pc.buffer) : (thread.goTo pc).references = thread.references := by
  funext buffer
  simp [Thread.references, h]

/-- What holds between the steps.  Within a call `buffer_key_` is null, so that a buffer that is
put there replaces none. -/
structure Inv (s : State THREADS T) : Prop where
  owner : OneOwner s
  size : s.bufferPointers.length = THREADS
  pool : ∀ p ∈ s.bufferPointers.take s.available, ∃ i, p = some (.buffers i)
  mutex : Mutex.Held (fun thread => thread.pc.locked) s.mutex s.threads
  seen : ∀ t, (s.threads t).pc = .getPop → s.available ≠ 0
  bufferKey : ∀ t, (s.threads t).pc ≠ .out → (s.threads t).bufferKey = none
  static : ∀ t, (s.threads t).PutsBackStatic

/-- A pool of static buffers has no array of `new[]`. -/
theorem count_heap {pool : List (Option (CharPtr THREADS))}
    (h : ∀ p ∈ pool, ∃ i, p = some (.buffers i)) (address : Nat) :
    pool.count (some (.heap address)) = 0 := by
  apply List.count_eq_zero_of_not_mem
  intro hmem
  obtain ⟨i, hi⟩ := h _ hmem
  cases hi

theorem Inv.length_pool {s : State THREADS T} (hs : Inv s) :
    (s.bufferPointers.take s.available).length = s.available := by
  rw [List.length_take, hs.size]
  exact Nat.min_eq_left hs.owner.available_le

theorem Inv.sound {s : State THREADS T} (hs : Inv s) : Sound s := ⟨hs.owner, hs.static⟩

/-- While a static buffer is with a thread, the pool has room for it. -/
theorem Inv.available_lt {s : State THREADS T} (hs : Inv s) {i : Fin THREADS}
    (hi : s.occurrences (.buffers i) none = 0) : s.available < THREADS := by
  have hnodup : (some (.buffers i) :: s.bufferPointers.take s.available).Nodup := by
    refine List.nodup_cons.mpr ⟨List.count_eq_zero.mp hi, List.nodup_iff_count_le_one.mpr ?_⟩
    intro p
    by_cases hp : p ∈ s.bufferPointers.take s.available
    · obtain ⟨j, rfl⟩ := hs.pool p hp
      exact (hs.owner.buffers j).le_one none
    · rw [List.count_eq_zero_of_not_mem hp]
      exact Nat.zero_le 1
  have hsubset : some (.buffers i) :: s.bufferPointers.take s.available ⊆
      (List.finRange THREADS).map fun j => some (CharPtr.buffers j) := by
    intro p hp
    have hstatic : ∃ j, p = some (.buffers j) := by
      rcases List.mem_cons.mp hp with rfl | hp
      · exact ⟨i, rfl⟩
      · exact hs.pool p hp
    obtain ⟨j, rfl⟩ := hstatic
    exact List.mem_map_of_mem (List.mem_finRange j)
  have hle := (List.subperm_of_subset hnodup hsubset).length_le
  rw [List.length_cons, hs.length_pool, List.length_map, List.length_finRange] at hle
  exact hle

/-! ## The steps -/

/-- Buffers that move between the pool and a thread keep one owner each. -/
theorem OneOwner.moved {s s' : State THREADS T} (hs : OneOwner s) {t : T}
    (hmoved : ∀ buffer, Moved (s.occurrences buffer) (s'.occurrences buffer) none (some t))
    (havailable : s'.available ≤ THREADS)
    (hpool : ∀ p ∈ s'.bufferPointers.take s'.available, ∃ i, p = some (.buffers i))
    (hheap : s'.heap = s.heap) (hdefined : s'.outcome ≠ .undefined) : OneOwner s' := by
  refine ⟨havailable, fun i => ?_, fun address => ⟨count_heap hpool address, ?_⟩, hdefined⟩
  · exact (hmoved _).inOnePlace (by simp) (hs.buffers i)
  · have hbefore := (hs.heap address).2
    rw [hheap]
    split at hbefore
    · rename_i halive
      rw [if_pos halive]
      exact (hmoved _).inOnePlace (by simp) hbefore
    · rename_i hdeleted
      rw [if_neg hdeleted]
      exact (hmoved _).nowhere hbefore

/-- One array of `new[]` is made or deleted, and every other buffer stays where it is. -/
theorem OneOwner.heap_update {s s' : State THREADS T} (hs : OneOwner s) {address : Nat}
    {alive : Bool} (hheap : s'.heap = Function.update s.heap address alive)
    (hother : ∀ buffer, buffer ≠ .heap address → s'.occurrences buffer = s.occurrences buffer)
    (hpool : s'.occurrences (.heap address) none = 0)
    (hhere : if alive then InOnePlace (s'.occurrences (.heap address))
      else Nowhere (s'.occurrences (.heap address)))
    (havailable : s'.available = s.available) (hdefined : s'.outcome ≠ .undefined) :
    OneOwner s' := by
  refine ⟨havailable ▸ hs.available_le, fun i => ?_, fun address' => ?_, hdefined⟩
  · rw [hother _ (by simp)]
    exact hs.buffers i
  · by_cases haddress : address' = address
    · subst haddress
      rw [hheap, Function.update_self]
      exact ⟨hpool, hhere⟩
    · rw [hheap, Function.update_of_ne haddress, hother _ (by simpa using haddress)]
      exact hs.heap address'

/-- The thread that is inside the section is the only one that has seen `available_`. -/
theorem Inv.not_seen {s : State THREADS T} (hs : Inv s) {t u : T}
    (ht : (s.threads t).pc.locked = true) (hu : u ≠ t) : (s.threads u).pc ≠ .getPop := by
  intro hpop
  have houtside := hs.mutex.outside_of_inside ht hu
  rw [hpop] at houtside
  cases houtside

variable [DecidableEq T]

/-- A step of `t` touches no buffer that is with another thread. -/
theorem moved_of_update {s s' : State THREADS T} {t : T} {thread : Thread THREADS}
    {buffer : CharPtr THREADS} (hthreads : s'.threads = Function.update s.threads t thread)
    (htotal : s'.occurrences buffer none + thread.references buffer =
      s.occurrences buffer none + (s.threads t).references buffer) :
    Moved (s.occurrences buffer) (s'.occurrences buffer) none (some t) := by
  constructor
  · simpa [State.occurrences, hthreads] using htotal
  · intro place hpool hthread
    cases place with
    | none => contradiction
    | some u =>
        have hu : u ≠ t := fun heq => hthread (congrArg some heq)
        simp [State.occurrences, hthreads, hu]

/-- What a step of `t` has to show. -/
theorem Inv.of_update {s s' : State THREADS T} (hs : Inv s) {t : T} {thread : Thread THREADS}
    (hthreads : s'.threads = Function.update s.threads t thread) (howner : OneOwner s')
    (hsize : s'.bufferPointers.length = s.bufferPointers.length)
    (hpool : ∀ p ∈ s'.bufferPointers.take s'.available, ∃ i, p = some (.buffers i))
    (hmutex : Mutex.Held (fun thread => thread.pc.locked) s'.mutex s'.threads)
    (hseen : thread.pc = .getPop → s'.available ≠ 0)
    (hothers : ∀ u, u ≠ t → (s.threads u).pc = .getPop → s'.available ≠ 0)
    (hkey : thread.pc ≠ .out → thread.bufferKey = none)
    (hstatic : thread.PutsBackStatic) : Inv s' := by
  refine ⟨howner, hsize.trans hs.size, hpool, hmutex, ?_, ?_, ?_⟩
  · rw [hthreads]
    exact (Function.forall_update_iff s.threads
      fun _ thread => thread.pc = .getPop → s'.available ≠ 0).mpr ⟨hseen, hothers⟩
  · rw [hthreads]
    exact (Function.forall_update_iff s.threads
      fun _ thread => thread.pc ≠ .out → thread.bufferKey = none).mpr
        ⟨hkey, fun u _ => hs.bufferKey u⟩
  · rw [hthreads]
    exact (Function.forall_update_iff s.threads fun _ thread => thread.PutsBackStatic).mpr
      ⟨hstatic, fun u _ => hs.static u⟩

/-- A step that leaves the buffers where they are. -/
theorem Inv.aside {s : State THREADS T} (hs : Inv s) {t : T} {thread : Thread THREADS}
    {mutex : Option T}
    (hmutex : Mutex.Held (fun thread => thread.pc.locked) mutex
      (Function.update s.threads t thread))
    (hreferences : thread.references = (s.threads t).references)
    (hseen : thread.pc = .getPop → s.available ≠ 0)
    (hkey : thread.pc ≠ .out → thread.bufferKey = none)
    (hstatic : thread.PutsBackStatic) :
    Inv { s with mutex := mutex, threads := Function.update s.threads t thread } := by
  apply hs.of_update rfl
  · refine hs.owner.moved (t := t) (fun buffer => moved_of_update rfl ?_)
      hs.owner.available_le hs.pool rfl hs.owner.defined
    rw [hreferences]
    rfl
  · rfl
  · exact hs.pool
  · exact hmutex
  · exact hseen
  · exact fun u _ => hs.seen u
  · exact hkey
  · exact hstatic

/-- A step of `t` that neither takes nor releases the mutex. -/
theorem Inv.put {s : State THREADS T} (hs : Inv s) {t : T} {thread : Thread THREADS}
    (hlocked : thread.pc.locked = (s.threads t).pc.locked)
    (hreferences : thread.references = (s.threads t).references)
    (hseen : thread.pc = .getPop → s.available ≠ 0)
    (hkey : thread.pc ≠ .out → thread.bufferKey = none)
    (hstatic : thread.PutsBackStatic) :
    Inv (s.put t thread) :=
  hs.aside (hs.mutex.keep hlocked) hreferences hseen hkey hstatic

/-- A thread goes on in a call, with the same variable. -/
theorem Inv.goTo {s : State THREADS T} (hs : Inv s) {t : T} {pc : Pc THREADS}
    (hlocked : pc.locked = (s.threads t).pc.locked) (hbuffer : pc.buffer = (s.threads t).pc.buffer)
    (hseen : pc = .getPop → s.available ≠ 0) (hkey : (s.threads t).bufferKey = none)
    (hstatic : ((s.threads t).goTo pc).PutsBackStatic) : Inv (s.goTo t pc) :=
  hs.put hlocked (references_goTo_eq hbuffer) hseen (fun _ => hkey) hstatic

/-- A thread takes the mutex. -/
theorem Inv.lock {s : State THREADS T} (hs : Inv s) {t : T} {pc : Pc THREADS}
    (hfree : s.mutex = none) (hout : (s.threads t).pc ≠ .out) (hin : pc.locked = true)
    (hbuffer : pc.buffer = (s.threads t).pc.buffer) (hnext : pc ≠ .getPop)
    (hstatic : ((s.threads t).goTo pc).PutsBackStatic) :
    Inv { s.goTo t pc with mutex := some t } := by
  have hmutex := hs.mutex
  rw [hfree] at hmutex
  refine hs.aside (hmutex.take t hin) (references_goTo_eq hbuffer) ?_ ?_ hstatic
  · exact fun hpop => absurd hpop hnext
  · exact fun _ => hs.bufferKey t hout

/-- A thread releases the mutex. -/
theorem Inv.unlock {s : State THREADS T} (hs : Inv s) {t : T} {pc : Pc THREADS}
    (hin : (s.threads t).pc.locked = true) (hout : pc.locked = false)
    (hbuffer : pc.buffer = (s.threads t).pc.buffer)
    (hstatic : ((s.threads t).goTo pc).PutsBackStatic) :
    Inv { s.goTo t pc with mutex := none } := by
  have hmutex := hs.mutex
  rw [(hs.mutex t).mpr hin] at hmutex
  refine hs.aside (hmutex.release hout) (references_goTo_eq hbuffer) ?_ ?_ hstatic
  · rintro rfl
    cases hout
  · refine fun _ => hs.bufferKey t ?_
    intro hpc
    rw [hpc] at hin
    cases hin

/-- A step of the thread inside the section that moves buffers between the pool and the
thread. -/
theorem Inv.exchange {s : State THREADS T} (hs : Inv s) {t : T} {thread : Thread THREADS}
    {pointers : List (Option (CharPtr THREADS))} {available : Nat}
    (htotal : ∀ buffer, (pointers.take available).count (some buffer) + thread.references buffer =
      (s.bufferPointers.take s.available).count (some buffer) + (s.threads t).references buffer)
    (havailable : available ≤ THREADS) (hsize : pointers.length = s.bufferPointers.length)
    (hpool : ∀ p ∈ pointers.take available, ∃ i, p = some (.buffers i))
    (hin : (s.threads t).pc.locked = true) (hstays : thread.pc.locked = true)
    (hnext : thread.pc ≠ .getPop) (hkey : thread.bufferKey = none)
    (hstatic : thread.PutsBackStatic) :
    Inv { s with
      bufferPointers := pointers
      available := available
      threads := Function.update s.threads t thread } := by
  apply hs.of_update rfl
  · exact hs.owner.moved (t := t) (fun buffer => moved_of_update rfl (htotal buffer))
      havailable hpool rfl hs.owner.defined
  · exact hsize
  · exact hpool
  · exact hs.mutex.keep (hstays.trans hin.symm)
  · exact fun hpop => absurd hpop hnext
  · exact fun u hu hpop => absurd hpop (hs.not_seen hin hu)
  · exact fun _ => hkey
  · exact hstatic

/-- `buffer = buffer_pointers_[--available_]`: the last buffer of the pool goes to the thread. -/
theorem Inv.pop {s s' : State THREADS T} (hs : Inv s) {t : T} (hpc : (s.threads t).pc = .getPop)
    (h : next s t = some s') : Inv s' := by
  have hkey := hs.bufferKey t (by simp [hpc])
  obtain ⟨available, havailable⟩ := Nat.exists_eq_succ_of_ne_zero (hs.seen t hpc)
  have hle := hs.owner.available_le
  have hlt : available < s.bufferPointers.length := by
    rw [hs.size]
    omega
  have htake : s.bufferPointers.take s.available =
      s.bufferPointers.take available ++ [s.bufferPointers[available]] := by
    rw [havailable]
    exact List.take_succ_eq_append_getElem hlt
  obtain ⟨i, hi⟩ := hs.pool s.bufferPointers[available]
    (htake ▸ List.mem_append_right _ (List.mem_singleton_self _))
  simp only [next, hpc, havailable, Buffer.load_eq_ok hlt, hi] at h
  obtain rfl := Option.some.inj h
  refine hs.exchange (fun buffer => ?_) (by omega) rfl ?_ (by simp [hpc, Pc.locked]) rfl ?_ hkey ?_
  · rw [references_goTo hkey, references_of_none hkey, htake, hpc, hi, List.count_append,
      List.count_singleton]
    simp [Pc.buffer, State.goTo, State.put]
  · exact fun p hp => hs.pool p (htake ▸ List.mem_append_left _ hp)
  · simp
  · exact putsBackStatic_of_none rfl

/-- `buffer_pointers_[available_++] = buffer`: the buffer of the thread goes to the pool, where
it has room. -/
theorem Inv.push {s s' : State THREADS T} (hs : Inv s) {t : T} {buffer : CharPtr THREADS}
    (hpc : (s.threads t).pc = .freePush buffer) (h : next s t = some s') : Inv s' := by
  have hkey := hs.bufferKey t (by simp [hpc])
  have hstatic := hs.static t
  obtain ⟨i, rfl⟩ := exists_buffers_of_isArray (hstatic buffer (by simp [hpc, Pc.putBack]))
  have hheld : s.occurrences (.buffers i) (some t) ≠ 0 := by
    simp [State.occurrences, references_of_none hkey, hpc, Pc.buffer]
  have havailable := hs.available_lt ((hs.owner.buffers i).eq_zero_of_ne hheld (by simp))
  have hlt : s.available < s.bufferPointers.length := by
    rw [hs.size]
    exact havailable
  have htake : (s.bufferPointers.set s.available (some (.buffers i))).take (s.available + 1) =
      s.bufferPointers.take s.available ++ [some (.buffers i)] := by
    rw [List.take_succ_eq_append_getElem (by simpa using hlt), List.getElem_set_self,
      List.take_set_of_le (Nat.le_refl _)]
  simp only [next, hpc, Buffer.store_eq_ok hlt] at h
  obtain rfl := Option.some.inj h
  refine hs.exchange (fun buffer => ?_) havailable (by simp) ?_ (by simp [hpc, Pc.locked]) rfl ?_
    hkey ?_
  · rw [references_goTo hkey, references_of_none hkey, htake, hpc, List.count_append,
      List.count_singleton]
    simp [Pc.buffer]
  · intro p hp
    rw [htake] at hp
    rcases List.mem_append.mp hp with hp | hp
    · exact hs.pool p hp
    · exact ⟨i, List.mem_singleton.mp hp⟩
  · simp
  · exact putsBackStatic_of_none rfl

theorem occurrences_update {s s' : State THREADS T} {t : T} {thread : Thread THREADS}
    (hthreads : s'.threads = Function.update s.threads t thread)
    (hpointers : s'.bufferPointers = s.bufferPointers) (havailable : s'.available = s.available)
    (buffer : CharPtr THREADS) :
    s'.occurrences buffer =
      Function.update (s.occurrences buffer) (some t) (thread.references buffer) := by
  funext place
  cases place with
  | none => simp [State.occurrences, hpointers, havailable]
  | some u =>
      by_cases hu : u = t
      · simp [State.occurrences, hthreads, hu]
      · simp [State.occurrences, hthreads, hu]

/-- A step outside the section after which the thread has one array of `new[]` more, or one
less. -/
theorem Inv.heap_update {s : State THREADS T} (hs : Inv s) {t : T} {thread : Thread THREADS}
    {address : Nat} {alive : Bool}
    (hother : ∀ buffer, buffer ≠ .heap address →
      thread.references buffer = (s.threads t).references buffer)
    (hhere : if alive then
        InOnePlace (Function.update (s.occurrences (.heap address)) (some t)
          (thread.references (.heap address)))
      else Nowhere (Function.update (s.occurrences (.heap address)) (some t)
        (thread.references (.heap address))))
    (hout : (s.threads t).pc.locked = false) (hstays : thread.pc.locked = false)
    (hkey : thread.bufferKey = none) (hstatic : thread.PutsBackStatic) :
    Inv { s with
      heap := Function.update s.heap address alive
      threads := Function.update s.threads t thread } := by
  have hocc : ∀ buffer, State.occurrences { s with
        heap := Function.update s.heap address alive
        threads := Function.update s.threads t thread } buffer =
      Function.update (s.occurrences buffer) (some t) (thread.references buffer) :=
    occurrences_update rfl rfl rfl
  apply hs.of_update rfl
  · apply hs.owner.heap_update rfl
    · intro buffer hne
      rw [hocc, hother buffer hne]
      exact Function.update_eq_self _ _
    · rw [hocc, Function.update_of_ne (by simp)]
      exact (hs.owner.heap address).1
    · rw [hocc]
      exact hhere
    · rfl
    · exact hs.owner.defined
  · rfl
  · exact hs.pool
  · exact hs.mutex.keep (hstays.trans hout.symm)
  · intro hpop
    rw [hpop] at hstays
    cases hstays
  · exact fun u _ => hs.seen u
  · exact fun _ => hkey
  · exact hstatic

/-- `new char[BUFFER_SIZE]`: the thread has an array that nobody had. -/
theorem Inv.create {s : State THREADS T} (hs : Inv s) {t : T}
    (hpc : (s.threads t).pc = .getNew) {address : Nat} (hfree : s.heap address = false) :
    Inv { s.goTo t (.getSetType (.heap address)) with
      heap := Function.update s.heap address true } := by
  have hkey := hs.bufferKey t (by simp [hpc])
  have hnowhere := (hs.owner.heap address).2
  rw [if_neg (by simp [hfree])] at hnowhere
  refine hs.heap_update (fun buffer hne => ?_) ?_ (by simp [hpc, Pc.locked]) rfl hkey
    (putsBackStatic_of_none rfl)
  · rw [references_goTo hkey, references_of_none hkey, hpc]
    simp [Pc.buffer, Ne.symm hne]
  · rw [if_pos rfl, references_goTo hkey]
    refine Added.inOnePlace (p := some t) ⟨?_, fun place hplace => ?_⟩ hnowhere
    · rw [Function.update_self, hnowhere (some t)]
      simp [Pc.buffer]
    · exact Function.update_of_ne hplace _ _

/-- `delete[]` of the array that the thread has: nobody has it any more. -/
theorem Inv.delete {s : State THREADS T} (hs : Inv s) {t : T} {address : Nat}
    (hpc : (s.threads t).pc = .freeTest (.heap address)) :
    s.heap address = true ∧
      Inv { s.goTo t .freeReset with heap := Function.update s.heap address false } := by
  have hkey := hs.bufferKey t (by simp [hpc])
  have hheld : s.occurrences (.heap address) (some t) ≠ 0 := by
    simp [State.occurrences, references_of_none hkey, hpc, Pc.buffer]
  have howner := (hs.owner.heap address).2
  have halive : s.heap address = true := by
    by_contra hdeleted
    rw [if_neg hdeleted] at howner
    exact hheld (howner (some t))
  rw [if_pos halive] at howner
  refine ⟨halive, hs.heap_update (fun buffer hne => ?_) ?_ (by simp [hpc, Pc.locked]) rfl hkey
    (putsBackStatic_of_none rfl)⟩
  · rw [references_goTo hkey, references_of_none hkey, hpc]
    simp [Pc.buffer, Ne.symm hne]
  · rw [if_neg Bool.false_ne_true, references_goTo hkey]
    refine Removed.nowhere_of_inOnePlace (p := some t) ⟨?_, fun place hplace => ?_⟩ hheld howner
    · rw [Function.update_self]
      simp [Pc.buffer]
    · exact Function.update_of_ne hplace _ _

/-- `if (type_key_.get_data())`: where the key says what the buffer is, an array is deleted and a
static buffer goes on to the pool. -/
theorem Inv.test {s s' : State THREADS T} (hs : Inv s) {t : T} {buffer : CharPtr THREADS}
    (hguard : TypeCurrent s (.next t)) (hpc : (s.threads t).pc = .freeTest buffer)
    (h : next s t = some s') : Inv s' := by
  have hkey := hs.bufferKey t (by simp [hpc])
  have hcurrent : (s.threads t).typeKey.isSome = buffer.isArray :=
    hguard buffer (by simp [hpc, Pc.freed])
  simp only [next, hpc] at h
  split at h
  · rename_i hnone
    obtain rfl := Option.some.inj h
    refine hs.goTo (by simp [hpc, Pc.locked]) (by simp [hpc, Pc.buffer]) (by simp) hkey ?_
    rw [hnone] at hcurrent
    cases buffer with
    | buffers i => exact fun _ hback => Option.some.inj hback ▸ rfl
    | heap address => cases hcurrent
  · rename_i hset
    cases buffer with
    | buffers i => exact absurd (Option.isSome_eq_false_iff.mp hcurrent) (by simpa using hset)
    | heap address =>
        obtain ⟨halive, hdelete⟩ := hs.delete hpc
        simp only [deleteArray, if_pos halive] at h
        obtain rfl := Option.some.inj h
        exact hdelete

/-- The next statement of a thread keeps the invariant, if `type_key_` says what the buffer is
where `free_buffer_` asks. -/
theorem Inv.next {s s' : State THREADS T} (hs : Inv s) {t : T} (hguard : TypeCurrent s (.next t))
    (h : ThreadBuffer.next s t = some s') : Inv s' := by
  have hstatic := hs.static t
  cases hpc : (s.threads t).pc with
  | out | getNew => simp [ThreadBuffer.next, hpc] at h
  | getLock =>
      simp only [ThreadBuffer.next, hpc] at h
      split at h
      · rename_i hfree
        obtain rfl := Option.some.inj h
        exact hs.lock hfree (by simp [hpc]) rfl (by simp [hpc, Pc.buffer]) (by simp)
          (putsBackStatic_of_none rfl)
      · cases h
  | getTest =>
      have hkey := hs.bufferKey t (by simp [hpc])
      simp only [ThreadBuffer.next, hpc] at h
      obtain rfl := Option.some.inj h
      by_cases hempty : s.available = 0
      · rw [if_pos hempty]
        exact hs.goTo (by simp [hpc, Pc.locked]) (by simp [hpc, Pc.buffer]) (by simp) hkey
          (putsBackStatic_of_none rfl)
      · rw [if_neg hempty]
        exact hs.goTo (by simp [hpc, Pc.locked]) (by simp [hpc, Pc.buffer]) (fun _ => hempty) hkey
          (putsBackStatic_of_none rfl)
  | getPop => exact hs.pop hpc h
  | getUnlock buffer =>
      cases buffer with
      | none =>
          simp only [ThreadBuffer.next, hpc] at h
          obtain rfl := Option.some.inj h
          exact hs.unlock (by simp [hpc, Pc.locked]) rfl (by simp [hpc, Pc.buffer])
            (putsBackStatic_of_none rfl)
      | some buffer =>
          simp only [ThreadBuffer.next, hpc] at h
          obtain rfl := Option.some.inj h
          exact hs.unlock (by simp [hpc, Pc.locked]) rfl (by simp [hpc, Pc.buffer])
            (putsBackStatic_of_none rfl)
  | getSetType buffer =>
      have hkey := hs.bufferKey t (by simp [hpc])
      simp only [ThreadBuffer.next, hpc] at h
      obtain rfl := Option.some.inj h
      refine hs.put (by simp [hpc, Pc.locked]) ?_ (by simp) (fun _ => hkey)
        (putsBackStatic_of_none rfl)
      funext other
      simp [Thread.references, hpc, Pc.buffer]
  | getSetBuffer buffer =>
      have hkey := hs.bufferKey t (by simp [hpc])
      simp only [ThreadBuffer.next, hpc] at h
      obtain rfl := Option.some.inj h
      refine hs.put (by simp [hpc, Pc.locked]) ?_ (by simp) (by simp)
        (putsBackStatic_of_none rfl)
      funext other
      simp [Thread.references, hkey, hpc, Pc.buffer, List.count_cons]
  | freeTest buffer => exact hs.test hguard hpc h
  | freeLock buffer =>
      simp only [ThreadBuffer.next, hpc] at h
      split at h
      · rename_i hfree
        obtain rfl := Option.some.inj h
        exact hs.lock hfree (by simp [hpc]) rfl (by simp [hpc, Pc.buffer]) (by simp)
          (fun freed hback => hstatic freed (by rw [hpc]; exact hback))
      · cases h
  | freePush buffer => exact hs.push hpc h
  | freeUnlock =>
      simp only [ThreadBuffer.next, hpc] at h
      obtain rfl := Option.some.inj h
      exact hs.unlock (by simp [hpc, Pc.locked]) rfl (by simp [hpc, Pc.buffer])
        (putsBackStatic_of_none rfl)
  | freeReset =>
      have hkey := hs.bufferKey t (by simp [hpc])
      simp only [ThreadBuffer.next, hpc] at h
      obtain rfl := Option.some.inj h
      refine hs.put (by simp [hpc, Pc.locked]) ?_ (by simp) (by simp) (putsBackStatic_of_none rfl)
      funext other
      simp [Thread.references, hkey, hpc, Pc.buffer]

theorem Inv.step {s s' : State THREADS T} (hs : Inv s) {a : Action T} (hguard : TypeCurrent s a)
    (h : ThreadBuffer.step s a = some s') : Inv s' := by
  unfold ThreadBuffer.step at h
  split at h
  · cases a with
    | getBuffer t =>
        simp only at h
        split at h
        · rename_i hpc
          split at h
          · obtain rfl := Option.some.inj h
            refine hs.put (by simp [hpc, Pc.locked]) ?_ (by simp) (by simp)
              (putsBackStatic_of_none rfl)
            funext other
            simp [Thread.references, hpc, Pc.buffer]
          · rename_i hkey
            obtain rfl := Option.some.inj h
            exact hs.goTo (by simp [hpc, Pc.locked]) (by simp [hpc, Pc.buffer]) (by simp) hkey
              (putsBackStatic_of_none rfl)
        · cases h
    | exitThread t =>
        simp only at h
        split at h
        · rename_i hpc
          obtain ⟨buffer, hkey, rfl⟩ := Option.map_eq_some_iff.mp h
          refine hs.put (by simp [hpc, Pc.locked]) ?_ (by simp) (by simp)
            (putsBackStatic_of_none rfl)
          funext other
          simp [Thread.references, hkey, hpc, Pc.buffer, List.count_cons]
        · cases h
    | clearTypeKey t =>
        simp only at h
        split at h
        · rename_i hpc
          obtain rfl := Option.some.inj h
          exact hs.put (by simp [hpc, Pc.locked]) rfl (by simp [hpc]) (by simp [hpc])
            (hs.static t)
        · cases h
    | next t => exact hs.next hguard h
    | newArray t address =>
        cases address with
        | none =>
            simp only at h
            split at h
            · rename_i hpc
              have hkey := hs.bufferKey t (by simp [hpc])
              obtain rfl := Option.some.inj h
              refine hs.put (by simp [hpc, Pc.locked]) ?_ (by simp) (fun _ => hkey)
                (putsBackStatic_of_none rfl)
              funext other
              simp [Thread.references, hpc, Pc.buffer]
            · cases h
        | some address =>
            simp only at h
            split at h
            · rename_i hnew
              obtain rfl := Option.some.inj h
              exact hs.create hnew.1 hnew.2
            · cases h
    | setDataThrows t =>
        simp only at h
        split at h
        · obtain rfl := Option.some.inj h
          have howner : OneOwner { s with outcome := .terminated } :=
            ⟨hs.owner.available_le, hs.owner.buffers, hs.owner.heap, by simp⟩
          exact ⟨howner, hs.size, hs.pool, hs.mutex, hs.seen, hs.bufferKey, hs.static⟩
        · cases h
  · cases h

/-- After the constructor every static buffer is in the pool, and nothing is with a thread. -/
theorem inv_init (THREADS : Nat) (T : Type*) [DecidableEq T] : Inv (system THREADS T).init := by
  have hpool : (system THREADS T).init.bufferPointers.take (system THREADS T).init.available =
      (List.finRange THREADS).map fun i => some (.buffers i) := by
    simp [system, construct_eq, List.take_of_length_le]
  have hstatic : ∀ p ∈ (List.finRange THREADS).map fun i => some (CharPtr.buffers i),
      ∃ i, p = some (CharPtr.buffers i) := by
    intro p hp
    obtain ⟨i, -, rfl⟩ := List.mem_map.mp hp
    exact ⟨i, rfl⟩
  have hthreads : ∀ buffer t, (system THREADS T).init.occurrences buffer (some t) = 0 :=
    fun _ _ => rfl
  have hinjective : Function.Injective fun i : Fin THREADS => some (CharPtr.buffers i) := by
    intro i j heq
    simpa using heq
  constructor
  · refine ⟨by simp [system, construct_eq], fun i => ⟨none, ?_, fun place hplace => ?_⟩,
      fun address => ⟨?_, ?_⟩, by simp [system]⟩
    · rw [State.occurrences, hpool]
      exact List.count_eq_one_of_mem ((List.nodup_finRange THREADS).map hinjective)
        (List.mem_map_of_mem (List.mem_finRange i))
    · obtain ⟨t, rfl⟩ := Option.ne_none_iff_exists'.mp hplace
      exact hthreads _ t
    · rw [State.occurrences, hpool]
      exact count_heap hstatic address
    · rw [if_neg (by simp [system])]
      intro place
      cases place with
      | none =>
          rw [State.occurrences, hpool]
          exact count_heap hstatic address
      | some t => exact hthreads _ t
  · simp [system, construct_eq]
  · rw [hpool]
    exact hstatic
  · intro t
    simp [system, Pc.locked]
  · simp [system]
  · simp [system]
  · exact fun t => putsBackStatic_of_none rfl

/-- Where `type_key_` does not say what the buffer is, `free_buffer_` takes the wrong branch. -/
theorem not_sound_of_step {s s' : State THREADS T} {a : Action T} (hguard : ¬ TypeCurrent s a)
    (h : step s a = some s') : ¬ Sound s' := by
  intro hsound
  cases a with
  | getBuffer | exitThread | clearTypeKey | newArray | setDataThrows => exact hguard trivial
  | next t =>
      simp only [TypeCurrent, not_forall] at hguard
      obtain ⟨buffer, hfreed, hwrong⟩ := hguard
      have hpc : (s.threads t).pc = .freeTest buffer := by
        cases hpc : (s.threads t).pc with
        | freeTest freed =>
            rw [hpc] at hfreed
            rw [Option.some.inj hfreed]
        | out | getLock | getTest | getPop | getUnlock | getNew | getSetType | getSetBuffer
        | freeLock | freePush | freeUnlock | freeReset =>
            rw [hpc] at hfreed
            cases hfreed
      unfold step at h
      split at h
      · cases buffer with
        | buffers i =>
            -- `delete[]` of a static buffer
            have hset : (s.threads t).typeKey ≠ none := by
              intro hnone
              exact hwrong (by rw [hnone]; rfl)
            simp only [next, hpc, if_neg hset, deleteArray] at h
            obtain rfl := Option.some.inj h
            exact hsound.owner.defined rfl
        | heap address =>
            -- an array goes on to the pool
            have hnone : (s.threads t).typeKey = none := by
              by_contra hset
              exact hwrong (Option.isSome_iff_ne_none.mpr hset)
            simp only [next, hpc, if_pos hnone] at h
            obtain rfl := Option.some.inj h
            have harray := hsound.putBack t (.heap address)
              (by simp [State.goTo, State.put, Pc.putBack])
            cases harray
      · cases h

/-- Every buffer has one owner in every state of a run, and is freed the way it was obtained, if
and only if `type_key_` always says what the buffer is where `free_buffer_` asks. -/
theorem one_owner_iff {actions : List (Action T)}
    (hrun : ((system THREADS T).run (system THREADS T).init actions).isSome) :
    Throughout (system THREADS T) Sound (system THREADS T).init actions ↔
      Meets (system THREADS T) TypeCurrent (system THREADS T).init actions := by
  obtain ⟨t, hrun⟩ := Option.isSome_iff_exists.mp hrun
  have hgood : ∀ s a s', Inv s → unguarded s a → TypeCurrent s a →
      (system THREADS T).step s a = some s' → Inv s' := by
    intro s a s' hs _ hguard hstep
    exact hs.step hguard hstep
  have hbad : ∀ s a s', Inv s → unguarded s a → ¬ TypeCurrent s a →
      (system THREADS T).step s a = some s' → ¬ Sound s' := by
    intro s a s' _ _ hguard hstep
    exact not_sound_of_step hguard hstep
  exact throughout_iff_meets (fun s hs => hs.sound) hgood hbad (inv_init THREADS T) hrun
    (meets_unguarded _ _)

/-- The thread `t` goes on `n` times. -/
def goesOn (n : Nat) (t : Nat) : List (Action Nat) :=
  List.replicate n (.next t)

/-- There is one static buffer, which thread 0 has.  Thread 1 gets an array and exits: the array
is deleted, and `type_key_` is set to null behind that.  Thread 0 exits as well, so that the
destructor of another key in thread 1 gets the static buffer, which is put back in the next
round. -/
def poolExhausted : List (Action Nat) :=
  .getBuffer 0 :: goesOn 5 0 ++ .getBuffer 1 :: goesOn 3 1 ++ .newArray 1 (some 0) ::
    goesOn 2 1 ++ .exitThread 1 :: goesOn 2 1 ++ .clearTypeKey 1 :: .exitThread 0 ::
    goesOn 5 0 ++ .getBuffer 1 :: goesOn 5 1 ++ .exitThread 1 :: goesOn 5 1

theorem one_owner_poolExhausted :
    Throughout (system 1 Nat) Sound (system 1 Nat).init poolExhausted :=
  (one_owner_iff (by decide +kernel)).mpr (by decide +kernel)

/-- Thread 0 has the static buffer, and thread 1 exits without having had one.  The destructor of
another key, which stands between the two, gets it an array.  In this round `type_key_` is set to
null, and in the next one `free_buffer_` puts the array into the pool.  Then thread 0 exits. -/
def keyBetween : List (Action Nat) :=
  .getBuffer 0 :: goesOn 5 0 ++ .getBuffer 1 :: goesOn 3 1 ++ .newArray 1 (some 0) ::
    goesOn 2 1 ++ .clearTypeKey 1 :: .exitThread 1 :: goesOn 5 1

theorem array_put_back :
    (∃ s, (system 1 Nat).run (system 1 Nat).init keyBetween = some s ∧
      s.bufferPointers = [some (.heap 0)] ∧ s.available = 1) ∧
    (∃ s, (system 1 Nat).run (system 1 Nat).init (keyBetween ++ .exitThread 0 :: goesOn 3 0) =
      some s ∧ s.outcome = .undefined) ∧
    ¬ Throughout (system 1 Nat) Sound (system 1 Nat).init keyBetween := by
  have hend : ((system 1 Nat).run (system 1 Nat).init keyBetween).map
      (fun s => (s.bufferPointers, s.available)) = some ([some (.heap 0)], 1) := by
    decide +kernel
  have hbehind : ((system 1 Nat).run (system 1 Nat).init
      (keyBetween ++ .exitThread 0 :: goesOn 3 0)).map (fun s => s.outcome) =
      some .undefined := by
    decide +kernel
  obtain ⟨s, hrun, hvalues⟩ := Option.map_eq_some_iff.mp hend
  obtain ⟨hpointers, havailable⟩ := Prod.mk.inj hvalues
  refine ⟨⟨s, hrun, hpointers, havailable⟩, Option.map_eq_some_iff.mp hbehind, fun hall => ?_⟩
  have hpool := ((hall.last hrun).owner.heap 0).1
  rw [State.occurrences, hpointers, havailable] at hpool
  exact absurd hpool (by decide)

end ThreadBuffer
end Gears
end LiteMQ
