import LiteMQ.Poller.CleanerCounters

/-!
# The grace period of the cleaner

An object that was pushed should be dropped only after every thread has run a
call of `release` that began after the push.

The code's cleaner is run here on objects that carry the time of their push, and
the times at which calls begin and end are recorded next to it.  `Graceful` is
the invariant: while no epoch is being closed, a thread that is in the current
epoch began its call after everything in `free_` was pushed; while a thread
closes one, all others did, and what is in `free_candidates_` is older than
every call that entered the next epoch already.

Two things break it, and `gracePeriod_of_graceSafe` says that nothing else does:
a push between the first re-entry into the next epoch and the swap that should
have come before it, and a second thread that closes an epoch while the first
still does.  `dropped_too_early` is a run of two threads with the first.
-/

namespace LiteMQ
namespace CleanerGrace

open Counting DescriptorHandlerCleaner Function

/-- An object with the time at which it was pushed. -/
structure Pushed (Obj : Type*) where
  obj : Obj
  time : Nat

/-- A dropped object, with the beginning of the last call of `release` that
every thread had executed by then. -/
structure Dropped (n : Nat) (Obj : Type*) where
  pushed : Pushed Obj
  executed : Fin n → Nat

/-- The cleaner with a clock, the beginning of the last call of every thread,
the beginning of the last call that it executed, and what was dropped. -/
structure State (n : Nat) (Obj : Type*) where
  cleaner : DescriptorHandlerCleaner n (Pushed Obj)
  now : Nat
  callBegin : Fin n → Nat
  executedBegin : Fin n → Nat
  dropped : List (Dropped n Obj)

variable {n : Nat} {Obj : Type*}

def initial (n : Nat) (Obj : Type*) : State n Obj where
  cleaner := .initial n (Pushed Obj)
  now := 1
  callBegin := fun _ => 0
  executedBegin := fun _ => 0
  dropped := []

/-- `push`, at the current time. -/
def push (s : State n Obj) (obj : Obj) : State n Obj :=
  { s with cleaner := s.cleaner.push ⟨obj, s.now⟩, now := s.now + 1 }

/-- The beginnings of the last calls after the next operation of thread `i`. -/
def callBeginAfter (s : State n Obj) (i : Fin n) : Fin n → Nat :=
  if s.cleaner.pc i = .idle then update s.callBegin i s.now else s.callBegin

/-- The beginnings of the last executed calls after the next operation of
thread `i`; a call is executed when it leaves its thread idle. -/
def executedBeginAfter (s : State n Obj) (i : Fin n) : Fin n → Nat :=
  if (s.cleaner.releaseStep i).pc i = .idle then
    update s.executedBegin i (callBeginAfter s i i)
  else s.executedBegin

/-- The next operation of `release(i)`. -/
def release (s : State n Obj) (i : Fin n) : State n Obj where
  cleaner := s.cleaner.releaseStep i
  now := s.now + 1
  callBegin := callBeginAfter s i
  executedBegin := executedBeginAfter s i
  dropped := s.dropped ++ (s.cleaner.cleared i).map fun pushed => ⟨pushed, executedBeginAfter s i⟩

def step (s : State n Obj) : Action n Obj → Option (State n Obj)
  | .push obj => some (push s obj)
  | .release i => some (release s i)

/-- The cleaner of `n` threads, observed. -/
def system (n : Nat) (Obj : Type*) : TransitionSystem (State n Obj) (Action n Obj) :=
  ⟨initial n Obj, step⟩

/-- What is dropped was pushed before every thread began a call of `release`
that it has executed. -/
def GracePeriod (s : State n Obj) : Prop :=
  ∀ d ∈ s.dropped, ∀ i, d.pushed.time < d.executed i

/-- The thread is in the current epoch, or on its way into it. -/
def Entered (c : DescriptorHandlerCleaner n (Pushed Obj)) (k : Fin n) : Prop :=
  c.releaseArray k = 1 ∨ c.pc k ≠ .idle

/-- No push after a thread entered the next epoch while the last one is still
being closed, and no epoch closed while another is. -/
def GraceSafe (s : State n Obj) : Action n Obj → Prop
  | .push _ => ∀ c, (s.cleaner.pc c).isClosing → ∀ k : Fin n,
      k < (s.cleaner.pc c).resetCount → k ≠ c → ¬ Entered s.cleaner k
  | .release i => s.cleaner.pc i = .decrementCount → s.cleaner.unreleasedCount = 1 →
      ∀ k, ¬ (s.cleaner.pc k).isClosing

instance (c : DescriptorHandlerCleaner n (Pushed Obj)) (k : Fin n) : Decidable (Entered c k) :=
  inferInstanceAs (Decidable (_ ∨ _))

instance (s : State n Obj) : ∀ a, Decidable (GraceSafe s a)
  | .push _ => inferInstanceAs (Decidable (∀ c, (s.cleaner.pc c).isClosing → ∀ k : Fin n,
      k < (s.cleaner.pc c).resetCount → k ≠ c → ¬ Entered s.cleaner k))
  | .release i => inferInstanceAs (Decidable (s.cleaner.pc i = .decrementCount →
      s.cleaner.unreleasedCount = 1 → ∀ k, ¬ (s.cleaner.pc k).isClosing))

/-- The recorded times. -/
structure Timed (s : State n Obj) : Prop where
  pushed_lt : ∀ x ∈ s.cleaner.free ++ s.cleaner.freeCandidates, x.time < s.now
  executed_le : ∀ i, s.executedBegin i ≤ s.callBegin i
  begin_lt : ∀ i, s.callBegin i < s.now
  executed_idle : ∀ i, s.cleaner.pc i = .idle → s.executedBegin i = s.callBegin i

/-- The threads and lists, with one closing thread at most.  The slots that its
reset loop has not reached are `1` and their threads idle. -/
structure Graceful (s : State n Obj) : Prop where
  counted : Counted s.cleaner
  timed : Timed s
  single : ∀ i k, (s.cleaner.pc i).isClosing → (s.cleaner.pc k).isClosing → i = k
  unreset : ∀ c, (s.cleaner.pc c).isClosing → ∀ k : Fin n, (s.cleaner.pc c).resetCount ≤ k →
    s.cleaner.releaseArray k = 1 ∧ (k ≠ c → s.cleaner.pc k = .idle)
  free_open : (∀ c, ¬ (s.cleaner.pc c).isClosing) → ∀ x ∈ s.cleaner.free, ∀ k,
    Entered s.cleaner k → x.time < s.callBegin k
  free_closing : ∀ c, (s.cleaner.pc c).isClosing → ∀ x ∈ s.cleaner.free,
    x.time < s.callBegin c ∧ ∀ k, k ≠ c → x.time < s.executedBegin k
  candidates_closing : ∀ c, (s.cleaner.pc c).isClosing → ∀ x ∈ s.cleaner.freeCandidates,
    ∀ k : Fin n, k < (s.cleaner.pc c).resetCount → k ≠ c → Entered s.cleaner k →
      x.time < s.callBegin k
  grace : GracePeriod s

theorem graceful_initial (hn : 0 < n) : Graceful (initial n Obj) where
  counted := counted_initial hn
  timed := ⟨by simp [initial, DescriptorHandlerCleaner.initial], fun _ => Nat.le_refl _,
    fun _ => Nat.one_pos, fun _ _ => rfl⟩
  single := fun _ _ hi => hi.elim
  unreset := fun _ hc => hc.elim
  free_open := by simp [initial, DescriptorHandlerCleaner.initial]
  free_closing := fun _ hc => hc.elim
  candidates_closing := fun _ hc => hc.elim
  grace := by simp [GracePeriod, initial]

/-! ## Pushing -/

theorem Timed.push {s : State n Obj} (hs : Timed s) (obj : Obj) : Timed (push s obj) where
  pushed_lt x hx := by
    have hx' : x ∈ s.cleaner.free ++ s.cleaner.freeCandidates ∨ x = ⟨obj, s.now⟩ := by
      simpa [CleanerGrace.push, DescriptorHandlerCleaner.push, or_assoc] using hx
    show x.time < s.now + 1
    rcases hx' with hold | rfl
    · exact Nat.lt_succ_of_lt (hs.pushed_lt x hold)
    · exact Nat.lt_succ_self _
  executed_le := hs.executed_le
  begin_lt i := Nat.lt_succ_of_lt (hs.begin_lt i)
  executed_idle := hs.executed_idle

theorem Graceful.push {s : State n Obj} (hs : Graceful s) (obj : Obj)
    (hsafe : GraceSafe s (.push obj)) : Graceful (push s obj) where
  counted := hs.counted.push _
  timed := hs.timed.push obj
  single := hs.single
  unreset := hs.unreset
  free_open := hs.free_open
  free_closing := hs.free_closing
  candidates_closing c hc x hx k hk hne hentered := by
    -- no thread has entered the next epoch yet
    exact absurd hentered (hsafe c hc k hk hne)
  grace := hs.grace

/-! ## The times after an operation of `release` -/

theorem callBegin_le_after {s : State n Obj} (hs : Timed s) (i k : Fin n) :
    s.callBegin k ≤ callBeginAfter s i k := by
  unfold callBeginAfter
  split
  · rcases eq_or_ne k i with rfl | hne
    · simpa using Nat.le_of_lt (hs.begin_lt k)
    · simp [hne]
  · exact Nat.le_refl _

theorem callBeginAfter_of_ne (s : State n Obj) {i k : Fin n} (hne : k ≠ i) :
    callBeginAfter s i k = s.callBegin k := by
  unfold callBeginAfter
  split
  · simp [hne]
  · rfl

theorem executedBeginAfter_of_ne (s : State n Obj) {i k : Fin n} (hne : k ≠ i) :
    executedBeginAfter s i k = s.executedBegin k := by
  unfold executedBeginAfter
  split
  · simp [hne]
  · rfl

theorem executedBegin_le_after {s : State n Obj} (hs : Timed s) (i k : Fin n) :
    s.executedBegin k ≤ executedBeginAfter s i k := by
  rcases eq_or_ne k i with rfl | hne
  · unfold executedBeginAfter
    split
    · rw [update_self]
      exact (hs.executed_le k).trans (callBegin_le_after hs k k)
    · exact Nat.le_refl _
  · rw [executedBeginAfter_of_ne s hne]

theorem Timed.release {s : State n Obj} (hs : Timed s) (i : Fin n) : Timed (release s i) where
  pushed_lt x hx := by
    refine Nat.lt_succ_of_lt (hs.pushed_lt x ?_)
    exact mem_of_mem_releaseStep hx
  executed_le k := by
    show executedBeginAfter s i k ≤ callBeginAfter s i k
    rcases eq_or_ne k i with rfl | hne
    · unfold executedBeginAfter
      split
      · rw [update_self]
      · exact (hs.executed_le k).trans (callBegin_le_after hs k k)
    · rw [executedBeginAfter_of_ne s hne, callBeginAfter_of_ne s hne]
      exact hs.executed_le k
  begin_lt k := by
    show callBeginAfter s i k < s.now + 1
    unfold callBeginAfter
    split
    · rcases eq_or_ne k i with rfl | hne
      · simp
      · simpa [hne] using Nat.lt_succ_of_lt (hs.begin_lt k)
    · exact Nat.lt_succ_of_lt (hs.begin_lt k)
  executed_idle k hk := by
    show executedBeginAfter s i k = callBeginAfter s i k
    rcases eq_or_ne k i with rfl | hne
    · have hidle : (s.cleaner.releaseStep k).pc k = .idle := hk
      unfold executedBeginAfter
      rw [if_pos hidle, update_self]
    · rw [executedBeginAfter_of_ne s hne, callBeginAfter_of_ne s hne]
      exact hs.executed_idle k (by simpa [CleanerGrace.release, releaseStep_pc_of_ne _ hne] using hk)

/-! ## The operations of `release` -/

/-- A thread that enters, or has entered, the current epoch began its call after
everything that was pushed before. -/
theorem lt_callBeginAfter {s : State n Obj} (hs : Timed s) {i k : Fin n} {time : Nat}
    (hnow : time < s.now) (hbefore : Entered s.cleaner k → time < s.callBegin k)
    (hsame : k ≠ i → Entered (s.cleaner.releaseStep i) k → Entered s.cleaner k)
    (hentered : Entered (s.cleaner.releaseStep i) k) : time < callBeginAfter s i k := by
  rcases eq_or_ne k i with rfl | hne
  · by_cases hidle : s.cleaner.pc k = .idle
    · simpa [callBeginAfter, hidle] using hnow
    · exact (hbefore (Or.inr hidle)).trans_le (callBegin_le_after hs k k)
  · rw [callBeginAfter_of_ne s hne]
    exact hbefore (hsame hne hentered)

/-- What an operation outside the closing of an epoch leaves alone. -/
theorem releaseStep_ordinary {c : DescriptorHandlerCleaner n Obj} {i : Fin n}
    (hnot : ¬ (c.pc i).isClosing) :
    (c.releaseStep i).free = c.free ∧ (c.releaseStep i).freeCandidates = c.freeCandidates ∧
      c.cleared i = [] ∧ (∀ k, k ≠ i → (c.releaseStep i).releaseArray k = c.releaseArray k) ∧
      (c.pc i = .idle → c.releaseArray i = 1 →
        (c.releaseStep i).releaseArray i = 1 ∧ (c.releaseStep i).pc i = .idle) := by
  unfold releaseStep cleared
  cases hpc : c.pc i with
  | idle =>
      dsimp only
      split
      · rename_i hzero
        exact ⟨rfl, rfl, rfl, fun _ _ => rfl, fun _ hone => by omega⟩
      · exact ⟨rfl, rfl, rfl, fun _ _ => rfl, fun _ hone => ⟨hone, hpc⟩⟩
  | reset j => exact absurd (by simp [hpc, ReleasePc.isClosing]) hnot
  | credit j => exact absurd (by simp [hpc, ReleasePc.isClosing]) hnot
  | _ => exact ⟨rfl, rfl, rfl, fun k hne => by simp [hne], fun hidle => by simp at hidle⟩

/-- An operation outside the closing of an epoch. -/
theorem Graceful.ordinary {s : State n Obj} (hs : Graceful s) {i : Fin n}
    (hcounted : Counted (s.cleaner.releaseStep i)) (hnot : ¬ (s.cleaner.pc i).isClosing)
    (hnot' : ¬ ((s.cleaner.releaseStep i).pc i).isClosing) : Graceful (release s i) := by
  obtain ⟨hfree, hcandidates, hcleared, hslots, hreturn⟩ := releaseStep_ordinary hnot
  -- the threads that close an epoch are others, and the same before and after
  have hother : ∀ {c}, ((s.cleaner.releaseStep i).pc c).isClosing →
      c ≠ i ∧ (s.cleaner.releaseStep i).pc c = s.cleaner.pc c := by
    intro c hc
    have hne : c ≠ i := by
      rintro rfl
      exact hnot' hc
    exact ⟨hne, releaseStep_pc_of_ne _ hne⟩
  have hentered : ∀ k, k ≠ i → Entered (s.cleaner.releaseStep i) k → Entered s.cleaner k := by
    intro k hne hk
    rwa [Entered, hslots k hne, releaseStep_pc_of_ne _ hne] at hk
  have hpushed := hs.timed.pushed_lt
  refine ⟨hcounted, hs.timed.release i, ?_, ?_, ?_, ?_, ?_, ?_⟩
  · intro c d hc hd
    exact hs.single c d ((hother hc).2 ▸ hc) ((hother hd).2 ▸ hd)
  · intro c hc k hk
    obtain ⟨hne, hpc⟩ := hother hc
    have hk' : (s.cleaner.pc c).resetCount ≤ k := by rwa [← hpc]
    obtain ⟨hone, hidle⟩ := hs.unreset c (hpc ▸ hc) k hk'
    rcases eq_or_ne k i with rfl | hki
    · have hreturned := hreturn (hidle hne.symm) hone
      exact ⟨hreturned.1, fun _ => hreturned.2⟩
    · show (s.cleaner.releaseStep i).releaseArray k = 1 ∧
        (k ≠ c → (s.cleaner.releaseStep i).pc k = .idle)
      rw [hslots k hki, releaseStep_pc_of_ne _ hki]
      exact ⟨hone, hidle⟩
  · intro hopen x hx k hk
    have hx' : x ∈ s.cleaner.free := hfree ▸ hx
    have hopen' : ∀ c, ¬ (s.cleaner.pc c).isClosing := by
      intro c hc
      rcases eq_or_ne c i with rfl | hne
      · exact hnot hc
      · exact hopen c (by simpa [release, releaseStep_pc_of_ne _ hne] using hc)
    exact lt_callBeginAfter hs.timed (hpushed x (List.mem_append_left _ hx'))
      (hs.free_open hopen' x hx' k) (hentered k) hk
  · intro c hc x hx
    obtain ⟨-, hpc⟩ := hother hc
    obtain ⟨hbegin, hexecuted⟩ := hs.free_closing c (hpc ▸ hc) x (hfree ▸ hx)
    exact ⟨hbegin.trans_le (callBegin_le_after hs.timed i c), fun k hk =>
      (hexecuted k hk).trans_le (executedBegin_le_after hs.timed i k)⟩
  · intro c hc x hx k hk hkc hentered'
    obtain ⟨-, hpc⟩ := hother hc
    have hx' : x ∈ s.cleaner.freeCandidates := hcandidates ▸ hx
    have hk' : k < (s.cleaner.pc c).resetCount := by rwa [← hpc]
    exact lt_callBeginAfter hs.timed (hpushed x (List.mem_append_right _ hx'))
      (hs.candidates_closing c (hpc ▸ hc) x hx' k hk' hkc) (hentered k) hentered'
  · intro d hd
    have hd' : d ∈ s.dropped := by simpa [release, hcleared] using hd
    exact hs.grace d hd'

/-- When the count is `1` and no epoch is being closed, every slot is `1` and
every other thread idle. -/
theorem all_released {c : DescriptorHandlerCleaner n Obj} (hc : Counted c) {i : Fin n}
    (hpc : c.pc i = .decrementCount) (hcount : c.unreleasedCount = 1)
    (hopen : ∀ k, ¬ (c.pc k).isClosing) (k : Fin n) :
    c.releaseArray k = 1 ∧ (k ≠ i → c.pc k = .idle) := by
  have howed : ∀ l, 0 ≤ (c.pc l).owed := fun l => ReleasePc.owed_nonneg (hopen l)
  have hslots : ∀ l, 0 ≤ unreleased (c.releaseArray l) := fun l =>
    unreleased_nonneg (c.releaseArray l)
  have hsum := hc.count
  rw [hcount] at hsum
  have hdebt : (c.pc i).owed = 1 := by rw [hpc]; rfl
  -- the count of `1` is what thread `i` itself owes, so no slot is `0`
  have hone : ∀ l, c.releaseArray l = 1 := by
    intro l
    have hslot := le_total hslots l
    have hdebts := le_total howed i
    refine (hc.slot l).resolve_left fun hzero => ?_
    rw [hzero, unreleased, if_pos rfl] at hslot
    omega
  refine ⟨hone k, fun hne => ?_⟩
  have hdebts := add_le_total howed hne.symm
  have htotal : 0 ≤ total unreleased c.releaseArray := (hslots i).trans (le_total hslots i)
  have hnone : (c.pc k).owed ≤ 0 := by omega
  cases hk : c.pc k with
  | idle => rfl
  | increment => exact absurd (hc.loaded k hk) (by rw [hone k]; decide)
  | decrementCount => simp [hk, ReleasePc.owed] at hnone
  | reset j => exact absurd (by simp [hk, ReleasePc.isClosing]) (hopen k)
  | credit j => exact absurd (by simp [hk, ReleasePc.isClosing]) (hopen k)
  | revert => exact absurd hk (hc.noRevert k).1
  | revertCount => exact absurd hk (hc.noRevert k).2

/-- The thread that takes the count to zero starts to close the epoch. -/
theorem Graceful.close {s : State n Obj} (hs : Graceful s) {i : Fin n}
    (hcounted : Counted (s.cleaner.releaseStep i)) (hpc : s.cleaner.pc i = .decrementCount)
    (hcount : s.cleaner.unreleasedCount = 1) (hopen : ∀ k, ¬ (s.cleaner.pc k).isClosing) :
    Graceful (release s i) := by
  have hnext : s.cleaner.releaseStep i = (s.cleaner.addToCount (-1)).goto i (.reset 0) := by
    simp [releaseStep, hpc, hcount]
  have hall := all_released hs.counted hpc hcount hopen
  have honly : ∀ c, ((s.cleaner.releaseStep i).pc c).isClosing → c = i := by
    intro c hc
    by_contra hne
    rw [releaseStep_pc_of_ne _ hne] at hc
    exact hopen c hc
  have hzero : ((s.cleaner.releaseStep i).pc i).resetCount = 0 := by
    simp [hnext, ReleasePc.resetCount]
  refine ⟨hcounted, hs.timed.release i, ?_, ?_, ?_, ?_, ?_, ?_⟩
  · intro c d hc hd
    rw [honly c hc, honly d hd]
  · intro c hc k _
    obtain rfl := honly c hc
    show (s.cleaner.releaseStep c).releaseArray k = 1 ∧
      (k ≠ c → (s.cleaner.releaseStep c).pc k = .idle)
    refine ⟨by simpa [hnext] using (hall k).1, fun hne => ?_⟩
    rw [releaseStep_pc_of_ne _ hne]
    exact (hall k).2 hne
  · intro hnone
    exact absurd (by simp [release, hnext, ReleasePc.isClosing]) (hnone i)
  · intro c hc x hx
    obtain rfl := honly c hc
    have hx' : x ∈ s.cleaner.free := by simpa [release, hnext] using hx
    -- all slots are `1`, so every thread has entered the epoch behind these pushes
    have hbegin : ∀ k, x.time < s.callBegin k := fun k =>
      hs.free_open hopen x hx' k (Or.inl (hall k).1)
    refine ⟨(hbegin c).trans_le (callBegin_le_after hs.timed c c), fun k hk => ?_⟩
    have hexecuted := hs.timed.executed_idle k ((hall k).2 hk)
    exact (hexecuted ▸ hbegin k).trans_le (executedBegin_le_after hs.timed c k)
  · intro c hc x _ k hk
    obtain rfl := honly c hc
    have hk' : k < ((s.cleaner.releaseStep c).pc c).resetCount := hk
    rw [hzero] at hk'
    exact absurd hk' (Nat.not_lt_zero _)
  · intro d hd
    have hd' : d ∈ s.dropped := by simpa [release, cleared, hpc] using hd
    exact hs.grace d hd'

/-- The thread that closes an epoch goes on, after it has reset one more slot or
none. -/
theorem Graceful.closing {s : State n Obj} (hs : Graceful s) {i : Fin n}
    (hcounted : Counted (s.cleaner.releaseStep i)) (hclosing : (s.cleaner.pc i).isClosing)
    (hclosing' : ((s.cleaner.releaseStep i).pc i).isClosing)
    (hfree : (s.cleaner.releaseStep i).free = s.cleaner.free)
    (hcandidates : (s.cleaner.releaseStep i).freeCandidates = s.cleaner.freeCandidates)
    (hcleared : s.cleaner.cleared i = [])
    (hcount : (s.cleaner.pc i).resetCount ≤ ((s.cleaner.releaseStep i).pc i).resetCount)
    (hslots : ∀ k : Fin n, (s.cleaner.releaseStep i).releaseArray k =
      if (s.cleaner.pc i).resetCount ≤ k ∧ k < ((s.cleaner.releaseStep i).pc i).resetCount then 0
      else s.cleaner.releaseArray k) : Graceful (release s i) := by
  have honly : ∀ c, ((s.cleaner.releaseStep i).pc c).isClosing → c = i := by
    intro c hc
    by_contra hne
    rw [releaseStep_pc_of_ne _ hne] at hc
    exact hne (hs.single c i hc hclosing)
  refine ⟨hcounted, hs.timed.release i, ?_, ?_, ?_, ?_, ?_, ?_⟩
  · intro c d hc hd
    rw [honly c hc, honly d hd]
  · intro c hc k hk
    obtain rfl := honly c hc
    have hk' : ((s.cleaner.releaseStep c).pc c).resetCount ≤ k := hk
    obtain ⟨hone, hidle⟩ := hs.unreset c hclosing k (hcount.trans hk')
    show (s.cleaner.releaseStep c).releaseArray k = 1 ∧
      (k ≠ c → (s.cleaner.releaseStep c).pc k = .idle)
    refine ⟨?_, fun hne => ?_⟩
    · rw [hslots k, if_neg (by omega)]
      exact hone
    · rw [releaseStep_pc_of_ne _ hne]
      exact hidle hne
  · intro hnone
    exact absurd hclosing' (hnone i)
  · intro c hc x hx
    obtain rfl := honly c hc
    have hx' : x ∈ s.cleaner.free := hfree ▸ hx
    obtain ⟨hbegin, hexecuted⟩ := hs.free_closing c hclosing x hx'
    exact ⟨hbegin.trans_le (callBegin_le_after hs.timed c c), fun k hk =>
      (hexecuted k hk).trans_le (executedBegin_le_after hs.timed c k)⟩
  · intro c hc x hx k _ hkc hentered
    obtain rfl := honly c hc
    have hx' : x ∈ s.cleaner.freeCandidates := hcandidates ▸ hx
    show x.time < callBeginAfter s c k
    rw [callBeginAfter_of_ne s hkc]
    by_cases hbefore : k < (s.cleaner.pc c).resetCount
    · refine hs.candidates_closing c hclosing x hx' k hbefore hkc ?_
      have hentered' : Entered (s.cleaner.releaseStep c) k := hentered
      rwa [Entered, hslots k, if_neg (by omega), releaseStep_pc_of_ne _ hkc] at hentered'
    · -- the slot was reset just now, and its thread has not come back yet
      have hk' : k < ((s.cleaner.releaseStep c).pc c).resetCount := by assumption
      have hidle := (hs.unreset c hclosing k (Nat.le_of_not_lt hbefore)).2 hkc
      rcases hentered with hone | hbusy
      · have hone' : (s.cleaner.releaseStep c).releaseArray k = 1 := hone
        rw [hslots k, if_pos ⟨Nat.le_of_not_lt hbefore, hk'⟩] at hone'
        exact absurd hone' (by decide)
      · have hbusy' : (s.cleaner.releaseStep c).pc k ≠ .idle := hbusy
        rw [releaseStep_pc_of_ne _ hkc] at hbusy'
        exact absurd hidle hbusy'
  · intro d hd
    have hd' : d ∈ s.dropped := by simpa [release, hcleared] using hd
    exact hs.grace d hd'

/-- The swap drops what was in `free_`: every other thread has executed a call
that is young enough, and the call that closes the epoch ends here. -/
theorem Graceful.swap {s : State n Obj} (hs : Graceful s) {i : Fin n} {j : Nat}
    (hcounted : Counted (s.cleaner.releaseStep i)) (hpc : s.cleaner.pc i = .reset j)
    (hj : n ≤ j) : Graceful (release s i) := by
  have hnext : s.cleaner.releaseStep i = s.cleaner.swapLists.goto i .idle := by
    simp [releaseStep, hpc, Nat.not_lt.mpr hj]
  have hclosing : (s.cleaner.pc i).isClosing := by simp [hpc, ReleasePc.isClosing]
  have hown : s.cleaner.releaseArray i = 0 :=
    hs.counted.ownSlot i (by rw [hpc]; exact i.isLt.trans_le hj)
  have hidle : (s.cleaner.releaseStep i).pc i = .idle := by simp [hnext]
  have hnone : ∀ c, ¬ ((s.cleaner.releaseStep i).pc c).isClosing := by
    intro c hc
    rcases eq_or_ne c i with rfl | hne
    · simp [hidle, ReleasePc.isClosing] at hc
    · rw [releaseStep_pc_of_ne _ hne] at hc
      exact hne (hs.single c i hc hclosing)
  refine ⟨hcounted, hs.timed.release i, ?_, ?_, ?_, ?_, ?_, ?_⟩
  · intro c d hc
    exact absurd hc (hnone c)
  · intro c hc
    exact absurd hc (hnone c)
  · intro _ x hx k hk
    have hx' : x ∈ s.cleaner.freeCandidates := by simpa [release, hnext, swapLists] using hx
    have hk' : Entered (s.cleaner.releaseStep i) k := hk
    -- the closing thread has not entered the new epoch, the others were looked at on the way
    rcases eq_or_ne k i with rfl | hne
    · simp [Entered, hnext, hown] at hk'
    · have hentered : Entered s.cleaner k := by simpa [Entered, hnext, hne] using hk'
      have hlt : k < (s.cleaner.pc i).resetCount := by
        rw [hpc]
        exact k.isLt.trans_le hj
      show x.time < callBeginAfter s i k
      rw [callBeginAfter_of_ne s hne]
      exact hs.candidates_closing i hclosing x hx' k hlt hne hentered
  · intro c hc
    exact absurd hc (hnone c)
  · intro c hc
    exact absurd hc (hnone c)
  · intro d hd k
    have hd' : d ∈ s.dropped ∨ ∃ x ∈ s.cleaner.free, ⟨x, executedBeginAfter s i⟩ = d := by
      simpa [release, cleared, hpc, Nat.not_lt.mpr hj] using hd
    rcases hd' with hold | ⟨x, hx, rfl⟩
    · exact hs.grace d hold k
    · obtain ⟨hbegin, hexecuted⟩ := hs.free_closing i hclosing x hx
      rcases eq_or_ne k i with rfl | hne
      · show x.time < executedBeginAfter s k k
        unfold executedBeginAfter
        rw [if_pos hidle, update_self]
        exact hbegin.trans_le (callBegin_le_after hs.timed k k)
      · exact (hexecuted k hne).trans_le (executedBegin_le_after hs.timed i k)

/-! ## Runs -/

/-- With one closing thread no slot underflows. -/
theorem Graceful.noUnderflow {s : State n Obj} (hs : Graceful s) (i : Fin n) :
    NoUnderflow s.cleaner (.release i) := by
  intro j hpc
  have hclosing : (s.cleaner.pc i).isClosing := by simp [hpc, ReleasePc.isClosing]
  exact (hs.unreset i hclosing j (by rw [hpc]; exact Nat.le_refl _)).1

theorem Graceful.step {s t : State n Obj} {a : Action n Obj} (hs : Graceful s)
    (hsafe : GraceSafe s a) (hstep : CleanerGrace.step s a = some t) : Graceful t := by
  cases a with
  | push obj =>
      obtain rfl := Option.some.inj hstep
      exact hs.push obj hsafe
  | release i =>
      obtain rfl := Option.some.inj hstep
      have hcounted : Counted (s.cleaner.releaseStep i) :=
        hs.counted.step (hs.noUnderflow i) rfl
      cases hpc : s.cleaner.pc i with
      | idle =>
          refine hs.ordinary hcounted (by simp [hpc, ReleasePc.isClosing]) ?_
          simp only [releaseStep, hpc]
          split <;> simp [hpc, ReleasePc.isClosing]
      | increment =>
          refine hs.ordinary hcounted (by simp [hpc, ReleasePc.isClosing]) ?_
          simp [releaseStep, hpc, hs.counted.loaded i hpc, ReleasePc.isClosing]
      | decrementCount =>
          by_cases hcount : s.cleaner.unreleasedCount = 1
          · exact hs.close hcounted hpc hcount (hsafe hpc hcount)
          · refine hs.ordinary hcounted (by simp [hpc, ReleasePc.isClosing]) ?_
            simp [releaseStep, hpc, hcount, ReleasePc.isClosing]
      | reset j =>
          by_cases hj : j < n
          · have hone : s.cleaner.releaseArray ⟨j, hj⟩ = 1 := hs.noUnderflow i ⟨j, hj⟩ hpc
            have hnext : s.cleaner.releaseStep i =
                (s.cleaner.addToSlot ⟨j, hj⟩ (-1)).goto i (.credit j) := by
              simp [releaseStep, hpc, hj, hone]
            refine hs.closing hcounted (by simp [hpc, ReleasePc.isClosing])
              (by simp [hnext, ReleasePc.isClosing]) (by rw [hnext]; rfl) (by rw [hnext]; rfl)
              (by simp [cleared, hpc, hj]) (by simp [hnext, hpc, ReleasePc.resetCount]) ?_
            intro k
            rcases eq_or_ne k ⟨j, hj⟩ with rfl | hne
            · simp [hnext, hpc, hone, ReleasePc.resetCount]
            · have hdiff : (k : Nat) ≠ j := fun heq => hne (Fin.ext heq)
              simp only [hnext, hpc, goto_releaseArray, addToSlot_releaseArray, goto_pc,
                update_self, update_of_ne hne, ReleasePc.resetCount]
              rw [if_neg (by omega)]
          · exact hs.swap hcounted hpc (Nat.le_of_not_lt hj)
      | credit j =>
          have hnext : s.cleaner.releaseStep i =
              (s.cleaner.addToCount 1).goto i (.reset (j + 1)) := by
            simp [releaseStep, hpc]
          refine hs.closing hcounted (by simp [hpc, ReleasePc.isClosing])
            (by simp [hnext, ReleasePc.isClosing]) (by rw [hnext]; rfl) (by rw [hnext]; rfl)
            (by simp [cleared, hpc]) (by simp [hnext, hpc, ReleasePc.resetCount]) ?_
          intro k
          simp only [hnext, hpc, goto_releaseArray, addToCount_releaseArray, goto_pc,
            update_self, ReleasePc.resetCount]
          rw [if_neg (by omega)]
      | revert => exact absurd hpc (hs.counted.noRevert i).1
      | revertCount => exact absurd hpc (hs.counted.noRevert i).2

/-- In every run whose steps are safe, an object is dropped only after every
thread has executed a call of `release` that began after the push; the call
that drops the object is the last one of its thread and ends with the drop. -/
theorem gracePeriod_of_graceSafe (hn : 0 < n) {s : State n Obj}
    (hs : TransitionSystem.Reachable (system n Obj) GraceSafe s) : GracePeriod s := by
  have hgraceful : Graceful s :=
    hs.invariant (graceful_initial hn) fun _ _ _ hs hsafe hstep => hs.step hsafe hstep
  exact hgraceful.grace

/-- Two threads in turn: the object is dropped when the second epoch ends. -/
theorem gracePeriod_two_epochs :
    ∃ s, (system 2 Nat).run (system 2 Nat).init
        (Action.push 7 :: List.replicate 3 (Action.release 0) ++
          List.replicate 8 (Action.release 1) ++ List.replicate 3 (Action.release 0) ++
          List.replicate 8 (Action.release 1)) = some s ∧
      s.dropped.map (fun d => d.pushed.obj) = [7] ∧ GracePeriod s := by
  have hend : ((system 2 Nat).run (system 2 Nat).init
      (Action.push 7 :: List.replicate 3 (Action.release 0) ++
        List.replicate 8 (Action.release 1) ++ List.replicate 3 (Action.release 0) ++
        List.replicate 8 (Action.release 1))).map
        (fun s => s.dropped.map fun d => d.pushed.obj) = some [7] := by
    decide +kernel
  obtain ⟨s, hrun, hdropped⟩ := Option.map_eq_some_iff.mp hend
  exact ⟨s, hrun, hdropped,
    gracePeriod_of_graceSafe (by decide) (TransitionSystem.Reachable.init.of_run hrun
      (by decide +kernel))⟩

/-- Thread `0` enters the next epoch while thread `1` still closes the last one;
then an object is pushed, thread `1` swaps it into `free_`, and its next call
closes the new epoch and drops the object.  Thread `0` began no call since the
push. -/
theorem dropped_too_early :
    ∃ s, (system 2 Nat).run (system 2 Nat).init
        (List.replicate 3 (Action.release 0) ++ List.replicate 4 (Action.release 1) ++
          List.replicate 3 (Action.release 0) ++ List.replicate 3 (Action.release 1) ++
          Action.push 7 :: List.replicate 9 (Action.release 1)) = some s ∧
      (∃ d ∈ s.dropped, d.pushed.obj = 7 ∧ s.callBegin 0 < d.pushed.time) ∧
      ¬ GracePeriod s := by
  have hend : ((system 2 Nat).run (system 2 Nat).init
      (List.replicate 3 (Action.release 0) ++ List.replicate 4 (Action.release 1) ++
        List.replicate 3 (Action.release 0) ++ List.replicate 3 (Action.release 1) ++
        Action.push 7 :: List.replicate 9 (Action.release 1))).map
        (fun s => (s.dropped.map fun d => (d.pushed.obj, d.pushed.time, d.executed 0),
          s.callBegin 0)) = some ([(7, 14, 8)], 8) := by
    decide +kernel
  obtain ⟨s, hrun, hvalues⟩ := Option.map_eq_some_iff.mp hend
  obtain ⟨hdropped, hbegin⟩ := Prod.mk.inj hvalues
  obtain ⟨d, hlist, hd⟩ := List.map_eq_singleton_iff.mp hdropped
  simp only [Prod.mk.injEq] at hd
  obtain ⟨hobj, htime, hexecuted⟩ := hd
  have hmem : d ∈ s.dropped := by simp [hlist]
  refine ⟨s, hrun, ⟨d, hmem, hobj, by omega⟩, fun hgrace => ?_⟩
  have hlt := hgrace d hmem 0
  omega

end CleanerGrace
end LiteMQ
