import LiteMQ.Foundation.Epochs
import LiteMQ.Poller.Cleaner
import Mathlib.Data.Fintype.Card

/-!
# Calls of the cleaner, one at a time

When no call of `push` or `release` comes into another one, the cleaner is a
reclamation in epochs: the slots of `release_array_` that are `1` are the threads
that have passed, `free_` is what waits for the end of the epoch and
`free_candidates_` what was retired in it (`Represents`).  `releaseCall` performs
the atomic operations of a whole `release`, and `represents_call` says that each
call does what the event of the epochs does.

So a pushed holder is dropped once, and at the latest when all threads have
called `release` twice over (`dropped_in_two_rounds`).
-/

namespace LiteMQ
namespace DescriptorHandlerCleaner

open Function

variable {n : Nat} {Obj : Type*}

/-- A complete call. -/
inductive Call (n : Nat) (Obj : Type*)
  | push (obj : Obj)
  | release (i : Fin n)

/-- The next operations of thread `i` until it has left `release(i)`, at most
`bound` of them: the cleaner, and what `clear_list` dropped. -/
def finishRelease (i : Fin n) :
    Nat → DescriptorHandlerCleaner n Obj → DescriptorHandlerCleaner n Obj × List Obj
  | 0, c => (c, [])
  | bound + 1, c =>
      if c.pc i = .idle then (c, [])
      else ((finishRelease i bound (c.releaseStep i)).1,
        c.cleared i ++ (finishRelease i bound (c.releaseStep i)).2)

/-- `release(i)` from its first operation to its end.  It takes two operations
for each slot that it resets. -/
def releaseCall (c : DescriptorHandlerCleaner n Obj) (i : Fin n) :
    DescriptorHandlerCleaner n Obj × List Obj :=
  finishRelease i (2 * n + 3) (c.releaseStep i)

/-- What a call leaves, and what it drops. -/
def call (c : DescriptorHandlerCleaner n Obj) :
    Call n Obj → DescriptorHandlerCleaner n Obj × List Obj
  | .push obj => (c.push obj, [])
  | .release i => c.releaseCall i

/-- The calls one after another: what they leave, and what they drop. -/
def calls (c : DescriptorHandlerCleaner n Obj) :
    List (Call n Obj) → DescriptorHandlerCleaner n Obj × List Obj
  | [] => (c, [])
  | a :: rest => ((calls (c.call a).1 rest).1, (c.call a).2 ++ (calls (c.call a).1 rest).2)

/-- The objects that the calls push, in order. -/
def pushed : List (Call n Obj) → List Obj
  | [] => []
  | .push obj :: rest => obj :: pushed rest
  | .release _ :: rest => pushed rest

/-- What the calls drop, from a new cleaner on. -/
def dropped (as : List (Call n Obj)) : List Obj := ((initial n Obj).calls as).2

/-! ## Calls as runs of operations -/

/-- The operations of a call are operations of its thread. -/
theorem run_finishRelease (i : Fin n) (bound : Nat) (c : DescriptorHandlerCleaner n Obj) :
    ∃ k, (cleaner n Obj).run c (List.replicate k (.release i)) =
      some (finishRelease i bound c).1 := by
  induction bound generalizing c with
  | zero => exact ⟨0, rfl⟩
  | succ bound ih =>
      rw [finishRelease]
      split
      · exact ⟨0, rfl⟩
      · obtain ⟨k, hrun⟩ := ih (c.releaseStep i)
        exact ⟨k + 1, hrun⟩

/-- A complete call is a run in which no other operation comes between. -/
theorem run_call (c : DescriptorHandlerCleaner n Obj) (a : Call n Obj) :
    ∃ actions, (cleaner n Obj).run c actions = some (c.call a).1 := by
  cases a with
  | push obj => exact ⟨[.push obj], rfl⟩
  | release i =>
      obtain ⟨k, hrun⟩ := run_finishRelease i (2 * n + 3) (c.releaseStep i)
      exact ⟨.release i :: List.replicate k (.release i), hrun⟩

/-! ## The epochs of the cleaner -/

/-- The event that a call is. -/
def Call.event : Call n Obj → Epochs.Event (Fin n) Obj
  | .push obj => .retire obj
  | .release i => .pass i

/-- Between two calls: the slots that are `1` are the threads that have passed. -/
structure Represents (c : DescriptorHandlerCleaner n Obj) (s : Epochs (Fin n) Obj) : Prop where
  slot : ∀ i, c.releaseArray i = if i ∈ s.passed then 1 else 0
  count : c.unreleasedCount = n - s.passed.card
  free : c.free = s.waiting
  freeCandidates : c.freeCandidates = s.retired
  idle : ∀ i, c.pc i = .idle

theorem represents_initial (n : Nat) (Obj : Type*) :
    Represents (initial n Obj) (Epochs.initial (Fin n) Obj) where
  slot := fun _ => rfl
  count := by simp [initial, Epochs.initial]
  free := rfl
  freeCandidates := rfl
  idle := fun _ => rfl

theorem finishRelease_of_idle {i : Fin n} {c : DescriptorHandlerCleaner n Obj}
    (hidle : c.pc i = .idle) (bound : Nat) : finishRelease i bound c = (c, []) := by
  cases bound with
  | zero => rfl
  | succ bound => rw [finishRelease, if_pos hidle]

theorem finishRelease_of_busy {i : Fin n} {c : DescriptorHandlerCleaner n Obj}
    (hbusy : c.pc i ≠ .idle) (bound : Nat) : finishRelease i (bound + 1) c =
      ((finishRelease i bound (c.releaseStep i)).1,
        c.cleared i ++ (finishRelease i bound (c.releaseStep i)).2) := by
  rw [finishRelease, if_neg hbusy]

/-- The end of the reset loop. -/
theorem finishRelease_swap {i : Fin n} {j : Nat} (hend : ¬ j < n)
    {c : DescriptorHandlerCleaner n Obj} (hpc : c.pc i = .reset j) (bound : Nat) :
    finishRelease i (bound + 1) c = (c.swapLists.goto i .idle, c.free) := by
  have hstep : c.releaseStep i = c.swapLists.goto i .idle := by
    rw [releaseStep, hpc]
    exact dif_neg hend
  have hcleared : c.cleared i = c.free := by
    rw [cleared, hpc]
    exact if_neg hend
  rw [finishRelease_of_busy (by rw [hpc]; exact nofun), hstep, hcleared,
    finishRelease_of_idle (by simp), List.append_nil]

/-- A slot that the reset loop has taken back and credited to the counter. -/
def resetSlot (c : DescriptorHandlerCleaner n Obj) (i j : Fin n) :
    DescriptorHandlerCleaner n Obj :=
  { c with
    releaseArray := update c.releaseArray j 0
    unreleasedCount := c.unreleasedCount + 1
    pc := update c.pc i (.reset (j + 1)) }

/-- The two operations of the reset loop for a slot. -/
theorem finishRelease_slot {i j : Fin n} {c : DescriptorHandlerCleaner n Obj}
    (hpc : c.pc i = .reset j) (hone : c.releaseArray j = 1) (bound : Nat) :
    finishRelease i (bound + 2) c = finishRelease i bound (c.resetSlot i j) := by
  let c₁ := (c.addToSlot j (-1)).goto i (.credit j)
  have hstep₁ : c.releaseStep i = c₁ := by
    rw [releaseStep, hpc]
    simp only [dif_pos j.isLt, hone, if_true]
    rfl
  have hpc₁ : c₁.pc i = .credit j := by simp [c₁]
  have hstep₂ : c₁.releaseStep i = c.resetSlot i j := by
    rw [releaseStep, hpc₁]
    simp [c₁, goto, addToSlot, addToCount, resetSlot, hone]
  have hnone₁ : c.cleared i = [] := by
    rw [cleared, hpc]
    exact if_pos j.isLt
  have hnone₂ : c₁.cleared i = [] := by
    rw [cleared, hpc₁]
  -- neither step drops anything
  rw [finishRelease_of_busy (by rw [hpc]; exact nofun), hstep₁,
    finishRelease_of_busy (by rw [hpc₁]; exact nofun), hstep₂, hnone₁, hnone₂]
  rfl

/-- The reset loop at slot `j`, with every slot from there on still `1`: it resets
and credits them all, and swaps the lists. -/
theorem finishRelease_reset {i : Fin n} (k : Nat) {j : Nat} (hj : j + k = n)
    {c : DescriptorHandlerCleaner n Obj} (hpc : c.pc i = .reset j)
    (hother : ∀ m, m ≠ i → c.pc m = .idle)
    (hslot : ∀ m : Fin n, c.releaseArray m = if m < j then 0 else 1)
    (hcount : c.unreleasedCount = j) :
    (finishRelease i (2 * k + 1) c).2 = c.free ∧
      Represents (finishRelease i (2 * k + 1) c).1 ⟨∅, c.freeCandidates, []⟩ := by
  induction k generalizing j c with
  | zero =>
      rw [finishRelease_swap (by omega) hpc]
      refine ⟨rfl, ?_, ?_, rfl, rfl, ?_⟩
      · intro m
        show c.releaseArray m = _
        rw [hslot, if_pos (by omega)]
        simp
      · show c.unreleasedCount = _
        rw [hcount, Finset.card_empty]
        omega
      · intro m
        by_cases hm : m = i
        · simp [hm]
        · simpa [hm] using hother m hm
  | succ k ih =>
      have hlt : j < n := by omega
      have hone : c.releaseArray ⟨j, hlt⟩ = 1 := by
        rw [hslot]
        exact if_neg (Nat.lt_irrefl j)
      -- two steps for this slot, and the rest by induction
      rw [show 2 * (k + 1) + 1 = (2 * k + 1) + 2 by omega,
        finishRelease_slot (j := ⟨j, hlt⟩) hpc hone]
      apply ih (j := j + 1) (c := c.resetSlot i ⟨j, hlt⟩) (by omega)
      · exact update_self ..
      · intro m hm
        show update c.pc i _ m = _
        rw [update_of_ne hm]
        exact hother m hm
      · intro m
        show update c.releaseArray ⟨j, hlt⟩ 0 m = _
        by_cases hm : m = ⟨j, hlt⟩
        · rw [hm, update_self, if_pos (Nat.lt_succ_self j)]
        · have hne : (m : Nat) ≠ j := fun h => hm (Fin.ext h)
          rw [update_of_ne hm, hslot]
          split_ifs <;> omega
      · show c.unreleasedCount + 1 = _
        rw [hcount]
        omega

/-- A thread that has released its slot already does nothing. -/
theorem releaseCall_of_passed {c : DescriptorHandlerCleaner n Obj} {s : Epochs (Fin n) Obj}
    (h : Represents c s) {i : Fin n} (hi : i ∈ s.passed) : c.releaseCall i = (c, []) := by
  have hsame : c.releaseStep i = c := by
    rw [releaseStep, h.idle i]
    dsimp only
    rw [h.slot i, if_pos hi, if_neg one_ne_zero]
  rw [releaseCall, hsame, finishRelease_of_idle (h.idle i)]

/-- Where a thread stands that has released its slot and counted it. -/
def released (c : DescriptorHandlerCleaner n Obj) (i : Fin n) (next : ReleasePc) :
    DescriptorHandlerCleaner n Obj :=
  { c with
    releaseArray := update c.releaseArray i 1
    unreleasedCount := c.unreleasedCount - 1
    pc := update c.pc i next }

/-- The first three operations of another thread. -/
theorem releaseCall_of_not_passed {c : DescriptorHandlerCleaner n Obj} {s : Epochs (Fin n) Obj}
    (h : Represents c s) {i : Fin n} (hi : i ∉ s.passed) :
    c.releaseCall i = finishRelease i (2 * n + 1)
      (c.released i (if c.unreleasedCount = 1 then .reset 0 else .idle)) := by
  have hzero : c.releaseArray i = 0 := by rw [h.slot i, if_neg hi]
  let c₁ := c.goto i .increment
  let c₂ := (c₁.addToSlot i 1).goto i .decrementCount
  have hstep₁ : c.releaseStep i = c₁ := by
    rw [releaseStep, h.idle i]
    exact if_pos hzero
  have hstep₂ : c₁.releaseStep i = c₂ := by
    have hpc : c₁.pc i = .increment := by simp [c₁]
    rw [releaseStep, hpc]
    simp [c₂, c₁, hzero]
  have hstep₃ : c₂.releaseStep i =
      c.released i (if c.unreleasedCount = 1 then .reset 0 else .idle) := by
    have hpc : c₂.pc i = .decrementCount := by simp [c₂]
    rw [releaseStep, hpc]
    simp [c₂, c₁, goto, addToSlot, addToCount, released, hzero, Int.sub_eq_add_neg]
  have hnone : c₁.cleared i = [] ∧ c₂.cleared i = [] := by
    constructor <;> simp [cleared, c₁, c₂]
  rw [releaseCall, hstep₁, show 2 * n + 3 = (2 * n + 1) + 1 + 1 by omega,
    finishRelease_of_busy (by simp [c₁]), hstep₂, finishRelease_of_busy (by simp [c₂]), hstep₃,
    hnone.1, hnone.2]
  rfl

/-- The last thread of an epoch resets every slot and swaps the lists. -/
theorem represents_last {c : DescriptorHandlerCleaner n Obj} {s : Epochs (Fin n) Obj}
    (h : Represents c s) {i : Fin n} (hlast : insert i s.passed = Finset.univ)
    (hone : c.unreleasedCount = 1) :
    (finishRelease i (2 * n + 1) (c.released i (.reset 0))).2 = c.free ∧
      Represents (finishRelease i (2 * n + 1) (c.released i (.reset 0))).1
        ⟨∅, c.freeCandidates, []⟩ := by
  apply finishRelease_reset n (Nat.zero_add n)
  · exact update_self ..
  · intro m hm
    show update c.pc i _ m = _
    rw [update_of_ne hm]
    exact h.idle m
  · intro m
    show update c.releaseArray i 1 m = 1
    by_cases hm : m = i
    · rw [hm, update_self]
    · have hpassed : m ∈ insert i s.passed := hlast ▸ Finset.mem_univ m
      rw [update_of_ne hm, h.slot, if_pos ((Finset.mem_insert.mp hpassed).resolve_left hm)]
  · show c.unreleasedCount - 1 = 0
    omega

/-- Another thread leaves only its slot and the counter behind. -/
theorem represents_released {c : DescriptorHandlerCleaner n Obj} {s : Epochs (Fin n) Obj}
    (h : Represents c s) {i : Fin n} (hi : i ∉ s.passed) :
    Represents (c.released i .idle) { s with passed := insert i s.passed } := by
  have hcard := Finset.card_insert_of_notMem hi
  refine ⟨?_, ?_, h.free, h.freeCandidates, ?_⟩
  · intro m
    show update c.releaseArray i 1 m = _
    by_cases hm : m = i
    · simp [hm]
    · simp [hm, h.slot]
  · show c.unreleasedCount - 1 = n - ((insert i s.passed).card : Int)
    rw [h.count, hcard]
    omega
  · intro m
    by_cases hm : m = i
    · simp [released, hm]
    · simpa [released, hm] using h.idle m

/-- Each call does what its event does to the epochs, and drops what that event
reclaims. -/
theorem represents_call {c : DescriptorHandlerCleaner n Obj} {s : Epochs (Fin n) Obj}
    (h : Represents c s) (hopen : s.passed ≠ Finset.univ) (a : Call n Obj) :
    (c.call a).2 = (s.step a.event).2 ∧ Represents (c.call a).1 (s.step a.event).1 := by
  cases a with
  | push obj =>
      refine ⟨rfl, h.slot, h.count, h.free, ?_, h.idle⟩
      show c.freeCandidates ++ [obj] = s.retired ++ [obj]
      rw [h.freeCandidates]
  | release i =>
      show (c.releaseCall i).2 = (s.step (.pass i)).2 ∧
        Represents (c.releaseCall i).1 (s.step (.pass i)).1
      by_cases hi : i ∈ s.passed
      · rw [releaseCall_of_passed h hi, Epochs.step, Finset.insert_eq_of_mem hi, if_neg hopen]
        exact ⟨rfl, h⟩
      · have hcard := Finset.card_insert_of_notMem hi
        have hle := Finset.card_le_univ (insert i s.passed)
        rw [Fintype.card_fin] at hle
        have hclose : c.unreleasedCount = 1 ↔ insert i s.passed = Finset.univ := by
          rw [h.count, ← Finset.card_eq_iff_eq_univ, Fintype.card_fin]
          omega
        rw [releaseCall_of_not_passed h hi, Epochs.step]
        -- the counter reaches 0 with the thread that completes the epoch
        by_cases hlast : insert i s.passed = Finset.univ
        · have hone := hclose.mpr hlast
          rw [if_pos hone, if_pos hlast, ← h.free, ← h.freeCandidates]
          exact represents_last h hlast hone
        · rw [if_neg fun hone => hlast (hclose.mp hone), if_neg hlast,
            finishRelease_of_idle (update_self ..)]
          exact ⟨rfl, represents_released h hi⟩

/-- So do the calls of a run. -/
theorem represents_calls [Nonempty (Fin n)] {c : DescriptorHandlerCleaner n Obj}
    {s : Epochs (Fin n) Obj} (h : Represents c s) (hopen : s.passed ≠ Finset.univ)
    (as : List (Call n Obj)) :
    (c.calls as).2 = (s.run (as.map Call.event)).2 ∧
      Represents (c.calls as).1 (s.run (as.map Call.event)).1 := by
  induction as generalizing c s with
  | nil => exact ⟨rfl, h⟩
  | cons a as ih =>
      obtain ⟨hfirst, hnext⟩ := represents_call h hopen a
      obtain ⟨hrest, hend⟩ := ih hnext (Epochs.run_passed_ne_univ hopen [a.event])
      exact ⟨congrArg₂ (· ++ ·) hfirst hrest, hend⟩

theorem retiredIn_event (as : List (Call n Obj)) :
    Epochs.retiredIn (as.map Call.event) = pushed as := by
  induction as with
  | nil => rfl
  | cons a as ih =>
      cases a with
      | push obj => exact congrArg (obj :: ·) ih
      | release i => exact ih

/-! ## When a holder is dropped -/

theorem dropped_eq [Nonempty (Fin n)] (as : List (Call n Obj)) :
    dropped as = ((Epochs.initial (Fin n) Obj).run (as.map Call.event)).2 :=
  (represents_calls (represents_initial n Obj) Finset.univ_nonempty.ne_empty.symm as).1

/-- Holders are dropped in the order in which they were pushed, each push once at
most. -/
theorem dropped_prefix_pushed (hn : 1 ≤ n) (as : List (Call n Obj)) :
    dropped as <+: pushed as := by
  have : Nonempty (Fin n) := ⟨⟨0, hn⟩⟩
  have hall := Epochs.reclaimed_append_outstanding (Epochs.initial (Fin n) Obj)
    (as.map Call.event)
  rw [retiredIn_event, ← dropped_eq] at hall
  exact ⟨_, hall⟩

/-- A stretch of two parts, in each of which every thread calls `release`, has
dropped at its end everything that was pushed before it. -/
theorem pushed_prefix_dropped (hn : 1 ≤ n) (before : List (Call n Obj))
    {first second : List (Call n Obj)}
    (hfirst : ∀ i, .release i ∈ first) (hsecond : ∀ i, .release i ∈ second) :
    pushed before <+: dropped (before ++ (first ++ second)) := by
  have : Nonempty (Fin n) := ⟨⟨0, hn⟩⟩
  have hopen : (Epochs.initial (Fin n) Obj).passed ≠ Finset.univ :=
    Finset.univ_nonempty.ne_empty.symm
  have hpass : ∀ {part : List (Call n Obj)}, (∀ i, .release i ∈ part) →
      ∀ i, .pass i ∈ part.map Call.event := by
    intro part hpart i
    exact List.mem_map.mpr ⟨.release i, hpart i, rfl⟩
  have hledger := Epochs.reclaimed_append_outstanding (Epochs.initial (Fin n) Obj)
    (before.map Call.event)
  have hrounds := Epochs.reclaimed_of_two_rounds
    (Epochs.run_passed_ne_univ hopen (before.map Call.event)) (hpass hfirst) (hpass hsecond)
  rw [dropped_eq, List.map_append, List.map_append, Epochs.run_append, ← retiredIn_event]
  rw [show Epochs.retiredIn (before.map Call.event) = _ from hledger.symm]
  exact (List.prefix_append_right_inj _).mpr hrounds

/-- For every number of threads and every sequence of calls, one at a time:
holders are dropped in the order in which they were pushed, and at the end of a
stretch of two parts, in each of which every thread calls `release`, all those
pushed before it are dropped; one that is pushed once is dropped exactly once. -/
theorem dropped_in_two_rounds [DecidableEq Obj] (hn : 1 ≤ n)
    (before first second after : List (Call n Obj))
    (hfirst : ∀ i, .release i ∈ first) (hsecond : ∀ i, .release i ∈ second) :
    pushed before <+: dropped (before ++ (first ++ second)) ∧
      dropped (before ++ (first ++ second) ++ after) <+:
        pushed (before ++ (first ++ second) ++ after) ∧
      ∀ obj ∈ pushed before, (pushed (before ++ (first ++ second) ++ after)).count obj = 1 →
        (dropped (before ++ (first ++ second))).count obj = 1 ∧
          (dropped (before ++ (first ++ second) ++ after)).count obj = 1 := by
  have hin := pushed_prefix_dropped hn before hfirst hsecond
  have hall := dropped_prefix_pushed hn (before ++ (first ++ second) ++ after)
  have hlater : dropped (before ++ (first ++ second)) <+:
      dropped (before ++ (first ++ second) ++ after) := by
    have : Nonempty (Fin n) := ⟨⟨0, hn⟩⟩
    have hsplit : (before ++ (first ++ second) ++ after).map Call.event =
        (before ++ (first ++ second)).map Call.event ++ after.map Call.event := List.map_append
    rw [dropped_eq, dropped_eq, hsplit, Epochs.run_append]
    exact List.prefix_append ..
  refine ⟨hin, hall, fun obj hobj honce => ?_⟩
  -- counts along the prefixes: pushed before, dropped, dropped later, pushed
  have hpos := List.count_pos_iff.mpr hobj
  have h₁ := hin.sublist.count_le obj
  have h₂ := hlater.sublist.count_le obj
  have h₃ := hall.sublist.count_le obj
  omega

/-- Two threads; the holder is pushed after thread `0` has released its slot. -/
theorem dropped_in_two_rounds_mid_epoch :
    let before : List (Call 2 Char) := [.release 0, .push 'h']
    let round : List (Call 2 Char) := [.release 1, .release 1, .release 0]
    pushed before <+: dropped (before ++ (round ++ round)) ∧
      dropped (before ++ (round ++ round) ++ []) <+: pushed (before ++ (round ++ round) ++ []) ∧
      ∀ obj ∈ pushed before, (pushed (before ++ (round ++ round) ++ [])).count obj = 1 →
        (dropped (before ++ (round ++ round))).count obj = 1 ∧
          (dropped (before ++ (round ++ round) ++ [])).count obj = 1 := by
  intro before round
  have hround : ∀ i : Fin 2, Call.release i ∈ round := by
    intro i
    rcases Fin.exists_fin_two.mp ⟨i, rfl⟩ with rfl | rfl <;> simp [round]
  exact dropped_in_two_rounds (by decide) before round round [] hround hround

end DescriptorHandlerCleaner
end LiteMQ
