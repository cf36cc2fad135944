import LiteMQ.Foundation.Counting
import LiteMQ.Poller.Cleaner

/-!
# The counters of the cleaner

Between two calls of `release` every slot should be `0` or `1` and
`unreleased_count_` the number of slots that are `0`.

`Counted` is the invariant that holds as long as no reset loop takes a slot
below zero: a slot that was counted down but not yet credited, or counted up
but not yet debited, is one thread standing at `credit` or `decrementCount`.
`Underflow` is what happens otherwise: a slot below zero stays there, because
its own thread takes every later increment back.

`consistent_iff_noUnderflow` puts both together.  `slot_stuck` is a run of two threads
after which a slot is `-1` and the count `2`.
-/

namespace LiteMQ

/-- The thread is in the branch that closes an epoch. -/
def ReleasePc.isClosing : ReleasePc → Prop
  | .reset _ => True
  | .credit _ => True
  | _ => False

instance : DecidablePred ReleasePc.isClosing
  | .reset _ | .credit _ => inferInstanceAs (Decidable True)
  | .idle | .increment | .decrementCount | .revert | .revertCount =>
      inferInstanceAs (Decidable False)

/-- How many slots the reset loop of the thread has done. -/
def ReleasePc.resetCount : ReleasePc → Nat
  | .reset i => i
  | .credit i => i + 1
  | _ => 0

/-- What the thread still owes to `unreleased_count_`, negated. -/
def ReleasePc.owed : ReleasePc → Int
  | .decrementCount => 1
  | .credit _ => -1
  | _ => 0

/-- Only a thread that closes an epoch has a credit to give. -/
theorem ReleasePc.owed_nonneg {pc : ReleasePc} (h : ¬ pc.isClosing) : 0 ≤ pc.owed := by
  cases pc with
  | credit j => exact absurd trivial h
  | _ => simp [ReleasePc.owed]

namespace DescriptorHandlerCleaner

open Counting Function

variable {n : Nat} {Obj : Type*}

/-- `1` for a slot that is not released. -/
def unreleased (slot : Int) : Int := if slot = 0 then 1 else 0

theorem unreleased_nonneg (slot : Int) : 0 ≤ unreleased slot := by
  unfold unreleased
  split <;> omega

/-- No `release` is in progress. -/
def Quiescent (c : DescriptorHandlerCleaner n Obj) : Prop := ∀ i, c.pc i = .idle

/-- The counters between two calls of `release`. -/
structure Consistent (c : DescriptorHandlerCleaner n Obj) : Prop where
  slot : ∀ i, c.releaseArray i = 0 ∨ c.releaseArray i = 1
  count : c.unreleasedCount = (Finset.univ.filter fun i => c.releaseArray i = 0).card
  pos : 1 ≤ c.unreleasedCount

/-- The step does not count a slot down that is not `1`. -/
def NoUnderflow (c : DescriptorHandlerCleaner n Obj) : Action n Obj → Prop
  | .push _ => True
  | .release i => ∀ j : Fin n, c.pc i = .reset j → c.releaseArray j = 1

instance (c : DescriptorHandlerCleaner n Obj) : ∀ a, Decidable (NoUnderflow c a)
  | .push _ => inferInstanceAs (Decidable True)
  | .release i =>
      inferInstanceAs (Decidable (∀ j : Fin n, c.pc i = .reset j → c.releaseArray j = 1))

/-- The invariant of the counters. -/
structure Counted (c : DescriptorHandlerCleaner n Obj) : Prop where
  slot : ∀ i, c.releaseArray i = 0 ∨ c.releaseArray i = 1
  noRevert : ∀ i, c.pc i ≠ .revert ∧ c.pc i ≠ .revertCount
  loaded : ∀ i, c.pc i = .increment → c.releaseArray i = 0
  ownSlot : ∀ i : Fin n, i < (c.pc i).resetCount → c.releaseArray i = 0
  count : c.unreleasedCount = total unreleased c.releaseArray + total ReleasePc.owed c.pc
  alive : 1 ≤ c.unreleasedCount ∨ ∃ i, (c.pc i).isClosing

/-- A slot below zero, not counting an increment that its thread is about to
take back. -/
def Underflow (c : DescriptorHandlerCleaner n Obj) : Prop :=
  ∃ i, c.releaseArray i < if c.pc i = .revert then 1 else 0

theorem counted_initial (hn : 0 < n) : Counted (initial n Obj) where
  slot := fun _ => Or.inl rfl
  noRevert := fun _ => by simp [initial]
  loaded := fun _ _ => rfl
  ownSlot := fun _ _ => rfl
  count := by simp [initial, total, unreleased, ReleasePc.owed]
  alive := Or.inl (by simp only [initial]; omega)

theorem Counted.push {c : DescriptorHandlerCleaner n Obj} (hc : Counted c) (obj : Obj) :
    Counted (c.push obj) :=
  ⟨hc.slot, hc.noRevert, hc.loaded, hc.ownSlot, hc.count, hc.alive⟩

/-- Moving one thread on keeps the invariant when what the thread owes is paid
to the count. -/
theorem Counted.goto {c : DescriptorHandlerCleaner n Obj} (hc : Counted c) {i : Fin n}
    {next : ReleasePc} {paid : Int} (hrevert : next ≠ .revert ∧ next ≠ .revertCount)
    (hloaded : next = .increment → c.releaseArray i = 0)
    (hown : i < next.resetCount → c.releaseArray i = 0)
    (hpaid : paid = next.owed - (c.pc i).owed)
    (halive : 1 ≤ c.unreleasedCount + paid ∨ ∃ k, (update c.pc i next k).isClosing) :
    Counted ((c.addToCount paid).goto i next) where
  slot := hc.slot
  noRevert k := by
    rcases eq_or_ne k i with rfl | hne
    · simpa using hrevert
    · simpa [hne] using hc.noRevert k
  loaded k hk := by
    rcases eq_or_ne k i with rfl | hne
    · exact hloaded (by simpa using hk)
    · exact hc.loaded k (by simpa [hne] using hk)
  ownSlot k hk := by
    rcases eq_or_ne k i with rfl | hne
    · exact hown (by simpa using hk)
    · exact hc.ownSlot k (by simpa [hne] using hk)
  count := by
    simp only [goto_unreleasedCount, addToCount_unreleasedCount, goto_releaseArray,
      addToCount_releaseArray, goto_pc, addToCount_pc, total_update, hc.count, hpaid]
    omega
  alive := halive

/-- A thread that loaded `0` counts its own slot up. -/
theorem Counted.increment {c : DescriptorHandlerCleaner n Obj} (hc : Counted c) {i : Fin n}
    (hpc : c.pc i = .increment) : Counted ((c.addToSlot i 1).goto i .decrementCount) where
  slot k := by
    rcases eq_or_ne k i with rfl | hne
    · simp [hc.loaded k hpc]
    · simpa [hne] using hc.slot k
  noRevert k := by
    rcases eq_or_ne k i with rfl | hne
    · simp
    · simpa [hne] using hc.noRevert k
  loaded k hk := by
    rcases eq_or_ne k i with rfl | hne
    · simp at hk
    · simpa [hne] using hc.loaded k (by simpa [hne] using hk)
  ownSlot k hk := by
    rcases eq_or_ne k i with rfl | hne
    · simp [ReleasePc.resetCount] at hk
    · simpa [hne] using hc.ownSlot k (by simpa [hne] using hk)
  count := by
    have hslot := hc.loaded i hpc
    simp only [goto_unreleasedCount, addToSlot_unreleasedCount, goto_releaseArray,
      addToSlot_releaseArray, goto_pc, addToSlot_pc, total_update, hc.count, hslot, hpc]
    simp only [unreleased, ReleasePc.owed, if_pos, zero_add, one_ne_zero, if_false]
    omega
  alive := by
    rcases hc.alive with hpos | ⟨k, hk⟩
    · exact Or.inl hpos
    · have hne : k ≠ i := by
        rintro rfl
        simp [hpc, ReleasePc.isClosing] at hk
      exact Or.inr ⟨k, by simpa [hne] using hk⟩

/-- A reset loop counts a slot down that is `1`. -/
theorem Counted.reset {c : DescriptorHandlerCleaner n Obj} (hc : Counted c) {i j : Fin n}
    (hpc : c.pc i = .reset j) (hone : c.releaseArray j = 1) :
    Counted ((c.addToSlot j (-1)).goto i (.credit j)) where
  slot k := by
    rcases eq_or_ne k j with rfl | hne
    · simp [hone]
    · simpa [hne] using hc.slot k
  noRevert k := by
    rcases eq_or_ne k i with rfl | hne
    · simp
    · simpa [hne] using hc.noRevert k
  loaded k hk := by
    rcases eq_or_ne k j with rfl | hj
    · simp [hone]
    · rcases eq_or_ne k i with rfl | hne
      · simp at hk
      · simpa [hj] using hc.loaded k (by simpa [hne] using hk)
  ownSlot k hk := by
    -- the reset loop of `i` has come one slot further
    rcases eq_or_ne k j with rfl | hj
    · simp [hone]
    · have hlt : k < (c.pc k).resetCount := by
        rcases eq_or_ne k i with rfl | hne
        · have hbefore : (k : Nat) < j + 1 := by simpa [ReleasePc.resetCount] using hk
          have hdiff : (k : Nat) ≠ j := fun heq => hj (Fin.ext heq)
          rw [hpc]
          show (k : Nat) < j
          omega
        · simpa [hne] using hk
      simpa [hj] using hc.ownSlot k hlt
  count := by
    simp only [goto_unreleasedCount, addToSlot_unreleasedCount, goto_releaseArray,
      addToSlot_releaseArray, goto_pc, addToSlot_pc, total_update, hc.count, hone, hpc]
    simp only [unreleased, ReleasePc.owed, add_neg_cancel, if_pos, one_ne_zero, if_false]
    omega
  alive := Or.inr ⟨i, by simp [ReleasePc.isClosing]⟩

/-- The swap ends the closing of an epoch; the slot of the thread that closed
it is still `0`. -/
theorem Counted.swap {c : DescriptorHandlerCleaner n Obj} (hc : Counted c) {i : Fin n} {j : Nat}
    (hpc : c.pc i = .reset j) (hj : n ≤ j) : Counted (c.swapLists.goto i .idle) := by
  have hown : c.releaseArray i = 0 := hc.ownSlot i (by rw [hpc]; exact i.isLt.trans_le hj)
  have halive : 1 ≤ c.unreleasedCount ∨ ∃ k, (update c.pc i .idle k).isClosing := by
    by_cases hother : ∃ k, k ≠ i ∧ (c.pc k).isClosing
    · obtain ⟨k, hne, hk⟩ := hother
      exact Or.inr ⟨k, by simpa [hne] using hk⟩
    · -- without another closing thread nothing is owed, and slot `i` counts
      left
      have howed : ∀ k, 0 ≤ (c.pc k).owed := by
        intro k
        rcases eq_or_ne k i with rfl | hne
        · simp [hpc, ReleasePc.owed]
        · exact ReleasePc.owed_nonneg fun hk => hother ⟨k, hne, hk⟩
      have hsum := le_total (fun k => unreleased_nonneg (c.releaseArray k)) i
      have hdebts := le_total howed i
      rw [hown] at hsum
      rw [hpc] at hdebts
      rw [hc.count]
      simp only [unreleased, ReleasePc.owed, if_pos] at hsum hdebts
      omega
  have hbase : Counted ((c.addToCount 0).goto i .idle) :=
    hc.goto (by simp) (by simp) (by simp [ReleasePc.resetCount])
      (by simp [hpc, ReleasePc.owed]) (by simpa using halive)
  exact ⟨hbase.slot, hbase.noRevert, hbase.loaded, hbase.ownSlot, by simpa using hbase.count,
    by simpa using hbase.alive⟩

/-- A step that counts no slot below zero keeps the invariant. -/
theorem Counted.step {c c' : DescriptorHandlerCleaner n Obj} {a : Action n Obj} (hc : Counted c)
    (hguard : NoUnderflow c a) (hstep : step c a = some c') : Counted c' := by
  cases a with
  | push obj =>
      obtain rfl := Option.some.inj hstep
      exact hc.push obj
  | release i =>
      obtain rfl := Option.some.inj hstep
      have hclosing : ∀ next : ReleasePc, next.isClosing → ∃ k, (update c.pc i next k).isClosing :=
        fun next hnext => ⟨i, by simpa using hnext⟩
      have halive : ¬ (c.pc i).isClosing → ∀ next,
          1 ≤ c.unreleasedCount ∨ ∃ k, (update c.pc i next k).isClosing := by
        intro hnot next
        rcases hc.alive with hpos | ⟨k, hk⟩
        · exact Or.inl hpos
        · have hne : k ≠ i := by
            rintro rfl
            exact hnot hk
          exact Or.inr ⟨k, by simpa [hne] using hk⟩
      cases hpc : c.pc i with
      | idle =>
          unfold releaseStep
          rw [hpc]
          dsimp only
          split
          · rename_i hzero
            have hnext := @Counted.goto n Obj c hc i .increment 0 (by simp) (fun _ => hzero)
              (by simp [ReleasePc.resetCount]) (by simp [hpc, ReleasePc.owed])
              (by simpa using halive (by simp [hpc, ReleasePc.isClosing]) .increment)
            exact ⟨hnext.slot, hnext.noRevert, hnext.loaded, hnext.ownSlot,
              by simpa using hnext.count, by simpa using hnext.alive⟩
          · exact hc
      | increment =>
          have hzero := hc.loaded i hpc
          simpa only [releaseStep, hpc, hzero, if_pos] using hc.increment hpc
      | decrementCount =>
          simp only [releaseStep, hpc]
          split
          · exact hc.goto (by simp) (by simp) (by simp [ReleasePc.resetCount])
              (by simp [hpc, ReleasePc.owed]) (Or.inr (hclosing _ trivial))
          · rename_i hcount
            have hopen := halive (by simp [hpc, ReleasePc.isClosing]) .idle
            exact hc.goto (by simp) (by simp) (by simp [ReleasePc.resetCount])
              (by simp [hpc, ReleasePc.owed]) (hopen.imp_left fun hpos => by omega)
      | reset j =>
          simp only [releaseStep, hpc]
          split
          · rename_i hj
            have hone : c.releaseArray ⟨j, hj⟩ = 1 := hguard ⟨j, hj⟩ hpc
            rw [if_pos hone]
            exact hc.reset (j := ⟨j, hj⟩) hpc hone
          · rename_i hj
            exact hc.swap hpc (Nat.le_of_not_lt hj)
      | credit j =>
          simp only [releaseStep, hpc]
          refine hc.goto (by simp) (by simp) ?_ (by simp [hpc, ReleasePc.owed])
            (Or.inr (hclosing _ trivial))
          intro hlt
          exact hc.ownSlot i (by rw [hpc]; exact hlt)
      | revert => exact absurd hpc (hc.noRevert i).1
      | revertCount => exact absurd hpc (hc.noRevert i).2

/-! ## A slot below zero -/

theorem underflow_of_slot {c : DescriptorHandlerCleaner n Obj} {i : Fin n}
    (hslot : c.releaseArray i < 0) : Underflow c := by
  refine ⟨i, ?_⟩
  split <;> omega

/-- A reset loop that finds a slot that is not `1` takes it below zero. -/
theorem Counted.underflow {c c' : DescriptorHandlerCleaner n Obj} {a : Action n Obj}
    (hc : Counted c) (hguard : ¬ NoUnderflow c a)
    (hstep : DescriptorHandlerCleaner.step c a = some c') :
    Underflow c' := by
  cases a with
  | push obj => exact absurd trivial hguard
  | release i =>
      obtain rfl := Option.some.inj hstep
      simp only [NoUnderflow, not_forall] at hguard
      obtain ⟨j, hpc, hone⟩ := hguard
      have hzero : c.releaseArray j = 0 := (hc.slot j).resolve_right hone
      refine @underflow_of_slot n Obj _ j ?_
      simp [releaseStep, hpc, hzero]

/-- No thread counts the slot of another one up. -/
theorem releaseStep_releaseArray_le (c : DescriptorHandlerCleaner n Obj) {i k : Fin n}
    (hne : k ≠ i) : (c.releaseStep i).releaseArray k ≤ c.releaseArray k := by
  cases hpc : c.pc i with
  | idle =>
      simp only [releaseStep, hpc]
      split <;> simp
  | reset j =>
      simp only [releaseStep, hpc]
      split
      · rename_i hj
        rcases eq_or_ne k ⟨j, hj⟩ with rfl | hkj
        · simp
        · simp [hkj]
      · simp
  | _ => simp [releaseStep, hpc, hne]

/-- The thread of a slot below zero sees that the slot was not `0` when it
counts it up, and takes that back. -/
theorem releaseStep_own_slot {c : DescriptorHandlerCleaner n Obj} {k : Fin n}
    (hk : c.releaseArray k < if c.pc k = .revert then 1 else 0) :
    (c.releaseStep k).releaseArray k <
      if (c.releaseStep k).pc k = .revert then 1 else 0 := by
  by_cases hrevert : c.pc k = .revert
  · rw [if_pos hrevert] at hk
    have hnot : c.releaseArray k ≠ 1 := by omega
    simp only [releaseStep, hrevert, if_neg hnot, goto_releaseArray, goto_pc,
      addToSlot_releaseArray, update_self, reduceCtorEq, if_false]
    omega
  · rw [if_neg hrevert] at hk
    have hnot : c.releaseArray k ≠ 0 := by omega
    cases hpc : c.pc k with
    | idle => simpa [releaseStep, hpc, hnot] using hk
    | increment =>
        simp only [releaseStep, hpc, if_neg hnot, goto_releaseArray, goto_pc,
          addToSlot_releaseArray, update_self, if_pos]
        omega
    | decrementCount =>
        by_cases hcount : c.unreleasedCount = 1
        · simpa [releaseStep, hpc, hcount] using hk
        · simpa [releaseStep, hpc, hcount] using hk
    | reset j =>
        by_cases hj : j < n
        · by_cases hself : k = ⟨j, hj⟩
          · -- the slot is counted down further
            simp [releaseStep, hpc, hj, ← hself]
            omega
          · by_cases hone : c.releaseArray ⟨j, hj⟩ = 1
            · simpa [releaseStep, hpc, hj, hone, hself] using hk
            · simpa [releaseStep, hpc, hj, hone, hself] using hk
        · simpa [releaseStep, hpc, hj] using hk
    | credit j => simpa [releaseStep, hpc] using hk
    | revert => exact absurd hpc hrevert
    | revertCount => simpa [releaseStep, hpc] using hk

/-- A slot below zero is never repaired. -/
theorem Underflow.step {c c' : DescriptorHandlerCleaner n Obj} {a : Action n Obj}
    (hc : Underflow c) (hstep : DescriptorHandlerCleaner.step c a = some c') : Underflow c' := by
  obtain ⟨k, hk⟩ := hc
  refine ⟨k, ?_⟩
  cases a with
  | push obj =>
      obtain rfl := Option.some.inj hstep
      exact hk
  | release i =>
      obtain rfl := Option.some.inj hstep
      rcases eq_or_ne k i with rfl | hne
      · exact releaseStep_own_slot hk
      · rw [releaseStep_pc_of_ne c hne]
        exact lt_of_le_of_lt (releaseStep_releaseArray_le c hne) hk

/-! ## Runs -/

theorem Counted.consistent {c : DescriptorHandlerCleaner n Obj} (hc : Counted c)
    (hquiet : Quiescent c) : Consistent c where
  slot := hc.slot
  count := by
    have howed : total ReleasePc.owed c.pc = 0 := by
      simp [total, hquiet _, ReleasePc.owed]
    rw [hc.count, howed, add_zero]
    exact total_eq_card (fun slot => slot = 0) c.releaseArray
  pos := by
    refine hc.alive.resolve_right ?_
    rintro ⟨i, hi⟩
    rw [hquiet i] at hi
    exact hi

theorem Underflow.not_consistent {c : DescriptorHandlerCleaner n Obj} (hc : Underflow c)
    (hquiet : Quiescent c) : ¬ Consistent c := by
  obtain ⟨i, hi⟩ := hc
  rw [hquiet i] at hi
  simp only [reduceCtorEq, if_false] at hi
  intro hcons
  rcases hcons.slot i with hzero | hone <;> omega

/-- Whenever no `release` is in progress, the counters are consistent if and
only if no reset loop of the run counted down a slot that was not `1`. -/
theorem consistent_iff_noUnderflow (hn : 0 < n) {actions : List (Action n Obj)}
    {c : DescriptorHandlerCleaner n Obj}
    (hrun : (cleaner n Obj).run (cleaner n Obj).init actions = some c) (hquiet : Quiescent c) :
    Consistent c ↔
      TransitionSystem.Meets (cleaner n Obj) NoUnderflow (cleaner n Obj).init actions :=
  TransitionSystem.run_iff_meets (fun _ _ _ hs hguard hstep => hs.step hguard hstep)
    (fun _ _ _ hs hguard hstep => hs.underflow hguard hstep)
    (fun _ _ _ hs hstep => hs.step hstep) (counted_initial hn) hrun
    (fun hs => hs.consistent hquiet) (fun hs => hs.not_consistent hquiet)

/-- One epoch of two threads, one after the other. -/
theorem consistent_after_epoch :
    ∃ c, (cleaner 2 Nat).run (cleaner 2 Nat).init
        (Action.push 7 :: List.replicate 3 (Action.release 0) ++
          List.replicate 8 (Action.release 1)) = some c ∧
      Quiescent c ∧ Consistent c := by
  have hend : ((cleaner 2 Nat).run (cleaner 2 Nat).init
      (Action.push 7 :: List.replicate 3 (Action.release 0) ++
        List.replicate 8 (Action.release 1))).map
        (fun c => (c.pc 0, c.pc 1)) = some (.idle, .idle) := by
    decide +kernel
  obtain ⟨c, hrun, hpcs⟩ := Option.map_eq_some_iff.mp hend
  obtain ⟨hfirst, hsecond⟩ := Prod.mk.inj hpcs
  have hquiet : Quiescent c := Fin.forall_fin_two.mpr ⟨hfirst, hsecond⟩
  exact ⟨c, hrun, hquiet,
    (consistent_iff_noUnderflow (by decide) hrun hquiet).mpr (by decide +kernel)⟩

/-- Thread `1` closes the epoch and resets slot `0`; thread `0` releases again,
closes a second epoch and resets both slots; then thread `1` counts its own slot
down a second time.  No later `release(1)` gets past its first load. -/
theorem slot_stuck :
    ∃ c, (cleaner 2 Nat).run (cleaner 2 Nat).init
        (List.replicate 3 (Action.release 0) ++ List.replicate 5 (Action.release 1) ++
          List.replicate 8 (Action.release 0) ++ List.replicate 2 (Action.release 1)) = some c ∧
      Quiescent c ∧ c.releaseArray 1 = -1 ∧ c.unreleasedCount = 2 ∧ ¬ Consistent c := by
  have hend : ((cleaner 2 Nat).run (cleaner 2 Nat).init
      (List.replicate 3 (Action.release 0) ++ List.replicate 5 (Action.release 1) ++
        List.replicate 8 (Action.release 0) ++ List.replicate 2 (Action.release 1))).map
        (fun c => (c.pc 0, c.pc 1, c.releaseArray 1, c.unreleasedCount)) =
      some (.idle, .idle, -1, 2) := by
    decide +kernel
  obtain ⟨c, hrun, hvalues⟩ := Option.map_eq_some_iff.mp hend
  simp only [Prod.mk.injEq] at hvalues
  obtain ⟨hfirst, hsecond, hslot, hcount⟩ := hvalues
  refine ⟨c, hrun, Fin.forall_fin_two.mpr ⟨hfirst, hsecond⟩, hslot, hcount, ?_⟩
  intro hcons
  rcases hcons.slot 1 with hzero | hone <;> omega

end DescriptorHandlerCleaner
end LiteMQ
