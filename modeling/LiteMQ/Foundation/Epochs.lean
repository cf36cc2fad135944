import Mathlib.Data.Fintype.Basic
import Mathlib.Data.List.Infix

/-!
# Reclamation in epochs

Participants pass again and again, and objects are retired in between.  An epoch
ends with the pass after which everyone has passed in it; what was retired
before the epoch began is reclaimed then, and what was retired in it waits for
the end of the next one.

Objects are reclaimed in the order in which they were retired
(`reclaimed_append_outstanding`).  A stretch in which everyone passes contains
the end of an epoch (`closes_of_passes`), so two such stretches reclaim whatever
was retired before them (`reclaimed_of_two_rounds`).
-/

universe u v

/-- Who has passed in the current epoch, what was retired before the epoch, and
what was retired in it. -/
structure Epochs (ι : Type u) (α : Type v) where
  passed : Finset ι
  waiting : List α
  retired : List α

namespace Epochs

/-- An object is retired, or a participant passes. -/
inductive Event (ι : Type u) (α : Type v)
  | retire (x : α)
  | pass (i : ι)

variable {ι : Type u} {α : Type v}

/-- Nothing is retired, and nobody has passed. -/
def initial (ι : Type u) (α : Type v) : Epochs ι α := ⟨∅, [], []⟩

/-- Everything that is retired and not reclaimed. -/
def outstanding (s : Epochs ι α) : List α := s.waiting ++ s.retired

/-- The objects that the events retire. -/
def retiredIn : List (Event ι α) → List α
  | [] => []
  | .retire x :: events => x :: retiredIn events
  | .pass _ :: events => retiredIn events

section Run

variable [Fintype ι] [DecidableEq ι]

/-- What an event leaves, and what it reclaims. -/
def step (s : Epochs ι α) : Event ι α → Epochs ι α × List α
  | .retire x => ({ s with retired := s.retired ++ [x] }, [])
  | .pass i =>
      if insert i s.passed = Finset.univ then (⟨∅, s.retired, []⟩, s.waiting)
      else ({ s with passed := insert i s.passed }, [])

/-- What the events leave, and what they reclaim. -/
def run (s : Epochs ι α) : List (Event ι α) → Epochs ι α × List α
  | [] => (s, [])
  | event :: events =>
      ((run (s.step event).1 events).1, (s.step event).2 ++ (run (s.step event).1 events).2)

theorem run_append (s : Epochs ι α) (events events' : List (Event ι α)) :
    s.run (events ++ events') =
      (((s.run events).1.run events').1, (s.run events).2 ++ ((s.run events).1.run events').2) := by
  induction events generalizing s with
  | nil => rfl
  | cons event events ih =>
      show (((s.step event).1.run (events ++ events')).1,
        (s.step event).2 ++ ((s.step event).1.run (events ++ events')).2) = _
      rw [ih]
      simp only [run, List.append_assoc]

/-- What is reclaimed and what is outstanding afterwards is what was outstanding
and what was retired, in this order. -/
theorem reclaimed_append_outstanding (s : Epochs ι α) (events : List (Event ι α)) :
    (s.run events).2 ++ (s.run events).1.outstanding = s.outstanding ++ retiredIn events := by
  induction events generalizing s with
  | nil => simp [run, retiredIn]
  | cons event events ih =>
      have hrest := ih (s.step event).1
      show (s.step event).2 ++ ((s.step event).1.run events).2 ++
        ((s.step event).1.run events).1.outstanding = _
      rw [List.append_assoc, hrest, ← List.append_assoc]
      cases event with
      | retire x => simp [step, outstanding, retiredIn]
      | pass i =>
          simp only [step, retiredIn]
          split <;> simp [outstanding]

/-- Some event of the run ends an epoch. -/
def Closes (s : Epochs ι α) : List (Event ι α) → Prop
  | [] => False
  | .retire x :: events => Closes (s.step (.retire x)).1 events
  | .pass i :: events =>
      insert i s.passed = Finset.univ ∨ Closes (s.step (.pass i)).1 events

/-- Where everyone passes, or has passed, an epoch ends. -/
theorem closes_of_passes {s : Epochs ι α} (hopen : s.passed ≠ Finset.univ)
    {events : List (Event ι α)} (hpass : ∀ i, i ∈ s.passed ∨ .pass i ∈ events) :
    s.Closes events := by
  induction events generalizing s with
  | nil =>
      apply absurd (Finset.eq_univ_iff_forall.mpr fun i => ?_) hopen
      exact (hpass i).resolve_right List.not_mem_nil
  | cons event events ih =>
      cases event with
      | retire x =>
          have hrest : ∀ i, i ∈ s.passed ∨ .pass i ∈ events := by
            intro i
            rcases hpass i with hi | hi
            · exact Or.inl hi
            · rcases List.mem_cons.mp hi with hfirst | hrest
              · cases hfirst
              · exact Or.inr hrest
          exact ih (s := (s.step (.retire x)).1) hopen hrest
      | pass j =>
          by_cases hclose : insert j s.passed = Finset.univ
          · exact Or.inl hclose
          · refine Or.inr ?_
            rw [step, if_neg hclose]
            refine ih hclose fun i => ?_
            rcases hpass i with hi | hi
            · exact Or.inl (Finset.mem_insert_of_mem hi)
            · rcases List.mem_cons.mp hi with hfirst | hrest
              · obtain rfl := Event.pass.inj hfirst
                exact Or.inl (Finset.mem_insert_self ..)
              · exact Or.inr hrest

/-- After an epoch has ended, the next one is open. -/
theorem run_passed_ne_univ [Nonempty ι] {s : Epochs ι α} (hopen : s.passed ≠ Finset.univ)
    (events : List (Event ι α)) : (s.run events).1.passed ≠ Finset.univ := by
  induction events generalizing s with
  | nil => exact hopen
  | cons event events ih =>
      apply ih
      cases event with
      | retire x => exact hopen
      | pass i =>
          rw [step]
          split
          · exact Finset.univ_nonempty.ne_empty.symm
          · rename_i hclose
            exact hclose

/-- What waits for the end of the epoch goes on waiting or is reclaimed. -/
theorem waiting_le (s : Epochs ι α) (events : List (Event ι α)) :
    s.waiting.length ≤ (s.run events).2.length + (s.run events).1.waiting.length := by
  induction events generalizing s with
  | nil => exact Nat.le_add_left ..
  | cons event events ih =>
      have hrest := ih (s.step event).1
      have hfirst : s.waiting.length ≤
          (s.step event).2.length + (s.step event).1.waiting.length := by
        cases event with
        | retire x => exact Nat.le_add_left ..
        | pass i =>
            rw [step]
            split
            · exact Nat.le_add_right ..
            · exact Nat.le_add_left ..
      rw [run, List.length_append]
      dsimp only
      omega

/-- At the end of an epoch everything that waited is reclaimed, and everything
else that was outstanding waits. -/
theorem reclaimed_of_closes {s : Epochs ι α} {events : List (Event ι α)} (h : s.Closes events) :
    s.waiting.length ≤ (s.run events).2.length ∧
      s.outstanding.length ≤ (s.run events).2.length + (s.run events).1.waiting.length := by
  induction events generalizing s with
  | nil => cases h
  | cons event events ih =>
      rw [run]
      cases event with
      | retire x =>
          obtain ⟨hwaiting, houtstanding⟩ := ih h
          refine ⟨hwaiting, le_trans ?_ houtstanding⟩
          simp only [outstanding, step, List.length_append]
          omega
      | pass i =>
          by_cases hclose : insert i s.passed = Finset.univ
          · have hlater := waiting_le (s.step (.pass i)).1 events
            rw [step, if_pos hclose] at hlater ⊢
            simp only [outstanding, List.length_append] at hlater ⊢
            omega
          · have hrest := ih (h.resolve_left hclose)
            rw [step, if_neg hclose] at hrest ⊢
            exact hrest

/-- Two stretches in each of which everyone passes reclaim whatever was retired
before them. -/
theorem reclaimed_of_two_rounds [Nonempty ι] {s : Epochs ι α} (hopen : s.passed ≠ Finset.univ)
    {first second : List (Event ι α)} (hfirst : ∀ i, .pass i ∈ first)
    (hsecond : ∀ i, .pass i ∈ second) :
    s.outstanding <+: (s.run (first ++ second)).2 := by
  obtain ⟨-, hmoved⟩ := reclaimed_of_closes
    (closes_of_passes hopen fun i => Or.inr (hfirst i))
  obtain ⟨hreclaimed, -⟩ := reclaimed_of_closes
    (closes_of_passes (run_passed_ne_univ hopen first) fun i => Or.inr (hsecond i))
  refine List.prefix_of_prefix_length_le ⟨_, rfl⟩
    ⟨_, reclaimed_append_outstanding s (first ++ second)⟩ ?_
  rw [run_append, List.length_append]
  omega

end Run

end Epochs
