import Mathlib.Data.Option.Basic
import Mathlib.Data.List.Basic

/-!
# Traces against a reference

A machine answers one input after the other, and may fail; its reference answers every
input.  `trace` and `answers` collect what they say to a list of inputs.  `Along` says that
each input of the list meets a condition on the states that the two have reached, `Within`
that it meets one on the state of the reference.

`trace_eq_iff` is the exact comparison.  When the inputs that meet the guard are answered
alike and keep the two states related, and no other input is answered alike, the whole
traces agree just when all inputs meet the guard.
-/

namespace ReferenceTrace

variable {State Reference Input Output : Type*}

/-- What the machine answers; `none` when it fails on the way. -/
def trace (step : State → Input → Option (Output × State)) :
    State → List Input → Option (List Output)
  | _, [] => some []
  | s, i :: inputs => (step s i).bind fun next => (trace step next.2 inputs).map (next.1 :: ·)

/-- What the reference answers. -/
def answers (next : Reference → Input → Output × Reference) :
    Reference → List Input → List Output
  | _, [] => []
  | r, i :: inputs => (next r i).1 :: answers next (next r i).2 inputs

/-- Each input meets the condition where it comes. -/
def Along (step : State → Input → Option (Output × State))
    (next : Reference → Input → Output × Reference) (guard : State → Reference → Input → Prop) :
    State → Reference → List Input → Prop
  | _, _, [] => True
  | s, r, i :: inputs =>
      guard s r i ∧ ∀ o t, step s i = some (o, t) → Along step next guard t (next r i).2 inputs

/-- Each input meets the condition where the reference comes to it. -/
def Within (next : Reference → Input → Output × Reference) (guard : Reference → Input → Prop) :
    Reference → List Input → Prop
  | _, [] => True
  | r, i :: inputs => guard r i ∧ Within next guard (next r i).2 inputs

variable {step : State → Input → Option (Output × State)}
  {next : Reference → Input → Output × Reference}

theorem trace_cons {s t : State} {i : Input} {o : Output} (h : step s i = some (o, t))
    (inputs : List Input) : trace step s (i :: inputs) = (trace step t inputs).map (o :: ·) := by
  rw [trace, h, Option.bind_some]

/-- The answers to a nonempty list agree when the first ones and the others do. -/
theorem trace_cons_eq_answers {s : State} {r : Reference} {i : Input} {inputs : List Input} :
    trace step s (i :: inputs) = some (answers next r (i :: inputs)) ↔
      ∃ t, step s i = some ((next r i).1, t) ∧
        trace step t inputs = some (answers next (next r i).2 inputs) := by
  constructor
  · intro h
    obtain ⟨⟨o, t⟩, hstep, hrest⟩ := Option.bind_eq_some_iff.mp h
    obtain ⟨os, htrace, hcons⟩ := Option.map_eq_some_iff.mp hrest
    obtain ⟨ho, hos⟩ := List.cons.inj hcons
    dsimp only at htrace ho
    subst ho hos
    exact ⟨t, hstep, htrace⟩
  · rintro ⟨t, hstep, htrace⟩
    rw [trace_cons hstep, htrace]
    rfl

theorem along_of_forall {guard : State → Reference → Input → Prop} (h : ∀ s r i, guard s r i)
    (s : State) (r : Reference) (inputs : List Input) : Along step next guard s r inputs := by
  induction inputs generalizing s r with
  | nil => trivial
  | cons i inputs ih => exact ⟨h s r i, fun o t _ => ih t _⟩

theorem Along.and {guard guard' : State → Reference → Input → Prop} {s : State} {r : Reference}
    {inputs : List Input} (h : Along step next guard s r inputs)
    (h' : Along step next guard' s r inputs) :
    Along step next (fun s r i => guard s r i ∧ guard' s r i) s r inputs := by
  induction inputs generalizing s r with
  | nil => trivial
  | cons i inputs ih =>
      exact ⟨⟨h.1, h'.1⟩, fun o t hstep => ih (h.2 o t hstep) (h'.2 o t hstep)⟩

/-- What is met within the reference is met along every trace. -/
theorem Within.along {guard : Reference → Input → Prop} {r : Reference} {inputs : List Input}
    (h : Within next guard r inputs) (s : State) :
    Along step next (fun _ r i => guard r i) s r inputs := by
  induction inputs generalizing s r with
  | nil => trivial
  | cons i inputs ih => exact ⟨h.1, fun o t _ => ih h.2 t⟩

/-- A machine that follows meets along its trace what is met within the reference only. -/
theorem along_iff_within {guard : Reference → Input → Prop} {related : State → Reference → Prop}
    (hstep : ∀ s r i, related s r → guard r i →
      ∃ t, step s i = some ((next r i).1, t) ∧ related t (next r i).2)
    {s : State} {r : Reference} (hs : related s r) (inputs : List Input) :
    Along step next (fun _ r i => guard r i) s r inputs ↔ Within next guard r inputs := by
  refine ⟨fun h => ?_, fun h => h.along s⟩
  induction inputs generalizing s r with
  | nil => trivial
  | cons i inputs ih =>
      obtain ⟨t, hi, ht⟩ := hstep s r i hs h.1
      exact ⟨h.1, ih ht (h.2 _ t hi)⟩

/-- **Simulation.**  A machine whose guarded inputs are answered as by the reference, and keep
the two related, has the trace of the reference. -/
theorem trace_eq_of_along {guard : State → Reference → Input → Prop}
    {related : State → Reference → Prop}
    (hgood : ∀ s r i, related s r → guard s r i →
      ∃ t, step s i = some ((next r i).1, t) ∧ related t (next r i).2)
    {s : State} {r : Reference} (hs : related s r) {inputs : List Input}
    (h : Along step next guard s r inputs) :
    trace step s inputs = some (answers next r inputs) := by
  induction inputs generalizing s r with
  | nil => rfl
  | cons i inputs ih =>
      obtain ⟨t, hstep, hrelated⟩ := hgood s r i hs h.1
      exact trace_cons_eq_answers.2 ⟨t, hstep, ih hrelated (h.2 _ t hstep)⟩

/-- **The exact comparison**, for the inputs in a domain. -/
theorem trace_eq_iff_within {domain guard : State → Reference → Input → Prop}
    {related : State → Reference → Prop}
    (hgood : ∀ s r i, related s r → domain s r i → guard s r i →
      ∃ t, step s i = some ((next r i).1, t) ∧ related t (next r i).2)
    (hbad : ∀ s r i t, related s r → domain s r i → ¬guard s r i →
      step s i ≠ some ((next r i).1, t))
    {s : State} {r : Reference} (hs : related s r) {inputs : List Input}
    (hdomain : Along step next domain s r inputs) :
    trace step s inputs = some (answers next r inputs) ↔ Along step next guard s r inputs := by
  constructor
  · intro htrace
    induction inputs generalizing s r with
    | nil => trivial
    | cons i inputs ih =>
        obtain ⟨t, hstep, hrest⟩ := trace_cons_eq_answers.1 htrace
        have hguard : guard s r i := by
          by_contra hnot
          exact hbad s r i t hs hdomain.1 hnot hstep
        obtain ⟨t', hstep', hrelated⟩ := hgood s r i hs hdomain.1 hguard
        obtain ⟨-, rfl⟩ := Prod.mk.inj (Option.some.inj (hstep.symm.trans hstep'))
        refine ⟨hguard, fun o t' hstep' => ?_⟩
        obtain ⟨-, rfl⟩ := Prod.mk.inj (Option.some.inj (hstep.symm.trans hstep'))
        exact ih hrelated (hdomain.2 _ _ hstep) hrest
  · intro h
    exact trace_eq_of_along (fun s r i hs hi => hgood s r i hs hi.1 hi.2) hs (hdomain.and h)

/-- **The exact comparison**, for all inputs and a condition on the reference. -/
theorem trace_eq_iff {guard : Reference → Input → Prop} {related : State → Reference → Prop}
    (hgood : ∀ s r i, related s r → guard r i →
      ∃ t, step s i = some ((next r i).1, t) ∧ related t (next r i).2)
    (hbad : ∀ s r i t, related s r → ¬guard r i → step s i ≠ some ((next r i).1, t))
    {s : State} {r : Reference} (hs : related s r) (inputs : List Input) :
    trace step s inputs = some (answers next r inputs) ↔ Within next guard r inputs := by
  rw [← along_iff_within hgood hs]
  exact trace_eq_iff_within (fun s r i h _ => hgood s r i h) (fun s r i t h _ => hbad s r i t h)
    hs (along_of_forall (fun _ _ _ => trivial) s r inputs)

end ReferenceTrace
