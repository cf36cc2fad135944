import Mathlib.Data.Option.Basic
import Mathlib.Data.List.Basic

/-!
# Labelled transition systems with partial steps

A system has one initial state and a step function: `step s a` is `some t` when
the action `a` is enabled in `s` and leads to `t`, and `none` otherwise.  A
thread of a concurrent program is then an action label, and an interleaving is
a list of actions.

* `run` executes a list of actions, so a concrete interleaving is evaluated.
* `Meets guard` says that every step of a run satisfies `guard` in the state
  it starts from.
* `Throughout property` says that every state of a run has `property`.
* `Reachable guard` collects the states reached by runs whose steps all meet
  `guard`; `Reachable.invariant` is the induction over such runs.
* `run_rank_eq_zero` is progress of one party under any interleaving.
* `length_add_rank_le` is termination, and `Throughout.countP_add_rank_le` says
  the same of one party: it is not for long that it does not get where it wants.
* `run_split_within` is the exact form: a step that meets the guard keeps the
  good invariant, a step that does not establishes the bad one, and the bad one
  is never left again.
* `Reachable.simulates` carries reachability along a projection that maps
  every step to a step or to nothing.
-/

/-- A system with an initial state and partial, labelled steps. -/
structure TransitionSystem (State : Type*) (Action : Type*) where
  init : State
  step : State → Action → Option State

namespace TransitionSystem

variable {State : Type*} {Action : Type*} (system : TransitionSystem State Action)

/-- Execute the actions one after another from `s`; `none` when one of them is
not enabled where it is taken. -/
def run : State → List Action → Option State
  | s, [] => some s
  | s, a :: actions => (system.step s a).bind fun t => run t actions

@[simp] theorem run_nil (s : State) : system.run s [] = some s := rfl

theorem run_cons (s : State) (a : Action) (actions : List Action) :
    system.run s (a :: actions) = (system.step s a).bind fun t => system.run t actions := rfl

/-- A run that starts with `a` takes that step and continues from its target. -/
theorem run_cons_eq_some {s t : State} {a : Action} {actions : List Action} :
    system.run s (a :: actions) = some t ↔
      ∃ middle, system.step s a = some middle ∧ system.run middle actions = some t := by
  simp [run_cons, Option.bind_eq_some_iff]

/-- A run goes on behind its first step. -/
theorem run_cons_of_step {s t : State} {a : Action} (hstep : system.step s a = some t)
    (actions : List Action) : system.run s (a :: actions) = system.run t actions := by
  rw [run_cons, hstep, Option.bind_some]

/-- Every step of the run of `actions` from `s` satisfies `guard` in the state
it is taken from. -/
def Meets (guard : State → Action → Prop) : State → List Action → Prop
  | _, [] => True
  | s, a :: actions => guard s a ∧ ∀ t, system.step s a = some t → Meets guard t actions

instance instDecidableMeets {guard : State → Action → Prop} [∀ s a, Decidable (guard s a)] :
    ∀ s actions, Decidable (Meets system guard s actions)
  | _, [] => inferInstanceAs (Decidable True)
  | s, a :: actions =>
      match hstep : system.step s a with
      | none => decidable_of_iff (guard s a) (by simp [Meets, hstep])
      | some t =>
          have : Decidable (Meets system guard t actions) := instDecidableMeets t actions
          decidable_of_iff (guard s a ∧ Meets system guard t actions) (by simp [Meets, hstep])

/-- Every state that the run of `actions` from `s` visits has `property`. -/
def Throughout (property : State → Prop) : State → List Action → Prop
  | s, [] => property s
  | s, a :: actions =>
      property s ∧ ∀ t, system.step s a = some t → Throughout property t actions

/-- The states reached by runs from the initial state whose steps all satisfy
`guard`. -/
inductive Reachable (guard : State → Action → Prop) : State → Prop
  | init : Reachable guard system.init
  | step {s t : State} {a : Action} (hs : Reachable guard s) (hguard : guard s a)
      (hstep : system.step s a = some t) : Reachable guard t

/-- The guard that every step satisfies. -/
def unguarded : State → Action → Prop := fun _ _ => True

variable {system} {guard : State → Action → Prop}

/-- What holds initially and is preserved by every guarded step holds in every
reachable state. -/
theorem Reachable.invariant {inv : State → Prop} (hinit : inv system.init)
    (hstep : ∀ s a t, inv s → guard s a → system.step s a = some t → inv t)
    {s : State} (hs : Reachable system guard s) : inv s := by
  induction hs with
  | init => exact hinit
  | step _ hguard hst ih => exact hstep _ _ _ ih hguard hst

/-- The end of a run whose steps meet the guard is reachable. -/
theorem Reachable.of_run {s t : State} (hs : Reachable system guard s)
    {actions : List Action} (hrun : system.run s actions = some t)
    (hmeets : Meets system guard s actions) : Reachable system guard t := by
  induction actions generalizing s with
  | nil =>
      obtain rfl : s = t := by simpa using hrun
      exact hs
  | cons a actions ih =>
      obtain ⟨middle, hst, hrest⟩ := (system.run_cons_eq_some).mp hrun
      exact ih (.step hs hmeets.1 hst) hrest (hmeets.2 middle hst)

/-- Every run meets the guard that asks for nothing. -/
theorem meets_unguarded (s : State) (actions : List Action) :
    Meets system unguarded s actions := by
  induction actions generalizing s with
  | nil => trivial
  | cons a actions ih => exact ⟨trivial, fun t _ => ih t⟩

/-- A run meets a guard that each of its actions satisfies in every state. -/
theorem meets_of_forall {actions : List Action} (h : ∀ a ∈ actions, ∀ s, guard s a)
    (s : State) : Meets system guard s actions := by
  induction actions generalizing s with
  | nil => trivial
  | cons a actions ih =>
      exact ⟨h a (List.mem_cons_self ..) s, fun t _ =>
        ih (fun b hb => h b (List.mem_cons_of_mem a hb)) t⟩

/-- A run meets a guard when its first step does and its rest does. -/
theorem Meets.cons {s t : State} {a : Action} {actions : List Action} (hguard : guard s a)
    (hstep : system.step s a = some t) (h : Meets system guard t actions) :
    Meets system guard s (a :: actions) := by
  refine ⟨hguard, fun t' hstep' => ?_⟩
  obtain rfl : t = t' := Option.some.inj (hstep.symm.trans hstep')
  exact h

/-- A run that meets two guards meets both at every step. -/
theorem Meets.and {guard' : State → Action → Prop} {s : State} {actions : List Action}
    (h : Meets system guard s actions) (h' : Meets system guard' s actions) :
    Meets system (fun s a => guard s a ∧ guard' s a) s actions := by
  induction actions generalizing s with
  | nil => trivial
  | cons a actions ih =>
      exact ⟨⟨h.1, h'.1⟩, fun t hstep => ih (h.2 t hstep) (h'.2 t hstep)⟩

/-- What every step that meets `domain` preserves, a whole run of such steps
preserves. -/
theorem run_preserves_within {domain : State → Action → Prop} {inv : State → Prop}
    (hstep : ∀ s a t, inv s → domain s a → system.step s a = some t → inv t)
    {s t : State} (hs : inv s) {actions : List Action} (hdomain : Meets system domain s actions)
    (hrun : system.run s actions = some t) : inv t := by
  induction actions generalizing s with
  | nil =>
      obtain rfl : s = t := by simpa using hrun
      exact hs
  | cons a actions ih =>
      obtain ⟨middle, hst, hrest⟩ := (system.run_cons_eq_some).mp hrun
      exact ih (hstep _ _ _ hs hdomain.1 hst) (hdomain.2 middle hst) hrest

/-- What every step preserves, whatever its guard, a whole run preserves. -/
theorem run_preserves {inv : State → Prop}
    (hstep : ∀ s a t, inv s → system.step s a = some t → inv t)
    {s t : State} (hs : inv s) {actions : List Action}
    (hrun : system.run s actions = some t) : inv t :=
  run_preserves_within (fun s a t h _ => hstep s a t h) hs (meets_unguarded s actions) hrun

/-- **Bounded response.**  Let the steps of one party lower a rank that no other
step raises.  Then after as many steps of that party as the rank was high, the
rank is zero, however the others' steps come in between. -/
theorem run_rank_eq_zero {inv : State → Prop} {rank : State → Nat} {mine : Action → Bool}
    (hinv : ∀ s a t, inv s → guard s a → system.step s a = some t → inv t)
    (hmine : ∀ s a t, inv s → guard s a → mine a → system.step s a = some t →
      rank t ≤ rank s - 1)
    (hother : ∀ s a t, inv s → guard s a → ¬ mine a → system.step s a = some t →
      rank t ≤ rank s)
    {s t : State} (hs : inv s) {actions : List Action}
    (hmeets : Meets system guard s actions) (hrun : system.run s actions = some t)
    (henough : rank s ≤ actions.countP mine) : inv t ∧ rank t = 0 := by
  induction actions generalizing s with
  | nil =>
      obtain rfl : s = t := by simpa using hrun
      exact ⟨hs, Nat.le_zero.mp (by simpa using henough)⟩
  | cons a actions ih =>
      obtain ⟨middle, hst, hrest⟩ := (system.run_cons_eq_some).mp hrun
      have hmiddle := hinv s a middle hs hmeets.1 hst
      refine ih hmiddle (hmeets.2 middle hst) hrest ?_
      by_cases ha : mine a
      · have hlower := hmine s a middle hs hmeets.1 ha hst
        rw [List.countP_cons_of_pos ha] at henough
        omega
      · have hkept := hother s a middle hs hmeets.1 ha hst
        rw [List.countP_cons_of_neg ha] at henough
        omega

/-- **Termination.**  A run whose steps all lower a rank is no longer than the
rank was high. -/
theorem length_add_rank_le {inv : State → Prop} {rank : State → Nat}
    (hinv : ∀ s a t, inv s → guard s a → system.step s a = some t → inv t)
    (hlower : ∀ s a t, inv s → guard s a → system.step s a = some t → rank t < rank s)
    {s t : State} (hs : inv s) {actions : List Action}
    (hmeets : Meets system guard s actions) (hrun : system.run s actions = some t) :
    actions.length + rank t ≤ rank s := by
  induction actions generalizing s with
  | nil =>
      obtain rfl : s = t := by simpa using hrun
      simp
  | cons a actions ih =>
      obtain ⟨middle, hst, hrest⟩ := (system.run_cons_eq_some).mp hrun
      have hlt := hlower s a middle hs hmeets.1 hst
      have hle := ih (hinv s a middle hs hmeets.1 hst) (hmeets.2 middle hst) hrest
      rw [List.length_cons]
      omega

/-- **Exact guards.**  Among the steps that meet `domain`, let those that meet the
guard keep `good`, and the others lead from `good` to `bad`, which is never left.
Then a run from a good state ends in `good` if all its steps met the guard and in
`bad` otherwise. -/
theorem run_split_within {domain : State → Action → Prop} {good bad : State → Prop}
    (hgood : ∀ s a t, good s → domain s a → guard s a → system.step s a = some t → good t)
    (hbad : ∀ s a t, good s → domain s a → ¬ guard s a → system.step s a = some t → bad t)
    (hstay : ∀ s a t, bad s → domain s a → system.step s a = some t → bad t)
    {s t : State} (hs : good s) {actions : List Action} (hdomain : Meets system domain s actions)
    (hrun : system.run s actions = some t) :
    (Meets system guard s actions ∧ good t) ∨ (¬ Meets system guard s actions ∧ bad t) := by
  induction actions generalizing s with
  | nil =>
      obtain rfl : s = t := by simpa using hrun
      exact Or.inl ⟨trivial, hs⟩
  | cons a actions ih =>
      obtain ⟨middle, hst, hrest⟩ := (system.run_cons_eq_some).mp hrun
      by_cases hguard : guard s a
      · have hmiddle := hgood _ _ _ hs hdomain.1 hguard hst
        rcases ih hmiddle (hdomain.2 middle hst) hrest with ⟨hmeets, hend⟩ | ⟨hmeets, hend⟩
        · refine Or.inl ⟨⟨hguard, fun t' ht' => ?_⟩, hend⟩
          obtain rfl : middle = t' := Option.some.inj (hst.symm.trans ht')
          exact hmeets
        · exact Or.inr ⟨fun h => hmeets (h.2 middle hst), hend⟩
      · exact Or.inr ⟨fun h => hguard h.1, run_preserves_within hstay
          (hbad _ _ _ hs hdomain.1 hguard hst) (hdomain.2 middle hst) hrest⟩

/-- `run_split_within` for the steps of any kind. -/
theorem run_split {good bad : State → Prop}
    (hgood : ∀ s a t, good s → guard s a → system.step s a = some t → good t)
    (hbad : ∀ s a t, good s → ¬ guard s a → system.step s a = some t → bad t)
    (hstay : ∀ s a t, bad s → system.step s a = some t → bad t)
    {s t : State} (hs : good s) {actions : List Action}
    (hrun : system.run s actions = some t) :
    (Meets system guard s actions ∧ good t) ∨ (¬ Meets system guard s actions ∧ bad t) :=
  run_split_within (fun s a t h _ => hgood s a t h) (fun s a t h _ => hbad s a t h)
    (fun s a t h _ => hstay s a t h) hs (meets_unguarded s actions) hrun

/-- The form in which `run_split` is used: a property that good states have
and bad states lack holds at the end of a run exactly when all its steps met
the guard. -/
theorem run_iff_meets {good bad property : State → Prop}
    (hgood : ∀ s a t, good s → guard s a → system.step s a = some t → good t)
    (hbad : ∀ s a t, good s → ¬ guard s a → system.step s a = some t → bad t)
    (hstay : ∀ s a t, bad s → system.step s a = some t → bad t)
    {s t : State} (hs : good s) {actions : List Action}
    (hrun : system.run s actions = some t)
    (hprop : good t → property t) (hnot : bad t → ¬ property t) :
    property t ↔ Meets system guard s actions := by
  rcases run_split hgood hbad hstay hs hrun with ⟨hmeets, hend⟩ | ⟨hmeets, hend⟩
  · exact ⟨fun _ => hmeets, fun _ => hprop hend⟩
  · exact ⟨fun h => absurd h (hnot hend), fun h => absurd h hmeets⟩

/-- What holds throughout a run holds where it begins. -/
theorem Throughout.first {property : State → Prop} {s : State} {actions : List Action}
    (h : Throughout system property s actions) : property s := by
  cases actions with
  | nil => exact h
  | cons a actions => exact h.1

/-- What holds throughout a run holds where it ends. -/
theorem Throughout.last {property : State → Prop} {s t : State} {actions : List Action}
    (h : Throughout system property s actions) (hrun : system.run s actions = some t) :
    property t := by
  induction actions generalizing s with
  | nil =>
      obtain rfl : s = t := by simpa using hrun
      exact h
  | cons a actions ih =>
      obtain ⟨middle, hstep, hrest⟩ := (system.run_cons_eq_some).mp hrun
      exact ih (h.2 middle hstep) hrest

/-- **Safety along a run.**  When the steps that meet `domain` and `guard` keep
an invariant that implies `property`, every state of a run whose steps all meet
them has `property`. -/
theorem throughout_of_meets {domain : State → Action → Prop} {property inv : State → Prop}
    (hprop : ∀ s, inv s → property s)
    (hgood : ∀ s a t, inv s → domain s a → guard s a → system.step s a = some t → inv t)
    {s : State} (hs : inv s) {actions : List Action}
    (hdomain : Meets system domain s actions) (hmeets : Meets system guard s actions) :
    Throughout system property s actions := by
  induction actions generalizing s with
  | nil => exact hprop s hs
  | cons a actions ih =>
      refine ⟨hprop s hs, fun t hstep => ?_⟩
      exact ih (hgood s a t hs hdomain.1 hmeets.1 hstep) (hdomain.2 t hstep) (hmeets.2 t hstep)

/-- **Progress.**  When no step of a run that stays within `pending` raises the
rank, and each of the steps that are `mine` lowers it, then the run has at most as
many of these as the rank allows. -/
theorem Throughout.countP_add_rank_le {pending inv : State → Prop} {rank : State → Nat}
    {mine : Action → Bool}
    (hstep : ∀ s a t, inv s → pending s → guard s a → system.step s a = some t → pending t →
      inv t ∧ rank t + (if mine a then 1 else 0) ≤ rank s)
    {s t : State} (hs : inv s) {actions : List Action} (hmeets : Meets system guard s actions)
    (hrun : system.run s actions = some t) (hpending : Throughout system pending s actions) :
    inv t ∧ actions.countP mine + rank t ≤ rank s := by
  induction actions generalizing s with
  | nil =>
      obtain rfl : s = t := by simpa using hrun
      exact ⟨hs, by simp⟩
  | cons a actions ih =>
      obtain ⟨middle, hfirst, hrest⟩ := (system.run_cons_eq_some).mp hrun
      have hmiddle := hpending.2 middle hfirst
      obtain ⟨hinv, hle⟩ := hstep s a middle hs hpending.1 hmeets.1 hfirst hmiddle.first
      obtain ⟨hend, hcount⟩ := ih hinv (hmeets.2 middle hfirst) hrest hmiddle
      refine ⟨hend, ?_⟩
      rw [List.countP_cons]
      omega

/-- **Exact guards, along the run.**  When the guarded steps keep an invariant
that implies `property`, and every other step ends in a state without it, then
`property` holds throughout a run exactly when all its steps met the guard. -/
theorem throughout_iff_meets {domain : State → Action → Prop} {property inv : State → Prop}
    (hprop : ∀ s, inv s → property s)
    (hgood : ∀ s a t, inv s → domain s a → guard s a → system.step s a = some t → inv t)
    (hbad : ∀ s a t, inv s → domain s a → ¬ guard s a → system.step s a = some t →
      ¬ property t)
    {s t : State} (hs : inv s) {actions : List Action}
    (hrun : system.run s actions = some t) (hdomain : Meets system domain s actions) :
    Throughout system property s actions ↔ Meets system guard s actions := by
  constructor
  · intro hall
    induction actions generalizing s with
    | nil => trivial
    | cons a actions ih =>
        obtain ⟨middle, hstep, hrest⟩ := (system.run_cons_eq_some).mp hrun
        have hmiddle := hall.2 middle hstep
        have hguard : guard s a := by
          by_contra hnot
          exact hbad s a middle hs hdomain.1 hnot hstep hmiddle.first
        refine ⟨hguard, fun t' hstep' => ?_⟩
        obtain rfl : middle = t' := Option.some.inj (hstep.symm.trans hstep')
        exact ih (hgood s a middle hs hdomain.1 hguard hstep) hrest (hdomain.2 middle hstep) hmiddle
  · exact throughout_of_meets hprop hgood hs hdomain

/-- A projection under which every guarded step is a guarded step of the other
system, or leaves the projected state alone, maps reachable states to reachable
states. -/
theorem Reachable.simulates {State' : Type*} {Action' : Type*}
    {system' : TransitionSystem State' Action'} {guard' : State' → Action' → Prop}
    (project : State → State') (hinit : project system.init = system'.init)
    (hstep : ∀ s a t, guard s a → system.step s a = some t →
      project t = project s ∨
        ∃ a', guard' (project s) a' ∧ system'.step (project s) a' = some (project t))
    {s : State} (hs : Reachable system guard s) :
    Reachable system' guard' (project s) := by
  induction hs with
  | init => exact hinit ▸ .init
  | step _ hguard hst ih =>
      rcases hstep _ _ _ hguard hst with hsame | ⟨a', hguard', hst'⟩
      · exact hsame ▸ ih
      · exact .step ih hguard' hst'

end TransitionSystem
