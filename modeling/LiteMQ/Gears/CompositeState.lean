import LiteMQ.Foundation.TransitionSystem
import LiteMQ.Gears.CompositeActivation

/-!
# The state of a composite and those of its children

Whole calls of a composite come one after another, and any of the child calls that they
make may throw.  An object that is not a child of the composite may change its state by
itself; it may be active when it is added, and it may have been a child before.

Each operation re-establishes on its own that an active composite has active children
and one at rest has no active child.  `consistent_iff_stops_together` says when they do:
when the children that an operation tells to stop do so together.
-/

namespace LiteMQ

open TransitionSystem

variable {C : Type*} [DecidableEq C]

namespace Composite

/-- A call of a member function of the composite with the child calls that throw, or a
change of an object that is not its child. -/
inductive Action (C : Type*)
  | activate (fails : Nat → ChildFails)
  | deactivate (fails : Nat → ChildFails)
  | wait (fails : Nat → ChildFails)
  | addChild (c : C) (addToHead : Bool) (fails : ChildFails)
  | clearChildren (fails : Nat → ChildFails)
  | outside (c : C) (state : ActiveState)

/-- A call is a step whether it returns or throws. -/
def step (sync : Bool) (s : Composite C) : Action C → Option (Composite C)
  | .activate fails => (s.activateObject sync fails).map Prod.fst
  | .deactivate fails => (s.deactivateObject sync fails).map Prod.fst
  | .wait fails => (s.waitObject fails).map Prod.fst
  | .addChild c addToHead fails => (s.addChildObject c addToHead fails).map Prod.fst
  | .clearChildren fails => (s.clearChildren sync fails).map Prod.fst
  | .outside c state =>
      if c ∈ s.childObjects then none
      else some { s with
        world := { s.world with objects := Function.update s.world.objects c state } }

/-- The composite as it is constructed, among objects in any state. -/
def system (sync : Bool) (objects : C → ActiveState) :
    TransitionSystem (Composite C) (Action C) :=
  ⟨⟨.notActive, [], objects, []⟩, step sync⟩

/-- An active composite has active children, and one at rest has no active child. -/
structure Consistent (s : Composite C) : Prop where
  active : s.state = .active → ∀ c ∈ s.childObjects, s.world.objects c = .active
  notActive : s.state = .notActive → ∀ c ∈ s.childObjects, s.world.objects c ≠ .active

/-- The children are active with the composite, and not otherwise, deactivating or not. -/
def Uniform (s : Composite C) : Prop :=
  ∀ c ∈ s.childObjects, s.world.objects c = .active ↔ s.state = .active

/-- The children that an operation tells to stop do so together: none of the calls that
it makes of them throws, or all of them throw from `deactivate_object`.  `waits` is
whether it also waits for them. -/
def StopTogether (sync waits : Bool) (children : List (Called C)) : Prop :=
  (∀ child ∈ children, child.throws sync = false ∧ (waits = true → child.fails.wait = false)) ∨
    ∀ child ∈ children, child.fails.deactivate = true

/-- When an active composite is deactivated or its children are removed, they stop
together.  When a child does not start, those before it stop. -/
def StopsTogether (sync : Bool) (s : Composite C) : Action C → Prop
  | .activate fails =>
      s.state = .notActive → RollbackDeactivates s.world.objects (called fails s.childObjects)
  | .deactivate fails => s.state = .active → StopTogether sync false (called fails s.childObjects)
  | .clearChildren fails =>
      s.state = .active → StopTogether sync true (called fails s.childObjects)
  | .wait _ | .addChild _ _ _ | .outside _ _ => True

omit [DecidableEq C] in
theorem Uniform.consistent {s : Composite C} (h : s.Uniform) : s.Consistent := by
  constructor
  · intro hstate c hmem
    exact (h c hmem).mpr hstate
  · intro hstate c hmem hactive
    simp [(h c hmem).mp hactive] at hstate

omit [DecidableEq C] in
/-- A child is at some place of `child_objects_`. -/
theorem mem_childObjects_iff (fails : Nat → ChildFails) {childObjects : List C} {c : C} :
    c ∈ childObjects ↔ ∃ child ∈ called fails childObjects, child.object = c := by
  conv_lhs => rw [← called_map_object fails childObjects]
  exact List.mem_map

/-- A failed activation leaves a child active exactly when the roll back fails to
deactivate one. -/
theorem Uniform.activate {sync : Bool} {fails : Nat → ChildFails} {s t : Composite C}
    (hs : s.Uniform) (h : s.step sync (.activate fails) = some t) :
    (s.StopsTogether sync (.activate fails) → t.Uniform) ∧
      (t.Consistent → s.StopsTogether sync (.activate fails)) := by
  simp only [StopsTogether]
  rw [step] at h
  by_cases hstate : s.state = .notActive
  · rcases activateObject_cases sync fails hstate with
      ⟨w, hresult, hloop⟩ | ⟨done, failing, rest, w, v, heq, hnot, hresult, hloop, hback⟩
    all_goals
      rw [hresult] at h
      obtain rfl := Option.some.inj h
    · refine ⟨fun _ c hmem => ?_, fun _ _ => .of_activates hloop.activates⟩
      simp only [iff_true]
      rw [hloop.objects c, called_map_object, if_pos hmem]
    · -- `failing` did not start: uniform is what all before it stop for
      rw [heq, rollbackDeactivates_iff hloop.activates hnot]
      constructor
      · intro hstops c hmem
        have hquiet : s.world.objects c ≠ .active := by
          simp [hs c hmem, hstate]
        simp only [reduceCtorEq, iff_false]
        intro hactive
        obtain ⟨hbefore, hfails⟩ := (hback.active c).mp hactive
        rw [hloop.objects c] at hbefore
        split at hbefore
        · rename_i hdone
          obtain ⟨child, hin, rfl⟩ := List.mem_map.mp hdone
          have hthrows := hfails child (List.mem_reverse.mpr hin) rfl
          simp [hstops hstate child hin] at hthrows
        · exact hquiet hbefore
      · intro hconsistent _ child hin
        have hmem : child.object ∈ s.childObjects := by
          apply (mem_childObjects_iff fails).mpr
          exact ⟨child, by rw [heq]; exact List.mem_append_left _ hin, rfl⟩
        have hquiet := hconsistent.notActive rfl child.object hmem
        by_contra hfails
        apply hquiet
        apply (hback.active child.object).mpr
        constructor
        · rw [hloop.objects, if_pos (List.mem_map_of_mem hin)]
        · intro other hother hsame
          obtain rfl : other = child :=
            List.inj_on_of_nodup_map hloop.activates.1 (List.mem_reverse.mp hother) hin hsame
          simpa using hfails
  · have hkept : s = t := by
      simpa [activateObject, hstate] using h
    subst hkept
    exact ⟨fun _ => hs, fun _ h => absurd h hstate⟩

omit [DecidableEq C] in
/-- The children that were active are so behind the loop of `deactivate_object_` exactly
when all calls threw. -/
theorem forall_active_iff {fails : Nat → ChildFails} {childObjects : List C} {w v : World C}
    (h : ∀ c, v.objects c = .active ↔ w.objects c = .active ∧
      ∀ child ∈ (called fails childObjects).reverse, child.object = c →
        child.fails.deactivate = true)
    (hactive : ∀ c ∈ childObjects, w.objects c = .active) :
    (∀ c ∈ childObjects, v.objects c = .active) ↔
      ∀ child ∈ called fails childObjects, child.fails.deactivate = true := by
  constructor
  · intro hall child hin
    have hstill := hall child.object ((mem_childObjects_iff fails).mpr ⟨child, hin, rfl⟩)
    exact ((h _).mp hstill).2 child (List.mem_reverse.mpr hin) rfl
  · intro hfails c hmem
    apply (h c).mpr
    exact ⟨hactive c hmem, fun child hin _ => hfails child (List.mem_reverse.mp hin)⟩

omit [DecidableEq C] in
/-- A composite that stays active when one of the calls has thrown: all children have to
be active still. -/
theorem stays_active {sync waits : Bool} {children : List (Called C)} {t : Composite C}
    (hstate : t.state = .active)
    (hthrew : ¬ ∀ child ∈ children,
      child.throws sync = false ∧ (waits = true → child.fails.wait = false))
    (hall : (∀ c ∈ t.childObjects, t.world.objects c = .active) ↔
      ∀ child ∈ children, child.fails.deactivate = true) :
    (StopTogether sync waits children → t.Uniform) ∧
      (t.Consistent → StopTogether sync waits children) := by
  constructor
  · rintro (hnone | hfails)
    · exact absurd hnone hthrew
    · intro c hmem
      simp [hstate, hall.mpr hfails c hmem]
  · intro hconsistent
    exact Or.inr (hall.mp (hconsistent.active hstate))

/-- `deactivate_object` makes the composite active again when a child throws. -/
theorem Uniform.deactivate {sync : Bool} {fails : Nat → ChildFails} {s t : Composite C}
    (hs : s.Uniform) (h : s.step sync (.deactivate fails) = some t) :
    (s.StopsTogether sync (.deactivate fails) → t.Uniform) ∧
      (t.Consistent → s.StopsTogether sync (.deactivate fails)) := by
  simp only [StopsTogether]
  rw [step] at h
  by_cases hstate : s.state = .active
  · obtain ⟨v, hloop, hv⟩ :=
      deactivateChildren_spec sync (called fails s.childObjects).reverse s.world
    rw [deactivateObject, if_pos hstate, hloop, List.any_reverse] at h
    obtain rfl := Option.some.inj h
    have hall := forall_active_iff hv.active fun c hmem => (hs c hmem).mpr hstate
    simp only [hstate, forall_const]
    cases hthrew : (called fails s.childObjects).any (Called.throws sync) with
    | true =>
        apply stays_active
        · simp
        · intro hnone
          obtain ⟨child, hin, hthrows⟩ := List.any_eq_true.mp hthrew
          simp [(hnone child hin).1] at hthrows
        · exact hall
    | false =>
        rw [List.any_eq_false] at hthrew
        constructor
        · intro _ c hmem
          simp only [Bool.false_eq_true, if_false, reduceCtorEq, iff_false]
          intro hstill
          obtain ⟨child, hin, rfl⟩ := (mem_childObjects_iff fails).mp hmem
          have hfails := ((hv.active _).mp hstill).2 child (List.mem_reverse.mpr hin) rfl
          apply hthrew child hin
          simp [Called.throws, hfails]
        · intro _
          exact Or.inl fun child hin => ⟨by simpa using hthrew child hin, by simp⟩
  · have hkept : s = t := by
      simpa [deactivateObject, hstate] using h
    subst hkept
    exact ⟨fun _ => hs, fun _ h => absurd h hstate⟩

/-- `clear_children` leaves the composite as it is when a child throws. -/
theorem Uniform.clearChildren {sync : Bool} {fails : Nat → ChildFails} {s t : Composite C}
    (hs : s.Uniform) (h : s.step sync (.clearChildren fails) = some t) :
    (s.StopsTogether sync (.clearChildren fails) → t.Uniform) ∧
      (t.Consistent → s.StopsTogether sync (.clearChildren fails)) := by
  simp only [StopsTogether]
  rw [step, Composite.clearChildren] at h
  by_cases hrest : s.state = .notActive
  · rw [if_pos hrest] at h
    obtain rfl := Option.some.inj h
    refine ⟨fun _ c hmem => (by cases hmem), fun _ hactive => ?_⟩
    simp [hrest] at hactive
  · obtain ⟨v, hloop, hv⟩ :=
      deactivateAndWait_spec sync (called fails s.childObjects).reverse s.world
    rw [if_neg hrest, hloop, List.any_reverse, List.any_reverse] at h
    obtain rfl := Option.some.inj h
    cases hthrew : (called fails s.childObjects).any (Called.throws sync) ||
        (called fails s.childObjects).any fun child => child.fails.wait with
    | true =>
        simp only [if_true]
        by_cases hstate : s.state = .active
        · have hall := forall_active_iff hv.active fun c hmem => (hs c hmem).mpr hstate
          simp only [hstate, forall_const]
          apply stays_active
          · rfl
          · intro hnone
            rcases Bool.or_eq_true _ _ ▸ hthrew with hsome | hsome
            all_goals obtain ⟨child, hin, hthrows⟩ := List.any_eq_true.mp hsome
            · simp [(hnone child hin).1] at hthrows
            · simp [(hnone child hin).2 rfl] at hthrows
          · exact hall
        · refine ⟨fun _ c hmem => ?_, fun _ hactive => absurd hactive hstate⟩
          simp only [hstate, iff_false]
          intro hstill
          exact hstate ((hs c hmem).mp ((hv.active c).mp hstill).1)
    | false =>
        simp only [Bool.false_eq_true, if_false]
        rw [Bool.or_eq_false_iff, List.any_eq_false, List.any_eq_false] at hthrew
        refine ⟨fun _ c hmem => (by cases hmem), fun _ _ => Or.inl fun child hin => ?_⟩
        exact ⟨by simpa using hthrew.1 child hin, fun _ => by simpa using hthrew.2 child hin⟩

/-- `wait_object` finds no active child. -/
theorem Uniform.wait {sync : Bool} {fails : Nat → ChildFails} {s t : Composite C}
    (hs : s.Uniform) (h : s.step sync (.wait fails) = some t) : t.Uniform := by
  rw [step, waitObject] at h
  by_cases hstate : s.state = .active
  · simp [hstate] at h
  · have hquiet : ∀ child ∈ (called fails s.childObjects).reverse,
        s.world.objects child.object ≠ .active := by
      intro child hin hactive
      have hmem := (mem_childObjects_iff fails).mpr ⟨child, List.mem_reverse.mp hin, rfl⟩
      exact hstate ((hs _ hmem).mp hactive)
    obtain ⟨v, hloop, hv⟩ := waitForSomeObjects_spec hquiet
    rw [if_neg hstate, hloop] at h
    obtain rfl := Option.some.inj h
    intro c hmem
    simp only [hv.active c, hs c hmem, hstate, false_iff]
    split
    · exact hstate
    · simp

/-- What `add_child_object` calls changes the new child only, and when nothing was thrown
the child is active with the composite. -/
theorem adopt_spec {c : C} {fails : ChildFails} {s : Composite C} {w : World C} {threw : Bool}
    (hs : s.Uniform) (h : s.adopt c fails = some (w, threw)) :
    (∀ c' ∈ s.childObjects, w.objects c' = .active ↔ s.state = .active) ∧
      (threw = false → (w.objects c = .active ↔ s.state = .active)) := by
  unfold adopt at h
  by_cases hactive : fails.active
  · obtain ⟨rfl, rfl⟩ : s.world = w ∧ true = threw := by simpa [hactive] using h
    exact ⟨hs, by simp⟩
  · rw [if_neg hactive] at h
    by_cases hstate : s.state = .active
    · rw [if_pos hstate] at h
      by_cases hc : s.world.objects c = .active
      · obtain ⟨rfl, rfl⟩ : s.world = w ∧ false = threw := by simpa [hc] using h
        exact ⟨hs, fun _ => by simp [hc, hstate]⟩
      · simp only [if_neg hc, World.activateObject] at h
        split at h
        · obtain ⟨rfl, rfl⟩ := Prod.mk.inj (Option.some.inj h)
          exact ⟨hs, by simp⟩
        · obtain ⟨rfl, rfl⟩ := Prod.mk.inj (Option.some.inj h)
          refine ⟨fun c' hmem => ?_, fun _ => by simp [hstate]⟩
          by_cases hsame : c' = c
          · simp [hsame, hstate]
          · simpa [hsame] using hs c' hmem
    · rw [if_neg hstate] at h
      by_cases hc : s.world.objects c = .active
      · -- an active child of a stopped composite is stopped, and waited for if it stops
        obtain ⟨v, hcall, hv, -⟩ := s.world.deactivateObject_spec c fails.deactivate
        rw [if_pos hc, hcall] at h
        have hothers : ∀ c' ∈ s.childObjects, v.objects c' = .active ↔ s.state = .active := by
          intro c' hmem
          have hnot : s.world.objects c' ≠ .active := fun h => hstate ((hs c' hmem).mp h)
          simp [hv c', hnot, hstate]
        cases hfails : fails.deactivate with
        | true =>
            obtain ⟨rfl, rfl⟩ : v = w ∧ true = threw := by simpa [hfails] using h
            exact ⟨hothers, by simp⟩
        | false =>
            have hquiet : v.objects c ≠ .active := by simp [hv c, hfails]
            obtain ⟨u, hwait, hu, -⟩ := v.waitObject_spec fails.wait hquiet
            obtain ⟨rfl, rfl⟩ : u = w ∧ fails.wait = threw := by simpa [hfails, hwait] using h
            refine ⟨fun c' hmem => ?_, fun _ => ?_⟩
            · rw [hu c']
              exact hothers c' hmem
            · simp [hu c, hquiet, hstate]
      · obtain ⟨rfl, rfl⟩ : s.world = w ∧ false = threw := by simpa [hc] using h
        exact ⟨hs, fun _ => by simp [hc, hstate]⟩

/-- `add_child_object` brings the child to the state of the composite, or does not add
it. -/
theorem Uniform.addChild {sync : Bool} {c : C} {addToHead : Bool} {fails : ChildFails}
    {s t : Composite C} (hs : s.Uniform)
    (h : s.step sync (.addChild c addToHead fails) = some t) : t.Uniform := by
  rw [step, addChildObject, Option.map_map, Option.map_eq_some_iff] at h
  obtain ⟨⟨w, threw⟩, hadopt, rfl⟩ := h
  obtain ⟨hothers, hnew⟩ := adopt_spec hs hadopt
  cases threw with
  | true => exact hothers
  | false =>
      intro c' hmem
      have hcases : c' = c ∨ c' ∈ s.childObjects := by
        cases addToHead <;> simpa [or_comm] using hmem
      rcases hcases with rfl | hold
      · exact hnew rfl
      · exact hothers c' hold

/-- What an object does that is not a child of the composite does not matter to it. -/
theorem Uniform.outside {sync : Bool} {c : C} {state : ActiveState} {s t : Composite C}
    (hs : s.Uniform) (h : s.step sync (.outside c state) = some t) : t.Uniform := by
  rw [step] at h
  split at h
  · cases h
  · rename_i hnot
    obtain rfl := Option.some.inj h
    intro c' hmem
    have hne : c' ≠ c := by
      rintro rfl
      exact hnot hmem
    simpa [hne] using hs c' hmem

/-- A call keeps the children uniform exactly when those that it tells to stop do so
together. -/
theorem Uniform.step {sync : Bool} {s t : Composite C} {a : Action C} (hs : s.Uniform)
    (h : s.step sync a = some t) :
    (s.StopsTogether sync a → t.Uniform) ∧ (t.Consistent → s.StopsTogether sync a) := by
  cases a with
  | activate fails => exact hs.activate h
  | deactivate fails => exact hs.deactivate h
  | wait fails => exact ⟨fun _ => hs.wait h, fun _ => trivial⟩
  | addChild c addToHead fails => exact ⟨fun _ => hs.addChild h, fun _ => trivial⟩
  | clearChildren fails => exact hs.clearChildren h
  | outside c state => exact ⟨fun _ => hs.outside h, fun _ => trivial⟩

/-- In every sequence of calls, the state of the composite is consistent with those of its
children after each call exactly when the children that a call tells to stop do so
together. -/
theorem consistent_iff_stops_together {sync : Bool} {objects : C → ActiveState}
    {actions : List (Action C)} {t : Composite C}
    (hrun : (system sync objects).run (system sync objects).init actions = some t) :
    Throughout (system sync objects) Consistent (system sync objects).init actions ↔
      Meets (system sync objects) (StopsTogether sync) (system sync objects).init actions := by
  have hinit : Uniform (system sync objects).init := by
    intro c hmem
    cases hmem
  have hgood : ∀ s a t, Uniform s → unguarded s a → StopsTogether sync s a →
      (system sync objects).step s a = some t → Uniform t := by
    intro s a t hs _ hguard hstep
    exact (hs.step hstep).1 hguard
  have hbad : ∀ s a t, Uniform s → unguarded s a → ¬ StopsTogether sync s a →
      (system sync objects).step s a = some t → ¬ Consistent t := by
    intro s a t hs _ hguard hstep hconsistent
    exact hguard ((hs.step hstep).2 hconsistent)
  exact throughout_iff_meets (fun s hs => hs.consistent) hgood hbad hinit hrun
    (meets_unguarded _ _)

/-- Nothing throws. -/
def noneFails : ChildFails := ⟨false, false, false, false, false⟩

/-- Two children, one of them added at the head, and a life cycle in which the first wait
throws. -/
def lifeCycle : List (Action Nat) :=
  [.addChild 0 false noneFails, .addChild 1 true noneFails, .activate fun _ => noneFails,
    .deactivate fun _ => noneFails, .wait fun i => { noneFails with wait := i == 1 },
    .wait fun _ => noneFails]

theorem consistent_iff_stops_together_life_cycle :
    ∃ t, (system false fun _ => .notActive).run (system false fun _ => .notActive).init
        lifeCycle = some t ∧ t.state = .notActive ∧
      (Throughout (system false fun _ => .notActive) Consistent
          (system false fun _ => .notActive).init lifeCycle ↔
        Meets (system false fun _ => .notActive) (StopsTogether false)
          (system false fun _ => .notActive).init lifeCycle) := by
  have hend : ((system false fun _ => .notActive).run (system false fun _ => .notActive).init
      lifeCycle).map Composite.state = some .notActive := by
    decide +kernel
  obtain ⟨t, hrun, hstate⟩ := Option.map_eq_some_iff.mp hend
  exact ⟨t, hrun, hstate, consistent_iff_stops_together hrun⟩

/-- The last of two active children throws from `deactivate_object`.  The first one is told
to stop all the same, and the composite is active again. -/
theorem active_with_deactivating_child :
    ∃ t, (system false fun _ => .notActive).run (system false fun _ => .notActive).init
        [.addChild 0 false noneFails, .addChild 1 false noneFails,
          .activate fun _ => noneFails,
          .deactivate fun i => { noneFails with deactivate := i == 1 }] = some t ∧
      t.state = .active ∧ t.world.objects 0 = .deactivating ∧ ¬ t.Consistent := by
  have hend : ((system false fun _ => .notActive).run (system false fun _ => .notActive).init
        [.addChild 0 false noneFails, .addChild 1 false noneFails,
          .activate fun _ => noneFails,
          .deactivate fun i => { noneFails with deactivate := i == 1 }]).map
      (fun t => (t.state, t.childObjects, t.world.objects 0)) =
      some (.active, [0, 1], .deactivating) := by
    decide +kernel
  obtain ⟨t, hrun, hvalues⟩ := Option.map_eq_some_iff.mp hend
  simp only [Prod.mk.injEq] at hvalues
  obtain ⟨hstate, hchildren, hobject⟩ := hvalues
  refine ⟨t, hrun, hstate, hobject, ?_⟩
  intro hconsistent
  have hactive := hconsistent.active hstate 0 (by simp [hchildren])
  simp [hobject] at hactive

end Composite

end LiteMQ
