import LiteMQ.Gears.CompositeLoops
import Mathlib.Data.List.Nodup

/-!
# The activation of a composite is taken back as a whole, or not

`activate_object_` activates the children in their order.  When one of them throws it
deactivates those before it, last first, and then waits for them.  Both happen in one
`try` block: when a `deactivate_object` of the roll back throws, the waits are skipped.

`activate_atomic_iff` says when a failed activation leaves every child that it had
activated deactivated and waited for: exactly when none of these children throws from
its `deactivate_object`, in both modes of `SYNCHRONOUS_`.
-/

namespace LiteMQ

variable {C : Type*}

/-- What starts, starts up to any place. -/
theorem Activates.left {objects : C → ActiveState} {children rest : List (Called C)}
    (h : Activates objects (children ++ rest)) : Activates objects children := by
  obtain ⟨hnodup, hall⟩ := h
  rw [List.map_append] at hnodup
  exact ⟨(List.nodup_append.mp hnodup).1, fun child hmem =>
    hall child (List.mem_append_left rest hmem)⟩

/-- The children before the first that does not start are the same however the list is
cut there. -/
theorem Activates.eq_of_stopped {objects : C → ActiveState}
    {done done' rest rest' : List (Called C)} {failing failing' : Called C}
    (h : Activates objects done) (h' : Activates objects done')
    (hnot : ¬ Activates objects (done ++ [failing]))
    (hnot' : ¬ Activates objects (done' ++ [failing']))
    (heq : done ++ failing :: rest = done' ++ failing' :: rest') : done = done' := by
  rcases List.append_eq_append_iff.mp heq with ⟨more, hdone, hrest⟩ | ⟨more, hdone, hrest⟩
  · cases more with
    | nil => simpa using hdone.symm
    | cons first more =>
        obtain rfl : failing = first := (List.cons.inj hrest).1
        have hstarts : Activates objects (done ++ [failing] ++ more) := by
          simpa [hdone] using h'
        exact absurd hstarts.left hnot
  · cases more with
    | nil => simpa using hdone
    | cons first more =>
        obtain rfl : failing' = first := (List.cons.inj hrest).1
        have hstarts : Activates objects (done' ++ [failing'] ++ more) := by
          simpa [hdone] using h
        exact absurd hstarts.left hnot'

/-- What a projection of the calls tells of those that were appended. -/
theorem project_appended {β : Type*} {project : List (Call C) → List β}
    (happend : ∀ calls calls', project (calls ++ calls') = project calls ++ project calls')
    {before attempt after : List (Call C)} (hcalls : before ++ attempt = after) {entries : List β}
    (h : project after = project before ++ entries) : project attempt = entries := by
  rw [← hcalls, happend] at h
  exact List.append_cancel_left h

/-- The roll back of different children waits for each of them exactly when none throws
from its `deactivate_object`: when one does, the second loop does not run, and the first
waits for the others only. -/
theorem forall_waited_iff (sync : Bool) {children : List (Called C)}
    (hnodup : (children.map Called.object).Nodup) :
    (∀ c ∈ children.map Called.object, c ∈
      (if sync then (children.filter fun child => ¬ child.fails.deactivate).map Called.object
        else []) ++
      if children.any (Called.throws sync) then [] else children.map Called.object) ↔
    ∀ child ∈ children, child.fails.deactivate = false := by
  constructor
  · intro hwaited child hmem
    by_contra hfails
    rw [Bool.not_eq_false] at hfails
    have hthrows : children.any (Called.throws sync) = true :=
      List.any_eq_true.mpr ⟨child, hmem, by simp [Called.throws, hfails]⟩
    have hone := hwaited child.object (List.mem_map_of_mem hmem)
    rw [if_pos hthrows, List.append_nil] at hone
    split at hone
    · obtain ⟨other, hother, hsame⟩ := List.mem_map.mp hone
      obtain ⟨hin, hquiet⟩ := List.mem_filter.mp hother
      obtain rfl : other = child := List.inj_on_of_nodup_map hnodup hin hmem hsame
      simp [hfails] at hquiet
    · cases hone
  · intro hnone c hmem
    have hfilter : (children.filter fun child => ¬ child.fails.deactivate) = children := by
      apply List.filter_eq_self.mpr
      intro child hin
      simp [hnone child hin]
    rw [hfilter]
    cases sync with
    | true => simp [hmem]
    | false =>
        have hquiet : children.any (Called.throws false) = false := by
          rw [List.any_eq_false]
          intro child hin
          simp [Called.throws, hnone child hin]
        simpa [hquiet] using hmem

namespace Composite

/-- An attempt to activate has left nothing behind: the composite is not active again,
each child that was activated was deactivated, last first, and waited for. -/
structure RolledBack (t : Composite C) (attempt : List (Call C)) : Prop where
  notActive : t.state = .notActive
  deactivated : deactivateCalls attempt = (activated attempt).reverse
  waited : ∀ c ∈ activated attempt, c ∈ waitCalls attempt

/-- When the children before some place start and the one there does not, those before
it do not throw from `deactivate_object`. -/
def RollbackDeactivates (objects : C → ActiveState) (children : List (Called C)) : Prop :=
  ∀ done failing rest, children = done ++ failing :: rest → Activates objects done →
    ¬ Activates objects (done ++ [failing]) → ∀ child ∈ done, child.fails.deactivate = false

/-- When all children start there is nothing to take back. -/
theorem RollbackDeactivates.of_activates {objects : C → ActiveState} {children : List (Called C)}
    (h : Activates objects children) : RollbackDeactivates objects children := by
  intro done failing rest heq _ hnot
  have hstarts : Activates objects (done ++ [failing] ++ rest) := by
    simpa [heq] using h
  exact absurd hstarts.left hnot

/-- When the children stop starting behind `done`, the condition is about `done`. -/
theorem rollbackDeactivates_iff {objects : C → ActiveState} {done rest : List (Called C)}
    {failing : Called C} (h : Activates objects done)
    (hnot : ¬ Activates objects (done ++ [failing])) :
    RollbackDeactivates objects (done ++ failing :: rest) ↔
      ∀ child ∈ done, child.fails.deactivate = false := by
  constructor
  · intro hall
    exact hall done failing rest rfl h hnot
  · intro hdone done' failing' rest' heq h' hnot'
    obtain rfl := h.eq_of_stopped h' hnot hnot' heq
    exact hdone

variable [DecidableEq C]

/-- `activate_object` does not block, and when a child throws from its `activate_object`
it throws as well and has rolled back. -/
def ActivationAtomic (sync : Bool) (fails : Nat → ChildFails) (s : Composite C) : Prop :=
  ∃ t threw attempt, s.activateObject sync fails = some (t, threw) ∧
    t.world.calls = s.world.calls ++ attempt ∧
    (activateFailed attempt ≠ [] → threw = true ∧ t.RolledBack attempt)

/-- A failed activation is taken back as a whole exactly when, if a child does not start
when the composite is activated, those before it do not throw from
`deactivate_object`. -/
theorem activate_atomic_iff (sync : Bool) (fails : Nat → ChildFails) (s : Composite C) :
    s.ActivationAtomic sync fails ↔
      (s.state = .notActive →
        RollbackDeactivates s.world.objects (called fails s.childObjects)) := by
  by_cases hstate : s.state = .notActive
  · rcases activateObject_cases sync fails hstate with
      ⟨w, hresult, h⟩ | ⟨done, stopped, rest, w, v, heq, hnot, hresult, h, hv⟩
    · -- every child starts
      obtain ⟨attempt, hcalls⟩ := h.calls
      obtain ⟨failing, hfailed, hthrew⟩ := h.failed
      have hnone : activateFailed attempt = [] := by
        rw [project_appended activateFailed_append hcalls hfailed]
        simpa using hthrew
      constructor
      · exact fun _ _ => .of_activates h.activates
      · exact fun _ => ⟨_, _, attempt, hresult, hcalls.symm, fun hne => absurd hnone hne⟩
    · -- the child `stopped` does not, and those before it are stopped again
      obtain ⟨attempt, hcalls⟩ := h.calls.trans hv.calls
      obtain ⟨failing, hfailed, hthrew⟩ := h.failed
      have hactivated : activated attempt = done.map Called.object :=
        project_appended activated_append hcalls (hv.activated.trans h.activated)
      have hfailing : activateFailed attempt = failing :=
        project_appended activateFailed_append hcalls (hv.failed.trans hfailed)
      have hdeactivated : deactivateCalls attempt = (done.map Called.object).reverse := by
        have hall := hv.deactivateCalls
        rw [h.deactivateCalls] at hall
        rw [project_appended deactivateCalls_append hcalls hall, List.map_reverse]
      have hwaited := hv.waitCalls
      rw [h.waitCalls] at hwaited
      replace hwaited := project_appended waitCalls_append hcalls hwaited
      have hreverse : (done.reverse.map Called.object).Nodup := by
        rw [List.map_reverse, List.nodup_reverse]
        exact h.activates.1
      have hiff := forall_waited_iff sync hreverse
      rw [← hwaited] at hiff
      rw [heq, rollbackDeactivates_iff h.activates hnot]
      constructor
      · rintro ⟨t, threw, attempt', hresult', hcalls', hatomic⟩ -
        rw [hresult] at hresult'
        obtain ⟨rfl, rfl⟩ := Prod.mk.inj (Option.some.inj hresult')
        obtain rfl : attempt = attempt' := List.append_cancel_left (hcalls.trans hcalls')
        rw [hfailing] at hatomic
        have hrolled := (hatomic (hthrew.mp rfl)).2
        intro child hmem
        apply hiff.mp
        · intro c hc
          apply hrolled.waited
          rw [hactivated]
          simpa using hc
        · simpa using hmem
      · intro hnone
        refine ⟨_, _, attempt, hresult, hcalls.symm, fun _ => ⟨rfl, rfl, ?_, ?_⟩⟩
        · rw [hdeactivated, hactivated]
        · intro c hc
          rw [hactivated] at hc
          apply hiff.mpr
          · intro child hmem
            exact hnone hstate child (by simpa using hmem)
          · simpa using hc
  · -- refused before any child is called
    have hresult : s.activateObject sync fails = some (s, true) := by
      simp [activateObject, hstate]
    constructor
    · exact fun _ h => absurd h hstate
    · exact fun _ => ⟨s, true, [], hresult, by simp, by simp [activateFailed]⟩

/-- A child that works, one that does not stop when it is told to, and one that does not
start. -/
def thirdFails : Nat → ChildFails
  | 1 => ⟨false, false, true, false, false⟩
  | 2 => ⟨true, false, false, false, false⟩
  | _ => ⟨false, false, false, false, false⟩

/-- Three children at rest. -/
def threeChildren : Composite Nat := ⟨.notActive, [0, 1, 2], fun _ => .notActive, []⟩

/-- The third child does not start.  In the roll back the second one throws, and the first
one, which was told to stop, is not waited for. -/
theorem activate_not_atomic : ¬ threeChildren.ActivationAtomic false thirdFails := by
  rintro ⟨t, threw, attempt, hresult, hcalls, hatomic⟩
  have hlog : (threeChildren.activateObject false thirdFails).map (fun r => r.1.world.calls) =
      some [⟨.activate, 0, false⟩, ⟨.activate, 1, false⟩, ⟨.activate, 2, true⟩,
        ⟨.deactivate, 1, true⟩, ⟨.deactivate, 0, false⟩] := by
    decide
  rw [hresult, Option.map_some, hcalls] at hlog
  obtain rfl := List.nil_append attempt ▸ Option.some.inj hlog
  have hwaited := (hatomic (by decide)).2.waited 0 (by decide)
  exact absurd hwaited (by decide)

end Composite

end LiteMQ
