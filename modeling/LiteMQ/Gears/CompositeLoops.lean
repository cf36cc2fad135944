import LiteMQ.Gears.Composite

/-!
# The loops of `CompositeActiveObject`

One specification for each loop over the children: which children it has called, what
the calls have done to them, and when it throws.
-/

namespace LiteMQ

namespace World

variable {C : Type*} [DecidableEq C]

/-- A call of `deactivate_object` leaves no object active that was not, and the one that
it is made of only when it throws. -/
theorem deactivateObject_spec (w : World C) (c : C) (fails : Bool) :
    ∃ v, w.deactivateObject c fails = (v, fails) ∧
      (∀ c', v.objects c' = .active ↔
        w.objects c' = .active ∧ (c = c' → fails = true)) ∧
      v.calls = w.calls ++ [⟨.deactivate, c, fails⟩] := by
  unfold deactivateObject
  cases fails with
  | true => exact ⟨_, rfl, by simp, rfl⟩
  | false =>
      refine ⟨_, rfl, fun c' => ?_, rfl⟩
      by_cases hc : c' = c
      · subst hc
        by_cases hactive : w.objects c' = .active <;> simp [hactive]
      · by_cases hactive : w.objects c = .active <;> simp [hactive, hc, Ne.symm hc]

/-- A wait for an object that is not active returns or throws, and activates or
deactivates none. -/
theorem waitObject_spec {w : World C} {c : C} (fails : Bool) (hquiet : w.objects c ≠ .active) :
    ∃ v, w.waitObject c fails = some (v, fails) ∧
      (∀ c', v.objects c' = .active ↔ w.objects c' = .active) ∧
      v.calls = w.calls ++ [⟨.wait, c, fails⟩] := by
  unfold waitObject
  cases fails with
  | true => exact ⟨_, rfl, fun _ => Iff.rfl, rfl⟩
  | false =>
      rw [if_neg (by simp), if_neg hquiet]
      refine ⟨_, rfl, fun c' => ?_, rfl⟩
      by_cases hc : c' = c
      · subst hc
        simp [hquiet]
      · simp [hc]

end World

variable {C : Type*} [DecidableEq C]

/-- These children start: each is at rest when its turn comes, and none fails. -/
def Activates (objects : C → ActiveState) (children : List (Called C)) : Prop :=
  (children.map Called.object).Nodup ∧
    ∀ child ∈ children, child.fails.activate = false ∧ objects child.object = .notActive

instance (objects : C → ActiveState) (children : List (Called C)) :
    Decidable (Activates objects children) :=
  inferInstanceAs (Decidable (_ ∧ _))

/-- The first child starts, and the others do in the state that it leaves. -/
theorem activates_cons {objects : C → ActiveState} {child : Called C} {rest : List (Called C)} :
    Activates objects (child :: rest) ↔
      child.fails.activate = false ∧ objects child.object = .notActive ∧
        Activates (Function.update objects child.object .active) rest := by
  have hother : ∀ other : Called C,
      Function.update objects child.object .active other.object = .notActive ↔
        other.object ≠ child.object ∧ objects other.object = .notActive := by
    intro other
    by_cases heq : other.object = child.object
    · simp [heq]
    · simp [heq]
  simp only [Activates, List.map_cons, List.nodup_cons, List.forall_mem_cons, List.mem_map,
    not_exists, not_and, hother]
  constructor
  · rintro ⟨⟨hnew, hnodup⟩, ⟨hfails, hrest⟩, hall⟩
    exact ⟨hfails, hrest, hnodup, fun other hmem =>
      ⟨(hall other hmem).1, hnew other hmem, (hall other hmem).2⟩⟩
  · rintro ⟨hfails, hrest, hnodup, hall⟩
    exact ⟨⟨fun other hmem => (hall other hmem).2.1, hnodup⟩, ⟨hfails, hrest⟩,
      fun other hmem => ⟨(hall other hmem).1, (hall other hmem).2.2⟩⟩

omit [DecidableEq C] in
@[simp] theorem activates_nil (objects : C → ActiveState) : Activates objects [] := by
  simp [Activates]

/-- What the loop of `activate_object_` has done when it stops: it activated `done`, and
if it stopped early, at the first child that does not start. -/
structure Activation (children done : List (Called C)) (w v : World C) (threw : Bool) :
    Prop where
  activates : Activates w.objects done
  all : threw = false → done = children
  stopped : threw = true → ∃ failing rest, children = done ++ failing :: rest ∧
    ¬ Activates w.objects (done ++ [failing])
  objects : ∀ c, v.objects c = if c ∈ done.map Called.object then .active else w.objects c
  activated : activated v.calls = activated w.calls ++ done.map Called.object
  failed : ∃ failing, activateFailed v.calls = activateFailed w.calls ++ failing ∧
    (threw = true ↔ failing ≠ [])
  deactivateCalls : deactivateCalls v.calls = deactivateCalls w.calls
  waitCalls : waitCalls v.calls = waitCalls w.calls
  calls : w.calls <+: v.calls

theorem activateLoop_spec {children done : List (Called C)} {w v : World C} {threw : Bool}
    (h : activateLoop children w = (done, v, threw)) : Activation children done w v threw := by
  induction children generalizing w done with
  | nil =>
      obtain ⟨rfl, rfl, rfl⟩ : [] = done ∧ w = v ∧ false = threw := by
        simpa [activateLoop] using h
      constructor <;> simp
  | cons child rest ih =>
      by_cases hfails : child.fails.activate || w.objects child.object ≠ .notActive
      · -- the child throws, and the loop ends with its call
        obtain ⟨rfl, rfl, rfl⟩ : [] = done ∧
            { w with calls := w.calls ++ [⟨.activate, child.object, true⟩] } = v ∧
            true = threw := by
          simpa only [activateLoop, World.activateObject, if_pos hfails, if_true,
            Prod.mk.injEq] using h
        have hnot : ¬ Activates w.objects [child] := by
          intro hactivates
          have hstarts := hactivates.2 child (List.mem_singleton_self _)
          simp [hstarts.1, hstarts.2] at hfails
        constructor
        · exact activates_nil _
        · simp
        · exact fun _ => ⟨child, rest, rfl, hnot⟩
        · simp
        · simp [LiteMQ.activated]
        · exact ⟨[child.object], by simp [activateFailed], by simp⟩
        · simp [LiteMQ.deactivateCalls]
        · simp [LiteMQ.waitCalls]
        · exact List.prefix_append _ _
      · obtain ⟨hstarts, hrest⟩ : child.fails.activate = false ∧
            w.objects child.object = .notActive := by
          simpa using hfails
        rcases hloop : activateLoop rest ⟨Function.update w.objects child.object .active,
          w.calls ++ [⟨.activate, child.object, false⟩]⟩ with ⟨done', v', threw'⟩
        obtain ⟨rfl, rfl, rfl⟩ : child :: done' = done ∧ v' = v ∧ threw' = threw := by
          simpa only [activateLoop, World.activateObject, if_neg hfails, Bool.false_eq_true,
            if_false, hloop, Prod.mk.injEq] using h
        have hnext := ih hloop
        -- each field is that of the rest, with this child in front
        constructor
        · exact activates_cons.mpr ⟨hstarts, hrest, hnext.activates⟩
        · intro hthrew
          rw [hnext.all hthrew]
        · intro hthrew
          obtain ⟨failing, behind, heq, hnot⟩ := hnext.stopped hthrew
          refine ⟨failing, behind, congrArg (child :: ·) heq, ?_⟩
          intro hactivates
          exact hnot (activates_cons.mp hactivates).2.2
        · intro c
          rw [hnext.objects c]
          by_cases hc : c = child.object
          · simp [hc]
          · simp [hc]
        · rw [hnext.activated]
          simp [LiteMQ.activated]
        · obtain ⟨failing, hfailed, hthrew⟩ := hnext.failed
          refine ⟨failing, ?_, hthrew⟩
          rw [hfailed]
          simp [activateFailed]
        · rw [hnext.deactivateCalls]
          simp [LiteMQ.deactivateCalls]
        · rw [hnext.waitCalls]
          simp [LiteMQ.waitCalls]
        · exact (List.prefix_append _ _).trans hnext.calls

/-- A turn of the loop of `deactivate_object_` throws for this child. -/
def Called.throws (sync : Bool) (child : Called C) : Bool :=
  child.fails.deactivate || (sync && child.fails.syncWait)

/-- What the loop of `deactivate_object_` has done at its end.  It goes through all
children whatever they throw. -/
structure Deactivation (sync : Bool) (children : List (Called C)) (w v : World C) : Prop where
  active : ∀ c, v.objects c = .active ↔ w.objects c = .active ∧
    ∀ child ∈ children, child.object = c → child.fails.deactivate = true
  activated : activated v.calls = activated w.calls
  failed : activateFailed v.calls = activateFailed w.calls
  deactivateCalls : deactivateCalls v.calls =
    deactivateCalls w.calls ++ children.map Called.object
  waitCalls : waitCalls v.calls = waitCalls w.calls ++
    if sync then (children.filter fun child => ¬ child.fails.deactivate).map Called.object else []
  calls : w.calls <+: v.calls

/-- One turn of the loop: the wait for a child that was just deactivated does not
block. -/
theorem deactivateChild_spec (sync : Bool) (child : Called C) (w : World C) :
    ∃ v, deactivateChild sync child w = some (v, child.throws sync) ∧
      Deactivation sync [child] w v := by
  obtain ⟨v, hcall, hactive, hcalls⟩ := w.deactivateObject_spec child.object child.fails.deactivate
  unfold deactivateChild Called.throws
  rw [hcall]
  by_cases hwait : sync = true ∧ child.fails.deactivate = false
  · obtain ⟨hsync, hfails⟩ := hwait
    have hquiet : v.objects child.object ≠ .active := by
      simp [hactive, hfails]
    obtain ⟨u, hwaited, hsame, hmore⟩ := v.waitObject_spec child.fails.syncWait hquiet
    refine ⟨u, by simp [hsync, hfails, hwaited], ?_⟩
    constructor
    · intro c
      rw [hsame c, hactive c]
      simp [hfails]
    all_goals rw [hmore, hcalls]
    · simp [LiteMQ.activated]
    · simp [activateFailed]
    · simp [LiteMQ.deactivateCalls]
    · simp [LiteMQ.waitCalls, hsync, hfails]
    · simp
  · have hnone : sync = false ∨ child.fails.deactivate = true := by
      cases sync
      · exact Or.inl rfl
      · exact Or.inr (by simpa using hwait)
    refine ⟨v, by rcases hnone with h | h <;> simp [h], ?_⟩
    constructor
    · intro c
      rw [hactive c]
      simp
    all_goals rw [hcalls]
    · simp [LiteMQ.activated]
    · simp [activateFailed]
    · simp [LiteMQ.deactivateCalls]
    · rcases hnone with h | h <;> simp [h, LiteMQ.waitCalls]
    · exact List.prefix_append _ _

omit [DecidableEq C] in
/-- The loops over two parts, one after the other. -/
theorem Deactivation.append {sync : Bool} {children children' : List (Called C)}
    {w v u : World C} (h : Deactivation sync children w v)
    (h' : Deactivation sync children' v u) : Deactivation sync (children ++ children') w u := by
  constructor
  · intro c
    rw [h'.active c, h.active c, and_assoc]
    simp [or_imp, forall_and]
  · rw [h'.activated, h.activated]
  · rw [h'.failed, h.failed]
  · rw [h'.deactivateCalls, h.deactivateCalls]
    simp
  · rw [h'.waitCalls, h.waitCalls]
    cases sync <;> simp
  · exact h.calls.trans h'.calls

/-- The loop of `deactivate_object_` goes through all children without blocking, and
throws when one of its turns did. -/
theorem deactivateChildren_spec (sync : Bool) (children : List (Called C)) (w : World C) :
    ∃ v, deactivateChildren sync children w = some (v, children.any (Called.throws sync)) ∧
      Deactivation sync children w v := by
  induction children generalizing w with
  | nil =>
      refine ⟨w, rfl, ?_⟩
      constructor <;> simp
  | cons child rest ih =>
      obtain ⟨v, hfirst, hchild⟩ := deactivateChild_spec sync child w
      obtain ⟨u, hrest, hothers⟩ := ih v
      refine ⟨u, ?_, hchild.append hothers⟩
      simp [deactivateChildren, hfirst, hrest]

/-- What the waits for children that are not active have done.  Each of them was called,
whatever they threw. -/
structure Waited (children : List (Called C)) (w v : World C) : Prop where
  active : ∀ c, v.objects c = .active ↔ w.objects c = .active
  activated : activated v.calls = activated w.calls
  failed : activateFailed v.calls = activateFailed w.calls
  deactivateCalls : deactivateCalls v.calls = deactivateCalls w.calls
  waitCalls : waitCalls v.calls = waitCalls w.calls ++ children.map Called.object
  calls : w.calls <+: v.calls

theorem waitForSomeObjects_spec {children : List (Called C)} {w : World C}
    (hquiet : ∀ child ∈ children, w.objects child.object ≠ .active) :
    ∃ v, waitForSomeObjects children w = some (v, children.any fun child => child.fails.wait) ∧
      Waited children w v := by
  induction children generalizing w with
  | nil =>
      refine ⟨w, rfl, ?_⟩
      constructor <;> simp
  | cons child rest ih =>
      obtain ⟨hchild, hothers⟩ := List.forall_mem_cons.mp hquiet
      obtain ⟨v, hfirst, hsame, hcalls⟩ := w.waitObject_spec child.fails.wait hchild
      have hstill : ∀ other ∈ rest, v.objects other.object ≠ .active := by
        intro other hmem
        rw [Ne, hsame]
        exact hothers other hmem
      obtain ⟨u, hrest, hwaited⟩ := ih hstill
      have hwaitedCalls := hwaited.calls
      refine ⟨u, by simp [waitForSomeObjects, hfirst, hrest], ?_⟩
      constructor
      · intro c
        rw [hwaited.active, hsame]
      · rw [hwaited.activated, hcalls]
        simp [LiteMQ.activated]
      · rw [hwaited.failed, hcalls]
        simp [activateFailed]
      · rw [hwaited.deactivateCalls, hcalls]
        simp [LiteMQ.deactivateCalls]
      · rw [hwaited.waitCalls, hcalls]
        simp [LiteMQ.waitCalls]
      · rw [hcalls] at hwaitedCalls
        exact (List.prefix_append _ _).trans hwaitedCalls

/-- What the deactivation of the children and the waits for them have done, as
`clear_children` and the roll back of `activate_object_` make them.  The waits are left
out when the deactivation has thrown, except those that `SYNCHRONOUS_` made. -/
structure Stopped (sync : Bool) (children : List (Called C)) (w v : World C) : Prop where
  active : ∀ c, v.objects c = .active ↔ w.objects c = .active ∧
    ∀ child ∈ children, child.object = c → child.fails.deactivate = true
  activated : activated v.calls = activated w.calls
  failed : activateFailed v.calls = activateFailed w.calls
  deactivateCalls : deactivateCalls v.calls =
    deactivateCalls w.calls ++ children.map Called.object
  waitCalls : waitCalls v.calls = waitCalls w.calls ++
    ((if sync then (children.filter fun child => ¬ child.fails.deactivate).map Called.object
      else []) ++
    if children.any (Called.throws sync) then [] else children.map Called.object)
  calls : w.calls <+: v.calls

theorem deactivateAndWait_spec (sync : Bool) (children : List (Called C)) (w : World C) :
    ∃ v, deactivateAndWait sync children w =
        some (v, children.any (Called.throws sync) || children.any fun child => child.fails.wait) ∧
      Stopped sync children w v := by
  obtain ⟨v, hloop, h⟩ := deactivateChildren_spec sync children w
  unfold deactivateAndWait
  rw [hloop]
  by_cases hthrows : children.any (Called.throws sync)
  · refine ⟨v, by simp [hthrows], h.active, h.activated, h.failed, h.deactivateCalls, ?_, h.calls⟩
    rw [if_pos hthrows, List.append_nil]
    exact h.waitCalls
  · have hquiet : ∀ child ∈ children, v.objects child.object ≠ .active := by
      intro child hmem hactive
      have hfails := ((h.active child.object).mp hactive).2 child hmem rfl
      apply hthrows
      exact List.any_eq_true.mpr ⟨child, hmem, by simp [Called.throws, hfails]⟩
    obtain ⟨u, hwaits, hwaited⟩ := waitForSomeObjects_spec hquiet
    refine ⟨u, by simp [hthrows, hwaits], ?_⟩
    constructor
    · intro c
      rw [hwaited.active, h.active]
    · rw [hwaited.activated, h.activated]
    · rw [hwaited.failed, h.failed]
    · rw [hwaited.deactivateCalls, h.deactivateCalls]
    · rw [hwaited.waitCalls, h.waitCalls, if_neg hthrows, List.append_assoc]
    · exact h.calls.trans hwaited.calls

/-- The composite is activated with all its children, or with none: the first child that
does not start has it take back those before it. -/
theorem Composite.activateObject_cases (sync : Bool) (fails : Nat → ChildFails) {s : Composite C}
    (hstate : s.state = .notActive) :
    (∃ w, s.activateObject sync fails = some ({ s with state := .active, world := w }, false) ∧
      Activation (called fails s.childObjects) (called fails s.childObjects) s.world w false) ∨
    ∃ done failing rest w v, called fails s.childObjects = done ++ failing :: rest ∧
      ¬ Activates s.world.objects (done ++ [failing]) ∧
      s.activateObject sync fails = some ({ s with state := .notActive, world := v }, true) ∧
      Activation (called fails s.childObjects) done s.world w true ∧
      Stopped sync done.reverse w v := by
  rcases hloop : activateLoop (called fails s.childObjects) s.world with ⟨done, w, threw⟩
  have h := activateLoop_spec hloop
  cases threw with
  | false =>
      obtain rfl := h.all rfl
      refine Or.inl ⟨w, ?_, h⟩
      simp [activateObject, activateObject_, hstate, hloop]
  | true =>
      obtain ⟨failing, rest, heq, hnot⟩ := h.stopped rfl
      obtain ⟨v, hback, hv⟩ := deactivateAndWait_spec sync done.reverse w
      refine Or.inr ⟨done, failing, rest, w, v, heq, hnot, ?_, h, hv⟩
      simp [activateObject, activateObject_, hstate, hloop, hback]

end LiteMQ
