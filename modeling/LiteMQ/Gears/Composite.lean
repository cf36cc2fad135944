import LiteMQ.Gears.ActiveObject
import Mathlib.Data.List.Basic

/-!
# `Gears::CompositeActiveObject`

The composite is a `SimpleActiveObject` that passes each change of its state on to
its children.  A call of the composite here is a whole call.  Which of the child
calls it makes fail is an argument: `fails i` is about the child at place `i` of
`child_objects_`.

The loops over the children collect what is thrown and throw once, at their end,
except that of `activate_object_`, which stops at the first child that throws and
takes back those before it.
-/

namespace LiteMQ

/-- The calls of one child that throw during a call of the composite.  `syncWait` is
the `wait_object` that follows `deactivate_object` directly when `SYNCHRONOUS_` is
set. -/
structure ChildFails where
  activate : Bool
  active : Bool
  deactivate : Bool
  syncWait : Bool
  wait : Bool
  deriving DecidableEq, Repr

/-- A child together with the calls of it that throw. -/
structure Called (C : Type*) where
  object : C
  fails : ChildFails
  deriving DecidableEq

/-- The children with the calls that throw at their places. -/
def called {C : Type*} (fails : Nat → ChildFails) (childObjects : List C) : List (Called C) :=
  childObjects.zipIdx.map fun (c, i) => ⟨c, fails i⟩

@[simp] theorem called_map_object {C : Type*} (fails : Nat → ChildFails) (childObjects : List C) :
    (called fails childObjects).map Called.object = childObjects := by
  rw [called, List.map_map]
  exact List.zipIdx_map_fst 0 childObjects

variable {C : Type*} [DecidableEq C]

/-- The loop of `activate_object_`: the children that were activated, and whether the
child behind them threw. -/
def activateLoop : List (Called C) → World C → List (Called C) × World C × Bool
  | [], w => ([], w, false)
  | child :: rest, w =>
      let (w, threw) := w.activateObject child.object child.fails.activate
      if threw then ([], w, true)
      else
        let (done, w, threw) := activateLoop rest w
        (child :: done, w, threw)

/-- One turn of the loop of `deactivate_object_`. -/
def deactivateChild (sync : Bool) (child : Called C) (w : World C) : Option (World C × Bool) :=
  let (w, threw) := w.deactivateObject child.object child.fails.deactivate
  if sync && !threw then w.waitObject child.object child.fails.syncWait else some (w, threw)

/-- `deactivate_object_(rit)` over these children, and whether it throws. -/
def deactivateChildren (sync : Bool) : List (Called C) → World C → Option (World C × Bool)
  | [], w => some (w, false)
  | child :: rest, w =>
      (deactivateChild sync child w).bind fun (w, threw) =>
        (deactivateChildren sync rest w).map fun (w, threwLater) => (w, threw || threwLater)

/-- `wait_for_some_objects_` over these children, and whether it throws. -/
def waitForSomeObjects : List (Called C) → World C → Option (World C × Bool)
  | [], w => some (w, false)
  | child :: rest, w =>
      (w.waitObject child.object child.fails.wait).bind fun (w, threw) =>
        (waitForSomeObjects rest w).map fun (w, threwLater) => (w, threw || threwLater)

/-- The deactivation of the children, and when it did not throw the waits for them, as
one `try` block. -/
def deactivateAndWait (sync : Bool) (children : List (Called C)) (w : World C) :
    Option (World C × Bool) :=
  (deactivateChildren sync children w).bind fun (w, threw) =>
    if threw then some (w, true) else waitForSomeObjects children w

/-- A `CompositeActiveObject`, with the objects of the program. -/
structure Composite (C : Type*) where
  state : ActiveState
  childObjects : List C
  world : World C

namespace Composite

/-- `activate_object_`: a child that throws makes it take the others back. -/
def activateObject_ (sync : Bool) (fails : Nat → ChildFails) (s : Composite C) :
    Option (Composite C × Bool) :=
  let (done, w, threw) := activateLoop (called fails s.childObjects) s.world
  if threw then
    -- what the roll back throws only adds to the text of the exception
    (deactivateAndWait sync done.reverse w).map fun (w, _) =>
      ({ s with state := .notActive, world := w }, true)
  else some ({ s with world := w }, false)

/-- `SimpleActiveObject::activate_object`. -/
def activateObject (sync : Bool) (fails : Nat → ChildFails) (s : Composite C) :
    Option (Composite C × Bool) :=
  if s.state = .notActive then
    (s.activateObject_ sync fails).map fun (t, threw) =>
      (if threw then t else { t with state := .active }, threw)
  else some (s, true)

/-- `SimpleActiveObject::deactivate_object`. -/
def deactivateObject (sync : Bool) (fails : Nat → ChildFails) (s : Composite C) :
    Option (Composite C × Bool) :=
  if s.state = .active then
    (deactivateChildren sync (called fails s.childObjects).reverse s.world).map fun (w, threw) =>
      ({ s with state := if threw then .active else .deactivating, world := w }, threw)
  else some (s, false)

/-- `SimpleActiveObject::wait_object`; `none` when it blocks. -/
def waitObject (fails : Nat → ChildFails) (s : Composite C) : Option (Composite C × Bool) :=
  if s.state = .active then none
  else
    (waitForSomeObjects (called fails s.childObjects).reverse s.world).map fun (w, threw) =>
      -- AS_NOT_ACTIVE stays, AS_DEACTIVATING becomes it
      ({ s with state := if threw then s.state else .notActive, world := w }, threw)

/-- `add_child_object` up to the insertion: the call of the child that the state of the
composite asks for. -/
def adopt (c : C) (fails : ChildFails) (s : Composite C) : Option (World C × Bool) :=
  if fails.active then some (s.world, true)
  else if s.state = .active then
    if s.world.objects c = .active then some (s.world, false)
    else some (s.world.activateObject c fails.activate)
  else if s.world.objects c = .active then
    let (w, threw) := s.world.deactivateObject c fails.deactivate
    if threw then some (w, true) else w.waitObject c fails.wait
  else some (s.world, false)

/-- `add_child_object`. -/
def addChildObject (c : C) (addToHead : Bool) (fails : ChildFails) (s : Composite C) :
    Option (Composite C × Bool) :=
  (s.adopt c fails).map fun (w, threw) =>
    if threw then ({ s with world := w }, true)
    else
      ({ s with
          childObjects := if addToHead then c :: s.childObjects else s.childObjects ++ [c]
          world := w }, false)

/-- `clear_children`. -/
def clearChildren (sync : Bool) (fails : Nat → ChildFails) (s : Composite C) :
    Option (Composite C × Bool) :=
  if s.state = .notActive then some ({ s with childObjects := [] }, false)
  else
    (deactivateAndWait sync (called fails s.childObjects).reverse s.world).map fun (w, threw) =>
      if threw then ({ s with world := w }, true)
      else (⟨.notActive, [], w⟩, false)

end Composite

end LiteMQ
