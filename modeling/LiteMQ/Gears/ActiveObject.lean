import Mathlib.Data.Option.Basic
import Mathlib.Logic.Function.Basic

/-!
# Active objects as their holder sees them

An `ActiveObject` is active, deactivating or not active, and its holder calls
`activate_object`, `deactivate_object`, `wait_object` and `active`.  Each call may
throw, and then leaves the object as it was: this is how `SimpleActiveObject` and
`ActiveObjectCommonImpl` behave.  Whether a call fails for a reason of its own is an
argument here; `activate_object` also throws when the object is not at rest, and
`wait_object` blocks while the object is active.

`World` holds the states of all objects and the log of the calls that were made.
-/

namespace LiteMQ

/-- `ActiveObject::ACTIVE_STATE`. -/
inductive ActiveState
  | active
  | deactivating
  | notActive
  deriving DecidableEq, Repr

/-- The member functions of an `ActiveObject` that change its state. -/
inductive Operation
  | activate
  | deactivate
  | wait
  deriving DecidableEq, Repr

/-- A finished call of a member function of `object`. -/
structure Call (C : Type*) where
  operation : Operation
  object : C
  threw : Bool
  deriving DecidableEq

/-- The objects, and the calls that were made of them, oldest first. -/
structure World (C : Type*) where
  objects : C → ActiveState
  calls : List (Call C)

namespace World

variable {C : Type*} [DecidableEq C]

/-- `c->activate_object()`, and whether it threw. -/
def activateObject (w : World C) (c : C) (fails : Bool) : World C × Bool :=
  if fails || w.objects c ≠ .notActive then
    ({ w with calls := w.calls ++ [⟨.activate, c, true⟩] }, true)
  else
    (⟨Function.update w.objects c .active, w.calls ++ [⟨.activate, c, false⟩]⟩, false)

/-- `c->deactivate_object()`, and whether it threw. -/
def deactivateObject (w : World C) (c : C) (fails : Bool) : World C × Bool :=
  if fails then ({ w with calls := w.calls ++ [⟨.deactivate, c, true⟩] }, true)
  else
    (⟨if w.objects c = .active then Function.update w.objects c .deactivating else w.objects,
      w.calls ++ [⟨.deactivate, c, false⟩]⟩, false)

/-- `c->wait_object()`, and whether it threw; `none` when it blocks. -/
def waitObject (w : World C) (c : C) (fails : Bool) : Option (World C × Bool) :=
  if fails then some ({ w with calls := w.calls ++ [⟨.wait, c, true⟩] }, true)
  else if w.objects c = .active then none
  else some (⟨Function.update w.objects c .notActive, w.calls ++ [⟨.wait, c, false⟩]⟩, false)

end World

variable {C : Type*}

/-- The objects that were activated, in the order of the calls. -/
def activated (calls : List (Call C)) : List C :=
  (calls.filter fun call => call.operation = .activate ∧ ¬ call.threw).map Call.object

/-- The objects whose `activate_object` threw, in the order of the calls. -/
def activateFailed (calls : List (Call C)) : List C :=
  (calls.filter fun call => call.operation = .activate ∧ call.threw).map Call.object

/-- The objects whose `deactivate_object` was called, in the order of the calls. -/
def deactivateCalls (calls : List (Call C)) : List C :=
  (calls.filter fun call => call.operation = .deactivate).map Call.object

/-- The objects whose `wait_object` was called, in the order of the calls. -/
def waitCalls (calls : List (Call C)) : List C :=
  (calls.filter fun call => call.operation = .wait).map Call.object

@[simp] theorem activated_append (calls calls' : List (Call C)) :
    activated (calls ++ calls') = activated calls ++ activated calls' := by
  simp [activated]

@[simp] theorem activateFailed_append (calls calls' : List (Call C)) :
    activateFailed (calls ++ calls') = activateFailed calls ++ activateFailed calls' := by
  simp [activateFailed]

@[simp] theorem deactivateCalls_append (calls calls' : List (Call C)) :
    deactivateCalls (calls ++ calls') = deactivateCalls calls ++ deactivateCalls calls' := by
  simp [deactivateCalls]

@[simp] theorem waitCalls_append (calls calls' : List (Call C)) :
    waitCalls (calls ++ calls') = waitCalls calls ++ waitCalls calls' := by
  simp [waitCalls]

end LiteMQ
