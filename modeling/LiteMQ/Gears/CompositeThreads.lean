import LiteMQ.Foundation.TransitionSystem
import LiteMQ.Gears.ActiveObject

/-!
# Several threads that call one `CompositeActiveObject`

The composite has its children, and no call of a child fails for a reason of its own.
Threads call `activate_object`, `deactivate_object` and `wait_object`.  A step is a
block under `cond_` or a call of a child.  The calls of `activate_object_` and
`deactivate_object_` are made under the lock, so a thread keeps it from one step to the
next there.  `wait_object` takes the lock three times and waits for its copy of the
children without it.

`cycle` counts the times that a thread has begun to activate the children.  A waiter
notes the count when it copies them; the program has neither.
-/

namespace LiteMQ
namespace CompositeThreads

/-- Where a thread stands: what it does next. -/
inductive Pc (C : Type*)
  /-- in no call of the composite -/
  | idle
  /-- the loop of `activate_object_`, behind `done` and before `rest` -/
  | activating (done rest : List C)
  /-- the loop of `deactivate_object_` before `rest`.  `undo` is set in the roll back: the
  children to wait for when the loop is done -/
  | stopping (rest : List C) (undo : Option (List C))
  /-- the `wait_object` that `SYNCHRONOUS_` puts into this loop -/
  | syncWait (c : C) (rest : List C) (undo : Option (List C))
  /-- `wait_for_some_objects_` in the roll back -/
  | undoWaiting (rest : List C)
  /-- the first block of `wait_object` -/
  | waitBegin
  /-- the block of `wait_object_` that copies `child_objects_` -/
  | copying
  /-- `wait_for_some_objects_` over the copy, then the last block of `wait_object` -/
  | waiting (cycle : Nat) (rest : List C)
  deriving DecidableEq

/-- The thread is in a block under `cond_` and has calls of children to make there. -/
def Pc.holdsLock {C : Type*} : Pc C → Bool
  | .activating _ _ | .stopping _ _ | .syncWait _ _ _ | .undoWaiting _ => true
  | .idle | .waitBegin | .copying | .waiting _ _ => false

/-- The thread is in `activate_object`. -/
def Pc.inActivate {C : Type*} : Pc C → Bool
  | .activating _ _ | .stopping _ (some _) | .syncWait _ _ (some _) | .undoWaiting _ => true
  | _ => false

/-- The composite, its lock, the objects and the threads. -/
structure State (T C : Type*) where
  state : ActiveState
  lock : Option T
  world : World C
  pcs : T → Pc C
  cycle : Nat

/-- A thread calls a member function, or goes on in the call that it is in. -/
inductive Action (T : Type*)
  | activate (t : T)
  | deactivate (t : T)
  | wait (t : T)
  | next (t : T)
  deriving DecidableEq, Repr

variable {T C : Type*} [DecidableEq T] [DecidableEq C]

/-- The thread `t` goes on. -/
def next (sync : Bool) (childObjects : List C) (s : State T C) (t : T) : Option (State T C) :=
  match s.pcs t with
  | .idle => none
  | .activating done (c :: rest) =>
      let (w, threw) := s.world.activateObject c false
      if threw then
        some { s with
          state := .deactivating
          world := w
          pcs := Function.update s.pcs t (.stopping done.reverse (some done.reverse)) }
      else
        some { s with
          world := w
          pcs := Function.update s.pcs t (.activating (done ++ [c]) rest) }
  | .activating _ [] =>
      some { s with state := .active, lock := none, pcs := Function.update s.pcs t .idle }
  | .stopping (c :: rest) undo =>
      some { s with
        world := (s.world.deactivateObject c false).1
        pcs := Function.update s.pcs t
          (if sync then .syncWait c rest undo else .stopping rest undo) }
  | .stopping [] (some undone) =>
      some { s with pcs := Function.update s.pcs t (.undoWaiting undone) }
  | .stopping [] none => some { s with lock := none, pcs := Function.update s.pcs t .idle }
  | .syncWait c rest undo =>
      (s.world.waitObject c false).map fun (w, _) =>
        { s with world := w, pcs := Function.update s.pcs t (.stopping rest undo) }
  | .undoWaiting (c :: rest) =>
      (s.world.waitObject c false).map fun (w, _) =>
        { s with world := w, pcs := Function.update s.pcs t (.undoWaiting rest) }
  | .undoWaiting [] =>
      some { s with state := .notActive, lock := none, pcs := Function.update s.pcs t .idle }
  | .waitBegin =>
      -- the broadcast of `deactivate_object` wakes all that wait here
      if s.lock = none ∧ s.state ≠ .active then
        some { s with pcs := Function.update s.pcs t .copying }
      else none
  | .copying =>
      if s.lock = none then
        some { s with pcs := Function.update s.pcs t (.waiting s.cycle childObjects.reverse) }
      else none
  | .waiting cycle (c :: rest) =>
      (s.world.waitObject c false).map fun (w, _) =>
        { s with world := w, pcs := Function.update s.pcs t (.waiting cycle rest) }
  | .waiting _ [] =>
      if s.lock = none then
        some { s with
          state := if s.state = .deactivating then .notActive else s.state
          pcs := Function.update s.pcs t .idle }
      else none

/-- One step of one of the threads. -/
def step (sync : Bool) (childObjects : List C) (s : State T C) : Action T → Option (State T C)
  | .activate t =>
      if s.pcs t = .idle ∧ s.lock = none then
        if s.state = .notActive then
          some { s with
            lock := some t
            pcs := Function.update s.pcs t (.activating [] childObjects)
            cycle := s.cycle + 1 }
        else some s
      else none
  | .deactivate t =>
      if s.pcs t = .idle ∧ s.lock = none then
        if s.state = .active then
          some { s with
            state := .deactivating
            lock := some t
            pcs := Function.update s.pcs t (.stopping childObjects.reverse none) }
        else some s
      else none
  | .wait t =>
      if s.pcs t = .idle then some { s with pcs := Function.update s.pcs t .waitBegin } else none
  | .next t => next sync childObjects s t

/-- The composite with its children at rest. -/
def system (T : Type*) [DecidableEq T] (sync : Bool) (childObjects : List C) :
    TransitionSystem (State T C) (Action T) :=
  ⟨⟨.notActive, none, ⟨fun _ => .notActive, []⟩, fun _ => .idle, 0⟩, step sync childObjects⟩

/-- When the composite is `AS_NOT_ACTIVE` and nobody is in `activate_object`, the
children are at rest. -/
def Stopped (childObjects : List C) (s : State T C) : Prop :=
  s.state = .notActive → (∀ t, ¬ (s.pcs t).inActivate) →
    ∀ c ∈ childObjects, s.world.objects c = .notActive

/-- The thread comes to the last block of `wait_object` with a copy of the children that is
older than this life cycle. -/
def Pc.late {C : Type*} (cycle : Nat) : Pc C → Bool
  | .waiting copied [] => copied ≠ cycle
  | _ => false

/-- A waiter that makes the composite `AS_NOT_ACTIVE` has copied the children in the life
cycle that it ends: nobody has begun to activate them since. -/
def OwnCycle (s : State T C) : Action T → Prop
  | .next t => s.state = .deactivating → (s.pcs t).late s.cycle = false
  | .activate _ | .deactivate _ | .wait _ => True

instance (s : State T C) : ∀ a, Decidable (OwnCycle s a)
  | .next t => inferInstanceAs (Decidable (s.state = .deactivating → (s.pcs t).late s.cycle = false))
  | .activate _ | .deactivate _ | .wait _ => inferInstanceAs (Decidable True)

end CompositeThreads
end LiteMQ
