import LiteMQ.Foundation.TransitionSystem
import Mathlib.Data.List.Basic
import Mathlib.Logic.Function.Basic

/-!
# `Proxy` of `DescriptorHandlerPoller` and of `DescriptorHandlerPollerPool`

A proxy has a raw pointer `owner_` to its poller or pool, under `lock_`.
`Proxy::add` makes a shared pointer of it in `lock_owner_`, calls `add` of the owner
through that, and lets it go.  The two proxies are the same code.

The owner is destroyed by whoever releases the last shared pointer to it.  The
destructor of `DescriptorHandlerPoller` begins with `proxy_->detach_()`, that of
`DescriptorHandlerPollerPool` is defaulted.
-/

namespace LiteMQ
namespace Proxy

/-- The class of the owner. -/
inductive Owner
  | poller
  | pool
  deriving DecidableEq, Repr

/-- Whether the destructor calls `proxy_->detach_()`. -/
def Owner.detaches : Owner → Bool
  | .poller => true
  | .pool => false

/-- How far the life of the owner is. -/
inductive Phase
  /-- it has references -/
  | alive
  /-- the last reference was released, and the destructor has yet to begin -/
  | released
  /-- the destructor is behind `detach_()` -/
  | detached
  /-- it is destroyed -/
  | gone
  deriving DecidableEq, Repr

/-- What a use of an owner that is not alive comes to. -/
inductive Misuse
  /-- `shared_from_this()` throws `bad_weak_ptr` out of a `throw()` function -/
  | badWeakPtr
  /-- a member function of a destroyed object is called -/
  | dangling
  deriving DecidableEq, Repr

/-- Where a thread stands in `Proxy::add`. -/
inductive Pc
  | idle
  /-- in `lock_owner_`, with `lock_` -/
  | locked
  /-- at the end of `lock_owner_`, which returns a pointer or an empty one -/
  | unlocking (found : Bool)
  /-- in `owner->add(desc_handler)` -/
  | adding
  /-- at the end of the life of the local pointer `owner` -/
  | releasing (threw : Bool)
  /-- `Proxy::add` has returned this -/
  | returned (result : Bool)
  /-- `Proxy::add` has passed on an exception of the owner -/
  | threw
  deriving DecidableEq, Repr

/-- The thread has a local shared pointer to the owner. -/
def Pc.holds : Pc → Bool
  | .unlocking true | .adding | .releasing _ => true
  | .idle | .locked | .unlocking false | .returned _ | .threw => false

/-- A proxy and its owner.  `owner` is whether `owner_` is set, `readers` are the threads
that hold `lock_`, `external` counts the references other than those in `holders`, the
local ones of the threads. -/
structure State (T : Type*) where
  owner : Bool
  phase : Phase
  external : Nat
  holders : List T
  readers : List T
  pcs : T → Pc
  misuse : Option Misuse

/-- `use_count()` of the owner. -/
def State.useCount {T : Type*} (s : State T) : Nat := s.external + s.holders.length

/-- A thread calls `Proxy::add` or goes on in it (`fails` is whether `add` of the owner
throws); a reference is copied or released; the destructor goes on. -/
inductive Action (T : Type*)
  | add (t : T)
  | next (t : T) (fails : Bool)
  | copy
  | release
  | detach
  | destroy
  deriving DecidableEq, Repr

variable {T : Type*} [DecidableEq T]

/-- `owner_ ? owner_->get_ptr() : DescriptorHandlerPoller_var()`. -/
def lockOwner (s : State T) : Except Misuse Bool :=
  if s.owner = false then .ok false
  else if s.phase = .gone then .error .dangling
  else if s.useCount = 0 then .error .badWeakPtr
  else .ok true

/-- A reference was released. -/
def State.released (s : State T) : State T :=
  if s.useCount = 0 then { s with phase := .released } else s

/-- The thread `t` goes on in `Proxy::add`. -/
def next (s : State T) (t : T) (fails : Bool) : Option (State T) :=
  match s.pcs t with
  | .idle | .returned _ | .threw => none
  | .locked =>
      match lockOwner s with
      | .ok true =>
          some { s with
            holders := t :: s.holders
            pcs := Function.update s.pcs t (.unlocking true) }
      | .ok false => some { s with pcs := Function.update s.pcs t (.unlocking false) }
      | .error misuse => some { s with misuse := some misuse }
  | .unlocking found =>
      some { s with
        readers := s.readers.erase t
        pcs := Function.update s.pcs t (if found then .adding else .returned false) }
  | .adding => some { s with pcs := Function.update s.pcs t (.releasing fails) }
  | .releasing threw =>
      some { s with
        holders := s.holders.erase t
        pcs := Function.update s.pcs t (if threw then .threw else .returned true) }.released

/-- One step of a thread, of the holders of the other references or of the destructor.
There is none behind a misuse. -/
def step (kind : Owner) (s : State T) (a : Action T) : Option (State T) :=
  if s.misuse ≠ none then none
  else
    match a with
    | .add t =>
        match s.pcs t with
        | .idle | .returned _ | .threw =>
            some { s with readers := t :: s.readers, pcs := Function.update s.pcs t .locked }
        | .locked | .unlocking _ | .adding | .releasing _ => none
    | .next t fails => next s t fails
    | .copy => if 0 < s.external then some { s with external := s.external + 1 } else none
    | .release =>
        if 0 < s.external then some { s with external := s.external - 1 }.released else none
    | .detach =>
        if kind.detaches ∧ s.phase = .released ∧ s.readers = [] then
          some { s with owner := false, phase := .detached }
        else none
    | .destroy =>
        if s.phase = (if kind.detaches then .detached else .released) then
          some { s with phase := .gone }
        else none

/-- An owner with one reference, and its proxy. -/
def system (T : Type*) [DecidableEq T] (kind : Owner) : TransitionSystem (State T) (Action T) :=
  ⟨⟨true, .alive, 1, [], [], fun _ => .idle, none⟩, step kind⟩

/-- The proxy uses its owner only while that has references, and when the owner is
destroyed `owner_` is null, so that `lock_owner_` returns an empty pointer and
`Proxy::add` returns false. -/
structure Safe (s : State T) : Prop where
  used : s.misuse = none
  adding : ∀ t, s.pcs t = .adding → s.phase = .alive
  detached : s.phase = .gone → s.owner = false
  refuses : s.phase = .gone → lockOwner s = .ok false

/-- A thread does not evaluate `owner_` between the release of the last reference and
`detach_()`, and no owner is destroyed whose destructor does not call that. -/
def InTime (kind : Owner) (s : State T) : Action T → Prop
  | .next t _ => s.pcs t = .locked → s.phase ≠ .released
  | .destroy => kind.detaches = true
  | .add _ | .copy | .release | .detach => True

instance (kind : Owner) (s : State T) : ∀ a, Decidable (InTime kind s a)
  | .next t _ => inferInstanceAs (Decidable (s.pcs t = .locked → s.phase ≠ .released))
  | .destroy => inferInstanceAs (Decidable (kind.detaches = true))
  | .add _ | .copy | .release | .detach => inferInstanceAs (Decidable True)

end Proxy
end LiteMQ
