import LiteMQ.Foundation.Ledger
import LiteMQ.Foundation.Memory
import LiteMQ.Foundation.TransitionSystem
import Mathlib.Data.List.FinRange
import Mathlib.Logic.Function.Basic
import Mathlib.Tactic.Simps.Basic

/-!
# `ThreadBuffer`: one buffer for each thread

`THREADS` buffers are static.  `get_buffer` gives the thread its buffer: the one in
`buffer_key_`, else a static one from `buffer_pointers_`, else one of `new char[]`, whose
address then stands in `type_key_` too.  When a thread exits, `free_buffer_` gets the
value of `buffer_key_` and looks at `type_key_` to see whether it has to `delete[]` the
buffer or to put it back.

Threads call `get_buffer` and exit in any order.  A step is a statement: taking `mutex_`
and releasing it are steps of their own.  Keys are those of pthreads: a key starts with
null in every thread, and at the exit of a thread a value that is not null is handed to the
destructor of the key and set to null before that.  The destructors of other keys may call
`get_buffer` once more, and then `free_buffer_` runs again in a further round.  `type_key_` has
no destructor; if its value is set to null as well, and before or behind the other keys, is
up to the library, and a step of its own.
-/

namespace LiteMQ
namespace Gears
namespace ThreadBuffer

/-- A `char*` to a buffer: to one of `buffers_`, or to an array of `new char[BUFFER_SIZE]`. -/
inductive CharPtr (THREADS : Nat)
  | buffers (i : Fin THREADS)
  | heap (address : Nat)
  deriving DecidableEq, Repr

/-- The buffer is an array of `new[]`. -/
def CharPtr.isArray {THREADS : Nat} : CharPtr THREADS → Bool
  | .buffers _ => false
  | .heap _ => true

/-- Where a thread stands: the statement that comes next. -/
inductive Pc (THREADS : Nat)
  /-- in neither function -/
  | out
  /-- `get_buffer`, the `WriteGuard` -/
  | getLock
  /-- `if (available_)` -/
  | getTest
  /-- `buffer = buffer_pointers_[--available_]` -/
  | getPop
  /-- the end of the `WriteGuard` -/
  | getUnlock (buffer : Option (CharPtr THREADS))
  /-- `new char[BUFFER_SIZE]` -/
  | getNew
  /-- `type_key_.set_data(buffer)` -/
  | getSetType (buffer : CharPtr THREADS)
  /-- `buffer_key_.set_data(buffer)` -/
  | getSetBuffer (buffer : CharPtr THREADS)
  /-- `free_buffer_`, `if (type_key_.get_data())` -/
  | freeTest (buffer : CharPtr THREADS)
  /-- the `WriteGuard` -/
  | freeLock (buffer : CharPtr THREADS)
  /-- `buffer_pointers_[available_++] = buffer` -/
  | freePush (buffer : CharPtr THREADS)
  /-- the end of the `WriteGuard` -/
  | freeUnlock
  /-- `buffer_key_.set_data(0)` -/
  | freeReset
  deriving DecidableEq, Repr

/-- The thread is between the `WriteGuard` and its end. -/
def Pc.locked {THREADS : Nat} : Pc THREADS → Bool
  | .getTest | .getPop | .getUnlock _ | .freePush _ | .freeUnlock => true
  | .out | .getLock | .getNew | .getSetType _ | .getSetBuffer _ | .freeTest _ | .freeLock _
  | .freeReset => false

/-- The statement is a call of `set_data`. -/
def Pc.setsData {THREADS : Nat} : Pc THREADS → Bool
  | .getSetType _ | .getSetBuffer _ | .freeReset => true
  | .out | .getLock | .getTest | .getPop | .getUnlock _ | .getNew | .freeTest _ | .freeLock _
  | .freePush _ | .freeUnlock => false

/-- The buffer that the thread has in its variable `buffer` alone: not yet in `buffer_key_`, or
taken from there and not yet freed. -/
def Pc.buffer {THREADS : Nat} : Pc THREADS → Option (CharPtr THREADS)
  | .getUnlock buffer => buffer
  | .getSetType buffer | .getSetBuffer buffer | .freeTest buffer | .freeLock buffer
  | .freePush buffer => some buffer
  | .out | .getLock | .getTest | .getPop | .getNew | .freeUnlock | .freeReset => none

/-- The argument of `free_buffer_` at its test of `type_key_`. -/
def Pc.freed {THREADS : Nat} : Pc THREADS → Option (CharPtr THREADS)
  | .freeTest buffer => some buffer
  | .out | .getLock | .getTest | .getPop | .getUnlock _ | .getNew | .getSetType _
  | .getSetBuffer _ | .freeLock _ | .freePush _ | .freeUnlock | .freeReset => none

/-- The buffer that the thread is about to put back into the pool. -/
def Pc.putBack {THREADS : Nat} : Pc THREADS → Option (CharPtr THREADS)
  | .freeLock buffer | .freePush buffer => some buffer
  | .out | .getLock | .getTest | .getPop | .getUnlock _ | .getNew | .getSetType _
  | .getSetBuffer _ | .freeTest _ | .freeUnlock | .freeReset => none

/-- A thread: its place, its values of the two keys, and what its last call of `get_buffer`
has returned. -/
structure Thread (THREADS : Nat) where
  pc : Pc THREADS
  bufferKey : Option (CharPtr THREADS)
  typeKey : Option (CharPtr THREADS)
  returned : Option (CharPtr THREADS)
  deriving DecidableEq, Repr

/-- The thread comes to `pc`. -/
@[simps] def Thread.goTo {THREADS : Nat} (thread : Thread THREADS) (pc : Pc THREADS) :
    Thread THREADS :=
  { thread with pc := pc }

/-- `set_data` of `buffer_key_`. -/
@[simps] def Thread.setBufferKey {THREADS : Nat} (thread : Thread THREADS)
    (buffer : Option (CharPtr THREADS)) : Thread THREADS :=
  { thread with bufferKey := buffer }

/-- `set_data` of `type_key_`. -/
@[simps] def Thread.setTypeKey {THREADS : Nat} (thread : Thread THREADS)
    (buffer : Option (CharPtr THREADS)) : Thread THREADS :=
  { thread with typeKey := buffer }

/-- `get_buffer` returns. -/
@[simps] def Thread.returns {THREADS : Nat} (thread : Thread THREADS)
    (buffer : Option (CharPtr THREADS)) : Thread THREADS :=
  { thread with pc := .out, returned := buffer }

/-- How often the thread has the buffer in `buffer_key_` or in its variable. -/
def Thread.references {THREADS : Nat} (thread : Thread THREADS) (buffer : CharPtr THREADS) : Nat :=
  [thread.bufferKey, thread.pc.buffer].count (some buffer)

/-- `set_data` that throws leaves a `throw ()` function, which terminates the program; a
`delete[]` of anything but an array of `new[]`, or an access behind `buffer_pointers_`, leaves
it without meaning. -/
inductive Outcome
  | running
  | terminated
  | undefined
  deriving DecidableEq, Repr

/-- The static members, the arrays of `new[]` that are not deleted, and the threads. -/
structure State (THREADS : Nat) (T : Type*) where
  bufferPointers : List (Option (CharPtr THREADS))
  available : Nat
  mutex : Option T
  heap : Nat → Bool
  threads : T → Thread THREADS
  outcome : Outcome

/-- A round of the loop of the constructor. -/
def constructRound {THREADS : Nat} (members : List (Option (CharPtr THREADS)) × Nat)
    (i : Fin THREADS) : List (Option (CharPtr THREADS)) × Nat :=
  (members.1.set members.2 (some (.buffers i)), members.2 + 1)

/-- The constructor: `buffer_pointers_` and `available_`, which runs through the indices. -/
def construct (THREADS : Nat) (bufferPointers : List (Option (CharPtr THREADS))) :
    List (Option (CharPtr THREADS)) × Nat :=
  (List.finRange THREADS).foldl constructRound (bufferPointers, 0)

/-- `delete[]`: only an array of `new[]` that is not deleted yet can be deleted. -/
def deleteArray {THREADS : Nat} (heap : Nat → Bool) : CharPtr THREADS → Option (Nat → Bool)
  | .buffers _ => none
  | .heap address => if heap address then some (Function.update heap address false) else none

/-- A thread calls `get_buffer`, begins to exit, or goes on; `new[]` has its result from
outside. -/
inductive Action (T : Type*)
  | getBuffer (t : T)
  /-- the destructor of `buffer_key_` is due -/
  | exitThread (t : T)
  /-- the exit of the thread sets `type_key_` to null -/
  | clearTypeKey (t : T)
  | next (t : T)
  /-- `new char[BUFFER_SIZE]` returns an address, or throws -/
  | newArray (t : T) (address : Option Nat)
  | setDataThrows (t : T)
  deriving DecidableEq, Repr

variable {THREADS : Nat} {T : Type*} [DecidableEq T]

/-- The thread `t` is now as `thread`. -/
def State.put (s : State THREADS T) (t : T) (thread : Thread THREADS) : State THREADS T :=
  { s with threads := Function.update s.threads t thread }

/-- The thread `t` comes to `pc`. -/
def State.goTo (s : State THREADS T) (t : T) (pc : Pc THREADS) : State THREADS T :=
  s.put t ((s.threads t).goTo pc)

/-- The next statement of `t` in `get_buffer` or `free_buffer_`. -/
def next (s : State THREADS T) (t : T) : Option (State THREADS T) :=
  match (s.threads t).pc with
  | .out | .getNew => none
  | .getLock =>
      if s.mutex = none then some { s.goTo t .getTest with mutex := some t } else none
  | .getTest => some (s.goTo t (if s.available = 0 then .getUnlock none else .getPop))
  | .getPop =>
      match s.available with
      -- the `size_t` would wrap around to a place behind the array
      | 0 => some { s with outcome := .undefined }
      | available + 1 =>
          match Buffer.load s.bufferPointers available with
          | .ok buffer => some { s.goTo t (.getUnlock buffer) with available := available }
          | .error _ => some { s with outcome := .undefined }
  | .getUnlock (some buffer) => some { s.goTo t (.getSetBuffer buffer) with mutex := none }
  | .getUnlock none => some { s.goTo t .getNew with mutex := none }
  | .getSetType buffer =>
      some (s.put t (((s.threads t).setTypeKey (some buffer)).goTo (.getSetBuffer buffer)))
  | .getSetBuffer buffer =>
      some (s.put t (((s.threads t).setBufferKey (some buffer)).returns (some buffer)))
  | .freeTest buffer =>
      if (s.threads t).typeKey = none then some (s.goTo t (.freeLock buffer))
      else
        match deleteArray s.heap buffer with
        | some heap => some { s.goTo t .freeReset with heap := heap }
        | none => some { s with outcome := .undefined }
  | .freeLock buffer =>
      if s.mutex = none then some { s.goTo t (.freePush buffer) with mutex := some t } else none
  | .freePush buffer =>
      match Buffer.store s.bufferPointers s.available (some buffer) with
      | .ok pointers =>
          some { s.goTo t .freeUnlock with
            bufferPointers := pointers, available := s.available + 1 }
      | .error _ => some { s with outcome := .undefined }
  | .freeUnlock => some { s.goTo t .freeReset with mutex := none }
  | .freeReset => some (s.put t (((s.threads t).setBufferKey none).goTo .out))

/-- One step of one of the threads. -/
def step (s : State THREADS T) (a : Action T) : Option (State THREADS T) :=
  if s.outcome = .running then
    match a with
    | .getBuffer t =>
        if (s.threads t).pc = .out then
          match (s.threads t).bufferKey with
          | some buffer => some (s.put t ((s.threads t).returns (some buffer)))
          | none => some (s.goTo t .getLock)
        else none
    | .exitThread t =>
        if (s.threads t).pc = .out then
          (s.threads t).bufferKey.map fun buffer =>
            s.put t (((s.threads t).setBufferKey none).goTo (.freeTest buffer))
        else none
    | .clearTypeKey t =>
        if (s.threads t).pc = .out then some (s.put t ((s.threads t).setTypeKey none)) else none
    | .next t => next s t
    | .newArray t (some address) =>
        if (s.threads t).pc = .getNew ∧ s.heap address = false then
          some { s.goTo t (.getSetType (.heap address)) with
            heap := Function.update s.heap address true }
        else none
    | .newArray t none =>
        if (s.threads t).pc = .getNew then
          some (s.put t ((s.threads t).returns none))
        else none
    | .setDataThrows t =>
        if (s.threads t).pc.setsData then some { s with outcome := .terminated } else none
  else none

/-- The constructor has run on the zeroed `buffer_pointers_`, and no thread has a buffer. -/
def system (THREADS : Nat) (T : Type*) [DecidableEq T] :
    TransitionSystem (State THREADS T) (Action T) where
  init := {
    bufferPointers := (construct THREADS (List.replicate THREADS none)).1
    available := (construct THREADS (List.replicate THREADS none)).2
    mutex := none
    heap := fun _ => false
    threads := fun _ => ⟨.out, none, none, none⟩
    outcome := .running }
  step := step

/-! ## The property and its condition -/

/-- How often a buffer is in a place: in `buffer_pointers_[0, available_)`, which is the place
`none`, or with a thread. -/
def State.occurrences {T : Type*} (s : State THREADS T) (buffer : CharPtr THREADS) :
    Option T → Nat
  | none => (s.bufferPointers.take s.available).count (some buffer)
  | some t => (s.threads t).references buffer

/-- Every buffer of `buffers_` is in the pool once or held by one thread.  An array of `new[]` is
held by one thread until it is deleted, so what is obtained by `new[]` never goes into the pool;
and nothing else is deleted, since that would be undefined. -/
structure OneOwner {T : Type*} (s : State THREADS T) : Prop where
  available_le : s.available ≤ THREADS
  buffers : ∀ i, Ledger.InOnePlace (s.occurrences (.buffers i))
  heap : ∀ address, s.occurrences (.heap address) none = 0 ∧
    if s.heap address then Ledger.InOnePlace (s.occurrences (.heap address))
    else Ledger.Nowhere (s.occurrences (.heap address))
  defined : s.outcome ≠ .undefined

/-- The thread is not about to put an array of `new[]` into the pool. -/
def Thread.PutsBackStatic {THREADS : Nat} (thread : Thread THREADS) : Prop :=
  ∀ buffer ∈ thread.pc.putBack, buffer.isArray = false

/-- Every buffer has one owner, and no array of `new[]` is on its way into the pool. -/
structure Sound {T : Type*} (s : State THREADS T) : Prop where
  owner : OneOwner s
  putBack : ∀ t, (s.threads t).PutsBackStatic

/-- Where `free_buffer_` tests `type_key_`, the key is set if the buffer is an array of `new[]`,
and null if it is one of `buffers_`. -/
def TypeCurrent {T : Type*} (s : State THREADS T) : Action T → Prop
  | .next t => ∀ buffer ∈ (s.threads t).pc.freed, (s.threads t).typeKey.isSome = buffer.isArray
  | .getBuffer _ | .exitThread _ | .clearTypeKey _ | .newArray _ _ | .setDataThrows _ => True

instance {T : Type*} (s : State THREADS T) : ∀ a, Decidable (TypeCurrent s a)
  | .next t => inferInstanceAs (Decidable
      (∀ buffer ∈ (s.threads t).pc.freed, (s.threads t).typeKey.isSome = buffer.isArray))
  | .getBuffer _ | .exitThread _ | .clearTypeKey _ | .newArray _ _ | .setDataThrows _ =>
      inferInstanceAs (Decidable True)

end ThreadBuffer
end Gears
end LiteMQ
