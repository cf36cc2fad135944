import LiteMQ.Foundation.TransitionSystem
import LiteMQ.Message.MessageQueue

/-!
# `Gears::ThreadRunner`

`start()` creates threads one after the other, and a thread that was created
waits at a gate until all are: it acquires `start_semaphore_` and releases it
again for the next one.  The sign of `number_running_` then tells it whether to
run its job.  When a `pthread_create` fails the sign is turned, the gate opened,
and the threads are joined without having worked.

The owner calls `start()` and then `wait_for_completion()`, whether `start()`
threw or not.  `starterStep` is its next operation, `threadStep` that of a
created thread.
-/

namespace LiteMQ
namespace ThreadRunner

open TransitionSystem

/-- Where the thread of a job stands: what it does next. -/
inductive ThreadPc
  /-- not created, or joined -/
  | gone
  /-- `start_semaphore_.acquire()` -/
  | acquire
  /-- `start_semaphore_.release()` -/
  | release
  /-- `if (number_running_ > 0)` -/
  | test
  /-- `job.work()` -/
  | work
  /-- terminated, and not joined yet -/
  | done
  deriving DecidableEq, Repr

/-- Who has called `wait_for_completion`. -/
inductive Waiter
  | start
  | client
  deriving DecidableEq, Repr

/-- Where the owner stands: what it does next. -/
inductive StarterPc
  /-- before a call of `start()` -/
  | idle
  /-- the test of the loop of `start()`, and `pthread_create` -/
  | create
  /-- `number_running_++` -/
  | count
  /-- `number_running_ = -number_running_` -/
  | negate
  /-- `start_semaphore_.release()` after a failure -/
  | openFailed
  /-- `start_semaphore_.release()` at the end of `start()` -/
  | openGate
  /-- `start()` has thrown -/
  | threw
  /-- `start()` has returned -/
  | started
  /-- `if (number_running_)` of `wait_for_completion` -/
  | waitEntry (waiter : Waiter)
  /-- the loop over `pthread_join` at this place -/
  | join (i : Nat) (waiter : Waiter)
  /-- `start_semaphore_.acquire()` of `wait_for_completion` -/
  | acquire (waiter : Waiter)
  /-- `number_running_ = 0` -/
  | reset (waiter : Waiter)
  deriving DecidableEq, Repr

/-- A `ThreadRunner` with its threads and its owner.  `toStart` is the local of
`start()`; `works` counts the calls of `job.work()` since `start()` was called,
`succeeded` is whether that call has returned. -/
structure State where
  numberRunning : Int
  startSemaphore : Int
  threads : Nat → ThreadPc
  starter : StarterPc
  toStart : Nat
  works : Nat → Nat
  succeeded : Bool

/-- What the owner does, with the result of the `pthread_create` that it may call,
and what a thread does. -/
inductive Action
  | start (toStart : Nat)
  | starter (created : Bool)
  | wait
  | thread (i : Nat)

/-- Where the owner is when `wait_for_completion` has returned. -/
def Waiter.returned : Waiter → StarterPc
  | .start => .threw
  | .client => .idle

/-- `start(to_start)` up to its loop. -/
def startCall (numberOfJobs : Nat) (s : State) (toStart : Nat) : State :=
  if s.numberRunning ≠ 0 then
    { s with starter := .threw, works := fun _ => 0, succeeded := false }
  else
    { s with
      starter := .create
      toStart := if toStart = 0 ∨ numberOfJobs < toStart then numberOfJobs else toStart
      works := fun _ => 0
      succeeded := false }

/-- The next operation of the owner in `start()` or `wait_for_completion()`. -/
def starterStep (s : State) (created : Bool) : Option State :=
  match s.starter with
  | .idle | .threw | .started => none
  | .create =>
      if s.numberRunning % 2 ^ 32 < s.toStart then
        if created then
          some { s with
            threads := Function.update s.threads s.numberRunning.toNat .acquire
            starter := .count }
        else some { s with starter := .negate }
      else some { s with starter := .openGate }
  | .count =>
      some { s with numberRunning := asInt (s.numberRunning + 1), starter := .create }
  | .negate => some { s with numberRunning := asInt (-s.numberRunning), starter := .openFailed }
  | .openFailed =>
      some { s with startSemaphore := s.startSemaphore + 1, starter := .waitEntry .start }
  | .openGate =>
      some { s with startSemaphore := s.startSemaphore + 1, starter := .started, succeeded := true }
  | .waitEntry waiter =>
      some { s with starter := if s.numberRunning ≠ 0 then .join 0 waiter else waiter.returned }
  | .join i waiter =>
      if i < s.numberRunning.natAbs then
        if s.threads i = .done then
          some { s with
            threads := Function.update s.threads i .gone
            starter := .join (i + 1) waiter }
        else none
      else some { s with starter := .acquire waiter }
  | .acquire waiter =>
      if 0 < s.startSemaphore then
        some { s with startSemaphore := s.startSemaphore - 1, starter := .reset waiter }
      else none
  | .reset waiter => some { s with numberRunning := 0, starter := waiter.returned }

/-- The thread `i` goes on to `next`. -/
def State.goto (s : State) (i : Nat) (next : ThreadPc) : State :=
  { s with threads := Function.update s.threads i next }

/-- The next operation of the thread of a job. -/
def threadStep (s : State) (i : Nat) : Option State :=
  match s.threads i with
  | .gone | .done => none
  | .acquire =>
      if 0 < s.startSemaphore then
        some ({ s with startSemaphore := s.startSemaphore - 1 }.goto i .release)
      else none
  | .release => some ({ s with startSemaphore := s.startSemaphore + 1 }.goto i .test)
  | .test => some (s.goto i (if 0 < s.numberRunning then .work else .done))
  | .work => some ({ s with works := Function.update s.works i (s.works i + 1) }.goto i .done)

def step (numberOfJobs : Nat) (s : State) : Action → Option State
  | .start toStart =>
      if s.starter = .idle then some (startCall numberOfJobs s toStart) else none
  | .starter created => starterStep s created
  | .wait =>
      if s.starter = .threw ∨ s.starter = .started then
        some { s with starter := .waitEntry .client }
      else none
  | .thread i => threadStep s i

/-- A new `ThreadRunner`. -/
def system (numberOfJobs : Nat) : TransitionSystem State Action :=
  ⟨⟨0, 0, fun _ => .gone, .idle, 0, fun _ => 0, false⟩, step numberOfJobs⟩

end ThreadRunner
end LiteMQ
