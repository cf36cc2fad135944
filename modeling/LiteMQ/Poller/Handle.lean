import LiteMQ.Foundation.TransitionSystem
import LiteMQ.Poller.StateChange
import Mathlib.Logic.Function.Basic

/-!
# `DescriptorHandlerPoller::handle_` on one holder

Any number of threads enter `handle_` for the same `DescriptorHandlerHolder`.
The first increments `handle_in_progress` from `0` and runs the loop; the
others leave their event to it by the increment alone.

`handleStep` is the next operation of one thread on the shared holder: an
atomic operation, a call of the handler, or one statement of the teardown.  The
handler is the environment: its result is an argument.  What the operation does
outside the holder is returned as an effect.

Only the operation of `.rearm` is more than that: the flags, `fd()` and `epoll_ctl` of
`epoll_rearm_handler_` at once.  `RearmLock` takes it apart, for what depends on the
threads that come in between.
-/

namespace LiteMQ

open DescriptorHandler

/-- The fields of a `DescriptorHandlerHolder` that `handle_` uses;
`descriptorHandler` is whether `descriptor_handler_` is set. -/
structure DescriptorHandlerHolder where
  flags : HandleFlags
  descriptorHandler : Bool
  handleInProgress : Int
  handlingFinished : Bool
  deriving DecidableEq, Repr

/-- The constructor of `DescriptorHandlerHolder`. -/
def DescriptorHandlerHolder.initial : DescriptorHandlerHolder :=
  ⟨HandleFlags.initial, true, 0, false⟩

/-- What a call does: `read()` and `write()` return a mask of `StateChange`
bits, and they and the calls of `epoll_ctl` may throw. -/
inductive CallResult
  | returned (stateModify : UInt64)
  | threw
  deriving DecidableEq, Repr

/-- Where a thread stands in `handle_`: what it does next. -/
inductive HandlePc
  /-- not in `handle_` for this holder -/
  | out
  /-- the test of `handling_finished` and `prev_handle_in_progress` -/
  | entered
  /-- the beginning of the loop body: `if(handle_read) read()` -/
  | readSide
  /-- `apply_state_modify_` on what `read()` returned -/
  | applyRead (stateModify : UInt64)
  /-- `if(handle_write) write()` -/
  | writeSide
  /-- `apply_state_modify_` on what `write()` returned -/
  | applyWrite (stateModify : UInt64)
  /-- the test of `read_closed` and `write_closed` -/
  | checkClosed
  /-- `handling_finished = 1` -/
  | finish
  /-- `epoll_del_fd_` -/
  | epollDel
  /-- `stopped()` -/
  | stopped
  /-- `reset_descriptor_handler()` -/
  | reset
  /-- `descriptor_handler_cleaner_->push` -/
  | push
  /-- `handlers_.erase` and the `break` -/
  | erase
  /-- `handle_in_progress-- > 1` -/
  | leave
  /-- `if(rearm_fd) epoll_rearm_handler_` -/
  | rearm
  /-- `descriptor_handler_cleaner_->release` -/
  | release
  /-- an exception ended the thread -/
  | unwound
  /-- the handler was used after `reset_descriptor_handler()` -/
  | nullDereference
  /-- `assert(prev_handle_in_progress >= 0)` failed -/
  | assertionFailed
  deriving DecidableEq, Repr

/-- The locals of `handle_`. -/
structure HandleThread where
  pc : HandlePc
  prevHandleInProgress : Int
  rearmFd : Bool
  stopProcessing : Bool
  deriving DecidableEq, Repr

/-- A thread that is not in `handle_`. -/
def HandleThread.initial : HandleThread := ⟨.out, 0, false, false⟩

/-- What an operation of `handle_` does outside the holder. -/
inductive HandleEffect
  | callRead
  | callWrite
  | epollDel
  | callStopped
  | resetHandler
  | cleanerPush
  | handlersErase
  | epollRearm (handleRead handleWrite : Bool)
  | cleanerRelease
  deriving DecidableEq, Repr

/-- The holder and the thread after an operation, and its effect. -/
structure HandleOutcome where
  holder : DescriptorHandlerHolder
  thread : HandleThread
  effect : Option HandleEffect
  deriving DecidableEq, Repr

/-- The thread goes on to `next`. -/
def HandleThread.goto (thread : HandleThread) (next : HandlePc) : HandleThread :=
  { thread with pc := next }

/-- A call of the handler: where the thread goes with the result. -/
def HandleThread.afterCall (thread : HandleThread) (result : CallResult)
    (next : UInt64 → HandlePc) : HandleThread :=
  match result with
  | .returned stateModify => thread.goto (next stateModify)
  | .threw => thread.goto .unwound

/-- `stop_processing |= apply_state_modify_(...)` -/
def applyToHolder (holder : DescriptorHandlerHolder) (thread : HandleThread)
    (stateModify : UInt64) (next : HandlePc) : HandleOutcome :=
  let (flags, stop) := applyStateModify holder.flags stateModify
  ⟨{ holder with flags := flags },
    { thread with pc := next, stopProcessing := thread.stopProcessing || stop }, none⟩

/-- The next operation of a thread in `handle_`; a thread outside enters it. -/
def handleStep (holder : DescriptorHandlerHolder) (thread : HandleThread)
    (result : CallResult) : HandleOutcome :=
  match thread.pc with
  | .out =>
      ⟨{ holder with handleInProgress := holder.handleInProgress + 1 },
        ⟨.entered, holder.handleInProgress, false, false⟩, none⟩
  | .entered =>
      if holder.handlingFinished = false ∧ thread.prevHandleInProgress = 0 then
        ⟨holder, thread.goto .readSide, none⟩
      else ⟨holder, thread.goto .rearm, none⟩
  | .readSide =>
      if thread.prevHandleInProgress < 0 then ⟨holder, thread.goto .assertionFailed, none⟩
      else if holder.flags.handleRead then
        if holder.descriptorHandler then
          ⟨holder, thread.afterCall result .applyRead, some .callRead⟩
        else ⟨holder, thread.goto .nullDereference, none⟩
      else ⟨holder, thread.goto .writeSide, none⟩
  | .applyRead stateModify => applyToHolder holder thread stateModify .writeSide
  | .writeSide =>
      if holder.flags.handleWrite then
        if holder.descriptorHandler then
          ⟨holder, thread.afterCall result .applyWrite, some .callWrite⟩
        else ⟨holder, thread.goto .nullDereference, none⟩
      else ⟨holder, thread.goto .checkClosed, none⟩
  | .applyWrite stateModify => applyToHolder holder thread stateModify .checkClosed
  | .checkClosed =>
      if holder.flags.readClosed ∧ holder.flags.writeClosed then
        ⟨holder, thread.goto .finish, none⟩
      else ⟨holder, { thread with pc := .leave, rearmFd := true }, none⟩
  | .finish => ⟨{ holder with handlingFinished := true }, thread.goto .epollDel, none⟩
  | .epollDel =>
      if holder.descriptorHandler then
        ⟨holder, thread.afterCall result fun _ => .stopped, some .epollDel⟩
      else ⟨holder, thread.goto .nullDereference, none⟩
  | .stopped =>
      if holder.descriptorHandler then ⟨holder, thread.goto .reset, some .callStopped⟩
      else ⟨holder, thread.goto .nullDereference, none⟩
  | .reset =>
      ⟨{ holder with descriptorHandler := false }, thread.goto .push, some .resetHandler⟩
  | .push => ⟨holder, thread.goto .erase, some .cleanerPush⟩
  | .erase => ⟨holder, thread.goto .rearm, some .handlersErase⟩
  | .leave =>
      ⟨{ holder with handleInProgress := holder.handleInProgress - 1 },
        { thread with
          pc := if 1 < holder.handleInProgress then .readSide else .rearm
          prevHandleInProgress := holder.handleInProgress }, none⟩
  | .rearm =>
      if thread.rearmFd then
        if holder.descriptorHandler then
          ⟨holder, thread.afterCall result fun _ => .release,
            some (.epollRearm holder.flags.handleRead holder.flags.handleWrite)⟩
        else ⟨holder, thread.goto .nullDereference, none⟩
      else ⟨holder, thread.goto .release, none⟩
  | .release =>
      if thread.prevHandleInProgress < 0 then ⟨holder, thread.goto .assertionFailed, none⟩
      else ⟨holder, thread.goto .out, some .cleanerRelease⟩
  | .unwound => ⟨holder, thread, none⟩
  | .nullDereference => ⟨holder, thread, none⟩
  | .assertionFailed => ⟨holder, thread, none⟩

namespace Handle

/-- One holder and the threads that enter `handle_` for it.  `passStarted` and
`passDone` count the passes of the loop body that were begun and that reached
the test of the closed flags. -/
structure State (Thread : Type*) where
  holder : DescriptorHandlerHolder
  threads : Thread → HandleThread
  passStarted : Nat
  passDone : Nat

/-- The next operation of a thread, with the result of the call that it may
make. -/
structure Action (Thread : Type*) where
  thread : Thread
  result : CallResult

variable {Thread : Type*} [DecidableEq Thread]

def step (s : State Thread) (a : Action Thread) : Option (State Thread) :=
  let thread := s.threads a.thread
  if thread.pc = .unwound ∨ thread.pc = .nullDereference ∨ thread.pc = .assertionFailed then none
  else
    let outcome := handleStep s.holder thread a.result
    some
      { holder := outcome.holder
        threads := Function.update s.threads a.thread outcome.thread
        passStarted := if thread.pc = .readSide then s.passStarted + 1 else s.passStarted
        passDone := if thread.pc = .checkClosed then s.passDone + 1 else s.passDone }

/-- A new holder under any interleaving of the threads. -/
def system (Thread : Type*) [DecidableEq Thread] : TransitionSystem (State Thread) (Action Thread) :=
  ⟨⟨.initial, fun _ => .initial, 0, 0⟩, step⟩

end Handle
end LiteMQ
