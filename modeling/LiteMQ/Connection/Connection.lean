import LiteMQ.Connection.SharedQueue
import LiteMQ.Poller.Handle

/-!
# `Connection`

Sending threads, the handlers of the connection and the threads of the poller
that run them.  `send()` adds its message, wakes up the first handler of
`waiting_handlers_`, or else opens a new one when the eldest message has waited
long enough.  A new handler is registered for reading and writing.

An `Endpoint` is a handler in the poller: the `handle_` of its holder with all
threads in it (`Handle.State`), and what `epoll` waits for on its descriptor.
`EPOLLONESHOT` disarms the descriptor with every event, until `handle_` or
`wakeup()` arms it again.  `sendStep` is the next operation of a sending thread,
`serve` that of a poller thread; calls of `epoll_ctl` succeed.
-/

namespace LiteMQ
namespace Connection

open SendDescriptorHandler

/-- A registered handler: `armed` is `EPOLLIN` and `EPOLLOUT` of the last
registration when no event has come since. -/
structure Endpoint (T : Type*) where
  handle : Handle.State T
  armed : Option (Bool × Bool)

variable {H S T : Type*} [DecidableEq H] [DecidableEq S] [DecidableEq T]

namespace Endpoint

/-- `DescriptorHandlerPoller::add` of a new handler. -/
def added : Endpoint T := ⟨(Handle.system T).init, some (true, true)⟩

/-- `wakeup()`: `rearm(false, true)` of the holder, if it is linked. -/
def wakeup (endpoint : Endpoint T) : Endpoint T :=
  if endpoint.handle.holder.descriptorHandler then { endpoint with armed := some (false, true) }
  else endpoint

/-- What an operation of `handle_` does to the registration. -/
def armedAfter (armed : Option (Bool × Bool)) : Option HandleEffect → Option (Bool × Bool)
  | some (.epollRearm handleRead handleWrite) => some (handleRead, handleWrite)
  | some .epollDel => none
  | _ => armed

/-- The next operation of thread `w` in `handle_`. -/
def step (endpoint : Endpoint T) (w : T) (result : CallResult) : Option (Endpoint T) :=
  (Handle.step endpoint.handle ⟨w, result⟩).map fun handle =>
    ⟨handle, armedAfter endpoint.armed
      (handleStep endpoint.handle.holder (endpoint.handle.threads w) result).effect⟩

end Endpoint

/-- Where a thread stands in `send()`: what it does next. -/
inductive SendPc (H : Type*)
  /-- not in `send()` -/
  | out
  /-- `wakeup_waiting_connection_`: the first of `waiting_handlers_` -/
  | wakeup
  /-- `handler->wakeup()` -/
  | rearm (handler : H)
  /-- `extend_connections_available_` -/
  | available
  /-- the test of `eldest_time()` -/
  | eldest
  /-- `++opened_connections_` in `try_extend_connections_` -/
  | extend
  /-- `--opened_connections_` in `try_extend_connections_` -/
  | retract
  /-- `new SendDescriptorHandler(...)` and `add_handler` -/
  | openSocket
  /-- `waiting_handlers_.push_back` -/
  | pushWaiting (handler : H)
  deriving DecidableEq

/-- The `Connection` with its queue, its handlers in the poller, the threads in
`send()` and, for every poller thread, the handler whose event it has got. -/
structure State (H S T : Type*) where
  core : SharedQueue.State H
  waitingHandlers : List H
  openedConnections : Int
  endpoints : H → Option (Endpoint T)
  senders : S → SendPc H
  serving : T → Option H

/-- `max_out_sockets_` and `MAX_DELAY_IN_POOL_`. -/
structure Config where
  maxOutSockets : Nat
  maxDelayInPool : Time

/-- What an operation of `send()` gets from outside: the message, the time, the
address of a new handler, and whether it could be opened. -/
structure SendInput (H : Type*) where
  data : List UInt8
  now : Time
  handler : H
  opens : Bool

/-- The thread `i` goes on to `next`. -/
def State.goto (s : State H S T) (i : S) (next : SendPc H) : State H S T :=
  { s with senders := Function.update s.senders i next }

/-- The next operation of thread `i` in `send()`; a thread outside enters it. -/
def sendStep (config : Config) (order : ByteOrder) (s : State H S T) (i : S)
    (input : SendInput H) : Option (State H S T) :=
  match s.senders i with
  | .out =>
      (SharedQueue.step order s.core (.send input.data input.now)).map fun core =>
        { s with core := core }.goto i .wakeup
  | .wakeup =>
      match s.waitingHandlers with
      | [] => some (s.goto i .available)
      | handler :: rest => some ({ s with waitingHandlers := rest }.goto i (.rearm handler))
  | .rearm handler =>
      let endpoint := (s.endpoints handler).map Endpoint.wakeup
      some ({ s with endpoints := Function.update s.endpoints handler endpoint }.goto i .out)
  | .available =>
      some (s.goto i
        (if s.openedConnections ≤ asInt config.maxOutSockets then .eldest else .out))
  | .eldest =>
      let eldest := s.core.queue.eldestTime s.core.holders
      some (s.goto i
        (if eldest ≠ 0 ∧ config.maxDelayInPool < input.now - eldest then .extend else .out))
  | .extend =>
      let opened := asInt (s.openedConnections + 1)
      some ({ s with openedConnections := opened }.goto i
        (if opened < asInt config.maxOutSockets then .openSocket else .retract))
  | .retract =>
      some ({ s with openedConnections := asInt (s.openedConnections - 1) }.goto i .out)
  | .openSocket =>
      if input.opens then
        match s.endpoints input.handler with
        | some _ => none
        | none =>
            some ({ s with endpoints :=
              Function.update s.endpoints input.handler (some .added) }.goto i
                (.pushWaiting input.handler))
      else
        -- an exception leaves `send()`
        some (s.goto i .out)
  | .pushWaiting handler =>
      some ({ s with waitingHandlers := s.waitingHandlers ++ [handler] }.goto i .out)

/-- `write()` has returned to `handle_`. -/
def writeReturned (writer : Writer) : Option UInt64 :=
  match writer.pc with
  | .returned stateModify => some stateModify
  | _ => none

/-- What the call of the next operation of `handle_` returns. -/
def callResult (writer : Writer) (pc : HandlePc) : CallResult :=
  match pc with
  | .readSide => .returned writer.handler.read.2
  | .writeSide => .returned ((writeReturned writer).getD 0)
  | _ => .returned 0

/-- What an operation of `handle_` does to the handler: `read()` is one
operation, and `write()` is left when its result has been applied. -/
def coreAfter (order : ByteOrder) (core : SharedQueue.State H) (h : H) (flags : HandleFlags)
    (pc : HandlePc) : Option (SharedQueue.State H) :=
  match pc with
  | .readSide =>
      if flags.handleRead then
        let writer := { core.writers h with handler := (core.writers h).handler.read.1 }
        some { core with writers := Function.update core.writers h writer }
      else some core
  | .applyWrite _ => SharedQueue.step order core (.write h .zero)
  | _ => some core

/-- The next operation of the poller thread `w` for the handler `h`.  While it
is in `write()` this is the next operation there. -/
def serve (order : ByteOrder) (s : State H S T) (w : T) (h : H) (endpoint : Endpoint T)
    (outcome : SendOutcome) : Option (State H S T) :=
  let holder := endpoint.handle.holder
  let pc := (endpoint.handle.threads w).pc
  if pc = .writeSide ∧ holder.flags.handleWrite ∧ holder.descriptorHandler ∧
      writeReturned (s.core.writers h) = none then
    (SharedQueue.step order s.core (.write h outcome)).map fun core => { s with core := core }
  else
    (endpoint.step w (callResult (s.core.writers h) pc)).bind fun next =>
      (coreAfter order s.core h holder.flags pc).map fun core =>
        { s with
          core := core
          endpoints := Function.update s.endpoints h (some next)
          serving :=
            if (next.handle.threads w).pc = .out then Function.update s.serving w none
            else s.serving }

/-- An operation of a sending thread, an event that `epoll_wait` gives to a
poller thread, or an operation of a poller thread. -/
inductive Action (H S T : Type*)
  | send (i : S) (input : SendInput H)
  | event (w : T) (h : H)
  | handle (w : T) (outcome : SendOutcome)

def step (config : Config) (order : ByteOrder) (s : State H S T) :
    Action H S T → Option (State H S T)
  | .send i input => sendStep config order s i input
  | .event w h =>
      match s.serving w, s.endpoints h with
      | none, some endpoint =>
          if endpoint.armed.isSome then
            some { s with
              endpoints := Function.update s.endpoints h (some { endpoint with armed := none })
              serving := Function.update s.serving w (some h) }
          else none
      | _, _ => none
  | .handle w outcome =>
      match s.serving w with
      | none => none
      | some h =>
          match s.endpoints h with
          | none => none
          | some endpoint => serve order s w h endpoint outcome

/-- A new connection. -/
def system (config : Config) (order : ByteOrder) (maxSize : Nat) (messageCount : Int)
    (connected : H → Bool) : TransitionSystem (State H S T) (Action H S T) where
  init :=
    { core := (SharedQueue.system order maxSize messageCount connected).init
      waitingHandlers := []
      openedConnections := 0
      endpoints := fun _ => none
      senders := fun _ => .out
      serving := fun _ => none }
  step := step config order

end Connection
end LiteMQ
