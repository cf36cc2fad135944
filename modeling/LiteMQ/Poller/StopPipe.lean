import LiteMQ.Foundation.Counting
import LiteMQ.Foundation.Token
import LiteMQ.Foundation.Mutex
import LiteMQ.Poller.Process

/-!
# Stopping the workers of a `DescriptorHandlerPoller`

`deactivate_object` calls `StopPipeDescriptorHandler::stop()`, which sets `stopped_` and
writes to a pipe, and then tells each worker to terminate.  The read end of the pipe is
registered like any other descriptor, so one worker at a time gets its event: it handles
it, which rearms the descriptor, and leaves `process_`.  The pipe is never emptied, so the
next worker gets the event again.

A worker runs `while(!is_terminating()) process_()`.  Its batch holds the events that it
has not handled yet.  The events of all other handlers are one kind of event here: handling
one of them asks to stop, or does not, or throws.
-/

namespace LiteMQ
namespace StopPipe

open DescriptorHandler TransitionSystem

/-- Whose event it is. -/
inductive Event
  /-- `stop_handler_` -/
  | stop
  | other
  deriving DecidableEq, Repr

/-- Where a worker stands. -/
inductive WorkerPc
  /-- `while(!this->is_terminating())` -/
  | loop
  /-- `epoll_wait` -/
  | waiting
  /-- in the loop over the events -/
  | handling
  /-- `work()` has returned -/
  | gone
  /-- it has ended the program -/
  | aborted
  deriving DecidableEq, Repr

/-- A worker: `batch` are the events that are left of its batch, `stop` is the local of
`process_`, and `thread` has the locals of `handle_` when that runs for `stop_handler_`. -/
structure Worker where
  pc : WorkerPc
  batch : List Event
  stop : Bool
  thread : HandleThread
  deriving DecidableEq, Repr

/-- A worker outside of `process_`. -/
def Worker.at (pc : WorkerPc) : Worker := ⟨pc, [], false, .initial⟩

/-- `stopped_`, the messages in the pipe, the calls of `stop()` that have set `stopped_` and
not written yet, the holder of `stop_handler_`, the interest of epoll in it, the workers,
and which of them are told to terminate. -/
structure State (Thread : Type*) where
  stopped : Bool
  pipe : Nat
  writing : Nat
  holder : DescriptorHandlerHolder
  armed : Option (Bool × Bool)
  workers : Thread → Worker
  terminating : Thread → Bool

/-- What `handle_` does for another handler: it returns whether to stop, or throws. -/
inductive OtherResult
  | returned (stop : Bool)
  | threw
  deriving DecidableEq, Repr

inductive Action (Thread : Type*)
  /-- `stop()` sets `stopped_` -/
  | stop
  /-- `stop()` writes to the pipe -/
  | write
  /-- `make_terminate()` of the job of the worker -/
  | terminate (i : Thread)
  /-- the test of the loop of `work()` -/
  | enter (i : Thread)
  /-- `epoll_wait` returns the batch, or fails otherwise than by a signal -/
  | epollWait (i : Thread) (batch : Option (List Event))
  /-- the next operation of `handle_` for `stop_handler_`, with the result of `epoll_ctl` -/
  | handle (i : Thread) (epollCtl : CallResult)
  /-- `handle_` for another handler -/
  | other (i : Thread) (result : OtherResult)
  /-- the end of the batch -/
  | finish (i : Thread)
  deriving DecidableEq, Repr

variable {Thread : Type*} [DecidableEq Thread]

/-- The worker is now as `worker`. -/
def State.put (s : State Thread) (i : Thread) (worker : Worker) : State Thread :=
  { s with workers := Function.update s.workers i worker }

/-- `StopPipeDescriptorHandler::read()`: when it takes a message from the pipe, it writes
another one. -/
def read (stopped : Bool) (pipe : Nat) : UInt64 :=
  if stopped then stopProcessing
  else if pipe = 0 then stopWriteHandle
  else stopProcessing ||| stopWriteHandle

/-- `StopPipeDescriptorHandler::write()` -/
def write : UInt64 := stopWriteHandle

/-- The result of the call that comes next in `handle_`. -/
def callResult (s : State Thread) (pc : HandlePc) (epollCtl : CallResult) : CallResult :=
  match pc with
  | .readSide => .returned (read s.stopped s.pipe)
  | .writeSide => .returned write
  | _ => epollCtl

/-- The worker after an operation of `handle_`: the event is dealt with, an exception ends
`process_`, or `handle_` goes on. -/
def Worker.after (worker : Worker) (thread : HandleThread) : Worker :=
  match thread.pc with
  | .out => ⟨.handling, worker.batch.tail, worker.stop || thread.stopProcessing, .initial⟩
  | .unwound => .at .loop
  | .nullDereference | .assertionFailed => .at .aborted
  | _ => { worker with thread := thread }

/-- An operation of `handle_` for `stop_handler_`. -/
def handleStop (s : State Thread) (i : Thread) (epollCtl : CallResult) : State Thread :=
  let worker := s.workers i
  let result := callResult s worker.thread.pc epollCtl
  let outcome := handleStep s.holder worker.thread result
  { s.put i (worker.after outcome.thread) with
    holder := outcome.holder
    armed := Process.armedBy s.armed outcome.effect result }

/-- `epoll_wait` can return the batch: the event of `stop_handler_` is in it once at most,
and only if epoll waits for the pipe to be readable and it is. -/
def Deliverable (s : State Thread) (batch : List Event) : Prop :=
  batch.count .stop = 0 ∨
    batch.count .stop = 1 ∧ s.armed.any (fun interest => interest.1) = true ∧ 0 < s.pipe

instance (s : State Thread) (batch : List Event) : Decidable (Deliverable s batch) :=
  inferInstanceAs (Decidable (_ ∨ _))

def step (s : State Thread) : Action Thread → Option (State Thread)
  | .stop => some { s with stopped := true, writing := s.writing + 1 }
  | .write =>
      if 0 < s.writing then some { s with writing := s.writing - 1, pipe := s.pipe + 1 } else none
  | .terminate i => some { s with terminating := Function.update s.terminating i true }
  | .enter i =>
      if (s.workers i).pc = .loop then
        some (s.put i (.at (if s.terminating i then .gone else .waiting)))
      else none
  | .epollWait i none =>
      if (s.workers i).pc = .waiting then some (s.put i (.at .loop)) else none
  | .epollWait i (some batch) =>
      if (s.workers i).pc = .waiting ∧ Deliverable s batch then
        -- `EPOLLONESHOT`: the event disarms the descriptor
        some { s.put i ⟨.handling, batch, false, .initial⟩ with
          armed := if batch.count .stop = 0 then s.armed else none }
      else none
  | .handle i epollCtl =>
      if (s.workers i).pc = .handling ∧ (s.workers i).batch.head? = some .stop then
        some (handleStop s i epollCtl)
      else none
  | .other i result =>
      if (s.workers i).pc = .handling ∧ (s.workers i).batch.head? = some .other then
        match result with
        | .returned stop =>
            some (s.put i ⟨.handling, (s.workers i).batch.tail, (s.workers i).stop || stop,
              .initial⟩)
        -- the exception goes through the loop over the events to the `catch` behind it
        | .threw => some (s.put i (.at .loop))
      else none
  | .finish i =>
      if (s.workers i).pc = .handling ∧ (s.workers i).batch = [] then
        some (s.put i (.at (if (s.workers i).stop then .loop else .waiting)))
      else none

/-- What a step does. -/
inductive Step (s : State Thread) : Action Thread → State Thread → Prop
  | stop : Step s .stop { s with stopped := true, writing := s.writing + 1 }
  | write (hwriting : 0 < s.writing) :
      Step s .write { s with writing := s.writing - 1, pipe := s.pipe + 1 }
  | terminate (i : Thread) :
      Step s (.terminate i) { s with terminating := Function.update s.terminating i true }
  | enter (i : Thread) (hpc : (s.workers i).pc = .loop) :
      Step s (.enter i) (s.put i (.at (if s.terminating i then .gone else .waiting)))
  | waitFailed (i : Thread) (hpc : (s.workers i).pc = .waiting) :
      Step s (.epollWait i none) (s.put i (.at .loop))
  | others (i : Thread) (batch : List Event) (hpc : (s.workers i).pc = .waiting)
      (hnone : batch.count .stop = 0) :
      Step s (.epollWait i (some batch)) (s.put i ⟨.handling, batch, false, .initial⟩)
  | delivered (i : Thread) (batch : List Event) (hpc : (s.workers i).pc = .waiting)
      (hone : batch.count .stop = 1) (harmed : s.armed.isSome = true) (hpipe : 0 < s.pipe) :
      Step s (.epollWait i (some batch))
        { s.put i ⟨.handling, batch, false, .initial⟩ with armed := none }
  | handle (i : Thread) (epollCtl : CallResult) (hpc : (s.workers i).pc = .handling)
      (hhead : (s.workers i).batch.head? = some .stop) :
      Step s (.handle i epollCtl) (handleStop s i epollCtl)
  | returned (i : Thread) (stop : Bool) (hpc : (s.workers i).pc = .handling)
      (hhead : (s.workers i).batch.head? = some .other) :
      Step s (.other i (.returned stop))
        (s.put i ⟨.handling, (s.workers i).batch.tail, (s.workers i).stop || stop, .initial⟩)
  | threw (i : Thread) (hpc : (s.workers i).pc = .handling)
      (hhead : (s.workers i).batch.head? = some .other) :
      Step s (.other i .threw) (s.put i (.at .loop))
  | finish (i : Thread) (hpc : (s.workers i).pc = .handling) (hbatch : (s.workers i).batch = []) :
      Step s (.finish i) (s.put i (.at (if (s.workers i).stop then .loop else .waiting)))

/-- `epoll_wait` returns a batch. -/
theorem step_epollWait {s t : State Thread} {i : Thread} {batch : List Event}
    (h : step s (.epollWait i (some batch)) = some t) : Step s (.epollWait i (some batch)) t := by
  simp only [step] at h
  split at h
  · rename_i hcond
    obtain ⟨hpc, hnone | ⟨hone, harmed, hpipe⟩⟩ := hcond
    · rw [if_pos hnone] at h
      obtain rfl := Option.some.inj h
      exact .others i batch hpc hnone
    · rw [if_neg (by omega)] at h
      obtain rfl := Option.some.inj h
      have hsome : s.armed.isSome = true := by
        cases hinterest : s.armed with
        | none => rw [hinterest] at harmed; cases harmed
        | some interest => rfl
      exact .delivered i batch hpc hone hsome hpipe
  · cases h

theorem step_cases {s t : State Thread} {a : Action Thread} (h : step s a = some t) :
    Step s a t := by
  cases a
  case stop =>
    obtain rfl := Option.some.inj h
    exact .stop
  case terminate i =>
    obtain rfl := Option.some.inj h
    exact .terminate i
  case epollWait i batch =>
    cases batch with
    | some batch => exact step_epollWait h
    | none =>
        simp only [step] at h
        split at h
        · rename_i hpc
          obtain rfl := Option.some.inj h
          exact .waitFailed i hpc
        · cases h
  case other i result =>
    simp only [step] at h
    split at h
    · rename_i hcond
      cases result <;> obtain rfl := Option.some.inj h
      · exact .returned i _ hcond.1 hcond.2
      · exact .threw i hcond.1 hcond.2
    · cases h
  all_goals
    simp only [step] at h
    split at h
  case write.isTrue hwriting =>
    obtain rfl := Option.some.inj h
    exact .write hwriting
  case enter.isTrue i hpc =>
    obtain rfl := Option.some.inj h
    exact .enter i hpc
  case handle.isTrue i epollCtl hcond =>
    obtain rfl := Option.some.inj h
    exact .handle i epollCtl hcond.1 hcond.2
  case finish.isTrue i hcond =>
    obtain rfl := Option.some.inj h
    exact .finish i hcond.1 hcond.2
  all_goals cases h

/-- The poller is constructed, and its workers are started. -/
def system (Thread : Type*) [DecidableEq Thread] :
    TransitionSystem (State Thread) (Action Thread) :=
  ⟨⟨false, 0, 0, .initial, some (true, true), fun _ => .at .loop, fun _ => false⟩, step⟩

/-! ## Where the stop event is -/

/-- The worker has the event and has not rearmed the descriptor since. -/
def Worker.pending (worker : Worker) : Nat :=
  if worker.thread.pc = .release then 0 else worker.batch.count .stop

/-- How often the stop event is in a place: `none` is epoll, which will report it. -/
def State.occurrences {Thread : Type*} (s : State Thread) : Option Thread → Nat
  | none => if s.armed.isSome then 1 else 0
  | some i => (s.workers i).pending

/-- The stop event is with epoll, or with one worker. -/
def Available {Thread : Type*} (s : State Thread) : Prop := Ledger.InOnePlace s.occurrences

/-- The stop event is not abandoned: no other handler throws while the event stands behind
its own in the batch, and the `epoll_ctl` that rearms the pipe does not fail. -/
def Kept {Thread : Type*} (s : State Thread) : Action Thread → Prop
  | .other i .threw => Event.stop ∉ (s.workers i).batch
  | .handle i epollCtl => (s.workers i).thread.pc = .rearm → epollCtl ≠ .threw
  | .other _ (.returned _) | .stop | .write | .terminate _ | .enter _ | .epollWait _ _
  | .finish _ => True

instance {Thread : Type*} (s : State Thread) : ∀ a, Decidable (Kept s a)
  | .other i .threw => inferInstanceAs (Decidable (Event.stop ∉ (s.workers i).batch))
  | .handle i epollCtl =>
      inferInstanceAs (Decidable ((s.workers i).thread.pc = .rearm → epollCtl ≠ .threw))
  | .other _ (.returned _) | .stop | .write | .terminate _ | .enter _ | .epollWait _ _
  | .finish _ => inferInstanceAs (Decidable True)

/-! ## What every step keeps -/

/-- The thread is counted in `handle_in_progress`. -/
def counted : HandlePc → Bool
  | .entered | .readSide | .applyRead _ | .writeSide | .applyWrite _ | .checkClosed | .finish
  | .epollDel | .stopped | .reset | .push | .erase | .leave => true
  | .out | .rearm | .release | .unwound | .nullDereference | .assertionFailed => false

def Worker.inside (worker : Worker) : Bool := counted worker.thread.pc

/-- `handle_` runs for `stop_handler_` behind `stop()`: it makes one pass, whose `read()` asks
to stop, and rearms the pipe. -/
def Stopping (thread : HandleThread) : Prop :=
  match thread.pc with
  | .out => thread = .initial
  | .entered | .readSide => thread.prevHandleInProgress = 0
  | .applyRead stateModify => stateModify = stopProcessing
  | .applyWrite stateModify => thread.stopProcessing = true ∧ stateModify = stopWriteHandle
  | .writeSide | .checkClosed => thread.stopProcessing = true
  | .leave => thread.stopProcessing = true ∧ thread.rearmFd = true
  | .rearm =>
      thread.stopProcessing = true ∧ thread.rearmFd = true ∧ thread.prevHandleInProgress = 1
  | .release => thread.stopProcessing = true ∧ thread.prevHandleInProgress = 1
  | .finish | .epollDel | .stopped | .reset | .push | .erase | .unwound | .nullDereference
  | .assertionFailed => False

/-- A worker that has got into no trouble. -/
structure Worker.Ok (worker : Worker) : Prop where
  thread : Stopping worker.thread
  head : worker.thread.pc ≠ .out → worker.batch.head? = some .stop
  once : worker.batch.count .stop ≤ 1
  outside : worker.pc ≠ .handling → worker.batch = [] ∧ worker.thread = .initial
  alive : worker.pc ≠ .aborted

/-- The holder of `stop_handler_` is never closed, and always wants to read. -/
structure Open (holder : DescriptorHandlerHolder) : Prop where
  handleRead : holder.flags.handleRead = true
  readClosed : holder.flags.readClosed = false
  writeClosed : holder.flags.writeClosed = false
  handler : holder.descriptorHandler = true
  unfinished : holder.handlingFinished = false

/-- What holds in every run. -/
structure Base {Thread : Type*} (s : State Thread) : Prop where
  workers : ∀ i, (s.workers i).Ok
  opened : Open s.holder
  counter : ∃ owner, Mutex.Held Worker.inside owner s.workers ∧
    s.holder.handleInProgress = if owner.isSome then 1 else 0
  readable : ∀ interest ∈ s.armed, interest.1 = true
  written : 0 < s.writing ∨ 0 < s.pipe → s.stopped = true
  got : ∀ i, Event.stop ∈ (s.workers i).batch → s.stopped = true

theorem Worker.ok_at {pc : WorkerPc} (h : pc ≠ .aborted) : (Worker.at pc).Ok :=
  ⟨rfl, fun hout => absurd rfl hout, Nat.zero_le _, fun _ => ⟨rfl, rfl⟩, h⟩

/-- A worker in front of an event. -/
theorem Worker.ok_batch {batch : List Event} {stop : Bool} (h : batch.count .stop ≤ 1) :
    Worker.Ok ⟨.handling, batch, stop, .initial⟩ :=
  ⟨rfl, fun hout => absurd rfl hout, h, fun hpc => absurd rfl hpc, by simp⟩

theorem Worker.Ok.pc_eq_release {worker : Worker} (hpending : worker.pending = 0)
    (hhead : worker.batch.head? = some .stop) : worker.thread.pc = .release := by
  unfold Worker.pending at hpending
  split at hpending
  · assumption
  · rw [List.count_eq_zero] at hpending
    exact absurd (List.mem_of_mem_head? hhead) hpending

/-- A batch with the stop event in front holds it nowhere else. -/
theorem Worker.Ok.count_tail {worker : Worker} (hok : worker.Ok)
    (hhead : worker.batch.head? = some .stop) : worker.batch.tail.count .stop = 0 := by
  have honce := hok.once
  obtain ⟨rest, hbatch⟩ : ∃ rest, worker.batch = .stop :: rest :=
    List.head?_eq_some_iff.mp hhead
  rw [hbatch] at honce ⊢
  simpa using honce

/-- What an operation of `handle_` for `stop_handler_` does to its worker, to the counter and
to epoll. -/
inductive Operation (s : State Thread) (i : Thread) (epollCtl : CallResult) :
    State Thread → Prop
  /-- it enters, stays inside, or goes behind the loop -/
  | moved (holder : DescriptorHandlerHolder) (thread : HandleThread) (hopen : Open holder)
      (hthread : Stopping thread) (hout : thread.pc ≠ .out)
      (hrelease : thread.pc ≠ .release)
      (hbefore : (s.workers i).thread.pc ≠ .rearm ∧ (s.workers i).thread.pc ≠ .release)
      (hcount : holder.handleInProgress = s.holder.handleInProgress +
        ((if counted thread.pc then 1 else 0) - if (s.workers i).inside then 1 else 0)) :
      Operation s i epollCtl
        { s.put i { s.workers i with thread := thread } with holder := holder }
  /-- it rearms the descriptor -/
  | rearmed (thread : HandleThread) (handleWrite : Bool) (hthread : Stopping thread)
      (hpc : thread.pc = .release) (hbefore : (s.workers i).thread.pc = .rearm)
      (hctl : epollCtl ≠ .threw) :
      Operation s i epollCtl
        { s.put i { s.workers i with thread := thread } with armed := some (true, handleWrite) }
  /-- `epoll_ctl` fails -/
  | failed (hbefore : (s.workers i).thread.pc = .rearm) (hctl : epollCtl = .threw) :
      Operation s i epollCtl (s.put i (.at .loop))
  /-- the event is dealt with, and its worker stops -/
  | done (hbefore : (s.workers i).thread.pc = .release) :
      Operation s i epollCtl (s.put i ⟨.handling, (s.workers i).batch.tail, true, .initial⟩)

section Steps

variable {s t : State Thread} {i : Thread}

/-- Behind `handle_` goes on the thread that does not leave it. -/
theorem Worker.after_eq {worker : Worker} {thread : HandleThread} (hthread : Stopping thread)
    (hout : thread.pc ≠ .out) : worker.after thread = { worker with thread := thread } := by
  unfold Stopping at hthread
  unfold Worker.after
  cases hpc : thread.pc <;> simp only [hpc] at hthread ⊢
  case out => exact absurd hpc hout

/-- An operation that does not rearm the descriptor. -/
theorem Operation.of_step {epollCtl : CallResult} {holder : DescriptorHandlerHolder}
    {thread : HandleThread} {effect : Option HandleEffect}
    (hstep : handleStep s.holder (s.workers i).thread
      (callResult s (s.workers i).thread.pc epollCtl) = ⟨holder, thread, effect⟩)
    (hopen : Open holder) (hthread : Stopping thread) (hout : thread.pc ≠ .out)
    (hrelease : thread.pc ≠ .release)
    (hbefore : (s.workers i).thread.pc ≠ .rearm ∧ (s.workers i).thread.pc ≠ .release)
    (heffect : effect = none ∨ effect = some .callRead ∨ effect = some .callWrite)
    (hcount : holder.handleInProgress = s.holder.handleInProgress +
      ((if counted thread.pc then 1 else 0) - if (s.workers i).inside then 1 else 0)) :
    Operation s i epollCtl (handleStop s i epollCtl) := by
  have heq : handleStop s i epollCtl =
      { s.put i { s.workers i with thread := thread } with holder := holder } := by
    unfold handleStop
    simp only [hstep, Worker.after_eq hthread hout]
    rcases heffect with rfl | rfl | rfl <;> rfl
  rw [heq]
  exact .moved holder thread hopen hthread hout hrelease hbefore hcount

/-- What `apply_state_modify_` makes of what `read()` returns behind `stop()`. -/
theorem apply_stopProcessing {holder : DescriptorHandlerHolder} (hopen : Open holder) :
    applyStateModify holder.flags stopProcessing = (holder.flags, true) := by
  obtain ⟨hread, hreadClosed, hwriteClosed, -, -⟩ := hopen
  generalize holder.flags = flags at hread hreadClosed hwriteClosed ⊢
  obtain ⟨handleRead, handleWrite, readClosed, writeClosed⟩ := flags
  subst hread hreadClosed hwriteClosed
  cases handleWrite <;> decide

/-- What it makes of what `write()` returns. -/
theorem apply_stopWriteHandle {holder : DescriptorHandlerHolder} (hopen : Open holder) :
    applyStateModify holder.flags stopWriteHandle = (⟨true, false, false, false⟩, false) := by
  obtain ⟨hread, hreadClosed, hwriteClosed, -, -⟩ := hopen
  generalize holder.flags = flags at hread hreadClosed hwriteClosed ⊢
  obtain ⟨handleRead, handleWrite, readClosed, writeClosed⟩ := flags
  subst hread hreadClosed hwriteClosed
  cases handleWrite <;> decide

section Operations

variable {epollCtl : CallResult}

/-- `handle_in_progress++` -/
theorem operation_out (hopen : Open s.holder) (hpc : (s.workers i).thread.pc = .out)
    (hzero : s.holder.handleInProgress = 0) :
    Operation s i epollCtl (handleStop s i epollCtl) := by
  have hstep : handleStep s.holder (s.workers i).thread
      (callResult s (s.workers i).thread.pc epollCtl) =
      ⟨{ s.holder with handleInProgress := 1 }, ⟨.entered, 0, false, false⟩, none⟩ := by
    simp [handleStep, hpc, hzero]
  refine .of_step hstep ?_ rfl (by simp) (by simp) (by simp [hpc]) (Or.inl rfl) ?_
  · exact ⟨hopen.handleRead, hopen.readClosed, hopen.writeClosed, hopen.handler, hopen.unfinished⟩
  · simp [Worker.inside, hpc, hzero, counted]

/-- The head of the loop. -/
theorem operation_entered (hopen : Open s.holder) (hpc : (s.workers i).thread.pc = .entered)
    (hprev : (s.workers i).thread.prevHandleInProgress = 0) :
    Operation s i epollCtl (handleStop s i epollCtl) := by
  have hstep : handleStep s.holder (s.workers i).thread
      (callResult s (s.workers i).thread.pc epollCtl) =
      ⟨s.holder, { (s.workers i).thread with pc := .readSide }, none⟩ := by
    simp [handleStep, hpc, hprev, hopen.unfinished, HandleThread.goto]
  refine .of_step hstep hopen hprev (by simp) (by simp) (by simp [hpc]) (Or.inl rfl) ?_
  simp [Worker.inside, hpc, counted]

/-- `read()` behind `stop()`. -/
theorem operation_readSide (hopen : Open s.holder) (hstopped : s.stopped = true)
    (hpc : (s.workers i).thread.pc = .readSide)
    (hprev : (s.workers i).thread.prevHandleInProgress = 0) :
    Operation s i epollCtl (handleStop s i epollCtl) := by
  have hstep : handleStep s.holder (s.workers i).thread
      (callResult s (s.workers i).thread.pc epollCtl) =
      ⟨s.holder, { (s.workers i).thread with pc := .applyRead stopProcessing },
        some .callRead⟩ := by
    simp [handleStep, hpc, hprev, hopen.handleRead, hopen.handler, callResult, read, hstopped,
      HandleThread.afterCall, HandleThread.goto]
  refine .of_step hstep hopen rfl (by simp) (by simp) (by simp [hpc]) (Or.inr (Or.inl rfl)) ?_
  simp [Worker.inside, hpc, counted]

theorem operation_applyRead (hopen : Open s.holder)
    (hpc : (s.workers i).thread.pc = .applyRead stopProcessing) :
    Operation s i epollCtl (handleStop s i epollCtl) := by
  have hstep : handleStep s.holder (s.workers i).thread
      (callResult s (s.workers i).thread.pc epollCtl) =
      ⟨s.holder, { (s.workers i).thread with pc := .writeSide, stopProcessing := true },
        none⟩ := by
    simp [handleStep, hpc, applyToHolder, apply_stopProcessing hopen]
  refine .of_step hstep hopen rfl (by simp) (by simp) (by simp [hpc]) (Or.inl rfl) ?_
  simp [Worker.inside, hpc, counted]

/-- `write()` is called the first time. -/
theorem operation_writeSide (hopen : Open s.holder) (hpc : (s.workers i).thread.pc = .writeSide)
    (hstop : (s.workers i).thread.stopProcessing = true) :
    Operation s i epollCtl (handleStop s i epollCtl) := by
  cases hwrite : s.holder.flags.handleWrite with
  | true =>
      have hstep : handleStep s.holder (s.workers i).thread
          (callResult s (s.workers i).thread.pc epollCtl) =
          ⟨s.holder, { (s.workers i).thread with pc := .applyWrite stopWriteHandle },
            some .callWrite⟩ := by
        simp [handleStep, hpc, hwrite, hopen.handler, callResult, write,
          HandleThread.afterCall, HandleThread.goto]
      refine .of_step hstep hopen ⟨hstop, rfl⟩ (by simp) (by simp) (by simp [hpc])
        (Or.inr (Or.inr rfl)) ?_
      simp [Worker.inside, hpc, counted]
  | false =>
      have hstep : handleStep s.holder (s.workers i).thread
          (callResult s (s.workers i).thread.pc epollCtl) =
          ⟨s.holder, { (s.workers i).thread with pc := .checkClosed }, none⟩ := by
        simp [handleStep, hpc, hwrite, HandleThread.goto]
      refine .of_step hstep hopen hstop (by simp) (by simp) (by simp [hpc]) (Or.inl rfl) ?_
      simp [Worker.inside, hpc, counted]

theorem operation_applyWrite (hopen : Open s.holder)
    (hpc : (s.workers i).thread.pc = .applyWrite stopWriteHandle)
    (hstop : (s.workers i).thread.stopProcessing = true) :
    Operation s i epollCtl (handleStop s i epollCtl) := by
  have hstep : handleStep s.holder (s.workers i).thread
      (callResult s (s.workers i).thread.pc epollCtl) =
      ⟨{ s.holder with flags := ⟨true, false, false, false⟩ },
        { (s.workers i).thread with pc := .checkClosed, stopProcessing := true }, none⟩ := by
    simp [handleStep, hpc, applyToHolder, apply_stopWriteHandle hopen, hstop]
  refine .of_step hstep ⟨rfl, rfl, rfl, hopen.handler, hopen.unfinished⟩ rfl (by simp) (by simp)
    (by simp [hpc]) (Or.inl rfl) ?_
  simp [Worker.inside, hpc, counted]

/-- Neither side is closed. -/
theorem operation_checkClosed (hopen : Open s.holder)
    (hpc : (s.workers i).thread.pc = .checkClosed)
    (hstop : (s.workers i).thread.stopProcessing = true) :
    Operation s i epollCtl (handleStop s i epollCtl) := by
  have hstep : handleStep s.holder (s.workers i).thread
      (callResult s (s.workers i).thread.pc epollCtl) =
      ⟨s.holder, { (s.workers i).thread with pc := .leave, rearmFd := true }, none⟩ := by
    simp [handleStep, hpc, hopen.readClosed]
  refine .of_step hstep hopen ⟨hstop, rfl⟩ (by simp) (by simp) (by simp [hpc]) (Or.inl rfl) ?_
  simp [Worker.inside, hpc, counted]

/-- `handle_in_progress--` -/
theorem operation_leave (hopen : Open s.holder) (hpc : (s.workers i).thread.pc = .leave)
    (hthread : (s.workers i).thread.stopProcessing = true ∧ (s.workers i).thread.rearmFd = true)
    (hone : s.holder.handleInProgress = 1) :
    Operation s i epollCtl (handleStop s i epollCtl) := by
  have hstep : handleStep s.holder (s.workers i).thread
      (callResult s (s.workers i).thread.pc epollCtl) =
      ⟨{ s.holder with handleInProgress := 0 },
        { (s.workers i).thread with pc := .rearm, prevHandleInProgress := 1 }, none⟩ := by
    simp [handleStep, hpc, hone]
  refine .of_step hstep ?_ ⟨hthread.1, hthread.2, rfl⟩ (by simp) (by simp) (by simp [hpc])
    (Or.inl rfl) ?_
  · exact ⟨hopen.handleRead, hopen.readClosed, hopen.writeClosed, hopen.handler, hopen.unfinished⟩
  · simp [Worker.inside, hpc, hone, counted]

/-- `epoll_ctl` rearms the descriptor, or fails. -/
theorem operation_rearm (hopen : Open s.holder) (hpc : (s.workers i).thread.pc = .rearm)
    (hstop : (s.workers i).thread.stopProcessing = true)
    (hrearm : (s.workers i).thread.rearmFd = true)
    (hprev : (s.workers i).thread.prevHandleInProgress = 1) :
    Operation s i epollCtl (handleStop s i epollCtl) := by
  cases epollCtl with
  | returned stateModify =>
      have heq : handleStop s i (.returned stateModify) =
          { s.put i { s.workers i with thread := { (s.workers i).thread with pc := .release } }
            with armed := some (true, s.holder.flags.handleWrite) } := by
        simp [handleStop, handleStep, hpc, hrearm, hopen.handler, callResult,
          HandleThread.afterCall, HandleThread.goto, Worker.after, Process.armedBy,
          hopen.handleRead]
        rfl
      rw [heq]
      exact .rearmed _ _ ⟨hstop, hprev⟩ rfl hpc (by simp)
  | threw =>
      have heq : handleStop s i .threw = s.put i (.at .loop) := by
        simp [handleStop, handleStep, hpc, hrearm, hopen.handler, callResult,
          HandleThread.afterCall, HandleThread.goto, Worker.after, Process.armedBy]
        rfl
      rw [heq]
      exact .failed hpc rfl

/-- `handle_` returns. -/
theorem operation_release (hpc : (s.workers i).thread.pc = .release)
    (hstop : (s.workers i).thread.stopProcessing = true)
    (hprev : (s.workers i).thread.prevHandleInProgress = 1) :
    Operation s i epollCtl (handleStop s i epollCtl) := by
  have heq : handleStop s i epollCtl =
      s.put i ⟨.handling, (s.workers i).batch.tail, true, .initial⟩ := by
    simp [handleStop, handleStep, hpc, hprev, callResult, HandleThread.goto, Worker.after,
      Process.armedBy, hstop]
    rfl
  rw [heq]
  exact .done hpc

end Operations

/-- The next operation of a worker that handles the stop event. -/
theorem operation (hok : (s.workers i).Ok) (hopen : Open s.holder) (hstopped : s.stopped = true)
    (hout : (s.workers i).thread.pc = .out → s.holder.handleInProgress = 0)
    (hinside : (s.workers i).inside = true → s.holder.handleInProgress = 1)
    (epollCtl : CallResult) : Operation s i epollCtl (handleStop s i epollCtl) := by
  have hthread := hok.thread
  unfold Stopping at hthread
  cases hpc : (s.workers i).thread.pc <;> simp only [hpc] at hthread
  case out => exact operation_out hopen hpc (hout hpc)
  case entered => exact operation_entered hopen hpc hthread
  case readSide => exact operation_readSide hopen hstopped hpc hthread
  case applyRead stateModify => exact operation_applyRead hopen (hthread ▸ hpc)
  case writeSide => exact operation_writeSide hopen hpc hthread
  case applyWrite stateModify => exact operation_applyWrite hopen (hthread.2 ▸ hpc) hthread.1
  case checkClosed => exact operation_checkClosed hopen hpc hthread
  case leave =>
    exact operation_leave hopen hpc hthread (hinside (by rw [Worker.inside, hpc]; rfl))
  case rearm => exact operation_rearm hopen hpc hthread.1 hthread.2.1 hthread.2.2
  case release => exact operation_release hpc hthread.1 hthread.2

/-! ## One step and the ledger -/

@[simp] theorem put_workers (worker : Worker) :
    (s.put i worker).workers = Function.update s.workers i worker := rfl

/-- Only the place of one worker changes. -/
theorem occurrences_put (worker : Worker) (place : Option Thread) :
    (s.put i worker).occurrences place =
      if place = some i then worker.pending else s.occurrences place := by
  cases place with
  | none => rfl
  | some j =>
      by_cases hji : j = i
      · subst hji
        simp [State.occurrences]
      · simp [State.occurrences, hji]

theorem occurrences_put_of_eq {worker : Worker} (h : worker.pending = (s.workers i).pending) :
    (s.put i worker).occurrences = s.occurrences := by
  funext place
  rw [occurrences_put]
  split
  · rename_i hplace
    rw [hplace, h]
    rfl
  · rfl

/-- A step of one worker that is not inside the handler. -/
theorem Base.put (hs : Base s) {worker : Worker} (hok : worker.Ok)
    (hinside : worker.inside = (s.workers i).inside)
    (hgot : Event.stop ∈ worker.batch → s.stopped = true) : Base (s.put i worker) where
  workers := (Function.forall_update_iff s.workers fun _ worker => worker.Ok).mpr
    ⟨hok, fun j _ => hs.workers j⟩
  opened := hs.opened
  counter := by
    obtain ⟨owner, hheld, hcount⟩ := hs.counter
    exact ⟨owner, hheld.keep hinside, hcount⟩
  readable := hs.readable
  written := hs.written
  got := (Function.forall_update_iff s.workers
    fun _ (worker : Worker) => Event.stop ∈ worker.batch → s.stopped = true).mpr
      ⟨hgot, fun j _ => hs.got j⟩

theorem Worker.inside_at (pc : WorkerPc) : (Worker.at pc).inside = false := rfl

theorem Worker.pending_at (pc : WorkerPc) : (Worker.at pc).pending = 0 := rfl

theorem Worker.pending_batch (batch : List Event) (stop : Bool) :
    Worker.pending ⟨.handling, batch, stop, .initial⟩ = batch.count .stop := rfl

/-- Outside of the loop over the events a worker has nothing. -/
theorem Worker.Ok.idle {worker : Worker} (hok : worker.Ok) (hpc : worker.pc ≠ .handling) :
    worker.inside = false ∧ worker.pending = 0 := by
  obtain ⟨hbatch, hthread⟩ := hok.outside hpc
  simp [Worker.inside, Worker.pending, hbatch, hthread, HandleThread.initial, counted]

/-- In front of the event of another handler, or of no event, it is not in `handle_` for
`stop_handler_`. -/
theorem Worker.Ok.between {worker : Worker} (hok : worker.Ok)
    (hhead : worker.batch.head? ≠ some .stop) :
    worker.inside = false ∧ worker.pending = worker.batch.count .stop := by
  have hout : worker.thread.pc = .out := by
    by_contra hne
    exact hhead (hok.head hne)
  simp [Worker.inside, Worker.pending, hout, counted]

/-- A worker in `handle_` for `stop_handler_` has the event. -/
theorem Worker.Ok.pending_of_inside {worker : Worker} (hok : worker.Ok)
    (hinside : worker.inside = true) : worker.pending ≠ 0 := by
  have hout : worker.thread.pc ≠ .out := by
    intro hpc
    simp [Worker.inside, hpc, counted] at hinside
  intro hzero
  have hrelease := Worker.Ok.pc_eq_release hzero (hok.head hout)
  simp [Worker.inside, hrelease, counted] at hinside

omit [DecidableEq Thread] in
/-- Beside a worker that has the event nobody is in `handle_` for `stop_handler_`. -/
theorem Base.others_outside (hs : Base s)
    (hone : Ledger.InOnePlace s.occurrences ∨ Ledger.Nowhere s.occurrences)
    (hpending : (s.workers i).pending ≠ 0) :
    ∀ j, j ≠ i → (s.workers j).inside = false := by
  intro j hji
  by_contra hinside
  rw [Bool.not_eq_false] at hinside
  have hj := (hs.workers j).pending_of_inside hinside
  rcases hone with hone | hnowhere
  · exact hj (hone.eq_zero_of_ne (p := some i) (q := some j) hpending (by simpa using hji))
  · exact hpending (hnowhere (some i))

/-- The counter counts the one worker that can be inside. -/
theorem Base.counter_eq (hs : Base s)
    (hothers : ∀ j, j ≠ i → (s.workers j).inside = false) :
    s.holder.handleInProgress = if (s.workers i).inside then 1 else 0 := by
  obtain ⟨owner, hheld, hcount⟩ := hs.counter
  rw [hcount]
  cases hinside : (s.workers i).inside with
  | true => rw [(hheld i).mpr hinside]; rfl
  | false =>
      have hnone : owner = none := by
        cases owner with
        | none => rfl
        | some j =>
            have hj := (hheld j).mp rfl
            by_cases hji : j = i
            · rw [hji, hinside] at hj
              cases hj
            · rw [hothers j hji] at hj
              cases hj
      rw [hnone]
      rfl

/-- The operations of `handle_` are those of `Operation`. -/
theorem Base.operation (hs : Base s)
    (hone : Ledger.InOnePlace s.occurrences ∨ Ledger.Nowhere s.occurrences)
    (hhead : (s.workers i).batch.head? = some .stop) (epollCtl : CallResult) :
    Operation s i epollCtl (handleStop s i epollCtl) := by
  have hstopped := hs.got i (List.mem_of_mem_head? hhead)
  by_cases hrelease : (s.workers i).thread.pc = .release
  · refine StopPipe.operation (hs.workers i) hs.opened hstopped (fun hout => ?_)
      (fun hinside => ?_) epollCtl
    · rw [hout] at hrelease
      cases hrelease
    · simp [Worker.inside, hrelease, counted] at hinside
  · have hpending : (s.workers i).pending ≠ 0 := fun hzero =>
      hrelease (Worker.Ok.pc_eq_release hzero hhead)
    have hcount := hs.counter_eq (hs.others_outside hone hpending)
    refine StopPipe.operation (hs.workers i) hs.opened hstopped (fun hout => ?_)
      (fun hinside => ?_) epollCtl
    · rw [hcount, if_neg (by simp [Worker.inside, hout, counted])]
    · rw [hcount, if_pos hinside]

/-- A worker that gives up its batch loses what is in it. -/
theorem removed_at_loop (s : State Thread) (i : Thread) :
    Ledger.Removed s.occurrences (s.put i (.at .loop)).occurrences (some i) := by
  refine ⟨?_, fun place hplace => ?_⟩
  · rw [occurrences_put, if_pos rfl, Worker.pending_at]
  · rw [occurrences_put, if_neg hplace]

/-- An operation of `handle_` for `stop_handler_`. -/
theorem Base.handle (hs : Base s)
    (hone : Ledger.InOnePlace s.occurrences ∨ Ledger.Nowhere s.occurrences)
    (hpc : (s.workers i).pc = .handling) (hhead : (s.workers i).batch.head? = some .stop)
    {epollCtl : CallResult} (h : Operation s i epollCtl t) :
    Base t ∧ HandsOn State.occurrences Kept s (.handle i epollCtl) t := by
  have hok := hs.workers i
  have hpending : (s.workers i).thread.pc ≠ .release → (s.workers i).pending ≠ 0 :=
    fun hne hzero => hne (Worker.Ok.pc_eq_release hzero hhead)
  cases h with
  | moved holder thread hopen hthread hout hrelease hbefore hcount =>
      have hworker : Worker.Ok { s.workers i with thread := thread } :=
        ⟨hthread, fun _ => hhead, hok.once, fun hne => absurd hpc hne, hok.alive⟩
      have hothers := hs.others_outside hone (hpending hbefore.2)
      have hsame : (s.put i { s.workers i with thread := thread }).occurrences =
          s.occurrences := by
        apply occurrences_put_of_eq
        simp [Worker.pending, hrelease, hbefore.2]
      refine ⟨⟨?_, hopen, ?_, hs.readable, hs.written, ?_⟩, Or.inl ⟨?_, Or.inl hsame⟩⟩
      · exact (Function.forall_update_iff s.workers fun _ worker => worker.Ok).mpr
          ⟨hworker, fun j _ => hs.workers j⟩
      · refine ⟨_, Mutex.held_update hothers { s.workers i with thread := thread }, ?_⟩
        rw [hcount, hs.counter_eq hothers]
        change _ = if (if counted thread.pc then some i else none).isSome then 1 else 0
        cases (s.workers i).inside <;> cases counted thread.pc <;> rfl
      · exact (Function.forall_update_iff s.workers
          fun _ (worker : Worker) => Event.stop ∈ worker.batch → s.stopped = true).mpr
            ⟨hs.got i, fun j _ => hs.got j⟩
      · exact fun hrearm => absurd hrearm hbefore.1
  | rearmed thread handleWrite hthread hafter hbefore hctl =>
      have hrelease : (s.workers i).thread.pc ≠ .release := by simp [hbefore]
      have hworker : Worker.Ok { s.workers i with thread := thread } :=
        ⟨hthread, fun _ => hhead, hok.once, fun hne => absurd hpc hne, hok.alive⟩
      have hput : Base (s.put i { s.workers i with thread := thread }) :=
        hs.put hworker (by simp [Worker.inside, hafter, hbefore, counted]) (hs.got i)
      refine ⟨⟨hput.workers, hput.opened, hput.counter, ?_, hput.written, hput.got⟩,
        Or.inl ⟨fun _ => hctl, Or.inr ⟨some i, none, by simp, ?_⟩⟩⟩
      · intro interest hinterest
        obtain rfl := Option.some.inj hinterest
        rfl
      · have hhas := hpending hrelease
        have hcount : (s.workers i).pending = (s.workers i).batch.count .stop := by
          simp [Worker.pending, hrelease]
        have honce := hok.once
        have harmed : s.occurrences none = 0 := by
          rcases hone with hone | hnowhere
          · exact hone.eq_zero_of_ne (p := some i) hhas (by simp)
          · exact hnowhere none
        refine ⟨?_, fun place hplace hnone => ?_⟩
        · change Worker.pending _ + 1 = (s.workers i).pending + s.occurrences none
          have hzero : Worker.pending { s.workers i with thread := thread } = 0 := by
            simp [Worker.pending, hafter]
          simp only [put_workers, Function.update_self, hzero]
          omega
        · obtain ⟨j, rfl⟩ := Option.ne_none_iff_exists'.mp hnone
          have hji : j ≠ i := by simpa using hplace
          simp [State.occurrences, hji]
  | failed hbefore hctl =>
      have hrelease : (s.workers i).thread.pc ≠ .release := by simp [hbefore]
      refine ⟨hs.put (Worker.ok_at (by simp)) ?_ (by simp [Worker.at]), Or.inr ⟨?_, some i, ?_, ?_⟩⟩
      · simp [Worker.inside, Worker.at, hbefore, counted, HandleThread.initial]
      · exact fun hkept => hkept hbefore hctl
      · exact hpending hrelease
      · exact removed_at_loop s i
  | done hbefore =>
      have htail := hok.count_tail hhead
      refine ⟨hs.put (Worker.ok_batch (by omega)) ?_ ?_, Or.inl ⟨?_, Or.inl ?_⟩⟩
      · simp [Worker.inside, hbefore, counted, HandleThread.initial]
      · intro hmem
        exact absurd htail (List.count_pos_iff.mpr hmem).ne'
      · intro hrearm
        rw [hbefore] at hrearm
        cases hrearm
      · apply occurrences_put_of_eq
        rw [Worker.pending_batch, htail, Worker.pending, if_pos hbefore]

/-- The event of `stop_handler_` is delivered. -/
theorem moved_epollWait {batch : List Event} (hidle : (s.workers i).pending = 0)
    (hone : batch.count .stop = 1) (harmed : s.armed.isSome = true) :
    Ledger.Moved s.occurrences
      { s.put i ⟨.handling, batch, false, .initial⟩ with armed := none }.occurrences
      none (some i) := by
  refine ⟨?_, fun place hnone hplace => ?_⟩
  · change 0 + Worker.pending _ = (if s.armed.isSome then 1 else 0) + (s.workers i).pending
    rw [put_workers, Function.update_self, Worker.pending_batch, hone, harmed, hidle]
    rfl
  · obtain ⟨j, rfl⟩ := Option.ne_none_iff_exists'.mp hnone
    have hji : j ≠ i := by simpa using hplace
    simp [State.occurrences, hji]

/-- A worker that has nothing goes on to a place where it has nothing. -/
theorem Base.goTo (hs : Base s) {a : Action Thread} {pc : WorkerPc} (hkept : Kept s a)
    (hinside : (s.workers i).inside = false) (hpending : (s.workers i).pending = 0)
    (hpc : pc ≠ .aborted) :
    Base (s.put i (.at pc)) ∧ HandsOn State.occurrences Kept s a (s.put i (.at pc)) :=
  ⟨hs.put (Worker.ok_at hpc) hinside.symm (by simp [Worker.at]),
    Or.inl ⟨hkept, Or.inl (occurrences_put_of_eq hpending.symm)⟩⟩

/-- A worker gets a batch without the stop event. -/
theorem Base.others (hs : Base s) {batch : List Event} (hpc : (s.workers i).pc = .waiting)
    (hnone : batch.count .stop = 0) :
    Base (s.put i ⟨.handling, batch, false, .initial⟩) ∧
      HandsOn State.occurrences Kept s (.epollWait i (some batch))
        (s.put i ⟨.handling, batch, false, .initial⟩) := by
  obtain ⟨hinside, hpending⟩ := (hs.workers i).idle (by simp [hpc])
  refine ⟨hs.put (Worker.ok_batch (by omega)) hinside.symm fun hmem =>
    absurd hnone (List.count_pos_iff.mpr hmem).ne',
    Or.inl ⟨trivial, Or.inl (occurrences_put_of_eq ?_)⟩⟩
  rw [Worker.pending_batch, hnone, hpending]

/-- A worker gets the stop event. -/
theorem Base.delivered (hs : Base s) {batch : List Event} (hpc : (s.workers i).pc = .waiting)
    (hone : batch.count .stop = 1) (harmed : s.armed.isSome = true) (hpipe : 0 < s.pipe) :
    Base { s.put i ⟨.handling, batch, false, .initial⟩ with armed := none } ∧
      HandsOn State.occurrences Kept s (.epollWait i (some batch))
        { s.put i ⟨.handling, batch, false, .initial⟩ with armed := none } := by
  obtain ⟨hinside, hpending⟩ := (hs.workers i).idle (by simp [hpc])
  have hworker : Worker.Ok ⟨.handling, batch, false, .initial⟩ := Worker.ok_batch hone.le
  have hput := hs.put hworker hinside.symm fun _ => hs.written (Or.inr hpipe)
  exact ⟨⟨hput.workers, hput.opened, hput.counter, by simp, hput.written, hput.got⟩,
    Or.inl ⟨trivial, Or.inr ⟨none, some i, by simp, moved_epollWait hpending hone harmed⟩⟩⟩

/-- The event of another handler is dealt with. -/
theorem Base.returned (hs : Base s) (hhead : (s.workers i).batch.head? = some .other)
    (stop : Bool) :
    let worker := ⟨.handling, (s.workers i).batch.tail, (s.workers i).stop || stop, .initial⟩
    Base (s.put i worker) ∧
      HandsOn State.occurrences Kept s (.other i (.returned stop)) (s.put i worker) := by
  obtain ⟨hinside, hpending⟩ := (hs.workers i).between (by simp [hhead])
  obtain ⟨rest, hbatch⟩ := List.head?_eq_some_iff.mp hhead
  have honce := (hs.workers i).once
  have hgot := hs.got i
  rw [hbatch] at honce hpending hgot
  simp only [List.count_cons_of_ne (show Event.other ≠ .stop by decide)] at honce hpending
  simp only [hbatch, List.tail_cons]
  refine ⟨hs.put (Worker.ok_batch honce) hinside.symm
    fun hmem => hgot (List.mem_cons_of_mem _ hmem),
    Or.inl ⟨trivial, Or.inl (occurrences_put_of_eq ?_)⟩⟩
  rw [Worker.pending_batch, hpending]

/-- Another handler throws, in front of the stop event or not. -/
theorem Base.threw (hs : Base s) (hhead : (s.workers i).batch.head? = some .other) :
    Base (s.put i (.at .loop)) ∧
      HandsOn State.occurrences Kept s (.other i .threw) (s.put i (.at .loop)) := by
  obtain ⟨hinside, hpending⟩ := (hs.workers i).between (by simp [hhead])
  by_cases hmem : Event.stop ∈ (s.workers i).batch
  · refine ⟨hs.put (Worker.ok_at (by simp)) hinside.symm (by simp [Worker.at]),
      Or.inr ⟨fun hkept => hkept hmem, some i, ?_, removed_at_loop s i⟩⟩
    change (s.workers i).pending ≠ 0
    rw [hpending]
    exact (List.count_pos_iff.mpr hmem).ne'
  · exact hs.goTo hmem hinside (hpending.trans (List.count_eq_zero.mpr hmem)) (by simp)

/-- Every step keeps the base, and does to the ledger what `Kept` says. -/
theorem Base.step {a : Action Thread} (hs : Base s)
    (hone : Ledger.InOnePlace s.occurrences ∨ Ledger.Nowhere s.occurrences)
    (h : StopPipe.step s a = some t) : Base t ∧ HandsOn State.occurrences Kept s a t := by
  cases step_cases h with
  | stop =>
      exact ⟨⟨hs.workers, hs.opened, hs.counter, hs.readable, fun _ => rfl, fun _ _ => rfl⟩,
        Or.inl ⟨trivial, Or.inl rfl⟩⟩
  | write hwriting =>
      exact ⟨⟨hs.workers, hs.opened, hs.counter, hs.readable,
        fun _ => hs.written (Or.inl hwriting), hs.got⟩, Or.inl ⟨trivial, Or.inl rfl⟩⟩
  | terminate i =>
      exact ⟨⟨hs.workers, hs.opened, hs.counter, hs.readable, hs.written, hs.got⟩,
        Or.inl ⟨trivial, Or.inl rfl⟩⟩
  | enter i hpc =>
      obtain ⟨hinside, hpending⟩ := (hs.workers i).idle (by simp [hpc])
      exact hs.goTo trivial hinside hpending (by split <;> simp)
  | waitFailed i hpc =>
      obtain ⟨hinside, hpending⟩ := (hs.workers i).idle (by simp [hpc])
      exact hs.goTo trivial hinside hpending (by simp)
  | others i batch hpc hnone => exact hs.others hpc hnone
  | delivered i batch hpc hcount harmed hpipe => exact hs.delivered hpc hcount harmed hpipe
  | handle i epollCtl hpc hhead => exact hs.handle hone hpc hhead (hs.operation hone hhead epollCtl)
  | returned i stop hpc hhead => exact hs.returned hhead stop
  | threw i hpc hhead => exact hs.threw hhead
  | finish i hpc hbatch =>
      obtain ⟨hinside, hpending⟩ := (hs.workers i).between (by simp [hbatch])
      rw [hbatch] at hpending
      exact hs.goTo trivial hinside hpending (by split <;> simp)

end Steps

/-! ## Runs -/

theorem base_init (Thread : Type*) [DecidableEq Thread] : Base (system Thread).init where
  workers := fun _ => Worker.ok_at (by simp)
  opened := ⟨rfl, rfl, rfl, rfl, rfl⟩
  counter := ⟨none, fun _ => by simp [system, Worker.inside_at], rfl⟩
  readable := by simp [system]
  written := by simp [system]
  got := by simp [system, Worker.at]

theorem inOnePlace_init (Thread : Type*) [DecidableEq Thread] :
    Ledger.InOnePlace (system Thread).init.occurrences := by
  refine ⟨none, rfl, fun place hplace => ?_⟩
  obtain ⟨i, rfl⟩ := Option.ne_none_iff_exists'.mp hplace
  rfl

/-- The stop event is where it belongs. -/
def Good {Thread : Type*} (s : State Thread) : Prop := Base s ∧ Ledger.InOnePlace s.occurrences

theorem Good.step {s t : State Thread} {a : Action Thread} (hs : Good s) (hkept : Kept s a)
    (h : StopPipe.step s a = some t) : Good t := by
  obtain ⟨hbase, hchange⟩ := hs.1.step (Or.inl hs.2) h
  exact ⟨hbase, hchange.inOnePlace hkept hs.2⟩

/-- The worker gets the stop event. -/
def deliversTo (i : Thread) : Action Thread → Bool
  | .epollWait j (some batch) => decide (j = i) && decide (Event.stop ∈ batch)
  | .epollWait _ none | .stop | .write | .terminate _ | .enter _ | .handle _ _ | .other _ _
  | .finish _ => false

/-- While the stop event is nowhere no worker gets it. -/
theorem not_deliversTo_of_nowhere {s t : State Thread} {a : Action Thread}
    (hnone : Ledger.Nowhere s.occurrences) (h : step s a = some t) (i : Thread) :
    deliversTo i a = false := by
  cases step_cases h with
  | others j batch hpc hcount =>
      have hmem : Event.stop ∉ batch := List.count_eq_zero.mp hcount
      simp [deliversTo, hmem]
  | delivered j batch hpc hcount harmed =>
      have hzero : s.occurrences none = 0 := hnone none
      simp [State.occurrences, harmed] at hzero
  | _ => rfl

/-- **The stop event is not lost.**  At the end of every run epoll has the event that
tells the workers to stop, or one worker has it, exactly when no step has abandoned it.
Once it is abandoned nobody has it and no worker ever gets it again, however the run goes on. -/
theorem available_iff_kept {t : State Thread} {actions : List (Action Thread)}
    (hrun : (system Thread).run (system Thread).init actions = some t) :
    (Available t ↔ Meets (system Thread) Kept (system Thread).init actions) ∧
      (¬Available t → ∀ more u, (system Thread).run t more = some u →
        Ledger.Nowhere u.occurrences ∧ ∀ a ∈ more, ∀ i, deliversTo i a = false) := by
  have hstep : ∀ (s : State Thread) a t, Base s →
      Ledger.InOnePlace s.occurrences ∨ Ledger.Nowhere s.occurrences →
      (system Thread).step s a = some t → Base t ∧ HandsOn State.occurrences Kept s a t :=
    fun _ _ _ hs hone h => hs.step hone h
  have hbase := base_init Thread
  have hinit := inOnePlace_init Thread
  refine ⟨inOnePlace_iff_meets hstep hbase hinit hrun, fun hnot more u hmore => ?_⟩
  obtain ⟨-, -, hend⟩ | ⟨-, hend, hnone⟩ := token_of_run hstep hbase hinit hrun
  · exact absurd hend hnot
  exact nowhere_of_run hstep (fun _ _ _ hnone h => not_deliversTo_of_nowhere hnone h) hend
    hnone hmore

/-- The event of another handler stands in front of the stop event, and that handler
throws. -/
def abandoned : List (Action Bool) :=
  [.enter false, .enter true, .stop, .write, .terminate false, .terminate true,
    .epollWait false (some [.other, .stop]), .other false .threw]

theorem available_iff_kept_abandoned :
    ∃ t, (system Bool).run (system Bool).init abandoned = some t ∧
      (t.workers true).pc = .waiting ∧ ¬Available t ∧
      ∀ more u, (system Bool).run t more = some u → ∀ a ∈ more, deliversTo true a = false := by
  have hend : ((system Bool).run (system Bool).init abandoned).map
      (fun s => (s.workers true).pc) = some .waiting := by
    decide +kernel
  obtain ⟨t, hrun, hpc⟩ := Option.map_eq_some_iff.mp hend
  obtain ⟨hkept, hnever⟩ := available_iff_kept hrun
  have hnot : ¬Available t := by
    rw [hkept]
    decide +kernel
  exact ⟨t, hrun, hpc, hnot, fun more u hmore a ha => (hnever hnot more u hmore).2 a ha true⟩

/-! ## The workers leave -/

/-- The worker does not come back to `epoll_wait` once it is told to terminate. -/
def Worker.leaving (worker : Worker) : Bool :=
  match worker.pc with
  | .loop | .gone => true
  | .handling => worker.stop || decide (Event.stop ∈ worker.batch)
  | .waiting | .aborted => false

/-- How often the worker may still get the stop event. -/
def Worker.remaining (worker : Worker) : Nat := if worker.leaving then 0 else 1

section Shutdown

variable {s t : State Thread} {i j : Thread}

/-- A step of another worker. -/
theorem remaining_put_of_ne {worker : Worker} (h : i ≠ j) :
    ((s.put j worker).workers i).remaining = (s.workers i).remaining := by
  rw [put_workers, Function.update_of_ne h]

theorem Worker.remaining_of_leaving {worker : Worker} (h : worker.leaving = true) :
    worker.remaining = 0 := if_pos h

/-- Before an event of another handler and behind it. -/
theorem Worker.remaining_tail {worker : Worker} (hpc : worker.pc = .handling)
    (hhead : worker.batch.head? = some .other) (stop : Bool) :
    Worker.remaining ⟨.handling, worker.batch.tail, worker.stop || stop, .initial⟩ ≤
      worker.remaining := by
  obtain ⟨rest, hbatch⟩ := List.head?_eq_some_iff.mp hhead
  unfold Worker.remaining
  by_cases hleaving : worker.leaving = true
  · rw [if_pos hleaving, if_pos]
    simp only [Worker.leaving, hpc, hbatch, List.tail_cons, Bool.or_eq_true, decide_eq_true_eq,
      List.mem_cons, reduceCtorEq, false_or] at hleaving ⊢
    rcases hleaving with hstop | hmem
    · exact Or.inl (Or.inl hstop)
    · exact Or.inr hmem
  · rw [if_neg hleaving]
    split <;> decide

/-- An operation of `handle_` for `stop_handler_` leaves its worker on its way out. -/
theorem Operation.leaving {epollCtl : CallResult} (h : Operation s i epollCtl t)
    (hpc : (s.workers i).pc = .handling) (hhead : (s.workers i).batch.head? = some .stop) :
    (t.workers i).leaving = true ∧ ∀ j, j ≠ i → t.workers j = s.workers j := by
  have hmem := List.mem_of_mem_head? hhead
  cases h with
  | moved | rearmed =>
      exact ⟨by simp [Worker.leaving, hpc, hmem], fun j hji => by simp [hji]⟩
  | failed => exact ⟨by simp [Worker.leaving, Worker.at], fun j hji => by simp [hji]⟩
  | done => exact ⟨by simp [Worker.leaving], fun j hji => by simp [hji]⟩

/-- A step of a worker that leaves it on its way out, or nowhere else than before. -/
theorem remaining_put {worker : Worker} (h : worker.remaining ≤ (s.workers j).remaining) :
    ((s.put j worker).workers i).remaining ≤ (s.workers i).remaining := by
  by_cases hij : i = j
  · subst hij
    rwa [put_workers, Function.update_self]
  · exact (remaining_put_of_ne hij).le

/-- `epoll_wait` gives a worker a batch. -/
theorem remaining_epollWait {batch : List Event} (hpc : (s.workers j).pc = .waiting) :
    ((s.put j ⟨.handling, batch, false, .initial⟩).workers i).remaining +
        (if deliversTo i (.epollWait j (some batch)) then 1 else 0) ≤
      (s.workers i).remaining := by
  by_cases hij : i = j
  · subst hij
    have hone : (s.workers i).remaining = 1 := by simp [Worker.remaining, Worker.leaving, hpc]
    simp only [put_workers, Function.update_self, hone]
    by_cases hmem : Event.stop ∈ batch <;>
      simp [Worker.remaining, Worker.leaving, deliversTo, hmem]
  · have hother : deliversTo i (.epollWait j (some batch)) = false := by
      simp [deliversTo, Ne.symm hij]
    rw [hother]
    exact (remaining_put_of_ne hij).le

/-- A worker that is told to terminate gets the stop event once at most, whatever happens in
between. -/
theorem Good.remaining {a : Action Thread} (hs : Good s) (hterminating : s.terminating i = true)
    (h : StopPipe.step s a = some t) :
    (t.workers i).remaining + (if deliversTo i a then 1 else 0) ≤ (s.workers i).remaining ∧
      t.terminating i = true := by
  cases step_cases h with
  | stop | write => exact ⟨Nat.le_refl _, hterminating⟩
  | terminate j =>
      refine ⟨Nat.le_refl _, ?_⟩
      by_cases hij : i = j
      · subst hij
        exact Function.update_self ..
      · exact (Function.update_of_ne hij _ _).trans hterminating
  | enter j hpc =>
      refine ⟨?_, hterminating⟩
      by_cases hij : i = j
      · subst hij
        rw [put_workers, Function.update_self, if_pos hterminating]
        exact Nat.zero_le _
      · exact (remaining_put_of_ne hij).le
  | waitFailed j hpc | threw j hpc => exact ⟨remaining_put (Nat.zero_le _), hterminating⟩
  | others j batch hpc | delivered j batch hpc => exact ⟨remaining_epollWait hpc, hterminating⟩
  | handle j epollCtl hpc hhead =>
      obtain ⟨hleaving, hothers⟩ :=
        (hs.1.operation (Or.inl hs.2) hhead epollCtl).leaving hpc hhead
      refine ⟨?_, hterminating⟩
      by_cases hij : i = j
      · subst hij
        rw [Worker.remaining_of_leaving hleaving]
        exact Nat.zero_le _
      · rw [hothers i hij]
        exact Nat.le_refl _
  | returned j stop hpc hhead =>
      exact ⟨remaining_put (Worker.remaining_tail hpc hhead stop), hterminating⟩
  | finish j hpc hbatch =>
      refine ⟨remaining_put ?_, hterminating⟩
      cases hstop : (s.workers j).stop <;>
        simp [Worker.remaining, Worker.leaving, Worker.at, hpc, hbatch, hstop]

/-- The pipe is never emptied. -/
theorem pipe_le {a : Action Thread} (h : StopPipe.step s a = some t) : s.pipe ≤ t.pipe := by
  cases step_cases h with
  | write => exact Nat.le_succ _
  | _ => exact Nat.le_refl _

omit [DecidableEq Thread] in
/-- Between its batches a worker that waits is given the stop event. -/
theorem Good.deliverable (hs : Good s) (hwritten : 0 < s.pipe)
    (hbatch : ∀ j, (s.workers j).batch = []) : Deliverable s [.stop] := by
  refine Or.inr ⟨rfl, ?_, hwritten⟩
  have harmed : s.occurrences none ≠ 0 := by
    obtain ⟨place, hone, -⟩ := hs.2
    cases place with
    | none => omega
    | some j =>
        have hnothing : (s.workers j).pending = 0 := by
          simp [Worker.pending, hbatch j]
        exact absurd (hone.symm.trans hnothing) Nat.one_ne_zero
  cases hinterest : s.armed with
  | none => simp [State.occurrences, hinterest] at harmed
  | some interest => exact hs.1.readable interest hinterest

/-- **Shutdown.**  Let a worker be told to terminate behind a call of `stop()`, and let the
stop event not be abandoned.  From then on the worker gets the event once at most, and it
never waits in vain: when no worker has events to handle, the one that waits is given
the stop event, and is then on its way out. -/
theorem worker_leaves (hs : Reachable (system Thread) Kept s) (hwritten : 0 < s.pipe)
    (hterminating : s.terminating i = true) {actions : List (Action Thread)}
    (hkept : Meets (system Thread) Kept s actions)
    (hrun : (system Thread).run s actions = some t) :
    actions.countP (deliversTo i) + (t.workers i).remaining ≤ (s.workers i).remaining ∧
      ((∀ j, (t.workers j).batch = []) → (t.workers i).pc = .waiting →
        ∃ u, step t (.epollWait i (some [.stop])) = some u ∧ (u.workers i).leaving = true) := by
  have hgood : Good s :=
    hs.invariant ⟨base_init Thread, inOnePlace_init Thread⟩
      fun _ _ _ hs hkept h => hs.step hkept h
  have hstep : ∀ (s : State Thread) a t,
      Good s ∧ s.terminating i = true ∧ 0 < s.pipe → True → Kept s a →
      (system Thread).step s a = some t → True →
      (Good t ∧ t.terminating i = true ∧ 0 < t.pipe) ∧
        (t.workers i).remaining + (if deliversTo i a then 1 else 0) ≤ (s.workers i).remaining := by
    rintro s a t ⟨hgood, hterm, hpipe⟩ - hkept h -
    obtain ⟨hle, hterm'⟩ := hgood.remaining hterm h
    exact ⟨⟨hgood.step hkept h, hterm', hpipe.trans_le (pipe_le h)⟩, hle⟩
  have hall : Throughout (system Thread) (fun _ => True) s actions :=
    throughout_of_meets (fun _ _ => trivial) (fun _ _ _ _ _ _ _ => trivial) trivial
      (meets_unguarded s actions) (meets_unguarded s actions)
  obtain ⟨⟨hend, -, hpipe⟩, hcount⟩ := Throughout.countP_add_rank_le hstep
    ⟨hgood, hterminating, hwritten⟩ hkept hrun hall
  refine ⟨hcount, fun hbatch hpc => ?_⟩
  have hdeliverable := hend.deliverable hpipe hbatch
  refine ⟨_, if_pos ⟨hpc, hdeliverable⟩, ?_⟩
  simp [Worker.leaving]

end Shutdown

/-- `deactivate_object` of a poller with two workers. -/
def deactivated : List (Action Bool) :=
  [.enter false, .enter true, .stop, .write, .terminate false, .terminate true]

theorem isSome_deactivated :
    ((system Bool).run (system Bool).init deactivated).isSome = true := by
  decide +kernel

/-- One worker gets the stop event, handles it, and leaves. -/
def firstLeaves : List (Action Bool) :=
  .epollWait false (some [.stop]) :: List.replicate 10 (.handle false (.returned 0)) ++
    [.finish false, .enter false]

/-- Then the other one, which waits, is given it. -/
theorem worker_leaves_second :
    ∃ t, (system Bool).run (((system Bool).run (system Bool).init deactivated).get
        isSome_deactivated) firstLeaves = some t ∧ (t.workers false).pc = .gone ∧
      ∃ u, step t (.epollWait true (some [.stop])) = some u ∧
        (u.workers true).leaving = true := by
  have hreach : Reachable (system Bool) Kept
      (((system Bool).run (system Bool).init deactivated).get isSome_deactivated) :=
    Reachable.of_run .init (Option.some_get _).symm (by decide +kernel)
  have hend : ((system Bool).run (((system Bool).run (system Bool).init deactivated).get
      isSome_deactivated) firstLeaves).map
        (fun t => (t.workers false, t.workers true)) = some (.at .gone, .at .waiting) := by
    decide +kernel
  obtain ⟨t, hrun, hvalues⟩ := Option.map_eq_some_iff.mp hend
  obtain ⟨hfalse, htrue⟩ := Prod.mk.inj hvalues
  have hbatch : ∀ j, (t.workers j).batch = [] := by
    intro j
    cases j
    · rw [hfalse]; rfl
    · rw [htrue]; rfl
  exact ⟨t, hrun, by rw [hfalse]; rfl, (worker_leaves hreach (by decide +kernel)
    (by decide +kernel) (by decide +kernel) hrun).2 hbatch (by rw [htrue]; rfl)⟩

end StopPipe
end LiteMQ
