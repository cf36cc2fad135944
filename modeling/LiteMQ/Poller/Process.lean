import LiteMQ.Poller.HandleSerialization

/-!
# `DescriptorHandlerPoller::process_` on one batch of events

The worker calls `handle_` for one event of the batch after the other.  Nothing
between the handler and the `catch` behind the loop stops an exception, so it
leaves `handle_` in the middle of a pass and `process_` in the middle of the
batch.

`process_batch` says what is done then.  The events in front of the one whose
handler throws are dealt with completely.  The holder of that event keeps its
increment and is not rearmed, and the events behind it are not handled at all.
`batch_abandoned` is a batch of two events whose first handler throws.
-/

namespace LiteMQ

/-- The class of an exception that a handler throws. -/
inductive ThrownException
  | descriptorHandler
  | descriptorHandlerOwner
  deriving DecidableEq, Repr

/-- The exceptions that the specification of the callee lets through: `read()`
and `write()` are declared with `throw(DescriptorHandler::Exception)`, the calls
of `epoll_ctl` with `throw(DescriptorHandlerOwner::Exception)`. -/
def exceptionSpecification : HandlePc → ThrownException
  | .readSide | .writeSide => .descriptorHandler
  | .out | .entered | .applyRead _ | .applyWrite _ | .checkClosed | .finish | .epollDel
  | .stopped | .reset | .push | .erase | .leave | .rearm | .release | .unwound
  | .nullDereference | .assertionFailed => .descriptorHandlerOwner

/-- Where `process_` is. -/
inductive ProcessStatus
  /-- in the loop over the events -/
  | handling
  /-- in front of the next `epoll_wait` -/
  | waiting
  /-- returned, because a handler asked to stop -/
  | returned
  /-- returned, after `callback_->critical` -/
  | critical
  /-- the program was ended -/
  | terminated
  deriving DecidableEq, Repr

namespace Process

/-- One worker in the middle of a batch.  `events` are `events[i]` to
`events[n - 1]`, each given by its holder, and `thread` holds the locals of
`handle_` for the first of them.  `armed` is the interest that epoll has in a
holder; it is `none` from the delivery of an event to the next rearm. -/
structure State (Holder : Type*) where
  holders : Holder → DescriptorHandlerHolder
  armed : Holder → Option (Bool × Bool)
  events : List Holder
  thread : HandleThread
  stop : Bool
  status : ProcessStatus

/-- What the call that the next operation may make does. -/
structure Action where
  result : CallResult
  exception : ThrownException

variable {Holder : Type*} [DecidableEq Holder]

/-- A successful `EPOLL_CTL_MOD` arms the holder. -/
def armedBy (armed : Option (Bool × Bool)) (effect : Option HandleEffect)
    (result : CallResult) : Option (Bool × Bool) :=
  match effect, result with
  | some (.epollRearm handleRead handleWrite), .returned _ => some (handleRead, handleWrite)
  | _, _ => armed

/-- The next operation of the call of `handle_` for `holder`. -/
def afterCall (w : State Holder) (holder : Holder) (result : CallResult) : State Holder :=
  let outcome := handleStep (w.holders holder) w.thread result
  { w with
    holders := Function.update w.holders holder outcome.holder
    armed := Function.update w.armed holder (armedBy (w.armed holder) outcome.effect result)
    thread := outcome.thread }

/-- The next operation of the worker. -/
def step (w : State Holder) (a : Action) : Option (State Holder) :=
  match w.status with
  | .handling =>
      match w.events with
      | [] => some { w with status := if w.stop then .returned else .waiting }
      | holder :: later =>
          let next := afterCall w holder a.result
          if next.thread.pc = .out then
            some { next with
              events := later
              thread := .initial
              stop := w.stop || next.thread.stopProcessing }
          else if next.thread.pc = .unwound then
            -- an exception outside of the specification ends in `std::unexpected`
            some { next with
              status :=
                if a.exception = exceptionSpecification w.thread.pc then .critical
                else .terminated }
          else if next.thread.pc = .nullDereference ∨ next.thread.pc = .assertionFailed then
            some { next with status := .terminated }
          else some next
  | .waiting | .returned | .critical | .terminated => none

/-- The worker from the moment at which `epoll_wait` has returned the batch. -/
def system (start : State Holder) : TransitionSystem (State Holder) Action := ⟨start, step⟩

/-! ## One event -/

/-- Nobody handles the holder, and it is not finished. -/
structure Idle (holder : DescriptorHandlerHolder) : Prop where
  count : holder.handleInProgress = 0
  unfinished : holder.handlingFinished = false
  handler : holder.descriptorHandler = true

/-- A holder that epoll can deliver an event for: it is idle, or its counter is
positive, because a thread handles it or it was torn down. -/
def Deliverable (holder : DescriptorHandlerHolder) : Prop :=
  Idle holder ∨ 1 ≤ holder.handleInProgress

/-- The event of a holder is dealt with. -/
inductive Dealt (before after : DescriptorHandlerHolder) (armed : Option (Bool × Bool)) : Prop
  /-- after a pass, the count is back and the holder rearmed -/
  | rearmed (hidle : Idle before) (hafter : Idle after)
      (harmed : armed = some (after.flags.handleRead, after.flags.handleWrite))
  /-- the pass has torn the holder down and keeps its increment -/
  | tornDown (hidle : Idle before) (hcount : after.handleInProgress = 1)
      (hfinished : after.handlingFinished = true) (hhandler : after.descriptorHandler = false)
      (harmed : armed = none)
  /-- the increment stands for the event in the thread that handles the holder -/
  | delegated (hbusy : 1 ≤ before.handleInProgress)
      (hafter : after = { before with handleInProgress := before.handleInProgress + 1 })
      (harmed : armed = none)

/-- The pass of an idle holder is in progress, and it is not finished yet. -/
structure Passing (before holder : DescriptorHandlerHolder)
    (armed : Option (Bool × Bool)) : Prop where
  idle : Idle before
  count : holder.handleInProgress = 1
  unfinished : holder.handlingFinished = false
  handler : holder.descriptorHandler = true
  disarmed : armed = none

/-- The idle holder is being torn down. -/
structure Finishing (before holder : DescriptorHandlerHolder) (armed : Option (Bool × Bool))
    (handler : Bool) : Prop where
  idle : Idle before
  count : holder.handleInProgress = 1
  finished : holder.handlingFinished = true
  handler : holder.descriptorHandler = handler
  disarmed : armed = none

/-- Where the call of `handle_` for an event is, from the holder that it found. -/
def InCall (before holder : DescriptorHandlerHolder) (thread : HandleThread)
    (armed : Option (Bool × Bool)) : Prop :=
  match thread.pc with
  | .out => holder = before ∧ armed = none
  | .entered =>
      holder = { before with handleInProgress := before.handleInProgress + 1 } ∧
        thread.prevHandleInProgress = before.handleInProgress ∧ thread.rearmFd = false ∧
        armed = none
  | .readSide | .applyRead _ | .writeSide | .applyWrite _ | .checkClosed | .finish =>
      Passing before holder armed ∧ thread.prevHandleInProgress = 0 ∧ thread.rearmFd = false
  | .leave => Passing before holder armed ∧ thread.rearmFd = true
  | .epollDel | .stopped | .reset =>
      Finishing before holder armed true ∧ thread.prevHandleInProgress = 0 ∧
        thread.rearmFd = false
  | .push | .erase =>
      Finishing before holder armed false ∧ thread.prevHandleInProgress = 0 ∧
        thread.rearmFd = false
  | .rearm =>
      0 ≤ thread.prevHandleInProgress ∧
        (thread.rearmFd = true ∧ Idle before ∧ Idle holder ∧ armed = none ∨
          thread.rearmFd = false ∧ Dealt before holder armed)
  | .release => 0 ≤ thread.prevHandleInProgress ∧ Dealt before holder armed
  | .unwound => Passing before holder armed
  | .nullDereference | .assertionFailed => False

/-- How many operations the call of `handle_` is away from its end. -/
def operationsLeft : HandlePc → Nat
  | .out => 15
  | .entered => 14
  | .readSide => 13
  | .applyRead _ => 12
  | .writeSide => 11
  | .applyWrite _ => 10
  | .checkClosed => 9
  | .finish => 8
  | .epollDel => 7
  | .stopped => 6
  | .reset => 5
  | .push => 4
  | .erase | .leave => 3
  | .rearm => 2
  | .release => 1
  | .unwound | .nullDereference | .assertionFailed => 0

/-- An idle holder is handled by the thread that delivers the event, a busy one
by the thread that is at it. -/
theorem inCall_of_entered {before holder : DescriptorHandlerHolder} {thread : HandleThread}
    {armed : Option (Bool × Bool)} (result : CallResult) (hdeliver : Deliverable before)
    (hpc : thread.pc = .entered) (h : InCall before holder thread armed) :
    let outcome := handleStep holder thread result
    InCall before outcome.holder outcome.thread (armedBy armed outcome.effect result) ∧
      (outcome.thread.pc = .readSide ∨ outcome.thread.pc = .rearm) := by
  simp only [InCall, hpc] at h
  obtain ⟨rfl, hprev, hrearm, harmed⟩ := h
  rcases hdeliver with hidle | hbusy
  · have hzero := hidle.count
    have hunfinished := hidle.unfinished
    have hhandler := hidle.handler
    simp only [handleStep, hpc, hunfinished, hprev, hzero, and_self, if_true]
    refine ⟨?_, Or.inl rfl⟩
    exact ⟨⟨hidle, by simp, rfl, hhandler, harmed⟩, hprev.trans hzero, hrearm⟩
  · have hnot : ¬ (before.handlingFinished = false ∧ thread.prevHandleInProgress = 0) := by
      rintro ⟨-, hzero⟩
      omega
    simp only [handleStep, hpc, hnot, if_false]
    refine ⟨⟨?_, Or.inr ⟨hrearm, ?_⟩⟩, Or.inr rfl⟩
    · show 0 ≤ thread.prevHandleInProgress
      omega
    · exact .delegated hbusy rfl harmed

/-- After the operation the call is where it should be, and closer to its end. -/
def GoesOn (before holder : DescriptorHandlerHolder) (thread : HandleThread)
    (armed : Option (Bool × Bool)) (result : CallResult) : Prop :=
  let outcome := handleStep holder thread result
  InCall before outcome.holder outcome.thread (armedBy armed outcome.effect result) ∧
    outcome.thread.pc ≠ .out ∧ outcome.thread.pc ≠ .nullDereference ∧
    outcome.thread.pc ≠ .assertionFailed ∧
    operationsLeft outcome.thread.pc < operationsLeft thread.pc

section Operations

variable {before holder : DescriptorHandlerHolder} {thread : HandleThread}
  {armed : Option (Bool × Bool)} {result : CallResult}

/-- A call of the handler leads to its mask, or out of the call of `handle_`. -/
theorem goesOn_of_call (h : InCall before holder thread armed)
    (hpc : thread.pc = .readSide ∨ thread.pc = .writeSide) :
    GoesOn before holder thread armed result := by
  unfold GoesOn
  rcases hpc with hpc | hpc
  all_goals
    simp only [InCall, hpc] at h
    obtain ⟨hpassing, hprev, hrearm⟩ := h
    have hhandler := hpassing.handler
    simp only [handleStep, hpc, hprev, hhandler, Int.lt_irrefl, if_true, if_false]
    split
    · cases result with
      | threw =>
          -- the exception leaves the pass with its increment
          simp [HandleThread.afterCall, HandleThread.goto, InCall, armedBy, hpassing,
            operationsLeft]
      | returned m =>
          simp [HandleThread.afterCall, HandleThread.goto, InCall, armedBy, hpassing, hprev,
            hrearm, operationsLeft]
    · simp [HandleThread.goto, InCall, armedBy, hpassing, hprev, hrearm, operationsLeft]

/-- The statements of the teardown are executed one after the other. -/
theorem goesOn_of_teardown (h : InCall before holder thread armed)
    (hpc : thread.pc = .finish ∨ thread.pc.tearingDown)
    (hdel : thread.pc = .epollDel → result ≠ .threw) :
    GoesOn before holder thread armed result := by
  unfold GoesOn
  cases hpc' : thread.pc with
  | finish =>
      simp only [InCall, hpc'] at h
      obtain ⟨⟨hidle, hcount, -, hhandler, harmed⟩, hprev, hrearm⟩ := h
      have hfinishing : Finishing before { holder with handlingFinished := true } armed true :=
        ⟨hidle, hcount, rfl, hhandler, harmed⟩
      simp [handleStep, hpc', HandleThread.goto, InCall, armedBy, hfinishing, hprev, hrearm,
        operationsLeft]
  | epollDel =>
      simp only [InCall, hpc'] at h
      obtain ⟨hfinishing, hprev, hrearm⟩ := h
      cases hresult : result with
      | threw => exact absurd hresult (hdel hpc')
      | returned m =>
          simp [handleStep, hpc', hfinishing.handler, HandleThread.afterCall,
            HandleThread.goto, InCall, armedBy, hfinishing, hprev, hrearm, operationsLeft]
  | stopped =>
      simp only [InCall, hpc'] at h
      obtain ⟨hfinishing, hprev, hrearm⟩ := h
      simp [handleStep, hpc', hfinishing.handler, HandleThread.goto, InCall, armedBy,
        hfinishing, hprev, hrearm, operationsLeft]
  | reset =>
      simp only [InCall, hpc'] at h
      obtain ⟨⟨hidle, hcount, hfinished, -, harmed⟩, hprev, hrearm⟩ := h
      have hfinishing : Finishing before { holder with descriptorHandler := false } armed false :=
        ⟨hidle, hcount, hfinished, rfl, harmed⟩
      simp [handleStep, hpc', HandleThread.goto, InCall, armedBy, hfinishing, hprev, hrearm,
        operationsLeft]
  | push =>
      simp only [InCall, hpc'] at h
      simp [handleStep, hpc', HandleThread.goto, InCall, armedBy, h, operationsLeft]
  | erase =>
      -- the loop is left without the decrement: the holder keeps its increment
      simp only [InCall, hpc'] at h
      obtain ⟨⟨hidle, hcount, hfinished, hhandler, harmed⟩, hprev, hrearm⟩ := h
      have hdealt : Dealt before holder armed :=
        .tornDown hidle hcount hfinished hhandler harmed
      simp [handleStep, hpc', HandleThread.goto, InCall, armedBy, hdealt, hprev, hrearm,
        operationsLeft]
  | _ => simp [hpc', HandlePc.tearingDown] at hpc

/-- Behind the pass the count is back, and the holder is rearmed. -/
theorem goesOn_of_end (h : InCall before holder thread armed)
    (hpc : thread.pc = .leave ∨ thread.pc = .rearm) (hmod : thread.pc = .rearm → result ≠ .threw) :
    GoesOn before holder thread armed result := by
  unfold GoesOn
  rcases hpc with hpc | hpc
  · simp only [InCall, hpc] at h
    obtain ⟨⟨hidle, hcount, hunfinished, hhandler, harmed⟩, hrearm⟩ := h
    have hafter : Idle { holder with handleInProgress := 0 } := ⟨rfl, hunfinished, hhandler⟩
    simp [handleStep, hpc, hcount, InCall, armedBy, hidle, hafter, hrearm, harmed, operationsLeft]
  · simp only [InCall, hpc] at h
    obtain ⟨hprev, ⟨hrearm, hidle, hafter, harmed⟩ | ⟨hrearm, hdealt⟩⟩ := h
    · cases hresult : result with
      | threw => exact absurd hresult (hmod hpc)
      | returned m =>
          have hdealt : Dealt before holder
              (some (holder.flags.handleRead, holder.flags.handleWrite)) :=
            .rearmed hidle hafter rfl
          simp [handleStep, hpc, hrearm, hafter.handler, HandleThread.afterCall,
            HandleThread.goto, InCall, armedBy, hdealt, hprev, operationsLeft]
    · simp [handleStep, hpc, hrearm, HandleThread.goto, InCall, armedBy, hdealt, hprev,
        operationsLeft]

/-- An operation of the pass, or of the teardown, or of the end of the call. -/
theorem inCall_step (hdeliver : Deliverable before) (h : InCall before holder thread armed)
    (hepoll : thread.pc = .epollDel ∨ thread.pc = .rearm → result ≠ .threw)
    (hlive : thread.pc ≠ .unwound) (hrelease : thread.pc ≠ .release) :
    GoesOn before holder thread armed result := by
  have hdel : thread.pc = .epollDel → result ≠ .threw := fun hpc => hepoll (Or.inl hpc)
  have hmod : thread.pc = .rearm → result ≠ .threw := fun hpc => hepoll (Or.inr hpc)
  cases hpc : thread.pc with
  | unwound => exact absurd hpc hlive
  | release => exact absurd hpc hrelease
  | nullDereference | assertionFailed => simp [InCall, hpc] at h
  | entered =>
      obtain ⟨hcall, hnext⟩ := inCall_of_entered result hdeliver hpc h
      refine ⟨hcall, ?_⟩
      rcases hnext with hnext | hnext <;> simp [hpc, hnext, operationsLeft]
  | readSide => exact goesOn_of_call h (Or.inl hpc)
  | writeSide => exact goesOn_of_call h (Or.inr hpc)
  | leave => exact goesOn_of_end h (Or.inl hpc) hmod
  | rearm => exact goesOn_of_end h (Or.inr hpc) hmod
  | finish => exact goesOn_of_teardown h (Or.inl hpc) hdel
  | epollDel | stopped | reset | push | erase =>
      exact goesOn_of_teardown h (Or.inr (by simp [hpc, HandlePc.tearingDown])) hdel
  | out =>
      simp only [InCall, hpc] at h
      obtain ⟨rfl, harmed⟩ := h
      simp [GoesOn, handleStep, hpc, InCall, armedBy, harmed, operationsLeft]
  | applyRead m | applyWrite m =>
      simp only [InCall, hpc] at h
      obtain ⟨⟨hidle, hcount, hunfinished, hhandler, harmed⟩, hprev, hrearm⟩ := h
      have hpassing : Passing before
          { holder with flags := (applyStateModify holder.flags m).1 } armed :=
        ⟨hidle, hcount, hunfinished, hhandler, harmed⟩
      simp [GoesOn, handleStep, hpc, applyToHolder, InCall, armedBy, hpassing, hprev, hrearm,
        operationsLeft]
  | checkClosed =>
      simp only [InCall, hpc] at h
      obtain ⟨hpassing, hprev, hrearm⟩ := h
      simp only [GoesOn, handleStep, hpc]
      split
      · simp [HandleThread.goto, InCall, armedBy, hpassing, hprev, hrearm, operationsLeft]
      · simp [InCall, armedBy, hpassing, operationsLeft]

end Operations

/-- The end of the call: the event is dealt with. -/
theorem dealt_of_release {before holder : DescriptorHandlerHolder} {thread : HandleThread}
    {armed : Option (Bool × Bool)} (result : CallResult)
    (h : InCall before holder thread armed) (hpc : thread.pc = .release) :
    let outcome := handleStep holder thread result
    outcome.thread.pc = .out ∧
      Dealt before outcome.holder (armedBy armed outcome.effect result) := by
  simp only [InCall, hpc] at h
  obtain ⟨hprev, hdealt⟩ := h
  simp [handleStep, hpc, Int.not_lt.mpr hprev, HandleThread.goto, armedBy, hdealt]

/-! ## The batch -/

open DescriptorHandler TransitionSystem

/-- What epoll and the code guarantee for a batch: each holder of it was
disarmed when its event was delivered, once, and can have events. -/
structure Delivered (start : State Holder) : Prop where
  nodup : start.events.Nodup
  disarmed : ∀ holder ∈ start.events, start.armed holder = none
  deliverable : ∀ holder ∈ start.events, Deliverable (start.holders holder)
  thread : start.thread = .initial
  status : start.status = .handling

/-- `epoll_ctl` succeeds: the descriptors are registered. -/
def EpollSucceeds (w : State Holder) (a : Action) : Prop :=
  w.thread.pc = .epollDel ∨ w.thread.pc = .rearm → a.result ≠ .threw

instance (w : State Holder) (a : Action) : Decidable (EpollSucceeds w a) :=
  inferInstanceAs (Decidable (_ ∨ _ → _))

/-- The holder is as it was when the batch was delivered. -/
def Untouched (start w : State Holder) (holder : Holder) : Prop :=
  w.holders holder = start.holders holder ∧ w.armed holder = start.armed holder

/-- What is known of the first event that is left. -/
def Current (start w : State Holder) : Prop :=
  match w.status with
  | .handling =>
      (w.events = [] → w.thread = .initial) ∧ ∀ holder later, w.events = holder :: later →
        InCall (start.holders holder) (w.holders holder) w.thread (w.armed holder) ∧
          w.thread.pc ≠ .unwound
  | .waiting | .returned => w.events = []
  | .critical | .terminated => ∃ holder later, w.events = holder :: later ∧
      Passing (start.holders holder) (w.holders holder) (w.armed holder)

/-- The worker has dealt with the first events of the batch, is at the next one,
and has touched no other holder. -/
structure InBatch (start w : State Holder) : Prop where
  delivered : Delivered start
  split : ∃ done, start.events = done ++ w.events ∧
    (∀ holder ∈ done, Dealt (start.holders holder) (w.holders holder) (w.armed holder)) ∧
    ∀ holder ∉ done, w.events.head? ≠ some holder → Untouched start w holder
  current : Current start w

omit [DecidableEq Holder] in
theorem inBatch_start {start : State Holder} (h : Delivered start) : InBatch start start where
  delivered := h
  split := ⟨[], by simp [Untouched]⟩
  current := by
    simp only [Current, h.status, h.thread, HandleThread.initial]
    refine ⟨fun _ => trivial, fun holder later hevents => ⟨⟨rfl, h.disarmed holder ?_⟩, by simp⟩⟩
    rw [hevents]
    exact List.mem_cons_self ..

/-- What the worker can do: end the loop, or one operation of the call for the
first event, which may end the call or throw. -/
theorem step_cases {w w' : State Holder} {a : Action} (hstep : step w a = some w') :
    w.status = .handling ∧
      (w.events = [] ∧ w' = { w with status := if w.stop then .returned else .waiting } ∨
        ∃ holder later, w.events = holder :: later ∧
          let next := afterCall w holder a.result
          (next.thread.pc = .out ∧
              w' = { next with
                events := later
                thread := .initial
                stop := w.stop || next.thread.stopProcessing } ∨
            next.thread.pc = .unwound ∧
              w' = { next with
                status :=
                  if a.exception = exceptionSpecification w.thread.pc then .critical
                  else .terminated } ∨
            (next.thread.pc = .nullDereference ∨ next.thread.pc = .assertionFailed) ∧
              w' = { next with status := .terminated } ∨
            next.thread.pc ≠ .out ∧ next.thread.pc ≠ .unwound ∧ w' = next)) := by
  unfold step at hstep
  split at hstep
  · rename_i hstatus
    refine ⟨hstatus, ?_⟩
    split at hstep
    · rename_i hevents
      exact Or.inl ⟨hevents, (Option.some.inj hstep).symm⟩
    · rename_i holder later hevents
      refine Or.inr ⟨holder, later, hevents, ?_⟩
      dsimp only at hstep
      split at hstep
      · rename_i hout
        exact Or.inl ⟨hout, (Option.some.inj hstep).symm⟩
      · rename_i hout
        split at hstep
        · rename_i hunwound
          exact Or.inr (Or.inl ⟨hunwound, (Option.some.inj hstep).symm⟩)
        · rename_i hunwound
          split at hstep
          · rename_i hfailed
            exact Or.inr (Or.inr (Or.inl ⟨hfailed, (Option.some.inj hstep).symm⟩))
          · exact Or.inr (Or.inr (Or.inr ⟨hout, hunwound, (Option.some.inj hstep).symm⟩))
  all_goals cases hstep

omit [DecidableEq Holder] in
/-- The loop over the events is over when none is left and after a throw. -/
theorem Current.of_ended {start w : State Holder} (h : Current start w)
    (hended : w.status ≠ .handling) :
    (w.status = .waiting ∨ w.status = .returned) ∧ w.events = [] ∨
      (w.status = .critical ∨ w.status = .terminated) ∧ ∃ holder later,
        w.events = holder :: later ∧
          Passing (start.holders holder) (w.holders holder) (w.armed holder) := by
  unfold Current at h
  cases hstatus : w.status <;> simp only [hstatus] at h
  case handling => exact absurd hstatus hended
  case waiting | returned => exact Or.inl ⟨by simp, h⟩
  case critical | terminated => exact Or.inr ⟨by simp, h⟩

/-- Other holders are not touched by the call for `holder`. -/
theorem afterCall_other (w : State Holder) {holder other : Holder} (result : CallResult)
    (hne : other ≠ holder) :
    (afterCall w holder result).holders other = w.holders other ∧
      (afterCall w holder result).armed other = w.armed other := by
  simp [afterCall, Function.update_of_ne hne]

/-- The holder of the call, the thread and the interest of epoll are those of the
operation of `handle_`. -/
theorem afterCall_self (w : State Holder) (holder : Holder) (result : CallResult) :
    let outcome := handleStep (w.holders holder) w.thread result
    (afterCall w holder result).holders holder = outcome.holder ∧
      (afterCall w holder result).armed holder =
        armedBy (w.armed holder) outcome.effect result ∧
      (afterCall w holder result).thread = outcome.thread := by
  simp [afterCall]

/-- How many operations the worker is away from the end of the loop. -/
def rank (w : State Holder) : Nat :=
  if w.status = .handling then
    match w.events with
    | [] => 1
    | _ :: later => 15 * later.length + operationsLeft w.thread.pc + 1
  else 0

/-- The call for the first event leaves the events in front of it dealt with, and
the other holders as they were. -/
theorem split_of_afterCall {start w : State Holder} {done later : List Holder} {holder : Holder}
    (hnodup : start.events.Nodup) (hsplit : start.events = done ++ w.events)
    (hevents : w.events = holder :: later) (result : CallResult)
    (hdone : ∀ other ∈ done, Dealt (start.holders other) (w.holders other) (w.armed other))
    (hrest : ∀ other ∉ done, w.events.head? ≠ some other → Untouched start w other) :
    (∀ other ∈ done, Dealt (start.holders other) ((afterCall w holder result).holders other)
        ((afterCall w holder result).armed other)) ∧
      ∀ other ∉ done, other ≠ holder → Untouched start (afterCall w holder result) other := by
  constructor
  · intro other hmem
    have hne : other ≠ holder := by
      rintro rfl
      rw [hsplit, hevents] at hnodup
      exact (List.nodup_append.mp hnodup).2.2 other hmem other (List.mem_cons_self ..) rfl
    obtain ⟨hholders, harmed⟩ := afterCall_other w result hne
    rw [hholders, harmed]
    exact hdone other hmem
  · intro other hmem hne
    obtain ⟨hholders, harmed⟩ := afterCall_other w result hne
    have hbefore := hrest other hmem (by simpa [hevents] using hne.symm)
    exact ⟨hholders.trans hbefore.1, harmed.trans hbefore.2⟩

/-- What a step of the worker does in a batch: it keeps to the batch, brings the
end nearer, and ends it early when a handler throws. -/
structure Advances (start w w' : State Holder) (a : Action) : Prop where
  inBatch : InBatch start w'
  lower : rank w' < rank w
  thrown : w'.status = .critical ∨ w'.status = .terminated →
    a.result = .threw ∧ (w'.status = .critical ↔ a.exception = .descriptorHandler)

/-- The operation after which the first event is dealt with. -/
theorem InBatch.step_release {start w : State Holder} {a : Action} (hs : InBatch start w)
    (hstatus : w.status = .handling) {holder : Holder} {later : List Holder}
    (hevents : w.events = holder :: later) (hrelease : w.thread.pc = .release)
    (hdealt : Dealt (start.holders holder) ((afterCall w holder a.result).holders holder)
      ((afterCall w holder a.result).armed holder)) :
    let next := afterCall w holder a.result
    Advances start w
      { next with
        events := later
        thread := .initial
        stop := w.stop || next.thread.stopProcessing } a := by
  intro next
  obtain ⟨done, hsplit, hdone, hrest⟩ := hs.split
  obtain ⟨hdone', hrest'⟩ :=
    split_of_afterCall hs.delivered.nodup hsplit hevents a.result hdone hrest
  have hnext : next.status = .handling := hstatus
  refine ⟨⟨hs.delivered, ⟨done ++ [holder], ?_, ?_, ?_⟩, ?_⟩, ?_, ?_⟩
  · simp [hsplit, hevents]
  · intro other hother
    rcases List.mem_append.mp hother with hother | hother
    · exact hdone' other hother
    · obtain rfl := List.mem_singleton.mp hother
      exact hdealt
  · intro other hother _
    simp only [List.mem_append, List.mem_singleton, not_or] at hother
    exact hrest' other hother.1 hother.2
  · -- the next event is at its entry
    simp only [Current, hnext]
    refine ⟨fun _ => trivial, fun following rest hfollowing => ?_⟩
    have hnodup := hs.delivered.nodup
    rw [hsplit, hevents, hfollowing] at hnodup
    obtain ⟨-, hnodup', hdisjoint⟩ := List.nodup_append.mp hnodup
    have hne : following ≠ holder := by
      rintro rfl
      simp at hnodup'
    have hnotDone : following ∉ done := fun h => hdisjoint following h following (by simp) rfl
    obtain ⟨hsameHolder, hsameArmed⟩ := hrest' following hnotDone hne
    have hmem : following ∈ start.events := by simp [hsplit, hevents, hfollowing]
    refine ⟨⟨hsameHolder, ?_⟩, by simp [HandleThread.initial]⟩
    exact hsameArmed.trans (hs.delivered.disarmed following hmem)
  · simp only [rank, hstatus, hnext, hevents, hrelease, if_true]
    cases later with
    | nil => simp [operationsLeft]
    | cons following rest =>
        simp only [HandleThread.initial, operationsLeft, List.length_cons]
        omega
  · simp [hnext]

/-- The operation in which a handler throws. -/
theorem InBatch.step_throw {start w : State Holder} {a : Action} (hs : InBatch start w)
    (hstatus : w.status = .handling) {holder : Holder} {later : List Holder}
    (hevents : w.events = holder :: later) (hpc : w.thread.pc = .readSide ∨ w.thread.pc = .writeSide)
    (hthrew : a.result = .threw)
    (hpassing : Passing (start.holders holder) ((afterCall w holder a.result).holders holder)
      ((afterCall w holder a.result).armed holder)) :
    Advances start w
      { afterCall w holder a.result with
        status :=
          if a.exception = exceptionSpecification w.thread.pc then .critical
          else .terminated } a := by
  obtain ⟨done, hsplit, hdone, hrest⟩ := hs.split
  obtain ⟨hdone', hrest'⟩ :=
    split_of_afterCall hs.delivered.nodup hsplit hevents a.result hdone hrest
  have hspecification : exceptionSpecification w.thread.pc = .descriptorHandler := by
    rcases hpc with hpc | hpc <;> rw [hpc] <;> rfl
  rw [hspecification]
  refine ⟨⟨hs.delivered, ⟨done, ?_, hdone', ?_⟩, ?_⟩, ?_, ?_⟩
  · exact hsplit
  · intro other hother hhead
    refine hrest' other hother ?_
    rintro rfl
    exact hhead (by simp [afterCall, hevents])
  · have hcurrent : ∃ holder' later', (afterCall w holder a.result).events = holder' :: later' ∧
        Passing (start.holders holder') ((afterCall w holder a.result).holders holder')
          ((afterCall w holder a.result).armed holder') :=
      ⟨holder, later, hevents, hpassing⟩
    by_cases hexception : a.exception = .descriptorHandler
    · simpa [Current, hexception] using hcurrent
    · simpa [Current, hexception] using hcurrent
  · by_cases hexception : a.exception = .descriptorHandler <;>
      simp [rank, hstatus, hevents, hexception]
  · intro _
    refine ⟨hthrew, ?_⟩
    by_cases hexception : a.exception = .descriptorHandler <;> simp [hexception]

/-- Any other operation of the call for the first event. -/
theorem InBatch.step_next {start w : State Holder} {a : Action} (hs : InBatch start w)
    (hstatus : w.status = .handling) {holder : Holder} {later : List Holder}
    (hevents : w.events = holder :: later)
    (hcall : InCall (start.holders holder) ((afterCall w holder a.result).holders holder)
      (afterCall w holder a.result).thread ((afterCall w holder a.result).armed holder))
    (hlive : (afterCall w holder a.result).thread.pc ≠ .unwound)
    (hlower : operationsLeft (afterCall w holder a.result).thread.pc <
      operationsLeft w.thread.pc) : Advances start w (afterCall w holder a.result) a := by
  obtain ⟨done, hsplit, hdone, hrest⟩ := hs.split
  obtain ⟨hdone', hrest'⟩ :=
    split_of_afterCall hs.delivered.nodup hsplit hevents a.result hdone hrest
  have hnext : (afterCall w holder a.result).status = .handling := hstatus
  have hsame : (afterCall w holder a.result).events = holder :: later := hevents
  refine ⟨⟨hs.delivered, ⟨done, ?_, hdone', ?_⟩, ?_⟩, ?_, ?_⟩
  · exact hsplit
  · intro other hother hhead
    refine hrest' other hother ?_
    rintro rfl
    exact hhead (by simp [hsame])
  · simp only [Current, hnext, hsame]
    refine ⟨fun h => (List.cons_ne_nil _ _ h).elim, fun holder' later' heq => ?_⟩
    obtain ⟨rfl, rfl⟩ := List.cons.inj heq
    exact ⟨hcall, hlive⟩
  · simp only [rank, hstatus, hnext, hevents, hsame, if_true]
    omega
  · simp [hnext]

/-- Where a call throws. -/
theorem throws_of_handleStep {holder : DescriptorHandlerHolder} {thread : HandleThread}
    {result : CallResult} (h : (handleStep holder thread result).thread.pc = .unwound)
    (hlive : thread.pc ≠ .unwound) :
    result = .threw ∧ (thread.pc = .readSide ∨ thread.pc = .writeSide ∨ thread.pc = .epollDel ∨
      thread.pc = .rearm) := by
  unfold handleStep at h
  cases hpc : thread.pc <;> simp only [hpc] at h
  case unwound => exact absurd hpc hlive
  all_goals
    (repeat' split at h) <;> cases result <;>
      simp_all [HandleThread.goto, HandleThread.afterCall, applyToHolder]

theorem InBatch.step {start w w' : State Holder} {a : Action} (hs : InBatch start w)
    (hepoll : EpollSucceeds w a) (hstep : Process.step w a = some w') :
    Advances start w w' a := by
  obtain ⟨hstatus, ⟨hevents, rfl⟩ | ⟨holder, later, hevents, hcase⟩⟩ := step_cases hstep
  · -- no event is left: the loop ends
    refine ⟨⟨hs.delivered, hs.split, ?_⟩, ?_, ?_⟩ <;>
      cases hstop : w.stop <;> simp [Current, rank, hstatus, hevents]
  · have hcurrent := hs.current
    unfold Current at hcurrent
    rw [hstatus] at hcurrent
    obtain ⟨hcall, hlive⟩ := hcurrent.2 holder later hevents
    have hmem : holder ∈ start.events := by
      obtain ⟨done, hsplit, -⟩ := hs.split
      simp [hsplit, hevents]
    obtain ⟨hholders, harmed, hthread⟩ := afterCall_self w holder a.result
    by_cases hrelease : w.thread.pc = .release
    · obtain ⟨hout, hdealt⟩ := dealt_of_release a.result hcall hrelease
      rw [← hthread] at hout
      rw [← hholders, ← harmed] at hdealt
      rcases hcase with ⟨-, rfl⟩ | ⟨hpc, -⟩ | ⟨hpc | hpc, -⟩ | ⟨hpc, -⟩
      · exact hs.step_release hstatus hevents hrelease hdealt
      · simp [hout] at hpc
      · simp [hout] at hpc
      · simp [hout] at hpc
      · exact absurd hout hpc
    · obtain ⟨hcall', hnotOut, hnotNull, hnotFailed, hlower⟩ :=
        inCall_step (hs.delivered.deliverable holder hmem) hcall hepoll hlive hrelease
      rw [← hthread] at hnotOut hnotNull hnotFailed hlower
      rw [← hholders, ← harmed, ← hthread] at hcall'
      rcases hcase with ⟨hpc, -⟩ | ⟨hpc, rfl⟩ | ⟨hpc | hpc, -⟩ | ⟨-, hpc, rfl⟩
      · exact absurd hpc hnotOut
      · have hpassing : Passing (start.holders holder) ((afterCall w holder a.result).holders holder)
            ((afterCall w holder a.result).armed holder) := by
          simpa only [InCall, hpc] using hcall'
        rw [hthread] at hpc
        obtain ⟨hthrew, hplace⟩ := throws_of_handleStep hpc hlive
        -- `epoll_ctl` did not throw, so the handler did
        have hside : w.thread.pc = .readSide ∨ w.thread.pc = .writeSide := by
          rcases hplace with hpc | hpc | hpc | hpc
          · exact Or.inl hpc
          · exact Or.inr hpc
          · exact absurd hthrew (hepoll (Or.inl hpc))
          · exact absurd hthrew (hepoll (Or.inr hpc))
        exact hs.step_throw hstatus hevents hside hthrew hpassing
      · exact absurd hpc hnotNull
      · exact absurd hpc hnotFailed
      · exact hs.step_next hstatus hevents hcall' hpc hlower

theorem inBatch_of_run {start w : State Holder} (h : Delivered start) {actions : List Action}
    (hepoll : Meets (system start) EpollSucceeds start actions)
    (hrun : (system start).run start actions = some w) : InBatch start w :=
  (Reachable.init.of_run hrun hepoll).invariant (inBatch_start h)
    fun _ _ _ hs hguard hstep => (hs.step hguard hstep).inBatch

/-- When the loop is left early, then by an operation that threw: the last one, and what it
threw decides how the loop is left. -/
theorem thrown_of_run {start u w : State Holder} (hu : InBatch start u)
    (hstatus : u.status = .handling) {actions : List Action}
    (hepoll : Meets (system start) EpollSucceeds u actions)
    (hrun : (system start).run u actions = some w)
    (hthrown : w.status = .critical ∨ w.status = .terminated) :
    ∃ a ∈ actions, a.result = .threw ∧
      (w.status = .critical ↔ a.exception = .descriptorHandler) := by
  induction actions generalizing u with
  | nil =>
      obtain rfl : u = w := by simpa using hrun
      simp [hstatus] at hthrown
  | cons a actions ih =>
      obtain ⟨middle, hfirst, hrest⟩ := (system start).run_cons_eq_some.mp hrun
      have hadvance := hu.step hepoll.1 hfirst
      by_cases hmiddle : middle.status = .handling
      · obtain ⟨b, hb, hthrew⟩ := ih hadvance.inBatch hmiddle (hepoll.2 middle hfirst) hrest
        exact ⟨b, List.mem_cons_of_mem a hb, hthrew⟩
      · -- no operation follows
        cases actions with
        | nil =>
            obtain rfl : middle = w := by simpa using hrest
            exact ⟨a, List.mem_cons_self .., hadvance.thrown hthrown⟩
        | cons b actions =>
            obtain ⟨next, hnext, -⟩ := (system start).run_cons_eq_some.mp hrest
            exact absurd (step_cases hnext).1 hmiddle

omit [DecidableEq Holder] in
theorem rank_le (w : State Holder) (hthread : w.thread = .initial) :
    rank w ≤ 15 * w.events.length + 1 := by
  unfold rank
  split
  · cases w.events with
    | nil => simp
    | cons holder later => simp [hthread, HandleThread.initial, operationsLeft]; omega
  · omega

/-- The worker takes a bounded number of operations for a batch.  At the end all
its events are dealt with, or those in front of the first one whose handler
throws: that holder is in the middle of its pass with its increment, and the
events behind it are not handled.  An exception that the handlers are declared
with is reported as critical. -/
theorem process_batch {start w : State Holder} (h : Delivered start) {actions : List Action}
    (hepoll : Meets (system start) EpollSucceeds start actions)
    (hrun : (system start).run start actions = some w) :
    actions.length ≤ 15 * start.events.length + 1 ∧
      (w.status = .handling → ∀ a, (Process.step w a).isSome) ∧
      (w.status ≠ .handling →
        (∀ holder ∉ start.events, Untouched start w holder) ∧
        ((w.status = .waiting ∨ w.status = .returned) ∧
            (∀ holder ∈ start.events,
              Dealt (start.holders holder) (w.holders holder) (w.armed holder)) ∨
          (w.status = .critical ∨ w.status = .terminated) ∧
            ∃ done failed later, start.events = done ++ failed :: later ∧
              (∀ holder ∈ done,
                Dealt (start.holders holder) (w.holders holder) (w.armed holder)) ∧
              Passing (start.holders failed) (w.holders failed) (w.armed failed) ∧
              ∀ holder ∈ later, Untouched start w holder)) ∧
      ((∀ a ∈ actions, a.result ≠ .threw) → w.status ≠ .critical ∧ w.status ≠ .terminated) ∧
      ((∀ a ∈ actions, a.exception = .descriptorHandler) → w.status ≠ .terminated) := by
  have hbatch := inBatch_of_run h hepoll hrun
  have hthrown := thrown_of_run (inBatch_start h) h.status hepoll hrun
  refine ⟨?_, ?_, ?_, fun hthrew => not_or.mp fun hended => ?_, fun hexception hended => ?_⟩
  · have hadvances : ∀ u a v, InBatch start u → EpollSucceeds u a →
        (system start).step u a = some v → Advances start u v a :=
      fun _ _ _ hs hguard hstep => hs.step hguard hstep
    have hle := length_add_rank_le (fun u a v hs hguard hst => (hadvances u a v hs hguard hst).inBatch)
      (fun u a v hs hguard hst => (hadvances u a v hs hguard hst).lower) (inBatch_start h) hepoll hrun
    have hmost := rank_le start h.thread
    omega
  · intro hstatus a
    unfold Process.step
    rw [hstatus]
    dsimp only
    split
    · rfl
    · (repeat' split) <;> rfl
  · intro hended
    obtain ⟨done, hsplit, hdone, hrest⟩ := hbatch.split
    refine ⟨fun holder hmem => ?_, ?_⟩
    · rw [hsplit, List.mem_append, not_or] at hmem
      apply hrest holder hmem.1
      intro hhead
      exact hmem.2 (List.mem_of_mem_head? hhead)
    · rcases hbatch.current.of_ended hended with ⟨hstatus, hevents⟩ |
        ⟨hstatus, failed, later, hevents, hpassing⟩
      · refine Or.inl ⟨hstatus, fun holder hmem => hdone holder ?_⟩
        simpa [hsplit, hevents] using hmem
      · refine Or.inr ⟨hstatus, done, failed, later, by rw [hsplit, hevents], hdone, hpassing, ?_⟩
        -- no holder comes twice, so those behind the failed one were not touched
        intro holder hmem
        have hnodup := h.nodup
        rw [hsplit, hevents] at hnodup
        obtain ⟨-, hnodup', hdisjoint⟩ := List.nodup_append.mp hnodup
        apply hrest holder
        · exact fun hold => hdisjoint holder hold holder (List.mem_cons_of_mem _ hmem) rfl
        · rw [hevents]
          rintro heq
          obtain rfl : failed = holder := by simpa using heq
          exact (List.nodup_cons.mp hnodup').1 hmem
  · obtain ⟨a, ha, hresult, -⟩ := hthrown hended
    exact hthrew a ha hresult
  · obtain ⟨a, ha, -, hcritical⟩ := hthrown (Or.inr hended)
    have hstatus := hcritical.mpr (hexception a ha)
    rw [hended] at hstatus
    cases hstatus

/-- Two new holders, each with an event. -/
def twoEvents : State (Fin 2) :=
  ⟨fun _ => .initial, fun _ => none, [0, 1], .initial, false, .handling⟩

theorem delivered_twoEvents : Delivered twoEvents where
  nodup := by decide
  disarmed := fun _ _ => rfl
  deliverable := fun _ _ => Or.inl ⟨rfl, rfl, rfl⟩
  thread := rfl
  status := rfl

/-- The handler of the first event leaves its holder open, that of the second
closes both sides. -/
theorem process_batch_of_two :
    ∃ w, (system twoEvents).run twoEvents
        (List.replicate 10 ⟨.returned continueHandle, .descriptorHandler⟩ ++
          List.replicate 16 ⟨.returned (closeReadHandle ||| closeWriteHandle),
            .descriptorHandler⟩) = some w ∧
      w.status = .waiting ∧ (w.armed 0).isSome ∧ (w.holders 1).descriptorHandler = false ∧
      ∀ holder, Dealt .initial (w.holders holder) (w.armed holder) := by
  have hend : ((system twoEvents).run twoEvents
      (List.replicate 10 ⟨.returned continueHandle, .descriptorHandler⟩ ++
        List.replicate 16 ⟨.returned (closeReadHandle ||| closeWriteHandle),
          .descriptorHandler⟩)).map
        (fun w => (w.status, (w.armed 0).isSome, (w.holders 1).descriptorHandler)) =
      some (.waiting, true, false) := by
    decide +kernel
  obtain ⟨w, hrun, hvalues⟩ := Option.map_eq_some_iff.mp hend
  simp only [Prod.mk.injEq] at hvalues
  obtain ⟨hstatus, harmed, hhandler⟩ := hvalues
  have hall : ∀ holder, holder ∈ twoEvents.events := by decide
  refine ⟨w, hrun, hstatus, harmed, hhandler, fun holder => ?_⟩
  have hended := (process_batch delivered_twoEvents (by decide +kernel) hrun).2.2.1
    (by simp [hstatus])
  rcases hended.2 with ⟨-, hdealt⟩ | ⟨hthrown, -⟩
  · exact hdealt holder (hall holder)
  · simp [hstatus] at hthrown

/-- The first handler throws a `DescriptorHandler::Exception` from `read()`.
`process_` ends with both descriptors disarmed and neither holder torn down; the
first keeps its increment, and the second event was not handled. -/
theorem batch_abandoned :
    ∃ w, (system twoEvents).run twoEvents
        [⟨.returned continueHandle, .descriptorHandler⟩,
          ⟨.returned continueHandle, .descriptorHandler⟩, ⟨.threw, .descriptorHandler⟩] = some w ∧
      w.status = .critical ∧
      (∀ holder, w.armed holder = none ∧ (w.holders holder).handlingFinished = false) ∧
      (w.holders 0).handleInProgress = 1 ∧ w.holders 1 = .initial := by
  have hend : ((system twoEvents).run twoEvents
      [⟨.returned continueHandle, .descriptorHandler⟩,
        ⟨.returned continueHandle, .descriptorHandler⟩, ⟨.threw, .descriptorHandler⟩]).map
        (fun w => decide (w.status = .critical ∧
          (∀ holder, w.armed holder = none ∧ (w.holders holder).handlingFinished = false) ∧
          (w.holders 0).handleInProgress = 1 ∧ w.holders 1 = .initial)) = some true := by
    decide +kernel
  obtain ⟨w, hrun, hvalues⟩ := Option.map_eq_some_iff.mp hend
  exact ⟨w, hrun, of_decide_eq_true hvalues⟩

/-- The holder of every reachable state of `handle_` can be in a batch. -/
theorem deliverable_of_serialized {Thread : Type*} [DecidableEq Thread]
    {s : Handle.State Thread} (hs : Handle.Serialized s) : Deliverable s.holder := by
  rcases eq_or_ne s.holder.handleInProgress 0 with hzero | hne
  · left
    have hunfinished : s.holder.handlingFinished = false := by
      by_contra hfinished
      have hone := (hs.finished (by simpa using hfinished)).1
      omega
    refine ⟨hzero, hunfinished, ?_⟩
    -- the handler of a holder that is not finished was not reset
    by_contra hnull
    have hfinished := hs.handler (by simpa using hnull)
    rw [hunfinished] at hfinished
    cases hfinished
  · right
    have hnonneg := hs.nonneg
    omega

end Process
end LiteMQ
