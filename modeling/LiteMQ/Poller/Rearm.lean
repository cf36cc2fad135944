import LiteMQ.Poller.RearmLock

/-!
# `DescriptorHandler::rearm` beside `handle_`

A descriptor is registered with `EPOLLONESHOT`: an event disarms it, and
`epoll_rearm_handler_` at the end of `handle_` arms it with the flags of the
holder.  `rearm(handle_read, handle_write)` arms it with its arguments, at any
time and from any thread, and does not touch the flags.

As in `RearmLock` the end of `handle_` has two operations: the flags are read under
`rearm_lock`, and `epoll_ctl` is called with what was read.  `Request` follows
the calls `rearm(_, true)` until `write()` is called; the code has nothing like
it.
-/

namespace LiteMQ
namespace Rearm

open DescriptorHandler TransitionSystem

/-- What is due to the calls `rearm(_, true)` that returned while the write side
was open. -/
structure Request (Thread : Type*) where
  /-- no writable event was delivered since the last such call -/
  asked : Bool
  /-- the last call of `rearm` is such a call, and `write()` was not called since -/
  unanswered : Bool
  /-- the threads that got the first writable event after such a call and have not
  entered `handle_` with it; `write()` was not called since -/
  delivered : Thread → Bool
  /-- such an event is counted in `handle_in_progress`; `write()` was not called
  since it was delivered -/
  counted : Bool

namespace Request

variable {Thread : Type*} [DecidableEq Thread]

def none : Request Thread := ⟨false, false, fun _ => false, false⟩

/-- A call of `rearm` returned. -/
def rearmed (request : Request Thread) (handleWrite writeClosed : Bool) : Request Thread :=
  { request with
    asked := request.asked || (handleWrite && !writeClosed)
    unanswered := handleWrite && !writeClosed }

/-- A writable event was delivered to `i`. -/
def writable (request : Request Thread) (i : Thread) : Request Thread :=
  if request.asked then
    { request with asked := false, delivered := Function.update request.delivered i true }
  else request

/-- Thread `i` has incremented `handle_in_progress`. -/
def entered (request : Request Thread) (i : Thread) : Request Thread :=
  { request with
    delivered := Function.update request.delivered i false
    counted := request.counted || request.delivered i }

/-- `write()` was called. -/
def written (request : Request Thread) : Request Thread :=
  { request with unanswered := false, delivered := fun _ => false, counted := false }

/-- After an operation of thread `i` in `handle_`. -/
def after (request : Request Thread) (i : Thread) (pc : HandlePc)
    (effect : Option HandleEffect) : Request Thread :=
  if pc = .out then request.entered i
  else if effect = some .callWrite then request.written
  else request

variable {request : Request Thread} {i j : Thread} {pc : HandlePc}
  {effect : Option HandleEffect}

omit [DecidableEq Thread] in
theorem rearmed_unanswered {handleWrite writeClosed : Bool}
    (h : (request.rearmed handleWrite writeClosed).unanswered = true) :
    handleWrite = true ∧ writeClosed = false := by
  simpa [rearmed] using h

@[simp] theorem writable_unanswered : (request.writable i).unanswered = request.unanswered := by
  unfold writable
  split <;> rfl

@[simp] theorem writable_counted : (request.writable i).counted = request.counted := by
  unfold writable
  split <;> rfl

theorem writable_delivered (h : (request.writable i).delivered j = true) :
    j = i ∨ request.delivered j = true := by
  unfold writable at h
  split at h
  · rcases eq_or_ne j i with rfl | hne
    · exact Or.inl rfl
    · exact Or.inr (by simpa only [Function.update_of_ne hne] using h)
  · exact Or.inr h

/-- An operation makes no request. -/
theorem after_unanswered (h : (request.after i pc effect).unanswered = true) :
    request.unanswered = true := by
  unfold after at h
  split at h
  · exact h
  · split at h
    · cases h
    · exact h

/-- An operation delivers no event, and the increment counts that of its thread. -/
theorem after_delivered (h : (request.after i pc effect).delivered j = true) :
    request.delivered j = true ∧ (pc = .out → j ≠ i) := by
  unfold after at h
  split at h
  · have hne : j ≠ i := by
      rintro rfl
      simp [entered] at h
    exact ⟨by simpa only [entered, Function.update_of_ne hne] using h, fun _ => hne⟩
  · rename_i hout
    split at h
    · cases h
    · exact ⟨h, fun hpc => absurd hpc hout⟩

/-- An event that is counted behind an operation was counted before, or is the one
that the thread has entered with; and the operation was no call of `write()`. -/
theorem after_counted (h : (request.after i pc effect).counted = true) :
    pc = .out ∧ request.delivered i = true ∨
      request.counted = true ∧ (pc ≠ .out → effect ≠ some .callWrite) := by
  unfold after at h
  split at h
  · rename_i hout
    have hcounted : request.counted = true ∨ request.delivered i = true := by
      simpa [entered] using h
    rcases hcounted with hcounted | hdelivered
    · exact Or.inr ⟨hcounted, fun hpc => absurd hout hpc⟩
    · exact Or.inl ⟨hout, hdelivered⟩
  · split at h
    · cases h
    · rename_i hcall
      exact Or.inr ⟨h, fun _ => hcall⟩

end Request

/-- A holder in the poller.  `armed` are the events that `epoll` waits for, `none`
when the descriptor is disarmed; `here` are the threads that got an event for the
holder and have not returned from `handle_`; `readFlags` belong to the thread that
holds `rearm_lock`. -/
structure State (Thread : Type*) where
  handle : Handle.State Thread
  registered : Bool
  armed : Option (Bool × Bool)
  here : Thread → Bool
  readFlags : Option (ReadFlags Thread)
  request : Request Thread

inductive Action (Thread : Type*)
  /-- `DescriptorHandler::rearm` -/
  | rearm (handleRead handleWrite : Bool)
  /-- `epoll_wait` returns an event to the thread -/
  | event (i : Thread) (writable : Bool)
  /-- the next operation of the thread in `handle_` -/
  | handle (i : Thread) (result : CallResult)

variable {Thread : Type*} [DecidableEq Thread]

/-- `DescriptorHandler::rearm`: a reset handler is not linked with the holder, and
an exception of `epoll_ctl` ends the program. -/
def rearmStep (s : State Thread) (handleRead handleWrite : Bool) : Option (State Thread) :=
  if s.handle.holder.descriptorHandler then
    if s.registered then
      some
        { s with
          armed := some (handleRead, handleWrite)
          request := s.request.rearmed handleWrite s.handle.holder.flags.writeClosed }
    else none
  else some s

/-- `EPOLLONESHOT`: the event disarms the descriptor. -/
def eventStep (s : State Thread) (i : Thread) (writable : Bool) : Option (State Thread) :=
  match s.armed with
  | none => none
  | some (_, handleWrite) =>
      if s.here i = false ∧ (writable = true → handleWrite = true) then
        some
          { s with
            armed := none
            here := Function.update s.here i true
            request := if writable then s.request.writable i else s.request }
      else none

/-- `epoll_ctl` in `epoll_rearm_handler_`, with the flags that were read; the lock
is released. -/
def epollCtlStep (s : State Thread) (held : ReadFlags Thread) (result : CallResult) :
    Option (State Thread) :=
  (Handle.step s.handle ⟨held.thread, if s.registered then result else .threw⟩).map fun handle =>
    { s with
      handle := handle
      armed :=
        if (handle.threads held.thread).pc = .release then some (held.handleRead, held.handleWrite)
        else s.armed
      readFlags := none }

/-- Any other operation of `handle_`. -/
def operationStep (s : State Thread) (i : Thread) (result : CallResult) : Option (State Thread) :=
  (Handle.step s.handle ⟨i, result⟩).map fun handle =>
    { s with
      handle := handle
      -- `epoll_del_fd_` has returned
      registered := if (handle.threads i).pc = .stopped then false else s.registered
      armed := if (handle.threads i).pc = .stopped then none else s.armed
      here := if (handle.threads i).pc = .out then Function.update s.here i false else s.here
      request := s.request.after i (s.handle.threads i).pc
        (handleStep s.handle.holder (s.handle.threads i) result).effect }

def handlingStep (s : State Thread) (i : Thread) (result : CallResult) : Option (State Thread) :=
  if s.here i = false then none
  else if rearms (s.handle.threads i) then
    match s.readFlags with
    | none =>
        let flags := s.handle.holder.flags
        some { s with readFlags := some ⟨i, flags.handleRead, flags.handleWrite⟩ }
    | some held => if held.thread = i then epollCtlStep s held result else none
  else operationStep s i result

def step (s : State Thread) : Action Thread → Option (State Thread)
  | .rearm handleRead handleWrite => rearmStep s handleRead handleWrite
  | .event i writable => eventStep s i writable
  | .handle i result => handlingStep s i result

/-- A new holder, registered by `DescriptorHandlerPoller::add`. -/
def system (Thread : Type*) [DecidableEq Thread] : TransitionSystem (State Thread) (Action Thread) :=
  ⟨⟨(Handle.system Thread).init, true, some (true, true), fun _ => false, none, .none⟩, step⟩

/-! ## What an operation of `handle_` does -/

/-- The flags are read under the lock. -/
structure FlagsRead (s t : State Thread) (i : Thread) : Prop where
  here : s.here i = true
  rearms : rearms (s.handle.threads i)
  eq : t =
    { s with
      readFlags := some ⟨i, s.handle.holder.flags.handleRead, s.handle.holder.flags.handleWrite⟩ }

/-- `epoll_ctl` is called with the flags that were read. -/
structure Rearmed (s t : State Thread) (i : Thread) (result : CallResult) : Prop where
  here : s.here i = true
  rearms : rearms (s.handle.threads i)
  held : ∃ held, s.readFlags = some held ∧ held.thread = i ∧ t.armed =
    if (t.handle.threads i).pc = .release then some (held.handleRead, held.handleWrite)
    else s.armed
  handle : Handle.step s.handle ⟨i, if s.registered then result else .threw⟩ = some t.handle
  registered : t.registered = s.registered
  sameHere : t.here = s.here
  readFlags : t.readFlags = none
  request : t.request = s.request

/-- Any other operation. -/
structure Operated (s t : State Thread) (i : Thread) (result : CallResult) : Prop where
  here : s.here i = true
  notRearms : ¬ rearms (s.handle.threads i)
  handle : Handle.step s.handle ⟨i, result⟩ = some t.handle
  registered : t.registered =
    if (t.handle.threads i).pc = .stopped then false else s.registered
  armed : t.armed = if (t.handle.threads i).pc = .stopped then none else s.armed
  nextHere : t.here =
    if (t.handle.threads i).pc = .out then Function.update s.here i false else s.here
  readFlags : t.readFlags = s.readFlags
  request : t.request = s.request.after i (s.handle.threads i).pc
    (handleStep s.handle.holder (s.handle.threads i) result).effect

theorem handling_cases {s t : State Thread} {i : Thread} {result : CallResult}
    (h : step s (.handle i result) = some t) :
    (s.readFlags = none ∧ FlagsRead s t i) ∨ Rearmed s t i result ∨ Operated s t i result := by
  simp only [step, handlingStep] at h
  split at h
  · cases h
  · rename_i hhere
    have hhere : s.here i = true := by simpa using hhere
    split at h
    · rename_i hrearms
      split at h
      · rename_i hfree
        exact Or.inl ⟨hfree, hhere, hrearms, (Option.some.inj h).symm⟩
      · rename_i held hheld
        split at h
        · rename_i hmine
          subst hmine
          obtain ⟨handle, hhandle, rfl⟩ := Option.map_eq_some_iff.mp h
          exact Or.inr (Or.inl ⟨hhere, hrearms, ⟨held, hheld, rfl, rfl⟩, hhandle, rfl, rfl, rfl,
            rfl⟩)
        · cases h
    · rename_i hnot
      obtain ⟨handle, hhandle, rfl⟩ := Option.map_eq_some_iff.mp h
      exact Or.inr (Or.inr ⟨hhere, hnot, hhandle, rfl, rfl, rfl, rfl, rfl⟩)

end Rearm
end LiteMQ
