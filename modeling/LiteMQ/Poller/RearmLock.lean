import LiteMQ.Poller.HandleEvents

/-!
# `epoll_rearm_handler_` beside the other threads

`epoll_rearm_handler_` reads the flags of the holder under `rearm_lock`, and then
`epoll_rearm_fd_` asks the handler for its descriptor and calls `epoll_ctl` with the
flags that were read.  In between another thread can apply a mask or tear the holder
down; both need no lock.

`handleStep` makes all this in one operation.  Here a thread first takes the lock and
reads the flags, which leaves everything else alone, and the operation that follows
is that of `handleStep`, with the flags that it has read.
-/

namespace LiteMQ

/-- The flags that a thread has read in `epoll_rearm_handler_`, under
`rearm_lock`. -/
structure ReadFlags (Thread : Type*) where
  thread : Thread
  handleRead : Bool
  handleWrite : Bool

/-- The thread is at `epoll_rearm_handler_`. -/
def rearms (thread : HandleThread) : Prop := thread.pc = .rearm ∧ thread.rearmFd = true

instance (thread : HandleThread) : Decidable (rearms thread) :=
  inferInstanceAs (Decidable (_ ∧ _))

namespace RearmLock

open TransitionSystem

/-- A holder with the threads in `handle_`; `readFlags` belong to the thread that
holds `rearm_lock`. -/
structure State (Thread : Type*) where
  handle : Handle.State Thread
  readFlags : Option (ReadFlags Thread)

variable {Thread : Type*} [DecidableEq Thread]

def step (s : State Thread) (a : Handle.Action Thread) : Option (State Thread) :=
  if rearms (s.handle.threads a.thread) then
    match s.readFlags with
    | none =>
        let flags := s.handle.holder.flags
        some { s with readFlags := some ⟨a.thread, flags.handleRead, flags.handleWrite⟩ }
    | some held =>
        if held.thread = a.thread then
          (Handle.step s.handle a).map fun handle => ⟨handle, none⟩
        else none
  else (Handle.step s.handle a).map fun handle => { s with handle := handle }

/-- A new holder under any interleaving of the threads. -/
def system (Thread : Type*) [DecidableEq Thread] :
    TransitionSystem (State Thread) (Handle.Action Thread) :=
  ⟨⟨(Handle.system Thread).init, none⟩, step⟩

/-! ## What an operation does -/

/-- The flags are read under the lock. -/
structure FlagsRead (s t : State Thread) (i : Thread) : Prop where
  rearms : rearms (s.handle.threads i)
  handle : t.handle = s.handle
  readFlags : t.readFlags =
    some ⟨i, s.handle.holder.flags.handleRead, s.handle.holder.flags.handleWrite⟩

/-- The lock is released behind `epoll_ctl`. -/
structure Rearmed (s t : State Thread) (a : Handle.Action Thread) : Prop where
  rearms : rearms (s.handle.threads a.thread)
  held : ∃ held, s.readFlags = some held ∧ held.thread = a.thread
  handle : Handle.step s.handle a = some t.handle
  readFlags : t.readFlags = none

/-- Any other operation. -/
structure Operated (s t : State Thread) (a : Handle.Action Thread) : Prop where
  notRearms : ¬ rearms (s.handle.threads a.thread)
  handle : Handle.step s.handle a = some t.handle
  readFlags : t.readFlags = s.readFlags

theorem step_cases {s t : State Thread} {a : Handle.Action Thread} (h : step s a = some t) :
    FlagsRead s t a.thread ∨ Rearmed s t a ∨ Operated s t a := by
  unfold step at h
  split at h
  · rename_i hrearms
    split at h
    · obtain rfl := Option.some.inj h
      exact Or.inl ⟨hrearms, rfl, rfl⟩
    · rename_i held hheld
      split at h
      · rename_i hmine
        obtain ⟨handle, hhandle, rfl⟩ := Option.map_eq_some_iff.mp h
        exact Or.inr (Or.inl ⟨hrearms, ⟨held, hheld, hmine⟩, hhandle, rfl⟩)
      · cases h
  · rename_i hnot
    obtain ⟨handle, hhandle, rfl⟩ := Option.map_eq_some_iff.mp h
    exact Or.inr (Or.inr ⟨hnot, hhandle, rfl⟩)

/-- An operation is one of `handleStep`, or it reads the flags and leaves the rest
alone. -/
theorem handle_of_step {s t : State Thread} {a : Handle.Action Thread}
    (h : step s a = some t) :
    (rearms (s.handle.threads a.thread) ∧ t.handle = s.handle) ∨
      Handle.step s.handle a = some t.handle := by
  rcases step_cases h with hread | hrearmed | hoperated
  · exact Or.inl ⟨hread.rearms, hread.handle⟩
  · exact Or.inr hrearmed.handle
  · exact Or.inr hoperated.handle

/-- The thread that holds `rearm_lock` has not called `epoll_ctl` yet. -/
def HeldAtRearm (s : State Thread) : Prop :=
  ∀ held ∈ s.readFlags, rearms (s.handle.threads held.thread)

theorem heldAtRearm_init : HeldAtRearm (system Thread).init := fun _ hheld => by cases hheld

theorem HeldAtRearm.step {s t : State Thread} {a : Handle.Action Thread} (hs : HeldAtRearm s)
    (hstep : RearmLock.step s a = some t) : HeldAtRearm t := by
  intro held hheld
  rcases step_cases hstep with hread | hrearmed | hoperated
  · rw [hread.readFlags] at hheld
    obtain rfl := Option.some.inj hheld
    rw [hread.handle]
    exact hread.rearms
  · rw [hrearmed.readFlags] at hheld
    cases hheld
  · rw [hoperated.readFlags] at hheld
    have hbefore := hs held hheld
    have hne : held.thread ≠ a.thread := by
      intro heq
      rw [heq] at hbefore
      exact hoperated.notRearms hbefore
    rw [(Handle.stepped_of_step hoperated.handle).other held.thread hne]
    exact hbefore

/-! ## What can be observed -/

/-- The entry that an operation leaves in the log: `epoll_ctl` is called with the
flags that were read. -/
def observe (s : State Thread) (a : Handle.Action Thread) : Option HandleEvent :=
  if rearms (s.handle.threads a.thread) then
    match s.readFlags with
    | none => none
    | some held =>
        if s.handle.holder.descriptorHandler then
          some (.effect (.epollRearm held.handleRead held.handleWrite))
        else none
  else Handle.observe s.handle a

omit [DecidableEq Thread] in
/-- What is observed of `epoll_rearm_handler_` is the call of `epoll_ctl`. -/
theorem rearm_of_observe {s : State Thread} {a : Handle.Action Thread} {event : HandleEvent}
    (hrearms : rearms (s.handle.threads a.thread)) (h : observe s a = some event) :
    ∃ held, s.readFlags = some held ∧ s.handle.holder.descriptorHandler = true ∧
      event = .effect (.epollRearm held.handleRead held.handleWrite) := by
  rw [observe, if_pos hrearms] at h
  split at h
  · cases h
  · rename_i held hheld
    split at h
    · rename_i hhandler
      exact ⟨held, hheld, hhandler, (Option.some.inj h).symm⟩
    · cases h

/-- A new holder under any interleaving of the threads, with its log. -/
def events (Thread : Type*) [DecidableEq Thread] :
    TransitionSystem (Logged (State Thread) HandleEvent) (Handle.Action Thread) :=
  (system Thread).logged observe

end RearmLock
end LiteMQ
