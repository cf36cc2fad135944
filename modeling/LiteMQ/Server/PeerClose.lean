import LiteMQ.Server.ConnectionHandling
import LiteMQ.Server.InputFraming

/-!
# A connection that its peer has closed

At the end of the stream `read()` closes both sides when no response is pending,
and otherwise the read side alone.  Then `write()` flushes the responses, but the
mask that it returns when the buffers are empty stops the write side and does not
close it.  Nothing looks at the connection again: `Leaked` is never left.

`finished_after_close` is the exact condition: no call of `write()` comes to its
end with empty buffers while the read side alone is closed.
-/

namespace LiteMQ
namespace ServerConnection

open DescriptorHandler HashConnection TransitionSystem

variable {Thread : Type*} [DecidableEq Thread]

/-- The teardown of the holder is complete, as far as the handler goes. -/
def TornDown (holder : DescriptorHandlerHolder) : Prop :=
  holder.handlingFinished = true ∧ holder.descriptorHandler = false

/-- No pass of the loop is in progress. -/
def Between (s : State Thread) : Prop := ∀ i, ¬ (s.handle.threads i).owns

/-- Between passes, a connection whose peer has closed and whose responses are
flushed is torn down. -/
def FinishedAfterClose (s : State Thread) : Prop :=
  Between s → s.handle.holder.flags.readClosed = true → s.connection.writeBufs = [] →
    TornDown s.handle.holder

/-- The end of `write()` with empty buffers is not reached while the read side
alone is closed. -/
def NotDrainedAfterClose (s : State Thread) (a : Action Thread) : Prop :=
  nextEffect s a.thread = some .callWrite → s.connection.writeBufs = [] →
    s.handle.holder.flags.readClosed = true → s.handle.holder.flags.writeClosed = true

instance (s : State Thread) (a : Action Thread) : Decidable (NotDrainedAfterClose s a) :=
  inferInstanceAs (Decidable (_ → _ → _ → _))

/-- `epoll_ctl` deletes the descriptor, which is registered. -/
def DelSucceeds (s : State Thread) (a : Action Thread) : Prop :=
  Handle.DelSucceeds s.handle ⟨a.thread, a.epollResult⟩

instance (s : State Thread) (a : Action Thread) : Decidable (DelSucceeds s a) :=
  inferInstanceAs (Decidable (Handle.DelSucceeds _ _))

/-! ## The masks of the connection -/

/-- What `read()` can have returned. -/
def ReadMask (connection : HashConnection) (stateModify : UInt64) : Prop :=
  stateModify = startWriteHandle ∨ stateModify = stopWriteHandle ∨ stateModify = errorMask ∨
    stateModify = closeReadHandle ||| startWriteHandle ∧ connection.writeBufs ≠ []

theorem applyStateModify_errorMask (flags : HandleFlags) :
    (applyStateModify flags errorMask).1 = ⟨false, flags.handleWrite, true, true⟩ := rfl

theorem applyStateModify_stopWrite (flags : HandleFlags) :
    (applyStateModify flags stopWriteHandle).1 = { flags with handleWrite := false } := rfl

theorem applyStateModify_startWrite (flags : HandleFlags) :
    (applyStateModify flags startWriteHandle).1 = { flags with handleWrite := true } := rfl

theorem applyStateModify_continue (flags : HandleFlags) :
    (applyStateModify flags continueHandle).1 = flags := rfl

/-- The end of the stream with responses pending. -/
theorem applyStateModify_endPending (flags : HandleFlags) :
    (applyStateModify flags (closeReadHandle ||| startWriteHandle)).1 =
      ⟨false, true, true, flags.writeClosed⟩ := rfl

/-! ## Runs in which the connection is finished -/

/-- The pass that has closed both sides is on its way to the teardown. -/
def HandlePc.closingPass : HandlePc → Prop
  | .writeSide | .applyWrite _ | .checkClosed | .finish => True
  | .out | .entered | .readSide | .applyRead _ | .epollDel | .stopped | .reset | .push | .erase
  | .leave | .rearm | .release | .unwound | .nullDereference | .assertionFailed => False

/-- The invariant of runs in which `write()` does not drain a closed connection. -/
structure Tracked (s : State Thread) : Prop where
  torn : Handle.Torn s.handle
  read : s.handle.holder.flags.readClosed = true → s.handle.holder.flags.handleRead = false
  both : s.handle.holder.flags.writeClosed = true → s.handle.holder.flags.readClosed = true
  readMask : ∀ i stateModify, (s.handle.threads i).pc = .applyRead stateModify →
    s.handle.holder.flags.readClosed = false ∧ ReadMask s.connection stateModify
  writeMask : ∀ i stateModify, (s.handle.threads i).pc = .applyWrite stateModify →
    stateModify = continueHandle ∨ stateModify = errorMask ∨ stateModify = stopWriteHandle
  drained : s.handle.holder.flags.readClosed = true → s.handle.holder.flags.writeClosed = false →
    s.connection.writeBufs = [] →
    ∃ i, (s.handle.threads i).pc = .writeSide ∧ nextEffect s i = some .callWrite
  closing : s.handle.holder.flags.writeClosed = true →
    s.handle.holder.handlingFinished = false →
    ∃ i, HandlePc.closingPass (s.handle.threads i).pc
  finishing : s.handle.holder.handlingFinished = true →
    s.handle.holder.descriptorHandler = false ∨ ∃ i, (s.handle.threads i).pc = .epollDel ∨
      (s.handle.threads i).pc = .stopped ∨ (s.handle.threads i).pc = .reset

theorem tracked_init : Tracked (system Thread).init where
  torn := Handle.torn_init
  read := fun h => by simp [system, Handle.system, DescriptorHandlerHolder.initial,
    HandleFlags.initial] at h
  both := fun h => by simp [system, Handle.system, DescriptorHandlerHolder.initial,
    HandleFlags.initial] at h
  readMask := fun i m h => by simp [system, Handle.system, HandleThread.initial] at h
  writeMask := fun i m h => by simp [system, Handle.system, HandleThread.initial] at h
  drained := fun h => by simp [system, Handle.system, DescriptorHandlerHolder.initial,
    HandleFlags.initial] at h
  closing := fun h => by simp [system, Handle.system, DescriptorHandlerHolder.initial,
    HandleFlags.initial] at h
  finishing := fun h => by simp [system, Handle.system, DescriptorHandlerHolder.initial] at h

omit [DecidableEq Thread] in
theorem inLoop_of_closingPass {thread : HandleThread} (h : HandlePc.closingPass thread.pc) :
    thread.inLoop := by
  unfold HandleThread.inLoop
  cases hpc : thread.pc <;> simp_all [HandlePc.closingPass]

omit [DecidableEq Thread] in
/-- The invariant says that the connection is finished in time. -/
theorem Tracked.finishedAfterClose {s : State Thread} (hs : Tracked s) :
    FinishedAfterClose s := by
  intro hbetween hread hempty
  have hfree : ∀ i, ¬ (s.handle.threads i).inLoop := fun i h => hbetween i (Or.inl h)
  cases hwrite : s.handle.holder.flags.writeClosed with
  | false =>
      obtain ⟨i, hpc, -⟩ := hs.drained hread hwrite hempty
      exact absurd (by simp [HandleThread.inLoop, hpc]) (hfree i)
  | true =>
      cases hfinished : s.handle.holder.handlingFinished with
      | false =>
          obtain ⟨i, hpc⟩ := hs.closing hwrite hfinished
          exact absurd (inLoop_of_closingPass hpc) (hfree i)
      | true =>
          refine ⟨hfinished, (hs.finishing hfinished).resolve_right ?_⟩
          rintro ⟨i, hpc⟩
          have htear : (s.handle.threads i).pc.tearingDown := by
            rcases hpc with hpc | hpc | hpc <;> simp [hpc, HandlePc.tearingDown]
          exact hbetween i (Or.inr htear)

omit [DecidableEq Thread] in
/-- The holder of a thread in the loop is not finished. -/
theorem Tracked.unfinished {s : State Thread} (hs : Tracked s) {i : Thread}
    (hi : (s.handle.threads i).inLoop) : s.handle.holder.handlingFinished = false :=
  (hs.torn.serialized.handler_of_inLoop hi).2

omit [DecidableEq Thread] in
/-- A pass of the loop of `read()`. -/
theorem Tracked.step_read {s t : State Thread} {i : Thread} {iteration : Iteration}
    {result : ReadResult} (hs : Tracked s) (heffect : nextEffect s i = some .callRead)
    (hcall : (s.connection.readIteration result).map Prod.fst = .ok iteration)
    (hconnection : t.connection = iteration.handler)
    (h : Calls s t i .applyRead iteration.returned) : Tracked t := by
  obtain ⟨hpc, hread, -⟩ := callRead_of_handleStep heffect
  have hloop : (s.handle.threads i).inLoop := by simp [HandleThread.inLoop, hpc]
  have hnone : (s.handle.threads i).pc.applying = none := by rw [hpc]; rfl
  have hopen : s.handle.holder.flags.readClosed = false := by
    by_contra hclosed
    have hoff := hs.read (by simpa using hclosed)
    rw [hread] at hoff
    cases hoff
  have hwriteOpen : s.handle.holder.flags.writeClosed = false := by
    by_contra hclosed
    have hboth := hs.both (by simpa using hclosed)
    rw [hopen] at hboth
    cases hboth
  have hunfinished := hs.unfinished hloop
  refine ⟨h.torn hs.torn, ?_, ?_, ?_, ?_, ?_, ?_, ?_⟩
  · -- `read()` is called while both sides are open, so the other fields ask nothing
    rw [h.holder, hopen]
    exact fun hfalse => absurd hfalse Bool.false_ne_true
  · rw [h.holder, hwriteOpen]
    exact fun hfalse => absurd hfalse Bool.false_ne_true
  · intro j m hj
    -- the mask is the one that `read()` has just returned
    obtain ⟨m', hreturned, hself⟩ := h.next_of_applying hs.torn.serialized hloop hnone hj rfl
    cases hself
    rw [h.holder, hconnection]
    exact ⟨hopen, (returned_of_readIteration hcall hreturned).imp_right (Or.imp_left And.left)⟩
  · intro j m hj
    obtain ⟨m', -, hself⟩ := h.next_of_applying hs.torn.serialized hloop hnone hj rfl
    cases hself
  · rw [h.holder, hopen]
    exact fun hfalse => absurd hfalse Bool.false_ne_true
  · rw [h.holder, hwriteOpen]
    exact fun hfalse => absurd hfalse Bool.false_ne_true
  · rw [h.holder, hunfinished]
    exact fun hfalse => absurd hfalse Bool.false_ne_true

omit [DecidableEq Thread] in
/-- A pass of the loop of `write()` that does not drain a closed connection. -/
theorem Tracked.step_write {s t : State Thread} {i : Thread} {iteration : Iteration}
    {result : SendResult} (hs : Tracked s) (heffect : nextEffect s i = some .callWrite)
    (hguard : s.connection.writeBufs = [] → s.handle.holder.flags.readClosed = true →
      s.handle.holder.flags.writeClosed = true)
    (hcall : s.connection.writeIteration result = .ok iteration)
    (hconnection : t.connection = iteration.handler)
    (h : Calls s t i .applyWrite iteration.returned) : Tracked t := by
  obtain ⟨hpc, -, -⟩ := callWrite_of_handleStep heffect
  have hloop : (s.handle.threads i).inLoop := by simp [HandleThread.inLoop, hpc]
  have hnone : (s.handle.threads i).pc.applying = none := by rw [hpc]; rfl
  have hunfinished := hs.unfinished hloop
  refine ⟨h.torn hs.torn, ?_, ?_, ?_, ?_, ?_, ?_, ?_⟩
  · rw [h.holder]
    exact hs.read
  · rw [h.holder]
    exact hs.both
  · intro j m hj
    obtain ⟨m', -, hself⟩ := h.next_of_applying hs.torn.serialized hloop hnone hj rfl
    cases hself
  · intro j m hj
    obtain ⟨m', hreturned, hself⟩ := h.next_of_applying hs.torn.serialized hloop hnone hj rfl
    cases hself
    rcases (returned_of_writeIteration hcall hreturned).2 with ⟨hm, -⟩ | ⟨hm | hm, -⟩
    · exact Or.inr (Or.inr hm)
    · exact Or.inl hm
    · exact Or.inr (Or.inl hm)
  · -- the call goes on, or the pass has found the buffers empty, which the guard excludes
    rw [h.holder, hconnection]
    intro hread hwrite hempty
    rcases h.self with ⟨-, hsame⟩ | ⟨m, hreturned, -⟩
    · refine ⟨i, by rw [hsame, hpc], ?_⟩
      unfold nextEffect
      rw [hsame]
      exact heffect
    · obtain ⟨hhandler, -⟩ := returned_of_writeIteration hcall hreturned
      rw [hhandler] at hempty
      have hclosed := hguard hempty hread
      rw [hwrite] at hclosed
      cases hclosed
  · intro _ _
    refine ⟨i, ?_⟩
    rcases h.self with ⟨-, hsame⟩ | ⟨m, -, hself⟩
    · simp [hsame, hpc, HandlePc.closingPass]
    · simp [hself, HandlePc.closingPass]
  · rw [h.holder, hunfinished]
    exact fun hfalse => absurd hfalse Bool.false_ne_true

/-! ## Steps of `handle_` itself -/

omit [DecidableEq Thread] in
/-- What `apply_state_modify_` makes of the masks of the connection. -/
theorem Tracked.flags_applied {s : State Thread} (hs : Tracked s) {i : Thread}
    {stateModify : UInt64} (happlying : (s.handle.threads i).pc.applying = some stateModify)
    {flags : HandleFlags} (hflags : flags = (applyStateModify s.handle.holder.flags stateModify).1) :
    (flags.readClosed = true → flags.handleRead = false) ∧
      (flags.writeClosed = true → flags.readClosed = true) ∧
      (flags.readClosed = true → flags.writeClosed = false → s.connection.writeBufs = [] →
        s.handle.holder.flags.readClosed = true ∧ s.handle.holder.flags.writeClosed = false) := by
  have hread := hs.read
  have hboth := hs.both
  cases hpc : (s.handle.threads i).pc <;> simp only [hpc, HandlePc.applying] at happlying
  case applyRead m =>
    obtain rfl := Option.some.inj happlying
    obtain ⟨hopen, hmask⟩ := hs.readMask i m hpc
    have hwriteOpen : s.handle.holder.flags.writeClosed = false := by
      by_contra hclosed
      have htrue := hboth (by simpa using hclosed)
      rw [hopen] at htrue
      cases htrue
    rcases hmask with rfl | rfl | rfl | ⟨rfl, hpending⟩
    · rw [hflags, applyStateModify_startWrite]
      simp [hopen, hwriteOpen]
    · rw [hflags, applyStateModify_stopWrite]
      simp [hopen, hwriteOpen]
    · rw [hflags, applyStateModify_errorMask]
      simp
    · -- the end of the stream closes the read side alone while responses are pending
      rw [hflags, applyStateModify_endPending]
      simp [hpending]
  case applyWrite m =>
    obtain rfl := Option.some.inj happlying
    rcases hs.writeMask i m hpc with rfl | rfl | rfl
    · rw [hflags, applyStateModify_continue]
      exact ⟨hread, hboth, fun hclosed hopen _ => ⟨hclosed, hopen⟩⟩
    · rw [hflags, applyStateModify_errorMask]
      simp
    · rw [hflags, applyStateModify_stopWrite]
      exact ⟨hread, hboth, fun hclosed hopen _ => ⟨hclosed, hopen⟩⟩
  all_goals cases happlying

section HandleSteps

variable {s t : State Thread} {i : Thread} {result : CallResult}

omit [DecidableEq Thread] in
/-- An operation of `handle_` leaves the flags consistent; that a closed
connection is drained was so before. -/
theorem Tracked.flags_step (hs : Tracked s) (h : Handle.Stepped s.handle t.handle ⟨i, result⟩) :
    (t.handle.holder.flags.readClosed = true → t.handle.holder.flags.handleRead = false) ∧
      (t.handle.holder.flags.writeClosed = true → t.handle.holder.flags.readClosed = true) ∧
      (t.handle.holder.flags.readClosed = true → t.handle.holder.flags.writeClosed = false →
        s.connection.writeBufs = [] →
        s.handle.holder.flags.readClosed = true ∧ s.handle.holder.flags.writeClosed = false) := by
  cases happlying : (s.handle.threads i).pc.applying with
  | some stateModify => exact hs.flags_applied happlying (h.flags_of_some happlying)
  | none =>
      rw [h.flags_of_none happlying]
      exact ⟨hs.read, hs.both, fun hclosed hopen _ => ⟨hclosed, hopen⟩⟩

omit [DecidableEq Thread] in
/-- An operation of a thread outside the loop changes no flag, and resets the
handler of no holder that another thread is in the loop of. -/
theorem Tracked.frame_of_inLoop (hs : Tracked s)
    (h : Handle.Stepped s.handle t.handle ⟨i, result⟩) {j : Thread} (hne : j ≠ i)
    (hj : (s.handle.threads j).inLoop) :
    t.handle.holder.flags = s.handle.holder.flags ∧
      t.handle.holder.descriptorHandler = s.handle.holder.descriptorHandler ∧
      t.handle.threads j = s.handle.threads j := by
  refine ⟨?_, ?_, h.other j hne⟩
  · apply h.flags_of_none
    cases happlying : (s.handle.threads i).pc.applying with
    | none => rfl
    | some stateModify =>
        exact absurd (alone hs.torn.serialized (Handle.inLoop_of_applying happlying) hj) hne
  · rw [h.descriptorHandler, if_neg]
    intro hpc
    have htear : (s.handle.threads i).owns := Or.inr (by simp [hpc, HandlePc.tearingDown])
    exact hne (hs.torn.serialized.single j i (Or.inl hj) htear)

/-- The pass that has closed both sides goes on to the teardown. -/
theorem closingPass_step (hserialized : Handle.Serialized s.handle)
    (hboth : s.handle.holder.flags.writeClosed = true →
      s.handle.holder.flags.readClosed = true)
    (hclosing : s.handle.holder.flags.writeClosed = true →
      s.handle.holder.handlingFinished = false → ∃ j, HandlePc.closingPass (s.handle.threads j).pc)
    (hwrite : nextEffect s i ≠ some .callWrite)
    (hstep : Handle.step s.handle ⟨i, result⟩ = some t.handle)
    (hclosed : t.handle.holder.flags.writeClosed = true)
    (hunfinished : t.handle.holder.handlingFinished = false) :
    ∃ j, HandlePc.closingPass (t.handle.threads j).pc := by
  have h := Handle.stepped_of_step hstep
  cases happlying : (s.handle.threads i).pc.applying with
  | some stateModify =>
      refine ⟨i, ?_⟩
      rw [h.self]
      cases hpc : (s.handle.threads i).pc <;> simp only [hpc, HandlePc.applying] at happlying
      case applyRead | applyWrite =>
        simp [handleStep, hpc, applyToHolder, HandlePc.closingPass]
      all_goals cases happlying
  | none =>
      rw [h.flags_of_none happlying] at hclosed
      have hbefore : s.handle.holder.handlingFinished = false := by
        by_contra hfinished
        have htrue := h.handlingFinished_of_finished (by simpa using hfinished)
        rw [hunfinished] at htrue
        cases htrue
      obtain ⟨j, hj⟩ := hclosing hclosed hbefore
      by_cases hne : j = i
      · subst hne
        refine ⟨j, ?_⟩
        cases hpc : (s.handle.threads j).pc <;> simp only [hpc, HandlePc.closingPass] at hj
        case writeSide =>
          -- `write()` is passed over: a pass of its loop is another step
          rw [checkClosed_of_not_called hserialized hpc hwrite hstep]
          trivial
        case applyWrite m => simp [hpc, HandlePc.applying] at happlying
        case checkClosed =>
          rw [h.self]
          simp [handleStep, hpc, hboth hclosed, hclosed, HandleThread.goto,
            HandlePc.closingPass]
        case finish =>
          rw [h.handlingFinished, if_pos hpc] at hunfinished
          cases hunfinished
      · exact ⟨j, by rwa [h.other j hne]⟩

omit [DecidableEq Thread] in
/-- The thread that marked the holder goes on to the reset. -/
theorem Tracked.finishing_step (hs : Tracked s)
    (hdel : Handle.DelSucceeds s.handle ⟨i, result⟩)
    (h : Handle.Stepped s.handle t.handle ⟨i, result⟩)
    (hfinished : t.handle.holder.handlingFinished = true) :
    t.handle.holder.descriptorHandler = false ∨ ∃ j, (t.handle.threads j).pc = .epollDel ∨
      (t.handle.threads j).pc = .stopped ∨ (t.handle.threads j).pc = .reset := by
  by_cases hpc : (s.handle.threads i).pc = .finish
  · refine Or.inr ⟨i, Or.inl ?_⟩
    rw [h.self]
    simp [handleStep, hpc, HandleThread.goto]
  · rw [h.handlingFinished, if_neg hpc] at hfinished
    have hnull : s.handle.holder.descriptorHandler = false →
        t.handle.holder.descriptorHandler = false := by
      intro hnull
      rw [h.descriptorHandler, hnull]
      split <;> rfl
    rcases hs.finishing hfinished with hbefore | ⟨j, hj⟩
    · exact Or.inl (hnull hbefore)
    · cases hhandler : s.handle.holder.descriptorHandler with
      | false => exact Or.inl (hnull hhandler)
      | true =>
          by_cases hne : j = i
          · subst hne
            rcases hj with hj | hj | hj
            · refine Or.inr ⟨j, Or.inr (Or.inl ?_)⟩
              rw [h.self]
              cases hresult : result with
              | threw => exact absurd hresult (hdel hj)
              | returned m =>
                  simp [handleStep, hj, hhandler, HandleThread.afterCall, HandleThread.goto]
            · refine Or.inr ⟨j, Or.inr (Or.inr ?_)⟩
              rw [h.self]
              simp [handleStep, hj, hhandler, HandleThread.goto]
            · left
              rw [h.descriptorHandler, if_pos hj]
          · exact Or.inr ⟨j, by rwa [h.other j hne]⟩

/-- An operation of `handle_` that calls neither `read()` nor `write()`. -/
theorem Tracked.step_other (hs : Tracked s) (hdel : Handle.DelSucceeds s.handle ⟨i, result⟩)
    (hread : nextEffect s i ≠ some .callRead) (hwrite : nextEffect s i ≠ some .callWrite)
    (hstep : Handle.step s.handle ⟨i, result⟩ = some t.handle)
    (hconnection : t.connection = s.connection) : Tracked t := by
  have h := Handle.stepped_of_step hstep
  have hnone := applying_of_not_called hread hwrite hstep
  obtain ⟨hoff, hboth, hdrained⟩ := hs.flags_step h
  -- a mask that is to be applied after the step was so before, by another thread
  have hmask : ∀ j m, (t.handle.threads j).pc.applying = some m →
      j ≠ i ∧ (s.handle.threads j).pc = (t.handle.threads j).pc := by
    intro j m hj
    have hne : j ≠ i := by
      rintro rfl
      rw [hnone] at hj
      cases hj
    exact ⟨hne, by rw [h.other j hne]⟩
  refine ⟨hs.torn.step hstep, hoff, hboth, ?_, ?_, ?_,
    closingPass_step hs.torn.serialized hs.both hs.closing hwrite hstep, hs.finishing_step hdel h⟩
  · intro j m hj
    obtain ⟨hne, hsame⟩ := hmask j m (by simp [hj, HandlePc.applying])
    rw [hj] at hsame
    have hloop : (s.handle.threads j).inLoop := by simp [HandleThread.inLoop, hsame]
    rw [(hs.frame_of_inLoop h hne hloop).1, hconnection]
    exact hs.readMask j m hsame
  · intro j m hj
    obtain ⟨-, hsame⟩ := hmask j m (by simp [hj, HandlePc.applying])
    rw [hj] at hsame
    exact hs.writeMask j m hsame
  · intro hclosed hopen hempty
    rw [hconnection] at hempty
    obtain ⟨hclosed', hopen'⟩ := hdrained hclosed hopen hempty
    -- the thread in front of `write()` is another one, since this step does not call it
    obtain ⟨j, hpc, heffect⟩ := hs.drained hclosed' hopen' hempty
    have hne : j ≠ i := by
      rintro rfl
      exact hwrite heffect
    have hloop : (s.handle.threads j).inLoop := by simp [HandleThread.inLoop, hpc]
    obtain ⟨hflags, hhandler, hsame⟩ := hs.frame_of_inLoop h hne hloop
    obtain ⟨-, hflag, hset⟩ := callWrite_of_handleStep heffect
    refine ⟨j, by rw [hsame, hpc], ?_⟩
    simp [nextEffect, handleStep, hsame, hpc, hflags, hflag, hhandler, hset]

end HandleSteps

theorem Tracked.step {s t : State Thread} {a : Action Thread} (hs : Tracked s)
    (hdel : DelSucceeds s a) (hguard : NotDrainedAfterClose s a)
    (hstep : ServerConnection.step s a = some t) : Tracked t := by
  rcases step_cases hstep with ⟨iteration, heffect, hcall, hconnection, hcalls⟩ |
    ⟨iteration, heffect, hcall, hconnection, hcalls⟩ | ⟨hread, hwrite, hhandle, hconnection⟩
  · exact hs.step_read heffect hcall hconnection hcalls
  · exact hs.step_write heffect (hguard heffect) hcall hconnection hcalls
  · exact hs.step_other hdel hread hwrite hhandle hconnection

/-! ## A connection that is never finished -/

/-- The read side alone is closed, the buffers are empty, and neither `read()` nor
`write()` will be called again. -/
structure Leaked (s : State Thread) : Prop where
  serialized : Handle.Serialized s.handle
  readClosed : s.handle.holder.flags.readClosed = true
  writeOpen : s.handle.holder.flags.writeClosed = false
  read : s.handle.holder.flags.handleRead = false
  empty : s.connection.writeBufs = []
  unfinished : s.handle.holder.handlingFinished = false
  noFinish : ∀ i, (s.handle.threads i).pc ≠ .finish
  masks : ∀ i stateModify, (s.handle.threads i).pc.applying = some stateModify →
    (s.handle.threads i).pc = .applyWrite stopWriteHandle
  write : s.handle.holder.flags.handleWrite = true →
    ∃ i, (s.handle.threads i).pc = .applyWrite stopWriteHandle

/-- The end of `write()` with empty buffers leaks a connection whose read side
alone is closed. -/
theorem Tracked.leaked_step {s t : State Thread} {a : Action Thread} (hs : Tracked s)
    (hguard : ¬ NotDrainedAfterClose s a) (hstep : ServerConnection.step s a = some t) :
    Leaked t := by
  obtain ⟨heffect, hempty, hread, hopen⟩ : nextEffect s a.thread = some .callWrite ∧
      s.connection.writeBufs = [] ∧ s.handle.holder.flags.readClosed = true ∧
      s.handle.holder.flags.writeClosed = false := by
    simpa [NotDrainedAfterClose] using hguard
  obtain ⟨hpc, -, -⟩ := callWrite_of_handleStep heffect
  have hloop : (s.handle.threads a.thread).inLoop := by simp [HandleThread.inLoop, hpc]
  rcases step_cases hstep with ⟨iteration, heffect', -⟩ |
    ⟨iteration, -, hcall, hconnection, h⟩ | ⟨-, hwrite, -⟩
  · rw [heffect] at heffect'
    cases heffect'
  · have hreturned : iteration = ⟨s.connection, some stopWriteHandle⟩ := by
      unfold writeIteration at hcall
      rw [if_pos hempty] at hcall
      exact (Except.ok.inj hcall).symm
    subst hreturned
    obtain ⟨hnone, -⟩ | ⟨m, hm, hself⟩ := h.self
    · cases hnone
    · cases hm
      have hserialized := (h.torn hs.torn).serialized
      have hunfinished := hs.unfinished hloop
      -- `write()` has returned `STOP_WRITE_HANDLE`, and only that mask is to be applied
      refine ⟨hserialized, ?_, ?_, ?_, ?_, ?_, ?_, ?_, fun _ => ⟨a.thread, hself⟩⟩
      · rw [h.holder]
        exact hread
      · rw [h.holder]
        exact hopen
      · rw [h.holder]
        exact hs.read hread
      · rw [hconnection]
        exact hempty
      · rw [h.holder]
        exact hunfinished
      · intro i hi
        have hother : (t.handle.threads i).inLoop := by simp [HandleThread.inLoop, hi]
        have hmine : (t.handle.threads a.thread).inLoop := by simp [HandleThread.inLoop, hself]
        obtain rfl := hserialized.single i a.thread (Or.inl hother) (Or.inl hmine)
        rw [hself] at hi
        cases hi
      · intro i m hi
        obtain rfl := h.eq_of_inLoop hs.torn.serialized hloop (Handle.inLoop_of_applying hi)
        exact hself
  · exact absurd heffect hwrite

omit [DecidableEq Thread] in
/-- Neither `read()` nor `write()` is called for a leaked connection. -/
theorem Leaked.not_called {s : State Thread} (hs : Leaked s) (i : Thread) :
    nextEffect s i ≠ some .callRead ∧ nextEffect s i ≠ some .callWrite := by
  constructor
  · intro heffect
    have hflag := (callRead_of_handleStep heffect).2.1
    rw [hs.read] at hflag
    cases hflag
  · -- while `handle_write` is set, the thread in the loop is about to clear it
    intro heffect
    obtain ⟨hpc, hflag, -⟩ := callWrite_of_handleStep heffect
    obtain ⟨j, hj⟩ := hs.write hflag
    have hmine : (s.handle.threads i).inLoop := by simp [HandleThread.inLoop, hpc]
    have hother : (s.handle.threads j).inLoop := by simp [HandleThread.inLoop, hj]
    obtain rfl := hs.serialized.single j i (Or.inl hother) (Or.inl hmine)
    rw [hpc] at hj
    cases hj

omit [DecidableEq Thread] in
/-- The one mask that can be applied to a leaked connection stops the write side. -/
theorem Leaked.flags_step {s t : State Thread} {i : Thread} {result : CallResult} (hs : Leaked s)
    (h : Handle.Stepped s.handle t.handle ⟨i, result⟩) :
    t.handle.holder.flags = s.handle.holder.flags ∧
        (s.handle.threads i).pc.applying = none ∨
      t.handle.holder.flags = { s.handle.holder.flags with handleWrite := false } := by
  cases happlying : (s.handle.threads i).pc.applying with
  | none => exact Or.inl ⟨h.flags_of_none happlying, rfl⟩
  | some m =>
      have hpc := hs.masks i m happlying
      have hstop : (s.handle.threads i).pc.applying = some stopWriteHandle := by
        simp [hpc, HandlePc.applying]
      exact Or.inr (h.flags_of_some hstop)

/-- Nothing looks at a leaked connection again. -/
theorem Leaked.step {s t : State Thread} {a : Action Thread} (hs : Leaked s)
    (hstep : ServerConnection.step s a = some t) : Leaked t := by
  obtain ⟨hnotRead, hnotWrite⟩ := hs.not_called a.thread
  rcases step_cases hstep with ⟨-, heffect, -⟩ | ⟨-, heffect, -⟩ | ⟨-, -, hhandle, hconnection⟩
  · exact absurd heffect hnotRead
  · exact absurd heffect hnotWrite
  · have h := Handle.stepped_of_step hhandle
    have hnone := applying_of_not_called hnotRead hnotWrite hhandle
    have hflags := hs.flags_step h
    refine ⟨hs.serialized.step hhandle, ?_, ?_, ?_, ?_, ?_, ?_, ?_, ?_⟩
    · rcases hflags with ⟨hflags, -⟩ | hflags <;> rw [hflags] <;> exact hs.readClosed
    · rcases hflags with ⟨hflags, -⟩ | hflags <;> rw [hflags] <;> exact hs.writeOpen
    · rcases hflags with ⟨hflags, -⟩ | hflags <;> rw [hflags] <;> exact hs.read
    · rw [hconnection]
      exact hs.empty
    · rw [h.handlingFinished, if_neg (hs.noFinish a.thread)]
      exact hs.unfinished
    · -- the test of the closed flags finds the write side open
      intro i hi
      by_cases hne : i = a.thread
      · subst hne
        rw [h.self] at hi
        have hclosed := (closed_of_finish hi).2.2
        rw [hs.writeOpen] at hclosed
        cases hclosed
      · rw [h.other i hne] at hi
        exact hs.noFinish i hi
    · intro i m hi
      by_cases hne : i = a.thread
      · subst hne
        rw [hnone] at hi
        cases hi
      · rw [h.other i hne] at hi ⊢
        exact hs.masks i m hi
    · intro hwrite
      rcases hflags with ⟨hflags, happlying⟩ | hflags
      · rw [hflags] at hwrite
        obtain ⟨i, hi⟩ := hs.write hwrite
        have hne : i ≠ a.thread := by
          rintro rfl
          simp [hi, HandlePc.applying] at happlying
        exact ⟨i, by rwa [h.other i hne]⟩
      · rw [hflags] at hwrite
        cases hwrite

omit [DecidableEq Thread] in
theorem Leaked.not_finishedAfterClose {s : State Thread} (hs : Leaked s) (hbetween : Between s) :
    ¬ FinishedAfterClose s := by
  intro hfinished
  have htorn := (hfinished hbetween hs.readClosed hs.empty).1
  rw [hs.unfinished] at htorn
  cases htorn

/-! ## Runs -/

/-- When no call of `write()` comes to its end with empty buffers while the read
side alone is closed, then between passes a connection whose peer has closed and
whose responses are flushed is torn down, in every state of the run.  And a run
that ends between passes in such a state has no such call. -/
theorem finished_after_close {actions : List (Action Thread)} {s : State Thread}
    (hrun : (system Thread).run (system Thread).init actions = some s)
    (hdel : Meets (system Thread) DelSucceeds (system Thread).init actions) :
    (Meets (system Thread) NotDrainedAfterClose (system Thread).init actions →
        Throughout (system Thread) FinishedAfterClose (system Thread).init actions) ∧
      (Between s → FinishedAfterClose s →
        Meets (system Thread) NotDrainedAfterClose (system Thread).init actions) := by
  have hgood : ∀ (s : State Thread) a t, Tracked s → DelSucceeds s a → NotDrainedAfterClose s a →
      (system Thread).step s a = some t → Tracked t :=
    fun _ _ _ h hdel hguard hstep => h.step hdel hguard hstep
  have hbad : ∀ (s : State Thread) a t, Tracked s → DelSucceeds s a →
      ¬ NotDrainedAfterClose s a → (system Thread).step s a = some t → Leaked t :=
    fun _ _ _ h _ hguard hstep => h.leaked_step hguard hstep
  have hstay : ∀ (s : State Thread) a t, Leaked s → DelSucceeds s a →
      (system Thread).step s a = some t → Leaked t :=
    fun _ _ _ h _ hstep => h.step hstep
  refine ⟨fun hmeets => ?_, fun hbetween hfinished => ?_⟩
  · exact throughout_of_meets (fun _ h => h.finishedAfterClose) hgood tracked_init hdel hmeets
  · rcases run_split_within hgood hbad hstay tracked_init hdel hrun with
      ⟨hmeets, -⟩ | ⟨-, hleaked⟩
    · exact hmeets
    · exact absurd hfinished (hleaked.not_finishedAfterClose hbetween)

/-! ## Runs of one thread -/

/-- The owner of the new connection at this place of its first pass. -/
def handleAt (flags : HandleFlags) (pc : HandlePc) (passStarted : Nat) : Handle.State Unit :=
  ⟨⟨flags, true, 1, false⟩, fun _ => ⟨pc, 0, false, false⟩, passStarted, 0⟩

/-- The next operation of the owner, with this result of `::read`. -/
def readAction (result : ReadResult) : Action Unit :=
  ⟨(), result, .again, .returned continueHandle⟩

/-- An increment and the test at the entry lead to the call of `read()`. -/
theorem run_to_read (actions : List (Action Unit)) :
    (system Unit).run (system Unit).init (readAction .again :: readAction .again :: actions) =
      (system Unit).run ⟨handleAt .initial .readSide 0, .initial⟩ actions := by
  rw [run_cons_of_step _ (t := ⟨⟨⟨.initial, true, 1, false⟩, fun _ => ⟨.entered, 0, false, false⟩,
    0, 0⟩, .initial⟩) rfl]
  exact run_cons_of_step _ rfl _

/-- A pass of the loop of `read()`. -/
theorem step_readSide {connection : HashConnection} {iteration : Iteration} {result : ReadResult}
    {messages : List (List UInt8)}
    (hread : connection.readIteration result = .ok (iteration, messages)) :
    (system Unit).step ⟨handleAt .initial .readSide 0, connection⟩ (readAction result) =
      afterIteration ⟨handleAt .initial .readSide 0, connection⟩ () (.ok iteration) := by
  have heffect : nextEffect ⟨handleAt .initial .readSide 0, connection⟩ () = some .callRead := rfl
  simp only [system]
  unfold step
  rw [readAction, if_pos heffect, hread]
  rfl

/-- The pass that returns hands its mask to `handle_`. -/
theorem step_readSide_returned {connection next : HashConnection} {result : ReadResult}
    {stateModify : UInt64} {messages : List (List UInt8)}
    (hread : connection.readIteration result = .ok (⟨next, some stateModify⟩, messages)) :
    (system Unit).step ⟨handleAt .initial .readSide 0, connection⟩ (readAction result) =
      some ⟨handleAt .initial (.applyRead stateModify) 1, next⟩ := by
  rw [step_readSide hread]
  rfl

/-- The end of the stream. -/
theorem readIteration_closed {h : HashConnection} (hok : h.ReadBufOk) :
    h.readIteration .closed = .ok (⟨h.prepareReadBuf, some (closeReadHandle |||
      (if h.prepareReadBuf.writeBufs ≠ [] then startWriteHandle else closeWriteHandle))⟩, []) := by
  simp only [readIteration, ensure_of_true _ (prepareReadBuf_spec hok).1, Fault.ok_bind]
  rfl

theorem prepareReadBuf_initial : HashConnection.initial.prepareReadBuf =
    { HashConnection.initial with readBuf := 0 :: List.replicate (readBlockSize - 1) 0 } := by
  unfold prepareReadBuf
  rw [if_pos (by decide)]
  rfl

/-- The mask of the end of the stream when no response is pending. -/
theorem readIteration_endIdle :
    HashConnection.initial.readIteration .closed =
      .ok (⟨HashConnection.initial.prepareReadBuf, some errorMask⟩, []) := by
  have hidle : HashConnection.initial.prepareReadBuf.writeBufs = [] := by
    rw [prepareReadBuf_initial]
    rfl
  rw [readIteration_closed framed_initial.readBuf, hidle]
  rfl

/-- A pass in which `::sendmsg` is not called or sends these bytes. -/
def quietAction (sentSize : Nat) : Action Unit :=
  ⟨(), .again, .sent sentSize, .returned continueHandle⟩

/-- The peer closes before it sends anything: the connection is torn down in that
pass. -/
theorem finished_after_close_at_once :
    ∃ s, (system Unit).run (system Unit).init
        (readAction .again :: readAction .again :: readAction .closed ::
          List.replicate 12 (quietAction 0)) = some s ∧
      s.handle.holder.flags.readClosed = true ∧ Between s ∧ TornDown s.handle.holder := by
  have hend : (system Unit).step ⟨handleAt .initial .readSide 0, .initial⟩ (readAction .closed) =
      some ⟨handleAt .initial (.applyRead errorMask) 1, HashConnection.initial.prepareReadBuf⟩ :=
    step_readSide_returned readIteration_endIdle
  have hrest : ((system Unit).run ⟨handleAt .initial (.applyRead errorMask) 1,
      HashConnection.initial.prepareReadBuf⟩ (List.replicate 12 (quietAction 0))).map
        (fun s => ((s.handle.threads ()).pc, s.handle.holder.flags.readClosed,
          s.connection.writeBufs)) = some (.out, true, []) := by
    rw [prepareReadBuf_initial]
    decide +kernel
  have hguard : Meets (system Unit) NotDrainedAfterClose
      ⟨handleAt .initial (.applyRead errorMask) 1, HashConnection.initial.prepareReadBuf⟩
      (List.replicate 12 (quietAction 0)) := by
    rw [prepareReadBuf_initial]
    decide +kernel
  obtain ⟨s, htail, hvalues⟩ := Option.map_eq_some_iff.mp hrest
  simp only [Prod.mk.injEq] at hvalues
  obtain ⟨hpc, hclosed, hempty⟩ := hvalues
  have hrun : (system Unit).run (system Unit).init
      (readAction .again :: readAction .again :: readAction .closed ::
        List.replicate 12 (quietAction 0)) = some s :=
    (run_to_read _).trans ((run_cons_of_step _ hend _).trans htail)
  have hdel : Meets (system Unit) DelSucceeds (system Unit).init
      (readAction .again :: readAction .again :: readAction .closed ::
        List.replicate 12 (quietAction 0)) := by
    refine meets_of_forall (fun a ha s _ => ?_) _
    have hreturned : a.epollResult = .returned continueHandle := by
      simp only [List.mem_cons, List.mem_replicate] at ha
      rcases ha with rfl | rfl | rfl | ⟨-, rfl⟩ <;> rfl
    simp [hreturned]
  have hmeets : Meets (system Unit) NotDrainedAfterClose (system Unit).init
      (readAction .again :: readAction .again :: readAction .closed ::
        List.replicate 12 (quietAction 0)) := by
    refine .cons (fun heffect => nomatch heffect) rfl (.cons (fun heffect => nomatch heffect) rfl ?_)
    exact .cons (fun heffect => nomatch heffect) hend hguard
  have hbetween : Between s := by
    intro i
    simp [HandleThread.owns, HandleThread.inLoop, HandlePc.tearingDown, hpc]
  have hfinished : FinishedAfterClose s :=
    Throughout.last ((finished_after_close hrun hdel).1 hmeets) hrun
  exact ⟨s, hrun, hclosed, hbetween, hfinished hbetween hclosed hempty⟩

/-- A connection that has read an empty line, with its response pending. -/
def pendingResponse (readBuf : List UInt8) : HashConnection :=
  { HashConnection.initial with
    readProcessedBufPos := 1
    readBufPos := 1
    readBuf := readBuf
    writeBufs := [⟨0, List.replicate 7 48 ++ [newline]⟩]
    writeIovecBuf := [⟨⟨0, 0⟩, 8⟩]
    writeMsg := ⟨[⟨⟨0, 0⟩, 8⟩], 1⟩
    nextNode := 1 }

/-- The bytes `"\n"`. -/
def emptyLine : ReadBlock := ⟨[newline], by decide, by decide⟩

theorem acceptBlock_emptyLine (readBuf : List UInt8) (x : UInt8) :
    acceptBlock { HashConnection.initial with readBuf := x :: readBuf } emptyLine.bytes =
      .ok (pendingResponse (newline :: readBuf), [[]]) := by
  rfl

/-- `read_buf_` of a new connection after the empty line, and as the second
`::read` finds it. -/
@[irreducible] def firstReadBuf : List UInt8 := newline :: List.replicate (readBlockSize - 1) 0
@[irreducible] def secondReadBuf : List UInt8 := Buffer.resize firstReadBuf (1 + readBlockSize) 0

theorem readIteration_emptyLine :
    HashConnection.initial.readIteration (.block emptyLine) =
      .ok (⟨pendingResponse firstReadBuf, none⟩, [[]]) := by
  have hroom := (prepareReadBuf_spec framed_initial.readBuf).1
  have haccept : HashConnection.initial.prepareReadBuf.acceptBlock emptyLine.bytes =
      .ok (pendingResponse firstReadBuf, [[]]) := by
    rw [prepareReadBuf_initial, acceptBlock_emptyLine, firstReadBuf]
  simp only [readIteration, ensure_of_true _ hroom, Fault.ok_bind, haccept]
  rfl

theorem prepareReadBuf_pendingResponse {readBuf : List UInt8}
    (hshort : readBuf.length < 1 + readBlockSize) :
    (pendingResponse readBuf).prepareReadBuf =
      pendingResponse (Buffer.resize readBuf (1 + readBlockSize) 0) := by
  unfold prepareReadBuf
  rw [if_pos (show (pendingResponse readBuf).readBuf.length <
    (pendingResponse readBuf).readBufPos + readBlockSize from hshort)]
  rfl

/-- The second `::read` finds a buffer that has room for a block. -/
theorem prepareReadBuf_firstReadBuf : (pendingResponse firstReadBuf).ReadBufOk ∧
    (pendingResponse firstReadBuf).prepareReadBuf = pendingResponse secondReadBuf := by
  have hlength : firstReadBuf.length = readBlockSize := by
    rw [firstReadBuf, List.length_cons, List.length_replicate]
    exact Nat.sub_add_cancel (by decide)
  constructor
  · refine ⟨Nat.le_refl 1, ?_⟩
    show 1 ≤ firstReadBuf.length
    rw [hlength]
    decide
  · rw [prepareReadBuf_pendingResponse (by rw [hlength]; omega), secondReadBuf]

theorem readIteration_endPending :
    (pendingResponse firstReadBuf).readIteration .closed =
      .ok (⟨pendingResponse secondReadBuf, some (closeReadHandle ||| startWriteHandle)⟩, []) := by
  obtain ⟨hok, hprepare⟩ := prepareReadBuf_firstReadBuf
  have hpending : (pendingResponse secondReadBuf).writeBufs ≠ [] := by simp [pendingResponse]
  rw [readIteration_closed hok, hprepare, if_pos hpending]

/-- Thread `()` reads an empty line and then the end of the stream, and flushes
the response in the same pass.  It leaves a connection that is closed by the peer
and has nothing to write, and that is never torn down. -/
theorem connection_leaked :
    ∃ s, (system Unit).run (system Unit).init
        ([readAction .again, readAction .again, readAction (.block emptyLine),
          readAction .closed] ++
          List.replicate 8 (quietAction 8)) = some s ∧
      (s.handle.threads ()).pc = .out ∧ ¬ FinishedAfterClose s := by
  have hrest : ((system Unit).run
      ⟨handleAt .initial (.applyRead (closeReadHandle ||| startWriteHandle)) 1,
        pendingResponse secondReadBuf⟩
      (List.replicate 8 (quietAction 8))).map
        (fun s => ((s.handle.threads ()).pc, s.handle.holder.flags.readClosed,
          s.connection.writeBufs, s.handle.holder.handlingFinished)) =
      some (.out, true, [], false) := by
    decide +kernel
  obtain ⟨s, hrun, hvalues⟩ := Option.map_eq_some_iff.mp hrest
  simp only [Prod.mk.injEq] at hvalues
  obtain ⟨hpc, hclosed, hempty, hunfinished⟩ := hvalues
  refine ⟨s, ?_, hpc, ?_⟩
  · have hline : (system Unit).step ⟨handleAt .initial .readSide 0, .initial⟩
        (readAction (.block emptyLine)) =
          some ⟨handleAt .initial .readSide 0, pendingResponse firstReadBuf⟩ :=
      by
      rw [step_readSide readIteration_emptyLine]
      rfl
    have hend : (system Unit).step ⟨handleAt .initial .readSide 0, pendingResponse firstReadBuf⟩
        (readAction .closed) = some ⟨handleAt .initial
          (.applyRead (closeReadHandle ||| startWriteHandle)) 1, pendingResponse secondReadBuf⟩ :=
      step_readSide_returned readIteration_endPending
    exact (run_to_read _).trans ((run_cons_of_step _ hline _).trans
      ((run_cons_of_step _ hend _).trans hrun))
  · intro hfinished
    have hbetween : Between s := by
      intro i
      simp [HandleThread.owns, HandleThread.inLoop, HandlePc.tearingDown, hpc]
    have htorn := (hfinished hbetween hclosed hempty).1
    rw [hunfinished] at htorn
    cases htorn

end ServerConnection
end LiteMQ
