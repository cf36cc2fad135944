import LiteMQ.Foundation.Trace
import LiteMQ.Poller.HandleSerialization

/-!
# What can be observed of `handle_`

`events` is a holder under any interleaving of the threads, with the log of what
`handle_` does outside the holder and of the masks that it applies.  The laws of
a whole run are laws of this log.
-/

namespace LiteMQ

/-- The mask that the thread is about to apply. -/
def HandlePc.applying : HandlePc → Option UInt64
  | .applyRead stateModify | .applyWrite stateModify => some stateModify
  | .out | .entered | .readSide | .writeSide | .checkClosed | .finish | .epollDel | .stopped
  | .reset | .push | .erase | .leave | .rearm | .release | .unwound | .nullDereference
  | .assertionFailed => none

/-- An entry of the log. -/
inductive HandleEvent
  /-- `apply_state_modify_`, with the flags before and after -/
  | applied (stateModify : UInt64) (before after : HandleFlags)
  | effect (effect : HandleEffect)
  deriving DecidableEq, Repr

/-! ## The flags of the holder -/

section Operations

variable (holder : DescriptorHandlerHolder) (thread : HandleThread) (result : CallResult)

/-- The flags change where a mask is applied. -/
theorem handleStep_flags : (handleStep holder thread result).holder.flags =
    match thread.pc.applying with
    | some stateModify => (applyStateModify holder.flags stateModify).1
    | none => holder.flags := by
  unfold handleStep
  cases hpc : thread.pc <;> simp only [applyToHolder, HandlePc.applying] <;>
    (repeat' split) <;> rfl

variable {holder thread result}

theorem handleStep_flags_of_some {stateModify : UInt64}
    (h : thread.pc.applying = some stateModify) :
    (handleStep holder thread result).holder.flags =
      (applyStateModify holder.flags stateModify).1 := by
  rw [handleStep_flags, h]

theorem handleStep_flags_of_none (h : thread.pc.applying = none) :
    (handleStep holder thread result).holder.flags = holder.flags := by
  rw [handleStep_flags, h]

/-! ## The calls and the requests -/

/-- `read()` is called on a holder that handles reads and has its handler. -/
theorem callRead_of_handleStep
    (h : (handleStep holder thread result).effect = some .callRead) :
    thread.pc = .readSide ∧ holder.flags.handleRead = true ∧ holder.descriptorHandler = true := by
  unfold handleStep at h
  cases hpc : thread.pc <;> simp only [hpc, applyToHolder] at h
  case readSide =>
    (repeat' split at h) <;> simp_all
  all_goals
    (repeat' split at h) <;> cases h

/-- `write()` is called on a holder that handles writes and has its handler. -/
theorem callWrite_of_handleStep
    (h : (handleStep holder thread result).effect = some .callWrite) :
    thread.pc = .writeSide ∧ holder.flags.handleWrite = true ∧
      holder.descriptorHandler = true := by
  unfold handleStep at h
  cases hpc : thread.pc <;> simp only [hpc, applyToHolder] at h
  case writeSide =>
    (repeat' split at h) <;> simp_all
  all_goals
    (repeat' split at h) <;> cases h

/-- The descriptor is rearmed with the flags that the holder has then, by a
thread whose pass has left it open. -/
theorem epollRearm_of_handleStep {handleRead handleWrite : Bool}
    (h : (handleStep holder thread result).effect = some (.epollRearm handleRead handleWrite)) :
    thread.pc = .rearm ∧ thread.rearmFd = true ∧ holder.descriptorHandler = true ∧
      handleRead = holder.flags.handleRead ∧ handleWrite = holder.flags.handleWrite := by
  unfold handleStep at h
  cases hpc : thread.pc <;> simp only [hpc, applyToHolder] at h
  case rearm =>
    (repeat' split at h) <;> simp_all
  all_goals
    (repeat' split at h) <;> cases h

/-- The descriptor is deleted at one place. -/
theorem epollDel_of_handleStep
    (h : (handleStep holder thread result).effect = some .epollDel) : thread.pc = .epollDel := by
  unfold handleStep at h
  cases hpc : thread.pc <;> simp only [hpc, applyToHolder] at h
  case epollDel => rfl
  all_goals
    (repeat' split at h) <;> cases h

/-- A holder is finished behind the test that finds both sides closed. -/
theorem closed_of_finish
    (h : (handleStep holder thread result).thread.pc = .finish) :
    thread.pc = .checkClosed ∧ holder.flags.readClosed = true ∧
      holder.flags.writeClosed = true := by
  unfold handleStep at h
  cases hpc : thread.pc <;> simp only [hpc] at h
  all_goals
    (repeat' split at h) <;> cases result <;>
      simp_all [HandleThread.goto, HandleThread.afterCall, applyToHolder]

/-- A pass that leaves the holder open makes its thread rearm the descriptor. -/
theorem rearmFd_of_leave (h : (handleStep holder thread result).thread.pc = .leave) :
    (handleStep holder thread result).thread.rearmFd = true := by
  unfold handleStep at h ⊢
  cases hpc : thread.pc <;> simp only [hpc] at h ⊢
  case checkClosed =>
    split at h
    · simp [HandleThread.goto] at h
    · rename_i hopen
      rw [if_neg hopen]
  all_goals
    (repeat' split at h) <;> cases result <;>
      simp_all [HandleThread.goto, HandleThread.afterCall, applyToHolder]

end Operations

namespace Handle

variable {Thread : Type*} [DecidableEq Thread]

omit [DecidableEq Thread] in
/-- A thread that applies a mask is in the loop. -/
theorem inLoop_of_applying {thread : HandleThread} {stateModify : UInt64}
    (h : thread.pc.applying = some stateModify) : thread.inLoop := by
  unfold HandleThread.inLoop
  cases hpc : thread.pc <;> simp_all [HandlePc.applying]

omit [DecidableEq Thread] in
/-- The flags change by the mask that the thread of the step applies. -/
theorem Stepped.flags_of_some {s t : State Thread} {a : Action Thread} (h : Stepped s t a)
    {stateModify : UInt64} (happlying : (s.threads a.thread).pc.applying = some stateModify) :
    t.holder.flags = (applyStateModify s.holder.flags stateModify).1 := by
  rw [h.holder, handleStep_flags_of_some happlying]

omit [DecidableEq Thread] in
/-- The flags do not change when the thread of the step applies no mask. -/
theorem Stepped.flags_of_none {s t : State Thread} {a : Action Thread} (h : Stepped s t a)
    (happlying : (s.threads a.thread).pc.applying = none) : t.holder.flags = s.holder.flags := by
  rw [h.holder, handleStep_flags_of_none happlying]

omit [DecidableEq Thread] in
/-- `read_closed` is never cleared. -/
theorem Stepped.readClosed {s t : State Thread} {a : Action Thread} (h : Stepped s t a)
    (hclosed : s.holder.flags.readClosed = true) : t.holder.flags.readClosed = true := by
  cases happlying : (s.threads a.thread).pc.applying with
  | none => rwa [h.flags_of_none happlying]
  | some stateModify =>
      rw [h.flags_of_some happlying, applyStateModify_readClosed, hclosed, Bool.true_or]

omit [DecidableEq Thread] in
/-- `write_closed` is never cleared. -/
theorem Stepped.writeClosed {s t : State Thread} {a : Action Thread} (h : Stepped s t a)
    (hclosed : s.holder.flags.writeClosed = true) : t.holder.flags.writeClosed = true := by
  cases happlying : (s.threads a.thread).pc.applying with
  | none => rwa [h.flags_of_none happlying]
  | some stateModify =>
      rw [h.flags_of_some happlying, applyStateModify_writeClosed, hclosed, Bool.true_or]

/-- The entry that a step leaves in the log. -/
def observe (s : State Thread) (a : Action Thread) : Option HandleEvent :=
  let outcome := handleStep s.holder (s.threads a.thread) a.result
  match (s.threads a.thread).pc.applying with
  | some stateModify => some (.applied stateModify s.holder.flags outcome.holder.flags)
  | none => outcome.effect.map .effect

omit [DecidableEq Thread] in
/-- A logged mask was applied by the thread of the step. -/
theorem applied_of_observe {s : State Thread} {a : Action Thread} {stateModify : UInt64}
    {before after : HandleFlags} (h : observe s a = some (.applied stateModify before after)) :
    (s.threads a.thread).pc.applying = some stateModify ∧ before = s.holder.flags ∧
      after = (applyStateModify s.holder.flags stateModify).1 := by
  unfold observe at h
  dsimp only at h
  split at h
  · rename_i mask happlying
    simp only [Option.some.injEq, HandleEvent.applied.injEq] at h
    obtain ⟨rfl, rfl, rfl⟩ := h
    exact ⟨happlying, rfl, handleStep_flags_of_some happlying⟩
  · rw [Option.map_eq_some_iff] at h
    obtain ⟨effect, -, heq⟩ := h
    cases heq

omit [DecidableEq Thread] in
/-- A logged effect is the effect of the operation. -/
theorem effect_of_observe {s : State Thread} {a : Action Thread} {effect : HandleEffect}
    (h : observe s a = some (.effect effect)) :
    (handleStep s.holder (s.threads a.thread) a.result).effect = some effect := by
  unfold observe at h
  dsimp only at h
  split at h
  · cases h
  · rw [Option.map_eq_some_iff] at h
    obtain ⟨observed, heffect, heq⟩ := h
    cases heq
    exact heffect

omit [DecidableEq Thread] in
/-- Every effect is logged. -/
theorem observe_of_effect {s : State Thread} {a : Action Thread} {effect : HandleEffect}
    (h : (handleStep s.holder (s.threads a.thread) a.result).effect = some effect) :
    observe s a = some (.effect effect) := by
  unfold observe
  dsimp only
  split
  · rename_i stateModify happlying
    exfalso
    unfold handleStep at h
    cases hpc : (s.threads a.thread).pc <;>
      simp_all [HandlePc.applying, applyToHolder]
  · rw [h]
    rfl

/-- A new holder under any interleaving of the threads, with its log. -/
def events (Thread : Type*) [DecidableEq Thread] :
    TransitionSystem (TransitionSystem.Logged (State Thread) HandleEvent) (Action Thread) :=
  (system Thread).logged observe

end Handle
end LiteMQ
