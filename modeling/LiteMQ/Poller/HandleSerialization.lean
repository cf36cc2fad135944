import LiteMQ.Poller.Handle

/-!
# `handle_` serialises the handlers of a holder

The thread that increments `handle_in_progress` from `0` owns the holder until
its last decrement, or for ever if it tears the holder down.  `Serialized` says
that there is one owner at most, that the counter is positive while there is
one, and that a finished holder is owned only by the thread that tears it down.

`serialized_handling` adds what happens to the event that an increment stands
for: within eleven more steps of the owner a pass that began after it is
complete, or the pass that was in progress tears the holder down.  The second
case is why events can be lost; `event_ignored_on_stop` is such a run.
-/

namespace LiteMQ

/-- The thread is in the loop body and in the middle of a pass. -/
def HandlePc.inPass : HandlePc → Prop
  | .applyRead _ | .writeSide | .applyWrite _ | .checkClosed => True
  | .out | .entered | .readSide | .finish | .epollDel | .stopped | .reset | .push | .erase
  | .leave | .rearm | .release | .unwound | .nullDereference | .assertionFailed => False

instance : DecidablePred HandlePc.inPass := by
  intro pc
  cases pc <;> simp only [HandlePc.inPass] <;> infer_instance

/-- The thread is between the test of the closed flags and the `break`, and has
marked the holder as finished. -/
def HandlePc.tearingDown : HandlePc → Prop
  | .epollDel | .stopped | .reset | .push | .erase => True
  | .out | .entered | .readSide | .applyRead _ | .writeSide | .applyWrite _ | .checkClosed
  | .finish | .leave | .rearm | .release | .unwound | .nullDereference
  | .assertionFailed => False

/-- The thread is inside the loop body, which includes the teardown. -/
def HandlePc.inBody : HandlePc → Prop
  | .readSide | .applyRead _ | .writeSide | .applyWrite _ | .checkClosed | .finish
  | .epollDel | .stopped | .reset | .push | .erase => True
  | .out | .entered | .leave | .rearm | .release | .unwound | .nullDereference
  | .assertionFailed => False

namespace HandleThread

/-- The thread runs the loop, or will after the test at its entry. -/
def inLoop (thread : HandleThread) : Prop :=
  match thread.pc with
  | .entered => thread.prevHandleInProgress = 0
  | .readSide | .applyRead _ | .writeSide | .applyWrite _ | .checkClosed | .finish
  | .leave => True
  | .out | .epollDel | .stopped | .reset | .push | .erase | .rearm | .release | .unwound
  | .nullDereference | .assertionFailed => False

/-- The thread handles the holder. -/
def owns (thread : HandleThread) : Prop := thread.inLoop ∨ thread.pc.tearingDown

theorem owns_of_inBody {thread : HandleThread} (h : thread.pc.inBody) : thread.owns := by
  unfold owns inLoop
  cases hpc : thread.pc <;> simp_all [HandlePc.inBody, HandlePc.tearingDown]

end HandleThread

/-! ## What one operation does -/

section Operations

variable (holder : DescriptorHandlerHolder) (thread : HandleThread) (result : CallResult)

/-- The counter changes at the entry and at the end of a pass. -/
theorem handleStep_handleInProgress :
    (handleStep holder thread result).holder.handleInProgress =
      if thread.pc = .out then holder.handleInProgress + 1
      else if thread.pc = .leave then holder.handleInProgress - 1
      else holder.handleInProgress := by
  unfold handleStep
  cases hpc : thread.pc <;> simp only [applyToHolder, reduceCtorEq, if_false, if_true] <;>
    (repeat' split) <;> rfl

/-- The holder is marked as finished at one place. -/
theorem handleStep_handlingFinished :
    (handleStep holder thread result).holder.handlingFinished =
      if thread.pc = .finish then true else holder.handlingFinished := by
  unfold handleStep
  cases hpc : thread.pc <;> simp only [applyToHolder, reduceCtorEq, if_false, if_true] <;>
    (repeat' split) <;> rfl

/-- The handler is reset at one place. -/
theorem handleStep_descriptorHandler :
    (handleStep holder thread result).holder.descriptorHandler =
      if thread.pc = .reset then false else holder.descriptorHandler := by
  unfold handleStep
  cases hpc : thread.pc <;> simp only [applyToHolder, reduceCtorEq, if_false, if_true] <;>
    (repeat' split) <;> rfl

/-- A thread comes into the loop by the increment from `0` only. -/
theorem inLoop_of_handleStep (h : (handleStep holder thread result).thread.inLoop) :
    thread.inLoop ∨ thread.pc = .out ∧ holder.handleInProgress = 0 := by
  unfold handleStep at h
  cases hpc : thread.pc with
  | out =>
      simp only [hpc] at h
      exact Or.inr ⟨rfl, h⟩
  | entered =>
      simp only [hpc] at h
      split at h
      · rename_i htest
        exact Or.inl (by simpa [HandleThread.inLoop, hpc] using htest.2)
      · simp [HandleThread.goto, HandleThread.inLoop] at h
  | epollDel | stopped | reset | push | erase | rearm | release =>
      simp only [hpc] at h
      (repeat' split at h) <;> cases result <;>
        simp [HandleThread.goto, HandleThread.afterCall, HandleThread.inLoop] at h
  | unwound | nullDereference | assertionFailed =>
      simp only [hpc] at h
      exact Or.inl h
  | _ => exact Or.inl (by simp [HandleThread.inLoop, hpc])

/-- The teardown begins when the holder is marked as finished. -/
theorem tearingDown_of_handleStep (h : (handleStep holder thread result).thread.pc.tearingDown) :
    thread.pc.tearingDown ∨ thread.pc = .finish := by
  unfold handleStep at h
  cases hpc : thread.pc with
  | finish => exact Or.inr rfl
  | epollDel | stopped | reset | push | erase => exact Or.inl (by simp [HandlePc.tearingDown])
  | _ =>
      simp only [hpc] at h
      (repeat' split at h) <;> cases result <;>
        simp [HandleThread.goto, HandleThread.afterCall, applyToHolder,
          HandlePc.tearingDown] at h

/-- A thread stays in the loop behind its decrement when it was not the last. -/
theorem lt_of_leave (hpc : thread.pc = .leave)
    (h : (handleStep holder thread result).thread.owns) : 1 < holder.handleInProgress := by
  by_contra hle
  simp [handleStep, hpc, hle, HandleThread.owns, HandleThread.inLoop,
    HandlePc.tearingDown] at h

/-- The value that a thread got from the counter is not negative. -/
theorem prev_nonneg (hcount : 0 ≤ holder.handleInProgress)
    (hprev : 0 ≤ thread.prevHandleInProgress) :
    0 ≤ (handleStep holder thread result).thread.prevHandleInProgress := by
  unfold handleStep
  cases hpc : thread.pc <;> dsimp only <;> (repeat' split) <;> cases result <;>
    first | exact hcount | exact hprev

end Operations

namespace Handle

open DescriptorHandler TransitionSystem

variable {Thread : Type*} [DecidableEq Thread]

/-- One thread at most handles the holder, and the counter and the flag of the
holder say whether one does. -/
structure Serialized (s : State Thread) : Prop where
  single : ∀ i j, (s.threads i).owns → (s.threads j).owns → i = j
  nonneg : 0 ≤ s.holder.handleInProgress
  busy : ∀ i, (s.threads i).owns → 1 ≤ s.holder.handleInProgress
  finished : s.holder.handlingFinished = true →
    1 ≤ s.holder.handleInProgress ∧ ∀ i, ¬ (s.threads i).inLoop
  handler : s.holder.descriptorHandler = false → s.holder.handlingFinished = true
  tearing : ∀ i, (s.threads i).pc.tearingDown → s.holder.handlingFinished = true
  prev : ∀ i, 0 ≤ (s.threads i).prevHandleInProgress

/-- What a step does: the operation of one thread on the holder, and the count
of the passes. -/
structure Stepped (s t : State Thread) (a : Action Thread) : Prop where
  holder : t.holder = (handleStep s.holder (s.threads a.thread) a.result).holder
  self : t.threads a.thread = (handleStep s.holder (s.threads a.thread) a.result).thread
  other : ∀ i, i ≠ a.thread → t.threads i = s.threads i
  passStarted : t.passStarted =
    if (s.threads a.thread).pc = .readSide then s.passStarted + 1 else s.passStarted
  passDone : t.passDone =
    if (s.threads a.thread).pc = .checkClosed then s.passDone + 1 else s.passDone

theorem stepped_of_step {s t : State Thread} {a : Action Thread} (h : step s a = some t) :
    Stepped s t a := by
  unfold step at h
  simp only at h
  split at h
  · cases h
  · obtain rfl := Option.some.inj h
    exact ⟨rfl, Function.update_self .., fun i hne => Function.update_of_ne hne .., rfl, rfl⟩

namespace Stepped

omit [DecidableEq Thread]

variable {s t : State Thread} {a : Action Thread}

theorem handleInProgress (h : Stepped s t a) : t.holder.handleInProgress =
    if (s.threads a.thread).pc = .out then s.holder.handleInProgress + 1
    else if (s.threads a.thread).pc = .leave then s.holder.handleInProgress - 1
    else s.holder.handleInProgress := by
  rw [h.holder, handleStep_handleInProgress]

theorem handlingFinished (h : Stepped s t a) : t.holder.handlingFinished =
    if (s.threads a.thread).pc = .finish then true else s.holder.handlingFinished := by
  rw [h.holder, handleStep_handlingFinished]

theorem handlingFinished_of_finished (h : Stepped s t a)
    (hfinished : s.holder.handlingFinished = true) : t.holder.handlingFinished = true := by
  rw [h.handlingFinished, hfinished]
  split <;> rfl

theorem descriptorHandler (h : Stepped s t a) : t.holder.descriptorHandler =
    if (s.threads a.thread).pc = .reset then false else s.holder.descriptorHandler := by
  rw [h.holder, handleStep_descriptorHandler]

/-- A thread is in the loop after a step if it was before, or if it is the one
that found the counter at `0`. -/
theorem inLoop_before (h : Stepped s t a) {i : Thread} (hi : (t.threads i).inLoop) :
    (s.threads i).inLoop ∨
      i = a.thread ∧ (s.threads i).pc = .out ∧ s.holder.handleInProgress = 0 := by
  rcases eq_or_ne i a.thread with rfl | hne
  · rw [h.self] at hi
    exact (inLoop_of_handleStep _ _ _ hi).imp_right fun hentry => ⟨rfl, hentry⟩
  · rw [h.other i hne] at hi
    exact Or.inl hi

/-- A thread tears the holder down after a step if it did before, or if it is the
one that marked the holder as finished. -/
theorem tearingDown_before (h : Stepped s t a) {i : Thread}
    (hi : (t.threads i).pc.tearingDown) :
    (s.threads i).pc.tearingDown ∨ i = a.thread ∧ (s.threads i).pc = .finish := by
  rcases eq_or_ne i a.thread with rfl | hne
  · rw [h.self] at hi
    exact (tearingDown_of_handleStep _ _ _ hi).imp_right fun hpc => ⟨rfl, hpc⟩
  · rw [h.other i hne] at hi
    exact Or.inl hi

/-- A thread owns the holder after a step if it did before, or if it is the one
that found the counter at `0`. -/
theorem owns_before (h : Stepped s t a) {i : Thread} (hi : (t.threads i).owns) :
    (s.threads i).owns ∨
      i = a.thread ∧ (s.threads i).pc = .out ∧ s.holder.handleInProgress = 0 := by
  rcases hi with hloop | htear
  · exact (h.inLoop_before hloop).imp_left Or.inl
  · rcases h.tearingDown_before htear with hbefore | ⟨-, hpc⟩
    · exact Or.inl (Or.inr hbefore)
    · exact Or.inl (Or.inl (by simp [HandleThread.inLoop, hpc]))

end Stepped

theorem serialized_init : Serialized (system Thread).init where
  single := fun i j hi => by
    simp [system, HandleThread.initial, HandleThread.owns, HandleThread.inLoop,
      HandlePc.tearingDown] at hi
  nonneg := Int.le_refl 0
  busy := fun i hi => by
    simp [system, HandleThread.initial, HandleThread.owns, HandleThread.inLoop,
      HandlePc.tearingDown] at hi
  finished := fun h => by simp [system, DescriptorHandlerHolder.initial] at h
  handler := fun h => by simp [system, DescriptorHandlerHolder.initial] at h
  tearing := fun i hi => by
    simp [system, HandleThread.initial, HandlePc.tearingDown] at hi
  prev := fun _ => Int.le_refl 0

theorem owns_of_leave {thread : HandleThread} (h : thread.pc = .leave) : thread.owns :=
  Or.inl (by simp [HandleThread.inLoop, h])

omit [DecidableEq Thread] in
/-- While a thread owns the holder after a step, the counter stands for it: the
owner was not the last when it left. -/
theorem Serialized.busy_step {s t : State Thread} {a : Action Thread} (hs : Serialized s)
    (h : Stepped s t a) {i : Thread} (hi : (t.threads i).owns) :
    1 ≤ t.holder.handleInProgress := by
  have hnonneg := hs.nonneg
  rw [h.handleInProgress]
  split
  · omega
  · rename_i hout
    have hbefore : (s.threads i).owns := by
      rcases h.owns_before hi with hbefore | ⟨rfl, hpc, -⟩
      · exact hbefore
      · exact absurd hpc hout
    split
    · rename_i hpc
      obtain rfl := hs.single i a.thread hbefore (owns_of_leave hpc)
      rw [h.self] at hi
      have hlt := lt_of_leave _ _ _ hpc hi
      omega
    · exact hs.busy i hbefore

omit [DecidableEq Thread] in
/-- No thread is in the loop of a finished holder after a step, and the one that
marked it stays its owner. -/
theorem Serialized.finished_step {s t : State Thread} {a : Action Thread} (hs : Serialized s)
    (h : Stepped s t a) (hfin : t.holder.handlingFinished = true) :
    1 ≤ t.holder.handleInProgress ∧ ∀ i, ¬ (t.threads i).inLoop := by
  rw [h.handlingFinished] at hfin
  split at hfin
  · -- the step sets the flag
    rename_i hpc
    have howns : (s.threads a.thread).owns := Or.inl (by simp [HandleThread.inLoop, hpc])
    constructor
    · rw [h.handleInProgress, hpc]
      simpa using hs.busy _ howns
    · intro i hi
      rcases eq_or_ne i a.thread with rfl | hne
      · rw [h.self] at hi
        simp [handleStep, hpc, HandleThread.goto, HandleThread.inLoop] at hi
      · rw [h.other i hne] at hi
        exact hne (hs.single i _ (Or.inl hi) howns)
  · obtain ⟨hone, hloop⟩ := hs.finished hfin
    constructor
    · rw [h.handleInProgress]
      split
      · omega
      · split
        · rename_i hpc
          exact absurd (by simp [HandleThread.inLoop, hpc]) (hloop a.thread)
        · exact hone
    · intro i hi
      rcases h.inLoop_before hi with hbefore | ⟨-, -, hzero⟩
      · exact hloop i hbefore
      · omega

theorem Serialized.step {s t : State Thread} {a : Action Thread} (hs : Serialized s)
    (hstep : Handle.step s a = some t) : Serialized t := by
  have h := stepped_of_step hstep
  have hnonneg := hs.nonneg
  refine ⟨?_, ?_, fun _ => hs.busy_step h, hs.finished_step h, ?_, ?_, ?_⟩
  · intro i j hi hj
    rcases h.owns_before hi with hi' | ⟨rfl, -, hzero⟩
    · rcases h.owns_before hj with hj' | ⟨-, -, hzero⟩
      · exact hs.single i j hi' hj'
      · have hone := hs.busy i hi'
        omega
    · rcases h.owns_before hj with hj' | ⟨rfl, -, -⟩
      · have hone := hs.busy j hj'
        omega
      · rfl
  · rw [h.handleInProgress]
    split
    · omega
    · split
      · rename_i hpc
        have hone := hs.busy _ (owns_of_leave hpc)
        omega
      · exact hnonneg
  · intro hnull
    rw [h.descriptorHandler] at hnull
    rw [h.handlingFinished]
    split at hnull
    · -- the handler is reset in the teardown, behind the flag
      rename_i hpc
      rw [hpc]
      simpa using hs.tearing a.thread (by simp [hpc, HandlePc.tearingDown])
    · split
      · rfl
      · exact hs.handler hnull
  · intro i hi
    rw [h.handlingFinished]
    split
    · rfl
    · rename_i hpc
      rcases h.tearingDown_before hi with hbefore | ⟨rfl, hfinish⟩
      · exact hs.tearing i hbefore
      · exact absurd hfinish hpc
  · intro i
    rcases eq_or_ne i a.thread with rfl | hne
    · rw [h.self]
      exact prev_nonneg _ _ _ hnonneg (hs.prev _)
    · rw [h.other i hne]
      exact hs.prev i

/-! ## Passes -/

/-- No call of `read()` or `write()` throws. -/
def NoThrow (s : State Thread) (a : Action Thread) : Prop :=
  (s.threads a.thread).pc = .readSide ∨ (s.threads a.thread).pc = .writeSide →
    a.result ≠ .threw

instance (s : State Thread) (a : Action Thread) : Decidable (NoThrow s a) :=
  inferInstanceAs (Decidable (_ → _))

/-- The passes are counted, and a holder with a positive counter is finished or
being handled. -/
structure Passes (s : State Thread) : Prop where
  during : ∀ i, (s.threads i).pc.inPass → s.passStarted = s.passDone + 1
  between : (∀ i, ¬ (s.threads i).pc.inPass) → s.passStarted = s.passDone
  held : 1 ≤ s.holder.handleInProgress →
    s.holder.handlingFinished = true ∨ ∃ i, (s.threads i).inLoop

theorem passes_init : Passes (system Thread).init where
  during := fun i hi => hi.elim
  between := fun _ => rfl
  held := fun h => absurd h (by simp [system, DescriptorHandlerHolder.initial])

omit [DecidableEq Thread] in
/-- The handler is there while a thread is in the loop. -/
theorem Serialized.handler_of_inLoop {s : State Thread} (hs : Serialized s) {i : Thread}
    (hi : (s.threads i).inLoop) :
    s.holder.descriptorHandler = true ∧ s.holder.handlingFinished = false := by
  have hfinished : s.holder.handlingFinished = false := by
    by_contra hne
    exact (hs.finished (by simpa using hne)).2 i hi
  refine ⟨?_, hfinished⟩
  by_contra hne
  have htrue := hs.handler (by simpa using hne)
  rw [hfinished] at htrue
  cases htrue

/-- Where the owner goes in the loop when nothing throws; `count` is
`handle_in_progress` before. -/
inductive LoopNext (count : Int) : HandlePc → HandlePc → Prop
  | test : LoopNext count .entered .readSide
  | read (stateModify : UInt64) : LoopNext count .readSide (.applyRead stateModify)
  | skipRead : LoopNext count .readSide .writeSide
  | applyRead (stateModify : UInt64) : LoopNext count (.applyRead stateModify) .writeSide
  | write (stateModify : UInt64) : LoopNext count .writeSide (.applyWrite stateModify)
  | skipWrite : LoopNext count .writeSide .checkClosed
  | applyWrite (stateModify : UInt64) : LoopNext count (.applyWrite stateModify) .checkClosed
  | opened : LoopNext count .checkClosed .leave
  | closed : LoopNext count .checkClosed .finish
  | again (hcount : 1 < count) : LoopNext count .leave .readSide
  | last (hcount : ¬ 1 < count) : LoopNext count .leave .rearm
  | finish : LoopNext count .finish .epollDel

omit [DecidableEq Thread] in
/-- Without a throw the owner follows the loop. -/
theorem handleStep_inLoop {s : State Thread} (hs : Serialized s) {a : Action Thread}
    (hthrow : NoThrow s a) (hloop : (s.threads a.thread).inLoop) :
    LoopNext s.holder.handleInProgress (s.threads a.thread).pc
      (handleStep s.holder (s.threads a.thread) a.result).thread.pc := by
  obtain ⟨hhandler, hfinished⟩ := hs.handler_of_inLoop hloop
  have hprev := Int.not_lt.mpr (hs.prev a.thread)
  unfold NoThrow at hthrow
  unfold handleStep
  cases hpc : (s.threads a.thread).pc with
  | entered =>
      have hzero : (s.threads a.thread).prevHandleInProgress = 0 := by
        simpa [HandleThread.inLoop, hpc] using hloop
      rw [hpc] at hthrow
      simp only [hfinished, hzero, and_self, if_true]
      exact .test
  | readSide =>
      cases hresult : a.result with
      | threw => exact absurd hresult (hthrow (Or.inl hpc))
      | returned m =>
          simp only [if_neg hprev, hhandler, if_true]
          split
          · exact .read m
          · exact .skipRead
  | writeSide =>
      cases hresult : a.result with
      | threw => exact absurd hresult (hthrow (Or.inr hpc))
      | returned m =>
          simp only [hhandler, if_true]
          split
          · exact .write m
          · exact .skipWrite
  | checkClosed =>
      dsimp only
      split
      · exact .closed
      · exact .opened
  | applyRead m => exact .applyRead m
  | applyWrite m => exact .applyWrite m
  | leave =>
      dsimp only
      split
      · rename_i hcount
        exact .again hcount
      · rename_i hcount
        exact .last hcount
  | finish => exact .finish
  | _ => simp [HandleThread.inLoop, hpc] at hloop

/-- A thread outside the loop starts and ends no pass, sets no flag and does not
decrement the counter. -/
theorem step_of_not_inLoop {s t : State Thread} {a : Action Thread}
    (hloop : ¬ (s.threads a.thread).inLoop) (hstep : Handle.step s a = some t) :
    t.passStarted = s.passStarted ∧ t.passDone = s.passDone ∧
      t.holder.handlingFinished = s.holder.handlingFinished ∧
      s.holder.handleInProgress ≤ t.holder.handleInProgress := by
  have h := stepped_of_step hstep
  have hnot : ∀ pc : HandlePc, pc = .readSide ∨ pc = .checkClosed ∨ pc = .finish ∨ pc = .leave →
      (s.threads a.thread).pc ≠ pc := by
    rintro pc (rfl | rfl | rfl | rfl) hpc <;>
      exact hloop (by simp [HandleThread.inLoop, hpc])
  rw [h.passStarted, h.passDone, h.handlingFinished, h.handleInProgress,
    if_neg (hnot .readSide (by simp)), if_neg (hnot .checkClosed (by simp)),
    if_neg (hnot .finish (by simp)), if_neg (hnot .leave (by simp))]
  refine ⟨rfl, rfl, rfl, ?_⟩
  split <;> omega

theorem inLoop_of_inPass {thread : HandleThread} (h : thread.pc.inPass) : thread.inLoop := by
  unfold HandleThread.inLoop
  cases hpc : thread.pc <;> simp_all [HandlePc.inPass]

/-- A step of the thread in the loop: where it goes, and what it does to the
counters and the flag. -/
theorem step_of_inLoop {s t : State Thread} {a : Action Thread} (hs : Serialized s)
    (hthrow : NoThrow s a) (hloop : (s.threads a.thread).inLoop)
    (hstep : Handle.step s a = some t) :
    ∃ pc pc', (s.threads a.thread).pc = pc ∧ (t.threads a.thread).pc = pc' ∧
      LoopNext s.holder.handleInProgress pc pc' ∧
      t.passStarted = (if pc = .readSide then s.passStarted + 1 else s.passStarted) ∧
      t.passDone = (if pc = .checkClosed then s.passDone + 1 else s.passDone) ∧
      t.holder.handleInProgress =
        (if pc = .leave then s.holder.handleInProgress - 1 else s.holder.handleInProgress) ∧
      t.holder.handlingFinished =
        (if pc = .finish then true else s.holder.handlingFinished) := by
  have h := stepped_of_step hstep
  have hnext := handleStep_inLoop hs hthrow hloop
  have hout : (s.threads a.thread).pc ≠ .out := by
    intro hpc
    simp [HandleThread.inLoop, hpc] at hloop
  refine ⟨_, _, rfl, congrArg HandleThread.pc h.self, hnext, h.passStarted, h.passDone, ?_,
    h.handlingFinished⟩
  rw [h.handleInProgress, if_neg hout]

/-- The thread in the loop of a holder that stays open goes on in it, or leaves it
for `epoll_rearm_handler_`. -/
theorem loop_or_rearm {s t : State Thread} {a : Action Thread} (hs : Serialized s)
    (hthrow : NoThrow s a) (hloop : (s.threads a.thread).inLoop)
    (hstep : Handle.step s a = some t) (hbefore : (s.threads a.thread).pc ≠ .finish)
    (hafter : (t.threads a.thread).pc ≠ .finish) :
    (t.threads a.thread).inLoop ∨
      (s.threads a.thread).pc = .leave ∧ (t.threads a.thread).pc = .rearm ∧
        (t.threads a.thread).rearmFd = (s.threads a.thread).rearmFd := by
  obtain ⟨pc, pc', hat, hat', hnext, -⟩ := step_of_inLoop hs hthrow hloop hstep
  rw [hat] at hbefore
  rw [hat'] at hafter
  cases hnext with
  | closed => exact absurd rfl hafter
  | finish => exact absurd rfl hbefore
  | last hlast =>
      refine Or.inr ⟨hat, hat', ?_⟩
      rw [(stepped_of_step hstep).self]
      simp [handleStep, hat]
  | _ => exact Or.inl (by simp [HandleThread.inLoop, hat'])

theorem ne_out_of_inLoop {thread : HandleThread} (h : thread.inLoop) : thread.pc ≠ .out := by
  intro hpc
  simp [HandleThread.inLoop, hpc] at h

/-- A step of the thread in the loop keeps the count of the passes. -/
theorem Passes.step_owner {s t : State Thread} {a : Action Thread} (hp : Passes s)
    (hs : Serialized s) (hthrow : NoThrow s a) (hloop : (s.threads a.thread).inLoop)
    (hstep : Handle.step s a = some t) : Passes t := by
  have hother := (stepped_of_step hstep).other
  have honly : ∀ i, i ≠ a.thread → ¬ (t.threads i).pc.inPass := by
    intro i hne hi
    rw [hother i hne] at hi
    exact hne (hs.single i a.thread (Or.inl (inLoop_of_inPass hi)) (Or.inl hloop))
  have hbefore : ¬ (s.threads a.thread).pc.inPass → s.passStarted = s.passDone := by
    intro hnot
    apply hp.between
    intro i hi
    rcases eq_or_ne i a.thread with rfl | hne
    · exact hnot hi
    · exact honly i hne (by rwa [hother i hne])
  have hduring := hp.during a.thread
  -- no other thread is in the loop, so it is enough to look at the owner
  have hfinal : ((t.threads a.thread).pc.inPass → t.passStarted = t.passDone + 1) →
      (¬ (t.threads a.thread).pc.inPass → t.passStarted = t.passDone) →
      (1 ≤ t.holder.handleInProgress →
        t.holder.handlingFinished = true ∨ (t.threads a.thread).inLoop) → Passes t := by
    intro hpass hbetween hheld
    refine ⟨fun i hi => ?_, fun hnone => hbetween (hnone a.thread), fun hone =>
      (hheld hone).imp_right fun h => ⟨a.thread, h⟩⟩
    rcases eq_or_ne i a.thread with rfl | hne
    · exact hpass hi
    · exact absurd hi (honly i hne)
  obtain ⟨pc, pc', hpc, hpc', hnext, hstarted, hdone, hcount, hfinished⟩ :=
    step_of_inLoop hs hthrow hloop hstep
  rw [hpc] at hbefore hduring
  have hstays : pc'.inPass → (t.threads a.thread).inLoop := fun h =>
    inLoop_of_inPass (hpc' ▸ h)
  rw [hpc'] at hfinal
  cases hnext with
  | test | again =>
      have heq := hbefore not_false
      refine hfinal False.elim (fun _ => ?_) fun _ => Or.inr ?_
      · simpa [hstarted, hdone] using heq
      · simp [HandleThread.inLoop, hpc']
  | read | skipRead =>
      have heq := hbefore not_false
      refine hfinal (fun _ => ?_) (fun hnot => absurd trivial hnot) fun _ => Or.inr
        (hstays trivial)
      simpa [hstarted, hdone] using heq
  | applyRead | write | skipWrite | applyWrite =>
      have heq := hduring trivial
      refine hfinal (fun _ => ?_) (fun hnot => absurd trivial hnot) fun _ => Or.inr
        (hstays trivial)
      simpa [hstarted, hdone] using heq
  | opened | closed =>
      have heq := hduring trivial
      refine hfinal False.elim (fun _ => ?_) fun _ => Or.inr ?_
      · simpa [hstarted, hdone] using heq
      · simp [HandleThread.inLoop, hpc']
  | last hlast =>
      have heq := hbefore not_false
      refine hfinal False.elim (fun _ => ?_) fun hone => ?_
      · simpa [hstarted, hdone] using heq
      · rw [hcount, if_pos rfl] at hone
        omega
  | finish =>
      have heq := hbefore not_false
      refine hfinal False.elim (fun _ => ?_) fun _ => Or.inl ?_
      · simpa [hstarted, hdone] using heq
      · simpa using hfinished

/-- A step of a thread outside the loop changes no pass, and an increment from
`0` makes the thread the owner. -/
theorem Passes.step_other {s t : State Thread} {a : Action Thread} (hp : Passes s)
    (hs : Serialized s) (hloop : ¬ (s.threads a.thread).inLoop)
    (hstep : Handle.step s a = some t) : Passes t := by
  have h := stepped_of_step hstep
  obtain ⟨hstarted, hdone, hfinished, -⟩ := step_of_not_inLoop hloop hstep
  have hpass : ∀ i, (t.threads i).pc.inPass ↔ (s.threads i).pc.inPass := by
    intro i
    rcases eq_or_ne i a.thread with rfl | hne
    · refine iff_of_false (fun hi => ?_) fun hi => hloop (inLoop_of_inPass hi)
      rcases h.inLoop_before (inLoop_of_inPass hi) with hin | ⟨-, hout, -⟩
      · exact hloop hin
      · rw [h.self] at hi
        simp [handleStep, hout, HandlePc.inPass] at hi
    · rw [h.other i hne]
  refine ⟨fun i hi => ?_, fun hnone => ?_, fun hone => ?_⟩
  · rw [hstarted, hdone]
    exact hp.during i ((hpass i).mp hi)
  · rw [hstarted, hdone]
    exact hp.between fun i hi => hnone i ((hpass i).mpr hi)
  · rw [hfinished]
    -- an increment from `0` brings its thread into the loop, any other finds one there
    by_cases hentry : (s.threads a.thread).pc = .out ∧ s.holder.handleInProgress = 0
    · right
      refine ⟨a.thread, ?_⟩
      rw [h.self]
      simp [handleStep, hentry.1, hentry.2, HandleThread.inLoop]
    · have hone' : 1 ≤ s.holder.handleInProgress := by
        rw [h.handleInProgress] at hone
        have hnonneg := hs.nonneg
        split at hone
        · rename_i hpc
          have hne : s.holder.handleInProgress ≠ 0 := fun hzero => hentry ⟨hpc, hzero⟩
          omega
        · split at hone <;> omega
      rcases hp.held hone' with hfin | ⟨i, hi⟩
      · exact Or.inl hfin
      · have hne : i ≠ a.thread := by
          rintro rfl
          exact hloop hi
        exact Or.inr ⟨i, by rwa [h.other i hne]⟩

theorem Passes.step {s t : State Thread} {a : Action Thread} (hp : Passes s) (hs : Serialized s)
    (hthrow : NoThrow s a) (hstep : Handle.step s a = some t) : Passes t := by
  by_cases hloop : (s.threads a.thread).inLoop
  · exact hp.step_owner hs hthrow hloop hstep
  · exact hp.step_other hs hloop hstep

omit [DecidableEq Thread] in
/-- A thread that enters an open holder comes into the loop, or leaves its event
to the thread in the loop. -/
theorem Passes.owner_of_out {s t : State Thread} {a : Action Thread} (hp : Passes s)
    (hs : Serialized s) (h : Stepped s t a) (hout : (s.threads a.thread).pc = .out)
    (hopen : s.holder.handlingFinished = false) :
    ∃ i, (t.threads i).inLoop ∧ ((t.threads i).pc = .entered ∧ i = a.thread ∨
      (s.threads i).inLoop ∧ i ≠ a.thread ∧ 1 < t.holder.handleInProgress) := by
  by_cases hzero : s.holder.handleInProgress = 0
  · refine ⟨a.thread, ?_, Or.inl ⟨?_, rfl⟩⟩ <;>
      simp [h.self, handleStep, hout, hzero, HandleThread.inLoop]
  · have hone : 1 ≤ s.holder.handleInProgress := by
      have hnonneg := hs.nonneg
      omega
    rcases hp.held hone with hfinished | ⟨i, hi⟩
    · rw [hopen] at hfinished
      cases hfinished
    · have hne : i ≠ a.thread := by
        rintro rfl
        simp [HandleThread.inLoop, hout] at hi
      refine ⟨i, by rwa [h.other i hne], Or.inr ⟨hi, hne, ?_⟩⟩
      rw [h.handleInProgress, if_pos hout]
      omega

/-! ## The answer to an event -/

/-- How many operations the thread is away from the beginning of its next pass
or from setting the flag, and in a pass from its end. -/
def stepsLeft : HandlePc → Nat
  | .leave | .finish => 7
  | .entered => 6
  | .readSide => 5
  | .applyRead _ => 4
  | .writeSide => 3
  | .applyWrite _ => 2
  | .checkClosed => 1
  | .out | .epollDel | .stopped | .reset | .push | .erase | .rearm | .release | .unwound
  | .nullDereference | .assertionFailed => 0

theorem stepsLeft_pos {thread : HandleThread} (h : thread.inLoop) : 0 < stepsLeft thread.pc := by
  unfold HandleThread.inLoop at h
  cases hpc : thread.pc <;> simp_all [stepsLeft]

/-- How many operations `owner` is away from the answer to an event that came
after `passes` passes were begun. -/
def rank (passes : Nat) (owner : Thread) (s : State Thread) : Nat :=
  if passes < s.passDone ∨ s.holder.handlingFinished = true then 0
  else if s.passStarted = passes ∧ (s.threads owner).pc.inPass then
    7 + stepsLeft (s.threads owner).pc
  else stepsLeft (s.threads owner).pc

/-- A pass that was begun after the event is complete, or the pass that was in
progress when it came has torn the holder down. -/
def Answered (passes : Nat) (s : State Thread) : Prop :=
  passes < s.passDone ∨ s.holder.handlingFinished = true ∧ s.passStarted = passes

/-- The owner is in the pass that answers the event, or it will begin that pass:
while it is in an earlier one, the counter stands for the event too. -/
structure Waiting (passes : Nat) (owner : Thread) (s : State Thread) : Prop where
  loop : (s.threads owner).inLoop
  phase : s.passStarted = passes + 1 ∧ (s.threads owner).pc.inPass ∨
    s.passStarted = passes ∧ ((s.threads owner).pc.inPass ∨ (s.threads owner).pc = .leave →
      1 < s.holder.handleInProgress)

/-- The invariant from the event to its answer. -/
structure Awaiting (passes : Nat) (owner : Thread) (s : State Thread) : Prop where
  serialized : Serialized s
  counted : Passes s
  outcome : Answered passes s ∨ Waiting passes owner s

omit [DecidableEq Thread] in
theorem rank_of_waiting {passes : Nat} {owner : Thread} {s : State Thread} (hs : Serialized s)
    (hp : Passes s) (hw : Waiting passes owner s) :
    rank passes owner s = if s.passStarted = passes ∧ (s.threads owner).pc.inPass then
      7 + stepsLeft (s.threads owner).pc else stepsLeft (s.threads owner).pc := by
  have hfinished := (hs.handler_of_inLoop hw.loop).2
  have hdone : s.passDone ≤ passes := by
    by_cases hpass : (s.threads owner).pc.inPass
    · have heq := hp.during owner hpass
      rcases hw.phase with ⟨hstarted, -⟩ | ⟨hstarted, -⟩ <;> omega
    · have heq := hp.between fun i hi => by
        obtain rfl := hs.single i owner (Or.inl (inLoop_of_inPass hi)) (Or.inl hw.loop)
        exact hpass hi
      rcases hw.phase with ⟨-, hin⟩ | ⟨hstarted, -⟩
      · exact absurd hin hpass
      · omega
  rw [rank, if_neg]
  rintro (hlt | hfin)
  · omega
  · rw [hfinished] at hfin
    cases hfin

omit [DecidableEq Thread] in
theorem rank_of_answered {passes : Nat} {owner : Thread} {s : State Thread}
    (h : Answered passes s) : rank passes owner s = 0 :=
  if_pos (h.imp_right And.left)

/-- Once an event is answered it stays answered. -/
theorem Answered.step {passes : Nat} {s t : State Thread} {a : Action Thread}
    (h : Answered passes s) (hs : Serialized s) (hstep : Handle.step s a = some t) :
    Answered passes t := by
  rcases h with hlt | ⟨hfinished, hstarted⟩
  · left
    rw [(stepped_of_step hstep).passDone]
    split <;> omega
  · obtain ⟨hstarted', -, hfinished', -⟩ :=
      step_of_not_inLoop ((hs.finished hfinished).2 a.thread) hstep
    exact Or.inr ⟨hfinished' ▸ hfinished, hstarted' ▸ hstarted⟩

/-- Another thread leaves a waiting event waiting and does not come in the
owner's way. -/
theorem Waiting.step_other {passes : Nat} {owner : Thread} {s t : State Thread}
    {a : Action Thread} (hw : Waiting passes owner s) (hs : Serialized s)
    (hne : a.thread ≠ owner) (hstep : Handle.step s a = some t) :
    Waiting passes owner t ∧ t.passStarted = s.passStarted ∧
      (t.threads owner).pc = (s.threads owner).pc := by
  have hloop : ¬ (s.threads a.thread).inLoop := fun h =>
    hne (hs.single _ _ (Or.inl h) (Or.inl hw.loop))
  obtain ⟨hstarted, -, -, hcount⟩ := step_of_not_inLoop hloop hstep
  have hsame := (stepped_of_step hstep).other owner hne.symm
  refine ⟨⟨hsame ▸ hw.loop, ?_⟩, hstarted, by rw [hsame]⟩
  rw [hsame, hstarted]
  exact hw.phase.imp_right fun ⟨hpasses, hmore⟩ => ⟨hpasses, fun h =>
    Int.lt_of_lt_of_le (hmore h) hcount⟩

/-- A step of the owner brings the answer nearer. -/
theorem Waiting.step_owner {passes : Nat} {s t : State Thread} {a : Action Thread}
    (hw : Waiting passes a.thread s) (hs : Serialized s) (hp : Passes s) (hthrow : NoThrow s a)
    (hstep : Handle.step s a = some t) :
    Answered passes t ∨ Waiting passes a.thread t ∧
      (if t.passStarted = passes ∧ (t.threads a.thread).pc.inPass then
        7 + stepsLeft (t.threads a.thread).pc else stepsLeft (t.threads a.thread).pc) <
      if s.passStarted = passes ∧ (s.threads a.thread).pc.inPass then
        7 + stepsLeft (s.threads a.thread).pc else stepsLeft (s.threads a.thread).pc := by
  obtain ⟨pc, pc', hpc, hpc', hnext, hstarted, hdone, hcount, hfinished⟩ :=
    step_of_inLoop hs hthrow hw.loop hstep
  have hphase := hw.phase
  have hduring := hp.during a.thread
  rw [hpc] at hphase hduring
  rw [hpc, hpc']
  have hwaiting : (t.threads a.thread).inLoop →
      (t.passStarted = passes + 1 ∧ pc'.inPass ∨ t.passStarted = passes ∧
        (pc'.inPass ∨ pc' = .leave → 1 < t.holder.handleInProgress)) →
      Waiting passes a.thread t := fun hloop h => ⟨hloop, by rwa [hpc']⟩
  have hpass : pc'.inPass → (t.threads a.thread).inLoop := fun h => inLoop_of_inPass (hpc' ▸ h)
  cases hnext with
  | test | again =>
      -- the next pass begins with the next operation
      have hpasses := (hphase.resolve_left fun h => h.2).1
      refine Or.inr ⟨hwaiting (by simp [HandleThread.inLoop, hpc']) (Or.inr ⟨?_, ?_⟩), ?_⟩
      · simpa [hstarted] using hpasses
      · rintro (h | h) <;> cases h
      · simp [HandlePc.inPass, stepsLeft]
  | read | skipRead =>
      have hpasses := (hphase.resolve_left fun h => h.2).1
      have hnew : t.passStarted = passes + 1 := by simpa [hstarted] using hpasses
      refine Or.inr ⟨hwaiting (hpass trivial) (Or.inl ⟨hnew, trivial⟩), ?_⟩
      simp [hnew, HandlePc.inPass, stepsLeft]
  | applyRead | write | skipWrite | applyWrite =>
      have hsame : t.passStarted = s.passStarted := by simpa using hstarted
      have hcount' : t.holder.handleInProgress = s.holder.handleInProgress := by
        simpa using hcount
      refine Or.inr ⟨hwaiting (hpass trivial) ?_, ?_⟩
      · rw [hsame, hcount']
        exact hphase.imp (fun h => ⟨h.1, trivial⟩) fun h => ⟨h.1, fun _ => h.2 (Or.inl trivial)⟩
      · rw [hsame]
        by_cases hpasses : s.passStarted = passes <;>
          simp [hpasses, HandlePc.inPass, stepsLeft]
  | opened | closed =>
      have hdone' : t.passDone = s.passDone + 1 := by simpa using hdone
      have hsame : t.passStarted = s.passStarted := by simpa using hstarted
      have hcount' : t.holder.handleInProgress = s.holder.handleInProgress := by
        simpa using hcount
      have heq := hduring trivial
      rcases hphase with ⟨hpasses, -⟩ | ⟨hpasses, hmore⟩
      · -- the pass that answers the event is complete
        exact Or.inl (Or.inl (by omega))
      · refine Or.inr ⟨hwaiting (by simp [HandleThread.inLoop, hpc']) (Or.inr ⟨?_, ?_⟩), ?_⟩
        · omega
        · intro _
          rw [hcount']
          exact hmore (Or.inl trivial)
        · simp [hpasses, HandlePc.inPass, stepsLeft]
  | last hlast =>
      -- the counter still holds the event, so this decrement is not the last
      rcases hphase with ⟨-, hin⟩ | ⟨-, hmore⟩
      · exact hin.elim
      · exact absurd (hmore (Or.inr rfl)) hlast
  | finish =>
      -- the pass in progress has closed both sides: the second kind of answer
      have hpasses := (hphase.resolve_left fun h => h.2).1
      exact Or.inl (Or.inr ⟨by simpa using hfinished, by simpa [hstarted] using hpasses⟩)

theorem Awaiting.step {passes : Nat} {owner : Thread} {s t : State Thread} {a : Action Thread}
    (h : Awaiting passes owner s) (hthrow : NoThrow s a) (hstep : Handle.step s a = some t) :
    Awaiting passes owner t ∧
      rank passes owner t ≤
        if a.thread = owner then rank passes owner s - 1 else rank passes owner s := by
  have hs := h.serialized.step hstep
  have hp := h.counted.step h.serialized hthrow hstep
  rcases h.outcome with hanswered | hw
  · have hanswered' := hanswered.step h.serialized hstep
    exact ⟨⟨hs, hp, Or.inl hanswered'⟩, by rw [rank_of_answered hanswered']; exact Nat.zero_le _⟩
  · split
    · rename_i heq
      subst heq
      rcases hw.step_owner h.serialized h.counted hthrow hstep with hanswered' | ⟨hw', hlt⟩
      · exact ⟨⟨hs, hp, Or.inl hanswered'⟩,
          by rw [rank_of_answered hanswered']; exact Nat.zero_le _⟩
      · refine ⟨⟨hs, hp, Or.inr hw'⟩, ?_⟩
        rw [rank_of_waiting hs hp hw', rank_of_waiting h.serialized h.counted hw]
        omega
    · rename_i hne
      obtain ⟨hw', hstarted, hpc⟩ := hw.step_other h.serialized hne hstep
      refine ⟨⟨hs, hp, Or.inr hw'⟩, ?_⟩
      exact Nat.le_of_eq (by
        rw [rank_of_waiting hs hp hw', rank_of_waiting h.serialized h.counted hw, hstarted, hpc])

/-- The invariants of a run in which no handler throws. -/
theorem serialized_of_reachable {s : State Thread}
    (hs : Reachable (system Thread) NoThrow s) : Serialized s ∧ Passes s := by
  have hboth : Serialized s ∧ Passes s :=
    @Reachable.invariant _ _ _ _ (fun s => Serialized s ∧ Passes s)
      ⟨serialized_init, passes_init⟩
      (fun _ _ _ h hthrow hstep => ⟨h.1.step hstep, h.2.step h.1 hthrow hstep⟩) _ hs
  exact hboth

/-- An increment before the holder is finished finds or makes an owner, and its
event waits for an answer. -/
theorem awaiting_of_entry {s t : State Thread} (hs : Serialized s) (hp : Passes s)
    {a : Action Thread} (hout : (s.threads a.thread).pc = .out)
    (hopen : s.holder.handlingFinished = false) (hthrow : NoThrow s a)
    (hstep : Handle.step s a = some t) :
    ∃ owner, (t.threads owner).inLoop ∧ Awaiting s.passStarted owner t := by
  have hloop : ¬ (s.threads a.thread).inLoop := by
    simp [HandleThread.inLoop, hout]
  have h := stepped_of_step hstep
  have hstarted := (step_of_not_inLoop hloop hstep).1
  have hs' := hs.step hstep
  have hp' := hp.step hs hthrow hstep
  obtain ⟨owner, howner, ⟨hentered, -⟩ | ⟨-, -, hcount⟩⟩ := hp.owner_of_out hs h hout hopen
  · -- the thread comes into the loop itself, in front of a pass
    refine ⟨owner, howner, hs', hp', Or.inr ⟨howner, Or.inr ⟨hstarted, fun hpass => ?_⟩⟩⟩
    simp [hentered, HandlePc.inPass] at hpass
  · exact ⟨owner, howner, hs', hp', Or.inr ⟨howner, Or.inr ⟨hstarted, fun _ => hcount⟩⟩⟩

omit [DecidableEq Thread] in
theorem rank_le (passes : Nat) (owner : Thread) (s : State Thread) :
    rank passes owner s ≤ 11 := by
  unfold rank
  split
  · omega
  · cases (s.threads owner).pc <;> simp [HandlePc.inPass, stepsLeft] <;> split <;> omega

/-- In every run whose handlers do not throw, one thread at most is in the loop
body.  An event that is delivered before the holder is finished has an owner at
that moment, and after eleven more operations of that thread, however many of
other threads come in between, a pass that began after the event is complete or
the pass that was in progress has torn the holder down. -/
theorem serialized_handling {s : State Thread} (hs : Reachable (system Thread) NoThrow s) :
    (∀ i j, (s.threads i).pc.inBody → (s.threads j).pc.inBody → i = j) ∧
      ∀ a t, (s.threads a.thread).pc = .out → s.holder.handlingFinished = false →
        Handle.step s a = some t →
        ∃ owner, (t.threads owner).inLoop ∧ ∀ actions u, Meets (system Thread) NoThrow t actions →
          (system Thread).run t actions = some u →
          11 ≤ actions.countP (fun b => b.thread = owner) →
          s.passStarted < u.passDone ∨
            u.holder.handlingFinished = true ∧ u.passStarted = s.passStarted := by
  obtain ⟨hser, hp⟩ := serialized_of_reachable hs
  refine ⟨fun i j hi hj => hser.single i j (HandleThread.owns_of_inBody hi)
    (HandleThread.owns_of_inBody hj), ?_⟩
  intro a t hout hopen hstep
  have hthrow : NoThrow s a := by
    rintro (hpc | hpc) <;> simp [hout] at hpc
  obtain ⟨owner, howner, hawait⟩ := awaiting_of_entry hser hp hout hopen hthrow hstep
  refine ⟨owner, howner, fun actions u hmeets hrun henough => ?_⟩
  obtain ⟨hend, hrank⟩ := @run_rank_eq_zero _ _ (system Thread) NoThrow
    (Awaiting s.passStarted owner) (rank s.passStarted owner) (fun b => b.thread = owner)
    (fun _ _ _ h hthrow hst => (h.step hthrow hst).1)
    (fun _ _ _ h hthrow hmine hst => by
      have hle := (h.step hthrow hst).2
      rwa [if_pos (by simpa using hmine)] at hle)
    (fun _ _ _ h hthrow hother hst => by
      have hle := (h.step hthrow hst).2
      rwa [if_neg (by simpa using hother)] at hle)
    t u hawait actions hmeets hrun (Nat.le_trans (rank_le _ _ _) henough)
  refine hend.outcome.resolve_right fun hw => ?_
  have hpos := stepsLeft_pos hw.loop
  rw [rank_of_waiting hend.serialized hend.counted hw] at hrank
  split at hrank <;> omega

theorem meets_noThrow {actions : List (Action Thread)} (h : ∀ a ∈ actions, a.result ≠ .threw)
    (s : State Thread) : Meets (system Thread) NoThrow s actions :=
  meets_of_forall (fun a ha _ => fun _ => h a ha) s

/-- Thread `1` delivers an event while thread `0` is in its first pass, and thread
`0` makes a second pass for it. -/
theorem event_answered :
    ∃ s t u, (system (Fin 2)).run (system (Fin 2)).init
        (List.replicate 3 ⟨0, .returned 0⟩) = some s ∧
      Handle.step s ⟨1, .returned 0⟩ = some t ∧
      (system (Fin 2)).run t (List.replicate 11 ⟨0, .returned 0⟩) = some u ∧
      s.passStarted < u.passDone := by
  have hend : (((system (Fin 2)).run (system (Fin 2)).init
      (List.replicate 3 ⟨0, .returned 0⟩)).bind fun s =>
        (Handle.step s ⟨1, .returned 0⟩).bind fun t =>
          ((system (Fin 2)).run t (List.replicate 11 ⟨0, .returned 0⟩)).map fun u =>
            ((s.threads 1).pc, s.holder.handlingFinished, (t.threads 1).pc,
              (t.threads 1).prevHandleInProgress, u.holder.handlingFinished)) =
      some (.out, false, .entered, 1, false) := by
    decide +kernel
  obtain ⟨s, hs, hrest⟩ := Option.bind_eq_some_iff.mp hend
  obtain ⟨t, ht, hrest'⟩ := Option.bind_eq_some_iff.mp hrest
  obtain ⟨u, hu, hvalues⟩ := Option.map_eq_some_iff.mp hrest'
  simp only [Prod.mk.injEq] at hvalues
  obtain ⟨hout, hopen, hpc, hprev, hunfinished⟩ := hvalues
  have hreach : Reachable (system (Fin 2)) NoThrow s :=
    Reachable.init.of_run hs (meets_noThrow (by simp) _)
  obtain ⟨owner, howner, hanswer⟩ :=
    (serialized_handling hreach).2 ⟨1, .returned 0⟩ t hout hopen ht
  have hfirst : owner = 0 := by
    by_contra hne
    obtain rfl : owner = 1 := by omega
    simp [HandleThread.inLoop, hpc, hprev] at howner
  subst hfirst
  refine ⟨s, t, u, hs, ht, hu, ?_⟩
  rcases hanswer _ u (meets_noThrow (by simp) t) hu (by decide) with hdone | ⟨hfin, -⟩
  · exact hdone
  · rw [hunfinished] at hfin
    cases hfin

/-- A finished holder is never handled again. -/
theorem no_pass_when_finished {s t : State Thread} (hs : Serialized s)
    (hfinished : s.holder.handlingFinished = true) {actions : List (Action Thread)}
    (hrun : (system Thread).run s actions = some t) : t.passDone = s.passDone := by
  have hkept : Serialized t ∧ t.holder.handlingFinished = true ∧ t.passDone = s.passDone :=
    @run_preserves _ _ (system Thread)
      (fun t => Serialized t ∧ t.holder.handlingFinished = true ∧ t.passDone = s.passDone)
      (fun u a v hu hstep => by
        obtain ⟨-, hdone, hfin, -⟩ :=
          step_of_not_inLoop ((hu.1.finished hu.2.1).2 a.thread) hstep
        exact ⟨hu.1.step hstep, hfin ▸ hu.2.1, hdone ▸ hu.2.2⟩)
      _ _ ⟨hs, hfinished, rfl⟩ actions hrun
  exact hkept.2.2

/-- Thread `1` delivers an event while thread `0` is in the pass whose `read()`
closed both sides.  The holder is not finished yet, but that pass tears it down;
both threads leave, and no pass ever answers the event. -/
theorem event_ignored_on_stop :
    ∃ s t u, (system (Fin 2)).run (system (Fin 2)).init
        (List.replicate 3 ⟨0, .returned (closeReadHandle ||| closeWriteHandle)⟩) = some s ∧
      (s.threads 1).pc = .out ∧ s.holder.handlingFinished = false ∧
      Handle.step s ⟨1, .returned 0⟩ = some t ∧
      (system (Fin 2)).run t
        (List.replicate 12 ⟨0, .returned 0⟩ ++ List.replicate 3 ⟨1, .returned 0⟩) = some u ∧
      (∀ i, (u.threads i).pc = .out) ∧
      ∀ actions v, (system (Fin 2)).run u actions = some v → ¬ s.passStarted < v.passDone := by
  have hend : (((system (Fin 2)).run (system (Fin 2)).init
      (List.replicate 3 ⟨0, .returned (closeReadHandle ||| closeWriteHandle)⟩)).bind fun s =>
        (Handle.step s ⟨1, .returned 0⟩).bind fun t =>
          ((system (Fin 2)).run t
            (List.replicate 12 ⟨0, .returned 0⟩ ++ List.replicate 3 ⟨1, .returned 0⟩)).map fun u =>
            decide ((s.threads 1).pc = .out ∧ s.holder.handlingFinished = false ∧
              (u.threads 0).pc = .out ∧ (u.threads 1).pc = .out ∧
              u.holder.handlingFinished = true ∧ u.passDone ≤ s.passStarted)) = some true := by
    decide +kernel
  obtain ⟨s, hs, hrest⟩ := Option.bind_eq_some_iff.mp hend
  obtain ⟨t, ht, hrest'⟩ := Option.bind_eq_some_iff.mp hrest
  obtain ⟨u, hu, hvalues⟩ := Option.map_eq_some_iff.mp hrest'
  obtain ⟨hout, hopen, hfirst, hsecond, hfinished, hdone⟩ := of_decide_eq_true hvalues
  have hser : Serialized u := by
    have hinit := run_preserves (fun _ _ _ h hstep => h.step hstep) serialized_init hs
    exact run_preserves (fun _ _ _ h hstep => h.step hstep) (hinit.step ht) hu
  refine ⟨s, t, u, hs, hout, hopen, ht, hu, Fin.forall_fin_two.mpr ⟨hfirst, hsecond⟩, ?_⟩
  intro actions v hv
  have hsame := no_pass_when_finished hser hfinished hv
  omega

end Handle
end LiteMQ
