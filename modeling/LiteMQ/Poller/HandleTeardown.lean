import LiteMQ.Poller.HandleSerialization
import LiteMQ.Poller.RearmLock
import Mathlib.Data.Fintype.Basic

/-!
# Teardown of a holder

`rearm_fd` is set by every pass that leaves the holder open, and acted on after
the loop, outside of it.  So a thread can rearm a holder whose handler was reset
since: by a later pass of the same thread, or by another thread between the two.
It is not too late for that before `epoll_rearm_fd_` has asked the handler for its
descriptor, so a thread that has read the flags already is in danger as well.

`TeardownSafe` excludes exactly these.  `unused_iff_teardownSafe` says that
the handler is never used after the reset if and only if every reset of the run
is safe; `rearm_after_reset` is a run of two threads that is not.
-/

namespace LiteMQ
namespace Handle

open DescriptorHandler TransitionSystem

variable {Thread : Type*} [DecidableEq Thread]

/-- No thread has used the handler after it was reset. -/
def Unused (s : State Thread) : Prop := ∀ i, (s.threads i).pc ≠ .nullDereference

/-- The thread will come to the test of `rearm_fd` without another pass. -/
def towardsRearm : HandlePc → Prop
  | .push | .erase | .rearm => True
  | .out | .entered | .readSide | .applyRead _ | .writeSide | .applyWrite _ | .checkClosed
  | .finish | .epollDel | .stopped | .reset | .leave | .release | .unwound | .nullDereference
  | .assertionFailed => False

/-- No thread is on its way to the test of `rearm_fd`. -/
def Left (s : State Thread) : Prop := ∀ i, ¬ towardsRearm (s.threads i).pc

/-- The thread that resets the handler has not set `rearm_fd`, and no other
thread is about to rearm the holder. -/
def TeardownSafe (s : State Thread) (a : Action Thread) : Prop :=
  (s.threads a.thread).pc = .reset →
    (s.threads a.thread).rearmFd = false ∧
      ∀ i, (s.threads i).pc = .rearm → (s.threads i).rearmFd = false

instance [Fintype Thread] (s : State Thread) (a : Action Thread) : Decidable (TeardownSafe s a) :=
  inferInstanceAs (Decidable (_ → _ ∧ ∀ _, _ → _))

/-- The invariant of safe resets. -/
structure Guarded (s : State Thread) : Prop where
  serialized : Serialized s
  entered : ∀ i, (s.threads i).pc = .entered → (s.threads i).rearmFd = false
  unused : Unused s
  resetDone : s.holder.descriptorHandler = false → ∀ i,
    (s.threads i).pc ≠ .epollDel ∧ (s.threads i).pc ≠ .stopped ∧ (s.threads i).pc ≠ .reset
  noRearm : s.holder.descriptorHandler = false → ∀ i, towardsRearm (s.threads i).pc →
    (s.threads i).rearmFd = false

/-- The handler is reset, and a thread will use it or has used it. -/
def Doomed (s : State Thread) : Prop :=
  s.holder.descriptorHandler = false ∧ ∃ i, (s.threads i).pc = .nullDereference ∨
    towardsRearm (s.threads i).pc ∧ (s.threads i).rearmFd = true

theorem guarded_init : Guarded (system Thread).init where
  serialized := serialized_init
  entered := fun i hi => by simp [system, HandleThread.initial] at hi
  unused := fun i hi => by simp [system, HandleThread.initial] at hi
  resetDone := fun h => by simp [system, DescriptorHandlerHolder.initial] at h
  noRearm := fun h => by simp [system, DescriptorHandlerHolder.initial] at h

/-! ## What one operation does to `rearm_fd` -/

section Operations

variable {holder : DescriptorHandlerHolder} {thread : HandleThread} {result : CallResult}

/-- `rearm_fd` is cleared at the entry and set at the end of a pass. -/
theorem handleStep_rearmFd : (handleStep holder thread result).thread.rearmFd =
    if thread.pc = .out then false
    else if thread.pc = .checkClosed ∧
      ¬ (holder.flags.readClosed = true ∧ holder.flags.writeClosed = true) then true
    else thread.rearmFd := by
  unfold handleStep
  cases hpc : thread.pc
  case checkClosed =>
    dsimp only
    split
    · rename_i hclosed
      simp [HandleThread.goto, hclosed.1, hclosed.2]
    · rename_i hclosed
      simp only [reduceCtorEq, if_false, true_and]
      rw [if_pos hclosed]
  all_goals simp only [applyToHolder, reduceCtorEq, if_true, if_false, false_and]
  all_goals
    (repeat' split) <;> cases result <;> rfl

/-- A thread comes to the test at the entry from outside. -/
theorem out_of_handleStep (h : (handleStep holder thread result).thread.pc = .entered) :
    thread.pc = .out := by
  unfold handleStep at h
  cases hpc : thread.pc <;> simp only [hpc] at h
  case out => rfl
  all_goals
    (repeat' split at h) <;> cases result <;>
      simp_all [HandleThread.goto, HandleThread.afterCall, applyToHolder]

/-- Where a thread comes from that is on its way to the test of `rearm_fd`. -/
theorem towardsRearm_of_handleStep
    (h : towardsRearm (handleStep holder thread result).thread.pc) :
    thread.pc = .entered ∨ thread.pc = .leave ∨ thread.pc = .reset ∨ thread.pc = .push ∨
      thread.pc = .erase := by
  unfold handleStep at h
  cases hpc : thread.pc <;> simp only [hpc] at h
  case entered | leave | reset | push | erase => simp
  all_goals
    (repeat' split at h) <;> cases result <;>
      simp_all [HandleThread.goto, HandleThread.afterCall, applyToHolder, towardsRearm]

/-- The places at which a thread uses the handler, with the handler reset. -/
theorem nullDereference_of_handleStep
    (h : (handleStep holder thread result).thread.pc = .nullDereference) :
    thread.pc = .nullDereference ∨ holder.descriptorHandler = false ∧
      (thread.inLoop ∨ thread.pc = .epollDel ∨ thread.pc = .stopped ∨
        thread.pc = .rearm ∧ thread.rearmFd = true) := by
  unfold handleStep at h
  cases hpc : thread.pc <;> simp only [hpc] at h
  case nullDereference => exact Or.inl rfl
  case readSide | writeSide =>
    (repeat' split at h) <;> cases result <;>
      simp_all [HandleThread.goto, HandleThread.afterCall, HandleThread.inLoop]
  all_goals
    (repeat' split at h) <;> cases result <;>
      simp_all [HandleThread.goto, HandleThread.afterCall, applyToHolder]

/-- Where a thread comes from that stands between the flag and the reset. -/
theorem beforeReset_of_handleStep
    (h : (handleStep holder thread result).thread.pc = .epollDel ∨
      (handleStep holder thread result).thread.pc = .stopped ∨
      (handleStep holder thread result).thread.pc = .reset) :
    thread.pc = .finish ∨ thread.pc = .epollDel ∨ thread.pc = .stopped := by
  unfold handleStep at h
  cases hpc : thread.pc <;> simp only [hpc] at h
  case finish | epollDel | stopped => simp
  all_goals
    (repeat' split at h) <;> cases result <;>
      simp_all [HandleThread.goto, HandleThread.afterCall, applyToHolder]

end Operations

/-! ## Steps and runs -/

omit [DecidableEq Thread] in
/-- `rearm_fd` is false at the test at the entry. -/
theorem Stepped.entered_step {s t : State Thread} {a : Action Thread} (h : Stepped s t a)
    (hs : ∀ i, (s.threads i).pc = .entered → (s.threads i).rearmFd = false) (i : Thread)
    (hi : (t.threads i).pc = .entered) : (t.threads i).rearmFd = false := by
  rcases eq_or_ne i a.thread with rfl | hne
  · rw [h.self] at hi ⊢
    rw [handleStep_rearmFd, if_pos (out_of_handleStep hi)]
  · rw [h.other i hne] at hi ⊢
    exact hs i hi

omit [DecidableEq Thread] in
/-- The handler is reset by a step or before it. -/
theorem Stepped.reset_or_before {s t : State Thread} {a : Action Thread} (h : Stepped s t a)
    (hnull : t.holder.descriptorHandler = false) :
    (s.threads a.thread).pc = .reset ∨ s.holder.descriptorHandler = false := by
  rw [h.descriptorHandler] at hnull
  split at hnull
  · rename_i hpc
    exact Or.inl hpc
  · exact Or.inr hnull

omit [DecidableEq Thread] in
/-- The thread that resets the handler goes on to the cleaner with the
`rearm_fd` that it has. -/
theorem Stepped.self_of_reset {s t : State Thread} {a : Action Thread} (h : Stepped s t a)
    (hpc : (s.threads a.thread).pc = .reset) :
    (t.threads a.thread).pc = .push ∧
      (t.threads a.thread).rearmFd = (s.threads a.thread).rearmFd := by
  rw [h.self]
  simp [handleStep, hpc, HandleThread.goto]

omit [DecidableEq Thread] in
/-- The thread that resets the handler is the only one in the teardown. -/
theorem not_tearingDown_of_reset {s : State Thread} (hs : Serialized s) {i j : Thread}
    (hpc : (s.threads j).pc = .reset) (hne : i ≠ j) : ¬ (s.threads i).pc.tearingDown :=
  fun htear => hne (hs.single i j (Or.inr htear) (Or.inr (by simp [hpc, HandlePc.tearingDown])))

omit [DecidableEq Thread] in
/-- Behind the reset no thread is in the loop. -/
theorem Guarded.not_inLoop {s : State Thread} (hs : Guarded s)
    (hnull : s.holder.descriptorHandler = false) (i : Thread) : ¬ (s.threads i).inLoop :=
  (hs.serialized.finished (hs.serialized.handler hnull)).2 i

omit [DecidableEq Thread] in
/-- No thread uses the handler behind the reset: whoever could is in the loop,
in front of the reset, or at the test of `rearm_fd` with the flag set. -/
theorem Guarded.unused_step {s t : State Thread} {a : Action Thread} (hs : Guarded s)
    (h : Stepped s t a) : Unused t := by
  intro i hi
  rcases eq_or_ne i a.thread with rfl | hne
  · rw [h.self] at hi
    rcases nullDereference_of_handleStep hi with hbefore | ⟨hnull, huse⟩
    · exact hs.unused _ hbefore
    · -- the loop and the places in front of the reset are empty, and no rearm is left
      obtain ⟨hdel, hstopped, -⟩ := hs.resetDone hnull a.thread
      rcases huse with hloop | hpc | hpc | ⟨hpc, hrearm⟩
      · exact hs.not_inLoop hnull _ hloop
      · exact hdel hpc
      · exact hstopped hpc
      · have hfalse := hs.noRearm hnull a.thread (by simp [hpc, towardsRearm])
        rw [hrearm] at hfalse
        cases hfalse
  · rw [h.other i hne] at hi
    exact hs.unused i hi

omit [DecidableEq Thread] in
/-- Behind the reset no thread stands between the flag and the reset. -/
theorem resetDone_step {s t : State Thread} {a : Action Thread} (hs : Serialized s)
    (hdone : s.holder.descriptorHandler = false → ∀ i, (s.threads i).pc ≠ .epollDel ∧
      (s.threads i).pc ≠ .stopped ∧ (s.threads i).pc ≠ .reset)
    (h : Stepped s t a) (hnull : t.holder.descriptorHandler = false) (i : Thread) :
    (t.threads i).pc ≠ .epollDel ∧ (t.threads i).pc ≠ .stopped ∧ (t.threads i).pc ≠ .reset := by
  rcases eq_or_ne i a.thread with rfl | hne
  · rcases h.reset_or_before hnull with hpc | hbefore
    · simp [(h.self_of_reset hpc).1]
    · obtain ⟨hdel, hstopped, -⟩ := hdone hbefore a.thread
      have hnot : ¬ ((t.threads a.thread).pc = .epollDel ∨ (t.threads a.thread).pc = .stopped ∨
          (t.threads a.thread).pc = .reset) := by
        intro hpcs
        rw [h.self] at hpcs
        rcases beforeReset_of_handleStep hpcs with hfinish | hpc | hpc
        · exact (hs.finished (hs.handler hbefore)).2 a.thread
            (by simp [HandleThread.inLoop, hfinish])
        · exact hdel hpc
        · exact hstopped hpc
      simpa only [not_or] using hnot
  · rw [h.other i hne]
    rcases h.reset_or_before hnull with hpc | hbefore
    · have hnot := not_tearingDown_of_reset hs hpc hne
      refine ⟨?_, ?_, ?_⟩ <;> intro hpci <;> exact hnot (by simp [hpci, HandlePc.tearingDown])
    · exact hdone hbefore i

omit [DecidableEq Thread] in
/-- Behind a safe reset no thread comes to the test of `rearm_fd` with the flag
set. -/
theorem Guarded.noRearm_step {s t : State Thread} {a : Action Thread} (hs : Guarded s)
    (hsafe : TeardownSafe s a) (h : Stepped s t a)
    (hnull : t.holder.descriptorHandler = false) (i : Thread)
    (hi : towardsRearm (t.threads i).pc) : (t.threads i).rearmFd = false := by
  rcases eq_or_ne i a.thread with rfl | hne
  · rcases h.reset_or_before hnull with hpc | hbefore
    · rw [(h.self_of_reset hpc).2]
      exact (hsafe hpc).1
    · have hnoReset := (hs.resetDone hbefore a.thread).2.2
      have hnot := hs.not_inLoop hbefore a.thread
      rw [h.self] at hi ⊢
      -- the flag is set in the loop only, and cleared at the entry
      have hkept : (handleStep s.holder (s.threads a.thread) a.result).thread.rearmFd =
          (s.threads a.thread).rearmFd := by
        rw [handleStep_rearmFd, if_neg, if_neg]
        · rintro ⟨hpc, -⟩
          exact hnot (by simp [HandleThread.inLoop, hpc])
        · intro hpc
          simp [handleStep, hpc, towardsRearm] at hi
      rw [hkept]
      rcases towardsRearm_of_handleStep hi with hpc | hpc | hpc | hpc | hpc
      · exact hs.entered _ hpc
      · exact absurd (by simp [HandleThread.inLoop, hpc]) hnot
      · exact absurd hpc hnoReset
      · exact hs.noRearm hbefore _ (by simp [hpc, towardsRearm])
      · exact hs.noRearm hbefore _ (by simp [hpc, towardsRearm])
  · rw [h.other i hne] at hi ⊢
    rcases h.reset_or_before hnull with hpc | hbefore
    · -- no other thread tears the holder down, so it can only be at the test
      have hnot := not_tearingDown_of_reset hs.serialized hpc hne
      apply (hsafe hpc).2 i
      cases hpci : (s.threads i).pc <;>
        simp_all [towardsRearm, HandlePc.tearingDown]
    · exact hs.noRearm hbefore i hi

theorem Guarded.step {s t : State Thread} {a : Action Thread} (hs : Guarded s)
    (hsafe : TeardownSafe s a) (hstep : Handle.step s a = some t) : Guarded t := by
  have h := stepped_of_step hstep
  exact ⟨hs.serialized.step hstep, h.entered_step hs.entered, hs.unused_step h,
    resetDone_step hs.serialized hs.resetDone h, hs.noRearm_step hsafe h⟩

/-- An unsafe reset dooms a thread. -/
theorem doomed_of_unsafe {s t : State Thread} {a : Action Thread}
    (hsafe : ¬ TeardownSafe s a) (hstep : Handle.step s a = some t) : Doomed t := by
  have h := stepped_of_step hstep
  obtain ⟨hpc, hrearm⟩ := Classical.not_imp.mp hsafe
  have hnull : t.holder.descriptorHandler = false := by
    rw [h.descriptorHandler, if_pos hpc]
  refine ⟨hnull, ?_⟩
  -- either this thread goes on to the test with the flag set, or another one stands there
  by_cases hown : (s.threads a.thread).rearmFd = false
  · have hexists : ∃ i, (s.threads i).pc = .rearm ∧ (s.threads i).rearmFd = true := by
      by_contra hnone
      refine hrearm ⟨hown, fun i hi => ?_⟩
      by_contra htrue
      exact hnone ⟨i, hi, by simpa using htrue⟩
    obtain ⟨i, hi, htrue⟩ := hexists
    have hne : i ≠ a.thread := by
      rintro rfl
      rw [hpc] at hi
      cases hi
    refine ⟨i, Or.inr ?_⟩
    rw [h.other i hne]
    exact ⟨by simp [hi, towardsRearm], htrue⟩
  · refine ⟨a.thread, Or.inr ?_⟩
    obtain ⟨hpush, hkept⟩ := h.self_of_reset hpc
    rw [hpush, hkept]
    exact ⟨trivial, by simpa using hown⟩

/-- A doomed thread is never saved. -/
theorem Doomed.step {s t : State Thread} {a : Action Thread} (hs : Doomed s)
    (hstep : Handle.step s a = some t) : Doomed t := by
  have h := stepped_of_step hstep
  obtain ⟨hnull, i, hi⟩ := hs
  refine ⟨?_, i, ?_⟩
  · rw [h.descriptorHandler]
    split
    · rfl
    · exact hnull
  · rcases eq_or_ne i a.thread with rfl | hne
    · rw [h.self]
      rcases hi with hpc | ⟨htowards, hrearm⟩
      · left
        simp [handleStep, hpc]
      · -- `push` and `erase` lead to the test, and the test to the handler
        cases hpc : (s.threads a.thread).pc <;> simp [hpc, towardsRearm] at htowards
        · exact Or.inr (by simpa [handleStep, hpc, HandleThread.goto, towardsRearm] using hrearm)
        · exact Or.inr (by simpa [handleStep, hpc, HandleThread.goto, towardsRearm] using hrearm)
        · exact Or.inl (by simp [handleStep, hpc, HandleThread.goto, hrearm, hnull])
    · rw [h.other i hne]
      exact hi

end Handle

/-! ## Runs -/

namespace RearmLock

open DescriptorHandler TransitionSystem

variable {Thread : Type*} [DecidableEq Thread]

omit [DecidableEq Thread] in
/-- Reading the flags is no reset. -/
theorem teardownSafe_of_rearms {s : State Thread} {a : Handle.Action Thread}
    (hrearms : rearms (s.handle.threads a.thread)) : Handle.TeardownSafe s.handle a := by
  intro hpc
  rw [hrearms.1] at hpc
  cases hpc

/-- In a run whose resets are all safe, no thread ever uses the handler after
the reset, in `epoll_rearm_handler_` or elsewhere.  And a run at whose end no
thread is on its way to the test of `rearm_fd`, or behind it with the flag set, has
used it if a reset was unsafe. -/
theorem unused_iff_teardownSafe {actions : List (Handle.Action Thread)} {s : State Thread}
    (hrun : (system Thread).run (system Thread).init actions = some s) :
    (Meets (system Thread) (fun s a => Handle.TeardownSafe s.handle a) (system Thread).init
        actions → Handle.Unused s.handle) ∧
      (Handle.Left s.handle → Handle.Unused s.handle →
        Meets (system Thread) (fun s a => Handle.TeardownSafe s.handle a) (system Thread).init
          actions) := by
  have hgood : ∀ (s : State Thread) a t, Handle.Guarded s.handle →
      Handle.TeardownSafe s.handle a → step s a = some t → Handle.Guarded t.handle := by
    intro s a t hs hsafe hstep
    rcases handle_of_step hstep with ⟨-, hsame⟩ | hhandle
    · rw [hsame]
      exact hs
    · exact hs.step hsafe hhandle
  have hbad : ∀ (s : State Thread) a t, Handle.Guarded s.handle →
      ¬ Handle.TeardownSafe s.handle a → step s a = some t → Handle.Doomed t.handle := by
    intro s a t _ hsafe hstep
    rcases handle_of_step hstep with ⟨hrearms, -⟩ | hhandle
    · exact absurd (teardownSafe_of_rearms hrearms) hsafe
    · exact Handle.doomed_of_unsafe hsafe hhandle
  have hstay : ∀ (s : State Thread) a t, Handle.Doomed s.handle → step s a = some t →
      Handle.Doomed t.handle := by
    intro s a t hs hstep
    rcases handle_of_step hstep with ⟨-, hsame⟩ | hhandle
    · rw [hsame]
      exact hs
    · exact hs.step hhandle
  rcases @run_split _ _ (system Thread) _ (fun s => Handle.Guarded s.handle)
    (fun s => Handle.Doomed s.handle) hgood hbad hstay _ _ Handle.guarded_init _ hrun with
    ⟨hmeets, hend⟩ | ⟨hnot, hend⟩
  · exact ⟨fun _ => hend.unused, fun _ _ => hmeets⟩
  · refine ⟨fun h => absurd h hnot, fun hleft hunused => ?_⟩
    obtain ⟨-, i, hpc | ⟨htowards, -⟩⟩ := hend
    · exact absurd hpc (hunused i)
    · exact absurd htowards (hleft i)

/-- Both sides are closed in the first pass. -/
theorem unused_closed_at_once :
    ∃ s, (system Unit).run (system Unit).init
        (List.replicate 15 ⟨(), .returned (closeReadHandle ||| closeWriteHandle)⟩) = some s ∧
      s.handle.holder.descriptorHandler = false ∧ Handle.Unused s.handle := by
  have hend : ((system Unit).run (system Unit).init
      (List.replicate 15 ⟨(), .returned (closeReadHandle ||| closeWriteHandle)⟩)).map
        (fun s => s.handle.holder.descriptorHandler) = some false := by
    decide +kernel
  obtain ⟨s, hrun, hnull⟩ := Option.map_eq_some_iff.mp hend
  exact ⟨s, hrun, hnull, (unused_iff_teardownSafe hrun).1 (by decide +kernel)⟩

/-- Thread `0` finds nothing to close in its first pass; thread `1` leaves it a
second event, for which `read()` closes both sides.  Thread `0` tears the holder
down, reads the flags and then asks the handler for its descriptor. -/
theorem rearm_after_reset :
    ∃ s, (system (Fin 2)).run (system (Fin 2)).init
        (List.replicate 7 ⟨0, .returned continueHandle⟩ ++ [⟨1, .returned continueHandle⟩] ++
          List.replicate 14 ⟨0, .returned (closeReadHandle ||| closeWriteHandle)⟩) = some s ∧
      s.handle.holder.descriptorHandler = false ∧
      (s.handle.threads 0).pc = .nullDereference := by
  have hend : ((system (Fin 2)).run (system (Fin 2)).init
      (List.replicate 7 ⟨0, .returned continueHandle⟩ ++ [⟨1, .returned continueHandle⟩] ++
        List.replicate 14 ⟨0, .returned (closeReadHandle ||| closeWriteHandle)⟩)).map
        (fun s => (s.handle.holder.descriptorHandler, (s.handle.threads 0).pc)) =
      some (false, .nullDereference) := by
    decide +kernel
  obtain ⟨s, hrun, hvalues⟩ := Option.map_eq_some_iff.mp hend
  exact ⟨s, hrun, (Prod.mk.inj hvalues).1, (Prod.mk.inj hvalues).2⟩

end RearmLock
end LiteMQ
