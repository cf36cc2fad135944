import LiteMQ.Poller.HandleEvents
import LiteMQ.Poller.HandleTeardown

/-!
# Closed sides of a holder

`apply_state_modify_` clears `handle_read`, not `handle_write`, when the write
side is closed, and neither start bit looks at the closed flags.  So a side that
was closed can still be used: `closed_stay_closed` says which masks keep the law,
and `write_after_close` is a run of one thread that breaks it.

The invariant is `Closed`.  The read side is simple, since closing it clears its
flag.  Closing the write side leaves `handle_write` as it was, so either it was
cleared before, or the pass that closes the side ends the holder: `Closing` says
that nothing uses the flag until the teardown.  And whoever has read the flags in
`epoll_rearm_handler_` before a side is closed calls `epoll_ctl` with them after it
(`request_after_close`).
-/

namespace LiteMQ

open DescriptorHandler

/-! ## The bits of one side -/

/-- The bits of the read side. -/
def readBits : UInt64 := stopReadHandle ||| startReadHandle ||| closeReadHandle

/-- The bits of the write side. -/
def writeBits : UInt64 := stopWriteHandle ||| startWriteHandle ||| closeWriteHandle

/-- The mask starts the read side and does not close it. -/
def startsRead (stateModify : UInt64) : Bool :=
  !hasBit stateModify closeReadHandle && hasBit stateModify startReadHandle

/-- The mask starts the write side and does not close it. -/
def startsWrite (stateModify : UInt64) : Bool :=
  !hasBit stateModify closeWriteHandle && hasBit stateModify startWriteHandle

/-- With the bits of the read side of the mask alone, `handle_read` is cleared. -/
def readOff (flags : HandleFlags) (stateModify : UInt64) : Bool :=
  hasBit stateModify closeReadHandle ||
    !hasBit stateModify startReadHandle &&
      (hasBit stateModify stopReadHandle || !flags.handleRead)

theorem hasBit_and (stateModify bits bit : UInt64) :
    hasBit (stateModify &&& bits) bit = hasBit stateModify (bits &&& bit) := by
  unfold hasBit
  rw [UInt64.and_assoc]

/-- A mask has none of no bits. -/
theorem hasBit_zero (stateModify : UInt64) : hasBit stateModify 0 = false := by
  simp [hasBit]

/-- The bits of the read side give `handle_read`, whatever those of the write
side, unless the write side is closed. -/
theorem handleRead_readBits (flags : HandleFlags) (stateModify : UInt64) :
    (applyStateModify flags (stateModify &&& readBits)).1.handleRead =
      !(readOff flags stateModify) := by
  have hcloseWrite : readBits &&& closeWriteHandle = 0 := by decide
  have hclose : readBits &&& closeReadHandle = closeReadHandle := by decide
  have hstart : readBits &&& startReadHandle = startReadHandle := by decide
  have hstop : readBits &&& stopReadHandle = stopReadHandle := by decide
  rw [applyStateModify_handleRead]
  simp only [hasBit_and, hcloseWrite, hclose, hstart, hstop, hasBit_zero, readOff]
  cases hasBit stateModify closeReadHandle <;> cases hasBit stateModify startReadHandle <;>
    cases hasBit stateModify stopReadHandle <;> simp

/-- The bits of the write side give `handle_write`, whatever those of the read
side. -/
theorem handleWrite_writeBits (flags : HandleFlags) (stateModify : UInt64) :
    (applyStateModify flags (stateModify &&& writeBits)).1.handleWrite =
      (applyStateModify flags stateModify).1.handleWrite := by
  have hclose : writeBits &&& closeWriteHandle = closeWriteHandle := by decide
  have hstart : writeBits &&& startWriteHandle = startWriteHandle := by decide
  have hstop : writeBits &&& stopWriteHandle = stopWriteHandle := by decide
  simp only [applyStateModify_handleWrite, hasBit_and, hclose, hstart, hstop]

/-! ## The law of the log -/

namespace HandleEvent

/-- A mask with the bit was applied. -/
def applies (bit : UInt64) : HandleEvent → Prop
  | .applied stateModify _ _ => hasBit stateModify bit = true
  | .effect _ => False

/-- A mask that closes the read side was applied. -/
def closesRead : HandleEvent → Prop := applies closeReadHandle

/-- A mask that closes the write side was applied. -/
def closesWrite : HandleEvent → Prop := applies closeWriteHandle

/-- `read()` is called or `EPOLLIN` is requested. -/
def usesRead (event : HandleEvent) : Prop :=
  event = .effect .callRead ∨
    ∃ handleWrite, event = .effect (.epollRearm true handleWrite)

/-- `write()` is called or `EPOLLOUT` is requested. -/
def usesWrite (event : HandleEvent) : Prop :=
  event = .effect .callWrite ∨
    ∃ handleRead, event = .effect (.epollRearm handleRead true)

/-- An applied mask sets the flag of each side as its bits of that side alone
would. -/
def oneSided : HandleEvent → Prop
  | .applied stateModify before after =>
      after.handleRead = (applyStateModify before (stateModify &&& readBits)).1.handleRead ∧
        after.handleWrite = (applyStateModify before (stateModify &&& writeBits)).1.handleWrite
  | .effect _ => True

end HandleEvent

namespace Handle

open TransitionSystem HandleEvent

variable {Thread : Type*} [DecidableEq Thread]

/-- Closed sides stay closed, and no side is changed by the bits of the other. -/
structure ClosedStayClosed (log : List HandleEvent) : Prop where
  read : log.Pairwise fun earlier later => closesRead earlier → ¬ usesRead later
  write : log.Pairwise fun earlier later => closesWrite earlier → ¬ usesWrite later
  sides : ∀ event ∈ log, oneSided event

/-- No thread is about to rearm the holder. -/
def NoRearm (s : State Thread) : Prop :=
  ∀ i, (s.threads i).pc = .rearm → (s.threads i).rearmFd = false

/-- The mask that is applied starts no closed side.  If it closes the write side,
its bits of the read side clear `handle_read` as well, and `handle_write` is
cleared already or `write()` returned the mask, the read side is closed too, and
no thread is about to rearm the holder. -/
def ClosesCleanly (s : State Thread) (a : Action Thread) : Prop :=
  ∀ stateModify ∈ (s.threads a.thread).pc.applying,
    (s.holder.flags.readClosed = true → startsRead stateModify = false) ∧
    (s.holder.flags.writeClosed = true → startsWrite stateModify = false) ∧
    (hasBit stateModify closeWriteHandle = true →
      readOff s.holder.flags stateModify = true ∧
      (s.holder.flags.handleWrite = false ∨
        (s.threads a.thread).pc = .applyWrite stateModify ∧
          (s.holder.flags.readClosed || hasBit stateModify closeReadHandle) = true ∧
          NoRearm s))

instance [Fintype Thread] (s : State Thread) (a : Action Thread) : Decidable (ClosesCleanly s a) :=
  have : Decidable (NoRearm s) := inferInstanceAs (Decidable (∀ _, _ → _))
  -- one mask is tested, not all of them
  Option.decidableForallMem (p := fun stateModify => (_ → _) ∧ (_ → _) ∧
    (hasBit stateModify closeWriteHandle = true → _ ∧ (_ ∨ _ ∧ _ ∧ NoRearm s))) _

/-- Both sides are closed, the owner will tear the holder down, and no thread
that is there already will rearm it. -/
structure Closing (s : State Thread) : Prop where
  readClosed : s.holder.flags.readClosed = true
  writeClosed : s.holder.flags.writeClosed = true
  owner : ∀ i, (s.threads i).inLoop → (s.threads i).pc = .checkClosed ∨
    (s.threads i).pc = .finish
  busy : 1 ≤ s.holder.handleInProgress
  noRearm : s.holder.descriptorHandler = true → NoRearm s

/-- The invariant of clean closing. -/
structure Closed (s : State Thread) : Prop where
  serialized : Serialized s
  entered : ∀ i, (s.threads i).pc = .entered → (s.threads i).rearmFd = false
  pushed : ∀ i, (s.threads i).pc = .push ∨ (s.threads i).pc = .erase →
    s.holder.descriptorHandler = false
  read : s.holder.flags.readClosed = true → s.holder.flags.handleRead = false
  write : s.holder.flags.writeClosed = true → s.holder.flags.handleWrite = true → Closing s

theorem closed_init : Closed (system Thread).init where
  serialized := serialized_init
  entered := fun i hi => by simp [system, HandleThread.initial] at hi
  pushed := fun i hi => by simp [system, HandleThread.initial] at hi
  read := fun h => by simp [system, DescriptorHandlerHolder.initial, HandleFlags.initial] at h
  write := fun h => by simp [system, DescriptorHandlerHolder.initial, HandleFlags.initial] at h

/-! ## Steps -/

omit [DecidableEq Thread] in
/-- No mask is applied while the holder is closing. -/
theorem Closing.applying_eq_none {s : State Thread} (hs : Closing s) (i : Thread) :
    (s.threads i).pc.applying = none := by
  cases happlying : (s.threads i).pc.applying with
  | none => rfl
  | some stateModify =>
      rcases hs.owner i (inLoop_of_applying happlying) with hpc | hpc <;>
        simp [hpc, HandlePc.applying] at happlying

/-- Where a thread comes from that stands at the test of `rearm_fd`. -/
theorem rearm_of_handleStep {holder : DescriptorHandlerHolder} {thread : HandleThread}
    {result : CallResult} (h : (handleStep holder thread result).thread.pc = .rearm) :
    thread.pc = .entered ∨ thread.pc = .leave ∨ thread.pc = .erase := by
  have htowards : towardsRearm (handleStep holder thread result).thread.pc := by
    simp [h, towardsRearm]
  rcases towardsRearm_of_handleStep htowards with hpc | hpc | hpc | hpc | hpc
  · exact Or.inl hpc
  · exact Or.inr (Or.inl hpc)
  · simp [handleStep, hpc, HandleThread.goto] at h
  · simp [handleStep, hpc, HandleThread.goto] at h
  · exact Or.inr (Or.inr hpc)

omit [DecidableEq Thread] in
/-- While a holder with its handler is closing, no thread comes to the test of
`rearm_fd` with the flag set. -/
theorem Closing.noRearm_step {s t : State Thread} {a : Action Thread} (hclosing : Closing s)
    (hs : Closed s) (h : Stepped s t a) (hhandler : t.holder.descriptorHandler = true) :
    NoRearm t := by
  have hbefore : s.holder.descriptorHandler = true := by
    rw [h.descriptorHandler] at hhandler
    split at hhandler
    · cases hhandler
    · exact hhandler
  intro i hi
  rcases eq_or_ne i a.thread with rfl | hne
  · rw [h.self] at hi ⊢
    -- it comes from the entry, from the loop or from the end of the teardown
    rcases rearm_of_handleStep hi with hpc | hpc | hpc
    · rw [handleStep_rearmFd, if_neg (by simp [hpc]), if_neg (by simp [hpc])]
      exact hs.entered _ hpc
    · rcases hclosing.owner a.thread (by simp [HandleThread.inLoop, hpc]) with howner | howner <;>
        simp [hpc] at howner
    · have hnull := hs.pushed a.thread (Or.inr hpc)
      rw [hbefore] at hnull
      cases hnull
  · rw [h.other i hne] at hi ⊢
    exact hclosing.noRearm hbefore i hi

omit [DecidableEq Thread] in
/-- A closing holder stays so until the end of the run. -/
theorem Closing.step {s t : State Thread} {a : Action Thread} (hclosing : Closing s)
    (hs : Closed s) (h : Stepped s t a) : Closing t := by
  have hflags := h.flags_of_none (hclosing.applying_eq_none a.thread)
  refine ⟨hflags ▸ hclosing.readClosed, hflags ▸ hclosing.writeClosed, ?_, ?_,
    hclosing.noRearm_step hs h⟩
  · intro i hi
    have hbusy := hclosing.busy
    rcases h.inLoop_before hi with hloop | ⟨-, -, hzero⟩
    · have howner := hclosing.owner i hloop
      rcases eq_or_ne i a.thread with rfl | hne
      · rcases howner with hpc | hpc
        · right
          rw [h.self]
          simp [handleStep, hpc, hclosing.readClosed, hclosing.writeClosed, HandleThread.goto]
        · rw [h.self] at hi
          simp [handleStep, hpc, HandleThread.goto, HandleThread.inLoop] at hi
      · rwa [h.other i hne]
    · omega
  · have hbusy := hclosing.busy
    rw [h.handleInProgress]
    split
    · omega
    · split
      · rename_i hpc
        rcases hclosing.owner a.thread (by simp [HandleThread.inLoop, hpc]) with howner | howner <;>
          simp [hpc] at howner
      · exact hbusy

omit [DecidableEq Thread] in
/-- The thread of the step stands in front of `push` or `erase` with the handler
reset. -/
theorem Closed.pushed_step {s t : State Thread} {a : Action Thread} (hs : Closed s)
    (h : Stepped s t a) (i : Thread) (hi : (t.threads i).pc = .push ∨ (t.threads i).pc = .erase) :
    t.holder.descriptorHandler = false := by
  have hkept : s.holder.descriptorHandler = false → t.holder.descriptorHandler = false := by
    intro hnull
    rw [h.descriptorHandler, hnull]
    split <;> rfl
  rcases eq_or_ne i a.thread with rfl | hne
  · rw [h.self] at hi
    have htowards : towardsRearm (handleStep s.holder (s.threads a.thread) a.result).thread.pc := by
      rcases hi with hpc | hpc <;> simp [hpc, towardsRearm]
    rcases towardsRearm_of_handleStep htowards with hpc | hpc | hpc | hpc | hpc
    · simp only [handleStep, hpc] at hi
      split at hi <;> simp [HandleThread.goto] at hi
    · simp only [handleStep, hpc] at hi
      split at hi <;> simp at hi
    · rw [h.descriptorHandler, if_pos hpc]
    · exact hkept (hs.pushed _ (Or.inl hpc))
    · exact hkept (hs.pushed _ (Or.inr hpc))
  · rw [h.other i hne] at hi
    exact hkept (hs.pushed i hi)

omit [DecidableEq Thread] in
/-- A clean mask leaves the read side closed if it was. -/
theorem Closed.read_step {s t : State Thread} {a : Action Thread} (hs : Closed s)
    (hclean : ClosesCleanly s a) (h : Stepped s t a)
    (hclosed : t.holder.flags.readClosed = true) : t.holder.flags.handleRead = false := by
  cases happlying : (s.threads a.thread).pc.applying with
  | none =>
      rw [h.flags_of_none happlying] at hclosed ⊢
      exact hs.read hclosed
  | some stateModify =>
      rw [h.flags_of_some happlying] at hclosed ⊢
      rw [applyStateModify_readClosed] at hclosed
      rw [applyStateModify_handleRead]
      split
      · rfl
      · split
        · rfl
        · rename_i hopen
          have hbefore : s.holder.flags.readClosed = true := by simpa [hopen] using hclosed
          have hstart := (hclean stateModify happlying).1 hbefore
          have hread := hs.read hbefore
          simp only [startsRead, hopen] at hstart
          simp_all

omit [DecidableEq Thread] in
/-- A clean mask leaves `handle_write` cleared on a closed side, or the holder is
closing. -/
theorem Closed.write_step {s t : State Thread} {a : Action Thread} (hs : Closed s)
    (hclean : ClosesCleanly s a) (h : Stepped s t a)
    (hclosed : t.holder.flags.writeClosed = true) (hwrite : t.holder.flags.handleWrite = true) :
    Closing t := by
  cases happlying : (s.threads a.thread).pc.applying with
  | none =>
      rw [h.flags_of_none happlying] at hclosed hwrite
      exact (hs.write hclosed hwrite).step hs h
  | some stateModify =>
      obtain ⟨-, hstart, hcloses⟩ := hclean stateModify happlying
      have hloop := inLoop_of_applying happlying
      have hflags := h.flags_of_some happlying
      rw [hflags] at hclosed hwrite
      rw [applyStateModify_writeClosed] at hclosed
      rw [applyStateModify_handleWrite] at hwrite
      cases hbit : hasBit stateModify closeWriteHandle with
      | false =>
          -- the side was closed before, and is not started, so the holder was closing
          have hbefore : s.holder.flags.writeClosed = true := by simpa [hbit] using hclosed
          have hnoStart := hstart hbefore
          have hwas : s.holder.flags.handleWrite = true := by
            simp_all [startsWrite]
          have hnone := (hs.write hbefore hwas).applying_eq_none a.thread
          rw [happlying] at hnone
          cases hnone
      | true =>
          -- the flag stays set, so the guard allows the mask only at the end of the pass
          have hwas : s.holder.flags.handleWrite = true := by simpa [hbit] using hwrite
          obtain ⟨hpc, hread, hnoRearm⟩ := (hcloses hbit).2.resolve_left (by simp [hwas])
          have hself : (t.threads a.thread).pc = .checkClosed := by
            rw [h.self]
            simp [handleStep, hpc, applyToHolder]
          have hpcs : ∀ pc : HandlePc, pc = .out ∨ pc = .leave → (s.threads a.thread).pc ≠ pc := by
            rintro pc (rfl | rfl) <;> simp [hpc]
          refine ⟨?_, ?_, ?_, ?_, ?_⟩
          · rw [hflags, applyStateModify_readClosed]
            exact hread
          · rw [hflags, applyStateModify_writeClosed]
            exact hclosed
          · intro i hi
            rcases h.inLoop_before hi with hbefore | ⟨-, -, hzero⟩
            · obtain rfl := hs.serialized.single i a.thread (Or.inl hbefore) (Or.inl hloop)
              exact Or.inl hself
            · -- a pass begins at `0` only, and the counter of this one is positive
              have hbusy := hs.serialized.busy a.thread (Or.inl hloop)
              omega
          · rw [h.handleInProgress, if_neg (hpcs .out (by simp)), if_neg (hpcs .leave (by simp))]
            exact hs.serialized.busy a.thread (Or.inl hloop)
          · intro _ i hi
            rcases eq_or_ne i a.thread with rfl | hne
            · simp [hself] at hi
            · rw [h.other i hne] at hi ⊢
              exact hnoRearm i hi

theorem Closed.step {s t : State Thread} {a : Action Thread} (hs : Closed s)
    (hclean : ClosesCleanly s a) (hstep : Handle.step s a = some t) : Closed t := by
  have h := stepped_of_step hstep
  exact ⟨hs.serialized.step hstep, h.entered_step hs.entered, hs.pushed_step h,
    hs.read_step hclean h, hs.write_step hclean h⟩

/-! ## Runs -/

omit [DecidableEq Thread] in
/-- A mask in the log was applied by the thread of the step. -/
theorem applying_of_applies {s : State Thread} {a : Action Thread} {event : HandleEvent}
    {bit : UInt64} (hevent : observe s a = some event) (happlies : applies bit event) :
    ∃ stateModify, (s.threads a.thread).pc.applying = some stateModify ∧
      hasBit stateModify bit = true := by
  cases event with
  | effect effect => exact happlies.elim
  | applied stateModify before after =>
      exact ⟨stateModify, (applied_of_observe hevent).1, happlies⟩

omit [DecidableEq Thread] in
/-- The closed read side is not used. -/
theorem Closed.not_usesRead {s : State Thread} (hs : Closed s) {a : Action Thread}
    (hclosed : s.holder.flags.readClosed = true) {event : HandleEvent}
    (hevent : observe s a = some event) : ¬ usesRead event := by
  have hread := hs.read hclosed
  rintro (rfl | ⟨handleWrite, rfl⟩)
  · have hcall := (callRead_of_handleStep (effect_of_observe hevent)).2.1
    rw [hread] at hcall
    cases hcall
  · have hrequest := (epollRearm_of_handleStep (effect_of_observe hevent)).2.2.2.1
    rw [hread] at hrequest
    cases hrequest

omit [DecidableEq Thread] in
/-- The closed write side is not used: either its flag is cleared, or the holder
is closing and no thread is at a place that uses the flag. -/
theorem Closed.not_usesWrite {s : State Thread} (hs : Closed s) {a : Action Thread}
    (hclosed : s.holder.flags.writeClosed = true) {event : HandleEvent}
    (hevent : observe s a = some event) : ¬ usesWrite event := by
  rintro (rfl | ⟨handleRead, rfl⟩)
  · obtain ⟨hpc, hwrite, -⟩ := callWrite_of_handleStep (effect_of_observe hevent)
    have hclosing := hs.write hclosed hwrite
    rcases hclosing.owner a.thread (by simp [HandleThread.inLoop, hpc]) with howner | howner <;>
      simp [hpc] at howner
  · obtain ⟨hpc, hrearm, hhandler, -, hwrite⟩ :=
      epollRearm_of_handleStep (effect_of_observe hevent)
    have hnone := (hs.write hclosed hwrite.symm).noRearm hhandler a.thread hpc
    rw [hrearm] at hnone
    cases hnone

omit [DecidableEq Thread] in
/-- A clean mask is applied side by side. -/
theorem oneSided_of_closesCleanly {s : State Thread} {a : Action Thread}
    (hclean : ClosesCleanly s a) {event : HandleEvent} (hevent : observe s a = some event) :
    oneSided event := by
  cases event with
  | effect effect => trivial
  | applied stateModify before after =>
      obtain ⟨happlying, rfl, rfl⟩ := applied_of_observe hevent
      have hcloses := (hclean stateModify happlying).2.2
      refine ⟨?_, (handleWrite_writeBits _ _).symm⟩
      rw [handleRead_readBits, applyStateModify_handleRead]
      -- closing the write side clears `handle_read`, which the bits of the read side did anyway
      cases hbit : hasBit stateModify closeWriteHandle with
      | true => simp [(hcloses hbit).1]
      | false =>
          simp only [readOff]
          cases hasBit stateModify closeReadHandle <;> cases hasBit stateModify startReadHandle <;>
            cases hasBit stateModify stopReadHandle <;> simp

end Handle

/-! ## The flags that a thread has read -/

namespace RearmLock

open TransitionSystem HandleEvent Handle

variable {Thread : Type*} [DecidableEq Thread]

/-- The mask closes cleanly for the holder, and no thread between reading the flags
and `epoll_ctl` has read the flag of a side that it closes. -/
def ClosesCleanly (s : State Thread) (a : Action Thread) : Prop :=
  Handle.ClosesCleanly s.handle a ∧
    ∀ stateModify ∈ (s.handle.threads a.thread).pc.applying, ∀ held ∈ s.readFlags,
      (hasBit stateModify closeReadHandle = true → held.handleRead = false) ∧
      (hasBit stateModify closeWriteHandle = true → held.handleWrite = false)

instance [Fintype Thread] (s : State Thread) (a : Action Thread) : Decidable (ClosesCleanly s a) :=
  have : Decidable (∀ stateModify ∈ (s.handle.threads a.thread).pc.applying,
      ∀ held ∈ s.readFlags, (hasBit stateModify closeReadHandle = true →
        held.handleRead = false) ∧ (hasBit stateModify closeWriteHandle = true →
          held.handleWrite = false)) :=
    Option.decidableForallMem (p := fun _ => ∀ held ∈ s.readFlags, _ ∧ _) _
  inferInstanceAs (Decidable (_ ∧ _))

/-- The invariant of clean closing, with the flags that were read. -/
structure Closed (s : State Thread) : Prop where
  handle : Handle.Closed s.handle
  held : HeldAtRearm s
  read : s.handle.holder.flags.readClosed = true →
    ∀ held ∈ s.readFlags, held.handleRead = false
  write : s.handle.holder.flags.writeClosed = true →
    s.handle.holder.descriptorHandler = true → ∀ held ∈ s.readFlags, held.handleWrite = false

theorem closed_init : Closed (system Thread).init where
  handle := Handle.closed_init
  held := heldAtRearm_init
  read := fun _ _ hheld => by cases hheld
  write := fun _ _ _ hheld => by cases hheld

omit [DecidableEq Thread] in
/-- The flags that are read on a closed holder are cleared: a holder that is closing
with `handle_write` set is not rearmed. -/
theorem Closed.flagsRead {s t : State Thread} (hs : Closed s) {i : Thread}
    (hread : FlagsRead s t i) (held : ReadFlags Thread) (hheld : held ∈ t.readFlags) :
    (t.handle.holder.flags.readClosed = true → held.handleRead = false) ∧
      (t.handle.holder.flags.writeClosed = true → t.handle.holder.descriptorHandler = true →
        held.handleWrite = false) := by
  rw [hread.readFlags] at hheld
  obtain rfl := Option.some.inj hheld
  rw [hread.handle]
  refine ⟨hs.handle.read, fun hclosed hhandler => ?_⟩
  by_contra hwrite
  have hclosing := hs.handle.write hclosed (by simpa using hwrite)
  have hnone := hclosing.noRearm hhandler i hread.rearms.1
  rw [hread.rearms.2] at hnone
  cases hnone

omit [DecidableEq Thread] in
/-- A clean mask closes no side whose flag was read. -/
theorem Closed.operated {s t : State Thread} {a : Action Thread} (hs : Closed s)
    (hclean : ClosesCleanly s a) (hstepped : Stepped s.handle t.handle a)
    (held : ReadFlags Thread) (hheld : held ∈ s.readFlags) :
    (t.handle.holder.flags.readClosed = true → held.handleRead = false) ∧
      (t.handle.holder.flags.writeClosed = true → t.handle.holder.descriptorHandler = true →
        held.handleWrite = false) := by
  have hhandler : t.handle.holder.descriptorHandler = true →
      s.handle.holder.descriptorHandler = true := by
    intro hlinked
    rw [hstepped.descriptorHandler] at hlinked
    split at hlinked
    · cases hlinked
    · exact hlinked
  cases happlying : (s.handle.threads a.thread).pc.applying with
  | none =>
      rw [hstepped.flags_of_none happlying]
      exact ⟨fun hclosed => hs.read hclosed held hheld,
        fun hclosed hlinked => hs.write hclosed (hhandler hlinked) held hheld⟩
  | some stateModify =>
      obtain ⟨hread, hwrite⟩ := hclean.2 stateModify happlying held hheld
      rw [hstepped.flags_of_some happlying, applyStateModify_readClosed,
        applyStateModify_writeClosed]
      refine ⟨fun hclosed => ?_, fun hclosed hlinked => ?_⟩
      · rcases (Bool.or_eq_true _ _).mp hclosed with hbefore | hbit
        · exact hs.read hbefore held hheld
        · exact hread hbit
      · rcases (Bool.or_eq_true _ _).mp hclosed with hbefore | hbit
        · exact hs.write hbefore (hhandler hlinked) held hheld
        · exact hwrite hbit

theorem Closed.step {s t : State Thread} {a : Action Thread} (hs : Closed s)
    (hclean : ClosesCleanly s a) (hstep : RearmLock.step s a = some t) : Closed t := by
  have hheld := hs.held.step hstep
  rcases step_cases hstep with hread | hrearmed | hoperated
  · refine ⟨hread.handle ▸ hs.handle, hheld, ?_, ?_⟩
    · exact fun hclosed held hin => (hs.flagsRead hread held hin).1 hclosed
    · exact fun hclosed hhandler held hin => (hs.flagsRead hread held hin).2 hclosed hhandler
  · refine ⟨hs.handle.step hclean.1 hrearmed.handle, hheld, ?_, ?_⟩ <;>
      rw [hrearmed.readFlags] <;> simp
  · have hstepped := stepped_of_step hoperated.handle
    refine ⟨hs.handle.step hclean.1 hoperated.handle, hheld, ?_, ?_⟩ <;>
      rw [hoperated.readFlags]
    · exact fun hclosed held hin => (hs.operated hclean hstepped held hin).1 hclosed
    · exact fun hclosed hhandler held hin =>
        (hs.operated hclean hstepped held hin).2 hclosed hhandler

/-! ## Runs -/

omit [DecidableEq Thread] in
/-- A mask in the log was applied by the operation of `handleStep`. -/
theorem applying_of_applies {s : State Thread} {a : Action Thread} {event : HandleEvent}
    {bit : UInt64} (hevent : observe s a = some event) (happlies : applies bit event) :
    ¬ rearms (s.handle.threads a.thread) ∧ ∃ stateModify,
      (s.handle.threads a.thread).pc.applying = some stateModify ∧
        hasBit stateModify bit = true := by
  have hnot : ¬ rearms (s.handle.threads a.thread) := by
    intro hrearms
    obtain ⟨held, -, -, rfl⟩ := rearm_of_observe hrearms hevent
    exact happlies
  rw [observe, if_neg hnot] at hevent
  exact ⟨hnot, Handle.applying_of_applies hevent happlies⟩

/-- The flags change by the mask that is applied. -/
theorem flags_of_applies {s t : State Thread} {a : Action Thread} {event : HandleEvent}
    {bit : UInt64} (hstep : step s a = some t) (hevent : observe s a = some event)
    (happlies : applies bit event) : ∃ stateModify, hasBit stateModify bit = true ∧
      t.handle.holder.flags = (applyStateModify s.handle.holder.flags stateModify).1 := by
  obtain ⟨hnot, stateModify, happlying, hbit⟩ := applying_of_applies hevent happlies
  rcases handle_of_step hstep with ⟨hrearms, -⟩ | hhandle
  · exact absurd hrearms hnot
  · exact ⟨stateModify, hbit, (stepped_of_step hhandle).flags_of_some happlying⟩

omit [DecidableEq Thread] in
/-- The closed read side is not used. -/
theorem Closed.not_usesRead {s : State Thread} (hs : Closed s) {a : Action Thread}
    (hclosed : s.handle.holder.flags.readClosed = true) {event : HandleEvent}
    (hevent : observe s a = some event) : ¬ usesRead event := by
  by_cases hrearms : rearms (s.handle.threads a.thread)
  · obtain ⟨held, hheld, -, rfl⟩ := rearm_of_observe hrearms hevent
    simp [usesRead, hs.read hclosed held hheld]
  · rw [observe, if_neg hrearms] at hevent
    exact hs.handle.not_usesRead hclosed hevent

omit [DecidableEq Thread] in
/-- The closed write side is not used. -/
theorem Closed.not_usesWrite {s : State Thread} (hs : Closed s) {a : Action Thread}
    (hclosed : s.handle.holder.flags.writeClosed = true) {event : HandleEvent}
    (hevent : observe s a = some event) : ¬ usesWrite event := by
  by_cases hrearms : rearms (s.handle.threads a.thread)
  · obtain ⟨held, hheld, hhandler, rfl⟩ := rearm_of_observe hrearms hevent
    simp [usesWrite, hs.write hclosed hhandler held hheld]
  · rw [observe, if_neg hrearms] at hevent
    exact hs.handle.not_usesWrite hclosed hevent

omit [DecidableEq Thread] in
/-- A clean mask is applied side by side. -/
theorem oneSided_of_closesCleanly {s : State Thread} {a : Action Thread}
    (hclean : ClosesCleanly s a) {event : HandleEvent} (hevent : observe s a = some event) :
    oneSided event := by
  by_cases hrearms : rearms (s.handle.threads a.thread)
  · obtain ⟨held, -, -, rfl⟩ := rearm_of_observe hrearms hevent
    trivial
  · rw [observe, if_neg hrearms] at hevent
    exact Handle.oneSided_of_closesCleanly hclean.1 hevent

/-- In a run whose masks all close cleanly, a closed side is never used again and
no mask changes the flag of a side by the bits of the other. -/
theorem closed_stay_closed {s : Logged (State Thread) HandleEvent}
    (hs : Reachable (events Thread) (fun s a => ClosesCleanly s.state a) s) :
    ClosedStayClosed s.log := by
  have hinv : ∀ (s : Logged (State Thread) HandleEvent) a t, Closed s.state →
      ClosesCleanly s.state a → (system Thread).step s.state a = some t → Closed t :=
    fun _ _ _ h hclean hstep => h.step hclean hstep
  refine ⟨?_, ?_, ?_⟩
  · refine hs.never_after (fun s => s.handle.holder.flags.readClosed = true) closed_init hinv
      ?_ ?_ ?_
    · intro s a t event _ _ hstep hevent hcloses
      obtain ⟨stateModify, hbit, hflags⟩ := flags_of_applies hstep hevent hcloses
      rw [hflags, applyStateModify_readClosed, hbit, Bool.or_true]
    · intro s a t _ _ hstep hclosed
      rcases handle_of_step hstep with ⟨-, hsame⟩ | hhandle
      · rwa [hsame]
      · exact (stepped_of_step hhandle).readClosed hclosed
    · intro s a t event h _ _ hclosed hevent
      exact h.not_usesRead hclosed hevent
  · refine hs.never_after (fun s => s.handle.holder.flags.writeClosed = true) closed_init hinv
      ?_ ?_ ?_
    · intro s a t event _ _ hstep hevent hcloses
      obtain ⟨stateModify, hbit, hflags⟩ := flags_of_applies hstep hevent hcloses
      rw [hflags, applyStateModify_writeClosed, hbit, Bool.or_true]
    · intro s a t _ _ hstep hclosed
      rcases handle_of_step hstep with ⟨-, hsame⟩ | hhandle
      · rwa [hsame]
      · exact (stepped_of_step hhandle).writeClosed hclosed
    · intro s a t event h _ _ hclosed hevent
      exact h.not_usesWrite hclosed hevent
  · refine hs.forall_log closed_init hinv ?_
    intro s a t event _ hclean _ hevent
    exact oneSided_of_closesCleanly hclean hevent

/-- The thread finds nothing to read, and `write()` closes both sides: they are
torn down in that pass. -/
theorem closed_stay_closed_by_write :
    ∃ s, (events Unit).run (events Unit).init
        (List.replicate 4 ⟨(), .returned continueHandle⟩ ++
          List.replicate 11 ⟨(), .returned (closeReadHandle ||| closeWriteHandle)⟩) = some s ∧
      s.state.handle.holder.handlingFinished = true ∧ (s.state.handle.threads ()).pc = .out ∧
      ClosedStayClosed s.log := by
  have hend : ((events Unit).run (events Unit).init
      (List.replicate 4 ⟨(), .returned continueHandle⟩ ++
        List.replicate 11 ⟨(), .returned (closeReadHandle ||| closeWriteHandle)⟩)).map
        (fun s => (s.state.handle.holder.handlingFinished, (s.state.handle.threads ()).pc)) =
      some (true, .out) := by
    decide +kernel
  obtain ⟨s, hrun, hvalues⟩ := Option.map_eq_some_iff.mp hend
  exact ⟨s, hrun, (Prod.mk.inj hvalues).1, (Prod.mk.inj hvalues).2,
    closed_stay_closed (Reachable.init.of_run hrun (by decide +kernel))⟩

/-- `read()` closes both sides, as `HashConnectionDescriptorHandler` does on an
error, and `write()` is called in the same pass.  And when `read()` closes the
write side alone, `handle_read` is cleared and `EPOLLOUT` requested. -/
theorem write_after_close :
    (∃ s, (events Unit).run (events Unit).init
        (List.replicate 5 ⟨(), .returned (closeReadHandle ||| closeWriteHandle)⟩) = some s ∧
      ¬ s.log.Pairwise fun earlier later => closesWrite earlier → ¬ usesWrite later) ∧
    ∃ s, (events Unit).run (events Unit).init
        (List.replicate 3 ⟨(), .returned closeWriteHandle⟩ ++
          List.replicate 7 ⟨(), .returned continueHandle⟩) = some s ∧
      ¬ (s.log.Pairwise fun earlier later => closesWrite earlier → ¬ usesWrite later) ∧
      ¬ ∀ event ∈ s.log, oneSided event := by
  have hboth : ((events Unit).run (events Unit).init
      (List.replicate 5 ⟨(), .returned (closeReadHandle ||| closeWriteHandle)⟩)).map Logged.log =
      some [.effect .callRead,
        .applied (closeReadHandle ||| closeWriteHandle) HandleFlags.initial ⟨false, true, true, true⟩,
        .effect .callWrite] := by
    decide +kernel
  have hwrite : ((events Unit).run (events Unit).init
      (List.replicate 3 ⟨(), .returned closeWriteHandle⟩ ++
        List.replicate 7 ⟨(), .returned continueHandle⟩)).map Logged.log =
      some [.effect .callRead,
        .applied closeWriteHandle HandleFlags.initial ⟨false, true, false, true⟩,
        .effect .callWrite,
        .applied continueHandle ⟨false, true, false, true⟩ ⟨false, true, false, true⟩,
        .effect (.epollRearm false true)] := by
    decide +kernel
  obtain ⟨s, hs, hlog⟩ := Option.map_eq_some_iff.mp hboth
  obtain ⟨t, ht, hlog'⟩ := Option.map_eq_some_iff.mp hwrite
  -- a `write()` behind a mask that closes the write side
  have hbroken : ∀ (applied : HandleEvent) (log : List HandleEvent), closesWrite applied →
      ¬(HandleEvent.effect .callRead :: applied :: .effect .callWrite :: log).Pairwise
        fun earlier later => closesWrite earlier → ¬usesWrite later := by
    intro applied log hcloses hlaw
    have happlied := (List.pairwise_cons.mp (List.pairwise_cons.mp hlaw).2).1
    exact happlied (.effect .callWrite) List.mem_cons_self hcloses (Or.inl rfl)
  refine ⟨⟨s, hs, ?_⟩, t, ht, ?_, ?_⟩
  · rw [hlog]
    exact hbroken _ _ (by simp [closesWrite, applies]; decide)
  · rw [hlog']
    exact hbroken _ _ (by simp [closesWrite, applies]; decide)
  · rw [hlog']
    intro hsides
    have hside := (hsides (.applied closeWriteHandle HandleFlags.initial
      ⟨false, true, false, true⟩) (by simp)).1
    rw [handleRead_readBits] at hside
    revert hside
    decide

/-- Thread `1` has read the flags when `read()` closes the read side for thread `0`,
and then asks `epoll` for `EPOLLIN`. -/
theorem request_after_close :
    ∃ s, (events (Fin 2)).run (events (Fin 2)).init
        (List.replicate 9 ⟨1, .returned continueHandle⟩ ++
          List.replicate 4 ⟨0, .returned closeReadHandle⟩ ++
          [⟨1, .returned continueHandle⟩]) = some s ∧
      ¬ s.log.Pairwise fun earlier later => closesRead earlier → ¬ usesRead later := by
  have hend : ((events (Fin 2)).run (events (Fin 2)).init
      (List.replicate 9 ⟨1, .returned continueHandle⟩ ++
        List.replicate 4 ⟨0, .returned closeReadHandle⟩ ++
        [⟨1, .returned continueHandle⟩])).map Logged.log =
      some [.effect .callRead, .applied continueHandle HandleFlags.initial HandleFlags.initial,
        .effect .callWrite, .applied continueHandle HandleFlags.initial HandleFlags.initial,
        .effect .callRead,
        .applied closeReadHandle HandleFlags.initial ⟨false, true, true, false⟩,
        .effect (.epollRearm true true)] := by
    decide +kernel
  obtain ⟨s, hrun, hlog⟩ := Option.map_eq_some_iff.mp hend
  refine ⟨s, hrun, fun hlaw => ?_⟩
  rw [hlog] at hlaw
  have htail := (List.pairwise_append.mp
    (show ([_, _, _, _, _] ++ [_, _] : List HandleEvent).Pairwise _ from hlaw)).2.1
  have hlast := (List.pairwise_cons.mp htail).1 _ List.mem_cons_self
  exact hlast (by simp [closesRead, applies]; decide) (Or.inr ⟨true, rfl⟩)

end RearmLock
end LiteMQ
