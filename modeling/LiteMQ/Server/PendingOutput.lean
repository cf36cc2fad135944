import LiteMQ.Server.PeerClose

/-!
# Pending output keeps the write side armed

`read()` queues responses and `write()` sends them; both return masks that start
or stop the write side of the holder.  `read()` stops it only when `write_bufs_`
is empty, and so does `write()`; a mask that closes the write side leads to the
teardown in the same pass.  So a pass that leaves the holder open leaves
`handle_write` set while there is something to write (`pending_output_armed`).
-/

namespace LiteMQ
namespace ServerConnection

open DescriptorHandler HashConnection TransitionSystem

variable {Thread : Type*} [DecidableEq Thread]

/-- What pending output can rely on: behind a pass that does not tear the holder
down `handle_write` is set and the thread is to rearm the descriptor, the flag
stays set until the next pass begins, and a thread that rearms the descriptor
asks for `EPOLLOUT`, unless another one is in a pass and will rearm it later. -/
structure PendingArmed (s : State Thread) : Prop where
  afterPass : ∀ i, (s.handle.threads i).pc = .leave → (s.handle.threads i).rearmFd = true ∧
    (s.connection.writeBufs ≠ [] → s.handle.holder.flags.handleWrite = true)
  between : s.handle.holder.handlingFinished = false →
    (∀ i, ¬ (s.handle.threads i).inLoop) → s.connection.writeBufs ≠ [] →
      s.handle.holder.flags.handleWrite = true
  onRearm : ∀ i handleRead handleWrite,
    nextEffect s i = some (.epollRearm handleRead handleWrite) →
    s.handle.holder.handlingFinished = false → s.connection.writeBufs ≠ [] →
      handleWrite = true ∨ ∃ j, j ≠ i ∧ (s.handle.threads j).inLoop

/-! ## The masks -/

/-- The write side is armed, or there is nothing to write, or the write side is
closed. -/
def Settled (flags : HandleFlags) (connection : HashConnection) : Prop :=
  connection.writeBufs = [] ∨ flags.handleWrite = true ∨ flags.writeClosed = true

/-- A mask of `read()` or `write()`, with what it says about the buffers. -/
def HonestMask (connection : HashConnection) (stateModify : UInt64) : Prop :=
  stateModify = startWriteHandle ∨ stateModify = errorMask ∨ stateModify = continueHandle ∨
    stateModify = closeReadHandle ||| startWriteHandle ∨
    stateModify = stopWriteHandle ∧ connection.writeBufs = []

theorem honestMask_of_readIteration {h : HashConnection} {result : ReadResult}
    {iteration : Iteration} {stateModify : UInt64}
    (hcall : (h.readIteration result).map Prod.fst = .ok iteration)
    (hreturned : iteration.returned = some stateModify) :
    HonestMask iteration.handler stateModify ∧ stateModify ≠ continueHandle := by
  rcases returned_of_readIteration hcall hreturned with rfl | ⟨rfl, hempty⟩ | rfl | ⟨rfl, -⟩
  · exact ⟨Or.inl rfl, by decide⟩
  · exact ⟨Or.inr (Or.inr (Or.inr (Or.inr ⟨rfl, hempty⟩))), by decide⟩
  · exact ⟨Or.inr (Or.inl rfl), by decide⟩
  · exact ⟨Or.inr (Or.inr (Or.inr (Or.inl rfl))), by decide⟩

theorem honestMask_of_writeIteration {h : HashConnection} {result : SendResult}
    {iteration : Iteration} {stateModify : UInt64}
    (hcall : h.writeIteration result = .ok iteration)
    (hreturned : iteration.returned = some stateModify) :
    HonestMask iteration.handler stateModify := by
  obtain ⟨hhandler, hmask⟩ := returned_of_writeIteration hcall hreturned
  rcases hmask with ⟨rfl, hempty⟩ | ⟨rfl | rfl, -⟩
  · rw [← hhandler] at hempty
    exact Or.inr (Or.inr (Or.inr (Or.inr ⟨rfl, hempty⟩)))
  · exact Or.inr (Or.inr (Or.inl rfl))
  · exact Or.inr (Or.inl rfl)

/-- An honest mask leaves the write side settled, if `CONTINUE_HANDLE` finds it so. -/
theorem HonestMask.settled {connection : HashConnection} {stateModify : UInt64}
    (h : HonestMask connection stateModify) {flags : HandleFlags}
    (hbefore : stateModify = continueHandle → Settled flags connection) :
    Settled (applyStateModify flags stateModify).1 connection := by
  rcases h with rfl | rfl | rfl | rfl | ⟨rfl, hempty⟩
  · rw [applyStateModify_startWrite]
    exact Or.inr (Or.inl rfl)
  · rw [applyStateModify_errorMask]
    exact Or.inr (Or.inr rfl)
  · rw [applyStateModify_continue]
    exact hbefore rfl
  · rw [applyStateModify_endPending]
    exact Or.inr (Or.inl rfl)
  · exact Or.inl hempty

/-- The masks close both sides or leave the write side open. -/
theorem HonestMask.both {connection : HashConnection} {stateModify : UInt64}
    (h : HonestMask connection stateModify) {flags : HandleFlags}
    (hbefore : flags.writeClosed = true → flags.readClosed = true)
    (hclosed : (applyStateModify flags stateModify).1.writeClosed = true) :
    (applyStateModify flags stateModify).1.readClosed = true := by
  rcases h with rfl | rfl | rfl | rfl | ⟨rfl, -⟩
  · rw [applyStateModify_startWrite] at hclosed ⊢
    exact hbefore hclosed
  · rw [applyStateModify_errorMask]
  · rw [applyStateModify_continue] at hclosed ⊢
    exact hbefore hclosed
  · rw [applyStateModify_endPending]
  · rw [applyStateModify_stopWrite] at hclosed ⊢
    exact hbefore hclosed

/-! ## The invariant -/

/-- The thread is in `read()`, or about to apply what `read()` has returned. -/
def Reading (s : State Thread) (i : Thread) : Prop :=
  (s.handle.threads i).pc = .readSide ∧ s.handle.holder.flags.handleRead = true ∨
    ∃ stateModify, (s.handle.threads i).pc = .applyRead stateModify

/-- Outside `read()` the write side is settled, and the pass that closes it goes on
to the teardown. -/
structure Armed (s : State Thread) : Prop where
  torn : Handle.Torn s.handle
  both : s.handle.holder.flags.writeClosed = true → s.handle.holder.flags.readClosed = true
  masks : ∀ i stateModify, (s.handle.threads i).pc.applying = some stateModify →
    HonestMask s.connection stateModify
  readMask : ∀ i stateModify, (s.handle.threads i).pc = .applyRead stateModify →
    stateModify ≠ continueHandle
  settled : Settled s.handle.holder.flags s.connection ∨ ∃ i, Reading s i
  closing : s.handle.holder.flags.writeClosed = true →
    s.handle.holder.handlingFinished = false →
    ∃ i, HandlePc.closingPass (s.handle.threads i).pc
  rearms : ∀ i, (s.handle.threads i).pc = .leave → (s.handle.threads i).rearmFd = true

theorem armed_init : Armed (system Thread).init where
  torn := Handle.torn_init
  both := fun h => by simp [system, Handle.system, DescriptorHandlerHolder.initial,
    HandleFlags.initial] at h
  masks := fun i m h => by simp [system, Handle.system, HandleThread.initial,
    HandlePc.applying] at h
  readMask := fun i m h => by simp [system, Handle.system, HandleThread.initial] at h
  settled := Or.inl (Or.inl rfl)
  closing := fun h => by simp [system, Handle.system, DescriptorHandlerHolder.initial,
    HandleFlags.initial] at h
  rearms := fun i h => by simp [system, Handle.system, HandleThread.initial] at h

omit [DecidableEq Thread] in
theorem Reading.inLoop {s : State Thread} {i : Thread} (h : Reading s i) :
    (s.handle.threads i).inLoop := by
  rcases h with ⟨hpc, -⟩ | ⟨m, hpc⟩
  · simp [HandleThread.inLoop, hpc]
  · simp [HandleThread.inLoop, hpc]

omit [DecidableEq Thread] in
/-- When the thread in the loop, if any, is neither in `read()` nor behind it, the
write side is settled. -/
theorem Armed.settled_of_not_reading {s : State Thread} (hs : Armed s)
    (h : ∀ i, ¬ Reading s i) : Settled s.handle.holder.flags s.connection := by
  rcases hs.settled with hsettled | ⟨i, hreading⟩
  · exact hsettled
  · exact absurd hreading (h i)

omit [DecidableEq Thread] in
/-- The invariant says what pending output can rely on. -/
theorem Armed.pendingArmed {s : State Thread} (hs : Armed s) : PendingArmed s := by
  -- a holder that is open and in no pass that closes it has its write side armed
  have hopen : s.handle.holder.handlingFinished = false →
      (∀ i, ¬ Reading s i) → (∀ i, ¬ HandlePc.closingPass (s.handle.threads i).pc) →
      s.connection.writeBufs ≠ [] → s.handle.holder.flags.handleWrite = true := by
    intro hunfinished hreading hclosing hpending
    rcases hs.settled_of_not_reading hreading with hempty | hwrite | hclosed
    · exact absurd hempty hpending
    · exact hwrite
    · obtain ⟨i, hi⟩ := hs.closing hclosed hunfinished
      exact absurd hi (hclosing i)
  refine ⟨?_, ?_, ?_⟩
  · intro i hpc
    refine ⟨hs.rearms i hpc, ?_⟩
    have hloop : (s.handle.threads i).inLoop := by simp [HandleThread.inLoop, hpc]
    apply hopen (hs.torn.serialized.handler_of_inLoop hloop).2
    · intro j hj
      obtain rfl := alone hs.torn.serialized hloop hj.inLoop
      rcases hj with ⟨hread, -⟩ | ⟨m, hread⟩
      · rw [hpc] at hread
        cases hread
      · rw [hpc] at hread
        cases hread
    · intro j hj
      obtain rfl := alone hs.torn.serialized hloop (inLoop_of_closingPass hj)
      rw [hpc] at hj
      exact hj
  · intro hunfinished hfree
    exact hopen hunfinished (fun i hi => hfree i hi.inLoop)
      (fun i hi => hfree i (inLoop_of_closingPass hi))
  · intro i handleRead handleWrite heffect hunfinished hpending
    obtain ⟨hpc, -, -, -, rfl⟩ := epollRearm_of_handleStep heffect
    have hself : ¬ (s.handle.threads i).inLoop := by simp [HandleThread.inLoop, hpc]
    by_cases hother : ∃ j, j ≠ i ∧ (s.handle.threads j).inLoop
    · exact Or.inr hother
    · left
      have hfree : ∀ j, ¬ (s.handle.threads j).inLoop := by
        intro j hj
        apply hother
        refine ⟨j, ?_, hj⟩
        rintro rfl
        exact hself hj
      exact hopen hunfinished (fun j hj => hfree j hj.inLoop)
        (fun j hj => hfree j (inLoop_of_closingPass hj)) hpending

/-! ## Steps -/

section CallSteps

variable {s t : State Thread} {i : Thread} {iteration : Iteration} {next : UInt64 → HandlePc}

omit [DecidableEq Thread] in
/-- What a pass of the loop of `read()` or `write()` keeps: the masks to apply are
those that were returned. -/
theorem Armed.masks_call (hs : Armed s) (hloop : (s.handle.threads i).inLoop)
    (hnone : (s.handle.threads i).pc.applying = none)
    (hnext : ∀ stateModify, (next stateModify).applying = some stateModify)
    (h : Calls s t i next iteration.returned)
    (hhonest : ∀ stateModify, iteration.returned = some stateModify →
      HonestMask t.connection stateModify) (j : Thread) (stateModify : UInt64)
    (hj : (t.handle.threads j).pc.applying = some stateModify) :
    HonestMask t.connection stateModify := by
  obtain ⟨m, hreturned, hself⟩ := h.returned_of_applying hs.torn.serialized hloop hnone hj
  rw [hself, hnext] at hj
  obtain rfl := Option.some.inj hj
  exact hhonest m hreturned

omit [DecidableEq Thread] in
/-- No thread comes to the end of its pass by a pass of a loop. -/
theorem Armed.rearms_call (hs : Armed s) (hloop : (s.handle.threads i).inLoop)
    (hpc : (s.handle.threads i).pc ≠ .leave) (hnext : ∀ stateModify, next stateModify ≠ .leave)
    (h : Calls s t i next iteration.returned) (j : Thread)
    (hj : (t.handle.threads j).pc = .leave) : (t.handle.threads j).rearmFd = true := by
  have hjloop : (t.handle.threads j).inLoop := by simp [HandleThread.inLoop, hj]
  obtain rfl := h.eq_of_inLoop hs.torn.serialized hloop hjloop
  rcases h.self with ⟨-, hkept⟩ | ⟨m, -, hself⟩
  · rw [hkept] at hj
    exact absurd hj hpc
  · rw [hself] at hj
    exact absurd hj (hnext m)

omit [DecidableEq Thread] in
/-- A pass of the loop of `read()`. -/
theorem Armed.step_read {result : ReadResult} (hs : Armed s)
    (heffect : nextEffect s i = some .callRead)
    (hcall : (s.connection.readIteration result).map Prod.fst = .ok iteration)
    (hconnection : t.connection = iteration.handler)
    (h : Calls s t i .applyRead iteration.returned) : Armed t := by
  obtain ⟨hpc, hread, -⟩ := callRead_of_handleStep heffect
  have hloop : (s.handle.threads i).inLoop := by simp [HandleThread.inLoop, hpc]
  have hnone : (s.handle.threads i).pc.applying = none := by rw [hpc]; rfl
  refine ⟨h.torn hs.torn, ?_, ?_, ?_, ?_, ?_, ?_⟩
  · rw [h.holder]
    exact hs.both
  · apply hs.masks_call hloop hnone (fun m => rfl) h
    intro m hm
    rw [hconnection]
    exact (honestMask_of_readIteration hcall hm).1
  · intro j m hj
    obtain ⟨m', hreturned, hself⟩ := h.next_of_applying hs.torn.serialized hloop hnone hj rfl
    cases hself
    exact (honestMask_of_readIteration hcall hreturned).2
  · right
    refine ⟨i, ?_⟩
    rcases h.self with ⟨-, hkept⟩ | ⟨m, -, hself⟩
    · left
      rw [hkept]
      exact ⟨hpc, hread⟩
    · exact Or.inr ⟨m, hself⟩
  · -- nobody is in a pass that closes the holder while this thread reads
    rw [h.holder]
    intro hclosed hunfinished
    obtain ⟨j, hj⟩ := hs.closing hclosed hunfinished
    obtain rfl := alone hs.torn.serialized hloop (inLoop_of_closingPass hj)
    rw [hpc] at hj
    exact absurd hj id
  · exact hs.rearms_call hloop (by rw [hpc]; exact HandlePc.noConfusion)
      (fun m => HandlePc.noConfusion) h

omit [DecidableEq Thread] in
/-- A pass of the loop of `write()`, which is called only while the write side is
armed. -/
theorem Armed.step_write {result : SendResult} (hs : Armed s)
    (heffect : nextEffect s i = some .callWrite)
    (hcall : s.connection.writeIteration result = .ok iteration)
    (hconnection : t.connection = iteration.handler)
    (h : Calls s t i .applyWrite iteration.returned) : Armed t := by
  obtain ⟨hpc, hwrite, -⟩ := callWrite_of_handleStep heffect
  have hloop : (s.handle.threads i).inLoop := by simp [HandleThread.inLoop, hpc]
  have hnone : (s.handle.threads i).pc.applying = none := by rw [hpc]; rfl
  refine ⟨h.torn hs.torn, ?_, ?_, ?_, ?_, ?_, ?_⟩
  · rw [h.holder]
    exact hs.both
  · apply hs.masks_call hloop hnone (fun m => rfl) h
    intro m hm
    rw [hconnection]
    exact honestMask_of_writeIteration hcall hm
  · intro j m hj
    obtain ⟨m', -, hself⟩ := h.next_of_applying hs.torn.serialized hloop hnone hj rfl
    cases hself
  · left
    rw [h.holder]
    exact Or.inr (Or.inl hwrite)
  · intro _ _
    refine ⟨i, ?_⟩
    rcases h.self with ⟨-, hkept⟩ | ⟨m, -, hself⟩
    · rw [hkept, hpc]
      trivial
    · rw [hself]
      trivial
  · exact hs.rearms_call hloop (by rw [hpc]; exact HandlePc.noConfusion)
      (fun m => HandlePc.noConfusion) h

end CallSteps

section HandleSteps

variable {s t : State Thread} {i : Thread} {result : CallResult}

/-- An operation that applies a mask, or passes over `read()`, leaves the write side
settled; every other operation leaves it as it is. -/
theorem Armed.settled_step (hs : Armed s) (hread : nextEffect s i ≠ some .callRead)
    (hstep : Handle.step s.handle ⟨i, result⟩ = some t.handle)
    (hconnection : t.connection = s.connection) :
    Settled t.handle.holder.flags t.connection ∨ ∃ j, Reading t j := by
  have h := Handle.stepped_of_step hstep
  rw [hconnection]
  cases happlying : (s.handle.threads i).pc.applying with
  | some m =>
      left
      rw [h.flags_of_some happlying]
      apply (hs.masks i m happlying).settled
      intro hcontinue
      -- `read()` does not return this mask, and behind `write()` nobody reads
      have hnotRead : ∀ m', (s.handle.threads i).pc ≠ .applyRead m' := by
        intro m' hpc
        rw [hpc] at happlying
        cases happlying
        exact hs.readMask i m hpc hcontinue
      apply hs.settled_of_not_reading
      intro j hj
      obtain rfl := alone hs.torn.serialized (Handle.inLoop_of_applying happlying) hj.inLoop
      rcases hj with ⟨hpc, -⟩ | ⟨m', hpc⟩
      · rw [hpc] at happlying
        cases happlying
      · exact hnotRead m' hpc
  | none =>
      rw [h.flags_of_none happlying]
      rcases hs.settled with hsettled | ⟨j, hj⟩
      · exact Or.inl hsettled
      · right
        have hne : j ≠ i := by
          rintro rfl
          rcases hj with ⟨hpc, hflag⟩ | ⟨m, hpc⟩
          · have hloop : (s.handle.threads j).inLoop := by simp [HandleThread.inLoop, hpc]
            have hprev := Int.not_lt.mpr (hs.torn.serialized.prev j)
            have hhandler := (hs.torn.serialized.handler_of_inLoop hloop).1
            apply hread
            simp [nextEffect, handleStep, hpc, hprev, hflag, hhandler]
          · rw [hpc] at happlying
            cases happlying
        refine ⟨j, ?_⟩
        unfold Reading
        rw [h.other j hne, h.flags_of_none happlying]
        exact hj

/-- An operation of `handle_` that calls neither `read()` nor `write()`. -/
theorem Armed.step_other (hs : Armed s) (hread : nextEffect s i ≠ some .callRead)
    (hwrite : nextEffect s i ≠ some .callWrite)
    (hstep : Handle.step s.handle ⟨i, result⟩ = some t.handle)
    (hconnection : t.connection = s.connection) : Armed t := by
  have h := Handle.stepped_of_step hstep
  have hnone := applying_of_not_called hread hwrite hstep
  -- a mask that is to be applied after the step was so before, by another thread
  have hother : ∀ j m, (t.handle.threads j).pc.applying = some m →
      t.handle.threads j = s.handle.threads j := by
    intro j m hj
    apply h.other
    rintro rfl
    rw [hnone] at hj
    cases hj
  refine ⟨hs.torn.step hstep, ?_, ?_, ?_, hs.settled_step hread hstep hconnection,
    closingPass_step hs.torn.serialized hs.both hs.closing hwrite hstep, ?_⟩
  · cases happlying : (s.handle.threads i).pc.applying with
    | some m =>
        rw [h.flags_of_some happlying]
        exact (hs.masks i m happlying).both hs.both
    | none =>
        rw [h.flags_of_none happlying]
        exact hs.both
  · intro j m hj
    rw [hother j m hj] at hj
    rw [hconnection]
    exact hs.masks j m hj
  · intro j m hj
    rw [hother j m (by simp [hj, HandlePc.applying])] at hj
    exact hs.readMask j m hj
  · intro j hj
    by_cases hne : j = i
    · subst hne
      rw [h.self] at hj ⊢
      exact rearmFd_of_leave hj
    · rw [h.other j hne] at hj ⊢
      exact hs.rearms j hj

end HandleSteps

theorem Armed.step {s t : State Thread} {a : Action Thread} (hs : Armed s)
    (hstep : ServerConnection.step s a = some t) : Armed t := by
  rcases step_cases hstep with ⟨iteration, heffect, hcall, hconnection, hcalls⟩ |
    ⟨iteration, heffect, hcall, hconnection, hcalls⟩ | ⟨hread, hwrite, hhandle, hconnection⟩
  · exact hs.step_read heffect hcall hconnection hcalls
  · exact hs.step_write heffect hcall hconnection hcalls
  · exact hs.step_other hread hwrite hhandle hconnection

/-! ## Every run -/

/-- In every state of every run pending output is armed, whatever `::read` and
`::sendmsg` return and however the threads in `handle_` interleave. -/
theorem pending_output_armed {s : State Thread}
    (hs : Reachable (system Thread) unguarded s) : PendingArmed s :=
  (Reachable.invariant armed_init (fun _ _ _ h _ hstep => h.step hstep) hs).pendingArmed

/-- `EAGAIN` of `::read`. -/
theorem readIteration_again {h : HashConnection} (hok : h.ReadBufOk) :
    h.readIteration .again = .ok (⟨h.prepareReadBuf,
      some (if h.prepareReadBuf.writeBufs ≠ [] then startWriteHandle else stopWriteHandle)⟩,
      []) := by
  simp only [readIteration, ensure_of_true _ (prepareReadBuf_spec hok).1, Fault.ok_bind]
  rfl

theorem readIteration_againPending :
    (pendingResponse firstReadBuf).readIteration .again =
      .ok (⟨pendingResponse secondReadBuf, some startWriteHandle⟩, []) := by
  obtain ⟨hok, hprepare⟩ := prepareReadBuf_firstReadBuf
  have hpending : (pendingResponse secondReadBuf).writeBufs ≠ [] := by simp [pendingResponse]
  rw [readIteration_again hok, hprepare, if_pos hpending]

/-- Thread `()` reads an empty line, finds the socket full and rearms the
descriptor for the pending response. -/
theorem pending_output_armed_full_socket :
    ∃ s, (system Unit).run (system Unit).init
        ([readAction .again, readAction .again, readAction (.block emptyLine)] ++
          List.replicate 6 (readAction .again)) = some s ∧
      nextEffect s () = some (.epollRearm true true) ∧ s.connection.writeBufs ≠ [] ∧
      PendingArmed s := by
  have hrest : ((system Unit).run ⟨handleAt .initial (.applyRead startWriteHandle) 1,
      pendingResponse secondReadBuf⟩ (List.replicate 5 (readAction .again))).map
        (fun s => (nextEffect s (), s.connection.writeBufs)) =
      some (some (.epollRearm true true), [⟨0, List.replicate 7 48 ++ [newline]⟩]) := by
    decide +kernel
  obtain ⟨s, htail, hvalues⟩ := Option.map_eq_some_iff.mp hrest
  simp only [Prod.mk.injEq] at hvalues
  obtain ⟨heffect, hpending⟩ := hvalues
  have hline : (system Unit).step ⟨handleAt .initial .readSide 0, .initial⟩
      (readAction (.block emptyLine)) =
        some ⟨handleAt .initial .readSide 0, pendingResponse firstReadBuf⟩ := by
    rw [step_readSide readIteration_emptyLine]
    rfl
  have hagain : (system Unit).step ⟨handleAt .initial .readSide 0, pendingResponse firstReadBuf⟩
      (readAction .again) = some ⟨handleAt .initial (.applyRead startWriteHandle) 1,
        pendingResponse secondReadBuf⟩ :=
    step_readSide_returned readIteration_againPending
  have hrun : (system Unit).run (system Unit).init
      ([readAction .again, readAction .again, readAction (.block emptyLine)] ++
        List.replicate 6 (readAction .again)) = some s :=
    (run_to_read _).trans ((run_cons_of_step _ hline _).trans
      ((run_cons_of_step _ hagain _).trans htail))
  refine ⟨s, hrun, heffect, ?_, ?_⟩
  · rw [hpending]
    exact List.cons_ne_nil _ _
  · exact pending_output_armed (Reachable.init.of_run hrun (meets_unguarded _ _))

end ServerConnection
end LiteMQ
