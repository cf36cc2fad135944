import LiteMQ.Poller.TeardownOnce
import LiteMQ.Server.HashConnection

/-!
# A server connection under `handle_`

The handler of the holder is a `HashConnectionDescriptorHandler`.  Where
`handle_` calls `read()` or `write()`, the steps are the passes of their loops,
each with the result of its `::read` or `::sendmsg`; the pass that returns hands
its mask to `handle_`.  Everything else is a step of `Handle.system`.
-/

namespace LiteMQ
namespace ServerConnection

open DescriptorHandler HashConnection

/-- A connection, its holder and the threads that enter `handle_` for it. -/
structure State (Thread : Type*) where
  handle : Handle.State Thread
  connection : HashConnection

/-- The next operation of a thread, with what each of the calls that it may make
does. -/
structure Action (Thread : Type*) where
  thread : Thread
  readResult : ReadResult
  sendResult : SendResult
  epollResult : CallResult

variable {Thread : Type*} [DecidableEq Thread]

/-- The effect of the next operation of the thread; it does not depend on what
the call returns. -/
def nextEffect (s : State Thread) (i : Thread) : Option HandleEffect :=
  (handleStep s.handle.holder (s.handle.threads i) (.returned continueHandle)).effect

/-- One pass of the loop of `read()` or `write()`: the thread stays in the call, or
`handle_` goes on with the mask.  A fault ends the program. -/
def afterIteration (s : State Thread) (i : Thread) (call : Except Fault Iteration) :
    Option (State Thread) :=
  match call with
  | .error _ => none
  | .ok iteration =>
      match iteration.returned with
      | none => some { s with connection := iteration.handler }
      | some stateModify =>
          (Handle.step s.handle ⟨i, .returned stateModify⟩).map fun handle =>
            ⟨handle, iteration.handler⟩

def step (s : State Thread) (a : Action Thread) : Option (State Thread) :=
  if nextEffect s a.thread = some .callRead then
    afterIteration s a.thread ((s.connection.readIteration a.readResult).map Prod.fst)
  else if nextEffect s a.thread = some .callWrite then
    afterIteration s a.thread (s.connection.writeIteration a.sendResult)
  else
    (Handle.step s.handle ⟨a.thread, a.epollResult⟩).map fun handle => { s with handle := handle }

/-- A new connection in a new holder. -/
def system (Thread : Type*) [DecidableEq Thread] :
    TransitionSystem (State Thread) (Action Thread) :=
  ⟨⟨(Handle.system Thread).init, .initial⟩, step⟩

/-! ## What `read()` and `write()` return -/

/-- What a pass of the loop of `read()` returns: the write side is stopped when nothing is
pending, and at the end of the stream it is closed as well, unless responses are. -/
theorem returned_of_readIteration {h : HashConnection} {result : ReadResult}
    {iteration : Iteration} {stateModify : UInt64}
    (hcall : (h.readIteration result).map Prod.fst = .ok iteration)
    (hreturned : iteration.returned = some stateModify) :
    stateModify = startWriteHandle ∨
      stateModify = stopWriteHandle ∧ iteration.handler.writeBufs = [] ∨
      stateModify = errorMask ∨
      stateModify = closeReadHandle ||| startWriteHandle ∧ iteration.handler.writeBufs ≠ [] := by
  by_cases hroom : h.prepareReadBuf.readBufPos + readBlockSize ≤ h.prepareReadBuf.readBuf.length
  · cases result with
    | again =>
        simp only [readIteration, ensure_of_true _ hroom, Fault.ok_bind] at hcall
        obtain rfl := Except.ok.inj hcall
        split at hreturned
        · exact Or.inl (Option.some.inj hreturned).symm
        · rename_i hempty
          exact Or.inr (Or.inl ⟨(Option.some.inj hreturned).symm, not_not.mp hempty⟩)
    | failed =>
        simp only [readIteration, ensure_of_true _ hroom, Fault.ok_bind] at hcall
        obtain rfl := Except.ok.inj hcall
        exact Or.inr (Or.inr (Or.inl (Option.some.inj hreturned).symm))
    | closed =>
        simp only [readIteration, ensure_of_true _ hroom, Fault.ok_bind] at hcall
        obtain rfl := Except.ok.inj hcall
        have hmask := (Option.some.inj hreturned).symm
        split at hmask
        · rename_i hpending
          exact Or.inr (Or.inr (Or.inr ⟨hmask, hpending⟩))
        · exact Or.inr (Or.inr (Or.inl hmask))
    | block block =>
        cases haccept : h.prepareReadBuf.acceptBlock block.bytes with
        | error fault =>
            simp only [readIteration, ensure_of_true _ hroom, Fault.ok_bind, haccept,
              Fault.error_bind] at hcall
            cases hcall
        | ok accepted =>
            simp only [readIteration, ensure_of_true _ hroom, Fault.ok_bind, haccept] at hcall
            obtain rfl := Except.ok.inj hcall
            cases hreturned
  · simp only [readIteration, ensure_of_false _ hroom] at hcall
    cases hcall

/-- What a pass of the loop of `write()` returns. -/
theorem returned_of_writeIteration {h : HashConnection} {result : SendResult}
    {iteration : Iteration} {stateModify : UInt64}
    (hcall : h.writeIteration result = .ok iteration)
    (hreturned : iteration.returned = some stateModify) :
    iteration.handler = h ∧ (stateModify = stopWriteHandle ∧ h.writeBufs = [] ∨
      (stateModify = continueHandle ∨ stateModify = errorMask) ∧ h.writeBufs ≠ []) := by
  unfold writeIteration at hcall
  split at hcall
  · rename_i hempty
    obtain rfl := Except.ok.inj hcall
    exact ⟨rfl, Or.inl ⟨(Option.some.inj hreturned).symm, hempty⟩⟩
  · rename_i hpending
    cases result with
    | sent sentSize =>
        cases hconf : h.reconfigureWriteBufs sentSize with
        | error fault =>
            simp only [hconf] at hcall
            cases hcall
        | ok h' =>
            simp only [hconf, Fault.ok_bind] at hcall
            obtain rfl := Except.ok.inj hcall
            cases hreturned
    | zero | again =>
        obtain rfl := Except.ok.inj hcall
        exact ⟨rfl, Or.inr ⟨Or.inl (Option.some.inj hreturned).symm, hpending⟩⟩
    | failed =>
        obtain rfl := Except.ok.inj hcall
        exact ⟨rfl, Or.inr ⟨Or.inr (Option.some.inj hreturned).symm, hpending⟩⟩

/-! ## What a step does -/

/-- A pass of a loop of the thread: the holder and the other threads stay as they
are, and the thread stays in the call or goes on with the mask to `next`. -/
structure Calls (s t : State Thread) (i : Thread) (next : UInt64 → HandlePc)
    (returned : Option UInt64) : Prop where
  holder : t.handle.holder = s.handle.holder
  other : ∀ j, j ≠ i → t.handle.threads j = s.handle.threads j
  self : returned = none ∧ t.handle = s.handle ∨
    ∃ stateModify, returned = some stateModify ∧ (t.handle.threads i).pc = next stateModify
  torn : Handle.Torn s.handle → Handle.Torn t.handle

omit [DecidableEq Thread] in
/-- There is one thread in the loop. -/
theorem alone {s : State Thread} (hs : Handle.Serialized s.handle) {i j : Thread}
    (hi : (s.handle.threads i).inLoop) (hj : (s.handle.threads j).inLoop) : j = i :=
  hs.single j i (Or.inl hj) (Or.inl hi)

omit [DecidableEq Thread] in
/-- The thread of a call is the only one in the loop behind it. -/
theorem Calls.eq_of_inLoop {s t : State Thread} {i j : Thread} {next : UInt64 → HandlePc}
    {returned : Option UInt64} (h : Calls s t i next returned) (hs : Handle.Serialized s.handle)
    (hi : (s.handle.threads i).inLoop) (hj : (t.handle.threads j).inLoop) : j = i := by
  by_contra hne
  rw [h.other j hne] at hj
  exact hne (alone hs hi hj)

omit [DecidableEq Thread] in
/-- The mask that is to be applied behind a call is the one that it returned. -/
theorem Calls.returned_of_applying {s t : State Thread} {i j : Thread}
    {next : UInt64 → HandlePc} {returned : Option UInt64} {stateModify : UInt64}
    (h : Calls s t i next returned) (hs : Handle.Serialized s.handle)
    (hi : (s.handle.threads i).inLoop) (hnone : (s.handle.threads i).pc.applying = none)
    (hj : (t.handle.threads j).pc.applying = some stateModify) :
    ∃ m, returned = some m ∧ (t.handle.threads j).pc = next m := by
  obtain rfl := h.eq_of_inLoop hs hi (Handle.inLoop_of_applying hj)
  rcases h.self with ⟨-, hsame⟩ | ⟨m, hreturned, hself⟩
  · rw [hsame, hnone] at hj
    cases hj
  · exact ⟨m, hreturned, hself⟩

omit [DecidableEq Thread] in
/-- The same for the place at which it is to be applied. -/
theorem Calls.next_of_applying {s t : State Thread} {i j : Thread} {next : UInt64 → HandlePc}
    {returned : Option UInt64} {pc : HandlePc} {stateModify : UInt64}
    (h : Calls s t i next returned) (hs : Handle.Serialized s.handle)
    (hi : (s.handle.threads i).inLoop) (hnone : (s.handle.threads i).pc.applying = none)
    (hj : (t.handle.threads j).pc = pc) (happlying : pc.applying = some stateModify) :
    ∃ m, returned = some m ∧ pc = next m := by
  subst hj
  exact h.returned_of_applying hs hi hnone happlying

/-- What the operation of `handle_` is that calls `read()`. -/
theorem handleStep_of_callRead {holder : DescriptorHandlerHolder} {thread : HandleThread}
    {result : CallResult} (h : (handleStep holder thread result).effect = some .callRead)
    (stateModify : UInt64) : handleStep holder thread (.returned stateModify) =
      ⟨holder, thread.goto (.applyRead stateModify), some .callRead⟩ := by
  obtain ⟨hpc, hread, hhandler⟩ := callRead_of_handleStep h
  by_cases hprev : thread.prevHandleInProgress < 0
  · simp [handleStep, hpc, hprev] at h
  · simp [handleStep, hpc, hprev, hread, hhandler, HandleThread.afterCall]

/-- What the operation of `handle_` is that calls `write()`. -/
theorem handleStep_of_callWrite {holder : DescriptorHandlerHolder} {thread : HandleThread}
    {result : CallResult} (h : (handleStep holder thread result).effect = some .callWrite)
    (stateModify : UInt64) : handleStep holder thread (.returned stateModify) =
      ⟨holder, thread.goto (.applyWrite stateModify), some .callWrite⟩ := by
  obtain ⟨hpc, hwrite, hhandler⟩ := callWrite_of_handleStep h
  simp [handleStep, hpc, hwrite, hhandler, HandleThread.afterCall]

/-- A pass of a loop whose mask goes to `next`. -/
theorem calls_of_afterIteration {s t : State Thread} {i : Thread} {next : UInt64 → HandlePc}
    {call : Except Fault Iteration} {effect : HandleEffect}
    (hnext : ∀ stateModify, handleStep s.handle.holder (s.handle.threads i) (.returned stateModify) =
      ⟨s.handle.holder, (s.handle.threads i).goto (next stateModify), some effect⟩)
    (h : afterIteration s i call = some t) :
    ∃ iteration, call = .ok iteration ∧ t.connection = iteration.handler ∧
      Calls s t i next iteration.returned := by
  unfold afterIteration at h
  split at h
  · cases h
  · rename_i iteration
    refine ⟨iteration, rfl, ?_⟩
    split at h
    · rename_i hreturned
      obtain rfl := Option.some.inj h
      exact ⟨rfl, rfl, fun _ _ => rfl, Or.inl ⟨hreturned, rfl⟩, id⟩
    · rename_i stateModify hreturned
      obtain ⟨handle, hstep, rfl⟩ := Option.map_eq_some_iff.mp h
      have hstepped := Handle.stepped_of_step hstep
      have hholder := hstepped.holder
      have hself := hstepped.self
      rw [hnext stateModify] at hholder hself
      refine ⟨rfl, hholder, hstepped.other, Or.inr ⟨stateModify, hreturned, ?_⟩,
        fun htorn => htorn.step hstep⟩
      rw [hself]
      rfl

/-- The effect of an operation does not depend on what its call returns. -/
theorem handleStep_effect (holder : DescriptorHandlerHolder) (thread : HandleThread)
    (result result' : CallResult) :
    (handleStep holder thread result).effect = (handleStep holder thread result').effect := by
  unfold handleStep
  cases thread.pc <;> simp only [applyToHolder] <;> (repeat' split) <;> rfl

/-- A mask is to be applied behind a call only. -/
theorem called_of_applying {holder : DescriptorHandlerHolder} {thread : HandleThread}
    {result : CallResult} {stateModify : UInt64}
    (h : (handleStep holder thread result).thread.pc.applying = some stateModify) :
    (handleStep holder thread result).effect = some .callRead ∨
      (handleStep holder thread result).effect = some .callWrite := by
  unfold handleStep at h ⊢
  cases hpc : thread.pc <;> simp only [hpc] at h ⊢
  case readSide =>
    by_cases hprev : thread.prevHandleInProgress < 0
    · simp [hprev, HandleThread.goto, HandlePc.applying] at h
    · cases hread : holder.flags.handleRead <;> cases hhandler : holder.descriptorHandler <;>
        simp [hprev, hread, hhandler, HandleThread.goto, HandlePc.applying] at h ⊢
  all_goals
    (repeat' split at h) <;> cases result <;>
      simp_all [HandleThread.goto, HandleThread.afterCall, applyToHolder, HandlePc.applying]

/-- A step is a pass of the loop of `read()`, or of `write()`, or an operation of
`handle_` that calls neither. -/
theorem step_cases {s t : State Thread} {a : Action Thread} (h : step s a = some t) :
    (∃ iteration, nextEffect s a.thread = some .callRead ∧
      (s.connection.readIteration a.readResult).map Prod.fst = .ok iteration ∧
      t.connection = iteration.handler ∧ Calls s t a.thread .applyRead iteration.returned) ∨
    (∃ iteration, nextEffect s a.thread = some .callWrite ∧
      s.connection.writeIteration a.sendResult = .ok iteration ∧
      t.connection = iteration.handler ∧ Calls s t a.thread .applyWrite iteration.returned) ∨
    nextEffect s a.thread ≠ some .callRead ∧ nextEffect s a.thread ≠ some .callWrite ∧
      Handle.step s.handle ⟨a.thread, a.epollResult⟩ = some t.handle ∧
      t.connection = s.connection := by
  unfold step at h
  split at h
  · rename_i heffect
    obtain ⟨iteration, hcall, hconnection, hcalls⟩ :=
      calls_of_afterIteration (handleStep_of_callRead heffect) h
    exact Or.inl ⟨iteration, heffect, hcall, hconnection, hcalls⟩
  · rename_i hnotRead
    split at h
    · rename_i heffect
      obtain ⟨iteration, hcall, hconnection, hcalls⟩ :=
        calls_of_afterIteration (handleStep_of_callWrite heffect) h
      exact Or.inr (Or.inl ⟨iteration, heffect, hcall, hconnection, hcalls⟩)
    · rename_i hnotWrite
      obtain ⟨handle, hstep, rfl⟩ := Option.map_eq_some_iff.mp h
      exact Or.inr (Or.inr ⟨hnotRead, hnotWrite, hstep, rfl⟩)

omit [DecidableEq Thread] in
/-- The operation has the effect that is announced. -/
theorem effect_eq_nextEffect (s : State Thread) (i : Thread) (result : CallResult) :
    (handleStep s.handle.holder (s.handle.threads i) result).effect = nextEffect s i :=
  handleStep_effect _ _ _ _

/-- An operation that calls neither `read()` nor `write()` leads to no mask. -/
theorem applying_of_not_called {s : State Thread} {t : Handle.State Thread} {i : Thread}
    {result : CallResult} (hread : nextEffect s i ≠ some .callRead)
    (hwrite : nextEffect s i ≠ some .callWrite)
    (h : Handle.step s.handle ⟨i, result⟩ = some t) : (t.threads i).pc.applying = none := by
  rw [(Handle.stepped_of_step h).self]
  cases happlying : (handleStep s.handle.holder (s.handle.threads i) result).thread.pc.applying with
  | none => rfl
  | some stateModify =>
      have hcalled := called_of_applying happlying
      rw [effect_eq_nextEffect] at hcalled
      exact absurd hcalled (not_or.mpr ⟨hread, hwrite⟩)

/-- Behind `write_closed` the owner goes on to the test of the closed flags, when
it does not call `write()`. -/
theorem checkClosed_of_not_called {s : State Thread} {t : Handle.State Thread} {i : Thread}
    {result : CallResult} (hs : Handle.Serialized s.handle)
    (hpc : (s.handle.threads i).pc = .writeSide) (hwrite : nextEffect s i ≠ some .callWrite)
    (h : Handle.step s.handle ⟨i, result⟩ = some t) : (t.threads i).pc = .checkClosed := by
  have hhandler := (hs.handler_of_inLoop (i := i) (by simp [HandleThread.inLoop, hpc])).1
  rw [(Handle.stepped_of_step h).self]
  by_cases hflag : s.handle.holder.flags.handleWrite = true
  · exact absurd (by simp [nextEffect, handleStep, hpc, hflag, hhandler]) hwrite
  · simp [handleStep, hpc, hflag, HandleThread.goto]

end ServerConnection
end LiteMQ
