import LiteMQ.Connection.Connection
import LiteMQ.Poller.HandleEvents

/-!
# One handler in the poller

`Healthy` is what a registered `SendDescriptorHandler` keeps, whatever the
threads of the poller do with it.  No call of `write()` ever returns to `handle_`
in the language, so `handle_write` stays set and the holder is never torn down;
and when its descriptor is disarmed some thread is in `write()` or on the way to it
(`owed`).  That one thread at a time is in the loop of `handle_`, and that a
positive counter means there is one, comes from `Serialized` and `Passes`.
-/

namespace LiteMQ
namespace Connection

open DescriptorHandler SendDescriptorHandler

variable {T : Type*} [DecidableEq T]

/-! ## What an operation of `handle_` does to the flags and the registration -/

section Operations

variable (holder : DescriptorHandlerHolder) (thread : HandleThread) (result : CallResult)

/-- Where the thread can be afterwards. -/
theorem handleStep_pc :
    (∀ m, (handleStep holder thread result).thread.pc = .applyRead m →
      thread.pc = .readSide ∧ result = .returned m) ∧
    (∀ m, (handleStep holder thread result).thread.pc = .applyWrite m →
      thread.pc = .writeSide ∧ holder.flags.handleWrite = true ∧
        holder.descriptorHandler = true ∧ result = .returned m) ∧
    ((handleStep holder thread result).thread.pc = .finish →
      holder.flags.readClosed = true) ∧
    ((handleStep holder thread result).thread.pc = .leave →
      (handleStep holder thread result).thread.rearmFd = true) := by
  unfold handleStep
  cases hpc : thread.pc <;> cases result <;>
    simp only [applyToHolder, HandleThread.goto, HandleThread.afterCall] <;>
    (repeat' split) <;> simp_all

end Operations

@[simp] theorem applyStateModify_continueHandle (flags : HandleFlags) :
    (applyStateModify flags continueHandle).1 = flags := rfl

/-! ## A healthy handler -/

/-- The thread will arm the descriptor, or pass that on to another thread. -/
def Owes (thread : HandleThread) : Prop :=
  thread.pc = .out ∨ thread.inLoop ∨ thread.pc = .rearm ∧ thread.rearmFd = true

/-- A handler in the poller; `here` are the threads that have got an event for
it. -/
structure Healthy (endpoint : Endpoint T) (here : T → Prop) : Prop where
  serialized : Handle.Serialized endpoint.handle
  passes : Handle.Passes endpoint.handle
  unfinished : endpoint.handle.holder.handlingFinished = false
  readOpen : endpoint.handle.holder.flags.readClosed = false
  writes : endpoint.handle.holder.flags.handleWrite = true
  inside : ∀ w, (endpoint.handle.threads w).pc ≠ .out → here w
  noFinish : ∀ w, (endpoint.handle.threads w).pc ≠ .finish
  readMask : ∀ w m, (endpoint.handle.threads w).pc = .applyRead m → m = continueHandle
  noWriteMask : ∀ w m, (endpoint.handle.threads w).pc ≠ .applyWrite m
  leaveRearms : ∀ w, (endpoint.handle.threads w).pc = .leave →
    (endpoint.handle.threads w).rearmFd = true
  armedOut : ∀ r o, endpoint.armed = some (r, o) → o = true
  owed : endpoint.armed = none → ∃ w, here w ∧ Owes (endpoint.handle.threads w)

variable {endpoint next : Endpoint T} {writer : Writer} {here here' : T → Prop}

/-- What an operation of `handle_` does to the holder and the registration. -/
structure Handled (endpoint next : Endpoint T) (w : T) (result : CallResult) : Prop where
  step : Handle.step endpoint.handle ⟨w, result⟩ = some next.handle
  stepped : Handle.Stepped endpoint.handle next.handle ⟨w, result⟩
  armed : next.armed = Endpoint.armedAfter endpoint.armed
    (handleStep endpoint.handle.holder (endpoint.handle.threads w) result).effect

theorem handled_of_step {w : T} {result : CallResult}
    (hstep : endpoint.step w result = some next) : Handled endpoint next w result := by
  obtain ⟨handle, hhandle, rfl⟩ := Option.map_eq_some_iff.mp hstep
  exact ⟨hhandle, Handle.stepped_of_step hhandle, rfl⟩

namespace Healthy

omit [DecidableEq T] in
theorem handler (h : Healthy endpoint here) :
    endpoint.handle.holder.descriptorHandler = true := by
  by_contra hnull
  have hfinished := h.serialized.handler (by simpa using hnull)
  rw [h.unfinished] at hfinished
  cases hfinished

theorem added (here : T → Prop) : Healthy (Endpoint.added : Endpoint T) here where
  serialized := Handle.serialized_init
  passes := Handle.passes_init
  unfinished := rfl
  readOpen := rfl
  writes := rfl
  inside := fun w hw => absurd rfl hw
  noFinish := fun w hw => by cases hw
  readMask := fun w m hw => by cases hw
  noWriteMask := fun w m hw => by cases hw
  leaveRearms := fun w hw => by cases hw
  armedOut := by
    rintro r o harmed
    cases harmed
    rfl
  owed := fun harmed => by cases harmed

omit [DecidableEq T] in
/-- `wakeup()` asks for `EPOLLOUT`. -/
theorem wakeup (h : Healthy endpoint here) : Healthy endpoint.wakeup here := by
  rw [Endpoint.wakeup, if_pos h.handler]
  exact
    { h with
      armedOut := by
        rintro r o harmed
        cases harmed
        rfl
      owed := fun harmed => by cases harmed }

omit [DecidableEq T] in
/-- A thread that gets the event owes the next registration. -/
theorem event (h : Healthy endpoint here) {w : T} (hidle : ¬ here w)
    (hhere : ∀ w', here' w' ↔ here w' ∨ w' = w) :
    Healthy { endpoint with armed := none } here' := by
  have hout : (endpoint.handle.threads w).pc = .out := by
    by_contra hpc
    exact hidle (h.inside w hpc)
  exact
    { h with
      inside := fun w' hw' => (hhere w').mpr (Or.inl (h.inside w' hw'))
      armedOut := fun r o harmed => by cases harmed
      owed := fun _ => ⟨w, (hhere w).mpr (Or.inr rfl), Or.inl hout⟩ }

/-- The flags after an operation: `read()` changes none, and no result of
`write()` is applied. -/
theorem flags_step (h : Healthy endpoint here) {w : T} {result : CallResult}
    (hstep : endpoint.step w result = some next) :
    next.handle.holder.flags = endpoint.handle.holder.flags := by
  rw [(handled_of_step hstep).stepped.holder, handleStep_flags]
  cases hpc : (endpoint.handle.threads w).pc with
  | applyRead m =>
      rw [h.readMask w m hpc]
      rfl
  | applyWrite m => exact absurd hpc (h.noWriteMask w m)
  | _ => rfl

/-! ### The registration -/

/-- An operation touches the registration in one way only: `epoll_rearm_handler_`
at its place. -/
theorem armed_step (h : Healthy endpoint here) {w : T} {result : CallResult}
    (hstep : Handled endpoint next w result) :
    next.armed = endpoint.armed ∨
      ∃ r, next.armed = some (r, endpoint.handle.holder.flags.handleWrite) := by
  rw [hstep.armed]
  cases heffect : (handleStep endpoint.handle.holder (endpoint.handle.threads w)
      result).effect with
  | none => exact Or.inl rfl
  | some effect =>
      cases effect with
      | epollRearm r o =>
          obtain ⟨-, -, -, -, rfl⟩ := epollRearm_of_handleStep heffect
          exact Or.inr ⟨r, rfl⟩
      | epollDel =>
          -- only a finished holder is taken out of `epoll`
          have hpc := epollDel_of_handleStep heffect
          have hfinished := h.serialized.tearing w (by simp [hpc, HandlePc.tearingDown])
          rw [h.unfinished] at hfinished
          cases hfinished
      | _ => exact Or.inl rfl

/-- The event of a thread that stands before `handle_` is answered by itself or
by the thread in the loop. -/
theorem owed_of_out (h : Healthy endpoint here) {w : T} {stateModify : UInt64}
    (hstep : Handled endpoint next w (.returned stateModify)) (hw : here w)
    (hout : (endpoint.handle.threads w).pc = .out) :
    ∃ w', here w' ∧ (w' = w → (next.handle.threads w).pc ≠ .out) ∧
      Owes (next.handle.threads w') := by
  obtain ⟨i, hi, ⟨hentered, rfl⟩ | ⟨hbefore, hne, -⟩⟩ :=
    h.passes.owner_of_out h.serialized hstep.stepped hout h.unfinished
  · exact ⟨i, hw, fun _ => by simp [hentered], Or.inr (Or.inl hi)⟩
  · exact ⟨i, h.inside i (Handle.ne_out_of_inLoop hbefore), fun heq => absurd heq hne,
      Or.inr (Or.inl hi)⟩

/-- A thread in the loop stays there, or leaves it to rearm. -/
theorem owes_of_inLoop (h : Healthy endpoint here) {w : T} {stateModify : UInt64}
    (hstep : Handled endpoint next w (.returned stateModify))
    (hloop : (endpoint.handle.threads w).inLoop)
    (hnoFinish : (next.handle.threads w).pc ≠ .finish) :
    (next.handle.threads w).pc ≠ .out ∧ Owes (next.handle.threads w) := by
  have hthrow : Handle.NoThrow endpoint.handle ⟨w, .returned stateModify⟩ :=
    fun _ hresult => by cases hresult
  rcases Handle.loop_or_rearm h.serialized hthrow hloop hstep.step (h.noFinish w) hnoFinish with
    hstays | ⟨hleave, hrearm, hkept⟩
  · exact ⟨Handle.ne_out_of_inLoop hstays, Or.inr (Or.inl hstays)⟩
  · exact ⟨by simp [hrearm], Or.inr (Or.inr ⟨hrearm, hkept.trans (h.leaveRearms w hleave)⟩)⟩

/-- After an operation the registration is still owed when it is missing. -/
theorem owed_step (h : Healthy endpoint here) {w : T} {stateModify : UInt64}
    (hstep : Handled endpoint next w (.returned stateModify)) (hw : here w)
    (hnoFinish : (next.handle.threads w).pc ≠ .finish) (harmed : next.armed = none) :
    ∃ w', here w' ∧ (w' = w → (next.handle.threads w).pc ≠ .out) ∧
      Owes (next.handle.threads w') := by
  have hbefore : endpoint.armed = none := by
    rcases h.armed_step hstep with hkept | ⟨r, hrearmed⟩
    · rw [← hkept, harmed]
    · rw [harmed] at hrearmed
      cases hrearmed
  obtain ⟨w', hw', howes⟩ := h.owed hbefore
  rcases eq_or_ne w' w with rfl | hne
  · rcases howes with hout | hloop | ⟨hrearm, hfd⟩
    · exact h.owed_of_out hstep hw hout
    · obtain ⟨hinside, howes⟩ := h.owes_of_inLoop hstep hloop hnoFinish
      exact ⟨w', hw, fun _ => hinside, howes⟩
    · -- this thread arms the descriptor
      rw [hstep.armed] at harmed
      simp [handleStep, hrearm, hfd, h.handler, Endpoint.armedAfter] at harmed
  · exact ⟨w', hw', fun heq => absurd heq hne, by rw [hstep.stepped.other w' hne]; exact howes⟩

/-! ### The operations of `handle_` -/

/-- An operation of `handle_` that does not come to the result of `write()`. -/
theorem step (h : Healthy endpoint here) {w : T} (hw : here w)
    (hwriting : (endpoint.handle.threads w).pc ≠ .writeSide)
    (hstep : endpoint.step w (callResult writer (endpoint.handle.threads w).pc) = some next)
    (hhere : ∀ w', here' w' ↔ here w' ∧ (w' = w → (next.handle.threads w).pc ≠ .out)) :
    Healthy next here' := by
  obtain ⟨stateModify, hresult⟩ : ∃ stateModify,
      callResult writer (endpoint.handle.threads w).pc = .returned stateModify := by
    unfold callResult
    split <;> exact ⟨_, rfl⟩
  have hhandled := handled_of_step hstep
  have hstepped := hhandled.stepped
  obtain ⟨hpcRead, hpcWrite, hpcFinish, hpcLeave⟩ := handleStep_pc endpoint.handle.holder
    (endpoint.handle.threads w) (callResult writer (endpoint.handle.threads w).pc)
  rw [← hstepped.self] at hpcRead hpcWrite hpcFinish hpcLeave
  have hflags := h.flags_step hstep
  have hthrow : Handle.NoThrow endpoint.handle
      ⟨w, callResult writer (endpoint.handle.threads w).pc⟩ := by
    intro _ hthrew
    rw [hresult] at hthrew
    cases hthrew
  have hnoFinish : (next.handle.threads w).pc ≠ .finish := by
    intro hpc
    have hclosed := hpcFinish hpc
    rw [h.readOpen] at hclosed
    cases hclosed
  refine
    { serialized := h.serialized.step hhandled.step
      passes := h.passes.step h.serialized hthrow hhandled.step
      unfinished := ?_
      readOpen := hflags ▸ h.readOpen
      writes := hflags ▸ h.writes
      inside := ?_
      noFinish := ?_
      readMask := ?_
      noWriteMask := ?_
      leaveRearms := ?_
      armedOut := ?_
      owed := ?_ }
  · rw [hstepped.handlingFinished, if_neg (h.noFinish w)]
    exact h.unfinished
  · intro w' hpc
    rcases eq_or_ne w' w with rfl | hne
    · exact (hhere w').mpr ⟨hw, fun _ => hpc⟩
    · rw [hstepped.other w' hne] at hpc
      exact (hhere w').mpr ⟨h.inside w' hpc, fun heq => absurd heq hne⟩
  · intro w'
    rcases eq_or_ne w' w with rfl | hne
    · exact hnoFinish
    · rw [hstepped.other w' hne]
      exact h.noFinish w'
  · intro w' m hpc
    rcases eq_or_ne w' w with rfl | hne
    · obtain ⟨hread, hreturned⟩ := hpcRead m hpc
      rw [hread] at hreturned
      exact (CallResult.returned.inj hreturned).symm
    · rw [hstepped.other w' hne] at hpc
      exact h.readMask w' m hpc
  · intro w' m hpc
    rcases eq_or_ne w' w with rfl | hne
    · exact hwriting (hpcWrite m hpc).1
    · rw [hstepped.other w' hne] at hpc
      exact h.noWriteMask w' m hpc
  · intro w' hpc
    rcases eq_or_ne w' w with rfl | hne
    · exact hpcLeave hpc
    · rw [hstepped.other w' hne] at hpc ⊢
      exact h.leaveRearms w' hpc
  · intro r o harmed
    rcases h.armed_step hhandled with hkept | ⟨r', hrearmed⟩
    · exact h.armedOut r o (hkept ▸ harmed)
    · rw [harmed, h.writes] at hrearmed
      exact (Prod.mk.inj (Option.some.inj hrearmed)).2
  · intro harmed
    rw [hresult] at hhandled
    obtain ⟨w', hw', hstays, howes⟩ := h.owed_step hhandled hw hnoFinish harmed
    exact ⟨w', (hhere w').mpr ⟨hw', hstays⟩, howes⟩

end Healthy
end Connection
end LiteMQ
