import LiteMQ.Poller.Rearm

/-!
# A rearm request and the call of `write()`

`rearm(_, true)` arms the descriptor for `EPOLLOUT`, but `handle_` goes by
`handle_write` of the holder alone: with the flag cleared it does not call
`write()` for the event, and it overwrites the registration at its end.

`rearm_honoured` is about runs in which `handle_` meets neither situation while
a request is open.  There the first writable event leads to `write()`: a thread
stands for it until then (`Honoured`), and the thread in the loop calls
`write()` within six operations (`LeadsToWrite`).
-/

namespace LiteMQ
namespace Rearm

open DescriptorHandler TransitionSystem

variable {Thread : Type*} [DecidableEq Thread]

/-- The write side is not closed. -/
def WriteOpen (s : State Thread) : Prop := s.handle.holder.flags.writeClosed = false

/-- A writable event for a request is counted, and `write()` was not called
since. -/
def Unserved (s : State Thread) : Prop := s.request.counted = true ∧ WriteOpen s

/-- An operation of a thread in `handle_` that does not throw, and that finds
`handle_write` set where it matters for a request: at the test before `write()`
when a writable event for the request is counted, and where
`epoll_rearm_handler_` reads the flags while `write()` is to be called. -/
def AnswerableOperation (s : State Thread) (i : Thread) (result : CallResult) : Prop :=
  result ≠ .threw ∧
    ((s.handle.threads i).pc = .writeSide → Unserved s →
      s.handle.holder.flags.handleWrite = true) ∧
    (rearms (s.handle.threads i) → s.readFlags = none → s.request.unanswered = true →
      WriteOpen s → s.handle.holder.flags.handleWrite = true)

instance (s : State Thread) : Decidable (WriteOpen s) :=
  inferInstanceAs (Decidable (_ = _))

instance (s : State Thread) : Decidable (Unserved s) :=
  inferInstanceAs (Decidable (_ ∧ _))

instance (s : State Thread) (i : Thread) (result : CallResult) :
    Decidable (AnswerableOperation s i result) :=
  inferInstanceAs (Decidable (_ ∧ (_ → _ → _) ∧ (_ → s.readFlags = none → _ → _ → _)))

/-- `handle_` does not miss a request in this step: an operation of it is
`AnswerableOperation`, and `rearm(_, true)` does not fall between reading the flags
with `handle_write` cleared and `epoll_ctl`. -/
def Answerable (s : State Thread) : Action Thread → Prop
  | .rearm _ handleWrite => handleWrite = true → WriteOpen s →
      ∀ held ∈ s.readFlags, held.handleWrite = true
  | .event _ _ => True
  | .handle i result => AnswerableOperation s i result

instance (s : State Thread) : DecidablePred (Answerable s)
  | .rearm _ _ => inferInstanceAs (Decidable (_ → _ → ∀ held ∈ s.readFlags, _))
  | .event _ _ => inferInstanceAs (Decidable True)
  | .handle i result => inferInstanceAs (Decidable (AnswerableOperation s i result))

/-- The thread will arm the descriptor, or leave that to the thread in the loop. -/
def OwesRearm (thread : HandleThread) : Prop :=
  thread.pc = .out ∨ thread.inLoop ∨ rearms thread

/-- What holds between the steps: until `write()` is called, `EPOLLOUT` is
requested or an event is being dealt with, and a thread stands for each first
writable event. -/
structure Honoured (s : State Thread) : Prop where
  kept : s.request.unanswered = true → WriteOpen s →
    (∃ handleRead, s.armed = some (handleRead, true)) ∨
      s.armed = none ∧ ∃ i, s.here i = true ∧ OwesRearm (s.handle.threads i)
  delivered : ∀ i, s.request.delivered i = true →
    s.here i = true ∧ (s.handle.threads i).pc = .out
  counted : Unserved s → ∃ i, s.here i = true ∧ (s.handle.threads i).inLoop

/-- The action is an operation of this thread in `handle_`. -/
def operationOf (owner : Thread) : Action Thread → Bool
  | .handle i _ => i = owner
  | .rearm _ _ | .event _ _ => false

/-- The event leads to the call of `write()`: the next operation of its thread
counts it, and then some thread in the loop is at most six operations away from
the call, whatever the others do. -/
structure LeadsToWrite (s : State Thread) : Prop where
  enters : ∀ i result t, s.request.delivered i = true → step s (.handle i result) = some t →
    t.request.counted = true
  answered : Unserved s → ∃ owner, (s.handle.threads owner).inLoop ∧
    ∀ actions t, Meets (system Thread) Answerable s actions →
      (system Thread).run s actions = some t →
      Throughout (system Thread) Unserved s actions →
      actions.countP (operationOf owner) < 6

/-! ## The invariant -/

/-- The thread is behind the test of `handle_write` in its pass. -/
def pastWrite : HandlePc → Prop
  | .applyWrite _ | .checkClosed | .leave => True
  | .out | .entered | .readSide | .applyRead _ | .writeSide | .finish | .epollDel | .stopped
  | .reset | .push | .erase | .rearm | .release | .unwound | .nullDereference
  | .assertionFailed => False

/-- The thread will come to the test of `handle_write`: behind it in this pass, it
makes another one. -/
def Serving (s : State Thread) (owner : Thread) : Prop :=
  (s.handle.threads owner).inLoop ∧
    (pastWrite (s.handle.threads owner).pc → 1 < s.handle.holder.handleInProgress)

/-- The invariant of runs in which `handle_` does not miss a request. -/
structure Tracked (s : State Thread) : Prop where
  serialized : Handle.Serialized s.handle
  passes : Handle.Passes s.handle
  inside : ∀ i, (s.handle.threads i).pc ≠ .out → s.here i = true
  finishing : ∀ i, (s.handle.threads i).pc = .finish → ¬ WriteOpen s
  finished : s.handle.holder.handlingFinished = true → ¬ WriteOpen s
  leaveRearms : ∀ i, (s.handle.threads i).pc = .leave → (s.handle.threads i).rearmFd = true
  registered : s.registered = false → s.handle.holder.handlingFinished = true
  notStale : s.request.unanswered = true → WriteOpen s →
    ∀ held ∈ s.readFlags, held.handleWrite = true
  armedOut : s.request.unanswered = true → WriteOpen s →
    ∀ events ∈ s.armed, events.2 = true
  owed : WriteOpen s → s.armed = none → ∃ i, s.here i = true ∧ OwesRearm (s.handle.threads i)
  delivered : ∀ i, s.request.delivered i = true →
    s.here i = true ∧ (s.handle.threads i).pc = .out
  counted : Unserved s → ∃ owner, Serving s owner

theorem tracked_init : Tracked (system Thread).init where
  serialized := Handle.serialized_init
  passes := Handle.passes_init
  inside := fun i h => absurd rfl h
  finishing := fun i h => by cases h
  finished := fun h => by cases h
  leaveRearms := fun i h => by cases h
  registered := fun h => by cases h
  notStale := fun h => by cases h
  armedOut := fun h => by cases h
  owed := fun _ h => by cases h
  delivered := fun i h => by cases h
  counted := fun h => by cases h.1

omit [DecidableEq Thread] in
theorem out_of_not_here {s : State Thread} (hs : Tracked s) {i : Thread} (h : s.here i = false) :
    (s.handle.threads i).pc = .out := by
  by_contra hpc
  have hhere := hs.inside i hpc
  rw [h] at hhere
  cases hhere

/-! ## Calls of `rearm` and events -/

/-- A call of `rearm` asks for the events itself. -/
theorem Tracked.rearm_step {s t : State Thread} {handleRead handleWrite : Bool} (hs : Tracked s)
    (hguard : Answerable s (.rearm handleRead handleWrite))
    (hstep : step s (.rearm handleRead handleWrite) = some t) : Tracked t := by
  simp only [step, rearmStep] at hstep
  split at hstep
  · split at hstep
    · obtain rfl := Option.some.inj hstep
      exact
        { hs with
          notStale := fun hunanswered hopen =>
            hguard (Request.rearmed_unanswered hunanswered).1 hopen
          armedOut := by
            rintro hunanswered - events hevents
            obtain rfl := Option.some.inj hevents
            exact (Request.rearmed_unanswered hunanswered).1
          owed := fun _ harmed => by cases harmed }
    · cases hstep
  · obtain rfl := Option.some.inj hstep
    exact hs

/-- The thread that gets an event owes the next registration. -/
theorem Tracked.event_step {s t : State Thread} {i : Thread} {writable : Bool} (hs : Tracked s)
    (hstep : step s (.event i writable) = some t) : Tracked t := by
  simp only [step, eventStep] at hstep
  split at hstep
  · cases hstep
  · split at hstep
    · rename_i hfree
      obtain rfl := Option.some.inj hstep
      have hout := out_of_not_here hs hfree.1
      have hhere : ∀ j, s.here j = true → Function.update s.here i true j = true := by
        intro j hj
        rcases eq_or_ne j i with rfl | hne
        · exact Function.update_self ..
        · rwa [Function.update_of_ne hne]
      have hunanswered : (if writable then s.request.writable i else s.request).unanswered =
          s.request.unanswered := by
        split <;> simp
      have hcounted : (if writable then s.request.writable i else s.request).counted =
          s.request.counted := by
        split <;> simp
      exact
        { hs with
          inside := fun j hpc => hhere j (hs.inside j hpc)
          notStale := fun h => hs.notStale (hunanswered ▸ h)
          armedOut := fun _ _ events hevents => by cases hevents
          owed := fun _ _ => ⟨i, Function.update_self .., Or.inl hout⟩
          delivered := by
            intro j hdelivered
            have hcases : j = i ∨ s.request.delivered j = true := by
              dsimp only at hdelivered
              split at hdelivered
              · exact Request.writable_delivered hdelivered
              · exact Or.inr hdelivered
            rcases hcases with rfl | hbefore
            · exact ⟨Function.update_self .., hout⟩
            · exact ⟨hhere j (hs.delivered j hbefore).1, (hs.delivered j hbefore).2⟩
          counted := fun h => hs.counted ⟨hcounted ▸ h.1, h.2⟩ }
    · cases hstep

/-! ## Operations of `handle_` -/

/-- How many operations the thread is away from the call of `write()`. -/
def stepsToWrite : HandlePc → Nat
  | .applyWrite _ => 6
  | .checkClosed => 5
  | .leave | .entered => 4
  | .readSide => 3
  | .applyRead _ => 2
  | .writeSide => 1
  | .out | .finish | .epollDel | .stopped | .reset | .push | .erase | .rearm | .release
  | .unwound | .nullDereference | .assertionFailed => 0

theorem stepsToWrite_le (pc : HandlePc) : stepsToWrite pc ≤ 6 := by
  cases pc <;> simp [stepsToWrite]

section Operations

variable {s t : State Thread} {i : Thread} {result : CallResult}

omit [DecidableEq Thread] in
/-- The write side is not opened again. -/
theorem writeOpen_before (h : Handle.Stepped s.handle t.handle ⟨i, result⟩) (hopen : WriteOpen t) :
    WriteOpen s := by
  by_contra hclosed
  have hafter := h.writeClosed (by simpa [WriteOpen] using hclosed)
  rw [hopen] at hafter
  cases hafter

omit [DecidableEq Thread] in
/-- A thread that takes the holder out of service has found both sides closed. -/
theorem Tracked.finishing_step (hs : Tracked s)
    (h : Handle.Stepped s.handle t.handle ⟨i, result⟩) (j : Thread)
    (hpc : (t.handle.threads j).pc = .finish) : ¬ WriteOpen t := by
  intro hopen
  have hbefore := writeOpen_before h hopen
  rcases eq_or_ne j i with rfl | hne
  · rw [h.self] at hpc
    have hclosed := (closed_of_finish hpc).2.2
    rw [hbefore] at hclosed
    cases hclosed
  · rw [h.other j hne] at hpc
    exact hs.finishing j hpc hbefore

omit [DecidableEq Thread] in
theorem Tracked.finished_step (hs : Tracked s)
    (h : Handle.Stepped s.handle t.handle ⟨i, result⟩)
    (hfinished : t.handle.holder.handlingFinished = true) : ¬ WriteOpen t := by
  intro hopen
  have hbefore := writeOpen_before h hopen
  rw [h.handlingFinished] at hfinished
  split at hfinished
  · rename_i hpc
    exact hs.finishing i hpc hbefore
  · exact hs.finished hfinished hbefore

omit [DecidableEq Thread] in
/-- Behind a pass that leaves the holder open the descriptor is to be rearmed. -/
theorem Tracked.leaveRearms_step (hs : Tracked s)
    (h : Handle.Stepped s.handle t.handle ⟨i, result⟩) (j : Thread)
    (hpc : (t.handle.threads j).pc = .leave) : (t.handle.threads j).rearmFd = true := by
  rcases eq_or_ne j i with rfl | hne
  · rw [h.self] at hpc ⊢
    exact rearmFd_of_leave hpc
  · rw [h.other j hne] at hpc ⊢
    exact hs.leaveRearms j hpc

/-- While a writable event waits for `write()`, the thread that serves it comes
closer to the call. -/
theorem Serving.step {owner : Thread} (hserving : Serving s owner) (hs : Tracked s)
    (hthrow : i = owner → result ≠ .threw) (hpc : (s.handle.threads i).pc ≠ .writeSide)
    (hstep : Handle.step s.handle ⟨i, result⟩ = some t.handle) (hopen : WriteOpen t) :
    Serving t owner ∧ stepsToWrite (t.handle.threads owner).pc + (if i = owner then 1 else 0) ≤
      stepsToWrite (s.handle.threads owner).pc := by
  obtain ⟨hloop, hcount⟩ := hserving
  have h := Handle.stepped_of_step hstep
  rcases eq_or_ne i owner with rfl | hne
  · have hnoThrow : Handle.NoThrow s.handle ⟨i, result⟩ := fun _ => hthrow rfl
    obtain ⟨pc, pc', hat, hat', hnext, -, -, hcounter, -⟩ :=
      Handle.step_of_inLoop hs.serialized hnoThrow hloop hstep
    have hfinish : pc' ≠ .finish := fun heq => hs.finishing_step h i (hat'.trans heq) hopen
    have hfinishing : pc ≠ .finish := fun heq =>
      hs.finishing i (hat.trans heq) (writeOpen_before h hopen)
    rw [hat] at hpc hcount
    rw [Serving, hat, hat', hcounter, if_pos rfl]
    -- behind `write()` the counter stands for the event, so the loop goes on
    cases hnext with
    | write m => exact absurd rfl hpc
    | skipWrite => exact absurd rfl hpc
    | closed => exact absurd rfl hfinish
    | finish => exact absurd rfl hfinishing
    | last hlast => exact absurd (hcount trivial) hlast
    | applyWrite m | opened =>
        exact ⟨⟨by simp [HandleThread.inLoop, hat'], fun _ => by simpa using hcount trivial⟩,
          by simp [stepsToWrite]⟩
    | _ =>
        exact ⟨⟨by simp [HandleThread.inLoop, hat'], fun hpast => hpast.elim⟩,
          by simp [stepsToWrite]⟩
  · have hsame : t.handle.threads owner = s.handle.threads owner := h.other owner hne.symm
    have hnotLeave : (s.handle.threads i).pc ≠ .leave := by
      intro hleave
      exact hne (hs.serialized.single i owner (Handle.owns_of_leave hleave) (Or.inl hloop))
    refine ⟨⟨by rwa [hsame], fun hpast => ?_⟩, by simp [hsame, hne]⟩
    rw [hsame] at hpast
    have hbefore := hcount hpast
    rw [h.handleInProgress]
    split
    · omega
    · exact hbefore

/-- A thread in the loop stays there, or leaves it to rearm. -/
theorem Tracked.owes_of_inLoop (hs : Tracked s) (hthrow : result ≠ .threw)
    (hstep : Handle.step s.handle ⟨i, result⟩ = some t.handle) (hopen : WriteOpen t)
    (hloop : (s.handle.threads i).inLoop) :
    (t.handle.threads i).pc ≠ .out ∧ OwesRearm (t.handle.threads i) := by
  have h := Handle.stepped_of_step hstep
  have hnoThrow : Handle.NoThrow s.handle ⟨i, result⟩ := fun _ => hthrow
  have hfinishing : (s.handle.threads i).pc ≠ .finish := fun hpc =>
    hs.finishing i hpc (writeOpen_before h hopen)
  have hfinish : (t.handle.threads i).pc ≠ .finish := fun hpc =>
    hs.finishing_step h i hpc hopen
  rcases Handle.loop_or_rearm hs.serialized hnoThrow hloop hstep hfinishing hfinish with
    hstays | ⟨hleave, hrearm, hkept⟩
  · exact ⟨Handle.ne_out_of_inLoop hstays, Or.inr (Or.inl hstays)⟩
  · exact ⟨by simp [hrearm], Or.inr (Or.inr ⟨hrearm, hkept.trans (hs.leaveRearms i hleave)⟩)⟩

/-- After an operation the next registration is still owed when it is missing. -/
theorem Tracked.owed_step (hs : Tracked s) (hthrow : result ≠ .threw)
    (h : Operated s t i result) (hopen : WriteOpen t) (harmed : s.armed = none) :
    ∃ j, s.here j = true ∧ (j = i → (t.handle.threads i).pc ≠ .out) ∧
      OwesRearm (t.handle.threads j) := by
  have hstepped := Handle.stepped_of_step h.handle
  have hbefore := writeOpen_before hstepped hopen
  obtain ⟨j, hhere, howes⟩ := hs.owed hbefore harmed
  rcases eq_or_ne j i with rfl | hne
  · rcases howes with hout | hloop | hrearms
    · -- an increment finds a thread in the loop, or the pass begins with this event
      have hunfinished : s.handle.holder.handlingFinished = false := by
        by_contra hfinished
        exact hs.finished (by simpa using hfinished) hbefore
      obtain ⟨k, hk, ⟨hentered, rfl⟩ | ⟨hbeforeLoop, hne, -⟩⟩ :=
        hs.passes.owner_of_out hs.serialized hstepped hout hunfinished
      · exact ⟨k, hhere, fun _ => Handle.ne_out_of_inLoop hk, Or.inr (Or.inl hk)⟩
      · exact ⟨k, hs.inside k (Handle.ne_out_of_inLoop hbeforeLoop), fun heq => absurd heq hne,
          Or.inr (Or.inl hk)⟩
    · obtain ⟨hstays, howes⟩ := hs.owes_of_inLoop hthrow h.handle hopen hloop
      exact ⟨j, hhere, fun _ => hstays, howes⟩
    · exact absurd hrearms h.notRearms
  · exact ⟨j, hhere, fun heq => absurd heq hne, by rwa [hstepped.other j hne]⟩

omit [DecidableEq Thread] in
/-- `epoll_del_fd_` has returned on a finished holder only. -/
theorem Tracked.finished_of_stopped (hs : Tracked s)
    (h : Handle.Stepped s.handle t.handle ⟨i, result⟩)
    (hstopped : (t.handle.threads i).pc = .stopped) :
    t.handle.holder.handlingFinished = true := by
  rw [h.handlingFinished]
  -- the thread came to `stopped()` from `epoll_del_fd_`, behind the mark
  rcases h.tearingDown_before (i := i) (by simp [hstopped, HandlePc.tearingDown]) with
    htearing | ⟨-, hfinish⟩
  · rw [hs.serialized.tearing i htearing, ite_self]
  · exact if_pos hfinish

/-- The test before `write()` is passed over while no event for a request is
counted. -/
theorem Tracked.ne_writeSide (hs : Tracked s) (hguard : AnswerableOperation s i result)
    (h : Operated s t i result) (hbefore : Unserved s) (hafter : Unserved t) :
    (s.handle.threads i).pc ≠ .writeSide := by
  intro hpc
  have hwrite := hguard.2.1 hpc hbefore
  have hloop : (s.handle.threads i).inLoop := by simp [HandleThread.inLoop, hpc]
  have hhandler := (hs.serialized.handler_of_inLoop hloop).1
  have hcounted := hafter.1
  rw [h.request] at hcounted
  rcases Request.after_counted hcounted with ⟨hout, -⟩ | ⟨-, hnotCalled⟩
  · rw [hpc] at hout
    cases hout
  · exact hnotCalled (by simp [hpc]) (by simp [handleStep, hpc, hwrite, hhandler])

/-- A thread that serves a counted event goes on to do so in an operation. -/
theorem Tracked.operated_serving (hs : Tracked s) (hguard : AnswerableOperation s i result)
    (h : Operated s t i result) (hbefore : Unserved s) (hafter : Unserved t) {owner : Thread}
    (hserving : Serving s owner) :
    Serving t owner ∧ stepsToWrite (t.handle.threads owner).pc + (if i = owner then 1 else 0) ≤
      stepsToWrite (s.handle.threads owner).pc :=
  hserving.step hs (fun _ => hguard.1) (hs.ne_writeSide hguard h hbefore hafter) h.handle hafter.2

theorem Tracked.counted_step (hs : Tracked s) (hguard : AnswerableOperation s i result)
    (h : Operated s t i result) (hunserved : Unserved t) : ∃ owner, Serving t owner := by
  have hstepped := Handle.stepped_of_step h.handle
  have hbefore := writeOpen_before hstepped hunserved.2
  have hcounted := hunserved.1
  rw [h.request] at hcounted
  rcases Request.after_counted hcounted with ⟨hout, -⟩ | ⟨hcounted, -⟩
  · -- the event is counted now
    have hunfinished : s.handle.holder.handlingFinished = false := by
      by_contra hfinished
      exact hs.finished (by simpa using hfinished) hbefore
    obtain ⟨owner, hloop, ⟨hentered, -⟩ | ⟨-, -, hcount⟩⟩ :=
      hs.passes.owner_of_out hs.serialized hstepped hout hunfinished
    · exact ⟨owner, hloop, fun hpast => by simp [hentered, pastWrite] at hpast⟩
    · exact ⟨owner, hloop, fun _ => hcount⟩
  · -- it was counted before, and its thread goes on
    obtain ⟨owner, hserving⟩ := hs.counted ⟨hcounted, hbefore⟩
    exact ⟨owner, (hs.operated_serving hguard h ⟨hcounted, hbefore⟩ hunserved hserving).1⟩

theorem Tracked.operated_step (hs : Tracked s) (hguard : AnswerableOperation s i result)
    (h : Operated s t i result) : Tracked t := by
  have hstepped := Handle.stepped_of_step h.handle
  have hhere : ∀ j, s.here j = true → (j = i → (t.handle.threads i).pc ≠ .out) →
      t.here j = true := by
    intro j hj hstays
    rw [h.nextHere]
    split
    · rename_i hout
      have hne : j ≠ i := fun heq => hstays heq hout
      rwa [Function.update_of_ne hne]
    · exact hj
  have harmed : ∀ events ∈ t.armed, events ∈ s.armed := by
    intro events hevents
    rw [h.armed] at hevents
    split at hevents
    · cases hevents
    · exact hevents
  refine
    { serialized := hs.serialized.step h.handle
      passes := hs.passes.step hs.serialized (fun _ => hguard.1) h.handle
      inside := ?_
      finishing := hs.finishing_step hstepped
      finished := hs.finished_step hstepped
      leaveRearms := hs.leaveRearms_step hstepped
      registered := ?_
      notStale := ?_
      armedOut := ?_
      owed := ?_
      delivered := ?_
      counted := hs.counted_step hguard h }
  · -- a thread that returns from `handle_` is not here any more
    intro j hpc
    rcases eq_or_ne j i with rfl | hne
    · exact hhere j h.here fun _ => hpc
    · rw [hstepped.other j hne] at hpc
      exact hhere j (hs.inside j hpc) fun heq => absurd heq hne
  · intro hregistered
    rw [h.registered] at hregistered
    split at hregistered
    · rename_i hstopped
      exact hs.finished_of_stopped hstepped hstopped
    · exact hstepped.handlingFinished_of_finished (hs.registered hregistered)
  · intro hunanswered hopen
    rw [h.request] at hunanswered
    rw [h.readFlags]
    exact hs.notStale (Request.after_unanswered hunanswered) (writeOpen_before hstepped hopen)
  · intro hunanswered hopen events hevents
    rw [h.request] at hunanswered
    exact hs.armedOut (Request.after_unanswered hunanswered) (writeOpen_before hstepped hopen)
      events (harmed events hevents)
  · -- the only operation that disarms is the teardown, which needs both sides closed
    intro hopen hdisarmed
    have hbefore : s.armed = none := by
      rw [h.armed] at hdisarmed
      split at hdisarmed
      · rename_i hstopped
        exact absurd hopen (hs.finished_step hstepped (hs.finished_of_stopped hstepped hstopped))
      · exact hdisarmed
    obtain ⟨j, hj, hstays, howes⟩ := hs.owed_step hguard.1 h hopen hbefore
    exact ⟨j, hhere j hj hstays, howes⟩
  · -- a thread whose event is not counted has made no operation since
    intro j hdelivered
    rw [h.request] at hdelivered
    obtain ⟨hbefore, hother⟩ := Request.after_delivered hdelivered
    obtain ⟨hj, hout⟩ := hs.delivered j hbefore
    have hne : j ≠ i := by
      rintro rfl
      exact hother hout rfl
    exact ⟨hhere j hj fun heq => absurd heq hne, by rwa [hstepped.other j hne]⟩

omit [DecidableEq Thread] in
/-- The flags that are read have `handle_write` set while `write()` is to be
called. -/
theorem Tracked.flagsRead_step (hs : Tracked s) (hguard : AnswerableOperation s i result)
    (hfree : s.readFlags = none) (h : FlagsRead s t i) : Tracked t := by
  obtain rfl := h.eq
  exact
    { hs with
      notStale := by
        rintro hunanswered hopen held hheld
        obtain rfl := Option.some.inj hheld
        exact hguard.2.2 h.rearms hfree hunanswered hopen }

/-- While the write side is open `epoll_ctl` arms the descriptor. -/
theorem Tracked.armed_of_rearmed (hs : Tracked s) (hthrow : result ≠ .threw)
    (h : Rearmed s t i result) (hopen : WriteOpen t) :
    ∃ held ∈ s.readFlags, t.armed = some (held.handleRead, held.handleWrite) := by
  have hstepped := Handle.stepped_of_step h.handle
  have hbefore := writeOpen_before hstepped hopen
  -- both `epoll_del_fd_` and the reset of the handler need the write side closed
  have hregistered : s.registered = true := by
    by_contra hnot
    exact hs.finished (hs.registered (by simpa using hnot)) hbefore
  have hhandler : s.handle.holder.descriptorHandler = true := by
    by_contra hnull
    exact hs.finished (hs.serialized.handler (by simpa using hnull)) hbefore
  have hrelease : (t.handle.threads i).pc = .release := by
    rw [hstepped.self]
    cases hresult : result with
    | threw => exact absurd hresult hthrow
    | returned m =>
        simp [handleStep, h.rearms.1, h.rearms.2, hhandler, hregistered, HandleThread.afterCall,
          HandleThread.goto]
  obtain ⟨held, hheld, -, harmed⟩ := h.held
  exact ⟨held, hheld, by rw [harmed, if_pos hrelease]⟩

/-- A thread that rearms is not in the loop. -/
theorem Tracked.rearmed_serving (hs : Tracked s) (h : Rearmed s t i result) (hopen : WriteOpen t)
    {owner : Thread} (hserving : Serving s owner) :
    Serving t owner ∧ stepsToWrite (t.handle.threads owner).pc + (if i = owner then 1 else 0) ≤
      stepsToWrite (s.handle.threads owner).pc := by
  have hnotOwner : i ≠ owner := by
    rintro rfl
    have hloop := hserving.1
    simp [HandleThread.inLoop, h.rearms.1] at hloop
  exact hserving.step hs (fun heq => absurd heq hnotOwner) (by simp [h.rearms.1]) h.handle hopen

theorem Tracked.rearmed_step (hs : Tracked s) (hthrow : result ≠ .threw)
    (h : Rearmed s t i result) : Tracked t := by
  have hstepped := Handle.stepped_of_step h.handle
  have hpc := h.rearms.1
  refine
    { serialized := hs.serialized.step h.handle
      passes := hs.passes.step hs.serialized (fun hcall => by simp [hpc] at hcall) h.handle
      inside := ?_
      finishing := hs.finishing_step hstepped
      finished := hs.finished_step hstepped
      leaveRearms := hs.leaveRearms_step hstepped
      registered := ?_
      notStale := fun _ _ held hheld => by rw [h.readFlags] at hheld; cases hheld
      armedOut := ?_
      owed := ?_
      delivered := ?_
      counted := ?_ }
  · intro j hj
    rw [h.sameHere]
    rcases eq_or_ne j i with rfl | hne
    · exact h.here
    · rw [hstepped.other j hne] at hj
      exact hs.inside j hj
  · intro hregistered
    rw [h.registered] at hregistered
    exact hstepped.handlingFinished_of_finished (hs.registered hregistered)
  · -- `epoll_ctl` takes the flags that were read, and they are not stale
    intro hunanswered hopen events hevents
    obtain ⟨held, hheld, harmed⟩ := hs.armed_of_rearmed hthrow h hopen
    rw [harmed] at hevents
    obtain rfl := Option.some.inj hevents
    rw [h.request] at hunanswered
    exact hs.notStale hunanswered (writeOpen_before hstepped hopen) held hheld
  · intro hopen hdisarmed
    obtain ⟨held, -, harmed⟩ := hs.armed_of_rearmed hthrow h hopen
    rw [hdisarmed] at harmed
    cases harmed
  · intro j hdelivered
    rw [h.request] at hdelivered
    obtain ⟨hj, hout⟩ := hs.delivered j hdelivered
    have hne : j ≠ i := by
      rintro rfl
      rw [hpc] at hout
      cases hout
    exact ⟨by rwa [h.sameHere], by rwa [hstepped.other j hne]⟩
  · intro hunserved
    have hbefore : Unserved s :=
      ⟨h.request ▸ hunserved.1, writeOpen_before hstepped hunserved.2⟩
    obtain ⟨owner, hserving⟩ := hs.counted hbefore
    exact ⟨owner, (hs.rearmed_serving h hunserved.2 hserving).1⟩

end Operations

/-! ## Runs -/

theorem Tracked.step {s t : State Thread} {a : Action Thread} (hs : Tracked s)
    (hguard : Answerable s a) (hstep : Rearm.step s a = some t) : Tracked t := by
  cases a with
  | rearm handleRead handleWrite => exact hs.rearm_step hguard hstep
  | event i writable => exact hs.event_step hstep
  | handle i result =>
      rcases handling_cases hstep with ⟨hfree, h⟩ | h | h
      · exact hs.flagsRead_step hguard hfree h
      · exact hs.rearmed_step hguard.1 h
      · exact hs.operated_step hguard h

theorem tracked_of_reachable {s : State Thread} (hs : Reachable (system Thread) Answerable s) :
    Tracked s :=
  hs.invariant tracked_init fun _ _ _ h hguard hstep => h.step hguard hstep

omit [DecidableEq Thread] in
theorem Tracked.honoured {s : State Thread} (hs : Tracked s) : Honoured s where
  kept := by
    intro hunanswered hopen
    cases harmed : s.armed with
    | none => exact Or.inr ⟨rfl, hs.owed hopen harmed⟩
    | some events =>
        have hwrite := hs.armedOut hunanswered hopen events harmed
        exact Or.inl ⟨events.1, by rw [← hwrite]⟩
  delivered := hs.delivered
  counted := by
    intro hunserved
    obtain ⟨owner, hloop, -⟩ := hs.counted hunserved
    exact ⟨owner, hs.inside owner (Handle.ne_out_of_inLoop hloop), hloop⟩

/-- Calls of `rearm` and events do not touch the holder. -/
theorem handle_of_step {s t : State Thread} {a : Action Thread} (hstep : Rearm.step s a = some t)
    (ha : ∀ i result, a ≠ .handle i result) : t.handle = s.handle := by
  cases a with
  | handle i result => exact absurd rfl (ha i result)
  | rearm handleRead handleWrite =>
      simp only [Rearm.step, rearmStep] at hstep
      (repeat' split at hstep) <;> cases hstep <;> rfl
  | event i writable =>
      simp only [Rearm.step, eventStep] at hstep
      (repeat' split at hstep) <;> cases hstep <;> rfl

/-- While the event is not served, the thread that serves it comes closer to the
call of `write()` by its own operations, and the others do not hinder it. -/
theorem Tracked.serving_step {s t : State Thread} {a : Action Thread} {owner : Thread}
    (hs : Tracked s) (hguard : Answerable s a) (hserving : Serving s owner) (hbefore : Unserved s)
    (hstep : Rearm.step s a = some t) (hafter : Unserved t) :
    Serving t owner ∧ stepsToWrite (t.handle.threads owner).pc +
      (if operationOf owner a then 1 else 0) ≤ stepsToWrite (s.handle.threads owner).pc := by
  cases a with
  | rearm handleRead handleWrite =>
      have hsame := handle_of_step hstep (by simp)
      exact ⟨by rwa [Serving, hsame], by simp [hsame, operationOf]⟩
  | event i writable =>
      have hsame := handle_of_step hstep (by simp)
      exact ⟨by rwa [Serving, hsame], by simp [hsame, operationOf]⟩
  | handle i result =>
      rcases handling_cases hstep with ⟨-, h⟩ | h | h
      · have hnotOwner : i ≠ owner := by
          rintro rfl
          have hloop := hserving.1
          simp [HandleThread.inLoop, h.rearms.1] at hloop
        obtain rfl := h.eq
        exact ⟨hserving, by simp [operationOf, hnotOwner]⟩
      · simpa [operationOf] using hs.rearmed_serving h hafter.2 hserving
      · simpa [operationOf] using hs.operated_serving hguard h hbefore hafter hserving

omit [DecidableEq Thread] in
theorem Tracked.stepsToWrite_pos {s : State Thread} {owner : Thread} (hs : Tracked s)
    (hserving : Serving s owner) (hopen : WriteOpen s) :
    0 < stepsToWrite (s.handle.threads owner).pc := by
  have hloop := hserving.1
  unfold HandleThread.inLoop at hloop
  cases hpc : (s.handle.threads owner).pc <;> simp only [hpc] at hloop <;>
    simp only [stepsToWrite, Nat.zero_lt_succ]
  -- of the places in the loop only the mark of a finished holder is left
  exact absurd hopen (hs.finishing owner hpc)

theorem Tracked.leadsToWrite {s : State Thread} (hs : Tracked s) : LeadsToWrite s where
  enters := by
    intro i result t hdelivered hstep
    obtain ⟨-, hout⟩ := hs.delivered i hdelivered
    have hnot : ¬ rearms (s.handle.threads i) := by simp [rearms, hout]
    rcases handling_cases hstep with ⟨-, h⟩ | h | h
    · exact absurd h.rearms hnot
    · exact absurd h.rearms hnot
    · rw [h.request]
      simp [Request.after, hout, Request.entered, hdelivered]
  answered := by
    intro hunserved
    obtain ⟨owner, hserving⟩ := hs.counted hunserved
    refine ⟨owner, hserving.1, fun actions t hmeets hrun hall => ?_⟩
    -- the rank is the distance of `owner` from the call, and no other action raises it
    have hclose : ∀ (s : State Thread) a t, Tracked s ∧ Serving s owner → Unserved s →
        Answerable s a → (system Thread).step s a = some t → Unserved t →
        (Tracked t ∧ Serving t owner) ∧ stepsToWrite (t.handle.threads owner).pc +
          (if operationOf owner a then 1 else 0) ≤ stepsToWrite (s.handle.threads owner).pc := by
      rintro s a t ⟨hs, hserving⟩ hbefore hguard hstep hafter
      obtain ⟨hnext, hle⟩ := hs.serving_step hguard hserving hbefore hstep hafter
      exact ⟨⟨hs.step hguard hstep, hnext⟩, hle⟩
    obtain ⟨⟨hend, hservingEnd⟩, hcount⟩ :=
      Throughout.countP_add_rank_le hclose ⟨hs, hserving⟩ hmeets hrun hall
    have hpos := hend.stepsToWrite_pos hservingEnd (hall.last hrun).2
    have hle := stepsToWrite_le (s.handle.threads owner).pc
    omega

/-- In a run in which no call throws, `handle_` finds `handle_write` set whenever it
tests it for a request, and `rearm` is not called against a cleared flag that
`epoll_rearm_handler_` has read: every request is honoured, and the first writable
event after it leads to the call of `write()`. -/
theorem rearm_honoured {s : State Thread} (hs : Reachable (system Thread) Answerable s) :
    Honoured s ∧ LeadsToWrite s :=
  ⟨(tracked_of_reachable hs).honoured, (tracked_of_reachable hs).leadsToWrite⟩

/-- Operations of thread `()` whose calls return this mask. -/
def operations (count : Nat) (stateModify : UInt64) : List (Action Unit) :=
  List.replicate count (.handle () (.returned stateModify))

/-- A pass in which `write()` finds nothing to write, from the first event of a new
holder to the place where the flags are read for `epoll_ctl`. -/
def stoppedPass : List (Action Unit) :=
  .event () true :: operations 4 continueHandle ++ operations 5 stopWriteHandle

/-- `rearm(false, true)` behind a pass that left `handle_write` set: the thread that
got the writable event is on the way to `write()`. -/
theorem rearm_honoured_by_event :
    ∃ s, (system Unit).run (system Unit).init
        ([.event () true] ++ operations 11 continueHandle ++
          [.rearm false true, .event () true] ++ operations 2 continueHandle) = some s ∧
      Unserved s ∧ ∃ i, s.here i = true ∧ (s.handle.threads i).inLoop := by
  have hend : ((system Unit).run (system Unit).init
      ([.event () true] ++ operations 11 continueHandle ++
        [.rearm false true, .event () true] ++ operations 2 continueHandle)).map
        (fun s => decide (Unserved s)) = some true := by
    decide +kernel
  obtain ⟨s, hrun, hvalue⟩ := Option.map_eq_some_iff.mp hend
  have hunserved : Unserved s := of_decide_eq_true hvalue
  have hs : Reachable (system Unit) Answerable s := Reachable.init.of_run hrun (by decide +kernel)
  exact ⟨s, hrun, hunserved, (rearm_honoured hs).1.counted hunserved⟩

/-- Behind a pass that cleared `handle_write`, the writable event after
`rearm(false, true)` leads to a pass without `write()`.  And a `rearm(false, true)`
that comes between reading the flags and `epoll_ctl` at the end of that pass is
overwritten. -/
theorem rearm_ignored :
    (∃ s, (system Unit).run (system Unit).init
        (stoppedPass ++ operations 2 continueHandle ++ [.rearm false true, .event () true] ++
          operations 10 continueHandle) = some s ∧
      Unserved s ∧ (∀ i, s.here i = false) ∧ ¬ Honoured s) ∧
    ∃ s, (system Unit).run (system Unit).init
        (stoppedPass ++ [.rearm false true] ++ operations 2 continueHandle) = some s ∧
      s.request.unanswered = true ∧ WriteOpen s ∧ s.armed = some (true, false) ∧
      ¬ Honoured s := by
  have hfirst : ((system Unit).run (system Unit).init
      (stoppedPass ++ operations 2 continueHandle ++ [.rearm false true, .event () true] ++
        operations 10 continueHandle)).map
        (fun s => decide (Unserved s ∧ s.here () = false)) = some true := by
    decide +kernel
  have hsecond : ((system Unit).run (system Unit).init
      (stoppedPass ++ [.rearm false true] ++ operations 2 continueHandle)).map
        (fun s => decide (s.request.unanswered = true ∧ WriteOpen s ∧
          s.armed = some (true, false))) = some true := by
    decide +kernel
  obtain ⟨s, hs, hvalue⟩ := Option.map_eq_some_iff.mp hfirst
  obtain ⟨hunserved, hgone⟩ := of_decide_eq_true hvalue
  obtain ⟨t, ht, hvalue'⟩ := Option.map_eq_some_iff.mp hsecond
  obtain ⟨hunanswered, hopen, harmed⟩ := of_decide_eq_true hvalue'
  refine ⟨⟨s, hs, hunserved, fun _ => hgone, fun hhonoured => ?_⟩,
    t, ht, hunanswered, hopen, harmed, fun hhonoured => ?_⟩
  · obtain ⟨i, hhere, -⟩ := hhonoured.counted hunserved
    rw [hgone] at hhere
    cases hhere
  · rcases hhonoured.kept hunanswered hopen with ⟨handleRead, hout⟩ | ⟨hnone, -⟩
    · rw [harmed] at hout
      cases hout
    · rw [harmed] at hnone
      cases hnone

end Rearm
end LiteMQ
