import LiteMQ.Poller.HandleEvents
import LiteMQ.Poller.HandleTeardown

/-!
# The teardown of a holder happens once

The loop is left by `break` without the decrement, so `handle_in_progress` stays
positive, and `handling_finished` is set: no thread comes into the loop again.
`teardown_once` draws the conclusion for the log.  Each statement of the teardown
is executed at most once, the handler is not called behind `stopped()`, and a
pass that ends with both sides closed executes every statement.

The statements are numbered by `teardownPlace`.  A thread never goes back to a
smaller place, and `Behind k` says that all threads are past the place `k` of a
finished holder.
-/

namespace LiteMQ

/-- The number of the statement of the teardown that the thread executes next,
and `5` everywhere else. -/
def HandlePc.teardownPlace : HandlePc → Nat
  | .epollDel => 0
  | .stopped => 1
  | .reset => 2
  | .push => 3
  | .erase => 4
  | .out | .entered | .readSide | .applyRead _ | .writeSide | .applyWrite _ | .checkClosed
  | .finish | .leave | .rearm | .release | .unwound | .nullDereference
  | .assertionFailed => 5

/-- The number of the statement of the teardown that has this effect. -/
def HandleEffect.teardownPlace : HandleEffect → Option Nat
  | .epollDel => some 0
  | .callStopped => some 1
  | .resetHandler => some 2
  | .cleanerPush => some 3
  | .handlersErase => some 4
  | .callRead | .callWrite | .epollRearm _ _ | .cleanerRelease => none

/-- The effects of the statements of the teardown. -/
def teardown : List HandleEffect :=
  [.epollDel, .callStopped, .resetHandler, .cleanerPush, .handlersErase]

theorem exists_place_of_mem_teardown {effect : HandleEffect} (h : effect ∈ teardown) :
    ∃ place, effect.teardownPlace = some place := by
  simp only [teardown, List.mem_cons, List.not_mem_nil, or_false] at h
  rcases h with rfl | rfl | rfl | rfl | rfl <;> exact ⟨_, rfl⟩

theorem HandlePc.teardownPlace_le (pc : HandlePc) : pc.teardownPlace ≤ 5 := by
  cases pc <;> simp [teardownPlace]

theorem HandlePc.tearingDown_iff (pc : HandlePc) : pc.tearingDown ↔ pc.teardownPlace < 5 := by
  cases pc <;> simp [tearingDown, teardownPlace]

section Operations

variable {holder : DescriptorHandlerHolder} {thread : HandleThread} {result : CallResult}

/-- A thread that does not begin the teardown does not go back in it. -/
theorem teardownPlace_le_of_handleStep (hpc : thread.pc ≠ .finish) :
    thread.pc.teardownPlace ≤ (handleStep holder thread result).thread.pc.teardownPlace := by
  unfold handleStep
  cases hpc' : thread.pc <;> simp only
  case finish => exact absurd hpc' hpc
  all_goals
    (repeat' split) <;> cases result <;>
      simp_all [HandleThread.goto, HandleThread.afterCall, applyToHolder,
        HandlePc.teardownPlace]

/-- A statement of the teardown is executed by the thread at its place, which
goes on behind it. -/
theorem teardownPlace_of_effect {effect : HandleEffect} {place : Nat}
    (heffect : (handleStep holder thread result).effect = some effect)
    (hplace : effect.teardownPlace = some place) :
    thread.pc.teardownPlace = place ∧ thread.pc.tearingDown ∧
      place < (handleStep holder thread result).thread.pc.teardownPlace := by
  unfold handleStep at heffect ⊢
  cases hpc : thread.pc <;> simp only [hpc] at heffect ⊢
  all_goals
    (repeat' split at heffect) <;> cases result <;>
      simp_all [HandleThread.goto, HandleThread.afterCall, applyToHolder]
  all_goals
    subst heffect
    simp_all [HandleEffect.teardownPlace, HandlePc.teardownPlace, HandlePc.tearingDown] <;> omega

/-- Each statement of the teardown is executed, and the thread goes on to the
next one. -/
theorem handleStep_of_tearingDown (htear : thread.pc.tearingDown)
    (hhandler : thread.pc = .epollDel ∨ thread.pc = .stopped → holder.descriptorHandler = true)
    (hdel : thread.pc = .epollDel → result ≠ .threw) :
    (handleStep holder thread result).thread.pc.teardownPlace = thread.pc.teardownPlace + 1 ∧
      ∃ effect, (handleStep holder thread result).effect = some effect ∧
        effect.teardownPlace = some thread.pc.teardownPlace := by
  cases hpc : thread.pc with
  | epollDel =>
      cases hresult : result with
      | threw => exact absurd hresult (hdel hpc)
      | returned stateModify =>
          simp [handleStep, hpc, hhandler (Or.inl hpc), HandleThread.afterCall, HandleThread.goto,
            HandlePc.teardownPlace, HandleEffect.teardownPlace]
  | stopped =>
      simp [handleStep, hpc, hhandler (Or.inr hpc), HandleThread.goto, HandlePc.teardownPlace,
        HandleEffect.teardownPlace]
  | reset | push | erase =>
      simp [handleStep, hpc, HandleThread.goto, HandlePc.teardownPlace,
        HandleEffect.teardownPlace]
  | _ => simp [hpc, HandlePc.tearingDown] at htear

/-- A statement is known by its number. -/
theorem HandleEffect.teardownPlace_injective {effect effect' : HandleEffect} {place : Nat}
    (h : effect.teardownPlace = some place) (h' : effect'.teardownPlace = some place) :
    effect = effect' := by
  cases effect <;> cases effect' <;> simp_all [HandleEffect.teardownPlace] <;> omega

theorem HandleEffect.teardownPlace_lt {effect : HandleEffect} {place : Nat}
    (h : effect.teardownPlace = some place) : place < 5 := by
  cases effect <;> simp [HandleEffect.teardownPlace] at h <;> omega

end Operations

namespace Handle

open DescriptorHandler TransitionSystem

variable {Thread : Type*} [DecidableEq Thread]

/-- The holder is served by one thread, and nobody who needs the handler is left
when it is reset. -/
structure Torn (s : State Thread) : Prop where
  serialized : Serialized s
  resetDone : s.holder.descriptorHandler = false → ∀ i,
    (s.threads i).pc ≠ .epollDel ∧ (s.threads i).pc ≠ .stopped ∧ (s.threads i).pc ≠ .reset

theorem torn_init : Torn (system Thread).init :=
  ⟨serialized_init, fun h => by simp [system, DescriptorHandlerHolder.initial] at h⟩

theorem Torn.step {s t : State Thread} {a : Action Thread} (hs : Torn s)
    (hstep : Handle.step s a = some t) : Torn t :=
  ⟨hs.serialized.step hstep, resetDone_step hs.serialized hs.resetDone (stepped_of_step hstep)⟩

/-- The holder is finished, and all threads are past the statement `place` of the
teardown. -/
def Behind (place : Nat) (s : State Thread) : Prop :=
  s.holder.handlingFinished = true ∧ ∀ i, place < (s.threads i).pc.teardownPlace

omit [DecidableEq Thread] in
/-- No thread goes back in the teardown of a finished holder. -/
theorem Torn.teardownPlace_le {s t : State Thread} {a : Action Thread} (hs : Torn s)
    (h : Stepped s t a) (hfinished : s.holder.handlingFinished = true) (i : Thread) :
    (s.threads i).pc.teardownPlace ≤ (t.threads i).pc.teardownPlace := by
  rcases eq_or_ne i a.thread with rfl | hne
  · rw [h.self]
    apply teardownPlace_le_of_handleStep
    -- the mark is set in the loop, where nobody is in a finished holder
    intro hpc
    exact (hs.serialized.finished hfinished).2 a.thread (by simp [HandleThread.inLoop, hpc])
  · rw [h.other i hne]

omit [DecidableEq Thread] in
/-- Behind a statement all threads stay behind it. -/
theorem Behind.step {place : Nat} {s t : State Thread} {a : Action Thread}
    (hbehind : Behind place s) (hs : Torn s) (h : Stepped s t a) : Behind place t := by
  refine ⟨h.handlingFinished_of_finished hbehind.1, fun i => ?_⟩
  exact Nat.lt_of_lt_of_le (hbehind.2 i) (hs.teardownPlace_le h hbehind.1 i)

omit [DecidableEq Thread] in
/-- A statement of the teardown leaves all threads behind it: nobody else tears
the holder down. -/
theorem Torn.behind_of_effect {s t : State Thread} {a : Action Thread} (hs : Torn s)
    (h : Stepped s t a) {effect : HandleEffect} {place : Nat}
    (hplace : effect.teardownPlace = some place)
    (heffect : observe s a = some (.effect effect)) : Behind place t := by
  obtain ⟨-, htear, hlt⟩ := teardownPlace_of_effect (effect_of_observe heffect) hplace
  have hfinished := hs.serialized.tearing a.thread htear
  refine ⟨h.handlingFinished_of_finished hfinished, fun i => ?_⟩
  rcases eq_or_ne i a.thread with rfl | hne
  · rw [h.self]
    exact hlt
  · rw [h.other i hne]
    -- a thread that is not behind the statement would be a second one in the teardown
    by_contra hnot
    have hle := (handleStep s.holder (s.threads a.thread) a.result).thread.pc.teardownPlace_le
    have hother : (s.threads i).pc.tearingDown := by
      rw [HandlePc.tearingDown_iff]
      omega
    exact hne (hs.serialized.single i a.thread (Or.inr hother) (Or.inr htear))

omit [DecidableEq Thread] in
/-- Behind a statement it is not executed. -/
theorem Behind.not_effect {place : Nat} {s : State Thread} {a : Action Thread}
    (hbehind : Behind place s) {effect : HandleEffect}
    (hplace : effect.teardownPlace = some place) : observe s a ≠ some (.effect effect) := by
  intro heffect
  have hhere := (teardownPlace_of_effect (effect_of_observe heffect) hplace).1
  have hlt := hbehind.2 a.thread
  omega

omit [DecidableEq Thread] in
/-- The handler of a finished holder is neither read nor written. -/
theorem Torn.not_called {s : State Thread} (hs : Torn s)
    (hfinished : s.holder.handlingFinished = true) (a : Action Thread) :
    observe s a ≠ some (.effect .callRead) ∧ observe s a ≠ some (.effect .callWrite) := by
  have hloop := (hs.serialized.finished hfinished).2 a.thread
  constructor
  · intro hcall
    have hpc := (callRead_of_handleStep (effect_of_observe hcall)).1
    exact hloop (by simp [HandleThread.inLoop, hpc])
  · intro hcall
    have hpc := (callWrite_of_handleStep (effect_of_observe hcall)).1
    exact hloop (by simp [HandleThread.inLoop, hpc])

/-! ## A pass that ends with both sides closed -/

/-- `epoll_ctl` deletes the descriptor, which is registered. -/
def DelSucceeds (s : State Thread) (a : Action Thread) : Prop :=
  (s.threads a.thread).pc = .epollDel → a.result ≠ .threw

instance (s : State Thread) (a : Action Thread) : Decidable (DelSucceeds s a) :=
  inferInstanceAs (Decidable (_ → _))

/-- The operations that the thread is away from the end of the teardown. -/
def teardownLeft (pc : HandlePc) : Nat :=
  if pc = .checkClosed then 7 else if pc = .finish then 6 else 5 - pc.teardownPlace

/-- The thread has ended a pass with both sides closed, and has executed the
statements of the teardown up to its place. -/
structure Closes (closer : Thread) (s : Logged (State Thread) HandleEvent) : Prop where
  torn : Torn s.state
  phase : (s.state.threads closer).pc = .checkClosed ∧
        s.state.holder.flags.readClosed = true ∧ s.state.holder.flags.writeClosed = true ∨
      (s.state.threads closer).pc = .finish ∨
      s.state.holder.handlingFinished = true ∧
        ∀ effect place, effect.teardownPlace = some place →
          place < (s.state.threads closer).pc.teardownPlace → .effect effect ∈ s.log

/-- A step of another thread does not touch the flags before the teardown, nor
what was logged. -/
theorem Closes.step_other {closer : Thread} {s t : Logged (State Thread) HandleEvent}
    {a : Action Thread} (hs : Closes closer s) (hne : a.thread ≠ closer)
    (hstep : (events Thread).step s a = some t) :
    Closes closer t ∧ (t.state.threads closer).pc = (s.state.threads closer).pc := by
  obtain ⟨hsystem, hlog⟩ := logged_step_eq_some.mp hstep
  have h := stepped_of_step hsystem
  have hsame := h.other closer hne.symm
  refine ⟨⟨hs.torn.step hsystem, ?_⟩, by rw [hsame]⟩
  rw [hsame]
  rcases hs.phase with ⟨hpc, hread, hwrite⟩ | hpc | ⟨hfinished, hdone⟩
  · left
    -- a mask is applied in the loop, where the closing thread is alone
    have hnone : (s.state.threads a.thread).pc.applying = none := by
      cases happlying : (s.state.threads a.thread).pc.applying with
      | none => rfl
      | some stateModify =>
          have hcloser : (s.state.threads closer).inLoop := by simp [HandleThread.inLoop, hpc]
          exact absurd (hs.torn.serialized.single _ _ (Or.inl (inLoop_of_applying happlying))
            (Or.inl hcloser)) hne
    rw [h.flags_of_none hnone]
    exact ⟨hpc, hread, hwrite⟩
  · exact Or.inr (Or.inl hpc)
  · refine Or.inr (Or.inr ⟨h.handlingFinished_of_finished hfinished, ?_⟩)
    intro effect place hplace hlt
    rw [hlog]
    exact List.mem_append_left _ (hdone effect place hplace hlt)

omit [DecidableEq Thread] in
/-- No thread is in front of the mark of a finished holder. -/
theorem Torn.teardownLeft_of_finished {s : State Thread} (hs : Torn s)
    (hfinished : s.holder.handlingFinished = true) (i : Thread) :
    teardownLeft (s.threads i).pc = 5 - (s.threads i).pc.teardownPlace := by
  have hloop := (hs.serialized.finished hfinished).2 i
  unfold teardownLeft
  rw [if_neg, if_neg]
  · exact fun hpc => hloop (by simp [HandleThread.inLoop, hpc])
  · exact fun hpc => hloop (by simp [HandleThread.inLoop, hpc])

/-- Behind the mark the closing thread executes the statement at its place, if it
is not through with them. -/
theorem Torn.step_finished {s t : Logged (State Thread) HandleEvent} {a : Action Thread}
    (hs : Torn s.state) (hdel : DelSucceeds s.state a)
    (hstep : (events Thread).step s a = some t)
    (hfinished : s.state.holder.handlingFinished = true)
    (hdone : ∀ effect place, effect.teardownPlace = some place →
      place < (s.state.threads a.thread).pc.teardownPlace → .effect effect ∈ s.log) :
    Closes a.thread t ∧ teardownLeft (t.state.threads a.thread).pc ≤
      teardownLeft (s.state.threads a.thread).pc - 1 := by
  obtain ⟨hsystem, hlog⟩ := logged_step_eq_some.mp hstep
  have h := stepped_of_step hsystem
  have htorn := hs.step hsystem
  have hfinished' := h.handlingFinished_of_finished hfinished
  rw [htorn.teardownLeft_of_finished hfinished', hs.teardownLeft_of_finished hfinished]
  by_cases htear : (s.state.threads a.thread).pc.tearingDown
  · have hhandler : (s.state.threads a.thread).pc = .epollDel ∨
        (s.state.threads a.thread).pc = .stopped → s.state.holder.descriptorHandler = true := by
      intro hpc
      by_contra hnull
      obtain ⟨hnotDel, hnotStopped, -⟩ := hs.resetDone (by simpa using hnull) a.thread
      exact hpc.elim hnotDel hnotStopped
    obtain ⟨hplace', effect', heffect, heffectPlace⟩ :=
      handleStep_of_tearingDown htear hhandler hdel
    rw [← h.self] at hplace'
    refine ⟨⟨htorn, Or.inr (Or.inr ⟨hfinished', ?_⟩)⟩, by omega⟩
    intro effect place hplace hlt
    rw [hlog, List.mem_append]
    -- the statement was executed before, or is the one of this step
    rcases Nat.lt_succ_iff_lt_or_eq.mp (hplace' ▸ hlt) with hbefore | hhere
    · exact Or.inl (hdone effect place hplace hbefore)
    · right
      subst hhere
      rw [HandleEffect.teardownPlace_injective hplace heffectPlace, observe_of_effect heffect]
      simp
  · -- it is through with the teardown, and everything is in the log
    have hall := hs.teardownPlace_le h hfinished a.thread
    rw [HandlePc.tearingDown_iff] at htear
    refine ⟨⟨htorn, Or.inr (Or.inr ⟨hfinished', ?_⟩)⟩, by omega⟩
    intro effect place hplace _
    rw [hlog]
    have hlt := HandleEffect.teardownPlace_lt hplace
    exact List.mem_append_left _ (hdone effect place hplace (by omega))

/-- A step of the closing thread executes the next statement. -/
theorem Closes.step_closer {s t : Logged (State Thread) HandleEvent} {a : Action Thread}
    (hs : Closes a.thread s) (hdel : DelSucceeds s.state a)
    (hstep : (events Thread).step s a = some t) :
    Closes a.thread t ∧ teardownLeft (t.state.threads a.thread).pc ≤
      teardownLeft (s.state.threads a.thread).pc - 1 := by
  have hsystem := (logged_step_eq_some.mp hstep).1
  have h := stepped_of_step hsystem
  have htorn := hs.torn.step hsystem
  rcases hs.phase with ⟨hpc, hread, hwrite⟩ | hpc | ⟨hfinished, hdone⟩
  · have hnext : (t.state.threads a.thread).pc = .finish := by
      rw [h.self]
      simp [handleStep, hpc, hread, hwrite, HandleThread.goto]
    refine ⟨⟨htorn, Or.inr (Or.inl hnext)⟩, ?_⟩
    simp [hnext, hpc, teardownLeft]
  · have hnext : (t.state.threads a.thread).pc = .epollDel := by
      rw [h.self]
      simp [handleStep, hpc, HandleThread.goto]
    refine ⟨⟨htorn, Or.inr (Or.inr ⟨by rw [h.handlingFinished, if_pos hpc], ?_⟩)⟩, ?_⟩
    · intro effect place _ hlt
      simp [hnext, HandlePc.teardownPlace] at hlt
    · simp [hnext, hpc, teardownLeft, HandlePc.teardownPlace]
  · exact hs.torn.step_finished hdel hstep hfinished hdone

/-! ## Runs -/

/-- Each statement of the teardown is executed at most once. -/
theorem teardown_at_most_once {s : Logged (State Thread) HandleEvent}
    (hs : Reachable (events Thread) unguarded s) {effect : HandleEffect} {place : Nat}
    (hplace : effect.teardownPlace = some place) : s.log.count (.effect effect) ≤ 1 := by
  apply count_le_one_of_pairwise
  refine hs.never_after (Behind place) torn_init (fun _ _ _ h _ hstep => h.step hstep) ?_ ?_ ?_
  · intro s a t event h _ hstep hevent hraises
    subst hraises
    exact h.behind_of_effect (stepped_of_step hstep) hplace hevent
  · intro s a t h _ hstep hbehind
    exact hbehind.step h (stepped_of_step hstep)
  · intro s a t event _ _ _ hbehind hevent hagain
    subst hagain
    exact hbehind.not_effect hplace hevent

/-- Behind `stopped()` the handler is not called. -/
theorem stopped_is_final {s : Logged (State Thread) HandleEvent}
    (hs : Reachable (events Thread) unguarded s) :
    s.log.Pairwise fun earlier later => earlier = .effect .callStopped →
      ¬ (later = .effect .callRead ∨ later = .effect .callWrite ∨
        later = .effect .callStopped) := by
  refine hs.never_after (Behind 1) torn_init (fun _ _ _ h _ hstep => h.step hstep) ?_ ?_ ?_
  · intro s a t event h _ hstep hevent hraises
    subst hraises
    exact h.behind_of_effect (stepped_of_step hstep) rfl hevent
  · intro s a t h _ hstep hbehind
    exact hbehind.step h (stepped_of_step hstep)
  · intro s a t event h _ _ hbehind hevent hcalled
    obtain ⟨hread, hwrite⟩ := h.not_called hbehind.1 a
    rcases hcalled with rfl | rfl | rfl
    · exact hread hevent
    · exact hwrite hevent
    · exact hbehind.not_effect rfl hevent

/-- A thread that ended a pass with both sides closed has executed every
statement of the teardown after seven more operations. -/
theorem teardown_after_close {s t : Logged (State Thread) HandleEvent} {closer : Thread}
    (hs : Closes closer s) {actions : List (Action Thread)}
    (hmeets : Meets (events Thread) (fun u a => DelSucceeds u.state a) s actions)
    (hrun : (events Thread).run s actions = some t)
    (henough : 7 ≤ actions.countP (fun a => a.thread = closer)) {effect : HandleEffect}
    (heffect : effect ∈ teardown) : .effect effect ∈ t.log := by
  have hmost : teardownLeft (s.state.threads closer).pc ≤ 7 := by
    unfold teardownLeft
    split
    · omega
    · split <;> omega
  obtain ⟨hend, hnone⟩ := @run_rank_eq_zero _ _ (events Thread)
    (fun u a => DelSucceeds u.state a) (Closes closer)
    (fun u => teardownLeft (u.state.threads closer).pc) (fun a => a.thread = closer)
    (fun u a v h hdel hstep => by
      by_cases hmine : a.thread = closer
      · subst hmine
        exact (h.step_closer hdel hstep).1
      · exact (h.step_other hmine hstep).1)
    (fun u a v h hdel hmine hstep => by
      obtain rfl : a.thread = closer := by simpa using hmine
      exact (h.step_closer hdel hstep).2)
    (fun u a v h _ hother hstep => by
      have hne : a.thread ≠ closer := by simpa using hother
      exact Nat.le_of_eq (congrArg teardownLeft (h.step_other hne hstep).2))
    s t hs actions hmeets hrun (Nat.le_trans hmost henough)
  rcases hend.phase with ⟨hpc, -, -⟩ | hpc | ⟨-, hdone⟩
  · simp [hpc, teardownLeft] at hnone
  · simp [hpc, teardownLeft] at hnone
  · obtain ⟨place, hplace⟩ := exists_place_of_mem_teardown heffect
    have hlt := HandleEffect.teardownPlace_lt hplace
    refine hdone effect place hplace ?_
    unfold teardownLeft at hnone
    split at hnone
    · omega
    · split at hnone <;> omega

/-- In every run each statement of the teardown is executed at most once, and
the handler is not called behind `stopped()`.  From the moment on at which a pass
ends with both sides closed, every run in which its thread makes seven more
operations has executed each of them exactly once. -/
theorem teardown_once {s : Logged (State Thread) HandleEvent}
    (hs : Reachable (events Thread) unguarded s) :
    (∀ effect ∈ teardown, s.log.count (.effect effect) ≤ 1) ∧
      (s.log.Pairwise fun earlier later => earlier = .effect .callStopped →
        ¬ (later = .effect .callRead ∨ later = .effect .callWrite ∨
          later = .effect .callStopped)) ∧
      ∀ closer, (s.state.threads closer).pc = .checkClosed →
        s.state.holder.flags.readClosed = true → s.state.holder.flags.writeClosed = true →
        ∀ actions t, Meets (events Thread) (fun u a => DelSucceeds u.state a) s actions →
          (events Thread).run s actions = some t →
          7 ≤ actions.countP (fun a => a.thread = closer) →
          ∀ effect ∈ teardown, t.log.count (.effect effect) = 1 := by
  refine ⟨?_, stopped_is_final hs, ?_⟩
  · intro effect heffect
    obtain ⟨place, hplace⟩ := exists_place_of_mem_teardown heffect
    exact teardown_at_most_once hs hplace
  · intro closer hpc hread hwrite actions t hmeets hrun henough effect heffect
    have htorn : Torn s.state := hs.state_invariant torn_init fun _ _ _ h _ hstep => h.step hstep
    have hcloses : Closes closer s := ⟨htorn, Or.inl ⟨hpc, hread, hwrite⟩⟩
    obtain ⟨place, hplace⟩ := exists_place_of_mem_teardown heffect
    have hmost := teardown_at_most_once (hs.of_run hrun (meets_unguarded _ _)) hplace
    have hleast := List.count_pos_iff.mpr
      (teardown_after_close hcloses hmeets hrun henough heffect)
    omega

/-- Thread `1` delivers an event while thread `0` is in the pass that closes both
sides, and comes back for another one after the teardown. -/
theorem teardown_once_with_events :
    ∃ s t, (events (Fin 2)).run (events (Fin 2)).init
        (List.replicate 6 ⟨0, .returned (closeReadHandle ||| closeWriteHandle)⟩ ++
          [⟨1, .returned continueHandle⟩]) = some s ∧
      (s.state.threads 0).pc = .checkClosed ∧
      (events (Fin 2)).run s
        (List.replicate 9 ⟨0, .returned continueHandle⟩ ++
          List.replicate 7 ⟨1, .returned continueHandle⟩) = some t ∧
      (t.state.threads 1).pc = .out ∧
      ∀ effect ∈ teardown, t.log.count (.effect effect) = 1 := by
  have hend : (((events (Fin 2)).run (events (Fin 2)).init
      (List.replicate 6 ⟨0, .returned (closeReadHandle ||| closeWriteHandle)⟩ ++
        [⟨1, .returned continueHandle⟩])).bind fun s =>
      ((events (Fin 2)).run s
        (List.replicate 9 ⟨0, .returned continueHandle⟩ ++
          List.replicate 7 ⟨1, .returned continueHandle⟩)).map fun t =>
        decide ((s.state.threads 0).pc = .checkClosed ∧
          s.state.holder.flags.readClosed = true ∧ s.state.holder.flags.writeClosed = true ∧
          (t.state.threads 1).pc = .out ∧
          Meets (events (Fin 2)) (fun u a => DelSucceeds u.state a) s
            (List.replicate 9 ⟨0, .returned continueHandle⟩ ++
              List.replicate 7 ⟨1, .returned continueHandle⟩))) = some true := by
    decide +kernel
  obtain ⟨s, hs, hrest⟩ := Option.bind_eq_some_iff.mp hend
  obtain ⟨t, ht, hvalues⟩ := Option.map_eq_some_iff.mp hrest
  obtain ⟨hpc, hread, hwrite, hout, hmeets⟩ := of_decide_eq_true hvalues
  have hreach : Reachable (events (Fin 2)) unguarded s :=
    Reachable.init.of_run hs (meets_unguarded _ _)
  exact ⟨s, t, hs, hpc, ht, hout,
    (teardown_once hreach).2.2 0 hpc hread hwrite _ t hmeets ht (by decide)⟩

end Handle
end LiteMQ
