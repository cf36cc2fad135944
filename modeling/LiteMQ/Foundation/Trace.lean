import LiteMQ.Foundation.TransitionSystem
import Mathlib.Data.List.Count

/-!
# Runs with a log

`logged` runs a system and records what can be observed of its steps:
`emit s a` is the entry of the step `a` in `s`, if there is one.  The log grows
at its end, so the order of its entries is the order of the steps.

A law that forbids something from some moment on is a `List.Pairwise` of the
log.  `never_after` reduces it to facts about one step: the first entry raises
a flag of the state, the flag is not lowered, and while it is up the forbidden
entry is not emitted.
-/

namespace TransitionSystem

variable {State : Type*} {Action : Type*} {Entry : Type*}

/-- A state and the log of the run that led to it. -/
structure Logged (State : Type*) (Entry : Type*) where
  state : State
  log : List Entry

/-- The system that runs `system` and logs what `emit` observes. -/
def logged (system : TransitionSystem State Action) (emit : State → Action → Option Entry) :
    TransitionSystem (Logged State Entry) Action :=
  ⟨⟨system.init, []⟩, fun s a =>
    (system.step s.state a).map fun t => ⟨t, s.log ++ (emit s.state a).toList⟩⟩

variable {system : TransitionSystem State Action} {emit : State → Action → Option Entry}
  {guard : Logged State Entry → Action → Prop}

/-- A logged step is a step of the system that appends its entry. -/
theorem logged_step_eq_some {s t : Logged State Entry} {a : Action} :
    (system.logged emit).step s a = some t ↔
      system.step s.state a = some t.state ∧ t.log = s.log ++ (emit s.state a).toList := by
  unfold logged
  rw [Option.map_eq_some_iff]
  constructor
  · rintro ⟨u, hstep, rfl⟩
    exact ⟨hstep, rfl⟩
  · rintro ⟨hstep, hlog⟩
    exact ⟨t.state, hstep, by rw [← hlog]⟩

/-- An entry of the log is older than the last step, or it is what that step
emitted. -/
theorem mem_log_of_step {s t : Logged State Entry} {a : Action} {entry : Entry}
    (hstep : (system.logged emit).step s a = some t) (hmem : entry ∈ t.log) :
    entry ∈ s.log ∨ emit s.state a = some entry := by
  rw [(logged_step_eq_some.mp hstep).2, List.mem_append] at hmem
  apply hmem.imp_right
  intro hnew
  simpa using hnew

/-- What the states of the system keep, the logged states keep. -/
theorem Reachable.state_invariant {inv : State → Prop} (hinit : inv system.init)
    (hinv : ∀ s a t, inv s.state → guard s a → system.step s.state a = some t → inv t)
    {s : Logged State Entry} (hs : Reachable (system.logged emit) guard s) : inv s.state := by
  induction hs with
  | init => exact hinit
  | step _ hguard hstep ih => exact hinv _ _ _ ih hguard (logged_step_eq_some.mp hstep).1

/-- What every step emits holds of every entry of the log. -/
theorem Reachable.forall_log {inv : State → Prop} {property : Entry → Prop}
    (hinit : inv system.init)
    (hinv : ∀ s a t, inv s.state → guard s a → system.step s.state a = some t → inv t)
    (hemit : ∀ s a t entry, inv s.state → guard s a → system.step s.state a = some t →
      emit s.state a = some entry → property entry)
    {s : Logged State Entry} (hs : Reachable (system.logged emit) guard s) :
    ∀ entry ∈ s.log, property entry := by
  induction hs with
  | init => simp [logged]
  | step hs hguard hstep ih =>
      intro entry hmem
      have hbefore := hs.state_invariant hinit hinv
      rcases mem_log_of_step hstep hmem with hold | hnew
      · exact ih entry hold
      · exact hemit _ _ _ entry hbefore hguard (logged_step_eq_some.mp hstep).1 hnew

/-- A flag that an entry raises and no step lowers is up when the entry is in
the log. -/
theorem Reachable.flag_of_mem {inv : State → Prop} (flag : State → Prop)
    {raises : Entry → Prop} (hinit : inv system.init)
    (hinv : ∀ s a t, inv s.state → guard s a → system.step s.state a = some t → inv t)
    (hraise : ∀ s a t entry, inv s.state → guard s a → system.step s.state a = some t →
      emit s.state a = some entry → raises entry → flag t)
    (hkept : ∀ s a t, inv s.state → guard s a → system.step s.state a = some t →
      flag s.state → flag t)
    {s : Logged State Entry} (hs : Reachable (system.logged emit) guard s) :
    ∀ entry ∈ s.log, raises entry → flag s.state := by
  induction hs with
  | init => simp [logged]
  | step hs hguard hstep ih =>
      intro entry hmem hraises
      have hbefore := hs.state_invariant hinit hinv
      have hsystem := (logged_step_eq_some.mp hstep).1
      rcases mem_log_of_step hstep hmem with hold | hnew
      · exact hkept _ _ _ hbefore hguard hsystem (ih entry hold hraises)
      · exact hraise _ _ _ entry hbefore hguard hsystem hnew hraises

/-- **Never after.**  What is not emitted while a flag is up never comes after
an entry that raises the flag. -/
theorem Reachable.never_after {inv : State → Prop} (flag : State → Prop)
    {raises forbidden : Entry → Prop} (hinit : inv system.init)
    (hinv : ∀ s a t, inv s.state → guard s a → system.step s.state a = some t → inv t)
    (hraise : ∀ s a t entry, inv s.state → guard s a → system.step s.state a = some t →
      emit s.state a = some entry → raises entry → flag t)
    (hkept : ∀ s a t, inv s.state → guard s a → system.step s.state a = some t →
      flag s.state → flag t)
    (hforbidden : ∀ s a t entry, inv s.state → guard s a → system.step s.state a = some t →
      flag s.state → emit s.state a = some entry → ¬ forbidden entry)
    {s : Logged State Entry} (hs : Reachable (system.logged emit) guard s) :
    s.log.Pairwise fun earlier later => raises earlier → ¬ forbidden later := by
  induction hs with
  | init => exact List.Pairwise.nil
  | step hs hguard hstep ih =>
      have hbefore := hs.state_invariant hinit hinv
      obtain ⟨hsystem, hlog⟩ := logged_step_eq_some.mp hstep
      rw [hlog, List.pairwise_append]
      refine ⟨ih, ?_, ?_⟩
      · cases emit _ _ <;> simp
      · intro earlier hearlier later hlater hraises
        have hflag := hs.flag_of_mem flag hinit hinv hraise hkept earlier hearlier hraises
        exact hforbidden _ _ _ later hbefore hguard hsystem hflag (by simpa using hlater)

/-- An entry that forbids itself is in the log once at most. -/
theorem count_le_one_of_pairwise [DecidableEq Entry] {entry : Entry} {log : List Entry}
    (h : log.Pairwise fun earlier later => earlier = entry → ¬ later = entry) :
    log.count entry ≤ 1 := by
  induction log with
  | nil => simp
  | cons first rest ih =>
      obtain ⟨hfirst, hrest⟩ := List.pairwise_cons.mp h
      rw [List.count_cons]
      split
      · rename_i heq
        have hnone : rest.count entry = 0 := by
          rw [List.count_eq_zero]
          intro hmem
          exact hfirst entry hmem (by simpa using heq) rfl
        omega
      · exact ih hrest

end TransitionSystem
