import LiteMQ.Foundation.Trace
import Mathlib.Logic.Function.Basic

/-!
# Linearizability

An atomic object does each operation at once.  Its clients call an operation, the object
performs it at some moment, and the client returns with the result.  What can be seen of
a run is its history, the calls and the returns.

A concurrent implementation is linearizable when each of its histories is one of the
atomic object.  `Reachable.simulated_log` is the simulation argument for logs in general;
`simulated_of_steps` asks of one step of the implementation that it changes nothing
which the object and its clients see, or that it is a call, the moment of one operation,
or a return.
-/

namespace TransitionSystem

variable {State State' : Type*} {Action Action' : Type*} {Entry : Type*}
  {system : TransitionSystem State Action} {system' : TransitionSystem State' Action'}
  {emit : State → Action → Option Entry} {emit' : State' → Action' → Option Entry}

/-- **Simulation of logs.**  When each step of one system is silent and leads to a related
state, or is matched by a step of the other system that emits the same, then every log of
the first is a log of the second. -/
theorem Reachable.simulated_log {guard : Logged State Entry → Action → Prop}
    (rel : State → State' → Prop) (hinit : rel system.init system'.init)
    (hstep : ∀ (s : Logged State Entry) (a : Action) (t : State) (s' : State'),
      rel s.state s' → guard s a → system.step s.state a = some t →
      (emit s.state a = none ∧ rel t s') ∨
        ∃ a' t', system'.step s' a' = some t' ∧ emit' s' a' = emit s.state a ∧ rel t t')
    {s : Logged State Entry} (hs : Reachable (system.logged emit) guard s) :
    ∃ s', Reachable (system'.logged emit') unguarded s' ∧ s'.log = s.log ∧
      rel s.state s'.state := by
  induction hs with
  | init => exact ⟨(system'.logged emit').init, .init, rfl, hinit⟩
  | @step s t a _ hguard hst ih =>
      obtain ⟨s', hreach, hlog, hrel⟩ := ih
      obtain ⟨hsystem, ht⟩ := logged_step_eq_some.mp hst
      rcases hstep s a t.state s'.state hrel hguard hsystem with
        ⟨hsilent, hrel'⟩ | ⟨a', t', hst', hemit, hrel'⟩
      · refine ⟨s', hreach, ?_, hrel'⟩
        rw [ht, hsilent, hlog, Option.toList_none, List.append_nil]
      · have hnext : (system'.logged emit').step s' a' =
            some ⟨t', s'.log ++ (emit' s'.state a').toList⟩ :=
          logged_step_eq_some.mpr ⟨hst', rfl⟩
        refine ⟨_, .step hreach trivial hnext, ?_, hrel'⟩
        rw [ht, hemit, hlog]

end TransitionSystem

/-- An object whose operations are done at once: `perform v op r` is the value after `op`
with the result `r`, and `none` when the object cannot answer `r` now. -/
structure AtomicObject (Value : Type*) (Op : Type*) (Result : Type*) where
  init : Value
  perform : Value → Op → Result → Option Value

namespace AtomicObject

open TransitionSystem

/-- Where a client stands. -/
inductive Status (Op : Type*) (Result : Type*)
  | idle
  /-- it has called the operation -/
  | pending (op : Op)
  /-- the operation is done, and its client has not returned -/
  | performed (op : Op) (result : Result)
  deriving DecidableEq, Repr

/-- What can be seen of the clients. -/
inductive Event (Thread : Type*) (Op : Type*) (Result : Type*)
  | call (thread : Thread) (op : Op)
  | ret (thread : Thread) (op : Op) (result : Result)
  deriving DecidableEq, Repr

/-- The object and its clients. -/
structure State (Thread : Type*) (Value : Type*) (Op : Type*) (Result : Type*) where
  value : Value
  status : Thread → Status Op Result

inductive Action (Thread : Type*) (Op : Type*) (Result : Type*)
  | call (thread : Thread) (op : Op)
  | perform (thread : Thread) (result : Result)
  | ret (thread : Thread)

variable {Thread : Type*} [DecidableEq Thread] {Value : Type*} {Op : Type*} {Result : Type*}
  (object : AtomicObject Value Op Result)

def step (s : State Thread Value Op Result) :
    Action Thread Op Result → Option (State Thread Value Op Result)
  | .call i op =>
      match s.status i with
      | .idle => some { s with status := Function.update s.status i (.pending op) }
      | .pending _ | .performed _ _ => none
  | .perform i result =>
      match s.status i with
      | .pending op =>
          (object.perform s.value op result).map fun value =>
            ⟨value, Function.update s.status i (.performed op result)⟩
      | .idle | .performed _ _ => none
  | .ret i =>
      match s.status i with
      | .performed _ _ => some { s with status := Function.update s.status i .idle }
      | .idle | .pending _ => none

/-- The object under any interleaving of its clients. -/
def system (Thread : Type*) [DecidableEq Thread] (object : AtomicObject Value Op Result) :
    TransitionSystem (State Thread Value Op Result) (Action Thread Op Result) :=
  ⟨⟨object.init, fun _ => .idle⟩, step object⟩

omit [DecidableEq Thread] in
/-- What is seen of a step. -/
def event (s : State Thread Value Op Result) :
    Action Thread Op Result → Option (Event Thread Op Result)
  | .call i op => some (.call i op)
  | .perform _ _ => none
  | .ret i =>
      match s.status i with
      | .performed op result => some (.ret i op result)
      | .idle | .pending _ => none

variable {object}

/-- What a step of the atomic object is. -/
theorem step_cases {s t : State Thread Value Op Result}
    {a : Action Thread Op Result} (h : step object s a = some t) :
    (∃ i op, a = .call i op ∧ s.status i = .idle ∧
      t = { s with status := Function.update s.status i (.pending op) }) ∨
    (∃ i op result value, a = .perform i result ∧ s.status i = .pending op ∧
      object.perform s.value op result = some value ∧
      t = ⟨value, Function.update s.status i (.performed op result)⟩) ∨
    ∃ i op result, a = .ret i ∧ s.status i = .performed op result ∧
      t = { s with status := Function.update s.status i .idle } := by
  cases a with
  | call i op =>
      cases hstatus : s.status i <;> simp only [step, hstatus, reduceCtorEq] at h
      exact Or.inl ⟨i, op, rfl, hstatus, (Option.some.inj h).symm⟩
  | perform i result =>
      cases hstatus : s.status i <;> simp only [step, hstatus, reduceCtorEq] at h
      obtain ⟨value, hvalue, rfl⟩ := Option.map_eq_some_iff.mp h
      exact Or.inr (Or.inl ⟨i, _, result, value, rfl, hstatus, hvalue, rfl⟩)
  | ret i =>
      cases hstatus : s.status i <;> simp only [step, hstatus, reduceCtorEq] at h
      exact Or.inr (Or.inr ⟨i, _, _, rfl, hstatus, (Option.some.inj h).symm⟩)

/-- What one step of an implementation is for the object and its clients, whose value and
status `project` reads off. -/
inductive Simulated (object : AtomicObject Value Op Result)
    (s t : State Thread Value Op Result) : Option (Event Thread Op Result) → Prop
  /-- nothing that they see -/
  | silent (h : t = s) : Simulated object s t none
  | call (i : Thread) (op : Op) (hidle : s.status i = .idle)
      (h : t = { s with status := Function.update s.status i (.pending op) }) :
      Simulated object s t (some (.call i op))
  /-- the moment of the operation -/
  | perform (i : Thread) (op : Op) (result : Result) (value : Value)
      (hpending : s.status i = .pending op)
      (hperform : object.perform s.value op result = some value)
      (h : t = ⟨value, Function.update s.status i (.performed op result)⟩) :
      Simulated object s t none
  | ret (i : Thread) (op : Op) (result : Result) (hperformed : s.status i = .performed op result)
      (h : t = { s with status := Function.update s.status i .idle }) :
      Simulated object s t (some (.ret i op result))

section Implementation

variable {State' Action' : Type*} {system : TransitionSystem State' Action'}
  {emit : State' → Action' → Option (Event Thread Op Result)}
  {guard : Logged State' (Event Thread Op Result) → Action' → Prop} {inv : State' → Prop}

/-- An implementation each of whose steps is simulated goes with the atomic object: they
have the same history, and the object is where `project` says. -/
theorem simulated_of_steps (project : State' → State Thread Value Op Result)
    (hinit : inv system.init) (hproject : project system.init = ⟨object.init, fun _ => .idle⟩)
    (hstep : ∀ (s : Logged State' (Event Thread Op Result)) (a : Action') (t : State'),
      inv s.state → guard s a → system.step s.state a = some t →
      inv t ∧ Simulated object (project s.state) (project t) (emit s.state a))
    {s : Logged State' (Event Thread Op Result)}
    (hs : Reachable (system.logged emit) guard s) :
    inv s.state ∧ Reachable ((object.system Thread).logged event) unguarded
      ⟨project s.state, s.log⟩ := by
  have hmatched : ∀ (s : Logged State' (Event Thread Op Result)) (a : Action') (t : State')
      (s' : State Thread Value Op Result), (inv s.state ∧ s' = project s.state) → guard s a →
      system.step s.state a = some t →
      (emit s.state a = none ∧ inv t ∧ s' = project t) ∨
        ∃ a' t', (object.system Thread).step s' a' = some t' ∧ event s' a' = emit s.state a ∧
          inv t ∧ t' = project t := by
    rintro s a t s' ⟨hinv, rfl⟩ hguard hst
    obtain ⟨hinv', hsim⟩ := hstep s a t hinv hguard hst
    generalize emit s.state a = entry at hsim
    cases hsim with
    | silent h => exact Or.inl ⟨rfl, hinv', h.symm⟩
    | call i op hidle h =>
        refine Or.inr ⟨.call i op, _, ?_, rfl, hinv', rfl⟩
        simp [AtomicObject.system, step, hidle, h]
    | perform i op result value hpending hperform h =>
        refine Or.inr ⟨.perform i result, _, ?_, rfl, hinv', rfl⟩
        simp [AtomicObject.system, step, hpending, hperform, h]
    | ret i op result hperformed h =>
        refine Or.inr ⟨.ret i, _, ?_, ?_, hinv', rfl⟩
        · simp [AtomicObject.system, step, hperformed, h]
        · simp [event, hperformed]
  obtain ⟨⟨state, log⟩, hreach, rfl, hinv, rfl⟩ := hs.simulated_log
    (fun s s' => inv s ∧ s' = project s) ⟨hinit, hproject.symm⟩ hmatched
  exact ⟨hinv, hreach⟩

end Implementation

end AtomicObject
