import LiteMQ.Gears.ActiveObject
import LiteMQ.Gears.ThreadRunner
import Mathlib.Algebra.Ring.Nat

/-!
# `Gears::ActiveObjectCommonImpl`

An active object whose work is done by the threads of a `ThreadRunner`.  Several
threads of the program call `activate_object`, `deactivate_object` and `wait_object`;
they are the clients here, and the threads of the runner its workers.  Threads are
created and joined without failure.

`activate_object` and `deactivate_object` are one section under `work_mutex_` each.
`wait_object` holds `termination_mutex_` from its beginning to its end, so one client
at a time reads `active_state_`, waits for the workers, and enters the last section.
The wait for the workers is that of `ThreadRunner.starterStep`.
-/

namespace LiteMQ
namespace ActiveObjectCommonImpl

open TransitionSystem

/-- Where a client stands: what it does next. -/
inductive Pc
  /-- in no call of the object -/
  | idle
  /-- `termination_guard(termination_mutex_)` -/
  | lock
  /-- `if (active_state_ != AS_NOT_ACTIVE)`, without `work_mutex_` -/
  | read
  /-- in `thread_runner_.wait_for_completion()` -/
  | complete
  /-- `SINGLE_JOB_->terminated()` -/
  | terminated
  /-- the section under `work_mutex_`.  `restful` is whether `AS_NOT_ACTIVE` was read
  before -/
  | last (restful : Bool)
  deriving DecidableEq, Repr

/-- The client is in `wait_object` behind its first line. -/
def Pc.waits : Pc → Bool
  | .idle | .lock => false
  | .read | .complete | .terminated | .last _ => true

/-- The object with its clients.  `terminating` is that of `SINGLE_JOB_`, `termination`
the client that holds `termination_mutex_`. -/
structure State (T : Type*) where
  activeState : ActiveState
  terminating : Bool
  runner : ThreadRunner.State
  termination : Option T
  pcs : T → Pc

/-- A client calls a member function or goes on in `wait_object`, or the worker `i` does
its next operation. -/
inductive Action (T : Type*)
  | activate (t : T)
  | deactivate (t : T)
  | wait (t : T)
  | next (t : T)
  | worker (i : Nat)
  deriving DecidableEq, Repr

/-- How many workers `start(start_threads)` creates. -/
def toStart (numberOfJobs startThreads : Nat) : Nat :=
  if startThreads = 0 ∨ numberOfJobs < startThreads then numberOfJobs else startThreads

/-- `thread_runner_.start(start_threads_)` up to its end, when all threads are created;
`none` when it throws `AlreadyStarted`. -/
def start (numberOfJobs startThreads : Nat) (runner : ThreadRunner.State) :
    Option ThreadRunner.State :=
  if runner.numberRunning ≠ 0 then none
  else
    some { runner with
      numberRunning := asInt (toStart numberOfJobs startThreads)
      startSemaphore := runner.startSemaphore + 1
      threads := fun i =>
        if i < toStart numberOfJobs startThreads then .acquire else runner.threads i
      toStart := toStart numberOfJobs startThreads
      works := fun _ => 0
      succeeded := true }

/-- The loop of `start()`: with every `pthread_create` it creates one more thread. -/
theorem run_create (numberOfJobs m : Nat) {k : Nat} {runner : ThreadRunner.State}
    (hstarter : runner.starter = .create) (hnumber : runner.numberRunning = k)
    (hto : runner.toStart = k + m) (hint : k + m < 2 ^ 31) (rest : List ThreadRunner.Action) :
    (ThreadRunner.system numberOfJobs).run runner
        (List.replicate (2 * m) (.starter true) ++ rest) =
      (ThreadRunner.system numberOfJobs).run
        { runner with
          numberRunning := (k + m : Nat)
          threads := fun i => if k ≤ i ∧ i < k + m then .acquire else runner.threads i } rest := by
  induction m generalizing k runner with
  | zero =>
      have hthreads : (fun i => if k ≤ i ∧ i < k + 0 then ThreadRunner.ThreadPc.acquire
          else runner.threads i) = runner.threads := by
        funext i
        rw [if_neg (by omega)]
      rw [hthreads]
      simp [← hnumber]
  | succ m ih =>
      have hmore : runner.numberRunning % 2 ^ 32 < runner.toStart := by
        rw [hnumber, hto]
        omega
      have hcount : asInt (runner.numberRunning + 1) = (k + 1 : Nat) := by
        rw [hnumber, asInt_eq_self (by omega) (by omega)]
        rfl
      have hcreate : (ThreadRunner.system numberOfJobs).step runner (.starter true) =
          some { runner with
            threads := Function.update runner.threads k .acquire
            starter := .count } := by
        simp only [ThreadRunner.system, ThreadRunner.step, ThreadRunner.starterStep, hstarter,
          if_pos hmore, if_true]
        rw [hnumber, Int.toNat_natCast]
      have hcounted : (ThreadRunner.system numberOfJobs).step
          { runner with
            threads := Function.update runner.threads k .acquire
            starter := .count } (.starter true) =
          some { runner with
            numberRunning := (k + 1 : Nat)
            threads := Function.update runner.threads k .acquire } := by
        simp only [ThreadRunner.system, ThreadRunner.step, ThreadRunner.starterStep, hcount,
          ← hstarter]
      have hrest := @ih (k + 1)
        { runner with
          numberRunning := (k + 1 : Nat)
          threads := Function.update runner.threads k .acquire }
        hstarter rfl (by simp only [hto]; omega) (by omega)
      rw [Nat.mul_succ, List.replicate_succ, List.replicate_succ, List.cons_append,
        List.cons_append, run_cons_of_step _ hcreate, run_cons_of_step _ hcounted, hrest]
      have hthreads : (fun i => if k + 1 ≤ i ∧ i < k + 1 + m then ThreadRunner.ThreadPc.acquire
            else Function.update runner.threads k .acquire i) =
          fun i => if k ≤ i ∧ i < k + (m + 1) then .acquire else runner.threads i := by
        funext i
        by_cases hi : i = k
        · simp [hi]
        · rw [Function.update_of_ne hi]
          congr 1
          simp only [eq_iff_iff]
          omega
      rw [hthreads, Nat.add_right_comm, Nat.add_assoc]

/-- `start` is what the steps of the owner of a runner at rest come to when every
`pthread_create` succeeds. -/
theorem run_start {numberOfJobs startThreads : Nat} {runner runner' : ThreadRunner.State}
    (hidle : runner.starter = .idle) (hint : toStart numberOfJobs startThreads < 2 ^ 31)
    (h : start numberOfJobs startThreads runner = some runner') :
    (ThreadRunner.system numberOfJobs).run runner
        (.start startThreads ::
          List.replicate (2 * toStart numberOfJobs startThreads) (.starter true) ++
          [.starter true, .starter true]) =
      some { runner' with starter := .started } := by
  unfold start at h
  split at h
  · cases h
  · rename_i hzero
    obtain rfl := Option.some.inj h
    rw [not_not] at hzero
    have hnumber : asInt (toStart numberOfJobs startThreads) =
        toStart numberOfJobs startThreads := by
      apply asInt_eq_self <;> omega
    have hcall : (ThreadRunner.system numberOfJobs).step runner (.start startThreads) =
        some { runner with
          starter := .create
          toStart := toStart numberOfJobs startThreads
          works := fun _ => 0
          succeeded := false } := by
      simp [ThreadRunner.system, ThreadRunner.step, ThreadRunner.startCall, hidle, hzero, toStart]
    have hloop := @run_create numberOfJobs (toStart numberOfJobs startThreads) 0
      { runner with
        starter := .create
        toStart := toStart numberOfJobs startThreads
        works := fun _ => 0
        succeeded := false } rfl hzero (Nat.zero_add _).symm (by omega)
      [.starter true, .starter true]
    rw [List.cons_append, run_cons_of_step _ hcall, hloop]
    have hall : ¬ ((toStart numberOfJobs startThreads : Nat) : Int) % 2 ^ 32 <
        (toStart numberOfJobs startThreads : Nat) := by
      omega
    simp only [Nat.zero_add, Nat.zero_le, true_and, run_cons, run_nil, ThreadRunner.system,
      ThreadRunner.step, ThreadRunner.starterStep, if_neg hall, Option.bind_some, hnumber]
variable {T : Type*} [DecidableEq T]

/-- The client `t` goes on in `wait_object`. -/
def next (s : State T) (t : T) : Option (State T) :=
  match s.pcs t with
  | .idle => none
  | .lock =>
      if s.termination = none then
        some { s with termination := some t, pcs := Function.update s.pcs t .read }
      else none
  | .read =>
      if s.activeState = .notActive then
        some { s with pcs := Function.update s.pcs t (.last true) }
      else
        some { s with
          runner := { s.runner with starter := .waitEntry .client }
          pcs := Function.update s.pcs t .complete }
  | .complete =>
      if s.runner.starter = .idle then
        some { s with pcs := Function.update s.pcs t .terminated }
      else
        (ThreadRunner.starterStep s.runner true).map fun runner => { s with runner := runner }
  | .terminated =>
      some { s with terminating := false, pcs := Function.update s.pcs t (.last false) }
  | .last _ =>
      some { s with
        activeState := if s.activeState = .deactivating then .notActive else s.activeState
        termination := none
        pcs := Function.update s.pcs t .idle }

/-- One step of a client or of a worker. -/
def step (numberOfJobs startThreads : Nat) (s : State T) : Action T → Option (State T)
  | .activate t =>
      if s.pcs t = .idle then
        if s.activeState = .notActive then
          match start numberOfJobs startThreads s.runner with
          | some runner => some { s with activeState := .active, runner := runner }
          -- `active_state_ = AS_NOT_ACTIVE` again, and an exception
          | none => some s
        else some s
      else none
  | .deactivate t =>
      if s.pcs t = .idle then
        if s.activeState = .active then
          some { s with activeState := .deactivating, terminating := true }
        else some s
      else none
  | .wait t =>
      if s.pcs t = .idle then some { s with pcs := Function.update s.pcs t .lock } else none
  | .next t => next s t
  | .worker i => (ThreadRunner.threadStep s.runner i).map fun runner => { s with runner := runner }

/-- A new object, with a new `ThreadRunner`. -/
def system (T : Type*) [DecidableEq T] (numberOfJobs startThreads : Nat) :
    TransitionSystem (State T) (Action T) :=
  ⟨⟨.notActive, false, (ThreadRunner.system numberOfJobs).init, none, fun _ => .idle⟩,
    step numberOfJobs startThreads⟩

/-- An object that is `AS_NOT_ACTIVE` has no thread that is running or not joined, and
`start` would not throw `AlreadyStarted`. -/
def ThreadsGone (numberOfJobs startThreads : Nat) (s : State T) : Prop :=
  s.activeState = .notActive →
    (∀ i, s.runner.threads i = .gone) ∧ s.runner.numberRunning = 0 ∧
      start numberOfJobs startThreads s.runner ≠ none

/-- A client that makes the object `AS_NOT_ACTIVE` has not read before, in the same call,
that it is. -/
def ReadBusy (s : State T) : Action T → Prop
  | .next t => s.activeState = .deactivating → s.pcs t ≠ .last true
  | .activate _ | .deactivate _ | .wait _ | .worker _ => True

instance (s : State T) : ∀ a, Decidable (ReadBusy s a)
  | .next t => inferInstanceAs (Decidable (s.activeState = .deactivating → s.pcs t ≠ .last true))
  | .activate _ | .deactivate _ | .wait _ | .worker _ => inferInstanceAs (Decidable True)

end ActiveObjectCommonImpl
end LiteMQ
