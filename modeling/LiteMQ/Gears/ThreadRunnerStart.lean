import LiteMQ.Gears.ThreadRunner
import Mathlib.Algebra.Ring.Nat

/-!
# A start of a `ThreadRunner` is all or nothing

While `start()` creates its threads the gate is closed and they wait at it
(`AtGate`).  Behind it the semaphore goes from thread to thread (`Token`), the
threads look at the sign of `number_running_`, and the owner joins them and takes
the semaphore back (`GateOpen`, `AllJoined`).

When the very first `pthread_create` fails, `number_running_` is `0`: the gate is
opened all the same, and `wait_for_completion` sees nothing to wait for and does
not close it.  `FirstCreated` excludes that.
-/

namespace LiteMQ
namespace ThreadRunner

open TransitionSystem

/-! ## The property and its condition -/

/-- How many operations the thread has before it. -/
def stepsLeft : ThreadPc → Nat
  | .acquire => 4
  | .release => 3
  | .test => 2
  | .work => 1
  | .gone | .done => 0

/-- The gate of the threads is closed. -/
def StarterPc.closed : StarterPc → Bool
  | .create | .count | .negate | .openFailed | .openGate => true
  | .idle | .threw | .started | .waitEntry _ | .join _ _ | .acquire _ | .reset _ => false

/-- A call of `start()` that throws has run no job and leaves no thread, and the
runner as it was.  After a call that returns, each of the threads runs its job
once: it has when it has terminated, and until then some thread can go on.  Behind
`wait_for_completion` the jobs have run, and the runner is as it was. -/
structure AllOrNothing (numberOfJobs : Nat) (s : State) : Prop where
  threw : s.starter = .threw → s.numberRunning = 0 ∧ s.startSemaphore = 0 ∧
    (∀ i, s.works i = 0) ∧ ∀ i, s.threads i = .gone
  started : s.starter = .started → s.numberRunning = s.toStart ∧
    ∀ i, (s.threads i = .gone ↔ s.toStart ≤ i) ∧
      s.works i = if s.threads i = .done then 1 else 0
  progress : s.starter.closed = false → (∃ i, s.threads i ≠ .gone ∧ s.threads i ≠ .done) →
    ∃ i t, threadStep s i = some t ∧ stepsLeft (t.threads i) < stepsLeft (s.threads i)
  idle : s.starter = .idle → s.numberRunning = 0 ∧
    (numberOfJobs ≠ 0 → s.startSemaphore = 0) ∧ (∀ i, s.threads i = .gone) ∧
      ∀ i, s.works i = if s.succeeded ∧ i < s.toStart then 1 else 0

/-- The first `pthread_create` of a call succeeds, and `number_running_` does not
overflow. -/
def FirstCreated (s : State) : Action → Prop
  | .starter created =>
      (s.starter = .create → s.numberRunning = 0 → created = true) ∧
        (s.starter = .count → s.numberRunning ≠ 2 ^ 31 - 1)
  | .start _ | .wait | .thread _ => True

instance (s : State) (a : Action) : Decidable (FirstCreated s a) :=
  match a with
  | .starter _ => inferInstanceAs (Decidable ((_ → _ → _) ∧ (_ → _)))
  | .start _ | .wait | .thread _ => inferInstanceAs (Decidable True)

/-! ## The gate -/

/-- The gate is closed, and the first `created` threads wait at it. -/
structure AtGate (s : State) (created : Nat) : Prop where
  semaphore : s.startSemaphore = 0
  threads : ∀ i, s.threads i = if i < created then .acquire else .gone
  works : ∀ i, s.works i = 0
  succeeded : s.succeeded = false

/-- The semaphore is free, or one thread has it and will give it back. -/
def Token (s : State) : Prop :=
  s.startSemaphore = 1 ∧ (∀ i, s.threads i ≠ .release) ∨
    s.startSemaphore = 0 ∧ ∃ i, s.threads i = .release ∧ ∀ j, s.threads j = .release → j = i

/-- The gate is open.  The first `joined` of the `created` threads are joined, and
those that are through have worked when `number_running_` is positive. -/
structure GateOpen (s : State) (created joined : Nat) : Prop where
  token : Token s
  gone : ∀ i, s.threads i = .gone ↔ i < joined ∨ created ≤ i
  work : ∀ i, s.threads i = .work → 0 < s.numberRunning
  works : ∀ i, s.works i =
    if i < created ∧ 0 < s.numberRunning ∧ (s.threads i = .gone ∨ s.threads i = .done) then 1
    else 0

/-- No thread is left, and the jobs have run if the last call of `start()` has
returned. -/
structure AllJoined (s : State) : Prop where
  semaphore : s.startSemaphore = 0
  threads : ∀ i, s.threads i = .gone
  works : ∀ i, s.works i = if s.succeeded ∧ i < s.toStart then 1 else 0

/-- Which call of `wait_for_completion` goes with which sign. -/
def WaitsFor (s : State) : Waiter → Prop
  | .start => s.numberRunning < 0 ∧ s.succeeded = false
  | .client => s.numberRunning = s.toStart ∧ 0 < s.toStart ∧ s.succeeded = true

/-- What holds where the owner stands, for a runner with jobs. -/
def Phase (s : State) : Prop :=
  match s.starter with
  | .idle => s.numberRunning = 0 ∧ AllJoined s
  | .threw => s.numberRunning = 0 ∧ AllJoined s ∧ s.succeeded = false
  | .create => ∃ k : Nat, s.numberRunning = k ∧ k ≤ s.toStart ∧ 0 < s.toStart ∧ k < 2 ^ 31 ∧
      AtGate s k
  | .count => ∃ k : Nat, s.numberRunning = k ∧ k < s.toStart ∧ k < 2 ^ 31 ∧ AtGate s (k + 1)
  | .negate => ∃ k : Nat, s.numberRunning = k ∧ 0 < k ∧ k < 2 ^ 31 ∧ AtGate s k
  | .openFailed => ∃ k : Nat, s.numberRunning = -k ∧ 0 < k ∧ AtGate s k
  | .openGate => s.numberRunning = s.toStart ∧ 0 < s.toStart ∧ AtGate s s.toStart
  | .started => WaitsFor s .client ∧ GateOpen s s.toStart 0
  | .waitEntry waiter =>
      waiter = .client ∧ s.numberRunning = 0 ∧ AllJoined s ∨
        WaitsFor s waiter ∧ GateOpen s s.numberRunning.natAbs 0
  | .join i waiter => i ≤ s.numberRunning.natAbs ∧ WaitsFor s waiter ∧
      GateOpen s s.numberRunning.natAbs i
  | .acquire waiter => WaitsFor s waiter ∧
      GateOpen s s.numberRunning.natAbs s.numberRunning.natAbs
  | .reset waiter => WaitsFor s waiter ∧ AllJoined s

/-- A runner without jobs never has a thread. -/
structure NoJobs (s : State) : Prop where
  numberRunning : s.numberRunning = 0
  toStart : s.toStart = 0
  threads : ∀ i, s.threads i = .gone
  works : ∀ i, s.works i = 0
  starter : s.starter = .idle ∨ s.starter = .create ∨ s.starter = .openGate ∨
    s.starter = .started ∨ s.starter = .waitEntry .client

/-! ## The threads -/

section Threads

variable {s t : State} {created joined i : Nat}

/-- An operation of a thread does not touch what the owner goes by. -/
structure SameOwner (s t : State) : Prop where
  numberRunning : t.numberRunning = s.numberRunning
  starter : t.starter = s.starter
  toStart : t.toStart = s.toStart
  succeeded : t.succeeded = s.succeeded

theorem sameOwner_of_threadStep (h : threadStep s i = some t) : SameOwner s t := by
  unfold threadStep at h
  cases hpc : s.threads i <;> simp only [hpc] at h
  case acquire =>
    split at h
    · obtain rfl := Option.some.inj h
      exact ⟨rfl, rfl, rfl, rfl⟩
    · cases h
  case release | test | work =>
    obtain rfl := Option.some.inj h
    exact ⟨rfl, rfl, rfl, rfl⟩
  all_goals cases h

/-- Before the gate is open, and when there are no threads, none can go on. -/
theorem threadStep_eq_none (hsemaphore : s.startSemaphore = 0)
    (h : ∀ i, s.threads i = .acquire ∨ s.threads i = .gone) (i : Nat) : threadStep s i = none := by
  unfold threadStep
  rcases h i with hpc | hpc
  · simp [hpc, hsemaphore]
  · simp [hpc]

theorem AtGate.threadStep (hs : AtGate s created) (i : Nat) :
    ThreadRunner.threadStep s i = none := by
  apply threadStep_eq_none hs.semaphore
  intro i
  rw [hs.threads i]
  split
  · exact Or.inl rfl
  · exact Or.inr rfl

theorem AllJoined.threadStep (hs : AllJoined s) (i : Nat) :
    ThreadRunner.threadStep s i = none :=
  threadStep_eq_none hs.semaphore (fun i => Or.inr (hs.threads i)) i

/-- The semaphore is where it was when a thread moves that neither has it nor gets
it. -/
theorem Token.moved (hs : Token s) {next : ThreadPc} (hsemaphore : t.startSemaphore = s.startSemaphore)
    (hthreads : t.threads = Function.update s.threads i next) (hpc : s.threads i ≠ .release)
    (hnext : next ≠ .release) : Token t := by
  have hsame : ∀ j, t.threads j = .release ↔ s.threads j = .release := by
    intro j
    by_cases hj : j = i
    · subst hj
      simp [hthreads, hpc, hnext]
    · rw [hthreads, Function.update_of_ne hj]
  unfold Token
  simp only [hsemaphore, ne_eq, hsame]
  exact hs

/-- A thread acquires the free semaphore. -/
theorem Token.acquired (hs : Token s) (hfree : 0 < s.startSemaphore)
    (hsemaphore : t.startSemaphore = s.startSemaphore - 1)
    (hthreads : t.threads = Function.update s.threads i .release) : Token t := by
  rcases hs with ⟨hone, hnone⟩ | ⟨hzero, -⟩
  · refine Or.inr ⟨by omega, i, ?_, ?_⟩
    · rw [hthreads, Function.update_self]
    · intro j hj
      by_contra hne
      rw [hthreads, Function.update_of_ne hne] at hj
      exact hnone j hj
  · omega

/-- The thread that has the semaphore gives it back. -/
theorem Token.released (hs : Token s) {next : ThreadPc} (hpc : s.threads i = .release)
    (hsemaphore : t.startSemaphore = s.startSemaphore + 1)
    (hthreads : t.threads = Function.update s.threads i next) (hnext : next ≠ .release) :
    Token t := by
  rcases hs with ⟨-, hnone⟩ | ⟨hzero, k, -, hunique⟩
  · exact absurd hpc (hnone i)
  · refine Or.inl ⟨by omega, ?_⟩
    intro j hj
    by_cases hsame : j = i
    · subst hsame
      rw [hthreads, Function.update_self] at hj
      exact hnext hj
    · rw [hthreads, Function.update_of_ne hsame] at hj
      exact hsame ((hunique j hj).trans (hunique i hpc).symm)

/-- A thread that is not through moves, and works or not as the sign says. -/
theorem GateOpen.moved (hs : GateOpen s created joined) {next : ThreadPc}
    (hnumber : t.numberRunning = s.numberRunning)
    (hthreads : t.threads = Function.update s.threads i next) (htoken : Token t)
    (halive : s.threads i ≠ .gone) (hdone : s.threads i ≠ .done) (hnext : next ≠ .gone)
    (hwork : next = .work → 0 < s.numberRunning)
    (hself : t.works i = if 0 < s.numberRunning ∧ next = .done then 1 else 0)
    (hothers : ∀ j, j ≠ i → t.works j = s.works j) :
    GateOpen t created joined := by
  have hcreated : i < created := by
    by_contra hle
    exact halive ((hs.gone i).mpr (Or.inr (by omega)))
  refine ⟨htoken, ?_, ?_, ?_⟩
  · intro j
    by_cases hsame : j = i
    · subst hsame
      rw [hthreads, Function.update_self, ← hs.gone j]
      simp [halive, hnext]
    · rw [hthreads, Function.update_of_ne hsame]
      exact hs.gone j
  · intro j hj
    rw [hnumber]
    by_cases hsame : j = i
    · subst hsame
      rw [hthreads, Function.update_self] at hj
      exact hwork hj
    · rw [hthreads, Function.update_of_ne hsame] at hj
      exact hs.work j hj
  · intro j
    rw [hnumber, hthreads]
    by_cases hsame : j = i
    · subst hsame
      rw [Function.update_self, hself]
      simp [hcreated, hnext]
    · rw [Function.update_of_ne hsame, hothers j hsame]
      exact hs.works j

/-- The threads pass the open gate one by one, and each runs its job at most once. -/
theorem GateOpen.threadStep (hs : GateOpen s created joined)
    (h : ThreadRunner.threadStep s i = some t) : GateOpen t created joined := by
  have hidle : s.threads i ≠ .gone → s.threads i ≠ .done → s.works i = 0 := by
    intro halive hdone
    rw [hs.works i, if_neg]
    rintro ⟨-, -, hthrough | hthrough⟩
    · exact halive hthrough
    · exact hdone hthrough
  unfold ThreadRunner.threadStep at h
  cases hpc : s.threads i <;> simp only [hpc] at h
  case acquire =>
    split at h
    · rename_i hfree
      obtain rfl := Option.some.inj h
      refine hs.moved rfl rfl (hs.token.acquired hfree rfl rfl) (by simp [hpc]) (by simp [hpc])
        (by simp) (by simp) ?_ (fun _ _ => rfl)
      simpa [State.goto] using hidle (by simp [hpc]) (by simp [hpc])
    · cases h
  case release =>
    obtain rfl := Option.some.inj h
    refine hs.moved rfl rfl (hs.token.released hpc rfl rfl (by simp)) (by simp [hpc])
      (by simp [hpc]) (by simp) (by simp) ?_ (fun _ _ => rfl)
    simpa [State.goto] using hidle (by simp [hpc]) (by simp [hpc])
  case test =>
    obtain rfl := Option.some.inj h
    have hzero : s.works i = 0 := hidle (by simp [hpc]) (by simp [hpc])
    by_cases hpos : 0 < s.numberRunning
    · rw [if_pos hpos]
      refine hs.moved rfl rfl (hs.token.moved rfl rfl (by simp [hpc]) (by simp))
        (by simp [hpc]) (by simp [hpc]) (by simp) (fun _ => hpos) ?_ (fun _ _ => rfl)
      simpa [State.goto] using hzero
    · rw [if_neg hpos]
      refine hs.moved rfl rfl (hs.token.moved rfl rfl (by simp [hpc]) (by simp))
        (by simp [hpc]) (by simp [hpc]) (by simp) (by simp) ?_ (fun _ _ => rfl)
      simpa [State.goto, hpos] using hzero
  case work =>
    obtain rfl := Option.some.inj h
    have hzero : s.works i = 0 := hidle (by simp [hpc]) (by simp [hpc])
    have hpos := hs.work i hpc
    refine hs.moved rfl rfl (hs.token.moved rfl rfl (by simp [hpc]) (by simp))
      (by simp [hpc]) (by simp [hpc]) (by simp) (by simp) ?_
      (fun j hne => Function.update_of_ne hne _ _)
    simp [State.goto, hpos, hzero]
  all_goals cases h

/-- While a thread is not through, some thread can go on. -/
theorem GateOpen.progress (hs : GateOpen s created joined)
    (halive : ∃ i, s.threads i ≠ .gone ∧ s.threads i ≠ .done) :
    ∃ i t, ThreadRunner.threadStep s i = some t ∧
      stepsLeft (t.threads i) < stepsLeft (s.threads i) := by
  rcases hs.token with ⟨hone, -⟩ | ⟨-, i, hpc, -⟩
  · obtain ⟨i, hgone, hdone⟩ := halive
    have hfree : 0 < s.startSemaphore := by omega
    refine ⟨i, ?_⟩
    unfold ThreadRunner.threadStep
    cases hpc : s.threads i
    case acquire => exact ⟨_, if_pos hfree, by simp [State.goto, stepsLeft]⟩
    case release => exact ⟨_, rfl, by simp [State.goto, stepsLeft]⟩
    case test =>
      refine ⟨_, rfl, ?_⟩
      simp only [State.goto, Function.update_self]
      split <;> simp [stepsLeft]
    case work => exact ⟨_, rfl, by simp [State.goto, stepsLeft]⟩
    case gone => exact absurd hpc hgone
    case done => exact absurd hpc hdone
  · refine ⟨i, ?_⟩
    unfold ThreadRunner.threadStep
    rw [hpc]
    exact ⟨_, rfl, by simp [State.goto, stepsLeft]⟩

end Threads

/-! ## The owner -/

section Owner

variable {s t : State} {created joined : Nat}

/-- Nothing that `AtGate` speaks about has changed. -/
theorem AtGate.congr (hs : AtGate s created) (hsemaphore : t.startSemaphore = s.startSemaphore)
    (hthreads : t.threads = s.threads) (hworks : t.works = s.works)
    (hsucceeded : t.succeeded = s.succeeded) : AtGate t created := by
  refine ⟨hsemaphore.trans hs.semaphore, ?_, ?_, hsucceeded.trans hs.succeeded⟩
  · rw [hthreads]
    exact hs.threads
  · rw [hworks]
    exact hs.works

theorem GateOpen.congr (hs : GateOpen s created joined)
    (hsemaphore : t.startSemaphore = s.startSemaphore) (hthreads : t.threads = s.threads)
    (hworks : t.works = s.works) (hnumber : t.numberRunning = s.numberRunning) :
    GateOpen t created joined := by
  obtain ⟨htoken, hgone, hwork, hworks'⟩ := hs
  unfold Token at htoken
  rw [← hsemaphore, ← hthreads] at htoken
  rw [← hthreads] at hgone
  rw [← hthreads, ← hnumber] at hwork
  rw [← hworks, ← hthreads, ← hnumber] at hworks'
  exact ⟨htoken, hgone, hwork, hworks'⟩

theorem AllJoined.congr (hs : AllJoined s) (hsemaphore : t.startSemaphore = s.startSemaphore)
    (hthreads : t.threads = s.threads) (hworks : t.works = s.works)
    (hsucceeded : t.succeeded = s.succeeded) (htoStart : t.toStart = s.toStart) :
    AllJoined t := by
  refine ⟨hsemaphore.trans hs.semaphore, ?_, ?_⟩
  · rw [hthreads]
    exact hs.threads
  · rw [hworks, hsucceeded, htoStart]
    exact hs.works

/-- `pthread_create` puts one more thread to the gate. -/
theorem AtGate.pushed (hs : AtGate s created) (hsemaphore : t.startSemaphore = s.startSemaphore)
    (hthreads : t.threads = Function.update s.threads created .acquire)
    (hworks : t.works = s.works) (hsucceeded : t.succeeded = s.succeeded) :
    AtGate t (created + 1) := by
  refine ⟨hsemaphore.trans hs.semaphore, ?_, ?_, hsucceeded.trans hs.succeeded⟩
  · intro i
    by_cases hsame : i = created
    · subst hsame
      simp [hthreads]
    · rw [hthreads, Function.update_of_ne hsame, hs.threads i]
      have hlt : i < created ↔ i < created + 1 := by omega
      simp only [hlt]
  · rw [hworks]
    exact hs.works

/-- The gate opens. -/
theorem AtGate.opened (hs : AtGate s created) (hsemaphore : t.startSemaphore = s.startSemaphore + 1)
    (hthreads : t.threads = s.threads) (hworks : t.works = s.works) : GateOpen t created 0 := by
  have hzero := hs.semaphore
  refine ⟨Or.inl ⟨by omega, ?_⟩, ?_, ?_, ?_⟩
  · intro i
    rw [hthreads, hs.threads i]
    split <;> simp
  · intro i
    rw [hthreads, hs.threads i]
    split <;> simp <;> omega
  · intro i hi
    rw [hthreads, hs.threads i] at hi
    split at hi <;> cases hi
  · intro i
    rw [hworks, hs.works i, hthreads, hs.threads i]
    split <;> simp_all

/-- The next thread is joined. -/
theorem GateOpen.join (hs : GateOpen s created joined) (hpc : s.threads joined = .done)
    (hsemaphore : t.startSemaphore = s.startSemaphore)
    (hthreads : t.threads = Function.update s.threads joined .gone) (hworks : t.works = s.works)
    (hnumber : t.numberRunning = s.numberRunning) : GateOpen t created (joined + 1) := by
  refine ⟨hs.token.moved hsemaphore hthreads (by simp [hpc]) (by simp), ?_, ?_, ?_⟩
  · intro i
    by_cases hsame : i = joined
    · subst hsame
      simp [hthreads]
    · rw [hthreads, Function.update_of_ne hsame, hs.gone i]
      omega
  · intro i hi
    rw [hnumber]
    by_cases hsame : i = joined
    · subst hsame
      simp [hthreads] at hi
    · rw [hthreads, Function.update_of_ne hsame] at hi
      exact hs.work i hi
  · intro i
    rw [hworks, hs.works i, hnumber, hthreads]
    by_cases hsame : i = joined
    · subst hsame
      simp [hpc]
    · rw [Function.update_of_ne hsame]

/-- When all threads are joined the semaphore is free, and the jobs have run or not
as the sign says. -/
theorem GateOpen.allJoined {waiter : Waiter} (hwaits : WaitsFor s waiter)
    (hs : GateOpen s s.numberRunning.natAbs s.numberRunning.natAbs)
    (hsemaphore : t.startSemaphore = s.startSemaphore - 1) (hthreads : t.threads = s.threads)
    (hworks : t.works = s.works) (hsucceeded : t.succeeded = s.succeeded)
    (htoStart : t.toStart = s.toStart) : AllJoined t := by
  have hgone : ∀ i, s.threads i = .gone := by
    intro i
    exact (hs.gone i).mpr (by omega)
  have hone : s.startSemaphore = 1 := by
    rcases hs.token with ⟨hone, -⟩ | ⟨-, i, hi, -⟩
    · exact hone
    · rw [hgone i] at hi
      cases hi
  refine ⟨by omega, ?_, ?_⟩
  · rw [hthreads]
    exact hgone
  · intro i
    rw [hworks, hs.works i, hgone i, hsucceeded, htoStart]
    cases waiter with
    | start =>
        obtain ⟨hneg, hfailed⟩ := hwaits
        simp [hfailed]
        omega
    | client =>
        obtain ⟨hnumber, hpos, hsucceeded⟩ := hwaits
        simp [hsucceeded, hnumber, hpos]

theorem WaitsFor.ne_zero {waiter : Waiter} (h : WaitsFor s waiter) : s.numberRunning ≠ 0 := by
  cases waiter with
  | start =>
      have hneg := h.1
      omega
  | client =>
      obtain ⟨hnumber, hpos, -⟩ := h
      omega

/-- A call of `start()` begins. -/
theorem Phase.startCall {numberOfJobs toStart : Nat} (hjobs : numberOfJobs ≠ 0) (hs : Phase s)
    (hpc : s.starter = .idle) : Phase (ThreadRunner.startCall numberOfJobs s toStart) := by
  unfold Phase at hs
  rw [hpc] at hs
  obtain ⟨hzero, hjoined⟩ := hs
  have hgate : ∀ n, AtGate { s with
      starter := .create, toStart := n, works := fun _ => 0, succeeded := false } 0 := by
    intro n
    refine ⟨hjoined.semaphore, ?_, fun _ => rfl, rfl⟩
    intro i
    simpa using hjoined.threads i
  unfold ThreadRunner.startCall
  rw [if_neg (by simpa using hzero)]
  refine ⟨0, hzero, Nat.zero_le _, ?_, by omega, hgate _⟩
  dsimp only
  split <;> omega

/-- The operations of `start()` up to the gate, when the first thread is created. -/
theorem Phase.starterStep_closed {created : Bool} (hs : Phase s)
    (hclosed : s.starter.closed = true) (hguard : FirstCreated s (.starter created))
    (h : starterStep s created = some t) : Phase t := by
  obtain ⟨hfirst, hroom⟩ := hguard
  unfold Phase at hs
  unfold starterStep at h
  cases hpc : s.starter <;> simp only [hpc, StarterPc.closed] at hs h hclosed
  case create =>
    obtain ⟨k, hnumber, hle, hpos, hsmall, hgate⟩ := hs
    split at h
    · rename_i hmore
      have hlt : k < s.toStart := by omega
      cases created with
      | true =>
          obtain rfl := Option.some.inj h
          have hindex : s.numberRunning.toNat = k := by omega
          rw [hindex]
          exact ⟨k, hnumber, hlt, hsmall, hgate.pushed rfl rfl rfl rfl⟩
      | false =>
          obtain rfl := Option.some.inj h
          have hne : k ≠ 0 := by
            rintro rfl
            exact absurd (hfirst hpc hnumber) Bool.false_ne_true
          exact ⟨k, hnumber, by omega, hsmall, hgate.congr rfl rfl rfl rfl⟩
    · rename_i hmore
      obtain rfl := Option.some.inj h
      have hall : k = s.toStart := by omega
      subst hall
      exact ⟨hnumber, hpos, hgate.congr rfl rfl rfl rfl⟩
  case count =>
    obtain ⟨k, hnumber, hlt, hsmall, hgate⟩ := hs
    obtain rfl := Option.some.inj h
    have hne := hroom hpc
    refine ⟨k + 1, ?_, hlt, Nat.lt_of_le_of_lt (Nat.zero_le k) hlt, by omega,
      hgate.congr rfl rfl rfl rfl⟩
    show asInt (s.numberRunning + 1) = (k + 1 : Nat)
    rw [asInt_eq_self (by omega) (by omega)]
    omega
  case negate =>
    obtain ⟨k, hnumber, hpos, hsmall, hgate⟩ := hs
    obtain rfl := Option.some.inj h
    refine ⟨k, ?_, hpos, hgate.congr rfl rfl rfl rfl⟩
    show asInt (-s.numberRunning) = -(k : Int)
    rw [asInt_eq_self (by omega) (by omega)]
    omega
  case openFailed =>
    obtain ⟨k, hnumber, hpos, hgate⟩ := hs
    obtain rfl := Option.some.inj h
    right
    have hcount : s.numberRunning.natAbs = k := by omega
    refine ⟨⟨?_, hgate.succeeded⟩, ?_⟩
    · show s.numberRunning < 0
      omega
    · show GateOpen _ s.numberRunning.natAbs 0
      rw [hcount]
      exact hgate.opened rfl rfl rfl
  case openGate =>
    obtain ⟨hnumber, hpos, hgate⟩ := hs
    obtain rfl := Option.some.inj h
    exact ⟨⟨hnumber, hpos, rfl⟩, hgate.opened rfl rfl rfl⟩
  all_goals cases hclosed

/-- The operations of `wait_for_completion()`. -/
theorem Phase.starterStep_open {created : Bool} (hs : Phase s)
    (hopen : s.starter.closed = false) (h : starterStep s created = some t) : Phase t := by
  unfold Phase at hs
  unfold starterStep at h
  cases hpc : s.starter <;> simp only [hpc, StarterPc.closed] at hs h hopen
  case waitEntry waiter =>
    obtain rfl := Option.some.inj h
    rcases hs with ⟨rfl, hzero, hjoined⟩ | ⟨hwaits, hgate⟩
    · -- nothing to wait for
      rw [if_neg (by simpa using hzero)]
      exact ⟨hzero, hjoined.congr rfl rfl rfl rfl rfl⟩
    · rw [if_pos hwaits.ne_zero]
      refine ⟨Nat.zero_le _, ?_, hgate.congr rfl rfl rfl rfl⟩
      cases waiter <;> exact hwaits
  case join i waiter =>
    obtain ⟨hle, hwaits, hgate⟩ := hs
    split at h
    · rename_i hmore
      split at h
      · rename_i hdone
        obtain rfl := Option.some.inj h
        refine ⟨hmore, ?_, hgate.join hdone rfl rfl rfl rfl⟩
        cases waiter <;> exact hwaits
      · cases h
    · rename_i hmore
      obtain rfl := Option.some.inj h
      obtain rfl : i = s.numberRunning.natAbs := by omega
      refine ⟨?_, hgate.congr rfl rfl rfl rfl⟩
      cases waiter <;> exact hwaits
  case acquire waiter =>
    obtain ⟨hwaits, hgate⟩ := hs
    split at h
    · obtain rfl := Option.some.inj h
      refine ⟨?_, hgate.allJoined hwaits rfl rfl rfl rfl rfl⟩
      cases waiter <;> exact hwaits
    · cases h
  case reset waiter =>
    obtain ⟨hwaits, hjoined⟩ := hs
    obtain rfl := Option.some.inj h
    cases waiter with
    | start => exact ⟨rfl, hjoined.congr rfl rfl rfl rfl rfl, hwaits.2⟩
    | client => exact ⟨rfl, hjoined.congr rfl rfl rfl rfl rfl⟩
  case idle | threw | started => cases h
  all_goals cases hopen

/-- `wait_for_completion()` is called behind `start()`. -/
theorem Phase.wait (hs : Phase s) (hpc : s.starter = .threw ∨ s.starter = .started) :
    Phase { s with starter := .waitEntry .client } := by
  unfold Phase at hs
  rcases hpc with hpc | hpc
  · rw [hpc] at hs
    obtain ⟨hzero, hjoined, -⟩ := hs
    exact Or.inl ⟨rfl, hzero, hjoined.congr rfl rfl rfl rfl rfl⟩
  · rw [hpc] at hs
    obtain ⟨hwaits, hgate⟩ := hs
    have hcount : s.numberRunning.natAbs = s.toStart := by
      have hnumber := hwaits.1
      omega
    refine Or.inr ⟨hwaits, ?_⟩
    show GateOpen _ s.numberRunning.natAbs 0
    rw [hcount]
    exact hgate.congr rfl rfl rfl rfl

/-- Until the gate is opened the threads wait at it. -/
theorem Phase.atGate (hs : Phase s) (hclosed : s.starter.closed = true) : ∃ k, AtGate s k := by
  unfold Phase at hs
  cases hpc : s.starter <;> simp only [hpc, StarterPc.closed] at hs hclosed
  case create =>
    obtain ⟨k, -, -, -, -, hgate⟩ := hs
    exact ⟨k, hgate⟩
  case count =>
    obtain ⟨k, -, -, -, hgate⟩ := hs
    exact ⟨k + 1, hgate⟩
  case negate =>
    obtain ⟨k, -, -, -, hgate⟩ := hs
    exact ⟨k, hgate⟩
  case openFailed =>
    obtain ⟨k, -, -, hgate⟩ := hs
    exact ⟨k, hgate⟩
  case openGate => exact ⟨s.toStart, hs.2.2⟩
  all_goals cases hclosed

/-- A thread moves behind the open gate only. -/
theorem Phase.threadStep {i : Nat} (hs : Phase s) (h : ThreadRunner.threadStep s i = some t) :
    Phase t := by
  obtain ⟨hnumber, hstarter, htoStart, hsucceeded⟩ := sameOwner_of_threadStep h
  have hwaits : ∀ waiter, WaitsFor s waiter → WaitsFor t waiter := by
    intro waiter hwaiter
    cases waiter
    · rw [WaitsFor, hnumber, hsucceeded]
      exact hwaiter
    · rw [WaitsFor, hnumber, htoStart, hsucceeded]
      exact hwaiter
  have hopen : s.starter.closed = false := by
    cases hclosed : s.starter.closed with
    | false => rfl
    | true =>
        obtain ⟨k, hgate⟩ := hs.atGate hclosed
        rw [hgate.threadStep] at h
        cases h
  unfold Phase at hs ⊢
  rw [hstarter]
  cases hpc : s.starter <;> simp only [hpc, StarterPc.closed] at hs hopen ⊢
  case idle =>
    rw [hs.2.threadStep] at h
    cases h
  case threw =>
    rw [hs.2.1.threadStep] at h
    cases h
  case started =>
    rw [htoStart]
    exact ⟨hwaits _ hs.1, hs.2.threadStep h⟩
  case waitEntry waiter =>
    rcases hs with ⟨-, -, hjoined⟩ | ⟨hwaiter, hgate⟩
    · rw [hjoined.threadStep] at h
      cases h
    · rw [hnumber]
      exact Or.inr ⟨hwaits _ hwaiter, hgate.threadStep h⟩
  case join j waiter =>
    rw [hnumber]
    exact ⟨hs.1, hwaits _ hs.2.1, hs.2.2.threadStep h⟩
  case acquire waiter =>
    rw [hnumber]
    exact ⟨hwaits _ hs.1, hs.2.threadStep h⟩
  case reset waiter =>
    rw [hs.2.threadStep] at h
    cases h
  all_goals cases hopen

end Owner

theorem Phase.step {numberOfJobs : Nat} {s t : State} {a : Action} (hjobs : numberOfJobs ≠ 0)
    (hs : Phase s) (hguard : FirstCreated s a) (h : step numberOfJobs s a = some t) : Phase t := by
  cases a with
  | start toStart =>
      simp only [ThreadRunner.step] at h
      split at h
      · rename_i hpc
        obtain rfl := Option.some.inj h
        exact hs.startCall hjobs hpc
      · cases h
  | starter created =>
      cases hclosed : s.starter.closed with
      | true => exact hs.starterStep_closed hclosed hguard h
      | false => exact hs.starterStep_open hclosed h
  | wait =>
      simp only [ThreadRunner.step] at h
      split at h
      · rename_i hpc
        obtain rfl := Option.some.inj h
        exact hs.wait hpc
      · cases h
  | thread i => exact hs.threadStep h

/-- The phases say what the property says. -/
theorem Phase.allOrNothing {numberOfJobs : Nat} {s : State} (hs : Phase s) :
    AllOrNothing numberOfJobs s := by
  unfold Phase at hs
  refine ⟨?_, ?_, ?_, ?_⟩
  · intro hpc
    rw [hpc] at hs
    obtain ⟨hzero, hjoined, hfailed⟩ := hs
    refine ⟨hzero, hjoined.semaphore, ?_, hjoined.threads⟩
    intro i
    simpa [hfailed] using hjoined.works i
  · intro hpc
    rw [hpc] at hs
    obtain ⟨⟨hnumber, hpos, -⟩, hgate⟩ := hs
    refine ⟨hnumber, fun i => ⟨?_, ?_⟩⟩
    · simpa using hgate.gone i
    · rw [hgate.works i]
      have hgone := hgate.gone i
      by_cases hthrough : s.threads i = .done
      · have hcreated : i < s.toStart := by
          by_contra hle
          have habsent := hgone.mpr (Or.inr (by omega))
          rw [hthrough] at habsent
          cases habsent
        rw [if_pos hthrough, if_pos ⟨hcreated, by omega, Or.inr hthrough⟩]
      · rw [if_neg hthrough, if_neg]
        rintro ⟨hcreated, -, habsent | hdone⟩
        · rcases hgone.mp habsent with hlt | hle
          · omega
          · omega
        · exact hthrough hdone
  · intro hopen halive
    have hnone : AllJoined s → False := by
      intro hjoined
      obtain ⟨i, hgone, -⟩ := halive
      exact hgone (hjoined.threads i)
    cases hpc : s.starter <;> simp only [hpc, StarterPc.closed] at hs hopen
    case idle => exact absurd hs.2 hnone
    case threw => exact absurd hs.2.1 hnone
    case started => exact hs.2.progress halive
    case waitEntry waiter =>
      rcases hs with ⟨-, -, hjoined⟩ | ⟨-, hgate⟩
      · exact absurd hjoined hnone
      · exact hgate.progress halive
    case join i waiter => exact hs.2.2.progress halive
    case acquire waiter => exact hs.2.progress halive
    case reset waiter => exact absurd hs.2 hnone
    all_goals cases hopen
  · intro hpc
    rw [hpc] at hs
    obtain ⟨hzero, hjoined⟩ := hs
    exact ⟨hzero, fun _ => hjoined.semaphore, hjoined.threads, hjoined.works⟩

/-! ## Runs -/

theorem phase_init (numberOfJobs : Nat) : Phase (system numberOfJobs).init :=
  ⟨rfl, rfl, fun _ => rfl, fun i => by simp [system]⟩

theorem noJobs_init : NoJobs (system 0).init :=
  ⟨rfl, rfl, fun _ => rfl, fun _ => rfl, Or.inl rfl⟩

/-- Nothing happens in a runner without jobs. -/
theorem NoJobs.step {s t : State} {a : Action} (hs : NoJobs s)
    (h : ThreadRunner.step 0 s a = some t) : NoJobs t := by
  obtain ⟨hnumber, htoStart, hthreads, hworks, hstarter⟩ := hs
  cases a with
  | start toStart =>
      simp only [ThreadRunner.step] at h
      split at h
      · obtain rfl := Option.some.inj h
        have hzero : (if toStart = 0 ∨ 0 < toStart then 0 else toStart) = 0 := by
          rw [if_pos (Nat.eq_zero_or_pos toStart)]
        simp only [startCall, if_neg (not_not_intro hnumber), hzero]
        exact ⟨hnumber, rfl, hthreads, fun _ => rfl, Or.inr (Or.inl rfl)⟩
      · cases h
  | starter created =>
      simp only [ThreadRunner.step] at h
      unfold starterStep at h
      rcases hstarter with hpc | hpc | hpc | hpc | hpc
      · simp [hpc] at h
      · have hall : ¬ s.numberRunning % 2 ^ 32 < s.toStart := by omega
        simp only [hpc, if_neg hall] at h
        obtain rfl := Option.some.inj h
        exact ⟨hnumber, htoStart, hthreads, hworks, Or.inr (Or.inr (Or.inl rfl))⟩
      · simp only [hpc] at h
        obtain rfl := Option.some.inj h
        exact ⟨hnumber, htoStart, hthreads, hworks, Or.inr (Or.inr (Or.inr (Or.inl rfl)))⟩
      · simp [hpc] at h
      · simp only [hpc] at h
        obtain rfl := Option.some.inj h
        refine ⟨hnumber, htoStart, hthreads, hworks, Or.inl ?_⟩
        show (if s.numberRunning ≠ 0 then StarterPc.join 0 .client else .idle) = .idle
        rw [if_neg (not_not_intro hnumber)]
  | wait =>
      simp only [ThreadRunner.step] at h
      split at h
      · obtain rfl := Option.some.inj h
        exact ⟨hnumber, htoStart, hthreads, hworks, Or.inr (Or.inr (Or.inr (Or.inr rfl)))⟩
      · cases h
  | thread i =>
      simp [ThreadRunner.step, threadStep, hthreads i] at h

theorem NoJobs.allOrNothing {s : State} (hs : NoJobs s) : AllOrNothing 0 s := by
  obtain ⟨hnumber, htoStart, hthreads, hworks, hstarter⟩ := hs
  refine ⟨?_, ?_, ?_, ?_⟩
  · intro hpc
    rw [hpc] at hstarter
    simp at hstarter
  · intro _
    refine ⟨by simpa [htoStart] using hnumber, fun i => ⟨?_, ?_⟩⟩
    · simp [hthreads i, htoStart]
    · simp [hthreads i, hworks i]
  · rintro - ⟨i, halive, -⟩
    exact absurd (hthreads i) halive
  · intro _
    refine ⟨hnumber, fun h => absurd rfl h, hthreads, fun i => ?_⟩
    simp [hworks i, htoStart]

/-- In every run in which the first `pthread_create` of each call of `start()`
succeeds, and `number_running_` does not overflow, every call of `start()` is all
or nothing, and leaves the runner as the first one found it. -/
theorem start_all_or_nothing {numberOfJobs : Nat} {actions : List Action}
    (hmeets : Meets (system numberOfJobs) FirstCreated (system numberOfJobs).init actions) :
    Throughout (system numberOfJobs) (AllOrNothing numberOfJobs)
      (system numberOfJobs).init actions := by
  rcases Nat.eq_zero_or_pos numberOfJobs with rfl | hpos
  · have hgood : ∀ s a t, NoJobs s → unguarded s a → FirstCreated s a →
        (system 0).step s a = some t → NoJobs t := by
      intro s a t hs _ _ hstep
      exact hs.step hstep
    exact throughout_of_meets (fun s hs => hs.allOrNothing) hgood noJobs_init
      (meets_unguarded _ _) hmeets
  · have hgood : ∀ s a t, Phase s → unguarded s a → FirstCreated s a →
        (system numberOfJobs).step s a = some t → Phase t := by
      intro s a t hs _ hguard hstep
      exact hs.step (Nat.ne_of_gt hpos) hguard hstep
    exact throughout_of_meets (fun s hs => hs.allOrNothing) hgood (phase_init numberOfJobs)
      (meets_unguarded _ _) hmeets

/-- A call whose second `pthread_create` fails: its one thread comes to the gate, does
not work, and is joined. -/
def secondFails : List Action :=
  [.start 2, .starter true, .starter true, .starter false, .starter true, .starter true,
    .thread 0, .thread 0, .thread 0, .starter true, .starter true, .starter true, .starter true,
    .starter true, .wait, .starter true]

theorem start_all_or_nothing_second_fails :
    ((system 2).run (system 2).init secondFails).map (fun s => s.starter) = some .idle ∧
      Throughout (system 2) (AllOrNothing 2) (system 2).init secondFails :=
  ⟨by decide +kernel, start_all_or_nothing (by decide +kernel)⟩

/-- The first `pthread_create` of a call fails.  The gate stays open: in the next
call the first thread works at once, and then the second `pthread_create` fails. -/
def firstFails : List Action :=
  [.start 2, .starter false, .starter true, .starter true, .starter true, .wait, .starter true,
    .start 2, .starter true, .starter true, .thread 0, .thread 0, .thread 0, .thread 0,
    .starter false, .starter true, .starter true, .starter true, .starter true, .starter true,
    .starter true, .starter true]

theorem works_before_failed_start :
    ∃ s, (system 2).run (system 2).init firstFails = some s ∧ s.starter = .threw ∧
      s.works 0 = 1 ∧ s.startSemaphore = 1 ∧ ¬ AllOrNothing 2 s := by
  have hend : ((system 2).run (system 2).init firstFails).map
      (fun s => (s.starter, s.works 0, s.startSemaphore)) = some (.threw, 1, 1) := by
    decide +kernel
  obtain ⟨s, hrun, hvalues⟩ := Option.map_eq_some_iff.mp hend
  simp only [Prod.mk.injEq] at hvalues
  obtain ⟨hpc, hworks, hsemaphore⟩ := hvalues
  refine ⟨s, hrun, hpc, hworks, hsemaphore, ?_⟩
  intro hall
  have hzero := (hall.threw hpc).2.2.1 0
  omega

end ThreadRunner
end LiteMQ
