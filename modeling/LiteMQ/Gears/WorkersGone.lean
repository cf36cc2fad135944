import LiteMQ.Foundation.Mutex
import LiteMQ.Gears.ActiveObjectCommonImpl

/-!
# `AS_NOT_ACTIVE` means that the workers are gone

`termination_mutex_` lets one client at a time wait, and while the object is not
`AS_NOT_ACTIVE` only that client makes it so.  So a client that has read another state
joins the workers of the life cycle that it ends.  A client that has read
`AS_NOT_ACTIVE` joins nobody, and when the object is activated and deactivated before it
comes to the last section, it ends that life cycle with its workers running
(`not_active_with_workers`).

`threads_gone_iff` says that this is the only way.
-/

namespace LiteMQ
namespace ActiveObjectCommonImpl

open TransitionSystem

variable {T : Type*}

/-- The runner has no thread, or those of one call of `start` that are not joined. -/
structure Workers (n : Nat) (runner : ThreadRunner.State) : Prop where
  number : runner.numberRunning = 0 ∨ runner.numberRunning = n
  none : runner.numberRunning = 0 → ∀ i, runner.threads i = .gone
  above : ∀ i, n ≤ i → runner.threads i = .gone

/-- How far a client is in `wait_for_completion`. -/
def Completing (n : Nat) (runner : ThreadRunner.State) : Prop :=
  match runner.starter with
  | .waitEntry .client => True
  | .join j .client => runner.numberRunning = n ∧ ∀ i < j, runner.threads i = .gone
  | .acquire .client | .reset .client => ∀ i, runner.threads i = .gone
  | .idle => runner.numberRunning = 0
  | _ => False

/-- What a client knows where it stands. -/
def At (n : Nat) (s : State T) : Pc → Prop
  | .idle | .lock | .read => True
  | .complete => s.activeState ≠ .notActive ∧ Completing n s.runner
  | .terminated | .last false => s.activeState ≠ .notActive ∧ s.runner.numberRunning = 0
  | .last true => s.activeState ≠ .notActive → s.runner.numberRunning = n

structure Inv (n : Nat) (s : State T) : Prop where
  termination : ∀ t, s.termination = some t ↔ (s.pcs t).waits = true
  workers : Workers n s.runner
  resting : s.activeState = .notActive → s.runner.numberRunning = 0
  client : ∀ t, At n s (s.pcs t)

theorem at_of_not_waits {n : Nat} {s : State T} {pc : Pc} (h : pc.waits = false) : At n s pc := by
  cases pc with
  | idle | lock => trivial
  | read | complete | terminated | last restful => cases h

/-- A worker is not gone before its operation and not after it. -/
theorem threadStep_spec {runner runner' : ThreadRunner.State} {i : Nat}
    (h : ThreadRunner.threadStep runner i = some runner') :
    runner'.numberRunning = runner.numberRunning ∧ runner'.starter = runner.starter ∧
      ∀ j, runner'.threads j = .gone ↔ runner.threads j = .gone := by
  have hgoto : ∀ (r : ThreadRunner.State) (next : ThreadRunner.ThreadPc),
      r.threads = runner.threads → runner.threads i ≠ .gone → next ≠ .gone →
        ∀ j, (r.goto i next).threads j = .gone ↔ runner.threads j = .gone := by
    intro r next hthreads hbefore hafter j
    by_cases hj : j = i
    · simp [ThreadRunner.State.goto, hj, hbefore, hafter]
    · simp [ThreadRunner.State.goto, hj, hthreads]
  unfold ThreadRunner.threadStep at h
  cases hpc : runner.threads i with
  | gone | done => simp [hpc] at h
  | acquire =>
      simp only [hpc] at h
      split at h
      · obtain rfl := Option.some.inj h
        exact ⟨rfl, rfl, hgoto _ _ rfl (by simp [hpc]) (by simp)⟩
      · cases h
  | release | work =>
      simp only [hpc] at h
      obtain rfl := Option.some.inj h
      exact ⟨rfl, rfl, hgoto _ _ rfl (by simp [hpc]) (by simp)⟩
  | test =>
      simp only [hpc] at h
      obtain rfl := Option.some.inj h
      exact ⟨rfl, rfl, hgoto _ _ rfl (by simp [hpc]) (by split <;> simp)⟩

/-- What a client knows does not depend on how far the workers are. -/
theorem At.worker {n : Nat} {s : State T} {runner : ThreadRunner.State} {pc : Pc} (h : At n s pc)
    (hnumber : runner.numberRunning = s.runner.numberRunning)
    (hstarter : runner.starter = s.runner.starter)
    (hgone : ∀ i, runner.threads i = .gone ↔ s.runner.threads i = .gone) :
    At n { s with runner := runner } pc := by
  cases pc with
  | idle | lock | read => trivial
  | complete =>
      refine ⟨h.1, ?_⟩
      have hcompleting := h.2
      simpa only [Completing, hnumber, hstarter, hgone] using hcompleting
  | terminated => exact ⟨h.1, hnumber.trans h.2⟩
  | last restful =>
      cases restful with
      | false => exact ⟨h.1, hnumber.trans h.2⟩
      | true => exact fun hbusy => hnumber.trans (h hbusy)

theorem Workers.worker {n : Nat} {runner runner' : ThreadRunner.State} (h : Workers n runner)
    (hnumber : runner'.numberRunning = runner.numberRunning)
    (hgone : ∀ i, runner'.threads i = .gone ↔ runner.threads i = .gone) : Workers n runner' := by
  constructor
  · rw [hnumber]
    exact h.number
  · intro hzero i
    exact (hgone i).mpr (h.none (hnumber ▸ hzero) i)
  · exact fun i hi => (hgone i).mpr (h.above i hi)

/-- One operation of a client in `wait_for_completion`. -/
theorem Completing.step {n : Nat} {runner runner' : ThreadRunner.State} (hn : 0 < n)
    (hworkers : Workers n runner) (h : Completing n runner)
    (hstep : ThreadRunner.starterStep runner true = some runner') :
    Workers n runner' ∧ Completing n runner' := by
  unfold Completing at h
  unfold ThreadRunner.starterStep at hstep
  split at h
  · rename_i hpc
    simp only [hpc] at hstep
    obtain rfl := Option.some.inj hstep
    refine ⟨⟨hworkers.number, hworkers.none, hworkers.above⟩, ?_⟩
    -- without threads there is nothing to join
    by_cases hzero : runner.numberRunning = 0
    · simp [Completing, hzero, ThreadRunner.Waiter.returned]
    · have hall := hworkers.number.resolve_left hzero
      simp [Completing, hall, Nat.pos_iff_ne_zero.mp hn]
  · rename_i j hpc
    obtain ⟨hnumber, hjoined⟩ := h
    simp only [hpc, hnumber, Int.natAbs_natCast] at hstep
    have hbusy : (n : Int) ≠ 0 := by omega
    split at hstep
    · split at hstep
      · -- thread `j` has exited and is joined
        obtain rfl := Option.some.inj hstep
        have hgone : ∀ i, runner.threads i = .gone →
            Function.update runner.threads j .gone i = .gone := by
          intro i hi
          by_cases heq : i = j
          · simp [heq]
          · simpa [heq] using hi
        constructor
        · exact ⟨Or.inr rfl, fun hzero => absurd hzero hbusy,
            fun i hi => hgone i (hworkers.above i hi)⟩
        · refine ⟨rfl, fun i hi => ?_⟩
          rcases Nat.lt_succ_iff_lt_or_eq.mp hi with hlt | rfl
          · exact hgone i (hjoined i hlt)
          · simp
      · cases hstep
    · -- all are joined
      rename_i hend
      obtain rfl := Option.some.inj hstep
      refine ⟨⟨Or.inr rfl, fun hzero => absurd hzero hbusy, hworkers.above⟩, fun i => ?_⟩
      by_cases hi : i < j
      · exact hjoined i hi
      · exact hworkers.above i (by omega)
  · rename_i hpc
    simp only [hpc] at hstep
    split at hstep
    · obtain rfl := Option.some.inj hstep
      exact ⟨⟨hworkers.number, hworkers.none, hworkers.above⟩, h⟩
    · cases hstep
  · rename_i hpc
    simp only [hpc] at hstep
    obtain rfl := Option.some.inj hstep
    exact ⟨⟨Or.inl rfl, fun _ => h, hworkers.above⟩, rfl⟩
  · rename_i hpc
    simp [hpc] at hstep
  · cases h

variable [DecidableEq T]

omit [DecidableEq T] in
/-- `termination_mutex_` lets one client wait at a time. -/
theorem Inv.others {n : Nat} {s : State T} (hs : Inv n s) {t : T}
    (hwaits : (s.pcs t).waits = true) : ∀ t', t' ≠ t → (s.pcs t').waits = false := by
  have hheld : Mutex.Held Pc.waits s.termination s.pcs := hs.termination
  exact fun t' ht => hheld.outside_of_inside hwaits ht

/-- A step of a client beside which nobody waits: no other client knows anything. -/
theorem inv_alone {n : Nat} {s s' : State T} {t : T} {pc : Pc}
    (hothers : ∀ t', t' ≠ t → (s.pcs t').waits = false)
    (hpcs : s'.pcs = Function.update s.pcs t pc)
    (htermination : s'.termination = if pc.waits then some t else none)
    (hworkers : Workers n s'.runner)
    (hresting : s'.activeState = .notActive → s'.runner.numberRunning = 0)
    (hat : At n s' pc) : Inv n s' := by
  constructor
  · rw [htermination, hpcs]
    exact Mutex.held_update hothers pc
  · exact hworkers
  · exact hresting
  · rw [hpcs]
    exact (Function.forall_update_iff s.pcs fun _ pc => At n s' pc).mpr
      ⟨hat, fun t' ht => at_of_not_waits (hothers t' ht)⟩

/-- A step of the client in `wait_object`, which keeps the mutex. -/
theorem Inv.clientStep {n : Nat} {s : State T} (hs : Inv n s) {t : T} {pc : Pc}
    {terminating : Bool} {runner : ThreadRunner.State}
    (hwaits : (s.pcs t).waits = true) (hnew : pc.waits = true) (hworkers : Workers n runner)
    (hresting : s.activeState = .notActive → runner.numberRunning = 0)
    (hat : At n { s with
      terminating := terminating, runner := runner, pcs := Function.update s.pcs t pc } pc) :
    Inv n { s with
      terminating := terminating, runner := runner, pcs := Function.update s.pcs t pc } := by
  apply inv_alone (hs.others hwaits) rfl
  · rw [if_pos hnew]
    exact (hs.termination t).mpr hwaits
  · exact hworkers
  · exact hresting
  · exact hat

/-- A client takes the mutex. -/
theorem Inv.lock {n : Nat} {s s' : State T} (hs : Inv n s) {t : T} (hpc : s.pcs t = .lock)
    (h : ActiveObjectCommonImpl.next s t = some s') : Inv n s' := by
  simp only [ActiveObjectCommonImpl.next, hpc] at h
  split at h
  · rename_i hfree
    obtain rfl := Option.some.inj h
    have hothers : ∀ t', t' ≠ t → (s.pcs t').waits = false := by
      intro t' _
      have hheld : Mutex.Held Pc.waits s.termination s.pcs := hs.termination
      rw [hfree] at hheld
      exact hheld.outside_of_free t'
    exact inv_alone hothers rfl rfl hs.workers hs.resting trivial
  · cases h

/-- A client goes on in `wait_for_completion`, or comes to its end. -/
theorem Inv.complete {n : Nat} (hn : 0 < n) {s s' : State T} (hs : Inv n s) {t : T}
    (hpc : s.pcs t = .complete) (h : ActiveObjectCommonImpl.next s t = some s') : Inv n s' := by
  have hwaits : (s.pcs t).waits = true := by rw [hpc]; rfl
  have hat := hs.client t
  rw [hpc] at hat
  obtain ⟨hbusy, hcompleting⟩ := hat
  simp only [ActiveObjectCommonImpl.next, hpc] at h
  split at h
  · rename_i hidle
    obtain rfl := Option.some.inj h
    apply hs.clientStep hwaits rfl hs.workers hs.resting
    rw [Completing, hidle] at hcompleting
    exact ⟨hbusy, hcompleting⟩
  · obtain ⟨runner, hstep, rfl⟩ := Option.map_eq_some_iff.mp h
    obtain ⟨hworkers, hcompleting'⟩ := hcompleting.step hn hs.workers hstep
    have hsame : Function.update s.pcs t .complete = s.pcs := by
      rw [← hpc, Function.update_eq_self]
    rw [← hsame]
    apply hs.clientStep hwaits rfl hworkers
    · exact fun hrest => absurd hrest hbusy
    · exact ⟨hbusy, hcompleting'⟩

/-- The last section of `wait_object`: it ends a life cycle whose workers are joined. -/
theorem Inv.last {n : Nat} {s s' : State T} (hs : Inv n s) {t : T} {restful : Bool}
    (hguard : ReadBusy s (.next t)) (hpc : s.pcs t = .last restful)
    (h : ActiveObjectCommonImpl.next s t = some s') : Inv n s' := by
  have hwaits : (s.pcs t).waits = true := by rw [hpc]; rfl
  have hat := hs.client t
  rw [hpc] at hat
  simp only [ActiveObjectCommonImpl.next, hpc] at h
  obtain rfl := Option.some.inj h
  apply inv_alone (hs.others hwaits) rfl rfl
  · exact hs.workers
  · intro hrest
    by_cases hstate : s.activeState = .deactivating
    · cases restful with
      | false => exact hat.2
      | true => exact absurd hpc (hguard hstate)
    · simp only [if_neg hstate] at hrest
      exact hs.resting hrest
  · trivial

/-- What `wait_object` does keeps the invariant when its client has not read
`AS_NOT_ACTIVE` before it ends a life cycle. -/
theorem Inv.next {n : Nat} (hn : 0 < n) {s s' : State T} (hs : Inv n s) {t : T}
    (hguard : ReadBusy s (.next t)) (h : ActiveObjectCommonImpl.next s t = some s') :
    Inv n s' := by
  cases hpc : s.pcs t with
  | idle => simp [ActiveObjectCommonImpl.next, hpc] at h
  | lock => exact hs.lock hpc h
  | read =>
      have hwaits : (s.pcs t).waits = true := by rw [hpc]; rfl
      simp only [ActiveObjectCommonImpl.next, hpc] at h
      split at h
      · rename_i hstate
        obtain rfl := Option.some.inj h
        apply hs.clientStep hwaits rfl hs.workers hs.resting
        exact fun hbusy => absurd hstate hbusy
      · rename_i hstate
        obtain rfl := Option.some.inj h
        apply hs.clientStep hwaits rfl
        · exact ⟨hs.workers.number, hs.workers.none, hs.workers.above⟩
        · exact hs.resting
        · exact ⟨hstate, trivial⟩
  | complete => exact hs.complete hn hpc h
  | terminated =>
      have hwaits : (s.pcs t).waits = true := by rw [hpc]; rfl
      have hat := hs.client t
      rw [hpc] at hat
      simp only [ActiveObjectCommonImpl.next, hpc] at h
      obtain rfl := Option.some.inj h
      exact hs.clientStep hwaits rfl hs.workers hs.resting hat
  | last restful => exact hs.last hguard hpc h

/-- The call of `activate_object`: from `AS_NOT_ACTIVE` the runner is empty and starts. -/
theorem Inv.activate {numberOfJobs startThreads : Nat}
    (hint : toStart numberOfJobs startThreads < 2 ^ 31) {s s' : State T}
    (hs : Inv (toStart numberOfJobs startThreads) s) {t : T}
    (h : step numberOfJobs startThreads s (.activate t) = some s') :
    Inv (toStart numberOfJobs startThreads) s' := by
  simp only [step] at h
  split at h
  · split at h
    · rename_i hrest
      have hempty := hs.resting hrest
      have hnumber : asInt (toStart numberOfJobs startThreads) =
          toStart numberOfJobs startThreads := by
        apply asInt_eq_self <;> omega
      simp only [start, if_neg (not_not_intro hempty), hnumber] at h
      obtain rfl := Option.some.inj h
      constructor
      · exact hs.termination
      · refine ⟨Or.inr rfl, fun hzero i => ?_, fun i hi => ?_⟩
        · have hnone : ¬ i < toStart numberOfJobs startThreads := by
            have hzero' : (toStart numberOfJobs startThreads : Int) = 0 := hzero
            omega
          simp only [if_neg hnone]
          exact hs.workers.none hempty i
        · simp only [if_neg (Nat.not_lt.mpr hi)]
          exact hs.workers.above i hi
      · rintro ⟨⟩
      · intro t'
        have hat := hs.client t'
        show At _ _ (s.pcs t')
        cases hpc : s.pcs t' with
        | idle | lock | read => trivial
        | complete | terminated =>
            rw [hpc] at hat
            exact absurd hrest hat.1
        | last restful =>
            rw [hpc] at hat
            cases restful with
            | false => exact absurd hrest hat.1
            | true => exact fun _ => rfl
    · obtain rfl := Option.some.inj h
      exact hs
  · cases h

/-- The call of `deactivate_object`: an object that is not at rest stays so. -/
theorem Inv.deactivate {n numberOfJobs startThreads : Nat} {s s' : State T} (hs : Inv n s) {t : T}
    (h : step numberOfJobs startThreads s (.deactivate t) = some s') : Inv n s' := by
  simp only [step] at h
  split at h
  · split at h
    · rename_i hactive
      obtain rfl := Option.some.inj h
      have hbusy : s.activeState ≠ .notActive := by simp [hactive]
      constructor
      · exact hs.termination
      · exact hs.workers
      · rintro ⟨⟩
      · intro t'
        have hat := hs.client t'
        show At _ _ (s.pcs t')
        cases hpc : s.pcs t' with
        | idle | lock | read => trivial
        | complete | terminated =>
            rw [hpc] at hat
            exact ⟨by simp, hat.2⟩
        | last restful =>
            rw [hpc] at hat
            cases restful with
            | false => exact ⟨by simp, hat.2⟩
            | true => exact fun _ => hat hbusy
    · obtain rfl := Option.some.inj h
      exact hs
  · cases h

theorem Inv.step {numberOfJobs startThreads : Nat}
    (hpos : 0 < toStart numberOfJobs startThreads)
    (hint : toStart numberOfJobs startThreads < 2 ^ 31) {s s' : State T}
    (hs : Inv (toStart numberOfJobs startThreads) s) {a : Action T} (hguard : ReadBusy s a)
    (h : ActiveObjectCommonImpl.step numberOfJobs startThreads s a = some s') :
    Inv (toStart numberOfJobs startThreads) s' := by
  cases a with
  | activate t => exact hs.activate hint h
  | deactivate t => exact hs.deactivate h
  | wait t =>
      simp only [ActiveObjectCommonImpl.step] at h
      split at h
      · rename_i hidle
        obtain rfl := Option.some.inj h
        constructor
        · intro t'
          by_cases ht : t' = t
          · have hnot := hs.termination t
            simp only [hidle, Pc.waits, Bool.false_eq_true, iff_false] at hnot
            simp [ht, Pc.waits, hnot]
          · simp only [ne_eq, ht, not_false_eq_true, Function.update_of_ne]
            exact hs.termination t'
        · exact hs.workers
        · exact hs.resting
        · intro t'
          by_cases ht : t' = t
          · simp [ht, At]
          · simp only [ne_eq, ht, not_false_eq_true, Function.update_of_ne]
            exact hs.client t'
      · cases h
  | next t => exact hs.next hpos hguard h
  | worker i =>
      obtain ⟨runner, hstep, rfl⟩ := Option.map_eq_some_iff.mp h
      obtain ⟨hnumber, hstarter, hgone⟩ := threadStep_spec hstep
      constructor
      · exact hs.termination
      · exact hs.workers.worker hnumber hgone
      · exact fun hrest => hnumber.trans (hs.resting hrest)
      · exact fun t => (hs.client t).worker hnumber hstarter hgone

omit [DecidableEq T] in
theorem Inv.threadsGone {n numberOfJobs startThreads : Nat} {s : State T} (hs : Inv n s) :
    ThreadsGone numberOfJobs startThreads s := by
  intro hrest
  have hempty := hs.resting hrest
  refine ⟨hs.workers.none hempty, hempty, ?_⟩
  simp [start, hempty]

/-- A client that has read `AS_NOT_ACTIVE` and ends a life cycle leaves its workers. -/
theorem Inv.not_threadsGone {n numberOfJobs startThreads : Nat} (hn : 0 < n) {s s' : State T}
    (hs : Inv n s) {a : Action T} (hguard : ¬ ReadBusy s a)
    (h : ActiveObjectCommonImpl.step numberOfJobs startThreads s a = some s') :
    ¬ ThreadsGone numberOfJobs startThreads s' := by
  cases a with
  | next t =>
      simp only [ReadBusy, ne_eq, Classical.not_imp, not_not] at hguard
      obtain ⟨hstate, hpc⟩ := hguard
      have hat := hs.client t
      rw [hpc] at hat
      have hnumber : s.runner.numberRunning = n := hat (by simp [hstate])
      simp only [ActiveObjectCommonImpl.step, ActiveObjectCommonImpl.next, hpc, if_pos hstate] at h
      obtain rfl := Option.some.inj h
      intro hgone
      have hzero := (hgone rfl).2.1
      simp only [hnumber] at hzero
      omega
  | activate t | deactivate t | wait t | worker i => exact absurd trivial hguard

theorem inv_init (n numberOfJobs startThreads : Nat) :
    Inv n (system T numberOfJobs startThreads).init := by
  constructor
  · intro t
    simp [system, Pc.waits]
  · exact ⟨Or.inl rfl, fun _ _ => rfl, fun _ _ => rfl⟩
  · exact fun _ => rfl
  · exact fun _ => trivial

/-- In every run of an object with at least one job that starts fewer than `2 ^ 31`
workers, `AS_NOT_ACTIVE` means throughout that the workers are gone exactly when no client
ends a life cycle after it has read `AS_NOT_ACTIVE` in the same call. -/
theorem threads_gone_iff {numberOfJobs startThreads : Nat} (hjobs : 0 < numberOfJobs)
    (hint : toStart numberOfJobs startThreads < 2 ^ 31) {actions : List (Action T)} {s : State T}
    (hrun : (system T numberOfJobs startThreads).run (system T numberOfJobs startThreads).init
      actions = some s) :
    Throughout (system T numberOfJobs startThreads) (ThreadsGone numberOfJobs startThreads)
        (system T numberOfJobs startThreads).init actions ↔
      Meets (system T numberOfJobs startThreads) ReadBusy
        (system T numberOfJobs startThreads).init actions := by
  have hpos : 0 < toStart numberOfJobs startThreads := by
    unfold toStart
    split <;> omega
  have hgood : ∀ s a s', Inv (toStart numberOfJobs startThreads) s → unguarded s a →
      ReadBusy s a → (system T numberOfJobs startThreads).step s a = some s' →
      Inv (toStart numberOfJobs startThreads) s' := by
    intro s a s' hs _ hguard hstep
    exact hs.step hpos hint hguard hstep
  have hbad : ∀ s a s', Inv (toStart numberOfJobs startThreads) s → unguarded s a →
      ¬ ReadBusy s a → (system T numberOfJobs startThreads).step s a = some s' →
      ¬ ThreadsGone numberOfJobs startThreads s' := by
    intro s a s' hs _ hguard hstep
    exact hs.not_threadsGone hpos hguard hstep
  exact throughout_iff_meets (fun s hs => hs.threadsGone) hgood hbad
    (inv_init _ numberOfJobs startThreads) hrun (meets_unguarded _ _)

/-- One worker is started, told to stop and waited for. -/
def oneLifeCycle (client waiter : T) : List (Action T) :=
  [.activate client, .worker 0, .worker 0, .worker 0, .wait waiter, .next waiter, .next waiter,
    .next waiter, .deactivate client, .worker 0] ++ List.replicate 7 (.next waiter)

theorem threads_gone_iff_one_life_cycle :
    ∃ s, (system (Fin 2) 1 0).run (system (Fin 2) 1 0).init (oneLifeCycle 0 1) = some s ∧
      s.activeState = .notActive ∧
      Throughout (system (Fin 2) 1 0) (ThreadsGone 1 0) (system (Fin 2) 1 0).init
        (oneLifeCycle 0 1) := by
  have hend : ((system (Fin 2) 1 0).run (system (Fin 2) 1 0).init (oneLifeCycle 0 1)).map
      (fun s => s.activeState) = some .notActive := by
    decide +kernel
  obtain ⟨s, hrun, hstate⟩ := Option.map_eq_some_iff.mp hend
  exact ⟨s, hrun, hstate, (threads_gone_iff (by decide) (by decide) hrun).mpr (by decide +kernel)⟩

/-- The waiter reads `AS_NOT_ACTIVE`, the client activates and deactivates the object, and
the waiter comes to its last section: the worker is at its gate.  `activate_object` then
fails. -/
def restfulWaiter (client waiter : T) : List (Action T) :=
  [.wait waiter, .next waiter, .next waiter, .activate client, .deactivate client, .next waiter]

theorem not_active_with_workers :
    ∃ s, (system (Fin 2) 1 0).run (system (Fin 2) 1 0).init (restfulWaiter 0 1) = some s ∧
      s.activeState = .notActive ∧ s.runner.threads 0 = .acquire ∧ start 1 0 s.runner = none ∧
      ¬ ThreadsGone 1 0 s := by
  have hend : ((system (Fin 2) 1 0).run (system (Fin 2) 1 0).init (restfulWaiter 0 1)).map
      (fun s => (s.activeState, s.runner.threads 0, (start 1 0 s.runner).isNone)) =
      some (.notActive, .acquire, true) := by
    decide +kernel
  obtain ⟨s, hrun, hvalues⟩ := Option.map_eq_some_iff.mp hend
  simp only [Prod.mk.injEq, Option.isNone_iff_eq_none] at hvalues
  obtain ⟨hstate, hthread, hstart⟩ := hvalues
  refine ⟨s, hrun, hstate, hthread, hstart, ?_⟩
  intro hgone
  exact (hgone hstate).2.2 hstart

end ActiveObjectCommonImpl
end LiteMQ
