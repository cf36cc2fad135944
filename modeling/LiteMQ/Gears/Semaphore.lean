import LiteMQ.Foundation.Counting
import LiteMQ.Foundation.Linearizability
import LiteMQ.Foundation.Mutex
import LiteMQ.Message.MessageQueue

/-!
# `Gears::Semaphore`

A counter under the mutex of a condition variable.  A thread that finds the counter
empty waits on the condition, which frees the mutex while it sleeps; `release` counts up
under the mutex and signals behind it.  A signal wakes one sleeper if there is one, a
sleeper may also wake up without one, and the sleeper of `timed_acquire` may wake up
because its time is over.  Whoever wakes up has to get the mutex first.

`AtomicSemaphore.object` is what the semaphore is for.  It answers at once, and its
`timed_acquire` may give up at any moment.
-/

namespace LiteMQ
namespace Semaphore

open TransitionSystem

/-- The operations that want to count down. -/
inductive Acquisition
  | acquire
  | tryAcquire
  /-- `timed_acquire` with a time; without one it is `acquire` -/
  | timedAcquire
  deriving DecidableEq, Repr

inductive Op
  | acquisition (kind : Acquisition)
  | release
  | value
  deriving DecidableEq, Repr

/-- What an operation returns. -/
inductive Result
  | done
  | acquired (success : Bool)
  | count (n : Int)
  deriving DecidableEq, Repr

/-- The result of the operation that has counted down: `acquire` returns nothing. -/
def Acquisition.success : Acquisition → Result
  | .acquire => .done
  | .tryAcquire | .timedAcquire => .acquired true

/-! ## What it is for -/

namespace AtomicSemaphore

/-- The counter after an operation with this result. -/
def perform (count : Int) : Op → Result → Option Int
  | .acquisition .acquire, .done => if 0 < count then some (count - 1) else none
  | .acquisition .tryAcquire, .acquired true => if 0 < count then some (count - 1) else none
  | .acquisition .tryAcquire, .acquired false => if 0 < count then none else some count
  | .acquisition .timedAcquire, .acquired true => if 0 < count then some (count - 1) else none
  | .acquisition .timedAcquire, .acquired false => some count
  | .release, .done => some (count + 1)
  | .value, .count n => if n = count then some count else none
  | _, _ => none

def object (initial : Int) : AtomicObject Int Op Result := ⟨initial, perform⟩

end AtomicSemaphore

/-! ## The code -/

/-- Where a thread stands: the statement that comes next. -/
inductive Pc
  /-- in no operation -/
  | idle
  /-- the constructor of the `Guard` -/
  | lock (op : Op)
  /-- the test of `count_` -/
  | test (kind : Acquisition)
  /-- in `wait`, or in `timed_wait` -/
  | asleep (timed : Bool)
  /-- woken up there -/
  | woken (timed : Bool)
  /-- `ETIMEDOUT` in `timed_wait` -/
  | expired
  /-- `--count_` -/
  | take (kind : Acquisition)
  /-- `++count_` -/
  | increment
  /-- `return count_` -/
  | read
  /-- the destructor of the `Guard`, with what is returned behind it -/
  | unlock (op : Op) (result : Result)
  /-- the destructor of the `Guard` of `release` -/
  | unlockRelease
  /-- `condition_lock_.signal()` -/
  | signal
  deriving DecidableEq, Repr

/-- The thread holds the mutex. -/
def Pc.inside : Pc → Bool
  | .test _ | .take _ | .increment | .read | .unlock _ _ | .unlockRelease => true
  | .idle | .lock _ | .asleep _ | .woken _ | .expired | .signal => false

def Pc.sleeping : Pc → Bool
  | .asleep _ => true
  | .idle | .lock _ | .test _ | .woken _ | .expired | .take _ | .increment | .read
  | .unlock _ _ | .unlockRelease | .signal => false

/-- The operation that waits. -/
def waiting : Bool → Acquisition
  | false => .acquire
  | true => .timedAcquire

/-- The first statement behind the `Guard`. -/
def Op.body : Op → Pc
  | .acquisition kind => .test kind
  | .release => .increment
  | .value => .read

/-- What an acquisition does when `count_` is not positive. -/
def Acquisition.refused : Acquisition → Pc
  | .acquire => .asleep false
  | .timedAcquire => .asleep true
  | .tryAcquire => .unlock (.acquisition .tryAcquire) (.acquired false)

/-- `count_`, the owner of the mutex, and the threads. -/
structure State (Thread : Type*) where
  count : Int
  owner : Option Thread
  threads : Thread → Pc

inductive Action (Thread : Type*)
  | call (i : Thread) (op : Op)
  /-- the next statement of the thread -/
  | next (i : Thread)
  /-- `signal` of the thread wakes this sleeper -/
  | wake (i j : Thread)
  /-- a sleeper wakes up without a signal -/
  | spurious (j : Thread)
  /-- the time of a sleeper is over -/
  | timeout (j : Thread)

variable {Thread : Type*} [DecidableEq Thread]

/-- The thread comes to `pc`. -/
def State.goTo (s : State Thread) (i : Thread) (pc : Pc) : State Thread :=
  { s with threads := Function.update s.threads i pc }

@[simp] theorem State.goTo_count (s : State Thread) (i : Thread) (pc : Pc) :
    (s.goTo i pc).count = s.count := rfl

@[simp] theorem State.goTo_owner (s : State Thread) (i : Thread) (pc : Pc) :
    (s.goTo i pc).owner = s.owner := rfl

@[simp] theorem State.goTo_threads (s : State Thread) (i : Thread) (pc : Pc) :
    (s.goTo i pc).threads = Function.update s.threads i pc := rfl

/-- The next statement of the thread `i`.  A `signal` goes nowhere when nobody sleeps. -/
def next [Fintype Thread] (s : State Thread) (i : Thread) : Option (State Thread) :=
  match s.threads i with
  | .idle | .asleep _ => none
  | .lock op => if s.owner = none then some { s.goTo i op.body with owner := some i } else none
  | .test kind =>
      if s.count ≤ 0 then
        some { s.goTo i kind.refused with
          owner := if kind.refused.inside then some i else none }
      else some (s.goTo i (.take kind))
  | .woken timed =>
      if s.owner = none then
        some { s.goTo i (.test (waiting timed)) with owner := some i }
      else none
  | .expired =>
      if s.owner = none then
        some { s.goTo i (.unlock (.acquisition .timedAcquire) (.acquired false)) with
          owner := some i }
      else none
  | .take kind =>
      some { s.goTo i (.unlock (.acquisition kind) kind.success) with count := asInt (s.count - 1) }
  | .increment => some { s.goTo i .unlockRelease with count := asInt (s.count + 1) }
  | .read => some (s.goTo i (.unlock .value (.count s.count)))
  | .unlock _ _ => some { s.goTo i .idle with owner := none }
  | .unlockRelease => some { s.goTo i .signal with owner := none }
  | .signal =>
      if ∀ j, (s.threads j).sleeping = false then some (s.goTo i .idle) else none

def step [Fintype Thread] (s : State Thread) : Action Thread → Option (State Thread)
  | .call i op =>
      match s.threads i with
      | .idle => some (s.goTo i (.lock op))
      | _ => none
  | .next i => next s i
  | .wake i j =>
      match s.threads i, s.threads j with
      | .signal, .asleep timed => some ((s.goTo j (.woken timed)).goTo i .idle)
      | _, _ => none
  | .spurious j =>
      match s.threads j with
      | .asleep timed => some (s.goTo j (.woken timed))
      | _ => none
  | .timeout j =>
      match s.threads j with
      | .asleep true => some (s.goTo j .expired)
      | _ => none

/-- A new semaphore under any interleaving of the threads. -/
def system (Thread : Type*) [DecidableEq Thread] [Fintype Thread] (initial : Int32) :
    TransitionSystem (State Thread) (Action Thread) :=
  ⟨⟨initial.toInt, none, fun _ => .idle⟩, step⟩

/-- `++count_` does not overflow. -/
def Room (s : State Thread) : Action Thread → Prop
  | .next i => s.threads i = .increment → s.count < 2 ^ 31 - 1
  | .call _ _ | .wake _ _ | .spurious _ | .timeout _ => True

instance (s : State Thread) : ∀ a, Decidable (Room s a)
  | .next i => inferInstanceAs (Decidable (s.threads i = .increment → s.count < 2 ^ 31 - 1))
  | .call _ _ | .wake _ _ | .spurious _ | .timeout _ => inferInstanceAs (Decidable True)

/-! ## Every operation takes effect at one moment -/

/-- What the clients of the atomic semaphore see of a thread. -/
def Pc.status : Pc → AtomicObject.Status Op Result
  | .idle => .idle
  | .lock op => .pending op
  | .test kind | .take kind => .pending (.acquisition kind)
  | .asleep timed | .woken timed => .pending (.acquisition (waiting timed))
  | .expired => .pending (.acquisition .timedAcquire)
  | .increment => .pending .release
  | .read => .pending .value
  | .unlock op result => .performed op result
  | .unlockRelease | .signal => .performed .release .done

def project (s : State Thread) : AtomicObject.State Thread Int Op Result :=
  ⟨s.count, Pc.status ∘ s.threads⟩

/-- The calls and the returns. -/
def observed (s : State Thread) : Action Thread → Option (AtomicObject.Event Thread Op Result)
  | .call i op => some (.call i op)
  | .next i =>
      match s.threads i with
      | .unlock op result => some (.ret i op result)
      | .signal => some (.ret i .release .done)
      | _ => none
  | .wake i _ => some (.ret i .release .done)
  | .spurious _ | .timeout _ => none

/-- The mutex protects `count_`, which stays an `int`, and `--count_` stands behind a
test that has found it positive. -/
structure Inv (s : State Thread) : Prop where
  held : Mutex.Held Pc.inside s.owner s.threads
  positive : ∀ i kind, s.threads i = .take kind → 0 < s.count
  low : -2 ^ 31 ≤ s.count
  high : s.count < 2 ^ 31

section Steps

variable {s t : State Thread} {i j : Thread} {pc : Pc}

theorem status_goTo (s : State Thread) (i : Thread) (pc : Pc) :
    Pc.status ∘ (s.goTo i pc).threads = Function.update (Pc.status ∘ s.threads) i pc.status :=
  Function.comp_update ..

/-- A statement that the clients do not see. -/
theorem status_goTo_of_eq (h : pc.status = (s.threads i).status) :
    Pc.status ∘ (s.goTo i pc).threads = Pc.status ∘ s.threads := by
  rw [status_goTo, h]
  exact Function.update_eq_self i _

/-- A test of `count_` by one thread stays true while others do not hold the mutex. -/
theorem Inv.positive_goTo (hs : Inv s) (hpc : ∀ kind, pc = .take kind → 0 < s.count) :
    ∀ k kind, (s.goTo i pc).threads k = .take kind → 0 < s.count := by
  intro k kind hk
  by_cases hki : k = i
  · subst hki
    exact hpc kind (by simpa using hk)
  · exact hs.positive k kind (by simpa [Function.update_of_ne hki] using hk)

/-- The mutex is not touched. -/
theorem Inv.keep (hs : Inv s) (hinside : pc.inside = (s.threads i).inside)
    (hpc : ∀ kind, pc = .take kind → 0 < s.count) : Inv (s.goTo i pc) :=
  ⟨hs.held.keep hinside, hs.positive_goTo hpc, hs.low, hs.high⟩

/-- The mutex is taken. -/
theorem Inv.take (hs : Inv s) (hfree : s.owner = none) (hinside : pc.inside = true)
    (hpc : ∀ kind, pc ≠ .take kind) : Inv { s.goTo i pc with owner := some i } := by
  have hheld := hs.held
  rw [hfree] at hheld
  exact ⟨hheld.take i hinside, hs.positive_goTo fun kind h => absurd h (hpc kind), hs.low, hs.high⟩

/-- The mutex is released. -/
theorem Inv.release (hs : Inv s) (hi : (s.threads i).inside = true)
    (hinside : pc.inside = false) : Inv { s.goTo i pc with owner := none } := by
  have hheld := hs.held
  rw [(hs.held i).mpr hi] at hheld
  refine ⟨hheld.release hinside, hs.positive_goTo ?_, hs.low, hs.high⟩
  rintro kind rfl
  cases hinside

/-- The counter changes under the mutex. -/
theorem Inv.change {count : Int} (hs : Inv s) (hi : (s.threads i).inside = true)
    (hinside : pc.inside = true) (hpc : ∀ kind, pc ≠ .take kind) (hlow : -2 ^ 31 ≤ count)
    (hhigh : count < 2 ^ 31) : Inv { s.goTo i pc with count := count } := by
  refine ⟨hs.held.keep (hinside.trans hi.symm), fun k kind hk => ?_, hlow, hhigh⟩
  by_cases hki : k = i
  · subst hki
    exact absurd (by simpa using hk) (hpc kind)
  · have hother : s.threads k = .take kind := by
      simpa [Function.update_of_ne hki] using hk
    have houtside := hs.held.outside_of_inside hi hki
    rw [hother] at houtside
    cases houtside

/-- A step that the clients do not see. -/
theorem simulated_silent {initial : Int} (hcount : t.count = s.count)
    (hthreads : t.threads = (s.goTo i pc).threads) (hpc : pc.status = (s.threads i).status) :
    (AtomicSemaphore.object initial).Simulated (project s) (project t) none := by
  refine .silent ?_
  rw [project, project, hcount, hthreads, status_goTo_of_eq hpc]

/-- The moment of an operation. -/
theorem simulated_perform {initial : Int} {op : Op} {result : Result}
    (hthreads : t.threads = (s.goTo i pc).threads) (hi : (s.threads i).status = .pending op)
    (hperform : AtomicSemaphore.perform s.count op result = some t.count)
    (hpc : pc.status = .performed op result) :
    (AtomicSemaphore.object initial).Simulated (project s) (project t) none := by
  refine .perform i op result t.count hi hperform ?_
  rw [project, hthreads, status_goTo, hpc]
  rfl

/-- A return. -/
theorem simulated_ret {initial : Int} {op : Op} {result : Result} (hcount : t.count = s.count)
    (hthreads : t.threads = (s.goTo i .idle).threads)
    (hi : (s.threads i).status = .performed op result) :
    (AtomicSemaphore.object initial).Simulated (project s) (project t)
      (some (.ret i op result)) := by
  refine .ret i op result hi ?_
  rw [project, hcount, hthreads, status_goTo]
  rfl

variable [Fintype Thread] {initial : Int}

/-- A statement of a thread keeps the invariant, also where `++count_` overflows. -/
theorem Inv.next (hs : Inv s) (h : Semaphore.next s i = some t) :
    Inv t ∧ (Room s (.next i) → (AtomicSemaphore.object initial).Simulated (project s) (project t)
      (observed s (.next i))) := by
  unfold Semaphore.next at h
  cases hpc : s.threads i <;> simp only [hpc, observed, reduceCtorEq] at h ⊢
  case lock op =>
    split at h
    · rename_i hfree
      obtain rfl := Option.some.inj h
      refine ⟨hs.take hfree (by cases op <;> rfl) (by cases op <;> simp [Op.body]), ?_⟩
      exact fun _ => simulated_silent rfl rfl (by rw [hpc]; cases op <;> rfl)
    · cases h
  case test kind =>
    have hi : (s.threads i).inside = true := by rw [hpc]; rfl
    split at h
    · rename_i hempty
      obtain rfl := Option.some.inj h
      cases kind with
      | acquire =>
          exact ⟨hs.release hi rfl, fun _ => simulated_silent rfl rfl (by rw [hpc]; rfl)⟩
      | timedAcquire =>
          exact ⟨hs.release hi rfl, fun _ => simulated_silent rfl rfl (by rw [hpc]; rfl)⟩
      | tryAcquire =>
          have howner : s.owner = some i := (hs.held i).mpr hi
          have hinv : Inv (s.goTo i (.unlock (.acquisition .tryAcquire) (.acquired false))) :=
            hs.keep (by rw [hpc]; rfl) (by simp)
          refine ⟨⟨?_, hinv.positive, hs.low, hs.high⟩, ?_⟩
          · simpa [Acquisition.refused, Pc.inside, howner] using hinv.held
          · refine fun _ => simulated_perform rfl (by rw [hpc]; rfl) ?_ rfl
            exact if_neg (by omega)
    · rename_i hsome
      obtain rfl := Option.some.inj h
      refine ⟨hs.keep (by rw [hpc]; rfl) (fun _ _ => by omega), ?_⟩
      exact fun _ => simulated_silent rfl rfl (by rw [hpc]; rfl)
  case woken timed =>
    split at h
    · rename_i hfree
      obtain rfl := Option.some.inj h
      exact ⟨hs.take hfree rfl (by simp), fun _ => simulated_silent rfl rfl (by rw [hpc]; rfl)⟩
    · cases h
  case expired =>
    split at h
    · rename_i hfree
      obtain rfl := Option.some.inj h
      refine ⟨hs.take hfree rfl (by simp), ?_⟩
      exact fun _ => simulated_perform rfl (by rw [hpc]; rfl) rfl rfl
    · cases h
  case take kind =>
    obtain rfl := Option.some.inj h
    have hpos := hs.positive i kind hpc
    have hlow := hs.low
    have hhigh := hs.high
    have hint : asInt (s.count - 1) = s.count - 1 := asInt_eq_self (by omega) (by omega)
    rw [hint]
    refine ⟨hs.change (by rw [hpc]; rfl) rfl (by simp) (by omega) (by omega), ?_⟩
    refine fun _ => simulated_perform rfl (by rw [hpc]; rfl) ?_ rfl
    cases kind <;> exact if_pos hpos
  case increment =>
    obtain rfl := Option.some.inj h
    have hint := asInt_eq (s.count + 1)
    refine ⟨hs.change (by rw [hpc]; rfl) rfl (by simp) (by omega) (by omega), fun hroom => ?_⟩
    have hlow := hs.low
    have hhigh := hroom hpc
    rw [asInt_eq_self (by omega) (by omega)]
    exact simulated_perform rfl (by rw [hpc]; rfl) rfl rfl
  case read =>
    obtain rfl := Option.some.inj h
    refine ⟨hs.keep (by rw [hpc]; rfl) (by simp), ?_⟩
    refine fun _ => simulated_perform rfl (by rw [hpc]; rfl) ?_ rfl
    exact if_pos rfl
  case unlock op result =>
    obtain rfl := Option.some.inj h
    refine ⟨hs.release (by rw [hpc]; rfl) rfl, ?_⟩
    exact fun _ => simulated_ret rfl rfl (by rw [hpc]; rfl)
  case unlockRelease =>
    obtain rfl := Option.some.inj h
    refine ⟨hs.release (by rw [hpc]; rfl) rfl, ?_⟩
    exact fun _ => simulated_silent rfl rfl (by rw [hpc]; rfl)
  case signal =>
    split at h
    · obtain rfl := Option.some.inj h
      refine ⟨hs.keep (by rw [hpc]; rfl) (by simp), ?_⟩
      exact fun _ => simulated_ret rfl rfl (by rw [hpc]; rfl)
    · cases h

/-- Each step keeps the invariant, and without an overflow it is a call, a return, the
moment of an operation, or not seen. -/
theorem Inv.step {a : Action Thread} (hs : Inv s) (h : Semaphore.step s a = some t) :
    Inv t ∧ (Room s a → (AtomicSemaphore.object initial).Simulated (project s) (project t)
      (observed s a)) := by
  cases a with
  | call i op =>
      simp only [Semaphore.step] at h
      split at h
      · rename_i hpc
        obtain rfl := Option.some.inj h
        refine ⟨hs.keep (by rw [hpc]; rfl) (by simp), ?_⟩
        refine fun _ => .call i op (congrArg Pc.status hpc) ?_
        rw [project, status_goTo]
        rfl
      · cases h
  | next i => exact hs.next h
  | wake i j =>
      simp only [Semaphore.step] at h
      split at h
      · rename_i timed hi hj
        obtain rfl := Option.some.inj h
        have hij : i ≠ j := by
          rintro rfl
          rw [hi] at hj
          cases hj
        have hwoken : Inv (s.goTo j (.woken timed)) := hs.keep (by rw [hj]; rfl) (by simp)
        have hi' : (s.goTo j (.woken timed)).threads i = .signal := by
          simpa [Function.update_of_ne hij] using hi
        refine ⟨hwoken.keep (by rw [hi']; rfl) (by simp), ?_⟩
        have hsame : project (s.goTo j (.woken timed)) = project s := by
          rw [project, project, status_goTo_of_eq (by rw [hj]; rfl)]
          rfl
        rw [← hsame]
        exact fun _ => simulated_ret rfl rfl (by rw [hi']; rfl)
      · cases h
  | spurious j =>
      simp only [Semaphore.step] at h
      split at h
      · rename_i timed hj
        obtain rfl := Option.some.inj h
        refine ⟨hs.keep (by rw [hj]; rfl) (by simp), ?_⟩
        exact fun _ => simulated_silent rfl rfl (by rw [hj]; rfl)
      · cases h
  | timeout j =>
      simp only [Semaphore.step] at h
      split at h
      · rename_i hj
        obtain rfl := Option.some.inj h
        refine ⟨hs.keep (by rw [hj]; rfl) (by simp), ?_⟩
        exact fun _ => simulated_silent rfl rfl (by rw [hj]; rfl)
      · cases h

end Steps

variable [Fintype Thread] {initial : Int32}

theorem inv_init (Thread : Type*) [DecidableEq Thread] [Fintype Thread] (initial : Int32) :
    Inv (system Thread initial).init where
  held := fun _ => by simp [system, Pc.inside]
  positive := fun _ _ h => by cases h
  low := Int32.le_toInt initial
  high := Int32.toInt_lt initial

/-- The semaphore goes with the atomic one. -/
theorem simulated {s : Logged (State Thread) (AtomicObject.Event Thread Op Result)}
    (hs : Reachable ((system Thread initial).logged observed) (fun s a => Room s.state a) s) :
    Inv s.state ∧ Reachable
      (((AtomicSemaphore.object initial.toInt).system Thread).logged AtomicObject.event)
      unguarded ⟨project s.state, s.log⟩ :=
  AtomicObject.simulated_of_steps project (inv_init Thread initial) rfl
    (fun _ _ _ hinv hroom h => (hinv.step h).imp_right fun hsimulated => hsimulated hroom) hs

/-- A thread finds the counter empty and sleeps, and the release of another one wakes it. -/
def handover : List (Action Bool) :=
  [.call false (.acquisition .acquire), .next false, .next false, .call true .release, .next true,
    .next true, .next true, .wake true false, .next false, .next false, .next false, .next false]

theorem handover_reachable :
    ∃ s, Reachable ((system Bool 0).logged observed) (fun s a => Room s.state a) s ∧
      s.log = [.call false (.acquisition .acquire), .call true .release,
        .ret true .release .done, .ret false (.acquisition .acquire) .done] := by
  have hlog : (((system Bool 0).logged observed).run ((system Bool 0).logged observed).init
      handover).map (fun s => s.log) =
        some [.call false (.acquisition .acquire), .call true .release,
          .ret true .release .done, .ret false (.acquisition .acquire) .done] := by
    decide +kernel
  obtain ⟨s, hrun, hs⟩ := Option.map_eq_some_iff.mp hlog
  exact ⟨s, Reachable.of_run .init hrun (by decide +kernel), hs⟩

/-- The return of an operation that has counted down. -/
def acquires : AtomicObject.Event Thread Op Result → Bool
  | .ret _ (.acquisition kind) result => result = kind.success
  | .ret _ .release _ | .ret _ .value _ | .call _ _ => false

/-- The call of an operation that counts up. -/
def releases : AtomicObject.Event Thread Op Result → Bool
  | .call _ .release => true
  | .call _ (.acquisition _) | .call _ .value | .ret _ _ _ => false

namespace AtomicSemaphore

/-- The permits on their way: counted down and not returned with, or called for release
and not counted up. -/
def inFlight : AtomicObject.Status Op Result → Int
  | .pending .release => 1
  | .performed (.acquisition kind) result => if result = kind.success then 1 else 0
  | .idle | .pending (.acquisition _) | .pending .value | .performed .release _
  | .performed .value _ => 0

theorem inFlight_nonneg (status : AtomicObject.Status Op Result) : 0 ≤ inFlight status := by
  unfold inFlight
  split
  · decide
  · split <;> decide
  all_goals decide

/-- What an operation does to the counter, its permit in flight takes up. -/
theorem inFlight_perform {count count' : Int} {op : Op} {result : Result}
    (h : perform count op result = some count') :
    count' + inFlight (.performed op result) = count + inFlight (.pending op) := by
  unfold perform at h
  split at h
  case h_1 | h_2 | h_4 =>
    split at h
    · obtain rfl := Option.some.inj h
      simp [inFlight, Acquisition.success]
    · cases h
  case h_3 =>
    split at h
    · cases h
    · obtain rfl := Option.some.inj h
      simp [inFlight, Acquisition.success]
  case h_5 | h_6 =>
    obtain rfl := Option.some.inj h
    simp [inFlight, Acquisition.success]
  case h_7 =>
    split at h
    · obtain rfl := Option.some.inj h
      simp [inFlight]
    · cases h
  case h_8 => cases h

/-- No operation counts below zero. -/
theorem perform_nonneg {count count' : Int} {op : Op} {result : Result} (hcount : 0 ≤ count)
    (h : perform count op result = some count') : 0 ≤ count' := by
  unfold perform at h
  split at h
  case h_1 | h_2 | h_4 =>
    split at h
    · obtain rfl := Option.some.inj h
      omega
    · cases h
  case h_3 =>
    split at h
    · cases h
    · obtain rfl := Option.some.inj h
      omega
  case h_5 | h_6 =>
    obtain rfl := Option.some.inj h
    omega
  case h_7 =>
    split at h
    · obtain rfl := Option.some.inj h
      omega
    · cases h
  case h_8 => cases h

/-- Every permit is in the counter, on its way, or has been taken. -/
theorem balance {initial : Int}
    {s : Logged (AtomicObject.State Thread Int Op Result) (AtomicObject.Event Thread Op Result)}
    (hs : Reachable (((object initial).system Thread).logged AtomicObject.event) unguarded s) :
    s.state.value + Counting.total inFlight s.state.status + s.log.countP acquires =
      initial + s.log.countP releases := by
  induction hs with
  | init => simp [logged, AtomicObject.system, object, Counting.total, inFlight]
  | @step s t a _ _ hst ih =>
      obtain ⟨hsystem, hlog⟩ := logged_step_eq_some.mp hst
      rw [hlog, List.countP_append, List.countP_append]
      rcases AtomicObject.step_cases hsystem with
        ⟨i, op, rfl, hidle, ht⟩ | ⟨i, op, result, value, rfl, hpending, hperform, ht⟩ |
          ⟨i, op, result, rfl, hperformed, ht⟩
      · rw [ht, Counting.total_update, hidle]
        cases op <;>
          simp [AtomicObject.event, inFlight, acquires, releases] <;> omega
      · have hchange := inFlight_perform hperform
        rw [ht, Counting.total_update, hpending]
        simp only [AtomicObject.event, Option.toList_none, List.countP_nil]
        omega
      · rw [ht, Counting.total_update, hperformed]
        cases op with
        | acquisition kind =>
            by_cases hsuccess : result = kind.success <;>
              simp [AtomicObject.event, hperformed, inFlight, acquires, releases, hsuccess] <;>
              omega
        | release | value =>
            simp [AtomicObject.event, hperformed, inFlight, acquires, releases]
            omega

omit [Fintype Thread] in
theorem value_nonneg {initial : Int} (hinitial : 0 ≤ initial)
    {s : Logged (AtomicObject.State Thread Int Op Result) (AtomicObject.Event Thread Op Result)}
    (hs : Reachable (((object initial).system Thread).logged AtomicObject.event) unguarded s) :
    0 ≤ s.state.value := by
  induction hs with
  | init => exact hinitial
  | step _ _ hst ih =>
      rcases AtomicObject.step_cases (logged_step_eq_some.mp hst).1 with
        ⟨i, op, rfl, hidle, ht⟩ | ⟨i, op, result, value, rfl, hpending, hperform, ht⟩ |
          ⟨i, op, result, rfl, hperformed, ht⟩
      · rwa [ht]
      · rw [ht]
        exact perform_nonneg ih hperform
      · rwa [ht]

end AtomicSemaphore

/-- **Accounting.**  No more acquisitions succeed than there were permits at first and
releases were called, `count_` is not negative, and when no operation is in progress
it is exactly what is left. -/
theorem permits_accounted {s : Logged (State Thread) (AtomicObject.Event Thread Op Result)}
    (hinitial : 0 ≤ initial.toInt)
    (hs : Reachable ((system Thread initial).logged observed) (fun s a => Room s.state a) s) :
    0 ≤ s.state.count ∧
      (s.log.countP acquires : Int) ≤ initial.toInt + s.log.countP releases ∧
      ((∀ i, s.state.threads i = .idle) →
        s.state.count = initial.toInt + s.log.countP releases - s.log.countP acquires) := by
  obtain ⟨-, hreach⟩ := simulated hs
  have hbalance := AtomicSemaphore.balance hreach
  have hvalue : 0 ≤ s.state.count := AtomicSemaphore.value_nonneg hinitial hreach
  have hflight : 0 ≤ Counting.total AtomicSemaphore.inFlight (Pc.status ∘ s.state.threads) :=
    Finset.sum_nonneg fun i _ => AtomicSemaphore.inFlight_nonneg _
  simp only [project] at hbalance
  refine ⟨hvalue, by omega, fun hidle => ?_⟩
  have hnone : Counting.total AtomicSemaphore.inFlight (Pc.status ∘ s.state.threads) = 0 := by
    refine Finset.sum_eq_zero fun i _ => ?_
    rw [Function.comp_apply, hidle i]
    rfl
  omega

theorem permits_accounted_handover :
    ∃ s : Logged (State Bool) (AtomicObject.Event Bool Op Result),
      s.log.countP acquires = 1 ∧ (1 : Int) ≤ 0 + s.log.countP releases := by
  obtain ⟨s, hs, hlog⟩ := handover_reachable
  have hacquires : s.log.countP acquires = 1 := by rw [hlog]; decide
  have hbound := (permits_accounted (by decide) hs).2.1
  rw [hacquires] at hbound
  exact ⟨s, hacquires, hbound⟩

/-! ## No lost wakeup -/

/-- The thread is going to test `count_`, or to wake a sleeper who does. -/
def Pc.onTheWay : Pc → Bool
  | .test _ | .woken _ | .take _ | .unlockRelease | .signal => true
  | .idle | .lock _ | .asleep _ | .expired | .increment | .read | .unlock _ _ => false

def Pc.weight (pc : Pc) : Int := if pc.onTheWay then 1 else 0

/-- While somebody sleeps, each unit of `count_` has a thread on its way to it. -/
def Covered (s : State Thread) : Prop :=
  (∃ j, (s.threads j).sleeping = true) → s.count ≤ Counting.total Pc.weight s.threads

section Wakeups

variable {s t : State Thread} {i j : Thread} {pc : Pc}

omit [DecidableEq Thread] in
theorem total_weight_nonneg (s : State Thread) : 0 ≤ Counting.total Pc.weight s.threads :=
  Finset.sum_nonneg fun i _ => by unfold Pc.weight; split <;> decide

/-- A thread that does not fall asleep gives up its unit only with the counter. -/
theorem Covered.goTo (hs : Covered s) (hthreads : t.threads = (s.goTo i pc).threads)
    (hawake : pc.sleeping = false)
    (hcount : t.count + (s.threads i).weight ≤ s.count + pc.weight) : Covered t := by
  rintro ⟨j, hj⟩
  have hsleeper : (s.threads j).sleeping = true := by
    by_cases hji : j = i
    · subst hji
      rw [hthreads, State.goTo_threads, Function.update_self, hawake] at hj
      cases hj
    · rwa [hthreads, State.goTo_threads, Function.update_of_ne hji] at hj
  have hbefore := hs ⟨j, hsleeper⟩
  have htotal := Counting.total_update Pc.weight s.threads i pc
  rw [hthreads, State.goTo_threads, htotal]
  omega

/-- A statement of a thread keeps every unit covered. -/
theorem Covered.next (hs : Covered s) (hinv : Inv s) (h : Semaphore.next s i = some t) :
    Covered t := by
  have hlow := hinv.low
  have hhigh := hinv.high
  unfold Semaphore.next at h
  cases hpc : s.threads i <;> simp only [hpc, reduceCtorEq] at h
  case lock op =>
    split at h
    · obtain rfl := Option.some.inj h
      refine hs.goTo rfl (by cases op <;> rfl) ?_
      cases op <;> simp [hpc, Op.body, Pc.weight, Pc.onTheWay]
    · cases h
  case test kind =>
    split at h
    · rename_i hempty
      obtain rfl := Option.some.inj h
      -- there is nothing to cover
      intro _
      refine le_trans hempty (total_weight_nonneg _)
    · obtain rfl := Option.some.inj h
      refine hs.goTo rfl rfl ?_
      simp [hpc, Pc.weight, Pc.onTheWay]
  case woken timed =>
    split at h
    · obtain rfl := Option.some.inj h
      refine hs.goTo rfl rfl ?_
      simp [hpc, Pc.weight, Pc.onTheWay]
    · cases h
  case expired =>
    split at h
    · obtain rfl := Option.some.inj h
      refine hs.goTo rfl rfl ?_
      simp [hpc, Pc.weight, Pc.onTheWay]
    · cases h
  case take kind =>
    obtain rfl := Option.some.inj h
    have hpos := hinv.positive i kind hpc
    have hint : asInt (s.count - 1) = s.count - 1 := asInt_eq_self (by omega) (by omega)
    refine hs.goTo rfl rfl ?_
    simp [hpc, hint, Pc.weight, Pc.onTheWay]
  case increment =>
    obtain rfl := Option.some.inj h
    -- an overflow leaves a counter below zero
    have hint : asInt (s.count + 1) ≤ s.count + 1 := by
      rw [asInt_eq]
      omega
    refine hs.goTo rfl rfl ?_
    simpa [hpc, Pc.weight, Pc.onTheWay] using hint
  case read =>
    obtain rfl := Option.some.inj h
    refine hs.goTo rfl rfl ?_
    simp [hpc, Pc.weight, Pc.onTheWay]
  case unlock op result =>
    obtain rfl := Option.some.inj h
    refine hs.goTo rfl rfl ?_
    simp [hpc, Pc.weight, Pc.onTheWay]
  case unlockRelease =>
    obtain rfl := Option.some.inj h
    refine hs.goTo rfl rfl ?_
    simp [hpc, Pc.weight, Pc.onTheWay]
  case signal =>
    split at h
    · rename_i hnobody
      obtain rfl := Option.some.inj h
      rintro ⟨j, hj⟩
      by_cases hji : j = i
      · subst hji
        simp [Pc.sleeping] at hj
      · rw [State.goTo_threads, Function.update_of_ne hji, hnobody j] at hj
        cases hj
    · cases h

theorem Covered.step {a : Action Thread} (hs : Covered s) (hinv : Inv s)
    (h : Semaphore.step s a = some t) : Covered t := by
  cases a with
  | call i op =>
      simp only [Semaphore.step] at h
      split at h
      · rename_i hpc
        obtain rfl := Option.some.inj h
        refine hs.goTo rfl rfl ?_
        simp [hpc, Pc.weight, Pc.onTheWay]
      · cases h
  | next i => exact hs.next hinv h
  | wake i j =>
      simp only [Semaphore.step] at h
      split at h
      · rename_i timed hi hj
        obtain rfl := Option.some.inj h
        rintro -
        have hij : i ≠ j := by
          rintro rfl
          rw [hi] at hj
          cases hj
        have hbefore := hs ⟨j, by rw [hj]; rfl⟩
        -- the sleeper goes on for the thread that wakes it
        have hwoken := Counting.total_update Pc.weight s.threads j (.woken timed)
        have hidle := Counting.total_update Pc.weight
          (Function.update s.threads j (.woken timed)) i .idle
        rw [Function.update_of_ne hij, hi] at hidle
        rw [hj] at hwoken
        simp only [State.goTo_threads, State.goTo_count, hidle, hwoken]
        simpa [Pc.weight, Pc.onTheWay] using hbefore
      · cases h
  | spurious j =>
      simp only [Semaphore.step] at h
      split at h
      · rename_i timed hj
        obtain rfl := Option.some.inj h
        refine hs.goTo rfl rfl ?_
        simp [hj, Pc.weight, Pc.onTheWay]
      · cases h
  | timeout j =>
      simp only [Semaphore.step] at h
      split at h
      · rename_i hj
        obtain rfl := Option.some.inj h
        refine hs.goTo rfl rfl ?_
        simp [hj, Pc.weight, Pc.onTheWay]
      · cases h

/-- Somebody can go on unless everybody is idle or asleep. -/
theorem Inv.idle_or_sleeping (hs : Inv s) (hnext : ∀ i, Semaphore.next s i = none)
    (hwake : ∀ i j, Semaphore.step s (.wake i j) = none) (i : Thread) :
    s.threads i = .idle ∨ (s.threads i).sleeping = true := by
  -- the owner of the mutex could always go on
  have hfree : s.owner = none := by
    by_contra howner
    obtain ⟨k, hk⟩ := Option.ne_none_iff_exists'.mp howner
    have hinside := (hs.held k).mp hk
    have hstuck := hnext k
    unfold Semaphore.next at hstuck
    cases hpc : s.threads k <;> rw [hpc] at hinside <;> simp only [hpc, reduceCtorEq] at hstuck
    case test kind => split at hstuck <;> cases hstuck
    all_goals cases hinside
  have hstuck := hnext i
  unfold Semaphore.next at hstuck
  cases hpc : s.threads i <;> simp only [hpc, hfree, if_true, reduceCtorEq] at hstuck
  case idle => exact Or.inl rfl
  case asleep => exact Or.inr rfl
  case test kind => split at hstuck <;> cases hstuck
  case signal =>
    exfalso
    have hsome : ∃ j, (s.threads j).sleeping = true := by
      by_contra hnobody
      rw [if_pos fun j => by simpa using not_exists.mp hnobody j] at hstuck
      cases hstuck
    obtain ⟨j, hj⟩ := hsome
    have hstuck := hwake i j
    cases hpcj : s.threads j <;> rw [hpcj] at hj <;>
      simp [Semaphore.step, hpc, hpcj, Pc.sleeping] at hj hstuck

end Wakeups

/-- **No lost wakeup.**  While a thread sleeps, each unit of `count_` has a thread of its
own that is going to test `count_` or to wake a sleeper.  And the threads do not get
stuck before that: when none of them can go on, each of them is in no operation, or it
sleeps and `count_` is not positive. -/
theorem no_lost_wakeup {s : State Thread} (hs : Reachable (system Thread initial) unguarded s) :
    ((∃ j, (s.threads j).sleeping = true) →
        s.count ≤ (Finset.univ.filter fun i => (s.threads i).onTheWay = true).card) ∧
      ((∀ i, next s i = none) → (∀ i j, step s (.wake i j) = none) →
        ∀ i, s.threads i = .idle ∨ (s.threads i).sleeping = true ∧ s.count ≤ 0) := by
  have hboth : Inv s ∧ Covered s := by
    have hkept : ∀ (s : State Thread) a t, Inv s ∧ Covered s → unguarded s a →
        step s a = some t → Inv t ∧ Covered t := by
      intro s a t hs _ h
      have hstep : Inv t ∧ (Room s a → (AtomicSemaphore.object 0).Simulated (project s)
          (project t) (observed s a)) := hs.1.step h
      exact ⟨hstep.1, hs.2.step hs.1 h⟩
    refine hs.invariant ⟨inv_init Thread initial, ?_⟩ hkept
    rintro ⟨j, hj⟩
    cases hj
  obtain ⟨hinv, hcovered⟩ := hboth
  refine ⟨fun hsleeper => ?_, fun hnext hwake i => ?_⟩
  · have htotal := hcovered hsleeper
    rwa [show Pc.weight = fun pc => if pc.onTheWay = true then 1 else 0 from rfl,
      Counting.total_eq_card] at htotal
  · have hrest := hinv.idle_or_sleeping hnext hwake
    refine (hrest i).imp_right fun hsleeping => ⟨hsleeping, ?_⟩
    have hnone : Counting.total Pc.weight s.threads = 0 := by
      refine Finset.sum_eq_zero fun k _ => ?_
      rcases hrest k with hk | hk
      · rw [hk]
        rfl
      · cases hpc : s.threads k <;> rw [hpc] at hk <;> first | rfl | cases hk
    have hcount := hcovered ⟨i, hsleeping⟩
    omega

/-- While the released unit is there, the woken thread is on its way to it. -/
theorem no_lost_wakeup_handover :
    ∃ s, (system Bool 0).run (system Bool 0).init (handover.take 7) = some s ∧ s.count = 1 ∧
      s.count ≤ (Finset.univ.filter fun i => (s.threads i).onTheWay = true).card := by
  have hend : ((system Bool 0).run (system Bool 0).init (handover.take 7)).map
      (fun s => (s.count, s.threads false)) = some (1, .asleep false) := by
    decide +kernel
  obtain ⟨s, hrun, hvalues⟩ := Option.map_eq_some_iff.mp hend
  simp only [Prod.mk.injEq] at hvalues
  obtain ⟨hcount, hasleep⟩ := hvalues
  have hs : Reachable (system Bool 0) unguarded s := .of_run .init hrun (meets_unguarded _ _)
  exact ⟨s, hrun, hcount, (no_lost_wakeup hs).1 ⟨false, by rw [hasleep]; rfl⟩⟩

end Semaphore
end LiteMQ
