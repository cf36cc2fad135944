import LiteMQ.Foundation.Counting
import LiteMQ.Foundation.TransitionSystem
import LiteMQ.Message.MessageQueue

/-!
# Concurrent calls of `add`

Any number of threads call `MessageQueue::add` on one queue.  The increment of
`message_count_` and its comparison are one atomic operation, the `push_back`
under the lock is another, and a refused call takes its increment back in a
third.  So the counter is ahead of `messages_` by the calls that are on their
way to the `push_back` and those that are on their way to the decrement:
`Counted`.

The counter is an `int` and `max_size_` an `unsigned long`, which `add` narrows
to an `int`.  From `2 ^ 31 - 1` the increment wraps around to a number below
every bound, and what is admitted then is counted no more.
-/

namespace LiteMQ
namespace ConcurrentAdd

open TransitionSystem Counting

/-- Where a thread stands in `add`: what it does next. -/
inductive AddPc
  /-- not in `add` -/
  | out
  /-- `messages_.push_back` and `return true` -/
  | push (data : List UInt8) (now : Time)
  /-- `--message_count_` and `return false` -/
  | decrement
  deriving DecidableEq, Repr

/-- The queue, the holders in memory, the threads, and the number of calls that
have returned `true`. -/
structure State (Thread : Type*) where
  queue : MessageQueue
  holders : Holders
  nextMessage : MessageId
  threads : Thread → AddPc
  returnedTrue : Nat

/-- The next operation of a thread, with the arguments of the call that it may
begin. -/
structure Action (Thread : Type*) where
  thread : Thread
  data : List UInt8
  now : Time

variable {Thread : Type*} [DecidableEq Thread]

/-- The next operation of a thread in `add`; a thread outside calls it. -/
def step (s : State Thread) (a : Action Thread) : Option (State Thread) :=
  match s.threads a.thread with
  | .out =>
      some { s with
        queue := s.queue.countUp
        threads := Function.update s.threads a.thread
          (if s.queue.admits then .push a.data a.now else .decrement) }
  | .push data now =>
      some { s with
        queue := s.queue.pushBack s.nextMessage
        holders := s.holders.construct s.nextMessage ⟨data, now, 0, 0, 0⟩
        nextMessage := s.nextMessage + 1
        threads := Function.update s.threads a.thread .out
        returnedTrue := s.returnedTrue + 1 }
  | .decrement =>
      some { s with
        queue := s.queue.countDown
        threads := Function.update s.threads a.thread .out }

/-- No thread is in `add`, and the queue is in some state. -/
def system (Thread : Type*) [DecidableEq Thread] (queue : MessageQueue) (holders : Holders)
    (nextMessage : MessageId) : TransitionSystem (State Thread) (Action Thread) where
  init := ⟨queue, holders, nextMessage, fun _ => .out, 0⟩
  step := step

/-- The two operations of an undisturbed call do what `MessageQueue.add` says. -/
theorem run_add (queue : MessageQueue) (holders : Holders) (nextMessage : MessageId)
    {s : State Thread} {i : Thread} (hout : s.threads i = .out) (data : List UInt8) (now : Time) :
    ∃ t, (system Thread queue holders nextMessage).run s [⟨i, data, now⟩, ⟨i, data, now⟩] =
        some t ∧
      t.queue = (s.queue.add s.holders s.nextMessage data now).1 ∧
      t.holders = (s.queue.add s.holders s.nextMessage data now).2.1 ∧
      t.threads = s.threads ∧
      t.returnedTrue = s.returnedTrue +
        if (s.queue.add s.holders s.nextMessage data now).2.2 then 1 else 0 := by
  have hthreads : Function.update s.threads i .out = s.threads := by
    rw [← hout, Function.update_eq_self]
  by_cases hadmits : s.queue.admits
  · refine ⟨⟨s.queue.countUp.pushBack s.nextMessage,
      s.holders.construct s.nextMessage ⟨data, now, 0, 0, 0⟩, s.nextMessage + 1, s.threads,
      s.returnedTrue + 1⟩, ?_, by simp [MessageQueue.add, hadmits]⟩
    simp [run_cons, system, step, hout, hadmits, hthreads]
  · refine ⟨⟨s.queue.countUp.countDown, s.holders, s.nextMessage, s.threads,
      s.returnedTrue⟩, ?_, by simp [MessageQueue.add, hadmits]⟩
    simp [run_cons, system, step, hout, hadmits, hthreads]

/-! ## The property and its condition -/

/-- `messages_` is not larger than it was, or below the bound; and when no call is
in progress, it has grown by one for each call that returned `true`, and
`message_count_` is its size. -/
def Admission (k : Nat) (s : State Thread) : Prop :=
  s.queue.messages.length ≤ max k (s.queue.maxSize - 1) ∧
    ((∀ i, s.threads i = .out) →
      s.queue.messageCount = s.queue.messages.length ∧
        s.queue.messages.length = k + s.returnedTrue)

/-- No call is admitted by an increment that overflows. -/
def NoOverflow (s : State Thread) (a : Action Thread) : Prop :=
  s.threads a.thread = .out → s.queue.admits → s.queue.messageCount ≠ 2 ^ 31 - 1

instance (s : State Thread) (a : Action Thread) : Decidable (NoOverflow s a) :=
  inferInstanceAs (Decidable (_ → _ → _))

/-! ## What the counter is ahead by -/

/-- The thread has been admitted and not yet pushed its message. -/
def AddPc.pushing : AddPc → Int
  | .push _ _ => 1
  | .out | .decrement => 0

/-- The thread has been refused and not yet given its increment back. -/
def AddPc.rejecting : AddPc → Int
  | .decrement => 1
  | .out | .push _ _ => 0

theorem AddPc.pushing_nonneg (pc : AddPc) : 0 ≤ pc.pushing := by
  cases pc <;> simp [AddPc.pushing]

theorem AddPc.rejecting_nonneg (pc : AddPc) : 0 ≤ pc.rejecting := by
  cases pc <;> simp [AddPc.rejecting]

variable [Fintype Thread]

/-- The number of admitted calls on their way to the `push_back`. -/
def pushing (s : State Thread) : Int := total AddPc.pushing s.threads

/-- The number of refused calls on their way to the decrement. -/
def rejecting (s : State Thread) : Int := total AddPc.rejecting s.threads

/-- The counter is the size of `messages_` and the calls that are in progress.
When `max_size_` narrows to the least `int`, nothing is ever admitted, and the
counter may have wrapped around. -/
structure Counted (k : Nat) (s : State Thread) : Prop where
  size : s.queue.messages.length = k + s.returnedTrue
  bound : s.queue.messages.length + pushing s ≤ max k (s.queue.maxSize - 1 : Nat)
  count : s.queue.messageCount = asInt (s.queue.messages.length + pushing s + rejecting s)
  fits : s.queue.messages.length + pushing s + rejecting s < 2 ^ 31 ∨
    asInt s.queue.maxSize = -2 ^ 31
  small : s.queue.messages.length + pushing s < 2 ^ 31

omit [DecidableEq Thread] in
/-- When no call is in progress, the counter is ahead by nothing. -/
theorem pushing_eq_zero {s : State Thread} (hout : ∀ i, s.threads i = .out) :
    pushing s = 0 ∧ rejecting s = 0 := by
  constructor
  · simp [pushing, total, hout, AddPc.pushing]
  · simp [rejecting, total, hout, AddPc.rejecting]

theorem counted_init {queue : MessageQueue} (hcount : queue.messageCount = queue.messages.length)
    (hint : queue.messageCount < 2 ^ 31) (holders : Holders) (nextMessage : MessageId) :
    Counted queue.messages.length (system Thread queue holders nextMessage).init := by
  obtain ⟨hpushing, hrejecting⟩ := pushing_eq_zero
    (s := (system Thread queue holders nextMessage).init) fun _ => rfl
  constructor
  · rfl
  · rw [hpushing, Int.add_zero]
    exact Int.ofNat_le.mpr (Nat.le_max_left ..)
  · rw [hpushing, hrejecting, Int.add_zero, Int.add_zero]
    simp only [system]
    rw [asInt_eq]
    omega
  · rw [hpushing, hrejecting]
    simp only [system]
    omega
  · rw [hpushing]
    simp only [system]
    omega

omit [DecidableEq Thread] in
theorem Counted.admission {k : Nat} {s : State Thread} (hs : Counted k s) : Admission k s := by
  have hpushing : 0 ≤ pushing s := Finset.sum_nonneg fun i _ => (s.threads i).pushing_nonneg
  refine ⟨?_, fun hout => ?_⟩
  · have hbound := hs.bound
    omega
  · obtain ⟨hzero, hnone⟩ := pushing_eq_zero hout
    have hsmall := hs.small
    refine ⟨?_, hs.size⟩
    rw [hs.count, hzero, hnone, asInt_eq]
    omega

/-- A thread that goes on from `pc` changes the calls in progress by its own. -/
theorem progress_update {s t : State Thread} {i : Thread} {pc next : AddPc}
    (hpc : s.threads i = pc) (h : t.threads = Function.update s.threads i next) :
    pushing t = pushing s + (next.pushing - pc.pushing) ∧
      rejecting t = rejecting s + (next.rejecting - pc.rejecting) := by
  subst hpc
  constructor
  · rw [pushing, h, total_update]
    rfl
  · rw [rejecting, h, total_update]
    rfl

/-! ## The operations -/

omit [Fintype Thread] in
/-- The increment and its comparison. -/
theorem step_out {s t : State Thread} {a : Action Thread} (hpc : s.threads a.thread = .out)
    (hstep : step s a = some t) : t.queue = s.queue.countUp ∧
      t.threads = Function.update s.threads a.thread
        (if s.queue.admits then .push a.data a.now else .decrement) ∧
      t.returnedTrue = s.returnedTrue := by
  simp only [step, hpc] at hstep
  obtain rfl := Option.some.inj hstep
  exact ⟨rfl, rfl, rfl⟩

omit [Fintype Thread] in
theorem step_push {s t : State Thread} {a : Action Thread} {data : List UInt8} {now : Time}
    (hpc : s.threads a.thread = .push data now) (hstep : step s a = some t) :
    t.queue = s.queue.pushBack s.nextMessage ∧
      t.threads = Function.update s.threads a.thread .out ∧
      t.returnedTrue = s.returnedTrue + 1 := by
  simp only [step, hpc] at hstep
  obtain rfl := Option.some.inj hstep
  exact ⟨rfl, rfl, rfl⟩

omit [Fintype Thread] in
theorem step_decrement {s t : State Thread} {a : Action Thread}
    (hpc : s.threads a.thread = .decrement) (hstep : step s a = some t) :
    t.queue = s.queue.countDown ∧ t.threads = Function.update s.threads a.thread .out ∧
      t.returnedTrue = s.returnedTrue := by
  simp only [step, hpc] at hstep
  obtain rfl := Option.some.inj hstep
  exact ⟨rfl, rfl, rfl⟩

/-- An admitted call is counted at once, and there is place for its message. -/
theorem Counted.admitted {k : Nat} {s t : State Thread} {a : Action Thread} (hs : Counted k s)
    (hpc : s.threads a.thread = .out) (hadmits : s.queue.admits)
    (hroom : s.queue.messageCount ≠ 2 ^ 31 - 1) (hstep : step s a = some t) : Counted k t := by
  obtain ⟨hsize, hbound, hcount, hfits, hsmall⟩ := hs
  obtain ⟨hqueue, hthreads, hreturned⟩ := step_out hpc hstep
  rw [if_pos hadmits] at hthreads
  obtain ⟨hpushing, hrejecting⟩ := progress_update hpc hthreads
  simp only [AddPc.pushing, AddPc.rejecting] at hpushing hrejecting
  have hnonneg : 0 ≤ rejecting s :=
    Finset.sum_nonneg fun i _ => (s.threads i).rejecting_nonneg
  have hlt : asInt (s.queue.messageCount + 1) < asInt s.queue.maxSize := of_decide_eq_true hadmits
  rw [asInt_eq] at hlt hcount hfits
  rw [asInt_eq] at hlt
  constructor
  · rw [hqueue, hreturned]
    exact hsize
  · simp only [hqueue, MessageQueue.countUp]
    omega
  · simp only [hqueue, MessageQueue.countUp, asInt_eq]
    omega
  · simp only [hqueue, MessageQueue.countUp]
    omega
  · simp only [hqueue, MessageQueue.countUp]
    omega

/-- A refused call is counted until it gives its increment back. -/
theorem Counted.refused {k : Nat} {s t : State Thread} {a : Action Thread} (hs : Counted k s)
    (hpc : s.threads a.thread = .out) (hadmits : ¬ s.queue.admits) (hstep : step s a = some t) :
    Counted k t := by
  obtain ⟨hsize, hbound, hcount, hfits, hsmall⟩ := hs
  obtain ⟨hqueue, hthreads, hreturned⟩ := step_out hpc hstep
  rw [if_neg hadmits] at hthreads
  obtain ⟨hpushing, hrejecting⟩ := progress_update hpc hthreads
  simp only [AddPc.pushing, AddPc.rejecting] at hpushing hrejecting
  have hle : ¬ asInt (s.queue.messageCount + 1) < asInt s.queue.maxSize := fun hlt =>
    hadmits (decide_eq_true hlt)
  -- an increment that wraps around is refused only by the least bound
  have hwrap : asInt s.queue.maxSize = -2 ^ 31 ∨
      s.queue.messages.length + pushing s + rejecting s + 1 < 2 ^ 31 := by
    rw [asInt_eq] at hcount
    rw [asInt_eq, asInt_eq] at hle
    rw [asInt_eq] at hfits ⊢
    omega
  constructor
  · rw [hqueue, hreturned]
    exact hsize
  · simp only [hqueue, MessageQueue.countUp]
    omega
  · simp only [hqueue, MessageQueue.countUp, hcount, asInt_eq]
    omega
  · simp only [hqueue, MessageQueue.countUp]
    omega
  · simp only [hqueue, MessageQueue.countUp]
    omega

/-- The message of an admitted call comes into the deque. -/
theorem Counted.push {k : Nat} {s t : State Thread} {a : Action Thread} (hs : Counted k s)
    {data : List UInt8} {now : Time} (hpc : s.threads a.thread = .push data now)
    (hstep : step s a = some t) : Counted k t := by
  obtain ⟨hsize, hbound, hcount, hfits, hsmall⟩ := hs
  obtain ⟨hqueue, hthreads, hreturned⟩ := step_push hpc hstep
  obtain ⟨hpushing, hrejecting⟩ := progress_update hpc hthreads
  simp only [AddPc.pushing, AddPc.rejecting] at hpushing hrejecting
  have hlength : t.queue.messages.length = s.queue.messages.length + 1 := by
    simp [hqueue, MessageQueue.pushBack]
  have hsum : (t.queue.messages.length : Int) + pushing t =
      s.queue.messages.length + pushing s := by omega
  have hsame : rejecting t = rejecting s := by omega
  constructor
  · omega
  · rw [hsum, hqueue]
    exact hbound
  · rw [hsum, hsame, hqueue]
    exact hcount
  · rw [hsum, hsame, hqueue]
    exact hfits
  · rw [hsum]
    exact hsmall

/-- A refused call gives its increment back. -/
theorem Counted.decrement {k : Nat} {s t : State Thread} {a : Action Thread} (hs : Counted k s)
    (hpc : s.threads a.thread = .decrement) (hstep : step s a = some t) : Counted k t := by
  obtain ⟨hsize, hbound, hcount, hfits, hsmall⟩ := hs
  obtain ⟨hqueue, hthreads, hreturned⟩ := step_decrement hpc hstep
  obtain ⟨hpushing, hrejecting⟩ := progress_update hpc hthreads
  simp only [AddPc.pushing, AddPc.rejecting] at hpushing hrejecting
  constructor
  · rw [hqueue, hreturned]
    exact hsize
  · simp only [hqueue, MessageQueue.countDown]
    omega
  · simp only [hqueue, MessageQueue.countDown, hcount, asInt_eq]
    omega
  · simp only [hqueue, MessageQueue.countDown]
    omega
  · simp only [hqueue, MessageQueue.countDown]
    omega

theorem Counted.step {k : Nat} {s t : State Thread} {a : Action Thread} (hs : Counted k s)
    (hover : NoOverflow s a) (hstep : ConcurrentAdd.step s a = some t) : Counted k t := by
  cases hpc : s.threads a.thread with
  | out =>
      by_cases hadmits : s.queue.admits
      · exact hs.admitted hpc hadmits (hover hpc hadmits) hstep
      · exact hs.refused hpc hadmits hstep
  | push data now => exact hs.push hpc hstep
  | decrement => exact hs.decrement hpc hstep

/-- **Concurrent admission.**  In every run of any number of threads in which no
call is admitted by an increment that overflows, the size of `messages_` stays
within its bound in every state, and in every state without a call in progress
the counter, the size and the calls that returned `true` agree.  The counter is
an `int`, so it is less than `2 ^ 31` at the beginning. -/
theorem admission_throughout (queue : MessageQueue) {holders : Holders}
    {nextMessage : MessageId} (hcount : queue.messageCount = queue.messages.length)
    (hint : queue.messageCount < 2 ^ 31) {actions : List (Action Thread)}
    (hover : Meets (system Thread queue holders nextMessage) NoOverflow
      (system Thread queue holders nextMessage).init actions) :
    Throughout (system Thread queue holders nextMessage) (Admission queue.messages.length)
      (system Thread queue holders nextMessage).init actions :=
  throughout_of_meets (fun _ hs => hs.admission)
    (fun _ _ _ hs _ hover hstep => hs.step hover hstep)
    (counted_init hcount hint holders nextMessage) (meets_unguarded _ _) hover

/-- Three threads and a queue with place for one message more: the first is
admitted, the others are refused, the second before the first has pushed. -/
theorem admission_three_threads :
    Throughout (system (Fin 3) ⟨3, [0], [], 1⟩ .initial 1) (Admission 1)
      (system (Fin 3) ⟨3, [0], [], 1⟩ .initial 1).init
      [⟨0, [1], 5⟩, ⟨1, [2], 6⟩, ⟨0, [], 0⟩, ⟨2, [3], 7⟩, ⟨1, [], 0⟩, ⟨2, [], 0⟩] :=
  admission_throughout ⟨3, [0], [], 1⟩ rfl (by decide) (by decide +kernel)

/-! ## The overflow -/

omit [Fintype Thread] in
/-- Where the counter is the greatest `int` and the bound does not narrow to the
least one, a call by one thread alone is admitted and not counted. -/
theorem count_wraps {queue : MessageQueue} (holders : Holders) (nextMessage : MessageId)
    (i : Thread) (hcount : queue.messageCount = 2 ^ 31 - 1)
    (hlength : queue.messages.length = 2 ^ 31 - 1) (hbound : asInt queue.maxSize ≠ -2 ^ 31)
    (data : List UInt8) (now : Time) :
    ∃ s, (system Thread queue holders nextMessage).run
        (system Thread queue holders nextMessage).init [⟨i, data, now⟩, ⟨i, data, now⟩] =
          some s ∧
      s.queue.messageCount = -2 ^ 31 ∧ s.queue.messages.length = 2 ^ 31 ∧
      ¬ Admission (2 ^ 31 - 1) s := by
  have hadmits : queue.admits := by
    refine decide_eq_true ?_
    simp only [MessageQueue.countUp, hcount]
    rw [asInt_eq] at hbound
    rw [asInt_eq, asInt_eq]
    omega
  obtain ⟨s, hrun, hqueue, -, hthreads, -⟩ := run_add queue holders nextMessage
    (s := (system Thread queue holders nextMessage).init) (i := i) rfl data now
  have hend : s.queue.messageCount = -2 ^ 31 := by
    rw [hqueue]
    simp only [system, MessageQueue.add, if_pos hadmits, MessageQueue.countUp,
      MessageQueue.pushBack, hcount]
    rw [asInt_eq]
    omega
  have hsize : s.queue.messages.length = 2 ^ 31 := by
    rw [hqueue, MessageQueue.add_messages]
    simp [system, hadmits, hlength]
  refine ⟨s, hrun, hend, hsize, fun hadmission => ?_⟩
  have hequal := (hadmission.2 fun i => by rw [hthreads]; rfl).1
  omega

/-- A queue that holds as many messages as an `int` can count, with room for six
more. -/
def greatestCount : MessageQueue :=
  ⟨2 ^ 31 + 5, List.replicate (2 ^ 31 - 1) 0, [], 2 ^ 31 - 1⟩

/-- One call on it returns `true` and leaves `message_count_` at `-2 ^ 31`. -/
theorem count_overflows :
    ∃ s, (system Unit greatestCount .initial 1).run (system Unit greatestCount .initial 1).init
        [⟨(), [1], 5⟩, ⟨(), [1], 5⟩] = some s ∧
      s.queue.messageCount = -2 ^ 31 ∧ s.queue.messages.length = 2 ^ 31 ∧
      ¬ Admission (2 ^ 31 - 1) s :=
  count_wraps .initial 1 () rfl (List.length_replicate ..) (by rw [asInt_eq]; decide) [1] 5

end ConcurrentAdd
end LiteMQ
