import LiteMQ.Foundation.Memory
import LiteMQ.Message.PopPrefix
import LiteMQ.Message.QueueCalls

/-!
# What `push_front` keeps

`push_front` inserts a batch before `messages_`, moves the elements behind the
first `max_size_` into `erase_messages`, erases their places and expires what it
moved.  `pushFrontMoves` follows these loops on the places of the deque, where a
place that was moved from is `none`; `pushFrontMoves_eq` says that they come to
`pushFront`.

`pop` followed by `push_front` of the batch gives the deque back, but
`push_front` counts the batch into `message_count_` and `pop` counts nothing out
(`pushFront_pop`).
-/

namespace LiteMQ
namespace MessageQueue

/-! ## The loops of `push_front` -/

/-- The loop with `erase_messages.emplace_back(std::move(*it))`, from `it` to
`messages_.end()`: what stands in the places behind it, and `erase_messages`. -/
def moveOut : List (Option MessageId) → List (Option MessageId) × List (Option MessageId)
  | [] => ([], [])
  | place :: rest => (none :: (moveOut rest).1, place :: (moveOut rest).2)

/-- The loop with `(*it)->expire()`: the holders, and the messages whose
`expire()` was called. -/
def expireMoved (holders : Holders) :
    List (Option MessageId) → Except Fault (Holders × List MessageId)
  | [] => .ok (holders, [])
  | none :: _ => .error .nullDereference
  | some m :: rest => do
      let (holders, calls) ← expireMoved (holders.expire m).1 rest
      pure (holders, m :: calls)

/-- What `push_front` leaves: the places of `messages_`, `message_count_`, the
holders and the calls of `expire()`. -/
structure PushedFront where
  places : List (Option MessageId)
  messageCount : Int
  holders : Holders
  expireCalls : List MessageId

/-- The section of `push_front` under the lock: `messages_` and
`erase_messages`. -/
def insertAndCut (maxSize : Nat) (places : List (Option MessageId))
    (messages : List MessageId) : List (Option MessageId) × List (Option MessageId) :=
  let places := messages.map some ++ places
  if maxSize < places.length then
    -- `messages_.end() - (messages_.size() - max_size_)`
    let it := places.length - (places.length - maxSize)
    let (left, eraseMessages) := moveOut (places.drop it)
    let places := places.take it ++ left
    (places.take (places.length - (places.length - maxSize)), eraseMessages)
  else (places, [])

/-- `push_front(messages)`, place by place. -/
def pushFrontMoves (queue : MessageQueue) (holders : Holders) (messages : List MessageId) :
    Except Fault PushedFront := do
  let (places, eraseMessages) :=
    insertAndCut queue.maxSize (queue.messages.map some) messages
  let (holders, calls) ← expireMoved holders eraseMessages
  pure ⟨places, asInt (queue.messageCount + messages.length), holders, calls⟩

theorem moveOut_eq (places : List (Option MessageId)) :
    moveOut places = (List.replicate places.length none, places) := by
  induction places with
  | nil => rfl
  | cons place rest ih => simp [moveOut, ih, List.replicate_succ]

theorem expireMoved_some (holders : Holders) (ms : List MessageId) :
    expireMoved holders (ms.map some) = .ok (holders.expireAll ms, ms) := by
  induction ms generalizing holders with
  | nil => rfl
  | cons m ms ih =>
      rw [List.map_cons, expireMoved, ih, Fault.ok_bind, Holders.expireAll_cons]
      rfl

/-- The range that is moved is the range that is erased: what lies behind the
first `max_size_` elements. -/
theorem insertAndCut_some (maxSize : Nat) (old messages : List MessageId) :
    insertAndCut maxSize (old.map some) messages =
      (((messages ++ old).take maxSize).map some, ((messages ++ old).drop maxSize).map some) := by
  rw [insertAndCut, ← List.map_append]
  generalize messages ++ old = all
  by_cases hover : maxSize < all.length
  · have hit : all.length - (all.length - maxSize) = maxSize := by omega
    have hsize : (all.take maxSize).length + (all.drop maxSize).length = all.length := by
      simp only [List.length_take, List.length_drop]
      omega
    simp only [List.length_map, if_pos hover, hit, moveOut_eq, ← List.map_take, ← List.map_drop,
      List.length_append, List.length_replicate, hsize]
    rw [List.take_left' (by simp; omega)]
  · rw [List.length_map, if_neg hover, List.take_of_length_le (by omega),
      List.drop_of_length_le (by omega)]
    rfl

/-- The loops of `push_front` come to `pushFront`. -/
theorem pushFrontMoves_eq (queue : MessageQueue) (holders : Holders) (messages : List MessageId) :
    queue.pushFrontMoves holders messages = .ok
      ⟨(queue.pushFront holders messages).1.messages.map some,
        (queue.pushFront holders messages).1.messageCount,
        (queue.pushFront holders messages).2,
        (messages ++ queue.messages).drop queue.maxSize⟩ := by
  simp only [pushFrontMoves, insertAndCut_some, expireMoved_some, Fault.ok_bind]
  rfl

/-! ## What is dropped is expired -/

/-- Expiring a list of messages runs the callbacks of those that were live, each
once. -/
theorem count_callbacks_expireAll (holders : Holders) (ms : List MessageId) (m : MessageId) :
    (holders.expireAll ms).callbacks.count m = holders.callbacks.count m +
      if holders.live m = true ∧ m ∈ ms then 1 else 0 := by
  induction ms generalizing holders with
  | nil => simp [Holders.expireAll]
  | cons m' ms ih =>
      rw [Holders.expireAll_cons, ih]
      by_cases hsame : m' = m
      · subst hsame
        have hlater : ¬ (holders.expire m').1.live m' = true := by
          rw [Holders.live_iff, Holders.expired_expire]
          simp
        rw [if_neg fun h => hlater h.1]
        by_cases hlive : holders.live m' = true
        · have hzero := Holders.live_iff.mp hlive
          simp [Holders.expire, hzero, hlive, List.count_append]
        · have hexpired : (holders.holder m').expired ≠ 0 := fun h => hlive (Holders.live_iff.mpr h)
          simp [Holders.expire, hexpired, hlive]
      · have hlive : (holders.expire m').1.live m = true ↔ holders.live m = true := by
          rw [Holders.live_iff, Holders.live_iff, Holders.expired_expire, if_neg hsame,
            Nat.add_zero]
        rw [holders.count_callbacks_expire_of_ne (Ne.symm hsame)]
        simp only [hlive, List.mem_cons, Ne.symm hsame, false_or]

/-- `push_front` keeps the first `max_size_` elements of the batch and the old
messages, in order and none of them moved from; it calls `expire()` once for each
element behind them and for nothing else, and so runs the callback of each
dropped message that had not expired, once. -/
theorem pushFront_overflow (queue : MessageQueue) (holders : Holders)
    (messages : List MessageId) :
    ∃ pushed, queue.pushFrontMoves holders messages = .ok pushed ∧
      pushed.places = ((messages ++ queue.messages).take queue.maxSize).map some ∧
      pushed.expireCalls = (messages ++ queue.messages).drop queue.maxSize ∧
      (∀ m, (pushed.holders.holder m).expired =
        (holders.holder m).expired + pushed.expireCalls.count m) ∧
      ∀ m, pushed.holders.callbacks.count m = holders.callbacks.count m +
        if (holders.holder m).expired = 0 ∧ m ∈ pushed.expireCalls then 1 else 0 := by
  refine ⟨_, pushFrontMoves_eq queue holders messages, rfl, rfl, ?_, ?_⟩
  · intro m
    exact Holders.expired_expireAll holders _ m
  · intro m
    show (holders.expireAll ((messages ++ queue.messages).drop queue.maxSize)).callbacks.count m = _
    simp only [count_callbacks_expireAll, Holders.live_iff]

/-! ## A batch that comes back -/

/-- `pop` and then `push_front` of what it took: the range that `pop` erases lies
within `messages_`, and the queue and the holders are as before. -/
def BatchRestored (queue : MessageQueue) (holders : Holders) (sendSize : UInt64) : Prop :=
  let popped := queue.pop holders [] sendSize
  popped.eraseEnd ≤ queue.messages.length ∧
    popped.queue.pushFront holders popped.resultMessages = (queue, holders)

/-- The deque comes back, and nothing is expired; the batch is counted in once
more. -/
theorem pushFront_pop {queue : MessageQueue} (hsize : queue.messages.length ≤ queue.maxSize)
    (holders : Holders) (sendSize : UInt64) :
    let popped := queue.pop holders [] sendSize
    popped.queue.pushFront holders popped.resultMessages =
      ({ queue with
        messageCount := asInt (queue.messageCount + popped.resultMessages.length) }, holders) := by
  have happend := pop_resultMessages_append queue holders sendSize
  simp only [pushFront]
  rw [happend, pop_queue]
  simp only [List.take_of_length_le hsize, List.drop_of_length_le hsize]
  rfl

/-- The counter is the same after a batch whose size is a multiple of `2 ^ 32`. -/
theorem asInt_add_eq_self_iff {count : Int} (hlow : -2 ^ 31 ≤ count) (hhigh : count < 2 ^ 31)
    (size : Nat) : asInt (count + size) = count ↔ 2 ^ 32 ∣ size := by
  rw [asInt_eq]
  omega

/-- In a queue with at most `max_size_` messages a batch comes back to the state
before exactly when `cur_size` reaches `send_size` with some messages, and the
first time with a multiple of `2 ^ 32` of them. -/
theorem batchRestored_iff {queue : MessageQueue} {holders : Holders} {sendSize : UInt64}
    (hsize : queue.messages.length ≤ queue.maxSize) (hlow : -2 ^ 31 ≤ queue.messageCount)
    (hhigh : queue.messageCount < 2 ^ 31) :
    BatchRestored queue holders sendSize ↔
      ∃ p, IsShortestPrefix (fun q => sendSize ≤ curSize holders q) p queue.messages ∧
        2 ^ 32 ∣ p.length := by
  have hcount : (queue.pop holders [] sendSize).queue.pushFront holders
      (queue.pop holders [] sendSize).resultMessages = (queue, holders) ↔
        2 ^ 32 ∣ (queue.pop holders [] sendSize).resultMessages.length := by
    rw [pushFront_pop hsize, ← asInt_add_eq_self_iff hlow hhigh]
    constructor
    · intro h
      exact congrArg (fun s : MessageQueue × Holders => s.1.messageCount) h
    · intro h
      rw [h]
  rw [BatchRestored, hcount]
  have hcases := popLoop_cases holders sendSize 0 0 queue.messages
  simp only [UInt64.zero_add, Nat.zero_add] at hcases
  simp only [pop, List.nil_append]
  rcases hcases with ⟨p, hbreak, hmoved, hplace⟩ | ⟨hnone, hmoved, hplace⟩
  · rw [hmoved, hplace]
    constructor
    · rintro ⟨-, hdvd⟩
      exact ⟨p, hbreak, hdvd⟩
    · rintro ⟨p', hshortest, hdvd⟩
      -- both are the shortest prefix
      have hle := hbreak.shortest p' hshortest.isPrefix hshortest.ne_nil hshortest.reaching
      have hge := hshortest.shortest p hbreak.isPrefix hbreak.ne_nil hbreak.reaching
      obtain rfl := hle.eq_of_length_le hge.length_le
      exact ⟨hbreak.isPrefix.length_le, hdvd⟩
  · -- the loop ran to the end, and `++it` goes past it
    rw [hplace]
    constructor
    · rintro ⟨hrange, -⟩
      omega
    · rintro ⟨p, hshortest, -⟩
      exact absurd hshortest.reaching (hnone p hshortest.isPrefix hshortest.ne_nil)

/-- Four messages, of which a batch takes three: the right side says that no batch
of so small a queue comes back. -/
theorem batchRestored_iff_three_messages :
    let queue : MessageQueue := ⟨10, [0, 1, 2, 3], [], 4⟩
    BatchRestored queue .initial 12 ↔
      ∃ p, IsShortestPrefix (fun q => 12 ≤ curSize .initial q) p queue.messages ∧
        2 ^ 32 ∣ p.length :=
  batchRestored_iff (by decide) (by decide) (by decide)

/-- A new queue of `max_size_ = 10` after one `add`: the batch comes back and
`message_count_` is `2`. -/
theorem batch_counted_again :
    ∃ s, (QueueCalls.system Unit 10).run (QueueCalls.system Unit 10).init
        [.add [7] 5] = some s ∧ s.queue.messages.length ≤ s.queue.maxSize ∧
      ¬ BatchRestored s.queue s.holders 5 := by
  refine ⟨_, rfl, by decide, ?_⟩
  rintro ⟨-, hstate⟩
  have hcount := congrArg (fun s : MessageQueue × Holders => s.1.messageCount) hstate
  revert hcount
  decide +kernel

end MessageQueue
end LiteMQ
