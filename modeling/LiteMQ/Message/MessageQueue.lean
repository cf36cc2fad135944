import Mathlib.Algebra.Ring.Int.Defs
import Mathlib.Data.List.Basic
import Mathlib.Logic.Function.Basic

/-!
# `MessageQueue`

The queue that all `SendDescriptorHandler`s of a connection share.  A
`MessageHolder` is reached through `shared_ptr`s from `messages_`, from
`timed_messages_` and from popped batches, and `expire()` changes it in place;
so a queue holds identities, and `Holders` says what they point to.

Every operation is a function of the queue and the holders.  `pop` takes a
prefix of `messages_` (`pop_resultMessages_append`), `pushFront` puts a batch
back and expires what no longer fits, `clearTimeouted` expires by time and
leaves `messages_` alone.
-/

namespace LiteMQ

/-- `Gears::Time` in microseconds; `Time::ZERO` is `0`. -/
abbrev Time := Int

/-- A `shared_ptr<MessageHolder>`: which holder it points to. -/
abbrev MessageId := Nat

/-- The value of an `int` that was given the number `x`. -/
def asInt (x : Int) : Int := (Int32.ofInt x).toInt

/-- An `int` holds a number modulo `2 ^ 32`, between `-2 ^ 31` and `2 ^ 31 - 1`. -/
theorem asInt_eq (x : Int) : asInt x = (x + 2 ^ 31) % 2 ^ 32 - 2 ^ 31 := by
  rw [asInt, Int32.toInt_ofInt, Int.bmod_eq_emod, Int32.size]
  split <;> omega

/-- An `int` that does not overflow holds the number itself. -/
theorem asInt_eq_self {x : Int} (hlow : -2 ^ 31 ≤ x) (hhigh : x < 2 ^ 31) : asInt x = x := by
  rw [asInt_eq]
  omega

/-- A `MessageHolder`; `expired` is `expired_`, the number of calls of
`expire()` so far.  That is an `int`, and a message gets two calls at most: one
when it is cut off and one when it times out (`TimeoutCallback.SentOrExpired.expired_le_two`). -/
structure MessageHolder where
  data : List UInt8
  pushTime : Time
  expireTime : Time
  requestId : UInt64
  expired : Nat
  deriving DecidableEq, Repr

namespace MessageHolder

/-- `MessageHolderImpl::size()` -/
def size (holder : MessageHolder) : UInt64 := UInt64.ofNat holder.data.length

/-- `MessageHolderImpl::plain_size()` -/
def plainSize (holder : MessageHolder) : UInt64 := holder.size + 4

/-- `MessageHolder::need_to_send()`: `return expired_.load();` -/
def needToSend (holder : MessageHolder) : Bool := holder.expired != 0

end MessageHolder

/-- The message holders in memory, and the messages whose timeout callback ran,
in the order of the calls. -/
structure Holders where
  holder : MessageId → MessageHolder
  callbacks : List MessageId

namespace Holders

/-- No holder was constructed yet. -/
def initial : Holders := ⟨fun _ => ⟨[], 0, 0, 0, 0⟩, []⟩

/-- `new MessageHolderImpl(...)` at `m`. -/
def construct (holders : Holders) (m : MessageId) (holder : MessageHolder) : Holders :=
  { holders with holder := Function.update holders.holder m holder }

/-- `MessageHolderImpl::expire()`: the first call runs the timeout callback and
returns `true`. -/
def expire (holders : Holders) (m : MessageId) : Holders × Bool :=
  let count := (holders.holder m).expired + 1
  ({ holder :=
        Function.update holders.holder m { holders.holder m with expired := count }
     callbacks := if count = 1 then holders.callbacks ++ [m] else holders.callbacks },
    count == 1)

/-- The loop of `push_front` that expires the erased messages. -/
def expireAll (holders : Holders) (messages : List MessageId) : Holders :=
  messages.foldl (fun holders m => (holders.expire m).1) holders

@[simp] theorem construct_callbacks (holders : Holders) (m : MessageId) (holder : MessageHolder) :
    (holders.construct m holder).callbacks = holders.callbacks := rfl

@[simp] theorem construct_self (holders : Holders) (m : MessageId) (holder : MessageHolder) :
    (holders.construct m holder).holder m = holder := by
  simp [construct]

theorem construct_of_ne (holders : Holders) {m m' : MessageId} (holder : MessageHolder)
    (hne : m' ≠ m) : (holders.construct m holder).holder m' = holders.holder m' := by
  simp [construct, hne]

/-- No `expire()` of the message was called yet. -/
def live (holders : Holders) (m : MessageId) : Bool := (holders.holder m).expired == 0

theorem live_iff {holders : Holders} {m : MessageId} :
    holders.live m = true ↔ (holders.holder m).expired = 0 := beq_iff_eq

/-- `expire()` runs no other callback. -/
theorem count_callbacks_expire_of_ne (holders : Holders) {m m' : MessageId} (hne : m' ≠ m) :
    (holders.expire m).1.callbacks.count m' = holders.callbacks.count m' := by
  by_cases hfirst : (holders.holder m).expired + 1 = 1
  · simp [expire, hfirst, List.count_append, hne.symm]
  · simp only [expire, if_neg hfirst]

/-- `expire()` counts one more call for its message. -/
theorem expired_expire (holders : Holders) (m m' : MessageId) :
    ((holders.expire m).1.holder m').expired =
      (holders.holder m').expired + if m = m' then 1 else 0 := by
  by_cases hsame : m = m'
  · subst hsame
    simp [expire]
  · simp [expire, Function.update_of_ne (Ne.symm hsame), hsame]

theorem pushTime_expire (holders : Holders) (m m' : MessageId) :
    ((holders.expire m).1.holder m').pushTime = (holders.holder m').pushTime := by
  by_cases hsame : m = m'
  · subst hsame
    simp [expire]
  · simp [expire, Function.update_of_ne (Ne.symm hsame)]

theorem expireAll_cons (holders : Holders) (m : MessageId) (ms : List MessageId) :
    holders.expireAll (m :: ms) = (holders.expire m).1.expireAll ms := rfl

/-- Expiring a list of messages counts one more call for each occurrence. -/
theorem expired_expireAll (holders : Holders) (ms : List MessageId) (m : MessageId) :
    ((holders.expireAll ms).holder m).expired = (holders.holder m).expired + ms.count m := by
  induction ms generalizing holders with
  | nil => rfl
  | cons m' ms ih =>
      rw [expireAll_cons, ih, expired_expire, List.count_cons]
      by_cases hsame : m' = m
      · simp [hsame]
        omega
      · simp [hsame]

/-- The callback of each message ran once if `expire()` was called for it, and not
otherwise. -/
def CallbacksOnce (holders : Holders) : Prop :=
  ∀ m, holders.callbacks.count m = min 1 (holders.holder m).expired

theorem CallbacksOnce.expire {holders : Holders} (h : holders.CallbacksOnce) (m : MessageId) :
    (holders.expire m).1.CallbacksOnce := by
  intro m'
  have hbefore := h m'
  rw [expired_expire]
  by_cases hsame : m = m'
  · subst hsame
    by_cases hfirst : (holders.holder m).expired = 0
    · simp only [Holders.expire, hfirst, if_true, List.count_append, hbefore]
      simp
    · have hlater : (holders.holder m).expired + 1 ≠ 1 := by omega
      simp only [Holders.expire, if_neg hlater, hbefore, if_true]
      omega
  · rw [count_callbacks_expire_of_ne _ (Ne.symm hsame), hbefore, if_neg hsame, Nat.add_zero]

theorem CallbacksOnce.expireAll {holders : Holders} (h : holders.CallbacksOnce)
    (ms : List MessageId) : (holders.expireAll ms).CallbacksOnce := by
  induction ms generalizing holders with
  | nil => exact h
  | cons m ms ih => exact ih (h.expire m)

theorem CallbacksOnce.construct {holders : Holders} (h : holders.CallbacksOnce) {m : MessageId}
    (hnew : (holders.holder m).expired = 0) {holder : MessageHolder}
    (hlive : holder.expired = 0) : (holders.construct m holder).CallbacksOnce := by
  intro m'
  rw [construct_callbacks, h m']
  by_cases hsame : m' = m
  · subst hsame
    rw [construct_self, hnew, hlive]
  · rw [construct_of_ne _ _ hsame]

theorem pushTime_expireAll (holders : Holders) (ms : List MessageId) (m : MessageId) :
    ((holders.expireAll ms).holder m).pushTime = (holders.holder m).pushTime := by
  induction ms generalizing holders with
  | nil => rfl
  | cons m' ms ih => rw [expireAll_cons, ih, pushTime_expire]

/-- What is live after expiring `ms` was live before, and is not in `ms`. -/
theorem live_expireAll (holders : Holders) (ms : List MessageId) (m : MessageId) :
    (holders.expireAll ms).live m = true ↔ holders.live m = true ∧ m ∉ ms := by
  rw [live_iff, live_iff, expired_expireAll, ← List.count_eq_zero]
  omega

end Holders

/-- The fields of `MessageQueue`. -/
structure MessageQueue where
  maxSize : Nat
  messages : List MessageId
  timedMessages : List (Time × MessageId)
  messageCount : Int
  deriving DecidableEq, Repr

namespace MessageQueue

/-- A new queue.  The constructor does not set `message_count_`. -/
def initial (maxSize : Nat) (messageCount : Int) : MessageQueue :=
  ⟨maxSize, [], [], messageCount⟩

/-! ## `add` -/

/-- `++message_count_` -/
def countUp (queue : MessageQueue) : MessageQueue :=
  { queue with messageCount := asInt (queue.messageCount + 1) }

/-- `--message_count_` -/
def countDown (queue : MessageQueue) : MessageQueue :=
  { queue with messageCount := asInt (queue.messageCount - 1) }

/-- `++message_count_ < static_cast<int>(max_size_)` -/
def admits (queue : MessageQueue) : Bool := queue.countUp.messageCount < asInt queue.maxSize

/-- `++message_count_ < max_size_`: the `int` is converted to `unsigned long`. -/
def admitsTimed (queue : MessageQueue) : Bool :=
  queue.countUp.messageCount % 2 ^ 64 < queue.maxSize

/-- `messages_.push_back(new_msg_holder)` -/
def pushBack (queue : MessageQueue) (m : MessageId) : MessageQueue :=
  { queue with messages := queue.messages ++ [m] }

/-- `timed_messages_.insert(std::make_pair(timeout, new_msg_holder))`: behind
the entries that are not later. -/
def insertTimed (queue : MessageQueue) (timeout : Time) (m : MessageId) : MessageQueue :=
  { queue with timedMessages :=
      queue.timedMessages.takeWhile (fun entry => entry.1 ≤ timeout) ++
        (timeout, m) :: queue.timedMessages.dropWhile fun entry => entry.1 ≤ timeout }

/-- `add(message)`.  `m` is the address of the new holder, `now` what
`get_time_of_day()` returns in its constructor. -/
def add (queue : MessageQueue) (holders : Holders) (m : MessageId) (data : List UInt8)
    (now : Time) : MessageQueue × Holders × Bool :=
  if queue.admits then
    (queue.countUp.pushBack m, holders.construct m ⟨data, now, 0, 0, 0⟩, true)
  else (queue.countUp.countDown, holders, false)

/-- `add(message, timeout_callback, timeout, request_id)` -/
def addTimed (queue : MessageQueue) (holders : Holders) (m : MessageId) (data : List UInt8)
    (now timeout : Time) (requestId : UInt64) : MessageQueue × Holders × Bool :=
  if queue.admitsTimed then
    ((queue.countUp.pushBack m).insertTimed timeout m,
      holders.construct m ⟨data, now, timeout, requestId, 0⟩, true)
  else (queue.countUp.countDown, holders, false)

/-! ## `push_front` and `clear_timeouted` -/

/-- `push_front(messages)`: what the queue cannot hold is cut off at its end
and expired. -/
def pushFront (queue : MessageQueue) (holders : Holders) (messages : List MessageId) :
    MessageQueue × Holders :=
  let all := messages ++ queue.messages
  ({ queue with
      messages := all.take queue.maxSize
      messageCount := asInt (queue.messageCount + messages.length) },
    holders.expireAll (all.drop queue.maxSize))

/-- `if((*it)->expire()) --message_count_;` -/
def expireCounted (s : MessageQueue × Holders) (m : MessageId) : MessageQueue × Holders :=
  let (holders, first) := s.2.expire m
  (if first then s.1.countDown else s.1, holders)

/-- `clear_timeouted(time)` -/
def clearTimeouted (queue : MessageQueue) (holders : Holders) (time : Time) :
    MessageQueue × Holders :=
  let expireMessages := queue.timedMessages.takeWhile fun entry => entry.1 ≤ time
  (expireMessages.map Prod.snd).foldl expireCounted
    ({ queue with
        timedMessages := queue.timedMessages.dropWhile fun entry => entry.1 ≤ time }, holders)

/-! ## `pop` -/

/-- The loop of `pop`: the place of `it` when it ends and what was moved.  The
loop starts with `cur_size` at `curSize` and `it` at place `it`, before `rest`. -/
def popLoop (holders : Holders) (sendSize : UInt64) :
    UInt64 → Nat → List MessageId → Nat × List MessageId
  | _, it, [] => (it, [])
  | curSize, it, m :: rest =>
      let curSize := curSize + (holders.holder m).plainSize
      if sendSize ≤ curSize then (it, [m])
      else
        let (last, moved) := popLoop holders sendSize curSize (it + 1) rest
        (last, m :: moved)

/-- What `pop` leaves: `result_messages`, the queue, and the place of the end
of the range given to `erase`. -/
structure Popped where
  resultMessages : List MessageId
  queue : MessageQueue
  eraseEnd : Nat

/-- `pop(result_messages, send_size)`.  The range for `erase` ends at `++it`,
also when the loop did not `break` and `it` was at the end already.  That is
outside the language: what `pop` leaves means nothing unless `PopsInside`. -/
def pop (queue : MessageQueue) (holders : Holders) (resultMessages : List MessageId)
    (sendSize : UInt64) : Popped :=
  let (it, moved) := popLoop holders sendSize 0 0 queue.messages
  ⟨resultMessages ++ moved, { queue with messages := queue.messages.drop (it + 1) }, it + 1⟩

/-- The range that `pop` gives to `erase` ends inside `messages_`. -/
def PopsInside (queue : MessageQueue) (holders : Holders) (sendSize : UInt64) : Prop :=
  (queue.pop holders [] sendSize).eraseEnd ≤ queue.messages.length

instance (queue : MessageQueue) (holders : Holders) (sendSize : UInt64) :
    Decidable (queue.PopsInside holders sendSize) :=
  inferInstanceAs (Decidable (_ ≤ _))

/-- `eldest_time()` -/
def eldestTime (queue : MessageQueue) (holders : Holders) : Time :=
  match queue.messages with
  | [] => 0
  | m :: _ => (holders.holder m).pushTime

/-- The loop moves exactly what the following `erase` removes. -/
theorem popLoop_append (holders : Holders) (sendSize curSize : UInt64) (it : Nat)
    (rest : List MessageId) :
    it ≤ (popLoop holders sendSize curSize it rest).1 ∧
      (popLoop holders sendSize curSize it rest).2 ++
        rest.drop ((popLoop holders sendSize curSize it rest).1 + 1 - it) = rest := by
  induction rest generalizing curSize it with
  | nil => simp [popLoop]
  | cons m rest ih =>
      simp only [popLoop]
      by_cases henough : sendSize ≤ curSize + (holders.holder m).plainSize
      · simp [henough]
      · obtain ⟨hle, happend⟩ := ih (curSize + (holders.holder m).plainSize) (it + 1)
        rw [if_neg henough]
        generalize hloop : popLoop holders sendSize _ (it + 1) rest = result at hle happend
        obtain ⟨last, moved⟩ := result
        have hplace : last + 1 - it = (last + 1 - (it + 1)) + 1 := by
          dsimp only at hle
          omega
        refine ⟨by dsimp only at hle ⊢; omega, ?_⟩
        simp only [hplace, List.drop_succ_cons, List.cons_append]
        exact congrArg (m :: ·) happend

/-- The messages that `pop` hands out and those it leaves are the queue. -/
theorem pop_resultMessages_append (queue : MessageQueue) (holders : Holders)
    (sendSize : UInt64) :
    (queue.pop holders [] sendSize).resultMessages ++
      (queue.pop holders [] sendSize).queue.messages = queue.messages := by
  have happend := (popLoop_append holders sendSize 0 0 queue.messages).2
  simpa [pop] using happend

/-- `pop` appends to what is in `result_messages` already. -/
theorem pop_append (queue : MessageQueue) (holders : Holders) (resultMessages : List MessageId)
    (sendSize : UInt64) :
    (queue.pop holders resultMessages sendSize).resultMessages =
        resultMessages ++ (queue.pop holders [] sendSize).resultMessages ∧
      (queue.pop holders resultMessages sendSize).queue =
        (queue.pop holders [] sendSize).queue := ⟨rfl, rfl⟩

/-- `pop` hands out nothing only when there is nothing. -/
theorem pop_resultMessages_eq_nil {queue : MessageQueue} {holders : Holders}
    {sendSize : UInt64} (h : (queue.pop holders [] sendSize).resultMessages = []) :
    queue.messages = [] := by
  cases hmessages : queue.messages with
  | nil => rfl
  | cons m rest =>
      simp only [pop, hmessages, popLoop] at h
      split at h <;> simp at h

/-- From an empty queue `pop` erases behind its end. -/
theorem PopsInside.resultMessages_ne_nil {queue : MessageQueue} {holders : Holders}
    {sendSize : UInt64} (h : queue.PopsInside holders sendSize) :
    (queue.pop holders [] sendSize).resultMessages ≠ [] := by
  intro hnil
  rw [PopsInside, pop_resultMessages_eq_nil hnil] at h
  exact absurd h (Nat.not_succ_le_zero _)

/-- `pop` leaves all but `messages_` alone. -/
theorem pop_queue (queue : MessageQueue) (holders : Holders) (sendSize : UInt64) :
    (queue.pop holders [] sendSize).queue =
      { queue with messages := (queue.pop holders [] sendSize).queue.messages } := rfl

/-! ## What the calls leave -/

section Calls

variable (queue : MessageQueue) (holders : Holders) (m : MessageId) (data : List UInt8)
  (now timeout time : Time) (requestId : UInt64)

/-- A refused `add` gives its increment back. -/
theorem countDown_countUp (hlow : -2 ^ 31 ≤ queue.messageCount)
    (hhigh : queue.messageCount < 2 ^ 31) : queue.countUp.countDown = queue := by
  have hcount : asInt (asInt (queue.messageCount + 1) - 1) = queue.messageCount := by
    rw [asInt_eq, asInt_eq]
    omega
  simp only [countDown, countUp, hcount]

/-- The timed `add` adds one entry to `timed_messages_`. -/
theorem insertTimed_perm :
    (queue.insertTimed timeout m).timedMessages.Perm ((timeout, m) :: queue.timedMessages) := by
  refine List.perm_middle.trans (List.Perm.cons _ ?_)
  rw [List.takeWhile_append_dropWhile]

theorem add_messages : (queue.add holders m data now).1.messages =
    queue.messages ++ if queue.admits then [m] else [] := by
  by_cases hadmits : queue.admits <;> simp [add, hadmits, countUp, countDown, pushBack]

theorem add_maxSize : (queue.add holders m data now).1.maxSize = queue.maxSize := by
  by_cases hadmits : queue.admits <;> simp [add, hadmits, countUp, countDown, pushBack]

theorem add_timedMessages :
    (queue.add holders m data now).1.timedMessages = queue.timedMessages := by
  by_cases hadmits : queue.admits <;> simp [add, hadmits, countUp, countDown, pushBack]

theorem add_callbacks : (queue.add holders m data now).2.1.callbacks = holders.callbacks := by
  by_cases hadmits : queue.admits <;> simp [add, hadmits]

theorem addTimed_messages : (queue.addTimed holders m data now timeout requestId).1.messages =
    queue.messages ++ if queue.admitsTimed then [m] else [] := by
  by_cases hadmits : queue.admitsTimed <;>
    simp [addTimed, hadmits, countUp, countDown, pushBack, insertTimed]

theorem addTimed_maxSize :
    (queue.addTimed holders m data now timeout requestId).1.maxSize = queue.maxSize := by
  by_cases hadmits : queue.admitsTimed <;>
    simp [addTimed, hadmits, countUp, countDown, pushBack, insertTimed]

theorem addTimed_callbacks :
    (queue.addTimed holders m data now timeout requestId).2.1.callbacks = holders.callbacks := by
  by_cases hadmits : queue.admitsTimed <;> simp [addTimed, hadmits]

/-- The timed `add` adds no other entry to `timed_messages_`. -/
theorem mem_addTimed_timedMessages {entry : Time × MessageId}
    (hentry : entry ∈ (queue.addTimed holders m data now timeout requestId).1.timedMessages) :
    entry = (timeout, m) ∨ entry ∈ queue.timedMessages := by
  by_cases hadmits : queue.admitsTimed
  · simp only [addTimed, if_pos hadmits, insertTimed, pushBack, countUp, List.mem_append,
      List.mem_cons] at hentry
    rcases hentry with hbefore | rfl | hafter
    · exact Or.inr ((List.takeWhile_sublist _).subset hbefore)
    · exact Or.inl rfl
    · exact Or.inr ((List.dropWhile_sublist _).subset hafter)
  · simp only [addTimed, if_neg hadmits, countUp, countDown] at hentry
    exact Or.inr hentry

/-- Expiring other messages leaves a message and the lists of the queue alone. -/
theorem count_callbacks_foldl_expireCounted {m : MessageId} (ms : List MessageId) (hm : m ∉ ms)
    (s : MessageQueue × Holders) :
    (ms.foldl expireCounted s).2.callbacks.count m = s.2.callbacks.count m := by
  induction ms generalizing s with
  | nil => rfl
  | cons m' ms ih =>
      simp only [List.mem_cons, not_or] at hm
      rw [List.foldl_cons, ih hm.2]
      simp [expireCounted, Holders.count_callbacks_expire_of_ne _ hm.1]

theorem foldl_expireCounted_queue (ms : List MessageId) (s : MessageQueue × Holders) :
    (ms.foldl expireCounted s).1.messages = s.1.messages ∧
      (ms.foldl expireCounted s).1.timedMessages = s.1.timedMessages := by
  induction ms generalizing s with
  | nil => exact ⟨rfl, rfl⟩
  | cons m ms ih =>
      obtain ⟨hmessages, htimed⟩ := ih (expireCounted s m)
      rw [List.foldl_cons, hmessages, htimed]
      simp only [expireCounted]
      split <;> exact ⟨rfl, rfl⟩

theorem foldl_expireCounted_maxSize (ms : List MessageId) (s : MessageQueue × Holders) :
    (ms.foldl expireCounted s).1.maxSize = s.1.maxSize := by
  induction ms generalizing s with
  | nil => rfl
  | cons m ms ih =>
      rw [List.foldl_cons, ih]
      simp only [expireCounted]
      split <;> rfl

/-- The loop of `clear_timeouted` expires all its messages. -/
theorem foldl_expireCounted_holders (ms : List MessageId) (s : MessageQueue × Holders) :
    (ms.foldl expireCounted s).2 = s.2.expireAll ms := by
  induction ms generalizing s with
  | nil => rfl
  | cons m ms ih => rw [List.foldl_cons, ih, Holders.expireAll_cons, expireCounted]

/-- Over different messages, the loop of `clear_timeouted` counts those that were
live. -/
theorem foldl_expireCounted_messageCount {ms : List MessageId} (hnodup : ms.Nodup)
    {s : MessageQueue × Holders} (hlow : ms.countP s.2.live ≤ s.1.messageCount)
    (hhigh : s.1.messageCount < 2 ^ 31) :
    (ms.foldl expireCounted s).1.messageCount = s.1.messageCount - ms.countP s.2.live := by
  induction ms generalizing s with
  | nil => simp
  | cons m ms ih =>
      obtain ⟨hm, hnodup⟩ := List.nodup_cons.mp hnodup
      have hrest : ms.countP (expireCounted s m).2.live = ms.countP s.2.live := by
        refine List.countP_congr fun m' hm' => ?_
        have hne : m ≠ m' := fun h => hm (h ▸ hm')
        rw [Holders.live_iff, Holders.live_iff, expireCounted, Holders.expired_expire,
          if_neg hne, Nat.add_zero]
      have hcount : (expireCounted s m).1.messageCount =
          s.1.messageCount - if s.2.live m then 1 else 0 := by
        rw [List.countP_cons] at hlow
        by_cases hlive : s.2.live m
        · have hfirst : (s.2.expire m).2 = true := by
            simp [Holders.expire, Holders.live_iff.mp hlive]
          simp only [expireCounted, hfirst, if_true, countDown, hlive] at hlow ⊢
          refine asInt_eq_self ?_ ?_ <;> omega
        · have hlater : (s.2.expire m).2 = false := by
            simpa [Holders.expire, Holders.live] using hlive
          simp [expireCounted, hlater, hlive]
      rw [List.countP_cons] at hlow ⊢
      rw [List.foldl_cons, ih hnodup (by rw [hrest, hcount]; split_ifs at hlow ⊢ <;> omega)
        (by rw [hcount]; split_ifs <;> omega), hrest, hcount]
      split_ifs <;> omega

/-- The messages of the entries that `clear_timeouted(time)` takes out. -/
def timeouted : List MessageId :=
  (queue.timedMessages.takeWhile fun entry => entry.1 ≤ time).map Prod.snd

theorem clearTimeouted_holders :
    (queue.clearTimeouted holders time).2 = holders.expireAll (queue.timeouted time) :=
  foldl_expireCounted_holders _ _

/-- `clear_timeouted` counts down by the number of live messages that it expires. -/
theorem clearTimeouted_messageCount (hnodup : (queue.timeouted time).Nodup)
    (hlow : (queue.timeouted time).countP holders.live ≤ queue.messageCount)
    (hhigh : queue.messageCount < 2 ^ 31) :
    (queue.clearTimeouted holders time).1.messageCount =
      queue.messageCount - (queue.timeouted time).countP holders.live :=
  foldl_expireCounted_messageCount hnodup hlow hhigh

/-- The entries that time out and those that stay are the entries. -/
theorem timeouted_append : queue.timeouted time ++
    (queue.clearTimeouted holders time).1.timedMessages.map Prod.snd =
      queue.timedMessages.map Prod.snd := by
  have hafter : (queue.clearTimeouted holders time).1.timedMessages =
      queue.timedMessages.dropWhile fun entry => entry.1 ≤ time :=
    (foldl_expireCounted_queue _ _).2
  rw [hafter, timeouted, ← List.map_append, List.takeWhile_append_dropWhile]

theorem clearTimeouted_messages :
    (queue.clearTimeouted holders time).1.messages = queue.messages :=
  (foldl_expireCounted_queue _ _).1

theorem clearTimeouted_maxSize :
    (queue.clearTimeouted holders time).1.maxSize = queue.maxSize :=
  foldl_expireCounted_maxSize _ _

theorem clearTimeouted_timedMessages :
    (queue.clearTimeouted holders time).1.timedMessages =
      queue.timedMessages.dropWhile fun entry => entry.1 ≤ time :=
  (foldl_expireCounted_queue _ _).2

/-- `clear_timeouted` runs no callback of a message without an entry. -/
theorem count_callbacks_clearTimeouted {m : MessageId}
    (hm : m ∉ queue.timedMessages.map Prod.snd) :
    (queue.clearTimeouted holders time).2.callbacks.count m = holders.callbacks.count m := by
  refine count_callbacks_foldl_expireCounted _ (fun hin => ?_) _
  obtain ⟨entry, hentry, hsnd⟩ := List.mem_map.mp hin
  exact hm (List.mem_map.mpr ⟨entry, (List.takeWhile_sublist _).subset hentry, hsnd⟩)

end Calls

end MessageQueue
end LiteMQ
