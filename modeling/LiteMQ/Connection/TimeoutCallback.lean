import LiteMQ.Connection.SharedQueue
import Mathlib.Data.List.Count
import Mathlib.Data.List.Perm.Subperm

/-!
# The timeout callback

A timed message is reached from `messages_`, from `timed_messages_` and from the
batches that were popped.  Any sequence of `add`s, of `pop`s and `push_front`s of
popped messages, of `clear_timeouted` and of operations of handlers in `write()`
runs on one queue here.

`remaining` bounds the calls of `expire()` that a message can still get: one when
it is cut off the end of `messages_` and one when its entry times out.  It falls
with each call, so there are two calls at most (`SentOrExpired.expired_le_two`),
and `expired_` is far from an overflow that would make a second call the first.
-/

namespace LiteMQ
namespace TimeoutCallback

open SendDescriptorHandler TransitionSystem

/-- The queue with its handlers, and the messages that other callers of `pop`
hold. -/
structure State (H : Type*) where
  shared : SharedQueue.State H
  popped : List MessageId

/-- A step of the shared queue, or a call of `pop` or `push_front` that is not part
of `write()`. -/
inductive Action (H : Type*)
  | shared (action : SharedQueue.Action H)
  | pop (sendSize : UInt64)
  | pushFront (messages : List MessageId)

variable {H : Type*} [DecidableEq H]

/-- `push_front` can give back what was popped, each message as often.  A call of
`pop` that finds too little for its batch goes on with the empty queue, so there
are more runs here than the language has. -/
def step (order : ByteOrder) (s : State H) : Action H → Option (State H)
  | .shared action =>
      (SharedQueue.step order s.shared action).map fun shared => { s with shared := shared }
  | .pop sendSize =>
      let popped := s.shared.queue.pop s.shared.holders s.popped sendSize
      some ⟨{ s.shared with queue := popped.queue }, popped.resultMessages⟩
  | .pushFront messages =>
      if messages.Subperm s.popped then
        let pushed := s.shared.queue.pushFront s.shared.holders messages
        some ⟨{ s.shared with queue := pushed.1, holders := pushed.2 }, s.popped.diff messages⟩
      else none

def system (order : ByteOrder) (maxSize : Nat) (messageCount : Int) (connected : H → Bool) :
    TransitionSystem (State H) (Action H) where
  init := ⟨(SharedQueue.system order maxSize messageCount connected).init, []⟩
  step := step order

/-! ## The calls of `expire()` -/

/-- The calls of `expire()` so far and those that can still come: from
`messages_`, also behind a `push_front`, and from `timed_messages_`. -/
def remaining (s : State H) (m : MessageId) : Nat :=
  (s.shared.holders.holder m).expired + s.shared.queue.messages.count m + s.popped.count m +
    (s.shared.queue.timedMessages.map Prod.snd).count m

/-- What every run keeps. -/
structure SentOrExpired (s : State H) : Prop where
  quiet : SharedQueue.Quiet s.shared
  callbacks : s.shared.holders.CallbacksOnce
  bound : ∀ m, remaining s m ≤ 2
  fresh : ∀ m, s.shared.nextMessage ≤ m → remaining s m = 0

omit [DecidableEq H] in
/-- `expire()` is called twice at most for a message. -/
theorem SentOrExpired.expired_le_two {s : State H} (hs : SentOrExpired s) (m : MessageId) :
    (s.shared.holders.holder m).expired ≤ 2 := by
  have hbound := hs.bound m
  unfold remaining at hbound
  omega

omit [DecidableEq H] in
/-- A step that creates no message and does not raise the bound keeps the
invariant. -/
theorem SentOrExpired.of_le {s t : State H} (hs : SentOrExpired s)
    (hquiet : SharedQueue.Quiet t.shared) (hcallbacks : t.shared.holders.CallbacksOnce)
    (hle : ∀ m, remaining t m ≤ remaining s m)
    (hnext : t.shared.nextMessage = s.shared.nextMessage) : SentOrExpired t where
  quiet := hquiet
  callbacks := hcallbacks
  bound := fun m => Nat.le_trans (hle m) (hs.bound m)
  fresh := fun m hm => Nat.le_zero.mp (hs.fresh m (hnext ▸ hm) ▸ hle m)

omit [DecidableEq H] in
/-- A step that creates one message keeps the invariant if it changes the bound
for that message only, to two at most. -/
theorem SentOrExpired.of_new {s t : State H} (hs : SentOrExpired s)
    (hquiet : SharedQueue.Quiet t.shared) (hcallbacks : t.shared.holders.CallbacksOnce)
    (hnew : remaining t s.shared.nextMessage ≤ 2)
    (hle : ∀ m, m ≠ s.shared.nextMessage → remaining t m ≤ remaining s m)
    (hnext : t.shared.nextMessage = s.shared.nextMessage + 1) : SentOrExpired t where
  quiet := hquiet
  callbacks := hcallbacks
  bound := by
    intro m
    rcases eq_or_ne m s.shared.nextMessage with rfl | hne
    · exact hnew
    · exact Nat.le_trans (hle m hne) (hs.bound m)
  fresh := by
    intro m hm
    rw [hnext] at hm
    have hne : m ≠ s.shared.nextMessage := Nat.ne_of_gt hm
    exact Nat.le_zero.mp (hs.fresh m (Nat.le_of_succ_le hm) ▸ hle m hne)

omit [DecidableEq H] in
/-- Nothing is known of a message that was not created yet. -/
theorem SentOrExpired.new {s : State H} (hs : SentOrExpired s) :
    (s.shared.holders.holder s.shared.nextMessage).expired = 0 ∧
      s.shared.queue.messages.count s.shared.nextMessage = 0 ∧
      s.popped.count s.shared.nextMessage = 0 ∧
      (s.shared.queue.timedMessages.map Prod.snd).count s.shared.nextMessage = 0 := by
  have hfresh := hs.fresh _ (Nat.le_refl s.shared.nextMessage)
  unfold remaining at hfresh
  omega

/-- An `add` puts its message into `messages_` or nowhere. -/
theorem SentOrExpired.send {order : ByteOrder} {s t : State H} (hs : SentOrExpired s)
    {data : List UInt8} {now : Time} {shared : SharedQueue.State H}
    (hstep : SharedQueue.step order s.shared (.send data now) = some shared)
    (ht : t = { s with shared := shared }) : SentOrExpired t := by
  have hcalled := SharedQueue.step_send hstep
  have hquiet := hs.quiet.step hstep
  obtain ⟨hexpired, hmessages, hpopped, htimed⟩ := hs.new
  subst ht
  by_cases hadmits : s.shared.queue.admits
  · refine hs.of_new hquiet ?_ ?_ (fun m hne => ?_) hcalled.nextMessage
    · simp only [hcalled.holders, MessageQueue.add, if_pos hadmits]
      exact hs.callbacks.construct hexpired rfl
    · simp [remaining, hcalled.holders, hcalled.queue, MessageQueue.add, hadmits,
        MessageQueue.pushBack, MessageQueue.countUp, hmessages, hpopped, htimed]
    · simp [remaining, hcalled.holders, hcalled.queue, MessageQueue.add, hadmits,
        MessageQueue.pushBack, MessageQueue.countUp, Holders.construct_of_ne _ _ hne, hne.symm]
  · refine hs.of_new hquiet ?_ ?_ (fun m hne => ?_) hcalled.nextMessage
    · simp only [hcalled.holders, MessageQueue.add, if_neg hadmits]
      exact hs.callbacks
    · simp [remaining, hcalled.holders, hcalled.queue, MessageQueue.add, hadmits,
        MessageQueue.countDown, MessageQueue.countUp, hmessages, hpopped, htimed, hexpired]
    · simp [remaining, hcalled.holders, hcalled.queue, MessageQueue.add, hadmits,
        MessageQueue.countDown, MessageQueue.countUp]

/-- The timed `add` puts its message into `messages_` and `timed_messages_`, or
nowhere. -/
theorem SentOrExpired.addTimed {order : ByteOrder} {s t : State H} (hs : SentOrExpired s)
    {data : List UInt8} {now timeout : Time} {requestId : UInt64} {shared : SharedQueue.State H}
    (hstep : SharedQueue.step order s.shared (.addTimed data now timeout requestId) = some shared)
    (ht : t = { s with shared := shared }) : SentOrExpired t := by
  have hcalled := SharedQueue.step_addTimed hstep
  have hquiet := hs.quiet.step hstep
  obtain ⟨hexpired, hmessages, hpopped, htimed⟩ := hs.new
  have hentries := fun m => (((s.shared.queue.countUp.pushBack s.shared.nextMessage).insertTimed_perm
    s.shared.nextMessage timeout).map Prod.snd).count_eq m
  simp only [List.map_cons, List.count_cons] at hentries
  subst ht
  by_cases hadmits : s.shared.queue.admitsTimed
  · refine hs.of_new hquiet ?_ ?_ (fun m hne => ?_) hcalled.nextMessage
    · simp only [hcalled.holders, MessageQueue.addTimed, if_pos hadmits]
      exact hs.callbacks.construct hexpired rfl
    · simp only [remaining, hcalled.holders, hcalled.queue, MessageQueue.addTimed, if_pos hadmits,
        hentries]
      simp [MessageQueue.insertTimed, MessageQueue.pushBack, MessageQueue.countUp, hmessages,
        hpopped, htimed]
    · simp only [remaining, hcalled.holders, hcalled.queue, MessageQueue.addTimed, if_pos hadmits,
        hentries]
      simp [MessageQueue.insertTimed, MessageQueue.pushBack, MessageQueue.countUp,
        Holders.construct_of_ne _ _ hne, hne.symm]
  · refine hs.of_new hquiet ?_ ?_ (fun m hne => ?_) hcalled.nextMessage
    · simp only [hcalled.holders, MessageQueue.addTimed, if_neg hadmits]
      exact hs.callbacks
    · simp [remaining, hcalled.holders, hcalled.queue, MessageQueue.addTimed, hadmits,
        MessageQueue.countDown, MessageQueue.countUp, hmessages, hpopped, htimed, hexpired]
    · simp [remaining, hcalled.holders, hcalled.queue, MessageQueue.addTimed, hadmits,
        MessageQueue.countDown, MessageQueue.countUp]

/-- Every call of `expire()` in `clear_timeouted` uses up an entry. -/
theorem SentOrExpired.clearTimeouted {order : ByteOrder} {s t : State H} (hs : SentOrExpired s)
    {time : Time} {shared : SharedQueue.State H}
    (hstep : SharedQueue.step order s.shared (.clearTimeouted time) = some shared)
    (ht : t = { s with shared := shared }) : SentOrExpired t := by
  have hcalled := SharedQueue.step_clearTimeouted hstep
  have hquiet := hs.quiet.step hstep
  have happend := s.shared.queue.timeouted_append s.shared.holders time
  subst ht
  refine hs.of_le hquiet ?_ (fun m => ?_) hcalled.nextMessage
  · simp only [hcalled.holders, MessageQueue.clearTimeouted_holders]
    exact hs.callbacks.expireAll _
  · have hcount := congrArg (List.count m) happend
    rw [List.count_append] at hcount
    simp only [remaining, hcalled.holders, hcalled.queue, MessageQueue.clearTimeouted_messages,
      MessageQueue.clearTimeouted_holders, Holders.expired_expireAll]
    omega

/-- A handler takes messages out and calls `expire()` for none. -/
theorem SentOrExpired.write {order : ByteOrder} {s t : State H} (hs : SentOrExpired s) {h : H}
    {outcome : SendOutcome} {shared : SharedQueue.State H}
    (hstep : SharedQueue.step order s.shared (.write h outcome) = some shared)
    (ht : t = { s with shared := shared }) : SentOrExpired t := by
  obtain ⟨result, hresult, hwrote⟩ := SharedQueue.step_write hstep
  have hquiet := hs.quiet.step hstep
  subst ht
  have hrest : result.holders = s.shared.holders ∧
      result.queue.timedMessages = s.shared.queue.timedMessages ∧
      result.queue.messages.Sublist s.shared.queue.messages := by
    cases ((hs.quiet h).writeStep hresult).1 with
    | pop hpc hinside =>
        -- the batch of a handler is not given back, so it is not counted in `remaining`
        refine ⟨rfl, rfl, ?_⟩
        have happend := s.shared.queue.pop_resultMessages_append s.shared.holders 16000
        conv_rhs => rw [← happend]
        exact List.sublist_append_right ..
    | enter hpc handler => exact ⟨rfl, rfl, List.Sublist.refl _⟩
    | popFault hpc houtside => exact ⟨rfl, rfl, List.Sublist.refl _⟩
    | dropBatch messages hpc hlive handler => exact ⟨rfl, rfl, List.Sublist.refl _⟩
    | fault messages hpc hexpired => exact ⟨rfl, rfl, List.Sublist.refl _⟩
  obtain ⟨hholders, htimed, hmessages⟩ := hrest
  refine hs.of_le hquiet ?_ (fun m => ?_) hwrote.nextMessage
  · simp only [hwrote.holders, hholders]
    exact hs.callbacks
  · have hcount := hmessages.count_le m
    simp only [remaining, hwrote.holders, hwrote.queue, hholders, htimed]
    omega

/-- `pop` moves messages from one place to the other. -/
theorem SentOrExpired.pop {order : ByteOrder} {s t : State H} (hs : SentOrExpired s)
    {sendSize : UInt64} (hstep : step order s (.pop sendSize) = some t) : SentOrExpired t := by
  obtain rfl := Option.some.inj hstep
  obtain ⟨hresult, hqueue⟩ := s.shared.queue.pop_append s.shared.holders s.popped sendSize
  have happend := s.shared.queue.pop_resultMessages_append s.shared.holders sendSize
  refine hs.of_le hs.quiet hs.callbacks (fun m => ?_) rfl
  have hcount := congrArg (List.count m) happend
  rw [List.count_append] at hcount
  have htimed : (s.shared.queue.pop s.shared.holders [] sendSize).queue.timedMessages =
      s.shared.queue.timedMessages := by rw [MessageQueue.pop_queue]
  simp only [remaining, hresult, hqueue, htimed, List.count_append]
  omega

/-- Every call of `expire()` in `push_front` uses up a place in `messages_`. -/
theorem SentOrExpired.pushFront {order : ByteOrder} {s t : State H} (hs : SentOrExpired s)
    {messages : List MessageId} (hstep : step order s (.pushFront messages) = some t) :
    SentOrExpired t := by
  simp only [step] at hstep
  split at hstep
  · rename_i hsub
    obtain rfl := Option.some.inj hstep
    refine hs.of_le hs.quiet (hs.callbacks.expireAll _) (fun m => ?_) rfl
    -- what is kept and what is cut off make up the batch and the queue
    have hcut := congrArg (List.count m)
      (List.take_append_drop s.shared.queue.maxSize (messages ++ s.shared.queue.messages))
    have hback := hsub.count_le m
    rw [List.count_append, List.count_append] at hcut
    simp only [remaining, MessageQueue.pushFront, Holders.expired_expireAll, List.count_diff]
    omega
  · cases hstep

theorem SentOrExpired.step {order : ByteOrder} {s t : State H} {a : Action H}
    (hs : SentOrExpired s) (hstep : TimeoutCallback.step order s a = some t) :
    SentOrExpired t := by
  cases a with
  | shared action =>
      obtain ⟨shared, hshared, ht⟩ := Option.map_eq_some_iff.mp hstep
      cases action with
      | send data now => exact hs.send hshared ht.symm
      | addTimed data now timeout requestId => exact hs.addTimed hshared ht.symm
      | clearTimeouted time => exact hs.clearTimeouted hshared ht.symm
      | write h outcome => exact hs.write hshared ht.symm
  | pop sendSize => exact hs.pop hstep
  | pushFront messages => exact hs.pushFront hstep

theorem sentOrExpired_init (order : ByteOrder) (maxSize : Nat) (messageCount : Int)
    (connected : H → Bool) : SentOrExpired (system order maxSize messageCount connected).init where
  quiet := SharedQueue.quiet_init order maxSize messageCount connected
  callbacks := fun _ => rfl
  bound := fun _ => Nat.zero_le 2
  fresh := fun _ _ => rfl

/-- **Sent and timed out are exclusive.**  In every run the timeout callback of a
message has run once at most, after two calls of `expire()` at most; and from a
state in which a socket has accepted the last byte of a message, it runs no more.
No socket ever accepts one: a handler does not come to `::sendmsg`. -/
theorem callback_once (order : ByteOrder) (maxSize : Nat) (messageCount : Int)
    (connected : H → Bool) {before after : List (Action H)} {s t : State H}
    (hbefore : (system order maxSize messageCount connected).run
      (system order maxSize messageCount connected).init before = some s)
    (hafter : (system order maxSize messageCount connected).run s after = some t) :
    (∀ m, t.shared.holders.callbacks.count m ≤ 1 ∧ (t.shared.holders.holder m).expired ≤ 2) ∧
      ∀ h m, m ∈ (s.shared.writers h).handed →
        t.shared.holders.callbacks.count m = s.shared.holders.callbacks.count m := by
  have hstep : ∀ (s : State H) a t, SentOrExpired s →
      (system order maxSize messageCount connected).step s a = some t → SentOrExpired t :=
    fun _ _ _ hs hstep => hs.step hstep
  have hs := run_preserves hstep (sentOrExpired_init order maxSize messageCount connected) hbefore
  have ht := run_preserves hstep hs hafter
  refine ⟨fun m => ⟨?_, ht.expired_le_two m⟩, fun h m hm => ?_⟩
  · rw [ht.callbacks m]
    exact Nat.min_le_left ..
  · rw [(hs.quiet h).handed] at hm
    cases hm

/-- Two messages time out in the queue, a third is cut off by `push_front`, and its
entry times out afterwards. -/
theorem callback_once_cut_off :
    ∃ s t, (system .littleEndian 2 0 fun _ : Unit => true).run
        (system .littleEndian 2 0 fun _ : Unit => true).init
        [.shared (.addTimed [1] 5 7 1), .shared (.clearTimeouted 7),
          .shared (.addTimed [2] 8 9 2), .shared (.clearTimeouted 9),
          .shared (.addTimed [3] 10 20 3), .pop 5, .pushFront [0]] = some s ∧
      (system .littleEndian 2 0 fun _ : Unit => true).run s
        [.shared (.clearTimeouted 20), .shared (.write () .zero)] = some t ∧
      (∀ m, t.shared.holders.callbacks.count m ≤ 1 ∧ (t.shared.holders.holder m).expired ≤ 2) ∧
      ∀ h m, m ∈ (s.shared.writers h).handed →
        t.shared.holders.callbacks.count m = s.shared.holders.callbacks.count m := by
  have hend : (((system .littleEndian 2 0 fun _ : Unit => true).run
      (system .littleEndian 2 0 fun _ : Unit => true).init
      [.shared (.addTimed [1] 5 7 1), .shared (.clearTimeouted 7),
        .shared (.addTimed [2] 8 9 2), .shared (.clearTimeouted 9),
        .shared (.addTimed [3] 10 20 3), .pop 5, .pushFront [0]]).bind fun s =>
          (system .littleEndian 2 0 fun _ : Unit => true).run s
            [.shared (.clearTimeouted 20), .shared (.write () .zero)]).isSome = true := by
    decide +kernel
  obtain ⟨t, ht⟩ := Option.isSome_iff_exists.mp hend
  obtain ⟨s, hs, ht⟩ := Option.bind_eq_some_iff.mp ht
  exact ⟨s, t, hs, ht, callback_once .littleEndian 2 0 (fun _ => true) hs ht⟩

end TimeoutCallback
end LiteMQ
