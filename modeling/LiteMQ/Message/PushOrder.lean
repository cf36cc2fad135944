import LiteMQ.Message.QueueCalls

/-!
# The order of `messages_`

`messages_` is the "queue in push order", and `eldest_time()` reads the push time
of its first element.  Adding keeps the order, and a handler that takes a batch
and gives its tail back puts it where it was, as long as no other handler has a
batch too: the one that took its batch later may give it back first, and then the
older messages of the other one come in front of it.  But the one that took its
batch first may also give it back first, and then the younger messages come in
front of the older ones.

`inPushOrder_iff` says that this is the only way to lose the order in the language;
a `pop` that finds too little leaves it.
-/

namespace LiteMQ
namespace QueueCalls

open TransitionSystem

variable {H : Type*} [DecidableEq H]

/-- `a` was constructed no later than `b`. -/
def NotYounger (holders : Holders) (a b : MessageId) : Prop :=
  (holders.holder a).pushTime ≤ (holders.holder b).pushTime

instance (holders : Holders) (a b : MessageId) : Decidable (NotYounger holders a b) :=
  inferInstanceAs (Decidable (_ ≤ _))

/-- A message that comes into the queue is not older than those that were pushed
before, and a handler gives back, in their order, messages of the batch that it
popped when it had none. -/
def PopPushPairs (s : State H) : Action H → Prop
  | .add _ now => s.queue.admits → ∀ m ∈ s.pushed, (s.holders.holder m).pushTime ≤ now
  | .addTimed _ now _ _ =>
      s.queue.admitsTimed → ∀ m ∈ s.pushed, (s.holders.holder m).pushTime ≤ now
  | .pop h _ => s.batch h = []
  | .pushFront h messages => messages.Sublist (s.batch h)
  | .drop _ | .clearTimeouted _ => True

instance (s : State H) (a : Action H) : Decidable (PopPushPairs s a) :=
  match a with
  | .add _ now => inferInstanceAs (Decidable (_ → ∀ m ∈ s.pushed, _ ≤ now))
  | .addTimed _ now _ _ => inferInstanceAs (Decidable (_ → ∀ m ∈ s.pushed, _ ≤ now))
  | .pop h _ => inferInstanceAs (Decidable (s.batch h = []))
  | .pushFront h messages => inferInstanceAs (Decidable (messages.Sublist (s.batch h)))
  | .drop _ | .clearTimeouted _ => inferInstanceAs (Decidable True)

/-- `messages_` is a deque sorted by push time, and `eldest_time()` is the least
push time in it. -/
structure InPushOrder (s : State H) : Prop where
  defined : s.defined = true
  sorted : s.queue.messages.Pairwise (NotYounger s.holders)
  eldest_le : ∀ m ∈ s.queue.messages,
    s.queue.eldestTime s.holders ≤ (s.holders.holder m).pushTime
  eldest_mem : s.queue.messages ≠ [] →
    ∃ m ∈ s.queue.messages, s.queue.eldestTime s.holders = (s.holders.holder m).pushTime

/-- When a handler gives messages back, no message that stays in `messages_` is
older than one of them; and when it pops, it finds enough messages for its batch. -/
def GivesBackEldest (s : State H) : Action H → Prop
  | .pushFront _ messages =>
      ∀ a ∈ messages.take s.queue.maxSize,
        ∀ b ∈ s.queue.messages.take (s.queue.maxSize - messages.length),
          NotYounger s.holders a b
  | .pop _ sendSize => s.queue.PopsInside s.holders sendSize
  | _ => True

instance (s : State H) (a : Action H) : Decidable (GivesBackEldest s a) :=
  match a with
  | .pushFront _ _ => inferInstanceAs (Decidable (∀ a ∈ _, ∀ b ∈ _, _))
  | .pop _ sendSize => inferInstanceAs (Decidable (s.queue.PopsInside s.holders sendSize))
  | .add _ _ | .addTimed _ _ _ _ | .drop _ | .clearTimeouted _ =>
      inferInstanceAs (Decidable True)

/-! ## The invariant -/

/-- The queue and each batch are sorted, and hold only messages that were pushed. -/
structure Ordered (s : State H) : Prop where
  defined : s.defined = true
  sorted : s.queue.messages.Pairwise (NotYounger s.holders)
  batch : ∀ h, (s.batch h).Pairwise (NotYounger s.holders)
  queued : ∀ m ∈ s.queue.messages, m ∈ s.pushed
  popped : ∀ h, ∀ m ∈ s.batch h, m ∈ s.pushed
  known : ∀ m ∈ s.pushed, m < s.nextMessage

theorem ordered_init (maxSize : Nat) : Ordered (system H maxSize).init where
  defined := rfl
  sorted := List.Pairwise.nil
  batch := fun _ => List.Pairwise.nil
  queued := fun _ hm => absurd hm List.not_mem_nil
  popped := fun _ _ hm => absurd hm List.not_mem_nil
  known := fun _ hm => absurd hm List.not_mem_nil

omit [DecidableEq H] in
/-- In a sorted queue the first message is the eldest. -/
theorem Ordered.inPushOrder {s : State H} (hs : Ordered s) : InPushOrder s := by
  have hsorted := hs.sorted
  refine ⟨hs.defined, hsorted, fun m hm => ?_, fun hne => ?_⟩
  · cases hmessages : s.queue.messages with
    | nil =>
        rw [hmessages] at hm
        cases hm
    | cons first rest =>
        rw [hmessages] at hm hsorted
        simp only [MessageQueue.eldestTime, hmessages]
        rcases List.mem_cons.mp hm with rfl | hrest
        · exact Int.le_refl _
        · exact List.rel_of_pairwise_cons hsorted hrest
  · cases hmessages : s.queue.messages with
    | nil => exact absurd hmessages hne
    | cons first rest =>
        exact ⟨first, List.mem_cons_self .., by simp [MessageQueue.eldestTime, hmessages]⟩

omit [DecidableEq H] in
/-- Holders that keep the push times of the pushed messages keep the order. -/
theorem pairwise_of_pushTime {s : State H} {holders : Holders} {ms : List MessageId}
    (hms : ms.Pairwise (NotYounger s.holders)) (hpushed : ∀ m ∈ ms, m ∈ s.pushed)
    (hsame : ∀ m ∈ s.pushed, (holders.holder m).pushTime = (s.holders.holder m).pushTime) :
    ms.Pairwise (NotYounger holders) := by
  refine hms.imp_of_mem fun {a b} ha hb hab => ?_
  rw [NotYounger, hsame a (hpushed a ha), hsame b (hpushed b hb)]
  exact hab

omit [DecidableEq H] in
/-- A message that is not older than all before it comes to the end. -/
theorem Ordered.admitted {s t : State H} (hs : Ordered s) (holder : MessageHolder)
    (hnow : ∀ m ∈ s.pushed, (s.holders.holder m).pushTime ≤ holder.pushTime)
    (hmessages : t.queue.messages = s.queue.messages ++ [s.nextMessage])
    (hholders : t.holders = s.holders.construct s.nextMessage holder)
    (hnext : t.nextMessage = s.nextMessage + 1) (hpushed : t.pushed = s.pushed ++ [s.nextMessage])
    (hbatch : t.batch = s.batch) (hdefined : t.defined = s.defined) : Ordered t := by
  have hsame : ∀ m ∈ s.pushed,
      (t.holders.holder m).pushTime = (s.holders.holder m).pushTime := by
    intro m hm
    rw [hholders, Holders.construct_of_ne _ _ (Nat.ne_of_lt (hs.known m hm))]
  constructor
  · exact hdefined.trans hs.defined
  · rw [hmessages]
    refine List.pairwise_append.mpr
      ⟨pairwise_of_pushTime hs.sorted hs.queued hsame, List.pairwise_singleton .., ?_⟩
    intro a ha b hb
    obtain rfl := List.mem_singleton.mp hb
    rw [NotYounger, hsame a (hs.queued a ha), hholders, Holders.construct_self]
    exact hnow a (hs.queued a ha)
  · intro h
    rw [hbatch]
    exact pairwise_of_pushTime (hs.batch h) (hs.popped h) hsame
  · intro m hm
    rw [hmessages, List.mem_append] at hm
    rw [hpushed, List.mem_append]
    exact hm.imp_left (hs.queued m)
  · intro h m hm
    rw [hbatch] at hm
    rw [hpushed, List.mem_append]
    exact Or.inl (hs.popped h m hm)
  · intro m hm
    rw [hpushed, List.mem_append, List.mem_singleton] at hm
    rw [hnext]
    rcases hm with hm | rfl
    · exact Nat.lt_succ_of_lt (hs.known m hm)
    · exact Nat.lt_succ_self _

omit [DecidableEq H] in
/-- A call that takes messages out, and keeps the push times, keeps the order. -/
theorem Ordered.of_sublist {s t : State H} (hs : Ordered s)
    (hmessages : t.queue.messages.Sublist s.queue.messages)
    (hbatch : ∀ h, (t.batch h).Sublist (s.batch h)) (hpushed : t.pushed = s.pushed)
    (hsame : ∀ m, (t.holders.holder m).pushTime = (s.holders.holder m).pushTime)
    (hnext : s.nextMessage ≤ t.nextMessage) (hdefined : t.defined = s.defined) : Ordered t where
  defined := hdefined.trans hs.defined
  sorted := (pairwise_of_pushTime hs.sorted hs.queued fun m _ => hsame m).sublist hmessages
  batch := fun h =>
    (pairwise_of_pushTime (hs.batch h) (hs.popped h) fun m _ => hsame m).sublist (hbatch h)
  queued := fun m hm => hpushed ▸ hs.queued m (hmessages.subset hm)
  popped := fun h m hm => hpushed ▸ hs.popped h m ((hbatch h).subset hm)
  known := fun m hm => Nat.lt_of_lt_of_le (hs.known m (hpushed ▸ hm)) hnext

/-- `pop` cuts a sorted queue in two. -/
theorem Ordered.pop {s t : State H} (hs : Ordered s) {h : H} {sendSize : UInt64}
    (hnone : s.batch h = []) (hinside : s.queue.PopsInside s.holders sendSize)
    (hstep : step s (.pop h sendSize) = some t) : Ordered t := by
  obtain ⟨-, rfl⟩ | ⟨houtside, -⟩ := step_pop hstep
  swap
  · exact absurd hinside houtside
  have happend := s.queue.pop_resultMessages_append s.holders sendSize
  have hsorted := hs.sorted
  have hqueued := hs.queued
  -- the batch is the front of the queue, so both parts are sorted
  rw [← happend] at hsorted hqueued
  obtain ⟨htaken, hleft, -⟩ := List.pairwise_append.mp hsorted
  rw [hnone, List.nil_append]
  refine ⟨hs.defined, hleft, fun h' => ?_, fun m hm => hqueued m (List.mem_append_right _ hm),
    fun h' m hm => ?_, hs.known⟩
  · rcases eq_or_ne h' h with rfl | hne
    · simp only [Function.update_self]
      exact htaken
    · simp only [Function.update_of_ne hne]
      exact hs.batch h'
  · rcases eq_or_ne h' h with rfl | hne
    · simp only [Function.update_self] at hm
      exact hqueued m (List.mem_append_left _ hm)
    · simp only [Function.update_of_ne hne] at hm
      exact hs.popped h' m hm

/-- What `push_front` leaves in the queue is sorted exactly when the messages
that are given back are not younger than those that stay. -/
theorem sorted_pushFront_iff {s t : State H} (hs : Ordered s) {h : H}
    {messages : List MessageId} (hpairs : PopPushPairs s (.pushFront h messages))
    (hstep : step s (.pushFront h messages) = some t) :
    t.queue.messages.Pairwise (NotYounger t.holders) ↔
      GivesBackEldest s (.pushFront h messages) := by
  obtain rfl := Option.some.inj hstep
  have hback : (messages.take s.queue.maxSize).Pairwise (NotYounger s.holders) :=
    (hs.batch h).sublist ((List.take_sublist ..).trans hpairs)
  have hstay : (s.queue.messages.take (s.queue.maxSize - messages.length)).Pairwise
      (NotYounger s.holders) := hs.sorted.sublist (List.take_sublist ..)
  -- what is cut off is expired, which does not touch the push times
  have hholders : ∀ a b, NotYounger (s.queue.pushFront s.holders messages).2 a b ↔
      NotYounger s.holders a b := by
    intro a b
    simp only [NotYounger, MessageQueue.pushFront, Holders.pushTime_expireAll]
  have hsame : ((messages ++ s.queue.messages).take s.queue.maxSize).Pairwise
      (NotYounger (s.queue.pushFront s.holders messages).2) ↔
        ((messages ++ s.queue.messages).take s.queue.maxSize).Pairwise
          (NotYounger s.holders) := by
    constructor
    · exact fun hsorted => hsorted.imp fun {a b} hab => (hholders a b).mp hab
    · exact fun hsorted => hsorted.imp fun {a b} hab => (hholders a b).mpr hab
  refine hsame.trans ?_
  rw [List.take_append, List.pairwise_append]
  exact ⟨fun hsorted => hsorted.2.2, fun hguard => ⟨hback, hstay, hguard⟩⟩

/-- Messages that are given back in front of no older one keep the order. -/
theorem Ordered.pushFront {s t : State H} (hs : Ordered s) {h : H} {messages : List MessageId}
    (hpairs : PopPushPairs s (.pushFront h messages))
    (hguard : GivesBackEldest s (.pushFront h messages))
    (hstep : step s (.pushFront h messages) = some t) : Ordered t := by
  have hsorted := (sorted_pushFront_iff hs hpairs hstep).mpr hguard
  obtain rfl := Option.some.inj hstep
  have hsame : ∀ m, ((s.queue.pushFront s.holders messages).2.holder m).pushTime =
      (s.holders.holder m).pushTime := fun m => Holders.pushTime_expireAll ..
  refine ⟨hs.defined, hsorted, fun h' => ?_, fun m hm => ?_, fun h' m hm => ?_, hs.known⟩
  · rcases eq_or_ne h' h with rfl | hne
    · simp only [Function.update_self]
      exact (pairwise_of_pushTime (hs.batch h') (hs.popped h') fun m _ => hsame m).sublist
        (List.diff_sublist ..)
    · simp only [Function.update_of_ne hne]
      exact pairwise_of_pushTime (hs.batch h') (hs.popped h') fun m _ => hsame m
  · rcases List.mem_append.mp (List.mem_of_mem_take hm) with hin | hin
    · exact hs.popped h m (hpairs.subset hin)
    · exact hs.queued m hin
  · rcases eq_or_ne h' h with rfl | hne
    · simp only [Function.update_self] at hm
      exact hs.popped h' m ((List.diff_sublist ..).subset hm)
    · simp only [Function.update_of_ne hne] at hm
      exact hs.popped h' m hm

theorem Ordered.step {s t : State H} {a : Action H} (hs : Ordered s) (hpairs : PopPushPairs s a)
    (hguard : GivesBackEldest s a) (hstep : QueueCalls.step s a = some t) : Ordered t := by
  cases a with
  | add data now =>
      obtain rfl := Option.some.inj hstep
      by_cases hadmits : s.queue.admits
      · simp only [MessageQueue.add, if_pos hadmits, if_true]
        exact hs.admitted ⟨data, now, _, _, 0⟩ (hpairs hadmits) rfl rfl rfl rfl rfl rfl
      · simp only [MessageQueue.add, if_neg hadmits, Bool.false_eq_true, if_false]
        exact hs.of_sublist (List.Sublist.refl _) (fun _ => List.Sublist.refl _) rfl
          (fun _ => rfl) (Nat.le_succ _) rfl
  | addTimed data now timeout requestId =>
      obtain rfl := Option.some.inj hstep
      by_cases hadmits : s.queue.admitsTimed
      · simp only [MessageQueue.addTimed, if_pos hadmits, if_true]
        exact hs.admitted ⟨data, now, _, _, 0⟩ (hpairs hadmits) rfl rfl rfl rfl rfl rfl
      · simp only [MessageQueue.addTimed, if_neg hadmits, Bool.false_eq_true, if_false]
        exact hs.of_sublist (List.Sublist.refl _) (fun _ => List.Sublist.refl _) rfl
          (fun _ => rfl) (Nat.le_succ _) rfl
  | pop h sendSize => exact hs.pop hpairs hguard hstep
  | pushFront h messages => exact hs.pushFront hpairs hguard hstep
  | drop h =>
      obtain rfl := Option.some.inj hstep
      refine hs.of_sublist (List.Sublist.refl _) (fun h' => ?_) rfl (fun _ => rfl) (Nat.le_refl _)
        rfl
      rcases eq_or_ne h' h with rfl | hne
      · simp only [Function.update_self]
        exact List.nil_sublist _
      · simp only [Function.update_of_ne hne]
        exact List.Sublist.refl _
  | clearTimeouted time =>
      obtain rfl := Option.some.inj hstep
      refine hs.of_sublist ?_ (fun _ => List.Sublist.refl _) rfl (fun m => ?_) (Nat.le_refl _) rfl
      · rw [MessageQueue.clearTimeouted_messages]
      · rw [MessageQueue.clearTimeouted_holders, Holders.pushTime_expireAll]

/-- Where a handler gives a message back in front of an older one, the order is
lost, and where it pops too much, the deque. -/
theorem not_inPushOrder {s t : State H} {a : Action H} (hs : Ordered s)
    (hpairs : PopPushPairs s a) (hguard : ¬ GivesBackEldest s a)
    (hstep : step s a = some t) : ¬ InPushOrder t := by
  cases a with
  | pushFront h messages =>
      exact fun horder => hguard ((sorted_pushFront_iff hs hpairs hstep).mp horder.sorted)
  | add data now => exact absurd trivial hguard
  | addTimed data now timeout requestId => exact absurd trivial hguard
  | pop h sendSize =>
      obtain ⟨hinside, -⟩ | ⟨-, rfl⟩ := step_pop hstep
      · exact absurd hinside hguard
      · exact fun horder => by cases horder.defined
  | drop h => exact absurd trivial hguard
  | clearTimeouted time => exact absurd trivial hguard

/-- `messages_` is in push order in every state of a run of `add`s and pairs of
`pop` and `push_front` exactly when no handler gives messages back in front of an
older one and every `pop` finds enough messages for its batch. -/
theorem inPushOrder_iff {maxSize : Nat} {actions : List (Action H)}
    (hpairs : Meets (system H maxSize) PopPushPairs (system H maxSize).init actions) :
    Throughout (system H maxSize) InPushOrder (system H maxSize).init actions ↔
      Meets (system H maxSize) GivesBackEldest (system H maxSize).init actions := by
  obtain ⟨t, hrun⟩ := exists_run maxSize (system H maxSize).init actions
  have hgood : ∀ (s : State H) a t, Ordered s → PopPushPairs s a → GivesBackEldest s a →
      step s a = some t → Ordered t :=
    fun _ _ _ hs hpairs hguard hstep => hs.step hpairs hguard hstep
  have hbad : ∀ (s : State H) a t, Ordered s → PopPushPairs s a → ¬ GivesBackEldest s a →
      step s a = some t → ¬ InPushOrder t :=
    fun _ _ _ hs hpairs hguard hstep => not_inPushOrder hs hpairs hguard hstep
  exact throughout_iff_meets (fun _ hs => hs.inPushOrder) hgood hbad (ordered_init maxSize) hrun
    hpairs

/-- Two handlers take a message each; the one that took its message later gives
it back first. -/
theorem inPushOrder_nested :
    Throughout (system Bool 10) InPushOrder (system Bool 10).init
      [.add [1] 5, .add [2] 6, .pop true 1, .pop false 1, .pushFront false [1],
        .pushFront true [0]] :=
  (inPushOrder_iff (by decide +kernel)).mpr (by decide +kernel)

/-- Two handlers take a message each and give it back in the order in which they
took it; the younger message is then in front of the older one. -/
theorem order_lost :
    Meets (system Bool 10) PopPushPairs (system Bool 10).init
        [.add [1] 5, .add [2] 6, .pop true 1, .pop false 1, .pushFront true [0],
          .pushFront false [1]] ∧
      ∃ s, (system Bool 10).run (system Bool 10).init
          [.add [1] 5, .add [2] 6, .pop true 1, .pop false 1, .pushFront true [0],
            .pushFront false [1]] = some s ∧
        s.queue.messages = [1, 0] ∧ s.queue.eldestTime s.holders = 6 ∧
        (s.holders.holder 0).pushTime = 5 ∧ ¬ InPushOrder s := by
  refine ⟨by decide +kernel, ?_⟩
  have hend : ((system Bool 10).run (system Bool 10).init
      [.add [1] 5, .add [2] 6, .pop true 1, .pop false 1, .pushFront true [0],
        .pushFront false [1]]).map (fun s =>
          (s.queue.messages, s.queue.eldestTime s.holders, (s.holders.holder 0).pushTime)) =
      some ([1, 0], 6, 5) := by
    decide +kernel
  obtain ⟨s, hrun, hvalues⟩ := Option.map_eq_some_iff.mp hend
  simp only [Prod.mk.injEq] at hvalues
  obtain ⟨hmessages, heldest, hpush⟩ := hvalues
  refine ⟨s, hrun, hmessages, heldest, hpush, fun horder => ?_⟩
  have hle := horder.eldest_le 0 (by simp [hmessages])
  rw [heldest, hpush] at hle
  exact absurd hle (by decide)

end QueueCalls
end LiteMQ
