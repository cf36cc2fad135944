import LiteMQ.Message.QueueCalls
import Mathlib.Data.UInt

/-!
# `message_count_` and the live messages

`message_count_` should be the number of live messages in `messages_`: `add`
counts one up, `clear_timeouted` counts one down for each that it expires.
`push_front` adds back the size of its batch, but `pop` never subtracted it, and
what `push_front` cuts off is expired without being counted down.

`KeepsCount` is the condition under which no call touches the difference; the
counter is then right throughout (`accounted_throughout`).
-/

namespace LiteMQ
namespace QueueCalls

open TransitionSystem

variable {H : Type*} [DecidableEq H]

/-- The number of messages in `messages_` whose `expired_` is `0`. -/
def liveCount (s : State H) : Nat := s.queue.messages.countP s.holders.live

/-- What the counter promises. -/
def Accounted (s : State H) : Prop :=
  s.defined = true ∧ s.queue.messageCount = liveCount s

instance (s : State H) : Decidable (Accounted s) := inferInstanceAs (Decidable (_ ∧ _))

/-- The loop of `pop` comes to place `i`: the messages before it, and each
shorter beginning, are together smaller than `send_size`. -/
def PopReaches (holders : Holders) (messages : List MessageId) (sendSize : UInt64)
    (i : Nat) : Prop :=
  ∀ j < i, ((messages.take (j + 1)).map fun m => (holders.holder m).plainSize).sum < sendSize

instance (holders : Holders) (messages : List MessageId) (sendSize : UInt64) (i : Nat) :
    Decidable (PopReaches holders messages sendSize i) :=
  inferInstanceAs (Decidable (∀ j < i, _))

/-- An admitted message finds room in the counter, `pop` finds enough messages for
its batch and reaches no live one, and `push_front` gives back live messages only
and cuts none off. -/
def KeepsCount (s : State H) : Action H → Prop
  | .add _ _ => s.queue.admits → s.queue.messageCount < 2 ^ 31 - 1
  | .addTimed _ _ _ _ => s.queue.admitsTimed → s.queue.messageCount < 2 ^ 31 - 1
  | .pop _ sendSize =>
      s.queue.PopsInside s.holders sendSize ∧
        ∀ i, (hi : i < s.queue.messages.length) →
          PopReaches s.holders s.queue.messages sendSize i →
            s.holders.live (s.queue.messages.get ⟨i, hi⟩) = false
  | .pushFront _ messages =>
      (∀ m ∈ messages, s.holders.live m) ∧
        (∀ m ∈ (messages ++ s.queue.messages).drop s.queue.maxSize, s.holders.live m = false) ∧
        s.queue.messageCount + messages.length < 2 ^ 31
  | .drop _ | .clearTimeouted _ => True

instance (s : State H) (a : Action H) : Decidable (KeepsCount s a) :=
  match a with
  | .add _ _ => inferInstanceAs (Decidable (_ → _))
  | .addTimed _ _ _ _ => inferInstanceAs (Decidable (_ → _))
  | .pop _ _ => inferInstanceAs (Decidable (_ ∧ ∀ i, (_ : i < _) → _))
  | .pushFront _ _ => inferInstanceAs (Decidable (_ ∧ _ ∧ _))
  | .drop _ | .clearTimeouted _ => inferInstanceAs (Decidable True)

/-! ## What `pop` takes -/

/-- Every message that the loop moves stands at a place that the sizes before it
let it reach. -/
theorem mem_popLoop {holders : Holders} {sendSize : UInt64} {curSize : UInt64} {it : Nat}
    {rest : List MessageId} {m : MessageId}
    (hm : m ∈ (MessageQueue.popLoop holders sendSize curSize it rest).2) :
    ∃ i, ∃ hi : i < rest.length, rest.get ⟨i, hi⟩ = m ∧ ∀ j < i,
      curSize + ((rest.take (j + 1)).map fun m => (holders.holder m).plainSize).sum < sendSize := by
  -- the size before the loop is that of the messages already moved
  induction rest generalizing curSize it with
  | nil => simp [MessageQueue.popLoop] at hm
  | cons m' rest ih =>
      have hfirst : m = m' → ∃ i, ∃ hi : i < (m' :: rest).length,
          (m' :: rest).get ⟨i, hi⟩ = m ∧ ∀ j < i, curSize +
            (((m' :: rest).take (j + 1)).map fun m => (holders.holder m).plainSize).sum <
              sendSize := by
        rintro rfl
        exact ⟨0, by simp, rfl, fun j hj => absurd hj (Nat.not_lt_zero j)⟩
      simp only [MessageQueue.popLoop] at hm
      split at hm
      · exact hfirst (List.mem_singleton.mp hm)
      · rename_i hmore
        rcases List.mem_cons.mp hm with hsame | hrest
        · exact hfirst hsame
        · obtain ⟨i, hi, hget, hbefore⟩ := ih hrest
          refine ⟨i + 1, by simpa using hi, by simpa using hget, fun j hj => ?_⟩
          cases j with
          | zero => simpa using hmore
          | succ j =>
              have hsum := hbefore j (by omega)
              simpa [UInt64.add_assoc] using hsum

/-- `pop` moves only messages that it reaches. -/
theorem popReaches_of_mem {queue : MessageQueue} {holders : Holders} {sendSize : UInt64}
    {m : MessageId} (hm : m ∈ (queue.pop holders [] sendSize).resultMessages) :
    ∃ i, ∃ hi : i < queue.messages.length, queue.messages.get ⟨i, hi⟩ = m ∧
      PopReaches holders queue.messages sendSize i := by
  obtain ⟨i, hi, hget, hbefore⟩ := mem_popLoop (show m ∈ (MessageQueue.popLoop holders
    sendSize 0 0 queue.messages).2 by simpa [MessageQueue.pop] using hm)
  refine ⟨i, hi, hget, fun j hj => ?_⟩
  simpa using hbefore j hj

/-! ## The invariant -/

/-- The messages of the entries of `timed_messages_`. -/
def timed (s : State H) : List MessageId := s.queue.timedMessages.map Prod.snd

/-- The counter is right, a live message that waits for its timeout is in
`messages_` exactly once, and what was popped is expired. -/
structure Settled (s : State H) : Prop where
  defined : s.defined = true
  accounted : s.queue.messageCount = liveCount s
  bounded : s.queue.messageCount < 2 ^ 31
  known : ∀ m, m ∈ s.queue.messages ∨ m ∈ timed s ∨ (∃ h, m ∈ s.batch h) → m < s.nextMessage
  nodup : (timed s).Nodup
  single : ∀ m ∈ timed s, s.holders.live m → s.queue.messages.count m = 1
  batch : ∀ h, ∀ m ∈ s.batch h, s.holders.live m = false

theorem settled_init (maxSize : Nat) : Settled (system H maxSize).init where
  defined := rfl
  accounted := rfl
  bounded := by simp [system, MessageQueue.initial]
  known := by simp [system, MessageQueue.initial, timed]
  nodup := List.nodup_nil
  single := fun m hm => absurd hm List.not_mem_nil
  batch := fun h m hm => absurd hm List.not_mem_nil

omit [DecidableEq H] in
/-- An admitted message is live, is new, and is counted. -/
theorem Settled.admitted {s t : State H} (hs : Settled s) {holder : MessageHolder}
    (hexpired : holder.expired = 0)
    (hmessages : t.queue.messages = s.queue.messages ++ [s.nextMessage])
    (hcount : t.queue.messageCount = s.queue.messageCount + 1)
    (hroom : s.queue.messageCount < 2 ^ 31 - 1)
    (hholders : t.holders = s.holders.construct s.nextMessage holder)
    (hnext : t.nextMessage = s.nextMessage + 1) (hbatch : t.batch = s.batch)
    (hdefined : t.defined = s.defined) (hnodup : (timed t).Nodup)
    (htimed : ∀ m ∈ timed t, m = s.nextMessage ∨ m ∈ timed s) :
    Settled t := by
  have hnew : t.holders.live s.nextMessage = true := by
    simp [hholders, Holders.live, hexpired]
  have hsame : ∀ m, m < s.nextMessage → t.holders.live m = s.holders.live m := by
    intro m hm
    rw [hholders, Holders.live, Holders.live,
      Holders.construct_of_ne _ _ (Nat.ne_of_lt hm)]
  have hold : ∀ m ∈ s.queue.messages, m < s.nextMessage := fun m hm => hs.known m (Or.inl hm)
  have hfresh : s.nextMessage ∉ s.queue.messages := fun hin => Nat.lt_irrefl _ (hold _ hin)
  have hlive : s.queue.messages.countP t.holders.live = liveCount s :=
    List.countP_congr fun m hm => by rw [hsame m (hold m hm)]
  have haccounted := hs.accounted
  constructor
  · exact hdefined.trans hs.defined
  · rw [liveCount, hmessages, hcount, List.countP_append, hlive, haccounted]
    simp [hnew]
  · omega
  · intro m hm
    rw [hmessages, hbatch] at hm
    rw [hnext]
    rcases hm with hin | hin | hin
    · rcases List.mem_append.mp hin with hin | hin
      · exact Nat.lt_succ_of_lt (hold m hin)
      · exact List.mem_singleton.mp hin ▸ Nat.lt_succ_self _
    · rcases htimed m hin with rfl | hin
      · exact Nat.lt_succ_self _
      · exact Nat.lt_succ_of_lt (hs.known m (Or.inr (Or.inl hin)))
    · exact Nat.lt_succ_of_lt (hs.known m (Or.inr (Or.inr hin)))
  · exact hnodup
  · intro m hm hmlive
    rw [hmessages, List.count_append]
    rcases htimed m hm with rfl | hin
    · rw [List.count_eq_zero_of_not_mem hfresh]
      simp
    · have hlt := hs.known m (Or.inr (Or.inl hin))
      rw [hsame m hlt] at hmlive
      rw [hs.single m hin hmlive]
      simp [(Nat.ne_of_lt hlt).symm]
  · intro h m hm
    rw [hbatch] at hm
    rw [hsame m (hs.known m (Or.inr (Or.inr ⟨h, hm⟩)))]
    exact hs.batch h m hm

omit [DecidableEq H] in
/-- A refused `add` leaves everything as it was, but for the identity it used. -/
theorem Settled.refused {s t : State H} (hs : Settled s) (hqueue : t.queue = s.queue)
    (hholders : t.holders = s.holders) (hbatch : t.batch = s.batch)
    (hdefined : t.defined = s.defined) (hnext : t.nextMessage = s.nextMessage + 1) :
    Settled t := by
  obtain ⟨hlanguage, haccounted, hbounded, hknown, hnodup, hsingle, hexpired⟩ := hs
  have htimed : timed t = timed s := by rw [timed, timed, hqueue]
  constructor
  · exact hdefined.trans hlanguage
  · rw [liveCount, hqueue, hholders]
    exact haccounted
  · rw [hqueue]
    exact hbounded
  · intro m hm
    rw [hqueue, hbatch, htimed] at hm
    rw [hnext]
    exact Nat.lt_succ_of_lt (hknown m hm)
  · rw [htimed]
    exact hnodup
  · rw [htimed, hqueue, hholders]
    exact hsingle
  · rw [hbatch, hholders]
    exact hexpired

/-- `pop` takes messages that are not counted any more. -/
theorem Settled.pop {s t : State H} (hs : Settled s) {h : H} {sendSize : UInt64}
    (hkeeps : KeepsCount s (.pop h sendSize)) (hstep : step s (.pop h sendSize) = some t) :
    Settled t := by
  obtain ⟨hinside, hexpired⟩ := hkeeps
  obtain ⟨-, rfl⟩ | ⟨houtside, -⟩ := step_pop hstep
  swap
  · exact absurd hinside houtside
  have happend := s.queue.pop_resultMessages_append s.holders sendSize
  have hmoved : ∀ m ∈ (s.queue.pop s.holders [] sendSize).resultMessages,
      s.holders.live m = false := by
    intro m hm
    obtain ⟨i, hi, rfl, hreaches⟩ := popReaches_of_mem hm
    exact hexpired i hi hreaches
  generalize (s.queue.pop s.holders [] sendSize).resultMessages = moved at happend hmoved
  rw [MessageQueue.pop_queue]
  generalize (s.queue.pop s.holders [] sendSize).queue.messages = rest at happend
  have hcount : ∀ m, s.queue.messages.count m = moved.count m + rest.count m := by
    intro m
    rw [← happend, List.count_append]
  constructor
  · exact hs.defined
  · have hzero : moved.countP s.holders.live = 0 := by
      rw [List.countP_eq_zero]
      intro m hm
      simp [hmoved m hm]
    have haccounted := hs.accounted
    simp only [liveCount] at haccounted ⊢
    rw [haccounted, ← happend, List.countP_append, hzero, Nat.zero_add]
  · exact hs.bounded
  · intro m hm
    refine hs.known m ?_
    rcases hm with hin | hin | ⟨h', hin⟩
    · exact Or.inl (happend ▸ List.mem_append_right moved hin)
    · exact Or.inr (Or.inl hin)
    · rcases eq_or_ne h' h with rfl | hne
      · simp only [Function.update_self, List.mem_append] at hin
        rcases hin with hin | hin
        · exact Or.inr (Or.inr ⟨h', hin⟩)
        · exact Or.inl (happend ▸ List.mem_append_left rest hin)
      · simp only [Function.update_of_ne hne] at hin
        exact Or.inr (Or.inr ⟨h', hin⟩)
  · exact hs.nodup
  · intro m hm hlive
    have habsent : m ∉ moved := by
      intro hin
      rw [hmoved m hin] at hlive
      cases hlive
    have hone := hs.single m hm hlive
    rw [hcount, List.count_eq_zero_of_not_mem habsent, Nat.zero_add] at hone
    exact hone
  · intro h' m hm
    rcases eq_or_ne h' h with rfl | hne
    · simp only [Function.update_self, List.mem_append] at hm
      rcases hm with hm | hm
      · exact hs.batch h' m hm
      · exact hmoved m hm
    · simp only [Function.update_of_ne hne] at hm
      exact hs.batch h' m hm

/-- `push_front` gives nothing back, and cuts off messages that are not counted
any more. -/
theorem Settled.pushFront {s t : State H} (hs : Settled s) {h : H} {messages : List MessageId}
    (hback : GivesBackPopped s (.pushFront h messages))
    (hkeeps : KeepsCount s (.pushFront h messages))
    (hstep : step s (.pushFront h messages) = some t) : Settled t := by
  obtain ⟨hlive, hcut, hroom⟩ := hkeeps
  -- what was popped is expired, and only live messages may come back
  obtain rfl : messages = [] := by
    refine List.eq_nil_iff_forall_not_mem.mpr fun m hm => ?_
    have hexpired := hs.batch h m (hback.subset hm)
    rw [hlive m hm] at hexpired
    cases hexpired
  obtain rfl := Option.some.inj hstep
  have hsame : ∀ m, (s.holders.expireAll (s.queue.messages.drop s.queue.maxSize)).live m =
      s.holders.live m := by
    intro m
    rw [Bool.eq_iff_iff, Holders.live_expireAll]
    refine and_iff_left_of_imp fun hmlive hin => ?_
    rw [hcut m hin] at hmlive
    cases hmlive
  have hcount : s.queue.messages.countP s.holders.live =
      (s.queue.messages.take s.queue.maxSize).countP s.holders.live := by
    have hzero : (s.queue.messages.drop s.queue.maxSize).countP s.holders.live = 0 := by
      rw [List.countP_eq_zero]
      intro m hm
      simp [hcut m hm]
    conv_lhs => rw [← List.take_append_drop s.queue.maxSize s.queue.messages]
    rw [List.countP_append, hzero, Nat.add_zero]
  have hbatch : Function.update s.batch h ((s.batch h).diff []) = s.batch := by
    rw [List.diff_nil, Function.update_eq_self]
  have hnonneg : 0 ≤ s.queue.messageCount := by
    rw [hs.accounted]
    exact Int.natCast_nonneg _
  have hbounded := hs.bounded
  have hmessageCount : asInt (s.queue.messageCount + ([] : List MessageId).length) =
      s.queue.messageCount := by
    rw [List.length_nil, asInt_eq]
    omega
  simp only [MessageQueue.pushFront, List.nil_append, hbatch, hmessageCount]
  constructor
  · exact hs.defined
  · have haccounted := hs.accounted
    simp only [liveCount] at haccounted ⊢
    rw [haccounted, hcount]
    exact congrArg Nat.cast (List.countP_congr fun m _ => by rw [hsame])
  · exact hs.bounded
  · intro m hm
    refine hs.known m ?_
    rcases hm with hin | hin
    · exact Or.inl (List.mem_of_mem_take hin)
    · exact Or.inr hin
  · exact hs.nodup
  · intro m hm hmlive
    rw [hsame] at hmlive
    have habsent : m ∉ s.queue.messages.drop s.queue.maxSize := by
      intro hin
      rw [hcut m hin] at hmlive
      cases hmlive
    have hone := hs.single m hm hmlive
    rw [← List.take_append_drop s.queue.maxSize s.queue.messages, List.count_append,
      List.count_eq_zero_of_not_mem habsent] at hone
    exact hone
  · intro h' m hm
    rw [hsame]
    exact hs.batch h' m hm

omit [DecidableEq H] in
/-- The live messages are those that `clear_timeouted` leaves live and those that
it expires. -/
theorem Settled.liveCount_timeouted {s : State H} (hs : Settled s) (time : Time) :
    liveCount s =
      s.queue.messages.countP (s.holders.expireAll (s.queue.timeouted time)).live +
        (s.queue.timeouted time).countP s.holders.live := by
  have happend : s.queue.timeouted time ++ (s.queue.clearTimeouted s.holders
      time).1.timedMessages.map Prod.snd = timed s := s.queue.timeouted_append s.holders time
  have hnodup : (s.queue.timeouted time).Nodup :=
    hs.nodup.sublist (happend ▸ List.sublist_append_left ..)
  -- a live message with an entry is in `messages_` once, and has one entry
  have hperm : ((s.queue.messages.filter s.holders.live).filter
      (· ∈ s.queue.timeouted time)).Perm ((s.queue.timeouted time).filter s.holders.live) := by
    refine List.perm_iff_count.mpr fun m => ?_
    by_cases hlive : s.holders.live m
    · by_cases hin : m ∈ s.queue.timeouted time
      · have htimed : m ∈ timed s := happend ▸ List.mem_append_left _ hin
        rw [List.count_filter (by simpa using hin), List.count_filter hlive,
          List.count_filter hlive, hs.single m htimed hlive,
          hnodup.count, if_pos hin]
      · rw [List.count_eq_zero_of_not_mem (by simp [hin]),
          List.count_eq_zero_of_not_mem (by simp [hin])]
    · rw [List.count_eq_zero_of_not_mem (by simp [hlive]),
        List.count_eq_zero_of_not_mem (by simp [hlive])]
  have hexpired : (s.queue.messages.filter s.holders.live).countP
      (· ∈ s.queue.timeouted time) = (s.queue.timeouted time).countP s.holders.live := by
    rw [List.countP_eq_length_filter, List.countP_eq_length_filter, hperm.length_eq]
  have hrest : (s.queue.messages.filter s.holders.live).countP
      (fun m => ¬ (m ∈ s.queue.timeouted time)) =
        s.queue.messages.countP (s.holders.expireAll (s.queue.timeouted time)).live := by
    rw [List.countP_filter]
    refine List.countP_congr fun m _ => ?_
    rw [Holders.live_expireAll]
    simp [and_comm]
  have hparts := List.length_eq_countP_add_countP (l := s.queue.messages.filter s.holders.live)
    (fun m => decide (m ∈ s.queue.timeouted time))
  simp only [decide_eq_true_eq] at hparts
  rw [liveCount, List.countP_eq_length_filter, hparts, hrest, hexpired, Nat.add_comm]

/-- `clear_timeouted` counts down exactly the live messages that it expires. -/
theorem Settled.clearTimeouted {s t : State H} (hs : Settled s) {time : Time}
    (hstep : step s (.clearTimeouted time) = some t) : Settled t := by
  obtain rfl := Option.some.inj hstep
  have happend : s.queue.timeouted time ++ (s.queue.clearTimeouted s.holders
      time).1.timedMessages.map Prod.snd = timed s := s.queue.timeouted_append s.holders time
  have hids := hs.nodup
  rw [← happend] at hids
  have hsplit := hs.liveCount_timeouted time
  have haccounted : s.queue.messageCount = liveCount s := hs.accounted
  have hcount := s.queue.clearTimeouted_messageCount s.holders time
    (hids.sublist (List.sublist_append_left ..)) (by omega) hs.bounded
  have hmessages := s.queue.clearTimeouted_messages s.holders time
  have hholders := s.queue.clearTimeouted_holders s.holders time
  have hbefore : ∀ m, (s.queue.clearTimeouted s.holders time).2.live m = true →
      s.holders.live m = true := by
    intro m hlive
    rw [hholders, Holders.live_expireAll] at hlive
    exact hlive.1
  constructor
  · exact hs.defined
  · rw [haccounted, hsplit] at hcount
    rw [liveCount]
    simp only [hmessages, hcount, hholders]
    omega
  · have hbounded := hs.bounded
    rw [hcount]
    omega
  · intro m hm
    refine hs.known m ?_
    simp only [hmessages, timed] at hm
    rcases hm with hin | hin | hin
    · exact Or.inl hin
    · exact Or.inr (Or.inl (happend ▸ List.mem_append_right _ hin))
    · exact Or.inr (Or.inr hin)
  · exact hids.sublist (List.sublist_append_right ..)
  · intro m hm hlive
    rw [hmessages]
    exact hs.single m (happend ▸ List.mem_append_right _ hm) (hbefore m hlive)
  · intro h m hm
    have hexpired := hs.batch h m hm
    by_contra hlive
    rw [hbefore m (by simpa using hlive)] at hexpired
    cases hexpired

/-- Every call that meets the condition keeps the invariant. -/
theorem Settled.step {s t : State H} {a : Action H} (hs : Settled s)
    (hback : GivesBackPopped s a) (hkeeps : KeepsCount s a)
    (hstep : QueueCalls.step s a = some t) : Settled t := by
  have hnonneg : 0 ≤ s.queue.messageCount := by
    rw [hs.accounted]
    exact Int.natCast_nonneg _
  have hbounded := hs.bounded
  have hfresh : s.nextMessage ∉ timed s := fun hin =>
    Nat.lt_irrefl _ (hs.known _ (Or.inr (Or.inl hin)))
  have hup : s.queue.messageCount < 2 ^ 31 - 1 →
      asInt (s.queue.messageCount + 1) = s.queue.messageCount + 1 := fun hroom => by
    rw [asInt_eq]
    omega
  cases a with
  | add data now =>
      obtain rfl := Option.some.inj hstep
      by_cases hadmits : s.queue.admits
      · have hroom := hkeeps hadmits
        simp only [MessageQueue.add, if_pos hadmits]
        exact hs.admitted rfl rfl (hup hroom) hroom rfl rfl rfl rfl hs.nodup
          fun m hm => Or.inr hm
      · simp only [MessageQueue.add, if_neg hadmits]
        exact hs.refused (s.queue.countDown_countUp (by omega) hbounded) rfl rfl rfl rfl
  | addTimed data now timeout requestId =>
      obtain rfl := Option.some.inj hstep
      by_cases hadmits : s.queue.admitsTimed
      · have hroom := hkeeps hadmits
        have hperm := ((s.queue.countUp.pushBack s.nextMessage).insertTimed_perm s.nextMessage
          timeout).map Prod.snd
        simp only [MessageQueue.addTimed, if_pos hadmits]
        refine hs.admitted rfl rfl (hup hroom) hroom rfl rfl rfl rfl ?_ fun m hm => ?_
        · exact hperm.nodup_iff.mpr (List.nodup_cons.mpr ⟨hfresh, hs.nodup⟩)
        · exact List.mem_cons.mp (hperm.mem_iff.mp hm)
      · simp only [MessageQueue.addTimed, if_neg hadmits]
        exact hs.refused (s.queue.countDown_countUp (by omega) hbounded) rfl rfl rfl rfl
  | pop h sendSize => exact hs.pop hkeeps hstep
  | pushFront h messages => exact hs.pushFront hback hkeeps hstep
  | drop h =>
      obtain rfl := Option.some.inj hstep
      obtain ⟨hdefined, haccounted, hbounded, hknown, hnodup, hsingle, hbatch⟩ := hs
      have hsub : ∀ h', ∀ m ∈ Function.update s.batch h [] h', m ∈ s.batch h' := by
        intro h' m hm
        rcases eq_or_ne h' h with rfl | hne
        · simp at hm
        · rwa [Function.update_of_ne hne] at hm
      refine ⟨hdefined, haccounted, hbounded, fun m hm => hknown m ?_, hnodup, hsingle,
        fun h' m hm => hbatch h' m (hsub h' m hm)⟩
      exact hm.imp_right (Or.imp_right (Exists.imp fun h' hin => hsub h' m hin))
  | clearTimeouted time => exact hs.clearTimeouted hstep

/-- In every run of calls that give back what they popped, in which no call meets
the counter where it drifts, `message_count_` is the number of live messages in
`messages_` in every state. -/
theorem accounted_throughout {maxSize : Nat} {actions : List (Action H)}
    (hback : Meets (system H maxSize) GivesBackPopped (system H maxSize).init actions)
    (hkeeps : Meets (system H maxSize) KeepsCount (system H maxSize).init actions) :
    Throughout (system H maxSize) Accounted (system H maxSize).init actions :=
  throughout_of_meets (fun _ hs => ⟨hs.defined, hs.accounted⟩)
    (fun _ _ _ hs hback hkeeps hstep => hs.step hback hkeeps hstep) (settled_init maxSize)
    hback hkeeps

/-- A timed message expires, `pop` takes it, and the live message stays counted. -/
theorem accounted_expired_popped :
    Throughout (system Unit 10) Accounted (system Unit 10).init
      [.addTimed [2] 5 7 1, .add [1] 6, .clearTimeouted 7, .pop () 5, .pushFront () []] :=
  accounted_throughout (by decide +kernel) (by decide +kernel)

/-- A message is popped and given back, and is counted twice from then on. -/
theorem message_counted_twice :
    Meets (system Unit 10) GivesBackPopped (system Unit 10).init
        [.add [1] 5, .pop () 5, .pushFront () [0]] ∧
      ∃ s, (system Unit 10).run (system Unit 10).init
          [.add [1] 5, .pop () 5, .pushFront () [0]] = some s ∧
        s.queue.messages = [0] ∧ s.queue.messageCount = 2 ∧ liveCount s = 1 ∧
        ¬ Accounted s := by
  refine ⟨by decide +kernel, ?_⟩
  have hend : ((system Unit 10).run (system Unit 10).init
      [.add [1] 5, .pop () 5, .pushFront () [0]]).map (fun s =>
        (s.queue.messages, s.queue.messageCount, liveCount s)) = some ([0], 2, 1) := by
    decide +kernel
  obtain ⟨s, hrun, hvalues⟩ := Option.map_eq_some_iff.mp hend
  simp only [Prod.mk.injEq] at hvalues
  obtain ⟨hmessages, hcount, hlive⟩ := hvalues
  refine ⟨s, hrun, hmessages, hcount, hlive, fun haccounted => ?_⟩
  rw [Accounted, hcount, hlive] at haccounted
  exact absurd haccounted.2 (by decide)

end QueueCalls
end LiteMQ
