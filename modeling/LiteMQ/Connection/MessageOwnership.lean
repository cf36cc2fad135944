import LiteMQ.Connection.SharedQueue
import LiteMQ.Foundation.Ledger

/-!
# Where a sent message is

A message for which `send()` returned `true` should be in exactly one place: in
`messages_`, with one handler, handed to one socket, or expired.

`occurrences_write` and `occurrences_call` follow one message through every step:
it moves from the queue to a handler when it is popped, and it is removed when
its batch goes out of scope after a `fill_send_messages_` that filled nothing.  A
message that `add` refused is in no place from the beginning, because `send()` does not look
at the result of `add`.  `noneLost_iff_keepsMessages` says that these are the
only ways to lose one in the language; a handler leaves it when it fills an
expired message or pops too few messages for a batch.
-/

namespace LiteMQ

open SendDescriptorHandler

/-- The messages that a handler still has to send: those of its batch and the
one in `partly_sent_message_`. -/
def SendDescriptorHandler.Writer.holds (writer : Writer) : List MessageId :=
  (writer.pc.resultMessages ++ writer.handler.partlySentMessage.toList).filter
    (· ∉ writer.handed)

namespace SharedQueue

open TransitionSystem Ledger

variable {H : Type*} [DecidableEq H]

/-- The places where a message can be. -/
inductive Place (H : Type*)
  | queue
  | handler (h : H)
  | socket (h : H)
  | expired
  deriving DecidableEq

/-- How often a message occurs in each place. -/
def occurrences (s : State H) (m : MessageId) : Place H → Nat
  | .queue => s.queue.messages.count m
  | .handler h => (s.writers h).holds.count m
  | .socket h => (s.writers h).handed.count m
  | .expired => s.holders.callbacks.count m

/-- No handler has left the language, and every message for which `send()`
returned `true` is in exactly one place. -/
def NoneLost (s : State H) : Prop :=
  Defined s ∧ ∀ m ∈ s.sendReturned, InOnePlace (occurrences s m)

/-- Every message of `send()` is admitted, no batch that is filled next holds
one, and the handlers stay in the language. -/
def KeepsMessages (s : State H) : Action H → Prop
  | .send _ _ => s.queue.admits
  | .write h _ => StaysDefined s h ∧ ∀ m ∈ filling s h, m ∉ s.sendReturned
  | _ => True

instance (s : State H) (a : Action H) : Decidable (KeepsMessages s a) :=
  match a with
  | .send _ _ => inferInstanceAs (Decidable (s.queue.admits = true))
  | .write h _ => inferInstanceAs (Decidable (StaysDefined s h ∧ ∀ m ∈ filling s h, _))
  | .addTimed _ _ _ _ | .clearTimeouted _ => inferInstanceAs (Decidable True)

/-- The messages of the entries of `timed_messages_`. -/
def timed (s : State H) : List MessageId := s.queue.timedMessages.map Prod.snd

/-! ## One message through one step -/

omit [DecidableEq H] in
theorem holds_of_quiet {s : State H} (hs : Quiet s) (h : H) :
    (s.writers h).holds = (s.writers h).pc.resultMessages := by
  simp [Writer.holds, (hs h).partly, (hs h).handed]

omit [DecidableEq H] in
/-- The occurrences after a step that leaves all handlers but `h` alone. -/
theorem occurrences_congr {s t : State H} {h : H} {m : MessageId}
    (hs : Quiet s) (ht : Quiet t) (hother : ∀ h', h' ≠ h → t.writers h' = s.writers h')
    (hcallbacks : t.holders.callbacks.count m = s.holders.callbacks.count m)
    (p : Place H) (hqueue : p ≠ .queue) (hhandler : p ≠ .handler h) :
    occurrences t m p = occurrences s m p := by
  cases p with
  | queue => exact absurd rfl hqueue
  | handler h' =>
      have hne : h' ≠ h := by
        rintro rfl
        exact hhandler rfl
      simp [occurrences, hother h' hne]
  | socket h' => simp [occurrences, (hs h').handed, (ht h').handed]
  | expired => exact hcallbacks

/-- `fill_send_messages_` is the end of the batch: either nothing was filled and
`result_messages` goes out of scope, or the handler has left the language. -/
theorem occurrences_filling {order : ByteOrder} {s t : State H} {h : H} {outcome : SendOutcome}
    (hs : Quiet s) (hstep : step order s (.write h outcome) = some t)
    {messages : List MessageId} (hpc : (s.writers h).pc = .popped messages) (m : MessageId) :
    Removed (occurrences s m) (occurrences t m) (.handler h) ∧
      occurrences s m (.handler h) = (filling s h).count m := by
  have ht : Quiet t := hs.step hstep
  obtain ⟨result, hresult, hwrote⟩ := step_write hstep
  have hended : result.queue = s.queue ∧ result.holders = s.holders ∧
      result.writer.pc.resultMessages = [] := by
    cases ((hs h).writeStep hresult).1 with
    | enter hpc' handler => simp [hpc] at hpc'
    | pop hpc' hinside => simp [hpc] at hpc'
    | popFault hpc' houtside => simp [hpc] at hpc'
    | dropBatch messages' hpc' hlive handler => exact ⟨rfl, rfl, rfl⟩
    | fault messages' hpc' hexpired => exact ⟨rfl, rfl, rfl⟩
  obtain ⟨hqueue, hholders, hbatch⟩ := hended
  refine ⟨⟨?_, fun p hp => ?_⟩, ?_⟩
  · rw [occurrences, holds_of_quiet ht, hwrote.self, hbatch, List.count_nil]
  · by_cases hp' : p = .queue
    · rw [hp', occurrences, occurrences, hwrote.queue, hqueue]
    · exact occurrences_congr hs ht hwrote.other (by rw [hwrote.holders, hholders]) p hp' hp
  · simp [occurrences, holds_of_quiet hs, filling, hpc, WritePc.resultMessages]

/-- An operation of a handler leaves a message where it is, moves it from the
queue to the batch, or removes it from the batch that is filled. -/
theorem occurrences_write {order : ByteOrder} {s t : State H} {h : H} {outcome : SendOutcome}
    (hs : Quiet s) (hstep : step order s (.write h outcome) = some t) (m : MessageId) :
    occurrences t m = occurrences s m ∨
      Moved (occurrences s m) (occurrences t m) .queue (.handler h) ∨
      (Removed (occurrences s m) (occurrences t m) (.handler h) ∧
        occurrences s m (.handler h) = (filling s h).count m) := by
  have ht : Quiet t := hs.step hstep
  obtain ⟨result, hresult, hwrote⟩ := step_write hstep
  have hbefore : occurrences s m (.handler h) = (s.writers h).pc.resultMessages.count m := by
    rw [occurrences, holds_of_quiet hs]
  have hafter : occurrences t m (.handler h) = result.writer.pc.resultMessages.count m := by
    rw [occurrences, holds_of_quiet ht, hwrote.self]
  have hrest : result.holders = s.holders → ∀ p, p ≠ .queue → p ≠ .handler h →
      occurrences t m p = occurrences s m p := fun hholders p hqueue hhandler =>
    occurrences_congr hs ht hwrote.other (by rw [hwrote.holders, hholders]) p hqueue hhandler
  have hkept : result.queue = s.queue → result.holders = s.holders →
      result.writer.pc.resultMessages = (s.writers h).pc.resultMessages →
      occurrences t m = occurrences s m := by
    intro hqueue hholders hbatch
    funext p
    by_cases hp : p = .queue
    · rw [hp, occurrences, occurrences, hwrote.queue, hqueue]
    · by_cases hp' : p = .handler h
      · rw [hp', hbefore, hafter, hbatch]
      · exact hrest hholders p hp hp'
  cases ((hs h).writeStep hresult).1 with
  | enter hpc handler => exact Or.inl (hkept rfl rfl (by simp [hpc, WritePc.resultMessages]))
  | popFault hpc houtside =>
      exact Or.inl (hkept rfl rfl (by simp [hpc, WritePc.resultMessages]))
  | dropBatch messages hpc hlive handler =>
      exact Or.inr (Or.inr (occurrences_filling hs hstep hpc m))
  | fault messages hpc hexpired =>
      exact Or.inr (Or.inr (occurrences_filling hs hstep hpc m))
  | pop hpc hinside =>
      -- the batch was empty, and gets what the front of the queue loses
      refine Or.inr (Or.inl ⟨?_, hrest rfl⟩)
      have happend := MessageQueue.pop_resultMessages_append s.queue s.holders 16000
      have hcount : s.queue.messages.count m =
          (s.queue.pop s.holders [] 16000).resultMessages.count m +
            (s.queue.pop s.holders [] 16000).queue.messages.count m := by
        rw [← List.count_append, happend]
      rw [hbefore, hafter, occurrences, occurrences, hwrote.queue, hpc, hcount]
      simp only [WritePc.resultMessages, List.count_nil]
      omega

/-- A call on the queue leaves a message where it is, unless the call is the one
that puts it there or its time is over. -/
theorem occurrences_call {order : ByteOrder} {s t : State H} {a : Action H}
    (hstep : step order s a = some t) (hcall : ∀ h outcome, a ≠ .write h outcome) {m : MessageId}
    (hm : m < s.nextMessage ∨ t.nextMessage ≤ m) (htimed : m ∉ timed s) :
    occurrences t m = occurrences s m := by
  have hwriters : t.writers = s.writers := by
    rcases writers_of_step hstep with hsame | ⟨h, outcome, hwrite⟩
    · exact hsame
    · exact absurd hwrite (hcall h outcome)
  have hcounts : t.queue.messages.count m = s.queue.messages.count m ∧
      t.holders.callbacks.count m = s.holders.callbacks.count m := by
    -- a message that the call creates is another one
    have hne : s.nextMessage < t.nextMessage → s.nextMessage ≠ m := by
      rintro hnew rfl
      rcases hm with hlt | hle
      · exact Nat.lt_irrefl _ hlt
      · exact Nat.lt_irrefl _ (Nat.lt_of_lt_of_le hnew hle)
    cases a with
    | send data now =>
        have hcalled := step_send hstep
        rw [hcalled.nextMessage] at hne
        rw [hcalled.queue, hcalled.holders, MessageQueue.add_messages, List.count_append,
          MessageQueue.add_callbacks]
        split <;> simp [hne (Nat.lt_succ_self _)]
    | addTimed data now timeout requestId =>
        have hcalled := step_addTimed hstep
        rw [hcalled.nextMessage] at hne
        rw [hcalled.queue, hcalled.holders, MessageQueue.addTimed_messages, List.count_append,
          MessageQueue.addTimed_callbacks]
        split <;> simp [hne (Nat.lt_succ_self _)]
    | clearTimeouted time =>
        have hcalled := step_clearTimeouted hstep
        rw [hcalled.queue, hcalled.holders, MessageQueue.clearTimeouted_messages]
        exact ⟨rfl, MessageQueue.count_callbacks_clearTimeouted _ _ _ htimed⟩
    | write h outcome => exact absurd rfl (hcall h outcome)
  funext p
  cases p with
  | queue => exact hcounts.1
  | handler h => simp [occurrences, hwriters]
  | socket h => simp [occurrences, hwriters]
  | expired => exact hcounts.2

/-! ## Messages in a run -/

/-- A message that is nowhere stays nowhere. -/
theorem nowhere_step {order : ByteOrder} {s t : State H} {a : Action H} (hs : Quiet s)
    (hstep : step order s a = some t) {m : MessageId}
    (hm : m < s.nextMessage ∨ t.nextMessage ≤ m) (htimed : m ∉ timed s)
    (hnowhere : Nowhere (occurrences s m)) : Nowhere (occurrences t m) := by
  by_cases hwrite : ∃ h outcome, a = .write h outcome
  · obtain ⟨h, outcome, rfl⟩ := hwrite
    rcases occurrences_write hs hstep m with hsame | hmoved | ⟨hremoved, -⟩
    · exact hsame ▸ hnowhere
    · exact hmoved.nowhere hnowhere
    · exact hremoved.nowhere hnowhere
  · simp only [not_exists] at hwrite
    rw [occurrences_call hstep hwrite hm htimed]
    exact hnowhere

/-- Only the timed `add` makes an entry of `timed_messages_`, for a new message. -/
theorem timed_step {order : ByteOrder} {s t : State H} {a : Action H} (hs : Quiet s)
    (hstep : step order s a = some t) {m : MessageId} (hm : m ∈ timed t) :
    m ∈ timed s ∨ m = s.nextMessage ∧ t.nextMessage = s.nextMessage + 1 ∧
      t.sendReturned = s.sendReturned := by
  cases a with
  | send data now =>
      rw [timed, (step_send hstep).queue, MessageQueue.add_timedMessages] at hm
      exact Or.inl hm
  | addTimed data now timeout requestId =>
      have hcalled := step_addTimed hstep
      rw [timed, hcalled.queue] at hm
      obtain ⟨entry, hentry, rfl⟩ := List.mem_map.mp hm
      rcases MessageQueue.mem_addTimed_timedMessages _ _ _ _ _ _ _ hentry with rfl | hold
      · exact Or.inr ⟨rfl, hcalled.nextMessage, by rw [hcalled.sendReturned, List.append_nil]⟩
      · exact Or.inl (List.mem_map.mpr ⟨entry, hold, rfl⟩)
  | clearTimeouted time =>
      rw [timed, (step_clearTimeouted hstep).queue,
        MessageQueue.clearTimeouted_timedMessages] at hm
      obtain ⟨entry, hentry, rfl⟩ := List.mem_map.mp hm
      exact Or.inl (List.mem_map.mpr ⟨entry, (List.dropWhile_sublist _).subset hentry, rfl⟩)
  | write h outcome =>
      obtain ⟨result, hresult, hwrote⟩ := step_write hstep
      rw [timed, hwrote.queue] at hm
      cases ((hs h).writeStep hresult).1 <;> exact Or.inl hm

/-- What every run keeps: new messages are nowhere yet, and those of `send()`
have no entry in `timed_messages_`. -/
structure Tracked (s : State H) : Prop where
  quiet : Quiet s
  fresh : ∀ m, s.nextMessage ≤ m →
    Nowhere (occurrences s m) ∧ m ∉ timed s ∧ m ∉ s.sendReturned
  untimed : ∀ m ∈ s.sendReturned, m ∉ timed s

omit [DecidableEq H] in
theorem Tracked.lt_nextMessage {s : State H} (hs : Tracked s) {m : MessageId}
    (hm : m ∈ s.sendReturned) : m < s.nextMessage := by
  by_contra hlt
  exact (hs.fresh m (Nat.le_of_not_lt hlt)).2.2 hm

theorem tracked_init (order : ByteOrder) (maxSize : Nat) (messageCount : Int)
    (connected : H → Bool) : Tracked (system order maxSize messageCount connected).init where
  quiet := quiet_init order maxSize messageCount connected
  fresh := by
    intro m _
    refine ⟨?_, List.not_mem_nil, List.not_mem_nil⟩
    intro p
    cases p <;> rfl
  untimed := fun m hm => absurd hm List.not_mem_nil

/-- A step creates at most one message, and `send()` returns for that one only. -/
theorem nextMessage_step {order : ByteOrder} {s t : State H} {a : Action H}
    (hstep : step order s a = some t) :
    (t.nextMessage = s.nextMessage ∧ t.sendReturned = s.sendReturned) ∨
      (t.nextMessage = s.nextMessage + 1 ∧ t.sendReturned = s.sendReturned) ∨
      ((∃ data now, a = .send data now) ∧ t.nextMessage = s.nextMessage + 1 ∧
        t.sendReturned = s.sendReturned ++ [s.nextMessage]) := by
  cases a with
  | send data now =>
      have hcalled := step_send hstep
      exact Or.inr (Or.inr ⟨⟨data, now, rfl⟩, hcalled.nextMessage, hcalled.sendReturned⟩)
  | addTimed data now timeout requestId =>
      have hcalled := step_addTimed hstep
      exact Or.inr (Or.inl ⟨hcalled.nextMessage, by rw [hcalled.sendReturned, List.append_nil]⟩)
  | clearTimeouted time =>
      have hcalled := step_clearTimeouted hstep
      exact Or.inl ⟨hcalled.nextMessage, by rw [hcalled.sendReturned, List.append_nil]⟩
  | write h outcome =>
      obtain ⟨result, -, hwrote⟩ := step_write hstep
      exact Or.inl ⟨hwrote.nextMessage, hwrote.sendReturned⟩

theorem Tracked.step {order : ByteOrder} {s t : State H} {a : Action H} (hs : Tracked s)
    (hstep : SharedQueue.step order s a = some t) : Tracked t where
  quiet := hs.quiet.step hstep
  fresh := by
    intro m hm
    have hnext := nextMessage_step hstep
    have hle : s.nextMessage ≤ m := by
      rcases hnext with ⟨h, -⟩ | ⟨h, -⟩ | ⟨-, h, -⟩
      · exact h ▸ hm
      · rw [h] at hm
        exact Nat.le_of_succ_le hm
      · rw [h] at hm
        exact Nat.le_of_succ_le hm
    obtain ⟨hnowhere, htimed, hreturned⟩ := hs.fresh m hle
    have hnew : t.nextMessage = s.nextMessage + 1 → m ≠ s.nextMessage := by
      rintro h rfl
      exact Nat.not_succ_le_self _ (h ▸ hm)
    refine ⟨nowhere_step hs.quiet hstep (Or.inr hm) htimed hnowhere, ?_, ?_⟩
    · intro hin
      rcases timed_step hs.quiet hstep hin with hold | ⟨heq, hcreated, -⟩
      · exact htimed hold
      · exact hnew hcreated heq
    · rcases hnext with ⟨-, h⟩ | ⟨-, h⟩ | ⟨-, hcreated, h⟩
      · exact h ▸ hreturned
      · exact h ▸ hreturned
      · rw [h, List.mem_append, List.mem_singleton]
        rintro (hold | heq)
        · exact hreturned hold
        · exact hnew hcreated heq
  untimed := by
    intro m hm hin
    rcases nextMessage_step hstep with ⟨hnext, h⟩ | ⟨-, h⟩ | ⟨⟨data, now, rfl⟩, -, h⟩
    · rw [h] at hm
      rcases timed_step hs.quiet hstep hin with hold | ⟨-, hcreated, -⟩
      · exact hs.untimed m hm hold
      · exact Nat.succ_ne_self _ (hcreated.symm.trans hnext)
    · rw [h] at hm
      rcases timed_step hs.quiet hstep hin with hold | ⟨rfl, -, -⟩
      · exact hs.untimed m hm hold
      · exact Nat.lt_irrefl _ (hs.lt_nextMessage hm)
    · rcases timed_step hs.quiet hstep hin with hold | ⟨-, -, hsame⟩
      · rw [h, List.mem_append, List.mem_singleton] at hm
        rcases hm with hm | rfl
        · exact hs.untimed m hm hold
        · exact (hs.fresh _ (Nat.le_refl _)).2.1 hold
      · rw [h] at hsame
        exact absurd hsame (by simp)

/-! ## Losing a message -/

/-- A guarded step keeps every message of `send()` in one place. -/
theorem noneLost_of_keepsMessages {order : ByteOrder} {s t : State H} {a : Action H}
    (hs : Tracked s) (hlost : NoneLost s) (hkeeps : KeepsMessages s a)
    (hstep : step order s a = some t) : NoneLost t := by
  obtain ⟨hdefined, hplaces⟩ := hlost
  by_cases hwrite : ∃ h outcome, a = .write h outcome
  · obtain ⟨h, outcome, rfl⟩ := hwrite
    obtain ⟨result, -, hwrote⟩ := step_write hstep
    obtain ⟨hstays, habsent⟩ := hkeeps
    refine ⟨(defined_step_iff hs.quiet hdefined hstep).mpr hstays, ?_⟩
    intro m hm
    rw [hwrote.sendReturned] at hm
    rcases occurrences_write hs.quiet hstep m with hsame | hmoved | ⟨hremoved, hcount⟩
    · exact hsame ▸ hplaces m hm
    · exact hmoved.inOnePlace (fun h => by cases h) (hplaces m hm)
    · -- what is removed from a batch is in it, and the guard allows no message of `send()` there
      rw [List.count_eq_zero_of_not_mem fun hin => habsent m hin hm] at hcount
      exact hremoved.eq_of_eq_zero hcount ▸ hplaces m hm
  · simp only [not_exists] at hwrite
    have hwriters : t.writers = s.writers := by
      rcases writers_of_step hstep with hsame | ⟨h, outcome, rfl⟩
      · exact hsame
      · exact absurd rfl (hwrite h outcome)
    refine ⟨by rw [Defined, hwriters]; exact hdefined, ?_⟩
    have hold : ∀ m ∈ s.sendReturned, InOnePlace (occurrences t m) := by
      intro m hm
      rw [occurrences_call hstep hwrite (Or.inl (hs.lt_nextMessage hm)) (hs.untimed m hm)]
      exact hplaces m hm
    rcases nextMessage_step hstep with ⟨-, h⟩ | ⟨-, h⟩ | ⟨⟨data, now, rfl⟩, -, h⟩
    · exact h ▸ hold
    · exact h ▸ hold
    · -- the new message is in the queue, and was nowhere before
      intro m hm
      rw [h, List.mem_append, List.mem_singleton] at hm
      rcases hm with hm | rfl
      · exact hold m hm
      · have hnowhere := (hs.fresh _ (Nat.le_refl _)).1
        have hcalled := step_send hstep
        have hadmits : s.queue.admits = true := hkeeps
        refine ⟨.queue, ?_, fun p hp => ?_⟩
        · have hzero : s.queue.messages.count s.nextMessage = 0 := hnowhere .queue
          simp [occurrences, hcalled.queue, MessageQueue.add_messages, hadmits, hzero]
        · rw [← hnowhere p]
          cases p with
          | queue => exact absurd rfl hp
          | handler h => simp [occurrences, hwriters]
          | socket h => simp [occurrences, hwriters]
          | expired => simp [occurrences, hcalled.holders, MessageQueue.add_callbacks]

/-- A message of `send()` is nowhere. -/
def Lost (s : State H) : Prop :=
  ¬ Defined s ∨ Tracked s ∧ ∃ m ∈ s.sendReturned, Nowhere (occurrences s m)

/-- A step that breaks the guard loses a message. -/
theorem lost_of_not_keepsMessages {order : ByteOrder} {s t : State H} {a : Action H}
    (hs : Tracked s) (hlost : NoneLost s) (hkeeps : ¬ KeepsMessages s a)
    (hstep : step order s a = some t) : Lost t := by
  cases a with
  | send data now =>
      have hcalled := step_send hstep
      have hadmits : s.queue.admits = false := by simpa [KeepsMessages] using hkeeps
      refine Or.inr ⟨hs.step hstep, s.nextMessage, by simp [hcalled.sendReturned], fun p => ?_⟩
      rw [← (hs.fresh _ (Nat.le_refl _)).1 p]
      cases p with
      | queue => simp [occurrences, hcalled.queue, MessageQueue.add_messages, hadmits]
      | handler h => simp [occurrences, hcalled.writers]
      | socket h => simp [occurrences, hcalled.writers]
      | expired => simp [occurrences, hcalled.holders, MessageQueue.add_callbacks]
  | addTimed data now timeout requestId => exact absurd trivial hkeeps
  | clearTimeouted time => exact absurd trivial hkeeps
  | write h outcome =>
      by_cases hdefined : Defined t
      · -- the handler stays in the language, so its batch has a message of `send()`
        refine Or.inr ⟨hs.step hstep, ?_⟩
        have hstays := (defined_step_iff hs.quiet hlost.1 hstep).mp hdefined
        obtain ⟨result, -, hwrote⟩ := step_write hstep
        have hsent : ∃ m ∈ filling s h, m ∈ s.sendReturned := by
          by_contra hnone
          exact hkeeps ⟨hstays, fun m hm hin => hnone ⟨m, hm, hin⟩⟩
        obtain ⟨m, hm, hin⟩ := hsent
        refine ⟨m, hwrote.sendReturned ▸ hin, ?_⟩
        have hpositive : (filling s h).count m ≠ 0 :=
          Nat.pos_iff_ne_zero.mp (List.count_pos_iff.mpr hm)
        obtain ⟨messages, hpc⟩ : ∃ messages, (s.writers h).pc = .popped messages := by
          rw [filling] at hm
          split at hm
          · exact ⟨_, by assumption⟩
          · cases hm
        obtain ⟨hremoved, hcount⟩ := occurrences_filling hs.quiet hstep hpc m
        exact hremoved.nowhere_of_inOnePlace (hcount ▸ hpositive) (hlost.2 m hin)
      · exact Or.inl hdefined

/-- What is lost stays lost. -/
theorem Lost.step {order : ByteOrder} {s t : State H} {a : Action H} (hs : Lost s)
    (hstep : SharedQueue.step order s a = some t) : Lost t := by
  rcases hs with hundefined | ⟨htracked, m, hm, hnowhere⟩
  · exact Or.inl (undefined_step hundefined hstep)
  · have hkept : m ∈ t.sendReturned := by
      rcases nextMessage_step hstep with ⟨-, h⟩ | ⟨-, h⟩ | ⟨-, -, h⟩
      · exact h ▸ hm
      · exact h ▸ hm
      · exact h ▸ List.mem_append_left _ hm
    exact Or.inr ⟨htracked.step hstep, m, hkept, nowhere_step htracked.quiet hstep
      (Or.inl (htracked.lt_nextMessage hm)) (htracked.untimed m hm) hnowhere⟩

omit [DecidableEq H] in
theorem Lost.not_noneLost {s : State H} (hs : Lost s) : ¬ NoneLost s := by
  rintro ⟨hdefined, hplaces⟩
  rcases hs with hundefined | ⟨-, m, hm, hnowhere⟩
  · exact hundefined hdefined
  · exact (hplaces m hm).not_nowhere hnowhere

/-- At the end of a run every message of `send()` is in exactly one place
exactly when `add` admitted each of them, no handler has come to
`fill_send_messages_` with one or with an expired message, and every `pop` found
enough messages for a batch. -/
theorem noneLost_iff_keepsMessages (order : ByteOrder) (maxSize : Nat) (messageCount : Int)
    (connected : H → Bool) {actions : List (Action H)} {s : State H}
    (hrun : (system order maxSize messageCount connected).run
      (system order maxSize messageCount connected).init actions = some s) :
    NoneLost s ↔ Meets (system order maxSize messageCount connected) KeepsMessages
      (system order maxSize messageCount connected).init actions := by
  have hgood : ∀ (s : State H) a t, Tracked s ∧ NoneLost s → KeepsMessages s a →
      step order s a = some t → Tracked t ∧ NoneLost t := by
    rintro s a t ⟨htracked, hlost⟩ hkeeps hstep
    exact ⟨htracked.step hstep, noneLost_of_keepsMessages htracked hlost hkeeps hstep⟩
  have hbad : ∀ (s : State H) a t, Tracked s ∧ NoneLost s → ¬ KeepsMessages s a →
      step order s a = some t → Lost t := by
    rintro s a t ⟨htracked, hlost⟩ hkeeps hstep
    exact lost_of_not_keepsMessages htracked hlost hkeeps hstep
  have hstay : ∀ (s : State H) a t, Lost s → step order s a = some t → Lost t :=
    fun _ _ _ hs hstep => hs.step hstep
  exact run_iff_meets hgood hbad hstay
    ⟨tracked_init order maxSize messageCount connected,
      defined_init order maxSize messageCount connected,
      fun m hm => absurd hm List.not_mem_nil⟩ hrun
    (fun hend => hend.2) (fun hend => hend.not_noneLost)

set_option maxRecDepth 100000 in
/-- Two messages that make one batch; a handler takes them, and its next
operation would be `fill_send_messages_`. -/
theorem noneLost_popped :
    ∃ s, (system .littleEndian 10 0 fun _ : Unit => true).run
        (system .littleEndian 10 0 fun _ : Unit => true).init
        [.send [1, 2] 5, .send (List.replicate 15990 0) 6, .write () .zero, .write () .zero,
          .send [3] 7] = some s ∧ NoneLost s := by
  have hend : ((system .littleEndian 10 0 fun _ : Unit => true).run
      (system .littleEndian 10 0 fun _ : Unit => true).init
      [.send [1, 2] 5, .send (List.replicate 15990 0) 6, .write () .zero, .write () .zero,
        .send [3] 7]).isSome = true := by
    decide +kernel
  obtain ⟨s, hrun⟩ := Option.isSome_iff_exists.mp hend
  exact ⟨s, hrun, (noneLost_iff_keepsMessages .littleEndian 10 0 (fun _ => true) hrun).mpr
    (by decide +kernel)⟩

set_option maxRecDepth 100000 in
/-- A handler takes the only message, which is as long as a whole batch.
Nothing of it is offered to the socket, and after the operation it is in the
queue no more. -/
theorem batch_dropped :
    ∃ s, (system .littleEndian 10 0 fun _ : Unit => true).run
        (system .littleEndian 10 0 fun _ : Unit => true).init
        [.send (List.replicate 15996 0) 5, .write () .zero, .write () .zero, .write () .zero] =
          some s ∧ s.sendReturned = [0] ∧ s.queue.messages = [] ∧
      (s.writers ()).pc = .loop ∧ ¬ NoneLost s := by
  have hend : ((system .littleEndian 10 0 fun _ : Unit => true).run
      (system .littleEndian 10 0 fun _ : Unit => true).init
      [.send (List.replicate 15996 0) 5, .write () .zero, .write () .zero, .write () .zero]).map
      (fun s => (s.sendReturned, s.queue.messages, (s.writers ()).pc,
        occurrences s 0 (.handler ()), occurrences s 0 (.socket ()),
        occurrences s 0 .expired)) = some ([0], [], .loop, 0, 0, 0) := by
    decide +kernel
  obtain ⟨s, hrun, hvalues⟩ := Option.map_eq_some_iff.mp hend
  simp only [Prod.mk.injEq] at hvalues
  obtain ⟨hreturned, hmessages, hpc, hhandler, hsocket, hexpired⟩ := hvalues
  refine ⟨s, hrun, hreturned, hmessages, hpc, fun hlost => ?_⟩
  refine (hlost.2 0 (by simp [hreturned])).not_nowhere fun p => ?_
  cases p with
  | queue => simp [occurrences, hmessages]
  | handler h => exact hhandler
  | socket h => exact hsocket
  | expired => exact hexpired

end SharedQueue
end LiteMQ
