import LiteMQ.Connection.SendResult
import LiteMQ.Connection.SharedQueue
import LiteMQ.Message.PopPrefix

/-!
# The passes of one handler through `write()`

`passes` is a `SendDescriptorHandler` that goes through `write()` again and
again while other threads do what they like: every operation finds its own queue
and its own holders.  The handlers of a connection are such handlers
(`writers_reachable`).

A reachable handler has no partly sent message, so the arithmetic of
`fill_send_messages_` and `remove_sent_messages_` does not wrap for any batch and
any result of `::sendmsg` (`send_accounting`).  The only way to `STOP_WRITE_HANDLE`
is a `pop` of the empty queue, which erases behind the end of `messages_`; so
does every `pop` that finds too little (`stopsWhenEmpty_iff`).  With a partly sent message
the first subtraction of `remove_sent_messages_` would be in danger
(`removePartlyChecked_eq_some_iff`).
-/

namespace LiteMQ
namespace SendDescriptorHandler

open DescriptorHandler TransitionSystem

/-! ## Checked arithmetic -/

/-- `a - b`, if it does not underflow. -/
def subChecked (a b : UInt64) : Option UInt64 := if b ≤ a then some (a - b) else none

/-- `a + b`, if it does not wrap. -/
def addChecked (a b : UInt64) : Option UInt64 :=
  if a.toNat + b.toNat < 2 ^ 64 then some (a + b) else none

/-- The lengths that `fill_send_messages_` writes for the partly sent message,
with checked arithmetic. -/
def fillPartlyChecked (handler : SendDescriptorHandler) (holders : Holders) :
    Option (List UInt64) :=
  match handler.partlySentMessage with
  | none => some []
  | some partly => do
      let header ←
        if handler.headerSentSize < 4 then
          (subChecked 4 handler.headerSentSize.toUInt64).map ([·])
        else some []
      let body ← subChecked (holders.holder partly).size handler.partlySentSize
      pure (header ++ [body])

/-- `removePartly` with checked arithmetic. -/
def removePartlyChecked (holders : Holders) (cursor : RemoveCursor) : Option RemoveCursor :=
  match cursor.handler.partlySentMessage with
  | none => some cursor
  | some partly => do
      let unsent ← subChecked (holders.holder partly).size cursor.handler.partlySentSize
      if cursor.unprocessedSentSize ≤ unsent then do
        let rest ← subChecked cursor.unprocessedSentSize unsent
        pure { cursor with
          handler := { cursor.handler with partlySentMessage := none, partlySentSize := 0 }
          unprocessedSentSize := rest }
      else do
        let sent ← addChecked cursor.handler.partlySentSize cursor.unprocessedSentSize
        pure { cursor with
          handler := { cursor.handler with partlySentSize := sent }
          unprocessedSentSize := 0 }

/-- `removeMessage` with checked arithmetic. -/
def removeMessageChecked (holders : Holders) (cursor : RemoveCursor) (m : MessageId) :
    Option RemoveCursor :=
  if 0 < cursor.unprocessedSentSize then
    let size := (holders.holder m).size
    if size ≤ cursor.unprocessedSentSize then do
      let rest ← subChecked cursor.unprocessedSentSize size
      pure { cursor with unprocessedSentSize := rest }
    else
      some { cursor with
        handler := { cursor.handler with
          partlySentMessage := some m, partlySentSize := cursor.unprocessedSentSize }
        unprocessedSentSize := 0 }
  else if (holders.holder m).needToSend then
    some { cursor with resultMessages := cursor.resultMessages ++ [m] }
  else some cursor

/-- `removeSentMessages` with checked arithmetic. -/
def removeSentMessagesChecked (handler : SendDescriptorHandler) (holders : Holders)
    (messages : List MessageId) (sentSize : Int) :
    Option (SendDescriptorHandler × List MessageId) := do
  let cursor ← removePartlyChecked holders ⟨handler, UInt64.ofInt sentSize, []⟩
  let cursor ← messages.foldlM (removeMessageChecked holders) cursor
  pure (cursor.handler, cursor.resultMessages)

/-- The only subtraction of the loop stands behind its comparison. -/
theorem removeMessageChecked_eq (holders : Holders) (cursor : RemoveCursor) (m : MessageId) :
    removeMessageChecked holders cursor m = some (removeMessage holders cursor m) := by
  unfold removeMessageChecked removeMessage subChecked
  dsimp only
  split
  · split <;> rfl
  · split <;> rfl

theorem foldlM_removeMessageChecked (holders : Holders) (messages : List MessageId)
    (cursor : RemoveCursor) : messages.foldlM (removeMessageChecked holders) cursor =
      some (messages.foldl (removeMessage holders) cursor) := by
  induction messages generalizing cursor with
  | nil => rfl
  | cons m messages ih =>
      rw [List.foldlM_cons, removeMessageChecked_eq, List.foldl_cons]
      exact ih _

/-- With a partly sent message the arithmetic is right only when exactly its rest
was sent, or more than that and the sum fits. -/
theorem removePartlyChecked_eq_some_iff {holders : Holders} {cursor : RemoveCursor}
    {partly : MessageId} (hpartly : cursor.handler.partlySentMessage = some partly) :
    removePartlyChecked holders cursor = some (removePartly holders cursor) ↔
      let size := (holders.holder partly).size.toNat
      let sent := cursor.handler.partlySentSize.toNat
      let unprocessed := cursor.unprocessedSentSize.toNat
      sent ≤ size ∧ (sent + unprocessed = size ∨
        size < sent + unprocessed ∧ sent + unprocessed < 2 ^ 64) := by
  dsimp only
  simp only [removePartlyChecked, removePartly, hpartly, subChecked, addChecked]
  by_cases hsent : cursor.handler.partlySentSize ≤ (holders.holder partly).size
  · have hunsent := UInt64.toNat_sub_of_le _ _ hsent
    have hsize := UInt64.le_iff_toNat_le.mp hsent
    rw [if_pos hsent]
    simp only [Option.bind_eq_bind, Option.bind_some]
    by_cases hle : cursor.unprocessedSentSize ≤
        (holders.holder partly).size - cursor.handler.partlySentSize
    · have hle' := UInt64.le_iff_toNat_le.mp hle
      rw [if_pos hle, if_pos hle]
      by_cases hge : (holders.holder partly).size - cursor.handler.partlySentSize ≤
          cursor.unprocessedSentSize
      · have hge' := UInt64.le_iff_toNat_le.mp hge
        rw [if_pos hge]
        exact ⟨fun _ => ⟨hsize, Or.inl (by omega)⟩, fun _ => rfl⟩
      · rw [if_neg hge]
        rw [UInt64.le_iff_toNat_le] at hge
        exact ⟨fun h => absurd h (Option.some_ne_none _).symm, fun h => by omega⟩
    · rw [if_neg hle, if_neg hle]
      rw [UInt64.le_iff_toNat_le] at hle
      by_cases hfits : cursor.handler.partlySentSize.toNat + cursor.unprocessedSentSize.toNat <
          2 ^ 64
      · rw [if_pos hfits]
        exact ⟨fun _ => ⟨hsize, Or.inr ⟨by omega, hfits⟩⟩, fun _ => rfl⟩
      · rw [if_neg hfits]
        exact ⟨fun h => absurd h (Option.some_ne_none _).symm, fun h => by omega⟩
  · rw [if_neg hsent]
    rw [UInt64.le_iff_toNat_le] at hsent
    exact ⟨fun h => absurd h (Option.some_ne_none _).symm, fun h => absurd h.1 hsent⟩

/-! ## The passes -/

/-- What one operation finds: the queue, the holders, and the result of
`::sendmsg`. -/
structure Surroundings where
  queue : MessageQueue
  holders : Holders
  outcome : SendOutcome

/-- A handler that goes through `write()` any number of times. -/
def passes (order : ByteOrder) (connectFinished : Bool) :
    TransitionSystem Writer Surroundings where
  init := .initial connectFinished
  step := fun writer around =>
    (writeStep order around.queue around.holders writer around.outcome).map WriteResult.writer

theorem headerSentSize_of_filled {handler : SendDescriptorHandler} {holders : Holders}
    {messages : List MessageId} {filled : SendDescriptorHandler × Bool}
    (hfill : handler.fillSendMessages holders messages = .ok filled) :
    filled.1.headerSentSize = handler.headerSentSize := by
  obtain ⟨-, -, sizeBufs, heq⟩ := fillSendMessages_inv hfill
  rw [heq]

theorem headerSentSize_removeSentMessages (handler : SendDescriptorHandler) (holders : Holders)
    (messages : List MessageId) (sentSize : Int) :
    (handler.removeSentMessages holders messages sentSize).1.headerSentSize =
      handler.headerSentSize := by
  have hloop : ∀ cursor : RemoveCursor, (messages.foldl (removeMessage holders)
      cursor).handler.headerSentSize = cursor.handler.headerSentSize := by
    induction messages with
    | nil => exact fun _ => rfl
    | cons m messages ih =>
        intro cursor
        rw [List.foldl_cons, ih]
        unfold removeMessage
        dsimp only
        split <;> split <;> rfl
  rw [removeSentMessages, hloop]
  unfold removePartly
  split
  · rfl
  · dsimp only
    split <;> rfl

/-- No operation writes `header_sent_size_`. -/
theorem headerSentSize_writeStep {order : ByteOrder} {queue : MessageQueue} {holders : Holders}
    {writer : Writer} {outcome : SendOutcome} {result : WriteResult}
    (hstep : writeStep order queue holders writer outcome = some result) :
    result.writer.handler.headerSentSize = writer.handler.headerSentSize := by
  cases writeStep_cases hstep with
  | fill messages handler hpc hfill => exact headerSentSize_of_filled hfill
  | drop messages handler hpc hfill => exact headerSentSize_of_filled hfill
  | remove messages sent hpc => exact headerSentSize_removeSentMessages ..
  | _ => rfl

/-- A handler without a partly sent message, and without a header in the middle. -/
structure Fresh (writer : Writer) : Prop where
  quiet : writer.Quiet
  header : writer.handler.headerSentSize = 0

theorem fresh_of_reachable {order : ByteOrder} {connectFinished : Bool} {writer : Writer}
    (h : Reachable (passes order connectFinished) unguarded writer) : Fresh writer := by
  refine Reachable.invariant ⟨Writer.quiet_initial connectFinished, rfl⟩ ?_ h
  intro writer around next hfresh _ hstep
  obtain ⟨result, hresult, rfl⟩ := Option.map_eq_some_iff.mp hstep
  exact ⟨(hfresh.quiet.writeStep hresult).2,
    (headerSentSize_writeStep hresult).trans hfresh.header⟩

/-- What is known of a partly sent message lies within it. -/
structure SentWithin (holders : Holders) (handler : SendDescriptorHandler) : Prop where
  body : ∀ partly ∈ handler.partlySentMessage,
    handler.partlySentSize < (holders.holder partly).size
  header : handler.headerSentSize ≤ 4

theorem SentWithin.foldl_removeMessage {holders : Holders} {cursor : RemoveCursor}
    (h : SentWithin holders cursor.handler) (messages : List MessageId) :
    SentWithin holders (messages.foldl (removeMessage holders) cursor).handler := by
  induction messages generalizing cursor with
  | nil => exact h
  | cons m messages ih =>
      rw [List.foldl_cons]
      apply ih
      unfold removeMessage
      split
      · dsimp only
        split
        · exact h
        · rename_i hsize
          refine ⟨?_, h.header⟩
          intro partly hpartly
          obtain rfl := Option.some.inj hpartly
          exact UInt64.not_le.mp hsize
      · split <;> exact h

/-- For every reachable handler, every batch and every result of `::sendmsg`: no
operation of `fill_send_messages_` and `remove_sent_messages_` wraps, and before
and after the pass `partly_sent_size_` and `header_sent_size_` lie within the
partly sent message and its header. -/
theorem send_accounting {order : ByteOrder} {connectFinished : Bool} {writer : Writer}
    (h : Reachable (passes order connectFinished) unguarded writer) (holders : Holders)
    (messages : List MessageId) (outcome : SendOutcome) :
    (fillPartlyChecked writer.handler holders).isSome ∧
      removeSentMessagesChecked writer.handler holders messages outcome.sentSize =
        some (writer.handler.removeSentMessages holders messages outcome.sentSize) ∧
      SentWithin holders writer.handler ∧
      SentWithin holders
        (writer.handler.removeSentMessages holders messages outcome.sentSize).1 := by
  have hfresh := fresh_of_reachable h
  have hnone := hfresh.quiet.partly
  have hwithin : SentWithin holders writer.handler := by
    refine ⟨?_, ?_⟩
    · rw [hnone]
      intro partly hpartly
      cases hpartly
    · rw [hfresh.header]
      decide
  refine ⟨?_, ?_, hwithin, ?_⟩
  · rw [fillPartlyChecked, hnone]
    rfl
  · simp only [removeSentMessagesChecked, removePartlyChecked, hnone, Option.bind_eq_bind,
      Option.bind_some, foldlM_removeMessageChecked]
    rw [removeSentMessages, removePartly, hnone]
    rfl
  · rw [removeSentMessages, removePartly, hnone]
    exact hwithin.foldl_removeMessage messages

/-- A handler that has entered `write()`. -/
theorem reachable_loop : Reachable (passes .littleEndian true) unguarded
    { Writer.initial true with pc := .loop } :=
  .step (a := ⟨.initial 10 0, .initial, .zero⟩) .init trivial rfl

/-- A batch of a live and an expired message, and seven bytes accepted. -/
theorem send_accounting_two_messages :
    let handler := SendDescriptorHandler.initial true
    let holders : Holders := ⟨fun m => ⟨[1, 2, 3, 4, 5], 0, 0, 0, m⟩, [1]⟩
    (fillPartlyChecked handler holders).isSome ∧
      removeSentMessagesChecked handler holders [0, 1] 7 =
        some (handler.removeSentMessages holders [0, 1] 7) ∧
      SentWithin holders handler ∧
      SentWithin holders (handler.removeSentMessages holders [0, 1] 7).1 :=
  send_accounting reachable_loop ⟨fun m => ⟨[1, 2, 3, 4, 5], 0, 0, 0, m⟩, [1]⟩ [0, 1]
    (.accepted 7)

/-! ## The end of `write()` -/

/-- What an operation of `write()` should do: its `pop` erases inside `messages_`,
and where `write()` returns a mask with `STOP_WRITE_HANDLE`, the queue is empty and
no message is partly sent. -/
def StopsWhenEmpty (result : WriteResult) : Prop :=
  result.writer.pc ≠ .undefined .outOfBounds ∧
    ∀ stateModify, result.writer.pc = .returned stateModify →
      hasBit stateModify stopWriteHandle = true →
        result.queue.messages = [] ∧ result.writer.handler.partlySentMessage = none

/-- An operation of a reachable handler stops when it should exactly when it is
no `pop`, or a `pop` of a whole batch. -/
theorem stopsWhenEmpty_iff {order : ByteOrder} {connectFinished : Bool} {writer : Writer}
    (h : Reachable (passes order connectFinished) unguarded writer) {queue : MessageQueue}
    {holders : Holders} {outcome : SendOutcome} {result : WriteResult}
    (hstep : writeStep order queue holders writer outcome = some result) :
    StopsWhenEmpty result ↔ (writer.pc = .loop →
      ∃ q, q <+: queue.messages ∧ q ≠ [] ∧ 16000 ≤ MessageQueue.curSize holders q) := by
  rw [← MessageQueue.popsInside_iff]
  -- no operation of a reachable handler returns from `write()` in another way
  have hstays : ∀ pc, result.writer.pc = pc → (∀ stateModify, pc ≠ .returned stateModify) →
      pc ≠ .undefined .outOfBounds → StopsWhenEmpty result := by
    rintro pc rfl hreturned hinside
    exact ⟨hinside, fun stateModify hpc => absurd hpc (hreturned stateModify)⟩
  cases ((fresh_of_reachable h).quiet.writeStep hstep).1 with
  | enter hpc handler => simp [hpc, hstays .loop rfl]
  | pop hpc hinside => simp [hpc, hinside, hstays _ rfl]
  | popFault hpc houtside => simp [hpc, houtside, StopsWhenEmpty]
  | dropBatch messages hpc hlive handler => simp [hpc, hstays .loop rfl]
  | fault messages hpc hexpired => simp [hpc, hstays _ rfl]

set_option maxRecDepth 100000 in
/-- A message of a whole batch. -/
theorem stopsWhenEmpty_whole_batch :
    let holders : Holders := ⟨fun _ => ⟨List.replicate 15996 0, 0, 0, 0, 0⟩, []⟩
    ∃ result, writeStep .littleEndian ⟨10, [0], [], 1⟩ holders
        { Writer.initial true with pc := .loop } .zero = some result ∧ StopsWhenEmpty result := by
  intro holders
  obtain ⟨result, hstep⟩ := Option.isSome_iff_exists.mp
    (show (writeStep .littleEndian ⟨10, [0], [], 1⟩ holders
      { Writer.initial true with pc := .loop } .zero).isSome by decide +kernel)
  refine ⟨result, hstep, (stopsWhenEmpty_iff reachable_loop hstep).mpr fun _ => ?_⟩
  exact ⟨[0], List.prefix_refl _, List.cons_ne_nil _ _, by decide +kernel⟩

/-- The first pass of a new handler finds a new queue, and would stop. -/
theorem stop_erases_behind_end :
    ∃ result, writeStep .littleEndian (.initial 10 0) .initial
        { Writer.initial true with pc := .loop } .zero = some result ∧
      (MessageQueue.pop (.initial 10 0) .initial [] 16000).resultMessages = [] ∧
      ¬ StopsWhenEmpty result := by
  refine ⟨_, rfl, rfl, fun hstops => hstops.1 ?_⟩
  decide

end SendDescriptorHandler

namespace SharedQueue

open SendDescriptorHandler TransitionSystem

variable {H : Type*} [DecidableEq H]

/-- Each handler of a connection goes through `passes`. -/
theorem writers_reachable {order : ByteOrder} {maxSize : Nat} {messageCount : Int}
    {connected : H → Bool} {s : State H}
    (h : Reachable (system order maxSize messageCount connected) unguarded s) (i : H) :
    Reachable (passes order (connected i)) unguarded (s.writers i) := by
  refine Reachable.simulates (fun s : State H => s.writers i) rfl ?_ h
  intro s a t _ hstep
  rcases writers_of_step hstep with hsame | ⟨i', outcome, rfl⟩
  · exact Or.inl (congrFun hsame i)
  · obtain ⟨result, hresult, hwrote⟩ := step_write hstep
    rcases eq_or_ne i i' with rfl | hne
    · refine Or.inr ⟨⟨s.queue, s.holders, outcome⟩, trivial, ?_⟩
      show (writeStep order s.queue s.holders (s.writers i) outcome).map WriteResult.writer = _
      rw [hresult, hwrote.self]
      rfl
    · exact Or.inl (hwrote.other i hne)

end SharedQueue
end LiteMQ
