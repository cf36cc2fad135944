import LiteMQ.Connection.FillSendMessages
import Mathlib.Algebra.Ring.Int.Defs

/-!
# What a send leaves of its batch

`remove_sent_messages_` gets the signed result of `::sendmsg` as an
`unsigned long` and takes the bytes off the partly sent message and off the
messages of the batch.  The comparison with the rest of the partly sent message
is the wrong way round, so nothing sent counts as all of it sent, and the
messages to put back are those for which `need_to_send()` holds, the expired
ones.

`onlyLive_iff` says that the two functions together treat no batch as they
should, and `not_sendUndone` that no failed send leaves everything as it was.
-/

namespace LiteMQ
namespace SendDescriptorHandler

open DescriptorHandler

/-! ## Only live messages -/

/-- The iovecs of the batch are those of its live messages, in order, and
whatever `::sendmsg` returns, the messages for `push_front` are the live ones of
which no byte was accepted. -/
def OnlyLive (handler : SendDescriptorHandler) (holders : Holders)
    (messages : List MessageId) : Prop :=
  ∃ handler' sending, handler.fillSendMessages holders messages = .ok (handler', sending) ∧
    handler'.writeIovecBuf.drop (partlyIovecs handler holders).length =
      batchIovecs holders (partlySizeBufs handler) (messages.filter holders.live) ∧
    ∀ outcome : SendOutcome,
      outcome.possible (handler'.msgIov.map fun ioVec => ioVec.iovLen.toNat).sum →
        (handler'.removeSentMessages holders messages outcome.sentSize).2 =
          messages.filter fun m => holders.live m &&
            decide (m ∉ startedIn handler'.msgIov outcome.sentSize.toNat)

theorem mem_chosen {holders : Holders} {messages : List MessageId} {m : MessageId} :
    m ∈ chosen holders messages ↔ m ∈ messages ∧ holders.live m = false := by
  simp [chosen, MessageHolder.needToSend, Holders.live]

/-- The chosen messages are the live ones only in an empty batch. -/
theorem chosen_eq_live_iff {holders : Holders} {messages : List MessageId} :
    chosen holders messages = messages.filter holders.live ↔ messages = [] := by
  constructor
  · intro h
    rw [List.eq_nil_iff_forall_not_mem]
    intro m hm
    have hsame : m ∈ chosen holders messages ↔ m ∈ messages.filter holders.live := by rw [h]
    rw [mem_chosen, List.mem_filter] at hsame
    cases hlive : holders.live m with
    | false => exact absurd (hsame.mp ⟨hm, hlive⟩).2 (by simp [hlive])
    | true => exact absurd (hsame.mpr ⟨hm, hlive⟩).2 (by simp [hlive])
  · rintro rfl
    rfl

theorem removePartly_resultMessages (holders : Holders) (cursor : RemoveCursor) :
    (removePartly holders cursor).resultMessages = cursor.resultMessages := by
  unfold removePartly
  split
  · rfl
  · dsimp only
    split <;> rfl

/-- The two functions let exactly the live messages through only for an empty
batch, and there only without a header that is partly sent. -/
theorem onlyLive_iff (handler : SendDescriptorHandler) (holders : Holders)
    (messages : List MessageId) :
    OnlyLive handler holders messages ↔
      messages = [] ∧ ¬ (handler.partlySentMessage.isSome ∧ handler.headerSentSize < 4) := by
  constructor
  · rintro ⟨handler', sending, hfill, hiovecs, -⟩
    obtain ⟨hfits, -, sizeBufs, heq⟩ := fillSendMessages_inv hfill
    dsimp only at heq
    rw [heq, List.drop_left] at hiovecs
    obtain rfl := chosen_eq_live_iff.mp (batchIovecs_injective hiovecs)
    refine ⟨rfl, ?_⟩
    rintro ⟨hsome, hheader⟩
    rcases hfits with ⟨hnone, -⟩ | ⟨-, hfits⟩
    · rw [hnone] at hsome
      cases hsome
    · rw [if_pos hheader] at hfits
      exact Nat.not_succ_le_zero _ hfits
  · rintro ⟨rfl, hheader⟩
    have hfits : FillFits handler holders [] := by
      by_cases hsome : handler.partlySentMessage.isSome
      · exact Or.inr ⟨hsome, by rw [if_neg fun h => hheader ⟨hsome, h⟩]; exact Nat.le_refl 0⟩
      · exact Or.inl ⟨Option.not_isSome_iff_eq_none.mp hsome, rfl⟩
    obtain ⟨handler', sizeBufs, hfill, heq⟩ := fillSendMessages_eq_ok hfits
    refine ⟨handler', _, hfill, ?_, ?_⟩
    · rw [heq, List.drop_left]
      rfl
    · intro outcome _
      exact removePartly_resultMessages holders _

/-- A live message is not described to `::sendmsg`, and nothing of it goes back
to the queue. -/
theorem live_message_not_sent :
    ¬ OnlyLive (initial true) ⟨fun _ => ⟨[1, 2, 3], 0, 0, 0, 0⟩, []⟩ [0] := by
  rintro ⟨handler', sending, hfill, hiovecs, -⟩
  have hbuilt : (initial true).fillSendMessages ⟨fun _ => ⟨[1, 2, 3], 0, 0, 0, 0⟩, []⟩ [0] =
      .ok ({ initial true with writeSizeBufs := [0, 0] }, false) := by rfl
  obtain ⟨rfl, -⟩ := Prod.mk.inj (Except.ok.inj (hfill.symm.trans hbuilt))
  cases hiovecs

/-! ## A send that fails -/

/-- So many operations of a handler in `write()`, none of another thread between
them; `outcome` is the result of `::sendmsg` if it is called. -/
def writeSteps (order : ByteOrder) (outcome : SendOutcome) :
    Nat → WriteResult → Option WriteResult
  | 0, state => some state
  | n + 1, state =>
      (writeStep order state.queue state.holders state.writer outcome).bind
        (writeSteps order outcome n)

/-- One pass of the loop of `write()`, from its `pop` to its `return`, in which
`::sendmsg` returns `0` or fails with `EAGAIN` or `EWOULDBLOCK`. -/
def FailedPass (order : ByteOrder) (outcome : SendOutcome) (before after : WriteResult) : Prop :=
  before.writer.pc = .loop ∧ (outcome = .zero ∨ outcome = .wouldBlock) ∧
    ∃ sent messages, writeSteps order outcome 3 before = some sent ∧
      sent.writer.pc = .sent messages outcome ∧ writeSteps order outcome 2 sent = some after

/-- The queue and what the handler knows of its partly sent message are as
before. -/
structure SendUndone (before after : WriteResult) : Prop where
  messages : after.queue.messages = before.queue.messages
  partlySentMessage :
    after.writer.handler.partlySentMessage = before.writer.handler.partlySentMessage
  partlySentSize : after.writer.handler.partlySentSize = before.writer.handler.partlySentSize
  headerSentSize : after.writer.handler.headerSentSize = before.writer.handler.headerSentSize

/-- One operation, and the rest. -/
theorem writeSteps_succ {order : ByteOrder} {outcome : SendOutcome} {n : Nat}
    {state after : WriteResult} (h : writeSteps order outcome (n + 1) state = some after) :
    ∃ next, writeStep order state.queue state.holders state.writer outcome = some next ∧
      writeSteps order outcome n next = some after := Option.bind_eq_some_iff.mp h

section

variable {order : ByteOrder} {queue : MessageQueue} {holders : Holders} {writer : Writer}
  {outcome : SendOutcome} {result : WriteResult} {messages : List MessageId}

/-- Only `::sendmsg` leads to `.sent`. -/
theorem WriteOperation.to_sent {sent : SendOutcome}
    (h : WriteOperation order queue holders writer outcome result)
    (hsent : result.writer.pc = .sent messages sent) :
    writer.pc = .filled messages ∧ result.queue = queue ∧ result.holders = holders ∧
      result.writer.handler = writer.handler := by
  cases h with
  | send batch bytes hpc =>
      obtain ⟨rfl, -⟩ := WritePc.sent.inj hsent
      exact ⟨hpc, rfl, rfl, rfl⟩
  | _ => cases hsent

/-- Only `fill_send_messages_` leads to `.filled`. -/
theorem WriteOperation.to_filled (h : WriteOperation order queue holders writer outcome result)
    (hfilled : result.writer.pc = .filled messages) :
    writer.pc = .popped messages ∧ result.queue = queue ∧ result.holders = holders ∧
      writer.handler.fillSendMessages holders messages = .ok (result.writer.handler, true) := by
  cases h with
  | fill batch handler hpc hfill =>
      obtain rfl := WritePc.filled.inj hfilled
      exact ⟨hpc, rfl, rfl, hfill⟩
  | _ => cases hfilled

/-- Only the `pop` leads to `.popped`. -/
theorem WriteOperation.to_popped (h : WriteOperation order queue holders writer outcome result)
    (hpopped : result.writer.pc = .popped messages) :
    messages = (queue.pop holders [] 16000).resultMessages ∧
      result.queue = (queue.pop holders [] 16000).queue ∧ result.holders = holders ∧
      result.writer.handler = writer.handler := by
  cases h with
  | pop hpc =>
      obtain rfl := WritePc.popped.inj hpopped
      exact ⟨rfl, rfl, rfl, rfl⟩
  | _ => cases hpopped

end

/-- The operations from the `pop` to a `::sendmsg` that was called. -/
theorem writeSteps_to_sent {order : ByteOrder} {outcome : SendOutcome}
    {before sent : WriteResult} {messages : List MessageId}
    (hsteps : writeSteps order outcome 3 before = some sent)
    (hsent : sent.writer.pc = .sent messages outcome) :
    let popped := before.queue.pop before.holders [] 16000
    messages = popped.resultMessages ∧ sent.queue = popped.queue ∧
      sent.holders = before.holders ∧
      before.writer.handler.fillSendMessages before.holders messages =
        .ok (sent.writer.handler, true) := by
  obtain ⟨popped, hpop, hsteps⟩ := writeSteps_succ hsteps
  obtain ⟨filled, hfill, hsteps⟩ := writeSteps_succ hsteps
  obtain ⟨last, hsend, hend⟩ := writeSteps_succ hsteps
  obtain rfl := Option.some.inj hend
  obtain ⟨hfilled, hqueue₃, hholders₃, hhandler₃⟩ := (writeStep_cases hsend).to_sent hsent
  obtain ⟨hpopped, hqueue₂, hholders₂, hfill⟩ := (writeStep_cases hfill).to_filled hfilled
  obtain ⟨rfl, hqueue₁, hholders₁, hhandler₁⟩ := (writeStep_cases hpop).to_popped hpopped
  refine ⟨rfl, hqueue₃.trans (hqueue₂.trans hqueue₁),
    hholders₃.trans (hholders₂.trans hholders₁), ?_⟩
  rw [hholders₁, hhandler₁] at hfill
  rw [hhandler₃]
  exact hfill

/-- What a failed pass does: it fills the batch, sorts out the result and puts
back what is left. -/
theorem FailedPass.inv {order : ByteOrder} {outcome : SendOutcome} {before after : WriteResult}
    (h : FailedPass order outcome before after) :
    let popped := before.queue.pop before.holders [] 16000
    ∃ filled, before.writer.handler.fillSendMessages before.holders popped.resultMessages =
        .ok (filled, true) ∧
      after.writer.handler = (filled.removeSentMessages before.holders popped.resultMessages
        outcome.sentSize).1 ∧
      after.queue = (popped.queue.pushFront before.holders (filled.removeSentMessages
        before.holders popped.resultMessages outcome.sentSize).2).1 ∧
      after.writer.pc = .returned continueHandle := by
  obtain ⟨-, hfailed, sent, messages, hsteps, hsent, hrest⟩ := h
  obtain ⟨rfl, hqueue, hholders, hfilled⟩ := writeSteps_to_sent hsteps hsent
  obtain ⟨removed, hremove, hrest⟩ := writeSteps_succ hrest
  obtain ⟨pushed, hpush, hend⟩ := writeSteps_succ hrest
  obtain rfl := Option.some.inj hend
  simp only [writeStep, hsent] at hremove
  obtain rfl := Option.some.inj hremove
  simp only [writeStep] at hpush
  obtain rfl := Option.some.inj hpush
  refine ⟨sent.writer.handler, hfilled, ?_, ?_, ?_⟩
  · rw [hholders]
  · rw [hqueue, hholders]
  · rcases hfailed with rfl | rfl <;> rfl

/-- A message is dropped, or it is kept and the handler left alone. -/
theorem removeMessage_cases (holders : Holders) (cursor : RemoveCursor) (m : MessageId) :
    (removeMessage holders cursor m).resultMessages = cursor.resultMessages ∨
      removeMessage holders cursor m =
        { cursor with resultMessages := cursor.resultMessages ++ [m] } := by
  unfold removeMessage
  by_cases hbytes : 0 < cursor.unprocessedSentSize
  · left
    rw [if_pos hbytes]
    dsimp only
    split <;> rfl
  · rw [if_neg hbytes]
    by_cases hneed : (holders.holder m).needToSend
    · right
      rw [if_pos hneed]
    · left
      rw [if_neg hneed]

/-- The loop over the batch keeps at most what it gets, and when it keeps
everything it leaves the handler alone. -/
theorem foldl_removeMessage_length (holders : Holders) (ms : List MessageId)
    (cursor : RemoveCursor) :
    (ms.foldl (removeMessage holders) cursor).resultMessages.length ≤
        cursor.resultMessages.length + ms.length ∧
      (cursor.resultMessages.length + ms.length ≤
          (ms.foldl (removeMessage holders) cursor).resultMessages.length →
        (ms.foldl (removeMessage holders) cursor).handler = cursor.handler) := by
  induction ms generalizing cursor with
  | nil => exact ⟨Nat.le_refl _, fun _ => rfl⟩
  | cons m ms ih =>
      obtain ⟨hle, hall⟩ := ih (removeMessage holders cursor m)
      rw [List.foldl_cons, List.length_cons]
      rcases removeMessage_cases holders cursor m with hdropped | hkept
      · rw [hdropped] at hle
        exact ⟨by omega, fun hge => by omega⟩
      · rw [hkept] at hle hall ⊢
        simp only [List.length_append, List.length_singleton] at hle hall
        exact ⟨by omega, fun hge => hall (by omega)⟩

/-- Of nothing sent, as an `unsigned long` `0` or `2 ^ 64 - 1`, something changes
for a partly sent message. -/
theorem removePartly_changes (holders : Holders) (cursor : RemoveCursor) {partly : MessageId}
    (hpartly : cursor.handler.partlySentMessage = some partly)
    (hunsent : cursor.unprocessedSentSize = 0 ∨ cursor.unprocessedSentSize = -1) :
    (removePartly holders cursor).handler.partlySentMessage ≠ some partly ∨
      (removePartly holders cursor).handler.partlySentSize ≠ cursor.handler.partlySentSize := by
  simp only [removePartly, hpartly]
  by_cases hle : cursor.unprocessedSentSize ≤
      (holders.holder partly).size - cursor.handler.partlySentSize
  · left
    rw [if_pos hle]
    exact (Option.some_ne_none partly).symm
  · right
    rw [if_neg hle]
    rcases hunsent with hzero | hminus
    · -- nothing is at most the rest
      rw [hzero] at hle
      exact absurd (UInt64.zero_le) hle
    · show cursor.handler.partlySentSize + cursor.unprocessedSentSize ≠ _
      rw [hminus]
      intro hsame
      have hzero : (-1 : UInt64) = 0 := UInt64.add_eq_left.mp hsame
      exact absurd hzero (by decide)

/-- Only a handler with a partly sent message comes to `::sendmsg`, and
`fill_send_messages_` leaves what it knows of it alone. -/
theorem partly_of_filled {handler filled : SendDescriptorHandler} {holders : Holders}
    {messages : List MessageId}
    (hfill : handler.fillSendMessages holders messages = .ok (filled, true)) :
    (∃ partly, handler.partlySentMessage = some partly) ∧
      filled.partlySentMessage = handler.partlySentMessage ∧
      filled.partlySentSize = handler.partlySentSize := by
  obtain ⟨hfits, hsending, sizeBufs, heq⟩ := fillSendMessages_inv hfill
  dsimp only at hsending heq
  rw [heq]
  refine ⟨?_, rfl, rfl⟩
  rcases hfits with ⟨hnone, hchosen⟩ | ⟨hsome, -⟩
  · rw [partlyIovecs, hnone, hchosen] at hsending
    cases hsending
  · exact Option.isSome_iff_exists.mp hsome

/-- No failed send leaves the queue and the partly sent message as they were. -/
theorem not_sendUndone {order : ByteOrder} {outcome : SendOutcome} {before after : WriteResult}
    (h : FailedPass order outcome before after) :
    after.writer.pc = .returned continueHandle ∧ ¬ SendUndone before after := by
  obtain ⟨filled, hfilled, hhandler, hqueue, hreturned⟩ := h.inv
  refine ⟨hreturned, fun hundone => ?_⟩
  obtain ⟨⟨partly, hpartly⟩, hsame, hsize⟩ := partly_of_filled hfilled
  have happend := before.queue.pop_resultMessages_append before.holders 16000
  generalize hpopped : before.queue.pop before.holders [] 16000 = popped at *
  let start : RemoveCursor := removePartly before.holders
    ⟨filled, UInt64.ofInt outcome.sentSize, []⟩
  obtain ⟨-, hall⟩ := foldl_removeMessage_length before.holders popped.resultMessages start
  -- a queue of the same length got the whole batch back
  have hwhole : popped.resultMessages.length ≤ (filled.removeSentMessages before.holders
      popped.resultMessages outcome.sentSize).2.length := by
    have hlength := congrArg List.length hundone.messages
    rw [hqueue, ← happend] at hlength
    simp only [MessageQueue.pushFront, List.length_take, List.length_append] at hlength
    omega
  have hstart : start.resultMessages = [] := removePartly_resultMessages before.holders _
  have hkept : after.writer.handler = start.handler := by
    rw [hhandler]
    apply hall
    rw [hstart, List.length_nil, Nat.zero_add]
    exact hwhole
  have hunsent : UInt64.ofInt outcome.sentSize = 0 ∨ UInt64.ofInt outcome.sentSize = -1 := by
    rcases h.2.1 with rfl | rfl
    · exact Or.inl rfl
    · exact Or.inr rfl
  rcases removePartly_changes before.holders ⟨filled, UInt64.ofInt outcome.sentSize, []⟩
    (hsame.trans hpartly) hunsent with hmessage | hsent
  · apply hmessage
    show start.handler.partlySentMessage = _
    rw [← hkept, hundone.partlySentMessage, hpartly]
  · apply hsent
    show start.handler.partlySentSize = filled.partlySentSize
    rw [← hkept, hundone.partlySentSize, hsize]

/-- A handler that is one byte into the three of message `0`, and a queue with
the live message `1`. -/
def midMessage : WriteResult where
  queue := ⟨10, [1], [], 1⟩
  holders := ⟨fun m => ⟨if m = 0 then [1, 2, 3] else List.replicate 15996 0, 0, 0, 0, 0⟩, []⟩
  writer := { Writer.initial true with
    handler := { initial true with
      headerSentSize := 4, partlySentMessage := some 0, partlySentSize := 1 }
    pc := .loop }

/-- `EAGAIN` for that handler. -/
theorem not_sendUndone_would_block :
    ∃ after, FailedPass .littleEndian .wouldBlock midMessage after ∧
      after.writer.pc = .returned continueHandle ∧ ¬ SendUndone midMessage after := by
  obtain ⟨sent, hsteps, hsent⟩ := Option.map_eq_some_iff.mp
    (show (writeSteps .littleEndian .wouldBlock 3 midMessage).map (fun s => s.writer.pc) =
      some (.sent [1] .wouldBlock) by decide +kernel)
  obtain ⟨after, hrest⟩ : ∃ after, writeSteps .littleEndian .wouldBlock 2 sent = some after := by
    simp only [writeSteps, writeStep, hsent, Option.bind_some]
    exact ⟨_, rfl⟩
  have hpass : FailedPass .littleEndian .wouldBlock midMessage after :=
    ⟨rfl, Or.inr rfl, sent, [1], hsteps, hsent, hrest⟩
  exact ⟨after, hpass, not_sendUndone hpass⟩

/-- `::sendmsg` returns `0`: the rest of message `0` is forgotten, and message `1`
is in no queue. -/
theorem send_of_nothing_loses :
    ∃ after, FailedPass .littleEndian .zero midMessage after ∧
      after.writer.handler.partlySentMessage = none ∧ after.queue.messages = [] ∧
      ¬ SendUndone midMessage after := by
  obtain ⟨sent, hsteps, hsent⟩ := Option.map_eq_some_iff.mp
    (show (writeSteps .littleEndian .zero 3 midMessage).map (fun s => s.writer.pc) =
      some (.sent [1] .zero) by decide +kernel)
  obtain ⟨after, hall, hvalues⟩ := Option.map_eq_some_iff.mp
    (show ((writeSteps .littleEndian .zero 3 midMessage).bind
      (writeSteps .littleEndian .zero 2)).map
        (fun s => (s.writer.handler.partlySentMessage, s.queue.messages)) = some (none, []) by
      decide +kernel)
  rw [hsteps, Option.bind_some] at hall
  obtain ⟨hpartly, hmessages⟩ := Prod.mk.inj hvalues
  refine ⟨after, ⟨rfl, Or.inl rfl, sent, [1], hsteps, hsent, hall⟩, hpartly, hmessages, ?_⟩
  intro hundone
  have hsame := hundone.partlySentMessage
  rw [hpartly] at hsame
  cases hsame

end SendDescriptorHandler
end LiteMQ
