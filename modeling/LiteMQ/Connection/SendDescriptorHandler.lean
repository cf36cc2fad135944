import LiteMQ.Foundation.Memory
import LiteMQ.Message.MessageQueue
import LiteMQ.Poller.StateChange

/-!
# `SendDescriptorHandler`

`write()` takes a batch from the shared queue, `fill_send_messages_` describes
it to `::sendmsg` as a vector of iovecs, `remove_sent_messages_` finds out from
the returned size which messages are left, and these go back to the queue.

`writeStep` is the next operation of a handler that is in `write()`: it follows
the loop of the source, and everything another thread can come between is a
step of its own.  The result of `::sendmsg` is an argument.

The source asks `need_to_send()`, which is `expired_`, so a live message is
passed over and an expired one is sent, with the size of `partly_sent_message_`
in its header.  A new handler has no partly sent message, so it faults on an
expired one and never comes to `::sendmsg`; and it takes batch after batch until
a `pop` erases behind the end of `messages_` (`Writer.Quiet.writeStep`).
-/

namespace LiteMQ

open DescriptorHandler

namespace SendDescriptorHandler

/-- `MSG_MAXIOVLEN` of the connection -/
def msgMaxIovlen : Nat := 64

/-- Where an `iov_base` points: a byte of an element of `write_size_bufs_` or a
byte of the data of a message. -/
inductive IoBase
  | null
  | sizeBuf (index offset : Nat)
  | body (message : MessageId) (offset : Nat)
  deriving DecidableEq, Repr

/-- `struct iovec` -/
structure IoVec where
  iovBase : IoBase
  iovLen : UInt64
  deriving DecidableEq, Repr

end SendDescriptorHandler

/-- The fields of a `SendDescriptorHandler` that `write()` uses.  `msg_iov`
points to the elements of `write_iovec_buf_` whenever it is used. -/
structure SendDescriptorHandler where
  connectFinished : Bool
  headerSentSize : UInt32
  partlySentMessage : Option MessageId
  partlySentSize : UInt64
  writeIovecBuf : List SendDescriptorHandler.IoVec
  msgIovlen : Nat
  writeSizeBufs : List UInt32
  deriving DecidableEq, Repr

namespace SendDescriptorHandler

/-- The constructor; `connectFinished` is whether `::connect` returned `0`. -/
def initial (connectFinished : Bool) : SendDescriptorHandler :=
  ⟨connectFinished, 0, none, 0, [], 0, []⟩

/-! ## `fill_send_messages_` -/

/-- The handler and the locals `size_buf_i` and `io_vec_i`. -/
structure FillCursor where
  handler : SendDescriptorHandler
  sizeBufI : Nat
  ioVecI : Nat
  deriving DecidableEq, Repr

/-- `write_size_bufs_[size_buf_i] = size;` -/
def FillCursor.putSize (cursor : FillCursor) (size : UInt64) : Except Fault FillCursor := do
  let bufs ← Buffer.store cursor.handler.writeSizeBufs cursor.sizeBufI size.toUInt32
  pure { cursor with handler := { cursor.handler with writeSizeBufs := bufs } }

/-- `iovec& io_vec = write_iovec_buf_[io_vec_i++];` and its assignment. -/
def FillCursor.putIovec (cursor : FillCursor) (ioVec : IoVec) : Except Fault FillCursor := do
  let buf ← Buffer.store cursor.handler.writeIovecBuf cursor.ioVecI ioVec
  pure
    { cursor with
      handler := { cursor.handler with writeIovecBuf := buf }
      ioVecI := cursor.ioVecI + 1 }

/-- `++size_buf_i` -/
def FillCursor.nextSizeBuf (cursor : FillCursor) : FillCursor :=
  { cursor with sizeBufI := cursor.sizeBufI + 1 }

/-- `if(partly_sent_message_.get()) { ... }`: the rest of the header, and the
rest of the body. -/
def fillPartly (holders : Holders) (cursor : FillCursor) : Except Fault FillCursor :=
  match cursor.handler.partlySentMessage with
  | none => .ok cursor
  | some partly => do
      let header := cursor.handler.headerSentSize
      let sent := cursor.handler.partlySentSize
      let size := (holders.holder partly).size
      let cursor ←
        if header < 4 then do
          let cursor ← cursor.putSize size
          let cursor ← cursor.putIovec
            ⟨.sizeBuf cursor.sizeBufI header.toNat, (4 - header).toUInt64⟩
          pure cursor.nextSizeBuf
        else pure cursor
      cursor.putIovec ⟨.body partly sent.toNat, size - sent⟩

/-- The body of the loop over `result_messages`. -/
def fillMessage (holders : Holders) (cursor : FillCursor) (m : MessageId) :
    Except Fault FillCursor :=
  if (holders.holder m).needToSend then
    -- the header gets the size of the partly sent message, not of this one
    match cursor.handler.partlySentMessage with
    | none => .error .nullDereference
    | some partly => do
        let cursor ← cursor.putSize (holders.holder partly).size
        let cursor ← cursor.putIovec ⟨.sizeBuf cursor.sizeBufI 0, 4⟩
        cursor.nextSizeBuf.putIovec ⟨.body m 0, (holders.holder m).size⟩
  else .ok cursor

/-- `fill_send_messages_(result_messages)` -/
def fillSendMessages (handler : SendDescriptorHandler) (holders : Holders)
    (resultMessages : List MessageId) : Except Fault (SendDescriptorHandler × Bool) := do
  let size := resultMessages.length + 1
  let handler := { handler with
    writeIovecBuf := Buffer.resize handler.writeIovecBuf size ⟨.null, 0⟩
    writeSizeBufs := Buffer.resize handler.writeSizeBufs size 0 }
  let cursor ← fillPartly holders ⟨handler, 0, 0⟩
  let cursor ← resultMessages.foldlM (fillMessage holders) cursor
  let buf := Buffer.resize cursor.handler.writeIovecBuf cursor.ioVecI ⟨.null, 0⟩
  pure ({ cursor.handler with
    writeIovecBuf := buf
    msgIovlen := min buf.length msgMaxIovlen }, cursor.ioVecI != 0)

/-! ## `::sendmsg` -/

/-- The byte order of the host. -/
inductive ByteOrder
  | littleEndian
  | bigEndian
  deriving DecidableEq, Repr

/-- The four bytes of a `uint32_t` in memory. -/
def ByteOrder.bytes (order : ByteOrder) (x : UInt32) : List UInt8 :=
  let little := [x.toUInt8, (x >>> 8).toUInt8, (x >>> 16).toUInt8, (x >>> 24).toUInt8]
  match order with
  | .littleEndian => little
  | .bigEndian => little.reverse

/-- `size` bytes of an object from `offset` on. -/
def readRange (object : List UInt8) (offset size : Nat) : Except Fault (List UInt8) := do
  ensure (offset + size ≤ object.length) .outOfBounds
  pure (Buffer.slice object offset (offset + size))

/-- The bytes that an iovec describes. -/
def ioVecBytes (order : ByteOrder) (holders : Holders) (sizeBufs : List UInt32)
    (ioVec : IoVec) : Except Fault (List UInt8) :=
  match ioVec.iovBase with
  | .null => .error .nullDereference
  | .sizeBuf index offset => do
      let size ← Buffer.load sizeBufs index
      readRange (order.bytes size) offset ioVec.iovLen.toNat
  | .body m offset => readRange (holders.holder m).data offset ioVec.iovLen.toNat

/-- The iovecs in `write_msg_`. -/
def msgIov (handler : SendDescriptorHandler) : List IoVec :=
  handler.writeIovecBuf.take handler.msgIovlen

/-- The bytes offered in `write_msg_`. -/
def offered (handler : SendDescriptorHandler) (order : ByteOrder) (holders : Holders) :
    Except Fault (List UInt8) := do
  let parts ← handler.msgIov.mapM (ioVecBytes order holders handler.writeSizeBufs)
  pure parts.flatten

/-- The results of `::sendmsg`: a number of bytes, `0`, `-1` with `EAGAIN` or
`EWOULDBLOCK`, `-1` with another error. -/
inductive SendOutcome
  | accepted (size : Nat)
  | zero
  | wouldBlock
  | failed
  deriving DecidableEq, Repr

/-- `sent_size` -/
def SendOutcome.sentSize : SendOutcome → Int
  | .accepted size => size
  | .zero => 0
  | .wouldBlock => -1
  | .failed => -1

/-- What `::sendmsg` can return when so many bytes are offered. -/
def SendOutcome.possible (outcome : SendOutcome) (offered : Nat) : Bool :=
  match outcome with
  | .accepted size => 1 ≤ size && size ≤ offered
  | _ => true

/-- The bytes of the offered ones that the socket takes. -/
def SendOutcome.accept (outcome : SendOutcome) (offered : List UInt8) : List UInt8 :=
  match outcome with
  | .accepted size => offered.take size
  | _ => []

/-! ## `remove_sent_messages_` -/

/-- The handler and the locals `unprocessed_sent_size` and `result_messages`. -/
structure RemoveCursor where
  handler : SendDescriptorHandler
  unprocessedSentSize : UInt64
  resultMessages : List MessageId
  deriving DecidableEq, Repr

/-- `if(partly_sent_message_.get()) { ... }` -/
def removePartly (holders : Holders) (cursor : RemoveCursor) : RemoveCursor :=
  match cursor.handler.partlySentMessage with
  | none => cursor
  | some partly =>
      let unsent := (holders.holder partly).size - cursor.handler.partlySentSize
      if cursor.unprocessedSentSize ≤ unsent then
        { cursor with
          handler := { cursor.handler with partlySentMessage := none, partlySentSize := 0 }
          unprocessedSentSize := cursor.unprocessedSentSize - unsent }
      else
        { cursor with
          handler := { cursor.handler with
            partlySentSize := cursor.handler.partlySentSize + cursor.unprocessedSentSize }
          unprocessedSentSize := 0 }

/-- The body of the loop over `messages`. -/
def removeMessage (holders : Holders) (cursor : RemoveCursor) (m : MessageId) : RemoveCursor :=
  if 0 < cursor.unprocessedSentSize then
    let size := (holders.holder m).size
    if size ≤ cursor.unprocessedSentSize then
      { cursor with unprocessedSentSize := cursor.unprocessedSentSize - size }
    else
      { cursor with
        handler := { cursor.handler with
          partlySentMessage := some m, partlySentSize := cursor.unprocessedSentSize }
        unprocessedSentSize := 0 }
  else if (holders.holder m).needToSend then
    { cursor with resultMessages := cursor.resultMessages ++ [m] }
  else cursor

/-- `remove_sent_messages_(messages, sent_size)`: the handler, and what is left
in `messages`. -/
def removeSentMessages (handler : SendDescriptorHandler) (holders : Holders)
    (messages : List MessageId) (sentSize : Int) : SendDescriptorHandler × List MessageId :=
  let cursor := messages.foldl (removeMessage holders)
    (removePartly holders ⟨handler, UInt64.ofInt sentSize, []⟩)
  (cursor.handler, cursor.resultMessages)

/-! ## `write()` -/

/-- `error_()` -/
def error : UInt64 := closeReadHandle ||| closeWriteHandle

/-- What `write()` returns when the queue is empty. -/
def queueEmpty : UInt64 := startReadHandle ||| stopWriteHandle

/-- `read()` -/
def read (handler : SendDescriptorHandler) : SendDescriptorHandler × UInt64 :=
  ({ handler with connectFinished := true }, continueHandle)

/-- Where a handler stands in `write()`: what it does next. -/
inductive WritePc
  /-- not in `write()` -/
  | out
  /-- the `pop` at the beginning of the loop body -/
  | loop
  /-- `fill_send_messages_` -/
  | popped (resultMessages : List MessageId)
  /-- `::sendmsg` -/
  | filled (resultMessages : List MessageId)
  /-- `remove_sent_messages_` -/
  | sent (resultMessages : List MessageId) (outcome : SendOutcome)
  /-- `push_front` and the test of `sent_size` -/
  | removed (resultMessages : List MessageId) (outcome : SendOutcome)
  /-- the `return` -/
  | returned (stateModify : UInt64)
  /-- an access outside the language -/
  | undefined (fault : Fault)
  deriving DecidableEq, Repr

/-- The local `result_messages` of `write()`. -/
def WritePc.resultMessages : WritePc → List MessageId
  | .popped messages => messages
  | .filled messages => messages
  | .sent messages _ => messages
  | .removed messages _ => messages
  | _ => []

/-- The messages that begin in the first `size` bytes of the iovecs: those of
which one of these bytes belongs to the body or to the header before it. -/
def startedIn : List IoVec → Nat → List MessageId
  | [], _ => []
  | _, 0 => []
  | ioVec :: rest, size + 1 =>
      let owner := (ioVec :: rest).findSome? fun v =>
        match v.iovBase with
        | .body m _ => some m
        | _ => none
      owner.toList ++ startedIn rest (size + 1 - ioVec.iovLen.toNat)

/-- The messages whose body ends in the first `size` bytes of the iovecs. -/
def finishedIn : List IoVec → Nat → List MessageId
  | [], _ => []
  | ioVec :: rest, size =>
      if ioVec.iovLen.toNat ≤ size then
        let body := match ioVec.iovBase with
          | .body m _ => [m]
          | _ => []
        body ++ finishedIn rest (size - ioVec.iovLen.toNat)
      else []

/-- A handler in `write()`, and the record of its socket: the bytes that it
accepted, the messages in the order in which the handler started to send them,
and those of which it accepted the last byte. -/
structure Writer where
  handler : SendDescriptorHandler
  pc : WritePc
  accepted : List UInt8
  started : List MessageId
  handed : List MessageId
  deriving DecidableEq, Repr

/-- A new handler. -/
def Writer.initial (connectFinished : Bool) : Writer :=
  ⟨.initial connectFinished, .out, [], [], []⟩

/-- The socket accepted `size` bytes of `write_msg_`. -/
def Writer.record (writer : Writer) (bytes : List UInt8) : Writer :=
  { writer with
    accepted := writer.accepted ++ bytes
    started := writer.started ++
      ((startedIn writer.handler.msgIov bytes.length).filter (· ∉ writer.started)).dedup
    handed := writer.handed ++ finishedIn writer.handler.msgIov bytes.length }

/-- The queue, the holders and a writer after an operation. -/
structure WriteResult where
  queue : MessageQueue
  holders : Holders
  writer : Writer

/-- The next operation of a handler in `write()`; a handler outside enters it.
`none` when the result for `::sendmsg` is impossible, or when the handler has
no next operation. -/
def writeStep (order : ByteOrder) (queue : MessageQueue) (holders : Holders)
    (writer : Writer) (outcome : SendOutcome) : Option WriteResult :=
  match writer.pc with
  | .out => some ⟨queue, holders,
      { writer with handler := { writer.handler with connectFinished := true }, pc := .loop }⟩
  | .loop =>
      if queue.PopsInside holders 16000 then
        let popped := queue.pop holders [] 16000
        some ⟨popped.queue, holders,
          { writer with
            pc := if popped.resultMessages = [] then .returned queueEmpty
              else .popped popped.resultMessages }⟩
      else some ⟨queue, holders, { writer with pc := .undefined .outOfBounds }⟩
  | .popped messages =>
      match writer.handler.fillSendMessages holders messages with
      | .error fault => some ⟨queue, holders, { writer with pc := .undefined fault }⟩
      | .ok (handler, true) =>
          some ⟨queue, holders, { writer with handler := handler, pc := .filled messages }⟩
      | .ok (handler, false) =>
          -- `result_messages` goes out of scope
          some ⟨queue, holders, { writer with handler := handler, pc := .loop }⟩
  | .filled messages =>
      match writer.handler.offered order holders with
      | .error fault => some ⟨queue, holders, { writer with pc := .undefined fault }⟩
      | .ok bytes =>
          if outcome.possible bytes.length then
            some ⟨queue, holders,
              { writer.record (outcome.accept bytes) with pc := .sent messages outcome }⟩
          else none
  | .sent messages outcome =>
      let (handler, messages) :=
        writer.handler.removeSentMessages holders messages outcome.sentSize
      some ⟨queue, holders, { writer with handler := handler, pc := .removed messages outcome }⟩
  | .removed messages outcome =>
      let (queue, holders) := queue.pushFront holders messages
      some ⟨queue, holders,
        { writer with
          pc :=
            if outcome.sentSize ≤ 0 then
              if outcome = .failed then .returned error else .returned continueHandle
            else .loop }⟩
  | .returned _ => some ⟨queue, holders, { writer with pc := .out }⟩
  | .undefined _ => none

/-- The operations of `write()`, by the place the handler goes on from. -/
inductive WriteOperation (order : ByteOrder) (queue : MessageQueue) (holders : Holders)
    (writer : Writer) (outcome : SendOutcome) : WriteResult → Prop
  | enter (hpc : writer.pc = .out) :
      WriteOperation order queue holders writer outcome
        ⟨queue, holders,
          { writer with handler := { writer.handler with connectFinished := true }, pc := .loop }⟩
  | pop (hpc : writer.pc = .loop) (hinside : queue.PopsInside holders 16000) :
      WriteOperation order queue holders writer outcome
        ⟨(queue.pop holders [] 16000).queue, holders,
          { writer with pc := .popped (queue.pop holders [] 16000).resultMessages }⟩
  | popFault (hpc : writer.pc = .loop) (houtside : ¬ queue.PopsInside holders 16000) :
      WriteOperation order queue holders writer outcome
        ⟨queue, holders, { writer with pc := .undefined .outOfBounds }⟩
  | fill (messages : List MessageId) (handler : SendDescriptorHandler)
      (hpc : writer.pc = .popped messages)
      (hfill : writer.handler.fillSendMessages holders messages = .ok (handler, true)) :
      WriteOperation order queue holders writer outcome
        ⟨queue, holders, { writer with handler := handler, pc := .filled messages }⟩
  | drop (messages : List MessageId) (handler : SendDescriptorHandler)
      (hpc : writer.pc = .popped messages)
      (hfill : writer.handler.fillSendMessages holders messages = .ok (handler, false)) :
      WriteOperation order queue holders writer outcome
        ⟨queue, holders, { writer with handler := handler, pc := .loop }⟩
  | fillFault (messages : List MessageId) (fault : Fault) (hpc : writer.pc = .popped messages)
      (hfill : writer.handler.fillSendMessages holders messages = .error fault) :
      WriteOperation order queue holders writer outcome
        ⟨queue, holders, { writer with pc := .undefined fault }⟩
  | send (messages : List MessageId) (bytes : List UInt8) (hpc : writer.pc = .filled messages)
      (hoffered : writer.handler.offered order holders = .ok bytes)
      (hpossible : outcome.possible bytes.length) :
      WriteOperation order queue holders writer outcome
        ⟨queue, holders,
          { writer.record (outcome.accept bytes) with pc := .sent messages outcome }⟩
  | sendFault (messages : List MessageId) (fault : Fault) (hpc : writer.pc = .filled messages)
      (hoffered : writer.handler.offered order holders = .error fault) :
      WriteOperation order queue holders writer outcome
        ⟨queue, holders, { writer with pc := .undefined fault }⟩
  | remove (messages : List MessageId) (sent : SendOutcome)
      (hpc : writer.pc = .sent messages sent) :
      WriteOperation order queue holders writer outcome
        ⟨queue, holders,
          { writer with
            handler := (writer.handler.removeSentMessages holders messages sent.sentSize).1
            pc := .removed
              (writer.handler.removeSentMessages holders messages sent.sentSize).2 sent }⟩
  | putBack (messages : List MessageId) (sent : SendOutcome)
      (hpc : writer.pc = .removed messages sent) (hsent : 0 < sent.sentSize) :
      WriteOperation order queue holders writer outcome
        ⟨(queue.pushFront holders messages).1, (queue.pushFront holders messages).2,
          { writer with pc := .loop }⟩
  | giveUp (messages : List MessageId) (sent : SendOutcome)
      (hpc : writer.pc = .removed messages sent) (hsent : sent.sentSize ≤ 0) :
      WriteOperation order queue holders writer outcome
        ⟨(queue.pushFront holders messages).1, (queue.pushFront holders messages).2,
          { writer with
            pc := .returned (if sent = .failed then error else continueHandle) }⟩
  | leave (stateModify : UInt64) (hpc : writer.pc = .returned stateModify) :
      WriteOperation order queue holders writer outcome
        ⟨queue, holders, { writer with pc := .out }⟩

theorem writeStep_cases {order : ByteOrder} {queue : MessageQueue} {holders : Holders}
    {writer : Writer} {outcome : SendOutcome} {result : WriteResult}
    (hstep : writeStep order queue holders writer outcome = some result) :
    WriteOperation order queue holders writer outcome result := by
  unfold writeStep at hstep
  cases hpc : writer.pc with
  | out =>
      rw [hpc] at hstep
      obtain rfl := Option.some.inj hstep
      exact .enter hpc
  | loop =>
      simp only [hpc] at hstep
      by_cases hinside : queue.PopsInside holders 16000
      · -- `result_messages` is not empty when the loop of `pop` has ended with its `break`
        rw [if_pos hinside, if_neg hinside.resultMessages_ne_nil] at hstep
        obtain rfl := Option.some.inj hstep
        exact .pop hpc hinside
      · rw [if_neg hinside] at hstep
        obtain rfl := Option.some.inj hstep
        exact .popFault hpc hinside
  | popped messages =>
      simp only [hpc] at hstep
      cases hfill : writer.handler.fillSendMessages holders messages with
      | error fault =>
          rw [hfill] at hstep
          obtain rfl := Option.some.inj hstep
          exact .fillFault messages fault hpc hfill
      | ok filled =>
          obtain ⟨handler, sending⟩ := filled
          rw [hfill] at hstep
          cases sending with
          | false =>
              obtain rfl := Option.some.inj hstep
              exact .drop messages handler hpc hfill
          | true =>
              obtain rfl := Option.some.inj hstep
              exact .fill messages handler hpc hfill
  | filled messages =>
      simp only [hpc] at hstep
      cases hoffered : writer.handler.offered order holders with
      | error fault =>
          rw [hoffered] at hstep
          obtain rfl := Option.some.inj hstep
          exact .sendFault messages fault hpc hoffered
      | ok bytes =>
          rw [hoffered] at hstep
          dsimp only at hstep
          split at hstep
          · rename_i hpossible
            obtain rfl := Option.some.inj hstep
            exact .send messages bytes hpc hoffered hpossible
          · cases hstep
  | sent messages sent =>
      rw [hpc] at hstep
      obtain rfl := Option.some.inj hstep
      exact .remove messages sent hpc
  | removed messages sent =>
      rw [hpc] at hstep
      obtain rfl := Option.some.inj hstep
      by_cases hsent : sent.sentSize ≤ 0
      · simp only [hsent, if_true, ← apply_ite WritePc.returned]
        exact .giveUp messages sent hpc hsent
      · simp only [hsent, if_false]
        exact .putBack messages sent hpc (Int.not_le.mp hsent)
  | returned stateModify =>
      rw [hpc] at hstep
      obtain rfl := Option.some.inj hstep
      exact .leave stateModify hpc
  | undefined fault =>
      rw [hpc] at hstep
      cases hstep

/-! ## Without a partly sent message -/

theorem foldlM_fillMessage_live {holders : Holders} {ms : List MessageId}
    (hlive : ∀ m ∈ ms, (holders.holder m).expired = 0) (cursor : FillCursor) :
    ms.foldlM (fillMessage holders) cursor = .ok cursor := by
  induction ms with
  | nil => rfl
  | cons m ms ih =>
      have hm : (holders.holder m).needToSend = false := by
        simp [MessageHolder.needToSend, hlive m (List.mem_cons_self ..)]
      rw [List.foldlM_cons, fillMessage, hm, if_neg Bool.false_ne_true, Fault.ok_bind]
      exact ih fun m' hm' => hlive m' (List.mem_cons_of_mem m hm')

theorem foldlM_fillMessage_expired {holders : Holders} {ms : List MessageId}
    {m : MessageId} (hm : m ∈ ms) (hexpired : (holders.holder m).expired ≠ 0)
    {cursor : FillCursor} (hpartly : cursor.handler.partlySentMessage = none) :
    ms.foldlM (fillMessage holders) cursor = .error .nullDereference := by
  induction ms with
  | nil => cases hm
  | cons m' ms ih =>
      rw [List.foldlM_cons, fillMessage]
      by_cases hneed : (holders.holder m').needToSend
      · rw [if_pos hneed, hpartly]
        rfl
      · rw [if_neg hneed, Fault.ok_bind]
        rcases List.mem_cons.mp hm with rfl | hrest
        · exact absurd (by simpa [MessageHolder.needToSend] using hexpired) hneed
        · exact ih hrest

/-- A batch of live messages fills nothing. -/
theorem fillSendMessages_live {handler : SendDescriptorHandler} {holders : Holders}
    {messages : List MessageId} (hpartly : handler.partlySentMessage = none)
    (hlive : ∀ m ∈ messages, (holders.holder m).expired = 0) :
    ∃ handler', handler.fillSendMessages holders messages = .ok (handler', false) ∧
      handler'.partlySentMessage = none := by
  simp only [fillSendMessages, fillPartly, hpartly, Fault.ok_bind,
    foldlM_fillMessage_live hlive]
  exact ⟨_, rfl, rfl⟩

/-- A batch with an expired message dereferences the missing
`partly_sent_message_`. -/
theorem fillSendMessages_expired {handler : SendDescriptorHandler} {holders : Holders}
    {messages : List MessageId} (hpartly : handler.partlySentMessage = none)
    {m : MessageId} (hm : m ∈ messages) (hexpired : (holders.holder m).expired ≠ 0) :
    handler.fillSendMessages holders messages = .error .nullDereference := by
  simp only [fillSendMessages, fillPartly, hpartly, Fault.ok_bind]
  rw [foldlM_fillMessage_expired hm hexpired rfl]
  rfl

theorem live_or_expired (holders : Holders) (messages : List MessageId) :
    (∀ m ∈ messages, (holders.holder m).expired = 0) ∨
      ∃ m ∈ messages, (holders.holder m).expired ≠ 0 := by
  by_cases hlive : ∀ m ∈ messages, (holders.holder m).expired = 0
  · exact Or.inl hlive
  · push Not at hlive
    exact Or.inr hlive

/-- A handler that has never come to `::sendmsg` or to a `return`. -/
structure Writer.Quiet (writer : Writer) : Prop where
  partly : writer.handler.partlySentMessage = none
  accepted : writer.accepted = []
  handed : writer.handed = []
  pc : match writer.pc with
    | .filled _ | .sent _ _ | .removed _ _ | .returned _ => False
    | _ => True

theorem Writer.quiet_initial (connectFinished : Bool) : (Writer.initial connectFinished).Quiet :=
  ⟨rfl, rfl, rfl, trivial⟩

/-- The operations of a handler without a partly sent message. -/
inductive QuietStep (queue : MessageQueue) (holders : Holders) (writer : Writer) :
    WriteResult → Prop
  | enter (hpc : writer.pc = .out) (handler : SendDescriptorHandler) :
      QuietStep queue holders writer
        ⟨queue, holders, { writer with handler := handler, pc := .loop }⟩
  | pop (hpc : writer.pc = .loop) (hinside : queue.PopsInside holders 16000) :
      QuietStep queue holders writer
        ⟨(queue.pop holders [] 16000).queue, holders,
          { writer with pc := .popped (queue.pop holders [] 16000).resultMessages }⟩
  | popFault (hpc : writer.pc = .loop) (houtside : ¬ queue.PopsInside holders 16000) :
      QuietStep queue holders writer
        ⟨queue, holders, { writer with pc := .undefined .outOfBounds }⟩
  | dropBatch (messages : List MessageId) (hpc : writer.pc = .popped messages)
      (hlive : ∀ m ∈ messages, (holders.holder m).expired = 0)
      (handler : SendDescriptorHandler) :
      QuietStep queue holders writer
        ⟨queue, holders, { writer with handler := handler, pc := .loop }⟩
  | fault (messages : List MessageId) (hpc : writer.pc = .popped messages)
      (hexpired : ∃ m ∈ messages, (holders.holder m).expired ≠ 0) :
      QuietStep queue holders writer
        ⟨queue, holders, { writer with pc := .undefined .nullDereference }⟩

/-- Such a handler stays without one, and never comes to `::sendmsg` or to a
`return`. -/
theorem Writer.Quiet.writeStep {order : ByteOrder} {queue : MessageQueue} {holders : Holders}
    {writer : Writer} {outcome : SendOutcome} {result : WriteResult} (h : writer.Quiet)
    (hstep : SendDescriptorHandler.writeStep order queue holders writer outcome = some result) :
    QuietStep queue holders writer result ∧ result.writer.Quiet := by
  obtain ⟨hpartly, haccepted, hhanded, hplace⟩ := h
  cases writeStep_cases hstep with
  | enter hpc => exact ⟨.enter hpc _, hpartly, haccepted, hhanded, trivial⟩
  | pop hpc hinside => exact ⟨.pop hpc hinside, hpartly, haccepted, hhanded, trivial⟩
  | popFault hpc houtside => exact ⟨.popFault hpc houtside, hpartly, haccepted, hhanded, trivial⟩
  | fill messages handler hpc hfill =>
      obtain hlive | ⟨m, hm, hexpired⟩ := live_or_expired holders messages
      · obtain ⟨handler', hpassed, -⟩ := fillSendMessages_live hpartly hlive
        rw [hpassed] at hfill
        cases hfill
      · rw [fillSendMessages_expired hpartly hm hexpired] at hfill
        cases hfill
  | drop messages handler hpc hfill =>
      -- `need_to_send()` returns `expired_`, so live messages are passed over
      obtain hlive | ⟨m, hm, hexpired⟩ := live_or_expired holders messages
      · obtain ⟨handler', hpassed, hpartly'⟩ := fillSendMessages_live hpartly hlive
        obtain ⟨rfl, -⟩ := Prod.mk.inj (Except.ok.inj (hfill.symm.trans hpassed))
        exact ⟨.dropBatch messages hpc hlive handler, hpartly', haccepted, hhanded, trivial⟩
      · rw [fillSendMessages_expired hpartly hm hexpired] at hfill
        cases hfill
  | fillFault messages fault hpc hfill =>
      obtain hlive | ⟨m, hm, hexpired⟩ := live_or_expired holders messages
      · obtain ⟨handler', hpassed, -⟩ := fillSendMessages_live hpartly hlive
        rw [hpassed] at hfill
        cases hfill
      · obtain rfl := Except.error.inj
          (hfill.symm.trans (fillSendMessages_expired hpartly hm hexpired))
        exact ⟨.fault messages hpc ⟨m, hm, hexpired⟩, hpartly, haccepted, hhanded, trivial⟩
  | send messages bytes hpc => simp [hpc] at hplace
  | sendFault messages fault hpc => simp [hpc] at hplace
  | remove messages sent hpc => simp [hpc] at hplace
  | putBack messages sent hpc => simp [hpc] at hplace
  | giveUp messages sent hpc => simp [hpc] at hplace
  | leave stateModify hpc => simp [hpc] at hplace

end SendDescriptorHandler
end LiteMQ
