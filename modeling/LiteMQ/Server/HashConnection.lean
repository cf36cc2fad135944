import LiteMQ.Foundation.Memory
import LiteMQ.Poller.StateChange
import Mathlib.Algebra.Ring.Nat

/-!
# `HashConnectionDescriptorHandler`

The connection handler of the server.  `read()` collects bytes in `read_buf_`,
hands every complete line to `process_input_message_` and shrinks the buffer;
`process_input_message_` appends a response to `write_bufs_`; `write()` offers
the response buffers to `::sendmsg` and `reconfigure_write_bufs_` removes what
the socket accepted.

`::read` and `::sendmsg` are the environment: their results are arguments.
One pass of the loop of `read()` is `readIteration`, one pass of the loop of
`write()` is `writeIteration`; `read` and `write` run the loops on a list of
results.
-/

namespace LiteMQ

open DescriptorHandler

/-- `READ_BLOCK_SIZE_` -/
def readBlockSize : Nat := 128 * 1024

/-- `SHRINK_READ_SIZE_` -/
def shrinkReadSize : Nat := 64 * 1024

/-- `MSG_MAXIOVLEN` of the server -/
def msgMaxIovlen : Nat := 64

/-- The byte `'\n'`. -/
def newline : UInt8 := 10

/-- One element of `write_bufs_`: the list node (its identity is what pointers
into it carry) and the bytes of the vector in it. -/
structure Buf where
  node : Nat
  bytes : List UInt8
  deriving DecidableEq, Repr

/-- `Buf::size()` -/
def Buf.size (buf : Buf) : Nat := buf.bytes.length

/-- A pointer to a byte of one of the vectors in `write_bufs_`. -/
structure BytePtr where
  node : Nat
  offset : Nat
  deriving DecidableEq, Repr

/-- `struct iovec` -/
structure IoVec where
  iovBase : BytePtr
  iovLen : Nat
  deriving DecidableEq, Repr

/-- The two fields of `struct msghdr` that the handler sets.  `msg_iov` points
to the elements of `write_iovec_buf_` whenever it is used. -/
structure MsgHdr where
  msgIov : List IoVec
  msgIovlen : Nat
  deriving DecidableEq, Repr

/-- The state of a `HashConnectionDescriptorHandler`.  `nextNode` is the
identity that the next list node of `write_bufs_` gets. -/
structure HashConnection where
  readProcessedBufPos : Nat
  readBufPos : Nat
  readBuf : List UInt8
  writeBufs : List Buf
  firstWriteBufPos : Nat
  writeIovecBuf : List IoVec
  writeMsg : MsgHdr
  concurrencyCount : Int
  nextNode : Nat
  deriving DecidableEq, Repr

/-- The constructor of `HashConnectionDescriptorHandler`. -/
def HashConnection.initial : HashConnection where
  readProcessedBufPos := 0
  readBufPos := 0
  readBuf := []
  writeBufs := []
  firstWriteBufPos := 0
  writeIovecBuf := []
  writeMsg := ⟨[], 0⟩
  concurrencyCount := 0
  nextNode := 0

/-! ## Response buffers -/

namespace HashConnection

/-- `int p = concurrency_count_++; assert(p == 0);` -/
def enterWriteBufs (h : HashConnection) : Except Fault HashConnection := do
  ensure (h.concurrencyCount = 0) .assertionFailed
  pure { h with concurrencyCount := h.concurrencyCount + 1 }

/-- `int p = concurrency_count_--; assert(p == 1);` -/
def leaveWriteBufs (h : HashConnection) : Except Fault HashConnection := do
  ensure (h.concurrencyCount = 1) .assertionFailed
  pure { h with concurrencyCount := h.concurrencyCount - 1 }

/-- Point `write_msg_` at the elements of `write_iovec_buf_`. -/
def pointWriteMsg (h : HashConnection) : HashConnection :=
  { h with writeMsg := ⟨h.writeIovecBuf, min h.writeIovecBuf.length msgMaxIovlen⟩ }

/-- The two lists of `add_write_buf_` grown by a new buffer with these bytes. -/
def pushWriteBuf (h : HashConnection) (bytes : List UInt8) : HashConnection :=
  { h with
    writeBufs := h.writeBufs ++ [⟨h.nextNode, bytes⟩]
    writeIovecBuf := h.writeIovecBuf ++ [⟨⟨h.nextNode, 0⟩, bytes.length⟩]
    nextNode := h.nextNode + 1 }

/-- `add_write_buf_`: the bytes of `buf` are swapped into a new list node. -/
def addWriteBuf (h : HashConnection) (bytes : List UInt8) : Except Fault HashConnection := do
  let h ← h.enterWriteBufs
  ((h.pushWriteBuf bytes).pointWriteMsg).leaveWriteBufs

/-- The locals of the loop of `reconfigure_write_bufs_`; `sentIt` is the part
of `write_bufs_` from the iterator `sent_it` on. -/
structure SentPos where
  sentIt : List Buf
  sentI : Nat
  prevCurSize : Nat
  curSize : Nat
  deriving DecidableEq, Repr

/-- `while(cur_size <= sent_size)` -/
def skipSentBufs (sentSize : Nat) : List Buf → Nat → Nat → Nat → SentPos
  | [], sentI, prevCurSize, curSize => ⟨[], sentI, prevCurSize, curSize⟩
  | buf :: rest, sentI, prevCurSize, curSize =>
      if curSize ≤ sentSize then
        match rest with
        | [] => ⟨[], sentI + 1, prevCurSize, curSize⟩
        | next :: rest' =>
            skipSentBufs sentSize (next :: rest') (sentI + 1) curSize (curSize + next.size)
      else ⟨buf :: rest, sentI, prevCurSize, curSize⟩

/-- The last element check of `reconfigure_write_bufs_`, after both lists were
erased up to `sent_it`: set the position in the buffer that was cut, and let
the first `iovec` start there. -/
def cutFirstWriteBuf (h : HashConnection) (sentSize : Nat) (pos : SentPos) :
    Except Fault HashConnection :=
  if sentSize < pos.curSize ∧ pos.prevCurSize < sentSize then do
    ensure (h.writeBufs ≠ []) .assertionFailed
    ensure (h.writeBufs.length = h.writeIovecBuf.length) .assertionFailed
    match h.writeBufs, h.writeIovecBuf with
    | buf :: _, _ :: iovecs =>
        let firstWriteBufPos := sentSize - pos.prevCurSize
        ensure (firstWriteBufPos < buf.size) .outOfBounds
        pure { h with
          firstWriteBufPos := firstWriteBufPos
          writeIovecBuf :=
            ⟨⟨buf.node, firstWriteBufPos⟩, buf.size - firstWriteBufPos⟩ :: iovecs }
    | _, _ => .error .outOfBounds
  else pure { h with firstWriteBufPos := 0 }

/-- The body of `if(sent_size > 0)` in `reconfigure_write_bufs_`. -/
def removeSentBufs (h : HashConnection) (sentSize : Nat) : Except Fault HashConnection := do
  ensure (h.writeBufs ≠ []) .assertionFailed
  let pos := skipSentBufs sentSize h.writeBufs 0 0
    ((h.writeBufs.headD ⟨0, []⟩).size - h.firstWriteBufPos)
  ensure (pos.sentI ≤ h.writeIovecBuf.length) .assertionFailed
  let h := { h with
    writeBufs := pos.sentIt
    writeIovecBuf := h.writeIovecBuf.drop pos.sentI }
  let h ← h.cutFirstWriteBuf sentSize pos
  pure h.pointWriteMsg

/-- `reconfigure_write_bufs_` -/
def reconfigureWriteBufs (h : HashConnection) (sentSize : Nat) :
    Except Fault HashConnection := do
  let h ← h.enterWriteBufs
  let h ← if 0 < sentSize then h.removeSentBufs sentSize else pure h
  h.leaveWriteBufs

/-- The total `iov_len` that one `::sendmsg` is offered. -/
def offeredSize (h : HashConnection) : Nat :=
  ((h.writeMsg.msgIov.take h.writeMsg.msgIovlen).map IoVec.iovLen).sum

/-- What `::sendmsg` does: it accepts some of the offered bytes, or returns 0,
or fails with `EAGAIN`/`EWOULDBLOCK`, or fails otherwise. -/
inductive SendResult
  | sent (sentSize : Nat)
  | zero
  | again
  | failed
  deriving DecidableEq, Repr

/-- What one pass of a handler loop leaves: the handler, and the value that
the function returns if the pass left the loop. -/
structure Iteration where
  handler : HashConnection
  returned : Option UInt64
  deriving DecidableEq, Repr

/-- `error_()` -/
def errorMask : UInt64 := closeReadHandle ||| closeWriteHandle

/-- One pass of the loop of `write()`. -/
def writeIteration (h : HashConnection) (result : SendResult) : Except Fault Iteration :=
  if h.writeBufs = [] then .ok ⟨h, some stopWriteHandle⟩
  else
    match result with
    | .sent sentSize => do
        let h ← h.reconfigureWriteBufs sentSize
        pure ⟨h, none⟩
    | .zero => .ok ⟨h, some continueHandle⟩
    | .again => .ok ⟨h, some continueHandle⟩
    | .failed => .ok ⟨h, some errorMask⟩

/-- `write()` on the results of its `::sendmsg` calls; still in the loop when
they are used up. -/
def write (h : HashConnection) : List SendResult → Except Fault Iteration
  | [] => .ok ⟨h, if h.writeBufs = [] then some stopWriteHandle else none⟩
  | result :: results => do
      let iteration ← h.writeIteration result
      match iteration.returned with
      | some mask => pure ⟨iteration.handler, some mask⟩
      | none => iteration.handler.write results

/-! ## Input lines -/

/-- `process_input_message_`: whatever the message, the response is seven `'0'`
and a newline. -/
def processInputMessage (h : HashConnection) (_message : List UInt8) :
    Except Fault HashConnection :=
  h.addWriteBuf (List.replicate 7 48 ++ [newline])

/-- The bytes stored by one successful `::read`. -/
structure ReadBlock where
  bytes : List UInt8
  bytes_pos : 0 < bytes.length
  bytes_le : bytes.length ≤ readBlockSize

/-- What `::read` does: it stores some bytes, or returns 0 at the end of the
stream, or fails with `EAGAIN`/`EWOULDBLOCK`, or fails otherwise. -/
inductive ReadResult
  | block (block : ReadBlock)
  | closed
  | again
  | failed

/-- Make room for a block of `READ_BLOCK_SIZE_` bytes at `read_buf_pos_`. -/
def prepareReadBuf (h : HashConnection) : HashConnection :=
  if h.readBuf.length < h.readBufPos + readBlockSize then
    { h with readBuf := Buffer.resize h.readBuf (h.readBufPos + readBlockSize) 0 }
  else h

/-- The bytes in `[read_processed_buf_pos_, read_buf_pos_)`. -/
def unprocessed (h : HashConnection) : List UInt8 :=
  Buffer.slice h.readBuf h.readProcessedBufPos h.readBufPos

/-- `std::find` of the next newline: its position, or `read_buf_pos_`. -/
def findNewline (h : HashConnection) : Except Fault Nat := do
  ensure (h.readProcessedBufPos ≤ h.readBufPos ∧ h.readBufPos ≤ h.readBuf.length) .outOfBounds
  pure (h.readProcessedBufPos + h.unprocessed.idxOf newline)

/-- The loop over the newlines found, with at most `bound` passes; `messages`
are the messages handed to `process_input_message_` so far. -/
def processLines : Nat → HashConnection → List (List UInt8) →
    Except Fault (HashConnection × List (List UInt8))
  | 0, _, _ => .error .loopBound
  | bound + 1, h, messages => do
      let nlPos ← h.findNewline
      if nlPos = h.readBufPos then pure (h, messages)
      else do
        let message := Buffer.slice h.readBuf h.readProcessedBufPos nlPos
        let h ← h.processInputMessage message
        processLines bound { h with readProcessedBufPos := nlPos + 1 } (messages ++ [message])

/-- Move the unprocessed bytes to the front of the buffer once more than
`SHRINK_READ_SIZE_` bytes are processed. -/
def shrinkReadBuf (h : HashConnection) : Except Fault HashConnection :=
  if shrinkReadSize < h.readProcessedBufPos then do
    let readBuf ← Buffer.copyDown h.readBuf h.readProcessedBufPos 0
      (h.readBufPos - h.readProcessedBufPos)
    pure { h with
      readBuf := readBuf
      readBufPos := h.readBufPos - h.readProcessedBufPos
      readProcessedBufPos := 0 }
  else pure h

/-- The part of the loop of `read()` after some bytes were read. -/
def acceptBlock (h : HashConnection) (bytes : List UInt8) :
    Except Fault (HashConnection × List (List UInt8)) := do
  let readBuf ← Buffer.storeRange h.readBuf h.readBufPos bytes
  let h := { h with readBuf := readBuf, readBufPos := h.readBufPos + bytes.length }
  let (h, messages) ← processLines (h.readBufPos - h.readProcessedBufPos + 1) h []
  ensure (h.readProcessedBufPos ≤ h.readBufPos) .assertionFailed
  let h ← h.shrinkReadBuf
  pure (h, messages)

/-- One pass of the loop of `read()`: what is left, and the messages handed to
`process_input_message_` in it. -/
def readIteration (h : HashConnection) (result : ReadResult) :
    Except Fault (Iteration × List (List UInt8)) := do
  let h := h.prepareReadBuf
  -- the whole block that `::read` may fill has to lie in the buffer
  ensure (h.readBufPos + readBlockSize ≤ h.readBuf.length) .outOfBounds
  match result with
  | .again =>
      pure (⟨h, some (if h.writeBufs ≠ [] then startWriteHandle else stopWriteHandle)⟩, [])
  | .failed => pure (⟨h, some errorMask⟩, [])
  | .closed =>
      pure (⟨h, some (closeReadHandle |||
        (if h.writeBufs ≠ [] then startWriteHandle else closeWriteHandle))⟩, [])
  | .block block => do
      let (h, messages) ← h.acceptBlock block.bytes
      pure (⟨h, none⟩, messages)

/-- `read()` on the results of its `::read` calls; still in the loop when they
are used up. -/
def read (h : HashConnection) : List ReadResult →
    Except Fault (Iteration × List (List UInt8))
  | [] => .ok (⟨h, none⟩, [])
  | result :: results => do
      let (iteration, messages) ← h.readIteration result
      match iteration.returned with
      | some mask => pure (⟨iteration.handler, some mask⟩, messages)
      | none => do
          let (iteration, later) ← iteration.handler.read results
          pure (iteration, messages ++ later)

end HashConnection

end LiteMQ
