import LiteMQ.Foundation.Lines
import LiteMQ.Foundation.TransitionSystem
import LiteMQ.Server.WriteBufs

/-!
# The input lines of a connection

However the bytes of a connection are cut into `::read` results, the handler
passes on the complete lines received so far and keeps the unfinished last line
in `[read_processed_buf_pos_, read_buf_pos_)`.

`Framed` is the invariant.  `processLines_spec` is the loop over the newlines of
one block, `framed_readIteration` one pass of the loop of `read()`, and
`input_framing` a whole run, in which passes of `write()` may come at any
place.  No run faults: every access of `read()` stays inside `read_buf_`.
-/

namespace LiteMQ
namespace HashConnection

open DescriptorHandler Lines

/-- The positions lie inside `read_buf_` and in order. -/
structure ReadBufOk (h : HashConnection) : Prop where
  processed_le : h.readProcessedBufPos ≤ h.readBufPos
  pos_le : h.readBufPos ≤ h.readBuf.length

/-- After `received` was read and `messages` were passed on. -/
structure Framed (h : HashConnection) (received : List UInt8)
    (messages : List (List UInt8)) : Prop where
  writeBufs : h.WriteBufsOk
  readBuf : h.ReadBufOk
  lines : ∀ message ∈ messages, newline ∉ message
  unfinished : newline ∉ h.unprocessed
  received : received = terminated newline messages ++ h.unprocessed

theorem framed_initial : HashConnection.initial.Framed [] [] where
  writeBufs := writeBufsOk_initial
  readBuf := ⟨Nat.le_refl _, Nat.le_refl _⟩
  lines := by simp
  unfinished := by simp [unprocessed, HashConnection.initial, Buffer.slice]
  received := by simp [unprocessed, HashConnection.initial, Buffer.slice]

theorem length_unprocessed {h : HashConnection} (hok : h.ReadBufOk) :
    h.unprocessed.length = h.readBufPos - h.readProcessedBufPos :=
  Buffer.length_slice hok.pos_le

/-! ## The loop over the newlines -/

/-- `process_input_message_` succeeds and leaves the read buffer alone. -/
theorem processInputMessage_spec {h : HashConnection} (hok : h.WriteBufsOk)
    (message : List UInt8) :
    ∃ h', h.processInputMessage message = .ok h' ∧ h'.WriteBufsOk ∧
      h'.readBuf = h.readBuf ∧ h'.readBufPos = h.readBufPos ∧
      h'.readProcessedBufPos = h.readProcessedBufPos := by
  have hresponse : List.replicate 7 48 ++ [newline] ≠ [] := by simp
  obtain ⟨h', hadd, hok', -, hframe⟩ := addWriteBuf_spec hok hresponse
  exact ⟨h', hadd, hok', by rw [hframe], by rw [hframe], by rw [hframe]⟩

/-- The loop passes on every line that ends in the window and stops at the
unfinished one.  With more passes than bytes in the window it never runs out. -/
theorem processLines_spec {bound : Nat} {h : HashConnection} (hread : h.ReadBufOk)
    (hwrite : h.WriteBufsOk) (hbound : h.readBufPos - h.readProcessedBufPos < bound)
    (messages : List (List UInt8)) :
    ∃ h' new, processLines bound h messages = .ok (h', messages ++ new) ∧
      h'.readBuf = h.readBuf ∧ h'.readBufPos = h.readBufPos ∧
      h'.ReadBufOk ∧ h'.WriteBufsOk ∧ newline ∉ h'.unprocessed ∧
      (∀ message ∈ new, newline ∉ message) ∧
      h.unprocessed = terminated newline new ++ h'.unprocessed := by
  -- each pass takes a line with its newline out of the window, so the bound falls with it
  induction bound generalizing h messages with
  | zero => omega
  | succ bound ih =>
      have hlen := length_unprocessed hread
      have hfind : h.findNewline =
          .ok (h.readProcessedBufPos + h.unprocessed.idxOf newline) := by
        rw [findNewline, ensure_of_true _ ⟨hread.processed_le, hread.pos_le⟩]
        rfl
      have hle := hread.processed_le
      by_cases hmem : newline ∈ h.unprocessed
      · -- a line ends in the window: pass it on and continue behind its newline
        have hlt : h.unprocessed.idxOf newline < h.unprocessed.length :=
          List.idxOf_lt_length_of_mem hmem
        generalize hidx : h.unprocessed.idxOf newline = idx at *
        have hcut := eq_take_idxOf_append hmem
        have hline := notMem_take_idxOf newline h.unprocessed
        rw [hidx] at hcut hline
        have hmessage : Buffer.slice h.readBuf h.readProcessedBufPos
            (h.readProcessedBufPos + idx) = h.unprocessed.take idx := by
          rw [unprocessed, Buffer.slice, Buffer.slice, List.take_take]
          congr 1
          omega
        obtain ⟨h₁, hprocess, hwrite₁, hbuf₁, hpos₁, -⟩ :=
          processInputMessage_spec hwrite (h.unprocessed.take idx)
        have hrest : Buffer.slice h.readBuf (h.readProcessedBufPos + idx + 1) h.readBufPos =
            h.unprocessed.drop (idx + 1) := by
          rw [unprocessed, Buffer.slice, Buffer.slice, List.drop_take, List.drop_drop]
          congr 1
          omega
        let h₂ := { h₁ with readProcessedBufPos := h.readProcessedBufPos + idx + 1 }
        have hunprocessed : h₂.unprocessed = h.unprocessed.drop (idx + 1) := by
          rw [← hrest, unprocessed]
          simp only [h₂, hbuf₁, hpos₁]
        obtain ⟨h', new, hloop, hbuf, hpos, hread', hwrite', hstop, hnew, hlines⟩ :=
          @ih h₂ ⟨by simp only [h₂, hpos₁]; omega, by simpa [h₂, hpos₁, hbuf₁] using hread.pos_le⟩
            ⟨⟨hwrite₁.nonempty, hwrite₁.nodes_lt, hwrite₁.nodes_nodup, hwrite₁.pos_lt,
              hwrite₁.pos_zero, hwrite₁.iovecs⟩, hwrite₁.msg, hwrite₁.idle⟩
            (by simp only [h₂, hpos₁]; omega) (messages ++ [h.unprocessed.take idx])
        refine ⟨h', h.unprocessed.take idx :: new, ?_, hbuf.trans hbuf₁, hpos.trans hpos₁,
          hread', hwrite', hstop, ?_, ?_⟩
        · rw [processLines, hfind, Fault.ok_bind, if_neg (by omega)]
          simp only [hmessage, hprocess, Fault.ok_bind]
          rw [hloop]
          simp
        · intro message hmessage
          rcases List.mem_cons.mp hmessage with hfirst | hlater
          · exact hfirst ▸ hline
          · exact hnew message hlater
        · rw [terminated_cons, List.append_assoc, List.cons_append, ← hlines, hunprocessed]
          exact hcut
      · -- no newline is found: the window is the unfinished line
        have hend : h.readProcessedBufPos + h.unprocessed.idxOf newline = h.readBufPos := by
          rw [List.idxOf_of_notMem hmem, hlen]
          omega
        refine ⟨h, [], ?_, rfl, rfl, hread, hwrite, hmem, by simp, by simp⟩
        rw [processLines, hfind, Fault.ok_bind, if_pos hend, List.append_nil]
        rfl

/-! ## One pass of the loop of `read()` -/

/-- Two handlers with the same write buffers. -/
theorem WriteBufsOk.of_eq {h h' : HashConnection} (hok : h.WriteBufsOk)
    (heq : h' = { h with
      readProcessedBufPos := h'.readProcessedBufPos
      readBufPos := h'.readBufPos
      readBuf := h'.readBuf }) : h'.WriteBufsOk := by
  rw [heq]
  exact ⟨⟨hok.nonempty, hok.nodes_lt, hok.nodes_nodup, hok.pos_lt, hok.pos_zero, hok.iovecs⟩,
    hok.msg, hok.idle⟩

/-- Growing the buffer keeps the window and makes room for one block. -/
theorem prepareReadBuf_spec {h : HashConnection} (hok : h.ReadBufOk) :
    h.prepareReadBuf.readBufPos + readBlockSize ≤ h.prepareReadBuf.readBuf.length ∧
      h.prepareReadBuf.ReadBufOk ∧ h.prepareReadBuf.unprocessed = h.unprocessed ∧
      (h.WriteBufsOk → h.prepareReadBuf.WriteBufsOk) := by
  unfold prepareReadBuf
  split
  · rename_i hshort
    refine ⟨by simp, ⟨hok.processed_le, by simp⟩, ?_, fun hwrite => hwrite.of_eq rfl⟩
    have hgrown : h.readBuf.length ≤ h.readBufPos + readBlockSize := Nat.le_of_lt hshort
    simp only [unprocessed, Buffer.resize_of_le 0 hgrown]
    exact Buffer.slice_append_of_le hok.pos_le _
  · rename_i hroom
    exact ⟨by omega, hok, rfl, id⟩

/-- Shrinking moves the window to the front and keeps what it holds. -/
theorem shrinkReadBuf_spec {h : HashConnection} (hok : h.ReadBufOk) :
    ∃ h', h.shrinkReadBuf = .ok h' ∧ h'.ReadBufOk ∧ h'.unprocessed = h.unprocessed ∧
      h' = { h with
        readProcessedBufPos := h'.readProcessedBufPos
        readBufPos := h'.readBufPos
        readBuf := h'.readBuf } := by
  have hle := hok.processed_le
  have hpos := hok.pos_le
  unfold shrinkReadBuf
  split
  · rename_i hlong
    -- the bytes move down to `0`, over places that were processed
    obtain ⟨readBuf, hcopy, hlen, hslice⟩ :=
      @Buffer.copyDown_eq_ok _ h.readBuf h.readProcessedBufPos 0
        (h.readBufPos - h.readProcessedBufPos) (by omega) (by omega)
    rw [hcopy, Fault.ok_bind]
    refine ⟨_, rfl, ⟨Nat.zero_le _, ?_⟩, ?_, rfl⟩
    · simp only [hlen]
      omega
    · simp only [unprocessed]
      rw [Nat.zero_add, Nat.add_sub_cancel' hle] at hslice
      exact hslice
  · exact ⟨h, rfl, hok, rfl, rfl⟩

/-- A block of bytes that has room: its complete lines are passed on. -/
theorem acceptBlock_spec {h : HashConnection} {received : List UInt8}
    {messages : List (List UInt8)} (hframed : h.Framed received messages) {bytes : List UInt8}
    (hroom : h.readBufPos + bytes.length ≤ h.readBuf.length) :
    ∃ h' new, h.acceptBlock bytes = .ok (h', new) ∧
      h'.Framed (received ++ bytes) (messages ++ new) := by
  have hle := hframed.readBuf.processed_le
  have hpos := hframed.readBuf.pos_le
  let h₁ : HashConnection :=
    { h with
      readBuf := h.readBuf.take h.readBufPos ++ bytes ++
        h.readBuf.drop (h.readBufPos + bytes.length)
      readBufPos := h.readBufPos + bytes.length }
  have hread₁ : h₁.ReadBufOk := ⟨by simp only [h₁]; omega, by simp [h₁]; omega⟩
  have hwrite₁ : h₁.WriteBufsOk := hframed.writeBufs.of_eq rfl
  have hwindow : h₁.unprocessed = h.unprocessed ++ bytes :=
    Buffer.slice_storeRange hle hroom
  obtain ⟨h₂, new, hloop, -, -, hread₂, hwrite₂, hstop, hnew, hlines⟩ :=
    processLines_spec hread₁ hwrite₁ (Nat.lt_succ_self _) []
  obtain ⟨h₃, hshrink, hread₃, hkept, hframe⟩ := shrinkReadBuf_spec hread₂
  refine ⟨h₃, new, ?_, ⟨hwrite₂.of_eq hframe, hread₃, ?_, by rwa [hkept], ?_⟩⟩
  · rw [acceptBlock, Buffer.storeRange_eq_ok hroom, Fault.ok_bind]
    show (processLines (h₁.readBufPos - h₁.readProcessedBufPos + 1) h₁ [] >>= _) = _
    rw [hloop, Fault.ok_bind]
    simp only [ensure_of_true _ hread₂.processed_le, hshrink, Fault.ok_bind]
    rfl
  · intro message hmessage
    rcases List.mem_append.mp hmessage with hold | hnew'
    · exact hframed.lines message hold
    · exact hnew message hnew'
  · rw [hframed.received, terminated_append, List.append_assoc, ← hwindow, hlines, hkept,
      List.append_assoc]

/-- The bytes that a `::read` stored. -/
def ReadResult.bytes : ReadResult → List UInt8
  | .block stored => stored.bytes
  | _ => []

/-- Whether a `::read` stored bytes, so that the loop of `read()` goes on. -/
def ReadResult.isBlock : ReadResult → Bool
  | .block _ => true
  | _ => false

/-- Whatever `::read` returns, one pass of the loop succeeds and frames the bytes
that it stored. -/
theorem framed_readIteration {h : HashConnection} {received : List UInt8}
    {messages : List (List UInt8)} (hframed : h.Framed received messages)
    (result : ReadResult) :
    ∃ iteration new, h.readIteration result = .ok (iteration, new) ∧
      iteration.returned.isNone = result.isBlock ∧
      iteration.handler.Framed (received ++ result.bytes) (messages ++ new) := by
  obtain ⟨hroom, hread, hwindow, hwrite⟩ := prepareReadBuf_spec hframed.readBuf
  have hframed' : h.prepareReadBuf.Framed received messages := by
    refine ⟨hwrite hframed.writeBufs, hread, hframed.lines, ?_, ?_⟩
    · rw [hwindow]
      exact hframed.unfinished
    · rw [hwindow]
      exact hframed.received
  cases result with
  | block block =>
      have hfits : h.prepareReadBuf.readBufPos + block.bytes.length ≤
          h.prepareReadBuf.readBuf.length :=
        Nat.le_trans (Nat.add_le_add_left block.bytes_le _) hroom
      obtain ⟨h', new, haccept, hnew⟩ := acceptBlock_spec hframed' hfits
      refine ⟨⟨h', none⟩, new, ?_, rfl, hnew⟩
      simp only [readIteration, ensure_of_true _ hroom, Fault.ok_bind, haccept]
      rfl
  | closed | again | failed =>
      simp only [readIteration, ensure_of_true _ hroom, Fault.ok_bind, ReadResult.bytes,
        List.append_nil]
      exact ⟨_, [], rfl, rfl, by simpa using hframed'⟩

/-- The bytes that one call of `read()` stores: up to the first result that is
not a block. -/
def storedBytes : List ReadResult → List UInt8
  | [] => []
  | result :: results =>
      result.bytes ++ if result.isBlock then storedBytes results else []

/-- A call of `read()` succeeds and frames the bytes that it stores. -/
theorem framed_read {h : HashConnection} {received : List UInt8}
    {messages : List (List UInt8)} (hframed : h.Framed received messages)
    (results : List ReadResult) :
    ∃ iteration new, h.read results = .ok (iteration, new) ∧
      iteration.handler.Framed (received ++ storedBytes results) (messages ++ new) := by
  induction results generalizing h received messages with
  | nil => exact ⟨⟨h, none⟩, [], rfl, by simpa [storedBytes] using hframed⟩
  | cons result results ih =>
      obtain ⟨iteration, new, hiteration, hblock, hframed'⟩ :=
        framed_readIteration hframed result
      cases hreturned : iteration.returned with
      | some mask =>
          rw [hreturned, Option.isNone_some] at hblock
          refine ⟨⟨iteration.handler, some mask⟩, new, ?_, ?_⟩
          · simp only [read, hiteration, Fault.ok_bind, hreturned]
            rfl
          · simpa [storedBytes, ← hblock] using hframed'
      | none =>
          rw [hreturned, Option.isNone_none] at hblock
          obtain ⟨last, later, hread, hlast⟩ := ih hframed'
          refine ⟨last, new ++ later, ?_, ?_⟩
          · simp only [read, hiteration, Fault.ok_bind, hreturned, hread]
            rfl
          · simpa [storedBytes, ← hblock] using hlast

/-- The results that `::sendmsg` can have: it accepts at least one and at most
all of the bytes it is offered. -/
def Admits (h : HashConnection) : SendResult → Prop
  | .sent sentSize => 1 ≤ sentSize ∧ sentSize ≤ h.offeredSize
  | _ => True

instance (h : HashConnection) : ∀ result, Decidable (h.Admits result)
  | .sent _ => inferInstanceAs (Decidable (_ ∧ _))
  | .zero | .again | .failed => inferInstanceAs (Decidable True)

/-- A pass of `write()` leaves the read side alone. -/
theorem framed_writeIteration {h : HashConnection} {received : List UInt8}
    {messages : List (List UInt8)} (hframed : h.Framed received messages) {result : SendResult}
    (hresult : h.Admits result) :
    ∃ iteration, h.writeIteration result = .ok iteration ∧
      iteration.handler.Framed received messages := by
  by_cases hempty : h.writeBufs = []
  · exact ⟨⟨h, some stopWriteHandle⟩, if_pos hempty, hframed⟩
  · cases result with
    | sent sentSize =>
        have hpos : 1 ≤ sentSize := hresult.1
        have hle : sentSize ≤ h.pending.length :=
          Nat.le_trans hresult.2 (offeredSize_le hframed.writeBufs)
        obtain ⟨buf, rest, hbufs⟩ := List.exists_cons_of_ne_nil hempty
        obtain ⟨h', hconf, hok', -, hframe⟩ :=
          reconfigureWriteBufs_spec hframed.writeBufs hpos hle hbufs
        refine ⟨⟨h', none⟩, ?_, ?_⟩
        · rw [writeIteration, if_neg hempty]
          simp only [hconf, Fault.ok_bind, pure, Except.pure]
        · have hread : h'.ReadBufOk := by
            rw [hframe]
            exact ⟨hframed.readBuf.processed_le, hframed.readBuf.pos_le⟩
          have hwindow : h'.unprocessed = h.unprocessed := by
            rw [hframe]
            rfl
          exact ⟨hok', hread, hframed.lines, hwindow ▸ hframed.unfinished,
            hwindow ▸ hframed.received⟩
    | zero | again | failed =>
        exact ⟨_, if_neg hempty, hframed⟩

end HashConnection

/-! ## Runs -/

namespace InputStream

open HashConnection

/-- A connection with the bytes it received and the messages it passed on. -/
structure State where
  handler : Except Fault HashConnection
  received : List UInt8
  messages : List (List UInt8)

/-- A call of `read()`, up to the results it has seen, or a pass of `write()`. -/
inductive Action
  | read (results : List ReadResult)
  | write (result : SendResult)

/-- One call of `read()` or one pass of `write()`.  `::sendmsg` accepts at most
what it is offered; a fault ends the run. -/
def step (s : State) (a : Action) : Option State :=
  match s.handler with
  | .error _ => none
  | .ok h =>
      match a with
      | .read results =>
          match h.read results with
          | .ok (iteration, new) =>
              some ⟨.ok iteration.handler, s.received ++ storedBytes results, s.messages ++ new⟩
          | .error fault => some { s with handler := .error fault }
      | .write result =>
          if h.Admits result then
            match h.writeIteration result with
            | .ok iteration => some { s with handler := .ok iteration.handler }
            | .error fault => some { s with handler := .error fault }
          else none

/-- The input side of one connection. -/
def inputStream : TransitionSystem State Action := ⟨⟨.ok .initial, [], []⟩, step⟩

/-- The complete lines of what was received, without their terminators. -/
def completeLines (received : List UInt8) : List (List UInt8) :=
  (received.splitOn newline).dropLast

/-- The bytes behind the last newline received. -/
def unfinishedLine (received : List UInt8) : List UInt8 :=
  (received.splitOn newline).getLastD []

/-- The handler runs without a fault and its input is framed. -/
def Invariant (s : State) : Prop :=
  ∃ h, s.handler = .ok h ∧ h.Framed s.received s.messages

theorem Invariant.step {s t : State} {a : Action} (hs : Invariant s)
    (hstep : InputStream.step s a = some t) : Invariant t := by
  obtain ⟨h, hok, hframed⟩ := hs
  cases a with
  | read results =>
      obtain ⟨iteration, new, hread, hframed'⟩ := framed_read hframed results
      simp only [InputStream.step, hok, hread] at hstep
      obtain rfl := Option.some.inj hstep
      exact ⟨iteration.handler, rfl, hframed'⟩
  | write result =>
      by_cases hadmits : h.Admits result
      · obtain ⟨iteration, hwrite, hframed'⟩ := framed_writeIteration hframed hadmits
        simp only [InputStream.step, hok, if_pos hadmits, hwrite] at hstep
        obtain rfl := Option.some.inj hstep
        exact ⟨iteration.handler, rfl, hframed'⟩
      · simp [InputStream.step, hok, if_neg hadmits] at hstep

/-- A call of `read()` is possible in every state of a run. -/
theorem exists_step_read {s : State} (hs : Invariant s) (results : List ReadResult) :
    ∃ t, inputStream.step s (.read results) = some t ∧
      t.received = s.received ++ storedBytes results := by
  obtain ⟨h, hok, hframed⟩ := hs
  obtain ⟨iteration, new, hread, -⟩ := framed_read hframed results
  exact ⟨⟨.ok iteration.handler, s.received ++ storedBytes results, s.messages ++ new⟩,
    by simp only [inputStream, InputStream.step, hok, hread], rfl⟩

theorem invariant_init : Invariant inputStream.init := ⟨.initial, rfl, framed_initial⟩

/-- What framing says in terms of the received bytes alone. -/
theorem lines_of_framed {h : HashConnection} {received : List UInt8}
    {messages : List (List UInt8)} (hframed : h.Framed received messages) :
    messages = completeLines received ∧ h.unprocessed = unfinishedLine received := by
  have hsplit : received.splitOn newline = messages ++ [h.unprocessed] := by
    rw [hframed.received]
    exact Lines.splitOn_terminated_append hframed.lines hframed.unfinished
  constructor
  · rw [completeLines, hsplit, List.dropLast_concat]
  · rw [unfinishedLine, hsplit, List.getLastD_concat]

/-- After any run, however the bytes were cut into blocks and spread over calls
of `read()`, the messages passed on are the complete lines received, the window
holds the unfinished line, and no access left `read_buf_`. -/
theorem input_framing {actions : List Action} {t : State}
    (hrun : inputStream.run inputStream.init actions = some t) :
    ∃ h, t.handler = .ok h ∧
      t.messages = completeLines t.received ∧
      h.unprocessed = unfinishedLine t.received ∧
      h.readProcessedBufPos ≤ h.readBufPos ∧ h.readBufPos ≤ h.readBuf.length := by
  have hend : Invariant t :=
    TransitionSystem.run_preserves (fun _ _ _ hs hstep => hs.step hstep) invariant_init hrun
  obtain ⟨h, hok, hframed⟩ := hend
  obtain ⟨hmessages, hwindow⟩ := lines_of_framed hframed
  exact ⟨h, hok, hmessages, hwindow, hframed.readBuf.processed_le, hframed.readBuf.pos_le⟩

/-- A line that comes in two blocks and with the beginning of the next one. -/
theorem input_framing_two_blocks :
    ∃ t, inputStream.run inputStream.init
        [.read [.block ⟨[97], by decide, by decide⟩, .block ⟨[98, 10, 99], by decide, by decide⟩,
          .again]] = some t ∧ t.messages = [[97, 98]] := by
  obtain ⟨t, hstep, hreceived⟩ := exists_step_read invariant_init
    [.block ⟨[97], by decide, by decide⟩, .block ⟨[98, 10, 99], by decide, by decide⟩, .again]
  have hrun := (inputStream.run_cons_eq_some).mpr ⟨t, hstep, inputStream.run_nil t⟩
  obtain ⟨-, -, hmessages, -⟩ := input_framing hrun
  have hlines : completeLines [97, 98, 10, 99] = [[97, 98]] := by decide
  exact ⟨t, hrun, hmessages.trans (hreceived ▸ hlines)⟩

end InputStream
end LiteMQ
