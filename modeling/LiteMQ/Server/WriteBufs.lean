import LiteMQ.Server.HashConnection

/-!
# The response buffers of the server

`WriteBufsOk` is the representation invariant of `write_bufs_`,
`write_iovec_buf_`, `first_write_buf_pos_` and `write_msg_`, and `pending` is
what they stand for: the bytes still to be sent.  `addWriteBuf_spec` and
`reconfigureWriteBufs_spec` say that both operations succeed, keep the
invariant, and what they do to `pending`.

`reconfigure_write_bufs_` folds the old position into the sizes it compares
but not into the position it stores.  So a send that ends inside a buffer whose
beginning was sent before leaves that position too small
(`pending_of_cut_again`); every other send removes exactly the sent bytes.
-/

namespace LiteMQ
namespace HashConnection

/-- The `iovec` of a whole buffer. -/
def wholeIoVec (buf : Buf) : IoVec := ⟨⟨buf.node, 0⟩, buf.size⟩

/-- The `iovec`s of the buffers, the first one from `pos` on. -/
def describe : List Buf → Nat → List IoVec
  | [], _ => []
  | buf :: rest, pos => ⟨⟨buf.node, pos⟩, buf.size - pos⟩ :: rest.map wholeIoVec

/-- The size of all buffers together. -/
def totalSize (bufs : List Buf) : Nat := (bufs.map Buf.size).sum

/-- The bytes of all buffers together. -/
def allBytes (bufs : List Buf) : List UInt8 := (bufs.map Buf.bytes).flatten

/-- The lists of buffers and of `iovec`s agree. -/
structure BufsOk (h : HashConnection) : Prop where
  nonempty : ∀ buf ∈ h.writeBufs, 0 < buf.size
  nodes_lt : ∀ buf ∈ h.writeBufs, buf.node < h.nextNode
  nodes_nodup : (h.writeBufs.map Buf.node).Nodup
  pos_lt : ∀ buf ∈ h.writeBufs.head?, h.firstWriteBufPos < buf.size
  pos_zero : h.writeBufs = [] → h.firstWriteBufPos = 0
  iovecs : h.writeIovecBuf = describe h.writeBufs h.firstWriteBufPos

/-- The representation invariant of the response buffers between two
operations. -/
structure WriteBufsOk (h : HashConnection) : Prop extends BufsOk h where
  msg : h.writeMsg = ⟨h.writeIovecBuf, min h.writeIovecBuf.length msgMaxIovlen⟩
  idle : h.concurrencyCount = 0

/-- The handler left with these buffers, the first of them sent up to `pos`. -/
def withWriteBufs (h : HashConnection) (bufs : List Buf) (pos : Nat) : HashConnection :=
  ({ h with
    writeBufs := bufs
    firstWriteBufPos := pos
    writeIovecBuf := describe bufs pos } : HashConnection).pointWriteMsg

/-- The response bytes still to be sent. -/
def pending (h : HashConnection) : List UInt8 :=
  (allBytes h.writeBufs).drop h.firstWriteBufPos

@[simp] theorem totalSize_nil : totalSize [] = 0 := rfl

@[simp] theorem totalSize_cons (buf : Buf) (rest : List Buf) :
    totalSize (buf :: rest) = buf.size + totalSize rest := by
  simp [totalSize]

@[simp] theorem allBytes_nil : allBytes [] = [] := rfl

@[simp] theorem allBytes_cons (buf : Buf) (rest : List Buf) :
    allBytes (buf :: rest) = buf.bytes ++ allBytes rest := by
  simp [allBytes]

@[simp] theorem allBytes_append (xs ys : List Buf) :
    allBytes (xs ++ ys) = allBytes xs ++ allBytes ys := by
  simp [allBytes]

@[simp] theorem length_allBytes (bufs : List Buf) :
    (allBytes bufs).length = totalSize bufs := by
  induction bufs with
  | nil => rfl
  | cons buf rest ih => simp [ih, Buf.size]

@[simp] theorem length_describe (bufs : List Buf) (pos : Nat) :
    (describe bufs pos).length = bufs.length := by
  cases bufs <;> simp [describe]

theorem describe_zero (bufs : List Buf) : describe bufs 0 = bufs.map wholeIoVec := by
  cases bufs <;> rfl

theorem describe_append_whole {bufs : List Buf} {pos : Nat} (buf : Buf)
    (hpos : bufs = [] → pos = 0) :
    describe (bufs ++ [buf]) pos = describe bufs pos ++ [wholeIoVec buf] := by
  cases bufs with
  | nil =>
      obtain rfl := hpos rfl
      rfl
  | cons first rest => simp [describe]

/-- The first buffer is still unsent from the position on. -/
theorem pending_cons {h : HashConnection} {buf : Buf} {rest : List Buf}
    (hok : h.BufsOk) (hbufs : h.writeBufs = buf :: rest) :
    h.pending = buf.bytes.drop h.firstWriteBufPos ++ allBytes rest := by
  have hlt : h.firstWriteBufPos < buf.size := hok.pos_lt buf (by simp [hbufs])
  rw [pending, hbufs, allBytes_cons, List.drop_append_of_le_length (Nat.le_of_lt hlt)]

theorem BufsOk.pos_le_totalSize {h : HashConnection} (hok : h.BufsOk) :
    h.firstWriteBufPos ≤ totalSize h.writeBufs := by
  cases hbufs : h.writeBufs with
  | nil => exact Nat.le_of_eq (hok.pos_zero hbufs)
  | cons buf rest =>
      have hlt := hok.pos_lt buf (by simp [hbufs])
      rw [totalSize_cons]
      omega

theorem sum_iovLen_describe {bufs : List Buf} {pos : Nat}
    (hpos : ∀ buf ∈ bufs.head?, pos < buf.size) :
    ((describe bufs pos).map IoVec.iovLen).sum = totalSize bufs - pos := by
  cases bufs with
  | nil => simp [describe]
  | cons buf rest =>
      have hlt : pos < buf.size := hpos buf rfl
      have hrest : rest.map (IoVec.iovLen ∘ wholeIoVec) = rest.map Buf.size := rfl
      rw [describe, List.map_cons, List.sum_cons, List.map_map, hrest, totalSize_cons, totalSize]
      show buf.size - pos + (rest.map Buf.size).sum = buf.size + (rest.map Buf.size).sum - pos
      omega

/-- No more bytes are offered to `::sendmsg` than are pending. -/
theorem offeredSize_le {h : HashConnection} (hok : h.WriteBufsOk) :
    h.offeredSize ≤ h.pending.length := by
  have hall := sum_iovLen_describe hok.pos_lt
  rw [← hok.iovecs, ← List.take_append_drop h.writeMsg.msgIovlen h.writeIovecBuf,
    List.map_append, List.sum_append] at hall
  have hmsg : h.writeMsg.msgIov = h.writeIovecBuf := by rw [hok.msg]
  rw [offeredSize, hmsg, pending, List.length_drop, length_allBytes, ← hall]
  exact Nat.le_add_right _ _

theorem writeBufsOk_initial : HashConnection.initial.WriteBufsOk where
  nonempty := by simp [HashConnection.initial]
  nodes_lt := by simp [HashConnection.initial]
  nodes_nodup := by simp [HashConnection.initial]
  pos_lt := by simp [HashConnection.initial]
  pos_zero := fun _ => rfl
  iovecs := rfl
  msg := rfl
  idle := rfl

theorem enterWriteBufs_eq {h : HashConnection} (hidle : h.concurrencyCount = 0) :
    h.enterWriteBufs = .ok { h with concurrencyCount := 1 } := by
  simp [enterWriteBufs, hidle, pure, Except.pure]

theorem leaveWriteBufs_eq {h : HashConnection} (hbusy : h.concurrencyCount = 1) :
    h.leaveWriteBufs = .ok { h with concurrencyCount := 0 } := by
  simp [leaveWriteBufs, hbusy, pure, Except.pure]

/-! ## `add_write_buf_` -/

/-- A non-empty buffer in a new node keeps the invariant; it is described from
its beginning. -/
theorem BufsOk.pushWriteBuf {h : HashConnection} (hok : h.BufsOk) {bytes : List UInt8}
    (hbytes : bytes ≠ []) : (h.pushWriteBuf bytes).BufsOk := by
  have hlen : 0 < bytes.length := List.length_pos_iff.mpr hbytes
  refine ⟨?_, ?_, ?_, ?_, ?_, ?_⟩
  · intro buf hbuf
    rcases List.mem_append.mp hbuf with hold | hnew
    · exact hok.nonempty buf hold
    · obtain rfl := List.mem_singleton.mp hnew
      exact hlen
  · intro buf hbuf
    rcases List.mem_append.mp hbuf with hold | hnew
    · exact Nat.lt_succ_of_lt (hok.nodes_lt buf hold)
    · obtain rfl := List.mem_singleton.mp hnew
      exact Nat.lt_succ_self _
  · show ((h.writeBufs ++ [Buf.mk h.nextNode bytes]).map Buf.node).Nodup
    rw [List.map_append, List.nodup_append]
    refine ⟨hok.nodes_nodup, by simp, ?_⟩
    intro node hnode new hnew
    obtain ⟨buf, hbuf, rfl⟩ := List.mem_map.mp hnode
    have hlt := hok.nodes_lt buf hbuf
    simp only [List.map_cons, List.map_nil, List.mem_singleton] at hnew
    exact Nat.ne_of_lt (hnew ▸ hlt)
  · intro buf hbuf
    cases hbufs : h.writeBufs with
    | nil =>
        have hzero := hok.pos_zero hbufs
        simp only [HashConnection.pushWriteBuf, hbufs, List.nil_append, List.head?_cons,
          Option.mem_some_iff] at hbuf ⊢
        subst hbuf
        -- the new buffer is the first one
        rw [hzero]
        exact hlen
    | cons first rest =>
        simp only [HashConnection.pushWriteBuf, hbufs, List.cons_append, List.head?_cons,
          Option.mem_some_iff] at hbuf ⊢
        exact hok.pos_lt buf (by simp [hbufs, hbuf])
  · intro hnil
    simp [HashConnection.pushWriteBuf] at hnil
  · show h.writeIovecBuf ++ [⟨⟨h.nextNode, 0⟩, bytes.length⟩] = _
    rw [hok.iovecs]
    exact (describe_append_whole (Buf.mk h.nextNode bytes) hok.pos_zero).symm

/-- Adding a non-empty buffer succeeds and appends its bytes. -/
theorem addWriteBuf_spec {h : HashConnection} (hok : h.WriteBufsOk) {bytes : List UInt8}
    (hbytes : bytes ≠ []) :
    ∃ h', h.addWriteBuf bytes = .ok h' ∧ h'.WriteBufsOk ∧ h'.pending = h.pending ++ bytes ∧
      h' = { h with
        writeBufs := h'.writeBufs, writeIovecBuf := h'.writeIovecBuf
        writeMsg := h'.writeMsg, nextNode := h'.nextNode } := by
  have hpushed := hok.toBufsOk.pushWriteBuf hbytes
  have hle : h.firstWriteBufPos ≤ (allBytes h.writeBufs).length :=
    (length_allBytes _).symm ▸ hok.pos_le_totalSize
  refine ⟨{ (h.pushWriteBuf bytes).pointWriteMsg with concurrencyCount := 0 }, ?_, ?_, ?_, ?_⟩
  · rw [addWriteBuf, enterWriteBufs_eq hok.idle, Fault.ok_bind, leaveWriteBufs_eq rfl]
    rfl
  · exact ⟨⟨hpushed.nonempty, hpushed.nodes_lt, hpushed.nodes_nodup, hpushed.pos_lt,
      hpushed.pos_zero, hpushed.iovecs⟩, rfl, rfl⟩
  · show (allBytes (h.writeBufs ++ [Buf.mk h.nextNode bytes])).drop h.firstWriteBufPos = _
    rw [allBytes_append, List.drop_append_of_le_length hle, pending]
    simp
  · simp [pushWriteBuf, pointWriteMsg, hok.idle]

/-! ## `reconfigure_write_bufs_` -/

/-- Where the loop over the sent buffers stops: inside the first buffer, inside
a later one, or behind the last one. -/
theorem skipSentBufs_cases (sentSize : Nat) (rest : List Buf) (buf : Buf)
    (sentI prevCurSize curSize : Nat) :
    (sentSize < curSize ∧ skipSentBufs sentSize (buf :: rest) sentI prevCurSize curSize =
        ⟨buf :: rest, sentI, prevCurSize, curSize⟩) ∨
    (∃ skipped cut rest', rest = skipped ++ cut :: rest' ∧
        curSize + totalSize skipped ≤ sentSize ∧
        sentSize < curSize + totalSize skipped + cut.size ∧
        skipSentBufs sentSize (buf :: rest) sentI prevCurSize curSize =
          ⟨cut :: rest', sentI + 1 + skipped.length, curSize + totalSize skipped,
            curSize + totalSize skipped + cut.size⟩) ∨
    (curSize + totalSize rest ≤ sentSize ∧ ∃ prev,
        skipSentBufs sentSize (buf :: rest) sentI prevCurSize curSize =
          ⟨[], sentI + 1 + rest.length, prev, curSize + totalSize rest⟩) := by
  -- each pass of the loop has one buffer less and larger sizes
  induction rest generalizing buf sentI prevCurSize curSize with
  | nil =>
      by_cases hle : curSize ≤ sentSize
      · exact Or.inr (Or.inr ⟨by simpa using hle, prevCurSize, by simp [skipSentBufs, hle]⟩)
      · exact Or.inl ⟨by omega, by simp [skipSentBufs, hle]⟩
  | cons next rest ih =>
      by_cases hle : curSize ≤ sentSize
      · have hstep : skipSentBufs sentSize (buf :: next :: rest) sentI prevCurSize curSize =
            skipSentBufs sentSize (next :: rest) (sentI + 1) curSize (curSize + next.size) := by
          rw [skipSentBufs, if_pos hle]
        rw [hstep]
        rcases ih next (sentI + 1) curSize (curSize + next.size) with
          ⟨hlt, heq⟩ | ⟨skipped, cut, rest', hrest, hlow, hhigh, heq⟩ | ⟨hlow, prev, heq⟩
        · exact Or.inr (Or.inl ⟨[], next, rest, rfl, by simpa using hle, by simpa using hlt,
            by simpa using heq⟩)
        · refine Or.inr (Or.inl ⟨next :: skipped, cut, rest', by simp [hrest], ?_, ?_, ?_⟩)
          · rw [totalSize_cons]; omega
          · rw [totalSize_cons]; omega
          · rw [heq, totalSize_cons, List.length_cons]
            congr 1 <;> omega
        · refine Or.inr (Or.inr ⟨by rw [totalSize_cons]; omega, prev, ?_⟩)
          rw [heq, totalSize_cons, List.length_cons]
          congr 1 <;> omega
      · exact Or.inl ⟨by omega, by rw [skipSentBufs, if_neg hle]⟩

/-- Removing the first buffers up to a suffix of the list, whose first buffer is
then cut at `pos`, keeps the invariant. -/
theorem writeBufsOk_withWriteBufs {h : HashConnection} (hok : h.WriteBufsOk)
    {removed bufs : List Buf} (hbufs : h.writeBufs = removed ++ bufs) {pos : Nat}
    (hpos : ∀ buf ∈ bufs.head?, pos < buf.size) (hzero : bufs = [] → pos = 0) :
    (h.withWriteBufs bufs pos).WriteBufsOk where
  nonempty buf hbuf := hok.nonempty buf (hbufs ▸ List.mem_append_right _ hbuf)
  nodes_lt buf hbuf := hok.nodes_lt buf (hbufs ▸ List.mem_append_right _ hbuf)
  nodes_nodup := by
    have hnodup := hok.nodes_nodup
    rw [hbufs, List.map_append] at hnodup
    exact (List.nodup_append.mp hnodup).2.1
  pos_lt := hpos
  pos_zero := hzero
  iovecs := rfl
  msg := rfl
  idle := hok.idle

/-- What the definition does once the position of the loop is known to be in
range. -/
theorem removeSentBufs_eq {h : HashConnection} {sentSize : Nat} {buf : Buf} {rest : List Buf}
    (hok : h.BufsOk) (hbufs : h.writeBufs = buf :: rest) {pos : SentPos}
    (hskip : skipSentBufs sentSize (buf :: rest) 0 0 (buf.size - h.firstWriteBufPos) = pos)
    (hle : pos.sentI ≤ rest.length + 1) :
    h.removeSentBufs sentSize = (({ h with
      writeBufs := pos.sentIt
      writeIovecBuf := (describe (buf :: rest) h.firstWriteBufPos).drop pos.sentI } :
        HashConnection).cutFirstWriteBuf sentSize pos >>= fun h => pure h.pointWriteMsg) := by
  have hiovecs : h.writeIovecBuf = describe (buf :: rest) h.firstWriteBufPos := by
    rw [hok.iovecs, hbufs]
  rw [removeSentBufs, ensure_of_true _ (by simp [hbufs]), Fault.ok_bind]
  simp only [hbufs, List.headD_cons, hskip, hiovecs]
  rw [ensure_of_true _ (by simpa using hle), Fault.ok_bind]

/-- Removing what was sent: the loop's position decides which buffers stay and
where the first of them is cut. -/
theorem removeSentBufs_spec {h : HashConnection} {sentSize : Nat} {buf : Buf} {rest : List Buf}
    (hok : h.BufsOk) (hsent : 0 < sentSize) (hle : sentSize ≤ h.pending.length)
    (hbufs : h.writeBufs = buf :: rest) :
    ∃ removed bufs pos, h.writeBufs = removed ++ bufs ∧
      (∀ b ∈ bufs.head?, pos < b.size) ∧ (bufs = [] → pos = 0) ∧
      h.removeSentBufs sentSize = .ok (h.withWriteBufs bufs pos) ∧
      (allBytes bufs).drop pos =
        if h.firstWriteBufPos = 0 ∨ buf.size - h.firstWriteBufPos ≤ sentSize then
          h.pending.drop sentSize
        else (allBytes h.writeBufs).drop sentSize := by
  have hpos : h.firstWriteBufPos < buf.size := hok.pos_lt buf (by simp [hbufs])
  have hpend := pending_cons hok hbufs
  have hlen : h.pending.length = buf.size - h.firstWriteBufPos + totalSize rest := by
    rw [hpend]
    simp [Buf.size]
  rcases skipSentBufs_cases sentSize rest buf 0 0 (buf.size - h.firstWriteBufPos) with
    ⟨hlt, heq⟩ | ⟨skipped, cut, rest', hrest, hlow, hhigh, heq⟩ | ⟨hlow, prev, heq⟩
  · -- the send ended inside the first buffer: the stored position is `sentSize`
    refine ⟨[], buf :: rest, sentSize, by rw [hbufs]; rfl, ?_, by simp, ?_, ?_⟩
    · intro b hb
      obtain rfl : buf = b := by simpa using hb
      omega
    · rw [removeSentBufs_eq hok hbufs heq (Nat.zero_le _)]
      have hcut : sentSize < buf.size := by omega
      simp [cutFirstWriteBuf, hlt, hsent, describe, hcut, withWriteBufs, pure, Except.pure]
    · by_cases hzero : h.firstWriteBufPos = 0
      · rw [if_pos (Or.inl hzero), hpend, hzero]
        simp
      · rw [if_neg (by omega), hbufs]
  · -- the send ended inside a later buffer, or right before it
    have hlenSkipped : skipped.length ≤ rest.length := by
      rw [hrest]
      simp
    have hdrop : (describe (buf :: rest) h.firstWriteBufPos).drop (0 + 1 + skipped.length) =
        (cut :: rest').map wholeIoVec := by
      rw [describe, hrest, List.map_append,
        show 0 + 1 + skipped.length = skipped.length + 1 by omega,
        List.drop_succ_cons, List.drop_left' (by simp)]
    generalize hprev : buf.size - h.firstWriteBufPos + totalSize skipped = prevCurSize at *
    refine ⟨buf :: skipped, cut :: rest', sentSize - prevCurSize,
      by rw [hbufs, hrest]; rfl, ?_, by simp, ?_, ?_⟩
    · intro b hb
      obtain rfl : cut = b := by simpa using hb
      omega
    · rw [removeSentBufs_eq hok hbufs heq (by simp; omega), hdrop]
      by_cases hcut : prevCurSize < sentSize
      · have hlt : sentSize - prevCurSize < cut.size := by omega
        simp [cutFirstWriteBuf, hhigh, hcut, hlt, describe, withWriteBufs, pure, Except.pure]
      · have hexact : sentSize - prevCurSize = 0 := by omega
        rw [hexact, cutFirstWriteBuf, if_neg (fun hboth => hcut hboth.2), withWriteBufs,
          describe_zero]
        rfl
    · have hfirst : (buf.bytes.drop h.firstWriteBufPos ++ allBytes skipped).length =
          prevCurSize := by
        rw [← hprev]
        simp [Buf.size]
      rw [if_pos (Or.inr (by omega)), hpend, hrest, allBytes_append, ← List.append_assoc,
        List.drop_append, List.drop_of_length_le (hfirst.trans_le (by omega)), hfirst,
        List.nil_append]
  · -- everything was sent
    have hall : (describe (buf :: rest) h.firstWriteBufPos).length = 0 + 1 + rest.length := by
      rw [length_describe, List.length_cons]
      omega
    refine ⟨buf :: rest, [], 0, by rw [hbufs]; simp, by simp, fun _ => rfl, ?_, ?_⟩
    · rw [removeSentBufs_eq hok hbufs heq (by simp; omega), cutFirstWriteBuf,
        if_neg (fun hboth => ?_),
        List.drop_of_length_le (Nat.le_of_eq hall)]
      · rfl
      · exact absurd hboth.1 (by simpa using hlow)
    · rw [if_pos (Or.inr (by omega)), List.drop_of_length_le (by omega : h.pending.length ≤ _)]
      rfl

/-- `reconfigure_write_bufs_` succeeds, keeps the invariant, and removes exactly
the sent bytes, except for a send that ends inside a buffer whose beginning was
sent before. -/
theorem reconfigureWriteBufs_spec {h : HashConnection} {sentSize : Nat} {buf : Buf}
    {rest : List Buf} (hok : h.WriteBufsOk) (hsent : 0 < sentSize)
    (hle : sentSize ≤ h.pending.length) (hbufs : h.writeBufs = buf :: rest) :
    ∃ h', h.reconfigureWriteBufs sentSize = .ok h' ∧ h'.WriteBufsOk ∧
      (h'.pending =
        if h.firstWriteBufPos = 0 ∨ buf.size - h.firstWriteBufPos ≤ sentSize then
          h.pending.drop sentSize
        else (allBytes h.writeBufs).drop sentSize) ∧
      h' = { h with
        writeBufs := h'.writeBufs, firstWriteBufPos := h'.firstWriteBufPos
        writeIovecBuf := h'.writeIovecBuf, writeMsg := h'.writeMsg } := by
  have hbusy : BufsOk { h with concurrencyCount := 1 } :=
    ⟨hok.nonempty, hok.nodes_lt, hok.nodes_nodup, hok.pos_lt, hok.pos_zero, hok.iovecs⟩
  obtain ⟨removed, bufs, pos, hsplit, hlt, hzero, hremove, hpend⟩ :=
    removeSentBufs_spec hbusy hsent hle hbufs
  refine ⟨h.withWriteBufs bufs pos, ?_, writeBufsOk_withWriteBufs hok hsplit hlt hzero, hpend, rfl⟩
  rw [reconfigureWriteBufs, enterWriteBufs_eq hok.idle, Fault.ok_bind, if_pos hsent, hremove]
  simp only [Fault.ok_bind]
  rw [leaveWriteBufs_eq rfl, ← hok.idle]
  rfl

end HashConnection
end LiteMQ
