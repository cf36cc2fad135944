import LiteMQ.Foundation.TransitionSystem
import LiteMQ.Server.WriteBufs

/-!
# The response stream of a connection

A run interleaves `add_write_buf_` with passes of `write()` in which
`::sendmsg` accepts some of the offered bytes.  `accepted` and `added` record
what the socket took and what the buffers were given.

What is offered is read through the pointers of `write_iovec_buf_`
(`derefIoVecs`), so a dangling or wrong pointer shows.  `describedBytes_eq`
says that they always point to `pending`.

* `streamExact_iff_noRepeatedCut`: a run keeps the stream exact if and only if
  no send ends inside a buffer that an earlier send cut already.
* `response_repeated`: otherwise the socket gets bytes twice.
-/

namespace LiteMQ
namespace ResponseStream

open HashConnection TransitionSystem

/-- The bytes at which an `iovec` points, if they are bytes of a live buffer. -/
def derefIoVec (bufs : List Buf) (iovec : IoVec) : Option (List UInt8) :=
  (bufs.find? fun buf => buf.node = iovec.iovBase.node).bind fun buf =>
    if iovec.iovBase.offset + iovec.iovLen ≤ buf.size then
      some ((buf.bytes.drop iovec.iovBase.offset).take iovec.iovLen)
    else none

/-- The bytes at which a list of `iovec`s points. -/
def derefIoVecs (bufs : List Buf) : List IoVec → Option (List UInt8)
  | [] => some []
  | iovec :: iovecs => do
      let first ← derefIoVec bufs iovec
      let rest ← derefIoVecs bufs iovecs
      pure (first ++ rest)

/-- The bytes that `write_iovec_buf_` describes. -/
def describedBytes (h : HashConnection) : Option (List UInt8) :=
  derefIoVecs h.writeBufs h.writeIovecBuf

/-- The bytes that `::sendmsg(fd_, &write_msg_, 0)` is offered. -/
def offeredBytes (h : HashConnection) : Option (List UInt8) :=
  derefIoVecs h.writeBufs (h.writeMsg.msgIov.take h.writeMsg.msgIovlen)

/-- A connection with the bytes its socket accepted and the bytes its buffers
were given so far. -/
structure State where
  handler : HashConnection
  accepted : List UInt8
  added : List UInt8
  deriving DecidableEq, Repr

inductive Action
  | addWriteBuf (bytes : List UInt8)
  | sent (sentSize : Nat)
  deriving DecidableEq, Repr

/-- One operation on the response buffers.  Only non-empty buffers are added,
and a successful `::sendmsg` accepts between one and all offered bytes. -/
def step (s : State) : Action → Option State
  | .addWriteBuf bytes =>
      if bytes = [] then none
      else
        match s.handler.addWriteBuf bytes with
        | .ok handler => some ⟨handler, s.accepted, s.added ++ bytes⟩
        | .error _ => none
  | .sent sentSize =>
      if s.handler.writeBufs ≠ [] ∧ 1 ≤ sentSize ∧ sentSize ≤ s.handler.offeredSize then
        match offeredBytes s.handler, s.handler.writeIteration (.sent sentSize) with
        | some bytes, .ok iteration =>
            some ⟨iteration.handler, s.accepted ++ bytes.take sentSize, s.added⟩
        | _, _ => none
      else none

/-- The response buffers of one connection. -/
def responseStream : TransitionSystem State Action := ⟨⟨.initial, [], []⟩, step⟩

/-- What the socket accepted, followed by what is still described, is what was
added. -/
def StreamExact (s : State) : Prop :=
  ∃ rest, describedBytes s.handler = some rest ∧ s.accepted ++ rest = s.added

/-- The send does not end inside the first buffer after that buffer was cut by
an earlier send. -/
def NoRepeatedCut (s : State) : Action → Prop
  | .addWriteBuf _ => True
  | .sent sentSize => ∀ buf ∈ s.handler.writeBufs.head?,
      s.handler.firstWriteBufPos = 0 ∨ buf.size - s.handler.firstWriteBufPos ≤ sentSize

instance (s : State) : ∀ a, Decidable (NoRepeatedCut s a)
  | .addWriteBuf _ => inferInstanceAs (Decidable True)
  | .sent sentSize => inferInstanceAs (Decidable (∀ buf ∈ s.handler.writeBufs.head?,
      s.handler.firstWriteBufPos = 0 ∨ buf.size - s.handler.firstWriteBufPos ≤ sentSize))

/-! ## What the pointers point to -/

/-- A node finds its own buffer. -/
theorem find?_node {bufs : List Buf} (hnodup : (bufs.map Buf.node).Nodup) {buf : Buf}
    (hbuf : buf ∈ bufs) : (bufs.find? fun b => b.node = buf.node) = some buf := by
  induction bufs with
  | nil => cases hbuf
  | cons first rest ih =>
      rw [List.map_cons, List.nodup_cons] at hnodup
      rcases List.mem_cons.mp hbuf with hfirst | hrest
      · subst hfirst
        simp
      · have hne : first.node ≠ buf.node := fun heq =>
          hnodup.1 (heq ▸ List.mem_map_of_mem hrest)
        rw [List.find?_cons_of_neg (by simpa using hne)]
        exact ih hnodup.2 hrest

theorem derefIoVec_from {bufs : List Buf} (hnodup : (bufs.map Buf.node).Nodup) {buf : Buf}
    (hbuf : buf ∈ bufs) {pos : Nat} (hpos : pos ≤ buf.size) :
    derefIoVec bufs ⟨⟨buf.node, pos⟩, buf.size - pos⟩ = some (buf.bytes.drop pos) := by
  have hin : pos + (buf.size - pos) ≤ buf.size := by omega
  rw [derefIoVec, find?_node hnodup hbuf, Option.bind_some, if_pos hin,
    List.take_of_length_le (by simp [Buf.size])]

theorem derefIoVecs_wholeIoVec {bufs : List Buf} (hnodup : (bufs.map Buf.node).Nodup)
    {rest : List Buf} (hrest : ∀ buf ∈ rest, buf ∈ bufs) :
    derefIoVecs bufs (rest.map wholeIoVec) = some (allBytes rest) := by
  induction rest with
  | nil => rfl
  | cons buf rest ih =>
      have hfirst : derefIoVec bufs (wholeIoVec buf) = some buf.bytes :=
        derefIoVec_from hnodup (hrest buf (List.mem_cons_self ..)) (Nat.zero_le _)
      rw [List.map_cons, derefIoVecs, hfirst,
        ih fun b hb => hrest b (List.mem_cons_of_mem _ hb), allBytes_cons]
      rfl

theorem derefIoVecs_append (bufs : List Buf) (xs ys : List IoVec) :
    derefIoVecs bufs (xs ++ ys) = (do
      let front ← derefIoVecs bufs xs
      let back ← derefIoVecs bufs ys
      pure (front ++ back)) := by
  induction xs with
  | nil => cases hys : derefIoVecs bufs ys <;> simp [derefIoVecs, hys]
  | cons iovec xs ih =>
      rw [List.cons_append, derefIoVecs, derefIoVecs, ih]
      cases derefIoVec bufs iovec <;> cases derefIoVecs bufs xs <;>
        cases derefIoVecs bufs ys <;> simp

theorem length_derefIoVec {bufs : List Buf} {iovec : IoVec} {bytes : List UInt8}
    (h : derefIoVec bufs iovec = some bytes) : bytes.length = iovec.iovLen := by
  obtain ⟨buf, -, hbuf⟩ := Option.bind_eq_some_iff.mp h
  split at hbuf
  · rename_i hin
    obtain rfl := Option.some.inj hbuf
    simp only [List.length_take, List.length_drop]
    rw [Buf.size] at hin
    omega
  · cases hbuf

theorem length_derefIoVecs {bufs : List Buf} {iovecs : List IoVec} {bytes : List UInt8}
    (h : derefIoVecs bufs iovecs = some bytes) :
    bytes.length = (iovecs.map IoVec.iovLen).sum := by
  induction iovecs generalizing bytes with
  | nil =>
      obtain rfl : [] = bytes := by simpa [derefIoVecs] using h
      rfl
  | cons iovec iovecs ih =>
      simp only [derefIoVecs, Option.bind_eq_bind, Option.bind_eq_some_iff, Option.pure_def,
        Option.some.injEq] at h
      obtain ⟨front, hfront, back, hback, rfl⟩ := h
      rw [List.length_append, length_derefIoVec hfront, ih hback, List.map_cons, List.sum_cons]

/-- What `write_iovec_buf_` describes are the bytes still to be sent. -/
theorem describedBytes_eq {h : HashConnection} (hok : h.BufsOk) :
    describedBytes h = some h.pending := by
  rw [describedBytes, hok.iovecs]
  cases hbufs : h.writeBufs with
  | nil => simp [describe, derefIoVecs, pending, hbufs]
  | cons buf rest =>
      have hpos : h.firstWriteBufPos < buf.size := hok.pos_lt buf (by simp [hbufs])
      have hnodup := hok.nodes_nodup
      rw [hbufs] at hnodup
      have hfirst := derefIoVec_from hnodup (List.mem_cons_self ..) (Nat.le_of_lt hpos)
      have hrest := derefIoVecs_wholeIoVec hnodup fun b hb => List.mem_cons_of_mem buf hb
      rw [describe, derefIoVecs, hfirst, hrest, pending_cons hok hbufs]
      rfl

/-- What `::sendmsg` is offered is the beginning of what is described. -/
theorem offeredBytes_spec {h : HashConnection} (hok : h.WriteBufsOk) :
    ∃ offered rest, offeredBytes h = some offered ∧ h.pending = offered ++ rest ∧
      offered.length = h.offeredSize := by
  have hmsg : h.writeMsg.msgIov = h.writeIovecBuf := by rw [hok.msg]
  have hall := describedBytes_eq hok.toBufsOk
  rw [describedBytes, ← List.take_append_drop h.writeMsg.msgIovlen h.writeIovecBuf,
    derefIoVecs_append] at hall
  simp only [Option.bind_eq_bind, Option.bind_eq_some_iff, Option.pure_def,
    Option.some.injEq] at hall
  obtain ⟨offered, hoffered, rest, -, hpending⟩ := hall
  rw [← hmsg] at hoffered
  exact ⟨offered, rest, hoffered, hpending.symm, length_derefIoVecs hoffered⟩

/-- A send of at most what was offered: the iteration does not fault, and what was accepted
is the beginning of what was pending. -/
theorem writeIteration_sent {h : HashConnection} (hok : h.WriteBufsOk) {sentSize : Nat}
    (hne : h.writeBufs ≠ []) (hpos : 1 ≤ sentSize) (hle : sentSize ≤ h.offeredSize) :
    ∃ offered handler buf rest, offeredBytes h = some offered ∧
      h.writeIteration (.sent sentSize) = .ok ⟨handler, none⟩ ∧ h.writeBufs = buf :: rest ∧
      offered.take sentSize = h.pending.take sentSize ∧ sentSize ≤ h.pending.length ∧
      handler.WriteBufsOk ∧
      handler.pending =
        if h.firstWriteBufPos = 0 ∨ buf.size - h.firstWriteBufPos ≤ sentSize then
          h.pending.drop sentSize
        else (allBytes h.writeBufs).drop sentSize := by
  obtain ⟨buf, rest, hbufs⟩ := List.exists_cons_of_ne_nil hne
  obtain ⟨offered, tail, hoffered, hpending, hsize⟩ := offeredBytes_spec hok
  have hsent : sentSize ≤ h.pending.length := by
    rw [hpending, List.length_append]
    omega
  obtain ⟨handler, hconf, hok', hrest, -⟩ := reconfigureWriteBufs_spec hok hpos hsent hbufs
  have hiteration : h.writeIteration (.sent sentSize) = .ok ⟨handler, none⟩ := by
    rw [writeIteration, if_neg hne]
    simp only [hconf, Fault.ok_bind, pure, Except.pure]
  have htake : offered.take sentSize = h.pending.take sentSize := by
    rw [hpending, List.take_append_of_le_length (by omega)]
  exact ⟨offered, handler, buf, rest, hoffered, hiteration, hbufs, htake, hsent, hok', hrest⟩

/-! ## Steps and runs -/

/-- The bytes accepted and the bytes still pending, in this order. -/
def State.stream (s : State) : List UInt8 := s.accepted ++ s.handler.pending

/-- What a step does to the stream: a new buffer goes to its end, and a send
leaves it alone unless it ends inside a buffer that was cut before. -/
theorem step_cases {s t : State} {a : Action} (hok : s.handler.WriteBufsOk)
    (hstep : step s a = some t) :
    t.handler.WriteBufsOk ∧
      ((∃ bytes, a = .addWriteBuf bytes ∧ t.added = s.added ++ bytes ∧
          t.stream = s.stream ++ bytes) ∨
        (∃ sentSize buf rest, a = .sent sentSize ∧ s.handler.writeBufs = buf :: rest ∧
          t.added = s.added ∧
          t.accepted = s.accepted ++ s.handler.pending.take sentSize ∧
          t.accepted.length = s.accepted.length + sentSize ∧
          t.handler.pending =
            if s.handler.firstWriteBufPos = 0 ∨
                buf.size - s.handler.firstWriteBufPos ≤ sentSize then
              s.handler.pending.drop sentSize
            else (allBytes s.handler.writeBufs).drop sentSize)) := by
  cases a with
  | addWriteBuf bytes =>
      by_cases hbytes : bytes = []
      · simp [step, hbytes] at hstep
      · obtain ⟨handler, hadd, hok', hpending, -⟩ := addWriteBuf_spec hok hbytes
        rw [step, if_neg hbytes, hadd] at hstep
        obtain rfl := Option.some.inj hstep
        exact ⟨hok', Or.inl ⟨bytes, rfl, rfl, by simp [State.stream, hpending]⟩⟩
  | sent sentSize =>
      by_cases henabled : s.handler.writeBufs ≠ [] ∧ 1 ≤ sentSize ∧
          sentSize ≤ s.handler.offeredSize
      · obtain ⟨offered, handler, buf, rest, hoffered, hiteration, hbufs, htake, hsent, hok',
          hrest⟩ := writeIteration_sent hok henabled.1 henabled.2.1 henabled.2.2
        simp only [step, if_pos henabled, hoffered, hiteration] at hstep
        obtain rfl := Option.some.inj hstep
        refine ⟨hok', Or.inr ⟨sentSize, buf, rest, rfl, hbufs, rfl, by rw [htake], ?_, hrest⟩⟩
        rw [htake, List.length_append, List.length_take]
        omega
      · simp [step, if_neg henabled] at hstep

/-- The stream is what was added. -/
structure Exact (s : State) : Prop where
  ok : s.handler.WriteBufsOk
  stream : s.stream = s.added

/-- More bytes were accepted or are pending than were added. -/
structure Repeated (s : State) : Prop where
  ok : s.handler.WriteBufsOk
  longer : s.added.length < s.stream.length

theorem Exact.step {s t : State} {a : Action} (hs : Exact s) (hguard : NoRepeatedCut s a)
    (hstep : step s a = some t) : Exact t := by
  obtain ⟨hok, ⟨bytes, rfl, hadded, hstream⟩ |
    ⟨sentSize, buf, rest, rfl, hbufs, hadded, haccepted, -, hpending⟩⟩ := step_cases hs.ok hstep
  · exact ⟨hok, by rw [hstream, hadded, hs.stream]⟩
  · have hcut := hguard buf (by simp [hbufs])
    rw [if_pos hcut] at hpending
    refine ⟨hok, ?_⟩
    rw [State.stream, haccepted, hpending, hadded, List.append_assoc, List.take_append_drop]
    exact hs.stream

/-- A send that cuts a buffer a second time puts bytes back that were sent. -/
theorem Exact.step_repeats {s t : State} {a : Action} (hs : Exact s)
    (hguard : ¬ NoRepeatedCut s a) (hstep : ResponseStream.step s a = some t) : Repeated t := by
  obtain ⟨hok, ⟨bytes, rfl, -, -⟩ |
    ⟨sentSize, buf, rest, rfl, hbufs, hadded, -, hlen, hpending⟩⟩ := step_cases hs.ok hstep
  · exact absurd trivial hguard
  · have hcut : ¬ (s.handler.firstWriteBufPos = 0 ∨
        buf.size - s.handler.firstWriteBufPos ≤ sentSize) := fun hcut =>
      hguard fun b hb => by
        obtain rfl : buf = b := by simpa [hbufs] using hb
        exact hcut
    -- the bytes are dropped from the beginning of the buffer, not from the first cut
    rw [if_neg hcut] at hpending
    have hbuf : buf.size ≤ (allBytes s.handler.writeBufs).length := by
      rw [hbufs, length_allBytes, totalSize_cons]
      omega
    have hbefore : s.added.length =
        s.accepted.length +
          ((allBytes s.handler.writeBufs).length - s.handler.firstWriteBufPos) := by
      rw [← hs.stream, State.stream, List.length_append, pending, List.length_drop]
    have hpos := hs.ok.pos_lt buf (by simp [hbufs])
    refine ⟨hok, ?_⟩
    rw [State.stream, List.length_append, hpending, List.length_drop, hlen, hadded, hbefore]
    omega

theorem Repeated.step {s t : State} {a : Action} (hs : Repeated s)
    (hstep : ResponseStream.step s a = some t) : Repeated t := by
  have hlonger := hs.longer
  obtain ⟨hok, ⟨bytes, -, hadded, hstream⟩ |
    ⟨sentSize, buf, rest, -, hbufs, hadded, -, hlen, hpending⟩⟩ := step_cases hs.ok hstep
  · exact ⟨hok, by rw [hadded, hstream, List.length_append, List.length_append]; omega⟩
  · refine ⟨hok, ?_⟩
    -- both outcomes of the cut leave at least what was not sent
    have hleast : s.handler.pending.length - sentSize ≤ t.handler.pending.length := by
      rw [hpending]
      split
      · exact Nat.le_of_eq (List.length_drop ..).symm
      · rw [List.length_drop, pending, List.length_drop]
        omega
    rw [State.stream, List.length_append] at hlonger ⊢
    rw [hadded, hlen]
    omega

theorem exact_init : Exact responseStream.init := ⟨writeBufsOk_initial, rfl⟩

theorem Exact.streamExact {s : State} (hs : Exact s) : StreamExact s :=
  ⟨s.handler.pending, describedBytes_eq hs.ok.toBufsOk, hs.stream⟩

theorem Repeated.not_streamExact {s : State} (hs : Repeated s) : ¬ StreamExact s := by
  rintro ⟨rest, hrest, hstream⟩
  obtain rfl : s.handler.pending = rest :=
    Option.some.inj ((describedBytes_eq hs.ok.toBufsOk).symm.trans hrest)
  exact absurd hs.longer (by rw [← hstream]; exact Nat.lt_irrefl _)

/-- The stream of a connection is exact after a run if and only if no send of
the run ended inside a buffer that an earlier send had cut. -/
theorem streamExact_iff_noRepeatedCut {actions : List Action} {t : State}
    (hrun : responseStream.run responseStream.init actions = some t) :
    StreamExact t ↔ Meets responseStream NoRepeatedCut responseStream.init actions :=
  run_iff_meets (fun _ _ _ hs hguard hstep => hs.step hguard hstep)
    (fun _ _ _ hs hguard hstep => hs.step_repeats hguard hstep)
    (fun _ _ _ hs hstep => hs.step hstep) exact_init hrun
    Exact.streamExact Repeated.not_streamExact

theorem streamExact_cut_once :
    ∃ t, responseStream.run responseStream.init
        [.addWriteBuf [48, 49, 10], .addWriteBuf [50, 10], .sent 2, .sent 2, .sent 1] = some t ∧
      StreamExact t := by
  have hsome : (responseStream.run responseStream.init
      [.addWriteBuf [48, 49, 10], .addWriteBuf [50, 10], .sent 2, .sent 2, .sent 1]).isSome := by
    decide +kernel
  obtain ⟨t, hrun⟩ := Option.isSome_iff_exists.mp hsome
  exact ⟨t, hrun, (streamExact_iff_noRepeatedCut hrun).mpr (by decide +kernel)⟩

/-- Eight bytes, of which the socket first takes three and then two: the second
send sets the position back to two, and three bytes are offered again. -/
theorem response_repeated :
    ∃ t, responseStream.run responseStream.init
        [.addWriteBuf [48, 49, 50, 51, 52, 53, 54, 10], .sent 3, .sent 2] = some t ∧
      t.accepted = [48, 49, 50, 51, 52] ∧
      describedBytes t.handler = some [50, 51, 52, 53, 54, 10] ∧
      ¬ StreamExact t := by
  have hend : (responseStream.run responseStream.init
      [.addWriteBuf [48, 49, 50, 51, 52, 53, 54, 10], .sent 3, .sent 2]).map
        (fun t => (t.accepted, describedBytes t.handler, t.added)) =
      some ([48, 49, 50, 51, 52], some [50, 51, 52, 53, 54, 10],
        [48, 49, 50, 51, 52, 53, 54, 10]) := by
    decide +kernel
  obtain ⟨t, hrun, hvalues⟩ := Option.map_eq_some_iff.mp hend
  simp only [Prod.mk.injEq] at hvalues
  obtain ⟨haccepted, hdescribed, hadded⟩ := hvalues
  refine ⟨t, hrun, haccepted, hdescribed, ?_⟩
  rintro ⟨rest, hrest, hstream⟩
  obtain rfl := Option.some.inj (hdescribed.symm.trans hrest)
  rw [haccepted, hadded] at hstream
  exact absurd hstream (by decide)

end ResponseStream
end LiteMQ
