import LiteMQ.Connection.SendDescriptorHandler
import Mathlib.Algebra.Ring.Nat

/-!
# What `fill_send_messages_` builds

`fill_send_messages_` makes `write_iovec_buf_` one element longer than the
batch and then takes two elements for every message that it chooses, and one or
two for the partly sent message.  `Advances` is what a successful part of it
does to the cursor; `fillSendMessages_eq_ok` says what it has built when the two
vectors were long enough and the partly sent message was there, and
`fillInBounds_iff` that this is the only way for it to stay in bounds.
-/

namespace LiteMQ
namespace SendDescriptorHandler

/-- The messages of a batch that `fill_send_messages_` chooses. -/
def chosen (holders : Holders) (messages : List MessageId) : List MessageId :=
  messages.filter fun m => (holders.holder m).needToSend

/-- The iovecs of messages whose headers begin at a place of `write_size_bufs_`:
header and body of each. -/
def batchIovecs (holders : Holders) : Nat → List MessageId → List IoVec
  | _, [] => []
  | sizeBufI, m :: rest =>
      ⟨.sizeBuf sizeBufI 0, 4⟩ :: ⟨.body m 0, (holders.holder m).size⟩ ::
        batchIovecs holders (sizeBufI + 1) rest

/-- The iovecs of a partly sent message: the rest of its header if there is one,
and the rest of its body. -/
def partlyIovecs (handler : SendDescriptorHandler) (holders : Holders) : List IoVec :=
  match handler.partlySentMessage with
  | none => []
  | some partly =>
      (if handler.headerSentSize < 4 then
        [⟨.sizeBuf 0 handler.headerSentSize.toNat, (4 - handler.headerSentSize).toUInt64⟩]
      else []) ++
        [⟨.body partly handler.partlySentSize.toNat,
          (holders.holder partly).size - handler.partlySentSize⟩]

/-- The places of `write_size_bufs_` that a partly sent message takes. -/
def partlySizeBufs (handler : SendDescriptorHandler) : Nat :=
  if handler.partlySentMessage.isSome ∧ handler.headerSentSize < 4 then 1 else 0

@[simp] theorem length_batchIovecs (holders : Holders) (sizeBufI : Nat)
    (ms : List MessageId) : (batchIovecs holders sizeBufI ms).length = 2 * ms.length := by
  induction ms generalizing sizeBufI with
  | nil => rfl
  | cons m ms ih =>
      simp only [batchIovecs, List.length_cons, ih]
      omega

/-- The iovecs name their messages. -/
theorem batchIovecs_injective {holders : Holders} {sizeBufI : Nat} {ms ms' : List MessageId}
    (h : batchIovecs holders sizeBufI ms = batchIovecs holders sizeBufI ms') : ms = ms' := by
  induction ms generalizing sizeBufI ms' with
  | nil =>
      cases ms' with
      | nil => rfl
      | cons m' ms' => simp [batchIovecs] at h
  | cons m ms ih =>
      cases ms' with
      | nil => simp [batchIovecs] at h
      | cons m' ms' =>
          simp only [batchIovecs, List.cons.injEq, IoVec.mk.injEq, IoBase.body.injEq] at h
          obtain ⟨-, ⟨⟨rfl, -⟩, -⟩, hrest⟩ := h
          rw [ih hrest]

/-! ## How the cursor advances -/

/-- A part of `fill_send_messages_` took so many places of `write_size_bufs_`,
wrote these iovecs and left everything else as it was. -/
structure Advances (cursor cursor' : FillCursor) (sizeBufs : Nat) (ioVecs : List IoVec) :
    Prop where
  handler : cursor'.handler = { cursor.handler with
    writeIovecBuf := cursor'.handler.writeIovecBuf
    writeSizeBufs := cursor'.handler.writeSizeBufs }
  sizeBufI : cursor'.sizeBufI = cursor.sizeBufI + sizeBufs
  ioVecI : cursor'.ioVecI = cursor.ioVecI + ioVecs.length
  written : cursor'.handler.writeIovecBuf.take cursor'.ioVecI =
    cursor.handler.writeIovecBuf.take cursor.ioVecI ++ ioVecs
  sizeLength : cursor'.handler.writeSizeBufs.length = cursor.handler.writeSizeBufs.length
  ioLength : cursor'.handler.writeIovecBuf.length = cursor.handler.writeIovecBuf.length

theorem Advances.refl (cursor : FillCursor) : Advances cursor cursor 0 [] :=
  ⟨rfl, rfl, rfl, (List.append_nil _).symm, rfl, rfl⟩

theorem Advances.trans {c c' c'' : FillCursor} {sizeBufs sizeBufs' : Nat}
    {ioVecs ioVecs' : List IoVec} (h : Advances c c' sizeBufs ioVecs)
    (h' : Advances c' c'' sizeBufs' ioVecs') :
    Advances c c'' (sizeBufs + sizeBufs') (ioVecs ++ ioVecs') where
  handler := by rw [h'.handler, h.handler]
  sizeBufI := by rw [h'.sizeBufI, h.sizeBufI, Nat.add_assoc]
  ioVecI := by rw [h'.ioVecI, h.ioVecI, List.length_append, Nat.add_assoc]
  written := by rw [h'.written, h.written, List.append_assoc]
  sizeLength := h'.sizeLength.trans h.sizeLength
  ioLength := h'.ioLength.trans h.ioLength

theorem Advances.partly {c c' : FillCursor} {sizeBufs : Nat} {ioVecs : List IoVec}
    (h : Advances c c' sizeBufs ioVecs) :
    c'.handler.partlySentMessage = c.handler.partlySentMessage := by
  rw [h.handler]

/-- There is room for so many headers and iovecs behind the cursor. -/
structure Room (cursor : FillCursor) (sizeBufs ioVecs : Nat) : Prop where
  sizeBufs : cursor.sizeBufI + sizeBufs ≤ cursor.handler.writeSizeBufs.length
  ioVecs : cursor.ioVecI + ioVecs ≤ cursor.handler.writeIovecBuf.length

/-- The room behind what was taken. -/
theorem Advances.room_iff {c c' : FillCursor} {sizeBufs : Nat} {ioVecs : List IoVec}
    (h : Advances c c' sizeBufs ioVecs) (sizeBufs' ioVecs' : Nat) :
    Room c' sizeBufs' ioVecs' ↔ Room c (sizeBufs + sizeBufs') (ioVecs.length + ioVecs') := by
  constructor
  · rintro ⟨hsize, hio⟩
    rw [h.sizeBufI, h.sizeLength] at hsize
    rw [h.ioVecI, h.ioLength] at hio
    constructor <;> omega
  · rintro ⟨hsize, hio⟩
    constructor
    · rw [h.sizeBufI, h.sizeLength]
      omega
    · rw [h.ioVecI, h.ioLength]
      omega

theorem putSize_eq_ok {cursor : FillCursor} (size : UInt64)
    (hroom : cursor.sizeBufI < cursor.handler.writeSizeBufs.length) :
    ∃ cursor', cursor.putSize size = .ok cursor' ∧ Advances cursor cursor' 0 [] := by
  refine ⟨_, by rw [FillCursor.putSize, Buffer.store_eq_ok hroom]; rfl, ?_⟩
  exact ⟨rfl, rfl, rfl, (List.append_nil _).symm, List.length_set .., rfl⟩

theorem putSize_eq_error {cursor : FillCursor} (size : UInt64)
    (hroom : ¬ cursor.sizeBufI < cursor.handler.writeSizeBufs.length) :
    cursor.putSize size = .error .outOfBounds := by
  rw [FillCursor.putSize, Buffer.store, if_neg hroom]
  rfl

theorem putIovec_eq_ok {cursor : FillCursor} (ioVec : IoVec)
    (hroom : cursor.ioVecI < cursor.handler.writeIovecBuf.length) :
    ∃ cursor', cursor.putIovec ioVec = .ok cursor' ∧ Advances cursor cursor' 0 [ioVec] := by
  refine ⟨_, by rw [FillCursor.putIovec, Buffer.store_eq_ok hroom]; rfl, ?_⟩
  refine ⟨rfl, rfl, rfl, ?_, rfl, List.length_set ..⟩
  show (cursor.handler.writeIovecBuf.set cursor.ioVecI ioVec).take (cursor.ioVecI + 1) = _
  have hlength : (cursor.handler.writeIovecBuf.take cursor.ioVecI).length = cursor.ioVecI :=
    List.length_take_of_le (Nat.le_of_lt hroom)
  rw [List.set_eq_take_append_cons_drop, if_pos hroom, List.take_append, hlength,
    List.take_of_length_le (by omega), show cursor.ioVecI + 1 - cursor.ioVecI = 1 by omega]
  rfl

theorem putIovec_eq_error {cursor : FillCursor} (ioVec : IoVec)
    (hroom : ¬ cursor.ioVecI < cursor.handler.writeIovecBuf.length) :
    cursor.putIovec ioVec = .error .outOfBounds := by
  rw [FillCursor.putIovec, Buffer.store, if_neg hroom]
  rfl

theorem nextSizeBuf_advances (cursor : FillCursor) : Advances cursor cursor.nextSizeBuf 1 [] :=
  ⟨rfl, rfl, rfl, (List.append_nil _).symm, rfl, rfl⟩

/-- A size in `write_size_bufs_` and the iovec of its bytes from `offset` on. -/
def putHeader (cursor : FillCursor) (size : UInt64) (offset : Nat) (len : UInt64) :
    Except Fault FillCursor := do
  let cursor ← cursor.putSize size
  let cursor ← cursor.putIovec ⟨.sizeBuf cursor.sizeBufI offset, len⟩
  pure cursor.nextSizeBuf

section Loop

variable {holders : Holders} {cursor : FillCursor} {partly : MessageId}

theorem putHeader_eq_ok (size : UInt64) (offset : Nat) (len : UInt64) (hroom : Room cursor 1 1) :
    ∃ cursor', putHeader cursor size offset len = .ok cursor' ∧
      Advances cursor cursor' 1 [⟨.sizeBuf cursor.sizeBufI offset, len⟩] := by
  obtain ⟨c₁, hsize, hc₁⟩ := putSize_eq_ok size (Nat.lt_of_succ_le hroom.sizeBufs)
  obtain ⟨c₂, hput, hc₂⟩ := putIovec_eq_ok ⟨.sizeBuf c₁.sizeBufI offset, len⟩
    (Nat.lt_of_succ_le ((hc₁.room_iff 1 1).mpr hroom).ioVecs)
  refine ⟨c₂.nextSizeBuf, ?_, ?_⟩
  · rw [putHeader, hsize, Fault.ok_bind, hput]
    rfl
  · have hall := hc₁.trans (hc₂.trans (nextSizeBuf_advances c₂))
    rw [hc₁.sizeBufI] at hall
    exact hall

theorem putHeader_eq_error (size : UInt64) (offset : Nat) (len : UInt64)
    (hroom : ¬ Room cursor 1 1) : putHeader cursor size offset len = .error .outOfBounds := by
  rw [putHeader]
  by_cases hsizes : cursor.sizeBufI < cursor.handler.writeSizeBufs.length
  · obtain ⟨c₁, hsize, hc₁⟩ := putSize_eq_ok size hsizes
    rw [hsize, Fault.ok_bind, putIovec_eq_error]
    · rfl
    · rw [hc₁.ioVecI, hc₁.ioLength]
      exact fun hio => hroom ⟨hsizes, hio⟩
  · rw [putSize_eq_error _ hsizes]
    rfl

/-- A header and a body need two iovecs. -/
theorem putHeader_bind_eq_ok (size : UInt64) (offset : Nat) (len : UInt64) (body : IoVec)
    (hroom : Room cursor 1 2) :
    ∃ cursor', (putHeader cursor size offset len >>= fun c => c.putIovec body) = .ok cursor' ∧
      Advances cursor cursor' 1 [⟨.sizeBuf cursor.sizeBufI offset, len⟩, body] := by
  have hio := hroom.ioVecs
  obtain ⟨c₁, hheader, hc₁⟩ := putHeader_eq_ok size offset len ⟨hroom.sizeBufs, by omega⟩
  obtain ⟨c₂, hbody, hc₂⟩ := putIovec_eq_ok body
    (Nat.lt_of_succ_le ((hc₁.room_iff 0 1).mpr hroom).ioVecs)
  exact ⟨c₂, by rw [hheader, Fault.ok_bind, hbody], hc₁.trans hc₂⟩

theorem putHeader_bind_eq_error (size : UInt64) (offset : Nat) (len : UInt64) (body : IoVec)
    (hroom : ¬ Room cursor 1 2) :
    (putHeader cursor size offset len >>= fun c => c.putIovec body) = .error .outOfBounds := by
  by_cases hfirst : Room cursor 1 1
  · obtain ⟨c₁, hheader, hc₁⟩ := putHeader_eq_ok size offset len hfirst
    rw [hheader, Fault.ok_bind, putIovec_eq_error]
    intro hsecond
    have hroom₁ : Room c₁ 0 1 := by
      refine ⟨?_, hsecond⟩
      rw [hc₁.sizeBufI, hc₁.sizeLength]
      exact hfirst.sizeBufs
    exact hroom ((hc₁.room_iff 0 1).mp hroom₁)
  · rw [putHeader_eq_error _ _ _ hfirst]
    rfl

/-! ## The loop over the batch -/

/-- A message that is passed over. -/
theorem fillMessage_of_not_needToSend {m : MessageId}
    (hneed : (holders.holder m).needToSend = false) :
    fillMessage holders cursor m = .ok cursor := by
  rw [fillMessage, hneed, if_neg Bool.false_ne_true]

/-- A message that is chosen: header and body. -/
theorem fillMessage_of_needToSend (hpartly : cursor.handler.partlySentMessage = some partly)
    {m : MessageId} (hneed : (holders.holder m).needToSend = true) :
    fillMessage holders cursor m = putHeader cursor (holders.holder partly).size 0 4 >>=
      fun c => c.putIovec ⟨.body m 0, (holders.holder m).size⟩ := by
  rw [fillMessage, if_pos hneed, hpartly, putHeader]
  simp only [bind_assoc, pure_bind]

theorem Room.mono {sizeBufs ioVecs sizeBufs' ioVecs' : Nat} (h : Room cursor sizeBufs ioVecs)
    (hsize : sizeBufs' ≤ sizeBufs) (hio : ioVecs' ≤ ioVecs) : Room cursor sizeBufs' ioVecs' :=
  ⟨(Nat.add_le_add_left hsize _).trans h.sizeBufs, (Nat.add_le_add_left hio _).trans h.ioVecs⟩

theorem chosen_cons (holders : Holders) (m : MessageId) (ms : List MessageId) :
    chosen holders (m :: ms) =
      (if (holders.holder m).needToSend then [m] else []) ++ chosen holders ms := by
  rw [chosen, List.filter_cons]
  split <;> rfl

/-- With room for all chosen messages the loop writes their iovecs. -/
theorem foldlM_fillMessage_eq_ok {messages : List MessageId}
    (hpartly : cursor.handler.partlySentMessage = some partly)
    (hroom : Room cursor (chosen holders messages).length
      (2 * (chosen holders messages).length)) :
    ∃ cursor', messages.foldlM (fillMessage holders) cursor = .ok cursor' ∧
      Advances cursor cursor' (chosen holders messages).length
        (batchIovecs holders cursor.sizeBufI (chosen holders messages)) := by
  induction messages generalizing cursor with
  | nil => exact ⟨cursor, rfl, .refl cursor⟩
  | cons m messages ih =>
      rw [List.foldlM_cons]
      rw [chosen_cons] at hroom ⊢
      cases hneed : (holders.holder m).needToSend with
      | false =>
          rw [hneed, if_neg Bool.false_ne_true, List.nil_append] at hroom
          rw [fillMessage_of_not_needToSend hneed, Fault.ok_bind, if_neg Bool.false_ne_true,
            List.nil_append]
          exact ih hpartly hroom
      | true =>
          rw [hneed, if_pos rfl, List.length_append, List.length_singleton] at hroom
          obtain ⟨c₁, hfirst, hc₁⟩ := putHeader_bind_eq_ok (holders.holder partly).size 0 4
            ⟨.body m 0, (holders.holder m).size⟩ (hroom.mono (by omega) (by omega))
          have hrest : Room c₁ (chosen holders messages).length
              (2 * (chosen holders messages).length) := by
            refine (hc₁.room_iff _ _).mpr (hroom.mono (Nat.le_refl _) ?_)
            simp only [List.length_cons, List.length_nil]
            omega
          obtain ⟨c', hloop, hc'⟩ := ih (hc₁.partly.trans hpartly) hrest
          refine ⟨c', by rw [fillMessage_of_needToSend hpartly hneed, hfirst, Fault.ok_bind, hloop],
            ?_⟩
          have hall := hc₁.trans hc'
          rw [hc₁.sizeBufI] at hall
          show Advances cursor c' ((chosen holders messages).length + 1) _
          rw [Nat.add_comm]
          exact hall

/-- Without that room it leaves a vector. -/
theorem foldlM_fillMessage_eq_error {messages : List MessageId}
    (hpartly : cursor.handler.partlySentMessage = some partly) (hstart : Room cursor 0 0)
    (hroom : ¬ Room cursor (chosen holders messages).length
      (2 * (chosen holders messages).length)) :
    messages.foldlM (fillMessage holders) cursor = .error .outOfBounds := by
  induction messages generalizing cursor with
  | nil => exact absurd hstart hroom
  | cons m messages ih =>
      rw [List.foldlM_cons]
      rw [chosen_cons] at hroom
      cases hneed : (holders.holder m).needToSend with
      | false =>
          rw [hneed, if_neg Bool.false_ne_true, List.nil_append] at hroom
          rw [fillMessage_of_not_needToSend hneed, Fault.ok_bind]
          exact ih hpartly hstart hroom
      | true =>
          rw [hneed, if_pos rfl, List.length_append, List.length_singleton] at hroom
          by_cases hfirst : Room cursor 1 2
          · obtain ⟨c₁, hstep, hc₁⟩ := putHeader_bind_eq_ok (holders.holder partly).size 0 4
              ⟨.body m 0, (holders.holder m).size⟩ hfirst
            rw [fillMessage_of_needToSend hpartly hneed, hstep, Fault.ok_bind]
            refine ih (hc₁.partly.trans hpartly) ((hc₁.room_iff 0 0).mpr hfirst) ?_
            intro hrest
            apply hroom
            have hwhole := (hc₁.room_iff _ _).mp hrest
            refine hwhole.mono (Nat.le_refl _) ?_
            simp only [List.length_cons, List.length_nil]
            omega
          · rw [fillMessage_of_needToSend hpartly hneed, putHeader_bind_eq_error _ _ _ _ hfirst]
            rfl

/-! ## The partly sent message -/

theorem fillPartly_of_none (hpartly : cursor.handler.partlySentMessage = none) :
    fillPartly holders cursor = .ok cursor := by
  rw [fillPartly, hpartly]

theorem fillPartly_of_header (hpartly : cursor.handler.partlySentMessage = some partly)
    (hheader : cursor.handler.headerSentSize < 4) :
    fillPartly holders cursor = putHeader cursor (holders.holder partly).size
      cursor.handler.headerSentSize.toNat (4 - cursor.handler.headerSentSize).toUInt64 >>=
        fun c => c.putIovec ⟨.body partly cursor.handler.partlySentSize.toNat,
          (holders.holder partly).size - cursor.handler.partlySentSize⟩ := by
  rw [fillPartly, hpartly, putHeader]
  simp only [if_pos hheader, bind_assoc]

theorem fillPartly_of_body (hpartly : cursor.handler.partlySentMessage = some partly)
    (hheader : ¬ cursor.handler.headerSentSize < 4) :
    fillPartly holders cursor = cursor.putIovec
      ⟨.body partly cursor.handler.partlySentSize.toNat,
        (holders.holder partly).size - cursor.handler.partlySentSize⟩ := by
  rw [fillPartly, hpartly]
  simp only [if_neg hheader]
  rfl

theorem length_partlyIovecs (handler : SendDescriptorHandler) (holders : Holders) :
    (partlyIovecs handler holders).length =
      if handler.partlySentMessage.isSome then partlySizeBufs handler + 1 else 0 := by
  cases hpartly : handler.partlySentMessage with
  | none => simp [partlyIovecs, hpartly]
  | some partly => by_cases hheader : handler.headerSentSize < 4 <;>
      simp [partlyIovecs, partlySizeBufs, hpartly, hheader]

/-- A partly sent message takes a slot and an iovec for the rest of its header, if
there is one, and an iovec for the rest of its body. -/
theorem partly_lengths {handler : SendDescriptorHandler} (holders : Holders)
    (hsome : handler.partlySentMessage.isSome) :
    partlySizeBufs handler = (if handler.headerSentSize < 4 then 1 else 0) ∧
      (partlyIovecs handler holders).length =
        (if handler.headerSentSize < 4 then 1 else 0) + 1 := by
  have hsizeBufs : partlySizeBufs handler = if handler.headerSentSize < 4 then 1 else 0 := by
    simp only [partlySizeBufs, hsome, true_and]
  rw [length_partlyIovecs, if_pos hsome, hsizeBufs]
  exact ⟨rfl, rfl⟩

/-- The partly sent message takes its header and one or two iovecs. -/
theorem fillPartly_eq_ok (hstart : cursor.sizeBufI = 0)
    (hroom : Room cursor (partlySizeBufs cursor.handler)
      (partlyIovecs cursor.handler holders).length) :
    ∃ cursor', fillPartly holders cursor = .ok cursor' ∧
      Advances cursor cursor' (partlySizeBufs cursor.handler)
        (partlyIovecs cursor.handler holders) := by
  cases hpartly : cursor.handler.partlySentMessage with
  | none =>
      refine ⟨cursor, fillPartly_of_none hpartly, ?_⟩
      simpa only [partlySizeBufs, partlyIovecs, hpartly, Option.isSome_none, Bool.false_eq_true,
        false_and, if_false] using Advances.refl cursor
  | some partly =>
      simp only [partlySizeBufs, partlyIovecs, hpartly, Option.isSome_some, true_and] at hroom ⊢
      by_cases hheader : cursor.handler.headerSentSize < 4
      · simp only [if_pos hheader] at hroom ⊢
        rw [fillPartly_of_header hpartly hheader]
        have hboth := putHeader_bind_eq_ok (holders.holder partly).size
          cursor.handler.headerSentSize.toNat (4 - cursor.handler.headerSentSize).toUInt64
          ⟨.body partly cursor.handler.partlySentSize.toNat,
            (holders.holder partly).size - cursor.handler.partlySentSize⟩ hroom
        rw [hstart] at hboth
        exact hboth
      · simp only [if_neg hheader] at hroom ⊢
        rw [fillPartly_of_body hpartly hheader]
        exact putIovec_eq_ok _ (Nat.lt_of_succ_le hroom.ioVecs)

end Loop

/-! ## The whole function -/

/-- Whether the two vectors are long enough for what `fill_send_messages_`
chooses, and the partly sent message is there when its size is asked for. -/
def FillFits (handler : SendDescriptorHandler) (holders : Holders)
    (messages : List MessageId) : Prop :=
  (handler.partlySentMessage = none ∧ chosen holders messages = []) ∨
    (handler.partlySentMessage.isSome ∧
      2 * (chosen holders messages).length + (if handler.headerSentSize < 4 then 1 else 0) ≤
        messages.length)

theorem chosen_eq_nil_iff {holders : Holders} {messages : List MessageId} :
    chosen holders messages = [] ↔ ∀ m ∈ messages, (holders.holder m).expired = 0 := by
  simp [chosen, MessageHolder.needToSend]

/-- The handler and the cursor with which the two parts of `fill_send_messages_`
begin. -/
def prepared (handler : SendDescriptorHandler) (messages : List MessageId) : FillCursor :=
  ⟨{ handler with
      writeIovecBuf := Buffer.resize handler.writeIovecBuf (messages.length + 1) ⟨.null, 0⟩
      writeSizeBufs := Buffer.resize handler.writeSizeBufs (messages.length + 1) 0 }, 0, 0⟩

theorem room_prepared_iff (handler : SendDescriptorHandler) (messages : List MessageId)
    (sizeBufs ioVecs : Nat) :
    Room (prepared handler messages) sizeBufs ioVecs ↔
      sizeBufs ≤ messages.length + 1 ∧ ioVecs ≤ messages.length + 1 := by
  constructor
  · rintro ⟨hsize, hio⟩
    simpa [prepared] using And.intro hsize hio
  · rintro ⟨hsize, hio⟩
    constructor <;> simpa [prepared]

/-- Both parts together, and the end of the function. -/
theorem fillSendMessages_of_advances {handler : SendDescriptorHandler} {holders : Holders}
    {messages : List MessageId} {cursor cursor' : FillCursor} {sizeBufs : Nat}
    {ioVecs : List IoVec} (hpartly : fillPartly holders (prepared handler messages) = .ok cursor)
    (hloop : messages.foldlM (fillMessage holders) cursor = .ok cursor')
    (hall : Advances (prepared handler messages) cursor' sizeBufs ioVecs) :
    ∃ handler', handler.fillSendMessages holders messages = .ok (handler', !ioVecs.isEmpty) ∧
      handler' = { handler with
        writeIovecBuf := ioVecs
        msgIovlen := min ioVecs.length msgMaxIovlen
        writeSizeBufs := cursor'.handler.writeSizeBufs } := by
  have hcount : cursor'.ioVecI = ioVecs.length := by
    rw [hall.ioVecI]
    exact Nat.zero_add _
  have hwritten : cursor'.handler.writeIovecBuf.take cursor'.ioVecI = ioVecs := hall.written
  have hresize :
      Buffer.resize cursor'.handler.writeIovecBuf cursor'.ioVecI ⟨.null, 0⟩ = ioVecs := by
    have hle := congrArg List.length hwritten
    rw [List.length_take] at hle
    rw [Buffer.resize, hwritten, show cursor'.ioVecI - cursor'.handler.writeIovecBuf.length = 0 by
      omega]
    exact List.append_nil _
  refine ⟨_, ?_, rfl⟩
  show (fillPartly holders (prepared handler messages) >>= _) = _
  rw [hpartly, Fault.ok_bind, hloop, Fault.ok_bind]
  dsimp only
  rw [hresize, hall.handler, hcount]
  cases ioVecs <;> rfl

/-- What `fill_send_messages_` has built: the iovecs of the partly sent message
and of the chosen messages, behind each other. -/
theorem fillSendMessages_eq_ok {handler : SendDescriptorHandler} {holders : Holders}
    {messages : List MessageId} (hfits : FillFits handler holders messages) :
    ∃ handler' sizeBufs, handler.fillSendMessages holders messages = .ok (handler',
        !(partlyIovecs handler holders ++
          batchIovecs holders (partlySizeBufs handler) (chosen holders messages)).isEmpty) ∧
      handler' = { handler with
        writeIovecBuf := partlyIovecs handler holders ++
          batchIovecs holders (partlySizeBufs handler) (chosen holders messages)
        msgIovlen := min (partlyIovecs handler holders ++ batchIovecs holders
          (partlySizeBufs handler) (chosen holders messages)).length msgMaxIovlen
        writeSizeBufs := sizeBufs } := by
  have hle : (chosen holders messages).length ≤ messages.length := List.length_filter_le ..
  rcases hfits with ⟨hnone, hchosen⟩ | ⟨hsome, hfits⟩
  · have hloop := foldlM_fillMessage_live (chosen_eq_nil_iff.mp hchosen)
      (prepared handler messages)
    have hpartly : fillPartly holders (prepared handler messages) =
        .ok (prepared handler messages) := by
      simp only [fillPartly, prepared, hnone]
    obtain ⟨handler', hfill, heq⟩ := fillSendMessages_of_advances hpartly hloop (.refl _)
    have hempty : partlyIovecs handler holders ++
        batchIovecs holders (partlySizeBufs handler) (chosen holders messages) = [] := by
      simp only [partlyIovecs, hnone, hchosen, batchIovecs, List.nil_append]
    rw [hempty]
    exact ⟨handler', _, hfill, heq⟩
  · obtain ⟨partly, hpartly⟩ := Option.isSome_iff_exists.mp hsome
    have hroom : Room (prepared handler messages)
        (partlySizeBufs handler + (chosen holders messages).length)
        ((partlyIovecs handler holders).length + 2 * (chosen holders messages).length) := by
      obtain ⟨hsizeBufs, hlength⟩ := partly_lengths holders hsome
      rw [room_prepared_iff, hsizeBufs, hlength]
      constructor <;> omega
    have hstart : Room (prepared handler messages) (partlySizeBufs handler)
        (partlyIovecs handler holders).length :=
      hroom.mono (Nat.le_add_right ..) (Nat.le_add_right ..)
    obtain ⟨c₁, hfirst, hc₁⟩ := fillPartly_eq_ok rfl hstart
    obtain ⟨c₂, hloop, hc₂⟩ := foldlM_fillMessage_eq_ok (hc₁.partly.trans hpartly)
      ((hc₁.room_iff _ _).mpr hroom)
    have hall := hc₁.trans hc₂
    rw [hc₁.sizeBufI, show (prepared handler messages).sizeBufI = 0 from rfl, Nat.zero_add] at hall
    obtain ⟨handler', hfill, heq⟩ := fillSendMessages_of_advances hfirst hloop hall
    exact ⟨handler', _, hfill, heq⟩

/-- With a partly sent message, what does not fit ends outside a vector. -/
theorem fillParts_eq_error {handler : SendDescriptorHandler} {holders : Holders}
    {messages : List MessageId} {partly : MessageId}
    (hpartly : handler.partlySentMessage = some partly)
    (hfits : ¬ 2 * (chosen holders messages).length +
      (if handler.headerSentSize < 4 then 1 else 0) ≤ messages.length) :
    (fillPartly holders (prepared handler messages) >>= fun cursor =>
      messages.foldlM (fillMessage holders) cursor) = .error .outOfBounds := by
  have hsome : handler.partlySentMessage.isSome := by simp [hpartly]
  obtain ⟨hsizeBufs, hlength⟩ := partly_lengths holders hsome
  by_cases hfirst : Room (prepared handler messages) (partlySizeBufs handler)
      (partlyIovecs handler holders).length
  · obtain ⟨c₁, hstep, hc₁⟩ := fillPartly_eq_ok rfl hfirst
    rw [hstep, Fault.ok_bind]
    refine foldlM_fillMessage_eq_error (hc₁.partly.trans hpartly)
      ((hc₁.room_iff 0 0).mpr hfirst) ?_
    intro hrest
    obtain ⟨-, hio⟩ := (room_prepared_iff ..).mp ((hc₁.room_iff _ _).mp hrest)
    change (partlyIovecs handler holders).length + _ ≤ _ at hio
    rw [hlength] at hio
    omega
  · -- an empty batch leaves one iovec for the rest of the header and the body
    rw [room_prepared_iff, hsizeBufs, hlength] at hfirst
    by_cases hheader : handler.headerSentSize < 4
    · have hstep : fillPartly holders (prepared handler messages) = _ :=
        fillPartly_of_header hpartly hheader
      rw [if_pos hheader] at hfirst
      rw [hstep, putHeader_bind_eq_error]
      · rfl
      · rw [room_prepared_iff]
        omega
    · rw [if_neg hheader] at hfirst
      omega

/-- What does not fit ends outside a vector or at a missing partly sent message. -/
theorem fillSendMessages_eq_error {handler : SendDescriptorHandler} {holders : Holders}
    {messages : List MessageId} (hfits : ¬ FillFits handler holders messages) :
    ∃ fault, handler.fillSendMessages holders messages = .error fault := by
  cases hpartly : handler.partlySentMessage with
  | none =>
      obtain hlive | ⟨m, hm, hexpired⟩ := live_or_expired holders messages
      · exact absurd (Or.inl ⟨hpartly, chosen_eq_nil_iff.mpr hlive⟩) hfits
      · exact ⟨_, fillSendMessages_expired hpartly hm hexpired⟩
  | some partly =>
      have hparts := fillParts_eq_error hpartly fun hle =>
        hfits (Or.inr ⟨by simp [hpartly], hle⟩)
      refine ⟨.outOfBounds, ?_⟩
      show (fillPartly holders (prepared handler messages) >>= fun cursor =>
        messages.foldlM (fillMessage holders) cursor >>= _) = _
      rw [← bind_assoc, hparts]
      rfl

/-- When `fill_send_messages_` succeeds, everything fitted. -/
theorem fillSendMessages_inv {handler : SendDescriptorHandler} {holders : Holders}
    {messages : List MessageId} {filled : SendDescriptorHandler × Bool}
    (hfill : handler.fillSendMessages holders messages = .ok filled) :
    FillFits handler holders messages ∧
      let ioVecs := partlyIovecs handler holders ++
        batchIovecs holders (partlySizeBufs handler) (chosen holders messages)
      filled.2 = !ioVecs.isEmpty ∧ ∃ sizeBufs, filled.1 = { handler with
        writeIovecBuf := ioVecs
        msgIovlen := min ioVecs.length msgMaxIovlen
        writeSizeBufs := sizeBufs } := by
  have hfits : FillFits handler holders messages := by
    by_contra hfits
    obtain ⟨fault, herror⟩ := fillSendMessages_eq_error hfits
    rw [herror] at hfill
    cases hfill
  obtain ⟨handler', sizeBufs, hbuilt, heq⟩ := fillSendMessages_eq_ok hfits
  obtain rfl := Except.ok.inj (hfill.symm.trans hbuilt)
  exact ⟨hfits, rfl, sizeBufs, heq⟩

/-- Every access of `fill_send_messages_` is in bounds, `partly_sent_message_` is
there where it is dereferenced, and the last `resize` makes nothing longer. -/
def FillInBounds (handler : SendDescriptorHandler) (holders : Holders)
    (messages : List MessageId) : Prop :=
  ∃ handler' sending, handler.fillSendMessages holders messages = .ok (handler', sending) ∧
    handler'.writeIovecBuf.length ≤ messages.length + 1

/-- `fill_send_messages_` stays in bounds exactly when, without a partly sent
message, it chooses no message, and with one, twice the number of chosen
messages, and one more for a header that is not sent, is at most the size of the
batch. -/
theorem fillInBounds_iff (handler : SendDescriptorHandler) (holders : Holders)
    (messages : List MessageId) :
    FillInBounds handler holders messages ↔ FillFits handler holders messages := by
  constructor
  · rintro ⟨handler', sending, hfill, -⟩
    exact (fillSendMessages_inv hfill).1
  · intro hfits
    obtain ⟨handler', sizeBufs, hfill, heq⟩ := fillSendMessages_eq_ok hfits
    refine ⟨handler', _, hfill, ?_⟩
    rw [heq]
    simp only [List.length_append, length_batchIovecs]
    rcases hfits with ⟨hnone, hchosen⟩ | ⟨hsome, hfits⟩
    · simp [length_partlyIovecs, hnone, hchosen]
    · rw [(partly_lengths holders hsome).2]
      omega

/-- An expired message in a new handler, which has no partly sent message; and,
with a partly sent message and its whole header to send, one expired message:
four iovecs for a vector of two. -/
theorem fill_out_of_bounds :
    let holders : Holders := ⟨fun _ => ⟨[1, 2, 3], 0, 5, 0, 1⟩, [0, 1]⟩
    ¬ FillInBounds (initial true) holders [1] ∧
      ¬ FillInBounds { initial true with partlySentMessage := some 0, partlySentSize := 1 }
        holders [1] := by
  constructor
  · rintro ⟨handler', sending, hfill, -⟩
    cases hfill
  · rintro ⟨handler', sending, hfill, -⟩
    cases hfill

end SendDescriptorHandler
end LiteMQ
