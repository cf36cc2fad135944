import LiteMQ.Foundation.TransitionSystem
import LiteMQ.Server.WriteBufs

/-!
# Calls on the response buffers

Any sequence of `add_write_buf_` with buffers that are not empty and of
`reconfigure_write_bufs_` with at most the size that was offered to `::sendmsg`.
`RepInvariant` says element by element how `write_bufs_`, `write_iovec_buf_`,
`first_write_buf_pos_` and `write_msg_` belong together; it holds after every
such sequence, and no call of it fails an assertion.
-/

namespace LiteMQ
namespace HashConnection

open TransitionSystem

/-- A call on the response buffers. -/
inductive WriteBufCall
  | addWriteBuf (bytes : List UInt8)
  | reconfigureWriteBufs (sentSize : Nat)

/-- What a call leaves. -/
def call (h : HashConnection) : WriteBufCall → Except Fault HashConnection
  | .addWriteBuf bytes => h.addWriteBuf bytes
  | .reconfigureWriteBufs sentSize => h.reconfigureWriteBufs sentSize

/-- The calls that `process_input_message_` and `write()` make: a buffer has some
bytes, and no more was sent than was offered. -/
def Allowed (h : HashConnection) : WriteBufCall → Prop
  | .addWriteBuf bytes => bytes ≠ []
  | .reconfigureWriteBufs sentSize => sentSize ≤ h.offeredSize

instance (h : HashConnection) (c : WriteBufCall) : Decidable (h.Allowed c) :=
  match c with
  | .addWriteBuf bytes => inferInstanceAs (Decidable (bytes ≠ []))
  | .reconfigureWriteBufs sentSize => inferInstanceAs (Decidable (sentSize ≤ h.offeredSize))

/-- A new handler and calls on its response buffers; a call that fails leads
nowhere. -/
def writeBufCalls : TransitionSystem HashConnection WriteBufCall where
  init := initial
  step := fun h c =>
    match h.call c with
    | .ok h' => some h'
    | .error _ => none

/-- How the response buffers, their iovecs and `write_msg_` belong together. -/
structure RepInvariant (h : HashConnection) : Prop where
  length_eq : h.writeBufs.length = h.writeIovecBuf.length
  whole : ∀ k buf ioVec, 0 < k → h.writeBufs[k]? = some buf → h.writeIovecBuf[k]? = some ioVec →
    ioVec = ⟨⟨buf.node, 0⟩, buf.size⟩
  first : ∀ buf ioVec, h.writeBufs[0]? = some buf → h.writeIovecBuf[0]? = some ioVec →
    h.firstWriteBufPos < buf.size ∧
      ioVec = ⟨⟨buf.node, h.firstWriteBufPos⟩, buf.size - h.firstWriteBufPos⟩
  empty : h.writeBufs = [] → h.firstWriteBufPos = 0
  msgIov : h.writeMsg.msgIov = h.writeIovecBuf
  msgIovlen : h.writeMsg.msgIovlen = min h.writeIovecBuf.length msgMaxIovlen

/-- The iovecs of `describe`, element by element. -/
theorem WriteBufsOk.repInvariant {h : HashConnection} (hok : h.WriteBufsOk) :
    h.RepInvariant where
  length_eq := by rw [hok.iovecs, length_describe]
  whole := by
    intro k buf ioVec hk hbuf hioVec
    rw [hok.iovecs] at hioVec
    cases hbufs : h.writeBufs with
    | nil =>
        rw [hbufs] at hbuf
        cases hbuf
    | cons first rest =>
        obtain ⟨k, rfl⟩ := Nat.exists_eq_add_of_lt hk
        rw [hbufs, Nat.zero_add] at hbuf hioVec
        simp only [describe, List.getElem?_cons_succ, List.getElem?_map] at hbuf hioVec
        rw [hbuf] at hioVec
        exact (Option.some.inj hioVec).symm
  first := by
    intro buf ioVec hbuf hioVec
    rw [hok.iovecs] at hioVec
    cases hbufs : h.writeBufs with
    | nil =>
        rw [hbufs] at hbuf
        cases hbuf
    | cons first rest =>
        have hlt := hok.pos_lt first (by rw [hbufs]; rfl)
        rw [hbufs] at hbuf hioVec
        obtain rfl := Option.some.inj hbuf
        exact ⟨hlt, (Option.some.inj hioVec).symm⟩
  empty := hok.pos_zero
  msgIov := by rw [hok.msg]
  msgIovlen := by rw [hok.msg]

/-- An allowed call succeeds and keeps the invariant. -/
theorem WriteBufsOk.call {h : HashConnection} (hok : h.WriteBufsOk) {c : WriteBufCall}
    (hallowed : h.Allowed c) : ∃ h', h.call c = .ok h' ∧ h'.WriteBufsOk := by
  cases c with
  | addWriteBuf bytes =>
      obtain ⟨h', hadd, hok', -⟩ := addWriteBuf_spec hok hallowed
      exact ⟨h', hadd, hok'⟩
  | reconfigureWriteBufs sentSize =>
      have hle : sentSize ≤ h.pending.length := le_trans hallowed (offeredSize_le hok)
      rcases Nat.eq_zero_or_pos sentSize with rfl | hsent
      · -- `if(sent_size > 0)`
        refine ⟨h, ?_, hok⟩
        show h.reconfigureWriteBufs 0 = .ok h
        rw [reconfigureWriteBufs, enterWriteBufs_eq hok.idle, Fault.ok_bind,
          if_neg (Nat.lt_irrefl 0)]
        show leaveWriteBufs { h with concurrencyCount := 1 } = _
        rw [leaveWriteBufs_eq rfl, ← hok.idle]
      · cases hbufs : h.writeBufs with
        | nil =>
            rw [pending, hbufs] at hle
            simp only [allBytes_nil, List.drop_nil, List.length_nil] at hle
            omega
        | cons buf rest =>
            obtain ⟨h', hreconfigure, hok', -⟩ := reconfigureWriteBufs_spec hok hsent hle hbufs
            exact ⟨h', hreconfigure, hok'⟩

/-- After every sequence of allowed calls the representation invariant holds, and
the next allowed call fails no assertion. -/
theorem repInvariant_of_reachable {h : HashConnection}
    (hreach : Reachable writeBufCalls Allowed h) :
    h.RepInvariant ∧ ∀ c, h.Allowed c → ∃ h', h.call c = .ok h' := by
  have hok : h.WriteBufsOk := by
    refine Reachable.invariant writeBufsOk_initial ?_ hreach
    intro s c t hs hallowed hstep
    obtain ⟨t', hcall, ht'⟩ := hs.call hallowed
    simp only [writeBufCalls, hcall] at hstep
    obtain rfl := Option.some.inj hstep
    exact ht'
  refine ⟨hok.repInvariant, fun c hallowed => ?_⟩
  obtain ⟨h', hcall, -⟩ := hok.call hallowed
  exact ⟨h', hcall⟩

/-- Two buffers, a send that ends inside the first and one inside the second. -/
theorem repInvariant_two_cuts :
    let h : HashConnection := { initial with
      writeBufs := [⟨1, [4, 5]⟩], firstWriteBufPos := 1, writeIovecBuf := [⟨⟨1, 1⟩, 1⟩]
      writeMsg := ⟨[⟨⟨1, 1⟩, 1⟩], 1⟩, nextNode := 2 }
    h.RepInvariant ∧ ∀ c, h.Allowed c → ∃ h', h.call c = .ok h' := by
  have hrun : writeBufCalls.run initial [.addWriteBuf [1, 2, 3], .addWriteBuf [4, 5],
      .reconfigureWriteBufs 1, .reconfigureWriteBufs 3] = some { initial with
        writeBufs := [⟨1, [4, 5]⟩], firstWriteBufPos := 1, writeIovecBuf := [⟨⟨1, 1⟩, 1⟩]
        writeMsg := ⟨[⟨⟨1, 1⟩, 1⟩], 1⟩, nextNode := 2 } := by decide +kernel
  have hmeets : Meets writeBufCalls Allowed initial [.addWriteBuf [1, 2, 3],
      .addWriteBuf [4, 5], .reconfigureWriteBufs 1, .reconfigureWriteBufs 3] := by
    decide +kernel
  exact repInvariant_of_reachable (Reachable.of_run .init hrun hmeets)

end HashConnection
end LiteMQ
