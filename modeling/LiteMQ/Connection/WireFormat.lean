import LiteMQ.Connection.SharedQueue

/-!
# The outbound wire format

What a socket has accepted should be a prefix of the frames of the messages
that its handler started to send: four bytes with the size in the byte order of
the host, then the data.

`need_to_send()` is inverted, so the first expired message of a batch makes
`fill_send_messages_` ask the missing `partly_sent_message_` for its size, and
a batch of live messages is not sent at all.  When there is no whole batch left
in the queue, `pop` erases behind its end.  `wireFormat_iff_wholeLiveBatches` is
the exact condition over runs.
-/

namespace LiteMQ
namespace SharedQueue

open SendDescriptorHandler TransitionSystem

variable {H : Type*} [DecidableEq H]

/-- The four bytes of the size and the data. -/
def frame (order : ByteOrder) (holder : MessageHolder) : List UInt8 :=
  order.bytes holder.size.toUInt32 ++ holder.data

/-- Every handler has stayed in the language, and what its socket accepted is a
prefix of the frames of its messages. -/
def WireFormat (order : ByteOrder) (s : State H) : Prop :=
  Defined s ∧ ∀ h, (s.writers h).accepted <+:
    ((s.writers h).started.map fun m => frame order (s.holders.holder m)).flatten

/-- No message of the batch that is filled next has expired, and the messages
in the queue from which a handler pops next are enough for a batch. -/
def WholeLiveBatch (s : State H) : Action H → Prop
  | .write h _ => StaysDefined s h
  | _ => True

instance (s : State H) (a : Action H) : Decidable (WholeLiveBatch s a) :=
  match a with
  | .write h _ => inferInstanceAs (Decidable (StaysDefined s h))
  | .send _ _ | .addTimed _ _ _ _ | .clearTimeouted _ => inferInstanceAs (Decidable True)

/-- A step that breaks the condition leads out of the language. -/
theorem undefined_of_not_wholeLiveBatch {order : ByteOrder} {s t : State H} {a : Action H}
    (hs : Quiet s) (hdefined : Defined s) (hlive : ¬ WholeLiveBatch s a)
    (hstep : step order s a = some t) : ¬ Defined t := by
  cases a with
  | write h outcome => exact fun hend => hlive ((defined_step_iff hs hdefined hstep).mp hend)
  | send data now => exact absurd trivial hlive
  | addTimed data now timeout requestId => exact absurd trivial hlive
  | clearTimeouted time => exact absurd trivial hlive

omit [DecidableEq H] in
/-- A socket that accepted nothing has the wire format. -/
theorem wireFormat_of_quiet {order : ByteOrder} {s : State H} (hs : Quiet s)
    (hdefined : Defined s) : WireFormat order s := by
  refine ⟨hdefined, fun h => ?_⟩
  rw [(hs h).accepted]
  exact List.nil_prefix

/-- At the end of a run the wire format holds exactly when every batch that
came to `fill_send_messages_` was live then, and every `pop` found enough
messages for a batch. -/
theorem wireFormat_iff_wholeLiveBatches (order : ByteOrder) (maxSize : Nat) (messageCount : Int)
    (connected : H → Bool) {actions : List (Action H)} {s : State H}
    (hrun : (system order maxSize messageCount connected).run
      (system order maxSize messageCount connected).init actions = some s) :
    WireFormat order s ↔ Meets (system order maxSize messageCount connected) WholeLiveBatch
      (system order maxSize messageCount connected).init actions := by
  have hgood : ∀ (s : State H) a t, Quiet s ∧ Defined s → WholeLiveBatch s a →
      step order s a = some t → Quiet t ∧ Defined t := by
    rintro s a t ⟨hquiet, hdefined⟩ hlive hstep
    refine ⟨hquiet.step hstep, defined_of_staysDefined hquiet hdefined ?_ hstep⟩
    rintro h outcome rfl
    exact hlive
  have hbad : ∀ (s : State H) a t, Quiet s ∧ Defined s → ¬ WholeLiveBatch s a →
      step order s a = some t → ¬ Defined t := by
    rintro s a t ⟨hquiet, hdefined⟩ hlive hstep
    exact undefined_of_not_wholeLiveBatch hquiet hdefined hlive hstep
  have hstay : ∀ (s : State H) a t, ¬ Defined s → step order s a = some t → ¬ Defined t :=
    fun _ _ _ hs hstep => undefined_step hs hstep
  exact run_iff_meets hgood hbad hstay
    ⟨quiet_init order maxSize messageCount connected,
      defined_init order maxSize messageCount connected⟩ hrun
    (fun hend => wireFormat_of_quiet hend.1 hend.2) (fun hend hwire => hend hwire.1)

set_option maxRecDepth 100000 in
/-- Two messages that make one batch together. -/
theorem wireFormat_two_messages :
    ∃ s, (system .littleEndian 10 0 fun _ : Unit => true).run
        (system .littleEndian 10 0 fun _ : Unit => true).init
        [.send [1, 2] 5, .send (List.replicate 15990 3) 6, .write () .zero, .write () .zero,
          .write () .zero] = some s ∧ WireFormat .littleEndian s := by
  have hend : ((system .littleEndian 10 0 fun _ : Unit => true).run
      (system .littleEndian 10 0 fun _ : Unit => true).init
      [.send [1, 2] 5, .send (List.replicate 15990 3) 6, .write () .zero, .write () .zero,
        .write () .zero]).isSome = true := by
    decide +kernel
  obtain ⟨s, hrun⟩ := Option.isSome_iff_exists.mp hend
  exact ⟨s, hrun,
    (wireFormat_iff_wholeLiveBatches .littleEndian 10 0 (fun _ => true) hrun).mpr
      (by decide +kernel)⟩

set_option maxRecDepth 100000 in
/-- A message whose time is over is still in the queue when a new handler takes
it.  It is as long as a whole batch, so that the loop of `pop` ends with its
`break`. -/
theorem partly_sent_message_missing :
    ∃ s, (system .littleEndian 10 0 fun _ : Unit => true).run
        (system .littleEndian 10 0 fun _ : Unit => true).init
        [.addTimed (List.replicate 15996 0) 1 5 0, .clearTimeouted 5,
          .write () .zero, .write () .zero, .write () .zero] = some s ∧
      (s.writers ()).pc = .undefined .nullDereference ∧ ¬ WireFormat .littleEndian s := by
  have hend : ((system .littleEndian 10 0 fun _ : Unit => true).run
      (system .littleEndian 10 0 fun _ : Unit => true).init
      [.addTimed (List.replicate 15996 0) 1 5 0, .clearTimeouted 5,
        .write () .zero, .write () .zero, .write () .zero]).map
        (fun s => (s.writers ()).pc) = some (.undefined .nullDereference) := by
    decide +kernel
  obtain ⟨s, hrun, hpc⟩ := Option.map_eq_some_iff.mp hend
  exact ⟨s, hrun, hpc, fun hwire => hwire.1 () _ hpc⟩

end SharedQueue
end LiteMQ
