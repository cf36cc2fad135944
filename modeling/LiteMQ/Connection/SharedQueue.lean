import LiteMQ.Connection.SendDescriptorHandler
import LiteMQ.Foundation.TransitionSystem

/-!
# Handlers that share one queue

Any number of `SendDescriptorHandler`s run `write()` on the queue of one
connection, while `Connection::send` and the timed `add` put messages into it
and `clear_timeouted` expires some.

Handlers start without a partly sent message, and no step ever gives them one:
`Quiet.step`.  So in no run does a handler come to `::sendmsg`.  It leaves the
language when it fills a batch with an expired message, or when its `pop` finds
too little in the queue (`defined_step_iff`).
-/

namespace LiteMQ
namespace SharedQueue

open SendDescriptorHandler

/-- The queue, the holders in memory and the handlers.  `nextMessage` is the
identity of the next message, `sendReturned` the messages for which `send()`
has returned `true`. -/
structure State (H : Type*) where
  queue : MessageQueue
  holders : Holders
  nextMessage : MessageId
  sendReturned : List MessageId
  writers : H → Writer

/-- A call on the queue, or the next operation of a handler in `write()` with
the result of the `::sendmsg` that it may make. -/
inductive Action (H : Type*)
  | send (data : List UInt8) (now : Time)
  | addTimed (data : List UInt8) (now timeout : Time) (requestId : UInt64)
  | clearTimeouted (time : Time)
  | write (h : H) (outcome : SendOutcome)

variable {H : Type*} [DecidableEq H]

def step (order : ByteOrder) (s : State H) : Action H → Option (State H)
  | .send data now =>
      -- `send()` returns `true` whatever `add` returned
      let added := s.queue.add s.holders s.nextMessage data now
      some { s with
        queue := added.1, holders := added.2.1
        nextMessage := s.nextMessage + 1
        sendReturned := s.sendReturned ++ [s.nextMessage] }
  | .addTimed data now timeout requestId =>
      let added := s.queue.addTimed s.holders s.nextMessage data now timeout requestId
      some { s with queue := added.1, holders := added.2.1, nextMessage := s.nextMessage + 1 }
  | .clearTimeouted time =>
      let cleared := s.queue.clearTimeouted s.holders time
      some { s with queue := cleared.1, holders := cleared.2 }
  | .write h outcome =>
      (writeStep order s.queue s.holders (s.writers h) outcome).map fun result =>
        { s with
          queue := result.queue, holders := result.holders
          writers := Function.update s.writers h result.writer }

/-- A new queue of `maxSize` and new handlers.  `messageCount` is what
`message_count_` happens to hold, `connected h` whether `::connect` succeeded
at once in the constructor of `h`. -/
def system (order : ByteOrder) (maxSize : Nat) (messageCount : Int) (connected : H → Bool) :
    TransitionSystem (State H) (Action H) where
  init := ⟨.initial maxSize messageCount, .initial, 0, [], fun h => .initial (connected h)⟩
  step := step order

/-- What a call does that leaves `queue` and `holders`, creates `created`
messages and returns `true` for `returned`. -/
structure Called (s t : State H) (queue : MessageQueue) (holders : Holders) (created : Nat)
    (returned : List MessageId) : Prop where
  queue : t.queue = queue
  holders : t.holders = holders
  nextMessage : t.nextMessage = s.nextMessage + created
  sendReturned : t.sendReturned = s.sendReturned ++ returned
  writers : t.writers = s.writers

section Steps

variable {order : ByteOrder} {s t : State H} {data : List UInt8} {now timeout time : Time}
  {requestId : UInt64}

theorem step_send (hstep : step order s (.send data now) = some t) :
    Called s t (s.queue.add s.holders s.nextMessage data now).1
      (s.queue.add s.holders s.nextMessage data now).2.1 1 [s.nextMessage] := by
  obtain rfl := Option.some.inj hstep
  exact ⟨rfl, rfl, rfl, rfl, rfl⟩

theorem step_addTimed (hstep : step order s (.addTimed data now timeout requestId) = some t) :
    Called s t (s.queue.addTimed s.holders s.nextMessage data now timeout requestId).1
      (s.queue.addTimed s.holders s.nextMessage data now timeout requestId).2.1 1 [] := by
  obtain rfl := Option.some.inj hstep
  exact ⟨rfl, rfl, rfl, (List.append_nil _).symm, rfl⟩

theorem step_clearTimeouted (hstep : step order s (.clearTimeouted time) = some t) :
    Called s t (s.queue.clearTimeouted s.holders time).1
      (s.queue.clearTimeouted s.holders time).2 0 [] := by
  obtain rfl := Option.some.inj hstep
  exact ⟨rfl, rfl, rfl, (List.append_nil _).symm, rfl⟩

end Steps

/-- What an operation of the handler `h` with that result does to the whole
state. -/
structure Wrote (s t : State H) (h : H) (result : WriteResult) : Prop where
  queue : t.queue = result.queue
  holders : t.holders = result.holders
  nextMessage : t.nextMessage = s.nextMessage
  sendReturned : t.sendReturned = s.sendReturned
  self : t.writers h = result.writer
  other : ∀ h', h' ≠ h → t.writers h' = s.writers h'

theorem step_write {order : ByteOrder} {s t : State H} {h : H} {outcome : SendOutcome}
    (hstep : step order s (.write h outcome) = some t) :
    ∃ result, writeStep order s.queue s.holders (s.writers h) outcome = some result ∧
      Wrote s t h result := by
  obtain ⟨result, hresult, rfl⟩ := Option.map_eq_some_iff.mp hstep
  exact ⟨result, hresult, rfl, rfl, rfl, rfl, Function.update_self ..,
    fun h' hne => Function.update_of_ne hne ..⟩

/-- A call on the queue leaves the handlers alone. -/
theorem writers_of_step {order : ByteOrder} {s t : State H} {a : Action H}
    (hstep : step order s a = some t) :
    t.writers = s.writers ∨ ∃ h outcome, a = .write h outcome := by
  cases a with
  | send data now => exact Or.inl (step_send hstep).writers
  | addTimed data now timeout requestId => exact Or.inl (step_addTimed hstep).writers
  | clearTimeouted time => exact Or.inl (step_clearTimeouted hstep).writers
  | write h outcome => exact Or.inr ⟨h, outcome, rfl⟩

/-- No handler has come to `::sendmsg`. -/
def Quiet (s : State H) : Prop := ∀ h, (s.writers h).Quiet

theorem quiet_init (order : ByteOrder) (maxSize : Nat) (messageCount : Int)
    (connected : H → Bool) : Quiet (system order maxSize messageCount connected).init :=
  fun h => Writer.quiet_initial (connected h)

theorem Quiet.step {order : ByteOrder} {s t : State H} {a : Action H} (hs : Quiet s)
    (hstep : SharedQueue.step order s a = some t) : Quiet t := by
  intro h'
  rcases writers_of_step hstep with hsame | ⟨h, outcome, rfl⟩
  · rw [hsame]
    exact hs h'
  · obtain ⟨result, hresult, hwrote⟩ := step_write hstep
    rcases eq_or_ne h' h with rfl | hne
    · rw [hwrote.self]
      exact ((hs h').writeStep hresult).2
    · rw [hwrote.other h' hne]
      exact hs h'

/-! ## Undefined behaviour -/

/-- No handler has left the language. -/
def Defined (s : State H) : Prop := ∀ h fault, (s.writers h).pc ≠ .undefined fault

theorem defined_init (order : ByteOrder) (maxSize : Nat) (messageCount : Int)
    (connected : H → Bool) : Defined (system order maxSize messageCount connected).init :=
  fun _ _ hpc => by cases hpc

/-- The batch for which the handler's next operation is `fill_send_messages_`. -/
def filling (s : State H) (h : H) : List MessageId :=
  match (s.writers h).pc with
  | .popped messages => messages
  | _ => []

/-- The next operation of the handler stays in the language: no message of the
batch that it fills has expired, and what it pops is enough for a batch. -/
def StaysDefined (s : State H) (h : H) : Prop :=
  (∀ m ∈ filling s h, (s.holders.holder m).expired = 0) ∧
    ((s.writers h).pc = .loop → s.queue.PopsInside s.holders 16000)

instance (s : State H) (h : H) : Decidable (StaysDefined s h) :=
  inferInstanceAs (Decidable ((∀ m ∈ filling s h, _) ∧ (_ → _)))

/-- A handler that has left the language stays outside. -/
theorem undefined_step {order : ByteOrder} {s t : State H} {a : Action H}
    (hs : ¬ Defined s) (hstep : step order s a = some t) : ¬ Defined t := by
  simp only [Defined, not_forall, not_not] at hs ⊢
  obtain ⟨h, fault, hpc⟩ := hs
  refine ⟨h, fault, ?_⟩
  rcases writers_of_step hstep with hsame | ⟨h', outcome, rfl⟩
  · rw [hsame]
    exact hpc
  · obtain ⟨result, hresult, hwrote⟩ := step_write hstep
    rcases eq_or_ne h h' with rfl | hne
    · rw [writeStep, hpc] at hresult
      cases hresult
    · rw [hwrote.other h hne]
      exact hpc

/-- A handler leaves the language exactly with an operation that does not stay. -/
theorem defined_step_iff {order : ByteOrder} {s t : State H} {h : H} {outcome : SendOutcome}
    (hs : Quiet s) (hdefined : Defined s) (hstep : step order s (.write h outcome) = some t) :
    Defined t ↔ StaysDefined s h := by
  obtain ⟨result, hresult, hwrote⟩ := step_write hstep
  have hself : Defined t ↔ ∀ fault, result.writer.pc ≠ .undefined fault := by
    constructor
    · intro hall fault
      rw [← hwrote.self]
      exact hall h fault
    · intro hpc h' fault
      rcases eq_or_ne h' h with rfl | hne
      · rw [hwrote.self]
        exact hpc fault
      · rw [hwrote.other h' hne]
        exact hdefined h' fault
  rw [hself]
  cases ((hs h).writeStep hresult).1 with
  | enter hpc handler => simp [StaysDefined, filling, hpc]
  | pop hpc hinside => simp [StaysDefined, filling, hpc, hinside]
  | popFault hpc houtside => simp [StaysDefined, filling, hpc, houtside]
  | dropBatch messages hpc hlive handler => simpa [StaysDefined, filling, hpc] using hlive
  | fault messages hpc hexpired =>
      obtain ⟨m, hm, hne⟩ := hexpired
      simpa [StaysDefined, filling, hpc] using ⟨m, hm, hne⟩

/-- No other step leaves the language. -/
theorem defined_of_staysDefined {order : ByteOrder} {s t : State H} {a : Action H}
    (hs : Quiet s) (hdefined : Defined s) (hstays : ∀ h outcome, a = .write h outcome →
      StaysDefined s h) (hstep : step order s a = some t) : Defined t := by
  rcases writers_of_step hstep with hsame | ⟨h, outcome, rfl⟩
  · rw [Defined, hsame]
    exact hdefined
  · exact (defined_step_iff hs hdefined hstep).mpr (hstays h outcome rfl)

end SharedQueue
end LiteMQ
