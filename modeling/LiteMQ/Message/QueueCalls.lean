import LiteMQ.Foundation.TransitionSystem
import LiteMQ.Message.MessageQueue
import Mathlib.Data.List.Perm.Subperm

/-!
# Calls on one queue

Complete calls of both `add`s, of `pop`, `push_front` and `clear_timeouted` on
one `MessageQueue`, in any order.  The callers of `pop` and `push_front` are the
handlers of a connection, any number of them; `batch h` is the vector into which
`pop` moves messages for `h` and from which `h` gives some back.

The arguments of the calls are arbitrary here.  What the accounting and the order
of the messages ask of them is a condition on the steps of a run.  A `pop` that
finds too little in the queue erases behind the end of `messages_`, which is
outside the language: the run goes on with `defined` cleared.
-/

namespace LiteMQ
namespace QueueCalls

/-- The queue, the holders in memory and the batches of the handlers.  `pushed`
lists the messages in the order of their `push_back`, and `defined` is whether all
calls have stayed in the language. -/
structure State (H : Type*) where
  queue : MessageQueue
  holders : Holders
  nextMessage : MessageId
  pushed : List MessageId
  batch : H → List MessageId
  defined : Bool

/-- A call on the queue.  With `drop` the batch of a handler goes out of scope. -/
inductive Action (H : Type*)
  | add (data : List UInt8) (now : Time)
  | addTimed (data : List UInt8) (now timeout : Time) (requestId : UInt64)
  | pop (h : H) (sendSize : UInt64)
  | pushFront (h : H) (messages : List MessageId)
  | drop (h : H)
  | clearTimeouted (time : Time)

variable {H : Type*} [DecidableEq H]

def step (s : State H) : Action H → Option (State H)
  | .add data now =>
      let added := s.queue.add s.holders s.nextMessage data now
      some { s with
        queue := added.1, holders := added.2.1
        nextMessage := s.nextMessage + 1
        pushed := if added.2.2 then s.pushed ++ [s.nextMessage] else s.pushed }
  | .addTimed data now timeout requestId =>
      let added := s.queue.addTimed s.holders s.nextMessage data now timeout requestId
      some { s with
        queue := added.1, holders := added.2.1
        nextMessage := s.nextMessage + 1
        pushed := if added.2.2 then s.pushed ++ [s.nextMessage] else s.pushed }
  | .pop h sendSize =>
      if s.queue.PopsInside s.holders sendSize then
        let popped := s.queue.pop s.holders (s.batch h) sendSize
        some { s with
          queue := popped.queue
          batch := Function.update s.batch h popped.resultMessages }
      else some { s with defined := false }
  | .pushFront h messages =>
      let pushed := s.queue.pushFront s.holders messages
      some { s with
        queue := pushed.1, holders := pushed.2
        batch := Function.update s.batch h ((s.batch h).diff messages) }
  | .drop h => some { s with batch := Function.update s.batch h [] }
  | .clearTimeouted time =>
      let cleared := s.queue.clearTimeouted s.holders time
      some { s with queue := cleared.1, holders := cleared.2 }

/-- A new queue of `maxSize` with `message_count_ = 0`, and empty batches. -/
def system (H : Type*) [DecidableEq H] (maxSize : Nat) :
    TransitionSystem (State H) (Action H) where
  init := ⟨.initial maxSize 0, .initial, 0, [], fun _ => [], true⟩
  step := step

/-- A handler gives back only messages that it got from `pop`, each as often as
it got it. -/
def GivesBackPopped (s : State H) : Action H → Prop
  | .pushFront h messages => messages.Subperm (s.batch h)
  | _ => True

instance (s : State H) (a : Action H) : Decidable (GivesBackPopped s a) :=
  match a with
  | .pushFront h messages => inferInstanceAs (Decidable (messages.Subperm (s.batch h)))
  | .add _ _ | .addTimed _ _ _ _ | .pop _ _ | .drop _ | .clearTimeouted _ =>
      inferInstanceAs (Decidable True)

/-- Every call can be made in every state. -/
theorem exists_step (s : State H) (a : Action H) : ∃ t, step s a = some t := by
  cases a with
  | pop h sendSize =>
      rw [step]
      split <;> exact ⟨_, rfl⟩
  | _ => exact ⟨_, rfl⟩

/-- A `pop` inside `messages_`, and any other. -/
theorem step_pop {s t : State H} {h : H} {sendSize : UInt64}
    (hstep : step s (.pop h sendSize) = some t) :
    (s.queue.PopsInside s.holders sendSize ∧
      t = { s with
        queue := (s.queue.pop s.holders [] sendSize).queue
        batch := Function.update s.batch h
          (s.batch h ++ (s.queue.pop s.holders [] sendSize).resultMessages) }) ∨
      (¬ s.queue.PopsInside s.holders sendSize ∧ t = { s with defined := false }) := by
  rw [step] at hstep
  split at hstep
  · rename_i hinside
    exact Or.inl ⟨hinside, (Option.some.inj hstep).symm⟩
  · rename_i houtside
    exact Or.inr ⟨houtside, (Option.some.inj hstep).symm⟩

theorem exists_run (maxSize : Nat) (s : State H) (actions : List (Action H)) :
    ∃ t, (system H maxSize).run s actions = some t := by
  induction actions generalizing s with
  | nil => exact ⟨s, rfl⟩
  | cons a actions ih =>
      obtain ⟨middle, hstep⟩ := exists_step s a
      obtain ⟨t, hrun⟩ := ih middle
      exact ⟨t, (TransitionSystem.run_cons_eq_some _).mpr ⟨middle, hstep, hrun⟩⟩

end QueueCalls
end LiteMQ
