import LiteMQ.Message.QueueCalls

/-!
# The capacity of the queue

`push_front` compares `messages_.size()` with `max_size_` and cuts off the rest,
but both `add`s compare `message_count_`.  `clear_timeouted` counts an expired
message down and leaves it in `messages_`, so the counter falls behind the deque
and `add` admits messages for which there is no place.

`capacity_iff` says that this, and a `pop` that erases behind the end, are the only
ways to lose the bound.
-/

namespace LiteMQ
namespace QueueCalls

open TransitionSystem

variable {H : Type*} [DecidableEq H]

/-- `messages_` has stayed a deque of at most `maxSize` elements. -/
def InCapacity (maxSize : Nat) (s : State H) : Prop :=
  s.defined = true ∧ s.queue.messages.length ≤ maxSize

instance (maxSize : Nat) (s : State H) : Decidable (InCapacity maxSize s) :=
  inferInstanceAs (Decidable (_ ∧ _))

/-- Where the counter admits a message, `messages_` is not full, and `pop` finds
enough messages for its batch. -/
def AdmitsToRoom (s : State H) : Action H → Prop
  | .add _ _ => s.queue.admits → s.queue.messages.length < s.queue.maxSize
  | .addTimed _ _ _ _ => s.queue.admitsTimed → s.queue.messages.length < s.queue.maxSize
  | .pop _ sendSize => s.queue.PopsInside s.holders sendSize
  | .pushFront _ _ | .drop _ | .clearTimeouted _ => True

instance (s : State H) (a : Action H) : Decidable (AdmitsToRoom s a) :=
  match a with
  | .add _ _ => inferInstanceAs (Decidable (_ → _))
  | .addTimed _ _ _ _ => inferInstanceAs (Decidable (_ → _))
  | .pop _ sendSize => inferInstanceAs (Decidable (s.queue.PopsInside s.holders sendSize))
  | .pushFront _ _ | .drop _ | .clearTimeouted _ => inferInstanceAs (Decidable True)

/-- `max_size_` is `maxSize`, and `messages_` is within it. -/
structure Bounded (maxSize : Nat) (s : State H) : Prop where
  maxSize_eq : s.queue.maxSize = maxSize
  inCapacity : InCapacity maxSize s

theorem bounded_init (maxSize : Nat) : Bounded maxSize (system H maxSize).init :=
  ⟨rfl, rfl, Nat.zero_le maxSize⟩

/-- A call that admits a message to a full deque, or erases behind its end, loses
the bound, and every other call keeps it. -/
theorem Bounded.step_iff {maxSize : Nat} {s t : State H} {a : Action H} (hs : Bounded maxSize s)
    (hstep : QueueCalls.step s a = some t) : InCapacity maxSize t ↔ AdmitsToRoom s a := by
  obtain ⟨hmax, hdefined, hlength⟩ := hs
  cases a with
  | add data now =>
      obtain rfl := Option.some.inj hstep
      simp only [InCapacity, hdefined, true_and, MessageQueue.add_messages, List.length_append,
        AdmitsToRoom, hmax]
      by_cases hadmits : s.queue.admits
      · rw [if_pos hadmits, List.length_singleton, forall_prop_of_true hadmits]
        exact Nat.succ_le_iff
      · simpa [hadmits] using hlength
  | addTimed data now timeout requestId =>
      obtain rfl := Option.some.inj hstep
      simp only [InCapacity, hdefined, true_and, MessageQueue.addTimed_messages,
        List.length_append, AdmitsToRoom, hmax]
      by_cases hadmits : s.queue.admitsTimed
      · rw [if_pos hadmits, List.length_singleton, forall_prop_of_true hadmits]
        exact Nat.succ_le_iff
      · simpa [hadmits] using hlength
  | pop h sendSize =>
      obtain ⟨hinside, rfl⟩ | ⟨houtside, rfl⟩ := step_pop hstep
      · refine iff_of_true ⟨hdefined, ?_⟩ hinside
        have hparts := congrArg List.length
          (s.queue.pop_resultMessages_append s.holders sendSize)
        rw [List.length_append] at hparts
        show (s.queue.pop s.holders [] sendSize).queue.messages.length ≤ maxSize
        omega
      · exact iff_of_false (fun h => by cases h.1) houtside
  | pushFront h messages =>
      obtain rfl := Option.some.inj hstep
      refine iff_of_true ⟨hdefined, ?_⟩ trivial
      -- the rest of the deque is cut off
      simp only [MessageQueue.pushFront, hmax]
      exact List.length_take_le ..
  | drop h =>
      obtain rfl := Option.some.inj hstep
      exact iff_of_true ⟨hdefined, hlength⟩ trivial
  | clearTimeouted time =>
      obtain rfl := Option.some.inj hstep
      refine iff_of_true ⟨hdefined, ?_⟩ trivial
      simpa only [MessageQueue.clearTimeouted_messages] using hlength

/-- No call changes `max_size_`. -/
theorem maxSize_step {s t : State H} {a : Action H} (hstep : QueueCalls.step s a = some t) :
    t.queue.maxSize = s.queue.maxSize := by
  cases a with
  | add data now =>
      obtain rfl := Option.some.inj hstep
      exact s.queue.add_maxSize s.holders s.nextMessage data now
  | addTimed data now timeout requestId =>
      obtain rfl := Option.some.inj hstep
      exact s.queue.addTimed_maxSize s.holders s.nextMessage data now timeout requestId
  | pop h sendSize => obtain ⟨-, rfl⟩ | ⟨-, rfl⟩ := step_pop hstep <;> rfl
  | clearTimeouted time =>
      obtain rfl := Option.some.inj hstep
      exact s.queue.clearTimeouted_maxSize s.holders time
  | _ =>
      obtain rfl := Option.some.inj hstep
      rfl

/-- The deque stays within `max_size_` in every state of a run exactly when no
message is admitted to a full deque and every `pop` finds enough messages for its
batch. -/
theorem capacity_iff {maxSize : Nat} (actions : List (Action H)) :
    Throughout (system H maxSize) (InCapacity maxSize) (system H maxSize).init actions ↔
      Meets (system H maxSize) AdmitsToRoom (system H maxSize).init actions := by
  obtain ⟨t, hrun⟩ := exists_run maxSize (system H maxSize).init actions
  have hgood : ∀ (s : State H) a t, Bounded maxSize s → unguarded s a → AdmitsToRoom s a →
      step s a = some t → Bounded maxSize t := by
    intro s a t hs _ hroom hstep
    exact ⟨(maxSize_step hstep).trans hs.maxSize_eq, (hs.step_iff hstep).mpr hroom⟩
  have hbad : ∀ (s : State H) a t, Bounded maxSize s → unguarded s a → ¬ AdmitsToRoom s a →
      step s a = some t → ¬ InCapacity maxSize t := by
    intro s a t hs _ hroom hstep hbound
    exact hroom ((hs.step_iff hstep).mp hbound)
  exact throughout_iff_meets (fun _ hs => hs.inCapacity) hgood hbad (bounded_init maxSize) hrun
    (meets_unguarded _ _)

/-- Each message times out before the next one comes; the third is in a queue of
`max_size_ = 2`. -/
theorem capacity_exceeded :
    ∃ s, (system Unit 2).run (system Unit 2).init
        [.addTimed [1] 5 7 1, .clearTimeouted 7, .addTimed [2] 8 9 2, .clearTimeouted 9,
          .addTimed [3] 10 11 3] = some s ∧
      s.queue.messages = [0, 1, 2] ∧ s.queue.messageCount = 1 ∧ ¬ InCapacity 2 s := by
  have hend : ((system Unit 2).run (system Unit 2).init
      [.addTimed [1] 5 7 1, .clearTimeouted 7, .addTimed [2] 8 9 2, .clearTimeouted 9,
        .addTimed [3] 10 11 3]).map (fun s => (s.queue.messages, s.queue.messageCount)) =
      some ([0, 1, 2], 1) := by
    decide +kernel
  obtain ⟨s, hrun, hvalues⟩ := Option.map_eq_some_iff.mp hend
  simp only [Prod.mk.injEq] at hvalues
  obtain ⟨hmessages, hcount⟩ := hvalues
  refine ⟨s, hrun, hmessages, hcount, ?_⟩
  rw [InCapacity, hmessages]
  exact fun hbound => absurd hbound.2 (by decide)

end QueueCalls
end LiteMQ
