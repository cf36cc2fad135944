import LiteMQ.Foundation.ShortestPrefix
import LiteMQ.Message.MessageQueue
import Mathlib.Algebra.BigOperators.Group.List.Basic
import Mathlib.Algebra.Order.BigOperators.Group.List
import Mathlib.Data.UInt

/-!
# The prefix that `pop` takes

`pop` moves messages to the caller until their sizes reach `send_size`, and
then erases what it moved.  It leaves its loop by `break` before the last moved
message, or at `messages_.end()`; `++it` is right for the first way out only.
`TakesMinimalPrefix` holds for a call exactly when the loop leaves by `break`
with an honest `cur_size` (`pop_takesMinimalPrefix_iff`).
-/

namespace LiteMQ
namespace MessageQueue

/-- The total `plain_size()` of some messages, as a number. -/
def totalSize (holders : Holders) (messages : List MessageId) : Nat :=
  (messages.map fun m => (holders.holder m).plainSize.toNat).sum

/-- What `cur_size` is after the messages were added to it. -/
def curSize (holders : Holders) (messages : List MessageId) : UInt64 :=
  (messages.map fun m => (holders.holder m).plainSize).sum

/-- What a call of `pop` should do: it moves the shortest non-empty prefix whose
total size reaches `send_size`, or all messages when none does, it touches
nothing else, and the range that it erases lies within `messages_`. -/
def TakesMinimalPrefix (queue : MessageQueue) (holders : Holders)
    (resultMessages : List MessageId) (sendSize : UInt64) : Prop :=
  let popped := queue.pop holders resultMessages sendSize
  let reaches := fun q => sendSize.toNat ≤ totalSize holders q
  ∃ p s, popped.resultMessages = resultMessages ++ p ∧
    popped.queue = { queue with messages := s } ∧ p ++ s = queue.messages ∧
    (IsShortestPrefix reaches p queue.messages ∨
      p = queue.messages ∧ ∀ q, q <+: queue.messages → q ≠ [] → ¬ reaches q) ∧
    popped.eraseEnd ≤ queue.messages.length

/-! ## The two ways out of the loop -/

@[simp] theorem curSize_cons (holders : Holders) (m : MessageId) (ms : List MessageId) :
    curSize holders (m :: ms) = (holders.holder m).plainSize + curSize holders ms := by
  simp [curSize]

@[simp] theorem curSize_nil (holders : Holders) : curSize holders [] = 0 := rfl

/-- The loop breaks behind the shortest prefix with which `cur_size` reaches
`send_size`, or moves everything and stops at the end. -/
theorem popLoop_cases (holders : Holders) (sendSize before : UInt64) (it : Nat)
    (rest : List MessageId) :
    (∃ p, IsShortestPrefix (fun q => sendSize ≤ before + curSize holders q) p rest ∧
      (popLoop holders sendSize before it rest).2 = p ∧
      (popLoop holders sendSize before it rest).1 + 1 = it + p.length) ∨
    ((∀ q, q <+: rest → q ≠ [] → ¬ sendSize ≤ before + curSize holders q) ∧
      (popLoop holders sendSize before it rest).2 = rest ∧
      (popLoop holders sendSize before it rest).1 = it + rest.length) := by
  induction rest generalizing before it with
  | nil =>
      right
      refine ⟨fun q hq hne => absurd (List.prefix_nil.mp hq) hne, rfl, rfl⟩
  | cons m rest ih =>
      by_cases henough : sendSize ≤ before + (holders.holder m).plainSize
      · left
        refine ⟨[m], .singleton (by simpa using henough), ?_, ?_⟩
        · simp [popLoop, henough]
        · simp [popLoop, henough]
      · have hfirst : ¬ sendSize ≤ before + curSize holders [m] := by simpa using henough
        have hassoc : ∀ q, before + curSize holders (m :: q) =
            before + (holders.holder m).plainSize + curSize holders q := by
          intro q
          rw [curSize_cons, UInt64.add_assoc]
        rcases ih (before + (holders.holder m).plainSize) (it + 1) with
          ⟨p, hshortest, hmoved, hplace⟩ | ⟨hnone, hmoved, hplace⟩
        · left
          refine ⟨m :: p, .cons hfirst (by simpa only [hassoc] using hshortest), ?_, ?_⟩
          · simp [popLoop, henough, hmoved]
          · simp only [popLoop, if_neg henough, List.length_cons]
            omega
        · right
          refine ⟨?_, ?_, ?_⟩
          · intro q hq hne
            obtain ⟨y, q, rfl⟩ := List.exists_cons_of_ne_nil hne
            obtain ⟨rfl, htail⟩ := List.cons_prefix_cons.mp hq
            cases q with
            | nil => exact hfirst
            | cons m' q =>
                rw [hassoc]
                exact hnone _ htail (List.cons_ne_nil m' q)
          · simp [popLoop, henough, hmoved]
          · simp only [popLoop, if_neg henough, List.length_cons]
            omega

/-! ## `cur_size` and the total size -/

@[simp] theorem totalSize_append (holders : Holders) (p q : List MessageId) :
    totalSize holders (p ++ q) = totalSize holders p + totalSize holders q := by
  simp [totalSize]

theorem totalSize_mono (holders : Holders) {p q : List MessageId} (h : p <+: q) :
    totalSize holders p ≤ totalSize holders q := by
  obtain ⟨s, rfl⟩ := h
  rw [totalSize_append]
  exact Nat.le_add_right ..

/-- `cur_size` is the total modulo `2 ^ 64`. -/
theorem toNat_curSize (holders : Holders) (ms : List MessageId) :
    (curSize holders ms).toNat = totalSize holders ms % 2 ^ 64 := by
  induction ms with
  | nil => rfl
  | cons m ms ih =>
      rw [curSize_cons, UInt64.toNat_add, ih]
      simp [totalSize]

/-- `cur_size` reaches `send_size` only when the total does. -/
theorem le_totalSize_of_le_curSize {holders : Holders} {sendSize : UInt64}
    {ms : List MessageId} (h : sendSize ≤ curSize holders ms) :
    sendSize.toNat ≤ totalSize holders ms := by
  rw [UInt64.le_iff_toNat_le, toNat_curSize] at h
  exact h.trans (Nat.mod_le _ _)

/-- A total that fits in `cur_size` reaches `send_size` just when `cur_size` does. -/
theorem le_curSize_iff {holders : Holders} {sendSize : UInt64} {ms : List MessageId}
    (hfits : totalSize holders ms < 2 ^ 64) :
    sendSize ≤ curSize holders ms ↔ sendSize.toNat ≤ totalSize holders ms := by
  rw [UInt64.le_iff_toNat_le, toNat_curSize, Nat.mod_eq_of_lt hfits]

/-- The shortest prefix whose total reaches `send_size` has not overflowed
`cur_size` if `cur_size` reaches `send_size` as well: the wrapped sum is below
the sum before its last message. -/
theorem totalSize_lt_of_shortest {holders : Holders} {sendSize : UInt64}
    {p messages : List MessageId}
    (hshortest : IsShortestPrefix (fun q => sendSize.toNat ≤ totalSize holders q) p messages)
    (hcur : sendSize ≤ curSize holders p) : totalSize holders p < 2 ^ 64 := by
  obtain ⟨front, last, rfl⟩ := (List.eq_nil_or_concat' p).resolve_left hshortest.ne_nil
  have hlast : totalSize holders [last] < 2 ^ 64 := by
    simpa [totalSize] using (holders.holder last).plainSize.toNat_lt
  have hfront : front = [] ∨ totalSize holders front < sendSize.toNat := by
    by_contra hnot
    obtain ⟨hne, hreaches⟩ := not_or.mp hnot
    have hle := hshortest.shortest front ((List.prefix_append ..).trans hshortest.isPrefix) hne
      (Nat.le_of_not_lt hreaches)
    have hlength := hle.length_le
    rw [List.length_append, List.length_singleton] at hlength
    omega
  rw [UInt64.le_iff_toNat_le, toNat_curSize, totalSize_append] at hcur
  rw [totalSize_append]
  rcases hfront with rfl | hbefore
  · simpa [totalSize] using hlast
  · have hsend := sendSize.toNat_lt
    omega

/-! ## The calls that take a minimal prefix -/

/-- `pop` erases inside `messages_` exactly when `cur_size` reaches `send_size`
behind some message. -/
theorem popsInside_iff (queue : MessageQueue) (holders : Holders) (sendSize : UInt64) :
    queue.PopsInside holders sendSize ↔
      ∃ q, q <+: queue.messages ∧ q ≠ [] ∧ sendSize ≤ curSize holders q := by
  have hcases := popLoop_cases holders sendSize 0 0 queue.messages
  simp only [UInt64.zero_add, Nat.zero_add] at hcases
  simp only [PopsInside, pop]
  rcases hcases with ⟨p, hbreak, -, hplace⟩ | ⟨hnone, -, hplace⟩
  · rw [hplace]
    exact ⟨fun _ => ⟨p, hbreak.isPrefix, hbreak.ne_nil, hbreak.reaching⟩,
      fun _ => hbreak.isPrefix.length_le⟩
  · -- the loop ran to the end, and `++it` goes past it
    rw [hplace]
    constructor
    · exact fun hrange => absurd hrange (Nat.not_succ_le_self _)
    · rintro ⟨q, hq, hne, hreaches⟩
      exact absurd hreaches (hnone q hq hne)

/-- `pop` takes a minimal prefix and erases within `messages_` exactly when some
non-empty prefix has a total size that reaches `send_size` and fits in an
`unsigned long`. -/
theorem pop_takesMinimalPrefix_iff (queue : MessageQueue) (holders : Holders)
    (resultMessages : List MessageId) (sendSize : UInt64) :
    TakesMinimalPrefix queue holders resultMessages sendSize ↔
      ∃ q, q <+: queue.messages ∧ q ≠ [] ∧ sendSize.toNat ≤ totalSize holders q ∧
        totalSize holders q < 2 ^ 64 := by
  have hcases := popLoop_cases holders sendSize 0 0 queue.messages
  have happend := popLoop_append holders sendSize 0 0 queue.messages
  simp only [UInt64.zero_add, Nat.zero_add, Nat.sub_zero] at hcases happend
  simp only [TakesMinimalPrefix, pop]
  generalize popLoop holders sendSize 0 0 queue.messages = loop at hcases happend ⊢
  obtain ⟨it, moved⟩ := loop
  dsimp only at hcases happend ⊢
  rcases hcases with ⟨p, hbreak, rfl, hplace⟩ | ⟨hnone, rfl, hplace⟩
  · constructor
    · rintro ⟨p, s, hp, -, -, hminimal, -⟩
      obtain rfl := List.append_cancel_left hp
      have hreaches := le_totalSize_of_le_curSize hbreak.reaching
      rcases hminimal with hshortest | ⟨-, hnever⟩
      · exact ⟨moved, hbreak.isPrefix, hbreak.ne_nil, hreaches,
          totalSize_lt_of_shortest hshortest hbreak.reaching⟩
      · exact absurd hreaches (hnever moved hbreak.isPrefix hbreak.ne_nil)
    · rintro ⟨q, hq, hne, hreaches, hfits⟩
      have hle := hbreak.shortest q hq hne ((le_curSize_iff hfits).mpr hreaches)
      have hmoved : totalSize holders moved < 2 ^ 64 :=
        (totalSize_mono holders hle).trans_lt hfits
      refine ⟨moved, queue.messages.drop (it + 1), rfl, rfl, happend.2, Or.inl ?_, ?_⟩
      · apply hbreak.congr ((le_curSize_iff hmoved).mp hbreak.reaching)
        intro q' hq' _ hreaches'
        exact (le_curSize_iff ((totalSize_mono holders hq').trans_lt hmoved)).mpr hreaches'
      · exact hplace ▸ hbreak.isPrefix.length_le
  · -- the loop ran to the end, and `++it` goes past it
    constructor
    · rintro ⟨_, _, -, -, -, -, hrange⟩
      omega
    · rintro ⟨q, hq, hne, hreaches, hfits⟩
      exact absurd ((le_curSize_iff hfits).mpr hreaches) (hnone q hq hne)

/-- A `pop` of the empty queue erases a range that ends behind `end()`. -/
theorem pop_empty_not_takesMinimalPrefix :
    ¬ TakesMinimalPrefix (MessageQueue.initial 100 0) Holders.initial [] 1500 := by
  rintro ⟨_, _, -, -, -, -, hrange⟩
  revert hrange
  decide

end MessageQueue
end LiteMQ
