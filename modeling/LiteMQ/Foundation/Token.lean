import LiteMQ.Foundation.Ledger
import LiteMQ.Foundation.TransitionSystem

/-!
# One token

A token goes from place to place, and whoever has it may act.  When the steps that meet a
guard hand it on, and every other step drops it, then it is somewhere at the end of a run
exactly when all steps met the guard.  A token that was dropped does not come back.
-/

namespace TransitionSystem

open Ledger

variable {State : Type*} {Action : Type*} {Place : Type*}

/-- A step that meets the guard leaves the token where it is or hands it on, any other drops
it. -/
def HandsOn (occ : State → Place → Nat) (guard : State → Action → Prop) (s : State) (a : Action)
    (t : State) : Prop :=
  (guard s a ∧ (occ t = occ s ∨ ∃ p q, p ≠ q ∧ Moved (occ s) (occ t) p q)) ∨
    (¬guard s a ∧ ∃ p, occ s p ≠ 0 ∧ Removed (occ s) (occ t) p)

variable {system : TransitionSystem State Action} {occ : State → Place → Nat}
  {guard : State → Action → Prop} {base : State → Prop} {s t : State} {a : Action}

/-- A guarded step keeps the token. -/
theorem HandsOn.inOnePlace (h : HandsOn occ guard s a t) (hguard : guard s a)
    (hs : InOnePlace (occ s)) : InOnePlace (occ t) := by
  obtain ⟨-, hsame | ⟨p, q, hpq, hmoved⟩⟩ | ⟨hnot, -⟩ := h
  · exact hsame ▸ hs
  · exact hmoved.inOnePlace hpq hs
  · exact absurd hguard hnot

/-- Any other step drops it. -/
theorem HandsOn.nowhere_of_not (h : HandsOn occ guard s a t) (hnot : ¬guard s a)
    (hs : InOnePlace (occ s)) : Nowhere (occ t) := by
  obtain ⟨hguard, -⟩ | ⟨-, p, hp, hremoved⟩ := h
  · exact absurd hguard hnot
  · exact hremoved.nowhere_of_inOnePlace hp hs

/-- A dropped token stays away. -/
theorem HandsOn.nowhere (h : HandsOn occ guard s a t) (hs : Nowhere (occ s)) :
    Nowhere (occ t) := by
  obtain ⟨-, hsame | ⟨p, q, -, hmoved⟩⟩ | ⟨-, p, hp, -⟩ := h
  · exact hsame ▸ hs
  · exact hmoved.nowhere hs
  · exact absurd (hs p) hp

/-- **The token of a run.**  It is somewhere at the end exactly when every step met the
guard, and nowhere otherwise. -/
theorem token_of_run
    (hstep : ∀ s a t, base s → InOnePlace (occ s) ∨ Nowhere (occ s) → system.step s a = some t →
      base t ∧ HandsOn occ guard s a t)
    (hbase : base s) (hone : InOnePlace (occ s)) {actions : List Action}
    (hrun : system.run s actions = some t) :
    (Meets system guard s actions ∧ base t ∧ InOnePlace (occ t)) ∨
      (¬Meets system guard s actions ∧ base t ∧ Nowhere (occ t)) := by
  have hgood : ∀ s a t, base s ∧ InOnePlace (occ s) → guard s a → system.step s a = some t →
      base t ∧ InOnePlace (occ t) := by
    rintro s a t ⟨hbase, hone⟩ hguard h
    obtain ⟨hbase', hchange⟩ := hstep s a t hbase (Or.inl hone) h
    exact ⟨hbase', hchange.inOnePlace hguard hone⟩
  have hbad : ∀ s a t, base s ∧ InOnePlace (occ s) → ¬guard s a → system.step s a = some t →
      base t ∧ Nowhere (occ t) := by
    rintro s a t ⟨hbase, hone⟩ hnot h
    obtain ⟨hbase', hchange⟩ := hstep s a t hbase (Or.inl hone) h
    exact ⟨hbase', hchange.nowhere_of_not hnot hone⟩
  have hstay : ∀ s a t, base s ∧ Nowhere (occ s) → system.step s a = some t →
      base t ∧ Nowhere (occ t) := by
    rintro s a t ⟨hbase, hnowhere⟩ h
    obtain ⟨hbase', hchange⟩ := hstep s a t hbase (Or.inr hnowhere) h
    exact ⟨hbase', hchange.nowhere hnowhere⟩
  exact run_split hgood hbad hstay ⟨hbase, hone⟩ hrun

/-- What holds exactly when the token is somewhere holds exactly behind guarded runs. -/
theorem inOnePlace_iff_meets
    (hstep : ∀ s a t, base s → InOnePlace (occ s) ∨ Nowhere (occ s) → system.step s a = some t →
      base t ∧ HandsOn occ guard s a t)
    (hbase : base s) (hone : InOnePlace (occ s)) {actions : List Action}
    (hrun : system.run s actions = some t) :
    InOnePlace (occ t) ↔ Meets system guard s actions := by
  rcases token_of_run hstep hbase hone hrun with ⟨hmeets, -, hend⟩ | ⟨hnot, -, hend⟩
  · exact ⟨fun _ => hmeets, fun _ => hend⟩
  · exact ⟨fun h => absurd hend h.not_nowhere, fun h => absurd h hnot⟩

/-- **A dropped token does not come back.**  However the run goes on, all its steps are of
those that do not need the token. -/
theorem nowhere_of_run {without : Action → Prop}
    (hstep : ∀ s a t, base s → InOnePlace (occ s) ∨ Nowhere (occ s) → system.step s a = some t →
      base t ∧ HandsOn occ guard s a t)
    (hwithout : ∀ s a t, Nowhere (occ s) → system.step s a = some t → without a)
    (hbase : base s) (hnone : Nowhere (occ s)) {actions : List Action}
    (hrun : system.run s actions = some t) : Nowhere (occ t) ∧ ∀ a ∈ actions, without a := by
  induction actions generalizing s with
  | nil =>
      obtain rfl : s = t := by simpa using hrun
      exact ⟨hnone, List.forall_mem_nil _⟩
  | cons a actions ih =>
      obtain ⟨middle, hfirst, hrest⟩ := (system.run_cons_eq_some).mp hrun
      obtain ⟨hbase', hchange⟩ := hstep s a middle hbase (Or.inr hnone) hfirst
      obtain ⟨hend, hall⟩ := ih hbase' (hchange.nowhere hnone) hrest
      exact ⟨hend, List.forall_mem_cons.mpr ⟨hwithout s a middle hnone hfirst, hall⟩⟩

end TransitionSystem
