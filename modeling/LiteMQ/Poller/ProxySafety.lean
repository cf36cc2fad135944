import LiteMQ.Poller.Proxy

/-!
# When a proxy uses its owner

`detach_()` runs in the destructor, so after the last reference was released.  In
between `owner_` still points to an owner whose count is zero, and `get_ptr()` throws
`bad_weak_ptr` out of `lock_owner_`, which is `throw()` (`bad_weak_ptr_before_detach`).
A pool does not call `detach_()` at all.

`proxy_safe_iff` says that nothing else goes wrong, for both classes.
-/

namespace LiteMQ
namespace Proxy

open TransitionSystem

variable {T : Type*}

/-- `owner_` is set until `detach_()`, and the owner is alive as long as it is referred
to, in particular by the threads that are to use it. -/
structure Inv (s : State T) : Prop where
  used : s.misuse = none
  alive : s.phase = .alive ↔ 0 < s.useCount
  owner : s.owner = true ↔ s.phase = .alive ∨ s.phase = .released
  held : ∀ t, (s.pcs t).holds = true → t ∈ s.holders

/-- A counted reference keeps the owner alive. -/
theorem Inv.alive_of_external {s : State T} (hs : Inv s) (h : 0 < s.external) :
    s.phase = .alive := by
  apply hs.alive.mpr
  unfold State.useCount
  omega

/-- So does the local pointer of a thread. -/
theorem Inv.alive_of_holds {s : State T} (hs : Inv s) {t : T} (h : (s.pcs t).holds = true) :
    s.phase = .alive := by
  have hlength := List.length_pos_of_mem (hs.held t h)
  apply hs.alive.mpr
  unfold State.useCount
  omega

/-- Once the owner is not alive nothing is counted. -/
theorem Inv.not_counted {s : State T} (hs : Inv s) (h : s.phase ≠ .alive) :
    ¬ 0 < s.useCount := mt hs.alive.mpr h

theorem Inv.safe {s : State T} (hs : Inv s) : Safe s := by
  have hgone : s.phase = .gone → s.owner = false := by
    intro hphase
    have hnot := hs.owner
    simp only [hphase, reduceCtorEq, or_self, iff_false, Bool.not_eq_true] at hnot
    exact hnot
  constructor
  · exact hs.used
  · intro t hpc
    exact hs.alive_of_holds (by rw [hpc]; rfl)
  · exact hgone
  · intro hphase
    rw [lockOwner, if_pos (hgone hphase)]

/-- The release of a reference, of an owner that was alive. -/
theorem Inv.released {s : State T} (hused : s.misuse = none) (hphase : s.phase = .alive)
    (howner : s.owner = true) (hheld : ∀ t, (s.pcs t).holds = true → t ∈ s.holders) :
    Inv s.released := by
  unfold State.released
  by_cases hzero : s.useCount = 0
  · rw [if_pos hzero]
    constructor
    · exact hused
    · have hcount : State.useCount { s with phase := .released } = 0 := hzero
      rw [hcount]
      simp
    · simp [howner]
    · exact hheld
  · rw [if_neg hzero]
    constructor
    · exact hused
    · simpa [hphase] using Nat.pos_of_ne_zero hzero
    · simp [howner, hphase]
    · exact hheld

variable [DecidableEq T]

/-- The local pointers of the threads when one of them moves on and the others do not. -/
theorem held_update {holders holders' : List T} {pcs : T → Pc} {t : T} {pc : Pc}
    (hheld : ∀ t', (pcs t').holds = true → t' ∈ holders)
    (hothers : ∀ t', t' ≠ t → t' ∈ holders → t' ∈ holders')
    (hpc : pc.holds = true → t ∈ holders') :
    ∀ t', (Function.update pcs t pc t').holds = true → t' ∈ holders' := by
  intro t' hholds
  by_cases ht : t' = t
  · subst ht
    rw [Function.update_self] at hholds
    exact hpc hholds
  · rw [Function.update_of_ne ht] at hholds
    exact hothers t' ht (hheld t' hholds)

/-- The next step of a thread, when it does not evaluate `owner_` after the last
release. -/
theorem Inv.next {s s' : State T} (hs : Inv s) {t : T} {fails : Bool}
    (hguard : s.pcs t = .locked → s.phase ≠ .released) (h : Proxy.next s t fails = some s') :
    Inv s' := by
  unfold Proxy.next at h
  cases hpc : s.pcs t with
  | idle | returned result | threw => simp [hpc] at h
  | locked =>
      simp only [hpc] at h
      by_cases howner : s.owner = false
      · -- detached: the lock gives no reference
        rw [lockOwner, if_pos howner] at h
        obtain rfl := Option.some.inj h
        exact ⟨hs.used, hs.alive, hs.owner,
          held_update hs.held (fun _ _ => id) (by simp [Pc.holds])⟩
      · -- the owner is set and, by the guard, not released: a reference is counted
        rw [Bool.not_eq_false] at howner
        have hphase : s.phase = .alive := (hs.owner.mp howner).resolve_right (hguard hpc)
        have hcount := hs.alive.mp hphase
        rw [lockOwner, if_neg (by simp [howner]), if_neg (by simp [hphase]),
          if_neg (Nat.pos_iff_ne_zero.mp hcount)] at h
        obtain rfl := Option.some.inj h
        constructor
        · exact hs.used
        · simp only [hphase, State.useCount, List.length_cons, true_iff]
          omega
        · exact hs.owner
        · exact held_update hs.held (fun t' _ => List.mem_cons_of_mem t)
            (fun _ => List.mem_cons_self ..)
  | unlocking found =>
      simp only [hpc] at h
      obtain rfl := Option.some.inj h
      refine ⟨hs.used, hs.alive, hs.owner, held_update hs.held (fun _ _ => id) ?_⟩
      intro hholds
      apply hs.held t
      cases found with
      | true => rw [hpc]; rfl
      | false => cases hholds
  | adding =>
      simp only [hpc] at h
      obtain rfl := Option.some.inj h
      refine ⟨hs.used, hs.alive, hs.owner, held_update hs.held (fun _ _ => id) ?_⟩
      exact fun _ => hs.held t (by rw [hpc]; rfl)
  | releasing threw =>
      simp only [hpc] at h
      obtain rfl := Option.some.inj h
      -- the thread's own reference has kept the object alive so far
      have hphase := hs.alive_of_holds (by rw [hpc]; rfl)
      apply Inv.released
      · exact hs.used
      · exact hphase
      · exact hs.owner.mpr (Or.inl hphase)
      · apply held_update hs.held
        · exact fun t' hne hin => (List.mem_erase_of_ne hne).mpr hin
        · cases threw <;> simp [Pc.holds]

theorem Inv.step {kind : Owner} {s s' : State T} (hs : Inv s) {a : Action T}
    (hguard : InTime kind s a) (h : Proxy.step kind s a = some s') : Inv s' := by
  unfold Proxy.step at h
  rw [if_neg (by simp [hs.used])] at h
  cases a with
  | add t =>
      have hnot : (Pc.locked).holds = true → t ∈ s.holders := by simp [Pc.holds]
      cases hpc : s.pcs t with
      | idle | returned result | threw =>
          simp only [hpc] at h
          obtain rfl := Option.some.inj h
          exact ⟨hs.used, hs.alive, hs.owner, held_update hs.held (fun _ _ => id) hnot⟩
      | locked | unlocking found | adding | releasing threw => simp [hpc] at h
  | next t fails => exact hs.next hguard h
  | copy =>
      simp only at h
      split at h
      · rename_i hexternal
        obtain rfl := Option.some.inj h
        have hphase := hs.alive_of_external (by omega)
        refine ⟨hs.used, iff_of_true hphase ?_, hs.owner, hs.held⟩
        show 0 < s.external + 1 + s.holders.length
        omega
      · cases h
  | release =>
      simp only at h
      split at h
      · rename_i hexternal
        obtain rfl := Option.some.inj h
        have hphase := hs.alive_of_external (by omega)
        apply Inv.released
        · exact hs.used
        · exact hphase
        · exact hs.owner.mpr (Or.inl hphase)
        · exact hs.held
      · cases h
  | detach =>
      simp only at h
      split at h
      · -- `detach_` runs in the destructor, when nothing is counted any more
        rename_i hdetach
        obtain rfl := Option.some.inj h
        have hzero := hs.not_counted (by rw [hdetach.2.1]; simp)
        exact ⟨hs.used, iff_of_false (by simp) hzero, by simp, hs.held⟩
      · cases h
  | destroy =>
      have hdetaches : kind.detaches = true := hguard
      simp only [hdetaches, if_true] at h
      split at h
      · rename_i hphase
        obtain rfl := Option.some.inj h
        have hzero := hs.not_counted (by rw [hphase]; simp)
        have hnull : ¬ s.owner = true := by
          rw [hs.owner, hphase]
          simp
        exact ⟨hs.used, iff_of_false (by simp) hzero, iff_of_false hnull (by simp), hs.held⟩
      · cases h

/-- A use of `owner_` after the last release is a misuse, and an owner that is destroyed
without `detach_()` leaves `owner_` set. -/
theorem Inv.not_safe {kind : Owner} {s s' : State T} (hs : Inv s) {a : Action T}
    (hguard : ¬ InTime kind s a) (h : Proxy.step kind s a = some s') : ¬ Safe s' := by
  unfold Proxy.step at h
  rw [if_neg (by simp [hs.used])] at h
  cases a with
  | next t fails =>
      simp only [InTime, ne_eq, Classical.not_imp, not_not] at hguard
      obtain ⟨hpc, hphase⟩ := hguard
      have howner : s.owner = true := hs.owner.mpr (Or.inr hphase)
      have hzero : s.useCount = 0 :=
        Nat.eq_zero_of_not_pos (hs.not_counted (by rw [hphase]; simp))
      have hlock : lockOwner s = .error .badWeakPtr := by
        rw [lockOwner, if_neg (by simp [howner]), if_neg (by simp [hphase]), if_pos hzero]
      simp only [Proxy.next, hpc, hlock] at h
      obtain rfl := Option.some.inj h
      intro hsafe
      have hused := hsafe.used
      cases hused
  | destroy =>
      have hdetaches : kind.detaches = false := by simpa [InTime] using hguard
      simp only [hdetaches, Bool.false_eq_true, if_false] at h
      split at h
      · rename_i hphase
        obtain rfl := Option.some.inj h
        intro hsafe
        have hnull := hsafe.detached rfl
        have howner := hs.owner.mpr (Or.inr hphase)
        simp [howner] at hnull
      · cases h
  | add t | copy | release | detach => exact absurd trivial hguard

theorem inv_init (kind : Owner) : Inv (system T kind).init := by
  constructor
  · rfl
  · simp [system, State.useCount]
  · simp [system]
  · intro t h
    cases h

/-- In every run of either class the proxy is safe throughout exactly when no thread
evaluates `owner_` between the release of the last reference and `detach_()`, and no owner
is destroyed that does not call that. -/
theorem proxy_safe_iff {kind : Owner} {actions : List (Action T)} {s : State T}
    (hrun : (system T kind).run (system T kind).init actions = some s) :
    Throughout (system T kind) Safe (system T kind).init actions ↔
      Meets (system T kind) (InTime kind) (system T kind).init actions := by
  have hgood : ∀ s a s', Inv s → unguarded s a → InTime kind s a →
      (system T kind).step s a = some s' → Inv s' := by
    intro s a s' hs _ hguard hstep
    exact hs.step hguard hstep
  have hbad : ∀ s a s', Inv s → unguarded s a → ¬ InTime kind s a →
      (system T kind).step s a = some s' → ¬ Safe s' := by
    intro s a s' hs _ hguard hstep
    exact hs.not_safe hguard hstep
  exact throughout_iff_meets (fun s hs => hs.safe) hgood hbad (inv_init kind) hrun
    (meets_unguarded _ _)

/-- A thread adds a handler and keeps the poller alive while the reference of the program
is released.  Another one calls `add` when the poller is destroyed. -/
def destroyedByThread (t late : T) : List (Action T) :=
  [.add t, .next t false, .release, .next t false, .next t false, .next t false, .detach,
    .destroy, .add late, .next late false, .next late false]

theorem proxy_safe_iff_destroyed_by_thread :
    ∃ s, (system (Fin 2) .poller).run (system (Fin 2) .poller).init
        (destroyedByThread 0 1) = some s ∧
      s.phase = .gone ∧ s.pcs 1 = .returned false ∧
      Throughout (system (Fin 2) .poller) Safe (system (Fin 2) .poller).init
        (destroyedByThread 0 1) := by
  have hend : ((system (Fin 2) .poller).run (system (Fin 2) .poller).init
      (destroyedByThread 0 1)).map
      (fun s => (s.phase, s.pcs 1)) = some (.gone, .returned false) := by
    decide +kernel
  obtain ⟨s, hrun, hvalues⟩ := Option.map_eq_some_iff.mp hend
  obtain ⟨hphase, hpc⟩ := Prod.mk.inj hvalues
  exact ⟨s, hrun, hphase, hpc, (proxy_safe_iff hrun).mpr (by decide +kernel)⟩

/-- The last reference to a poller is released, and a thread calls `Proxy::add` before the
destructor has come to `detach_()`.  A pool is destroyed, and its proxy still points to
it. -/
theorem bad_weak_ptr_before_detach :
    (∃ s, (system (Fin 1) .poller).run (system (Fin 1) .poller).init
        [.release, .add 0, .next 0 false] = some s ∧
      s.misuse = some .badWeakPtr ∧ ¬ Safe s) ∧
    ∃ s, (system (Fin 1) .pool).run (system (Fin 1) .pool).init
        [.release, .destroy, .add 0, .next 0 false] = some s ∧
      s.misuse = some .dangling ∧ ¬ Safe s := by
  have hpoller : ((system (Fin 1) .poller).run (system (Fin 1) .poller).init
      [.release, .add 0, .next 0 false]).map State.misuse = some (some .badWeakPtr) := by
    decide +kernel
  have hpool : ((system (Fin 1) .pool).run (system (Fin 1) .pool).init
      [.release, .destroy, .add 0, .next 0 false]).map State.misuse = some (some .dangling) := by
    decide +kernel
  obtain ⟨s, hrun, hmisuse⟩ := Option.map_eq_some_iff.mp hpoller
  obtain ⟨s', hrun', hmisuse'⟩ := Option.map_eq_some_iff.mp hpool
  refine ⟨⟨s, hrun, hmisuse, fun hsafe => ?_⟩, s', hrun', hmisuse', fun hsafe => ?_⟩
  · rw [hsafe.used] at hmisuse
    cases hmisuse
  · rw [hsafe.used] at hmisuse'
    cases hmisuse'

end Proxy
end LiteMQ
