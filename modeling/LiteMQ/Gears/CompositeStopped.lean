import LiteMQ.Foundation.Mutex
import LiteMQ.Gears.CompositeThreads

/-!
# `AS_NOT_ACTIVE` means that the children are at rest

The last block of `wait_object` looks at `state_` alone.  A waiter that has copied and
waited for the children in one life cycle may come to it when the next one is being
stopped, and makes the composite `AS_NOT_ACTIVE` before anybody has waited for the
children of that one (`stopped_by_late_waiter`).

`stopped_throughout`: without such a waiter, the children of a composite that is
`AS_NOT_ACTIVE` are at rest, whatever the threads do.
-/

namespace LiteMQ
namespace CompositeThreads

open TransitionSystem

variable {T C : Type*}

/-- The same children are active, and those that were at rest still are. -/
def Calmer (before after : C → ActiveState) : Prop :=
  ∀ c, (after c = .active ↔ before c = .active) ∧ (before c = .notActive → after c = .notActive)

theorem Calmer.refl (objects : C → ActiveState) : Calmer objects objects :=
  fun _ => ⟨Iff.rfl, id⟩

/-- The lock is held by the thread that is in a block with calls of children. -/
def LockHeld (lock : Option T) (pcs : T → Pc C) : Prop :=
  ∀ t, lock = some t ↔ (pcs t).holdsLock = true

/-- A waiter that has copied the children in this life cycle finds those at rest that it
has waited for. -/
def Waited (childObjects : List C) (cycle : Nat) (objects : C → ActiveState) (pcs : T → Pc C) :
    Prop :=
  ∀ t copied rest, pcs t = .waiting copied rest → copied ≤ cycle ∧
    (copied = cycle → ∀ c ∈ childObjects, c ∉ rest → objects c = .notActive)

/-- What `state_` says of the children while the lock is free. -/
def Settled (childObjects : List C) (objects : C → ActiveState) : ActiveState → Prop
  | .active => ∀ c ∈ childObjects, objects c = .active
  | .deactivating => ∀ c ∈ childObjects, objects c ≠ .active
  | .notActive => ∀ c ∈ childObjects, objects c = .notActive

/-- Nobody who waits has copied the children in this life cycle. -/
def NoneWaits (cycle : Nat) (pcs : T → Pc C) : Prop :=
  ∀ t copied rest, pcs t = .waiting copied rest → copied < cycle

/-- When nobody waits with a copy of this life cycle, there is nothing to know. -/
theorem NoneWaits.waited {childObjects : List C} {cycle : Nat} {objects : C → ActiveState}
    {pcs : T → Pc C} (h : NoneWaits cycle pcs) : Waited childObjects cycle objects pcs := by
  intro t copied rest hwaiting
  have hlt := h t copied rest hwaiting
  exact ⟨Nat.le_of_lt hlt, fun heq => absurd heq (Nat.ne_of_lt hlt)⟩

variable [DecidableEq T]

theorem LockHeld.keep {lock : Option T} {pcs : T → Pc C} (h : LockHeld lock pcs) {t : T}
    {pc : Pc C} (hpc : pc.holdsLock = (pcs t).holdsLock) :
    LockHeld lock (Function.update pcs t pc) :=
  Mutex.Held.keep h hpc

theorem LockHeld.take {pcs : T → Pc C} (h : LockHeld none pcs) (t : T) {pc : Pc C}
    (hpc : pc.holdsLock = true) : LockHeld (some t) (Function.update pcs t pc) :=
  Mutex.Held.take h t hpc

theorem LockHeld.release {pcs : T → Pc C} {t : T} (h : LockHeld (some t) pcs) {pc : Pc C}
    (hpc : pc.holdsLock = false) : LockHeld none (Function.update pcs t pc) :=
  Mutex.Held.release h hpc

/-- A step keeps what the waiters know when it takes no child out of rest and the thread
itself knows what it has to. -/
theorem Waited.update {childObjects : List C} {cycle : Nat} {objects objects' : C → ActiveState}
    {pcs : T → Pc C} (h : Waited childObjects cycle objects pcs) {t : T} {pc : Pc C}
    (hkept : ∀ c, objects c = .notActive → objects' c = .notActive)
    (hpc : ∀ copied rest, pc = .waiting copied rest → copied ≤ cycle ∧
      (copied = cycle → ∀ c ∈ childObjects, c ∉ rest → objects' c = .notActive)) :
    Waited childObjects cycle objects' (Function.update pcs t pc) := by
  refine (Function.forall_update_iff pcs fun _ pc => ∀ copied rest, pc = .waiting copied rest →
    copied ≤ cycle ∧ (copied = cycle → ∀ c ∈ childObjects, c ∉ rest → objects' c = .notActive)).mpr
      ⟨hpc, fun t' _ copied rest hwaiting => ?_⟩
  obtain ⟨hle, hrest⟩ := h t' copied rest hwaiting
  exact ⟨hle, fun heq c hmem hnot => hkept c (hrest heq c hmem hnot)⟩

theorem Settled.calmer {childObjects : List C} {before after : C → ActiveState}
    {state : ActiveState} (h : Settled childObjects before state) (hcalmer : Calmer before after) :
    Settled childObjects after state := by
  cases state with
  | active => exact fun c hmem => (hcalmer c).1.mpr (h c hmem)
  | deactivating => exact fun c hmem hactive => h c hmem ((hcalmer c).1.mp hactive)
  | notActive => exact fun c hmem => (hcalmer c).2 (h c hmem)

theorem NoneWaits.update {cycle : Nat} {pcs : T → Pc C} (h : NoneWaits cycle pcs) {t : T}
    {pc : Pc C} (hpc : ∀ copied rest, pc = .waiting copied rest → copied < cycle) :
    NoneWaits cycle (Function.update pcs t pc) := by
  exact (Function.forall_update_iff pcs fun _ pc => ∀ copied rest, pc = .waiting copied rest →
    copied < cycle).mpr ⟨hpc, fun t' _ => h t'⟩

variable [DecidableEq C]

theorem wait_spec {w v : World C} {c : C} {threw : Bool}
    (h : w.waitObject c false = some (v, threw)) :
    Calmer w.objects v.objects ∧ v.objects c = .notActive := by
  simp only [World.waitObject, Bool.false_eq_true, if_false] at h
  split at h
  · cases h
  · rename_i hquiet
    obtain ⟨rfl, -⟩ := Prod.mk.inj (Option.some.inj h)
    refine ⟨fun c' => ?_, by simp⟩
    by_cases hc : c' = c
    · simp [hc, hquiet]
    · simp [hc]

/-- What the thread in the locked block has done to the children and has still to do. -/
def Holding (childObjects : List C) (s : State T C) : Pc C → Prop
  | .activating done rest => s.state = .notActive ∧ done ++ rest = childObjects ∧
      (∀ c ∈ childObjects, s.world.objects c = if c ∈ done then .active else .notActive) ∧
      NoneWaits s.cycle s.pcs
  | .stopping rest undo | .syncWait _ rest undo => s.state = .deactivating ∧
      (∀ c ∈ childObjects, s.world.objects c = .active → c ∈ rest) ∧
      ∀ undone ∈ undo, ∀ c ∈ childObjects, c ∉ undone → s.world.objects c = .notActive
  | .undoWaiting rest => s.state = .deactivating ∧
      (∀ c ∈ childObjects, s.world.objects c ≠ .active) ∧
      ∀ c ∈ childObjects, c ∉ rest → s.world.objects c = .notActive
  | .idle | .waitBegin | .copying | .waiting _ _ => True

structure Inv (childObjects : List C) (s : State T C) : Prop where
  lock : LockHeld s.lock s.pcs
  waited : Waited childObjects s.cycle s.world.objects s.pcs
  free : s.lock = none → Settled childObjects s.world.objects s.state
  held : ∀ t, s.lock = some t → Holding childObjects s (s.pcs t)

/-- A step outside the locked blocks with calls of children. -/
theorem Inv.aside {childObjects : List C} {s : State T C} (hs : Inv childObjects s) {t : T}
    {pc : Pc C} {w : World C} (hold : (s.pcs t).holdsLock = false) (hnew : pc.holdsLock = false)
    (hcalmer : Calmer s.world.objects w.objects)
    (hpc : ∀ copied rest, pc = .waiting copied rest → copied ≤ s.cycle ∧
      (copied = s.cycle → ∀ c ∈ childObjects, c ∉ rest → w.objects c = .notActive))
    (hcopied : ∀ copied rest, pc = .waiting copied rest →
      s.lock = none ∨ ∃ before, s.pcs t = .waiting copied before) :
    Inv childObjects { s with world := w, pcs := Function.update s.pcs t pc } := by
  constructor
  · exact hs.lock.keep (hnew.trans hold.symm)
  · exact hs.waited.update (fun c => (hcalmer c).2) hpc
  · exact fun hfree => (hs.free hfree).calmer hcalmer
  · intro holder hlock
    have hne : holder ≠ t := by
      rintro rfl
      rw [(hs.lock holder).mp hlock] at hold
      cases hold
    -- what the holder relies on survives a calmer world
    have hholding := hs.held holder hlock
    show Holding childObjects _ (Function.update s.pcs t pc holder)
    rw [Function.update_of_ne hne]
    cases hpcs : s.pcs holder with
    | activating done rest =>
        rw [hpcs] at hholding
        obtain ⟨hstate, happend, hobjects, hnone⟩ := hholding
        refine ⟨hstate, happend, fun c hmem => ?_, hnone.update fun copied rest heq => ?_⟩
        · have hc := hobjects c hmem
          by_cases hdone : c ∈ done
          · rw [if_pos hdone] at hc ⊢
            exact (hcalmer c).1.mpr hc
          · rw [if_neg hdone] at hc ⊢
            exact (hcalmer c).2 hc
        · rcases hcopied copied rest heq with hfree | ⟨before, hbefore⟩
          · rw [hlock] at hfree
            cases hfree
          · exact hnone t copied before hbefore
    | stopping rest undo | syncWait c rest undo =>
        rw [hpcs] at hholding
        obtain ⟨hstate, hactive, hundo⟩ := hholding
        refine ⟨hstate, fun c hmem hc => hactive c hmem ((hcalmer c).1.mp hc), ?_⟩
        exact fun undone hsome c hmem hnot => (hcalmer c).2 (hundo undone hsome c hmem hnot)
    | undoWaiting rest =>
        rw [hpcs] at hholding
        obtain ⟨hstate, hactive, hrest⟩ := hholding
        refine ⟨hstate, fun c hmem hc => hactive c hmem ((hcalmer c).1.mp hc), ?_⟩
        exact fun c hmem hnot => (hcalmer c).2 (hrest c hmem hnot)
    | idle | waitBegin | copying | waiting copied rest => trivial

omit [DecidableEq T] in
/-- The thread in the locked block. -/
theorem Inv.holding {childObjects : List C} {s : State T C} (hs : Inv childObjects s) {t : T}
    {pc : Pc C} (hpc : s.pcs t = pc) (hholds : pc.holdsLock = true) :
    (s.pcs t).holdsLock = true ∧ Holding childObjects s pc := by
  subst hpc
  exact ⟨hholds, hs.held t ((hs.lock t).mpr hholds)⟩

/-- A step in a locked block, up to the next call of a child. -/
theorem Inv.inside {childObjects : List C} {s : State T C} (hs : Inv childObjects s) {t : T}
    {pc : Pc C} {state : ActiveState} {w : World C} (hholds : (s.pcs t).holdsLock = true)
    (hnew : pc.holdsLock = true)
    (hwaited : Waited childObjects s.cycle w.objects (Function.update s.pcs t pc))
    (hholding : Holding childObjects
      { s with state := state, world := w, pcs := Function.update s.pcs t pc } pc) :
    Inv childObjects { s with state := state, world := w, pcs := Function.update s.pcs t pc } := by
  have hlock := (hs.lock t).mpr hholds
  constructor
  · exact hs.lock.keep (hnew.trans hholds.symm)
  · exact hwaited
  · intro hfree
    rw [hlock] at hfree
    cases hfree
  · intro holder hholder
    obtain rfl : t = holder := Option.some.inj (hlock.symm.trans hholder)
    simpa using hholding

/-- The begin of a locked block with calls of children. -/
theorem Inv.take {childObjects : List C} {s : State T C} (hs : Inv childObjects s) {t : T}
    {pc : Pc C} {state : ActiveState} {cycle : Nat} (hfree : s.lock = none)
    (hnew : pc.holdsLock = true)
    (hwaited : Waited childObjects cycle s.world.objects (Function.update s.pcs t pc))
    (hholding : Holding childObjects
      { s with state := state, lock := some t, pcs := Function.update s.pcs t pc, cycle := cycle }
      pc) :
    Inv childObjects
      { s with state := state, lock := some t, pcs := Function.update s.pcs t pc,
               cycle := cycle } := by
  have hlock := hs.lock
  rw [hfree] at hlock
  constructor
  · exact hlock.take t hnew
  · exact hwaited
  · rintro ⟨⟩
  · intro holder hholder
    obtain rfl : t = holder := Option.some.inj hholder
    simpa using hholding

/-- The end of a locked block. -/
theorem Inv.release {childObjects : List C} {s : State T C} (hs : Inv childObjects s) {t : T}
    {state : ActiveState} (hholds : (s.pcs t).holdsLock = true)
    (hsettled : Settled childObjects s.world.objects state) :
    Inv childObjects
      { s with state := state, lock := none, pcs := Function.update s.pcs t .idle } := by
  have hlock := (hs.lock t).mpr hholds
  have hheld := hs.lock
  rw [hlock] at hheld
  constructor
  · exact hheld.release rfl
  · exact hs.waited.update (fun _ => id) (by simp)
  · exact fun _ => hsettled
  · intro holder hholder
    cases hholder

/-- The next child of `activate_object_`: it starts, or it has been activated at another
place of the list, and then those before it are taken back. -/
theorem Inv.activating {childObjects : List C} {s s' : State T C} (hs : Inv childObjects s)
    {sync : Bool} {t : T} {done rest : List C} {c : C}
    (hpc : s.pcs t = .activating done (c :: rest))
    (h : CompositeThreads.next sync childObjects s t = some s') : Inv childObjects s' := by
  obtain ⟨hholds, hstate, happend, hobjects, hnone⟩ := hs.holding hpc rfl
  have hmem : c ∈ childObjects := by simp [← happend]
  have hnone' : ∀ pc : Pc C, (∀ copied rest, pc ≠ .waiting copied rest) →
      NoneWaits s.cycle (Function.update s.pcs t pc) := by
    intro pc hne
    exact hnone.update fun copied rest heq => absurd heq (hne copied rest)
  simp only [CompositeThreads.next, hpc, World.activateObject, Bool.false_or] at h
  by_cases hthrew : decide (s.world.objects c ≠ .notActive) = true
  · rw [if_pos hthrew] at h
    obtain rfl := Option.some.inj h
    apply hs.inside hholds rfl (hnone' _ (by simp)).waited
    refine ⟨rfl, fun c' hmem' hactive => ?_, fun undone hsome c' hmem' hnot => ?_⟩
    · rw [hobjects c' hmem'] at hactive
      simpa using hactive
    · obtain rfl : done.reverse = undone := by simpa using hsome
      rw [hobjects c' hmem', if_neg (by simpa using hnot)]
  · rw [if_neg hthrew] at h
    obtain rfl := Option.some.inj h
    apply hs.inside hholds rfl (hnone' _ (by simp)).waited
    refine ⟨hstate, by simp [← happend], fun c' hmem' => ?_, hnone' _ (by simp)⟩
    by_cases hc : c' = c
    · simp [hc]
    · simp [hc, hobjects c' hmem']

/-- `deactivate_object` of a child leaves the children that are not active alone. -/
theorem notActive_of_deactivateObject {w : World C} {c c' : C}
    (h : w.objects c' = .notActive) : (w.deactivateObject c false).1.objects c' = .notActive := by
  show (if w.objects c = .active then Function.update w.objects c .deactivating
    else w.objects) c' = _
  split
  · rename_i hc
    have hne : c' ≠ c := by
      rintro rfl
      rw [h] at hc
      cases hc
    rwa [Function.update_of_ne hne]
  · exact h

/-- A child that is still active is another one, and was active before. -/
theorem active_of_deactivateObject {w : World C} {c c' : C}
    (h : (w.deactivateObject c false).1.objects c' = .active) :
    c' ≠ c ∧ w.objects c' = .active := by
  change (if w.objects c = .active then Function.update w.objects c .deactivating
    else w.objects) c' = _ at h
  by_cases hc : c' = c
  · subst hc
    split at h
    · simp at h
    · contradiction
  · refine ⟨hc, ?_⟩
    split at h
    · rwa [Function.update_of_ne hc] at h
    · exact h

/-- The next child of `deactivate_object_`. -/
theorem Inv.stopping {childObjects : List C} {s s' : State T C} (hs : Inv childObjects s)
    {sync : Bool} {t : T} {rest : List C} {undo : Option (List C)} {c : C}
    (hpc : s.pcs t = .stopping (c :: rest) undo)
    (h : CompositeThreads.next sync childObjects s t = some s') : Inv childObjects s' := by
  obtain ⟨hholds, hstate, hactive, hundo⟩ := hs.holding hpc rfl
  simp only [CompositeThreads.next, hpc] at h
  obtain rfl := Option.some.inj h
  have hactive' : ∀ c' ∈ childObjects,
      (s.world.deactivateObject c false).1.objects c' = .active → c' ∈ rest := by
    intro c' hmem hstill
    obtain ⟨hne, hbefore⟩ := active_of_deactivateObject hstill
    exact (List.mem_cons.mp (hactive c' hmem hbefore)).resolve_left hne
  have hundo' : ∀ undone ∈ undo, ∀ c' ∈ childObjects, c' ∉ undone →
      (s.world.deactivateObject c false).1.objects c' = .notActive :=
    fun undone hsome c' hmem hnot =>
      notActive_of_deactivateObject (hundo undone hsome c' hmem hnot)
  cases sync with
  | true =>
      apply hs.inside hholds rfl
      · exact hs.waited.update (fun _ => notActive_of_deactivateObject) (by simp)
      · exact ⟨hstate, hactive', hundo'⟩
  | false =>
      apply hs.inside hholds rfl
      · exact hs.waited.update (fun _ => notActive_of_deactivateObject) (by simp)
      · exact ⟨hstate, hactive', hundo'⟩

/-- The wait for a child in a locked block. -/
theorem Inv.insideWait {childObjects : List C} {s : State T C} (hs : Inv childObjects s)
    {t : T} {c : C} {v : World C} {threw : Bool} {pc : Pc C}
    (hwait : s.world.waitObject c false = some (v, threw))
    (hholds : (s.pcs t).holdsLock = true) (hnew : pc.holdsLock = true)
    (hholding : Calmer s.world.objects v.objects → v.objects c = .notActive →
      Holding childObjects { s with world := v, pcs := Function.update s.pcs t pc } pc) :
    Inv childObjects { s with world := v, pcs := Function.update s.pcs t pc } := by
  obtain ⟨hcalmer, hrest⟩ := wait_spec hwait
  apply hs.inside hholds hnew
  · apply hs.waited.update fun c' => (hcalmer c').2
    rintro copied rest rfl
    cases hnew
  · exact hholding hcalmer hrest

/-- The end of the loop of `deactivate_object_`: all children have stopped. -/
theorem Inv.stoppingEnd {childObjects : List C} {s s' : State T C} (hs : Inv childObjects s)
    {sync : Bool} {t : T} {undo : Option (List C)} (hpc : s.pcs t = .stopping [] undo)
    (h : CompositeThreads.next sync childObjects s t = some s') : Inv childObjects s' := by
  obtain ⟨hholds, hstate, hactive, hundo⟩ := hs.holding hpc rfl
  have hnone : ∀ c ∈ childObjects, s.world.objects c ≠ .active := by
    intro c hmem hc
    exact absurd (hactive c hmem hc) List.not_mem_nil
  cases undo with
  | none =>
      simp only [CompositeThreads.next, hpc] at h
      obtain rfl := Option.some.inj h
      apply hs.release hholds
      rw [hstate]
      exact hnone
  | some undone =>
      simp only [CompositeThreads.next, hpc] at h
      obtain rfl := Option.some.inj h
      apply hs.inside hholds rfl
      · exact hs.waited.update (fun _ => id) (by simp)
      · exact ⟨hstate, hnone, hundo undone rfl⟩

/-- The wait of `SYNCHRONOUS_` for a child that was just deactivated. -/
theorem Inv.syncWait {childObjects : List C} {s s' : State T C} (hs : Inv childObjects s)
    {sync : Bool} {t : T} {c : C} {rest : List C} {undo : Option (List C)}
    (hpc : s.pcs t = .syncWait c rest undo)
    (h : CompositeThreads.next sync childObjects s t = some s') : Inv childObjects s' := by
  obtain ⟨hholds, hstate, hactive, hundo⟩ := hs.holding hpc rfl
  simp only [CompositeThreads.next, hpc, Option.map_eq_some_iff] at h
  obtain ⟨⟨v, threw⟩, hwait, rfl⟩ := h
  apply hs.insideWait hwait hholds rfl
  intro hcalmer _
  refine ⟨hstate, fun c' hmem hc => hactive c' hmem ((hcalmer c').1.mp hc), ?_⟩
  exact fun undone hsome c' hmem hnot => (hcalmer c').2 (hundo undone hsome c' hmem hnot)

/-- The next wait of the roll back, and its end. -/
theorem Inv.undoWaiting {childObjects : List C} {s s' : State T C} (hs : Inv childObjects s)
    {sync : Bool} {t : T} {rest : List C} (hpc : s.pcs t = .undoWaiting rest)
    (h : CompositeThreads.next sync childObjects s t = some s') : Inv childObjects s' := by
  obtain ⟨hholds, hstate, hactive, hrest⟩ := hs.holding hpc rfl
  cases rest with
  | nil =>
      simp only [CompositeThreads.next, hpc] at h
      obtain rfl := Option.some.inj h
      apply hs.release hholds
      exact fun c hmem => hrest c hmem List.not_mem_nil
  | cons c rest =>
      simp only [CompositeThreads.next, hpc, Option.map_eq_some_iff] at h
      obtain ⟨⟨v, threw⟩, hwait, rfl⟩ := h
      apply hs.insideWait hwait hholds rfl
      intro hcalmer hc
      refine ⟨hstate, fun c' hmem hc' => hactive c' hmem ((hcalmer c').1.mp hc'), ?_⟩
      intro c' hmem hnot
      by_cases hsame : c' = c
      · rw [hsame]
        exact hc
      · exact (hcalmer c').2 (hrest c' hmem (by simp [hsame, hnot]))

/-- The next wait of `wait_object_`, outside the lock. -/
theorem Inv.waiting {childObjects : List C} {s s' : State T C} (hs : Inv childObjects s)
    {sync : Bool} {t : T} {copied : Nat} {c : C} {rest : List C}
    (hpc : s.pcs t = .waiting copied (c :: rest))
    (h : CompositeThreads.next sync childObjects s t = some s') : Inv childObjects s' := by
  obtain ⟨hle, hrest⟩ := hs.waited t copied (c :: rest) hpc
  simp only [CompositeThreads.next, hpc, Option.map_eq_some_iff] at h
  obtain ⟨⟨v, threw⟩, hwait, rfl⟩ := h
  obtain ⟨hcalmer, hc⟩ := wait_spec hwait
  apply hs.aside (by rw [hpc]; rfl) rfl hcalmer
  · rintro copied' rest' heq
    obtain ⟨rfl, rfl⟩ := Pc.waiting.inj heq
    refine ⟨hle, fun hcycle c' hmem hnot => ?_⟩
    by_cases hsame : c' = c
    · rw [hsame]
      exact hc
    · exact (hcalmer c').2 (hrest hcycle c' hmem (by simp [hsame, hnot]))
  · rintro copied' rest' heq
    obtain ⟨rfl, rfl⟩ := Pc.waiting.inj heq
    exact Or.inr ⟨_, hpc⟩

/-- The last block of `wait_object`: it ends the life cycle in which the thread has waited. -/
theorem Inv.waitingEnd {childObjects : List C} {s s' : State T C} (hs : Inv childObjects s)
    {sync : Bool} {t : T} {copied : Nat} (hguard : OwnCycle s (.next t))
    (hpc : s.pcs t = .waiting copied [])
    (h : CompositeThreads.next sync childObjects s t = some s') : Inv childObjects s' := by
  obtain ⟨-, hrest⟩ := hs.waited t copied [] hpc
  simp only [CompositeThreads.next, hpc] at h
  split at h
  · rename_i hfree
    obtain rfl := Option.some.inj h
    have haside : Inv childObjects
        { s with world := s.world, pcs := Function.update s.pcs t .idle } :=
      hs.aside (by rw [hpc]; rfl) rfl (.refl _) (by simp) (by simp)
    constructor
    · exact haside.lock
    · exact haside.waited
    · intro _
      by_cases hstate : s.state = .deactivating
      · rw [if_pos hstate]
        have hcycle : copied = s.cycle := by
          simpa [OwnCycle, hpc, Pc.late] using hguard hstate
        exact fun c hmem => hrest hcycle c hmem List.not_mem_nil
      · rw [if_neg hstate]
        exact haside.free hfree
    · intro holder hlock
      rw [hfree] at hlock
      cases hlock
  · cases h

theorem Inv.next {childObjects : List C} {s s' : State T C} (hs : Inv childObjects s)
    {sync : Bool} {t : T} (hguard : OwnCycle s (.next t))
    (h : CompositeThreads.next sync childObjects s t = some s') : Inv childObjects s' := by
  cases hpc : s.pcs t with
  | idle => simp [CompositeThreads.next, hpc] at h
  | activating done rest =>
      cases rest with
      | cons c rest => exact hs.activating hpc h
      | nil =>
          have hholds : (s.pcs t).holdsLock = true := by rw [hpc]; rfl
          have hholding := hs.held t ((hs.lock t).mpr hholds)
          rw [hpc] at hholding
          obtain ⟨-, happend, hobjects, -⟩ := hholding
          simp only [CompositeThreads.next, hpc] at h
          obtain rfl := Option.some.inj h
          apply hs.release hholds
          intro c hmem
          rw [hobjects c hmem, if_pos (by simpa [← happend] using hmem)]
  | stopping rest undo =>
      cases rest with
      | cons c rest => exact hs.stopping hpc h
      | nil => exact hs.stoppingEnd hpc h
  | syncWait c rest undo => exact hs.syncWait hpc h
  | undoWaiting rest => exact hs.undoWaiting hpc h
  | waitBegin =>
      simp only [CompositeThreads.next, hpc] at h
      split at h
      · obtain rfl := Option.some.inj h
        exact hs.aside (by rw [hpc]; rfl) rfl (.refl _) (by simp) (by simp)
      · cases h
  | copying =>
      simp only [CompositeThreads.next, hpc] at h
      split at h
      · rename_i hfree
        obtain rfl := Option.some.inj h
        apply hs.aside (by rw [hpc]; rfl) rfl (.refl _)
        · rintro copied rest heq
          obtain ⟨rfl, rfl⟩ := Pc.waiting.inj heq
          exact ⟨Nat.le_refl _, fun _ c hmem hnot => absurd (List.mem_reverse.mpr hmem) hnot⟩
        · exact fun _ _ _ => Or.inl hfree
      · cases h
  | waiting copied rest =>
      cases rest with
      | cons c rest => exact hs.waiting hpc h
      | nil => exact hs.waitingEnd hguard hpc h

/-- A step keeps the invariant when the waiter that ends a life cycle has waited in it. -/
theorem Inv.step {childObjects : List C} {s s' : State T C} (hs : Inv childObjects s)
    {sync : Bool} {a : Action T} (hguard : OwnCycle s a)
    (h : CompositeThreads.step sync childObjects s a = some s') : Inv childObjects s' := by
  cases a with
  | activate t =>
      simp only [CompositeThreads.step] at h
      split at h
      · rename_i hidle
        obtain ⟨hpc, hfree⟩ := hidle
        split at h
        · rename_i hstate
          obtain rfl := Option.some.inj h
          have hsettled := hs.free hfree
          rw [hstate] at hsettled
          have hnone : NoneWaits (s.cycle + 1)
              (Function.update s.pcs t (.activating [] childObjects)) := by
            apply NoneWaits.update
            · intro t' copied rest hwaiting
              exact Nat.lt_succ_of_le (hs.waited t' copied rest hwaiting).1
            · simp
          refine hs.take hfree rfl hnone.waited ⟨hstate, rfl, fun c hmem => ?_, hnone⟩
          simpa using hsettled c hmem
        · obtain rfl := Option.some.inj h
          exact hs
      · cases h
  | deactivate t =>
      simp only [CompositeThreads.step] at h
      split at h
      · rename_i hidle
        obtain ⟨hpc, hfree⟩ := hidle
        split at h
        · obtain rfl := Option.some.inj h
          apply hs.take hfree rfl
          · exact hs.waited.update (fun _ => id) (by simp)
          · exact ⟨rfl, fun c hmem _ => List.mem_reverse.mpr hmem, by simp⟩
        · obtain rfl := Option.some.inj h
          exact hs
      · cases h
  | wait t =>
      simp only [CompositeThreads.step] at h
      split at h
      · rename_i hpc
        obtain rfl := Option.some.inj h
        exact hs.aside (by rw [hpc]; rfl) rfl (.refl _) (by simp) (by simp)
      · cases h
  | next t => exact hs.next hguard h

omit [DecidableEq T] in
theorem Inv.stopped {childObjects : List C} {s : State T C} (hs : Inv childObjects s) :
    Stopped childObjects s := by
  intro hstate hnobody
  cases hlock : s.lock with
  | none =>
      have hsettled := hs.free hlock
      rwa [hstate] at hsettled
  | some t =>
      have hholds := (hs.lock t).mp hlock
      have hholding := hs.held t hlock
      have hoff := hnobody t
      cases hpc : s.pcs t with
      | activating done rest => simp [hpc, Pc.inActivate] at hoff
      | stopping rest undo | syncWait c rest undo | undoWaiting rest =>
          rw [hpc] at hholding
          have hdeactivating := hholding.1
          rw [hstate] at hdeactivating
          cases hdeactivating
      | idle | waitBegin | copying | waiting copied rest => simp [hpc, Pc.holdsLock] at hholds

theorem inv_init (sync : Bool) (childObjects : List C) :
    Inv childObjects (system T sync childObjects).init := by
  constructor
  · intro t
    simp [system, Pc.holdsLock]
  · intro t copied rest h
    cases h
  · exact fun _ _ _ => rfl
  · intro t h
    cases h

/-- In every run in which each waiter that makes the composite `AS_NOT_ACTIVE` has copied
the children in the life cycle that it ends, the children of a composite that is
`AS_NOT_ACTIVE` are at rest. -/
theorem stopped_throughout {sync : Bool} {childObjects : List C} {actions : List (Action T)}
    (hmeets : Meets (system T sync childObjects) OwnCycle (system T sync childObjects).init
      actions) :
    Throughout (system T sync childObjects) (Stopped childObjects)
      (system T sync childObjects).init actions := by
  have hgood : ∀ s a t, Inv childObjects s → unguarded s a → OwnCycle s a →
      (system T sync childObjects).step s a = some t → Inv childObjects t := by
    intro s a t hs _ hguard hstep
    exact hs.step hguard hstep
  exact throughout_of_meets (fun s hs => hs.stopped) hgood (inv_init sync childObjects)
    (meets_unguarded _ _) hmeets

/-- The thread `t` goes on `n` times. -/
def goesOn (n : Nat) (t : Fin 3) : List (Action (Fin 3)) :=
  List.replicate n (.next t)

/-- A life cycle of two children that thread 0 starts and stops and thread 1 waits for, and
the beginning of the next one. -/
def oneWaiter : List (Action (Fin 3)) :=
  .activate 0 :: goesOn 3 0 ++ .deactivate 0 :: goesOn 3 0 ++ .wait 1 :: goesOn 5 1 ++
    .activate 0 :: goesOn 3 0

theorem stopped_throughout_one_waiter :
    ((system (Fin 3) false [0, 1]).run (system (Fin 3) false [0, 1]).init oneWaiter).map
        (fun s => (s.state, s.cycle)) = some (.active, 2) ∧
      Throughout (system (Fin 3) false [0, 1]) (Stopped [0, 1])
        (system (Fin 3) false [0, 1]).init oneWaiter :=
  ⟨by decide +kernel, stopped_throughout (by decide +kernel)⟩

/-- Threads 1 and 2 wait for the child.  Thread 2 ends the life cycle, and thread 1 comes to
its last block when thread 0 has started and stopped the child again. -/
def lateWaiter : List (Action (Fin 3)) :=
  .activate 0 :: goesOn 2 0 ++ .deactivate 0 :: goesOn 2 0 ++ .wait 1 :: goesOn 3 1 ++
    .wait 2 :: goesOn 4 2 ++ .activate 0 :: goesOn 2 0 ++ .deactivate 0 :: goesOn 2 0 ++
    goesOn 1 1

theorem stopped_by_late_waiter :
    ∃ s, (system (Fin 3) false [0]).run (system (Fin 3) false [0]).init lateWaiter = some s ∧
      s.state = .notActive ∧ s.world.objects 0 = .deactivating ∧ ¬ Stopped [0] s := by
  have hend : ((system (Fin 3) false [0]).run (system (Fin 3) false [0]).init lateWaiter).map
      (fun s => (s.state, s.world.objects 0, decide (∀ t, ¬ (s.pcs t).inActivate = true))) =
      some (.notActive, .deactivating, true) := by
    decide +kernel
  obtain ⟨s, hrun, hvalues⟩ := Option.map_eq_some_iff.mp hend
  simp only [Prod.mk.injEq, decide_eq_true_eq] at hvalues
  obtain ⟨hstate, hobject, hnobody⟩ := hvalues
  refine ⟨s, hrun, hstate, hobject, ?_⟩
  intro hstopped
  have hrest := hstopped hstate hnobody 0 (by simp)
  rw [hobject] at hrest
  cases hrest

end CompositeThreads
end LiteMQ
