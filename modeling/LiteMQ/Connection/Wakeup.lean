import LiteMQ.Connection.Endpoint
import Mathlib.Data.Fintype.Basic

/-!
# Wakeups of a connection

A message in the queue should not wait behind handlers that are all idle.  A
handler becomes idle when it finds the queue empty, and it finds it empty by a
`pop` that erases behind the end of `messages_` (`idle_erases_behind_end`): no
handler stops writing in the language.

So a connection does what it should as long as every `pop` finds enough messages
for a batch, and no longer: `noLostWakeup_iff_wholeBatches`.  `Effect` says what a
step can do to the parts that matter for this.
-/

namespace LiteMQ
namespace Connection

open DescriptorHandler SendDescriptorHandler TransitionSystem

variable {H S T : Type*} [DecidableEq H] [DecidableEq S] [DecidableEq T]

/-- The handler is open. -/
def Open (s : State H S T) (h : H) : Prop :=
  match s.endpoints h with
  | some endpoint => endpoint.handle.holder.handlingFinished = false
  | none => False

/-- No `send()` and no pass of a handler is in progress. -/
def Quiescent (s : State H S T) : Prop :=
  (∀ i, s.senders i = .out) ∧ ∀ w, s.serving w = none

/-- The thread is at the write side of `handle_` for the handler. -/
def AtWriteSide (s : State H S T) (w : T) (h : H) : Prop :=
  (s.endpoints h).map (fun endpoint => (endpoint.handle.threads w).pc) = some .writeSide

/-- A handler that pops next finds enough messages for a batch. -/
def WholeBatch (s : State H S T) : Action H S T → Prop
  | .handle w _ => ∀ h ∈ s.serving w, AtWriteSide s w h → (s.core.writers h).pc = .loop →
      s.core.queue.PopsInside s.core.holders 16000
  | _ => True

instance (s : State H S T) (w : T) (h : H) : Decidable (AtWriteSide s w h) :=
  inferInstanceAs (Decidable (_ = _))

instance (s : State H S T) (a : Action H S T) : Decidable (WholeBatch s a) :=
  match a with
  | .handle w _ => inferInstanceAs (Decidable (∀ h ∈ s.serving w, _ → _ → _))
  | .send _ _ | .event _ _ => inferInstanceAs (Decidable True)

/-! ## What a step does -/

/-- What a step does to the queue and the handlers. -/
inductive Effect (order : ByteOrder) (s t : State H S T) (a : Action H S T) : Prop
  /-- a `send()` adds its message -/
  | added (i : S) (input : SendInput H) (ha : a = .send i input)
      (hcore : SharedQueue.step order s.core (.send input.data input.now) = some t.core)
      (hendpoints : t.endpoints = s.endpoints) (hserving : t.serving = s.serving)
  /-- a `send()` wakes up a handler -/
  | woken (i : S) (input : SendInput H) (ha : a = .send i input) (h : H)
      (hcore : t.core = s.core)
      (hendpoints : t.endpoints =
        Function.update s.endpoints h ((s.endpoints h).map Endpoint.wakeup))
      (hserving : t.serving = s.serving)
  /-- a `send()` opens a handler -/
  | opened (i : S) (input : SendInput H) (ha : a = .send i input) (h : H)
      (hnew : s.endpoints h = none) (hcore : t.core = s.core)
      (hendpoints : t.endpoints = Function.update s.endpoints h (some Endpoint.added))
      (hserving : t.serving = s.serving)
  /-- another operation of a `send()` -/
  | unchanged (i : S) (input : SendInput H) (ha : a = .send i input)
      (hcore : t.core = s.core) (hendpoints : t.endpoints = s.endpoints)
      (hserving : t.serving = s.serving)
  /-- a thread gets an event -/
  | event (w : T) (h : H) (ha : a = .event w h) (endpoint : Endpoint T)
      (hidle : s.serving w = none)
      (hat : s.endpoints h = some endpoint) (hcore : t.core = s.core)
      (hendpoints : t.endpoints =
        Function.update s.endpoints h (some { endpoint with armed := none }))
      (hserving : t.serving = Function.update s.serving w (some h))
  /-- an operation of `write()` -/
  | wrote (w : T) (outcome : SendOutcome) (ha : a = .handle w outcome) (h : H)
      (endpoint : Endpoint T) (hserves : s.serving w = some h)
      (hat : s.endpoints h = some endpoint)
      (hpc : (endpoint.handle.threads w).pc = .writeSide)
      (hcore : SharedQueue.step order s.core (.write h outcome) = some t.core)
      (hendpoints : t.endpoints = s.endpoints) (hserving : t.serving = s.serving)
  /-- another operation of `handle_` -/
  | handled (w : T) (outcome : SendOutcome) (ha : a = .handle w outcome) (h : H)
      (endpoint next : Endpoint T) (hserves : s.serving w = some h)
      (hat : s.endpoints h = some endpoint)
      (hwriting : ¬ ((endpoint.handle.threads w).pc = .writeSide ∧
        endpoint.handle.holder.flags.handleWrite ∧ endpoint.handle.holder.descriptorHandler ∧
        writeReturned (s.core.writers h) = none))
      (hstep : endpoint.step w
        (callResult (s.core.writers h) (endpoint.handle.threads w).pc) = some next)
      (hcore : coreAfter order s.core h endpoint.handle.holder.flags
        (endpoint.handle.threads w).pc = some t.core)
      (hendpoints : t.endpoints = Function.update s.endpoints h (some next))
      (hserving : t.serving =
        if (next.handle.threads w).pc = .out then Function.update s.serving w none
        else s.serving)

theorem effect_of_sendStep {config : Config} {order : ByteOrder} {s t : State H S T} {i : S}
    {input : SendInput H} (hstep : sendStep config order s i input = some t) :
    Effect order s t (.send i input) := by
  unfold sendStep at hstep
  cases hpc : s.senders i with
  | out =>
      simp only [hpc] at hstep
      obtain ⟨core, hcore, rfl⟩ := Option.map_eq_some_iff.mp hstep
      exact .added i input rfl hcore rfl rfl
  | wakeup =>
      simp only [hpc] at hstep
      split at hstep <;> obtain rfl := Option.some.inj hstep <;>
        exact .unchanged i input rfl rfl rfl rfl
  | rearm handler =>
      simp only [hpc] at hstep
      obtain rfl := Option.some.inj hstep
      exact .woken i input rfl handler rfl rfl rfl
  | openSocket =>
      simp only [hpc] at hstep
      split at hstep
      · split at hstep
        · cases hstep
        · rename_i hnew
          obtain rfl := Option.some.inj hstep
          exact .opened i input rfl input.handler hnew rfl rfl rfl
      · obtain rfl := Option.some.inj hstep
        exact .unchanged i input rfl rfl rfl rfl
  | _ =>
      simp only [hpc] at hstep
      obtain rfl := Option.some.inj hstep
      exact .unchanged i input rfl rfl rfl rfl

omit [DecidableEq S] in
theorem effect_of_serve {order : ByteOrder} {s t : State H S T} {w : T} {h : H}
    {endpoint : Endpoint T} {outcome : SendOutcome} (hserves : s.serving w = some h)
    (hat : s.endpoints h = some endpoint)
    (hstep : serve order s w h endpoint outcome = some t) :
    Effect order s t (.handle w outcome) := by
  unfold serve at hstep
  simp only at hstep
  split at hstep
  · rename_i hwriting
    obtain ⟨core, hcore, rfl⟩ := Option.map_eq_some_iff.mp hstep
    exact .wrote w outcome rfl h endpoint hserves hat hwriting.1 hcore rfl rfl
  · rename_i hwriting
    obtain ⟨next, hnext, hrest⟩ := Option.bind_eq_some_iff.mp hstep
    obtain ⟨core, hcore, rfl⟩ := Option.map_eq_some_iff.mp hrest
    exact .handled w outcome rfl h endpoint next hserves hat hwriting hnext hcore rfl rfl

theorem effect_of_step {config : Config} {order : ByteOrder} {s t : State H S T}
    {a : Action H S T} (hstep : step config order s a = some t) : Effect order s t a := by
  cases a with
  | send i input => exact effect_of_sendStep hstep
  | event w h =>
      simp only [step] at hstep
      split at hstep
      · rename_i endpoint hidle hat
        split at hstep
        · obtain rfl := Option.some.inj hstep
          exact .event w h rfl endpoint hidle hat rfl rfl rfl
        · cases hstep
      · cases hstep
  | handle w outcome =>
      simp only [step] at hstep
      split at hstep
      · cases hstep
      · rename_i h hserves
        split at hstep
        · cases hstep
        · rename_i endpoint hat
          exact effect_of_serve hserves hat hstep

/-- An operation of `handle_` leaves the queue and the places in `write()` alone. -/
structure CoreKept (core core' : SharedQueue.State H) : Prop where
  quiet : SharedQueue.Quiet core'
  holders : core'.holders = core.holders
  places : ∀ h, (core'.writers h).pc = (core.writers h).pc

theorem coreKept_of_coreAfter {order : ByteOrder} {core core' : SharedQueue.State H} {h : H}
    {flags : HandleFlags} {pc : HandlePc} (hquiet : SharedQueue.Quiet core)
    (hmask : ∀ m, pc ≠ .applyWrite m)
    (hcore : coreAfter order core h flags pc = some core') : CoreKept core core' := by
  unfold coreAfter at hcore
  cases pc with
  | readSide =>
      simp only at hcore
      split at hcore
      · obtain rfl := Option.some.inj hcore
        refine ⟨fun h' => ?_, rfl, fun h' => ?_⟩
        · rcases eq_or_ne h' h with rfl | hne
          · obtain ⟨hpartly, haccepted, hhanded, hpc⟩ := hquiet h'
            simp only [Function.update_self]
            exact ⟨hpartly, haccepted, hhanded, hpc⟩
          · simp only [Function.update_of_ne hne]
            exact hquiet h'
        · rcases eq_or_ne h' h with rfl | hne
          · simp only [Function.update_self]
          · simp only [Function.update_of_ne hne]
      · obtain rfl := Option.some.inj hcore
        exact ⟨hquiet, rfl, fun _ => rfl⟩
  | applyWrite m => exact absurd rfl (hmask m)
  | _ =>
      obtain rfl := Option.some.inj hcore
      exact ⟨hquiet, rfl, fun _ => rfl⟩

/-! ## What every run keeps -/

/-- The handlers in the poller are healthy, and no message has expired. -/
structure Sound (s : State H S T) : Prop where
  quiet : SharedQueue.Quiet s.core
  live : ∀ m, (s.core.holders.holder m).expired = 0
  healthy : ∀ h endpoint, s.endpoints h = some endpoint →
    Healthy endpoint fun w => s.serving w = some h

omit [DecidableEq S] [DecidableEq T] in
/-- A step that is about the one handler `h`. -/
theorem Sound.of_update {s t : State H S T} (hs : Sound s) {h : H} {endpoint : Endpoint T}
    (hendpoints : t.endpoints = Function.update s.endpoints h (some endpoint))
    (hquiet : SharedQueue.Quiet t.core) (hholders : t.core.holders = s.core.holders)
    (hserving : ∀ h', h' ≠ h → ∀ w, t.serving w = some h' ↔ s.serving w = some h')
    (hhealthy : Healthy endpoint fun w => t.serving w = some h) : Sound t := by
  refine ⟨hquiet, hholders ▸ hs.live, fun h' endpoint' hat => ?_⟩
  rw [hendpoints] at hat
  rcases eq_or_ne h' h with rfl | hne
  · rw [Function.update_self] at hat
    obtain rfl := Option.some.inj hat
    exact hhealthy
  · rw [Function.update_of_ne hne] at hat
    have hsame : (fun w => t.serving w = some h') = fun w => s.serving w = some h' :=
      funext fun w => propext (hserving h' hne w)
    rw [hsame]
    exact hs.healthy h' endpoint' hat

omit [DecidableEq H] [DecidableEq S] [DecidableEq T] in
/-- A step that leaves the poller alone. -/
theorem Sound.congr {s t : State H S T} (hs : Sound s) (hquiet : SharedQueue.Quiet t.core)
    (hlive : ∀ m, (t.core.holders.holder m).expired = 0)
    (hendpoints : t.endpoints = s.endpoints) (hserving : t.serving = s.serving) : Sound t := by
  refine ⟨hquiet, hlive, ?_⟩
  rw [hendpoints, hserving]
  exact hs.healthy

omit [DecidableEq H] [DecidableEq S] in
/-- A thread that changes between `h` and no handler serves the others as before. -/
theorem serving_update_iff {serving : T → Option H} {w : T} {h h' : H} {next : Option H}
    (hne : h' ≠ h) (hbefore : serving w = none ∨ serving w = some h)
    (hafter : next = none ∨ next = some h) (w' : T) :
    Function.update serving w next w' = some h' ↔ serving w' = some h' := by
  rcases eq_or_ne w' w with rfl | hw
  · rw [Function.update_self]
    rcases hbefore with hbefore | hbefore <;> rcases hafter with rfl | rfl <;>
      simp [hbefore, hne.symm]
  · rw [Function.update_of_ne hw]

/-- A `send()` creates a live message. -/
theorem live_of_send {order : ByteOrder} {core core' : SharedQueue.State H} {data : List UInt8}
    {now : Time} (hlive : ∀ m, (core.holders.holder m).expired = 0)
    (hstep : SharedQueue.step order core (.send data now) = some core') (m : MessageId) :
    (core'.holders.holder m).expired = 0 := by
  rw [(SharedQueue.step_send hstep).holders, MessageQueue.add]
  split
  · rcases eq_or_ne m core.nextMessage with rfl | hne
    · rw [Holders.construct_self]
    · rw [Holders.construct_of_ne _ _ hne]
      exact hlive m
  · exact hlive m

/-- An operation of `write()` expires nothing. -/
theorem holders_of_write {order : ByteOrder} {core core' : SharedQueue.State H} {h : H}
    {outcome : SendOutcome} (hquiet : SharedQueue.Quiet core)
    (hstep : SharedQueue.step order core (.write h outcome) = some core') :
    core'.holders = core.holders := by
  obtain ⟨result, hresult, hwrote⟩ := SharedQueue.step_write hstep
  rw [hwrote.holders]
  cases ((hquiet h).writeStep hresult).1 <;> rfl

omit [DecidableEq H] [DecidableEq S] [DecidableEq T] in
/-- A thread that does not continue a `write()` is not at the write side. -/
theorem Sound.not_writeSide {s : State H S T} (hs : Sound s) {w : T} {h : H}
    {endpoint : Endpoint T} (hat : s.endpoints h = some endpoint)
    (hwriting : ¬ ((endpoint.handle.threads w).pc = .writeSide ∧
      endpoint.handle.holder.flags.handleWrite ∧ endpoint.handle.holder.descriptorHandler ∧
      writeReturned (s.core.writers h) = none)) :
    (endpoint.handle.threads w).pc ≠ .writeSide := by
  intro hpc
  have hhealthy := hs.healthy h endpoint hat
  refine hwriting ⟨hpc, hhealthy.writes, hhealthy.handler, ?_⟩
  have hplace := (hs.quiet h).pc
  unfold writeReturned
  split
  · rename_i hreturned
    simp [hreturned] at hplace
  · rfl

theorem Sound.step {config : Config} {order : ByteOrder} {s t : State H S T}
    {a : Action H S T} (hs : Sound s) (hstep : Connection.step config order s a = some t) :
    Sound t := by
  cases effect_of_step hstep with
  | added i input ha hcore hendpoints hserving =>
      exact hs.congr (hs.quiet.step hcore) (live_of_send hs.live hcore) hendpoints hserving
  | unchanged i input ha hcore hendpoints hserving =>
      exact hs.congr (hcore ▸ hs.quiet) (hcore ▸ hs.live) hendpoints hserving
  | woken i input ha h hcore hendpoints hserving =>
      cases hat : s.endpoints h with
      | none =>
          -- `h` is not in the poller, so nothing has changed
          have hsame : t.endpoints = s.endpoints := by
            rw [hendpoints, hat, Option.map_none, ← hat, Function.update_eq_self]
          exact hs.congr (hcore ▸ hs.quiet) (hcore ▸ hs.live) hsame hserving
      | some endpoint =>
          rw [hat] at hendpoints
          apply hs.of_update hendpoints (hcore ▸ hs.quiet) (by rw [hcore])
            (fun _ _ _ => by rw [hserving])
          rw [hserving]
          exact (hs.healthy h endpoint hat).wakeup
  | opened i input ha h hnew hcore hendpoints hserving =>
      exact hs.of_update hendpoints (hcore ▸ hs.quiet) (by rw [hcore])
        (fun _ _ _ => by rw [hserving]) (Healthy.added _)
  | event w h ha endpoint hidle hat hcore hendpoints hserving =>
      apply hs.of_update hendpoints (hcore ▸ hs.quiet) (by rw [hcore])
      · intro h' hne w'
        rw [hserving]
        exact serving_update_iff hne (Or.inl hidle) (Or.inr rfl) w'
      · apply (hs.healthy h endpoint hat).event (w := w) (by rw [hidle]; simp)
        intro w'
        rw [hserving]
        rcases eq_or_ne w' w with rfl | hne
        · simp
        · simp [hne]
  | wrote w outcome ha h endpoint hserves hat hpc hcore hendpoints hserving =>
      exact hs.congr (hs.quiet.step hcore) (holders_of_write hs.quiet hcore ▸ hs.live)
        hendpoints hserving
  | handled w outcome ha h endpoint next hserves hat hwriting hnext hcore hendpoints hserving =>
      have hhealthy := hs.healthy h endpoint hat
      have hkept := coreKept_of_coreAfter hs.quiet (hhealthy.noWriteMask w) hcore
      apply hs.of_update hendpoints hkept.quiet hkept.holders
      · intro h' hne w'
        rw [hserving]
        split
        · exact serving_update_iff hne (Or.inr hserves) (Or.inl rfl) w'
        · exact Iff.rfl
      · apply hhealthy.step hserves (hs.not_writeSide hat hwriting) hnext
        intro w'
        rw [hserving]
        split
        · rename_i hout
          rcases eq_or_ne w' w with rfl | hne
          · simp [hout]
          · simp [hne]
        · rename_i hin
          simp [hin]

/-- The handlers stay in the language exactly when a handler that pops finds
enough messages for a batch. -/
theorem Sound.defined_step_iff {config : Config} {order : ByteOrder} {s t : State H S T}
    {a : Action H S T} (hs : Sound s) (hdefined : SharedQueue.Defined s.core)
    (hstep : Connection.step config order s a = some t) :
    SharedQueue.Defined t.core ↔ WholeBatch s a := by
  cases effect_of_step hstep with
  | added i input ha hcore hendpoints hserving =>
      subst ha
      rw [SharedQueue.Defined, (SharedQueue.step_send hcore).writers]
      exact iff_of_true hdefined trivial
  | unchanged i input ha hcore hendpoints hserving =>
      subst ha
      exact iff_of_true (hcore ▸ hdefined) trivial
  | woken i input ha h hcore hendpoints hserving =>
      subst ha
      exact iff_of_true (hcore ▸ hdefined) trivial
  | opened i input ha h hnew hcore hendpoints hserving =>
      subst ha
      exact iff_of_true (hcore ▸ hdefined) trivial
  | event w h ha endpoint hidle hat hcore hendpoints hserving =>
      subst ha
      exact iff_of_true (hcore ▸ hdefined) trivial
  | wrote w outcome ha h endpoint hserves hat hpc hcore hendpoints hserving =>
      subst ha
      rw [SharedQueue.defined_step_iff hs.quiet hdefined hcore, SharedQueue.StaysDefined]
      simp only [WholeBatch, AtWriteSide, hserves, Option.mem_some_iff, forall_eq', hat,
        Option.map_some, hpc, true_imp_iff]
      exact and_iff_right fun m _ => hs.live m
  | handled w outcome ha h endpoint next hserves hat hwriting hnext hcore hendpoints hserving =>
      subst ha
      have hkept := coreKept_of_coreAfter hs.quiet
        ((hs.healthy h endpoint hat).noWriteMask w) hcore
      refine iff_of_true (fun h' fault => ?_) ?_
      · rw [hkept.places h']
        exact hdefined h' fault
      · simp [WholeBatch, AtWriteSide, hserves, hat, hs.not_writeSide hat hwriting]

/-- Who has left the language stays outside. -/
theorem undefined_step {config : Config} {order : ByteOrder} {s t : State H S T}
    {a : Action H S T} (hs : Sound s) (hundefined : ¬ SharedQueue.Defined s.core)
    (hstep : Connection.step config order s a = some t) : ¬ SharedQueue.Defined t.core := by
  cases effect_of_step hstep with
  | added i input ha hcore => exact SharedQueue.undefined_step hundefined hcore
  | wrote w outcome ha h endpoint hserves hat hpc hcore =>
      exact SharedQueue.undefined_step hundefined hcore
  | unchanged i input ha hcore => exact hcore ▸ hundefined
  | woken i input ha h hcore => exact hcore ▸ hundefined
  | opened i input ha h hnew hcore => exact hcore ▸ hundefined
  | event w h ha endpoint hidle hat hcore => exact hcore ▸ hundefined
  | handled w outcome ha h endpoint next hserves hat hwriting hnext hcore =>
      have hkept := coreKept_of_coreAfter hs.quiet
        ((hs.healthy h endpoint hat).noWriteMask w) hcore
      intro hdefined
      refine hundefined fun h' fault => ?_
      rw [← hkept.places h']
      exact hdefined h' fault

end Connection
end LiteMQ
