import LiteMQ.Foundation.Counting
import LiteMQ.Foundation.TransitionSystem
import LiteMQ.Message.MessageQueue
import Mathlib.Data.Finset.Card

/-!
# The slots for sockets

`try_extend_connections_` takes a slot in `opened_connections_` before it opens
a socket, and gives it back only when there was none to take.  A constructor of
`SendDescriptorHandler` that throws keeps its slot, and so does every handler
that is destroyed later.

Handlers are reached through `shared_ptr`s: from the call that opens them, from
the poller, from `waiting_handlers_` and from a call of `wakeup()`.  `useCount`
is the `use_count()` of a handler; the last reference to go destroys it.
`leaked` slots make the difference between the counter and the live handlers
(`Balanced`).
-/

namespace LiteMQ
namespace SocketSlots

open TransitionSystem Counting

/-- Where a sending thread stands: what it does next. -/
inductive SlotPc (H : Type*)
  /-- in none of these calls -/
  | out
  /-- `new SendDescriptorHandler(...)` -/
  | construct
  /-- `context_->add_handler(new_handler)` -/
  | addHandler (handler : H)
  /-- `waiting_handlers_.push_back(new_handler)` -/
  | pushWaiting (handler : H)
  /-- an exception of `add_handler` destroys `new_handler` -/
  | unwind (handler : H)
  /-- `--opened_connections_` -/
  | retract
  /-- `handler->wakeup()`, and the end of its `handler` -/
  | wake (handler : H)
  deriving DecidableEq

/-- `opened_connections_`, the sending threads, `waiting_handlers_`, the handlers
that the poller holds, and the handlers in memory. -/
structure State (H S : Type*) where
  openedConnections : Int
  senders : S → SlotPc H
  waitingHandlers : List H
  polled : H → Bool
  useCount : H → Nat
  live : Finset H

/-- `max_out_sockets_` -/
structure Config where
  maxOutSockets : Nat

/-- The operations: `construct` has the address of the new handler and whether
the constructor throws; `addHandler` whether the poller holds the handler
afterwards and whether the call throws. -/
inductive Action (H S : Type*)
  | extend (i : S)
  | construct (i : S) (handler : H) (throws : Bool)
  | addHandler (i : S) (linked throws : Bool)
  | pushWaiting (i : S)
  | retract (i : S)
  | wakeup (i : S)
  | release (i : S)
  | teardown (handler : H)

variable {H S : Type*} [DecidableEq H] [DecidableEq S]

namespace State

/-- The thread `i` goes on to `next`. -/
def goto (s : State H S) (i : S) (next : SlotPc H) : State H S :=
  { s with senders := Function.update s.senders i next }

/-- A `shared_ptr` to the handler goes away; with the last one its destructor
runs. -/
def release (s : State H S) (h : H) : State H S :=
  { s with
    useCount := Function.update s.useCount h (s.useCount h - 1)
    live := if s.useCount h = 1 then s.live.erase h else s.live }

/-- The poller keeps a `shared_ptr` to the handler. -/
def link (s : State H S) (h : H) : State H S :=
  { s with
    polled := Function.update s.polled h true
    useCount := Function.update s.useCount h (s.useCount h + 1) }

end State

/-- `++opened_connections_ < static_cast<int>(max_out_sockets_)` -/
def admits (config : Config) (s : State H S) : Bool :=
  asInt (s.openedConnections + 1) < asInt config.maxOutSockets

def step (config : Config) (s : State H S) : Action H S → Option (State H S)
  | .extend i =>
      match s.senders i with
      | .out =>
          some ({ s with openedConnections := asInt (s.openedConnections + 1) }.goto i
            (if admits config s then .construct else .retract))
      | _ => none
  | .construct i handler throws =>
      match s.senders i with
      | .construct =>
          -- an exception leaves `try_extend_connections_`
          if throws then some (s.goto i .out)
          else if handler ∈ s.live then none
          else some ({ s with
            useCount := Function.update s.useCount handler 1
            live := insert handler s.live }.goto i (.addHandler handler))
      | _ => none
  | .addHandler i linked throws =>
      match s.senders i with
      | .addHandler handler =>
          some ((if linked then s.link handler else s).goto i
            (if throws then .unwind handler else .pushWaiting handler))
      | _ => none
  | .pushWaiting i =>
      match s.senders i with
      | .pushWaiting handler =>
          some ({ s with waitingHandlers := s.waitingHandlers ++ [handler] }.goto i .out)
      | _ => none
  | .retract i =>
      match s.senders i with
      | .retract =>
          some ({ s with openedConnections := asInt (s.openedConnections - 1) }.goto i .out)
      | _ => none
  | .wakeup i =>
      match s.senders i, s.waitingHandlers with
      | .out, handler :: rest => some ({ s with waitingHandlers := rest }.goto i (.wake handler))
      | _, _ => none
  | .release i =>
      match s.senders i with
      | .unwind handler | .wake handler => some ((s.release handler).goto i .out)
      | _ => none
  | .teardown handler =>
      if s.polled handler then
        some ({ s with polled := Function.update s.polled handler false }.release handler)
      else none

/-- A new connection.  The constructor with callbacks does not set
`opened_connections_`; the other one sets it to `0`. -/
def system (config : Config) (openedConnections : Int) :
    TransitionSystem (State H S) (Action H S) where
  init := ⟨openedConnections, fun _ => .out, [], fun _ => false, fun _ => 0, ∅⟩
  step := step config

/-! ## The property and its condition -/

/-- The thread is in `try_extend_connections_`. -/
def SlotPc.extending : SlotPc H → Bool
  | .construct | .addHandler _ | .pushWaiting _ | .unwind _ | .retract => true
  | .out | .wake _ => false

/-- No call of `try_extend_connections_` is in progress. -/
def Idle (s : State H S) : Prop := ∀ i, (s.senders i).extending = false

/-- The counter is the number of live handlers while no slot is being taken, and
there are never more than `max_out_sockets_`. -/
def Slots (config : Config) (s : State H S) : Prop :=
  (Idle s → s.openedConnections = s.live.card) ∧ s.live.card ≤ config.maxOutSockets

/-- No slot is taken by an increment that overflows. -/
def NoOverflow (config : Config) (s : State H S) : Action H S → Prop
  | .extend i => s.senders i = .out → admits config s → s.openedConnections ≠ 2 ^ 31 - 1
  | _ => True

/-- The handler to which the thread has a `shared_ptr` of its own. -/
def SlotPc.handler : SlotPc H → Option H
  | .addHandler handler | .pushWaiting handler | .unwind handler | .wake handler => some handler
  | .out | .construct | .retract => none

/-- No constructor throws, and no handler is destroyed. -/
def KeepsSlots (s : State H S) : Action H S → Prop
  | .construct _ _ throws => throws = false
  | .release i => ∀ h ∈ (s.senders i).handler, s.useCount h ≠ 1
  | .teardown h => s.useCount h ≠ 1
  | .extend _ | .addHandler _ _ _ | .pushWaiting _ | .retract _ | .wakeup _ => True

instance (config : Config) (s : State H S) (a : Action H S) :
    Decidable (NoOverflow config s a) :=
  match a with
  | .extend _ => inferInstanceAs (Decidable (_ → _ → _))
  | .construct _ _ _ | .addHandler _ _ _ | .pushWaiting _ | .retract _ | .wakeup _ | .release _
  | .teardown _ => inferInstanceAs (Decidable True)

instance (s : State H S) (a : Action H S) : Decidable (KeepsSlots s a) :=
  match a with
  | .construct _ _ _ => inferInstanceAs (Decidable (_ = _))
  | .release _ => inferInstanceAs (Decidable (∀ h ∈ (_ : Option H), _))
  | .teardown _ => inferInstanceAs (Decidable (_ ≠ _))
  | .extend _ | .addHandler _ _ _ | .pushWaiting _ | .retract _ | .wakeup _ =>
      inferInstanceAs (Decidable True)

/-! ## The references -/

/-- The thread has a `shared_ptr` of its own to `h`. -/
def SlotPc.holds (h : H) (pc : SlotPc H) : Int := if pc.handler = some h then 1 else 0

variable [Fintype S]

/-- The number of threads with a `shared_ptr` of their own to `h`. -/
def holding (h : H) (s : State H S) : Int := total (SlotPc.holds h) s.senders

/-- `use_count()` counts the references, a handler is live while there are any, and
a handler that is to be added is known to its thread alone. -/
structure Referenced (s : State H S) : Prop where
  refs : ∀ h, (s.useCount h : Int) =
    holding h s + (s.polled h).toNat + s.waitingHandlers.count h
  alive : ∀ h, h ∈ s.live ↔ s.useCount h ≠ 0
  new : ∀ i h, s.senders i = .addHandler h → s.useCount h = 1

omit [DecidableEq S] [Fintype S] in
theorem SlotPc.holds_nonneg (h : H) (pc : SlotPc H) : 0 ≤ pc.holds h := by
  unfold SlotPc.holds
  split <;> omega

omit [DecidableEq S] in
theorem holding_nonneg (h : H) (s : State H S) : 0 ≤ holding h s :=
  Finset.sum_nonneg fun i _ => (s.senders i).holds_nonneg h

/-- A thread that goes on changes the references by its own. -/
theorem holding_update {s t : State H S} {i : S} {next : SlotPc H}
    (h : t.senders = Function.update s.senders i next) (handler : H) :
    holding handler t =
      holding handler s + (next.holds handler - (s.senders i).holds handler) := by
  rw [holding, h, total_update]
  rfl

omit [Fintype S] in
theorem referenced_init [Fintype S] (config : Config) (openedConnections : Int) :
    Referenced (system config openedConnections : TransitionSystem (State H S) _).init where
  refs := by
    intro h
    simp [system, holding, total, SlotPc.holds, SlotPc.handler]
  alive := by
    intro h
    simp [system]
  new := by
    intro i h hpc
    simp [system] at hpc

/-- Nobody but its thread refers to a handler that is to be added. -/
theorem Referenced.fresh {s : State H S} (hs : Referenced s) {i : S} {h : H}
    (hpc : s.senders i = .addHandler h) : s.polled h = false ∧ h ∉ s.waitingHandlers ∧
      ∀ j, j ≠ i → (s.senders j).handler ≠ some h := by
  have hrefs := hs.refs h
  rw [hs.new i h hpc] at hrefs
  have hmine : (s.senders i).holds h = 1 := by simp [SlotPc.holds, SlotPc.handler, hpc]
  have hle : (s.senders i).holds h ≤ holding h s :=
    le_total (fun j => (s.senders j).holds_nonneg h) i
  have hcount : s.waitingHandlers.count h = 0 := by omega
  refine ⟨?_, List.count_eq_zero.mp hcount, ?_⟩
  · by_contra hpolled
    have htrue : s.polled h = true := by simpa using hpolled
    rw [htrue, Bool.toNat_true] at hrefs
    omega
  · intro j hne hj
    have hother : (s.senders j).holds h = 1 := by simp [SlotPc.holds, hj]
    have hboth : (s.senders i).holds h + (s.senders j).holds h ≤ holding h s :=
      add_le_total (fun k => (s.senders k).holds_nonneg h) (Ne.symm hne)
    omega

/-- What a step may do to the references: `new` stays when the use count of a
handler that is to be added stays, or its thread has just constructed it. -/
theorem Referenced.of_refs {s t : State H S} {i : S} {next : SlotPc H} (hs : Referenced s)
    (hsenders : t.senders = Function.update s.senders i next)
    (hrefs : ∀ h, (t.useCount h : Int) =
      holding h s + (next.holds h - (s.senders i).holds h) + (t.polled h).toNat +
        t.waitingHandlers.count h)
    (halive : ∀ h, h ∈ t.live ↔ t.useCount h ≠ 0)
    (hnext : ∀ h, next = .addHandler h → t.useCount h = 1)
    (hkept : ∀ j h, j ≠ i → s.senders j = .addHandler h → t.useCount h = s.useCount h) :
    Referenced t := by
  refine ⟨?_, halive, ?_⟩
  · intro h
    rw [holding_update hsenders h]
    exact hrefs h
  · intro j h hpc
    by_cases hne : j = i
    · subst hne
      rw [hsenders, Function.update_self] at hpc
      exact hnext h hpc
    · rw [hsenders, Function.update_of_ne hne] at hpc
      rw [hkept j h hne hpc]
      exact hs.new j h hpc

/-- The thread goes on with the reference that it has, if any. -/
theorem Referenced.goto {s t : State H S} {i : S} {next : SlotPc H} (hs : Referenced s)
    (hsenders : t.senders = Function.update s.senders i next)
    (hhandler : next.handler = (s.senders i).handler) (hadd : ∀ h, next ≠ .addHandler h)
    (huse : t.useCount = s.useCount) (hpolled : t.polled = s.polled)
    (hwaiting : t.waitingHandlers = s.waitingHandlers) (hlive : t.live = s.live) :
    Referenced t := by
  apply hs.of_refs hsenders
  · intro h
    have hsame : next.holds h = (s.senders i).holds h := by
      unfold SlotPc.holds
      rw [hhandler]
    rw [huse, hpolled, hwaiting, hsame, Int.sub_self, Int.add_zero]
    exact hs.refs h
  · rw [huse, hlive]
    exact hs.alive
  · intro h hnext
    exact absurd hnext (hadd h)
  · intro j h _ _
    rw [huse]

omit [DecidableEq S] [Fintype S] in
theorem State.release_useCount (s : State H S) (h h' : H) :
    (s.release h).useCount h' = s.useCount h' - if h' = h then 1 else 0 := by
  by_cases hsame : h' = h
  · subst hsame
    simp [State.release]
  · simp [State.release, hsame]

omit [Fintype S] [DecidableEq S] in
/-- A handler that loses a reference stays live until it has none. -/
theorem State.release_alive {s : State H S} {h : H} (halive : ∀ h, h ∈ s.live ↔ s.useCount h ≠ 0)
    (h' : H) : h' ∈ (s.release h).live ↔ (s.release h).useCount h' ≠ 0 := by
  by_cases hsame : h' = h
  · subst hsame
    by_cases hlast : s.useCount h' = 1
    · simp [State.release, hlast]
    · simp only [State.release, if_neg hlast, Function.update_self, halive]
      omega
  · simp only [State.release, Function.update_of_ne hsame]
    split
    · rw [Finset.mem_erase]
      simp [hsame, halive]
    · exact halive h'

/-! ## The references of the operations -/

section References

variable {s : State H S} {i : S} {handler : H}

/-- A new handler is in the place of none that is live. -/
theorem Referenced.construct (hs : Referenced s) (hpc : s.senders i = .construct)
    (hunused : handler ∉ s.live) :
    Referenced ({ s with
      useCount := Function.update s.useCount handler 1
      live := insert handler s.live }.goto i (.addHandler handler)) := by
  have hzero : s.useCount handler = 0 := by
    by_contra hne
    exact hunused ((hs.alive handler).mpr hne)
  apply hs.of_refs rfl
  · intro h
    have hrefs := hs.refs h
    by_cases hsame : h = handler
    · subst hsame
      rw [hzero] at hrefs
      simp [State.goto, SlotPc.holds, SlotPc.handler, hpc]
      omega
    · simp [State.goto, SlotPc.holds, SlotPc.handler, hpc, hsame, Ne.symm hsame]
      exact hrefs
  · intro h
    by_cases hsame : h = handler
    · subst hsame
      simp [State.goto]
    · simp [State.goto, hsame, hs.alive h]
  · intro h hnext
    obtain rfl := SlotPc.addHandler.inj hnext
    simp [State.goto]
  · intro j h _ hj
    have hne : h ≠ handler := by
      rintro rfl
      have hone := hs.new j h hj
      omega
    simp [State.goto, hne]

/-- The poller takes the new handler, which nobody else refers to. -/
theorem Referenced.link {next : SlotPc H} (hs : Referenced s)
    (hpc : s.senders i = .addHandler handler) (hhandler : next.handler = some handler)
    (hadd : ∀ h, next ≠ .addHandler h) : Referenced ((s.link handler).goto i next) := by
  obtain ⟨hnew, -, hothers⟩ := hs.fresh hpc
  have hone := hs.new i handler hpc
  apply hs.of_refs rfl
  · intro h
    have hrefs := hs.refs h
    have hsame : next.holds h = (s.senders i).holds h := by
      rw [SlotPc.holds, SlotPc.holds, hhandler, hpc]
      rfl
    by_cases heq : h = handler
    · subst heq
      simp only [hnew] at hrefs
      simp [State.goto, State.link, hsame]
      simp at hrefs
      omega
    · simp [State.goto, State.link, hsame, heq]
      exact hrefs
  · intro h
    by_cases heq : h = handler
    · subst heq
      simp [State.goto, State.link, hs.alive, hone]
    · simp [State.goto, State.link, heq, hs.alive]
  · intro h heq
    exact absurd heq (hadd h)
  · intro j h hne hj
    have heq : h ≠ handler := by
      rintro rfl
      exact hothers j hne (by rw [hj]; rfl)
    simp [State.goto, State.link, heq]

theorem Referenced.pushWaiting (hs : Referenced s) (hpc : s.senders i = .pushWaiting handler) :
    Referenced ({ s with waitingHandlers := s.waitingHandlers ++ [handler] }.goto i .out) := by
  apply hs.of_refs rfl
  · intro h
    have hrefs := hs.refs h
    by_cases heq : handler = h
    · subst heq
      simp [State.goto, SlotPc.holds, SlotPc.handler, hpc]
      omega
    · simp [State.goto, SlotPc.holds, SlotPc.handler, hpc, heq, List.count_append]
      omega
  · exact hs.alive
  · intro h hnext
    cases hnext
  · intro j h _ _
    rfl

theorem Referenced.wakeup {rest : List H} (hs : Referenced s) (hpc : s.senders i = .out)
    (hwaiting : s.waitingHandlers = handler :: rest) :
    Referenced ({ s with waitingHandlers := rest }.goto i (.wake handler)) := by
  apply hs.of_refs rfl
  · intro h
    have hrefs := hs.refs h
    rw [hwaiting, List.count_cons] at hrefs
    by_cases heq : handler = h
    · subst heq
      simp [State.goto, SlotPc.holds, SlotPc.handler, hpc]
      simp at hrefs
      omega
    · simp [State.goto, SlotPc.holds, SlotPc.handler, hpc, heq]
      simpa [heq] using hrefs
  · exact hs.alive
  · intro h hnext
    cases hnext
  · intro j h _ _
    rfl

omit [DecidableEq S] in
/-- The last reference destroys a live handler. -/
theorem Referenced.release_card (hs : Referenced s) (h : H) :
    (s.release h).live.card + (if s.useCount h = 1 then 1 else 0) = s.live.card := by
  by_cases hlast : s.useCount h = 1
  · have hlive : h ∈ s.live := (hs.alive h).mpr (by omega)
    have hpos := Finset.card_pos.mpr ⟨h, hlive⟩
    simp only [State.release, if_pos hlast, Finset.card_erase_of_mem hlive]
    omega
  · simp only [State.release, if_neg hlast, Nat.add_zero]

/-- A handler that the thread has is not one that is to be added by another. -/
theorem Referenced.ne_of_handler (hs : Referenced s) {j : S} {h h' : H} (hne : j ≠ i)
    (hhandler : (s.senders i).handler = some h) (hj : s.senders j = .addHandler h') : h' ≠ h := by
  rintro rfl
  exact (hs.fresh hj).2.2 i (Ne.symm hne) hhandler

/-- The thread lets go of its own reference. -/
theorem Referenced.release_own (hs : Referenced s) (hhandler : (s.senders i).handler = some handler) :
    Referenced ((s.release handler).goto i .out) := by
  apply hs.of_refs rfl
  · intro h
    have hrefs := hs.refs h
    have hmine : (s.senders i).holds h = if h = handler then 1 else 0 := by
      simp [SlotPc.holds, hhandler, eq_comm]
    have hle : (s.senders i).holds h ≤ holding h s :=
      le_total (fun j => (s.senders j).holds_nonneg h) i
    have hkept : ((s.release handler).goto i .out).polled h = s.polled h := rfl
    have hwaiting : ((s.release handler).goto i .out).waitingHandlers = s.waitingHandlers := rfl
    have huse : ((s.release handler).goto i .out).useCount h =
        s.useCount h - if h = handler then 1 else 0 := s.release_useCount handler h
    have hout : (SlotPc.out : SlotPc H).holds h = 0 := rfl
    rw [huse, hkept, hwaiting, hout]
    by_cases hsame : h = handler
    · rw [if_pos hsame] at hmine ⊢
      omega
    · rw [if_neg hsame] at hmine ⊢
      omega
  · exact State.release_alive hs.alive
  · intro h hnext
    cases hnext
  · intro j h hne hj
    have hsame : h ≠ handler := hs.ne_of_handler hne hhandler hj
    show (s.release handler).useCount h = s.useCount h
    rw [s.release_useCount, if_neg hsame, Nat.sub_zero]

/-- The poller lets go of its reference. -/
theorem Referenced.unlink (hs : Referenced s) (hpolled : s.polled handler = true) :
    Referenced ({ s with polled := Function.update s.polled handler false }.release handler) := by
  have huse : ∀ h, ({ s with polled := Function.update s.polled handler false }.release
      handler).useCount h = s.useCount h - if h = handler then 1 else 0 :=
    fun h => s.release_useCount handler h
  refine ⟨?_, ?_, ?_⟩
  · intro h
    have hrefs := hs.refs h
    have hnonneg := holding_nonneg h s
    rw [huse]
    show _ = holding h s + ((Function.update s.polled handler false h).toNat : Int) +
      (s.waitingHandlers.count h : Int)
    by_cases heq : h = handler
    · subst heq
      rw [hpolled, Bool.toNat_true] at hrefs
      rw [Function.update_self, if_pos rfl, Bool.toNat_false]
      omega
    · rw [Function.update_of_ne heq, if_neg heq, Nat.sub_zero]
      exact hrefs
  · exact State.release_alive hs.alive
  · intro i h hpc
    have hne : h ≠ handler := by
      rintro rfl
      have hfree := (hs.fresh hpc).1
      rw [hpolled] at hfree
      cases hfree
    rw [huse, if_neg hne, Nat.sub_zero]
    exact hs.new i h hpc

end References

/-! ## The slots -/

/-- The thread has taken a slot for a handler that is not constructed yet. -/
def SlotPc.constructing : SlotPc H → Int
  | .construct => 1
  | .out | .addHandler _ | .pushWaiting _ | .unwind _ | .retract | .wake _ => 0

/-- The thread has found no slot and not yet given its increment back. -/
def SlotPc.retracting : SlotPc H → Int
  | .retract => 1
  | .out | .construct | .addHandler _ | .pushWaiting _ | .unwind _ | .wake _ => 0

omit [DecidableEq H] in
theorem SlotPc.constructing_nonneg (pc : SlotPc H) : 0 ≤ pc.constructing := by
  cases pc <;> simp [SlotPc.constructing]

omit [DecidableEq H] in
theorem SlotPc.retracting_nonneg (pc : SlotPc H) : 0 ≤ pc.retracting := by
  cases pc <;> simp [SlotPc.retracting]

def constructing (s : State H S) : Int := total SlotPc.constructing s.senders

def retracting (s : State H S) : Int := total SlotPc.retracting s.senders

/-- The counter is the number of leaked slots, of live handlers and of slots and
increments of calls in progress.  When `max_out_sockets_` narrows to the least
`int`, nothing is ever opened, and the counter may have wrapped around. -/
structure Balanced (config : Config) (leaked : Nat) (s : State H S) : Prop where
  referenced : Referenced s
  count : s.openedConnections = asInt (leaked + s.live.card + constructing s + retracting s)
  fits : leaked + s.live.card + constructing s + retracting s < 2 ^ 31 ∨
    asInt config.maxOutSockets = -2 ^ 31
  bound : leaked + s.live.card + constructing s ≤ max 0 (asInt config.maxOutSockets - 1)

omit [DecidableEq H] [DecidableEq S] in
theorem constructing_nonneg (s : State H S) : 0 ≤ constructing s :=
  Finset.sum_nonneg fun i _ => (s.senders i).constructing_nonneg

omit [DecidableEq H] [DecidableEq S] in
theorem retracting_nonneg (s : State H S) : 0 ≤ retracting s :=
  Finset.sum_nonneg fun i _ => (s.senders i).retracting_nonneg

omit [DecidableEq H] in
/-- A thread that goes on changes the slots in progress by its own. -/
theorem progress_update {s t : State H S} {i : S} {next : SlotPc H}
    (h : t.senders = Function.update s.senders i next) :
    constructing t = constructing s + (next.constructing - (s.senders i).constructing) ∧
      retracting t = retracting s + (next.retracting - (s.senders i).retracting) := by
  constructor
  · rw [constructing, h, total_update]
    rfl
  · rw [retracting, h, total_update]
    rfl

omit [DecidableEq H] [DecidableEq S] in
/-- While no call is in progress, the counter is ahead by the leaked slots alone. -/
theorem progress_eq_zero {s : State H S} (hidle : Idle s) :
    constructing s = 0 ∧ retracting s = 0 := by
  constructor
  · apply Finset.sum_eq_zero
    intro i _
    have hi := hidle i
    cases hpc : s.senders i <;> simp_all [SlotPc.extending, SlotPc.constructing]
  · apply Finset.sum_eq_zero
    intro i _
    have hi := hidle i
    cases hpc : s.senders i <;> simp_all [SlotPc.extending, SlotPc.retracting]

theorem balanced_init (config : Config) :
    Balanced config 0 (system config 0 : TransitionSystem (State H S) _).init := by
  obtain ⟨hconstructing, hretracting⟩ := progress_eq_zero
    (s := (system config 0 : TransitionSystem (State H S) _).init) (fun _ => rfl)
  refine ⟨referenced_init config 0, ?_, ?_, ?_⟩
  · rw [hconstructing, hretracting]
    rfl
  · rw [hconstructing, hretracting]
    exact Or.inl (by simp [system])
  · rw [hconstructing]
    simp [system]

/-- The narrowed bound is not above the bound. -/
theorem asInt_le_of_nonneg (n : Nat) : asInt n ≤ n := by
  rw [asInt_eq]
  omega

omit [DecidableEq S] in
/-- The number of live handlers is within the bound, however many slots are leaked. -/
theorem Balanced.card_le {config : Config} {leaked : Nat} {s : State H S}
    (hs : Balanced config leaked s) : s.live.card ≤ config.maxOutSockets := by
  have hbound := hs.bound
  have hnonneg := constructing_nonneg s
  have hnarrow := asInt_le_of_nonneg config.maxOutSockets
  omega

omit [DecidableEq S] in
/-- While no call is in progress, the leaked slots are the difference. -/
theorem Balanced.count_of_idle {config : Config} {leaked : Nat} {s : State H S}
    (hs : Balanced config leaked s) (hidle : Idle s) :
    s.openedConnections = leaked + s.live.card := by
  obtain ⟨hconstructing, hretracting⟩ := progress_eq_zero hidle
  have hcount := hs.count
  have hfits := hs.fits
  have hbound := hs.bound
  rw [hconstructing, hretracting] at hcount hfits
  rw [hconstructing] at hbound
  rw [hcount, asInt_eq]
  omega

/-! ## The operations -/

section Operations

variable {config : Config} {leaked : Nat} {s t : State H S} {i : S}

/-- An increment that takes a slot finds one, unless it overflows. -/
theorem Balanced.admitted (hs : Balanced config leaked s) (hreferenced : Referenced t)
    (hsenders : t.senders = Function.update s.senders i .construct)
    (hopened : t.openedConnections = asInt (s.openedConnections + 1)) (hlive : t.live = s.live)
    (hpc : s.senders i = .out) (hadmits : admits config s = true)
    (hroom : s.openedConnections ≠ 2 ^ 31 - 1) : Balanced config leaked t := by
  obtain ⟨-, hcount, hfits, hbound⟩ := hs
  have hlt : asInt (s.openedConnections + 1) < asInt config.maxOutSockets :=
    of_decide_eq_true hadmits
  have hconstructing := constructing_nonneg s
  have hretracting := retracting_nonneg s
  obtain ⟨htaken, hsame⟩ := progress_update hsenders
  rw [hpc] at htaken hsame
  simp only [SlotPc.constructing, SlotPc.retracting] at htaken hsame
  rw [asInt_eq] at hlt hcount hfits hbound
  rw [asInt_eq] at hlt
  refine ⟨hreferenced, ?_, ?_, ?_⟩
  · rw [hopened, hlive, asInt_eq, asInt_eq]
    omega
  · rw [hlive]
    omega
  · rw [hlive, asInt_eq]
    omega

omit [DecidableEq S] in
/-- An operation that takes no slot, and changes the counter by `d` with the
increments that are to be given back. -/
theorem Balanced.of_sums {leaked' : Nat} {d : Int} (hs : Balanced config leaked s)
    (hreferenced : Referenced t) (hopened : t.openedConnections = asInt (s.openedConnections + d))
    (htaken : leaked' + t.live.card + constructing t = leaked + s.live.card + constructing s)
    (hback : retracting t = retracting s + d)
    (hfits : d ≤ 0 ∨ d = 1 ∧ admits config s = false) : Balanced config leaked' t := by
  obtain ⟨-, hcount, hfits', hbound⟩ := hs
  have hconstructing := constructing_nonneg s
  have hretracting := retracting_nonneg s
  refine ⟨hreferenced, ?_, ?_, ?_⟩
  · rw [hopened, hcount, asInt_eq, asInt_eq, asInt_eq]
    omega
  · rcases hfits with hfits | ⟨rfl, hrefused⟩
    · omega
    · -- an increment that wraps around is refused only by the least bound
      have hle : ¬ asInt (s.openedConnections + 1) < asInt config.maxOutSockets :=
        of_decide_eq_false hrefused
      rw [asInt_eq, asInt_eq] at hle
      rw [asInt_eq] at hcount hfits' ⊢
      omega
  · omega

/-- Such an operation of a thread. -/
theorem Balanced.of_counts {leaked' : Nat} {d : Int} {next : SlotPc H}
    (hs : Balanced config leaked s) (hreferenced : Referenced t)
    (hsenders : t.senders = Function.update s.senders i next)
    (hopened : t.openedConnections = asInt (s.openedConnections + d))
    (htaken : leaked' + t.live.card + next.constructing =
      leaked + s.live.card + (s.senders i).constructing)
    (hback : next.retracting = (s.senders i).retracting + d)
    (hfits : d ≤ 0 ∨ d = 1 ∧ admits config s = false) : Balanced config leaked' t := by
  obtain ⟨hprogress, hprogress'⟩ := progress_update hsenders
  apply hs.of_sums hreferenced hopened ?_ ?_ hfits
  · omega
  · omega

omit [DecidableEq S] in
/-- The counter stays. -/
theorem Balanced.asInt_openedConnections (hs : Balanced config leaked s) :
    asInt (s.openedConnections + 0) = s.openedConnections := by
  rw [hs.count, Int.add_zero, asInt_eq, asInt_eq]
  omega

/-- The increment and its comparison. -/
theorem Balanced.extend (hs : Balanced config leaked s) (hfits : NoOverflow config s (.extend i))
    (hstep : step config s (.extend i) = some t) : Balanced config leaked t := by
  cases hpc : s.senders i <;> simp only [SocketSlots.step, hpc] at hstep
  case out =>
    obtain rfl := Option.some.inj hstep
    cases hadmits : admits config s with
    | true =>
        have hreferenced : Referenced ({ s with
            openedConnections := asInt (s.openedConnections + 1) }.goto i .construct) :=
          hs.referenced.goto rfl (by rw [hpc]; rfl) (by simp) rfl rfl rfl rfl
        exact hs.admitted hreferenced rfl rfl rfl hpc hadmits (hfits hpc hadmits)
    | false =>
        have hreferenced : Referenced ({ s with
            openedConnections := asInt (s.openedConnections + 1) }.goto i .retract) :=
          hs.referenced.goto rfl (by rw [hpc]; rfl) (by simp) rfl rfl rfl rfl
        refine hs.of_counts hreferenced rfl rfl ?_ ?_ (Or.inr ⟨rfl, hadmits⟩)
        · rw [hpc]
          rfl
        · rw [hpc]
          rfl
  all_goals cases hstep

/-- A call that found no slot gives its increment back. -/
theorem Balanced.retract (hs : Balanced config leaked s)
    (hstep : step config s (.retract i) = some t) : Balanced config leaked t := by
  cases hpc : s.senders i <;> simp only [SocketSlots.step, hpc] at hstep
  case retract =>
    obtain rfl := Option.some.inj hstep
    have hreferenced : Referenced ({ s with
        openedConnections := asInt (s.openedConnections - 1) }.goto i .out) :=
      hs.referenced.goto rfl (by rw [hpc]; rfl) (by simp) rfl rfl rfl rfl
    refine hs.of_counts (d := -1) hreferenced rfl rfl ?_ ?_ (Or.inl (by omega))
    · rw [hpc]
      rfl
    · rw [hpc]
      rfl
  all_goals cases hstep

/-- A constructor that throws leaks its slot. -/
theorem Balanced.construct {handler : H} {throws : Bool} (hs : Balanced config leaked s)
    (hstep : step config s (.construct i handler throws) = some t) :
    Balanced config (leaked + if throws then 1 else 0) t := by
  have hstays := hs.asInt_openedConnections.symm
  cases hpc : s.senders i <;> simp only [SocketSlots.step, hpc] at hstep
  case construct =>
    cases throws with
    | true =>
        obtain rfl := Option.some.inj hstep
        have hreferenced : Referenced (s.goto i .out) :=
          hs.referenced.goto rfl (by rw [hpc]; rfl) (by simp) rfl rfl rfl rfl
        refine hs.of_counts hreferenced rfl hstays ?_ ?_ (Or.inl (Int.le_refl 0))
        · simp [hpc, SlotPc.constructing, State.goto]
          omega
        · simp [hpc, SlotPc.retracting]
    | false =>
        by_cases hused : handler ∈ s.live
        · simp [hused] at hstep
        · simp only [Bool.false_eq_true, if_false, if_neg hused] at hstep
          obtain rfl := Option.some.inj hstep
          have hreferenced := hs.referenced.construct hpc hused
          refine hs.of_counts hreferenced rfl hstays ?_ ?_ (Or.inl (Int.le_refl 0))
          · simp [hpc, SlotPc.constructing, State.goto, hused]
            omega
          · simp [hpc, SlotPc.retracting]
  all_goals cases hstep

/-- The poller takes the new handler, or does not. -/
theorem Balanced.addHandler {linked throws : Bool} (hs : Balanced config leaked s)
    (hstep : step config s (.addHandler i linked throws) = some t) :
    Balanced config leaked t := by
  have hstays := hs.asInt_openedConnections.symm
  cases hpc : s.senders i <;> simp only [SocketSlots.step, hpc] at hstep
  case addHandler handler =>
    obtain rfl := Option.some.inj hstep
    generalize hnext : (if throws then SlotPc.unwind handler else .pushWaiting handler) = next
    have hhandler : next.handler = some handler := by
      rw [← hnext]
      cases throws <;> rfl
    have hadd : ∀ h, next ≠ .addHandler h := by
      rw [← hnext]
      cases throws <;> simp
    have hweights : next.constructing = 0 ∧ next.retracting = 0 := by
      rw [← hnext]
      cases throws <;> exact ⟨rfl, rfl⟩
    have hreferenced : Referenced ((if linked then s.link handler else s).goto i next) := by
      cases linked with
      | false =>
          exact hs.referenced.goto rfl (by rw [hpc, hhandler]; rfl) hadd rfl rfl rfl rfl
      | true => exact hs.referenced.link hpc hhandler hadd
    have hlive : ((if linked then s.link handler else s).goto i next).live = s.live := by
      cases linked <;> rfl
    have hopened : ((if linked then s.link handler else s).goto i next).openedConnections =
        s.openedConnections := by
      cases linked <;> rfl
    have hsenders : ((if linked then s.link handler else s).goto i next).senders =
        Function.update s.senders i next := by
      cases linked <;> rfl
    refine hs.of_counts hreferenced hsenders (hopened.trans hstays) ?_ ?_
      (Or.inl (Int.le_refl 0))
    · rw [hlive, hpc, hweights.1]
      rfl
    · rw [hpc, hweights.2]
      rfl
  all_goals cases hstep

/-- The reference of the thread goes into `waiting_handlers_`. -/
theorem Balanced.pushWaiting (hs : Balanced config leaked s)
    (hstep : step config s (.pushWaiting i) = some t) : Balanced config leaked t := by
  have hstays := hs.asInt_openedConnections.symm
  cases hpc : s.senders i <;> simp only [SocketSlots.step, hpc] at hstep
  case pushWaiting handler =>
    obtain rfl := Option.some.inj hstep
    have hreferenced := hs.referenced.pushWaiting hpc
    refine hs.of_counts hreferenced rfl hstays ?_ ?_ (Or.inl (Int.le_refl 0))
    · rw [hpc]
      rfl
    · rw [hpc]
      rfl
  all_goals cases hstep

/-- A reference of `waiting_handlers_` goes to the thread. -/
theorem Balanced.wakeup (hs : Balanced config leaked s)
    (hstep : step config s (.wakeup i) = some t) : Balanced config leaked t := by
  have hstays := hs.asInt_openedConnections.symm
  cases hpc : s.senders i <;> cases hwaiting : s.waitingHandlers <;>
    simp only [SocketSlots.step, hpc, hwaiting] at hstep
  case out.cons handler rest =>
    obtain rfl := Option.some.inj hstep
    have hreferenced := hs.referenced.wakeup hpc hwaiting
    refine hs.of_counts hreferenced rfl hstays ?_ ?_ (Or.inl (Int.le_refl 0))
    · rw [hpc]
      rfl
    · rw [hpc]
      rfl
  all_goals cases hstep

/-- The end of a call that has a handler of its own. -/
theorem Balanced.release (hs : Balanced config leaked s)
    (hstep : step config s (.release i) = some t) :
    Balanced config
      (leaked + if ∀ h ∈ (s.senders i).handler, s.useCount h ≠ 1 then 0 else 1) t := by
  have hstays := hs.asInt_openedConnections.symm
  cases hpc : s.senders i <;> simp only [SocketSlots.step, hpc] at hstep
  case unwind handler | wake handler =>
    obtain rfl := Option.some.inj hstep
    have hcard := hs.referenced.release_card handler
    have hlive : ((s.release handler).goto i .out).live = (s.release handler).live := rfl
    have hhandler : (s.senders i).handler = some handler := by
      rw [hpc]
      rfl
    refine hs.of_counts (hs.referenced.release_own hhandler) rfl hstays ?_ ?_
      (Or.inl (Int.le_refl 0))
    · rw [hlive, hpc]
      simp only [SlotPc.constructing, SlotPc.handler, Option.mem_some_iff, forall_eq', ne_eq,
        ite_not]
      split at hcard
      · rename_i hlast
        rw [if_pos hlast]
        omega
      · rename_i hmore
        rw [if_neg hmore]
        omega
    · rw [hpc]
      rfl
  all_goals cases hstep

/-- The poller drops its reference. -/
theorem Balanced.teardown {handler : H} (hs : Balanced config leaked s)
    (hstep : step config s (.teardown handler) = some t) :
    Balanced config (leaked + if s.useCount handler ≠ 1 then 0 else 1) t := by
  have hstays := hs.asInt_openedConnections.symm
  by_cases hpolled : s.polled handler = true
  · simp only [SocketSlots.step, if_pos hpolled] at hstep
    obtain rfl := Option.some.inj hstep
    generalize hdropped : { s with polled := Function.update s.polled handler false } = dropped
    have hsenders : (dropped.release handler).senders = s.senders := by
      rw [← hdropped]
      rfl
    have hreferenced : Referenced (dropped.release handler) := by
      rw [← hdropped]
      exact hs.referenced.unlink hpolled
    have hcard : (dropped.release handler).live.card +
        (if s.useCount handler = 1 then 1 else 0) = s.live.card := by
      have hcard := hs.referenced.release_card handler
      rw [← hcard, ← hdropped]
      rfl
    have hconstructing : constructing (dropped.release handler) = constructing s := by
      rw [constructing, hsenders]
      rfl
    have hretracting : retracting (dropped.release handler) = retracting s := by
      rw [retracting, hsenders]
      rfl
    refine hs.of_sums hreferenced ?_ ?_ ?_ (Or.inl (Int.le_refl 0))
    · rw [← hstays, ← hdropped]
      rfl
    · rw [hconstructing, ite_not]
      split at hcard
      · rename_i hlast
        rw [if_pos hlast]
        omega
      · rename_i hmore
        rw [if_neg hmore]
        omega
    · rw [hretracting, Int.add_zero]
  · simp only [SocketSlots.step, if_neg hpolled] at hstep
    cases hstep

end Operations

/-! ## Runs -/

/-- A step leaks a slot if it fails the condition, and none otherwise. -/
theorem Balanced.step {config : Config} {leaked : Nat} {s t : State H S} {a : Action H S}
    (hs : Balanced config leaked s) (hfits : NoOverflow config s a)
    (hstep : SocketSlots.step config s a = some t) :
    Balanced config (leaked + if KeepsSlots s a then 0 else 1) t := by
  cases a with
  | extend i => exact hs.extend hfits hstep
  | construct i handler throws =>
      have hbalanced := hs.construct hstep
      cases throws with
      | false => exact hbalanced
      | true => exact hbalanced
  | addHandler i linked throws => exact hs.addHandler hstep
  | pushWaiting i => exact hs.pushWaiting hstep
  | retract i => exact hs.retract hstep
  | wakeup i => exact hs.wakeup hstep
  | release i => exact hs.release hstep
  | teardown handler => exact hs.teardown hstep

/-- In every run without overflow the slots are right in every state, if
`opened_connections_` begins with `0`, no constructor throws and no handler is
destroyed.  And a run that ends with no call in progress, and is right throughout,
meets these conditions. -/
theorem slots_throughout {config : Config} {openedConnections : Int}
    {actions : List (Action H S)} {s : State H S}
    (hrun : (system config openedConnections).run (system config openedConnections).init actions =
      some s)
    (hfits : Meets (system config openedConnections) (NoOverflow config)
      (system config openedConnections).init actions) :
    (openedConnections = 0 ∧
        Meets (system config openedConnections) KeepsSlots
          (system config openedConnections).init actions →
      Throughout (system config openedConnections) (Slots config)
        (system config openedConnections).init actions) ∧
    (Idle s → Throughout (system config openedConnections) (Slots config)
        (system config openedConnections).init actions →
      openedConnections = 0 ∧ Meets (system config openedConnections) KeepsSlots
        (system config openedConnections).init actions) := by
  have hgood : ∀ (s : State H S) a t, Balanced config 0 s → NoOverflow config s a →
      KeepsSlots s a → (system config openedConnections).step s a = some t →
        Balanced config 0 t := by
    intro s a t hs hfits hkeeps hstep
    have hbalanced := hs.step hfits hstep
    rwa [if_pos hkeeps] at hbalanced
  have hbad : ∀ (s : State H S) a t, Balanced config 0 s → NoOverflow config s a →
      ¬ KeepsSlots s a → (system config openedConnections).step s a = some t →
        ∃ leaked, 0 < leaked ∧ Balanced config leaked t := by
    intro s a t hs hfits hleaks hstep
    have hbalanced := hs.step hfits hstep
    rw [if_neg hleaks] at hbalanced
    exact ⟨1, Nat.one_pos, hbalanced⟩
  have hstay : ∀ (s : State H S) a t, (∃ leaked, 0 < leaked ∧ Balanced config leaked s) →
      NoOverflow config s a → (system config openedConnections).step s a = some t →
        ∃ leaked, 0 < leaked ∧ Balanced config leaked t := by
    rintro s a t ⟨leaked, hpos, hs⟩ hfits hstep
    exact ⟨_, Nat.add_pos_left hpos _, hs.step hfits hstep⟩
  constructor
  · rintro ⟨rfl, hkeeps⟩
    refine throughout_of_meets (fun s hs => ⟨fun hidle => ?_, hs.card_le⟩) hgood
      (balanced_init config) hfits hkeeps
    simpa using hs.count_of_idle hidle
  · intro hidle hslots
    have hzero : openedConnections = 0 := by
      have hfirst := hslots.first.1 (fun i => rfl)
      simpa [system] using hfirst
    subst hzero
    refine ⟨rfl, ?_⟩
    rcases run_split_within hgood hbad hstay (balanced_init config) hfits hrun with
      ⟨hkeeps, -⟩ | ⟨-, leaked, hpos, hbalanced⟩
    · exact hkeeps
    · have hcount := hbalanced.count_of_idle hidle
      rw [(hslots.last hrun).1 hidle] at hcount
      omega

/-- A sending thread opens a socket and a message wakes it up. -/
theorem slots_opened :
    Throughout (system ⟨3⟩ 0) (Slots ⟨3⟩) (system ⟨3⟩ 0 : TransitionSystem (State Nat Unit) _).init
      [.extend (), .construct () 7 false, .addHandler () true false, .pushWaiting (),
        .wakeup (), .release ()] := by
  have hrun : ∃ s, (system ⟨3⟩ 0).run (system ⟨3⟩ 0 : TransitionSystem (State Nat Unit) _).init
      [.extend (), .construct () 7 false, .addHandler () true false, .pushWaiting (),
        .wakeup (), .release ()] = some s := ⟨_, rfl⟩
  obtain ⟨s, hrun⟩ := hrun
  exact (slots_throughout hrun (by decide +kernel)).1 ⟨rfl, by decide +kernel⟩

/-- A constructor that throws keeps the slot that was taken for it. -/
theorem slot_leaked :
    ∃ s, (system ⟨3⟩ 0).run (system ⟨3⟩ 0 : TransitionSystem (State Nat Unit) _).init
        [.extend (), .construct () 7 true] = some s ∧ Idle s ∧ ¬ Slots ⟨3⟩ s := by
  refine ⟨_, rfl, fun i => rfl, ?_⟩
  rintro ⟨hcount, -⟩
  have hone := hcount (fun i => rfl)
  revert hone
  decide

end SocketSlots
end LiteMQ
