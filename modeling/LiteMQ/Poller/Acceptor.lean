import LiteMQ.Foundation.Token
import Mathlib.Logic.Function.Basic

/-!
# `AcceptorDescriptorHandler` and `DescriptorHandlerPollerPool`

The acceptor is a handler of one of the pollers.  Its `read()` and its `write()` both call
`accept_`, which takes connections from the backlog until `::accept` has no more, and hands
each of them to the pool.  The pool gives every handler to the next of its pollers.

Both answer `CONTINUE_HANDLE`, so that the holder of the acceptor wants to read and to write
for ever and is never closed.  The event of the listening socket is reported once
(`EPOLLONESHOT`) and again when the descriptor has been rearmed behind the pass.  A connection
is the number of those that came before it.
-/

namespace LiteMQ
namespace Acceptor

open TransitionSystem

/-! ## The source -/

/-- Which of the two calls `accept_`. -/
inductive Side
  | read
  | write
  deriving DecidableEq

/-- Where a worker stands with the event of the acceptor. -/
inductive Pc
  /-- It does not have the event. -/
  | away
  /-- The event is in its batch. -/
  | batch
  /-- In front of `handle_in_progress++`. -/
  | enter
  /-- In front of `::accept`. -/
  | accept (side : Side)
  /-- In front of `create_descriptor_handler`. -/
  | create (side : Side) (connection : Nat)
  /-- In front of the lock of `DescriptorHandlerPollerPool::add`. -/
  | add (side : Side) (connection : Nat)
  /-- In front of `(*poller_it)->add`. -/
  | register (side : Side) (connection poller : Nat)
  /-- In front of `handle_in_progress--`. -/
  | leave
  /-- In front of `epoll_rearm_handler_`. -/
  | rearm
  deriving DecidableEq

/-- The connection that the worker has accepted and not handed on. -/
def Pc.hand : Pc → Option Nat
  | .create _ connection | .add _ connection | .register _ connection _ => some connection
  | _ => none

/-- The worker is counted in `handle_in_progress`. -/
def Pc.counted : Pc → Bool
  | .away | .batch | .enter | .rearm => false
  | _ => true

/-- What `::accept` returns: the first connection of the backlog, `EAGAIN`, or another
error. -/
inductive AcceptResult
  | connection
  | again
  | failed

/-- `arrived` counts the connections that the kernel has completed, and `backlog` holds those
that were not accepted.  A connection is then refused by `create_descriptor_handler`, or its
handler is given to a poller: `registered` holds those whose `add` returned, `unregistered` those
whose `add` threw. -/
structure State (Thread : Type*) where
  arrived : Nat
  backlog : List Nat
  armed : Bool
  handleInProgress : Int
  pcs : Thread → Pc
  pollerIt : Nat
  refused : List Nat
  registered : Nat → List Nat
  unregistered : Nat → List Nat

inductive Action (Thread : Type*)
  | connect
  | epollWait (i : Thread)
  /-- The handlers in front of the acceptor in the batch have been handled. -/
  | reach (i : Thread)
  /-- One of them has thrown. -/
  | otherThrew (i : Thread)
  | enter (i : Thread)
  | accept (i : Thread) (result : AcceptResult)
  | create (i : Thread) (made : Bool)
  | add (i : Thread)
  | register (i : Thread) (added : Bool)
  | leave (i : Thread)
  | rearm (i : Thread) (done : Bool)
  /-- Somebody else adds a handler to the pool. -/
  | otherAdd

section Source

variable {Thread : Type*} [DecidableEq Thread]

/-- The worker comes to `pc`. -/
def State.goTo (s : State Thread) (i : Thread) (pc : Pc) : State Thread :=
  { s with pcs := Function.update s.pcs i pc }

/-- `poller_it_++`, and back to the first poller at the end. -/
def nextPoller (pollers pollerIt : Nat) : Nat :=
  if pollerIt + 1 = pollers then 0 else pollerIt + 1

/-- Behind `accept_`. -/
def Side.behind : Side → Pc
  | .read => .accept .write
  | .write => .leave

def step (pollers : Nat) (s : State Thread) : Action Thread → Option (State Thread)
  | .connect =>
      some { s with arrived := s.arrived + 1, backlog := s.backlog ++ [s.arrived] }
  | .epollWait i =>
      if s.pcs i = .away ∧ s.armed = true ∧ s.backlog ≠ [] then
        some { s with pcs := Function.update s.pcs i .batch, armed := false }
      else none
  | .reach i => if s.pcs i = .batch then some (s.goTo i .enter) else none
  | .otherThrew i => if s.pcs i = .batch then some (s.goTo i .away) else none
  | .enter i =>
      if s.pcs i = .enter then
        -- an event that comes during a pass is left to the thread that makes it
        let pc := if s.handleInProgress = 0 then .accept .read else .away
        some { s with
          pcs := Function.update s.pcs i pc, handleInProgress := s.handleInProgress + 1 }
      else none
  | .accept i result =>
      match s.pcs i, result with
      | .accept side, .connection =>
          match s.backlog with
          | [] => none
          | connection :: rest =>
              some { s with
                pcs := Function.update s.pcs i (.create side connection), backlog := rest }
      | .accept side, .again => if s.backlog = [] then some (s.goTo i side.behind) else none
      | .accept _, .failed => some (s.goTo i .away)
      | _, _ => none
  | .create i made =>
      match s.pcs i with
      | .create side connection =>
          if made then some (s.goTo i (.add side connection))
          else some { s with
            pcs := Function.update s.pcs i (.accept side), refused := connection :: s.refused }
      | _ => none
  | .add i =>
      match s.pcs i with
      | .add side connection =>
          some { s with
            pcs := Function.update s.pcs i (.register side connection s.pollerIt)
            pollerIt := nextPoller pollers s.pollerIt }
      | _ => none
  | .register i added =>
      match s.pcs i with
      | .register side connection poller =>
          if added then
            some { s with
              pcs := Function.update s.pcs i (.accept side)
              registered := Function.update s.registered poller
                (connection :: s.registered poller) }
          else
            some { s with
              pcs := Function.update s.pcs i .away
              unregistered := Function.update s.unregistered poller
                (connection :: s.unregistered poller) }
      | _ => none
  | .leave i =>
      if s.pcs i = .leave then
        let pc := if 1 < s.handleInProgress then .accept .read else .rearm
        some { s with
          pcs := Function.update s.pcs i pc, handleInProgress := s.handleInProgress - 1 }
      else none
  | .rearm i done =>
      if s.pcs i = .rearm then
        some { s with pcs := Function.update s.pcs i .away, armed := s.armed || done }
      else none
  | .otherAdd => some { s with pollerIt := nextPoller pollers s.pollerIt }

/-- What a step does. -/
inductive Step (pollers : Nat) (s : State Thread) : Action Thread → State Thread → Prop
  | connect :
      Step pollers s .connect
        { s with arrived := s.arrived + 1, backlog := s.backlog ++ [s.arrived] }
  | otherAdd : Step pollers s .otherAdd { s with pollerIt := nextPoller pollers s.pollerIt }
  | epollWait (i : Thread) (haway : s.pcs i = .away) (harmed : s.armed = true) :
      Step pollers s (.epollWait i)
        { s with pcs := Function.update s.pcs i .batch, armed := false }
  | reach (i : Thread) (hpc : s.pcs i = .batch) : Step pollers s (.reach i) (s.goTo i .enter)
  | otherThrew (i : Thread) (hpc : s.pcs i = .batch) :
      Step pollers s (.otherThrew i) (s.goTo i .away)
  | enter (i : Thread) (hpc : s.pcs i = .enter) :
      Step pollers s (.enter i)
        { s with
          pcs := Function.update s.pcs i (if s.handleInProgress = 0 then .accept .read else .away)
          handleInProgress := s.handleInProgress + 1 }
  | accepted (i : Thread) (side : Side) (connection : Nat) (rest : List Nat)
      (hpc : s.pcs i = .accept side) (hbacklog : s.backlog = connection :: rest) :
      Step pollers s (.accept i .connection)
        { s with pcs := Function.update s.pcs i (.create side connection), backlog := rest }
  | again (i : Thread) (side : Side) (hpc : s.pcs i = .accept side) (hnone : s.backlog = []) :
      Step pollers s (.accept i .again) (s.goTo i side.behind)
  | failed (i : Thread) (side : Side) (hpc : s.pcs i = .accept side) :
      Step pollers s (.accept i .failed) (s.goTo i .away)
  | created (i : Thread) (side : Side) (connection : Nat)
      (hpc : s.pcs i = .create side connection) :
      Step pollers s (.create i true) (s.goTo i (.add side connection))
  | refused (i : Thread) (side : Side) (connection : Nat)
      (hpc : s.pcs i = .create side connection) :
      Step pollers s (.create i false)
        { s with
          pcs := Function.update s.pcs i (.accept side), refused := connection :: s.refused }
  | add (i : Thread) (side : Side) (connection : Nat) (hpc : s.pcs i = .add side connection) :
      Step pollers s (.add i)
        { s with
          pcs := Function.update s.pcs i (.register side connection s.pollerIt)
          pollerIt := nextPoller pollers s.pollerIt }
  | registered (i : Thread) (side : Side) (connection poller : Nat)
      (hpc : s.pcs i = .register side connection poller) :
      Step pollers s (.register i true)
        { s with
          pcs := Function.update s.pcs i (.accept side)
          registered := Function.update s.registered poller
            (connection :: s.registered poller) }
  | unregistered (i : Thread) (side : Side) (connection poller : Nat)
      (hpc : s.pcs i = .register side connection poller) :
      Step pollers s (.register i false)
        { s with
          pcs := Function.update s.pcs i .away
          unregistered := Function.update s.unregistered poller
            (connection :: s.unregistered poller) }
  | leave (i : Thread) (hpc : s.pcs i = .leave) :
      Step pollers s (.leave i)
        { s with
          pcs := Function.update s.pcs i (if 1 < s.handleInProgress then .accept .read else .rearm)
          handleInProgress := s.handleInProgress - 1 }
  | rearm (i : Thread) (done : Bool) (hpc : s.pcs i = .rearm) :
      Step pollers s (.rearm i done)
        { s with pcs := Function.update s.pcs i .away, armed := s.armed || done }

theorem step_cases {pollers : Nat} {s t : State Thread} {a : Action Thread}
    (h : step pollers s a = some t) : Step pollers s a t := by
  cases a <;> simp only [step] at h
  case connect =>
    obtain rfl := Option.some.inj h
    exact .connect
  case otherAdd =>
    obtain rfl := Option.some.inj h
    exact .otherAdd
  case accept i result =>
    split at h
    · rename_i side hpc
      split at h
      · cases h
      · rename_i connection rest hbacklog
        obtain rfl := Option.some.inj h
        exact .accepted i side connection rest hpc hbacklog
    · rename_i side hpc
      split at h
      · rename_i hnone
        obtain rfl := Option.some.inj h
        exact .again i side hpc hnone
      · cases h
    · rename_i side hpc
      obtain rfl := Option.some.inj h
      exact .failed i side hpc
    · cases h
  case create i made =>
    split at h
    · rename_i side connection hpc
      cases made <;> obtain rfl := Option.some.inj h
      · exact .refused i side connection hpc
      · exact .created i side connection hpc
    · cases h
  case add i =>
    split at h
    · rename_i side connection hpc
      obtain rfl := Option.some.inj h
      exact .add i side connection hpc
    · cases h
  case register i added =>
    split at h
    · rename_i side connection poller hpc
      cases added <;> obtain rfl := Option.some.inj h
      · exact .unregistered i side connection poller hpc
      · exact .registered i side connection poller hpc
    · cases h
  all_goals split at h
  case epollWait.isTrue i hcond =>
    obtain rfl := Option.some.inj h
    exact .epollWait i hcond.1 hcond.2.1
  case reach.isTrue i hpc =>
    obtain rfl := Option.some.inj h
    exact .reach i hpc
  case otherThrew.isTrue i hpc =>
    obtain rfl := Option.some.inj h
    exact .otherThrew i hpc
  case enter.isTrue i hpc =>
    obtain rfl := Option.some.inj h
    exact .enter i hpc
  case leave.isTrue i hpc =>
    obtain rfl := Option.some.inj h
    exact .leave i hpc
  case rearm.isTrue i done hpc =>
    obtain rfl := Option.some.inj h
    exact .rearm i done hpc
  all_goals cases h

/-- The acceptor is registered and the pollers run. -/
def system (Thread : Type*) [DecidableEq Thread] (pollers : Nat) :
    TransitionSystem (State Thread) (Action Thread) :=
  ⟨⟨0, [], true, 0, fun _ => .away, 0, [], fun _ => [], fun _ => []⟩, step pollers⟩

end Source

/-! ## The event of the listening socket -/

/-- Where the event is: `none` is epoll, which will report it. -/
def State.token {Thread : Type*} (s : State Thread) : Option Thread → Nat
  | none => if s.armed then 1 else 0
  | some i => if s.pcs i = .away then 0 else 1

/-- Nothing throws: neither a handler in front of the acceptor in the batch, nor `::accept`,
nor the `add` of a poller, nor the `epoll_ctl` that rearms the descriptor. -/
def Kept {Thread : Type*} : Action Thread → Prop
  | .otherThrew _ | .accept _ .failed | .register _ false | .rearm _ false => False
  | _ => True

instance {Thread : Type*} : DecidablePred (@Kept Thread) := fun a => by
  unfold Kept
  split <;> infer_instance

section Token

variable {Thread : Type*} [DecidableEq Thread] {pollers : Nat} {s t : State Thread} {i : Thread}
  {pc : Pc}

/-- Who has the event knows what `handle_in_progress` is. -/
structure Base {Thread : Type*} (s : State Thread) : Prop where
  worker : ∀ i, s.pcs i ≠ .away → s.handleInProgress = if (s.pcs i).counted then 1 else 0
  armed : s.armed = true → s.handleInProgress = 0

omit [DecidableEq Thread] in
/-- A worker with the event is the only one, and the descriptor is not armed. -/
theorem alone (hone : Ledger.InOnePlace s.token ∨ Ledger.Nowhere s.token)
    (hi : s.pcs i ≠ .away) :
    (∀ j, j ≠ i → s.pcs j = .away) ∧ s.armed = false := by
  have hhas : s.token (some i) ≠ 0 := by
    simp only [State.token, if_neg hi]
    exact Nat.one_ne_zero
  rcases hone with hone | hnowhere
  · refine ⟨fun j hj => ?_, ?_⟩
    · have hzero := hone.eq_zero_of_ne (q := some j) hhas (by simpa using hj)
      by_contra haway
      simp only [State.token, if_neg haway] at hzero
      cases hzero
    · have hzero := hone.eq_zero_of_ne (q := none) hhas (by simp)
      cases harmed : s.armed with
      | false => rfl
      | true =>
          simp only [State.token, harmed, if_pos] at hzero
          cases hzero
  · exact absurd (hnowhere (some i)) hhas

omit [DecidableEq Thread] in
/-- While the descriptor is armed no worker has the event. -/
theorem all_away (hone : Ledger.InOnePlace s.token ∨ Ledger.Nowhere s.token)
    (harmed : s.armed = true) (j : Thread) : s.pcs j = .away := by
  have hhas : s.token none ≠ 0 := by simp [State.token, harmed]
  rcases hone with hone | hnowhere
  · have hzero := hone.eq_zero_of_ne (q := some j) hhas (by simp)
    by_contra hj
    simp only [State.token, if_neg hj] at hzero
    cases hzero
  · exact absurd (hnowhere none) hhas

/-- Only the place of one worker changes. -/
theorem token_update (hpcs : t.pcs = Function.update s.pcs i pc) (harmed : t.armed = s.armed)
    (place : Option Thread) :
    t.token place =
      if place = some i then (if pc = .away then 0 else 1) else s.token place := by
  cases place with
  | none => simp [State.token, harmed]
  | some j =>
      by_cases hji : j = i
      · subst hji
        simp [State.token, hpcs]
      · simp [State.token, hpcs, hji]

/-- The step of the worker with the event keeps the base. -/
theorem Base.update (hone : Ledger.InOnePlace s.token ∨ Ledger.Nowhere s.token)
    (hi : s.pcs i ≠ .away) (hpcs : t.pcs = Function.update s.pcs i pc)
    (hworker : pc ≠ .away → t.handleInProgress = if pc.counted then 1 else 0)
    (harmed : t.armed = true → t.handleInProgress = 0) : Base t where
  worker := by
    rw [hpcs]
    refine (Function.forall_update_iff s.pcs
      fun _ pc => pc ≠ .away → t.handleInProgress = if pc.counted then 1 else 0).mpr
        ⟨hworker, fun j hji hj => absurd ((alone hone hi).1 j hji) hj⟩
  armed := harmed

variable {a : Action Thread}

/-- The worker goes on in its pass. -/
theorem handsOn_stay (hone : Ledger.InOnePlace s.token ∨ Ledger.Nowhere s.token)
    (hi : s.pcs i ≠ .away) (hkept : Kept a) (hpcs : t.pcs = Function.update s.pcs i pc)
    (hpc : pc ≠ .away) (harmed : t.armed = s.armed)
    (hcount : t.handleInProgress = if pc.counted then 1 else 0) :
    Base t ∧ HandsOn State.token (fun _ a => Kept a) s a t := by
  refine ⟨Base.update hone hi hpcs (fun _ => hcount) fun h => ?_,
    Or.inl ⟨hkept, Or.inl (funext fun place => ?_)⟩⟩
  · rw [harmed, (alone hone hi).2] at h
    cases h
  · rw [token_update hpcs harmed, if_neg hpc]
    split
    · rename_i hplace
      rw [hplace]
      exact (if_neg hi).symm
    · rfl

/-- The worker goes on between two places that `handle_in_progress` does not tell apart. -/
theorem handsOn_go {before : Pc} (hs : Base s)
    (hone : Ledger.InOnePlace s.token ∨ Ledger.Nowhere s.token) (hbefore : s.pcs i = before)
    (hkept : Kept a) (hpcs : t.pcs = Function.update s.pcs i pc)
    (hpc : before ≠ .away ∧ pc ≠ .away ∧ pc.counted = before.counted)
    (harmed : t.armed = s.armed) (hcount : t.handleInProgress = s.handleInProgress) :
    Base t ∧ HandsOn State.token (fun _ a => Kept a) s a t := by
  obtain ⟨haway, hnext, hsame⟩ := hpc
  have hi : s.pcs i ≠ .away := hbefore ▸ haway
  refine handsOn_stay hone hi hkept hpcs hnext harmed ?_
  rw [hcount, hs.worker i hi, hbefore, hsame]

/-- The worker leaves its pass by an exception. -/
theorem handsOn_drop (hone : Ledger.InOnePlace s.token ∨ Ledger.Nowhere s.token)
    (hi : s.pcs i ≠ .away) (hnot : ¬Kept a) (hpcs : t.pcs = Function.update s.pcs i .away)
    (harmed : t.armed = s.armed) : Base t ∧ HandsOn State.token (fun _ a => Kept a) s a t := by
  refine ⟨Base.update hone hi hpcs (fun h => absurd rfl h) fun h => ?_,
    Or.inr ⟨hnot, some i, ?_, ?_, fun place hplace => ?_⟩⟩
  · rw [harmed, (alone hone hi).2] at h
    cases h
  · simp only [State.token, if_neg hi]
    exact Nat.one_ne_zero
  · rw [token_update hpcs harmed, if_pos rfl, if_pos rfl]
  · rw [token_update hpcs harmed, if_neg hplace]

omit [DecidableEq Thread] in
/-- A step beside the event. -/
theorem handsOn_beside (hs : Base s) (hkept : Kept a) (hpcs : t.pcs = s.pcs)
    (harmed : t.armed = s.armed) (hcount : t.handleInProgress = s.handleInProgress) :
    Base t ∧ HandsOn State.token (fun _ a => Kept a) s a t := by
  refine ⟨⟨?_, ?_⟩, Or.inl ⟨hkept, Or.inl (funext fun place => ?_)⟩⟩
  · rw [hpcs, hcount]
    exact hs.worker
  · rw [harmed, hcount]
    exact hs.armed
  · cases place with
    | none => simp [State.token, harmed]
    | some j => simp [State.token, hpcs]

/-- epoll reports the event to a worker. -/
theorem handsOn_epollWait (hs : Base s)
    (hone : Ledger.InOnePlace s.token ∨ Ledger.Nowhere s.token)
    (haway : s.pcs i = .away) (harmed : s.armed = true) :
    Base { s with pcs := Function.update s.pcs i .batch, armed := false } ∧
      HandsOn State.token (fun _ a => Kept a) s (.epollWait i)
        { s with pcs := Function.update s.pcs i .batch, armed := false } := by
  have hothers := all_away hone harmed
  refine ⟨⟨?_, fun h => by cases h⟩,
    Or.inl ⟨trivial, Or.inr ⟨none, some i, by simp, ?_, ?_⟩⟩⟩
  · refine (Function.forall_update_iff s.pcs
      fun _ pc => pc ≠ .away → s.handleInProgress = if pc.counted then 1 else 0).mpr
        ⟨fun _ => hs.armed harmed, fun j _ hj => absurd (hothers j) hj⟩
  · simp [State.token, harmed, haway]
  · intro place hnone hplace
    obtain ⟨j, rfl⟩ := Option.ne_none_iff_exists'.mp hnone
    have hji : j ≠ i := by simpa using hplace
    simp [State.token, hji]

/-- The descriptor is rearmed. -/
theorem handsOn_rearm (hone : Ledger.InOnePlace s.token ∨ Ledger.Nowhere s.token)
    (hi : s.pcs i ≠ .away) (hcount : s.handleInProgress = 0) :
    Base { s with pcs := Function.update s.pcs i .away, armed := true } ∧
      HandsOn State.token (fun _ a => Kept a) s (.rearm i true)
        { s with pcs := Function.update s.pcs i .away, armed := true } := by
  refine ⟨Base.update hone hi rfl (fun h => absurd rfl h) fun _ => hcount,
    Or.inl ⟨trivial, Or.inr ⟨some i, none, by simp, ?_, ?_⟩⟩⟩
  · simp [State.token, hi, (alone hone hi).2]
  · intro place hplace hnone
    obtain ⟨j, rfl⟩ := Option.ne_none_iff_exists'.mp hnone
    have hji : j ≠ i := by simpa using hplace
    simp [State.token, hji]

omit [DecidableEq Thread] in
/-- The counter where the worker with the event stands. -/
theorem Base.count_eq {before : Pc} (hs : Base s) (hpc : s.pcs i = before)
    (hbefore : before ≠ .away) : s.handleInProgress = if before.counted then 1 else 0 := by
  rw [← hpc]
  exact hs.worker i (hpc ▸ hbefore)

/-- The worker enters, and its pass is the only one. -/
theorem handsOn_enter (hs : Base s) (hone : Ledger.InOnePlace s.token ∨ Ledger.Nowhere s.token)
    (hpc : s.pcs i = .enter) :
    let t := { s with
      pcs := Function.update s.pcs i (if s.handleInProgress = 0 then .accept .read else .away)
      handleInProgress := s.handleInProgress + 1 }
    Base t ∧ HandsOn State.token (fun _ a => Kept a) s (.enter i) t := by
  have hcount : s.handleInProgress = 0 := hs.count_eq hpc (by simp)
  simp only [if_pos hcount]
  exact handsOn_stay hone (by simp [hpc]) trivial rfl (by simp) rfl (by simp [hcount, Pc.counted])

/-- The worker leaves, and does not pass once more. -/
theorem handsOn_leave (hs : Base s) (hone : Ledger.InOnePlace s.token ∨ Ledger.Nowhere s.token)
    (hpc : s.pcs i = .leave) :
    let t := { s with
      pcs := Function.update s.pcs i (if 1 < s.handleInProgress then .accept .read else .rearm)
      handleInProgress := s.handleInProgress - 1 }
    Base t ∧ HandsOn State.token (fun _ a => Kept a) s (.leave i) t := by
  have hcount : s.handleInProgress = 1 := hs.count_eq hpc (by simp)
  simp only [if_neg (show ¬1 < s.handleInProgress by omega)]
  exact handsOn_stay hone (by simp [hpc]) trivial rfl (by simp) rfl (by simp [hcount, Pc.counted])

/-- Every step hands the event on or drops it. -/
theorem Base.step (hs : Base s) (hone : Ledger.InOnePlace s.token ∨ Ledger.Nowhere s.token)
    (h : Acceptor.step pollers s a = some t) :
    Base t ∧ HandsOn State.token (fun _ a => Kept a) s a t := by
  cases step_cases h with
  | connect | otherAdd => exact handsOn_beside hs trivial rfl rfl rfl
  | epollWait i haway harmed => exact handsOn_epollWait hs hone haway harmed
  | reach i hpc => exact handsOn_go hs hone hpc trivial rfl (by simp [Pc.counted]) rfl rfl
  | enter i hpc => exact handsOn_enter hs hone hpc
  | accepted i side connection rest hpc =>
      exact handsOn_go hs hone hpc trivial rfl (by simp [Pc.counted]) rfl rfl
  | again i side hpc =>
      refine handsOn_go hs hone hpc trivial rfl ?_ rfl rfl
      cases side <;> simp [Side.behind, Pc.counted]
  | created i side connection hpc | refused i side connection hpc | add i side connection hpc =>
      exact handsOn_go hs hone hpc trivial rfl (by simp [Pc.counted]) rfl rfl
  | registered i side connection poller hpc =>
      exact handsOn_go hs hone hpc trivial rfl (by simp [Pc.counted]) rfl rfl
  | leave i hpc => exact handsOn_leave hs hone hpc
  | otherThrew i hpc | failed i side hpc | unregistered i side connection poller hpc =>
      exact handsOn_drop hone (by simp [hpc]) (fun hkept => hkept) rfl rfl
  | rearm i done hpc =>
      have hi : s.pcs i ≠ .away := by simp [hpc]
      cases done with
      | true =>
          rw [Bool.or_true]
          exact handsOn_rearm hone hi (hs.count_eq hpc (by simp))
      | false =>
          rw [Bool.or_false]
          exact handsOn_drop hone hi (fun hkept => hkept) rfl rfl

theorem base_init (Thread : Type*) [DecidableEq Thread] (pollers : Nat) :
    Base (system Thread pollers).init := ⟨fun _ h => absurd rfl h, fun _ => rfl⟩

theorem token_init (Thread : Type*) [DecidableEq Thread] (pollers : Nat) :
    Ledger.InOnePlace (system Thread pollers).init.token := by
  refine ⟨none, rfl, fun place hplace => ?_⟩
  obtain ⟨i, rfl⟩ := Option.ne_none_iff_exists'.mp hplace
  rfl

/-- epoll or a worker has the event of the listening socket. -/
def Serving {Thread : Type*} (s : State Thread) : Prop := Ledger.InOnePlace s.token

/-- When nobody has the event nothing is taken from the backlog. -/
theorem nowhere_step (hs : Ledger.Nowhere s.token) (h : Acceptor.step pollers s a = some t) :
    ∃ new, t.backlog = s.backlog ++ new := by
  have haway : ∀ i, s.pcs i = .away := by
    intro i
    by_contra hi
    have hzero := hs (some i)
    simp only [State.token, if_neg hi] at hzero
    cases hzero
  have harmed : s.armed = false := by
    have hzero := hs none
    cases harmed : s.armed with
    | false => rfl
    | true =>
        simp only [State.token, harmed, if_pos] at hzero
        cases hzero
  cases a with
  | connect =>
      obtain rfl := Option.some.inj h
      exact ⟨_, rfl⟩
  | otherAdd =>
      obtain rfl := Option.some.inj h
      exact ⟨[], (List.append_nil _).symm⟩
  | _ => simp [Acceptor.step, haway, harmed] at h

/-- **One failure ends the service.**  At the end of every run epoll or a worker has the
event of the listening socket exactly when no step has thrown.  Otherwise no connection is
ever accepted again, however the run goes on. -/
theorem serving_iff_kept {actions : List (Action Thread)}
    (hrun : (system Thread pollers).run (system Thread pollers).init actions = some t) :
    (Serving t ↔ Meets (system Thread pollers) (fun _ a => Kept a) (system Thread pollers).init
        actions) ∧
      (¬Serving t → ∀ more u, (system Thread pollers).run t more = some u →
        ∃ new, u.backlog = t.backlog ++ new) := by
  have hstep : ∀ (s : State Thread) a t, Base s →
      Ledger.InOnePlace s.token ∨ Ledger.Nowhere s.token →
      (system Thread pollers).step s a = some t →
      Base t ∧ HandsOn State.token (fun _ a => Kept a) s a t :=
    fun _ _ _ hs hone h => hs.step hone h
  have hbase := base_init Thread pollers
  have hinit := token_init Thread pollers
  refine ⟨inOnePlace_iff_meets hstep hbase hinit hrun, fun hnot more u hmore => ?_⟩
  obtain ⟨-, -, hend⟩ | ⟨-, hend, hnowhere⟩ := token_of_run hstep hbase hinit hrun
  · exact absurd hend hnot
  have hkeeps : ∀ (s : State Thread) a u,
      (Base s ∧ Ledger.Nowhere s.token ∧ ∃ new, s.backlog = t.backlog ++ new) →
      (system Thread pollers).step s a = some u →
      Base u ∧ Ledger.Nowhere u.token ∧ ∃ new, u.backlog = t.backlog ++ new := by
    rintro s a u ⟨hs, hnone, old, hold⟩ h
    obtain ⟨hu, hchange⟩ := hs.step (Or.inr hnone) h
    obtain ⟨new, hnew⟩ := nowhere_step hnone h
    exact ⟨hu, hchange.nowhere hnone, old ++ new, by rw [hnew, hold, List.append_assoc]⟩
  exact (run_preserves hkeeps ⟨hend, hnowhere, [], (List.append_nil _).symm⟩ hmore).2.2

end Token

/-- The first connection is accepted, then `::accept` fails, and the next one stays. -/
def failedAccept : List (Action Bool) :=
  [.connect, .epollWait false, .reach false, .enter false, .accept false .connection,
    .create false true, .add false, .register false true, .accept false .failed, .connect]

theorem serving_iff_kept_failed :
    ∃ t, (system Bool 2).run (system Bool 2).init failedAccept = some t ∧ t.backlog = [1] ∧
      ¬Serving t := by
  have hend : ((system Bool 2).run (system Bool 2).init failedAccept).map
      (fun t => t.backlog) = some [1] := by
    decide +kernel
  obtain ⟨t, hrun, hbacklog⟩ := Option.map_eq_some_iff.mp hend
  have hnot : ¬Meets (system Bool 2) (fun _ a => Kept a) (system Bool 2).init failedAccept := by
    decide +kernel
  exact ⟨t, hrun, hbacklog, fun hserving => hnot ((serving_iff_kept hrun).1.mp hserving)⟩

end Acceptor
end LiteMQ
