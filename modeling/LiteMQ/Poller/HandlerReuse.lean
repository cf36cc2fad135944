import LiteMQ.Foundation.Index
import LiteMQ.Poller.Registration
import LiteMQ.Poller.TeardownOnce

/-!
# Handlers whose address and descriptor are used again

`accept_` creates a handler for a connection and gives it to `add`.  When both have let it go,
the holder has the last `shared_ptr` to it, so `reset_descriptor_handler()` destroys it in the
middle of the teardown.  From then on the kernel may give its descriptor to the next
connection, and the allocator its address to the handler of that one.

The descriptor was deleted from `epoll` before, so what `epoll` watches is always the holder of
the connection that has the descriptor now (`watched_descriptor`).  But `handlers_` has the
address as its key, and the entry is erased last of all.  A new handler that comes to the same
address before that finds the entry of the old one: `add` takes it for registered, returns
`true`, and the connection is closed (`turned_away_iff`).

`handle_` is that of `Handle`, run by any number of threads.  Nothing calls
`DescriptorHandler::rearm` here, so that `epoll` is armed again only by a thread that leaves the
loop of `handle_`.
-/

namespace LiteMQ
namespace HandlerReuse

open DescriptorHandler TransitionSystem
open Function (update)
open Registration (HandlerPtr)

/-! ## The source -/

/-- A descriptor of a connection. -/
abbrev Fd := Nat

/-- The connections in the order of their `accept`; also their holders. -/
abbrev Conn := Nat

/-- How `add` ends. -/
inductive AddEnd
  /-- `true`, and `epoll` watches the holder -/
  | registered
  /-- `true`, because `handlers_` has an entry for the address -/
  | turnedAway
  /-- `epoll_ctl` failed -/
  | refused
  deriving DecidableEq, Repr

/-- Where `accept_` and `add` stand with a connection: what they do next. -/
inductive Stage
  /-- not accepted yet -/
  | unborn
  /-- `create_descriptor_handler` -/
  | accepted
  /-- `new DescriptorHandlerHolder(this, desc_handler)` -/
  | created
  /-- `handlers_.insert`, under the lock -/
  | constructed
  /-- `epoll_ctl` with `EPOLL_CTL_ADD` -/
  | inserted
  /-- the end of `add`: the `shared_ptr` to the holder -/
  | leaving (how : AddEnd)
  /-- the end of `accepted_descriptor_handler` -/
  | returned (how : AddEnd)
  /-- through with it -/
  | finished (how : AddEnd)
  deriving DecidableEq, Repr

/-- `epoll` was told of the holder. -/
def Stage.registered : Stage → Bool
  | .leaving .registered | .returned .registered | .finished .registered => true
  | _ => false

/-- A connection: its descriptor, its handler with the number of the `shared_ptr`s to it, and
`handle_` for its holder. -/
structure ConnState (Thread : Type*) where
  stage : Stage
  fd : Fd
  handler : HandlerPtr
  useCount : Nat
  handle : Handle.State Thread

/-- The connections of a poller: the open descriptors, the handlers in memory, `handlers_`, and
what `epoll` watches. -/
structure State (Thread : Type*) where
  conns : Conn → ConnState Thread
  descriptors : Fd → Option Conn
  heap : HandlerPtr → Option Conn
  handlers : HandlerPtr → Option Conn
  epollSet : Fd → Option Conn

inductive Action (Thread : Type*)
  /-- `::accept` returns a descriptor -/
  | accept (c : Conn) (fd : Fd)
  /-- `create_descriptor_handler` returns a handler -/
  | create (c : Conn) (handler : HandlerPtr)
  /-- the next operation of `accept_` and `add`; `refuses` is for `epoll_ctl` -/
  | next (c : Conn) (refuses : Bool)
  /-- the next operation of a thread in `handle_` -/
  | handle (c : Conn) (a : Handle.Action Thread)

variable {Thread : Type*} [DecidableEq Thread]

/-- The connection becomes `conn`. -/
def State.put (s : State Thread) (c : Conn) (conn : ConnState Thread) : State Thread :=
  { s with conns := update s.conns c conn }

/-- `accept_` and `add` come to `stage`. -/
def State.goTo (s : State Thread) (c : Conn) (stage : Stage) : State Thread :=
  s.put c { s.conns c with stage := stage }

/-- A `shared_ptr` to the handler goes away.  The last one takes the handler with it, whose
destructor closes the descriptor. -/
def State.dropRef (s : State Thread) (c : Conn) : State Thread :=
  let conn := s.conns c
  if conn.useCount = 1 then
    { s.put c { conn with useCount := 0 } with
      descriptors := update s.descriptors conn.fd none
      heap := update s.heap conn.handler none }
  else s.put c { conn with useCount := conn.useCount - 1 }

/-- The next operation of `accept_` and `add`. -/
def next (s : State Thread) (c : Conn) (refuses : Bool) : Option (State Thread) :=
  let conn := s.conns c
  match conn.stage with
  | .unborn | .accepted | .finished _ => none
  | .created => some (s.put c { conn with stage := .constructed, useCount := conn.useCount + 1 })
  | .constructed =>
      match s.handlers conn.handler with
      | some _ => some (s.goTo c (.leaving .turnedAway))
      | none =>
          some { s.goTo c .inserted with handlers := update s.handlers conn.handler (some c) }
  | .inserted =>
      if refuses ∨ (s.epollSet conn.fd).isSome then some (s.goTo c (.leaving .refused))
      else
        some { s.goTo c (.leaving .registered) with
          epollSet := update s.epollSet conn.fd (some c) }
  | .leaving how =>
      -- the holder is in `handlers_` too, or it is destroyed and drops its handler
      if how = .turnedAway then some ((s.dropRef c).goTo c (.returned how))
      else some (s.goTo c (.returned how))
  | .returned how => some ((s.dropRef c).goTo c (.finished how))

/-- What an operation of `handle_` does outside the holder.  `epoll_ctl` cannot succeed for a
descriptor that is not watched. -/
def State.applyEffect (s : State Thread) (c : Conn) (result : CallResult) :
    Option HandleEffect → Option (State Thread)
  | some .epollDel =>
      if result = .threw then some s
      else if (s.epollSet (s.conns c).fd).isSome then
        some { s with epollSet := update s.epollSet (s.conns c).fd none }
      else none
  | some (.epollRearm _ _) =>
      if result = .threw then some s
      else if (s.epollSet (s.conns c).fd).isSome then
        some { s with epollSet := update s.epollSet (s.conns c).fd (some c) }
      else none
  | some .resetHandler =>
      some (if (s.conns c).handle.holder.descriptorHandler then s.dropRef c else s)
  | some .handlersErase =>
      some { s with handlers := update s.handlers (s.conns c).handler none }
  | some .callRead | some .callWrite | some .callStopped | some .cleanerPush
  | some .cleanerRelease | none => some s

/-- The thread has made its operation on the holder. -/
def State.withHandle (s : State Thread) (c : Conn) (handle : Handle.State Thread) :
    State Thread :=
  s.put c { s.conns c with handle := handle }

def step (s : State Thread) : Action Thread → Option (State Thread)
  | .accept c fd =>
      if (s.conns c).stage = .unborn ∧ s.descriptors fd = none then
        some { s.put c { s.conns c with stage := .accepted, fd := fd } with
          descriptors := update s.descriptors fd (some c) }
      else none
  | .create c handler =>
      if (s.conns c).stage = .accepted ∧ s.heap handler = none then
        some { s.put c { s.conns c with stage := .created, handler := handler, useCount := 1 } with
          heap := update s.heap handler (some c) }
      else none
  | .next c refuses => next s c refuses
  | .handle c a =>
      let handle := (s.conns c).handle
      if (s.conns c).stage.registered then
        match Handle.step handle a with
        | none => none
        | some handle' =>
            (s.applyEffect c a.result
              (handleStep handle.holder (handle.threads a.thread) a.result).effect).map
                (·.withHandle c handle')
      else none

/-- A poller without connections. -/
def system (Thread : Type*) [DecidableEq Thread] :
    TransitionSystem (State Thread) (Action Thread) :=
  ⟨⟨fun _ => ⟨.unborn, 0, 0, 0, (Handle.system Thread).init⟩, fun _ => none, fun _ => none,
    fun _ => none, fun _ => none⟩, step⟩

/-! ## How far the teardown of a holder is -/

section Teardown

variable {h h' : Handle.State Thread} {a : Handle.Action Thread}

omit [DecidableEq Thread] in
/-- The descriptor was deleted from `epoll`. -/
def Deleted (h : Handle.State Thread) : Prop :=
  h.holder.descriptorHandler = false ∨
    ∃ i, (h.threads i).pc = .stopped ∨ (h.threads i).pc = .reset

omit [DecidableEq Thread] in
/-- The handler was destroyed, and its entry in `handlers_` is not erased yet. -/
def Lingers (h : Handle.State Thread) : Prop :=
  ∃ i, (h.threads i).pc = .push ∨ (h.threads i).pc = .erase

omit [DecidableEq Thread] in
/-- The entry in `handlers_` is erased. -/
def Erased (h : Handle.State Thread) : Prop :=
  h.holder.descriptorHandler = false ∧ ¬Lingers h

/-- One thread tears the holder down, and the handler is gone behind the reset. -/
structure Swept (h : Handle.State Thread) : Prop where
  torn : Handle.Torn h
  gone : Lingers h → h.holder.descriptorHandler = false

/-- What an operation of `handle_` with this effect means for the teardown. -/
inductive Turn (h h' : Handle.State Thread) (result : CallResult) : Option HandleEffect → Prop
  | deleted (hresult : result ≠ .threw) (hbefore : ¬Deleted h) (hafter : Deleted h')
      (hkept : h'.holder.descriptorHandler = true) (hlingers : Lingers h' ↔ Lingers h) :
      Turn h h' result (some .epollDel)
  | reset (hbefore : Deleted h) (hkept : h.holder.descriptorHandler = true)
      (hafter : h'.holder.descriptorHandler = false) (hlingers : Lingers h') :
      Turn h h' result (some .resetHandler)
  | erased (hlingers : Lingers h) (hbefore : h.holder.descriptorHandler = false)
      (hafter : Erased h') : Turn h h' result (some .handlersErase)
  | same {effect : Option HandleEffect} (hdel : effect = some .epollDel → result = .threw)
      (hreset : effect ≠ some .resetHandler) (herase : effect ≠ some .handlersErase)
      (hkept : h'.holder.descriptorHandler = h.holder.descriptorHandler)
      (hdeleted : Deleted h' ↔ Deleted h) (hlingers : Lingers h' ↔ Lingers h) :
      Turn h h' result effect

theorem swept_init : Swept (Handle.system Thread).init where
  torn := Handle.torn_init
  gone := by
    rintro ⟨i, hi⟩
    simp [Handle.system, HandleThread.initial] at hi

omit [DecidableEq Thread] in
/-- Whether some thread is at certain places depends on the one that makes the step. -/
theorem exists_thread_iff (hst : Handle.Stepped h h' a) (place : HandlePc → Prop)
    (hself : place (h'.threads a.thread).pc ↔ place (h.threads a.thread).pc) :
    (∃ i, place (h'.threads i).pc) ↔ ∃ i, place (h.threads i).pc := by
  refine exists_congr fun i => ?_
  obtain rfl | hne := eq_or_ne i a.thread
  · exact hself
  · rw [hst.other i hne]

/-- Away from the teardown a thread does not come behind its first statement. -/
theorem place_of_not_tearingDown (holder : DescriptorHandlerHolder) {thread : HandleThread}
    (hpc : ¬thread.pc.tearingDown) (result : CallResult) :
    (handleStep holder thread result).thread.pc = .epollDel ∨
      ¬(handleStep holder thread result).thread.pc.tearingDown := by
  unfold handleStep
  cases hpc' : thread.pc <;> simp only [hpc', HandlePc.tearingDown, not_true_eq_false] at hpc ⊢
  all_goals
    (repeat' split) <;> cases result <;>
      simp_all [HandleThread.goto, HandleThread.afterCall, applyToHolder]

omit [DecidableEq Thread] in
/-- An operation away from the teardown. -/
theorem Turn.of_not_tearingDown (hst : Handle.Stepped h h' a)
    (hpc : ¬(h.threads a.thread).pc.tearingDown) :
    Turn h h' a.result (handleStep h.holder (h.threads a.thread) a.result).effect := by
  have hnone {effect : HandleEffect} {place : Nat} (hplace : effect.teardownPlace = some place) :
      (handleStep h.holder (h.threads a.thread) a.result).effect ≠ some effect :=
    fun heffect => hpc (teardownPlace_of_effect heffect hplace).2.1
  have hafter := place_of_not_tearingDown h.holder hpc a.result
  rw [← hst.self] at hafter
  have hkept : h'.holder.descriptorHandler = h.holder.descriptorHandler := by
    rw [hst.descriptorHandler, if_neg]
    intro hreset
    simp [hreset, HandlePc.tearingDown] at hpc
  refine .same (fun hdel => absurd hdel (hnone rfl)) (hnone rfl) (hnone rfl) hkept ?_ ?_
  · rw [Deleted, Deleted, hkept]
    refine or_congr_right (exists_thread_iff hst (fun pc => pc = .stopped ∨ pc = .reset) ?_)
    refine iff_of_false ?_ ?_ <;> rintro (hpc' | hpc') <;>
      simp [hpc', HandlePc.tearingDown] at hpc hafter
  · refine exists_thread_iff hst (fun pc => pc = .push ∨ pc = .erase) ?_
    refine iff_of_false ?_ ?_ <;> rintro (hpc' | hpc') <;>
      simp [hpc', HandlePc.tearingDown] at hpc hafter

omit [DecidableEq Thread] in
/-- One thread at most is in the teardown. -/
theorem Swept.alone (hs : Swept h) {i j : Thread} (hi : (h.threads i).pc.tearingDown)
    (hj : (h.threads j).pc.tearingDown) : i = j :=
  hs.torn.serialized.single i j (Or.inr hi) (Or.inr hj)

omit [DecidableEq Thread] in
/-- Before the reset the holder has its handler. -/
theorem Swept.handler (hs : Swept h) {i : Thread} (hpc : (h.threads i).pc = .epollDel ∨
    (h.threads i).pc = .stopped ∨ (h.threads i).pc = .reset) :
    h.holder.descriptorHandler = true := by
  by_contra hnull
  obtain ⟨hdel, hstopped, hreset⟩ := hs.torn.resetDone (by simpa using hnull) i
  rcases hpc with hpc | hpc | hpc
  · exact hdel hpc
  · exact hstopped hpc
  · exact hreset hpc

omit [DecidableEq Thread] in
/-- `epoll_del_fd_` leaves the descriptor where it is when it throws, and takes it from epoll
when it returns. -/
theorem Swept.turn_epollDel (hs : Swept h) (hst : Handle.Stepped h h' a)
    (hpc : (h.threads a.thread).pc = .epollDel) :
    Turn h h' a.result (handleStep h.holder (h.threads a.thread) a.result).effect := by
  have hset := hs.handler (Or.inl hpc)
  have hself := hst.self
  have hholder := hst.descriptorHandler
  rw [hpc, if_neg (by decide)] at hholder
  cases hresult : a.result with
  | threw =>
      have heffect : (handleStep h.holder (h.threads a.thread) .threw).effect =
          some .epollDel := by simp [handleStep, hpc, hset]
      have hnext : (h'.threads a.thread).pc = .unwound := by
        rw [hself]
        simp [handleStep, hpc, hset, hresult, HandleThread.afterCall, HandleThread.goto]
      rw [heffect]
      refine .same (fun _ => rfl) (by decide) (by decide) hholder ?_ ?_
      · rw [Deleted, Deleted, hholder]
        refine or_congr_right (exists_thread_iff hst (fun pc => pc = .stopped ∨ pc = .reset) ?_)
        simp [hnext, hpc]
      · refine exists_thread_iff hst (fun pc => pc = .push ∨ pc = .erase) ?_
        simp [hnext, hpc]
  | returned stateModify =>
      have heffect : (handleStep h.holder (h.threads a.thread) (.returned stateModify)).effect =
          some .epollDel := by simp [handleStep, hpc, hset]
      have hnext : (h'.threads a.thread).pc = .stopped := by
        rw [hself]
        simp [handleStep, hpc, hset, hresult, HandleThread.afterCall, HandleThread.goto]
      rw [heffect]
      refine .deleted (by simp) ?_ (Or.inr ⟨a.thread, Or.inl hnext⟩) (hholder.trans hset) ?_
      · rintro (hnull | ⟨i, hi⟩)
        · rw [hset] at hnull
          cases hnull
        · -- the thread would not be the only one in the teardown
          have hsame : i = a.thread :=
            hs.alone (by rcases hi with hi | hi <;> simp [hi, HandlePc.tearingDown])
              (by simp [hpc, HandlePc.tearingDown])
          rw [hsame, hpc] at hi
          simp at hi
      · refine exists_thread_iff hst (fun pc => pc = .push ∨ pc = .erase) ?_
        simp [hnext, hpc]

omit [DecidableEq Thread] in
/-- Behind the erasure the holder has left nothing in `handlers_`. -/
theorem Swept.turn_erase (hs : Swept h) (hst : Handle.Stepped h h' a)
    (hpc : (h.threads a.thread).pc = .erase) :
    Turn h h' a.result (handleStep h.holder (h.threads a.thread) a.result).effect := by
  have hholder := hst.descriptorHandler
  have heffect : (handleStep h.holder (h.threads a.thread) a.result).effect =
      some .handlersErase := by simp [handleStep, hpc]
  have hnext : (h'.threads a.thread).pc = .rearm := by
    rw [hst.self]
    simp [handleStep, hpc, HandleThread.goto]
  rw [hpc, if_neg (by decide)] at hholder
  have hgone := hs.gone ⟨a.thread, Or.inr hpc⟩
  rw [heffect]
  refine .erased ⟨a.thread, Or.inr hpc⟩ hgone ⟨hholder.trans hgone, ?_⟩
  rintro ⟨i, hi⟩
  obtain rfl | hne := eq_or_ne i a.thread
  · simp [hnext] at hi
  · rw [hst.other i hne] at hi
    exact hne (hs.alone (by rcases hi with hi | hi <;> simp [hi, HandlePc.tearingDown])
      (by simp [hpc, HandlePc.tearingDown]))

/-- Every operation of `handle_` is one of the turns of the teardown or leaves it where it is. -/
theorem Swept.turn (hs : Swept h) (hstep : Handle.step h a = some h') :
    Turn h h' a.result (handleStep h.holder (h.threads a.thread) a.result).effect := by
  have hst := Handle.stepped_of_step hstep
  have hself := hst.self
  have hholder := hst.descriptorHandler
  cases hpc : (h.threads a.thread).pc with
  | epollDel => exact hs.turn_epollDel hst hpc
  | stopped =>
      have hset := hs.handler (Or.inr (Or.inl hpc))
      rw [hpc, if_neg (by decide)] at hholder
      have heffect : (handleStep h.holder (h.threads a.thread) a.result).effect =
          some .callStopped := by simp [handleStep, hpc, hset]
      have hnext : (h'.threads a.thread).pc = .reset := by
        rw [hself]
        simp [handleStep, hpc, hset, HandleThread.goto]
      rw [heffect]
      refine .same (by simp) (by decide) (by decide) hholder ?_ ?_
      · exact iff_of_true (Or.inr ⟨a.thread, Or.inr hnext⟩) (Or.inr ⟨a.thread, Or.inl hpc⟩)
      · refine exists_thread_iff hst (fun pc => pc = .push ∨ pc = .erase) ?_
        simp [hnext, hpc]
  | reset =>
      have heffect : (handleStep h.holder (h.threads a.thread) a.result).effect =
          some .resetHandler := by simp [handleStep, hpc]
      have hnext : (h'.threads a.thread).pc = .push := by
        rw [hself]
        simp [handleStep, hpc, HandleThread.goto]
      rw [hpc, if_pos rfl] at hholder
      rw [heffect]
      exact .reset (Or.inr ⟨a.thread, Or.inr hpc⟩) (hs.handler (Or.inr (Or.inr hpc))) hholder
        ⟨a.thread, Or.inl hnext⟩
  | push =>
      have heffect : (handleStep h.holder (h.threads a.thread) a.result).effect =
          some .cleanerPush := by simp [handleStep, hpc]
      have hnext : (h'.threads a.thread).pc = .erase := by
        rw [hself]
        simp [handleStep, hpc, HandleThread.goto]
      rw [hpc, if_neg (by decide)] at hholder
      rw [heffect]
      refine .same (by simp) (by decide) (by decide) hholder ?_ ?_
      · have hgone := hs.gone ⟨a.thread, Or.inl hpc⟩
        exact iff_of_true (Or.inl (hholder.trans hgone)) (Or.inl hgone)
      · exact iff_of_true ⟨a.thread, Or.inr hnext⟩ ⟨a.thread, Or.inl hpc⟩
  | erase => exact hs.turn_erase hst hpc
  | _ => exact .of_not_tearingDown hst (by simp [hpc, HandlePc.tearingDown])

theorem Swept.step (hs : Swept h) (hstep : Handle.step h a = some h') : Swept h' where
  torn := hs.torn.step hstep
  gone := by
    intro hlingers
    have hturn := hs.turn hstep
    generalize (handleStep h.holder (h.threads a.thread) a.result).effect = effect at hturn
    cases hturn with
    | deleted _ hbefore _ _ hsame =>
        exact absurd (Or.inl (hs.gone (hsame.mp hlingers))) hbefore
    | reset hbefore hkept hafter _ => exact hafter
    | erased _ _ hafter => exact hafter.1
    | same _ _ _ hkept _ hsame => exact hkept.trans (hs.gone (hsame.mp hlingers))

end Teardown

/-! ## Who has a connection -/

/-- The references to the handler that `accept_` has. -/
def Stage.adderRef : Stage → Nat
  | .created | .constructed | .inserted | .leaving _ | .returned _ => 1
  | .unborn | .accepted | .finished _ => 0

/-- The holder was constructed and has not been destroyed by `add`. -/
def Stage.held : Stage → Bool
  | .constructed | .inserted | .leaving _ => true
  | .returned how | .finished how => how ≠ .turnedAway
  | .unborn | .accepted | .created => false

/-- `handlers_` was given an entry. -/
def Stage.entered : Stage → Bool
  | .inserted => true
  | .leaving how | .returned how | .finished how => how ≠ .turnedAway
  | .unborn | .accepted | .created | .constructed => false

namespace ConnState

omit [DecidableEq Thread]

/-- The reference to the handler that the holder has. -/
def holderRef (conn : ConnState Thread) : Nat :=
  if conn.stage.held && conn.handle.holder.descriptorHandler then 1 else 0

/-- The descriptor is open. -/
def Open (conn : ConnState Thread) : Prop := conn.stage = .accepted ∨ 0 < conn.useCount

/-- The handler is in memory. -/
def Alive (conn : ConnState Thread) : Prop := 0 < conn.useCount

/-- `handlers_` has the holder. -/
def InMap (conn : ConnState Thread) : Prop :=
  conn.stage.entered = true ∧ ¬Erased conn.handle

/-- `epoll` watches the holder. -/
def Watched (conn : ConnState Thread) : Prop :=
  conn.stage.registered = true ∧ ¬Deleted conn.handle

end ConnState

/-- The four maps find the connections. -/
structure Maps (s : State Thread) : Prop where
  descriptors : Indexes s.descriptors ConnState.fd ConnState.Open s.conns
  heap : Indexes s.heap ConnState.handler ConnState.Alive s.conns
  handlers : Indexes s.handlers ConnState.handler ConnState.InMap s.conns
  epollSet : Indexes s.epollSet ConnState.fd ConnState.Watched s.conns

/-- The handler is counted by `accept_` and by the holder, and no thread comes to a holder that
`epoll` has not been told of. -/
structure Sound (conn : ConnState Thread) : Prop where
  swept : Swept conn.handle
  untouched : conn.stage.registered = false → conn.handle = (Handle.system Thread).init
  count : conn.useCount = conn.stage.adderRef + conn.holderRef

structure Inv (s : State Thread) : Prop where
  maps : Maps s
  sound : ∀ c, Sound (s.conns c)

section Steps

variable {s t : State Thread} {c : Conn} {conn : ConnState Thread}

theorem not_deleted_init : ¬Deleted (Handle.system Thread).init := by
  rintro (hnull | ⟨i, hi⟩)
  · cases hnull
  · simp [Handle.system, HandleThread.initial] at hi

omit [DecidableEq Thread] in
theorem Erased.deleted {h : Handle.State Thread} (herased : Erased h) : Deleted h :=
  Or.inl herased.1

/-- `accept_` and `add` go on, and `handle_` does not. -/
theorem Sound.of_handle {conn' : ConnState Thread} (hs : Sound conn)
    (hhandle : conn'.handle = conn.handle)
    (hregistered : conn'.stage.registered = false → conn.stage.registered = false)
    (hcount : conn'.useCount = conn'.stage.adderRef + conn'.holderRef) : Sound conn' where
  swept := hhandle ▸ hs.swept
  untouched := fun hfresh => hhandle.trans (hs.untouched (hregistered hfresh))
  count := hcount

/-- Before `epoll` knows of the holder, it has its handler. -/
theorem Sound.holderRef_of_fresh (hs : Sound conn) (hfresh : conn.stage.registered = false) :
    conn.holderRef = if conn.stage.held then 1 else 0 := by
  have hset : conn.handle.holder.descriptorHandler = true := by
    rw [hs.untouched hfresh]
    rfl
  simp only [ConnState.holderRef, hset, Bool.and_true]

theorem Sound.count_of_fresh (hs : Sound conn) (hfresh : conn.stage.registered = false) :
    conn.useCount = conn.stage.adderRef + if conn.stage.held then 1 else 0 := by
  rw [hs.count, hs.holderRef_of_fresh hfresh]

/-- The handler is in memory as long as `accept_` has it. -/
theorem Sound.alive_of_adder (hs : Sound conn) (hadder : conn.stage.adderRef = 1) :
    conn.Alive := by
  unfold ConnState.Alive
  rw [hs.count, hadder]
  exact Nat.lt_of_lt_of_le Nat.one_pos (Nat.le_add_right 1 _)

/-- It is as long as the holder has it. -/
theorem Sound.alive_of_holder (hs : Sound conn) (hheld : conn.stage.held = true)
    (hset : conn.handle.holder.descriptorHandler = true) : conn.Alive := by
  unfold ConnState.Alive
  rw [hs.count, ConnState.holderRef, hheld, hset]
  exact Nat.lt_of_lt_of_le Nat.one_pos (Nat.le_add_left 1 _)

/-- `accept_` and `add` go on before `epoll` knows of the holder. -/
theorem Sound.of_fresh {conn' : ConnState Thread} (hs : Sound conn)
    (hfresh : conn.stage.registered = false) (hhandle : conn'.handle = conn.handle)
    (hcount : conn'.useCount = conn'.stage.adderRef + if conn'.stage.held then 1 else 0) :
    Sound conn' := by
  refine hs.of_handle hhandle (fun _ => hfresh) ?_
  have hset : conn'.handle.holder.descriptorHandler = true := by
    rw [hhandle, hs.untouched hfresh]
    rfl
  simp only [ConnState.holderRef, hset, Bool.and_true]
  exact hcount

omit [DecidableEq Thread] in
theorem not_inMap (h : conn.stage.entered = false) : ¬conn.InMap :=
  fun hin => Bool.false_ne_true (h.symm.trans hin.1)

omit [DecidableEq Thread] in
theorem not_watched (h : conn.stage.registered = false) : ¬conn.Watched :=
  fun hwatched => Bool.false_ne_true (h.symm.trans hwatched.1)

theorem Sound.inMap_of_fresh (hs : Sound conn) (hfresh : conn.stage.registered = false)
    (hentered : conn.stage.entered = true) : conn.InMap := by
  refine ⟨hentered, fun herased => ?_⟩
  have hdeleted := herased.deleted
  rw [hs.untouched hfresh] at hdeleted
  exact not_deleted_init hdeleted

theorem Inv.of_update (hs : Inv s) (hmaps : Maps t) (hconns : t.conns = update s.conns c conn)
    (hsound : Sound conn) : Inv t where
  maps := hmaps
  sound := by
    rw [hconns]
    exact (Function.forall_update_iff s.conns fun _ conn => Sound conn).mpr
      ⟨hsound, fun d _ => hs.sound d⟩

omit [DecidableEq Thread] in
/-- A connection that stays where the maps find it. -/
theorem Maps.put (hs : Maps s) (hfd : conn.fd = (s.conns c).fd)
    (hhandler : conn.handler = (s.conns c).handler) (hopen : conn.Open ↔ (s.conns c).Open)
    (halive : conn.Alive ↔ (s.conns c).Alive) (hin : conn.InMap ↔ (s.conns c).InMap)
    (hwatched : conn.Watched ↔ (s.conns c).Watched) : Maps (s.put c conn) where
  descriptors := hs.descriptors.keep (fun _ => hfd) hopen
  heap := hs.heap.keep (fun _ => hhandler) halive
  handlers := hs.handlers.keep (fun _ => hhandler) hin
  epollSet := hs.epollSet.keep (fun _ => hfd) hwatched

omit [DecidableEq Thread] in
theorem dropRef_conns (s : State Thread) (c : Conn) : (s.dropRef c).conns =
    update s.conns c { s.conns c with useCount := (s.conns c).useCount - 1 } := by
  unfold State.dropRef
  dsimp only
  split
  · rename_i hone
    rw [hone]
    rfl
  · rfl

omit [DecidableEq Thread] in
/-- A reference less. -/
theorem Maps.dropRef (hs : Maps s) (hstage : (s.conns c).stage ≠ .accepted)
    (halive : (s.conns c).Alive) : Maps (s.dropRef c) := by
  unfold State.dropRef
  dsimp only
  split
  · rename_i hone
    refine ⟨hs.descriptors.erase (Or.inr halive) ?_, hs.heap.erase halive ?_,
      hs.handlers.keep (fun _ => rfl) Iff.rfl, hs.epollSet.keep (fun _ => rfl) Iff.rfl⟩
    · exact not_or.mpr ⟨hstage, Nat.lt_irrefl 0⟩
    · exact Nat.lt_irrefl 0
  · rename_i hmore
    have hleft : 0 < (s.conns c).useCount - 1 := by
      have hpos : 0 < (s.conns c).useCount := halive
      omega
    exact hs.put rfl rfl (iff_of_true (Or.inr hleft) (Or.inr halive)) (iff_of_true hleft halive)
      Iff.rfl Iff.rfl

/-- `::accept` -/
theorem Inv.accept (hs : Inv s) {fd : Fd} (hstage : (s.conns c).stage = .unborn)
    (hfree : s.descriptors fd = none) :
    Inv { s.put c { s.conns c with stage := .accepted, fd := fd } with
      descriptors := update s.descriptors fd (some c) } := by
  have hfresh : (s.conns c).stage.registered = false := by rw [hstage]; rfl
  have hnone : (s.conns c).useCount = 0 := by
    rw [(hs.sound c).count_of_fresh hfresh, hstage]
    rfl
  have hclosed : ¬(s.conns c).Open := by
    rintro (haccepted | hpos)
    · rw [hstage] at haccepted
      cases haccepted
    · omega
  refine hs.of_update ⟨hs.maps.descriptors.insert
      { s.conns c with stage := .accepted, fd := fd } hfree hclosed (Or.inl rfl),
    hs.maps.heap.keep (fun _ => rfl) Iff.rfl,
    hs.maps.handlers.keep (fun _ => rfl) (iff_of_false (not_inMap rfl) (not_inMap ?_)),
    hs.maps.epollSet.keep (fun h => absurd h (not_watched rfl))
      (iff_of_false (not_watched rfl) (not_watched hfresh))⟩ rfl
    ((hs.sound c).of_fresh hfresh rfl hnone)
  rw [hstage]
  rfl

/-- `create_descriptor_handler` -/
theorem Inv.create (hs : Inv s) {handler : HandlerPtr} (hstage : (s.conns c).stage = .accepted)
    (hfree : s.heap handler = none) :
    Inv { s.put c { s.conns c with stage := .created, handler := handler, useCount := 1 } with
      heap := update s.heap handler (some c) } := by
  have hfresh : (s.conns c).stage.registered = false := by rw [hstage]; rfl
  have hnone : (s.conns c).useCount = 0 := by
    rw [(hs.sound c).count_of_fresh hfresh, hstage]
    rfl
  have hout : ¬(s.conns c).InMap := not_inMap (by rw [hstage]; rfl)
  have hdead : ¬(s.conns c).Alive := by
    unfold ConnState.Alive
    omega
  exact hs.of_update ⟨hs.maps.descriptors.keep (fun _ => rfl)
      (iff_of_true (Or.inr Nat.one_pos) (Or.inl hstage)),
    hs.maps.heap.insert { s.conns c with stage := .created, handler := handler, useCount := 1 }
      hfree hdead Nat.one_pos,
    hs.maps.handlers.keep (fun h => absurd h (not_inMap rfl)) (iff_of_false (not_inMap rfl) hout),
    hs.maps.epollSet.keep (fun _ => rfl)
      (iff_of_false (not_watched rfl) (not_watched hfresh))⟩ rfl
    ((hs.sound c).of_fresh hfresh rfl rfl)

/-- The holder is constructed. -/
theorem Inv.construct (hs : Inv s) (hstage : (s.conns c).stage = .created) :
    Inv (s.put c { s.conns c with
      stage := .constructed, useCount := (s.conns c).useCount + 1 }) := by
  have hfresh : (s.conns c).stage.registered = false := by rw [hstage]; rfl
  have hone : (s.conns c).useCount = 1 := by
    rw [(hs.sound c).count_of_fresh hfresh, hstage]
    rfl
  have halive := (hs.sound c).alive_of_adder (by rw [hstage]; rfl)
  refine hs.of_update (hs.maps.put rfl rfl (iff_of_true (Or.inr (Nat.succ_pos _)) (Or.inr halive))
    (iff_of_true (Nat.succ_pos _) halive) (iff_of_false (not_inMap rfl) (not_inMap ?_))
    (iff_of_false (not_watched rfl) (not_watched hfresh))) rfl
    ((hs.sound c).of_fresh hfresh rfl ?_)
  · rw [hstage]
    rfl
  · show (s.conns c).useCount + 1 = 1 + 1
    rw [hone]

/-- `add` finds an entry in `handlers_`. -/
theorem Inv.turnAway (hs : Inv s) (hstage : (s.conns c).stage = .constructed) :
    Inv (s.goTo c (.leaving .turnedAway)) := by
  have hfresh : (s.conns c).stage.registered = false := by rw [hstage]; rfl
  have htwo : (s.conns c).useCount = 2 := by
    rw [(hs.sound c).count_of_fresh hfresh, hstage]
    rfl
  have halive := (hs.sound c).alive_of_adder (by rw [hstage]; rfl)
  refine hs.of_update (hs.maps.put rfl rfl (iff_of_true (Or.inr halive) (Or.inr halive)) Iff.rfl
    (iff_of_false (not_inMap rfl) (not_inMap ?_))
    (iff_of_false (not_watched rfl) (not_watched hfresh))) rfl
    ((hs.sound c).of_fresh hfresh rfl htwo)
  rw [hstage]
  rfl

/-- `add` enters the holder into `handlers_`. -/
theorem Inv.enter (hs : Inv s) (hstage : (s.conns c).stage = .constructed)
    (hfree : s.handlers (s.conns c).handler = none) :
    Inv { s.goTo c .inserted with
      handlers := update s.handlers (s.conns c).handler (some c) } := by
  have hfresh : (s.conns c).stage.registered = false := by rw [hstage]; rfl
  have htwo : (s.conns c).useCount = 2 := by
    rw [(hs.sound c).count_of_fresh hfresh, hstage]
    rfl
  have halive := (hs.sound c).alive_of_adder (by rw [hstage]; rfl)
  have hsound : Sound { s.conns c with stage := Stage.inserted } :=
    (hs.sound c).of_fresh hfresh rfl htwo
  have hout : ¬(s.conns c).InMap := not_inMap (by rw [hstage]; rfl)
  exact hs.of_update ⟨hs.maps.descriptors.keep (fun _ => rfl)
      (iff_of_true (Or.inr halive) (Or.inr halive)),
    hs.maps.heap.keep (fun _ => rfl) Iff.rfl,
    hs.maps.handlers.insert { s.conns c with stage := .inserted } hfree hout
      (hsound.inMap_of_fresh rfl rfl),
    hs.maps.epollSet.keep (fun _ => rfl)
      (iff_of_false (not_watched rfl) (not_watched hfresh))⟩ rfl hsound

/-- `epoll_ctl` fails in `add`. -/
theorem Inv.refuse (hs : Inv s) (hstage : (s.conns c).stage = .inserted) :
    Inv (s.goTo c (.leaving .refused)) := by
  have hfresh : (s.conns c).stage.registered = false := by rw [hstage]; rfl
  have hentered : (s.conns c).stage.entered = true := by rw [hstage]; rfl
  have htwo : (s.conns c).useCount = 2 := by
    rw [(hs.sound c).count_of_fresh hfresh, hstage]
    rfl
  have halive := (hs.sound c).alive_of_adder (by rw [hstage]; rfl)
  have hsound : Sound { s.conns c with stage := Stage.leaving .refused } :=
    (hs.sound c).of_fresh hfresh rfl htwo
  exact hs.of_update (hs.maps.put rfl rfl (iff_of_true (Or.inr halive) (Or.inr halive)) Iff.rfl
    (iff_of_true (hsound.inMap_of_fresh rfl rfl) ((hs.sound c).inMap_of_fresh hfresh hentered))
    (iff_of_false (not_watched rfl) (not_watched hfresh))) rfl hsound

/-- `epoll_ctl` makes `epoll` watch the holder. -/
theorem Inv.register (hs : Inv s) (hstage : (s.conns c).stage = .inserted)
    (hfree : s.epollSet (s.conns c).fd = none) :
    Inv { s.goTo c (.leaving .registered) with
      epollSet := update s.epollSet (s.conns c).fd (some c) } := by
  have hfresh : (s.conns c).stage.registered = false := by rw [hstage]; rfl
  have hentered : (s.conns c).stage.entered = true := by rw [hstage]; rfl
  have htwo : (s.conns c).useCount = 2 := by
    rw [(hs.sound c).count_of_fresh hfresh, hstage]
    rfl
  have halive := (hs.sound c).alive_of_adder (by rw [hstage]; rfl)
  have hin := (hs.sound c).inMap_of_fresh hfresh hentered
  have hwatched : ConnState.Watched { s.conns c with stage := Stage.leaving .registered } := by
    refine ⟨rfl, ?_⟩
    rw [show (s.conns c).handle = _ from (hs.sound c).untouched hfresh]
    exact not_deleted_init
  refine hs.of_update ⟨hs.maps.descriptors.keep (fun _ => rfl)
      (iff_of_true (Or.inr halive) (Or.inr halive)),
    hs.maps.heap.keep (fun _ => rfl) Iff.rfl,
    hs.maps.handlers.keep (fun _ => rfl) (iff_of_true ⟨rfl, hin.2⟩ hin),
    hs.maps.epollSet.insert { s.conns c with stage := .leaving .registered } hfree
      (not_watched hfresh) hwatched⟩ rfl ((hs.sound c).of_handle rfl (fun _ => hfresh) ?_)
  have hset : (s.conns c).handle.holder.descriptorHandler = true := by
    rw [(hs.sound c).untouched hfresh]
    rfl
  simp only [ConnState.holderRef, hset, htwo]
  rfl

omit [DecidableEq Thread] in
/-- The connection that lets a reference go and comes to another stage. -/
theorem dropRef_goTo_conns (s : State Thread) (c : Conn) (stage : Stage) :
    ((s.dropRef c).goTo c stage).conns = update s.conns c
      { s.conns c with stage := stage, useCount := (s.conns c).useCount - 1 } := by
  rw [State.goTo, State.put]
  dsimp only
  rw [dropRef_conns, Function.update_self, Function.update_idem]

/-- `accept_` or the holder lets the handler go. -/
theorem Inv.dropRef_goTo (hs : Inv s) {stage : Stage}
    (hstage : (s.conns c).stage ≠ .accepted ∧ stage ≠ .accepted)
    (halive : (s.conns c).Alive)
    (hentered : stage.entered = (s.conns c).stage.entered)
    (hregistered : stage.registered = (s.conns c).stage.registered)
    (hsound : Sound { s.conns c with stage := stage, useCount := (s.conns c).useCount - 1 }) :
    Inv ((s.dropRef c).goTo c stage) := by
  refine hs.of_update ?_ (dropRef_goTo_conns s c stage) hsound
  have hconn : (s.dropRef c).conns c =
      { s.conns c with useCount := (s.conns c).useCount - 1 } := by
    rw [dropRef_conns, Function.update_self]
  refine (hs.maps.dropRef hstage.1 halive).put rfl rfl ?_ Iff.rfl ?_ ?_
  · rw [hconn]
    exact or_congr_left (iff_of_false hstage.2 hstage.1)
  · rw [hconn]
    unfold ConnState.InMap
    dsimp only
    rw [hentered]
  · rw [hconn]
    unfold ConnState.Watched
    dsimp only
    rw [hregistered]

/-- The `shared_ptr` to the holder goes away at the end of `add`. -/
theorem Inv.leave (hs : Inv s) {how : AddEnd} (hstage : (s.conns c).stage = .leaving how) :
    Inv (if how = .turnedAway then (s.dropRef c).goTo c (.returned how)
      else s.goTo c (.returned how)) := by
  have halive := (hs.sound c).alive_of_adder (by rw [hstage]; rfl)
  split
  · rename_i haway
    subst haway
    have hfresh : (s.conns c).stage.registered = false := by rw [hstage]; rfl
    have htwo : (s.conns c).useCount = 2 := by
      rw [(hs.sound c).count_of_fresh hfresh, hstage]
      rfl
    refine hs.dropRef_goTo ⟨by rw [hstage]; decide, by decide⟩ halive (by rw [hstage]; rfl)
      (by rw [hstage]; rfl) ((hs.sound c).of_fresh hfresh rfl ?_)
    show (s.conns c).useCount - 1 = 1
    omega
  · rename_i hkept
    have hsame : Stage.held (.returned how) = (s.conns c).stage.held := by
      rw [hstage]
      exact decide_eq_true hkept
    have hregistered : Stage.registered (.returned how) = (s.conns c).stage.registered := by
      rw [hstage]
      cases how <;> rfl
    have hentered : Stage.entered (.returned how) = (s.conns c).stage.entered := by
      rw [hstage]
      rfl
    refine hs.of_update (hs.maps.put rfl rfl
      (iff_of_true (Or.inr halive) (Or.inr halive)) Iff.rfl ?_ ?_) rfl
      ((hs.sound c).of_handle rfl (fun h => hregistered ▸ h) ?_)
    · unfold ConnState.InMap
      dsimp only
      rw [hentered]
    · unfold ConnState.Watched
      dsimp only
      rw [hregistered]
    · rw [(hs.sound c).count]
      unfold ConnState.holderRef
      dsimp only
      rw [hsame, hstage]
      rfl

/-- `accepted_descriptor_handler` goes away. -/
theorem Inv.finish (hs : Inv s) {how : AddEnd} (hstage : (s.conns c).stage = .returned how) :
    Inv ((s.dropRef c).goTo c (.finished how)) := by
  have halive := (hs.sound c).alive_of_adder (by rw [hstage]; rfl)
  have hregistered : Stage.registered (.finished how) = (s.conns c).stage.registered := by
    rw [hstage]
    cases how <;> rfl
  refine hs.dropRef_goTo ⟨by rw [hstage]; simp, by simp⟩ halive (by rw [hstage]; rfl)
    hregistered ((hs.sound c).of_handle rfl (fun h => hregistered ▸ h) ?_)
  have hcount := (hs.sound c).count
  unfold ConnState.holderRef at hcount ⊢
  rw [hstage] at hcount
  rw [hcount]
  exact (Nat.add_sub_cancel_left 1 _).trans (Nat.zero_add _).symm

theorem entered_of_registered {stage : Stage} (h : stage.registered = true) :
    stage.entered = true := by
  cases stage with
  | leaving how | returned how | finished how => cases how <;> first | rfl | cases h
  | _ => cases h

theorem held_of_registered {stage : Stage} (h : stage.registered = true) :
    stage.held = true := by
  cases stage with
  | leaving how | returned how | finished how => cases how <;> first | rfl | cases h
  | _ => cases h

theorem ne_accepted_of_registered {stage : Stage} (h : stage.registered = true) :
    stage ≠ .accepted := by
  rintro rfl
  cases h

/-- `epoll` watches the holder of the connection that has the descriptor. -/
theorem Inv.owner_of_watched (hs : Inv s) {fd : Fd} (hwatched : s.epollSet fd = some c) :
    s.descriptors fd = some c ∧ s.heap (s.conns c).handler = some c ∧
      (s.conns c).handle.holder.descriptorHandler = true := by
  obtain ⟨hregistered, hnot⟩ := hs.maps.epollSet.member_of_find hwatched
  have hset : (s.conns c).handle.holder.descriptorHandler = true := by
    by_contra hnull
    exact hnot (Or.inl (by simpa using hnull))
  have halive := (hs.sound c).alive_of_holder (held_of_registered hregistered) hset
  have hfound := hs.maps.descriptors.find (Or.inr halive)
  rw [hs.maps.epollSet.key_of_find hwatched] at hfound
  exact ⟨hfound, hs.maps.heap.find halive, hset⟩

/-- The descriptor of a handler is watched for its own holder, if for any. -/
theorem Inv.watched_self (hs : Inv s) (halive : (s.conns c).Alive)
    (hwatched : (s.epollSet (s.conns c).fd).isSome) : s.epollSet (s.conns c).fd = some c := by
  obtain ⟨d, hd⟩ := Option.isSome_iff_exists.mp hwatched
  have hfound := hs.maps.descriptors.find (Or.inr halive)
  rw [(hs.owner_of_watched hd).1] at hfound
  rw [hd, hfound]

/-- An operation of `handle_` that is no turn of the teardown. -/
theorem Inv.handle_same (hs : Inv s) {handle : Handle.State Thread}
    (hregistered : (s.conns c).stage.registered = true) (hswept : Swept handle)
    (hkept : handle.holder.descriptorHandler = (s.conns c).handle.holder.descriptorHandler)
    (hdeleted : Deleted handle ↔ Deleted (s.conns c).handle)
    (hlingers : Lingers handle ↔ Lingers (s.conns c).handle) : Inv (s.withHandle c handle) := by
  have herased : Erased handle ↔ Erased (s.conns c).handle := by
    rw [Erased, Erased, hkept, hlingers]
  refine hs.of_update (hs.maps.put rfl rfl Iff.rfl Iff.rfl
    (and_congr_right fun _ => not_congr herased)
    (and_congr_right fun _ => not_congr hdeleted)) rfl ⟨hswept, ?_, ?_⟩
  · intro hfresh
    exact absurd (hregistered.symm.trans hfresh) (by decide)
  · rw [(hs.sound c).count, ConnState.holderRef, ConnState.holderRef]
    dsimp only
    rw [hkept]

/-- Only the turns of the teardown change what is outside the holders: a holder is rearmed as it
was registered. -/
theorem Inv.applyEffect_same (hs : Inv s) {result : CallResult} {effect : Option HandleEffect}
    {u : State Thread} (hheld : (s.conns c).stage.held = true)
    (hdel : effect = some .epollDel → result = .threw) (hreset : effect ≠ some .resetHandler)
    (herase : effect ≠ some .handlersErase)
    (hrearm : ∀ {handleRead handleWrite : Bool},
      effect = some (.epollRearm handleRead handleWrite) →
        (s.conns c).handle.holder.descriptorHandler = true)
    (h : s.applyEffect c result effect = some u) : u = s := by
  cases effect with
  | none => exact (Option.some.inj h).symm
  | some effect =>
      cases effect with
      | callRead | callWrite | callStopped | cleanerPush | cleanerRelease =>
          exact (Option.some.inj h).symm
      | resetHandler => exact absurd rfl hreset
      | handlersErase => exact absurd rfl herase
      | epollDel =>
          rw [State.applyEffect, if_pos (hdel rfl)] at h
          exact (Option.some.inj h).symm
      | epollRearm handleRead handleWrite =>
          rw [State.applyEffect] at h
          split at h
          · exact (Option.some.inj h).symm
          · split at h
            · rename_i hwatched
              have halive := (hs.sound c).alive_of_holder hheld (hrearm rfl)
              obtain rfl := Option.some.inj h
              rw [← hs.watched_self halive hwatched, Function.update_eq_self]
            · cases h

/-- An operation of a thread in `handle_`. -/
theorem Inv.handle (hs : Inv s) {a : Handle.Action Thread} {handle : Handle.State Thread}
    {u : State Thread} (hregistered : (s.conns c).stage.registered = true)
    (hstep : Handle.step (s.conns c).handle a = some handle)
    (heffect : s.applyEffect c a.result (handleStep (s.conns c).handle.holder
      ((s.conns c).handle.threads a.thread) a.result).effect = some u) :
    Inv (u.withHandle c handle) := by
  have hturn := (hs.sound c).swept.turn hstep
  have hswept := (hs.sound c).swept.step hstep
  have hheld := held_of_registered hregistered
  have hentered := entered_of_registered hregistered
  have huntouched (conn' : ConnState Thread) (hsame : conn'.stage = (s.conns c).stage) :
      conn'.stage.registered = false → conn'.handle = (Handle.system Thread).init := by
    rw [hsame, hregistered]
    intro hfresh
    cases hfresh
  have hrearm {handleRead handleWrite : Bool} := @epollRearm_of_handleStep
    (s.conns c).handle.holder ((s.conns c).handle.threads a.thread) a.result handleRead handleWrite
  generalize (handleStep (s.conns c).handle.holder ((s.conns c).handle.threads a.thread)
    a.result).effect = effect at hturn heffect hrearm
  cases hturn with
  | deleted hresult hbefore hafter hkept hlingers =>
      rw [State.applyEffect, if_neg hresult] at heffect
      split at heffect
      · obtain rfl := Option.some.inj heffect
        have hset : (s.conns c).handle.holder.descriptorHandler = true := by
          by_contra hnull
          exact hbefore (Or.inl (by simpa using hnull))
        have hin : ¬Erased handle ↔ ¬Erased (s.conns c).handle := by
          rw [Erased, Erased, hkept, hset, hlingers]
        refine hs.of_update ⟨hs.maps.descriptors.keep (fun _ => rfl) Iff.rfl,
          hs.maps.heap.keep (fun _ => rfl) Iff.rfl,
          hs.maps.handlers.keep (fun _ => rfl) (and_congr_right fun _ => hin),
          hs.maps.epollSet.erase ⟨hregistered, hbefore⟩ fun h => h.2 hafter⟩ rfl
          ⟨hswept, huntouched _ rfl, ?_⟩
        rw [(hs.sound c).count, ConnState.holderRef, ConnState.holderRef]
        dsimp only
        rw [hkept, hset]
      · cases heffect
  | reset hbefore hkept hafter hlingers =>
      rw [State.applyEffect, if_pos hkept] at heffect
      obtain rfl := Option.some.inj heffect
      have halive := (hs.sound c).alive_of_holder hheld hkept
      have hconn : (s.dropRef c).conns c =
          { s.conns c with useCount := (s.conns c).useCount - 1 } := by
        rw [dropRef_conns, Function.update_self]
      have hconns : ((s.dropRef c).withHandle c handle).conns = update s.conns c
          { s.conns c with useCount := (s.conns c).useCount - 1, handle := handle } := by
        rw [State.withHandle, State.put]
        dsimp only
        rw [dropRef_conns, Function.update_self, Function.update_idem]
      refine hs.of_update ?_ hconns ⟨hswept, huntouched _ rfl, ?_⟩
      · refine (hs.maps.dropRef (ne_accepted_of_registered hregistered) halive).put rfl rfl Iff.rfl
          Iff.rfl ?_ ?_
        · rw [hconn]
          refine and_congr_right fun _ => iff_of_true (fun h => h.2 hlingers) fun h => ?_
          exact absurd (h.1.symm.trans hkept) (by decide)
        · rw [hconn]
          exact and_congr_right fun _ => iff_of_false (not_not_intro (Or.inl hafter))
            (not_not_intro hbefore)
      · have hcount := (hs.sound c).count
        unfold ConnState.holderRef at hcount ⊢
        dsimp only
        rw [hheld, hkept] at hcount
        rw [hheld, hafter, hcount]
        rfl
  | erased hlingers hbefore hafter =>
      obtain rfl := Option.some.inj heffect
      refine hs.of_update ⟨hs.maps.descriptors.keep (fun _ => rfl) Iff.rfl,
        hs.maps.heap.keep (fun _ => rfl) Iff.rfl,
        hs.maps.handlers.erase ⟨hentered, fun h => h.2 hlingers⟩ fun h => h.2 hafter,
        hs.maps.epollSet.keep (fun _ => rfl) (and_congr_right fun _ =>
          iff_of_false (not_not_intro hafter.deleted) (not_not_intro (Or.inl hbefore)))⟩ rfl
        ⟨hswept, huntouched _ rfl, ?_⟩
      rw [(hs.sound c).count, ConnState.holderRef, ConnState.holderRef]
      dsimp only
      rw [hafter.1, hbefore]
  | same hdel hreset herase hkept hdeleted hlingers =>
      rw [hs.applyEffect_same hheld hdel hreset herase (fun h => (hrearm h).2.2.1) heffect]
      exact hs.handle_same hregistered hswept hkept hdeleted hlingers

theorem Inv.step (hs : Inv s) {a : Action Thread} (h : step s a = some t) : Inv t := by
  cases a with
  | accept c fd =>
      simp only [HandlerReuse.step] at h
      split at h
      · rename_i hok
        obtain rfl := Option.some.inj h
        exact hs.accept hok.1 hok.2
      · cases h
  | create c handler =>
      simp only [HandlerReuse.step] at h
      split at h
      · rename_i hok
        obtain rfl := Option.some.inj h
        exact hs.create hok.1 hok.2
      · cases h
  | next c refuses =>
      simp only [HandlerReuse.step, next] at h
      cases hstage : (s.conns c).stage with
      | unborn | accepted | finished _ => simp [hstage] at h
      | created =>
          simp only [hstage] at h
          obtain rfl := Option.some.inj h
          exact hs.construct hstage
      | constructed =>
          simp only [hstage] at h
          split at h
          · obtain rfl := Option.some.inj h
            exact hs.turnAway hstage
          · rename_i hfree
            obtain rfl := Option.some.inj h
            exact hs.enter hstage hfree
      | inserted =>
          simp only [hstage] at h
          split at h
          · obtain rfl := Option.some.inj h
            exact hs.refuse hstage
          · rename_i hok
            obtain rfl := Option.some.inj h
            rw [not_or, Option.not_isSome_iff_eq_none] at hok
            exact hs.register hstage hok.2
      | leaving how =>
          simp only [hstage] at h
          have hleave := hs.leave hstage
          split at h
          · rename_i haway
            obtain rfl := Option.some.inj h
            rwa [if_pos haway] at hleave
          · rename_i hkept
            obtain rfl := Option.some.inj h
            rwa [if_neg hkept] at hleave
      | returned how =>
          simp only [hstage] at h
          obtain rfl := Option.some.inj h
          exact hs.finish hstage
  | handle c a =>
      simp only [HandlerReuse.step] at h
      split at h
      · rename_i hregistered
        cases hstep : Handle.step (s.conns c).handle a with
        | none => simp [hstep] at h
        | some handle =>
            simp only [hstep] at h
            obtain ⟨u, hu, rfl⟩ := Option.map_eq_some_iff.mp h
            exact hs.handle hregistered hstep hu
      · cases h

end Steps

/-! ## Descriptors -/

theorem inv_init : Inv (system Thread).init where
  maps := by
    have hclosed : ∀ c, ¬((system Thread).init.conns c).Open := by
      rintro c (haccepted | hpos)
      · cases haccepted
      · exact Nat.lt_irrefl 0 hpos
    exact ⟨.empty hclosed, .empty fun _ => Nat.lt_irrefl 0, .empty fun _ => not_inMap rfl,
      .empty fun _ => not_watched rfl⟩
  sound := fun _ => ⟨swept_init, fun _ => rfl, rfl⟩

theorem inv_of_reachable {s : State Thread} (hs : Reachable (system Thread) unguarded s) :
    Inv s :=
  hs.invariant inv_init fun _ _ _ hinv _ h => hinv.step h

/-- **The descriptors are not mixed up.**  What `epoll` watches at a descriptor is the holder of
the connection that has the descriptor now, and this holder has its handler, in memory and at an
address of its own.  A descriptor that has just been accepted is not watched, so that `add` does
not meet what is left of an earlier connection. -/
theorem watched_descriptor {s : State Thread} (hs : Reachable (system Thread) unguarded s) :
    (∀ fd c, s.epollSet fd = some c → s.descriptors fd = some c ∧
        s.heap (s.conns c).handler = some c ∧
        (s.conns c).handle.holder.descriptorHandler = true) ∧
      ∀ c, (s.conns c).stage.registered = false → (s.conns c).Open →
        s.epollSet (s.conns c).fd = none := by
  have hinv := inv_of_reachable hs
  refine ⟨fun fd c hwatched => hinv.owner_of_watched hwatched, fun c hfresh hopen => ?_⟩
  by_contra hsome
  obtain ⟨d, hd⟩ := Option.ne_none_iff_exists'.mp hsome
  have hfound := hinv.maps.descriptors.find hopen
  rw [(hinv.owner_of_watched hd).1] at hfound
  obtain rfl := Option.some.inj hfound
  exact not_watched hfresh (hinv.maps.epollSet.member_of_find hd)

/-- The descriptor of an accepted connection is open as long as somebody has its handler. -/
theorem Inv.open_iff {s : State Thread} (hs : Inv s) (c : Conn)
    (haccepted : (s.conns c).stage ≠ .unborn) :
    s.descriptors (s.conns c).fd = some c ↔
      ∀ how, (s.conns c).stage = .finished how →
        how ≠ .turnedAway ∧ (s.conns c).handle.holder.descriptorHandler = true := by
  have hcount := (hs.sound c).count
  rw [hs.maps.descriptors _ c]
  simp only [ConnState.Open, true_and]
  unfold ConnState.holderRef at hcount
  cases hstage : (s.conns c).stage with
  | unborn => exact absurd hstage haccepted
  | accepted => simp
  | created | constructed | inserted | leaving how | returned how =>
      rw [hstage, Stage.adderRef] at hcount
      simp only [reduceCtorEq, false_or, false_imp_iff, implies_true, iff_true]
      omega
  | finished how =>
      rw [hstage] at hcount
      have hpos : 0 < (s.conns c).useCount ↔
          how ≠ .turnedAway ∧ (s.conns c).handle.holder.descriptorHandler = true := by
        rw [hcount]
        simp only [Stage.adderRef, Stage.held, Bool.and_eq_true, decide_eq_true_eq]
        split <;> simp_all
      simp only [reduceCtorEq, false_or, Stage.finished.injEq, forall_eq']
      exact hpos

/-- **A descriptor is closed once both have let it go.**  The descriptor of an accepted
connection is open as long as `accept_` has its handler or its holder does; so it stays open where
`epoll_ctl` fails, and is closed behind the reset, or behind an `add` that turned the handler
away. -/
theorem open_descriptor_iff {s : State Thread} (hs : Reachable (system Thread) unguarded s)
    (c : Conn) (haccepted : (s.conns c).stage ≠ .unborn) :
    s.descriptors (s.conns c).fd = some c ↔
      ∀ how, (s.conns c).stage = .finished how →
        how ≠ .turnedAway ∧ (s.conns c).handle.holder.descriptorHandler = true :=
  (inv_of_reachable hs).open_iff c haccepted

/-- A connection comes, is registered, and is closed in its first pass, whose thread makes
`operations` operations. -/
def come (operations : Nat) : List (Action Bool) :=
  [.accept 0 7, .create 0 100] ++ List.replicate 5 (.next 0 false) ++
    List.replicate operations
      (.handle 0 ⟨false, .returned (closeReadHandle ||| closeWriteHandle)⟩)

/-- The next one gets its descriptor, and its handler the same address. -/
def comeAgain (operations : Nat) : List (Action Bool) :=
  [.accept 1 7, .create 1 100] ++ List.replicate operations (.next 1 false)

theorem watched_descriptor_again :
    ∃ s, (system Bool).run (system Bool).init (come 13 ++ comeAgain 3) = some s ∧
      s.epollSet 7 = some 1 ∧ s.descriptors 7 = some 1 := by
  have hend : ((system Bool).run (system Bool).init (come 13 ++ comeAgain 3)).map
      (fun s => s.epollSet 7) = some (some 1) := by
    decide +kernel
  obtain ⟨s, hrun, hwatched⟩ := Option.map_eq_some_iff.mp hend
  have hs : Reachable (system Bool) unguarded s := .of_run .init hrun (meets_unguarded _ _)
  exact ⟨s, hrun, hwatched, ((watched_descriptor hs).1 7 1 hwatched).1⟩

theorem open_descriptor_iff_gone :
    ∃ s, (system Bool).run (system Bool).init (come 11) = some s ∧
      s.descriptors (s.conns 0).fd ≠ some 0 := by
  have hend : ((system Bool).run (system Bool).init (come 11)).map
      (fun s => ((s.conns 0).stage, (s.conns 0).handle.holder.descriptorHandler)) =
        some (.finished .registered, false) := by
    decide +kernel
  obtain ⟨s, hrun, hvalues⟩ := Option.map_eq_some_iff.mp hend
  obtain ⟨hstage, hnull⟩ := Prod.mk.inj hvalues
  have hs : Reachable (system Bool) unguarded s := .of_run .init hrun (meets_unguarded _ _)
  refine ⟨s, hrun, fun hopen => ?_⟩
  have hset := ((open_descriptor_iff hs 0 (by simp [hstage])).mp hopen _ hstage).2
  exact Bool.false_ne_true (hnull.symm.trans hset)

/-! ## Connections that are turned away -/

/-- `add` has found an entry for the address in `handlers_`. -/
def Stage.turnedAway : Stage → Bool
  | .leaving how | .returned how | .finished how => how = .turnedAway
  | .unborn | .accepted | .created | .constructed | .inserted => false

/-- The lookup in `handlers_` does not come between the reset of another holder and the erasure
of its entry, with a handler at the address that the other one had. -/
def Apart (s : State Thread) : Action Thread → Prop
  | .next c _ => (s.conns c).stage = .constructed →
      ∀ d, (s.conns d).handler = (s.conns c).handler → ¬Lingers (s.conns d).handle
  | .accept _ _ | .create _ _ | .handle _ _ => True

/-- The entry that a lookup finds is that of a handler which is gone. -/
theorem Inv.entry_iff {s : State Thread} (hs : Inv s) {c : Conn}
    (hstage : (s.conns c).stage = .constructed) :
    s.handlers (s.conns c).handler ≠ none ↔
      ∃ d, (s.conns d).handler = (s.conns c).handler ∧ Lingers (s.conns d).handle := by
  constructor
  · intro hsome
    obtain ⟨d, hd⟩ := Option.ne_none_iff_exists'.mp hsome
    have hkey := hs.maps.handlers.key_of_find hd
    obtain ⟨hentered, hnot⟩ := hs.maps.handlers.member_of_find hd
    refine ⟨d, hkey, ?_⟩
    have halive := (hs.sound c).alive_of_adder (by rw [hstage]; rfl)
    -- two handlers in memory would be at one address
    have hdead : ¬(s.conns d).Alive := by
      intro hother
      have hsame := hs.maps.heap.eq_of_key_eq hother halive hkey
      rw [hsame, hstage] at hentered
      cases hentered
    have hheld : (s.conns d).stage.held = true := by
      revert hentered
      cases (s.conns d).stage <;> simp [Stage.entered, Stage.held]
    have hnull : (s.conns d).handle.holder.descriptorHandler = false := by
      by_contra hset
      exact hdead ((hs.sound d).alive_of_holder hheld (by simpa using hset))
    by_contra hpast
    exact hnot ⟨hnull, hpast⟩
  · rintro ⟨d, hkey, hlingers⟩
    have hregistered : (s.conns d).stage.registered = true := by
      by_contra hfresh
      rw [(hs.sound d).untouched (by simpa using hfresh)] at hlingers
      obtain ⟨i, hi⟩ := hlingers
      simp [Handle.system, HandleThread.initial] at hi
    have hin : (s.conns d).InMap := ⟨entered_of_registered hregistered, fun h => h.2 hlingers⟩
    rw [← hkey, hs.maps.handlers.find hin]
    exact Option.some_ne_none d

section TurnedAway

variable {s t : State Thread} {c d : Conn}

omit [DecidableEq Thread] in
theorem turnedAway_of_update {conn : ConnState Thread} (hconns : t.conns = update s.conns c conn)
    (hsame : conn.stage.turnedAway = (s.conns c).stage.turnedAway) (d : Conn) :
    (t.conns d).stage.turnedAway = (s.conns d).stage.turnedAway := by
  rw [hconns]
  obtain rfl | hne := eq_or_ne d c
  · rw [Function.update_self, hsame]
  · rw [Function.update_of_ne hne]

omit [DecidableEq Thread] in
/-- What `handle_` does outside the holder turns nobody away. -/
theorem turnedAway_applyEffect {result : CallResult} {effect : Option HandleEffect}
    (h : s.applyEffect c result effect = some t) (d : Conn) :
    (t.conns d).stage.turnedAway = (s.conns d).stage.turnedAway := by
  unfold State.applyEffect at h
  (repeat' split at h) <;> first
    | (obtain rfl := Option.some.inj h
       first | rfl | exact turnedAway_of_update (dropRef_conns s c) rfl d)
    | cases h

omit [DecidableEq Thread] in
/-- `accept_` and `add` turn a connection away at its lookup only. -/
theorem turnedAway_next {refuses : Bool} (h : next s c refuses = some t) (d : Conn) :
    (t.conns d).stage.turnedAway = true ↔ (s.conns d).stage.turnedAway = true ∨
      d = c ∧ (s.conns c).stage = .constructed ∧ s.handlers (s.conns c).handler ≠ none := by
  have hkept (hstage : (s.conns c).stage ≠ .constructed)
      (hsame : (t.conns d).stage.turnedAway = (s.conns d).stage.turnedAway) :
      (t.conns d).stage.turnedAway = true ↔ (s.conns d).stage.turnedAway = true ∨
        d = c ∧ (s.conns c).stage = .constructed ∧ s.handlers (s.conns c).handler ≠ none := by
    simp [hsame, hstage]
  unfold next at h
  cases hstage : (s.conns c).stage with
  | unborn | accepted | finished _ => simp [hstage] at h
  | created =>
      simp only [hstage] at h
      obtain rfl := Option.some.inj h
      rw [← hstage]
      exact hkept (by simp [hstage]) (turnedAway_of_update rfl (by rw [hstage]; rfl) d)
  | constructed =>
      simp only [hstage] at h
      split at h
      · rename_i other hfound
        obtain rfl := Option.some.inj h
        obtain rfl | hne := eq_or_ne d c
        · simp [State.goTo, State.put, Stage.turnedAway, hfound]
        · simp [State.goTo, State.put, hne]
      · rename_i hfree
        obtain rfl := Option.some.inj h
        rw [turnedAway_of_update rfl (by rw [hstage]; rfl) d]
        simp [hfree]
  | inserted =>
      simp only [hstage] at h
      rw [← hstage]
      split at h
      all_goals
        obtain rfl := Option.some.inj h
        exact hkept (by simp [hstage]) (turnedAway_of_update rfl (by rw [hstage]; rfl) d)
  | leaving how =>
      simp only [hstage] at h
      rw [← hstage]
      split at h
      · obtain rfl := Option.some.inj h
        exact hkept (by simp [hstage])
          (turnedAway_of_update (dropRef_goTo_conns s c _) (by rw [hstage]; rfl) d)
      · obtain rfl := Option.some.inj h
        exact hkept (by simp [hstage]) (turnedAway_of_update rfl (by rw [hstage]; rfl) d)
  | returned how =>
      simp only [hstage] at h
      rw [← hstage]
      obtain rfl := Option.some.inj h
      exact hkept (by simp [hstage])
        (turnedAway_of_update (dropRef_goTo_conns s c _) (by rw [hstage]; rfl) d)

/-- A connection is turned away at its lookup, and stays so. -/
theorem turnedAway_of_step {a : Action Thread} (h : step s a = some t) (d : Conn) :
    (t.conns d).stage.turnedAway = true ↔ (s.conns d).stage.turnedAway = true ∨
      ∃ refuses, a = .next d refuses ∧ (s.conns d).stage = .constructed ∧
        s.handlers (s.conns d).handler ≠ none := by
  cases a with
  | accept c fd =>
      simp only [step] at h
      split at h
      · rename_i hok
        have hconns : t.conns =
            update s.conns c { s.conns c with stage := .accepted, fd := fd } := by
          rw [← Option.some.inj h]
          rfl
        simp [turnedAway_of_update hconns (by rw [hok.1]; rfl) d]
      · cases h
  | create c handler =>
      simp only [step] at h
      split at h
      · rename_i hok
        have hconns : t.conns = update s.conns c
            { s.conns c with stage := .created, handler := handler, useCount := 1 } := by
          rw [← Option.some.inj h]
          rfl
        simp [turnedAway_of_update hconns (by rw [hok.1]; rfl) d]
      · cases h
  | next c refuses =>
      rw [turnedAway_next h d]
      refine or_congr_right ⟨?_, ?_⟩
      · rintro ⟨rfl, hstage, hfound⟩
        exact ⟨refuses, rfl, hstage, hfound⟩
      · rintro ⟨refuses', haction, hstage, hfound⟩
        obtain ⟨rfl, -⟩ := Action.next.inj haction
        exact ⟨rfl, hstage, hfound⟩
  | handle c a =>
      simp only [step] at h
      split at h
      · split at h
        · cases h
        · rename_i handle _
          obtain ⟨u, hu, rfl⟩ := Option.map_eq_some_iff.mp h
          have hconns : (u.withHandle c handle).conns =
              update u.conns c { u.conns c with handle := handle } := rfl
          simp [turnedAway_of_update hconns rfl d, turnedAway_applyEffect hu d]
      · cases h

end TurnedAway

/-- **Turned away.**  In every run `add` finds no entry in `handlers_` for a new connection if and
only if no lookup came between the reset of a holder and the erasure of its entry while the new
handler was at the address of the old one.  A connection that is turned away is closed, and no
thread ever handled it, though `add` has returned `true`. -/
theorem turned_away_iff {actions : List (Action Thread)} {t : State Thread}
    (hrun : (system Thread).run (system Thread).init actions = some t) :
    ((∀ c, (t.conns c).stage.turnedAway = false) ↔
        Meets (system Thread) Apart (system Thread).init actions) ∧
      ∀ c, (t.conns c).stage = .finished .turnedAway →
        (∀ fd, t.descriptors fd ≠ some c) ∧ (t.conns c).handle = (Handle.system Thread).init := by
  have hgood : ∀ (s : State Thread) a t, (Inv s ∧ ∀ c, (s.conns c).stage.turnedAway = false) →
      Apart s a → step s a = some t → Inv t ∧ ∀ c, (t.conns c).stage.turnedAway = false := by
    rintro s a t ⟨hs, hnone⟩ hapart hstep
    refine ⟨hs.step hstep, fun c => ?_⟩
    rw [Bool.eq_false_iff, Ne, turnedAway_of_step hstep c, not_or, hnone c]
    refine ⟨Bool.false_ne_true, ?_⟩
    rintro ⟨refuses, rfl, hstage, hfound⟩
    obtain ⟨d, hkey, hlingers⟩ := (hs.entry_iff hstage).mp hfound
    exact hapart hstage d hkey hlingers
  have hbad : ∀ (s : State Thread) a t, (Inv s ∧ ∀ c, (s.conns c).stage.turnedAway = false) →
      ¬Apart s a → step s a = some t → ∃ c, (t.conns c).stage.turnedAway = true := by
    rintro s a t ⟨hs, -⟩ hnot hstep
    cases a with
    | next c refuses =>
        simp only [Apart, not_forall, not_not] at hnot
        obtain ⟨hstage, d, hkey, hlingers⟩ := hnot
        have hfound := (hs.entry_iff hstage).mpr ⟨d, hkey, hlingers⟩
        exact ⟨c, (turnedAway_of_step hstep c).mpr (Or.inr ⟨refuses, rfl, hstage, hfound⟩)⟩
    | accept c fd | create c handler | handle c a => exact absurd trivial hnot
  have hstay : ∀ (s : State Thread) a t, (∃ c, (s.conns c).stage.turnedAway = true) →
      step s a = some t → ∃ c, (t.conns c).stage.turnedAway = true := by
    rintro s a t ⟨c, hc⟩ hstep
    exact ⟨c, (turnedAway_of_step hstep c).mpr (Or.inl hc)⟩
  have hnot (hsome : ∃ c, (t.conns c).stage.turnedAway = true) :
      ¬∀ c, (t.conns c).stage.turnedAway = false := by
    obtain ⟨c, hc⟩ := hsome
    exact fun hnone => Bool.false_ne_true ((hnone c).symm.trans hc)
  constructor
  · rcases run_split hgood hbad hstay ⟨inv_init, fun _ => rfl⟩ hrun with
      ⟨hmeets, hend⟩ | ⟨hmeets, hend⟩
    · exact iff_of_true hend.2 hmeets
    · exact iff_of_false (hnot hend) hmeets
  · intro c hstage
    have hs : Reachable (system Thread) unguarded t := .of_run .init hrun (meets_unguarded _ _)
    have hinv := inv_of_reachable hs
    refine ⟨fun fd hopen => ?_, (hinv.sound c).untouched (by rw [hstage]; rfl)⟩
    have hkey := hinv.maps.descriptors.key_of_find hopen
    rw [← hkey, hinv.open_iff c (by simp [hstage])] at hopen
    exact (hopen _ hstage).1 rfl

/-- The thread that tears the first holder down stands in front of the cleaner. -/
theorem turned_away_iff_too_early :
    ∃ s, (system Bool).run (system Bool).init (come 11 ++ comeAgain 4) = some s ∧
      s.descriptors 7 = none ∧
      ¬Meets (system Bool) Apart (system Bool).init (come 11 ++ comeAgain 4) := by
  have hend : ((system Bool).run (system Bool).init (come 11 ++ comeAgain 4)).map
      (fun s => ((s.conns 1).stage, s.descriptors 7)) = some (.finished .turnedAway, none) := by
    decide +kernel
  obtain ⟨s, hrun, hvalues⟩ := Option.map_eq_some_iff.mp hend
  obtain ⟨hstage, hclosed⟩ := Prod.mk.inj hvalues
  refine ⟨s, hrun, hclosed, fun hmeets => ?_⟩
  have hnone := (turned_away_iff hrun).1.mpr hmeets 1
  rw [hstage] at hnone
  cases hnone

end HandlerReuse
end LiteMQ
