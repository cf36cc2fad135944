import LiteMQ.Poller.StateChange
import Mathlib.Data.List.Nodup
import Mathlib.Logic.Function.Basic

/-!
# `DescriptorHandlerPoller::add`

A handler is registered by a new `DescriptorHandlerHolder`, whose constructor
links it with the handler, by an entry in `handlers_`, and by `epoll_ctl`.  The
holder is shared: it is destroyed, and unlinked by its destructor, when the last
reference goes away.

A handler that is registered already loses its second holder again, so nothing
is left of the call (`add_of_registered`).  When `epoll_ctl` fails, the entry in
`handlers_` stays and keeps the holder alive (`add_of_refused`), and from then on
the handler counts as registered (`add_again_of_refused`).

`Valid` says that a handler is linked with its own holders; the constructor and
the destructor keep it.
-/

namespace LiteMQ
namespace Registration

/-- A `DescriptorHandler*`. -/
abbrev HandlerPtr := Nat

/-- A `DescriptorHandlerHolder*`. -/
abbrev HolderPtr := Nat

def epollIn : UInt32 := 0x001
def epollOut : UInt32 := 0x004
def epollRdHup : UInt32 := 0x2000
def epollOneShot : UInt32 := 0x40000000
def epollEt : UInt32 := 0x80000000

/-- `EPOLL_FLAGS` -/
def epollFlags : UInt32 := epollRdHup ||| epollEt ||| epollOneShot

/-- `struct epoll_event` -/
structure EpollEvent where
  events : UInt32
  ptr : HolderPtr
  deriving DecidableEq, Repr

/-- A `DescriptorHandlerHolder` and the number of the `shared_ptr`s to it. -/
structure DescriptorHandlerHolder where
  descriptorHandler : Option HandlerPtr
  flags : HandleFlags
  handleInProgress : Int
  handlingFinished : Int
  useCount : Nat
  deriving DecidableEq, Repr

/-- What `add` reads and writes: `handlers_`, the
`linked_descriptor_handler_holders_` of every handler, the holders in memory, and
what epoll watches for each descriptor. -/
structure State where
  handlers : HandlerPtr → Option HolderPtr
  linked : HandlerPtr → List HolderPtr
  holders : HolderPtr → Option DescriptorHandlerHolder
  epollSet : Int → Option EpollEvent
  fd : HandlerPtr → Int

namespace State

open Function

/-- `DescriptorHandler::link_holder_` -/
def linkHolder (s : State) (handler : HandlerPtr) (holder : HolderPtr) : State :=
  if holder ∈ s.linked handler then s
  else { s with linked := update s.linked handler (s.linked handler ++ [holder]) }

/-- `DescriptorHandler::unlink_holder_` -/
def unlinkHolder (s : State) (handler : HandlerPtr) (holder : HolderPtr) : State :=
  { s with linked := update s.linked handler ((s.linked handler).erase holder) }

/-- `new DescriptorHandlerHolder(this, desc_handler)` at `holder`, with the
`shared_ptr` for it. -/
def constructHolder (s : State) (holder : HolderPtr) (handler : HandlerPtr) : State :=
  let s := { s with
    holders := update s.holders holder (some ⟨some handler, .initial, 0, 0, 1⟩) }
  s.linkHolder handler holder

/-- `reset_descriptor_handler()` -/
def resetDescriptorHandler (s : State) (holder : HolderPtr) : State :=
  match s.holders holder with
  | none => s
  | some object =>
      match object.descriptorHandler with
      | none => s
      | some handler =>
          { s.unlinkHolder handler holder with
            holders := update s.holders holder (some { object with descriptorHandler := none }) }

/-- `~DescriptorHandlerHolder()` -/
def destroyHolder (s : State) (holder : HolderPtr) : State :=
  let s := s.resetDescriptorHandler holder
  { s with holders := update s.holders holder none }

/-- Another `shared_ptr` to the holder. -/
def copyRef (s : State) (holder : HolderPtr) : State :=
  { s with
    holders := update s.holders holder
      ((s.holders holder).map fun object => { object with useCount := object.useCount + 1 }) }

/-- A `shared_ptr` to the holder goes away. -/
def dropRef (s : State) (holder : HolderPtr) : State :=
  match s.holders holder with
  | none => s
  | some object =>
      if object.useCount = 1 then s.destroyHolder holder
      else { s with
        holders := update s.holders holder (some { object with useCount := object.useCount - 1 }) }

/-- `handlers_.insert(std::make_pair(desc_handler.get(), holder)).second` -/
def insertHandler (s : State) (handler : HandlerPtr) (holder : HolderPtr) : State × Bool :=
  match s.handlers handler with
  | some _ => (s, false)
  | none => ({ s.copyRef holder with handlers := update s.handlers handler (some holder) }, true)

/-- `::epoll_ctl(epoll_fd_, EPOLL_CTL_ADD, fd, &ev)`: it fails for a descriptor
that epoll watches already, and when the kernel refuses it for another reason. -/
def epollCtlAdd (s : State) (fd : Int) (event : EpollEvent) (refused : Bool) : Option State :=
  if refused ∨ (s.epollSet fd).isSome then none
  else some { s with epollSet := update s.epollSet fd (some event) }

end State

/-- How `add` ends. -/
inductive AddResult
  | returned (value : Bool)
  | threw (function message : String)
  deriving DecidableEq, Repr

namespace State

open Function

/-- `DescriptorHandlerPoller::add(desc_handler)`.  `holder` is the address that
`new` returns, `refused` whether the kernel refuses the descriptor. -/
def add (s : State) (holder : HolderPtr) (handler : HandlerPtr) (refused : Bool) :
    State × AddResult :=
  let (s, inserted) := (s.constructHolder holder handler).insertHandler handler holder
  if inserted then
    match s.epollCtlAdd (s.fd handler) ⟨epollFlags ||| epollIn ||| epollOut, holder⟩ refused with
    | none => (s.dropRef holder, .threw "DescriptorHandlerPoller::add()" "epoll_ctl() failed")
    | some s => (s.dropRef holder, .returned true)
  else (s.dropRef holder, .returned true)

/-- The poller of a new `DescriptorHandlerPoller`, before the first `add`; `fd`
says which descriptor a handler has. -/
def initial (fd : HandlerPtr → Int) : State where
  handlers := fun _ => none
  linked := fun _ => []
  holders := fun _ => none
  epollSet := fun _ => none
  fd := fd

/-- A handler is linked, once each, with holders in memory that are its own. -/
structure Valid (s : State) : Prop where
  linked_holder : ∀ handler holder, holder ∈ s.linked handler →
    ∃ object, s.holders holder = some object ∧ object.descriptorHandler = some handler
  linked_nodup : ∀ handler, (s.linked handler).Nodup

theorem valid_initial (fd : HandlerPtr → Int) : (initial fd).Valid :=
  ⟨fun _ _ h => absurd h List.not_mem_nil, fun _ => List.nodup_nil⟩

section Unlink

variable {s : State} {holder : HolderPtr}

theorem holders_resetDescriptorHandler_of_ne {x : HolderPtr} (hne : x ≠ holder) :
    (s.resetDescriptorHandler holder).holders x = s.holders x := by
  unfold resetDescriptorHandler
  split
  · rfl
  · split
    · rfl
    · exact update_of_ne hne ..

/-- No handler is linked with the holder any more. -/
theorem Valid.linked_resetDescriptorHandler (hs : s.Valid) (holder : HolderPtr)
    (other : HandlerPtr) :
    (s.resetDescriptorHandler holder).linked other = (s.linked other).erase holder := by
  by_cases hown : holder ∈ s.linked other
  · obtain ⟨object, hobject, hhandler⟩ := hs.linked_holder other holder hown
    simp [resetDescriptorHandler, hobject, hhandler, unlinkHolder]
  · rw [List.erase_of_not_mem hown]
    unfold resetDescriptorHandler
    split
    · rfl
    · split
      · rfl
      · rename_i handler _
        show update s.linked handler ((s.linked handler).erase holder) other = _
        by_cases hother : other = handler
        · rw [hother, update_self, List.erase_of_not_mem (hother ▸ hown)]
        · rw [update_of_ne hother]

/-- A state in which one holder is unlinked, and no other has changed. -/
theorem Valid.of_erase {t : State} (hs : s.Valid)
    (hlinked : ∀ other, t.linked other = (s.linked other).erase holder)
    (hholders : ∀ x, x ≠ holder → t.holders x = s.holders x) : t.Valid := by
  constructor
  · intro other x hx
    rw [hlinked] at hx
    obtain ⟨hne, hmem⟩ := (hs.linked_nodup other).mem_erase_iff.mp hx
    rw [hholders x hne]
    exact hs.linked_holder other x hmem
  · intro other
    rw [hlinked]
    exact (hs.linked_nodup other).erase holder

theorem Valid.resetDescriptorHandler (hs : s.Valid) (holder : HolderPtr) :
    (s.resetDescriptorHandler holder).Valid :=
  hs.of_erase (hs.linked_resetDescriptorHandler holder) fun _ hne =>
    holders_resetDescriptorHandler_of_ne hne

/-- The destructor keeps the links in order. -/
theorem Valid.destroyHolder (hs : s.Valid) (holder : HolderPtr) :
    (s.destroyHolder holder).Valid := by
  refine hs.of_erase (hs.linked_resetDescriptorHandler holder) fun x hne => ?_
  show update (s.resetDescriptorHandler holder).holders holder none x = _
  rw [update_of_ne hne]
  exact holders_resetDescriptorHandler_of_ne hne

/-- So does the end of a reference, whether it is the last one or not. -/
theorem Valid.dropRef (hs : s.Valid) (holder : HolderPtr) : (s.dropRef holder).Valid := by
  unfold State.dropRef
  split
  · exact hs
  · rename_i object hobject
    split
    · exact hs.destroyHolder holder
    · refine ⟨fun other x hx => ?_, hs.linked_nodup⟩
      obtain ⟨linked, hlinked, hhandler⟩ := hs.linked_holder other x hx
      show ∃ object', update s.holders holder _ x = some object' ∧ _
      by_cases hxholder : x = holder
      · subst hxholder
        obtain rfl := Option.some.inj (hobject.symm.trans hlinked)
        exact ⟨_, update_self .., hhandler⟩
      · exact ⟨linked, (update_of_ne hxholder ..).trans hlinked, hhandler⟩

end Unlink

section Add

variable {s : State} {holder : HolderPtr} {handler : HandlerPtr} {refused : Bool}

/-- A new holder is linked with no handler. -/
theorem Valid.not_linked (hs : s.Valid) (hnew : s.holders holder = none) (handler : HandlerPtr) :
    holder ∉ s.linked handler := by
  intro hlinked
  obtain ⟨object, hobject, -⟩ := hs.linked_holder handler holder hlinked
  rw [hnew] at hobject
  cases hobject

/-- The state after the constructor. -/
theorem constructHolder_eq (hs : s.Valid) (hnew : s.holders holder = none) :
    s.constructHolder holder handler = { s with
      holders := update s.holders holder (some ⟨some handler, .initial, 0, 0, 1⟩)
      linked := update s.linked handler (s.linked handler ++ [holder]) } :=
  if_neg (hs.not_linked hnew handler)

/-- A handler that is registered already: the new holder is destroyed, and
everything is as it was. -/
theorem add_of_registered (hs : s.Valid) (hnew : s.holders holder = none)
    (hregistered : (s.handlers handler).isSome) (refused : Bool) :
    s.add holder handler refused = (s, .returned true) := by
  obtain ⟨old, hold⟩ := Option.isSome_iff_exists.mp hregistered
  have herase : (s.linked handler ++ [holder]).erase holder = s.linked handler := by
    rw [List.erase_append_right _ (hs.not_linked hnew handler)]
    simp
  have hholders : update s.holders holder none = s.holders := by
    rw [← hnew, update_eq_self]
  rw [add, constructHolder_eq hs hnew]
  simp only [insertHandler, hold, dropRef, destroyHolder, resetDescriptorHandler, unlinkHolder,
    update_self, update_idem, herase, update_eq_self, hholders, if_true, if_false,
    Bool.false_eq_true]

/-- What a new handler for which `epoll_ctl` fails leaves behind. -/
theorem add_of_refused (hs : s.Valid) (hnew : s.holders holder = none)
    (hunregistered : s.handlers handler = none)
    (hrefused : refused = true ∨ (s.epollSet (s.fd handler)).isSome) :
    s.add holder handler refused =
      ({ s with
        handlers := update s.handlers handler (some holder)
        holders := update s.holders holder (some ⟨some handler, .initial, 0, 0, 1⟩)
        linked := update s.linked handler (s.linked handler ++ [holder]) },
        .threw "DescriptorHandlerPoller::add()" "epoll_ctl() failed") := by
  rw [add, constructHolder_eq hs hnew]
  simp only [insertHandler, hunregistered, copyRef, epollCtlAdd, if_pos hrefused, dropRef,
    update_self, update_idem, Option.map_some, if_true]
  rfl

/-- The same handler that epoll accepts. -/
theorem add_of_accepted (hs : s.Valid) (hnew : s.holders holder = none)
    (hunregistered : s.handlers handler = none)
    (haccepted : ¬ (refused = true ∨ (s.epollSet (s.fd handler)).isSome)) :
    s.add holder handler refused =
      ({ s with
        handlers := update s.handlers handler (some holder)
        holders := update s.holders holder (some ⟨some handler, .initial, 0, 0, 1⟩)
        linked := update s.linked handler (s.linked handler ++ [holder])
        epollSet := update s.epollSet (s.fd handler)
          (some ⟨epollFlags ||| epollIn ||| epollOut, holder⟩) },
        .returned true) := by
  rw [add, constructHolder_eq hs hnew]
  simp only [insertHandler, hunregistered, copyRef, epollCtlAdd, if_neg haccepted, dropRef,
    update_self, update_idem, Option.map_some, if_true]
  rfl

/-- The ways in which `add` can end. -/
theorem add_cases (hs : s.Valid) (hnew : s.holders holder = none) (handler : HandlerPtr)
    (refused : Bool) :
    s.add holder handler refused = (s, .returned true) ∨
      s.handlers handler = none ∧
        (s.add holder handler refused).1.linked =
          update s.linked handler (s.linked handler ++ [holder]) ∧
        (s.add holder handler refused).1.holders =
          update s.holders holder (some ⟨some handler, .initial, 0, 0, 1⟩) := by
  cases hhandlers : s.handlers handler with
  | some old => exact Or.inl (add_of_registered hs hnew (by rw [hhandlers]; rfl) refused)
  | none =>
      right
      by_cases hrefused : refused = true ∨ (s.epollSet (s.fd handler)).isSome
      · rw [add_of_refused hs hnew hhandlers hrefused]
        exact ⟨rfl, rfl, rfl⟩
      · rw [add_of_accepted hs hnew hhandlers hrefused]
        exact ⟨rfl, rfl, rfl⟩

/-- `add` keeps the links in order, however it ends. -/
theorem Valid.add (hs : s.Valid) (hnew : s.holders holder = none) (handler : HandlerPtr)
    (refused : Bool) : (s.add holder handler refused).1.Valid := by
  rcases add_cases hs hnew handler refused with hsame | ⟨-, hlinked, hholders⟩
  · rw [hsame]
    exact hs
  · have hnotin := hs.not_linked hnew
    constructor
    · intro other x hx
      rw [hholders]
      rw [hlinked] at hx
      -- the new holder is linked to its handler alone, and the others are as before
      by_cases hxnew : x = holder
      · subst hxnew
        refine ⟨_, update_self .., ?_⟩
        by_cases hother : other = handler
        · rw [hother]
        · rw [update_of_ne hother] at hx
          exact absurd hx (hnotin other)
      · rw [update_of_ne hxnew]
        apply hs.linked_holder other x
        by_cases hother : other = handler
        · subst hother
          rw [update_self, List.mem_append, List.mem_singleton] at hx
          exact hx.resolve_right hxnew
        · rwa [update_of_ne hother] at hx
    · intro other
      rw [hlinked]
      by_cases hother : other = handler
      · subst hother
        rw [update_self]
        rw [← List.concat_eq_append]
        exact List.Nodup.concat (hnotin other) (hs.linked_nodup other)
      · rw [update_of_ne hother]
        exact hs.linked_nodup other

/-- A second `add` of a handler for which `epoll_ctl` failed returns `true` and
does nothing. -/
theorem add_again_of_refused (hs : s.Valid) (hnew : s.holders holder = none)
    (hunregistered : s.handlers handler = none)
    (hrefused : refused = true ∨ (s.epollSet (s.fd handler)).isSome) {next : HolderPtr}
    (hnext : (s.add holder handler refused).1.holders next = none) (refused' : Bool) :
    (s.add holder handler refused).1.add next handler refused' =
      ((s.add holder handler refused).1, .returned true) := by
  refine add_of_registered (hs.add hnew handler refused) hnext ?_ refused'
  rw [add_of_refused hs hnew hunregistered hrefused]
  show (update s.handlers handler (some holder) handler).isSome = true
  rw [update_self]
  rfl

/-! ## What should be left -/

/-- When `add` throws, `handlers_` and the links of the handler are as before;
and a handler that was registered already leaves `handlers_`, all links and what
epoll watches as they were. -/
structure LeavesNoTrace (s : State) (holder : HolderPtr) (handler : HandlerPtr)
    (refused : Bool) : Prop where
  failed : ∀ function message, (s.add holder handler refused).2 = .threw function message →
    (s.add holder handler refused).1.handlers = s.handlers ∧
      (s.add holder handler refused).1.linked handler = s.linked handler
  duplicate : (s.handlers handler).isSome →
    (s.add holder handler refused).1.handlers = s.handlers ∧
      (s.add holder handler refused).1.linked = s.linked ∧
      (s.add holder handler refused).1.epollSet = s.epollSet

/-- A call leaves no trace that it should not leave exactly when the handler is
registered already, or `epoll_ctl` does not fail. -/
theorem leavesNoTrace_iff (hs : s.Valid) (hnew : s.holders holder = none) :
    LeavesNoTrace s holder handler refused ↔
      (s.handlers handler).isSome ∨ refused = false ∧ s.epollSet (s.fd handler) = none := by
  constructor
  · rintro ⟨hfailed, -⟩
    by_contra hnot
    push Not at hnot
    obtain ⟨hhandlers, hepoll⟩ := hnot
    have hunregistered : s.handlers handler = none := by simpa using hhandlers
    have hrefused : refused = true ∨ (s.epollSet (s.fd handler)).isSome := by
      cases refused with
      | true => exact Or.inl rfl
      | false => exact Or.inr (Option.isSome_iff_ne_none.mpr (hepoll rfl))
    -- a refused handler has stayed in the map, which was empty there before
    have hadd := add_of_refused hs hnew hunregistered hrefused
    obtain ⟨hsame, -⟩ := hfailed _ _ (by rw [hadd])
    rw [hadd] at hsame
    have hentry := congrFun hsame handler
    simp only [update_self, hunregistered] at hentry
    cases hentry
  · intro hgood
    cases hhandlers : s.handlers handler with
    | some old =>
        have hadd := add_of_registered hs hnew (by rw [hhandlers]; rfl) refused
        refine ⟨fun _ _ hthrew => ?_, fun _ => ?_⟩
        · rw [hadd] at hthrew
          cases hthrew
        · rw [hadd]
          exact ⟨rfl, rfl, rfl⟩
    | none =>
        obtain ⟨rfl, hfree⟩ := hgood.resolve_left (by rw [hhandlers]; exact Bool.false_ne_true)
        have haccepted : ¬ (false = true ∨ (s.epollSet (s.fd handler)).isSome) := by simp [hfree]
        have hadd := add_of_accepted hs hnew hhandlers haccepted
        refine ⟨fun _ _ hthrew => ?_, fun hsome => ?_⟩
        · rw [hadd] at hthrew
          cases hthrew
        · rw [hhandlers] at hsome
          cases hsome

end Add

/-- The second `add` of a handler. -/
theorem leavesNoTrace_iff_second_add :
    let s := ((initial fun _ => 7).add 0 1 false).1
    LeavesNoTrace s 5 1 true ↔
      (s.handlers 1).isSome ∨ true = false ∧ s.epollSet (s.fd 1) = none := by
  have hvalid : ((initial fun _ => 7).add 0 1 false).1.Valid :=
    (valid_initial fun _ => 7).add rfl 1 false
  exact leavesNoTrace_iff hvalid (by decide)

/-- A new poller and a handler with the descriptor `-1`, which the kernel
refuses: the handler stays in `handlers_` and linked. -/
theorem refused_handler_stays :
    let s := initial fun _ => -1
    (s.add 0 1 true).2 = .threw "DescriptorHandlerPoller::add()" "epoll_ctl() failed" ∧
      (s.add 0 1 true).1.handlers 1 = some 0 ∧ (s.add 0 1 true).1.linked 1 = [0] ∧
      ¬ LeavesNoTrace s 0 1 true := by
  have hthrew : ((initial fun _ => -1).add 0 1 true).2 =
      .threw "DescriptorHandlerPoller::add()" "epoll_ctl() failed" := by rfl
  have hentry : ((initial fun _ => -1).add 0 1 true).1.handlers 1 = some 0 := by rfl
  refine ⟨hthrew, hentry, by rfl, ?_⟩
  rintro ⟨hfailed, -⟩
  obtain ⟨hsame, -⟩ := hfailed _ _ hthrew
  rw [hsame] at hentry
  cases hentry

end State
end Registration
end LiteMQ
