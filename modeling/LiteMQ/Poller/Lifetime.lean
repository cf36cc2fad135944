import LiteMQ.Poller.CleanerGrace
import LiteMQ.Poller.Handle

/-!
# Lifetime of the holders in a poller

The worker threads of a `DescriptorHandlerPoller`: each fetches a batch of
events from `epoll_wait`, runs `handle_` for one after the other and calls
`release` at the end of every `handle_` and of every batch.  An event is a raw
pointer to a holder; the cleaner must not drop the holder while such an event
is still to be handled.

The cleaner is the one of `CleanerGrace`, with its clock, and every step of the
poller is a step of that cleaner or leaves it alone (`grace_of_step`).  So its
grace period carries over, and what is left to show is `Lifetime.aged`: a thread that
holds an event of a pushed holder has begun no `release` since the push.

That fails because `handle_` calls `release` in the middle of a batch
(`dropped_in_batch`).  `LifetimeSafe` excludes it, together with what breaks
the grace period itself; `not_dropped_in_batch` says so under it.
-/

namespace LiteMQ
namespace Lifetime

open DescriptorHandler DescriptorHandlerCleaner Function TransitionSystem

/-- What `epoll` knows of a holder.  `EPOLLONESHOT`: a delivered event disarms
the entry, `EPOLL_CTL_MOD` arms it again. -/
inductive EpollEntry
  | absent
  | armed
  | disarmed
  | deleted
  deriving DecidableEq, Repr

/-- What a worker thread does in the loop of `process_`. -/
inductive Phase
  /-- in `epoll_wait` -/
  | waiting
  /-- in the loop over the events -/
  | batch
  /-- in the `release` after the batch -/
  | batchRelease
  /-- out of `process_` -/
  | returned
  deriving DecidableEq, Repr

/-- A worker thread: the events of its batch that it has not begun to handle,
and the holder and locals of the `handle_` it is in. -/
structure Worker (Holder : Type*) where
  phase : Phase
  remaining : List Holder
  current : Option (Holder × HandleThread)
  stop : Bool

/-- A poller with `n` worker threads. -/
structure State (n : Nat) (Holder : Type*) where
  holders : Holder → DescriptorHandlerHolder
  epoll : Holder → EpollEntry
  workers : Fin n → Worker Holder
  grace : CleanerGrace.State n Holder

inductive Action (n : Nat) (Holder : Type*)
  /-- `DescriptorHandlerPoller::add` of a new holder -/
  | add (holder : Holder)
  /-- `DescriptorHandler::rearm` -/
  | rearm (holder : Holder)
  /-- `epoll_wait` returns these events -/
  | wait (i : Fin n) (events : List Holder)
  /-- the next operation of a worker thread -/
  | work (i : Fin n) (result : CallResult)

variable {n : Nat} {Holder : Type*} [DecidableEq Holder]

def initial (n : Nat) (Holder : Type*) : State n Holder where
  holders := fun _ => .initial
  epoll := fun _ => .absent
  workers := fun _ => ⟨.waiting, [], none, false⟩
  grace := CleanerGrace.initial n Holder

/-- Thread `i` becomes `worker`. -/
def State.setWorker (s : State n Holder) (i : Fin n) (worker : Worker Holder) : State n Holder :=
  { s with workers := update s.workers i worker }

/-- `EPOLL_CTL_MOD`, which arms the entry of a holder that is registered. -/
def EpollEntry.modify : EpollEntry → EpollEntry
  | .absent => .absent
  | .deleted => .deleted
  | _ => .armed

/-- What an operation of `handle_` does to the poller. -/
def applyEffect (s : State n Holder) (holder : Holder) : Option HandleEffect → State n Holder
  | some .epollDel => { s with epoll := update s.epoll holder .deleted }
  | some (.epollRearm _ _) =>
      { s with epoll := update s.epoll holder (s.epoll holder).modify }
  | some .cleanerPush => { s with grace := CleanerGrace.push s.grace holder }
  | _ => s

/-- An operation of `handle_` by thread `i`, standing at `thread` for `holder`
with `remaining` behind it.  An exception ends the thread and its batch. -/
def handleOperation (s : State n Holder) (i : Fin n) (holder : Holder) (thread : HandleThread)
    (remaining : List Holder) (result : CallResult) : State n Holder :=
  let outcome := handleStep (s.holders holder) thread result
  let worker := s.workers i
  let s := { s with holders := update s.holders holder outcome.holder }
  if outcome.thread.pc = .unwound then s.setWorker i ⟨.returned, [], none, worker.stop⟩
  else
    (applyEffect s holder outcome.effect).setWorker i
      ⟨.batch, remaining, some (holder, outcome.thread), worker.stop⟩

/-- The next operation of `release(i)`; when it ends the call, the thread goes
on as `worker`. -/
def releaseOperation (s : State n Holder) (i : Fin n) (worker : Worker Holder) : State n Holder :=
  let s' := { s with grace := CleanerGrace.release s.grace i }
  if s'.grace.cleaner.pc i = .idle then s'.setWorker i worker else s'

/-- The next operation of a worker thread. -/
def work (s : State n Holder) (i : Fin n) (result : CallResult) : Option (State n Holder) :=
  let worker := s.workers i
  match worker.phase with
  | .waiting => none
  | .returned => none
  | .batchRelease => some (releaseOperation s i ⟨.waiting, [], none, false⟩)
  | .batch =>
      match worker.current, worker.remaining with
      | some (holder, thread), remaining =>
          if thread.pc = .nullDereference ∨ thread.pc = .assertionFailed ∨
              thread.prevHandleInProgress < 0 then none
          else if thread.pc = .release then
            some (releaseOperation s i
              ⟨.batch, remaining, none, worker.stop || thread.stopProcessing⟩)
          else some (handleOperation s i holder thread remaining result)
      | none, holder :: remaining => some (handleOperation s i holder .initial remaining result)
      | none, [] =>
          some (s.setWorker i
            (if worker.stop then ⟨.returned, [], none, true⟩ else ⟨.batchRelease, [], none, false⟩))

def step (s : State n Holder) : Action n Holder → Option (State n Holder)
  | .add holder =>
      if s.epoll holder = .absent then
        some { s with epoll := update s.epoll holder .armed }
      else none
  | .rearm holder =>
      if (s.holders holder).descriptorHandler then
        some { s with epoll := update s.epoll holder (s.epoll holder).modify }
      else none
  | .wait i events =>
      if (s.workers i).phase = .waiting ∧ events.Nodup ∧ ∀ holder ∈ events, s.epoll holder = .armed
      then
        some ({ s with
          epoll := fun holder => if holder ∈ events then .disarmed else s.epoll holder }.setWorker
            i ⟨.batch, events, none, false⟩)
      else none
  | .work i result => work s i result

/-- A poller with `n` worker threads under any interleaving. -/
def system (n : Nat) (Holder : Type*) [DecidableEq Holder] :
    TransitionSystem (State n Holder) (Action n Holder) :=
  ⟨initial n Holder, step⟩

/-- The operation of the cleaner that a step of the poller performs. -/
def cleanerAction (s : State n Holder) :
    Action n Holder → Option (DescriptorHandlerCleaner.Action n Holder)
  | .work i _ =>
      match (s.workers i).phase with
      | .batchRelease => some (.release i)
      | .batch =>
          match (s.workers i).current with
          | some (holder, thread) =>
              if thread.pc = .release then some (.release i)
              else if thread.pc = .push then some (.push holder)
              else none
          | none => none
      | _ => none
  | _ => none

/-- The object was pushed to the cleaner at this time. -/
def PushedAt {Obj : Type*} (g : CleanerGrace.State n Obj) (obj : Obj) (time : Nat) : Prop :=
  ⟨obj, time⟩ ∈ g.cleaner.free ++ g.cleaner.freeCandidates ∨
    ∃ d ∈ g.dropped, d.pushed = ⟨obj, time⟩

/-- The object was pushed to the cleaner. -/
def IsPushed {Obj : Type*} (g : CleanerGrace.State n Obj) (obj : Obj) : Prop :=
  (∃ x ∈ g.cleaner.free ++ g.cleaner.freeCandidates, x.obj = obj) ∨
    ∃ d ∈ g.dropped, d.pushed.obj = obj

/-- The cleaner's part of the step is safe, and a thread begins a `release` only
when no event that it still has to handle points to a pushed holder. -/
def LifetimeSafe (s : State n Holder) (a : Action n Holder) : Prop :=
  match cleanerAction s a with
  | none => True
  | some (.push holder) => CleanerGrace.GraceSafe s.grace (.push holder)
  | some (.release i) => CleanerGrace.GraceSafe s.grace (.release i) ∧
      (s.grace.cleaner.pc i = .idle → ∀ holder ∈ (s.workers i).remaining,
        ¬ IsPushed s.grace holder)

instance (g : CleanerGrace.State n Holder) (holder : Holder) : Decidable (IsPushed g holder) :=
  inferInstanceAs (Decidable (_ ∨ _))

instance (s : State n Holder) (a : Action n Holder) : Decidable (LifetimeSafe s a) :=
  match hb : cleanerAction s a with
  | none => isTrue (by simp [LifetimeSafe, hb])
  | some (.push holder) =>
      decidable_of_iff (CleanerGrace.GraceSafe s.grace (.push holder)) (by simp [LifetimeSafe, hb])
  | some (.release i) =>
      decidable_of_iff (CleanerGrace.GraceSafe s.grace (.release i) ∧
        (s.grace.cleaner.pc i = .idle → ∀ holder ∈ (s.workers i).remaining,
          ¬ IsPushed s.grace holder)) (by simp [LifetimeSafe, hb])

/-- No dropped holder is in the rest of a batch. -/
def NotInBatch (s : State n Holder) : Prop :=
  ∀ d ∈ s.grace.dropped, ∀ i, d.pushed.obj ∉ (s.workers i).remaining

/-- The steps of the poller, one constructor for each place in the code. -/
inductive Stepped (s : State n Holder) : Action n Holder → State n Holder → Prop
  | add (holder : Holder) (habsent : s.epoll holder = .absent) :
      Stepped s (.add holder) { s with epoll := update s.epoll holder .armed }
  | rearm (holder : Holder) :
      Stepped s (.rearm holder)
        { s with epoll := update s.epoll holder (s.epoll holder).modify }
  | wait (i : Fin n) (events : List Holder) (harmed : ∀ holder ∈ events, s.epoll holder = .armed) :
      Stepped s (.wait i events)
        ({ s with
          epoll := fun holder => if holder ∈ events then .disarmed else s.epoll holder }.setWorker
            i ⟨.batch, events, none, false⟩)
  | batchRelease (i : Fin n) (result : CallResult) (hphase : (s.workers i).phase = .batchRelease) :
      Stepped s (.work i result) (releaseOperation s i ⟨.waiting, [], none, false⟩)
  | release (i : Fin n) (result : CallResult) (holder : Holder) (thread : HandleThread)
      (hphase : (s.workers i).phase = .batch)
      (hcurrent : (s.workers i).current = some (holder, thread)) (hpc : thread.pc = .release) :
      Stepped s (.work i result)
        (releaseOperation s i ⟨.batch, (s.workers i).remaining, none,
          (s.workers i).stop || thread.stopProcessing⟩)
  | handle (i : Fin n) (result : CallResult) (holder : Holder) (thread : HandleThread)
      (hphase : (s.workers i).phase = .batch)
      (hcurrent : (s.workers i).current = some (holder, thread)) (hpc : thread.pc ≠ .release) :
      Stepped s (.work i result)
        (handleOperation s i holder thread (s.workers i).remaining result)
  | begin (i : Fin n) (result : CallResult) (holder : Holder) (remaining : List Holder)
      (hphase : (s.workers i).phase = .batch) (hcurrent : (s.workers i).current = none)
      (hremaining : (s.workers i).remaining = holder :: remaining) :
      Stepped s (.work i result) (handleOperation s i holder .initial remaining result)
  | finish (i : Fin n) (result : CallResult) (worker : Worker Holder)
      (hphase : (s.workers i).phase = .batch) (hcurrent : (s.workers i).current = none)
      (hworker : worker.remaining = [] ∧ worker.current = none) :
      Stepped s (.work i result) (s.setWorker i worker)

theorem stepped_of_step {s t : State n Holder} {a : Action n Holder}
    (hstep : step s a = some t) : Stepped s a t := by
  cases a with
  | add holder =>
      simp only [step] at hstep
      split at hstep
      · obtain rfl := Option.some.inj hstep
        exact .add holder ‹_›
      · cases hstep
  | rearm holder =>
      simp only [step] at hstep
      split at hstep
      · obtain rfl := Option.some.inj hstep
        exact .rearm holder
      · cases hstep
  | wait i events =>
      simp only [step] at hstep
      split at hstep
      · rename_i henabled
        obtain rfl := Option.some.inj hstep
        exact .wait i events henabled.2.2
      · cases hstep
  | work i result =>
      simp only [step, work] at hstep
      cases hphase : (s.workers i).phase with
      | waiting => simp [hphase] at hstep
      | returned => simp [hphase] at hstep
      | batchRelease =>
          simp only [hphase] at hstep
          obtain rfl := Option.some.inj hstep
          exact .batchRelease i result hphase
      | batch =>
          simp only [hphase] at hstep
          cases hcurrent : (s.workers i).current with
          | none =>
              cases hremaining : (s.workers i).remaining with
              | nil =>
                  simp only [hcurrent, hremaining] at hstep
                  obtain rfl := Option.some.inj hstep
                  exact .finish i result _ hphase hcurrent (by split <;> exact ⟨rfl, rfl⟩)
              | cons holder remaining =>
                  simp only [hcurrent, hremaining] at hstep
                  obtain rfl := Option.some.inj hstep
                  exact .begin i result holder remaining hphase hcurrent hremaining
          | some pair =>
              obtain ⟨holder, thread⟩ := pair
              simp only [hcurrent] at hstep
              split at hstep
              · cases hstep
              · split at hstep
                · rename_i hpc
                  obtain rfl := Option.some.inj hstep
                  exact .release i result holder thread hphase hcurrent hpc
                · rename_i hpc
                  obtain rfl := Option.some.inj hstep
                  exact .handle i result holder thread hphase hcurrent hpc

/-! ## The cleaner inside the poller -/

theorem handleOperation_grace (s : State n Holder) (i : Fin n) (holder : Holder)
    (thread : HandleThread) (remaining : List Holder) (result : CallResult) :
    (handleOperation s i holder thread remaining result).grace =
      if thread.pc = .push then CleanerGrace.push s.grace holder else s.grace := by
  unfold handleOperation handleStep
  cases hpc : thread.pc
  all_goals dsimp only
  all_goals
    (repeat' split) <;> cases result <;>
      simp_all [HandleThread.goto, HandleThread.afterCall, applyToHolder, applyEffect,
        State.setWorker]

omit [DecidableEq Holder] in
theorem releaseOperation_grace (s : State n Holder) (i : Fin n) (worker : Worker Holder) :
    (releaseOperation s i worker).grace = CleanerGrace.release s.grace i := by
  unfold releaseOperation
  dsimp only
  split <;> rfl

/-- Every step of the poller is a step of the cleaner or leaves it alone. -/
theorem grace_of_step {s t : State n Holder} {a : Action n Holder} (hstep : step s a = some t) :
    (∃ b, cleanerAction s a = some b ∧ CleanerGrace.step s.grace b = some t.grace) ∨
      cleanerAction s a = none ∧ t.grace = s.grace := by
  cases stepped_of_step hstep with
  | add | rearm | wait => exact Or.inr ⟨rfl, rfl⟩
  | batchRelease i result hphase =>
      refine Or.inl ⟨.release i, by simp [cleanerAction, hphase], ?_⟩
      rw [releaseOperation_grace]
      rfl
  | release i result holder thread hphase hcurrent hpc =>
      refine Or.inl ⟨.release i, by simp [cleanerAction, hphase, hcurrent, hpc], ?_⟩
      rw [releaseOperation_grace]
      rfl
  | handle i result holder thread hphase hcurrent hpc =>
      by_cases hpush : thread.pc = .push
      · refine Or.inl ⟨.push holder, by simp [cleanerAction, hphase, hcurrent, hpush], ?_⟩
        rw [handleOperation_grace, if_pos hpush]
        rfl
      · refine Or.inr ⟨by simp [cleanerAction, hphase, hcurrent, hpush, hpc], ?_⟩
        rw [handleOperation_grace, if_neg hpush]
  | begin i result holder remaining hphase hcurrent hremaining =>
      refine Or.inr ⟨by simp [cleanerAction, hphase, hcurrent], ?_⟩
      rw [handleOperation_grace, if_neg (by simp [HandleThread.initial])]
  | finish i result worker hphase hcurrent =>
      exact Or.inr ⟨by simp [cleanerAction, hphase, hcurrent], rfl⟩

omit [DecidableEq Holder] in
theorem LifetimeSafe.graceSafe {s : State n Holder} {a : Action n Holder}
    (hsafe : LifetimeSafe s a) {b : DescriptorHandlerCleaner.Action n Holder}
    (hb : cleanerAction s a = some b) : CleanerGrace.GraceSafe s.grace b := by
  unfold LifetimeSafe at hsafe
  rw [hb] at hsafe
  cases b with
  | push holder => exact hsafe
  | release i => exact hsafe.1

/-- The cleaner of a safe poller is a safe cleaner. -/
theorem reachable_grace {s : State n Holder} (hs : Reachable (system n Holder) LifetimeSafe s) :
    Reachable (CleanerGrace.system n Holder) CleanerGrace.GraceSafe s.grace := by
  refine hs.simulates State.grace rfl fun s a t hsafe hstep => ?_
  rcases grace_of_step hstep with ⟨b, hb, hgrace⟩ | ⟨-, hsame⟩
  · exact Or.inr ⟨b, hsafe.graceSafe hb, hgrace⟩
  · exact Or.inl hsame

/-! ## What a push knows -/

omit [DecidableEq Holder] in
theorem PushedAt.isPushed {g : CleanerGrace.State n Holder} {holder : Holder} {time : Nat}
    (h : PushedAt g holder time) : IsPushed g holder := by
  rcases h with hlists | ⟨d, hd, heq⟩
  · exact Or.inl ⟨_, hlists, rfl⟩
  · exact Or.inr ⟨d, hd, by rw [heq]⟩

omit [DecidableEq Holder] in
theorem pushedAt_push {g : CleanerGrace.State n Holder} {obj holder : Holder} {time : Nat}
    (h : PushedAt (CleanerGrace.push g obj) holder time) :
    PushedAt g holder time ∨ holder = obj ∧ time = g.now := by
  rcases h with hlists | hdropped
  · have hlists' : ⟨holder, time⟩ ∈ g.cleaner.free ++ g.cleaner.freeCandidates ∨
        (⟨holder, time⟩ : CleanerGrace.Pushed Holder) = ⟨obj, g.now⟩ := by
      simpa [CleanerGrace.push, DescriptorHandlerCleaner.push, or_assoc] using hlists
    rcases hlists' with hold | hnew
    · exact Or.inl (Or.inl hold)
    · simp only [CleanerGrace.Pushed.mk.injEq] at hnew
      exact Or.inr hnew
  · exact Or.inl (Or.inr hdropped)

omit [DecidableEq Holder] in
theorem pushedAt_release {g : CleanerGrace.State n Holder} {i : Fin n} {holder : Holder}
    {time : Nat} (h : PushedAt (CleanerGrace.release g i) holder time) :
    PushedAt g holder time := by
  rcases h with hlists | ⟨d, hd, heq⟩
  · exact Or.inl (mem_of_mem_releaseStep hlists)
  · rcases List.mem_append.mp hd with hold | hnew
    · exact Or.inr ⟨d, hold, heq⟩
    · obtain ⟨x, hx, rfl⟩ := List.mem_map.mp hnew
      obtain rfl : x = ⟨holder, time⟩ := heq
      exact Or.inl (List.mem_append_left _ (mem_free_of_mem_cleared hx))

/-- The thread is behind `epoll_del_fd_` and not yet behind the push. -/
def beforePush (pc : HandlePc) : Prop := pc = .stopped ∨ pc = .reset ∨ pc = .push

theorem applyEffect_workers (s : State n Holder) (holder : Holder)
    (effect : Option HandleEffect) : (applyEffect s holder effect).workers = s.workers := by
  unfold applyEffect
  split <;> rfl

theorem applyEffect_epoll_deleted {s : State n Holder} {holder other : Holder}
    (effect : Option HandleEffect) (h : s.epoll other = .deleted) :
    (applyEffect s holder effect).epoll other = .deleted := by
  unfold applyEffect
  rcases eq_or_ne other holder with rfl | hne
  · split <;> simp [h, EpollEntry.modify]
  · split <;> simp [h, hne]

theorem handleOperation_workers (s : State n Holder) (i : Fin n) (holder : Holder)
    (thread : HandleThread) (remaining : List Holder) (result : CallResult) :
    (handleOperation s i holder thread remaining result).workers =
      update s.workers i
        (if (handleStep (s.holders holder) thread result).thread.pc = .unwound then
          ⟨.returned, [], none, (s.workers i).stop⟩
        else ⟨.batch, remaining,
          some (holder, (handleStep (s.holders holder) thread result).thread),
          (s.workers i).stop⟩) := by
  unfold handleOperation
  dsimp only
  split
  · rfl
  · simp only [State.setWorker, applyEffect_workers]

theorem handleOperation_epoll_deleted {s : State n Holder} {i : Fin n} {holder other : Holder}
    {thread : HandleThread} {remaining : List Holder} {result : CallResult}
    (h : s.epoll other = .deleted) :
    (handleOperation s i holder thread remaining result).epoll other = .deleted := by
  unfold handleOperation
  dsimp only
  split
  · exact h
  · exact applyEffect_epoll_deleted _ h

omit [DecidableEq Holder] in
theorem releaseOperation_epoll (s : State n Holder) (i : Fin n) (worker : Worker Holder) :
    (releaseOperation s i worker).epoll = s.epoll := by
  unfold releaseOperation
  dsimp only
  split <;> rfl

omit [DecidableEq Holder] in
theorem releaseOperation_workers (s : State n Holder) (i : Fin n) (worker : Worker Holder) :
    (releaseOperation s i worker).workers = s.workers ∨
      (releaseOperation s i worker).workers = update s.workers i worker := by
  unfold releaseOperation
  dsimp only
  split
  · exact Or.inr rfl
  · exact Or.inl rfl

/-- A deleted entry stays deleted. -/
theorem epoll_deleted_of_step {s t : State n Holder} {a : Action n Holder}
    (hstep : step s a = some t) {holder : Holder} (h : s.epoll holder = .deleted) :
    t.epoll holder = .deleted := by
  cases stepped_of_step hstep with
  | add added habsent =>
      have hne : holder ≠ added := by
        rintro rfl
        rw [habsent] at h
        cases h
      simp [hne, h]
  | rearm rearmed =>
      rcases eq_or_ne holder rearmed with rfl | hne
      · simp [h, EpollEntry.modify]
      · simp [hne, h]
  | wait i events harmed =>
      have hnot : holder ∉ events := by
        intro hmem
        have harm := harmed holder hmem
        rw [h] at harm
        cases harm
      simp [State.setWorker, hnot, h]
  | batchRelease | release => rw [releaseOperation_epoll]; exact h
  | handle | begin => exact handleOperation_epoll_deleted h
  | finish => exact h

/-- Events are fetched of armed holders, and only taken from a batch otherwise. -/
theorem remaining_of_step {s t : State n Holder} {a : Action n Holder}
    (hstep : step s a = some t) {k : Fin n} {holder : Holder}
    (h : holder ∈ (t.workers k).remaining) :
    holder ∈ (s.workers k).remaining ∨ s.epoll holder = .armed := by
  -- a step that only takes events from the batch of one worker
  have hupdate : ∀ (i : Fin n) (worker : Worker Holder),
      (∀ x ∈ worker.remaining, x ∈ (s.workers i).remaining) →
      t.workers = update s.workers i worker → holder ∈ (s.workers k).remaining := by
    intro i worker hsub heq
    rw [heq] at h
    rcases eq_or_ne k i with rfl | hne
    · rw [update_self] at h
      exact hsub holder h
    · rwa [update_of_ne hne] at h
  cases stepped_of_step hstep with
  | add | rearm => exact Or.inl h
  | wait i events harmed =>
      rcases eq_or_ne k i with rfl | hne
      · simp only [State.setWorker, update_self] at h
        exact Or.inr (harmed holder h)
      · simp only [State.setWorker, update_of_ne hne] at h
        exact Or.inl h
  | batchRelease i result hphase =>
      rcases releaseOperation_workers s i ⟨.waiting, [], none, false⟩ with hsame | heq
      · exact Or.inl (hsame ▸ h)
      · exact Or.inl (hupdate i _ (by simp) heq)
  | release i result current thread hphase hcurrent hpc =>
      rcases releaseOperation_workers s i ⟨.batch, (s.workers i).remaining, none,
        (s.workers i).stop || thread.stopProcessing⟩ with hsame | heq
      · exact Or.inl (hsame ▸ h)
      · refine Or.inl (hupdate i _ ?_ heq)
        exact fun x hx => hx
  | handle i result current thread hphase hcurrent hpc =>
      refine Or.inl (hupdate i _ ?_ (handleOperation_workers ..))
      split <;> simp
  | begin i result current remaining hphase hcurrent hremaining =>
      refine Or.inl (hupdate i _ ?_ (handleOperation_workers ..))
      rw [hremaining]
      split
      · simp
      · exact fun x hx => List.mem_cons_of_mem _ hx
  | finish i result worker hphase hcurrent hworker =>
      exact Or.inl (hupdate i worker (by simp [hworker.1]) rfl)

/-- A thread that stands before the push did so before, or has just deleted the
entry. -/
theorem handleStep_beforePush {holder : DescriptorHandlerHolder} {thread : HandleThread}
    {result : CallResult} (h : beforePush (handleStep holder thread result).thread.pc) :
    beforePush thread.pc ∨
      (handleStep holder thread result).effect = some .epollDel := by
  unfold handleStep at h ⊢
  cases hpc : thread.pc <;> simp only [hpc] at h ⊢
  case stopped | reset | push => simp [beforePush]
  all_goals
    (repeat' split at h) <;> cases result <;>
      simp_all [HandleThread.goto, HandleThread.afterCall, applyToHolder, beforePush]

/-- An operation of `handle_` that leaves its thread before the push. -/
theorem handleOperation_beforePush {s : State n Holder} {i : Fin n} {holder : Holder}
    {thread : HandleThread} {remaining : List Holder} {result : CallResult}
    (hbefore : beforePush thread.pc → s.epoll holder = .deleted)
    (h : beforePush (handleStep (s.holders holder) thread result).thread.pc) :
    (handleOperation s i holder thread remaining result).epoll holder = .deleted := by
  rcases handleStep_beforePush h with hthread | heffect
  · exact handleOperation_epoll_deleted (hbefore hthread)
  · unfold handleOperation
    dsimp only
    split
    · rename_i hunwound
      simp [hunwound, beforePush] at h
    · simp [heffect, applyEffect, State.setWorker]

/-- Where the locals of a worker thread come from. -/
theorem current_of_step {s t : State n Holder} {a : Action n Holder}
    (hstep : step s a = some t)
    (hdeleted : ∀ i holder thread, (s.workers i).current = some (holder, thread) →
      beforePush thread.pc → s.epoll holder = .deleted)
    {k : Fin n} {holder : Holder} {thread : HandleThread}
    (hcurrent : (t.workers k).current = some (holder, thread)) (hpc : beforePush thread.pc) :
    t.epoll holder = .deleted := by
  -- the locals were the same before, and a deleted entry stays deleted
  have hkept : t.workers k = s.workers k → t.epoll holder = .deleted := fun heq =>
    epoll_deleted_of_step hstep (hdeleted k holder thread (heq ▸ hcurrent) hpc)
  have hupdate : ∀ (i : Fin n) (worker : Worker Holder),
      t.workers = update s.workers i worker →
      (worker.current = some (holder, thread) → t.epoll holder = .deleted) →
      t.epoll holder = .deleted := by
    intro i worker heq hnew
    rcases eq_or_ne k i with rfl | hne
    · rw [heq, update_self] at hcurrent
      exact hnew hcurrent
    · exact hkept (by rw [heq, update_of_ne hne])
  have hhandled : ∀ (i : Fin n) (result : CallResult) (holder' : Holder) (thread' : HandleThread)
      (remaining : List Holder), t = handleOperation s i holder' thread' remaining result →
      (beforePush thread'.pc → s.epoll holder' = .deleted) → t.epoll holder = .deleted := by
    rintro i result holder' thread' remaining rfl hbefore
    refine hupdate i _ (handleOperation_workers ..) fun hnew => ?_
    split at hnew
    · cases hnew
    · obtain ⟨rfl, rfl⟩ := Prod.mk.inj (Option.some.inj hnew)
      exact handleOperation_beforePush hbefore hpc
  cases stepped_of_step hstep with
  | add | rearm => exact hkept rfl
  | wait i events harmed => exact hupdate i _ rfl (by simp)
  | batchRelease i result hphase =>
      rcases releaseOperation_workers s i ⟨.waiting, [], none, false⟩ with hsame | heq
      · exact hkept (by rw [hsame])
      · exact hupdate i _ heq (by simp)
  | release i result current thread' hphase hcurrent' hpc' =>
      rcases releaseOperation_workers s i ⟨.batch, (s.workers i).remaining, none,
        (s.workers i).stop || thread'.stopProcessing⟩ with hsame | heq
      · exact hkept (by rw [hsame])
      · exact hupdate i _ heq (by simp)
  | handle i result current thread' hphase hcurrent' hpc' =>
      exact hhandled i result current thread' _ rfl (hdeleted i current thread' hcurrent')
  | begin i result current remaining hphase hcurrent' hremaining =>
      exact hhandled i result current .initial remaining rfl
        (by simp [HandleThread.initial, beforePush])
  | finish i result worker hphase hcurrent' hworker =>
      exact hupdate i worker rfl (by simp [hworker.2])

/-! ## The invariant -/

/-- Pushed holders are out of `epoll`, and a thread with an event of one has not
begun a `release` since the push. -/
structure Tracked (s : State n Holder) : Prop where
  timed : CleanerGrace.Timed s.grace
  deleted : ∀ i holder thread, (s.workers i).current = some (holder, thread) →
    beforePush thread.pc → s.epoll holder = .deleted
  pushedDeleted : ∀ holder time, PushedAt s.grace holder time → s.epoll holder = .deleted
  aged : ∀ i holder time, holder ∈ (s.workers i).remaining → PushedAt s.grace holder time →
    s.grace.callBegin i < time
  executed_le : ∀ d ∈ s.grace.dropped, ∀ i, d.executed i ≤ s.grace.callBegin i

omit [DecidableEq Holder] in
theorem tracked_init : Tracked (initial n Holder) where
  timed := ⟨by simp [initial, CleanerGrace.initial, DescriptorHandlerCleaner.initial],
    fun _ => Nat.le_refl _, fun _ => Nat.one_pos, fun _ _ => rfl⟩
  deleted := fun i holder thread h => by simp [initial] at h
  pushedDeleted := fun holder time h => by
    simp [initial, CleanerGrace.initial, DescriptorHandlerCleaner.initial, PushedAt] at h
  aged := fun i holder time h => by simp [initial] at h
  executed_le := fun d hd => by simp [initial, CleanerGrace.initial] at hd

omit [DecidableEq Holder] in
/-- The thread that pushes a holder has deleted its entry. -/
theorem Tracked.deleted_of_push {s : State n Holder} (hs : Tracked s) {a : Action n Holder}
    {holder : Holder} (hpush : cleanerAction s a = some (.push holder)) :
    s.epoll holder = .deleted := by
  cases a with
  | work i result =>
      unfold cleanerAction at hpush
      cases hphase : (s.workers i).phase <;> simp only [hphase] at hpush <;> try cases hpush
      cases hcurrent : (s.workers i).current with
      | none => simp [hcurrent] at hpush
      | some pair =>
          obtain ⟨holder', thread⟩ := pair
          simp only [hcurrent] at hpush
          split at hpush
          · cases hpush
          · split at hpush
            · rename_i hpc
              simp only [Option.some.injEq, DescriptorHandlerCleaner.Action.push.injEq] at hpush
              subst hpush
              exact hs.deleted i _ thread hcurrent (Or.inr (Or.inr hpc))
            · cases hpush
  | _ => cases hpush

/-- A fresh event is of a holder that was never pushed. -/
theorem Tracked.remaining_before {s t : State n Holder} {a : Action n Holder} (hs : Tracked s)
    (hstep : Lifetime.step s a = some t) {k : Fin n} {holder : Holder} {time : Nat}
    (hmem : holder ∈ (t.workers k).remaining) (hpushed : PushedAt s.grace holder time) :
    holder ∈ (s.workers k).remaining := by
  apply (remaining_of_step hstep hmem).resolve_right
  intro harmed
  rw [hs.pushedDeleted holder time hpushed] at harmed
  cases harmed

/-- A push is younger than every call that has begun. -/
theorem Tracked.push {s t : State n Holder} {a : Action n Holder} (hs : Tracked s)
    (hstep : Lifetime.step s a = some t) {holder : Holder}
    (hpush : cleanerAction s a = some (.push holder))
    (hgrace : t.grace = CleanerGrace.push s.grace holder) : Tracked t := by
  have hgone := hs.deleted_of_push hpush
  refine ⟨hgrace ▸ hs.timed.push holder, fun _ _ _ => current_of_step hstep hs.deleted,
    ?_, ?_, ?_⟩
  · intro other time h
    rw [hgrace] at h
    rcases pushedAt_push h with hold | ⟨rfl, -⟩
    · exact epoll_deleted_of_step hstep (hs.pushedDeleted other time hold)
    · exact epoll_deleted_of_step hstep hgone
  · intro i other time hmem h
    rw [hgrace] at h ⊢
    rcases pushedAt_push h with hold | ⟨-, rfl⟩
    · exact hs.aged i other time (hs.remaining_before hstep hmem hold) hold
    · exact hs.timed.begin_lt i
  · intro d hd i
    rw [hgrace] at hd ⊢
    exact hs.executed_le d hd i

/-- A call that begins has no pushed holder behind it in its batch. -/
theorem Tracked.release {s t : State n Holder} {a : Action n Holder} (hs : Tracked s)
    (hsafe : LifetimeSafe s a) (hstep : Lifetime.step s a = some t) {i : Fin n}
    (hrelease : cleanerAction s a = some (.release i))
    (hgrace : t.grace = CleanerGrace.release s.grace i) : Tracked t := by
  refine ⟨hgrace ▸ hs.timed.release i, fun _ _ _ => current_of_step hstep hs.deleted, ?_, ?_, ?_⟩
  · intro other time h
    rw [hgrace] at h
    exact epoll_deleted_of_step hstep (hs.pushedDeleted other time (pushedAt_release h))
  · intro k other time hmem h
    rw [hgrace] at h ⊢
    have hbefore := pushedAt_release h
    have hmem' := hs.remaining_before hstep hmem hbefore
    have hlt := hs.aged k other time hmem' hbefore
    show CleanerGrace.callBeginAfter s.grace i k < time
    rcases eq_or_ne k i with rfl | hne
    · by_cases hidle : s.grace.cleaner.pc k = .idle
      · -- the call begins now, which the guard allows only without pushed holders in the batch
        unfold LifetimeSafe at hsafe
        rw [hrelease] at hsafe
        exact absurd hbefore.isPushed (hsafe.2 hidle other hmem')
      · simpa [CleanerGrace.callBeginAfter, hidle] using hlt
    · rwa [CleanerGrace.callBeginAfter_of_ne s.grace hne]
  · intro d hd k
    rw [hgrace] at hd ⊢
    rcases List.mem_append.mp hd with hold | hnew
    · exact (hs.executed_le d hold k).trans (CleanerGrace.callBegin_le_after hs.timed i k)
    · obtain ⟨x, -, rfl⟩ := List.mem_map.mp hnew
      exact (hs.timed.release i).executed_le k

theorem Tracked.step {s t : State n Holder} {a : Action n Holder} (hs : Tracked s)
    (hsafe : LifetimeSafe s a) (hstep : Lifetime.step s a = some t) : Tracked t := by
  rcases grace_of_step hstep with ⟨b, hb, hgrace⟩ | ⟨-, hsame⟩
  · cases b with
    | push holder => exact hs.push hstep hb (Option.some.inj hgrace).symm
    | release i => exact hs.release hsafe hstep hb (Option.some.inj hgrace).symm
  · refine ⟨hsame ▸ hs.timed, fun _ _ _ => current_of_step hstep hs.deleted, ?_, ?_, ?_⟩
    · intro other time h
      rw [hsame] at h
      exact epoll_deleted_of_step hstep (hs.pushedDeleted other time h)
    · intro i other time hmem h
      rw [hsame] at h ⊢
      exact hs.aged i other time (hs.remaining_before hstep hmem h) h
    · rw [hsame]
      exact hs.executed_le

/-- In every run whose steps are safe, no thread has an event left that points
to a holder that the cleaner has dropped. -/
theorem not_dropped_in_batch (hn : 0 < n) {s : State n Holder}
    (hs : Reachable (system n Holder) LifetimeSafe s) : NotInBatch s := by
  have htracked : Tracked s :=
    hs.invariant tracked_init fun _ _ _ h hsafe hstep => h.step hsafe hstep
  have hgrace := CleanerGrace.gracePeriod_of_graceSafe hn (reachable_grace hs)
  intro d hd i hmem
  -- a drop waits for a call begun after the push, which a thread with the event has not made
  have hyoung := hgrace d hd i
  have hexecuted := htracked.executed_le d hd i
  have hold := htracked.aged i d.pushed.obj d.pushed.time hmem (Or.inr ⟨d, hd, rfl⟩)
  omega

/-- What two handlers return that close both sides, and that go on. -/
def closing : CallResult := .returned (closeReadHandle ||| closeWriteHandle)

def going : CallResult := .returned continueHandle

/-- Thread `0` closes holders `0` and `1` in one batch, and thread `1` has the event of holder
`2`, and has it again when the next two releases of thread `0` have dropped the other ones. -/
theorem dropped_after_batch :
    ∃ s, (system 2 (Fin 3)).run (system 2 (Fin 3)).init
        ([Action.add 0, .add 1, .add 2, .wait 0 [0, 1]] ++
          List.replicate 34 (Action.work 0 closing) ++
          Action.wait 1 [2] :: List.replicate 21 (Action.work 1 going) ++
          [Action.wait 1 [2], .wait 0 []] ++ List.replicate 9 (Action.work 0 going)) = some s ∧
      s.grace.dropped.map (fun d => d.pushed.obj) = [0, 1] ∧ (s.workers 1).remaining = [2] ∧
      NotInBatch s := by
  have hend : ((system 2 (Fin 3)).run (system 2 (Fin 3)).init
      ([Action.add 0, .add 1, .add 2, .wait 0 [0, 1]] ++
        List.replicate 34 (Action.work 0 closing) ++
        Action.wait 1 [2] :: List.replicate 21 (Action.work 1 going) ++
        [Action.wait 1 [2], .wait 0 []] ++ List.replicate 9 (Action.work 0 going))).map
        (fun s => (s.grace.dropped.map (fun d => d.pushed.obj), (s.workers 1).remaining)) =
      some ([0, 1], [2]) := by
    decide +kernel
  obtain ⟨s, hrun, hvalues⟩ := Option.map_eq_some_iff.mp hend
  obtain ⟨hdropped, hbatch⟩ := Prod.mk.inj hvalues
  exact ⟨s, hrun, hdropped, hbatch,
    not_dropped_in_batch (by decide) (Reachable.init.of_run hrun (by decide +kernel))⟩

/-- Thread `0` has the events of three holders in its batch, among them holder `2`,
which was armed again after thread `1` had fetched it.  Thread `1` closes holder
`2` and pushes it; the releases of thread `0` after holders `0` and `1` end two
epochs, and holder `2` is dropped while thread `0` still has its event. -/
theorem dropped_in_batch :
    ∃ s, (system 2 (Fin 3)).run (system 2 (Fin 3)).init
        ([Action.add 0, .add 1, .add 2, .wait 1 [2], .rearm 2, .wait 0 [0, 1, 2]] ++
          List.replicate 17 (Action.work 1 closing) ++ List.replicate 17 (Action.work 0 going) ++
          List.replicate 4 (Action.work 1 going) ++ List.replicate 17 (Action.work 0 going)) =
        some s ∧
      (∃ d ∈ s.grace.dropped, d.pushed.obj = 2) ∧ 2 ∈ (s.workers 0).remaining ∧
      ¬ NotInBatch s := by
  have hend : ((system 2 (Fin 3)).run (system 2 (Fin 3)).init
      ([Action.add 0, .add 1, .add 2, .wait 1 [2], .rearm 2, .wait 0 [0, 1, 2]] ++
        List.replicate 17 (Action.work 1 closing) ++ List.replicate 17 (Action.work 0 going) ++
        List.replicate 4 (Action.work 1 going) ++ List.replicate 17 (Action.work 0 going))).map
        (fun s => decide ((∃ d ∈ s.grace.dropped, d.pushed.obj = 2) ∧
          2 ∈ (s.workers 0).remaining)) = some true := by
    decide +kernel
  obtain ⟨s, hrun, hvalues⟩ := Option.map_eq_some_iff.mp hend
  obtain ⟨⟨d, hd, hobj⟩, hmem⟩ := of_decide_eq_true hvalues
  refine ⟨s, hrun, ⟨d, hd, hobj⟩, hmem, fun hnot => ?_⟩
  exact hnot d hd 0 (hobj ▸ hmem)

end Lifetime
end LiteMQ
