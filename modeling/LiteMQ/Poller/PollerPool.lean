import LiteMQ.Foundation.Trace
import LiteMQ.Poller.AcceptedConnections
import Mathlib.Data.Int.CardIntervalMod

/-!
# The pollers of a pool take turns

`DescriptorHandlerPollerPool::add` takes the next poller under a lock and registers the
handler with it behind the lock, so the registrations of several threads can overtake each
other.  The turns do not depend on that.
-/

namespace LiteMQ
namespace Acceptor

open TransitionSystem

/-- The poller that an `add` of the pool has taken. -/
def picked {Thread : Type*} (s : State Thread) : Action Thread → Option Nat
  | .add _ | .otherAdd => some s.pollerIt
  | _ => none

/-- The handler on its way to `poller`. -/
def Pc.bound (poller : Nat) : Pc → Int
  | .register _ _ p => if p = poller then 1 else 0
  | _ => 0

/-- The connections of the acceptor that have come to a poller or are on their way. -/
def State.load {Thread : Type*} [Fintype Thread] (s : State Thread) (poller : Nat) : Int :=
  Counting.total (Pc.bound poller) s.pcs + (s.registered poller).length +
    (s.unregistered poller).length

section RoundRobin

variable {Thread : Type*} [DecidableEq Thread] [Fintype Thread] {pollers : Nat}
  {s t : State Thread} {i : Thread} {pc : Pc} {a : Action Thread}

theorem nextPoller_mod (hpollers : 0 < pollers) (n : Nat) :
    nextPoller pollers (n % pollers) = (n + 1) % pollers := by
  have hlt := Nat.mod_lt n hpollers
  rw [nextPoller, ← Nat.mod_add_mod]
  split
  · rename_i hlast
    rw [hlast, Nat.mod_self]
  · exact (Nat.mod_eq_of_lt (by omega)).symm

/-- A pass over the first `n` numbers. -/
theorem count_map_mod {p : Nat} (hp : p < pollers) (n : Nat) :
    ((List.range n).map (· % pollers)).count p =
      n / pollers + if p < n % pollers then 1 else 0 := by
  have hcount : ((List.range n).map (· % pollers)).count p =
      Nat.count (· ≡ p [MOD pollers]) n := by
    induction n with
    | zero => rfl
    | succ n ih =>
        rw [List.range_succ, List.map_append, List.count_append, ih, Nat.count_succ,
          List.map_singleton, List.count_singleton]
        simp [Nat.ModEq, Nat.mod_eq_of_lt hp]
  rw [hcount, Nat.count_modEq_card n (by omega : 0 < pollers), Nat.mod_eq_of_lt hp]

/-- A step of a worker that is not at the pool. -/
theorem picked_goTo (hpicked : picked s a = none) (hpollerIt : t.pollerIt = s.pollerIt)
    (hpcs : t.pcs = Function.update s.pcs i pc) (hbound : ∀ p, pc.bound p = (s.pcs i).bound p)
    (hregistered : t.registered = s.registered) (hunregistered : t.unregistered = s.unregistered) :
    (picked s a = none ∧ t.pollerIt = s.pollerIt ∨
      picked s a = some s.pollerIt ∧ t.pollerIt = nextPoller pollers s.pollerIt) ∧
    ∀ p, t.load p ≤ s.load p + (picked s a).toList.count p := by
  refine ⟨Or.inl ⟨hpicked, hpollerIt⟩, fun p => ?_⟩
  rw [State.load, State.load, hpcs, hregistered, hunregistered, Counting.total_update, hbound]
  omega

/-- A step picks the next poller, or none, and a poller gets no handler that was not picked
for it. -/
theorem picked_step (h : Acceptor.step pollers s a = some t) :
    (picked s a = none ∧ t.pollerIt = s.pollerIt ∨
      picked s a = some s.pollerIt ∧ t.pollerIt = nextPoller pollers s.pollerIt) ∧
    ∀ p, t.load p ≤ s.load p + (picked s a).toList.count p := by
  cases step_cases h with
  | connect => exact ⟨Or.inl ⟨rfl, rfl⟩, fun p => by simp [picked, State.load]⟩
  | otherAdd => exact ⟨Or.inr ⟨rfl, rfl⟩, fun p => by simp [picked, State.load]⟩
  | add i side connection hpc =>
      refine ⟨Or.inr ⟨rfl, rfl⟩, fun p => ?_⟩
      simp only [State.load, Counting.total_update, hpc, Pc.bound, picked, Option.toList_some,
        List.count_singleton, beq_iff_eq]
      split <;> omega
  | registered i side connection poller hpc | unregistered i side connection poller hpc =>
      refine ⟨Or.inl ⟨rfl, rfl⟩, fun p => ?_⟩
      by_cases hp : p = poller
      · subst hp
        simp [State.load, Counting.total_update, hpc, Pc.bound, picked]
        omega
      · simp [State.load, Counting.total_update, hpc, Pc.bound, picked, hp, Ne.symm hp]
  | accepted i side connection rest hpc =>
      exact picked_goTo rfl rfl rfl (fun p => by rw [hpc]; rfl) rfl rfl
  | again i side hpc =>
      exact picked_goTo rfl rfl rfl (fun p => by rw [hpc]; cases side <;> rfl) rfl rfl
  | failed i side hpc => exact picked_goTo rfl rfl rfl (fun p => by rw [hpc]; rfl) rfl rfl
  | created i side connection hpc | refused i side connection hpc =>
      exact picked_goTo rfl rfl rfl (fun p => by rw [hpc]; rfl) rfl rfl
  | enter i hpc | leave i hpc =>
      exact picked_goTo rfl rfl rfl (fun p => by rw [hpc]; split <;> rfl) rfl rfl
  | epollWait i haway => exact picked_goTo rfl rfl rfl (fun p => by rw [haway]; rfl) rfl rfl
  | reach i hpc | otherThrew i hpc =>
      exact picked_goTo rfl rfl rfl (fun p => by rw [hpc]; rfl) rfl rfl
  | rearm i done hpc => exact picked_goTo rfl rfl rfl (fun p => by rw [hpc]; rfl) rfl rfl

/-- **Round robin.**  However the threads that call `add` come in between each other, the
`k`-th call takes the poller `k % pollers`, so that the pollers get the same number of
handlers up to one; and none gets a connection that was not taken for it. -/
theorem round_robin (hpollers : 0 < pollers) {s : Logged (State Thread) Nat}
    (hs : Reachable ((system Thread pollers).logged picked) unguarded s) :
    s.log = (List.range s.log.length).map (· % pollers) ∧
      ∀ p < pollers, s.log.count p = s.log.length / pollers +
          (if p < s.log.length % pollers then 1 else 0) ∧
        (s.state.registered p).length + (s.state.unregistered p).length ≤ s.log.count p := by
  have hinit : ∀ p, ((system Thread pollers).logged picked).init.state.load p = 0 := by
    intro p
    simp [logged, system, State.load, Counting.total, Pc.bound]
  have hinv : s.log = (List.range s.log.length).map (· % pollers) ∧
      s.state.pollerIt = s.log.length % pollers ∧ ∀ p, s.state.load p ≤ s.log.count p := by
    induction hs with
    | init => exact ⟨rfl, (Nat.zero_mod _).symm, fun p => (hinit p).le⟩
    | step _ _ h ih =>
        obtain ⟨hlog, hpollerIt, hload⟩ := ih
        obtain ⟨hstep, happend⟩ := logged_step_eq_some.mp h
        obtain ⟨⟨hpicked, hnext⟩ | ⟨hpicked, hnext⟩, hle⟩ := picked_step hstep
        · simp only [hpicked, Option.toList_none, List.append_nil, List.count_nil,
            Nat.cast_zero, Int.add_zero] at happend hle
          rw [happend]
          exact ⟨hlog, hnext.trans hpollerIt, fun p => (hle p).trans (hload p)⟩
        · rw [hpicked, hpollerIt, Option.toList_some] at happend
          simp only [hpicked, hpollerIt, Option.toList_some] at hle
          rw [happend, List.length_append, List.length_singleton]
          refine ⟨?_, ?_, fun p => ?_⟩
          · rw [List.range_succ, List.map_append, ← hlog, List.map_singleton]
          · rw [hnext, hpollerIt, nextPoller_mod hpollers]
          · have hp := hle p
            have hbefore := hload p
            rw [List.count_append]
            push_cast
            omega
  obtain ⟨hlog, -, hload⟩ := hinv
  refine ⟨hlog, fun p hp => ⟨?_, ?_⟩⟩
  · conv_lhs => rw [hlog]
    exact count_map_mod hp _
  · have htotal : 0 ≤ Counting.total (Pc.bound p) s.state.pcs := by
      refine Finset.sum_nonneg fun i _ => ?_
      unfold Pc.bound
      split
      · split <;> decide
      · exact le_rfl
    have hp := hload p
    rw [State.load] at hp
    omega

end RoundRobin

/-- Behind the first pass each of two pollers has one connection. -/
theorem round_robin_firstPass :
    ∃ s : Logged (State Bool) Nat, s.log = [0, 1] ∧ (s.state.registered 1).length ≤ 1 := by
  have hend : (((system Bool 2).logged picked).run ((system Bool 2).logged picked).init
      (.connect :: .connect :: firstPass)).map (fun s => s.log) = some [0, 1] := by
    decide +kernel
  obtain ⟨s, hrun, hlog⟩ := Option.map_eq_some_iff.mp hend
  have hs : Reachable ((system Bool 2).logged picked) unguarded s :=
    Reachable.of_run .init hrun (meets_unguarded _ _)
  have hload := ((round_robin (by decide) hs).2 1 (by decide)).2
  rw [hlog, show List.count 1 [0, 1] = 1 from rfl] at hload
  exact ⟨s, hlog, by omega⟩

end Acceptor
end LiteMQ
