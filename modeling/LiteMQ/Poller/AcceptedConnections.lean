import LiteMQ.Foundation.Counting
import LiteMQ.Poller.Acceptor

/-!
# Connections on their way to the pollers

Each connection that has arrived is in one place: in the backlog, with a worker that has
accepted it, or with a poller.  They are accepted in the order in which they came, and as
long as nothing throws a connection does not wait longer than it takes the workers to accept
those before it.
-/

namespace LiteMQ
namespace Acceptor

open TransitionSystem

/-! ## Where the connections are -/

inductive Place (Thread : Type*)
  | backlog
  | hand (i : Thread)
  | refused
  | registered (poller : Nat)
  | unregistered (poller : Nat)

/-- How often a connection is in a place. -/
def State.places {Thread : Type*} (s : State Thread) (connection : Nat) : Place Thread → Nat
  | .backlog => s.backlog.count connection
  | .hand i => (s.pcs i).hand.toList.count connection
  | .refused => s.refused.count connection
  | .registered poller => (s.registered poller).count connection
  | .unregistered poller => (s.unregistered poller).count connection

section Places

variable {Thread : Type*} [DecidableEq Thread] {pollers : Nat} {s t : State Thread} {i : Thread}
  {pc : Pc}

/-- The connections that have arrived are in one place each. -/
def Conserved {Thread : Type*} (s : State Thread) : Prop :=
  ∀ connection, (connection < s.arrived → Ledger.InOnePlace (s.places connection)) ∧
    (s.arrived ≤ connection → Ledger.Nowhere (s.places connection))

omit [DecidableEq Thread] in
/-- A step that moves connections between two places. -/
theorem Conserved.moved (hs : Conserved s) (harrived : t.arrived = s.arrived)
    {p q : Place Thread} (hpq : p ≠ q)
    (h : ∀ connection, Ledger.Moved (s.places connection) (t.places connection) p q) :
    Conserved t := by
  intro connection
  rw [harrived]
  exact ⟨fun hlt => (h connection).inOnePlace hpq ((hs connection).1 hlt),
    fun hge => (h connection).nowhere ((hs connection).2 hge)⟩

/-- A step of a worker that keeps what it has in its hand. -/
theorem Conserved.goTo (hs : Conserved s) (harrived : t.arrived = s.arrived)
    (hpcs : t.pcs = Function.update s.pcs i pc) (hhand : pc.hand = (s.pcs i).hand)
    (hbacklog : t.backlog = s.backlog) (hrefused : t.refused = s.refused)
    (hregistered : t.registered = s.registered) (hunregistered : t.unregistered = s.unregistered) :
    Conserved t := by
  have hplaces : t.places = s.places := by
    funext connection place
    cases place with
    | hand j =>
        by_cases hji : j = i
        · subst hji
          simp [State.places, hpcs, hhand]
        · simp [State.places, hpcs, hji]
    | _ => simp [State.places, hbacklog, hrefused, hregistered, hunregistered]
  intro connection
  rw [harrived, hplaces]
  exact hs connection

omit [DecidableEq Thread] in
/-- A new connection. -/
theorem Conserved.connect (hs : Conserved s) :
    Conserved { s with arrived := s.arrived + 1, backlog := s.backlog ++ [s.arrived] } := by
  intro connection
  rcases eq_or_ne connection s.arrived with rfl | hne
  · have hadded : Ledger.Added (s.places s.arrived)
        (State.places { s with arrived := s.arrived + 1, backlog := s.backlog ++ [s.arrived] }
          s.arrived) .backlog := by
      refine ⟨by simp [State.places], fun place hplace => ?_⟩
      cases place with
      | backlog => exact absurd rfl hplace
      | _ => rfl
    exact ⟨fun _ => hadded.inOnePlace ((hs s.arrived).2 le_rfl),
      fun h => absurd h (Nat.not_succ_le_self _)⟩
  · have hsame : State.places
        { s with arrived := s.arrived + 1, backlog := s.backlog ++ [s.arrived] } connection =
          s.places connection := by
      funext place
      cases place with
      | backlog => simp [State.places, Ne.symm hne]
      | _ => rfl
    rw [hsame]
    change (connection < s.arrived + 1 → _) ∧ (s.arrived + 1 ≤ connection → _)
    exact ⟨fun h => (hs connection).1 (by omega), fun h => (hs connection).2 (by omega)⟩

/-- `::accept` takes a connection from the backlog. -/
theorem Conserved.accepted (hs : Conserved s) {side : Side} {connection : Nat} {rest : List Nat}
    (hpc : s.pcs i = .accept side) (hbacklog : s.backlog = connection :: rest) :
    Conserved { s with
      pcs := Function.update s.pcs i (.create side connection), backlog := rest } := by
  refine hs.moved rfl (p := .backlog) (q := .hand i) (by simp) fun c => ⟨?_, ?_⟩
  · simp [State.places, hpc, hbacklog, Pc.hand, List.count_cons]
  · intro place hp hq
    cases place with
    | backlog => exact absurd rfl hp
    | hand j =>
        have hji : j ≠ i := by simpa using hq
        simp [State.places, hji]
    | _ => rfl

/-- `create_descriptor_handler` refuses a connection. -/
theorem Conserved.refused (hs : Conserved s) {side : Side} {connection : Nat}
    (hpc : s.pcs i = .create side connection) :
    Conserved { s with
      pcs := Function.update s.pcs i (.accept side), refused := connection :: s.refused } := by
  refine hs.moved rfl (p := .hand i) (q := .refused) (by simp) fun c => ⟨?_, ?_⟩
  · simp [State.places, hpc, Pc.hand, List.count_cons, Nat.add_comm]
  · intro place hp hq
    cases place with
    | refused => exact absurd rfl hq
    | hand j =>
        have hji : j ≠ i := by simpa using hp
        simp [State.places, hji]
    | _ => rfl

/-- `add` of a poller returns. -/
theorem Conserved.registered (hs : Conserved s) {side : Side} {connection poller : Nat}
    (hpc : s.pcs i = .register side connection poller) :
    Conserved { s with
      pcs := Function.update s.pcs i (.accept side)
      registered := Function.update s.registered poller
        (connection :: s.registered poller) } := by
  refine hs.moved rfl (p := .hand i) (q := .registered poller) (by simp) fun c => ⟨?_, ?_⟩
  · simp [State.places, hpc, Pc.hand, List.count_cons, Nat.add_comm]
  · intro place hp hq
    cases place with
    | registered q =>
        have hqp : q ≠ poller := by simpa using hq
        simp [State.places, hqp]
    | hand j =>
        have hji : j ≠ i := by simpa using hp
        simp [State.places, hji]
    | _ => rfl

/-- `add` of a poller throws. -/
theorem Conserved.unregistered (hs : Conserved s) {side : Side} {connection poller : Nat}
    (hpc : s.pcs i = .register side connection poller) :
    Conserved { s with
      pcs := Function.update s.pcs i .away
      unregistered := Function.update s.unregistered poller
        (connection :: s.unregistered poller) } := by
  refine hs.moved rfl (p := .hand i) (q := .unregistered poller) (by simp) fun c => ⟨?_, ?_⟩
  · simp [State.places, hpc, Pc.hand, List.count_cons, Nat.add_comm]
  · intro place hp hq
    cases place with
    | unregistered q =>
        have hqp : q ≠ poller := by simpa using hq
        simp [State.places, hqp]
    | hand j =>
        have hji : j ≠ i := by simpa using hp
        simp [State.places, hji]
    | _ => rfl

/-- Every step keeps each connection in one place. -/
theorem Conserved.step {a : Action Thread} (hs : Conserved s)
    (h : Acceptor.step pollers s a = some t) : Conserved t := by
  cases step_cases h with
  | connect => exact hs.connect
  | otherAdd => exact hs
  | accepted i side connection rest hpc hbacklog => exact hs.accepted hpc hbacklog
  | refused i side connection hpc => exact hs.refused hpc
  | registered i side connection poller hpc => exact hs.registered hpc
  | unregistered i side connection poller hpc => exact hs.unregistered hpc
  | again i side hpc =>
      exact hs.goTo rfl rfl (by cases side <;> simp [hpc, Side.behind, Pc.hand]) rfl rfl rfl rfl
  | enter i hpc | leave i hpc =>
      exact hs.goTo rfl rfl (by rw [hpc]; split <;> rfl) rfl rfl rfl rfl
  | epollWait i haway => exact hs.goTo rfl rfl (by simp [haway, Pc.hand]) rfl rfl rfl rfl
  | failed i side hpc => exact hs.goTo rfl rfl (by simp [hpc, Pc.hand]) rfl rfl rfl rfl
  | created i side connection hpc | add i side connection hpc =>
      exact hs.goTo rfl rfl (by simp [hpc, Pc.hand]) rfl rfl rfl rfl
  | reach i hpc | otherThrew i hpc =>
      exact hs.goTo rfl rfl (by simp [hpc, Pc.hand]) rfl rfl rfl rfl
  | rearm i done hpc => exact hs.goTo rfl rfl (by simp [hpc, Pc.hand]) rfl rfl rfl rfl

theorem conserved_init (Thread : Type*) [DecidableEq Thread] (pollers : Nat) :
    Conserved (system Thread pollers).init := by
  refine fun connection => ⟨fun h => absurd h (Nat.not_lt_zero _), fun _ place => ?_⟩
  cases place <;> rfl

/-- The backlog holds what has arrived and was not accepted, in this order. -/
def InOrder {Thread : Type*} (s : State Thread) (accepted : Nat) : Prop :=
  accepted ≤ s.arrived ∧ s.backlog = (List.range s.arrived).drop accepted

/-- `::accept` takes the first connection, and no other step takes one. -/
theorem InOrder.step {accepted : Nat} {a : Action Thread} (hs : InOrder s accepted)
    (h : Acceptor.step pollers s a = some t) :
    s.arrived ≤ t.arrived ∧ (InOrder t accepted ∨ InOrder t (accepted + 1)) := by
  obtain ⟨hle, hbacklog⟩ := hs
  cases step_cases h with
  | connect =>
      refine ⟨Nat.le_succ _, Or.inl ⟨Nat.le_succ_of_le hle, ?_⟩⟩
      change s.backlog ++ [s.arrived] = (List.range (s.arrived + 1)).drop accepted
      rw [List.range_succ, List.drop_append_of_le_length (by simpa using hle), hbacklog]
  | accepted i side connection rest hpc hcons =>
      have hlt : accepted < s.arrived := by
        by_contra hge
        rw [hbacklog, List.drop_eq_nil_of_le (by simpa using hge)] at hcons
        cases hcons
      refine ⟨le_rfl, Or.inr ⟨hlt, ?_⟩⟩
      change rest = (List.range s.arrived).drop (accepted + 1)
      rw [← List.tail_drop, ← hbacklog, hcons, List.tail_cons]
  | _ => exact ⟨le_rfl, Or.inl ⟨hle, hbacklog⟩⟩

theorem inOrder_init (Thread : Type*) [DecidableEq Thread] (pollers : Nat) :
    InOrder (system Thread pollers).init 0 := ⟨le_rfl, rfl⟩

/-- **No connection is lost or taken twice.**  Whatever fails, each connection that has
arrived is in the backlog, with one worker, or with one poller, once; and they are accepted
in the order in which they came. -/
theorem connection_in_one_place (hs : Reachable (system Thread pollers) unguarded s) :
    (∀ connection < s.arrived, Ledger.InOnePlace (s.places connection)) ∧
      ∃ accepted ≤ s.arrived, s.backlog = (List.range s.arrived).drop accepted := by
  have hboth : Conserved s ∧ ∃ accepted, InOrder s accepted := by
    have hkept : ∀ (s : State Thread) a t, (Conserved s ∧ ∃ accepted, InOrder s accepted) →
        unguarded s a → (system Thread pollers).step s a = some t →
        Conserved t ∧ ∃ accepted, InOrder t accepted := by
      rintro s a t ⟨hs, accepted, horder⟩ - h
      rcases (horder.step h).2 with hsame | hnext
      · exact ⟨hs.step h, accepted, hsame⟩
      · exact ⟨hs.step h, accepted + 1, hnext⟩
    exact hs.invariant ⟨conserved_init Thread pollers, 0, inOrder_init Thread pollers⟩ hkept
  obtain ⟨hconserved, accepted, hle, hbacklog⟩ := hboth
  exact ⟨fun connection h => (hconserved connection).1 h, accepted, hle, hbacklog⟩

end Places

/-- While the second connection waits, the first one is with its poller. -/
theorem connection_in_one_place_failed :
    ∃ t, (system Bool 2).run (system Bool 2).init failedAccept = some t ∧
      t.registered 0 = [0] ∧ Ledger.InOnePlace (t.places 0) := by
  have hend : ((system Bool 2).run (system Bool 2).init failedAccept).map
      (fun t => (t.arrived, t.registered 0)) = some (2, [0]) := by
    decide +kernel
  obtain ⟨t, hrun, hvalues⟩ := Option.map_eq_some_iff.mp hend
  obtain ⟨harrived, hregistered⟩ := Prod.mk.inj hvalues
  have ht : Reachable (system Bool 2) unguarded t :=
    Reachable.of_run .init hrun (meets_unguarded _ _)
  exact ⟨t, hrun, hregistered, (connection_in_one_place ht).1 0 (by omega)⟩

/-! ## How long a connection waits -/

/-- The steps of the workers. -/
def Action.ofWorker {Thread : Type*} : Action Thread → Bool
  | .connect | .otherAdd => false
  | _ => true

/-- How many steps are between the worker and `::accept`, when a connection is waiting. -/
def Pc.stage : Pc → Nat
  | .away | .accept _ => 0
  | .batch => 2
  | .enter => 1
  | .create _ _ => 3
  | .add _ _ => 2
  | .register _ _ _ => 1
  | .leave => 5
  | .rearm => 4

section Waiting

variable {Thread : Type*} [DecidableEq Thread] [Fintype Thread] {pollers : Nat}
  {s t : State Thread} {i : Thread} {pc : Pc} {connection accepted : Nat} {a : Action Thread}

/-- The same for whoever has the event. -/
def State.stage {Thread : Type*} [Fintype Thread] (s : State Thread) : Nat :=
  if s.armed then 3 else ∑ i, (s.pcs i).stage

/-- How many steps of the workers a connection waits at most. -/
def State.rank {Thread : Type*} [Fintype Thread] (s : State Thread) (connection : Nat) : Nat :=
  let accepted := s.arrived - s.backlog.length
  if connection < accepted then 0 else 4 * (connection - accepted) + s.stage + 1

omit [DecidableEq Thread] in
theorem stage_of_worker (hone : Ledger.InOnePlace s.token) (hi : s.pcs i ≠ .away) :
    s.stage = (s.pcs i).stage := by
  obtain ⟨hothers, harmed⟩ := alone (Or.inl hone) hi
  rw [State.stage, harmed, if_neg Bool.false_ne_true]
  refine Finset.sum_eq_single i (fun j _ hj => ?_) fun h => absurd (Finset.mem_univ i) h
  rw [hothers j hj]
  rfl

/-- Behind a step of one worker beside which nobody has the event. -/
theorem stage_update (hothers : ∀ j, j ≠ i → s.pcs j = .away)
    (hpcs : t.pcs = Function.update s.pcs i pc) (harmed : t.armed = false) :
    t.stage = pc.stage := by
  rw [State.stage, harmed, if_neg Bool.false_ne_true, hpcs]
  refine (Finset.sum_eq_single i (fun j _ hj => ?_) fun h => absurd (Finset.mem_univ i) h).trans ?_
  · rw [Function.update_of_ne hj, hothers j hj]
    rfl
  · rw [Function.update_self]

omit [DecidableEq Thread] in
theorem rank_of_inOrder (hs : InOrder s accepted) :
    s.rank connection =
      if connection < accepted then 0 else 4 * (connection - accepted) + s.stage + 1 := by
  obtain ⟨hle, hbacklog⟩ := hs
  have hlength : s.arrived - s.backlog.length = accepted := by
    rw [hbacklog, List.length_drop, List.length_range]
    omega
  rw [State.rank, hlength]

omit [DecidableEq Thread] in
/-- A step towards `::accept`. -/
theorem rank_lt_of_stage (hs : InOrder s accepted) (ht : InOrder t accepted)
    (hstage : t.stage + 1 ≤ s.stage) : t.rank connection ≤ s.rank connection - 1 := by
  rw [rank_of_inOrder hs, rank_of_inOrder ht]
  split <;> omega

/-- The step of a worker that brings it nearer to `::accept`. -/
theorem rank_lt_of_pc {before : Pc} (hs : InOrder s accepted) (hone : Ledger.InOnePlace s.token)
    (hbefore : s.pcs i = before) (hpcs : t.pcs = Function.update s.pcs i pc)
    (hpc : before ≠ .away ∧ pc.stage + 1 ≤ before.stage) (harmed : t.armed = s.armed)
    (harrived : t.arrived = s.arrived) (hbacklog : t.backlog = s.backlog) :
    t.rank connection ≤ s.rank connection - 1 := by
  have hi : s.pcs i ≠ .away := hbefore ▸ hpc.1
  obtain ⟨hothers, hnot⟩ := alone (Or.inl hone) hi
  refine rank_lt_of_stage hs ⟨?_, ?_⟩ ?_
  · exact harrived.symm ▸ hs.1
  · rw [hbacklog, harrived]
    exact hs.2
  · rw [stage_update hothers hpcs (harmed.trans hnot), stage_of_worker hone hi, hbefore]
    exact hpc.2

/-- epoll gives the event to a worker. -/
theorem rank_epollWait (hone : Ledger.InOnePlace s.token) (horder : InOrder s accepted)
    (harmed : s.armed = true) :
    State.rank { s with pcs := Function.update s.pcs i .batch, armed := false } connection ≤
      s.rank connection - 1 := by
  refine rank_lt_of_stage horder horder ?_
  rw [stage_update (fun j _ => all_away (Or.inl hone) harmed j) rfl rfl, State.stage, if_pos harmed]
  rfl

/-- `::accept` takes the first connection of the backlog. -/
theorem rank_accepted {side : Side} {first : Nat} {rest : List Nat}
    (hone : Ledger.InOnePlace s.token) (horder : InOrder s accepted)
    (hpc : s.pcs i = .accept side) (hbacklog : s.backlog = first :: rest) :
    State.rank { s with pcs := Function.update s.pcs i (.create side first), backlog := rest }
      connection ≤ s.rank connection - 1 := by
  have hi : s.pcs i ≠ .away := by simp [hpc]
  obtain ⟨hothers, harmed⟩ := alone (Or.inl hone) hi
  have hlength := congrArg List.length horder.2
  rw [hbacklog, List.length_drop, List.length_range, List.length_cons] at hlength
  have hstage := stage_update (t := { s with
    pcs := Function.update s.pcs i (.create side first), backlog := rest }) hothers rfl harmed
  simp only [State.rank, hstage, stage_of_worker hone hi, hpc, hbacklog, List.length_cons, Pc.stage]
  split <;> split <;> omega

/-- The descriptor is rearmed. -/
theorem rank_rearm (hone : Ledger.InOnePlace s.token) (horder : InOrder s accepted)
    (hpc : s.pcs i = .rearm) :
    State.rank { s with pcs := Function.update s.pcs i .away, armed := s.armed || true }
      connection ≤ s.rank connection - 1 := by
  refine rank_lt_of_stage horder horder ?_
  rw [stage_of_worker hone (hpc ▸ by simp : s.pcs i ≠ .away), hpc, State.stage, Bool.or_true,
    if_pos rfl]
  rfl

/-- Each step of a worker that does not throw shortens the wait. -/
theorem rank_worker (hs : Base s) (hone : Ledger.InOnePlace s.token) (horder : InOrder s accepted)
    (hconnection : connection < s.arrived) (hkept : Kept a) (hworker : a.ofWorker = true)
    (h : Acceptor.step pollers s a = some t) :
    t.rank connection ≤ s.rank connection - 1 := by
  cases step_cases h with
  | connect | otherAdd => cases hworker
  | otherThrew | failed | unregistered => exact absurd hkept id
  | epollWait i haway harmed => exact rank_epollWait hone horder harmed
  | reach i hpc => exact rank_lt_of_pc horder hone hpc rfl (by simp [Pc.stage]) rfl rfl rfl
  | enter i hpc =>
      have hcount : s.handleInProgress = 0 := hs.count_eq hpc (by simp)
      refine rank_lt_of_pc horder hone hpc rfl ?_ rfl rfl rfl
      simp [hcount, Pc.stage]
  | accepted i side first rest hpc hbacklog => exact rank_accepted hone horder hpc hbacklog
  | again i side hpc hnone =>
      rw [State.rank]
      exact (if_pos (by simpa [State.goTo, hnone] using hconnection)).trans_le (Nat.zero_le _)
  | created i side c hpc | refused i side c hpc | add i side c hpc =>
      exact rank_lt_of_pc horder hone hpc rfl (by simp [Pc.stage]) rfl rfl rfl
  | registered i side c poller hpc =>
      exact rank_lt_of_pc horder hone hpc rfl (by simp [Pc.stage]) rfl rfl rfl
  | leave i hpc =>
      have hcount : s.handleInProgress = 1 := hs.count_eq hpc (by simp)
      refine rank_lt_of_pc horder hone hpc rfl ?_ rfl rfl rfl
      simp [hcount, Pc.stage]
  | rearm i done hpc =>
      cases done with
      | true => exact rank_rearm hone horder hpc
      | false => exact absurd hkept id

omit [DecidableEq Thread] in
theorem stage_le (hone : Ledger.InOnePlace s.token) : s.stage ≤ 5 := by
  cases harmed : s.armed with
  | true =>
      rw [State.stage, harmed, if_pos rfl]
      decide
  | false =>
      obtain ⟨place, hplace, hrest⟩ := hone
      cases place with
      | none =>
          simp only [State.token, harmed] at hplace
          cases hplace
      | some i =>
          have hi : s.pcs i ≠ .away := by
            intro haway
            simp only [State.token, haway, if_pos] at hplace
            cases hplace
          rw [stage_of_worker ⟨some i, hplace, hrest⟩ hi]
          cases s.pcs i <;> simp [Pc.stage]

/-- What runs without exceptions keep. -/
def Live {Thread : Type*} (s : State Thread) : Prop :=
  Base s ∧ Ledger.InOnePlace s.token ∧ ∃ accepted, InOrder s accepted

omit [Fintype Thread] in
theorem Live.step (hs : Live s) (hkept : Kept a) (h : Acceptor.step pollers s a = some t) :
    Live t ∧ s.arrived ≤ t.arrived := by
  obtain ⟨hbase, hone, accepted, horder⟩ := hs
  obtain ⟨hbase', hchange⟩ := hbase.step (Or.inl hone) h
  have hone' := hchange.inOnePlace hkept hone
  obtain ⟨harrived, hsame | hnext⟩ := horder.step h
  · exact ⟨⟨hbase', hone', accepted, hsame⟩, harrived⟩
  · exact ⟨⟨hbase', hone', accepted + 1, hnext⟩, harrived⟩

/-- **Every connection is accepted.**  A connection behind `k` others in the backlog is
accepted within `4 * k + 6` steps of the workers, whoever takes them and whatever comes in
between, as long as nothing throws. -/
theorem accepted_within {k : Nat} {actions : List (Action Thread)}
    (hs : Reachable (system Thread pollers) (fun _ a => Kept a) s)
    (hplace : s.backlog[k]? = some connection)
    (hkept : Meets (system Thread pollers) (fun _ a => Kept a) s actions)
    (hrun : (system Thread pollers).run s actions = some t)
    (henough : 4 * k + 6 ≤ actions.countP Action.ofWorker) : connection ∉ t.backlog := by
  have hlive : Live s :=
    hs.invariant ⟨base_init Thread pollers, token_init Thread pollers, 0,
      inOrder_init Thread pollers⟩ fun _ _ _ hs hkept h => (hs.step hkept h).1
  have hstart : connection < s.arrived ∧ s.rank connection ≤ 4 * k + 6 := by
    obtain ⟨-, hone, accepted, horder⟩ := hlive
    rw [horder.2, List.getElem?_drop, List.getElem?_eq_some_iff] at hplace
    obtain ⟨hlt, rfl⟩ := hplace
    rw [List.length_range] at hlt
    have hstage := stage_le hone
    rw [List.getElem_range, rank_of_inOrder horder, if_neg (by omega)]
    exact ⟨hlt, by omega⟩
  have hinv : ∀ (s : State Thread) a t, Live s ∧ connection < s.arrived → Kept a →
      (system Thread pollers).step s a = some t → Live t ∧ connection < t.arrived := by
    rintro s a t ⟨hs, hlt⟩ hkept h
    obtain ⟨ht, harrived⟩ := hs.step hkept h
    exact ⟨ht, hlt.trans_le harrived⟩
  have hmine : ∀ (s : State Thread) a t, Live s ∧ connection < s.arrived → Kept a →
      a.ofWorker = true → (system Thread pollers).step s a = some t →
      t.rank connection ≤ s.rank connection - 1 := by
    rintro s a t ⟨⟨hbase, hone, accepted, horder⟩, hlt⟩ hkept hworker h
    exact rank_worker hbase hone horder hlt hkept hworker h
  have hother : ∀ (s : State Thread) a t, Live s ∧ connection < s.arrived → Kept a →
      ¬a.ofWorker = true → (system Thread pollers).step s a = some t →
      t.rank connection ≤ s.rank connection := by
    rintro s a t - - hworker h
    cases step_cases h with
    | connect =>
        simp only [State.rank, State.stage, List.length_append, List.length_singleton,
          Nat.add_sub_add_right]
        exact le_rfl
    | otherAdd => exact le_rfl
    | _ => exact absurd rfl hworker
  obtain ⟨⟨⟨-, -, accepted, horder⟩, hlt⟩, hzero⟩ := run_rank_eq_zero hinv hmine hother
    ⟨hlive, hstart.1⟩ hkept hrun (hstart.2.trans henough)
  rw [rank_of_inOrder horder] at hzero
  intro hmem
  rw [horder.2] at hmem
  obtain ⟨j, hj, hget⟩ := List.mem_iff_getElem.mp hmem
  rw [List.getElem_drop, List.getElem_range] at hget
  rw [if_neg (by omega)] at hzero
  omega

end Waiting

/-- One pass takes both connections. -/
def firstPass : List (Action Bool) :=
  [.epollWait false, .reach false, .enter false, .accept false .connection, .create false true,
    .add false, .register false true, .accept false .connection, .create false true, .add false,
    .register false true, .accept false .again]

theorem accepted_within_firstPass :
    ∃ s t, (system Bool 2).run (system Bool 2).init [.connect, .connect] = some s ∧
      (system Bool 2).run s firstPass = some t ∧ 1 ∉ t.backlog := by
  have hstart : ((system Bool 2).run (system Bool 2).init [.connect, .connect]).map
      (fun s => s.backlog[1]?) = some (some 1) := by
    decide +kernel
  obtain ⟨s, hrun, hplace⟩ := Option.map_eq_some_iff.mp hstart
  have hend : (((system Bool 2).run (system Bool 2).init [.connect, .connect]).bind
      fun s => (system Bool 2).run s firstPass).isSome = true := by
    decide +kernel
  rw [hrun, Option.bind_some] at hend
  obtain ⟨t, hpass⟩ := Option.isSome_iff_exists.mp hend
  have hkept : ∀ a ∈ firstPass, Kept a := by decide
  have hs : Reachable (system Bool 2) (fun _ a => Kept a) s :=
    Reachable.of_run .init hrun (by decide +kernel)
  exact ⟨s, t, hrun, hpass, accepted_within hs hplace
    (meets_of_forall (fun a ha _ => hkept a ha) s) hpass (by decide)⟩

end Acceptor
end LiteMQ
