import LiteMQ.Server.PeerClose
import LiteMQ.Server.ResponseStream

/-!
# What a connection of the server is for

A client sends lines and gets a response for each of them.  `State` is a connection with
its holder and the threads that handle it, `received` what `::read` stored for it and
`accepted` what `::sendmsg` took from it, in any number of passes of `read()` and `write()`
by any threads.

`Answers` is the service, in terms of these two streams alone: what was accepted and what
is still described by the buffers is one response for each newline received.  A run gives
it exactly if no send of the run ends inside a buffer that was cut before
(`answers_iff_noRepeatedCut`).  No operation of the connection fails, whichever threads run
it (`call_possible`).
-/

namespace LiteMQ
namespace Service

open DescriptorHandler HashConnection TransitionSystem
open ServerConnection (nextEffect)

variable {Thread : Type*} [DecidableEq Thread]

/-! ## The service -/

/-- The response to a line. -/
def response : List UInt8 := List.replicate 7 48 ++ [newline]

/-- The responses to so many lines. -/
def responses (lines : Nat) : List UInt8 := (List.replicate lines response).flatten

/-- A connection, the bytes it received and the bytes its socket accepted. -/
structure State (Thread : Type*) where
  server : ServerConnection.State Thread
  received : List UInt8
  accepted : List UInt8

/-- What the call of a step stores in the read buffer. -/
def storedBytes (s : ServerConnection.State Thread) (a : ServerConnection.Action Thread) :
    List UInt8 :=
  if nextEffect s a.thread = some .callRead then a.readResult.bytes else []

/-- What the call of a step takes from the response buffers. -/
def takenBytes (s : ServerConnection.State Thread) (a : ServerConnection.Action Thread) :
    List UInt8 :=
  match a.sendResult with
  | .sent sentSize =>
      if nextEffect s a.thread = some .callWrite ∧ s.connection.writeBufs ≠ [] then
        ((ResponseStream.offeredBytes s.connection).getD []).take sentSize
      else []
  | _ => []

/-- `::sendmsg` takes at least one and at most all of the bytes that it is offered. -/
def Possible (s : ServerConnection.State Thread) (a : ServerConnection.Action Thread) : Prop :=
  nextEffect s a.thread = some .callWrite → s.connection.writeBufs ≠ [] →
    s.connection.Admits a.sendResult

instance (s : ServerConnection.State Thread) (a : ServerConnection.Action Thread) :
    Decidable (Possible s a) :=
  inferInstanceAs (Decidable (_ → _ → _))

def step (s : State Thread) (a : ServerConnection.Action Thread) : Option (State Thread) :=
  if Possible s.server a then
    (ServerConnection.step s.server a).map fun server =>
      ⟨server, s.received ++ storedBytes s.server a, s.accepted ++ takenBytes s.server a⟩
  else none

/-- A new connection. -/
def system (Thread : Type*) [DecidableEq Thread] :
    TransitionSystem (State Thread) (ServerConnection.Action Thread) :=
  ⟨⟨(ServerConnection.system Thread).init, [], []⟩, step⟩

/-- **One response for each line**, in order, of which the socket has a first part and the
buffers the rest. -/
def Answers (s : State Thread) : Prop :=
  ∃ rest, ResponseStream.describedBytes s.server.connection = some rest ∧
    s.accepted ++ rest = responses (s.received.count newline)

/-- The send does not end inside the first buffer after an earlier send cut it. -/
def NoRepeatedCut (s : State Thread) (a : ServerConnection.Action Thread) : Prop :=
  match a.sendResult with
  | .sent sentSize => nextEffect s.server a.thread = some .callWrite →
      ∀ buf ∈ s.server.connection.writeBufs.head?,
        s.server.connection.firstWriteBufPos = 0 ∨
          buf.size - s.server.connection.firstWriteBufPos ≤ sentSize
  | _ => True

instance (s : State Thread) : ∀ a, Decidable (NoRepeatedCut s a)
  | ⟨i, _, .sent sentSize, _⟩ => inferInstanceAs (Decidable
      (nextEffect s.server i = some .callWrite → ∀ buf ∈ s.server.connection.writeBufs.head?,
        s.server.connection.firstWriteBufPos = 0 ∨
          buf.size - s.server.connection.firstWriteBufPos ≤ sentSize))
  | ⟨_, _, .zero, _⟩ | ⟨_, _, .again, _⟩ | ⟨_, _, .failed, _⟩ => inferInstanceAs (Decidable True)

/-! ## Responses -/

theorem responses_add (m n : Nat) : responses (m + n) = responses m ++ responses n := by
  rw [responses, List.replicate_add, List.flatten_append]
  rfl

theorem responses_succ (n : Nat) : responses (n + 1) = response ++ responses n := rfl

/-- The newlines of framed lines are as many as the lines. -/
theorem count_newline {h : HashConnection} {received : List UInt8}
    {messages : List (List UInt8)} (hframed : h.Framed received messages) :
    received.count newline = messages.length := by
  have hlines := hframed.lines
  rw [hframed.received, List.count_append, List.count_eq_zero.mpr hframed.unfinished]
  clear hframed
  induction messages with
  | nil => rfl
  | cons message messages ih =>
      have hmessage := List.count_eq_zero.mpr (hlines message List.mem_cons_self)
      have hrest := ih fun line hline => hlines line (List.mem_cons_of_mem _ hline)
      rw [Lines.terminated_cons, List.count_append, List.count_cons_self, hmessage,
        List.length_cons]
      omega

/-! ## `read()` -/

/-- Each line that `process_input_message_` gets puts one response behind the others. -/
theorem pending_processLines {bound : Nat} {h h' : HashConnection}
    {messages all : List (List UInt8)} (hok : h.WriteBufsOk)
    (hloop : processLines bound h messages = .ok (h', all)) :
    ∃ new, all = messages ++ new ∧ h'.WriteBufsOk ∧
      h'.pending = h.pending ++ responses new.length := by
  induction bound generalizing h messages with
  | zero => cases hloop
  | succ bound ih =>
      rw [processLines] at hloop
      cases hfind : h.findNewline with
      | error fault =>
          rw [hfind] at hloop
          cases hloop
      | ok nlPos =>
          rw [hfind, Fault.ok_bind] at hloop
          by_cases hend : nlPos = h.readBufPos
          · rw [if_pos hend] at hloop
            obtain ⟨rfl, rfl⟩ := Prod.mk.inj (Except.ok.inj hloop)
            exact ⟨[], by simp, hok, by simp [responses]⟩
          · rw [if_neg hend] at hloop
            obtain ⟨h₁, hadd, hok₁, hpending, -⟩ :=
              addWriteBuf_spec hok (show response ≠ [] by simp [response])
            have hprocess : h.processInputMessage
                (Buffer.slice h.readBuf h.readProcessedBufPos nlPos) = .ok h₁ := hadd
            simp only [hprocess, Fault.ok_bind] at hloop
            obtain ⟨new, rfl, hok', hrest⟩ := ih (hok₁.of_eq rfl) hloop
            refine ⟨Buffer.slice h.readBuf h.readProcessedBufPos nlPos :: new, by simp, hok', ?_⟩
            rw [hrest, List.length_cons, responses_succ, ← List.append_assoc, ← hpending]
            rfl

/-- Shrinking the read buffer leaves the responses alone. -/
theorem pending_shrinkReadBuf {h h' : HashConnection} (hshrink : h.shrinkReadBuf = .ok h') :
    h'.pending = h.pending := by
  rw [shrinkReadBuf] at hshrink
  split at hshrink
  · obtain ⟨readBuf, -, hmoved⟩ := Fault.bind_eq_ok.mp hshrink
    obtain rfl := Except.ok.inj hmoved
    rfl
  · obtain rfl := Except.ok.inj hshrink
    rfl

/-- A block of bytes puts one response behind the others for each line that it ends. -/
theorem pending_acceptBlock {h h' : HashConnection} {bytes : List UInt8}
    {new : List (List UInt8)} (hok : h.WriteBufsOk)
    (haccept : h.acceptBlock bytes = .ok (h', new)) :
    h'.pending = h.pending ++ responses new.length := by
  obtain ⟨readBuf, -, hfilled⟩ := Fault.bind_eq_ok.mp haccept
  obtain ⟨⟨last, all⟩, hloop, hrest⟩ := Fault.bind_eq_ok.mp hfilled
  obtain ⟨-, -, hrest⟩ := Fault.bind_eq_ok.mp hrest
  obtain ⟨shrunk, hshrink, hdone⟩ := Fault.bind_eq_ok.mp hrest
  obtain ⟨rfl, rfl⟩ := Prod.mk.inj (Except.ok.inj hdone)
  obtain ⟨lines, rfl, -, hpending⟩ := pending_processLines (hok.of_eq rfl) hloop
  rw [pending_shrinkReadBuf hshrink, hpending]
  rfl

/-- A pass of the loop of `read()`. -/
theorem pending_readIteration {h : HashConnection} (hread : h.ReadBufOk) (hok : h.WriteBufsOk)
    {result : ReadResult} {iteration : Iteration} {new : List (List UInt8)}
    (hcall : h.readIteration result = .ok (iteration, new)) :
    iteration.handler.pending = h.pending ++ responses new.length := by
  have hprepared : h.prepareReadBuf.pending = h.pending := by
    unfold prepareReadBuf
    split <;> rfl
  obtain ⟨-, -, hcall⟩ := Fault.bind_eq_ok.mp hcall
  cases result with
  | block block =>
      obtain ⟨⟨h', lines⟩, haccept, hdone⟩ := Fault.bind_eq_ok.mp hcall
      obtain ⟨rfl, rfl⟩ := Prod.mk.inj (Except.ok.inj hdone)
      rw [pending_acceptBlock ((prepareReadBuf_spec hread).2.2.2 hok) haccept, hprepared]
  | closed | again | failed =>
      obtain ⟨rfl, rfl⟩ := Prod.mk.inj (Except.ok.inj hcall)
      rw [hprepared]
      exact (List.append_nil _).symm

/-! ## Steps -/

/-- The bytes accepted and the bytes still pending, in this order. -/
def State.stream (s : State Thread) : List UInt8 := s.accepted ++ s.server.connection.pending

/-- The lines of the received bytes were passed on. -/
def State.Framed (s : State Thread) : Prop :=
  ∃ messages, s.server.connection.Framed s.received messages

/-- The responses to new lines are behind the stream. -/
def Responds (s t : State Thread) : Prop :=
  ∃ lines, t.received.count newline = s.received.count newline + lines ∧
    t.stream = s.stream ++ responses lines

/-- `::sendmsg` took what was pending first, and `reconfigure_write_bufs_` left this of the
rest. -/
structure Sends (s t : State Thread) (sentSize : Nat) : Prop where
  received : t.received = s.received
  accepted : t.accepted = s.accepted ++ s.server.connection.pending.take sentSize
  sentSize_le : sentSize ≤ s.server.connection.pending.length
  pending : ∃ buf rest, s.server.connection.writeBufs = buf :: rest ∧
    t.server.connection.pending =
      if s.server.connection.firstWriteBufPos = 0 ∨
          buf.size - s.server.connection.firstWriteBufPos ≤ sentSize then
        s.server.connection.pending.drop sentSize
      else (allBytes s.server.connection.writeBufs).drop sentSize

omit [DecidableEq Thread] in
theorem responds_of_eq {s t : State Thread} (hreceived : t.received = s.received)
    (haccepted : t.accepted = s.accepted)
    (hpending : t.server.connection.pending = s.server.connection.pending) : Responds s t :=
  ⟨0, by rw [hreceived, Nat.add_zero],
    by rw [State.stream, haccepted, hpending]; exact (List.append_nil _).symm⟩

omit [DecidableEq Thread] in
/-- A pass of the loop of `read()`. -/
theorem responds_of_read {s t : State Thread} (hs : s.Framed) {result : ReadResult}
    {iteration : Iteration}
    (hcall : (s.server.connection.readIteration result).map Prod.fst = .ok iteration)
    (hconnection : t.server.connection = iteration.handler)
    (hreceived : t.received = s.received ++ result.bytes) (haccepted : t.accepted = s.accepted) :
    t.Framed ∧ Responds s t := by
  obtain ⟨messages, hframed⟩ := hs
  obtain ⟨iteration', new, hread, -, hframed'⟩ := framed_readIteration hframed result
  rw [hread] at hcall
  obtain rfl := Except.ok.inj hcall
  have hpending := pending_readIteration hframed.readBuf hframed.writeBufs hread
  have hcount := count_newline hframed'
  rw [← hreceived, List.length_append, ← count_newline hframed] at hcount
  refine ⟨⟨messages ++ new, ?_⟩, new.length, hcount, ?_⟩
  · rw [hconnection, hreceived]
    exact hframed'
  · rw [State.stream, State.stream, haccepted, hconnection, hpending, List.append_assoc]

omit [DecidableEq Thread] in
/-- A pass of the loop of `write()` that sends something. -/
theorem sends_of_write {s t : State Thread} (hs : s.Framed) {sentSize : Nat}
    (hbufs : s.server.connection.writeBufs ≠ [])
    (hadmits : s.server.connection.Admits (.sent sentSize)) {iteration : Iteration}
    (hcall : s.server.connection.writeIteration (.sent sentSize) = .ok iteration)
    (hconnection : t.server.connection = iteration.handler)
    (hreceived : t.received = s.received)
    (haccepted : t.accepted = s.accepted ++
      ((ResponseStream.offeredBytes s.server.connection).getD []).take sentSize) :
    t.Framed ∧ Sends s t sentSize := by
  obtain ⟨messages, hframed⟩ := hs
  obtain ⟨offered, handler, buf, rest, hoffered, hwrite, hfirst, htake, hle, -, hpending⟩ :=
    ResponseStream.writeIteration_sent hframed.writeBufs hbufs hadmits.1 hadmits.2
  obtain ⟨iteration', hwrite', hframed'⟩ := framed_writeIteration hframed hadmits
  rw [hwrite'] at hcall
  obtain rfl := Except.ok.inj hcall
  rw [hwrite] at hwrite'
  obtain rfl := Except.ok.inj hwrite'
  rw [hoffered, Option.getD_some, htake] at haccepted
  refine ⟨⟨messages, ?_⟩, hreceived, haccepted, hle, buf, rest, hfirst, ?_⟩
  · rw [hconnection, hreceived]
    exact hframed'
  · rw [hconnection]
    exact hpending

/-- A pass of the loop of `write()` that leaves it. -/
theorem handler_of_returned {h : HashConnection} {result : SendResult} {iteration : Iteration}
    (hcall : h.writeIteration result = .ok iteration)
    (hidle : h.writeBufs = [] ∨ ∀ sentSize, result ≠ .sent sentSize) :
    iteration.handler = h := by
  unfold writeIteration at hcall
  split at hcall
  · obtain rfl := Except.ok.inj hcall
    rfl
  · rename_i hbufs
    have hnot := hidle.resolve_left hbufs
    cases result with
    | sent sentSize => exact absurd rfl (hnot sentSize)
    | zero | again | failed =>
        obtain rfl := Except.ok.inj hcall
        rfl

omit [DecidableEq Thread] in
/-- A send that cuts a buffer a second time puts back what was sent of it before. -/
theorem Sends.length_stream {s t : State Thread} {sentSize : Nat} (h : Sends s t sentSize)
    (hok : s.server.connection.BufsOk) :
    ∃ buf rest, s.server.connection.writeBufs = buf :: rest ∧
      t.stream.length = s.stream.length +
        if s.server.connection.firstWriteBufPos = 0 ∨
            buf.size - s.server.connection.firstWriteBufPos ≤ sentSize then 0
        else s.server.connection.firstWriteBufPos := by
  obtain ⟨buf, rest, hbufs, hpending⟩ := h.pending
  refine ⟨buf, rest, hbufs, ?_⟩
  have hle := h.sentSize_le
  have hpos := hok.pos_le_totalSize
  have hlength : s.server.connection.pending.length =
      totalSize s.server.connection.writeBufs - s.server.connection.firstWriteBufPos := by
    rw [HashConnection.pending, List.length_drop, length_allBytes]
  rw [State.stream, State.stream, List.length_append, List.length_append, h.accepted,
    List.length_append, List.length_take, hpending]
  split
  · rw [List.length_drop]
    omega
  · rw [List.length_drop, length_allBytes]
    omega

omit [DecidableEq Thread] in
/-- A step that sends nothing takes nothing and cuts nothing. -/
theorem takenBytes_eq_nil {s : State Thread} {a : ServerConnection.Action Thread}
    (hno : nextEffect s.server a.thread ≠ some .callWrite ∨
      s.server.connection.writeBufs = [] ∨ ∀ sentSize, a.sendResult ≠ .sent sentSize) :
    takenBytes s.server a = [] ∧ NoRepeatedCut s a := by
  unfold takenBytes NoRepeatedCut
  split
  · rename_i sentSize hsent
    have hcases : nextEffect s.server a.thread ≠ some .callWrite ∨
        s.server.connection.writeBufs = [] :=
      hno.imp_right fun h => h.resolve_right fun hnot => hnot sentSize hsent
    refine ⟨if_neg fun h => hcases.elim (fun hne => hne h.1) h.2, fun hwrite buf hbuf => ?_⟩
    rw [hcases.resolve_left fun hne => hne hwrite] at hbuf
    cases hbuf
  · exact ⟨rfl, trivial⟩

/-- The parts of a step. -/
theorem parts_of_step {s t : State Thread} {a : ServerConnection.Action Thread}
    (hstep : step s a = some t) :
    Possible s.server a ∧ ServerConnection.step s.server a = some t.server ∧
      t.received = s.received ++ storedBytes s.server a ∧
      t.accepted = s.accepted ++ takenBytes s.server a := by
  by_cases hpossible : Possible s.server a
  · rw [step, if_pos hpossible] at hstep
    obtain ⟨server, hserver, rfl⟩ := Option.map_eq_some_iff.mp hstep
    exact ⟨hpossible, hserver, rfl, rfl⟩
  · simp [step, hpossible] at hstep

/-- A step of the server is a step of the service. -/
theorem step_of_server {s : State Thread} {a : ServerConnection.Action Thread}
    {server : ServerConnection.State Thread} (hpossible : Possible s.server a)
    (hserver : ServerConnection.step s.server a = some server) :
    step s a = some ⟨server, s.received ++ storedBytes s.server a,
      s.accepted ++ takenBytes s.server a⟩ := by
  rw [step, if_pos hpossible, hserver]
  rfl

/-- What a step does to the two streams: the responses to new lines go to the end, and a
send leaves everything in its place unless it ends inside a buffer that was cut before. -/
theorem step_cases {s t : State Thread} {a : ServerConnection.Action Thread} (hs : s.Framed)
    (hstep : step s a = some t) :
    t.Framed ∧ (Responds s t ∧ NoRepeatedCut s a ∨
      ∃ sentSize, a.sendResult = .sent sentSize ∧
        nextEffect s.server a.thread = some .callWrite ∧ Sends s t sentSize) := by
  obtain ⟨hpossible, hserver, hreceived, haccepted⟩ := parts_of_step hstep
  have hquiet : takenBytes s.server a = [] ∧ NoRepeatedCut s a →
      storedBytes s.server a = [] → t.server.connection = s.server.connection →
      t.Framed ∧ (Responds s t ∧ NoRepeatedCut s a) := by
    rintro ⟨htaken, hguard⟩ hstored hconnection
    rw [hstored, List.append_nil] at hreceived
    rw [htaken, List.append_nil] at haccepted
    refine ⟨?_, responds_of_eq hreceived haccepted (by rw [hconnection]), hguard⟩
    rw [State.Framed, hconnection, hreceived]
    exact hs
  rcases ServerConnection.step_cases hserver with
    ⟨iteration, heffect, hcall, hconnection, -⟩ | ⟨iteration, heffect, hcall, hconnection, -⟩ |
    ⟨hnotRead, hnotWrite, -, hconnection⟩
  · obtain ⟨htaken, hguard⟩ := takenBytes_eq_nil (s := s) (a := a) (Or.inl (by simp [heffect]))
    rw [storedBytes, if_pos heffect] at hreceived
    rw [htaken, List.append_nil] at haccepted
    obtain ⟨hframed, hresponds⟩ := responds_of_read hs hcall hconnection hreceived haccepted
    exact ⟨hframed, Or.inl ⟨hresponds, hguard⟩⟩
  · have hstored : storedBytes s.server a = [] := if_neg (by simp [heffect])
    by_cases hidle : s.server.connection.writeBufs = [] ∨
        ∀ sentSize, a.sendResult ≠ .sent sentSize
    · have hsame := hconnection.trans (handler_of_returned hcall hidle)
      exact (hquiet (takenBytes_eq_nil (Or.inr hidle)) hstored hsame).imp_right Or.inl
    · obtain ⟨hbufs, hsent⟩ := not_or.mp hidle
      obtain ⟨sentSize, hsent⟩ := not_forall_not.mp hsent
      have hadmits := hpossible heffect hbufs
      rw [hsent] at hadmits hcall
      rw [hstored, List.append_nil] at hreceived
      rw [takenBytes, hsent] at haccepted
      dsimp only at haccepted
      rw [if_pos ⟨heffect, hbufs⟩] at haccepted
      obtain ⟨hframed, hsends⟩ :=
        sends_of_write hs hbufs hadmits hcall hconnection hreceived haccepted
      exact ⟨hframed, Or.inr ⟨sentSize, hsent, heffect, hsends⟩⟩
  · exact (hquiet (takenBytes_eq_nil (Or.inl hnotWrite)) (if_neg hnotRead) hconnection).imp_right
      Or.inl

/-! ## Runs -/

/-- The stream is the responses to the lines received. -/
structure Exact (s : State Thread) : Prop where
  framed : s.Framed
  stream : s.stream = responses (s.received.count newline)

/-- The stream is longer than the responses. -/
structure Repeated (s : State Thread) : Prop where
  framed : s.Framed
  longer : (responses (s.received.count newline)).length < s.stream.length

theorem Exact.step {s t : State Thread} {a : ServerConnection.Action Thread} (hs : Exact s)
    (hguard : NoRepeatedCut s a) (hstep : Service.step s a = some t) : Exact t := by
  obtain ⟨hframed, ⟨⟨lines, hcount, hstream⟩, -⟩ | ⟨sentSize, hsent, heffect, hsends⟩⟩ :=
    step_cases hs.framed hstep
  · exact ⟨hframed, by rw [hstream, hcount, responses_add, hs.stream]⟩
  · obtain ⟨buf, rest, hbufs, hpending⟩ := hsends.pending
    have hcut := hguard
    rw [NoRepeatedCut, hsent] at hcut
    rw [if_pos (hcut heffect buf (by simp [hbufs]))] at hpending
    refine ⟨hframed, ?_⟩
    rw [State.stream, hsends.accepted, hpending, hsends.received, List.append_assoc,
      List.take_append_drop]
    exact hs.stream

/-- A send that cuts a buffer a second time makes the stream longer. -/
theorem Exact.step_repeats {s t : State Thread} {a : ServerConnection.Action Thread}
    (hs : Exact s) (hguard : ¬ NoRepeatedCut s a) (hstep : Service.step s a = some t) :
    Repeated t := by
  obtain ⟨hframed, ⟨-, hkept⟩ | ⟨sentSize, hsent, heffect, hsends⟩⟩ := step_cases hs.framed hstep
  · exact absurd hkept hguard
  · obtain ⟨messages, hok⟩ := hs.framed
    obtain ⟨buf, rest, hbufs, hlength⟩ := hsends.length_stream hok.writeBufs.toBufsOk
    have hcut : ¬ (s.server.connection.firstWriteBufPos = 0 ∨
        buf.size - s.server.connection.firstWriteBufPos ≤ sentSize) := by
      intro hcut
      refine hguard ?_
      rw [NoRepeatedCut, hsent]
      intro _ b hb
      obtain rfl : buf = b := by simpa [hbufs] using hb
      exact hcut
    rw [if_neg hcut] at hlength
    refine ⟨hframed, ?_⟩
    rw [hsends.received, ← hs.stream, hlength]
    exact Nat.lt_add_of_pos_right (Nat.pos_of_ne_zero (not_or.mp hcut).1)

theorem Repeated.step {s t : State Thread} {a : ServerConnection.Action Thread}
    (hs : Repeated s) (hstep : Service.step s a = some t) : Repeated t := by
  have hlonger := hs.longer
  obtain ⟨hframed, ⟨⟨lines, hcount, hstream⟩, -⟩ | ⟨sentSize, -, -, hsends⟩⟩ :=
    step_cases hs.framed hstep
  · refine ⟨hframed, ?_⟩
    rw [hstream, hcount, responses_add, List.length_append, List.length_append]
    omega
  · obtain ⟨messages, hok⟩ := hs.framed
    obtain ⟨buf, rest, -, hlength⟩ := hsends.length_stream hok.writeBufs.toBufsOk
    refine ⟨hframed, ?_⟩
    rw [hsends.received, hlength]
    omega

theorem exact_init : Exact (system Thread).init where
  framed := ⟨[], framed_initial⟩
  stream := rfl

omit [DecidableEq Thread] in
theorem Exact.answers {s : State Thread} (hs : Exact s) : Answers s := by
  obtain ⟨messages, hok⟩ := hs.framed
  exact ⟨_, ResponseStream.describedBytes_eq hok.writeBufs.toBufsOk, hs.stream⟩

omit [DecidableEq Thread] in
theorem Repeated.not_answers {s : State Thread} (hs : Repeated s) : ¬ Answers s := by
  rintro ⟨rest, hrest, hstream⟩
  obtain ⟨messages, hok⟩ := hs.framed
  rw [ResponseStream.describedBytes_eq hok.writeBufs.toBufsOk] at hrest
  obtain rfl := Option.some.inj hrest
  exact absurd hs.longer (by rw [← hstream]; exact Nat.lt_irrefl _)

/-- **The service.**  Whichever threads handle a connection, and however its input and its
output are cut, it answers each line with one response, in order, if and only if no send
of the run ended inside a buffer that an earlier send had cut. -/
theorem answers_iff_noRepeatedCut {actions : List (ServerConnection.Action Thread)}
    {t : State Thread} (hrun : (system Thread).run (system Thread).init actions = some t) :
    Answers t ↔ Meets (system Thread) NoRepeatedCut (system Thread).init actions :=
  run_iff_meets (fun _ _ _ hs hguard hstep => hs.step hguard hstep)
    (fun _ _ _ hs hguard hstep => hs.step_repeats hguard hstep)
    (fun _ _ _ hs hstep => hs.step hstep) exact_init hrun
    Exact.answers Repeated.not_answers

section

open ServerConnection (readAction quietAction handleAt pendingResponse firstReadBuf secondReadBuf
  emptyLine)

/-- A step in which the thread calls `read()`. -/
theorem step_readSide {connection next : HashConnection} {pc : HandlePc} {passStarted : Nat}
    {received : List UInt8} {result : ReadResult}
    (hserver : (ServerConnection.system Unit).step ⟨handleAt .initial .readSide 0, connection⟩
      (readAction result) = some ⟨handleAt .initial pc passStarted, next⟩) :
    (system Unit).step ⟨⟨handleAt .initial .readSide 0, connection⟩, received, []⟩
      (readAction result) =
        some ⟨⟨handleAt .initial pc passStarted, next⟩, received ++ result.bytes, []⟩ := by
  have heffect : nextEffect ⟨handleAt .initial .readSide 0, connection⟩ () = some .callRead := rfl
  have hpossible : Possible ⟨handleAt .initial .readSide 0, connection⟩ (readAction result) :=
    fun hwrite => nomatch heffect.symm.trans hwrite
  exact step_of_server (s := ⟨⟨handleAt .initial .readSide 0, connection⟩, received, []⟩)
    hpossible hserver

/-- A connection that has read an empty line answers it in two parts. -/
theorem answers_empty_line :
    ∃ t, (system Unit).run (system Unit).init
        ([readAction .again, readAction .again, readAction (.block emptyLine), readAction .closed]
          ++ [quietAction 3, quietAction 3, quietAction 5]) = some t ∧
      t.accepted = response ∧ Answers t := by
  have hline : (system Unit).step ⟨⟨handleAt .initial .readSide 0, .initial⟩, [], []⟩
      (readAction (.block emptyLine)) = some
        ⟨⟨handleAt .initial .readSide 0, pendingResponse firstReadBuf⟩, [newline], []⟩ := by
    refine step_readSide ?_
    rw [ServerConnection.step_readSide ServerConnection.readIteration_emptyLine]
    rfl
  have hend : (system Unit).step
      ⟨⟨handleAt .initial .readSide 0, pendingResponse firstReadBuf⟩, [newline], []⟩
      (readAction .closed) = some ⟨⟨handleAt .initial
        (.applyRead (closeReadHandle ||| startWriteHandle)) 1, pendingResponse secondReadBuf⟩,
        [newline], []⟩ :=
    step_readSide
      (ServerConnection.step_readSide_returned ServerConnection.readIteration_endPending)
  have hrest : ((system Unit).run ⟨⟨handleAt .initial
      (.applyRead (closeReadHandle ||| startWriteHandle)) 1, pendingResponse secondReadBuf⟩,
      [newline], []⟩ [quietAction 3, quietAction 3, quietAction 5]).map State.accepted =
        some response := by
    decide +kernel
  have hguard : Meets (system Unit) NoRepeatedCut ⟨⟨handleAt .initial
      (.applyRead (closeReadHandle ||| startWriteHandle)) 1, pendingResponse secondReadBuf⟩,
      [newline], []⟩ [quietAction 3, quietAction 3, quietAction 5] := by
    decide +kernel
  obtain ⟨t, htail, haccepted⟩ := Option.map_eq_some_iff.mp hrest
  have hrun : (system Unit).run (system Unit).init
      ([readAction .again, readAction .again, readAction (.block emptyLine), readAction .closed]
        ++ [quietAction 3, quietAction 3, quietAction 5]) = some t :=
    (run_cons_of_step _ rfl _).trans ((run_cons_of_step _ rfl _).trans
      ((run_cons_of_step _ hline _).trans ((run_cons_of_step _ hend _).trans htail)))
  refine ⟨t, hrun, haccepted, (answers_iff_noRepeatedCut hrun).mpr ?_⟩
  exact .cons trivial rfl (.cons trivial rfl (.cons trivial hline (.cons trivial hend hguard)))

end

/-! ## Nothing fails -/

/-- The lines were passed on, and one thread at most is between the entry of `handle_` and
its end. -/
theorem framed_of_run {actions : List (ServerConnection.Action Thread)} {t : State Thread}
    (hrun : (system Thread).run (system Thread).init actions = some t) :
    t.Framed ∧ Handle.Torn t.server.handle := by
  have hkept : ∀ (s : State Thread) a t, s.Framed ∧ Handle.Torn s.server.handle →
      (system Thread).step s a = some t → t.Framed ∧ Handle.Torn t.server.handle := by
    rintro s a t ⟨hframed, htorn⟩ hstep
    refine ⟨(step_cases hframed hstep).1, ?_⟩
    rcases ServerConnection.step_cases (parts_of_step hstep).2.1 with
      ⟨_, _, _, _, hcalls⟩ | ⟨_, _, _, _, hcalls⟩ | ⟨_, _, hhandle, _⟩
    · exact hcalls.torn htorn
    · exact hcalls.torn htorn
    · exact htorn.step hhandle
  exact run_preserves hkept ⟨exact_init.framed, Handle.torn_init⟩ hrun

/-- A pass of a loop that does not fail is a step. -/
theorem isSome_afterIteration {s : ServerConnection.State Thread} {i : Thread}
    {iteration : Iteration}
    (hpc : (s.handle.threads i).pc = .readSide ∨ (s.handle.threads i).pc = .writeSide) :
    (ServerConnection.afterIteration s i (.ok iteration)).isSome := by
  cases hreturned : iteration.returned with
  | none => simp [ServerConnection.afterIteration, hreturned]
  | some stateModify =>
      rcases hpc with hpc | hpc <;>
        simp [ServerConnection.afterIteration, hreturned, Handle.step, hpc]

/-- **Nothing fails.**  Wherever a run is, the thread that is to call `read()` or `write()` is
the only one in the loop of `handle_`, and its call fails no assertion and leaves no buffer,
whatever `::read` and `::sendmsg` return. -/
theorem call_possible {actions : List (ServerConnection.Action Thread)} {t : State Thread}
    (hrun : (system Thread).run (system Thread).init actions = some t)
    {a : ServerConnection.Action Thread} (hpossible : Possible t.server a)
    (hcall : nextEffect t.server a.thread = some .callRead ∨
      nextEffect t.server a.thread = some .callWrite) :
    (∃ t', (system Thread).step t a = some t') ∧
      ∀ j, (t.server.handle.threads j).inLoop → j = a.thread := by
  obtain ⟨⟨messages, hframed⟩, htorn⟩ := framed_of_run hrun
  have hpc : (t.server.handle.threads a.thread).pc = .readSide ∨
      (t.server.handle.threads a.thread).pc = .writeSide :=
    hcall.imp (fun heffect => (callRead_of_handleStep heffect).1)
      fun heffect => (callWrite_of_handleStep heffect).1
  have hloop : (t.server.handle.threads a.thread).inLoop := by
    unfold HandleThread.inLoop
    rcases hpc with hpc | hpc <;> simp [hpc]
  refine ⟨Option.isSome_iff_exists.mp ?_,
    fun j hj => ServerConnection.alone htorn.serialized hloop hj⟩
  show (step t a).isSome
  rw [step, if_pos hpossible, Option.isSome_map]
  rcases hcall with heffect | heffect
  · obtain ⟨iteration, new, hread, -⟩ := framed_readIteration hframed a.readResult
    rw [ServerConnection.step, if_pos heffect, hread]
    exact isSome_afterIteration hpc
  · have hwrite : ∃ iteration, t.server.connection.writeIteration a.sendResult = .ok iteration := by
      by_cases hbufs : t.server.connection.writeBufs = []
      · exact ⟨⟨t.server.connection, some stopWriteHandle⟩, if_pos hbufs⟩
      · obtain ⟨iteration, hwrite, -⟩ :=
          framed_writeIteration hframed (hpossible heffect hbufs)
        exact ⟨iteration, hwrite⟩
    obtain ⟨iteration, hwrite⟩ := hwrite
    rw [ServerConnection.step, if_neg (by simp [heffect]), if_pos heffect, hwrite]
    exact isSome_afterIteration hpc

/-- The first call of `read()` on a new connection. -/
theorem call_possible_first :
    ∃ t, (system Unit).run (system Unit).init
        [ServerConnection.readAction .again, ServerConnection.readAction .again] = some t ∧
      (∃ t', (system Unit).step t (ServerConnection.readAction .closed) = some t') ∧
        ∀ j, (t.server.handle.threads j).inLoop → j = () := by
  have hrun : (system Unit).run (system Unit).init
      [ServerConnection.readAction .again, ServerConnection.readAction .again] =
        some ⟨⟨ServerConnection.handleAt .initial .readSide 0, .initial⟩, [], []⟩ :=
    (run_cons_of_step _ rfl _).trans (run_cons_of_step _ rfl _)
  have heffect : nextEffect
      ⟨ServerConnection.handleAt .initial .readSide 0, .initial⟩ () = some .callRead := rfl
  exact ⟨_, hrun, call_possible hrun (a := ServerConnection.readAction .closed)
    (fun hwrite => nomatch heffect.symm.trans hwrite) (Or.inl heffect)⟩

end Service
end LiteMQ
