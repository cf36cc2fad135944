import LiteMQ.Foundation.Linearizability
import LiteMQ.Foundation.Mutex
import LiteMQ.Gears.SimpleFormatter
import Mathlib.Data.List.TakeWhile

/-!
# The stream logger

`OStream::Logger` is a `Simple::Logger` whose handler writes to a stream.  `log` tests the
severity without the mutex; then, under `lock_`, the handler formats the record, into the
one buffer that all threads share or into an array of its own, and writes the line to the
stream character by character.  A stream that fails takes nothing any more.  When the
handler throws, `log` writes of it to `error_stream_` behind the mutex.

A step is a statement, or one character.  `log` takes effect at one moment
(`log_linearizable`): while nobody has the mutex, the stream holds what an atomic journal
holds that publishes each record as a whole.  For that `error_stream_` must not be the
handler's stream, unless no buffer is kept: then the handler throws only when the stream has
failed.
-/

namespace LiteMQ.Gears.Simple

open IntegerType (castInt sizeT)
open TransitionSystem

/-- The arguments of `log`; the null pointer is no aspect or no code. -/
structure LogCall where
  text : List UInt8
  severity : UInt64
  aspect : Option (List UInt8)
  code : Option (List UInt8)

/-- What the call gets from the system: `get_time_of_day`, and what the formatter asks for. -/
structure Stamp where
  env : Environment
  time : Time

/-- The record that `log` fills in. -/
def LogCall.record (call : LogCall) (stamp : Stamp) (timeZone : TimeZone) : LogRecord :=
  ⟨call.text, call.severity, call.aspect.getD [], call.code.getD [], stamp.time, timeZone⟩

/-- The array for the record has a size that an `int` can hold. -/
def LogCall.Short (call : LogCall) : Prop :=
  call.text.length + (call.aspect.getD []).length + (call.code.getD []).length + 1024 < 2 ^ 31

/-- The time is one that `struct tm` can hold. -/
structure Stamp.Ok (stamp : Stamp) (timeZone : TimeZone) : Prop where
  local_inRange : ∀ time, (stamp.env.localTime time).InRange
  local_usec : ∀ time, (stamp.env.localTime time).usec = time.tvUsec
  usec : stamp.time.tvUsec < 1000000
  int_year : (getTime stamp.env stamp.time timeZone).year < 2 ^ 31

theorem LogCall.Short.proper {call : LogCall} (hcall : call.Short) {stamp : Stamp}
    {timeZone : TimeZone} (hstamp : stamp.Ok timeZone) :
    Proper stamp.env (call.record stamp timeZone) where
  fits := by
    have hshort := hcall
    simp only [LogCall.Short] at hshort
    simp only [LogCall.record]
    omega
  local_inRange := hstamp.local_inRange
  local_usec := hstamp.local_usec
  usec := hstamp.usec
  int_year := hstamp.int_year

theorem LogCall.Short.requiredSize {call : LogCall} (hcall : call.Short) (stamp : Stamp)
    (timeZone : TimeZone) : Formatter.requiredSize (call.record stamp timeZone) < 2 ^ 31 := by
  have hshort := hcall
  simp only [LogCall.Short] at hshort
  unfold Formatter.requiredSize sizeT
  simp only [LogCall.record]
  omega

/-- `std::ostream`: what it has taken, and `good()`. -/
structure Ostream where
  bytes : List UInt8
  good : Bool

/-- `OStream::Helper::Handler` -/
structure Handler where
  formatter : FormatWrapper
  ostr : Ostream

/-- How a call of `log` ends. -/
inductive LogResult
  /-- the severity is above the level: `true` -/
  | filtered
  /-- `line.get()` is null: `false` -/
  | refused (stamp : Stamp)
  /-- `true` -/
  | published (stamp : Stamp)
  /-- the stream is not good behind so many characters: `false` -/
  | failed (stamp : Stamp) (taken : Nat)

/-- What `log` writes of the exception that `publish` throws; nothing when it throws none. -/
def LogResult.report : LogResult → List UInt8
  | .filtered | .published _ => []
  | .refused _ => ascii "Logger::log(): Gears::Exception caught:" ++
      ascii "OStream::Handler::publish(): failed to format message"
  | .failed _ _ => ascii "Logger::log(): Gears::Exception caught:" ++
      ascii "OStream::Handler::publish(): stream is dead"

/-- `error_stream_`: null, the handler's stream, or another one, which has taken `bytes`. -/
inductive ErrorStream
  | null
  | logged
  | other (bytes : List UInt8)

namespace AtomicJournal

/-- A journal that publishes a record at once: the text that the formatter makes of it, or as
much of it as the stream takes before it fails. -/
def perform (formatter : FormatWrapper) (timeZone : TimeZone) (journal : Ostream)
    (call : LogCall) : LogResult → Option Ostream
  | .filtered => some journal
  | .refused stamp =>
      match formatter.result stamp.env (call.record stamp timeZone) with
      | none => some journal
      | some _ => none
  | .published stamp =>
      match formatter.result stamp.env (call.record stamp timeZone) with
      | none => none
      | some text => if journal.good then some ⟨journal.bytes ++ text, true⟩ else none
  | .failed stamp taken =>
      match formatter.result stamp.env (call.record stamp timeZone) with
      | none => none
      | some text =>
          if taken ≤ text.length ∧ (journal.good = false → taken = 0) then
            some ⟨journal.bytes ++ text.take taken, false⟩
          else none

def object (formatter : FormatWrapper) (timeZone : TimeZone) :
    AtomicObject Ostream LogCall LogResult :=
  ⟨⟨[], true⟩, perform formatter timeZone⟩

end AtomicJournal

/-! ## What the journal holds -/

namespace AtomicJournal

variable {Thread : Type*} [DecidableEq Thread] (formatter : FormatWrapper) (timeZone : TimeZone)

/-- The text of a call that was published. -/
def publishedText (call : LogCall) : LogResult → Option (List UInt8)
  | .published stamp => formatter.result stamp.env (call.record stamp timeZone)
  | .filtered | .refused _ | .failed _ _ => none

/-- The texts that the calls of a thread have published and returned, in their order. -/
def returnedTexts (i : Thread) (log : List (AtomicObject.Event Thread LogCall LogResult)) :
    List (List UInt8) :=
  log.filterMap fun
    | .ret j call result => if j = i then publishedText formatter timeZone call result else none
    | .call _ _ => none

/-- The text of a call that was published and has not returned. -/
def performedText : AtomicObject.Status LogCall LogResult → Option (List UInt8)
  | .performed call result => publishedText formatter timeZone call result
  | .idle | .pending _ => none

/-- The texts of a journal, each with its thread. -/
def textsOf (i : Thread) (entries : List (Thread × List UInt8)) : List (List UInt8) :=
  entries.filterMap fun entry => if entry.1 = i then some entry.2 else none

/-- The stream holds whole texts, of which each thread's are `texts`, and behind them, where it
has failed, the beginning of one more. -/
def Holds (ostr : Ostream) (texts : Thread → List (List UInt8)) : Prop :=
  ∃ entries cut, ostr.bytes = (entries.map Prod.snd).flatten ++ cut ∧
    (∀ i, textsOf i entries = texts i) ∧
    if ostr.good then cut = []
    else ∃ (call : LogCall) (stamp : Stamp) (text : List UInt8),
      formatter.result stamp.env (call.record stamp timeZone) = some text ∧ cut <+: text

variable {formatter timeZone}

theorem textsOf_append (i : Thread) (entries entries' : List (Thread × List UInt8)) :
    textsOf i (entries ++ entries') = textsOf i entries ++ textsOf i entries' :=
  List.filterMap_append

theorem textsOf_own (i : Thread) (text : List UInt8) : textsOf i [(i, text)] = [text] := by
  simp [textsOf]

theorem textsOf_other {i j : Thread} (hij : j ≠ i) (text : List UInt8) :
    textsOf i [(j, text)] = [] := by
  simp [textsOf, hij]

theorem Holds.published {journal : Ostream} {texts texts' : Thread → List (List UInt8)}
    (h : Holds formatter timeZone journal texts) (hgood : journal.good = true) {j : Thread}
    {text : List UInt8} (hj : texts' j = texts j ++ [text])
    (hother : ∀ i, i ≠ j → texts' i = texts i) :
    Holds formatter timeZone ⟨journal.bytes ++ text, true⟩ texts' := by
  obtain ⟨entries, cut, hbytes, htexts, hcut⟩ := h
  rw [if_pos hgood] at hcut
  refine ⟨entries ++ [(j, text)], [], ?_, fun i => ?_, (if_pos rfl).mpr rfl⟩
  · simp [hbytes, hcut]
  rw [textsOf_append, htexts]
  obtain rfl | hij := eq_or_ne i j
  · rw [hj, textsOf_own]
  · rw [hother i hij, textsOf_other hij.symm, List.append_nil]

theorem Holds.failed {journal : Ostream} {texts : Thread → List (List UInt8)} {call : LogCall}
    {stamp : Stamp} {text : List UInt8} {taken : Nat} (h : Holds formatter timeZone journal texts)
    (htext : formatter.result stamp.env (call.record stamp timeZone) = some text)
    (hbad : journal.good = false → taken = 0) :
    Holds formatter timeZone ⟨journal.bytes ++ text.take taken, false⟩ texts := by
  obtain ⟨entries, cut, hbytes, htexts, hcut⟩ := h
  cases hgood : journal.good with
  | true =>
      rw [if_pos hgood] at hcut
      refine ⟨entries, text.take taken, by simp [hbytes, hcut], htexts, ?_⟩
      exact ⟨call, stamp, text, htext, List.take_prefix _ _⟩
  | false =>
      rw [hgood] at hcut
      refine ⟨entries, cut, ?_, htexts, hcut⟩
      rw [hbad hgood, List.take_zero, List.append_nil, hbytes]

/-- A call publishes its text as a whole, and one that does not leaves at most a beginning of
it in a stream that has failed. -/
theorem Holds.perform {journal journal' : Ostream} {texts texts' : Thread → List (List UInt8)}
    {j : Thread} {call : LogCall} {result : LogResult}
    (h : Holds formatter timeZone journal texts)
    (hperform : AtomicJournal.perform formatter timeZone journal call result = some journal')
    (hj : texts' j = texts j ++ (publishedText formatter timeZone call result).toList)
    (hother : ∀ i, i ≠ j → texts' i = texts i) :
    Holds formatter timeZone journal' texts' := by
  have hsame (hnone : publishedText formatter timeZone call result = none) : texts' = texts := by
    funext i
    obtain rfl | hij := eq_or_ne i j
    · rw [hj, hnone, Option.toList_none, List.append_nil]
    · exact hother i hij
  cases result with
  | filtered =>
      obtain rfl := Option.some.inj hperform
      exact hsame rfl ▸ h
  | refused stamp =>
      simp only [AtomicJournal.perform] at hperform
      split at hperform
      · obtain rfl := Option.some.inj hperform
        exact hsame rfl ▸ h
      · cases hperform
  | published stamp =>
      simp only [AtomicJournal.perform] at hperform
      split at hperform
      · cases hperform
      rename_i text htext
      split at hperform
      · rename_i hgood
        obtain rfl := Option.some.inj hperform
        rw [publishedText, htext] at hj
        exact h.published hgood hj hother
      · cases hperform
  | failed stamp taken =>
      simp only [AtomicJournal.perform] at hperform
      split at hperform
      · cases hperform
      rename_i text htext
      split at hperform
      · rename_i hbad
        obtain rfl := Option.some.inj hperform
        exact hsame rfl ▸ h.failed htext hbad.2
      · cases hperform

/-- What the stream has of a thread: the texts of the calls that returned, and of the one
that will. -/
def texts (formatter : FormatWrapper) (timeZone : TimeZone)
    (s : Logged (AtomicObject.State Thread Ostream LogCall LogResult)
      (AtomicObject.Event Thread LogCall LogResult)) (i : Thread) : List (List UInt8) :=
  returnedTexts formatter timeZone i s.log ++
    (performedText formatter timeZone (s.state.status i)).toList

end AtomicJournal

namespace Logger

/-! ## The source -/

/-- `FormatWrapper::Result::ptr_`: to an array of its own, or to `BUFFER_`. -/
inductive LinePtr
  | own (text : List UInt8)
  | kept

/-- Where a thread stands: the statement that comes next. -/
inductive Pc
  | out
  /-- `if (severity > log_level_)` -/
  | test (call : LogCall)
  /-- the `WriteGuard` -/
  | lock (call : LogCall)
  /-- the record, and `formatter_.format(record)` -/
  | format (call : LogCall)
  /-- `ostr_ << line.get()`: the sentry and `strlen` -/
  | sentry (call : LogCall) (stamp : Stamp) (line : LinePtr)
  /-- the character at `taken`, of `length` -/
  | write (call : LogCall) (stamp : Stamp) (line : LinePtr) (length taken : Nat)
  /-- `<< std::flush` -/
  | flush (call : LogCall) (stamp : Stamp) (taken : Nat)
  /-- `if (!ostr_.good())` -/
  | good (call : LogCall) (stamp : Stamp) (taken : Nat)
  /-- the end of the `WriteGuard` -/
  | unlock (call : LogCall) (result : LogResult)
  /-- `*error_stream_ << ...` of the catch block, of which `rest` is left -/
  | report (call : LogCall) (result : LogResult) (rest : List UInt8)
  | ret (call : LogCall) (result : LogResult)

/-- The thread is between the `WriteGuard` and its end. -/
def Pc.inside : Pc → Bool
  | .format _ | .sentry _ _ _ | .write _ _ _ _ _ | .flush _ _ _ | .good _ _ _ | .unlock _ _ => true
  | .out | .test _ | .lock _ | .report _ _ _ | .ret _ _ => false

/-- The logger and its threads.  `journal` is what the calls that are through with the
stream have made of it. -/
structure State (Thread : Type*) where
  owner : Option Thread
  handler : Handler
  logLevel : Int
  threads : Thread → Pc
  errorStream : ErrorStream
  journal : Ostream

inductive Action (Thread : Type*)
  | call (i : Thread) (call : LogCall)
  /-- the next statement of the thread; `takes` says whether the stream buffer does its part -/
  | next (i : Thread) (stamp : Stamp) (takes : Bool)
  /-- `log_level(value)` -/
  | logLevel (value : UInt64)

variable {Thread : Type*} [DecidableEq Thread]

/-- The thread comes to `pc`. -/
def State.goTo (s : State Thread) (i : Thread) (pc : Pc) : State Thread :=
  { s with threads := Function.update s.threads i pc }

/-- The handler's stream. -/
def State.withOstr (s : State Thread) (ostr : Ostream) : State Thread :=
  { s with handler := ⟨s.handler.formatter, ostr⟩ }

/-- The memory that a line points to. -/
def memory (handler : Handler) : LinePtr → List UInt8
  | .own text => text ++ [0]
  | .kept => handler.formatter.buffer

/-- The next statement of the thread `i`. -/
def next (timeZone : TimeZone) (s : State Thread) (i : Thread) (stamp : Stamp) (takes : Bool) :
    Option (State Thread) :=
  match s.threads i with
  | .out => none
  | .test call =>
      if sizeT s.logLevel < call.severity.toNat then some (s.goTo i (.ret call .filtered))
      else some (s.goTo i (.lock call))
  | .lock call =>
      if s.owner.isNone then some { s.goTo i (.format call) with owner := some i } else none
  | .format call =>
      match s.handler.formatter.format stamp.env (call.record stamp timeZone) with
      | .error _ => none
      | .ok (none, formatter) =>
          some { s.goTo i (.unlock call (.refused stamp)) with
            handler := ⟨formatter, s.handler.ostr⟩ }
      | .ok (some text, formatter) =>
          some { s.goTo i (.sentry call stamp
              (if formatter.allocated = 0 then .own text else .kept)) with
            handler := ⟨formatter, s.handler.ostr⟩ }
  | .sentry call stamp line =>
      if s.handler.ostr.good then
        some (s.goTo i (.write call stamp line
          (FormatWrapper.cString (memory s.handler line)).length 0))
      else some (s.goTo i (.flush call stamp 0))
  | .write call stamp line length taken =>
      if taken = length then some (s.goTo i (.flush call stamp taken))
      else
        match (memory s.handler line)[taken]? with
        | none => none
        | some ch =>
            if takes then
              some ((s.withOstr ⟨s.handler.ostr.bytes ++ [ch], s.handler.ostr.good⟩).goTo i
                (.write call stamp line length (taken + 1)))
            else some ((s.withOstr ⟨s.handler.ostr.bytes, false⟩).goTo i (.flush call stamp taken))
  | .flush call stamp taken =>
      some ((s.withOstr ⟨s.handler.ostr.bytes, s.handler.ostr.good && takes⟩).goTo i
        (.good call stamp taken))
  | .good call stamp taken =>
      some { s.goTo i (.unlock call
          (if s.handler.ostr.good then .published stamp else .failed stamp taken)) with
        journal := s.handler.ostr }
  | .unlock call result =>
      some { s.goTo i (.report call result result.report) with owner := none }
  | .report call result [] => some (s.goTo i (.ret call result))
  | .report call result (ch :: rest) =>
      match s.errorStream with
      | .null => some (s.goTo i (.ret call result))
      | .logged =>
          if s.handler.ostr.good then
            some ((s.withOstr ⟨if takes then s.handler.ostr.bytes ++ [ch] else
              s.handler.ostr.bytes, takes⟩).goTo i (.report call result rest))
          else some (s.goTo i (.report call result rest))
      | .other bytes =>
          some { s.goTo i (.report call result rest) with
            errorStream := .other (if takes then bytes ++ [ch] else bytes) }
  | .ret _ _ => some (s.goTo i .out)

def step (timeZone : TimeZone) (s : State Thread) : Action Thread → Option (State Thread)
  | .call i call =>
      match s.threads i with
      | .out => some (s.goTo i (.test call))
      | _ => none
  | .next i stamp takes => next timeZone s i stamp takes
  | .logLevel value => some { s with logLevel := castInt value.toNat }

/-- A new logger under any interleaving of its threads. -/
def system (Thread : Type*) [DecidableEq Thread] (formatter : FormatWrapper) (logLevel : UInt64)
    (timeZone : TimeZone) (errorStream : ErrorStream) :
    TransitionSystem (State Thread) (Action Thread) :=
  ⟨⟨none, ⟨formatter, ⟨[], true⟩⟩, castInt logLevel.toNat, fun _ => .out, errorStream,
    ⟨[], true⟩⟩, step timeZone⟩

/-- The texts of a call have a size that an `int` can hold, and the clock shows a time that
`struct tm` can hold. -/
def Ordinary (timeZone : TimeZone) : Action Thread → Prop
  | .call _ call => call.Short
  | .next _ stamp _ => stamp.Ok timeZone
  | .logLevel _ => True

/-! ## Every call takes effect at one moment -/

/-- What the clients of the journal see of a thread. -/
def Pc.status : Pc → AtomicObject.Status LogCall LogResult
  | .out => .idle
  | .test call | .lock call | .format call => .pending call
  | .sentry call _ _ | .write call _ _ _ _ | .flush call _ _ | .good call _ _ => .pending call
  | .unlock call result | .report call result _ | .ret call result => .performed call result

def project (s : State Thread) : AtomicObject.State Thread Ostream LogCall LogResult :=
  ⟨s.journal, Pc.status ∘ s.threads⟩

/-- The calls and the returns. -/
def observed (s : State Thread) :
    Action Thread → Option (AtomicObject.Event Thread LogCall LogResult)
  | .call i call => some (.call i call)
  | .next i _ _ =>
      match s.threads i with
      | .ret call result => some (.ret i call result)
      | _ => none
  | .logLevel _ => none

section

variable (formatter : FormatWrapper) (timeZone : TimeZone)

/-- `text` is the line that the formatter makes of the call. -/
def LineText (call : LogCall) (stamp : Stamp) (text : List UInt8) : Prop :=
  formatter.result stamp.env (call.record stamp timeZone) = some text

/-- What a call that is through with the stream knows: only a kept buffer refuses a record, and
a stream that has failed stays so. -/
def Settled (handler : Handler) (call : LogCall) : LogResult → Prop
  | .filtered | .published _ => True
  | .refused stamp => formatter.result stamp.env (call.record stamp timeZone) = none
  | .failed _ _ => handler.ostr.good = false

/-- How far the thread is: what the stream has of its line while it has the mutex. -/
def Progress (handler : Handler) (journal : Ostream) : Pc → Prop
  | .out | .ret _ _ => True
  | .test call | .lock call => call.Short
  | .format call => call.Short ∧ handler.ostr = journal
  | .unlock call result =>
      handler.ostr = journal ∧ Settled formatter timeZone handler call result
  | .report call result rest =>
      Settled formatter timeZone handler call result ∧ rest.length ≤ result.report.length
  | .sentry call stamp line => ∃ text, LineText formatter timeZone call stamp text ∧
      FormatWrapper.cString (memory handler line) = text ∧ handler.ostr = journal
  | .write call stamp line length taken => ∃ text,
      LineText formatter timeZone call stamp text ∧
        FormatWrapper.cString (memory handler line) = text ∧ length = text.length ∧
        taken ≤ text.length ∧ journal.good = true ∧
        handler.ostr = ⟨journal.bytes ++ text.take taken, true⟩
  | .flush call stamp taken | .good call stamp taken => ∃ text,
      LineText formatter timeZone call stamp text ∧ taken ≤ text.length ∧
        handler.ostr.bytes = journal.bytes ++ text.take taken ∧
        (handler.ostr.good = true → journal.good = true ∧ taken = text.length) ∧
        (journal.good = false → taken = 0)

/-- The mutex protects the handler, and the journal is the stream while nobody has it. -/
structure Inv (s : State Thread) : Prop where
  held : Mutex.Held Pc.inside s.owner s.threads
  formatter_eq : s.handler.formatter =
    ⟨formatter.formatter, formatter.allocated, s.handler.formatter.buffer⟩
  buffer : s.handler.formatter.buffer.length = formatter.allocated
  free : s.owner = none → s.handler.ostr = s.journal
  progress : ∀ i, Progress formatter timeZone s.handler s.journal (s.threads i)
  errorStream : s.errorStream = .logged → formatter.allocated = 0

end

section Steps

variable {s t : State Thread} {i : Thread} {pc : Pc} {formatter : FormatWrapper}
  {timeZone : TimeZone} {call : LogCall} {result : LogResult}

theorem status_goTo (s : State Thread) (i : Thread) (pc : Pc) :
    Pc.status ∘ (s.goTo i pc).threads = Function.update (Pc.status ∘ s.threads) i pc.status :=
  Function.comp_update ..

theorem Settled.of_failed {handler handler' : Handler}
    (h : Settled formatter timeZone handler call result)
    (hfailed : handler.ostr.good = false → handler'.ostr.good = false) :
    Settled formatter timeZone handler' call result := by
  cases result with
  | filtered | published => trivial
  | refused => exact h
  | failed => exact hfailed h

/-- Outside of the mutex all that is said of the handler is that its stream has failed. -/
theorem Progress.of_outside {handler handler' : Handler} {journal journal' : Ostream}
    (h : Progress formatter timeZone handler journal pc) (houtside : pc.inside = false)
    (hfailed : handler.ostr.good = false → handler'.ostr.good = false) :
    Progress formatter timeZone handler' journal' pc := by
  cases pc with
  | out | test | lock | ret => exact h
  | report => exact ⟨h.1.of_failed hfailed, h.2⟩
  | format | sentry | write | flush | good | unlock => cases houtside

/-- A step of a thread that does not have the mutex. -/
theorem Inv.outside (hs : Inv formatter timeZone s) (hi : (s.threads i).inside = false)
    (hpc : pc.inside = false) (hprogress : Progress formatter timeZone s.handler s.journal pc) :
    Inv formatter timeZone (s.goTo i pc) where
  held := hs.held.keep (hpc.trans hi.symm)
  formatter_eq := hs.formatter_eq
  buffer := hs.buffer
  free := hs.free
  progress := (Function.forall_update_iff s.threads
    fun _ pc => Progress formatter timeZone s.handler s.journal pc).mpr
      ⟨hprogress, fun j _ => hs.progress j⟩
  errorStream := hs.errorStream

/-- A thread takes the mutex. -/
theorem Inv.take (hs : Inv formatter timeZone s) (hfree : s.owner = none) (hcall : call.Short) :
    Inv formatter timeZone { s.goTo i (.format call) with owner := some i } where
  held := by
    have hheld := hs.held
    rw [hfree] at hheld
    exact hheld.take i rfl
  formatter_eq := hs.formatter_eq
  buffer := hs.buffer
  free := fun h => nomatch h
  progress := (Function.forall_update_iff s.threads
    fun _ pc => Progress formatter timeZone s.handler s.journal pc).mpr
      ⟨⟨hcall, hs.free hfree⟩, fun j _ => hs.progress j⟩
  errorStream := hs.errorStream

/-- A step of the thread that has the mutex and keeps it: whatever it does to the handler, the
others are outside. -/
theorem Inv.inside (hs : Inv formatter timeZone s) (hi : (s.threads i).inside = true) (pc : Pc)
    (hpc : pc.inside = true) (howner : t.owner = s.owner) (herror : t.errorStream = s.errorStream)
    (hthreads : t.threads = Function.update s.threads i pc)
    (hformatter : t.handler.formatter =
      ⟨formatter.formatter, formatter.allocated, t.handler.formatter.buffer⟩)
    (hbuffer : t.handler.formatter.buffer.length = formatter.allocated)
    (hfailed : s.handler.ostr.good = false → t.handler.ostr.good = false)
    (hprogress : Progress formatter timeZone t.handler t.journal pc) :
    Inv formatter timeZone t where
  held := by
    rw [howner, hthreads]
    exact hs.held.keep (hpc.trans hi.symm)
  formatter_eq := hformatter
  buffer := hbuffer
  free := by
    intro hnone
    rw [howner, (hs.held i).mpr hi] at hnone
    cases hnone
  progress := by
    rw [hthreads]
    exact (Function.forall_update_iff s.threads
      fun _ pc => Progress formatter timeZone t.handler t.journal pc).mpr
        ⟨hprogress,
          fun j hj => (hs.progress j).of_outside (hs.held.outside_of_inside hi hj) hfailed⟩
  errorStream := herror ▸ hs.errorStream

/-- The thread releases the mutex. -/
theorem Inv.release (hs : Inv formatter timeZone s) (hpc : s.threads i = .unlock call result) :
    Inv formatter timeZone
      { s.goTo i (.report call result result.report) with owner := none } where
  held := by
    have hi : (s.threads i).inside = true := by rw [hpc]; rfl
    have hheld := hs.held
    rw [(hs.held i).mpr hi] at hheld
    exact hheld.release rfl
  formatter_eq := hs.formatter_eq
  buffer := hs.buffer
  free := by
    intro _
    have hprogress := hs.progress i
    rw [hpc] at hprogress
    exact hprogress.1
  progress := by
    have hprogress := hs.progress i
    rw [hpc] at hprogress
    exact (Function.forall_update_iff s.threads
      fun _ pc => Progress formatter timeZone s.handler s.journal pc).mpr
        ⟨⟨hprogress.2, Nat.le_refl _⟩, fun j _ => hs.progress j⟩
  errorStream := hs.errorStream

/-- A character of a report goes to another stream than the handler's. -/
theorem Inv.withErrorStream (hs : Inv formatter timeZone (s.goTo i pc)) (bytes : List UInt8) :
    Inv formatter timeZone { s.goTo i pc with errorStream := .other bytes } where
  held := hs.held
  formatter_eq := hs.formatter_eq
  buffer := hs.buffer
  free := hs.free
  progress := hs.progress
  errorStream := fun h => nomatch h

/-- A step that the clients do not see. -/
theorem simulated_silent (hjournal : t.journal = s.journal)
    (hthreads : t.threads = (s.goTo i pc).threads) (hpc : pc.status = (s.threads i).status) :
    (AtomicJournal.object formatter timeZone).Simulated (project s) (project t) none := by
  refine .silent ?_
  rw [project, project, hjournal, hthreads, status_goTo, hpc]
  exact congrArg _ (Function.update_eq_self i _)

/-- The moment of a call. -/
theorem simulated_perform (hthreads : t.threads = (s.goTo i pc).threads)
    (hi : (s.threads i).status = .pending call)
    (hperform : AtomicJournal.perform formatter timeZone s.journal call result = some t.journal)
    (hpc : pc.status = .performed call result) :
    (AtomicJournal.object formatter timeZone).Simulated (project s) (project t) none := by
  refine .perform i call result t.journal hi hperform ?_
  rw [project, hthreads, status_goTo, hpc]
  rfl

/-- The line that a handler gets is where its pointer says. -/
theorem cString_memory {w w' : FormatWrapper} {env : Environment} {record : LogRecord}
    {text : List UInt8} (ostr : Ostream) (h : w.format env record = .ok (some text, w')) :
    FormatWrapper.cString (memory ⟨w', ostr⟩
      (if w'.allocated = 0 then .own text else .kept)) = text := by
  unfold FormatWrapper.format at h
  split at h
  · rename_i hzero
    obtain ⟨array, -, hdone⟩ := Fault.bind_eq_ok.mp h
    obtain ⟨htext, rfl⟩ := Prod.mk.inj (Except.ok.inj hdone)
    obtain rfl := Option.some.inj htext
    rw [if_pos hzero, memory, FormatWrapper.cString_append]
    exact List.takeWhile_idem
  · rename_i hkept
    obtain ⟨⟨done, buffer⟩, -, hdone⟩ := Fault.bind_eq_ok.mp h
    obtain ⟨htext, rfl⟩ := Prod.mk.inj (Except.ok.inj hdone)
    rw [if_neg hkept, memory]
    cases done with
    | false => cases htext
    | true => exact Option.some.inj htext

/-- The character that comes next in a line. -/
theorem getElem?_cString {buf : List UInt8} {n : Nat}
    (hn : n < (FormatWrapper.cString buf).length) :
    buf[n]? = some (FormatWrapper.cString buf)[n] := by
  have hprefix : FormatWrapper.cString buf <+: buf := List.takeWhile_prefix _
  exact List.prefix_iff_getElem?.mp hprefix n hn

/-- The thread formats its record. -/
theorem Inv.format (hs : Inv formatter timeZone s) {stamp : Stamp} {takes : Bool}
    (hpc : s.threads i = .format call) (hstamp : stamp.Ok timeZone)
    (hsize : formatter.allocated < 2 ^ 31) (h : next timeZone s i stamp takes = some t) :
    Inv formatter timeZone t ∧
      (AtomicJournal.object formatter timeZone).Simulated (project s) (project t) none := by
  have hi : (s.threads i).inside = true := by rw [hpc]; rfl
  have hprogress := hs.progress i
  rw [hpc] at hprogress
  obtain ⟨hcall, hostr⟩ := hprogress
  have hallocated : s.handler.formatter.allocated = formatter.allocated := by
    rw [hs.formatter_eq]
  have hresult : s.handler.formatter.result stamp.env (call.record stamp timeZone) =
      formatter.result stamp.env (call.record stamp timeZone) := by
    rw [hs.formatter_eq]
    rfl
  obtain ⟨buffer, hlength, hformat⟩ := FormatWrapper.format_result (hcall.proper hstamp)
    (hs.buffer.trans hallocated.symm) (hallocated ▸ hsize)
    fun _ => hcall.requiredSize stamp timeZone
  have hsame : (⟨s.handler.formatter.formatter, s.handler.formatter.allocated, buffer⟩ :
      FormatWrapper) = ⟨formatter.formatter, formatter.allocated, buffer⟩ := by
    rw [hs.formatter_eq]
  rw [hresult, hsame] at hformat
  rw [hallocated] at hlength
  unfold next at h
  cases hline : formatter.result stamp.env (call.record stamp timeZone) with
  | none =>
      simp only [hpc, hformat, hline] at h
      obtain rfl := Option.some.inj h
      refine ⟨hs.inside hi (.unlock call (.refused stamp)) rfl rfl rfl rfl rfl hlength id
        ⟨hostr, hline⟩, ?_⟩
      refine simulated_perform rfl (by rw [hpc]; rfl) ?_ rfl
      simp [AtomicJournal.perform, hline, State.goTo]
  | some text =>
      simp only [hpc, hformat, hline] at h
      obtain rfl := Option.some.inj h
      rw [hline] at hformat
      refine ⟨hs.inside hi (.sentry call stamp _) rfl rfl rfl rfl rfl hlength id ?_, ?_⟩
      · exact ⟨text, hline, cString_memory s.handler.ostr hformat, hostr⟩
      · exact simulated_silent rfl rfl (by rw [hpc]; rfl)

/-- The thread is about to write its line: it goes to the stream, or the stream has failed
already. -/
theorem Inv.sentry (hs : Inv formatter timeZone s) {stamp stamp' : Stamp} {takes : Bool}
    {line : LinePtr} (hpc : s.threads i = .sentry call stamp line)
    (h : next timeZone s i stamp' takes = some t) :
    Inv formatter timeZone t ∧
      (AtomicJournal.object formatter timeZone).Simulated (project s) (project t) none := by
  have hi : (s.threads i).inside = true := by rw [hpc]; rfl
  have hpending : (s.threads i).status = .pending call := by rw [hpc]; rfl
  have hprogress := hs.progress i
  rw [hpc] at hprogress
  obtain ⟨text, htext, hline, hostr⟩ := hprogress
  simp only [next, hpc] at h
  split at h
  · rename_i hgood
    obtain rfl := Option.some.inj h
    refine ⟨hs.inside hi (.write call stamp line _ 0) rfl rfl rfl rfl hs.formatter_eq hs.buffer
      id ?_, simulated_silent rfl rfl hpending.symm⟩
    refine ⟨text, htext, hline, by rw [hline], Nat.zero_le _, hostr ▸ hgood, ?_⟩
    show s.handler.ostr = ⟨s.journal.bytes ++ [], true⟩
    rw [hostr] at hgood ⊢
    rw [List.append_nil, ← hgood]
  · rename_i hbad
    obtain rfl := Option.some.inj h
    refine ⟨hs.inside hi (.flush call stamp 0) rfl rfl rfl rfl hs.formatter_eq hs.buffer id ?_,
      simulated_silent rfl rfl hpending.symm⟩
    refine ⟨text, htext, Nat.zero_le _, ?_, fun hgood => absurd hgood hbad, fun _ => rfl⟩
    show s.handler.ostr.bytes = _
    rw [hostr]
    simp [State.goTo]

/-- The thread writes its line: the stream takes a character, or fails. -/
theorem Inv.write (hs : Inv formatter timeZone s) {stamp stamp' : Stamp} {takes : Bool}
    {line : LinePtr} {length taken : Nat} (hpc : s.threads i = .write call stamp line length taken)
    (h : next timeZone s i stamp' takes = some t) :
    Inv formatter timeZone t ∧
      (AtomicJournal.object formatter timeZone).Simulated (project s) (project t) none := by
  have hi : (s.threads i).inside = true := by rw [hpc]; rfl
  have hpending : (s.threads i).status = .pending call := by rw [hpc]; rfl
  have hprogress := hs.progress i
  rw [hpc] at hprogress
  obtain ⟨text, htext, hline, hlength, htaken, hgood, hostr⟩ := hprogress
  simp only [next, hpc] at h
  split at h
  · rename_i hend
    obtain rfl := Option.some.inj h
    refine ⟨hs.inside hi (.flush call stamp taken) rfl rfl rfl rfl hs.formatter_eq hs.buffer id
      ?_, simulated_silent rfl rfl hpending.symm⟩
    refine ⟨text, htext, htaken, congrArg Ostream.bytes hostr,
      fun _ => ⟨hgood, hend.trans hlength⟩, fun hbad => ?_⟩
    exact absurd (hgood.symm.trans hbad) (by decide)
  · rename_i hmore
    have hlt : taken < text.length := by omega
    have hchar : (memory s.handler line)[taken]? = some text[taken] := by
      subst hline
      exact getElem?_cString hlt
    simp only [hchar] at h
    split at h
    · obtain rfl := Option.some.inj h
      refine ⟨hs.inside hi (.write call stamp line length (taken + 1)) rfl rfl rfl rfl
        hs.formatter_eq hs.buffer id ?_, simulated_silent rfl rfl hpending.symm⟩
      refine ⟨text, htext, hline, hlength, hlt, hgood, ?_⟩
      rw [List.take_add_one, List.getElem?_eq_getElem hlt]
      simp [State.goTo, State.withOstr, hostr]
    · obtain rfl := Option.some.inj h
      refine ⟨hs.inside hi (.flush call stamp taken) rfl rfl rfl rfl hs.formatter_eq hs.buffer
        (fun _ => rfl) ?_, simulated_silent rfl rfl hpending.symm⟩
      have hbytes := congrArg Ostream.bytes hostr
      refine ⟨text, htext, htaken, hbytes, fun hfailed => ?_, fun hbad => ?_⟩
      · cases hfailed
      · exact absurd (hgood.symm.trans hbad) (by decide)

/-- The thread flushes the stream, which may fail now. -/
theorem Inv.flush (hs : Inv formatter timeZone s) {stamp stamp' : Stamp} {takes : Bool}
    {taken : Nat} (hpc : s.threads i = .flush call stamp taken)
    (h : next timeZone s i stamp' takes = some t) :
    Inv formatter timeZone t ∧
      (AtomicJournal.object formatter timeZone).Simulated (project s) (project t) none := by
  have hi : (s.threads i).inside = true := by rw [hpc]; rfl
  have hpending : (s.threads i).status = .pending call := by rw [hpc]; rfl
  have hprogress := hs.progress i
  rw [hpc] at hprogress
  obtain ⟨text, htext, htaken, hbytes, hgood, hbad⟩ := hprogress
  simp only [next, hpc] at h
  obtain rfl := Option.some.inj h
  refine ⟨hs.inside hi (.good call stamp taken) rfl rfl rfl rfl hs.formatter_eq hs.buffer
    (fun hbad => Bool.and_eq_false_iff.mpr (Or.inl hbad)) ?_,
    simulated_silent rfl rfl hpending.symm⟩
  exact ⟨text, htext, htaken, hbytes, fun h => hgood (Bool.and_eq_true_iff.mp h).1, hbad⟩

/-- The thread asks whether the stream is good.  This is the moment of the call: the journal
takes the whole line, or what the stream has taken of it. -/
theorem Inv.good (hs : Inv formatter timeZone s) {stamp stamp' : Stamp} {takes : Bool}
    {taken : Nat} (hpc : s.threads i = .good call stamp taken)
    (h : next timeZone s i stamp' takes = some t) :
    Inv formatter timeZone t ∧
      (AtomicJournal.object formatter timeZone).Simulated (project s) (project t) none := by
  have hi : (s.threads i).inside = true := by rw [hpc]; rfl
  have hpending : (s.threads i).status = .pending call := by rw [hpc]; rfl
  have hprogress := hs.progress i
  rw [hpc] at hprogress
  obtain ⟨text, htext, htaken, hbytes, hgood, hbad⟩ := hprogress
  simp only [next, hpc] at h
  obtain rfl := Option.some.inj h
  refine ⟨hs.inside hi (.unlock call _) rfl rfl rfl rfl hs.formatter_eq hs.buffer id ⟨rfl, ?_⟩,
    simulated_perform rfl hpending ?_ rfl⟩
  · show Settled formatter timeZone s.handler call _
    split
    · trivial
    · rename_i hfailed
      exact Bool.eq_false_iff.mpr hfailed
  show AtomicJournal.perform formatter timeZone s.journal call _ = some s.handler.ostr
  have hresult : formatter.result stamp.env (call.record stamp timeZone) = some text := htext
  split
  · rename_i hdone
    obtain ⟨hjournal, rfl⟩ := hgood hdone
    rw [List.take_length] at hbytes
    simp only [AtomicJournal.perform, hresult]
    rw [if_pos hjournal, ← hbytes, ← hdone]
  · rename_i hfailed
    simp only [AtomicJournal.perform, hresult]
    rw [if_pos ⟨htaken, hbad⟩, ← hbytes, ← Bool.eq_false_iff.mpr hfailed]

/-- A buffer that is made for the call is never too small. -/
theorem result_ne_none {stamp : Stamp} (hzero : formatter.allocated = 0) :
    formatter.result stamp.env (call.record stamp timeZone) ≠ none := by
  rw [FormatWrapper.result, if_pos (Or.inl hzero)]
  exact Option.some_ne_none _

/-- The thread writes of an exception to the error stream.  Where that is the handler's, the
stream has failed and takes nothing. -/
theorem Inv.report (hs : Inv formatter timeZone s) {stamp : Stamp} {takes : Bool}
    {rest : List UInt8} (hpc : s.threads i = .report call result rest)
    (h : next timeZone s i stamp takes = some t) :
    Inv formatter timeZone t ∧
      (AtomicJournal.object formatter timeZone).Simulated (project s) (project t) none := by
  have hi : (s.threads i).inside = false := by rw [hpc]; rfl
  have hstatus : (s.threads i).status = .performed call result := by rw [hpc]; rfl
  have hprogress := hs.progress i
  rw [hpc] at hprogress
  obtain ⟨hsettled, hrest⟩ := hprogress
  cases rest with
  | nil =>
      simp only [Logger.next, hpc] at h
      obtain rfl := Option.some.inj h
      exact ⟨hs.outside hi rfl trivial, simulated_silent rfl rfl hstatus.symm⟩
  | cons ch rest =>
      have hgoes : Inv formatter timeZone (s.goTo i (.report call result rest)) :=
        hs.outside hi rfl ⟨hsettled, Nat.le_of_succ_le hrest⟩
      simp only [Logger.next, hpc] at h
      cases herror : s.errorStream with
      | null =>
          simp only [herror] at h
          obtain rfl := Option.some.inj h
          exact ⟨hs.outside hi rfl trivial, simulated_silent rfl rfl hstatus.symm⟩
      | logged =>
          have hfailed : s.handler.ostr.good = false := by
            cases result with
            | filtered | published => exact absurd hrest (Nat.not_succ_le_zero _)
            | refused => exact absurd hsettled (result_ne_none (hs.errorStream herror))
            | failed => exact hsettled
          simp only [herror, hfailed] at h
          obtain rfl := Option.some.inj h
          exact ⟨hgoes, simulated_silent rfl rfl hstatus.symm⟩
      | other bytes =>
          simp only [herror] at h
          obtain rfl := Option.some.inj h
          exact ⟨hgoes.withErrorStream _, simulated_silent rfl rfl hstatus.symm⟩

/-- The next statement of a thread. -/
theorem Inv.next (hs : Inv formatter timeZone s) {stamp : Stamp} {takes : Bool}
    (hstamp : stamp.Ok timeZone) (hsize : formatter.allocated < 2 ^ 31)
    (h : Logger.next timeZone s i stamp takes = some t) :
    Inv formatter timeZone t ∧ (AtomicJournal.object formatter timeZone).Simulated
      (project s) (project t) (observed s (.next i stamp takes)) := by
  have hprogress := hs.progress i
  cases hpc : s.threads i with
  | out =>
      simp [Logger.next, hpc] at h
  | test call =>
      simp only [observed, hpc]
      simp only [Logger.next, hpc] at h
      split at h
      · obtain rfl := Option.some.inj h
        refine ⟨hs.outside (by rw [hpc]; rfl) rfl trivial, ?_⟩
        exact simulated_perform rfl (by rw [hpc]; rfl) rfl rfl
      · obtain rfl := Option.some.inj h
        rw [hpc] at hprogress
        exact ⟨hs.outside (by rw [hpc]; rfl) rfl hprogress,
          simulated_silent rfl rfl (by rw [hpc]; rfl)⟩
  | lock call =>
      simp only [observed, hpc]
      simp only [Logger.next, hpc] at h
      split at h
      · rename_i hfree
        obtain rfl := Option.some.inj h
        rw [hpc] at hprogress
        exact ⟨hs.take (Option.isNone_iff_eq_none.mp hfree) hprogress,
          simulated_silent rfl rfl (by rw [hpc]; rfl)⟩
      · cases h
  | format call =>
      simp only [observed, hpc]
      exact hs.format hpc hstamp hsize h
  | sentry call stamp' line =>
      simp only [observed, hpc]
      exact hs.sentry hpc h
  | write call stamp' line length taken =>
      simp only [observed, hpc]
      exact hs.write hpc h
  | flush call stamp' taken =>
      simp only [observed, hpc]
      exact hs.flush hpc h
  | good call stamp' taken =>
      simp only [observed, hpc]
      exact hs.good hpc h
  | unlock call result =>
      simp only [observed, hpc]
      simp only [Logger.next, hpc] at h
      obtain rfl := Option.some.inj h
      exact ⟨hs.release hpc, simulated_silent rfl rfl (by rw [hpc]; rfl)⟩
  | report call result rest =>
      simp only [observed, hpc]
      exact hs.report hpc h
  | ret call result =>
      simp only [observed, hpc]
      simp only [Logger.next, hpc] at h
      obtain rfl := Option.some.inj h
      refine ⟨hs.outside (by rw [hpc]; rfl) rfl trivial, ?_⟩
      refine .ret i call result (congrArg Pc.status hpc) ?_
      rw [project, status_goTo]
      rfl

/-- Each step is a call, a return, the moment of a call, or not seen. -/
theorem Inv.step {a : Action Thread} (hs : Inv formatter timeZone s)
    (hordinary : Ordinary timeZone a) (hsize : formatter.allocated < 2 ^ 31)
    (h : Logger.step timeZone s a = some t) :
    Inv formatter timeZone t ∧ (AtomicJournal.object formatter timeZone).Simulated
      (project s) (project t) (observed s a) := by
  cases a with
  | call i call =>
      simp only [Logger.step] at h
      split at h
      · rename_i hpc
        obtain rfl := Option.some.inj h
        refine ⟨hs.outside (by rw [hpc]; rfl) rfl hordinary, ?_⟩
        refine .call i call (congrArg Pc.status hpc) ?_
        rw [project, status_goTo]
        rfl
      · cases h
  | next i stamp takes => exact hs.next hordinary hsize h
  | logLevel value =>
      simp only [Logger.step] at h
      obtain rfl := Option.some.inj h
      refine ⟨⟨hs.held, hs.formatter_eq, hs.buffer, hs.free, hs.progress, hs.errorStream⟩,
        .silent ?_⟩
      simp only [project]

end Steps

variable {formatter : FormatWrapper} {logLevel : UInt64} {timeZone : TimeZone}
  {errorStream : ErrorStream}

theorem inv_init (hbuffer : formatter.buffer.length = formatter.allocated)
    (herror : errorStream = .logged → formatter.allocated = 0) :
    Inv formatter timeZone (system Thread formatter logLevel timeZone errorStream).init where
  held := fun _ => by simp [system, Pc.inside]
  formatter_eq := rfl
  buffer := hbuffer
  free := fun _ => rfl
  progress := fun _ => trivial
  errorStream := herror

/-- Every run of the logger is one of the atomic journal. -/
theorem simulated (hbuffer : formatter.buffer.length = formatter.allocated)
    (hsize : formatter.allocated < 2 ^ 31)
    (herror : errorStream = .logged → formatter.allocated = 0)
    {s : Logged (State Thread) (AtomicObject.Event Thread LogCall LogResult)}
    (hs : Reachable ((system Thread formatter logLevel timeZone errorStream).logged observed)
      (fun _ a => Ordinary timeZone a) s) :
    Inv formatter timeZone s.state ∧
      Reachable (((AtomicJournal.object formatter timeZone).system Thread).logged
        AtomicObject.event) unguarded ⟨project s.state, s.log⟩ := by
  have hproject : project (system Thread formatter logLevel timeZone errorStream).init =
      ⟨(AtomicJournal.object formatter timeZone).init, fun _ => .idle⟩ := rfl
  exact AtomicObject.simulated_of_steps project (inv_init hbuffer herror) hproject
    (fun _ _ _ hinv hordinary h => hinv.step hordinary hsize h) hs

end Logger

end LiteMQ.Gears.Simple
