/-
The event log as files: one file a day, one event a line.

An event is written as one line of text behind the lines of its day
(`append`, `appendMany`), then as a line in a file for people. Either write
can fail or be cut by a crash anywhere; a `Fault` says which write of a call
it is and how far that write came. What counts is what `iterEvents` reads
back: the files in the order of their names, the lines that parse.
-/
import OpenTulid.Lib.Lines
import OpenTulid.Lib.Store
import OpenTulid.Domain

namespace OpenTulid

-- ============================================================ events

/-- An event with the fields that are written around its envelope. `data` is
the text of the event's data, `none` where it has none (the data does not
serialise). -/
structure LoggedEvent extends EventEnvelope where
  timestamp : String
  projectId : ProjectId
  actorType : String
  actorId : String
  correlationId : String
  data : Option String
  deriving DecidableEq, Repr

/-- `_optional_string`: an empty text is no text. -/
def optionalString : Option String → Option String
  | some "" => none
  | value => value

/-- `event_from_dict` of a written event: the required texts are not empty. -/
def eventFromDict (e : LoggedEvent) : Option LoggedEvent :=
  if e.eventId = "" ∨ e.timestamp = "" ∨ e.projectId = "" ∨ e.actorType = "" ∨
      e.actorId = "" ∨ e.eventType = "" ∨ e.correlationId = "" then none
  else some { e with
    taskId := optionalString e.taskId
    jobId := optionalString e.jobId
    transitionId := optionalString e.transitionId
    submissionId := optionalString e.submissionId }

/-- The zeros of the decimal digits that a pattern's `\d` matches; the nine
digits after a zero follow it. -/
def decimalZeros : List Nat :=
  [0x30, 0x660, 0x6f0, 0x7c0, 0x966, 0x9e6, 0xa66, 0xae6, 0xb66, 0xbe6, 0xc66,
    0xce6, 0xd66, 0xde6, 0xe50, 0xed0, 0xf20, 0x1040, 0x1090, 0x17e0, 0x1810,
    0x1946, 0x19d0, 0x1a80, 0x1a90, 0x1b50, 0x1bb0, 0x1c40, 0x1c50, 0xa620,
    0xa8d0, 0xa900, 0xa9d0, 0xa9f0, 0xaa50, 0xabf0, 0xff10, 0x104a0, 0x10d30,
    0x11066, 0x110f0, 0x11136, 0x111d0, 0x112f0, 0x11450, 0x114d0, 0x11650,
    0x116c0, 0x11730, 0x118e0, 0x11950, 0x11c50, 0x11d50, 0x11da0, 0x16a60,
    0x16ac0, 0x16b50, 0x1d7ce, 0x1d7d8, 0x1d7e2, 0x1d7ec, 0x1d7f6, 0x1e140,
    0x1e2f0, 0x1e950, 0x1fbf0]

/-- `\d` -/
def decimalDigit (c : Char) : Bool :=
  decimalZeros.any fun z => z ≤ c.toNat && c.toNat ≤ z + 9

/-- `\d{4}-\d{2}-\d{2}`, the whole text. -/
def isDate : List Char → Bool
  | [a, b, c, d, '-', e, f, '-', g, h] => [a, b, c, d, e, f, g, h].all decimalDigit
  | _ => false

/-- `_path_for`: the file of an event's day, `none` where it raises. -/
def pathFor (e : LoggedEvent) : Option String :=
  let date := e.timestamp.toList.take 10
  if isDate date then some (String.ofList date) else none

-- ============================================================ the log

/-- The files of the log by their day. -/
abbrev EventLog : Type := Store String (Lines LoggedEvent)

/-- The file of a day; one that was never written holds nothing. -/
def EventLog.file (log : EventLog) (day : String) : Lines LoggedEvent :=
  (log.get day).getD Lines.empty

/-- The events that can be read in a file. -/
def EventLog.fileEvents (log : EventLog) (day : String) : List LoggedEvent :=
  (log.file day).items.filterMap eventFromDict

/-- `iter_events` -/
def EventLog.iterEvents (log : EventLog) : List LoggedEvent :=
  log.entries.flatMap fun entry => entry.2.items.filterMap eventFromDict

/-- `_event_ids_unlocked` -/
def EventLog.eventIds (log : EventLog) : List EventId :=
  log.iterEvents.map (·.eventId)

-- ========================================================= the writes

/-- How a call ends. -/
inductive AppendEnd where
  | accepted
  | error
  | crashed
  deriving DecidableEq, Repr

/-- A write of a call that stops after `lines` whole lines and perhaps a part
of the next, with an error or with the process. The writes are numbered: the
files of the events first, then those for people. -/
structure WriteFault where
  index : Nat
  lines : Nat
  cut : Cut
  crash : Bool
  deriving DecidableEq, Repr

/-- The end of a call whose write stops. -/
def WriteFault.ends (f : WriteFault) : AppendEnd :=
  if f.crash then .crashed else .error

/-- What goes wrong in a call: the lock is not taken, or a write stops. -/
inductive Fault where
  | lock
  | write (f : WriteFault)
  deriving DecidableEq, Repr

/-- `prepared.setdefault(path, []).append(line)` -/
def addLine (day : String) (e : LoggedEvent) :
    List (String × List LoggedEvent) → List (String × List LoggedEvent)
  | [] => [(day, [e])]
  | (d, lines) :: rest =>
      if d = day then (d, lines ++ [e]) :: rest
      else (d, lines) :: addLine day e rest

/-- The loop of `append_many` over its events: the lines to write by file,
in the order the files were met; `none` where it raises. -/
def prepareLines (existing : List EventId)
    (prepared : List (String × List LoggedEvent)) :
    List LoggedEvent → Option (List (String × List LoggedEvent))
  | [] => some prepared
  | e :: rest =>
      if e.eventId ∈ existing then prepareLines existing prepared rest
      else
        match pathFor e, e.data with
        | some day, some _ =>
            prepareLines (e.eventId :: existing) (addLine day e prepared) rest
        | _, _ => none

/-- `_append_lines` of the events of each file in turn, from the write of
number `i` on; `none` where all are written. -/
def writeLines (fault : Option WriteFault) (i : Nat) :
    List (String × List LoggedEvent) → EventLog → EventLog × Option AppendEnd
  | [], log => (log, none)
  | (day, lines) :: rest, log =>
      match fault.filter fun f => f.index = i with
      | some f =>
          (log.put day ((log.file day).appendTorn lines f.lines f.cut), some f.ends)
      | none =>
          writeLines fault (i + 1) rest
            (log.put day ((log.file day).appendAll lines))

/-- The same for the `count` files for people, of which nothing is read. -/
def writeHumanLines (fault : Option WriteFault) (i count : Nat) :
    Option AppendEnd :=
  (fault.filter fun f => i ≤ f.index ∧ f.index < i + count).map WriteFault.ends

/-- The lines of the events, then those for people. -/
def writePrepared (fault : Option WriteFault)
    (prepared : List (String × List LoggedEvent)) (log : EventLog) :
    EventLog × AppendEnd :=
  match writeLines fault 0 prepared log with
  | (log, some ended) => (log, ended)
  | (log, none) =>
      (log, (writeHumanLines fault prepared.length prepared.length).getD .accepted)

-- ========================================================== the calls

/-- `append` under the lock. -/
def EventLog.appendUnlocked (fault : Option WriteFault) (log : EventLog)
    (e : LoggedEvent) : EventLog × AppendEnd :=
  match pathFor e with
  | none => (log, .error)
  | some day =>
      if e.eventId ∈ log.eventIds then (log, .accepted)
      else
        match e.data with
        | none => (log, .error)
        | some _ => writePrepared fault [(day, [e])] log

/-- `append_many` under the lock. -/
def EventLog.appendManyUnlocked (fault : Option WriteFault) (log : EventLog)
    (events : List LoggedEvent) : EventLog × AppendEnd :=
  match prepareLines log.eventIds [] events with
  | none => (log, .error)
  | some prepared => writePrepared fault prepared log

/-- A call of the store. -/
inductive AppendCall where
  | append (event : LoggedEvent)
  | appendMany (events : List LoggedEvent)
  deriving DecidableEq, Repr

/-- The events of a call. -/
def AppendCall.events : AppendCall → List LoggedEvent
  | .append e => [e]
  | .appendMany events => events

/-- A call and what goes wrong in it. -/
structure AppendStep where
  call : AppendCall
  fault : Option Fault := none
  deriving DecidableEq, Repr

/-- A call that has the lock. -/
def AppendCall.runUnlocked (call : AppendCall) (fault : Option WriteFault)
    (log : EventLog) : EventLog × AppendEnd :=
  match call with
  | .append e => log.appendUnlocked fault e
  | .appendMany events => log.appendManyUnlocked fault events

/-- `append` and `append_many` -/
def AppendStep.run (s : AppendStep) (log : EventLog) : EventLog × AppendEnd :=
  match s.fault with
  | some .lock => (log, .error)
  | some (.write f) => s.call.runUnlocked (some f) log
  | none => s.call.runUnlocked none log

end OpenTulid
