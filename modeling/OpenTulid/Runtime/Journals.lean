/-
Transaction journals as files: the record, its JSON, and what is read back.

# Writing

`journalToDict` and `eventToDict` build the object of a record; `write` puts
it in the file of the journal's id. The effects, the data of the events and
the context of a record are mappings of any values; the encoder may refuse
them, and the file may fail to be written.

# Reading

`journalFromDict` reads an object of any shape. It asks for texts that are
not empty and for lists and objects where the record has them; where one is
missing it raises, and with it `load` and `iterJournals`.
-/
import OpenTulid.Contract.Encoding
import OpenTulid.Lib.Store

namespace OpenTulid.JournalFiles

open Json (Fields)
open Frozen (Entries PyValue)

-- =============================================================== records

/-- `JournalStatus` -/
inductive JournalStatus where
  | prepared
  | committed
  | failed
  deriving DecidableEq

/-- The text of a status. -/
def JournalStatus.value : JournalStatus → String
  | .prepared => "prepared"
  | .committed => "committed"
  | .failed => "failed"

/-- `EventActor` -/
structure EventActor where
  type : String
  id : String

/-- `EventEnvelope`; `M` is the type of its mapping. -/
structure EventEnvelope (M : Type) where
  eventId : String
  schemaVersion : Int
  timestamp : String
  projectId : String
  actor : EventActor
  eventType : String
  correlationId : String
  taskId : Option String
  jobId : Option String
  transitionId : Option String
  submissionId : Option String
  data : M

/-- `DomainError` -/
structure DomainError where
  code : String
  message : String
  location : Option String

/-- `TransactionJournalRecord` -/
structure TransactionJournalRecord (M : Type) where
  journalId : String
  projectId : String
  startedAt : String
  effects : List M
  events : List (EventEnvelope M)
  status : JournalStatus
  taskId : Option String
  transitionId : Option String
  completedAt : Option String
  error : Option DomainError
  context : M

-- =============================================================== encoding

/-- `event_to_dict`; `none` where the encoder refuses the data. -/
def eventToDict (event : EventEnvelope Entries) : Option Json := do
  let data ← Frozen.fileJson (.dict event.data)
  some (.obj (Json.present [
    ("event_id", some (.str event.eventId)),
    ("schema_version", some (.int event.schemaVersion)),
    ("timestamp", some (.str event.timestamp)),
    ("project_id", some (.str event.projectId)),
    ("actor", some (.obj [("type", .str event.actor.type), ("id", .str event.actor.id)])),
    ("event_type", some (.str event.eventType)),
    ("correlation_id", some (.str event.correlationId)),
    ("data", some data),
    ("task_id", event.taskId.map .str),
    ("job_id", event.jobId.map .str),
    ("transition_id", event.transitionId.map .str),
    ("submission_id", event.submissionId.map .str)]))

/-- `asdict` of an error. -/
def errorToDict (error : DomainError) : Json :=
  .obj [
    ("code", .str error.code),
    ("message", .str error.message),
    ("location", (error.location.map Json.str).getD .null)]

/-- `journal_to_dict`; a context without entries is left out. -/
def journalToDict (record : TransactionJournalRecord Entries) : Option Json := do
  let effects ← record.effects.mapM fun effect => Frozen.fileJson (.dict effect)
  let events ← record.events.mapM eventToDict
  let context ← Frozen.fileJson (.dict record.context)
  some (.obj (Json.present [
    ("journal_id", some (.str record.journalId)),
    ("project_id", some (.str record.projectId)),
    ("started_at", some (.str record.startedAt)),
    ("effects", some (.arr effects)),
    ("events", some (.arr events)),
    ("status", some (.str record.status.value)),
    ("task_id", record.taskId.map .str),
    ("transition_id", record.transitionId.map .str),
    ("completed_at", record.completedAt.map .str),
    ("error", record.error.map errorToDict),
    ("context", if record.context.isEmpty then none else some context)]))

-- =============================================================== decoding

/-- `_required_string` -/
def requiredString (payload : Fields) (key : String) : Except String String :=
  match payload.get key with
  | .str "" => .error s!"{key} must be a non-empty string"
  | .str text => .ok text
  | _ => .error s!"{key} must be a non-empty string"

/-- The value of a key is an object; one that is absent is empty. -/
def objectOr (payload : Fields) (key text : String) : Except String Fields :=
  match (payload.get? key).getD (.obj []) with
  | .obj fields => .ok fields
  | _ => .error text

/-- The value of a key is a list; one that is absent is empty. -/
def listOr (payload : Fields) (key text : String) : Except String (List Json) :=
  match (payload.get? key).getD (.arr []) with
  | .arr items => .ok items
  | _ => .error text

/-- The items of a list must be objects; the loop that reads them. -/
def eachObject {α : Type} (name : String) (read : Fields → Except String α) :
    Nat → List Json → Except String (List α)
  | _, [] => .ok []
  | index, .obj fields :: items => do
      let first ← read fields
      let rest ← eachObject name read (index + 1) items
      .ok (first :: rest)
  | index, _ :: _ => .error s!"journal {name}[{index}] must be an object"

section Decoding

variable (B : Frozen.Builtins)

/-- `_optional_string` of the value of a key. -/
def optionalString (payload : Fields) (key : String) : Option String :=
  match payload.get key with
  | .null => none
  | value => if B.str value = "" then none else some (B.str value)

/-- `event_from_dict` -/
def eventFromDict (payload : Fields) : Except String (EventEnvelope Fields) := do
  let actorRaw ← match payload.get "actor" with
    | .obj fields => .ok fields
    | _ => .error "event actor must be an object"
  let dataRaw ← objectOr payload "data" "event data must be an object"
  let eventId ← requiredString payload "event_id"
  let schemaVersion ← B.int ((payload.get? "schema_version").getD (.int 1))
  let timestamp ← requiredString payload "timestamp"
  let projectId ← requiredString payload "project_id"
  let type ← requiredString actorRaw "type"
  let id ← requiredString actorRaw "id"
  let eventType ← requiredString payload "event_type"
  let correlationId ← requiredString payload "correlation_id"
  .ok {
    eventId := eventId
    schemaVersion := schemaVersion
    timestamp := timestamp
    projectId := projectId
    actor := { type := type, id := id }
    eventType := eventType
    correlationId := correlationId
    taskId := optionalString B payload "task_id"
    jobId := optionalString B payload "job_id"
    transitionId := optionalString B payload "transition_id"
    submissionId := optionalString B payload "submission_id"
    data := dataRaw }

/-- `JournalStatus(…)` of a text. -/
def statusOf (text : String) : Except String JournalStatus :=
  if text = "prepared" then .ok .prepared
  else if text = "committed" then .ok .committed
  else if text = "failed" then .ok .failed
  else .error s!"'{text}' is not a valid JournalStatus"

/-- The error of a journal; a value that is no object is none. -/
def errorFromDict (payload : Fields) : Except String (Option DomainError) :=
  match payload.get "error" with
  | .obj errorRaw => do
      let code ← requiredString errorRaw "code"
      let message ← requiredString errorRaw "message"
      .ok (some { code := code, message := message, location := optionalString B errorRaw "location" })
  | _ => .ok none

/-- `journal_from_dict` -/
def journalFromDict (payload : Fields) : Except String (TransactionJournalRecord Fields) := do
  let effectsRaw ← listOr payload "effects" "journal effects must be a list"
  let eventsRaw ← listOr payload "events" "journal events must be a list"
  let effects ← eachObject "effects" .ok 0 effectsRaw
  let events ← eachObject "events" (eventFromDict B) 0 eventsRaw
  let status ← statusOf (B.str (payload.get "status"))
  let error ← errorFromDict B payload
  let context ← objectOr payload "context" "journal context must be an object"
  let journalId ← requiredString payload "journal_id"
  let projectId ← requiredString payload "project_id"
  let startedAt ← requiredString payload "started_at"
  .ok {
    journalId := journalId
    projectId := projectId
    startedAt := startedAt
    effects := effects
    events := events
    status := status
    taskId := optionalString B payload "task_id"
    transitionId := optionalString B payload "transition_id"
    completedAt := optionalString B payload "completed_at"
    error := error
    context := context }

end Decoding

-- ================================================================== files

/-- The files of the folder that end in `.json`, by their names. -/
abbrev Folder := Store String Json

/-- `_safe_stem` accepts the id. -/
def safeStem (value : String) : Bool :=
  value ≠ "" && value ≠ "." && value ≠ ".." && !value.toList.contains '/' &&
    !value.toList.contains '\\'

/-- The name of the file of a journal. -/
def fileName (journalId : String) : String := journalId ++ ".json"

/-- `TransactionJournalStore.write`; `saves` says that the file is written.
`none` is `journal.write_failed`. -/
def write (saves : Bool) (record : TransactionJournalRecord Entries) (folder : Folder) :
    Option Folder :=
  if safeStem record.journalId then
    match journalToDict record with
    -- the keys of every object are sorted in the file
    | some payload => if saves then some (folder.put (fileName record.journalId) payload.canon) else none
    | none => none
  else none

section Reading

variable (B : Frozen.Builtins)

/-- The record in a file. -/
def readFile (content : Json) : Except String (TransactionJournalRecord Fields) :=
  match content with
  | .obj payload => journalFromDict B payload
  | _ => .error "no mapping"

/-- `TransactionJournalStore.load` -/
def load (journalId : String) (folder : Folder) :
    Except String (TransactionJournalRecord Fields) :=
  if safeStem journalId then
    match folder.get (fileName journalId) with
    | some content => readFile B content
    | none => .error "no such file"
  else .error "journal id must be a safe file stem"

/-- `TransactionJournalStore.iter_journals` -/
def iterJournals (status : Option JournalStatus) (folder : Folder) :
    Except String (List (TransactionJournalRecord Fields)) := do
  let records ← folder.values.mapM (readFile B)
  .ok (records.filter fun record =>
    match status with
    | none => true
    | some expected => record.status = expected)

end Reading

end OpenTulid.JournalFiles
