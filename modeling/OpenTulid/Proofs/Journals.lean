/-
What a journal file gives back.

# Reading what was written

A field is read by its key, so a record is followed through the file key by
key: `Json.get?_canon_present` says what stands under a key, and one lemma for
each kind of field says what the reader makes of it. A required text comes
back if and only if it is not empty; an optional text that is empty comes back
as none; a mapping comes back as the same if and only if its keys are strings.

# The folder

`iterJournals` reads every file, so one that cannot be read makes it raise.
-/
import OpenTulid.Runtime.Journals
import OpenTulid.Lib.Fallible

namespace OpenTulid.JournalFiles

open Json (Fields)
open Frozen (Entries PyValue)

variable {B : Frozen.Builtins}

-- ====================================================== records that return

/-- The texts of an event that the reader asks for. -/
def EventEnvelope.required {M : Type} (event : EventEnvelope M) : List String :=
  [event.eventId, event.timestamp, event.projectId, event.actor.type, event.actor.id,
    event.eventType, event.correlationId]

/-- The texts of a record that the reader asks for. -/
def TransactionJournalRecord.required {M : Type} (record : TransactionJournalRecord M) :
    List String :=
  record.events.flatMap EventEnvelope.required ++
    (record.error.map fun error => [error.code, error.message]).getD [] ++
    [record.journalId, record.projectId, record.startedAt]

/-- The texts of a record that may be missing. -/
def TransactionJournalRecord.optional {M : Type} (record : TransactionJournalRecord M) :
    List (Option String) :=
  record.events.flatMap (fun event =>
      [event.taskId, event.jobId, event.transitionId, event.submissionId]) ++
    [record.error.bind DomainError.location, record.taskId, record.transitionId,
      record.completedAt]

/-- The mappings of a record. -/
def TransactionJournalRecord.mappings {M : Type} (record : TransactionJournalRecord M) :
    List M :=
  record.effects ++ record.events.map EventEnvelope.data ++ [record.context]

/-- The record can be read back from its file. -/
def Readable (record : TransactionJournalRecord Entries) : Prop :=
  ∀ text ∈ record.required, text ≠ ""

/-- The record returns as it was. -/
structure Returns (record : TransactionJournalRecord Entries) : Prop where
  readable : Readable record
  optional : ∀ text ∈ record.optional, text ≠ some ""
  textual : ∀ mapping ∈ record.mappings, Frozen.Textual (.dict mapping)

/-- A mapping and what is read of it. -/
def SameDict (mapping : Entries) (fields : Fields) : Prop :=
  Frozen.SameJson (.dict mapping) (.obj fields)

/-- An event and what is read of it. -/
structure SameEvent (event : EventEnvelope Entries) (read : EventEnvelope Fields) : Prop where
  eventId : read.eventId = event.eventId
  schemaVersion : read.schemaVersion = event.schemaVersion
  timestamp : read.timestamp = event.timestamp
  projectId : read.projectId = event.projectId
  actor : read.actor = event.actor
  eventType : read.eventType = event.eventType
  correlationId : read.correlationId = event.correlationId
  taskId : read.taskId = event.taskId
  jobId : read.jobId = event.jobId
  transitionId : read.transitionId = event.transitionId
  submissionId : read.submissionId = event.submissionId
  data : SameDict event.data read.data

/-- A record and what is read of it. -/
structure SameRecord (record : TransactionJournalRecord Entries)
    (read : TransactionJournalRecord Fields) : Prop where
  journalId : read.journalId = record.journalId
  projectId : read.projectId = record.projectId
  startedAt : read.startedAt = record.startedAt
  effects : List.Forall₂ SameDict record.effects read.effects
  events : List.Forall₂ SameEvent record.events read.events
  status : read.status = record.status
  taskId : read.taskId = record.taskId
  transitionId : read.transitionId = record.transitionId
  completedAt : read.completedAt = record.completedAt
  error : read.error = record.error
  context : SameDict record.context read.context

-- ================================================================== fields

/-- A required text comes back if it is not empty. -/
theorem requiredString_eq_ok {payload : Fields} {key text read : String}
    (h : payload.get? key = some (.str text)) :
    requiredString payload key = .ok read ↔ text ≠ "" ∧ read = text := by
  unfold requiredString Fields.get
  rw [h, Option.getD_some]
  split
  next heq =>
    cases heq
    simp
  next text' hne heq =>
    cases heq
    constructor
    · intro hread
      cases hread
      exact ⟨fun hempty => hne (by rw [hempty]), rfl⟩
    · rintro ⟨-, rfl⟩
      rfl
  next hnone => exact absurd rfl (hnone text)

/-- An optional text comes back, one that is empty as none. -/
theorem optionalString_eq {payload : Fields} {key : String} {text : Option String}
    (h : payload.get? key = text.map .str) :
    optionalString B payload key = text.filter (· ≠ "") := by
  unfold optionalString Fields.get
  rw [h]
  cases text with
  | none => rfl
  | some text =>
      show (if B.str (.str text) = "" then none else some (B.str (.str text))) = _
      rw [B.str_str]
      by_cases hempty : text = "" <;> simp [hempty, Option.filter]

/-- An optional text comes back as it was if it is not empty. -/
theorem filter_eq_self {text : Option String} :
    text.filter (· ≠ "") = text ↔ text ≠ some "" := by
  cases text with
  | none => simp
  | some text => by_cases hempty : text = "" <;> simp [hempty, Option.filter]

/-- An optional text in a file. -/
theorem canon_text (text : Option String) :
    (text.map Json.str).map Json.canon = text.map Json.str := by
  cases text <;> rfl

/-- An object under a key. -/
theorem objectOr_eq {payload fields : Fields} {key text : String}
    (h : payload.get? key = some (.obj fields)) : objectOr payload key text = .ok fields := by
  unfold objectOr
  rw [h]
  rfl

/-- A list under a key. -/
theorem listOr_eq {payload : Fields} {items : List Json} {key text : String}
    (h : payload.get? key = some (.arr items)) : listOr payload key text = .ok items := by
  unfold listOr
  rw [h]
  rfl

-- ================================================================== events

/-- What is read of a mapping. -/
def ReadDict (mapping : Entries) (fields : Fields) : Prop :=
  ∃ data, Frozen.fileJson (.dict mapping) = some data ∧ data.canon = .obj fields

/-- What is read of an event. -/
def EventEnvelope.reread (event : EventEnvelope Entries) (data : Fields) :
    EventEnvelope Fields where
  eventId := event.eventId
  schemaVersion := event.schemaVersion
  timestamp := event.timestamp
  projectId := event.projectId
  actor := event.actor
  eventType := event.eventType
  correlationId := event.correlationId
  taskId := event.taskId.filter (· ≠ "")
  jobId := event.jobId.filter (· ≠ "")
  transitionId := event.transitionId.filter (· ≠ "")
  submissionId := event.submissionId.filter (· ≠ "")
  data := data

/-- What is read of an event, whatever it asks for. -/
def ReadEvent (event : EventEnvelope Entries) (read : EventEnvelope Fields) : Prop :=
  ∃ data, ReadDict event.data data ∧ read = event.reread data

theorem eventFromDict_eventToDict {event : EventEnvelope Entries} {j : Json}
    (h : eventToDict event = some j) :
    ∃ fields read, j.canon = .obj fields ∧ ReadEvent event read ∧
      ∀ r, eventFromDict B fields = .ok r ↔ (∀ text ∈ event.required, text ≠ "") ∧ r = read := by
  unfold eventToDict at h
  obtain ⟨data, hdata, hobj⟩ := Option.bind_eq_some_iff.mp h
  cases hobj
  obtain ⟨dumped, rfl⟩ := Frozen.fileJson_dict hdata
  refine ⟨_, event.reread _, by rw [Json.canon], ⟨_, ⟨_, hdata, by rw [Json.canon]⟩, rfl⟩,
    fun read => ?_⟩
  have hget := @Json.get?_canon_present [
    ("event_id", some (.str event.eventId)),
    ("schema_version", some (.int event.schemaVersion)),
    ("timestamp", some (.str event.timestamp)),
    ("project_id", some (.str event.projectId)),
    ("actor", some (.obj [("type", .str event.actor.type), ("id", .str event.actor.id)])),
    ("event_type", some (.str event.eventType)),
    ("correlation_id", some (.str event.correlationId)),
    ("data", some (.obj dumped)),
    ("task_id", event.taskId.map .str),
    ("job_id", event.jobId.map .str),
    ("transition_id", event.transitionId.map .str),
    ("submission_id", event.submissionId.map .str)] (by simp)
  generalize List.insertionSort Json.byKey (Json.canonFields (Json.present _)) = fields at hget ⊢
  have hactor := @Json.get?_canon [("type", .str event.actor.type),
    ("id", .str event.actor.id)] (by simp [Fields.Distinct])
  have hid : Fields.get? fields "event_id" = some (.str event.eventId) := hget _
  have hversion : Fields.get? fields "schema_version" = some (.int event.schemaVersion) := hget _
  have htimestamp : Fields.get? fields "timestamp" = some (.str event.timestamp) := hget _
  have hproject : Fields.get? fields "project_id" = some (.str event.projectId) := hget _
  have hactorRaw : Fields.get fields "actor" = .obj _ := congrArg (·.getD .null) (hget _)
  have htype : Fields.get? fields "event_type" = some (.str event.eventType) := hget _
  have hcorrelation : Fields.get? fields "correlation_id" = some (.str event.correlationId) :=
    hget _
  have hdata : Fields.get? fields "data" = some (.obj _) := hget _
  have htask : optionalString B fields "task_id" = event.taskId.filter (· ≠ "") :=
    optionalString_eq ((hget _).trans (canon_text event.taskId))
  have hjob : optionalString B fields "job_id" = event.jobId.filter (· ≠ "") :=
    optionalString_eq ((hget _).trans (canon_text event.jobId))
  have htransition : optionalString B fields "transition_id" =
      event.transitionId.filter (· ≠ "") :=
    optionalString_eq ((hget _).trans (canon_text event.transitionId))
  have hsubmission : optionalString B fields "submission_id" =
      event.submissionId.filter (· ≠ "") :=
    optionalString_eq ((hget _).trans (canon_text event.submissionId))
  unfold eventFromDict
  rw [hactorRaw, objectOr_eq hdata, hversion, htask, hjob, htransition, hsubmission,
    Option.getD_some, B.int_int]
  simp only [Fallible.ok_bind, Fallible.bind_eq_ok, requiredString_eq_ok hid,
    requiredString_eq_ok htimestamp, requiredString_eq_ok hproject,
    requiredString_eq_ok (hactor "type"), requiredString_eq_ok (hactor "id"),
    requiredString_eq_ok htype, requiredString_eq_ok hcorrelation]
  constructor
  · rintro ⟨_, ⟨hid', rfl⟩, _, ⟨htimestamp', rfl⟩, _, ⟨hproject', rfl⟩, _, ⟨hactorType, rfl⟩, _,
      ⟨hactorId, rfl⟩, _, ⟨htype', rfl⟩, _, ⟨hcorrelation', rfl⟩, hread⟩
    cases hread
    refine ⟨?_, rfl⟩
    simp only [EventEnvelope.required, List.forall_mem_cons]
    exact ⟨hid', htimestamp', hproject', hactorType, hactorId, htype', hcorrelation', nofun⟩
  · rintro ⟨hrequired, rfl⟩
    simp only [EventEnvelope.required, List.forall_mem_cons] at hrequired
    obtain ⟨hid', htimestamp', hproject', hactorType, hactorId, htype', hcorrelation', -⟩ :=
      hrequired
    exact ⟨_, ⟨hid', rfl⟩, _, ⟨htimestamp', rfl⟩, _, ⟨hproject', rfl⟩, _, ⟨hactorType, rfl⟩, _,
      ⟨hactorId, rfl⟩, _, ⟨htype', rfl⟩, _, ⟨hcorrelation', rfl⟩, rfl⟩

-- =================================================================== lists

/-- Reading the objects of a list, where it is known what is read of each. -/
theorem eachObject_canon {α β : Type} {items : List α} {js : List Json} {rel : α → β → Prop}
    {p : α → Prop} {read : Fields → Except String β}
    (hitems : List.Forall₂ (fun a j => ∃ fields b, Json.canon j = .obj fields ∧ rel a b ∧
      ∀ r, read fields = .ok r ↔ p a ∧ r = b) items js) (name : String) (index : Nat) :
    ∃ bs, List.Forall₂ rel items bs ∧
      ∀ rs, eachObject name read index (Json.canonItems js) = .ok rs ↔
        (∀ a ∈ items, p a) ∧ rs = bs := by
  induction hitems generalizing index with
  | nil => exact ⟨[], .nil, fun rs => by simp [Json.canonItems, eachObject, eq_comm]⟩
  | cons hfirst _ ih =>
      obtain ⟨fields, b, hcanon, hrel, hread⟩ := hfirst
      obtain ⟨bs, hrels, hrest⟩ := ih (index + 1)
      refine ⟨b :: bs, .cons hrel hrels, fun rs => ?_⟩
      rw [Json.canonItems, hcanon, eachObject]
      simp only [Fallible.bind_eq_ok, hread, hrest, List.forall_mem_cons]
      constructor
      · rintro ⟨_, ⟨hp, rfl⟩, _, ⟨hps, rfl⟩, hrs⟩
        cases hrs
        exact ⟨⟨hp, hps⟩, rfl⟩
      · rintro ⟨⟨hp, hps⟩, rfl⟩
        exact ⟨_, ⟨hp, rfl⟩, _, ⟨hps, rfl⟩, rfl⟩

theorem readDict_fileJson {mapping : Entries} {j : Json}
    (h : Frozen.fileJson (.dict mapping) = some j) :
    ∃ fields, j.canon = .obj fields ∧ ReadDict mapping fields := by
  obtain ⟨data, rfl⟩ := Frozen.fileJson_dict h
  exact ⟨_, by rw [Json.canon], _, h, by rw [Json.canon]⟩

/-- The mappings of a list are read as they are. -/
theorem eachObject_dicts {mappings : List Entries} {js : List Json}
    (h : (mappings.mapM fun mapping => Frozen.fileJson (.dict mapping)) = some js)
    (name : String) (index : Nat) :
    ∃ reads, List.Forall₂ ReadDict mappings reads ∧
      ∀ rs, eachObject name .ok index (Json.canonItems js) = .ok rs ↔ rs = reads := by
  obtain ⟨reads, hreads, hall⟩ := @eachObject_canon _ _ _ _ ReadDict (fun _ => True)
    .ok ((Fallible.mapM_eq_some.mp h).imp fun mapping j hj => by
      obtain ⟨fields, hcanon, hread⟩ := readDict_fileJson hj
      exact ⟨fields, fields, hcanon, hread, fun r => by simp [eq_comm]⟩) name index
  exact ⟨reads, hreads, fun rs => by simpa using hall rs⟩

/-- The events of a list. -/
theorem eachObject_events {events : List (EventEnvelope Entries)} {js : List Json}
    (h : events.mapM eventToDict = some js) (name : String) (index : Nat) :
    ∃ reads, List.Forall₂ ReadEvent events reads ∧
      ∀ rs, eachObject name (eventFromDict B) index (Json.canonItems js) = .ok rs ↔
        (∀ event ∈ events, ∀ text ∈ event.required, text ≠ "") ∧ rs = reads :=
  eachObject_canon ((Fallible.mapM_eq_some.mp h).imp fun _ _ hj => eventFromDict_eventToDict hj)
    name index

-- ================================================================= records

/-- What is read of a record, whatever the reader asks for. -/
structure ReadRecord (record : TransactionJournalRecord Entries)
    (read : TransactionJournalRecord Fields) : Prop where
  journalId : read.journalId = record.journalId
  projectId : read.projectId = record.projectId
  startedAt : read.startedAt = record.startedAt
  effects : List.Forall₂ ReadDict record.effects read.effects
  events : List.Forall₂ ReadEvent record.events read.events
  status : read.status = record.status
  taskId : read.taskId = record.taskId.filter (· ≠ "")
  transitionId : read.transitionId = record.transitionId.filter (· ≠ "")
  completedAt : read.completedAt = record.completedAt.filter (· ≠ "")
  error : read.error = record.error.map fun error =>
    { error with location := error.location.filter (· ≠ "") }
  context : ReadDict record.context read.context

theorem statusOf_value (status : JournalStatus) : statusOf status.value = .ok status := by
  cases status <;> rfl

/-- The error of a record comes back if its code and its message are not
empty. -/
theorem errorFromDict_eq_ok {payload : Fields} {error : Option DomainError}
    (h : payload.get? "error" = (error.map errorToDict).map Json.canon)
    (read : Option DomainError) :
    errorFromDict B payload = .ok read ↔
      (∀ text ∈ (error.map fun error => [error.code, error.message]).getD [], text ≠ "") ∧
        read = error.map fun error =>
          { error with location := error.location.filter (· ≠ "") } := by
  unfold errorFromDict Fields.get
  rw [h]
  cases error with
  | none =>
      show Except.ok none = .ok read ↔ _
      simp [eq_comm]
  | some error =>
      have hget := @Json.get?_canon [("code", .str error.code),
        ("message", .str error.message),
        ("location", (error.location.map Json.str).getD .null)] (by simp [Fields.Distinct])
      simp only [Option.map_some, Option.getD_some, errorToDict, Json.canon]
      generalize List.insertionSort Json.byKey (Json.canonFields _) = fields at hget ⊢
      have hcode : Fields.get? fields "code" = some (.str error.code) := hget _
      have hmessage : Fields.get? fields "message" = some (.str error.message) := hget _
      have hlocation : optionalString B fields "location" = error.location.filter (· ≠ "") := by
        have hstored := hget "location"
        cases hnone : error.location with
        | none =>
            rw [hnone] at hstored
            have hnull : Fields.get fields "location" = .null := congrArg (·.getD .null) hstored
            unfold optionalString
            rw [hnull]
            rfl
        | some text =>
            rw [hnone] at hstored
            exact @optionalString_eq B _ _ (some text) hstored
      simp only [Fallible.bind_eq_ok, requiredString_eq_ok hcode, requiredString_eq_ok hmessage,
        hlocation, List.forall_mem_cons]
      constructor
      · rintro ⟨_, ⟨hcode, rfl⟩, _, ⟨hmessage, rfl⟩, hread⟩
        cases hread
        exact ⟨⟨hcode, hmessage, nofun⟩, rfl⟩
      · rintro ⟨⟨hcode, hmessage, -⟩, rfl⟩
        exact ⟨_, ⟨hcode, rfl⟩, _, ⟨hmessage, rfl⟩, rfl⟩

/-- A record is read back if the texts that the reader asks for are not
empty. -/
theorem journalFromDict_journalToDict {record : TransactionJournalRecord Entries}
    {payload : Json} (h : journalToDict record = some payload) :
    ∃ fields read, payload.canon = .obj fields ∧ ReadRecord record read ∧
      ∀ r, journalFromDict B fields = .ok r ↔ Readable record ∧ r = read := by
  unfold journalToDict at h
  obtain ⟨effects, heffects, h⟩ := Option.bind_eq_some_iff.mp h
  obtain ⟨events, hevents, h⟩ := Option.bind_eq_some_iff.mp h
  obtain ⟨context, hcontext, hobj⟩ := Option.bind_eq_some_iff.mp h
  cases hobj
  obtain ⟨readEffects, hreadEffects, heachEffect⟩ := eachObject_dicts heffects "effects" 0
  obtain ⟨readEvents, hreadEvents, heachEvent⟩ := eachObject_events (B := B) hevents "events" 0
  obtain ⟨contextFields, hcanon, hreadContext⟩ := readDict_fileJson hcontext
  have hget := @Json.get?_canon_present [
    ("journal_id", some (.str record.journalId)),
    ("project_id", some (.str record.projectId)),
    ("started_at", some (.str record.startedAt)),
    ("effects", some (.arr effects)),
    ("events", some (.arr events)),
    ("status", some (.str record.status.value)),
    ("task_id", record.taskId.map .str),
    ("transition_id", record.transitionId.map .str),
    ("completed_at", record.completedAt.map .str),
    ("error", record.error.map errorToDict),
    ("context", if record.context.isEmpty then none else some context)] (by simp)
  generalize hcontextEntry : (if record.context.isEmpty then none else some context) = entry
    at hget ⊢
  refine ⟨_, {
    journalId := record.journalId
    projectId := record.projectId
    startedAt := record.startedAt
    effects := readEffects
    events := readEvents
    status := record.status
    taskId := record.taskId.filter (· ≠ "")
    transitionId := record.transitionId.filter (· ≠ "")
    completedAt := record.completedAt.filter (· ≠ "")
    error := record.error.map fun error =>
      { error with location := error.location.filter (· ≠ "") }
    context := contextFields }, by rw [Json.canon],
    ⟨rfl, rfl, rfl, hreadEffects, hreadEvents, rfl, rfl, rfl, rfl, rfl, hreadContext⟩,
    fun read => ?_⟩
  generalize List.insertionSort Json.byKey (Json.canonFields (Json.present _)) = fields at hget ⊢
  have hid : Fields.get? fields "journal_id" = some (.str record.journalId) := hget _
  have hproject : Fields.get? fields "project_id" = some (.str record.projectId) := hget _
  have hstarted : Fields.get? fields "started_at" = some (.str record.startedAt) := hget _
  have heffectsRaw : Fields.get? fields "effects" = some (.arr (Json.canonItems effects)) :=
    hget _
  have heventsRaw : Fields.get? fields "events" = some (.arr (Json.canonItems events)) := hget _
  have hstatus : Fields.get fields "status" = .str record.status.value :=
    congrArg (·.getD .null) (hget _)
  have htask : optionalString B fields "task_id" = record.taskId.filter (· ≠ "") :=
    optionalString_eq ((hget _).trans (canon_text record.taskId))
  have htransition : optionalString B fields "transition_id" =
      record.transitionId.filter (· ≠ "") :=
    optionalString_eq ((hget _).trans (canon_text record.transitionId))
  have hcompleted : optionalString B fields "completed_at" =
      record.completedAt.filter (· ≠ "") :=
    optionalString_eq ((hget _).trans (canon_text record.completedAt))
  have herror := @errorFromDict_eq_ok B _ record.error (hget "error")
  have hcontextRaw : objectOr fields "context" "journal context must be an object" =
      .ok contextFields := by
    have hstored : Fields.get? fields "context" = entry.map Json.canon := hget _
    cases hempty : record.context with
    | nil =>
        -- an empty context is left out, and read as an empty one
        rw [hempty] at hcontextEntry hcontext
        cases hcontextEntry
        cases hcontext
        cases hcanon
        unfold objectOr
        rw [hstored]
        rfl
    | cons e rest =>
        rw [hempty] at hcontextEntry
        cases hcontextEntry
        exact objectOr_eq (hstored.trans (congrArg some hcanon))
  unfold journalFromDict
  rw [hstatus, B.str_str, statusOf_value, listOr_eq heffectsRaw, listOr_eq heventsRaw,
    hcontextRaw, htask, htransition, hcompleted]
  simp only [Fallible.ok_bind, Fallible.bind_eq_ok, heachEffect, heachEvent, herror,
    requiredString_eq_ok hid, requiredString_eq_ok hproject, requiredString_eq_ok hstarted]
  constructor
  · rintro ⟨_, rfl, _, ⟨hevents, rfl⟩, _, ⟨herrors, rfl⟩, _, ⟨hid, rfl⟩, _, ⟨hproject, rfl⟩, _,
      ⟨hstarted, rfl⟩, hread⟩
    cases hread
    refine ⟨?_, rfl⟩
    unfold Readable TransactionJournalRecord.required
    simp only [List.forall_mem_append, List.forall_mem_flatMap, List.forall_mem_cons]
    exact ⟨⟨hevents, herrors⟩, hid, hproject, hstarted, nofun⟩
  · rintro ⟨hreadable, rfl⟩
    unfold Readable TransactionJournalRecord.required at hreadable
    simp only [List.forall_mem_append, List.forall_mem_flatMap, List.forall_mem_cons]
      at hreadable
    obtain ⟨⟨hevents, herrors⟩, hid, hproject, hstarted, -⟩ := hreadable
    exact ⟨_, rfl, _, ⟨hevents, rfl⟩, _, ⟨herrors, rfl⟩, _, ⟨hid, rfl⟩, _, ⟨hproject, rfl⟩, _,
      ⟨hstarted, rfl⟩, rfl⟩

-- ============================================================ the same record

/-- A mapping is read as the same if and only if its keys are strings. -/
theorem sameDict_iff {mapping : Entries} {fields : Fields} (h : ReadDict mapping fields) :
    SameDict mapping fields ↔ Frozen.Textual (.dict mapping) := by
  obtain ⟨data, hdata, hcanon⟩ := h
  unfold SameDict
  rw [← hcanon]
  exact Frozen.sameJson_canon_iff hdata

theorem sameEvent_iff {event : EventEnvelope Entries} {read : EventEnvelope Fields}
    (h : ReadEvent event read) :
    SameEvent event read ↔
      (∀ text ∈ [event.taskId, event.jobId, event.transitionId, event.submissionId],
        text ≠ some "") ∧ Frozen.Textual (.dict event.data) := by
  obtain ⟨data, hdata, rfl⟩ := h
  simp only [List.forall_mem_cons, ← filter_eq_self, ← sameDict_iff hdata]
  constructor
  · intro hsame
    exact ⟨⟨hsame.taskId, hsame.jobId, hsame.transitionId, hsame.submissionId, nofun⟩,
      hsame.data⟩
  · rintro ⟨⟨htask, hjob, htransition, hsubmission, -⟩, hdict⟩
    exact ⟨rfl, rfl, rfl, rfl, rfl, rfl, rfl, htask, hjob, htransition, hsubmission, hdict⟩

/-- Where it is known what is read of each item of a list, the items are the
same if and only if each is. -/
theorem forall₂_iff {α β : Type} {rel same : α → β → Prop} {p : α → Prop}
    {items : List α} {reads : List β} (h : List.Forall₂ rel items reads)
    (hitem : ∀ a b, rel a b → (same a b ↔ p a)) : List.Forall₂ same items reads ↔ ∀ a ∈ items, p a := by
  induction h with
  | nil => simp
  | cons hfirst _ ih => rw [List.forall₂_cons, ih, hitem _ _ hfirst, List.forall_mem_cons]

/-- A record that is read is the same if and only if no optional text is
empty and every key is a string. -/
theorem sameRecord_iff {record : TransactionJournalRecord Entries}
    {read : TransactionJournalRecord Fields} (h : ReadRecord record read) :
    SameRecord record read ↔ (∀ text ∈ record.optional, text ≠ some "") ∧
      ∀ mapping ∈ record.mappings, Frozen.Textual (.dict mapping) := by
  have heffects := forall₂_iff h.effects fun _ _ => sameDict_iff
  have hevents := forall₂_iff h.events fun _ _ => sameEvent_iff
  have herror : (read.error = record.error) ↔
      record.error.bind DomainError.location ≠ some "" := by
    rw [h.error]
    cases record.error with
    | none => simp
    | some error =>
        obtain ⟨code, message, location⟩ := error
        simp only [Option.map_some, Option.some.injEq, DomainError.mk.injEq, true_and,
          Option.bind_some]
        exact filter_eq_self
  unfold TransactionJournalRecord.optional TransactionJournalRecord.mappings
  simp only [List.forall_mem_append, List.forall_mem_flatMap, List.forall_mem_cons,
    List.forall_mem_map]
  constructor
  · intro hsame
    have heach := hevents.mp hsame.events
    refine ⟨⟨fun event hevent => ?_, herror.mp hsame.error, ?_, ?_, ?_, nofun⟩,
      ⟨heffects.mp hsame.effects, fun event hevent => (heach event hevent).2⟩,
      (sameDict_iff h.context).mp hsame.context, nofun⟩
    · simpa only [List.forall_mem_cons] using (heach event hevent).1
    · exact filter_eq_self.mp (h.taskId.symm.trans hsame.taskId)
    · exact filter_eq_self.mp (h.transitionId.symm.trans hsame.transitionId)
    · exact filter_eq_self.mp (h.completedAt.symm.trans hsame.completedAt)
  · rintro ⟨⟨hoptional, hlocation, htask, htransition, hcompleted, -⟩, ⟨hdicts, hdata⟩,
      hcontext, -⟩
    exact {
      journalId := h.journalId
      projectId := h.projectId
      startedAt := h.startedAt
      effects := heffects.mpr hdicts
      events := hevents.mpr fun event hevent =>
        ⟨by simpa only [List.forall_mem_cons] using hoptional event hevent, hdata event hevent⟩
      status := h.status
      taskId := h.taskId.trans (filter_eq_self.mpr htask)
      transitionId := h.transitionId.trans (filter_eq_self.mpr htransition)
      completedAt := h.completedAt.trans (filter_eq_self.mpr hcompleted)
      error := herror.mpr hlocation
      context := (sameDict_iff h.context).mpr hcontext }

-- ================================================================= the folder

/-- A record that is written has an object in its file. -/
theorem write_eq_some {saves : Bool} {record : TransactionJournalRecord Entries}
    {folder folder' : Folder} (h : write saves record folder = some folder') :
    safeStem record.journalId ∧ ∃ payload, journalToDict record = some payload ∧
      folder' = folder.put (fileName record.journalId) payload.canon := by
  unfold write at h
  split at h
  next hsafe =>
    split at h
    next payload hpayload =>
      split at h
      next =>
        cases h
        exact ⟨hsafe, payload, hpayload, rfl⟩
      next => cases h
    next => cases h
  next => cases h

/-- Every file can be read if and only if the reader of the folder gives
records. -/
theorem gives_iterJournals {status : Option JournalStatus} {folder : Folder} :
    Fallible.Gives (iterJournals B status folder) ↔
      ∀ name content, folder.get name = some content → Fallible.Gives (readFile B content) := by
  unfold iterJournals
  rw [Fallible.gives_bind (p := True) fun _ => by simp, and_true, Fallible.gives_mapM]
  constructor
  · intro h name content hcontent
    exact h content (Store.mem_values.mpr ⟨name, hcontent⟩)
  · intro h content hmem
    obtain ⟨name, hcontent⟩ := Store.mem_values.mp hmem
    exact h name content hcontent

/-- A record that is written is read back the same if and only if every text
that the reader asks for is there, no optional text is empty and every key is
a string; the folder that could be read can still be read if and only if the
texts are there. -/
theorem journal_returns (B : Frozen.Builtins) (saves : Bool)
    (record : TransactionJournalRecord Entries) (folder folder' : Folder)
    (hwrite : write saves record folder = some folder') :
    ((∃ read, load B record.journalId folder' = .ok read ∧ SameRecord record read) ↔
        Returns record) ∧
      ∀ status, Fallible.Gives (iterJournals B status folder) →
        (Fallible.Gives (iterJournals B status folder') ↔ Readable record) := by
  obtain ⟨hsafe, payload, hpayload, rfl⟩ := write_eq_some hwrite
  obtain ⟨fields, read, hcanon, hread, hdecoded⟩ := journalFromDict_journalToDict (B := B) hpayload
  have hfile : ∀ r, readFile B payload.canon = .ok r ↔ Readable record ∧ r = read := by
    rw [hcanon]
    exact hdecoded
  constructor
  · have hload : load B record.journalId
        (folder.put (fileName record.journalId) payload.canon) = readFile B payload.canon := by
      unfold load
      rw [if_pos hsafe, Store.get_put_self]
    rw [hload]
    constructor
    · rintro ⟨r, hr, hsame⟩
      obtain ⟨hreadable, rfl⟩ := (hfile r).mp hr
      obtain ⟨hoptional, htextual⟩ := (sameRecord_iff hread).mp hsame
      exact ⟨hreadable, hoptional, htextual⟩
    · rintro ⟨hreadable, hoptional, htextual⟩
      exact ⟨read, (hfile read).mpr ⟨hreadable, rfl⟩,
        (sameRecord_iff hread).mpr ⟨hoptional, htextual⟩⟩
  · intro status hbefore
    rw [gives_iterJournals] at hbefore ⊢
    constructor
    · intro hall
      obtain ⟨r, hr⟩ := hall _ _ Store.get_put_self
      exact ((hfile r).mp hr).1
    · intro hreadable name content hcontent
      rw [Store.get_put] at hcontent
      split at hcontent
      next =>
        cases hcontent
        exact ⟨read, (hfile read).mpr ⟨hreadable, rfl⟩⟩
      next => exact hbefore name content hcontent

/-- A move with its event, as it is prepared. -/
def moveRecord : TransactionJournalRecord Entries where
  journalId := "01J"
  projectId := "demo"
  startedAt := "2026-01-01T00:00:00Z"
  effects := [[(.str "type", .str "move_task"), (.str "steps", .tuple [.int 1, .int 2])]]
  events := [{
    eventId := "e1"
    schemaVersion := 1
    timestamp := "2026-01-01T00:00:00Z"
    projectId := "demo"
    actor := { type := "worker", id := "coder" }
    eventType := "TaskMoved"
    correlationId := "c1"
    taskId := some "1"
    jobId := none
    transitionId := none
    submissionId := none
    data := [(.str "to", .str "done")] }]
  status := .prepared
  taskId := some "1"
  transitionId := none
  completedAt := none
  error := none
  context := []

/-- The move as it is recorded when it failed without a message. -/
def silentRecord : TransactionJournalRecord Entries :=
  { moveRecord with status := .failed, error := some ⟨"board.write_failed", "", none⟩ }

/-- The folder after a write. -/
def folderOf (record : TransactionJournalRecord Entries) : Folder :=
  (write true record ∅).getD ∅

theorem journal_returns_move :
    ∃ read, load Frozen.strictBuiltins "01J" (folderOf moveRecord) = .ok read ∧
      SameRecord moveRecord read := by
  have hwrite : write true moveRecord ∅ = some (folderOf moveRecord) := rfl
  have hreturns : Returns moveRecord := by
    refine ⟨?_, ?_, ?_⟩
    · unfold Readable
      decide
    · decide
    · simp [TransactionJournalRecord.mappings, moveRecord, Frozen.Textual,
        Frozen.TextualEntries, Frozen.TextualItems]
  exact (journal_returns Frozen.strictBuiltins true moveRecord ∅ _ hwrite).1.mpr hreturns

/-- A journal of a failure without a message is written, and then neither it
nor the folder can be read. -/
theorem silent_failure_unreadable :
    write true silentRecord ∅ = some (folderOf silentRecord) ∧
      ¬ (∃ read, load Frozen.strictBuiltins "01J" (folderOf silentRecord) = .ok read ∧
        SameRecord silentRecord read) ∧
      ¬ Fallible.Gives (iterJournals Frozen.strictBuiltins none (folderOf silentRecord)) := by
  have hfile : readFile Frozen.strictBuiltins ((journalToDict silentRecord).getD .null).canon =
      .error "message must be a non-empty string" := rfl
  refine ⟨rfl, ?_, ?_⟩
  · rintro ⟨read, hread, -⟩
    have hload : load Frozen.strictBuiltins "01J" (folderOf silentRecord) =
        readFile Frozen.strictBuiltins ((journalToDict silentRecord).getD .null).canon := rfl
    rw [hload, hfile] at hread
    cases hread
  · rw [gives_iterJournals]
    intro hall
    obtain ⟨read, hread⟩ := hall "01J.json" ((journalToDict silentRecord).getD .null).canon rfl
    rw [hfile] at hread
    cases hread

end OpenTulid.JournalFiles
