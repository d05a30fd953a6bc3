/-
The job records as files, one folder a job.

# The files

A record is rewritten as a whole, from a copy that was read before, by four
calls: `create`, `updateStatus`, `recordAttempt` and
`settleInterruptedAttempts`. `Layout` says which file the path of a job id
leads to and which files the listing of all jobs finds; two ids may lead to
one file. A write may fail, and then leaves the file as it was.

# Metadata

The metadata of a record is a mapping of any JSON values. The records of
attempts are a list under one of its keys; what the calls read of them is
read from the JSON.
-/
import OpenTulid.Contract.Values
import OpenTulid.Lib.Store
import Mathlib.Data.List.Sort

namespace OpenTulid.JobFiles

open Json (Fields)

-- =============================================================== records

/-- What the store uses of the language. -/
structure Python where
  /-- `==` of two stored values -/
  equal : Json → Json → Bool
  equal_trans : ∀ a b c, equal a b = true → equal b c = true → equal a c = true
  /-- `str` and `int` of a stored value -/
  builtins : Frozen.Builtins
  /-- `dict` of a value that is no mapping; `none` raises -/
  dict : Json → Option Fields

/-- The metadata of a job. -/
abbrev Metadata := Store String Json

/-- `ExecutionJob`, as it is stored. -/
structure Job where
  jobId : String
  projectId : String
  taskId : String
  transitionId : String
  workerId : String
  workspacePath : String
  status : String
  attempts : Int
  metadata : Metadata

/-- `ACTIVE_JOB_STATUSES` -/
def activeJobStatuses : List String :=
  ["pending", "running", "completion_submitted", "completion_rejected", "stale"]

/-- `IMMUTABLE_JOB_METADATA_KEYS` -/
def immutableJobMetadataKeys : List String :=
  ["planning_inputs", "verification_environment", "execution_contract",
    "execution_contract_sha256", "prompt_packet", "prompt_packet_sha256", "prompt_manifest",
    "repository_identity"]

/-- `ATTEMPT_RECORD_METADATA_KEY` -/
def attemptRecordMetadataKey : String := "attempt_records"

/-- `AttemptRecord` -/
structure AttemptRecord where
  schema : String
  attemptId : String
  jobId : String
  attemptNumber : Int
  taskRevision : String
  transitionId : String
  workerId : String
  predecessor : Option String
  status : String
  startedAt : Option String
  deadline : Option String
  endedAt : Option String
  failureReference : Option String
  metadata : Fields

/-- A text, or null. -/
def textOrNull : Option String → Json
  | some text => .str text
  | none => .null

/-- `attempt_record_to_dict` -/
def attemptRecordToDict (record : AttemptRecord) : Json :=
  .obj [
    ("schema", .str record.schema),
    ("attempt_id", .str record.attemptId),
    ("job_id", .str record.jobId),
    ("attempt_number", .int record.attemptNumber),
    ("task_revision", .str record.taskRevision),
    ("transition_id", .str record.transitionId),
    ("worker_id", .str record.workerId),
    ("predecessor", textOrNull record.predecessor),
    ("status", .str record.status),
    ("started_at", textOrNull record.startedAt),
    ("deadline", textOrNull record.deadline),
    ("ended_at", textOrNull record.endedAt),
    ("failure_reference", textOrNull record.failureReference),
    ("metadata", .obj record.metadata)]

/-- `_required_string` of an attempt. -/
def requiredString (payload : Fields) (key : String) : Except String String :=
  match payload.get key with
  | .str "" => .error s!"attempt field '{key}' must be a non-empty string"
  | .str text => .ok text
  | _ => .error s!"attempt field '{key}' must be a non-empty string"

/-- `_optional_string` -/
def optionalString : Json → Option String
  | .str "" => none
  | .str text => some text
  | _ => none

section Reading

variable (py : Python)

/-- `dict(value or {})` -/
def dictOf (value : Json) : Except String Fields :=
  if Frozen.truthy value then
    match value with
    | .obj fields => .ok fields
    | value => (py.dict value).elim (.error "no mapping") .ok
  else .ok []

/-- `attempt_record_from_dict` -/
def attemptRecordFromDict (payload : Fields) : Except String AttemptRecord := do
  let attemptId ← requiredString payload "attempt_id"
  let jobId ← requiredString payload "job_id"
  let attemptNumber ← py.builtins.int ((payload.get? "attempt_number").getD (.int 0))
  let taskRevision ← requiredString payload "task_revision"
  let transitionId ← requiredString payload "transition_id"
  let workerId ← requiredString payload "worker_id"
  let metadata ← dictOf py (payload.get "metadata")
  .ok {
    schema := py.builtins.str ((payload.get? "schema").getD (.str "tulid.attempt/v1"))
    attemptId := attemptId
    jobId := jobId
    attemptNumber := attemptNumber
    taskRevision := taskRevision
    transitionId := transitionId
    workerId := workerId
    predecessor := optionalString (payload.get "predecessor")
    status := py.builtins.str ((payload.get? "status").getD (.str "admitted"))
    startedAt := optionalString (payload.get "started_at")
    deadline := optionalString (payload.get "deadline")
    endedAt := optionalString (payload.get "ended_at")
    failureReference := optionalString (payload.get "failure_reference")
    metadata := metadata }

/-- `attempt_records_from_metadata`: what is no list of mappings raises. -/
def attemptRecordsFromMetadata (metadata : Metadata) : Except String (List AttemptRecord) := do
  let raw := (metadata.get attemptRecordMetadataKey).getD .null
  if Frozen.truthy raw then
    match raw with
    | .arr items => do
        let records ← items.mapM fun
          | .obj payload => attemptRecordFromDict py payload
          | _ => .error "no mapping"
        .ok (records.insertionSort fun a b => a.attemptNumber ≤ b.attemptNumber)
    | _ => .error "job metadata attempt_records must be a list"
  else .ok []

end Reading

-- ================================================================= files

/-- Where the files are. -/
structure Layout where
  /-- the file that `_path_for` of a job id leads to -/
  pathFor : String → String
  /-- the file is found by the pattern `*/job.json` -/
  listed : String → Bool

/-- The files of the store. -/
abbrev Files := Store String Job

/-- Why a call fails. -/
inductive Failure where
  | notFound
  | readFailed
  | writeFailed
  | activeExists
  | immutableMetadata (key : String)
  | invalidAttempt (text : String)
  /-- an exception that the store lets through -/
  | raised
  deriving DecidableEq

/-- `_job_from_payload`: the fields that must not be empty. -/
def Job.readable (job : Job) : Bool :=
  job.jobId ≠ "" && job.projectId ≠ "" && job.taskId ≠ "" && job.transitionId ≠ "" &&
    job.workerId ≠ "" && job.workspacePath ≠ "" && job.status ≠ ""

section Calls

variable (py : Python) (L : Layout)

/-- `FileExecutionJobStore.get` -/
def getJob (jobId : String) (files : Files) : Except Failure Job :=
  match files.get (L.pathFor jobId) with
  | none => .error .notFound
  | some job => if job.readable then .ok job else .error .readFailed

/-- `FileExecutionJobStore.save`; `saves` says that the write succeeds. -/
def save (saves : Bool) (job : Job) (files : Files) : Files × Except Failure Job :=
  if saves then (files.put (L.pathFor job.jobId) job, .ok job) else (files, .error .writeFailed)

/-- `FileExecutionJobStore.find_active` -/
def findActive (projectId taskId transitionId : String) (files : Files) :
    Except Failure (List Job) :=
  let jobs := (files.entries.filter fun e => L.listed e.1).map Prod.snd
  if jobs.all Job.readable then
    .ok (jobs.filter fun job => job.projectId = projectId && job.taskId = taskId &&
      job.transitionId = transitionId && activeJobStatuses.contains job.status)
  else .error .readFailed

/-- `metadata.setdefault` -/
def setDefault (metadata : Metadata) (key : String) (value : Json) : Metadata :=
  match metadata.get key with
  | some _ => metadata
  | none => metadata.put key value

/-- `FileExecutionJobStore.create` -/
def create (now : String) (saves : Bool) (job : Job) (files : Files) :
    Files × Except Failure Job :=
  match findActive L job.projectId job.taskId job.transitionId files with
  | .error e => (files, .error e)
  | .ok (_ :: _) => (files, .error .activeExists)
  | .ok [] =>
      let metadata := setDefault (setDefault job.metadata "created_at" (.str now))
        "updated_at" (.str now)
      save L saves { job with metadata := metadata } files

/-- The immutable key that an update would change. -/
def changedKey (metadata updates : Metadata) : Option String :=
  immutableJobMetadataKeys.find? fun key =>
    match updates.get key, metadata.get key with
    | some new, some old => !py.equal new old
    | _, _ => false

/-- `dict.update` -/
def Metadata.update (metadata updates : Metadata) : Metadata :=
  updates.entries.foldl (fun m e => m.put e.1 e.2) metadata

/-- `_update_status_unlocked` -/
def updateStatus (now : String) (saves : Bool) (jobId status : String) (updates : Metadata)
    (incrementAttempts : Bool) (files : Files) : Files × Except Failure Job :=
  match getJob L jobId files with
  | .error e => (files, .error e)
  | .ok job =>
      match changedKey py job.metadata updates with
      | some key => (files, .error (.immutableMetadata key))
      | none =>
          let metadata := (Metadata.update job.metadata updates).put "updated_at" (.str now)
          save L saves { job with
            status := status
            attempts := job.attempts + (if incrementAttempts then 1 else 0)
            metadata := metadata } files

/-- `list(value or ())`; `none` raises. -/
def listOf (value : Json) : Option (List Json) :=
  if Frozen.truthy value then
    match value with
    | .arr items => some items
    | .obj fields => some (fields.map fun e => .str e.1)
    | .str text => some (text.toList.map fun c => .str (String.ofList [c]))
    | _ => none
  else some []

/-- A raw record is that of an attempt. -/
def isAttempt (attemptId : String) : Json → Bool
  | .obj payload =>
      match Fields.get payload "attempt_id" with
      | .str text => text = attemptId
      | _ => false
  | _ => false

/-- `int(item.get("attempt_number", 0))`; `none` raises. -/
def numberOf : Json → Option Int
  | .obj payload =>
      (py.builtins.int ((Fields.get? payload "attempt_number").getD (.int 0))).toOption
  | _ => none

/-- `surviving.sort`, by number; `none` raises. -/
def sortRecords (items : List Json) : Option (List Json) := do
  let numbered ← items.mapM fun item => (numberOf py item).map fun n => (n, item)
  some ((numbered.insertionSort fun a b => a.1 ≤ b.1).map Prod.snd)

/-- `_record_attempt_unlocked` -/
def recordAttempt (now : String) (saves : Bool) (jobId : String) (payload : Fields)
    (files : Files) : Files × Except Failure Job :=
  match getJob L jobId files with
  | .error e => (files, .error e)
  | .ok job =>
      match attemptRecordFromDict py payload with
      | .error text => (files, .error (.invalidAttempt text))
      | .ok incoming =>
          match listOf ((job.metadata.get attemptRecordMetadataKey).getD .null) with
          | none => (files, .error .raised)
          | some rawRecords =>
              let surviving := (rawRecords.filter fun item => !isAttempt incoming.attemptId item)
                ++ [attemptRecordToDict incoming]
              match sortRecords py surviving with
              | none => (files, .error .raised)
              | some sorted =>
                  updateStatus py L now saves jobId job.status
                    ((∅ : Metadata).put attemptRecordMetadataKey (.arr sorted)) false files

/-- The statuses of an attempt that has not ended. -/
def incomplete (record : AttemptRecord) : Bool :=
  record.status = "admitted" || record.status = "running"

/-- `reconcile_attempt_records` of one record. -/
def reconcile (endedAt failureReference : Option String) (record : AttemptRecord) :
    AttemptRecord :=
  if incomplete record then
    { record with
      status := "ended"
      endedAt := endedAt.filter (· ≠ "") <|> record.endedAt
      failureReference := failureReference.filter (· ≠ "") <|> record.failureReference }
  else record

/-- `settle_interrupted_attempts`; `saves` says for each attempt id whether
the write of its record succeeds. -/
def settleInterruptedAttempts (now : String) (saves : String → Bool) (jobId : String)
    (endedAt failureReference : Option String) (files : Files) : Files × Except Failure Job :=
  match getJob L jobId files with
  | .error e => (files, .error e)
  | .ok job =>
      match attemptRecordsFromMetadata py job.metadata with
      -- a `ValueError`; another exception is let through, and nothing is written
      | .error _ => (files, .ok job)
      | .ok records =>
          let endpoint := (endedAt.filter (· ≠ "")).getD now
          let reference := (failureReference.filter (· ≠ "")).getD jobId
          let reconciled := records.map (reconcile (some endpoint) (some reference))
          -- of two records of one attempt the later stands in `by_id`
          let settled := (records.filter incomplete).filterMap fun record =>
            reconciled.reverse.find? fun r => r.attemptId = record.attemptId
          let step := fun files (record : AttemptRecord) =>
            match attemptRecordToDict record with
            | .obj payload =>
                (recordAttempt py L now (saves record.attemptId) jobId payload files).1
            | _ => files
          (settled.foldl step files, .ok job)

/-- A call of the store, and whether its writes succeed. -/
inductive Op where
  | create (job : Job) (saves : Bool)
  | updateStatus (jobId status : String) (updates : Metadata) (incrementAttempts saves : Bool)
  | recordAttempt (jobId : String) (payload : Fields) (saves : Bool)
  | settleInterruptedAttempts (jobId : String) (endedAt failureReference : Option String)
      (saves : String → Bool)

/-- One call, at the moment `now`. -/
def step (now : String) : Op → Files → Files
  | .create job saves, files => (create L now saves job files).1
  | .updateStatus jobId status updates incrementAttempts saves, files =>
      (updateStatus py L now saves jobId status updates incrementAttempts files).1
  | .recordAttempt jobId payload saves, files =>
      (recordAttempt py L now saves jobId payload files).1
  | .settleInterruptedAttempts jobId endedAt failureReference saves, files =>
      (settleInterruptedAttempts py L now saves jobId endedAt failureReference files).1

/-- The calls one after the other, each at its moment. -/
def runCalls (files : Files) (calls : List (String × Op)) : Files :=
  calls.foldl (fun files call => step py L call.1 call.2 files) files

end Calls

end OpenTulid.JobFiles
