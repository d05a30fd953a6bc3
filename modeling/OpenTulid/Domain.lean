/-
The domain records of the runtime: tasks, execution jobs, candidates,
effects, journals and events.

# What a record keeps

A record keeps the fields some modelled function reads. Clock values,
actors and event payloads are read by none of them and are left out. A
job's metadata mapping is a record of the keys that are read, with the
keys that may be set only once kept apart (`JobMetadata.frozen`).

# Digests

SHA-256 is taken as collision free: a digest is represented by the content
it is the digest of.
-/
import OpenTulid.Lib.Tree
import Mathlib.Data.Finset.Basic
import Mathlib.Data.Finset.Dedup
import Mathlib.Data.Prod.Basic

namespace OpenTulid

abbrev ProjectId := String
abbrev TaskId := String
abbrev JobId := String
abbrev JournalId := String
abbrev EventId := String
abbrev SubmissionId := String
abbrev RepoId := String
abbrev StorageId := String

/-- The SHA-256 of a content. -/
abbrev Digest := Content

/-- The SHA-256 of a content, up to collisions the content itself. -/
def sha256 (c : Content) : Digest := c

/-- A structured error passed between modules. -/
structure DomainError where
  code : String
  message : String
  location : Option String := none
  deriving DecidableEq, Repr

/-- An exception no handler of the function has caught. -/
structure Raised where
  text : String
  deriving DecidableEq, Repr

-- ============================================================== tasks

/-- One line of a task body, as the Markdown readers classify it. -/
inductive Line where
  /-- `# …` -/
  | title (text : String)
  /-- `## …` -/
  | heading (name : String)
  | text (content : String)
  | blank
  deriving DecidableEq, Repr

abbrev Body := List Line

/-- A task as the domain and the runtime see it. -/
structure Task where
  id : TaskId
  title : String
  currentState : String
  taskType : String := "task"
  dependencies : List TaskId := []
  artifactLinks : List String := []
  parentId : Option TaskId := none
  metadata : List (String × String) := []
  body : Body := []
  deriving DecidableEq, Repr

/-- The tasks a transition derives from its output. -/
structure DerivesDefinition where
  taskType : String
  state : String
  artifactType : String
  parentToIfDerived : Option String := none
  deriving DecidableEq, Repr

/-- One allowed state transition of a task type. -/
structure TransitionDefinition where
  id : String
  taskType : String
  fromState : String
  toState : String
  worker : Option String := none
  derives : Option DerivesDefinition := none
  /-- the artifact types it requires -/
  requiredArtifacts : List String := []
  /-- the transition requires prior implementation evidence -/
  review : Bool := false
  deriving DecidableEq, Repr

-- ======================================================== submissions

/-- One submitted artifact. -/
structure ArtifactSubmission where
  type : String
  path : RelPath
  deriving DecidableEq, Repr

/-- What a worker submits. -/
structure CompletionSubmission where
  submissionId : Option SubmissionId := none
  artifacts : List ArtifactSubmission := []
  reviewResult : Option String := none
  deriving DecidableEq, Repr

/-- What a job remembers of a submission it has answered. -/
structure SubmissionRecord where
  accepted : Bool
  feedback : List DomainError := []
  deriving DecidableEq, Repr

-- ========================================================== manifests

/-- One file of a deliverable surface. -/
structure ManifestEntry where
  path : RelPath
  sha256 : Digest
  mode : Mode
  deriving DecidableEq, Repr

/-- A deliverable surface, in the order of the paths. -/
abbrev Manifest := List ManifestEntry

/-- The kind of a candidate change. -/
inductive ChangeKind where
  | add
  | edit
  | delete
  deriving DecidableEq, Repr

/-- One change between the baseline and the candidate. -/
structure CandidateChange where
  kind : ChangeKind
  path : RelPath
  beforeSha256 : Option Digest := none
  afterSha256 : Option Digest := none
  beforeMode : Option Mode := none
  afterMode : Option Mode := none
  deriving DecidableEq, Repr

/-- A sealed candidate: the storage it is sealed in, its manifest and its
changes against the baseline. -/
structure Candidate where
  candidateId : String
  storage : StorageId
  manifest : Manifest
  changes : List CandidateChange
  deriving DecidableEq, Repr

/-- A source document frozen with a job, with every reference to its
content. -/
structure FrozenContextFile where
  sha256 : Digest
  required : Bool
  refs : List String := []
  sourcePaths : List String := []
  deriving DecidableEq, Repr

/-- The parts of a frozen execution contract the runtime reads. -/
structure ExecutionContract where
  transition : TransitionDefinition
  sourceTask : Task
  baselineManifest : Manifest
  gitRepository : Bool
  baseCommit : Option String
  dirty : Bool
  contextFiles : List FrozenContextFile := []
  deriving DecidableEq, Repr

/-- The parts of frozen planning inputs the runtime reads. -/
structure PlanningInputs where
  transition : TransitionDefinition
  sourceTask : Task
  contextFiles : List FrozenContextFile := []
  deriving DecidableEq, Repr

-- ========================================================== revisions

/-- A reference to a source with the digest of its content. -/
abbrev SourceIdentity := String × Digest

/-- The canonical payload of a revision. -/
structure TaskRevision where
  taskType : String
  title : String
  parentId : Option TaskId
  dependencies : List TaskId
  body : Store String (List String)
  sourceContent : Finset SourceIdentity
  deriving DecidableEq

/-- What attempts of a project are counted for: a task's transition at a
revision of the task. -/
structure Work where
  taskId : TaskId
  transitionId : String
  revision : TaskRevision
  deriving DecidableEq

-- =============================================================== jobs

/-- The lifecycle states of an execution job. -/
inductive ExecutionJobStatus where
  | pending
  | running
  | completionSubmitted
  | completionRejected
  | accepted
  | failed
  | stale
  | cancelled
  deriving DecidableEq, Repr

/-- The stored spelling of a status. -/
def ExecutionJobStatus.value : ExecutionJobStatus → String
  | .pending => "pending"
  | .running => "running"
  | .completionSubmitted => "completion_submitted"
  | .completionRejected => "completion_rejected"
  | .accepted => "accepted"
  | .failed => "failed"
  | .stale => "stale"
  | .cancelled => "cancelled"

/-- The statuses in which a job still owns its transition. -/
def ExecutionJobStatus.active : ExecutionJobStatus → Bool
  | .pending => true
  | .running => true
  | .completionSubmitted => true
  | .completionRejected => true
  | .stale => true
  | _ => false

/-- The statuses after which a submission is not validated any more. -/
def ExecutionJobStatus.terminal : ExecutionJobStatus → Bool
  | .accepted => true
  | .failed => true
  | .stale => true
  | .cancelled => true
  | _ => false

/-- The lifecycle of one worker attempt. -/
inductive AttemptStatus where
  | admitted
  | running
  | ended
  deriving DecidableEq, Repr

/-- One attempt of worker execution. -/
structure AttemptRecord where
  attemptId : String
  attemptNumber : Nat
  taskRevision : TaskRevision
  status : AttemptStatus
  failureReference : Option JobId := none
  deriving DecidableEq

/-- One rejected submission in a job's history. -/
structure RepairRecord where
  submissionId : SubmissionId
  classification : Option String
  errorCodes : List String
  repairReady : Bool
  retryReason : Option String
  deriving DecidableEq, Repr

/-- What an accepted job records of its acceptance. -/
structure AcceptanceMetadata where
  completedSubmissionId : SubmissionId
  acceptanceTransactionId : JournalId
  repositoryIdentity : Option RepoId
  repositoryCommit : Option String := none
  reviewResult : Option String := none
  deriving DecidableEq, Repr

/-- The metadata of a job, by the keys that are read. -/
structure JobMetadata where
  completionToken : Option String := none
  activeSubmissionId : Option SubmissionId := none
  completionSubmissions : List (SubmissionId × SubmissionRecord) := []
  repairReady : Bool := false
  repairAttempts : Nat := 0
  repairHistory : List RepairRecord := []
  repositoryIdentity : Option RepoId := none
  attemptRecords : List AttemptRecord := []
  failureReason : Option String := none
  acceptance : Option AcceptanceMetadata := none
  /-- the keys of `IMMUTABLE_JOB_METADATA_KEYS` set so far -/
  frozen : List (String × String) := []
  deriving DecidableEq

/-- Metadata updates of one status write: the keys it names. -/
structure MetadataPatch where
  activeSubmissionId : Option SubmissionId := none
  completionSubmissions : Option (List (SubmissionId × SubmissionRecord)) := none
  repairReady : Option Bool := none
  repairAttempts : Option Nat := none
  repairHistory : Option (List RepairRecord) := none
  attemptRecords : Option (List AttemptRecord) := none
  failureReason : Option String := none
  acceptance : Option AcceptanceMetadata := none
  frozen : List (String × String) := []
  deriving DecidableEq

/-- A unit of scheduled worker execution for one task transition. -/
structure ExecutionJob where
  jobId : JobId
  projectId : ProjectId
  taskId : TaskId
  transitionId : String
  workerId : String
  status : ExecutionJobStatus := .pending
  attempts : Nat := 0
  metadata : JobMetadata := {}
  deriving DecidableEq

/-- An update names a key that is set already and may not change. -/
def JobMetadata.violates (m : JobMetadata) (p : MetadataPatch) :
    Option String :=
  (p.frozen.find? fun kv =>
    match m.frozen.lookup kv.1 with
    | some old => old ≠ kv.2
    | none => false).map Prod.fst

/-- The metadata with the updates merged in. -/
def JobMetadata.update (m : JobMetadata) (p : MetadataPatch) : JobMetadata where
  completionToken := m.completionToken
  activeSubmissionId := p.activeSubmissionId <|> m.activeSubmissionId
  completionSubmissions :=
    p.completionSubmissions.getD m.completionSubmissions
  repairReady := p.repairReady.getD m.repairReady
  repairAttempts := p.repairAttempts.getD m.repairAttempts
  repairHistory := p.repairHistory.getD m.repairHistory
  repositoryIdentity := m.repositoryIdentity
  attemptRecords := p.attemptRecords.getD m.attemptRecords
  failureReason := p.failureReason <|> m.failureReason
  acceptance := p.acceptance <|> m.acceptance
  frozen := m.frozen ++
    p.frozen.filter fun kv => (m.frozen.lookup kv.1).isNone

-- ============================================================ effects

/-- A file of a sealed storage. -/
structure SourcePath where
  storage : StorageId
  path : RelPath
  deriving DecidableEq, Repr

/-- One planned artifact promotion. -/
structure ArtifactPromotion where
  artifactType : String
  taskId : TaskId
  source : SourcePath
  target : RelPath
  link : String
  targetExisted : Bool
  previousLinks : List String
  expectedAfterSha256 : Option Digest
  expectedBeforeSha256 : Option Digest
  expectedBeforeMode : Option Mode
  deriving DecidableEq, Repr

/-- One planned promotion of a changed file. -/
structure FilePromotion where
  source : SourcePath
  target : RelPath
  expectedAfterSha256 : Option Digest
  expectedBeforeSha256 : Option Digest
  expectedBeforeMode : Option Mode
  expectedAfterMode : Option Mode
  targetExisted : Bool
  deriving DecidableEq, Repr

/-- One planned deletion of a changed file. -/
structure FileDeletion where
  target : RelPath
  expectedBeforeSha256 : Option Digest
  deriving DecidableEq, Repr

/-- The effects of a transaction. -/
inductive Effect where
  | deleteChangedFile (d : FileDeletion)
  | promoteChangedFile (p : FilePromotion)
  | commitRepoChanges (message : String) (paths : List RelPath)
  | promoteArtifact (a : ArtifactPromotion)
  | createTask (task : Task)
  | linkDerivedTasks (parentId : TaskId) (childLinks : List String)
  | moveTask (taskId : TaskId) (toState : String)
  | createExecutionJob (job : ExecutionJob)
  deriving DecidableEq

-- ================================================= events and journals

/-- An event of the log. -/
structure EventEnvelope where
  eventId : EventId
  eventType : String
  taskId : Option TaskId := none
  jobId : Option JobId := none
  transitionId : Option String := none
  submissionId : Option SubmissionId := none
  deriving DecidableEq, Repr

/-- The state of a journal record. -/
inductive JournalStatus where
  | prepared
  | committed
  | failed
  deriving DecidableEq, Repr

/-- The commit a transaction intends, persisted before its effects. -/
structure CommitContext where
  message : String
  repositoryBaseCommit : Option String
  intendedTree : Option String
  deriving DecidableEq, Repr

/-- The durable context of an acceptance; a manual transition has none. -/
structure JournalContext where
  jobId : Option JobId := none
  candidate : Option Candidate := none
  expectedPreviousState : Option String := none
  repositoryIdentity : Option RepoId := none
  repositoryBaseCommit : Option String := none
  commit : Option CommitContext := none
  outputRelative : Option RelPath := none
  artifactPaths : Option (List RelPath) := none
  acceptanceMetadata :
    Option (AcceptanceMetadata × List (SubmissionId × SubmissionRecord)) := none
  deriving DecidableEq, Repr

/-- The persistent record of a multi-step transaction. -/
structure TransactionJournalRecord where
  journalId : JournalId
  projectId : ProjectId
  taskId : Option TaskId
  transitionId : Option String
  effects : List Effect
  events : List EventEnvelope
  status : JournalStatus
  error : Option DomainError := none
  context : JournalContext := {}
  deriving DecidableEq

end OpenTulid
