/-
The shared world: the stores the processes read and write, the operations
on them, and the machine that interleaves the processes.

# Stores

`Data` holds what is on disk: for every project its jobs, transaction
journals, event log, tracker and artifact files; the repositories with
their Git history; the sealed candidate storages; the resource leases.

# Operations

`Op` lists the operations, each atomic: a store call under the store's own
lock, one adapter call, one file system call, one Git commit. A failing
operation (`fault`) answers an error and changes nothing. Advisory locks
that span several operations (`Lock`) are taken and released by operations
of their own.

A status write carries the place of the code that makes it (`WriteSite`)
and the status the code decided on (`basis`): the value it had read when
its branch depends on that value, nothing when it writes regardless.
Neither has an effect; conditions on runs refer to them.

# Code outside the repository

`Env` holds what is decided elsewhere: Git's answers, the process umask,
the block sizes of file copies, and the loaders and selection rules that
other parts of the runtime define.
-/
import OpenTulid.Lib.Par
import OpenTulid.Tracker
import Mathlib.Data.List.Sort

namespace OpenTulid

abbrev Pid := Nat

-- ============================================================= stores

/-- A commit of a Git history. -/
structure GitCommit where
  sha : String
  parent : Option String
  tree : String
  subject : String
  deriving DecidableEq, Repr

/-- A repository: its working tree and, under Git, its history with the
tip first. -/
structure Repo where
  tree : FileTree := ∅
  git : Option (List GitCommit) := none
  deriving DecidableEq

/-- The tip of the history. -/
def Repo.head (r : Repo) : Option GitCommit := r.git.bind List.head?

/-- A resource held by a job. -/
structure ResourceLease where
  resourceId : String
  jobId : JobId
  workerId : String
  deriving DecidableEq, Repr

/-- The files of one project. -/
structure Project where
  jobs : Table ExecutionJob.jobId := ∅
  journals : Table TransactionJournalRecord.journalId := ∅
  events : List EventEnvelope := []
  tracker : Tracker := ⟨[], [], ∅, []⟩
  artifacts : FileTree := ∅
  deriving DecidableEq

/-- Everything on disk. -/
structure Data where
  projects : ProjectId → Project
  repos : RepoId → Repo
  storages : StorageId → FileTree
  leases : List ResourceLease

namespace Data

/-- The data with one project changed. -/
def withProject (d : Data) (p : ProjectId) (f : Project → Project) : Data :=
  { d with projects := Function.update d.projects p (f (d.projects p)) }

/-- The data with one repository changed. -/
def withRepo (d : Data) (r : RepoId) (f : Repo → Repo) : Data :=
  { d with repos := Function.update d.repos r (f (d.repos r)) }

@[simp] theorem withProject_projects_self (d : Data) (p : ProjectId)
    (f : Project → Project) :
    (d.withProject p f).projects p = f (d.projects p) := by
  simp [withProject]

theorem withProject_projects_of_ne (d : Data) {p q : ProjectId} (h : q ≠ p)
    (f : Project → Project) :
    (d.withProject p f).projects q = d.projects q := by
  simp [withProject, h]

@[simp] theorem withProject_repos (d : Data) (p : ProjectId)
    (f : Project → Project) : (d.withProject p f).repos = d.repos := rfl

@[simp] theorem withProject_storages (d : Data) (p : ProjectId)
    (f : Project → Project) : (d.withProject p f).storages = d.storages := rfl

@[simp] theorem withProject_leases (d : Data) (p : ProjectId)
    (f : Project → Project) : (d.withProject p f).leases = d.leases := rfl

@[simp] theorem withRepo_repos_self (d : Data) (r : RepoId)
    (f : Repo → Repo) : (d.withRepo r f).repos r = f (d.repos r) := by
  simp [withRepo]

theorem withRepo_repos_of_ne (d : Data) {r s : RepoId} (h : s ≠ r)
    (f : Repo → Repo) : (d.withRepo r f).repos s = d.repos s := by
  simp [withRepo, h]

@[simp] theorem withRepo_projects (d : Data) (r : RepoId)
    (f : Repo → Repo) : (d.withRepo r f).projects = d.projects := rfl

@[simp] theorem withRepo_storages (d : Data) (r : RepoId)
    (f : Repo → Repo) : (d.withRepo r f).storages = d.storages := rfl

@[simp] theorem withRepo_leases (d : Data) (r : RepoId)
    (f : Repo → Repo) : (d.withRepo r f).leases = d.leases := rfl

/-- The stored job under an id. -/
def job (d : Data) (p : ProjectId) (id : JobId) : Option ExecutionJob :=
  (d.projects p).jobs.get id

/-- The stored status of a job. -/
def status (d : Data) (p : ProjectId) (id : JobId) :
    Option ExecutionJobStatus :=
  (d.job p id).map (·.status)

/-- The stored journal record under an id. -/
def journal (d : Data) (p : ProjectId) (id : JournalId) :
    Option TransactionJournalRecord :=
  (d.projects p).journals.get id

end Data

-- ====================================================== outside answers

/-- What a derived task file parses to. -/
structure ParsedDerived where
  localId : String
  title : String
  dependencies : List String
  body : Body
  deriving DecidableEq, Repr

/-- The answers of code outside the modelled functions. -/
structure Env where
  /-- `git check-ignore` -/
  ignored : Repo → RelPath → Bool
  /-- `git add` and `git commit` of paths: the new tip, or nothing to
  commit, or the error output -/
  gitCommit : Repo → String → List RelPath → Except String (Option GitCommit)
  /-- `git status`: live uncommitted changes -/
  dirty : Repo → Bool
  /-- the tree a transaction's commit must have, when it can be computed -/
  intendedCommitTree : Repo → String → List Effect → Option String
  /-- running Git raises (no executable) -/
  gitRaises : Bool
  /-- the source selection rule on a live repository -/
  selects : Repo → RelPath → Bool
  /-- the selection a candidate was sealed under -/
  candidateSelects : Candidate → RelPath → Bool
  /-- a repository that cannot be scanned -/
  scanErrors : Repo → List DomainError
  /-- `load_job_execution_contract` -/
  loadContract : ExecutionJob → Except (List DomainError) (Option ExecutionContract)
  /-- `load_planning_inputs`, or the text of the error it raises -/
  loadPlanning : ExecutionJob → Except String (Option PlanningInputs)
  /-- `_validate_review_result` -/
  reviewResultErrors : Option String → List DomainError
  /-- the transitions of the workflow -/
  transitions : String → Option TransitionDefinition
  /-- the artifact output path of a job, inside its workspace -/
  outputRelative : ExecutionJob → Option RelPath
  /-- `_parse_derived_task_file` on the bytes of a file -/
  parseDerived : Content → Except String ParsedDerived
  /-- `validate_task_schema` for tasks under the global contract -/
  schemaErrors : Task → List DomainError
  /-- the first hexadecimal digits of a digest, as they name a file -/
  digestName : Digest → String
  /-- the mode a new file gets for a requested mode -/
  createMode : Mode → Mode
  /-- the blocks in which a content is copied -/
  blocks : Content → List Content
  /-- the blocks are the content -/
  blocks_flatten : ∀ c, (blocks c).flatten = c

/-- Outside answers that get in nobody's way: no Git, every file
deliverable, no frozen contract, files copied in one block. -/
def Env.plain : Env where
  ignored _ _ := false
  gitCommit _ _ _ := .ok none
  dirty _ := false
  intendedCommitTree _ _ _ := none
  gitRaises := false
  selects _ _ := true
  candidateSelects _ _ := true
  scanErrors _ := []
  loadContract _ := .ok none
  loadPlanning _ := .ok none
  reviewResultErrors _ := []
  transitions _ := none
  outputRelative _ := some ["output"]
  parseDerived _ := .error "Invalid derived task"
  schemaErrors _ := []
  digestName _ := ""
  createMode mode := mode
  blocks c := if c = [] then [] else [c]
  blocks_flatten c := by
    split
    next h => simp [h]
    next => simp

-- ========================================================= operations

/-- The advisory locks that span several operations. -/
inductive Lock where
  /-- `_publication_lock`, one per event store -/
  | publication (p : ProjectId)
  /-- the scheduler's lock -/
  | scheduler
  /-- the lock of the lease store -/
  | leases
  /-- `execution_lock`, one per job -/
  | execution (p : ProjectId) (job : JobId)
  deriving DecidableEq, Repr

/-- The places of the code that write a job's status. -/
inductive WriteSite where
  | completionSubmitted
  | candidateCaptured
  | captureRejected
  | validationFinished
  | completionRejected
  | acceptanceFailed
  | acceptanceAccepted
  | recoverySettled
  | failedBeforeRun
  | totalAttemptBound
  | executionStarted
  | verificationEnvironment
  | executorException
  | workerFailed
  | failureEvidence
  | setJobStatus
  | reconciled
  deriving DecidableEq, Repr

/-- The two places files are written in. -/
inductive Root where
  | repo (r : RepoId)
  | artifacts (p : ProjectId)
  deriving DecidableEq, Repr

/-- Points of a program that conditions and properties refer to. -/
inductive Mark where
  /-- an effect of a journal is performed, by its position -/
  | performs (j : JournalId) (k : Nat)
  /-- an effect of a journal has reported success -/
  | succeeds (j : JournalId) (k : Nat)
  /-- an effect of a journal is compensated -/
  | compensates (j : JournalId) (k : Nat)
  /-- recovery appends the missing events of a journal -/
  | replaysEvents (j : JournalId)
  /-- recovery settles the job of a journal -/
  | settles (j : JournalId)
  /-- the worker of an attempt is started -/
  | launches (p : ProjectId) (job : JobId) (number : Nat) (work : Work)
  /-- the process has crashed -/
  | crashed
  deriving DecidableEq

/-- The operations of the processes. -/
inductive Op where
  /-- read files, tasks or Git -/
  | look
  | getJob (p : ProjectId) (id : JobId)
  | listJobs (p : ProjectId)
  | listJournals (p : ProjectId)
  | lock (l : Lock)
  | unlock (l : Lock)
  | updateStatus (p : ProjectId) (site : WriteSite)
      (basis : Option ExecutionJobStatus) (id : JobId)
      (status : ExecutionJobStatus) (patch : MetadataPatch)
      (incrementAttempts : Bool)
  | recordAttempt (p : ProjectId) (id : JobId) (record : AttemptRecord)
  | createJob (p : ProjectId) (job : ExecutionJob)
  | writeJournal (p : ProjectId) (record : TransactionJournalRecord)
  /-- the journal folder is flushed after a record was replaced -/
  | syncJournal (p : ProjectId) (record : TransactionJournalRecord)
  | appendEvent (p : ProjectId) (event : EventEnvelope)
  /-- the readable lines of appended events are written -/
  | appendHuman (p : ProjectId)
  | createTask (p : ProjectId) (task : Task)
  | writeTask (p : ProjectId) (task : Task)
  | moveTask (p : ProjectId) (id : TaskId) (state : String)
  | fs (root : Root) (w : FsWrite)
  | commit (r : RepoId) (message : String) (paths : List RelPath)
  /-- `_check_integration_target`: one scan of the repository -/
  | checkTarget (r : RepoId) (contract : ExecutionContract)
  | sealCandidate (s : StorageId) (tree : FileTree)
  | writeLease (lease : ResourceLease)
  | removeLease (lease : ResourceLease)
  | mark (m : Mark)

/-- What an operation answers. -/
def Op.Res : Op → Type
  | .look => Data
  | .getJob _ _ => Except DomainError ExecutionJob
  | .listJobs _ => Except DomainError (List ExecutionJob)
  | .listJournals _ => Except Raised (List TransactionJournalRecord)
  | .updateStatus .. => Except DomainError ExecutionJob
  | .recordAttempt .. => Except DomainError ExecutionJob
  | .createJob .. => Except DomainError ExecutionJob
  | .writeJournal .. => Except DomainError Unit
  | .syncJournal .. => Except DomainError Unit
  | .appendEvent .. => Except DomainError Unit
  | .appendHuman _ => Except DomainError Unit
  | .createTask .. => Except (List DomainError) Unit
  | .writeTask .. => Except (List DomainError) Unit
  | .moveTask .. => Except (List DomainError) Unit
  | .fs .. => Except Errno Unit
  | .commit .. => Except String Unit
  | .checkTarget .. => Except (List DomainError) Unit
  | .writeLease _ => Except Raised Unit
  | .removeLease _ => Except Raised Unit
  | _ => Unit

-- ================================================== store operations

/-- `update_status` on the stored jobs. -/
def JobStore.updateStatus (jobs : Table ExecutionJob.jobId) (id : JobId)
    (status : ExecutionJobStatus) (patch : MetadataPatch)
    (incrementAttempts : Bool) :
    Except DomainError (Table ExecutionJob.jobId × ExecutionJob) :=
  match jobs.get id with
  | none => .error ⟨"job.not_found", s!"Execution job {id} was not found.", some id⟩
  | some job =>
      match job.metadata.violates patch with
      | some key => .error ⟨"job.immutable_metadata",
          s!"Execution job metadata field {key} is immutable.", some id⟩
      | none =>
          let updated : ExecutionJob := { job with
            status := status
            attempts := job.attempts + if incrementAttempts then 1 else 0
            metadata := job.metadata.update patch }
          .ok (jobs.put updated, updated)

/-- `find_active`: the active jobs of a task's transition. -/
def JobStore.findActive (jobs : Table ExecutionJob.jobId) (project : ProjectId)
    (task : TaskId) (transition : String) : List ExecutionJob :=
  jobs.values.filter fun job =>
    job.projectId = project ∧ job.taskId = task ∧
      job.transitionId = transition ∧ job.status.active

/-- `create` on the stored jobs. -/
def JobStore.create (jobs : Table ExecutionJob.jobId) (job : ExecutionJob) :
    Except DomainError (Table ExecutionJob.jobId) :=
  match JobStore.findActive jobs job.projectId job.taskId job.transitionId with
  | active :: _ => .error ⟨"job.active_exists",
      s!"An active execution job already exists for task {job.taskId} and transition {job.transitionId}.",
      some active.jobId⟩
  | [] => .ok (jobs.put job)

/-- The attempt records with one inserted by its number. -/
def upsertAttempt (records : List AttemptRecord) (r : AttemptRecord) :
    List AttemptRecord :=
  ((records.filter fun x => x.attemptId ≠ r.attemptId) ++ [r]).insertionSort
    fun x y => x.attemptNumber ≤ y.attemptNumber

/-- `record_attempt` on the stored jobs: the status is kept. -/
def JobStore.recordAttempt (jobs : Table ExecutionJob.jobId) (id : JobId)
    (r : AttemptRecord) :
    Except DomainError (Table ExecutionJob.jobId × ExecutionJob) :=
  match jobs.get id with
  | none => .error ⟨"job.not_found", s!"Execution job {id} was not found.", some id⟩
  | some job =>
      JobStore.updateStatus jobs id job.status
        { attemptRecords := some (upsertAttempt job.metadata.attemptRecords r) }
        false

/-- `append` on the event log: a known id is not appended again. -/
def EventStore.append (events : List EventEnvelope) (e : EventEnvelope) :
    List EventEnvelope :=
  if e.eventId ∈ events.map (·.eventId) then events else events ++ [e]

/-- The image of a file on the deliverable surface of a tree. -/
def surfaceAt (selects : RelPath → Bool) (t : FileTree) (p : RelPath) :
    Option FileImage :=
  if selects p then t.file? p else none

/-- A manifest lists exactly the deliverable surface of a tree: their
digests are equal. -/
def Manifest.lists (m : Manifest) (selects : RelPath → Bool) (t : FileTree) : Bool :=
  (m.all fun e => surfaceAt selects t e.path = some ⟨e.sha256, e.mode⟩) &&
    t.nodes.keys.all fun p =>
      (surfaceAt selects t p).isNone || m.any fun e => e.path = p

/-- The commit a snapshot of a repository records: none when it is not under
Git, has no commit, or Git cannot be run. -/
def Env.baseCommit (E : Env) (repo : Repo) : Option String :=
  if E.gitRaises then none else repo.head.map (·.sha)

/-- `_check_integration_target` on a repository. -/
def checkIntegrationTarget (E : Env) (r : RepoId) (repo : Repo)
    (contract : ExecutionContract) : Except (List DomainError) Unit :=
  if E.scanErrors repo ≠ [] then .error (E.scanErrors repo)
  else
    let drift : List String :=
      (if contract.baselineManifest.lists (E.selects repo) repo.tree then []
        else ["deliverable manifest changed since the job baseline"]) ++
      match E.baseCommit repo with
      | none => []
      | some now =>
          if contract.gitRepository then
            (if contract.baseCommit.any (· ≠ now)
              then ["branch base commit moved since the job baseline"] else []) ++
            (if contract.dirty
              then ["target was not a clean managed checkout at baseline"] else []) ++
            (if E.dirty repo then ["target has live uncommitted changes"] else [])
          else []
    if drift = [] then .ok ()
    else .error [⟨"repo.stale_target",
      s!"Integration target no longer matches the job baseline (repository identified as {r}); candidate preserved: "
        ++ "; ".intercalate drift
        ++ ". Stop rather than overwriting the repository with the stale candidate; re-plan against the current repository.",
      some r⟩]

/-- `_commit_repo_changes`: ignored paths are left out; with none left, or
with nothing to commit, the history stays. -/
def commitRepoChanges (E : Env) (repo : Repo) (message : String)
    (paths : List RelPath) : Except String Repo :=
  match paths.filter fun p => !E.ignored repo p with
  | [] => .ok repo
  | committable =>
      match E.gitCommit repo message committable with
      | .error stderr => .error stderr
      | .ok none => .ok repo
      | .ok (some c) => .ok { repo with git := repo.git.map (c :: ·) }

/-- The tree under a root. -/
def Data.tree (d : Data) : Root → FileTree
  | .repo r => (d.repos r).tree
  | .artifacts p => (d.projects p).artifacts

/-- The data with the tree under a root replaced. -/
def Data.setTree (d : Data) (root : Root) (t : FileTree) : Data :=
  match root with
  | .repo r => d.withRepo r fun repo => { repo with tree := t }
  | .artifacts p => d.withProject p fun project => { project with artifacts := t }

/-- A journal id that is safe as a file stem. -/
def safeStem (id : JournalId) : Bool :=
  id ≠ "" ∧ id ≠ "." ∧ id ≠ ".." ∧ '/' ∉ id.toList ∧ '\\' ∉ id.toList

/-- The error of a store write that failed. -/
def writeFailed (code : String) : DomainError :=
  ⟨code, "Cannot write.", none⟩

/-- One operation on the data. -/
def Op.apply (E : Env) (fault : Bool) : (o : Op) → Data → Data × o.Res
  | .look, d => (d, d)
  | .getJob p id, d =>
      (d, if fault then .error (writeFailed "job.read_failed") else
        match d.job p id with
        | some job => .ok job
        | none => .error ⟨"job.not_found", s!"Execution job {id} was not found.", some id⟩)
  | .listJobs p, d =>
      (d, if fault then .error (writeFailed "job.read_failed")
        else .ok (d.projects p).jobs.values)
  | .listJournals p, d =>
      (d, if fault then .error ⟨"journal read failed"⟩
        else .ok (d.projects p).journals.values)
  | .updateStatus p _ _ id status patch inc, d =>
      if fault then (d, .error (writeFailed "job.write_failed")) else
        match JobStore.updateStatus (d.projects p).jobs id status patch inc with
        | .error e => (d, .error e)
        | .ok (jobs, job) =>
            (d.withProject p fun project => { project with jobs := jobs }, .ok job)
  | .recordAttempt p id r, d =>
      if fault then (d, .error (writeFailed "job.write_failed")) else
        match JobStore.recordAttempt (d.projects p).jobs id r with
        | .error e => (d, .error e)
        | .ok (jobs, job) =>
            (d.withProject p fun project => { project with jobs := jobs }, .ok job)
  | .createJob p job, d =>
      if fault then (d, .error (writeFailed "job.write_failed")) else
        match JobStore.create (d.projects p).jobs job with
        | .error e => (d, .error e)
        | .ok jobs =>
            (d.withProject p fun project => { project with jobs := jobs }, .ok job)
  | .writeJournal p r, d =>
      if fault || !safeStem r.journalId then
        (d, .error (writeFailed "journal.write_failed"))
      else
        (d.withProject p fun project =>
          { project with journals := project.journals.put r }, .ok ())
  | .syncJournal _ _, d =>
      (d, if fault then .error (writeFailed "journal.write_failed") else .ok ())
  | .appendHuman _, d =>
      (d, if fault then .error (writeFailed "event.append_failed") else .ok ())
  | .appendEvent p e, d =>
      if fault then (d, .error (writeFailed "event.append_failed")) else
        (d.withProject p fun project =>
          { project with events := EventStore.append project.events e }, .ok ())
  | .createTask p task, d =>
      if fault then (d, .error [writeFailed "file.write_failed"]) else
        match (d.projects p).tracker.createTask task with
        | .error e => (d, .error e)
        | .ok t => (d.withProject p fun project => { project with tracker := t }, .ok ())
  | .writeTask p task, d =>
      if fault then (d, .error [writeFailed "file.write_failed"]) else
        match (d.projects p).tracker.writeTask task with
        | .error e => (d, .error e)
        | .ok t => (d.withProject p fun project => { project with tracker := t }, .ok ())
  | .moveTask p id state, d =>
      if fault then (d, .error [writeFailed "file.write_failed"]) else
        match (d.projects p).tracker.moveTask id state with
        | .error e => (d, .error e)
        | .ok t => (d.withProject p fun project => { project with tracker := t }, .ok ())
  | .fs root w, d =>
      if fault then (d, .error .eio) else
        match (d.tree root).write w with
        | .error e => (d, .error e)
        | .ok t => (d.setTree root t, .ok ())
  | .commit r message paths, d =>
      if fault then (d, .error "git failed") else
        match commitRepoChanges E (d.repos r) message paths with
        | .error e => (d, .error e)
        | .ok repo => (d.withRepo r fun _ => repo, .ok ())
  | .checkTarget r contract, d =>
      (d, checkIntegrationTarget E r (d.repos r) contract)
  | .sealCandidate s tree, d =>
      ({ d with storages := Function.update d.storages s tree }, ())
  | .writeLease lease, d =>
      if fault then (d, .error ⟨"lease write failed"⟩)
      else ({ d with leases := lease ::
        d.leases.filter fun l => ¬(l.resourceId = lease.resourceId ∧ l.jobId = lease.jobId) },
        .ok ())
  | .removeLease lease, d =>
      if fault then (d, .error ⟨"lease unlink failed"⟩)
      else ({ d with leases := d.leases.filter fun l => l ≠ lease }, .ok ())
  | .lock _, d => (d, ())
  | .unlock _, d => (d, ())
  | .mark _, d => (d, ())

-- ========================================================= the machine

/-- One operation that has been performed. -/
structure Entry where
  pid : Pid
  fault : Bool
  op : Op
  /-- the data before the operation -/
  before : Data

/-- The data, the holders of the locks, and what has happened so far with
the last operation first. -/
structure World where
  data : Data
  held : Lock → Option Pid := fun _ => none
  history : List Entry := []

/-- The holders of the locks after an operation. -/
def heldAfter (held : Lock → Option Pid) (i : Pid) : Op → Lock → Option Pid
  | .lock l => Function.update held l (some i)
  | .unlock l => Function.update held l none
  | _ => held

/-- A lock is taken only when it is free. -/
def enabled (o : Op) (w : World) : Bool :=
  match o with
  | .lock l => (w.held l).isNone
  | _ => true

/-- One operation of a process. -/
def World.step (E : Env) (i : Pid) (fault : Bool) (o : Op) (w : World) :
    World × o.Res :=
  (⟨(o.apply E fault w.data).1, heldAfter w.held i o,
      ⟨i, fault, o, w.data⟩ :: w.history⟩,
    (o.apply E fault w.data).2)

/-- A crash: the operating system releases the locks. -/
def World.crash (i : Pid) (w : World) : World where
  data := w.data
  held := fun l => if w.held l = some i then none else w.held l
  history := ⟨i, false, .mark .crashed, w.data⟩ :: w.history

/-- The machine of the processes. -/
def machine (E : Env) : Par.Machine Pid Op Op.Res World where
  enabled _ o w := enabled o w
  exec i fault o w := w.step E i fault o
  crash i w := w.crash i

@[simp] theorem World.step_data (E : Env) (i : Pid) (fault : Bool) (o : Op)
    (w : World) : (w.step E i fault o).1.data = (o.apply E fault w.data).1 := rfl

@[simp] theorem World.step_history (E : Env) (i : Pid) (fault : Bool)
    (o : Op) (w : World) :
    (w.step E i fault o).1.history = ⟨i, fault, o, w.data⟩ :: w.history := rfl

@[simp] theorem World.step_held (E : Env) (i : Pid) (fault : Bool) (o : Op)
    (w : World) : (w.step E i fault o).1.held = heldAfter w.held i o := rfl

@[simp] theorem World.step_res (E : Env) (i : Pid) (fault : Bool) (o : Op)
    (w : World) : (w.step E i fault o).2 = (o.apply E fault w.data).2 := rfl

/-- A program of a process. -/
abbrev Proc (α : Type) := Prog Op Op.Res Raised α

/-- The programs of processes zero, one, two, … on the data. -/
def system (d : Data) (programs : List (Proc Unit)) :
    Par.Config Pid Op Op.Res Raised Unit World :=
  ⟨{ data := d }, fun i => programs[i]?⟩

/-- One operation as a program. -/
def perform (o : Op) : Proc o.Res := Prog.perform o

/-- Read files, tasks or Git. -/
def read {α : Type} (f : Data → α) : Proc α := do
  let d ← perform .look
  return f d

/-- The answer of a computation that may raise. -/
def ofExcept {α : Type} : Except Raised α → Proc α
  | .ok a => .ret a
  | .error e => .raise e

end OpenTulid
