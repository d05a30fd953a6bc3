/-
The scheduler: which task gets a job next, and the creation of the job.

# What is read

A call works on one snapshot of the project, the jobs, and the journals
(`RuntimeView`). Timestamps enter through `stamp` and `now`; what earlier
attempts of the work allow is decided by the attempt account (`Account`).

# What is written

`ScheduleResult.created` is the job the call has added to the job store. A
repair-ready job that is answered again was created by an earlier call.
-/
import OpenTulid.Runtime.Acceptance

namespace OpenTulid

/-- Where a task's card stands. -/
structure BoardPosition where
  board : String
  line : Nat
  deriving DecidableEq, Repr

/-- A snapshot of the tasks with the positions of their cards. -/
structure PlacedSnapshot extends ProjectSnapshot where
  positions : List (TaskId × BoardPosition) := []
  deriving DecidableEq, Repr

namespace PlacedSnapshot

/-- `snapshot.tasks.get`. -/
def task? (s : PlacedSnapshot) (id : TaskId) : Option Task :=
  s.tasks.find? fun t => t.id = id

/-- A task comes no later than another in board order. -/
def before (s : PlacedSnapshot) (a b : Task) : Bool :=
  let board := fun t : Task => ((s.positions.lookup t.id).map (·.board)).getD ""
  let line := fun t : Task => ((s.positions.lookup t.id).map (·.line)).getD (10 ^ 9)
  board a < board b ||
    (board a = board b && (line a < line b || (line a = line b && a.id ≤ b.id)))

/-- `_tasks_in_board_order`. -/
def tasksInBoardOrder (s : PlacedSnapshot) : List Task :=
  s.tasks.insertionSort fun a b => s.before a b

end PlacedSnapshot

/-- What a scheduling call reads. -/
structure RuntimeView where
  snapshot : Except (List DomainError) PlacedSnapshot
  /-- `job_store.list` -/
  jobs : Except DomainError (List ExecutionJob)
  /-- `_job_timestamp`, in seconds -/
  stamp : ExecutionJob → Option Nat
  now : Nat
  /-- the journals the scheduler is given -/
  journals : Option JournalStore
  /-- the journals below the project root, when there is one -/
  projectJournals : Option JournalStore
  /-- `resolve_source_content_identities` below the project root -/
  resolveIdentities : Task → WorkflowTransition → List SourceIdentity

/-- What the attempt account says of a task's transition at a revision. -/
structure Account where
  /-- `_retry_blocked_by_cause` -/
  retryBlockedByCause : Task → WorkflowTransition → TaskRevision → Option DomainError
  /-- `_total_attempt_exhausted` -/
  totalAttemptExhausted : Task → WorkflowTransition → TaskRevision → Option DomainError

/-- What came of writing a new job. -/
structure JobWrite where
  /-- the job is in the store -/
  stored : Bool
  answer : Except (List DomainError) Unit

/-- The scheduler with its limits, and what it calls. -/
structure Scheduler where
  workflow : WorkflowDefinition
  lower : String → String
  reviewResultErrors : Option String → List DomainError
  isAncestor : Option (String → Bool)
  /-- `repository_identity` of the root it is configured with -/
  repositoryIdentity : Option RepoId
  serialRepoExecution : Bool := true
  failedJobBackoffSeconds : Nat := 60
  maxFailedAttempts : Nat := 0
  runtimeSessionStartedAt : Option Nat := none
  workerResources : String → List String
  /-- the job store of a manager that has one -/
  managerHasJobs : Bool := true
  /-- `lease_store.admit` has room, when there is a lease store -/
  leases : Option (List String → Bool) := none
  /-- everything of `create_execution_job` between the dependency check and
  the record: the id and the metadata of the job -/
  prepareJob : Task → WorkflowTransition → Except (List DomainError) (JobId × JobMetadata)
  /-- `job_store.create`, alone or in a transaction -/
  writeJob : ExecutionJob → JobWrite

/-- What a scheduling call answers. -/
structure ScheduleResult where
  scheduled : Bool := false
  job : Option ExecutionJob := none
  taskId : Option TaskId := none
  errors : List DomainError := []
  skipped : List DomainError := []
  created : Option ExecutionJob := none
  deriving DecidableEq

-- ====================================================== the jobs of a task

/-- The jobs of a task's transition. -/
def jobsOf (project : ProjectId) (task : TaskId) (transition : String)
    (jobs : List ExecutionJob) : List ExecutionJob :=
  jobs.filter fun j => j.projectId = project && j.taskId = task && j.transitionId = transition

/-- The job with the latest timestamp, the first of equals. -/
def latestJob (stamp : ExecutionJob → Option Nat) : List ExecutionJob → Option ExecutionJob
  | [] => none
  | job :: rest =>
      match latestJob stamp rest with
      | none => some job
      | some other => if (stamp job).getD 0 < (stamp other).getD 0 then some other else some job

/-- `_repair_ready_job`. -/
def repairReadyJob (stamp : ExecutionJob → Option Nat) (jobs : List ExecutionJob) :
    Option ExecutionJob :=
  latestJob stamp (jobs.filter fun j =>
    j.status = .completionRejected && j.metadata.repairReady)

/-- The statuses of a job that occupies a repository lane. -/
def ExecutionJobStatus.occupiesLane : ExecutionJobStatus → Bool
  | .pending | .running | .completionSubmitted | .completionRejected | .stale => true
  | _ => false

-- ======================================================== dependencies

section dependencies

variable (w : WorkflowDefinition)

/-- What a dependency's evidence is read from, when it is all there. -/
structure DependencyStores where
  jobs : Option (Except DomainError (List ExecutionJob))
  project : Option ProjectId
  journals : Option JournalStore
  stamp : ExecutionJob → Option Nat
  lower : String → String
  reviewResultErrors : Option String → List DomainError
  isAncestor : Option (String → Bool)
  repositoryIdentity : Option RepoId
  identitiesFor : Task → WorkflowTransition → List SourceIdentity

/-- The jobs of a dependency whose acceptance is evidence for it. -/
def evidencingJobs (R : DependencyStores) (journals : JournalStore) (project : ProjectId)
    (dependency : Task) (jobs : List ExecutionJob) : List ExecutionJob :=
  (jobs.filter fun j =>
      j.projectId = project && j.taskId = dependency.id && j.status = .accepted).filter fun j =>
    EvidenceContext.acceptedTaskEvidence
      { workflow := w, journals := some journals, lower := R.lower
        reviewResultErrors := R.reviewResultErrors, isAncestor := R.isAncestor }
      j dependency
      (match w.transitions.get j.transitionId with
        | some transition => R.identitiesFor dependency transition
        | none => [])
      none

/-- `_dependency_accepted_repo_identity`: the identity recorded by the
latest acceptance, when there is one. -/
def dependencyAcceptedRepoIdentity (R : DependencyStores) (journals : JournalStore)
    (project : ProjectId) (dependency : Task) : Option (Option RepoId) :=
  match R.jobs with
  | some (.ok jobs) =>
      (latestJob R.stamp (evidencingJobs w R journals project dependency jobs)).map fun job =>
        job.metadata.acceptance.bind (·.repositoryIdentity)
  | _ => none

/-- What `_dependency_error` answers for one dependency. -/
def oneDependencyError (R : DependencyStores) (snapshot : PlacedSnapshot) (task : Task)
    (id : TaskId) : Option DomainError :=
  match snapshot.task? id with
  | none => some ⟨"task.dependency_missing",
      s!"Task {task.id} depends on missing task {id}.", some task.id⟩
  | some dependency =>
      match w.dependencyOutcome dependency.taskType dependency.currentState with
      | .ambiguous => some ⟨"task.dependency_outcome_ambiguous",
          s!"Dependency {id} is in state {dependency.currentState} without a declared terminal outcome; declare terminal_outcome (success|failure|cancelled) before admitting dependent work.",
          some task.id⟩
      | .unmet => some ⟨"task.dependency_unmet",
          s!"Task {task.id} depends on unfinished task {id}.", some task.id⟩
      | .declared .failure => some ⟨"task.dependency_failed",
          s!"Task {task.id} depends on task {id} which finished in a declared failure terminal state; dependent work must not advance against a failed/cancelled dependency.",
          some task.id⟩
      | .declared .cancelled => some ⟨"task.dependency_failed",
          s!"Task {task.id} depends on task {id} which finished in a declared cancelled terminal state; dependent work must not advance against a failed/cancelled dependency.",
          some task.id⟩
      | .declared .success =>
          match R.jobs, R.project, R.journals with
          | some _, some project, some journals =>
              match dependencyAcceptedRepoIdentity w R journals project dependency with
              | none => some ⟨"task.dependency_not_accepted",
                  s!"Task {task.id} depends on task {id} which reached its declared success terminal without a recorded accepted completion; refusing to admit a dependent against a board-column-only or stale state change.",
                  some task.id⟩
              | some recorded =>
                  match recorded, R.repositoryIdentity with
                  | some recorded, some current =>
                      if recorded ≠ current then some ⟨"task.dependency_repo_moved",
                        s!"Dependency {id} was accepted into repository identity {recorded}, but the integration target now resolves to {current}; refusing to admit a dependent against a stale source identity.",
                        some task.id⟩
                      else none
                  | _, _ => none
          | _, _, _ => some ⟨"task.dependency_evidence_unavailable",
              s!"Task {task.id} depends on task {id} which finished in a declared success terminal, but required acceptance evidence is unavailable; refusing to admit dependent work without committed evidence.",
              some task.id⟩

/-- `_dependency_error`: the first dependency that is not released. -/
def dependencyError (R : DependencyStores) (snapshot : PlacedSnapshot) (task : Task) :
    Option DomainError :=
  task.dependencies.findSome? (oneDependencyError w R snapshot task)

end dependencies

-- ============================================================ the lane

/-- The task that holds the lane, with the jobs that occupy it. -/
structure SerialRepoLaneFocus where
  task : Task
  activeJobs : List ExecutionJob := []

namespace Scheduler

/-- `_unresolved_acceptance_journal`. -/
def unresolvedAcceptanceJournal (store : JournalStore) (identity : RepoId) :
    Option JournalId :=
  ((store.listIncomplete.getD []).find? fun record =>
    record.context.repositoryIdentity = some identity).map (·.journalId)

/-- `_serial_repo_lane_focus`. -/
def serialRepoLaneFocus (S : Scheduler) (v : RuntimeView) (project : ProjectId)
    (snapshot : PlacedSnapshot) : Except DomainError (Option SerialRepoLaneFocus) :=
  let unresolved := match v.journals, S.repositoryIdentity with
    | some store, some identity => unresolvedAcceptanceJournal store identity
    | _, _ => none
  match unresolved with
  | some journal => .error ⟨"repo_lane.unresolved_acceptance",
      s!"Repository lane is held by unresolved acceptance transaction {journal}; recover or reconcile it before admitting another integration.",
      S.repositoryIdentity⟩
  | none =>
  match v.jobs with
  | .error e => .error e
  | .ok jobs =>
      let tasks := snapshot.tasksInBoardOrder
      let own := jobs.filter fun j => j.projectId = project && tasks.any fun t => t.id = j.taskId
      let active := fun (t : Task) =>
        own.filter fun j => j.taskId = t.id && j.status.occupiesLane
      let external := jobs.filter fun j => j.projectId ≠ project &&
        S.repositoryIdentity.isSome &&
        j.metadata.repositoryIdentity = S.repositoryIdentity && j.status.occupiesLane
      match tasks.find? fun t => active t ≠ [] with
      | some task => .ok (some ⟨task, active task⟩)
      | none =>
          if external ≠ [] then
            .ok ((tasks.find? fun t => S.workflow.eligibleTransitions t ≠ []).map
              fun t => ⟨t, external⟩)
          else .ok ((tasks.find? fun t =>
              own.any (fun j => j.taskId = t.id && j.status = .accepted) &&
              S.workflow.eligibleTransitions t ≠ []).map fun t => ⟨t, []⟩)

-- ======================================================= job creation

/-- What the manager reads a dependency's evidence from. -/
def managerStores (S : Scheduler) (v : RuntimeView) (project : ProjectId) :
    DependencyStores where
  jobs := if S.managerHasJobs then some v.jobs else none
  project := some project
  journals := v.projectJournals
  stamp := v.stamp
  lower := S.lower
  reviewResultErrors := S.reviewResultErrors
  isAncestor := S.isAncestor
  repositoryIdentity := S.repositoryIdentity
  identitiesFor := fun task transition =>
    if v.projectJournals.isSome then v.resolveIdentities task transition else []

/-- What the scheduler reads it from: its own journals, or those below the
project root. -/
def schedulerStores (S : Scheduler) (v : RuntimeView) (project : ProjectId) :
    DependencyStores :=
  { S.managerStores v project with
    jobs := some v.jobs
    journals := v.journals <|> v.projectJournals }

/-- `TaskManager.create_execution_job`: the record of a new job, or why
there is none. -/
def createExecutionJob (S : Scheduler) (v : RuntimeView) (project : ProjectId)
    (taskId : TaskId) (transitionId : String) : Except (List DomainError) ExecutionJob :=
  match v.snapshot with
  | .error errors => .error errors
  | .ok snapshot =>
  match snapshot.task? taskId with
  | none => .error [⟨"task.not_found", s!"Task {taskId} was not found.", some taskId⟩]
  | some task =>
  if task.body.duplicateHeadingNames ≠ [] then
    .error (task.body.duplicateHeadingNames.map fun name => ⟨"task.duplicate_heading",
      s!"Duplicate task section heading ## {name}; section headings must appear exactly once.",
      some task.id⟩)
  else match S.workflow.transitions.get transitionId with
  | none => .error [⟨"transition.not_found",
      s!"Transition {transitionId} is not defined.", some transitionId⟩]
  | some transition =>
  if transition.taskType ≠ task.taskType then
    .error [⟨"transition.task_type_mismatch",
      s!"Transition {transition.id} expects task type {transition.taskType}.", some task.id⟩]
  else if transition.fromState ≠ task.currentState then
    .error [⟨"transition.state_mismatch",
      s!"Transition {transition.id} requires state {transition.fromState}.", some task.id⟩]
  else match transition.worker with
  | none => .error [⟨"transition.worker_missing",
      s!"Transition {transition.id} has no worker.", some transition.id⟩]
  | some worker =>
  match dependencyError S.workflow (S.managerStores v project) snapshot task with
  | some e => .error [e]
  | none =>
      (S.prepareJob task transition).map fun (jobId, metadata) =>
        { jobId := jobId
          projectId := project
          taskId := taskId
          transitionId := transitionId
          workerId := worker
          metadata := metadata }

/-- `_create_job`: the record is written when the manager makes one. The
job in the store, and the answer. -/
def createJob (S : Scheduler) (v : RuntimeView) (project : ProjectId)
    (taskId : TaskId) (transitionId : String) :
    Option ExecutionJob × Except (List DomainError) ExecutionJob :=
  match S.createExecutionJob v project taskId transitionId with
  | .error errors => (none, .error errors)
  | .ok job =>
      let written := S.writeJob job
      (if written.stored then some job else none, written.answer.map fun _ => job)

-- ========================================================== scheduling

/-- `_find_failed_jobs`. -/
def failedJobs (S : Scheduler) (v : RuntimeView) (jobs : List ExecutionJob) :
    List ExecutionJob :=
  jobs.filter fun j => j.status = .failed &&
    match S.runtimeSessionStartedAt with
    | none => true
    | some since => (v.stamp j).any (since ≤ ·)

/-- `_find_recent_failed_job` finds one. -/
def recentlyFailed (S : Scheduler) (v : RuntimeView) (jobs : List ExecutionJob) : Bool :=
  jobs.any fun j => j.status = .failed &&
    j.metadata.failureReason ≠ some "worker_unexpected_exit" &&
    (v.stamp j).any fun at_ =>
      v.now ≤ at_ + S.failedJobBackoffSeconds &&
        S.runtimeSessionStartedAt.all (· ≤ at_)

/-- Why a task gets no job of a transition now, from the jobs it has had. -/
def attemptGate (S : Scheduler) (v : RuntimeView) (A : Account) (project : ProjectId)
    (task : Task) (transition : WorkflowTransition) (jobs : List ExecutionJob) :
    Option DomainError :=
  let revision := taskSemanticRevision S.lower task
    (if v.projectJournals.isSome then v.resolveIdentities task transition else [])
  let own := jobsOf project task.id transition.id jobs
  match A.retryBlockedByCause task transition revision with
  | some e => some e
  | none =>
  match A.totalAttemptExhausted task transition revision with
  | some e => some e
  | none =>
      if 0 < S.maxFailedAttempts ∧ S.maxFailedAttempts ≤ (S.failedJobs v own).length then
        some ⟨"job.retry_limit_reached",
          s!"Task {task.id} failed transition {transition.id} {(S.failedJobs v own).length} time(s); retry limit {S.maxFailedAttempts} reached.",
          some task.id⟩
      else if S.recentlyFailed v own then
        some ⟨"job.recent_failure",
          s!"Task {task.id} recently failed transition {transition.id}; waiting {S.failedJobBackoffSeconds}s before retry.",
          some task.id⟩
      else none

/-- The loop of `_schedule_one_locked` over the tasks. -/
def scheduleFrom (S : Scheduler) (v : RuntimeView) (A : Account) (project : ProjectId)
    (snapshot : PlacedSnapshot) (skipped : List DomainError) : List Task → ScheduleResult
  | [] => { skipped := skipped }
  | task :: rest =>
      let skip := fun e => S.scheduleFrom v A project snapshot (skipped ++ [e]) rest
      match dependencyError S.workflow (S.schedulerStores v project) snapshot task with
      | some e => skip e
      | none =>
      match selectSchedulerTransition task S.workflow with
      | .error e => skip e
      | .ok transition =>
      match v.jobs with
      | .error e => { errors := [e], skipped := skipped }
      | .ok jobs =>
          let active := (jobsOf project task.id transition.id jobs).filter (·.status.active)
          if active ≠ [] then
            match repairReadyJob v.stamp active with
            | some job => { scheduled := true, job := some job, taskId := some job.taskId
                            skipped := skipped }
            | none => skip ⟨"job.active_exists",
                s!"Task {task.id} already has an active job for transition {transition.id}.",
                some task.id⟩
          else match S.attemptGate v A project task transition jobs with
          | some e => skip e
          | none =>
              let resources := S.workerResources (transition.worker.getD "")
              if resources ≠ [] ∧ S.leases.any (fun room => !room resources) then
                skip ⟨"resource.busy",
                  s!"Task {task.id} requires busy resources: " ++ ", ".intercalate resources ++ ".",
                  some task.id⟩
              else
                let (created, answer) := S.createJob v project task.id transition.id
                match answer with
                | .error errors => { taskId := some task.id, errors := errors
                                     skipped := skipped, created := created }
                | .ok job => { scheduled := true, job := some job, taskId := some task.id
                               skipped := skipped, created := created }

/-- `_schedule_one_locked`. -/
def scheduleOne (S : Scheduler) (v : RuntimeView) (A : Account) (project : ProjectId) :
    ScheduleResult :=
  match v.snapshot with
  | .error errors => { errors := errors }
  | .ok snapshot =>
      if S.serialRepoExecution then
        match S.serialRepoLaneFocus v project snapshot with
        | .error e => { errors := [e] }
        | .ok none => S.scheduleFrom v A project snapshot [] snapshot.tasksInBoardOrder
        | .ok (some focus) =>
            if focus.activeJobs ≠ [] then
              match repairReadyJob v.stamp focus.activeJobs with
              | some job => { scheduled := true, job := some job, taskId := some job.taskId }
              | none => { taskId := some focus.task.id, skipped := [
                  ⟨"repo_lane.active_job_exists",
                    s!"Repo lane is held by task {focus.task.id}; active job " ++
                      (focus.activeJobs.map (·.jobId)).headD "" ++ " is still running.",
                    some focus.task.id⟩] }
            else S.scheduleFrom v A project snapshot [] [focus.task]
      else S.scheduleFrom v A project snapshot [] snapshot.tasksInBoardOrder

end Scheduler

end OpenTulid
