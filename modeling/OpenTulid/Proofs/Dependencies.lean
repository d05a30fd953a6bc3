/-
Dependents are released only on committed evidence.

# Why every route is covered

A job enters the store through `createExecutionJob` alone, whose own
dependency check reads the project again: whatever the scheduler's loop or
its lane focus chose, each dependency of the task has passed
`oneDependencyError` on the manager's stores. The repair jobs a call answers
are not created by it.

The evidence of a dependency is read off once (`acceptedTaskEvidence_spec`),
then carried through the check of one dependency, of all dependencies, and of
the loop over the tasks.
-/
import OpenTulid.Runtime.Scheduler

namespace OpenTulid

-- ============================================================= evidence

/-- A job's acceptance of a task: the committed journal of its own
transition, at the task's revision and state. -/
structure AcceptedBy (lower : String → String) (w : WorkflowDefinition)
    (journals : JournalStore) (identities : List SourceIdentity) (task : Task)
    (job : ExecutionJob) : Prop where
  status : job.status = .accepted
  journal : ∃ acceptance journal, job.metadata.acceptance = some acceptance ∧
    journals.load acceptance.acceptanceTransactionId = some journal ∧
    journal.status = .committed ∧ journal.taskId = some task.id ∧
    journal.projectId = job.projectId ∧ journal.transitionId = some job.transitionId ∧
    journal.context.jobId = some job.jobId ∧
    journal.taskRevision = some (taskSemanticRevision lower task identities) ∧
    journal.expectedToState = some task.currentState

/-- Evidence against a task's own state is an acceptance of it. -/
theorem acceptedTaskEvidence_spec {G : EvidenceContext} {journals : JournalStore}
    {job : ExecutionJob} {task : Task} {identities : List SourceIdentity}
    (hjournals : G.journals = some journals)
    (h : G.acceptedTaskEvidence job task identities none = true) :
    AcceptedBy G.lower G.workflow journals identities task job ∧
      ∃ transition, G.workflow.transitions.get job.transitionId = some transition ∧
        transition.taskType = task.taskType := by
  unfold EvidenceContext.acceptedTaskEvidence at h
  split at h
  next => cases h
  next hstatus =>
    split at h
    next => cases h
    next transition htransition =>
      split at h
      next => cases h
      next htype =>
        split at h
        next acceptance store hacceptance hstore =>
          obtain rfl : journals = store := Option.some.inj (hjournals.symm.trans hstore)
          split at h
          next => cases h
          next journal hload =>
            split at h
            next => cases h
            next hidentity =>
              split at h
              next => cases h
              next hrevision =>
                split at h
                next => cases h
                next =>
                  simp only [SuccessfulCompletionCriteria.succeeded, Bool.and_eq_true,
                    decide_eq_true_eq, Option.getD_none] at h
                  obtain ⟨⟨⟨-, hcommitted⟩, -⟩, hstate⟩ := h
                  simp only [ne_eq, not_or, not_not] at hidentity hrevision
                  obtain ⟨htask, hproject, hown⟩ := hidentity
                  obtain ⟨hrev, hjob⟩ := hrevision
                  refine ⟨⟨not_not.mp hstatus, acceptance, journal, hacceptance, hload,
                    hcommitted, htask, hproject, hown, hjob, hrev, hstate⟩,
                    transition, htransition, not_not.mp htype⟩
        next => cases h

-- ============================================================= release

/-- A dependency is released: it exists, ended in a declared success, and an
accepted job of its project is evidence of the state it is in. -/
def Released (w : WorkflowDefinition) (R : DependencyStores) (journals : JournalStore)
    (project : ProjectId) (snapshot : PlacedSnapshot) (id : TaskId) : Prop :=
  ∃ dependency, snapshot.task? id = some dependency ∧
    w.hasOutgoingTransition dependency.taskType dependency.currentState = false ∧
    w.terminalOutcomeOf dependency.currentState = some .success ∧
    ∃ jobs job transition, R.jobs = some (.ok jobs) ∧ job ∈ jobs ∧
      job.projectId = project ∧ job.taskId = dependency.id ∧
      w.transitions.get job.transitionId = some transition ∧
      AcceptedBy R.lower w journals (R.identitiesFor dependency transition) dependency job

theorem latestJob_mem {stamp : ExecutionJob → Option Nat} {jobs : List ExecutionJob} :
    ∀ {job}, latestJob stamp jobs = some job → job ∈ jobs := by
  induction jobs with
  | nil => intro job h; cases h
  | cons head rest ih =>
      intro job h
      rw [latestJob] at h
      split at h
      next =>
        obtain rfl := Option.some.inj h
        exact List.mem_cons_self
      next other hother =>
        split at h
        next =>
          obtain rfl := Option.some.inj h
          exact List.mem_cons_of_mem _ (ih hother)
        next =>
          obtain rfl := Option.some.inj h
          exact List.mem_cons_self

/-- A dependency the workflow calls a success has no transition left. -/
theorem dependencyOutcome_success {w : WorkflowDefinition} {taskType state : String}
    (h : w.dependencyOutcome taskType state = .declared .success) :
    w.hasOutgoingTransition taskType state = false ∧
      w.terminalOutcomeOf state = some .success := by
  unfold WorkflowDefinition.dependencyOutcome at h
  split at h
  next => cases h
  next hout =>
    split at h
    next => cases h
    next outcome houtcome =>
      have hsuccess : outcome = .success := DependencyOutcome.declared.inj h
      exact ⟨by simpa using hout, hsuccess ▸ houtcome⟩

/-- A dependency without an error is released. -/
theorem released_of_oneDependencyError {w : WorkflowDefinition} {R : DependencyStores}
    {snapshot : PlacedSnapshot} {task : Task} {id : TaskId}
    (h : oneDependencyError w R snapshot task id = none) :
    ∃ project journals, R.project = some project ∧ R.journals = some journals ∧
      Released w R journals project snapshot id := by
  unfold oneDependencyError at h
  split at h
  next => cases h
  next dependency hdependency =>
    split at h
    next => cases h
    next => cases h
    next => cases h
    next => cases h
    next houtcome =>
      split at h
      next listed project journals hjobs hproject hjournals =>
        split at h
        next => cases h
        next recorded hrecorded =>
          obtain ⟨hout, hsuccess⟩ := dependencyOutcome_success houtcome
          refine ⟨project, journals, hproject, hjournals, dependency, hdependency, hout,
            hsuccess, ?_⟩
          unfold dependencyAcceptedRepoIdentity at hrecorded
          split at hrecorded
          next jobs hok =>
            obtain ⟨job, hlatest, -⟩ := Option.map_eq_some_iff.mp hrecorded
            obtain ⟨hmem, hevidence⟩ := List.mem_filter.mp (latestJob_mem hlatest)
            obtain ⟨hin, hjob⟩ := List.mem_filter.mp hmem
            simp only [Bool.and_eq_true, decide_eq_true_eq] at hjob
            obtain ⟨haccepted, transition, htransition, -⟩ :=
              acceptedTaskEvidence_spec rfl hevidence
            dsimp only at htransition haccepted
            rw [htransition] at haccepted
            exact ⟨jobs, job, transition, hok, hin, hjob.1.1, hjob.1.2, htransition, haccepted⟩
          next => cases hrecorded
      next => cases h

/-- A task without a dependency error has all its dependencies released. -/
theorem released_of_dependencyError {w : WorkflowDefinition} {R : DependencyStores}
    {snapshot : PlacedSnapshot} {task : Task}
    (h : dependencyError w R snapshot task = none) :
    ∀ id ∈ task.dependencies, ∃ project journals, R.project = some project ∧
      R.journals = some journals ∧ Released w R journals project snapshot id := by
  intro id hid
  have hnone := List.findSome?_eq_none_iff.mp h id hid
  exact released_of_oneDependencyError hnone

-- ============================================================ job creation

/-- The task of a job has all its dependencies released by the journals of
the project. -/
def ReleasedFor (S : Scheduler) (v : RuntimeView) (project : ProjectId)
    (job : ExecutionJob) : Prop :=
  job.projectId = project ∧
  ∃ snapshot task, v.snapshot = .ok snapshot ∧ snapshot.task? job.taskId = some task ∧
    ∀ id ∈ task.dependencies, ∃ journals, v.projectJournals = some journals ∧
      Released S.workflow (S.managerStores v project) journals project snapshot id

/-- The manager makes jobs of tasks without a dependency error, with the
metadata prepared. -/
theorem createExecutionJob_eq_ok {S : Scheduler} {v : RuntimeView} {project : ProjectId}
    {taskId : TaskId} {transitionId : String} {job : ExecutionJob}
    (h : S.createExecutionJob v project taskId transitionId = .ok job) :
    ∃ snapshot task transition worker id metadata, v.snapshot = .ok snapshot ∧
      snapshot.task? taskId = some task ∧
      dependencyError S.workflow (S.managerStores v project) snapshot task = none ∧
      S.prepareJob task transition = .ok (id, metadata) ∧
      job = { jobId := id, projectId := project, taskId := taskId
              transitionId := transitionId, workerId := worker, metadata := metadata } := by
  unfold Scheduler.createExecutionJob at h
  split at h
  next => cases h
  next snapshot hsnapshot =>
    split at h
    next => cases h
    next task htask =>
      split at h
      next => cases h
      next =>
        split at h
        next => cases h
        next transition _ =>
          split at h
          next => cases h
          next =>
            split at h
            next => cases h
            next =>
              split at h
              next => cases h
              next worker _ =>
                split at h
                next => cases h
                next hdependencies =>
                  cases hprepare : S.prepareJob task transition with
                  | error e => rw [hprepare] at h; cases h
                  | ok prepared =>
                      rw [hprepare] at h
                      obtain rfl := Except.ok.inj h
                      exact ⟨snapshot, task, transition, worker, _, _, hsnapshot, htask,
                        hdependencies, hprepare, rfl⟩

/-- The manager makes jobs of released tasks only. -/
theorem createExecutionJob_released {S : Scheduler} {v : RuntimeView} {project : ProjectId}
    {taskId : TaskId} {transitionId : String} {job : ExecutionJob}
    (h : S.createExecutionJob v project taskId transitionId = .ok job) :
    ReleasedFor S v project job := by
  obtain ⟨snapshot, task, -, -, -, -, hsnapshot, htask, hdependencies, -, rfl⟩ :=
    createExecutionJob_eq_ok h
  refine ⟨rfl, snapshot, task, hsnapshot, htask, fun id hid => ?_⟩
  obtain ⟨project', journals, hproject, hjournals, hreleased⟩ :=
    released_of_dependencyError hdependencies id hid
  obtain rfl : project = project' := Option.some.inj hproject
  exact ⟨journals, hjournals, hreleased⟩

/-- What a creation has stored was made by the manager. -/
theorem createJob_created {S : Scheduler} {v : RuntimeView} {project : ProjectId}
    {taskId : TaskId} {transitionId : String} {job : ExecutionJob}
    (h : (S.createJob v project taskId transitionId).1 = some job) :
    S.createExecutionJob v project taskId transitionId = .ok job := by
  unfold Scheduler.createJob at h
  split at h
  next => cases h
  next made hmade =>
    dsimp only at h
    split at h
    next =>
      obtain rfl := Option.some.inj h
      exact hmade
    next => cases h

/-- What the loop over the tasks has created the manager has made, from any
task on. -/
theorem scheduleFrom_created {S : Scheduler} {v : RuntimeView} {A : Account}
    {project : ProjectId} {snapshot : PlacedSnapshot} (tasks : List Task) :
    ∀ {skipped : List DomainError} {job : ExecutionJob},
      (S.scheduleFrom v A project snapshot skipped tasks).created = some job →
        ∃ taskId transitionId,
          S.createExecutionJob v project taskId transitionId = .ok job := by
  induction tasks with
  | nil => intro skipped job h; cases h
  | cons task rest ih =>
      intro skipped job h
      rw [Scheduler.scheduleFrom] at h
      dsimp only at h
      split at h
      next => exact ih h
      next =>
        split at h
        next => exact ih h
        next transition _ =>
          split at h
          next => cases h
          next jobs _ =>
            split at h
            next =>
              split at h
              next => cases h
              next => exact ih h
            next =>
              split at h
              next => exact ih h
              next =>
                split at h
                next => exact ih h
                next =>
                  split at h
                  next => exact ⟨_, _, createJob_created h⟩
                  next => exact ⟨_, _, createJob_created h⟩

/-- What a scheduling call has created the manager has made. -/
theorem scheduleOne_created {S : Scheduler} {v : RuntimeView} {A : Account}
    {project : ProjectId} {job : ExecutionJob}
    (h : (S.scheduleOne v A project).created = some job) :
    ∃ taskId transitionId, S.createExecutionJob v project taskId transitionId = .ok job := by
  unfold Scheduler.scheduleOne at h
  split at h
  next => cases h
  next snapshot _ =>
    split at h
    next =>
      split at h
      next => cases h
      next => exact scheduleFrom_created _ h
      next focus _ =>
        split at h
        next =>
          split at h
          next => cases h
          next => cases h
        next => exact scheduleFrom_created _ h
    next => exact scheduleFrom_created _ h

/-- Dependents are released only on committed evidence: of every job that a
scheduling call stores, through the lane focus or not, and of every job the
manager makes, each dependency exists, has ended in a declared success, and
has an accepted job with a committed journal at its revision and state. -/
theorem jobs_released (S : Scheduler) (v : RuntimeView) (A : Account)
    (project : ProjectId) (job : ExecutionJob)
    (h : (S.scheduleOne v A project).created = some job ∨
      ∃ taskId transitionId, S.createExecutionJob v project taskId transitionId = .ok job) :
    ReleasedFor S v project job := by
  rcases h with h | ⟨taskId, transitionId, h⟩
  · obtain ⟨taskId, transitionId, hmade⟩ := scheduleOne_created h
    exact createExecutionJob_released hmade
  · exact createExecutionJob_released h

-- ==================================================== a released dependent

/-- Work that is finished, and work that waits for it. -/
def twoStepWorkflow : WorkflowDefinition where
  states := Store.ofList [("Done", ⟨"Done", some .success⟩), ("Todo", ⟨"Todo", none⟩)]
  taskTypes := ["task"]
  transitions := Store.ofList [("work",
    { id := "work", taskType := "task", fromState := "Todo", toState := "Done"
      worker := some "w" })]

def finishedTask : Task := { id := "1", title := "First", currentState := "Done" }

def waitingTask : Task :=
  { id := "2", title := "Second", currentState := "Todo", dependencies := ["1"] }

/-- The accepted job of a task's transition. -/
def acceptedJob (id : JobId) (task : TaskId) : ExecutionJob :=
  { jobId := id, projectId := "p", taskId := task, transitionId := "work", workerId := "w"
    status := .accepted
    metadata := { acceptance := some { completedSubmissionId := "s"
                                       acceptanceTransactionId := id ++ "-s"
                                       repositoryIdentity := none } } }

/-- The journal of the finished task's acceptance. -/
def finishedJournal : AcceptanceJournal where
  journalId := "a-s"
  projectId := "p"
  taskId := some "1"
  transitionId := some "work"
  effects := []
  events := []
  status := .committed
  context := { jobId := some "a" }
  taskRevision := some (taskSemanticRevision String.toLower finishedTask [])
  verificationAccepted := true
  expectedToState := some "Done"

def finishedView : RuntimeView where
  snapshot := .ok { tasks := [finishedTask, waitingTask] }
  jobs := .ok [acceptedJob "a" "1", acceptedJob "b" "2"]
  stamp _ := none
  now := 0
  journals := none
  projectJournals := some
    { load := fun id => if id = "a-s" then some finishedJournal else none
      listIncomplete := some [] }
  resolveIdentities _ _ := []

/-- A scheduler that stores every job it makes. -/
def plainScheduler : Scheduler where
  workflow := twoStepWorkflow
  lower := String.toLower
  reviewResultErrors _ := []
  isAncestor := none
  repositoryIdentity := none
  workerResources _ := []
  prepareJob _ _ := .ok ("c", {})
  writeJob _ := { stored := true, answer := .ok () }

/-- An account without attempts. -/
def freshAccount : Account where
  retryBlockedByCause _ _ _ := none
  totalAttemptExhausted _ _ _ := none

/-- The lane focuses on the waiting task, which had a job accepted before,
and its next job is created on the evidence for the finished one. -/
theorem waiting_task_released : ReleasedFor plainScheduler finishedView "p"
    { jobId := "c", projectId := "p", taskId := "2", transitionId := "work"
      workerId := "w" } :=
  jobs_released plainScheduler finishedView freshAccount "p" _ (Or.inl (by decide +kernel))

end OpenTulid
