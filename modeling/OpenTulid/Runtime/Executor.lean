/-
The executor: one job is run until its completion is accepted, it fails, or
its account of attempts is used up.

# Passes

`_run_claimed` starts over when a completion is rejected and may be
repaired. `runClaimed` takes what the outside answers each pass, one
`Pass` after the other: what preparing the run finds, what becomes of the
worker, what writing its logs raises. The completion endpoint of a pass
serves `submit` calls, which are processes of their own.

# Ways out

Everything after the leases lies in one `try` block. Its handler fails the
job whatever its status is by then; its `finally` settles the attempt and
releases the leases.

# The account

A pass reads the account of attempts of its work before it prepares
anything, and admits its attempt later. The number of the attempt comes
from a counter of the job that the write of the status `running` raises;
what that write answers is not looked at.
-/
import OpenTulid.Completion.Submit
import OpenTulid.Runtime.Attempts
import OpenTulid.Runtime.Resources

namespace OpenTulid

/-- The configuration of an executor. -/
structure JobExecutor where
  project : ProjectId
  resources : Resources := []
  /-- the resources a worker needs -/
  workerResources : String → List String := fun _ => []
  /-- `total_attempt_limit`, zero for no limit -/
  totalAttemptLimit : Nat := 3
  /-- `str.lower` -/
  lower : String → String := id

/-- What a worker's container answers. -/
structure WorkerResult where
  succeeded : Bool
  deriving DecidableEq, Repr

/-- What becomes of a worker. -/
structure WorkerRun where
  /-- the observer saw it gone while its run was in flight -/
  vanished : Bool := false
  /-- its result, if any, or what running it raises -/
  result : Except Raised (Option WorkerResult)
  /-- the reads of the job's status before the settlement deadline -/
  polls : Nat := 0
  /-- what stopping the endpoint raises -/
  stopRaises : Option Raised := none

/-- What the outside answers one pass. -/
structure Pass where
  /-- the identifiers generated for the pass -/
  ulid : Nat → String
  /-- endpoint, workspace and prompt: the error found, or what raises -/
  prepared : Except Raised (Option DomainError) := .ok none
  /-- capturing the baseline raises -/
  baselineRaises : Option Raised := none
  /-- the keys of the prompt written with the status, each set only once -/
  promptKeys : List (String × String) := []
  /-- building the request raises -/
  requestRaises : Option Raised := none
  /-- the verification image cannot be resolved -/
  imageUnavailable : Option DomainError := none
  worker : WorkerRun
  /-- writing the run's logs raises -/
  logsRaise : Option Raised := none
  /-- the workspace is there to keep the evidence in -/
  evidenceKept : Bool := true

/-- What running a job answers. -/
structure ExecutorRunResult where
  accepted : Bool
  errors : List DomainError := []
  deriving DecidableEq, Repr

/-- A step taken on a condition. -/
def onlyIf (c : Bool) (p : Proc Unit) : Proc Unit := if c then p else .ret ()

/-- What an external step may raise. -/
def mayRaise : Option Raised → Proc Unit
  | none => return ()
  | some e => .raise e

namespace JobExecutor

variable (X : JobExecutor)

/-- Append an event of the executor; a failing append is not reported. -/
def emit (a : Pass) (n : Nat) (type : String) (job : ExecutionJob) : Proc Unit := do
  let _ ← perform (.appendEvent X.project {
    eventId := a.ulid n
    eventType := type
    taskId := some job.taskId
    jobId := some job.jobId
    transitionId := some job.transitionId })
  return ()

/-- Write the job's status. -/
def setStatus (site : WriteSite) (basis : Option ExecutionJobStatus)
    (jobId : JobId) (status : ExecutionJobStatus) (patch : MetadataPatch)
    (incrementAttempts : Bool := false) : Proc (Except DomainError ExecutionJob) :=
  perform (.updateStatus X.project site basis jobId status patch incrementAttempts)

/-- `_fail_before_run`. -/
def failBeforeRun (a : Pass) (job : ExecutionJob) (error : DomainError) :
    Proc ExecutorRunResult := do
  let _ ← X.setStatus .failedBeforeRun none job.jobId .failed
    { failureReason := some error.code }
  X.emit a 0 "ExecutionFailed" job
  return { accepted := false, errors := [error] }

/-- The work of a job: its transition of its task as it was frozen, or as it
is when nothing was. -/
def workOf (job : ExecutionJob) (contract : Option ExecutionContract)
    (planning : Option PlanningInputs) (task : Task) : Work where
  taskId := job.taskId
  transitionId := job.transitionId
  revision := match contract, planning with
    | some contract, _ =>
        taskSemanticRevision X.lower contract.sourceTask (sourceContentIdentities contract)
    | none, some planning =>
        taskSemanticRevision X.lower planning.sourceTask planning.sourceIdentities
    | none, none => taskSemanticRevision X.lower task []

/-- `_repair_within_total_account`; a history that cannot be read raises. -/
def repairWithinTotalAccount (E : Env) (work : Work) : Proc Bool := do
  if X.totalAttemptLimit = 0 then return true
  else match ← perform (.listJobs X.project) with
  | .error _ =>
      .raise ⟨"Cannot read durable attempt history; refusing to renew the account."⟩
  | .ok jobs =>
      match countConsumedAttempts E X.lower X.project work jobs with
      | .error e => .raise e
      | .ok consumed => return consumed < X.totalAttemptLimit

/-- `_fail_at_total_attempt_bound`. -/
def failAtTotalAttemptBound (a : Pass) (job : ExecutionJob) : Proc Unit := do
  let _ ← X.setStatus .totalAttemptBound none job.jobId .failed
    { failureReason := some "total_attempt_limit_reached" }
  X.emit a 1 "ExecutionFailed" job

/-- `attempt_id_for`. -/
def attemptIdFor (jobId : JobId) (number : Nat) : String := s!"{jobId}@{number}"

/-- The record of the next attempt of a job. -/
def admission (job : ExecutionJob) (work : Work) : AttemptRecord where
  attemptId := attemptIdFor job.jobId (job.attempts + 1)
  attemptNumber := job.attempts + 1
  taskRevision := work.revision
  status := .admitted

/-- `_admit_attempt`: the record is durable before the worker starts. -/
def admitAttempt (a : Pass) (job : ExecutionJob) (work : Work) : Proc String := do
  mayRaise a.baselineRaises
  match ← perform (.recordAttempt X.project job.jobId (admission job work)) with
  | .ok _ => return (admission job work).attemptId
  | .error e => .raise ⟨s!"Cannot admit attempt for job {job.jobId}: {e.message}"⟩

/-- `_update_attempt`. -/
def updateAttempt (jobId : JobId) (attemptId : String) (status : AttemptStatus)
    (failureReference : Option JobId) : Proc Unit := do
  match ← perform (.getJob X.project jobId) with
  | .error _ => return ()
  | .ok job =>
      match job.metadata.attemptRecords.find? fun r => r.attemptId = attemptId with
      | none => return ()
      | some r => do
          let _ ← perform (.recordAttempt X.project jobId { r with
            status := status
            failureReference := failureReference <|> r.failureReference })
          return ()

/-- The status of a job read, if it was. -/
def loadedStatus (loaded : Except DomainError ExecutionJob) :
    Option ExecutionJobStatus :=
  loaded.toOption.map (·.status)

/-- `_settle_attempt`. -/
def settleAttempt (jobId : JobId) (attemptId : String) : Proc Unit := do
  let status := loadedStatus (← perform (.getJob X.project jobId))
  X.updateAttempt jobId attemptId .ended
    (if status = some .failed then some jobId else none)

/-- `_preserve_failure_evidence`: the status read is written back. -/
def preserveFailureEvidence (a : Pass) (job : ExecutionJob) : Proc Unit := do
  if a.evidenceKept then
    match ← perform (.getJob X.project job.jobId) with
    | .error _ => return ()
    | .ok current => do
        let _ ← X.setStatus .failureEvidence (some current.status) job.jobId
          current.status {}
        return ()
  else return ()

/-- `_fail_worker`: a job that is settled, or whose completion is being
validated, is left alone. -/
def failWorker (a : Pass) (job : ExecutionJob) (reason : Option String) :
    Proc Unit := do
  match ← perform (.getJob X.project job.jobId) with
  | .error _ => return ()
  | .ok current =>
      if current.status.terminal ∨ current.status = .completionSubmitted then return ()
      else do
        let _ ← X.setStatus .workerFailed (some current.status) job.jobId .failed
          { failureReason := reason }
        X.emit a 2 "ExecutionFailed" job
        X.preserveFailureEvidence a job
        releaseJob job.jobId

/-- `_wait_for_completion_settlement`: the status is read until it is not
`completion_submitted` or the deadline has passed. -/
def waitForCompletionSettlement (jobId : JobId) : Nat → Proc Unit
  | 0 => return ()
  | n + 1 => do
      match ← perform (.getJob X.project jobId) with
      | .ok job =>
          if job.status = .completionSubmitted then
            waitForCompletionSettlement jobId n
          else return ()
      | .error _ => return ()

/-- `_run_worker_monitored`: a worker that vanishes is failed at once. -/
def runWorkerMonitored (a : Pass) (job : ExecutionJob) (work : Work) :
    Proc (Option WorkerResult) := do
  perform (.mark (.launches X.project job.jobId (job.attempts + 1) work))
  onlyIf a.worker.vanished (X.failWorker a job (some "worker_unexpected_exit"))
  match a.worker.result with
  | .error e => .raise e
  | .ok result => return result

/-- The worker's run, with the endpoint stopped on both ways out. -/
def superviseWorker (a : Pass) (job : ExecutionJob) (work : Work) :
    Proc (Option WorkerResult) :=
  Prog.ensure
    (do
      let result ← X.runWorkerMonitored a job work
      onlyIf (result.any (·.succeeded))
        (X.waitForCompletionSettlement job.jobId a.worker.polls)
      return result)
    (do mayRaise a.worker.stopRaises; return ⟨⟩)

/-- From the admitted attempt to the worker's result: either the answer of
the pass or the result to be looked at. -/
def runAttempt (a : Pass) (job : ExecutionJob) (work : Work) (attemptId : String)
    (repairMode contract : Bool) :
    Proc (Sum ExecutorRunResult (Option WorkerResult)) := do
  let _ ← X.setStatus .executionStarted none job.jobId .running
    (if repairMode then { frozen := a.promptKeys
                          repairReady := some false
                          repairAttempts := some (job.metadata.repairAttempts + 1) }
      else { frozen := a.promptKeys }) true
  X.emit a 3 "ExecutionStarted" job
  mayRaise a.requestRaises
  if contract then
    match a.imageUnavailable with
    | some error => return .inl (← X.failBeforeRun a job error)
    | none =>
        match ← X.setStatus .verificationEnvironment none job.jobId .running {} with
        | .error error => return .inl (← X.failBeforeRun a job error)
        | .ok _ =>
            X.updateAttempt job.jobId attemptId .running none
            return .inr (← X.superviseWorker a job work)
  else do
    X.updateAttempt job.jobId attemptId .running none
    return .inr (← X.superviseWorker a job work)

/-- What is done about a worker that has ended, by the job's status then;
`again` is the next pass. -/
def afterRun (E : Env) (a : Pass) (job : ExecutionJob) (work : Work)
    (again : Proc ExecutorRunResult) (result : WorkerResult) :
    Proc ExecutorRunResult := do
  mayRaise a.logsRaise
  let done : ExecutorRunResult := { accepted := true }
  match loadedStatus (← perform (.getJob X.project job.jobId)) with
  | some .accepted => return done
  | some .completionRejected => do
      let repaired ← perform (.getJob X.project job.jobId)
      if repaired.toOption.any (·.metadata.repairReady) then
        if ← X.repairWithinTotalAccount E work then again
        else do
          X.failAtTotalAttemptBound a job
          return done
      else return done
  | some .failed | some .stale | some .cancelled => do
      X.preserveFailureEvidence a job
      return done
  | _ => do
      X.failWorker a job
        (if result.succeeded then some "completion_not_accepted" else none)
      return done

/-- The handler of the `try` block. -/
def executorException (a : Pass) (job : ExecutionJob) (e : Raised) :
    Proc ExecutorRunResult := do
  let _ ← X.setStatus .executorException none job.jobId .failed
    { failureReason := some "executor_exception" }
  X.emit a 4 "ExecutionFailed" job
  return { accepted := false, errors := [⟨"executor.exception",
    s!"Execution job {job.jobId} failed unexpectedly: {e.text}", some job.jobId⟩] }

/-- The `try` block up to the admitted attempt. -/
def prepareAttempt (a : Pass) (job : ExecutionJob) (work : Work) :
    Proc (Sum ExecutorRunResult String) := do
  match ← ofExcept a.prepared with
  | some error => return .inl (← X.failBeforeRun a job error)
  | none => return .inr (← X.admitAttempt a job work)

/-- The `try` block from the admitted attempt on. -/
def execute (E : Env) (a : Pass) (job : ExecutionJob) (work : Work) (contract : Bool)
    (again : Proc ExecutorRunResult) (attemptId : String) :
    Proc ExecutorRunResult := do
  let repairMode := job.status = .completionRejected ∧ job.metadata.repairReady
  match ← X.runAttempt a job work attemptId repairMode contract with
  | .inl answer => return answer
  | .inr none => return { accepted := true }
  | .inr (some result) => X.afterRun E a job work again result

/-- The `try` block with its handler and its `finally`. -/
def attempt (E : Env) (a : Pass) (job : ExecutionJob) (work : Work)
    (contract leased : Bool) (again : Proc ExecutorRunResult) :
    Proc ExecutorRunResult := do
  let release : Proc PUnit := onlyIf leased (releaseJob job.jobId)
  match ← Prog.tryCatch (X.prepareAttempt a job work) fun e =>
      return .inl (← X.executorException a job e) with
  | .inl answer => do
      release
      return answer
  | .inr attemptId =>
      Prog.ensure
        (Prog.tryCatch (X.execute E a job work contract again attemptId)
          (X.executorException a job))
        (do X.settleAttempt job.jobId attemptId; release)

/-- The leases of a pass: the busy resources, or whether leases are held. -/
def acquireLeases (job : ExecutionJob) : Proc (Except (List String) Bool) := do
  let required := X.workerResources job.workerId
  if required = [] then return .ok false
  else if ← jobHolds required job.jobId then return .ok true
  else match ← tryAcquire X.resources required job.jobId job.workerId with
  | [] => return .ok true
  | busy => return .error busy

/-- One pass of `_run_claimed` on the job read; `again` is the next. -/
def runJob (E : Env) (a : Pass) (job : ExecutionJob)
    (again : Proc ExecutorRunResult) : Proc ExecutorRunResult := do
  if job.status.terminal then
    return { accepted := false, errors := [⟨"job.terminal",
      s!"Execution job {job.jobId} is terminal: {job.status.value}.", some job.jobId⟩] }
  else match E.loadContract job with
  | .error errors =>
      X.failBeforeRun a job
        (errors.head?.getD ⟨"contract.invalid", "", some job.jobId⟩)
  | .ok contract =>
  match E.loadPlanning job with
  | .error text =>
      X.failBeforeRun a job ⟨"prompt.frozen_invalid", text, some job.jobId⟩
  | .ok planning =>
  match (contract.map (·.transition)) <|> (planning.map (·.transition)) <|>
      E.transitions job.transitionId with
  | none => return { accepted := false, errors := [⟨"transition.not_found",
      "Transition was not found.", none⟩] }
  | some _ => do
      match ← read fun d => (d.projects X.project).tracker.readTask job.taskId with
      | .error errors => return { accepted := false, errors := errors }
      | .ok task =>
          let work := X.workOf job contract planning task
          match ← Prog.tryCatch
              (do return Except.ok (← X.repairWithinTotalAccount E work))
              (fun e => return Except.error e) with
          | .error (e : Raised) =>
              X.failBeforeRun a job
                ⟨"job.attempt_history_unreadable", e.text, some job.jobId⟩
          | .ok false => do
              X.failAtTotalAttemptBound a job
              return { accepted := false, errors := [⟨"job.total_attempt_limit_reached",
                "The durable attempt account is exhausted.", some job.jobId⟩] }
          | .ok true =>
              match ← X.acquireLeases job with
              | .error busy => return { accepted := false, errors := [⟨"resource.busy",
                  s!"Execution job {job.jobId} requires busy resources: "
                    ++ ", ".intercalate busy ++ ".", some job.jobId⟩] }
              | .ok leased => X.attempt E a job work contract.isSome leased again

/-- `_run_claimed`, for as many passes as the outside answers. -/
def runClaimed (E : Env) (jobId : JobId) : List Pass → Proc ExecutorRunResult
  | [] => return { accepted := false }
  | a :: passes => do
      match ← perform (.getJob X.project jobId) with
      | .error e => return { accepted := false, errors := [e] }
      | .ok job => X.runJob E a job (runClaimed E jobId passes)

/-- `JobExecutor.run`. One that finds another executor of the job at work does
nothing; it is one that never gets the lock. -/
def run (E : Env) (jobId : JobId) (passes : List Pass) : Proc ExecutorRunResult :=
  withLock (.execution X.project jobId) (X.runClaimed E jobId passes)

end JobExecutor

/-- `_set_job_status` of the command line, after its context is built: the
status is written whatever it was. -/
def setJobStatus (p : ProjectId) (ulid : String) (jobId : JobId)
    (status : ExecutionJobStatus) : Proc Unit := do
  match ← perform (.updateStatus p .setJobStatus none jobId status {} false) with
  | .error _ => .raise ⟨"exit 1"⟩
  | .ok job => do
      onlyIf status.terminal (releaseJob jobId)
      let _ ← perform (.appendEvent p {
        eventId := ulid
        eventType := if status = .failed then "ExecutionFailed"
          else "ExecutionJobStatusChanged"
        taskId := some job.taskId
        jobId := some jobId
        transitionId := some job.transitionId })
      return ()

end OpenTulid
