/-
Restarts: what the runtime does about jobs whose executor is gone, and the
scheduler's call as a process on the shared world.

A restart fails every job that was pending, running or in completion and
settles its attempts. The records it settles are those of one read of the
job; each is written back by a call of its own.
-/
import OpenTulid.Runtime.Executor
import OpenTulid.Runtime.Scheduler

namespace OpenTulid

/-- An attempt that has not ended. -/
def AttemptStatus.incomplete : AttemptStatus → Bool
  | .admitted => true
  | .running => true
  | .ended => false

/-- Attempts written back as ended, one after the other. -/
def endAttempts (p : ProjectId) (jobId failureReference : JobId) :
    List AttemptRecord → Proc Unit
  | [] => return ()
  | r :: rest => do
      let _ ← perform (.recordAttempt p jobId { r with
        status := .ended, failureReference := some failureReference })
      endAttempts p jobId failureReference rest

/-- `settle_interrupted_attempts`. -/
def settleInterruptedAttempts (p : ProjectId) (jobId failureReference : JobId) :
    Proc Unit := do
  match ← perform (.getJob p jobId) with
  | .error _ => return ()
  | .ok job =>
      endAttempts p jobId failureReference
        (job.metadata.attemptRecords.filter (·.status.incomplete))

/-- The statuses of a job that a restart finds orphaned. -/
def ExecutionJobStatus.orphanable : ExecutionJobStatus → Bool
  | .pending => true
  | .running => true
  | .completionSubmitted => true
  | .completionRejected => true
  | _ => false

/-- What a restart does about one job; one whose status cannot be written is
left alone. -/
def reconcileJob (p : ProjectId) (ulid : JobId → String) (job : ExecutionJob) :
    Proc Unit := do
  if job.status.orphanable then
    match ← perform (.updateStatus p .reconciled none job.jobId .failed {} false) with
    | .error _ => return ()
    | .ok _ => do
        settleInterruptedAttempts p job.jobId job.jobId
        releaseJob job.jobId
        let _ ← perform (.appendEvent p {
          eventId := ulid job.jobId
          eventType := "ExecutionFailed"
          taskId := some job.taskId
          jobId := some job.jobId
          transitionId := some job.transitionId })
        return ()
  else return ()

/-- The loop of `_reconcile_active_runtime_jobs`. -/
def reconcileJobs (p : ProjectId) (ulid : JobId → String) :
    List ExecutionJob → Proc Unit
  | [] => return ()
  | job :: rest => do
      reconcileJob p ulid job
      reconcileJobs p ulid rest

/-- `_reconcile_active_runtime_jobs`. -/
def reconcileActiveRuntimeJobs (p : ProjectId)
    (ulid : JobId → String) : Proc Unit := do
  match ← perform (.listJobs p) with
  | .error _ => return ()
  | .ok jobs => reconcileJobs p ulid jobs

/-- `schedule_one`: what the call decides on, it creates in the job store;
`writeJob` only says that it is to be created. -/
def scheduleOneLocked (S : Scheduler) (view : Data → RuntimeView) (A : Data → Account)
    (p : ProjectId) : Proc Unit :=
  withLock .scheduler do
    let d ← perform .look
    match (S.scheduleOne (view d) (A d) p).created with
    | none => return ()
    | some job =>
        let _ ← perform (.createJob p job)
        return ()

end OpenTulid
