/-
The account of worker attempts: how many of a task's transition have been
admitted at a revision, over all jobs.

# Jobs without records

A job that was created before attempts were recorded counts for at least
one attempt as soon as it has left `pending`, whatever its revision.

# Frozen work

The records of a job whose frozen inputs have the revision asked for all
count, also those written under an older revision.
-/
import OpenTulid.Runtime.Revision

namespace OpenTulid

section account

variable (E : Env) (lower : String → String)

/-- `same_frozen_work`: the frozen inputs of a job have the revision. What
loading planning inputs raises is raised. -/
def sameFrozenWork (job : ExecutionJob) (revision : TaskRevision) : Except Raised Bool :=
  match E.loadPlanning job with
  | .error text => .error ⟨text⟩
  | .ok (some planning) =>
      .ok (taskSemanticRevision lower planning.sourceTask planning.sourceIdentities
        = revision)
  | .ok none =>
      match E.loadContract job with
      | .ok (some contract) =>
          .ok (taskSemanticRevision lower contract.sourceTask
            (sourceContentIdentities contract) = revision)
      | _ => .ok false

/-- What one job adds to the account of its task's transition. -/
def consumedBy (job : ExecutionJob) (revision : TaskRevision) : Except Raised Nat :=
  match sameFrozenWork E lower job revision with
  | .error e => .error e
  | .ok same =>
      let records := job.metadata.attemptRecords
      .ok (if records ≠ [] then
          records.countP fun r => r.taskRevision = revision || same
        else if job.status = .pending then 0
        else max 1 job.attempts)

/-- The jobs of the work's task and transition. -/
def Work.jobs (k : Work) (project : ProjectId) (jobs : List ExecutionJob) :
    List ExecutionJob :=
  jobs.filter fun j =>
    j.taskId = k.taskId && j.transitionId = k.transitionId && j.projectId = project

/-- `count_consumed_attempts`. -/
def countConsumedAttempts (project : ProjectId) (k : Work) (jobs : List ExecutionJob) :
    Except Raised Nat :=
  (k.jobs project jobs).foldlM
    (fun total job => (consumedBy E lower job k.revision).map (total + ·)) 0

end account

end OpenTulid
