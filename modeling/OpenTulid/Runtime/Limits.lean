/-
The limits of worker attempts: the configuration, and where they are looked
at.

# The configuration

A total limit that is not set is derived when the configuration is made.
The scheduler, the executor and the recovery policy that is shown each derive
one again, each in its own way, where they are given none.

# The account

The scheduler looks at the account of a task's transition before it makes a
job, at the revision it computes; the executor looks at it before it starts
a worker, at the revision that the job was frozen with.
-/
import OpenTulid.Runtime.Executor

namespace OpenTulid

-- ========================================================= configuration

/-- The limits of a runtime configuration. -/
structure RuntimeConfig where
  maxTotalAttemptsPerTransition : Nat
  maxFailedAttemptsPerTransition : Nat
  maxRepairAttempts : Nat
  deriving DecidableEq

/-- `RuntimeConfig(…)`, with its `__post_init__`. -/
def RuntimeConfig.init (total failed repair : Nat) : RuntimeConfig where
  maxTotalAttemptsPerTransition :=
    if total = 0 then max 3 (max failed (repair + 1)) else total
  maxFailedAttemptsPerTransition := failed
  maxRepairAttempts := repair

/-- The limits of the `runtime` table of a configuration file. -/
def loadRuntimeConfig (total failed repair : Nat) : Except String RuntimeConfig :=
  let total := if total = 0 then max 3 (max failed (repair + 1)) else total
  if 0 < total ∧ 0 < failed ∧ total < failed then
    .error s!"runtime.max_total_attempts_per_transition ({total}) is smaller than runtime.max_failed_attempts_per_transition ({failed}); a total budget must be large enough to admit the configured failed-attempt sublimit."
  else .ok (RuntimeConfig.init total failed repair)

/-- The retry policy as it is shown. -/
structure RecoveryPolicy where
  totalAttempts : Nat
  failedAttemptsSub : Nat
  repairSub : Nat
  deriving DecidableEq

/-- `resolve_recovery_policy`. -/
def resolveRecoveryPolicy (maxTotal maxFailed maxRepair : Nat) : RecoveryPolicy where
  totalAttempts := if maxTotal = 0 then max 3 (max maxFailed (maxRepair + 1)) else maxTotal
  failedAttemptsSub := maxFailed
  repairSub := maxRepair

/-- The total limit that `Scheduler.__init__` keeps. -/
def schedulerTotalLimit (maxTotal maxFailed : Nat) : Nat :=
  if maxTotal = 0 then max 3 maxFailed else maxTotal

/-- `JobExecutor.total_attempt_limit`. -/
def executorTotalLimit (maxTotal : Nat) : Nat := if maxTotal = 0 then 3 else maxTotal

namespace RuntimeConfig

variable (config : RuntimeConfig)

/-- `_print_recovery_policy`. -/
def recoveryPolicy : RecoveryPolicy :=
  resolveRecoveryPolicy config.maxTotalAttemptsPerTransition
    config.maxFailedAttemptsPerTransition config.maxRepairAttempts

/-- The limit of the scheduler that is made for the configuration. -/
def schedulerLimit : Nat :=
  schedulerTotalLimit config.maxTotalAttemptsPerTransition config.maxFailedAttemptsPerTransition

/-- The limit of the executor that is made for the configuration. -/
def executorLimit : Nat := executorTotalLimit config.maxTotalAttemptsPerTransition

end RuntimeConfig

-- =============================================================== the account

section Account

variable (E : Env)

/-- `_total_attempt_exhausted`. -/
def totalAttemptExhausted (lower : String → String) (project : ProjectId)
    (listed : Except DomainError (List ExecutionJob)) (taskId : TaskId) (transitionId : String)
    (revision : TaskRevision) (totalLimit : Nat) : Option DomainError :=
  if totalLimit = 0 then none
  else match listed with
  | .error _ => some ⟨"job.attempt_history_unreadable", "Cannot read durable attempt history.",
      some taskId⟩
  | .ok jobs =>
      match countConsumedAttempts E lower project ⟨taskId, transitionId, revision⟩ jobs with
      | .error e => some ⟨"job.attempt_history_unreadable", e.text, some taskId⟩
      | .ok consumed =>
          if consumed < totalLimit then none
          else some ⟨"job.total_attempt_limit_reached",
            s!"Task {taskId} has consumed {consumed} worker attempt(s) for transition {transitionId}; total account {totalLimit} reached.",
            some taskId⟩

/-- What `_repair_within_total_account` makes of the jobs listed. -/
def JobExecutor.withinTotalAccount (X : JobExecutor) (work : Work)
    (listed : Except DomainError (List ExecutionJob)) : Except Raised Bool :=
  if X.totalAttemptLimit = 0 then .ok true
  else match listed with
  | .error _ =>
      .error ⟨"Cannot read durable attempt history; refusing to renew the account."⟩
  | .ok jobs => (countConsumedAttempts E X.lower X.project work jobs).map
      (· < X.totalAttemptLimit)

end Account

end OpenTulid
