/-
One limit of worker attempts, and the accounts it is held against.

# The limit

A configuration always has a total limit: the three fall-backs for a missing
one are never reached, and the policy shown, the scheduler and the executor
have the same limit (`one_limit`).

# The account

The executor looks at the account again before it starts a worker. Nothing
has changed since the scheduler looked when both ask for the same revision;
a job that was frozen with another one may be failed at once, as its account
may be exhausted while that of the scheduler is empty
(`admitted_has_room_iff`).
-/
import OpenTulid.Runtime.Limits

namespace OpenTulid

-- ================================================================ the limit

namespace RuntimeConfig

/-- A configuration has a total limit. -/
theorem init_pos (total failed repair : Nat) :
    0 < (init total failed repair).maxTotalAttemptsPerTransition := by
  unfold init
  dsimp only
  split
  next => omega
  next hset => omega

/-- The limit that is shown, that of the scheduler and that of the executor
are the one of the configuration. -/
theorem one_limit (total failed repair : Nat) :
    (init total failed repair).recoveryPolicy.totalAttempts =
        (init total failed repair).maxTotalAttemptsPerTransition ∧
      (init total failed repair).schedulerLimit =
        (init total failed repair).maxTotalAttemptsPerTransition ∧
      (init total failed repair).executorLimit =
        (init total failed repair).maxTotalAttemptsPerTransition := by
  have hpos := init_pos total failed repair
  unfold recoveryPolicy resolveRecoveryPolicy schedulerLimit schedulerTotalLimit executorLimit
    executorTotalLimit
  have hset : (init total failed repair).maxTotalAttemptsPerTransition ≠ 0 := by omega
  simp only [hset, if_false, and_self]

/-- A configuration that is loaded is one that is made. -/
theorem load_eq_init {total failed repair : Nat} {config : RuntimeConfig}
    (h : loadRuntimeConfig total failed repair = .ok config) :
    config = init total failed repair := by
  unfold loadRuntimeConfig at h
  dsimp only at h
  split at h
  next hunset =>
    split at h
    next => cases h
    next =>
      cases h
      unfold init
      rw [if_pos hunset, if_neg (by omega)]
  next =>
    split at h
    next => cases h
    next =>
      cases h
      rfl

end RuntimeConfig

-- ============================================================== the account

section Account

variable {E : Env} {lower : String → String} {project : ProjectId} {work : Work}

/-- What a job that can be read adds to an account. -/
def amount (E : Env) (lower : String → String) (revision : TaskRevision) (job : ExecutionJob) :
    Nat :=
  ((consumedBy E lower job revision).toOption).getD 0

theorem foldlM_consumedBy {revision : TaskRevision} {jobs : List ExecutionJob} {start n : Nat} :
    jobs.foldlM (fun total job => (consumedBy E lower job revision).map (total + ·)) start =
        (.ok n : Except Raised Nat) ↔
      (∀ job ∈ jobs, ∃ m, consumedBy E lower job revision = .ok m) ∧
        n = start + (jobs.map (amount E lower revision)).sum := by
  induction jobs generalizing start with
  | nil =>
      simp only [List.foldlM_nil, List.map_nil, List.sum_nil, List.not_mem_nil, false_imp_iff,
        implies_true, true_and, Nat.add_zero]
      constructor
      · intro h
        cases h
        rfl
      · rintro rfl
        rfl
  | cons job rest ih =>
      rw [List.foldlM_cons]
      cases hjob : consumedBy E lower job revision with
      | error e =>
          constructor
          · intro h
            cases h
          · intro h
            obtain ⟨m, hm⟩ := h.1 job List.mem_cons_self
            rw [hjob] at hm
            cases hm
      | ok m =>
          have hamount : amount E lower revision job = m := by
            unfold amount
            rw [hjob]
            rfl
          show rest.foldlM _ (start + m) = _ ↔ _
          rw [ih, List.map_cons, List.sum_cons, hamount]
          simp only [List.mem_cons, forall_eq_or_imp, hjob, Except.ok.injEq, exists_eq',
            true_and, Nat.add_assoc]

/-- An account is the sum over the jobs of the work. -/
theorem countConsumedAttempts_eq_ok {jobs : List ExecutionJob} {n : Nat} :
    countConsumedAttempts E lower project work jobs = .ok n ↔
      (∀ job ∈ work.jobs project jobs, ∃ m, consumedBy E lower job work.revision = .ok m) ∧
        n = ((work.jobs project jobs).map (amount E lower work.revision)).sum := by
  unfold countConsumedAttempts
  rw [foldlM_consumedBy, Nat.zero_add]

/-- A job that adds nothing leaves the account as it is, wherever it is
listed. -/
theorem countConsumedAttempts_perm {job : ExecutionJob} {jobs after : List ExecutionJob} {n : Nat}
    (hcount : countConsumedAttempts E lower project work jobs = .ok n)
    (hjob : consumedBy E lower job work.revision = .ok 0) (hafter : after.Perm (job :: jobs)) :
    countConsumedAttempts E lower project work after = .ok n := by
  obtain ⟨hread, hsum⟩ := countConsumedAttempts_eq_ok.mp hcount
  have hperm : (work.jobs project after).Perm (work.jobs project (job :: jobs)) :=
    hafter.filter _
  have hamount : amount E lower work.revision job = 0 := by
    unfold amount
    rw [hjob]
    rfl
  have hsame : ((work.jobs project (job :: jobs)).map (amount E lower work.revision)).sum =
      ((work.jobs project jobs).map (amount E lower work.revision)).sum := by
    unfold Work.jobs
    rw [List.filter_cons]
    split
    next => rw [List.map_cons, List.sum_cons, hamount, Nat.zero_add]
    next => rfl
  refine countConsumedAttempts_eq_ok.mpr ⟨?_, ?_⟩
  · intro other hother
    have hmem := hperm.mem_iff.mp hother
    obtain ⟨hlisted, hof⟩ := List.mem_filter.mp hmem
    rcases List.mem_cons.mp hlisted with rfl | hlisted
    · exact ⟨0, hjob⟩
    · exact hread other (List.mem_filter.mpr ⟨hlisted, hof⟩)
  · rw [hsum, ← hsame]
    exact ((hperm.map _).sum_nat).symm

/-- What the executor does with the account is what it makes of the jobs
listed. -/
theorem repairWithinTotalAccount_eq (X : JobExecutor) (work : Work) :
    X.repairWithinTotalAccount E work =
      if X.totalAttemptLimit = 0 then return true
      else do
        match X.withinTotalAccount E work (← perform (.listJobs X.project)) with
        | .error e => .raise e
        | .ok within => return within := by
  unfold JobExecutor.repairWithinTotalAccount JobExecutor.withinTotalAccount
  split
  next => rfl
  next =>
    refine congrArg (perform (.listJobs X.project) >>= ·) (funext fun listed => ?_)
    cases listed with
    | error e => rfl
    | ok jobs =>
        dsimp only
        cases countConsumedAttempts E X.lower X.project work jobs with
        | error e => rfl
        | ok consumed => rfl

end Account

-- ============================================================ admitted jobs

section Admitted

variable (E : Env) (X : JobExecutor) (config : RuntimeConfig)

/-- The executor made for a configuration. -/
def JobExecutor.configured : JobExecutor := { X with totalAttemptLimit := config.executorLimit }

/-- The record of a job that was just made. -/
structure ExecutionJob.Fresh (job : ExecutionJob) : Prop where
  pending : job.status = .pending
  unrecorded : job.metadata.attemptRecords = []

/-- A job that the scheduler makes, its account not exhausted, is not over
budget for the executor, whatever jobs there are and wherever the new one is
listed among them. -/
def AdmittedHasRoom (job : ExecutionJob) (scheduled : TaskRevision) (work : Work) : Prop :=
  ∀ jobs after : List ExecutionJob, job.jobId ∉ jobs.map (·.jobId) → after.Perm (job :: jobs) →
    totalAttemptExhausted E X.lower X.project (.ok jobs) job.taskId job.transitionId scheduled
      config.schedulerLimit = none →
    (X.configured config).withinTotalAccount E work (.ok after) ≠ .ok false

variable {E X config}

/-- A job that was just made adds nothing to any account. -/
theorem consumedBy_fresh {job : ExecutionJob} (hfresh : job.Fresh)
    {contract : Option ExecutionContract} {planning : Option PlanningInputs}
    (hcontract : E.loadContract job = .ok contract)
    (hplanning : E.loadPlanning job = .ok planning) (revision : TaskRevision) :
    consumedBy E X.lower job revision = .ok 0 := by
  have hsame : ∃ same, sameFrozenWork E X.lower job revision = .ok same := by
    unfold sameFrozenWork
    rw [hplanning, hcontract]
    cases planning with
    | some planning => exact ⟨_, rfl⟩
    | none =>
        cases contract with
        | some contract => exact ⟨_, rfl⟩
        | none => exact ⟨_, rfl⟩
  obtain ⟨same, hsame⟩ := hsame
  unfold consumedBy
  rw [hsame]
  simp [hfresh.unrecorded, hfresh.pending]

/-- A job with the same revision has room. -/
theorem admittedHasRoom_of_same {job : ExecutionJob} {work : Work} (hfresh : job.Fresh)
    {contract : Option ExecutionContract} {planning : Option PlanningInputs}
    (hcontract : E.loadContract job = .ok contract)
    (hplanning : E.loadPlanning job = .ok planning)
    (hlimit : config.schedulerLimit = config.executorLimit) :
    AdmittedHasRoom E X config job work.revision
      { work with taskId := job.taskId, transitionId := job.transitionId } := by
  intro jobs after _ hafter hroom
  unfold totalAttemptExhausted at hroom
  unfold JobExecutor.withinTotalAccount JobExecutor.configured
  dsimp only
  rw [hlimit] at hroom
  split
  next => simp
  next hset =>
    rw [if_neg hset] at hroom
    dsimp only at hroom
    split at hroom
    next => cases hroom
    next consumed hcount =>
      split at hroom
      next hless =>
        have hsame := countConsumedAttempts_perm hcount
          (@consumedBy_fresh E X _ hfresh _ _ hcontract hplanning work.revision) hafter
        rw [hsame]
        simp [Except.map, hless]
      next => cases hroom

/-- A history of attempts that were recorded under a revision. -/
def history (X : JobExecutor) (job : ExecutionJob) (recorded : TaskRevision) (count : Nat) :
    ExecutionJob where
  jobId := job.jobId ++ "'"
  projectId := X.project
  taskId := job.taskId
  transitionId := job.transitionId
  workerId := job.workerId
  status := .cancelled
  attempts := count
  metadata := { attemptRecords := (List.range count).map fun n =>
    ⟨JobExecutor.attemptIdFor (job.jobId ++ "'") (n + 1), n + 1, recorded, .ended, none⟩ }

theorem consumedBy_history (hbare : ∀ job : ExecutionJob, job.metadata.frozen = [] →
      E.loadContract job = .ok none ∧ E.loadPlanning job = .ok none)
    {job : ExecutionJob} {recorded revision : TaskRevision} {count : Nat} (hcount : 0 < count) :
    consumedBy E X.lower (history X job recorded count) revision =
      .ok (if recorded = revision then count else 0) := by
  obtain ⟨hcontract, hplanning⟩ := hbare (history X job recorded count) rfl
  have hsame : sameFrozenWork E X.lower (history X job recorded count) revision =
      .ok false := by
    unfold sameFrozenWork
    rw [hplanning, hcontract]
  have hsome : (history X job recorded count).metadata.attemptRecords ≠ [] := by
    intro hnil
    have hlength := congrArg List.length hnil
    simp [history] at hlength
    omega
  unfold consumedBy
  rw [hsame]
  dsimp only
  rw [if_pos hsome]
  unfold history
  dsimp only
  rw [List.countP_map]
  split
  next heq => simp [Function.comp_def, heq]
  next hne => simp [Function.comp_def, hne]

/-- The account of a work in which the history is all there is. -/
theorem countConsumedAttempts_history (hbare : ∀ job : ExecutionJob, job.metadata.frozen = [] →
      E.loadContract job = .ok none ∧ E.loadPlanning job = .ok none)
    {job : ExecutionJob} {recorded revision : TaskRevision} {count : Nat} (hcount : 0 < count) :
    countConsumedAttempts E X.lower X.project ⟨job.taskId, job.transitionId, revision⟩
      [history X job recorded count] = .ok (if recorded = revision then count else 0) := by
  have hjobs : Work.jobs ⟨job.taskId, job.transitionId, revision⟩ X.project
      [history X job recorded count] = [history X job recorded count] := by
    simp [Work.jobs, history]
  have hone : consumedBy E X.lower (history X job recorded count) revision =
      .ok (if recorded = revision then count else 0) := consumedBy_history hbare hcount
  refine countConsumedAttempts_eq_ok.mpr ⟨?_, ?_⟩
  · intro other hother
    rw [hjobs, List.mem_singleton] at hother
    subst hother
    exact ⟨_, hone⟩
  · rw [hjobs]
    simp [amount, hone, Except.toOption]

/-- A job that was frozen with another revision may be over budget at once:
the attempts recorded under its revision do not count for the scheduler. -/
theorem same_of_admittedHasRoom (hbare : ∀ job : ExecutionJob, job.metadata.frozen = [] →
      E.loadContract job = .ok none ∧ E.loadPlanning job = .ok none)
    {job : ExecutionJob} (hfresh : job.Fresh)
    {contract : Option ExecutionContract} {planning : Option PlanningInputs}
    (hcontract : E.loadContract job = .ok contract)
    (hplanning : E.loadPlanning job = .ok planning)
    (hlimit : config.schedulerLimit = config.executorLimit) (hpos : 0 < config.executorLimit)
    {scheduled recorded : TaskRevision}
    (hroom : AdmittedHasRoom E X config job scheduled
      ⟨job.taskId, job.transitionId, recorded⟩) : recorded = scheduled := by
  by_contra hne
  have hset : config.executorLimit ≠ 0 := by omega
  have hnew : job.jobId ∉ [history X job recorded config.executorLimit].map (·.jobId) := by
    intro hmem
    have hsame : job.jobId = job.jobId ++ "'" := List.mem_singleton.mp hmem
    have hlength := congrArg (·.toList.length) hsame
    simp at hlength
  have hadmitted : totalAttemptExhausted E X.lower X.project
      (.ok [history X job recorded config.executorLimit]) job.taskId job.transitionId scheduled
      config.schedulerLimit = none := by
    unfold totalAttemptExhausted
    rw [hlimit, if_neg hset]
    dsimp only
    rw [countConsumedAttempts_history hbare hpos, if_neg hne]
    dsimp only
    rw [if_pos hpos]
  refine hroom _ _ hnew (List.Perm.refl _) hadmitted ?_
  have hcount := countConsumedAttempts_perm
    (@countConsumedAttempts_history E X hbare job recorded recorded _ hpos)
    (@consumedBy_fresh E X _ hfresh _ _ hcontract hplanning recorded)
    (List.Perm.refl (job :: [history X job recorded config.executorLimit]))
  unfold JobExecutor.withinTotalAccount JobExecutor.configured
  dsimp only
  rw [if_neg hset, hcount, if_pos rfl]
  simp [Except.map]

/-- For every configuration the limit shown, that of the scheduler and that
of the executor are equal; and no job that the scheduler makes is over budget
at once, whatever attempts there are, if and only if the job was frozen with
the revision the scheduler asked for. -/
theorem one_effective_limit_iff (hbare : ∀ job : ExecutionJob, job.metadata.frozen = [] →
      E.loadContract job = .ok none ∧ E.loadPlanning job = .ok none)
    {job : ExecutionJob} (hfresh : job.Fresh)
    {contract : Option ExecutionContract} {planning : Option PlanningInputs}
    (hcontract : E.loadContract job = .ok contract)
    (hplanning : E.loadPlanning job = .ok planning)
    (total failed repair : Nat) (task : Task) (scheduled : TaskRevision) :
    ((RuntimeConfig.init total failed repair).recoveryPolicy.totalAttempts =
          (RuntimeConfig.init total failed repair).schedulerLimit ∧
        (RuntimeConfig.init total failed repair).schedulerLimit =
          (RuntimeConfig.init total failed repair).executorLimit ∧
        AdmittedHasRoom E X (RuntimeConfig.init total failed repair) job scheduled
          (X.workOf job contract planning task)) ↔
      (X.workOf job contract planning task).revision = scheduled := by
  obtain ⟨hpolicy, hscheduler, hexecutor⟩ := RuntimeConfig.one_limit total failed repair
  have hlimit := hscheduler.trans hexecutor.symm
  constructor
  · rintro ⟨-, -, hroom⟩
    exact same_of_admittedHasRoom hbare hfresh hcontract hplanning hlimit
      (hexecutor ▸ RuntimeConfig.init_pos total failed repair) hroom
  · rintro rfl
    exact ⟨hpolicy.trans hscheduler.symm, hlimit,
      admittedHasRoom_of_same hfresh hcontract hplanning hlimit⟩

end Admitted

-- ==================================================== a contract of its own

section OwnContract

/-- A task that links its specification. -/
def linkingTask : Task where
  id := "7"
  title := "Import"
  currentState := "ready"
  artifactLinks := ["[[Spec]]"]

/-- The contract of the task's own, which freezes no context. -/
def ownContract : ExecutionContract where
  transition := { id := "implement", taskType := "task", fromState := "ready", toState := "done" }
  sourceTask := linkingTask
  baselineManifest := ∅
  gitRepository := true
  baseCommit := none
  dirty := false

/-- Jobs with frozen inputs have that contract. -/
def ownContractEnv : Env :=
  { Env.plain with
    loadContract := fun job => if job.metadata.frozen = [] then .ok none else .ok (some ownContract) }

def ownContractJob : ExecutionJob where
  jobId := "JOB-2"
  projectId := "demo"
  taskId := "7"
  transitionId := "implement"
  workerId := "coder"
  metadata := { frozen := [("execution_contract", "{}")] }

def demoExecutor : JobExecutor where
  project := "demo"

theorem ownContract_bare (job : ExecutionJob) (h : job.metadata.frozen = []) :
    ownContractEnv.loadContract job = .ok none ∧ ownContractEnv.loadPlanning job = .ok none :=
  ⟨if_pos h, rfl⟩

/-- The revision the scheduler computes for the task: it has the linked
specification in it. -/
def linkedRevision : TaskRevision := taskSemanticRevision id linkingTask [("[[Spec]]", sha256 [35])]

/-- The limits are the same, and yet a job that the scheduler makes may be
over budget at once. -/
theorem own_contract_over_budget :
    ¬ AdmittedHasRoom ownContractEnv demoExecutor (RuntimeConfig.init 0 0 2) ownContractJob
      linkedRevision (demoExecutor.workOf ownContractJob (some ownContract) none linkingTask) := by
  intro hroom
  have hlimit : (RuntimeConfig.init 0 0 2).schedulerLimit =
      (RuntimeConfig.init 0 0 2).executorLimit := by decide
  have hsame := same_of_admittedHasRoom ownContract_bare ⟨rfl, rfl⟩ rfl rfl hlimit (by decide) hroom
  have hsources := congrArg TaskRevision.sourceContent hsame
  revert hsources
  decide

/-- The criterion for this job. -/
theorem one_effective_limit_iff_own :
    ((RuntimeConfig.init 0 0 2).recoveryPolicy.totalAttempts =
          (RuntimeConfig.init 0 0 2).schedulerLimit ∧
        (RuntimeConfig.init 0 0 2).schedulerLimit = (RuntimeConfig.init 0 0 2).executorLimit ∧
        AdmittedHasRoom ownContractEnv demoExecutor (RuntimeConfig.init 0 0 2) ownContractJob
          linkedRevision
          (demoExecutor.workOf ownContractJob (some ownContract) none linkingTask)) ↔
      (demoExecutor.workOf ownContractJob (some ownContract) none linkingTask).revision =
        linkedRevision :=
  one_effective_limit_iff ownContract_bare ⟨rfl, rfl⟩ rfl rfl 0 0 2 linkingTask linkedRevision

end OwnContract

end OpenTulid
