/-
Settled jobs stay settled: which runs keep an accepted, failed or cancelled
job at its status.

The store writes what it is told (`JobStore.updateStatus`), so everything
rests on the writers. A writer that has read the status it decides on keeps
a settled status: it writes back what it read, or has read a status that is
not settled (`Op.respectsSettled`). That is a fact about the programs,
checked write by write. What can go wrong is a write over a status the
writer has not read: one it never looks at, or one that has changed since.
`WritesOnFreshStatus` is the condition on a run that excludes exactly these
writes, recovery's own settlement apart.
-/
import OpenTulid.Proofs.Footprint
import OpenTulid.Proofs.Frame

namespace OpenTulid

open Prog (Uses)
open Par (Step Run Config)

/-- The statuses a job must not leave again. -/
def ExecutionJobStatus.absorbing : ExecutionJobStatus → Bool
  | .accepted => true
  | .failed => true
  | .cancelled => true
  | _ => false

theorem ExecutionJobStatus.terminal_of_absorbing {s : ExecutionJobStatus}
    (h : s.absorbing = true) : s.terminal = true := by
  cases s <;> simp_all [absorbing, terminal]

/-- A status write based on a settled status writes that status back. -/
def Op.respectsSettled : Op → Prop
  | .updateStatus _ site basis _ status _ _ =>
      site = .recoverySettled ∨
        ∀ s, basis = some s → s.absorbing = true → status = s
  | .createJob _ _ => False
  | _ => True

theorem Op.respectsSettled_of_isTransaction {o : Op}
    (h : o.isTransaction = true) : o.respectsSettled := by
  cases o with
  | updateStatus | createJob => cases h
  | _ => trivial

/-- The operations beside the attempts of jobs: status writes that respect
settled statuses and leave the attempts alone, writes of attempts that are
admitted already, and nothing by which an executor admits or starts one. -/
def Op.besideAttempts : Op → Prop
  | .updateStatus p site basis id status patch inc =>
      (Op.updateStatus p site basis id status patch inc).respectsSettled ∧
        inc = false ∧ patch.attemptRecords = none
  | .recordAttempt _ _ r => r.status ≠ .admitted
  | .createJob .. | .listJobs _ => False
  | .lock (.execution ..) | .unlock (.execution ..) => False
  | .mark (.launches ..) => False
  | _ => True

theorem Op.respectsSettled_of_besideAttempts {o : Op} (h : o.besideAttempts) :
    o.respectsSettled := by
  cases o with
  | updateStatus p site basis id status patch inc => exact h.1
  | createJob => exact h
  | _ => trivial

theorem Op.besideAttempts_of_isTransaction {o : Op} (h : o.isTransaction = true) :
    o.besideAttempts := by
  cases o with
  | updateStatus | createJob | recordAttempt | listJobs | lock | unlock => cases h
  | mark m => cases m <;> trivial
  | _ => trivial

-- ================================================= the completion side

/-- A status that is not settled may be replaced by any other. -/
theorem respectsSettled_of_not_terminal {p : ProjectId} {site : WriteSite}
    {id : JobId} {s status : ExecutionJobStatus} {patch : MetadataPatch}
    {inc : Bool} (h : s.terminal = false) :
    (Op.updateStatus p site (some s) id status patch inc).respectsSettled := by
  refine Or.inr fun s' hs' habs => ?_
  cases hs'
  rw [ExecutionJobStatus.terminal_of_absorbing habs] at h
  cases h

/-- The status read is written back. -/
theorem respectsSettled_of_same {p : ProjectId} {site : WriteSite} {id : JobId}
    {s : ExecutionJobStatus} {patch : MetadataPatch} {inc : Bool} :
    (Op.updateStatus p site (some s) id s patch inc).respectsSettled :=
  Or.inr fun _ hs' _ => Option.some.inj hs'

/-- A write that looks at no status is left to the condition on the run. -/
theorem respectsSettled_of_none {p : ProjectId} {site : WriteSite} {id : JobId}
    {status : ExecutionJobStatus} {patch : MetadataPatch} {inc : Bool} :
    (Op.updateStatus p site none id status patch inc).respectsSettled :=
  Or.inr fun _ hs' _ => nomatch hs'

theorem respects_of_beside {α : Type} {p : Proc α} (h : Uses Op.besideAttempts p) :
    Uses Op.respectsSettled p :=
  h.mono fun _ => Op.respectsSettled_of_besideAttempts

variable (E : Env) (V : CompletionService) (call : SubmitCall)
  (job : ExecutionJob) (sid : SubmissionId)

theorem report_uses (e : EventEnvelope) :
    Uses Op.besideAttempts (report V e) :=
  uses_perform_bind trivial fun _ => trivial

theorem recordValidationFinished_uses :
    Uses Op.besideAttempts (recordValidationFinished V call job sid) := by
  refine (report_uses V _).bind fun _ => ?_
  refine uses_perform_bind trivial fun current => ?_
  split
  · trivial
  · exact uses_perform_bind ⟨respectsSettled_of_same, rfl, rfl⟩ fun _ => trivial

theorem captureCompletionCandidate_uses :
    Uses Op.besideAttempts (captureCompletionCandidate V call job) := by
  refine (uses_ofExcept _).bind fun captured => ?_
  split
  · trivial
  · refine uses_perform_bind trivial fun _ => ?_
    refine uses_perform_bind trivial fun current => ?_
    exact uses_perform_bind ⟨respectsSettled_of_same, rfl, rfl⟩ fun _ => trivial

theorem rejectCandidateCapture_uses (errors : List DomainError) :
    Uses Op.besideAttempts (rejectCandidateCapture V call job sid errors) := by
  refine uses_perform_bind trivial fun current => ?_
  refine uses_perform_bind ⟨respectsSettled_of_none, rfl, rfl⟩ fun _ => ?_
  exact (report_uses V _).bind fun _ => trivial

theorem rejectCompletion_uses (verification : VerificationResult)
    (errors : List DomainError) :
    Uses Op.besideAttempts
      (rejectCompletion V call job sid verification errors) := by
  refine uses_perform_bind trivial fun current => ?_
  split
  · refine uses_perform_bind ⟨respectsSettled_of_none, rfl, rfl⟩ fun _ => ?_
    exact (report_uses V _).bind fun _ => trivial
  · split
    · exact (report_uses V _).bind fun _ => trivial
    next current hterminal =>
      refine uses_perform_bind
        ⟨respectsSettled_of_not_terminal (by simpa using hterminal), rfl, rfl⟩ fun _ => ?_
      exact (report_uses V _).bind fun _ => trivial

theorem conclude_uses (transaction : TransactionApplyResult) :
    Uses Op.besideAttempts (conclude E V call job sid transaction) := by
  unfold conclude
  split
  · refine uses_perform_bind trivial fun d => ?_
    split
    · trivial
    · exact uses_perform_bind ⟨respectsSettled_of_none, rfl, rfl⟩ fun _ => trivial
  · refine (report_uses V _).bind fun _ => ?_
    exact uses_perform_bind ⟨respectsSettled_of_none, rfl, rfl⟩ fun _ => trivial

theorem publish_uses (contract : Option ExecutionContract)
    (transition : TransitionDefinition) (verification : VerificationResult)
    (candidate : Candidate) (out : RelPath) (delivery : DeliveryPlan) :
    Uses Op.besideAttempts (publish E V call job sid contract transition
      verification candidate out delivery) := by
  refine uses_perform_bind trivial fun d => ?_
  refine (uses_ofExcept _).bind fun derived => ?_
  split
  · exact (rejectCompletion_uses V call job sid _ _).bind fun _ => trivial
  · split
    · trivial
    · refine Uses.bind ?_ fun _ => trivial
      exact (applyAcceptance_uses E V job _ call sid).mono fun _ =>
        Op.besideAttempts_of_isTransaction

theorem deliver_uses (contract : Option ExecutionContract)
    (transition : TransitionDefinition) (verification : VerificationResult)
    (candidate : Candidate) (out : RelPath) :
    Uses Op.besideAttempts (deliver E V call job sid contract transition
      verification candidate out) := by
  refine uses_read_bind trivial fun shadowed => ?_
  split
  · exact rejectCompletion_uses V call job sid _ _
  · refine uses_read_bind trivial fun planned => ?_
    refine (uses_ofExcept _).bind fun delivery => ?_
    refine (checkTarget_uses (fun _ _ => trivial) _ _).bind fun checked => ?_
    · split
      · exact rejectCompletion_uses V call job sid _ _
      · refine uses_perform_bind trivial fun _ => ?_
        refine Uses.bind (Uses.ensure ?_ ?_) fun published => ?_
        · exact publish_uses E V call job sid _ _ _ _ _ _
        · exact uses_perform_bind trivial fun _ => trivial
        · split
          · trivial
          · exact conclude_uses E V call job sid _

theorem validateSubmission_uses (hjob : job.status.terminal = false)
    (contract : Option ExecutionContract) (transition : TransitionDefinition) :
    Uses Op.besideAttempts
      (validateSubmission E V call job sid contract transition) := by
  refine (report_uses V _).bind fun _ => ?_
  refine uses_perform_bind ⟨respectsSettled_of_not_terminal hjob, rfl, rfl⟩ fun _ => ?_
  refine (report_uses V _).bind fun _ => ?_
  refine (captureCompletionCandidate_uses V call job).bind fun captured => ?_
  split
  · exact rejectCandidateCapture_uses V call job sid _
  · refine (report_uses V _).bind fun _ => ?_
    split
    · exact (recordValidationFinished_uses V call job sid).bind
        fun _ => trivial
    · refine (recordValidationFinished_uses V call job sid).bind fun _ => ?_
      split
      · exact deliver_uses E V call job sid _ _ _ _ _
      · exact rejectCompletion_uses V call job sid _ _

/-- A submission decides every status write on a status it has read, or on
none, and leaves attempts alone. -/
theorem submit_uses : Uses Op.besideAttempts (submit E V call) := by
  refine uses_perform_bind trivial fun loaded => ?_
  split
  · trivial
  next job =>
    unfold submitJob
    split
    · split <;> trivial
    · split
      · trivial
      · split
        · trivial
        · split
          · exact (report_uses V _).bind fun _ => trivial
          next hterminal =>
            split
            · exact (report_uses V _).bind fun _ => trivial
            · split
              · trivial
              · exact validateSubmission_uses E V call job _
                  (by simpa using hterminal) _ _

theorem submit_respects : Uses Op.respectsSettled (submit E V call) :=
  respects_of_beside (submit_uses E V call)

-- =================================================== the executor side

section Executor

variable (X : JobExecutor) (a : Pass)

theorem removeLeases_uses (leases : List ResourceLease) :
    Uses Op.besideAttempts (removeLeases leases) := by
  induction leases with
  | nil => trivial
  | cons l rest ih =>
      refine uses_perform_bind trivial fun r => ?_
      split
      · trivial
      · exact ih

theorem writeLeases_uses (leases : List ResourceLease) :
    Uses Op.besideAttempts (writeLeases leases) := by
  induction leases with
  | nil => trivial
  | cons l rest ih =>
      refine uses_perform_bind trivial fun r => ?_
      split
      · trivial
      · exact ih

theorem releaseJob_uses (id : JobId) :
    Uses Op.besideAttempts (releaseJob id) :=
  uses_withLock trivial trivial
    (uses_read_bind trivial fun _ => removeLeases_uses _)

theorem emit_uses (n : Nat) (type : String) :
    Uses Op.besideAttempts (X.emit a n type job) :=
  uses_perform_bind trivial fun _ => trivial

theorem failBeforeRun_uses (error : DomainError) :
    Uses Op.besideAttempts (X.failBeforeRun a job error) := by
  refine uses_perform_bind ⟨respectsSettled_of_none, rfl, rfl⟩ fun _ => ?_
  exact (emit_uses job X a _ _).bind fun _ => trivial

theorem repairWithinTotalAccount_respects (work : Work) :
    Uses Op.respectsSettled (X.repairWithinTotalAccount E work) := by
  unfold JobExecutor.repairWithinTotalAccount
  split
  · trivial
  · refine uses_perform_bind trivial fun listed => ?_
    split
    · trivial
    · split <;> trivial

theorem failAtTotalAttemptBound_uses :
    Uses Op.besideAttempts (X.failAtTotalAttemptBound a job) := by
  refine uses_perform_bind ⟨respectsSettled_of_none, rfl, rfl⟩ fun _ => ?_
  exact emit_uses job X a _ _

theorem admitAttempt_respects (work : Work) :
    Uses Op.respectsSettled (X.admitAttempt a job work) := by
  refine (uses_mayRaise _).bind fun _ => ?_
  refine uses_perform_bind trivial fun saved => ?_
  split <;> trivial

theorem updateAttempt_uses (id : JobId) (attemptId : String)
    {status : AttemptStatus} (hstatus : status ≠ .admitted) (failure : Option JobId) :
    Uses Op.besideAttempts (X.updateAttempt id attemptId status failure) := by
  refine uses_perform_bind trivial fun loaded => ?_
  split
  · trivial
  · split
    · trivial
    · exact uses_perform_bind hstatus fun _ => trivial

theorem settleAttempt_uses (id : JobId) (attemptId : String) :
    Uses Op.besideAttempts (X.settleAttempt id attemptId) :=
  uses_perform_bind trivial fun _ => updateAttempt_uses X _ _ (by decide) _

theorem preserveFailureEvidence_uses :
    Uses Op.besideAttempts (X.preserveFailureEvidence a job) := by
  unfold JobExecutor.preserveFailureEvidence
  split
  · refine uses_perform_bind trivial fun loaded => ?_
    split
    · trivial
    · exact uses_perform_bind ⟨respectsSettled_of_same, rfl, rfl⟩ fun _ => trivial
  · trivial

theorem failWorker_uses (reason : Option String) :
    Uses Op.besideAttempts (X.failWorker a job reason) := by
  refine uses_perform_bind trivial fun loaded => ?_
  split
  · trivial
  · split
    · trivial
    next current hguard =>
      have hterminal : current.status.terminal = false := by
        simpa using (not_or.mp hguard).1
      refine uses_perform_bind
        ⟨respectsSettled_of_not_terminal hterminal, rfl, rfl⟩ fun _ => ?_
      refine (emit_uses job X a _ _).bind fun _ => ?_
      refine (preserveFailureEvidence_uses job X a).bind fun _ => ?_
      exact releaseJob_uses _

theorem waitForCompletionSettlement_uses (id : JobId) (n : Nat) :
    Uses Op.besideAttempts (X.waitForCompletionSettlement id n) := by
  induction n with
  | zero => trivial
  | succ n ih =>
      refine uses_perform_bind trivial fun loaded => ?_
      split
      · split
        · exact ih
        · trivial
      · trivial

theorem superviseWorker_respects (work : Work) :
    Uses Op.respectsSettled (X.superviseWorker a job work) := by
  refine Uses.ensure (Uses.bind (uses_perform_bind trivial fun _ =>
    Uses.bind ?_ fun _ => ?_) fun _ => ?_) ?_
  · exact uses_onlyIf (respects_of_beside (failWorker_uses job X a _))
  · split <;> trivial
  · exact (uses_onlyIf (respects_of_beside (waitForCompletionSettlement_uses X _ _))).bind
      fun _ => trivial
  · exact (uses_mayRaise _).bind fun _ => trivial

theorem runAttempt_respects (work : Work) (attemptId : String)
    (repairMode contract : Bool) :
    Uses Op.respectsSettled
      (X.runAttempt a job work attemptId repairMode contract) := by
  have hrun : Uses Op.respectsSettled (do
      X.updateAttempt job.jobId attemptId .running none
      return (Sum.inr (← X.superviseWorker a job work) :
        Sum ExecutorRunResult (Option WorkerResult))) := by
    refine (respects_of_beside (updateAttempt_uses X _ _ (by decide) _)).bind fun _ => ?_
    exact (superviseWorker_respects job X a work).bind fun _ => trivial
  refine uses_perform_bind respectsSettled_of_none fun _ => ?_
  refine (respects_of_beside (emit_uses job X a _ _)).bind fun _ => ?_
  refine (uses_mayRaise _).bind fun _ => ?_
  split
  · split
    · exact (respects_of_beside (failBeforeRun_uses job X a _)).bind fun _ => trivial
    · refine uses_perform_bind respectsSettled_of_none fun saved => ?_
      split
      · exact (respects_of_beside (failBeforeRun_uses job X a _)).bind fun _ => trivial
      · exact hrun
  · exact hrun

theorem afterRun_respects (work : Work) {again : Proc ExecutorRunResult}
    (hagain : Uses Op.respectsSettled again) (result : WorkerResult) :
    Uses Op.respectsSettled (X.afterRun E a job work again result) := by
  refine (uses_mayRaise _).bind fun _ => ?_
  refine uses_perform_bind trivial fun loaded => ?_
  split
  · trivial
  · refine uses_perform_bind trivial fun repaired => ?_
    split
    · refine (repairWithinTotalAccount_respects E X work).bind fun within => ?_
      split
      · exact hagain
      · exact (respects_of_beside (failAtTotalAttemptBound_uses job X a)).bind fun _ => trivial
    · trivial
  · exact (respects_of_beside (preserveFailureEvidence_uses job X a)).bind fun _ => trivial
  · exact (respects_of_beside (preserveFailureEvidence_uses job X a)).bind fun _ => trivial
  · exact (respects_of_beside (preserveFailureEvidence_uses job X a)).bind fun _ => trivial
  · exact (respects_of_beside (failWorker_uses job X a _)).bind fun _ => trivial

theorem executorException_uses (e : Raised) :
    Uses Op.besideAttempts (X.executorException a job e) := by
  refine uses_perform_bind ⟨respectsSettled_of_none, rfl, rfl⟩ fun _ => ?_
  exact (emit_uses job X a _ _).bind fun _ => trivial

theorem attempt_respects (work : Work) {again : Proc ExecutorRunResult}
    (hagain : Uses Op.respectsSettled again) (contract leased : Bool) :
    Uses Op.respectsSettled (X.attempt E a job work contract leased again) := by
  have hrelease :
      Uses Op.respectsSettled (onlyIf leased (releaseJob job.jobId)) :=
    uses_onlyIf (respects_of_beside (releaseJob_uses _))
  have hprepare : Uses Op.respectsSettled (X.prepareAttempt a job work) := by
    refine (uses_ofExcept _).bind fun prepared => ?_
    split
    · exact (respects_of_beside (failBeforeRun_uses job X a _)).bind fun _ => trivial
    · exact (admitAttempt_respects job X a work).bind fun _ => trivial
  refine Uses.bind (Uses.tryCatch hprepare fun e => ?_) fun prepared => ?_
  · exact (respects_of_beside (executorException_uses job X a e)).bind fun _ => trivial
  · split
    · exact Uses.bind hrelease fun _ => trivial
    next attemptId =>
      refine Uses.ensure (Uses.tryCatch ?_ (fun e => respects_of_beside (executorException_uses job X a e))) ?_
      · refine (runAttempt_respects job X a work _ _ _).bind fun ended => ?_
        split
        · trivial
        · trivial
        · exact afterRun_respects E job X a work hagain _
      · exact (respects_of_beside (settleAttempt_uses X _ _)).bind fun _ => hrelease

theorem acquireLeases_uses :
    Uses Op.besideAttempts (X.acquireLeases job) := by
  simp only [JobExecutor.acquireLeases]
  split
  · trivial
  · refine Uses.bind ?_ fun held => ?_
    · exact uses_withLock trivial trivial (uses_read trivial _)
    · split
      · trivial
      · refine Uses.bind (uses_withLock trivial trivial ?_) fun busy => ?_
        · refine uses_read_bind trivial fun busy => ?_
          split
          · trivial
          · exact (writeLeases_uses _).bind fun _ => trivial
        · split <;> trivial

theorem runJob_respects {again : Proc ExecutorRunResult}
    (hagain : Uses Op.respectsSettled again) :
    Uses Op.respectsSettled (X.runJob E a job again) := by
  unfold JobExecutor.runJob
  split
  · trivial
  · split
    · exact respects_of_beside (failBeforeRun_uses job X a _)
    · split
      · exact respects_of_beside (failBeforeRun_uses job X a _)
      · split
        · trivial
        · refine uses_read_bind trivial fun task => ?_
          split
          · trivial
          · refine Uses.bind (Uses.tryCatch ?_ fun _ => trivial) fun within => ?_
            · exact (repairWithinTotalAccount_respects E X _).bind fun _ => trivial
            · split
              · exact respects_of_beside (failBeforeRun_uses job X a _)
              · exact (respects_of_beside (failAtTotalAttemptBound_uses job X a)).bind
                  fun _ => trivial
              · refine (respects_of_beside (acquireLeases_uses job X)).bind fun leased => ?_
                split
                · trivial
                · exact attempt_respects E job X a _ hagain _ _

/-- The executor decides every status write on a status it has read, or on
none. -/
theorem runClaimed_respects (id : JobId) (passes : List Pass) :
    Uses Op.respectsSettled (X.runClaimed E id passes) := by
  induction passes with
  | nil => trivial
  | cons a rest ih =>
      refine uses_perform_bind trivial fun loaded => ?_
      split
      · trivial
      · exact runJob_respects E _ X a ih

end Executor

/-- So does a status set on the command line. -/
theorem setJobStatus_uses (p : ProjectId) (ulid : String) (id : JobId)
    (status : ExecutionJobStatus) :
    Uses Op.besideAttempts (setJobStatus p ulid id status) := by
  refine uses_perform_bind ⟨respectsSettled_of_none, rfl, rfl⟩ fun saved => ?_
  split
  · trivial
  · refine Uses.bind ?_ fun _ => ?_
    · exact uses_onlyIf (releaseJob_uses _)
    · exact uses_perform_bind trivial fun _ => trivial

/-- Recovery writes no status but its own settlements. -/
theorem recoverCompletionTransactions_beside :
    Uses Op.besideAttempts (recoverCompletionTransactions E V) :=
  recoverCompletionTransactions_uses E V
    (fun _ => Op.besideAttempts_of_isTransaction) (fun _ => trivial)
    (fun _ _ => trivial) (fun _ _ _ _ hpatch => ⟨Or.inl rfl, rfl, hpatch⟩)

-- ============================================================= the runs

/-- The steps that write a status on one that has been read: where a settled
job is overwritten, the writer has read the settled status, or is
recovery. -/
def writesOnFreshStatus : Par.Admission Pid Op World where
  step _ _ o w := match o with
    | .updateStatus p site basis id _ _ _ =>
        site = .recoverySettled ∨
          ∀ s, w.data.status p id = some s → s.absorbing = true → basis = some s
    | _ => True
  crash _ _ := True

/-- The status writes of recovery for a job, in a history. -/
def settlements (p : ProjectId) (id : JobId) (history : List Entry) : Nat :=
  history.countP fun e => match e.op with
    | .updateStatus q .recoverySettled _ j _ _ _ => q = p ∧ j = id
    | _ => false

/-- The programs that run a job, complete it, set its status or recover
it. -/
inductive JobProcess (E : Env) : Proc Unit → Prop where
  | run (X : JobExecutor) (id : JobId) (passes : List Pass) :
      JobProcess E (do let _ ← X.runClaimed E id passes)
  | submit (V : CompletionService) (call : SubmitCall) :
      JobProcess E (do let _ ← OpenTulid.submit E V call)
  | set (p : ProjectId) (ulid : String) (id : JobId)
      (status : ExecutionJobStatus) :
      JobProcess E (setJobStatus p ulid id status)
  | recover (V : CompletionService) :
      JobProcess E (do let _ ← recoverCompletionTransactions E V)

theorem JobProcess.respects {q : Proc Unit} (h : JobProcess E q) :
    Uses Op.respectsSettled q := by
  cases h with
  | run X id passes =>
      exact (runClaimed_respects E X id passes).bind fun _ => trivial
  | submit V call => exact (submit_respects E V call).bind fun _ => trivial
  | set p ulid id status => exact respects_of_beside (setJobStatus_uses p ulid id status)
  | recover V =>
      exact (respects_of_beside (recoverCompletionTransactions_beside E V)).bind
        fun _ => trivial

/-- Settled jobs stay settled along the runs of a condition: from any world
of a run on, a job that is accepted, failed or cancelled keeps its status
for as long as recovery settles it by no write. -/
def KeepsSettled (E : Env) (A : Par.Admission Pid Op World) : Prop :=
  ∀ c c₁ c₂ : Config Pid Op Op.Res Raised Unit World,
    (∀ i q, c.procs i = some q → JobProcess E q) →
    Run (machine E) A c c₁ → Run (machine E) A c₁ c₂ →
    ∀ p id s, c₁.world.data.status p id = some s → s.absorbing = true →
      settlements p id c₂.world.history = settlements p id c₁.world.history →
      c₂.world.data.status p id = some s

/-- The settlements of a history never decrease. -/
theorem settlements_cons (p : ProjectId) (id : JobId) (e : Entry)
    (history : List Entry) :
    settlements p id history ≤ settlements p id (e :: history) := by
  unfold settlements
  rw [List.countP_cons]
  omega

/-- One admitted operation either keeps a settled status or is a settlement
by recovery. -/
theorem settled_step {i : Pid} {fault : Bool} {o : Op} {w : World}
    (ho : o.respectsSettled)
    (hadm : writesOnFreshStatus.step i fault o w)
    {p : ProjectId} {id : JobId} {s : ExecutionJobStatus}
    (hs : w.data.status p id = some s) (habs : s.absorbing = true) :
    (o.apply E fault w.data).1.status p id = some s ∨
      settlements p id w.history <
        settlements p id (⟨i, fault, o, w.data⟩ :: w.history) := by
  have hcreate : ∀ q job, o ≠ .createJob q job := by
    rintro q job rfl
    exact ho
  rcases @status_apply E fault o w.data hcreate p id with
    hsame | ⟨site, basis, status, patch, inc, rfl, hset⟩
  · exact Or.inl (hsame.trans hs)
  · by_cases hsite : site = .recoverySettled
    · subst hsite
      right
      simp [settlements]
    · have hbasis := (hadm.resolve_left hsite) s hs habs
      have hstatus := (ho.resolve_left hsite) s hbasis habs
      exact Or.inl (hset.trans (congrArg some hstatus))

/-- Where every status write over a settled job is made on the status the
writer has read, settled jobs stay settled. -/
theorem keepsSettled_of_fresh (E : Env) :
    KeepsSettled E writesOnFreshStatus := by
  intro c c₁ c₂ hproc hrun₁ hrun₂ p id s hs habs hrec
  have huses : Par.AllUses Op.respectsSettled c₁ :=
    Par.AllUses.run (fun i q hq => (hproc i q hq).respects E) hrun₁
  -- the invariant: the status stands or recovery has written since
  have hinv := huses.invariant
    (I := fun w => w.data.status p id = some s ∧
        settlements p id c₁.world.history ≤ settlements p id w.history ∨
      settlements p id c₁.world.history < settlements p id w.history)
    (fun i fault o w ho _ hadm hw => by
      have hmono := settlements_cons p id ⟨i, fault, o, w.data⟩ w.history
      rcases hw with ⟨hstatus, hle⟩ | hlt
      · rcases settled_step E ho hadm hstatus habs with hkept | hmore
        · exact Or.inl ⟨hkept, hle.trans hmono⟩
        · exact Or.inr (Nat.lt_of_le_of_lt hle hmore)
      · exact Or.inr (Nat.lt_of_lt_of_le hlt hmono))
    (fun i w _ hw => by
      have hmono := settlements_cons p id
        ⟨i, false, .mark .crashed, w.data⟩ w.history
      rcases hw with ⟨hstatus, hle⟩ | hlt
      · exact Or.inl ⟨hstatus, hle.trans hmono⟩
      · exact Or.inr (Nat.lt_of_lt_of_le hlt hmono))
    hrun₂ (Or.inl ⟨hs, le_refl _⟩)
  rcases hinv with ⟨hstatus, -⟩ | hlt
  · exact hstatus
  · exact absurd hrec (Nat.ne_of_gt hlt)

/-- A pending job whose frozen contract does not load is cancelled after the
executor has read it: the executor fails it all the same. -/
theorem cancelled_job_is_failed :
    ¬ KeepsSettled { Env.plain with
        loadContract := fun _ => .error [⟨"contract.invalid", "", none⟩] }
      Par.Admission.any := by
  intro h
  let E : Env := { Env.plain with
    loadContract := fun _ => .error [⟨"contract.invalid", "", none⟩] }
  let job : ExecutionJob := ⟨"j", "p", "1", "implement", "coder", .pending, 0, {}⟩
  let project : Project := { jobs := (∅ : Table _).put job }
  let pass : Pass := { ulid := fun n => toString n, worker := { result := .ok none } }
  let c : Config Pid Op Op.Res Raised Unit World :=
    system ⟨fun _ => project, fun _ => {}, fun _ => ∅, []⟩
      [do let _ ← JobExecutor.runClaimed ⟨"p", [], fun _ => [], 3, id⟩ E "j" [pass],
        setJobStatus "p" "e" "j" .cancelled]
  have hproc : ∀ i q, c.procs i = some q → JobProcess E q := by
    intro i q hq
    match i with
    | 0 => cases hq; exact .run _ _ _
    | 1 => cases hq; exact .set _ _ _ _
    | n + 2 => cases hq
  -- the executor reads the job, then the job is cancelled
  obtain ⟨c₁, hrun₁, h₁⟩ := Par.exists_run_of_nexts
    (M := machine E) (l := [.step 0 false, .step 1 false]) (c := c)
    (P := fun c₁ => c₁.world.data.status "p" "j" = some .cancelled &&
      settlements "p" "j" c₁.world.history = 0 &&
      (Par.nexts (machine E) [.step 0 false] c₁).any fun c₂ =>
        c₂.world.data.status "p" "j" = some .failed &&
          settlements "p" "j" c₂.world.history = 0)
    (by decide +kernel)
  simp only [Bool.and_eq_true, decide_eq_true_eq] at h₁
  -- and the executor fails it
  obtain ⟨c₂, hrun₂, h₂⟩ := Par.exists_run_of_nexts h₁.2
  simp only [Bool.and_eq_true, decide_eq_true_eq] at h₂
  have hkept := h c c₁ c₂ hproc hrun₁ hrun₂ "p" "j" .cancelled h₁.1.1 rfl
    (h₂.2.trans h₁.1.2.symm)
  rw [h₂.1] at hkept
  cases hkept

end OpenTulid
