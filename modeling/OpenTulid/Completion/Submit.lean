/-
`CompletionService.submit`: guards, candidate capture, verification,
planning, the acceptance transaction and the closing status write.

# One call

`SubmitCall` is one call: its arguments, the identifiers `new_ulid` gives
it, and what the worker's workspace and the external checks answer it (the
captured candidate, the verification). Everything else the call reads from
the shared stores when it gets there.

# Stages

The method is cut where its source has a call or a blank line: `submit`
reads the job, `submitJob` is the chain of guards, `validateSubmission`
runs from the status write to the verification, `deliver` plans and
checks, `publish` is the body of the publication lock, and `conclude`
writes the closing status.
-/
import OpenTulid.Completion.Plan

namespace OpenTulid

/-- What a submission answers. -/
structure CompletionResult where
  accepted : Bool
  errors : List DomainError := []
  deriving DecidableEq, Repr

/-- What the verifier answers. -/
structure VerificationResult where
  accepted : Bool
  errors : List DomainError := []
  message : String := ""
  /-- the classification of its report, when there is one -/
  classification : Option String := none
  deriving DecidableEq, Repr

/-- One call of `submit`. -/
structure SubmitCall where
  jobId : JobId
  submission : CompletionSubmission
  token : Option String := none
  /-- the identifiers generated for the call, by position -/
  ulid : Nat → String
  /-- `capture_candidate`: the candidate and the files it seals, the errors
  it answers, or what it raises -/
  captured : Except Raised (Except (List DomainError) (Candidate × FileTree))
  /-- the verification of the candidate, or what preparing or running it
  raises -/
  verified : Except Raised VerificationResult
  /-- what the interpreter raises while a derived batch is planned: the
  cycle search recurses once for every link of a dependency chain -/
  planningRaises : Option Raised := none

/-- The submission id: the worker's, or a generated one. -/
def SubmitCall.submissionId (call : SubmitCall) : SubmissionId :=
  call.submission.submissionId.getD (call.ulid 0)

-- =============================================================== events

/-- An event about a job's submission. -/
def submissionEvent (call : SubmitCall) (n : Nat) (type : String)
    (job : ExecutionJob) (sid : SubmissionId) : EventEnvelope where
  eventId := call.ulid n
  eventType := type
  taskId := some job.taskId
  jobId := some job.jobId
  transitionId := some job.transitionId
  submissionId := some sid

/-- Append an event; a failing append is not reported. -/
def report (S : CompletionService) (e : EventEnvelope) : Proc Unit := do
  let _ ← perform (.appendEvent S.project e)
  return ()

/-- The events of an acceptance, from the tenth identifier on. -/
def acceptanceEvents (call : SubmitCall) (job : ExecutionJob)
    (sid : SubmissionId) (promoted : List ArtifactPromotion)
    (derived : List DerivedTask) : List EventEnvelope :=
  let types : List (String × TaskId) :=
    [("TransitionAccepted", job.taskId), ("TaskMoved", job.taskId)] ++
    promoted.map (fun _ => ("ArtifactWritten", job.taskId)) ++
    derived.map (fun child => ("TaskDerived", child.task.id)) ++
    [("ReviewRequested", job.taskId), ("ExecutionFinished", job.taskId)]
  types.zipIdx.map fun ((type, taskId), n) =>
    { submissionEvent call (10 + n) type job sid with taskId := some taskId }

-- ========================================================= bookkeeping

/-- The remembered submissions with one recorded. -/
def recordSubmission (submissions : List (SubmissionId × SubmissionRecord))
    (sid : SubmissionId) (record : SubmissionRecord) :
    List (SubmissionId × SubmissionRecord) :=
  if (submissions.lookup sid).isSome then
    submissions.map fun s => if s.1 = sid then (sid, record) else s
  else submissions ++ [(sid, record)]

/-- Whether a rejection may be repaired, and the reason when not. -/
def planRepair (classification : Option String) (repairAttempts maxRepairAttempts : Nat) :
    Bool × Option String :=
  if classification = some "baseline_failure" ∨
      classification = some "environment_failure" then
    (false, classification)
  else if maxRepairAttempts ≤ repairAttempts then
    (false, some "repair_limit_reached")
  else (true, none)

/-- Write a job's status. -/
def writeStatus (S : CompletionService) (site : WriteSite)
    (basis : Option ExecutionJobStatus) (id : JobId)
    (status : ExecutionJobStatus) (patch : MetadataPatch) :
    Proc (Except DomainError ExecutionJob) :=
  perform (.updateStatus S.project site basis id status patch false)

/-- `_record_validation_finished`: the status read is written back. -/
def recordValidationFinished (S : CompletionService) (call : SubmitCall)
    (job : ExecutionJob) (sid : SubmissionId) : Proc Unit := do
  report S (submissionEvent call 4 "ExecutionCompletionValidationFinished" job sid)
  match ← perform (.getJob S.project job.jobId) with
  | .error _ => return ()
  | .ok current =>
      let _ ← writeStatus S .validationFinished (some current.status) job.jobId
        current.status {}
      return ()

/-- `_capture_completion_candidate`: the candidate is sealed and the status
read is written back. -/
def captureCompletionCandidate (S : CompletionService) (call : SubmitCall)
    (job : ExecutionJob) : Proc (Except (List DomainError) Candidate) := do
  match ← ofExcept call.captured with
  | .error errors => return .error errors
  | .ok (candidate, files) =>
      perform (.sealCandidate candidate.storage files)
      let status := match ← perform (.getJob S.project job.jobId) with
        | .ok current => current.status
        | .error _ => job.status
      let _ ← writeStatus S .candidateCaptured (some status) job.jobId status {}
      return .ok candidate

/-- `_reject_candidate_capture`: the job is handed back whatever its status
is by now. -/
def rejectCandidateCapture (S : CompletionService) (call : SubmitCall)
    (job : ExecutionJob) (sid : SubmissionId) (errors : List DomainError) :
    Proc CompletionResult := do
  let metadata := match ← perform (.getJob S.project job.jobId) with
    | .ok current => current.metadata
    | .error _ => job.metadata
  let _ ← writeStatus S .captureRejected none job.jobId .completionRejected {
    repairReady := some true
    repairHistory := some (metadata.repairHistory ++ [{
      submissionId := sid
      classification := some "candidate_capture"
      errorCodes := errors.map (·.code)
      repairReady := true
      retryReason := some "candidate_capture_failed" }])
    completionSubmissions := some (recordSubmission metadata.completionSubmissions
      sid ⟨false, errors⟩) }
  report S (submissionEvent call 3 "ExecutionCompletionRejected" job sid)
  return { accepted := false, errors := errors }

/-- The answer to a submission for a job that is terminal. -/
def jobTerminal (job : ExecutionJob) (status : ExecutionJobStatus) :
    CompletionResult where
  accepted := false
  errors := [⟨"completion.job_terminal",
    s!"Execution job {job.jobId} is terminal: {status.value}.", some job.jobId⟩]

/-- `_reject_completion`: a job that has become terminal is left as it is;
otherwise it is handed back for repair or failed. -/
def rejectCompletion (S : CompletionService) (call : SubmitCall)
    (job : ExecutionJob) (sid : SubmissionId)
    (verification : VerificationResult) (errors : List DomainError) :
    Proc CompletionResult := do
  let current ← perform (.getJob S.project job.jobId)
  let reject (basis : Option ExecutionJobStatus) (metadata : JobMetadata) :
      Proc CompletionResult := do
    let (eligible, reason) := planRepair verification.classification
      metadata.repairAttempts S.maxRepairAttempts
    let _ ← writeStatus S .completionRejected basis job.jobId
      (if eligible then .completionRejected else .failed) {
        repairReady := some eligible
        failureReason := if eligible then none
          else some ("completion_rejected:" ++ reason.getD "None")
        repairHistory := some (metadata.repairHistory ++ [{
          submissionId := sid
          classification := verification.classification
          errorCodes := errors.map (·.code)
          repairReady := eligible
          retryReason := reason }])
        completionSubmissions := some (recordSubmission metadata.completionSubmissions
          sid ⟨false, errors⟩) }
    report S (submissionEvent call 5 "ExecutionCompletionRejected" job sid)
    return { accepted := false, errors := errors }
  match current with
  | .error _ => reject none job.metadata
  | .ok current =>
      if current.status.terminal then do
        report S (submissionEvent call 5 "ExecutionCompletionIgnored" job sid)
        return jobTerminal job current.status
      else reject (some current.status) current.metadata

-- ============================================== the acceptance transaction

/-- What an acceptance is about to do. -/
structure AcceptancePlan where
  candidate : Candidate
  outputRelative : RelPath
  artifactPaths : List RelPath
  promotedArtifacts : List ArtifactPromotion
  promotedFiles : List Effect
  commitEffect : Option Effect
  derived : List DerivedTask
  fromState : String
  effectiveToState : String
  deriving DecidableEq

/-- The effects of an acceptance, in order: changed files, the commit, the
artifacts, the derived tasks, their links, the move. -/
def acceptanceEffects (taskId : TaskId) (plan : AcceptancePlan) : List Effect :=
  plan.promotedFiles ++ plan.commitEffect.toList ++
  plan.promotedArtifacts.map Effect.promoteArtifact ++
  plan.derived.map (fun child => Effect.createTask child.task) ++
  (if plan.derived = [] then []
    else [.linkDerivedTasks taskId (plan.derived.map (·.link))]) ++
  [.moveTask taskId plan.effectiveToState]

/-- The journal id of a submission's acceptance. -/
def acceptanceJournalId (job : ExecutionJob) (sid : SubmissionId) : JournalId :=
  s!"{job.jobId}-{sid}"

/-- What the job records once accepted. -/
def acceptanceMetadata (S : CompletionService) (call : SubmitCall)
    (job : ExecutionJob) (sid : SubmissionId) : AcceptanceMetadata where
  completedSubmissionId := sid
  acceptanceTransactionId := acceptanceJournalId job sid
  repositoryIdentity := S.repo
  reviewResult := call.submission.reviewResult

/-- The journal record of an acceptance, prepared on the data read. -/
def acceptanceRecord (E : Env) (S : CompletionService) (call : SubmitCall)
    (job : ExecutionJob) (sid : SubmissionId) (plan : AcceptancePlan)
    (d : Data) : TransactionJournalRecord :=
  let repo := S.repo.map d.repos
  let base := repo.bind fun repo =>
    if E.scanErrors repo = [] then E.baseCommit repo else none
  let effects := acceptanceEffects job.taskId plan
  { journalId := acceptanceJournalId job sid
    projectId := job.projectId
    taskId := some job.taskId
    transitionId := some job.transitionId
    effects := effects
    events := acceptanceEvents call job sid plan.promotedArtifacts plan.derived
    status := .prepared
    context := {
      jobId := some job.jobId
      candidate := some plan.candidate
      expectedPreviousState := some plan.fromState
      repositoryIdentity := S.repo
      repositoryBaseCommit := base
      commit := plan.commitEffect.map fun
        | .commitRepoChanges message _ =>
            { message := message
              repositoryBaseCommit := base
              intendedTree := match repo, base with
                | some repo, some base => E.intendedCommitTree repo base effects
                | _, _ => none }
        | _ => ⟨"", base, none⟩
      outputRelative := some plan.outputRelative
      artifactPaths := some plan.artifactPaths
      acceptanceMetadata := some (acceptanceMetadata S call job sid,
        recordSubmission job.metadata.completionSubmissions sid ⟨true, []⟩) } }

/-- The transaction runtime of an acceptance. -/
def acceptanceRuntime (E : Env) (S : CompletionService) (job : ExecutionJob)
    (plan : AcceptancePlan) : FileTransactionRuntime where
  project := S.project
  applyEffect := applyEffect E S
  compensateEffect := some (compensateEffect S)
  validateFinalState := some (validateFinalState E S job.taskId
    plan.effectiveToState (some plan.candidate) (some plan.outputRelative)
    (some plan.artifactPaths))

/-- `_apply_acceptance`: the context is read, then the transaction runs. -/
def applyAcceptance (E : Env) (S : CompletionService) (call : SubmitCall)
    (job : ExecutionJob) (sid : SubmissionId) (plan : AcceptancePlan) :
    Proc TransactionApplyResult := do
  let record ← read (acceptanceRecord E S call job sid plan)
  (acceptanceRuntime E S job plan).apply record

/-- Git is run for a repository under Git; without an executable that
raises. -/
def gitUnavailable (E : Env) (S : CompletionService) (d : Data) : Bool :=
  E.gitRaises && S.repo.any fun r => (d.repos r).git.isSome

/-- The closing status write, after the lock is released. Looking up the
accepted commit runs Git. -/
def conclude (E : Env) (S : CompletionService) (call : SubmitCall)
    (job : ExecutionJob) (sid : SubmissionId)
    (transaction : TransactionApplyResult) : Proc CompletionResult :=
  if transaction.accepted then do
    let d ← perform .look
    if gitUnavailable E S d then .raise ⟨"git executable not found"⟩ else do
    let commit := S.repo.bind fun r => (d.repos r).head.map (·.sha)
    let _ ← writeStatus S .acceptanceAccepted none job.jobId .accepted {
      acceptance := some
        { acceptanceMetadata S call job sid with repositoryCommit := commit }
      completionSubmissions := some (recordSubmission
        job.metadata.completionSubmissions sid ⟨true, []⟩) }
    return { accepted := true }
  else do
    report S (submissionEvent call 6 "ExecutionCompletionAcceptanceFailed" job sid)
    let _ ← writeStatus S .acceptanceFailed none job.jobId .failed {}
    return { accepted := false, errors := transaction.error.toList }

/-- The acceptance of a plan: the transaction and the closing status. -/
def accept (E : Env) (S : CompletionService) (call : SubmitCall)
    (job : ExecutionJob) (sid : SubmissionId) (plan : AcceptancePlan) :
    Proc CompletionResult := do
  let transaction ← applyAcceptance E S call job sid plan
  conclude E S call job sid transaction

-- ============================================================= delivery

/-- What is planned before the target is checked. -/
structure DeliveryPlan where
  promotedArtifacts : List ArtifactPromotion
  promotedFiles : List Effect
  commitEffect : Option Effect
  deriving DecidableEq

/-- The submitted artifact paths, below the output folder. -/
def artifactPaths (outputRelative : RelPath) (submission : CompletionSubmission) :
    List RelPath :=
  submission.artifacts.map fun a => outputRelative ++ a.path

/-- The submitted artifacts that overlap repository source. -/
def shadowedPaths (d : Data) (S : CompletionService)
    (contract : Option ExecutionContract) (paths : List RelPath) : List RelPath :=
  paths.filter fun p =>
    (contract.any fun c => c.baselineManifest.any fun e => e.path = p) ||
      S.repo.any fun r => ((d.repos r).tree.node p).isSome

/-- The plans of the artifacts, the changed files and the commit. -/
def planDelivery (E : Env) (S : CompletionService) (d : Data)
    (job : ExecutionJob) (submission : CompletionSubmission)
    (candidate : Candidate) (outputRelative : RelPath) :
    Except Raised DeliveryPlan := do
  let task := ((d.projects S.project).tracker.readTask job.taskId).toOption
  let promotedArtifacts ← promotionPlan E S d candidate.storage outputRelative
    job.taskId submission.artifacts task
  let promotedFiles := candidateChangePlan d S.repo candidate.storage
    candidate.changes (artifactPaths outputRelative submission)
  return { promotedArtifacts := promotedArtifacts
           promotedFiles := promotedFiles
           commitEffect := commitPlan d S.repo promotedFiles task }

/-- The state the parent moves to. -/
def effectiveToState (transition : TransitionDefinition)
    (derived : List DerivedTask) : String :=
  if derived = [] then transition.toState
  else (transition.derives.bind (·.parentToIfDerived)).getD transition.toState

/-- The derived batch, planned on the ids in the tracker. -/
def planDerived (E : Env) (S : CompletionService) (call : SubmitCall) (d : Data)
    (job : ExecutionJob) (transition : TransitionDefinition)
    (candidate : Candidate) (outputRelative : RelPath)
    (promoted : List ArtifactPromotion) :
    Except Raised (Except (List DomainError) (List DerivedTask)) :=
  if transition.derives.isNone then .ok (.ok [])
  else match (d.projects S.project).tracker.loadProject with
  | .error errors => .ok (.error errors)
  | .ok snapshot =>
      match call.planningRaises with
      | some e => .error e
      | none => .ok <| derivedTaskPlan E d candidate.storage outputRelative
          transition call.submission.artifacts job.taskId (snapshot.tasks.map (·.id))
          ((call.submission.artifacts.zip promoted).map fun (artifact, planned) =>
            ((artifact.type, artifact.path), planned.link))

/-- `_acceptance_task_revision` raises for a job without frozen inputs whose
task cannot be read. -/
def revisionUnavailable (E : Env) (S : CompletionService) (d : Data)
    (job : ExecutionJob) (contract : Option ExecutionContract) : Bool :=
  contract.isNone && (match E.loadPlanning job with
    | .ok (some _) => false
    | _ => true) &&
  (match (d.projects S.project).tracker.readTask job.taskId with
    | .ok _ => false
    | .error _ => true)

/-- The body of the publication lock: the derived batch is planned and the
transaction applied, or the submission is rejected. -/
def publish (E : Env) (S : CompletionService) (call : SubmitCall)
    (job : ExecutionJob) (sid : SubmissionId)
    (contract : Option ExecutionContract) (transition : TransitionDefinition)
    (verification : VerificationResult) (candidate : Candidate)
    (outputRelative : RelPath) (delivery : DeliveryPlan) :
    Proc (Sum CompletionResult TransactionApplyResult) := do
  let d ← perform .look
  match ← ofExcept (planDerived E S call d job transition candidate
      outputRelative delivery.promotedArtifacts) with
  | .error errors => return .inl (← rejectCompletion S call job sid verification errors)
  | .ok derived =>
      if revisionUnavailable E S d job contract then
        Prog.raise ⟨"the task of the job cannot be read"⟩
      else return .inr (← applyAcceptance E S call job sid {
        candidate := candidate
        outputRelative := outputRelative
        artifactPaths := artifactPaths outputRelative call.submission
        promotedArtifacts := delivery.promotedArtifacts
        promotedFiles := delivery.promotedFiles
        commitEffect := delivery.commitEffect
        derived := derived
        fromState := transition.fromState
        effectiveToState := effectiveToState transition derived })

/-- `_check_integration_target`: nothing to check without a repository or a
contract. -/
def checkTarget (S : CompletionService) (contract : Option ExecutionContract) :
    Proc (Except (List DomainError) Unit) :=
  match S.repo, contract with
  | some r, some c => perform (.checkTarget r c)
  | _, _ => return .ok ()

/-- From the verified candidate to the closing status. -/
def deliver (E : Env) (S : CompletionService) (call : SubmitCall)
    (job : ExecutionJob) (sid : SubmissionId)
    (contract : Option ExecutionContract) (transition : TransitionDefinition)
    (verification : VerificationResult) (candidate : Candidate)
    (outputRelative : RelPath) : Proc CompletionResult := do
  let shadowed ← read fun d =>
    shadowedPaths d S contract (artifactPaths outputRelative call.submission)
  if shadowed ≠ [] then
    rejectCompletion S call job sid verification
      [⟨"completion.artifact_source_conflict",
        "Submitted artifacts overlap repository source; use separate artifact paths: "
          ++ ", ".intercalate (shadowed.map fun p => "/".intercalate p), none⟩]
  else do
  let delivery ← ofExcept
    (← read fun d => planDelivery E S d job call.submission candidate outputRelative)
  match ← checkTarget S contract with
  | .error errors => rejectCompletion S call job sid verification errors
  | .ok () =>
      perform (.lock (.publication S.project))
      let published ← (publish E S call job sid contract transition verification
        candidate outputRelative delivery).ensure
          (do perform (.unlock (.publication S.project)); return ⟨⟩)
      match published with
      | .inl rejected => return rejected
      | .inr transaction => conclude E S call job sid transaction

-- =========================================================== validation

/-- The verification of the sealed candidate; the output folder must lie
inside it. -/
def verifyCandidate (E : Env) (call : SubmitCall) (job : ExecutionJob) :
    Except Raised (RelPath × VerificationResult) :=
  match E.outputRelative job with
  | none => .error ⟨"Artifact output must be a directory within the captured workspace."⟩
  | some out => call.verified.map fun v => (out, v)

/-- From the status write to the verdict. -/
def validateSubmission (E : Env) (S : CompletionService) (call : SubmitCall)
    (job : ExecutionJob) (sid : SubmissionId)
    (contract : Option ExecutionContract) (transition : TransitionDefinition) :
    Proc CompletionResult := do
  report S (submissionEvent call 1 "ExecutionCompletionSubmitted" job sid)
  let _ ← writeStatus S .completionSubmitted (some job.status) job.jobId
    .completionSubmitted { activeSubmissionId := some sid }
  report S (submissionEvent call 2 "ExecutionCompletionValidationStarted" job sid)
  match ← captureCompletionCandidate S call job with
  | .error errors => rejectCandidateCapture S call job sid errors
  | .ok candidate =>
      report S (submissionEvent call 3 "ExecutionCompletionCandidateCaptured" job sid)
      match verifyCandidate E call job with
      | .error e =>
          recordValidationFinished S call job sid
          .raise e
      | .ok (outputRelative, verification) =>
          recordValidationFinished S call job sid
          if verification.accepted then
            deliver E S call job sid contract transition verification candidate
              outputRelative
          else rejectCompletion S call job sid verification verification.errors

-- =============================================================== guards

/-- The contract and the transition a submission is validated under, or why
it is not. -/
def admitSubmission (E : Env) (call : SubmitCall) (job : ExecutionJob) :
    Except (List DomainError) (Option ExecutionContract × TransitionDefinition) :=
  match E.loadContract job with
  | .error errors => .error errors
  | .ok contract =>
      match E.loadPlanning job with
      | .error text => .error [⟨"prompt.frozen_invalid", text, some job.jobId⟩]
      | .ok planning =>
          let transition := (contract.map (·.transition)) <|>
            (planning.map (·.transition)) <|> E.transitions job.transitionId
          match transition with
          | none => .error [⟨"transition.not_found",
              s!"Transition {job.transitionId} is not defined.", some job.transitionId⟩]
          | some transition =>
              let reviewErrors := E.reviewResultErrors call.submission.reviewResult
              if transition.review ∧ reviewErrors ≠ [] then .error reviewErrors
              else .ok (contract, transition)

/-- The guards of `submit` on the job read. -/
def submitJob (E : Env) (S : CompletionService) (call : SubmitCall)
    (job : ExecutionJob) : Proc CompletionResult :=
  match job.metadata.completionSubmissions.lookup call.submissionId with
  | some prior =>
      if prior.accepted then return { accepted := true }
      else return { accepted := false, errors :=
        if prior.feedback = [] then [⟨"completion.replayed_rejection",
          "Completion submission was already rejected.", none⟩]
        else prior.feedback }
  | none =>
      if job.status = .accepted then return { accepted := true }
      else if job.status = .completionSubmitted then
        return { accepted := false, errors := [⟨"completion.in_progress",
          s!"Execution job {job.jobId} already has a completion being validated. Remain active and wait for final completion feedback; do not exit successfully yet.",
          some job.jobId⟩] }
      else if job.status.terminal then do
        report S (submissionEvent call 1 "ExecutionCompletionIgnored" job call.submissionId)
        return jobTerminal job job.status
      else if job.metadata.completionToken.isSome ∧
          job.metadata.completionToken ≠ call.token then do
        report S (submissionEvent call 1 "ExecutionCompletionForbidden" job call.submissionId)
        return { accepted := false, errors := [⟨"completion.identity_mismatch",
          "Completion token does not match the job context.", some call.jobId⟩] }
      else match admitSubmission E call job with
      | .error errors => return { accepted := false, errors := errors }
      | .ok (contract, transition) =>
          validateSubmission E S call job call.submissionId contract transition

/-- `CompletionService.submit`. -/
def submit (E : Env) (S : CompletionService) (call : SubmitCall) :
    Proc CompletionResult := do
  match ← perform (.getJob S.project call.jobId) with
  | .error e => return { accepted := false, errors := [e] }
  | .ok job => submitJob E S call job

end OpenTulid
