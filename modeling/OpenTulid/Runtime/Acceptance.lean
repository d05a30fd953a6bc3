/-
Acceptance evidence: what makes an accepted job proof of a task's state.

A journal record carries, besides what recovery reads (`Domain`), the
context evidence is judged by: the revision of the task that was accepted,
the verification, and the state the task was to reach.
-/
import OpenTulid.Workflow
import OpenTulid.Runtime.Revision

namespace OpenTulid

/-- What evidence reads of a verification report. -/
structure VerificationReport where
  /-- the statuses of its checks -/
  checks : List String
  sourceMutated : Bool := false
  notRunChecks : List String := []
  candidateId : Option String := none
  candidateManifest : Option Manifest := none
  deriving DecidableEq, Repr

/-- The journal record of an acceptance. -/
structure AcceptanceJournal extends TransactionJournalRecord where
  taskRevision : Option TaskRevision := none
  verificationAccepted : Bool := false
  verificationReport : Option VerificationReport := none
  expectedToState : Option String := none
  deriving DecidableEq

/-- A journal store: a record by its id when it can be loaded, and the
records still prepared when they can be listed. -/
structure JournalStore where
  load : JournalId → Option AcceptanceJournal
  listIncomplete : Option (List TransactionJournalRecord)

/-- What `accepted_task_evidence` is judged against. -/
structure EvidenceContext where
  workflow : WorkflowDefinition
  journals : Option JournalStore
  /-- lower case -/
  lower : String → String
  /-- `_validate_review_result` -/
  reviewResultErrors : Option String → List DomainError
  /-- with a repository: the commit is an ancestor of the tip, as Git
  answers in time -/
  isAncestor : Option (String → Bool)

/-- The conjuncts of a verified success. -/
structure SuccessfulCompletionCriteria where
  acceptanceVerified : Bool
  deliveryTransactionCommitted : Bool
  reviewSatisfied : Bool
  finalStateConsistent : Bool
  deriving DecidableEq, Repr

/-- All of them hold. -/
def SuccessfulCompletionCriteria.succeeded (c : SuccessfulCompletionCriteria) : Bool :=
  c.acceptanceVerified && c.deliveryTransactionCommitted && c.reviewSatisfied &&
    c.finalStateConsistent

/-- The spelling of a commit: 7 to 64 hexadecimal digits. -/
def commitSpelling (s : String) : Bool :=
  7 ≤ s.toList.length && s.toList.length ≤ 64 &&
    s.toList.all fun c => c.isDigit || ('a' ≤ c && c ≤ 'f')

/-- The report shows every check passed on the candidate of the journal. -/
def VerificationReport.passed (report : VerificationReport) (candidate : Option Candidate) :
    Bool :=
  report.checks ≠ [] && report.checks.all (· = "passed") && !report.sourceMutated &&
    report.notRunChecks = [] && report.candidateId = candidate.map (·.candidateId) &&
    report.candidateManifest = candidate.map (·.manifest)

namespace EvidenceContext

/-- The accepted commit is in the history of the repository. -/
def commitIntegrated (G : EvidenceContext) (job : ExecutionJob) : Bool :=
  match G.isAncestor, job.metadata.acceptance.bind (·.repositoryCommit) with
  | some isAncestor, some commit => commitSpelling commit && isAncestor commit
  | _, _ => false

/-- The verification of an acceptance: of a task under the global contract
the report must show it. -/
def verified (G : EvidenceContext) (task : Task) (journal : AcceptanceJournal) : Bool :=
  journal.verificationAccepted &&
    (!G.workflow.usesGlobalContract task ||
      journal.verificationReport.any fun report => report.passed journal.context.candidate)

/-- `accepted_task_evidence`. -/
def acceptedTaskEvidence (G : EvidenceContext) (job : ExecutionJob) (task : Task)
    (identities : List SourceIdentity) (targetState : Option String) : Bool :=
  if job.status ≠ .accepted then false
  else match G.workflow.transitions.get job.transitionId with
  | none => false
  | some transition =>
  if transition.taskType ≠ task.taskType then false
  else match job.metadata.acceptance, G.journals with
  | some acceptance, some journals =>
      match journals.load acceptance.acceptanceTransactionId with
      | none => false
      | some journal =>
          if journal.taskId ≠ some task.id ∨ journal.projectId ≠ job.projectId ∨
              journal.transitionId ≠ some job.transitionId then false
          else if journal.taskRevision ≠ some (taskSemanticRevision G.lower task identities) ∨
              journal.context.jobId ≠ some job.jobId then false
          else if G.workflow.usesGlobalContract task ∧
              journal.context.repositoryBaseCommit.any (· ≠ "") ∧
              !G.commitIntegrated job then false
          else SuccessfulCompletionCriteria.succeeded {
            acceptanceVerified := G.verified task journal
            deliveryTransactionCommitted := journal.status = .committed
            reviewSatisfied := !transition.review ||
              G.reviewResultErrors (job.metadata.acceptance.bind (·.reviewResult)) = []
            finalStateConsistent :=
              journal.expectedToState = some (targetState.getD task.currentState) }
  | _, _ => false

end EvidenceContext

end OpenTulid
