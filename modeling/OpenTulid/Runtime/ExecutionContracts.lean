/-
The sources a job is created with: the linked context frozen into an
execution contract or into planning inputs, and the revision of the task
that is recorded for the job.
-/
import OpenTulid.Runtime.Attempts
import OpenTulid.Runtime.Context

namespace OpenTulid

-- ======================================================= frozen context

/-- `_context_document_required`. -/
def contextDocumentRequired (doc : ContextDocument) : Bool :=
  if doc.isCanonicalQuestionRoundAnswers || doc.isExecutionContract then true
  else doc.required

/-- A document of the packet as a frozen file. -/
def frozenContextFile (packet : ContextPacket) (doc : ContextDocument) : FrozenContextFile where
  sha256 := doc.sha256
  required := contextDocumentRequired doc
  refs :=
    let refs := (packet.references.lookup doc.sha256).getD [doc.ref]
    if refs = [] then [doc.ref] else refs
  sourcePaths := ["/".intercalate doc.path]

/-- `_freeze_linked_context`, without the excerpts for the prompt. -/
def freezeLinkedContext (R : LinkedContextResolver) (task : Task)
    (transition : TransitionDefinition) (parents : List Task) :
    Except (List DomainError) (List FrozenContextFile) :=
  (R.buildContextPacket (taskForContext task transition) parents).map fun packet =>
    packet.documents.map (frozenContextFile packet)

-- ============================================================ contracts

/-- What a contract takes from the repository. -/
structure RepositorySnapshot where
  baselineManifest : Manifest
  gitRepository : Bool
  baseCommit : Option String
  dirty : Bool
  deriving DecidableEq, Repr

/-- `compile_standard_execution_contract`, once the project's contract has
been loaded and its commands validated. -/
def compileStandardExecutionContract (R : LinkedContextResolver)
    (repository : Except (List DomainError) RepositorySnapshot) (task : Task)
    (transition : TransitionDefinition) (parents : List Task) :
    Except (List DomainError) ExecutionContract :=
  match repository with
  | .error errors => .error errors
  | .ok snapshot =>
      (freezeLinkedContext R task transition parents).map fun files => {
        transition := transition
        sourceTask := task
        baselineManifest := snapshot.baselineManifest
        gitRepository := snapshot.gitRepository
        baseCommit := snapshot.baseCommit
        dirty := snapshot.dirty
        contextFiles := files }

/-- `compile_task_execution_contract`, once the task's own contract has been
validated: no linked context is frozen. -/
def compileTaskExecutionContract
    (repository : Except (List DomainError) RepositorySnapshot) (task : Task)
    (transition : TransitionDefinition) : Except (List DomainError) ExecutionContract :=
  repository.map fun snapshot => {
    transition := transition
    sourceTask := task
    baselineManifest := snapshot.baselineManifest
    gitRepository := snapshot.gitRepository
    baseCommit := snapshot.baseCommit
    dirty := snapshot.dirty }

/-- The planning inputs of a job: what `render_execution_prompt` freezes. -/
def freezePlanningInputs (R : LinkedContextResolver) (task : Task)
    (transition : TransitionDefinition) (parents : List Task) :
    Except (List DomainError) PlanningInputs :=
  (freezeLinkedContext R task transition parents).map fun files =>
    { transition := transition, sourceTask := task, contextFiles := files }

-- ================================================================= jobs

/-- What a new job is created with. -/
inductive JobKind where
  /-- a contract of the project's global commands -/
  | standard
  /-- a contract of the task's own, in projects from before -/
  | legacy
  /-- planning inputs -/
  | planning
  deriving DecidableEq, Repr

/-- The inputs frozen with a job. -/
inductive FrozenInputs where
  | contract (contract : ExecutionContract)
  | planning (planning : PlanningInputs)
  deriving DecidableEq, Repr

/-- What `create_execution_job` freezes. -/
def freezeInputs (R : LinkedContextResolver)
    (repository : Except (List DomainError) RepositorySnapshot) (kind : JobKind)
    (task : Task) (transition : TransitionDefinition) (parents : List Task) :
    Except (List DomainError) FrozenInputs :=
  match kind with
  | .standard =>
      (compileStandardExecutionContract R repository task transition parents).map .contract
  | .legacy => (compileTaskExecutionContract repository task transition).map .contract
  | .planning => (freezePlanningInputs R task transition parents).map .planning

/-- The revision of frozen inputs, as attempts are recorded under it. -/
def FrozenInputs.revision (lower : String → String) : FrozenInputs → TaskRevision
  | .contract c => taskSemanticRevision lower c.sourceTask (sourceContentIdentities c)
  | .planning p => taskSemanticRevision lower p.sourceTask p.sourceIdentities

/-- The contract of frozen inputs. -/
def FrozenInputs.contract? : FrozenInputs → Option ExecutionContract
  | .contract c => some c
  | .planning _ => none

/-- The planning inputs of frozen inputs. -/
def FrozenInputs.planning? : FrozenInputs → Option PlanningInputs
  | .contract _ => none
  | .planning p => some p

/-- A job is loaded with its frozen inputs. -/
def FrozenInputs.LoadedBy (E : Env) (job : ExecutionJob) : FrozenInputs → Prop
  | .contract c => E.loadPlanning job = .ok none ∧ E.loadContract job = .ok (some c)
  | .planning p => E.loadPlanning job = .ok (some p) ∧ E.loadContract job = .ok none

/-- `_acceptance_task_revision`: a job without frozen inputs takes the task
as the tracker has it. -/
def acceptanceTaskRevision (lower : String → String) (contract : Option ExecutionContract)
    (planning : Option PlanningInputs) (current : Task) : TaskRevision :=
  match contract, planning with
  | none, some planning =>
      taskSemanticRevision lower planning.sourceTask planning.sourceIdentities
  | none, none => taskSemanticRevision lower current []
  | some contract, _ =>
      taskSemanticRevision lower contract.sourceTask (sourceContentIdentities contract)

/-- The revision the scheduler computes for a task's transition. -/
def scheduledRevision (lower : String → String) (R : LinkedContextResolver) (task : Task)
    (transition : TransitionDefinition) (parents : List Task) : TaskRevision :=
  taskSemanticRevision lower task (resolveSourceContentIdentities R task transition parents)

end OpenTulid
