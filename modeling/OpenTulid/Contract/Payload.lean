/-
Frozen execution contracts: the records, what is stored of them with a job,
and how a job's contract is loaded.

Encoders and decoders are written by hand, one for each record, and the
decoders are the stricter side: most strings may not be empty. The payload
carries its own digest, the SHA-256 of its canonical text without it
(`canonicalSha256`).

The order of the entries of an object is kept where a job is written and
read; no comparison of dictionaries sees it. `Builtins` is what the decoders
use of `str` and `int`, `legacy` the parser of contracts that were authored
for a task.
-/
import OpenTulid.Contract.Values
import OpenTulid.Runtime.Context

namespace OpenTulid.Frozen

open Json (Fields)

-- =============================================================== digests

/-- SHA-256 as a function from texts to hexadecimal digests, taken as free
of collisions. -/
structure Sha256 where
  hexdigest : String → String
  injective : Function.Injective hexdigest
  nonempty : ∀ text, hexdigest text ≠ ""
  digits : ∀ text, ∀ c ∈ (hexdigest text).toList, c ∈ "0123456789abcdef".toList

/-- `canonical_sha256`. -/
def Sha256.canonical (S : Sha256) (payload : Json) : String :=
  S.hexdigest (String.ofList payload.canon.text)

-- ========================================================= the definitions

/-- A task as the domain has it. -/
structure Task where
  id : String
  title : String
  path : String
  currentState : String
  taskType : String := "task"
  dependencies : List String := []
  artifactLinks : List String := []
  parentId : Option String := none
  metadata : Entries := []
  body : String := ""

/-- A validation with its arguments. -/
structure ValidationCallDefinition where
  type : String
  args : Entries

/-- An operation with its arguments. -/
structure OperationCallDefinition where
  op : String
  args : Entries

/-- What a transition requires. -/
structure RequirementDefinition where
  artifacts : List String := []
  validations : List ValidationCallDefinition := []
  changedFilesRequired : Bool := false

/-- The operations of a transition. -/
structure TransactionDefinition where
  steps : List OperationCallDefinition

/-- The tasks a transition derives. -/
structure DerivesDefinition where
  taskType : String
  state : String
  artifactType : String
  required : Bool := true
  parentToIfDerived : Option String := none

/-- One allowed state transition. -/
structure TransitionDefinition where
  id : String
  taskType : String
  fromState : String
  toState : String
  worker : Option String
  requires : RequirementDefinition
  transaction : Option TransactionDefinition
  derives : Option DerivesDefinition := none
  defaultForScheduler : Bool := false
  instructions : List String := []
  /-- a boolean where it comes from a workflow -/
  review : Option Given := none

-- ========================================================= the repository

/-- A file of the baseline. -/
structure FileManifestEntry where
  path : String
  sha256 : String
  size : Int
  /-- an integer where it comes from a scan -/
  mode : Option Given := none

/-- The files a job starts from. -/
structure BaselineManifest where
  schema : String
  entries : List FileManifestEntry
  sha256 : String

/-- One `.gitignore`. -/
structure IgnoreFile where
  baseDir : String
  content : String
  sha256 : String

/-- The kinds of source. -/
inductive SelectionMode where
  | git
  | non_git
  deriving DecidableEq

/-- The name of a kind. -/
def SelectionMode.value : SelectionMode → String
  | git => "git"
  | non_git => "non_git"

/-- The rule that tells which files of a repository are source. -/
structure SourceSelection where
  schema : String
  mode : SelectionMode
  version : Int := 1
  trackedPaths : List String := []
  ignoreFiles : List IgnoreFile := []

/-- What is known of a repository. -/
structure RepositoryFacts where
  schema : String
  repositoryAvailable : Bool
  gitRepository : Bool
  baseCommit : Option String
  dirty : Option Bool
  topLevelEntries : List String
  manifests : List String
  detectedEntrypoints : List String
  fileCount : Int
  totalBytes : Int
  sha256 : String
  sourceSelection : Option SourceSelection := none

-- =========================================================== the contract

/-- When a check has passed. -/
structure CheckExpectation where
  exitCode : Int := 0
  stdoutContains : List String := []
  stderrContains : List String := []

/-- A check of a contract that was authored for a task. -/
structure ContractCheck where
  id : String
  argv : List String
  timeoutSeconds : Int
  expect : CheckExpectation

/-- An interface of a contract that was authored for a task. -/
structure ContractInterface where
  symbol : String
  behavior : String
  signature : Option String := none

/-- An excerpt a contract that was authored for a task asks for. -/
structure ContextExcerpt where
  artifact : String
  heading : String
  reason : String := "Required to implement the generated contract."

/-- The files a contract that was authored for a task allows. -/
structure ChangeSurface where
  add : List String := []
  edit : List String := []
  forbidden : List String := []
  maxFiles : Option Int := none
  maxChangedLines : Option Int := none

/-- The contract as the worker sees it. -/
structure ImplementationContractDraft where
  schema : String
  sourceTaskId : String
  sourceIntentSha256 : String
  profile : String
  objective : String
  changeSurface : ChangeSurface
  requirements : List String
  focusedChecks : List ContractCheck
  invariants : List String
  acceptanceProfiles : List String := []
  verticalSliceExemption : Option String := none
  interfaces : List ContractInterface := []
  failureBehavior : List String := []
  nonGoals : List String := []
  contextExcerpts : List ContextExcerpt := []

/-- A command to verify with. -/
structure ResolvedCheck where
  id : String
  source : String
  runner : String
  argv : List String := []
  validationType : Option String := none
  validationArgs : Entries := []
  workingDirectory : String := "."
  timeoutSeconds : Int := 120
  expect : CheckExpectation := {}

/-- A part of a linked document, for the prompt. -/
structure FrozenContextExcerpt where
  artifact : String
  heading : String
  reason : String
  text : String
  sha256 : String
  contextFilePath : Option String := none

/-- A linked document in full. -/
structure FrozenContextFile where
  workspacePath : String
  content : String
  sha256 : String
  byteCount : Int
  required : Bool
  reason : String
  role : String := "reference"
  refs : List String := []
  sourcePaths : List String := []

/-- The contract frozen with a job. -/
structure ExecutionContract where
  sourceTask : Task
  transition : TransitionDefinition
  generatedContract : ImplementationContractDraft
  generatedContractArtifactPath : String
  generatedContractSha256 : String
  repositoryFacts : RepositoryFacts
  baselineManifest : BaselineManifest
  resolvedChecks : List ResolvedCheck
  contextExcerpts : List FrozenContextExcerpt := []
  contextFiles : List FrozenContextFile := []
  sha256 : String := ""

-- =============================================================== encoders

/-- `_task_to_dict`. -/
def taskToDict (task : Task) : Json := .obj [
  ("id", .str task.id),
  ("title", .str task.title),
  ("path", .str task.path),
  ("current_state", .str task.currentState),
  ("task_type", .str task.taskType),
  ("dependencies", strings task.dependencies),
  ("artifact_links", strings task.artifactLinks),
  ("parent_id", orNull task.parentId),
  ("metadata", jsonValue (.dict task.metadata)),
  ("body", .str task.body)]

/-- A call with its arguments, under the name its kind has. -/
def callToDict (name callee : String) (args : Entries) : Json := .obj [
  (name, .str callee),
  ("args", jsonValue (.dict args))]

/-- A derivation, stored. -/
def derivesToDict (derives : DerivesDefinition) : Json := .obj [
  ("task_type", .str derives.taskType),
  ("state", .str derives.state),
  ("artifact_type", .str derives.artifactType),
  ("required", .bool derives.required),
  ("parent_to_if_derived", orNull derives.parentToIfDerived)]

/-- `_transition_to_dict`. -/
def transitionToDict (transition : TransitionDefinition) : Json := .obj ([
  ("id", .str transition.id),
  ("task_type", .str transition.taskType),
  ("from_state", .str transition.fromState),
  ("to_state", .str transition.toState),
  ("worker", orNull transition.worker),
  ("requires", .obj [
    ("artifacts", strings transition.requires.artifacts),
    ("validations", .arr (transition.requires.validations.map fun call =>
      callToDict "type" call.type call.args)),
    ("changed_files_required", .bool transition.requires.changedFilesRequired)]),
  ("transaction", (transition.transaction.map fun transaction => Json.obj [
    ("steps", .arr (transaction.steps.map fun step =>
      callToDict "op" step.op step.args))]).getD .null),
  ("derives", (transition.derives.map derivesToDict).getD .null),
  ("default_for_scheduler", .bool transition.defaultForScheduler)] ++
  (transition.review.map fun review => ("review", review.val)).toList ++
  [("instructions", strings transition.instructions)])

/-- An expectation, stored. -/
def expectToDict (expect : CheckExpectation) : Json := .obj [
  ("exit_code", .int expect.exitCode),
  ("stdout_contains", strings expect.stdoutContains),
  ("stderr_contains", strings expect.stderrContains)]

/-- `_implementation_contract_to_dict`, with the artifact it came from. -/
def implementationContractToDict (contract : ImplementationContractDraft)
    (artifactPath artifactSha256 : String) : Json := .obj [
  ("schema", .str contract.schema),
  ("source", .obj [
    ("task_id", .str contract.sourceTaskId),
    ("source_intent_sha256", .str contract.sourceIntentSha256)]),
  ("profile", .str contract.profile),
  ("objective", .str contract.objective),
  ("change_surface", .obj [
    ("add", strings contract.changeSurface.add),
    ("edit", strings contract.changeSurface.edit),
    ("forbidden", strings contract.changeSurface.forbidden),
    ("max_files", (contract.changeSurface.maxFiles.map Json.int).getD .null),
    ("max_changed_lines", (contract.changeSurface.maxChangedLines.map Json.int).getD .null)]),
  ("interfaces", .arr (contract.interfaces.map fun interface => .obj [
    ("symbol", .str interface.symbol),
    ("signature", orNull interface.signature),
    ("behavior", .str interface.behavior)])),
  ("requirements", strings contract.requirements),
  ("failure_behavior", strings contract.failureBehavior),
  ("non_goals", strings contract.nonGoals),
  ("context_excerpts", .arr (contract.contextExcerpts.map fun excerpt => .obj [
    ("artifact", .str excerpt.artifact),
    ("heading", .str excerpt.heading),
    ("reason", .str excerpt.reason)])),
  ("checks", .obj [
    ("focused", .arr (contract.focusedChecks.map fun check => .obj [
      ("id", .str check.id),
      ("argv", strings check.argv),
      ("timeout_seconds", .int check.timeoutSeconds),
      ("expect", expectToDict check.expect)])),
    ("invariants", strings contract.invariants),
    ("profiles", strings contract.acceptanceProfiles),
    ("vertical_slice_exemption", orNull contract.verticalSliceExemption)]),
  ("artifact_path", .str artifactPath),
  ("artifact_sha256", .str artifactSha256)]

/-- `source_selection_to_dict`. -/
def sourceSelectionToDict (selection : SourceSelection) : Json := .obj [
  ("schema", .str selection.schema),
  ("mode", .str selection.mode.value),
  ("version", .int selection.version),
  ("tracked_paths", strings selection.trackedPaths),
  ("ignore_files", .arr (selection.ignoreFiles.map fun file => .obj [
    ("base_dir", .str file.baseDir),
    ("content", .str file.content),
    ("sha256", .str file.sha256)]))]

/-- `repository_facts_to_dict`. -/
def repositoryFactsToDict (facts : RepositoryFacts) : Json := .obj [
  ("schema", .str facts.schema),
  ("sha256", .str facts.sha256),
  ("repository_available", .bool facts.repositoryAvailable),
  ("git_repository", .bool facts.gitRepository),
  ("base_commit", orNull facts.baseCommit),
  ("dirty", (facts.dirty.map Json.bool).getD .null),
  ("top_level_entries", strings facts.topLevelEntries),
  ("manifests", strings facts.manifests),
  ("detected_entrypoints", strings facts.detectedEntrypoints),
  ("file_count", .int facts.fileCount),
  ("total_bytes", .int facts.totalBytes),
  ("source_selection", (facts.sourceSelection.map sourceSelectionToDict).getD .null)]

/-- An entry of a manifest, stored. -/
def entryToDict (entry : FileManifestEntry) : Json := .obj ([
  ("path", .str entry.path),
  ("sha256", .str entry.sha256),
  ("size", .int entry.size)] ++
  (entry.mode.map fun mode => ("mode", mode.val)).toList)

/-- `baseline_manifest_to_dict`. -/
def baselineManifestToDict (manifest : BaselineManifest) : Json := .obj [
  ("schema", .str manifest.schema),
  ("sha256", .str manifest.sha256),
  ("entries", .arr (manifest.entries.map entryToDict))]

/-- `_resolved_check_to_dict`. -/
def resolvedCheckToDict (check : ResolvedCheck) : Json := .obj [
  ("id", .str check.id),
  ("source", .str check.source),
  ("runner", .str check.runner),
  ("argv", strings check.argv),
  ("validation_type", orNull check.validationType),
  ("validation_args", jsonValue (.dict check.validationArgs)),
  ("working_directory", .str check.workingDirectory),
  ("timeout_seconds", .int check.timeoutSeconds),
  ("expect", expectToDict check.expect)]

/-- An excerpt, stored. -/
def excerptToDict (excerpt : FrozenContextExcerpt) : Json := .obj [
  ("artifact", .str excerpt.artifact),
  ("heading", .str excerpt.heading),
  ("reason", .str excerpt.reason),
  ("text", .str excerpt.text),
  ("sha256", .str excerpt.sha256),
  ("context_file_path", orNull excerpt.contextFilePath)]

/-- A frozen file, stored. -/
def contextFileToDict (file : FrozenContextFile) : Json := .obj [
  ("workspace_path", .str file.workspacePath),
  ("content", .str file.content),
  ("sha256", .str file.sha256),
  ("byte_count", .int file.byteCount),
  ("required", .bool file.required),
  ("reason", .str file.reason),
  ("role", .str file.role),
  ("refs", strings file.refs),
  ("source_paths", strings file.sourcePaths)]

/-- `task_source_intent_sha256`, if the task's metadata can be written. -/
def taskSourceIntentSha256 (S : Sha256) (task : Task) : Except String String :=
  match dumped (.dict task.metadata) with
  | none => .error "keys must be str, int, float, bool or None"
  | some metadata => .ok (S.canonical (.obj [
      ("id", .str task.id),
      ("title", .str task.title),
      ("path", .str task.path),
      ("task_type", .str task.taskType),
      ("dependencies", strings task.dependencies),
      ("parent_id", orNull task.parentId),
      ("metadata", metadata),
      ("body", .str task.body)]))

/-- `_execution_contract_body`. -/
def executionContractBody (S : Sha256) (contract : ExecutionContract) :
    Except String Fields := do
  let transition := transitionToDict contract.transition
  let intent ← taskSourceIntentSha256 S contract.sourceTask
  return [
    ("schema", .str "tulid.execution/v1"),
    ("compiler_version", .int 1),
    ("prompt_compiler_version", .int 4),
    ("source", .obj [
      ("task", taskToDict contract.sourceTask),
      ("source_intent_sha256", .str intent)]),
    ("generated_contract", implementationContractToDict contract.generatedContract
      contract.generatedContractArtifactPath contract.generatedContractSha256),
    ("transition", transition),
    ("transition_sha256", .str (S.canonical transition)),
    ("repository", .obj [
      ("facts", repositoryFactsToDict contract.repositoryFacts),
      ("baseline_manifest", baselineManifestToDict contract.baselineManifest)]),
    ("resolved_checks", .arr (contract.resolvedChecks.map resolvedCheckToDict)),
    ("context_excerpts", .arr (contract.contextExcerpts.map excerptToDict)),
    ("context_files", .arr (contract.contextFiles.map contextFileToDict))]

/-- `execution_contract_to_dict`. -/
def executionContractToDict (S : Sha256) (contract : ExecutionContract) :
    Except String Fields :=
  (executionContractBody S contract).map (· ++ [("sha256", .str contract.sha256)])

end OpenTulid.Frozen
