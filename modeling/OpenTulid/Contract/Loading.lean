/-
How the contract frozen with a job is loaded, and how a job gets through its
file.
-/
import OpenTulid.Contract.Payload

namespace OpenTulid.Frozen

open Json (Fields)

-- =============================================================== decoders

variable (B : Builtins) (S : Sha256)

/-- `_task_from_dict`. -/
def taskFromDict (raw : Json) : Except String Task := do
  let payload ← mapping "source.task" raw
  let metadata ← objectOf "source.task.metadata must be an object" (payload.get? "metadata")
  let parentId ← stringOrNull "source.task.parent_id must be a string or null"
    (payload.get "parent_id")
  let id ← requiredString payload "id"
  let title ← requiredString payload "title"
  let path ← requiredString payload "path"
  let currentState ← requiredString payload "current_state"
  let taskType ← requiredString payload "task_type"
  let dependencies ← stringTuple B (payload.get "dependencies")
  let artifactLinks ← stringTuple B (payload.get "artifact_links")
  return {
    id, title, path, currentState, taskType, dependencies, artifactLinks, parentId
    metadata := ofFields metadata
    body := B.str ((payload.get? "body").getD (.str "")) }

/-- A validation of `_transition_from_dict`. -/
def validationFromDict (raw : Json) : Except String ValidationCallDefinition := do
  let call ← mapping "transition.requires.validations[]" raw
  let args ← objectOf "transition validation args must be an object" (call.get? "args")
  let type ← requiredString call "type"
  return { type, args := ofFields args }

/-- An operation of `_transition_from_dict`. -/
def operationFromDict (raw : Json) : Except String OperationCallDefinition := do
  let step ← mapping "transition.transaction.steps[]" raw
  let args ← objectOf "transition operation args must be an object" (step.get? "args")
  let op ← requiredString step "op"
  return { op, args := ofFields args }

/-- The transaction of `_transition_from_dict`. -/
def transactionFromDict (raw : Json) : Except String TransactionDefinition := do
  let tx ← mapping "transition.transaction" raw
  let rawSteps ← listOf "transition.transaction.steps must be a list" (tx.get? "steps")
  let steps ← rawSteps.mapM operationFromDict
  return { steps }

/-- A boolean with a default. -/
def boolOr (default : Bool) (text : String) : Option Json → Except String Bool
  | none => .ok default
  | some (.bool b) => .ok b
  | some _ => .error text

/-- A string that may be null but not empty. -/
def filledOrNull (text : String) : Json → Except String (Option String)
  | .null => .ok none
  | .str s => if s = "" then .error text else .ok (some s)
  | _ => .error text

/-- The derivation of `_transition_from_dict`. -/
def derivesFromDict (raw : Json) : Except String DerivesDefinition := do
  let derives ← mapping "transition.derives" raw
  let required ← boolOr true "transition.derives.required must be a boolean"
    (derives.get? "required")
  let parentToIfDerived ← filledOrNull
    "transition.derives.parent_to_if_derived must be a non-empty string or null"
    (derives.get "parent_to_if_derived")
  let taskType ← requiredString derives "task_type"
  let state ← requiredString derives "state"
  let artifactType ← requiredString derives "artifact_type"
  return { taskType, state, artifactType, required, parentToIfDerived }

/-- A part that is null or decoded. -/
def orAbsent {α : Type} (decode : Json → Except String α) (raw : Json) :
    Except String (Option α) :=
  match raw with
  | .null => .ok none
  | raw => (decode raw).map some

/-- `_transition_from_dict`. -/
def transitionFromDict (raw : Json) : Except String TransitionDefinition := do
  let payload ← mapping "transition" raw
  let requires ← mapping "transition.requires" (payload.get "requires")
  let items ← listOf "transition.requires.validations must be a list"
    (requires.get? "validations")
  let validations ← items.mapM validationFromDict
  let transaction ← orAbsent transactionFromDict (payload.get "transaction")
  let derives ← orAbsent derivesFromDict (payload.get "derives")
  let worker ← stringOrNull "transition.worker must be a string or null" (payload.get "worker")
  let id ← requiredString payload "id"
  let taskType ← requiredString payload "task_type"
  let fromState ← requiredString payload "from_state"
  let toState ← requiredString payload "to_state"
  let artifacts ← stringTuple B (requires.get "artifacts")
  let instructions ← stringTuple B (payload.get "instructions")
  return {
    id, taskType, fromState, toState, worker, transaction, derives, instructions
    requires := {
      artifacts, validations
      changedFilesRequired := truthy (requires.get "changed_files_required") }
    defaultForScheduler := truthy (payload.get "default_for_scheduler")
    review := given (payload.get "review") }

/-- `_global_draft_from_dict`. -/
def globalDraftFromDict (payload : Fields) : Except String ImplementationContractDraft := do
  let source ← mapping "source" (payload.get "source")
  let surface ← mapping "change_surface" (payload.get "change_surface")
  let checks ← mapping "checks" (payload.get "checks")
  let schema ← requiredString payload "schema"
  let sourceTaskId ← requiredString source "task_id"
  let sourceIntentSha256 ← requiredString source "source_intent_sha256"
  let profile ← requiredString payload "profile"
  let objective ← requiredString payload "objective"
  let add ← stringTuple B (surface.get "add")
  let edit ← stringTuple B (surface.get "edit")
  let forbidden ← stringTuple B (surface.get "forbidden")
  let maxFiles ← optionalIntValue (surface.get "max_files")
  let maxChangedLines ← optionalIntValue (surface.get "max_changed_lines")
  let requirements ← stringTuple B (payload.get "requirements")
  let invariants ← stringTuple B (checks.get "invariants")
  let acceptanceProfiles ← stringTuple B (checks.get "profiles")
  let verticalSliceExemption ← optionalStringValue (checks.get "vertical_slice_exemption")
  let failureBehavior ← stringTuple B (payload.get "failure_behavior")
  let nonGoals ← stringTuple B (payload.get "non_goals")
  return {
    schema, sourceTaskId, sourceIntentSha256, profile, objective
    changeSurface := { add, edit, forbidden, maxFiles, maxChangedLines }
    requirements, focusedChecks := [], invariants, acceptanceProfiles
    verticalSliceExemption, interfaces := [], failureBehavior, nonGoals
    contextExcerpts := [] }

/-- `_string_tuple` of the repository's facts: blank strings are passed
over. -/
def trackedTuple : Json → List String
  | .str s => [s]
  | .arr items => (items.map B.str).filter fun s => OpenTulid.strip s ≠ ""
  | _ => []

/-- An ignore file of `source_selection_from_dict`, what is no object passed
over. -/
def ignoreFileFromDict : Json → Option IgnoreFile
  | .obj item => some {
      baseDir := B.str ((Fields.get? item "base_dir").getD (.str ""))
      content := B.str ((Fields.get? item "content").getD (.str ""))
      sha256 := B.str ((Fields.get? item "sha256").getD (.str "")) }
  | _ => none

/-- The items of a list, none when it is none. -/
def itemsOf : Json → List Json
  | .arr items => items
  | _ => []

/-- The kind of source a name stands for. -/
def SelectionMode.ofName (name : String) : Except String SelectionMode :=
  if name = "git" then .ok .git
  else if name = "non_git" then .ok .non_git
  else .error "source selection mode must be 'git' or 'non_git'"

/-- `source_selection_from_dict`. -/
def sourceSelectionFromDict (payload : Fields) : Except String SourceSelection := do
  let mode ← SelectionMode.ofName (B.str ((payload.get? "mode").getD (.str "non_git")))
  let version ← B.int ((payload.get? "version").getD (.int 1))
  return {
    schema := B.str ((payload.get? "schema").getD (.str "tulid.source-selection/v1"))
    mode, version
    trackedPaths := trackedTuple B (payload.get "tracked_paths")
    ignoreFiles := (itemsOf (payload.get "ignore_files")).filterMap (ignoreFileFromDict B) }

/-- A boolean that may be null. -/
def boolOrNull (text : String) : Json → Except String (Option Bool)
  | .null => .ok none
  | .bool b => .ok (some b)
  | _ => .error text

/-- The selection of `_repository_facts_from_dict`. -/
def selectionFromDict : Json → Except String SourceSelection
  | .obj fields => sourceSelectionFromDict B fields
  | _ => .error "repository source_selection must be an object or null"

/-- `_repository_facts_from_dict`. -/
def repositoryFactsFromDict (raw : Json) : Except String RepositoryFacts := do
  let payload ← mapping "repository.facts" raw
  let baseCommit ← stringOrNull "repository base_commit must be a string or null"
    (payload.get "base_commit")
  let dirty ← boolOrNull "repository dirty must be a boolean or null" (payload.get "dirty")
  let sourceSelection ← orAbsent (selectionFromDict B) (payload.get "source_selection")
  let schema ← requiredString payload "schema"
  let topLevelEntries ← stringTuple B (payload.get "top_level_entries")
  let manifests ← stringTuple B (payload.get "manifests")
  let detectedEntrypoints ← stringTuple B (payload.get "detected_entrypoints")
  let fileCount ← B.int ((payload.get? "file_count").getD (.int 0))
  let totalBytes ← B.int ((payload.get? "total_bytes").getD (.int 0))
  let sha256 ← requiredString payload "sha256"
  return {
    schema
    repositoryAvailable := truthy (payload.get "repository_available")
    gitRepository := truthy (payload.get "git_repository")
    baseCommit, dirty, topLevelEntries, manifests, detectedEntrypoints, fileCount, totalBytes
    sha256, sourceSelection }

/-- An entry of `_baseline_manifest_from_dict`. -/
def entryFromDict (raw : Json) : Except String FileManifestEntry := do
  let item ← mapping "baseline entry" raw
  let path ← requiredString item "path"
  let sha256 ← requiredString item "sha256"
  let size ← B.int ((item.get? "size").getD (.int 0))
  return { path, sha256, size, mode := given (item.get "mode") }

/-- `_baseline_manifest_from_dict`. -/
def baselineManifestFromDict (raw : Json) : Except String BaselineManifest := do
  let payload ← mapping "repository.baseline_manifest" raw
  let items ← listOf "baseline manifest entries must be a list" (payload.get? "entries")
  let entries ← items.mapM (entryFromDict B)
  let schema ← requiredString payload "schema"
  let sha256 ← requiredString payload "sha256"
  return { schema, entries, sha256 }

/-- A list that has to be there. -/
def aList (text : String) : Json → Except String (List Json)
  | .arr items => .ok items
  | _ => .error text

/-- An entry of `_resolved_checks_from_list`. -/
def resolvedCheckFromDict (raw : Json) : Except String ResolvedCheck := do
  let payload ← mapping "resolved_checks[]" raw
  let expect ← mapping "resolved_checks[].expect" (payload.get "expect")
  let validationArgs ← objectOf "resolved check validation_args must be an object"
    (payload.get? "validation_args")
  let validationType ← stringOrNull "resolved check validation_type must be a string or null"
    (payload.get "validation_type")
  let id ← requiredString payload "id"
  let source ← requiredString payload "source"
  let runner ← requiredString payload "runner"
  let argv ← stringTuple B (payload.get "argv")
  let workingDirectory ← requiredString payload "working_directory"
  let timeoutSeconds ← B.int ((payload.get? "timeout_seconds").getD (.int 120))
  let exitCode ← B.int ((expect.get? "exit_code").getD (.int 0))
  let stdoutContains ← stringTuple B (expect.get "stdout_contains")
  let stderrContains ← stringTuple B (expect.get "stderr_contains")
  return {
    id, source, runner, argv, validationType, validationArgs := ofFields validationArgs
    workingDirectory, timeoutSeconds
    expect := { exitCode, stdoutContains, stderrContains } }

/-- The reason of an excerpt; contracts of the first prompt compiler have
none. -/
def excerptReason (legacyMissingReason : Bool) (raw : Json) : Except String String :=
  match raw with
  | .null =>
      if legacyMissingReason then .ok "Required to implement the generated contract."
      else .error "reason must be a non-empty string"
  | .str s => if s = "" then .error "reason must be a non-empty string" else .ok s
  | _ => .error "reason must be a non-empty string"

/-- An entry of `_context_excerpts_from_list`. -/
def excerptFromDict (legacyMissingReason : Bool) (raw : Json) :
    Except String FrozenContextExcerpt := do
  let payload ← mapping "context_excerpts[]" raw
  let text ← requiredString payload "text"
  let sha256 ← requiredString payload "sha256"
  demand (S.hexdigest text = sha256) "context excerpt hash mismatch"
  let reason ← excerptReason legacyMissingReason (payload.get "reason")
  let contextFilePath ← filledOrNull "context_file_path must be a non-empty string or null"
    (payload.get "context_file_path")
  let artifact ← requiredString payload "artifact"
  let heading ← requiredString payload "heading"
  return { artifact, heading, reason, text, sha256, contextFilePath }

/-- The size of a frozen file, checked. -/
def byteCountOf (content : String) (raw : Option Json) : Except String Int :=
  match raw.getD (.int 0) with
  | .int n =>
      if n ≠ (OpenTulid.utf8 content).length then .error "context file byte_count mismatch"
      else .ok n
  | _ => .error "context file byte_count must be an integer"

/-- The place of a frozen file lies in the context area. -/
def inContextArea (workspacePath : String) : Bool :=
  !OpenTulid.isAbsolute workspacePath && ".." ∉ OpenTulid.pathParts workspacePath &&
    (OpenTulid.pathParts workspacePath).head? = some "context"

/-- An entry of `_context_files_from_list`. -/
def contextFileFromDict (raw : Json) : Except String FrozenContextFile := do
  let payload ← mapping "context_files[]" raw
  let content ← requiredString payload "content"
  let sha256 ← requiredString payload "sha256"
  demand (S.hexdigest content = sha256) "context file hash mismatch"
  let byteCount ← byteCountOf content (payload.get? "byte_count")
  let required ← boolOr false "context file required must be a boolean" (payload.get? "required")
  let reason ← requiredString payload "reason"
  let role := B.str ((payload.get? "role").getD (.str "reference"))
  let workspacePath ← requiredString payload "workspace_path"
  demand (inContextArea workspacePath = true)
    "context file workspace_path must be a safe context path"
  let refs ← stringTuple B (payload.get "refs")
  let sourcePaths ← stringTuple B (payload.get "source_paths")
  return {
    workspacePath, content, sha256, byteCount, required, reason
    role := if role = "" then "reference" else role
    refs, sourcePaths }

-- ==================================================================== jobs

/-- A job as it is stored. -/
structure ExecutionJob where
  jobId : String
  projectId : String
  taskId : String
  transitionId : String
  workerId : String
  workspacePath : String
  status : String := "created"
  attempts : Int := 0
  metadata : Fields := []

/-- `_job_to_payload`. -/
def jobToPayload (job : ExecutionJob) : Json := .obj [
  ("job_id", .str job.jobId),
  ("project_id", .str job.projectId),
  ("task_id", .str job.taskId),
  ("transition_id", .str job.transitionId),
  ("worker_id", .str job.workerId),
  ("workspace_path", .str job.workspacePath),
  ("status", .str job.status),
  ("attempts", .int job.attempts),
  ("metadata", .obj job.metadata)]

/-- `_required_string` of the job store. -/
def requiredJobField (payload : Fields) (key : String) : Except String String :=
  match payload.get key with
  | .str s => if s = "" then .error s!"job field '{key}' must be a non-empty string" else .ok s
  | _ => .error s!"job field '{key}' must be a non-empty string"

/-- `_job_from_payload`. -/
def jobFromPayload (raw : Json) : Except String ExecutionJob := do
  let payload ← mapping "job" raw
  let metadata ← objectOf "job metadata must be an object" (payload.get? "metadata")
  let jobId ← requiredJobField payload "job_id"
  let projectId ← requiredJobField payload "project_id"
  let taskId ← requiredJobField payload "task_id"
  let transitionId ← requiredJobField payload "transition_id"
  let workerId ← requiredJobField payload "worker_id"
  let workspacePath ← requiredJobField payload "workspace_path"
  let status ← requiredJobField payload "status"
  let attempts ← B.int ((payload.get? "attempts").getD (.int 0))
  return { jobId, projectId, taskId, transitionId, workerId, workspacePath, status, attempts,
           metadata }

-- ================================================================= loading

/-- The value is a string. -/
def isText (s : String) : Json → Bool
  | .str t => t = s
  | _ => false

/-- The schema of contracts that were made from the project's commands. -/
def globalSchema : String := "tulid.global_contract/v1"

/-- What the generated contract of a payload is, with its artifact. -/
def generatedFromDict (legacy : Fields → Except String ImplementationContractDraft)
    (raw : Json) : Except String (ImplementationContractDraft × String × String) := do
  let payload ← mapping "generated_contract" raw
  if isText globalSchema (payload.get "schema") then
    let generated ← globalDraftFromDict B payload
    return (generated, B.str ((payload.get? "artifact_path").getD (.str "")),
      B.str ((payload.get? "artifact_sha256").getD (.str "")))
  else
    let generated ← legacy ((payload.erase "artifact_path").erase "artifact_sha256")
    let artifactPath ← requiredString payload "artifact_path"
    let artifactSha256 ← requiredString payload "artifact_sha256"
    return (generated, artifactPath, artifactSha256)

/-- The parts of a payload that has passed its integrity check. -/
def contractFromPayload (legacy : Fields → Except String ImplementationContractDraft)
    (expectedHash : String) (payload : Fields) : Except String ExecutionContract := do
  let source ← mapping "source" (payload.get "source")
  let sourceTask ← taskFromDict B (source.get "task")
  let transition ← transitionFromDict B (payload.get "transition")
  let generated ← generatedFromDict B legacy (payload.get "generated_contract")
  let repository ← mapping "repository" (payload.get "repository")
  let facts ← repositoryFactsFromDict B (repository.get "facts")
  let baseline ← baselineManifestFromDict B (repository.get "baseline_manifest")
  let checks ← aList "resolved_checks must be a list" (payload.get "resolved_checks")
  let resolvedChecks ← checks.mapM (resolvedCheckFromDict B)
  let excerpts ← listOf "context_excerpts must be a list" (payload.get? "context_excerpts")
  let contextExcerpts ← excerpts.mapM
    (excerptFromDict S (equalsInt 1 (payload.get "prompt_compiler_version")))
  let files ← listOf "context_files must be a list" (payload.get? "context_files")
  let contextFiles ← files.mapM (contextFileFromDict B S)
  return {
    sourceTask, transition
    generatedContract := generated.1
    generatedContractArtifactPath := generated.2.1
    generatedContractSha256 := generated.2.2
    repositoryFacts := facts
    baselineManifest := baseline
    resolvedChecks, contextExcerpts, contextFiles
    sha256 := expectedHash }

/-- A version of the prompt compiler that is still read. -/
def supportedPromptCompilerVersion : Json → Bool
  | .bool _ => false
  | version => equalsInt 1 version || equalsInt 2 version || equalsInt 3 version ||
      equalsInt 4 version

/-- The payload is the one its digest was taken of, and of a version that is
read. -/
def intact (expectedHash : String) (raw : Fields) : Bool :=
  isText expectedHash (raw.get "sha256") &&
  S.canonical (.obj (raw.erase "sha256")) = expectedHash &&
  isText "tulid.execution/v1" (raw.get "schema") &&
  equalsInt 1 (raw.get "compiler_version") &&
  supportedPromptCompilerVersion (raw.get "prompt_compiler_version")

/-- `load_job_execution_contract`. -/
def loadJobExecutionContract
    (legacy : Fields → Except String ImplementationContractDraft) (required : Bool)
    (job : ExecutionJob) : Except (List DomainError) (Option ExecutionContract) :=
  match job.metadata.get "execution_contract", job.metadata.get "execution_contract_sha256" with
  | .null, .null =>
      if required then
        .error [⟨"execution_contract.missing",
          s!"Execution job '{job.jobId}' has no frozen execution contract.", some job.jobId⟩]
      else .ok none
  | .obj raw, .str expectedHash =>
      if ¬ intact S expectedHash raw then
        .error [⟨"execution_contract.hash_mismatch",
          "Frozen execution contract failed its integrity check.", some job.jobId⟩]
      else match contractFromPayload B S legacy expectedHash (Fields.erase raw "sha256") with
      | .error text => .error [⟨"execution_contract.corrupt",
          s!"Frozen execution contract cannot be loaded: {text}", some job.jobId⟩]
      | .ok contract =>
          if contract.sourceTask.id ≠ job.taskId ∨ contract.transition.id ≠ job.transitionId ∨
              contract.transition.worker ≠ some job.workerId then
            .error [⟨"execution_contract.job_mismatch",
              "Frozen execution contract does not match its execution job.", some job.jobId⟩]
          else .ok (some contract)
  | _, _ => .error [⟨"execution_contract.corrupt",
      "Frozen execution contract metadata is incomplete.", some job.jobId⟩]

end OpenTulid.Frozen
