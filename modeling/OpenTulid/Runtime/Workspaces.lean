/-
The workspace of a job, and the files the host writes into it.

# The calls

A program of the host makes system calls on a file system with links
(`Call`), and the host may refuse to make a directory or to open a file
whatever the file system says (`Host`). A file is written in two calls: the
path is opened, which makes or empties the file, and the text is written to
what was opened.

# Preparing

`prepare` makes the directories, copies the repository unless the workspace
is to be preserved, and writes the context: some files by their plain path
below `.open-tulid`, the frozen context files by the place that
`safeContextTarget` resolves and checks. `writeRuntimeBaseline` adds the
baseline of the attempt. `prepareRepair` is what a repair run does with the
workspace that the worker left.

The frozen contract and the planning inputs come in as they were loaded
from the job.
-/
import OpenTulid.Contract.Loading
import OpenTulid.Lib.Links
import OpenTulid.Lib.PosixPath
import OpenTulid.Lib.Prog

namespace OpenTulid.Workspaces

open Frozen (strings orNull)
open Links (Disk Place)

-- ================================================================== calls

/-- A system call. -/
inductive Call where
  | mkdir (path : List String)
  | isDir (path : List String)
  /-- `os.path.realpath` -/
  | realpath (path : List String)
  /-- `open` for writing: the file is made or emptied -/
  | openText (path : List String)
  | write (place : Place) (text : String)

/-- The answer of a call. -/
abbrev Call.Answer : Call → Type
  | .mkdir _ => Except Links.Errno Unit
  | .isDir _ => Bool
  | .realpath _ => Except Links.Errno Place
  | .openText _ => Except Links.Errno Place
  | .write _ _ => Unit

/-- A host: what it refuses, and how many links `os.path.realpath` follows,
which are at least those the system does. -/
structure Host where
  refuses : Call → Disk String → Bool
  patience : Nat
  enough : 40 ≤ patience

/-- What a call does. -/
def Host.exec (host : Host) : (call : Call) → Disk String → Disk String × call.Answer
  | .mkdir path, d =>
      if host.refuses (.mkdir path) d then (d, .error .refused)
      else match d.mkdir path with
        | .ok made => (made, .ok ())
        | .error e => (d, .error e)
  | .isDir path, d => (d, d.isDir path)
  | .realpath path, d => (d, d.resolve host.patience path)
  | .openText path, d =>
      if host.refuses (.openText path) d then (d, .error .refused)
      else match d.openFile "" path with
        | .ok (opened, place) => (opened, .ok place)
        | .error e => (d, .error e)
  | .write place text, d => (d.write place text, ())

/-- An exception. -/
inductive Failure where
  | os (e : Links.Errno)
  | value (text : String)
  | type (text : String)
  /-- the `RuntimeError` of a loop of links -/
  | loop

/-- A program of the host. -/
abbrev Action (α : Type) := Prog Call Call.Answer Failure α

def raise {α : Type} (failure : Failure) : Action α := .raise failure

/-- One call of `Path.mkdir`: what to do where a directory above is missing
is `missing`. -/
def mkdirOr (path : List String) (missing : Action Unit) : Action Unit :=
  .op (.mkdir path) fun
    | .ok _ => .ret ()
    | .error .missing => missing
    | .error e => .op (.isDir path) fun there => if there then .ret () else raise (.os e)

/-- `Path.mkdir(parents=True, exist_ok=True)` of a path given from its last
name up. -/
def mkdirUp : List String → Action Unit
  | [] => mkdirOr [] (raise (.os .missing))
  | name :: up =>
      let path := (name :: up).reverse
      mkdirOr path (mkdirUp up >>= fun _ => mkdirOr path (raise (.os .missing)))

/-- `Path.mkdir(parents=True, exist_ok=True)`. -/
def mkdirParents (path : List String) : Action Unit := mkdirUp path.reverse

/-- `Path.write_text`. -/
def writeText (path : List String) (text : String) : Action Unit :=
  .op (.openText path) fun
    | .error e => raise (.os e)
    | .ok place => .op (.write place text) fun _ => .ret ()

-- ================================================================= context

/-- What the texts are made with. -/
structure Texts where
  sha256 : Frozen.Sha256
  /-- `json.dumps` with sorted keys and an indent -/
  dumps : Json → String
  /-- `sanitize_task_body_for_runtime` -/
  sanitize : String → String

/-- What a planning job has frozen of its inputs. -/
structure PlanningInputs where
  sourceTask : Frozen.Task
  transition : Frozen.TransitionDefinition
  contextFiles : List Frozen.FrozenContextFile

section Context

variable (T : Texts)

/-- `_write_json`. -/
def writeJson (path : List String) (payload : Json) : Action Unit :=
  writeText path (T.dumps payload ++ "\n")

/-- `_safe_context_target`. -/
def safeContextTarget (workspace : List String) (workspacePath : String) : Action Place :=
  let relative := PosixPath.parts workspacePath
  if PosixPath.isAbsolute workspacePath || relative.contains ".." then
    raise (.value s!"unsafe frozen context path: {workspacePath}")
  else
    .op (.realpath (workspace ++ [".open-tulid", "context", relative.getLast?.getD ""])) fun
      | .error _ => raise .loop
      | .ok target =>
          .op (.realpath workspace) fun
            | .error _ => raise .loop
            | .ok root =>
                if root <+: target then .ret target
                else raise (.value s!"frozen context path escapes the workspace: {workspacePath}")

/-- The context files one after the other. -/
def writeContextFiles (workspace : List String) :
    List Frozen.FrozenContextFile → Action Unit
  | [] => .ret ()
  | file :: rest => do
      let target ← safeContextTarget workspace file.workspacePath
      mkdirParents target.dropLast
      writeText target file.content
      writeContextFiles workspace rest

/-- The entry of a context file in the list of them. -/
def contextFileEntry (file : Frozen.FrozenContextFile) : Json := .obj [
  ("workspace_path", .str file.workspacePath),
  ("sha256", .str file.sha256),
  ("byte_count", .int file.byteCount),
  ("required", .bool file.required),
  ("role", .str file.role),
  ("refs", strings file.refs),
  ("reason", .str file.reason)]

/-- `_write_frozen_context_files`. -/
def writeFrozenContextFiles (workspace : List String) (files : List Frozen.FrozenContextFile) :
    Action Unit := do
  let contextDir := workspace ++ [".open-tulid", "context"]
  mkdirParents contextDir
  writeContextFiles workspace files
  writeJson T (contextDir ++ ["context-files.json"]) (.obj [
    ("schema", .str "tulid.context-files/v1"),
    ("files", .arr (files.map contextFileEntry))])

/-- The path as a text. -/
def pathText (path : List String) : String := "/" ++ "/".intercalate path

/-- The context of a job. -/
def contextPayload (workspace outputDir : List String) (job : Frozen.ExecutionJob)
    (task : Frozen.Task) (transition : Frozen.TransitionDefinition)
    (completionEndpoint : Option String) (executionContract : Option Frozen.ExecutionContract) :
    Except Failure Json := do
  let intent ← (Frozen.taskSourceIntentSha256 T.sha256 task).mapError .type
  let metadata ← match Frozen.dumped (.dict task.metadata) with
    | some metadata => .ok metadata
    | none => .error (.type "keys must be str, int, float, bool or None")
  let whenFrozen (path : String) : Json := if executionContract.isSome then .str path else .null
  return .obj [
    ("job_id", .str job.jobId),
    ("project_id", .str job.projectId),
    ("task_id", .str job.taskId),
    ("transition_id", .str job.transitionId),
    ("worker_id", .str job.workerId),
    ("from_state", .str transition.fromState),
    ("to_state", .str transition.toState),
    ("required_artifacts", strings transition.requires.artifacts),
    ("required_validations", strings (transition.requires.validations.map (·.type))),
    ("completion_endpoint", orNull completionEndpoint),
    ("workspace_path", .str (pathText workspace)),
    ("output_path", .str (pathText outputDir)),
    ("container_output_path", .str "/workspace/project/output"),
    ("source_intent_sha256", .str intent),
    ("execution_contract_sha256", orNull (executionContract.map (·.sha256))),
    ("execution_contract_path", whenFrozen ".open-tulid/execution-contract.json"),
    ("repository_facts_path", whenFrozen ".open-tulid/repository-facts.json"),
    ("baseline_manifest_path", whenFrozen ".open-tulid/baseline-manifest.json"),
    ("task", .obj [
      ("id", .str task.id),
      ("title", .str task.title),
      ("path", .str task.path),
      ("type", .str task.taskType),
      ("state", .str task.currentState),
      ("dependencies", strings task.dependencies),
      ("artifact_links", strings task.artifactLinks),
      ("parent_id", orNull task.parentId),
      ("metadata", metadata),
      ("body", .str (T.sanitize task.body))])]

/-- A value, or an exception. -/
def ofExcept {α : Type} : Except Failure α → Action α
  | .ok a => .ret a
  | .error failure => raise failure

/-- `_write_context`. -/
def writeContext (workspace outputDir : List String) (job : Frozen.ExecutionJob)
    (task : Frozen.Task) (transition : Frozen.TransitionDefinition)
    (completionEndpoint : Option String) (executionContract : Option Frozen.ExecutionContract) :
    Action Unit := do
  let contextDir := workspace ++ [".open-tulid"]
  mkdirParents contextDir
  let payload ← ofExcept (contextPayload T workspace outputDir job task transition
    completionEndpoint executionContract)
  writeJson T (contextDir ++ ["job-context.json"]) payload
  match executionContract with
  | none => .ret ()
  | some contract => do
      let stored ← ofExcept ((Frozen.executionContractToDict T.sha256 contract).mapError .type)
      writeJson T (contextDir ++ ["execution-contract.json"]) (.obj stored)
      writeJson T (contextDir ++ ["repository-facts.json"])
        (Frozen.repositoryFactsToDict contract.repositoryFacts)
      writeJson T (contextDir ++ ["baseline-manifest.json"])
        (Frozen.baselineManifestToDict contract.baselineManifest)
      writeFrozenContextFiles T workspace contract.contextFiles

-- =============================================================== preparing

/-- What preparing answers. -/
abbrev WorkspacePrepareResult := Except DomainError Unit

/-- What a job is prepared from. -/
structure Preparation where
  job : Frozen.ExecutionJob
  task : Frozen.Task
  transition : Frozen.TransitionDefinition
  completionEndpoint : Option String := none
  /-- `load_job_execution_contract` -/
  frozen : Except DomainError (Option Frozen.ExecutionContract)
  /-- `load_planning_inputs` -/
  planning : Except String (Option PlanningInputs)

/-- `Path(job.workspace_path)`. -/
def Preparation.workspace (preparation : Preparation) : List String :=
  PosixPath.parts preparation.job.workspacePath

/-- The failure of a preparation. -/
def prepareFailed (workspace : List String) : Failure → Action WorkspacePrepareResult
  | .loop => raise .loop
  | _ => .ret (.error ⟨"workspace.prepare_failed", "Cannot prepare workspace",
      some (pathText workspace)⟩)

/-- `WorkspacePreparer.prepare`. `copy` is the copying of the repository with
its checks, which may end the preparation with an error. -/
def prepare (copy : Action (Option DomainError)) (preserveWorkspace : Bool)
    (preparation : Preparation) : Action WorkspacePrepareResult :=
  let workspace := preparation.workspace
  let outputDir := workspace ++ ["output"]
  match preparation.frozen with
  | .error e => .ret (.error e)
  | .ok contract =>
      Prog.tryCatch (do
        let planning ← ofExcept (preparation.planning.mapError .value)
        let task := (planning.map (·.sourceTask)).getD preparation.task
        let transition := (planning.map (·.transition)).getD preparation.transition
        mkdirParents workspace
        mkdirParents outputDir
        let refused ← if preserveWorkspace then .ret none else copy
        match refused with
        | some e => .ret (.error e)
        | none => do
            writeContext T workspace outputDir preparation.job task transition
              preparation.completionEndpoint contract
            match planning with
            | none => .ret (.ok ())
            | some planning => do
                writeFrozenContextFiles T workspace planning.contextFiles
                return .ok ())
        (prepareFailed workspace)

/-- The baseline of an attempt. -/
structure RuntimeBaseline where
  schema : String
  sourceRoot : Option String
  sourceRevision : Option String
  sourceDirty : Option Bool
  dirtyPatchIdentity : Option String
  installedTulidLocation : Option String
  installedTulidRevision : Option String
  workflowHash : String
  commandPolicyHash : Option String
  workerImageIdentity : Option String
  workerId : String
  effectiveWorkerConfig : Json.Fields
  sha256 : String

/-- `baseline_to_dict`. -/
def baselineToDict (baseline : RuntimeBaseline) : Json := .obj [
  ("schema", .str baseline.schema),
  ("source_root", orNull baseline.sourceRoot),
  ("source_revision", orNull baseline.sourceRevision),
  ("source_dirty", (baseline.sourceDirty.map Json.bool).getD .null),
  ("dirty_patch_identity", orNull baseline.dirtyPatchIdentity),
  ("installed_tulid_location", orNull baseline.installedTulidLocation),
  ("installed_tulid_revision", orNull baseline.installedTulidRevision),
  ("workflow_hash", .str baseline.workflowHash),
  ("command_policy_hash", orNull baseline.commandPolicyHash),
  ("worker_image_identity", orNull baseline.workerImageIdentity),
  ("worker_id", .str baseline.workerId),
  ("effective_worker_config", .obj baseline.effectiveWorkerConfig),
  ("sha256", .str baseline.sha256)]

/-- `write_runtime_baseline`. -/
def writeRuntimeBaseline (baseline : RuntimeBaseline) (workspace : List String) :
    Action Unit := do
  let target := workspace ++ [".open-tulid", "runtime-baseline.json"]
  mkdirParents (workspace ++ [".open-tulid"])
  writeJson T target (baselineToDict baseline)

/-- The preparation of a repair run: the workspace is preserved, and an
accepted preparation is followed by the baseline. -/
def prepareRepair (copy : Action (Option DomainError)) (preparation : Preparation)
    (baseline : RuntimeBaseline) : Action WorkspacePrepareResult := do
  let prepared ← prepare T copy true preparation
  match prepared with
  | .error e => .ret (.error e)
  | .ok () => do
      writeRuntimeBaseline T baseline preparation.workspace
      return .ok ()

end Context

end OpenTulid.Workspaces
