/-
How an execution contract is compiled from the project's commands, the
repository as it was scanned, and the task's linked context.

`packet` is what `build_context_packet` answers for the task
(`Runtime/Context.lean`). It reads a body as lines; `Project.lines` tells
which lines the text of a body is. The project's `contract.yaml` and the
repository come in as loaded and scanned; a command and a scanned file carry
what the loader and the file system see to, that they have a name.
-/
import OpenTulid.Contract.Loading
import OpenTulid.Runtime.ExecutionContracts
import Mathlib.Algebra.Ring.Int.Defs

namespace OpenTulid.Frozen

open Json (Fields)
open OpenTulid (strip utf8)

-- ================================================== the project's commands

/-- A command of the project's contract, as `_parse_commands` lets it
through. -/
structure ProjectCommand where
  name : String
  argv : List String
  workingDirectory : String := "."
  timeoutSeconds : Int := 300
  exitCode : Int := 0
  named : name ≠ ""
  filled : "" ∉ argv
  placed : workingDirectory ≠ ""

/-- The commands of the project's contract. -/
structure StandardContract where
  commands : List ProjectCommand

/-- `_validate_global_commands`. -/
def validateGlobalCommands (standard : StandardContract) : List DomainError :=
  (if standard.commands = [] then
    [⟨"contract.commands_missing",
      "Project global contract must define at least one verification command.",
      some "contract.yaml:commands"⟩]
  else []) ++
  (standard.commands.filter fun command => command.argv = []).map fun command =>
    ⟨"contract.command_argv_empty",
      s!"Contract command '{command.name}' has an empty argv array.",
      some s!"contract.yaml:commands.{command.name}"⟩

/-- `_global_command_check`. -/
def globalCommandCheck (command : ProjectCommand) : ResolvedCheck where
  id := command.name
  source := "standard"
  runner := "command"
  argv := command.argv
  workingDirectory := command.workingDirectory
  timeoutSeconds := command.timeoutSeconds
  expect := { exitCode := command.exitCode }

/-- `_global_contract_draft`, with the digest of the task's intent. -/
def globalContractDraft (task : Task) (intent : String) : ImplementationContractDraft where
  schema := globalSchema
  sourceTaskId := task.id
  sourceIntentSha256 := intent
  profile := "code_change"
  objective :=
    let title := strip task.title
    if strip task.body = "" then s!"Implement {title}." else strip task.body
  changeSurface := {}
  requirements := []
  focusedChecks := []
  invariants := []

-- ========================================================== the repository

/-- A file as it is found in a repository. -/
structure ScannedFile where
  path : String
  sha256 : String
  size : Nat
  mode : Nat
  named : path ≠ ""
  hashed : sha256 ≠ ""

/-- What a scan of a repository finds. -/
structure RepositoryScan where
  files : List ScannedFile
  topLevelEntries : List String
  manifests : List String
  detectedEntrypoints : List String
  gitRepository : Bool
  baseCommit : Option String
  dirty : Option Bool
  selection : SourceSelection
  named : "" ∉ topLevelEntries ++ manifests ++ detectedEntrypoints

variable (S : Sha256)

/-- The manifest entry of a file. -/
def ScannedFile.entry (file : ScannedFile) : FileManifestEntry where
  path := file.path
  sha256 := file.sha256
  size := file.size
  mode := some ⟨.int file.mode, nofun⟩

/-- `_baseline_manifest`. -/
def baselineManifest (entries : List FileManifestEntry) : BaselineManifest :=
  let ordered := entries.insertionSort fun a b => a.path ≤ b.path
  { schema := "tulid.baseline-manifest/v1"
    entries := ordered
    sha256 := S.canonical (.obj [
      ("schema", .str "tulid.baseline-manifest/v1"),
      ("entries", .arr (ordered.map entryToDict))]) }

/-- `_repository_facts`. -/
def repositoryFacts (available git : Bool) (baseCommit : Option String) (dirty : Option Bool)
    (topLevelEntries manifests detectedEntrypoints : List String)
    (baseline : BaselineManifest) (selection : Option SourceSelection) : RepositoryFacts where
  schema := "tulid.repository-facts/v1"
  repositoryAvailable := available
  gitRepository := git
  baseCommit := baseCommit
  dirty := dirty
  topLevelEntries := topLevelEntries
  manifests := manifests
  detectedEntrypoints := detectedEntrypoints
  fileCount := baseline.entries.length
  totalBytes := (baseline.entries.map (·.size)).sum
  sha256 := S.canonical (.obj [
    ("schema", .str "tulid.repository-facts/v1"),
    ("repository_available", .bool available),
    ("git_repository", .bool git),
    ("base_commit", orNull baseCommit),
    ("dirty", (dirty.map Json.bool).getD .null),
    ("top_level_entries", strings topLevelEntries),
    ("manifests", strings manifests),
    ("detected_entrypoints", strings detectedEntrypoints),
    ("file_count", .int baseline.entries.length),
    ("total_bytes", .int (baseline.entries.map (·.size)).sum),
    ("baseline_manifest_sha256", .str baseline.sha256),
    ("source_selection", (selection.map sourceSelectionToDict).getD .null)])
  sourceSelection := selection

/-- What a contract takes from the repository. -/
structure RepositorySnapshot where
  facts : RepositoryFacts
  baseline : BaselineManifest

/-- `capture_repository_snapshot`, from what a scan finds if there is a
repository. -/
def captureRepositorySnapshot : Option RepositoryScan → RepositorySnapshot
  | none =>
      let baseline := baselineManifest S []
      ⟨repositoryFacts S false false none none [] [] [] baseline none, baseline⟩
  | some scan =>
      let baseline := baselineManifest S (scan.files.map (·.entry))
      ⟨repositoryFacts S true scan.gitRepository scan.baseCommit scan.dirty scan.topLevelEntries
        scan.manifests scan.detectedEntrypoints baseline (some scan.selection), baseline⟩

-- ====================================================== the linked context

/-- `_context_role_heading`. -/
def contextRoleHeading (doc : ContextDocument) : String :=
  if doc.isCanonicalQuestionRoundAnswers then
    if doc.isCurrentQuestionRoundAnswers then "Canonical QuestionRound Answers"
    else "Canonical QuestionRound Answer History"
  else if doc.isExecutionContract then "Generated Execution Contract"
  else "Linked Reference Context"

/-- `_context_role_reason`. -/
def contextRoleReason (doc : ContextDocument) : String :=
  if doc.isCanonicalQuestionRoundAnswers then
    "Settled authoritative answers the task must not re-ask or contradict."
  else if doc.isExecutionContract then
    "Boundary and interface reference the task must satisfy."
  else "Specific linked reference material applicable to this task."

/-- `_context_document_role`. -/
def contextDocumentRole (doc : ContextDocument) : String :=
  if doc.isCanonicalQuestionRoundAnswers then "answer"
  else if doc.isExecutionContract then "implementation_contract"
  else "reference"

/-- The policy `render_context_document` states for a document. -/
def contextPolicy (doc : ContextDocument) : String :=
  if doc.isCanonicalQuestionRoundAnswers then
    "This is the sole authoritative answer record for its QuestionRound. The task body is the generated question template and is not an answer source. Treat text following a supported response label in this record as the user's authoritative answer regardless of label formatting. Supported labels are \x60Your answer:\x60, \x60Answer:\x60, and \x60Response:\x60, case-insensitively, with optional Markdown emphasis around the label (for example, \x60**Answer:**\x60). Later explicit answers override earlier conflicting answers. Never re-ask a settled question; create a follow-up only for a genuinely new blocking question that no earlier answer record resolves. " ++
    if doc.isCurrentQuestionRoundAnswers then
      "Do not merge it with another version; multiple directly linked QuestionRoundFile artifacts are rejected before execution."
    else
      "This historical record remains binding unless a later explicit answer conflicts with it."
  else if doc.isExecutionContract then
    "This validated contract is binding for implementation scope, interfaces, requirements, and checks. It refines the user-requested outcome but must never broaden or replace it."
  else
    "This document is background reference material. It supports implementation decisions but does not redefine the assigned task scope."

/-- The place of a document below the project's root. -/
def documentPath (root : String) (doc : ContextDocument) : String :=
  s!"{root}/" ++ "/".intercalate doc.path

/-- `render_context_document`. -/
def renderContextDocument (root : String) (doc : ContextDocument) : String :=
  let path := documentPath root doc
  let digest := S.hexdigest doc.content
  let content := strip doc.content
  "# " ++ s!"{contextRoleHeading doc}: {doc.ref}\n" ++ s!"{contextPolicy doc}\n" ++
    s!"Source: {path}\nSHA256: {digest}\n\n" ++ content

/-- `_context_workspace_file_path`. -/
def contextWorkspaceFilePath (digest : String) : String :=
  "context/" ++ String.ofList (digest.toList.take 12) ++ ".md"

/-- Without blanks at the end. -/
def rstrip (s : String) : String :=
  String.ofList ((s.toList.reverse.dropWhile Char.isWhitespace).reverse)

/-- The text that points from a clipped excerpt to the whole file. -/
def clipMarker (workspacePath : String) : String :=
  "\n[reference clipped at resolution budget; full source is available at workspace file " ++
    workspacePath ++ "]"

/-- `_clip_context_document`. -/
def clipContextDocument (text : String) (limit : Nat) (workspacePath : String) : String :=
  let marker := clipMarker workspacePath
  if limit ≤ marker.length then String.ofList (marker.toList.take limit)
  else rstrip (String.ofList (text.toList.take (limit - marker.length))) ++ marker

/-- A document as a frozen file. -/
def freezeFile (root : String) (packet : ContextPacket) (doc : ContextDocument) :
    FrozenContextFile where
  workspacePath := contextWorkspaceFilePath (S.hexdigest doc.content)
  content := doc.content
  sha256 := S.hexdigest doc.content
  byteCount := (utf8 doc.content).length
  required := OpenTulid.contextDocumentRequired doc
  reason := contextRoleReason doc
  role := contextDocumentRole doc
  refs := (OpenTulid.frozenContextFile packet doc).refs
  sourcePaths := [documentPath root doc]

/-- The excerpts so far. -/
structure Excerpting where
  excerpts : List FrozenContextExcerpt := []
  total : Nat := 0
  seen : List String := []

/-- A document's excerpt within its own budget. -/
def excerptText (root : String) (doc : ContextDocument) : String :=
  let text := renderContextDocument S root doc
  if 1200 < text.length then
    clipContextDocument text 1200 (contextWorkspaceFilePath (S.hexdigest doc.content))
  else text

/-- The excerpts with a further one, unless it has been taken. -/
def Excerpting.add (s : Excerpting) (doc : ContextDocument) (text : String) : Excerpting :=
  let digest := S.hexdigest text
  if digest ∈ s.seen then s
  else {
    excerpts := s.excerpts ++ [{
      artifact := doc.ref
      heading := contextRoleHeading doc
      reason := contextRoleReason doc
      text := text
      sha256 := digest
      contextFilePath := some (contextWorkspaceFilePath (S.hexdigest doc.content)) }]
    total := s.total + text.length
    seen := s.seen ++ [digest] }

/-- The excerpts with that of a further document, as far as there is room. -/
def freezeExcerpt (root : String) (s : Excerpting) (doc : ContextDocument) : Excerpting :=
  let text := excerptText S root doc
  let remaining := 2000 - s.total
  if remaining < text.length then
    let clipped := clipContextDocument text remaining
      (contextWorkspaceFilePath (S.hexdigest doc.content))
    if clipped = "" then s else s.add S doc clipped
  else s.add S doc text

-- ============================================================ the contract

/-- What contracts of a project are compiled with. -/
structure Project where
  root : String
  resolver : LinkedContextResolver
  lines : String → Body
  standard : Except (List DomainError) (Option StandardContract)
  repository : Except (List DomainError) (Option RepositoryScan)

/-- The task as its links are resolved for. -/
def Task.note (P : Project) (task : Task) : OpenTulid.Task where
  id := task.id
  title := task.title
  currentState := task.currentState
  taskType := task.taskType
  dependencies := task.dependencies
  artifactLinks := task.artifactLinks
  parentId := task.parentId
  body := P.lines task.body

/-- The transition as links are resolved for. -/
def TransitionDefinition.outline (transition : TransitionDefinition) :
    OpenTulid.TransitionDefinition where
  id := transition.id
  taskType := transition.taskType
  fromState := transition.fromState
  toState := transition.toState
  worker := transition.worker
  derives := transition.derives.map fun d =>
    { taskType := d.taskType, state := d.state, artifactType := d.artifactType,
      parentToIfDerived := d.parentToIfDerived }
  requiredArtifacts := transition.requires.artifacts

/-- The packet of a task's linked context. -/
def Project.packet (P : Project) (task : Task) (transition : TransitionDefinition)
    (parents : List OpenTulid.Task) : Except (List DomainError) ContextPacket :=
  P.resolver.buildContextPacket
    (OpenTulid.taskForContext (task.note P) transition.outline) parents

/-- The contract of a task for commands, a repository and a packet; it has
no digest yet. -/
def provisionalContract (P : Project) (standard : StandardContract)
    (snapshot : RepositorySnapshot) (packet : ContextPacket) (task : Task)
    (transition : TransitionDefinition) (intent : String) : ExecutionContract where
  sourceTask := task
  transition := transition
  generatedContract := globalContractDraft task intent
  generatedContractArtifactPath := ""
  generatedContractSha256 := ""
  repositoryFacts := snapshot.facts
  baselineManifest := snapshot.baseline
  resolvedChecks := standard.commands.map globalCommandCheck
  contextExcerpts := (packet.documents.foldl (freezeExcerpt S P.root) {}).excerpts
  contextFiles := packet.documents.map (freezeFile S P.root packet)

/-- `compile_standard_execution_contract`. -/
def compileStandardExecutionContract (P : Project) (task : Task)
    (transition : TransitionDefinition) (parents : List OpenTulid.Task) :
    Except (List DomainError) ExecutionContract := do
  let standard ← P.standard
  match standard with
  | none =>
      let path := s!"{P.root}/contract.yaml"
      throw [⟨"contract.missing",
        "Implementation transitions require a project global contract.yaml.", some path⟩]
  | some standard =>
      if validateGlobalCommands standard ≠ [] then throw (validateGlobalCommands standard)
      let scan ← P.repository
      let packet ← P.packet task transition parents
      -- what cannot be written raises a `TypeError`
      let intent ← (taskSourceIntentSha256 S task).mapError fun text =>
        [⟨"TypeError", text, none⟩]
      let provisional := provisionalContract S P standard (captureRepositorySnapshot S scan)
        packet task transition intent
      let body ← (executionContractBody S provisional).mapError fun text =>
        [⟨"TypeError", text, none⟩]
      return { provisional with sha256 := S.canonical (.obj body) }

end OpenTulid.Frozen
