/-
What is hashed of a source: the selection rule, the repository facts and the
sealed candidate.

Git answers with the set of tracked paths, a directory with its entries, and
a set or a directory has no order of its own. `Enumeration` is one order in
which a process comes to see them; `discoverSourceSelection`,
`captureRepositorySnapshot` and `captureCandidate` compute from it as the
source does, sorting what the source sorts.

`Rule` is the walk over the files: it asks of the tracked paths only whether
a path is one of them. `Detector` finds the entry points in the manifest and
the files it names.
-/
import OpenTulid.Contract.Compile
import OpenTulid.Runtime.Candidate
import OpenTulid.Lib.PosixPath
import Mathlib.Data.Finset.Card

namespace OpenTulid.Frozen

-- ============================================================ the sources

/-- A file tree, as far as it is read for the digests. -/
structure Tree where
  files : List ScannedFile
  filesOnce : (files.map ScannedFile.path).Nodup
  /-- the ignore files, by their directory -/
  ignoreFiles : List (String × String)
  ignoreFilesOnce : (ignoreFiles.map Prod.fst).Nodup
  topLevel : List String
  topLevelNamed : "" ∉ topLevel

/-- A repository: its tree, and what Git says of it, the commit at its head
and the status as printed. -/
structure Repository extends Tree where
  git : Bool
  tracked : Finset String
  head : Option String
  status : Option String

/-- The rule of the walk: which paths it yields under a mode, a set of
tracked paths and the ignore files. -/
abbrev Rule := SelectionMode → Finset String → List IgnoreFile → String → Bool

/-- `_detect_entrypoints`. -/
structure Detector where
  detect : List FileManifestEntry → List String
  named : ∀ entries, "" ∉ detect entries

/-- An order in which the contents of a tree are met. -/
structure TreeOrder (tree : Tree) where
  files : List ScannedFile
  filesPerm : files.Perm tree.files
  ignoreFiles : List (String × String)
  ignoreFilesPerm : ignoreFiles.Perm tree.ignoreFiles
  topLevel : List String
  topLevelPerm : topLevel.Perm tree.topLevel

/-- An order in which a repository and the workspace of a job are met. -/
structure Enumeration (repository : Repository) (workspace : Tree) where
  tracked : List String
  trackedOnce : tracked.Nodup
  mem_tracked : ∀ path, path ∈ tracked ↔ path ∈ repository.tracked
  source : TreeOrder repository.toTree
  work : TreeOrder workspace

-- ========================================================== the selection

/-- `_depth`. -/
def depth (baseDir : String) : Nat :=
  if baseDir = "" then 0 else baseDir.toList.count '/' + 1

/-- The order of the ignore files: the shallow ones first. -/
def shallowFirst (a b : IgnoreFile) : Prop :=
  depth a.baseDir < depth b.baseDir ∨
    depth a.baseDir = depth b.baseDir ∧ a.baseDir ≤ b.baseDir

instance : DecidableRel shallowFirst := fun a b => by
  unfold shallowFirst
  infer_instance

/-- `_read_ignore_files`. -/
def readIgnoreFiles (S : Sha256) (found : List (String × String)) : List IgnoreFile :=
  (found.map fun file => ⟨file.1, file.2, S.hexdigest file.2⟩).insertionSort shallowFirst

/-- `discover_source_selection`. -/
def discoverSourceSelection (S : Sha256) (git : Bool) (tracked : List String)
    (found : List (String × String)) : SourceSelection :=
  if git then {
    schema := "tulid.source-selection/v1"
    mode := .git
    trackedPaths := tracked
    ignoreFiles := readIgnoreFiles S found }
  else {
    schema := "tulid.source-selection/v1"
    mode := .non_git }

/-- `refresh_workspace_selection`. -/
def refreshWorkspaceSelection (S : Sha256) (frozen : SourceSelection)
    (found : List (String × String)) : SourceSelection :=
  match frozen.mode with
  | .non_git => frozen
  | .git => { frozen with ignoreFiles := readIgnoreFiles S found }

/-- `source_selection_sha256`. -/
def sourceSelectionSha256 (S : Sha256) (selection : SourceSelection) : String :=
  S.canonical (sourceSelectionToDict selection)

/-- `iter_deliverable_files`. -/
def iterDeliverableFiles (rule : Rule) (selection : SourceSelection)
    (files : List ScannedFile) : List ScannedFile :=
  files.filter fun file =>
    rule selection.mode selection.trackedPaths.toFinset selection.ignoreFiles file.path

-- ============================================================== manifests

/-- A mode in JSON. -/
def modeValue (mode : Option Given) : Json := (mode.map Subtype.val).getD .null

/-- `capture_deliverable_manifest`. -/
def captureDeliverableManifest (S : Sha256) (rule : Rule) (selection : SourceSelection)
    (files : List ScannedFile) : BaselineManifest :=
  let ordered := ((iterDeliverableFiles rule selection files).map ScannedFile.entry).insertionSort
    fun a b => a.path ≤ b.path
  { schema := "tulid.baseline-manifest/v1"
    entries := ordered
    sha256 := S.canonical (.obj [
      ("schema", .str "tulid.baseline-manifest/v1"),
      ("entries", .arr (ordered.map fun entry => .obj [
        ("path", .str entry.path),
        ("sha256", .str entry.sha256),
        ("size", .int entry.size),
        ("mode", modeValue entry.mode)]))]) }

-- ================================================================== facts

/-- `EXCLUDED_DIRECTORY_NAMES`. -/
def excludedDirectoryNames : List String :=
  [".git", ".open-tulid", ".mypy_cache", ".nox", ".pytest_cache", ".ruff_cache", ".tox", ".venv",
    "__pycache__", "node_modules", "venv"]

/-- `KNOWN_MANIFESTS`. -/
def knownManifests : List String :=
  ["Cargo.toml", "Gemfile", "go.mod", "package.json", "poetry.lock", "pyproject.toml",
    "requirements.txt", "uv.lock"]

/-- The last name of a path. -/
def pathName (path : String) : String := ((PosixPath.parts path).getLast?).getD ""

/-- `_git_facts`. -/
def gitFacts (repository : Repository) : Bool × Option String × Option Bool :=
  match repository.git, repository.head with
  | true, some commit =>
      (true, some commit.trimAscii.toString, repository.status.map fun status => status.trimAscii.toString ≠ "")
  | _, _ => (false, none, none)

/-- `_reserved_namespace_violation`. -/
def reservedNamespaceViolation (selection : SourceSelection) : Option String :=
  match selection.mode with
  | .non_git => none
  | .git =>
      (selection.trackedPaths.find? fun path =>
        path = ".open-tulid" || path.startsWith ".open-tulid/").map fun path =>
          "Repository tracks source under Tulid's reserved .open-tulid " ++
            s!"namespace: {path}. That namespace is never application delivery."

/-- The paths of the delivered files that are known manifests. -/
def knownAmong (files : List ScannedFile) : List String :=
  inOrder ((files.map ScannedFile.path).filter fun path => pathName path ∈ knownManifests)

theorem empty_not_mem_found {tree : Tree} {order : TreeOrder tree} {files : List ScannedFile}
    {detector : Detector} {entries : List FileManifestEntry} :
    "" ∉ inOrder (order.topLevel.filter (· ∉ excludedDirectoryNames)) ++ knownAmong files ++
      detector.detect entries := by
  rw [List.mem_append, List.mem_append, not_or, not_or]
  refine ⟨⟨fun h => ?_, fun h => ?_⟩, detector.named entries⟩
  · have hmem := (List.mem_filter.mp ((List.mem_insertionSort _).mp h)).1
    exact tree.topLevelNamed (order.topLevelPerm.mem_iff.mp hmem)
  · have hmem := (List.mem_filter.mp ((List.mem_insertionSort _).mp h)).1
    obtain ⟨file, -, hpath⟩ := List.mem_map.mp hmem
    exact file.named hpath

/-- What `capture_repository_snapshot` reads of a live source. -/
def scanRepository (S : Sha256) (rule : Rule) (detector : Detector) {repository : Repository}
    (selection : SourceSelection) (order : TreeOrder repository.toTree) : RepositoryScan :=
  let files := iterDeliverableFiles rule selection order.files
  { files := files
    topLevelEntries := inOrder (order.topLevel.filter (· ∉ excludedDirectoryNames))
    manifests := knownAmong files
    detectedEntrypoints :=
      detector.detect (baselineManifest S (files.map ScannedFile.entry)).entries
    gitRepository := (gitFacts repository).1
    baseCommit := (gitFacts repository).2.1
    dirty := (gitFacts repository).2.2
    selection := selection
    named := empty_not_mem_found }

/-- `capture_repository_snapshot` of a live source that can be read. -/
def captureLiveSnapshot (S : Sha256) (rule : Rule) (detector : Detector)
    {repository : Repository} (tracked : List String) (order : TreeOrder repository.toTree) :
    Except DomainError RepositorySnapshot :=
  let selection := discoverSourceSelection S repository.git tracked order.ignoreFiles
  match reservedNamespaceViolation selection with
  | some message => .error ⟨"repository.reserved_namespace", message, none⟩
  | none => .ok (captureRepositorySnapshot S (some (scanRepository S rule detector selection order)))

-- ========================================================== the candidate

/-- The name of a kind of change. -/
def ChangeKind.value : ChangeKind → String
  | add => "add"
  | edit => "edit"
  | delete => "delete"

/-- A change, in the record of a candidate. -/
def changeToDict (change : CandidateChange) : Json := .obj [
  ("kind", .str change.kind.value),
  ("path", .str change.path),
  ("before_sha256", orNull change.beforeSha256),
  ("after_sha256", orNull change.afterSha256),
  ("before_mode", modeValue change.beforeMode),
  ("after_mode", modeValue change.afterMode)]

/-- `_discrepancy_note`. -/
def discrepancyNote (submitted deltaPaths : List String) : Option String :=
  let missing := inOrder (deltaPaths.dedup.filter (· ∉ submitted))
  let extra := inOrder (submitted.filter (· ∉ deltaPaths))
  if missing = [] ∧ extra = [] then none
  else
    let parts :=
      (if missing = [] then [] else
        ["missing from the submitted list: " ++ ", ".intercalate missing]) ++
      (if extra = [] then [] else
        ["submitted but not changed: " ++ ", ".intercalate extra])
    some ("Submitted changed-file list differs from the authoritative candidate delta (" ++
      "; ".intercalate parts ++ ").")

/-- The identity `capture_candidate` seals a workspace under that nobody
writes to: the SHA-256 of `_candidate_body`. -/
def captureCandidate (S : Sha256) (rule : Rule) (candidateId : String)
    (baseline : Option BaselineManifest) (submittedChangedFiles : List String)
    (frozen : SourceSelection) {workspace : Tree} (order : TreeOrder workspace) : String :=
  let selection := refreshWorkspaceSelection S frozen order.ignoreFiles
  let post := captureDeliverableManifest S rule selection order.files
  let changes := computeDelta baseline post
  let submitted := inOrder submittedChangedFiles.dedup
  S.canonical (.obj [
    ("schema", .str "tulid.candidate/v1"),
    ("candidate_id", .str candidateId),
    ("baseline_sha256", orNull (baseline.map BaselineManifest.sha256)),
    ("manifest_sha256", .str post.sha256),
    ("changes", .arr (changes.map changeToDict)),
    ("submitted_changed_files", strings submitted),
    ("submitted_discrepancy", orNull (discrepancyNote submitted (changes.map (·.path)))),
    ("source_selection_sha256", .str (sourceSelectionSha256 S selection))])

-- ============================================================ the digests

/-- The digests of one run: of the selection rule, of the repository facts,
and of the candidate that is sealed under the rule. -/
structure Digests where
  sourceSelection : String
  repositoryFacts : Except DomainError String
  candidate : String

/-- The digests of a run that meets its sources in a given order. -/
def digests (S : Sha256) (rule : Rule) (detector : Detector) (candidateId : String)
    (submittedChangedFiles : List String) {repository : Repository} {workspace : Tree}
    (order : Enumeration repository workspace) : Digests :=
  let selection :=
    discoverSourceSelection S repository.git order.tracked order.source.ignoreFiles
  let snapshot := captureLiveSnapshot S rule detector order.tracked order.source
  { sourceSelection := sourceSelectionSha256 S selection
    repositoryFacts := snapshot.map fun captured => captured.facts.sha256
    candidate := captureCandidate S rule candidateId
      (snapshot.toOption.map RepositorySnapshot.baseline) submittedChangedFiles selection order.work }

end OpenTulid.Frozen
