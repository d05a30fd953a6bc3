/-
The one rule that selects source files, and the copies made under it.

A `SourceSelection` says of a path alone whether a file there is delivered:
the walks descend into the directories that are not pruned and take the
files that are not left out (`delivers`). A manifest lists the delivered
files of a tree. A candidate is sealed by copying what is delivered
(`captureCandidate`); the commands run in a copy of the sealed candidate
that leaves out some directory names of its own
(`prepareVerificationCopy`).

`gitignoreMatches` is `_gitignore_matches`, the reading of the ignore files;
nothing here depends on what it answers.
-/
import OpenTulid.Domain
import Mathlib.Data.List.Sort

namespace OpenTulid

-- ========================================================== the names

/-- `RESERVED_DIRECTORY_NAMES` -/
def reservedDirectoryNames : List String := [".git", ".open-tulid"]

/-- `DECLARED_CACHE_DIRECTORY_NAMES` -/
def declaredCacheDirectoryNames : List String :=
  [".mypy_cache", ".nox", ".pytest_cache", ".ruff_cache", ".tox", ".venv",
    "__pycache__", "node_modules", "venv"]

/-- `_is_reserved_path` -/
def isReservedPath (relative : RelPath) : Bool :=
  relative.any fun part => part ∈ reservedDirectoryNames

/-- `_under_declared_cache` -/
def underDeclaredCache (relative : RelPath) : Bool :=
  relative.any fun part => part ∈ declaredCacheDirectoryNames

/-- `_reserved_or_cache_directory_name` of the name a path ends in. -/
def reservedOrCacheDirectoryName (relative : RelPath) : Bool :=
  relative.getLast?.any fun name =>
    name ∈ reservedDirectoryNames || name ∈ declaredCacheDirectoryNames

-- ====================================================== the selection

/-- One ignore file: the directory it is read for, and its text. -/
structure IgnoreFile where
  baseDir : RelPath
  content : String
  deriving DecidableEq, Repr

/-- The rule a source is read under. `git` is the mode. -/
structure SourceSelection where
  git : Bool
  trackedPaths : List RelPath := []
  ignoreFiles : List IgnoreFile := []
  deriving DecidableEq, Repr

section Walk

variable (gitignoreMatches : List IgnoreFile → RelPath → Bool → Bool)

/-- `_ignored_unknown_by_rule` -/
def ignoredUnknownByRule (selection : SourceSelection) (relative : RelPath)
    (isDir : Bool) : Bool :=
  if underDeclaredCache relative then true
  else if selection.ignoreFiles = [] then false
  else gitignoreMatches selection.ignoreFiles relative isDir

/-- `_any_tracked_under` -/
def anyTrackedUnder (tracked : List RelPath) (directory : RelPath) : Bool :=
  tracked.any fun path => directory.isPrefixOf path

/-- `_safe_prune_git_directory` -/
def safePruneGitDirectory (selection : SourceSelection) (relativeDir : RelPath) :
    Bool :=
  if isReservedPath relativeDir then true
  else ignoredUnknownByRule gitignoreMatches selection relativeDir true &&
    !anyTrackedUnder selection.trackedPaths relativeDir

/-- A walk descends into a directory. -/
def descends (selection : SourceSelection) (relativeDir : RelPath) : Bool :=
  if selection.git then !safePruneGitDirectory gitignoreMatches selection relativeDir
  else !reservedOrCacheDirectoryName relativeDir

/-- A walk takes a file it meets. -/
def takes (selection : SourceSelection) (relative : RelPath) : Bool :=
  if selection.git then
    if isReservedPath relative then false
    else if relative ∈ selection.trackedPaths then true
    else !ignoredUnknownByRule gitignoreMatches selection relative false
  else !(isReservedPath relative || underDeclaredCache relative)

/-- `_walk_git_deliverables` and `_walk_non_git_deliverables`, of a regular
file: no directory above it is pruned, and it is taken. -/
def delivers (selection : SourceSelection) (relative : RelPath) : Bool :=
  FileTree.reached (descends gitignoreMatches selection) relative.dropLast &&
    takes gitignoreMatches selection relative

/-- `iter_deliverable_files` -/
def iterDeliverableFiles (selection : SourceSelection) (root : FileTree) : List RelPath :=
  root.nodes.keys.filter fun p =>
    (root.file? p).isSome && delivers gitignoreMatches selection p

/-- `capture_deliverable_manifest` -/
def captureDeliverableManifest (selection : SourceSelection) (root : FileTree) :
    Manifest :=
  (iterDeliverableFiles gitignoreMatches selection root).filterMap fun p =>
    (root.file? p).map fun f => ⟨p, f.content, f.mode⟩

-- ====================================================== the candidate

/-- `_copy_deliverables` into a new folder: the delivered files, and the
directories above them. -/
def copyDeliverables (selection : SourceSelection) (source : FileTree) : FileTree :=
  let delivered := iterDeliverableFiles gitignoreMatches selection source
  source.restrict fun p =>
    p ∈ delivered || delivered.any fun q => p.isPrefixOf q && p ≠ q

/-- A sealed candidate: its storage, the rule it was sealed under, and the
manifest taken of the workspace. -/
structure CapturedCandidate where
  storage : FileTree
  selection : SourceSelection
  manifest : Manifest

/-- `capture_candidate` of a workspace nobody writes to, under the rule read
from it: the stored copy must show the manifest of the workspace. -/
def captureCandidate (selection : SourceSelection) (workspace : FileTree) :
    Except DomainError CapturedCandidate :=
  let post := captureDeliverableManifest gitignoreMatches selection workspace
  let storage := copyDeliverables gitignoreMatches selection workspace
  let stored := captureDeliverableManifest gitignoreMatches selection storage
  if stored ≠ post then
    .error ⟨"candidate.capture_failed",
      "The stored candidate snapshot does not match the workspace. "
        ++ "Retry the submission; the workspace is preserved.", none⟩
  else .ok { storage := storage, selection := selection, manifest := post }

end Walk

-- =========================================================== the delta

/-- The entry of a path in a manifest; a path is listed once. -/
def Manifest.entryAt (m : Manifest) (p : RelPath) : Option ManifestEntry :=
  m.find? fun e => e.path = p

/-- In the order of the paths as they are written. -/
def inPathOrder (changes : List CandidateChange) : List CandidateChange :=
  changes.insertionSort fun a b => "/".intercalate a.path ≤ "/".intercalate b.path

/-- A file that is in the candidate only. -/
def addedChange (e : ManifestEntry) : CandidateChange where
  kind := .add
  path := e.path
  afterSha256 := some e.sha256
  afterMode := some e.mode

/-- A file that is in the baseline only. -/
def deletedChange (e : ManifestEntry) : CandidateChange where
  kind := .delete
  path := e.path
  beforeSha256 := some e.sha256
  beforeMode := some e.mode

/-- A file that is in both, with another content or another mode. -/
def editedChange (before after : ManifestEntry) : Option CandidateChange :=
  if before.sha256 ≠ after.sha256 ∨ before.mode ≠ after.mode then
    some { kind := .edit
           path := before.path
           beforeSha256 := some before.sha256
           afterSha256 := some after.sha256
           beforeMode := some before.mode
           afterMode := some after.mode }
  else none

/-- `_compute_delta`: the added, the deleted and the edited files. -/
def computeDelta (baseline candidate : Manifest) : List CandidateChange :=
  inPathOrder ((candidate.filter fun e => (baseline.entryAt e.path).isNone).map
      addedChange) ++
    inPathOrder ((baseline.filter fun e => (candidate.entryAt e.path).isNone).map
      deletedChange) ++
    inPathOrder (baseline.filterMap fun before =>
      (candidate.entryAt before.path).bind (editedChange before))

/-- The names `prepare_verification_copy` leaves out at any depth, files and
directories alike. -/
def verificationIgnorePatterns : List String :=
  [".git", ".open-tulid", "node_modules", "__pycache__"]

/-- `prepare_verification_copy` -/
def prepareVerificationCopy (candidate : FileTree) : FileTree :=
  candidate.restrict fun p =>
    !p.getLast?.any fun name => name ∈ verificationIgnorePatterns

end OpenTulid
