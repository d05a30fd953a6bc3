/-
The change from a baseline to a candidate, computed twice: for the record of
the sealed candidate (`computeDelta`) and for the report of a verification
(`manifestChanges`).

Both read the two manifests as dictionaries of their paths, where of two
entries of one path the later counts (`entryOf`). The report pairs a removed
path with an added one of the same content, one pair after the other, where
exactly one added path is left to choose from (`pairRenames`).
-/
import OpenTulid.Contract.Payload
import Mathlib.Data.List.Dedup

namespace OpenTulid.Frozen

instance : DecidableEq Given := fun a b =>
  decidable_of_iff (a.val.text = b.val.text)
    ⟨fun h => Subtype.ext (Json.text_injective h), fun h => h ▸ rfl⟩

-- =============================================================== manifests

/-- The entry a dictionary of the entries has for a path. -/
def entryOf (entries : List FileManifestEntry) (path : String) : Option FileManifestEntry :=
  entries.reverse.find? fun entry => entry.path = path

/-- The keys of that dictionary. -/
def paths (entries : List FileManifestEntry) : List String :=
  (entries.map FileManifestEntry.path).dedup

/-- `sorted` of paths. -/
def inOrder (names : List String) : List String := names.insertionSort (· ≤ ·)

/-- The paths of one manifest that another does not have. -/
def missingFrom (other entries : List FileManifestEntry) : List String :=
  (paths entries).filter (· ∉ paths other)

/-- A file that both manifests have is not the same in both; a mode that was
never recorded says nothing. -/
def differs (before after : FileManifestEntry) : Bool :=
  before.sha256 ≠ after.sha256 || (before.mode.isSome && before.mode ≠ after.mode)

-- =============================================================== the delta

/-- `KIND_ADD`, `KIND_EDIT` and `KIND_DELETE`. -/
inductive ChangeKind where
  | add
  | edit
  | delete
  deriving DecidableEq, Repr

/-- A changed file. -/
structure CandidateChange where
  kind : ChangeKind
  path : String
  beforeSha256 : Option String := none
  afterSha256 : Option String := none
  beforeMode : Option Given := none
  afterMode : Option Given := none

/-- A file of the candidate only. -/
def addedFile (entry : FileManifestEntry) : CandidateChange where
  kind := .add
  path := entry.path
  afterSha256 := some entry.sha256
  afterMode := entry.mode

/-- A file of the baseline only. -/
def deletedFile (entry : FileManifestEntry) : CandidateChange where
  kind := .delete
  path := entry.path
  beforeSha256 := some entry.sha256
  beforeMode := entry.mode

/-- A file of both. -/
def editedFile (before after : FileManifestEntry) : CandidateChange where
  kind := .edit
  path := before.path
  beforeSha256 := some before.sha256
  afterSha256 := some after.sha256
  beforeMode := before.mode
  afterMode := after.mode

/-- The change of a file that both manifests have, if it is one. -/
def editOf (before after : List FileManifestEntry) (path : String) : Option CandidateChange :=
  match entryOf before path, entryOf after path with
  | some b, some a => if differs b a then some (editedFile b a) else none
  | _, _ => none

/-- `_compute_delta`. -/
def computeDelta (baseline : Option BaselineManifest) (candidate : BaselineManifest) :
    List CandidateChange :=
  let before := match baseline with
    | none => []
    | some manifest => manifest.entries
  let after := candidate.entries
  (inOrder (missingFrom before after)).filterMap (fun path => (entryOf after path).map addedFile) ++
    (inOrder (missingFrom after before)).filterMap
      (fun path => (entryOf before path).map deletedFile) ++
    (inOrder ((paths before).filter (· ∈ paths after))).filterMap (editOf before after)

-- ============================================================== the report

/-- What a verification reports of the change. -/
structure ManifestChanges where
  added : List String
  edited : List String
  removed : List String
  renamed : List (String × String)

/-- The removed and the added paths that are not paired yet, and the pairs. -/
structure Pairing where
  added : List String
  removed : List String
  renamed : List (String × String) := []

/-- The added paths of the content a removed path had. -/
def matchesOf (before after : List FileManifestEntry) (old : String) (added : List String) :
    List String :=
  inOrder (added.filter fun new =>
    (entryOf before old).map FileManifestEntry.sha256 =
      (entryOf after new).map FileManifestEntry.sha256)

/-- The pairs, found one removed path after the other. -/
def pairRenames (before after : List FileManifestEntry) : List String → Pairing → Pairing
  | [], pairing => pairing
  | old :: rest, pairing =>
      match matchesOf before after old pairing.added with
      | [new] => pairRenames before after rest {
          added := pairing.added.erase new
          removed := pairing.removed.erase old
          renamed := pairing.renamed ++ [(old, new)] }
      | _ => pairRenames before after rest pairing

/-- The paths of the edited files. -/
def editedPaths (before after : List FileManifestEntry) : List String :=
  inOrder (((paths before).filter (· ∈ paths after)).filter fun path =>
    match entryOf before path, entryOf after path with
    | some b, some a => differs b a
    | _, _ => false)

/-- `_manifest_changes`. -/
def manifestChanges (baseline post : BaselineManifest) : ManifestChanges :=
  let before := baseline.entries
  let after := post.entries
  let removed := missingFrom after before
  let pairing := pairRenames before after (inOrder removed) {
    added := missingFrom before after
    removed := removed }
  { added := inOrder pairing.added
    edited := editedPaths before after
    removed := inOrder pairing.removed
    renamed := pairing.renamed }

end OpenTulid.Frozen
