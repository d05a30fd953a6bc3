/-
The promotion of the artifacts of an accepted submission: the plan, and the
effects that carry it out.

# The plan

The target of an artifact is built from the task, the type of the artifact
and the last name of its submitted path; an implementation contract carries
the start of its digest in its name. Folders on the submitted path are not
part of it.

# The effects

An effect makes the folders above the target, copies the bytes, and adds the
link of the target to the task. A target that is a directory takes the copy
inside it, and a task that cannot be read is left without the link; neither
is an error. The file system holds no links, and a sealed candidate is not
written to.
-/
import OpenTulid.Completion.Plan
import OpenTulid.Runtime.Verifier

namespace OpenTulid.Promotion

-- ================================================================== paths

/-- `Path.__truediv__`: an absolute text starts anew. -/
def join (base : List String) (text : String) : List String :=
  if PosixPath.isAbsolute text then PosixPath.parts text else base ++ PosixPath.parts text

/-- `Path(text).name`. -/
def nameOf (text : String) : String := (PosixPath.parts text).getLast?.getD ""

/-- `str` of an absolute path. -/
def pathText (path : List String) : String := "/" ++ "/".intercalate path

/-- `_artifact_link`. -/
def artifactLink (artifactRoot target : List String) : String :=
  if artifactRoot.dropLast <+: target then
    let rest := target.drop artifactRoot.dropLast.length
    if rest = [] then "." else "/".intercalate rest
  else pathText target

-- =================================================================== plan

/-- One planned artifact. -/
structure PlannedArtifact where
  artifact : Verify.ArtifactSubmission
  /-- what the submitted path leads to in the sealed candidate -/
  source : Node
  /-- the last name of the path of the source -/
  sourceName : String
  target : List String
  link : String

section Plan

variable (P : Verify.Settings)

/-- `content_hash`: the first sixteen digits of the digest. -/
def contentHash : Node → String
  | .file image => String.ofList ((P.sha256 image.content).toList.take 16)
  | .dir => "unreadable"

/-- `file_name`. -/
def fileName (artifact : Verify.ArtifactSubmission) (source : Node) : String :=
  let name := nameOf artifact.path
  if artifact.type = "ImplementationContract" then
    let (stem, suffix) := splitSuffix name
    s!"{stem}-{contentHash P source}{suffix}"
  else name

/-- The folder that a task and a type name. -/
def folderOf (artifactRoot : List String) (taskId : String)
    (artifact : Verify.ArtifactSubmission) : List String :=
  join (join artifactRoot taskId) artifact.type

/-- The plan of one artifact; a source that is not there raises. -/
def planArtifact (files : String → Option Node) (outputDir artifactRoot : List String)
    (taskId : String) (artifact : Verify.ArtifactSubmission) :
    Except Raised PlannedArtifact :=
  match files artifact.path with
  | none => .error ⟨"No such file or directory"⟩
  | some source =>
      let target := join (folderOf artifactRoot taskId artifact) (fileName P artifact source)
      .ok {
        artifact := artifact
        source := source
        sourceName := (join outputDir artifact.path).getLast?.getD ""
        target := target
        link := artifactLink artifactRoot target }

/-- `_promotion_plan`. -/
def promotionPlan (files : String → Option Node) (outputDir : List String)
    (artifactRoot : Option (List String)) (taskId : String)
    (artifacts : List Verify.ArtifactSubmission) : Except Raised (List PlannedArtifact) :=
  match artifactRoot with
  | none => .ok []
  | some artifactRoot => artifacts.mapM (planArtifact P files outputDir artifactRoot taskId)

end Plan

-- ================================================================= effects

/-- What the effects change. -/
structure State where
  tree : FileTree
  tracker : Tracker

/-- The directories that are missing, outermost first. -/
def makeDirs (t : FileTree) : List RelPath → Except Errno FileTree
  | [] => .ok t
  | p :: rest =>
      if t.node p = some .dir then makeDirs t rest
      else match t.write (.mkdir p) with
        | .error e => .error e
        | .ok made => makeDirs made rest

/-- The bytes and the mode of a file, put at a path. -/
def fill (t : FileTree) (dst : RelPath) (image : FileImage) : Except Errno FileTree := do
  let opened ← t.write (.openTrunc dst 0o666)
  let filled ← opened.write (.append dst image.content)
  filled.write (.fchmod dst image.mode)

/-- `shutil.copy2`: into the target, or into the directory it is. -/
def copy2 (t : FileTree) (item : PlannedArtifact) : Except Errno FileTree :=
  match item.source with
  | .dir => .error .eisdir
  | .file image =>
      fill t (if t.node item.target = some .dir then item.target ++ [item.sourceName]
        else item.target) image

/-- The file part of an effect. -/
def placeFile (t : FileTree) (item : PlannedArtifact) : Except Errno FileTree := do
  let made ← makeDirs t item.target.dropLast.inits
  copy2 made item

/-- The link part of an effect: a task that cannot be read is left without
the link. -/
def addLink (tracker : Tracker) (taskId link : String) : Except (List DomainError) Tracker :=
  if link = "" then .ok tracker
  else match tracker.readTask taskId with
  | .error _ => .ok tracker
  | .ok task =>
      tracker.writeTask (taskWithLinks task (dedupLinks (task.artifactLinks ++ [link])))

/-- The effect `promote_artifact`. -/
def promoteArtifact (taskId : String) (s : State) (item : PlannedArtifact) :
    Except (List DomainError) State :=
  match placeFile s.tree item with
  | .error _ => .error [⟨"artifact.promotion_failed", "Cannot promote artifact",
      some (pathText item.target)⟩]
  | .ok tree => (addLink s.tracker taskId item.link).map fun tracker => ⟨tree, tracker⟩

/-- The effects one after the other, as far as they succeed. -/
def promoteAll (taskId : String) (items : List PlannedArtifact) (s : State) :
    Except (List DomainError) State :=
  items.foldlM (promoteArtifact taskId) s

end OpenTulid.Promotion
