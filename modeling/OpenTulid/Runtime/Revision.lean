/-
The semantic revision of a task: what its work requires, and nothing else.

The revision is the digest of a canonical payload; up to collisions it is
the payload itself, so `TaskRevision` is the payload. The identities of the
required sources enter as a set, which is what sorting and deduplicating
them leaves.
-/
import OpenTulid.World

namespace OpenTulid

-- ======================================================= the body's parts

/-- The structural parts of a body. -/
structure ParsedTaskBody where
  title : Option String := none
  descriptionLines : List String := []
  sections : List (String × List String) := []
  deriving DecidableEq, Repr

namespace ParsedTaskBody

/-- A line of the description or of the last section. -/
def addLine (inSection : Bool) (p : ParsedTaskBody) (line : String) : ParsedTaskBody :=
  if inSection then
    match p.sections.getLast? with
    | some (name, lines) =>
        { p with sections := p.sections.dropLast ++ [(name, lines ++ [line])] }
    | none => { p with descriptionLines := p.descriptionLines ++ [line] }
  else { p with descriptionLines := p.descriptionLines ++ [line] }

end ParsedTaskBody

/-- The loop of `parse_task_body`: a title line ends the section before
it. -/
def parseTaskBodyFrom (inSection : Bool) (p : ParsedTaskBody) : Body → ParsedTaskBody
  | [] => p
  | .title text :: rest =>
      parseTaskBodyFrom false { p with title := p.title <|> some text } rest
  | .heading name :: rest =>
      parseTaskBodyFrom true { p with sections := p.sections ++ [(name, [])] } rest
  | .blank :: rest => parseTaskBodyFrom inSection p rest
  | .text line :: rest => parseTaskBodyFrom inSection (p.addLine inSection line) rest

/-- `parse_task_body`. -/
def parseTaskBody (body : Body) : ParsedTaskBody := parseTaskBodyFrom false {} body

-- ======================================================== the revision

/-- `_semantic_body_sections`: the description and every named section,
under their lower-case names; of two sections of one name the later. -/
def semanticBodySections (lower : String → String) (body : Body) :
    Store String (List String) :=
  let parsed := parseTaskBody body
  parsed.sections.foldl
    (fun sections (name, lines) =>
      if lower name = "" then sections else sections.put (lower name) lines)
    ((∅ : Store String (List String)).put "description" parsed.descriptionLines)

/-- Without blanks around. -/
def strip (s : String) : String :=
  String.ofList (((s.toList.dropWhile Char.isWhitespace).reverse.dropWhile
    Char.isWhitespace).reverse)

/-- `source_content_identities`: the references of the required files, or
the places they were read from. -/
def sourceContentIdentities (contract : ExecutionContract) : List SourceIdentity :=
  (contract.contextFiles.filter (·.required)).flatMap fun file =>
    let refs :=
      if file.refs ≠ [] then file.refs
      else if file.sourcePaths ≠ [] then file.sourcePaths
      else ["[reference]"]
    refs.map fun ref => (ref, file.sha256)

/-- `PlanningInputs.source_identities`. -/
def PlanningInputs.sourceIdentities (planning : PlanningInputs) : List SourceIdentity :=
  (planning.contextFiles.filter (·.required)).flatMap fun file =>
    file.refs.map fun ref => (ref, file.sha256)

/-- `_normalized_source_identities`. -/
def normalizedSourceIdentities (identities : List SourceIdentity) : Finset SourceIdentity :=
  ((identities.map fun i => (strip i.1, i.2)).filter fun i => i.1 ≠ "").toFinset

/-- `task_semantic_revision`. -/
def taskSemanticRevision (lower : String → String) (task : Task)
    (identities : List SourceIdentity) : TaskRevision where
  taskType := task.taskType
  title := (task.body.extractTitle.filter (· ≠ "")).getD task.title
  parentId := task.parentId
  dependencies := task.dependencies.insertionSort (· ≤ ·)
  body := semanticBodySections lower task.body
  sourceContent := normalizedSourceIdentities identities

end OpenTulid
