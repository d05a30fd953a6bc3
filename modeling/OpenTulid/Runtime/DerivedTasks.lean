/-
The tasks a completion derives from its artifacts, from the texts of the
submitted files on.

# One file

A derived task file is YAML frontmatter between two `---`, which names the
task within its batch and the local tasks it depends on, and a Markdown
body. `_parse_derived_task_file` raises a `ValueError` for anything else.

# A batch

All files are parsed first; then the references between them are resolved
and searched for cycles; only then are ids allocated and the tasks planned.
Any error rejects the whole batch.

What the module uses of the language and of the YAML reader is in `Python`.
Bodies are texts here, so a planned task keeps its body beside it.
-/
import OpenTulid.Completion.Plan
import OpenTulid.Lib.CycleSearch
import OpenTulid.Lib.Doc
import OpenTulid.Runtime.Prompts
import OpenTulid.Workflow

namespace OpenTulid.Derived

open Doc (Value)
open Frozen
open Frozen.Prompt (Text splitlines)

/-- What parsing a derived task uses of the language. -/
structure Python where
  /-- the YAML reader: a value, or the text of the exception -/
  yaml : Text → Except String Value
  /-- `repr` of a string -/
  repr : String → String

/-- What reading a file raises. -/
inductive ReadError where
  /-- an `OSError` -/
  | os (text : String)
  /-- a `UnicodeDecodeError`, which is a `ValueError` -/
  | decode (text : String)

/-- A submitted artifact. -/
structure ArtifactSubmission where
  type : String
  path : String
  deriving DecidableEq, Repr

-- ============================================================ task bodies

/-- One `## ` section of a body. -/
structure TaskSection where
  name : Text
  content : List Text

/-- The parts of a body. -/
structure ParsedTaskBody where
  title : Option Text := none
  descriptionLines : List Text := []
  sections : List TaskSection := []

/-- One line of a body; `current` is the open section. -/
def parseLine (parsed : ParsedTaskBody × Option Nat) (raw : Text) :
    ParsedTaskBody × Option Nat :=
  let (body, current) := parsed
  let stripped := Prompt.strip raw
  if "# ".toList.isPrefixOf stripped then
    ({ body with title := body.title.or (some (Prompt.strip (stripped.drop 2))) }, none)
  else if "## ".toList.isPrefixOf stripped then
    ({ body with sections := body.sections ++ [⟨Prompt.strip (stripped.drop 3), []⟩] },
      some body.sections.length)
  else if stripped = [] then (body, current)
  else match current with
    | some index =>
        ({ body with sections := body.sections.modify index fun s =>
            { s with content := s.content ++ [stripped] } }, current)
    | none => ({ body with descriptionLines := body.descriptionLines ++ [stripped] }, current)

/-- `parse_task_body`. -/
def parseTaskBody (body : Text) : ParsedTaskBody :=
  ((splitlines body).foldl parseLine ({}, none)).1

/-- `duplicate_heading_names`. -/
def duplicateHeadingNames (seen : List Text) : List TaskSection → List Text
  | [] => []
  | s :: rest =>
      if s.name ∈ seen then s.name :: duplicateHeadingNames (s.name :: seen) rest
      else duplicateHeadingNames (s.name :: seen) rest

/-- The content under a heading, of all sections with that name. -/
def contentByHeading (sections : List TaskSection) (name : Text) : Option (List Text) :=
  if sections.any (·.name = name) then
    some ((sections.filter (·.name = name)).flatMap (·.content))
  else none

/-- `validate_task_structure`. -/
def validateTaskStructure (body : Text) (location : String) (requireTitle : Bool) :
    List DomainError :=
  let parsed := parseTaskBody body
  (if requireTitle && (parsed.title.getD [] = [] : Bool) then
    [⟨"task.title_missing",
      "Task body is missing a Markdown H1 title (e.g. \x60# Concrete outcome\x60).",
      some location⟩] else []) ++
  (duplicateHeadingNames [] parsed.sections).map fun name =>
    ⟨"task.duplicate_heading",
      "Duplicate task section heading \x60## " ++ String.ofList name ++
        "\x60; section headings must appear exactly once.", some location⟩

/-- A line selects a verification command. -/
def isSelector (line : Text) : Bool :=
  ["accepts:", "accepts_if:", "run:"].any fun word => word.toList.isPrefixOf line

/-- `_validate_acceptance`. -/
def validateAcceptance (content : List Text) (location : String) : List DomainError :=
  let lines := (content.map Prompt.strip).filter fun line =>
    line ≠ [] && !"# ".toList.isPrefixOf line
  ((lines.filter isSelector).map fun _ =>
    ⟨"task.acceptance_run_forbidden",
      "Per-task acceptance command selectors (\x60accepts:\x60, " ++
        "\x60accepts_if:\x60, \x60run:\x60) are not allowed; verification commands " ++
        "are global at the project level and apply to every " ++
        "implementation task.", some location⟩) ++
  if lines = [] then
    [⟨"task.acceptance_criteria_missing",
      "The ## Acceptance section has no per-task acceptance criteria as prose.",
      some location⟩]
  else []

/-- The errors of one required section. -/
def sectionErrors (sections : List TaskSection) (location name : String) : List DomainError :=
  match contentByHeading sections name.toList with
  | none => [⟨"task.section_missing",
      s!"Task is missing the required ## {name} section.", some location⟩]
  | some content =>
      if name = "Acceptance" then validateAcceptance content location
      else if content.any (Prompt.strip · ≠ []) then []
      else [⟨"task.section_empty", s!"The ## {name} section is present but empty.",
        some location⟩]

/-- `REQUIRED_SECTIONS` -/
def requiredSections : List String := ["Why", "What", "How", "Acceptance"]

/-- `validate_task_schema`. -/
def validateTaskSchema (body : Text) (location : String) : List DomainError :=
  let parsed := parseTaskBody body
  validateTaskStructure body location false ++
  (if parsed.descriptionLines.any (Prompt.strip · ≠ []) then [] else
    [⟨"task.section_missing",
      "Task is missing the required one-or-two-sentence description.", some location⟩]) ++
  requiredSections.flatMap (sectionErrors parsed.sections location)

-- =============================================================== one file

/-- The text around the first occurrence of a separator. -/
def partition (separator : Text) : Text → Option (Text × Text)
  | [] => none
  | c :: rest =>
      if separator.isPrefixOf (c :: rest) then some ([], (c :: rest).drop separator.length)
      else (partition separator rest).map fun (before, after) => (c :: before, after)

/-- The frontmatter and the body of a text that starts with `---`:
`text.split("---", 2)`. -/
def splitFrontmatter (text : Text) : Except String (Text × Text) :=
  match partition "---".toList (text.drop 3) with
  | some parts => .ok parts
  | none => .error "not enough values to unpack (expected 3, got 2)"

/-- `… or {}`: what counts as false is an empty mapping. -/
def orEmpty : Value → Value
  | .scalar .null | .scalar (.bool false) | .scalar (.int 0) | .scalar (.str "")
  | .scalar (.float 0 _) | .list [] => .map []
  | v => v

/-- What a derived task file says. -/
structure Parsed where
  localId : String
  title : String
  dependencies : List String
  body : Text

/-- The dependencies of a frontmatter. -/
def parseDependencies : Value → Except String (List String)
  | .scalar .null => .ok []
  | .scalar (.str dep) => .ok [dep]
  | .list items =>
      match items.mapM fun | .scalar (.str dep) => some dep | _ => none with
      | some deps => .ok deps
      | none => .error "Derived task dependencies must be lists of strings."
  | _ => .error "Derived task dependencies must be a string or list."

/-- The text of the first `# ` line. -/
def firstTitle (body : Text) : Text :=
  (((splitlines body).find? fun line => "# ".toList.isPrefixOf line).map fun line =>
    Prompt.strip (line.drop 2)).getD []

/-- The body of a derived task with its title. -/
def parseBody (location : String) (body : Text) : Except String String :=
  let title := firstTitle body
  if title = [] then .error "Derived task body requires a Markdown H1 title."
  else
    let errors := validateTaskStructure body location true
    if errors ≠ [] then
      .error ("Derived task body is structurally invalid: " ++
        "; ".intercalate (errors.map fun error => s!"{error.code}: {error.message}"))
    else .ok (String.ofList title)

/-- The local id of a frontmatter. -/
def parseLocalId : Value → Except String String
  | .scalar (.str raw) =>
      let localId := Prompt.strip raw.toList
      if localId = [] then .error "Derived task frontmatter requires a nonempty local_id."
      else .ok (String.ofList localId)
  | _ => .error "Derived task frontmatter requires local_id as a string."

/-- `_parse_derived_task_file`, of the text of the file. -/
def parseDerivedTaskFile (P : Python) (location : String) (text : Text) :
    Except String Parsed := do
  if !"---\n".toList.isPrefixOf text then
    throw "Derived task artifact must start with YAML frontmatter."
  let invalid := fun e => s!"Derived task frontmatter is invalid: {e}"
  let (rawFrontmatter, body) ← (splitFrontmatter text).mapError invalid
  let parsed ← (P.yaml rawFrontmatter).mapError invalid
  match orEmpty parsed with
  | .map entries =>
      let localId ← parseLocalId (Doc.Entries.get entries "local_id")
      let dependencies ← parseDependencies (Doc.Entries.get entries "dependencies")
      let title ← parseBody location body
      return ⟨localId, title, dependencies, body⟩
  | _ => throw "Derived task frontmatter must be a mapping."

-- ================================================================ a batch

/-- A parsed file with the artifact it comes from. -/
structure Draft extends Parsed where
  path : String
  sourceLink : Option String

/-- Where the files of a batch are read and what their artifacts became. -/
structure Source where
  /-- the text of a path below the output directory -/
  read : String → Except ReadError Text
  /-- the location of a path, in messages -/
  location : String → String
  /-- the links of the promoted artifacts -/
  promotedArtifactLinks : String × String → Option String

/-- Read and parse the file of an artifact. -/
def parseFile (P : Python) (files : Source) (path : String) : Except DomainError Parsed :=
  match files.read path with
  | .error (.os text) => .error ⟨"task.derived_source_unreadable",
      s!"Derived task source is not readable: {text}", some path⟩
  | .error (.decode text) => .error ⟨"task.derived_invalid", text, some path⟩
  | .ok text =>
      (parseDerivedTaskFile P (files.location path) text).mapError fun text =>
        ⟨"task.derived_invalid", text, some path⟩

/-- The draft of an artifact. -/
def parseArtifact (P : Python) (files : Source) (artifact : ArtifactSubmission) :
    Except DomainError Draft :=
  (parseFile P files artifact.path).map fun parsed =>
    { parsed with
      path := artifact.path
      sourceLink := files.promotedArtifactLinks (artifact.type, artifact.path) }

/-- The first pass over a batch: what is parsed, and the errors in order. -/
def parseBatch (P : Python) (files : Source) (seenPaths localIds : List String) :
    List ArtifactSubmission → List Draft × List DomainError
  | [] => ([], [])
  | artifact :: rest =>
      let duplicatePath : List DomainError :=
        if artifact.path ∈ seenPaths then
          [⟨"task.derived_duplicate_path",
            s!"Duplicate derived task artifact path: {artifact.path}", some artifact.path⟩]
        else []
      match parseArtifact P files artifact with
      | .error error =>
          let (drafts, errors) :=
            parseBatch P files (artifact.path :: seenPaths) localIds rest
          (drafts, duplicatePath ++ error :: errors)
      | .ok draft =>
          let duplicateId : List DomainError :=
            if draft.localId ∈ localIds then
              [⟨"task.derived_duplicate_local_id",
                s!"Duplicate derived task local_id: {draft.localId}", some draft.localId⟩]
            else []
          let (drafts, errors) :=
            parseBatch P files (artifact.path :: seenPaths) (draft.localId :: localIds) rest
          (draft :: drafts, duplicatePath ++ duplicateId ++ errors)

/-- The error of one dependency of a draft. -/
def dependencyError (P : Python) (localIds existing : List String) (localId dep : String) :
    Option DomainError :=
  if dep = localId then
    some ⟨"task.derived_self_dependency",
      s!"Derived task {P.repr localId} must not depend on itself.", some localId⟩
  else if dep ∈ localIds then none
  else if dep ∈ existing then
    some ⟨"task.derived_existing_prerequisite_unrepresentable",
      s!"Derived task {P.repr localId} depends on existing unfinished " ++
        s!"task {dep}, but the derived-task format can only express " ++
        "dependencies on local batch IDs. Represent this prerequisite " ++
        "by a supported persisted-ID reference or account for it " ++
        "without duplicating existing work.", some localId⟩
  else
    some ⟨"task.derived_unknown_dependency",
      s!"Derived task {P.repr localId} references unknown local dependency: {dep}",
      some localId⟩

/-- The errors of the references of one draft. -/
def referenceErrors (P : Python) (localIds existing : List String) (draft : Draft) :
    List DomainError :=
  (if draft.localId ∈ existing then
    [⟨"task.derived_existing_prerequisite_collision",
      s!"Derived local_id {P.repr draft.localId} collides with an existing task; " ++
        "existing unfinished work must be reused, not duplicated.", some draft.localId⟩]
  else []) ++
  draft.dependencies.filterMap (dependencyError P localIds existing draft.localId)

/-- `by_local_id[node][2]`, the dependencies within the batch: the last
draft of an id counts. -/
def localDependencies (drafts : List Draft) (node : String) : List String :=
  (((drafts.reverse.find? (·.localId = node)).map (·.dependencies)).getD []).filter
    fun dep => dep ∈ drafts.map (·.localId)

/-- The report of a cycle found at a node. -/
def cycleError (node : String) (cycle : List String) : DomainError :=
  ⟨"task.derived_dependency_cycle",
    "Derived task dependency cycle detected: " ++ " -> ".intercalate cycle, some node⟩

/-- `_derived_cycle_errors`. -/
def derivedCycleErrors (drafts : List Draft) : List DomainError :=
  (CycleSearch.search (localDependencies drafts) cycleError (drafts.map (·.localId))).found

/-- The number of an id that `NUMERIC_TASK_ID_RE` matches: its `$` also
matches before a final newline, and `int` passes over it. -/
def matchedNumber (id : String) : Option Nat :=
  numericTaskId <|
    if id.toList.getLast? = some '\n' then String.ofList id.toList.dropLast else id

/-- The highest number among the ids, zero when there is none. -/
def highestNumber (ids : List String) : Nat :=
  ids.foldl (fun highest id => max highest ((matchedNumber id).getD 0)) 0

/-- `_allocate_numeric_task_ids`. -/
def allocateNumericTaskIds (localIds existing : List String) : List (String × TaskId) :=
  localIds.zip
    ((List.range' (highestNumber existing + 1) localIds.length).map fun n => toString n)

/-- A planned task: its body as a text, and the name of its note. -/
structure PlannedTask where
  task : Task
  path : String
  body : Text
  link : String

/-- The task of a draft under the allocated ids. -/
def derivedTask (derives : DerivesDefinition) (parentId : TaskId)
    (ids : List (String × TaskId)) (draft : Draft) : PlannedTask :=
  let taskId := (ids.lookup draft.localId).getD ""
  { task := {
      id := taskId
      title := draft.title
      currentState := derives.state
      taskType := derives.taskType
      dependencies := draft.dependencies.map fun dep => (ids.lookup dep).getD ""
      artifactLinks := draft.sourceLink.toList
      parentId := some parentId }
    path := s!"tasks/{taskId}.md"
    body := draft.body
    link := s!"{taskId}-{slugify draft.title}" }

/-- The errors of the body of a planned task, where its type requires the
global contract. -/
def schemaErrors (workflow : Option WorkflowDefinition) (derived : PlannedTask)
    (location : String) : List DomainError :=
  match workflow with
  | some w => if w.usesGlobalContract derived.task then
      validateTaskSchema derived.body location else []
  | none => []

/-- The second pass over a batch that was parsed. -/
def planDrafts (P : Python) (derives : DerivesDefinition) (parentId : TaskId)
    (existing : List String) (workflow : Option WorkflowDefinition) (drafts : List Draft) :
    List PlannedTask × List DomainError :=
  let localIds := drafts.map (·.localId)
  let errors := drafts.flatMap (referenceErrors P localIds existing) ++
    derivedCycleErrors drafts
  if errors ≠ [] then ([], errors)
  else
    let ids := allocateNumericTaskIds localIds existing
    let planned := drafts.map (derivedTask derives parentId ids)
    let errors := drafts.flatMap fun draft =>
      schemaErrors workflow (derivedTask derives parentId ids draft) draft.path
    if errors ≠ [] then ([], errors) else (planned, errors)

/-- The artifacts of the type that derives tasks. -/
def selected (derives : DerivesDefinition) (artifacts : List ArtifactSubmission) :
    List ArtifactSubmission :=
  artifacts.filter (·.type = derives.artifactType)

/-- `_derived_task_plan`: the tasks and the errors. -/
def derivedTaskPlan (P : Python) (files : Source) (derives : Option DerivesDefinition)
    (artifacts : List ArtifactSubmission) (parentId : TaskId) (existing : List String)
    (workflow : Option WorkflowDefinition) : List PlannedTask × List DomainError :=
  match derives with
  | none => ([], [])
  | some derives =>
      let (drafts, errors) := parseBatch P files [] [] (selected derives artifacts)
      if errors ≠ [] then ([], errors)
      else planDrafts P derives parentId existing workflow drafts

end OpenTulid.Derived
