/-
A project as the adapter loads it: the notes, the boards and the cards.

`load` reads every note and every board and collects all errors it finds; only
a project without errors has tasks. A task stands where its card stands: the
state that its note names is a cache, which counts only where a column maps to
an empty state. What raises is `none`.
-/
import OpenTulid.Adapters.Repair

namespace OpenTulid.Obsidian

open Boards (ReadText stripped BoardDocument headingMark)
open Frozen (Key PyValue Entries)
open Frozen.Prompt (Text joined splitlines)

-- ================================================================= project

/-- The configuration of an adapter and the files it reads. -/
structure Project where
  root : String
  rootIsDir : Bool
  tasksRoot : String
  /-- `_domain_path` -/
  domainPath : String → String
  mappings : List StateMapping
  boards : List Board
  boards_nodup : (boards.map Board.name).Nodup
  /-- the files `*.md` of the tasks folder, by their names -/
  files : Store Text ReadText

/-- `path.stem` of a name that ends with `.md` -/
def stemOf (name : Text) : Text :=
  if name = ".md".toList then name else name.take (name.length - 3)

/-- The path of a file of the tasks folder. -/
def Project.taskPath (p : Project) (name : Text) : String :=
  s!"{p.tasksRoot}/{String.ofList name}"

/-- A file of the tasks folder as a note. -/
def Project.note (p : Project) (name : Text) (file : ReadText) : Note :=
  ⟨p.taskPath name, stemOf name, file⟩

-- =================================================================== tasks

/-- `Task` -/
structure Task where
  id : Text
  title : Text
  path : String
  currentState : Text
  taskType : Text
  dependencies : List Text
  artifactLinks : List Text
  parentId : Option Text
  metadata : Entries
  body : Text

/-- `ULID_RE`, of a stripped text. -/
def isUlid (text : Text) : Bool :=
  text.length = 26 && text.all fun c =>
    ('0' ≤ c && c ≤ '9') || (('A' ≤ c && c ≤ 'Z') && c ∉ ['I', 'L', 'O', 'U'])

/-- `_is_valid_task_id` -/
def isValidTaskId (text : Text) : Bool := isNumericTaskId text || isUlid text

/-- `_extract_title` -/
def extractTitle (body : Text) : Option Text :=
  (splitlines body).findSome? fun line =>
    if "# ".toList.isPrefixOf (stripped line) then some (stripped ((stripped line).drop 2))
    else none

/-- The keys of the frontmatter that are no metadata. -/
def reservedKeys : List String :=
  ["id", "type", "state", "dependencies", "artifact_links", "parent_id"]

/-- The entries that are metadata. -/
def metadataOf (frontmatter : Entries) : Entries :=
  frontmatter.filter fun e => match e.1 with
    | .str key => key ∉ reservedKeys
    | _ => true

section Tasks

variable (py : Python)

/-- `_string_tuple` -/
def stringTuple : PyValue → List Text
  | .none => []
  | .str s => if s = "" then [] else [s.toList]
  | .list items => (items.map py.str).filter fun text => stripped text ≠ []
  | value => [py.str value]

/-- `_optional_string` -/
def optionalString : PyValue → Option Text
  | .none => none
  | value => if stripped (py.str value) = [] then none else some (stripped (py.str value))

/-- `str(frontmatter.get(key, default))` -/
def textField (frontmatter : Entries) (key : String) (default : Text) : Text :=
  match get? frontmatter key with
  | some value => py.str value
  | none => default

/-- The id that a value of the frontmatter names, if it names one; `none`
raises. -/
def taskIdOf : PyValue → Option (Option Text)
  | .int n => (textOfInt n).map some
  | .bool b => some (some (if b then "True" else "False").toList)
  | .str s => some (if stripped s.toList = [] then none else some (stripped s.toList))
  | _ => some none

/-- `path.read_text` of a note. -/
def Note.content (note : Note) : Except DomainError Text :=
  match note.file with
  | .text content => .ok content
  | .notUtf8 => .error ⟨"task.invalid_utf8", s!"Task file is not valid UTF-8: {note.path}",
      some note.path⟩
  | .notFound => .error ⟨"task.read_failed",
      s!"Cannot read task file {note.path}: [Errno 2] No such file or directory: " ++
        String.ofList (py.repr note.path.toList), some note.path⟩
  | .failed error => .error ⟨"task.read_failed",
      s!"Cannot read task file {note.path}: {error}", some note.path⟩

/-- The frontmatter and the body of a note. -/
def Note.split (note : Note) : Except DomainError (Entries × Text) := do
  let content ← note.content py
  match splitFrontmatter py content with
  | .error exc => .error ⟨"task.invalid_frontmatter", exc, some note.path⟩
  | .ok parts => .ok parts

/-- The task of a note with this id. -/
def Note.task (note : Note) (domainPath : String → String) (id : Text) (frontmatter : Entries)
    (body : Text) : Task where
  id := id
  title := match extractTitle body with
    | none | some [] => note.stem
    | some title => title
  path := domainPath note.path
  currentState := textField py frontmatter "state" []
  taskType := textField py frontmatter "type" "task".toList
  dependencies := stringTuple py (get frontmatter "dependencies")
  artifactLinks := stringTuple py (get frontmatter "artifact_links")
  parentId := optionalString py (get frontmatter "parent_id")
  metadata := metadataOf frontmatter
  body := body

/-- `_read_task_file` -/
def readTaskFile (domainPath : String → String) (note : Note) :
    Option (Except DomainError Task) :=
  match note.split py with
  | .error e => some (.error e)
  | .ok (frontmatter, body) =>
      (taskIdOf (get frontmatter "id")).map fun
        | none => .error ⟨"task.id_missing", "Task is missing frontmatter id.", some note.path⟩
        | some id =>
            if isValidTaskId id then .ok (note.task py domainPath id frontmatter body)
            else .error ⟨"task.invalid_id",
              "Task ID must be a positive integer or legacy 26-character Crockford Base32 ULID.",
              some note.path⟩

end Tasks

-- ================================================================= loading

/-- `_BoardCard`, with its board and path. -/
structure Card extends Boards.BoardCard where
  board : String
  boardPath : String

/-- `_LoadedProject`, and the notes by name. The dictionaries are listed in the
order of their insertion; a task is known by the name of its file. -/
structure Loaded where
  errors : List DomainError := []
  tasksByNote : Store Text Task := ∅
  namesById : List (Text × Text) := []
  boardsByName : List (String × BoardDocument) := []
  cardSeen : List Text := []
  cardsById : List (Text × Card) := []

def Loaded.report (loaded : Loaded) (code message location : String) : Loaded :=
  { loaded with errors := loaded.errors ++ [⟨code, message, some location⟩] }

section Loading

variable (py : Python)

/-- One round of the loop over the notes; `none` raises. -/
def loadNote (p : Project) (loaded : Loaded) (entry : Text × ReadText) : Option Loaded :=
  let note := p.note entry.1 entry.2
  (readTaskFile py p.domainPath note).map fun
    | .error e => { loaded with errors := loaded.errors ++ [e] }
    | .ok task =>
        let errors := loaded.errors ++ Derived.validateTaskStructure task.body note.path false
        match loaded.namesById.lookup task.id with
        | some existing => { loaded with errors := errors ++ [⟨"task.duplicate_id",
            s!"Task ID {String.ofList task.id} appears in both {p.taskPath existing} and " ++
              s!"{note.path}.", some (String.ofList task.id)⟩] }
        | none => { loaded with
            errors := errors
            tasksByNote := loaded.tasksByNote.put note.stem task
            namesById := loaded.namesById ++ [(task.id, entry.1)] }

/-- One round of the loop over the cards of a board. -/
def loadCard (mappings : List StateMapping) (board : Board) (loaded : Loaded)
    (card : Boards.BoardCard) : Loaded :=
  match loaded.tasksByNote.get card.taskNote with
  | none => loaded.report "task.link_missing"
      s!"Board card [[{String.ofList card.taskNote}]] does not resolve to a task file."
      s!"{board.path}:{card.lineIndex + 1}"
  | some task =>
      let loaded := { loaded with cardSeen := task.id :: loaded.cardSeen }
      match stateForBoardColumn mappings board.name card.column with
      | none => loaded.report "board.column_unmapped"
          (s!"Board {String.ofList (py.repr board.name.toList)} column " ++
            s!"{String.ofList (py.repr card.column)} is not mapped to a logical state.")
          s!"{board.path}:{card.lineIndex + 1}"
      | some _ =>
          match loaded.cardsById.lookup task.id with
          | some _ => loaded.report "task.duplicate_active_card"
              s!"Task {String.ofList task.id} appears in more than one board card."
              (String.ofList task.id)
          | none => { loaded with
              cardsById := loaded.cardsById ++ [(task.id, ⟨card, board.name, board.path⟩)] }

/-- One round of the loop over the boards. -/
def loadBoard (mappings : List StateMapping) (loaded : Loaded) (board : Board) : Loaded :=
  match Boards.readBoard board.name board.path board.file with
  | .error e => loaded.report e.code e.message e.location
  | .ok doc => doc.cards.foldl (loadCard py mappings board)
      { loaded with boardsByName := loaded.boardsByName ++ [(board.name, doc)] }

/-- The error of a task without a card. -/
def missingCard (id : Text) : DomainError :=
  ⟨"task.missing_active_card",
    s!"Task {String.ofList id} does not appear in any canonical board column.",
    some (String.ofList id)⟩

/-- `ObsidianAdapter._load`; `none` raises. -/
def load (p : Project) : Option Loaded :=
  if p.rootIsDir then do
    let loaded ← p.files.entries.foldlM (loadNote py p) {}
    let loaded := p.boards.foldl (loadBoard py p.mappings) loaded
    let missing := (loaded.namesById.map Prod.fst).filter fun id => id ∉ loaded.cardSeen
    some { loaded with errors := loaded.errors ++ missing.map missingCard }
  else some (({} : Loaded).report "project.not_found"
    s!"Project root does not exist: {p.root}" p.root)

end Loading

/-- `_state_for_task_id` -/
def stateForTaskId (mappings : List StateMapping) (loaded : Loaded) (id fallback : Text) : Text :=
  match loaded.cardsById.lookup id with
  | none => fallback
  | some card =>
      match stateForBoardColumn mappings card.board card.column with
      | none | some "" => fallback
      | some state => state.toList

/-- `snapshot.tasks` of a project without errors. -/
def Loaded.tasks (loaded : Loaded) (mappings : List StateMapping) : List (Text × Task) :=
  loaded.namesById.filterMap fun entry =>
    (loaded.tasksByNote.get (stemOf entry.2)).map fun task =>
      (entry.1, { task with
        currentState := stateForTaskId mappings loaded entry.1 task.currentState })

section Reading

variable (py : Python)

/-- `ObsidianAdapter.read_task`; `none` raises. -/
def readTask (p : Project) (id : Text) : Option (Except (List DomainError) Task) :=
  (load py p).map fun loaded =>
    if loaded.errors ≠ [] then .error loaded.errors
    else match (loaded.tasks p.mappings).lookup id with
      | none => .error [⟨"task.not_found", s!"Task {String.ofList id} was not found.",
          some (String.ofList id)⟩]
      | some task => .ok task

end Reading

end OpenTulid.Obsidian
