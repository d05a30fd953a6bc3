/-
`create_task` and `write_task`: a task as the text of a note, and its card.

# The text

The frontmatter is the metadata with the fields of the task set over it; a
field that is empty is not set, so metadata of the same name stays. Below it
stand the title as a heading and the body, without the heading with which the
body may start.

# The files

The note is named after the id and a slug of the title, whether or not a file
of that name exists. The row goes where `_find_column_insert_index` says.
-/
import OpenTulid.Adapters.MoveTask

namespace OpenTulid.Obsidian

open Boards (ReadText stripped)
open Frozen (PyValue Entries)
open Frozen.Prompt (Text splitlines joined)

-- ===================================================================== slug

/-- `[a-zA-Z0-9]` -/
def isSlugChar (c : Char) : Bool :=
  ('a' ≤ c && c ≤ 'z') || ('A' ≤ c && c ≤ 'Z') || ('0' ≤ c && c ≤ '9')

/-- `re.sub(r"[^a-zA-Z0-9]+", "-", text)`; in a gap the dash stands already. -/
def dashed : (gap : Bool) → Text → Text
  | _, [] => []
  | gap, c :: rest =>
      if isSlugChar c then c :: dashed false rest
      else if gap then dashed true rest
      else '-' :: dashed true rest

/-- `_slugify` -/
def slugify (value : Text) : Text :=
  let slug := (((dashed false (stripped value)).dropWhile (· = '-')).rdropWhile (· = '-')).map
    Char.toLower
  if slug = [] then "task".toList else slug

-- ===================================================================== text

/-- `"# "` -/
def titleMark : Text := "# ".toList

/-- `_strip_leading_title` -/
def stripLeadingTitle (body : Text) : Text :=
  match (splitlines body).dropWhile fun line => stripped line = [] with
  | [] => body
  | first :: remaining =>
      if titleMark.isPrefixOf (stripped first) then
        joined "\n" (match remaining with
          | next :: rest => if stripped next = [] then rest else next :: rest
          | [] => [])
      else body

/-- A text as a value of a mapping. -/
def textValue (text : Text) : PyValue := .str (String.ofList text)

/-- A tuple of texts as a value of a mapping. -/
def textValues (texts : List Text) : PyValue := .list (texts.map textValue)

/-- `values[key] = value`, where a condition holds. -/
def setIf (condition : Bool) (values : Entries) (key : String) (value : PyValue) : Entries :=
  if condition then set values key value else values

/-- The mapping that `_serialize_task` writes. -/
def taskFrontmatter (task : Task) : Entries :=
  let fields := set task.metadata "id" (textValue task.id)
  let fields := set fields "type" (textValue task.taskType)
  let fields := setIf (task.currentState ≠ []) fields "state" (textValue task.currentState)
  let fields := setIf (task.dependencies ≠ []) fields "dependencies" (textValues task.dependencies)
  let fields := setIf (task.artifactLinks ≠ []) fields "artifact_links"
    (textValues task.artifactLinks)
  setIf task.parentId.isSome fields "parent_id" (textValue (task.parentId.getD []))

/-- The lines below the frontmatter. -/
def contentLines (task : Task) : List Text :=
  let title := stripped task.title
  let body := stripNewlines (stripLeadingTitle task.body)
  (if title = [] then [] else [titleMark ++ title, []]) ++ (if body = [] then [] else [body, []])

/-- The text of a file that is written, as reading gives it. -/
def universalNewlines : Text → Text
  | [] => []
  | '\r' :: '\n' :: rest => '\n' :: universalNewlines rest
  | c :: rest => (if c = '\r' then '\n' else c) :: universalNewlines rest

/-- `{task.id}-{_slugify(task.title)}.md` -/
def noteName (task : Task) : Text := task.id ++ '-' :: slugify task.title ++ ".md".toList

/-- The row of a task. -/
def cardLine (name : Text) : Text := "- [ ] [[".toList ++ stemOf name ++ "]]".toList

section Creating

variable (py : Python)

/-- `_serialize_task`; `none` raises. -/
def serializeTask (task : Task) : Option Text :=
  (serializeFrontmatter py (taskFrontmatter task)).map fun frontmatter =>
    joined "\n" (frontmatter :: [] :: contentLines task)

/-- `ObsidianAdapter.write_task`: the result and the project afterwards; `none`
raises. -/
def writeTask (fault : Option Fault) (p : Project) (task : Task) :
    Option (WriteResult × Project) := do
  let loaded ← load py p
  if loaded.errors ≠ [] then some (⟨none, loaded.errors⟩, p)
  else
    let name := (loaded.namesById.lookup task.id).getD (noteName task)
    (serializeTask py task).map fun content =>
      writePrepared fault [(.note name, universalNewlines content)] p

/-- `ObsidianAdapter.create_task`: the result and the project afterwards; `none`
raises. -/
def createTask (fault : Option Fault) (p : Project) (task : Task) :
    Option (WriteResult × Project) := do
  let loaded ← load py p
  if loaded.errors ≠ [] then some (⟨none, loaded.errors⟩, p)
  else if (loaded.namesById.lookup task.id).isSome then
    some (refused p "task.already_exists" s!"Task {String.ofList task.id} already exists."
      (String.ofList task.id))
  else match mappingForState p.mappings (String.ofList task.currentState) with
    | none => some (refused p "state.unmapped"
        (s!"State {String.ofList (py.repr task.currentState)} is not mapped to an Obsidian " ++
          "board column.") (String.ofList task.currentState))
    | some target =>
        match loaded.boardsByName.lookup target.board with
        | none => some (refused p "board.not_found"
            s!"Board {String.ofList (py.repr target.board.toList)} was not loaded." target.board)
        | some board =>
            match findColumnInsertIndex board.lines target.column.toList with
            | none => some (refused p "board.column_not_found"
                (s!"Board {String.ofList (py.repr target.board.toList)} does not contain column " ++
                  s!"{String.ofList (py.repr target.column.toList)}.") target.column)
            | some insertAt =>
                (serializeTask py task).map fun content =>
                  writePrepared fault
                    [(.note (noteName task), universalNewlines content),
                      (.board target.board, boardText
                        (board.lines.insertIdx insertAt (cardLine (noteName task))))] p

end Creating

-- ================================================================= comparing

/-- The body of a task, as `_created_task_matches` compares it. -/
def comparedBody (body : Text) : Text :=
  stripped (joined "\n" (match splitlines (stripped body) with
    | [] => []
    | first :: rest => if titleMark.isPrefixOf (stripped first) then rest else first :: rest))

/-- `_created_task_matches`, of a task and the one that was to be created. -/
structure CreatedTaskMatches (task expected : Task) : Prop where
  id : task.id = expected.id
  title : stripped task.title = stripped expected.title
  currentState : task.currentState = expected.currentState
  taskType : task.taskType = expected.taskType
  dependencies : task.dependencies = expected.dependencies
  artifactLinks : task.artifactLinks = expected.artifactLinks
  parentId : task.parentId = expected.parentId
  /-- the dictionaries are the same, in whatever order -/
  metadata : (metadataOf task.metadata).Perm (metadataOf expected.metadata)
  body : comparedBody task.body = comparedBody expected.body

end OpenTulid.Obsidian
