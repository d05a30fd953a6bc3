/-
`move_task`: the card of a task goes to the column of a state.

The row is taken out of the lines of its board by the index that reading the
board gave, and put in again where `_find_column_insert_index` says: a scanner
of its own, which takes every line with two number signs as a heading, also in
a frontmatter or a settings block. The state that the note names is written
along. Writes succeed together; of writes that fail only what could not be
restored is left.
-/
import OpenTulid.Adapters.Project

namespace OpenTulid.Obsidian

open Boards (ReadText stripped headingMark parseTaskRow)
open Frozen.Prompt (Text joined)

-- ================================================================== writes

/-- The file of a prepared write. -/
inductive Target where
  /-- a file of the tasks folder -/
  | note (name : Text)
  /-- the file of a board -/
  | board (name : String)
  deriving DecidableEq

/-- `_PreparedWrite` -/
abbrev PreparedWrite := Target × Text

/-- `WriteResult` -/
structure WriteResult where
  path : Option String := none
  errors : List DomainError := []

def WriteResult.accepted (result : WriteResult) : Bool := result.errors.isEmpty

/-- An `OSError` of the writes. -/
structure Fault where
  /-- its text -/
  error : String
  /-- what is left of the files that were replaced and not restored -/
  left : List (Option ReadText)

/-- The project with the file of a board written. -/
def Project.putBoard (p : Project) (name : String) (file : ReadText) : Project :=
  { p with
    boards := p.boards.map fun board =>
      if board.name = name then { board with file := file } else board
    boards_nodup := by
      have hnames : (Board.name ∘ fun board : Board =>
          if board.name = name then { board with file := file } else board) = Board.name := by
        funext board
        dsimp only [Function.comp]
        split <;> rfl
      rw [List.map_map, hnames]
      exact p.boards_nodup }

/-- The project with a file written. -/
def Project.put (p : Project) : Target → ReadText → Project
  | .note name, file => { p with files := p.files.put name file }
  | .board name, file => p.putBoard name file

/-- The path of a file. -/
def Project.pathOf (p : Project) : Target → Option String
  | .note name => some (p.taskPath name)
  | .board name => (p.boards.find? fun board => board.name = name).map Board.path

/-- `_write_prepared`: all writes, or those left of a failure; the last file
is not replaced before a failure. -/
def writePrepared (fault : Option Fault) (writes : List PreparedWrite) (p : Project) :
    WriteResult × Project :=
  let path := writes.getLast?.bind fun write => p.pathOf write.1
  match fault with
  | none => (⟨path, []⟩, writes.foldl (fun p write => p.put write.1 (.text write.2)) p)
  | some fault =>
      (⟨none, [⟨"file.write_failed", s!"Cannot write files: {fault.error}", path⟩]⟩,
        (writes.dropLast.zip fault.left).foldl (fun p e =>
          match e.2 with
          | none => p
          | some file => p.put e.1.1 file) p)

-- ================================================================= columns

/-- The loop of `_find_column_insert_index`, from line number `idx`. -/
def findColumn (column : Text) : Nat → Bool → Option Nat → List Text → Option Nat
  | idx, inTarget, insertAt, [] => if inTarget then some (insertAt.getD idx) else none
  | idx, inTarget, insertAt, line :: rest =>
      if headingMark.isPrefixOf (stripped line) then
        if inTarget then some (insertAt.getD idx)
        else if stripped ((stripped line).drop 3) = column then
          findColumn column (idx + 1) true (some (idx + 1)) rest
        else findColumn column (idx + 1) false insertAt rest
      else if inTarget && (parseTaskRow line).isSome then
        findColumn column (idx + 1) inTarget (some (idx + 1)) rest
      else findColumn column (idx + 1) inTarget insertAt rest

/-- `_find_column_insert_index` -/
def findColumnInsertIndex (lines : List Text) (column : Text) : Option Nat :=
  findColumn column 0 false none lines

/-- `_mapping_for_state` -/
def mappingForState (mappings : List StateMapping) (state : String) : Option StateMapping :=
  mappings.find? fun mapping => mapping.state = state

/-- The text of a board of these lines. -/
def boardText (lines : List Text) : Text := joined "\n" lines ++ ['\n']

section Moving

variable (py : Python)

/-- `_prepare_task_state_cache`: the content to write, if there is one; `none`
raises. -/
def prepareTaskStateCache (note : Note) (state : String) :
    Option (Except DomainError (Option Text)) :=
  match note.split py with
  | .error e => some (.error e)
  | .ok (frontmatter, body) =>
      if (get? frontmatter "state").isNone then some (.ok none)
      else (serializeFrontmatter py (set frontmatter "state" (.str state))).map fun content =>
        .ok (some (if body = [] then content ++ ['\n']
          else content ++ "\n\n".toList ++ stripNewlines body ++ ['\n']))

/-- The write of the state into the note of a task, if there is one. -/
def stateCacheWrites (p : Project) (loaded : Loaded) (id : Text) (state : String) :
    Option (Except DomainError (List PreparedWrite)) :=
  match loaded.namesById.lookup id with
  | none => some (.ok [])
  | some name =>
      (prepareTaskStateCache py (p.note name ((p.files.get name).getD .notFound)) state).map fun
        | .error e => .error e
        | .ok content => .ok (content.toList.map fun content => (.note name, content))

/-- A result without writes. -/
def refused (p : Project) (code message : String) (location : String) : WriteResult × Project :=
  (⟨none, [⟨code, message, some location⟩]⟩, p)

/-- `_sync_task_state_cache` -/
def syncTaskStateCache (fault : Option Fault) (p : Project) (loaded : Loaded) (id : Text)
    (state fallbackPath : String) : Option (WriteResult × Project) :=
  (stateCacheWrites py p loaded id state).map fun
    | .error e => (⟨none, [e]⟩, p)
    | .ok [] => (⟨some fallbackPath, []⟩, p)
    | .ok writes => writePrepared fault writes p

/-- The move of a card within its board. -/
def moveCard (fault : Option Fault) (p : Project) (loaded : Loaded) (id : Text) (state : String)
    (card : Card) (target : StateMapping) : Option (WriteResult × Project) := do
  let source ← loaded.boardsByName.lookup card.board
  let movedLine ← source.lines[card.lineIndex]?
  let lines := source.lines.eraseIdx card.lineIndex
  match findColumnInsertIndex lines target.column.toList with
  | none => some (refused p "board.column_not_found"
      (s!"Board {String.ofList (py.repr target.board.toList)} does not contain column " ++
        s!"{String.ofList (py.repr target.column.toList)}.") target.column)
  | some insertAt =>
      let lines := lines.insertIdx insertAt movedLine
      (stateCacheWrites py p loaded id state).map fun
        | .error e => (⟨none, [e]⟩, p)
        | .ok writes =>
            writePrepared fault (writes ++ [(.board card.board, boardText lines)]) p

/-- `ObsidianAdapter.move_task`: the result and the project afterwards; `none`
raises. -/
def moveTask (fault : Option Fault) (p : Project) (id : Text) (state : String) :
    Option (WriteResult × Project) := do
  let loaded ← load py p
  if loaded.errors ≠ [] then some (⟨none, loaded.errors⟩, p)
  else match loaded.cardsById.lookup id with
    | none => some (refused p "task.card_not_found"
        s!"Task {String.ofList id} does not have a board card." (String.ofList id))
    | some card =>
        match mappingForState p.mappings state with
        | none => some (refused p "state.unmapped"
            (s!"State {String.ofList (py.repr state.toList)} is not mapped to an Obsidian " ++
              "board column.") state)
        | some target =>
            if card.board = target.board ∧ card.column = target.column.toList then
              syncTaskStateCache py fault p loaded id state card.boardPath
            else if target.board ≠ card.board then
              some (refused p "adapter.cross_board_move_unsupported"
                "Moving cards between different board files is not implemented yet."
                (String.ofList id))
            else moveCard py fault p loaded id state card target

end Moving

end OpenTulid.Obsidian
