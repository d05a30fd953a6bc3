/-
`repair_project`: ids, types and states of the notes of a project.

The states come from the cards of the boards. Every note that can be read is
checked: an integer id becomes its text, a missing id the next number, a
missing type a default, and a state that is not that of the board the board's.
What changed is written as a whole document. Notes are listed in the order of
their paths; boards are not among them.
-/
import OpenTulid.Adapters.Frontmatter
import OpenTulid.Runtime.DerivedTasks

namespace OpenTulid.Obsidian

open Boards (ReadText stripped)
open Frozen (PyValue Entries)
open Frozen.Prompt (Text)

/-- A board of the configuration and what reading its file gives. -/
structure Board where
  name : String
  path : String
  file : ReadText

/-- `ObsidianStateMapping` -/
structure StateMapping where
  state : String
  board : String
  column : String

/-- A file of the tasks folder. -/
structure Note where
  path : String
  /-- `path.stem` -/
  stem : Text
  file : ReadText

-- ================================================================== states

/-- `_state_for_board_column` -/
def stateForBoardColumn (mappings : List StateMapping) (board : String) (column : Text) :
    Option String :=
  (mappings.find? fun mapping => mapping.board = board && mapping.column.toList = column).map
    StateMapping.state

/-- The states by note; the later card counts. -/
abbrev NoteStates := List (Text × String)

def NoteStates.get (states : NoteStates) (stem : Text) : Option String := states.lookup stem

section Repair

variable (py : Python)

/-- The cards of a board. -/
def cardStates (mappings : List StateMapping) (board : Board)
    (acc : NoteStates × List DomainError) (card : Boards.BoardCard) :
    NoteStates × List DomainError :=
  match stateForBoardColumn mappings board.name card.column with
  | none => (acc.1, acc.2 ++ [⟨"board.column_unmapped",
      s!"Board {String.ofList (py.repr board.name.toList)} column " ++
        s!"{String.ofList (py.repr card.column)} is not mapped to a logical state.",
      some s!"{board.path}:{card.lineIndex + 1}"⟩])
  | some state => ((card.taskNote, state) :: acc.1, acc.2)

/-- The loop over the boards. -/
def boardStates (mappings : List StateMapping) (boards : List Board) :
    NoteStates × List DomainError :=
  boards.foldl (fun acc board =>
    match Boards.readBoard board.name board.path board.file with
    | .error e => (acc.1, acc.2 ++ [⟨e.code, e.message, some e.location⟩])
    | .ok doc => doc.cards.foldl (cardStates py mappings board) acc) ([], [])

-- =================================================================== notes

/-- The frontmatter and the body of a note that can be read. -/
def Note.read (note : Note) : Option (Entries × Text) :=
  match note.file with
  | .text content => (splitFrontmatter py content).toOption
  | _ => none

/-- `_existing_numeric_task_ids`; `none` raises. -/
def existingNumericTaskIds : List Note → Option (List Int)
  | [] => some []
  | note :: rest =>
      match note.read py with
      | none => existingNumericTaskIds rest
      | some (frontmatter, _) => do
          let number ← numericId (get frontmatter "id")
          let ids ← existingNumericTaskIds rest
          some (number.toList ++ ids)

/-- `used_numeric_ids` and `next_numeric_id` -/
structure Counter where
  used : List Int
  next : Int

/-- The counter before the loop. -/
def Counter.start (used : List Int) : Counter :=
  ⟨used, (match used with | [] => 0 | n :: rest => rest.foldl max n) + 1⟩

/-- `while next_numeric_id in used_numeric_ids`; there are not more rounds
than used ids. -/
def skipUsed (used : List Int) : (rounds : Nat) → Int → Int
  | 0, next => next
  | rounds + 1, next => if next ∈ used then skipUsed used rounds (next + 1) else next

/-- The frontmatter of a note while it is repaired. -/
structure Draft where
  frontmatter : Entries
  changed : Bool
  errors : List DomainError

/-- A field is assigned. -/
def Draft.assign (draft : Draft) (key : String) (text : Text) : Draft :=
  { draft with
    frontmatter := set draft.frontmatter key (.str (String.ofList text)), changed := true }

def Draft.report (draft : Draft) (code message location : String) : Draft :=
  { draft with errors := draft.errors ++ [⟨code, message, some location⟩] }

/-- A text that is not blank. -/
def isFilled : PyValue → Bool
  | .str s => stripped s.toList ≠ []
  | _ => false

/-- The id; `none` raises. -/
def repairId (fix : Bool) (location : String) (counter : Counter) (draft : Draft) :
    Option (Draft × Counter) :=
  match get draft.frontmatter "id" with
  | .int n => (textOfInt n).map fun text => (draft.assign "id" text, counter)
  | .bool b => some (draft.assign "id" (if b then "True" else "False").toList, counter)
  | taskId =>
      if isFilled taskId then some (draft, counter)
      else if fix then
        let number := skipUsed counter.used counter.used.length counter.next
        (textOfInt number).map fun text =>
          (draft.assign "id" text, ⟨number :: counter.used, number + 1⟩)
      else some (draft.report "task.id_missing"
        ("Task is missing frontmatter id. Run \x60tulid validate --fix\x60 to assign " ++
          "the next numeric id.") location, counter)

/-- The type. -/
def repairType (fix : Bool) (location : String) (draft : Draft) : Draft :=
  if isFilled (get draft.frontmatter "type") then draft
  else if fix then draft.assign "type" "ProductIdea".toList
  else draft.report "task.type_missing"
    ("Task is missing frontmatter type. Run \x60tulid validate --fix\x60 to assign " ++
      "ProductIdea.") location

/-- `str(value or "")` -/
def stateText (value : PyValue) : Text := if truthy value then py.str value else []

/-- The state. -/
def repairState (fix : Bool) (location : String) (boardState : Option String) (draft : Draft) :
    Draft :=
  match boardState with
  | none => draft
  | some state =>
      let value := get draft.frontmatter "state"
      if stateText py value = state.toList then draft
      else if fix then draft.assign "state" state.toList
      else draft.report "task.state_mismatch"
        (s!"Task frontmatter state {String.ofList (py.repr (py.str value))} does not match " ++
          s!"board column state {String.ofList (py.repr state.toList)}. Run " ++
          "\x60tulid validate --fix\x60 to apply the board state.") location

/-- What is found of a note: the errors, and the content to write. -/
structure NotePlan where
  errors : List DomainError
  write : Option Text

/-- The round of the loop for one note; `none` raises. -/
def repairNote (fix : Bool) (states : NoteStates) (counter : Counter) (note : Note) :
    Option (NotePlan × Counter) :=
  match note.file with
  | .notUtf8 => some (⟨[⟨"task.invalid_utf8", s!"Task file is not valid UTF-8: {note.path}",
      some note.path⟩], none⟩, counter)
  | .notFound => some (⟨[⟨"task.read_failed", 
      s!"Cannot read task file {note.path}: [Errno 2] No such file or directory: " ++
        String.ofList (py.repr note.path.toList), some note.path⟩], none⟩, counter)
  | .failed error => some (⟨[⟨"task.read_failed",
      s!"Cannot read task file {note.path}: {error}", some note.path⟩], none⟩, counter)
  | .text content =>
      match splitFrontmatter py content with
      | .error exc =>
          some (⟨[⟨"task.invalid_frontmatter", exc, some note.path⟩], none⟩, counter)
      | .ok (frontmatter, body) => do
          let schemaErrors := Derived.validateTaskSchema body note.path
          let (draft, counter) ← repairId fix note.path counter ⟨frontmatter, false, schemaErrors⟩
          let draft := repairType fix note.path draft
          let draft := repairState py fix note.path (states.get note.stem) draft
          if draft.changed then
            let content ← serializeTaskDocument py draft.frontmatter body
            some (⟨draft.errors, some content⟩, counter)
          else some (⟨draft.errors, none⟩, counter)

/-- The loop over the notes; `none` raises. -/
def repairNotes (fix : Bool) (states : NoteStates) :
    Counter → List Note → Option (List NotePlan)
  | _, [] => some []
  | counter, note :: rest => do
      let (plan, counter) ← repairNote py fix states counter note
      let plans ← repairNotes fix states counter rest
      some (plan :: plans)

/-- A note after its write. -/
def NotePlan.apply (plan : NotePlan) (note : Note) : Note :=
  match plan.write with
  | some content => { note with file := .text content }
  | none => note

/-- What a repair does: the notes to write and the errors that it found. -/
structure Plan where
  notes : List NotePlan
  errors : List DomainError

/-- The repair up to the writes; `none` raises. -/
def planRepair (mappings : List StateMapping) (boards : List Board) (fix : Bool)
    (notes : List Note) : Option Plan := do
  let (states, boardErrors) := boardStates py mappings boards
  let used ← existingNumericTaskIds py notes
  let plans ← repairNotes py fix states (Counter.start used) notes
  some ⟨plans, boardErrors ++ plans.flatMap NotePlan.errors⟩

/-- The notes that a repair writes. -/
def Plan.writes (plan : Plan) : List Text := plan.notes.filterMap NotePlan.write

/-- The path of the last note that is written. -/
def Plan.lastPath (plan : Plan) (notes : List Note) : Option String :=
  (((plan.notes.zip notes).filter fun e => e.1.write.isSome).getLast?).map (·.2.path)

/-- `ObsidianAdapter.repair_project`: the notes and the errors afterwards. The
writes succeed, or none of them is left and `fault` is the text of what they
raised. `none` raises. -/
def repairProject (mappings : List StateMapping) (boards : List Board) (fix : Bool)
    (fault : Option String) (notes : List Note) : Option (List Note × List DomainError) := do
  let plan ← planRepair py mappings boards fix notes
  if fix && !plan.writes.isEmpty then
    match fault with
    | none => some (List.zipWith NotePlan.apply plan.notes notes, plan.errors)
    | some exc => some (notes, plan.errors ++
        [⟨"file.write_failed", s!"Cannot write files: {exc}", plan.lastPath notes⟩])
  else some (notes, plan.errors)

end Repair

end OpenTulid.Obsidian
