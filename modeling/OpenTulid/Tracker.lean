/-
The tracker: task notes and board cards, as the Obsidian adapter loads and
writes them.

# What is on disk

A tracker has one note per task file, under the file's name, and the cards
of its boards. A card lists under its column in the order the cards are
kept, and a new or moved card goes to the end. The state of a task is that
of the column its card stands in; the note's own state field is a cache.

# Loading

Every operation loads the whole project first and answers with the load
errors if there are any: a section heading used twice in one body, one id
in two notes, a card without a note, an unmapped column, two cards or none
for one task.

# Writing

A note is written in one form (`Note.write`): the title as first line, a
blank line, and the body without its own title and outer blank lines.
-/
import OpenTulid.Domain

namespace OpenTulid

/-- Where the tasks of a state stand on the boards. -/
structure StateMapping where
  state : String
  board : String
  column : String
  deriving DecidableEq, Repr

/-- A board card naming a task note. -/
structure Card where
  board : String
  column : String
  note : String
  deriving DecidableEq, Repr

/-- The notes and boards of a project. -/
structure Tracker where
  mappings : List StateMapping
  /-- the column headings of the boards -/
  columns : List (String × String)
  /-- the tasks as their files hold them, under the names of the files -/
  notes : Store String Task
  cards : List Card
  deriving DecidableEq

/-- An in-memory snapshot of the tasks. -/
structure ProjectSnapshot where
  tasks : List Task
  deriving DecidableEq, Repr

namespace Body

/-- The names of the `## ` sections in order. -/
def headings (b : Body) : List String :=
  b.filterMap fun
    | .heading name => some name
    | _ => none

/-- The section names that occur before. -/
def duplicateHeadingNames (b : Body) : List String :=
  go [] b.headings
where
  go (seen : List String) : List String → List String
    | [] => []
    | n :: ns => if n ∈ seen then n :: go seen ns else go (n :: seen) ns

/-- The first title line. -/
def extractTitle (b : Body) : Option String :=
  b.findSome? fun
    | .title text => some text
    | _ => none

/-- The body without blank lines at its start. -/
def trimStart (b : Body) : Body := b.dropWhile (· = .blank)

/-- The body without blank lines at its end. -/
def trimEnd (b : Body) : Body := (b.reverse.dropWhile (· = .blank)).reverse

/-- The body without its leading title and the blank line after it. -/
def stripLeadingTitle (b : Body) : Body :=
  match b.trimStart with
  | .title _ :: .blank :: rest => rest
  | .title _ :: rest => rest
  | _ => b

end Body

/-- A name for a file, from a title. -/
def slugify (title : String) : String :=
  let lowered := title.toList.map fun c =>
    if c.isAlphanum then c.toLower else '-'
  let words := (lowered.splitOn '-').filter (· ≠ [])
  let slug := String.ofList (List.intercalate ['-'] words)
  if slug = "" then "task" else slug

/-- What reading gives back of a task once it has been written. -/
def Task.write (t : Task) : Task :=
  { t with
    body := Body.trimEnd <|
      (if t.title = "" then [] else [.title t.title, .blank]) ++
        t.body.stripLeadingTitle.trimStart }

namespace Tracker

/-- The state of a board column. -/
def stateForBoardColumn (t : Tracker) (board column : String) :
    Option String :=
  (t.mappings.find? fun m => m.board = board ∧ m.column = column).map (·.state)

/-- The column of a state. -/
def mappingForState (t : Tracker) (state : String) : Option StateMapping :=
  t.mappings.find? fun m => m.state = state

/-- The file name and the task of the note with a task id. -/
def noteOf (t : Tracker) (id : TaskId) : Option (String × Task) :=
  t.notes.entries.find? fun e => e.2.id = id

/-- The first card that names the note of a task. -/
def cardOf (t : Tracker) (id : TaskId) : Option Card :=
  match t.noteOf id with
  | some (name, _) => t.cards.find? fun c => c.note = name
  | none => none

/-- The errors of the notes alone. -/
def noteErrors (t : Tracker) : List DomainError :=
  go [] t.notes.entries
where
  go (seen : List TaskId) : List (String × Task) → List DomainError
    | [] => []
    | (name, task) :: rest =>
        task.body.duplicateHeadingNames.map (fun heading =>
          { code := "task.duplicate_heading"
            message := s!"Duplicate task section heading ## {heading}; section headings must appear exactly once."
            location := some name }) ++
        if task.id ∈ seen then
          { code := "task.duplicate_id"
            message := s!"Task ID {task.id} appears in two files."
            location := some task.id } :: go seen rest
        else go (task.id :: seen) rest

/-- The errors of the cards, given the notes that already have one. -/
def cardErrors (t : Tracker) : List DomainError :=
  go [] t.cards
where
  go (seen : List String) : List Card → List DomainError
    | [] => []
    | c :: rest =>
        match t.notes.get c.note with
        | none =>
            { code := "task.link_missing"
              message := s!"Board card {c.note} does not resolve to a task file."
              location := some c.board } :: go seen rest
        | some task =>
            if t.stateForBoardColumn c.board c.column = none then
              { code := "board.column_unmapped"
                message := s!"Board {c.board} column {c.column} is not mapped to a logical state."
                location := some c.board } :: go (c.note :: seen) rest
            else if c.note ∈ seen then
              { code := "task.duplicate_active_card"
                message := s!"Task {task.id} appears in more than one board card."
                location := some task.id } :: go seen rest
            else go (c.note :: seen) rest

/-- The errors of notes no card names. -/
def missingCardErrors (t : Tracker) : List DomainError :=
  (t.notes.entries.filter fun e => t.cards.all fun c => c.note ≠ e.1).map fun e =>
    { code := "task.missing_active_card"
      message := s!"Task {e.2.id} does not appear in any canonical board column."
      location := some e.2.id }

/-- The errors of loading the project. -/
def loadErrors (t : Tracker) : List DomainError :=
  t.noteErrors ++ t.cardErrors ++ t.missingCardErrors

/-- The task of a note, in the state of its card's column. -/
def loadedTask (t : Tracker) (name : String) (task : Task) : Task :=
  let state := (t.cards.find? fun c => c.note = name).bind fun c =>
    t.stateForBoardColumn c.board c.column
  { task with
    title := task.body.extractTitle.getD name
    currentState := state.getD task.currentState }

/-- `load_project`. -/
def loadProject (t : Tracker) : Except (List DomainError) ProjectSnapshot :=
  if t.loadErrors = [] then
    .ok ⟨t.notes.entries.map fun e => t.loadedTask e.1 e.2⟩
  else .error t.loadErrors

/-- `read_task`. -/
def readTask (t : Tracker) (id : TaskId) : Except (List DomainError) Task :=
  if t.loadErrors = [] then
    match t.noteOf id with
    | some (name, task) => .ok (t.loadedTask name task)
    | none => .error [⟨"task.not_found", s!"Task {id} was not found.", some id⟩]
  else .error t.loadErrors

/-- `write_task`. -/
def writeTask (t : Tracker) (task : Task) : Except (List DomainError) Tracker :=
  if t.loadErrors = [] then
    let name := match t.noteOf task.id with
      | some (name, _) => name
      | none => s!"{task.id}-{slugify task.title}"
    .ok { t with notes := t.notes.put name task.write }
  else .error t.loadErrors

/-- `create_task`. -/
def createTask (t : Tracker) (task : Task) : Except (List DomainError) Tracker :=
  if t.loadErrors = [] then
    if (t.noteOf task.id).isSome then
      .error [⟨"task.already_exists", s!"Task {task.id} already exists.", some task.id⟩]
    else match t.mappingForState task.currentState with
    | none => .error [⟨"state.unmapped",
        s!"State {task.currentState} is not mapped to an Obsidian board column.",
        some task.currentState⟩]
    | some target =>
        if (target.board, target.column) ∈ t.columns then
          let name := s!"{task.id}-{slugify task.title}"
          .ok { t with
            notes := t.notes.put name task.write
            cards := t.cards ++ [⟨target.board, target.column, name⟩] }
        else .error [⟨"board.column_not_found",
          s!"Board {target.board} does not contain column {target.column}.",
          some target.column⟩]
  else .error t.loadErrors

/-- The note of a task with its cached state set, when it caches one. -/
def syncTaskStateCache (t : Tracker) (name : String) (task : Task)
    (state : String) : Store String Task :=
  if task.currentState = "" then t.notes
  else t.notes.put name { task with currentState := state }

/-- `move_task`. -/
def moveTask (t : Tracker) (id : TaskId) (state : String) :
    Except (List DomainError) Tracker :=
  if t.loadErrors = [] then
    match t.noteOf id with
    | none => .error [⟨"task.card_not_found", s!"Task {id} does not have a board card.", some id⟩]
    | some (name, task) =>
    match t.cards.find? fun c => c.note = name with
    | none => .error [⟨"task.card_not_found", s!"Task {id} does not have a board card.", some id⟩]
    | some card =>
    match t.mappingForState state with
    | none => .error [⟨"state.unmapped",
        s!"State {state} is not mapped to an Obsidian board column.", some state⟩]
    | some target =>
        if card.board = target.board ∧ card.column = target.column then
          .ok { t with notes := t.syncTaskStateCache name task state }
        else if target.board ≠ card.board then
          .error [⟨"adapter.cross_board_move_unsupported",
            "Moving cards between different board files is not implemented yet.",
            some id⟩]
        else if (target.board, target.column) ∈ t.columns then
          .ok { t with
            notes := t.syncTaskStateCache name task state
            cards := t.cards.erase card ++ [{ card with column := target.column }] }
        else .error [⟨"board.column_not_found",
          s!"Board {target.board} does not contain column {target.column}.",
          some target.column⟩]
  else .error t.loadErrors

end Tracker

end OpenTulid
