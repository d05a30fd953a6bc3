/-
The files of a tracker: the notes and boards line by line, as the Obsidian
adapter reads and writes them.

# Lines

A file is the list of its lines, each as the readers classify it once its
outer blanks are stripped. A `---` line of a note is `Line.fence`. A board
row is `BoardLine.row` when one of the row patterns matches; the names the
adapter itself writes (an id and a slug) always match.

# Frontmatter

The text between the first two fences of a note belongs to the YAML
library: `Yaml` is what the adapter relies on, that a dumped frontmatter
loads as it was. Where the closing fence stands is the adapter's own
decision (`splitFrontmatter`).

# Regions of a board

Reading a board skips the lines between two fences and the lines of a
settings block (`BoardScan`). The search for the place of a new row
(`findColumnInsertIndex`) knows columns and rows only.

# Loading

`load` reads all notes, then all boards, then looks for notes without a
card; every reader and writer answers its errors if there are any.
-/
import OpenTulid.Tracker
import OpenTulid.Completion.Submit

namespace OpenTulid

-- ============================================================== notes

/-- A `---` line. -/
def Line.fence : Line := .text "---"

/-- The values of a note's frontmatter; the keys no modelled function names
are its metadata. -/
structure Frontmatter where
  id : Option String := none
  type : Option String := none
  state : Option String := none
  dependencies : List String := []
  artifactLinks : List String := []
  parentId : Option String := none
  metadata : List (String × String) := []
  deriving DecidableEq, Repr

/-- The YAML library: dumping values and loading lines. -/
structure Yaml where
  dump : Frontmatter → List Line
  load : List Line → Option Frontmatter
  load_dump : ∀ f, load (dump f) = some f

/-- The body without blank lines around it. -/
def Body.trim (b : Body) : Body := b.trimStart.trimEnd

/-- `_split_frontmatter`: the values between the first two fences and the
body after them. -/
def splitFrontmatter (Y : Yaml) : List Line → Except String (Frontmatter × Body)
  | [] => .ok ({}, [])
  | first :: rest =>
      if first ≠ Line.fence then .ok ({}, first :: rest)
      else if Line.fence ∈ rest then
        match Y.load (rest.takeWhile (· ≠ Line.fence)) with
        | none => .error "Task frontmatter is not valid YAML"
        | some f => .ok (f, Body.trim (rest.dropWhile (· ≠ Line.fence)).tail)
      else .ok ({}, first :: rest)

/-- The characters of a legacy task id. -/
def ulidChar (c : Char) : Bool :=
  c.isDigit || (c.isUpper && c ≠ 'I' && c ≠ 'L' && c ≠ 'O' && c ≠ 'U')

/-- `_is_valid_task_id`: a positive integer or a legacy ULID. -/
def isValidTaskId (id : TaskId) : Bool :=
  (numericTaskId id).isSome || (id.toList.length = 26 && id.toList.all ulidChar)

/-- `_read_task_file`. -/
def readTaskFile (Y : Yaml) (stem : String) (content : List Line) :
    Except DomainError Task :=
  match splitFrontmatter Y content with
  | .error text => .error ⟨"task.invalid_frontmatter", text, some stem⟩
  | .ok (f, body) =>
      match f.id with
      | none => .error ⟨"task.id_missing", "Task is missing frontmatter id.", some stem⟩
      | some id =>
          if isValidTaskId id then .ok {
            id := id
            title := (body.extractTitle.filter (· ≠ "")).getD stem
            currentState := f.state.getD ""
            taskType := f.type.getD "task"
            dependencies := f.dependencies
            artifactLinks := f.artifactLinks
            parentId := f.parentId
            metadata := f.metadata
            body := body }
          else .error ⟨"task.invalid_id",
            "Task ID must be a positive integer or legacy 26-character Crockford Base32 ULID.",
            some stem⟩

/-- `validate_task_structure` without the title: every heading that occurs
again. -/
def validateTaskStructure (body : Body) (location : Option String) :
    List DomainError :=
  body.duplicateHeadingNames.map fun name =>
    ⟨"task.duplicate_heading",
      s!"Duplicate task section heading ## {name}; section headings must appear exactly once.",
      location⟩

/-- `_serialize_frontmatter`. -/
def serializeFrontmatter (Y : Yaml) (f : Frontmatter) : List Line :=
  Line.fence :: (Y.dump f ++ [Line.fence])

/-- The frontmatter a task is written with. -/
def Task.frontmatter (t : Task) : Frontmatter where
  id := some t.id
  type := some t.taskType
  state := if t.currentState = "" then none else some t.currentState
  dependencies := t.dependencies
  artifactLinks := t.artifactLinks
  parentId := t.parentId
  metadata := t.metadata

/-- The lines of a section after a blank line, none for an empty one. -/
def afterBlank (lines : List Line) : List Line :=
  if lines = [] then [] else .blank :: lines

/-- `_serialize_task`. -/
def serializeTask (Y : Yaml) (t : Task) : List Line :=
  serializeFrontmatter Y t.frontmatter ++
    afterBlank (if t.title = "" then [] else [.title t.title]) ++
    afterBlank (Body.trim t.body.stripLeadingTitle)

-- ============================================================= boards

/-- One line of a board file, as its readers classify it. -/
inductive BoardLine where
  /-- `---` -/
  | fence
  /-- `%% kanban:settings` -/
  | settings
  /-- `%%` -/
  | settingsEnd
  /-- `## …` -/
  | column (name : String)
  /-- a task row, `- [ ] [[…]]` -/
  | row (note : String)
  | blank
  | other (text : String)
  deriving DecidableEq, Repr

/-- A card of a board: its column, the line it stands on and the note it
names. -/
structure BoardCard where
  board : String
  column : String
  lineIndex : Nat
  note : String
  deriving DecidableEq, Repr

/-- Where the reader of a board stands. -/
structure BoardScan where
  inFrontmatter : Bool := false
  inSettings : Bool := false
  column : Option String := none
  deriving DecidableEq, Repr

namespace BoardScan

/-- The next line is read, not skipped. -/
def live (s : BoardScan) : Bool := !s.inFrontmatter && !s.inSettings

/-- Where the reader stands after a line. -/
def step (s : BoardScan) (line : BoardLine) : BoardScan :=
  if line = .fence ∧ !s.inSettings then { s with inFrontmatter := !s.inFrontmatter }
  else if s.inFrontmatter then s
  else if line = .settings then { s with inSettings := true }
  else if s.inSettings then
    if line = .settingsEnd then { s with inSettings := false } else s
  else match line with
    | .column name => { s with column := some name }
    | _ => s

end BoardScan

/-- The loop of `_read_board` from a line on. -/
def readBoardFrom (board : String) (s : BoardScan) (index : Nat) :
    List BoardLine → Except DomainError (List BoardCard)
  | [] => .ok []
  | line :: rest =>
      let next := readBoardFrom board (s.step line) (index + 1) rest
      if !s.live then next
      else match line with
        | .row note =>
            match s.column with
            | none => .error ⟨"board.card_before_column",
                "Task row appears before any section heading.", some s!"{board}:{index + 1}"⟩
            | some column => next.map (⟨board, column, index, note⟩ :: ·)
        | .settingsEnd | .other _ => .error ⟨"board.invalid_task_row",
            "Task row must contain exactly one task link like [[Task 1]].",
            some s!"{board}:{index + 1}"⟩
        | _ => next

/-- `_read_board`. -/
def readBoard (board : String) (lines : List BoardLine) :
    Except DomainError (List BoardCard) :=
  readBoardFrom board {} 0 lines

/-- The loop of `_find_column_insert_index` from a line on. -/
def insertIndexFrom (column : String) (index : Nat) (inTarget : Bool)
    (insertAt : Option Nat) : List BoardLine → Option Nat
  | [] => if inTarget then some (insertAt.getD index) else none
  | .column name :: rest =>
      if inTarget then some (insertAt.getD index)
      else insertIndexFrom column (index + 1) (name = column)
        (if name = column then some (index + 1) else insertAt) rest
  | .row _ :: rest =>
      insertIndexFrom column (index + 1) inTarget
        (if inTarget then some (index + 1) else insertAt) rest
  | _ :: rest => insertIndexFrom column (index + 1) inTarget insertAt rest

/-- `_find_column_insert_index`. -/
def findColumnInsertIndex (lines : List BoardLine) (column : String) : Option Nat :=
  insertIndexFrom column 0 false none lines

-- ============================================================ loading

/-- The tracker files of a project and the configuration that names them:
the file of each board and the column of each state. -/
structure Vault where
  mappings : List StateMapping
  boards : Store String String
  boardFiles : Store String (List BoardLine)
  /-- the note files by their stems -/
  notes : Store String (List Line)
  deriving DecidableEq

/-- What a load has gathered. -/
structure LoadedProject where
  /-- the notes with their tasks -/
  notes : List (String × Task) := []
  /-- the card of each task that has one -/
  cards : List (TaskId × BoardCard) := []
  cardSeenTaskIds : List TaskId := []
  errors : List DomainError := []
  deriving DecidableEq, Repr

namespace LoadedProject

/-- The note and the task of an id. -/
def noteOf (l : LoadedProject) (id : TaskId) : Option (String × Task) :=
  l.notes.find? fun e => e.2.id = id

/-- The gathered with an error more. -/
def withError (l : LoadedProject) (e : DomainError) : LoadedProject :=
  { l with errors := l.errors ++ [e] }

end LoadedProject

namespace Vault

/-- `_state_for_board_column`. -/
def stateForBoardColumn (v : Vault) (board column : String) : Option String :=
  (v.mappings.find? fun m => m.board = board ∧ m.column = column).map (·.state)

/-- `_mapping_for_state`. -/
def mappingForState (v : Vault) (state : String) : Option StateMapping :=
  v.mappings.find? fun m => m.state = state

/-- One note of a load. -/
def loadNote (Y : Yaml) (l : LoadedProject) (file : String × List Line) :
    LoadedProject :=
  match readTaskFile Y file.1 file.2 with
  | .error e => l.withError e
  | .ok task =>
      let l := { l with errors := l.errors ++ validateTaskStructure task.body (some file.1) }
      match l.noteOf task.id with
      | some (existing, _) => l.withError ⟨"task.duplicate_id",
          s!"Task ID {task.id} appears in both {existing} and {file.1}.", some task.id⟩
      | none => { l with notes := l.notes ++ [(file.1, task)] }

/-- One card of a load. -/
def loadCard (v : Vault) (l : LoadedProject) (card : BoardCard) : LoadedProject :=
  match l.notes.find? fun e => e.1 = card.note with
  | none => l.withError ⟨"task.link_missing",
      s!"Board card [[{card.note}]] does not resolve to a task file.",
      some s!"{card.board}:{card.lineIndex + 1}"⟩
  | some (_, task) =>
      let l := { l with cardSeenTaskIds := l.cardSeenTaskIds ++ [task.id] }
      if (v.stateForBoardColumn card.board card.column).isNone then
        l.withError ⟨"board.column_unmapped",
          s!"Board {card.board} column {card.column} is not mapped to a logical state.",
          some s!"{card.board}:{card.lineIndex + 1}"⟩
      else if (l.cards.lookup task.id).isSome then
        l.withError ⟨"task.duplicate_active_card",
          s!"Task {task.id} appears in more than one board card.", some task.id⟩
      else { l with cards := l.cards ++ [(task.id, card)] }

/-- One board of a load. -/
def loadBoard (v : Vault) (l : LoadedProject) (board : String × String) :
    LoadedProject :=
  match v.boardFiles.get board.2 with
  | none => l.withError ⟨"board.not_found",
      s!"Board file does not exist: {board.2}", some board.2⟩
  | some lines =>
      match readBoard board.1 lines with
      | .error e => l.withError e
      | .ok cards => cards.foldl v.loadCard l

/-- The look for a card of a loaded note. -/
def checkCard (l : LoadedProject) (note : String × Task) : LoadedProject :=
  if note.2.id ∈ l.cardSeenTaskIds then l
  else l.withError ⟨"task.missing_active_card",
    s!"Task {note.2.id} does not appear in any canonical board column.", some note.2.id⟩

/-- `_load`. -/
def load (Y : Yaml) (v : Vault) : LoadedProject :=
  let l := v.notes.entries.foldl (loadNote Y) {}
  let l := v.boards.entries.foldl v.loadBoard l
  l.notes.foldl checkCard l

/-- `_state_for_task_id`, as the task a load answers carries it. -/
def loadedTask (v : Vault) (l : LoadedProject) (task : Task) : Task :=
  match l.cards.lookup task.id with
  | none => task
  | some card => { task with currentState :=
      match v.stateForBoardColumn card.board card.column with
      | some state => if state = "" then task.currentState else state
      | none => task.currentState }

/-- `load_project`. -/
def loadProject (Y : Yaml) (v : Vault) : Except (List DomainError) ProjectSnapshot :=
  let l := v.load Y
  if l.errors = [] then .ok ⟨l.notes.map fun e => v.loadedTask l e.2⟩
  else .error l.errors

/-- `read_task`. -/
def readTask (Y : Yaml) (v : Vault) (id : TaskId) : Except (List DomainError) Task :=
  let l := v.load Y
  if l.errors = [] then
    match l.noteOf id with
    | some (_, task) => .ok (v.loadedTask l task)
    | none => .error [⟨"task.not_found", s!"Task {id} was not found.", some id⟩]
  else .error l.errors

-- ============================================================ writing

/-- The file name of a new task. -/
def noteName (task : Task) : String := s!"{task.id}-{slugify task.title}"

/-- `write_task`. -/
def writeTask (Y : Yaml) (v : Vault) (task : Task) : Except (List DomainError) Vault :=
  let l := v.load Y
  if l.errors = [] then
    let name := match l.noteOf task.id with
      | some (name, _) => name
      | none => noteName task
    .ok { v with notes := v.notes.put name (serializeTask Y task) }
  else .error l.errors

/-- The lines and the file of a board. -/
def boardLines (v : Vault) (board : String) : Option (String × List BoardLine) := do
  let file ← v.boards.get board
  return (file, ← v.boardFiles.get file)

/-- `create_task`. -/
def createTask (Y : Yaml) (v : Vault) (task : Task) : Except (List DomainError) Vault :=
  let l := v.load Y
  if l.errors = [] then
    if (l.noteOf task.id).isSome then
      .error [⟨"task.already_exists", s!"Task {task.id} already exists.", some task.id⟩]
    else match v.mappingForState task.currentState with
    | none => .error [⟨"state.unmapped",
        s!"State {task.currentState} is not mapped to an Obsidian board column.",
        some task.currentState⟩]
    | some target =>
    match v.boardLines target.board with
    | none => .error [⟨"board.not_found", s!"Board {target.board} was not loaded.",
        some target.board⟩]
    | some (file, lines) =>
    match findColumnInsertIndex lines target.column with
    | none => .error [⟨"board.column_not_found",
        s!"Board {target.board} does not contain column {target.column}.",
        some target.column⟩]
    | some index => .ok { v with
        notes := v.notes.put (noteName task) (serializeTask Y task)
        boardFiles := v.boardFiles.put file
          (lines.insertIdx index (.row (noteName task))) }
  else .error l.errors

/-- `_prepare_task_state_cache`: the note with its cached state set, when
it caches one. -/
def prepareTaskStateCache (Y : Yaml) (stem : String) (content : List Line)
    (state : String) : Except DomainError (Option (List Line)) :=
  match splitFrontmatter Y content with
  | .error text => .error ⟨"task.invalid_frontmatter", text, some stem⟩
  | .ok (f, body) =>
      if f.state.isNone then .ok none
      else .ok (some (serializeFrontmatter Y { f with state := some state } ++
        afterBlank body.trim))

/-- The notes with the state cache of one of them set. -/
def syncTaskStateCache (Y : Yaml) (v : Vault) (stem state : String) :
    Except (List DomainError) (Store String (List Line)) :=
  match v.notes.get stem with
  | none => .ok v.notes
  | some content =>
      match prepareTaskStateCache Y stem content state with
      | .error e => .error [e]
      | .ok none => .ok v.notes
      | .ok (some content) => .ok (v.notes.put stem content)

/-- `move_task`. -/
def moveTask (Y : Yaml) (v : Vault) (id : TaskId) (state : String) :
    Except (List DomainError) Vault :=
  let l := v.load Y
  if l.errors = [] then
    match l.noteOf id, l.cards.lookup id with
    | some (stem, _), some card =>
        match v.mappingForState state with
        | none => .error [⟨"state.unmapped",
            s!"State {state} is not mapped to an Obsidian board column.", some state⟩]
        | some target =>
        if card.board = target.board ∧ card.column = target.column then
          (v.syncTaskStateCache Y stem state).map fun notes => { v with notes := notes }
        else if target.board ≠ card.board then
          .error [⟨"adapter.cross_board_move_unsupported",
            "Moving cards between different board files is not implemented yet.", some id⟩]
        else match v.boardLines card.board with
        | none => .error [⟨"board.not_found", s!"Board {card.board} was not loaded.",
            some card.board⟩]
        | some (file, lines) =>
            let rest := lines.eraseIdx card.lineIndex
            match findColumnInsertIndex rest target.column with
            | none => .error [⟨"board.column_not_found",
                s!"Board {target.board} does not contain column {target.column}.",
                some target.column⟩]
            | some index =>
                (v.syncTaskStateCache Y stem state).map fun notes => { v with
                  notes := notes
                  boardFiles := v.boardFiles.put file
                    (rest.insertIdx index (.row card.note)) }
    | _, _ => .error [⟨"task.card_not_found",
        s!"Task {id} does not have a board card.", some id⟩]
  else .error l.errors

-- ========================================================= completions

/-- What an effect of an acceptance does to the tracker files. -/
def applyEffect (Y : Yaml) (v : Vault) : Effect → Except (List DomainError) Vault
  | .moveTask taskId toState => v.moveTask Y taskId toState
  | .createTask task => v.createTask Y task
  | .linkDerivedTasks parentId childLinks =>
      (v.readTask Y parentId).bind fun task =>
        v.writeTask Y (taskWithDerivedLinks task childLinks)
  | .promoteArtifact a =>
      if a.link = "" then .ok v
      else match v.readTask Y a.taskId with
        | .error _ => .ok v
        | .ok task =>
            v.writeTask Y (taskWithLinks task (dedupLinks (task.artifactLinks ++ [a.link])))
  | _ => .ok v

end Vault

/-- `_parse_derived_task_file`, past the split of the file into its
frontmatter and body: a title is required, and every heading only once. -/
def parseDerivedTaskFile
    (split : Content → Except String (String × List String × Body))
    (content : Content) : Except String ParsedDerived :=
  match split content with
  | .error text => .error text
  | .ok (localId, dependencies, body) =>
      let title := body.extractTitle.getD ""
      if title = "" then .error "Derived task body requires a Markdown H1 title."
      else if validateTaskStructure body none ≠ [] then
        .error "Derived task body is structurally invalid"
      else .ok ⟨localId, title, dependencies, body⟩

/-- The environment in which derived task files are parsed so. -/
def Env.parsing (E : Env)
    (split : Content → Except String (String × List String × Body)) : Env :=
  { E with parseDerived := parseDerivedTaskFile split }

/-- An effect on the repository. -/
def Effect.onRepository : Effect → Bool
  | .deleteChangedFile _ | .promoteChangedFile _ | .commitRepoChanges _ _ => true
  | _ => false

/-- What an acceptance plans its tracker effects from. -/
structure Completion where
  data : Data
  taskId : TaskId
  transition : TransitionDefinition
  outputRelative : RelPath
  artifacts : List ArtifactSubmission
  /-- everything planned before the derived tasks -/
  plan : AcceptancePlan
  /-- the files and the commit are effects on the repository -/
  files : ∀ e ∈ plan.promotedFiles ++ plan.commitEffect.toList, e.onRepository = true

/-- The effects of an acceptance, its derived tasks planned on the ids in
the tracker. -/
def Completion.effects (E : Env) (c : Completion) (existing : List TaskId) :
    Except (List DomainError) (List Effect) :=
  (derivedTaskPlan E c.data c.plan.candidate.storage c.outputRelative c.transition
    c.artifacts c.taskId existing
    ((c.artifacts.zip c.plan.promotedArtifacts).map fun (artifact, planned) =>
      ((artifact.type, artifact.path), planned.link))).map fun derived =>
    acceptanceEffects c.taskId { c.plan with
      derived := derived
      effectiveToState := effectiveToState c.transition derived }

/-- One effect with the files before and after it. -/
structure AppliedEffect where
  before : Vault
  effect : Effect
  after : Vault

/-- Effects applied in order up to the first that fails: the files then, the
effects that were applied, and whether none failed. -/
structure EffectRun where
  last : Vault
  steps : List AppliedEffect := []
  accepted : Bool

namespace Vault

/-- Apply effects in order; a completion is accepted when all of them
are. -/
def applyEffects (Y : Yaml) (v : Vault) : List Effect → EffectRun
  | [] => { last := v, accepted := true }
  | effect :: rest =>
      match v.applyEffect Y effect with
      | .error _ => { last := v, accepted := false }
      | .ok after =>
          let run := after.applyEffects Y rest
          { run with steps := ⟨v, effect, after⟩ :: run.steps }

/-- One completion. -/
def complete (Y : Yaml) (E : Env) (v : Vault) (c : Completion) : EffectRun :=
  match v.loadProject Y with
  | .error _ => { last := v, accepted := false }
  | .ok snapshot =>
      match c.effects E (snapshot.tasks.map (·.id)) with
      | .error _ => { last := v, accepted := false }
      | .ok effects => v.applyEffects Y effects

/-- Completions one after the other, up to the first that is not
accepted. -/
def completeAll (Y : Yaml) (E : Env) (v : Vault) : List Completion → EffectRun
  | [] => { last := v, accepted := true }
  | c :: rest =>
      let first := v.complete Y E c
      if first.accepted then
        let later := first.last.completeAll Y E rest
        { later with steps := first.steps ++ later.steps }
      else first

end Vault

end OpenTulid
