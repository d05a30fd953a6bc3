/-
`create_task` creates one task and nothing else, exactly where the note is new
and is read as it was meant.

# The condition

`create_task_reads`: a task that is created is read back as it was, with every
other task, card, note and row as before, if and only if no note of the name
was there, its text and its fields are what they have to be (`TextFits`,
`FieldsFit`), and the row lands below a heading that shows the state.
-/
import OpenTulid.Proofs.AddedProject
import OpenTulid.Proofs.CreatedNote

namespace OpenTulid.Obsidian

open Boards (ReadText BoardDocument Place Row parseTaskRow Section)
open Boards (stripped)
open Frozen (Entries PyValue)
open Frozen.Prompt (Text splitlines joined isLineBreak)

variable {py : Python} {p : Project} {tasks : List Task} {docs : List BoardDocument}
  {ids : List Text} {task : Task}

-- =========================================================== what is promised

/-- A row was put into a board. -/
def RowAdded (board : String) (line : Text) (old new : Board) : Prop :=
  old.name = board ∧ ∃ text text' k, old.file = .text text ∧ new.file = .text text' ∧
    splitlines text' = (splitlines text).insertIdx k line

/-- The project is loaded again, the task is read as it was created, and nothing
else is another than it was. -/
structure CreatesOne (py : Python) (p p' : Project) (loaded : Loaded) (task : Task) : Prop where
  /-- what is loaded: the task, every other task as it was, and every other card
  in its board and column, in the same order -/
  again : ∃ loaded', load py p' = some loaded' ∧ loaded'.errors = [] ∧
    (∃ read, (loaded'.tasks p'.mappings).lookup task.id = some read ∧
      CreatedTaskMatches read task) ∧
    (∀ other, other ≠ task.id →
      (loaded'.tasks p'.mappings).lookup other = (loaded.tasks p.mappings).lookup other) ∧
    loaded'.placed.filter (fun e => e.1 ≠ task.id) = loaded.placed
  /-- no file of a note was overwritten -/
  files : ∀ name file, p.files.get name = some file → p'.files.get name = some file
  /-- the boards are the same, but for the row -/
  boards : ∃ board, List.Forall₂ (fun old new => new.name = old.name ∧ new.path = old.path ∧
    (new.file = old.file ∨ RowAdded board (cardLine (noteName task)) old new)) p.boards p'.boards

/-- What `create_task` finds: a new id, the column of the state, and the place
where the row goes. -/
structure Creating (p : Project) (loaded : Loaded) (task : Task) (target : StateMapping)
    (doc : BoardDocument) (before after : List Text) : Prop where
  hnew : loaded.namesById.lookup task.id = none
  htarget : mappingForState p.mappings (String.ofList task.currentState) = some target
  hboard : loaded.boardsByName.lookup target.board = some doc
  hsection : Section target.column.toList doc.lines before after

/-- The row lands below a heading that shows the state of the task. -/
def Lands (py : Python) (p : Project) (task : Task) (board : String) (before : List Text) : Prop :=
  ∃ column, Place.start.after before = ⟨.outside, some column⟩ ∧
    (stateForBoardColumn p.mappings board column).isSome = true ∧
    shownState p.mappings board column (namedState py task) = task.currentState

/-- When a task that is created is what it should be. -/
structure CreateFits (py : Python) (fault : Option Fault) (p : Project) (loaded : Loaded)
    (task : Task) : Prop where
  /-- no note of the name was there, the note is read as the task, and the row
  shows its state -/
  fits : ∀ target doc before after, Creating p loaded task target doc before after →
    fault = none → p.files.get (noteName task) = none ∧ TextFits py (createdStem task) task ∧ FieldsFit py task ∧
      Lands py p task target.board before
  /-- of writes that fail, nothing is left of the note -/
  restored : ∀ target doc before after, Creating p loaded task target doc before after →
    ∀ f file, fault = some f → f.left.head? = some (some file) →
      p.files.get (noteName task) = some file

/-- A task that is created is what it should be, and one that is not changes
nothing. -/
def CreatesOrKeeps (py : Python) (p : Project) (loaded : Loaded) (task : Task)
    (outcome : WriteResult × Project) : Prop :=
  (outcome.1.accepted = true → CreatesOne py p outcome.2 loaded task) ∧
  (outcome.1.accepted = false → outcome.2 = p)

-- ============================================================== what is created

variable {board : Board} {doc : BoardDocument} {before after : List Text} {text' : Text}

/-- The boards afterwards are those before, but for the row. -/
theorem Adds.boards {name line : Text} {file' : ReadText}
    (h : Adds py p tasks docs ids name board doc line before after text') :
    List.Forall₂ (fun old new => new.name = old.name ∧ new.path = old.path ∧
        (new.file = old.file ∨ RowAdded board.name line old new)) p.boards
      (p.moved name file' board.name text').boards := by
  show List.Forall₂ _ p.boards (p.boards.map _)
  rw [List.forall₂_map_right_iff, List.forall₂_same]
  intro b hb
  by_cases hname : b.name = board.name
  · rw [if_pos hname]
    refine ⟨rfl, rfl, .inr ⟨hname, ?_⟩⟩
    have hsame : b = board :=
      List.inj_on_of_nodup_map p.boards_nodup hb (List.of_mem_zip h.board_mem).1 hname
    subst hsame
    obtain ⟨_, _, _, _, _, _, _, _, hdoc, _⟩ :=
      split_boards h.clean.boards p.boards_nodup h.board_mem
    obtain ⟨text, hfile, hlines, -⟩ := hdoc.text
    refine ⟨text, text', before.length, hfile, rfl, ?_⟩
    rw [← hlines, h.old, Boards.insertIdx_append, h.new]
  · rw [if_neg hname]
    exact ⟨rfl, rfl, .inl rfl⟩

/-- The new task, in the state that its row shows. -/
theorem Adds.lookup {name line column : Text} {file' : ReadText} {task' : Task}
    {tasks' : List Task} {docs' : List BoardDocument} {ids' : List Text}
    (hclean : Clean py (p.moved name file' board.name text') tasks' docs' ids')
    (hamong : Among p (p.moved name file' board.name text') tasks tasks' name file' task')
    (hplaced : ((p.moved name file' board.name text').loadedOf tasks' docs' ids').placed.lookup
      task'.id = some (board.name, ⟨column, stemOf name, line⟩)) :
    (((p.moved name file' board.name text').loadedOf tasks' docs' ids').tasks
        p.mappings).lookup task'.id =
      some { task' with
        currentState := shownState p.mappings board.name column task'.currentState } := by
  obtain ⟨front, back, -, hzip⟩ := hamong.zips
  have hmem : ((name, file'), task') ∈
      (p.moved name file' board.name text').files.entries.zip tasks' := by
    rw [hzip]
    simp
  rw [hclean.lookup_task hmem p.mappings, stateForTaskId_eq, hplaced]

/-- A board that is found by its name. -/
theorem board_of_lookup {name : String}
    (hlookup : (p.loadedOf tasks docs ids).boardsByName.lookup name = some doc) :
    ∃ board, (board, doc) ∈ p.boards.zip docs ∧ board.name = name := by
  obtain ⟨l₁, l₂, heq, -⟩ := List.lookup_eq_some_iff.mp hlookup
  have hmem : (name, doc) ∈ (p.boards.map Board.name).zip docs := by
    show _ ∈ (p.loadedOf tasks docs ids).boardsByName
    rw [heq]
    simp
  rw [List.zip_map_left] at hmem
  obtain ⟨⟨board, doc'⟩, hboard, hpair⟩ := List.mem_map.mp hmem
  obtain ⟨hname, rfl⟩ := Prod.mk.inj hpair
  exact ⟨board, hboard, hname⟩

theorem Clean.not_known (h : Clean py p tasks docs ids) {id : Text}
    (hnew : (p.loadedOf tasks docs ids).namesById.lookup id = none) : id ∉ tasks.map Task.id := by
  rw [lookup_eq_none_iff] at hnew
  rw [← map_fst_idNames h.notes.length_eq]
  exact hnew

/-- A task is created, and nothing else, if and only if the note is new, is read
as it was meant, and its row lands where the state is shown. -/
theorem createsOne_iff (h : Clean py p tasks docs ids) (hid : isValidTaskId task.id = true)
    (hkeys : (task.metadata.map Prod.fst).Nodup)
    (hnames : ∀ entry ∈ p.files.entries, ".md".toList <:+ entry.1) (hyaml : YamlKeeps py task)
    (hnew : (p.loadedOf tasks docs ids).namesById.lookup task.id = none)
    (hboard : (board, doc) ∈ p.boards.zip docs) (hold : doc.lines = before ++ after)
    (hlines : splitlines text' = before ++ cardLine (noteName task) :: after) :
    CreatesOne py p (p.moved (noteName task) (createdFile py task) board.name text')
        (p.loadedOf tasks docs ids) task ↔
      p.files.get (noteName task) = none ∧ TextFits py (createdStem task) task ∧ FieldsFit py task ∧
        Lands py p task board.name before := by
  rw [← stemOf_noteName task]
  have hunknown := h.not_known hnew
  constructor
  · rintro ⟨⟨loaded', hload, herrors, ⟨read, hread, hmatch⟩, -, -⟩, hfiles, -⟩
    obtain ⟨tasks', docs', ids', hclean, rfl⟩ := clean_of_load hload herrors
    obtain ⟨e, he, heid⟩ := mem_of_lookup_task hread
    have hknown : task.id ∈ tasks'.map Task.id :=
      List.mem_map.mpr ⟨e.2, (List.of_mem_zip he).2, heid⟩
    have habsent : p.files.get (noteName task) = none := by
      cases hget : p.files.get (noteName task) with
      | none => rfl
      | some file =>
          -- a file that is kept is the one that was written, so no note is new
          exfalso
          have hkept := hfiles _ _ hget
          have hwritten : (p.moved (noteName task) (createdFile py task) board.name text').files.get
              (noteName task) = some (createdFile py task) := Store.get_put_self
          rw [hwritten] at hkept
          have hsame : file = createdFile py task := (Option.some.inj hkept).symm
          have hentries : (p.moved (noteName task) (createdFile py task) board.name
              text').files.entries = p.files.entries := by
            show (p.files.put (noteName task) (createdFile py task)).entries = _
            rw [Store.put_get_self (hsame ▸ hget)]
          have hnotes := hclean.notes
          rw [hentries] at hnotes
          have htasks : tasks' = tasks :=
            reads_unique (hnotes.imp fun e t ht => ⟨ht.read, ht.structured⟩) h.notes
          rw [htasks] at hknown
          exact hunknown hknown
    have hadds : Adds py p tasks docs ids (noteName task) board doc (cardLine (noteName task))
        before after text' :=
      ⟨h, (fresh_iff hid hnames).mpr habsent, hboard, parseTaskRow_cardLine hid, hold, hlines⟩
    obtain ⟨task', column, htask', hid', hplace, hmapped⟩ := hadds.of_loads hclean hunknown hknown
    obtain ⟨tasks'', docs'', ids'', hclean', hamong, -, hplaced⟩ :=
      hadds.loads htask' (hid'.symm ▸ hunknown) hplace hmapped
    have hlookup := Adds.lookup hclean' hamong hplaced
    have hsame := hclean'.load
    rw [hload] at hsame
    rw [← Option.some.inj hsame] at hlookup
    conv at hlookup => lhs; rw [hid']
    have hread : (((p.moved (noteName task) (createdFile py task) board.name text').loadedOf
        tasks' docs' ids').tasks p.mappings).lookup task.id = some read := hread
    rw [hread] at hlookup
    rw [Option.some.inj hlookup] at hmatch
    obtain ⟨htext, hfields, hnamed⟩ := fits_of_reads hkeys hyaml hid htask' hmatch
    have hstate : shownState p.mappings board.name column task'.currentState = task.currentState :=
      hmatch.currentState
    rw [hnamed] at hstate
    exact ⟨habsent, htext, hfields, column, hplace, hmapped, hstate⟩
  · rintro ⟨habsent, htext, hfields, column, hplace, hmapped, hshown⟩
    have hadds : Adds py p tasks docs ids (noteName task) board doc (cardLine (noteName task))
        before after text' :=
      ⟨h, (fresh_iff hid hnames).mpr habsent, hboard, parseTaskRow_cardLine hid, hold, hlines⟩
    obtain ⟨task', htask', hid', hnamed, hmatch⟩ :=
      @reads_created py task p (noteName task) hkeys hyaml hid htext hfields
    obtain ⟨tasks', docs', ids', hclean, hamong, hfilter, hplaced⟩ :=
      hadds.loads htask' (hid'.symm ▸ hunknown) hplace hmapped
    refine ⟨⟨_, hclean.load, rfl, ?_, ?_, ?_⟩, ?_, board.name, hadds.boards⟩
    · have hlookup := Adds.lookup hclean hamong hplaced
      rw [hnamed, hshown] at hlookup
      conv at hlookup => lhs; rw [hid']
      exact ⟨_, hlookup, hmatch⟩
    · intro other hother
      exact hadds.others hclean hamong hfilter (hid'.symm ▸ hother)
    · rw [hid'] at hfilter
      exact hfilter
    · intro name file hget
      have hne : name ≠ noteName task := by
        rintro rfl
        rw [habsent] at hget
        cases hget
      exact (Store.get_put_of_ne hne).trans hget

theorem createsOrKeeps_refused {loaded : Loaded} {errors : List DomainError} (h : errors ≠ []) :
    CreatesOrKeeps py p loaded task (⟨none, errors⟩, p) :=
  ⟨fun haccepted => absurd (List.isEmpty_iff.mp haccepted) h, fun _ => rfl⟩

/-- What finds no place for the task is as it should be. -/
theorem createFits_of_not_creating {fault : Option Fault} {loaded : Loaded}
    (h : ∀ target doc before after, ¬ Creating p loaded task target doc before after) :
    CreateFits py fault p loaded task :=
  ⟨fun target doc before after hcreating => absurd hcreating (h target doc before after),
    fun target doc before after hcreating => absurd hcreating (h target doc before after)⟩

/-- The lines of a board with the row put in. -/
theorem splitlines_added (h : BoardReads board doc) (hid : isValidTaskId task.id = true)
    (hlines : doc.lines = before ++ after) :
    splitlines (boardText (before ++ cardLine (noteName task) :: after)) =
      before ++ cardLine (noteName task) :: after := by
  obtain ⟨text, -, htext, -⟩ := h.text
  refine Boards.splitlines_boardText (by simp) fun line hline c hc => ?_
  have hold : line ∈ before ++ after → isLineBreak c = false := fun hmem =>
    Frozen.Prompt.not_isLineBreak_of_mem (htext ▸ hlines ▸ hmem) hc
  rcases List.mem_append.mp hline with hline | hline
  · exact hold (List.mem_append_left _ hline)
  · rcases List.mem_cons.mp hline with rfl | hline
    · exact not_isLineBreak_cardLine hid c hc
    · exact hold (List.mem_append_right _ hline)

/-- The writes of a task that finds its place. -/
theorem writes_iff {fault : Option Fault} {outcome : WriteResult × Project} {target : StateMapping}
    (h : Clean py p tasks docs ids) (hid : isValidTaskId task.id = true)
    (hkeys : (task.metadata.map Prod.fst).Nodup)
    (hnames : ∀ entry ∈ p.files.entries, ".md".toList <:+ entry.1) (hyaml : YamlKeeps py task)
    (hcreating : Creating p (p.loadedOf tasks docs ids) task target doc before after)
    (hwrites : outcome = writePrepared fault
      [(.note (noteName task), universalNewlines
          (document (yamlOf py (taskFrontmatter task)) (taskText task))),
        (.board target.board, boardText (before ++ cardLine (noteName task) :: after))] p) :
    CreatesOrKeeps py p (p.loadedOf tasks docs ids) task outcome ↔
      CreateFits py fault p (p.loadedOf tasks docs ids) task := by
  -- there is one place where the row can go
  have hone : ∀ target' doc' before' after', Creating p (p.loadedOf tasks docs ids)
      task target' doc' before' after' → target' = target ∧ before' = before := by
    intro target' doc' before' after' hother
    cases hcreating.htarget.symm.trans hother.htarget
    cases hcreating.hboard.symm.trans hother.hboard
    exact ⟨rfl, (section_unique hcreating.hsection hother.hsection).1⟩
  obtain ⟨board, hmem, hname⟩ := board_of_lookup hcreating.hboard
  obtain ⟨_, _, _, _, _, _, _, _, hreads, _⟩ := split_boards h.boards p.boards_nodup hmem
  have hiff := createsOne_iff h hid hkeys hnames hyaml hcreating.hnew hmem
    hcreating.hsection.lines_eq (splitlines_added hreads hid hcreating.hsection.lines_eq)
  rw [hname] at hiff
  cases fault with
  | none =>
      rw [hwrites]
      have haccepts : CreatesOrKeeps py p (p.loadedOf tasks docs ids) task
          (writePrepared none [(.note (noteName task), universalNewlines
            (document (yamlOf py (taskFrontmatter task)) (taskText task))),
            (.board target.board, boardText (before ++ cardLine (noteName task) :: after))] p) ↔
          CreatesOne py p (p.moved (noteName task) (createdFile py task) target.board
            (boardText (before ++ cardLine (noteName task) :: after)))
            (p.loadedOf tasks docs ids) task :=
        ⟨fun hcreates => hcreates.1 rfl, fun hcreates => ⟨fun _ => hcreates, nofun⟩⟩
      rw [haccepts, hiff]
      constructor
      · intro hfits
        refine ⟨fun target' doc' before' after' hother _ => ?_, fun _ _ _ _ _ f file hf => nomatch hf⟩
        obtain ⟨rfl, rfl⟩ := hone _ _ _ _ hother
        exact hfits
      · exact fun hfits => hfits.fits _ _ _ _ hcreating rfl
  | some f =>
      have hkeeps : CreatesOrKeeps py p (p.loadedOf tasks docs ids) task outcome ↔ outcome.2 = p := by
        have hrefused : outcome.1.accepted = false := by
          rw [hwrites]
          rfl
        constructor
        · exact fun hcreates => hcreates.2 hrefused
        · exact fun hsame => ⟨fun htrue => absurd (hrefused.symm.trans htrue) nofun, fun _ => hsame⟩
      have hfits : CreateFits py (some f) p (p.loadedOf tasks docs ids) task ↔
          ∀ file, f.left.head? = some (some file) → p.files.get (noteName task) = some file := by
        constructor
        · exact fun hfits file => hfits.restored _ _ _ _ hcreating f file rfl
        · intro hrestored
          refine ⟨fun _ _ _ _ _ => nofun, fun _ _ _ _ _ g file hg hhead => ?_⟩
          cases hg
          exact hrestored file hhead
      rw [hkeeps, hfits, hwrites]
      obtain ⟨error, left⟩ := f
      cases left with
      | nil => exact ⟨fun _ => nofun, fun _ => rfl⟩
      | cons first left =>
          cases first with
          | none => exact ⟨fun _ => nofun, fun _ => rfl⟩
          | some file =>
              show p.put (.note (noteName task)) file = p ↔ _
              rw [put_note_iff]
              constructor
              · intro hget other hother
                cases hother
                exact hget
              · exact fun hall => hall file rfl

/-- A library that knows the frontmatters of two notes. -/
def secondYaml : Python where
  load text :=
    if text = "id: 1".toList then .ok (.dict [(.str "id", .int 1)])
    else .ok (.dict [(.str "id", .str "2"), (.str "state", .str "ready"),
      (.str "type", .str "task")])
  dump _ := "id: '2'\nstate: ready\ntype: task\n".toList
  str := textOnly
  repr text := text
  str_str := textOnly_str

/-- A project with a task in its only column. -/
def oneColumn : Project where
  root := "vault"
  rootIsDir := true
  tasksRoot := "vault/tasks"
  domainPath path := path
  mappings := [⟨"ready", "main", "Ready"⟩]
  boards := [⟨"main", "vault/main.md", .text "## Ready\n- [ ] [[a]]\n".toList⟩]
  boards_nodup := by decide
  files := (∅ : Store Text ReadText).put "a.md".toList (.text "---\nid: 1\n---\n# A\n".toList)

/-- A task for that column. -/
def secondTask : Task where
  id := "2".toList
  title := "B".toList
  path := ""
  currentState := "ready".toList
  taskType := "task".toList
  dependencies := []
  artifactLinks := []
  parentId := none
  metadata := []
  body := "Text.\n".toList

end OpenTulid.Obsidian
