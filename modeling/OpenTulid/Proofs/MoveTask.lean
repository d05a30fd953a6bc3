/-
`move_task` moves one task and nothing else, exactly where the two scanners of
a board agree.

# The condition

A move that is accepted is what it should be if and only if the note that
caches the state is read back (`Cached`) and the row lands below a heading that
shows the state (`Shows`). A move that fails leaves all files as they were if
and only if a note that was replaced could be restored. `move_task_moves` says
both.
-/
import OpenTulid.Proofs.MovedProject
import OpenTulid.Proofs.Frontmatter
import OpenTulid.Proofs.RepairNote

namespace OpenTulid.Obsidian

open Boards (ReadText BoardDocument Place Row parseTaskRow Section)
open Frozen (Entries PyValue)
open Frozen.Prompt (Text splitlines joined isLineBreak)

variable {py : Python} {p : Project} {tasks : List Task} {docs : List BoardDocument}
  {ids : List Text} {name : Text} {file : ReadText} {task task' : Task}

-- ================================================================ the note

/-- What the YAML library writes for a note with a state. -/
def cachedYaml (py : Python) (frontmatter : Entries) (state : String) : Text :=
  yamlOf py (set frontmatter "state" (.str state))

/-- A note whose state is written keeps what is below its frontmatter, and is
read with its id and a state. -/
structure Cached (py : Python) (content : Text) (frontmatter : Entries) (state : String)
    (id named : Text) : Prop where
  /-- below the frontmatter there are no breaks but newlines -/
  breaks : ∀ c ∈ belowFence content, isLineBreak c = true → c = '\n'
  /-- the YAML library writes no line that is a fence -/
  fences : NoFence (cachedYaml py frontmatter state)
  /-- it reads the id and the state -/
  readBack : ∃ read, parseFrontmatter py
      (joined "\n" (yamlLines (cachedYaml py frontmatter state))) = .ok read ∧
    taskIdOf (get read "id") = some (some id) ∧ textField py read "state" [] = named

/-- The parts of a note that was read. -/
theorem ReadsAs.parts (h : ReadsAs py p (name, file) task) :
    ∃ content frontmatter body, file = .text content ∧
      splitFrontmatter py content = .ok (frontmatter, body) ∧
      taskIdOf (get frontmatter "id") = some (some task.id) ∧ isValidTaskId task.id = true ∧
      task = (p.note name file).task py p.domainPath task.id frontmatter body := by
  have hread := h.read
  unfold readTaskFile Note.split Note.content at hread
  dsimp only [Project.note] at hread
  cases file with
  | text content =>
      rw [Fallible.ok_bind] at hread
      cases hsplit : splitFrontmatter py content with
      | error exc =>
          rw [hsplit] at hread
          cases hread
      | ok parts =>
          obtain ⟨frontmatter, body⟩ := parts
          rw [hsplit] at hread
          dsimp only at hread
          obtain ⟨found, hfound, htask⟩ := Option.map_eq_some_iff.mp hread
          cases found with
          | none => cases htask
          | some id =>
              dsimp only at htask
              split at htask
              next hvalid =>
                have heq := Except.ok.inj htask
                have hid : id = task.id := congrArg Task.id heq
                refine ⟨content, frontmatter, body, rfl, hsplit, ?_, ?_, ?_⟩
                · rw [hfound, hid]
                · rw [← hid]
                  exact hvalid
                · rw [← hid]
                  exact heq.symm
              next => cases htask
  | notFound => cases hread
  | notUtf8 => cases hread
  | failed e => cases hread

/-- A note is read by its parts. -/
theorem reads_of_parts {content body id : Text} {frontmatter : Entries}
    (hsplit : splitFrontmatter py content = .ok (frontmatter, body))
    (hid : taskIdOf (get frontmatter "id") = some (some id)) (hvalid : isValidTaskId id = true)
    (hstructure : Derived.validateTaskStructure body (p.taskPath name) false = []) :
    ReadsAs py p (name, .text content)
      ((p.note name (.text content)).task py p.domainPath id frontmatter body) := by
  refine ⟨?_, hstructure⟩
  unfold readTaskFile Note.split Note.content
  dsimp only [Project.note]
  rw [Fallible.ok_bind, hsplit]
  dsimp only
  rw [hid, Option.map_some]
  dsimp only
  rw [if_pos hvalid]

/-- The body of a note with a frontmatter. -/
theorem body_of_split {content body : Text} {frontmatter : Entries}
    (hsplit : splitFrontmatter py content = .ok (frontmatter, body)) (hne : frontmatter ≠ []) :
    closingFence content ≠ none ∧
      body = stripNewlines (joined "\n" (splitlines (belowFence content))) := by
  rw [splitFrontmatter_eq] at hsplit
  cases hidx : closingFence content with
  | none =>
      rw [hidx] at hsplit
      cases hsplit
      exact absurd rfl hne
  | some idx =>
      rw [hidx] at hsplit
      obtain ⟨parsed, -, hparts⟩ := Fallible.bind_eq_ok.mp hsplit
      cases hparts
      exact ⟨nofun, rfl⟩

/-- The body that is read of a document is the one that was written. -/
theorem body_document {yaml text : Text} (h : NoFence yaml) :
    stripNewlines (joined "\n" (splitlines (belowFence (document yaml
      (stripNewlines (joined "\n" (splitlines text))))))) =
      stripNewlines (joined "\n" (splitlines text)) := by
  have hbelow := belowFence_document h (stripNewlines (joined "\n" (splitlines text)))
  rw [stripNewlines_idempotent] at hbelow
  refine ((stripNewlines_joined_iff _).mpr fun c hc hbreak => ?_).trans hbelow
  by_contra hne
  have hmem := mem_stripNewlines hc hne
  rw [hbelow] at hmem
  exact hne (Frozen.Prompt.newline_of_mem_joined
    (fun _ hline _ => Frozen.Prompt.not_isLineBreak_of_mem hline) (stripNewlines_subset hmem) hbreak)

/-- A note whose state was written is read. -/
theorem Cached.reads {content frontmatterBody named : Text} {frontmatter : Entries} {state : String}
    (h : Cached py content frontmatter state task.id named)
    (hread : ReadsAs py p (name, .text content) task)
    (hsplit : splitFrontmatter py content = .ok (frontmatter, frontmatterBody))
    (hne : frontmatter ≠ []) :
    ∃ task', ReadsAs py p (name, .text (document (cachedYaml py frontmatter state) frontmatterBody))
        task' ∧ task'.id = task.id ∧ task'.currentState = named ∧
      stripNewlines (belowFence (document (cachedYaml py frontmatter state) frontmatterBody)) =
        stripNewlines (belowFence content) := by
  obtain ⟨hbreaks, hfences, read, hparse, hid, hnamed⟩ := h
  obtain ⟨_, frontmatter', body', hfile, hsplit', -, hvalid, htask⟩ := hread.parts
  cases hfile
  rw [hsplit] at hsplit'
  cases hsplit'
  obtain ⟨hclosed, hbody⟩ := body_of_split hsplit hne
  have hdocument := @splitFrontmatter_document py _ hfences frontmatterBody
  rw [hparse, Fallible.ok_bind] at hdocument
  have hsame : stripNewlines (joined "\n" (splitlines (belowFence
      (document (cachedYaml py frontmatter state) frontmatterBody)))) = frontmatterBody := by
    rw [hbody]
    exact body_document hfences
  rw [hsame] at hdocument
  have hstructure := hread.structured
  rw [htask] at hstructure
  refine ⟨_, reads_of_parts hdocument hid hvalid hstructure, rfl, hnamed, ?_⟩
  rw [belowFence_document hfences]
  exact (body_iff hsplit).1.mpr fun _ => hbreaks

/-- A note that was written and read with its id, and keeps its body, was
written as it can be. -/
theorem cached_of_reads {content body : Text} {frontmatter : Entries} {state : String}
    (hsplit : splitFrontmatter py content = .ok (frontmatter, body)) (hne : frontmatter ≠ [])
    (hread : ReadsAs py p (name, .text (document (cachedYaml py frontmatter state) body)) task')
    (hkept : stripNewlines (belowFence (document (cachedYaml py frontmatter state) body)) =
      stripNewlines (belowFence content)) :
    Cached py content frontmatter state task'.id task'.currentState := by
  obtain ⟨hbodyIff, hsolid⟩ := body_iff hsplit
  have hfences : NoFence (cachedYaml py frontmatter state) := by
    by_contra hnot
    have hgrown := solid_belowFence_document hnot body
    have hequal := congrArg Frozen.Prompt.solid hkept
    rw [solid_stripNewlines, solid_stripNewlines] at hequal
    omega
  obtain ⟨_, frontmatter', body', hfile, hsplit', hid, -, htask⟩ := hread.parts
  cases hfile
  rw [splitFrontmatter_document hfences] at hsplit'
  obtain ⟨values, hparse, hparts⟩ := Fallible.bind_eq_ok.mp hsplit'
  cases hparts
  refine ⟨?_, hfences, _, hparse, hid, ?_⟩
  · exact hbodyIff.mp ((belowFence_document hfences body).symm.trans hkept)
      (body_of_split hsplit hne).1
  · conv => rhs; rw [htask]
    rfl

-- =============================================================== the state

/-- The state that a column shows; a note counts where it shows none. -/
def shownState (mappings : List StateMapping) (board : String) (column named : Text) : Text :=
  match stateForBoardColumn mappings board column with
  | none | some "" => named
  | some state => state.toList

/-- The state of a task is the one that its row shows. -/
theorem stateForTaskId_eq (m : List StateMapping) (loaded : Loaded) (id fallback : Text) :
    stateForTaskId m loaded id fallback =
      match loaded.placed.lookup id with
      | none => fallback
      | some row => shownState m row.1 row.2.column fallback := by
  rw [← lookup_card]
  unfold stateForTaskId
  cases loaded.cardsById.lookup id with
  | none => rfl
  | some card => rfl

theorem lookup_filter_of_ne {β : Type} {id other : Text} (h : other ≠ id) (l : List (Text × β)) :
    (l.filter fun e => e.1 ≠ id).lookup other = l.lookup other := by
  induction l with
  | nil => rfl
  | cons e l ih =>
      by_cases heq : e.1 = id
      · rw [List.filter_cons_of_neg (by simp [heq]), ih, List.lookup_cons,
          beq_false_of_ne (heq ▸ h)]
      · rw [List.filter_cons_of_pos (by simp [heq]), List.lookup_cons, List.lookup_cons, ih]

-- =========================================================== what is promised

/-- A row was moved in a board. -/
def RowMoved (card : Card) (old new : Board) : Prop :=
  card.board = old.name ∧ ∃ text text' k, old.file = .text text ∧ new.file = .text text' ∧
    (splitlines text)[card.lineIndex]? = some card.cardText ∧
    splitlines text' = ((splitlines text).eraseIdx card.lineIndex).insertIdx k card.cardText

/-- The project is loaded again, the task has the state, and nothing else is
another than it was. -/
structure MovesOne (py : Python) (p p' : Project) (loaded : Loaded) (card : Card) (id : Text)
    (state : String) : Prop where
  /-- what is loaded: the task in its state, every other task as it was, and
  every other card in its board and column, in the same order -/
  again : ∃ loaded', load py p' = some loaded' ∧ loaded'.errors = [] ∧
    ((loaded'.tasks p'.mappings).lookup id).map Task.currentState = some state.toList ∧
    (∀ other, other ≠ id →
      (loaded'.tasks p'.mappings).lookup other = (loaded.tasks p.mappings).lookup other) ∧
    loaded'.placed.filter (fun e => e.1 ≠ id) = loaded.placed.filter fun e => e.1 ≠ id
  /-- the notes are the same, with the same text below their frontmatters -/
  names : p'.files.keys = p.files.keys
  bodies : ∀ name content, p.files.get name = some (.text content) →
    ∃ content', p'.files.get name = some (.text content') ∧
      stripNewlines (belowFence content') = stripNewlines (belowFence content)
  /-- the boards are the same, but for the row -/
  boards : List.Forall₂ (fun old new => new.name = old.name ∧ new.path = old.path ∧
    (new.file = old.file ∨ RowMoved card old new)) p.boards p'.boards

variable {board : Board} {doc : BoardDocument} {card : Boards.BoardCard}
  {above below before after : List Text} {text text' : Text} {file' : ReadText}

/-- The entries of the notes afterwards. -/
theorem Move.zip (h : Move py p tasks docs ids name file task board doc card above below before
    after text') :
    (p.moved name file' board.name text').files.entries.zip
        (replaced p.files.entries tasks name task') =
      (p.files.entries.zip tasks).map
        fun e => if e.1.1 = name then ((name, file'), task') else e := by
  show (p.files.put name file').entries.zip _ = _
  rw [entries_put h.get, zip_replaced]

/-- A task whose notes and card are the same in two projects is the same. -/
theorem Clean.lookup_other {p' : Project} {tasks' : List Task} {docs' : List BoardDocument}
    {ids' : List Text} (h : Clean py p tasks docs ids) (h' : Clean py p' tasks' docs' ids')
    {other : Text} (hnotes : ∀ e : (Text × ReadText) × Task, e.2.id = other →
      (e ∈ p'.files.entries.zip tasks' ↔ e ∈ p.files.entries.zip tasks))
    (hplaced : (p'.loadedOf tasks' docs' ids').placed.lookup other =
      (p.loadedOf tasks docs ids).placed.lookup other) (m : List StateMapping) :
    ((p'.loadedOf tasks' docs' ids').tasks m).lookup other =
      ((p.loadedOf tasks docs ids).tasks m).lookup other := by
  have hstate : ∀ fallback, stateForTaskId m (p'.loadedOf tasks' docs' ids') other fallback =
      stateForTaskId m (p.loadedOf tasks docs ids) other fallback := by
    intro fallback
    rw [stateForTaskId_eq, stateForTaskId_eq, hplaced]
  by_cases hmem : ∃ e ∈ p.files.entries.zip tasks, e.2.id = other
  · obtain ⟨e, he, rfl⟩ := hmem
    rw [h'.lookup_task ((hnotes e rfl).mpr he), h.lookup_task he, hstate]
  · have hnone : ∀ {q : Project} {ts : List Task} {ds : List BoardDocument} {is : List Text},
        (¬ ∃ e ∈ q.files.entries.zip ts, e.2.id = other) →
        ((q.loadedOf ts ds is).tasks m).lookup other = none := by
      intro q ts ds is hnot
      cases hlookup : ((q.loadedOf ts ds is).tasks m).lookup other with
      | none => rfl
      | some t => exact absurd (mem_of_lookup_task hlookup) hnot
    rw [hnone hmem, hnone fun ⟨e, he, heq⟩ => hmem ⟨e, (hnotes e heq).mp he, heq⟩]

/-- Notes of another id are the same after one was rewritten. -/
theorem mem_replaced_iff {entries : List (Text × ReadText)} {tasks : List Task} {other : Text}
    (hold : ∀ e ∈ entries.zip tasks, e.1.1 = name → e.2.id ≠ other) (hnew : task'.id ≠ other)
    {e : (Text × ReadText) × Task} (he : e.2.id = other) :
    e ∈ ((entries.zip tasks).map fun e => if e.1.1 = name then ((name, file'), task') else e) ↔
      e ∈ entries.zip tasks := by
  rw [List.mem_map]
  constructor
  · rintro ⟨e', he', heq⟩
    by_cases hname : e'.1.1 = name
    · rw [if_pos hname] at heq
      rw [← heq] at he
      exact absurd he hnew
    · rw [if_neg hname] at heq
      exact heq ▸ he'
  · intro hmem
    exact ⟨e, hmem, if_neg fun hname => hold e hmem hname he⟩

/-- Every other task is as it was. -/
theorem Move.others (h : Move py p tasks docs ids name file task board doc card above below before
    after text') {docs' : List BoardDocument} {ids' : List Text} (hid : task'.id = task.id)
    (hclean : Clean py (p.moved name file' board.name text')
      (replaced p.files.entries tasks name task') docs' ids')
    (hfilter : ((p.moved name file' board.name text').loadedOf
        (replaced p.files.entries tasks name task') docs' ids').placed.filter
        (fun e => e.1 ≠ task.id) =
      (p.loadedOf tasks docs ids).placed.filter (fun e => e.1 ≠ task.id))
    {other : Text} (hother : other ≠ task.id) :
    (((p.moved name file' board.name text').loadedOf
        (replaced p.files.entries tasks name task') docs' ids').tasks p.mappings).lookup other =
      ((p.loadedOf tasks docs ids).tasks p.mappings).lookup other := by
  refine h.clean.lookup_other hclean (fun e he => ?_) ?_ _
  · rw [h.zip]
    refine mem_replaced_iff (fun e' he' hname heq => ?_) (fun heq => ?_) he
    · rw [h.clean.eq_of_name he' h.entry hname] at heq
      exact hother heq.symm
    · exact hother (heq.symm.trans hid)
  · rw [← lookup_filter_of_ne hother, hfilter, lookup_filter_of_ne hother]

/-- The task shows the state of its column, or the one that its note names. -/
theorem Move.shows (h : Move py p tasks docs ids name file task board doc card above below before
    after text') {docs' : List BoardDocument} {ids' : List Text} {column : Text}
    (hid : task'.id = task.id)
    (hclean : Clean py (p.moved name file' board.name text')
      (replaced p.files.entries tasks name task') docs' ids')
    (hplaced : ((p.moved name file' board.name text').loadedOf
        (replaced p.files.entries tasks name task') docs' ids').placed.lookup task.id =
      some (rowIn board card column)) :
    ((((p.moved name file' board.name text').loadedOf
        (replaced p.files.entries tasks name task') docs' ids').tasks p.mappings).lookup
          task.id).map Task.currentState =
      some (shownState p.mappings board.name column task'.currentState) := by
  have hmem : ((name, file'), task') ∈ (p.moved name file' board.name text').files.entries.zip
      (replaced p.files.entries tasks name task') := by
    rw [h.zip]
    exact List.mem_map.mpr ⟨_, h.entry, if_pos rfl⟩
  have hlookup := hclean.lookup_task hmem p.mappings
  rw [hid] at hlookup
  rw [hlookup, Option.map_some, stateForTaskId_eq, hplaced]
  rfl

/-- The boards afterwards are those before, but for the row. -/
theorem Move.boards (h : Move py p tasks docs ids name file task board doc card above below before
    after text') (hindex : card.lineIndex = above.length) :
    List.Forall₂ (fun old new => new.name = old.name ∧ new.path = old.path ∧
        (new.file = old.file ∨ RowMoved ⟨card, board.name, board.path⟩ old new)) p.boards
      (p.moved name file' board.name text').boards := by
  show List.Forall₂ _ p.boards (p.boards.map _)
  rw [List.forall₂_map_right_iff, List.forall₂_same]
  intro b hb
  by_cases hname : b.name = board.name
  · rw [if_pos hname]
    refine ⟨rfl, rfl, .inr ?_⟩
    have hsame : b = board :=
      List.inj_on_of_nodup_map p.boards_nodup hb (List.of_mem_zip h.board_mem).1 hname
    subst hsame
    obtain ⟨_, _, _, _, _, _, _, _, hdoc, _⟩ :=
      split_boards h.clean.boards p.boards_nodup h.board_mem
    obtain ⟨text, hfile, hlines, -⟩ := hdoc.text
    obtain ⟨hold, hnew, hrest⟩ := h.moves
    refine ⟨rfl, text, text', before.length, hfile, rfl, ?_, ?_⟩
    · show (splitlines text)[card.lineIndex]? = some card.cardText
      rw [← hlines, hold, hindex]
      simp
    · show splitlines text' =
        ((splitlines text).eraseIdx card.lineIndex).insertIdx before.length card.cardText
      have herased : (splitlines text).eraseIdx card.lineIndex = before ++ after := by
        rw [← hlines, hold, hindex, hrest, List.eraseIdx_append_of_length_le (le_refl _)]
        simp
      rw [herased, hnew, Boards.insertIdx_append]
  · rw [if_neg hname]
    exact ⟨rfl, rfl, .inl rfl⟩

/-- A card that is found is that of a note, and its row stands in a board. -/
theorem Clean.find (h : Clean py p tasks docs ids) {id : Text} {card : Card}
    (hlookup : (p.loadedOf tasks docs ids).cardsById.lookup id = some card) :
    ∃ name file task board doc found above below,
      ((name, file), task) ∈ p.files.entries.zip tasks ∧ task.id = id ∧
      (board, doc) ∈ p.boards.zip docs ∧ found ∈ doc.cards ∧
      card = ⟨found, board.name, board.path⟩ ∧
      cardId (p.index tasks) found.taskNote = id ∧ doc.lines = above ++ found.cardText :: below ∧
      found.lineIndex = above.length ∧
      Place.start.after above = ⟨.outside, some found.column⟩ ∧
      parseTaskRow found.cardText = some found.taskNote := by
  obtain ⟨l₁, l₂, heq, -⟩ := List.lookup_eq_some_iff.mp hlookup
  have hmem : (id, card) ∈ (p.loadedOf tasks docs ids).cardsById := by
    rw [heq]
    simp
  rw [h.cardsById] at hmem
  obtain ⟨card', hcard, hpair⟩ := List.mem_map.mp hmem
  obtain ⟨hid, rfl⟩ := Prod.mk.inj hpair
  obtain ⟨⟨board, doc⟩, hboard, hin⟩ := List.mem_flatMap.mp hcard
  obtain ⟨found, hfound, rfl⟩ := List.mem_map.mp hin
  obtain ⟨_, _, _, _, _, _, _, _, hdoc, _⟩ := split_boards h.boards p.boards_nodup hboard
  obtain ⟨text, -, -, hcards⟩ := hdoc.text
  obtain ⟨above, below, hlines, hindex, hplace, hparse⟩ :=
    @Boards.place_of_card .start 0 doc.lines doc.cards hcards found hfound
  have hlink := ((cardReads_iff.mp h.cards).1 _
    (List.mem_map.mpr ⟨_, hcard, rfl⟩)).link
  obtain ⟨task, htask⟩ := Option.isSome_iff_exists.mp hlink
  have htask : (p.index tasks).get found.taskNote = some task := htask
  have htaskId : task.id = id := by
    unfold cardId at hid
    rw [htask] at hid
    exact hid
  rcases mem_of_indexOf htask with hempty | ⟨⟨name, file⟩, hentry, -⟩
  · cases hempty
  · exact ⟨name, file, task, board, doc, found, above, below, hentry, htaskId, hboard, hfound,
      rfl, hid, hlines, by omega, hplace, hparse⟩

theorem Clean.lookup_name (h : Clean py p tasks docs ids)
    (hentry : ((name, file), task) ∈ p.files.entries.zip tasks) :
    (p.loadedOf tasks docs ids).namesById.lookup task.id = some name := by
  cases hlookup : (p.loadedOf tasks docs ids).namesById.lookup task.id with
  | none =>
      rw [lookup_eq_none_iff] at hlookup
      exact absurd (List.mem_map.mpr ⟨_, List.mem_map.mpr ⟨_, hentry, rfl⟩, rfl⟩) hlookup
  | some other =>
      obtain ⟨l₁, l₂, heq, -⟩ := List.lookup_eq_some_iff.mp hlookup
      have hmem : (task.id, other) ∈ idNames p.files.entries tasks := by
        show _ ∈ (p.loadedOf tasks docs ids).namesById
        rw [heq]
        simp
      obtain ⟨e, he, hpair⟩ := List.mem_map.mp hmem
      obtain ⟨hid, rfl⟩ := Prod.mk.inj hpair
      rw [h.eq_of_id he hentry hid]

theorem Clean.lookup_board (h : Clean py p tasks docs ids)
    (hboard : (board, doc) ∈ p.boards.zip docs) :
    (p.loadedOf tasks docs ids).boardsByName.lookup board.name = some doc := by
  obtain ⟨front, back, frontDocs, backDocs, hboards, rfl, hfront, -, -, hothers⟩ :=
    split_boards h.boards p.boards_nodup hboard
  show ((p.boards.map Board.name).zip _).lookup board.name = some doc
  rw [hboards, List.map_append, List.map_cons, List.zip_append (by simpa using hfront.length_eq),
    List.zip_cons_cons, List.lookup_append, lookup_eq_none_iff.mpr]
  · exact List.lookup_cons_self
  · rw [List.map_fst_zip (by simpa using le_of_eq hfront.length_eq)]
    intro hmem
    obtain ⟨b, hb, hname⟩ := List.mem_map.mp hmem
    exact hothers b (.inl hb) hname

/-- The writes of the state into the note of a task. -/
theorem stateCacheWrites_eq (h : Clean py p tasks docs ids) {content body : Text}
    {frontmatter : Entries} (hentry : ((name, .text content), task) ∈ p.files.entries.zip tasks)
    (hsplit : splitFrontmatter py content = .ok (frontmatter, body)) (state : String) :
    stateCacheWrites py p (p.loadedOf tasks docs ids) task.id state =
      if get? frontmatter "state" = none then some (.ok [])
      else if (set frontmatter "state" (.str state)).all (·.1.isString) then
        some (.ok [(.note name, document (cachedYaml py frontmatter state) body)])
      else none := by
  have hget : p.files.get name = some (.text content) :=
    Store.mem_entries.mp (List.of_mem_zip hentry).1
  unfold stateCacheWrites
  rw [h.lookup_name hentry]
  dsimp only
  rw [hget]
  unfold prepareTaskStateCache Note.split Note.content
  dsimp only [Project.note, Option.getD_some]
  rw [Fallible.ok_bind, hsplit]
  dsimp only
  by_cases hstate : get? frontmatter "state" = none
  · rw [if_pos hstate, hstate]
    rfl
  · have hne : frontmatter ≠ [] := by
      rintro rfl
      exact hstate rfl
    have hbody : stripNewlines body = body := by
      rw [(body_of_split hsplit hne).2, stripNewlines_idempotent]
    rw [if_neg hstate, if_neg (by simpa using hstate)]
    have hdocument :=
      @serializeTaskDocument_eq py (set frontmatter "state" (.str state)) body
    unfold serializeTaskDocument at hdocument
    rw [hbody] at hdocument ⊢
    rw [Option.map_map]
    show Option.map ((fun text => Except.ok [(Target.note name, text)]) ∘ fun content =>
      if body = [] then content ++ ['\n'] else content ++ "\n\n".toList ++ body ++ ['\n'])
        (serializeFrontmatter py (set frontmatter "state" (.str state))) = _
    rw [← Option.map_map, hdocument]
    unfold sortedEntries
    split
    next => rfl
    next => rfl

-- ============================================================ the condition

/-- The state that a note names once the move has written it. -/
def NoteNames (py : Python) (p : Project) (name : Text) (state : String) (id named : Text) : Prop :=
  ∀ content frontmatter body, p.files.get name = some (.text content) →
    splitFrontmatter py content = .ok (frontmatter, body) →
    if get? frontmatter "state" = none then named = []
    else Cached py content frontmatter state id named

/-- A column shows the state. -/
def Shows (py : Python) (p : Project) (name : Text) (board : String) (state : String)
    (id column : Text) : Prop :=
  ∃ named, NoteNames py p name state id named ∧
    (stateForBoardColumn p.mappings board column).isSome = true ∧
    shownState p.mappings board column named = state.toList

/-- The note caches a state, so a move writes it. -/
def CachesState (py : Python) (p : Project) (name : Text) : Prop :=
  ∃ content frontmatter body, p.files.get name = some (.text content) ∧
    splitFrontmatter py content = .ok (frontmatter, body) ∧ get? frontmatter "state" ≠ none

/-- The note after the move: as it was where it names no state, and written
otherwise. -/
def NoteAfter (py : Python) (content body : Text) (frontmatter : Entries) (state : String)
    (file' : ReadText) : Prop :=
  if get? frontmatter "state" = none then file' = .text content
  else file' = .text (document (cachedYaml py frontmatter state) body)

theorem currentState_of_parts (h : ReadsAs py p (name, file) task) {content body : Text}
    {frontmatter : Entries} (hfile : file = .text content)
    (hsplit : splitFrontmatter py content = .ok (frontmatter, body)) :
    task.currentState = textField py frontmatter "state" [] := by
  obtain ⟨_, _, _, hfile', hsplit', -, -, htask⟩ := h.parts
  rw [hfile] at hfile'
  cases hfile'
  rw [hsplit] at hsplit'
  cases hsplit'
  conv => lhs; rw [htask]
  rfl

theorem Move.readsAs (h : Move py p tasks docs ids name file task board doc card above below before
    after text') : ReadsAs py p (name, file) task := by
  have hzip := List.forall₂_iff_zip.mp h.clean.notes
  exact hzip.2 h.entry

/-- One task is moved, and nothing else, if and only if the row lands in a
column that shows the state. -/
theorem Move.movesOne_iff {content body : Text} {frontmatter : Entries} {state : String}
    (h : Move py p tasks docs ids name (.text content) task board doc card above below before
      after text') (hindex : card.lineIndex = above.length)
    (hsplit : splitFrontmatter py content = .ok (frontmatter, body))
    (hafter : NoteAfter py content body frontmatter state file') :
    MovesOne py p (p.moved name file' board.name text') (p.loadedOf tasks docs ids)
        ⟨card, board.name, board.path⟩ task.id state ↔
      ∃ column, Place.start.after before = ⟨.outside, some column⟩ ∧
        Shows py p name board.name state task.id column := by
  have hold := h.readsAs
  constructor
  · rintro ⟨⟨loaded', hload, herrors, hstate, -, -⟩, -, hbodies, -⟩
    obtain ⟨tasks', docs', ids', hclean, rfl⟩ := clean_of_load hload herrors
    obtain ⟨shown, hshown, -⟩ := Option.map_eq_some_iff.mp hstate
    obtain ⟨e, he, hid⟩ := mem_of_lookup_task hshown
    obtain ⟨task', column, hread, hid', hplace, hmapped⟩ := h.of_loads hclean
      (List.mem_map.mpr ⟨e.2, (List.of_mem_zip he).2, hid⟩)
    obtain ⟨docs'', ids'', hclean', hfilter, hplaced⟩ := h.loads hread hid' hplace hmapped
    have hsame := hclean'.load
    rw [hload] at hsame
    have hshows := h.shows hid' hclean' hplaced
    rw [← Option.some.inj hsame] at hshows
    refine ⟨column, hplace, task'.currentState, ?_, hmapped, ?_⟩
    · intro content' frontmatter' body' hget hsplit'
      rw [h.get] at hget
      cases hget
      rw [hsplit] at hsplit'
      cases hsplit'
      unfold NoteAfter at hafter
      by_cases hnone : get? frontmatter "state" = none
      · rw [if_pos hnone] at hafter ⊢
        rw [currentState_of_parts hread hafter hsplit]
        unfold textField
        rw [hnone]
      · rw [if_neg hnone] at hafter ⊢
        have hne : frontmatter ≠ [] := by
          rintro rfl
          exact hnone rfl
        obtain ⟨content', hget', hkept⟩ := hbodies name content h.get
        have hwritten : (p.moved name file' board.name text').files.get name = some file' :=
          Store.get_put_self
        rw [hwritten, hafter] at hget'
        cases hget'
        rw [hafter] at hread
        rw [← hid']
        exact cached_of_reads hsplit hne hread hkept
    · exact Option.some.inj (hshows.symm.trans hstate)
  · rintro ⟨column, hplace, named, hnames, hmapped, hshown⟩
    have hnames := hnames content frontmatter body h.get hsplit
    obtain ⟨task', hread, hid, hnamed, hkept⟩ : ∃ task', ReadsAs py p (name, file') task' ∧
        task'.id = task.id ∧ task'.currentState = named ∧
        ∃ content', file' = .text content' ∧
          stripNewlines (belowFence content') = stripNewlines (belowFence content) := by
      unfold NoteAfter at hafter
      by_cases hnone : get? frontmatter "state" = none
      · rw [if_pos hnone] at hafter hnames
        refine ⟨task, hafter ▸ hold, rfl, ?_, content, hafter, rfl⟩
        rw [currentState_of_parts hold rfl hsplit, hnames]
        unfold textField
        rw [hnone]
      · rw [if_neg hnone] at hafter hnames
        have hne : frontmatter ≠ [] := by
          rintro rfl
          exact hnone rfl
        obtain ⟨task', hread, hid, hnamed, hkept⟩ := hnames.reads hold hsplit hne
        exact ⟨task', hafter ▸ hread, hid, hnamed, _, hafter, hkept⟩
    obtain ⟨docs', ids', hclean, hfilter, hplaced⟩ := h.loads hread hid hplace hmapped
    refine ⟨⟨_, hclean.load, rfl, ?_, ?_, hfilter⟩, ?_, ?_, h.boards hindex⟩
    · have hshows := h.shows hid hclean hplaced
      rw [hnamed, hshown] at hshows
      exact hshows
    · intro other hother
      exact h.others hid hclean hfilter hother
    · exact names_put h.get
    · intro other old hget
      by_cases hname : other = name
      · subst hname
        rw [h.get] at hget
        cases hget
        obtain ⟨content', rfl, hkept⟩ := hkept
        exact ⟨content', Store.get_put_self, hkept⟩
      · exact ⟨old, (Store.get_put_of_ne hname).trans hget, rfl⟩

/-- A card that a move finds, with the mapping of the state to a column of its
board and the note of its task. -/
structure Moving (p : Project) (loaded : Loaded) (id : Text) (state : String) (card : Card)
    (target : StateMapping) (name : Text) : Prop where
  hcard : loaded.cardsById.lookup id = some card
  htarget : mappingForState p.mappings state = some target
  hboard : target.board = card.board
  hname : loaded.namesById.lookup id = some name

/-- When a move does what it should. -/
structure MoveFits (py : Python) (fault : Option Fault) (p : Project) (loaded : Loaded) (id : Text)
    (state : String) : Prop where
  /-- the column in which the card stands shows the state, unless a write fails -/
  stays : ∀ card target name, Moving p loaded id state card target name →
    card.column = target.column.toList → (fault = none ∨ ¬ CachesState py p name) →
    Shows py p name card.board state id card.column
  /-- the place where the row is put in lies in no block, below a heading that
  shows the state -/
  lands : ∀ card target name doc before after, Moving p loaded id state card target name →
    card.column ≠ target.column.toList → loaded.boardsByName.lookup card.board = some doc →
    Section target.column.toList (doc.lines.eraseIdx card.lineIndex) before after →
    fault = none → ∃ column, Place.start.after before = ⟨.outside, some column⟩ ∧
      Shows py p name card.board state id column
  /-- of writes that fail, nothing is left of the note that was replaced -/
  restored : ∀ card target name doc before after, Moving p loaded id state card target name →
    card.column ≠ target.column.toList → loaded.boardsByName.lookup card.board = some doc →
    Section target.column.toList (doc.lines.eraseIdx card.lineIndex) before after →
    CachesState py p name → ∀ f file, fault = some f → f.left.head? = some (some file) →
    p.files.get name = some file

/-- A move that is accepted is what it should be, and one that is not changes
nothing. -/
def MovesOrKeeps (py : Python) (p : Project) (loaded : Loaded) (id : Text) (state : String)
    (outcome : WriteResult × Project) : Prop :=
  (outcome.1.accepted = true → ∃ card, loaded.cardsById.lookup id = some card ∧
    MovesOne py p outcome.2 loaded card id state) ∧
  (outcome.1.accepted = false → outcome.2 = p)

theorem put_note_self (hfile : p.files.get name = some file) : p.put (.note name) file = p := by
  show ({ p with files := p.files.put name file } : Project) = p
  rw [Store.put_get_self hfile]

theorem put_note_iff : p.put (.note name) file = p ↔ p.files.get name = some file := by
  constructor
  · intro h
    rw [← congrArg Project.files h]
    exact Store.get_put_self
  · exact put_note_self

/-- What is refused changes nothing. -/
theorem movesOrKeeps_refused {loaded : Loaded} {id : Text} {state : String} {errors : List DomainError}
    (h : errors ≠ []) : MovesOrKeeps py p loaded id state (⟨none, errors⟩, p) := by
  refine ⟨fun haccepted => ?_, fun _ => rfl⟩
  exact absurd (List.isEmpty_iff.mp haccepted) h

/-- The note of a task that a move finds. -/
theorem Clean.writes (h : Clean py p tasks docs ids)
    (hentry : ((name, file), task) ∈ p.files.entries.zip tasks) (state : String) :
    ∃ content frontmatter body, file = .text content ∧
      splitFrontmatter py content = .ok (frontmatter, body) ∧
      (stateCacheWrites py p (p.loadedOf tasks docs ids) task.id state = none ∨
        get? frontmatter "state" = none ∧ ¬ CachesState py p name ∧
          stateCacheWrites py p (p.loadedOf tasks docs ids) task.id state = some (.ok []) ∨
        get? frontmatter "state" ≠ none ∧ CachesState py p name ∧
          stateCacheWrites py p (p.loadedOf tasks docs ids) task.id state = some (.ok
            [(.note name, document (cachedYaml py frontmatter state) body)])) := by
  have hread : ReadsAs py p (name, file) task := (List.forall₂_iff_zip.mp h.notes).2 hentry
  obtain ⟨content, frontmatter, body, rfl, hsplit, -⟩ := hread.parts
  have hget : p.files.get name = some (.text content) :=
    Store.mem_entries.mp (List.of_mem_zip hentry).1
  refine ⟨content, frontmatter, body, rfl, hsplit, ?_⟩
  rw [stateCacheWrites_eq h hentry hsplit]
  by_cases hstate : get? frontmatter "state" = none
  · rw [if_pos hstate]
    refine .inr (.inl ⟨hstate, ?_, rfl⟩)
    rintro ⟨content', frontmatter', body', hget', hsplit', hcaches⟩
    rw [hget] at hget'
    cases hget'
    rw [hsplit] at hsplit'
    cases hsplit'
    exact hcaches hstate
  · rw [if_neg hstate]
    split
    next => exact .inr (.inr ⟨hstate, ⟨content, frontmatter, body, hget, hsplit, hstate⟩, rfl⟩)
    next => exact .inl rfl

/-- What is accepted is what it should be where one task is moved. -/
theorem movesOrKeeps_accepted {loaded : Loaded} {id : Text} {state : String} {card : Card}
    (hlookup : loaded.cardsById.lookup id = some card) {result : WriteResult} {p' : Project}
    (hresult : result.errors = []) :
    MovesOrKeeps py p loaded id state (result, p') ↔ MovesOne py p p' loaded card id state := by
  have htrue : result.accepted = true := by
    unfold WriteResult.accepted
    rw [hresult]
    rfl
  constructor
  · rintro ⟨hmoves, -⟩
    obtain ⟨card', hcard', hone⟩ := hmoves htrue
    rw [hlookup] at hcard'
    cases hcard'
    exact hone
  · intro hone
    exact ⟨fun _ => ⟨_, hlookup, hone⟩, fun hfalse => absurd (htrue.symm.trans hfalse) nofun⟩

/-- What fails is what it should be where nothing of it is left. -/
theorem movesOrKeeps_failed {loaded : Loaded} {id : Text} {state : String} {errors : List DomainError}
    {path : Option String} {p' : Project} (h : errors ≠ []) :
    MovesOrKeeps py p loaded id state (⟨path, errors⟩, p') ↔ p' = p := by
  have hfalse : (⟨path, errors⟩ : WriteResult).accepted = false := by
    unfold WriteResult.accepted
    cases errors with
    | nil => exact absurd rfl h
    | cons e errors => rfl
  constructor
  · exact fun hkeeps => hkeeps.2 hfalse
  · exact fun hkept => ⟨fun htrue => absurd (hfalse.symm.trans htrue) nofun, fun _ => hkept⟩

/-- A card that stays in its column. -/
theorem syncs_iff {fault : Option Fault} {outcome : WriteResult × Project} {content : Text}
    {state fallbackPath : String}
    (h : Move py p tasks docs ids name (.text content) task board doc card above below above
      below text) (hindex : card.lineIndex = above.length) (hfile : board.file = .text text)
    (hlookup : (p.loadedOf tasks docs ids).cardsById.lookup task.id =
      some ⟨card, board.name, board.path⟩)
    (hsync : syncTaskStateCache py fault p (p.loadedOf tasks docs ids) task.id state fallbackPath =
      some outcome) :
    MovesOrKeeps py p (p.loadedOf tasks docs ids) task.id state outcome ↔
      ((fault = none ∨ ¬ CachesState py p name) →
        Shows py p name board.name state task.id card.column) := by
  have hboard := (List.of_mem_zip h.board_mem).1
  -- the project in which only the note was written
  have hmoved : ∀ file', p.moved name file' board.name text = p.put (.note name) file' := by
    intro file'
    exact @moved_self (p.put (.note name) file') board text hboard hfile
  obtain ⟨content', frontmatter, body, hcontent, hsplit, hwrites⟩ := h.clean.writes h.entry state
  cases hcontent
  have hiff : ∀ file', NoteAfter py content body frontmatter state file' →
      (MovesOne py p (p.put (.note name) file') (p.loadedOf tasks docs ids)
        ⟨card, board.name, board.path⟩ task.id state ↔
          Shows py p name board.name state task.id card.column) := by
    intro file' hafter
    rw [← hmoved file', h.movesOne_iff hindex hsplit hafter, h.place]
    constructor
    · rintro ⟨column, hcolumn, hshows⟩
      cases hcolumn
      exact hshows
    · exact fun hshows => ⟨_, rfl, hshows⟩
  unfold syncTaskStateCache at hsync
  rcases hwrites with hnone | ⟨hstate, hcaches, hempty⟩ | ⟨hstate, hcaches, hone⟩
  · rw [hnone] at hsync
    cases hsync
  · rw [hempty] at hsync
    cases hsync
    have hkept := hiff (.text content) (by unfold NoteAfter; rw [if_pos hstate])
    rw [put_note_self h.get] at hkept
    rw [movesOrKeeps_accepted hlookup rfl, hkept]
    exact ⟨fun hshows _ => hshows, fun hshows => hshows (.inr hcaches)⟩
  · rw [hone] at hsync
    dsimp only [Option.map_some] at hsync
    cases fault with
    | none =>
        cases hsync
        rw [movesOrKeeps_accepted hlookup rfl]
        show MovesOne py p (p.put (.note name) _) _ _ _ _ ↔ _
        rw [hiff _ (by unfold NoteAfter; rw [if_neg hstate])]
        exact ⟨fun hshows _ => hshows, fun hshows => hshows (.inl rfl)⟩
    | some f =>
        cases hsync
        refine ⟨fun _ hfault => ?_, fun _ => movesOrKeeps_refused (by simp)⟩
        rcases hfault with hfault | hnot
        · cases hfault
        · exact absurd hcaches hnot

/-- A section of lines is where the scanner finds it, so there is one. -/
theorem section_unique {column : Text} {lines before' after' : List Text}
    (h : Section column lines before after) (h' : Section column lines before' after') :
    before' = before ∧ after' = after := by
  have hlength := h.findColumnInsertIndex.symm.trans h'.findColumnInsertIndex
  exact List.append_inj (h'.lines_eq.symm.trans h.lines_eq) (Option.some.inj hlength).symm

/-- The lines of a board with a row put in somewhere. -/
theorem splitlines_moved (h : BoardReads board doc) {row : Text}
    (hlines : doc.lines = above ++ row :: below) (hrest : before ++ after = above ++ below) :
    splitlines (boardText (before ++ row :: after)) = before ++ row :: after := by
  obtain ⟨text, -, htext, -⟩ := h.text
  refine Boards.splitlines_boardText (by simp) fun line hline c hc => ?_
  have hmem : line ∈ doc.lines := by
    have hrests : line ∈ before ++ after → line ∈ above ++ below := fun h => hrest ▸ h
    rw [hlines]
    simp only [List.mem_append, List.mem_cons] at hline hrests ⊢
    tauto
  rw [htext] at hmem
  exact Frozen.Prompt.not_isLineBreak_of_mem hmem hc

/-- A card that goes to another column of its board. -/
theorem moveCard_iff {fault : Option Fault} {outcome : WriteResult × Project} {state : String}
    {target : StateMapping} (h : Clean py p tasks docs ids)
    (hentry : ((name, file), task) ∈ p.files.entries.zip tasks)
    (hboard : (board, doc) ∈ p.boards.zip docs) (hcard : card ∈ doc.cards)
    (hid : cardId (p.index tasks) card.taskNote = task.id)
    (hlines : doc.lines = above ++ card.cardText :: below) (hindex : card.lineIndex = above.length)
    (hplace : Place.start.after above = ⟨.outside, some card.column⟩)
    (hparse : parseTaskRow card.cardText = some card.taskNote)
    (hlookup : (p.loadedOf tasks docs ids).cardsById.lookup task.id =
      some ⟨card, board.name, board.path⟩)
    (hmove : moveCard py fault p (p.loadedOf tasks docs ids) task.id state
      ⟨card, board.name, board.path⟩ target = some outcome) :
    MovesOrKeeps py p (p.loadedOf tasks docs ids) task.id state outcome ↔
      ∀ before after,
        Section target.column.toList (doc.lines.eraseIdx card.lineIndex) before after →
        (fault = none → ∃ column, Place.start.after before = ⟨.outside, some column⟩ ∧
          Shows py p name board.name state task.id column) ∧
        (CachesState py p name → ∀ f file, fault = some f → f.left.head? = some (some file) →
          p.files.get name = some file) := by
  have herased : doc.lines.eraseIdx card.lineIndex = above ++ below := by
    rw [hlines, hindex, List.eraseIdx_append_of_length_le (le_refl _)]
    simp
  have hline : doc.lines[card.lineIndex]? = some card.cardText := by
    rw [hlines, hindex]
    simp
  unfold moveCard at hmove
  dsimp only at hmove
  rw [h.lookup_board hboard] at hmove
  dsimp only [Option.bind_eq_bind, Option.bind_some] at hmove
  rw [hline] at hmove
  dsimp only [Option.bind_some] at hmove
  rw [herased] at hmove ⊢
  cases hfind : Obsidian.findColumnInsertIndex (above ++ below) target.column.toList with
  | none =>
      rw [hfind] at hmove
      cases hmove
      refine ⟨fun _ before after hsection => ?_, fun _ => movesOrKeeps_refused (by simp)⟩
      rw [hsection.findColumnInsertIndex] at hfind
      cases hfind
  | some k =>
      rw [hfind] at hmove
      dsimp only at hmove
      obtain ⟨before, after, hsection, rfl⟩ := Boards.findColumnInsertIndex_eq_some.mp hfind
      have hrest : before ++ after = above ++ below := hsection.lines_eq.symm
      rw [← hrest, Boards.insertIdx_append] at hmove
      -- there is one place, so the condition is about that place
      have hone : (∀ before' after', Section target.column.toList (above ++ below) before' after' →
          (fault = none → ∃ column, Place.start.after before' = ⟨.outside, some column⟩ ∧
            Shows py p name board.name state task.id column) ∧
          (CachesState py p name → ∀ f file, fault = some f → f.left.head? = some (some file) →
            p.files.get name = some file)) ↔
          (fault = none → ∃ column, Place.start.after before = ⟨.outside, some column⟩ ∧
            Shows py p name board.name state task.id column) ∧
          (CachesState py p name → ∀ f file, fault = some f → f.left.head? = some (some file) →
            p.files.get name = some file) := by
        constructor
        · exact fun hall => hall before after hsection
        · intro hall before' after' hsection'
          obtain ⟨rfl, -⟩ := section_unique hsection hsection'
          exact hall
      rw [hone]
      obtain ⟨content, frontmatter, body, rfl, hsplit, hwrites⟩ := h.writes hentry state
      obtain ⟨_, _, _, _, _, _, _, _, hreads, _⟩ := split_boards h.boards p.boards_nodup hboard
      have hmoved : Move py p tasks docs ids name (.text content) task board doc card above below
          before after (boardText (before ++ card.cardText :: after)) :=
        ⟨h, hentry, hboard, hcard, hid, hplace, hparse,
          ⟨hlines, splitlines_moved hreads hlines hrest, hrest⟩⟩
      rcases hwrites with hnone | ⟨hstate, hcaches, hempty⟩ | ⟨hstate, hcaches, hwrite⟩
      · rw [hnone] at hmove
        cases hmove
      · rw [hempty] at hmove
        cases fault with
        | none =>
            cases hmove
            rw [movesOrKeeps_accepted hlookup rfl]
            have hafter : NoteAfter py content body frontmatter state (.text content) := by
              unfold NoteAfter
              rw [if_pos hstate]
            have hiff := hmoved.movesOne_iff hindex hsplit hafter
            unfold Project.moved at hiff
            rw [put_note_self hmoved.get] at hiff
            refine hiff.trans ⟨fun hshows => ⟨fun _ => hshows, nofun⟩, fun hall => hall.1 rfl⟩
        | some f =>
            cases hmove
            refine ⟨fun _ => ⟨nofun, fun hnot => absurd hnot hcaches⟩, fun _ => ?_⟩
            exact movesOrKeeps_refused (by simp)
      · rw [hwrite] at hmove
        cases fault with
        | none =>
            cases hmove
            rw [movesOrKeeps_accepted hlookup rfl]
            have hafter : NoteAfter py content body frontmatter state
                (.text (document (cachedYaml py frontmatter state) body)) := by
              unfold NoteAfter
              rw [if_neg hstate]
            refine (hmoved.movesOne_iff hindex hsplit hafter).trans ⟨fun hshows => ⟨fun _ => hshows, nofun⟩, fun hall => hall.1 rfl⟩
        | some f =>
            obtain ⟨error, left⟩ := f
            cases left with
            | nil =>
                cases hmove
                refine ⟨fun _ => ⟨nofun, fun _ f file hf hhead => ?_⟩, fun _ => ?_⟩
                · cases hf
                  cases hhead
                · exact movesOrKeeps_refused (by simp)
            | cons first left =>
                cases first with
                | none =>
                    cases hmove
                    refine ⟨fun _ => ⟨nofun, fun _ f file hf hhead => ?_⟩, fun _ => ?_⟩
                    · cases hf
                      cases hhead
                    · exact movesOrKeeps_refused (by simp)
                | some file =>
                    cases hmove
                    refine (movesOrKeeps_failed (List.cons_ne_nil _ _)).trans ?_
                    show p.put (.note name) file = p ↔ _
                    rw [put_note_iff]
                    constructor
                    · intro hget
                      refine ⟨nofun, fun _ f file' hf hhead => ?_⟩
                      cases hf
                      cases hhead
                      exact hget
                    · exact fun hall => hall.2 hcaches _ file rfl rfl

/-- What finds no card, no mapping or another board is as it should be. -/
theorem moveFits_of_not_moving {fault : Option Fault} {loaded : Loaded} {id : Text} {state : String}
    (h : ∀ card target name, ¬ Moving p loaded id state card target name) :
    MoveFits py fault p loaded id state :=
  ⟨fun card target name hmoving => absurd hmoving (h card target name),
    fun card target name _ _ _ hmoving => absurd hmoving (h card target name),
    fun card target name _ _ _ hmoving => absurd hmoving (h card target name)⟩

/-- `move_task`, when it is accepted, moves the one task and nothing else, and
changes no file when it is not, if and only if the row lands where the state is
shown and a note that was replaced can be restored. -/
theorem move_task_moves {fault : Option Fault} {loaded : Loaded} {id : Text} {state : String}
    {outcome : WriteResult × Project} (hload : load py p = some loaded)
    (hclean : loaded.errors = []) (hmove : moveTask py fault p id state = some outcome) :
    MovesOrKeeps py p loaded id state outcome ↔ MoveFits py fault p loaded id state := by
  obtain ⟨tasks, docs, ids, h, rfl⟩ := clean_of_load hload hclean
  unfold moveTask at hmove
  rw [hload] at hmove
  dsimp only [Option.bind_eq_bind, Option.bind_some] at hmove
  rw [if_neg (by simpa using hclean)] at hmove
  cases hlookup : (p.loadedOf tasks docs ids).cardsById.lookup id with
  | none =>
      rw [hlookup] at hmove
      cases hmove
      refine ⟨fun _ => moveFits_of_not_moving fun card target name hmoving => ?_,
        fun _ => movesOrKeeps_refused (by simp)⟩
      cases hlookup.symm.trans hmoving.hcard
  | some card =>
      rw [hlookup] at hmove
      dsimp only at hmove
      cases htarget : mappingForState p.mappings state with
      | none =>
          rw [htarget] at hmove
          cases hmove
          refine ⟨fun _ => moveFits_of_not_moving fun card target name hmoving => ?_,
            fun _ => movesOrKeeps_refused (by simp)⟩
          cases htarget.symm.trans hmoving.htarget
      | some target =>
          rw [htarget] at hmove
          dsimp only at hmove
          obtain ⟨name, file, task, board, doc, found, above, below, hentry, rfl, hboard, hfound,
            rfl, hid, hlines, hindex, hplace, hparse⟩ := h.find hlookup
          dsimp only at hmove
          have hname := h.lookup_name hentry
          -- what a move finds is this card, this mapping and this note
          have hfinds : ∀ card' target' name', Moving p (p.loadedOf tasks docs ids) task.id state
              card' target' name' → card' = ⟨found, board.name, board.path⟩ ∧ target' = target ∧
                name' = name ∧ target.board = board.name := by
            rintro card' target' name' ⟨hcard', htarget', hboard', hname'⟩
            cases hlookup.symm.trans hcard'
            cases htarget.symm.trans htarget'
            cases hname.symm.trans hname'
            exact ⟨rfl, rfl, rfl, hboard'⟩
          by_cases hsame : board.name = target.board
          · have hmoving : Moving p (p.loadedOf tasks docs ids) task.id state
                ⟨found, board.name, board.path⟩ target name := ⟨hlookup, htarget, hsame.symm, hname⟩
            by_cases hcolumn : found.column = target.column.toList
            · rw [if_pos ⟨hsame, hcolumn⟩] at hmove
              obtain ⟨content, frontmatter, body, rfl, -⟩ := h.writes hentry state
              obtain ⟨_, _, _, _, _, _, _, _, hreads, _⟩ :=
                split_boards h.boards p.boards_nodup hboard
              obtain ⟨text, hfile, htext, -⟩ := hreads.text
              have hmoved : Move py p tasks docs ids name (.text content) task board doc found above
                  below above below text :=
                ⟨h, hentry, hboard, hfound, hid, hplace, hparse,
                  ⟨hlines, htext.symm.trans hlines, rfl⟩⟩
              rw [syncs_iff hmoved hindex hfile hlookup hmove]
              constructor
              · intro hstays
                refine ⟨?_, ?_, ?_⟩
                · intro card' target' name' hmoving' _ hfault
                  obtain ⟨rfl, rfl, rfl, -⟩ := hfinds _ _ _ hmoving'
                  exact hstays hfault
                · intro card' target' name' doc' before after hmoving' hne
                  obtain ⟨rfl, rfl, rfl, -⟩ := hfinds _ _ _ hmoving'
                  exact absurd hcolumn hne
                · intro card' target' name' doc' before after hmoving' hne
                  obtain ⟨rfl, rfl, rfl, -⟩ := hfinds _ _ _ hmoving'
                  exact absurd hcolumn hne
              · exact fun hfits hfault => hfits.stays _ _ _ hmoving hcolumn hfault
            · rw [if_neg (fun hboth => hcolumn hboth.2), if_neg (by simpa using hsame.symm)] at hmove
              rw [moveCard_iff h hentry hboard hfound hid hlines hindex hplace hparse hlookup hmove]
              constructor
              · intro hall
                refine ⟨?_, ?_, ?_⟩
                · intro card' target' name' hmoving' heq
                  obtain ⟨rfl, rfl, rfl, -⟩ := hfinds _ _ _ hmoving'
                  exact absurd heq hcolumn
                · intro card' target' name' doc' before after hmoving' _ hdoc' hsection
                  obtain ⟨rfl, rfl, rfl, -⟩ := hfinds _ _ _ hmoving'
                  cases (h.lookup_board hboard).symm.trans hdoc'
                  exact (hall before after hsection).1
                · intro card' target' name' doc' before after hmoving' _ hdoc' hsection
                  obtain ⟨rfl, rfl, rfl, -⟩ := hfinds _ _ _ hmoving'
                  cases (h.lookup_board hboard).symm.trans hdoc'
                  exact (hall before after hsection).2
              · intro hfits before after hsection
                exact ⟨hfits.lands _ _ _ _ _ _ hmoving hcolumn (h.lookup_board hboard) hsection,
                  hfits.restored _ _ _ _ _ _ hmoving hcolumn (h.lookup_board hboard) hsection⟩
          · rw [if_neg (fun hboth => hsame hboth.1), if_pos (fun heq => hsame heq.symm)] at hmove
            cases hmove
            refine ⟨fun _ => moveFits_of_not_moving fun card' target' name' hmoving' => ?_,
              fun _ => movesOrKeeps_refused (by simp)⟩
            exact absurd (hfinds _ _ _ hmoving').2.2.2.symm hsame

/-- The text of a value that is one. -/
def textOnly : PyValue → Text
  | .str s => s.toList
  | _ => []

theorem textOnly_str (s : String) : textOnly (.str s) = s.toList := rfl

/-- A library that reads the id and the state of one note. -/
def stateYaml : Python where
  load _ := .ok (.dict [(.str "id", .int 1), (.str "state", .str "done")])
  dump _ := "id: 1\nstate: done\n".toList
  str := textOnly
  repr text := text
  str_str := textOnly_str

/-- A project with one task, which stands in the first of two columns. -/
def oneTask : Project where
  root := "vault"
  rootIsDir := true
  tasksRoot := "vault/tasks"
  domainPath path := path
  mappings := [⟨"ready", "main", "Ready"⟩, ⟨"done", "main", "Done"⟩]
  boards := [⟨"main", "vault/main.md", .text "## Ready\n- [ ] [[a]]\n## Done\n".toList⟩]
  boards_nodup := by decide
  files := (∅ : Store Text ReadText).put "a.md".toList
    (.text "---\nid: 1\nstate: ready\n---\n# A\n".toList)

set_option maxRecDepth 4000 in
theorem one_task_moves : ∃ loaded outcome, load stateYaml oneTask = some loaded ∧
    loaded.errors = [] ∧
    moveTask stateYaml none oneTask "1".toList "done" = some outcome ∧
    outcome.1.accepted = true ∧
    (MovesOrKeeps stateYaml oneTask loaded "1".toList "done" outcome ↔
      MoveFits stateYaml none oneTask loaded "1".toList "done") :=
  ⟨_, _, rfl, rfl, rfl, rfl, move_task_moves rfl rfl rfl⟩
end OpenTulid.Obsidian
