/-
A project in which one note is rewritten and one row is moved.

# Two files

`Project.moved` writes a note and a board. The note keeps its id, so every link
keeps its task; the board keeps its other rows, so every other card keeps its
board, its column and its neighbours (`others_moved`).

# Loading again

The project is loaded again without errors, and knows the task, if and only if
the note is read with its id and the row stands in no block, below a heading
that is mapped (`Clean.moved` and `clean_of_moved`).
-/
import OpenTulid.Proofs.ProjectLoading

namespace OpenTulid.Obsidian

open Boards (ReadText BoardDocument Place Row rowsOf parseTaskRow)
open Frozen.Prompt (Text splitlines)

variable {py : Python} {p : Project} {tasks : List Task} {docs : List BoardDocument}
  {ids : List Text}

-- =================================================================== cards

/-- A card without its number, and its board. -/
def Card.row (card : Card) : String × Row := (card.board, card.toBoardCard.row)

/-- A row that stands for a task, in a column that is mapped. -/
structure RowReads (mappings : List StateMapping) (index : Store Text Task)
    (row : String × Row) : Prop where
  link : (index.get row.2.note).isSome = true
  mapped : (stateForBoardColumn mappings row.1 row.2.column).isSome = true

/-- The id that a row stands for. -/
def rowId (index : Store Text Task) (row : String × Row) : Text := cardId index row.2.note

/-- The cards of a board, by their rows. -/
theorem map_row_boardCards (board : Board) (cards : List Boards.BoardCard) :
    (boardCards board cards).map Card.row =
      (cards.map Boards.BoardCard.row).map fun row => (board.name, row) := by
  unfold boardCards
  rw [List.map_map, List.map_map]
  rfl

/-- Cards that can be read, by their rows. -/
theorem cardReads_iff {mappings : List StateMapping} {index : Store Text Task}
    {cards : List Card} {ids : List Text} :
    List.Forall₂ (CardReads mappings index) cards ids ↔
      (∀ row ∈ cards.map Card.row, RowReads mappings index row) ∧
        ids = (cards.map Card.row).map (rowId index) := by
  induction cards generalizing ids with
  | nil =>
      rw [List.forall₂_nil_left_iff]
      exact ⟨fun h => ⟨nofun, h⟩, fun h => h.2⟩
  | cons card cards ih =>
      rw [List.forall₂_cons_left_iff]
      constructor
      · rintro ⟨id, rest, hcard, hrest, rfl⟩
        obtain ⟨hreads, rfl⟩ := ih.mp hrest
        refine ⟨fun row hrow => ?_, ?_⟩
        · rcases List.mem_cons.mp hrow with rfl | hrow
          · refine ⟨?_, hcard.mapped⟩
            obtain ⟨task, htask, -⟩ := Option.map_eq_some_iff.mp hcard.link
            exact Option.isSome_iff_exists.mpr ⟨task, htask⟩
          · exact hreads row hrow
        · exact congrArg (· :: _) hcard.cardId.symm
      · rintro ⟨hreads, rfl⟩
        refine ⟨rowId index card.row, _, ⟨?_, (hreads _ (.head _)).mapped⟩,
          ih.mpr ⟨fun row hrow => hreads row (.tail _ hrow), rfl⟩, rfl⟩
        obtain ⟨task, htask⟩ := Option.isSome_iff_exists.mp (hreads _ (.head _)).link
        have htask : index.get card.taskNote = some task := htask
        show (index.get card.taskNote).map Task.id = some (cardId index card.taskNote)
        unfold cardId
        rw [htask]
        rfl

/-- The rows of all boards. -/
def allRows (boards : List Board) (docs : List BoardDocument) : List (String × Row) :=
  (allCards boards docs).map Card.row

theorem allRows_cons (board : Board) (boards : List Board) (doc : BoardDocument)
    (docs : List BoardDocument) :
    allRows (board :: boards) (doc :: docs) =
      ((doc.cards.map Boards.BoardCard.row).map fun row => (board.name, row)) ++ allRows boards docs := by
  unfold allRows
  rw [allCards_cons, List.map_append, map_row_boardCards]

theorem allRows_append {boards boards' : List Board} {docs docs' : List BoardDocument}
    (h : boards.length = docs.length) :
    allRows (boards ++ boards') (docs ++ docs') = allRows boards docs ++ allRows boards' docs' := by
  unfold allRows allCards
  rw [List.zip_append h, List.flatMap_append, List.map_append]

/-- Where every card stands. -/
def Loaded.placed (loaded : Loaded) : List (Text × String × Row) :=
  loaded.cardsById.map fun e => (e.1, e.2.row)

theorem Clean.placed (h : Clean py p tasks docs ids) :
    (p.loadedOf tasks docs ids).placed =
      (allRows p.boards docs).map fun row => (rowId (p.index tasks) row, row) := by
  unfold Loaded.placed allRows
  rw [h.cardsById, List.map_map, List.map_map]
  rfl

-- =================================================================== files

/-- The project with a note and the text of a board written. -/
def Project.moved (p : Project) (name : Text) (file : ReadText) (board : String) (text : Text) :
    Project :=
  (p.put (.note name) file).put (.board board) (.text text)

variable {name : Text} {file file' : ReadText} {task task' : Task}

/-- The notes of a project after one was written. -/
def replaced (entries : List (Text × ReadText)) (tasks : List Task) (name : Text) (task' : Task) :
    List Task :=
  (entries.zip tasks).map fun e => if e.1.1 = name then task' else e.2

theorem entries_put (hfile : p.files.get name = some file) :
    (p.files.put name file').entries =
      p.files.entries.map fun e => if e.1 = name then (name, file') else e := by
  refine (Store.putEntry_eq_map p.files.sorted hfile).trans (List.map_congr_left fun e _ => ?_)
  by_cases heq : e.1 = name
  · rw [if_pos heq, if_pos heq]
  · rw [if_neg heq, if_neg heq]

theorem names_put (hfile : p.files.get name = some file) :
    (p.files.put name file').entries.map Prod.fst = p.files.entries.map Prod.fst := by
  rw [entries_put hfile, List.map_map]
  refine List.map_congr_left fun e _ => ?_
  dsimp only [Function.comp]
  split
  next heq => exact heq.symm
  next => rfl

/-- The notes are read as before, but for the one. -/
theorem reads_replaced {entries : List (Text × ReadText)} {tasks : List Task}
    (h : List.Forall₂ (ReadsAs py p) entries tasks) (hread : ReadsAs py p (name, file') task') :
    List.Forall₂ (ReadsAs py p) (entries.map fun e => if e.1 = name then (name, file') else e)
      (replaced entries tasks name task') := by
  induction h with
  | nil => exact .nil
  | @cons entry task entries tasks hfirst _ ih =>
      unfold replaced at ih ⊢
      rw [List.map_cons, List.zip_cons_cons, List.map_cons]
      refine .cons ?_ ih
      dsimp only
      split
      next => exact hread
      next => exact hfirst

theorem zip_replaced (entries : List (Text × ReadText)) (tasks : List Task) :
    (entries.map fun e => if e.1 = name then (name, file') else e).zip
        (replaced entries tasks name task') =
      (entries.zip tasks).map fun e => if e.1.1 = name then ((name, file'), task') else e := by
  unfold replaced
  induction entries generalizing tasks with
  | nil => rfl
  | cons entry entries ih =>
      cases tasks with
      | nil => rfl
      | cons task tasks =>
          rw [List.map_cons, List.zip_cons_cons, List.map_cons, List.map_cons, List.zip_cons_cons,
            ih]
          dsimp only
          split
          next => rfl
          next => rfl

theorem ids_replaced {entries : List (Text × ReadText)} {tasks : List Task}
    (hlength : entries.length = tasks.length)
    (h : ∀ e ∈ entries.zip tasks, e.1.1 = name → e.2.id = task'.id) :
    (replaced entries tasks name task').map Task.id = tasks.map Task.id := by
  have hsnd : (entries.zip tasks).map (fun e => e.2.id) = tasks.map Task.id := by
    rw [show (fun e : (Text × ReadText) × Task => e.2.id) = Task.id ∘ Prod.snd from rfl,
      ← List.map_map, List.map_snd_zip (le_of_eq hlength.symm)]
  unfold replaced
  rw [List.map_map, ← hsnd]
  refine List.map_congr_left fun e he => ?_
  dsimp only [Function.comp]
  split
  next heq => exact (h e he heq).symm
  next => rfl

/-- Reading notes gives one list of tasks. -/
theorem reads_unique {entries : List (Text × ReadText)} {tasks tasks' : List Task}
    (h : List.Forall₂ (ReadsAs py p) entries tasks)
    (h' : List.Forall₂ (ReadsAs py p) entries tasks') : tasks = tasks' := by
  refine List.right_unique_forall₂' (fun e task task' htask htask' => ?_) h h'
  have heq := htask.read.symm.trans htask'.read
  exact Except.ok.inj (Option.some.inj heq)

/-- Reading boards gives one list of documents. -/
theorem docs_unique {boards : List Board} {docs docs' : List BoardDocument}
    (h : List.Forall₂ BoardReads boards docs) (h' : List.Forall₂ BoardReads boards docs') :
    docs = docs' := by
  refine List.right_unique_forall₂' (fun b doc doc' hdoc hdoc' => ?_) h h'
  exact Except.ok.inj (Eq.trans (Eq.symm hdoc) hdoc')

-- =================================================================== boards

/-- The boards before and behind a board. -/
theorem split_boards {boards : List Board} {docs : List BoardDocument} {board : Board}
    {doc : BoardDocument} (hdocs : List.Forall₂ BoardReads boards docs)
    (hnodup : (boards.map Board.name).Nodup) (hmem : (board, doc) ∈ boards.zip docs) :
    ∃ front back frontDocs backDocs, boards = front ++ board :: back ∧
      docs = frontDocs ++ doc :: backDocs ∧ List.Forall₂ BoardReads front frontDocs ∧
      List.Forall₂ BoardReads back backDocs ∧ BoardReads board doc ∧
      ∀ b, b ∈ front ∨ b ∈ back → b.name ≠ board.name := by
  induction hdocs with
  | nil => cases hmem
  | @cons first firstDoc boards docs hfirst hrest ih =>
      obtain ⟨hnot, hnodup⟩ := List.nodup_cons.mp hnodup
      rcases List.mem_cons.mp hmem with heq | hlater
      · cases heq
        refine ⟨[], boards, [], docs, rfl, rfl, .nil, hrest, hfirst, ?_⟩
        rintro b (hb | hb) hname
        · cases hb
        · exact hnot (List.mem_map.mpr ⟨b, hb, hname⟩)
      · obtain ⟨front, back, frontDocs, backDocs, rfl, rfl, hfront, hback, hboard, hothers⟩ :=
          ih hnodup hlater
        refine ⟨first :: front, back, firstDoc :: frontDocs, backDocs, rfl, rfl,
          .cons hfirst hfront, hback, hboard, ?_⟩
        rintro b (hb | hb) hname
        · rcases List.mem_cons.mp hb with rfl | hb
          · exact hnot (List.mem_map.mpr ⟨board, by simp, hname.symm⟩)
          · exact hothers b (.inl hb) hname
        · exact hothers b (.inr hb) hname

theorem map_board_of_ne {boards : List Board} {board : String} {file : ReadText}
    (h : ∀ b ∈ boards, b.name ≠ board) :
    boards.map (fun b => if b.name = board then { b with file := file } else b) = boards := by
  have hself : ∀ b ∈ boards, (if b.name = board then { b with file := file } else b) = b :=
    fun b hb => if_neg (h b hb)
  rw [List.map_congr_left hself, List.map_id']

/-- The boards of a project after one was written. -/
theorem boards_moved {front back : List Board} {board : Board} {text : Text}
    (hboards : p.boards = front ++ board :: back)
    (hothers : ∀ b, b ∈ front ∨ b ∈ back → b.name ≠ board.name) :
    (p.moved name file' board.name text).boards =
      front ++ { board with file := .text text } :: back := by
  show p.boards.map _ = _
  rw [hboards, List.map_append, List.map_cons, if_pos rfl,
    map_board_of_ne fun b hb => hothers b (.inl hb),
    map_board_of_ne fun b hb => hothers b (.inr hb)]

/-- Writing the text that stands changes nothing. -/
theorem moved_self {board : Board} {text : Text} (hboard : board ∈ p.boards)
    (htext : board.file = .text text) :
    p.put (.board board.name) (.text text) = p := by
  have hboards : (p.put (.board board.name) (.text text)).boards = p.boards := by
    show p.boards.map _ = p.boards
    have hself : ∀ b ∈ p.boards,
        (if b.name = board.name then { b with file := .text text } else b) = b := by
      intro b hb
      split
      next heq =>
        have hsame := List.inj_on_of_nodup_map p.boards_nodup hb hboard heq
        rw [hsame, ← htext]
      next => rfl
    rw [List.map_congr_left hself, List.map_id']
  obtain ⟨root, rootIsDir, tasksRoot, domainPath, mappings, boards, hnodup, files⟩ := p
  have hboards : (Project.put ⟨root, rootIsDir, tasksRoot, domainPath, mappings, boards, hnodup,
    files⟩ (.board board.name) (.text text)).boards = boards := hboards
  unfold Project.put Project.putBoard at hboards ⊢
  dsimp only at hboards ⊢
  congr

-- ================================================================ loading

/-- A row is moved in the lines of a board: taken out behind `above` and put in
behind `before`. -/
structure Moves (lines lines' : List Text) (above below before after : List Text) (row : Text) :
    Prop where
  old : lines = above ++ row :: below
  new : lines' = before ++ row :: after
  rest : before ++ after = above ++ below

/-- What is moved: a note that is rewritten and the row of its card. -/
structure Move (py : Python) (p : Project) (tasks : List Task) (docs : List BoardDocument)
    (ids : List Text) (name : Text) (file : ReadText) (task : Task) (board : Board)
    (doc : BoardDocument) (card : Boards.BoardCard) (above below before after : List Text)
    (text' : Text) : Prop where
  clean : Clean py p tasks docs ids
  entry : ((name, file), task) ∈ p.files.entries.zip tasks
  board_mem : (board, doc) ∈ p.boards.zip docs
  card_mem : card ∈ doc.cards
  card_id : cardId (p.index tasks) card.taskNote = task.id
  place : Place.start.after above = ⟨.outside, some card.column⟩
  parses : parseTaskRow card.cardText = some card.taskNote
  moves : Moves doc.lines (splitlines text') above below before after card.cardText

variable {board : Board} {doc : BoardDocument} {card : Boards.BoardCard}
  {above below before after : List Text} {text' : Text}

theorem Move.get (h : Move py p tasks docs ids name file task board doc card above below before
    after text') : p.files.get name = some file :=
  Store.mem_entries.mp (List.of_mem_zip h.entry).1

/-- The rows of the board before and after, without the one that is moved. -/
theorem Move.rows (h : Move py p tasks docs ids name file task board doc card above below before
    after text') :
    ∃ first last first' last', doc.cards.map Boards.BoardCard.row = first ++ card.row :: last ∧
      first ++ last = first' ++ last' ∧
      rowsOf .start (splitlines text') =
        ((Place.start.after before).rows card.cardText).map fun row => first' ++ (row ++ last') := by
  obtain ⟨hold, hnew, hrest⟩ := h.moves
  obtain ⟨_, _, _, _, _, _, _, _, hdoc, _⟩ :=
    split_boards h.clean.boards p.boards_nodup h.board_mem
  have hrows := hdoc.rows
  rw [hold] at hrows
  obtain ⟨first, last, hsplit, herased⟩ := Boards.rowsOf_erase h.parses h.place hrows
  rw [← hrest] at herased
  obtain ⟨first', last', hsame, hinserted⟩ := Boards.rowsOf_insert h.parses herased
  refine ⟨first, last, first', last', hsplit, hsame, ?_⟩
  rw [hnew, hinserted]

/-- The links of the project afterwards are those before. -/
theorem link_moved {tasks' : List Task} (hfile : p.files.get name = some file)
    (hids : tasks'.map Task.id = tasks.map Task.id) (b : String) (text : Text) (note : Text) :
    (((p.moved name file' b text).index tasks').get note).map Task.id =
      ((p.index tasks).get note).map Task.id :=
  link_indexOf (fun _ => rfl) (names_put hfile) hids note

theorem rowId_moved {tasks' : List Task} (hfile : p.files.get name = some file)
    (hids : tasks'.map Task.id = tasks.map Task.id) (b : String) (text : Text) :
    rowId ((p.moved name file' b text).index tasks') = rowId (p.index tasks) := by
  funext row
  unfold rowId cardId
  rw [link_moved hfile hids]

theorem rowReads_moved {tasks' : List Task} (hfile : p.files.get name = some file)
    (hids : tasks'.map Task.id = tasks.map Task.id) {b : String} {text : Text}
    {row : String × Row} :
    RowReads p.mappings ((p.moved name file' b text).index tasks') row ↔
      RowReads p.mappings (p.index tasks) row := by
  have hlink := congrArg Option.isSome
    (@link_moved p tasks name file file' tasks' hfile hids b text row.2.note)
  rw [Option.isSome_map, Option.isSome_map] at hlink
  exact ⟨fun h => ⟨hlink.symm.trans h.link, h.mapped⟩, fun h => ⟨hlink.trans h.link, h.mapped⟩⟩

/-- The card of an id stands where its row does. -/
theorem lookup_card (loaded : Loaded) (id : Text) :
    (loaded.cardsById.lookup id).map Card.row = loaded.placed.lookup id := by
  unfold Loaded.placed
  induction loaded.cardsById with
  | nil => rfl
  | cons e rest ih =>
      rw [List.map_cons, List.lookup_cons, List.lookup_cons]
      split
      next => rfl
      next => exact ih

/-- A row of a clean project is that of the card of its id. -/
theorem Clean.lookup_placed (h : Clean py p tasks docs ids) {row : String × Row}
    (hrow : row ∈ allRows p.boards docs) :
    (p.loadedOf tasks docs ids).placed.lookup (rowId (p.index tasks) row) = some row := by
  have hids := (cardReads_iff.mp h.cards).2
  have hnodup := h.ids_nodup
  rw [hids] at hnodup
  rw [h.placed]
  have hall : ∀ rows : List (String × Row), (rows.map (rowId (p.index tasks))).Nodup →
      row ∈ rows → (rows.map fun row => (rowId (p.index tasks) row, row)).lookup
        (rowId (p.index tasks) row) = some row := by
    intro rows hnodup hmem
    induction rows with
    | nil => cases hmem
    | cons first rows ih =>
        obtain ⟨hnot, hnodup⟩ := List.nodup_cons.mp hnodup
        rw [List.map_cons]
        rcases List.mem_cons.mp hmem with rfl | hmem
        · exact List.lookup_cons_self
        · have hne : rowId (p.index tasks) row ≠ rowId (p.index tasks) first := fun heq =>
            hnot (List.mem_map.mpr ⟨row, hmem, heq⟩)
          rw [List.lookup_cons, beq_false_of_ne hne]
          exact ih hnodup hmem
  exact hall _ hnodup hrow

/-- Rows of one board among those of all boards. -/
theorem rows_around (hdocs : List.Forall₂ BoardReads p.boards docs)
    (hmem : (board, doc) ∈ p.boards.zip docs) (name : Text) (file' : ReadText) (text' : Text) :
    ∃ front back, allRows p.boards docs =
        front ++ ((doc.cards.map Boards.BoardCard.row).map (Prod.mk board.name) ++ back) ∧
      (∀ doc', BoardReads { board with file := .text text' } doc' → ∃ docs',
        List.Forall₂ BoardReads (p.moved name file' board.name text').boards docs' ∧
        allRows (p.moved name file' board.name text').boards docs' =
          front ++ ((doc'.cards.map Boards.BoardCard.row).map (Prod.mk board.name) ++ back)) ∧
      ∀ docs', List.Forall₂ BoardReads (p.moved name file' board.name text').boards docs' →
        ∃ doc', BoardReads { board with file := .text text' } doc' ∧
          allRows (p.moved name file' board.name text').boards docs' =
            front ++ ((doc'.cards.map Boards.BoardCard.row).map (Prod.mk board.name) ++ back) := by
  obtain ⟨front, back, frontDocs, backDocs, hboards, rfl, hfront, hback, hdoc, hothers⟩ :=
    split_boards hdocs p.boards_nodup hmem
  have hrows : ∀ (b : Board) (d : BoardDocument), allRows (front ++ b :: back)
      (frontDocs ++ d :: backDocs) = allRows front frontDocs ++
        ((d.cards.map Boards.BoardCard.row).map (Prod.mk b.name) ++ allRows back backDocs) := by
    intro b d
    rw [allRows_append hfront.length_eq, allRows_cons]
  refine ⟨allRows front frontDocs, allRows back backDocs, ?_, ?_, ?_⟩
  · rw [hboards, hrows]
  · intro doc' hdoc'
    refine ⟨frontDocs ++ doc' :: backDocs, ?_, ?_⟩
    · rw [boards_moved hboards hothers]
      exact List.rel_append hfront (.cons hdoc' hback)
    · rw [boards_moved hboards hothers, hrows]
  · intro docs' hdocs'
    rw [boards_moved hboards hothers] at hdocs' ⊢
    obtain ⟨frontDocs', rest, rfl, hfront', hrest⟩ := forall₂_append_left hdocs'
    cases hrest with
    | @cons _ doc' _ backDocs' hdoc' hback' =>
        rw [← docs_unique hfront hfront', ← docs_unique hback hback', hrows]
        exact ⟨doc', hdoc', rfl⟩

/-- A row is put in among the rows of a board: it is read in the column of its
place, or it is not read. -/
theorem rows_inserted (hdocs : List.Forall₂ BoardReads p.boards docs)
    (hmem : (board, doc) ∈ p.boards.zip docs) (name : Text) (file' : ReadText)
    {line note : Text} (hparse : parseTaskRow line = some note) {first last : List Row}
    (hnew : rowsOf .start (splitlines text') =
      ((Place.start.after before).rows line).map fun row => first ++ (row ++ last)) :
    ∃ front back, allRows p.boards docs =
        front ++ ((doc.cards.map Boards.BoardCard.row).map (Prod.mk board.name) ++ back) ∧
      (∀ column, Place.start.after before = ⟨.outside, some column⟩ → ∃ docs',
        List.Forall₂ BoardReads (p.moved name file' board.name text').boards docs' ∧
        allRows (p.moved name file' board.name text').boards docs' =
          front ++ first.map (Prod.mk board.name) ++
            (board.name, ⟨column, note, line⟩) :: (last.map (Prod.mk board.name) ++ back)) ∧
      ∀ docs', List.Forall₂ BoardReads (p.moved name file' board.name text').boards docs' →
        (∃ column, Place.start.after before = ⟨.outside, some column⟩ ∧
          allRows (p.moved name file' board.name text').boards docs' =
            front ++ first.map (Prod.mk board.name) ++
              (board.name, ⟨column, note, line⟩) :: (last.map (Prod.mk board.name) ++ back)) ∨
        allRows (p.moved name file' board.name text').boards docs' =
          front ++ first.map (Prod.mk board.name) ++ (last.map (Prod.mk board.name) ++ back) := by
  obtain ⟨front, back, hall, hread, hunread⟩ := rows_around hdocs hmem name file' text'
  refine ⟨front, back, hall, ?_, ?_⟩
  · intro column hplace
    rw [Place.rows_row hparse, hplace, if_pos rfl] at hnew
    obtain ⟨doc', hdoc', hrows'⟩ := @exists_boardReads { board with file := .text text' } _ _ rfl hnew
    obtain ⟨docs', hdocs', hall'⟩ := hread doc' hdoc'
    refine ⟨docs', hdocs', ?_⟩
    rw [hall', hrows']
    simp only [List.map_append, List.map_cons, List.append_assoc, List.cons_append,
      List.nil_append]
  · intro docs' hdocs'
    obtain ⟨doc', hdoc', hall'⟩ := hunread docs' hdocs'
    rw [rows_of_boardReads hdoc' rfl, Place.rows_row hparse] at hnew
    cases hplace : Place.start.after before with
    | mk mode column =>
        rw [hplace] at hnew
        by_cases hmode : mode = .outside
        · rw [if_pos hmode] at hnew
          cases column with
          | none => cases hnew
          | some column =>
              left
              refine ⟨column, by rw [hmode], ?_⟩
              rw [hall', Option.some.inj hnew]
              simp only [List.map_append, List.map_cons, List.append_assoc,
                List.cons_append, List.nil_append]
        · rw [if_neg hmode] at hnew
          right
          have hnew : doc'.cards.map Boards.BoardCard.row = first ++ last := Option.some.inj hnew
          rw [hall', hnew]
          simp only [List.map_append, List.append_assoc]

/-- The row of the card in another column. -/
def rowIn (board : Board) (card : Boards.BoardCard) (column : Text) : String × Row :=
  (board.name, ⟨column, card.taskNote, card.cardText⟩)

/-- All rows before, without the one that is moved, are those before and behind
the place where it is put in. -/
theorem Move.around (h : Move py p tasks docs ids name file task board doc card above below before
    after text') :
    ∃ front back front' back', allRows p.boards docs =
        front ++ (board.name, card.row) :: back ∧ front ++ back = front' ++ back' ∧
      (∀ column, Place.start.after before = ⟨.outside, some column⟩ → ∃ docs',
        List.Forall₂ BoardReads (p.moved name file' board.name text').boards docs' ∧
        allRows (p.moved name file' board.name text').boards docs' =
          front' ++ rowIn board card column :: back') ∧
      ∀ docs', List.Forall₂ BoardReads (p.moved name file' board.name text').boards docs' →
        (∃ column, Place.start.after before = ⟨.outside, some column⟩ ∧
          allRows (p.moved name file' board.name text').boards docs' =
            front' ++ rowIn board card column :: back') ∨
        allRows (p.moved name file' board.name text').boards docs' = front ++ back := by
  obtain ⟨first, last, first', last', hrows, hsame, hnew⟩ := h.rows
  obtain ⟨front, back, hall, hread, hunread⟩ :=
    rows_inserted h.clean.boards h.board_mem name file' h.parses hnew
  rw [hrows, List.map_append, List.map_cons] at hall
  have hboth : front ++ first.map (Prod.mk board.name) ++ (last.map (Prod.mk board.name) ++ back) =
      front ++ first'.map (Prod.mk board.name) ++ (last'.map (Prod.mk board.name) ++ back) := by
    have heq := congrArg (fun rows => front ++ (rows.map (Prod.mk board.name) ++ back)) hsame
    simp only [List.map_append, List.append_assoc] at heq ⊢
    exact heq
  refine ⟨_, _, _, _, ?_, hboth, hread, ?_⟩
  · rw [hall]
    simp only [List.append_assoc, List.cons_append]
  · rw [hboth]
    exact hunread

theorem Move.ids_replaced (h : Move py p tasks docs ids name file task board doc card above below
    before after text') (hid : task'.id = task.id) :
    (replaced p.files.entries tasks name task').map Task.id = tasks.map Task.id := by
  refine Obsidian.ids_replaced h.clean.notes.length_eq fun e he heq => ?_
  rw [h.clean.eq_of_name he h.entry heq, hid]

/-- Where the project is loaded again: the note is read with its id, and the
row stands in no block, in a column that is mapped. -/
theorem Move.loads (h : Move py p tasks docs ids name file task board doc card above below before
    after text') {column : Text} (hread : ReadsAs py p (name, file') task')
    (hid : task'.id = task.id) (hplace : Place.start.after before = ⟨.outside, some column⟩)
    (hmapped : (stateForBoardColumn p.mappings board.name column).isSome = true) :
    ∃ docs' ids', Clean py (p.moved name file' board.name text')
        (replaced p.files.entries tasks name task') docs' ids' ∧
      ((p.moved name file' board.name text').loadedOf
          (replaced p.files.entries tasks name task') docs' ids').placed.filter
          (fun e => e.1 ≠ task.id) =
        (p.loadedOf tasks docs ids).placed.filter (fun e => e.1 ≠ task.id) ∧
      ((p.moved name file' board.name text').loadedOf
          (replaced p.files.entries tasks name task') docs' ids').placed.lookup task.id =
        some (rowIn board card column) := by
  obtain ⟨front, back, front', back', hall, hsame, hplaced, -⟩ := @Move.around py p tasks docs ids
    name file file' task board doc card above below before after text' h
  obtain ⟨docs', hdocs', hall'⟩ := hplaced column hplace
  have hids := h.ids_replaced hid
  have hcards := cardReads_iff.mp h.clean.cards
  have hreads : ∀ row ∈ front' ++ rowIn board card column :: back',
      RowReads p.mappings (p.index tasks) row := by
    have hold : ∀ row ∈ front ++ (board.name, card.row) :: back,
        RowReads p.mappings (p.index tasks) row := by
      intro row hrow
      refine hcards.1 row ?_
      show row ∈ allRows p.boards docs
      rw [hall]
      exact hrow
    intro row hrow
    rw [List.mem_append, List.mem_cons] at hrow
    have hother : row ∈ front' ++ back' → RowReads p.mappings (p.index tasks) row := by
      intro hmem
      rw [← hsame, List.mem_append] at hmem
      exact hold row (by
        rw [List.mem_append, List.mem_cons]
        tauto)
    rcases hrow with hrow | rfl | hrow
    · exact hother (List.mem_append_left _ hrow)
    · exact ⟨(hold (board.name, card.row) (by simp)).link, hmapped⟩
    · exact hother (List.mem_append_right _ hrow)
  have hperm : List.Perm ((allRows (p.moved name file' board.name text').boards docs').map
      (rowId (p.index tasks))) ids := by
    rw [hcards.2, hall']
    show List.Perm _ ((allRows p.boards docs).map _)
    rw [hall, List.map_append, List.map_append, List.map_cons, List.map_cons]
    refine List.perm_middle.trans (List.Perm.trans ?_ List.perm_middle.symm)
    rw [← List.map_append, ← List.map_append, hsame]
    rfl
  have hclean : Clean py (p.moved name file' board.name text')
      (replaced p.files.entries tasks name task') docs'
      ((allRows (p.moved name file' board.name text').boards docs').map
        (rowId (p.index tasks))) := by
    refine ⟨h.clean.rootIsDir, ?_, hids.symm ▸ h.clean.tasks_nodup, hdocs',
      cardReads_iff.mpr ⟨?_, ?_⟩, hperm.nodup_iff.mpr h.clean.ids_nodup, ?_⟩
    · show List.Forall₂ _ (p.files.put name file').entries _
      rw [entries_put h.get]
      exact (reads_replaced h.clean.notes hread).imp fun e t ht => ⟨ht.read, ht.structured⟩
    · intro row hrow
      have hrow : row ∈ allRows (p.moved name file' board.name text').boards docs' := hrow
      rw [hall'] at hrow
      exact (rowReads_moved h.get hids).mpr (hreads row hrow)
    · rw [rowId_moved h.get hids]
      rfl
    · intro t ht
      have hmem : t.id ∈ tasks.map Task.id := hids ▸ List.mem_map.mpr ⟨t, ht, rfl⟩
      obtain ⟨old, hold, hsameId⟩ := List.mem_map.mp hmem
      rw [← hsameId]
      exact hperm.mem_iff.mpr (h.clean.covered old hold)
  have hrowId : rowId (p.index tasks) (board.name, card.row) = task.id := h.card_id
  have hrowIn : rowId (p.index tasks) (rowIn board card column) = task.id := h.card_id
  refine ⟨docs', _, hclean, ?_, ?_⟩
  · rw [hclean.placed, h.clean.placed, rowId_moved h.get hids, hall', hall]
    have hfilter : ∀ (l m : List (String × Row)) (row : String × Row),
        rowId (p.index tasks) row = task.id →
        ((l ++ row :: m).map fun row => (rowId (p.index tasks) row, row)).filter
            (fun e => e.1 ≠ task.id) =
          ((l ++ m).map fun row => (rowId (p.index tasks) row, row)).filter
            fun e => e.1 ≠ task.id := by
      intro l m row hrow
      rw [List.map_append, List.map_cons, List.filter_append, List.filter_cons_of_neg (by simp [hrow]),
        ← List.filter_append, ← List.map_append]
    rw [hfilter front' back' _ hrowIn, hfilter front back _ hrowId, hsame]
  · have hmem : rowIn board card column ∈
        allRows (p.moved name file' board.name text').boards docs' := by
      rw [hall']
      simp
    have hlookup := hclean.lookup_placed hmem
    rw [rowId_moved h.get hids, hrowIn] at hlookup
    exact hlookup

/-- The project is loaded again and knows the task only where its note is read
with its id and its row is read below a heading that is mapped. -/
theorem Move.of_loads (h : Move py p tasks docs ids name file task board doc card above below before
    after text') {tasks' : List Task} {docs' : List BoardDocument} {ids' : List Text}
    (hclean : Clean py (p.moved name file' board.name text') tasks' docs' ids')
    (hknown : task.id ∈ tasks'.map Task.id) :
    ∃ task' column, ReadsAs py p (name, file') task' ∧ task'.id = task.id ∧
      Place.start.after before = ⟨.outside, some column⟩ ∧
      (stateForBoardColumn p.mappings board.name column).isSome = true := by
  have hentries : (p.moved name file' board.name text').files.entries =
      p.files.entries.map fun e => if e.1 = name then (name, file') else e := entries_put h.get
  have hnotes := hclean.notes
  rw [hentries] at hnotes
  have hreads : List.Forall₂ (ReadsAs py p)
      (p.files.entries.map fun e => if e.1 = name then (name, file') else e) tasks' :=
    hnotes.imp fun e t ht => ⟨ht.read, ht.structured⟩
  -- the note that was written is read
  obtain ⟨task', hread⟩ : ∃ task', ReadsAs py p (name, file') task' := by
    have hmem : (name, file') ∈
        p.files.entries.map fun e => if e.1 = name then (name, file') else e :=
      List.mem_map.mpr ⟨(name, file), (List.of_mem_zip h.entry).1, if_pos rfl⟩
    obtain ⟨k, hk, hget⟩ := List.getElem_of_mem hmem
    have hat := hreads.get hk (hreads.length_eq ▸ hk)
    rw [List.get_eq_getElem, hget] at hat
    exact ⟨_, hat⟩
  have htasks := reads_unique hreads (reads_replaced h.clean.notes hread)
  -- and it is the one with the id
  have hid : task'.id = task.id := by
    obtain ⟨t, ht, hsame⟩ := List.mem_map.mp hknown
    rw [htasks] at ht
    obtain ⟨e, he, heq⟩ := List.mem_map.mp ht
    by_cases hname : e.1.1 = name
    · rw [if_pos hname] at heq
      rw [heq]
      exact hsame
    · rw [if_neg hname] at heq
      rw [← heq] at hsame
      have hentry := h.clean.eq_of_id he h.entry hsame
      exact absurd (congrArg (fun e => e.1.1) hentry) hname
  have hids : tasks'.map Task.id = tasks.map Task.id := by
    rw [htasks]
    exact h.ids_replaced hid
  obtain ⟨front, back, front', back', hall, hsame, -, hunread⟩ := @Move.around py p tasks docs ids
    name file file' task board doc card above below before after text' h
  rcases hunread docs' hclean.boards with ⟨column, hplace, hall'⟩ | hall'
  · refine ⟨task', column, hread, hid, hplace, ?_⟩
    have hrow : rowIn board card column ∈
        allRows (p.moved name file' board.name text').boards docs' := by
      rw [hall']
      simp
    exact ((cardReads_iff.mp hclean.cards).1 _ hrow).mapped
  · exfalso
    -- the row is in a block, so no card stands for the task
    have hcovered : task.id ∈ ids' := by
      obtain ⟨t, ht, hsame⟩ := List.mem_map.mp hknown
      exact hsame ▸ hclean.covered t ht
    have hids' := (cardReads_iff.mp hclean.cards).2
    rw [rowId_moved h.get hids] at hids'
    have hids' : ids' = (allRows (p.moved name file' board.name text').boards docs').map
      (rowId (p.index tasks)) := hids'
    rw [hids', hall'] at hcovered
    have hnodup := h.clean.ids_nodup
    rw [(cardReads_iff.mp h.clean.cards).2] at hnodup
    have hnodup : ((allRows p.boards docs).map (rowId (p.index tasks))).Nodup := hnodup
    rw [hall, List.map_append, List.map_cons] at hnodup
    have hrowId : rowId (p.index tasks) (board.name, card.row) = task.id := h.card_id
    rw [hrowId] at hnodup
    refine (List.nodup_cons.mp (List.perm_middle.nodup_iff.mp hnodup)).1 ?_
    rw [← List.map_append]
    exact hcovered

end OpenTulid.Obsidian
