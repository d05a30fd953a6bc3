/-
A project to which one note and one row are added.

# Links

The stem of the new note is that of no other, so every old link keeps its task
(`index_insert`) and the new row stands for the new one.

# Loading again

The project is loaded again, and knows the new task, if and only if the new
note is read with its id and the row stands in no block, below a heading that
is mapped (`Adds.loads` and `Adds.of_loads`).
-/
import OpenTulid.Proofs.MoveTask

namespace OpenTulid.Obsidian

open Boards (ReadText BoardDocument Place Row rowsOf parseTaskRow)
open Frozen.Prompt (Text splitlines)

variable {py : Python} {p : Project} {tasks : List Task} {docs : List BoardDocument}
  {ids : List Text}

-- =================================================================== links

theorem indexOf_append {index : Store Text Task} {front back : List (Text × ReadText)}
    {tasks more : List Task} (h : front.length = tasks.length) :
    indexOf index (front ++ back) (tasks ++ more) =
      indexOf (indexOf index front tasks) back more := by
  unfold indexOf
  rw [List.zip_append h, List.foldl_append]

/-- A stem asks the index for this stem only. -/
theorem indexOf_congr {index index' : Store Text Task} {entries : List (Text × ReadText)}
    {tasks : List Task} {stem : Text} (h : index.get stem = index'.get stem) :
    (indexOf index entries tasks).get stem = (indexOf index' entries tasks).get stem := by
  induction entries generalizing index index' tasks with
  | nil => exact h
  | cons entry entries ih =>
      cases tasks with
      | nil => exact h
      | cons task tasks =>
          refine @ih (index.put (stemOf entry.1) task) (index'.put (stemOf entry.1) task) tasks ?_
          rw [Store.get_put, Store.get_put, h]

/-- Notes of other stems do not count. -/
theorem indexOf_of_ne {index : Store Text Task} {entries : List (Text × ReadText)}
    {tasks : List Task} {stem : Text} (h : ∀ entry ∈ entries, stemOf entry.1 ≠ stem) :
    (indexOf index entries tasks).get stem = index.get stem := by
  induction entries generalizing index tasks with
  | nil => rfl
  | cons entry entries ih =>
      cases tasks with
      | nil => rfl
      | cons task tasks =>
          refine (@ih (index.put (stemOf entry.1) task) tasks
            fun entry hentry => h entry (.tail _ hentry)).trans ?_
          rw [Store.get_put, if_neg (Ne.symm (h entry (.head _)))]

/-- The index of notes among which one is new. -/
theorem index_insert {index : Store Text Task} {front back : List (Text × ReadText)}
    {tasks more : List Task} {name : Text} {file : ReadText} {task : Task}
    (hlength : front.length = tasks.length)
    (hfresh : ∀ entry ∈ front ++ back, stemOf entry.1 ≠ stemOf name) (stem : Text) :
    (indexOf index (front ++ (name, file) :: back) (tasks ++ task :: more)).get stem =
      if stem = stemOf name then some task
      else (indexOf index (front ++ back) (tasks ++ more)).get stem := by
  rw [indexOf_append hlength, indexOf_append hlength]
  show (indexOf ((indexOf index front tasks).put (stemOf name) task) back more).get stem = _
  split
  next heq =>
    rw [indexOf_of_ne fun entry hentry => heq ▸ hfresh entry (List.mem_append_right _ hentry),
      heq, Store.get_put_self]
  next hne => exact indexOf_congr (Store.get_put_of_ne hne)

-- ================================================================ what is added

/-- A new note, and a row with its stem that is put in behind `before`. -/
structure Adds (py : Python) (p : Project) (tasks : List Task) (docs : List BoardDocument)
    (ids : List Text) (name : Text) (board : Board) (doc : BoardDocument) (line : Text)
    (before after : List Text) (text' : Text) : Prop where
  clean : Clean py p tasks docs ids
  fresh : ∀ entry ∈ p.files.entries, stemOf entry.1 ≠ stemOf name
  board_mem : (board, doc) ∈ p.boards.zip docs
  parses : parseTaskRow line = some (stemOf name)
  old : doc.lines = before ++ after
  new : splitlines text' = before ++ line :: after

variable {name line : Text} {file' : ReadText} {task' : Task} {board : Board} {doc : BoardDocument}
  {before after : List Text} {text' : Text}

theorem Adds.absent (h : Adds py p tasks docs ids name board doc line before after text') :
    p.files.get name = none := by
  cases hget : p.files.get name with
  | none => rfl
  | some file => exact absurd rfl (h.fresh _ (Store.mem_entries.mpr hget))

/-- The new note stands among the others. -/
theorem Adds.entries (h : Adds py p tasks docs ids name board doc line before after text')
    (file' : ReadText) :
    ∃ front back fronts backs, p.files.entries = front ++ back ∧ tasks = fronts ++ backs ∧
      front.length = fronts.length ∧
      (p.moved name file' board.name text').files.entries = front ++ (name, file') :: back ∧
      List.Forall₂ (ReadsAs py p) front fronts ∧ List.Forall₂ (ReadsAs py p) back backs := by
  obtain ⟨front, back, hentries, hput⟩ := Store.exists_putEntry_of_none h.absent file'
  have hnotes := h.clean.notes
  rw [hentries] at hnotes
  obtain ⟨fronts, backs, htasks, hfront, hback⟩ := forall₂_append_left hnotes
  exact ⟨front, back, fronts, backs, hentries, htasks, hfront.length_eq, hput, hfront, hback⟩

/-- The notes with the new one, and their tasks. -/
structure Among (p p' : Project) (tasks tasks' : List Task) (name : Text) (file' : ReadText)
    (task' : Task) : Prop where
  zips : ∃ front back, p.files.entries.zip tasks = front ++ back ∧
    p'.files.entries.zip tasks' = front ++ ((name, file'), task') :: back
  ids : ∃ front back, tasks = front ++ back ∧ tasks' = front ++ task' :: back
  index : ∀ stem, (p'.index tasks').get stem =
    if stem = stemOf name then some task' else (p.index tasks).get stem

/-- What the notes are read as, with the new one. -/
theorem Adds.reads (h : Adds py p tasks docs ids name board doc line before after text')
    (hread : ReadsAs py p (name, file') task') :
    ∃ tasks', List.Forall₂ (ReadsAs py p)
        (p.moved name file' board.name text').files.entries tasks' ∧
      Among p (p.moved name file' board.name text') tasks tasks' name file' task' := by
  obtain ⟨front, back, fronts, backs, hentries, rfl, hlength, hput, hfront, hback⟩ :=
    h.entries file'
  refine ⟨fronts ++ task' :: backs, ?_, ⟨?_, ⟨fronts, backs, rfl, rfl⟩, ?_⟩⟩
  · rw [hput]
    exact List.rel_append hfront (.cons hread hback)
  · refine ⟨front.zip fronts, back.zip backs, ?_, ?_⟩
    · rw [hentries, List.zip_append hlength]
    · rw [hput, List.zip_append hlength, List.zip_cons_cons]
  · intro stem
    have hfresh := h.fresh
    unfold Project.index
    rw [hput]
    rw [hentries] at hfresh ⊢
    exact index_insert hlength hfresh stem

/-- The rows of the boards, with the new one. -/
theorem Adds.around (h : Adds py p tasks docs ids name board doc line before after text')
    (file' : ReadText) :
    ∃ front back, allRows p.boards docs = front ++ back ∧
      (∀ column, Place.start.after before = ⟨.outside, some column⟩ → ∃ docs',
        List.Forall₂ BoardReads (p.moved name file' board.name text').boards docs' ∧
        allRows (p.moved name file' board.name text').boards docs' =
          front ++ (board.name, ⟨column, stemOf name, line⟩) :: back) ∧
      ∀ docs', List.Forall₂ BoardReads (p.moved name file' board.name text').boards docs' →
        (∃ column, Place.start.after before = ⟨.outside, some column⟩ ∧
          allRows (p.moved name file' board.name text').boards docs' =
            front ++ (board.name, ⟨column, stemOf name, line⟩) :: back) ∨
        allRows (p.moved name file' board.name text').boards docs' = front ++ back := by
  obtain ⟨_, _, _, _, _, _, _, _, hdoc, _⟩ :=
    split_boards h.clean.boards p.boards_nodup h.board_mem
  have hrows := hdoc.rows
  rw [h.old] at hrows
  obtain ⟨first, last, hsplit, hinserted⟩ := Boards.rowsOf_insert h.parses hrows
  rw [← h.new] at hinserted
  obtain ⟨front, back, hall, hread, hunread⟩ :=
    rows_inserted h.clean.boards h.board_mem name file' h.parses hinserted
  rw [hsplit, List.map_append] at hall
  refine ⟨_, _, ?_, hread, hunread⟩
  rw [hall]
  simp only [List.append_assoc]

/-- Old rows stand for the tasks they stood for. -/
theorem Adds.rowId_old (h : Adds py p tasks docs ids name board doc line before after text')
    {tasks' : List Task}
    (hamong : Among p (p.moved name file' board.name text') tasks tasks' name file' task')
    {row : String × Row} (hrow : row ∈ allRows p.boards docs) :
    ((p.moved name file' board.name text').index tasks').get row.2.note =
        (p.index tasks).get row.2.note ∧
      rowId ((p.moved name file' board.name text').index tasks') row =
        rowId (p.index tasks) row ∧
      rowId (p.index tasks) row ∈ tasks.map Task.id := by
  have hlink := ((cardReads_iff.mp h.clean.cards).1 row hrow).link
  obtain ⟨task, htask⟩ := Option.isSome_iff_exists.mp hlink
  have hentry := mem_of_indexOf htask
  have hsame : ((p.moved name file' board.name text').index tasks').get row.2.note =
      (p.index tasks).get row.2.note := by
    rw [hamong.index, if_neg]
    intro heq
    rcases hentry with hempty | ⟨entry, hentry, hstem⟩
    · cases hempty
    · exact h.fresh entry (List.of_mem_zip hentry).1 (hstem.trans heq)
  refine ⟨hsame, ?_, ?_⟩
  · unfold rowId cardId
    rw [hsame]
  · unfold rowId cardId
    rw [htask]
    rcases hentry with hempty | ⟨entry, hentry, -⟩
    · cases hempty
    · exact List.mem_map.mpr ⟨task, (List.of_mem_zip hentry).2, rfl⟩

theorem Among.rowId_new {p' : Project} {tasks' : List Task}
    (h : Among p p' tasks tasks' name file' task') (board : String) (column line : Text) :
    rowId (p'.index tasks') (board, ⟨column, stemOf name, line⟩) = task'.id := by
  unfold rowId cardId
  rw [h.index, if_pos rfl]
  rfl

theorem Among.perm {p' : Project} {tasks' : List Task}
    (h : Among p p' tasks tasks' name file' task') : tasks'.Perm (task' :: tasks) := by
  obtain ⟨front, back, rfl, rfl⟩ := h.ids
  exact List.perm_middle

-- ================================================================ loading again

/-- Where the project is loaded again: the new note is read with a new id, and
the row stands in no block, in a column that is mapped. -/
theorem Adds.loads (h : Adds py p tasks docs ids name board doc line before after text')
    {column : Text} (hread : ReadsAs py p (name, file') task')
    (hnew : task'.id ∉ tasks.map Task.id)
    (hplace : Place.start.after before = ⟨.outside, some column⟩)
    (hmapped : (stateForBoardColumn p.mappings board.name column).isSome = true) :
    ∃ tasks' docs' ids',
      Clean py (p.moved name file' board.name text') tasks' docs' ids' ∧
      Among p (p.moved name file' board.name text') tasks tasks' name file' task' ∧
      ((p.moved name file' board.name text').loadedOf tasks' docs' ids').placed.filter
          (fun e => e.1 ≠ task'.id) = (p.loadedOf tasks docs ids).placed ∧
      ((p.moved name file' board.name text').loadedOf tasks' docs' ids').placed.lookup task'.id =
        some (board.name, ⟨column, stemOf name, line⟩) := by
  obtain ⟨tasks', hreads, hamong⟩ := h.reads hread
  obtain ⟨front, back, hall, hplaced, -⟩ := h.around file'
  obtain ⟨docs', hdocs', hall'⟩ := hplaced column hplace
  have hcards := cardReads_iff.mp h.clean.cards
  -- the rows before, with the ids they stood for
  have hold : ∀ rows : List (String × Row), (∀ row ∈ rows, row ∈ allRows p.boards docs) →
      rows.map (rowId ((p.moved name file' board.name text').index tasks')) =
        rows.map (rowId (p.index tasks)) := by
    intro rows hrows
    exact List.map_congr_left fun row hrow => (h.rowId_old hamong (hrows row hrow)).2.1
  have hids : (allRows (p.moved name file' board.name text').boards docs').map
      (rowId ((p.moved name file' board.name text').index tasks')) =
      front.map (rowId (p.index tasks)) ++ task'.id :: back.map (rowId (p.index tasks)) := by
    rw [hall', List.map_append, List.map_cons, hamong.rowId_new,
      hold front fun row hrow => by rw [hall]; exact List.mem_append_left _ hrow,
      hold back fun row hrow => by rw [hall]; exact List.mem_append_right _ hrow]
  have hidsOld : ids = front.map (rowId (p.index tasks)) ++ back.map (rowId (p.index tasks)) := by
    rw [← List.map_append, ← hall]
    exact hcards.2
  have hnotId : task'.id ∉ ids := by
    intro hmem
    rw [hcards.2] at hmem
    obtain ⟨row, hrow, heq⟩ := List.mem_map.mp hmem
    exact hnew (heq ▸ (h.rowId_old hamong hrow).2.2)
  have hclean : Clean py (p.moved name file' board.name text') tasks' docs'
      ((allRows (p.moved name file' board.name text').boards docs').map
        (rowId ((p.moved name file' board.name text').index tasks'))) := by
    refine ⟨h.clean.rootIsDir, ?_, ?_, hdocs', cardReads_iff.mpr ⟨?_, rfl⟩, ?_, ?_⟩
    · exact hreads.imp fun e t ht => ⟨ht.read, ht.structured⟩
    · rw [(hamong.perm.map Task.id).nodup_iff, List.map_cons]
      exact List.nodup_cons.mpr ⟨hnew, h.clean.tasks_nodup⟩
    · intro row hrow
      have hrow : row ∈ allRows (p.moved name file' board.name text').boards docs' := hrow
      have hother : row ∈ front ++ back → RowReads p.mappings
          ((p.moved name file' board.name text').index tasks') row := by
        intro hmem
        rw [← hall] at hmem
        have hreads := hcards.1 row hmem
        refine ⟨?_, hreads.mapped⟩
        rw [(h.rowId_old hamong hmem).1]
        exact hreads.link
      rw [hall', List.mem_append, List.mem_cons] at hrow
      rcases hrow with hrow | rfl | hrow
      · exact hother (List.mem_append_left _ hrow)
      · refine ⟨?_, hmapped⟩
        rw [hamong.index, if_pos rfl]
        rfl
      · exact hother (List.mem_append_right _ hrow)
    · rw [hids, List.perm_middle.nodup_iff, List.nodup_cons, ← hidsOld]
      exact ⟨hnotId, h.clean.ids_nodup⟩
    · intro t ht
      rw [hids, List.perm_middle.mem_iff, List.mem_cons, ← hidsOld]
      rcases List.mem_cons.mp (hamong.perm.mem_iff.mp ht) with rfl | ht
      · exact .inl rfl
      · exact .inr (h.clean.covered t ht)
  refine ⟨tasks', docs', _, hclean, hamong, ?_, ?_⟩
  · rw [hclean.placed, h.clean.placed, hall', hall]
    have hpairs : ∀ rows : List (String × Row), (∀ row ∈ rows, row ∈ allRows p.boards docs) →
        (rows.map fun row => (rowId ((p.moved name file' board.name text').index tasks') row,
          row)).filter (fun e => e.1 ≠ task'.id) =
        rows.map fun row => (rowId (p.index tasks) row, row) := by
      intro rows hrows
      rw [List.filter_eq_self.mpr]
      · exact List.map_congr_left fun row hrow => by rw [(h.rowId_old hamong (hrows row hrow)).2.1]
      · intro e he
        obtain ⟨row, hrow, rfl⟩ := List.mem_map.mp he
        obtain ⟨-, hid, hmem⟩ := h.rowId_old hamong (hrows row hrow)
        refine decide_eq_true fun heq => hnew ?_
        rw [← heq, hid]
        exact hmem
    rw [List.map_append, List.map_cons, List.filter_append, List.filter_cons_of_neg
        (by simp [hamong.rowId_new]),
      hpairs front fun row hrow => by rw [hall]; exact List.mem_append_left _ hrow,
      hpairs back fun row hrow => by rw [hall]; exact List.mem_append_right _ hrow,
      ← List.map_append]
  · have hmem : (board.name, (⟨column, stemOf name, line⟩ : Row)) ∈
        allRows (p.moved name file' board.name text').boards docs' := by
      rw [hall']
      simp
    have hlookup := hclean.lookup_placed hmem
    rw [hamong.rowId_new] at hlookup
    exact hlookup

/-- The project is loaded again and knows a new id only where the new note is
read with it and the row is read below a heading that is mapped. -/
theorem Adds.of_loads (h : Adds py p tasks docs ids name board doc line before after text')
    {tasks' : List Task} {docs' : List BoardDocument} {ids' : List Text} {id : Text}
    (hclean : Clean py (p.moved name file' board.name text') tasks' docs' ids')
    (hnew : id ∉ tasks.map Task.id) (hknown : id ∈ tasks'.map Task.id) :
    ∃ task' column, ReadsAs py p (name, file') task' ∧ task'.id = id ∧
      Place.start.after before = ⟨.outside, some column⟩ ∧
      (stateForBoardColumn p.mappings board.name column).isSome = true := by
  -- the new note is read
  obtain ⟨task', hread⟩ : ∃ task', ReadsAs py p (name, file') task' := by
    have hmem : (name, file') ∈ (p.moved name file' board.name text').files.entries :=
      Store.mem_entries.mpr Store.get_put_self
    obtain ⟨k, hk, hget⟩ := List.getElem_of_mem hmem
    have hat := hclean.notes.get hk (hclean.notes.length_eq ▸ hk)
    rw [List.get_eq_getElem, hget] at hat
    exact ⟨_, hat.read, hat.structured⟩
  obtain ⟨others, hreads, hamong⟩ := h.reads hread
  have hsame : tasks' = others :=
    reads_unique (hclean.notes.imp fun e t ht => ⟨ht.read, ht.structured⟩) hreads
  rw [← hsame] at hamong
  -- and it is the one with the id
  have hid : task'.id = id := by
    obtain ⟨t, ht, heq⟩ := List.mem_map.mp hknown
    rcases List.mem_cons.mp (hamong.perm.mem_iff.mp ht) with rfl | ht
    · exact heq
    · exact absurd (List.mem_map.mpr ⟨t, ht, heq⟩) hnew
  obtain ⟨front, back, hall, -, hunread⟩ := h.around file'
  rcases hunread docs' hclean.boards with ⟨column, hplace, hall'⟩ | hall'
  · refine ⟨task', column, hread, hid, hplace, ?_⟩
    have hrow : (board.name, (⟨column, stemOf name, line⟩ : Row)) ∈
        allRows (p.moved name file' board.name text').boards docs' := by
      rw [hall']
      simp
    exact ((cardReads_iff.mp hclean.cards).1 _ hrow).mapped
  · exfalso
    -- the row is in a block, so no card stands for the task
    have hcovered : id ∈ ids' := by
      obtain ⟨t, ht, heq⟩ := List.mem_map.mp hknown
      exact heq ▸ hclean.covered t ht
    rw [(cardReads_iff.mp hclean.cards).2] at hcovered
    obtain ⟨row, hrow, heq⟩ := List.mem_map.mp hcovered
    have hrow : row ∈ allRows (p.moved name file' board.name text').boards docs' := hrow
    rw [hall', ← hall] at hrow
    obtain ⟨-, hrowId, hmem⟩ := h.rowId_old hamong hrow
    rw [← heq, hrowId] at hnew
    exact hnew hmem

/-- Every other task is as it was. -/
theorem Adds.others (h : Adds py p tasks docs ids name board doc line before after text')
    {tasks' : List Task} {docs' : List BoardDocument} {ids' : List Text}
    (hclean : Clean py (p.moved name file' board.name text') tasks' docs' ids')
    (hamong : Among p (p.moved name file' board.name text') tasks tasks' name file' task')
    (hfilter : ((p.moved name file' board.name text').loadedOf tasks' docs' ids').placed.filter
        (fun e => e.1 ≠ task'.id) = (p.loadedOf tasks docs ids).placed)
    {other : Text} (hother : other ≠ task'.id) :
    (((p.moved name file' board.name text').loadedOf tasks' docs' ids').tasks
        p.mappings).lookup other =
      ((p.loadedOf tasks docs ids).tasks p.mappings).lookup other := by
  obtain ⟨front, back, hzip, hzip'⟩ := hamong.zips
  refine h.clean.lookup_other hclean (fun e he => ?_) ?_ _
  · rw [hzip, hzip', List.mem_append, List.mem_append, List.mem_cons]
    have hne : e ≠ ((name, file'), task') := by
      rintro rfl
      exact hother he.symm
    tauto
  · rw [← lookup_filter_of_ne hother, hfilter]

end OpenTulid.Obsidian
