/-
What loading a project without errors gives.

# Clean projects

Errors are only added, so a load without errors took the good branch in every
round. `Clean` says what all the rounds together found: a task for every note,
with ids that differ, a document for every board, and for every card the task
it stands for, each task once and none without a card. `load_clean_iff` turns
the two loops into this statement, and `Clean.load` says what they leave
behind.

# Links

A card names a note by its stem. `resolve` is the id behind a stem; it depends
on the stems and the ids alone, so rewriting a note that keeps its id leaves
every card with its task.
-/
import OpenTulid.Lib.Fallible
import OpenTulid.Proofs.BoardLines

namespace OpenTulid.Obsidian

open Boards (ReadText BoardDocument)
open Frozen.Prompt (Text)

variable {py : Python} {p : Project}

-- =================================================================== notes

/-- The task of an entry, read without an error. -/
structure ReadsAs (py : Python) (p : Project) (entry : Text × ReadText) (task : Task) : Prop where
  read : readTaskFile py p.domainPath (p.note entry.1 entry.2) = some (.ok task)
  structured : Derived.validateTaskStructure task.body (p.taskPath entry.1) false = []

/-- The tasks by the stems of their notes. -/
def indexOf (index : Store Text Task) (entries : List (Text × ReadText)) (tasks : List Task) :
    Store Text Task :=
  (entries.zip tasks).foldl (fun index e => index.put (stemOf e.1.1) e.2) index

/-- The names of the notes by their ids. -/
def idNames (entries : List (Text × ReadText)) (tasks : List Task) : List (Text × Text) :=
  (entries.zip tasks).map fun e => (e.2.id, e.1.1)

theorem lookup_eq_none_iff {α β : Type} [BEq α] [LawfulBEq α] {l : List (α × β)} {a : α} :
    l.lookup a = none ↔ a ∉ l.map Prod.fst := by
  rw [List.lookup_eq_none_iff, List.mem_map]
  constructor
  · rintro h ⟨e, he, rfl⟩
    exact absurd (h e he) (by simp)
  · intro h e he
    exact bne_iff_ne.mpr fun heq => h ⟨e, he, heq.symm⟩

/-- A round over the notes without an error. -/
theorem loadNote_clean_iff {loaded loaded' : Loaded} {entry : Text × ReadText} :
    loadNote py p loaded entry = some loaded' ∧ loaded'.errors = [] ↔
      loaded.errors = [] ∧ ∃ task, ReadsAs py p entry task ∧
        task.id ∉ loaded.namesById.map Prod.fst ∧
        loaded' = { loaded with
          tasksByNote := loaded.tasksByNote.put (stemOf entry.1) task
          namesById := loaded.namesById ++ [(task.id, entry.1)] } := by
  unfold loadNote
  dsimp only
  constructor
  · rintro ⟨h, herrors⟩
    obtain ⟨result, hread, hloaded⟩ := Option.map_eq_some_iff.mp h
    cases result with
    | error e =>
        rw [← hloaded] at herrors
        exact absurd herrors (by simp)
    | ok task =>
        dsimp only at hloaded
        cases hlookup : loaded.namesById.lookup task.id with
        | some existing =>
            rw [hlookup] at hloaded
            rw [← hloaded] at herrors
            exact absurd herrors (by simp)
        | none =>
            rw [hlookup] at hloaded
            rw [← hloaded] at herrors
            obtain ⟨hnone, hstructure⟩ := List.append_eq_nil_iff.mp herrors
            refine ⟨hnone, task, ⟨hread, hstructure⟩, lookup_eq_none_iff.mp hlookup, ?_⟩
            have herrs : loaded.errors ++ Derived.validateTaskStructure task.body
                (p.note entry.1 entry.2).path false = loaded.errors := by
              rw [hstructure, List.append_nil]
            rw [← hloaded]
            dsimp only
            rw [herrs]
            rfl
  · rintro ⟨hnone, task, ⟨hread, hstructure⟩, hnew, rfl⟩
    have herrs : loaded.errors ++ Derived.validateTaskStructure task.body
        (p.note entry.1 entry.2).path false = loaded.errors := by
      rw [show (p.note entry.1 entry.2).path = p.taskPath entry.1 from rfl, hstructure,
        List.append_nil]
    rw [hread]
    refine ⟨?_, hnone⟩
    rw [Option.map_some]
    dsimp only
    rw [lookup_eq_none_iff.mpr hnew, herrs]
    rfl

/-- The loop over the notes without an error. -/
theorem loadNotes_clean_iff {loaded loaded' : Loaded} {entries : List (Text × ReadText)} :
    entries.foldlM (loadNote py p) loaded = some loaded' ∧ loaded'.errors = [] ↔
      loaded.errors = [] ∧ ∃ tasks, List.Forall₂ (ReadsAs py p) entries tasks ∧
        (tasks.map Task.id).Nodup ∧
        (∀ task ∈ tasks, task.id ∉ loaded.namesById.map Prod.fst) ∧
        loaded' = { loaded with
          tasksByNote := indexOf loaded.tasksByNote entries tasks
          namesById := loaded.namesById ++ idNames entries tasks } := by
  induction entries generalizing loaded with
  | nil =>
      rw [List.foldlM_nil]
      constructor
      · rintro ⟨h, herrors⟩
        cases h
        exact ⟨herrors, [], .nil, .nil, nofun, by simp [indexOf, idNames]⟩
      · rintro ⟨herrors, tasks, htasks, -, -, rfl⟩
        cases htasks
        exact ⟨by simp [indexOf, idNames], herrors⟩
  | cons entry entries ih =>
      rw [List.foldlM_cons]
      constructor
      · rintro ⟨h, herrors⟩
        obtain ⟨next, hnext, hrest⟩ := Option.bind_eq_some_iff.mp h
        obtain ⟨hnone, tasks, htasks, hnodup, hnew, rfl⟩ := ih.mp ⟨hrest, herrors⟩
        obtain ⟨hfirst, task, htask, hnewTask, rfl⟩ := loadNote_clean_iff.mp ⟨hnext, hnone⟩
        refine ⟨hfirst, task :: tasks, .cons htask htasks, ?_, ?_, ?_⟩
        · refine List.nodup_cons.mpr ⟨fun hmem => ?_, hnodup⟩
          obtain ⟨other, hother, heq⟩ := List.mem_map.mp hmem
          refine hnew other hother ?_
          rw [heq]
          simp
        · intro other hother
          rcases List.mem_cons.mp hother with rfl | hother
          · exact hnewTask
          · intro hmem
            refine hnew other hother ?_
            rw [List.map_append, List.mem_append]
            exact .inl hmem
        · simp [indexOf, idNames]
      · rintro ⟨hnone, tasks, htasks, hnodup, hnew, rfl⟩
        cases htasks with
        | @cons _ task _ tasks htask htasks =>
            obtain ⟨hnotMem, hnodup⟩ := List.nodup_cons.mp hnodup
            have hnext := loadNote_clean_iff.mpr ⟨hnone, task, htask, hnew task (.head _), rfl⟩
            rw [hnext.1]
            refine (ih.mpr ⟨hnext.2, tasks, htasks, hnodup, ?_, ?_⟩)
            · intro other hother hmem
              rw [List.map_append, List.mem_append] at hmem
              rcases hmem with hmem | hmem
              · exact hnew other (.tail _ hother) hmem
              · have heq : other.id = task.id := List.mem_singleton.mp hmem
                exact hnotMem (heq ▸ List.mem_map.mpr ⟨other, hother, rfl⟩)
            · simp [indexOf, idNames]

-- =================================================================== cards

/-- The id that a card stands for, in a column that is mapped. -/
structure CardReads (mappings : List StateMapping) (index : Store Text Task) (card : Card)
    (id : Text) : Prop where
  link : (index.get card.taskNote).map Task.id = some id
  mapped : (stateForBoardColumn mappings card.board card.column).isSome = true

/-- The cards of a board. -/
def boardCards (board : Board) (cards : List Boards.BoardCard) : List Card :=
  cards.map fun card => ⟨card, board.name, board.path⟩

/-- The cards of the boards. -/
def allCards (boards : List Board) (docs : List BoardDocument) : List Card :=
  (boards.zip docs).flatMap fun e => boardCards e.1 e.2.cards

variable {mappings : List StateMapping}

/-- A round over the cards. -/
theorem loadCard_eq {board : Board} {loaded : Loaded} {card : Boards.BoardCard} {id : Text}
    (h : CardReads mappings loaded.tasksByNote ⟨card, board.name, board.path⟩ id)
    (hnew : id ∉ loaded.cardsById.map Prod.fst) :
    loadCard py mappings board loaded card = { loaded with
      cardSeen := id :: loaded.cardSeen
      cardsById := loaded.cardsById ++ [(id, ⟨card, board.name, board.path⟩)] } := by
  obtain ⟨hlink, hmapped⟩ := h
  obtain ⟨task, htask, rfl⟩ := Option.map_eq_some_iff.mp hlink
  obtain ⟨state, hstate⟩ := Option.isSome_iff_exists.mp hmapped
  dsimp only at htask hstate
  unfold loadCard
  rw [htask]
  dsimp only
  rw [hstate]
  dsimp only
  rw [lookup_eq_none_iff.mpr hnew]

/-- A round over the cards without an error. -/
theorem reads_of_loadCard {board : Board} {loaded : Loaded} {card : Boards.BoardCard}
    (herrors : (loadCard py mappings board loaded card).errors = []) :
    loaded.errors = [] ∧ ∃ id,
      CardReads mappings loaded.tasksByNote ⟨card, board.name, board.path⟩ id ∧
      id ∉ loaded.cardsById.map Prod.fst := by
  unfold loadCard Loaded.report at herrors
  cases hlink : loaded.tasksByNote.get card.taskNote with
  | none =>
      rw [hlink] at herrors
      exact absurd herrors (by simp)
  | some task =>
      rw [hlink] at herrors
      dsimp only at herrors
      cases hstate : stateForBoardColumn mappings board.name card.column with
      | none =>
          rw [hstate] at herrors
          exact absurd herrors (by simp)
      | some state =>
          rw [hstate] at herrors
          dsimp only at herrors
          cases hlookup : loaded.cardsById.lookup task.id with
          | some other =>
              rw [hlookup] at herrors
              exact absurd herrors (by simp)
          | none =>
              rw [hlookup] at herrors
              refine ⟨herrors, task.id, ⟨?_, ?_⟩, lookup_eq_none_iff.mp hlookup⟩
              · show (loaded.tasksByNote.get card.taskNote).map Task.id = _
                rw [hlink]
                rfl
              · show (stateForBoardColumn mappings board.name card.column).isSome = true
                rw [hstate]
                rfl

/-- None of the ids has a card yet. -/
def Loaded.New (loaded : Loaded) (ids : List Text) : Prop :=
  ids.Nodup ∧ ∀ id ∈ ids, id ∉ loaded.cardsById.map Prod.fst

theorem Loaded.new_cons {loaded loaded' : Loaded} {id : Text} {ids : List Text} {card : Card}
    (hcards : loaded'.cardsById = loaded.cardsById ++ [(id, card)]) :
    loaded.New (id :: ids) ↔ id ∉ loaded.cardsById.map Prod.fst ∧ loaded'.New ids := by
  unfold Loaded.New
  rw [hcards, List.map_append, List.nodup_cons]
  constructor
  · rintro ⟨⟨hnot, hnodup⟩, hnew⟩
    refine ⟨hnew id (.head _), hnodup, fun other hother hmem => ?_⟩
    rcases List.mem_append.mp hmem with hmem | hmem
    · exact hnew other (.tail _ hother) hmem
    · have heq : other = id := List.mem_singleton.mp hmem
      exact hnot (heq ▸ hother)
  · rintro ⟨hfirst, hnodup, hnew⟩
    refine ⟨⟨fun hmem => hnew id hmem (by simp), hnodup⟩, fun other hother => ?_⟩
    rcases List.mem_cons.mp hother with rfl | hother
    · exact hfirst
    · exact fun hmem => hnew other hother (List.mem_append_left _ hmem)

/-- The loop over the cards of a board. -/
theorem loadCards_eq {board : Board} {loaded : Loaded} {cards : List Boards.BoardCard} {ids : List Text}
    (hids : List.Forall₂ (CardReads mappings loaded.tasksByNote) (boardCards board cards) ids)
    (hnew : loaded.New ids) :
    cards.foldl (loadCard py mappings board) loaded = { loaded with
      cardSeen := ids.reverse ++ loaded.cardSeen
      cardsById := loaded.cardsById ++ ids.zip (boardCards board cards) } := by
  induction cards generalizing loaded ids with
  | nil =>
      cases hids
      simp [boardCards]
  | cons card cards ih =>
      cases hids with
      | @cons _ id _ ids hid hids =>
          have hstep := @loadCard_eq py _ _ _ _ _ hid (hnew.2 id (.head _))
          have hlater := (@Loaded.new_cons loaded { loaded with
              cardSeen := id :: loaded.cardSeen
              cardsById := loaded.cardsById ++ [(id, ⟨card, board.name, board.path⟩)] }
            _ _ _ rfl).mp hnew
          rw [List.foldl_cons, hstep]
          refine (ih ?_ hlater.2).trans ?_
          · exact hids
          · simp [boardCards]

/-- The loop over the cards of a board without an error. -/
theorem reads_of_loadCards {board : Board} {loaded : Loaded} {cards : List Boards.BoardCard}
    (herrors : (cards.foldl (loadCard py mappings board) loaded).errors = []) :
    loaded.errors = [] ∧ ∃ ids,
      List.Forall₂ (CardReads mappings loaded.tasksByNote) (boardCards board cards) ids ∧
      loaded.New ids := by
  induction cards generalizing loaded with
  | nil => exact ⟨herrors, [], .nil, .nil, nofun⟩
  | cons card cards ih =>
      rw [List.foldl_cons] at herrors
      obtain ⟨hnext, ids, hids, hnew⟩ := ih herrors
      obtain ⟨hfirst, id, hid, hnewId⟩ := reads_of_loadCard hnext
      rw [loadCard_eq hid hnewId] at hids hnew
      exact ⟨hfirst, id :: ids, .cons hid hids, (Loaded.new_cons rfl).mpr ⟨hnewId, hnew⟩⟩

-- ================================================================== boards

/-- The document of a board. -/
def BoardReads (board : Board) (doc : BoardDocument) : Prop :=
  Boards.readBoard board.name board.path board.file = .ok doc

theorem Loaded.new_append {loaded loaded' : Loaded} {ids more : List Text} {cards : List Card}
    (hlength : ids.length = cards.length)
    (hcards : loaded'.cardsById = loaded.cardsById ++ ids.zip cards) :
    loaded.New (ids ++ more) ↔ loaded.New ids ∧ loaded'.New more := by
  have hfst : (ids.zip cards).map Prod.fst = ids := List.map_fst_zip (le_of_eq hlength)
  unfold Loaded.New
  rw [hcards, List.map_append, hfst, List.nodup_append']
  constructor
  · rintro ⟨⟨hids, hmore, hdisjoint⟩, hnew⟩
    refine ⟨⟨hids, fun id hid => hnew id (List.mem_append_left _ hid)⟩, hmore, ?_⟩
    intro id hid hmem
    rcases List.mem_append.mp hmem with hmem | hmem
    · exact hnew id (List.mem_append_right _ hid) hmem
    · exact hdisjoint hmem hid
  · rintro ⟨⟨hids, hnew⟩, hmore, hnewMore⟩
    refine ⟨⟨hids, hmore, fun id hid hid' => ?_⟩, fun id hid => ?_⟩
    · exact hnewMore id hid' (List.mem_append_right _ hid)
    · rcases List.mem_append.mp hid with hid | hid
      · exact hnew id hid
      · exact fun hmem => hnewMore id hid (List.mem_append_left _ hmem)

theorem allCards_cons (board : Board) (boards : List Board) (doc : BoardDocument)
    (docs : List BoardDocument) :
    allCards (board :: boards) (doc :: docs) =
      boardCards board doc.cards ++ allCards boards docs := by
  unfold allCards
  rw [List.zip_cons_cons, List.flatMap_cons]

/-- What two lists in a row are related to. -/
theorem forall₂_append_left {α β : Type} {R : α → β → Prop} {as more : List α} {l : List β}
    (h : List.Forall₂ R (as ++ more) l) :
    ∃ bs rest, l = bs ++ rest ∧ List.Forall₂ R as bs ∧ List.Forall₂ R more rest := by
  refine ⟨l.take as.length, l.drop as.length, (List.take_append_drop _ _).symm, ?_, ?_⟩
  · have htake := List.forall₂_take as.length h
    rwa [List.take_left] at htake
  · have hdrop := List.forall₂_drop as.length h
    rwa [List.drop_left] at hdrop

/-- The loop over the boards. -/
theorem loadBoards_eq {loaded : Loaded} {boards : List Board} {docs : List BoardDocument}
    {ids : List Text} (hdocs : List.Forall₂ BoardReads boards docs)
    (hids : List.Forall₂ (CardReads mappings loaded.tasksByNote) (allCards boards docs) ids)
    (hnew : loaded.New ids) :
    boards.foldl (loadBoard py mappings) loaded = { loaded with
      boardsByName := loaded.boardsByName ++ (boards.map Board.name).zip docs
      cardSeen := ids.reverse ++ loaded.cardSeen
      cardsById := loaded.cardsById ++ ids.zip (allCards boards docs) } := by
  induction hdocs generalizing loaded ids with
  | nil =>
      cases hids
      simp [allCards]
  | @cons board doc boards docs hdoc hdocs ih =>
      rw [allCards_cons] at hids
      obtain ⟨ids', more, rfl, hfirst, hrest⟩ := forall₂_append_left hids
      obtain ⟨hnewFirst, hnewRest⟩ := (@Loaded.new_append loaded
        { loaded with
          boardsByName := loaded.boardsByName ++ [(board.name, doc)]
          cardSeen := ids'.reverse ++ loaded.cardSeen
          cardsById := loaded.cardsById ++ ids'.zip (boardCards board doc.cards) }
        _ _ _ hfirst.length_eq.symm rfl).mp hnew
      rw [List.foldl_cons]
      have hstep : loadBoard py mappings loaded board = { loaded with
          boardsByName := loaded.boardsByName ++ [(board.name, doc)]
          cardSeen := ids'.reverse ++ loaded.cardSeen
          cardsById := loaded.cardsById ++ ids'.zip (boardCards board doc.cards) } := by
        unfold loadBoard
        rw [hdoc]
        dsimp only
        refine loadCards_eq ?_ ?_
        · exact hfirst
        · exact hnewFirst
      rw [hstep]
      refine (ih ?_ hnewRest).trans ?_
      · exact hrest
      · rw [allCards_cons, List.zip_append hfirst.length_eq.symm]
        simp

/-- The loop over the boards without an error. -/
theorem reads_of_loadBoards {loaded : Loaded} {boards : List Board}
    (herrors : (boards.foldl (loadBoard py mappings) loaded).errors = []) :
    loaded.errors = [] ∧ ∃ docs ids, List.Forall₂ BoardReads boards docs ∧
      List.Forall₂ (CardReads mappings loaded.tasksByNote) (allCards boards docs) ids ∧
      loaded.New ids := by
  induction boards generalizing loaded with
  | nil => exact ⟨herrors, [], [], .nil, .nil, .nil, nofun⟩
  | cons board boards ih =>
      rw [List.foldl_cons] at herrors
      obtain ⟨hnext, docs, ids, hdocs, hids, hnew⟩ := ih herrors
      unfold loadBoard at hnext hids hnew
      cases hread : Boards.readBoard board.name board.path board.file with
      | error e =>
          rw [hread] at hnext
          exact absurd hnext (by simp [Loaded.report])
      | ok doc =>
          rw [hread] at hnext hids hnew
          dsimp only at hnext hids hnew
          obtain ⟨hfirst, ids', hids', hnew'⟩ := reads_of_loadCards hnext
          rw [loadCards_eq hids' hnew'] at hids hnew
          refine ⟨hfirst, doc :: docs, ids' ++ ids, .cons hread hdocs, ?_, ?_⟩
          · rw [allCards_cons]
            exact List.rel_append hids' hids
          · exact (Loaded.new_append hids'.length_eq.symm rfl).mpr ⟨hnew', hnew⟩

-- ================================================================= project

/-- The tasks by the stems of all notes. -/
def Project.index (p : Project) (tasks : List Task) : Store Text Task :=
  indexOf ∅ p.files.entries tasks

/-- What a load without errors found: the tasks of the notes, the documents of
the boards and the ids that the cards stand for. -/
structure Clean (py : Python) (p : Project) (tasks : List Task) (docs : List BoardDocument)
    (ids : List Text) : Prop where
  rootIsDir : p.rootIsDir = true
  notes : List.Forall₂ (ReadsAs py p) p.files.entries tasks
  tasks_nodup : (tasks.map Task.id).Nodup
  boards : List.Forall₂ BoardReads p.boards docs
  cards : List.Forall₂ (CardReads p.mappings (p.index tasks)) (allCards p.boards docs) ids
  ids_nodup : ids.Nodup
  covered : ∀ task ∈ tasks, task.id ∈ ids

/-- What is left behind. -/
def Project.loadedOf (p : Project) (tasks : List Task) (docs : List BoardDocument)
    (ids : List Text) : Loaded where
  errors := []
  tasksByNote := p.index tasks
  namesById := idNames p.files.entries tasks
  boardsByName := (p.boards.map Board.name).zip docs
  cardSeen := ids.reverse
  cardsById := ids.zip (allCards p.boards docs)

variable {tasks : List Task} {docs : List BoardDocument} {ids : List Text}

theorem map_fst_idNames {entries : List (Text × ReadText)} {tasks : List Task}
    (h : entries.length = tasks.length) :
    (idNames entries tasks).map Prod.fst = tasks.map Task.id := by
  have hsnd : ((entries.zip tasks).map Prod.snd).map Task.id = tasks.map Task.id := by
    rw [List.map_snd_zip (le_of_eq h.symm)]
  rw [← hsnd, idNames, List.map_map, List.map_map]
  rfl

/-- The project after the loop over the notes. -/
theorem notes_loaded (p : Project) (tasks : List Task) :
    { ({} : Loaded) with
      tasksByNote := indexOf ({} : Loaded).tasksByNote p.files.entries tasks
      namesById := ({} : Loaded).namesById ++ idNames p.files.entries tasks } =
      ({ tasksByNote := p.index tasks, namesById := idNames p.files.entries tasks } : Loaded) :=
  rfl

theorem Clean.new (h : Clean py p tasks docs ids) (loaded : Loaded)
    (hcards : loaded.cardsById = []) : loaded.New ids :=
  ⟨h.ids_nodup, fun id _ hmem => by rw [hcards] at hmem; cases hmem⟩

/-- What a clean load gives. -/
theorem Clean.load (h : Clean py p tasks docs ids) :
    load py p = some (p.loadedOf tasks docs ids) := by
  have hnotes := (@loadNotes_clean_iff py p {} _ _).mpr
    ⟨rfl, tasks, h.notes, h.tasks_nodup, nofun, rfl⟩
  rw [notes_loaded] at hnotes
  have hboards := @loadBoards_eq py p.mappings
    { tasksByNote := p.index tasks, namesById := idNames p.files.entries tasks } _ _ _
    h.boards h.cards (h.new _ rfl)
  unfold Obsidian.load
  rw [if_pos h.rootIsDir, hnotes.1]
  show some _ = _
  rw [hboards]
  have hnames := @map_fst_idNames p.files.entries tasks h.notes.length_eq
  have hmissing : ((idNames p.files.entries tasks).map Prod.fst).filter
      (fun id => decide (id ∉ ids.reverse ++ [])) = [] := by
    rw [hnames, List.filter_eq_nil_iff]
    intro id hid
    obtain ⟨task, htask, rfl⟩ := List.mem_map.mp hid
    simpa using h.covered task htask
  dsimp only
  rw [hmissing]
  simp [Project.loadedOf]

/-- A load without errors is clean. -/
theorem clean_of_load {loaded : Loaded} (h : load py p = some loaded)
    (herrors : loaded.errors = []) :
    ∃ tasks docs ids, Clean py p tasks docs ids ∧ loaded = p.loadedOf tasks docs ids := by
  have hload := h
  unfold Obsidian.load at h
  split at h
  next hroot =>
    obtain ⟨read, hread, h⟩ := Option.bind_eq_some_iff.mp h
    have heq := Option.some.inj h
    rw [← heq] at herrors
    obtain ⟨hboards, hmissing⟩ := List.append_eq_nil_iff.mp herrors
    obtain ⟨hnone, docs, ids, hdocs, hids, hnew⟩ := reads_of_loadBoards hboards
    obtain ⟨-, tasks, htasks, hnodup, -, hnotes⟩ := loadNotes_clean_iff.mp ⟨hread, hnone⟩
    rw [notes_loaded] at hnotes
    rw [hnotes] at hids hnew hmissing
    have hclean : Clean py p tasks docs ids := by
      refine ⟨hroot, htasks, hnodup, hdocs, hids, hnew.1, ?_⟩
      intro task htask
      rw [loadBoards_eq hdocs hids hnew] at hmissing
      have hfilter := List.filter_eq_nil_iff.mp (List.map_eq_nil_iff.mp hmissing)
      have hmem : task.id ∈ (idNames p.files.entries tasks).map Prod.fst := by
        rw [map_fst_idNames htasks.length_eq]
        exact List.mem_map.mpr ⟨task, htask, rfl⟩
      simpa using hfilter task.id hmem
    refine ⟨tasks, docs, ids, hclean, ?_⟩
    rw [hclean.load] at hload
    exact (Option.some.inj hload).symm
  next =>
    rw [← Option.some.inj h] at herrors
    exact absurd herrors (by simp [Loaded.report])

-- =================================================================== links

/-- The id that a link stands for. -/
def cardId (index : Store Text Task) (note : Text) : Text :=
  ((index.get note).map Task.id).getD []

theorem CardReads.cardId {index : Store Text Task} {card : Card} {id : Text}
    (h : CardReads mappings index card id) : cardId index card.taskNote = id := by
  unfold Obsidian.cardId
  rw [h.link]
  rfl

/-- Cards with the ids that they stand for. -/
theorem zip_cards {index : Store Text Task} {cards : List Card} {ids : List Text}
    (h : List.Forall₂ (CardReads mappings index) cards ids) :
    ids.zip cards = cards.map fun card => (cardId index card.taskNote, card) := by
  induction h with
  | nil => rfl
  | cons hcard _ ih => rw [List.zip_cons_cons, List.map_cons, ih, hcard.cardId]

theorem Clean.cardsById (h : Clean py p tasks docs ids) :
    (p.loadedOf tasks docs ids).cardsById =
      (allCards p.boards docs).map fun card => (cardId (p.index tasks) card.taskNote, card) :=
  zip_cards h.cards

/-- Links depend on the names of the notes and on their ids. -/
theorem link_indexOf {index index' : Store Text Task} {entries entries' : List (Text × ReadText)}
    {tasks tasks' : List Task}
    (hindex : ∀ stem, (index.get stem).map Task.id = (index'.get stem).map Task.id)
    (hnames : entries.map Prod.fst = entries'.map Prod.fst)
    (hids : tasks.map Task.id = tasks'.map Task.id) (stem : Text) :
    ((indexOf index entries tasks).get stem).map Task.id =
      ((indexOf index' entries' tasks').get stem).map Task.id := by
  induction entries generalizing index index' entries' tasks tasks' with
  | nil =>
      rw [List.map_nil, eq_comm, List.map_eq_nil_iff] at hnames
      rw [hnames]
      exact hindex stem
  | cons entry entries ih =>
      cases entries' with
      | nil => cases hnames
      | cons entry' entries' =>
          cases tasks with
          | nil =>
              rw [List.map_nil, eq_comm, List.map_eq_nil_iff] at hids
              rw [hids]
              exact hindex stem
          | cons task tasks =>
              cases tasks' with
              | nil => cases hids
              | cons task' tasks' =>
                  rw [List.map_cons, List.map_cons] at hnames hids
                  obtain ⟨hname, hnames⟩ := List.cons.inj hnames
                  obtain ⟨hid, hids⟩ := List.cons.inj hids
                  show ((indexOf (index.put (stemOf entry.1) task) entries tasks).get stem).map Task.id =
                    ((indexOf (index'.put (stemOf entry'.1) task') entries' tasks').get stem).map
                      Task.id
                  refine ih ?_ hnames hids
                  intro other
                  rw [Store.get_put, Store.get_put, hname]
                  split
                  next => exact congrArg some hid
                  next => exact hindex other

/-- What a stem stands for is the task of a note with this stem. -/
theorem mem_of_indexOf {index : Store Text Task} {entries : List (Text × ReadText)}
    {tasks : List Task} {stem : Text} {task : Task}
    (h : (indexOf index entries tasks).get stem = some task) :
    index.get stem = some task ∨
      ∃ entry, (entry, task) ∈ entries.zip tasks ∧ stemOf entry.1 = stem := by
  induction entries generalizing index tasks with
  | nil => exact .inl h
  | cons entry entries ih =>
      cases tasks with
      | nil => exact .inl h
      | cons first tasks =>
          have h : (indexOf (index.put (stemOf entry.1) first) entries tasks).get stem = some task := h
          rcases ih h with hput | ⟨other, hother, hstem⟩
          · rw [Store.get_put] at hput
            split at hput
            next heq =>
              cases hput
              exact .inr ⟨entry, .head _, heq.symm⟩
            next => exact .inl hput
          · exact .inr ⟨other, .tail _ hother, hstem⟩

theorem Clean.map_ids (h : Clean py p tasks docs ids) :
    (p.files.entries.zip tasks).map (fun e => e.2.id) = tasks.map Task.id := by
  rw [show (fun e : (Text × ReadText) × Task => e.2.id) = Task.id ∘ Prod.snd from rfl,
    ← List.map_map, List.map_snd_zip (le_of_eq h.notes.length_eq.symm)]

/-- Notes with one id are one note. -/
theorem Clean.eq_of_id (h : Clean py p tasks docs ids) {e e' : (Text × ReadText) × Task}
    (he : e ∈ p.files.entries.zip tasks) (he' : e' ∈ p.files.entries.zip tasks)
    (hid : e.2.id = e'.2.id) : e = e' := by
  have hnodup := h.tasks_nodup
  rw [← h.map_ids] at hnodup
  exact List.inj_on_of_nodup_map hnodup he he' hid

/-- Notes with one name are one note. -/
theorem Clean.eq_of_name (h : Clean py p tasks docs ids) {e e' : (Text × ReadText) × Task}
    (he : e ∈ p.files.entries.zip tasks) (he' : e' ∈ p.files.entries.zip tasks)
    (hname : e.1.1 = e'.1.1) : e = e' := by
  have hkeys : (p.files.entries.zip tasks).map (fun e => e.1.1) =
      p.files.entries.map Prod.fst := by
    rw [show (fun e : (Text × ReadText) × Task => e.1.1) = Prod.fst ∘ Prod.fst from rfl,
      ← List.map_map, List.map_fst_zip (le_of_eq h.notes.length_eq)]
  have hnodup : (p.files.entries.map Prod.fst).Nodup :=
    List.pairwise_map.mpr (p.files.sorted.imp ne_of_lt)
  rw [← hkeys] at hnodup
  exact List.inj_on_of_nodup_map hnodup he he' hname

/-- A stem of a clean project stands for the task of its note. -/
theorem Clean.index_get (h : Clean py p tasks docs ids) {entry : Text × ReadText} {task : Task}
    (hmem : (entry, task) ∈ p.files.entries.zip tasks) :
    (p.index tasks).get (stemOf entry.1) = some task := by
  have hid := h.covered task (List.of_mem_zip hmem).2
  obtain ⟨k, hk, hget⟩ := List.getElem_of_mem hid
  have hkcards : k < (allCards p.boards docs).length := by
    rw [h.cards.length_eq]
    exact hk
  have hcard := h.cards.get hkcards hk
  rw [List.get_eq_getElem, List.get_eq_getElem, hget] at hcard
  obtain ⟨other, hother, hsame⟩ := Option.map_eq_some_iff.mp hcard.link
  rcases mem_of_indexOf hother with hempty | ⟨entry', hentry', hstem⟩
  · cases hempty
  · cases h.eq_of_id hmem hentry' hsame.symm
    rw [hstem]
    exact hother

/-- The task of a note, in the state of its card. -/
def Loaded.shown (loaded : Loaded) (m : List StateMapping) (entry : Text × Text) :
    Option (Text × Task) :=
  (loaded.tasksByNote.get (stemOf entry.2)).map fun task =>
    (entry.1, { task with currentState := stateForTaskId m loaded entry.1 task.currentState })

/-- The task that a clean project has under an id. -/
theorem Clean.lookup_task (h : Clean py p tasks docs ids) {entry : Text × ReadText} {task : Task}
    (hmem : (entry, task) ∈ p.files.entries.zip tasks) (m : List StateMapping) :
    ((p.loadedOf tasks docs ids).tasks m).lookup task.id = some { task with
      currentState := stateForTaskId m (p.loadedOf tasks docs ids) task.id task.currentState } := by
  have hall : ∀ (l : List ((Text × ReadText) × Task)), (l.map fun e => e.2.id).Nodup →
      (∀ e ∈ l, (p.index tasks).get (stemOf e.1.1) = some e.2) →
      ∀ {e : (Text × ReadText) × Task}, e ∈ l →
        ((l.map fun e => (e.2.id, e.1.1)).filterMap
          ((p.loadedOf tasks docs ids).shown m)).lookup e.2.id =
        some { e.2 with
          currentState := stateForTaskId m (p.loadedOf tasks docs ids) e.2.id e.2.currentState } := by
    intro l hnodup hget e he
    induction l with
    | nil => cases he
    | cons first l ih =>
        obtain ⟨hnot, hnodup⟩ := List.nodup_cons.mp hnodup
        have hfirst : (p.loadedOf tasks docs ids).tasksByNote.get (stemOf first.1.1) = some first.2 :=
          hget first (.head _)
        rw [List.map_cons, List.filterMap_cons]
        unfold Loaded.shown
        dsimp only
        rw [hfirst]
        dsimp only [Option.map_some]
        rcases List.mem_cons.mp he with rfl | he
        · exact List.lookup_cons_self
        · have hne : e.2.id ≠ first.2.id := fun heq =>
            hnot (List.mem_map.mpr ⟨e, he, heq⟩)
          rw [List.lookup_cons, beq_false_of_ne hne]
          exact ih hnodup (fun e he => hget e (.tail _ he)) he
  refine hall _ ?_ (fun e he => h.index_get he) hmem
  rw [h.map_ids]
  exact h.tasks_nodup

/-- An id that is found is that of a note. -/
theorem mem_of_lookup_task {m : List StateMapping} {id : Text} {task : Task}
    (hlookup : ((p.loadedOf tasks docs ids).tasks m).lookup id = some task) :
    ∃ e ∈ p.files.entries.zip tasks, e.2.id = id := by
  unfold Loaded.tasks at hlookup
  obtain ⟨l₁, l₂, heq, -⟩ := List.lookup_eq_some_iff.mp hlookup
  have hmem : (id, task) ∈ l₁ ++ (id, task) :: l₂ := by simp
  rw [← heq] at hmem
  obtain ⟨named, hnamed, hget⟩ := List.mem_filterMap.mp hmem
  obtain ⟨_, -, hpair⟩ := Option.map_eq_some_iff.mp hget
  obtain ⟨e, he, rfl⟩ := List.mem_map.mp hnamed
  exact ⟨e, he, congrArg Prod.fst hpair⟩

-- ================================================================ documents

/-- What reading a board found. -/
theorem BoardReads.text {board : Board} {doc : BoardDocument} (h : BoardReads board doc) :
    ∃ text, board.file = .text text ∧ doc.lines = Frozen.Prompt.splitlines text ∧
      Boards.cardsOf none (Boards.visible .outside 0 doc.lines) = some doc.cards := by
  unfold BoardReads at h
  cases hfile : board.file with
  | text text =>
      rw [hfile] at h
      have hreads := Boards.readBoard_reads board.name board.path text
      have hlines : doc.lines = Frozen.Prompt.splitlines text := by
        unfold Boards.readBoard at h
        obtain ⟨s, -, hdoc⟩ := Fallible.bind_eq_ok.mp h
        cases hdoc
        rfl
      refine ⟨text, rfl, hlines, ?_⟩
      rw [hlines]
      cases hcards : Boards.cardsOf none
          (Boards.visible .outside 0 (Frozen.Prompt.splitlines text)) with
      | none =>
          rw [hcards] at hreads
          obtain ⟨e, he⟩ := hreads
          rw [he] at h
          cases h
      | some cards =>
          rw [hcards] at hreads
          obtain ⟨doc', hdoc', rfl⟩ := hreads
          rw [hdoc'] at h
          cases h
          rfl
  | notFound =>
      rw [hfile] at h
      cases h
  | notUtf8 =>
      rw [hfile] at h
      cases h
  | failed e =>
      rw [hfile] at h
      cases h

/-- The rows of a board. -/
theorem BoardReads.rows {board : Board} {doc : BoardDocument} (h : BoardReads board doc) :
    Boards.rowsOf .start doc.lines = some (doc.cards.map Boards.BoardCard.row) := by
  obtain ⟨text, -, -, hcards⟩ := h.text
  have hrows := Boards.rows_cardsOf .start 0 doc.lines
  rw [← hrows]
  show (Boards.cardsOf none (Boards.visible .outside 0 doc.lines)).map _ = _
  rw [hcards]
  rfl

/-- A text with rows is read as a board. -/
theorem exists_boardReads {board : Board} {text : Text} {rows : List Boards.Row}
    (hfile : board.file = .text text)
    (hrows : Boards.rowsOf .start (Frozen.Prompt.splitlines text) = some rows) :
    ∃ doc, BoardReads board doc ∧ doc.cards.map Boards.BoardCard.row = rows := by
  have hreads := Boards.readBoard_reads board.name board.path text
  have hcards := Boards.rows_cardsOf .start 0 (Frozen.Prompt.splitlines text)
  rw [hrows] at hcards
  obtain ⟨cards, hread, rfl⟩ := Option.map_eq_some_iff.mp hcards
  have hread : Boards.cardsOf none
    (Boards.visible .outside 0 (Frozen.Prompt.splitlines text)) = some cards := hread
  rw [hread] at hreads
  obtain ⟨doc, hdoc, hcards⟩ := hreads
  refine ⟨doc, ?_, by rw [hcards]⟩
  unfold BoardReads
  rw [hfile]
  exact hdoc

/-- A board whose text has lines that cannot be read is not read. -/
theorem rows_of_boardReads {board : Board} {doc : BoardDocument} {text : Text}
    (h : BoardReads board doc) (hfile : board.file = .text text) :
    Boards.rowsOf .start (Frozen.Prompt.splitlines text) =
      some (doc.cards.map Boards.BoardCard.row) := by
  obtain ⟨text', hfile', hlines, -⟩ := h.text
  rw [hfile] at hfile'
  cases hfile'
  rw [← hlines]
  exact h.rows

end OpenTulid.Obsidian
