/-
When a project loads: the predicate `Vault.WellFormed` on its files, and
what a load without errors has gathered from them.

# The loop

Each of the three phases of `load` adds an error or gathers; no phase takes
an error back. So a load without errors gathers in every step
(`load_gathered`), and files on which every step can gather load without
errors (`WellFormed.loads`).
-/
import OpenTulid.Proofs.Notes

namespace OpenTulid

namespace Vault

-- ======================================================= well-formedness

/-- The cards of one board. -/
def cardsOf (v : Vault) (board : String × String) : List BoardCard :=
  match v.boardFiles.get board.2 with
  | some lines => (readBoard board.1 lines).toOption.getD []
  | none => []

/-- The cards of all boards, in order. -/
def cards (v : Vault) : List BoardCard := v.boards.entries.flatMap v.cardsOf

/-- Files that load. -/
structure WellFormed (Y : Yaml) (v : Vault) : Prop where
  /-- every note reads, each of its headings once -/
  read : ∀ stem content, v.notes.get stem = some content →
    ∃ t, readTaskFile Y stem content = .ok t ∧ t.body.headings.Nodup
  /-- no id in two notes -/
  distinct : ∀ stem stem' content content' t t', v.notes.get stem = some content →
    v.notes.get stem' = some content' → readTaskFile Y stem content = .ok t →
    readTaskFile Y stem' content' = .ok t' → t.id = t'.id → stem = stem'
  /-- every board reads -/
  boards : ∀ board ∈ v.boards.entries, ∃ lines cards,
    v.boardFiles.get board.2 = some lines ∧ readBoard board.1 lines = .ok cards
  /-- every card names a note, in a column of a state -/
  resolve : ∀ c ∈ v.cards, (v.notes.get c.note).isSome ∧
    (v.stateForBoardColumn c.board c.column).isSome
  /-- no note has two cards -/
  once : (v.cards.map (·.note)).Nodup
  /-- every note has a card -/
  placed : ∀ stem content, v.notes.get stem = some content →
    stem ∈ v.cards.map (·.note)

-- ============================================================ the notes

/-- A note file gathered as a task. -/
def GathersNote (Y : Yaml) (file : String × List Line) (note : String × Task) : Prop :=
  note.1 = file.1 ∧ readTaskFile Y file.1 file.2 = .ok note.2 ∧
    note.2.body.headings.Nodup

theorem validateTaskStructure_eq_nil {body : Body} {location : Option String} :
    validateTaskStructure body location = [] ↔ body.headings.Nodup := by
  unfold validateTaskStructure
  rw [List.map_eq_nil_iff, Body.duplicateHeadingNames_eq_nil]

theorem noteOf_eq_none {l : LoadedProject} {id : TaskId} :
    l.noteOf id = none ↔ id ∉ l.notes.map (·.2.id) := by
  unfold LoadedProject.noteOf
  simp [List.find?_eq_none]

/-- A step over the notes without error gathers one. -/
theorem loadNote_clean {Y : Yaml} {l : LoadedProject} {file : String × List Line}
    (h : (loadNote Y l file).errors = []) :
    l.errors = [] ∧ ∃ note, GathersNote Y file note ∧
      note.2.id ∉ l.notes.map (·.2.id) ∧
      loadNote Y l file = { l with notes := l.notes ++ [note] } := by
  unfold loadNote at h ⊢
  cases hread : readTaskFile Y file.1 file.2 with
  | error e =>
      rw [hread] at h
      simp [LoadedProject.withError] at h
  | ok t =>
      rw [hread] at h
      dsimp only at h ⊢
      cases hof : l.noteOf t.id with
      | some existing =>
          simp only [LoadedProject.noteOf] at h hof
          rw [hof] at h
          simp [LoadedProject.withError] at h
      | none =>
          have hof' : LoadedProject.noteOf
              { l with errors := l.errors ++ validateTaskStructure t.body (some file.1) }
              t.id = none := hof
          rw [hof'] at h ⊢
          dsimp only at h ⊢
          obtain ⟨herr, hdup⟩ := List.append_eq_nil_iff.mp h
          refine ⟨herr, (file.1, t), ⟨rfl, hread, validateTaskStructure_eq_nil.mp hdup⟩,
            noteOf_eq_none.mp hof, ?_⟩
          rw [hdup, List.append_nil]

/-- A note that reads under a new id is gathered. -/
theorem loadNote_gathers {Y : Yaml} {l : LoadedProject} {file : String × List Line}
    {note : String × Task} (h : GathersNote Y file note)
    (hnew : note.2.id ∉ l.notes.map (·.2.id)) :
    loadNote Y l file = { l with notes := l.notes ++ [note] } := by
  obtain ⟨hstem, hread, hnodup⟩ := h
  have hof : LoadedProject.noteOf
      { l with errors := l.errors ++ validateTaskStructure note.2.body (some file.1) }
      note.2.id = none := noteOf_eq_none.mpr hnew
  unfold loadNote
  rw [hread]
  dsimp only
  rw [hof, validateTaskStructure_eq_nil.mpr hnodup, List.append_nil, ← hstem]

/-- The phase of the notes, without error. -/
theorem loadNotes_clean {Y : Yaml} (files : List (String × List Line)) :
    ∀ {l : LoadedProject}, (files.foldl (loadNote Y) l).errors = [] →
      (l.notes.map (·.2.id)).Nodup →
      l.errors = [] ∧ ∃ notes, List.Forall₂ (GathersNote Y) files notes ∧
        ((l.notes ++ notes).map (·.2.id)).Nodup ∧
        files.foldl (loadNote Y) l = { l with notes := l.notes ++ notes } := by
  induction files with
  | nil =>
      intro l h hnodup
      exact ⟨h, [], .nil, by simpa using hnodup, by simp⟩
  | cons file rest ih =>
      intro l h hnodup
      rw [List.foldl_cons] at h ⊢
      -- the rest is clean only from a clean start
      have hstep : (loadNote Y l file).errors = [] := by
        by_contra hne
        have hgrow : ∀ (files : List (String × List Line)) (l : LoadedProject),
            l.errors ≠ [] → (files.foldl (loadNote Y) l).errors ≠ [] := by
          intro files
          induction files with
          | nil => intro l hl; exact hl
          | cons file rest ih =>
              intro l hl
              exact ih _ fun hnil => hl (loadNote_clean hnil).1
        exact hgrow rest _ hne h
      obtain ⟨herr, note, hgather, hnew, hload⟩ := loadNote_clean hstep
      rw [hload] at h ⊢
      have hnodup' : ((l.notes ++ [note]).map (·.2.id)).Nodup := by
        rw [List.map_append, List.nodup_append]
        refine ⟨hnodup, by simp, fun a ha b hb heq => ?_⟩
        rw [List.map_singleton, List.mem_singleton] at hb
        exact hnew (hb ▸ heq ▸ ha)
      obtain ⟨-, notes, hall, hids, hfold⟩ := ih h hnodup'
      refine ⟨herr, note :: notes, .cons hgather hall, by simpa using hids, ?_⟩
      rw [hfold]
      simp

/-- Notes that read under distinct ids are gathered. -/
theorem loadNotes_gather {Y : Yaml} {files : List (String × List Line)}
    {notes : List (String × Task)} (h : List.Forall₂ (GathersNote Y) files notes) :
    ∀ {l : LoadedProject}, ((l.notes ++ notes).map (·.2.id)).Nodup →
      files.foldl (loadNote Y) l = { l with notes := l.notes ++ notes } := by
  induction h with
  | nil => intro l _; simp
  | @cons file note files notes hgather hall ih =>
      intro l hnodup
      have hnew : note.2.id ∉ l.notes.map (·.2.id) := by
        rw [List.map_append, List.nodup_append] at hnodup
        intro hmem
        exact hnodup.2.2 _ hmem _ (by simp) rfl
      rw [List.foldl_cons, loadNote_gathers hgather hnew, ih (by simpa using hnodup)]
      simp

-- ============================================================ the cards

/-- A card gathered for the task of its note. -/
def GathersCard (v : Vault) (notes : List (String × Task)) (c : BoardCard)
    (entry : TaskId × BoardCard) : Prop :=
  entry.2 = c ∧ (∃ t, notes.find? (fun e => e.1 = c.note) = some (c.note, t) ∧
    entry.1 = t.id) ∧ (v.stateForBoardColumn c.board c.column).isSome

/-- The gathered with one card more. -/
def withCards (l : LoadedProject) (cards : List (TaskId × BoardCard)) : LoadedProject :=
  { l with
    cards := l.cards ++ cards
    cardSeenTaskIds := l.cardSeenTaskIds ++ cards.map Prod.fst }

theorem lookup_eq_none_iff {cards : List (TaskId × BoardCard)} {id : TaskId} :
    cards.lookup id = none ↔ id ∉ cards.map Prod.fst := by
  rw [List.lookup_eq_none_iff]
  simp only [List.mem_map, not_exists, not_and, bne_iff_ne, ne_eq]
  constructor
  · intro h e he heq
    exact h e he heq.symm
  · intro h e he heq
    exact h e he heq.symm

/-- A step over the cards without error gathers one. -/
theorem loadCard_clean {v : Vault} {l : LoadedProject} {c : BoardCard}
    (h : (v.loadCard l c).errors = []) :
    l.errors = [] ∧ ∃ entry, GathersCard v l.notes c entry ∧
      entry.1 ∉ l.cards.map Prod.fst ∧ v.loadCard l c = withCards l [entry] := by
  unfold loadCard at h ⊢
  cases hfind : l.notes.find? (fun e => e.1 = c.note) with
  | none =>
      rw [hfind] at h
      simp [LoadedProject.withError] at h
  | some note =>
      obtain ⟨stem, t⟩ := note
      have hstem : stem = c.note := by simpa using List.find?_some hfind
      rw [hfind] at h
      dsimp only at h ⊢
      by_cases hmapped : (v.stateForBoardColumn c.board c.column).isNone
      · rw [if_pos hmapped] at h
        simp [LoadedProject.withError] at h
      · rw [if_neg hmapped] at h ⊢
        by_cases hlookup : (l.cards.lookup t.id).isSome
        · rw [if_pos hlookup] at h
          simp [LoadedProject.withError] at h
        · rw [if_neg hlookup] at h ⊢
          have hnone : l.cards.lookup t.id = none :=
            Option.not_isSome_iff_eq_none.mp hlookup
          have hsome : (v.stateForBoardColumn c.board c.column).isSome := by
            simpa [Option.isSome_iff_ne_none] using hmapped
          exact ⟨h, (t.id, c), ⟨rfl, ⟨t, hstem ▸ hfind, rfl⟩, hsome⟩,
            lookup_eq_none_iff.mp hnone, rfl⟩

/-- A card of a mapped column is gathered for a task without one. -/
theorem loadCard_gathers {v : Vault} {l : LoadedProject} {c : BoardCard}
    {entry : TaskId × BoardCard} (h : GathersCard v l.notes c entry)
    (hnew : entry.1 ∉ l.cards.map Prod.fst) :
    v.loadCard l c = withCards l [entry] := by
  obtain ⟨rfl, ⟨t, hfind, hid⟩, hmapped⟩ := h
  obtain ⟨id, c⟩ := entry
  dsimp only at hfind hid hmapped
  subst hid
  have hsome : ¬(v.stateForBoardColumn c.board c.column).isNone = true := by
    simpa [Option.isSome_iff_ne_none] using hmapped
  unfold loadCard
  rw [hfind]
  dsimp only
  rw [if_neg hsome, lookup_eq_none_iff.mpr hnew]
  rfl

/-- Cards without error keep what was gathered clean. -/
theorem loadCards_errors {v : Vault} (cs : List BoardCard) : ∀ {l : LoadedProject},
    (cs.foldl v.loadCard l).errors = [] → l.errors = [] := by
  induction cs with
  | nil => intro l h; exact h
  | cons c rest ih => intro l h; exact (loadCard_clean (ih h)).1

/-- The phase of the cards, without error. -/
theorem loadCards_clean {v : Vault} (cs : List BoardCard) : ∀ {l : LoadedProject},
    (cs.foldl v.loadCard l).errors = [] → (l.cards.map Prod.fst).Nodup →
      ∃ entries, List.Forall₂ (GathersCard v l.notes) cs entries ∧
        ((l.cards ++ entries).map Prod.fst).Nodup ∧
        cs.foldl v.loadCard l = withCards l entries := by
  induction cs with
  | nil =>
      intro l _ hnodup
      exact ⟨[], .nil, by simpa using hnodup, by simp [withCards]⟩
  | cons c rest ih =>
      intro l h hnodup
      rw [List.foldl_cons] at h ⊢
      obtain ⟨-, entry, hgather, hnew, hload⟩ := loadCard_clean (loadCards_errors rest h)
      rw [hload] at h ⊢
      have hnodup' : ((withCards l [entry]).cards.map Prod.fst).Nodup := by
        show ((l.cards ++ [entry]).map Prod.fst).Nodup
        rw [List.map_append, List.nodup_append]
        refine ⟨hnodup, by simp, fun a ha b hb heq => ?_⟩
        rw [List.map_singleton, List.mem_singleton] at hb
        exact hnew (hb ▸ heq ▸ ha)
      obtain ⟨entries, hall, hids, hfold⟩ := ih h hnodup'
      refine ⟨entry :: entries, .cons hgather hall, ?_, ?_⟩
      · simpa [withCards] using hids
      · rw [hfold]
        simp [withCards]

/-- Cards of mapped columns for distinct tasks are gathered. -/
theorem loadCards_gather {v : Vault} {notes : List (String × Task)} {cs : List BoardCard}
    {entries : List (TaskId × BoardCard)}
    (h : List.Forall₂ (GathersCard v notes) cs entries) :
    ∀ {l : LoadedProject}, l.notes = notes → ((l.cards ++ entries).map Prod.fst).Nodup →
      cs.foldl v.loadCard l = withCards l entries := by
  induction h with
  | nil => intro l _ _; simp [withCards]
  | @cons c entry cs entries hgather hall ih =>
      intro l hnotes hnodup
      have hnew : entry.1 ∉ l.cards.map Prod.fst := by
        rw [List.map_append, List.nodup_append] at hnodup
        intro hmem
        exact hnodup.2.2 _ hmem _ (by simp) rfl
      have hrest := ih (l := withCards l [entry]) hnotes (by simpa [withCards] using hnodup)
      rw [List.foldl_cons, loadCard_gathers (hnotes ▸ hgather) hnew, hrest]
      simp [withCards]

/-- A board without error hands its cards on. -/
theorem loadBoard_clean {v : Vault} {l : LoadedProject} {board : String × String}
    (h : (v.loadBoard l board).errors = []) :
    (∃ lines cards, v.boardFiles.get board.2 = some lines ∧
      readBoard board.1 lines = .ok cards) ∧
    v.loadBoard l board = (v.cardsOf board).foldl v.loadCard l := by
  unfold loadBoard cardsOf at *
  cases hlines : v.boardFiles.get board.2 with
  | none =>
      rw [hlines] at h
      simp [LoadedProject.withError] at h
  | some lines =>
      rw [hlines] at h
      dsimp only at h ⊢
      cases hread : readBoard board.1 lines with
      | error e =>
          rw [hread] at h
          simp [LoadedProject.withError] at h
      | ok cards => exact ⟨⟨lines, cards, rfl, hread⟩, rfl⟩

theorem loadBoard_gathers {v : Vault} {l : LoadedProject} {board : String × String}
    (h : ∃ lines cards, v.boardFiles.get board.2 = some lines ∧
      readBoard board.1 lines = .ok cards) :
    v.loadBoard l board = (v.cardsOf board).foldl v.loadCard l := by
  obtain ⟨lines, cards, hlines, hread⟩ := h
  unfold loadBoard cardsOf
  rw [hlines]
  dsimp only
  rw [hread]
  rfl

/-- The phase of the boards without error is that of their cards. -/
theorem loadBoards_clean {v : Vault} (boards : List (String × String)) :
    ∀ {l : LoadedProject}, (boards.foldl v.loadBoard l).errors = [] →
      l.errors = [] ∧
      (∀ board ∈ boards, ∃ lines cards, v.boardFiles.get board.2 = some lines ∧
        readBoard board.1 lines = .ok cards) ∧
      boards.foldl v.loadBoard l = (boards.flatMap v.cardsOf).foldl v.loadCard l := by
  induction boards with
  | nil => intro l h; exact ⟨h, by simp, rfl⟩
  | cons board rest ih =>
      intro l h
      obtain ⟨herr, hread, hfold⟩ := ih (l := v.loadBoard l board) h
      obtain ⟨hboard, hload⟩ := loadBoard_clean herr
      rw [hload] at herr
      refine ⟨loadCards_errors _ herr, ?_, ?_⟩
      · intro b hb
        rcases List.mem_cons.mp hb with rfl | hb
        · exact hboard
        · exact hread b hb
      · rw [List.foldl_cons, hfold, hload, List.flatMap_cons, List.foldl_append]

theorem loadBoards_gather {v : Vault} (boards : List (String × String)) :
    ∀ {l : LoadedProject},
      (∀ board ∈ boards, ∃ lines cards, v.boardFiles.get board.2 = some lines ∧
        readBoard board.1 lines = .ok cards) →
      boards.foldl v.loadBoard l = (boards.flatMap v.cardsOf).foldl v.loadCard l := by
  induction boards with
  | nil => intro l _; rfl
  | cons board rest ih =>
      intro l h
      rw [List.foldl_cons, ih fun b hb => h b (List.mem_cons_of_mem _ hb),
        loadBoard_gathers (h board List.mem_cons_self), List.flatMap_cons, List.foldl_append]

-- ============================================================= the load

/-- The look for cards without error finds one for every note. -/
theorem checkCards_clean (notes : List (String × Task)) : ∀ {l : LoadedProject},
    (notes.foldl checkCard l).errors = [] →
      (∀ n ∈ notes, n.2.id ∈ l.cardSeenTaskIds) ∧ notes.foldl checkCard l = l := by
  induction notes with
  | nil => intro l h; exact ⟨by simp, rfl⟩
  | cons n rest ih =>
      intro l h
      obtain ⟨hseen, hfold⟩ := ih (l := checkCard l n) h
      rw [List.foldl_cons] at h
      rw [hfold] at h
      have hmem : n.2.id ∈ l.cardSeenTaskIds := by
        by_contra hnot
        simp [checkCard, hnot, LoadedProject.withError] at h
      have hsame : checkCard l n = l := by simp [checkCard, hmem]
      rw [hsame] at hseen hfold
      refine ⟨?_, by rw [List.foldl_cons, hsame, hfold]⟩
      intro m hm
      rcases List.mem_cons.mp hm with rfl | hm
      · exact hmem
      · exact hseen m hm

theorem checkCards_gather (notes : List (String × Task)) {l : LoadedProject}
    (h : ∀ n ∈ notes, n.2.id ∈ l.cardSeenTaskIds) : notes.foldl checkCard l = l := by
  induction notes with
  | nil => rfl
  | cons n rest ih =>
      have hsame : checkCard l n = l := by simp [checkCard, h n List.mem_cons_self]
      rw [List.foldl_cons, hsame]
      exact ih fun m hm => h m (List.mem_cons_of_mem _ hm)

/-- What a load without errors has gathered. -/
structure Gathered (Y : Yaml) (v : Vault) (l : LoadedProject) : Prop where
  notes : List.Forall₂ (GathersNote Y) v.notes.entries l.notes
  ids : (l.notes.map (·.2.id)).Nodup
  boards : ∀ board ∈ v.boards.entries, ∃ lines cards,
    v.boardFiles.get board.2 = some lines ∧ readBoard board.1 lines = .ok cards
  cards : List.Forall₂ (GathersCard v l.notes) v.cards l.cards
  cardIds : (l.cards.map Prod.fst).Nodup
  placed : ∀ n ∈ l.notes, n.2.id ∈ l.cards.map Prod.fst

theorem load_gathered {Y : Yaml} {v : Vault} (h : (v.load Y).errors = []) :
    Gathered Y v (v.load Y) := by
  unfold load at h ⊢
  obtain ⟨hplaced, hcheck⟩ := checkCards_clean _ h
  rw [hcheck] at h ⊢
  obtain ⟨herr, hboards, hfold⟩ := loadBoards_clean _ h
  obtain ⟨-, notes, hnotes, hids, hload⟩ := loadNotes_clean _ herr (by simp)
  rw [hfold] at h
  obtain ⟨entries, hcards, hcardIds, hgather⟩ :=
    loadCards_clean _ h (by rw [hload]; simp)
  rw [hfold, hgather] at hplaced ⊢
  rw [hload] at hcards hcardIds hplaced ⊢
  simp only [withCards, List.nil_append] at hcards hcardIds hplaced hids ⊢
  exact ⟨hnotes, hids, hboards, hcards, hcardIds, hplaced⟩

/-- Files on which every step gathers load to what is gathered. -/
theorem Gathered.load_eq {Y : Yaml} {v : Vault} {notes : List (String × Task)}
    {cards : List (TaskId × BoardCard)}
    (h : Gathered Y v { notes := notes, cards := cards }) :
    v.load Y = { notes := notes, cards := cards, cardSeenTaskIds := cards.map Prod.fst } := by
  have hnotes : v.notes.entries.foldl (loadNote Y) {} = { notes := notes } := by
    rw [loadNotes_gather h.notes (by simpa using h.ids)]
    rfl
  have hboards : v.boards.entries.foldl v.loadBoard { notes := notes } =
      { notes := notes, cards := cards, cardSeenTaskIds := cards.map Prod.fst } := by
    rw [loadBoards_gather _ h.boards]
    have hcards := loadCards_gather h.cards (l := { notes := notes }) rfl
      (by simpa using h.cardIds)
    exact hcards
  unfold load
  rw [hnotes]
  dsimp only
  rw [hboards]
  exact checkCards_gather _ h.placed

-- ==================================================== what was gathered

theorem exists_forall₂ {α β : Type} {R : α → β → Prop} (l : List α)
    (h : ∀ a ∈ l, ∃ b, R a b) : ∃ l', List.Forall₂ R l l' := by
  induction l with
  | nil => exact ⟨[], .nil⟩
  | cons a rest ih =>
      obtain ⟨b, hb⟩ := h a List.mem_cons_self
      obtain ⟨l', hl'⟩ := ih fun x hx => h x (List.mem_cons_of_mem _ hx)
      exact ⟨b :: l', .cons hb hl'⟩

theorem exists_left_of_forall₂ {α β : Type} {R : α → β → Prop} {l : List α} {m : List β}
    (h : List.Forall₂ R l m) {b : β} (hb : b ∈ m) : ∃ a ∈ l, R a b := by
  induction h with
  | nil => cases hb
  | cons hab _ ih =>
      rcases List.mem_cons.mp hb with rfl | hb
      · exact ⟨_, List.mem_cons_self, hab⟩
      · obtain ⟨a, ha, hR⟩ := ih hb
        exact ⟨a, List.mem_cons_of_mem _ ha, hR⟩

theorem exists_right_of_forall₂ {α β : Type} {R : α → β → Prop} {l : List α} {m : List β}
    (h : List.Forall₂ R l m) {a : α} (ha : a ∈ l) : ∃ b ∈ m, R a b := by
  induction h with
  | nil => cases ha
  | cons hab _ ih =>
      rcases List.mem_cons.mp ha with rfl | ha
      · exact ⟨_, List.mem_cons_self, hab⟩
      · obtain ⟨b, hb, hR⟩ := ih ha
        exact ⟨b, List.mem_cons_of_mem _ hb, hR⟩

theorem map_eq_of_forall₂ {α β γ : Type} {R : α → β → Prop} {f : α → γ} {g : β → γ}
    (hfg : ∀ a b, R a b → f a = g b) {l : List α} {m : List β}
    (h : List.Forall₂ R l m) : l.map f = m.map g := by
  induction h with
  | nil => rfl
  | cons hab _ ih => rw [List.map_cons, List.map_cons, hfg _ _ hab, ih]

/-- Two list members with one key are equal where keys occur once. -/
theorem eq_of_nodup_map {α β : Type} {f : α → β} {l : List α} (h : (l.map f).Nodup)
    {a b : α} (ha : a ∈ l) (hb : b ∈ l) (hab : f a = f b) : a = b :=
  List.inj_on_of_nodup_map h ha hb hab

section gathered

variable {Y : Yaml} {v : Vault} {l : LoadedProject}

/-- The gathered notes are the note files as they read. -/
theorem Gathered.mem_notes (h : Gathered Y v l) {stem : String} {t : Task} :
    (stem, t) ∈ l.notes ↔
      ∃ content, v.notes.get stem = some content ∧ readTaskFile Y stem content = .ok t := by
  constructor
  · intro hmem
    obtain ⟨⟨stem', content⟩, hfile, hstem, hread, -⟩ := exists_left_of_forall₂ h.notes hmem
    obtain rfl : stem = stem' := hstem
    exact ⟨content, Store.mem_entries.mp hfile, hread⟩
  · rintro ⟨content, hget, hread⟩
    obtain ⟨⟨stem', t'⟩, hmem, hstem, hread', -⟩ :=
      exists_right_of_forall₂ h.notes (Store.mem_entries.mpr hget)
    obtain rfl : stem' = stem := hstem
    have heq : t' = t := by
      have hok : Except.ok t' = (Except.ok t : Except DomainError Task) :=
        hread'.symm.trans hread
      exact Except.ok.inj hok
    exact heq ▸ hmem

/-- Every gathered note's headings occur once. -/
theorem Gathered.headings_nodup (h : Gathered Y v l) {stem : String} {t : Task}
    (hmem : (stem, t) ∈ l.notes) : t.body.headings.Nodup := by
  obtain ⟨file, -, -, -, hnodup⟩ := exists_left_of_forall₂ h.notes hmem
  exact hnodup

/-- Two gathered notes of one id are one note. -/
theorem Gathered.note_unique (h : Gathered Y v l) {a b : String × Task}
    (ha : a ∈ l.notes) (hb : b ∈ l.notes) (hid : a.2.id = b.2.id) : a = b :=
  eq_of_nodup_map h.ids ha hb hid

/-- A gathered card belongs to a gathered note. -/
theorem Gathered.mem_cards (h : Gathered Y v l) {id : TaskId} {c : BoardCard}
    (hmem : (id, c) ∈ l.cards) :
    c ∈ v.cards ∧ ∃ t, (c.note, t) ∈ l.notes ∧ t.id = id := by
  obtain ⟨c', hc', heq, ⟨t, hfind, hid⟩, -⟩ := exists_left_of_forall₂ h.cards hmem
  obtain rfl : c = c' := heq
  exact ⟨hc', t, List.mem_of_find?_eq_some hfind, hid.symm⟩

/-- The task found for an id is a gathered note's. -/
theorem noteOf_mem {id : TaskId} {note : String × Task} (h : l.noteOf id = some note) :
    note ∈ l.notes ∧ note.2.id = id := by
  unfold LoadedProject.noteOf at h
  exact ⟨List.mem_of_find?_eq_some h, by simpa using List.find?_some h⟩

theorem lookup_mem {id : TaskId} {c : BoardCard} (h : l.cards.lookup id = some c) :
    (id, c) ∈ l.cards := by
  obtain ⟨l₁, l₂, heq, -⟩ := List.lookup_eq_some_iff.mp h
  rw [heq]
  simp

/-- What is gathered comes from well-formed files. -/
theorem Gathered.wellFormed (h : Gathered Y v l) : WellFormed Y v where
  read stem content hget := by
    obtain ⟨⟨stem', t⟩, -, hstem, hread, hnodup⟩ :=
      exists_right_of_forall₂ h.notes (Store.mem_entries.mpr hget)
    exact ⟨t, hread, hnodup⟩
  distinct stem stem' content content' t t' hget hget' hread hread' hid := by
    have hmem := h.mem_notes.mpr ⟨content, hget, hread⟩
    have hmem' := h.mem_notes.mpr ⟨content', hget', hread'⟩
    exact congrArg Prod.fst (h.note_unique hmem hmem' hid)
  boards := h.boards
  resolve c hc := by
    obtain ⟨entry, -, -, ⟨t, hfind, -⟩, hmapped⟩ := exists_right_of_forall₂ h.cards hc
    obtain ⟨content, hget, -⟩ := h.mem_notes.mp (List.mem_of_find?_eq_some hfind)
    exact ⟨by rw [hget]; rfl, hmapped⟩
  once := by
    have hmap : (v.cards.map (·.note)).map (fun note =>
        ((l.notes.find? fun e => e.1 = note).map (·.2.id)).getD "") =
        l.cards.map Prod.fst := by
      rw [List.map_map]
      refine map_eq_of_forall₂ (R := GathersCard v l.notes) ?_ h.cards
      intro c entry hgather
      obtain ⟨-, ⟨t, hfind, hid⟩, -⟩ := hgather
      show ((l.notes.find? fun e => e.1 = c.note).map (·.2.id)).getD "" = entry.1
      rw [hfind, hid]
      rfl
    exact List.Nodup.of_map _ (hmap ▸ h.cardIds)
  placed stem content hget := by
    obtain ⟨⟨stem', t⟩, hmem, hstem, -, -⟩ :=
      exists_right_of_forall₂ h.notes (Store.mem_entries.mpr hget)
    obtain rfl : stem' = stem := hstem
    obtain ⟨⟨id, c⟩, hentry, hid⟩ := List.mem_map.mp (h.placed _ hmem)
    obtain ⟨hc, t', hnote, hid'⟩ := h.mem_cards hentry
    have heq := h.note_unique hnote hmem (hid'.trans hid)
    exact List.mem_map.mpr ⟨c, hc, congrArg Prod.fst heq⟩

end gathered

theorem nodup_entries (v : Vault) : (v.notes.entries.map Prod.fst).Nodup := by
  have h := v.notes.sorted
  rw [List.Nodup, List.pairwise_map]
  exact h.imp fun hlt => ne_of_lt hlt

/-- Well-formed files are gathered. -/
theorem WellFormed.gathers {Y : Yaml} {v : Vault} (h : WellFormed Y v) :
    ∃ notes cards, Gathered Y v { notes := notes, cards := cards } := by
  obtain ⟨notes, hnotes⟩ := exists_forall₂ (R := GathersNote Y) v.notes.entries (by
    rintro ⟨stem, content⟩ hfile
    obtain ⟨t, hread, hnodup⟩ := h.read stem content (Store.mem_entries.mp hfile)
    exact ⟨(stem, t), rfl, hread, hnodup⟩)
  have hstems : v.notes.entries.map Prod.fst = notes.map Prod.fst :=
    map_eq_of_forall₂ (fun _ _ hg => hg.1.symm) hnotes
  have hstemsNodup : (notes.map Prod.fst).Nodup := hstems ▸ v.nodup_entries
  have hfile : ∀ note ∈ notes, ∃ content, v.notes.get note.1 = some content ∧
      readTaskFile Y note.1 content = .ok note.2 := by
    rintro ⟨stem, t⟩ hmem
    obtain ⟨⟨stem', content⟩, hin, hstem, hread, -⟩ := exists_left_of_forall₂ hnotes hmem
    obtain rfl : stem = stem' := hstem
    exact ⟨content, Store.mem_entries.mp hin, hread⟩
  have hnote : ∀ stem content, v.notes.get stem = some content → ∃ t, (stem, t) ∈ notes := by
    intro stem content hget
    obtain ⟨⟨stem', t⟩, hmem, hstem, -, -⟩ :=
      exists_right_of_forall₂ hnotes (Store.mem_entries.mpr hget)
    obtain rfl : stem' = stem := hstem
    exact ⟨t, hmem⟩
  have hinj : ∀ a ∈ notes, ∀ b ∈ notes, a.2.id = b.2.id → a = b := by
    intro a ha b hb hid
    obtain ⟨content, hget, hread⟩ := hfile a ha
    obtain ⟨content', hget', hread'⟩ := hfile b hb
    have hstem := h.distinct _ _ _ _ _ _ hget hget' hread hread' hid
    exact eq_of_nodup_map hstemsNodup ha hb hstem
  obtain ⟨cards, hcards⟩ := exists_forall₂ (R := GathersCard v notes) v.cards (by
    intro c hc
    obtain ⟨hsome, hmapped⟩ := h.resolve c hc
    obtain ⟨content, hget⟩ := Option.isSome_iff_exists.mp hsome
    obtain ⟨t, hmem⟩ := hnote _ _ hget
    refine ⟨(t.id, c), rfl, ⟨t, ?_, rfl⟩, hmapped⟩
    cases hfind : notes.find? (fun e => e.1 = c.note) with
    | none =>
        have hnone := List.find?_eq_none.mp hfind _ hmem
        simp at hnone
    | some found =>
        have hstem : found.1 = c.note := by simpa using List.find?_some hfind
        rw [eq_of_nodup_map hstemsNodup (List.mem_of_find?_eq_some hfind) hmem hstem])
  have hcard : ∀ entry ∈ cards, entry.2 ∈ v.cards ∧
      ∃ t, (entry.2.note, t) ∈ notes ∧ entry.1 = t.id := by
    intro entry hentry
    obtain ⟨c, hc, rfl, ⟨t, hfind, hid⟩, -⟩ := exists_left_of_forall₂ hcards hentry
    exact ⟨hc, t, List.mem_of_find?_eq_some hfind, hid⟩
  have hsecond : v.cards = cards.map Prod.snd := by
    have hmap := map_eq_of_forall₂ (f := id) (g := Prod.snd) (fun _ _ hg => hg.1.symm) hcards
    simpa using hmap
  have hcardsNodup : cards.Nodup :=
    List.Nodup.of_map Prod.snd (hsecond ▸ List.Nodup.of_map _ h.once)
  refine ⟨notes, cards, hnotes, ?_, h.boards, hcards, ?_, ?_⟩
  · exact List.Nodup.map_on hinj (List.Nodup.of_map _ hstemsNodup)
  · refine List.Nodup.map_on ?_ hcardsNodup
    intro a ha b hb hid
    obtain ⟨hca, t, hta, hida⟩ := hcard a ha
    obtain ⟨hcb, t', htb, hidb⟩ := hcard b hb
    have hnotes' := hinj _ hta _ htb (hida.symm.trans (hid.trans hidb))
    have hsnd : a.2 = b.2 :=
      eq_of_nodup_map h.once hca hcb (congrArg Prod.fst hnotes')
    exact Prod.ext hid hsnd
  · intro n hn
    obtain ⟨content, hget, hread⟩ := hfile n hn
    obtain ⟨c, hc, hstem⟩ := List.mem_map.mp (h.placed _ _ hget)
    obtain ⟨entry, hentry, heq, ⟨t, hfind, hid⟩, -⟩ := exists_right_of_forall₂ hcards hc
    have hnote' : ((c.note, t) : String × Task) = n :=
      eq_of_nodup_map hstemsNodup (List.mem_of_find?_eq_some hfind) hn hstem
    refine List.mem_map.mpr ⟨entry, hentry, ?_⟩
    rw [hid, ← hnote']

/-- A project loads exactly when its files are well-formed. -/
theorem load_errors_eq_nil {Y : Yaml} {v : Vault} :
    (v.load Y).errors = [] ↔ WellFormed Y v := by
  constructor
  · intro h
    exact (load_gathered h).wellFormed
  · intro h
    obtain ⟨notes, cards, hgathered⟩ := h.gathers
    rw [hgathered.load_eq]

end Vault

end OpenTulid
