/-
A tracker stays loadable under accepted completions as long as no effect
meets one of four things: a parent that already lists derived tasks, a file
name in use, a column the board reader does not see where the row is put,
and a frontmatter whose dump holds a fence.

# Method

The writers change one note and one board at a time. `keys` lists the cards
by board, column and note; well-formedness is a statement on the notes and
the keys, and each writer keeps it: `put_note` for a note written anew,
`add_note` for a note and its card, `move_card` for a card put elsewhere.
The run lemma is the induction over the effects.
-/
import OpenTulid.Proofs.Loading

namespace OpenTulid

-- ============================================================ the keys

/-- Board, column and note of a card. -/
structure CardKey where
  board : String
  column : String
  note : String
  deriving DecidableEq, Repr

namespace Vault

/-- The keys of the cards of one board. -/
def keysOf (v : Vault) (board : String × String) : List CardKey :=
  match v.boardFiles.get board.2 with
  | some lines => ((places {} lines).getD []).map fun p => ⟨board.1, p.1, p.2⟩
  | none => []

/-- The keys of all cards. -/
def keys (v : Vault) : List CardKey := v.boards.entries.flatMap v.keysOf

theorem readBoardFrom_board {board : String} (lines : List BoardLine) :
    ∀ {s index cards}, readBoardFrom board s index lines = .ok cards →
      ∀ c ∈ cards, c.board = board := by
  intro s index cards h c hc
  obtain ⟨-, -, -, -, -, -, hboard, -, -⟩ := readBoardFrom_split lines h hc
  exact hboard

/-- The cards of a board under their keys. -/
theorem map_cardsOf (v : Vault) (board : String × String) :
    (v.cardsOf board).map (fun c => (⟨c.board, c.column, c.note⟩ : CardKey)) =
      v.keysOf board := by
  unfold cardsOf keysOf
  cases v.boardFiles.get board.2 with
  | none => rfl
  | some lines =>
      have hplaces := readBoardFrom_places board.1 lines {} 0
      dsimp only
      rw [← hplaces]
      cases hread : readBoardFrom board.1 {} 0 lines with
      | error e =>
          have hread' : readBoard board.1 lines = .error e := hread
          rw [hread']
          rfl
      | ok cards =>
          have hread' : readBoard board.1 lines = .ok cards := hread
          rw [hread']
          show cards.map _ = (cards.map BoardCard.place).map _
          rw [List.map_map]
          refine List.map_congr_left fun c hc => ?_
          simp [readBoardFrom_board lines hread c hc, BoardCard.place]

theorem map_cards (v : Vault) :
    v.cards.map (fun c => (⟨c.board, c.column, c.note⟩ : CardKey)) = v.keys := by
  unfold cards keys
  rw [List.map_flatMap]
  exact congrArg (v.boards.entries.flatMap ·) (funext v.map_cardsOf)

/-- A board reads. -/
theorem readBoard_ok_iff {board : String} {lines : List BoardLine} :
    (∃ cards, readBoard board lines = .ok cards) ↔ (places {} lines).isSome := by
  have hplaces := readBoardFrom_places board lines {} 0
  rw [← hplaces]
  show (∃ cards, readBoardFrom board {} 0 lines = .ok cards) ↔ _
  cases readBoardFrom board {} 0 lines with
  | error e => simp [Except.toOption]
  | ok cards => simp [Except.toOption]

/-- Well-formedness as a statement on notes and keys. -/
theorem wellFormed_iff {Y : Yaml} {v : Vault} : WellFormed Y v ↔
    (∀ stem content, v.notes.get stem = some content →
      ∃ t, readTaskFile Y stem content = .ok t ∧ t.body.headings.Nodup) ∧
    (∀ stem stem' content content' t t', v.notes.get stem = some content →
      v.notes.get stem' = some content' → readTaskFile Y stem content = .ok t →
      readTaskFile Y stem' content' = .ok t' → t.id = t'.id → stem = stem') ∧
    (∀ board ∈ v.boards.entries, ∃ lines, v.boardFiles.get board.2 = some lines ∧
      (places {} lines).isSome) ∧
    (∀ k ∈ v.keys, (v.notes.get k.note).isSome ∧
      (v.stateForBoardColumn k.board k.column).isSome) ∧
    (v.keys.map (·.note)).Nodup ∧
    (∀ stem content, v.notes.get stem = some content → stem ∈ v.keys.map (·.note)) := by
  have hnotes : v.keys.map (·.note) = v.cards.map (·.note) := by
    rw [← map_cards, List.map_map]
    rfl
  constructor
  · intro h
    refine ⟨h.read, h.distinct, ?_, ?_, hnotes ▸ h.once, hnotes ▸ h.placed⟩
    · intro board hboard
      obtain ⟨lines, cards, hlines, hread⟩ := h.boards board hboard
      exact ⟨lines, hlines, readBoard_ok_iff.mp ⟨cards, hread⟩⟩
    · intro k hk
      rw [← map_cards] at hk
      obtain ⟨c, hc, rfl⟩ := List.mem_map.mp hk
      exact h.resolve c hc
  · rintro ⟨hread, hdistinct, hboards, hresolve, honce, hplaced⟩
    refine ⟨hread, hdistinct, ?_, ?_, hnotes ▸ honce, hnotes ▸ hplaced⟩
    · intro board hboard
      obtain ⟨lines, hlines, hsome⟩ := hboards board hboard
      obtain ⟨cards, hcards⟩ := readBoard_ok_iff.mpr hsome
      exact ⟨lines, cards, hlines, hcards⟩
    · intro c hc
      exact hresolve _ (map_cards v ▸ List.mem_map_of_mem hc)

-- ===================================================== writing a board

/-- No other board is kept in the file of this one. -/
def SoleBoard (v : Vault) (board : String) : Prop :=
  ∀ file, v.boards.get board = some file →
    ∀ other, v.boards.get other = some file → other = board

/-- Writing a board's file changes the keys of that board. -/
theorem keys_put {v : Vault} {board file : String} {lines : List BoardLine}
    (lines' : List BoardLine) (hboard : v.boards.get board = some file)
    (hsole : v.SoleBoard board)
    (hlines : v.boardFiles.get file = some lines) (notes : Store String (List Line)) :
    ∃ before behind,
      v.keys = before ++ ((places {} lines).getD []).map (fun p => ⟨board, p.1, p.2⟩) ++
        behind ∧
      ({ v with notes := notes, boardFiles := v.boardFiles.put file lines' } : Vault).keys =
        before ++ ((places {} lines').getD []).map (fun p => ⟨board, p.1, p.2⟩) ++ behind := by
  obtain ⟨pre, post, hentries⟩ := List.append_of_mem (Store.mem_entries.mpr hboard)
  have hsorted := v.boards.sorted
  rw [hentries] at hsorted
  obtain ⟨-, hpost, hcross⟩ := List.pairwise_append.mp hsorted
  have hother : ∀ b ∈ pre ++ post, b.2 ≠ file := by
    intro b hb heq
    have hmem : (b.1, file) ∈ v.boards.entries := by
      rw [hentries, ← heq]
      rcases List.mem_append.mp hb with hb | hb
      · exact List.mem_append_left _ hb
      · exact List.mem_append_right _ (List.mem_cons_of_mem _ hb)
    have hname : b.1 = board := hsole file hboard _ (Store.mem_entries.mp hmem)
    rcases List.mem_append.mp hb with hb | hb
    · exact absurd hname (ne_of_lt (hcross b hb _ List.mem_cons_self))
    · exact absurd hname.symm (ne_of_lt ((List.pairwise_cons.mp hpost).1 b hb))
  have hkeep : ∀ b ∈ pre ++ post,
      ({ v with notes := notes, boardFiles := v.boardFiles.put file lines' } : Vault).keysOf b =
        v.keysOf b := by
    intro b hb
    unfold keysOf
    dsimp only
    rw [Store.get_put_of_ne (hother b hb)]
  refine ⟨pre.flatMap v.keysOf, post.flatMap v.keysOf, ?_, ?_⟩
  · unfold keys
    rw [hentries, List.flatMap_append, List.flatMap_cons, ← List.append_assoc]
    simp [keysOf, hlines]
  · unfold keys
    show v.boards.entries.flatMap _ = _
    rw [hentries, List.flatMap_append, List.flatMap_cons, ← List.append_assoc]
    rw [List.flatMap_congr fun b hb => hkeep b (List.mem_append_left _ hb),
      List.flatMap_congr fun b hb => hkeep b (List.mem_append_right _ hb)]
    have hnew : (v.boardFiles.put file lines').get file = some lines' := by
      rw [Store.get_put, if_pos rfl]
    simp [keysOf, hnew]

-- =================================================== notes and their cards

section writes

variable {Y : Yaml} {v : Vault}

/-- A note written anew under its id, each heading once. -/
theorem WellFormed.put_note (h : WellFormed Y v) {stem : String} {content content' : List Line}
    {t : Task} (hget : v.notes.get stem = some content)
    (hread : readTaskFile Y stem content = .ok t) {headings : List String}
    (hnew : NoteReads Y stem content' t.id headings) (hnodup : headings.Nodup) :
    WellFormed Y { v with notes := v.notes.put stem content' } := by
  obtain ⟨t', hread', hid, hheadings⟩ := hnew
  -- every file still reads under the id it had
  have hsame : ∀ s c u, (v.notes.put stem content').get s = some c →
      readTaskFile Y s c = .ok u → ∃ c' u', v.notes.get s = some c' ∧
        readTaskFile Y s c' = .ok u' ∧ u'.id = u.id := by
    intro s c u hs hu
    rw [Store.get_put] at hs
    split at hs
    next heq =>
      subst heq
      obtain rfl : content' = c := by simpa using hs
      have hut : t' = u := Except.ok.inj (hread'.symm.trans hu)
      exact ⟨content, t, hget, hread, hut ▸ hid.symm⟩
    next => exact ⟨c, u, hs, hu, rfl⟩
  refine ⟨?_, ?_, h.boards, ?_, h.once, ?_⟩
  · intro s c hs
    rw [Store.get_put] at hs
    split at hs
    next heq =>
      subst heq
      obtain rfl : content' = c := by simpa using hs
      exact ⟨t', hread', hheadings ▸ hnodup⟩
    next => exact h.read s c hs
  · intro s s' c c' u u' hs hs' hu hu' heq
    obtain ⟨d, w, hd, hw, hwu⟩ := hsame s c u hs hu
    obtain ⟨d', w', hd', hw', hwu'⟩ := hsame s' c' u' hs' hu'
    exact h.distinct s s' d d' w w' hd hd' hw hw' (hwu.trans (heq.trans hwu'.symm))
  · intro c hc
    obtain ⟨hsome, hmapped⟩ := h.resolve c hc
    refine ⟨?_, hmapped⟩
    show ((v.notes.put stem content').get c.note).isSome
    rw [Store.get_put]
    split
    · rfl
    · exact hsome
  · intro s c hs
    rw [Store.get_put] at hs
    split at hs
    next heq => exact h.placed s content (heq ▸ hget)
    next => exact h.placed s c hs

/-- The written files of a board read, and the others as before. -/
theorem boards_put {v : Vault} {file : String} {lines' : List BoardLine}
    (h : ∀ board ∈ v.boards.entries, ∃ lines, v.boardFiles.get board.2 = some lines ∧
      (places {} lines).isSome) (hlines' : (places {} lines').isSome) :
    ∀ board ∈ v.boards.entries, ∃ lines,
      (v.boardFiles.put file lines').get board.2 = some lines ∧ (places {} lines).isSome := by
  intro board hboard
  rw [Store.get_put]
  split
  · exact ⟨lines', rfl, hlines'⟩
  · exact h board hboard

/-- A new note under a new id with a card of its own. -/
theorem WellFormed.add_note (h : WellFormed Y v) {stem : String} {content : List Line}
    (hfresh : v.notes.get stem = none) {id : TaskId} {headings : List String}
    (hnew : NoteReads Y stem content id headings) (hnodup : headings.Nodup)
    (hid : ∀ s c u, v.notes.get s = some c → readTaskFile Y s c = .ok u → u.id ≠ id)
    {boardFiles : Store String (List BoardLine)}
    (hboards : ∀ board ∈ v.boards.entries, ∃ lines, boardFiles.get board.2 = some lines ∧
      (places {} lines).isSome)
    {board column : String} (hmapped : (v.stateForBoardColumn board column).isSome)
    (hkeys : ({ v with notes := v.notes.put stem content, boardFiles := boardFiles } :
      Vault).keys.Perm (⟨board, column, stem⟩ :: v.keys)) :
    WellFormed Y { v with notes := v.notes.put stem content, boardFiles := boardFiles } := by
  obtain ⟨hread, hdistinct, -, hresolve, honce, hplaced⟩ := wellFormed_iff.mp h
  obtain ⟨t, ht, htid, hheadings⟩ := hnew
  have hnotes := hkeys.map (·.note)
  rw [List.map_cons] at hnotes
  refine wellFormed_iff.mpr ⟨?_, ?_, hboards, ?_, ?_, ?_⟩
  · intro s c hs
    rw [Store.get_put] at hs
    split at hs
    next heq =>
      subst heq
      obtain rfl : content = c := by simpa using hs
      exact ⟨t, ht, hheadings ▸ hnodup⟩
    next => exact hread s c hs
  · intro s s' c c' u u' hs hs' hu hu' heq
    rw [Store.get_put] at hs hs'
    split at hs
    next hstem =>
      subst hstem
      obtain rfl : content = c := by simpa using hs
      have hut : t = u := Except.ok.inj (ht.symm.trans hu)
      split at hs'
      next hstem' => exact hstem'.symm
      next =>
        refine absurd ?_ (hid s' c' u' hs' hu')
        rw [← heq, ← hut, htid]
    next =>
      split at hs'
      next hstem' =>
        subst hstem'
        obtain rfl : content = c' := by simpa using hs'
        have hut : t = u' := Except.ok.inj (ht.symm.trans hu')
        refine absurd ?_ (hid s c u hs hu)
        rw [heq, ← hut, htid]
      next => exact hdistinct s s' c c' u u' hs hs' hu hu' heq
  · intro k hk
    show ((v.notes.put stem content).get k.note).isSome ∧
      (v.stateForBoardColumn k.board k.column).isSome
    rcases List.mem_cons.mp (hkeys.mem_iff.mp hk) with rfl | hk
    · exact ⟨by rw [Store.get_put, if_pos rfl]; rfl, hmapped⟩
    · obtain ⟨hsome, hstate⟩ := hresolve k hk
      refine ⟨?_, hstate⟩
      rw [Store.get_put]
      split
      · rfl
      · exact hsome
  · rw [hnotes.nodup_iff, List.nodup_cons]
    refine ⟨fun hmem => ?_, honce⟩
    obtain ⟨k, hk, hnote⟩ := List.mem_map.mp hmem
    have hsome := (hresolve k hk).1
    rw [hnote, hfresh] at hsome
    cases hsome
  · intro s c hs
    rw [hnotes.mem_iff]
    rw [Store.get_put] at hs
    split at hs
    next heq => exact heq ▸ List.mem_cons_self
    next => exact List.mem_cons_of_mem _ (hplaced s c hs)

/-- A card put into another column of a state. -/
theorem WellFormed.move_card (h : WellFormed Y v)
    {boardFiles : Store String (List BoardLine)}
    (hboards : ∀ board ∈ v.boards.entries, ∃ lines, boardFiles.get board.2 = some lines ∧
      (places {} lines).isSome)
    (old new : CardKey) (others : List CardKey) (hnote : new.note = old.note)
    (hmapped : (v.stateForBoardColumn new.board new.column).isSome)
    (hold : v.keys.Perm (old :: others))
    (hkeys : ({ v with boardFiles := boardFiles } : Vault).keys.Perm (new :: others)) :
    WellFormed Y { v with boardFiles := boardFiles } := by
  obtain ⟨hread, hdistinct, -, hresolve, honce, hplaced⟩ := wellFormed_iff.mp h
  have hnotes : (({ v with boardFiles := boardFiles } : Vault).keys.map (·.note)).Perm
      (v.keys.map (·.note)) := by
    have hleft := hkeys.map (·.note)
    have hright := (hold.map (·.note)).symm
    rw [List.map_cons] at hleft hright
    rw [hnote] at hleft
    exact hleft.trans hright
  refine wellFormed_iff.mpr ⟨hread, hdistinct, hboards, ?_, ?_, ?_⟩
  · intro k hk
    show (v.notes.get k.note).isSome ∧ (v.stateForBoardColumn k.board k.column).isSome
    rcases List.mem_cons.mp (hkeys.mem_iff.mp hk) with rfl | hk
    · refine ⟨?_, hmapped⟩
      rw [hnote]
      exact (hresolve old (hold.mem_iff.mpr List.mem_cons_self)).1
    · exact hresolve k (hold.mem_iff.mpr (List.mem_cons_of_mem _ hk))
  · exact hnotes.nodup_iff.mpr honce
  · intro s c hs
    exact hnotes.mem_iff.mpr (hplaced s c hs)

-- ========================================================== the writers

/-- A row put at this line of a board is read, under a column of a state. -/
def ReadsRowAt (v : Vault) (board : String) (lines : List BoardLine) (index : Nat) : Prop :=
  (({} : BoardScan).after (lines.take index)).live = true ∧
    ∃ column, (({} : BoardScan).after (lines.take index)).column = some column ∧
      (v.stateForBoardColumn board column).isSome

theorem insertIdx_split {α : Type} (a : α) : ∀ {l : List α} {i : Nat}, i ≤ l.length →
    l.insertIdx i a = l.take i ++ a :: l.drop i
  | _, 0, _ => rfl
  | b :: l, i + 1, h => by
      rw [List.insertIdx_succ_cons, insertIdx_split a (Nat.le_of_succ_le_succ h)]
      rfl

theorem insertIndexFrom_le {column : String} (lines : List BoardLine) :
    ∀ {index inTarget insertAt i}, (∀ j, insertAt = some j → j ≤ index) →
      insertIndexFrom column index inTarget insertAt lines = some i →
      i ≤ index + lines.length := by
  have hbase : ∀ {index : Nat} {insertAt : Option Nat},
      (∀ j, insertAt = some j → j ≤ index) → insertAt.getD index ≤ index := by
    intro index insertAt hat
    cases insertAt with
    | none => exact le_refl _
    | some j => exact hat j rfl
  have hnext : ∀ {index : Nat} {insertAt : Option Nat} (b : Bool),
      (∀ j, insertAt = some j → j ≤ index) →
      ∀ j, (if b then some (index + 1) else insertAt) = some j → j ≤ index + 1 := by
    intro index insertAt b hat j hj
    split at hj
    · simp at hj
      omega
    · exact Nat.le_succ_of_le (hat j hj)
  induction lines with
  | nil =>
      intro index inTarget insertAt i hat h
      rw [insertIndexFrom] at h
      split at h
      · have := hbase hat
        simp at h
        omega
      · cases h
  | cons line rest ih =>
      intro index inTarget insertAt i hat h
      have hrest : ∀ {inTarget' insertAt'}, (∀ j, insertAt' = some j → j ≤ index + 1) →
          insertIndexFrom column (index + 1) inTarget' insertAt' rest = some i →
          i ≤ index + (rest.length + 1) := by
        intro inTarget' insertAt' hat' h'
        have := ih hat' h'
        omega
      have hlater : ∀ j, insertAt = some j → j ≤ index + 1 := fun j hj =>
        Nat.le_succ_of_le (hat j hj)
      rw [List.length_cons]
      cases line with
      | column name =>
          rw [insertIndexFrom] at h
          split at h
          · have := hbase hat
            simp at h
            omega
          · refine hrest ?_ h
            simpa using hnext (decide (name = column)) hat
      | row note => exact hrest (hnext inTarget hat) h
      | fence => exact hrest hlater h
      | settings => exact hrest hlater h
      | settingsEnd => exact hrest hlater h
      | blank => exact hrest hlater h
      | other text => exact hrest hlater h

theorem findColumnInsertIndex_le {lines : List BoardLine} {column : String} {i : Nat}
    (h : findColumnInsertIndex lines column = some i) : i ≤ lines.length := by
  have hle := insertIndexFrom_le lines (fun j hj => by cases hj) h
  omega

/-- A row put where it is read adds its place. -/
theorem places_insertIdx (note : String) {lines : List BoardLine} {index : Nat}
    {board : String}
    (hle : index ≤ lines.length) (hreads : v.ReadsRowAt board lines index)
    (hlines : (places {} lines).isSome) :
    ∃ column before behind, (v.stateForBoardColumn board column).isSome ∧
      places {} lines = some (before ++ behind) ∧
      places {} (lines.insertIdx index (.row note)) =
        some (before ++ (column, note) :: behind) := by
  obtain ⟨hlive, column, hcol, hmapped⟩ := hreads
  obtain ⟨all, hall⟩ := Option.isSome_iff_exists.mp hlines
  have hsplit : places {} (lines.take index ++ lines.drop index) = some all := by
    rw [List.take_append_drop]
    exact hall
  obtain ⟨before, behind, heq, hplaces⟩ := places_insert note hsplit hlive hcol
  refine ⟨column, before, behind, hmapped, heq ▸ hall, ?_⟩
  rw [insertIdx_split _ hle]
  exact hplaces

/-- What is gathered when the project loads. -/
theorem WellFormed.gathered (h : WellFormed Y v) : Gathered Y v (v.load Y) :=
  load_gathered (load_errors_eq_nil.mpr h)

theorem boardLines_eq_some {board file : String} {lines : List BoardLine}
    (h : v.boardLines board = some (file, lines)) :
    v.boards.get board = some file ∧ v.boardFiles.get file = some lines := by
  unfold boardLines at h
  obtain ⟨file', hfile, hrest⟩ := Option.bind_eq_some_iff.mp h
  obtain ⟨lines', hlines, heq⟩ := Option.bind_eq_some_iff.mp hrest
  obtain ⟨rfl, rfl⟩ : file' = file ∧ lines' = lines := by simpa using heq
  exact ⟨hfile, hlines⟩

/-- A task read is a note's task in the state of its card. -/
theorem readTask_ok {id : TaskId} {task : Task} (h : v.readTask Y id = .ok task) :
    WellFormed Y v ∧ task.id = id ∧ ∃ stem t, (v.load Y).noteOf id = some (stem, t) ∧
      task = v.loadedTask (v.load Y) t := by
  unfold readTask at h
  dsimp only at h
  split at h
  next herr =>
    split at h
    next stem t hof =>
      cases h
      refine ⟨load_errors_eq_nil.mp herr, ?_, stem, t, hof, rfl⟩
      have hid := (noteOf_mem hof).2
      unfold loadedTask
      split
      · exact hid
      · exact hid
    next => cases h
  next => cases h

theorem loadedTask_body (l : LoadedProject) (t : Task) :
    (v.loadedTask l t).body = t.body ∧ (v.loadedTask l t).id = t.id := by
  unfold loadedTask
  split <;> exact ⟨rfl, rfl⟩

/-- The headings of a task read occur once each. -/
theorem readTask_headings {id : TaskId} {task : Task} (h : v.readTask Y id = .ok task) :
    task.body.headings.Nodup := by
  obtain ⟨hwf, -, stem, t, hof, rfl⟩ := readTask_ok h
  rw [(loadedTask_body _ t).1]
  exact hwf.gathered.headings_nodup (noteOf_mem hof).1

/-- Writing a task read, its id kept and its headings once each. -/
theorem writeTask_wellFormed {id : TaskId} {task task' : Task} {v' : Vault}
    (hread : v.readTask Y id = .ok task) (hid : task'.id = task.id)
    (hplain : Y.Plain task'.frontmatter) (hnodup : task'.body.headings.Nodup)
    (h : v.writeTask Y task' = .ok v') : WellFormed Y v' := by
  obtain ⟨hwf, htask, stem, t, hof, rfl⟩ := readTask_ok hread
  obtain ⟨hmem, htid⟩ := noteOf_mem hof
  obtain ⟨content, hget, hfile⟩ := hwf.gathered.mem_notes.mp hmem
  obtain ⟨f, -, -, hvalid⟩ := split_of_readTaskFile hfile
  have hid' : task'.id = t.id := hid.trans (loadedTask_body _ t).2
  unfold writeTask at h
  dsimp only at h
  rw [if_pos (load_errors_eq_nil.mpr hwf), hid', htid, hof] at h
  obtain rfl : _ = v' := Except.ok.inj h
  refine hwf.put_note hget hfile (hid' ▸ readTaskFile_serializeTask stem hplain ?_) hnodup
  rw [hid']
  exact hvalid

/-- Where a task can be created: its file name is free, its column read
where the row goes, on a board with a file of its own. -/
structure FitsNew (Y : Yaml) (v : Vault) (task : Task) : Prop where
  plain : Y.Plain task.frontmatter
  fresh : v.notes.get (noteName task) = none
  sole : ∀ target, v.mappingForState task.currentState = some target →
    v.SoleBoard target.board
  row : ∀ target file lines index, v.mappingForState task.currentState = some target →
    v.boardLines target.board = some (file, lines) →
    findColumnInsertIndex lines target.column = some index →
    v.ReadsRowAt target.board lines index

/-- Creating a task where it fits. -/
theorem createTask_wellFormed {task : Task} {v' : Vault} (hfits : FitsNew Y v task)
    (hvalid : isValidTaskId task.id = true) (hnodup : task.body.headings.Nodup)
    (h : v.createTask Y task = .ok v') : WellFormed Y v' := by
  unfold createTask at h
  dsimp only at h
  split at h
  next herr =>
    have hwf := load_errors_eq_nil.mp herr
    split at h
    next => cases h
    next hnone =>
      split at h
      next => cases h
      next target htarget =>
        split at h
        next => cases h
        next file lines hboardLines =>
          split at h
          next => cases h
          next index hindex =>
            obtain rfl : _ = v' := Except.ok.inj h
            obtain ⟨hboard, hlines⟩ := boardLines_eq_some hboardLines
            have hboards := (wellFormed_iff.mp hwf).2.2.1
            obtain ⟨lines', hget, hsome⟩ := hboards _ (Store.mem_entries.mpr hboard)
            obtain rfl : lines' = lines := Option.some.inj (hget.symm.trans hlines)
            obtain ⟨column, pre, post, hmapped, hold, hnew⟩ :=
              places_insertIdx (noteName task) (findColumnInsertIndex_le hindex)
                (hfits.row target file lines' index htarget hboardLines hindex) hsome
            refine hwf.add_note hfits.fresh
              (readTaskFile_serializeTask _ hfits.plain hvalid) hnodup ?_
              (boards_put hboards (by rw [hnew]; rfl)) hmapped ?_
            · intro s c u hs hu heq
              have hmem := hwf.gathered.mem_notes.mpr ⟨c, hs, hu⟩
              have hof : (v.load Y).noteOf task.id = none :=
                Option.not_isSome_iff_eq_none.mp hnone
              exact noteOf_eq_none.mp hof (List.mem_map.mpr ⟨_, hmem, heq⟩)
            · obtain ⟨before, behind, hkeys, hkeys'⟩ := keys_put
                (lines'.insertIdx index (.row (noteName task))) hboard
                (hfits.sole target htarget) hlines
                (v.notes.put (noteName task) (serializeTask Y task))
              rw [hkeys', hkeys, hold, hnew]
              simp only [Option.getD_some, List.map_append, List.map_cons,
                List.append_assoc, List.cons_append]
              exact (List.perm_middle.append_left before).trans List.perm_middle
  next => cases h

/-- The note of a task reads on with its state cache set. -/
theorem syncTaskStateCache_wellFormed {stem state : String} {t : Task}
    {notes : Store String (List Line)} (hwf : WellFormed Y v)
    (hmem : (stem, t) ∈ (v.load Y).notes)
    (hplain : ∀ content f, v.notes.get stem = some content →
      splitFrontmatter Y content = .ok (f, t.body) → f.state.isSome →
      Y.Plain { f with state := some state })
    (h : v.syncTaskStateCache Y stem state = .ok notes) :
    WellFormed Y { v with notes := notes } := by
  obtain ⟨content, hget, hread⟩ := hwf.gathered.mem_notes.mp hmem
  have hnodup := hwf.gathered.headings_nodup hmem
  unfold syncTaskStateCache at h
  rw [hget] at h
  dsimp only at h
  split at h
  next => cases h
  next =>
    obtain rfl : v.notes = notes := Except.ok.inj h
    exact hwf
  next content' hcache =>
    obtain rfl : _ = notes := Except.ok.inj h
    exact hwf.put_note hget hread
      (prepareTaskStateCache_reads hread (fun f => hplain content f hget) hcache) hnodup

/-- Where a task can be moved: its cached state dumps plainly, and its row
goes where the board is read. -/
structure FitsMove (Y : Yaml) (v : Vault) (id : TaskId) (state : String) : Prop where
  plain : ∀ stem t content f, (v.load Y).noteOf id = some (stem, t) →
    v.notes.get stem = some content → splitFrontmatter Y content = .ok (f, t.body) →
    f.state.isSome → Y.Plain { f with state := some state }
  row : ∀ card target file lines index, (v.load Y).cards.lookup id = some card →
    v.mappingForState state = some target → card.column ≠ target.column →
    v.boardLines card.board = some (file, lines) →
    findColumnInsertIndex (lines.eraseIdx card.lineIndex) target.column = some index →
    v.ReadsRowAt card.board (lines.eraseIdx card.lineIndex) index

/-- The board of a card shares its file with no other board. -/
theorem WellFormed.soleBoard (h : WellFormed Y v) {c : BoardCard} {file : String}
    {lines : List BoardLine} {cards : List BoardCard}
    (hlines : v.boardFiles.get file = some lines)
    (hread : readBoard c.board lines = .ok cards) (hmem : c ∈ cards)
    (hboard : v.boards.get c.board = some file) : v.SoleBoard c.board := by
  intro file' hfile' other hother
  obtain rfl : file = file' := Option.some.inj (hboard.symm.trans hfile')
  by_contra hne
  -- the other board shows the same note a second time
  obtain ⟨pre, post, hentries⟩ := List.append_of_mem (Store.mem_entries.mpr hboard)
  have hplace : (c.column, c.note) ∈ ((places {} lines).getD []) := by
    have hplaces := readBoardFrom_places c.board lines {} 0
    have hread' : readBoardFrom c.board {} 0 lines = .ok cards := hread
    rw [← hplaces, hread']
    exact List.mem_map.mpr ⟨c, hmem, rfl⟩
  have hkey : ∀ name, v.boards.get name = some file →
      (⟨name, c.column, c.note⟩ : CardKey) ∈ v.keysOf (name, file) := by
    intro name _
    unfold keysOf
    dsimp only
    rw [hlines]
    exact List.mem_map.mpr ⟨_, hplace, rfl⟩
  have hotherMem : (other, file) ∈ pre ++ post := by
    have hin := Store.mem_entries.mpr hother
    rw [hentries] at hin
    rcases List.mem_append.mp hin with hin | hin
    · exact List.mem_append_left _ hin
    · rcases List.mem_cons.mp hin with heq | hin
      · exact absurd (congrArg Prod.fst heq) hne
      · exact List.mem_append_right _ hin
  have honce := (wellFormed_iff.mp h).2.2.2.2.1
  have hperm : (v.keys.map (·.note)).Perm
      (((v.keysOf (c.board, file)).map (·.note)) ++
        ((pre ++ post).flatMap v.keysOf).map (·.note)) := by
    rw [← List.map_append]
    refine List.Perm.map _ ?_
    unfold keys
    rw [hentries, List.flatMap_append, List.flatMap_cons, List.flatMap_append]
    rw [← List.append_assoc, ← List.append_assoc]
    exact List.perm_append_comm.append_right _
  rw [hperm.nodup_iff, List.nodup_append] at honce
  refine honce.2.2 c.note (List.mem_map.mpr ⟨_, hkey _ hboard, rfl⟩) c.note ?_ rfl
  exact List.mem_map.mpr ⟨_, List.mem_flatMap.mpr ⟨_, hotherMem, hkey _ hother⟩, rfl⟩

/-- What a move answers: the cache set, and the row of the task's card taken
out and put into the column of the state unless it stands there. -/
theorem moveTask_ok {id : TaskId} {state : String} {v' : Vault}
    (h : v.moveTask Y id state = .ok v') :
    WellFormed Y v ∧ ∃ stem t card notes, (v.load Y).noteOf id = some (stem, t) ∧
      (v.load Y).cards.lookup id = some card ∧
      v.syncTaskStateCache Y stem state = .ok notes ∧
      (v' = { v with notes := notes } ∨
        ∃ target file lines index, v.mappingForState state = some target ∧
          card.column ≠ target.column ∧ v.boardLines card.board = some (file, lines) ∧
          findColumnInsertIndex (lines.eraseIdx card.lineIndex) target.column = some index ∧
          v' = { v with
            notes := notes
            boardFiles := v.boardFiles.put file
              ((lines.eraseIdx card.lineIndex).insertIdx index (.row card.note)) }) := by
  unfold moveTask at h
  dsimp only at h
  split at h
  next herr =>
    refine ⟨load_errors_eq_nil.mp herr, ?_⟩
    split at h
    next stem t card hof hcard =>
      split at h
      next => cases h
      next target htarget =>
        split at h
        next =>
          cases hnotes : v.syncTaskStateCache Y stem state with
          | error e => rw [hnotes] at h; cases h
          | ok notes =>
              rw [hnotes] at h
              exact ⟨stem, t, card, notes, hof, hcard, hnotes, Or.inl (Except.ok.inj h).symm⟩
        next hplace =>
          split at h
          next => cases h
          next hsame =>
            have hcolumn : card.column ≠ target.column := fun heq =>
              hplace ⟨(not_not.mp hsame).symm, heq⟩
            split at h
            next => cases h
            next file lines hboardLines =>
              split at h
              next => cases h
              next index hindex =>
                cases hnotes : v.syncTaskStateCache Y stem state with
                | error e => rw [hnotes] at h; cases h
                | ok notes =>
                    rw [hnotes] at h
                    exact ⟨stem, t, card, notes, hof, hcard, hnotes, Or.inr
                      ⟨target, file, lines, index, htarget, hcolumn, hboardLines, hindex,
                        (Except.ok.inj h).symm⟩⟩
    next => cases h
  next => cases h

/-- The board of a gathered card is a board of the project. -/
theorem WellFormed.card_board (h : WellFormed Y v) {id : TaskId} {card : BoardCard}
    (hcard : (v.load Y).cards.lookup id = some card) : (v.boards.get card.board).isSome := by
  have hmem := (h.gathered.mem_cards (lookup_mem hcard)).1
  obtain ⟨b, hb, hcb⟩ := List.mem_flatMap.mp hmem
  obtain ⟨lines, cards, hget, hread⟩ := h.boards b hb
  unfold cardsOf at hcb
  rw [hget] at hcb
  dsimp only at hcb
  rw [hread] at hcb
  obtain ⟨-, -, -, -, -, -, hname, -, -⟩ := readBoardFrom_split lines hread hcb
  rw [hname, Store.mem_entries.mp hb]
  rfl

/-- The line of a gathered card among the lines of its board. -/
theorem WellFormed.card_row (h : WellFormed Y v) {id : TaskId} {card : BoardCard}
    (hcard : (v.load Y).cards.lookup id = some card) {file : String}
    {lines : List BoardLine} (hboardLines : v.boardLines card.board = some (file, lines)) :
    ∃ cards pre post before behind, readBoard card.board lines = .ok cards ∧
      lines = pre ++ .row card.note :: post ∧ card.lineIndex = pre.length ∧
      cards = before ++ card :: behind ∧
      places {} (pre ++ post) =
        some (before.map BoardCard.place ++ behind.map BoardCard.place) := by
  obtain ⟨hboard, hlines⟩ := boardLines_eq_some hboardLines
  have hmem := (h.gathered.mem_cards (lookup_mem hcard)).1
  obtain ⟨b, hb, hcb⟩ := List.mem_flatMap.mp hmem
  obtain ⟨lines', cards, hget, hread⟩ := h.boards b hb
  unfold cardsOf at hcb
  rw [hget] at hcb
  dsimp only at hcb
  rw [hread] at hcb
  obtain ⟨pre, post, before, behind, hsplit, hline, hname, hcards, hrest⟩ :=
    readBoardFrom_split lines' hread hcb
  have hfile : b.2 = file := by
    have hbget := Store.mem_entries.mp hb
    rw [← hname] at hbget
    exact Option.some.inj (hbget.symm.trans hboard)
  obtain rfl : lines' = lines := by
    rw [hfile] at hget
    exact Option.some.inj (hget.symm.trans hlines)
  exact ⟨cards, pre, post, before, behind, hname ▸ hread, hsplit, by omega, hcards, hrest⟩

/-- A gathered card on the lines of its board: without its line the board
shows the other cards, and no other board is kept in the file. -/
theorem WellFormed.card_split (h : WellFormed Y v) {id : TaskId} {card : BoardCard}
    (hcard : (v.load Y).cards.lookup id = some card) {file : String}
    {lines : List BoardLine} (hboardLines : v.boardLines card.board = some (file, lines)) :
    v.SoleBoard card.board ∧ ∃ before behind,
      places {} lines = some (before ++ (card.column, card.note) :: behind) ∧
      places {} (lines.eraseIdx card.lineIndex) = some (before ++ behind) := by
  obtain ⟨hboard, hlines⟩ := boardLines_eq_some hboardLines
  obtain ⟨cards, pre, post, before, behind, hread, hsplit, hline, hcards, hrest⟩ :=
    h.card_row hcard hboardLines
  have hmem : card ∈ cards := by simp [hcards]
  refine ⟨h.soleBoard hlines hread hmem hboard, before.map BoardCard.place,
    behind.map BoardCard.place, ?_, ?_⟩
  · have hplaces := readBoardFrom_places card.board lines {} 0
    have hread' : readBoardFrom card.board {} 0 lines = .ok cards := hread
    rw [← hplaces, hread', hcards]
    show some ((before ++ card :: behind).map BoardCard.place) = _
    rw [List.map_append, List.map_cons]
    rfl
  · rw [hline, hsplit, List.eraseIdx_append_of_length_le (le_refl _), Nat.sub_self,
      List.eraseIdx_cons_zero]
    exact hrest

/-- Moving a task where it fits. -/
theorem moveTask_wellFormed {id : TaskId} {state : String} {v' : Vault}
    (hfits : FitsMove Y v id state) (h : v.moveTask Y id state = .ok v') :
    WellFormed Y v' := by
  obtain ⟨hwf, stem, t, card, notes, hof, hcard, hnotes, hafter⟩ := moveTask_ok h
  have hsync : WellFormed Y { v with notes := notes } :=
    syncTaskStateCache_wellFormed hwf (noteOf_mem hof).1
      (fun content f hget => hfits.plain stem t content f hof hget) hnotes
  rcases hafter with rfl | ⟨target, file, lines, index, htarget, hcolumn, hboardLines,
    hindex, rfl⟩
  · exact hsync
  · obtain ⟨hboard, hlines⟩ := boardLines_eq_some hboardLines
    obtain ⟨hsole, before, behind, hall, hrest⟩ := hwf.card_split hcard hboardLines
    have hrow := hfits.row card target file lines index hcard htarget hcolumn hboardLines hindex
    obtain ⟨column, pre, post, hmapped, hold, hnew⟩ := places_insertIdx card.note
      (findColumnInsertIndex_le hindex) hrow (by rw [hrest]; rfl)
    obtain ⟨A, B, hkeys, hkeys'⟩ := keys_put
      ((lines.eraseIdx card.lineIndex).insertIdx index (.row card.note))
      hboard hsole hlines notes
    rw [hall] at hkeys
    rw [hnew] at hkeys'
    have hboards := (wellFormed_iff.mp hwf).2.2.1
    refine hsync.move_card ?_ ⟨card.board, card.column, card.note⟩
      ⟨card.board, column, card.note⟩
      (A ++ ((pre ++ post).map fun p => (⟨card.board, p.1, p.2⟩ : CardKey)) ++ B)
      rfl hmapped ?_ ?_
    · exact boards_put hboards (by rw [hnew]; rfl)
    · show v.keys.Perm _
      rw [hkeys, ← Option.some.inj (hrest.symm.trans hold)]
      simp only [Option.getD_some, List.map_append, List.map_cons,
        List.append_assoc, List.cons_append]
      exact (List.perm_middle.append_left A).trans List.perm_middle
    · rw [hkeys']
      simp only [Option.getD_some, List.map_append, List.map_cons,
        List.append_assoc, List.cons_append]
      exact (List.perm_middle.append_left A).trans List.perm_middle

-- ======================================================== one effect

/-- What an effect must meet in the files to leave them loadable. -/
def Fits (Y : Yaml) (v : Vault) : Effect → Prop
  | .moveTask id state => FitsMove Y v id state
  | .createTask task => FitsNew Y v task
  | .linkDerivedTasks parentId childLinks => ∀ task, v.readTask Y parentId = .ok task →
      "Derived tasks" ∉ task.body.headings ∧
        Y.Plain (taskWithDerivedLinks task childLinks).frontmatter
  | .promoteArtifact a => ∀ task, v.readTask Y a.taskId = .ok task →
      Y.Plain (taskWithLinks task (dedupLinks (task.artifactLinks ++ [a.link]))).frontmatter
  | _ => True

/-- A task an acceptance creates has a valid id and a body whose headings
occur once. -/
def Acceptable : Effect → Prop
  | .createTask task => isValidTaskId task.id = true ∧ task.body.headings.Nodup
  | _ => True

/-- One effect keeps the files well-formed. -/
theorem applyEffect_wellFormed {effect : Effect} {v' : Vault} (hwf : WellFormed Y v)
    (hacceptable : Acceptable effect) (hfits : v.Fits Y effect)
    (h : v.applyEffect Y effect = .ok v') : WellFormed Y v' := by
  cases effect with
  | moveTask id state => exact moveTask_wellFormed hfits h
  | createTask task => exact createTask_wellFormed hfits hacceptable.1 hacceptable.2 h
  | linkDerivedTasks parentId childLinks =>
      cases hread : v.readTask Y parentId with
      | error e => simp [applyEffect, hread, Except.bind] at h
      | ok task =>
          obtain ⟨hheading, hplain⟩ := hfits task hread
          have hwrite : v.writeTask Y (taskWithDerivedLinks task childLinks) = .ok v' := by
            simpa [applyEffect, hread, Except.bind] using h
          have hid : (taskWithDerivedLinks task childLinks).id = task.id := rfl
          refine writeTask_wellFormed hread hid hplain ?_ hwrite
          rw [headings_taskWithDerivedLinks, List.nodup_append]
          refine ⟨readTask_headings hread, by simp, fun a ha b hb heq => ?_⟩
          rw [List.mem_singleton] at hb
          exact hheading (hb ▸ heq ▸ ha)
  | promoteArtifact a =>
      by_cases hlink : a.link = ""
      · have hsame : v = v' := by simpa [applyEffect, hlink] using h
        exact hsame ▸ hwf
      · cases hread : v.readTask Y a.taskId with
        | error e =>
            have hsame : v = v' := by simpa [applyEffect, hlink, hread] using h
            exact hsame ▸ hwf
        | ok task =>
            have hwrite : v.writeTask Y
                (taskWithLinks task (dedupLinks (task.artifactLinks ++ [a.link]))) = .ok v' := by
              simpa [applyEffect, hlink, hread] using h
            have hid : (taskWithLinks task
                (dedupLinks (task.artifactLinks ++ [a.link]))).id = task.id := rfl
            have hnodup : (taskWithLinks task
                (dedupLinks (task.artifactLinks ++ [a.link]))).body.headings.Nodup := by
              show task.body.headings.Nodup
              exact readTask_headings hread
            exact writeTask_wellFormed hread hid (hfits task hread) hnodup hwrite
  | deleteChangedFile d => exact Except.ok.inj h ▸ hwf
  | promoteChangedFile p => exact Except.ok.inj h ▸ hwf
  | commitRepoChanges message paths => exact Except.ok.inj h ▸ hwf
  | createExecutionJob job => exact Except.ok.inj h ▸ hwf

end writes

end Vault

-- ====================================================== the derived tasks

/-- The decimal digits of a positive number start with none that is zero. -/
theorem head_toDigits {n : Nat} (hn : 0 < n) : (Nat.toDigits 10 n).head? ≠ some '0' := by
  induction n using Nat.strong_induction_on with
  | _ n ih =>
      rcases Nat.lt_or_ge n 10 with hlt | hge
      · rw [Nat.toDigits_of_lt_base hlt]
        have hdigit : ∀ m < 10, 0 < m → [Nat.digitChar m].head? ≠ some '0' := by decide
        exact hdigit n hlt hn
      · rw [Nat.toDigits_of_base_le (by omega) hge]
        have hdiv : 0 < n / 10 := Nat.div_pos hge (by omega)
        have hhead := ih (n / 10) (Nat.div_lt_self hn (by omega)) hdiv
        rw [List.head?_append_of_ne_nil _ Nat.toDigits_ne_nil]
        exact hhead

/-- The decimal spelling of a positive number is the id of that number. -/
theorem numericTaskId_toString {n : Nat} (hn : 0 < n) : numericTaskId (toString n) = some n := by
  have hlist : (toString n).toList = Nat.toDigits 10 n := Nat.toList_repr
  unfold numericTaskId
  rw [hlist]
  cases hdigits : Nat.toDigits 10 n with
  | nil => exact absurd hdigits Nat.toDigits_ne_nil
  | cons c cs =>
      have hhead := head_toDigits hn
      rw [hdigits] at hhead
      have hc : c ≠ '0' := fun heq => hhead (by rw [heq]; rfl)
      have hall : (c :: cs).all Char.isDigit = true := by
        rw [List.all_eq_true]
        intro d hd
        exact Nat.isDigit_of_mem_toDigits (by omega) (le_refl 10) (hdigits ▸ hd)
      dsimp only
      rw [if_pos ⟨hc, hall⟩, ← Nat.ofDigitChars_eq_foldl, ← hdigits,
        Nat.ofDigitChars_ten_toDigits]

/-- The decimal spelling of a positive number is a task id. -/
theorem isValidTaskId_toString {n : Nat} (hn : 0 < n) : isValidTaskId (toString n) = true := by
  unfold isValidTaskId
  rw [numericTaskId_toString hn, Option.isSome_some, Bool.true_or]

/-- Every id allocated for the batch is the spelling of a positive number. -/
theorem lookup_allocateNumericTaskIds (existing : List TaskId) {localIds : List String}
    {localId : String} (h : localId ∈ localIds) :
    ∃ n, 0 < n ∧
      (allocateNumericTaskIds localIds existing).lookup localId = some (toString n) := by
  unfold allocateNumericTaskIds
  generalize hassigned : List.map _ localIds.zipIdx = assigned
  cases hlookup : assigned.lookup localId with
  | none =>
      rw [List.lookup_eq_none_iff] at hlookup
      obtain ⟨i, hi, heq⟩ := List.mem_iff_getElem.mp h
      have hmem : (localId, toString (highestNumericId existing + 1 + i)) ∈ assigned := by
        rw [← hassigned]
        refine List.mem_map.mpr ⟨(localId, i), ?_, rfl⟩
        rw [List.mem_zipIdx_iff_getElem?]
        simp [heq, hi]
      have := hlookup _ hmem
      simp at this
  | some id =>
      obtain ⟨l₁, l₂, heq, -⟩ := List.lookup_eq_some_iff.mp hlookup
      have hmem : (localId, id) ∈ assigned := by
        rw [heq]
        simp
      rw [← hassigned] at hmem
      obtain ⟨⟨localId', i⟩, -, hpair⟩ := List.mem_map.mp hmem
      refine ⟨highestNumericId existing + 1 + i, by omega, ?_⟩
      have hid : toString (highestNumericId existing + 1 + i) = id := congrArg Prod.snd hpair
      rw [hid]

/-- Every parsed draft has a body whose headings occur once. -/
theorem parseDerivedFiles_headings {E : Env}
    {split : Content → Except String (String × List String × Body)} {d : Data}
    {storage : StorageId} {outputRelative : RelPath}
    {links : List ((String × RelPath) × String)} (artifacts : List ArtifactSubmission) :
    ∀ {seen localIds}, ∀ draft ∈ (parseDerivedFiles (E.parsing split) d storage
      outputRelative links seen localIds artifacts).1, draft.parsed.body.headings.Nodup := by
  induction artifacts with
  | nil => intro seen localIds draft h; cases h
  | cons artifact rest ih =>
      intro seen localIds draft h
      rw [parseDerivedFiles] at h
      dsimp only at h
      split at h
      next => exact ih draft h
      next parsed hparsed =>
        rcases List.mem_cons.mp h with rfl | h
        · split at hparsed
          next => cases hparsed
          next f hfile =>
            have hparse : parseDerivedTaskFile split f.content = .ok parsed := by
              split at hparsed
              next => cases hparsed
              next p hp => exact Except.ok.inj hparsed ▸ hp
            unfold parseDerivedTaskFile at hparse
            split at hparse
            next => cases hparse
            next localId dependencies body _ =>
              dsimp only at hparse
              split at hparse
              next => cases hparse
              next =>
                split at hparse
                next => cases hparse
                next hstructure =>
                  obtain rfl := Except.ok.inj hparse
                  exact Vault.validateTaskStructure_eq_nil.mp (not_not.mp hstructure)
        · exact ih draft h

/-- The effects of an acceptance create tasks the tracker can hold. -/
theorem Completion.effects_acceptable {E : Env}
    {split : Content → Except String (String × List String × Body)} {c : Completion}
    {existing : List TaskId} {effects : List Effect}
    (h : c.effects (E.parsing split) existing = .ok effects) :
    ∀ effect ∈ effects, Vault.Acceptable effect := by
  unfold Completion.effects at h
  generalize hderived : derivedTaskPlan _ _ _ _ _ _ _ _ _ = plan at h
  cases plan with
  | error e => cases h
  | ok derived =>
      obtain rfl := Except.ok.inj h
      have hchildren : ∀ child ∈ derived, isValidTaskId child.task.id = true ∧
          child.task.body.headings.Nodup := by
        intro child hchild
        unfold derivedTaskPlan at hderived
        split at hderived
        next =>
          obtain rfl := Except.ok.inj hderived
          cases hchild
        next derives _ =>
          dsimp only at hderived
          split at hderived
          next => cases hderived
          next =>
            split at hderived
            next => cases hderived
            next =>
              split at hderived
              next => cases hderived
              next =>
                obtain rfl := Except.ok.inj hderived
                obtain ⟨draft, hdraft, rfl⟩ := List.mem_map.mp hchild
                refine ⟨?_, parseDerivedFiles_headings _ draft hdraft⟩
                obtain ⟨n, hn, hlookup⟩ := lookup_allocateNumericTaskIds existing
                  (List.mem_map_of_mem (f := (·.parsed.localId)) hdraft)
                show isValidTaskId ((List.lookup _ _).getD "") = true
                rw [hlookup]
                exact isValidTaskId_toString hn
      have hrepository : ∀ e ∈ c.plan.promotedFiles ++ c.plan.commitEffect.toList,
          Vault.Acceptable e := by
        intro e he
        have htouches := c.files e he
        cases e with
        | createTask t => cases htouches
        | _ => trivial
      intro effect heffect
      unfold acceptanceEffects at heffect
      simp only [List.mem_append, List.mem_map, List.mem_singleton] at heffect
      rcases heffect with ((((hfile | hcommit) | ⟨a, -, rfl⟩) | ⟨child, hchild, rfl⟩) | hlink) | rfl
      · exact hrepository effect (List.mem_append_left _ hfile)
      · exact hrepository effect (List.mem_append_right _ hcommit)
      · trivial
      · exact hchildren child hchild
      · split at hlink
        · cases hlink
        · rw [List.mem_singleton] at hlink
          subst hlink
          trivial
      · trivial

-- ================================================================ runs

namespace Vault

variable {Y : Yaml}

/-- Effects that each fit where they are applied keep the files
well-formed. -/
theorem applyEffects_wellFormed (effects : List Effect) : ∀ {v : Vault}, WellFormed Y v →
    (∀ effect ∈ effects, Acceptable effect) →
    (∀ s ∈ (v.applyEffects Y effects).steps, s.before.Fits Y s.effect) →
    WellFormed Y (v.applyEffects Y effects).last ∧
      ∀ s ∈ (v.applyEffects Y effects).steps, WellFormed Y s.after := by
  induction effects with
  | nil => intro v hwf _ _; exact ⟨hwf, by simp [applyEffects]⟩
  | cons effect rest ih =>
      intro v hwf hacceptable hfits
      rw [applyEffects] at hfits ⊢
      cases happly : v.applyEffect Y effect with
      | error e => exact ⟨hwf, by simp⟩
      | ok after =>
          rw [happly] at hfits
          have hafter : WellFormed Y after := applyEffect_wellFormed hwf
            (hacceptable effect List.mem_cons_self)
            (hfits ⟨v, effect, after⟩ List.mem_cons_self) happly
          obtain ⟨hlast, hall⟩ := ih hafter
            (fun e he => hacceptable e (List.mem_cons_of_mem _ he))
            (fun s hs => hfits s (List.mem_cons_of_mem _ hs))
          refine ⟨hlast, fun s hs => ?_⟩
          rcases List.mem_cons.mp hs with rfl | hs
          · exact hafter
          · exact hall s hs

/-- A completion whose effects fit. -/
theorem complete_wellFormed {E : Env}
    {split : Content → Except String (String × List String × Body)} {v : Vault}
    {c : Completion} (hwf : WellFormed Y v)
    (hfits : ∀ s ∈ (v.complete Y (E.parsing split) c).steps, s.before.Fits Y s.effect) :
    WellFormed Y (v.complete Y (E.parsing split) c).last ∧
      ∀ s ∈ (v.complete Y (E.parsing split) c).steps, WellFormed Y s.after := by
  unfold complete at hfits ⊢
  cases hload : v.loadProject Y with
  | error e => exact ⟨hwf, by simp⟩
  | ok snapshot =>
      rw [hload] at hfits
      dsimp only at hfits ⊢
      cases heffects : c.effects (E.parsing split) (snapshot.tasks.map (·.id)) with
      | error e => exact ⟨hwf, by simp⟩
      | ok effects =>
          rw [heffects] at hfits
          exact applyEffects_wellFormed effects hwf
            (Completion.effects_acceptable heffects) hfits

/-- Completions whose effects fit. -/
theorem completeAll_wellFormed {E : Env}
    {split : Content → Except String (String × List String × Body)}
    (cs : List Completion) : ∀ {v : Vault}, WellFormed Y v →
      (∀ s ∈ (v.completeAll Y (E.parsing split) cs).steps, s.before.Fits Y s.effect) →
      ∀ s ∈ (v.completeAll Y (E.parsing split) cs).steps, WellFormed Y s.after := by
  induction cs with
  | nil => intro v _ _ s hs; cases hs
  | cons c rest ih =>
      intro v hwf hfits s hs
      rw [completeAll] at hfits hs
      dsimp only at hfits hs
      split at hs
      next haccepted =>
        rw [if_pos haccepted] at hfits
        obtain ⟨hlast, hfirst⟩ := complete_wellFormed hwf
          (fun s hs => hfits s (List.mem_append_left _ hs))
        rcases List.mem_append.mp hs with hs | hs
        · exact hfirst s hs
        · exact ih hlast (fun s hs => hfits s (List.mem_append_right _ hs)) s hs
      next hrejected =>
        rw [if_neg hrejected] at hfits
        exact (complete_wellFormed hwf hfits).2 s hs

end Vault

/-- Of a project that loads, every finite sequence of completions whose
effects meet a condition leaves a project that loads after every effect,
those included that a completion not accepted in the end has applied. -/
def StaysLoadable (Y : Yaml) (condition : Vault → Effect → Prop) : Prop :=
  ∀ (E : Env) (split : Content → Except String (String × List String × Body))
    (v : Vault) (cs : List Completion), (v.load Y).errors = [] →
    (∀ s ∈ (v.completeAll Y (E.parsing split) cs).steps, condition s.before s.effect) →
    ∀ s ∈ (v.completeAll Y (E.parsing split) cs).steps, (s.after.load Y).errors = []

/-- The tracker stays loadable under effects that fit. -/
theorem staysLoadable_of_fits (Y : Yaml) :
    StaysLoadable Y fun v effect => v.Fits Y effect := by
  intro E split v cs hload hfits s hs
  have hwf := Vault.load_errors_eq_nil.mp hload
  exact Vault.load_errors_eq_nil.mpr (Vault.completeAll_wellFormed cs hwf hfits s hs)

-- ======================================================= what does not fit

/-- One value a line: a line for each single value, a blank one when there is
none, and a blank line after a list. -/
def lineDump (f : Frontmatter) : List Line :=
  let single : Option String → Line := fun
    | none => .blank
    | some s => .text s
  [single f.id, single f.type, single f.state, single f.parentId] ++
    (f.dependencies.map .text ++ [.blank]) ++ (f.artifactLinks.map .text ++ [.blank]) ++
    f.metadata.flatMap fun kv => [.text kv.1, .text kv.2]

/-- The value of a line. -/
def Line.value : Line → Option String
  | .text s => some s
  | _ => none

/-- The list at the start of some lines, and what is behind it. -/
def takeList : List Line → Option (List String × List Line)
  | .blank :: rest => some ([], rest)
  | .text s :: rest => (takeList rest).map fun (l, behind) => (s :: l, behind)
  | _ => none

/-- The pairs of some lines. -/
def takePairs : List Line → Option (List (String × String))
  | [] => some []
  | .text k :: .text v :: rest => (takePairs rest).map ((k, v) :: ·)
  | _ => none

/-- Read one value a line. -/
def lineLoad : List Line → Option Frontmatter
  | id :: type :: state :: parentId :: rest =>
      (takeList rest).bind fun (dependencies, rest) =>
        (takeList rest).bind fun (artifactLinks, rest) =>
          (takePairs rest).map fun metadata =>
            { id := id.value, type := type.value, state := state.value
              dependencies := dependencies, artifactLinks := artifactLinks
              parentId := parentId.value, metadata := metadata }
  | _ => none

theorem takeList_map (l : List String) (rest : List Line) :
    takeList (l.map .text ++ .blank :: rest) = some (l, rest) := by
  induction l with
  | nil => rfl
  | cons s l ih => simp [takeList, ih]

theorem takePairs_flatMap (l : List (String × String)) :
    takePairs (l.flatMap fun kv => [.text kv.1, .text kv.2]) = some l := by
  induction l with
  | nil => rfl
  | cons kv l ih => simp [takePairs, ih]

/-- Values that dump one a line. -/
def lineYaml : Yaml where
  dump := lineDump
  load := lineLoad
  load_dump f := by
    obtain ⟨id, type, state, dependencies, artifactLinks, parentId, metadata⟩ := f
    unfold lineDump lineLoad
    simp only [List.cons_append, List.nil_append, List.append_assoc, takeList_map,
      Option.bind_some, takePairs_flatMap, Option.map_some]
    cases id <;> cases type <;> cases state <;> cases parentId <;> rfl

/-- A tracker with one planned task, and lines behind its last column. -/
def planningVault (behind : List BoardLine) : Vault where
  mappings := [⟨"Planning", "main", "Planning"⟩, ⟨"Review", "main", "Review"⟩,
    ⟨"Todo", "main", "Todo"⟩]
  boards := Store.ofList [("main", "board.md")]
  boardFiles := Store.ofList [("board.md",
    [.column "Planning", .row "1-plan", .column "Todo", .column "Review"] ++ behind)]
  notes := Store.ofList [("1-plan", serializeTask lineYaml
    { id := "1", title := "Plan", currentState := "Planning", body := [.heading "Why"] })]

/-- A storage with one file in the output folder. -/
def outputTree : FileTree where
  nodes := Store.ofList [(["output"], .dir), (["output", "a.md"], .file ⟨[], 0o644⟩)]
  closed := by decide

/-- A completion that moves the planned task, and derives one task from the
file `a.md` if its transition derives any. -/
def planningCompletion (transition : TransitionDefinition) : Completion where
  data := { projects := fun _ => {}, repos := fun _ => {},
            storages := fun _ => outputTree, leases := [] }
  taskId := "1"
  transition := transition
  outputRelative := ["output"]
  artifacts := [⟨"Task", ["a.md"]⟩]
  plan := {
    candidate := ⟨"c", "s", [], []⟩, outputRelative := ["output"]
    artifactPaths := [], promotedArtifacts := [], promotedFiles := []
    commitEffect := none, derived := [], fromState := "", effectiveToState := "" }
  files e he := by cases he

/-- The planned task derives a task and goes to review. -/
def derivePlan : Completion := planningCompletion
  { id := "plan", taskType := "task", fromState := "Planning", toState := "Review"
    derives := some ⟨"task", "Todo", "Task", none⟩ }

/-- The review sends it back. -/
def sendBack : Completion := planningCompletion
  { id := "rework", taskType := "task", fromState := "Review", toState := "Planning" }

/-- Every derived file holds the same task. -/
def splitDerived : Content → Except String (String × List String × Body) :=
  fun _ => .ok ("a", [], [.title "A", .heading "Why"])

/-- Once a review has sent a plan back, its second derivation gives the
parent a second `Derived tasks` heading; and a task moved into a column with
a fenced row goes behind the fence, where no card is seen. -/
theorem second_derivation_breaks_loading :
    (¬ ∀ Y, StaysLoadable Y fun _ _ => True) ∧
    ¬ ∀ (Y : Yaml) (E : Env)
        (split : Content → Except String (String × List String × Body))
        (v : Vault) (cs : List Completion), (v.load Y).errors = [] →
        (v.completeAll Y (E.parsing split) cs).accepted = true →
        ∀ s ∈ (v.completeAll Y (E.parsing split) cs).steps, (s.after.load Y).errors = [] := by
  constructor
  · intro h
    have hall := h lineYaml Env.plain splitDerived (planningVault [])
      [derivePlan, sendBack, derivePlan] (by decide +kernel) (fun _ _ => trivial)
    have hlinked : ∃ s ∈ ((planningVault []).completeAll lineYaml
        (Env.plain.parsing splitDerived) [derivePlan, sendBack, derivePlan]).steps,
        (s.after.load lineYaml).errors ≠ [] := by decide +kernel
    obtain ⟨s, hs, hne⟩ := hlinked
    exact hne (hall s hs)
  · intro h
    have hall := h lineYaml Env.plain splitDerived
      (planningVault [.fence, .row "0-old", .fence]) [derivePlan] (by decide +kernel)
      (by decide +kernel)
    have hmoved : ∃ s ∈ ((planningVault [.fence, .row "0-old", .fence]).completeAll lineYaml
        (Env.plain.parsing splitDerived) [derivePlan]).steps,
        (s.after.load lineYaml).errors ≠ [] := by decide +kernel
    obtain ⟨s, hs, hne⟩ := hmoved
    exact hne (hall s hs)

end OpenTulid
