/-
What the state mappings of an accepted workflow mean to the tracker.

The compiler checks the mappings there are: each is of a declared state on a
declared board, no state and no column is mapped twice. It asks for no
mapping. So on a project that loads, with the mapped columns on its boards,
a task can be moved exactly to the states mapped on the board it stands on,
and a task can be created exactly in the mapped states; into other states an
acceptance fails at its move, behind everything it delivered before.
-/
import OpenTulid.Engine.Adapter
import OpenTulid.Proofs.Loadable
import OpenTulid.Proofs.WorkflowReferences

namespace OpenTulid

theorem ok_of_map {ε α β : Type} {f : α → β} {x : Except ε α} {b : β} (h : x.map f = .ok b) :
    ∃ a, x = .ok a ∧ f a = b := by
  cases x with
  | error e => cases h
  | ok a => exact ⟨a, rfl, Except.ok.inj h⟩

-- ================================================== what an acceptance plans

/-- The children of a batch are created in the state its transition derives
into. -/
theorem derivedTaskPlan_state {E : Env} {d : Data} {storage : StorageId}
    {outputRelative : RelPath} {transition : TransitionDefinition}
    {artifacts : List ArtifactSubmission} {parentId : TaskId} {existing : List TaskId}
    {sourceLinks : List ((String × RelPath) × String)} {derived : List DerivedTask}
    (h : derivedTaskPlan E d storage outputRelative transition artifacts parentId existing
      sourceLinks = .ok derived) :
    ∀ child ∈ derived, child.task.currentState ∈ transition.birthplaces := by
  unfold derivedTaskPlan at h
  unfold TransitionDefinition.birthplaces
  split at h
  next =>
    cases h
    simp
  next derives hderives =>
    dsimp only at h
    split at h
    next => cases h
    next =>
      split at h
      next => cases h
      next =>
        split at h
        next => cases h
        next =>
          cases h
          intro child hchild
          obtain ⟨draft, -, rfl⟩ := List.mem_map.mp hchild
          rw [hderives]
          exact List.mem_singleton.mpr rfl

theorem effectiveToState_mem (transition : TransitionDefinition) (derived : List DerivedTask) :
    effectiveToState transition derived ∈ transition.targets := by
  unfold effectiveToState TransitionDefinition.targets
  split
  next => exact List.mem_cons_self
  next =>
    cases transition.derives.bind (·.parentToIfDerived) with
    | none => exact List.mem_cons_self
    | some state => exact List.mem_cons_of_mem _ (List.mem_singleton.mpr rfl)

namespace Completion

variable {E : Env} {c : Completion} {existing : List TaskId} {effects : List Effect}

/-- An acceptance moves its task to a target of its transition. -/
theorem moves_to_target (h : c.effects E existing = .ok effects) {id : TaskId} {state : String}
    (hmem : Effect.moveTask id state ∈ effects) : state ∈ c.transition.targets := by
  obtain ⟨derived, -, rfl⟩ := ok_of_map h
  unfold acceptanceEffects at hmem
  simp only [List.mem_append] at hmem
  rcases hmem with ((((hfile | hcommit) | hartifact) | hchild) | hlink) | hmove
  · cases c.files _ (List.mem_append_left _ hfile)
  · cases c.files _ (List.mem_append_right _ hcommit)
  · obtain ⟨artifact, -, heq⟩ := List.mem_map.mp hartifact
    cases heq
  · obtain ⟨child, -, heq⟩ := List.mem_map.mp hchild
    cases heq
  · split at hlink
    next => cases hlink
    next => cases List.mem_singleton.mp hlink
  · cases List.mem_singleton.mp hmove
    exact effectiveToState_mem _ _

/-- It creates tasks in the state its transition derives into. -/
theorem creates_at_birthplace (h : c.effects E existing = .ok effects) {task : Task}
    (hmem : Effect.createTask task ∈ effects) : task.currentState ∈ c.transition.birthplaces := by
  obtain ⟨derived, hplan, rfl⟩ := ok_of_map h
  unfold acceptanceEffects at hmem
  simp only [List.mem_append] at hmem
  rcases hmem with ((((hfile | hcommit) | hartifact) | hchild) | hlink) | hmove
  · cases c.files _ (List.mem_append_left _ hfile)
  · cases c.files _ (List.mem_append_right _ hcommit)
  · obtain ⟨artifact, -, heq⟩ := List.mem_map.mp hartifact
    cases heq
  · obtain ⟨child, hborn, heq⟩ := List.mem_map.mp hchild
    cases heq
    exact derivedTaskPlan_state hplan child hborn
  · split at hlink
    next => cases hlink
    next => cases List.mem_singleton.mp hlink
  · cases List.mem_singleton.mp hmove

end Completion

-- ======================================================= rows and columns

/-- A column is found on a board if and only if it has its heading. -/
theorem insertIndexFrom_isSome {column : String} (lines : List BoardLine) :
    ∀ {index : Nat} {inTarget : Bool} {insertAt : Option Nat},
      (insertIndexFrom column index inTarget insertAt lines).isSome = true ↔
        inTarget = true ∨ BoardLine.column column ∈ lines := by
  induction lines with
  | nil =>
      intro index inTarget insertAt
      cases inTarget <;> simp [insertIndexFrom]
  | cons line rest ih =>
      intro index inTarget insertAt
      cases line with
      | column name =>
          unfold insertIndexFrom
          cases inTarget with
          | true => simp
          | false =>
              rw [if_neg (by simp), ih]
              by_cases hname : name = column
              · simp [hname]
              · have hne : column ≠ name := fun h => hname h.symm
                simp [hname, hne]
      | row | fence | settings | settingsEnd | blank | other =>
          unfold insertIndexFrom
          rw [ih]
          simp

theorem findColumnInsertIndex_isSome {lines : List BoardLine} {column : String} :
    (findColumnInsertIndex lines column).isSome = true ↔ BoardLine.column column ∈ lines := by
  unfold findColumnInsertIndex
  rw [insertIndexFrom_isSome]
  simp

-- ============================================================== one answer

/-- The error of a state without a column. -/
def stateUnmapped (state : String) : DomainError :=
  ⟨"state.unmapped", s!"State {state} is not mapped to an Obsidian board column.", some state⟩

/-- The error of a column on another board. -/
def crossBoardMove (id : TaskId) : DomainError :=
  ⟨"adapter.cross_board_move_unsupported",
    "Moving cards between different board files is not implemented yet.", some id⟩

namespace Vault

variable {Y : Yaml} {v : Vault}

/-- A declared board has its lines. -/
theorem WellFormed.boardLines_isSome (h : WellFormed Y v) {board : String}
    (hboard : (v.boards.get board).isSome) : ∃ file lines, v.boardLines board = some (file, lines) := by
  obtain ⟨file, hfile⟩ := Option.isSome_iff_exists.mp hboard
  obtain ⟨lines, -, hlines, -⟩ := h.boards (board, file) (Store.mem_entries.mpr hfile)
  refine ⟨file, lines, ?_⟩
  unfold boardLines
  simp [hfile, hlines]

/-- A board without the row of a card has its columns still. -/
theorem WellFormed.column_mem_eraseIdx (h : WellFormed Y v) {id : TaskId} {card : BoardCard}
    (hcard : (v.load Y).cards.lookup id = some card) {file : String} {lines : List BoardLine}
    (hboardLines : v.boardLines card.board = some (file, lines)) {column : String}
    (hmem : BoardLine.column column ∈ lines) :
    BoardLine.column column ∈ lines.eraseIdx card.lineIndex := by
  obtain ⟨-, pre, post, -, -, -, rfl, hline, -, -⟩ := h.card_row hcard hboardLines
  rw [hline, List.eraseIdx_append_of_length_le (le_refl _), Nat.sub_self, List.eraseIdx_cons_zero]
  simpa using hmem

/-- The state cache of a loaded note can be set. -/
theorem WellFormed.syncTaskStateCache_ok (h : WellFormed Y v) {stem : String} {t : Task}
    (hmem : (stem, t) ∈ (v.load Y).notes) (state : String) :
    ∃ notes, v.syncTaskStateCache Y stem state = .ok notes := by
  obtain ⟨content, hget, hread⟩ := h.gathered.mem_notes.mp hmem
  obtain ⟨f, hsplit, -, -⟩ := split_of_readTaskFile hread
  unfold syncTaskStateCache prepareTaskStateCache
  rw [hget]
  dsimp only
  rw [hsplit]
  dsimp only
  by_cases hnone : f.state.isNone = true
  · rw [if_pos hnone]
    exact ⟨_, rfl⟩
  · rw [if_neg hnone]
    exact ⟨_, rfl⟩

end Vault

namespace Engine

open Doc

/-- State mappings no two of which share a state or a column, each of a
declared state on a board the configuration has. -/
structure MappingsInOrder (w : CompiledWorkflow) (config : ObsidianAdapterConfig) : Prop where
  declared : ∀ m ∈ config.stateMappings, w.has .state m.state = true ∧ m.state ≠ ""
  boards : ∀ m ∈ config.stateMappings, (config.boards.get m.board).isSome = true
  states : (config.stateMappings.map (·.state)).Nodup
  columns : (config.stateMappings.map fun m => (m.board, m.column)).Nodup

/-- A project of the configuration that loads, with the mapped columns on its
boards. -/
structure Opened (config : ObsidianAdapterConfig) (Y : Yaml) (v : Vault) : Prop where
  mappings : v.mappings = config.stateMappings
  boards : v.boards = config.boards
  loads : (v.load Y).errors = []
  columns : ∀ m ∈ v.mappings, ∀ file lines, v.boardLines m.board = some (file, lines) →
    BoardLine.column m.column ∈ lines

/-- The answer to moving a task from one state to another: done on one
board, refused across boards and without a column. -/
def MoveAnswers (config : ObsidianAdapterConfig) (id : TaskId) (fromState toState : String)
    (answer : Except (List DomainError) Vault) : Prop :=
  match config.boardOf toState with
  | none => answer = .error [stateUnmapped toState]
  | some board =>
      if config.boardOf fromState = some board then ∃ v, answer = .ok v
      else answer = .error [crossBoardMove id]

/-- The answer to creating a task: done in a mapped state, else refused. -/
def CreateAnswers (config : ObsidianAdapterConfig) (state : String)
    (answer : Except (List DomainError) Vault) : Prop :=
  match config.boardOf state with
  | none => answer = .error [stateUnmapped state]
  | some _ => ∃ v, answer = .ok v

namespace MappingsInOrder

variable {w : CompiledWorkflow} {config : ObsidianAdapterConfig}

/-- The mapping of a state is the only one. -/
theorem boardOf_of_mem (h : MappingsInOrder w config) {m : StateMapping}
    (hmem : m ∈ config.stateMappings) : config.boardOf m.state = some m.board := by
  unfold ObsidianAdapterConfig.boardOf
  obtain ⟨m', hfind⟩ : ∃ m', (config.stateMappings.find? fun n => n.state = m.state) = some m' := by
    rw [← Option.isSome_iff_exists, List.find?_isSome]
    exact ⟨m, hmem, by simp⟩
  have hstate : m'.state = m.state := by simpa using List.find?_some hfind
  rw [hfind, Vault.eq_of_nodup_map h.states (List.mem_of_find?_eq_some hfind) hmem hstate]
  rfl

end MappingsInOrder

namespace Opened

variable {w : CompiledWorkflow} {config : ObsidianAdapterConfig} {Y : Yaml} {v : Vault}

theorem boardOf_eq (h : Opened config Y v) (state : String) :
    config.boardOf state = (v.mappingForState state).map (·.board) := by
  unfold ObsidianAdapterConfig.boardOf Vault.mappingForState
  rw [h.mappings]

/-- A mapped column is found on its board. -/
theorem findColumn_isSome (h : Opened config Y v) {m : StateMapping} (hmem : m ∈ v.mappings)
    {file : String} {lines : List BoardLine} (hlines : v.boardLines m.board = some (file, lines)) :
    ∃ index, findColumnInsertIndex lines m.column = some index :=
  Option.isSome_iff_exists.mp (findColumnInsertIndex_isSome.mpr (h.columns m hmem file lines hlines))

/-- A loaded task stands on the board of its state. -/
theorem boardOf_task (h : Opened config Y v) (horder : MappingsInOrder w config) {id : TaskId}
    {t : Task} {card : BoardCard} (hid : t.id = id)
    (hcard : (v.load Y).cards.lookup id = some card) :
    config.boardOf (v.loadedTask (v.load Y) t).currentState = some card.board := by
  have hwf := Vault.load_errors_eq_nil.mp h.loads
  obtain ⟨-, hmapped⟩ := hwf.resolve card (hwf.gathered.mem_cards (Vault.lookup_mem hcard)).1
  obtain ⟨state, hstate⟩ := Option.isSome_iff_exists.mp hmapped
  obtain ⟨m, hfind, rfl⟩ := Option.map_eq_some_iff.mp hstate
  have hmem : m ∈ config.stateMappings := h.mappings ▸ List.mem_of_find?_eq_some hfind
  have hplace : m.board = card.board ∧ m.column = card.column := by
    simpa using List.find?_some hfind
  have hloaded : (v.loadedTask (v.load Y) t).currentState = m.state := by
    unfold Vault.loadedTask
    rw [hid, hcard]
    dsimp only
    rw [hstate]
    exact if_neg (horder.declared m hmem).2
  rw [hloaded, horder.boardOf_of_mem hmem, hplace.1]

/-- Moving a task. -/
theorem move (h : Opened config Y v) (horder : MappingsInOrder w config) {id : TaskId}
    {task : Task} (hread : v.readTask Y id = .ok task) (state : String) :
    MoveAnswers config id task.currentState state (v.moveTask Y id state) := by
  obtain ⟨hwf, hid, stem, t, hof, rfl⟩ := Vault.readTask_ok hread
  obtain ⟨hmem, htid⟩ := Vault.noteOf_mem hof
  obtain ⟨card, hcard⟩ : ∃ card, (v.load Y).cards.lookup id = some card := by
    have hplaced := hwf.gathered.placed _ hmem
    cases hlookup : (v.load Y).cards.lookup id with
    | none => exact absurd hplaced (htid ▸ Vault.lookup_eq_none_iff.mp hlookup)
    | some card => exact ⟨card, rfl⟩
  have hboard := h.boardOf_task horder htid hcard
  obtain ⟨notes, hnotes⟩ := hwf.syncTaskStateCache_ok hmem state
  unfold MoveAnswers
  rw [hboard, h.boardOf_eq]
  unfold Vault.moveTask
  dsimp only
  rw [if_pos h.loads, hof, hcard]
  dsimp only
  cases htarget : v.mappingForState state with
  | none => rfl
  | some target =>
      have htargetMem : target ∈ v.mappings := List.mem_of_find?_eq_some htarget
      dsimp only [Option.map_some]
      by_cases hsame : card.board = target.board
      · rw [if_pos (congrArg some hsame)]
        by_cases hcolumn : card.column = target.column
        · rw [if_pos ⟨hsame, hcolumn⟩, hnotes]
          exact ⟨_, rfl⟩
        · -- the row goes to another column of the board
          obtain ⟨file, lines, hlines⟩ := hwf.boardLines_isSome (hwf.card_board hcard)
          have hheading := h.columns target htargetMem file lines (hsame ▸ hlines)
          obtain ⟨index, hindex⟩ := Option.isSome_iff_exists.mp
            (findColumnInsertIndex_isSome.mpr (hwf.column_mem_eraseIdx hcard hlines hheading))
          rw [if_neg fun hboth => hcolumn hboth.2, if_neg fun hne => hne hsame.symm, hlines]
          dsimp only
          rw [hindex, hnotes]
          exact ⟨_, rfl⟩
      · have hne : ¬some card.board = some target.board := fun heq => hsame (Option.some.inj heq)
        rw [if_neg hne, if_neg fun hboth => hsame hboth.1, if_pos fun heq => hsame heq.symm]
        rfl

/-- Creating a task under a new id. -/
theorem create (h : Opened config Y v) (horder : MappingsInOrder w config) {task : Task}
    (hnew : (v.load Y).noteOf task.id = none) :
    CreateAnswers config task.currentState (v.createTask Y task) := by
  have hwf := Vault.load_errors_eq_nil.mp h.loads
  unfold CreateAnswers
  rw [h.boardOf_eq]
  unfold Vault.createTask
  dsimp only
  rw [if_pos h.loads, hnew]
  dsimp only [Option.isSome_none]
  rw [if_neg Bool.false_ne_true]
  cases htarget : v.mappingForState task.currentState with
  | none => rfl
  | some target =>
      have hmem : target ∈ v.mappings := List.mem_of_find?_eq_some htarget
      obtain ⟨file, lines, hlines⟩ := hwf.boardLines_isSome
        (h.boards ▸ horder.boards target (h.mappings ▸ hmem))
      obtain ⟨index, hindex⟩ := h.findColumn_isSome hmem hlines
      dsimp only [Option.map_some]
      rw [hlines]
      dsimp only
      rw [hindex]
      exact ⟨_, rfl⟩

end Opened

-- ====================================================== the configuration

/-- A document the loader builds, and its definition. -/
structure Loads (registries : RuntimeRegistries) (source : Value) (document : WorkflowDocument)
    (w : CompiledWorkflow) : Prop where
  built : (buildAst source).2 = some document
  accepted : Accepted registries document w

/-- Every state mapping of a storage has strings for its parts, that of its
state not empty. -/
def TextMappings (storage : Entries) : Prop :=
  ∀ item ∈ itemsOf ((normalizedStorageConfig storage).get "state_mappings"),
    ∃ parts, mappingParts item = some parts ∧ parts.1 ≠ ""

/-- The mapping of parts. -/
def StateMapping.ofParts (parts : String × String × String) : StateMapping :=
  ⟨parts.1, parts.2.1, parts.2.2⟩

theorem plainKeys_normalized {config : Entries} (h : plainKeys (.map config) = true) :
    plainKeys (.map (normalizedStorageConfig config)) = true := by
  have hid : ∀ {m : Entries}, plainKeys (.map m) = true → freezeInto id [] m = m := by
    intro m hm
    unfold plainKeys Value.all at hm
    rw [Bool.and_eq_true, decide_eq_true_eq] at hm
    rw [freeze_of_texts hm.1]
    simp
  unfold normalizedStorageConfig
  dsimp only
  split
  next obsidian hobsidian =>
    split
    next =>
      have hplain := Value.all_of_get? h hobsidian
      rw [hid hplain]
      exact hplain
    next =>
      rw [hid h]
      exact h
  next =>
    rw [hid h]
    exact h

/-- A state mapping of strings is read as such. -/
theorem stateMappingOf_freezeValue (partsText : Value → String) {item : Value}
    (hplain : plainKeys item = true) {parts : String × String × String}
    (hparts : mappingParts item = some parts) :
    stateMappingOf partsText (freezeValue item) = .ok (StateMapping.ofParts parts) := by
  obtain ⟨state, board, column⟩ := parts
  cases item with
  | scalar s => cases hparts
  | list items => cases hparts
  | map m =>
      have htexts : Entries.Texts m := by
        unfold plainKeys Value.all at hplain
        rw [Bool.and_eq_true, decide_eq_true_eq] at hplain
        exact hplain.1
      obtain ⟨hstate, hboard, hcolumn⟩ := get?_of_mappingParts hparts
      rw [freezeValue_map]
      unfold stateMappingOf
      dsimp only
      rw [get?_freezeMapping htexts, get?_freezeMapping htexts, get?_freezeMapping htexts,
        hstate, hboard, hcolumn]
      rfl

theorem mapM_stateMappingOf (partsText : Value → String) {items : List Value}
    (hplain : ∀ item ∈ items, plainKeys item = true)
    (hparts : ∀ item ∈ items, ∃ parts, mappingParts item = some parts ∧ parts.1 ≠ "") :
    (items.map freezeValue).mapM (stateMappingOf partsText) =
      .ok ((items.filterMap mappingParts).map StateMapping.ofParts) := by
  induction items with
  | nil => rfl
  | cons item rest ih =>
      obtain ⟨parts, hsome, -⟩ := hparts item List.mem_cons_self
      have hfirst := stateMappingOf_freezeValue partsText (hplain item List.mem_cons_self) hsome
      have hrest := ih (fun i hi => hplain i (List.mem_cons_of_mem _ hi))
        (fun i hi => hparts i (List.mem_cons_of_mem _ hi))
      rw [List.map_cons, List.mapM_cons, hfirst, hrest, List.filterMap_cons_some hsome]
      rfl

/-- Every board named by a string has a file. -/
theorem isSome_boards (text : Value → String) {key : String} (boards : Entries)
    {done : Store String String}
    (h : (done.get key).isSome = true ∨ Scalar.str key ∈ boards.map Prod.fst) :
    ((boards.foldl (fun done e => done.put (keyText e.1) (text e.2)) done).get key).isSome =
      true := by
  induction boards generalizing done with
  | nil => simpa using h
  | cons e rest ih =>
      rw [List.foldl_cons]
      refine ih ?_
      rw [List.map_cons, List.mem_cons] at h
      rcases h with hdone | hkey | hrest
      · left
        rw [Store.get_put]
        split
        next => rfl
        next => exact hdone
      · left
        have hsame : key = keyText (.str key) := rfl
        rw [Store.get_put, ← hkey, if_pos hsame]
        rfl
      · exact .inr hrest

/-- The mappings of a loaded document are in order, if they are mappings of
strings. -/
theorem mappingsInOrder {registries : RuntimeRegistries} {source : Value}
    {document : WorkflowDocument} {w : CompiledWorkflow} (h : Loads registries source document w)
    {storage : Entries} (hstorage : document.storage = some storage)
    (htexts : TextMappings storage) {partsText : Value → String} {config : ObsidianAdapterConfig}
    (hconfig : configFromStorageDefinition partsText w.storage = .ok config) :
    MappingsInOrder w config := by
  have hplain := plainKeys_normalized (plainKeys_storage h.built hstorage)
  have hfrozen : w.storage = some (freezeMapping (normalizedStorageConfig storage)) := by
    rw [h.accepted.definition.2]
    exact congrArg (Option.map _) hstorage
  rw [hfrozen] at hconfig
  unfold configFromStorageDefinition at hconfig
  dsimp only at hconfig
  rw [get_frozenStorage, get_frozenStorage] at hconfig
  split at hconfig
  next boards mappings hboards hmappings =>
    obtain ⟨rawBoards, hrawBoards, rfl⟩ := freezeValue_eq_map hboards
    unfold TextMappings at htexts
    cases hitems : (normalizedStorageConfig storage).get "state_mappings" with
    | scalar s =>
        rw [hitems] at hmappings
        cases hmappings
    | map m =>
        rw [hitems, freezeValue_map] at hmappings
        cases hmappings
    | list items =>
        rw [hitems] at hmappings htexts
        obtain rfl : items.map freezeValue = mappings := by
          have hlist := itemsOf_freezeValue (.list items)
          rw [hmappings] at hlist
          exact hlist.symm
        have hplainItems : ∀ item ∈ items, plainKeys item = true :=
          Value.all_of_mem_items
            (Value.all_of_get? hplain (Entries.get?_eq_of_get hitems (by simp)))
        rw [mapM_stateMappingOf partsText hplainItems htexts] at hconfig
        cases hconfig
        have hok := h.accepted.definition.1
        unfold compileDiagnostics storageRefs at hok
        rw [hstorage] at hok
        dsimp only at hok
        rw [hrawBoards, hitems] at hok
        simp only [noErrors_append] at hok
        obtain ⟨hknown, hstates, hcolumns⟩ := checkMappings_spec hok.1.2
        have hmap : ∀ {m : StateMapping},
            m ∈ (items.filterMap mappingParts).map StateMapping.ofParts →
            ∃ parts ∈ items.filterMap mappingParts, StateMapping.ofParts parts = m :=
          List.mem_map.mp
        refine ⟨fun m hm => ?_, fun m hm => ?_, ?_, ?_⟩
        · obtain ⟨parts, hmem, rfl⟩ := hmap hm
          obtain ⟨item, hitem, hsome⟩ := List.mem_filterMap.mp hmem
          obtain ⟨parts', hsome', hne⟩ := htexts item hitem
          obtain rfl : parts = parts' := Option.some.inj (hsome.symm.trans hsome')
          refine ⟨?_, hne⟩
          unfold CompiledWorkflow.has
          rw [h.accepted.lookup_eq]
          simpa [CompiledWorkflow.lookup, StateMapping.ofParts] using (hknown parts hmem).1
        · obtain ⟨parts, hmem, rfl⟩ := hmap hm
          exact isSome_boards _ _ (.inr (has_iff_mem.mp (has_freezeMapping (hknown parts hmem).2.1)))
        · rw [List.map_map]
          exact hstates
        · rw [List.map_map]
          exact hcolumns
  next => cases hconfig
  next => cases hconfig

-- ======================================================= what it comes to

/-- The mappings of a definition are in order, and the tracker answers the
effects of any acceptance, on any project of the configuration, as the boards
of the states have it. -/
structure TrackerAnswers (w : CompiledWorkflow) (config : ObsidianAdapterConfig) : Prop where
  order : MappingsInOrder w config
  moves : ∀ (E : Env) (c : Completion) (existing : List TaskId) (effects : List Effect),
    c.effects E existing = .ok effects → ∀ (id : TaskId) (state : String),
      Effect.moveTask id state ∈ effects → state ∈ c.transition.targets ∧
        ∀ (Y : Yaml) (v : Vault), Opened config Y v →
          ∀ task, v.readTask Y id = .ok task →
            MoveAnswers config id task.currentState state (v.applyEffect Y (.moveTask id state))
  creates : ∀ (E : Env) (c : Completion) (existing : List TaskId) (effects : List Effect),
    c.effects E existing = .ok effects → ∀ task : Task,
      Effect.createTask task ∈ effects → task.currentState ∈ c.transition.birthplaces ∧
        ∀ (Y : Yaml) (v : Vault), Opened config Y v → (v.load Y).noteOf task.id = none →
          CreateAnswers config task.currentState (v.applyEffect Y (.createTask task))

/-- The states a worker's acceptances bring tasks into have boards, those of
a transition's task all one. -/
def Charted (w : CompiledWorkflow) (config : ObsidianAdapterConfig) : Prop :=
  ∀ t ∈ w.toDefinition.transitions.values, t.worker.isSome = true →
    (∀ state ∈ t.targets ++ t.birthplaces, (config.boardOf state).isSome = true) ∧
      ∀ state ∈ t.targets, config.boardOf state = config.boardOf t.fromState

/-- The text of a workflow whose worker takes tasks from a mapped state into
one that is not. -/
def unmappedSource : Value := .map [
  (.str "schema_version", .int 1),
  (.str "storage", .map [
    (.str "boards", .map [(.str "Work", .str "work.md")]),
    (.str "state_mappings", .list [.map [(.str "state", .str "Todo"), (.str "board", .str "Work"),
      (.str "column", .str "Todo")]])]),
  (.str "statements", .list [
    .map [(.str "kind", .str "state"), (.str "id", .str "Todo")],
    .map [(.str "kind", .str "state"), (.str "id", .str "Done"),
      (.str "terminal_outcome", .str "success")],
    .map [(.str "kind", .str "task_type"), (.str "id", .str "Task")],
    .map [(.str "kind", .str "worker"), (.str "id", .str "coder"), (.str "type", .str "noop")],
    .map [(.str "kind", .str "transition"), (.str "id", .str "finish"),
      (.str "task_type", .str "Task"), (.str "from", .str "Todo"), (.str "to", .str "Done"),
      (.str "worker", .str "coder")]])]

/-- The document it is. -/
def unmappedDocument : WorkflowDocument where
  schemaVersion := 1
  statements := [.state "Todo" none, .state "Done" (some "success"), .taskType "Task" [] [],
    .worker "coder" (some "noop") [],
    .transition { id := "finish", taskType := "Task", fromState := "Todo", toState := "Done",
                  worker := some "coder" }]
  storage := some [
    (.str "boards", .map [(.str "Work", .str "work.md")]),
    (.str "state_mappings", .list [.map [(.str "state", .str "Todo"), (.str "board", .str "Work"),
      (.str "column", .str "Todo")]])]

/-- Its definition. -/
def unmappedWorkflow : CompiledWorkflow :=
  { compiledTables unmappedDocument with
    storage := unmappedDocument.storage.map fun config =>
      freezeMapping (normalizedStorageConfig config) }

/-- The configuration of the tracker. -/
def unmappedConfig : ObsidianAdapterConfig where
  boards := Store.ofList [("Work", "work.md")]
  stateMappings := [⟨"Todo", "Work", "Todo"⟩]

/-- A tracker of it with one task. -/
def unmappedVault : Vault where
  mappings := unmappedConfig.stateMappings
  boards := unmappedConfig.boards
  boardFiles := Store.ofList [("work.md", [.column "Todo", .row "1-task"])]
  notes := Store.ofList [("1-task", serializeTask lineYaml
    { id := "1", title := "Task", currentState := "Todo", taskType := "Task" })]

theorem unmapped_loads :
    Loads builtinRegistries unmappedSource unmappedDocument unmappedWorkflow where
  built := by rfl
  accepted := ⟨by decide, by rfl⟩

theorem unmapped_opened : Opened unmappedConfig lineYaml unmappedVault where
  mappings := rfl
  boards := rfl
  loads := by decide +kernel
  columns m hm file lines hlines := by
    cases List.mem_singleton.mp hm
    cases hlines
    exact List.mem_cons_self

end Engine

end OpenTulid
