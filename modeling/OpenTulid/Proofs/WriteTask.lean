/-
`write_task` rewrites the note of a task, and what is read is what was written.

# One note

The note of the task is written anew, whatever it said before. Its id stays, so
every link and every card stays (`Clean.put_note`). A task that has no note gets
one, but no card: the project then lacks a card or has lost another task, by
counting (`not_writesOne`).

# The condition

`write_task_reads`: the task is read back as it was written, and nothing else is
another, if and only if its note is known, its text and its fields are read as
they are written, and its card shows its state.
-/
import OpenTulid.Proofs.CreateTask

namespace OpenTulid.Obsidian

open Boards (ReadText BoardDocument Place Row parseTaskRow)
open Boards (stripped)
open Frozen.Prompt (Text splitlines)

variable {py : Python} {p : Project} {tasks : List Task} {docs : List BoardDocument}
  {ids : List Text} {task task' old : Task} {name : Text} {file file' : ReadText}

-- =========================================================== what is promised

/-- The project is loaded again, the task is read as it was written, every other
task is as it was, and every card stands where it stood. -/
structure WritesOne (py : Python) (p p' : Project) (loaded : Loaded) (task : Task) : Prop where
  again : ∃ loaded', load py p' = some loaded' ∧ loaded'.errors = [] ∧
    (∃ read, (loaded'.tasks p'.mappings).lookup task.id = some read ∧
      CreatedTaskMatches read task) ∧
    (∀ other, other ≠ task.id →
      (loaded'.tasks p'.mappings).lookup other = (loaded.tasks p.mappings).lookup other) ∧
    loaded'.placed = loaded.placed

/-- When a task that is written is read back. -/
structure WriteFits (py : Python) (p : Project) (loaded : Loaded) (task : Task) (name : Text)
    (row : String × Row) : Prop where
  /-- the task has a note and a card -/
  known : loaded.namesById.lookup task.id = some name
  placed : loaded.placed.lookup task.id = some row
  text : TextFits py (stemOf name) task
  fields : FieldsFit py task
  /-- the card shows the state -/
  shown : shownState p.mappings row.1 row.2.column (namedState py task) = task.currentState

/-- A task that is written is read back, and one that is not changes nothing. -/
def WritesOrKeeps (py : Python) (p : Project) (loaded : Loaded) (task : Task)
    (outcome : WriteResult × Project) : Prop :=
  (outcome.1.accepted = true → WritesOne py p outcome.2 loaded task) ∧
  (outcome.1.accepted = false → outcome.2 = p)

-- ================================================================ the same id

/-- A note that is read with the id that it had. -/
theorem Clean.put_note (h : Clean py p tasks docs ids)
    (hentry : ((name, file), old) ∈ p.files.entries.zip tasks)
    (hread : ReadsAs py p (name, file') task') (hid : task'.id = old.id) :
    Clean py (p.put (.note name) file') (replaced p.files.entries tasks name task') docs ids ∧
      ((p.put (.note name) file').loadedOf (replaced p.files.entries tasks name task') docs
        ids).placed = (p.loadedOf tasks docs ids).placed := by
  have hget : p.files.get name = some file := Store.mem_entries.mp (List.of_mem_zip hentry).1
  have hids : (replaced p.files.entries tasks name task').map Task.id = tasks.map Task.id :=
    ids_replaced h.notes.length_eq fun e he heq => by
      rw [h.eq_of_name he hentry heq, hid]
  have hlink : ∀ note, (((p.put (.note name) file').index
      (replaced p.files.entries tasks name task')).get note).map Task.id =
        ((p.index tasks).get note).map Task.id :=
    link_indexOf (fun _ => rfl) (names_put hget) hids
  have hrowId : rowId ((p.put (.note name) file').index
      (replaced p.files.entries tasks name task')) = rowId (p.index tasks) := by
    funext row
    unfold rowId cardId
    rw [hlink]
  have hclean : Clean py (p.put (.note name) file') (replaced p.files.entries tasks name task') docs
      ids := by
    refine ⟨h.rootIsDir, ?_, hids.symm ▸ h.tasks_nodup, h.boards, ?_, h.ids_nodup, ?_⟩
    · show List.Forall₂ _ (p.files.put name file').entries _
      rw [entries_put hget]
      exact (reads_replaced h.notes hread).imp fun e t ht => ⟨ht.read, ht.structured⟩
    · exact h.cards.imp fun card id hcard => ⟨(hlink _).trans hcard.link, hcard.mapped⟩
    · intro t ht
      have hmem : t.id ∈ tasks.map Task.id := hids ▸ List.mem_map.mpr ⟨t, ht, rfl⟩
      obtain ⟨other, hother, hsame⟩ := List.mem_map.mp hmem
      exact hsame ▸ h.covered other hother
  refine ⟨hclean, ?_⟩
  rw [hclean.placed, h.placed, hrowId]
  rfl

/-- What a project with one note rewritten is loaded as. -/
theorem Clean.of_put_note (h : Clean py p tasks docs ids)
    (hentry : ((name, file), old) ∈ p.files.entries.zip tasks) {tasks' : List Task}
    {docs' : List BoardDocument} {ids' : List Text}
    (hclean : Clean py (p.put (.note name) file') tasks' docs' ids')
    (hknown : old.id ∈ tasks'.map Task.id) :
    ∃ task', ReadsAs py p (name, file') task' ∧ task'.id = old.id := by
  have hget : p.files.get name = some file := Store.mem_entries.mp (List.of_mem_zip hentry).1
  obtain ⟨task', hread⟩ : ∃ task', ReadsAs py p (name, file') task' := by
    have hmem : (name, file') ∈ (p.put (.note name) file').files.entries :=
      Store.mem_entries.mpr Store.get_put_self
    obtain ⟨k, hk, hat⟩ := List.getElem_of_mem hmem
    have hreads := hclean.notes.get hk (hclean.notes.length_eq ▸ hk)
    rw [List.get_eq_getElem, hat] at hreads
    exact ⟨_, hreads.read, hreads.structured⟩
  refine ⟨task', hread, ?_⟩
  have hnotes := hclean.notes
  have hentries : (p.put (.note name) file').files.entries =
      p.files.entries.map fun e => if e.1 = name then (name, file') else e := entries_put hget
  rw [hentries] at hnotes
  have htasks : tasks' = replaced p.files.entries tasks name task' :=
    reads_unique (hnotes.imp fun e t ht => ⟨ht.read, ht.structured⟩) (reads_replaced h.notes hread)
  obtain ⟨t, ht, hsame⟩ := List.mem_map.mp hknown
  rw [htasks] at ht
  obtain ⟨e, he, heq⟩ := List.mem_map.mp ht
  by_cases hname : e.1.1 = name
  · rw [if_pos hname] at heq
    rw [heq]
    exact hsame
  · rw [if_neg hname] at heq
    rw [← heq] at hsame
    exact absurd (congrArg (fun e => e.1.1) (h.eq_of_id he hentry hsame)) hname

/-- A task with a note is written, and nothing else, if and only if it is read as
it is written, in the state of its card. -/
theorem writesOne_iff (h : Clean py p tasks docs ids) (hid : isValidTaskId task.id = true)
    (hkeys : (task.metadata.map Prod.fst).Nodup) (hyaml : YamlKeeps py task)
    (hentry : ((name, file), old) ∈ p.files.entries.zip tasks) (hold : old.id = task.id)
    {row : String × Row} (hrow : (p.loadedOf tasks docs ids).placed.lookup task.id = some row) :
    WritesOne py p (p.put (.note name) (createdFile py task)) (p.loadedOf tasks docs ids) task ↔
      TextFits py (stemOf name) task ∧ FieldsFit py task ∧
        shownState p.mappings row.1 row.2.column (namedState py task) = task.currentState := by
  have hget : p.files.get name = some file := Store.mem_entries.mp (List.of_mem_zip hentry).1
  have hentries : ∀ file', (p.put (.note name) file').files.entries =
      p.files.entries.map fun e => if e.1 = name then (name, file') else e :=
    fun _ => entries_put hget
  -- the task that is loaded, once the note is read with the id
  have hlookup : ∀ {task' : Task}, ReadsAs py p (name, createdFile py task) task' →
      task'.id = task.id → ∃ tasks',
      Clean py (p.put (.note name) (createdFile py task)) tasks' docs ids ∧
      ((p.put (.note name) (createdFile py task)).loadedOf tasks' docs ids).placed =
        (p.loadedOf tasks docs ids).placed ∧
      (((p.put (.note name) (createdFile py task)).loadedOf tasks' docs ids).tasks
        p.mappings).lookup task.id = some { task' with
          currentState := shownState p.mappings row.1 row.2.column task'.currentState } ∧
      ∀ other, other ≠ task.id →
        (((p.put (.note name) (createdFile py task)).loadedOf tasks' docs ids).tasks
          p.mappings).lookup other =
          ((p.loadedOf tasks docs ids).tasks p.mappings).lookup other := by
    intro task' hread hid'
    obtain ⟨hclean, hplaced⟩ := h.put_note hentry hread (hid'.trans hold.symm)
    have hzip : (p.put (.note name) (createdFile py task)).files.entries.zip
        (replaced p.files.entries tasks name task') = (p.files.entries.zip tasks).map
          fun e => if e.1.1 = name then ((name, createdFile py task), task') else e := by
      rw [hentries, zip_replaced]
    refine ⟨_, hclean, hplaced, ?_, fun other hother => ?_⟩
    · have hmem : ((name, createdFile py task), task') ∈
          (p.put (.note name) (createdFile py task)).files.entries.zip
            (replaced p.files.entries tasks name task') := by
        rw [hzip]
        exact List.mem_map.mpr ⟨_, hentry, if_pos rfl⟩
      have hfound := hclean.lookup_task hmem p.mappings
      have hrow' : (p.loadedOf tasks docs ids).placed.lookup task'.id = some row := by
        rw [hid']
        exact hrow
      rw [stateForTaskId_eq, hplaced, hrow'] at hfound
      conv at hfound => lhs; rw [hid']
      exact hfound
    · refine h.lookup_other hclean (fun e he => ?_) (by rw [hplaced]) _
      rw [hzip]
      refine mem_replaced_iff (fun e' he' hname heq => ?_) (fun heq => ?_) he
      · rw [h.eq_of_name he' hentry hname] at heq
        exact hother (heq.symm.trans hold)
      · exact hother (heq.symm.trans hid')
  constructor
  · rintro ⟨loaded', hload, herrors, ⟨read, hread, hmatch⟩, -, -⟩
    obtain ⟨tasks', docs', ids', hclean, rfl⟩ := clean_of_load hload herrors
    obtain ⟨e, he, heid⟩ := mem_of_lookup_task hread
    obtain ⟨task', htask', hid'⟩ := h.of_put_note hentry hclean
      (List.mem_map.mpr ⟨e.2, (List.of_mem_zip he).2, heid.trans hold.symm⟩)
    obtain ⟨tasks'', hclean', -, hfound, -⟩ := hlookup htask' (hid'.trans hold)
    have hsame := hclean'.load
    rw [hload] at hsame
    rw [← Option.some.inj hsame] at hfound
    have hread : (((p.put (.note name) (createdFile py task)).loadedOf tasks' docs' ids').tasks
        p.mappings).lookup task.id = some read := hread
    rw [hread] at hfound
    rw [Option.some.inj hfound] at hmatch
    obtain ⟨htext, hfields, hnamed⟩ := fits_of_reads hkeys hyaml hid htask' hmatch
    have hstate : shownState p.mappings row.1 row.2.column task'.currentState = task.currentState :=
      hmatch.currentState
    rw [hnamed] at hstate
    exact ⟨htext, hfields, hstate⟩
  · rintro ⟨htext, hfields, hshown⟩
    obtain ⟨task', htask', hid', hnamed, hmatch⟩ :=
      @reads_created py task p name hkeys hyaml hid htext hfields
    obtain ⟨tasks', hclean, hplaced, hfound, hothers⟩ := hlookup htask' hid'
    rw [hnamed, hshown] at hfound
    exact ⟨_, hclean.load, rfl, ⟨_, hfound, hmatch⟩, hothers, hplaced⟩

-- ================================================================== a new id

/-- There are as many cards as tasks. -/
theorem Clean.length_ids (h : Clean py p tasks docs ids) : ids.length = tasks.length := by
  have hsub : tasks.map Task.id ⊆ ids := by
    intro id hmem
    obtain ⟨t, ht, rfl⟩ := List.mem_map.mp hmem
    exact h.covered t ht
  have hsup : ids ⊆ tasks.map Task.id := by
    intro id hmem
    rw [(cardReads_iff.mp h.cards).2] at hmem
    obtain ⟨row, hrow, rfl⟩ := List.mem_map.mp hmem
    obtain ⟨task, htask⟩ := Option.isSome_iff_exists.mp
      ((cardReads_iff.mp h.cards).1 row hrow).link
    unfold rowId cardId
    rw [htask]
    rcases mem_of_indexOf htask with hempty | ⟨entry, hentry, -⟩
    · cases hempty
    · exact List.mem_map.mpr ⟨task, (List.of_mem_zip hentry).2, rfl⟩
  have hle := (List.subperm_of_subset h.tasks_nodup hsub).length_le
  have hge := (List.subperm_of_subset h.ids_nodup hsup).length_le
  rw [List.length_map] at hle hge
  omega

/-- A task without a note is written without a card, so it is not read, or
another task is lost. -/
theorem not_writesOne (h : Clean py p tasks docs ids) (hnew : task.id ∉ tasks.map Task.id)
    (name : Text) (file' : ReadText) :
    ¬ WritesOne py p (p.put (.note name) file') (p.loadedOf tasks docs ids) task := by
  rintro ⟨loaded', hload, herrors, ⟨read, hread, -⟩, hothers, -⟩
  obtain ⟨tasks', docs', ids', hclean, rfl⟩ := clean_of_load hload herrors
  have hdocs : docs' = docs := docs_unique hclean.boards h.boards
  -- the boards are the same, so there are as many cards as before
  have hcards : ids'.length = ids.length := by
    rw [← h.cards.length_eq, ← hclean.cards.length_eq, hdocs]
    rfl
  have hall : task.id :: tasks.map Task.id ⊆ tasks'.map Task.id := by
    intro id hmem
    obtain ⟨t, ht⟩ : ∃ t, (((p.put (.note name) file').loadedOf tasks' docs' ids').tasks
        p.mappings).lookup id = some t := by
      rcases List.mem_cons.mp hmem with rfl | hmem
      · exact ⟨read, hread⟩
      · have hne : id ≠ task.id := by
          rintro rfl
          exact hnew hmem
        rw [← h.map_ids] at hmem
        obtain ⟨e, he, rfl⟩ := List.mem_map.mp hmem
        exact ⟨_, (hothers _ hne).trans (h.lookup_task he p.mappings)⟩
    obtain ⟨e, he, rfl⟩ := mem_of_lookup_task ht
    exact List.mem_map.mpr ⟨e.2, (List.of_mem_zip he).2, rfl⟩
  have hlength := (List.subperm_of_subset (List.nodup_cons.mpr ⟨hnew, h.tasks_nodup⟩) hall).length_le
  rw [List.length_cons, List.length_map, List.length_map, ← hclean.length_ids, hcards,
    h.length_ids] at hlength
  omega

-- ================================================================= the write

/-- What a loaded project knows of a task: its note and its row. -/
theorem Clean.known (h : Clean py p tasks docs ids) {id : Text} (hid : id ∈ tasks.map Task.id) :
    ∃ name file old row, ((name, file), old) ∈ p.files.entries.zip tasks ∧ old.id = id ∧
      (p.loadedOf tasks docs ids).namesById.lookup id = some name ∧
      (p.loadedOf tasks docs ids).placed.lookup id = some row := by
  rw [← h.map_ids] at hid
  obtain ⟨⟨⟨name, file⟩, old⟩, hentry, rfl⟩ := List.mem_map.mp hid
  have hcard : old.id ∈ (allRows p.boards docs).map (rowId (p.index tasks)) := by
    have hcovered := h.covered old (List.of_mem_zip hentry).2
    rw [(cardReads_iff.mp h.cards).2] at hcovered
    exact hcovered
  obtain ⟨row, hrow, hsame⟩ := List.mem_map.mp hcard
  refine ⟨name, file, old, row, hentry, rfl, h.lookup_name hentry, ?_⟩
  show _ = some row
  rw [← hsame]
  exact h.lookup_placed hrow

/-- `write_task`, when it is accepted, rewrites the task and nothing else, to be
read back as it was written, and changes no file when it is not, if and only if
the task is known, its text and its fields are read as they are written, and its
card shows its state. -/
theorem write_task_reads {fault : Option Fault} {loaded : Loaded} {outcome : WriteResult × Project}
    (hload : load py p = some loaded) (hclean : loaded.errors = [])
    (hid : isValidTaskId task.id = true) (hkeys : (task.metadata.map Prod.fst).Nodup)
    (hyaml : YamlKeeps py task) (hwrite : writeTask py fault p task = some outcome) :
    WritesOrKeeps py p loaded task outcome ↔
      (fault = none → ∃ name row, WriteFits py p loaded task name row) := by
  obtain ⟨tasks, docs, ids, h, rfl⟩ := clean_of_load hload hclean
  unfold writeTask at hwrite
  rw [hload] at hwrite
  dsimp only [Option.bind_eq_bind, Option.bind_some] at hwrite
  rw [if_neg (by simpa using hclean)] at hwrite
  obtain ⟨content, hcontent, rfl⟩ := Option.map_eq_some_iff.mp hwrite
  have hdocument : content = document (yamlOf py (taskFrontmatter task)) (taskText task) := by
    rw [serializeTask_eq] at hcontent
    unfold sortedEntries at hcontent
    split at hcontent
    next => exact (Option.some.inj hcontent).symm
    next => cases hcontent
  rw [hdocument]
  cases fault with
  | some f =>
      -- the note is the only file, so a write that fails leaves nothing of it
      exact ⟨fun _ => nofun, fun _ => ⟨nofun, fun _ => rfl⟩⟩
  | none =>
      have haccepts : ∀ name, WritesOrKeeps py p (p.loadedOf tasks docs ids) task
          (writePrepared none [(.note name, universalNewlines
            (document (yamlOf py (taskFrontmatter task)) (taskText task)))] p) ↔
          WritesOne py p (p.put (.note name) (createdFile py task)) (p.loadedOf tasks docs ids)
            task :=
        fun name => ⟨fun hwrites => hwrites.1 rfl, fun hwrites => ⟨fun _ => hwrites, nofun⟩⟩
      rw [haccepts]
      by_cases hknown : task.id ∈ tasks.map Task.id
      · obtain ⟨name, file, old, row, hentry, hold, hname, hrow⟩ := h.known hknown
        rw [hname, Option.getD_some, writesOne_iff h hid hkeys hyaml hentry hold hrow]
        constructor
        · rintro ⟨htext, hfields, hshown⟩ -
          exact ⟨name, row, hname, hrow, htext, hfields, hshown⟩
        · intro hfits
          obtain ⟨name', row', hfits⟩ := hfits rfl
          cases hname.symm.trans hfits.known
          cases hrow.symm.trans hfits.placed
          exact ⟨hfits.text, hfits.fields, hfits.shown⟩
      · refine ⟨fun hwrites => absurd hwrites (not_writesOne h hknown _ _), fun hfits => ?_⟩
        obtain ⟨name, row, hfits⟩ := hfits rfl
        rw [← map_fst_idNames h.notes.length_eq] at hknown
        cases (lookup_eq_none_iff.mpr hknown).symm.trans hfits.known

/-- A library that knows the frontmatters of the note of `oneColumn` and of the
note that is written over it. -/
def rewrittenYaml : Python :=
  { secondYaml with
    load := fun text =>
      if text = "id: 1".toList then .ok (.dict [(.str "id", .int 1)])
      else .ok (.dict [(.str "id", .str "1"), (.str "state", .str "ready"),
        (.str "type", .str "task")])
    dump := fun _ => "id: '1'\nstate: ready\ntype: task\n".toList }

set_option maxRecDepth 4000 in
theorem rewritten_task_reads : ∃ loaded outcome, load rewrittenYaml oneColumn = some loaded ∧
    loaded.errors = [] ∧
    writeTask rewrittenYaml none oneColumn { secondTask with id := "1".toList } = some outcome ∧
    outcome.1.accepted = true ∧
    (WritesOrKeeps rewrittenYaml oneColumn loaded { secondTask with id := "1".toList } outcome ↔
      ((none : Option Fault) = none → ∃ name row, WriteFits rewrittenYaml oneColumn loaded
        { secondTask with id := "1".toList } name row)) :=
  ⟨_, _, rfl, rfl, rfl, rfl, write_task_reads rfl rfl (by decide) List.nodup_nil rfl rfl⟩

end OpenTulid.Obsidian
