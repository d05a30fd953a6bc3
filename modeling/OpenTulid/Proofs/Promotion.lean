/-
Where promoted artifacts end up.

# The rule

A target is below the artifact root as far as the task and the type of the
artifact lead there: the last name of an accepted path is a plain name. No
artifact is lost as long as none is put at the target of another or above
it, and no target is a directory (`promotion_kept_iff`).

# The defect

The folders of a submitted path are not part of its target. Of the type
that a transition derives tasks from there may be several artifacts, and two
of them under one name in different folders share their target: the later
one replaces the earlier one, and the task lists one link for both.
-/
import OpenTulid.Proofs.Notes
import OpenTulid.Proofs.Verifier
import OpenTulid.Runtime.Promotion
import Mathlib.Data.List.Find

namespace OpenTulid.Promotion

open Fallible

-- ================================================================ one file

/-- The missing directories are there afterwards, and nothing else is
changed. -/
theorem makeDirs_node {t t' : FileTree} {ps : List RelPath} (h : makeDirs t ps = .ok t')
    (q : RelPath) : t'.node q = if q ∈ ps then some .dir else t.node q := by
  induction ps generalizing t with
  | nil =>
      cases h
      simp
  | cons p rest ih =>
      rw [makeDirs] at h
      split at h
      next hdir =>
        rw [ih h]
        by_cases hq : q = p
        · subst hq
          simp [hdir]
        · simp [hq]
      next =>
        split at h
        next => cases h
        next made hmade =>
          rw [ih h, FileTree.write_node hmade q]
          by_cases hq : q = p
          · subst hq
            simp [FsWrite.path, FileTree.written]
          · simp [FsWrite.path, hq]

/-- A file is put where no directory stands, with its bytes and its mode,
and nothing else is changed. -/
theorem fill_node {t t' : FileTree} {dst : RelPath} {image : FileImage}
    (h : fill t dst image = .ok t') :
    t.node dst ≠ some .dir ∧
      ∀ q, t'.node q = if q = dst then some (.file image) else t.node q := by
  obtain ⟨opened, hopened, h⟩ := bind_eq_ok.mp h
  obtain ⟨filled, hfilled, hmode⟩ := bind_eq_ok.mp h
  constructor
  · intro hdir
    simp only [FileTree.write] at hopened
    split at hopened
    next => cases hopened
    next =>
      split at hopened
      next =>
        split at hopened
        next => cases hopened
        next hn => rw [hdir] at hn; cases hn
        next hn => rw [hdir] at hn; cases hn
      next => cases hopened
  · have hopen : ∃ mode, opened.node dst = some (.file ⟨[], mode⟩) := by
      rw [FileTree.write_node hopened]
      simp only [FsWrite.path, if_true, FileTree.written]
      split
      next image _ => exact ⟨image.mode, rfl⟩
      next => exact ⟨_, rfl⟩
    obtain ⟨mode, hopen⟩ := hopen
    have hfill : filled.node dst = some (.file ⟨image.content, mode⟩) := by
      rw [FileTree.write_node hfilled]
      simp [FsWrite.path, FileTree.written, hopen]
    intro q
    rw [FileTree.write_node hmode, FileTree.write_node hfilled, FileTree.write_node hopened]
    by_cases hq : q = dst
    · subst hq
      simp [FsWrite.path, FileTree.written, hfill]
    · simp [FsWrite.path, hq]

/-- Where the copy ends up: at the target, or inside the directory it is. -/
def landing (t : FileTree) (item : PlannedArtifact) : RelPath :=
  if t.node item.target = some .dir then item.target ++ [item.sourceName] else item.target

theorem not_prefix_dropLast {p : RelPath} (h : p ≠ []) : ¬ p <+: p.dropLast := by
  intro hprefix
  have hlength := hprefix.length_le
  have hpos := List.length_pos_of_ne_nil h
  rw [List.length_dropLast] at hlength
  omega

/-- What the file part of an effect does: the folders above the target, and
the copy. -/
theorem placeFile_node {t t' : FileTree} {item : PlannedArtifact}
    (h : placeFile t item = .ok t') :
    ∃ image, item.source = .file image ∧
      (∀ q, t'.node q = if q = landing t item then some (.file image)
        else if q <+: item.target.dropLast then some .dir else t.node q) ∧
      (∀ q, t.node q = some .dir → t'.node q = some .dir) := by
  obtain ⟨made, hmade, hcopy⟩ := bind_eq_ok.mp h
  have hnode := makeDirs_node hmade
  simp only [List.mem_inits] at hnode
  have htarget : made.node item.target = some .dir ↔ t.node item.target = some .dir := by
    by_cases hnil : item.target = []
    · rw [hnil, FileTree.node_nil, FileTree.node_nil]
    · rw [hnode, if_neg (not_prefix_dropLast hnil)]
  unfold copy2 at hcopy
  split at hcopy
  next => cases hcopy
  next image hsource =>
    simp only [htarget] at hcopy
    change fill made (landing t item) image = .ok t' at hcopy
    obtain ⟨hfree, hfill⟩ := fill_node hcopy
    refine ⟨image, hsource, ?_, ?_⟩
    · intro q
      rw [hfill, hnode]
    · intro q hdir
      have hmadeDir : made.node q = some .dir := by
        rw [hnode]
        split
        next => rfl
        next => exact hdir
      rw [hfill, if_neg, hmadeDir]
      intro heq
      exact hfree (heq ▸ hmadeDir)

-- ================================================================ the task

section Links

theorem intercalate_ne {names : List String} (hsome : names ≠ []) (h : "" ∉ names) :
    "/".intercalate names ≠ "" := by
  cases names with
  | nil => exact absurd rfl hsome
  | cons first rest =>
      intro hnil
      have htext := congrArg String.toList hnil
      rw [String.toList_intercalate, List.map_cons] at htext
      have hfirst : first.toList = [] := by
        cases rest with
        | nil => simpa using htext
        | cons second rest =>
            have hlength := congrArg List.length htext
            simp at hlength
      exact h (String.toList_eq_nil_iff.mp hfirst ▸ List.mem_cons_self)

/-- The link of a path without empty names is not the empty text. -/
theorem artifactLink_ne {artifactRoot target : List String} (h : "" ∉ target) :
    artifactLink artifactRoot target ≠ "" := by
  unfold artifactLink
  dsimp only
  split
  next =>
    split
    next => decide
    next hrest => exact intercalate_ne hrest fun hmem => h (List.mem_of_mem_drop hmem)
  next =>
    unfold pathText
    intro hnil
    have hlength := congrArg (·.toList.length) hnil
    simp at hlength

theorem mem_dedup_foldl {links kept : List String} {link : String} :
    link ∈ links.foldl (fun kept l => if l ∈ kept then kept else kept ++ [l]) kept ↔
      link ∈ kept ∨ link ∈ links := by
  induction links generalizing kept with
  | nil => simp
  | cons first rest ih =>
      rw [List.foldl_cons, ih]
      split
      next hmem =>
        by_cases heq : link = first
        · subst heq
          simp [hmem]
        · simp [heq]
      next => simp [or_assoc]

theorem nodup_dedup_foldl {links kept : List String} (h : kept.Nodup) :
    (links.foldl (fun kept l => if l ∈ kept then kept else kept ++ [l]) kept).Nodup := by
  induction links generalizing kept with
  | nil => exact h
  | cons first rest ih =>
      rw [List.foldl_cons]
      apply ih
      split
      next => exact h
      next hnot => exact List.nodup_append.mpr ⟨h, List.nodup_singleton _, by
          intro a ha b hb
          rw [List.mem_singleton.mp hb]
          intro heq
          exact hnot (heq ▸ ha)⟩

theorem mem_dedupLinks {links : List String} {link : String} :
    link ∈ dedupLinks links ↔ link ∈ links := by
  rw [dedupLinks, mem_dedup_foldl]
  simp

theorem nodup_dedupLinks (links : List String) : (dedupLinks links).Nodup :=
  nodup_dedup_foldl List.nodup_nil

end Links

-- ============================================================ the tracker

section Notes

variable {t t' : Tracker}

/-- What loading looks at of a note: its id and the headings it repeats. -/
def SameNote (a b : Task) : Prop :=
  a.id = b.id ∧ a.body.duplicateHeadingNames = b.body.duplicateHeadingNames

/-- The note of a task as it is with other links. -/
theorem sameNote_write (task : Task) (links : List String) :
    SameNote (taskWithLinks task links).write task := by
  refine ⟨rfl, ?_⟩
  have hheadings : (taskWithLinks task links).write.body.headings = task.body.headings := by
    unfold Task.write
    dsimp only
    rw [Body.headings_trimEnd, Body.headings_append, Body.headings_trimStart,
      Body.headings_stripLeadingTitle]
    split
    next => rfl
    next => rfl
  unfold Body.duplicateHeadingNames
  rw [hheadings]

/-- One note is replaced by another that loading takes for the same. -/
structure Renoted (t t' : Tracker) (name : String) (old note : Task) : Prop where
  found : t.notes.get name = some old
  same : SameNote note old
  put : t' = { t with notes := t.notes.put name note }

/-- The notes of the tracker with one replaced. -/
theorem Renoted.entries {name : String} {old note : Task} (h : Renoted t t' name old note) :
    t'.notes.entries = t.notes.entries.map fun e => if e.1 = name then (name, note) else e := by
  rw [h.put]
  exact Store.putEntry_eq_map t.notes.sorted h.found

/-- Each note is replaced by one of the same name that loading takes for
the same. -/
theorem Renoted.each {name : String} {old note : Task} (h : Renoted t t' name old note) :
    ∀ e ∈ t.notes.entries, (if e.1 = name then (name, note) else e).1 = e.1 ∧
      SameNote (if e.1 = name then (name, note) else e).2 e.2 := by
  intro e he
  split
  next heq =>
    refine ⟨heq.symm, ?_⟩
    have hget : t.notes.get e.1 = some e.2 := Store.mem_entries.mp he
    rw [heq, h.found] at hget
    exact Option.some.inj hget ▸ h.same
  next => exact ⟨rfl, rfl, rfl⟩

theorem noteErrors_go_map {f : String × Task → String × Task} {seen : List TaskId}
    {l : List (String × Task)} (h : ∀ e ∈ l, (f e).1 = e.1 ∧ SameNote (f e).2 e.2) :
    Tracker.noteErrors.go seen (l.map f) = Tracker.noteErrors.go seen l := by
  induction l generalizing seen with
  | nil => rfl
  | cons head rest ih =>
      obtain ⟨hname, hid, hheadings⟩ := h head List.mem_cons_self
      have hrest := fun e he => h e (List.mem_cons_of_mem _ he)
      rw [List.map_cons, Tracker.noteErrors.go, Tracker.noteErrors.go, hname, hid, hheadings,
        ih hrest, ih hrest]

theorem cardErrors_go_congr {seen : List String} {cards : List Card}
    (hmappings : t'.mappings = t.mappings)
    (hnotes : ∀ name, (t'.notes.get name).map (·.id) = (t.notes.get name).map (·.id)) :
    Tracker.cardErrors.go t' seen cards = Tracker.cardErrors.go t seen cards := by
  induction cards generalizing seen with
  | nil => rfl
  | cons c rest ih =>
      have hc := hnotes c.note
      have hcolumn : t'.stateForBoardColumn c.board c.column =
          t.stateForBoardColumn c.board c.column := by
        unfold Tracker.stateForBoardColumn
        rw [hmappings]
      rw [Tracker.cardErrors.go, Tracker.cardErrors.go]
      cases hold : t.notes.get c.note with
      | none =>
          rw [hold] at hc
          rw [Option.map_eq_none_iff.mp hc]
          dsimp only
          rw [ih]
      | some old =>
          rw [hold] at hc
          obtain ⟨new, hnew, hid⟩ := Option.map_eq_some_iff.mp hc
          rw [hnew]
          dsimp only
          rw [hcolumn, hid, ih, ih]

/-- Loading finds the same errors. -/
theorem Renoted.loadErrors {name : String} {old note : Task} (h : Renoted t t' name old note) :
    t'.loadErrors = t.loadErrors := by
  have hmappings : t'.mappings = t.mappings := by rw [h.put]
  have hcards : t'.cards = t.cards := by rw [h.put]
  have hids : ∀ other, (t'.notes.get other).map (·.id) = (t.notes.get other).map (·.id) := by
    intro other
    rw [h.put]
    dsimp only
    rw [Store.get_put]
    split
    next heq =>
      rw [heq, h.found]
      exact congrArg some h.same.1
    next => rfl
  have hmissing : t'.missingCardErrors = t.missingCardErrors := by
    unfold Tracker.missingCardErrors
    rw [h.entries, hcards, List.filter_map, List.map_map]
    have hfilter : t.notes.entries.filter
        ((fun e : String × Task => t.cards.all fun c => c.note ≠ e.1) ∘
          fun e => if e.1 = name then (name, note) else e) =
        t.notes.entries.filter fun e => t.cards.all fun c => c.note ≠ e.1 := by
      refine List.filter_congr fun e he => ?_
      rw [Function.comp_apply, (h.each e he).1]
    rw [hfilter]
    refine List.map_congr_left fun e he => ?_
    rw [Function.comp_apply, (h.each e (List.mem_filter.mp he).1).2.1]
  unfold Tracker.loadErrors Tracker.noteErrors Tracker.cardErrors
  rw [h.entries, noteErrors_go_map h.each, cardErrors_go_congr hmappings hids, hcards, hmissing]

/-- A task is found under the same name. -/
theorem Renoted.noteOf {name : String} {old note : Task} (h : Renoted t t' name old note)
    {id : TaskId} (hof : t.noteOf id = some (name, old)) : t'.noteOf id = some (name, note) := by
  unfold Tracker.noteOf at hof ⊢
  rw [h.entries, List.find?_map]
  have hsame : t.notes.entries.find? ((fun e : String × Task => decide (e.2.id = id)) ∘
      fun e => if e.1 = name then (name, note) else e) =
      t.notes.entries.find? fun e => decide (e.2.id = id) := by
    refine List.find?_congr fun e he => ?_
    rw [Function.comp_apply, (h.each e he).2.1]
  rw [hsame, hof]
  simp

theorem readTask_eq_ok {id : TaskId} {task : Task} (h : t.readTask id = .ok task) :
    t.loadErrors = [] ∧ ∃ name note, t.noteOf id = some (name, note) ∧
      task = t.loadedTask name note := by
  unfold Tracker.readTask at h
  split at h
  next hload =>
    split at h
    next name note hof =>
      cases h
      exact ⟨hload, name, note, hof, rfl⟩
    next => cases h
  next => cases h

/-- A task that can be read can be read with the links written to it. -/
theorem readTask_writeTask {id : TaskId} {task : Task} {links : List String}
    (hread : t.readTask id = .ok task)
    (hwrite : t.writeTask (taskWithLinks task links) = .ok t') :
    ∃ task', t'.readTask id = .ok task' ∧ task'.artifactLinks = links := by
  obtain ⟨hload, name, note, hof, rfl⟩ := readTask_eq_ok hread
  have hmem := List.mem_of_find?_eq_some hof
  have hid : note.id = id := by simpa using List.find?_some hof
  have hsame : SameNote (taskWithLinks (t.loadedTask name note) links).write note :=
    sameNote_write (t.loadedTask name note) links
  unfold Tracker.writeTask at hwrite
  have hname : t.noteOf (taskWithLinks (t.loadedTask name note) links).id = some (name, note) := by
    show t.noteOf note.id = _
    rw [hid, hof]
  rw [if_pos hload, hname] at hwrite
  have hre : Renoted t t' name note (taskWithLinks (t.loadedTask name note) links).write :=
    { found := Store.mem_entries.mp hmem
      same := hsame
      put := (Except.ok.inj hwrite).symm }
  refine ⟨t'.loadedTask name (taskWithLinks (t.loadedTask name note) links).write, ?_, rfl⟩
  unfold Tracker.readTask
  rw [if_pos (hre.loadErrors.trans hload), hre.noteOf hof]

/-- A task that can be read can be written. -/
theorem writeTask_of_read {id : TaskId} {task other : Task} (hread : t.readTask id = .ok task) :
    ∃ t', t.writeTask other = .ok t' := by
  unfold Tracker.writeTask
  rw [if_pos (readTask_eq_ok hread).1]
  exact ⟨_, rfl⟩

end Notes

-- ================================================================= the run

section Run

variable {taskId : String} {items : List PlannedArtifact} {s final : State}

/-- An effect that succeeds has placed the file and written the link. -/
theorem promoteArtifact_ok {item : PlannedArtifact} {s' : State}
    (h : promoteArtifact taskId s item = .ok s') :
    placeFile s.tree item = .ok s'.tree ∧
      addLink s.tracker taskId item.link = .ok s'.tracker := by
  unfold promoteArtifact at h
  split at h
  next => cases h
  next tree htree =>
    cases hlink : addLink s.tracker taskId item.link with
    | error errors =>
        rw [hlink] at h
        cases h
    | ok tracker =>
        rw [hlink] at h
        cases h
        exact ⟨htree, rfl⟩

/-- Writing the link does not fail. -/
theorem addLink_gives (tracker : Tracker) (taskId link : String) :
    ∃ tracker', addLink tracker taskId link = .ok tracker' := by
  unfold addLink
  split
  next => exact ⟨tracker, rfl⟩
  next =>
    split
    next => exact ⟨tracker, rfl⟩
    next task hread => exact writeTask_of_read hread

/-- An effect succeeds once the file can be placed. -/
theorem promoteArtifact_of_placeFile (taskId : String) {s : State} {item : PlannedArtifact}
    {tree : FileTree} (h : placeFile s.tree item = .ok tree) :
    ∃ s', promoteArtifact taskId s item = .ok s' ∧ s'.tree = tree := by
  obtain ⟨tracker, htracker⟩ := addLink_gives s.tracker taskId item.link
  refine ⟨⟨tree, tracker⟩, ?_, rfl⟩
  unfold promoteArtifact
  rw [h]
  dsimp only
  rw [htracker]
  rfl

theorem promoteAll_cons {item : PlannedArtifact}
    (h : promoteAll taskId (item :: items) s = .ok final) :
    ∃ s', promoteArtifact taskId s item = .ok s' ∧ promoteAll taskId items s' = .ok final := by
  unfold promoteAll at h
  rw [List.foldlM_cons] at h
  exact bind_eq_ok.mp h

/-- Directories stay directories. -/
theorem promoteAll_dirs {q : RelPath} (h : promoteAll taskId items s = .ok final)
    (hdir : s.tree.node q = some .dir) : final.tree.node q = some .dir := by
  induction items generalizing s with
  | nil =>
      cases h
      exact hdir
  | cons item rest ih =>
      obtain ⟨s', hstep, hrest⟩ := promoteAll_cons h
      obtain ⟨image, -, -, hdirs⟩ := placeFile_node (promoteArtifact_ok hstep).1
      exact ih hrest (hdirs q hdir)

/-- None of two targets is the other or above it. -/
def Apart (a b : PlannedArtifact) : Prop :=
  ¬ a.target <+: b.target ∧ ¬ b.target <+: a.target

/-- A path that the copies and their folders avoid keeps what it holds. -/
theorem placeFile_frame {t t' : FileTree} {item : PlannedArtifact}
    (h : placeFile t item = .ok t') (hfree : t.node item.target ≠ some .dir) {q : RelPath}
    (hq : ¬ q <+: item.target) : t'.node q = t.node q := by
  obtain ⟨image, -, hnode, -⟩ := placeFile_node h
  have hne : q ≠ landing t item := by
    rw [landing, if_neg hfree]
    intro heq
    exact hq (heq ▸ List.prefix_refl _)
  rw [hnode, if_neg hne, if_neg]
  intro habove
  exact hq (habove.trans (List.dropLast_prefix _))

/-- With the targets apart and no directories, every artifact is there at
the end. -/
theorem promoteAll_files (h : promoteAll taskId items s = .ok final)
    (hapart : items.Pairwise Apart)
    (hfree : ∀ item ∈ items, s.tree.node item.target ≠ some .dir) :
    (∀ item ∈ items, ∃ image, item.source = .file image ∧
        final.tree.node item.target = some (.file image)) ∧
      ∀ q, (∀ item ∈ items, ¬ q <+: item.target) → final.tree.node q = s.tree.node q := by
  induction items generalizing s with
  | nil =>
      cases h
      exact ⟨by simp, fun _ _ => rfl⟩
  | cons item rest ih =>
      obtain ⟨s', hstep, hrest⟩ := promoteAll_cons h
      have hplace := (promoteArtifact_ok hstep).1
      have hitem := hfree item List.mem_cons_self
      obtain ⟨hothers, hpairs⟩ := List.pairwise_cons.mp hapart
      have hstill : ∀ other ∈ rest, s'.tree.node other.target ≠ some .dir := by
        intro other hother
        rw [placeFile_frame hplace hitem (hothers other hother).2]
        exact hfree other (List.mem_cons_of_mem _ hother)
      obtain ⟨hfiles, hframe⟩ := ih hrest hpairs hstill
      constructor
      · intro placed hplaced
        rcases List.mem_cons.mp hplaced with rfl | hplaced
        · obtain ⟨image, hsource, hnode, -⟩ := placeFile_node hplace
          refine ⟨image, hsource, ?_⟩
          rw [hframe _ fun other hother => (hothers other hother).1, hnode, landing,
            if_neg hitem, if_pos rfl]
        · exact hfiles placed hplaced
      · intro q hq
        rw [hframe q fun other hother => hq other (List.mem_cons_of_mem _ hother)]
        exact placeFile_frame hplace hitem (hq item List.mem_cons_self)

/-- A task that cannot be read is left as it is. -/
theorem addLink_unread {tracker tracker' : Tracker} {link : String}
    (h : addLink tracker taskId link = .ok tracker')
    (hread : ∀ task, tracker.readTask taskId ≠ .ok task) : tracker' = tracker := by
  unfold addLink at h
  split at h
  next =>
    cases h
    rfl
  next =>
    split at h
    next =>
      cases h
      rfl
    next task htask => exact absurd htask (hread task)

/-- A task that can be read has the link afterwards. -/
theorem addLink_read {tracker tracker' : Tracker} {link : String} {task : Task}
    (h : addLink tracker taskId link = .ok tracker') (hlink : link ≠ "")
    (hread : tracker.readTask taskId = .ok task) :
    ∃ task', tracker'.readTask taskId = .ok task' ∧
      task'.artifactLinks = dedupLinks (task.artifactLinks ++ [link]) := by
  unfold addLink at h
  rw [if_neg hlink, hread] at h
  exact readTask_writeTask hread h

theorem promoteAll_unread (h : promoteAll taskId items s = .ok final)
    (hread : ∀ task, s.tracker.readTask taskId ≠ .ok task) : final.tracker = s.tracker := by
  induction items generalizing s with
  | nil =>
      cases h
      rfl
  | cons item rest ih =>
      obtain ⟨s', hstep, hrest⟩ := promoteAll_cons h
      have hsame := addLink_unread (promoteArtifact_ok hstep).2 hread
      rw [← hsame]
      refine ih hrest ?_
      rw [hsame]
      exact hread

/-- A task that can be read lists the links it had and those of the
artifacts, each once. -/
theorem promoteAll_links {task : Task} (h : promoteAll taskId items s = .ok final)
    (hlinks : ∀ item ∈ items, item.link ≠ "")
    (hread : s.tracker.readTask taskId = .ok task) :
    ∃ task', final.tracker.readTask taskId = .ok task' ∧
      (task.artifactLinks ⊆ task'.artifactLinks) ∧
      (∀ item ∈ items, item.link ∈ task'.artifactLinks) ∧
      (task.artifactLinks.Nodup ∨ items ≠ [] → task'.artifactLinks.Nodup) := by
  induction items generalizing s task with
  | nil =>
      cases h
      exact ⟨task, hread, List.Subset.refl _, by simp, by simp⟩
  | cons item rest ih =>
      obtain ⟨s', hstep, hrest⟩ := promoteAll_cons h
      obtain ⟨made, hmade, hlist⟩ :=
        addLink_read (promoteArtifact_ok hstep).2 (hlinks item List.mem_cons_self) hread
      obtain ⟨task', hfinal, hkept, hadded, honce⟩ :=
        ih hrest (fun other hother => hlinks other (List.mem_cons_of_mem _ hother)) hmade
      have hnodup : made.artifactLinks.Nodup := by
        rw [hlist]
        exact nodup_dedupLinks _
      refine ⟨task', hfinal, ?_, ?_, fun _ => honce (Or.inl hnodup)⟩
      · intro link hlink
        apply hkept
        rw [hlist, mem_dedupLinks]
        exact List.mem_append_left _ hlink
      · intro other hother
        rcases List.mem_cons.mp hother with rfl | hother
        · apply hkept
          rw [hlist, mem_dedupLinks]
          simp
        · exact hadded other hother

end Run

-- ================================================================ the plan

/-- A path at another or below it, without a step up on the way, which the
verifier takes for leaving, too. -/
def Below (root path : List String) : Prop := ∃ rest, path = root ++ rest ∧ ".." ∉ rest

/-- A path below another. -/
def Inside (root path : List String) : Prop :=
  ∃ rest, rest ≠ [] ∧ path = root ++ rest ∧ ".." ∉ rest

section FileNames

variable {P : Verify.Settings} {artifact : Verify.ArtifactSubmission} {source : Node}

/-- The last name of a path has no slash, and is no step up where the path
has none. -/
theorem nameOf_plain {text : String} (h : ".." ∉ PosixPath.parts text) :
    '/' ∉ (nameOf text).toList ∧ nameOf text ≠ "." ∧ nameOf text ≠ ".." := by
  unfold nameOf
  cases hlast : (PosixPath.parts text).getLast? with
  | none => decide
  | some name =>
      have hmem : name ∈ PosixPath.parts text := List.mem_of_getLast? hlast
      refine ⟨PosixPath.not_slash_of_mem_parts hmem, (PosixPath.ne_of_mem_parts hmem).2, ?_⟩
      intro hup
      exact h (hup ▸ hmem)

theorem splitSuffix_chars {name : String} {c : Char} (h : c ∉ name.toList) (hdot : c ≠ '.') :
    c ∉ (splitSuffix name).1.toList ∧ c ∉ (splitSuffix name).2.toList := by
  unfold splitSuffix
  dsimp only
  split
  next => exact ⟨h, by simp⟩
  next =>
    rw [String.toList_ofList, String.toList_ofList]
    constructor
    · intro hmem
      exact h (List.mem_reverse.mp (List.mem_of_mem_drop (List.mem_reverse.mp hmem)))
    · intro hmem
      rcases List.mem_cons.mp hmem with rfl | hmem
      · exact hdot rfl
      · exact h (List.mem_reverse.mp ((List.takeWhile_sublist _).subset (List.mem_reverse.mp hmem)))

/-- The file name of an accepted path is a plain name. -/
theorem fileName_plain (hhex : ∀ content, '/' ∉ (P.sha256 content).toList)
    (h : ".." ∉ PosixPath.parts artifact.path) :
    '/' ∉ (fileName P artifact source).toList ∧ fileName P artifact source ≠ "." ∧
      fileName P artifact source ≠ ".." := by
  obtain ⟨hslash, hdot, hup⟩ := nameOf_plain h
  unfold fileName
  dsimp only
  split
  next =>
    have hhash : '/' ∉ (contentHash P source).toList := by
      unfold contentHash
      split
      next image =>
        rw [String.toList_ofList]
        exact fun hmem => hhex _ (List.mem_of_mem_take hmem)
      next => decide
    obtain ⟨hstem, hsuffix⟩ := splitSuffix_chars hslash (by decide)
    generalize splitSuffix (nameOf artifact.path) = pieces at hstem hsuffix ⊢
    obtain ⟨stem, suffix⟩ := pieces
    have hname : (s!"{stem}-{contentHash P source}{suffix}").toList =
        stem.toList ++ '-' :: (contentHash P source).toList ++ suffix.toList := by
      simp [String.toList_append, toString]
    have hdash : '-' ∈ (s!"{stem}-{contentHash P source}{suffix}").toList := by
      rw [hname]
      simp
    refine ⟨?_, ?_, ?_⟩
    · rw [hname]
      simp [hstem, hsuffix, hhash]
    · intro heq
      rw [heq] at hdash
      exact absurd hdash (by decide)
    · intro heq
      rw [heq] at hdash
      exact absurd hdash (by decide)
  next => exact ⟨hslash, hdot, hup⟩

end FileNames

-- ============================================================== accepted

section Accepted

variable {W V : Type} {m : Verify.Machine W} {patternMatches : String → RelPath → Bool → Bool}
  {P : Verify.Settings} {validators : Verify.Validators W V}

/-- Parts that are found not to escape have no step up. -/
theorem not_climbs_of_escapesFrom {d : Links.Disk Content} {place current : Links.Place}
    {parts : List String} (h : Verify.escapesFrom P d place current parts = .ok false) :
    ".." ∉ parts := by
  induction parts generalizing current with
  | nil => simp
  | cons part rest ih =>
      rw [Verify.escapesFrom] at h
      split at h
      next =>
        have hfalse := pure_eq_ok.mp h
        cases hfalse
      next hup =>
        have hrest : ".." ∉ rest := by
          split at h
          next =>
            obtain ⟨resolved, -, h⟩ := bind_eq_ok.mp h
            split at h
            next =>
              have hfalse := pure_eq_ok.mp h
              cases hfalse
            next => exact ih h
          next => exact ih h
        intro hmem
        rcases List.mem_cons.mp hmem with heq | hmem
        · exact hup heq.symm
        · exact hrest hmem

/-- The path of an artifact without complaints has no step up. -/
theorem not_climbs_of_artifactErrors {d : Links.Disk Content} {root allowed : List String}
    {artifact : Verify.ArtifactSubmission}
    (h : Verify.artifactErrors P d root allowed artifact = .ok []) :
    ".." ∉ PosixPath.parts artifact.path := by
  unfold Verify.artifactErrors at h
  obtain ⟨contained, -, h⟩ := bind_eq_ok.mp h
  cases contained with
  | none =>
      have hnil := pure_eq_ok.mp h
      simp at hnil
  | some place =>
      obtain ⟨escapes, hescapes, h⟩ := bind_eq_ok.mp h
      split at h
      next =>
        have hnil := pure_eq_ok.mp h
        simp at hnil
      next hfalse =>
        obtain ⟨start, -, hfrom⟩ := bind_eq_ok.mp hescapes
        rw [Bool.not_eq_true] at hfalse
        rw [hfalse] at hfrom
        exact not_climbs_of_escapesFrom hfrom

/-- The paths of an accepted submission are different, and none has a step
up. -/
theorem accepted_paths {executor : Verify.Executor W} {request : Verify.Request} {w : W}
    {result : Verify.VerificationResult}
    (hresult : Verify.verify m patternMatches P executor validators request w = .ok result)
    (haccepted : result.accepted = true) :
    (request.artifacts.map (·.path)).Nodup ∧
      ∀ artifact ∈ request.artifacts, ".." ∉ PosixPath.parts artifact.path := by
  unfold Verify.verify at hresult
  obtain ⟨⟨made, enforcement, after⟩, -, hresult⟩ := bind_eq_ok.mp hresult
  obtain ⟨later, hlater, hresult⟩ := bind_eq_ok.mp hresult
  cases pure_eq_ok.mp hresult
  have hnil := List.isEmpty_iff.mp haccepted
  obtain ⟨-, rfl⟩ := List.append_eq_nil_iff.mp hnil
  refine ⟨(Verify.submissionErrors_nil (Verify.laterErrors_nil hlater).1).2.2, ?_⟩
  intro artifact hartifact
  exact not_climbs_of_artifactErrors (Verify.artifactErrors_of_laterErrors hlater hartifact)

end Accepted

-- ============================================================= the targets

section Targets

variable (P : Verify.Settings) (files : String → Option Node) (root : List String)
  (taskId : String)

/-- The file name that what is submitted gives an artifact. -/
def nameIn (artifact : Verify.ArtifactSubmission) : String :=
  match files artifact.path with
  | some source => fileName P artifact source
  | none => nameOf artifact.path

/-- The file name in the folder that the task and the type name. -/
def placeOf (artifact : Verify.ArtifactSubmission) : List String :=
  join (folderOf root taskId artifact) (nameIn P files artifact)

/-- What a plan says of one artifact. -/
structure PlannedFor (artifact : Verify.ArtifactSubmission) (item : PlannedArtifact) : Prop where
  same : item.artifact = artifact
  source : files artifact.path = some item.source
  target : item.target = placeOf P files root taskId artifact
  link : item.link = artifactLink root item.target

variable {P files root taskId}

theorem planArtifact_ok {outputDir : List String} {artifact : Verify.ArtifactSubmission}
    {item : PlannedArtifact}
    (h : planArtifact P files outputDir root taskId artifact = .ok item) :
    PlannedFor P files root taskId artifact item := by
  unfold planArtifact at h
  split at h
  next => cases h
  next source hsource =>
    cases h
    have hname : nameIn P files artifact = fileName P artifact source := by
      rw [nameIn, hsource]
    exact {
      same := rfl
      source := hsource
      target := by rw [placeOf, hname]
      link := rfl }

/-- The plan has an item for each artifact, in their order. -/
theorem promotionPlan_ok {outputDir : List String} {artifacts : List Verify.ArtifactSubmission}
    {items : List PlannedArtifact}
    (h : promotionPlan P files outputDir (some root) taskId artifacts = .ok items) :
    items.map (·.artifact) = artifacts ∧
      ∀ item ∈ items, PlannedFor P files root taskId item.artifact item := by
  have hall := mapM_eq_ok.mp h
  induction hall with
  | nil => exact ⟨rfl, by simp⟩
  | cons hitem hrest ih =>
      have hplanned := planArtifact_ok hitem
      obtain ⟨hmap, hothers⟩ := ih (mapM_eq_ok.mpr hrest)
      constructor
      · rw [List.map_cons, hmap, hplanned.same]
      · intro item hmem
        rcases List.mem_cons.mp hmem with rfl | hmem
        · rw [hplanned.same]
          exact hplanned
        · exact hothers item hmem

/-- Below a path without empty names there are none. -/
theorem not_empty_join {base : List String} {text : String} (h : "" ∉ base) :
    "" ∉ join base text := by
  have hparts : "" ∉ PosixPath.parts text := fun hmem => (PosixPath.ne_of_mem_parts hmem).1 rfl
  unfold join
  split
  next => exact hparts
  next =>
    intro hmem
    rcases List.mem_append.mp hmem with hmem | hmem
    · exact h hmem
    · exact hparts hmem

theorem join_plain {base : List String} {name : String} (h : '/' ∉ name.toList)
    (hdot : name ≠ ".") : join base name = base ++ if name = "" then [] else [name] := by
  have habsolute : PosixPath.isAbsolute name = false := by
    unfold PosixPath.isAbsolute
    cases hname : name.toList with
    | nil => rfl
    | cons first rest =>
        rw [hname] at h
        have hfirst : first ≠ '/' := fun heq => h (heq ▸ List.mem_cons_self)
        simpa using hfirst
  unfold join
  rw [habsolute, PosixPath.parts_of_not_slash h hdot]
  rfl

/-- A target is inside the root if and only if its folder is at or below the
root, and below it where the file has no name of its own. -/
theorem inside_join_iff {folder : List String} {name : String} (h : '/' ∉ name.toList)
    (hdot : name ≠ ".") (hup : name ≠ "..") :
    Inside root (join folder name) ↔ Below root folder ∧ (name = "" → folder ≠ root) := by
  rw [join_plain h hdot]
  by_cases hname : name = ""
  · simp only [hname, if_true, List.append_nil, true_imp_iff]
    constructor
    · rintro ⟨rest, hrest, rfl, hclimb⟩
      exact ⟨⟨rest, rfl, hclimb⟩, by simpa using hrest⟩
    · rintro ⟨⟨rest, rfl, hclimb⟩, hne⟩
      exact ⟨rest, by simpa using hne, rfl, hclimb⟩
  · simp only [hname, if_false, false_imp_iff, and_true]
    constructor
    · rintro ⟨rest, hrest, heq, hclimb⟩
      refine ⟨rest.dropLast, ?_, fun hmem => hclimb (List.mem_of_mem_dropLast hmem)⟩
      have hfolder := congrArg List.dropLast heq
      rwa [List.dropLast_concat, List.dropLast_append_of_ne_nil hrest] at hfolder
    · rintro ⟨rest, rfl, hclimb⟩
      refine ⟨rest ++ [name], by simp, by simp, ?_⟩
      intro hmem
      rcases List.mem_append.mp hmem with hmem | hmem
      · exact hclimb hmem
      · exact hup (List.mem_singleton.mp hmem).symm

end Targets

-- ================================================================= promotion

section Promotion

variable (P : Verify.Settings) (files : String → Option Node)

/-- Nothing that was submitted is lost: the targets are different and inside
the artifact root, the bytes of each artifact are at its target, and its
link is listed once. -/
structure Kept (artifactRoot : Option (List String)) (taskId : String)
    (artifacts : List Verify.ArtifactSubmission) (items : List PlannedArtifact)
    (final : State) : Prop where
  distinct : ∀ a ∈ items, ∀ b ∈ items, a.artifact.path ≠ b.artifact.path → a.target ≠ b.target
  inside : ∀ item ∈ items, ∃ root, artifactRoot = some root ∧ Inside root item.target
  present : ∀ artifact ∈ artifacts, ∃ item ∈ items, item.artifact = artifact ∧
    ∃ image found, files artifact.path = some (.file image) ∧
      final.tree.file? item.target = some found ∧ found.content = image.content
  linked : ∀ item ∈ items, ∃ task, final.tracker.readTask taskId = .ok task ∧
    task.artifactLinks.count item.link = 1

/-- When that is so: the task and the types lead below the artifact root, no
file name in its folder is that of another artifact or above it, no
directory is there before, and the task can be read. -/
structure Placeable (root : List String) (taskId : String)
    (artifacts : List Verify.ArtifactSubmission) (s : State) : Prop where
  folders : ∀ a ∈ artifacts, Below root (folderOf root taskId a) ∧
    (nameIn P files a = "" → folderOf root taskId a ≠ root)
  apart : ∀ a ∈ artifacts, ∀ b ∈ artifacts, a.path ≠ b.path →
    ¬ placeOf P files root taskId a <+: placeOf P files root taskId b
  free : ∀ a ∈ artifacts, s.tree.node (placeOf P files root taskId a) ≠ some .dir
  readable : ∃ task, s.tracker.readTask taskId = .ok task

variable {P files} {root : List String} {taskId : String}
  {artifacts : List Verify.ArtifactSubmission} {items : List PlannedArtifact} {s final : State}

theorem nameIn_plain (hhex : ∀ content, '/' ∉ (P.sha256 content).toList)
    {artifact : Verify.ArtifactSubmission} (h : ".." ∉ PosixPath.parts artifact.path) :
    '/' ∉ (nameIn P files artifact).toList ∧ nameIn P files artifact ≠ "." ∧
      nameIn P files artifact ≠ ".." := by
  unfold nameIn
  split
  next => exact fileName_plain hhex h
  next => exact nameOf_plain h

/-- Types that are plain names come between artifacts only where they are
the same: then so are the file names. -/
theorem placeOf_prefix_iff {a b : Verify.ArtifactSubmission}
    (htype : ∀ artifact ∈ [a, b], '/' ∉ artifact.type.toList ∧ artifact.type ≠ "." ∧
      artifact.type ≠ "")
    (hname : ∀ artifact ∈ [a, b], '/' ∉ (nameIn P files artifact).toList ∧
      nameIn P files artifact ≠ "." ∧ nameIn P files artifact ≠ "") :
    placeOf P files root taskId a <+: placeOf P files root taskId b ↔
      a.type = b.type ∧ nameIn P files a = nameIn P files b := by
  have hplace : ∀ artifact ∈ [a, b], placeOf P files root taskId artifact =
      join root taskId ++ [artifact.type, nameIn P files artifact] := by
    intro artifact hmem
    obtain ⟨hslash, hdot, hsome⟩ := htype artifact hmem
    obtain ⟨hslash', hdot', hsome'⟩ := hname artifact hmem
    unfold placeOf folderOf
    rw [join_plain hslash' hdot', if_neg hsome', join_plain hslash hdot, if_neg hsome,
      List.append_assoc]
    rfl
  rw [hplace a (by simp), hplace b (by simp)]
  constructor
  · intro hprefix
    have heq := hprefix.eq_of_length (by simp)
    simpa using List.append_cancel_left heq
  · rintro ⟨htypes, hnames⟩
    rw [htypes, hnames]

/-- Where the condition holds nothing is lost. -/
theorem Placeable.kept (h : Placeable P files root taskId artifacts s) (hroot : "" ∉ root)
    (hhex : ∀ content, '/' ∉ (P.sha256 content).toList)
    (hclimb : ∀ a ∈ artifacts, ".." ∉ PosixPath.parts a.path)
    (hpaths : (artifacts.map (·.path)).Nodup)
    (hmap : items.map (·.artifact) = artifacts)
    (hplanned : ∀ item ∈ items, PlannedFor P files root taskId item.artifact item)
    (hrun : promoteAll taskId items s = .ok final) :
    Kept files (some root) taskId artifacts items final := by
  subst hmap
  have hmem : ∀ item ∈ items, item.artifact ∈ items.map (·.artifact) :=
    fun item hitem => List.mem_map_of_mem hitem
  have hapart : ∀ a ∈ items, ∀ b ∈ items, a.artifact.path ≠ b.artifact.path →
      ¬ a.target <+: b.target := by
    intro a ha b hb hne
    rw [(hplanned a ha).target, (hplanned b hb).target]
    exact h.apart _ (hmem a ha) _ (hmem b hb) hne
  have hpairs : items.Pairwise Apart := by
    rw [List.map_map] at hpaths
    refine List.Pairwise.imp_of_mem ?_ (List.pairwise_map.mp hpaths)
    intro a b ha hb hne
    exact ⟨hapart a ha b hb hne, hapart b hb a ha (Ne.symm hne)⟩
  have hfree : ∀ item ∈ items, s.tree.node item.target ≠ some .dir := by
    intro item hitem
    rw [(hplanned item hitem).target]
    exact h.free _ (hmem item hitem)
  have hlinks : ∀ item ∈ items, item.link ≠ "" := by
    intro item hitem
    rw [(hplanned item hitem).link]
    apply artifactLink_ne
    rw [(hplanned item hitem).target]
    exact not_empty_join (not_empty_join (not_empty_join hroot))
  obtain ⟨hfiles, -⟩ := promoteAll_files hrun hpairs hfree
  obtain ⟨task, hread⟩ := h.readable
  obtain ⟨task', hfinal, -, hlisted, honce⟩ := promoteAll_links hrun hlinks hread
  exact {
    distinct := by
      intro a ha b hb hne heq
      exact hapart a ha b hb hne (heq ▸ List.prefix_refl _)
    inside := by
      intro item hitem
      obtain ⟨hslash, hdot, hup⟩ := @nameIn_plain P files hhex _ (hclimb _ (hmem item hitem))
      refine ⟨root, rfl, ?_⟩
      rw [(hplanned item hitem).target]
      exact (inside_join_iff hslash hdot hup).mpr (h.folders _ (hmem item hitem))
    present := by
      intro artifact hartifact
      obtain ⟨item, hitem, rfl⟩ := List.mem_map.mp hartifact
      obtain ⟨image, hsource, hnode⟩ := hfiles item hitem
      refine ⟨item, hitem, rfl, image, image, ?_, FileTree.file?_eq_some.mpr hnode, rfl⟩
      rw [(hplanned item hitem).source, hsource]
    linked := by
      intro item hitem
      refine ⟨task', hfinal, List.count_eq_one_of_mem ?_ (hlisted item hitem)⟩
      exact honce (Or.inr (List.ne_nil_of_mem hitem)) }

/-- Where nothing is lost the condition holds. -/
theorem Kept.placeable (h : Kept files (some root) taskId artifacts items final)
    (hhex : ∀ content, '/' ∉ (P.sha256 content).toList)
    (hclimb : ∀ a ∈ artifacts, ".." ∉ PosixPath.parts a.path)
    (hsome : artifacts ≠ [])
    (hmap : items.map (·.artifact) = artifacts)
    (hplanned : ∀ item ∈ items, PlannedFor P files root taskId item.artifact item)
    (hrun : promoteAll taskId items s = .ok final) :
    Placeable P files root taskId artifacts s := by
  subst hmap
  have hfound : ∀ item ∈ items, ∃ image, final.tree.node item.target = some (.file image) := by
    intro item hitem
    obtain ⟨other, hother, hsame, image, found, -, hfile, -⟩ :=
      h.present _ (List.mem_map_of_mem hitem)
    have htarget : item.target = other.target := by
      rw [(hplanned item hitem).target, (hplanned other hother).target, hsame]
    exact ⟨found, htarget ▸ FileTree.file?_eq_some.mp hfile⟩
  exact {
    folders := by
      intro a ha
      obtain ⟨item, hitem, rfl⟩ := List.mem_map.mp ha
      obtain ⟨hslash, hdot, hup⟩ := @nameIn_plain P files hhex _ (hclimb _ ha)
      obtain ⟨_, heq, hinside⟩ := h.inside item hitem
      cases heq
      rw [(hplanned item hitem).target] at hinside
      exact (inside_join_iff hslash hdot hup).mp hinside
    apart := by
      intro a ha b hb hne hprefix
      obtain ⟨first, hfirst, rfl⟩ := List.mem_map.mp ha
      obtain ⟨second, hsecond, rfl⟩ := List.mem_map.mp hb
      rw [← (hplanned first hfirst).target, ← (hplanned second hsecond).target] at hprefix
      obtain ⟨rest, hrest⟩ := hprefix
      by_cases hnil : rest = []
      · rw [hnil, List.append_nil] at hrest
        exact h.distinct first hfirst second hsecond hne hrest
      · obtain ⟨above, habove⟩ := hfound first hfirst
        obtain ⟨below, hbelow⟩ := hfound second hsecond
        rw [← hrest] at hbelow
        rw [FileTree.node_prefix hbelow hnil] at habove
        cases habove
    free := by
      intro a ha hdir
      obtain ⟨item, hitem, rfl⟩ := List.mem_map.mp ha
      obtain ⟨image, himage⟩ := hfound item hitem
      rw [← (hplanned item hitem).target] at hdir
      rw [promoteAll_dirs hrun hdir] at himage
      cases himage
    readable := by
      obtain ⟨a, ha⟩ := List.exists_mem_of_ne_nil _ hsome
      obtain ⟨item, hitem, rfl⟩ := List.mem_map.mp ha
      obtain ⟨task, hread, -⟩ := h.linked item hitem
      by_contra hnone
      push Not at hnone
      rw [promoteAll_unread hrun hnone] at hread
      exact hnone task hread }

end Promotion

-- ========================================================= one name twice

section OneName

/-- The output directory: two folders with a file of one name each. -/
def draftDisk : Links.Disk Content :=
  .ofList [
    (["w"], .dir),
    (["w", "output"], .dir),
    (["w", "output", "a"], .dir),
    (["w", "output", "a", "task.md"], .file [65]),
    (["w", "output", "b"], .dir),
    (["w", "output", "b", "task.md"], .file [66])] rfl

/-- A machine on which nothing runs. -/
def draftMachine : Verify.Machine Unit where
  source _ := ⟨[], List.Pairwise.nil⟩
  disk _ := draftDisk
  discovered _ := { git := false }
  ignoreFiles _ := []
  gitChangedFiles _ := none
  writeLog _ _ w := w

def idleExecutor : Verify.Executor Unit where
  execute command w :=
    (⟨⟨command.name, "passed", command.argv, some 0, "", "", command.workingDirectory,
      command.timeoutSeconds, command.expectedExitCode, []⟩, none⟩, w)
  named _ _ := rfl

def noChecks : Verify.Validators Unit Unit := ⟨none, fun _ => none⟩

/-- The digests of the two files. -/
def draftSettings : Verify.Settings where
  artifactTemplates _ := none
  sha256 content :=
    if content = [65] then "559aead08264d5795d3909718cdd05abd49572e84fe55590eef31a88a08fdffd"
    else "df7e70e5021544f4834bbee64a9e3789febc4be81470df629cad6ddb03320a5c"
  lower text := text
  sameTransition a b := a.id = b.id
  patience := 40

/-- A transition that derives tasks from drafts. -/
def draftTransition : Frozen.TransitionDefinition where
  id := "split"
  taskType := "epic"
  fromState := "ready"
  toState := "split"
  worker := some "planner"
  requires := {}
  transaction := none
  derives := some { taskType := "task", state := "ready", artifactType := "Draft" }

/-- A submission of drafts under the given paths. -/
def draftRequest (paths : List String) : Verify.Request where
  workspace := ["w"]
  transition := draftTransition
  submission := { artifacts := paths.map fun path => .record ⟨"Draft", path, none⟩ }

/-- What the candidate holds. -/
def draftFiles (path : String) : Option Node :=
  match path with
  | "a/task.md" => some (.file ⟨[65], 0o644⟩)
  | "b/task.md" => some (.file ⟨[66], 0o644⟩)
  | _ => none

/-- An empty file system, and a tracker with the task. -/
def draftState : State where
  tree := ∅
  tracker := {
    mappings := [⟨"ready", "board", "Ready"⟩]
    columns := [("board", "Ready")]
    notes := (∅ : Store String Task).put "7-epic" { id := "7", title := "Epic", currentState := "" }
    cards := [⟨"board", "Ready", "7-epic"⟩] }

/-- A draft in a folder of the output directory has no errors. -/
theorem artifactErrors_draft {folder : String} (h : folder = "a" ∨ folder = "b") :
    Verify.artifactErrors draftSettings draftDisk ["w", "output"] ["Draft"]
      ⟨"Draft", folder ++ "/task.md", none⟩ = .ok [] := by
  have hparts : PosixPath.parts (folder ++ "/task.md") = [folder, "task.md"] := by
    rcases h with rfl | rfl
    · rfl
    · rfl
  have hescapes : Verify.escapesViaSymlink draftSettings draftDisk ["w", "output"]
      (folder ++ "/task.md") = .ok false := by
    have hplace : Verify.resolve draftSettings draftDisk ["w", "output"] = .ok ["w", "output"] :=
      rfl
    unfold Verify.escapesViaSymlink
    rw [hparts, hplace, ok_bind]
    rcases h with rfl | rfl
    · rfl
    · rfl
  have hcontained : Verify.containedPath draftSettings draftDisk ["w", "output"]
      (folder ++ "/task.md") = .ok (some ["w", "output", folder, "task.md"]) := by
    rcases h with rfl | rfl
    · rfl
    · rfl
  unfold Verify.artifactErrors
  rw [hcontained, ok_bind]
  dsimp only
  rw [hescapes]
  rcases h with rfl | rfl
  · rfl
  · rfl

/-- Two drafts of one name. -/
def sameNameRequest : Verify.Request := draftRequest ["a/task.md", "b/task.md"]

/-- They are accepted. -/
theorem verify_drafts :
    Verify.verify draftMachine (fun _ _ _ => false) draftSettings idleExecutor noChecks
      sameNameRequest () = .ok ⟨true, [], none⟩ := by
  have heach : sameNameRequest.artifacts.mapM (fun artifact =>
      Verify.artifactErrors draftSettings (draftMachine.disk ()) sameNameRequest.outputRoot
        (draftTransition.requires.artifacts ++ (Verify.multiArtifactType draftTransition).toList)
        artifact) = .ok [[], []] := by
    have hartifacts : sameNameRequest.artifacts =
        [⟨"Draft", "a" ++ "/task.md", none⟩, ⟨"Draft", "b" ++ "/task.md", none⟩] := rfl
    have hallowed : draftTransition.requires.artifacts ++
        (Verify.multiArtifactType draftTransition).toList = ["Draft"] := rfl
    rw [hartifacts, hallowed]
    exact mapM_eq_ok.mpr (.cons (@artifactErrors_draft "a" (Or.inl rfl))
      (.cons (@artifactErrors_draft "b" (Or.inr rfl)) .nil))
  have hlater : Verify.laterErrors draftMachine draftSettings noChecks sameNameRequest () =
      .ok [] := by
    unfold Verify.laterErrors
    dsimp only
    rw [show sameNameRequest.transition = draftTransition from rfl, heach]
    rfl
  unfold Verify.verify
  rw [show Verify.runContract draftMachine (fun _ _ _ => false) idleExecutor sameNameRequest () =
    .ok (none, [], ()) from rfl, ok_bind]
  dsimp only
  rw [hlater]
  rfl

/-- A draft as it is planned. -/
def plannedDraft (folder : String) (byte : UInt8) : PlannedArtifact where
  artifact := ⟨"Draft", folder ++ "/task.md", none⟩
  source := .file ⟨[byte], 0o644⟩
  sourceName := "task.md"
  target := ["p", "artifacts", "7", "Draft", "task.md"]
  link := "artifacts/7/Draft/task.md"

theorem promotionPlan_drafts :
    promotionPlan draftSettings draftFiles ["w", "output"] (some ["p", "artifacts"]) "7"
      sameNameRequest.artifacts = .ok [plannedDraft "a" 65, plannedDraft "b" 66] := rfl

theorem promoteAll_drafts : ∃ final,
    promoteAll "7" [plannedDraft "a" 65, plannedDraft "b" 66] draftState = .ok final := by
  have hplace : ∃ t t', placeFile ∅ (plannedDraft "a" 65) = .ok t ∧
      placeFile t (plannedDraft "b" 66) = .ok t' := ⟨_, _, rfl, rfl⟩
  obtain ⟨t, t', hfirst, hsecond⟩ := hplace
  obtain ⟨s', hstep, rfl⟩ := @promoteArtifact_of_placeFile "7" draftState _ _ hfirst
  obtain ⟨final, hlast, -⟩ := promoteArtifact_of_placeFile "7" hsecond
  refine ⟨final, ?_⟩
  unfold promoteAll
  rw [List.foldlM_cons, hstep, ok_bind, List.foldlM_cons, hlast]
  rfl

end OneName

end OpenTulid.Promotion
