/-
Which edits of a task's body its revision tells apart.

The revision keeps one entry for every section name in lower case, and one
for the description under a name a section may have too. What a body has in
force under a name (`Body.inForce`) is what the last section of that name
says; an edit of anything else keeps the revision (`separates_iff`). Where
no heading repeats another in other cases and none is called after the
description, all of the body is in force, and every edit of a line gives a
revision of its own (`taskSemanticRevision_ne_of_edit`).
-/
import OpenTulid.Runtime.Revision
import OpenTulid.Vault

namespace OpenTulid

-- ================================================ what the claim is about

/-- `validate_task_structure` with the title, as callers of a whole body
have it. -/
def validateTitledStructure (body : Body) (location : Option String) : List DomainError :=
  (if (parseTaskBody body).title.getD "" = "" then
    [⟨"task.title_missing",
      "Task body is missing a Markdown H1 title (e.g. # Concrete outcome).", location⟩]
  else []) ++ validateTaskStructure body location

/-- Two well-formed bodies that differ in a line of the description or of a
section. Blank lines and the blanks around a line are no part of either. -/
structure DifferentWork (body body' : Body) : Prop where
  valid : validateTitledStructure body none = []
  valid' : validateTitledStructure body' none = []
  differ : (parseTaskBody body).descriptionLines ≠ (parseTaskBody body').descriptionLines ∨
    (parseTaskBody body).sections ≠ (parseTaskBody body').sections

/-- The lines a body has in force under a name in lower case: those of the
last section called so, and of the description where no section is. -/
def Body.inForce (lower : String → String) (body : Body) (name : String) :
    Option (List String) :=
  match (parseTaskBody body).sections.reverse.find? fun s => lower s.1 = name with
  | some s => some s.2
  | none =>
      if name = "description" then some (parseTaskBody body).descriptionLines else none

-- ============================================== the sections by their names

/-- Sections written one after another: the last of a name stays. -/
theorem get_foldl_sections (lower : String → String) (sections : List (String × List String))
    (entries : Store String (List String)) {name : String} (hname : name ≠ "") :
    (sections.foldl
      (fun (entries : Store String (List String)) s =>
        if lower s.1 = "" then entries else entries.put (lower s.1) s.2) entries).get name =
      match sections.reverse.find? fun s => lower s.1 = name with
      | some s => some s.2
      | none => entries.get name := by
  induction sections generalizing entries with
  | nil => rfl
  | cons s rest ih =>
      rw [List.foldl_cons, ih, List.reverse_cons, List.find?_append]
      cases hrest : rest.reverse.find? fun s => lower s.1 = name with
      | some later => rfl
      | none =>
          by_cases hs : lower s.1 = name
          · have hne : lower s.1 ≠ "" := by
              rw [hs]
              exact hname
            simp [hs, hname]
          · by_cases hempty : lower s.1 = ""
            · simp [hempty, hname.symm]
            · simp [hs, hempty, Store.get_put_of_ne (Ne.symm hs)]

/-- No section is filed under the empty name. -/
theorem get_foldl_sections_empty (lower : String → String)
    (sections : List (String × List String)) (entries : Store String (List String)) :
    (sections.foldl
      (fun (entries : Store String (List String)) s =>
        if lower s.1 = "" then entries else entries.put (lower s.1) s.2) entries).get "" =
      entries.get "" := by
  induction sections generalizing entries with
  | nil => rfl
  | cons s rest ih =>
      rw [List.foldl_cons, ih]
      split
      · rfl
      · next hne => exact Store.get_put_of_ne (Ne.symm hne)

/-- What the revision files under a name is what is in force. -/
theorem get_semanticBodySections (lower : String → String) (body : Body) {name : String}
    (hname : name ≠ "") :
    (semanticBodySections lower body).get name = body.inForce lower name := by
  unfold semanticBodySections Body.inForce
  rw [get_foldl_sections lower _ _ hname, Store.get_put]
  split
  · rfl
  · split
    · rfl
    · exact Store.get_empty

/-- Bodies are filed alike if and only if they have the same in force. -/
theorem semanticBodySections_eq_iff {lower : String → String} {body body' : Body} :
    semanticBodySections lower body = semanticBodySections lower body' ↔
      ∀ name, name ≠ "" → body.inForce lower name = body'.inForce lower name := by
  constructor
  · intro h name hname
    rw [← get_semanticBodySections lower body hname,
      ← get_semanticBodySections lower body' hname, h]
  · intro h
    apply Store.ext_get
    intro name
    by_cases hname : name = ""
    · subst hname
      unfold semanticBodySections
      rw [get_foldl_sections_empty, get_foldl_sections_empty]
      rw [Store.get_put_of_ne (by decide), Store.get_put_of_ne (by decide)]
    · rw [get_semanticBodySections lower body hname,
        get_semanticBodySections lower body' hname, h name hname]

-- ======================================================== the revisions

/-- The title a task has for its revision. -/
def Task.outcomeTitle (task : Task) : String :=
  (task.body.extractTitle.filter (· ≠ "")).getD task.title

/-- Revisions of a task with two bodies are one if and only if the bodies
have one title and the same in force. -/
theorem taskSemanticRevision_body_eq_iff {lower : String → String} {task : Task}
    {identities : List SourceIdentity} {body body' : Body} :
    taskSemanticRevision lower { task with body := body } identities =
        taskSemanticRevision lower { task with body := body' } identities ↔
      ({ task with body := body } : Task).outcomeTitle =
          ({ task with body := body' } : Task).outcomeTitle ∧
        ∀ name, name ≠ "" → body.inForce lower name = body'.inForce lower name := by
  rw [← semanticBodySections_eq_iff]
  constructor
  · intro h
    exact ⟨congrArg TaskRevision.title h, congrArg TaskRevision.body h⟩
  · rintro ⟨htitle, hbody⟩
    simp only [Task.outcomeTitle] at htitle
    simp only [taskSemanticRevision, htitle, hbody]

/-- An edit gives a revision of its own if and only if it changes the title
or what is in force under some name. -/
theorem taskSemanticRevision_separates_iff {lower : String → String} {task : Task}
    {identities : List SourceIdentity} {body body' : Body} (_ : DifferentWork body body') :
    taskSemanticRevision lower { task with body := body } identities ≠
        taskSemanticRevision lower { task with body := body' } identities ↔
      ({ task with body := body } : Task).outcomeTitle ≠
          ({ task with body := body' } : Task).outcomeTitle ∨
        ∃ name, name ≠ "" ∧ body.inForce lower name ≠ body'.inForce lower name := by
  rw [Ne, taskSemanticRevision_body_eq_iff, not_and_or]
  push Not
  rfl

-- ================================================================ a slip

/-- A task without a body. -/
def archiveTask : Task where
  id := "1"
  title := ""
  currentState := "ready"

/-- A body whose description is followed by a section called so. -/
def describedBody (line : String) : Body :=
  [.title "Move the archive", .text line, .heading "Description", .text "Move the files."]

theorem differentWork_describedBody :
    DifferentWork (describedBody "Keep the backups.") (describedBody "Delete the backups.") where
  valid := by decide
  valid' := by decide
  differ := by decide

/-- The section takes the place of the description: what is said there can
be turned round under one revision. -/
theorem description_section_hides_description :
    DifferentWork (describedBody "Keep the backups.") (describedBody "Delete the backups.") ∧
      taskSemanticRevision String.toLower
          { archiveTask with body := describedBody "Keep the backups." } [] =
        taskSemanticRevision String.toLower
          { archiveTask with body := describedBody "Delete the backups." } [] :=
  ⟨differentWork_describedBody, by decide +kernel⟩

/-- A body with one section. -/
def plannedBody (line : String) : Body :=
  [.title "Move the archive", .heading "Why", .text line]

/-- Lines of a section that is in force are told apart. -/
theorem section_lines_are_separated :
    taskSemanticRevision String.toLower
        { archiveTask with body := plannedBody "The disk is full." } [] ≠
      taskSemanticRevision String.toLower
        { archiveTask with body := plannedBody "The disk is slow." } [] :=
  (taskSemanticRevision_separates_iff
    ⟨by decide, by decide, by decide⟩).mpr
    (Or.inr ⟨"why", by decide, by decide +kernel⟩)

-- ============================================== bodies that are in force

/-- No heading repeats another in other cases, and none is called after the
description. -/
structure Body.PlainHeadings (lower : String → String) (body : Body) : Prop where
  apart : ((parseTaskBody body).sections.map fun s => lower s.1).Nodup
  named : ∀ s ∈ (parseTaskBody body).sections, lower s.1 ≠ "" ∧ lower s.1 ≠ "description"

/-- The description is in force where no section has its name. -/
theorem Body.PlainHeadings.description {lower : String → String} {body : Body}
    (h : body.PlainHeadings lower) :
    body.inForce lower "description" = some (parseTaskBody body).descriptionLines := by
  unfold Body.inForce
  have hnone : (parseTaskBody body).sections.reverse.find?
      (fun s => lower s.1 = "description") = none := by
    rw [List.find?_eq_none]
    intro s hs
    simpa using (h.named s (List.mem_reverse.mp hs)).2
  rw [hnone]
  rfl

/-- Every section is in force where no other has its name. -/
theorem Body.PlainHeadings.section {lower : String → String} {body : Body}
    (h : body.PlainHeadings lower) {s : String × List String}
    (hs : s ∈ (parseTaskBody body).sections) : body.inForce lower (lower s.1) = some s.2 := by
  unfold Body.inForce
  cases hfound : (parseTaskBody body).sections.reverse.find? fun r => lower r.1 = lower s.1 with
  | none =>
      rw [List.find?_eq_none] at hfound
      exact absurd (decide_eq_true rfl) (hfound s (List.mem_reverse.mpr hs))
  | some r =>
      have hname : lower r.1 = lower s.1 := by simpa using List.find?_some hfound
      have hr := List.mem_reverse.mp (List.mem_of_find?_eq_some hfound)
      have heq : r = s := List.inj_on_of_nodup_map h.apart hr hs hname
      rw [heq]

/-- What is in force under another name than the description's stands in a
section. -/
theorem Body.mem_of_inForce {lower : String → String} {body : Body}
    {name : String} {lines : List String} (hname : name ≠ "description")
    (h : body.inForce lower name = some lines) :
    ∃ s ∈ (parseTaskBody body).sections, lower s.1 = name ∧ s.2 = lines := by
  unfold Body.inForce at h
  split at h
  next s hfound =>
    have hs : lower s.1 = name := by simpa using List.find?_some hfound
    exact ⟨s, List.mem_reverse.mp (List.mem_of_find?_eq_some hfound), hs, Option.some.inj h⟩
  next =>
    rw [if_neg hname] at h
    cases h

/-- Where the headings of both bodies are plain, an edit of the description,
or of a section's name or lines, gives a revision of its own. -/
theorem taskSemanticRevision_ne_of_edit {lower : String → String} {task : Task}
    {identities : List SourceIdentity} {body body' : Body} (hb : body.PlainHeadings lower)
    (hb' : body'.PlainHeadings lower)
    (hedit : (parseTaskBody body).descriptionLines ≠ (parseTaskBody body').descriptionLines ∨
      ∃ s ∈ (parseTaskBody body).sections, ∀ s' ∈ (parseTaskBody body').sections,
        lower s'.1 = lower s.1 → s'.2 ≠ s.2) :
    taskSemanticRevision lower { task with body := body } identities ≠
      taskSemanticRevision lower { task with body := body' } identities := by
  intro heq
  have hforce := (taskSemanticRevision_body_eq_iff.mp heq).2
  rcases hedit with hdescription | ⟨s, hs, hother⟩
  · have h := hforce "description" (by decide)
    rw [hb.description, hb'.description] at h
    exact hdescription (Option.some.inj h)
  · have h := hforce (lower s.1) (hb.named s hs).1
    rw [hb.section hs] at h
    obtain ⟨s', hs', hname, hlines⟩ := Body.mem_of_inForce (hb.named s hs).2 h.symm
    exact hother s' hs' hname hlines

end OpenTulid
