/-
Notes and boards under the writers of the adapter: what a written note
reads back as, and what a board reads as once a row is put in or taken out.

# Notes

Everything a writer does to a body keeps its headings, so a written note
reads back with the headings of the task written (`readTaskFile_serializeTask`),
provided no line of its dumped frontmatter is a fence.

# Boards

`places` is the reading of a board without line numbers. A row leaves the
reader where it stands, so putting a row into a live part adds exactly its
card (`places_insert`), and taking the line of a card out removes exactly
that card (`readBoard_split`).
-/
import OpenTulid.Vault

namespace OpenTulid

-- ============================================================ headings

namespace Body

theorem duplicateHeadingNames_go (names : List String) : ∀ seen,
    duplicateHeadingNames.go seen names = [] ↔
      names.Nodup ∧ ∀ n ∈ names, n ∉ seen := by
  induction names with
  | nil => intro seen; simp [duplicateHeadingNames.go]
  | cons n ns ih =>
      intro seen
      rw [duplicateHeadingNames.go]
      by_cases hn : n ∈ seen
      · simp [hn]
      · rw [if_neg hn, ih]
        simp only [List.nodup_cons, List.mem_cons, forall_eq_or_imp]
        constructor
        · intro h
          have hnew : n ∉ ns := fun hmem => h.2 n hmem (Or.inl rfl)
          exact ⟨⟨hnew, h.1⟩, hn, fun m hm hs => h.2 m hm (Or.inr hs)⟩
        · intro h
          refine ⟨h.1.2, fun m hm hs => ?_⟩
          rcases hs with heq | hs
          · exact h.1.1 (heq ▸ hm)
          · exact h.2.2 m hm hs

/-- No heading is reported exactly when every heading occurs once. -/
theorem duplicateHeadingNames_eq_nil {b : Body} :
    b.duplicateHeadingNames = [] ↔ b.headings.Nodup := by
  rw [duplicateHeadingNames, duplicateHeadingNames_go]
  simp

@[simp] theorem headings_append (a b : Body) :
    headings (a ++ b) = headings a ++ headings b := List.filterMap_append

@[simp] theorem headings_nil : headings [] = [] := rfl

@[simp] theorem headings_blank (b : Body) :
    headings (.blank :: b) = headings b := rfl

@[simp] theorem headings_title (t : String) (b : Body) :
    headings (.title t :: b) = headings b := rfl

@[simp] theorem headings_text (t : String) (b : Body) :
    headings (.text t :: b) = headings b := rfl

@[simp] theorem headings_heading (n : String) (b : Body) :
    headings (.heading n :: b) = n :: headings b := rfl

theorem headings_trimStart (b : Body) : headings b.trimStart = headings b := by
  unfold trimStart
  induction b with
  | nil => rfl
  | cons line rest ih =>
      by_cases h : line = .blank
      · subst h
        simpa using ih
      · rw [List.dropWhile_cons_of_neg (by simpa using h)]

theorem headings_reverse (b : Body) : headings b.reverse = (headings b).reverse :=
  List.filterMap_reverse

theorem headings_trimEnd (b : Body) : headings b.trimEnd = headings b := by
  have h := headings_trimStart b.reverse
  unfold trimStart at h
  unfold trimEnd
  rw [headings_reverse, h, headings_reverse, List.reverse_reverse]

theorem headings_trim (b : Body) : headings b.trim = headings b := by
  unfold trim
  rw [headings_trimEnd, headings_trimStart]

theorem headings_stripLeadingTitle (b : Body) :
    headings b.stripLeadingTitle = headings b := by
  have h := headings_trimStart b
  unfold stripLeadingTitle
  split
  next heq => rw [heq] at h; simpa using h
  next heq => rw [heq] at h; simpa using h
  next => rfl

theorem headings_afterBlank (b : Body) : headings (afterBlank b) = headings b := by
  unfold afterBlank
  split
  next h => rw [h]
  next => rfl

end Body

/-- The section of derived tasks is one heading more. -/
theorem headings_taskWithDerivedLinks (task : Task) (links : List String) :
    (taskWithDerivedLinks task links).body.headings =
      task.body.headings ++ ["Derived tasks"] := by
  have hlinks : Body.headings (links.map fun link => Line.text s!"- [[{link}]]") = [] := by
    induction links with
    | nil => rfl
    | cons link rest ih => simpa using ih
  unfold taskWithDerivedLinks
  simp only [Body.headings_append, hlinks, Body.headings_trimEnd, List.append_nil]
  rfl

-- =============================================================== notes

/-- The dumped frontmatter has no line the reader takes for its end. -/
def Yaml.Plain (Y : Yaml) (f : Frontmatter) : Prop := Line.fence ∉ Y.dump f

/-- A note reads as a task of an id with these headings. -/
def NoteReads (Y : Yaml) (stem : String) (content : List Line) (id : TaskId)
    (headings : List String) : Prop :=
  ∃ t, readTaskFile Y stem content = .ok t ∧ t.id = id ∧ t.body.headings = headings

/-- A written frontmatter splits off as it was. -/
theorem splitFrontmatter_serialize {Y : Yaml} {f : Frontmatter} (h : Y.Plain f)
    (rest : List Line) :
    splitFrontmatter Y (serializeFrontmatter Y f ++ rest) = .ok (f, Body.trim rest) := by
  have hall : ∀ l ∈ Y.dump f, decide (l ≠ Line.fence) = true := by
    intro l hl
    have hne : l ≠ Line.fence := fun heq => h (heq ▸ hl)
    exact decide_eq_true hne
  have htake : (Y.dump f ++ [Line.fence] ++ rest).takeWhile (· ≠ Line.fence) = Y.dump f := by
    rw [List.append_assoc, List.takeWhile_append_of_pos hall]
    simp
  have hdrop : (Y.dump f ++ [Line.fence] ++ rest).dropWhile (· ≠ Line.fence) =
      Line.fence :: rest := by
    rw [List.append_assoc, List.dropWhile_append_of_pos hall]
    simp
  show splitFrontmatter Y (Line.fence :: (Y.dump f ++ [Line.fence] ++ rest)) = _
  rw [splitFrontmatter, if_neg (by simp), if_pos (by simp), htake, hdrop, Y.load_dump]
  rfl

/-- What reading a note with these values gives. -/
theorem readTaskFile_of_split {Y : Yaml} (stem : String) {content : List Line}
    {f : Frontmatter} {body : Body} {id : TaskId}
    (hsplit : splitFrontmatter Y content = .ok (f, body)) (hid : f.id = some id)
    (hvalid : isValidTaskId id = true) :
    NoteReads Y stem content id body.headings := by
  unfold NoteReads readTaskFile
  rw [hsplit]
  simp only [hid, hvalid, if_true]
  exact ⟨_, rfl, rfl, rfl⟩

/-- A note that reads splits into values with its id. -/
theorem split_of_readTaskFile {Y : Yaml} {stem : String} {content : List Line} {t : Task}
    (h : readTaskFile Y stem content = .ok t) :
    ∃ f, splitFrontmatter Y content = .ok (f, t.body) ∧ f.id = some t.id ∧
      isValidTaskId t.id = true := by
  unfold readTaskFile at h
  split at h
  next => cases h
  next f body hsplit =>
    split at h
    next => cases h
    next id hid =>
      split at h
      next hvalid =>
        cases h
        exact ⟨f, hsplit, hid, hvalid⟩
      next => cases h

/-- A written task reads back under its id with its headings. -/
theorem readTaskFile_serializeTask {Y : Yaml} {t : Task} (stem : String)
    (hplain : Y.Plain t.frontmatter) (hvalid : isValidTaskId t.id = true) :
    NoteReads Y stem (serializeTask Y t) t.id t.body.headings := by
  have hsplit := splitFrontmatter_serialize hplain
    (afterBlank (if t.title = "" then [] else [.title t.title]) ++
      afterBlank (Body.trim t.body.stripLeadingTitle))
  rw [← List.append_assoc] at hsplit
  have hread := readTaskFile_of_split stem hsplit rfl hvalid
  have htitle : Body.headings (if t.title = "" then [] else [.title t.title]) = [] := by
    split <;> rfl
  rwa [Body.headings_trim, Body.headings_append, Body.headings_afterBlank,
    Body.headings_afterBlank, htitle, Body.headings_trim,
    Body.headings_stripLeadingTitle, List.nil_append] at hread

/-- Setting the state cache keeps the id and the headings. -/
theorem prepareTaskStateCache_reads {Y : Yaml} {stem state : String}
    {content content' : List Line} {t : Task}
    (hread : readTaskFile Y stem content = .ok t)
    (hplain : ∀ f, splitFrontmatter Y content = .ok (f, t.body) → f.state.isSome →
      Y.Plain { f with state := some state })
    (h : Vault.prepareTaskStateCache Y stem content state = .ok (some content')) :
    NoteReads Y stem content' t.id t.body.headings := by
  obtain ⟨f, hsplit, hid, hvalid⟩ := split_of_readTaskFile hread
  unfold Vault.prepareTaskStateCache at h
  rw [hsplit] at h
  dsimp only at h
  split at h
  next => cases h
  next hstate =>
    have hsome : f.state.isSome := by simpa [Option.isSome_iff_ne_none] using hstate
    obtain rfl : _ = content' := by simpa using h
    have hread' := readTaskFile_of_split stem
      (splitFrontmatter_serialize (hplain f hsplit hsome) (afterBlank t.body.trim)) hid hvalid
    rwa [Body.headings_trim, Body.headings_afterBlank, Body.headings_trim] at hread'

-- ============================================================== boards

/-- The column and the note of a card. -/
def BoardCard.place (c : BoardCard) : String × String := (c.column, c.note)

/-- The cards of a board from a line on, without their line numbers; none
when a line is in error. -/
def places (s : BoardScan) : List BoardLine → Option (List (String × String))
  | [] => some []
  | line :: rest =>
      let next := places (s.step line) rest
      if !s.live then next
      else match line with
        | .row note => s.column.bind fun column => next.map ((column, note) :: ·)
        | .settingsEnd | .other _ => none
        | _ => next

theorem readBoardFrom_cons (board : String) (s : BoardScan) (index : Nat)
    (line : BoardLine) (rest : List BoardLine) :
    readBoardFrom board s index (line :: rest) =
      let next := readBoardFrom board (s.step line) (index + 1) rest
      if !s.live then next
      else match line with
        | .row note =>
            match s.column with
            | none => .error ⟨"board.card_before_column",
                "Task row appears before any section heading.", some s!"{board}:{index + 1}"⟩
            | some column => next.map (⟨board, column, index, note⟩ :: ·)
        | .settingsEnd | .other _ => .error ⟨"board.invalid_task_row",
            "Task row must contain exactly one task link like [[Task 1]].",
            some s!"{board}:{index + 1}"⟩
        | _ => next := by
  cases line <;> rfl

theorem places_cons (s : BoardScan) (line : BoardLine) (rest : List BoardLine) :
    places s (line :: rest) =
      let next := places (s.step line) rest
      if !s.live then next
      else match line with
        | .row note => s.column.bind fun column => next.map ((column, note) :: ·)
        | .settingsEnd | .other _ => none
        | _ => next := by
  cases line <;> rfl

/-- Reading a board answers its places. -/
theorem readBoardFrom_places (board : String) (lines : List BoardLine) : ∀ s index,
    (readBoardFrom board s index lines).toOption.map (·.map BoardCard.place) =
      places s lines := by
  induction lines with
  | nil => intro s index; rfl
  | cons line rest ih =>
      intro s index
      have hnext := ih (s.step line) (index + 1)
      rw [readBoardFrom_cons, places_cons]
      by_cases hlive : s.live = true
      · simp only [hlive, Bool.not_true, Bool.false_eq_true, if_false]
        cases line with
        | row note =>
            cases hcol : s.column with
            | none => rfl
            | some column =>
                simp only [Option.bind_some, ← hnext]
                cases readBoardFrom board (s.step (.row note)) (index + 1) rest <;> rfl
        | settingsEnd => rfl
        | other text => rfl
        | fence => exact hnext
        | settings => exact hnext
        | column name => exact hnext
        | blank => exact hnext
      · simp only [hlive, Bool.not_false, if_true]
        exact hnext

/-- Where the reader stands after some lines. -/
def BoardScan.after (s : BoardScan) (lines : List BoardLine) : BoardScan :=
  lines.foldl BoardScan.step s

/-- A row leaves the reader where it stands. -/
@[simp] theorem BoardScan.step_row (s : BoardScan) (note : String) :
    s.step (.row note) = s := by
  unfold BoardScan.step
  simp only [reduceCtorEq, false_and, if_false]
  split
  · rfl
  · split <;> rfl

/-- The places of two parts of a board. -/
theorem places_append (pre post : List BoardLine) : ∀ s,
    places s (pre ++ post) =
      (places s pre).bind fun before =>
        (places (s.after pre) post).map (before ++ ·) := by
  induction pre with
  | nil => intro s; simp [places, BoardScan.after]
  | cons line rest ih =>
      intro s
      have hnext := ih (s.step line)
      rw [List.cons_append, places_cons, places_cons]
      show _ = Option.bind _ fun before =>
        (places ((s.step line).after rest) post).map (before ++ ·)
      by_cases hlive : s.live = true
      · simp only [hlive, Bool.not_true, Bool.false_eq_true, if_false]
        cases line with
        | row note =>
            cases hcol : s.column with
            | none => rfl
            | some column =>
                simp only [Option.bind_some, hnext]
                cases places (s.step (.row note)) rest with
                | none => rfl
                | some before =>
                    cases places ((s.step (.row note)).after rest) post <;> rfl
        | settingsEnd => rfl
        | other text => rfl
        | fence => exact hnext
        | settings => exact hnext
        | column name => exact hnext
        | blank => exact hnext
      · simp only [hlive, Bool.not_false, if_true]
        exact hnext

/-- A row put into a live part of a board adds its card. -/
theorem places_insert (note : String) {s : BoardScan} {pre post : List BoardLine}
    {column : String} {all : List (String × String)} (hall : places s (pre ++ post) = some all)
    (hlive : (s.after pre).live = true) (hcol : (s.after pre).column = some column) :
    ∃ before behind, all = before ++ behind ∧
      places s (pre ++ .row note :: post) = some (before ++ (column, note) :: behind) := by
  rw [places_append] at hall ⊢
  obtain ⟨before, hbefore, hrest⟩ := Option.bind_eq_some_iff.mp hall
  obtain ⟨behind, hbehind, heq⟩ := Option.map_eq_some_iff.mp hrest
  refine ⟨before, behind, heq.symm, ?_⟩
  rw [hbefore, Option.bind_some, places_cons]
  simp [hlive, hcol, hbehind]

/-- A card stands on a row of its board, in a live part under its column;
without the row the other cards stay. -/
theorem readBoardFrom_split {board : String} {c : BoardCard} (lines : List BoardLine) :
    ∀ {s index cards}, readBoardFrom board s index lines = .ok cards → c ∈ cards →
      ∃ pre post before behind, lines = pre ++ .row c.note :: post ∧
        c.lineIndex = index + pre.length ∧ c.board = board ∧
        cards = before ++ c :: behind ∧
        places s (pre ++ post) =
          some (before.map BoardCard.place ++ behind.map BoardCard.place) := by
  induction lines with
  | nil =>
      intro s index cards h hc
      cases h
      cases hc
  | cons line rest ih =>
      intro s index cards h hc
      -- the line is not the card's own: the rest holds it
      have hskip : ∀ (lead : List BoardCard) {cards' : List BoardCard},
          readBoardFrom board (s.step line) (index + 1) rest = .ok cards' →
          c ∈ cards' → cards = lead ++ cards' →
          (∀ tail, places s (line :: tail) =
            (places (s.step line) tail).map (lead.map BoardCard.place ++ ·)) →
          ∃ pre post before behind, line :: rest = pre ++ .row c.note :: post ∧
            c.lineIndex = index + pre.length ∧ c.board = board ∧
            cards = before ++ c :: behind ∧
            places s (pre ++ post) =
              some (before.map BoardCard.place ++ behind.map BoardCard.place) := by
        intro lead cards' hread hmem hcards hplaces
        obtain ⟨pre, post, before, behind, hlines, hindex, hboard, hsplit, hall⟩ :=
          ih hread hmem
        refine ⟨line :: pre, post, lead ++ before, behind, by rw [hlines]; rfl, ?_, hboard,
          ?_, ?_⟩
        · rw [hindex, List.length_cons]
          omega
        · rw [hcards, hsplit, List.append_assoc]
        · rw [List.cons_append, hplaces, hall]
          simp
      rw [readBoardFrom_cons] at h
      by_cases hlive : s.live = true
      · simp only [hlive, Bool.not_true, Bool.false_eq_true, if_false] at h
        cases line with
        | row note =>
            cases hcol : s.column with
            | none => rw [hcol] at h; cases h
            | some column =>
                rw [hcol] at h
                dsimp only at h
                cases hread : readBoardFrom board (s.step (.row note)) (index + 1) rest with
                | error e => rw [hread] at h; cases h
                | ok cards' =>
                    rw [hread] at h
                    obtain rfl : _ = cards := by simpa [Except.map] using h
                    rcases List.mem_cons.mp hc with heq | hmem
                    · subst heq
                      have hrest := readBoardFrom_places board rest (s.step (.row note)) (index + 1)
                      rw [hread, BoardScan.step_row] at hrest
                      exact ⟨[], rest, [], cards', rfl, rfl, rfl, rfl, hrest.symm⟩
                    · refine hskip [⟨board, column, index, note⟩] hread hmem rfl ?_
                      intro tail
                      rw [places_cons]
                      simp [hlive, hcol, BoardCard.place]
        | settingsEnd => cases h
        | other text => cases h
        | fence =>
            exact hskip [] h hc rfl fun tail => by rw [places_cons]; simp [hlive]
        | settings =>
            exact hskip [] h hc rfl fun tail => by rw [places_cons]; simp [hlive]
        | column name =>
            exact hskip [] h hc rfl fun tail => by rw [places_cons]; simp [hlive]
        | blank =>
            exact hskip [] h hc rfl fun tail => by rw [places_cons]; simp [hlive]
      · simp only [hlive, Bool.not_false, if_true] at h
        exact hskip [] h hc rfl fun tail => by rw [places_cons]; simp [hlive]

end OpenTulid
