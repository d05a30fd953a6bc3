/-
The validator and the adapter read the same board.

# The board

A board is read here once more, without either loop: `Mode` says whether a
line lies in a block, `visible` keeps the lines that lie in none and are no
markers, and `cardsOf` makes cards of them, each under the heading read last.
Both loops are compared with this reading, line by line and for every state
they can be in: the flags of a loop are those of a mode.
-/
import OpenTulid.Adapters.Boards

namespace OpenTulid.Boards

open Frozen.Prompt (Text splitlines)
open Standard (isSpace)

-- ============================================================ the reading

/-- Where a line lies. -/
inductive Mode where
  | outside
  | frontmatter
  | settings
  deriving DecidableEq

/-- Where the next line lies after a line that is a marker; `none` when the
line is none. -/
def Mode.marker : Mode → Text → Option Mode
  | .outside, line =>
      if stripped line = fence then some .frontmatter
      else if stripped line = settingsStart then some .settings else none
  | .frontmatter, line => some (if stripped line = fence then .outside else .frontmatter)
  | .settings, line => some (if stripped line = settingsEnd then .outside else .settings)

/-- The lines of no block, with their numbers. -/
def visible : Mode → Nat → List Text → List (Nat × Text)
  | _, _, [] => []
  | mode, i, line :: lines =>
      match mode.marker line with
      | some next => visible next (i + 1) lines
      | none => (i, line) :: visible .outside (i + 1) lines

/-- Where the text ends. -/
def endMode : Mode → List Text → Mode
  | mode, [] => mode
  | mode, line :: lines => endMode ((mode.marker line).getD .outside) lines

/-- The blocks of a board are closed. -/
def Closed (lines : List Text) : Prop := endMode .outside lines = .outside

/-- What a line of no block is. -/
inductive Entry where
  | blank
  | heading (column : Text)
  | row (note : Text)
  | other
  deriving DecidableEq

def entryOf (line : Text) : Entry :=
  if headingMark.isPrefixOf (stripped line) then
    .heading (stripped ((stripped line).drop 3))
  else
    match parseTaskRow line with
    | some note => .row note
    | none => if stripped line = [] then .blank else .other

/-- The cards of a board, when every line can be read and every row has a
heading before it. -/
def cardsOf (column : Option Text) : List (Nat × Text) → Option (List BoardCard)
  | [] => some []
  | (i, line) :: rest =>
      match entryOf line with
      | .blank => cardsOf column rest
      | .heading next => cardsOf (some next) rest
      | .row note =>
          match column with
          | none => none
          | some name => (cardsOf column rest).map (⟨name, i, line, note⟩ :: ·)
      | .other => none

/-- The last heading before a card has the name of its column. -/
def UnderHeading (entries : List (Nat × Text)) (card : BoardCard) : Prop :=
  ∃ before i heading between after,
    entries = before ++ (i, heading) :: (between ++ (card.lineIndex, card.cardText) :: after) ∧
      entryOf heading = .heading card.column ∧
      ∀ e ∈ between, ∀ column, entryOf e.2 ≠ .heading column

/-- A line that is the row of a task. -/
def isRow (e : Nat × Text) : Bool :=
  match entryOf e.2 with
  | .row _ => true
  | _ => false

-- =============================================================== its lines

/-- A blank line is no row. -/
theorem parseTaskRow_of_blank {line : Text} (h : stripped line = []) :
    parseTaskRow line = none := by
  have hall : line.dropWhile isSpace = [] := by
    unfold stripped Frozen.Prompt.strip at h
    rw [List.rdropWhile_eq_nil_iff] at h
    cases hdrop : line.dropWhile isSpace with
    | nil => rfl
    | cons c rest =>
        have hc := List.head?_dropWhile_not isSpace line
        rw [hdrop] at hc h
        exact absurd (h c List.mem_cons_self) (by simpa using hc)
  unfold parseTaskRow
  rw [hall]
  rfl

theorem entryOf_blank {line : Text} (h : stripped line = []) : entryOf line = .blank := by
  unfold entryOf
  rw [if_neg (by rw [h]; exact nofun), parseTaskRow_of_blank h]
  exact if_pos h

/-- Where the cards can be made they are the rows, in their order. -/
theorem rows_of_cardsOf {entries : List (Nat × Text)} {column : Option Text}
    {cards : List BoardCard} (h : cardsOf column entries = some cards) :
    cards.map (fun card => (card.lineIndex, card.cardText)) = entries.filter isRow ∧
      ∀ card ∈ cards, parseTaskRow card.cardText = some card.taskNote := by
  induction entries generalizing column cards with
  | nil =>
      cases h
      exact ⟨rfl, nofun⟩
  | cons e rest ih =>
      obtain ⟨i, line⟩ := e
      unfold cardsOf at h
      rw [List.filter_cons]
      cases hentry : entryOf line with
      | blank =>
          rw [hentry] at h
          rw [if_neg (by unfold isRow; rw [hentry]; exact nofun)]
          exact ih h
      | heading next =>
          rw [hentry] at h
          rw [if_neg (by unfold isRow; rw [hentry]; exact nofun)]
          exact ih h
      | other =>
          rw [hentry] at h
          cases h
      | row note =>
          rw [hentry] at h
          cases column with
          | none => cases h
          | some name =>
              obtain ⟨cards', hcards', rfl⟩ := Option.map_eq_some_iff.mp h
              obtain ⟨hrows, hnotes⟩ := ih hcards'
              rw [if_pos (by unfold isRow; rw [hentry]), List.map_cons, hrows]
              refine ⟨rfl, ?_⟩
              intro card hcard
              rcases List.mem_cons.mp hcard with rfl | hcard
              · unfold entryOf at hentry
                split at hentry
                next => cases hentry
                next =>
                  split at hentry
                  next hparse =>
                    cases hentry
                    exact hparse
                  next => split at hentry <;> cases hentry
              · exact hnotes card hcard

theorem underHeading_cons {entries : List (Nat × Text)} {card : BoardCard} (e : Nat × Text)
    (h : UnderHeading entries card) : UnderHeading (e :: entries) card := by
  obtain ⟨before, i, heading, between, after, rfl, hrest⟩ := h
  exact ⟨e :: before, i, heading, between, after, rfl, hrest⟩

/-- A card has the name of the column it began with, or of a heading among
the lines. -/
theorem underHeading_of_cardsOf {entries : List (Nat × Text)} {column : Option Text}
    {cards : List BoardCard} (h : cardsOf column entries = some cards) {card : BoardCard}
    (hcard : card ∈ cards) :
    UnderHeading entries card ∨
      column = some card.column ∧ ∃ between after,
        entries = between ++ (card.lineIndex, card.cardText) :: after ∧
          ∀ e ∈ between, ∀ name, entryOf e.2 ≠ .heading name := by
  induction entries generalizing column cards with
  | nil =>
      cases h
      cases hcard
  | cons e rest ih =>
      obtain ⟨i, line⟩ := e
      have hlater : ∀ {column' : Option Text} {cards' : List BoardCard},
          cardsOf column' rest = some cards' → card ∈ cards' → column' = column →
          (∀ name, entryOf line ≠ .heading name) →
          UnderHeading ((i, line) :: rest) card ∨
            column = some card.column ∧ ∃ between after,
              (i, line) :: rest = between ++ (card.lineIndex, card.cardText) :: after ∧
                ∀ e ∈ between, ∀ name, entryOf e.2 ≠ .heading name := by
        intro column' cards' hcards' hmem heq hno
        rcases ih hcards' hmem with hunder | ⟨hcolumn, between, after, rfl, hbetween⟩
        · exact .inl (underHeading_cons _ hunder)
        · refine .inr ⟨heq ▸ hcolumn, (i, line) :: between, after, rfl, ?_⟩
          intro e he
          rcases List.mem_cons.mp he with rfl | he
          · exact hno
          · exact hbetween e he
      unfold cardsOf at h
      cases hentry : entryOf line with
      | blank =>
          rw [hentry] at h
          exact hlater h hcard rfl (by rw [hentry]; exact nofun)
      | heading next =>
          rw [hentry] at h
          rcases ih h hcard with hunder | ⟨hcolumn, between, after, rfl, hbetween⟩
          · exact .inl (underHeading_cons _ hunder)
          · refine .inl ⟨[], i, line, between, after, rfl, ?_, hbetween⟩
            rw [hentry, Option.some.inj hcolumn]
      | other =>
          rw [hentry] at h
          cases h
      | row note =>
          rw [hentry] at h
          cases column with
          | none => cases h
          | some name =>
              obtain ⟨cards', hcards', rfl⟩ := Option.map_eq_some_iff.mp h
              rcases List.mem_cons.mp hcard with rfl | hmem
              · exact .inr ⟨rfl, [], rest, rfl, nofun⟩
              · exact hlater hcards' hmem rfl (by rw [hentry]; exact nofun)

-- ========================================================== the validator

/-- The validator is at a line of the mode. -/
structure Validation.At (s : Validation) (mode : Mode) : Prop where
  inFrontmatter : s.inFrontmatter = decide (mode = .frontmatter)
  inSettings : s.inSettings = decide (mode = .settings)

variable {isFile : Text → Bool} {mode : Mode} {column : Option Text} {i : Nat}

/-- A marker changes the flags alone. -/
theorem Validation.step_marker {s : Validation} {next : Mode} {line : Text} (hs : s.At mode)
    (h : mode.marker line = some next) :
    (s.step isFile i line).At next ∧ (s.step isFile i line).report = s.report ∧
      (s.step isFile i line).sectionFound = s.sectionFound := by
  obtain ⟨hfront, hset⟩ := hs
  unfold Validation.step
  cases mode with
  | outside =>
      unfold Mode.marker at h
      rw [hfront, hset]
      dsimp only at h
      split at h
      next hfence =>
        cases h
        rw [if_pos (by simp [hfence])]
        exact ⟨⟨rfl, rfl⟩, rfl, rfl⟩
      next hfence =>
        split at h
        next hstart =>
          cases h
          rw [if_neg (by simp [hfence]), if_neg (by simp), if_pos (by simp [hstart])]
          exact ⟨⟨rfl, rfl⟩, rfl, rfl⟩
        next => cases h
  | frontmatter =>
      cases h
      rw [hfront, hset]
      rw [if_neg (by simp), if_pos (by simp)]
      by_cases hfence : stripped line = fence
      · rw [if_pos hfence, if_pos hfence]
        exact ⟨⟨rfl, rfl⟩, rfl, rfl⟩
      · rw [if_neg hfence, if_neg hfence]
        exact ⟨⟨hfront, hset⟩, rfl, rfl⟩
  | settings =>
      cases h
      rw [hfront, hset]
      rw [if_neg (by simp), if_neg (by simp), if_neg (by simp), if_pos (by simp)]
      by_cases hend : stripped line = settingsEnd
      · rw [if_pos hend, if_pos hend]
        exact ⟨⟨rfl, rfl⟩, rfl, rfl⟩
      · rw [if_neg hend, if_neg hend]
        exact ⟨⟨hfront, hset⟩, rfl, rfl⟩

/-- A line that is no marker is read. -/
theorem Validation.step_entry {s : Validation} {line : Text} (hs : s.At mode)
    (h : mode.marker line = none) :
    mode = .outside ∧ s.step isFile i line =
      if stripped line = [] then s else s.content isFile i line := by
  cases mode with
  | frontmatter => cases h
  | settings => cases h
  | outside =>
      refine ⟨rfl, ?_⟩
      unfold Mode.marker at h
      dsimp only at h
      split at h
      next => cases h
      next hfence =>
        split at h
        next => cases h
        next hstart =>
          unfold Validation.step
          rw [hs.inFrontmatter, hs.inSettings, if_neg (by simp [hfence]), if_neg (by simp),
            if_neg (by simp [hstart]), if_neg (by simp)]

theorem Validation.content_flags {s : Validation} {line : Text} :
    (s.content isFile i line).inFrontmatter = s.inFrontmatter ∧
      (s.content isFile i line).inSettings = s.inSettings := by
  unfold Validation.content
  split
  next => exact ⟨rfl, rfl⟩
  next => split <;> exact ⟨rfl, rfl⟩

theorem errors_add (report : ValidationReport) (error : ValidationError) :
    report.errors.length < (report.add error).errors.length := by
  unfold ValidationReport.add
  dsimp only
  rw [List.length_append]
  exact Nat.lt_add_one _

/-- Errors are only added. -/
theorem Validation.errors_content (s : Validation) (line : Text) :
    s.report.errors.length ≤ (s.content isFile i line).report.errors.length := by
  have hlink : ∀ report : ValidationReport, ∀ note : Text,
      report.errors.length ≤ (if isFile note then
          { report with checkedTaskLinks := report.checkedTaskLinks + 1 }
        else ValidationReport.add
          { report with checkedTaskLinks := report.checkedTaskLinks + 1 }
          (missingTask i note)).errors.length := by
    intro report note
    split
    next => exact Nat.le_refl _
    next => exact Nat.le_of_lt (errors_add _ _)
  unfold Validation.content
  split
  next => exact Nat.le_refl _
  next =>
    split
    next => exact Nat.le_of_lt (errors_add _ _)
    next note _ =>
      dsimp only
      cases s.sectionFound with
      | true => exact hlink s.report note
      | false => exact Nat.le_trans (Nat.le_of_lt (errors_add _ _)) (hlink _ note)

theorem Validation.errors_step (s : Validation) (hs : s.At mode) (line : Text) :
    s.report.errors.length ≤ (s.step isFile i line).report.errors.length := by
  cases hmarker : mode.marker line with
  | some next => exact Nat.le_of_eq (by rw [(Validation.step_marker hs hmarker).2.1])
  | none =>
      rw [(Validation.step_entry hs hmarker).2]
      split
      next => exact Nat.le_refl _
      next => exact s.errors_content line

/-- Where the line after a line lies. -/
theorem Validation.at_step {s : Validation} (hs : s.At mode) (line : Text) :
    (s.step isFile i line).At ((mode.marker line).getD .outside) := by
  cases hmarker : mode.marker line with
  | some next => exact (Validation.step_marker hs hmarker).1
  | none =>
      obtain ⟨rfl, hstep⟩ := @Validation.step_entry isFile _ i _ _ hs hmarker
      rw [hstep]
      split
      next => exact hs
      next =>
        obtain ⟨hfront, hset⟩ := @Validation.content_flags isFile i s line
        exact ⟨hfront.trans hs.inFrontmatter, hset.trans hs.inSettings⟩

theorem Validation.at_scan {s : Validation} (hs : s.At mode) (lines : List Text) :
    (Validation.scan isFile s i lines).At (endMode mode lines) := by
  induction lines generalizing s mode i with
  | nil => exact hs
  | cons line lines ih => exact ih (Validation.at_step hs line)

theorem Validation.errors_scan {s : Validation} (hs : s.At mode) (lines : List Text) :
    s.report.errors.length ≤ (Validation.scan isFile s i lines).report.errors.length := by
  induction lines generalizing s mode i with
  | nil => exact Nat.le_refl _
  | cons line lines ih =>
      exact Nat.le_trans (s.errors_step hs line) (ih (Validation.at_step hs line))

/-- The error of a card whose task file is missing. -/
def missingOf (isFile : Text → Bool) (card : BoardCard) : Option ValidationError :=
  if isFile card.taskNote then none else some (missingTask card.lineIndex card.taskNote)

/-- What the validator has made of the lines: errors for the cards whose
files are missing, or some other error. -/
def Validation.Reads (isFile : Text → Bool) (s final : Validation) :
    Option (List BoardCard) → Prop
  | some cards =>
      final.report.errors = s.report.errors ++ cards.filterMap (missingOf isFile) ∧
        final.report.checkedTaskLinks = s.report.checkedTaskLinks + cards.length
  | none => s.report.errors.length < final.report.errors.length

/-- A line that changes nothing before the others. -/
theorem Validation.Reads.of_report {s s' final : Validation} {cards : Option (List BoardCard)}
    (h : Validation.Reads isFile s' final cards) (hreport : s'.report = s.report) :
    Validation.Reads isFile s final cards := by
  unfold Validation.Reads at h ⊢
  rw [hreport] at h
  exact h

/-- The row of a task before any heading is an error. -/
theorem Validation.row_above {s : Validation} {line note : Text} (hfound : s.sectionFound = false)
    (hheading : ¬ headingMark.isPrefixOf (stripped line) = true)
    (hparse : parseTaskRow line = some note) :
    s.report.errors.length < (s.content isFile i line).report.errors.length := by
  unfold Validation.content
  rw [if_neg hheading, hparse, hfound]
  have hadd := errors_add s.report ⟨i + 1, "Task row appears before any section heading."⟩
  dsimp only
  split
  next => exact hadd
  next => exact Nat.lt_trans hadd (errors_add _ _)

/-- The row of a task below a heading is one more link, and an error when its
file is missing. -/
theorem Validation.row_below {s : Validation} {line note : Text} (name : Text)
    (hfound : s.sectionFound = true)
    (hheading : ¬ headingMark.isPrefixOf (stripped line) = true)
    (hparse : parseTaskRow line = some note) :
    (s.content isFile i line).sectionFound = true ∧
      (s.content isFile i line).report.errors =
        s.report.errors ++ (missingOf isFile ⟨name, i, line, note⟩).toList ∧
      (s.content isFile i line).report.checkedTaskLinks = s.report.checkedTaskLinks + 1 := by
  unfold Validation.content missingOf
  rw [if_neg hheading, hparse, hfound]
  dsimp only
  cases isFile note with
  | true => exact ⟨rfl, (List.append_nil _).symm, rfl⟩
  | false => exact ⟨rfl, rfl, rfl⟩

theorem Validation.scan_reads {s : Validation} (hs : s.At mode)
    (hsection : s.sectionFound = column.isSome) (lines : List Text) :
    Validation.Reads isFile s (Validation.scan isFile s i lines)
      (cardsOf column (visible mode i lines)) := by
  induction lines generalizing s mode i column with
  | nil => exact ⟨(List.append_nil _).symm, rfl⟩
  | cons line lines ih =>
      unfold visible Validation.scan
      have hat := @Validation.at_step isFile _ i _ hs line
      cases hmarker : mode.marker line with
      | some next =>
          obtain ⟨-, hreport, hfound⟩ := @Validation.step_marker isFile _ i _ _ _ hs hmarker
          rw [hmarker] at hat
          exact (ih hat (hfound.trans hsection)).of_report hreport
      | none =>
          obtain ⟨rfl, hstep⟩ := @Validation.step_entry isFile _ i _ _ hs hmarker
          rw [hmarker, Option.getD_none] at hat
          dsimp only
          unfold cardsOf
          by_cases hblank : stripped line = []
          · rw [entryOf_blank hblank]
            rw [hstep, if_pos hblank] at hat ⊢
            exact ih hat hsection
          · rw [if_neg hblank] at hstep
            rw [hstep] at hat ⊢
            unfold entryOf
            by_cases hheading : headingMark.isPrefixOf (stripped line) = true
            · have hcontent : s.content isFile i line = { s with sectionFound := true } := by
                unfold Validation.content
                rw [if_pos hheading]
              rw [hcontent] at hat ⊢
              rw [if_pos hheading]
              exact (ih hat rfl).of_report rfl
            · have hmore := @Validation.errors_scan isFile _ (i + 1) _ hat lines
              rw [if_neg hheading]
              cases hparse : parseTaskRow line with
              | none =>
                  dsimp only
                  rw [if_neg hblank]
                  refine Nat.lt_of_lt_of_le ?_ hmore
                  unfold Validation.content
                  rw [if_neg hheading, hparse]
                  exact errors_add _ _
              | some note =>
                  cases column with
                  | none =>
                      exact Nat.lt_of_lt_of_le (Validation.row_above hsection hheading hparse) hmore
                  | some name =>
                      obtain ⟨hfound, herrors, hlinks⟩ :=
                        @Validation.row_below isFile i s line note name hsection hheading hparse
                      have hrest := @ih _ (some name) (i + 1) _ hat hfound
                      dsimp only
                      cases hcards : cardsOf (some name) (visible .outside (i + 1) lines) with
                      | none =>
                          rw [hcards] at hrest
                          refine Nat.lt_of_le_of_lt ?_ hrest
                          exact s.errors_content line
                      | some cards =>
                          rw [hcards] at hrest
                          obtain ⟨hfinal, hcount⟩ := hrest
                          refine ⟨?_, ?_⟩
                          · rw [hfinal, herrors, List.append_assoc, List.filterMap_cons]
                            cases missingOf isFile ⟨name, i, line, note⟩ <;> rfl
                          · rw [hcount, hlinks, List.length_cons]
                            omega

-- ============================================================ the adapter

/-- The adapter is at a line of the mode. -/
structure Reading.At (s : Reading) (mode : Mode) : Prop where
  inFrontmatter : s.inFrontmatter = decide (mode = .frontmatter)
  inSettings : s.inSettings = decide (mode = .settings)

variable {path : String}

/-- A marker changes the flags alone. -/
theorem Reading.step_marker {s : Reading} {next : Mode} {line : Text} (hs : s.At mode)
    (h : mode.marker line = some next) :
    ∃ s', s.step path i line = .ok s' ∧ s'.At next ∧ s'.cards = s.cards ∧
      s'.currentColumn = s.currentColumn := by
  obtain ⟨hfront, hset⟩ := hs
  unfold Reading.step
  cases mode with
  | outside =>
      unfold Mode.marker at h
      dsimp only at h
      split at h
      next hfence =>
        cases h
        rw [if_pos ⟨hfence, hset⟩]
        exact ⟨_, rfl, ⟨by rw [hfront]; rfl, hset⟩, rfl, rfl⟩
      next hfence =>
        split at h
        next hstart =>
          cases h
          rw [if_neg fun hboth => hfence hboth.1, if_neg (by simp [hfront]), if_pos hstart]
          exact ⟨_, rfl, ⟨hfront, rfl⟩, rfl, rfl⟩
        next => cases h
  | frontmatter =>
      cases h
      by_cases hfence : stripped line = fence
      · rw [if_pos ⟨hfence, hset⟩, if_pos hfence]
        exact ⟨_, rfl, ⟨by rw [hfront]; rfl, hset⟩, rfl, rfl⟩
      · rw [if_neg fun hboth => hfence hboth.1, if_pos (by simp [hfront]), if_neg hfence]
        exact ⟨_, rfl, ⟨hfront, hset⟩, rfl, rfl⟩
  | settings =>
      cases h
      rw [if_neg (by simp [hset]), if_neg (by simp [hfront])]
      by_cases hend : stripped line = settingsEnd
      · have hstart : stripped line ≠ settingsStart := by
          rw [hend]
          decide
        rw [if_neg hstart, if_pos (by simp [hset]), if_pos hend, if_pos hend]
        exact ⟨_, rfl, ⟨hfront, rfl⟩, rfl, rfl⟩
      · by_cases hstart : stripped line = settingsStart
        · rw [if_pos hstart, if_neg hend]
          exact ⟨_, rfl, ⟨hfront, rfl⟩, rfl, rfl⟩
        · rw [if_neg hstart, if_pos (by simp [hset]), if_neg hend, if_neg hend]
          exact ⟨_, rfl, ⟨hfront, hset⟩, rfl, rfl⟩

/-- A line that is no marker is read. -/
theorem Reading.step_entry {s : Reading} {line : Text} (hs : s.At mode)
    (h : mode.marker line = none) :
    mode = .outside ∧ s.step path i line = s.content path i line := by
  cases mode with
  | frontmatter => cases h
  | settings => cases h
  | outside =>
      refine ⟨rfl, ?_⟩
      unfold Mode.marker at h
      dsimp only at h
      split at h
      next => cases h
      next hfence =>
        split at h
        next => cases h
        next hstart =>
          unfold Reading.step
          rw [if_neg fun hboth => hfence hboth.1, if_neg (by simp [hs.inFrontmatter]),
            if_neg hstart, if_neg (by simp [hs.inSettings])]

/-- What the adapter has made of the lines: their cards, or an error. -/
def Reading.Reads (s : Reading) (result : Except BoardError Reading) :
    Option (List BoardCard) → Prop
  | some cards => ∃ final, result = .ok final ∧ final.cards = s.cards ++ cards
  | none => ∃ e, result = .error e

theorem Reading.Reads.of_cards {s s' : Reading} {result : Except BoardError Reading}
    {cards : Option (List BoardCard)} (h : Reading.Reads s' result cards)
    (hcards : s'.cards = s.cards) : Reading.Reads s result cards := by
  unfold Reading.Reads at h ⊢
  rw [hcards] at h
  exact h

theorem Reading.Reads.cons {s s' : Reading} {card : BoardCard}
    {result : Except BoardError Reading} {cards : Option (List BoardCard)}
    (hcards : s'.cards = s.cards ++ [card]) (h : Reading.Reads s' result cards) :
    Reading.Reads s result (cards.map (card :: ·)) := by
  cases cards with
  | none => exact h
  | some cards =>
      obtain ⟨final, hfinal, hall⟩ := h
      refine ⟨final, hfinal, ?_⟩
      rw [hall, hcards, List.append_assoc]
      rfl

theorem Reading.scan_reads {s : Reading} (hs : s.At mode) (hcolumn : s.currentColumn = column)
    (lines : List Text) :
    Reading.Reads s (Reading.scan path s i lines) (cardsOf column (visible mode i lines)) := by
  induction lines generalizing s mode i column with
  | nil => exact ⟨s, rfl, (List.append_nil _).symm⟩
  | cons line lines ih =>
      unfold visible Reading.scan
      cases hmarker : mode.marker line with
      | some next =>
          obtain ⟨s', hstep, hat, hcards, hkept⟩ :=
            @Reading.step_marker _ i path _ _ _ hs hmarker
          rw [hstep]
          exact (ih hat (hkept.trans hcolumn)).of_cards hcards
      | none =>
          obtain ⟨rfl, hstep⟩ := @Reading.step_entry _ i path _ _ hs hmarker
          rw [hstep]
          dsimp only
          unfold cardsOf entryOf Reading.content
          by_cases hheading : headingMark.isPrefixOf (stripped line) = true
          · rw [if_pos hheading, if_pos hheading]
            refine Reading.Reads.of_cards (ih ⟨hs.inFrontmatter, hs.inSettings⟩ rfl) ?_
            rfl
          · rw [if_neg hheading, if_neg hheading]
            cases hparse : parseTaskRow line with
            | none =>
                dsimp only
                by_cases hblank : stripped line = []
                · rw [if_pos hblank, if_pos hblank]
                  exact ih hs hcolumn
                · rw [if_neg hblank, if_neg hblank]
                  exact ⟨_, rfl⟩
            | some note =>
                dsimp only
                rw [hcolumn]
                cases column with
                | none => exact ⟨_, rfl⟩
                | some name =>
                    dsimp only
                    refine Reading.Reads.cons ?_ (ih ⟨hs.inFrontmatter, hs.inSettings⟩ rfl)
                    rfl

-- ================================================================ a board

variable {text : Text}

/-- The report on a board whose blocks are closed. -/
theorem errors_validateLinkFile (isFile : Text → Bool) (hclosed : Closed (splitlines text)) :
    Validation.Reads isFile {}
      { Validation.scan isFile {} 0 (splitlines text) with
        report := validateLinkFile isFile text }
      (cardsOf none (visible .outside 0 (splitlines text))) := by
  have hstart : ({} : Validation).At .outside := ⟨rfl, rfl⟩
  have hend := @Validation.at_scan isFile _ 0 _ hstart (splitlines text)
  have hreads := @Validation.scan_reads isFile _ none 0 _ hstart rfl (splitlines text)
  have hreport : (validateLinkFile isFile text).errors =
        (Validation.scan isFile {} 0 (splitlines text)).report.errors ∧
      (validateLinkFile isFile text).checkedTaskLinks =
        (Validation.scan isFile {} 0 (splitlines text)).report.checkedTaskLinks := by
    unfold validateLinkFile Validation.finish
    rw [hend.inFrontmatter, hend.inSettings, hclosed]
    exact ⟨rfl, rfl⟩
  unfold Validation.Reads at hreads ⊢
  dsimp only at hreads ⊢
  rw [hreport.1, hreport.2]
  exact hreads

/-- What the adapter makes of a board. -/
theorem readBoard_reads (board path : String) (text : Text) :
    match cardsOf none (visible .outside 0 (splitlines text)) with
    | some cards => ∃ doc, readBoard board path (.text text) = .ok doc ∧ doc.cards = cards
    | none => ∃ e, readBoard board path (.text text) = .error e := by
  have hreads := @Reading.scan_reads .outside none 0 path {} ⟨rfl, rfl⟩ rfl (splitlines text)
  unfold readBoard
  dsimp only
  cases hcards : cardsOf none (visible .outside 0 (splitlines text)) with
  | none =>
      rw [hcards] at hreads
      obtain ⟨e, he⟩ := hreads
      rw [he]
      exact ⟨e, rfl⟩
  | some cards =>
      rw [hcards] at hreads
      obtain ⟨final, hfinal, hall⟩ := hreads
      rw [hfinal]
      exact ⟨_, rfl, hall⟩

/-- On a board whose blocks are closed and whose linked task files exist the
validator has no complaint exactly when the adapter reads a document; and
then the links it checks are the cards of the document. -/
theorem validator_reads_board (isFile : Text → Bool) (board path : String) (text : Text)
    (hclosed : Closed (splitlines text))
    (hlinks : ∀ e ∈ visible .outside 0 (splitlines text), ∀ note,
      parseTaskRow e.2 = some note → isFile note = true) :
    ((validateLinkFile isFile text).errors = [] ↔
        ∃ doc, readBoard board path (.text text) = .ok doc) ∧
      ∀ doc, readBoard board path (.text text) = .ok doc →
        (validateLinkFile isFile text).checkedTaskLinks = doc.cards.length ∧
        (∀ isFile', (validateLinkFile isFile' text).errors =
          doc.cards.filterMap (missingOf isFile')) ∧
        doc.cards.map (fun card => (card.lineIndex, card.cardText)) =
          (visible .outside 0 (splitlines text)).filter isRow ∧
        ∀ card ∈ doc.cards, parseTaskRow card.cardText = some card.taskNote ∧
          UnderHeading (visible .outside 0 (splitlines text)) card := by
  have hadapter := readBoard_reads board path text
  have hvalidator := fun isFile' => @errors_validateLinkFile text isFile' hclosed
  cases hcards : cardsOf none (visible .outside 0 (splitlines text)) with
  | none =>
      rw [hcards] at hadapter
      obtain ⟨e, he⟩ := hadapter
      have herrors := hvalidator isFile
      rw [hcards] at herrors
      refine ⟨iff_of_false ?_ ?_, ?_⟩
      · intro hnil
        unfold Validation.Reads at herrors
        dsimp only at herrors
        rw [hnil] at herrors
        exact Nat.lt_irrefl _ herrors
      · rintro ⟨doc, hdoc⟩
        rw [he] at hdoc
        cases hdoc
      · intro doc hdoc
        rw [he] at hdoc
        cases hdoc
  | some cards =>
      rw [hcards] at hadapter
      obtain ⟨doc, hdoc, rfl⟩ := hadapter
      have herrors : ∀ isFile', (validateLinkFile isFile' text).errors =
          doc.cards.filterMap (missingOf isFile') := by
        intro isFile'
        have := hvalidator isFile'
        rw [hcards] at this
        exact this.1.trans (List.nil_append _)
      obtain ⟨hrows, hnotes⟩ := rows_of_cardsOf hcards
      have hexist : doc.cards.filterMap (missingOf isFile) = [] := by
        rw [List.filterMap_eq_nil_iff]
        intro card hcard
        have hmem : (card.lineIndex, card.cardText) ∈
            (visible .outside 0 (splitlines text)).filter isRow := by
          rw [← hrows]
          exact List.mem_map.mpr ⟨card, hcard, rfl⟩
        exact if_pos (hlinks _ (List.mem_filter.mp hmem).1 _ (hnotes card hcard))
      refine ⟨iff_of_true ((herrors isFile).trans hexist) ⟨doc, hdoc⟩, ?_⟩
      intro doc' hdoc'
      rw [hdoc] at hdoc'
      cases hdoc'
      have hcount := hvalidator isFile
      rw [hcards] at hcount
      refine ⟨hcount.2.trans (Nat.zero_add _), herrors, hrows, ?_⟩
      intro card hcard
      refine ⟨hnotes card hcard, ?_⟩
      rcases underHeading_of_cardsOf hcards hcard with hunder | ⟨hnone, -⟩
      · exact hunder
      · cases hnone

/-- A board with a frontmatter and one card. -/
def doingBoard : Text := "---\nkanban-plugin: board\n---\n## Doing\n- [ ] [[Task 1]]\n".toList

theorem validator_reads_board_doing :
    (validateLinkFile (fun _ => true) doingBoard).errors = [] ↔
      ∃ doc, readBoard "main" "main.md" (.text doingBoard) = .ok doc := by
  have hclosed : Closed (splitlines doingBoard) := by
    unfold Closed
    decide
  exact (validator_reads_board (fun _ => true) "main" "main.md" doingBoard hclosed
    fun _ _ _ _ => rfl).1

end OpenTulid.Boards
