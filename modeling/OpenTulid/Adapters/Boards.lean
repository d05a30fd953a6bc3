/-
The text of a board, as the validator and the adapter read it.

# Two readers

`validateLinkFile` and `readBoard` each go through the lines with state of
their own: both skip a frontmatter and the settings blocks, take `## ` lines
as headings and every other line that is not blank as the row of a task. The
validator collects errors and counts the links it checks; the adapter stops at
the first line it cannot read and gives a document of cards.

# Rows

`parseTaskRow` is what both make of a row. The three patterns are scanners
over the line: a name holds none of the characters that end a link, so no
pattern has to take a step back.
-/
import OpenTulid.Runtime.Prompts

namespace OpenTulid.Boards

open Frozen.Prompt (Text splitlines)
open Standard (isSpace)

-- ================================================================== rows

/-- `[^\]|#/\\]` -/
def isNameChar (c : Char) : Bool :=
  c ≠ ']' && c ≠ '|' && c ≠ '#' && c ≠ '/' && c ≠ '\\'

/-- `\s+`, and what follows. -/
def spaces : Text → Option Text
  | [] => none
  | c :: rest => if isSpace c then some (rest.dropWhile isSpace) else none

/-- `\[\[([^\]|#/\\]+)\]\]\s*$` -/
def link : Text → Option Text
  | '[' :: '[' :: rest =>
      match rest.dropWhile isNameChar with
      | ']' :: ']' :: tail =>
          if rest.takeWhile isNameChar ≠ [] ∧ tail.all isSpace then
            some (rest.takeWhile isNameChar)
          else none
      | _ => none
  | _ => none

/-- `\[\s\]\s+`, and the link that follows. -/
def checkbox : Text → Option Text
  | '[' :: c :: ']' :: rest => if isSpace c then spaces rest >>= link else none
  | _ => none

/-- `-\s+`, and what `next` makes of the rest. -/
def bullet (next : Text → Option Text) : Text → Option Text
  | '-' :: rest => spaces rest >>= next
  | _ => none

/-- `TASK_ROW_PATTERNS` -/
def taskRowPatterns : List (Text → Option Text) := [bullet checkbox, bullet link, link]

/-- `parse_task_row`: the first pattern that matches. -/
def parseTaskRow (line : Text) : Option Text :=
  (taskRowPatterns.findSome? fun pattern => pattern (line.dropWhile isSpace)).map Frozen.Prompt.strip

/-- `"---"` -/
def fence : Text := "---".toList

def settingsStart : Text := "%% kanban:settings".toList

def settingsEnd : Text := "%%".toList

def headingMark : Text := "## ".toList

/-- `line.strip()` -/
def stripped (line : Text) : Text := Frozen.Prompt.strip line

-- ============================================================= the validator

/-- `ValidationError`, in the file that is validated. -/
structure ValidationError where
  line : Nat
  message : String
  deriving DecidableEq

/-- `ValidationReport` -/
structure ValidationReport where
  errors : List ValidationError := []
  checkedKanbanFiles : Nat := 0
  checkedTaskLinks : Nat := 0

def ValidationReport.add (report : ValidationReport) (error : ValidationError) :
    ValidationReport :=
  { report with errors := report.errors ++ [error] }

/-- The variables of the loop of `validate_link_file`. -/
structure Validation where
  report : ValidationReport := {}
  inFrontmatter : Bool := false
  inSettings : Bool := false
  sectionFound : Bool := false
  frontmatterStart : Nat := 1

def missingTask (i : Nat) (taskName : Text) : ValidationError :=
  ⟨i + 1, s!"Linked task file does not exist: [[{String.ofList taskName}]]"⟩

section Validator

-- whether the file of a task of a given name exists
variable (isFile : Text → Bool)

/-- A line that is no marker and not blank. -/
def Validation.content (s : Validation) (i : Nat) (line : Text) : Validation :=
  if headingMark.isPrefixOf (stripped line) then { s with sectionFound := true }
  else
    match parseTaskRow line with
    | none =>
        let error : ValidationError :=
          ⟨i + 1, "Task row must contain exactly one task link like [[Task 1]]."⟩
        { s with report := s.report.add error }
    | some taskName =>
        let report := if s.sectionFound then s.report
          else s.report.add ⟨i + 1, "Task row appears before any section heading."⟩
        let report := { report with checkedTaskLinks := report.checkedTaskLinks + 1 }
        { s with report := if isFile taskName then report else report.add (missingTask i taskName) }

/-- One round of the loop. -/
def Validation.step (s : Validation) (i : Nat) (line : Text) : Validation :=
  if !s.inFrontmatter && !s.inSettings && stripped line = fence then
    { s with inFrontmatter := true, frontmatterStart := i + 1 }
  else if s.inFrontmatter then
    if stripped line = fence then { s with inFrontmatter := false } else s
  else if !s.inSettings && stripped line = settingsStart then { s with inSettings := true }
  else if s.inSettings then
    if stripped line = settingsEnd then { s with inSettings := false } else s
  else if stripped line = [] then s
  else s.content isFile i line

/-- The loop, from line number `i`. -/
def Validation.scan : Validation → Nat → List Text → Validation
  | s, _, [] => s
  | s, i, line :: lines => Validation.scan (s.step isFile i line) (i + 1) lines

/-- What is reported after the loop. -/
def Validation.finish (s : Validation) (lines : List Text) : ValidationReport :=
  let report := if s.inFrontmatter then
      s.report.add ⟨s.frontmatterStart, "Unclosed frontmatter (missing closing '---')."⟩
    else s.report
  let report := if s.inSettings then
      match lines.findIdx? fun line => stripped line = settingsStart with
      | some idx =>
          report.add ⟨idx + 1, "Unclosed kanban settings block (missing closing '%%')."⟩
      | none => report
    else report
  { report with checkedKanbanFiles := report.checkedKanbanFiles + 1 }

/-- `ObsidianTrackerFormat.validate_link_file` of a file that holds `text`. -/
def validateLinkFile (text : Text) : ValidationReport :=
  (Validation.scan isFile {} 0 (splitlines text)).finish (splitlines text)

end Validator

-- =============================================================== the adapter

/-- `_BoardCard`; its board and path are those of the document. -/
structure BoardCard where
  column : Text
  lineIndex : Nat
  cardText : Text
  taskNote : Text
  deriving DecidableEq

/-- `_BoardDocument` -/
structure BoardDocument where
  board : String
  path : String
  lines : List Text
  cards : List BoardCard
  insertAfterByColumn : Store Text Nat

/-- An error of the adapter. -/
structure BoardError where
  code : String
  message : String
  location : String
  deriving DecidableEq

/-- What reading a file as text gives. -/
inductive ReadText where
  | text (text : Text)
  | notFound
  | notUtf8
  /-- another `OSError`, with its text -/
  | failed (error : String)

/-- The variables of the loop of `_read_board`. -/
structure Reading where
  cards : List BoardCard := []
  insertAfterByColumn : Store Text Nat := ∅
  currentColumn : Option Text := none
  inFrontmatter : Bool := false
  inSettings : Bool := false

/-- A line that is no marker. -/
def Reading.content (s : Reading) (path : String) (i : Nat) (line : Text) :
    Except BoardError Reading :=
  if headingMark.isPrefixOf (stripped line) then
    let column := stripped ((stripped line).drop 3)
    .ok { s with
      currentColumn := some column
      insertAfterByColumn := s.insertAfterByColumn.put column (i + 1) }
  else
    match parseTaskRow line with
    | none =>
        if stripped line = [] then .ok s
        else .error ⟨"board.invalid_task_row",
          "Task row must contain exactly one task link like [[Task 1]].", s!"{path}:{i + 1}"⟩
    | some taskNote =>
        match s.currentColumn with
        | none => .error ⟨"board.card_before_column",
            "Task row appears before any section heading.", s!"{path}:{i + 1}"⟩
        | some column => .ok { s with
            cards := s.cards ++ [⟨column, i, line, taskNote⟩]
            insertAfterByColumn := s.insertAfterByColumn.put column (i + 1) }

/-- One round of the loop. -/
def Reading.step (s : Reading) (path : String) (i : Nat) (line : Text) :
    Except BoardError Reading :=
  if stripped line = fence ∧ s.inSettings = false then
    .ok { s with inFrontmatter := !s.inFrontmatter }
  else if s.inFrontmatter then .ok s
  else if stripped line = settingsStart then .ok { s with inSettings := true }
  else if s.inSettings then
    .ok (if stripped line = settingsEnd then { s with inSettings := false } else s)
  else s.content path i line

/-- The loop, from line number `i`. -/
def Reading.scan (path : String) : Reading → Nat → List Text → Except BoardError Reading
  | s, _, [] => .ok s
  | s, i, line :: lines => do
      let s ← s.step path i line
      Reading.scan path s (i + 1) lines

/-- `ObsidianAdapter._read_board` -/
def readBoard (board path : String) : ReadText → Except BoardError BoardDocument
  | .notFound => .error ⟨"board.not_found", s!"Board file does not exist: {path}", path⟩
  | .notUtf8 => .error ⟨"board.invalid_utf8", s!"Board file is not valid UTF-8: {path}", path⟩
  | .failed error =>
      .error ⟨"board.read_failed", s!"Cannot read board file {path}: {error}", path⟩
  | .text text => do
      let s ← Reading.scan path {} 0 (splitlines text)
      .ok ⟨board, path, splitlines text, s.cards, s.insertAfterByColumn⟩

end OpenTulid.Boards
