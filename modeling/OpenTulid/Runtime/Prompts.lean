/-
Prompt packets: the text a worker gets, compiled from a frozen contract and,
for a review, the evidence of the implementation before it.

A packet is a list of sections. Each is cut to the budget of its own or
refused (`promptSection`), then all of them are fitted to the budget of the
packet (`fitTotalBudget`), rendered, described by a manifest and linted
(`finalize`). The packet is stored with its job and read back from there
(`compiledPromptFromMetadata`): the manifest tells how long each section is,
so that headings inside a section stay text.

Texts are lists of code points. What the module uses of the language beyond
that is in `Python`. SHA-256 and the reading of fields are those of the
frozen contracts.
-/
import OpenTulid.Contract.Payload
import OpenTulid.Contract.Standard
import OpenTulid.Engine.Compiler
import OpenTulid.Lib.Headed
import Mathlib.Data.List.Dedup

namespace OpenTulid.Frozen.Prompt

open Json (Fields)
open Standard (isSpace)

/-- A text, as its code points. -/
abbrev Text := List Char

/-- What the packets use of the language. -/
structure Python where
  /-- `repr` of a string -/
  repr : String → String
  /-- `str.casefold` -/
  casefold : Text → Text
  /-- `\w` -/
  isWord : Char → Bool
  /-- `str` and `int` of a stored value -/
  builtins : Builtins

/-- What a compiler raises. -/
inductive PromptError where
  /-- a `ValueError` -/
  | value (text : String)
  /-- a `PromptBudgetError` -/
  | budget (code text : String)
  /-- a `TypeError`, for a contract that cannot be written -/
  | type (text : String)

-- ================================================================= texts

/-- `str.strip`. -/
def strip (text : Text) : Text := (text.dropWhile isSpace).rdropWhile isSpace

/-- `str.rstrip`. -/
def rstrip (text : Text) : Text := text.rdropWhile isSpace

/-- `str.join`. -/
def joined (separator : String) : List Text → Text
  | [] => []
  | text :: texts => text ++ texts.flatMap (separator.toList ++ ·)

/-- `str.split`. -/
def words (text : Text) : List Text := (text.splitOnP isSpace).filter (· ≠ [])

/-- A line break of one character. -/
def isLineBreak (c : Char) : Bool :=
  let n := c.toNat
  (10 ≤ n && n ≤ 13) || (28 ≤ n && n ≤ 30) || n = 0x85 || n = 0x2028 || n = 0x2029

/-- The line breaks of two characters, as one. -/
def joinLineBreaks : Text → Text
  | [] => []
  | '\r' :: '\n' :: rest => '\n' :: joinLineBreaks rest
  | c :: rest => c :: joinLineBreaks rest

/-- `str.splitlines`. -/
def splitlines (text : Text) : List Text :=
  let lines := (joinLineBreaks text).splitOnP isLineBreak
  if lines.getLast? = some [] then lines.dropLast else lines

/-- `str.count` of a part that is not empty; `skip` characters belong to the
occurrence before. -/
def countFrom (part : Text) : (skip : Nat) → Text → Nat
  | _, [] => 0
  | skip + 1, _ :: rest => countFrom part skip rest
  | 0, c :: rest =>
      if part.isPrefixOf (c :: rest) then 1 + countFrom part (part.length - 1) rest
      else countFrom part 0 rest

/-- `str.count`. -/
def count (part : String) (text : Text) : Nat := countFrom part.toList 0 text

/-- `str.endswith`. -/
def endsWith (part text : String) : Bool := part.toList.isSuffixOf text.toList

/-- `part in text`. -/
def occurs (part text : Text) : Bool := text.tails.any part.isPrefixOf

-- ============================================================ json.dumps

/-- Four hexadecimal digits. -/
def hex4 (n : Nat) : Text :=
  [(n / 4096 % 16).digitChar, (n / 256 % 16).digitChar, (n / 16 % 16).digitChar,
    (n % 16).digitChar]

/-- A character of a string, escaped to ASCII. -/
def asciiEscape (c : Char) : Text :=
  let n := c.toNat
  match c with
  | '"' => ['\\', '"']
  | '\\' => ['\\', '\\']
  | '\n' => ['\\', 'n']
  | '\r' => ['\\', 'r']
  | '\t' => ['\\', 't']
  | '\x08' => ['\\', 'b']
  | '\x0c' => ['\\', 'f']
  | c =>
      if 32 ≤ n && n < 127 then [c]
      else if n < 0x10000 then '\\' :: 'u' :: hex4 n
      else
        '\\' :: 'u' :: hex4 (0xd800 + (n - 0x10000) / 1024) ++
          '\\' :: 'u' :: hex4 (0xdc00 + (n - 0x10000) % 1024)

/-- A string in ASCII. -/
def asciiQuoted (s : String) : Text := '"' :: s.toList.flatMap asciiEscape ++ ['"']

mutual

/-- A value in ASCII, with the two separators. -/
def asciiText (item key : String) : Json → Text
  | .null => "null".toList
  | .bool true => "true".toList
  | .bool false => "false".toList
  | .int n => Json.intText n
  | .float f => f.chars
  | .str s => asciiQuoted s
  | .arr items => '[' :: joined item (asciiItems item key items) ++ [']']
  | .obj fields => '{' :: joined item (asciiFields item key fields) ++ ['}']

/-- The items of a list. -/
def asciiItems (item key : String) : List Json → List Text
  | [] => []
  | v :: vs => asciiText item key v :: asciiItems item key vs

/-- The entries of a mapping. -/
def asciiFields (item key : String) : List (String × Json) → List Text
  | [] => []
  | (k, v) :: fields =>
      (asciiQuoted k ++ key.toList ++ asciiText item key v) :: asciiFields item key fields

end

/-- `json.dumps(…, sort_keys=True)`. -/
def dumps (v : Json) : Text := asciiText ", " ": " v.canon

/-- `json.dumps(…, sort_keys=True, separators=(",", ":"))`. -/
def compactDumps (v : Json) : Text := asciiText "," ":" v.canon

-- ============================================================== shell words

/-- A character `shlex.quote` leaves as it is. -/
def isShellSafe (c : Char) : Bool :=
  c.isAlphanum || c ∈ "_@%+=:,./-".toList

/-- `shlex.quote`. -/
def shellQuote (word : String) : Text :=
  if word = "" then "''".toList
  else if word.toList.all isShellSafe then word.toList
  else
    '\'' :: word.toList.flatMap
      (fun c => if c = '\'' then "'\"'\"'".toList else [c]) ++ ['\'']

/-- `shlex.join`. -/
def shellJoin (argv : List String) : Text := joined " " (argv.map shellQuote)

-- =============================================================== sections

/-- `TOTAL_BUDGET`. -/
def totalBudget : Nat := 6000

/-- `SECTION_BUDGETS`. -/
def sectionBudget : String → Option Nat
  | "repository_facts" => some 300
  | "prior_implementation_evidence" => some 2000
  | "completion_submission" => some 900
  | _ => none

/-- `PROMPT_COMPILER_VERSION`. -/
def promptCompilerVersion : Int := 4

structure PromptSection where
  id : String
  heading : String
  text : Text
  sourceKind : String
  sourceRef : String
  selectionReason : String
  budget : Option Int := none
  truncated : Bool := false

/-- What `_truncate` puts in place of the rest. -/
def truncationMarker : Text := "\n[truncated by prompt budget]".toList

/-- `_truncate`. -/
def truncate (text : Text) (limit : Nat) : Text :=
  if limit = 0 then truncationMarker
  else if limit ≤ truncationMarker.length then
    truncationMarker.drop (truncationMarker.length - limit)
  else rstrip (text.take (limit - truncationMarker.length)) ++ truncationMarker

/-- `_section`. -/
def promptSection (id heading : String) (text : Text)
    (sourceKind sourceRef selectionReason : String) (truncatable : Bool) :
    Except PromptError PromptSection :=
  let clean := strip text
  match sectionBudget id with
  | none => .ok ⟨id, heading, clean, sourceKind, sourceRef, selectionReason, none, false⟩
  | some budget =>
      if clean.length ≤ budget then
        .ok ⟨id, heading, clean, sourceKind, sourceRef, selectionReason, some budget, false⟩
      else if truncatable then
        .ok ⟨id, heading, truncate clean budget, sourceKind, sourceRef, selectionReason,
          some budget, true⟩
      else .error (.value s!"prompt section '{id}' exceeds its {budget}-character budget")

/-- `_render_sections`. -/
def renderSections (sections : List PromptSection) : Text :=
  Headed.render "## ".toList '\n' (sections.map fun s => (s.heading.toList, s.text))

-- =========================================================== section texts

/-- The lines of a list under its title, if there are any. -/
def listed (title : String) (items : List String) : List Text :=
  if items = [] then [] else title.toList :: items.map fun item => "- ".toList ++ item.toList

/-- What the packets say of acceptance. -/
def acceptanceLine : Text :=
  ("Acceptance: the project global verification commands below must pass. " ++
    "There is no file/directory allowlist; you may create, edit, rename, " ++
    "or delete any files the task requires.").toList

/-- `_assigned_task_text`. -/
def assignedTaskText (contract : ExecutionContract) : Text :=
  let generated := contract.generatedContract
  let body := strip contract.sourceTask.body.toList
  joined "\n" ([
    if body = [] then generated.objective.toList else body,
    "\nImplement only this scoped task. Do not broaden the change surface.".toList,
    acceptanceLine] ++
    listed "Requirements:" generated.requirements ++
    listed "Failure behavior:" generated.failureBehavior ++
    listed "Non-goals:" generated.nonGoals)

/-- `_contract_text`. -/
def contractText (contract : ExecutionContract) : Text :=
  let generated := contract.generatedContract
  joined "\n" ([
    "Objective: ".toList ++ generated.objective.toList,
    acceptanceLine] ++
    listed "Requirements:" generated.requirements ++
    listed "Failure behavior:" generated.failureBehavior ++
    listed "Non-goals:" generated.nonGoals)

/-- How the packet names a frozen file. -/
def fileReference (file : FrozenContextFile) : Text :=
  ".open-tulid/".toList ++ file.workspacePath.toList

/-- The line of a frozen file. -/
def fileLine (file : FrozenContextFile) : Text :=
  let kind := if file.required then "required" else "optional background"
  let role := if file.role = "" then "reference" else file.role
  "- \x60".toList ++ fileReference file ++ "\x60".toList ++
    s!" — {kind} {role}: {file.reason}".toList

/-- The part of required reading that stands before the excerpts. -/
def readingChunks (contract : ExecutionContract) : List Text :=
  (if contract.contextFiles = [] then [] else [
    ("Read the complete frozen source files below from your workspace " ++
      "(paths are relative to the workspace root). Required files are " ++
      "mandatory reading; optional files are background context. The " ++
      "complete bytes are present even when only a relevant excerpt is " ++
      "quoted below.").toList,
    joined "\n" (contract.contextFiles.map fileLine)]) ++
  (if contract.contextExcerpts = [] then
    ["No additional context excerpts were selected for this job.".toList]
  else if contract.contextFiles = [] then []
  else [
    ("Relevant excerpts follow. When you need the full document, read " ++
      "the matching frozen file listed above instead of relying on the " ++
      "inline clip.").toList])

/-- What stands for the excerpts that were left out. -/
def omissionMarker : Text :=
  ("\n\n[additional context excerpts omitted to fit the inline prompt " ++
    "budget; the complete required sources remain at their workspace " ++
    "files listed above]").toList

/-- An excerpt in the packet. -/
def excerptBlock (excerpt : FrozenContextExcerpt) : Text :=
  s!"### {excerpt.artifact}: {excerpt.heading}\n\n{excerpt.text}".toList

/-- `_bounded`: the parts that are kept, and how many were dropped. -/
def boundedParts (maxChars : Option Nat) : List Text → List FrozenContextExcerpt → List Text × Nat
  | kept, [] => (kept, 0)
  | kept, excerpt :: excerpts =>
      let candidate := kept ++ [excerptBlock excerpt]
      let tooLong := match maxChars with
        | none => false
        | some limit => limit < (joined "\n\n" candidate).length + omissionMarker.length
      if tooLong then
        let (parts, dropped) := boundedParts maxChars kept excerpts
        (parts, dropped + 1)
      else boundedParts maxChars candidate excerpts

/-- `_required_reading_text`. -/
def requiredReadingText (contract : ExecutionContract) (maxChars : Option Nat) : Text :=
  let (parts, dropped) := boundedParts maxChars (readingChunks contract) contract.contextExcerpts
  let text := joined "\n\n" parts
  if dropped = 0 then text else text ++ omissionMarker

/-- `_repository_facts_text`. -/
def repositoryFactsText (facts : RepositoryFacts) : Text :=
  joined "\n" [
    if facts.repositoryAvailable then "Repository is available.".toList
    else "No repository is available.".toList,
    ("Top-level: " ++ ", ".intercalate facts.topLevelEntries).toList,
    ("Manifests: " ++ ", ".intercalate facts.manifests).toList,
    ("Entrypoints: " ++ ", ".intercalate facts.detectedEntrypoints).toList,
    ("Prerequisite interfaces/results live in the required reading above; inspect " ++
      "those files and the named seams before editing.").toList]

/-- `_context_reading_refs`. -/
def contextReadingRefs (contract : ExecutionContract) : String :=
  if contract.contextFiles = [] then "none"
  else ", ".intercalate (contract.contextFiles.map fun file => ".open-tulid/" ++ file.workspacePath)

/-- The line of a check. -/
def checkLine (check : ResolvedCheck) : Text :=
  "- ".toList ++ check.id.toList ++ ": ".toList ++
    (if check.argv = [] then "(trusted validation implementation)".toList
    else shellJoin check.argv)

/-- `_checks_text`. -/
def checksText (checks : List ResolvedCheck) : Text :=
  if checks = [] then "No validation commands were resolved.".toList
  else joined "\n" (checks.map checkLine)

/-- `_review_result_example`. -/
def reviewResultExample : Json := .obj [
  ("behavior", .str "behavior required by the task"),
  ("evidence", .str "source/tests inspected for it"),
  ("defects_fixes", .arr [.obj [
    ("defect", .str "in-scope defect"),
    ("fix", .str "targeted fix"),
    ("status", .str "fixed")]]),
  ("remaining_blockers", .arr [])]

/-- `_completion_text`. -/
def completionText (contract : ExecutionContract) (reviewResult : Bool) : Text :=
  let requires := contract.transition.requires
  -- a dictionary: a check named twice has one entry
  let evidence : Fields := contract.resolvedChecks.foldl
    (fun fields check => fields.set check.id (.str "command/result evidence")) []
  let changedFiles :=
    if requires.changedFilesRequired then ["replace-with-each-actual-changed-path"] else []
  let example' : Fields := [
    ("summary", .str "what changed or why review required no change"),
    ("artifacts", .arr (requires.artifacts.map fun artifact => .obj [
      ("type", .str artifact), ("path", .str "required-output-path")])),
    ("changed_files", strings changedFiles),
    ("validation_evidence", .obj evidence)] ++
    if reviewResult then [("review_result", reviewResultExample)] else []
  joined "\n" [
    "Submit completion exactly once after the work and required checks are complete.".toList,
    (if requires.changedFilesRequired then
      "This transition requires a change. Replace the changed_files example with every actual " ++
        "changed workspace path."
    else
      "An empty changed_files list is valid when review makes no correction; otherwise list " ++
        "every actual changed path.").toList,
    "\x60\x60\x60sh".toList,
    "curl -sS -X POST \\".toList,
    "  -H \"content-type: application/json\" \\".toList,
    "  -H \"x-open-tulid-completion-token: $OPEN_TULID_COMPLETION_TOKEN\" \\".toList,
    "  \"$OPEN_TULID_COMPLETION_ENDPOINT\" \\".toList,
    "  --data-binary @- <<'JSON'".toList,
    dumps (.obj example'),
    "JSON".toList,
    "\x60\x60\x60".toList]

-- ======================================================== review evidence

structure ReviewEvidence where
  sourceJobId : String
  verificationReport : Fields
  repairHistory : List Fields := []

/-- What stands for the evidence that was left out. -/
def evidenceMarker : Text :=
  "[additional prior evidence omitted by review-packet budget]".toList

/-- The lines that fit into the section of the evidence. -/
def boundedLines (used : Nat) : List Text → List Text → List Text
  | kept, [] => kept
  | kept, line :: lines =>
      let addition := line.length + if kept = [] then 0 else 1
      if 2000 < used + addition + evidenceMarker.length then kept ++ [evidenceMarker]
      else boundedLines (used + addition) (kept ++ [line]) lines

/-- The line of a check that was run, if it is one. -/
def evidenceLine (P : Python) : Json → Option Text
  | .obj item => some <|
      let text := fun key : String => ((Fields.get? item key).map P.builtins.str).getD ""
      "- ".toList ++ compactDumps (.obj [
        ("id", Fields.get item "id"),
        ("status", Fields.get item "status"),
        ("exit_code", Fields.get item "exit_code"),
        ("argv", (Fields.get? item "argv").getD (.arr [])),
        ("stdout", .str (String.ofList ((text "stdout").toList.take 200))),
        ("stderr", .str (String.ofList ((text "stderr").toList.take 400)))])
  | _ => none

/-- The line of a repair. -/
def repairLine (item : Fields) : Text :=
  "- ".toList ++ compactDumps (.obj [
    ("classification", item.get "classification"),
    ("error_codes", (item.get? "error_codes").getD (.arr [])),
    ("repair_ready", item.get "repair_ready")])

/-- `_review_evidence_text`. -/
def reviewEvidenceText (P : Python) (evidence : ReviewEvidence) : Text :=
  let report := evidence.verificationReport
  let changes : Json := match report.get "changes" with
    | .obj changes => .obj changes
    | _ => .obj []
  let checks : List Json := match report.get "checks" with
    | .arr checks => checks
    | _ => []
  let history := evidence.repairHistory
  joined "\n" (boundedLines 0 [] ([
    s!"Source implementation job: {evidence.sourceJobId}".toList,
    "Authoritative changes: ".toList ++ compactDumps changes,
    "Trusted implementation checks:".toList] ++
    checks.filterMap (evidenceLine P) ++
    (if checks = [] then [
      ("No trusted checks are recorded for this task. This packet is not " ++
        "evidence of a verified implementation; do not treat an empty diff " ++
        "as if verification ran.").toList]
    else []) ++
    (if history = [] then []
    else "Prior repair history:".toList ::
      (history.drop (history.length - 5)).map repairLine)))

-- ================================================================ fitting

/-- The packet does not exceed its budget. -/
def Fits (sections : List PromptSection) : Prop :=
  (renderSections sections).length ≤ totalBudget

instance (sections : List PromptSection) : Decidable (Fits sections) :=
  inferInstanceAs (Decidable (_ ≤ _))

/-- `overflow`: by how much it does. -/
def overflow (sections : List PromptSection) : Nat :=
  (renderSections sections).length - totalBudget

/-- `_revise_section`, of the first section of that id. -/
def revise (id : String) (text : Text) : List PromptSection → List PromptSection
  | [] => []
  | s :: rest =>
      if s.id = id then { s with text := text, truncated := true } :: rest
      else s :: revise id text rest

/-- The first section of that id. -/
def sectionOf (id : String) (sections : List PromptSection) : Option PromptSection :=
  sections.find? (·.id = id)

/-- `_OPTIONAL_TRIM_ORDER`. -/
def optionalTrimOrder : List String := ["repository_facts"]

/-- The first stage of `_fit_total_budget`: optional background is trimmed. -/
def trimOptional : List String → List PromptSection → List PromptSection × List String
  | [], sections => (sections, [])
  | id :: ids, sections =>
      if Fits sections then (sections, [])
      else
        match sectionOf id sections with
        | none => trimOptional ids sections
        | some item =>
            let keep := max 80 (item.text.length - overflow sections)
            if keep < item.text.length then
              let (fitted, omissions) :=
                trimOptional ids (revise id (truncate item.text keep) sections)
              (fitted, (s!"Optional background section '{id}' was trimmed to fit the inline " ++
                "prompt budget; its prerequisite seams remain named below.") :: omissions)
            else trimOptional ids sections

/-- The second stage: inline excerpts are dropped. -/
def dropExcerpts (contract : ExecutionContract) (sections : List PromptSection) :
    List PromptSection × List String :=
  if Fits sections then (sections, [])
  else
    match sectionOf "required_reading" sections with
    | none => (sections, [])
    | some item =>
        let target := max 1 (item.text.length - overflow sections)
        let bounded := requiredReadingText contract (some target)
        if bounded.length < item.text.length then
          (revise "required_reading" bounded sections,
            ["Inline context excerpts were omitted to fit the prompt budget; required reading " ++
              "file paths stay complete and the full sources remain in the frozen workspace " ++
              "bundle."])
        else (sections, [])

/-- `_fit_total_budget`. -/
def fitTotalBudget (contract : ExecutionContract) (sections : List PromptSection) :
    Except PromptError (List PromptSection × List String) :=
  let (trimmed, trims) := trimOptional optionalTrimOrder sections
  let (fitted, drops) := dropExcerpts contract trimmed
  if Fits fitted then .ok (fitted, trims ++ drops)
  else .error (.budget "prompt.budget_exceeded"
    (s!"Binding prompt sections exceed the {totalBudget}-character inline budget by " ++
      s!"{overflow fitted} characters even after trimming all optional background and inline " ++
      "context excerpts. The full assigned task and mandatory procedure/completion sections " ++
      "must fit inline; split or refine the task before running a worker."))

-- =============================================================== packets

structure PromptManifest where
  compilerVersion : Int
  packetType : String
  executionContractSha256 : String
  sections : List Fields
  packetSha256 : String
  characters : Int
  characterBudget : Int
  optionalOmissions : List String := []

/-- `PromptManifest.to_dict`. -/
def PromptManifest.toDict (manifest : PromptManifest) : Json := .obj [
  ("compiler_version", .int manifest.compilerVersion),
  ("packet_type", .str manifest.packetType),
  ("execution_contract_sha256", .str manifest.executionContractSha256),
  ("sections", .arr (manifest.sections.map .obj)),
  ("packet_sha256", .str manifest.packetSha256),
  ("characters", .int manifest.characters),
  ("character_budget", .int manifest.characterBudget),
  ("optional_omissions", strings manifest.optionalOmissions)]

structure CompiledPrompt where
  text : Text
  sections : List PromptSection
  manifest : PromptManifest

/-- The digest of a text. -/
def sha256 (S : Sha256) (text : Text) : String := S.hexdigest (String.ofList text)

/-- The entry of a section in the manifest. -/
def manifestEntry (S : Sha256) (s : PromptSection) : Fields := [
  ("id", .str s.id),
  ("heading", .str s.heading),
  ("source_kind", .str s.sourceKind),
  ("source_ref", .str s.sourceRef),
  ("selection_reason", .str s.selectionReason),
  ("sha256", .str (sha256 S s.text)),
  ("characters", .int s.text.length),
  ("budget", (s.budget.map Json.int).getD .null),
  ("truncated", .bool s.truncated)]

-- ================================================================ linting

/-- `_duplicates`. -/
def duplicates [DecidableEq α] (seen repeated : List α) : List α → List α
  | [] => repeated
  | value :: values =>
      duplicates (value :: seen)
        (if value ∈ seen ∧ value ∉ repeated then repeated ++ [value] else repeated) values

/-- `_COMPILER_OWNED_SOURCE_KINDS`. -/
def compilerOwnedSourceKinds : List String := ["repository_facts", "runtime", "runtime_policy"]

/-- A template marker starts here, behind the character before. -/
def markerAt (P : Python) (before : Option Char) (text : Text) : Bool :=
  let braced := match text with
    | '\x7b' :: '\x7b' :: rest =>
        let (inner, after) := rest.span fun c => c ≠ '\x7b' && c ≠ '\x7d'
        !inner.isEmpty && "\x7d\x7d".toList.isPrefixOf after
    | _ => false
  let fixme := "FIXME_PROMPT".toList
  braced || "<TODO>".toList.isPrefixOf text || "<TBD>".toList.isPrefixOf text ||
    (fixme.isPrefixOf text && !before.any P.isWord &&
      !(text.drop fixme.length).head?.any P.isWord)

/-- `_UNRESOLVED_MARKER_RE.search`. -/
def unresolvedMarker (P : Python) (before : Option Char) : Text → Bool
  | [] => false
  | c :: rest => markerAt P before (c :: rest) || unresolvedMarker P (some c) rest

/-- The characters are those of a word, in any case. -/
def startsAnyCase (word : String) (text : Text) : Bool :=
  word.length ≤ text.length &&
    (word.toList.zip text).all fun (w, c) => c = w || c.toLower = w || (w = 's' && c = 'ſ')

/-- A shell fence starts here. -/
def fenceAt (text : Text) : Bool :=
  let opened := fun word : String =>
    startsAnyCase ("\x60\x60\x60" ++ word) text &&
      '\n' ∈ (text.drop (3 + word.length)).takeWhile isSpace
  opened "sh" || opened "bash"

/-- How many matches `_SHELL_FENCE_RE` has. -/
def shellFences (text : Text) : Nat := text.tails.countP fenceAt

/-- The reading path that starts here. -/
def readingPathAt (text : Text) : Option String :=
  let mark := ".open-tulid/".toList
  let rest := text.drop mark.length
  let digits := (rest.drop 8).take 12
  if mark.isPrefixOf text && "context/".toList.isPrefixOf rest && digits.length = 12 &&
      digits.all (· ∈ "0123456789abcdef".toList) && ".md".toList.isPrefixOf (rest.drop 20) then
    some (String.ofList (rest.take 23))
  else none

/-- `_reading_context_paths`. -/
def readingContextPaths (text : Text) : List String := text.tails.filterMap readingPathAt

/-- The diagnostics of each section on its own and beside those before it;
`normalized` is their normalized texts. -/
def sectionDiagnostics (P : Python) (normalized : List (Text × String)) :
    List PromptSection → List DomainError
  | [] => []
  | s :: rest =>
      let block := P.casefold (joined " " (words s.text))
      (match normalized.lookup block with
      | some id =>
          if block = [] then [] else [⟨"prompt.duplicate_block",
            s!"Prompt sections {P.repr id} and {P.repr s.id} contain the same normalized text.",
            some s.id⟩]
      | none => []) ++
      (if s.sourceKind ∈ compilerOwnedSourceKinds ∧ unresolvedMarker P none s.text then
        [⟨"prompt.unresolved_marker",
          s!"Prompt section {P.repr s.id} contains an unresolved template marker.", some s.id⟩]
      else []) ++
      sectionDiagnostics P ((block, s.id) :: normalized) rest

/-- The text of a section, empty when there is none. -/
def textOf (id : String) (sections : List PromptSection) : Text :=
  ((sectionOf id sections).map (·.text)).getD []

/-- `lint_compiled_prompt` without a contract. -/
def lintPacket (P : Python) (S : Sha256) (compiled : CompiledPrompt) : List DomainError :=
  let validationLines := ((splitlines (textOf "required_validation" compiled.sections)).filter
    fun line => "- ".toList.isPrefixOf (strip line)).map fun line => joined " " (words line)
  ((duplicates [] [] (compiled.sections.map (·.id))).map fun id =>
    ⟨"prompt.duplicate_section",
      s!"Singleton prompt section appears more than once: {id}", some id⟩) ++
  sectionDiagnostics P [] compiled.sections ++
  (if sha256 S compiled.text ≠ compiled.manifest.packetSha256 then
    [⟨"prompt.packet_hash_mismatch", "Prompt text does not match its manifest packet hash.",
      none⟩]
  else []) ++
  (if compiled.manifest.characterBudget < compiled.text.length then
    [⟨"prompt.total_budget_exceeded", "Prompt text exceeds its declared character budget.",
      none⟩]
  else []) ++
  (if count "curl -sS -X POST" compiled.text ≠ 1 then
    [⟨"prompt.completion_count",
      "Prompt must contain exactly one completion submission command.",
      some "completion_submission"⟩]
  else []) ++
  (duplicates [] [] validationLines).map fun line =>
    ⟨"prompt.validation_duplicate",
      s!"Required validation appears more than once: {String.ofList line}",
      some "required_validation"⟩

mutual

/-- `collect`: the digests below a key. -/
def auditHashesOf (key : String) : Json → List String
  | .obj fields => auditHashesIn fields
  | .str s => if endsWith "sha256" key && s.length = 64 then [s] else []
  | _ => []

/-- The digests in a mapping. -/
def auditHashesIn : List (String × Json) → List String
  | [] => []
  | (key, value) :: fields => auditHashesOf key value ++ auditHashesIn fields

end

/-- What `lint_compiled_prompt` checks of a packet against its contract. -/
def lintContract (P : Python) (S : Sha256) (compiled : CompiledPrompt)
    (contract : ExecutionContract) : Except PromptError (List DomainError) := do
  let document ← (executionContractToDict S contract).mapError PromptError.type
  let validation := textOf "required_validation" compiled.sections
  let body := strip contract.sourceTask.body.toList
  let containing := (compiled.sections.filter fun s => occurs body s.text).map (·.id)
  let named := readingContextPaths (textOf "required_reading" compiled.sections)
  let frozen := contract.contextFiles.map (·.workspacePath)
  let fences := shellFences compiled.text
  return (
    (if compiled.manifest.executionContractSha256 ≠ contract.sha256 then
      [⟨"prompt.contract_hash_mismatch",
        "Prompt manifest does not match the frozen execution contract.", none⟩]
    else []) ++
    ((contract.resolvedChecks.filter fun check =>
      count s!"- {check.id}:" validation ≠ 1 ||
        (check.argv ≠ [] && !occurs (shellJoin check.argv) validation)).map fun check =>
      ⟨"prompt.validation_mismatch",
        s!"Resolved validation {P.repr check.id} is not represented exactly once.",
        some check.id⟩) ++
    ((contract.contextExcerpts.filter fun excerpt =>
      S.hexdigest excerpt.text ≠ excerpt.sha256).map fun excerpt =>
      ⟨"prompt.context_hash_mismatch",
        s!"Selected context excerpt {P.repr excerpt.artifact} failed its integrity check.",
        some excerpt.artifact⟩) ++
    (if (auditHashesIn document).any fun identity => occurs identity.toList compiled.text then
      [⟨"prompt.audit_metadata_leak", "Prompt model text contains frozen audit metadata.",
        none⟩]
    else []) ++
    (if body ≠ [] ∧ 1 < containing.length then
      let ids := ", ".intercalate (containing.reverse.dedup.reverse)
      [⟨"prompt.duplicate_task_content",
        s!"Authoritative task body appears in more than one section: {ids}.",
        some "assigned_task"⟩]
    else []) ++
    ((contract.contextFiles.filter fun file =>
      file.required && file.workspacePath ∉ named).map fun file =>
      ⟨"prompt.missing_required_source",
        s!"Required reading omits frozen source file \x60{file.workspacePath}\x60.",
        some "required_reading"⟩) ++
    (((named.dedup.filter (· ∉ frozen)).insertionSort (· ≤ ·)).map fun path =>
      ⟨"prompt.unresolved_reading_path",
        s!"Required reading names workspace file \x60{path}\x60 with no matching " ++
          "frozen source.",
        some "required_reading"⟩) ++
    (if fences ≠ 1 then
      [⟨"prompt.forbidden_command_block",
        s!"Expected exactly one shell command block (completion example); found {fences}.",
        some "completion_submission"⟩]
    else []))

-- ============================================================== compiling

/-- The packet of sections that fit, before it is linted. -/
def packetOf (S : Sha256) (contract : ExecutionContract) (packetType : String)
    (sections : List PromptSection) (omissions : List String) : CompiledPrompt :=
  let text := renderSections sections
  { text := text
    sections := sections
    manifest := {
      compilerVersion := promptCompilerVersion
      packetType := packetType
      executionContractSha256 := contract.sha256
      sections := sections.map (manifestEntry S)
      packetSha256 := sha256 S text
      characters := text.length
      characterBudget := totalBudget
      optionalOmissions := omissions } }

/-- `_finalize`. -/
def finalize (P : Python) (S : Sha256) (contract : ExecutionContract) (packetType : String)
    (sections : List PromptSection) : Except PromptError CompiledPrompt := do
  let (fitted, omissions) ← fitTotalBudget contract sections
  let compiled := packetOf S contract packetType fitted omissions
  let diagnostics ← lintContract P S compiled contract
  match lintPacket P S compiled ++ diagnostics with
  | [] => return compiled
  | issue :: _ => .error (.value s!"{issue.code}: {issue.message}")

/-- The version the procedures name as their source. -/
def compilerRef : String := "compiler/v4"

/-- How an implementation is gone about. -/
def executionProcedureText : Text :=
  ("1. Read the assigned task, its requirements, and the required reading.\n" ++
    "2. Respect the settled answer precedence stated in any answer reference.\n" ++
    "3. Inspect the workspace and integration seams before editing.\n" ++
    "4. Make the smallest coherent implementation for this task.\n" ++
    "5. Run every required project verification command locally.\n" ++
    "6. Fix failures inside the task boundary; do not chase unrelated or environmental " ++
    "failures.\n" ++
    "7. Submit completion evidence, or stop on an out-of-scope, baseline, or environment " ++
    "blocker.").toList

/-- The sections of `_compile_implementation_prompt`. -/
def implementationSections (contract : ExecutionContract) :
    Except PromptError (List PromptSection) := do
  let assigned ← promptSection "assigned_task" "Assigned Task" (assignedTaskText contract)
    "execution_contract" "generated_contract"
    "States the full assigned task and its in-scope requirements once." false
  let reading ← promptSection "required_reading" "Required Reading"
    (requiredReadingText contract none) "context_file" (contextReadingRefs contract)
    "Names every complete frozen source file the worker can and must read." false
  let facts ← promptSection "repository_facts" "Repository Facts"
    (repositoryFactsText contract.repositoryFacts) "repository_facts" "repository.facts"
    "Provides observed toolchain, entrypoint facts, and prerequisite seams." true
  let procedure ← promptSection "execution_procedure" "Execution Procedure"
    executionProcedureText "runtime_policy" compilerRef
    "Provides one implementation-model inspect-implement-test-submit loop." false
  let validation ← promptSection "required_validation" "Required Validation"
    (checksText contract.resolvedChecks) "execution_contract" "resolved_checks"
    "Lists the exact checks Tulid will independently run." false
  let completion ← promptSection "completion_submission" "Completion Submission"
    (completionText contract false) "runtime" "completion_api"
    "Provides the sole completion mechanism." false
  return [assigned, reading, facts, procedure, validation, completion]

/-- The sections of `_compile_review_prompt`. -/
def reviewSections (P : Python) (contract : ExecutionContract) (evidence : ReviewEvidence) :
    Except PromptError (List PromptSection) := do
  let mission ← promptSection "mission" "Review Mission"
    (s!"Audit the implementation produced for task {P.repr contract.sourceTask.title} " ++
      "against its requirements and the authoritative prior implementation evidence below.\n" ++
      "Find a concrete in-scope defect and correct it, or submit a valid no-change review.\n" ++
      "Do not restart implementation or perform unrelated cleanup.").toList
    "execution_contract" "generated_contract.objective"
    ("Frames self-review as an evidence-backed, requirement-driven audit rather than another " ++
      "implementation pass.") true
  let assigned ← promptSection "assigned_task" "Assigned Task and Requirements"
    (contractText contract) "execution_contract" "generated_contract"
    ("States the authoritative task body and every requirement review must map to code or " ++
      "test evidence.") false
  let reading ← promptSection "required_reading" "Required Reading"
    (requiredReadingText contract none) "context_file" (contextReadingRefs contract)
    ("Names every complete frozen source file (task, specification, canonical answers) review " ++
      "may read.") true
  let prior ← promptSection "prior_implementation_evidence" "Prior Implementation Evidence"
    (reviewEvidenceText P evidence) "historical_job" evidence.sourceJobId
    ("Supplies the authoritative prior diff summary, checks, repair history, and an explicit " ++
      "no-evidence marker.") false
  let validation ← promptSection "required_validation" "Required Validation"
    (checksText contract.resolvedChecks) "execution_contract" "resolved_checks"
    "Lists fresh checks required after review, including a no-change review." false
  let procedure ← promptSection "review_procedure" "Review Procedure"
    ("1. Re-read the assigned task, then carry every requirement and settled answer into your " ++
      "working notes.\n" ++
      "2. For each requirement, map it to code and tests: does the changed code satisfy the " ++
      "behavior, and does a test assert it?\n" ++
      "3. Examine the relevant integration seams (within and across the named interfaces, " ++
      "persistence, and stages), not only the changed files.\n" ++
      "4. Inspect beyond the changed files wherever a concrete requirement or prior failure " ++
      "points to locating the behavior.\n" ++
      "5. Identify missing behavior, ineffective/brittle tests, regressions, scope drift, and " ++
      "unfinished user-facing states.\n" ++
      "6. Make only a small targeted correction inside the task boundary; otherwise leave the " ++
      "workspace unchanged.\n" ++
      "7. Run the narrowest affected tests, then every required project check.\n" ++
      "8. Submit the correction or an explicit no-change review with fresh evidence and a " ++
      "compact review result.").toList
    "runtime_policy" compilerRef
    "Provides the distinct requirement-to-evidence review loop." false
  let boundaries ← promptSection "scope_reminder" "Review Boundaries"
    ("Do not add abstractions, broaden tests, create planning reports, or edit unrelated " ++
      "files. An empty diff is correct when no concrete defect exists. A corrective patch " ++
      "must stay inside the assigned task, pass the same global policy, and be promoted as a " ++
      "new verified candidate.").toList
    "runtime_policy" compilerRef
    "Prevents gratuitous review edits, broad cleanup, and out-of-scope redesign." false
  let result ← promptSection "review_result" "Review Result"
    ("Retain one compact requirement-to-evidence result in the completion record.\n" ++
      "For each required behavior, name it and cite the source and test evidence that " ++
      "satisfies it.\n" ++
      "Record every concrete in-scope defect and its targeted fix, or state that none was " ++
      "found.\n" ++
      "If a genuine product decision is unresolved, list it under remaining_blockers and " ++
      "stop: it must go to the existing clarification/planning path, not be redesigned " ++
      "inside review.\n" ++
      "Generic assurances without cited code/test evidence are not acceptable.").toList
    "runtime" "review_result"
    "Requests the compact requirement-to-evidence result retained in the completion record."
    false
  let completion ← promptSection "completion_submission" "Completion Submission"
    (completionText contract true) "runtime" "completion_api"
    "Provides the sole completion mechanism, including the review result." false
  return [mission, assigned, reading, prior, validation, procedure, boundaries, result,
    completion]

/-- `is_review_transition`. -/
def isReviewTransition (transition : TransitionDefinition) : Bool :=
  match transition.review with
  | some ⟨.bool declared, _⟩ => declared
  | some _ => false
  | none => Engine.isReviewTransition transition.id transition.fromState

/-- The sections of a packet, before they are fitted. -/
def sectionsOf (P : Python) (contract : ExecutionContract) (evidence : Option ReviewEvidence) :
    Except PromptError (List PromptSection) :=
  if isReviewTransition contract.transition then
    match evidence with
    | none => .error (.value
        "self-review requires immutable verification evidence from the prior implementation job")
    | some evidence => reviewSections P contract evidence
  else implementationSections contract

/-- `compile_execution_prompt`. -/
def compileExecutionPrompt (P : Python) (S : Sha256) (contract : ExecutionContract)
    (evidence : Option ReviewEvidence) : Except PromptError CompiledPrompt := do
  let sections ← sectionsOf P contract evidence
  finalize P S contract
    (if isReviewTransition contract.transition then "self_review" else "implementation") sections

-- ========================================================= reading packets

/-- `_manifest_string`. -/
def manifestString (raw : Fields) (key : String) : Except String String :=
  match raw.get key with
  | .str s =>
      if s = "" then .error s!"prompt manifest field '{key}' must be a non-empty string" else .ok s
  | _ => .error s!"prompt manifest field '{key}' must be a non-empty string"

/-- `_manifest_int`. -/
def manifestInt (raw : Fields) (key : String) (minimum : Int) : Except String Int :=
  match raw.get key with
  | .int n =>
      if n < minimum then .error s!"prompt manifest field '{key}' must be an integer >= {minimum}"
      else .ok n
  | _ => .error s!"prompt manifest field '{key}' must be an integer >= {minimum}"

/-- `_manifest_omissions`. -/
def manifestOmissions : Json → Except String (List String)
  | .null => .ok []
  | .arr items => items.mapM fun
      | .str s => .ok s
      | _ => .error "optional_omissions entries must be strings"
  | _ => .error "optional_omissions must be a list of strings"

/-- A stored value equals a string. -/
def equalsStr : Json → String → Bool
  | .str t, s => t = s
  | _, _ => false

theorem equalsStr_iff {v : Json} {s : String} : equalsStr v s = true ↔ v = .str s := by
  cases v <;> simp [equalsStr]

instance (v : Json) (s : String) : Decidable (v = .str s) :=
  decidable_of_iff _ equalsStr_iff

/-- An entry of a manifest's sections. -/
def sectionEntry : Json → Except String Fields
  | .obj raw => .ok raw
  | _ => .error "historical prompt manifest contains an invalid section"

/-- The recorded length of a section. -/
def sectionCharacters (raw : Fields) : Except String Nat :=
  match raw.get "characters" with
  | .int (.ofNat n) => .ok n
  | _ => .error "historical prompt manifest contains an invalid section character count"

/-- Reads a section off the front of what is left of the text. -/
def takeSection (entry : Json) (rest : Text) : Except String ((String × Text) × Text) := do
  let raw ← sectionEntry entry
  let heading ← manifestString raw "heading"
  let characters ← sectionCharacters raw
  let lead := Headed.lead "## ".toList '\n' heading.toList
  demand (lead <+: rest) "historical prompt section order does not match its manifest"
  let rest := rest.drop lead.length
  demand (characters ≤ rest.length) "historical prompt section character count exceeds the packet"
  return ((heading, rest.take characters), rest.drop characters)

/-- Reads what stands between two sections; nothing stands behind the last. -/
def takeSeparator (last : Bool) (rest : Text) : Except String Text := do
  if last then return rest
  demand ("\n\n".toList <+: rest) "historical prompt section separator is invalid"
  return rest.drop 2

/-- `_parse_rendered_sections`, on what is left of the text. -/
def parseRenderedSections : List Json → Text → Except String (List (String × Text))
  | [], rest =>
      if rest = [] then .ok []
      else .error "historical prompt has content outside its manifest sections"
  | entry :: entries, rest => do
      let (part, rest) ← takeSection entry rest
      let rest ← takeSeparator entries.isEmpty rest
      let parts ← parseRenderedSections entries rest
      return part :: parts

/-- A section as its entry tells it. -/
def storedSection (P : Python) (raw : Fields) (id : String) (rendered : String × Text) :
    PromptSection :=
  let text := fun key default : String => ((raw.get? key).map P.builtins.str).getD default
  { id := id
    heading := rendered.1
    text := rendered.2
    sourceKind := text "source_kind" "historical"
    sourceRef := text "source_ref" id
    selectionReason := text "selection_reason" "Persisted executed packet"
    budget := match raw.get "budget" with
      | .int n => some n
      | .bool b => some (if b then 1 else 0)
      | _ => none
    truncated := truthy (raw.get "truncated") }

/-- A section, from its entry and what stands under its heading. -/
def loadSection (P : Python) (S : Sha256) (entry : Json) (rendered : String × Text) :
    Except String PromptSection := do
  let raw ← sectionEntry entry
  let id ← manifestString raw "id"
  let heading ← manifestString raw "heading"
  demand (rendered.1 = heading) "historical prompt section order does not match its manifest"
  demand (raw.get "sha256" = .str (sha256 S rendered.2))
    "historical prompt section failed its integrity check"
  return storedSection P raw id rendered

/-- The manifest, from what is stored of it. -/
def loadManifest (raw : Fields) (entries : List Json) : Except String PromptManifest := do
  let compilerVersion ← manifestInt raw "compiler_version" 1
  let packetType ← manifestString raw "packet_type"
  let contractSha256 ← manifestString raw "execution_contract_sha256"
  let packetSha256 ← manifestString raw "packet_sha256"
  let characters ← manifestInt raw "characters" 0
  let characterBudget ← manifestInt raw "character_budget" 1
  let omissions ← manifestOmissions (raw.get "optional_omissions")
  return {
    compilerVersion := compilerVersion
    packetType := packetType
    executionContractSha256 := contractSha256
    sections := entries.filterMap fun
      | .obj raw => some raw
      | _ => none
    packetSha256 := packetSha256
    characters := characters
    characterBudget := characterBudget
    optionalOmissions := omissions }

/-- The diagnostics for which a stored packet is refused. -/
def fatalIssues (P : Python) (S : Sha256) (compiled : CompiledPrompt) : List DomainError :=
  (lintPacket P S compiled).filter fun issue => endsWith "hash_mismatch" issue.code

/-- The packet a manifest goes with is the one that is stored. -/
def checkManifest (metadata raw : Fields) (text : Text) (expected : String) :
    Except String Unit := do
  demand (raw.get "packet_sha256" = .str expected)
    "historical prompt manifest packet hash does not match job metadata"
  demand ((raw.get? "characters").all (equalsInt text.length))
    "historical prompt manifest character count is invalid"
  match metadata.get "execution_contract_sha256" with
  | .str contractHash =>
      demand (raw.get "execution_contract_sha256" = .str contractHash)
        "historical prompt manifest does not match its execution contract"
  | _ => return ()

/-- `compiled_prompt_from_metadata`. -/
def compiledPromptFromMetadata (P : Python) (S : Sha256) (metadata : Fields) :
    Except String CompiledPrompt :=
  match metadata.get "prompt_packet", metadata.get "prompt_manifest",
      metadata.get "prompt_packet_sha256" with
  | .str packet, .obj raw, .str expected => do
      demand (S.hexdigest packet = expected) "historical prompt packet failed its integrity check"
      checkManifest metadata raw packet.toList expected
      match Fields.get raw "sections" with
      | .arr entries => do
          let rendered ← parseRenderedSections entries packet.toList
          demand (rendered.length = entries.length)
            "historical prompt section count does not match its manifest"
          let sections ← (entries.zip rendered).mapM fun e => loadSection P S e.1 e.2
          let manifest ← loadManifest raw entries
          let compiled := { text := packet.toList, sections, manifest }
          match fatalIssues P S compiled with
          | [] => return compiled
          | issue :: _ => .error issue.message
      | _ => .error "historical prompt manifest has no section list"
  | _, _, _ => .error "job has no complete immutable prompt packet"

end OpenTulid.Frozen.Prompt
