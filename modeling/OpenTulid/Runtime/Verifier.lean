/-
The verification of a submission against its frozen contract.

# What it looks at

The verifier runs the commands of the contract in the workspace, one after
the other, and takes the source manifest and the identity of the lock files
before and after; then it looks at the submitted artifacts in the output
directory, runs the trusted validations on a copy, and compares the changed
files. Every complaint is an error, and only a verification without errors
is accepted.

# The machine

`Machine` is what the verifier sees of a state of the machine: the
workspace as a walk lists it, and the file system that paths lead through.
A command, and the writing of a log, take one state to the next. An executor
carries the fact that its answer names the command it was given.

What a review reads of a report beside the checks (the changed paths, their
lines, the request) is left out.
-/
import OpenTulid.Contract.Payload
import OpenTulid.Lib.Links
import OpenTulid.Lib.PosixPath
import OpenTulid.Runtime.RepositoryFacts
import OpenTulid.Source.Ignore

namespace OpenTulid.Verify

open Links (Disk Place)

-- ================================================================ machines

/-- What stands at a path of a workspace. -/
inductive Entry where
  | file (image : FileImage)
  | directory
  | link (toDirectory : Bool)
  /-- a socket, a device -/
  | other
  deriving DecidableEq

/-- A workspace: its entries in the order of their paths. -/
abbrev Listing := Store RelPath Entry

/-- What the verifier sees of the states of a machine. -/
structure Machine (W : Type) where
  /-- the entries below the workspace -/
  source : W → Listing
  /-- the file system -/
  disk : W → Disk Content
  /-- `discover_source_selection` of the workspace -/
  discovered : W → SourceSelection
  /-- `_read_ignore_files` of the workspace -/
  ignoreFiles : W → List IgnoreFile
  /-- `_git_changed_files`, in order -/
  gitChangedFiles : W → Option (List String)
  /-- a log written below the workspace -/
  writeLog : String → String → W → W

-- ================================================================== source

section Source

variable (patternMatches : String → RelPath → Bool → Bool)

/-- A walk meets an entry: no directory above it is left out, nor is the
directory a link stands for. -/
def meets (selection : SourceSelection) (path : RelPath) (entry : Entry) : Bool :=
  FileTree.reached (descends (gitignoreMatches patternMatches) selection) path.dropLast &&
    (entry ≠ .link true || descends (gitignoreMatches patternMatches) selection path)

/-- An entry a walk raises for. -/
def unsupported : Entry → Bool
  | .link _ | .other => true
  | .file _ | .directory => false

/-- `iter_deliverable_files`: the delivered files in order, or the `OSError`
of an entry that is no regular file. -/
def iterDeliverableFiles (selection : SourceSelection) (listing : Listing) :
    Except Raised (List (RelPath × FileImage)) :=
  let met := listing.entries.filter fun (path, entry) => meets patternMatches selection path entry
  if met.any (fun (_, entry) => unsupported entry) then
    .error ⟨"Source symlink requires explicit snapshot support"⟩
  else .ok <| met.filterMap fun (path, entry) =>
    match entry with
    | .file image => if takes (gitignoreMatches patternMatches) selection path then
        some (path, image) else none
    | _ => none

/-- `capture_deliverable_manifest`; a digest is the content it is of. -/
def deliverableManifest (selection : SourceSelection) (listing : Listing) :
    Except Raised (List (RelPath × FileImage)) :=
  iterDeliverableFiles patternMatches selection listing

/-- `LOCKFILE_NAMES` -/
def lockfileNames : List String :=
  Frozen.knownManifests ++ ["package-lock.json", "npm-shrinkwrap.json", "yarn.lock",
    "pnpm-lock.yaml", "Cargo.lock", "Gemfile.lock", "Pipfile.lock", "go.sum"]

/-- `capture_lockfile_identity`: the lock files with their contents. -/
def captureLockfileIdentity (selection : SourceSelection) (listing : Listing) :
    Except Raised (List (RelPath × Content)) :=
  (iterDeliverableFiles patternMatches selection listing).map fun files =>
    (files.filter fun (path, _) => path.getLast?.any (· ∈ lockfileNames)).map
      fun (path, image) => (path, image.content)

end Source

-- ================================================================ commands

/-- One command of a verification. -/
structure VerificationCommand where
  name : String
  argv : List String
  workingDirectory : String
  timeoutSeconds : Int
  expectedExitCode : Int
  deriving DecidableEq

/-- `_as_verification_command`. -/
def asVerificationCommand (check : Frozen.ResolvedCheck) : VerificationCommand where
  name := check.id
  argv := check.argv
  workingDirectory := check.workingDirectory
  timeoutSeconds := check.timeoutSeconds
  expectedExitCode := check.expect.exitCode

/-- The commands of a contract in their declared order. -/
def commandsOf (contract : Frozen.ExecutionContract) : List VerificationCommand :=
  (contract.resolvedChecks.filter (·.runner = "command")).map asVerificationCommand

/-- The result of one command. -/
structure VerificationCheckResult where
  id : String
  status : String
  argv : List String
  exitCode : Option Int
  stdout : String
  stderr : String
  workingDirectory : String
  timeoutSeconds : Int
  expectedExitCode : Int
  logRefs : List String := []
  deriving DecidableEq

/-- The answer of an executor. -/
structure CommandExecutionOutcome where
  check : VerificationCheckResult
  error : Option DomainError := none

/-- An executor: it runs a command, and its answer is named by it. -/
structure Executor (W : Type) where
  execute : VerificationCommand → W → CommandExecutionOutcome × W
  named : ∀ command w, (execute command w).1.check.id = command.name

def verificationPassed : String := "passed"

def verificationNotRunStatus : String := "not_run"

/-- `LOG_EXCERPT_CHARACTER_LIMIT` -/
def logExcerptCharacterLimit : Nat := 2000

/-- `_bounded_excerpt`. -/
def boundedExcerpt (value : String) : String :=
  if value.length ≤ logExcerptCharacterLimit then value
  else
    let marker := "\n[output omitted; full log retained as artifact]"
    String.ofList (value.toList.take (logExcerptCharacterLimit - marker.length)) ++ marker

/-- The name of a log: the number of the check in three digits, and the
stream. -/
def logName (index : Nat) (stream : String) : String :=
  let digits := toString index
  String.ofList (List.replicate (3 - digits.length) '0') ++ digits ++ "." ++ stream ++ ".log"

section Checks

variable {W : Type} (m : Machine W)

/-- One command with its logs. -/
def runCheck (executor : Executor W) (index : Nat) (command : VerificationCommand) (w : W) :
    VerificationCheckResult × Option DomainError × W :=
  let (outcome, w) := executor.execute command w
  let w := m.writeLog (logName index "stdout") outcome.check.stdout w
  let w := m.writeLog (logName index "stderr") outcome.check.stderr w
  ({ outcome.check with
      stdout := boundedExcerpt outcome.check.stdout
      stderr := boundedExcerpt outcome.check.stderr
      logRefs := [logName index "stdout", logName index "stderr"] },
    outcome.error, w)

/-- The commands one after the other. -/
def runCommands (executor : Executor W) :
    Nat → List VerificationCommand → W →
      List VerificationCheckResult × List DomainError × W
  | _, [], w => ([], [], w)
  | index, command :: rest, w =>
      let (check, error, w) := runCheck m executor index command w
      let (checks, errors, w) := runCommands executor (index + 1) rest w
      (check :: checks, error.toList ++ errors, w)

/-- `_run_contract_checks`. -/
def runContractChecks (executor : Executor W) (contract : Frozen.ExecutionContract) (w : W) :
    List VerificationCheckResult × List DomainError × W :=
  runCommands m executor 0 (commandsOf contract) w

end Checks

-- ================================================================= reports

/-- The outcome of the commands. -/
structure VerificationReport where
  classification : Option String := none
  classificationDetail : Option String := none
  checks : List VerificationCheckResult
  candidateId : Option String := none
  notRunChecks : Nat
  sourceMutated : Bool

/-- `accepted_inline`. -/
def VerificationReport.acceptedInline (report : VerificationReport) : Bool :=
  if report.checks = [] then false
  else if report.notRunChecks ≠ 0 then false
  else report.checks.all (·.status = verificationPassed)

/-- `_verification_incomplete_message`. -/
def verificationIncompleteMessage (report : VerificationReport) : String :=
  if report.checks = [] then
    "Verification produced an empty report; an empty report is never success."
  else if report.notRunChecks ≠ 0 then
    s!"Verification left {report.notRunChecks} command(s) never run; never-run commands are not success."
  else "Not every global command passed."

/-- `str.startswith`. -/
def startsWith (word text : String) : Bool := word.toList.isPrefixOf text.toList

/-- `_failure_classification`. -/
def failureClassification (errors : List DomainError) : String :=
  let codes := errors.map (·.code)
  if codes.any (startsWith "verification.baseline") then "baseline_failure"
  else if codes.any fun code =>
      code ∈ ["verification.check_environment", "verification.check_timeout"] ||
        startsWith "verification.env_" code || code = "verification.lockfile_mutated" then
    "environment_failure"
  else if codes.any fun code =>
      ["execution_contract", "verification.path", "verification.deletion", "verification.rename",
        "verification.max_files", "verification.changed_line_budget"].any
        fun word => startsWith word code then
    "contract_failure"
  else "implementation_failure"

/-- The part of `_granular_classification` that goes by the codes. -/
def classificationOfCodes (codes : List String) : Option String :=
  if "verification.source_mutation" ∈ codes then some "source_mutation"
  else if codes.any (startsWith "contract.") then some "malformed_policy"
  else if codes.any fun code =>
      ["verification.dependency", "verification.env_", "verification.lockfile_mutated",
        "contract.check_environment"].any fun word => startsWith word code then
    some "dependency_preparation"
  else if "verification.check_environment" ∈ codes then some "environment_unavailable"
  else if "verification.check_timeout" ∈ codes then some "command_timeout"
  else if "verification.incomplete" ∈ codes then some "infrastructure_interruption"
  else if codes.any (· ≠ "") then some "failed_behavior"
  else none

/-- `_granular_classification` while the report is made. -/
def classificationOfRun (errors : List DomainError) (notRun : Nat) (sourceMutated : Bool) :
    Option String :=
  if sourceMutated then some "source_mutation"
  else if notRun ≠ 0 then some "infrastructure_interruption"
  else classificationOfCodes (errors.map (·.code))

/-- `_granular_classification` of a report that is made again. -/
def granularClassification (report : VerificationReport) (errors : List DomainError) :
    Option String :=
  if report.sourceMutated then some "source_mutation"
  else if report.checks = [] then some "infrastructure_interruption"
  else if report.notRunChecks ≠ 0 then some "infrastructure_interruption"
  else classificationOfCodes (errors.map (·.code))

section Enforce

variable {W : Type} (m : Machine W) (patternMatches : String → RelPath → Bool → Bool)

/-- `_effective_selection_for`: the frozen rule, its ignore files read again
from the workspace. -/
def effectiveSelectionFor (contract : Frozen.ExecutionContract) (w : W) : Option SourceSelection :=
  contract.repositoryFacts.sourceSelection.map fun base =>
    { git := base.mode = .git
      trackedPaths := base.trackedPaths.map PosixPath.parts
      ignoreFiles := if base.mode = .git then m.ignoreFiles w else [] }

/-- `_workspace_deliverable_manifest` under a rule, or under the one the
workspace shows. -/
def workspaceManifest (selection : Option SourceSelection) (w : W) :
    Except Raised (List (RelPath × FileImage)) :=
  deliverableManifest patternMatches (selection.getD (m.discovered w)) (m.source w)

/-- `_capture_lockfile_identity`: nothing where the walk raises. -/
def lockfileIdentity (w : W) : Option (List (RelPath × Content)) :=
  (captureLockfileIdentity patternMatches (m.discovered w) (m.source w)).toOption

/-- `_enforce_execution_contract`: the report, the errors and the state the
commands leave. -/
def enforceExecutionContract (executor : Executor W) (candidateId : Option String)
    (contract : Frozen.ExecutionContract) (w : W) :
    Except Raised (VerificationReport × List DomainError × W) := do
  let selection := effectiveSelectionFor m contract w
  let preManifest ← workspaceManifest m patternMatches selection w
  let preLockfile := lockfileIdentity m patternMatches w
  let (checks, checkErrors, after) := runContractChecks m executor contract w
  let postManifest ← workspaceManifest m patternMatches selection after
  let postLockfile := lockfileIdentity m patternMatches after
  let notRun := checks.countP (·.status = verificationNotRunStatus)
  let lockfileMutated : Bool :=
    preLockfile.isSome && postLockfile.isSome && preLockfile ≠ postLockfile
  let sourceMutated : Bool := preManifest ≠ postManifest || lockfileMutated
  let errors := checkErrors ++ (if lockfileMutated then
    [⟨"verification.lockfile_mutated",
      "Verification rewrote committed dependency locks; the candidate is rejected.",
      candidateId⟩] else [])
  return ({
    classificationDetail := classificationOfRun errors notRun sourceMutated
    checks := checks
    candidateId := candidateId
    notRunChecks := notRun
    sourceMutated := sourceMutated }, errors, after)

end Enforce

-- ============================================================= submissions

/-- A submitted artifact. -/
structure ArtifactSubmission where
  type : String
  path : String
  sha256 : Option String := none
  deriving DecidableEq

/-- An artifact as it may come in. -/
inductive ArtifactItem where
  | record (artifact : ArtifactSubmission)
  | text (value : String)

/-- `normalize_artifacts`. -/
def normalizeArtifacts (items : List ArtifactItem) : List ArtifactSubmission :=
  items.filterMap fun
    | .record artifact => some artifact
    | .text value =>
        let clean := Standard.strip value
        if clean = "" then none else some { type := clean, path := clean }

/-- What a worker submits. -/
structure CompletionSubmission where
  artifacts : List ArtifactItem := []
  changedFiles : List String := []
  validationEvidence : List (String × String) := []
  reviewResult : Option Json.Fields := none

/-- The values that come again, each once. -/
def duplicatesFrom (seen found : List String) : List String → List String
  | [] => found
  | value :: rest =>
      duplicatesFrom (value :: seen)
        (if value ∈ seen ∧ value ∉ found then found ++ [value] else found) rest

/-- `_duplicates`. -/
def duplicates (values : List String) : List String := duplicatesFrom [] [] values

/-- A text with something in it. -/
def filled : Json → Bool
  | .str text => Standard.strip text ≠ ""
  | _ => false

/-- The errors of the remaining blockers of a review. -/
def blockerErrors : Json → List DomainError
  | .arr blockers =>
      ((blockers.filter fun raw => !filled raw).map fun _ =>
        ⟨"completion.review_result_blocker_invalid",
          "A remaining blocker must be a non-empty string.",
          some "review_result.remaining_blockers"⟩) ++
      (if blockers.any filled then
        [⟨"completion.review_blocked",
          "Review found remaining product blockers; route them to the clarification/planning " ++
            "path instead of recording verified implementation success.",
          some "review_result.remaining_blockers"⟩] else [])
  | _ => [⟨"completion.review_result_blocker_invalid",
      "remaining_blockers must be a list of non-empty strings.",
      some "review_result.remaining_blockers"⟩]

/-- `_validate_review_result`. -/
def validateReviewResult : Option Json.Fields → List DomainError
  | none => [⟨"completion.review_result_missing",
      "A review transition requires a compact review_result naming the behavior, " ++
        "the source/test evidence, any defects/fixes, and remaining blockers.",
      some "review_result"⟩]
  | some fields =>
      if (fields.get? "_invalid").isSome || (fields.get? "_review_result_invalid").isSome then
        [⟨"completion.review_result_invalid",
          "Review result is malformed; it must be an object with behavior/evidence fields.",
          some "review_result"⟩]
      else
        (if filled (fields.get "behavior") then [] else
          [⟨"completion.review_result_behavior_missing",
            "Review result must name at least one required behavior.",
            some "review_result.behavior"⟩]) ++
        (if filled (fields.get "evidence") then [] else
          [⟨"completion.review_result_evidence_missing",
            "Review result must cite the source/test evidence inspected for the reported behavior.",
            some "review_result.evidence"⟩]) ++
        blockerErrors ((fields.get? "remaining_blockers").getD (.arr []))

-- ============================================================= validations

/-- The result of a trusted validation. -/
structure ValidationOutcome where
  passed : Bool
  message : String := ""

/-- How a trusted validation came out. -/
inductive ValidationRun where
  | missing
  | raised (text : String)
  | finished (outcome : ValidationOutcome)

/-- The trusted validations: what they work on, made of a copy of the
workspace, and the implementation of each type. -/
structure Validators (W V : Type) where
  context : Option (W → V)
  implementation : String → Option (Frozen.Entries → V → Except String ValidationOutcome × V)

section Validations

variable {W V : Type} (validators : Validators W V)

/-- The validations one after the other. -/
def validationRuns :
    List Frozen.ValidationCallDefinition → V →
      List (Frozen.ValidationCallDefinition × ValidationRun)
  | [], _ => []
  | call :: rest, v =>
      match validators.implementation call.type with
      | none => (call, .missing) :: validationRuns rest v
      | some implementation =>
          match implementation call.args v with
          | (.error text, v) => (call, .raised text) :: validationRuns rest v
          | (.ok outcome, v) => (call, .finished outcome) :: validationRuns rest v

/-- The error of a validation that did not pass. -/
def validationError (call : Frozen.ValidationCallDefinition) : ValidationRun → Option DomainError
  | .missing => some ⟨"completion.validation_unimplemented",
      s!"No trusted validation implementation is installed for {call.type}.", some call.type⟩
  | .raised text => some ⟨"completion.validation_error",
      s!"Trusted validation {call.type} raised: {text}", some call.type⟩
  | .finished outcome =>
      if outcome.passed then none
      else
        let message := if outcome.message = "" then "validation failed" else outcome.message
        some ⟨"completion.validation_failed",
          s!"Trusted validation {call.type} failed: {message}", some call.type⟩

/-- `_run_trusted_validations`. -/
def runTrustedValidations (calls : List Frozen.ValidationCallDefinition) (w : W) :
    List DomainError :=
  if calls.isEmpty then []
  else match validators.context with
    | none => calls.map fun call => ⟨"completion.validation_unavailable",
        "Trusted validation runtime is not configured.", some call.type⟩
    | some context =>
        (validationRuns validators calls (context w)).filterMap fun (call, run) =>
          validationError call run

end Validations

-- =============================================================== artifacts

/-- What the verifier is made with, and what it uses of the language. -/
structure Settings where
  /-- the template of the path of an artifact type -/
  artifactTemplates : String → Option String
  /-- the digest of a file, in hexadecimal -/
  sha256 : Content → String
  /-- `str.lower` -/
  lower : String → String
  /-- equality of transitions -/
  sameTransition : Frozen.TransitionDefinition → Frozen.TransitionDefinition → Bool
  /-- how many links `resolve` follows before it raises -/
  patience : Nat

section Paths

variable (P : Settings) (d : Disk Content)

/-- `Path.resolve`. -/
def resolve (path : List String) : Except Raised Place :=
  (d.resolve P.patience path).mapError fun _ => ⟨"Symlink loop"⟩

/-- `_contained_path`. -/
def containedPath (root : List String) (value : String) : Except Raised (Option Place) := do
  if value = "" || PosixPath.isAbsolute value then return none
  let candidate ← resolve P d (root ++ PosixPath.parts value)
  let place ← resolve P d root
  return if place <+: candidate then some candidate else none

/-- The parts of a path one after the other, below a place. -/
def escapesFrom (place : Place) : Place → List String → Except Raised Bool
  | _, [] => return false
  | current, part :: rest => do
      if part = ".." then return true
      if d.isLink (current ++ [part]) then
        let resolved ← resolve P d (current ++ [part])
        if !decide (place <+: resolved) then return true
      escapesFrom place (current ++ [part]) rest

/-- `_escapes_via_symlink`. -/
def escapesViaSymlink (root : List String) (value : String) : Except Raised Bool := do
  let place ← resolve P d root
  escapesFrom P d place place (PosixPath.parts value)

/-- The errors of the file of an artifact. -/
def contentErrors (artifact : ArtifactSubmission) : Option Content → List DomainError
  | none => [⟨"completion.artifact_not_found",
      s!"Submitted artifact does not exist: {artifact.path}", some artifact.path⟩]
  | some content =>
      (if content = [] then [⟨"completion.artifact_empty",
        s!"Submitted artifact is empty: {artifact.path}", some artifact.path⟩] else []) ++
      match artifact.sha256 with
      | none => []
      | some declared =>
          if P.sha256 content ≠ P.lower declared then
            [⟨"completion.artifact_hash_mismatch",
              s!"Submitted artifact hash does not match: {artifact.path}", some artifact.path⟩]
          else []

/-- The path of an artifact is not that of its template. -/
def templateErrors (artifact : ArtifactSubmission) : List DomainError :=
  match P.artifactTemplates artifact.type with
  | none => []
  | some template =>
      if template ≠ "" ∧ '{' ∉ template.toList ∧ artifact.path ≠ template then
        [⟨"completion.artifact_template_mismatch",
          s!"Artifact path must match template for {artifact.type}: {template}",
          some artifact.path⟩]
      else []

/-- The errors of one artifact. -/
def artifactErrors (root : List String) (allowed : List String) (artifact : ArtifactSubmission) :
    Except Raised (List DomainError) := do
  let first := (if artifact.type ∈ allowed then [] else
      [⟨"completion.artifact_unexpected",
        s!"Artifact type is not required by this transition: {artifact.type}",
        some artifact.type⟩]) ++ templateErrors P artifact
  match ← containedPath P d root artifact.path with
  | none => return first ++ [⟨"completion.artifact_outside_output",
      s!"Artifact path escapes the shared output directory: {artifact.path}",
      some artifact.path⟩]
  | some place =>
      if ← escapesViaSymlink P d root artifact.path then
        return first ++ [⟨"completion.artifact_symlink_escape",
          s!"Artifact path escapes the shared output directory through a symlink: {artifact.path}",
          some artifact.path⟩]
      else return first ++ contentErrors P artifact (d.readFile place)

/-- The errors of one changed file. -/
def changedFileErrors (workspace : List String) (authoritative : Bool) (file : String) :
    Except Raised (List DomainError) := do
  match ← containedPath P d workspace file with
  | none => return [⟨"completion.changed_file_outside_workspace",
      s!"Changed file path escapes the workspace: {file}", some file⟩]
  | some place =>
      if !d.pathExists place && !authoritative && ".open-tulid" ∉ PosixPath.parts file then
        return [⟨"completion.changed_file_not_found",
          s!"Changed file does not exist: {file}", some file⟩]
      else return []

end Paths

-- ================================================================ verifying

/-- The type that may come more than once. -/
def multiArtifactType (transition : Frozen.TransitionDefinition) : Option String :=
  transition.derives.map (·.artifactType)

/-- The errors of the types and paths of a submission as a whole. -/
def submissionErrors (transition : Frozen.TransitionDefinition)
    (artifacts : List ArtifactSubmission) (changedFiles : List String) : List DomainError :=
  let multi := multiArtifactType transition
  let types := artifacts.map (·.type)
  (((duplicates types).filter (some · ≠ multi)).map fun type =>
    ⟨"completion.artifact_duplicate_type",
      s!"Artifact type was submitted more than once: {type}", some type⟩) ++
  ((duplicates (artifacts.map (·.path))).map fun path =>
    ⟨"completion.artifact_duplicate_path",
      s!"Artifact path was submitted more than once: {path}", some path⟩) ++
  ((duplicates changedFiles).map fun file =>
    ⟨"completion.changed_file_duplicate",
      s!"Changed file was submitted more than once: {file}", some file⟩) ++
  ((transition.requires.artifacts.filter (· ∉ types)).map fun type =>
    ⟨"completion.artifact_missing",
      s!"Required artifact was not submitted: {type}", some type⟩) ++
  match transition.derives with
  | none => []
  | some derives =>
      if derives.required && derives.artifactType ∉ types then
        [⟨"completion.derived_task_missing",
          s!"Deriving transition requires at least one {derives.artifactType} artifact.",
          some derives.artifactType⟩]
      else []

/-- The errors of the evidence for the validations. -/
def evidenceErrors (transition : Frozen.TransitionDefinition)
    (evidence : List (String × String)) : List DomainError :=
  (transition.requires.validations.filter fun call =>
    ((evidence.lookup call.type).map Standard.strip).getD "" = "").map fun call =>
      ⟨"completion.validation_evidence_missing",
        s!"Validation evidence is missing for {call.type}.", some call.type⟩

/-- The errors of a report. -/
def reportErrors (report : VerificationReport) (errors : List DomainError) : List DomainError :=
  let signaled := errors.any fun error =>
    startsWith "verification." error.code && error.code ≠ "verification.incomplete"
  (if !report.acceptedInline && !signaled then
    [⟨"verification.incomplete", verificationIncompleteMessage report, report.candidateId⟩]
  else []) ++
  (if report.sourceMutated then
    [⟨"verification.source_mutation",
      "Verification mutated tracked source; the candidate is rejected.", report.candidateId⟩]
  else [])

/-- `GLOBAL_IMPLEMENTATION_CONTRACT_SCHEMA` -/
def globalImplementationContractSchema : String := "tulid.global_contract/v1"

/-- What a verification is asked. -/
structure Request where
  workspace : List String
  /-- the output directory, below the workspace where none is given -/
  outputDir : Option (List String) := none
  transition : Frozen.TransitionDefinition
  submission : CompletionSubmission
  contract : Option Frozen.ExecutionContract := none
  candidateId : Option String := none
  reviewTransition : Bool := false

namespace Request

def outputRoot (request : Request) : List String :=
  request.outputDir.getD (request.workspace ++ ["output"])

def artifacts (request : Request) : List ArtifactSubmission :=
  normalizeArtifacts request.submission.artifacts

/-- The candidate is the authority on what has changed. -/
def authoritative (request : Request) : Bool :=
  request.contract.any fun contract =>
    contract.generatedContract.schema = globalImplementationContractSchema

end Request

/-- The answer of a verification. -/
structure VerificationResult where
  accepted : Bool
  errors : List DomainError
  report : Option VerificationReport

section Verify

variable {W V : Type} (m : Machine W) (patternMatches : String → RelPath → Bool → Bool)
  (P : Settings) (executor : Executor W) (validators : Validators W V)

/-- The errors before the commands. -/
def firstErrors (request : Request) : List DomainError :=
  (if request.reviewTransition then validateReviewResult request.submission.reviewResult
  else []) ++
  match request.contract with
  | none => []
  | some contract =>
      if P.sameTransition contract.transition request.transition then []
      else [⟨"execution_contract.transition_mismatch",
        "Verifier transition does not match the frozen execution contract.",
        some request.transition.id⟩]

/-- The commands of the contract, where there is one. -/
def runContract (request : Request) (w : W) :
    Except Raised (Option VerificationReport × List DomainError × W) :=
  match request.contract with
  | none => .ok (none, [], w)
  | some contract =>
      (enforceExecutionContract m patternMatches executor request.candidateId contract w).map
        fun (report, errors, after) => (some report, errors, after)

/-- The errors of the changed files. -/
def changedFilesErrors (request : Request) (after : W) : Except Raised (List DomainError) := do
  let files := request.submission.changedFiles
  let missing : List DomainError :=
    if request.transition.requires.changedFilesRequired && files.isEmpty &&
        !request.authoritative then
      [⟨"completion.changed_files_missing",
        "Changed-file evidence is required for this transition.", none⟩]
    else []
  let each ← files.mapM fun file =>
    changedFileErrors P (m.disk after) request.workspace request.authoritative file
  let mismatch : List DomainError :=
    match m.gitChangedFiles after with
    | none => []
    | some actual =>
        if !request.authoritative && !(files.all (· ∈ actual) && actual.all (· ∈ files)) then
          [⟨"completion.changed_files_mismatch",
            "Submitted changed files do not match the workspace diff.",
            some (",".intercalate actual)⟩]
        else []
  return missing ++ each.flatten ++ mismatch

/-- Everything after the commands. -/
def laterErrors (request : Request) (after : W) : Except Raised (List DomainError) := do
  let transition := request.transition
  let allowed := transition.requires.artifacts ++ (multiArtifactType transition).toList
  let each ← request.artifacts.mapM fun artifact =>
    artifactErrors P (m.disk after) request.outputRoot allowed artifact
  let changed ← changedFilesErrors m P request after
  return submissionErrors transition request.artifacts request.submission.changedFiles ++
    each.flatten ++ evidenceErrors transition request.submission.validationEvidence ++
    runTrustedValidations validators transition.requires.validations after ++ changed

/-- `DeterministicVerifier.verify`. -/
def verify (request : Request) (w : W) : Except Raised VerificationResult := do
  let (report, enforcement, after) ← runContract m patternMatches executor request w
  let first := firstErrors P request ++ enforcement
  let ofReport := (report.map fun report => reportErrors report first).getD []
  let later ← laterErrors m P validators request after
  let errors := first ++ ofReport ++ later
  let report := report.map fun report =>
    if errors = [] then report
    else { report with
      classification := some (failureClassification errors)
      classificationDetail := granularClassification report errors }
  return { accepted := errors.isEmpty, errors := errors, report := report }

end Verify

end OpenTulid.Verify
