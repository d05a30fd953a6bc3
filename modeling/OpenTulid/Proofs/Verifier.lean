/-
What an accepted verification says of the submission.

# Sound

Every part of `Sound` but one is read off the empty list of errors: the
report is signed off only with a passed check for each command, the two
manifests are compared, and each complaint about the types, the paths, the
files and the validations is an error of its own (`laterErrors_nil`).

# The lock files

Their identity is the exception. It is taken under the rule that the
workspace shows, not under the frozen one, and a walk that meets a link
gives no identity, which the comparison takes for no difference. A command
that leaves a link where the frozen rule does not look can thus rewrite an
ignored lock file. The verification is sound if and only if the lock files
could be read after the commands just as before (`verify_sound_iff`).
-/
import OpenTulid.Lib.Fallible
import OpenTulid.Runtime.Verifier

namespace OpenTulid.Verify

open Fallible
open Links (Disk Place)

-- ============================================================== duplicates

/-- A value found is one found before, or one of the rest that was seen or
comes twice. -/
theorem mem_duplicatesFrom {value : String} {seen found values : List String} :
    value ∈ duplicatesFrom seen found values ↔
      value ∈ found ∨ (value ∈ values ∧ value ∈ seen) ∨ 2 ≤ values.count value := by
  induction values generalizing seen found with
  | nil => simp [duplicatesFrom]
  | cons first rest ih =>
      rw [duplicatesFrom, ih]
      by_cases hvalue : value = first
      · subst hvalue
        have hfound : value ∈ (if value ∈ seen ∧ value ∉ found then found ++ [value] else found) ↔
            value ∈ found ∨ value ∈ seen := by
          split
          next h => simp [h.1]
          next h =>
            by_cases hseen : value ∈ seen
            · simp [hseen, not_not.mp fun hnot => h ⟨hseen, hnot⟩]
            · simp [hseen]
        have hrest : value ∈ rest ↔ 1 ≤ rest.count value := List.one_le_count_iff.symm
        have hmore : 2 ≤ rest.count value → 1 ≤ rest.count value := by omega
        rw [List.count_cons_self, hfound, hrest]
        simp only [List.mem_cons, true_or, and_true, true_and, Nat.reduceLeDiff]
        tauto
      · have hcount : (first :: rest).count value = rest.count value :=
          List.count_cons_of_ne (Ne.symm hvalue)
        rw [hcount]
        split
        next => simp [hvalue]
        next => simp [hvalue]

/-- `_duplicates` gives the values that come at least twice. -/
theorem mem_duplicates {value : String} {values : List String} :
    value ∈ duplicates values ↔ 2 ≤ values.count value := by
  rw [duplicates, mem_duplicatesFrom]
  simp

theorem nodup_of_duplicates_nil {values : List String} (h : duplicates values = []) :
    values.Nodup := by
  rw [List.nodup_iff_count_le_one]
  intro value
  by_contra hcount
  have hmem : value ∈ duplicates values := mem_duplicates.mpr (by omega)
  rw [h] at hmem
  cases hmem

-- ================================================================ commands

section Checks

variable {W : Type} {m : Machine W} {executor : Executor W}

theorem runCheck_id {index : Nat} {command : VerificationCommand} {w : W} :
    (runCheck m executor index command w).1.id = command.name :=
  executor.named command w

/-- There is one result for each command, in their order. -/
theorem runCommands_ids {index : Nat} {commands : List VerificationCommand} {w : W} :
    (runCommands m executor index commands w).1.map (·.id) = commands.map (·.name) := by
  induction commands generalizing index w with
  | nil => rfl
  | cons command rest ih =>
      rw [runCommands, List.map_cons, List.map_cons, ih]
      exact congrArg (· :: _) runCheck_id

end Checks

/-- What `accepted_inline` looks at. -/
theorem passed_of_acceptedInline {report : VerificationReport}
    (h : report.acceptedInline = true) :
    report.checks ≠ [] ∧ ∀ check ∈ report.checks, check.status = verificationPassed := by
  unfold VerificationReport.acceptedInline at h
  split at h
  next => cases h
  next hsome =>
    split at h
    next => cases h
    next => exact ⟨hsome, by simpa using h⟩

/-- A report without errors has passed and shows no change of the source. -/
theorem reportErrors_nil {report : VerificationReport} (h : reportErrors report [] = []) :
    report.acceptedInline = true ∧ report.sourceMutated = false := by
  obtain ⟨haccepted, hsource⟩ := List.append_eq_nil_iff.mp h
  constructor
  · by_contra hnot
    simp [hnot] at haccepted
  · by_contra hmutated
    simp [hmutated] at hsource

-- ================================================================= sources

section Sources

variable {W : Type} (m : Machine W) (patternMatches : String → RelPath → Bool → Bool)

/-- The lock files can be read: a walk under the rule that the workspace
shows meets files and directories only. -/
def LocksReadable (w : W) : Prop :=
  ∀ entry ∈ (m.source w).entries,
    meets patternMatches (m.discovered w) entry.1 entry.2 = true → unsupported entry.2 = false

variable {m patternMatches}

theorem lockfileIdentity_isSome_iff {w : W} :
    (lockfileIdentity m patternMatches w).isSome = true ↔ LocksReadable m patternMatches w := by
  unfold lockfileIdentity captureLockfileIdentity iterDeliverableFiles LocksReadable
  simp only
  split
  next hany =>
    simp only [Except.map, Except.toOption, Option.isSome_none, Bool.false_eq_true, false_iff]
    intro hall
    obtain ⟨entry, hmem, hunsupported⟩ := List.any_eq_true.mp hany
    obtain ⟨hentry, hmeets⟩ := List.mem_filter.mp hmem
    rw [hall entry hentry hmeets] at hunsupported
    cases hunsupported
  next hany =>
    simp only [Except.map, Except.toOption, Option.isSome_some, true_iff]
    intro entry hentry hmeets
    by_contra hunsupported
    exact hany (List.any_eq_true.mpr
      ⟨entry, List.mem_filter.mpr ⟨hentry, hmeets⟩, by simpa using hunsupported⟩)

end Sources

-- =============================================================== artifacts

section Artifacts

variable (P : Settings) (d : Disk Content)

/-- The path of an artifact leads to a non-empty regular file in the output
directory, with the declared digest where there is one. -/
def Regular (root : List String) (artifact : ArtifactSubmission) : Prop :=
  ∃ home place content,
    resolve P d root = .ok home ∧
    resolve P d (root ++ PosixPath.parts artifact.path) = .ok place ∧ home <+: place ∧
    d.fileAt place = some content ∧ content ≠ [] ∧
    ∀ declared, artifact.sha256 = some declared → P.sha256 content = P.lower declared

variable {P d}

theorem plain_of_resolve {path : List String} {place : Place} (h : resolve P d path = .ok place) :
    d.Plain place :=
  Links.Disk.resolve_plain (mapError_eq_ok.mp h)

/-- A contained path is a resolved one below the resolved root. -/
theorem containedPath_some {root : List String} {value : String} {place : Place}
    (h : containedPath P d root value = .ok (some place)) :
    ∃ home, resolve P d root = .ok home ∧
      resolve P d (root ++ PosixPath.parts value) = .ok place ∧ home <+: place := by
  unfold containedPath at h
  split at h
  next =>
    have hnone := pure_eq_ok.mp h
    cases hnone
  next =>
    obtain ⟨candidate, hcandidate, h⟩ := bind_eq_ok.mp h
    obtain ⟨home, hhome, h⟩ := bind_eq_ok.mp h
    have hplace := pure_eq_ok.mp h
    split at hplace
    next hbelow =>
      cases hplace
      exact ⟨home, hhome, hcandidate, hbelow⟩
    next => cases hplace

/-- The text read at a plain place is that of the file there. -/
theorem fileAt_of_readFile {place : Place} {content : Content} (hplain : d.Plain place)
    (h : d.readFile place = some content) : d.fileAt place = some content := by
  unfold Links.Disk.readFile at h
  split at h
  next => cases h
  next q hfollow =>
    rw [Links.Disk.follow_of_plain hplain hfollow] at h
    exact h

/-- A file without complaints has content, with the declared digest. -/
theorem contentErrors_nil {artifact : ArtifactSubmission} {file : Option Content}
    (h : contentErrors P artifact file = []) :
    ∃ content, file = some content ∧ content ≠ [] ∧
      ∀ declared, artifact.sha256 = some declared → P.sha256 content = P.lower declared := by
  cases file with
  | none => cases h
  | some content =>
      obtain ⟨hempty, hdigest⟩ := List.append_eq_nil_iff.mp h
      refine ⟨content, rfl, ?_, ?_⟩
      · intro hnil
        rw [if_pos hnil] at hempty
        cases hempty
      · intro declared hdeclared
        by_contra hne
        simp only [hdeclared] at hdigest
        rw [if_pos hne] at hdigest
        cases hdigest

/-- An artifact without complaints is a regular one. -/
theorem regular_of_artifactErrors {root allowed : List String} {artifact : ArtifactSubmission}
    (h : artifactErrors P d root allowed artifact = .ok []) : Regular P d root artifact := by
  unfold artifactErrors at h
  obtain ⟨contained, hcontained, h⟩ := bind_eq_ok.mp h
  cases contained with
  | none =>
      have hnil := pure_eq_ok.mp h
      simp at hnil
  | some place =>
      obtain ⟨escapes, -, h⟩ := bind_eq_ok.mp h
      split at h
      next =>
        have hnil := pure_eq_ok.mp h
        simp at hnil
      next =>
        have hnil := (List.append_eq_nil_iff.mp (pure_eq_ok.mp h)).2
        obtain ⟨content, hread, hsome, hdigest⟩ := contentErrors_nil hnil
        obtain ⟨home, hhome, hplace, hbelow⟩ := containedPath_some hcontained
        exact ⟨home, place, content, hhome, hplace, hbelow,
          fileAt_of_readFile (plain_of_resolve hplace) hread, hsome, hdigest⟩

/-- An artifact without complaints is of an allowed type. -/
theorem allowed_of_artifactErrors {root allowed : List String} {artifact : ArtifactSubmission}
    (h : artifactErrors P d root allowed artifact = .ok []) : artifact.type ∈ allowed := by
  unfold artifactErrors at h
  by_contra hnot
  rw [if_neg hnot] at h
  obtain ⟨contained, hcontained, h⟩ := bind_eq_ok.mp h
  cases contained with
  | none =>
      have hnil := pure_eq_ok.mp h
      simp at hnil
  | some place =>
      obtain ⟨escapes, -, h⟩ := bind_eq_ok.mp h
      split at h
      next =>
        have hnil := pure_eq_ok.mp h
        simp at hnil
      next =>
        have hnil := pure_eq_ok.mp h
        simp at hnil

end Artifacts

-- ============================================================= submissions

section Submissions

variable {transition : Frozen.TransitionDefinition} {artifacts : List ArtifactSubmission}
  {changedFiles : List String}

/-- Without complaints about its types and paths a submission has every
required type, every type but the deriving one once, and every path once. -/
theorem submissionErrors_nil (h : submissionErrors transition artifacts changedFiles = []) :
    (∀ type ∈ transition.requires.artifacts, type ∈ artifacts.map (·.type)) ∧
      (∀ type, some type ≠ multiArtifactType transition →
        (artifacts.map (·.type)).count type ≤ 1) ∧
      (artifacts.map (·.path)).Nodup := by
  unfold submissionErrors at h
  simp only [List.append_eq_nil_iff, List.map_eq_nil_iff, List.filter_eq_nil_iff] at h
  obtain ⟨⟨⟨⟨htypes, hpaths⟩, -⟩, hrequired⟩, -⟩ := h
  refine ⟨?_, ?_, nodup_of_duplicates_nil hpaths⟩
  · intro type hmem
    simpa using hrequired type hmem
  · intro type hmulti
    by_contra hcount
    have hmem : type ∈ duplicates (artifacts.map (·.type)) := mem_duplicates.mpr (by omega)
    exact htypes type hmem (by simpa using hmulti)

end Submissions

-- ============================================================= validations

section Validations

variable {W V : Type} (validators : Validators W V)

/-- Every validation of the transition ran and passed. -/
def Validated (calls : List Frozen.ValidationCallDefinition) (w : W) : Prop :=
  calls = [] ∨ ∃ context, validators.context = some context ∧
    (validationRuns validators calls (context w)).map (·.1) = calls ∧
    ∀ run ∈ validationRuns validators calls (context w),
      ∃ outcome, run.2 = .finished outcome ∧ outcome.passed = true

variable {validators}

theorem validationRuns_calls {calls : List Frozen.ValidationCallDefinition} {v : V} :
    (validationRuns validators calls v).map (·.1) = calls := by
  induction calls generalizing v with
  | nil => rfl
  | cons call rest ih =>
      rw [validationRuns]
      split
      next => rw [List.map_cons, ih]
      next =>
        split
        next => rw [List.map_cons, ih]
        next => rw [List.map_cons, ih]

/-- A run without an error is one that finished and passed. -/
theorem passed_of_validationError {call : Frozen.ValidationCallDefinition} {run : ValidationRun}
    (h : validationError call run = none) :
    ∃ outcome, run = .finished outcome ∧ outcome.passed = true := by
  cases run with
  | missing => cases h
  | raised text => cases h
  | finished outcome =>
      refine ⟨outcome, rfl, ?_⟩
      by_contra hnot
      simp [validationError, hnot] at h

theorem validated_of_no_errors {calls : List Frozen.ValidationCallDefinition} {w : W}
    (h : runTrustedValidations validators calls w = []) : Validated validators calls w := by
  unfold runTrustedValidations at h
  split at h
  next hnil => exact .inl (List.isEmpty_iff.mp hnil)
  next hsome =>
    split at h
    next => exact absurd (List.isEmpty_iff.mpr (List.map_eq_nil_iff.mp h)) hsome
    next context hcontext =>
      refine .inr ⟨context, hcontext, validationRuns_calls, ?_⟩
      intro run hrun
      exact passed_of_validationError (List.filterMap_eq_nil_iff.mp h run hrun)

end Validations

-- =================================================================== sound

section Soundness

variable {W V : Type} (m : Machine W) (patternMatches : String → RelPath → Bool → Bool)
  (P : Settings) (validators : Validators W V)

/-- The state that the commands of a contract leave. -/
def afterCommands (executor : Executor W) (contract : Frozen.ExecutionContract) (w : W) : W :=
  (runContractChecks m executor contract w).2.2

/-- What a verification with a report is to say of its request, where the
commands took the state `w` to `after`. -/
structure Sound (request : Request) (contract : Frozen.ExecutionContract)
    (report : VerificationReport) (w after : W) : Prop where
  /-- one check for each command, in order -/
  checks : report.checks.map (·.id) = (commandsOf contract).map (·.name)
  passed : ∀ check ∈ report.checks, check.status = verificationPassed
  some : report.checks ≠ []
  manifest : workspaceManifest m patternMatches (effectiveSelectionFor m contract w) w =
    workspaceManifest m patternMatches (effectiveSelectionFor m contract w) after
  lockfile : lockfileIdentity m patternMatches w = lockfileIdentity m patternMatches after
  required : ∀ type ∈ request.transition.requires.artifacts,
    type ∈ request.artifacts.map (·.type)
  regular : ∀ artifact ∈ request.artifacts, Regular P (m.disk after) request.outputRoot artifact
  /-- no type but the deriving one twice -/
  types : ∀ type, .some type ≠ multiArtifactType request.transition →
    (request.artifacts.map (·.type)).count type ≤ 1
  paths : (request.artifacts.map (·.path)).Nodup
  validations : Validated validators request.transition.requires.validations after

variable {m patternMatches P validators}

/-- Without errors in the rest of a verification no artifact has one. -/
theorem artifactErrors_of_laterErrors {request : Request} {after : W}
    (h : laterErrors m P validators request after = .ok []) {artifact : ArtifactSubmission}
    (hartifact : artifact ∈ request.artifacts) :
    artifactErrors P (m.disk after) request.outputRoot
      (request.transition.requires.artifacts ++ (multiArtifactType request.transition).toList)
      artifact = .ok [] := by
  unfold laterErrors at h
  obtain ⟨each, heach, h⟩ := bind_eq_ok.mp h
  obtain ⟨changed, -, h⟩ := bind_eq_ok.mp h
  have hnil := pure_eq_ok.mp h
  simp only [List.append_eq_nil_iff] at hnil
  obtain ⟨⟨⟨⟨-, hfiles⟩, -⟩, -⟩, -⟩ := hnil
  obtain ⟨errors, herrors, hok⟩ := Fallible.exists_of_mapM heach hartifact
  rwa [List.flatten_eq_nil_iff.mp hfiles errors herrors] at hok

/-- The rest of a verification without errors. -/
theorem laterErrors_nil {request : Request} {after : W}
    (h : laterErrors m P validators request after = .ok []) :
    submissionErrors request.transition request.artifacts request.submission.changedFiles = [] ∧
      (∀ artifact ∈ request.artifacts,
        Regular P (m.disk after) request.outputRoot artifact) ∧
      Validated validators request.transition.requires.validations after := by
  have hregular := fun artifact (hartifact : artifact ∈ request.artifacts) =>
    regular_of_artifactErrors (artifactErrors_of_laterErrors h hartifact)
  unfold laterErrors at h
  obtain ⟨each, -, h⟩ := bind_eq_ok.mp h
  obtain ⟨changed, -, h⟩ := bind_eq_ok.mp h
  have hnil := pure_eq_ok.mp h
  simp only [List.append_eq_nil_iff] at hnil
  obtain ⟨⟨⟨⟨hsubmission, -⟩, -⟩, hvalidations⟩, -⟩ := hnil
  exact ⟨hsubmission, hregular, validated_of_no_errors hvalidations⟩

/-- What the report of a run of the commands holds. -/
theorem enforce_eq_ok {executor : Executor W} {candidateId : Option String}
    {contract : Frozen.ExecutionContract} {w after : W} {report : VerificationReport}
    {errors : List DomainError}
    (h : enforceExecutionContract m patternMatches executor candidateId contract w =
      .ok (report, errors, after)) :
    after = afterCommands m executor contract w ∧
      report.checks = (runContractChecks m executor contract w).1 ∧
      (report.sourceMutated = false →
        workspaceManifest m patternMatches (effectiveSelectionFor m contract w) w =
          workspaceManifest m patternMatches (effectiveSelectionFor m contract w) after ∧
        (LocksReadable m patternMatches w → LocksReadable m patternMatches after →
          lockfileIdentity m patternMatches w = lockfileIdentity m patternMatches after)) := by
  unfold enforceExecutionContract at h
  obtain ⟨pre, hpre, h⟩ := bind_eq_ok.mp h
  obtain ⟨post, hpost, h⟩ := bind_eq_ok.mp h
  cases pure_eq_ok.mp h
  refine ⟨rfl, rfl, ?_⟩
  intro hsource
  simp only [Bool.or_eq_false_iff, decide_eq_false_iff_not, not_not] at hsource
  obtain ⟨hmanifest, hlock⟩ := hsource
  refine ⟨?_, ?_⟩
  · rw [hpre, hmanifest]
    exact hpost.symm
  · intro hbefore hafter
    by_contra hne
    simp [lockfileIdentity_isSome_iff.mpr hbefore, lockfileIdentity_isSome_iff.mpr hafter,
      hne] at hlock

/-- Lock files that could be read neither before nor after have no identity
that could differ. -/
theorem lockfile_eq_of_unreadable {w after : W} (hbefore : ¬ LocksReadable m patternMatches w)
    (hafter : ¬ LocksReadable m patternMatches after) :
    lockfileIdentity m patternMatches w = lockfileIdentity m patternMatches after := by
  have hnone : ∀ state, ¬ LocksReadable m patternMatches state →
      lockfileIdentity m patternMatches state = none := by
    intro state hstate
    rw [← lockfileIdentity_isSome_iff] at hstate
    simpa using hstate
  rw [hnone w hbefore, hnone after hafter]

/-- Everything of `Sound` but the lock files follows from acceptance, and
they are the same if both times they could be read. -/
theorem sound_of_errors_nil {executor : Executor W} {request : Request}
    {contract : Frozen.ExecutionContract} {w after : W} {report : VerificationReport}
    (hrun : enforceExecutionContract m patternMatches executor request.candidateId contract w =
      .ok (report, [], after))
    (hreport : reportErrors report [] = [])
    (hlater : laterErrors m P validators request after = .ok [])
    (hlock : LocksReadable m patternMatches w ↔ LocksReadable m patternMatches after) :
    Sound m patternMatches P validators request contract report w after := by
  obtain ⟨rfl, hchecks, hsame⟩ := enforce_eq_ok hrun
  obtain ⟨haccepted, hsource⟩ := reportErrors_nil hreport
  obtain ⟨hsome, hpassed⟩ := passed_of_acceptedInline haccepted
  obtain ⟨hsubmission, hregular, hvalidated⟩ := laterErrors_nil hlater
  obtain ⟨hrequired, htypes, hpaths⟩ := submissionErrors_nil hsubmission
  obtain ⟨hmanifest, hlockfile⟩ := hsame hsource
  exact {
    checks := by
      rw [hchecks]
      exact runCommands_ids
    passed := hpassed
    some := hsome
    manifest := hmanifest
    lockfile := by
      by_cases hbefore : LocksReadable m patternMatches w
      · exact hlockfile hbefore (hlock.mp hbefore)
      · exact lockfile_eq_of_unreadable hbefore fun hafter => hbefore (hlock.mpr hafter)
    required := hrequired
    regular := hregular
    types := htypes
    paths := hpaths
    validations := hvalidated }

/-- What acceptance with a report says: there was a contract, and neither
the commands nor the report nor the rest gave an error. -/
theorem accepted_inv {executor : Executor W} {request : Request} {w : W}
    {result : VerificationResult} {report : VerificationReport}
    (hresult : verify m patternMatches P executor validators request w = .ok result)
    (haccepted : result.accepted = true) (hreport : result.report = some report) :
    ∃ contract after, request.contract = some contract ∧
      enforceExecutionContract m patternMatches executor request.candidateId contract w =
        .ok (report, [], after) ∧
      reportErrors report [] = [] ∧ laterErrors m P validators request after = .ok [] := by
  unfold verify at hresult
  obtain ⟨⟨made, enforcement, after⟩, hrun, hresult⟩ := bind_eq_ok.mp hresult
  obtain ⟨later, hlater, hresult⟩ := bind_eq_ok.mp hresult
  cases pure_eq_ok.mp hresult
  have hnil := List.isEmpty_iff.mp haccepted
  simp only [hnil, if_true, Option.map_id'] at hreport
  subst hreport
  simp only [List.append_eq_nil_iff, Option.map_some, Option.getD_some] at hnil
  obtain ⟨⟨⟨hfirst, rfl⟩, hof⟩, rfl⟩ := hnil
  rw [hfirst] at hof
  unfold runContract at hrun
  split at hrun
  next => cases hrun
  next contract hcontract =>
    generalize henforce :
      enforceExecutionContract m patternMatches executor request.candidateId contract w = run at hrun
    cases run with
    | error raised => cases hrun
    | ok run =>
        obtain ⟨made, errors, state⟩ := run
        cases hrun
        exact ⟨contract, after, hcontract, henforce, hof, hlater⟩

/-- An accepted verification with a report had a contract, and it is sound
if and only if the lock files could be read after the commands just as
before. -/
theorem verify_sound_iff {executor : Executor W} {request : Request} {w : W}
    {result : VerificationResult} {report : VerificationReport}
    (hresult : verify m patternMatches P executor validators request w = .ok result)
    (haccepted : result.accepted = true) (hreport : result.report = some report) :
    ∃ contract, request.contract = some contract ∧
      (Sound m patternMatches P validators request contract report w
          (afterCommands m executor contract w) ↔
        (LocksReadable m patternMatches w ↔
          LocksReadable m patternMatches (afterCommands m executor contract w))) := by
  obtain ⟨contract, after, hcontract, hrun, hof, hlater⟩ :=
    accepted_inv hresult haccepted hreport
  obtain ⟨rfl, -, -⟩ := enforce_eq_ok hrun
  refine ⟨contract, hcontract, ?_, sound_of_errors_nil hrun hof hlater⟩
  intro hsound
  rw [← lockfileIdentity_isSome_iff, ← lockfileIdentity_isSome_iff, hsound.lockfile]

end Soundness

-- ========================================================= a hidden rewrite

section Hidden

/-- A pattern that is a plain name. -/
def plainName (pattern : String) (path : RelPath) (_isDir : Bool) : Bool :=
  path.getLast? = some pattern

/-- The workspace: one source file. -/
def bareWorkspace : Listing where
  entries := [(["app.py"], .file ⟨[112], 0o644⟩)]
  sorted := List.pairwise_singleton _ _

/-- An installation makes an environment, with the link that stands for the
interpreter, and a lock file. -/
def install (listing : Listing) : Listing :=
  ((listing.put ["env"] .directory).put ["env", "python"] (.link false)).put ["poetry.lock"]
    (.file ⟨[35], 0o644⟩)

/-- A machine whose states are the listings of the workspace. -/
def listingMachine : Machine Listing where
  source listing := listing
  disk _ := ⟨fun p => if p = [] then some .dir else none, rfl, fun p hp h => by simp [hp] at h⟩
  discovered _ := { git := false }
  ignoreFiles _ := [⟨[], "env\npoetry.lock\n"⟩]
  gitChangedFiles _ := none
  writeLog name text listing :=
    ((listing.put [".open-tulid"] .directory).put [".open-tulid", "verification-logs"]
      .directory).put [".open-tulid", "verification-logs", name]
        (.file ⟨text.toUTF8.toList, 0o644⟩)

/-- Every command is an installation that succeeds. -/
def installer : Executor Listing where
  execute command listing :=
    (⟨⟨command.name, "passed", command.argv, some 0, "", "", command.workingDirectory,
      command.timeoutSeconds, command.expectedExitCode, []⟩, none⟩, install listing)
  named _ _ := rfl

/-- A transition that asks for nothing. -/
def plainTransition : Frozen.TransitionDefinition where
  id := "implement"
  taskType := "task"
  fromState := "ready"
  toState := "done"
  worker := some "coder"
  requires := {}
  transaction := none

/-- A contract with the installation as its one command, frozen for a Git
source that tracks `app.py`. -/
def installContract : Frozen.ExecutionContract where
  sourceTask := ⟨"TASK-1", "Title", "TASK-1.md", "ready", "task", [], [], none, [], ""⟩
  transition := plainTransition
  generatedContract := ⟨globalImplementationContractSchema, "TASK-1", "", "global", "", {}, [],
    [], [], [], none, [], [], [], []⟩
  generatedContractArtifactPath := ""
  generatedContractSha256 := ""
  repositoryFacts := ⟨"", true, true, none, none, [], [], [], 1, 1, "",
    some ⟨"tulid.source-selection/v1", .git, 1, ["app.py"], []⟩⟩
  baselineManifest := ⟨"", [], ""⟩
  resolvedChecks := [⟨"install", "global", "command", ["poetry", "install"], none, [], ".", 120,
    {}⟩]

def installRequest : Request where
  workspace := ["w"]
  transition := plainTransition
  submission := {}
  contract := some installContract

def plainSettings : Settings where
  artifactTemplates _ := none
  sha256 _ := ""
  lower text := text
  sameTransition a b := a.id = b.id
  patience := 40

def noValidators : Validators Listing Unit := ⟨none, fun _ => none⟩

/-- The state after the installation and the writing of its logs. -/
def installedWorkspace : Listing :=
  afterCommands listingMachine installer installContract bareWorkspace

/-- What is said of the installation. -/
def installReport : VerificationReport where
  checks := (runContractChecks listingMachine installer installContract bareWorkspace).1
  notRunChecks := 0
  sourceMutated := false

/-- The installation leaves a lock file and, in an ignored folder, a link.
It is accepted, although the lock files could be read before it alone. -/
theorem install_accepted :
    verify listingMachine plainName plainSettings installer noValidators installRequest
        bareWorkspace = .ok ⟨true, [], some installReport⟩ ∧
      ¬ Sound listingMachine plainName plainSettings noValidators installRequest installContract
        installReport bareWorkspace installedWorkspace := by
  refine ⟨rfl, ?_⟩
  intro hsound
  have hlock : some [] = none := hsound.lockfile
  cases hlock

/-- The criterion on this installation. -/
theorem verify_sound_iff_install : ∃ contract, installRequest.contract = some contract ∧
    (Sound listingMachine plainName plainSettings noValidators installRequest contract
        installReport bareWorkspace
        (afterCommands listingMachine installer contract bareWorkspace) ↔
      (LocksReadable listingMachine plainName bareWorkspace ↔
        LocksReadable listingMachine plainName
          (afterCommands listingMachine installer contract bareWorkspace))) :=
  @verify_sound_iff _ _ _ _ _ _ _ _ _ ⟨true, [], some installReport⟩ _ rfl rfl rfl

end Hidden

end OpenTulid.Verify
