/-
The round trip of a frozen execution contract: what the compiler may emit
and what the decoders take back.
-/
import OpenTulid.Proofs.FrozenValues
import Mathlib

namespace OpenTulid.Frozen

open Json (Fields)
open Fallible

-- ================================================== what can be stored

/-- A task that its decoder takes back. -/
structure Task.Storable (task : Task) : Prop where
  id : task.id ≠ ""
  title : task.title ≠ ""
  path : task.path ≠ ""
  currentState : task.currentState ≠ ""
  taskType : task.taskType ≠ ""
  dependencies : "" ∉ task.dependencies
  artifactLinks : "" ∉ task.artifactLinks
  metadata : plainEntries task.metadata = true

/-- A derivation that its decoder takes back. -/
structure DerivesDefinition.Storable (derives : DerivesDefinition) : Prop where
  taskType : derives.taskType ≠ ""
  state : derives.state ≠ ""
  artifactType : derives.artifactType ≠ ""
  parentToIfDerived : derives.parentToIfDerived ≠ some ""

/-- A transition that its decoder takes back. -/
structure TransitionDefinition.Storable (transition : TransitionDefinition) : Prop where
  id : transition.id ≠ ""
  taskType : transition.taskType ≠ ""
  fromState : transition.fromState ≠ ""
  toState : transition.toState ≠ ""
  artifacts : "" ∉ transition.requires.artifacts
  validations : ∀ call ∈ transition.requires.validations,
    call.type ≠ "" ∧ plainEntries call.args = true
  steps : ∀ transaction, transition.transaction = some transaction →
    ∀ step ∈ transaction.steps, step.op ≠ "" ∧ plainEntries step.args = true
  derives : ∀ derives, transition.derives = some derives → derives.Storable
  instructions : "" ∉ transition.instructions

variable {B : Builtins} {S : Sha256}

-- ================================================================ a task

theorem taskFromDict_taskToDict (task : Task) :
    taskFromDict B (taskToDict task) = .ok task ↔ task.Storable := by
  unfold taskFromDict taskToDict
  simp only [mapping, ok_bind, bind_eq_ok, pure_eq_ok, requiredString_eq_ok, Fields.get,
    Fields.get?, List.lookup, objectOf, jsonValue]
  simp only [beq_self_eq_true, String.reduceBEq, Option.getD_some, Json.str.injEq,
    Except.ok.injEq, stringTuple_strings, stringOrNull_orNull, B.str_str]
  constructor
  · rintro ⟨_, rfl, _, rfl, _, ⟨rfl, id⟩, _, ⟨rfl, title⟩, _, ⟨rfl, path⟩, _, ⟨rfl, currentState⟩, _,
      ⟨rfl, taskType⟩, _, ⟨rfl, dependencies⟩, _, ⟨rfl, artifactLinks⟩, heq⟩
    have hmetadata := congrArg Task.metadata heq
    exact ⟨id, title, path, currentState, taskType, dependencies, artifactLinks,
      (arguments_return_iff _).mp hmetadata⟩
  · intro h
    refine ⟨_, rfl, _, rfl, _, ⟨rfl, h.id⟩, _, ⟨rfl, h.title⟩, _, ⟨rfl, h.path⟩, _,
      ⟨rfl, h.currentState⟩, _, ⟨rfl, h.taskType⟩, _, ⟨rfl, h.dependencies⟩, _,
      ⟨rfl, h.artifactLinks⟩, ?_⟩
    rw [(arguments_return_iff _).mpr h.metadata]

-- ========================================================== a transition

theorem validationFromDict_callToDict (call : ValidationCallDefinition) :
    validationFromDict (callToDict "type" call.type call.args) = .ok call ↔
      call.type ≠ "" ∧ plainEntries call.args = true := by
  unfold validationFromDict callToDict
  simp only [mapping, ok_bind, bind_eq_ok, pure_eq_ok, requiredString_eq_ok, Fields.get,
    Fields.get?, List.lookup, objectOf, jsonValue]
  simp only [beq_self_eq_true, String.reduceBEq, Option.getD_some, Json.str.injEq,
    Except.ok.injEq]
  rw [← arguments_return_iff]
  constructor
  · rintro ⟨_, rfl, _, ⟨rfl, type⟩, heq⟩
    exact ⟨type, congrArg ValidationCallDefinition.args heq⟩
  · rintro ⟨type, args⟩
    exact ⟨_, rfl, _, ⟨rfl, type⟩, by rw [args]⟩

theorem operationFromDict_callToDict (step : OperationCallDefinition) :
    operationFromDict (callToDict "op" step.op step.args) = .ok step ↔
      step.op ≠ "" ∧ plainEntries step.args = true := by
  unfold operationFromDict callToDict
  simp only [mapping, ok_bind, bind_eq_ok, pure_eq_ok, requiredString_eq_ok, Fields.get,
    Fields.get?, List.lookup, objectOf, jsonValue]
  simp only [beq_self_eq_true, String.reduceBEq, Option.getD_some, Json.str.injEq,
    Except.ok.injEq]
  rw [← arguments_return_iff]
  constructor
  · rintro ⟨_, rfl, _, ⟨rfl, op⟩, heq⟩
    exact ⟨op, congrArg OperationCallDefinition.args heq⟩
  · rintro ⟨op, args⟩
    exact ⟨_, rfl, _, ⟨rfl, op⟩, by rw [args]⟩

/-- The transaction of a transition, stored. -/
def transactionToDict (transaction : TransactionDefinition) : Json := .obj [
  ("steps", .arr (transaction.steps.map fun step => callToDict "op" step.op step.args))]

theorem transactionFromDict_transactionToDict (transaction : TransactionDefinition) :
    transactionFromDict (transactionToDict transaction) = .ok transaction ↔
      ∀ step ∈ transaction.steps, step.op ≠ "" ∧ plainEntries step.args = true := by
  have hsteps := mapM_return_iff operationFromDict
    (fun step => callToDict "op" step.op step.args) transaction.steps
  simp only [operationFromDict_callToDict] at hsteps
  rw [← hsteps]
  unfold transactionFromDict transactionToDict
  simp only [mapping, ok_bind, bind_eq_ok, pure_eq_ok, Fields.get?, List.lookup, listOf]
  simp only [beq_self_eq_true, Except.ok.injEq]
  constructor
  · rintro ⟨_, rfl, _, hmap, rfl⟩
    exact hmap
  · exact fun hmap => ⟨_, rfl, _, hmap, rfl⟩

theorem derivesFromDict_derivesToDict (derives : DerivesDefinition) :
    derivesFromDict (derivesToDict derives) = .ok derives ↔ derives.Storable := by
  unfold derivesFromDict derivesToDict
  simp only [mapping, ok_bind, bind_eq_ok, pure_eq_ok, requiredString_eq_ok, Fields.get,
    Fields.get?, List.lookup, boolOr]
  simp only [beq_self_eq_true, String.reduceBEq, Option.getD_some, Json.str.injEq,
    Except.ok.injEq, filledOrNull_orNull]
  constructor
  · rintro ⟨_, rfl, _, ⟨rfl, parent⟩, _, ⟨rfl, taskType⟩, _, ⟨rfl, state⟩, _, ⟨rfl, artifactType⟩, -⟩
    exact ⟨taskType, state, artifactType, parent⟩
  · intro h
    exact ⟨_, rfl, _, ⟨rfl, h.parentToIfDerived⟩, _, ⟨rfl, h.taskType⟩, _, ⟨rfl, h.state⟩, _,
      ⟨rfl, h.artifactType⟩, rfl⟩

theorem transitionFromDict_transitionToDict (transition : TransitionDefinition) :
    transitionFromDict B (transitionToDict transition) = .ok transition ↔
      transition.Storable := by
  have hvalidations := mapM_return_iff validationFromDict
    (fun call => callToDict "type" call.type call.args)
    transition.requires.validations
  have htransaction := orAbsent_return_iff transactionFromDict
    transactionToDict transition.transaction nofun
  have hderives := orAbsent_return_iff derivesFromDict
    derivesToDict transition.derives nofun
  simp only [validationFromDict_callToDict] at hvalidations
  simp only [transactionFromDict_transactionToDict] at htransaction
  simp only [derivesFromDict_derivesToDict] at hderives
  unfold transactionToDict at htransaction
  -- the review stands before the instructions, if there is one
  have hinstructions : List.lookup "instructions"
      ((transition.review.map fun review => ("review", review.val)).toList ++
        [("instructions", strings transition.instructions)]) =
      some (strings transition.instructions) := by
    cases transition.review with
    | none => rfl
    | some review => rfl
  have hreview : List.lookup "review"
      ((transition.review.map fun review => ("review", review.val)).toList ++
        [("instructions", strings transition.instructions)]) =
      transition.review.map Subtype.val := by
    cases transition.review with
    | none => rfl
    | some review => rfl
  unfold transitionFromDict transitionToDict
  simp only [mapping, ok_bind, bind_eq_ok, pure_eq_ok, requiredString_eq_ok, Fields.get,
    Fields.get?, List.lookup, List.cons_append, List.nil_append, listOf]
  simp only [beq_self_eq_true, String.reduceBEq, Option.getD_some, Json.str.injEq,
    Except.ok.injEq, stringTuple_strings, stringOrNull_orNull, hinstructions, hreview,
    given_val, exists_eq_left', List.lookup]
  constructor
  · rintro ⟨_, hvals, _, htx, _, hder, _, ⟨rfl, id⟩, _, ⟨rfl, taskType⟩, _, ⟨rfl, fromState⟩,
      _, ⟨rfl, toState⟩, _, ⟨rfl, artifacts⟩, _, ⟨rfl, instructions⟩, heq⟩
    obtain rfl := congrArg (fun t => t.requires.validations) heq
    obtain rfl := congrArg TransitionDefinition.transaction heq
    obtain rfl := congrArg TransitionDefinition.derives heq
    exact {
      id := id
      taskType := taskType
      fromState := fromState
      toState := toState
      artifacts := artifacts
      validations := hvalidations.mp hvals
      steps := htransaction.mp htx
      derives := hderives.mp hder
      instructions := instructions }
  · intro h
    exact ⟨_, hvalidations.mpr h.validations, _, htransaction.mpr h.steps, _,
      hderives.mpr h.derives, _, ⟨rfl, h.id⟩, _, ⟨rfl, h.taskType⟩, _, ⟨rfl, h.fromState⟩, _,
      ⟨rfl, h.toState⟩, _, ⟨rfl, h.artifacts⟩, _, ⟨rfl, h.instructions⟩, rfl⟩

-- =========================================================== a repository

theorem ofName_value (mode : SelectionMode) : SelectionMode.ofName mode.value = .ok mode := by
  cases mode <;> rfl

/-- A selection comes back unless one of its tracked paths is blank. -/
theorem selectionFromDict_sourceSelectionToDict (selection : SourceSelection) :
    selectionFromDict B (sourceSelectionToDict selection) = .ok selection ↔
      ∀ path ∈ selection.trackedPaths, OpenTulid.strip path ≠ "" := by
  have htracked : trackedTuple B (strings selection.trackedPaths) =
      selection.trackedPaths.filter fun path => OpenTulid.strip path ≠ "" := by
    rw [strings, trackedTuple, map_str]
  have hignored : (itemsOf (.arr (selection.ignoreFiles.map fun file => .obj [
      ("base_dir", .str file.baseDir), ("content", .str file.content),
      ("sha256", .str file.sha256)]))).filterMap (ignoreFileFromDict B) =
      selection.ignoreFiles := by
    rw [itemsOf, List.filterMap_map]
    have hfile : ignoreFileFromDict B ∘ (fun file : IgnoreFile => Json.obj [
        ("base_dir", .str file.baseDir), ("content", .str file.content),
        ("sha256", .str file.sha256)]) = some := by
      funext file
      simp [ignoreFileFromDict, Fields.get?, List.lookup, B.str_str]
    rw [hfile, List.filterMap_some]
  unfold selectionFromDict sourceSelectionFromDict sourceSelectionToDict
  simp only [bind_eq_ok, pure_eq_ok, Fields.get, Fields.get?, List.lookup]
  simp only [beq_self_eq_true, String.reduceBEq, Option.getD_some, B.str_str, B.int_int,
    ofName_value, Except.ok.injEq, htracked, hignored, exists_eq_left']
  constructor
  · intro heq
    have hpaths := congrArg SourceSelection.trackedPaths heq
    intro path hpath
    exact of_decide_eq_true (List.filter_eq_self.mp hpaths path hpath)
  · intro h
    rw [List.filter_eq_self.mpr fun path hpath => decide_eq_true (h path hpath)]

/-- Facts of a repository that their decoder takes back. -/
structure RepositoryFacts.Storable (facts : RepositoryFacts) : Prop where
  schema : facts.schema ≠ ""
  topLevelEntries : "" ∉ facts.topLevelEntries
  manifests : "" ∉ facts.manifests
  detectedEntrypoints : "" ∉ facts.detectedEntrypoints
  sha256 : facts.sha256 ≠ ""
  selection : ∀ selection, facts.sourceSelection = some selection →
    ∀ path ∈ selection.trackedPaths, OpenTulid.strip path ≠ ""

theorem boolOrNull_getD {text : String} {value read : Option Bool} :
    boolOrNull text ((value.map Json.bool).getD .null) = .ok read ↔ value = read := by
  cases value <;> simp [boolOrNull]

theorem repositoryFactsFromDict_repositoryFactsToDict (facts : RepositoryFacts) :
    repositoryFactsFromDict B (repositoryFactsToDict facts) = .ok facts ↔ facts.Storable := by
  have hselection := orAbsent_return_iff (selectionFromDict B)
    sourceSelectionToDict facts.sourceSelection nofun
  simp only [selectionFromDict_sourceSelectionToDict] at hselection
  unfold repositoryFactsFromDict repositoryFactsToDict
  simp only [mapping, ok_bind, bind_eq_ok, pure_eq_ok, requiredString_eq_ok, Fields.get,
    Fields.get?, List.lookup]
  simp only [beq_self_eq_true, String.reduceBEq, Option.getD_some, Json.str.injEq,
    Except.ok.injEq, stringTuple_strings, stringOrNull_orNull, boolOrNull_getD, B.int_int,
    exists_eq_left']
  constructor
  · rintro ⟨_, hsel, _, ⟨rfl, schema⟩, _, ⟨rfl, topLevelEntries⟩, _, ⟨rfl, manifests⟩, _,
      ⟨rfl, detectedEntrypoints⟩, _, ⟨rfl, sha256⟩, heq⟩
    obtain rfl := congrArg RepositoryFacts.sourceSelection heq
    exact ⟨schema, topLevelEntries, manifests, detectedEntrypoints, sha256,
      hselection.mp hsel⟩
  · intro h
    exact ⟨_, hselection.mpr h.selection, _, ⟨rfl, h.schema⟩, _, ⟨rfl, h.topLevelEntries⟩, _,
      ⟨rfl, h.manifests⟩, _, ⟨rfl, h.detectedEntrypoints⟩, _, ⟨rfl, h.sha256⟩, rfl⟩

theorem entryFromDict_entryToDict (entry : FileManifestEntry) :
    entryFromDict B (entryToDict entry) = .ok entry ↔ entry.path ≠ "" ∧ entry.sha256 ≠ "" := by
  have hmode : List.lookup "mode" (entry.mode.map fun mode => ("mode", mode.val)).toList =
      entry.mode.map Subtype.val := by
    cases entry.mode with
    | none => rfl
    | some mode => rfl
  unfold entryFromDict entryToDict
  simp only [mapping, ok_bind, bind_eq_ok, pure_eq_ok, requiredString_eq_ok, Fields.get,
    Fields.get?, List.lookup, List.cons_append, List.nil_append]
  simp only [beq_self_eq_true, String.reduceBEq, Option.getD_some, Json.str.injEq,
    Except.ok.injEq, B.int_int, hmode, given_val, exists_eq_left']
  constructor
  · rintro ⟨_, ⟨rfl, path⟩, _, ⟨rfl, sha256⟩, -⟩
    exact ⟨path, sha256⟩
  · rintro ⟨path, sha256⟩
    exact ⟨_, ⟨rfl, path⟩, _, ⟨rfl, sha256⟩, rfl⟩

/-- A manifest that its decoder takes back. -/
structure BaselineManifest.Storable (manifest : BaselineManifest) : Prop where
  schema : manifest.schema ≠ ""
  entries : ∀ entry ∈ manifest.entries, entry.path ≠ "" ∧ entry.sha256 ≠ ""
  sha256 : manifest.sha256 ≠ ""

theorem baselineManifestFromDict_baselineManifestToDict (manifest : BaselineManifest) :
    baselineManifestFromDict B (baselineManifestToDict manifest) = .ok manifest ↔
      manifest.Storable := by
  have hentries := mapM_return_iff (entryFromDict B) entryToDict
    manifest.entries
  simp only [entryFromDict_entryToDict] at hentries
  unfold baselineManifestFromDict baselineManifestToDict
  simp only [mapping, ok_bind, bind_eq_ok, pure_eq_ok, requiredString_eq_ok, Fields.get,
    Fields.get?, List.lookup, listOf]
  simp only [beq_self_eq_true, String.reduceBEq, Option.getD_some, Json.str.injEq,
    Except.ok.injEq, exists_eq_left']
  constructor
  · rintro ⟨_, hmap, _, ⟨rfl, schema⟩, _, ⟨rfl, sha256⟩, heq⟩
    obtain rfl := congrArg BaselineManifest.entries heq
    exact ⟨schema, hentries.mp hmap, sha256⟩
  · intro h
    exact ⟨_, hentries.mpr h.entries, _, ⟨rfl, h.schema⟩, _, ⟨rfl, h.sha256⟩, rfl⟩

-- ================================================================= checks

/-- A check that its decoder takes back. -/
structure ResolvedCheck.Storable (check : ResolvedCheck) : Prop where
  id : check.id ≠ ""
  source : check.source ≠ ""
  runner : check.runner ≠ ""
  argv : "" ∉ check.argv
  validationArgs : plainEntries check.validationArgs = true
  workingDirectory : check.workingDirectory ≠ ""
  stdoutContains : "" ∉ check.expect.stdoutContains
  stderrContains : "" ∉ check.expect.stderrContains

theorem resolvedCheckFromDict_resolvedCheckToDict (check : ResolvedCheck) :
    resolvedCheckFromDict B (resolvedCheckToDict check) = .ok check ↔ check.Storable := by
  unfold resolvedCheckFromDict resolvedCheckToDict expectToDict
  simp only [mapping, ok_bind, bind_eq_ok, pure_eq_ok, requiredString_eq_ok, Fields.get,
    Fields.get?, List.lookup, objectOf, jsonValue]
  simp only [beq_self_eq_true, String.reduceBEq, Option.getD_some, Json.str.injEq,
    Except.ok.injEq, stringTuple_strings, stringOrNull_orNull, B.int_int, exists_eq_left',
    List.lookup]
  constructor
  · rintro ⟨_, ⟨rfl, id⟩, _, ⟨rfl, source⟩, _, ⟨rfl, runner⟩, _, ⟨rfl, argv⟩, _,
      ⟨rfl, workingDirectory⟩, _, ⟨rfl, stdoutContains⟩, _, ⟨rfl, stderrContains⟩, heq⟩
    exact ⟨id, source, runner, argv,
      (arguments_return_iff _).mp (congrArg ResolvedCheck.validationArgs heq), workingDirectory,
      stdoutContains, stderrContains⟩
  · intro h
    refine ⟨_, ⟨rfl, h.id⟩, _, ⟨rfl, h.source⟩, _, ⟨rfl, h.runner⟩, _, ⟨rfl, h.argv⟩, _,
      ⟨rfl, h.workingDirectory⟩, _, ⟨rfl, h.stdoutContains⟩, _, ⟨rfl, h.stderrContains⟩, ?_⟩
    rw [(arguments_return_iff _).mpr h.validationArgs]

-- ====================================================== linked documents

/-- An excerpt that its decoder takes back. -/
structure FrozenContextExcerpt.Storable (S : Sha256) (excerpt : FrozenContextExcerpt) :
    Prop where
  artifact : excerpt.artifact ≠ ""
  heading : excerpt.heading ≠ ""
  reason : excerpt.reason ≠ ""
  text : excerpt.text ≠ ""
  sha256 : S.hexdigest excerpt.text = excerpt.sha256
  contextFilePath : excerpt.contextFilePath ≠ some ""

theorem excerptReason_str {legacy : Bool} {s read : String} :
    excerptReason legacy (.str s) = .ok read ↔ s = read ∧ read ≠ "" := by
  unfold excerptReason
  dsimp only
  split
  next hempty =>
    subst hempty
    constructor
    · nofun
    · rintro ⟨rfl, hne⟩
      exact absurd rfl hne
  next hne =>
    rw [Except.ok.injEq]
    constructor
    · rintro rfl
      exact ⟨rfl, hne⟩
    · exact fun h => h.1

theorem excerptFromDict_excerptToDict (legacy : Bool) (excerpt : FrozenContextExcerpt) :
    excerptFromDict S legacy (excerptToDict excerpt) = .ok excerpt ↔ excerpt.Storable S := by
  unfold excerptFromDict excerptToDict
  simp only [mapping, ok_bind, bind_eq_ok, pure_eq_ok, requiredString_eq_ok, Fields.get,
    Fields.get?, List.lookup]
  simp only [beq_self_eq_true, String.reduceBEq, Option.getD_some, Json.str.injEq,
    excerptReason_str, filledOrNull_orNull, demand_eq_ok]
  constructor
  · rintro ⟨_, ⟨rfl, text⟩, _, ⟨rfl, -⟩, -, sha256, _, ⟨rfl, reason⟩, _,
      ⟨rfl, contextFilePath⟩, _, ⟨rfl, artifact⟩, _, ⟨rfl, heading⟩, -⟩
    exact ⟨artifact, heading, reason, text, sha256, contextFilePath⟩
  · intro h
    have hsha : excerpt.sha256 ≠ "" := h.sha256 ▸ S.nonempty _
    exact ⟨_, ⟨rfl, h.text⟩, _, ⟨rfl, hsha⟩, (), h.sha256, _, ⟨rfl, h.reason⟩, _,
      ⟨rfl, h.contextFilePath⟩, _, ⟨rfl, h.artifact⟩, _, ⟨rfl, h.heading⟩, rfl⟩

/-- A frozen file that its decoder takes back. -/
structure FrozenContextFile.Storable (S : Sha256) (file : FrozenContextFile) : Prop where
  workspacePath : file.workspacePath ≠ ""
  inside : inContextArea file.workspacePath = true
  content : file.content ≠ ""
  sha256 : S.hexdigest file.content = file.sha256
  byteCount : file.byteCount = (OpenTulid.utf8 file.content).length
  reason : file.reason ≠ ""
  role : file.role ≠ ""
  refs : "" ∉ file.refs
  sourcePaths : "" ∉ file.sourcePaths

theorem byteCountOf_int {content : String} {n read : Int} :
    byteCountOf content (some (.int n)) = .ok read ↔
      n = read ∧ read = (OpenTulid.utf8 content).length := by
  unfold byteCountOf
  simp only [Option.getD_some]
  split
  next hne =>
    constructor
    · nofun
    · rintro ⟨rfl, heq⟩
      exact absurd heq hne
  next heq =>
    rw [Except.ok.injEq]
    constructor
    · rintro rfl
      exact ⟨rfl, not_not.mp heq⟩
    · exact fun h => h.1

theorem contextFileFromDict_contextFileToDict (file : FrozenContextFile) :
    contextFileFromDict B S (contextFileToDict file) = .ok file ↔ file.Storable S := by
  unfold contextFileFromDict contextFileToDict
  simp only [mapping, ok_bind, bind_eq_ok, pure_eq_ok, requiredString_eq_ok, Fields.get,
    Fields.get?, List.lookup, boolOr, demand_eq_ok]
  simp only [beq_self_eq_true, String.reduceBEq, Option.getD_some, Json.str.injEq,
    Except.ok.injEq, exists_eq_left', byteCountOf_int, stringTuple_strings, B.str_str]
  constructor
  · rintro ⟨_, ⟨rfl, content⟩, _, ⟨rfl, -⟩, -, sha256, _, ⟨rfl, byteCount⟩, _, ⟨rfl, reason⟩,
      _, ⟨rfl, workspacePath⟩, -, inside, _, ⟨rfl, refs⟩, _, ⟨rfl, sourcePaths⟩, heq⟩
    refine ⟨workspacePath, inside, content, sha256, byteCount, reason, fun hempty => ?_, refs,
      sourcePaths⟩
    have hrole := congrArg FrozenContextFile.role heq
    dsimp only at hrole
    rw [if_pos hempty, hempty] at hrole
    exact absurd hrole (by decide)
  · intro h
    have hsha : file.sha256 ≠ "" := h.sha256 ▸ S.nonempty _
    refine ⟨_, ⟨rfl, h.content⟩, _, ⟨rfl, hsha⟩, (), h.sha256, _, ⟨rfl, h.byteCount⟩, _,
      ⟨rfl, h.reason⟩, _, ⟨rfl, h.workspacePath⟩, (), h.inside, _, ⟨rfl, h.refs⟩, _,
      ⟨rfl, h.sourcePaths⟩, ?_⟩
    rw [if_neg h.role]

-- ===================================================== the whole contract

theorem objective_ne (task : Task) (intent : String) :
    (globalContractDraft task intent).objective ≠ "" := by
  simp only [globalContractDraft]
  split
  next =>
    intro h
    have hchars := congrArg String.toList h
    simp [toString] at hchars
  next hne => exact hne

/-- The contract generated for a task comes back once its task has an
identity. -/
theorem generatedFromDict_globalContractDraft
    {legacy : Fields → Except String ImplementationContractDraft} {task : Task}
    {intent : String} (hid : task.id ≠ "") (hintent : intent ≠ "") :
    generatedFromDict B legacy
      (implementationContractToDict (globalContractDraft task intent) "" "") =
      .ok (globalContractDraft task intent, "", "") := by
  have hobjective := objective_ne task intent
  have hempty : ∀ {read : List String}, stringTuple B (strings []) = .ok read ↔ [] = read := by
    intro read
    rw [stringTuple_strings]
    constructor
    · exact fun h => h.1
    · rintro rfl
      exact ⟨rfl, List.not_mem_nil⟩
  have hdraft : globalContractDraft task intent = {
      schema := globalSchema, sourceTaskId := task.id, sourceIntentSha256 := intent,
      profile := "code_change", objective := (globalContractDraft task intent).objective,
      changeSurface := {}, requirements := [], focusedChecks := [], invariants := [] } := rfl
  rw [hdraft]
  generalize (globalContractDraft task intent).objective = objective at hobjective
  unfold generatedFromDict implementationContractToDict globalDraftFromDict
  simp only [mapping, ok_bind, Fields.get, Fields.get?, List.lookup, beq_self_eq_true,
    String.reduceBEq, Option.getD_some, isText, decide_true, if_true, bind_eq_ok, pure_eq_ok,
    requiredString_eq_ok, Json.str.injEq, B.str_str, exists_eq_left',
    optionalIntValue, orNull, optionalStringValue, Option.map_none, Option.getD_none, hempty]
  exact ⟨_, ⟨_, ⟨rfl, by decide⟩, _, ⟨rfl, hid⟩, _, ⟨rfl, hintent⟩, _, ⟨rfl, by decide⟩, _,
    ⟨rfl, hobjective⟩, rfl⟩, rfl⟩

/-- The payload of a contract without its digest. -/
theorem executionContractBody_eq_ok {c : ExecutionContract} {body : Fields}
    (h : executionContractBody S c = .ok body) :
    ∃ intent, taskSourceIntentSha256 S c.sourceTask = .ok intent ∧ body = [
      ("schema", .str "tulid.execution/v1"),
      ("compiler_version", .int 1),
      ("prompt_compiler_version", .int 4),
      ("source", .obj [
        ("task", taskToDict c.sourceTask),
        ("source_intent_sha256", .str intent)]),
      ("generated_contract", implementationContractToDict c.generatedContract
        c.generatedContractArtifactPath c.generatedContractSha256),
      ("transition", transitionToDict c.transition),
      ("transition_sha256", .str (S.canonical (transitionToDict c.transition))),
      ("repository", .obj [
        ("facts", repositoryFactsToDict c.repositoryFacts),
        ("baseline_manifest", baselineManifestToDict c.baselineManifest)]),
      ("resolved_checks", .arr (c.resolvedChecks.map resolvedCheckToDict)),
      ("context_excerpts", .arr (c.contextExcerpts.map excerptToDict)),
      ("context_files", .arr (c.contextFiles.map contextFileToDict))] := by
  obtain ⟨intent, hintent, hbody⟩ := bind_eq_ok.mp h
  exact ⟨intent, hintent, (pure_eq_ok.mp hbody).symm⟩

/-- A contract whose every part its decoder takes back. -/
structure ExecutionContract.Storable (S : Sha256) (c : ExecutionContract) : Prop where
  task : c.sourceTask.Storable
  transition : c.transition.Storable
  facts : c.repositoryFacts.Storable
  manifest : c.baselineManifest.Storable
  checks : ∀ check ∈ c.resolvedChecks, check.Storable
  excerpts : ∀ excerpt ∈ c.contextExcerpts, excerpt.Storable S
  files : ∀ file ∈ c.contextFiles, file.Storable S

/-- A contract comes back from its payload if and only if every part can be
stored, the generated contract aside. -/
theorem contractFromPayload_iff {legacy : Fields → Except String ImplementationContractDraft}
    {c : ExecutionContract} {body : Fields} (hbody : executionContractBody S c = .ok body)
    (hgenerated : c.sourceTask.Storable → generatedFromDict B legacy
      (implementationContractToDict c.generatedContract c.generatedContractArtifactPath
        c.generatedContractSha256) = .ok (c.generatedContract,
          c.generatedContractArtifactPath, c.generatedContractSha256)) :
    contractFromPayload B S legacy c.sha256 body = .ok c ↔ c.Storable S := by
  obtain ⟨intent, -, rfl⟩ := executionContractBody_eq_ok hbody
  have hchecks := mapM_return_iff (resolvedCheckFromDict B)
    resolvedCheckToDict c.resolvedChecks
  have hfiles := mapM_return_iff (contextFileFromDict B S)
    contextFileToDict c.contextFiles
  have hexcerpts := mapM_return_iff (excerptFromDict S (equalsInt 1 (.int 4)))
    excerptToDict c.contextExcerpts
  simp only [resolvedCheckFromDict_resolvedCheckToDict] at hchecks
  simp only [contextFileFromDict_contextFileToDict] at hfiles
  simp only [excerptFromDict_excerptToDict] at hexcerpts
  unfold contractFromPayload
  simp only [mapping, ok_bind, Fields.get, Fields.get?, List.lookup, beq_self_eq_true,
    String.reduceBEq, Option.getD_some, bind_eq_ok, pure_eq_ok, aList, listOf]
  constructor
  · rintro ⟨task, htask, transition, htransition, generated, -, facts, hfacts, manifest,
      hmanifest, checks, hcheck, excerpts, hexcerpt, files, hfile, heq⟩
    obtain rfl := congrArg ExecutionContract.sourceTask heq
    obtain rfl := congrArg ExecutionContract.transition heq
    obtain rfl := congrArg ExecutionContract.repositoryFacts heq
    obtain rfl := congrArg ExecutionContract.baselineManifest heq
    obtain rfl := congrArg ExecutionContract.resolvedChecks heq
    obtain rfl := congrArg ExecutionContract.contextExcerpts heq
    obtain rfl := congrArg ExecutionContract.contextFiles heq
    exact {
      task := (taskFromDict_taskToDict _).mp htask
      transition := (transitionFromDict_transitionToDict _).mp htransition
      facts := (repositoryFactsFromDict_repositoryFactsToDict _).mp hfacts
      manifest := (baselineManifestFromDict_baselineManifestToDict _).mp hmanifest
      checks := hchecks.mp hcheck
      excerpts := hexcerpts.mp hexcerpt
      files := hfiles.mp hfile }
  · intro h
    exact ⟨_, (taskFromDict_taskToDict _).mpr h.task, _,
      (transitionFromDict_transitionToDict _).mpr h.transition, _, hgenerated h.task, _,
      (repositoryFactsFromDict_repositoryFactsToDict _).mpr h.facts, _,
      (baselineManifestFromDict_baselineManifestToDict _).mpr h.manifest, _,
      hchecks.mpr h.checks, _, hexcerpts.mpr h.excerpts, _, hfiles.mpr h.files, rfl⟩

end OpenTulid.Frozen
