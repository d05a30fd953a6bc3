/-
The compiler: from a workflow document to the definition the runtime works
with.

The tables of a definition are kept by id, so that of two statements of a
kind with one id the later stands, and the diagnostics about a table come in
the order of its ids. Names of arguments and the keys of every mapping become
their texts on the way (`freezeMapping`); of two keys with one text the later
stands.
-/
import OpenTulid.Engine.Validation
import OpenTulid.Workflow

namespace OpenTulid.Engine

open Doc

-- ============================================================= registries

/-- `RuntimeRegistries`: the ids of what is implemented, and what
`validate_registries` finds wrong with the entries. -/
structure RuntimeRegistries where
  validations : List String
  operations : List String
  workers : List String
  faults : List Diagnostic := []
  deriving DecidableEq

/-- `get_builtin_registries`. -/
def builtinRegistries : RuntimeRegistries where
  validations := ["project_build", "git_status_clean", "file_exists", "artifact_in_vault",
    "artifact_link_in_vault", "artifact_matches_template", "template_sections_present",
    "template_required_fields_present", "artifact_has_required_text",
    "artifacts_match_template", "branch_exists", "tests_pass",
    "implementation_contract_valid", "link_target_exists"]
  operations := ["move_task", "copy_file", "copy_field", "set_field", "link_artifact",
    "git_add", "git_commit", "git_reset_hard", "create_branch", "checkout_branch",
    "write_file", "append_event", "update_kanban_view"]
  workers := ["local_llm", "shell_command", "human_approval", "noop", "codex", "opencode"]

-- ============================================================= definitions

/-- A compiled state. -/
structure CompiledState where
  id : String
  terminalOutcome : Option String
  deriving DecidableEq, Repr

/-- A compiled task type. -/
structure CompiledTaskType where
  id : String
  requirementsByState : List (String × RequirementSet)
  instructions : List String
  deriving DecidableEq, Repr

/-- A compiled artifact type. -/
structure CompiledArtifactType where
  id : String
  template : Option String
  deriving DecidableEq, Repr

/-- A compiled validation or operation type. -/
structure CompiledCallType where
  id : String
  args : List (Scalar × ArgSpec)
  implementationId : String
  deriving DecidableEq, Repr

/-- A compiled worker. -/
structure CompiledWorker where
  id : String
  type : Option String
  implementationId : String
  instructions : List String
  deriving DecidableEq, Repr

/-- A compiled transition. -/
structure CompiledTransition where
  id : String
  taskType : String
  fromState : String
  toState : String
  worker : Option String
  requires : RequirementSet
  transaction : Option TransactionPlan
  derives : Option DerivesSpec
  defaultForScheduler : Bool
  review : Bool
  instructions : List String
  deriving DecidableEq, Repr

/-- A workflow definition with all its tables. -/
structure CompiledWorkflow where
  schemaVersion : Int
  states : Store String CompiledState := ∅
  taskTypes : Store String CompiledTaskType := ∅
  artifactTypes : Store String CompiledArtifactType := ∅
  validationTypes : Store String CompiledCallType := ∅
  operationTypes : Store String CompiledCallType := ∅
  workers : Store String CompiledWorker := ∅
  transitions : Store String CompiledTransition := ∅
  storage : Option Entries := none
  deriving DecidableEq

-- ================================================================ freezing

/-- `_freeze_value`. -/
def freezeValue : Value → Value := coerceStorageConfig

/-- `_freeze_mapping`. -/
def freezeMapping (mapping : Entries) : Entries := freezeInto freezeValue [] mapping

/-- `_requirement_set_to_def`. -/
def requirementSetToDef (req : RequirementSet) : RequirementSet :=
  { req with validations := req.validations.map fun call =>
      { call with args := freezeMapping call.args } }

/-- `_transaction_to_def`. -/
def transactionToDef (plan : TransactionPlan) : TransactionPlan where
  steps := plan.steps.map fun step => { step with args := freezeMapping step.args }

-- ======================================================== legacy semantics

/-- A blank before every capital that follows a small letter or a digit. -/
def separateCapitals : List Char → List Char
  | [] => []
  | [c] => [c]
  | c :: d :: rest =>
      if (c.isLower || c.isDigit) && d.isUpper then c :: ' ' :: separateCapitals (d :: rest)
      else c :: separateCapitals (d :: rest)

/-- `is_review_transition`, for a transition that does not declare it. -/
def isReviewTransition (id fromState : String) : Bool :=
  let value := separateCapitals (s!"{id} {fromState}").toList
  let tokens := (value.map Char.toLower).splitBy fun c d =>
    (c.isLower || c.isDigit) && (d.isLower || d.isDigit)
  "review".toList ∈ tokens

-- ============================================================== statements

/-- The arguments of a validation or operation type. -/
def argSpecsToDef (args : List (Scalar × ArgSpec)) : List (Scalar × ArgSpec) :=
  freezeInto id [] args

/-- The review of a transition: as declared, or as legacy names have it. -/
def reviewOf (t : TransitionStatement) : Bool :=
  t.review.getD (t.worker.isSome && isReviewTransition t.id t.fromState)

/-- The definition of a transition. -/
def transitionToDef (t : TransitionStatement) : CompiledTransition where
  id := t.id
  taskType := t.taskType
  fromState := t.fromState
  toState := t.toState
  worker := t.worker
  requires := requirementSetToDef t.requires
  transaction := t.transaction.map transactionToDef
  derives := t.derives
  defaultForScheduler := t.defaultForScheduler
  review := reviewOf t
  instructions := t.instructions

/-- The implementation of a worker. -/
def workerImplementation (id : String) (type : Option String) : String := type.getD id

/-- What is wrong with a statement by itself. -/
def statementDiagnostics (registries : RuntimeRegistries) : Statement → List Diagnostic
  | .state id outcome =>
      let spelling := outcome.getD ""
      if outcome.all (· ∈ supportedTerminalOutcomes) then []
      else [⟨"workflow.compile.unknown_terminal_outcome",
        s!"state '{id}' declares unknown terminal_outcome '{spelling}'; expected one of ['cancelled', 'failure', 'success']",
        .error⟩]
  | .validationType id _ =>
      if id ∈ registries.validations then []
      else [⟨"workflow.compile.unsupported_validation",
        s!"validation_type '{id}' is not registered", .error⟩]
  | .operationType id _ =>
      if id ∈ registries.operations then []
      else [⟨"workflow.compile.unsupported_operation",
        s!"operation_type '{id}' is not registered", .error⟩]
  | .worker id type _ =>
      if workerImplementation id type ∈ registries.workers then []
      else [⟨"workflow.compile.unsupported_worker",
        s!"worker '{id}' uses unsupported implementation '{workerImplementation id type}'",
        .error⟩]
  | .transition t =>
      if t.review.isNone && reviewOf t then [⟨"workflow.compile.legacy_review_semantics",
        s!"Transition '{t.id}' uses legacy review detection; declare review: true explicitly.",
        .warning⟩]
      else []
  | .taskType _ _ _ | .artifactType _ _ => []

/-- The definition with a statement's entry set. -/
def CompiledWorkflow.define (w : CompiledWorkflow) : Statement → CompiledWorkflow
  | .state id outcome =>
      { w with states := w.states.put id { id := id, terminalOutcome := outcome } }
  | .taskType id requirements instructions =>
      let definition : CompiledTaskType := {
        id := id
        requirementsByState := requirements.map fun e => (e.1, requirementSetToDef e.2)
        instructions := instructions }
      { w with taskTypes := w.taskTypes.put id definition }
  | .artifactType id template =>
      { w with artifactTypes := w.artifactTypes.put id { id := id, template := template } }
  | .validationType id args =>
      let definition : CompiledCallType :=
        { id := id, args := argSpecsToDef args, implementationId := id }
      { w with validationTypes := w.validationTypes.put id definition }
  | .operationType id args =>
      let definition : CompiledCallType :=
        { id := id, args := argSpecsToDef args, implementationId := id }
      { w with operationTypes := w.operationTypes.put id definition }
  | .worker id type instructions =>
      let definition : CompiledWorker := {
        id := id
        type := type
        implementationId := workerImplementation id type
        instructions := instructions }
      { w with workers := w.workers.put id definition }
  | .transition t => { w with transitions := w.transitions.put t.id (transitionToDef t) }

-- ======================================================== cross references

/-- A diagnostic unless a table has the id. -/
def checkDeclared {α : Type} (entries : Store String α) (id code message : String) :
    List Diagnostic :=
  if (entries.get id).isSome then [] else [⟨code, message, .error⟩]

namespace CompiledWorkflow

variable (w : CompiledWorkflow)

/-- `_validate_requirement_refs_with_spans`. -/
def requirementRefs (ctx : String) (req : RequirementSet) : List Diagnostic :=
  (req.artifacts.flatMap fun artifact => checkDeclared w.artifactTypes artifact
    "workflow.compile.unknown_artifact_ref"
    s!"{ctx} references unknown artifact_type '{artifact}'") ++
  req.validations.flatMap fun call => checkDeclared w.validationTypes call.type
    "workflow.compile.unknown_validation_ref"
    s!"{ctx} references unknown validation_type '{call.type}'"

/-- The references of a task type. -/
def taskTypeRefs (tt : CompiledTaskType) : List Diagnostic :=
  tt.requirementsByState.flatMap fun e =>
    checkDeclared w.states e.1 "workflow.compile.unknown_state_ref"
      s!"task_type '{tt.id}' references unknown state '{e.1}'" ++
    w.requirementRefs s!"task_type '{tt.id}' state '{e.1}'" e.2

/-- The references of a derivation. -/
def derivesRefs (ctx : String) (derives : DerivesSpec) : List Diagnostic :=
  checkDeclared w.taskTypes derives.taskType "workflow.compile.unknown_task_type_ref"
    s!"{ctx} derives unknown task_type '{derives.taskType}'" ++
  checkDeclared w.states derives.state "workflow.compile.unknown_state_ref"
    s!"{ctx} derives into unknown state '{derives.state}'" ++
  checkDeclared w.artifactTypes derives.artifactType "workflow.compile.unknown_artifact_ref"
    s!"{ctx} derives from unknown artifact_type '{derives.artifactType}'" ++
  derives.parentToIfDerived.toList.flatMap fun state =>
    checkDeclared w.states state "workflow.compile.unknown_state_ref"
      s!"{ctx} derives into unknown parent_to_if_derived state '{state}'"

/-- The references of a transition. -/
def transitionRefs (t : CompiledTransition) : List Diagnostic :=
  let ctx := s!"transition '{t.id}'"
  checkDeclared w.taskTypes t.taskType "workflow.compile.unknown_task_type_ref"
    s!"{ctx} references unknown task_type '{t.taskType}'" ++
  checkDeclared w.states t.fromState "workflow.compile.unknown_state_ref"
    s!"{ctx} references unknown from_state '{t.fromState}'" ++
  checkDeclared w.states t.toState "workflow.compile.unknown_state_ref"
    s!"{ctx} references unknown to_state '{t.toState}'" ++
  (t.worker.toList.flatMap fun worker =>
    checkDeclared w.workers worker "workflow.compile.unknown_worker_ref"
      s!"{ctx} references unknown worker '{worker}'") ++
  w.requirementRefs ctx t.requires ++
  t.derives.toList.flatMap (w.derivesRefs ctx) ++
  t.transaction.toList.flatMap fun plan => plan.steps.flatMap fun step =>
    checkDeclared w.operationTypes step.op "workflow.compile.unknown_operation_ref"
      s!"{ctx} transaction references unknown operation_type '{step.op}'"

/-- `_validate_cross_references_with_ast`. -/
def crossReferences : List Diagnostic :=
  w.taskTypes.values.flatMap w.taskTypeRefs ++ w.transitions.values.flatMap w.transitionRefs

end CompiledWorkflow

-- ================================================================= storage

/-- `_normalized_storage_config`. -/
def normalizedStorageConfig (config : Entries) : Entries :=
  let source := match config.get? "obsidian" with
    | some (.map obsidian) =>
        if !config.has "boards" && !config.has "state_mappings" then obsidian else config
    | _ => config
  freezeInto id [] source

/-- The parts of a state mapping that are strings. -/
def mappingParts (mapping : Value) : Option (String × String × String) :=
  match mapping with
  | .map m =>
      match Entries.get m "state", Entries.get m "board", Entries.get m "column" with
      | .scalar (.str state), .scalar (.str board), .scalar (.str column) =>
          some (state, board, column)
      | _, _, _ => none
  | _ => none

/-- The state mappings of a storage, those with a part that is no string
passed over. -/
def checkMappings (states : Store String CompiledState) (boards : Entries)
    (seenStates : List String) (seenColumns : List (String × String)) :
    List Value → List Diagnostic
  | [] => []
  | mapping :: rest =>
      match mappingParts mapping with
      | none => checkMappings states boards seenStates seenColumns rest
      | some (state, board, column) =>
          checkDeclared states state "workflow.compile.unknown_state_ref"
            s!"storage maps unknown state '{state}'" ++
          (if boards.has board then [] else [⟨"workflow.compile.unknown_board_ref",
            s!"storage maps state '{state}' to unknown board '{board}'", .error⟩]) ++
          (if state ∈ seenStates then [⟨"workflow.compile.duplicate_state_mapping",
            s!"storage maps state '{state}' more than once", .error⟩] else []) ++
          (if (board, column) ∈ seenColumns then
            [⟨"workflow.compile.duplicate_board_column_mapping",
              s!"storage maps board column '{board}'/'{column}' more than once", .error⟩]
          else []) ++
          checkMappings states boards (state :: seenStates) ((board, column) :: seenColumns) rest

/-- `_validate_storage_refs`: where the boards are no mapping or the state
mappings no list, nothing is checked. -/
def storageRefs (storage : Option Entries) (states : Store String CompiledState) :
    List Diagnostic :=
  match storage with
  | none => []
  | some config =>
      let config := normalizedStorageConfig config
      match config.get "boards", config.get "state_mappings" with
      | .map boards, .list mappings => checkMappings states boards [] [] mappings
      | _, _ => []

-- ======================================================= terminal semantics

/-- Some transition leaves the state. -/
def CompiledWorkflow.leaves (w : CompiledWorkflow) (state : String) : Bool :=
  w.transitions.values.any (·.fromState = state)

/-- A declared outcome that contradicts a transition. -/
def terminalConflict (state : CompiledState) (outcome : String) : Diagnostic :=
  ⟨"workflow.compile.terminal_conflict",
    s!"state '{state.id}' declares terminal outcome '{outcome}' but still has an outgoing transition",
    .error⟩

/-- A state without transitions that declares no outcome. -/
def ambiguousTerminalState (state : CompiledState) : Diagnostic :=
  ⟨"workflow.compile.ambiguous_terminal_state",
    s!"state '{state.id}' has no outgoing transitions and no declared terminal_outcome; declare terminal_outcome (success|failure|cancelled) to migrate this legacy ambiguous terminal state",
    .warning⟩

/-- `_validate_terminal_semantics`. -/
def CompiledWorkflow.terminalSemantics (w : CompiledWorkflow) : List Diagnostic :=
  w.states.values.flatMap fun state =>
    match state.terminalOutcome, w.leaves state.id with
    | some outcome, true => [terminalConflict state outcome]
    | none, false => [ambiguousTerminalState state]
    | _, _ => []

-- ================================================================ compiling

/-- The tables of a document. -/
def compiledTables (document : WorkflowDocument) : CompiledWorkflow :=
  document.statements.foldl CompiledWorkflow.define { schemaVersion := document.schemaVersion }

/-- What the compiler reports about a document. -/
def compileDiagnostics (registries : RuntimeRegistries) (document : WorkflowDocument) :
    List Diagnostic :=
  let w := compiledTables document
  document.statements.flatMap (statementDiagnostics registries) ++ w.crossReferences ++
    storageRefs document.storage w.states ++ w.terminalSemantics

/-- `compile_workflow`. -/
def compileWorkflow (registries : RuntimeRegistries) (document : WorkflowDocument) :
    List Diagnostic × Option CompiledWorkflow :=
  if registries.faults ≠ [] then (registries.faults, none)
  else
    let diags := compileDiagnostics registries document
    if noErrors diags then
      (diags, some { compiledTables document with
        storage := document.storage.map fun config =>
          freezeMapping (normalizedStorageConfig config) })
    else (diags, none)

-- ======================================== what the runtime reads of it

/-- The outcome of a spelling. -/
def outcomeOf : String → Option TerminalOutcome
  | "success" => some .success
  | "failure" => some .failure
  | "cancelled" => some .cancelled
  | _ => none

/-- The part of a definition that says what a task's state and type mean. -/
def CompiledWorkflow.toDefinition (w : CompiledWorkflow) : WorkflowDefinition where
  states := w.states.map fun state =>
    { id := state.id, terminalOutcome := state.terminalOutcome.bind outcomeOf }
  taskTypes := w.taskTypes.keys
  transitions := w.transitions.map fun t => {
    id := t.id
    taskType := t.taskType
    fromState := t.fromState
    toState := t.toState
    worker := t.worker
    derives := t.derives.map fun d => {
      taskType := d.taskType
      state := d.state
      artifactType := d.artifactType
      parentToIfDerived := d.parentToIfDerived }
    requiredArtifacts := t.requires.artifacts
    review := t.review
    defaultForScheduler := t.defaultForScheduler
    declaredReview := t.review }

end OpenTulid.Engine
