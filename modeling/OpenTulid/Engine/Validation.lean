/-
Validation: the symbol table of a document, and the visitor that checks its
references and calls against it.

There is one table for each kind of statement. Of two statements of a kind
with one id the first is entered and the second diagnosed.
-/
import OpenTulid.Engine.Loader
import OpenTulid.Lib.Store
import Mathlib.Data.String.Basic

namespace OpenTulid.Engine

open Doc

-- ============================================================ symbol table

/-- `SymbolTable`: the statements of each kind by their ids. -/
abbrev SymbolTable := Kind → Store String Statement

/-- The table with a statement entered. -/
def SymbolTable.enter (table : SymbolTable) (stmt : Statement) : SymbolTable := fun kind =>
  if kind = stmt.kind then (table kind).put stmt.id stmt else table kind

/-- `build_symbol_table`, behind the statements entered already. -/
def buildSymbolTable (table : SymbolTable) : List Statement → List Diagnostic × SymbolTable
  | [] => ([], table)
  | stmt :: rest =>
      if ((table stmt.kind).get stmt.id).isSome then
        let (diags, done) := buildSymbolTable table rest
        (⟨"workflow.symbol.duplicate_id", s!"duplicate {stmt.kind.value} id: '{stmt.id}'",
          .error⟩ :: diags, done)
      else buildSymbolTable (table.enter stmt) rest

-- ================================================================ visitor

/-- The code of an unknown reference. -/
def unknownCode : Kind → String
  | .state => "workflow.reference.unknown_state"
  | .taskType => "workflow.reference.unknown_task_type"
  | .artifactType => "workflow.reference.unknown_artifact"
  | .validationType => "workflow.reference.unknown_validation"
  | .worker => "workflow.reference.unknown_worker"
  | .operationType => "workflow.reference.unknown_operation"
  | .transition => ""

section

variable (table : SymbolTable)

/-- A diagnostic unless a table has the id. -/
def checkKnown (kind : Kind) (id message : String) : List Diagnostic :=
  if ((table kind).get id).isSome then [] else [⟨unknownCode kind, message, .error⟩]

/-- A supplied value of a wrong type. -/
def wrongArgument (message : String) : List Diagnostic :=
  [⟨"workflow.call.wrong_argument_type", message, .error⟩]

/-- `_validate_single_value`. -/
def validateSingleValue (callKind : String) (argName : Scalar) (argType : String)
    (value : Value) : List Diagnostic :=
  if argType = "string" then
    if Lang.text value then [] else
      wrongArgument s!"{callKind} arg {keyRepr argName} expects string, got {typeName value}"
  else if argType = "integer" then
    match value with
    | .scalar (.int _) => []
    | _ => wrongArgument s!"{callKind} arg {keyRepr argName} expects integer, got {typeName value}"
  else if argType = "boolean" then
    if Lang.bool value then [] else
      wrongArgument s!"{callKind} arg {keyRepr argName} expects boolean, got {typeName value}"
  else match referenceArgType argType with
  | some kind =>
      match value with
      | .scalar (.str id) => checkKnown table kind id
          s!"{callKind} arg {keyRepr argName} references unknown {kind.value}: '{id}'"
      | _ => wrongArgument
          s!"{callKind} arg {keyRepr argName} expects string reference, got {typeName value}"
  | none => [⟨"workflow.call.unknown_argument_type", s!"unknown arg type: '{argType}'", .error⟩]

/-- `_validate_arg_value`. -/
def validateArgValue (callKind : String) (argName : Scalar) (spec : ArgSpec) (value : Value) :
    List Diagnostic :=
  match value, spec.many with
  | .list items, true =>
      items.flatMap (validateSingleValue table callKind argName spec.type)
  | .list _, false => wrongArgument
      s!"{callKind} arg {keyRepr argName} with many:false must be a scalar, got list"
  | value, true => wrongArgument
      s!"{callKind} arg {keyRepr argName} with many:true must be a list, got {typeName value}"
  | value, false => validateSingleValue table callKind argName spec.type value

/-- The entry of a key in a dictionary, keys compared as Python compares them. -/
def entryOf {α : Type} (key : Scalar) (entries : List (Scalar × α)) : Option α :=
  (entries.find? fun e => e.1.sameKey key).map Prod.snd

/-- `_validate_call_args`. -/
def validateCallArgs (callKind : String) (supplied : Entries)
    (declared : List (Scalar × ArgSpec)) : List Diagnostic :=
  (declared.filter fun e => e.2.required && (entryOf e.1 supplied).isNone).map (fun e =>
    ⟨"workflow.call.missing_required_argument",
      s!"{callKind} call missing required argument: {keyRepr e.1}", .error⟩) ++
  (supplied.filter fun e => (entryOf e.1 declared).isNone).map (fun e =>
    ⟨"workflow.call.unknown_argument",
      s!"{callKind} call has unknown argument: {keyRepr e.1}", .error⟩) ++
  declared.flatMap fun e =>
    match entryOf e.1 supplied with
    | none => []
    | some value => validateArgValue table callKind e.1 e.2 value

/-- The arguments a statement declares. -/
def Statement.args : Statement → List (Scalar × ArgSpec)
  | .validationType _ args => args
  | .operationType _ args => args
  | _ => []

/-- `visit_validation_call`. -/
def visitValidationCall (call : ValidationCall) : List Diagnostic :=
  match (table .validationType).get call.type with
  | none => [⟨unknownCode .validationType,
      s!"validation call references unknown validation_type: '{call.type}'", .error⟩]
  | some stmt => validateCallArgs table "validation" call.args stmt.args

/-- `visit_operation_call`. -/
def visitOperationCall (call : OperationCall) : List Diagnostic :=
  match (table .operationType).get call.op with
  | none => [⟨unknownCode .operationType,
      s!"operation call references unknown operation_type: '{call.op}'", .error⟩]
  | some stmt => validateCallArgs table "operation" call.args stmt.args

/-- `visit_requirement_set`. -/
def visitRequirementSet (requires : RequirementSet) : List Diagnostic :=
  (requires.artifacts.flatMap fun artifact => checkKnown table .artifactType artifact
    s!"requirement set references unknown artifact: '{artifact}'") ++
  requires.validations.flatMap (visitValidationCall table)

/-- `visit_task_type`. -/
def visitTaskType (id : String) (requirements : List (String × RequirementSet)) :
    List Diagnostic :=
  requirements.flatMap fun e =>
    checkKnown table .state e.1 s!"task_type '{id}' references unknown state: '{e.1}'" ++
      visitRequirementSet table e.2

/-- The derivation of a transition; the state of its parent is left to the
compiler. -/
def visitDerives (id : String) (derives : DerivesSpec) : List Diagnostic :=
  checkKnown table .taskType derives.taskType
    s!"transition '{id}' derives unknown task_type: '{derives.taskType}'" ++
  checkKnown table .state derives.state
    s!"transition '{id}' derives into unknown state: '{derives.state}'" ++
  checkKnown table .artifactType derives.artifactType
    s!"transition '{id}' derives from unknown artifact_type: '{derives.artifactType}'"

/-- `visit_transition`. -/
def visitTransition (t : TransitionStatement) : List Diagnostic :=
  checkKnown table .taskType t.taskType
    s!"transition '{t.id}' references unknown task_type: '{t.taskType}'" ++
  checkKnown table .state t.fromState
    s!"transition '{t.id}' references unknown from state: '{t.fromState}'" ++
  checkKnown table .state t.toState
    s!"transition '{t.id}' references unknown to state: '{t.toState}'" ++
  (t.worker.toList.flatMap fun worker => checkKnown table .worker worker
    s!"transition '{t.id}' references unknown worker: '{worker}'") ++
  visitRequirementSet table t.requires ++
  t.derives.toList.flatMap (visitDerives table t.id) ++
  t.transaction.toList.flatMap fun plan => plan.steps.flatMap (visitOperationCall table)

/-- The visit of a statement. -/
def visitStatement : Statement → List Diagnostic
  | .taskType id requirements _ => visitTaskType table id requirements
  | .transition t => visitTransition table t
  | .state _ _ | .artifactType _ _ | .validationType _ _ | .worker _ _ _
  | .operationType _ _ => []

end

/-- `validate`. -/
def validate (document : WorkflowDocument) : List Diagnostic :=
  let (diags, table) := buildSymbolTable (fun _ => ∅) document.statements
  diags ++ document.statements.flatMap (visitStatement table)

/-- No diagnostic is an error. -/
def noErrors (diags : List Diagnostic) : Bool := diags.all (·.severity ≠ .error)

end OpenTulid.Engine
