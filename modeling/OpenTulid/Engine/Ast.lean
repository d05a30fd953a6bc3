/-
The workflow language: the keys its mappings may have (`langdef`) and the
syntax tree of a workflow document.

Positions in the source text are the YAML library's and are left out of the
tree and of the diagnostics.
-/
import OpenTulid.Lib.Doc

namespace OpenTulid.Engine

open Doc

-- ============================================================= langdef

/-- The seven kinds of statements. -/
inductive Kind where
  | state
  | taskType
  | artifactType
  | validationType
  | worker
  | operationType
  | transition
  deriving DecidableEq, Repr

/-- The spelling of a kind. -/
def Kind.value : Kind → String
  | .state => "state"
  | .taskType => "task_type"
  | .artifactType => "artifact_type"
  | .validationType => "validation_type"
  | .worker => "worker"
  | .operationType => "operation_type"
  | .transition => "transition"

/-- `SUPPORTED_KINDS`. -/
def supportedKinds : List Kind :=
  [.artifactType, .operationType, .state, .taskType, .transition, .validationType, .worker]

/-- The kind of a spelling. -/
def Kind.ofString? (s : String) : Option Kind := supportedKinds.find? fun k => k.value = s

/-- `STATEMENT_KEYS`. -/
def statementKeys : Kind → List String
  | .state => ["kind", "id", "terminal_outcome"]
  | .taskType => ["kind", "id", "requirements", "instructions"]
  | .artifactType => ["kind", "id", "template"]
  | .validationType => ["kind", "id", "args"]
  | .worker => ["kind", "id", "type", "instructions"]
  | .operationType => ["kind", "id", "args"]
  | .transition => ["kind", "id", "task_type", "from", "to", "worker",
      "default_for_scheduler", "requires", "transaction", "instructions", "derives", "review"]

/-- `STATEMENT_REQUIRED_KEYS`. -/
def statementRequiredKeys : Kind → List String
  | .transition => ["kind", "id", "task_type", "from", "to"]
  | _ => ["kind", "id"]

/-- `SUPPORTED_TERMINAL_OUTCOMES`. -/
def supportedTerminalOutcomes : List String := ["cancelled", "failure", "success"]

/-- `SUPPORTED_ARG_TYPES`. -/
def supportedArgTypes : List String := ["artifact_ref", "boolean", "integer", "operation_ref",
  "state_ref", "string", "task_type_ref", "validation_ref", "worker_ref"]

/-- `REFERENCE_ARG_TYPES`. -/
def referenceArgType : String → Option Kind
  | "state_ref" => some .state
  | "task_type_ref" => some .taskType
  | "artifact_ref" => some .artifactType
  | "validation_ref" => some .validationType
  | "worker_ref" => some .worker
  | "operation_ref" => some .operationType
  | _ => none

def argSpecKeys : List String := ["type", "required", "many"]

def requirementSetKeys : List String := ["artifacts", "validations", "changed_files"]

def validationCallKeys : List String := ["type", "args"]

def operationCallKeys : List String := ["op", "args"]

def transactionPlanKeys : List String := ["steps"]

def derivesKeys : List String :=
  ["task_type", "state", "artifact_type", "required", "parent_to_if_derived"]

def derivesRequiredKeys : List String := ["task_type", "state", "artifact_type"]

def supportedSchemaVersions : List Int := [1]

-- ========================================================= the syntax tree

/-- One argument a validation or operation type takes. -/
structure ArgSpec where
  type : String
  required : Bool := false
  many : Bool := false
  deriving DecidableEq, Repr

/-- A call of a validation. -/
structure ValidationCall where
  type : String
  args : Entries := []
  deriving DecidableEq, Repr

/-- What a state or a transition requires. -/
structure RequirementSet where
  artifacts : List String := []
  validations : List ValidationCall := []
  changedFilesRequired : Bool := false
  deriving DecidableEq, Repr

/-- A call of an operation. -/
structure OperationCall where
  op : String
  args : Entries := []
  deriving DecidableEq, Repr

/-- The steps of a transaction. -/
structure TransactionPlan where
  steps : List OperationCall
  deriving DecidableEq, Repr

/-- What a transition derives. -/
structure DerivesSpec where
  taskType : String
  state : String
  artifactType : String
  required : Bool := true
  parentToIfDerived : Option String := none
  deriving DecidableEq, Repr

/-- A transition statement. -/
structure TransitionStatement where
  id : String
  taskType : String
  fromState : String
  toState : String
  worker : Option String := none
  instructions : List String := []
  defaultForScheduler : Bool := false
  review : Option Bool := none
  requires : RequirementSet := {}
  transaction : Option TransactionPlan := none
  derives : Option DerivesSpec := none
  deriving DecidableEq, Repr

/-- A statement. -/
inductive Statement where
  | state (id : String) (terminalOutcome : Option String)
  | taskType (id : String) (requirementsByState : List (String × RequirementSet))
      (instructions : List String)
  | artifactType (id : String) (template : Option String)
  | validationType (id : String) (args : List (Scalar × ArgSpec))
  | worker (id : String) (type : Option String) (instructions : List String)
  | operationType (id : String) (args : List (Scalar × ArgSpec))
  | transition (t : TransitionStatement)
  deriving DecidableEq, Repr

/-- The id of a statement. -/
def Statement.id : Statement → String
  | .state id _ | .taskType id _ _ | .artifactType id _ | .validationType id _
  | .worker id _ _ | .operationType id _ => id
  | .transition t => t.id

/-- The kind of a statement. -/
def Statement.kind : Statement → Kind
  | .state _ _ => .state
  | .taskType _ _ _ => .taskType
  | .artifactType _ _ => .artifactType
  | .validationType _ _ => .validationType
  | .worker _ _ _ => .worker
  | .operationType _ _ => .operationType
  | .transition _ => .transition

/-- A workflow document; `storage` is the configuration of its storage. -/
structure WorkflowDocument where
  schemaVersion : Int
  statements : List Statement
  storage : Option Entries := none
  deriving DecidableEq, Repr

-- ========================================================== diagnostics

/-- How bad a diagnostic is. -/
inductive Severity where
  | error
  | warning
  deriving DecidableEq, Repr

/-- What is wrong with a document. -/
structure Diagnostic where
  code : String
  message : String
  severity : Severity := .error
  deriving DecidableEq, Repr

end OpenTulid.Engine
