/-
The grammar of workflow documents, and what a document says.

The languages are read off `langdef`: for each mapping the keys it may and
must have, with the type of each value. A null stands for an absent key
where the key has no default of its own. `…Meaning` carries the fields of a
value over one by one, as they are.
-/
import OpenTulid.Engine.Loader

namespace OpenTulid.Engine

open Doc

-- ============================================================== languages

/-- The instruction references of a worker, a task type or a transition. -/
def instructionsLang : Lang := .either .text (.list .text)

def argSpecLang : Lang := .record [
  .must "type" (.word supportedArgTypes),
  .may "required" .bool,
  .may "many" .bool]

def validationCallLang : Lang := .record [
  .must "type" .text,
  .maybe "args" .anyMapping]

def operationCallLang : Lang := .record [
  .must "op" .text,
  .maybe "args" .anyMapping]

def changedFilesLang : Lang := .record [.may "required" .bool]

def requirementSetLang : Lang := .record [
  .maybe "artifacts" (.list .text),
  .maybe "validations" (.list validationCallLang),
  .maybe "changed_files" changedFilesLang]

def transactionLang : Lang := .record [
  .must "steps" (.list operationCallLang)]

def derivesLang : Lang := .record [
  .must "task_type" .text,
  .must "state" .text,
  .must "artifact_type" .text,
  .may "required" .bool,
  .maybe "parent_to_if_derived" .text]

/-- The keys of a statement of a kind besides `kind` and `id`. -/
def statementFields : Kind → List Field
  | .state => [
      .maybe "terminal_outcome" (.word supportedTerminalOutcomes)]
  | .taskType => [
      .maybe "requirements" (.both .strKeys (.mapping requirementSetLang)),
      .may "instructions" instructionsLang]
  | .artifactType => [.maybe "template" .text]
  | .validationType => [.maybe "args" (.mapping argSpecLang)]
  | .worker => [
      .maybe "type" .text,
      .may "instructions" instructionsLang]
  | .operationType => [.maybe "args" (.mapping argSpecLang)]
  | .transition => [
      .must "task_type" .text,
      .must "from" .text,
      .must "to" .text,
      .maybe "worker" .text,
      .may "default_for_scheduler" .bool,
      .maybe "requires" requirementSetLang,
      .maybe "transaction" transactionLang,
      .may "instructions" instructionsLang,
      .maybe "derives" derivesLang,
      .maybe "review" .bool]

/-- All keys of a statement of a kind. -/
def fieldsOf (kind : Kind) : List Field :=
  .must "kind" (.word [kind.value]) ::
    .must "id" .text :: statementFields kind

/-- The statements of a kind; where the kind is not closed, with any further
keys. -/
def statementLangOf (closed : Kind → Bool) (kind : Kind) : Lang :=
  if closed kind then .record (fieldsOf kind) else .loose (fieldsOf kind)

/-- The statements. -/
def statementLang (closed : Kind → Bool) : Lang :=
  fun v => supportedKinds.any fun kind => statementLangOf closed kind v

/-- The documents. -/
def documentLang (closed : Kind → Bool) : Lang := .record [
  .must "schema_version" (.number supportedSchemaVersions),
  .must "statements" (.list (statementLang closed)),
  .maybe "storage" .anyMapping]

/-- The value can be derived from the grammar. -/
def derivable : Lang := documentLang fun _ => true

-- =============================================================== meanings

/-- The entries of a mapping. -/
def entriesOf : Value → Entries
  | .map m => m
  | _ => []

/-- The items of a list. -/
def itemsOf : Value → List Value
  | .list items => items
  | _ => []

/-- The string of a value that has to be one. -/
def textOf (v : Value) : String := (asStr v).getD ""

/-- The truth of a value, when it says it. -/
def boolOf? : Value → Option Bool
  | .scalar (.bool b) => some b
  | _ => none

/-- A part that may be absent. -/
def partOf? {α : Type} (meaning : Value → α) (v : Value) : Option α :=
  if v = .null then none else some (meaning v)

/-- The references a value names: one, or a list. -/
def instructionsOf (v : Value) : List String :=
  match v with
  | .scalar (.str ref) => [ref]
  | _ => (itemsOf v).map textOf

def argSpecMeaning (v : Value) : ArgSpec where
  type := textOf ((entriesOf v).get "type")
  required := (boolOf? ((entriesOf v).get "required")).getD false
  many := (boolOf? ((entriesOf v).get "many")).getD false

def validationCallMeaning (v : Value) : ValidationCall where
  type := textOf ((entriesOf v).get "type")
  args := entriesOf ((entriesOf v).get "args")

def operationCallMeaning (v : Value) : OperationCall where
  op := textOf ((entriesOf v).get "op")
  args := entriesOf ((entriesOf v).get "args")

def changedFilesMeaning (v : Value) : Bool :=
  (boolOf? ((entriesOf v).get "required")).getD false

def requirementSetMeaning (v : Value) : RequirementSet where
  artifacts := (itemsOf ((entriesOf v).get "artifacts")).map textOf
  validations := (itemsOf ((entriesOf v).get "validations")).map validationCallMeaning
  changedFilesRequired := changedFilesMeaning ((entriesOf v).get "changed_files")

def transactionMeaning (v : Value) : TransactionPlan where
  steps := (itemsOf ((entriesOf v).get "steps")).map operationCallMeaning

def derivesMeaning (v : Value) : DerivesSpec where
  taskType := textOf ((entriesOf v).get "task_type")
  state := textOf ((entriesOf v).get "state")
  artifactType := textOf ((entriesOf v).get "artifact_type")
  required := (boolOf? ((entriesOf v).get "required")).getD true
  parentToIfDerived := asStr ((entriesOf v).get "parent_to_if_derived")

def transitionMeaning (v : Value) : TransitionStatement where
  id := textOf ((entriesOf v).get "id")
  taskType := textOf ((entriesOf v).get "task_type")
  fromState := textOf ((entriesOf v).get "from")
  toState := textOf ((entriesOf v).get "to")
  worker := asStr ((entriesOf v).get "worker")
  instructions := instructionsOf ((entriesOf v).get "instructions")
  defaultForScheduler := (boolOf? ((entriesOf v).get "default_for_scheduler")).getD false
  review := boolOf? ((entriesOf v).get "review")
  requires := (partOf? requirementSetMeaning ((entriesOf v).get "requires")).getD {}
  transaction := partOf? transactionMeaning ((entriesOf v).get "transaction")
  derives := partOf? derivesMeaning ((entriesOf v).get "derives")

/-- The arguments of a type. -/
def argSpecsMeaning (v : Value) : List (Scalar × ArgSpec) :=
  (entriesOf v).map fun e => (e.1, argSpecMeaning e.2)

/-- A statement of a kind. -/
def statementMeaningOf (kind : Kind) (v : Value) : Statement :=
  let m := entriesOf v
  let id := textOf (m.get "id")
  match kind with
  | .state => .state id (asStr (m.get "terminal_outcome"))
  | .taskType => .taskType id
      ((entriesOf (m.get "requirements")).map fun e =>
        (textOf (.scalar e.1), requirementSetMeaning e.2))
      (instructionsOf (m.get "instructions"))
  | .artifactType => .artifactType id (asStr (m.get "template"))
  | .validationType => .validationType id (argSpecsMeaning (m.get "args"))
  | .worker => .worker id (asStr (m.get "type")) (instructionsOf (m.get "instructions"))
  | .operationType => .operationType id (argSpecsMeaning (m.get "args"))
  | .transition => .transition (transitionMeaning v)

/-- A statement. -/
def statementMeaning (v : Value) : Statement :=
  statementMeaningOf
    ((Kind.ofString? (textOf ((entriesOf v).get "kind"))).getD .state) v

/-- A document: one statement for each item. -/
def documentMeaning (v : Value) : WorkflowDocument where
  schemaVersion := match (entriesOf v).get "schema_version" with
    | .scalar (.int n) => n
    | _ => 0
  statements := (itemsOf ((entriesOf v).get "statements")).map statementMeaning
  storage := partOf? entriesOf ((entriesOf v).get "storage")

end OpenTulid.Engine
