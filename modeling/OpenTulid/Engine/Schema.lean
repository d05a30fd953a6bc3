/-
The JSON schema of workflow documents, for editors.

Titles and the `$schema` address say nothing about values and are left out.
-/
import OpenTulid.Engine.Ast
import OpenTulid.Lib.JsonSchema

namespace OpenTulid.Engine

open Doc

/-- The schema of a string. -/
def stringSchema : Schema := .object [.type .string]

/-- The schema of a boolean. -/
def booleanSchema : Schema := .object [.type .boolean]

/-- The schema of a list of strings. -/
def stringsSchema : Schema := .object [.type .array, .items stringSchema]

/-- The schema of one argument, inside `_arg_specs_schema`. -/
def argSpecSchema : Schema := .object [
  .type .object,
  .required ["type"],
  .additionalProperties (.boolean false),
  .properties [
    ("type", .object [.type .string, .enum (supportedArgTypes.map .str)]),
    ("required", booleanSchema),
    ("many", booleanSchema)]]

/-- `_arg_specs_schema`. -/
def argSpecsSchema : Schema := .object [
  .type .object,
  .additionalProperties argSpecSchema]

/-- `_validation_call_schema`. -/
def validationCallSchema : Schema := .object [
  .type .object,
  .required ["type"],
  .additionalProperties (.boolean false),
  .properties [
    ("type", stringSchema),
    ("args", .object [.type .object])]]

/-- `_operation_call_schema`. -/
def operationCallSchema : Schema := .object [
  .type .object,
  .required ["op"],
  .additionalProperties (.boolean false),
  .properties [
    ("op", stringSchema),
    ("args", .object [.type .object])]]

/-- The schema of the changed files, inside `_requirement_set_schema`. -/
def changedFilesSchema : Schema := .object [
  .type .object,
  .additionalProperties (.boolean false),
  .properties [("required", booleanSchema)]]

/-- `_requirement_set_schema`. -/
def requirementSetSchema : Schema := .object [
  .type .object,
  .additionalProperties (.boolean false),
  .properties [
    ("artifacts", stringsSchema),
    ("validations", .object [.type .array, .items validationCallSchema]),
    ("changed_files", changedFilesSchema)]]

/-- `_transaction_schema`. -/
def transactionSchema : Schema := .object [
  .type .object,
  .required ["steps"],
  .additionalProperties (.boolean false),
  .properties [("steps", .object [.type .array, .items operationCallSchema])]]

/-- The schema of a derivation, inside `_build_statement_properties`. -/
def derivesSchema : Schema := .object [
  .type .object,
  .required ["task_type", "state", "artifact_type"],
  .additionalProperties (.boolean false),
  .properties [
    ("task_type", stringSchema),
    ("state", stringSchema),
    ("artifact_type", stringSchema),
    ("required", booleanSchema),
    ("parent_to_if_derived", stringSchema)]]

/-- The schema of the requirements of a task type. -/
def requirementsSchema : Schema := .object [
  .type .object,
  .propertyNames stringSchema,
  .additionalProperties requirementSetSchema]

/-- The schema of instruction references. -/
def instructionsSchema : Schema := .object [.oneOf [stringSchema, stringsSchema]]

/-- The fields of a transition with the schemas of their values, sorted. -/
def transitionFieldSchemas : List (String × Schema) := [
  ("default_for_scheduler", booleanSchema),
  ("from", stringSchema),
  ("requires", requirementSetSchema),
  ("task_type", stringSchema),
  ("to", stringSchema),
  ("transaction", transactionSchema),
  ("worker", stringSchema)]

/-- `_build_statement_properties`. -/
def buildStatementProperties (kind : Kind) (allowed : List String) : List (String × Schema) :=
  [("kind", .object [.type .string, .const (.str kind.value)]), ("id", stringSchema)] ++
    (["template", "type"].filter (· ∈ allowed)).map (·, stringSchema) ++
    (if "args" ∈ allowed then [("args", argSpecsSchema)] else []) ++
    (if "requirements" ∈ allowed then [("requirements", requirementsSchema)] else []) ++
    (if "instructions" ∈ allowed then [("instructions", instructionsSchema)] else []) ++
    transitionFieldSchemas.filter (·.1 ∈ allowed) ++
    (if "derives" ∈ allowed then [("derives", derivesSchema)] else [])

/-- `_statement_schema`. -/
def statementSchema (kind : Kind) : Schema := .object [
  .type .object,
  .required (statementRequiredKeys kind),
  .additionalProperties (.boolean false),
  .properties (buildStatementProperties kind (statementKeys kind))]

/-- `generate_json_schema`. -/
def generateJsonSchema : Schema := .object [
  .type .object,
  .required ["schema_version", "statements"],
  .additionalProperties (.boolean false),
  .properties [
    ("schema_version", .object [.type .integer, .enum (supportedSchemaVersions.map .int)]),
    ("statements", .object [
      .type .array,
      .items (.object [.oneOf (supportedKinds.map statementSchema)])]),
    ("storage", .object [.type .object, .additionalProperties (.boolean true)])]]

end OpenTulid.Engine
