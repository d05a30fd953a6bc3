/-
The loader: from a parsed value to a workflow document, or diagnostics.

A builder answers its diagnostics and, unless it gave up, what it built.
The diagnostics of parts go up by hand; `buildStatement` leaves those it
has found so far behind when it hands a statement over to the builder of
its kind.
-/
import OpenTulid.Engine.Ast

namespace OpenTulid.Engine

open Doc

/-- Diagnostics, and what was built. -/
abbrev Built (α : Type) := List Diagnostic × Option α

-- ============================================================ messages

/-- `repr` of a key. -/
def keyRepr : Scalar → String
  | .null => "None"
  | .bool b => if b then "True" else "False"
  | .int n => toString n
  | .str s => s!"'{s}'"
  | .float _ text => text
  | .other _ text => text

/-- The name of the type of a value. -/
def typeName : Value → String
  | .scalar .null => "NoneType"
  | .scalar (.bool _) => "bool"
  | .scalar (.int _) => "int"
  | .scalar (.str _) => "str"
  | .scalar (.float _ _) => "float"
  | .scalar (.other type _) => type
  | .list _ => "CommentedSeq"
  | .map _ => "CommentedMap"

/-- A value of a wrong type. -/
def wrongType (message : String) : Diagnostic := ⟨"workflow.shape.wrong_type", message, .error⟩

/-- A key that has to be present. -/
def missingField (message : String) : Diagnostic :=
  ⟨"workflow.shape.missing_required_field", message, .error⟩

/-- One diagnostic for each key that is not allowed. -/
def unknownKeys (allowed : List String) (place : String) (m : Entries) : List Diagnostic :=
  (m.strays allowed).map fun key =>
    ⟨"workflow.shape.unknown_key", s!"unknown key {keyRepr key} in {place}", .error⟩

-- =============================================================== parts

/-- `_build_arg_spec`. -/
def buildArgSpec (argName : Scalar) : Value → Built ArgSpec
  | .map raw =>
      let unknown := unknownKeys argSpecKeys s!"arg spec for {keyRepr argName}" raw
      match Entries.get? raw "type" with
      | none => (unknown ++
          [missingField s!"arg spec for {keyRepr argName} missing required field: type"], none)
      | some (.scalar (.str type)) =>
          if type ∉ supportedArgTypes then (unknown ++
            [⟨"workflow.call.unknown_argument_type", s!"unknown arg spec type: '{type}'", .error⟩],
            none)
          else match (Entries.get? raw "required").getD (.bool false) with
          | .scalar (.bool required) =>
              match (Entries.get? raw "many").getD (.bool false) with
              | .scalar (.bool many) => (unknown, some ⟨type, required, many⟩)
              | _ => (unknown ++ [wrongType "arg spec many must be a boolean"], none)
          | _ => (unknown ++ [wrongType "arg spec required must be a boolean"], none)
      | some _ => (unknown ++ [wrongType "arg spec type must be a string"], none)
  | _ => ([wrongType s!"arg spec for {keyRepr argName} must be a mapping"], none)

/-- The builders of the entries of a mapping, one after the other. -/
def buildEntries {α κ : Type} (build : κ → Value → Built α) :
    List (κ × Value) → List Diagnostic × List (κ × α)
  | [] => ([], [])
  | (key, raw) :: rest =>
      let (diags, built) := build key raw
      let (more, others) := buildEntries build rest
      (diags ++ more, built.toList.map (key, ·) ++ others)

/-- The builders of the items of a list, one after the other. -/
def buildItems {α : Type} (build : Value → Built α) : List Value → List Diagnostic × List α
  | [] => ([], [])
  | raw :: rest =>
      let (diags, built) := build raw
      let (more, others) := buildItems build rest
      (diags ++ more, built.toList ++ others)

/-- `_build_instruction_refs`. -/
def buildInstructionRefs (raw : Entries) : List Diagnostic × List String :=
  match raw.get? "instructions" with
  | none => ([], [])
  | some (.scalar (.str ref)) => ([], [ref])
  | some (.list items) => buildItems (fun
      | .scalar (.str ref) => ([], some ref)
      | item => ([wrongType s!"instruction reference must be a string, got {typeName item}"],
          none)) items
  | some _ => ([wrongType "instructions must be a string or list of strings"], [])

/-- The arguments of a call. -/
def buildCallArgs (what : String) (raw : Entries) : Except Diagnostic Entries :=
  match raw.get "args" with
  | .scalar .null => .ok []
  | .map args => .ok args
  | _ => .error (wrongType s!"{what} args must be a mapping")

/-- What the builders of the two kinds of calls do; `head` is the key that
names what is called. -/
def buildCall {α : Type} (what head : String) (keys : List String) (make : String → Entries → α) :
    Value → Built α
  | .map raw =>
      let unknown := unknownKeys keys what raw
      match Entries.get? raw head with
      | none => (unknown ++ [missingField s!"{what} missing required field: {head}"], none)
      | some (.scalar (.str name)) =>
          match buildCallArgs what raw with
          | .error d => (unknown ++ [d], none)
          | .ok args => (unknown, some (make name args))
      | some _ => (unknown ++ [wrongType s!"{what} {head} must be a string"], none)
  | raw => ([wrongType s!"{what} must be a mapping, got {typeName raw}"], none)

/-- `_build_validation_call`. -/
def buildValidationCall : Value → Built ValidationCall :=
  buildCall "validation call" "type" validationCallKeys .mk

/-- `_build_operation_call`. -/
def buildOperationCall : Value → Built OperationCall :=
  buildCall "operation call" "op" operationCallKeys .mk

/-- An artifact of a requirement set. -/
def buildArtifact : Value → Except Diagnostic String
  | .scalar (.str artifact) => .ok artifact
  | item => .error (wrongType s!"artifact item must be a string, got {typeName item}")

/-- The artifacts of a requirement set, up to the first that is no
string. -/
def buildArtifacts : Value → Except Diagnostic (List String)
  | .scalar .null => .ok []
  | .list items => items.mapM buildArtifact
  | _ => .error (wrongType "artifacts must be a list")

/-- The validations of a requirement set. -/
def buildValidations : Value → Except Diagnostic (List Diagnostic × List ValidationCall)
  | .scalar .null => .ok ([], [])
  | .list items => .ok (buildItems buildValidationCall items)
  | _ => .error (wrongType "validations must be a list")

/-- The changed files of a requirement set: the diagnostics of its keys, and
what it says. -/
def buildChangedFiles : Value → List Diagnostic × Except Diagnostic Bool
  | .scalar .null => ([], .ok false)
  | .map raw =>
      (unknownKeys ["required"] "changed_files requirement" raw,
        match (Entries.get? raw "required").getD (.bool false) with
        | .scalar (.bool required) => .ok required
        | _ => .error (wrongType "changed_files.required must be a boolean"))
  | _ => ([], .error (wrongType "changed_files must be a mapping"))

/-- `_build_requirement_set`. -/
def buildRequirementSet : Value → Built RequirementSet
  | .map raw =>
      let unknown := unknownKeys requirementSetKeys "requirement set" raw
      match buildArtifacts (Entries.get raw "artifacts") with
      | .error d => (unknown ++ [d], none)
      | .ok artifacts =>
      match buildValidations (Entries.get raw "validations") with
      | .error d => (unknown ++ [d], none)
      | .ok (diags, validations) =>
      match buildChangedFiles (Entries.get raw "changed_files") with
      | (more, .error d) => (unknown ++ diags ++ more ++ [d], none)
      | (more, .ok required) =>
          let diags := unknown ++ diags ++ more
          if diags ≠ [] then (diags, none)
          else ([], some ⟨artifacts, validations, required⟩)
  | _ => ([wrongType "requirement set must be a mapping"], none)

/-- `_build_transaction`. -/
def buildTransaction : Value → Built TransactionPlan
  | .map raw =>
      let unknown := unknownKeys transactionPlanKeys "transaction" raw
      match Entries.get? raw "steps" with
      | none => (unknown ++ [missingField "transaction missing required field: steps"], none)
      | some (.list items) =>
          let (diags, steps) := buildItems buildOperationCall items
          let diags := unknown ++ diags
          if diags ≠ [] then (diags, none) else ([], some ⟨steps⟩)
      | some _ => (unknown ++ [wrongType "transaction steps must be a list"], none)
  | _ => ([wrongType "transaction must be a mapping"], none)

/-- The string of a value. -/
def asStr : Value → Option String
  | .scalar (.str s) => some s
  | _ => none

/-- The string of a value; null and absent are no string. -/
def asStr? : Value → Option (Option String)
  | .scalar .null => some none
  | .scalar (.str s) => some (some s)
  | _ => none

/-- The truth of a value; null and absent are none. -/
def asBool? : Value → Option (Option Bool)
  | .scalar .null => some none
  | .scalar (.bool b) => some (some b)
  | _ => none

/-- The diagnostic of what could not be read. -/
def diagnosticsOf {α : Type} : Except Diagnostic α → List Diagnostic
  | .ok _ => []
  | .error d => [d]

/-- Whether a transition has to derive. -/
def buildDerivesRequired (raw : Entries) : Except Diagnostic Bool :=
  match (raw.get? "required").getD (.bool true) with
  | .scalar (.bool required) => .ok required
  | _ => .error (wrongType "derives.required must be a boolean")

/-- The state of a parent that has derived. -/
def buildDerivesParent (raw : Entries) : Except Diagnostic (Option String) :=
  match asStr? (raw.get "parent_to_if_derived") with
  | some parent => .ok parent
  | none => .error (wrongType "derives.parent_to_if_derived must be a string")

/-- The derivation of a transition. -/
def buildDerives : Value → Built DerivesSpec
  | .map raw =>
      let unknown := unknownKeys derivesKeys "derives" raw
      let missing := (derivesRequiredKeys.filter fun key => !Entries.has raw key).map fun key =>
        missingField s!"derives missing required field: {key}"
      if missing ≠ [] then (unknown ++ missing, none)
      else
        let wrong := (derivesRequiredKeys.filter fun key =>
          (asStr (Entries.get raw key)).isNone).map fun key =>
            wrongType s!"derives.{key} must be a string"
        let required := buildDerivesRequired raw
        let parent := buildDerivesParent raw
        match asStr (Entries.get raw "task_type"), asStr (Entries.get raw "state"),
          asStr (Entries.get raw "artifact_type"), required, parent with
        | some taskType, some state, some artifactType, .ok required, .ok parent =>
            (unknown, some ⟨taskType, state, artifactType, required, parent⟩)
        | _, _, _, _, _ =>
            (unknown ++ wrong ++ diagnosticsOf required ++ diagnosticsOf parent, none)
  | _ => ([wrongType "derives must be a mapping"], none)

/-- A part that may be absent or null. -/
def buildOptional {α : Type} (build : Value → Built α) (raw : Value) : Built α :=
  if raw = .null then ([], none) else build raw

-- ========================================================== statements

/-- The state of a requirement set. -/
def requirementKey : Scalar → Except Diagnostic String
  | .str state => .ok state
  | key => .error (wrongType s!"requirement key must be a string, got {typeName (.scalar key)}")

/-- `_build_task_type`. -/
def buildTaskType (raw : Entries) (id : String) : Built Statement :=
  let (diags, instructions) := buildInstructionRefs raw
  match raw.get "requirements" with
  | .scalar .null =>
      if diags ≠ [] then (diags, none) else ([], some (.taskType id [] instructions))
  | .map requirements =>
      match requirements.mapM fun e => (requirementKey e.1).map (·, e.2) with
      | .error d => (diags ++ [d], none)
      | .ok requirements =>
          let (more, sets) := buildEntries (fun _ => buildRequirementSet) requirements
          let diags := diags ++ more
          if diags ≠ [] then (diags, none) else ([], some (.taskType id sets instructions))
  | _ => (diags ++ [wrongType "requirements must be a mapping"], none)

/-- The arguments of `_build_validation_type` and `_build_operation_type`. -/
def buildArgSpecs (raw : Entries) : List Diagnostic × Option (List (Scalar × ArgSpec)) :=
  match raw.get "args" with
  | .scalar .null => ([], some [])
  | .map args =>
      let (diags, specs) := buildEntries buildArgSpec args
      if diags ≠ [] then (diags, none) else ([], some specs)
  | _ => ([wrongType "args must be a mapping"], none)

/-- `_build_validation_type`. -/
def buildValidationType (raw : Entries) (id : String) : Built Statement :=
  let (diags, args) := buildArgSpecs raw
  (diags, args.map (.validationType id))

/-- `_build_operation_type`. -/
def buildOperationType (raw : Entries) (id : String) : Built Statement :=
  let (diags, args) := buildArgSpecs raw
  (diags, args.map (.operationType id))

/-- `_build_transition`. -/
def buildTransition (raw : Entries) (id : String) : Built Statement :=
  let missing := (["from", "task_type", "to"].filter fun key => !raw.has key).map fun key =>
    missingField s!"transition missing required field: {key}"
  if missing ≠ [] then (missing, none)
  else match asStr (raw.get "task_type") with
  | none => ([wrongType "task_type must be a string"], none)
  | some taskType =>
  match asStr (raw.get "from") with
  | none => ([wrongType "from must be a string"], none)
  | some fromState =>
  match asStr (raw.get "to") with
  | none => ([wrongType "to must be a string"], none)
  | some toState =>
  match asStr? (raw.get "worker") with
  | none => ([wrongType "worker must be a string"], none)
  | some worker =>
  let (diags, instructions) := buildInstructionRefs raw
  match asBool? (raw.get "review") with
  | none => (diags ++ [wrongType "review must be a boolean"], none)
  | some review =>
  match (raw.get? "default_for_scheduler").getD (.bool false) with
  | .scalar (.bool defaultForScheduler) =>
      let (reqDiags, requires) := buildOptional buildRequirementSet (raw.get "requires")
      let (txnDiags, transaction) := buildOptional buildTransaction (raw.get "transaction")
      let (derivesDiags, derives) := buildOptional buildDerives (raw.get "derives")
      let diags := diags ++ reqDiags ++ txnDiags ++ derivesDiags
      if diags ≠ [] then (diags, none)
      else ([], some (.transition {
        id := id
        taskType := taskType
        fromState := fromState
        toState := toState
        worker := worker
        instructions := instructions
        defaultForScheduler := defaultForScheduler
        review := review
        requires := requires.getD {}
        transaction := transaction
        derives := derives }))
  | _ => (diags ++ [wrongType "default_for_scheduler must be a boolean"], none)

/-- A state, behind the diagnostics of its keys. -/
def buildState (diags : List Diagnostic) (raw : Entries) (id : String) : Built Statement :=
  match asStr? (raw.get "terminal_outcome") with
  | none => (diags ++ [wrongType "terminal_outcome must be a string"], none)
  | some outcome =>
      let spelling := outcome.getD ""
      if outcome.all (· ∈ supportedTerminalOutcomes) then (diags, some (.state id outcome))
      else (diags ++ [⟨"workflow.shape.unknown_terminal_outcome",
        s!"unknown terminal_outcome: '{spelling}' (expected one of ['cancelled', 'failure', 'success'])",
        .error⟩], none)

/-- An artifact type, behind the diagnostics of its keys. -/
def buildArtifactType (diags : List Diagnostic) (raw : Entries) (id : String) :
    Built Statement :=
  match asStr? (raw.get "template") with
  | none => (diags ++ [wrongType "template must be a string"], none)
  | some template => (diags, some (.artifactType id template))

/-- A worker, behind the diagnostics of its keys. -/
def buildWorker (diags : List Diagnostic) (raw : Entries) (id : String) : Built Statement :=
  match asStr? (raw.get "type") with
  | none => (diags ++ [wrongType "type must be a string"], none)
  | some type =>
      let (more, instructions) := buildInstructionRefs raw
      let diags := diags ++ more
      if diags ≠ [] then (diags, none) else ([], some (.worker id type instructions))

/-- `_build_statement`. -/
def buildStatement (idx : Nat) : Value → Built Statement
  | .map raw =>
      match Entries.get? raw "kind" with
      | none => ([missingField s!"statement at index {idx} missing required field: kind"], none)
      | some (.scalar (.str kindName)) =>
          match Kind.ofString? kindName with
          | none => ([⟨"workflow.statement.unknown_kind",
              s!"unknown statement kind: '{kindName}'", .error⟩], none)
          | some kind =>
          match Entries.get? raw "id" with
          | none =>
              ([missingField s!"statement at index {idx} missing required field: id"], none)
          | some (.scalar (.str id)) =>
              let diags := unknownKeys (statementKeys kind) s!"{kind.value} statement" raw
              match kind with
              | .state => buildState diags raw id
              | .artifactType => buildArtifactType diags raw id
              | .worker => buildWorker diags raw id
              -- the diagnostics of unknown keys are not handed on
              | .taskType => buildTaskType raw id
              | .validationType => buildValidationType raw id
              | .operationType => buildOperationType raw id
              | .transition => buildTransition raw id
          | some raw => ([wrongType s!"id must be a string, got {typeName raw}"], none)
      | some raw => ([wrongType s!"kind must be a string, got {typeName raw}"], none)
  | raw => ([wrongType s!"statement at index {idx} must be a mapping, got {typeName raw}"], none)

-- ========================================================= the document

/-- The text of a key. -/
def keyText : Scalar → String
  | .null => "None"
  | .bool b => if b then "True" else "False"
  | .int n => toString n
  | .str s => s
  | .float _ text => text
  | .other _ text => text

/-- An entry set in a dictionary: in its place, or at the end. -/
def assign {α : Type} (key : String) (value : α) : List (Scalar × α) → List (Scalar × α)
  | [] => [(.str key, value)]
  | (k, v) :: rest =>
      if k = .str key then (k, value) :: rest else (k, v) :: assign key value rest

/-- A dictionary with the texts of its keys for keys, behind what is set
already. -/
def freezeInto {α β : Type} (freeze : α → β) (done : List (Scalar × β)) :
    List (Scalar × α) → List (Scalar × β)
  | [] => done
  | (key, value) :: rest => freezeInto freeze (assign (keyText key) (freeze value) done) rest

mutual

/-- `_coerce_storage_config`. -/
def coerceStorageConfig : Value → Value
  | .scalar s => .scalar s
  | .list items => .list (coerceItems items)
  | .map entries => .map (coerceEntries [] entries)

/-- The items of a list. -/
def coerceItems : List Value → List Value
  | [] => []
  | item :: rest => coerceStorageConfig item :: coerceItems rest

/-- The entries of a mapping behind those set already. -/
def coerceEntries (done : Entries) : Entries → Entries
  | [] => done
  | (key, value) :: rest =>
      coerceEntries (assign (keyText key) (coerceStorageConfig value) done) rest

end

/-- `_build_storage`. -/
def buildStorage : Value → Built Entries
  | .scalar .null => ([], none)
  | .map raw => ([], some (coerceEntries [] raw))
  | _ => ([wrongType "storage must be a mapping"], none)

/-- The statements of a list, each with its index. -/
def buildStatements (idx : Nat) : List Value → List Diagnostic × List Statement
  | [] => ([], [])
  | raw :: rest =>
      let (diags, stmt) := buildStatement idx raw
      let (more, others) := buildStatements (idx + 1) rest
      (diags ++ more, stmt.toList ++ others)

/-- The keys of a document. -/
def documentKeys : List String := ["schema_version", "statements", "storage"]

/-- One diagnostic for each key of a document that is none of its. -/
def unknownTopKeys (parsed : Entries) : List Diagnostic :=
  (parsed.strays documentKeys).map fun key =>
    ⟨"workflow.shape.unknown_key", s!"unknown top-level key: {keyRepr key}", .error⟩

/-- `build_ast`. -/
def buildAst : Value → Built WorkflowDocument
  | .scalar .null =>
      ([⟨"workflow.shape.root_not_mapping", "parsed document is None", .error⟩], none)
  | .map parsed =>
      let unknown := unknownTopKeys parsed
      match Entries.get? parsed "schema_version" with
      | none => (unknown ++ [missingField "missing required field: schema_version"], none)
      | some (.scalar (.int version)) =>
          if version ∉ supportedSchemaVersions then (unknown ++
            [⟨"workflow.schema.unsupported_version",
              s!"unsupported schema_version: {version}", .error⟩], none)
          else match Entries.get? parsed "statements" with
          | none => (unknown ++ [missingField "missing required field: statements"], none)
          | some (.list items) =>
              let (diags, statements) := buildStatements 0 items
              let diags := unknown ++ diags
              if diags ≠ [] then (diags, none)
              else match Entries.get? parsed "storage" with
              | none => ([], some ⟨version, statements, none⟩)
              | some raw =>
                  let (diags, storage) := buildStorage raw
                  if diags ≠ [] then (diags, none)
                  else ([], some ⟨version, statements, storage⟩)
          | some raw =>
              (unknown ++ [wrongType s!"statements must be a list, got {typeName raw}"], none)
      | some raw =>
          (unknown ++ [wrongType s!"schema_version must be an integer, got {typeName raw}"], none)
  | raw => ([⟨"workflow.shape.root_not_mapping",
      s!"root must be a mapping, got {typeName raw}", .error⟩], none)

end OpenTulid.Engine
