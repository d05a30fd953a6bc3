/-
The JSON schema against the loader.

Each schema describes the language of its place in the grammar, but for the
fields the schema does not know (`newKeys`): the declared outcome of a state
and the review of a transition. From there up the two agree, so that the
documents on which they differ are those with one of these fields, and those
whose version is written as a float.
-/
import OpenTulid.Engine.Schema
import OpenTulid.Proofs.WorkflowLoader

namespace OpenTulid.Engine

open Doc

-- ============================================================ the parts

theorem describes_strings : Describes stringsSchema (Lang.list .text) :=
  describes_list describes_text

theorem describes_argSpec : Describes argSpecSchema argSpecLang :=
  describes_record [
    (.must "type" (.word supportedArgTypes),
      .object [.type .string, .enum (supportedArgTypes.map .str)]),
    (.may "required" .bool, booleanSchema),
    (.may "many" .bool, booleanSchema)]
    (by simp [describes_word, describes_bool, booleanSchema])
    (by simp) (by simp)

theorem describes_argSpecs : Describes argSpecsSchema (Lang.mapping argSpecLang) :=
  describes_mapping describes_argSpec

theorem describes_validationCall : Describes validationCallSchema validationCallLang :=
  describes_record [
    (.must "type" .text, stringSchema),
    (.maybe "args" .anyMapping, .object [.type .object])]
    (by simp [describes_text, describes_anyMapping, stringSchema])
    (by simp) (by simp)

theorem describes_operationCall : Describes operationCallSchema operationCallLang :=
  describes_record [
    (.must "op" .text, stringSchema),
    (.maybe "args" .anyMapping, .object [.type .object])]
    (by simp [describes_text, describes_anyMapping, stringSchema])
    (by simp) (by simp)

theorem describes_changedFiles : Describes changedFilesSchema changedFilesLang :=
  describes_record' [(.may "required" .bool, booleanSchema)]
    (by simp [describes_bool, booleanSchema]) (by simp) (by simp)

theorem describes_requirementSet : Describes requirementSetSchema requirementSetLang :=
  describes_record' [
    (.maybe "artifacts" (.list .text), stringsSchema),
    (.maybe "validations" (.list validationCallLang),
      .object [.type .array, .items validationCallSchema]),
    (.maybe "changed_files" changedFilesLang, changedFilesSchema)]
    (by simp [describes_strings, describes_list describes_validationCall,
      describes_changedFiles])
    (by simp) (by simp)

theorem describes_transaction : Describes transactionSchema transactionLang :=
  describes_record [
    (.must "steps" (.list operationCallLang),
      .object [.type .array, .items operationCallSchema])]
    (by simp [describes_list describes_operationCall]) (by simp) (by simp)

theorem describes_derives : Describes derivesSchema derivesLang :=
  describes_record [
    (.must "task_type" .text, stringSchema),
    (.must "state" .text, stringSchema),
    (.must "artifact_type" .text, stringSchema),
    (.may "required" .bool, booleanSchema),
    (.maybe "parent_to_if_derived" .text, stringSchema)]
    (by simp [describes_text, describes_bool, stringSchema, booleanSchema])
    (by simp) (by simp)

theorem describes_requirements :
    Describes requirementsSchema (.both .strKeys (.mapping requirementSetLang)) :=
  describes_strKeys describes_requirementSet

/-- A string is no list. -/
theorem describes_instructions : Describes instructionsSchema instructionsLang := by
  have h := @describes_oneOf (Schema × Lang) [(stringSchema, Lang.text),
    (stringsSchema, Lang.list .text)] Prod.fst Prod.snd (by simp [describes_text, describes_strings, stringSchema])
    (by
      simp only [List.pairwise_cons, List.mem_singleton, forall_eq, List.not_mem_nil,
        false_implies, implies_true, List.Pairwise.nil, and_true]
      intro v hv
      cases v with
      | scalar s => rfl
      | list | map => cases hv)
  intro v hjson
  have hv := h v hjson
  simpa [instructionsLang, Lang.either, instructionsSchema] using hv

-- ============================================================= statements

/-- The keys of a kind that its schema does not know. -/
def newKeys : Kind → List String
  | .state => ["terminal_outcome"]
  | .transition => ["review"]
  | _ => []

/-- The fields of a kind its schema knows. -/
def schemaFields (kind : Kind) : List Field :=
  (fieldsOf kind).filter fun f => f.name ∉ newKeys kind

/-- Each of these fields with the schema of its values. -/
def statementRows (kind : Kind) : List (Field × Schema) :=
  (.must "kind" (.word [kind.value]), .object [.type .string, .const (.str kind.value)]) ::
  (.must "id" .text, stringSchema) ::
  match kind with
  | .state => []
  | .taskType => [
      (.maybe "requirements" (.both .strKeys (.mapping requirementSetLang)), requirementsSchema),
      (.may "instructions" instructionsLang, instructionsSchema)]
  | .artifactType => [(.maybe "template" .text, stringSchema)]
  | .validationType => [(.maybe "args" (.mapping argSpecLang), argSpecsSchema)]
  | .worker => [
      (.maybe "type" .text, stringSchema),
      (.may "instructions" instructionsLang, instructionsSchema)]
  | .operationType => [(.maybe "args" (.mapping argSpecLang), argSpecsSchema)]
  | .transition => [
      (.must "task_type" .text, stringSchema),
      (.must "from" .text, stringSchema),
      (.must "to" .text, stringSchema),
      (.maybe "worker" .text, stringSchema),
      (.may "default_for_scheduler" .bool, booleanSchema),
      (.maybe "requires" requirementSetLang, requirementSetSchema),
      (.maybe "transaction" transactionLang, transactionSchema),
      (.may "instructions" instructionsLang, instructionsSchema),
      (.maybe "derives" derivesLang, derivesSchema)]

theorem statementRows_fields (kind : Kind) :
    (statementRows kind).map Prod.fst = schemaFields kind := by
  cases kind <;> rfl

theorem describes_rows (kind : Kind) : ∀ r ∈ statementRows kind, Describes r.2 r.1.lang := by
  cases kind <;>
    simp [statementRows, describes_const, describes_text, describes_bool, describes_requirements,
      describes_instructions, describes_argSpecs, describes_requirementSet, describes_transaction,
      describes_derives, stringSchema, booleanSchema]

/-- The properties of a kind's schema are those rows, in another order. -/
theorem mem_buildStatementProperties (kind : Kind) (p : String × Schema) :
    p ∈ buildStatementProperties kind (statementKeys kind) ↔
      ∃ r ∈ statementRows kind, p = (r.1.name, r.2) := by
  cases kind <;>
    simp [buildStatementProperties, statementKeys, statementRows, transitionFieldSchemas]
  tauto

/-- The schema of a kind describes its statements without the new keys. -/
theorem describes_statement (kind : Kind) :
    Describes (statementSchema kind) (Lang.record (schemaFields kind)) := by
  rw [← statementRows_fields]
  refine describes_record (statementRows kind) (describes_rows kind) ?_
    (mem_buildStatementProperties kind)
  cases kind <;> simp [statementRows, statementRequiredKeys]

/-- The new keys may be absent. -/
theorem newKeys_optional (kind : Kind) :
    ∀ f ∈ fieldsOf kind, f.name ∈ newKeys kind → f.required = false := by
  cases kind <;> simp [fieldsOf, statementFields, newKeys]

/-- A kind's schema is for its statements without the new keys. -/
theorem record_schemaFields (kind : Kind) (m : Entries) :
    Lang.record (schemaFields kind) (.map m) = true ↔
      statementLangOf (fun _ => true) kind (.map m) = true ∧
        ∀ key ∈ newKeys kind, m.get? key = none :=
  Lang.record_filter (newKeys_optional kind)

/-- A statement of a kind says so. -/
theorem kind_of_statementLangOf {closed : Kind → Bool} {kind : Kind} {m : Entries}
    (h : statementLangOf closed kind (.map m) = true) :
    m.get? "kind" = some (.str kind.value) := by
  rw [statementLangOf_map, Bool.and_eq_true, Bool.and_eq_true] at h
  obtain ⟨v, hv, hword⟩ := (Option.any_eq_true _ _).mp h.2.1
  unfold Lang.word at hword
  split at hword
  next s => rw [hv, List.mem_singleton.mp (of_decide_eq_true hword)]
  next => cases hword

/-- A statement has one kind. -/
theorem schemaFields_disjoint : supportedKinds.Pairwise fun k k' =>
    ∀ v, Lang.record (schemaFields k) v = true → Lang.record (schemaFields k') v = false := by
  have hne : supportedKinds.Pairwise (· ≠ ·) := by decide
  refine hne.imp fun {k k'} hkinds v hk => ?_
  rw [← Bool.not_eq_true]
  intro hk'
  cases v with
  | scalar | list => cases hk
  | map m =>
      have hkind := kind_of_statementLangOf ((record_schemaFields k m).mp hk).1
      rw [kind_of_statementLangOf ((record_schemaFields k' m).mp hk').1] at hkind
      exact hkinds (Kind.value_injective (by injections; symm; assumption))

/-- The statements without the new keys. -/
def schemaStatementLang : Lang := fun v =>
  supportedKinds.any fun kind => Lang.record (schemaFields kind) v

/-- A statement has none of the keys its kind's schema does not know. -/
def NoNewKeys (stmt : Value) : Prop :=
  ∀ kind, (entriesOf stmt).get? "kind" = some (.str (Kind.value kind)) →
    ∀ key ∈ newKeys kind, (entriesOf stmt).get? key = none

theorem schemaStatementLang_iff (v : Value) :
    schemaStatementLang v = true ↔ statementLang (fun _ => true) v = true ∧ NoNewKeys v := by
  cases v with
  | scalar | list => simp [schemaStatementLang, statementLang_eq_false, Lang.record]
  | map m =>
      unfold schemaStatementLang statementLang
      rw [List.any_eq_true, List.any_eq_true]
      constructor
      · rintro ⟨kind, hmem, hrecord⟩
        obtain ⟨hlang, hnew⟩ := (record_schemaFields kind m).mp hrecord
        refine ⟨⟨kind, hmem, hlang⟩, fun kind' hkind' => ?_⟩
        rw [entriesOf, kind_of_statementLangOf hlang] at hkind'
        have hsame : kind = kind' := Kind.value_injective (by injections)
        exact hsame ▸ hnew
      · rintro ⟨⟨kind, hmem, hlang⟩, hnew⟩
        exact ⟨kind, hmem, (record_schemaFields kind m).mpr
          ⟨hlang, hnew kind (kind_of_statementLangOf hlang)⟩⟩

theorem describes_statements :
    Describes (.object [.oneOf (supportedKinds.map statementSchema)]) schemaStatementLang :=
  describes_oneOf supportedKinds (fun kind _ => describes_statement kind) schemaFields_disjoint

-- =============================================================== documents

/-- Documents of some statements, whose version may be written as a float. -/
def versionedLang (statements : Lang) : Lang := .record [
  .must "schema_version" (.integral supportedSchemaVersions),
  .must "statements" (.list statements),
  .maybe "storage" .anyMapping]

/-- The version numbers. -/
theorem describes_version (numbers : List Int) :
    Describes (.object [.type .integer, .enum (numbers.map .int)]) (Lang.integral numbers) := by
  intro v _
  cases v with
  | scalar s =>
      cases s <;> simp [Schema.valid, allHold, Keyword.holds, JsonType.holds, Lang.integral,
        Value.among, Scalar.alike, List.any_eq]
  | list | map => rfl

theorem describes_document : Describes generateJsonSchema (versionedLang schemaStatementLang) :=
  describes_record [
    (.must "schema_version" (.integral supportedSchemaVersions),
      .object [.type .integer, .enum (supportedSchemaVersions.map .int)]),
    (.must "statements" (.list schemaStatementLang),
      .object [.type .array, .items (.object [.oneOf (supportedKinds.map statementSchema)])]),
    (.maybe "storage" .anyMapping,
      .object [.type .object, .additionalProperties (.boolean true)])]
    (by simp [describes_version, describes_list describes_statements, describes_anyMapping'])
    (by simp) (by simp)

theorem versionedLang_map (statements : Lang) (m : Entries) :
    versionedLang statements (.map m) =
      (decide (m.strays documentKeys = []) &&
        ((m.get? "schema_version").any (Lang.integral supportedSchemaVersions) &&
        ((m.get? "statements").any (Lang.list statements) &&
          (Lang.anyMapping (m.get "storage") || decide (m.get "storage" = .null))))) := by
  simp only [versionedLang, Lang.record_map, Lang.loose_cons, Lang.fits_must, Lang.fits_maybe,
    Lang.loose_nil, Bool.and_true]
  rfl

/-- The version of a document is written as an integer. -/
def IntegerVersion (v : Value) : Prop :=
  ∃ n, (entriesOf v).get? "schema_version" = some (.int n)

/-- The grammar's documents are those whose version is an integer. -/
theorem derivable_iff_versioned (v : Value) :
    derivable v = true ↔
      versionedLang (statementLang fun _ => true) v = true ∧ IntegerVersion v := by
  unfold derivable
  cases v with
  | scalar | list => simp [documentLang, versionedLang, Lang.record]
  | map m =>
      have hversion : (Entries.get? m "schema_version").any
            (Lang.number supportedSchemaVersions) = true ↔
          (Entries.get? m "schema_version").any (Lang.integral supportedSchemaVersions) = true ∧
            IntegerVersion (.map m) := by
        unfold IntegerVersion entriesOf
        dsimp only
        cases Entries.get? m "schema_version" with
        | none => simp
        | some raw =>
            cases raw with
            | scalar s => cases s <;> simp [Lang.number, Lang.integral]
            | list | map => simp [Lang.number, Lang.integral]
      rw [documentLang_map, versionedLang_map]
      simp only [Bool.and_eq_true, hversion]
      tauto

/-- The schema's documents are those without new keys. -/
theorem versioned_schema_iff (v : Value) :
    versionedLang schemaStatementLang v = true ↔
      versionedLang (statementLang fun _ => true) v = true ∧
        ∀ stmt ∈ statementsOf v, NoNewKeys stmt := by
  cases v with
  | scalar | list => simp [versionedLang, Lang.record]
  | map m =>
      have hstatements : (Entries.get? m "statements").any (Lang.list schemaStatementLang) = true ↔
          (Entries.get? m "statements").any (Lang.list (statementLang fun _ => true)) = true ∧
            ∀ stmt ∈ statementsOf (.map m), NoNewKeys stmt := by
        unfold statementsOf entriesOf Entries.get
        dsimp only
        cases Entries.get? m "statements" with
        | none => simp [itemsOf]
        | some raw =>
            cases raw with
            | scalar | map => simp [Lang.list]
            | list items => simp [Lang.list, itemsOf, schemaStatementLang_iff, forall_and]
      rw [versionedLang_map, versionedLang_map]
      simp only [Bool.and_eq_true, hstatements]
      tauto

-- ============================================== the schema and the loader

/-- A value is valid under the schema if and only if the loader accepts it. -/
def SchemaAgrees (v : Value) : Prop :=
  generateJsonSchema.valid v = true ↔ ∃ doc, buildAst v = ([], some doc)

/-- The schema against the loader, on JSON values whose statements have listed
keys only: a workflow document on which they agree has neither a declared
outcome nor a review if and only if its version is written as an integer. -/
theorem schemaAgrees_iff (v : Value) (hjson : v.isJson = true)
    (hlisted : ∀ stmt ∈ statementsOf v, KnownKeys stmt) :
    SchemaAgrees v ↔
      (versionedLang (statementLang fun _ => true) v = true →
        ((∀ stmt ∈ statementsOf v, NoNewKeys stmt) ↔ IntegerVersion v)) := by
  have hloads : (∃ doc, buildAst v = ([], some doc)) ↔ derivable v = true := by
    rw [derivable_iff, and_iff_left hlisted]
    constructor
    · intro ⟨doc, hdoc⟩
      rw [← Bool.not_eq_false]
      exact fun hlang => (buildAst_builds v).refuses hlang (by rw [hdoc])
    · exact fun hlang => ⟨_, (buildAst_builds v).accepts hlang⟩
  unfold SchemaAgrees
  rw [describes_document v hjson, hloads, versioned_schema_iff, derivable_iff_versioned]
  tauto

/-- A state. -/
def stateDocument (more : Entries) : Value := .map [
  (.str "schema_version", .int 1),
  (.str "statements", .list [.map
    ((.str "kind", .str "state") :: (.str "id", .str "done") :: more)])]

/-- Its statement is a state. -/
theorem stateDocument_kind {more : Entries} {stmt : Value}
    (hstmt : stmt ∈ statementsOf (stateDocument more)) {kind : Kind}
    (hkind : (entriesOf stmt).get? "kind" = some (.str kind.value)) : kind = .state := by
  obtain rfl := List.mem_singleton.mp hstmt
  exact Kind.value_injective (by injections; symm; assumption)

theorem stateDocument_knownKeys (more : Entries) :
    ∀ stmt ∈ statementsOf (stateDocument more), KnownKeys stmt := by
  intro stmt hstmt kind hkind hclosed
  cases stateDocument_kind hstmt hkind
  cases hclosed

theorem plain_state_agrees : SchemaAgrees (stateDocument []) := by
  refine (schemaAgrees_iff (stateDocument []) (by decide) (stateDocument_knownKeys [])).mpr
    fun _ => ⟨fun _ => ⟨1, rfl⟩, fun _ stmt hstmt kind hkind => ?_⟩
  cases stateDocument_kind hstmt hkind
  obtain rfl := List.mem_singleton.mp hstmt
  intro key hkey
  obtain rfl := List.mem_singleton.mp hkey
  rfl

/-- A state that declares its outcome is loaded and not valid. -/
theorem declared_outcome_disagrees :
    (stateDocument [(.str "terminal_outcome", .str "success")]).isJson = true ∧
      (∀ stmt ∈ statementsOf (stateDocument [(.str "terminal_outcome", .str "success")]),
        KnownKeys stmt) ∧
      ¬SchemaAgrees (stateDocument [(.str "terminal_outcome", .str "success")]) := by
  refine ⟨by decide, stateDocument_knownKeys _, fun h => ?_⟩
  have hvalid := h.mpr ⟨_, rfl⟩
  have hrefused : generateJsonSchema.valid
      (stateDocument [(.str "terminal_outcome", .str "success")]) = false := by decide
  rw [hrefused] at hvalid
  cases hvalid

end OpenTulid.Engine
