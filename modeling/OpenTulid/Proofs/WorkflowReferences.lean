/-
Accepted workflows have no dangling references.

The symbol table of a valid document and the tables of its definition hold
the same statements under the same ids (`Represents`, `lookup_compiledTables`),
so what the visitor finds in the one stands in the other. What neither checker
looks at is left to the document: state mappings the compiler passes over, and
calls whose argument names are no strings, which become their texts after they
were checked.
-/
import OpenTulid.Engine.Compiler
import OpenTulid.Proofs.WorkflowLoader

namespace OpenTulid.Engine

open Doc

-- ============================================================== no errors

@[simp] theorem noErrors_nil : noErrors [] = true := rfl

@[simp] theorem noErrors_append (a b : List Diagnostic) :
    noErrors (a ++ b) = true ↔ noErrors a = true ∧ noErrors b = true := by
  simp [noErrors, List.all_append]

@[simp] theorem noErrors_flatMap {α : Type} (xs : List α) (f : α → List Diagnostic) :
    noErrors (xs.flatMap f) = true ↔ ∀ x ∈ xs, noErrors (f x) = true := by
  simp only [noErrors, List.all_flatMap, List.all_eq_true]

@[simp] theorem noErrors_error (code message : String) :
    noErrors [⟨code, message, .error⟩] = false := rfl

@[simp] theorem noErrors_map {α : Type} (xs : List α) (code : String) (message : α → String) :
    noErrors (xs.map fun x => ⟨code, message x, .error⟩) = true ↔ xs = [] := by
  cases xs <;> simp [noErrors]

@[simp] theorem noErrors_checkKnown {table : SymbolTable} {kind : Kind} {id message : String} :
    noErrors (checkKnown table kind id message) = true ↔
      ((table kind).get id).isSome = true := by
  unfold checkKnown
  split <;> simp_all

@[simp] theorem noErrors_checkDeclared {α : Type} {entries : Store String α}
    {id code message : String} :
    noErrors (checkDeclared entries id code message) = true ↔ (entries.get id).isSome = true := by
  unfold checkDeclared
  split <;> simp_all

-- ============================================================ symbol table

/-- No two statements of a kind share an id. -/
def DistinctIds (statements : List Statement) : Prop :=
  statements.Pairwise fun a b => ¬(a.kind = b.kind ∧ a.id = b.id)

/-- A table holds just some statements, no two of a kind with one id. -/
structure Represents (table : SymbolTable) (statements : List Statement) : Prop where
  mem : ∀ kind id stmt, (table kind).get id = some stmt →
    stmt ∈ statements ∧ stmt.kind = kind ∧ stmt.id = id
  get : ∀ stmt ∈ statements, (table stmt.kind).get stmt.id = some stmt
  distinct : DistinctIds statements

/-- A table of nothing. -/
theorem represents_empty : Represents (fun _ => ∅) [] where
  mem := fun _ _ _ h => by cases h
  get := fun _ h => by cases h
  distinct := List.Pairwise.nil

/-- A statement with a new id is entered. -/
theorem Represents.enter {table : SymbolTable} {statements : List Statement}
    (h : Represents table statements) {stmt : Statement}
    (hnew : (table stmt.kind).get stmt.id = none) :
    Represents (table.enter stmt) (statements ++ [stmt]) where
  mem := by
    intro kind id found hget
    unfold SymbolTable.enter at hget
    split at hget
    next hkind =>
      rw [Store.get_put] at hget
      split at hget
      next hid =>
        cases hget
        exact ⟨List.mem_append_right _ List.mem_cons_self, hkind.symm, hid.symm⟩
      next =>
        obtain ⟨hmem, rest⟩ := h.mem kind id found hget
        exact ⟨List.mem_append_left _ hmem, rest⟩
    next =>
      obtain ⟨hmem, rest⟩ := h.mem kind id found hget
      exact ⟨List.mem_append_left _ hmem, rest⟩
  get := by
    intro other hother
    unfold SymbolTable.enter
    rcases List.mem_append.mp hother with hold | hlast
    · have hold' := h.get other hold
      split
      next hkind =>
        have hid : other.id ≠ stmt.id := by
          intro hid
          rw [hkind, hid, hnew] at hold'
          cases hold'
        rw [Store.get_put_of_ne hid, hold']
      next => exact hold'
    · obtain rfl := List.mem_singleton.mp hlast
      rw [if_pos rfl, Store.get_put_self]
  distinct := by
    refine List.pairwise_append.mpr ⟨h.distinct, List.pairwise_singleton _ _, ?_⟩
    intro other hother last hlast hsame
    obtain rfl := List.mem_singleton.mp hlast
    have hget := h.get other hother
    rw [hsame.1, hsame.2, hnew] at hget
    cases hget

/-- Without a duplicate every statement is entered. -/
theorem Represents.build {table : SymbolTable} {done : List Statement}
    (h : Represents table done) (rest : List Statement)
    (hok : noErrors (buildSymbolTable table rest).1 = true) :
    Represents (buildSymbolTable table rest).2 (done ++ rest) := by
  induction rest generalizing table done with
  | nil => simpa [buildSymbolTable] using h
  | cons stmt rest ih =>
      unfold buildSymbolTable at hok ⊢
      split at hok
      next => cases hok
      next hnew =>
        rw [if_neg hnew]
        have hfree : (table stmt.kind).get stmt.id = none := by simpa using hnew
        have henter := h.enter hfree
        simpa using ih henter hok

-- ============================================================ definitions

/-- The definition of a statement of any kind. -/
inductive Definition where
  | state (d : CompiledState)
  | taskType (d : CompiledTaskType)
  | artifactType (d : CompiledArtifactType)
  | validationType (d : CompiledCallType)
  | worker (d : CompiledWorker)
  | operationType (d : CompiledCallType)
  | transition (d : CompiledTransition)
  deriving DecidableEq

/-- What a statement is compiled to. -/
def Statement.definition : Statement → Definition
  | .state id outcome => .state ⟨id, outcome⟩
  | .taskType id requirements instructions => .taskType
      ⟨id, requirements.map fun e => (e.1, requirementSetToDef e.2), instructions⟩
  | .artifactType id template => .artifactType ⟨id, template⟩
  | .validationType id args => .validationType ⟨id, argSpecsToDef args, id⟩
  | .worker id type instructions => .worker
      ⟨id, type, workerImplementation id type, instructions⟩
  | .operationType id args => .operationType ⟨id, argSpecsToDef args, id⟩
  | .transition t => .transition (transitionToDef t)

namespace CompiledWorkflow

/-- The element of a kind with an id. -/
def lookup (w : CompiledWorkflow) (kind : Kind) (id : String) : Option Definition :=
  match kind with
  | .state => (w.states.get id).map .state
  | .taskType => (w.taskTypes.get id).map .taskType
  | .artifactType => (w.artifactTypes.get id).map .artifactType
  | .validationType => (w.validationTypes.get id).map .validationType
  | .worker => (w.workers.get id).map .worker
  | .operationType => (w.operationTypes.get id).map .operationType
  | .transition => (w.transitions.get id).map .transition

/-- The definition has an element of a kind with an id. -/
def has (w : CompiledWorkflow) (kind : Kind) (id : String) : Bool := (w.lookup kind id).isSome

/-- A statement sets its own element and no other. -/
theorem lookup_define (w : CompiledWorkflow) (stmt : Statement) (kind : Kind) (id : String) :
    (w.define stmt).lookup kind id =
      if kind = stmt.kind ∧ id = stmt.id then some stmt.definition else w.lookup kind id := by
  cases stmt <;> cases kind <;>
    simp [define, lookup, Statement.kind, Statement.id, Statement.definition, Store.get_put,
      transitionToDef] <;>
    split <;> simp_all

end CompiledWorkflow

/-- Every element is that of a statement. -/
theorem lookup_foldl_define {statements : List Statement} {w : CompiledWorkflow} {kind : Kind}
    {id : String} {d : Definition}
    (h : (statements.foldl CompiledWorkflow.define w).lookup kind id = some d) :
    w.lookup kind id = some d ∨
      ∃ stmt ∈ statements, stmt.kind = kind ∧ stmt.id = id ∧ stmt.definition = d := by
  induction statements generalizing w with
  | nil => exact .inl h
  | cons stmt rest ih =>
      rcases ih h with hold | ⟨found, hmem, hfound⟩
      · rw [CompiledWorkflow.lookup_define] at hold
        split at hold
        next hsame =>
          exact .inr ⟨stmt, List.mem_cons_self, hsame.1.symm, hsame.2.symm, by injection hold⟩
        next => exact .inl hold
      · exact .inr ⟨found, List.mem_cons_of_mem _ hmem, hfound⟩

/-- What no later statement sets stays. -/
theorem lookup_foldl_of_not {statements : List Statement} {w : CompiledWorkflow} {kind : Kind}
    {id : String} (h : ∀ stmt ∈ statements, ¬(kind = stmt.kind ∧ id = stmt.id)) :
    (statements.foldl CompiledWorkflow.define w).lookup kind id = w.lookup kind id := by
  induction statements generalizing w with
  | nil => rfl
  | cons stmt rest ih =>
      rw [List.foldl_cons, ih fun s hs => h s (List.mem_cons_of_mem _ hs),
        CompiledWorkflow.lookup_define, if_neg (h stmt List.mem_cons_self)]

/-- Of statements with distinct ids none is missing. -/
theorem lookup_of_mem {statements : List Statement} (hdistinct : DistinctIds statements)
    {stmt : Statement} (hmem : stmt ∈ statements) (w : CompiledWorkflow) :
    (statements.foldl CompiledWorkflow.define w).lookup stmt.kind stmt.id =
      some stmt.definition := by
  induction statements generalizing w with
  | nil => cases hmem
  | cons first rest ih =>
      obtain ⟨hfirst, hrest⟩ := List.pairwise_cons.mp hdistinct
      rw [List.foldl_cons]
      rcases List.mem_cons.mp hmem with rfl | hmem
      · rw [lookup_foldl_of_not fun other hother hsame => hfirst other hother
          ⟨hsame.1, hsame.2⟩, CompiledWorkflow.lookup_define, if_pos ⟨rfl, rfl⟩]
      · exact ih hrest hmem _

/-- The elements of a document's definition are those of its statements. -/
theorem lookup_compiledTables {document : WorkflowDocument} {kind : Kind} {id : String}
    {d : Definition} (h : (compiledTables document).lookup kind id = some d) :
    ∃ stmt ∈ document.statements, stmt.kind = kind ∧ stmt.id = id ∧ stmt.definition = d := by
  rcases lookup_foldl_define h with hold | hstmt
  · cases kind <;> cases hold
  · exact hstmt

-- =============================================================== arguments

section

variable (known : Kind → String → Bool)

/-- A value is of a declared type; a reference names an element. -/
def fitsType (type : String) (value : Value) : Bool :=
  if type = "string" then Lang.text value
  else if type = "integer" then match value with
    | .scalar (.int _) => true
    | _ => false
  else if type = "boolean" then Lang.bool value
  else match referenceArgType type, value with
    | some kind, .scalar (.str id) => known kind id
    | _, _ => false

/-- A value is what an argument takes: a list where it takes many. -/
def fitsSpec (spec : ArgSpec) (value : Value) : Bool :=
  match value, spec.many with
  | .list items, true => items.all (fitsType known spec.type)
  | .list _, false => false
  | _, true => false
  | value, false => fitsType known spec.type value

/-- The arguments of a call are what its type declares: the required ones are
there, and each has a value of its type. -/
def ArgsFit (declared : List (Scalar × ArgSpec)) (supplied : Entries) : Prop :=
  ∀ e ∈ declared, (e.2.required = true → (supplied.lookup e.1).isSome = true) ∧
    ∀ value, supplied.lookup e.1 = some value → fitsSpec known e.2 value = true

/-- Freezing a value does not change its type. -/
theorem fitsType_freezeValue (type : String) (value : Value) :
    fitsType known type (freezeValue value) = fitsType known type value := by
  unfold freezeValue fitsType
  cases value with
  | scalar s => rw [coerceStorageConfig]
  | list | map => simp [coerceStorageConfig, Lang.text, Lang.bool]

theorem coerceItems_eq_map (items : List Value) :
    coerceItems items = items.map coerceStorageConfig := by
  induction items with
  | nil => rfl
  | cons item rest ih => rw [coerceItems, ih, List.map_cons]

theorem fitsSpec_freezeValue (spec : ArgSpec) (value : Value) :
    fitsSpec known spec (freezeValue value) = fitsSpec known spec value := by
  have htype := fitsType_freezeValue known spec.type
  unfold freezeValue at htype ⊢
  cases value with
  | scalar s => rw [coerceStorageConfig]
  | map m =>
      have hm := htype (.map m)
      unfold fitsSpec
      rw [coerceStorageConfig] at hm ⊢
      cases spec.many <;> simp_all
  | list items =>
      unfold fitsSpec
      rw [coerceStorageConfig, coerceItems_eq_map]
      cases spec.many <;> simp [List.all_map, Function.comp_def, htype]

end

/-- What the symbol table knows. -/
def SymbolTable.known (table : SymbolTable) (kind : Kind) (id : String) : Bool :=
  ((table kind).get id).isSome

section

variable {table : SymbolTable} {callKind : String}

/-- The visitor finds nothing about a value that fits. -/
theorem noErrors_validateSingleValue (argName : Scalar) (type : String) (value : Value) :
    noErrors (validateSingleValue table callKind argName type value) =
      fitsType table.known type value := by
  unfold validateSingleValue fitsType
  split
  next => cases Lang.text value <;> rfl
  next =>
    split
    next =>
      cases value with
      | scalar s => cases s <;> rfl
      | list | map => rfl
    next =>
      split
      next => cases Lang.bool value <;> rfl
      next =>
        cases referenceArgType type with
        | none => rfl
        | some kind =>
            cases value with
            | scalar s =>
                cases s with
                | str id =>
                    rw [Bool.eq_iff_iff]
                    exact noErrors_checkKnown
                | null | bool | int | float | other => rfl
            | list | map => rfl

theorem noErrors_validateArgValue (argName : Scalar) (spec : ArgSpec) (value : Value) :
    noErrors (validateArgValue table callKind argName spec value) =
      fitsSpec table.known spec value := by
  have hsingle : ∀ v, noErrors (validateSingleValue table callKind argName spec.type v) =
      fitsType table.known spec.type v := noErrors_validateSingleValue argName spec.type
  unfold validateArgValue fitsSpec
  cases value with
  | list items =>
      cases spec.many with
      | false => rfl
      | true =>
          rw [Bool.eq_iff_iff, noErrors_flatMap, List.all_eq_true]
          exact forall₂_congr fun item _ => by rw [hsingle]
  | scalar | map =>
      cases spec.many with
      | false => exact hsingle _
      | true => rfl

/-- String keys are found by equality. -/
theorem entryOf_str {α : Type} (key : String) (entries : List (Scalar × α)) :
    entryOf (.str key) entries = entries.lookup (.str key) := by
  unfold entryOf
  induction entries with
  | nil => rfl
  | cons e rest ih =>
      obtain ⟨k, v⟩ := e
      rw [List.find?_cons, List.lookup_cons]
      by_cases hk : k = .str key
      · subst hk
        have hself : (Scalar.str key).sameKey (.str key) = true := Scalar.sameKey_str.mpr rfl
        rw [hself, beq_self_eq_true]
        rfl
      · have hsame : k.sameKey (.str key) = false := by
          rw [← Bool.not_eq_true, Scalar.sameKey_str]
          exact hk
        have hbeq : (Scalar.str key == k) = false := by simpa using Ne.symm hk
        rw [hsame, hbeq]
        exact ih

/-- The entry of a key whose values were changed. -/
theorem lookup_map_values {α β : Type} (f : α → β) (key : Scalar) (m : List (Scalar × α)) :
    (m.map fun e => (e.1, f e.2)).lookup key = (m.lookup key).map f := by
  induction m with
  | nil => rfl
  | cons e rest ih =>
      rw [List.map_cons, List.lookup_cons, List.lookup_cons, ih]
      split <;> rfl

/-- A visited call whose argument names are strings has the arguments its type
declares, also when they are frozen. -/
theorem argsFit_of_visited {declared : List (Scalar × ArgSpec)} {supplied : Entries}
    (hdeclared : Entries.Texts declared) (hsupplied : Entries.Texts supplied)
    (h : noErrors (validateCallArgs table callKind supplied declared) = true) :
    ArgsFit table.known (argSpecsToDef declared) (freezeMapping supplied) := by
  unfold validateCallArgs at h
  rw [noErrors_append, noErrors_append, noErrors_map, noErrors_map, noErrors_flatMap] at h
  obtain ⟨⟨hmissing, -⟩, hvalues⟩ := h
  have hspecs : argSpecsToDef declared = declared := by
    unfold argSpecsToDef
    rw [freeze_of_texts hdeclared]
    simp
  unfold freezeMapping
  rw [hspecs, freeze_of_texts hsupplied]
  intro e he
  obtain ⟨key, hkey⟩ := hdeclared.1 e he
  have hentry : entryOf e.1 supplied = supplied.lookup e.1 := by
    rw [hkey]
    exact entryOf_str key supplied
  rw [lookup_map_values]
  constructor
  · intro hrequired
    have hthere := List.filter_eq_nil_iff.mp hmissing e he
    rw [hentry] at hthere
    cases hlookup : supplied.lookup e.1 with
    | none => simp [hrequired, hlookup] at hthere
    | some value => rfl
  · intro value hvalue
    obtain ⟨raw, hraw, rfl⟩ := Option.map_eq_some_iff.mp hvalue
    have hfits := hvalues e he
    rw [hentry, hraw] at hfits
    rw [fitsSpec_freezeValue, ← noErrors_validateArgValue]
    exact hfits

end

-- ============================================================== soundness

/-- The arguments an element declares. -/
def Definition.args : Definition → List (Scalar × ArgSpec)
  | .validationType d => d.args
  | .operationType d => d.args
  | _ => []

theorem Statement.definition_args (stmt : Statement) :
    stmt.definition.args = argSpecsToDef stmt.args := by
  cases stmt <;> rfl

/-- A state mapping names a known state and a board. -/
structure MappingSound (known : Kind → String → Bool) (boards : Entries) (mapping : Entries) :
    Prop where
  state : ∀ v, mapping.get? "state" = some v → ∃ id, v = .str id ∧ known .state id = true
  board : ∀ v, mapping.get? "board" = some v → ∃ name, v = .str name ∧ boards.has name = true

namespace CompiledWorkflow

variable (w : CompiledWorkflow)

/-- A call names an element of a kind and has the arguments it declares. -/
def CallSound (kind : Kind) (name : String) (args : Entries) : Prop :=
  ∃ d, w.lookup kind name = some d ∧ ArgsFit w.has d.args args

/-- The references of a requirement set. -/
structure RequirementSound (req : RequirementSet) : Prop where
  artifacts : ∀ artifact ∈ req.artifacts, w.has .artifactType artifact = true
  validations : ∀ call ∈ req.validations, w.CallSound .validationType call.type call.args

/-- The references of a derivation. -/
structure DerivesSound (derives : DerivesSpec) : Prop where
  taskType : w.has .taskType derives.taskType = true
  state : w.has .state derives.state = true
  artifactType : w.has .artifactType derives.artifactType = true
  parent : ∀ state, derives.parentToIfDerived = some state → w.has .state state = true

/-- The references of a transition. -/
structure TransitionSound (t : CompiledTransition) : Prop where
  taskType : w.has .taskType t.taskType = true
  fromState : w.has .state t.fromState = true
  toState : w.has .state t.toState = true
  worker : ∀ worker, t.worker = some worker → w.has .worker worker = true
  requires : w.RequirementSound t.requires
  derives : ∀ derives, t.derives = some derives → w.DerivesSound derives
  transaction : ∀ plan, t.transaction = some plan → ∀ step ∈ plan.steps,
    w.CallSound .operationType step.op step.args

/-- The references of an element. -/
def ElementSound : Definition → Prop
  | .taskType tt => ∀ e ∈ tt.requirementsByState,
      w.has .state e.1 = true ∧ w.RequirementSound e.2
  | .transition t => w.TransitionSound t
  | .state _ | .artifactType _ | .validationType _ | .worker _ | .operationType _ => True

/-- The references of a storage. -/
def StorageSound (config : Entries) : Prop :=
  ∀ mapping, .map mapping ∈ itemsOf (config.get "state_mappings") →
    MappingSound w.has (entriesOf (config.get "boards")) mapping

/-- No reference of the definition dangles. -/
structure NoDangling : Prop where
  elements : ∀ kind id d, w.lookup kind id = some d → w.ElementSound d
  storage : ∀ config, w.storage = some config → w.StorageSound config

end CompiledWorkflow

/-- A document and its definition: no reference dangles, no two statements of a
kind share an id, and no statement is missing. -/
structure ReferencesHold (document : WorkflowDocument) (w : CompiledWorkflow) : Prop where
  sound : w.NoDangling
  distinct : DistinctIds document.statements
  complete : ∀ stmt ∈ document.statements, w.lookup stmt.kind stmt.id = some stmt.definition

-- ================================================ what is left to documents

/-- The calls of a requirement set. -/
def requirementCalls (req : RequirementSet) : List (Kind × String × Entries) :=
  req.validations.map fun call => (.validationType, call.type, call.args)

/-- The calls of a statement. -/
def Statement.calls : Statement → List (Kind × String × Entries)
  | .taskType _ requirements _ => requirements.flatMap fun e => requirementCalls e.2
  | .transition t => requirementCalls t.requires ++
      t.transaction.toList.flatMap fun plan =>
        plan.steps.map fun step => (.operationType, step.op, step.args)
  | .state _ _ | .artifactType _ _ | .validationType _ _ | .worker _ _ _
  | .operationType _ _ => []

/-- The document has a statement of a kind with an id. -/
def WorkflowDocument.declares (document : WorkflowDocument) (kind : Kind) (id : String) : Bool :=
  document.statements.any fun stmt => stmt.kind = kind && stmt.id = id

/-- The names of a call's arguments are strings, its own and those its type
declares, or the arguments fit nevertheless once they are texts. -/
def CallNamed (document : WorkflowDocument) (call : Kind × String × Entries) : Prop :=
  ∀ stmt ∈ document.statements, stmt.kind = call.1 → stmt.id = call.2.1 →
    (Entries.Texts stmt.args ∧ Entries.Texts call.2.2) ∨
      ArgsFit document.declares (argSpecsToDef stmt.args) (freezeMapping call.2.2)

/-- The state mappings of a document are checked by the compiler (the boards are
a mapping, the state, board and column are strings, as are the other keys), or
are sound nevertheless. -/
def MappingsChecked (document : WorkflowDocument) : Prop :=
  ∀ config, document.storage = some config →
    ∀ mapping, .map mapping ∈
        itemsOf ((normalizedStorageConfig config).get "state_mappings") →
      (Lang.anyMapping ((normalizedStorageConfig config).get "boards") = true ∧
        (mappingParts (.map mapping)).isSome = true ∧ Entries.Texts mapping) ∨
      MappingSound document.declares
        (entriesOf (freezeValue ((normalizedStorageConfig config).get "boards")))
        (freezeMapping mapping)

-- ============================================================ valid documents

/-- A document compiles if the registries are in order and no diagnostic is an
error. -/
theorem compileWorkflow_some {registries : RuntimeRegistries} {document : WorkflowDocument}
    {w : CompiledWorkflow} :
    (compileWorkflow registries document).2 = some w ↔
      registries.faults = [] ∧ noErrors (compileDiagnostics registries document) = true ∧
        w = { compiledTables document with
          storage := document.storage.map fun config =>
            freezeMapping (normalizedStorageConfig config) } := by
  unfold compileWorkflow
  split
  next hfaults => simpa using fun h => absurd h hfaults
  next hfaults =>
    dsimp only
    split
    next hok => simp [not_not.mp hfaults, hok, eq_comm]
    next hok => simp [hok]

/-- A valid document and its definition. -/
structure Accepted (registries : RuntimeRegistries) (document : WorkflowDocument)
    (w : CompiledWorkflow) : Prop where
  valid : noErrors (validate document) = true
  compiled : (compileWorkflow registries document).2 = some w

namespace Accepted

variable {registries : RuntimeRegistries} {document : WorkflowDocument} {w : CompiledWorkflow}

/-- The symbol table of a document. -/
def table (document : WorkflowDocument) : SymbolTable :=
  (buildSymbolTable (fun _ => ∅) document.statements).2

theorem represents (h : Accepted registries document w) :
    Represents (table document) document.statements := by
  have hvalid := h.valid
  unfold validate at hvalid
  rw [noErrors_append] at hvalid
  exact represents_empty.build document.statements hvalid.1

theorem visited (h : Accepted registries document w) :
    ∀ stmt ∈ document.statements, noErrors (visitStatement (table document) stmt) = true := by
  have hvalid := h.valid
  unfold validate at hvalid
  rw [noErrors_append, noErrors_flatMap] at hvalid
  exact hvalid.2

/-- What the compiler returns. -/
theorem definition (h : Accepted registries document w) :
    noErrors (compileDiagnostics registries document) = true ∧
      w = { compiledTables document with
        storage := document.storage.map fun config =>
          freezeMapping (normalizedStorageConfig config) } :=
  (compileWorkflow_some.mp h.compiled).2

theorem lookup_eq (h : Accepted registries document w) (kind : Kind) (id : String) :
    w.lookup kind id = (compiledTables document).lookup kind id := by
  rw [h.definition.2]
  cases kind <;> rfl

theorem lookup_mem (h : Accepted registries document w) {stmt : Statement}
    (hmem : stmt ∈ document.statements) : w.lookup stmt.kind stmt.id = some stmt.definition := by
  rw [h.lookup_eq]
  exact lookup_of_mem h.represents.distinct hmem _

/-- The definition knows what the symbol table knows. -/
theorem has_eq_known (h : Accepted registries document w) : w.has = (table document).known := by
  funext kind id
  unfold CompiledWorkflow.has SymbolTable.known
  rw [Bool.eq_iff_iff, Option.isSome_iff_exists, Option.isSome_iff_exists]
  constructor
  · intro ⟨d, hd⟩
    rw [h.lookup_eq] at hd
    obtain ⟨stmt, hmem, rfl, rfl, -⟩ := lookup_compiledTables hd
    exact ⟨stmt, h.represents.get stmt hmem⟩
  · intro ⟨stmt, hstmt⟩
    obtain ⟨hmem, rfl, rfl⟩ := h.represents.mem kind id stmt hstmt
    exact ⟨_, h.lookup_mem hmem⟩

/-- And what the document declares. -/
theorem has_eq_declares (h : Accepted registries document w) : w.has = document.declares := by
  funext kind id
  rw [Bool.eq_iff_iff]
  unfold CompiledWorkflow.has WorkflowDocument.declares
  rw [Option.isSome_iff_exists, List.any_eq_true]
  constructor
  · intro ⟨d, hd⟩
    rw [h.lookup_eq] at hd
    obtain ⟨stmt, hmem, hkind, hid, -⟩ := lookup_compiledTables hd
    exact ⟨stmt, hmem, by simp [hkind, hid]⟩
  · intro ⟨stmt, hmem, hsame⟩
    simp only [Bool.and_eq_true, decide_eq_true_eq] at hsame
    rw [← hsame.1, ← hsame.2]
    exact ⟨_, h.lookup_mem hmem⟩

/-- A visited call is sound if and only if its names are in order. -/
theorem callSound_iff (h : Accepted registries document w) {callKind : String} {kind : Kind}
    {name : String} {args : Entries} {stmt : Statement}
    (hget : ((table document) kind).get name = some stmt)
    (hvisited : noErrors (validateCallArgs (table document) callKind args stmt.args) = true) :
    w.CallSound kind name (freezeMapping args) ↔ CallNamed document (kind, name, args) := by
  obtain ⟨hmem, hkind, hid⟩ := h.represents.mem kind name stmt hget
  have hlookup : w.lookup kind name = some stmt.definition := by
    rw [← hkind, ← hid]
    exact h.lookup_mem hmem
  constructor
  · intro ⟨d, hd, hfit⟩ other hother hotherKind hotherId
    obtain rfl : other = stmt := by
      have hsame := h.represents.get other hother
      rw [hotherKind, hotherId, hget] at hsame
      exact (Option.some.inj hsame).symm
    rw [hlookup] at hd
    cases hd
    rw [Statement.definition_args, h.has_eq_declares] at hfit
    exact .inr hfit
  · intro hnamed
    refine ⟨stmt.definition, hlookup, ?_⟩
    rw [Statement.definition_args]
    rcases hnamed stmt hmem hkind hid with ⟨hdeclared, hsupplied⟩ | hfit
    · rw [h.has_eq_known]
      exact argsFit_of_visited hdeclared hsupplied hvisited
    · rw [h.has_eq_declares]
      exact hfit

theorem requirementSound_iff (h : Accepted registries document w) {req : RequirementSet}
    (hvisited : noErrors (visitRequirementSet (table document) req) = true) :
    w.RequirementSound (requirementSetToDef req) ↔
      ∀ call ∈ requirementCalls req, CallNamed document call := by
  unfold visitRequirementSet at hvisited
  rw [noErrors_append, noErrors_flatMap, noErrors_flatMap] at hvisited
  obtain ⟨hartifacts, hcalls⟩ := hvisited
  have hcall : ∀ call ∈ req.validations,
      (w.CallSound .validationType call.type (freezeMapping call.args) ↔
        CallNamed document (.validationType, call.type, call.args)) := by
    intro call hmem
    have hvisit := hcalls call hmem
    unfold visitValidationCall at hvisit
    split at hvisit
    next => cases hvisit
    next stmt hget => exact h.callSound_iff hget hvisit
  constructor
  · intro hsound call hmem
    obtain ⟨validation, hvalidation, rfl⟩ := List.mem_map.mp hmem
    exact (hcall validation hvalidation).mp
      (hsound.validations _ (List.mem_map.mpr ⟨validation, hvalidation, rfl⟩))
  · intro hnamed
    constructor
    · intro artifact hmem
      rw [h.has_eq_known]
      exact noErrors_checkKnown.mp (hartifacts artifact hmem)
    · intro call hmem
      obtain ⟨validation, hvalidation, rfl⟩ := List.mem_map.mp hmem
      exact (hcall validation hvalidation).mpr
        (hnamed _ (List.mem_map.mpr ⟨validation, hvalidation, rfl⟩))

/-- The state of a parent that has derived is left to the compiler. -/
theorem parent_known (h : Accepted registries document w) {t : TransitionStatement}
    (hmem : .transition t ∈ document.statements) {derives : DerivesSpec}
    (hderives : t.derives = some derives) {state : String}
    (hparent : derives.parentToIfDerived = some state) : w.has .state state = true := by
  have hlookup := lookup_of_mem h.represents.distinct hmem
    { schemaVersion := document.schemaVersion }
  have hget : (compiledTables document).transitions.get t.id = some (transitionToDef t) := by
    simpa [CompiledWorkflow.lookup, Statement.kind, Statement.id, Statement.definition,
      compiledTables] using hlookup
  have hok := h.definition.1
  unfold compileDiagnostics CompiledWorkflow.crossReferences at hok
  simp only [noErrors_append, noErrors_flatMap] at hok
  have hrefs := hok.1.1.2.2 _ (Store.mem_values.mpr ⟨_, hget⟩)
  unfold CompiledWorkflow.transitionRefs CompiledWorkflow.derivesRefs at hrefs
  simp only [noErrors_append, noErrors_flatMap, Option.mem_toList] at hrefs
  have hstate := (hrefs.1.2 derives hderives).2 state hparent
  rw [noErrors_checkDeclared] at hstate
  unfold CompiledWorkflow.has
  rw [h.lookup_eq]
  simpa [CompiledWorkflow.lookup] using hstate

theorem transitionSound_iff (h : Accepted registries document w) {t : TransitionStatement}
    (hmem : .transition t ∈ document.statements) :
    w.TransitionSound (transitionToDef t) ↔
      ∀ call ∈ (Statement.transition t).calls, CallNamed document call := by
  have hvisited : noErrors (visitTransition (table document) t) = true := h.visited _ hmem
  unfold visitTransition at hvisited
  simp only [noErrors_append, noErrors_flatMap, noErrors_checkKnown,
    Option.mem_toList] at hvisited
  obtain ⟨⟨⟨⟨⟨⟨htask, hfrom⟩, hto⟩, hworker⟩, hrequires⟩, hderives⟩, hsteps⟩ := hvisited
  have hknown : ∀ {kind id}, (((table document) kind).get id).isSome = true →
      w.has kind id = true := by
    intro kind id hid
    rw [h.has_eq_known]
    exact hid
  have hstep : ∀ plan, t.transaction = some plan → ∀ step ∈ plan.steps,
      (w.CallSound .operationType step.op (freezeMapping step.args) ↔
        CallNamed document (.operationType, step.op, step.args)) := by
    intro plan hplan step hmem
    have hvisit := hsteps plan hplan step hmem
    unfold visitOperationCall at hvisit
    split at hvisit
    next => cases hvisit
    next stmt hget => exact h.callSound_iff hget hvisit
  have hreq := h.requirementSound_iff hrequires
  constructor
  · intro hsound call hcall
    rcases List.mem_append.mp hcall with hcall | hcall
    · exact hreq.mp hsound.requires call hcall
    · simp only [List.mem_flatMap, Option.mem_toList, List.mem_map] at hcall
      obtain ⟨plan, hplan, step, hin, rfl⟩ := hcall
      refine (hstep plan hplan step hin).mp (hsound.transaction (transactionToDef plan) ?_
        { step with args := freezeMapping step.args } ?_)
      · simp only [transitionToDef, hplan, Option.map_some]
      · exact List.mem_map.mpr ⟨step, hin, rfl⟩
  · intro hnamed
    constructor
    · exact hknown htask
    · exact hknown hfrom
    · exact hknown hto
    · exact fun worker hw => hknown (hworker worker hw)
    · exact hreq.mpr fun call hcall => hnamed call (List.mem_append_left _ hcall)
    · intro derives hd
      have hvisit := hderives derives hd
      unfold visitDerives at hvisit
      simp only [noErrors_append, noErrors_checkKnown] at hvisit
      exact ⟨hknown hvisit.1.1, hknown hvisit.1.2, hknown hvisit.2,
        fun state hstate => h.parent_known hmem hd hstate⟩
    · intro plan hplan step hin
      obtain ⟨raw, hraw, rfl⟩ := Option.map_eq_some_iff.mp hplan
      obtain ⟨rawStep, hrawStep, rfl⟩ := List.mem_map.mp hin
      refine (hstep raw hraw rawStep hrawStep).mpr (hnamed _ (List.mem_append_right _ ?_))
      simp only [List.mem_flatMap, Option.mem_toList, List.mem_map]
      exact ⟨raw, hraw, rawStep, hrawStep, rfl⟩

theorem taskTypeSound_iff (h : Accepted registries document w) {id : String}
    {requirements : List (String × RequirementSet)} {instructions : List String}
    (hmem : .taskType id requirements instructions ∈ document.statements) :
    w.ElementSound (Statement.taskType id requirements instructions).definition ↔
      ∀ call ∈ (Statement.taskType id requirements instructions).calls,
        CallNamed document call := by
  have hvisited : noErrors (visitTaskType (table document) id requirements) = true :=
    h.visited _ hmem
  unfold visitTaskType at hvisited
  simp only [noErrors_append, noErrors_flatMap, noErrors_checkKnown] at hvisited
  simp only [CompiledWorkflow.ElementSound, Statement.definition, Statement.calls,
    List.forall_mem_map, List.mem_flatMap]
  constructor
  · intro hsound call ⟨e, he, hcall⟩
    exact (h.requirementSound_iff (hvisited e he).2).mp (hsound e he).2 call hcall
  · intro hnamed e he
    refine ⟨?_, (h.requirementSound_iff (hvisited e he).2).mpr fun call hcall =>
      hnamed call ⟨e, he, hcall⟩⟩
    rw [h.has_eq_known]
    exact (hvisited e he).1

/-- A statement's element is sound if and only if the names in its calls are in
order. -/
theorem elementSound_iff (h : Accepted registries document w) {stmt : Statement}
    (hmem : stmt ∈ document.statements) :
    w.ElementSound stmt.definition ↔ ∀ call ∈ stmt.calls, CallNamed document call := by
  cases stmt with
  | taskType id requirements instructions => exact h.taskTypeSound_iff hmem
  | transition t => exact h.transitionSound_iff hmem
  | state | artifactType | validationType | worker | operationType =>
      simp [CompiledWorkflow.ElementSound, Statement.definition, Statement.calls]

end Accepted

-- ================================================================== storage

/-- A key of a frozen mapping whose keys are texts. -/
theorem get?_freezeMapping {m : Entries} (h : Entries.Texts m) (key : String) :
    (freezeMapping m).get? key = (m.get? key).map freezeValue := by
  unfold freezeMapping Entries.get?
  rw [freeze_of_texts h, lookup_map_values]

theorem has_iff_mem {m : Entries} {key : String} :
    m.has key = true ↔ Scalar.str key ∈ m.map Prod.fst := by
  unfold Entries.has Entries.get?
  induction m with
  | nil => simp
  | cons e rest ih =>
      obtain ⟨k, v⟩ := e
      rw [List.lookup_cons, List.map_cons, List.mem_cons]
      by_cases hk : Scalar.str key = k
      · simp [hk]
      · have hbeq : (Scalar.str key == k) = false := by simpa using hk
        rw [hbeq]
        simp only [hk, false_or]
        exact ih

/-- Freezing keeps every string key. -/
theorem mem_freezeInto {α β : Type} {freeze : α → β} {key : String} (m : List (Scalar × α))
    {done : List (Scalar × β)}
    (h : Scalar.str key ∈ done.map Prod.fst ∨ Scalar.str key ∈ m.map Prod.fst) :
    Scalar.str key ∈ (freezeInto freeze done m).map Prod.fst := by
  induction m generalizing done with
  | nil => simpa [freezeInto] using h
  | cons e rest ih =>
      refine ih ?_
      rw [List.map_cons, List.mem_cons] at h
      rcases h with hdone | hkey | hrest
      · left
        rw [assign_keys]
        split
        next => exact hdone
        next => exact List.mem_append_left _ hdone
      · left
        rw [assign_keys, ← hkey]
        split
        next hmem => exact hmem
        next => exact List.mem_append_right _ List.mem_cons_self
      · exact .inr hrest

theorem has_freezeMapping {m : Entries} {key : String} (h : m.has key = true) :
    (freezeMapping m).has key = true :=
  has_iff_mem.mpr (mem_freezeInto m (.inr (has_iff_mem.mp h)))

theorem noErrors_ifNot {p : Prop} [Decidable p] {code message : String} :
    noErrors (if p then [⟨code, message, .error⟩] else []) = true ↔ ¬p := by
  by_cases h : p <;> simp [h]

theorem noErrors_ifThen {p : Prop} [Decidable p] {code message : String} :
    noErrors (if p then [] else [⟨code, message, .error⟩]) = true ↔ p := by
  by_cases h : p <;> simp [h]

/-- Checked state mappings name states and boards, and none of them has the
state or the column of an earlier one. -/
theorem checkMappings_spec {states : Store String CompiledState} {boards : Entries}
    {mappings : List Value} {seenStates : List String} {seenColumns : List (String × String)}
    (h : noErrors (checkMappings states boards seenStates seenColumns mappings) = true) :
    (∀ p ∈ mappings.filterMap mappingParts, (states.get p.1).isSome = true ∧
      boards.has p.2.1 = true ∧ p.1 ∉ seenStates ∧ p.2 ∉ seenColumns) ∧
      ((mappings.filterMap mappingParts).map Prod.fst).Nodup ∧
      ((mappings.filterMap mappingParts).map Prod.snd).Nodup := by
  induction mappings generalizing seenStates seenColumns with
  | nil => simp
  | cons mapping rest ih =>
      unfold checkMappings at h
      split at h
      next hnone =>
        rw [List.filterMap_cons_none hnone]
        exact ih h
      next state board column hsome =>
        simp only [noErrors_append, noErrors_checkDeclared, noErrors_ifNot, noErrors_ifThen] at h
        obtain ⟨⟨⟨⟨hstate, hboard⟩, hnewState⟩, hnewColumn⟩, hrest⟩ := h
        obtain ⟨hknown, hstates, hcolumns⟩ := ih hrest
        rw [List.filterMap_cons_some hsome]
        refine ⟨fun p hp => ?_, ?_, ?_⟩
        · rcases List.mem_cons.mp hp with rfl | hp
          · exact ⟨hstate, hboard, hnewState, hnewColumn⟩
          · obtain ⟨hs, hb, hns, hnc⟩ := hknown p hp
            exact ⟨hs, hb, fun hmem => hns (List.mem_cons_of_mem _ hmem),
              fun hmem => hnc (List.mem_cons_of_mem _ hmem)⟩
        · rw [List.map_cons, List.nodup_cons]
          refine ⟨fun hmem => ?_, hstates⟩
          obtain ⟨p, hp, heq⟩ := List.mem_map.mp hmem
          exact (hknown p hp).2.2.1 (heq ▸ List.mem_cons_self)
        · rw [List.map_cons, List.nodup_cons]
          refine ⟨fun hmem => ?_, hcolumns⟩
          obtain ⟨p, hp, heq⟩ := List.mem_map.mp hmem
          exact (hknown p hp).2.2.2 (heq ▸ List.mem_cons_self)

/-- The strings of a state mapping. -/
theorem get?_of_mappingParts {m : Entries} {state board column : String}
    (h : mappingParts (.map m) = some (state, board, column)) :
    m.get? "state" = some (.str state) ∧ m.get? "board" = some (.str board) ∧
      m.get? "column" = some (.str column) := by
  have hget : ∀ {key s : String}, m.get key = .str s → m.get? key = some (.str s) :=
    fun hs => Entries.get?_eq_of_get hs (by simp)
  unfold mappingParts at h
  dsimp only at h
  split at h
  next hs hb hc =>
    cases h
    exact ⟨hget hs, hget hb, hget hc⟩
  next => cases h

theorem texts_normalizedStorageConfig (config : Entries) :
    Entries.Texts (normalizedStorageConfig config) :=
  texts_freezeInto _ texts_nil

/-- The items of a frozen list. -/
theorem itemsOf_freezeValue (v : Value) : itemsOf (freezeValue v) = (itemsOf v).map freezeValue := by
  unfold freezeValue
  cases v with
  | scalar | map => rfl
  | list items => rw [coerceStorageConfig, itemsOf, itemsOf, coerceItems_eq_map]

theorem freezeValue_map (m : Entries) : freezeValue (.map m) = .map (freezeMapping m) := by
  unfold freezeValue freezeMapping
  rw [coerceStorageConfig, coerceEntries_eq]
  rfl

theorem freezeValue_eq_map {v : Value} {mapping : Entries} (h : freezeValue v = .map mapping) :
    ∃ m, v = .map m ∧ freezeMapping m = mapping := by
  cases v with
  | scalar s => cases h
  | list items =>
      unfold freezeValue at h
      rw [coerceStorageConfig] at h
      cases h
  | map m =>
      rw [freezeValue_map] at h
      exact ⟨m, rfl, by injection h⟩

/-- A part of the storage of a definition. -/
theorem get_frozenStorage (config : Entries) (key : String) :
    (freezeMapping (normalizedStorageConfig config)).get key =
      freezeValue ((normalizedStorageConfig config).get key) := by
  unfold Entries.get
  rw [get?_freezeMapping (texts_normalizedStorageConfig config)]
  cases (normalizedStorageConfig config).get? key <;> rfl

namespace Accepted

variable {registries : RuntimeRegistries} {document : WorkflowDocument} {w : CompiledWorkflow}

/-- A state mapping the compiler checks is sound. -/
theorem mappingSound_of_checked (h : Accepted registries document w) {config : Entries}
    (hconfig : document.storage = some config) {mapping : Entries}
    (hmem : .map mapping ∈ itemsOf ((normalizedStorageConfig config).get "state_mappings"))
    (hboards : Lang.anyMapping ((normalizedStorageConfig config).get "boards") = true)
    (hparts : (mappingParts (.map mapping)).isSome = true) (htexts : Entries.Texts mapping) :
    MappingSound w.has
      (entriesOf (freezeValue ((normalizedStorageConfig config).get "boards")))
      (freezeMapping mapping) := by
  obtain ⟨⟨state, board, column⟩, hsome⟩ := Option.isSome_iff_exists.mp hparts
  have hok := h.definition.1
  unfold compileDiagnostics storageRefs at hok
  rw [hconfig] at hok
  simp only [noErrors_append] at hok
  replace hok := hok.1.2
  split at hok
  next boards mappings hb hm =>
    rw [hm] at hmem
    rw [hb, freezeValue_map]
    obtain ⟨hstate, hboard, -⟩ := (checkMappings_spec hok).1 _
      (List.mem_filterMap.mpr ⟨_, hmem, hsome⟩)
    obtain ⟨hgetState, hgetBoard, -⟩ := get?_of_mappingParts hsome
    constructor
    · intro v hv
      rw [get?_freezeMapping htexts, hgetState] at hv
      cases hv
      refine ⟨state, rfl, ?_⟩
      unfold CompiledWorkflow.has
      rw [h.lookup_eq]
      simpa [CompiledWorkflow.lookup] using hstate
    · intro v hv
      rw [get?_freezeMapping htexts, hgetBoard] at hv
      cases hv
      exact ⟨board, rfl, has_freezeMapping hboard⟩
  next hneither =>
    cases hm : (normalizedStorageConfig config).get "state_mappings" with
    | list mappings =>
        cases hb : (normalizedStorageConfig config).get "boards" with
        | map boards => exact absurd hm (hneither boards mappings hb)
        | scalar | list =>
            rw [hb] at hboards
            cases hboards
    | scalar | map =>
        rw [hm] at hmem
        cases hmem

/-- The storage is sound if and only if the mappings the compiler passes over
are. -/
theorem storageSound_iff (h : Accepted registries document w) :
    (∀ config, w.storage = some config → w.StorageSound config) ↔ MappingsChecked document := by
  have hstorage : w.storage = document.storage.map fun config =>
      freezeMapping (normalizedStorageConfig config) := by
    rw [h.definition.2]
  unfold MappingsChecked CompiledWorkflow.StorageSound
  constructor
  · intro hsound config hconfig mapping hmem
    have hfrozen := hsound _ (by rw [hstorage, hconfig, Option.map_some]) (freezeMapping mapping)
    rw [get_frozenStorage, get_frozenStorage, itemsOf_freezeValue, h.has_eq_declares] at hfrozen
    exact .inr (hfrozen (List.mem_map.mpr ⟨_, hmem, freezeValue_map mapping⟩))
  · intro hchecked frozen hfrozen mapping hmem
    rw [hstorage] at hfrozen
    obtain ⟨config, hconfig, rfl⟩ := Option.map_eq_some_iff.mp hfrozen
    rw [get_frozenStorage, itemsOf_freezeValue] at hmem
    obtain ⟨raw, hraw, hmap⟩ := List.mem_map.mp hmem
    obtain ⟨m, rfl, rfl⟩ := freezeValue_eq_map hmap
    rw [get_frozenStorage]
    rcases hchecked config hconfig m hraw with ⟨hboards, hparts, htexts⟩ | hsound
    · exact h.mappingSound_of_checked hconfig hraw hboards hparts htexts
    · rw [h.has_eq_declares]
      exact hsound

end Accepted

/-- Of a valid document that compiles no reference dangles, no id is shared and
no statement is missing, if and only if the state mappings the compiler passes
over name states and boards, and calls with names that are no strings have the
arguments their types declare. -/
theorem referencesHold_iff {registries : RuntimeRegistries} {document : WorkflowDocument}
    {w : CompiledWorkflow} (h : Accepted registries document w) :
    ReferencesHold document w ↔
      (∀ stmt ∈ document.statements, ∀ call ∈ stmt.calls, CallNamed document call) ∧
        MappingsChecked document := by
  rw [← h.storageSound_iff]
  constructor
  · intro hold
    exact ⟨fun stmt hmem => (h.elementSound_iff hmem).mp
      (hold.sound.elements _ _ _ (h.lookup_mem hmem)), hold.sound.storage⟩
  · intro ⟨hnamed, hstorage⟩
    refine ⟨⟨fun kind id d hd => ?_, hstorage⟩, h.represents.distinct, fun stmt hmem =>
      h.lookup_mem hmem⟩
    rw [h.lookup_eq] at hd
    obtain ⟨stmt, hmem, -, -, rfl⟩ := lookup_compiledTables hd
    exact (h.elementSound_iff hmem).mpr (hnamed stmt hmem)

/-- A state, and a storage with one state mapping. -/
def mappedDocument (mapping : Entries) : WorkflowDocument where
  schemaVersion := 1
  statements := [.state "done" (some "success")]
  storage := some [
    (.str "boards", .map [(.str "main", .str "main.md")]),
    (.str "state_mappings", .list [.map mapping])]

/-- The definition of such a document. -/
def mappedWorkflow (mapping : Entries) : CompiledWorkflow where
  schemaVersion := 1
  states := Store.empty.put "done" ⟨"done", some "success"⟩
  storage := (mappedDocument mapping).storage

/-- A state mapping in order. -/
def doneMapping : Entries := [
  (.str "state", .str "done"),
  (.str "board", .str "main"),
  (.str "column", .str "Done")]

theorem doneMapping_accepted :
    Accepted builtinRegistries (mappedDocument doneMapping) (mappedWorkflow doneMapping) where
  valid := by decide
  compiled := rfl

theorem doneMapping_holds :
    ReferencesHold (mappedDocument doneMapping) (mappedWorkflow doneMapping) := by
  refine (referencesHold_iff doneMapping_accepted).mpr ⟨by simp [mappedDocument, Statement.calls],
    fun config hconfig mapping hmem => .inl ?_⟩
  cases hconfig
  obtain rfl : mapping = doneMapping := by
    have hitem := List.mem_singleton.mp hmem
    injection hitem
  exact ⟨rfl, rfl, by decide⟩

/-- A state mapping of an unknown state whose column is a number. -/
def numberedMapping : Entries := [
  (.str "state", .str "dine"),
  (.str "board", .str "main"),
  (.str "column", .int 2026)]

/-- It is passed over, so that the definition maps a state that does not
exist. -/
theorem numberedMapping_dangles :
    Accepted builtinRegistries (mappedDocument numberedMapping) (mappedWorkflow numberedMapping) ∧
      ¬ReferencesHold (mappedDocument numberedMapping) (mappedWorkflow numberedMapping) := by
  refine ⟨⟨by decide, rfl⟩, fun hold => ?_⟩
  have hmapping := hold.sound.storage _ rfl numberedMapping List.mem_cons_self
  obtain ⟨id, hid, hhas⟩ := hmapping.state (.str "dine") rfl
  cases hid
  have hnone : (mappedWorkflow numberedMapping).has .state "dine" = false := by decide
  rw [hnone] at hhas
  cases hhas

end OpenTulid.Engine
