/-
The compiler's diagnostics about terminal states against what the runtime
makes of a dependency.

The compiler asks of a state whether any transition leaves it, the runtime
whether one of the task's own type does. The two agree where every undeclared
state that some transition leaves is left by a transition of each type that can
be in it (`LeftByAll`). Elsewhere a task of another type ends in the state
without an outcome, and declaring one would contradict the transition.
-/
import OpenTulid.Proofs.WorkflowReferences

namespace OpenTulid.Engine

open Doc

-- ============================================================= the statement

namespace CompiledWorkflow

variable (w : CompiledWorkflow)

/-- Some transition of a type leaves the state. -/
def leavesFor (taskType state : String) : Bool :=
  w.transitions.values.any fun t => t.taskType = taskType && t.fromState = state

/-- A transition puts a task of a type in a state, or takes it from there. -/
def CompiledTransition.touches (t : CompiledTransition) (taskType state : String) : Prop :=
  (t.taskType = taskType ∧ (t.fromState = state ∨ t.toState = state)) ∨
    ∃ d, t.derives = some d ∧
      ((d.taskType = taskType ∧ d.state = state) ∨
        (t.taskType = taskType ∧ d.parentToIfDerived = some state))

/-- A task of a type can be in a state. -/
def occupies (taskType state : String) : Prop :=
  ∃ t ∈ w.transitions.values, CompiledTransition.touches t taskType state

/-- The outcome of a dependency. -/
def outcome (taskType state : String) : DependencyOutcome :=
  w.toDefinition.dependencyOutcome taskType state

/-- A state declares no outcome. -/
def undeclared (state : String) : Prop :=
  ∀ found, w.states.get state = some found → found.terminalOutcome = none

/-- Every undeclared state that a transition leaves is left by one of each type
that can be in it. -/
def LeftByAll : Prop :=
  ∀ taskType state, w.occupies taskType state → w.undeclared state → w.leaves state = true →
    w.leavesFor taskType state = true

end CompiledWorkflow

/-- A statement with the outcome of a state declared. -/
def Statement.declareOutcome (state outcome : String) : Statement → Statement
  | .state id old => if id = state then .state id (some outcome) else .state id old
  | stmt => stmt

theorem Statement.declareOutcome_state (state outcome id : String) (old : Option String) :
    (Statement.state id old).declareOutcome state outcome =
      if id = state then .state id (some outcome) else .state id old := rfl

/-- A document with the outcome of a state declared. -/
def WorkflowDocument.declareOutcome (document : WorkflowDocument) (state outcome : String) :
    WorkflowDocument :=
  { document with statements := document.statements.map (Statement.declareOutcome state outcome) }

/-- Nothing is reported about terminal states. -/
def noTerminalDiagnostics (diags : List Diagnostic) : Prop :=
  ∀ d ∈ diags, d.code ≠ "workflow.compile.terminal_conflict" ∧
    d.code ≠ "workflow.compile.ambiguous_terminal_state"

/-- The diagnostics of a compiled document agree with the runtime: where nothing
is reported no outcome is ambiguous, and where one is, some declaration compiles
and settles it. -/
structure TerminalsAgree (registries : RuntimeRegistries) (document : WorkflowDocument)
    (w : CompiledWorkflow) : Prop where
  silent : noTerminalDiagnostics (compileWorkflow registries document).1 →
    ∀ taskType state, w.occupies taskType state → w.outcome taskType state ≠ .ambiguous
  settled : ∀ taskType state, w.occupies taskType state →
    w.outcome taskType state = .ambiguous →
    ∃ outcome w', (compileWorkflow registries (document.declareOutcome state outcome)).2 = some w' ∧
      w'.outcome taskType state ≠ .ambiguous

-- ================================================================ outcomes

section

variable {w : CompiledWorkflow} {taskType state : String}

theorem hasOutgoingTransition_toDefinition :
    w.toDefinition.hasOutgoingTransition taskType state = w.leavesFor taskType state := by
  unfold WorkflowDefinition.hasOutgoingTransition CompiledWorkflow.toDefinition
    CompiledWorkflow.leavesFor
  simp [List.any_map, Function.comp_def]

theorem terminalOutcomeOf_toDefinition :
    w.toDefinition.terminalOutcomeOf state =
      (w.states.get state).bind fun found => found.terminalOutcome.bind outcomeOf := by
  unfold WorkflowDefinition.terminalOutcomeOf CompiledWorkflow.toDefinition
  cases h : w.states.get state <;> simp [h]

/-- An outcome is ambiguous where no transition of the type leaves the state and
no outcome can be read. -/
theorem outcome_ambiguous :
    w.outcome taskType state = .ambiguous ↔
      w.leavesFor taskType state = false ∧
        ∀ found, w.states.get state = some found → found.terminalOutcome.bind outcomeOf = none := by
  unfold CompiledWorkflow.outcome WorkflowDefinition.dependencyOutcome
  rw [hasOutgoingTransition_toDefinition, terminalOutcomeOf_toDefinition]
  cases w.leavesFor taskType state with
  | true => simp
  | false =>
      cases w.states.get state with
      | none => simp
      | some found =>
          rw [if_neg Bool.false_ne_true, Option.bind_some]
          cases hfound : found.terminalOutcome.bind outcomeOf with
          | none => exact ⟨fun _ => ⟨rfl, fun _ h => by cases h; exact hfound⟩, fun _ => rfl⟩
          | some outcome =>
              refine ⟨fun h => (by cases h), fun ⟨_, h⟩ => ?_⟩
              rw [h found rfl] at hfound
              cases hfound

end

-- ====================================================== compiled documents

section

variable {registries : RuntimeRegistries} {document : WorkflowDocument} {w : CompiledWorkflow}
  {taskType state : String}

/-- The declared outcomes of a compiled document are read. -/
theorem outcomeOf_compiled (h : (compileWorkflow registries document).2 = some w)
    {found : CompiledState} (hget : w.states.get state = some found)
    (hnone : found.terminalOutcome.bind outcomeOf = none) : found.terminalOutcome = none := by
  obtain ⟨-, hok, rfl⟩ := compileWorkflow_some.mp h
  have hlookup : (compiledTables document).lookup .state state = some (.state found) := by
    simpa [CompiledWorkflow.lookup] using hget
  obtain ⟨stmt, hmem, -, -, hdefinition⟩ := lookup_compiledTables hlookup
  unfold compileDiagnostics at hok
  simp only [noErrors_append, noErrors_flatMap] at hok
  have hstmt := hok.1.1.1 stmt hmem
  cases stmt with
  | state id outcome =>
      cases hdefinition
      cases outcome with
      | none => rfl
      | some outcome =>
          simp only [statementDiagnostics] at hstmt
          split at hstmt
          next hsupported =>
            simp only [Option.all_some, decide_eq_true_eq, supportedTerminalOutcomes,
              List.mem_cons, List.not_mem_nil, or_false] at hsupported
            rcases hsupported with rfl | rfl | rfl <;> cases hnone
          next => cases hstmt
  | taskType | artifactType | validationType | worker | operationType | transition =>
      cases hdefinition

/-- The states of a compiled document's transitions are declared. -/
theorem occupies_declared (h : (compileWorkflow registries document).2 = some w)
    (hoccupies : w.occupies taskType state) : ∃ found, w.states.get state = some found := by
  obtain ⟨-, hok, rfl⟩ := compileWorkflow_some.mp h
  obtain ⟨t, ht, htouches⟩ := hoccupies
  unfold compileDiagnostics CompiledWorkflow.crossReferences at hok
  simp only [noErrors_append, noErrors_flatMap] at hok
  have hrefs := hok.1.1.2.2 t ht
  unfold CompiledWorkflow.transitionRefs CompiledWorkflow.derivesRefs at hrefs
  simp only [noErrors_append, noErrors_flatMap, noErrors_checkDeclared, Option.mem_toList] at hrefs
  obtain ⟨⟨⟨⟨⟨⟨-, hfrom⟩, hto⟩, -⟩, -⟩, hderives⟩, -⟩ := hrefs
  refine Option.isSome_iff_exists.mp ?_
  rcases htouches with ⟨-, rfl | rfl⟩ | ⟨d, hd, ⟨-, rfl⟩ | ⟨-, hparent⟩⟩
  · exact hfrom
  · exact hto
  · exact (hderives d hd).1.1.2
  · exact (hderives d hd).2 state hparent

/-- An ambiguous outcome of a compiled document: the state is undeclared, and no
transition of the type leaves it. -/
theorem ambiguous_compiled (h : (compileWorkflow registries document).2 = some w) :
    w.outcome taskType state = .ambiguous ↔
      w.leavesFor taskType state = false ∧ w.undeclared state := by
  rw [outcome_ambiguous]
  refine and_congr_right' (forall₂_congr fun found hget => ⟨outcomeOf_compiled h hget, ?_⟩)
  intro hnone
  rw [hnone, Option.bind_none]

end

-- ======================================================= declaring an outcome

/-- Two definitions that differ in the outcomes of their states only. -/
structure Redeclared (w w' : CompiledWorkflow) : Prop where
  same : w' = { w with states := w'.states }
  states : ∀ id, (w'.states.get id).isSome = (w.states.get id).isSome

theorem checkDeclared_congr {α β : Type} {entries : Store String α} {entries' : Store String β}
    {id : String} (h : (entries'.get id).isSome = (entries.get id).isSome)
    (code message : String) :
    checkDeclared entries' id code message = checkDeclared entries id code message := by
  unfold checkDeclared
  rw [h]

namespace Redeclared

variable {w w' : CompiledWorkflow}

/-- The cross references do not depend on the outcomes. -/
theorem crossReferences (h : Redeclared w w') : w'.crossReferences = w.crossReferences := by
  have hstate := fun id code message => checkDeclared_congr (h.states id) code message
  have hreqs : w'.requirementRefs = w.requirementRefs := by
    rw [h.same]
    rfl
  have htask : w'.taskTypeRefs = w.taskTypeRefs := by
    funext tt
    unfold CompiledWorkflow.taskTypeRefs
    simp only [hstate, hreqs]
  have hderives : w'.derivesRefs = w.derivesRefs := by
    funext ctx derives
    unfold CompiledWorkflow.derivesRefs
    simp only [hstate]
    rw [h.same]
  have htransition : w'.transitionRefs = w.transitionRefs := by
    funext t
    unfold CompiledWorkflow.transitionRefs
    simp only [hstate, hreqs, hderives]
    rw [h.same]
  unfold CompiledWorkflow.crossReferences
  rw [htask, htransition, h.same]

/-- Nor do the checks of the storage. -/
theorem checkMappings (h : Redeclared w w') (boards : Entries) (mappings : List Value)
    (seenStates : List String) (seenColumns : List (String × String)) :
    Engine.checkMappings w'.states boards seenStates seenColumns mappings =
      Engine.checkMappings w.states boards seenStates seenColumns mappings := by
  induction mappings generalizing seenStates seenColumns with
  | nil => rfl
  | cons mapping rest ih =>
      unfold Engine.checkMappings
      simp only [ih, checkDeclared_congr (h.states _)]

theorem storageRefs (h : Redeclared w w') (storage : Option Entries) :
    Engine.storageRefs storage w'.states = Engine.storageRefs storage w.states := by
  unfold Engine.storageRefs
  simp only [h.checkMappings]

end Redeclared

/-- A definition with the outcome of a state declared. -/
structure Declared (state outcome : String) (w w' : CompiledWorkflow) : Prop where
  same : w' = { w with states := w'.states }
  states : ∀ id, w'.states.get id =
    if id = state then (w.states.get id).map fun found => { found with terminalOutcome := outcome }
    else w.states.get id

namespace Declared

variable {state outcome : String} {w w' : CompiledWorkflow}

theorem redeclared (h : Declared state outcome w w') : Redeclared w w' where
  same := h.same
  states := fun id => by
    rw [h.states]
    split <;> simp

/-- Both definitions with a statement's element set. -/
theorem define (h : Declared state outcome w w') (stmt : Statement) :
    Declared state outcome (w.define stmt) (w'.define (stmt.declareOutcome state outcome)) := by
  have hsame := h.same
  have hstates := h.states
  generalize w'.states = states at hsame hstates
  subst hsame
  cases stmt with
  | state id old =>
      rw [Statement.declareOutcome_state]
      by_cases hid : id = state
      · rw [if_pos hid]
        refine ⟨rfl, fun other => ?_⟩
        simp only [CompiledWorkflow.define, Store.get_put, hstates]
        by_cases hother : other = id
        · simp [hother, hid]
        · have hne : other ≠ state := fun heq => hother (heq.trans hid.symm)
          simp [hother, hne]
      · rw [if_neg hid]
        refine ⟨rfl, fun other => ?_⟩
        simp only [CompiledWorkflow.define, Store.get_put, hstates]
        by_cases hother : other = id
        · simp [hother, hid]
        · simp [hother]
  | taskType | artifactType | validationType | worker | operationType | transition =>
      exact ⟨rfl, hstates⟩

/-- The tables of a document and of one with the outcome declared. -/
theorem foldl (h : Declared state outcome w w') (statements : List Statement) :
    Declared state outcome (statements.foldl CompiledWorkflow.define w)
      ((statements.map (Statement.declareOutcome state outcome)).foldl
        CompiledWorkflow.define w') := by
  induction statements generalizing w w' with
  | nil => exact h
  | cons stmt rest ih => exact ih (h.define stmt)

end Declared

section

variable {registries : RuntimeRegistries} {document : WorkflowDocument} {w : CompiledWorkflow}
  {state outcome : String}

theorem declared_compiledTables (document : WorkflowDocument) (state outcome : String) :
    Declared state outcome (compiledTables document)
      (compiledTables (document.declareOutcome state outcome)) :=
  Declared.foldl ⟨rfl, fun id => by split <;> rfl⟩ document.statements

/-- The states of a document stand under their ids. -/
theorem id_of_compiledTables {id : String} {found : CompiledState}
    (h : (compiledTables document).states.get id = some found) : found.id = id := by
  have hlookup : (compiledTables document).lookup .state id = some (.state found) := by
    simpa [CompiledWorkflow.lookup] using h
  obtain ⟨stmt, -, -, hid, hdefinition⟩ := lookup_compiledTables hlookup
  cases stmt with
  | state => cases hdefinition; exact hid
  | taskType | artifactType | validationType | worker | operationType | transition =>
      cases hdefinition

/-- A terminal state is in order unless it declares an outcome and is left. -/
theorem noErrors_terminalSemantics :
    noErrors w.terminalSemantics = true ↔
      ∀ found ∈ w.states.values, found.terminalOutcome.isSome = true →
        w.leaves found.id = false := by
  unfold CompiledWorkflow.terminalSemantics
  rw [noErrors_flatMap]
  refine forall₂_congr fun found _ => ?_
  cases found.terminalOutcome with
  | none => cases w.leaves found.id <;> simp [noErrors, ambiguousTerminalState]
  | some outcome => cases w.leaves found.id <;> simp [noErrors, terminalConflict]

/-- A statement with a supported outcome declared is as much in order. -/
theorem noErrors_declareOutcome (hsupported : outcome ∈ supportedTerminalOutcomes)
    {stmt : Statement} (h : noErrors (statementDiagnostics registries stmt) = true) :
    noErrors (statementDiagnostics registries (stmt.declareOutcome state outcome)) = true := by
  cases stmt with
  | state id old =>
      rw [Statement.declareOutcome_state]
      split
      next => simp [statementDiagnostics, hsupported]
      next => exact h
  | taskType | artifactType | validationType | worker | operationType | transition => exact h

/-- Both documents compile to definitions that differ in that outcome. -/
theorem declared_of_compiled {w' : CompiledWorkflow}
    (h : (compileWorkflow registries document).2 = some w)
    (h' : (compileWorkflow registries (document.declareOutcome state outcome)).2 = some w') :
    Declared state outcome w w' := by
  obtain ⟨-, -, rfl⟩ := compileWorkflow_some.mp h
  obtain ⟨-, -, rfl⟩ := compileWorkflow_some.mp h'
  have hdeclared := declared_compiledTables document state outcome
  refine ⟨?_, hdeclared.states⟩
  have hsame := hdeclared.same
  generalize compiledTables (document.declareOutcome state outcome) = tables at hsame
  rw [hsame]
  rfl

/-- Where no transition leaves a state, an outcome can be declared for it. -/
theorem compile_declareOutcome (h : (compileWorkflow registries document).2 = some w)
    (hsupported : outcome ∈ supportedTerminalOutcomes) (hleaves : w.leaves state = false) :
    ∃ w', (compileWorkflow registries (document.declareOutcome state outcome)).2 = some w' ∧
      Declared state outcome w w' := by
  obtain ⟨hfaults, hok, rfl⟩ := compileWorkflow_some.mp h
  have hdeclared := declared_compiledTables document state outcome
  have hok' : noErrors (compileDiagnostics registries
      (document.declareOutcome state outcome)) = true := by
    unfold compileDiagnostics at hok ⊢
    simp only [noErrors_append] at hok ⊢
    obtain ⟨⟨⟨hstatements, hrefs⟩, hstorage⟩, hterminal⟩ := hok
    rw [hdeclared.redeclared.crossReferences]
    refine ⟨⟨⟨?_, hrefs⟩, ?_⟩, ?_⟩
    · rw [noErrors_flatMap] at hstatements ⊢
      intro stmt hmem
      obtain ⟨old, hold, rfl⟩ := List.mem_map.mp hmem
      exact noErrors_declareOutcome hsupported (hstatements old hold)
    · rw [hdeclared.redeclared.storageRefs]
      exact hstorage
    · rw [noErrors_terminalSemantics] at hterminal ⊢
      intro found hfound hsome
      obtain ⟨id, hget⟩ := Store.mem_values.mp hfound
      have hid := id_of_compiledTables hget
      have hleavesSame : ∀ id, (compiledTables (document.declareOutcome state outcome)).leaves id =
          (compiledTables document).leaves id := by
        intro id
        rw [hdeclared.same]
        rfl
      rw [hleavesSame]
      rw [hdeclared.states] at hget
      split at hget
      next hstate => rw [hid, hstate]; exact hleaves
      next => exact hterminal found (Store.mem_values.mpr ⟨id, hget⟩) hsome
  have hcompiled := compileWorkflow_some.mpr ⟨hfaults, hok', rfl⟩
  exact ⟨_, hcompiled, declared_of_compiled h hcompiled⟩

/-- A declared outcome of a compiled document says that no transition leaves the
state. -/
theorem leaves_of_declared (h : (compileWorkflow registries document).2 = some w)
    {found : CompiledState} (hget : w.states.get state = some found)
    (hsome : found.terminalOutcome.isSome = true) : w.leaves state = false := by
  obtain ⟨-, hok, rfl⟩ := compileWorkflow_some.mp h
  unfold compileDiagnostics at hok
  simp only [noErrors_append] at hok
  have hleaves := noErrors_terminalSemantics.mp hok.2 found
    (Store.mem_values.mpr ⟨state, hget⟩) hsome
  rw [id_of_compiledTables hget] at hleaves
  exact hleaves

/-- A state without transitions and outcome is reported. -/
theorem mem_compileDiagnostics {found : CompiledState}
    (hget : (compiledTables document).states.get state = some found)
    (hnone : found.terminalOutcome = none)
    (hleaves : (compiledTables document).leaves state = false) :
    ambiguousTerminalState found ∈ compileDiagnostics registries document := by
  refine List.mem_append_right _ (List.mem_flatMap.mpr
    ⟨found, Store.mem_values.mpr ⟨state, hget⟩, ?_⟩)
  rw [id_of_compiledTables hget, hnone, hleaves]
  exact List.mem_cons_self

/-- The compiler's diagnostics about terminal states agree with the runtime if
and only if every undeclared state that a transition leaves is left by one of
each type that can be in it. -/
theorem terminalsAgree_iff (h : (compileWorkflow registries document).2 = some w) :
    TerminalsAgree registries document w ↔ w.LeftByAll := by
  constructor
  · intro hagree taskType state hoccupies hundeclared hleaves
    rw [← Bool.not_eq_false]
    intro hfor
    obtain ⟨outcome, w', hw', -⟩ := hagree.settled taskType state hoccupies
      ((ambiguous_compiled h).mpr ⟨hfor, hundeclared⟩)
    have hdeclared := declared_of_compiled h hw'
    obtain ⟨found, hfound⟩ := occupies_declared h hoccupies
    have hget := hdeclared.states state
    rw [if_pos rfl, hfound, Option.map_some] at hget
    have hnot := leaves_of_declared hw' hget rfl
    rw [hdeclared.same] at hnot
    exact absurd hleaves (by rw [show w.leaves state = false from hnot]; simp)
  · intro hleft
    have hstay : ∀ taskType state, w.occupies taskType state →
        w.outcome taskType state = .ambiguous → w.leaves state = false := by
      intro taskType state hoccupies hambiguous
      obtain ⟨hfor, hundeclared⟩ := (ambiguous_compiled h).mp hambiguous
      rw [← Bool.not_eq_true]
      intro hleaves
      rw [hleft taskType state hoccupies hundeclared hleaves] at hfor
      cases hfor
    constructor
    · intro hsilent taskType state hoccupies hambiguous
      have hleaves := hstay taskType state hoccupies hambiguous
      obtain ⟨-, hundeclared⟩ := (ambiguous_compiled h).mp hambiguous
      obtain ⟨found, hfound⟩ := occupies_declared h hoccupies
      have hnone := hundeclared found hfound
      obtain ⟨hfaults, hok, rfl⟩ := compileWorkflow_some.mp h
      have hdiags : (compileWorkflow registries document).1 =
          compileDiagnostics registries document := by
        simp [compileWorkflow, hfaults, hok]
      rw [hdiags] at hsilent
      exact (hsilent _ (mem_compileDiagnostics hfound hnone hleaves)).2 rfl
    · intro taskType state hoccupies hambiguous
      have hleaves := hstay taskType state hoccupies hambiguous
      obtain ⟨w', hw', hdeclared⟩ := compile_declareOutcome h
        (by decide : "success" ∈ supportedTerminalOutcomes)
        hleaves
      refine ⟨"success", w', hw', fun hstill => ?_⟩
      obtain ⟨found, hfound⟩ := occupies_declared h hoccupies
      have hget := hdeclared.states state
      rw [if_pos rfl, hfound, Option.map_some] at hget
      have hnone := ((ambiguous_compiled hw').mp hstill).2 _ hget
      cases hnone

end

-- ============================================================ two documents

/-- A document with a state that two types share. The first leaves it; the
second enters it from another state, or leaves it as well. -/
def sharedDocument (second : TransitionStatement) : WorkflowDocument where
  schemaVersion := 1
  statements := [
    .state "todo" none,
    .state "review" none,
    .state "done" (some "success"),
    .taskType "article" [] [],
    .taskType "note" [] [],
    .transition { id := "write", taskType := "article", fromState := "todo", toState := "review" },
    .transition { id := "publish", taskType := "article", fromState := "review",
                  toState := "done" },
    .transition second]

/-- A note ends in review. -/
def noteEnds : TransitionStatement :=
  { id := "jot", taskType := "note", fromState := "todo", toState := "review" }

/-- A note leaves review. -/
def noteLeaves : TransitionStatement :=
  { id := "jot", taskType := "note", fromState := "review", toState := "done" }

theorem noteLeaves_agrees :
    TerminalsAgree builtinRegistries (sharedDocument noteLeaves)
      (compiledTables (sharedDocument noteLeaves)) := by
  refine (terminalsAgree_iff (compileWorkflow_some.mpr ⟨rfl, by decide, rfl⟩)).mpr ?_
  have hvalues : (compiledTables (sharedDocument noteLeaves)).transitions.values =
      [transitionToDef noteLeaves,
        transitionToDef { id := "publish", taskType := "article", fromState := "review",
                          toState := "done" },
        transitionToDef { id := "write", taskType := "article", fromState := "todo",
                          toState := "review" }] := by decide
  intro taskType state ⟨t, ht, htouches⟩ _ hleaves
  have hdone : (compiledTables (sharedDocument noteLeaves)).leaves "done" = false := by decide
  rw [hvalues] at ht
  simp only [List.mem_cons, List.not_mem_nil, or_false] at ht
  rcases ht with rfl | rfl | rfl <;>
    rcases htouches with ⟨rfl, rfl | rfl⟩ | ⟨d, hd, -⟩
  · decide
  · rw [show (compiledTables (sharedDocument noteLeaves)).leaves "done" = true from hleaves] at hdone
    cases hdone
  · cases hd
  · decide
  · rw [show (compiledTables (sharedDocument noteLeaves)).leaves "done" = true from hleaves] at hdone
    cases hdone
  · cases hd
  · decide
  · decide
  · cases hd

/-- A note that ends in review is never settled, and nothing is reported. -/
theorem noteEnds_disagrees :
    (compileWorkflow builtinRegistries (sharedDocument noteEnds)).2 =
        some (compiledTables (sharedDocument noteEnds)) ∧
      ¬TerminalsAgree builtinRegistries (sharedDocument noteEnds)
        (compiledTables (sharedDocument noteEnds)) := by
  refine ⟨compileWorkflow_some.mpr ⟨rfl, by decide, rfl⟩, fun hagree => ?_⟩
  have hsilent : (compileWorkflow builtinRegistries (sharedDocument noteEnds)).1 = [] := by decide
  have hjot : transitionToDef noteEnds ∈
      (compiledTables (sharedDocument noteEnds)).transitions.values := by decide
  refine hagree.silent (by simp [noTerminalDiagnostics, hsilent]) "note" "review"
    ⟨_, hjot, .inl ⟨rfl, .inr rfl⟩⟩ ?_
  decide

end OpenTulid.Engine
