/-
When the workflow cache answers as an empty one would, and when what it calls
valid can be worked with.

An entry answers for the bytes it was made from, so the definition it holds
is that of the file. Its validity is another matter: it includes a look at
the agents folder, which the fingerprint does not cover. And that look asks
less than the resolver does: a blank reference, a file that a link leads out
of the folder, and a file that cannot be read pass it.

`Filled` says what an entry is worth; every step keeps it, so that each load
of a history can be judged by the state it happens in.
-/
import OpenTulid.Engine.Cache
import OpenTulid.Proofs.WorkflowReferences

namespace OpenTulid.Engine

open Doc

-- ========================================================== the references

/-- Every reference of a definition stays in the folder and means exactly one
file of it. -/
def Found (w : CompiledWorkflow) (agents : AgentFolder) : Prop :=
  ∀ ref ∈ w.instructionRefs, leavesAgents ref = false ∧ (agents.matchesOf ref).length = 1

instance (w : CompiledWorkflow) (agents : AgentFolder) : Decidable (Found w agents) :=
  List.decidableBAll _ _

theorem noErrors_instructionDiagnostic {agents : AgentFolder} {ref : String} :
    noErrors (instructionDiagnostic agents ref) = true ↔
      leavesAgents ref = false ∧ (agents.matchesOf ref).length = 1 := by
  unfold instructionDiagnostic
  cases hleaves : leavesAgents ref with
  | true => simp
  | false =>
      rw [if_neg Bool.false_ne_true]
      by_cases hone : (agents.matchesOf ref).length = 1
      · simp [hone, noErrors_nil]
      · simp [hone]

/-- A load finds nothing wrong with the references that are found. -/
theorem noErrors_instructionDiagnostics {w : CompiledWorkflow} {agents : AgentFolder} :
    noErrors (instructionDiagnostics w agents) = true ↔ Found w agents := by
  unfold instructionDiagnostics Found
  rw [noErrors_flatMap]
  simp only [List.mem_insertionSort, List.mem_dedup, noErrors_instructionDiagnostic]

-- =============================================================== a fresh load

section fresh

variable {F : Frontend} {source : Content} {w : CompiledWorkflow}

/-- A document that compiles has no errors. -/
theorem noErrors_compileWorkflow {registries : RuntimeRegistries} {document : WorkflowDocument}
    (h : (compileWorkflow registries document).2 = some w) :
    noErrors (compileWorkflow registries document).1 = true := by
  obtain ⟨hfaults, hok, -⟩ := compileWorkflow_some.mp h
  unfold compileWorkflow
  rw [if_neg fun hne => hne hfaults]
  dsimp only
  rw [if_pos hok]
  exact hok

/-- A definition comes without errors. -/
theorem noErrors_of_compiled (h : (compiledResult F source).definition = some w) :
    noErrors (compiledResult F source).diagnostics = true := by
  unfold compiledResult at h ⊢
  split at h
  next => cases h
  next text hdecode =>
    dsimp only at h ⊢
    split at h
    next => cases h
    next hparsed =>
      rw [if_neg hparsed]
      split at h
      next document hbuilt =>
        split at h
        next hvalid =>
          rw [if_pos hvalid]
          exact noErrors_compileWorkflow h
        next => cases h
      next => cases h

/-- A fresh load answers the definition of the bytes. -/
theorem definition_freshResult (agents : AgentFolder) :
    (freshResult F source agents).definition = (compiledResult F source).definition := rfl

/-- It is valid if the definition's references are found. -/
theorem valid_freshResult (agents : AgentFolder) :
    (freshResult F source agents).valid = true ↔
      ∃ w, (compiledResult F source).definition = some w ∧ Found w agents := by
  unfold WorkflowLoadResult.valid freshResult
  dsimp only
  rw [Bool.and_eq_true]
  cases hdefinition : (compiledResult F source).definition with
  | none => simp
  | some w =>
      rw [noErrors_append, noErrors_of_compiled hdefinition]
      simp [noErrors_instructionDiagnostics]

end fresh

-- ================================================================ the cache

namespace CacheState

variable {F : Frontend} {s : CacheState}

/-- Every entry holds what a fresh load made of its content, with the agents
folder there was. -/
def Filled (F : Frontend) (s : CacheState) : Prop :=
  ∀ path cached, s.cache path = some cached →
    ∃ source, cached.fingerprint = sha256 source ∧
      cached.result = freshResult F source (s.checked path)

/-- The entry that answers a load, if there is one. -/
def hit (s : CacheState) (source : Content) : Option CachedWorkflow :=
  (s.cache s.workflowPath).filter (·.fingerprint = sha256 source)

theorem filled_emptied (s : CacheState) : s.emptied.Filled F := by
  intro path cached h
  cases h

/-- An entry that answers is a fresh result of the content. -/
theorem Filled.hit (h : s.Filled F) {source : Content} {cached : CachedWorkflow}
    (hhit : s.hit source = some cached) :
    cached.result = freshResult F source (s.checked s.workflowPath) := by
  obtain ⟨hcached, hsame⟩ := Option.filter_eq_some_iff.mp hhit
  obtain ⟨source', hfingerprint, hresult⟩ := h _ _ hcached
  have heq : sha256 source' = sha256 source := hfingerprint.symm.trans (by simpa using hsame)
  have hsource : source' = source := heq
  rw [hresult, hsource]

theorem Filled.load (h : s.Filled F) : (s.load F).2.Filled F := by
  unfold CacheState.load
  split
  next => exact h
  next source hsource =>
    split
    next => exact h
    next =>
      intro path cached hcached
      dsimp only at hcached ⊢
      by_cases hpath : path = s.workflowPath
      · subst hpath
        rw [Function.update_self] at hcached ⊢
        cases hcached
        exact ⟨source, rfl, rfl⟩
      · rw [Function.update_of_ne hpath] at hcached ⊢
        exact h path cached hcached

/-- Every step keeps what the entries are worth. -/
theorem Filled.step (h : s.Filled F) (e : CacheStep) : (s.step F e).Filled F := by
  cases e with
  | relink path => exact h
  | write path source => exact h
  | editAgents folder agents => exact h
  | load => exact h.load

theorem Filled.loadStates (h : s.Filled F) (steps : List CacheStep) :
    ∀ t ∈ s.loadStates F steps, t.Filled F := by
  induction steps generalizing s with
  | nil => simp [CacheState.loadStates]
  | cons e rest ih =>
      cases e with
      | relink path => exact ih (h.step (.relink path))
      | write path source => exact ih (h.step (.write path source))
      | editAgents folder agents => exact ih (h.step (.editAgents folder agents))
      | load =>
          intro t ht
          rcases List.mem_cons.mp ht with rfl | ht
          · exact h
          · exact ih (h.step .load) t ht

-- ============================================================ what is asked

/-- A load answers as with an empty cache. -/
def Coherent (F : Frontend) (s : CacheState) : Prop :=
  (s.load F).1.definition = (s.emptied.load F).1.definition ∧
    (s.load F).1.valid = (s.emptied.load F).1.valid

/-- When a load calls the workflow valid, every reference of it resolves in
the agents folder of the project. -/
def Resolves (F : Frontend) (project : String) (s : CacheState) : Prop :=
  (s.load F).1.valid = true → ∀ w, (s.load F).1.definition = some w →
    ∀ ref ∈ w.instructionRefs, ∃ doc, (s.agents project).resolve ref = .ok (.ok doc)

/-- The definition of the workflow file as it is. -/
def definition (F : Frontend) (s : CacheState) : Option CompiledWorkflow :=
  (s.sources s.workflowPath).bind fun source => (compiledResult F source).definition

/-- The present content has an entry. -/
def Answered (s : CacheState) : Prop :=
  ∃ source, s.sources s.workflowPath = some source ∧ (s.hit source).isSome = true

/-- A reference the resolver can work with: it is not blank, and the one file
it means lies in the folder and is text. -/
structure Usable (agents : AgentFolder) (ref : String) : Prop where
  notBlank : strip ref ≠ ""
  one : (agents.matchesOf ref).length = 1
  inside : ∀ file ∈ agents.matchesOf ref, agents.root <+: file.resolved
  text : ∀ file ∈ agents.matchesOf ref, ∃ content, file.content = .text content

/-- Where the content has an entry, its references are found now if and only
if they were when the entry was made; and where they are found now, the
resolver can work with them. -/
structure Settled (F : Frontend) (project : String) (s : CacheState) : Prop where
  kept : s.Answered → ∀ w, s.definition F = some w →
    (Found w (s.checked s.workflowPath) ↔ Found w s.agentsBeside)
  usable : ∀ w, s.definition F = some w → Found w s.agentsBeside →
    ∀ ref ∈ w.instructionRefs, Usable (s.agents project) ref

-- ============================================================ the resolver

/-- The resolver answers with a document exactly for the references that stay
in the folder and that it can work with. -/
theorem resolve_ok_iff {agents : AgentFolder} {ref : String} :
    (∃ doc, agents.resolve ref = .ok (.ok doc)) ↔
      leavesAgents ref = false ∧ Usable agents ref := by
  unfold AgentFolder.resolve
  by_cases hblank : strip ref = ""
  · rw [if_pos hblank]
    constructor
    · rintro ⟨doc, h⟩
      cases h
    · rintro ⟨-, husable⟩
      exact absurd hblank husable.notBlank
  rw [if_neg hblank]
  cases hleaves : leavesAgents ref with
  | true => simp
  | false =>
  rw [if_neg Bool.false_ne_true]
  cases hmatches : agents.matchesOf ref with
  | nil =>
      constructor
      · rintro ⟨doc, h⟩
        cases h
      · rintro ⟨-, husable⟩
        have hone := husable.one
        rw [hmatches] at hone
        cases hone
  | cons file rest =>
      cases rest with
      | cons other more =>
          constructor
          · rintro ⟨doc, h⟩
            cases h
          · rintro ⟨-, husable⟩
            have hone := husable.one
            rw [hmatches] at hone
            simp at hone
      | nil =>
          dsimp only
          constructor
          · rintro ⟨doc, h⟩
            split at h
            next hinside =>
              cases hcontent : file.content with
              | text content =>
                  refine ⟨rfl, hblank, by rw [hmatches]; rfl, ?_, ?_⟩
                  · rw [hmatches]
                    simpa using hinside
                  · rw [hmatches]
                    simpa using ⟨content, hcontent⟩
              | osError message =>
                  rw [hcontent] at h
                  cases h
              | undecodable =>
                  rw [hcontent] at h
                  cases h
            next => cases h
          · rintro ⟨-, husable⟩
            have hmem : file ∈ agents.matchesOf ref := by simp [hmatches]
            obtain ⟨content, hcontent⟩ := husable.text file hmem
            rw [if_pos (husable.inside file hmem), hcontent]
            exact ⟨_, rfl⟩

-- ================================================================ one load

/-- The agents folder an answer goes by. -/
def lookedAt (s : CacheState) (source : Content) : AgentFolder :=
  if (s.hit source).isSome then s.checked s.workflowPath else s.agentsBeside

/-- A load answers what a fresh one would with the folder it goes by. -/
theorem load_eq (h : s.Filled F) {source : Content} (hsource : s.sources s.workflowPath = some source) :
    (s.load F).1 = freshResult F source (s.lookedAt source) := by
  unfold CacheState.load lookedAt
  rw [hsource]
  dsimp only
  have hlooked : (s.cache s.workflowPath).filter (·.fingerprint = sha256 source) = s.hit source := rfl
  rw [hlooked]
  cases hhit : s.hit source with
  | none => rfl
  | some cached => exact h.hit hhit

theorem load_emptied {source : Content} (hsource : s.sources s.workflowPath = some source) :
    (s.emptied.load F).1 = freshResult F source s.agentsBeside :=
  load_eq (s := s.emptied) (filled_emptied s) hsource

theorem load_missing (hsource : s.sources s.workflowPath = none) :
    (s.load F).1 = loadFailed "Cannot read workflow file" := by
  unfold CacheState.load
  rw [hsource]

/-- A load is coherent if and only if the references of the answering entry
are found as they were. -/
theorem coherent_iff (h : s.Filled F) :
    s.Coherent F ↔ (s.Answered → ∀ w, s.definition F = some w →
      (Found w (s.checked s.workflowPath) ↔ Found w s.agentsBeside)) := by
  unfold Coherent
  cases hsource : s.sources s.workflowPath with
  | none =>
      have hempty : s.emptied.sources s.emptied.workflowPath = none := hsource
      rw [load_missing hsource, load_missing hempty]
      simp [definition, hsource]
  | some source =>
      have hdefinition : s.definition F = (compiledResult F source).definition := by
        unfold definition
        rw [hsource]
        rfl
      have hanswered : s.Answered ↔ (s.hit source).isSome = true := by
        unfold Answered
        simp [hsource]
      rw [load_eq h hsource, load_emptied hsource, definition_freshResult, definition_freshResult,
        Bool.eq_iff_iff, valid_freshResult, valid_freshResult, hdefinition, hanswered]
      unfold lookedAt
      cases hhit : (s.hit source).isSome with
      | false => simp
      | true =>
          cases (compiledResult F source).definition with
          | none => simp
          | some w => simp

/-- Where a load is coherent, what it calls valid resolves if and only if the
references found now are usable. -/
theorem resolves_iff (project : String) (hcoherent : s.Coherent F) :
    s.Resolves F project ↔ ∀ w, s.definition F = some w → Found w s.agentsBeside →
      ∀ ref ∈ w.instructionRefs, Usable (s.agents project) ref := by
  unfold Resolves
  rw [hcoherent.1, hcoherent.2]
  cases hsource : s.sources s.workflowPath with
  | none =>
      have hempty : s.emptied.sources s.emptied.workflowPath = none := hsource
      rw [load_missing hempty]
      simp [definition, hsource, loadFailed]
  | some source =>
      have hdefinition : s.definition F = (compiledResult F source).definition := by
        unfold definition
        rw [hsource]
        rfl
      rw [load_emptied hsource, valid_freshResult, definition_freshResult, hdefinition]
      simp only [resolve_ok_iff]
      constructor
      · intro hresolves w hw hfound ref hmem
        exact (hresolves ⟨w, hw, hfound⟩ w hw ref hmem).2
      · intro husable ⟨w', hw', hfound⟩ w hw ref hmem
        obtain rfl : w' = w := Option.some.inj (hw'.symm.trans hw)
        exact ⟨(hfound ref hmem).1, husable w' hw' hfound ref hmem⟩

end CacheState

/-- A workflow whose one worker has an instruction. -/
def helperSource : Value := .map [
  (.str "schema_version", .int 1),
  (.str "statements", .list [.map [(.str "kind", .str "worker"), (.str "id", .str "codex"),
    (.str "instructions", .list [.str "helper"])]])]

/-- A reader under which every file is that workflow. -/
def helperFrontend : Frontend where
  decode _ := some ""
  parseYaml _ := ([], helperSource)

/-- An agents folder with the files of a list. -/
def agentsWith (names : List String) : AgentFolder where
  root := ["project", "agents"]
  file? path := if path ∈ names.map ([·]) then
    some ⟨["project", "agents"] ++ path, .text "Do good work."⟩ else none

/-- A project with the workflow and an empty agents folder. -/
def helperProject : CacheState where
  workflowPath := ⟨"project", "workflow.yaml"⟩
  sources _ := some []
  agents _ := agentsWith []
  cache _ := none
  checked _ := agentsWith []

end OpenTulid.Engine
