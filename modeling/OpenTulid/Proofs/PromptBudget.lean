/-
What a compiled packet keeps, and when it fails for its size.

A packet that is compiled has the assigned task, the checks, the required
files and the completion section in full (`keepsMandatoryWork`). One that is
refused is too long with the marker that says that excerpts were left out.
The marker has a length of its own: where the packet fits without any excerpt
but not with the marker, it is refused although the mandatory work fits, and
nowhere else (`mandatoryWorkDecides_iff`).
-/
import OpenTulid.Proofs.PromptFitting
import OpenTulid.Proofs.FrozenRoundTrip

namespace OpenTulid.Frozen.Prompt

open Fallible
open Standard (isSpace)

-- ===================================================== the compiled sections

theorem promptSection_eq_ok {id heading : String} {text : Text}
    {sourceKind sourceRef selectionReason : String} {truncatable : Bool} {s : PromptSection}
    (h : promptSection id heading text sourceKind sourceRef selectionReason truncatable =
      .ok s) :
    s.id = id ∧ s.heading = heading ∧
      (truncatable = false ∨ sectionBudget id = none → s.text = strip text) := by
  unfold promptSection at h
  dsimp only at h
  split at h
  next =>
    obtain ⟨⟩ := h
    exact ⟨rfl, rfl, fun _ => rfl⟩
  next budget hbudget =>
    split at h
    next =>
      obtain ⟨⟩ := h
      exact ⟨rfl, rfl, fun _ => rfl⟩
    next =>
      split at h
      next hcut =>
        obtain ⟨⟩ := h
        refine ⟨rfl, rfl, fun hnot => ?_⟩
        rcases hnot with hnot | hnone
        · rw [hcut] at hnot
          cases hnot
        · rw [hbudget] at hnone
          cases hnone
      next => cases h

/-- A section within its budget has its text in full. -/
theorem promptSection_text {id heading : String} {text : Text}
    {sourceKind sourceRef selectionReason : String} {truncatable : Bool} {s : PromptSection}
    (h : promptSection id heading text sourceKind sourceRef selectionReason truncatable = .ok s)
    (hfits : ∀ budget, sectionBudget id = some budget → (strip text).length ≤ budget) :
    s.text = strip text := by
  unfold promptSection at h
  dsimp only at h
  split at h
  next =>
    obtain ⟨⟩ := h
    rfl
  next budget hbudget =>
    rw [if_pos (hfits budget hbudget)] at h
    obtain ⟨⟩ := h
    rfl

/-- A section alone is refused with a `ValueError`. -/
theorem promptSection_ne_budget {id heading : String} {text : Text}
    {sourceKind sourceRef selectionReason : String} {truncatable : Bool} {code message : String} :
    promptSection id heading text sourceKind sourceRef selectionReason truncatable ≠
      .error (.budget code message) := by
  unfold promptSection
  dsimp only
  split
  · exact nofun
  · split
    · exact nofun
    · split
      · exact nofun
      · exact nofun

/-- A section of that title has a text of the contract. -/
def HasSection (sections : List PromptSection) (id : String) (text : Text) : Prop :=
  ∃ s ∈ sections, s.id = id ∧ s.text = strip text

/-- The names and headings of the two kinds of packets. -/
def compilerTitles : List (List (String × String)) := [
  [("assigned_task", "Assigned Task"), ("required_reading", "Required Reading"),
    ("repository_facts", "Repository Facts"), ("execution_procedure", "Execution Procedure"),
    ("required_validation", "Required Validation"),
    ("completion_submission", "Completion Submission")],
  [("mission", "Review Mission"), ("assigned_task", "Assigned Task and Requirements"),
    ("required_reading", "Required Reading"),
    ("prior_implementation_evidence", "Prior Implementation Evidence"),
    ("required_validation", "Required Validation"), ("review_procedure", "Review Procedure"),
    ("scope_reminder", "Review Boundaries"), ("review_result", "Review Result"),
    ("completion_submission", "Completion Submission")]]

/-- What is known of compiled sections. -/
structure CompiledFrom (contract : ExecutionContract) (sections : List PromptSection) :
    Prop where
  titles : sections.map (fun s => (s.id, s.heading)) ∈ compilerTitles
  reading : ReadsRequired contract sections
  assigned : isReviewTransition contract.transition = false →
    HasSection sections "assigned_task" (assignedTaskText contract)
  validation : HasSection sections "required_validation" (checksText contract.resolvedChecks)
  completion : HasSection sections "completion_submission"
    (completionText contract (isReviewTransition contract.transition))

theorem compiledFrom_implementation {contract : ExecutionContract}
    {sections : List PromptSection} (hreview : isReviewTransition contract.transition = false)
    (h : implementationSections contract = .ok sections) : CompiledFrom contract sections := by
  unfold implementationSections at h
  obtain ⟨assigned, hassigned, h⟩ := bind_eq_ok.mp h
  obtain ⟨reading, hreading, h⟩ := bind_eq_ok.mp h
  obtain ⟨facts, hfacts, h⟩ := bind_eq_ok.mp h
  obtain ⟨procedure, hprocedure, h⟩ := bind_eq_ok.mp h
  obtain ⟨validation, hvalidation, h⟩ := bind_eq_ok.mp h
  obtain ⟨completion, hcompletion, h⟩ := bind_eq_ok.mp h
  obtain rfl := pure_eq_ok.mp h
  obtain ⟨hid₁, hhead₁, htext₁⟩ := promptSection_eq_ok hassigned
  obtain ⟨hid₂, hhead₂, htext₂⟩ := promptSection_eq_ok hreading
  obtain ⟨hid₃, hhead₃, -⟩ := promptSection_eq_ok hfacts
  obtain ⟨hid₄, hhead₄, -⟩ := promptSection_eq_ok hprocedure
  obtain ⟨hid₅, hhead₅, htext₅⟩ := promptSection_eq_ok hvalidation
  obtain ⟨hid₆, hhead₆, htext₆⟩ := promptSection_eq_ok hcompletion
  refine ⟨?_, ⟨reading, ?_, htext₂ (.inl rfl)⟩, fun _ => ⟨assigned, ?_, hid₁, htext₁ (.inl rfl)⟩,
    ⟨validation, ?_, hid₅, htext₅ (.inl rfl)⟩, ⟨completion, ?_, hid₆, ?_⟩⟩
  · simp only [List.map_cons, List.map_nil, hid₁, hid₂, hid₃, hid₄, hid₅, hid₆, hhead₁, hhead₂,
      hhead₃, hhead₄, hhead₅, hhead₆]
    exact List.mem_cons_self
  · rw [sectionOf_cons, hid₁, if_neg (by decide), sectionOf_cons, if_pos hid₂]
  · simp
  · simp
  · simp
  · rw [hreview]
    exact htext₆ (.inl rfl)

theorem compiledFrom_review {P : Python} {contract : ExecutionContract}
    {evidence : ReviewEvidence} {sections : List PromptSection}
    (hreview : isReviewTransition contract.transition = true)
    (h : reviewSections P contract evidence = .ok sections) : CompiledFrom contract sections := by
  unfold reviewSections at h
  obtain ⟨mission, hmission, h⟩ := bind_eq_ok.mp h
  obtain ⟨assigned, hassigned, h⟩ := bind_eq_ok.mp h
  obtain ⟨reading, hreading, h⟩ := bind_eq_ok.mp h
  obtain ⟨prior, hprior, h⟩ := bind_eq_ok.mp h
  obtain ⟨validation, hvalidation, h⟩ := bind_eq_ok.mp h
  obtain ⟨procedure, hprocedure, h⟩ := bind_eq_ok.mp h
  obtain ⟨boundaries, hboundaries, h⟩ := bind_eq_ok.mp h
  obtain ⟨result, hresult, h⟩ := bind_eq_ok.mp h
  obtain ⟨completion, hcompletion, h⟩ := bind_eq_ok.mp h
  obtain rfl := pure_eq_ok.mp h
  obtain ⟨hid₁, hhead₁, -⟩ := promptSection_eq_ok hmission
  obtain ⟨hid₂, hhead₂, -⟩ := promptSection_eq_ok hassigned
  obtain ⟨hid₃, hhead₃, htext₃⟩ := promptSection_eq_ok hreading
  obtain ⟨hid₄, hhead₄, -⟩ := promptSection_eq_ok hprior
  obtain ⟨hid₅, hhead₅, htext₅⟩ := promptSection_eq_ok hvalidation
  obtain ⟨hid₆, hhead₆, -⟩ := promptSection_eq_ok hprocedure
  obtain ⟨hid₇, hhead₇, -⟩ := promptSection_eq_ok hboundaries
  obtain ⟨hid₈, hhead₈, -⟩ := promptSection_eq_ok hresult
  obtain ⟨hid₉, hhead₉, htext₉⟩ := promptSection_eq_ok hcompletion
  refine ⟨?_, ⟨reading, ?_, htext₃ (.inr rfl)⟩, ?_, ⟨validation, ?_, hid₅, htext₅ (.inl rfl)⟩,
    ⟨completion, ?_, hid₉, ?_⟩⟩
  · simp only [List.map_cons, List.map_nil, hid₁, hid₂, hid₃, hid₄, hid₅, hid₆, hid₇, hid₈,
      hid₉, hhead₁, hhead₂, hhead₃, hhead₄, hhead₅, hhead₆, hhead₇, hhead₈, hhead₉]
    exact List.mem_cons_of_mem _ List.mem_cons_self
  · rw [sectionOf_cons, hid₁, if_neg (by decide), sectionOf_cons, hid₂, if_neg (by decide),
      sectionOf_cons, if_pos hid₃]
  · intro hnot
    rw [hreview] at hnot
    cases hnot
  · simp
  · simp
  · rw [hreview]
    exact htext₉ (.inl rfl)

theorem compiledFrom_of_sectionsOf {P : Python} {contract : ExecutionContract}
    {evidence : Option ReviewEvidence} {sections : List PromptSection}
    (h : sectionsOf P contract evidence = .ok sections) : CompiledFrom contract sections := by
  unfold sectionsOf at h
  split at h
  next hreview =>
    cases evidence with
    | none => cases h
    | some evidence => exact compiledFrom_review hreview h
  next hnot => exact compiledFrom_implementation (Bool.not_eq_true _ ▸ hnot) h

/-- No section's own budget makes a packet fail for its size. -/
theorem sectionsOf_ne_budget {P : Python} {contract : ExecutionContract}
    {evidence : Option ReviewEvidence} {code message : String} :
    sectionsOf P contract evidence ≠ .error (.budget code message) := by
  intro h
  unfold sectionsOf at h
  split at h
  · cases evidence with
    | none => cases h
    | some evidence =>
        dsimp only [reviewSections] at h
        repeat
          rcases bind_eq_error.mp h with h' | ⟨_, -, h'⟩
          · exact promptSection_ne_budget h'
          clear h
          rename _ => h
        cases h
  · dsimp only [implementationSections] at h
    repeat
      rcases bind_eq_error.mp h with h' | ⟨_, -, h'⟩
      · exact promptSection_ne_budget h'
      clear h
      rename _ => h
    cases h

-- ============================================================== the packet

theorem compile_eq_ok {P : Python} {S : Sha256} {contract : ExecutionContract}
    {evidence : Option ReviewEvidence} {compiled : CompiledPrompt}
    (h : compileExecutionPrompt P S contract evidence = .ok compiled) :
    ∃ sections fitted omissions, sectionsOf P contract evidence = .ok sections ∧
      fitTotalBudget contract sections = .ok (fitted, omissions) ∧
      compiled.text = renderSections fitted ∧ compiled.sections = fitted := by
  obtain ⟨sections, hsections, h⟩ := bind_eq_ok.mp h
  obtain ⟨⟨fitted, omissions⟩, hfit, h⟩ := bind_eq_ok.mp h
  obtain ⟨diagnostics, -, h⟩ := bind_eq_ok.mp h
  refine ⟨sections, fitted, omissions, hsections, hfit, ?_⟩
  split at h
  · obtain rfl := pure_eq_ok.mp h
    exact ⟨rfl, rfl⟩
  · cases h

theorem compile_eq_budget {P : Python} {S : Sha256} {contract : ExecutionContract}
    {evidence : Option ReviewEvidence} {code message : String} :
    compileExecutionPrompt P S contract evidence = .error (.budget code message) ↔
      ∃ sections, sectionsOf P contract evidence = .ok sections ∧
        fitTotalBudget contract sections = .error (.budget code message) := by
  constructor
  · intro h
    rcases bind_eq_error.mp h with h | ⟨sections, hsections, h⟩
    · exact absurd h sectionsOf_ne_budget
    · rcases bind_eq_error.mp h with h | ⟨fitted, -, h⟩
      · exact ⟨sections, hsections, h⟩
      · rcases bind_eq_error.mp h with h | ⟨diagnostics, -, h⟩
        · unfold lintContract at h
          rcases bind_eq_error.mp h with h | ⟨_, -, h⟩
          · cases hdict : executionContractToDict S contract with
            | error text =>
                rw [hdict] at h
                cases h
            | ok fields =>
                rw [hdict] at h
                cases h
          · cases h
        · split at h
          · cases h
          · cases h
  · rintro ⟨sections, hsections, hfit⟩
    exact bind_eq_error.mpr (.inr ⟨sections, hsections, bind_eq_error.mpr (.inl hfit)⟩)

section Claim

variable (P : Python) (S : Sha256) (contract : ExecutionContract)
  (evidence : Option ReviewEvidence)

/-- A packet is within its budget and has all of the mandatory work. -/
def KeepsMandatoryWork : Prop :=
  ∀ compiled, compileExecutionPrompt P S contract evidence = .ok compiled →
    compiled.text.length ≤ totalBudget ∧
    (isReviewTransition contract.transition = false →
      strip contract.sourceTask.body.toList <:+: compiled.text) ∧
    (∀ check ∈ contract.resolvedChecks, checkLine check <:+: compiled.text) ∧
    (∀ file ∈ contract.contextFiles, file.required = true →
      file.workspacePath.toList <:+: compiled.text) ∧
    completionText contract (isReviewTransition contract.transition) <:+: compiled.text

/-- The sections with the facts at their minimum and no excerpt at all. -/
def leanest (sections : List PromptSection) : List PromptSection :=
  revise "required_reading" (bareReading contract) (withLeastFacts sections)

/-- A packet that fails for its size is too long even so. -/
def FailsOnlyWhenFull : Prop :=
  ∀ code message, compileExecutionPrompt P S contract evidence = .error (.budget code message) →
    ∃ sections, sectionsOf P contract evidence = .ok sections ∧
      totalBudget < (renderSections (leanest contract sections)).length

/-- Without excerpts the packet fits, but neither with them nor with the
marker in their place. -/
def MarkerDecides : Prop :=
  ∃ sections, sectionsOf P contract evidence = .ok sections ∧ contract.contextExcerpts ≠ [] ∧
    totalBudget < (renderSections (withLeastFacts sections)).length ∧
    (renderSections (leanest contract sections)).length ≤ totalBudget ∧
    totalBudget < (renderSections (leanest contract sections)).length + omissionMarker.length

end Claim

theorem keepsMandatoryWork (P : Python) (S : Sha256) (contract : ExecutionContract)
    (evidence : Option ReviewEvidence) : KeepsMandatoryWork P S contract evidence := by
  intro compiled hcompiled
  obtain ⟨sections, fitted, omissions, hsections, hfit, htext, -⟩ := compile_eq_ok hcompiled
  have hfrom := compiledFrom_of_sectionsOf hsections
  -- what a section that is never cut has of a tight text, the packet has
  have hkept : ∀ {id : String} {text part : Text}, HasSection sections id text →
      id ≠ "repository_facts" → id ≠ "required_reading" → Tight part → part <:+: text →
      part <:+: renderSections fitted := by
    rintro id text part ⟨s, hs, hid, hstext⟩ hfacts hreading hpart hinfix
    have hmem : s ∈ fitted := mem_fitted hfit hs (hid ▸ hfacts) (hid ▸ hreading)
    refine List.IsInfix.trans ?_ (text_infix_render hmem)
    rw [hstext]
    exact hpart.infix_strip hinfix
  rw [htext]
  refine ⟨(fit_eq_ok hfit).2, fun hreview => ?_, fun check hcheck => ?_, fun file hfile _ => ?_,
    ?_⟩
  · refine hkept (hfrom.assigned hreview) (by decide) (by decide) (tight_strip _) ?_
    by_cases hbody : strip contract.sourceTask.body.toList = []
    · rw [hbody]
      exact List.nil_infix
    · unfold assignedTaskText
      dsimp only
      rw [if_neg hbody]
      exact infix_joined List.mem_cons_self
  · refine hkept hfrom.validation (by decide) (by decide) (tight_checkLine check) ?_
    unfold checksText
    rw [if_neg (List.ne_nil_of_mem hcheck)]
    exact infix_joined (List.mem_map_of_mem hcheck)
  · exact path_infix_fitted hfit hfrom.reading hfile
  · exact hkept hfrom.completion (by decide) (by decide) (tight_completionText _ _)
      (List.infix_refl _)

theorem readsRequired_withLeastFacts {contract : ExecutionContract}
    {sections : List PromptSection} (h : ReadsRequired contract sections) :
    ReadsRequired contract (withLeastFacts sections) := by
  unfold withLeastFacts
  split
  · exact h
  · split
    · exact readsRequired_revise (by decide) h
    · exact h

/-- The marker makes the packet longer by itself. -/
theorem length_withMarker {contract : ExecutionContract} {sections : List PromptSection}
    (h : ReadsRequired contract sections) :
    (renderSections (withMarker contract (withLeastFacts sections))).length =
      (renderSections (leanest contract sections)).length + omissionMarker.length := by
  obtain ⟨item, hitem, -⟩ := readsRequired_withLeastFacts h
  have hmarked := length_revise (bareReading contract ++ omissionMarker) hitem
  have hbare := length_revise (bareReading contract) hitem
  rw [List.length_append] at hmarked
  unfold withMarker leanest
  omega

/-- With no excerpts there is nothing to leave out. -/
theorem length_leanest_of_no_excerpts {contract : ExecutionContract}
    {sections : List PromptSection} (h : ReadsRequired contract sections)
    (hexcerpts : contract.contextExcerpts = []) :
    (renderSections (withLeastFacts sections)).length ≤
      (renderSections (leanest contract sections)).length := by
  obtain ⟨item, hitem, htext⟩ := readsRequired_withLeastFacts h
  have hbare := length_revise (bareReading contract) hitem
  have hle := length_strip_le (requiredReadingText contract none)
  rw [← htext, requiredReadingText_of_no_excerpts hexcerpts] at hle
  unfold leanest
  omega

/-- Where the marker decides, the packet fails although it fits without. -/
theorem fails_of_markerDecides {P : Python} {contract : ExecutionContract}
    {evidence : Option ReviewEvidence} (S : Sha256) (h : MarkerDecides P contract evidence) :
    ¬ FailsOnlyWhenFull P S contract evidence := by
  obtain ⟨sections, hsections, -, hover, hfits, hmarker⟩ := h
  have hreading := (compiledFrom_of_sectionsOf hsections).reading
  have hfail : ¬ Fits (dropExcerpts contract (trimmed sections)).1 := by
    rw [not_fits_iff hreading]
    refine ⟨Nat.not_le_of_lt hover, .inr (Nat.not_le_of_lt ?_)⟩
    rw [length_withMarker hreading]
    exact hmarker
  rcases fitTotalBudget_eq contract sections with ⟨hyes, -⟩ | ⟨-, message, hfit⟩
  · exact absurd hyes hfail
  · intro hclaim
    obtain ⟨others, hothers, hlong⟩ :=
      hclaim _ _ (compile_eq_budget.mpr ⟨sections, hsections, hfit⟩)
    rw [hsections] at hothers
    obtain ⟨⟩ := hothers
    exact absurd hfits (Nat.not_le_of_lt hlong)

/-- Packets keep the mandatory work, and fail only when it does not fit,
exactly where the marker does not decide. -/
theorem mandatoryWorkDecides_iff (P : Python) (S : Sha256) (contract : ExecutionContract)
    (evidence : Option ReviewEvidence) :
    KeepsMandatoryWork P S contract evidence ∧ FailsOnlyWhenFull P S contract evidence ↔
      ¬ MarkerDecides P contract evidence := by
  constructor
  · rintro ⟨-, hfails⟩ hdecides
    exact fails_of_markerDecides S hdecides hfails
  · intro hnot
    refine ⟨keepsMandatoryWork P S contract evidence, fun code message hcompile => ?_⟩
    obtain ⟨sections, hsections, hfit⟩ := compile_eq_budget.mp hcompile
    have hreading := (compiledFrom_of_sectionsOf hsections).reading
    obtain ⟨hover, hlong⟩ := (not_fits_iff hreading).mp (fit_eq_error hfit)
    refine ⟨sections, hsections, ?_⟩
    rcases hlong with hnone | hmarked
    · exact (Nat.lt_of_not_le hover).trans_le (length_leanest_of_no_excerpts hreading hnone)
    · by_cases hexcerpts : contract.contextExcerpts = []
      · exact (Nat.lt_of_not_le hover).trans_le (length_leanest_of_no_excerpts hreading hexcerpts)
      · by_contra hfits
        refine hnot ⟨sections, hsections, hexcerpts, Nat.lt_of_not_le hover,
          Nat.le_of_not_lt hfits, ?_⟩
        rw [← length_withMarker hreading]
        exact Nat.lt_of_not_le hmarked

-- ============================================================= an example

/-- A note in full. -/
def crowdedFile : FrozenContextFile where
  workspacePath := "context/0123456789ab.md"
  content := "Short."
  sha256 := "0"
  byteCount := 6
  required := true
  reason := "Linked."

/-- The excerpt of it. -/
def crowdedExcerpt : FrozenContextExcerpt where
  artifact := "docs/notes.md"
  heading := "Notes"
  reason := "Linked."
  text := "Short."
  sha256 := "0"

/-- A task of 3960 characters, with one note and a short excerpt of it. -/
def crowdedContract : ExecutionContract where
  sourceTask := {
    id := "7"
    title := "Export"
    path := "tasks/7.md"
    currentState := "ready"
    body := String.ofList (List.replicate 3960 'x') }
  transition := {
    id := "implement"
    taskType := "task"
    fromState := "ready"
    toState := "implemented"
    worker := some "coder"
    requires := {}
    transaction := none }
  generatedContract := {
    schema := "tulid.global_contract/v1"
    sourceTaskId := "7"
    sourceIntentSha256 := "0"
    profile := "code_change"
    objective := "Export."
    changeSurface := {}
    requirements := []
    focusedChecks := []
    invariants := [] }
  generatedContractArtifactPath := "contract.yaml"
  generatedContractSha256 := "0"
  repositoryFacts := {
    schema := "tulid.repository-facts/v1"
    repositoryAvailable := false
    gitRepository := false
    baseCommit := none
    dirty := none
    topLevelEntries := []
    manifests := []
    detectedEntrypoints := []
    fileCount := 0
    totalBytes := 0
    sha256 := "0" }
  baselineManifest := { schema := "tulid.baseline-manifest/v1", entries := [], sha256 := "0" }
  resolvedChecks := []
  contextExcerpts := [crowdedExcerpt]
  contextFiles := [crowdedFile]
  sha256 := "0"

theorem gives_promptSection {id heading : String} {text : Text}
    {sourceKind sourceRef selectionReason : String} {truncatable : Bool}
    (h : ∀ budget, sectionBudget id = some budget →
      truncatable = true ∨ (strip text).length ≤ budget) :
    Gives (promptSection id heading text sourceKind sourceRef selectionReason truncatable) := by
  unfold promptSection
  dsimp only
  split
  next => exact ⟨_, rfl⟩
  next budget hbudget =>
    split
    next => exact ⟨_, rfl⟩
    next hlong =>
      rw [if_pos ((h budget hbudget).resolve_right hlong)]
      exact ⟨_, rfl⟩

theorem gives_unbounded {id heading : String} {text : Text}
    {sourceKind sourceRef selectionReason : String} {truncatable : Bool}
    (h : sectionBudget id = none) :
    Gives (promptSection id heading text sourceKind sourceRef selectionReason truncatable) := by
  refine gives_promptSection fun budget hbudget => ?_
  rw [h] at hbudget
  cases hbudget

/-- Only the completion section can be too long for itself. -/
theorem gives_implementationSections {contract : ExecutionContract}
    (h : (strip (completionText contract false)).length ≤ 900) :
    Gives (implementationSections contract) := by
  unfold implementationSections
  refine (gives_unbounded rfl).bind fun _ => (gives_unbounded rfl).bind fun _ =>
    (gives_promptSection fun _ _ => .inl rfl).bind fun _ => (gives_unbounded rfl).bind
      fun _ => (gives_unbounded rfl).bind fun _ => (gives_promptSection ?_).bind fun _ =>
        gives_pure _
  intro budget hbudget
  rw [show budget = 900 from (Option.some.inj hbudget).symm]
  exact .inr h

/-- The sections of an implementation packet, with facts that are not cut. -/
theorem implementation_parts {contract : ExecutionContract} {sections : List PromptSection}
    (h : implementationSections contract = .ok sections)
    (hfits : (strip (repositoryFactsText contract.repositoryFacts)).length ≤ 300) :
    sections.map (fun s => (s.heading, s.text)) = [
      ("Assigned Task", strip (assignedTaskText contract)),
      ("Required Reading", strip (requiredReadingText contract none)),
      ("Repository Facts", strip (repositoryFactsText contract.repositoryFacts)),
      ("Execution Procedure", strip executionProcedureText),
      ("Required Validation", strip (checksText contract.resolvedChecks)),
      ("Completion Submission", strip (completionText contract false))] ∧
    ∃ facts, sectionOf "repository_facts" sections = some facts ∧
      facts.text = strip (repositoryFactsText contract.repositoryFacts) := by
  unfold implementationSections at h
  obtain ⟨assigned, hassigned, h⟩ := bind_eq_ok.mp h
  obtain ⟨reading, hreading, h⟩ := bind_eq_ok.mp h
  obtain ⟨facts, hfacts, h⟩ := bind_eq_ok.mp h
  obtain ⟨procedure, hprocedure, h⟩ := bind_eq_ok.mp h
  obtain ⟨validation, hvalidation, h⟩ := bind_eq_ok.mp h
  obtain ⟨completion, hcompletion, h⟩ := bind_eq_ok.mp h
  obtain rfl := pure_eq_ok.mp h
  have htext := promptSection_text hfacts fun budget hbudget => by
    rw [show budget = 300 from (Option.some.inj hbudget).symm]
    exact hfits
  obtain ⟨hid₁, hhead₁, htext₁⟩ := promptSection_eq_ok hassigned
  obtain ⟨hid₂, hhead₂, htext₂⟩ := promptSection_eq_ok hreading
  obtain ⟨hid₃, hhead₃, -⟩ := promptSection_eq_ok hfacts
  obtain ⟨-, hhead₄, htext₄⟩ := promptSection_eq_ok hprocedure
  obtain ⟨-, hhead₅, htext₅⟩ := promptSection_eq_ok hvalidation
  obtain ⟨-, hhead₆, htext₆⟩ := promptSection_eq_ok hcompletion
  refine ⟨?_, facts, ?_, htext⟩
  · simp only [List.map_cons, List.map_nil, hhead₁, hhead₂, hhead₃, hhead₄, hhead₅, hhead₆,
      htext₁ (.inl rfl), htext₂ (.inl rfl), htext, htext₄ (.inl rfl), htext₅ (.inl rfl),
      htext₆ (.inl rfl)]
  · rw [sectionOf_cons, hid₁, if_neg (by decide), sectionOf_cons, hid₂, if_neg (by decide),
      sectionOf_cons, if_pos hid₃]

/-- The length of a packet, from the lengths of its sections. -/
theorem length_renderSections {sections : List PromptSection} (h : sections ≠ []) :
    (renderSections sections).length + 2 =
      (sections.map fun s => s.heading.toList.length + s.text.length + 7).sum := by
  rw [← length_renderRest h]
  clear h
  induction sections with
  | nil => rfl
  | cons s sections ih =>
      rw [List.map_cons, List.map_cons, List.sum_cons, Headed.renderRest, ← ih]
      simp only [List.length_append, Headed.length_lead, PromptSection.part, List.length_cons,
        List.length_nil, show ("## ".toList).length = 3 from rfl]
      omega

theorem crowded_body : strip crowdedContract.sourceTask.body.toList = List.replicate 3960 'x' := by
  have htight : Tight (List.replicate 3960 'x') := by
    constructor
    · rw [List.head?_replicate]
      exact end_of_all rfl
    · rw [List.getLast?_replicate]
      exact end_of_all rfl
  have hbody : crowdedContract.sourceTask.body.toList = List.replicate 3960 'x' :=
    String.toList_ofList
  rw [hbody, htight.strip_eq]

theorem acceptance_ends :
    acceptanceLine ≠ [] ∧ ∀ c ∈ acceptanceLine.getLast?, isSpace c = false := by
  unfold acceptanceLine
  rw [String.toList_append, String.toList_append, String.toList_ofList, String.toList_ofList,
    String.toList_ofList]
  exact ⟨List.cons_ne_nil _ _, end_of_all rfl⟩

theorem length_task_end :
    (["\nImplement only this scoped task. Do not broaden the change surface.".toList,
      acceptanceLine].flatMap ("\n".toList ++ ·)).length = 246 := by
  unfold acceptanceLine
  simp only [String.toList_append]
  repeat rw [String.toList_ofList]
  rfl

/-- The task section of a body that starts with no space. -/
theorem length_task {body : Text} (hne : body ≠ []) (hhead : ∀ c ∈ body.head?, isSpace c = false) :
    (strip (joined "\n" [body,
      "\nImplement only this scoped task. Do not broaden the change surface.".toList,
      acceptanceLine])).length = body.length + 246 := by
  have htight : Tight (joined "\n" [body,
      "\nImplement only this scoped task. Do not broaden the change surface.".toList,
      acceptanceLine]) := by
    refine tight_joined ?_ ?_
    · intro t ht
      rw [show t = body from (Option.some.inj ht).symm]
      exact ⟨hne, hhead⟩
    · intro t ht
      rw [List.getLast?_cons_cons, List.getLast?_cons_cons, List.getLast?_singleton] at ht
      rw [← Option.some.inj ht]
      exact acceptance_ends
  rw [htight.strip_eq, joined, List.length_append, length_task_end]

theorem length_crowded_task : (strip (assignedTaskText crowdedContract)).length = 4206 := by
  have hne : List.replicate 3960 'x' ≠ [] := by
    rw [Ne, List.replicate_eq_nil_iff]
    decide
  have htext : assignedTaskText crowdedContract = joined "\n" [List.replicate 3960 'x',
      "\nImplement only this scoped task. Do not broaden the change surface.".toList,
      acceptanceLine] := by
    unfold assignedTaskText
    dsimp only
    rw [crowded_body, if_neg hne,
      show listed "Requirements:" crowdedContract.generatedContract.requirements = [] from rfl,
      show listed "Failure behavior:" crowdedContract.generatedContract.failureBehavior = []
        from rfl,
      show listed "Non-goals:" crowdedContract.generatedContract.nonGoals = [] from rfl,
      List.append_nil, List.append_nil, List.append_nil]
  have hhead : ∀ c ∈ (List.replicate 3960 'x').head?, isSpace c = false := by
    rw [List.head?_replicate]
    exact end_of_all rfl
  rw [htext, length_task hne hhead, List.length_replicate]

/-- Stripping costs nothing where no end is a space. -/
theorem length_strip {text : Text} {n : Nat}
    (h : text.head?.all (fun c => !isSpace c) = true ∧
      text.getLast?.all (fun c => !isSpace c) = true ∧ text.length = n) :
    (strip text).length = n := by
  obtain ⟨hhead, hlast, hlength⟩ := h
  have htight : Tight text := ⟨end_of_all hhead, end_of_all hlast⟩
  rw [htight.strip_eq, hlength]

theorem crowded_fileLine : fileLine crowdedFile =
    "- \x60.open-tulid/context/0123456789ab.md\x60 — required reference: Linked.".toList := by
  unfold fileLine fileReference crowdedFile
  dsimp only
  rw [if_pos rfl, if_neg (by decide)]
  simp only [toString, ← String.toList_append]
  rfl

theorem crowded_excerptBlock : excerptBlock crowdedExcerpt =
    "### docs/notes.md: Notes\n\nShort.".toList := by
  unfold excerptBlock crowdedExcerpt
  dsimp only
  simp only [toString, String.toList_append]
  repeat rw [String.toList_ofList]
  rfl

set_option maxRecDepth 4000 in
theorem length_crowded_reading :
    (strip (requiredReadingText crowdedContract none)).length = 513 := by
  rw [requiredReadingText_none]
  unfold readingChunks
  rw [show crowdedContract.contextFiles = [crowdedFile] from rfl,
    show crowdedContract.contextExcerpts = [crowdedExcerpt] from rfl]
  simp only [List.map_cons, List.map_nil, crowded_fileLine, crowded_excerptBlock,
    String.toList_append]
  repeat rw [String.toList_ofList]
  exact length_strip ⟨rfl, rfl, rfl⟩

theorem length_crowded_facts :
    (strip (repositoryFactsText crowdedContract.repositoryFacts)).length = 189 := by
  unfold repositoryFactsText
  simp only [String.toList_append]
  repeat rw [String.toList_ofList]
  exact length_strip ⟨rfl, rfl, rfl⟩

set_option maxRecDepth 4000 in
theorem length_procedure : (strip executionProcedureText).length = 511 := by
  unfold executionProcedureText
  simp only [String.toList_append]
  repeat rw [String.toList_ofList]
  exact length_strip ⟨rfl, rfl, rfl⟩

theorem length_cut_facts :
    (truncate (strip (repositoryFactsText crowdedContract.repositoryFacts)) 80).length = 79 := by
  unfold repositoryFactsText truncate truncationMarker
  simp only [String.toList_append]
  repeat rw [String.toList_ofList]
  rfl

set_option maxRecDepth 4000 in
theorem length_crowded_bare : (bareReading crowdedContract).length = 479 := by
  unfold bareReading readingChunks
  rw [show crowdedContract.contextFiles = [crowdedFile] from rfl,
    show crowdedContract.contextExcerpts = [crowdedExcerpt] from rfl]
  simp only [List.map_cons, List.map_nil, crowded_fileLine, String.toList_append]
  repeat rw [String.toList_ofList]
  rfl

theorem length_titles : "Assigned Task".toList.length = 13 ∧
    "Required Reading".toList.length = 16 ∧ "Repository Facts".toList.length = 16 ∧
    "Execution Procedure".toList.length = 19 ∧ "Required Validation".toList.length = 19 ∧
    "Completion Submission".toList.length = 21 := by
  repeat rw [String.toList_ofList]
  exact ⟨rfl, rfl, rfl, rfl, rfl, rfl⟩

set_option maxRecDepth 4000 in
theorem length_crowded_completion :
    (strip (completionText crowdedContract false)).length = 526 := by
  unfold completionText
  dsimp only
  rw [show crowdedContract.transition.requires.changedFilesRequired = false from rfl,
    if_neg Bool.false_ne_true, String.toList_append]
  repeat rw [String.toList_ofList]
  exact length_strip ⟨rfl, rfl, rfl⟩

/-- The packet of the example, and how long it is. -/
theorem crowded_sections (P : Python) :
    ∃ sections facts, sectionsOf P crowdedContract none = .ok sections ∧
      (renderSections sections).length = 6126 ∧
      sectionOf "repository_facts" sections = some facts ∧
      facts.text = strip (repositoryFactsText crowdedContract.repositoryFacts) := by
  have hreview : isReviewTransition crowdedContract.transition = false := rfl
  obtain ⟨sections, hsections⟩ :=
    gives_implementationSections (length_crowded_completion.trans_le (by decide))
  have hcompiled : sectionsOf P crowdedContract none = .ok sections := by
    unfold sectionsOf
    rw [hreview]
    exact hsections
  obtain ⟨hparts, facts, hfacts, htext⟩ := implementation_parts hsections
    (length_crowded_facts.trans_le (by decide))
  refine ⟨sections, facts, hcompiled, ?_, hfacts, htext⟩
  have hne : sections ≠ [] := by
    rintro rfl
    cases hfacts
  have hlength := length_renderSections hne
  have hmap : (sections.map fun s => s.heading.toList.length + s.text.length + 7) =
      (sections.map fun s => (s.heading, s.text)).map fun part =>
        part.1.toList.length + part.2.length + 7 := by
    rw [List.map_map]
    rfl
  have hvalidation : (strip (checksText crowdedContract.resolvedChecks)).length = 37 := by
    rw [show checksText crowdedContract.resolvedChecks =
      "No validation commands were resolved.".toList from rfl, String.toList_ofList]
    exact length_strip ⟨rfl, rfl, rfl⟩
  rw [hmap, hparts] at hlength
  simp only [List.map_cons, List.map_nil, List.sum_cons, List.sum_nil, length_crowded_task,
    length_crowded_reading, length_crowded_facts, length_procedure, hvalidation,
    length_crowded_completion, length_titles] at hlength
  omega

theorem crowded_marker_decides (P : Python) : MarkerDecides P crowdedContract none := by
  obtain ⟨sections, facts, hsections, hlength, hfacts, hfactsText⟩ := crowded_sections P
  have hreading := (compiledFrom_of_sectionsOf hsections).reading
  have hleast : (renderSections (withLeastFacts sections)).length = 6016 := by
    have hfull : facts.text.length = 189 := by rw [hfactsText, length_crowded_facts]
    have hcut : (truncate facts.text 80).length = 79 := by rw [hfactsText, length_cut_facts]
    have hrevise := length_revise (truncate facts.text 80) hfacts
    unfold withLeastFacts
    rw [hfacts]
    dsimp only
    rw [if_pos (by omega)]
    omega
  have hbare : (renderSections (leanest crowdedContract sections)).length = 5982 := by
    obtain ⟨item, hitem, htext⟩ := readsRequired_withLeastFacts hreading
    have hfull : item.text.length = 513 := by rw [htext, length_crowded_reading]
    have hbare := length_crowded_bare
    have hrevise := length_revise (bareReading crowdedContract) hitem
    unfold leanest
    omega
  refine ⟨sections, hsections, List.cons_ne_nil _ _, ?_, ?_, ?_⟩
  · rw [hleast]
    decide
  · rw [hbare]
    decide
  · rw [hbare, length_omissionMarker]
    decide

/-- A note that would fit as a name is too much as an excerpt, and so is the
word that it was left out: the packet is refused. -/
theorem short_excerpt_fails_packet :
    ¬ (KeepsMandatoryWork ⟨id, id, Char.isAlphanum, strictBuiltins⟩ unaryDigest crowdedContract
          none ∧
        FailsOnlyWhenFull ⟨id, id, Char.isAlphanum, strictBuiltins⟩ unaryDigest crowdedContract
          none) :=
  fun h => fails_of_markerDecides _ (crowded_marker_decides _) h.2

end OpenTulid.Frozen.Prompt
