/-
The revision that is checked and the revision that is recorded.

The scheduler takes the required documents of the packet, the frozen inputs
of a job those whose file is marked required. Both are selections of one
packet (`identitiesOf`), and two selections give one revision if and only if
they select the same documents (`revision_identitiesOf`): every document has
a content of its own and a reference with a name.
-/
import OpenTulid.Runtime.ExecutionContracts
import OpenTulid.Proofs.Context

namespace OpenTulid

open LinkedContextResolver

-- ============================================================ selections

/-- The identities of the selected documents of a packet. -/
def identitiesOf (packet : ContextPacket) (selected : ContextDocument → Bool) :
    List SourceIdentity :=
  (packet.documents.filter selected).flatMap fun doc =>
    ((packet.references.lookup doc.sha256).getD [doc.ref]).map fun ref => (ref, doc.sha256)

/-- A reference with a name is not blank. -/
theorem strip_ne_of_cleanRef_ne {ref : String} (h : cleanRef ref ≠ "") : strip ref ≠ "" := by
  intro hstrip
  apply h
  rw [cleanRef, hstrip]
  decide

/-- What is normalized from a selection. -/
theorem mem_normalized_identitiesOf {R : LinkedContextResolver} {task : Task}
    {parents : List Task} {packet : ContextPacket} (h : PacketOf R task parents packet)
    {selected : ContextDocument → Bool} {digest : Digest} :
    (∃ name, (name, digest) ∈ normalizedSourceIdentities (identitiesOf packet selected)) ↔
      ∃ doc ∈ packet.documents, selected doc = true ∧ doc.sha256 = digest := by
  constructor
  · intro hmem
    obtain ⟨name, hmem⟩ := hmem
    simp only [normalizedSourceIdentities, identitiesOf, List.mem_toFinset, List.mem_filter,
      List.mem_map, List.mem_flatMap] at hmem
    obtain ⟨⟨_, ⟨doc, ⟨hdoc, hselected⟩, ref, -, rfl⟩, heq⟩, -⟩ := hmem
    exact ⟨doc, hdoc, hselected, congrArg Prod.snd heq⟩
  · intro hdoc
    obtain ⟨doc, hdoc, hselected, rfl⟩ := hdoc
    obtain ⟨refs, hrefs, hne, hlead⟩ := h.references doc hdoc
    obtain ⟨ref, href⟩ := List.exists_mem_of_ne_nil refs hne
    have hname := strip_ne_of_cleanRef_ne (cleanRef_ne_of_leadsTo (hlead ref href))
    refine ⟨strip ref, ?_⟩
    simp only [normalizedSourceIdentities, identitiesOf, List.mem_toFinset, List.mem_filter,
      List.mem_map, List.mem_flatMap]
    exact ⟨⟨(ref, doc.sha256), ⟨doc, ⟨hdoc, hselected⟩, ref, by simpa [hrefs] using href, rfl⟩,
      rfl⟩, by simpa using hname⟩

/-- Revisions of one task differ in their sources only. -/
theorem taskSemanticRevision_eq_iff {lower : String → String} {task : Task}
    {identities identities' : List SourceIdentity} :
    taskSemanticRevision lower task identities = taskSemanticRevision lower task identities' ↔
      normalizedSourceIdentities identities = normalizedSourceIdentities identities' := by
  constructor
  · exact fun h => congrArg TaskRevision.sourceContent h
  · intro h
    simp only [taskSemanticRevision, h]

/-- Two selections of a packet give one revision if and only if they select
the same documents. -/
theorem revision_identitiesOf {R : LinkedContextResolver} {task : Task}
    {parents : List Task} {packet : ContextPacket} (h : PacketOf R task parents packet)
    {lower : String → String} {current : Task} {selected selected' : ContextDocument → Bool} :
    taskSemanticRevision lower current (identitiesOf packet selected) =
        taskSemanticRevision lower current (identitiesOf packet selected') ↔
      ∀ doc ∈ packet.documents, selected doc = selected' doc := by
  rw [taskSemanticRevision_eq_iff]
  constructor
  · intro heq doc hdoc
    have hsame : ∀ {s s' : ContextDocument → Bool},
        normalizedSourceIdentities (identitiesOf packet s) =
          normalizedSourceIdentities (identitiesOf packet s') →
        s doc = true → s' doc = true := by
      intro s s' heq hs
      have hmem := (mem_normalized_identitiesOf h).mpr ⟨doc, hdoc, hs, rfl⟩
      rw [heq] at hmem
      obtain ⟨doc', hdoc', hs', hdigest⟩ := (mem_normalized_identitiesOf h).mp hmem
      rwa [h.eq_of_sha256 hdoc' hdoc hdigest] at hs'
    exact Bool.eq_iff_iff.mpr ⟨hsame heq, hsame heq.symm⟩
  · intro hselected
    have hdocs : packet.documents.filter selected = packet.documents.filter selected' :=
      List.filter_congr hselected
    simp only [identitiesOf, hdocs]

-- ========================================================= the two sides

/-- The documents the resolver takes for required. -/
theorem resolveSourceContentIdentities_eq {R : LinkedContextResolver} {task : Task}
    {transition : TransitionDefinition} {parents : List Task} {packet : ContextPacket}
    (h : R.buildContextPacket (taskForContext task transition) parents = .ok packet) :
    resolveSourceContentIdentities R task transition parents =
      identitiesOf packet (·.required) := by
  simp only [resolveSourceContentIdentities, h, identitiesOf]

/-- The identities of frozen files, however an empty list of references is
read. -/
theorem flatMap_frozenContextFile (packet : ContextPacket)
    (identities : FrozenContextFile → List SourceIdentity)
    (hrefs : ∀ file : FrozenContextFile, file.refs ≠ [] →
      identities file = file.refs.map fun ref => (ref, file.sha256))
    (hnamed : ∀ doc ∈ packet.documents, packet.references.lookup doc.sha256 ≠ some []) :
    ((packet.documents.map (frozenContextFile packet)).filter (·.required)).flatMap identities =
      identitiesOf packet contextDocumentRequired := by
  rw [identitiesOf, List.filter_map, List.flatMap_map]
  refine List.flatMap_congr fun doc hdoc => ?_
  have hne : (packet.references.lookup doc.sha256).getD [doc.ref] ≠ [] := by
    cases hlookup : packet.references.lookup doc.sha256 with
    | none => simp
    | some refs =>
        intro hempty
        simp only [Option.getD_some] at hempty
        exact hnamed doc (List.mem_of_mem_filter hdoc) (by rw [hlookup, hempty])
  have hfile : (frozenContextFile packet doc).refs =
      (packet.references.lookup doc.sha256).getD [doc.ref] := by
    simp only [frozenContextFile, if_neg hne]
  rw [hrefs _ (by rw [hfile]; exact hne), hfile]
  rfl

/-- The frozen inputs of a job are of the packet its context was frozen
from; a contract of the task's own has none. -/
theorem revision_of_freezeInputs {R : LinkedContextResolver}
    {repository : Except (List DomainError) RepositorySnapshot} {kind : JobKind} {task : Task}
    {transition : TransitionDefinition} {parents : List Task} {frozen : FrozenInputs}
    (h : freezeInputs R repository kind task transition parents = .ok frozen)
    (lower : String → String) :
    (kind = .legacy ∧ frozen.revision lower = taskSemanticRevision lower task []) ∨
    (kind ≠ .legacy ∧ ∃ packet,
      R.buildContextPacket (taskForContext task transition) parents = .ok packet ∧
      frozen.revision lower =
        taskSemanticRevision lower task (identitiesOf packet contextDocumentRequired)) := by
  have hfreeze : ∀ {files}, freezeLinkedContext R task transition parents = .ok files →
      ∃ packet, R.buildContextPacket (taskForContext task transition) parents = .ok packet ∧
        files = packet.documents.map (frozenContextFile packet) ∧
        ∀ doc ∈ packet.documents, packet.references.lookup doc.sha256 ≠ some [] := by
    intro files hfiles
    unfold freezeLinkedContext at hfiles
    cases hpacket : R.buildContextPacket (taskForContext task transition) parents with
    | error errors =>
        rw [hpacket] at hfiles
        cases hfiles
    | ok packet =>
        rw [hpacket] at hfiles
        cases hfiles
        refine ⟨packet, rfl, rfl, fun doc hdoc hempty => ?_⟩
        obtain ⟨refs, hrefs, hne, -⟩ := (packetOf_of_accepted hpacket).references doc hdoc
        rw [hrefs] at hempty
        exact hne (Option.some.inj hempty)
  cases kind with
  | legacy =>
      left
      refine ⟨rfl, ?_⟩
      cases repository with
      | error errors => cases h
      | ok snapshot =>
          cases h
          rfl
  | standard =>
      right
      refine ⟨by decide, ?_⟩
      cases repository with
      | error errors => cases h
      | ok snapshot =>
          simp only [freezeInputs, compileStandardExecutionContract] at h
          cases hfiles : freezeLinkedContext R task transition parents with
          | error errors =>
              rw [hfiles] at h
              cases h
          | ok files =>
              rw [hfiles] at h
              cases h
              obtain ⟨packet, hpacket, rfl, hnamed⟩ := hfreeze hfiles
              refine ⟨packet, hpacket, ?_⟩
              rw [FrozenInputs.revision, sourceContentIdentities, flatMap_frozenContextFile]
              · intro file hne
                simp only [if_pos hne]
              · exact hnamed
  | planning =>
      right
      refine ⟨by decide, ?_⟩
      simp only [freezeInputs, freezePlanningInputs] at h
      cases hfiles : freezeLinkedContext R task transition parents with
      | error errors =>
          rw [hfiles] at h
          cases h
      | ok files =>
          rw [hfiles] at h
          cases h
          obtain ⟨packet, hpacket, rfl, hnamed⟩ := hfreeze hfiles
          refine ⟨packet, hpacket, ?_⟩
          rw [FrozenInputs.revision, PlanningInputs.sourceIdentities, flatMap_frozenContextFile]
          · exact fun _ _ => rfl
          · exact hnamed

-- ============================================================== the claim

/-- The revision that is recorded for a job is the one the scheduler
computes: its attempts count at that revision and its acceptance is of it. -/
structure RevisionsAgree (lower : String → String) (R : LinkedContextResolver) (task : Task)
    (transition : TransitionDefinition) (parents : List Task) (frozen : FrozenInputs) :
    Prop where
  recorded : frozen.revision lower = scheduledRevision lower R task transition parents
  counted : ∀ (E : Env) (job : ExecutionJob), frozen.LoadedBy E job →
    job.metadata.attemptRecords ≠ [] →
    (∀ r ∈ job.metadata.attemptRecords, r.taskRevision = frozen.revision lower) →
    consumedBy E lower job (scheduledRevision lower R task transition parents) =
      .ok job.metadata.attemptRecords.length
  accepted : acceptanceTaskRevision lower frozen.contract? frozen.planning? task =
    scheduledRevision lower R task transition parents

/-- No contract document is in the packet only because a wiki link leads to
it; and where a contract of the task's own freezes no context, the task
requires no document at all. -/
def RequiredAlike (R : LinkedContextResolver) (kind : JobKind) (task : Task)
    (transition : TransitionDefinition) (parents : List Task) : Prop :=
  ∀ packet, R.buildContextPacket (taskForContext task transition) parents = .ok packet →
    ∀ doc ∈ packet.documents,
      (kind ≠ .legacy → isImplementationContractLink doc.ref = true →
        R.Requires (taskForContext task transition) parents doc.sha256) ∧
      (kind = .legacy → ¬ R.Requires (taskForContext task transition) parents doc.sha256)

/-- Once the revisions are equal, attempts count and acceptances match. -/
theorem revisionsAgree_of_recorded {lower : String → String} {R : LinkedContextResolver}
    {task : Task} {transition : TransitionDefinition} {parents : List Task}
    {frozen : FrozenInputs}
    (h : frozen.revision lower = scheduledRevision lower R task transition parents) :
    RevisionsAgree lower R task transition parents frozen where
  recorded := h
  counted := fun E job hload hrecords hrevision => by
    rw [← h]
    have hall : ∀ same : Bool, job.metadata.attemptRecords.countP
        (fun r => r.taskRevision = frozen.revision lower || same) =
          job.metadata.attemptRecords.length := by
      intro same
      rw [List.countP_eq_length]
      intro r hr
      simp [hrevision r hr]
    cases frozen with
    | contract c =>
        obtain ⟨hplanning, hcontract⟩ := hload
        simp only [consumedBy, sameFrozenWork, hplanning, hcontract, if_pos hrecords, hall]
    | planning p =>
        obtain ⟨hplanning, hcontract⟩ := hload
        simp only [consumedBy, sameFrozenWork, hplanning, if_pos hrecords, hall]
  accepted := by
    rw [← h]
    cases frozen <;> rfl

/-- A text of ASCII characters. -/
def readAscii (c : Content) : Except String String :=
  .ok (String.ofList (c.map fun b => Char.ofNat b.toNat))

/-- A project with a specification and the contract of another task. -/
def contractProject : LinkedContextResolver where
  file := fun path =>
    if path = ["docs", "spec.md"] then some (utf8 "Spec")
    else if path = ["artifacts", "7", "ImplementationContract", "contract.yaml"] then
      some (utf8 "checks")
    else none
  readText := readAscii

/-- A task with a specification; a line of its body links a document. -/
def specifiedTask (line : String) : Task where
  id := "8"
  title := "Export"
  currentState := "ready"
  taskType := "ImplementationTask"
  artifactLinks := ["docs/spec.md"]
  body := [.title "Export", .text line]

/-- The implementation of a task. -/
def implementTransition : TransitionDefinition where
  id := "implement"
  taskType := "ImplementationTask"
  fromState := "ready"
  toState := "done"

/-- A repository without files. -/
def emptySnapshot : RepositorySnapshot := ⟨[], false, none, false⟩

/-- The inputs frozen for the task. -/
def frozenFor (kind : JobKind) (line : String) : Except (List DomainError) FrozenInputs :=
  freezeInputs contractProject (.ok emptySnapshot) kind (specifiedTask line)
    implementTransition []

/-- The revision of a job's inputs, when there is a job, is not the
scheduler's. -/
def recordsOtherRevision (kind : JobKind) (line : String) : Bool :=
  match frozenFor kind line with
  | .error _ => false
  | .ok frozen => frozen.revision id ≠ scheduledRevision id contractProject
      (specifiedTask line) implementTransition []

end OpenTulid
