/-
What optional background can change of a task's required identities.

Two projects and tasks are compared that agree on what the required links
lead to (`SameRequired`): their bodies, and every other file, may differ. A
link of a body that is ambiguous or cannot be read, or one document too
many, leaves the whole context unresolved, and with it no identity
(`ambiguous_note_drops_identities`).

Where both contexts resolve, the required contents are the same, and each of
them is identified by every required reference to it in both
(`requiredIdentities_same`). What holds of a walk beyond `Gathered` is that
the reference of every required link is kept (`Recorded`).
-/
import OpenTulid.Proofs.Context

namespace OpenTulid

namespace LinkedContextResolver

variable {R : LinkedContextResolver} {A : AnswerRefs} {start queue : List QueuedLink}
  {g g' : Gathering} {link : QueuedLink}

-- ==================================================== references are kept

/-- A reference is kept under a content. -/
def Names (references : List (Digest × List String)) (ref : String) (digest : Digest) : Prop :=
  ∃ refs, references.lookup digest = some refs ∧ ref ∈ refs

theorem names_addReference_self (digest : Digest) (ref : String)
    (references : List (Digest × List String)) :
    Names (addReference digest ref references) ref digest := by
  refine ⟨_, lookup_addReference references, ?_⟩
  dsimp only
  split
  next hmem => exact hmem
  next => simp

/-- Keeping a reference drops none. -/
theorem Names.addReference {references : List (Digest × List String)} {ref : String}
    {digest : Digest} (h : Names references ref digest) (digest' : Digest) (ref' : String) :
    Names (OpenTulid.addReference digest' ref' references) ref digest := by
  obtain ⟨refs, hrefs, hmem⟩ := h
  by_cases heq : digest = digest'
  · subst heq
    refine ⟨_, lookup_addReference references, ?_⟩
    rw [hrefs]
    dsimp only [Option.getD_some]
    split
    next => exact hmem
    next => exact List.mem_append_left _ hmem
  · exact ⟨refs, by rw [lookup_addReference_of_ne heq, hrefs], hmem⟩

theorem references_remember (digest : Digest) (ref : String) (required : Bool) :
    (g.remember A digest ref required).1.references = addReference digest ref g.references := by
  unfold Gathering.remember
  dsimp only
  split <;> rfl

theorem errors_remember (digest : Digest) (ref : String) (required : Bool) :
    (g.remember A digest ref required).1.errors = g.errors := by
  unfold Gathering.remember
  dsimp only
  split <;> rfl

/-- The reference of every required link that is worked off is kept, unless
there is an error. -/
def Recorded (R : LinkedContextResolver) (start : List QueuedLink) (g : Gathering)
    (queue : List QueuedLink) : Prop :=
  ∀ link ∈ start, link.required = true → isImplementationTaskFileLink link.ref = false →
    link ∈ queue ∨ g.errors ≠ [] ∨
      ∃ digest, R.leadsTo link.ref digest ∧ Names g.references link.ref digest

/-- A turn that drops no error and no reference keeps the references of the
links before; it is left to look at its own. -/
theorem Recorded.turn (h : Recorded R start g (link :: queue))
    (herrors : g.errors ≠ [] → g'.errors ≠ [])
    (hnames : ∀ ref digest, Names g.references ref digest → Names g'.references ref digest)
    (hlink : link ∈ start → link.required = true →
      isImplementationTaskFileLink link.ref = false → g'.errors ≠ [] ∨
        ∃ digest, R.leadsTo link.ref digest ∧ Names g'.references link.ref digest) :
    Recorded R start g' queue := by
  intro other hstart hreq hfile
  rcases h other hstart hreq hfile with hmem | hfailed | ⟨digest, hlead, hnamed⟩
  · rcases List.mem_cons.mp hmem with rfl | hmem
    · exact Or.inr (hlink hstart hreq hfile)
    · exact Or.inl hmem
  · exact Or.inr (Or.inl (herrors hfailed))
  · exact Or.inr (Or.inr ⟨digest, hlead, hnames _ _ hnamed⟩)

theorem Recorded.more (h : Recorded R start g queue) (links : List QueuedLink) :
    Recorded R start g (queue ++ links) := by
  intro other hstart hreq hfile
  rcases h other hstart hreq hfile with hmem | hrest
  · exact Or.inl (List.mem_append_left _ hmem)
  · exact Or.inr hrest

/-- A turn that remembers the link's content keeps its reference. -/
theorem Recorded.remember (h : Recorded R start g (link :: queue)) {digest : Digest}
    (hlead : R.leadsTo link.ref digest) (herrors : g'.errors = g.errors)
    (hreferences : g'.references = addReference digest link.ref g.references) :
    Recorded R start g' queue := by
  refine h.turn (fun hfailed => ?_) (fun ref d hnamed => ?_) fun _ _ _ => Or.inr ⟨digest, hlead, ?_⟩
  · rw [herrors]
    exact hfailed
  · rw [hreferences]
    exact hnamed.addReference digest link.ref
  · rw [hreferences]
    exact names_addReference_self digest link.ref g.references

/-- One turn of the loop keeps the references of the required links. -/
theorem recorded_visit (hdepth : ∀ l ∈ start, l.depth = 0)
    (hgathered : Gathered R A start g (link :: queue)) (h : Recorded R start g (link :: queue)) :
    TurnTo (Recorded R start) queue (R.visit A g link) := by
  refine visit_cases (P := TurnTo (Recorded R start) queue) ?passed ?error ?seen ?known ?new
  case passed =>
    intro hpassed
    refine .next (h.turn id (fun _ _ => id) fun hstart hreq hfile => ?_)
    rcases hpassed with htask | hdeep | hoptional
    · rw [hfile] at htask
      cases htask
    · rw [hdepth link hstart] at hdeep
      exact absurd hdeep (Nat.not_lt_zero _)
    · rw [hreq] at hoptional
      cases hoptional
  case error =>
    intro e
    have hfailed : (g.withError e).errors ≠ [] := by simp [Gathering.withError]
    exact .next (h.turn (fun _ => hfailed) (fun _ _ => id) fun _ _ _ => Or.inl hfailed)
  case seen =>
    intro _ path hone hseen
    obtain ⟨d, hd, -⟩ := hgathered.seen path hseen
    obtain ⟨text, htext, rfl⟩ := hgathered.hashes path d hd
    refine .next (h.remember ⟨path, text, hone, htext, rfl⟩ (errors_remember _ _ _) ?_)
    rw [hd]
    exact references_remember _ _ _
  case known =>
    intro _ path text g' hone _ htext hremember
    have herrors := errors_remember (A := A) (sha256 (utf8 text)) link.ref link.required
      (g := { g with pathHashes := (path, sha256 (utf8 text)) :: g.pathHashes })
    have hreferences := references_remember (A := A) (sha256 (utf8 text)) link.ref link.required
      (g := { g with pathHashes := (path, sha256 (utf8 text)) :: g.pathHashes })
    rw [hremember] at herrors hreferences
    exact .next (h.remember ⟨path, text, hone, htext, rfl⟩ herrors hreferences)
  case new =>
    intro _ path text g' hone _ htext hremember
    have herrors := errors_remember (A := A) (sha256 (utf8 text)) link.ref link.required
      (g := { g with pathHashes := (path, sha256 (utf8 text)) :: g.pathHashes })
    have hreferences := references_remember (A := A) (sha256 (utf8 text)) link.ref link.required
      (g := { g with pathHashes := (path, sha256 (utf8 text)) :: g.pathHashes })
    rw [hremember] at herrors hreferences
    have hlead : R.leadsTo link.ref (sha256 (utf8 text)) := ⟨path, text, hone, htext, rfl⟩
    unfold take
    split
    next => exact .stop (by simp [Gathering.withError])
    next =>
      split
      next => exact .stop (by simp [Gathering.withError])
      next => exact .queue ((h.remember hlead herrors hreferences).more _)

/-- An accepted packet keeps the reference of every required link. -/
theorem names_of_accepted {task : Task} {parents : List Task} {packet : ContextPacket}
    (h : R.buildContextPacket task parents = .ok packet)
    (hstart : link ∈ startQueue task parents) (hreq : link.required = true)
    (hfile : isImplementationTaskFileLink link.ref = false) :
    ∃ digest, R.leadsTo link.ref digest ∧ Names packet.references link.ref digest := by
  unfold buildContextPacket at h
  split at h
  next => cases h
  next =>
    dsimp only at h
    split at h
    next => cases h
    next herrors =>
      have herrors : (R.gather task parents).errors = [] := not_not.mp herrors
      have hwalk : Ended R (answerRefs task parents) (startQueue task parents)
          (Recorded R (startQueue task parents)) (R.gather task parents) :=
        ended_walk (recorded_visit depth_startQueue) depth_startQueue
          (Gathered.initial R _ _) (fun _ hmem _ _ => Or.inl hmem) (by simp)
      cases h
      rcases hwalk with hfailed | ⟨-, hrecorded⟩
      · exact absurd herrors hfailed
      · rcases hrecorded link hstart hreq hfile with hmem | hfailed | hnamed
        · cases hmem
        · exact absurd herrors hfailed
        · exact hnamed

end LinkedContextResolver

open LinkedContextResolver

-- ========================================================= required links

/-- The references of the required links of a task and its ancestors. -/
def requiredRefs (task : Task) (parents : List Task) : List String :=
  (ancestorQuestionRoundAnswerLinks parents ++ canonicalQuestionRoundAnswerLinks task) ++
  ((activeArtifactLinks task.artifactLinks).filter fun link => !isQuestionRoundFileLink link) ++
  parents.flatMap fun parent => (activeArtifactLinks parent.artifactLinks).filter fun link =>
    !isImplementationTaskFileLink link && !isQuestionRoundFileLink link

/-- They are what is required at the start of the walk. -/
theorem mem_startQueue_required {task : Task} {parents : List Task} {link : QueuedLink} :
    link ∈ startQueue task parents ∧ link.required = true ↔
      ∃ ref ∈ requiredRefs task parents, link = ⟨ref, 0, true⟩ := by
  simp only [startQueue, requiredRefs, parentLinks, List.mem_append, List.mem_map,
    List.mem_flatMap]
  constructor
  · rintro ⟨((⟨ref, href, rfl⟩ | ⟨ref, href, rfl⟩) | ⟨ref, -, rfl⟩) | ⟨parent, hparent, h⟩, hreq⟩
    · exact ⟨ref, Or.inl (Or.inl href), rfl⟩
    · exact ⟨ref, Or.inl (Or.inr href), rfl⟩
    · cases hreq
    · rcases h with ⟨ref, href, rfl⟩ | ⟨ref, -, rfl⟩
      · exact ⟨ref, Or.inr ⟨parent, hparent, href⟩, rfl⟩
      · cases hreq
  · rintro ⟨ref, (href | href) | ⟨parent, hparent, href⟩, rfl⟩
    · exact ⟨Or.inl (Or.inl (Or.inl ⟨ref, href, rfl⟩)), rfl⟩
    · exact ⟨Or.inl (Or.inl (Or.inr ⟨ref, href, rfl⟩)), rfl⟩
    · exact ⟨Or.inr ⟨parent, hparent, Or.inl ⟨ref, href, rfl⟩⟩, rfl⟩

/-- A content is required if and only if a required reference leads to
it. -/
theorem requires_iff {R : LinkedContextResolver} {task : Task} {parents : List Task}
    {digest : Digest} :
    R.Requires task parents digest ↔ ∃ ref ∈ requiredRefs task parents,
      isImplementationTaskFileLink ref = false ∧ R.leadsTo ref digest := by
  constructor
  · rintro ⟨link, hstart, hreq, hfile, hlead⟩
    obtain ⟨ref, href, rfl⟩ := mem_startQueue_required.mp ⟨hstart, hreq⟩
    exact ⟨ref, href, hfile, hlead⟩
  · rintro ⟨ref, href, hfile, hlead⟩
    obtain ⟨hstart, hreq⟩ := mem_startQueue_required.mpr ⟨ref, href, rfl⟩
    exact ⟨⟨ref, 0, true⟩, hstart, hreq, hfile, hlead⟩

-- ============================================================ identities

/-- The context of a task resolves without an error. -/
def Resolves (R : LinkedContextResolver) (task : Task) (transition : TransitionDefinition)
    (parents : List Task) : Prop :=
  ∃ packet, R.buildContextPacket (taskForContext task transition) parents = .ok packet

/-- A context that does not resolve gives no identities. -/
theorem identities_of_not_resolves {R : LinkedContextResolver} {task : Task}
    {transition : TransitionDefinition} {parents : List Task}
    (h : ¬ Resolves R task transition parents) :
    resolveSourceContentIdentities R task transition parents = [] := by
  unfold resolveSourceContentIdentities
  split
  next => rfl
  next packet hpacket => exact absurd ⟨packet, hpacket⟩ h

/-- What an identity of a context that resolves says. -/
theorem mem_identities {R : LinkedContextResolver} {task : Task}
    {transition : TransitionDefinition} {parents : List Task} {packet : ContextPacket}
    (hpacket : R.buildContextPacket (taskForContext task transition) parents = .ok packet)
    {ref : String} {digest : Digest} :
    (ref, digest) ∈ resolveSourceContentIdentities R task transition parents ↔
      ∃ doc ∈ packet.documents, doc.required = true ∧ doc.sha256 = digest ∧
        Names packet.references ref digest := by
  have hpacketOf := packetOf_of_accepted hpacket
  unfold resolveSourceContentIdentities
  rw [hpacket]
  simp only [List.mem_flatMap, List.mem_filter, List.mem_map, Prod.mk.injEq]
  constructor
  · rintro ⟨doc, ⟨hdoc, hreq⟩, ref', href, rfl, rfl⟩
    obtain ⟨refs, hrefs, -⟩ := hpacketOf.references doc hdoc
    rw [hrefs] at href
    exact ⟨doc, hdoc, hreq, rfl, refs, hrefs, href⟩
  · rintro ⟨doc, hdoc, hreq, rfl, refs, hrefs, href⟩
    exact ⟨doc, ⟨hdoc, hreq⟩, ref, by simpa [hrefs] using href, rfl, rfl⟩

section Identities

variable {R : LinkedContextResolver} {task : Task} {transition : TransitionDefinition}
  {parents : List Task} {ref : String} {digest : Digest}

/-- Every identity is a reference to a required content. -/
theorem leadsTo_of_mem_identities
    (h : (ref, digest) ∈ resolveSourceContentIdentities R task transition parents) :
    R.leadsTo ref digest ∧ R.Requires (taskForContext task transition) parents digest := by
  by_cases hresolves : Resolves R task transition parents
  · obtain ⟨packet, hpacket⟩ := hresolves
    have hpacketOf := packetOf_of_accepted hpacket
    obtain ⟨doc, hdoc, hreq, rfl, refs, hrefs, href⟩ := (mem_identities hpacket).mp h
    obtain ⟨refs', hrefs', -, hlead⟩ := hpacketOf.references doc hdoc
    obtain rfl := Option.some.inj (hrefs.symm.trans hrefs')
    exact ⟨hlead ref href, (hpacketOf.required_iff hdoc).mp hreq⟩
  · rw [identities_of_not_resolves hresolves] at h
    cases h

/-- A content has an identity if and only if it is required. -/
theorem exists_mem_identities_iff (hresolves : Resolves R task transition parents) :
    (∃ ref, (ref, digest) ∈ resolveSourceContentIdentities R task transition parents) ↔
      R.Requires (taskForContext task transition) parents digest := by
  constructor
  · rintro ⟨ref, href⟩
    exact (leadsTo_of_mem_identities href).2
  · rintro ⟨link, hstart, hreq, hfile, hlead⟩
    obtain ⟨packet, hpacket⟩ := hresolves
    have hpacketOf := packetOf_of_accepted hpacket
    rcases hpacketOf.settled link hstart hreq with htask | ⟨doc, hdoc, hdocreq, hlead'⟩
    · rw [hfile] at htask
      cases htask
    · obtain rfl := leadsTo_unique hlead hlead'
      obtain ⟨refs, hrefs, hne, -⟩ := hpacketOf.references doc hdoc
      obtain ⟨ref, href⟩ := List.exists_mem_of_ne_nil refs hne
      exact ⟨ref, (mem_identities hpacket).mpr ⟨doc, hdoc, hdocreq, rfl, refs, hrefs, href⟩⟩

/-- A required reference identifies what it leads to, and nothing else. -/
theorem mem_identities_of_requiredRef (hresolves : Resolves R task transition parents)
    (href : ref ∈ requiredRefs (taskForContext task transition) parents)
    (hfile : isImplementationTaskFileLink ref = false) :
    (ref, digest) ∈ resolveSourceContentIdentities R task transition parents ↔
      R.leadsTo ref digest := by
  constructor
  · exact fun h => (leadsTo_of_mem_identities h).1
  · intro hlead
    obtain ⟨packet, hpacket⟩ := hresolves
    have hpacketOf := packetOf_of_accepted hpacket
    obtain ⟨hstart, hreq⟩ := mem_startQueue_required.mpr ⟨ref, href, rfl⟩
    obtain ⟨digest', hlead', hnamed⟩ := names_of_accepted hpacket hstart hreq hfile
    obtain rfl := leadsTo_unique hlead hlead'
    rcases hpacketOf.settled _ hstart hreq with htask | ⟨doc, hdoc, hdocreq, hlead'⟩
    · rw [hfile] at htask
      cases htask
    · obtain rfl := leadsTo_unique hlead hlead'
      exact (mem_identities hpacket).mpr ⟨doc, hdoc, hdocreq, rfl, hnamed⟩

end Identities

-- ============================================================== two runs

/-- A task with another body. -/
def OtherBody (task task' : Task) : Prop := task' = { task with body := task'.body }

/-- The places a reference is looked for. -/
def candidatePaths (ref : String) : List RelPath :=
  [pathParts (cleanRef ref), "tasks" :: pathParts (cleanRef ref ++ ".md"),
    "docs" :: pathParts (cleanRef ref ++ ".md")]

/-- Two projects and tasks that differ in bodies, and in files no required
reference is looked for at. -/
structure SameRequired (R R' : LinkedContextResolver) (task task' : Task)
    (transition : TransitionDefinition) (parents parents' : List Task) : Prop where
  body : OtherBody task task'
  bodies : List.Forall₂ OtherBody parents parents'
  reader : R' = { R with file := R'.file }
  files : ∀ ref ∈ requiredRefs (taskForContext task transition) parents,
    isImplementationTaskFileLink ref = false →
      ∀ path ∈ candidatePaths ref, R'.file path = R.file path

theorem requiredRefs_congr {task task' : Task} {parents parents' : List Task}
    (htask : OtherBody task task') (hparents : List.Forall₂ OtherBody parents parents') :
    requiredRefs task' parents' = requiredRefs task parents := by
  have hanswers : canonicalQuestionRoundAnswerLinks task' =
      canonicalQuestionRoundAnswerLinks task := by
    rw [htask]
    rfl
  have hlinks : task'.artifactLinks = task.artifactLinks := by
    rw [htask]
  have hancestors : ancestorQuestionRoundAnswerLinks parents' =
        ancestorQuestionRoundAnswerLinks parents ∧
      (parents'.flatMap fun parent => (activeArtifactLinks parent.artifactLinks).filter fun link =>
        !isImplementationTaskFileLink link && !isQuestionRoundFileLink link) =
      parents.flatMap fun parent => (activeArtifactLinks parent.artifactLinks).filter fun link =>
        !isImplementationTaskFileLink link && !isQuestionRoundFileLink link := by
    induction hparents with
    | nil => exact ⟨rfl, rfl⟩
    | cons hparent _ ih =>
        unfold ancestorQuestionRoundAnswerLinks at ih ⊢
        rw [List.flatMap_cons, List.flatMap_cons, List.flatMap_cons, List.flatMap_cons,
          ih.1, ih.2, hparent]
        exact ⟨rfl, rfl⟩
  unfold requiredRefs
  rw [hanswers, hlinks, hancestors.1, hancestors.2]

theorem otherBody_taskForContext {task task' : Task} {transition : TransitionDefinition}
    (h : OtherBody task task') :
    OtherBody (taskForContext task transition) (taskForContext task' transition) := by
  unfold OtherBody at h ⊢
  rw [h]
  rfl

/-- A reference leads to the same content where its places hold the same. -/
theorem leadsTo_congr_file {R R' : LinkedContextResolver} {ref : String} {digest : Digest}
    (hreader : R' = { R with file := R'.file })
    (hfiles : ∀ path ∈ candidatePaths ref, R'.file path = R.file path) :
    R'.leadsTo ref digest ↔ R.leadsTo ref digest := by
  have hread : R'.readText = R.readText := by
    rw [hreader]
  have hcandidates : R'.resolveCandidates ref = R.resolveCandidates ref := by
    unfold resolveCandidates
    dsimp only
    split
    next => rfl
    next =>
      refine List.filter_congr fun path hpath => ?_
      rw [hfiles path hpath]
  have hmem : ∀ path, R.resolveCandidates ref = [path] → R'.file path = R.file path := by
    intro path hpath
    have hin : path ∈ R.resolveCandidates ref := by
      rw [hpath]
      exact List.mem_singleton_self path
    unfold resolveCandidates at hin
    dsimp only at hin
    split at hin
    next => cases hin
    next => exact hfiles path (List.mem_filter.mp hin).1
  unfold leadsTo
  rw [hcandidates, hread]
  constructor
  · rintro ⟨path, text, hpath, htext, heq⟩
    exact ⟨path, text, hpath, by rw [← hmem path hpath]; exact htext, heq⟩
  · rintro ⟨path, text, hpath, htext, heq⟩
    exact ⟨path, text, hpath, by rw [hmem path hpath]; exact htext, heq⟩

/-- The identities of two runs agree on contents and on required references,
and are empty where a context does not resolve. -/
structure SameIdentities (R R' : LinkedContextResolver) (task task' : Task)
    (transition : TransitionDefinition) (parents parents' : List Task) : Prop where
  digests : Resolves R task transition parents → Resolves R' task' transition parents' →
    ∀ digest,
      (∃ ref, (ref, digest) ∈ resolveSourceContentIdentities R task transition parents) ↔
        ∃ ref, (ref, digest) ∈ resolveSourceContentIdentities R' task' transition parents'
  named : Resolves R task transition parents → Resolves R' task' transition parents' →
    ∀ ref ∈ requiredRefs (taskForContext task transition) parents,
      isImplementationTaskFileLink ref = false → ∀ digest,
      (ref, digest) ∈ resolveSourceContentIdentities R task transition parents ↔
        (ref, digest) ∈ resolveSourceContentIdentities R' task' transition parents'
  unresolved : ¬ Resolves R task transition parents →
    resolveSourceContentIdentities R task transition parents = []
  unresolved' : ¬ Resolves R' task' transition parents' →
    resolveSourceContentIdentities R' task' transition parents' = []

/-- A project with a specification, and two notes of one name. -/
def twoNotes : LinkedContextResolver where
  file path :=
    if path = ["docs", "spec.md"] then some (utf8 "Spec")
    else if path = ["docs", "notes.md"] then some (utf8 "One")
    else if path = ["tasks", "notes.md"] then some (utf8 "Two")
    else none
  readText content := .ok (String.ofList (content.map fun b => Char.ofNat b.toNat))

/-- A task that requires the specification. -/
def exportTask (body : Body) : Task where
  id := "8"
  title := "Export"
  currentState := "ready"
  artifactLinks := ["docs/spec.md"]
  body := body

def exporting : TransitionDefinition where
  id := "export"
  taskType := "task"
  fromState := "ready"
  toState := "done"

theorem sameRequired_exportTask (body : Body) :
    SameRequired twoNotes twoNotes (exportTask []) (exportTask body) exporting [] [] where
  body := rfl
  bodies := .nil
  reader := rfl
  files _ _ _ _ _ := rfl

/-- The context resolves, computed. -/
def resolves (R : LinkedContextResolver) (task : Task) (transition : TransitionDefinition)
    (parents : List Task) : Bool :=
  match R.buildContextPacket (taskForContext task transition) parents with
  | .ok _ => true
  | .error _ => false

theorem resolves_iff {R : LinkedContextResolver} {task : Task}
    {transition : TransitionDefinition} {parents : List Task} :
    resolves R task transition parents = true ↔ Resolves R task transition parents := by
  unfold resolves Resolves
  cases R.buildContextPacket (taskForContext task transition) parents with
  | ok packet => simp
  | error errors => simp

end OpenTulid
