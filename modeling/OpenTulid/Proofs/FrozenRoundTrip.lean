/-
The round trip of an execution contract through the job it is frozen with.
-/
import OpenTulid.Proofs.FrozenContracts
import OpenTulid.Proofs.Context

namespace OpenTulid.Frozen

open Json (Fields)
open Fallible

variable {B : Builtins} {S : Sha256} {P : Project} {task : Task}
  {transition : TransitionDefinition} {parents : List OpenTulid.Task} {c : ExecutionContract}

-- ======================================================== frozen documents

/-- A digest's place is in the context area. -/
theorem inContextArea_contextWorkspaceFilePath (S : Sha256) (text : String) :
    inContextArea (contextWorkspaceFilePath (S.hexdigest text)) = true := by
  have hchars : (contextWorkspaceFilePath (S.hexdigest text)).toList =
      "context".toList ++ '/' :: ((S.hexdigest text).toList.take 12 ++ ".md".toList) := by
    simp [contextWorkspaceFilePath]
  have hslash : '/' ∉ (S.hexdigest text).toList.take 12 ++ ".md".toList := by
    intro hmem
    rcases List.mem_append.mp hmem with hmem | hmem
    · have hdigit := S.digits text _ (List.mem_of_mem_take hmem)
      exact absurd hdigit (by decide)
    · exact absurd hmem (by decide)
  have hsplit : (contextWorkspaceFilePath (S.hexdigest text)).toList.splitOn '/' =
      ["context".toList, (S.hexdigest text).toList.take 12 ++ ".md".toList] := by
    rw [hchars, List.splitOn_append_cons_self_of_not_mem (by decide),
      List.splitOn_eq_singleton hslash]
  generalize (S.hexdigest text).toList.take 12 = digits at hsplit hchars
  have hname : ∀ t : String, t.toList.getLast? ≠ some 'd' →
      String.ofList (digits ++ ".md".toList) ≠ t := by
    rintro t ht rfl
    exact ht (by simp)
  have hparts : OpenTulid.pathParts (contextWorkspaceFilePath (S.hexdigest text)) =
      ["context", String.ofList (digits ++ ".md".toList)] := by
    rw [OpenTulid.pathParts, hsplit, List.map_cons, List.map_singleton]
    rw [List.filter_cons_of_pos (by decide), List.filter_cons_of_pos, List.filter_nil]
    · rfl
    · exact decide_eq_true ⟨hname "" (by decide), hname "." (by decide)⟩
  have habsolute : OpenTulid.isAbsolute (contextWorkspaceFilePath (S.hexdigest text)) = false := by
    rw [OpenTulid.isAbsolute, hchars]
    rfl
  have hup : ".." ∉ ["context", String.ofList (digits ++ ".md".toList)] := by
    intro hmem
    rcases List.mem_cons.mp hmem with hmem | hmem
    · exact absurd hmem (by decide)
    · exact hname ".." (by decide) (List.mem_singleton.mp hmem).symm
  rw [inContextArea, habsolute, hparts, decide_eq_true hup]
  rfl

theorem contextWorkspaceFilePath_ne (digest : String) : contextWorkspaceFilePath digest ≠ "" := by
  intro h
  have hchars := congrArg String.toList h
  simp [contextWorkspaceFilePath] at hchars

theorem contextRoleReason_ne (doc : ContextDocument) : contextRoleReason doc ≠ "" := by
  unfold contextRoleReason
  split
  next => decide
  next => split <;> decide

theorem contextRoleHeading_ne (doc : ContextDocument) : contextRoleHeading doc ≠ "" := by
  unfold contextRoleHeading
  split
  next => split <;> decide
  next => split <;> decide

theorem contextDocumentRole_ne (doc : ContextDocument) : contextDocumentRole doc ≠ "" := by
  unfold contextDocumentRole
  split
  next => decide
  next => split <;> decide

theorem ref_ne_of_leadsTo {R : LinkedContextResolver} {ref : String} {digest : Digest}
    (h : R.leadsTo ref digest) : ref ≠ "" := by
  rintro rfl
  exact LinkedContextResolver.cleanRef_ne_of_leadsTo h (by decide)

/-- A linked document can be stored in full if and only if it is not empty. -/
theorem freezeFile_storable {packet : ContextPacket} {note : OpenTulid.Task}
    (hpacket : LinkedContextResolver.PacketOf P.resolver note parents packet)
    {doc : ContextDocument} (hdoc : doc ∈ packet.documents) :
    (freezeFile S P.root packet doc).Storable S ↔ doc.content ≠ "" := by
  constructor
  · exact fun h => h.content
  · intro hcontent
    obtain ⟨refs, hlookup, hne, hleads⟩ := hpacket.references doc hdoc
    have hrefs : (OpenTulid.frozenContextFile packet doc).refs = refs := by
      simp [OpenTulid.frozenContextFile, hlookup, hne]
    refine ⟨contextWorkspaceFilePath_ne _, inContextArea_contextWorkspaceFilePath S _, hcontent,
      rfl, rfl, contextRoleReason_ne doc, contextDocumentRole_ne doc, ?_, ?_⟩
    · show "" ∉ (OpenTulid.frozenContextFile packet doc).refs
      rw [hrefs]
      exact fun hmem => ref_ne_of_leadsTo (hleads _ hmem) rfl
    · intro hmem
      have hchars := congrArg String.toList (List.mem_singleton.mp hmem)
      simp [documentPath, toString] at hchars

-- =============================================================== excerpts

theorem renderContextDocument_ne (S : Sha256) (root : String) (doc : ContextDocument) :
    renderContextDocument S root doc ≠ "" := by
  intro h
  have hstart := (String.append_eq_empty_iff.mp (String.append_eq_empty_iff.mp
    (String.append_eq_empty_iff.mp (String.append_eq_empty_iff.mp h).1).1).1).1
  exact absurd hstart (by decide)

theorem clipMarker_ne (path : String) : clipMarker path ≠ "" := by
  intro h
  exact absurd (String.append_eq_empty_iff.mp h).2 (by decide)

/-- A clipped text is empty only where nothing may be left. -/
theorem clipContextDocument_ne {text path : String} {limit : Nat} (h : limit ≠ 0) :
    clipContextDocument text limit path ≠ "" := by
  have hmarker := clipMarker_ne path
  unfold clipContextDocument
  dsimp only
  generalize clipMarker path = marker at hmarker
  split
  next =>
    intro hempty
    have htake : marker.toList.take limit = [] := by
      simpa using congrArg String.toList hempty
    rcases List.take_eq_nil_iff.mp htake with hzero | hnil
    · exact h hzero
    · exact hmarker (String.toList_inj.mp hnil)
  next => exact fun hempty => hmarker (String.append_eq_empty_iff.mp hempty).2

theorem excerptText_ne (S : Sha256) (root : String) (doc : ContextDocument) :
    excerptText S root doc ≠ "" := by
  have hwhole := renderContextDocument_ne S root doc
  unfold excerptText
  dsimp only
  generalize renderContextDocument S root doc = whole at hwhole
  split
  next => exact clipContextDocument_ne (by decide)
  next => exact hwhole

/-- Excerpts that can be stored stay so with one more. -/
theorem Excerpting.storable_add {s : Excerpting} {doc : ContextDocument} {text : String}
    (h : ∀ excerpt ∈ s.excerpts, excerpt.Storable S) (href : doc.ref ≠ "") (htext : text ≠ "") :
    ∀ excerpt ∈ (s.add S doc text).excerpts, excerpt.Storable S := by
  unfold Excerpting.add
  dsimp only
  split
  next => exact h
  next =>
    intro excerpt hmem
    rcases List.mem_append.mp hmem with hmem | hmem
    · exact h excerpt hmem
    · obtain rfl := List.mem_singleton.mp hmem
      exact ⟨href, contextRoleHeading_ne doc, contextRoleReason_ne doc, htext, rfl,
        fun heq => contextWorkspaceFilePath_ne _ (Option.some.inj heq)⟩

theorem freezeExcerpt_storable {s : Excerpting} {doc : ContextDocument} {root : String}
    (h : ∀ excerpt ∈ s.excerpts, excerpt.Storable S) (href : doc.ref ≠ "") :
    ∀ excerpt ∈ (freezeExcerpt S root s doc).excerpts, excerpt.Storable S := by
  have htext := excerptText_ne S root doc
  unfold freezeExcerpt
  dsimp only
  generalize excerptText S root doc = text at htext
  generalize clipContextDocument text (2000 - s.total)
    (contextWorkspaceFilePath (S.hexdigest doc.content)) = clipped
  split
  next =>
    split
    next => exact h
    next hne => exact Excerpting.storable_add h href hne
  next => exact Excerpting.storable_add h href htext

/-- The excerpts of linked documents can be stored. -/
theorem excerpts_storable {docs : List ContextDocument} {s : Excerpting} {root : String}
    (h : ∀ excerpt ∈ s.excerpts, excerpt.Storable S) (hrefs : ∀ doc ∈ docs, doc.ref ≠ "") :
    ∀ excerpt ∈ (docs.foldl (freezeExcerpt S root) s).excerpts, excerpt.Storable S := by
  induction docs generalizing s with
  | nil => exact h
  | cons doc docs ih =>
      have hnext := @freezeExcerpt_storable S s doc root h (hrefs doc List.mem_cons_self)
      rw [List.foldl_cons]
      generalize freezeExcerpt S root s doc = s' at hnext
      exact ih hnext fun d hd => hrefs d (List.mem_cons_of_mem _ hd)

-- ============================================================== compiling

/-- What a compiled contract is made of. -/
theorem compile_eq_ok
    (h : compileStandardExecutionContract S P task transition parents = .ok c) :
    ∃ standard scan packet intent body,
      P.repository = .ok scan ∧ P.packet task transition parents = .ok packet ∧
      taskSourceIntentSha256 S task = .ok intent ∧
      executionContractBody S c = .ok body ∧
      c = { provisionalContract S P standard (captureRepositorySnapshot S scan) packet task
              transition intent with sha256 := S.canonical (.obj body) } := by
  unfold compileStandardExecutionContract at h
  obtain ⟨standard, -, h⟩ := bind_eq_ok.mp h
  cases standard with
  | none => cases h
  | some standard =>
      dsimp only at h
      split at h
      next => cases h
      next =>
        obtain ⟨scan, hscan, h⟩ := bind_eq_ok.mp h
        obtain ⟨packet, hpacket, h⟩ := bind_eq_ok.mp h
        obtain ⟨intent, hintent, h⟩ := bind_eq_ok.mp h
        obtain ⟨body, hbody, h⟩ := bind_eq_ok.mp h
        obtain rfl := (pure_eq_ok.mp h).symm
        exact ⟨standard, scan, packet, intent, body, hscan, hpacket, mapError_eq_ok.mp hintent,
          mapError_eq_ok.mp hbody, rfl⟩

theorem globalCommandCheck_storable (command : ProjectCommand) :
    (globalCommandCheck command).Storable where
  id := command.named
  source := by
    show "standard" ≠ ""
    decide
  runner := by
    show "command" ≠ ""
    decide
  argv := command.filled
  validationArgs := rfl
  workingDirectory := command.placed
  stdoutContains := List.not_mem_nil
  stderrContains := List.not_mem_nil

theorem baselineManifest_storable {entries : List FileManifestEntry}
    (h : ∀ entry ∈ entries, entry.path ≠ "" ∧ entry.sha256 ≠ "") :
    (baselineManifest S entries).Storable where
  schema := by
    show "tulid.baseline-manifest/v1" ≠ ""
    decide
  entries := fun entry hentry => h entry ((List.mem_insertionSort _).mp hentry)
  sha256 := S.nonempty _

/-- What is captured of a repository can be stored if and only if no tracked
path is blank. -/
theorem captured_storable_iff (scan : Option RepositoryScan) :
    ((captureRepositorySnapshot S scan).facts.Storable ∧
      (captureRepositorySnapshot S scan).baseline.Storable) ↔
      ∀ found, scan = some found → ∀ path ∈ found.selection.trackedPaths,
        OpenTulid.strip path ≠ "" := by
  cases scan with
  | none =>
      constructor
      · nofun
      · intro
        have hschema : "tulid.repository-facts/v1" ≠ "" := by decide
        exact ⟨⟨hschema, List.not_mem_nil, List.not_mem_nil, List.not_mem_nil, S.nonempty _,
          nofun⟩, baselineManifest_storable (fun _ h => nomatch h)⟩
  | some found =>
      constructor
      · rintro ⟨hfacts, -⟩ _ ⟨⟩
        exact hfacts.selection found.selection rfl
      · intro h
        have hschema : "tulid.repository-facts/v1" ≠ "" := by decide
        have hnamed := found.named
        simp only [List.mem_append, not_or] at hnamed
        refine ⟨⟨hschema, hnamed.1.1, hnamed.1.2, hnamed.2, S.nonempty _, ?_⟩,
          baselineManifest_storable fun entry hentry => ?_⟩
        · rintro _ ⟨⟩
          exact h found rfl
        · obtain ⟨file, -, rfl⟩ := List.mem_map.mp hentry
          exact ⟨file.named, file.hashed⟩

/-- The inputs whose contract comes back: the task's and the transition's
strings are not empty, what they carry along is plain, no tracked path is
blank, and no linked document is empty. -/
structure ComesBack (P : Project) (task : Task) (transition : TransitionDefinition)
    (parents : List OpenTulid.Task) : Prop where
  given : task.Storable ∧ transition.Storable
  tracked : ∀ scan, P.repository = .ok (some scan) →
    ∀ path ∈ scan.selection.trackedPaths, OpenTulid.strip path ≠ ""
  documents : ∀ packet, P.packet task transition parents = .ok packet →
    ∀ doc ∈ packet.documents, doc.content ≠ ""

/-- A compiled contract can be stored if and only if its inputs allow it. -/
theorem storable_iff (h : compileStandardExecutionContract S P task transition parents = .ok c) :
    c.Storable S ↔ ComesBack P task transition parents := by
  obtain ⟨standard, scan, packet, intent, body, hscan, hpacket, -, -, rfl⟩ := compile_eq_ok h
  have hof := LinkedContextResolver.packetOf_of_accepted hpacket
  have hcaptured := captured_storable_iff (S := S) scan
  constructor
  · intro hc
    refine ⟨⟨hc.task, hc.transition⟩, ?_, ?_⟩
    · intro found hfound
      rw [hscan] at hfound
      cases hfound
      exact hcaptured.mp ⟨hc.facts, hc.manifest⟩ found rfl
    · intro packet' hpacket' doc hdoc
      rw [hpacket] at hpacket'
      cases hpacket'
      exact (freezeFile_storable hof hdoc).mp (hc.files _ (List.mem_map_of_mem hdoc))
  · intro hback
    obtain ⟨hfacts, hmanifest⟩ := hcaptured.mpr fun found hfound =>
      hback.tracked found (hfound ▸ hscan)
    refine ⟨hback.given.1, hback.given.2, hfacts, hmanifest, ?_, ?_, ?_⟩
    · intro check hcheck
      obtain ⟨command, -, rfl⟩ := List.mem_map.mp hcheck
      exact globalCommandCheck_storable command
    · exact excerpts_storable (fun _ h => nomatch h) fun doc hdoc =>
        ref_ne_of_leadsTo (hof.traced doc hdoc).content
    · intro file hfile
      obtain ⟨doc, hdoc, rfl⟩ := List.mem_map.mp hfile
      exact (freezeFile_storable hof hdoc).mpr (hback.documents packet hpacket doc hdoc)

-- ==================================================================== jobs

/-- The job's own fields are names. -/
structure ExecutionJob.Named (job : ExecutionJob) : Prop where
  jobId : job.jobId ≠ ""
  projectId : job.projectId ≠ ""
  taskId : job.taskId ≠ ""
  transitionId : job.transitionId ≠ ""
  workerId : job.workerId ≠ ""
  workspacePath : job.workspacePath ≠ ""
  status : job.status ≠ ""

/-- The job as it is read from its file. -/
def ExecutionJob.reread (B : Builtins) (job : ExecutionJob) : Except String ExecutionJob :=
  jobFromPayload B (jobToPayload job)

theorem requiredJobField_eq_ok {fields : Fields} {key s : String} :
    requiredJobField fields key = .ok s ↔ fields.get key = .str s ∧ s ≠ "" := by
  unfold requiredJobField
  split
  next t heq =>
    rw [heq, Json.str.injEq]
    split
    next hempty =>
      subst hempty
      constructor
      · nofun
      · rintro ⟨rfl, hne⟩
        exact absurd rfl hne
    next hne =>
      rw [Except.ok.injEq]
      constructor
      · rintro rfl
        exact ⟨rfl, hne⟩
      · exact fun h => h.1
  next hno =>
    constructor
    · nofun
    · rintro ⟨h, -⟩
      exact absurd h (hno s)

/-- A job is read as it was written, if its fields are names. -/
theorem reread_eq_ok {job read : ExecutionJob} :
    job.reread B = .ok read ↔ read = job ∧ job.Named := by
  unfold ExecutionJob.reread jobFromPayload jobToPayload
  simp only [mapping, ok_bind, bind_eq_ok, pure_eq_ok, requiredJobField_eq_ok, Fields.get,
    Fields.get?, List.lookup, objectOf]
  simp only [beq_self_eq_true, String.reduceBEq, Option.getD_some, Json.str.injEq,
    Except.ok.injEq, B.int_int, exists_eq_left']
  constructor
  · rintro ⟨_, ⟨rfl, jobId⟩, _, ⟨rfl, projectId⟩, _, ⟨rfl, taskId⟩, _, ⟨rfl, transitionId⟩, _,
      ⟨rfl, workerId⟩, _, ⟨rfl, workspacePath⟩, _, ⟨rfl, status⟩, rfl⟩
    exact ⟨rfl, jobId, projectId, taskId, transitionId, workerId, workspacePath, status⟩
  · rintro ⟨rfl, h⟩
    exact ⟨_, ⟨rfl, h.jobId⟩, _, ⟨rfl, h.projectId⟩, _, ⟨rfl, h.taskId⟩, _,
      ⟨rfl, h.transitionId⟩, _, ⟨rfl, h.workerId⟩, _, ⟨rfl, h.workspacePath⟩, _,
      ⟨rfl, h.status⟩, rfl⟩

/-- The job the contract is stored with, as `create_execution_job` builds
it. -/
structure ExecutionJob.Holds (S : Sha256) (job : ExecutionJob) (c : ExecutionContract) :
    Prop where
  task : job.taskId = c.sourceTask.id
  transition : job.transitionId = c.transition.id
  worker : c.transition.worker = some job.workerId
  payload : ∃ stored, executionContractToDict S c = .ok stored ∧
    job.metadata.get "execution_contract" = .obj stored
  digest : job.metadata.get "execution_contract_sha256" = .str c.sha256
  jobId : job.jobId ≠ ""
  projectId : job.projectId ≠ ""
  workerId : job.workerId ≠ ""
  workspacePath : job.workspacePath ≠ ""
  status : job.status ≠ ""

/-- Such a job has names once its task and its transition have. -/
theorem ExecutionJob.Holds.named {job : ExecutionJob} (h : job.Holds S c) (hc : c.Storable S) :
    job.Named where
  jobId := h.jobId
  projectId := h.projectId
  taskId := h.task ▸ hc.task.id
  transitionId := h.transition ▸ hc.transition.id
  workerId := h.workerId
  workspacePath := h.workspacePath
  status := h.status

-- =============================================================== integrity

/-- Payloads with one digest are the same up to order. -/
theorem canon_eq_of_canonical {p q : Json} (h : S.canonical p = S.canonical q) :
    p.canon = q.canon := by
  have htexts := S.injective h
  exact Json.text_injective (String.ofList_injective htexts)

/-- The stored payload is the body with its digest. -/
theorem stored_eq {stored : Fields} (h : executionContractToDict S c = .ok stored) :
    ∃ body, executionContractBody S c = .ok body ∧ stored = body ++ [("sha256", .str c.sha256)] ∧
      stored.erase "sha256" = body ∧ stored.get? "sha256" = some (.str c.sha256) ∧
      stored.Distinct := by
  unfold executionContractToDict at h
  cases hbody : executionContractBody S c with
  | error text =>
      rw [hbody] at h
      cases h
  | ok body =>
      rw [hbody] at h
      obtain ⟨intent, -, rfl⟩ := executionContractBody_eq_ok hbody
      cases h
      refine ⟨_, rfl, rfl, rfl, rfl, ?_⟩
      show ["schema", "compiler_version", "prompt_compiler_version", "source",
        "generated_contract", "transition", "transition_sha256", "repository",
        "resolved_checks", "context_excerpts", "context_files", "sha256"].Nodup
      decide

/-- The payload of a compiled contract is intact. -/
theorem intact_stored {stored body : Fields} (hbody : executionContractBody S c = .ok body)
    (hstored : executionContractToDict S c = .ok stored)
    (hdigest : c.sha256 = S.canonical (.obj body)) : intact S c.sha256 stored = true := by
  obtain ⟨body', hbody', rfl, herase, hget, -⟩ := stored_eq hstored
  obtain rfl := Except.ok.inj (hbody.symm.trans hbody')
  obtain ⟨intent, -, rfl⟩ := executionContractBody_eq_ok hbody
  unfold intact
  rw [herase, ← hdigest, Fields.get, hget]
  simp [isText, Fields.get, Fields.get?, List.lookup, equalsInt,
    supportedPromptCompilerVersion]

/-- An intact payload is the stored one, up to order. -/
theorem canon_eq_of_intact {stored body raw : Fields}
    (hbody : executionContractBody S c = .ok body)
    (hstored : executionContractToDict S c = .ok stored)
    (hdigest : c.sha256 = S.canonical (.obj body)) (hdistinct : raw.Distinct)
    (h : intact S c.sha256 raw = true) : (Json.obj raw).canon = (Json.obj stored).canon := by
  obtain ⟨body', hbody', -, herase, hget, hstoredDistinct⟩ := stored_eq hstored
  obtain rfl := Except.ok.inj (hbody.symm.trans hbody')
  unfold intact at h
  simp only [Bool.and_eq_true, decide_eq_true_eq] at h
  obtain ⟨⟨⟨⟨hsha, hcanonical⟩, -⟩, -⟩, -⟩ := h
  have hkey : raw.get? "sha256" = some (.str c.sha256) := by
    unfold Fields.get at hsha
    cases hraw : raw.get? "sha256" with
    | none =>
        rw [hraw] at hsha
        cases hsha
    | some v =>
        rw [hraw] at hsha
        cases v with
        | str s =>
            have hs : s = c.sha256 := of_decide_eq_true hsha
            rw [hs]
        | _ => cases hsha
  refine Json.canon_obj_eq_of_erase hdistinct hstoredDistinct (hkey.trans hget.symm) ?_
  rw [herase]
  exact canon_eq_of_canonical (hcanonical.trans hdigest)

-- ============================================================== round trips

variable {legacy : Fields → Except String ImplementationContractDraft} {required : Bool}
  {job : ExecutionJob}

/-- A compiled contract comes back from its payload if and only if it can be
stored. -/
theorem fromPayload_iff
    (hcompile : compileStandardExecutionContract S P task transition parents = .ok c)
    {body : Fields} (hbody : executionContractBody S c = .ok body) :
    contractFromPayload B S legacy c.sha256 body = .ok c ↔ c.Storable S := by
  obtain ⟨standard, scan, packet, intent, _, -, -, hintent, -, hc⟩ := compile_eq_ok hcompile
  have hfilled : intent ≠ "" := by
    unfold taskSourceIntentSha256 at hintent
    split at hintent
    next => cases hintent
    next =>
      obtain rfl := Except.ok.inj hintent
      exact S.nonempty _
  refine contractFromPayload_iff hbody fun hstorable => ?_
  subst hc
  exact generatedFromDict_globalContractDraft hstorable.id hfilled

/-- What a job with a compiled contract loads. -/
theorem load_stored_iff
    (hcompile : compileStandardExecutionContract S P task transition parents = .ok c)
    (hjob : job.Holds S c) :
    loadJobExecutionContract B S legacy required job = .ok (some c) ↔ c.Storable S := by
  obtain ⟨_, _, _, _, body, -, -, -, hbody, hc⟩ := compile_eq_ok hcompile
  have hdigest : c.sha256 = S.canonical (.obj body) := by rw [hc]
  obtain ⟨stored, hstored, hget⟩ := hjob.payload
  obtain ⟨body', hbody', -, herase, -, -⟩ := stored_eq hstored
  obtain rfl := Except.ok.inj (hbody.symm.trans hbody')
  have hfrom : contractFromPayload B S legacy c.sha256 body = .ok c ↔ c.Storable S :=
    fromPayload_iff hcompile hbody
  unfold loadJobExecutionContract
  rw [hget, hjob.digest]
  dsimp only
  rw [if_neg (not_not.mpr (intact_stored hbody hstored hdigest)), herase]
  cases hloaded : contractFromPayload B S legacy c.sha256 body with
  | error text =>
      rw [hloaded] at hfrom
      constructor
      · nofun
      · exact fun h => nomatch hfrom.mpr h
  | ok loaded =>
      rw [hloaded, Except.ok.injEq] at hfrom
      rw [← hfrom]
      dsimp only
      constructor
      · intro h
        split at h
        next => cases h
        next => exact Option.some.inj (Except.ok.inj h)
      · rintro rfl
        rw [if_neg]
        rintro (htask | htransition | hworker)
        · exact htask hjob.task.symm
        · exact htransition hjob.transition.symm
        · exact hworker hjob.worker

/-- The job with another payload in the place of its contract. -/
def ExecutionJob.tampered (job : ExecutionJob) (payload : Json) : ExecutionJob :=
  { job with metadata := Fields.set job.metadata "execution_contract" payload }

/-- A contract comes back from the file of its job: the job is read as it was
and its contract is accepted as it was compiled. -/
def RoundTrips (B : Builtins) (S : Sha256)
    (legacy : Fields → Except String ImplementationContractDraft) (required : Bool)
    (job : ExecutionJob) (c : ExecutionContract) : Prop :=
  ∃ read, job.reread B = .ok read ∧
    loadJobExecutionContract B S legacy required read = .ok (some c)

/-- No other payload is loaded in its place. -/
def TamperEvident (B : Builtins) (S : Sha256)
    (legacy : Fields → Except String ImplementationContractDraft) (required : Bool)
    (job : ExecutionJob) : Prop :=
  ∀ payload : Json, (∀ fields, payload = .obj fields → Fields.Distinct fields) →
    payload.canon ≠ (job.metadata.get "execution_contract").canon →
    ∀ read, (job.tampered payload).reread B = .ok read →
      ∃ errors, loadJobExecutionContract B S legacy required read = .error errors

theorem get_set_self (fields : Fields) (key : String) (v : Json) :
    (fields.set key v).get key = v := by
  unfold Fields.get Fields.get?
  induction fields with
  | nil => simp [Fields.set]
  | cons e fields ih =>
      obtain ⟨k, w⟩ := e
      rw [Fields.set]
      split
      next heq => simp
      next hne =>
        have hkey : (key == k) = false := by simpa using fun h : key = k => hne h.symm
        rw [List.lookup_cons, hkey]
        exact ih

theorem get_set_of_ne {fields : Fields} {key other : String} {v : Json} (h : other ≠ key) :
    (fields.set key v).get other = fields.get other := by
  unfold Fields.get Fields.get?
  induction fields with
  | nil =>
      have hkey : (other == key) = false := by simpa using h
      simp [Fields.set, List.lookup, hkey]
  | cons e fields ih =>
      obtain ⟨k, w⟩ := e
      rw [Fields.set]
      split
      next heq =>
        subst heq
        have hkey : (other == k) = false := by simpa using h
        simp [List.lookup_cons, hkey]
      next hne =>
        rw [List.lookup_cons, List.lookup_cons]
        cases other == k with
        | true => rfl
        | false => exact ih

/-- What is stored with a job cannot be changed unnoticed. -/
theorem tamperEvident
    (hcompile : compileStandardExecutionContract S P task transition parents = .ok c)
    (hjob : job.Holds S c) : TamperEvident B S legacy required job := by
  obtain ⟨_, _, _, _, body, -, -, -, hbody, hc⟩ := compile_eq_ok hcompile
  have hdigest : c.sha256 = S.canonical (.obj body) := by rw [hc]
  obtain ⟨stored, hstored, hget⟩ := hjob.payload
  intro payload hdistinct hne read hread
  obtain ⟨rfl, -⟩ := reread_eq_ok.mp hread
  have hpayload : (job.tampered payload).metadata.get "execution_contract" = payload :=
    get_set_self _ _ _
  have hsha : (job.tampered payload).metadata.get "execution_contract_sha256" =
      .str c.sha256 := (get_set_of_ne (by decide)).trans hjob.digest
  unfold loadJobExecutionContract
  rw [hpayload, hsha]
  cases payload with
  | obj raw =>
      dsimp only
      rw [if_pos]
      · exact ⟨_, rfl⟩
      · intro hintact
        rw [hget] at hne
        exact hne (canon_eq_of_intact hbody hstored hdigest (hdistinct raw rfl) hintact)
  | _ => exact ⟨_, rfl⟩

/-- A contract is compiled once its inputs are there. -/
theorem exists_compiled {standard : StandardContract} {scan : Option RepositoryScan}
    {packet : ContextPacket} {intent : String} (hstandard : P.standard = .ok (some standard))
    (hvalid : validateGlobalCommands standard = []) (hscan : P.repository = .ok scan)
    (hpacket : P.packet task transition parents = .ok packet)
    (hintent : taskSourceIntentSha256 S task = .ok intent) :
    ∃ c stored, compileStandardExecutionContract S P task transition parents = .ok c ∧
      executionContractToDict S c = .ok stored ∧ c.sourceTask = task ∧
      c.transition = transition ∧
      c.contextFiles = packet.documents.map (freezeFile S P.root packet) := by
  have hbody : ∃ body, executionContractBody S (provisionalContract S P standard
      (captureRepositorySnapshot S scan) packet task transition intent) = .ok body := by
    unfold executionContractBody
    rw [show (provisionalContract S P standard (captureRepositorySnapshot S scan) packet task
      transition intent).sourceTask = task from rfl, hintent]
    exact ⟨_, rfl⟩
  obtain ⟨body, hbody⟩ := hbody
  refine ⟨{ provisionalContract S P standard (captureRepositorySnapshot S scan) packet task
      transition intent with sha256 := S.canonical (.obj body) },
    body ++ [("sha256", .str (S.canonical (.obj body)))], ?_, ?_, rfl, rfl, rfl⟩
  · unfold compileStandardExecutionContract
    rw [hstandard]
    simp only [ok_bind]
    rw [if_neg (not_not.mpr hvalid), hscan, hpacket, hintent]
    simp only [ok_bind, Except.mapError, hbody]
    rfl
  · exact congrArg (Except.map (· ++ [("sha256", .str (S.canonical (.obj body)))])) hbody

/-- The job a contract is stored with. -/
def jobWith (c : ExecutionContract) (stored : Fields) : ExecutionJob where
  jobId := "job-1"
  projectId := "demo"
  taskId := c.sourceTask.id
  transitionId := c.transition.id
  workerId := "codex"
  workspacePath := "/work/job-1"
  metadata := [("execution_contract", .obj stored), ("execution_contract_sha256", .str c.sha256)]

theorem jobWith_holds {stored : Fields} (h : executionContractToDict S c = .ok stored)
    (hworker : c.transition.worker = some "codex") : (jobWith c stored).Holds S c where
  task := rfl
  transition := rfl
  worker := hworker
  payload := ⟨stored, h, rfl⟩
  digest := rfl
  jobId := by
    show "job-1" ≠ ""
    decide
  projectId := by
    show "demo" ≠ ""
    decide
  workerId := by
    show "codex" ≠ ""
    decide
  workspacePath := by
    show "/work/job-1" ≠ ""
    decide
  status := by
    show "created" ≠ ""
    decide

/-- A character in unary. -/
def unary (c : Char) : List Char := List.replicate c.toNat '1' ++ ['0']

theorem unary_unique {c d : Char} {r u : List Char} (h : unary c ++ r = unary d ++ u) :
    c = d ∧ r = u := by
  have hcount : ∀ (n m : Nat), List.replicate n '1' ++ '0' :: r =
      List.replicate m '1' ++ '0' :: u → n = m ∧ r = u := by
    intro n
    induction n with
    | zero =>
        intro m h
        cases m with
        | zero => exact ⟨rfl, List.tail_eq_of_cons_eq h⟩
        | succ m => cases (List.cons.inj h).1
    | succ n ih =>
        intro m h
        cases m with
        | zero => cases (List.cons.inj h).1
        | succ m =>
            obtain ⟨rfl, hr⟩ := ih m (List.tail_eq_of_cons_eq h)
            exact ⟨rfl, hr⟩
  unfold unary at h
  rw [List.append_assoc, List.append_assoc] at h
  obtain ⟨hn, hr⟩ := hcount _ _ h
  exact ⟨Char.toNat_inj.mp hn, hr⟩

theorem unaries_injective {cs ds : List Char} (h : cs.flatMap unary = ds.flatMap unary) :
    cs = ds := by
  induction cs generalizing ds with
  | nil =>
      cases ds with
      | nil => rfl
      | cons d ds =>
          have hlength := congrArg List.length h
          simp [unary] at hlength
  | cons c cs ih =>
      cases ds with
      | nil =>
          have hlength := congrArg List.length h
          simp [unary] at hlength
      | cons d ds =>
          rw [List.flatMap_cons, List.flatMap_cons] at h
          obtain ⟨rfl, hrest⟩ := unary_unique h
          rw [ih hrest]

/-- A digest without collisions. -/
def unaryDigest : Sha256 where
  hexdigest text := String.ofList ('0' :: text.toList.flatMap unary)
  injective := fun s t h => by
    have hchars := List.tail_eq_of_cons_eq (String.ofList_injective h)
    exact String.toList_inj.mp (unaries_injective hchars)
  nonempty := fun text h => by
    have hchars := congrArg String.toList h
    simp at hchars
  digits := fun text c hc => by
    rw [String.toList_ofList] at hc
    rcases List.mem_cons.mp hc with rfl | hc
    · decide
    · obtain ⟨d, -, hd⟩ := List.mem_flatMap.mp hc
      rcases List.mem_append.mp hd with hd | hd
      · rw [(List.mem_replicate.mp hd).2]
        decide
      · rw [List.mem_singleton.mp hd]
        decide

/-- A project with one command, a note and an empty note. -/
def notesProject : Project where
  root := "/vault/demo"
  resolver := {
    file := fun path =>
      if path = ["docs", "empty.md"] then some []
      else if path = ["docs", "note.md"] then some (OpenTulid.utf8 "Note")
      else none
    readText := fun content => .ok (String.ofList (content.map fun b => Char.ofNat b.toNat)) }
  lines := fun text => [.text text]
  standard := .ok (some ⟨[{
    name := "test", argv := ["pytest"]
    named := by decide, filled := by decide, placed := by decide }]⟩)
  repository := .ok none

/-- A task that links a note. -/
def notedTask (link : String) : Task where
  id := "8"
  title := "Export"
  path := "tasks/8.md"
  currentState := "ready"
  taskType := "ImplementationTask"
  artifactLinks := [link]

/-- The implementation of a task. -/
def implementation : TransitionDefinition where
  id := "implement"
  taskType := "ImplementationTask"
  fromState := "ready"
  toState := "done"
  worker := some "codex"
  requires := {}
  transaction := none

/-- The documents of the task are found, and what they say. -/
def contentsOf (link : String) : Option (List String) :=
  match notesProject.packet (notedTask link) implementation [] with
  | .error _ => none
  | .ok packet => some (packet.documents.map (·.content))

theorem exists_packet (link : String) (contents : List String)
    (h : contentsOf link = some contents) :
    ∃ packet, notesProject.packet (notedTask link) implementation [] = .ok packet ∧
      packet.documents.map (·.content) = contents := by
  unfold contentsOf at h
  split at h
  next => cases h
  next packet hpacket => exact ⟨packet, hpacket, Option.some.inj h⟩

end OpenTulid.Frozen
