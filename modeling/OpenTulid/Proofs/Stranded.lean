/-
A submission never strands its job: exactly when a call that has marked its
job `completion_submitted` leaves it so.

A call that returns has always written a closing status. A call that raises
has not: nothing between the mark and the closing write is covered by a
handler that settles the job. `stageRaises` says, on the data the call
starts from, that a stage it comes to raises: capturing the candidate,
finding the output folder and verifying, inspecting the promotions, planning
the derived tasks, reading the task's revision. One more raise follows a
committed transaction: looking up the accepted commit where Git cannot be
run. Against all this stands one accident: when the read of the job right
after the candidate is sealed fails, the status from before the call is
written back, and the job is not stranded whatever happens later.

# Method

The call runs alone (`Par.Contract.alone`), with any failures outside the
job store's writes. `Underway` collects what holds from the mark on: the
status, the ground the stages look at, and what the history shows.
-/
import OpenTulid.Proofs.Footprint
import OpenTulid.Proofs.Frame

namespace OpenTulid

open Prog (Uses)
open Par (Step Run Config Safe)

-- ========================================================= the condition

/-- The integration target is accepted, or there is none to check. -/
def targetAccepted (E : Env) (V : CompletionService)
    (contract : Option ExecutionContract) (d : Data) : Prop :=
  ∀ r c, V.repo = some r → contract = some c →
    checkIntegrationTarget E r (d.repos r) c = .ok ()

/-- Planning the derived tasks raises, or reading the task's revision. -/
def publishRaises (E : Env) (V : CompletionService) (call : SubmitCall)
    (job : ExecutionJob) (contract : Option ExecutionContract)
    (transition : TransitionDefinition) (candidate : Candidate) (out : RelPath)
    (delivery : DeliveryPlan) (d : Data) : Prop :=
  match planDerived E V call d job transition candidate out
      delivery.promotedArtifacts with
  | .error _ => True
  | .ok (.error _) => False
  | .ok (.ok _) => revisionUnavailable E V d job contract = true

/-- A stage after the verification raises. -/
def deliverRaises (E : Env) (V : CompletionService) (call : SubmitCall)
    (job : ExecutionJob) (contract : Option ExecutionContract)
    (transition : TransitionDefinition) (candidate : Candidate) (out : RelPath)
    (d : Data) : Prop :=
  shadowedPaths d V contract (artifactPaths out call.submission) = [] ∧
  match planDelivery E V d job call.submission candidate out with
  | .error _ => True
  | .ok delivery =>
      targetAccepted E V contract d ∧
        publishRaises E V call job contract transition candidate out delivery d

/-- The data once the candidate is sealed. -/
def sealed (d : Data) (candidate : Candidate) (files : FileTree) : Data :=
  { d with storages := Function.update d.storages candidate.storage files }

/-- A stage between the mark and the closing write raises, on the data the
call starts from. -/
def stageRaises (E : Env) (V : CompletionService) (call : SubmitCall)
    (job : ExecutionJob) (contract : Option ExecutionContract)
    (transition : TransitionDefinition) (d : Data) : Prop :=
  match call.captured with
  | .error _ => True
  | .ok (.error _) => False
  | .ok (.ok (candidate, files)) =>
      match verifyCandidate E call job with
      | .error _ => True
      | .ok (out, verification) =>
          verification.accepted = true ∧
            deliverRaises E V call job contract transition candidate out
              (sealed d candidate files)

/-- The entry ends a write that commits a journal. -/
def Entry.commitsJournal (e : Entry) : Bool :=
  match e.op with
  | .syncJournal _ r => r.status = .committed && !e.fault
  | _ => false

/-- The entry seals a candidate. -/
def Entry.seals (e : Entry) : Bool := e.op.seals

/-- The entry is a read of a job that failed. -/
def Entry.readFails (e : Entry) : Bool :=
  match e.op with
  | .getJob _ _ => e.fault
  | _ => false

/-- The read right after the candidate was sealed failed. -/
def sealReadFailed : List Entry → Bool
  | [] => false
  | e :: rest =>
      (e.readFails && rest.head?.any Entry.seals) || sealReadFailed rest

/-- The writes of the job store succeed, and only the call itself
crashes. -/
def jobWritesSucceed : Par.Admission Pid Op World where
  step _ fault o _ := match o with
    | .updateStatus .. => fault = false
    | _ => True
  crash i _ := i = 0

-- ================================================== what holds underway

/-- Two states agree on what the stages look at. -/
structure SameGround (p : ProjectId) (base d : Data) : Prop where
  tracker : (d.projects p).tracker = (base.projects p).tracker
  artifacts : (d.projects p).artifacts = (base.projects p).artifacts
  repos : d.repos = base.repos
  storages : d.storages = base.storages

section Ground

variable {E : Env} {V : CompletionService} {call : SubmitCall}
  {job : ExecutionJob} {base d : Data}

theorem SameGround.shadowedPaths (h : SameGround V.project base d)
    (contract : Option ExecutionContract) (paths : List RelPath) :
    shadowedPaths d V contract paths
      = OpenTulid.shadowedPaths base V contract paths := by
  unfold OpenTulid.shadowedPaths
  rw [h.repos]

theorem SameGround.planPromotion (h : SameGround V.project base d)
    (s : StorageId) (out : RelPath) (id : TaskId) (task : Option Task)
    (a : ArtifactSubmission) :
    planPromotion E V d s out id task a
      = OpenTulid.planPromotion E V base s out id task a := by
  unfold OpenTulid.planPromotion artifactFileName
  rw [h.artifacts, h.storages]

theorem SameGround.planChange (h : SameGround V.project base d) (r : RepoId)
    (s : StorageId) (change : CandidateChange) :
    planChange d r s change = OpenTulid.planChange base r s change := by
  unfold OpenTulid.planChange sameFileContent Data.tree
  rw [h.repos, h.storages]

theorem SameGround.planDelivery (h : SameGround V.project base d)
    (submission : CompletionSubmission) (candidate : Candidate) (out : RelPath) :
    planDelivery E V d job submission candidate out
      = OpenTulid.planDelivery E V base job submission candidate out := by
  have hpromote : ∀ s o id task, OpenTulid.planPromotion E V d s o id task
      = OpenTulid.planPromotion E V base s o id task := by
    intro s o id task
    funext a
    exact h.planPromotion s o id task a
  have hchange : ∀ r s, OpenTulid.planChange d r s
      = OpenTulid.planChange base r s := by
    intro r s
    funext change
    exact h.planChange r s change
  unfold OpenTulid.planDelivery promotionPlan candidateChangePlan commitPlan
  simp only [h.tracker, hpromote, hchange, h.repos]

theorem SameGround.planDerived (h : SameGround V.project base d)
    (transition : TransitionDefinition) (candidate : Candidate) (out : RelPath)
    (promoted : List ArtifactPromotion) :
    planDerived E V call d job transition candidate out promoted
      = OpenTulid.planDerived E V call base job transition candidate out
        promoted := by
  have hparse : ∀ (links : List ((String × RelPath) × String))
      (artifacts : List ArtifactSubmission) (seen : List RelPath)
      (ids : List String),
      parseDerivedFiles E d candidate.storage out links seen ids artifacts
        = parseDerivedFiles E base candidate.storage out links seen ids
          artifacts := by
    intro links artifacts
    induction artifacts with
    | nil => intro seen ids; rfl
    | cons a rest ih =>
        intro seen ids
        simp only [parseDerivedFiles, h.storages, ih]
  unfold OpenTulid.planDerived derivedTaskPlan
  simp only [h.tracker, hparse]

theorem SameGround.revisionUnavailable (h : SameGround V.project base d)
    (contract : Option ExecutionContract) :
    revisionUnavailable E V d job contract
      = OpenTulid.revisionUnavailable E V base job contract := by
  unfold OpenTulid.revisionUnavailable
  rw [h.tracker]

end Ground

/-- Where the call stands: the job's status, the ground, no journal
committed, the candidate not sealed by the last step, and whether the read
after sealing it has failed. -/
structure Underway (p : ProjectId) (j : JobId) (base : Data)
    (s : ExecutionJobStatus) (failed : Bool) (w : World) : Prop where
  status : w.data.status p j = some s
  ground : SameGround p base w.data
  uncommitted : ∀ e ∈ w.history, e.commitsJournal = false
  unsealed : w.history.head?.any Entry.seals = false
  read : sealReadFailed w.history = failed

/-- The operations that leave jobs and ground alone. -/
def Op.isIdle : Op → Bool
  | .look | .getJob .. | .appendEvent .. | .lock _ | .unlock _
  | .checkTarget .. | .mark _ => true
  | _ => false

section Underway

variable {E : Env} {p : ProjectId} {j : JobId} {base : Data}
  {s : ExecutionJobStatus} {failed : Bool} {w : World}

/-- An operation outside the ground keeps it. -/
theorem SameGround.apply {d : Data} {fault : Bool} {o : Op}
    (h : SameGround p base d) (htracker : o.writesTracker = false)
    (hartifacts : o.writesArtifacts p = false)
    (hrepos : ∀ r, o.writesRepo r = false) (hseal : o.seals = false) :
    SameGround p base (o.apply E fault d).1 where
  tracker := by rw [tracker_apply htracker, h.tracker]
  artifacts := by rw [artifacts_apply hartifacts, h.artifacts]
  repos := by
    rw [← h.repos]
    funext r
    exact repos_apply (hrepos r)
  storages := by rw [storages_apply hseal, h.storages]

/-- An idle operation keeps everything. -/
theorem Underway.idle {fault : Bool} {o : Op} (ho : o.isIdle = true)
    (h : Underway p j base s failed w) :
    Underway p j base s failed (w.step E 0 fault o).1 where
  status := by
    rw [← h.status]
    unfold Data.status Data.job
    rw [World.step_data, jobs_apply (by cases o <;> first | rfl | cases ho)]
  ground := by
    refine h.ground.apply ?_ ?_ ?_ ?_
    all_goals cases o <;> first | rfl | exact fun _ => rfl | cases ho
  uncommitted := by
    refine List.forall_mem_cons.mpr ⟨?_, h.uncommitted⟩
    cases o <;> first | rfl | cases ho
  unsealed := by
    rw [World.step_history]
    cases o <;> first | rfl | cases ho
  read := by
    rw [World.step_history, sealReadFailed, h.unsealed, Bool.and_false,
      Bool.false_or, h.read]

/-- A status write that succeeds. -/
theorem Underway.write {site : WriteSite} {basis : Option ExecutionJobStatus}
    {t : ExecutionJobStatus} {patch : MetadataPatch} (hfrozen : patch.frozen = [])
    (h : Underway p j base s failed w) :
    Underway p j base t failed
      (w.step E 0 false (.updateStatus p site basis j t patch false)).1 where
  status := status_updateStatus h.status hfrozen
  ground := h.ground.apply rfl rfl (fun _ => rfl) rfl
  uncommitted := List.forall_mem_cons.mpr ⟨rfl, h.uncommitted⟩
  unsealed := rfl
  read := by
    rw [World.step_history, sealReadFailed, h.read]
    rfl

/-- An operation of the call on its own, and what follows. -/
theorem step_alone {α : Type} {Q : Except Raised α → World → Prop} {o : Op}
    {f : o.Res → Proc α}
    (h : ∀ fault, jobWritesSucceed.step 0 fault o w →
      Safe (machine E) jobWritesSucceed (.alone 0) 0 Q
        (f (o.apply E fault w.data).2) (w.step E 0 fault o).1) :
    Safe (machine E) jobWritesSucceed (.alone 0) 0 Q (perform o >>= f) w :=
  Par.Safe.perform_alone h

/-- An idle operation of the call, and what follows. -/
theorem idle_alone {α : Type} {Q : Except Raised α → World → Prop} {o : Op}
    {f : o.Res → Proc α} (ho : o.isIdle = true)
    (h : Underway p j base s failed w)
    (hf : ∀ fault, Underway p j base s failed (w.step E 0 fault o).1 →
      Safe (machine E) jobWritesSucceed (.alone 0) 0 Q
        (f (o.apply E fault w.data).2) (w.step E 0 fault o).1) :
    Safe (machine E) jobWritesSucceed (.alone 0) 0 Q (perform o >>= f) w :=
  step_alone fun fault _ => hf fault (h.idle ho)

end Underway

-- ============================================================ the verdict

section Call

variable {E : Env} {V : CompletionService} {call : SubmitCall}
  {job : ExecutionJob} {sid : SubmissionId} {d₀ base : Data}
  {s : ExecutionJobStatus} {failed : Bool} {w : World}

/-- A stage the call comes to raises, on the data it starts from. -/
def callRaises (E : Env) (V : CompletionService) (call : SubmitCall)
    (d : Data) : Prop :=
  ∃ job contract transition, d.job V.project call.jobId = some job ∧
    admitSubmission E call job = .ok (contract, transition) ∧
    stageRaises E V call job contract transition d

/-- The call strands its job: a stage raises, or Git cannot be run after a
commit, and the job could be read when the candidate was sealed. -/
def Strands (E : Env) (V : CompletionService) (call : SubmitCall) (d : Data)
    (history : List Entry) : Prop :=
  (callRaises E V call d ∨ gitUnavailable E V d = true ∧
    ∃ e ∈ history, e.commitsJournal = true) ∧
  sealReadFailed history = false

/-- The job is left in validation exactly when the call strands it. -/
def Handed (E : Env) (V : CompletionService) (call : SubmitCall) (d : Data)
    (w : World) : Prop :=
  w.data.status V.project call.jobId ≠ some .completionSubmitted ↔
    ¬ Strands E V call d w.history

/-- A closing status, where nothing raises. -/
theorem handed_of_closed {t : ExecutionJobStatus}
    (hstatus : w.data.status V.project call.jobId = some t)
    (ht : t ≠ .completionSubmitted) (hraise : ¬ callRaises E V call d₀)
    (hgit : gitUnavailable E V d₀ = false ∨
      ∀ e ∈ w.history, e.commitsJournal = false) : Handed E V call d₀ w := by
  refine iff_of_true ?_ ?_
  · rw [hstatus]
    exact fun h => ht (Option.some.inj h)
  · rintro ⟨hraised | ⟨hunavailable, e, he, hcommit⟩, -⟩
    · exact hraise hraised
    · rcases hgit with hgit | hgit
      · rw [hgit] at hunavailable
        cases hunavailable
      · rw [hgit e he] at hcommit
        cases hcommit

/-- A raise, where one was due. -/
theorem handed_of_raised
    (hstatus : w.data.status V.project call.jobId = some s)
    (hread : sealReadFailed w.history = failed)
    (hs : failed = false ↔ s = .completionSubmitted)
    (hraise : callRaises E V call d₀ ∨ gitUnavailable E V d₀ = true ∧
      ∃ e ∈ w.history, e.commitsJournal = true) : Handed E V call d₀ w := by
  unfold Handed Strands
  rw [hstatus, hread]
  simp only [hraise, true_and, hs, ne_eq, Option.some.injEq]

/-- Where nothing committed, a raise is a raise of a stage. -/
theorem Underway.handed_of_raised (hid : call.jobId = job.jobId)
    (h : Underway V.project job.jobId base s failed w)
    (hs : failed = false ↔ s = .completionSubmitted)
    (hraise : callRaises E V call d₀) : Handed E V call d₀ w :=
  OpenTulid.handed_of_raised (hid ▸ h.status) h.read hs (Or.inl hraise)

/-- Where nothing committed, a closing status closes. -/
theorem Underway.handed_of_closed (hid : call.jobId = job.jobId)
    (h : Underway V.project job.jobId base s failed w)
    (hs : s ≠ .completionSubmitted) (hraise : ¬ callRaises E V call d₀) :
    Handed E V call d₀ w :=
  OpenTulid.handed_of_closed (hid ▸ h.status) hs hraise (Or.inr h.uncommitted)

/-- Releasing a lock changes nothing. -/
theorem Handed.unlock {fault : Bool} {l : Lock} (h : Handed E V call d₀ w) :
    Handed E V call d₀ (w.step E 0 fault (.unlock l)).1 := by
  unfold Handed Strands at h ⊢
  have hcommit : (∃ e ∈ (w.step E 0 fault (.unlock l)).1.history,
      e.commitsJournal = true) ↔ ∃ e ∈ w.history, e.commitsJournal = true := by
    rw [World.step_history, List.exists_mem_cons_iff]
    exact or_iff_right (fun h => by cases h)
  rw [hcommit]
  exact h

end Call

-- ================================================================= stages

section Stages

variable {E : Env} {V : CompletionService} {call : SubmitCall}
  {job : ExecutionJob} {sid : SubmissionId} {d₀ base : Data}
  {s : ExecutionJobStatus} {failed : Bool} {w : World} {α : Type}

/-- Safety of the call on its own. -/
abbrev SafeAlone (E : Env) (Q : Except Raised α → World → Prop) (p : Proc α)
    (w : World) : Prop :=
  Safe (machine E) jobWritesSucceed (.alone 0) 0 Q p w

/-- A status write of the call, and what follows. -/
theorem write_alone {Q : Except Raised α → World → Prop} {site : WriteSite}
    {basis : Option ExecutionJobStatus} {t : ExecutionJobStatus}
    {patch : MetadataPatch} {f : Except DomainError ExecutionJob → Proc α}
    (hfrozen : patch.frozen = [])
    (h : Underway V.project job.jobId base s failed w)
    (hf : ∀ r w', Underway V.project job.jobId base t failed w' →
      SafeAlone E Q (f r) w') :
    SafeAlone E Q (writeStatus V site basis job.jobId t patch >>= f) w := by
  refine step_alone fun fault hadm => ?_
  obtain rfl : fault = false := hadm
  exact hf _ _ (h.write hfrozen)

/-- An event of the call, and what follows. -/
theorem report_alone {Q : Except Raised α → World → Prop} {e : EventEnvelope}
    {f : Unit → Proc α} (h : Underway V.project job.jobId base s failed w)
    (hf : ∀ w', Underway V.project job.jobId base s failed w' →
      SafeAlone E Q (f ()) w') :
    SafeAlone E Q (report V e >>= f) w :=
  idle_alone rfl h fun _ h' => hf _ h'

/-- The stored job that is read has the status. -/
theorem Underway.status_read {fault : Bool} {current : ExecutionJob}
    {p : ProjectId} {j : JobId} (h : Underway p j base s failed w)
    (hread : ((Op.getJob p j).apply E fault w.data).2 =
      (Except.ok current : Except DomainError ExecutionJob)) :
    current.status = s := by
  have hstatus := h.status
  unfold Data.status at hstatus
  rw [job_of_getJob hread] at hstatus
  exact Option.some.inj hstatus

/-- A rejected capture closes. -/
theorem rejectCandidateCapture_alone (hid : call.jobId = job.jobId)
    (errors : List DomainError)
    (h : Underway V.project job.jobId base s failed w)
    (hraise : ¬ callRaises E V call d₀) :
    SafeAlone E (fun _ => Handed E V call d₀)
      (rejectCandidateCapture V call job sid errors) w := by
  unfold rejectCandidateCapture
  refine idle_alone rfl h fun _ h => ?_
  refine write_alone rfl h fun _ _ h => ?_
  refine report_alone h fun _ h => ?_
  exact h.handed_of_closed hid (by decide) hraise

/-- A rejection closes, whether it writes or finds the job terminal. -/
theorem rejectCompletion_alone (hid : call.jobId = job.jobId)
    (verification : VerificationResult) (errors : List DomainError)
    (h : Underway V.project job.jobId base s failed w)
    (hraise : ¬ callRaises E V call d₀) :
    SafeAlone E (fun _ => Handed E V call d₀)
      (rejectCompletion V call job sid verification errors) w := by
  have hreject : ∀ (repair : Bool × Option String) {w : World} {basis patch},
      Underway V.project job.jobId base s failed w → patch.frozen = [] →
      SafeAlone E (fun _ => Handed E V call d₀)
        (do
          let _ ← writeStatus V .completionRejected basis job.jobId
            (if repair.1 then .completionRejected else .failed) patch
          report V (submissionEvent call 5 "ExecutionCompletionRejected" job sid)
          return ({ accepted := false, errors := errors } : CompletionResult)) w := by
    intro repair w basis patch h hfrozen
    refine write_alone hfrozen h fun _ _ h => ?_
    refine report_alone h fun _ h => ?_
    refine h.handed_of_closed hid ?_ hraise
    split <;> decide
  unfold rejectCompletion
  refine idle_alone rfl h fun fault h' => ?_
  split
  next => exact hreject _ h' rfl
  next current hread =>
    split
    next hterminal =>
      refine report_alone h' fun _ h' => ?_
      refine h'.handed_of_closed hid ?_ hraise
      rintro rfl
      rw [h.status_read hread] at hterminal
      cases hterminal
    next => exact hreject _ h' rfl

/-- Recording the end of the validation leaves everything where it is. -/
theorem recordValidationFinished_alone {Q : Except Raised α → World → Prop}
    {f : Unit → Proc α} (h : Underway V.project job.jobId base s failed w)
    (hf : ∀ w', Underway V.project job.jobId base s failed w' →
      SafeAlone E Q (f ()) w') :
    SafeAlone E Q (recordValidationFinished V call job sid >>= f) w := by
  refine Safe.bind ?_
  unfold recordValidationFinished
  refine report_alone h fun w h => ?_
  refine idle_alone rfl h fun fault h' => ?_
  split
  next => exact hf _ h'
  next current hread =>
    refine write_alone rfl h' fun _ _ h' => ?_
    exact hf _ (h.status_read hread ▸ h')

/-- What a transaction leaves: the status it found, Git where it was, and
a committed journal where it answers that it accepted. -/
structure Transacted (p : ProjectId) (j : JobId) (d₀ : Data)
    (s : ExecutionJobStatus) (failed accepted : Bool) (w : World) : Prop where
  status : w.data.status p j = some s
  git : ∀ r, (w.data.repos r).git.isSome = (d₀.repos r).git.isSome
  read : sealReadFailed w.history = failed
  committed : accepted = true ↔ ∃ e ∈ w.history, e.commitsJournal = true

/-- An operation of a transaction, or of the call around it, that commits no
journal. -/
theorem Transacted.step {p : ProjectId} {j : JobId} {accepted : Bool}
    (h : Transacted p j d₀ s failed accepted w) (fault : Bool) (o : Op)
    (hjobs : o.writesJobs = false) (hread : Entry.readFails ⟨0, fault, o, w.data⟩ = false)
    (hcommits : Entry.commitsJournal ⟨0, fault, o, w.data⟩ = false) :
    Transacted p j d₀ s failed accepted (w.step E 0 fault o).1 where
  status := by
    rw [← h.status]
    unfold Data.status Data.job
    rw [World.step_data, jobs_apply hjobs]
  git r := by rw [World.step_data, git_isSome_apply, h.git]
  read := by
    rw [World.step_history, sealReadFailed, hread, Bool.false_and,
      Bool.false_or, h.read]
  committed := by
    rw [h.committed, World.step_history, List.exists_mem_cons_iff, hcommits]
    simp only [Bool.false_eq_true, false_or]

theorem Transacted.work {p : ProjectId} {j : JobId} {accepted fault : Bool}
    {o : Op} (ho : o.isWork = true) (h : Transacted p j d₀ s failed accepted w) :
    Transacted p j d₀ s failed accepted (w.step E 0 fault o).1 := by
  refine h.step fault o ?_ ?_ ?_
  all_goals cases o <;> first | rfl | cases ho

/-- A part of a transaction that only works, and what follows. -/
theorem work_alone {β : Type} {Q : Except Raised α → World → Prop}
    {p : ProjectId} {j : JobId} {work : Proc β} {f : β → Proc α}
    (huses : Uses (fun o => o.isWork = true) work) (hreturns : work.Returns)
    (h : Transacted p j d₀ s failed false w)
    (hf : ∀ b w', Transacted p j d₀ s failed false w' → SafeAlone E Q (f b) w') :
    SafeAlone E Q (work >>= f) w := by
  have hwork : SafeAlone E (fun _ => Transacted p j d₀ s failed false) work w := by
    refine Safe.of_uses ?_ ?_ huses h
    · intro u v hu hv
      exact (hv rfl : v = u) ▸ hu
    · intro o v fault ho hv _
      exact ⟨rfl, hv.work ho⟩
  refine Safe.bind (Safe.mono (hwork.returns hreturns) ?_)
  rintro _ w' ⟨b, rfl, h'⟩
  exact hf b w' h'

/-- The end of the write that commits a journal. -/
theorem Transacted.commit {p : ProjectId} {j : JobId}
    {r : TransactionJournalRecord} (h : Transacted p j d₀ s failed false w)
    (hstatus : r.status = .committed) :
    Transacted p j d₀ s failed true
      (w.step E 0 false (.syncJournal p r)).1 where
  status := h.status
  git := h.git
  read := by
    rw [World.step_history, sealReadFailed, h.read]
    rfl
  committed := by
    refine iff_of_true rfl ⟨_, List.mem_cons_self, ?_⟩
    simp [Entry.commitsJournal, hstatus]

/-- A write of a journal record, and what follows: it is a commit exactly
when the record is one and the write answers no error. -/
theorem writeRecord_alone {Q : Except Raised α → World → Prop} {p : ProjectId}
    {j : JobId} {r : TransactionJournalRecord}
    {f : Except DomainError Unit → Proc α}
    (h : Transacted p j d₀ s failed false w)
    (hf : ∀ answer : Except DomainError Unit, ∀ w',
      Transacted p j d₀ s failed (r.status = .committed && answer.isOk) w' →
      SafeAlone E Q (f answer) w') :
    SafeAlone E Q (writeRecord p r >>= f) w := by
  refine Safe.bind (step_alone fun fault _ => ?_)
  have hwritten := h.step (E := E) fault (.writeJournal p r) rfl rfl rfl
  split
  next error _ => exact hf (.error error) _ (by
      simpa [Except.isOk, Except.toBool] using hwritten)
  next =>
    refine step_alone (f := .ret) fun fault _ => ?_
    cases fault with
    | true =>
        refine hf (.error _) _ ?_
        simpa [Except.isOk, Except.toBool] using hwritten.step (E := E) true
          (.syncJournal p r) rfl rfl (by simp [Entry.commitsJournal])
    | false =>
        refine hf (.ok ()) _ ?_
        cases hcommit : decide (r.status = .committed) with
        | false =>
            exact hwritten.step (E := E) false (.syncJournal p r) rfl rfl
              (by simpa [Entry.commitsJournal] using hcommit)
        | true => exact hwritten.commit (of_decide_eq_true hcommit)

/-- A transaction that is given up has not committed. -/
theorem abort_alone (R : FileTransactionRuntime) {j : JobId}
    (hcomp : ∀ f, R.compensateEffect = some f →
      ∀ e, Uses (fun o => o.isEffect = true) (f e))
    (record : TransactionJournalRecord) (applied : List (Nat × Effect))
    (error : DomainError) (h : Transacted R.project j d₀ s failed false w) :
    SafeAlone E (fun out w' => ∃ result, out = .ok result ∧
        Transacted R.project j d₀ s failed result.accepted w')
      (R.abort record applied error) w := by
  refine writeRecord_alone (r := { record with status := .failed, error := some error })
    h fun _ w' h' => ?_
  refine work_alone (compensate_uses R hcomp _ _) (compensate_returns R _ _) h'
    fun _ w' h' => ?_
  exact ⟨_, rfl, h'⟩

/-- A transaction answers that it accepted exactly when its journal is
committed. -/
theorem apply_alone (R : FileTransactionRuntime) {j : JobId}
    (happly : ∀ e, Uses (fun o => o.isEffect = true) (R.applyEffect e))
    (hcomp : ∀ f, R.compensateEffect = some f →
      ∀ e, Uses (fun o => o.isEffect = true) (f e))
    (hvalid : ∀ v, R.validateFinalState = some v →
      Uses (fun o => o.isEffect = true) v)
    (record : TransactionJournalRecord) (hprepared : record.status = .prepared)
    (h : Transacted R.project j d₀ s failed false w) :
    SafeAlone E (fun out w' => ∃ result, out = .ok result ∧
        Transacted R.project j d₀ s failed result.accepted w')
      (R.apply record) w := by
  refine writeRecord_alone h fun _ w h' => ?_
  rw [hprepared] at h'
  split
  next => exact ⟨_, rfl, h'⟩
  next =>
    refine work_alone (applyEffects_uses R happly _ _ _ _)
      (applyEffects_returns R _ _ _ _) h' fun applied w h => ?_
    obtain ⟨applied, failure⟩ := applied
    cases failure with
    | some error => exact abort_alone R hcomp record applied error h
    | none =>
      refine work_alone (validate_uses R hvalid) (validate_returns R) h
        fun verdict w h => ?_
      split
      next error => exact abort_alone R hcomp record applied error h
      next =>
        refine work_alone (appendMany_uses
          (S := fun o => o.isWork = true) (fun _ => rfl) rfl _)
          (appendMany_returns _ _) h fun appended w h => ?_
        split
        next error => exact abort_alone R hcomp record applied error h
        next =>
          -- the last write of the journal decides
          refine writeRecord_alone (r := { record with status := .committed, error := none })
            h fun answer w h => ?_
          cases answer with
          | error error => exact ⟨_, rfl, h⟩
          | ok _ => exact ⟨_, rfl, h⟩

/-- The closing status of a transaction, or the look at the accepted commit
that raises. -/
theorem conclude_alone (hid : call.jobId = job.jobId)
    (transaction : TransactionApplyResult)
    (h : Transacted V.project job.jobId d₀ s failed transaction.accepted w)
    (hs : failed = false ↔ s = .completionSubmitted)
    (hraise : ¬ callRaises E V call d₀) :
    SafeAlone E (fun _ => Handed E V call d₀)
      (conclude E V call job sid transaction) w := by
  have hstored : ∀ {w : World} {site basis t patch fault},
      Transacted V.project job.jobId d₀ s failed transaction.accepted w →
      jobWritesSucceed.step 0 fault
        (.updateStatus V.project site basis job.jobId t patch false) w →
      patch.frozen = [] → t ≠ .completionSubmitted →
      (gitUnavailable E V d₀ = false ∨ transaction.accepted = false) →
      Handed E V call d₀ (w.step E 0 fault
        (.updateStatus V.project site basis job.jobId t patch false)).1 := by
    intro w site basis t patch fault h hadm hfrozen ht hgit
    obtain rfl : fault = false := hadm
    have hstatus := @status_updateStatus E w.data V.project site basis job.jobId
      t patch false s h.status hfrozen
    refine handed_of_closed (by rw [hid]; exact hstatus) ht hraise ?_
    refine hgit.imp_right fun hrejected => ?_
    refine List.forall_mem_cons.mpr ⟨rfl, fun e he => ?_⟩
    by_contra hcommit
    rw [hrejected] at h
    cases h.committed.mpr ⟨e, he, by simpa using hcommit⟩
  unfold conclude
  split
  next haccepted =>
    refine step_alone fun fault _ => ?_
    have h' := h.step (E := E) fault .look rfl rfl rfl
    have hgit : gitUnavailable E V w.data = gitUnavailable E V d₀ :=
      gitUnavailable_congr h.git
    split
    next hraised =>
      exact handed_of_raised (hid ▸ h'.status) h'.read hs
        (Or.inr ⟨hgit ▸ hraised, h'.committed.mp haccepted⟩)
    next havailable =>
      refine step_alone fun fault hadm => ?_
      exact hstored h' hadm rfl (by decide)
        (Or.inl (hgit ▸ Bool.not_eq_true _ ▸ havailable))
  next hrejected =>
    refine step_alone fun fault _ => ?_
    have h' := h.step (E := E) fault
      (.appendEvent V.project
        (submissionEvent call 6 "ExecutionCompletionAcceptanceFailed" job sid))
      rfl rfl rfl
    refine step_alone fun fault hadm => ?_
    exact hstored h' hadm rfl (by decide) (Or.inr (by simpa using hrejected))

/-- From where the call is underway a transaction starts uncommitted. -/
theorem Underway.transacted (hbase : base.repos = d₀.repos)
    (h : Underway V.project job.jobId base s failed w) :
    Transacted V.project job.jobId d₀ s failed false w where
  status := h.status
  git r := by rw [h.ground.repos, hbase]
  read := h.read
  committed := by
    refine iff_of_false (by decide) ?_
    rintro ⟨e, he, hcommit⟩
    rw [h.uncommitted e he] at hcommit
    cases hcommit

/-- What the body of the publication lock leaves: a rejection or a raise is
the end of the call, a transaction is not. -/
def Published (E : Env) (V : CompletionService) (call : SubmitCall) (d₀ : Data)
    (s : ExecutionJobStatus) (failed : Bool) :
    Except Raised (Sum CompletionResult TransactionApplyResult) → World → Prop
  | .ok (.inr transaction), w => ¬ callRaises E V call d₀ ∧
      Transacted V.project call.jobId d₀ s failed transaction.accepted w
  | _, w => Handed E V call d₀ w

/-- The body of the publication lock. -/
theorem publish_alone (hid : call.jobId = job.jobId)
    (contract : Option ExecutionContract) (transition : TransitionDefinition)
    (verification : VerificationResult) (candidate : Candidate) (out : RelPath)
    (delivery : DeliveryPlan) (hbase : base.repos = d₀.repos)
    (h : Underway V.project job.jobId base s failed w)
    (hs : failed = false ↔ s = .completionSubmitted)
    (hraise : callRaises E V call d₀ ↔ publishRaises E V call job contract
      transition candidate out delivery base) :
    SafeAlone E (Published E V call d₀ s failed)
      (publish E V call job sid contract transition verification candidate out
        delivery) w := by
  unfold publish
  refine idle_alone rfl h fun _ h' => ?_
  have hplan : planDerived E V call w.data job transition candidate out
      delivery.promotedArtifacts
        = planDerived E V call base job transition candidate out
          delivery.promotedArtifacts := h.ground.planDerived _ _ _ _
  unfold publishRaises at hraise
  rw [← hplan] at hraise
  show SafeAlone E _ (ofExcept (planDerived E V call w.data job transition
    candidate out delivery.promotedArtifacts) >>= _) _
  cases hplanned : planDerived E V call w.data job transition candidate out
      delivery.promotedArtifacts with
  | error e =>
      rw [hplanned] at hraise
      exact h'.handed_of_raised hid hs (hraise.mpr trivial)
  | ok planned =>
      rw [hplanned] at hraise
      cases planned with
      | error errors =>
          show SafeAlone E _ (rejectCompletion V call job sid verification errors
            >>= _) _
          refine Safe.bind (Safe.mono
            (rejectCompletion_alone hid verification errors h' hraise.mp) ?_)
          rintro (e | rejected) w' hw'
          · exact hw'
          · exact hw'
      | ok derived =>
          have hrevision : revisionUnavailable E V w.data job contract
              = revisionUnavailable E V base job contract :=
            h.ground.revisionUnavailable contract
          show SafeAlone E _ (if revisionUnavailable E V w.data job contract then
            _ else _) _
          split
          next hunavailable =>
            exact h'.handed_of_raised hid hs
              (hraise.mpr (hrevision ▸ hunavailable))
          next havailable =>
            have hnot : ¬ callRaises E V call d₀ :=
              fun hcall => havailable (hrevision ▸ hraise.mp hcall)
            refine Safe.bind ?_
            refine step_alone fun fault _ => ?_
            have hstart := (h'.transacted hbase).step (E := E) fault
              .look rfl rfl rfl
            refine Safe.mono (apply_alone
              (acceptanceRuntime E V job _) (applyEffect_uses E V)
              (acceptanceRuntime_compensates E V job _)
              (acceptanceRuntime_validates E V job _) _ rfl hstart) ?_
            rintro _ w' ⟨transaction, rfl, h⟩
            exact ⟨hnot, hid ▸ h⟩

/-- The answer of the target check. -/
theorem checkTarget_alone (contract : Option ExecutionContract)
    (h : Underway V.project job.jobId base s failed w) :
    SafeAlone E (fun out w' => ∃ answer, out = .ok answer ∧
        Underway V.project job.jobId base s failed w' ∧
        (answer = .ok () ↔ targetAccepted E V contract base))
      (checkTarget V contract) w := by
  unfold checkTarget targetAccepted
  cases V.repo with
  | none => exact ⟨_, rfl, h, by simp⟩
  | some r =>
      cases contract with
      | none => exact ⟨_, rfl, h, by simp⟩
      | some c =>
          intro v hv fault _ _
          obtain rfl := hv rfl
          refine ⟨rfl, _, rfl, h.idle rfl, ?_⟩
          simp only [machine, World.step_res, Op.apply, h.ground.repos,
            Option.some.injEq]
          grind

/-- From the planned delivery to the end: the target is checked, and the
publication lock is taken. -/
theorem checked_alone (hid : call.jobId = job.jobId)
    (contract : Option ExecutionContract) (transition : TransitionDefinition)
    (verification : VerificationResult) (candidate : Candidate) (out : RelPath)
    (delivery : DeliveryPlan) (hbase : base.repos = d₀.repos)
    (h : Underway V.project job.jobId base s failed w)
    (hs : failed = false ↔ s = .completionSubmitted)
    (hraise : callRaises E V call d₀ ↔ targetAccepted E V contract base ∧
      publishRaises E V call job contract transition candidate out delivery base) :
    SafeAlone E (fun _ => Handed E V call d₀)
      (do
        match ← checkTarget V contract with
        | .error errors =>
            rejectCompletion V call job sid verification errors
        | .ok () =>
            perform (.lock (.publication V.project))
            let published ← (publish E V call job sid contract transition
              verification candidate out delivery).ensure
                (do perform (.unlock (.publication V.project)); return ⟨⟩)
            match published with
            | .inl rejected => return rejected
            | .inr transaction => conclude E V call job sid transaction) w := by
  refine Safe.bind (Safe.mono (checkTarget_alone contract h) ?_)
  rintro _ w ⟨answer, rfl, h, hanswer⟩
  cases answer with
  | error errors =>
      refine rejectCompletion_alone hid verification errors h fun hcall => ?_
      cases hanswer.mpr (hraise.mp hcall).1
  | ok _ =>
      rw [iff_true_intro (hanswer.mp rfl), true_and] at hraise
      refine idle_alone rfl h fun _ h => ?_
      refine Safe.bind (Safe.ensure (Safe.mono (publish_alone hid contract transition
        verification candidate out delivery hbase h hs hraise) ?_))
      intro outcome w' hpublished
      refine step_alone fun fault _ => ?_
      cases outcome with
      | error e => exact Handed.unlock hpublished
      | ok published =>
          cases published with
          | inl rejected => exact Handed.unlock hpublished
          | inr transaction =>
              exact conclude_alone hid transaction
                (hid ▸ hpublished.2.step _ _ rfl rfl rfl) hs hpublished.1

/-- From the verified candidate to the end. -/
theorem deliver_alone (hid : call.jobId = job.jobId)
    (contract : Option ExecutionContract) (transition : TransitionDefinition)
    (verification : VerificationResult) (candidate : Candidate) (out : RelPath)
    (hbase : base.repos = d₀.repos)
    (h : Underway V.project job.jobId base s failed w)
    (hs : failed = false ↔ s = .completionSubmitted)
    (hraise : callRaises E V call d₀ ↔ deliverRaises E V call job contract
      transition candidate out base) :
    SafeAlone E (fun _ => Handed E V call d₀)
      (deliver E V call job sid contract transition verification candidate out)
      w := by
  unfold deliver
  refine idle_alone rfl h fun _ h' => ?_
  have hshadowed : shadowedPaths w.data V contract (artifactPaths out call.submission)
      = shadowedPaths base V contract (artifactPaths out call.submission) :=
    h.ground.shadowedPaths contract _
  unfold deliverRaises at hraise
  rw [← hshadowed] at hraise
  show SafeAlone E _ (if shadowedPaths w.data V contract
    (artifactPaths out call.submission) ≠ [] then _ else _) _
  split
  next hoverlap =>
    exact rejectCompletion_alone hid verification _ h'
      fun hcall => hoverlap (hraise.mp hcall).1
  next hclear =>
    rw [iff_true_intro (not_not.mp hclear), true_and] at hraise
    refine idle_alone rfl h' fun _ h'' => ?_
    have hplan : planDelivery E V w.data job call.submission candidate out
        = planDelivery E V base job call.submission candidate out :=
      h.ground.planDelivery _ _ _
    rw [← hplan] at hraise
    show SafeAlone E _ (ofExcept (planDelivery E V w.data job call.submission
      candidate out) >>= _) _
    cases hdelivery : planDelivery E V w.data job call.submission candidate out with
    | error e =>
        rw [hdelivery] at hraise
        exact h''.handed_of_raised hid hs (hraise.mpr trivial)
    | ok delivery =>
        rw [hdelivery] at hraise
        exact checked_alone hid contract transition verification candidate out
          delivery hbase h'' hs hraise

/-- What the seal and the read after it leave. -/
theorem seal_alone {Q : Except Raised α → World → Prop} {candidate : Candidate}
    {files : FileTree} {f : Except DomainError ExecutionJob → Proc α}
    (h : Underway V.project job.jobId d₀ .completionSubmitted false w)
    (hf : ∀ answer failed w',
      (failed = true ∧ ∃ e, answer = .error e) ∨
        (failed = false ∧ ∃ current : ExecutionJob, answer = .ok current ∧
          current.status = .completionSubmitted) →
      Underway V.project job.jobId (sealed d₀ candidate files)
        .completionSubmitted failed w' →
      SafeAlone E Q (f answer) w') :
    SafeAlone E Q (perform (.sealCandidate candidate.storage files) >>=
      fun _ => perform (.getJob V.project job.jobId) >>= f) w := by
  refine step_alone fun fault _ => ?_
  refine step_alone fun fault' _ => ?_
  have hstatus : (w.step E 0 fault (.sealCandidate candidate.storage files)).1.data.status
      V.project job.jobId = some .completionSubmitted := h.status
  obtain ⟨current, hget, hcurrent⟩ := Option.map_eq_some_iff.mp hstatus
  refine hf _ fault' _ ?_ ⟨?_, ?_, ?_, rfl, ?_⟩
  · cases fault' with
    | true => exact Or.inl ⟨rfl, _, rfl⟩
    | false =>
        exact Or.inr ⟨rfl, current, getJob_of_job hget, hcurrent⟩
  · exact hstatus
  · refine ⟨h.ground.tracker, h.ground.artifacts, h.ground.repos, ?_⟩
    show Function.update w.data.storages candidate.storage files = _
    rw [h.ground.storages]
    rfl
  · exact List.forall_mem_cons.mpr ⟨rfl, List.forall_mem_cons.mpr ⟨rfl, h.uncommitted⟩⟩
  · rw [World.step_history, World.step_history]
    simp [sealReadFailed, Entry.readFails, Entry.seals, Op.seals, h.read]

/-- From the sealed candidate to the end. -/
theorem verified_alone (hid : call.jobId = job.jobId)
    (contract : Option ExecutionContract) (transition : TransitionDefinition)
    (candidate : Candidate) (hbase : base.repos = d₀.repos)
    (h : Underway V.project job.jobId base s failed w)
    (hs : failed = false ↔ s = .completionSubmitted)
    (hraise : callRaises E V call d₀ ↔
      match verifyCandidate E call job with
      | .error _ => True
      | .ok (out, verification) => verification.accepted = true ∧
          deliverRaises E V call job contract transition candidate out base) :
    SafeAlone E (fun _ => Handed E V call d₀)
      (match verifyCandidate E call job with
      | .error e => do
          recordValidationFinished V call job sid
          .raise e
      | .ok (outputRelative, verification) => do
          recordValidationFinished V call job sid
          if verification.accepted then
            deliver E V call job sid contract transition verification candidate
              outputRelative
          else rejectCompletion V call job sid verification verification.errors)
      w := by
  cases hverified : verifyCandidate E call job with
  | error e =>
      rw [hverified] at hraise
      refine recordValidationFinished_alone h fun w h => ?_
      exact h.handed_of_raised hid hs (hraise.mpr trivial)
  | ok verified =>
      obtain ⟨out, verification⟩ := verified
      rw [hverified] at hraise
      refine recordValidationFinished_alone h fun w h => ?_
      split
      next haccepted =>
        simp only [haccepted, true_and] at hraise
        exact deliver_alone hid contract transition verification candidate out
          hbase h hs hraise
      next hrejected =>
        exact rejectCompletion_alone hid verification _ h
          fun hcall => hrejected (hraise.mp hcall).1

/-- From the mark to the end. -/
theorem validateSubmission_alone (hid : call.jobId = job.jobId)
    (contract : Option ExecutionContract) (transition : TransitionDefinition)
    (h : Underway V.project job.jobId d₀ job.status false w)
    (hstatus : job.status ≠ .completionSubmitted)
    (hraise : callRaises E V call d₀ ↔
      stageRaises E V call job contract transition d₀) :
    SafeAlone E (fun _ => Handed E V call d₀)
      (validateSubmission E V call job sid contract transition) w := by
  unfold validateSubmission
  refine report_alone h fun w h => ?_
  refine write_alone rfl h fun _ w h => ?_
  refine report_alone h fun w h => ?_
  have hfresh : false = false ↔
      ExecutionJobStatus.completionSubmitted = .completionSubmitted := by simp
  unfold captureCompletionCandidate
  unfold stageRaises at hraise
  cases hcaptured : call.captured with
  | error e =>
      rw [hcaptured] at hraise
      exact h.handed_of_raised hid hfresh (hraise.mpr trivial)
  | ok captured =>
      rw [hcaptured] at hraise
      cases captured with
      | error errors =>
          exact rejectCandidateCapture_alone hid errors h hraise.mp
      | ok sealing =>
          obtain ⟨candidate, files⟩ := sealing
          refine Safe.bind ?_
          refine seal_alone h fun answer failed w hanswer h => ?_
          -- the status written back is the one from before the call when
          -- the read failed
          refine write_alone rfl h fun _ w h => ?_
          refine report_alone h fun w h => ?_
          have hbase : (sealed d₀ candidate files).repos = d₀.repos := rfl
          refine verified_alone hid contract transition candidate hbase h ?_ hraise
          rcases hanswer with ⟨rfl, e, rfl⟩ | ⟨rfl, current, rfl, hcurrent⟩
          · simp [hstatus]
          · simp [hcurrent]

/-- A call of `submit` from its start: once it has marked the job it leaves
it in validation exactly when it strands it. -/
theorem submit_alone :
    SafeAlone E (fun _ w' =>
        (∃ e ∈ w'.history, e.enters V.project call.jobId = true) →
          Handed E V call d₀ w')
      (submit E V call) { data := d₀ } := by
  -- a call that ends before its mark has nothing to show
  have hearly : ∀ {answer : CompletionResult} {w : World},
      (∀ e ∈ w.history, e.enters V.project call.jobId = false) →
      SafeAlone E (fun _ w' =>
          (∃ e ∈ w'.history, e.enters V.project call.jobId = true) →
            Handed E V call d₀ w') (Prog.ret answer) w := by
    rintro answer w hnone ⟨e, he, henters⟩
    rw [hnone e he] at henters
    cases henters
  unfold submit
  refine step_alone fun fault _ => ?_
  have hnone : ∀ e ∈ (World.step E 0 fault (.getJob V.project call.jobId)
      { data := d₀ }).1.history, e.enters V.project call.jobId = false := by
    intro e he
    obtain rfl := List.mem_singleton.mp he
    rfl
  split
  next => exact hearly hnone
  next job hread =>
    have hjob : d₀.job V.project call.jobId = some job := job_of_getJob hread
    have hid : call.jobId = job.jobId := (Table.key_of_get hjob).symm
    have hreport : ∀ {e : EventEnvelope} {answer : CompletionResult},
        SafeAlone E (fun _ w' =>
            (∃ e ∈ w'.history, e.enters V.project call.jobId = true) →
              Handed E V call d₀ w')
          (do report V e; return answer)
          (World.step E 0 fault (.getJob V.project call.jobId) { data := d₀ }).1 := by
      intro e answer
      refine step_alone fun fault' _ => hearly ?_
      exact List.forall_mem_cons.mpr ⟨rfl, hnone⟩
    unfold submitJob
    split
    next =>
      split
      · exact hearly hnone
      · exact hearly hnone
    next =>
      split
      next => exact hearly hnone
      next =>
        split
        next => exact hearly hnone
        next hstatus =>
          split
          next => exact hreport
          next =>
            split
            next => exact hreport
            next =>
              split
              next => exact hearly hnone
              next contract transition hadmit =>
                have hunder : Underway V.project job.jobId d₀ job.status false
                    (World.step E 0 fault (.getJob V.project call.jobId)
                      { data := d₀ }).1 := by
                  refine ⟨?_, ⟨rfl, rfl, rfl, rfl⟩, ?_, rfl,
                    by simp [sealReadFailed]⟩
                  · show d₀.status V.project job.jobId = some job.status
                    rw [← hid]
                    exact congrArg _ hjob
                  · exact List.forall_mem_cons.mpr ⟨rfl, fun e he => by cases he⟩
                have hraise : callRaises E V call d₀ ↔
                    stageRaises E V call job contract transition d₀ := by
                  constructor
                  · rintro ⟨job', contract', transition', hjob', hadmit', hraise⟩
                    obtain rfl := Option.some.inj (hjob.symm.trans hjob')
                    cases hadmit.symm.trans hadmit'
                    exact hraise
                  · exact fun hraise => ⟨_, _, _, hjob, hadmit, hraise⟩
                refine Safe.mono (validateSubmission_alone hid contract transition
                  hunder hstatus hraise) ?_
                exact fun _ _ hhanded _ => hhanded

end Stages

-- ============================================================ the theorem

/-- The call of process zero has ended, by returning or by raising. -/
def Ended (c : Config Pid Op Op.Res Raised Unit World) : Prop :=
  c.procs 0 = some (.ret ()) ∨ ∃ e, c.procs 0 = some (.raise e)

/-- A call on its own, whose job-store writes succeed, that ends after it has
marked its job does not leave the job in validation. -/
def NeverStrands (E : Env) : Prop :=
  ∀ (V : CompletionService) (call : SubmitCall) (d : Data)
    (c' : Config Pid Op Op.Res Raised Unit World),
    Run (machine E) jobWritesSucceed
      (system d [do let _ ← submit E V call]) c' → Ended c' →
    (∃ e ∈ c'.world.history, e.enters V.project call.jobId = true) →
    c'.world.data.status V.project call.jobId ≠ some .completionSubmitted

/-- Outside answers for a job whose output folder is not in its workspace. -/
def noOutputEnv : Env :=
  { smallEnv with outputRelative := fun _ => none }

/-- The call of the small project on its own, where the output folder is
missing. -/
def noOutputSystem : Config Pid Op Op.Res Raised Unit World :=
  system (smallData .running)
    [do let _ ← submit noOutputEnv ⟨"p", none, 2⟩ (smallCall "a")]

/-- It raises after its mark and leaves the job in validation. -/
theorem exists_stranding_run :
    ∃ c', Run (machine noOutputEnv) jobWritesSucceed noOutputSystem c' ∧
      Ended c' ∧ (∃ e ∈ c'.world.history, e.enters "p" "j" = true) ∧
      c'.world.data.status "p" "j" = some .completionSubmitted := by
  obtain ⟨c', hrun, hP⟩ := Par.exists_admitted_run_of_nexts
    (M := machine noOutputEnv) (A := jobWritesSucceed) (c := noOutputSystem)
    (l := List.replicate 11 (.step 0 false))
    (P := fun c' =>
      ((c'.procs 0).bind Prog.answer?).any (!·.isOk) &&
      c'.world.history.any (·.enters "p" "j") &&
      c'.world.data.status "p" "j" = some .completionSubmitted)
    (by
      intro x hx
      obtain rfl := List.eq_of_mem_replicate hx
      intro o w
      cases o <;> first | exact rfl | trivial)
    (by decide +kernel)
  simp only [Bool.and_eq_true, decide_eq_true_eq, List.any_eq_true] at hP
  obtain ⟨⟨hraised, hmarked⟩, hstatus⟩ := hP
  refine ⟨c', hrun, Or.inr ?_, hmarked, hstatus⟩
  obtain ⟨answer, hanswer, hraise⟩ := (Option.any_eq_true _ _).mp hraised
  obtain ⟨p, hproc, hended⟩ := Option.bind_eq_some_iff.mp hanswer
  cases answer with
  | ok result => cases hraise
  | error e =>
      obtain rfl := Prog.eq_raise_of_answer? hended
      exact ⟨e, hproc⟩

end OpenTulid
