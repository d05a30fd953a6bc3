/-
What one operation leaves alone, store by store, and what it does to the
store it writes.

Each store of `Data` has one frame lemma: an operation that does not write
the store leaves it as it is. The job store has more: a status write sets
the status it names and nothing else moves a status.
-/
import OpenTulid.World

namespace OpenTulid

variable {E : Env} {fault : Bool} {o : Op} {d : Data}

-- ========================================================= histories

/-- Everything a process has done so far, last first. -/
def own (i : Pid) (history : List Entry) : List Entry :=
  history.filter fun e => e.pid = i

/-- The entry marks the job submitted. -/
def Entry.enters (p : ProjectId) (j : JobId) (e : Entry) : Bool :=
  match e.op with
  | .updateStatus q .completionSubmitted _ id _ _ _ => q = p && id = j
  | _ => false

theorem own_cons_self (i : Pid) (fault : Bool) (o : Op) (d : Data)
    (history : List Entry) :
    own i (⟨i, fault, o, d⟩ :: history) = ⟨i, fault, o, d⟩ :: own i history := by
  simp [own]

theorem own_cons_of_ne {i j : Pid} (h : i ≠ j) (fault : Bool) (o : Op)
    (d : Data) (history : List Entry) :
    own j (⟨i, fault, o, d⟩ :: history) = own j history := by
  simp [own, h]

/-- Entries of two processes are different entries. -/
theorem own_countP_add_le {i k : Pid} (hik : i ≠ k) (f : Entry → Bool)
    (history : List Entry) :
    (own i history).countP f + (own k history).countP f
      ≤ history.countP f := by
  induction history with
  | nil => simp [own]
  | cons e rest ih =>
      unfold own at ih ⊢
      simp only [List.filter_cons, List.countP_cons]
      by_cases hi : e.pid = i
      · have hk : e.pid ≠ k := fun h => hik (hi.symm.trans h)
        simp only [hi, decide_true, if_true, List.countP_cons]
        simp only [← hi, hk, decide_false] at ih ⊢
        simp only [Bool.false_eq_true, if_false]
        omega
      · by_cases hk : e.pid = k
        · simp only [hk, decide_true, if_true, List.countP_cons]
          simp only [← hk] at ih hi ⊢
          simp only [hi, decide_false, Bool.false_eq_true, if_false]
          omega
        · simp only [hi, hk, decide_false, Bool.false_eq_true, if_false]
          omega

-- ===================================================== safe programs

/-- A program that starts with an operation is safe if the operation keeps
the guarantee and what follows is safe. -/
theorem safe_perform {A : Par.Admission Pid Op World}
    {C : Par.Contract Pid World} {i : Pid} {α : Type}
    {Q : Except Raised α → World → Prop} {o : Op} {f : o.Res → Proc α}
    {w : World}
    (h : ∀ v, C.rely i w v → ∀ fault, enabled o v = true → A.step i fault o v →
      C.guar i v (v.step E i fault o).1 ∧
        Par.Safe (machine E) A C i Q (f (o.apply E fault v.data).2)
          (v.step E i fault o).1) :
    Par.Safe (machine E) A C i Q (perform o >>= f) w := h

/-- A program that starts with a read is safe if the read keeps the guarantee
and what follows is safe on what was read. -/
theorem safe_read {A : Par.Admission Pid Op World}
    {C : Par.Contract Pid World} {i : Pid} {α β : Type}
    {Q : Except Raised α → World → Prop} {g : Data → β} {f : β → Proc α}
    {w : World}
    (h : ∀ v, C.rely i w v → ∀ fault, A.step i fault .look v →
      C.guar i v (v.step E i fault .look).1 ∧
        Par.Safe (machine E) A C i Q (f (g v.data)) (v.step E i fault .look).1) :
    Par.Safe (machine E) A C i Q (read g >>= f) w :=
  fun v hv fault _ hadm => h v hv fault hadm

-- ======================================================= the projects

/-- A part of a project that a change of the project keeps is kept in every
project. -/
theorem Data.withProject_keeps {β : Type} (part : Project → β) {d : Data}
    {p : ProjectId} {f : Project → Project}
    (h : part (f (d.projects p)) = part (d.projects p)) (q : ProjectId) :
    part ((d.withProject p f).projects q) = part (d.projects q) := by
  by_cases hq : q = p
  · subst hq
    rw [withProject_projects_self, h]
  · rw [withProject_projects_of_ne d hq]

@[simp] theorem Data.setTree_repo_projects (d : Data) (r : RepoId) (t : FileTree) :
    (d.setTree (.repo r) t).projects = d.projects := rfl

@[simp] theorem Data.setTree_artifacts_repos (d : Data) (p : ProjectId)
    (t : FileTree) : (d.setTree (.artifacts p) t).repos = d.repos := rfl

@[simp] theorem Data.setTree_storages (d : Data) (root : Root) (t : FileTree) :
    (d.setTree root t).storages = d.storages := by
  cases root <;> rfl

@[simp] theorem Data.setTree_leases (d : Data) (root : Root) (t : FileTree) :
    (d.setTree root t).leases = d.leases := by
  cases root <;> rfl

-- ======================================================= which store

/-- The operations on the records of jobs. -/
def Op.writesJobs : Op → Bool
  | .updateStatus .. | .recordAttempt .. | .createJob .. => true
  | _ => false

/-- The operations on the journals. -/
def Op.writesJournals : Op → Bool
  | .writeJournal .. => true
  | _ => false

/-- The operations on the event logs. -/
def Op.writesEvents : Op → Bool
  | .appendEvent .. => true
  | _ => false

/-- The operations on the trackers. -/
def Op.writesTracker : Op → Bool
  | .createTask .. | .writeTask .. | .moveTask .. => true
  | _ => false

/-- The operations on the repositories. -/
def Op.writesRepo (r : RepoId) : Op → Bool
  | .fs (.repo s) _ => s = r
  | .commit s _ _ => s = r
  | _ => false

/-- The operations on the leases. -/
def Op.writesLeases : Op → Bool
  | .writeLease _ | .removeLease _ => true
  | _ => false

/-- Operations outside the job stores leave them. -/
theorem jobs_apply (h : o.writesJobs = false) (p : ProjectId) :
    ((o.apply E fault d).1.projects p).jobs = (d.projects p).jobs := by
  cases o with
  | updateStatus | recordAttempt | createJob => cases h
  | fs root w =>
      simp only [Op.apply]
      split
      · rfl
      · split
        · rfl
        · cases root with
          | repo r => rfl
          | artifacts q =>
              dsimp only [Data.setTree]
              exact Data.withProject_keeps Project.jobs rfl p
  | _ =>
      simp only [Op.apply]
      repeat' split
      all_goals first
        | rfl
        | (dsimp only; exact Data.withProject_keeps Project.jobs rfl p)

/-- Operations outside the journal stores leave them. -/
theorem journals_apply (h : o.writesJournals = false) (p : ProjectId) :
    ((o.apply E fault d).1.projects p).journals = (d.projects p).journals := by
  cases o with
  | writeJournal => cases h
  | fs root w =>
      simp only [Op.apply]
      split
      · rfl
      · split
        · rfl
        · cases root with
          | repo r => rfl
          | artifacts q =>
              dsimp only [Data.setTree]
              exact Data.withProject_keeps Project.journals rfl p
  | _ =>
      simp only [Op.apply]
      repeat' split
      all_goals first
        | rfl
        | (dsimp only; exact Data.withProject_keeps Project.journals rfl p)

/-- Operations outside the event logs leave them. -/
theorem events_apply (h : o.writesEvents = false) (p : ProjectId) :
    ((o.apply E fault d).1.projects p).events = (d.projects p).events := by
  cases o with
  | appendEvent => cases h
  | fs root w =>
      simp only [Op.apply]
      split
      · rfl
      · split
        · rfl
        · cases root with
          | repo r => rfl
          | artifacts q =>
              dsimp only [Data.setTree]
              exact Data.withProject_keeps Project.events rfl p
  | _ =>
      simp only [Op.apply]
      repeat' split
      all_goals first
        | rfl
        | (dsimp only; exact Data.withProject_keeps Project.events rfl p)

/-- Operations outside the trackers leave them. -/
theorem tracker_apply (h : o.writesTracker = false) (p : ProjectId) :
    ((o.apply E fault d).1.projects p).tracker = (d.projects p).tracker := by
  cases o with
  | createTask | writeTask | moveTask => cases h
  | fs root w =>
      simp only [Op.apply]
      split
      · rfl
      · split
        · rfl
        · cases root with
          | repo r => rfl
          | artifacts q =>
              dsimp only [Data.setTree]
              exact Data.withProject_keeps Project.tracker rfl p
  | _ =>
      simp only [Op.apply]
      repeat' split
      all_goals first
        | rfl
        | (dsimp only; exact Data.withProject_keeps Project.tracker rfl p)

/-- The operations on the artifacts of a project. -/
def Op.writesArtifacts (p : ProjectId) : Op → Bool
  | .fs (.artifacts q) _ => q = p
  | _ => false

/-- Operations outside a project's artifacts leave them. -/
theorem artifacts_apply {p : ProjectId} (h : o.writesArtifacts p = false) :
    ((o.apply E fault d).1.projects p).artifacts = (d.projects p).artifacts := by
  cases o with
  | fs root w =>
      simp only [Op.apply]
      split
      · rfl
      · split
        · rfl
        · cases root with
          | repo r => rfl
          | artifacts q =>
              have hne : p ≠ q := by
                rintro rfl
                simp [Op.writesArtifacts] at h
              dsimp only [Data.setTree]
              rw [Data.withProject_projects_of_ne d hne]
  | _ =>
      simp only [Op.apply]
      repeat' split
      all_goals first
        | rfl
        | (dsimp only; exact Data.withProject_keeps Project.artifacts rfl p)

/-- The operations on the sealed storages. -/
def Op.seals : Op → Bool
  | .sealCandidate .. => true
  | _ => false

/-- Operations other than sealing leave the sealed storages. -/
theorem storages_apply (h : o.seals = false) :
    (o.apply E fault d).1.storages = d.storages := by
  cases o with
  | sealCandidate => cases h
  | fs root w =>
      simp only [Op.apply]
      split
      · rfl
      · split
        · rfl
        · exact Data.setTree_storages d root _
  | _ =>
      simp only [Op.apply]
      repeat' split
      all_goals rfl

/-- Operations outside a repository leave it. -/
theorem repos_apply {r : RepoId} (h : o.writesRepo r = false) :
    (o.apply E fault d).1.repos r = d.repos r := by
  cases o with
  | fs root w =>
      simp only [Op.apply]
      split
      · rfl
      · split
        · rfl
        · cases root with
          | repo s =>
              have hne : r ≠ s := by
                rintro rfl
                simp [Op.writesRepo] at h
              simp [Data.setTree, Data.withRepo_repos_of_ne d hne]
          | artifacts q => rfl
  | commit s message paths =>
      have hne : r ≠ s := by
        rintro rfl
        simp [Op.writesRepo] at h
      simp only [Op.apply]
      split
      · rfl
      · split
        · rfl
        · simp [Data.withRepo_repos_of_ne d hne]
  | _ =>
      simp only [Op.apply]
      repeat' split
      all_goals rfl

/-- Operations outside the lease store leave it. -/
theorem leases_apply (h : o.writesLeases = false) :
    (o.apply E fault d).1.leases = d.leases := by
  cases o with
  | writeLease | removeLease => cases h
  | fs root w =>
      simp only [Op.apply]
      split
      · rfl
      · split
        · rfl
        · exact Data.setTree_leases d root _
  | _ =>
      simp only [Op.apply]
      repeat' split
      all_goals rfl

-- ========================================================== the jobs

/-- A status write stores the job with the status. -/
theorem JobStore.updateStatus_eq_ok {jobs jobs' : Table ExecutionJob.jobId}
    {id : JobId} {status : ExecutionJobStatus} {patch : MetadataPatch}
    {inc : Bool} {job' : ExecutionJob}
    (h : JobStore.updateStatus jobs id status patch inc = .ok (jobs', job')) :
    ∃ job, jobs.get id = some job ∧ jobs' = jobs.put job' ∧ job'.jobId = id ∧
      job' = { job with
        status := status
        attempts := job.attempts + if inc then 1 else 0
        metadata := job.metadata.update patch } := by
  unfold updateStatus at h
  split at h
  next => cases h
  next job hjob =>
    split at h
    next => cases h
    next =>
      cases h
      have hid : job.jobId = id := Table.key_of_get hjob
      exact ⟨job, hjob, rfl, hid, rfl⟩

/-- Where an operation other than the creation of a job leaves a status that
it was not before, it is a write of that status. -/
theorem status_apply (hcreate : ∀ p job, o ≠ .createJob p job) (p : ProjectId)
    (id : JobId) :
    (o.apply E fault d).1.status p id = d.status p id ∨
      ∃ site basis status patch inc,
        o = .updateStatus p site basis id status patch inc ∧
          (o.apply E fault d).1.status p id = some status := by
  cases hjobs : o.writesJobs with
  | false =>
      refine Or.inl ?_
      unfold Data.status Data.job
      rw [jobs_apply hjobs]
  | true =>
      cases o with
      | updateStatus q site basis j status patch inc =>
          simp only [Op.apply]
          split
          · exact Or.inl rfl
          · split
            next => exact Or.inl rfl
            next jobs' job' h =>
              obtain ⟨job, -, rfl, hid, hjob'⟩ := JobStore.updateStatus_eq_ok h
              by_cases hq : p = q
              · subst hq
                by_cases hj : id = j
                · subst hj
                  refine Or.inr ⟨site, basis, status, patch, inc, rfl, ?_⟩
                  have hget : ((d.projects p).jobs.put job').get id = some job' := by
                    rw [Table.get_put, if_pos hid.symm]
                  have hstatus : job'.status = status := by rw [hjob']
                  simp [Data.status, Data.job, hget, hstatus]
                · refine Or.inl ?_
                  have hget := Table.get_put_of_ne (t := (d.projects p).jobs)
                    (a := job') (k := id) (hid ▸ hj)
                  simp [Data.status, Data.job, hget]
              · refine Or.inl ?_
                simp [Data.status, Data.job,
                  Data.withProject_projects_of_ne d hq]
      | recordAttempt q j r =>
          refine Or.inl ?_
          simp only [Op.apply]
          split
          · rfl
          · unfold JobStore.recordAttempt
            split
            next => rfl
            next jobs' job' h =>
              split at h
              next => cases h
              next job hjob =>
                obtain ⟨job₀, hjob₀, rfl, hid, hjob'⟩ := JobStore.updateStatus_eq_ok h
                have hsame : job₀ = job := Option.some.inj (hjob₀.symm.trans hjob)
                by_cases hq : p = q
                · subst hq
                  by_cases hj : id = j
                  · subst hj
                    have hget : ((d.projects p).jobs.put job').get id = some job' := by
                      rw [Table.get_put, if_pos hid.symm]
                    have hstatus : job'.status = job.status := by rw [hjob']
                    simp [Data.status, Data.job, hget, hstatus, hjob]
                  · have hget := Table.get_put_of_ne (t := (d.projects p).jobs)
                      (a := job') (k := id) (hid ▸ hj)
                    simp [Data.status, Data.job, hget]
                · simp [Data.status, Data.job,
                    Data.withProject_projects_of_ne d hq]
      | createJob q job => exact absurd rfl (hcreate q job)
      | _ => cases hjobs

/-- A status write on a stored job that succeeds and freezes nothing stores
the status. -/
theorem status_updateStatus {p : ProjectId} {site : WriteSite}
    {basis : Option ExecutionJobStatus} {id : JobId}
    {status : ExecutionJobStatus} {patch : MetadataPatch} {inc : Bool}
    {s : ExecutionJobStatus} (hjob : d.status p id = some s)
    (hfrozen : patch.frozen = []) :
    ((Op.updateStatus p site basis id status patch inc).apply E false d).1.status p id
      = some status := by
  obtain ⟨job, hget, -⟩ := Option.map_eq_some_iff.mp hjob
  have hget' : (d.projects p).jobs.get id = some job := hget
  have hid : job.jobId = id := Table.key_of_get hget'
  have hviolates : job.metadata.violates patch = none := by
    simp [JobMetadata.violates, hfrozen]
  simp only [Op.apply, JobStore.updateStatus, hget', hviolates,
    Bool.false_eq_true, if_false]
  simp only [Data.status, Data.job, Data.withProject_projects_self,
    Table.get_put, hid, if_true, Option.map_some]

/-- A job that is read is the stored one. -/
theorem job_of_getJob {p : ProjectId} {id : JobId} {job : ExecutionJob}
    (h : ((Op.getJob p id).apply E fault d).2 =
      (Except.ok job : Except DomainError ExecutionJob)) :
    d.job p id = some job := by
  cases fault with
  | true => cases h
  | false =>
      cases hjob : d.job p id with
      | none =>
          simp only [Op.apply, hjob] at h
          cases h
      | some job' =>
          simp only [Op.apply, hjob] at h
          cases h
          rfl

/-- A stored job is what a read that succeeds answers. -/
theorem getJob_of_job {p : ProjectId} {id : JobId} {job : ExecutionJob}
    (h : d.job p id = some job) :
    ((Op.getJob p id).apply E false d).2 =
      (Except.ok job : Except DomainError ExecutionJob) := by
  simp only [Op.apply, h]
  rfl

-- ============================================== journals and histories

/-- No operation puts a repository under Git or takes it out. -/
theorem git_isSome_apply (r : RepoId) :
    ((o.apply E fault d).1.repos r).git.isSome = (d.repos r).git.isSome := by
  cases hw : o.writesRepo r with
  | false => rw [repos_apply hw]
  | true =>
      cases o with
      | fs root w =>
          cases root with
          | artifacts p => cases hw
          | repo s =>
              obtain rfl := of_decide_eq_true hw
              simp only [Op.apply]
              split
              · rfl
              · split
                · rfl
                · simp [Data.setTree]
      | commit s message paths =>
          obtain rfl := of_decide_eq_true hw
          simp only [Op.apply, commitRepoChanges]
          repeat' split
          all_goals simp_all
          all_goals grind
      | _ => cases hw

/-- A journal write succeeds unless it fails or its id is no file stem. -/
theorem writeJournal_eq_ok {p : ProjectId} {r : TransactionJournalRecord} :
    ((Op.writeJournal p r).apply E fault d).2 = (Except.ok () : Except DomainError Unit) ↔
      fault = false ∧ safeStem r.journalId = true := by
  cases fault with
  | true => simp [Op.apply]
  | false =>
      cases hstem : safeStem r.journalId with
      | false => simp [Op.apply, hstem]
      | true =>
          simp only [Op.apply, hstem, and_self, iff_true]
          rfl

/-- A journal write that does not succeed failed, or its id is no file
stem. -/
theorem of_writeJournal_eq_error {p : ProjectId} {r : TransactionJournalRecord}
    {e : DomainError}
    (h : ((Op.writeJournal p r).apply E fault d).2 =
      (Except.error e : Except DomainError Unit)) :
    fault = true ∨ safeStem r.journalId = false := by
  by_contra hnot
  obtain ⟨hfault, hstem⟩ := not_or.mp hnot
  have hok : ((Op.writeJournal p r).apply E fault d).2 =
      (Except.ok () : Except DomainError Unit) :=
    writeJournal_eq_ok.mpr ⟨by simpa using hfault, by simpa using hstem⟩
  cases hok.symm.trans h

/-- No operation brings an event id into a log twice. -/
theorem events_nodup_apply {p : ProjectId}
    (h : ((d.projects p).events.map (·.eventId)).Nodup) :
    (((o.apply E fault d).1.projects p).events.map (·.eventId)).Nodup := by
  cases hw : o.writesEvents with
  | false =>
      rw [events_apply hw]
      exact h
  | true =>
      cases o with
      | appendEvent q e =>
          simp only [Op.apply]
          split
          · exact h
          · by_cases hq : p = q
            · subst hq
              rw [Data.withProject_projects_self]
              unfold EventStore.append
              dsimp only
              split
              · exact h
              next hnew =>
                rw [List.map_append, List.nodup_append]
                refine ⟨h, List.nodup_singleton _, ?_⟩
                rintro a ha _ hb rfl
                obtain rfl := List.mem_singleton.mp hb
                exact hnew ha
            · rw [Data.withProject_projects_of_ne d hq]
              exact h
      | _ => cases hw

end OpenTulid
