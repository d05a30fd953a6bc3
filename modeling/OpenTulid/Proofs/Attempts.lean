/-
Worker launches are bounded: which runs start no more workers for a task's
transition at a revision than the configured total of attempts.

The account counts records in the job store, so a launch must leave one of
its own. It does not always: the number of an attempt is read from a counter
that another write raises, and what that write answers is not looked at. A
worker launched after a lost write has its record replaced by the next
admission. And an executor reads the account before it admits, so two of
them may both find room for one. `keepsAccount` excludes exactly these, and
the write of a record over one that has been replaced since it was read.

# Method

`Accounted` says of a world that every worker started has a record of its
own in the store, under a number the job's counter has reached, and that no
work has more records than the limit. Launches are bounded in such a world
(`Accounted.launches_le`). What a process may expect of the others is
`Spares`: they leave the job alone that it holds the execution lock of, and
the records of a work grow only by an admission that its history shows.
-/
import OpenTulid.Proofs.Terminal
import OpenTulid.Proofs.Dependencies
import OpenTulid.Runtime.Restart

namespace OpenTulid

open Prog (Uses)
open Par (Step Run Config Safe)

-- ======================================================= what is counted

/-- The attempts of one job have different identities. -/
theorem attemptIdFor_inj {j : JobId} {n m : Nat}
    (h : JobExecutor.attemptIdFor j n = JobExecutor.attemptIdFor j m) : n = m := by
  have hrepr : n.repr = m.repr := by
    simpa [JobExecutor.attemptIdFor, String.append_right_inj] using h
  have hdigits := congrArg (fun s => Nat.ofDigitChars 10 s.toList 0) hrepr
  simpa using hdigits

/-- The job has a record of an attempt at a revision. -/
def ExecutionJob.HasRecord (job : ExecutionJob) (id : String) (revision : TaskRevision) :
    Prop :=
  ∃ r ∈ job.metadata.attemptRecords, r.attemptId = id ∧ r.taskRevision = revision

/-- The records of a job at the revision of the work, if the job is for it. -/
def Work.recordedIn (k : Work) (job : ExecutionJob) : Nat :=
  if job.taskId = k.taskId ∧ job.transitionId = k.transitionId then
    job.metadata.attemptRecords.countP fun r => r.taskRevision = k.revision
  else 0

/-- The records of a work in a project's job store. -/
def recorded (p : ProjectId) (k : Work) (d : Data) : Nat :=
  ((d.projects p).jobs.values.map k.recordedIn).sum

/-- The attempts whose worker a history has started. -/
def launched (p : ProjectId) (history : List Entry) : List (JobId × Nat × Work) :=
  history.filterMap fun e => match e.op with
    | .mark (.launches q job number work) => if q = p then some (job, number, work) else none
    | _ => none

/-- The workers a history has started for a work. -/
def launches (p : ProjectId) (k : Work) (history : List Entry) : Nat :=
  (launched p history).countP fun l => l.2.2 = k

/-- The account of a job counts at least its records at the revision. -/
theorem countP_le_consumedBy {E : Env} {lower : String → String} {job : ExecutionJob}
    {revision : TaskRevision} {n : Nat} (h : consumedBy E lower job revision = .ok n) :
    job.metadata.attemptRecords.countP (fun r => r.taskRevision = revision) ≤ n := by
  unfold consumedBy at h
  split at h
  next => cases h
  next same _ =>
    obtain rfl := Except.ok.inj h
    split
    next =>
      refine List.countP_mono_left fun r _ hr => ?_
      simp [of_decide_eq_true hr]
    next hnone =>
      rw [not_not.mp hnone]
      exact Nat.zero_le _

/-- The account of a work counts at least its records in the jobs. -/
theorem sum_le_foldlM_consumedBy {E : Env} {lower : String → String} {k : Work}
    {jobs : List ExecutionJob} :
    ∀ {s n : Nat}, jobs.foldlM
        (fun total job => (consumedBy E lower job k.revision).map (total + ·)) s = .ok n →
      s + (jobs.map k.recordedIn).sum ≤ n := by
  induction jobs with
  | nil =>
      intro s n h
      obtain rfl := Except.ok.inj h
      simp
  | cons job rest ih =>
      intro s n h
      rw [List.foldlM_cons] at h
      cases hone : consumedBy E lower job k.revision with
      | error e => rw [hone] at h; cases h
      | ok c =>
          rw [hone] at h
          have hrest : s + c + (rest.map k.recordedIn).sum ≤ n := ih h
          have hjob : k.recordedIn job ≤ c := by
            unfold Work.recordedIn
            split
            · exact countP_le_consumedBy hone
            · exact Nat.zero_le _
          simp only [List.map_cons, List.sum_cons]
          omega

/-- What the account leaves out has no records of the work. -/
theorem sum_recordedIn_jobs {p : ProjectId} {k : Work} {jobs : List ExecutionJob}
    (hown : ∀ job ∈ jobs, job.projectId = p) :
    ((k.jobs p jobs).map k.recordedIn).sum = (jobs.map k.recordedIn).sum := by
  induction jobs with
  | nil => rfl
  | cons job rest ih =>
      have hrest := ih fun j hj => hown j (List.mem_cons_of_mem _ hj)
      unfold Work.jobs at hrest ⊢
      by_cases hk : job.taskId = k.taskId ∧ job.transitionId = k.transitionId
      · rw [List.filter_cons_of_pos (by simp [hk.1, hk.2, hown job])]
        simp only [List.map_cons, List.sum_cons, hrest]
      · have hzero : k.recordedIn job = 0 := if_neg hk
        rw [List.filter_cons_of_neg (by
          simp only [Bool.and_eq_true, decide_eq_true_eq]
          exact fun h => hk h.1)]
        simp only [List.map_cons, List.sum_cons, hrest, hzero, Nat.zero_add]

/-- The account of a work counts at least its records. -/
theorem recorded_le_consumed {E : Env} {lower : String → String} {p : ProjectId}
    {k : Work} {d : Data} {n : Nat}
    (hown : ∀ job ∈ (d.projects p).jobs.values, job.projectId = p)
    (h : countConsumedAttempts E lower p k (d.projects p).jobs.values = .ok n) :
    recorded p k d ≤ n := by
  have hsum := sum_le_foldlM_consumedBy h
  rw [Nat.zero_add, sum_recordedIn_jobs hown] at hsum
  exact hsum

-- ==================================================== accounted launches

/-- Every worker started has a record of its own, and no work has more
records than the limit. -/
structure Accounted (p : ProjectId) (limit : Nat) (w : World) : Prop where
  own : ∀ {id : JobId} {job : ExecutionJob}, w.data.job p id = some job →
    job.projectId = p
  bound : ∀ k, recorded p k w.data ≤ limit
  /-- a started worker's number is behind the counter of its job, and its
  record stands -/
  launched : ∀ {j : JobId} {n : Nat} {k : Work}, (j, n, k) ∈ launched p w.history →
    ∃ job, w.data.job p j = some job ∧ job.taskId = k.taskId ∧
      job.transitionId = k.transitionId ∧ n ≤ job.attempts ∧
      job.HasRecord (JobExecutor.attemptIdFor j n) k.revision
  /-- no attempt is started twice -/
  once : ((OpenTulid.launched p w.history).map fun l => (l.1, l.2.1)).Nodup

/-- The jobs and attempts that records of the work stand under. -/
def recordIds (p : ProjectId) (k : Work) (d : Data) : List (JobId × String) :=
  (d.projects p).jobs.values.flatMap fun job =>
    if job.taskId = k.taskId ∧ job.transitionId = k.transitionId then
      (job.metadata.attemptRecords.filter fun r => r.taskRevision = k.revision).map
        fun r => (job.jobId, r.attemptId)
    else []

theorem length_recordIds (p : ProjectId) (k : Work) (d : Data) :
    (recordIds p k d).length = recorded p k d := by
  unfold recordIds recorded
  rw [List.length_flatMap]
  congr 1
  refine List.map_congr_left fun job _ => ?_
  unfold Work.recordedIn
  split
  · rw [List.length_map, List.countP_eq_length_filter]
  · rfl

/-- Where all launches are accounted for, they are no more than the limit. -/
theorem Accounted.launches_le {p : ProjectId} {limit : Nat} {w : World}
    (h : Accounted p limit w) (k : Work) : launches p k w.history ≤ limit := by
  -- the started attempts of the work, under the identities of their records
  let started := (OpenTulid.launched p w.history).filter fun l => l.2.2 = k
  let ids := started.map fun l => (l.1, JobExecutor.attemptIdFor l.1 l.2.1)
  have hnodup : ids.Nodup := by
    have hpairs : (started.map fun l => (l.1, l.2.1)).Nodup :=
      h.once.sublist (List.Sublist.map _ List.filter_sublist)
    have hids : ids = (started.map fun l => (l.1, l.2.1)).map
        fun a => (a.1, JobExecutor.attemptIdFor a.1 a.2) := by
      simp [ids]
    rw [hids]
    refine hpairs.map fun a b hab => ?_
    obtain ⟨hjob, hid⟩ := Prod.mk.inj hab
    rw [hjob] at hid
    exact Prod.ext hjob (attemptIdFor_inj hid)
  have hsubset : ids ⊆ recordIds p k w.data := by
    intro x hx
    obtain ⟨⟨j, n, k'⟩, hmem, rfl⟩ := List.mem_map.mp hx
    obtain ⟨hl, hk⟩ := List.mem_filter.mp hmem
    obtain rfl : k' = k := of_decide_eq_true hk
    obtain ⟨job, hjob, htask, htransition, -, r, hr, hid, hrev⟩ := h.launched hl
    have hkey : job.jobId = j := Table.key_of_get hjob
    refine List.mem_flatMap.mpr ⟨job, Table.mem_values.mpr ?_, ?_⟩
    · rw [hkey]
      exact hjob
    · rw [if_pos ⟨htask, htransition⟩]
      refine List.mem_map.mpr ⟨r, List.mem_filter.mpr ⟨hr, decide_eq_true hrev⟩, ?_⟩
      rw [hkey, hid]
  calc launches p k w.history
      = ids.length := by
        rw [launches, List.countP_eq_length_filter, List.length_map]
    _ ≤ (recordIds p k w.data).length := (List.subperm_of_subset hnodup hsubset).length_le
    _ = recorded p k w.data := length_recordIds p k w.data
    _ ≤ limit := h.bound k

-- ========================================================== the job store

/-- An attempt that is written is listed once under its identity. -/
theorem mem_upsertAttempt {records : List AttemptRecord} {r x : AttemptRecord} :
    x ∈ upsertAttempt records r ↔ (x ∈ records ∧ x.attemptId ≠ r.attemptId) ∨ x = r := by
  unfold upsertAttempt
  rw [List.mem_insertionSort, List.mem_append, List.mem_filter, List.mem_singleton]
  simp

/-- What a written attempt does to the records at a revision. -/
theorem countP_upsertAttempt (f : AttemptRecord → Bool) (records : List AttemptRecord)
    (r : AttemptRecord) :
    (upsertAttempt records r).countP f =
      (records.filter fun x => x.attemptId ≠ r.attemptId).countP f +
        if f r then 1 else 0 := by
  unfold upsertAttempt
  rw [(List.perm_insertionSort _ _).countP_eq, List.countP_append, List.countP_singleton]

/-- It adds at most one record. -/
theorem countP_upsertAttempt_le (f : AttemptRecord → Bool) (records : List AttemptRecord)
    (r : AttemptRecord) :
    (upsertAttempt records r).countP f ≤ records.countP f + if f r then 1 else 0 := by
  rw [countP_upsertAttempt]
  have hfilter := List.Sublist.countP_le (p := f)
    (List.filter_sublist (l := records) (p := fun x => x.attemptId ≠ r.attemptId))
  omega

/-- An attempt that is written over one at its own revision adds none. -/
theorem countP_upsertAttempt_le_of_mem (f : AttemptRecord → Bool)
    {records : List AttemptRecord} {r x : AttemptRecord} (hx : x ∈ records)
    (hid : x.attemptId = r.attemptId) (hf : f x = f r) :
    (upsertAttempt records r).countP f ≤ records.countP f := by
  rw [countP_upsertAttempt,
    List.countP_eq_countP_filter_add records f fun x => x.attemptId ≠ r.attemptId]
  split
  next hr =>
    have hpos : 0 < (records.filter
        fun a => !decide (a.attemptId ≠ r.attemptId)).countP f := by
      refine List.countP_pos_iff.mpr ⟨x, List.mem_filter.mpr ⟨hx, ?_⟩, hf.trans hr⟩
      simp [hid]
    omega
  next => omega

/-- The job with a status written. -/
def ExecutionJob.written (job : ExecutionJob) (status : ExecutionJobStatus)
    (patch : MetadataPatch) (incrementAttempts : Bool) : ExecutionJob :=
  { job with
    status := status
    attempts := job.attempts + if incrementAttempts then 1 else 0
    metadata := job.metadata.update patch }

/-- The job with an attempt recorded. -/
def ExecutionJob.recording (job : ExecutionJob) (r : AttemptRecord) : ExecutionJob :=
  job.written job.status
    { attemptRecords := some (upsertAttempt job.metadata.attemptRecords r) } false

/-- The work an attempt of the job at a revision is for. -/
def ExecutionJob.workAt (job : ExecutionJob) (revision : TaskRevision) : Work :=
  ⟨job.taskId, job.transitionId, revision⟩

/-- Recording an attempt adds at most one record, of the work it is for. -/
theorem Work.recordedIn_recording (k : Work) (job : ExecutionJob) (r : AttemptRecord) :
    k.recordedIn (job.recording r) ≤
      k.recordedIn job + if k = job.workAt r.taskRevision then 1 else 0 := by
  unfold Work.recordedIn
  split
  next hmatch =>
    have hle := countP_upsertAttempt_le (fun x => decide (x.taskRevision = k.revision))
      job.metadata.attemptRecords r
    have hwork : k = job.workAt r.taskRevision ↔ r.taskRevision = k.revision := by
      obtain ⟨task, transition, revision⟩ := k
      obtain ⟨rfl, rfl⟩ := hmatch
      simp [ExecutionJob.workAt, ExecutionJob.recording, ExecutionJob.written, eq_comm]
    rw [if_pos (show job.taskId = k.taskId ∧ job.transitionId = k.transitionId from hmatch)]
    simp only [hwork]
    simp only [decide_eq_true_eq] at hle
    exact hle
  next => exact Nat.zero_le _

/-- The jobs of a project after those of one have been replaced. -/
theorem jobs_withProject (d : Data) (p q : ProjectId) (jobs : Table ExecutionJob.jobId) :
    ((d.withProject q fun project => { project with jobs := jobs }).projects p).jobs =
      if p = q then jobs else (d.projects p).jobs := by
  split
  next h => subst h; rw [Data.withProject_projects_self]
  next h => rw [Data.withProject_projects_of_ne d h]

/-- A status write on the stored jobs stores the job with the status. -/
theorem JobStore.updateStatus_written {jobs jobs' : Table ExecutionJob.jobId} {id : JobId}
    {status : ExecutionJobStatus} {patch : MetadataPatch} {inc : Bool} {job' : ExecutionJob}
    (h : JobStore.updateStatus jobs id status patch inc = .ok (jobs', job')) :
    ∃ job, jobs.get id = some job ∧ job' = job.written status patch inc ∧
      jobs' = jobs.put (job.written status patch inc) := by
  obtain ⟨job, hjob, hput, -, rfl⟩ := JobStore.updateStatus_eq_ok h
  exact ⟨job, hjob, rfl, hput⟩

/-- A status write is refused and changes no job, or stores the job with the
status. -/
theorem updateStatus_apply (E : Env) (fault : Bool) (d : Data) (p q : ProjectId)
    (site : WriteSite) (basis : Option ExecutionJobStatus) (id : JobId)
    (status : ExecutionJobStatus) (patch : MetadataPatch) (inc : Bool) :
    let out := (Op.updateStatus q site basis id status patch inc).apply E fault d
    ((∃ e, out.2 = Except.error e) ∧ (out.1.projects p).jobs = (d.projects p).jobs) ∨
      ∃ job, d.job q id = some job ∧ (out.1.projects p).jobs =
        if p = q then (d.projects q).jobs.put (job.written status patch inc)
        else (d.projects p).jobs := by
  simp only [Op.apply]
  split
  next => exact Or.inl ⟨⟨_, rfl⟩, rfl⟩
  next =>
    split
    next e _ => exact Or.inl ⟨⟨e, rfl⟩, rfl⟩
    next jobs' job' h =>
      obtain ⟨job, hjob, rfl, rfl⟩ := JobStore.updateStatus_written h
      exact Or.inr ⟨job, hjob, jobs_withProject d p q _⟩

/-- Recording an attempt is refused and changes no job, or stores the job
with the attempt. -/
theorem recordAttempt_apply (E : Env) (fault : Bool) (d : Data) (p q : ProjectId)
    (id : JobId) (r : AttemptRecord) :
    let out := (Op.recordAttempt q id r).apply E fault d
    ((∃ e, out.2 = Except.error e) ∧ (out.1.projects p).jobs = (d.projects p).jobs) ∨
      ∃ job, d.job q id = some job ∧ (out.1.projects p).jobs =
        if p = q then (d.projects q).jobs.put (job.recording r)
        else (d.projects p).jobs := by
  simp only [Op.apply]
  split
  next => exact Or.inl ⟨⟨_, rfl⟩, rfl⟩
  next =>
    split
    next e _ => exact Or.inl ⟨⟨e, rfl⟩, rfl⟩
    next jobs' job' h =>
      unfold JobStore.recordAttempt at h
      split at h
      next => cases h
      next job hjob =>
        obtain ⟨job₀, hjob₀, rfl, rfl⟩ := JobStore.updateStatus_written h
        obtain rfl : job₀ = job := Option.some.inj (hjob₀.symm.trans hjob)
        exact Or.inr ⟨job₀, hjob₀, jobs_withProject d p q _⟩

/-- Creating a job is refused and changes no job, or stores it. -/
theorem createJob_apply (E : Env) (fault : Bool) (d : Data) (p q : ProjectId)
    (job : ExecutionJob) :
    let out := (Op.createJob q job).apply E fault d
    (out.1.projects p).jobs = (d.projects p).jobs ∨
      (out.1.projects p).jobs =
        if p = q then (d.projects q).jobs.put job else (d.projects p).jobs := by
  simp only [Op.apply]
  split
  next => exact Or.inl rfl
  next =>
    split
    next => exact Or.inl rfl
    next jobs h =>
      unfold JobStore.create at h
      split at h
      next => cases h
      next =>
        obtain rfl := Except.ok.inj h
        exact Or.inr (jobs_withProject d p q _)

-- ====================================================== the conditions

/-- The entry admits an attempt of the work. -/
def Entry.admits (p : ProjectId) (k : Work) (e : Entry) : Bool :=
  match e.op with
  | .recordAttempt q id r =>
      q = p && r.status = .admitted && r.taskRevision = k.revision &&
        (e.before.job p id).any fun job =>
          job.taskId = k.taskId && job.transitionId = k.transitionId
  | _ => false

/-- Another process has admitted an attempt of the work since the process
has last read the account. -/
def disturbed (p : ProjectId) (i : Pid) (k : Work) : List Entry → Bool
  | [] => false
  | e :: rest =>
      if e.pid = i then
        match e.op with
        | .listJobs q => if q = p then false else disturbed p i k rest
        | _ => disturbed p i k rest
      else e.admits p k || disturbed p i k rest

/-- The steps that keep the account of a project: a write that counts an
attempt goes through; an attempt is admitted on an account that no other
admission has changed since it was read; an attempt is written back at the
revision it has; and a job is created under a new id. -/
def keepsAccount (p : ProjectId) : Par.Admission Pid Op World where
  step i fault o w := match o with
    | .updateStatus q _ _ id _ patch inc => q = p → inc = true →
        fault = false ∧ ∃ job, w.data.job p id = some job ∧
          job.metadata.violates patch = none
    | .recordAttempt q id r => q = p → ∀ job, w.data.job p id = some job →
        if r.status = .admitted then
          disturbed p i (job.workAt r.taskRevision) w.history = false
        else (∃ x ∈ job.metadata.attemptRecords, x.attemptId = r.attemptId) ∧
          ∀ x ∈ job.metadata.attemptRecords, x.attemptId = r.attemptId →
            x.taskRevision = r.taskRevision
    | .createJob q job => q = p → w.data.job p job.jobId = none
    | _ => True
  crash _ _ := True

-- ======================================================= what others do

/-- The job has the same work and counter, and the records it had. -/
structure SameAttempts (job job' : ExecutionJob) : Prop where
  taskId : job'.taskId = job.taskId
  transitionId : job'.transitionId = job.transitionId
  attempts : job'.attempts = job.attempts
  kept : ∀ {id : String} {revision : TaskRevision},
    job.HasRecord id revision → job'.HasRecord id revision

theorem SameAttempts.refl (job : ExecutionJob) : SameAttempts job job :=
  ⟨rfl, rfl, rfl, id⟩

theorem SameAttempts.trans {a b c : ExecutionJob} (hab : SameAttempts a b)
    (hbc : SameAttempts b c) : SameAttempts a c where
  taskId := hbc.taskId.trans hab.taskId
  transitionId := hbc.transitionId.trans hab.transitionId
  attempts := hbc.attempts.trans hab.attempts
  kept h := hbc.kept (hab.kept h)

/-- What a process may expect of the others: they keep launches accounted
for, leave the jobs alone whose execution lock it holds, and add records of
a work only by admissions. -/
structure Spares (p : ProjectId) (limit : Nat) (i : Pid) (u v : World) : Prop where
  accounted : Accounted p limit u → Accounted p limit v
  held : ∀ j, u.held (.execution p j) = some i → v.held (.execution p j) = some i
  job : ∀ {j : JobId} {job : ExecutionJob}, u.held (.execution p j) = some i →
    u.data.job p j = some job → ∃ job', v.data.job p j = some job' ∧ SameAttempts job job'
  launched : ∀ {j : JobId}, u.held (.execution p j) = some i →
    ∀ l ∈ launched p v.history, l.1 = j → l ∈ launched p u.history
  disturbed : ∀ k, disturbed p i k u.history = true → disturbed p i k v.history = true
  recorded : ∀ k, recorded p k v.data ≤ recorded p k u.data ∨
    OpenTulid.disturbed p i k v.history = true

section Spares

variable {p : ProjectId} {limit : Nat} {i : Pid}

theorem Spares.refl (w : World) : Spares p limit i w w where
  accounted h := h
  held _ h := h
  job _ h := ⟨_, h, SameAttempts.refl _⟩
  launched _ _ hl _ := hl
  disturbed _ h := h
  recorded _ := Or.inl (Nat.le_refl _)

theorem Spares.trans {u v w : World} (huv : Spares p limit i u v)
    (hvw : Spares p limit i v w) : Spares p limit i u w where
  accounted h := hvw.accounted (huv.accounted h)
  held j h := hvw.held j (huv.held j h)
  job hheld h := by
    obtain ⟨b, hb, hab⟩ := huv.job hheld h
    obtain ⟨c, hc, hbc⟩ := hvw.job (huv.held _ hheld) hb
    exact ⟨c, hc, hab.trans hbc⟩
  launched hheld l hl hj :=
    huv.launched hheld l (hvw.launched (huv.held _ hheld) l hl hj) hj
  disturbed k h := hvw.disturbed k (huv.disturbed k h)
  recorded k := by
    rcases hvw.recorded k with hle | hd
    · rcases huv.recorded k with hle' | hd
      · exact Or.inl (hle.trans hle')
      · exact Or.inr (hvw.disturbed k hd)
    · exact Or.inr hd

/-- A process keeps launches accounted for, and is beside the others. -/
def accountContract (p : ProjectId) (limit : Nat) : Par.Contract Pid World where
  rely := Spares p limit
  guar i u v := (Accounted p limit u → Accounted p limit v) ∧
    ∀ j, i ≠ j → Spares p limit j u v

/-- An entry that is no reading of the account by the process leaves what has
disturbed it. -/
theorem disturbed_cons {k : Work} {e : Entry} {rest : List Entry}
    (hread : e.pid = i → e.op ≠ .listJobs p) (h : disturbed p i k rest = true) :
    disturbed p i k (e :: rest) = true := by
  unfold disturbed
  split
  next hi =>
    split
    next q hq =>
      rw [if_neg fun hqp => hread hi (by rw [hq, hqp])]
      exact h
    next => exact h
  next => rw [h, Bool.or_true]

/-- A crash leaves everything but the locks of the process. -/
theorem Accounted.crash {w : World} (h : Accounted p limit w) :
    Accounted p limit (w.crash i) where
  own := h.own
  bound := h.bound
  launched := h.launched
  once := h.once

theorem accountContract_fits (E : Env) :
    (accountContract p limit).Fits (machine E) (keepsAccount p) where
  refl _ w := Spares.refl w
  trans _ _ _ _ huv hvw := huv.trans hvw
  guar_rely _ j _ _ hij h := h.2 j hij
  crash_rely i j w hij _ :=
    { accounted := fun h => h.crash
      held := fun l hl => by
        show (if w.held (.execution p l) = some i then none else _) = _
        rw [hl, if_neg fun h => hij (Option.some.inj h).symm]
      job := fun _ h => ⟨_, h, SameAttempts.refl _⟩
      launched := fun _ _ hl _ => hl
      disturbed := fun _ h => disturbed_cons (fun hi => absurd hi hij) h
      recorded := fun _ => Or.inl (Nat.le_refl _) }

end Spares

-- ======================================================= quiet operations

/-- The operations that neither admit an attempt of the project, nor count or
start one, nor take a job's execution lock. -/
def Op.besideAccount (p : ProjectId) (o : Op) : Prop :=
  o.besideAttempts ∨
    match o with
    | .listJobs _ => True
    | .createJob q job => q = p → job.projectId = p ∧ job.metadata.attemptRecords = []
    | _ => False

/-- What such an operation does: no records of a work are added, every job
keeps its attempts, and nothing is started. -/
structure Quiet (p : ProjectId) (u v : World) : Prop where
  own : (∀ {id : JobId} {job : ExecutionJob}, u.data.job p id = some job →
      job.projectId = p) →
    ∀ {id : JobId} {job : ExecutionJob}, v.data.job p id = some job → job.projectId = p
  recorded : ∀ k, recorded p k v.data ≤ recorded p k u.data
  job : ∀ {j : JobId} {job : ExecutionJob}, u.data.job p j = some job →
    ∃ job', v.data.job p j = some job' ∧ SameAttempts job job'
  launched : launched p v.history = launched p u.history
  held : ∀ j i, u.held (.execution p j) = some i → v.held (.execution p j) = some i

section Quiet

variable {p : ProjectId} {limit : Nat} {i j : Pid} {u v : World}

theorem Quiet.accounted (h : Quiet p u v) (hu : Accounted p limit u) :
    Accounted p limit v where
  own := h.own hu.own
  bound k := (h.recorded k).trans (hu.bound k)
  launched hl := by
    rw [h.launched] at hl
    obtain ⟨job, hjob, htask, htransition, hn, hr⟩ := hu.launched hl
    obtain ⟨job', hjob', hsame⟩ := h.job hjob
    exact ⟨job', hjob', hsame.taskId.trans htask, hsame.transitionId.trans htransition,
      hsame.attempts ▸ hn, hsame.kept hr⟩
  once := by
    rw [h.launched]
    exact hu.once

theorem Quiet.spares (h : Quiet p u v) {e : Entry} (hhistory : v.history = e :: u.history)
    (hread : e.pid = j → e.op ≠ .listJobs p) : Spares p limit j u v where
  accounted hu := h.accounted hu
  held l hl := h.held l j hl
  job _ hjob := h.job hjob
  launched _ l hl _ := h.launched ▸ hl
  disturbed k hk := by
    rw [hhistory]
    exact disturbed_cons hread hk
  recorded k := Or.inl (h.recorded k)

/-- An operation that leaves the jobs of the project as they are. -/
theorem Quiet.of_jobs_eq (hjobs : (v.data.projects p).jobs = (u.data.projects p).jobs)
    (hlaunched : OpenTulid.launched p v.history = OpenTulid.launched p u.history)
    (hheld : ∀ j i, u.held (.execution p j) = some i → v.held (.execution p j) = some i) :
    Quiet p u v := by
  have hjob : ∀ id, v.data.job p id = u.data.job p id := fun id => by
    unfold Data.job
    rw [hjobs]
  exact {
    own := fun hown _ _ h => hown (hjob _ ▸ h)
    recorded := fun k => by
      unfold OpenTulid.recorded
      rw [hjobs]
    job := fun h => ⟨_, (hjob _).trans h, SameAttempts.refl _⟩
    launched := hlaunched
    held := hheld }

/-- An operation that writes one job, which keeps its attempts and gains no
records, or is new and has none. -/
theorem Quiet.of_put {job' : ExecutionJob}
    (hjobs : (v.data.projects p).jobs = (u.data.projects p).jobs.put job')
    (hold : ∀ job, u.data.job p job'.jobId = some job → SameAttempts job job' ∧
      job'.projectId = job.projectId ∧ ∀ k : Work, k.recordedIn job' ≤ k.recordedIn job)
    (hnew : u.data.job p job'.jobId = none →
      job'.projectId = p ∧ ∀ k : Work, k.recordedIn job' = 0)
    (hlaunched : OpenTulid.launched p v.history = OpenTulid.launched p u.history)
    (hheld : ∀ j i, u.held (.execution p j) = some i → v.held (.execution p j) = some i) :
    Quiet p u v where
  own hown id job h := by
    unfold Data.job at h
    rw [hjobs, Table.get_put] at h
    split at h
    next =>
      obtain rfl := Option.some.inj h
      cases hget : u.data.job p job'.jobId with
      | none => exact (hnew hget).1
      | some old => exact (hold old hget).2.1.trans (hown hget)
    next => exact hown h
  recorded k := by
    have hsum := Table.sum_values_put (t := (u.data.projects p).jobs) (a := job')
      k.recordedIn
    unfold OpenTulid.recorded
    rw [hjobs]
    cases hget : (u.data.projects p).jobs.get job'.jobId with
    | none =>
        have hzero := (hnew hget).2 k
        rw [hget, Option.map_none, Option.getD_none, hzero] at hsum
        exact hsum.le
    | some old =>
        have hle := (hold old hget).2.2 k
        rw [hget, Option.map_some, Option.getD_some] at hsum
        omega
  job {id job} h := by
    unfold Data.job at h ⊢
    rw [hjobs, Table.get_put]
    split
    next hid =>
      subst hid
      exact ⟨job', rfl, (hold job h).1⟩
    next => exact ⟨job, h, SameAttempts.refl job⟩
  launched := hlaunched
  held := hheld

/-- Records of the same kind count the same. -/
theorem Work.recordedIn_le {k : Work} {job job' : ExecutionJob}
    (htask : job'.taskId = job.taskId) (htransition : job'.transitionId = job.transitionId)
    (hrecords : ∀ f : AttemptRecord → Bool, (∀ r s : AttemptRecord,
        r.taskRevision = s.taskRevision → f r = f s) →
      job'.metadata.attemptRecords.countP f ≤ job.metadata.attemptRecords.countP f) :
    k.recordedIn job' ≤ k.recordedIn job := by
  unfold Work.recordedIn
  rw [htask, htransition]
  split
  · refine hrecords _ fun r s h => ?_
    simp only [h]
  · exact Nat.le_refl _

theorem Op.besideAccount.held {o : Op} (ho : o.besideAccount p) {w : World}
    {l : JobId} (h : w.held (.execution p l) = some j) :
    heldAfter w.held i o (.execution p l) = some j := by
  cases o with
  | lock x =>
      cases x with
      | execution q id => exact (ho.resolve_right fun h => h).elim
      | _ => rw [heldAfter, Function.update_of_ne (by intro hx; cases hx)]; exact h
  | unlock x =>
      cases x with
      | execution q id => exact (ho.resolve_right fun h => h).elim
      | _ => rw [heldAfter, Function.update_of_ne (by intro hx; cases hx)]; exact h
  | _ => exact h

theorem Op.besideAccount.launched {o : Op} (ho : o.besideAccount p) {fault : Bool}
    {d : Data} {history : List Entry} :
    OpenTulid.launched p (⟨i, fault, o, d⟩ :: history) = OpenTulid.launched p history := by
  cases o with
  | mark m =>
      cases m with
      | launches q job number work => exact (ho.resolve_right fun h => h).elim
      | _ => rfl
  | _ => rfl

/-- A job that is written over keeps its attempts and records. -/
theorem Quiet.of_written {old : ExecutionJob} {status : ExecutionJobStatus}
    {patch : MetadataPatch}
    (hold : u.data.job p old.jobId = some old)
    (hjobs : (v.data.projects p).jobs =
      (u.data.projects p).jobs.put (old.written status patch false))
    (hkept : ∀ {id : String} {revision : TaskRevision}, old.HasRecord id revision →
      (old.written status patch false).HasRecord id revision)
    (hrecords : ∀ f : AttemptRecord → Bool, (∀ r s : AttemptRecord,
        r.taskRevision = s.taskRevision → f r = f s) →
      (old.metadata.update patch).attemptRecords.countP f
        ≤ old.metadata.attemptRecords.countP f)
    (hlaunched : OpenTulid.launched p v.history = OpenTulid.launched p u.history)
    (hheld : ∀ j i, u.held (.execution p j) = some i → v.held (.execution p j) = some i) :
    Quiet p u v := by
  refine .of_put hjobs (fun job hjob => ?_) (fun hnone => ?_) hlaunched hheld
  · obtain rfl : old = job := Option.some.inj (hold.symm.trans hjob)
    exact ⟨⟨rfl, rfl, rfl, hkept⟩, rfl, fun k => Work.recordedIn_le rfl rfl hrecords⟩
  · cases hold.symm.trans hnone

/-- An admitted operation of the kind is quiet. -/
theorem quiet_step (E : Env) {fault : Bool} {o : Op} {w : World} (ho : o.besideAccount p)
    (hadm : (keepsAccount p).step i fault o w) : Quiet p w (w.step E i fault o).1 := by
  have hlaunched : OpenTulid.launched p (w.step E i fault o).1.history =
      OpenTulid.launched p w.history := ho.launched
  have hheld : ∀ l j, w.held (.execution p l) = some j →
      (w.step E i fault o).1.held (.execution p l) = some j := fun l j h => ho.held h
  cases hwrites : o.writesJobs with
  | false => exact .of_jobs_eq (jobs_apply hwrites p) hlaunched hheld
  | true =>
      cases o with
      | updateStatus q site basis id status patch inc =>
          obtain ⟨-, rfl, hpatch⟩ := ho.resolve_right fun h => h
          rcases updateStatus_apply E fault w.data p q site basis id status patch false with
            ⟨-, hsame⟩ | ⟨job, hjob, hjobs⟩
          · exact .of_jobs_eq hsame hlaunched hheld
          · split at hjobs
            next hq =>
              subst hq
              have hrecords : (job.metadata.update patch).attemptRecords =
                  job.metadata.attemptRecords := by simp [JobMetadata.update, hpatch]
              have hkey : job.jobId = id := Table.key_of_get hjob
              refine .of_written (hkey ▸ hjob) hjobs (fun h => ?_) (fun f _ => ?_)
                hlaunched hheld
              · unfold ExecutionJob.HasRecord ExecutionJob.written
                rw [hrecords]
                exact h
              · rw [hrecords]
            next => exact .of_jobs_eq hjobs hlaunched hheld
      | recordAttempt q id r =>
          have hstatus := ho.resolve_right fun h => h
          rcases recordAttempt_apply E fault w.data p q id r with
            ⟨-, hsame⟩ | ⟨job, hjob, hjobs⟩
          · exact .of_jobs_eq hsame hlaunched hheld
          · split at hjobs
            next hq =>
              subst hq
              have hkey : job.jobId = id := Table.key_of_get hjob
              have hrecord := hadm rfl job hjob
              rw [if_neg hstatus] at hrecord
              obtain ⟨⟨x, hx, hid⟩, hrev⟩ := hrecord
              refine .of_written (hkey ▸ hjob) hjobs ?_ (fun f hf => ?_) hlaunched hheld
              · rintro a revision ⟨y, hy, hya, hyrev⟩
                by_cases hsame : y.attemptId = r.attemptId
                · exact ⟨r, mem_upsertAttempt.mpr (Or.inr rfl), hsame.symm.trans hya,
                    (hrev y hy hsame).symm.trans hyrev⟩
                · exact ⟨y, mem_upsertAttempt.mpr (Or.inl ⟨hy, hsame⟩), hya, hyrev⟩
              · exact countP_upsertAttempt_le_of_mem f hx hid (hf x r (hrev x hx hid))
            next => exact .of_jobs_eq hjobs hlaunched hheld
      | createJob q job =>
          rcases createJob_apply E fault w.data p q job with hsame | hjobs
          · exact .of_jobs_eq hsame hlaunched hheld
          · split at hjobs
            next hq =>
              subst hq
              obtain ⟨hproject, hnone⟩ := (ho.resolve_left fun h => h) rfl
              refine .of_put hjobs (fun old hold => ?_) (fun _ => ?_) hlaunched hheld
              · cases (hadm rfl).symm.trans hold
              · refine ⟨hproject, fun k => ?_⟩
                unfold Work.recordedIn
                rw [hnone]
                split <;> rfl
            next => exact .of_jobs_eq hjobs hlaunched hheld
      | _ => cases hwrites

end Quiet

-- ===================================================== the executor's steps

section Steps

variable {E : Env} {p : ProjectId} {limit : Nat} {i : Pid} {j : JobId}

/-- The process has the execution lock of the job, and launches are
accounted for. -/
def Owns (p : ProjectId) (limit : Nat) (j : JobId) (i : Pid) (w : World) : Prop :=
  Accounted p limit w ∧ w.held (.execution p j) = some i

/-- The process has the lock, and the job has the attempts of the job
given. -/
def OwnsAt (p : ProjectId) (limit : Nat) (i : Pid) (job : ExecutionJob) (w : World) :
    Prop :=
  Owns p limit job.jobId i w ∧
    ∃ job', w.data.job p job.jobId = some job' ∧ SameAttempts job job'

/-- The account has room for an attempt of the work, or has changed since it
was read. -/
def HasRoom (p : ProjectId) (limit : Nat) (i : Pid) (k : Work) (w : World) : Prop :=
  recorded p k w.data < limit ∨ disturbed p i k w.history = true

/-- The number of the attempt has not been started. -/
def NotStarted (p : ProjectId) (j : JobId) (n : Nat) (w : World) : Prop :=
  ∀ l ∈ launched p w.history, l.1 = j → l.2.1 ≠ n

theorem Owns.spares {u v : World} (h : Owns p limit j i u) (huv : Spares p limit i u v) :
    Owns p limit j i v :=
  ⟨huv.accounted h.1, huv.held j h.2⟩

theorem OwnsAt.spares {job : ExecutionJob} {u v : World} (h : OwnsAt p limit i job u)
    (huv : Spares p limit i u v) : OwnsAt p limit i job v := by
  obtain ⟨howns, job₁, hjob₁, hsame₁⟩ := h
  obtain ⟨job₂, hjob₂, hsame₂⟩ := huv.job howns.2 hjob₁
  exact ⟨howns.spares huv, job₂, hjob₂, hsame₁.trans hsame₂⟩

theorem HasRoom.spares {k : Work} {u v : World} (h : HasRoom p limit i k u)
    (huv : Spares p limit i u v) : HasRoom p limit i k v := by
  rcases h with hroom | hd
  · rcases huv.recorded k with hle | hd
    · exact Or.inl (Nat.lt_of_le_of_lt hle hroom)
    · exact Or.inr hd
  · exact Or.inr (huv.disturbed k hd)

theorem NotStarted.spares {n : Nat} {u v : World} (h : NotStarted p j n u)
    (hheld : u.held (.execution p j) = some i) (huv : Spares p limit i u v) :
    NotStarted p j n v :=
  fun l hl hj => h l (huv.launched hheld l hl hj) hj

/-- A quiet operation keeps the guarantee. -/
theorem Quiet.guar {u v : World} (h : Quiet p u v) {e : Entry}
    (hhistory : v.history = e :: u.history) (hpid : e.pid = i) :
    (accountContract p limit).guar i u v :=
  ⟨h.accounted, fun _ hij => h.spares hhistory fun hj => absurd (hpid.symm.trans hj) hij⟩

/-- The programs of process `i` that end in a fact. -/
abbrev EndsIn {α : Type} (E : Env) (p : ProjectId) (limit : Nat) (i : Pid)
    (F : World → Prop) (q : Proc α) (w : World) : Prop :=
  Safe (machine E) (keepsAccount p) (accountContract p limit) i (fun _ v => F v) q w

/-- Operations beside attempts keep what the others cannot break. -/
theorem endsIn_of_uses {α : Type} {F : World → Prop}
    (stable : ∀ u v, F u → Spares p limit i u v → F v) {q : Proc α}
    (hq : Uses Op.besideAttempts q) {w : World} (hF : F w) : EndsIn E p limit i F q w := by
  refine Safe.of_uses stable (fun o v fault ho hv hadm => ?_) hq hF
  have hquiet := quiet_step E (Or.inl ho) hadm
  refine ⟨hquiet.guar rfl rfl, stable v _ hv (hquiet.spares rfl fun _ hlist => ?_)⟩
  obtain rfl : o = .listJobs p := hlist
  exact ho

/-- A sequence whose first part keeps a fact. -/
theorem EndsIn.bind {α β : Type} {F G : World → Prop} {q : Proc α} {f : α → Proc β}
    {w : World} (h : EndsIn E p limit i F q w) (herror : ∀ v, F v → G v)
    (hf : ∀ a v, F v → EndsIn E p limit i G (f a) v) :
    EndsIn E p limit i G (q >>= f) w := by
  refine Safe.bind (Safe.mono h fun out v hv => ?_)
  cases out with
  | ok a => exact hf a v hv
  | error e => exact herror v hv

/-- A write of the job whose lock the process has keeps the guarantee, if
the records of started attempts stand and a work gains a record only by an
admission on an account with room. -/
theorem guar_of_put {u v : World} {e : Entry} {old job' : ExecutionJob}
    (hhistory : v.history = e :: u.history) (hpid : e.pid = i) (hlocks : v.held = u.held)
    (hread : launched p v.history = launched p u.history)
    (hheld : u.held (.execution p job'.jobId) = some i)
    (hold : u.data.job p job'.jobId = some old)
    (hjobs : (v.data.projects p).jobs = (u.data.projects p).jobs.put job')
    (hproject : job'.projectId = old.projectId)
    (hwork : job'.taskId = old.taskId ∧ job'.transitionId = old.transitionId)
    (hattempts : old.attempts ≤ job'.attempts)
    (hkept : ∀ n revision, n ≤ old.attempts →
      old.HasRecord (JobExecutor.attemptIdFor job'.jobId n) revision →
        job'.HasRecord (JobExecutor.attemptIdFor job'.jobId n) revision)
    (hrecorded : ∀ k : Work, k.recordedIn job' ≤ k.recordedIn old ∨
      (k.recordedIn job' ≤ k.recordedIn old + 1 ∧ recorded p k u.data < limit ∧
        e.admits p k = true)) :
    (accountContract p limit).guar i u v := by
  have hget : ∀ id, v.data.job p id =
      if id = job'.jobId then some job' else u.data.job p id := fun id => by
    unfold Data.job
    rw [hjobs, Table.get_put]
  have hsum : ∀ k, recorded p k v.data + k.recordedIn old =
      recorded p k u.data + k.recordedIn job' := fun k => by
    have h := Table.sum_values_put (t := (u.data.projects p).jobs) (a := job') k.recordedIn
    have hold' : (u.data.projects p).jobs.get job'.jobId = some old := hold
    rw [hold', Option.map_some, Option.getD_some] at h
    unfold recorded
    rw [hjobs]
    exact h
  have haccounted : Accounted p limit u → Accounted p limit v := fun hu =>
    { own := fun {id job} h => by
        rw [hget] at h
        split at h
        next => exact Option.some.inj h ▸ hproject.trans (hu.own hold)
        next => exact hu.own h
      bound := fun k => by
        have hk := hsum k
        have hbound := hu.bound k
        rcases hrecorded k with hle | ⟨hle, hroom, -⟩ <;> omega
      launched := fun {l n k} hl => by
        rw [hread] at hl
        obtain ⟨job, hjob, htask, htransition, hn, hrecord⟩ := hu.launched hl
        rw [hget]
        split
        next hlj =>
          subst hlj
          obtain rfl : old = job := Option.some.inj (hold.symm.trans hjob)
          exact ⟨job', rfl, hwork.1.trans htask, hwork.2.trans htransition,
            hn.trans hattempts, hkept n _ hn hrecord⟩
        next => exact ⟨job, hjob, htask, htransition, hn, hrecord⟩
      once := by
        rw [hread]
        exact hu.once }
  refine ⟨haccounted, fun l hil => ⟨haccounted, fun m hm => hlocks ▸ hm,
    fun {m job} hm hjob => ?_, fun _ x hx _ => hread ▸ hx, fun k hk => ?_, fun k => ?_⟩⟩
  · -- another process holds the lock of another job
    have hne : m ≠ job'.jobId := fun h =>
      hil (Option.some.inj (hheld.symm.trans (h ▸ hm)))
    exact ⟨job, (hget m).trans ((if_neg hne).trans hjob), SameAttempts.refl job⟩
  · rw [hhistory]
    exact disturbed_cons (fun hl => absurd (hpid.symm.trans hl) hil) hk
  · rcases hrecorded k with hle | ⟨-, -, hadmits⟩
    · have hk := hsum k
      exact Or.inl (by omega)
    · refine Or.inr ?_
      rw [hhistory]
      unfold OpenTulid.disturbed
      rw [if_neg fun hl => hil (hpid.symm.trans hl), hadmits, Bool.true_or]

/-- An operation that fails on the job store changes nothing of it. -/
theorem quiet_of_jobs_eq {fault : Bool} {o : Op} {w : World}
    (hjobs : ((o.apply E fault w.data).1.projects p).jobs = (w.data.projects p).jobs)
    (hlocks : heldAfter w.held i o = w.held)
    (hread : launched p (⟨i, fault, o, w.data⟩ :: w.history) = launched p w.history) :
    Quiet p w (w.step E i fault o).1 :=
  .of_jobs_eq hjobs hread fun l m h => by
    show heldAfter w.held i o (.execution p l) = some m
    rw [hlocks]
    exact h

/-- A quiet operation of the process leaves it the job. -/
theorem OwnsAt.quiet {job : ExecutionJob} {u v : World} (h : OwnsAt p limit i job u)
    (hquiet : Quiet p u v) : OwnsAt p limit i job v := by
  obtain ⟨howns, job₁, hjob₁, hsame₁⟩ := h
  obtain ⟨job₂, hjob₂, hsame₂⟩ := hquiet.job hjob₁
  exact ⟨⟨hquiet.accounted howns.1, hquiet.held _ i howns.2⟩, job₂, hjob₂,
    hsame₁.trans hsame₂⟩

/-- A quiet operation of the process leaves it the lock. -/
theorem Owns.quiet {u v : World} (h : Owns p limit j i u) (hquiet : Quiet p u v) :
    Owns p limit j i v :=
  ⟨hquiet.accounted h.1, hquiet.held j i h.2⟩

/-- Recording an attempt on an account that has room: either the record is
there and nothing else of the job has changed, or the store refuses. -/
theorem admit_step {job : ExecutionJob} {k : Work} {fault : Bool} {w : World}
    (hwork : k.taskId = job.taskId ∧ k.transitionId = job.transitionId)
    (hat : OwnsAt p limit i job w) (hroom : HasRoom p limit i k w)
    (hadm : (keepsAccount p).step i fault
      (.recordAttempt p job.jobId (JobExecutor.admission job k)) w) :
    let r := JobExecutor.admission job k
    let step := w.step E i fault (.recordAttempt p job.jobId r)
    (accountContract p limit).guar i w step.1 ∧ Owns p limit job.jobId i step.1 ∧
      ∀ saved, step.2 = .ok saved → ∃ old : ExecutionJob, old.jobId = job.jobId ∧
        SameAttempts job old ∧ OwnsAt p limit i (old.recording r) step.1 := by
  obtain ⟨howns, old, hold, hsame⟩ := hat
  intro r step
  have hkey : old.jobId = job.jobId := Table.key_of_get hold
  have hk : k = old.workAt r.taskRevision := by
    rw [ExecutionJob.workAt, hsame.taskId, hsame.transitionId, ← hwork.1, ← hwork.2]
    rfl
  have hless : recorded p k w.data < limit := by
    rcases hroom with h | h
    · exact h
    · have hundisturbed := hadm rfl old hold
      rw [if_pos (show r.status = .admitted from rfl)] at hundisturbed
      cases (hk ▸ h).symm.trans hundisturbed
  rcases recordAttempt_apply E fault w.data p p job.jobId r with
    ⟨⟨e, he⟩, hjobs⟩ | ⟨stored, hstored, hjobs⟩
  · have hquiet : Quiet p w step.1 := quiet_of_jobs_eq hjobs rfl rfl
    refine ⟨hquiet.guar rfl rfl, howns.quiet hquiet, fun saved hsaved => ?_⟩
    cases hsaved.symm.trans he
  · obtain rfl : old = stored := Option.some.inj (hold.symm.trans hstored)
    rw [if_pos rfl] at hjobs
    have hold' : w.data.job p (old.recording r).jobId = some old := by
      rw [show (old.recording r).jobId = job.jobId from hkey]
      exact hold
    have hheld : w.held (.execution p (old.recording r).jobId) = some i := by
      rw [show (old.recording r).jobId = job.jobId from hkey]
      exact howns.2
    have hguar : (accountContract p limit).guar i w step.1 := by
      refine guar_of_put rfl rfl rfl
        rfl hheld hold' hjobs rfl ⟨rfl, rfl⟩ (Nat.le_refl _) (fun n revision hn => ?_)
        fun k' => ?_
      · -- started attempts have smaller numbers than the one recorded
        rintro ⟨y, hy, hid, hrev⟩
        refine ⟨y, mem_upsertAttempt.mpr (Or.inl ⟨hy, fun heq => ?_⟩), hid, hrev⟩
        rw [hid, show (old.recording r).jobId = job.jobId from hkey] at heq
        have hn' : n = job.attempts + 1 := attemptIdFor_inj heq
        have hattempts := hsame.attempts
        omega
      · have hle := k'.recordedIn_recording old r
        split at hle
        next hk' =>
          obtain rfl : k = k' := hk.trans hk'.symm
          refine Or.inr ⟨hle, hless, ?_⟩
          simp [Entry.admits, r, JobExecutor.admission, hold, hsame.taskId,
            hsame.transitionId, hwork.1, hwork.2]
        next => exact Or.inl hle
    refine ⟨hguar, ⟨hguar.1 howns.1, howns.2⟩, fun saved hsaved => ?_⟩
    refine ⟨old, hkey, hsame, ⟨?_, ?_⟩, old.recording r, ?_, SameAttempts.refl _⟩
    · exact hguar.1 howns.1
    · exact hheld
    · unfold Data.job
      rw [show (step.1.data.projects p).jobs = _ from hjobs, Table.get_put_self]

/-- The write that counts an attempt: the counter of the job is raised, and
the attempt it counts has not been started. -/
theorem count_step {job : ExecutionJob} {id : JobId} {site : WriteSite}
    {basis : Option ExecutionJobStatus} {status : ExecutionJobStatus}
    {patch : MetadataPatch} {fault : Bool} {w : World}
    (hid : job.jobId = id) (hpatch : patch.attemptRecords = none)
    (hat : OwnsAt p limit i job w)
    (hadm : (keepsAccount p).step i fault
      (.updateStatus p site basis id status patch true) w) :
    let v := (w.step E i fault (.updateStatus p site basis id status patch true)).1
    (accountContract p limit).guar i w v ∧
      OwnsAt p limit i { job with attempts := job.attempts + 1 } v ∧
      NotStarted p job.jobId (job.attempts + 1) v := by
  subst hid
  obtain ⟨howns, old, hold, hsame⟩ := hat
  intro v
  have hkey : old.jobId = job.jobId := Table.key_of_get hold
  obtain ⟨rfl, free, hfree, hviolates⟩ := hadm rfl rfl
  obtain rfl : old = free := Option.some.inj (hold.symm.trans hfree)
  have hrecords : (old.written status patch true).metadata.attemptRecords =
      old.metadata.attemptRecords := by
    simp [ExecutionJob.written, JobMetadata.update, hpatch]
  have hkept : ∀ {a : String} {revision : TaskRevision}, old.HasRecord a revision →
      (old.written status patch true).HasRecord a revision := fun h => by
    unfold ExecutionJob.HasRecord
    rw [hrecords]
    exact h
  have hstored : (v.data.projects p).jobs =
      (w.data.projects p).jobs.put (old.written status patch true) := by
    rcases updateStatus_apply E false w.data p p site basis job.jobId status patch true with
      ⟨⟨e, he⟩, -⟩ | ⟨job', hjob', hjobs⟩
    · have hget : (w.data.projects p).jobs.get job.jobId = some old := hold
      simp only [Op.apply, JobStore.updateStatus, hget, hviolates] at he
      cases he
    · obtain rfl : old = job' := Option.some.inj (hold.symm.trans hjob')
      rw [if_pos rfl] at hjobs
      exact hjobs
  have hid : (old.written status patch true).jobId = job.jobId := hkey
  have hold' : w.data.job p (old.written status patch true).jobId = some old :=
    hid.symm ▸ hold
  have hheld : w.held (.execution p (old.written status patch true).jobId) = some i :=
    hid.symm ▸ howns.2
  have hguar : (accountContract p limit).guar i w v := by
    refine guar_of_put rfl rfl rfl rfl hheld hold' hstored rfl ⟨rfl, rfl⟩
      (Nat.le_succ _) (fun n revision _ h => hkept h) fun k => Or.inl ?_
    refine Work.recordedIn_le rfl rfl fun f _ => ?_
    rw [hrecords]
  have hstored' : v.data.job p job.jobId = some (old.written status patch true) := by
    unfold Data.job
    rw [hstored, Table.get_put, if_pos hid.symm]
  refine ⟨hguar, ⟨⟨hguar.1 howns.1, howns.2⟩, _, hstored', ?_⟩, fun l hl hj heq => ?_⟩
  · exact {
      taskId := hsame.taskId
      transitionId := hsame.transitionId
      attempts := congrArg (· + 1) hsame.attempts
      kept := fun h => hkept (hsame.kept h) }
  · obtain ⟨l, n, k⟩ := l
    obtain rfl : l = job.jobId := hj
    obtain ⟨started, hstarted, -, -, hn, -⟩ := howns.1.launched hl
    obtain rfl : old = started := Option.some.inj (hold.symm.trans hstarted)
    rw [hsame.attempts, show n = job.attempts + 1 from heq] at hn
    omega

/-- Starting the worker of an attempt that is recorded, counted and not
started yet. -/
theorem launch_step (fault : Bool) {job : ExecutionJob} {k : Work} {w : World}
    (hwork : k.taskId = job.taskId ∧ k.transitionId = job.transitionId)
    (hrecord : job.HasRecord (JobExecutor.attemptIdFor job.jobId job.attempts) k.revision)
    (hat : OwnsAt p limit i job w) (hfree : NotStarted p job.jobId job.attempts w) :
    let v := (w.step E i fault (.mark (.launches p job.jobId job.attempts k))).1
    (accountContract p limit).guar i w v ∧ Owns p limit job.jobId i v := by
  obtain ⟨howns, old, hold, hsame⟩ := hat
  intro v
  have hread : launched p v.history =
      (job.jobId, job.attempts, k) :: launched p w.history := by
    have hhead : v.history =
        ⟨i, fault, .mark (.launches p job.jobId job.attempts k), w.data⟩ :: w.history := rfl
    rw [hhead]
    simp [launched]
  have haccounted : Accounted p limit w → Accounted p limit v := fun h =>
    { own := h.own
      bound := h.bound
      launched := fun {l n k'} hl => by
        rw [hread] at hl
        rcases List.mem_cons.mp hl with heq | hl
        · cases heq
          exact ⟨old, hold, hsame.taskId.trans hwork.1.symm,
            hsame.transitionId.trans hwork.2.symm, hsame.attempts.ge, hsame.kept hrecord⟩
        · exact h.launched hl
      once := by
        rw [hread, List.map_cons, List.nodup_cons]
        refine ⟨fun hmem => ?_, h.once⟩
        obtain ⟨l, hl, heq⟩ := List.mem_map.mp hmem
        obtain ⟨hl₁, hl₂⟩ := Prod.mk.inj heq
        exact hfree l hl hl₁ hl₂ }
  refine ⟨⟨haccounted, fun l hil => ⟨haccounted, fun _ hm => hm,
    fun _ hjob => ⟨_, hjob, SameAttempts.refl _⟩, fun {m} hm x hx hxm => ?_,
    fun k' hk' => disturbed_cons (fun hl => absurd hl hil) hk',
    fun _ => Or.inl (Nat.le_refl _)⟩⟩, haccounted howns.1, howns.2⟩
  rw [hread] at hx
  rcases List.mem_cons.mp hx with rfl | hx
  · obtain rfl : job.jobId = m := hxm
    exact absurd (Option.some.inj (howns.2.symm.trans hm)) hil
  · exact hx

/-- Taking the execution lock of a job. -/
theorem lock_step (fault : Bool) {w : World} (h : Accounted p limit w)
    (hfree : enabled (.lock (.execution p j)) w = true) :
    let v := (w.step E i fault (.lock (.execution p j))).1
    (accountContract p limit).guar i w v ∧ Owns p limit j i v := by
  intro v
  have hnone : w.held (.execution p j) = none := Option.isNone_iff_eq_none.mp hfree
  have haccounted : Accounted p limit w → Accounted p limit v := fun h =>
    ⟨h.own, h.bound, h.launched, h.once⟩
  refine ⟨⟨haccounted, fun l hil => ⟨haccounted, fun m hm => ?_,
    fun _ hjob => ⟨_, hjob, SameAttempts.refl _⟩, fun _ _ hx _ => hx,
    fun k hk => disturbed_cons (fun hl => absurd hl hil) hk,
    fun _ => Or.inl (Nat.le_refl _)⟩⟩, haccounted h, ?_⟩
  · have hne : Lock.execution p m ≠ .execution p j := fun heq => by
      cases heq
      cases hnone.symm.trans hm
    exact (Function.update_of_ne hne _ _).trans hm
  · exact Function.update_self _ _ _

/-- Giving it back. -/
theorem unlock_step (fault : Bool) {w : World} (h : Owns p limit j i w) :
    let v := (w.step E i fault (.unlock (.execution p j))).1
    (accountContract p limit).guar i w v ∧ Accounted p limit v := by
  intro v
  have haccounted : Accounted p limit w → Accounted p limit v := fun h =>
    ⟨h.own, h.bound, h.launched, h.once⟩
  refine ⟨⟨haccounted, fun l hil => ⟨haccounted, fun m hm => ?_,
    fun _ hjob => ⟨_, hjob, SameAttempts.refl _⟩, fun _ _ hx _ => hx,
    fun k hk => disturbed_cons (fun hl => absurd hl hil) hk,
    fun _ => Or.inl (Nat.le_refl _)⟩⟩, haccounted h.1⟩
  have hne : Lock.execution p m ≠ .execution p j := fun heq => by
    cases heq
    exact hil (Option.some.inj (h.2.symm.trans hm))
  exact (Function.update_of_ne hne _ _).trans hm

end Steps

-- ==================================================== the executor's passes

section Passes

variable {E : Env} (X : JobExecutor) {i : Pid} {j : JobId} (a : Pass)

theorem owns_stable {p : ProjectId} {limit : Nat} :
    ∀ u v, Owns p limit j i u → Spares p limit i u v → Owns p limit j i v :=
  fun _ _ h huv => h.spares huv

/-- Programs beside attempts leave the process the lock. -/
theorem endsIn_owns {α : Type} {p : ProjectId} {limit : Nat} {q : Proc α} {w : World}
    (hq : Uses Op.besideAttempts q) (h : Owns p limit j i w) :
    EndsIn E p limit i (Owns p limit j i) q w :=
  endsIn_of_uses owns_stable hq h

/-- The account is read: where it answers that there is room, there is room
until another attempt of the work is admitted. -/
theorem repairWithinTotalAccount_safe (hlimit : 0 < X.totalAttemptLimit) (k : Work)
    {F : World → Prop} (stable : ∀ u v, F u → Spares X.project X.totalAttemptLimit i u v → F v)
    (quiet : ∀ u v, F u → Quiet X.project u v → F v)
    (accounted : ∀ v, F v → Accounted X.project X.totalAttemptLimit v)
    {w : World} (hF : F w) :
    Safe (machine E) (keepsAccount X.project)
      (accountContract X.project X.totalAttemptLimit) i
      (fun out v => F v ∧
        (out = .ok true → HasRoom X.project X.totalAttemptLimit i k v))
      (X.repairWithinTotalAccount E k) w := by
  unfold JobExecutor.repairWithinTotalAccount
  rw [if_neg (Nat.pos_iff_ne_zero.mp hlimit)]
  refine safe_perform fun v hv fault _ hadm => ?_
  have hquiet := quiet_step (o := .listJobs X.project) E (Or.inr trivial) hadm
  have hFv := stable w v hF hv
  refine ⟨hquiet.guar rfl rfl, ?_⟩
  have hnext := quiet v _ hFv hquiet
  cases fault with
  | true => exact ⟨hnext, fun h => by cases h⟩
  | false =>
      have hlisted : (Op.apply E false (.listJobs X.project) v.data).2 =
          .ok (v.data.projects X.project).jobs.values := rfl
      rw [hlisted]
      dsimp only
      split
      next => exact ⟨hnext, fun h => by cases h⟩
      next consumed hcount =>
        refine ⟨hnext, fun h => Or.inl ?_⟩
        have hroom : consumed < X.totalAttemptLimit := of_decide_eq_true (Except.ok.inj h)
        have hown : ∀ job ∈ (v.data.projects X.project).jobs.values,
            job.projectId = X.project := fun job hjob =>
          (accounted v hFv).own (Table.mem_values.mp hjob)
        exact Nat.lt_of_le_of_lt (recorded_le_consumed hown hcount) hroom

/-- An attempt is admitted while the account has room. -/
theorem admitAttempt_safe {job : ExecutionJob} {k : Work} {w : World}
    (hwork : k.taskId = job.taskId ∧ k.transitionId = job.transitionId)
    (hat : OwnsAt X.project X.totalAttemptLimit i job w)
    (hroom : HasRoom X.project X.totalAttemptLimit i k w) :
    Safe (machine E) (keepsAccount X.project)
      (accountContract X.project X.totalAttemptLimit) i
      (fun out v => Owns X.project X.totalAttemptLimit job.jobId i v ∧
        ∀ id, out = .ok id → ∃ old : ExecutionJob, old.jobId = job.jobId ∧
          SameAttempts job old ∧ OwnsAt X.project X.totalAttemptLimit i
            (old.recording (JobExecutor.admission job k)) v)
      (X.admitAttempt a job k) w := by
  unfold JobExecutor.admitAttempt
  cases hraises : a.baselineRaises with
  | some e => exact ⟨hat.1, fun _ h => by cases h⟩
  | none =>
      refine safe_perform fun v hv fault _ hadm => ?_
      obtain ⟨hguar, howns, hstored⟩ :=
        admit_step (E := E) hwork (hat.spares hv) (hroom.spares hv) hadm
      refine ⟨hguar, ?_⟩
      split
      next saved hsaved => exact ⟨howns, fun _ _ => hstored saved hsaved⟩
      next => exact ⟨howns, fun _ h => by cases h⟩

/-- The worker of a counted attempt is started and supervised. -/
theorem superviseWorker_safe {job : ExecutionJob} (counted : ExecutionJob) {k : Work}
    {w : World}
    (hid : counted.jobId = job.jobId) (hnumber : counted.attempts = job.attempts + 1)
    (hwork : k.taskId = counted.taskId ∧ k.transitionId = counted.transitionId)
    (hrecord : counted.HasRecord
      (JobExecutor.attemptIdFor counted.jobId counted.attempts) k.revision)
    (hat : OwnsAt X.project X.totalAttemptLimit i counted w)
    (hfree : NotStarted X.project counted.jobId counted.attempts w) :
    EndsIn E X.project X.totalAttemptLimit i
      (Owns X.project X.totalAttemptLimit job.jobId i) (X.superviseWorker a job k) w := by
  refine Safe.ensure (Safe.mono (Q := fun _ v =>
    Owns X.project X.totalAttemptLimit job.jobId i v) ?_ fun out v hv => ?_)
  · refine EndsIn.bind (F := Owns X.project X.totalAttemptLimit job.jobId i) ?_
      (fun _ h => h) fun result v hv => ?_
    · refine safe_perform fun v hv fault _ _ => ?_
      rw [← hid, ← hnumber]
      obtain ⟨hguar, howns⟩ := launch_step (E := E) fault hwork hrecord
        (hat.spares hv) (hfree.spares hat.1.2 hv)
      refine ⟨hguar, endsIn_owns ?_ howns⟩
      refine (uses_onlyIf (failWorker_uses job X a _)).bind fun _ => ?_
      split <;> trivial
    · exact endsIn_owns ((uses_onlyIf (waitForCompletionSettlement_uses X _ _)).bind
        fun _ => trivial) hv
  · refine Safe.mono (endsIn_owns ((uses_mayRaise _).bind fun _ => trivial) hv)
      fun out' v' hv' => ?_
    cases out' <;> exact hv'

/-- An admitted attempt is counted before its worker is started. -/
theorem runAttempt_safe {job : ExecutionJob} (stored : ExecutionJob) {k : Work}
    {attemptId : String} {repairMode contract : Bool} {w : World} (hid : stored.jobId = job.jobId)
    (hnumber : stored.attempts = job.attempts)
    (hwork : k.taskId = stored.taskId ∧ k.transitionId = stored.transitionId)
    (hrecord : stored.HasRecord
      (JobExecutor.attemptIdFor job.jobId (job.attempts + 1)) k.revision)
    (hat : OwnsAt X.project X.totalAttemptLimit i stored w) :
    EndsIn E X.project X.totalAttemptLimit i
      (Owns X.project X.totalAttemptLimit job.jobId i)
      (X.runAttempt a job k attemptId repairMode contract) w := by
  let counted : ExecutionJob := { stored with attempts := stored.attempts + 1 }
  let Ready : World → Prop := fun v =>
    OwnsAt X.project X.totalAttemptLimit i counted v ∧
      NotStarted X.project counted.jobId counted.attempts v
  have hstable : ∀ u v, Ready u → Spares X.project X.totalAttemptLimit i u v → Ready v :=
    fun u v h huv => ⟨h.1.spares huv, h.2.spares h.1.1.2 huv⟩
  have howns : ∀ v, Ready v → Owns X.project X.totalAttemptLimit job.jobId i v :=
    fun v h => hid ▸ h.1.1
  have hstart : ∀ v, Ready v → EndsIn E X.project X.totalAttemptLimit i
      (Owns X.project X.totalAttemptLimit job.jobId i) (do
        X.updateAttempt job.jobId attemptId .running none
        return (Sum.inr (← X.superviseWorker a job k) :
          Sum ExecutorRunResult (Option WorkerResult))) v := by
    intro v hv
    refine EndsIn.bind (endsIn_of_uses hstable (updateAttempt_uses X _ _ (by decide) _) hv)
      howns fun _ v hv => ?_
    refine EndsIn.bind (F := Owns X.project X.totalAttemptLimit job.jobId i) ?_
      (fun _ h => h) fun _ _ h => h
    refine superviseWorker_safe X a counted hid
      (congrArg (· + 1) hnumber) hwork ?_ hv.1 hv.2
    rw [show counted.jobId = job.jobId from hid,
      show counted.attempts = job.attempts + 1 from congrArg (· + 1) hnumber]
    exact hrecord
  have hfail : ∀ (error : DomainError) v, Ready v →
      EndsIn E X.project X.totalAttemptLimit i
        (Owns X.project X.totalAttemptLimit job.jobId i) (do
          let answer ← X.failBeforeRun a job error
          return (Sum.inl answer : Sum ExecutorRunResult (Option WorkerResult))) v := by
    intro error v hv
    exact endsIn_owns ((failBeforeRun_uses job X a _).bind fun _ => trivial) (howns v hv)
  unfold JobExecutor.runAttempt
  -- the write that counts the attempt
  refine safe_perform fun v hv fault _ hadm => ?_
  have hpatch : (if repairMode then
      { frozen := a.promptKeys, repairReady := some false
        repairAttempts := some (job.metadata.repairAttempts + 1) }
      else { frozen := a.promptKeys } : MetadataPatch).attemptRecords = none := by
    split <;> rfl
  obtain ⟨hguar, hready⟩ := count_step (E := E) hid hpatch (hat.spares hv) hadm
  refine ⟨hguar, ?_⟩
  refine EndsIn.bind (endsIn_of_uses hstable (emit_uses job X a _ _) hready) howns
    fun _ v hv => ?_
  refine EndsIn.bind (endsIn_of_uses hstable (uses_mayRaise _) hv) howns fun _ v hv => ?_
  split
  · split
    · exact hfail _ v hv
    · have henvironment : Uses Op.besideAttempts
          (X.setStatus .verificationEnvironment none job.jobId .running {}) :=
        ⟨⟨respectsSettled_of_none, rfl, rfl⟩, fun _ => trivial⟩
      refine EndsIn.bind (endsIn_of_uses hstable henvironment hv) howns fun saved v hv => ?_
      split
      · exact hfail _ v hv
      · exact hstart v hv
  · exact hstart v hv

/-- After a worker has ended the process has the lock, and the next pass
starts with it. -/
theorem afterRun_safe (hlimit : 0 < X.totalAttemptLimit) {job : ExecutionJob} {k : Work}
    {again : Proc ExecutorRunResult} {result : WorkerResult} {w : World}
    (hagain : ∀ v, Owns X.project X.totalAttemptLimit j i v →
      EndsIn E X.project X.totalAttemptLimit i
        (Owns X.project X.totalAttemptLimit j i) again v)
    (howns : Owns X.project X.totalAttemptLimit j i w) :
    EndsIn E X.project X.totalAttemptLimit i (Owns X.project X.totalAttemptLimit j i)
      (X.afterRun E a job k again result) w := by
  have hdone : ∀ {q : Proc Unit} {answer : ExecutorRunResult} v,
      Uses Op.besideAttempts q → Owns X.project X.totalAttemptLimit j i v →
      EndsIn E X.project X.totalAttemptLimit i (Owns X.project X.totalAttemptLimit j i)
        (do q; return answer) v :=
    fun v hq hv => endsIn_owns (hq.bind fun _ => trivial) hv
  unfold JobExecutor.afterRun
  refine EndsIn.bind (endsIn_owns (uses_mayRaise _) howns) (fun _ h => h) fun _ v hv => ?_
  refine EndsIn.bind (endsIn_owns (uses_perform trivial) hv) (fun _ h => h)
    fun loaded v hv => ?_
  split
  · exact hv
  · refine EndsIn.bind (endsIn_owns (uses_perform trivial) hv) (fun _ h => h)
      fun repaired v hv => ?_
    split
    · refine Safe.bind (Safe.mono (repairWithinTotalAccount_safe X hlimit k owns_stable
        (fun _ _ h hq => h.quiet hq) (fun _ h => h.1) hv) fun out v hv => ?_)
      cases out with
      | error e => exact hv.1
      | ok within =>
          cases within with
          | true => exact hagain v hv.1
          | false => exact hdone v (failAtTotalAttemptBound_uses job X a) hv.1
    · exact hv
  · exact hdone v (preserveFailureEvidence_uses job X a) hv
  · exact hdone v (preserveFailureEvidence_uses job X a) hv
  · exact hdone v (preserveFailureEvidence_uses job X a) hv
  · exact hdone v (failWorker_uses job X a _) hv

/-- The job after a pass has admitted its attempt. -/
def Admitted (X : JobExecutor) (i : Pid) (job : ExecutionJob) (k : Work) (v : World) :
    Prop :=
  ∃ old : ExecutionJob, old.jobId = job.jobId ∧ SameAttempts job old ∧
    OwnsAt X.project X.totalAttemptLimit i
      (old.recording (JobExecutor.admission job k)) v

/-- Preparing an attempt ends in an answer or in an admitted attempt. -/
theorem prepareAttempt_safe {job : ExecutionJob} {k : Work} {w : World}
    (hwork : k.taskId = job.taskId ∧ k.transitionId = job.transitionId)
    (hat : OwnsAt X.project X.totalAttemptLimit i job w)
    (hroom : HasRoom X.project X.totalAttemptLimit i k w) :
    Safe (machine E) (keepsAccount X.project)
      (accountContract X.project X.totalAttemptLimit) i
      (fun out v => Owns X.project X.totalAttemptLimit job.jobId i v ∧
        ∀ id, out = .ok (.inr id) → Admitted X i job k v)
      (X.prepareAttempt a job k) w := by
  unfold JobExecutor.prepareAttempt
  cases hprepared : a.prepared with
  | error e => exact ⟨hat.1, fun _ h => by cases h⟩
  | ok found =>
      cases found with
      | some error =>
          show Safe _ _ _ i _
            (X.failBeforeRun a job error >>= fun answer => .ret (Sum.inl answer)) w
          refine Safe.bind (Safe.mono (endsIn_owns (failBeforeRun_uses job X a error) hat.1)
            fun out v hv => ?_)
          cases out with
          | ok answer => exact ⟨hv, fun _ h => by cases h⟩
          | error e => exact ⟨hv, fun _ h => by cases h⟩
      | none =>
          show Safe _ _ _ i _ (X.admitAttempt a job k >>= fun id => .ret (Sum.inr id)) w
          refine Safe.bind (Safe.mono (admitAttempt_safe X a hwork hat hroom)
            fun out v hv => ?_)
          cases out with
          | ok id => exact ⟨hv.1, fun _ _ => hv.2 id rfl⟩
          | error e => exact ⟨hv.1, fun _ h => by cases h⟩

/-- The record an admitted job has of the attempt. -/
theorem hasRecord_recording {job old : ExecutionJob} {k : Work} :
    (old.recording (JobExecutor.admission job k)).HasRecord
      (JobExecutor.attemptIdFor job.jobId (job.attempts + 1)) k.revision :=
  ⟨_, mem_upsertAttempt.mpr (Or.inr rfl), rfl, rfl⟩

/-- A pass from the account it has read on. -/
theorem attempt_safe (hlimit : 0 < X.totalAttemptLimit) {job : ExecutionJob} {k : Work}
    {contract leased : Bool} {again : Proc ExecutorRunResult} {w : World}
    (hagain : ∀ v, Owns X.project X.totalAttemptLimit job.jobId i v →
      EndsIn E X.project X.totalAttemptLimit i
        (Owns X.project X.totalAttemptLimit job.jobId i) again v)
    (hwork : k.taskId = job.taskId ∧ k.transitionId = job.transitionId)
    (hat : OwnsAt X.project X.totalAttemptLimit i job w)
    (hroom : HasRoom X.project X.totalAttemptLimit i k w) :
    EndsIn E X.project X.totalAttemptLimit i
      (Owns X.project X.totalAttemptLimit job.jobId i)
      (X.attempt E a job k contract leased again) w := by
  have hrelease : Uses Op.besideAttempts (onlyIf leased (releaseJob job.jobId)) :=
    uses_onlyIf (releaseJob_uses _)
  have hexception : ∀ (e : Raised) v, Owns X.project X.totalAttemptLimit job.jobId i v →
      EndsIn E X.project X.totalAttemptLimit i
        (Owns X.project X.totalAttemptLimit job.jobId i) (X.executorException a job e) v :=
    fun e v hv => endsIn_owns (executorException_uses job X a e) hv
  have hrun : ∀ attemptId v, Admitted X i job k v →
      EndsIn E X.project X.totalAttemptLimit i
        (Owns X.project X.totalAttemptLimit job.jobId i)
        (X.execute E a job k contract again attemptId) v := by
    rintro attemptId v ⟨old, hid, hsame, hstored⟩
    refine EndsIn.bind (F := Owns X.project X.totalAttemptLimit job.jobId i) ?_
      (fun _ h => h) fun ended v hv => ?_
    · exact runAttempt_safe X a (old.recording (JobExecutor.admission job k)) hid
        hsame.attempts ⟨hwork.1.trans hsame.taskId.symm, hwork.2.trans hsame.transitionId.symm⟩
        hasRecord_recording hstored
    · split
      · exact hv
      · exact hv
      · exact afterRun_safe X a hlimit hagain hv
  unfold JobExecutor.attempt
  refine Safe.bind (Safe.tryCatch (Safe.mono (prepareAttempt_safe X a hwork hat hroom)
    fun out v hv => ?_))
  cases out with
  | error e =>
      refine Safe.bind (Safe.mono (hexception e v hv.1) fun out v hv => ?_)
      cases out with
      | error e => exact hv
      | ok answer => exact endsIn_owns (hrelease.bind fun _ => trivial) hv
  | ok prepared =>
      cases prepared with
      | inl answer => exact endsIn_owns (hrelease.bind fun _ => trivial) hv.1
      | inr attemptId =>
          -- the attempt is settled and the leases released on every way out
          refine Safe.ensure (Safe.mono (Q := fun _ v =>
            Owns X.project X.totalAttemptLimit job.jobId i v) ?_ fun out v hv => ?_)
          · refine Safe.tryCatch (Safe.mono (hrun attemptId v (hv.2 attemptId rfl))
              fun out v hv => ?_)
            cases out with
            | ok answer => exact hv
            | error e => exact hexception e v hv
          · refine Safe.mono (endsIn_owns ((settleAttempt_uses X _ _).bind
              fun _ => hrelease) hv) fun out' v' hv' => ?_
            cases out' <;> exact hv'

/-- One pass on the job read under its lock. -/
theorem runJob_safe (hlimit : 0 < X.totalAttemptLimit) {job : ExecutionJob}
    {again : Proc ExecutorRunResult} {w : World}
    (hagain : ∀ v, Owns X.project X.totalAttemptLimit job.jobId i v →
      EndsIn E X.project X.totalAttemptLimit i
        (Owns X.project X.totalAttemptLimit job.jobId i) again v)
    (hat : OwnsAt X.project X.totalAttemptLimit i job w) :
    EndsIn E X.project X.totalAttemptLimit i
      (Owns X.project X.totalAttemptLimit job.jobId i) (X.runJob E a job again) w := by
  have hfail : ∀ (error : DomainError) v,
      OwnsAt X.project X.totalAttemptLimit i job v →
      EndsIn E X.project X.totalAttemptLimit i
        (Owns X.project X.totalAttemptLimit job.jobId i) (X.failBeforeRun a job error) v :=
    fun error v hv => endsIn_owns (failBeforeRun_uses job X a error) hv.1
  unfold JobExecutor.runJob
  split
  · exact hat.1
  · split
    · exact hfail _ w hat
    next contract _ =>
      split
      · exact hfail _ w hat
      next planning _ =>
        split
        · exact hat.1
        · refine EndsIn.bind (F := OwnsAt X.project X.totalAttemptLimit i job)
            (endsIn_of_uses (fun _ _ h huv => h.spares huv) (uses_read trivial _) hat)
            (fun _ h => h.1) fun task v hv => ?_
          split
          · exact hv.1
          next task =>
            have hstable : ∀ u v, OwnsAt X.project X.totalAttemptLimit i job u →
                Spares X.project X.totalAttemptLimit i u v →
                OwnsAt X.project X.totalAttemptLimit i job v := fun _ _ h huv => h.spares huv
            refine Safe.bind (Safe.tryCatch (Safe.bind (Safe.mono
              (repairWithinTotalAccount_safe X hlimit (X.workOf job contract planning task)
                hstable (fun _ _ h hq => h.quiet hq) (fun _ h => h.1.1) hv)
              fun out v hv => ?_)))
            cases out with
            | error e => exact hfail _ v hv.1
            | ok within =>
                cases within with
                | false => exact endsIn_owns ((failAtTotalAttemptBound_uses job X a).bind
                    fun _ => trivial) hv.1.1
                | true =>
                    have hroom := hv.2 rfl
                    refine EndsIn.bind (F := fun v =>
                      OwnsAt X.project X.totalAttemptLimit i job v ∧
                        HasRoom X.project X.totalAttemptLimit i
                          (X.workOf job contract planning task) v)
                      (endsIn_of_uses (fun _ _ h huv => ⟨h.1.spares huv, h.2.spares huv⟩)
                        (acquireLeases_uses job X) ⟨hv.1, hroom⟩)
                      (fun _ h => h.1.1) fun leased v hv => ?_
                    split
                    · exact hv.1.1
                    · exact attempt_safe X a hlimit hagain ⟨rfl, rfl⟩ hv.1 hv.2

/-- The passes of an executor that has the lock of the job. -/
theorem runClaimed_safe (hlimit : 0 < X.totalAttemptLimit) (id : JobId)
    (passes : List Pass) : ∀ w, Owns X.project X.totalAttemptLimit id i w →
      EndsIn E X.project X.totalAttemptLimit i (Owns X.project X.totalAttemptLimit id i)
        (X.runClaimed E id passes) w := by
  induction passes with
  | nil => exact fun w h => h
  | cons a rest ih =>
      intro w h
      refine safe_perform fun v hv fault _ hadm => ?_
      have hquiet := quiet_step (o := .getJob X.project id) E (Or.inl trivial) hadm
      have hv := h.spares hv
      refine ⟨hquiet.guar rfl rfl, ?_⟩
      split
      next e _ => exact hv.quiet hquiet
      next job hjob =>
        have hget : v.data.job X.project id = some job := job_of_getJob hjob
        obtain rfl : job.jobId = id := Table.key_of_get hget
        refine runJob_safe X a hlimit ih ?_
        obtain ⟨job', hjob', hsame⟩ := hquiet.job hget
        exact ⟨hv.quiet hquiet, job', hjob', hsame⟩

/-- An executor from its start. -/
theorem run_safe (hlimit : 0 < X.totalAttemptLimit) (id : JobId) (passes : List Pass)
    {w : World} (h : Accounted X.project X.totalAttemptLimit w) :
    EndsIn E X.project X.totalAttemptLimit i
      (Accounted X.project X.totalAttemptLimit) (X.run E id passes) w := by
  refine safe_perform fun v hv fault hen _ => ?_
  obtain ⟨hguar, howns⟩ := lock_step (E := E) (i := i) fault (hv.accounted h) hen
  refine ⟨hguar, Safe.ensure (Safe.mono (runClaimed_safe X hlimit id passes _ howns)
    fun out v hv => ?_)⟩
  refine safe_perform fun u hu fault _ _ => ?_
  obtain ⟨hguar, haccounted⟩ := unlock_step (E := E) fault (hv.spares hu)
  exact ⟨hguar, haccounted⟩

end Passes

-- ============================================================= the runs

/-- A restart settles attempts and fails jobs. -/
theorem endAttempts_uses (p : ProjectId) (id failure : JobId)
    (records : List AttemptRecord) :
    Uses Op.besideAttempts (endAttempts p id failure records) := by
  induction records with
  | nil => trivial
  | cons r rest ih => exact uses_perform_bind (fun h => nomatch h) fun _ => ih

theorem reconcileJob_uses (p : ProjectId) (ulid : JobId → String) (job : ExecutionJob) :
    Uses Op.besideAttempts (reconcileJob p ulid job) := by
  unfold reconcileJob
  split
  · refine uses_perform_bind ⟨respectsSettled_of_none, rfl, rfl⟩ fun saved => ?_
    split
    · trivial
    · refine Uses.bind (uses_perform_bind trivial fun loaded => ?_) fun _ => ?_
      · split
        · trivial
        · exact endAttempts_uses _ _ _ _
      · refine (releaseJob_uses _).bind fun _ => ?_
        exact uses_perform_bind trivial fun _ => trivial
  · trivial

theorem reconcileActiveRuntimeJobs_uses (p q : ProjectId) (ulid : JobId → String) :
    Uses (Op.besideAccount p) (reconcileActiveRuntimeJobs q ulid) := by
  refine uses_perform_bind (Or.inr trivial) fun listed => ?_
  split
  · trivial
  next jobs =>
    have hjobs : Uses Op.besideAttempts (reconcileJobs q ulid jobs) := by
      induction jobs with
      | nil => trivial
      | cons job rest ih => exact (reconcileJob_uses _ _ _).bind fun _ => ih
    exact hjobs.mono fun _ => Or.inl

/-- A scheduling call creates a job without attempts. -/
theorem scheduleOneLocked_uses (S : Scheduler) (view : Data → RuntimeView)
    (A : Data → Account) (p q : ProjectId)
    (hfresh : ∀ task transition id metadata,
      S.prepareJob task transition = .ok (id, metadata) → metadata.attemptRecords = []) :
    Uses (Op.besideAccount p) (scheduleOneLocked S view A q) := by
  refine uses_withLock (Or.inl trivial) (Or.inl trivial) ?_
  refine uses_perform_bind (Or.inl trivial) fun d => ?_
  split
  · trivial
  next job hjob =>
    refine uses_perform_bind (Or.inr fun hq => ?_) fun _ => trivial
    obtain ⟨taskId, transitionId, hmade⟩ := scheduleOne_created hjob
    obtain ⟨-, task, transition, worker, id, metadata, -, -, -, hprepare, rfl⟩ :=
      createExecutionJob_eq_ok hmade
    exact ⟨hq, hfresh task transition id metadata hprepare⟩

/-- The processes of a project: executors with the limit, scheduling calls,
restarts, submissions, recovery, and statuses set on the command line. -/
inductive AttemptProcess (E : Env) (p : ProjectId) (limit : Nat) : Proc Unit → Prop where
  | run (X : JobExecutor) (hproject : X.project = p) (hlimit : X.totalAttemptLimit = limit)
      (id : JobId) (passes : List Pass) :
      AttemptProcess E p limit (do let _ ← X.run E id passes)
  | schedule (S : Scheduler) (view : Data → RuntimeView) (A : Data → Account)
      (hfresh : ∀ task transition id metadata,
        S.prepareJob task transition = .ok (id, metadata) → metadata.attemptRecords = []) :
      AttemptProcess E p limit (scheduleOneLocked S view A p)
  | restart (ulid : JobId → String) :
      AttemptProcess E p limit (reconcileActiveRuntimeJobs p ulid)
  | submit (V : CompletionService) (call : SubmitCall) :
      AttemptProcess E p limit (do let _ ← OpenTulid.submit E V call)
  | recover (V : CompletionService) :
      AttemptProcess E p limit (do let _ ← recoverCompletionTransactions E V)
  | set (q : ProjectId) (ulid : String) (id : JobId) (status : ExecutionJobStatus) :
      AttemptProcess E p limit (setJobStatus q ulid id status)

/-- Every process keeps launches accounted for. -/
theorem AttemptProcess.safe {E : Env} {p : ProjectId} {limit : Nat} (hlimit : 0 < limit)
    {q : Proc Unit} (hq : AttemptProcess E p limit q) {i : Pid} {w : World}
    (h : Accounted p limit w) :
    EndsIn E p limit i (fun _ => True) q w := by
  have hbeside : ∀ {q : Proc Unit}, Uses (Op.besideAccount p) q →
      EndsIn E p limit i (fun _ => True) q w := fun hq =>
    Safe.of_uses (fun _ _ _ _ => trivial)
      (fun o v fault ho _ hadm => ⟨(quiet_step E ho hadm).guar rfl rfl, trivial⟩) hq trivial
  have hattempts : ∀ {q : Proc Unit}, Uses Op.besideAttempts q →
      EndsIn E p limit i (fun _ => True) q w := fun hq => hbeside (hq.mono fun _ => Or.inl)
  cases hq with
  | run X hproject hX id passes =>
      subst hproject hX
      refine EndsIn.bind (F := fun _ => True) ?_ (fun _ h => h) fun _ _ h => h
      exact Safe.mono (run_safe X hlimit id passes h) fun _ _ _ => trivial
  | schedule S view A hfresh => exact hbeside (scheduleOneLocked_uses S view A p p hfresh)
  | restart ulid => exact hbeside (reconcileActiveRuntimeJobs_uses p p ulid)
  | submit V call => exact hattempts ((submit_uses E V call).bind fun _ => trivial)
  | recover V =>
      exact hattempts ((recoverCompletionTransactions_beside E V).bind fun _ => trivial)
  | set q ulid id status => exact hattempts (setJobStatus_uses q ulid id status)

/-- Launches are bounded along the runs of a condition: from job stores of the
project's own jobs with no more records of a work than the limit, no run of
its processes starts more workers for a work than the limit. -/
def BoundsLaunches (E : Env) (A : ProjectId → Par.Admission Pid Op World) : Prop :=
  ∀ (p : ProjectId) (limit : Nat) (d : Data) (programs : List (Proc Unit))
    (c : Config Pid Op Op.Res Raised Unit World),
    0 < limit →
    (∀ job ∈ (d.projects p).jobs.values, job.projectId = p) →
    (∀ k, recorded p k d ≤ limit) →
    (∀ q ∈ programs, AttemptProcess E p limit q) →
    Run (machine E) (A p) (system d programs) c →
    ∀ k, launches p k c.world.history ≤ limit

/-- Where the writes that count attempts go through and no account changes
between its reading and an admission, launches are bounded. -/
theorem boundsLaunches_of_keepsAccount (E : Env) : BoundsLaunches E keepsAccount := by
  intro p limit d programs c hlimit hown hbound hprograms hrun k
  have hstart : Accounted p limit (system d programs).world :=
    { own := fun {id job} hjob => by
        have hkey : job.jobId = id := Table.key_of_get hjob
        exact hown job (Table.mem_values.mpr (hkey ▸ hjob))
      bound := hbound
      launched := fun hl => nomatch hl
      once := List.nodup_nil }
  have hsafe : Par.AllSafe (machine E) (keepsAccount p) (accountContract p limit)
      (fun _ _ _ => True) (system d programs) := fun i q hq =>
    (hprograms q (List.mem_of_getElem? hq)).safe hlimit hstart
  have haccounted : Accounted p limit c.world := by
    refine hsafe.invariant (accountContract_fits E) (fun _ _ _ _ h _ => h)
      (fun w v hmoved h => ?_) hrun hstart
    rcases hmoved with ⟨i, hguar⟩ | ⟨i, -, rfl⟩
    · exact hguar.1 h
    · exact h.crash
  exact haccounted.launches_le k

-- =================================================== an uncounted launch

/-- An executor of the small project that may start two workers. -/
def smallExecutor : JobExecutor where
  project := "p"
  totalAttemptLimit := 2

/-- A pass in which everything outside goes well. -/
def smallPass : Pass where
  ulid n := toString n
  worker := { result := .ok none }

/-- The work of the small project's job. -/
def smallWork : Work where
  taskId := "1"
  transitionId := "implement"
  revision := taskSemanticRevision id
    { id := "1", title := "Task", currentState := "Todo", body := [.title "Task"] } []

/-- The steps of an executor from its lock to the launch, with the write that
counts the attempt lost or not, and its crash. -/
def launchSteps (i : Pid) (lost : Bool) : List (Par.Label Pid) :=
  List.replicate 5 (.step i false) ++ [.step i lost] ++ List.replicate 4 (.step i false) ++
    [.crash i]

/-- The first executor's worker is started although the write that counts
its attempt is lost. The second executor's admission replaces its record, so
that the third still finds room. -/
theorem uncounted_launch_exceeds_limit :
    ¬ BoundsLaunches smallEnv fun _ => Par.Admission.any := by
  intro h
  let run : Proc Unit := do let _ ← smallExecutor.run smallEnv "j" [smallPass]
  have hprocess : AttemptProcess smallEnv "p" 2 run := .run smallExecutor rfl rfl "j" _
  obtain ⟨c, hrun, hthree⟩ := Par.exists_run_of_nexts (M := machine smallEnv)
    (l := launchSteps 0 true ++ launchSteps 1 false ++ launchSteps 2 false)
    (c := system (smallData .pending) [run, run, run])
    (P := fun c => launches "p" smallWork c.world.history = 3) (by decide +kernel)
  have hbound := h "p" 2 (smallData .pending) [run, run, run] c (by decide)
    (by decide +kernel) (fun k => ?_) (fun q hq => ?_) hrun smallWork
  · rw [of_decide_eq_true hthree] at hbound
    exact absurd hbound (by decide)
  · show k.recordedIn (smallJob .pending) + 0 ≤ 2
    unfold Work.recordedIn
    split <;> exact Nat.zero_le _
  · simp only [List.mem_cons, List.not_mem_nil, or_false, or_self] at hq
    exact hq ▸ hprocess

end OpenTulid
