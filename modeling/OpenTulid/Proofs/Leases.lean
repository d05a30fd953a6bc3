/-
No lease is taken from a job that can still run: which runs keep a sweep of
the lease store from removing a lease of a runnable job.

A sweep lists the jobs of every configured project, takes the lease lock,
and removes the leases of all jobs it has not found active. Between the
listing and the end of the sweep the job stores are free, so a job can
become runnable after it was passed over; and a job whose completion is
being validated is runnable but not among the statuses the sweep counts as
active. `leavesSweepsAlone` excludes both: nothing that holds a lease is in
validation when it is listed, and no job a sweep has passed over becomes
runnable with a lease, or gets a lease while it is runnable, before that
sweep is over.

# Method

`Overlooked` reads off the history which jobs an open sweep has passed
over. That no lease belongs to a runnable overlooked job is an invariant of
every admitted step of any program (`leased_step`); that a sweep removes the
leases of overlooked jobs only is a fact about the sweep's program
(`sweep_safe`), proved from its own entries in the history, which no other
process can change.
-/
import OpenTulid.Proofs.Frame
import OpenTulid.Runtime.Resources

namespace OpenTulid

open Par (Step Run Config Safe)

/-- The statuses in which a job can still run. -/
def ExecutionJobStatus.runnable : ExecutionJobStatus → Bool
  | .pending => true
  | .running => true
  | .completionSubmitted => true
  | .completionRejected => true
  | _ => false

/-- Some stored job of the project has the id and such a status. -/
def Data.hasJob (d : Data) (p : ProjectId)
    (statuses : ExecutionJobStatus → Bool) (id : JobId) : Bool :=
  (d.projects p).jobs.values.any fun job => job.jobId = id && statuses job.status

/-- Some lease is held for the job. -/
def Data.leased (d : Data) (id : JobId) : Bool :=
  d.leases.any fun l => l.jobId = id

/-- The entry lists the jobs of a project. -/
def Entry.lists (e : Entry) (p : ProjectId) : Prop :=
  e.fault = false ∧ e.op = .listJobs p

/-- The entry ends a sweep: the lease lock is released, or the process has
crashed. -/
def Entry.closes (e : Entry) : Prop :=
  e.op = .unlock .leases ∨ e.op = .mark .crashed

/-- The process has listed the project, found no job of the id it counts as
active, and its sweep is not over. -/
def Overlooked (i : Pid) (p : ProjectId) (id : JobId)
    (history : List Entry) : Prop :=
  (∃ e ∈ own i history, e.lists p) ∧
    (∀ e ∈ own i history, e.lists p →
      e.before.hasJob p ExecutionJobStatus.keepsLease id = false) ∧
    ∀ e ∈ own i history, ¬ e.closes

/-- The steps that leave the sweeps alone: when a sweep lists a project, no
job there that holds a lease is in validation; and a job overlooked by an
open sweep neither becomes runnable while it holds a lease nor gets a lease
while it is runnable. -/
def leavesSweepsAlone (sweeps : Pid → Option (List ProjectId)) (E : Env) :
    Par.Admission Pid Op World where
  step i fault o w :=
    (∀ ps p id, sweeps i = some ps → p ∈ ps → o = .listJobs p →
      w.data.leased id = true →
      w.data.hasJob p (· = .completionSubmitted) id = false) ∧
    (∀ j ps p id, sweeps j = some ps → p ∈ ps → Overlooked j p id w.history →
      (w.data.leased id = true →
        w.data.hasJob p ExecutionJobStatus.runnable id = false →
        (o.apply E fault w.data).1.hasJob p ExecutionJobStatus.runnable id = false) ∧
      (∀ lease, o = .writeLease lease → lease.jobId = id →
        w.data.hasJob p ExecutionJobStatus.runnable id = false))
  crash _ _ := True

/-- The operation removes the lease. -/
def Op.removes (lease : ResourceLease) : Op → Bool
  | .removeLease l => l = lease
  | _ => false

theorem Op.eq_of_removes {lease : ResourceLease} {o : Op}
    (h : o.removes lease = true) : o = .removeLease lease := by
  cases o with
  | removeLease l => exact congrArg Op.removeLease (of_decide_eq_true h)
  | _ => cases h

-- ================================================ the overlooked jobs

/-- A job overlooked after a step was overlooked before, or the step has
just listed the project without it. -/
theorem overlooked_cons {i j : Pid} {fault : Bool} {o : Op} {d : Data}
    {p : ProjectId} {id : JobId} {history : List Entry}
    (h : Overlooked j p id (⟨i, fault, o, d⟩ :: history)) :
    Overlooked j p id history ∨
      i = j ∧ fault = false ∧ o = .listJobs p ∧
        d.hasJob p ExecutionJobStatus.keepsLease id = false := by
  obtain ⟨⟨e, he, hlists⟩, hpassed, hopen⟩ := h
  by_cases hij : i = j
  · subst hij
    rw [own_cons_self] at he hpassed hopen
    by_cases hold : ∃ e ∈ own i history, e.lists p
    · left
      exact ⟨hold, fun e he => hpassed e (List.mem_cons_of_mem _ he),
        fun e he => hopen e (List.mem_cons_of_mem _ he)⟩
    · right
      rcases List.mem_cons.mp he with rfl | he
      · exact ⟨rfl, hlists.1, hlists.2, hpassed _ List.mem_cons_self hlists⟩
      · exact absurd ⟨e, he, hlists⟩ hold
  · rw [own_cons_of_ne hij] at he hpassed hopen
    exact Or.inl ⟨⟨e, he, hlists⟩, hpassed, hopen⟩

/-- A runnable job that is not in validation is counted as active. -/
theorem hasJob_keepsLease {d : Data} {p : ProjectId} {id : JobId}
    (hrun : d.hasJob p ExecutionJobStatus.runnable id = true)
    (hvalid : d.hasJob p (· = .completionSubmitted) id = false) :
    d.hasJob p ExecutionJobStatus.keepsLease id = true := by
  obtain ⟨job, hjob, hid⟩ := List.any_eq_true.mp hrun
  simp only [Bool.and_eq_true, decide_eq_true_eq] at hid
  have hnot := List.any_eq_false.mp hvalid job hjob
  refine List.any_eq_true.mpr ⟨job, hjob, ?_⟩
  cases hs : job.status <;>
    simp_all [ExecutionJobStatus.runnable, ExecutionJobStatus.keepsLease]

/-- No lease belongs to a runnable job that an open sweep has overlooked. -/
def NoneOverlooked (sweeps : Pid → Option (List ProjectId)) (w : World) : Prop :=
  ∀ j ps p id, sweeps j = some ps → p ∈ ps → Overlooked j p id w.history →
    w.data.leased id = true →
    w.data.hasJob p ExecutionJobStatus.runnable id = false

/-- An operation leases a job anew only by writing its lease. -/
theorem leased_apply {E : Env} {fault : Bool} {o : Op} {d : Data} {id : JobId}
    (h : (o.apply E fault d).1.leased id = true) :
    d.leased id = true ∨ ∃ lease, o = .writeLease lease ∧ lease.jobId = id := by
  cases hw : o.writesLeases with
  | false =>
      unfold Data.leased at h ⊢
      rw [leases_apply hw] at h
      exact Or.inl h
  | true =>
      obtain ⟨l, hl, hid⟩ := List.any_eq_true.mp h
      cases o with
      | writeLease lease =>
          simp only [Op.apply] at hl
          split at hl
          · exact Or.inl (List.any_eq_true.mpr ⟨l, hl, hid⟩)
          · rcases List.mem_cons.mp hl with rfl | hl
            · exact Or.inr ⟨_, rfl, by simpa using hid⟩
            · exact Or.inl (List.any_eq_true.mpr
                ⟨l, (List.mem_filter.mp hl).1, hid⟩)
      | removeLease lease =>
          simp only [Op.apply] at hl
          split at hl
          · exact Or.inl (List.any_eq_true.mpr ⟨l, hl, hid⟩)
          · exact Or.inl (List.any_eq_true.mpr ⟨l, (List.mem_filter.mp hl).1, hid⟩)
      | _ => cases hw

/-- Every admitted step keeps the leases of runnable jobs out of reach of
the open sweeps. -/
theorem leased_step {E : Env} {sweeps : Pid → Option (List ProjectId)}
    {i : Pid} {fault : Bool} {o : Op} {w : World}
    (hadm : (leavesSweepsAlone sweeps E).step i fault o w)
    (hw : NoneOverlooked sweeps w) :
    NoneOverlooked sweeps (w.step E i fault o).1 := by
  intro j ps p id hj hp hover hleased
  simp only [World.step_data] at hleased ⊢
  rw [World.step_history] at hover
  rcases overlooked_cons hover with hover | ⟨rfl, -, rfl, hpassed⟩
  · obtain ⟨hkept, hnew⟩ := hadm.2 j ps p id hj hp hover
    rcases leased_apply hleased with hleased | ⟨lease, rfl, hid⟩
    · exact hkept hleased (hw j ps p id hj hp hover hleased)
    · have hfree := hnew lease rfl hid
      unfold Data.hasJob at hfree ⊢
      rwa [jobs_apply (by rfl)]
  · -- the step is the listing itself, which changes no data
    have hvalid := hadm.1 ps p id hj hp rfl hleased
    cases hrun : w.data.hasJob p ExecutionJobStatus.runnable id with
    | false => exact hrun
    | true =>
        rw [hasJob_keepsLease hrun hvalid] at hpassed
        cases hpassed

-- ============================================== the program of a sweep

/-- What each process leaves of the others' entries, and that a sweep
removes the leases of jobs it has overlooked only. -/
def sweepContract (sweeps : Pid → Option (List ProjectId)) :
    Par.Contract Pid World where
  rely i u v := own i v.history = own i u.history
  guar i u v :=
    (∀ j, i ≠ j → own j v.history = own j u.history) ∧
    ∀ ps, sweeps i = some ps → ∀ fault lease,
      v.history = ⟨i, fault, .removeLease lease, u.data⟩ :: u.history →
      ∀ p ∈ ps, Overlooked i p lease.jobId u.history

variable {E : Env} {sweeps : Pid → Option (List ProjectId)}
  {A : Par.Admission Pid Op World}

theorem sweepContract_fits : (sweepContract sweeps).Fits (machine E) A where
  refl _ _ := rfl
  trans _ _ _ _ huv hvw := hvw.trans huv
  guar_rely _ j _ _ hij h := h.1 j hij
  crash_rely _ _ w hij _ :=
    own_cons_of_ne hij false (.mark .crashed) w.data w.history

/-- An operation that removes no lease keeps the contract. -/
theorem guar_of_not_remove {i : Pid} {fault : Bool} {o : Op} {w : World}
    (h : ∀ lease, o ≠ .removeLease lease) :
    (sweepContract sweeps).guar i w (w.step E i fault o).1 := by
  refine ⟨fun j hij => own_cons_of_ne hij fault o w.data w.history, ?_⟩
  intro ps _ fault' lease hhist
  rw [World.step_history] at hhist
  obtain ⟨hentry, -⟩ := List.cons.inj hhist
  cases hentry
  exact absurd rfl (h lease)

/-- A program outside the sweeps keeps the contract whatever it does. -/
theorem other_safe {i : Pid} (hi : sweeps i = none) (q : Proc Unit)
    (w : World) :
    Safe (machine E) A (sweepContract sweeps) i (fun _ _ => True) q w := by
  refine Safe.of_uses (S := fun _ => True) (F := fun _ => True)
    (fun _ _ _ _ => trivial) ?_ ?_ trivial
  · intro o v fault _ _ _
    refine ⟨⟨fun j hij => own_cons_of_ne hij fault o v.data v.history, ?_⟩, trivial⟩
    intro ps hps
    rw [hi] at hps
    cases hps
  · induction q with
    | ret a => trivial
    | raise e => trivial
    | op o k ih => exact ⟨trivial, fun r => ih r⟩

/-- What a sweep has done so far: it has listed the projects, has not ended,
and `ids` holds every job it has found active. -/
structure Listed (ps : List ProjectId) (ids : List JobId)
    (history : List Entry) : Prop where
  opened : ∀ e ∈ history, ¬ e.closes
  listed : ∀ p ∈ ps, ∃ e ∈ history, e.lists p
  found : ∀ e ∈ history, ∀ p, e.lists p → ∀ id,
    e.before.hasJob p ExecutionJobStatus.keepsLease id = true → id ∈ ids

/-- An entry that neither lists nor ends the sweep. -/
theorem Listed.cons {ps : List ProjectId} {ids : List JobId}
    {history : List Entry} (h : Listed ps ids history) {e : Entry}
    (hlist : ∀ p, ¬ e.lists p) (hclose : ¬ e.closes) :
    Listed ps ids (e :: history) where
  opened := List.forall_mem_cons.mpr ⟨hclose, h.opened⟩
  listed p hp := by
    obtain ⟨e', he', hl⟩ := h.listed p hp
    exact ⟨e', List.mem_cons_of_mem _ he', hl⟩
  found e' he' p hl := by
    rcases List.mem_cons.mp he' with rfl | he'
    · exact absurd hl (hlist p)
    · exact h.found e' he' p hl

/-- The listing of one more project. -/
theorem Listed.list {ps : List ProjectId} {ids : List JobId}
    {history : List Entry} (h : Listed ps ids history) (i : Pid)
    (p : ProjectId) (d : Data) :
    Listed (ps ++ [p])
      (ids ++ ((d.projects p).jobs.values.filter
        fun job => job.status.keepsLease).map (·.jobId))
      (⟨i, false, .listJobs p, d⟩ :: history) where
  opened := by
    refine List.forall_mem_cons.mpr ⟨?_, h.opened⟩
    rintro (hop | hop) <;> cases hop
  listed q hq := by
    rcases List.mem_append.mp hq with hq | hq
    · obtain ⟨e, he, hl⟩ := h.listed q hq
      exact ⟨e, List.mem_cons_of_mem _ he, hl⟩
    · rw [List.mem_singleton.mp hq]
      exact ⟨_, List.mem_cons_self, rfl, rfl⟩
  found e he q hl id hactive := by
    rcases List.mem_cons.mp he with rfl | he
    · obtain ⟨-, hop⟩ := hl
      cases hop
      obtain ⟨job, hjob, hid⟩ := List.any_eq_true.mp hactive
      simp only [Bool.and_eq_true, decide_eq_true_eq] at hid
      refine List.mem_append.mpr (Or.inr (List.mem_map.mpr ⟨job, ?_, hid.1⟩))
      exact List.mem_filter.mpr ⟨hjob, hid.2⟩
    · exact List.mem_append.mpr (Or.inl (h.found e he q hl id hactive))

/-- A job outside the collected ids has been overlooked. -/
theorem Listed.overlooked {ps : List ProjectId} {ids : List JobId} {i : Pid}
    {history : List Entry} (h : Listed ps ids (own i history)) {id : JobId}
    (hid : id ∉ ids) {p : ProjectId} (hp : p ∈ ps) :
    Overlooked i p id history := by
  refine ⟨h.listed p hp, fun e he hl => ?_, h.opened⟩
  cases hactive : e.before.hasJob p ExecutionJobStatus.keepsLease id with
  | false => rfl
  | true => exact absurd (h.found e he p hl id hactive) hid

/-- Collecting the active jobs, project by project. -/
theorem activeRuntimeJobIds_safe {i : Pid} (ps done : List ProjectId)
    (ids : List JobId) {w : World} (h : Listed done ids (own i w.history)) :
    Safe (machine E) A (sweepContract sweeps) i
      (fun out v => ∀ found, out = .ok (some found) →
        Listed (done ++ ps) (ids ++ found) (own i v.history))
      (activeRuntimeJobIds ps) w := by
  induction ps generalizing done ids w with
  | nil =>
      intro found hfound
      cases hfound
      simpa using h
  | cons p rest ih =>
      refine safe_perform fun v hv fault _ _ => ?_
      refine ⟨guar_of_not_remove (by intro lease hop; cases hop), ?_⟩
      have hown : Listed done ids (own i v.history) := by
        have hrely : own i v.history = own i w.history := hv
        rwa [hrely]
      cases fault with
      | true =>
          intro found hfound
          cases hfound
      | false =>
          have hnext := hown.list i p v.data
          rw [← own_cons_self] at hnext
          refine Safe.bind (Safe.mono (ih _ _ hnext) ?_)
          · intro out u hout
            cases out with
            | error e =>
                intro found hfound
                cases hfound
            | ok others =>
                intro found hfound
                cases others with
                | none => cases hfound
                | some others =>
                    cases hfound
                    simpa [List.append_assoc] using hout others rfl

/-- Removing leases of jobs that are not among the collected ids. -/
theorem removeLeases_safe {i : Pid} {ps : List ProjectId} {ids : List JobId}
    (hi : sweeps i = some ps) {leases : List ResourceLease}
    (hleases : ∀ l ∈ leases, l.jobId ∉ ids) {w : World}
    (h : Listed ps ids (own i w.history)) :
    Safe (machine E) A (sweepContract sweeps) i (fun _ _ => True)
      (removeLeases leases) w := by
  induction leases generalizing w with
  | nil => trivial
  | cons lease rest ih =>
      refine safe_perform fun v hv fault _ _ => ?_
      have hown : Listed ps ids (own i v.history) := by
        have hrely : own i v.history = own i w.history := hv
        rwa [hrely]
      have hnext : Listed ps ids
          (own i (v.step E i fault (.removeLease lease)).1.history) := by
        rw [World.step_history, own_cons_self]
        exact hown.cons (by rintro p ⟨-, hop⟩; cases hop)
          (by rintro (hop | hop) <;> cases hop)
      refine ⟨⟨fun j hij => own_cons_of_ne hij fault _ v.data v.history, ?_⟩, ?_⟩
      · intro ps' hps' fault' lease' hhist p hp
        rw [hi] at hps'
        cases hps'
        rw [World.step_history] at hhist
        obtain ⟨hentry, -⟩ := List.cons.inj hhist
        cases hentry
        exact hown.overlooked (hleases _ List.mem_cons_self) hp
      · split
        · trivial
        · exact ih (fun l hl => hleases l (List.mem_cons_of_mem _ hl)) hnext

/-- A sweep removes the leases of overlooked jobs only. -/
theorem sweep_safe {i : Pid} {ps : List ProjectId} (hi : sweeps i = some ps)
    {w : World} (hw : own i w.history = []) :
    Safe (machine E) A (sweepContract sweeps) i (fun _ _ => True)
      (sweepInactiveReservations ps) w := by
  have hstart : Listed [] [] (own i w.history) := by
    rw [hw]
    exact ⟨by simp, by simp, by simp⟩
  refine Safe.bind (Safe.mono (activeRuntimeJobIds_safe ps [] [] hstart) ?_)
  intro out u hout
  cases out with
  | error e => trivial
  | ok found =>
      cases found with
      | none => trivial
      | some ids =>
          have hlisted : Listed ps ids (own i u.history) := by
            simpa using hout ids rfl
          -- the lease lock, the look at the leases, and their removal
          refine safe_perform fun v hv fault _ _ =>
            ⟨guar_of_not_remove (by intro lease hop; cases hop), ?_⟩
          have hv' : own i v.history = own i u.history := hv
          have hlock : Listed ps ids (own i
              (v.step E i fault (.lock .leases)).1.history) := by
            rw [World.step_history, own_cons_self, hv']
            exact hlisted.cons (by rintro p ⟨-, hop⟩; cases hop)
              (by rintro (hop | hop) <;> cases hop)
          refine Safe.ensure (safe_read fun x hx fault _ =>
            ⟨guar_of_not_remove (by intro lease hop; cases hop), ?_⟩)
          have hx' : own i x.history = own i (v.step E i _ (.lock .leases)).1.history := hx
          have hlook : Listed ps ids (own i (x.step E i fault .look).1.history) := by
            rw [World.step_history, own_cons_self, hx']
            exact hlock.cons (by rintro p ⟨-, hop⟩; cases hop)
              (by rintro (hop | hop) <;> cases hop)
          refine Safe.bind (Safe.mono (removeLeases_safe hi ?_ hlook) ?_)
          · intro l hl
            exact of_decide_eq_true (List.mem_filter.mp hl).2
          · rintro (e | _) y - <;>
            exact safe_perform fun z _ fault _ _ =>
              ⟨guar_of_not_remove (by intro lease hop; cases hop), trivial⟩

-- ============================================================= the runs

/-- Along the runs of a condition, sweeps of the configured projects spare
the leases of all jobs that can still run, whatever else goes on. -/
def SparesRunnableJobs (E : Env)
    (A : (Pid → Option (List ProjectId)) → Par.Admission Pid Op World) : Prop :=
  ∀ (sweeps : Pid → Option (List ProjectId))
    (c c' : Config Pid Op Op.Res Raised Unit World),
    (∀ i ps, sweeps i = some ps →
      c.procs i = some (do let _ ← sweepInactiveReservations ps)) →
    c.world.history = [] → Run (machine E) (A sweeps) c c' →
    ∀ e ∈ c'.world.history, ∀ ps, sweeps e.pid = some ps →
      ∀ lease, e.op = .removeLease lease → lease ∈ e.before.leases →
        ∀ p ∈ ps, e.before.hasJob p ExecutionJobStatus.runnable lease.jobId = false

/-- Where nothing disturbs the sweeps, they spare the leases of all jobs that
can still run. -/
theorem sparesRunnableJobs_of_undisturbed (E : Env) :
    SparesRunnableJobs E fun sweeps => leavesSweepsAlone sweeps E := by
  intro sweeps c c' hsweeps hstart hrun
  have hsafe : Par.AllSafe (machine E) (leavesSweepsAlone sweeps E)
      (sweepContract sweeps) (fun _ _ _ => True) c := by
    intro i q hq
    cases hi : sweeps i with
    | none => exact other_safe hi q c.world
    | some ps =>
        have hprog : (do let _ ← sweepInactiveReservations ps) = q :=
          Option.some.inj ((hsweeps i ps hi).symm.trans hq)
        subst hprog
        refine Safe.bind (Safe.mono (sweep_safe hi (by rw [hstart]; rfl)) ?_)
        rintro (e | _) v - <;> trivial
  -- the open sweeps have overlooked no runnable lease, and none was taken
  have hinv : NoneOverlooked sweeps c'.world ∧
      ∀ e ∈ c'.world.history, ∀ ps, sweeps e.pid = some ps →
        ∀ lease, e.op = .removeLease lease → lease ∈ e.before.leases →
        ∀ p ∈ ps,
          e.before.hasJob p ExecutionJobStatus.runnable lease.jobId = false := by
    induction hrun with
    | refl =>
        constructor
        · intro j ps p id _ _ hover
          obtain ⟨⟨e, he, -⟩, -⟩ := hover
          rw [hstart] at he
          cases he
        · intro e he
          rw [hstart] at he
          cases he
    | tail hrun hstep ih =>
        obtain ⟨hnone, hspared⟩ := ih
        have hall := (hsafe.run sweepContract_fits (fun _ _ _ _ _ _ => trivial) hrun).2
        cases hstep with
        | exec i fault o k hprog hen hadm =>
            obtain ⟨hguar, -⟩ := hall i _ hprog _ rfl fault hen hadm
            refine ⟨leased_step hadm hnone, ?_⟩
            intro e he ps hps lease hop hlease p hp
            rcases List.mem_cons.mp he with rfl | he
            · cases hop
              have hover := hguar.2 ps hps fault lease rfl p hp
              refine hnone i ps p lease.jobId hps hp hover ?_
              exact List.any_eq_true.mpr ⟨lease, hlease, by simp⟩
            · exact hspared e he ps hps lease hop hlease p hp
        | crash i hadm =>
            constructor
            · intro j ps p id hj hp hover hleased
              rcases overlooked_cons hover with hover | ⟨-, -, hop, -⟩
              · exact hnone j ps p id hj hp hover hleased
              · cases hop
            · intro e he ps hps lease hop hlease p hp
              rcases List.mem_cons.mp he with rfl | he
              · cases hop
              · exact hspared e he ps hps lease hop hlease p hp
  exact hinv.2

/-- A job whose completion is being validated loses its lease to a sweep. -/
theorem validated_job_loses_lease :
    ¬ SparesRunnableJobs Env.plain fun _ => Par.Admission.any := by
  intro h
  let job : ExecutionJob :=
    ⟨"j", "p", "1", "implement", "coder", .completionSubmitted, 0, {}⟩
  let project : Project := { jobs := (∅ : Table _).put job }
  let lease : ResourceLease := ⟨"gpu", "j", "coder"⟩
  let c : Config Pid Op Op.Res Raised Unit World :=
    system ⟨fun _ => project, fun _ => {}, fun _ => ∅, [lease]⟩
      [do let _ ← sweepInactiveReservations ["p"]]
  obtain ⟨c', hrun, htaken⟩ := Par.exists_run_of_nexts
    (M := machine Env.plain) (c := c)
    -- the jobs are listed, the lease lock is taken, the leases are read, and
    -- the lease is removed
    (l := [.step 0 false, .step 0 false, .step 0 false, .step 0 false])
    (P := fun c' => c'.world.history.head?.any fun e =>
      e.pid = 0 && e.op.removes lease && lease ∈ e.before.leases &&
        e.before.hasJob "p" ExecutionJobStatus.runnable "j")
    (by decide +kernel)
  cases hhist : c'.world.history with
  | nil => rw [hhist] at htaken; cases htaken
  | cons e rest =>
      rw [hhist] at htaken
      simp only [List.head?_cons, Option.any_some, Bool.and_eq_true,
        decide_eq_true_eq] at htaken
      obtain ⟨⟨⟨hpid, hop⟩, hlease⟩, hrunnable⟩ := htaken
      have hspared := h (fun i => if i = 0 then some ["p"] else none) c c'
        (by
          intro i ps hi
          split at hi
          next h0 => cases hi; subst h0; rfl
          next => cases hi)
        rfl hrun e (hhist ▸ List.mem_cons_self) ["p"] (by rw [hpid]; rfl)
        lease (Op.eq_of_removes hop) hlease "p" (by simp)
      rw [hrunnable] at hspared
      cases hspared

end OpenTulid
