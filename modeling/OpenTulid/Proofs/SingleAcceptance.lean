/-
A job is accepted at most once: which interleavings of submissions for one
job begin at most one acceptance transaction.

A call reads the job, and marks it `completion_submitted` in a separate
store call. Between the two another call may have done the same, so both
validate and both are accepted. `entersAsRead` excludes exactly that: where
a call marks the job submitted, the job has the status the call has read and
the write succeeds; and a status that is written back is the stored one.

# Method

From its mark to its closing write a call owns the job: the status stays
`completion_submitted` and the call is the last to have entered (`Busy`).
Every operation of a call is one of five moves (`Move`): a quiet one, an
entry, a closing write, the start of its transaction, the commit of its
transaction; all but the first two are moves of an owner. That is the
contract the calls keep (`submit_safe`). Along a run of such moves at most
one transaction is begun: a begun transaction's owner stays the owner until
the job is accepted or failed, and then nothing enters any more.
-/
import OpenTulid.Proofs.Footprint
import OpenTulid.Proofs.Frame

namespace OpenTulid

open Prog (Uses)
open Par (Step Run Config Safe)

-- ==================================================== reading histories

/-- The entry writes a journal of the job with a status. -/
def Entry.journals (p : ProjectId) (j : JobId) (status : JournalStatus)
    (e : Entry) : Bool :=
  match e.op with
  | .writeJournal q r => q = p && r.context.jobId = some j && r.status = status
  | _ => false

/-- The process that entered last. -/
def validator (p : ProjectId) (j : JobId) (history : List Entry) : Option Pid :=
  (history.find? (·.enters p j)).map (·.pid)

/-- The transactions of the job a process has begun. -/
def begun (p : ProjectId) (j : JobId) (i : Pid) (history : List Entry) : Nat :=
  (own i history).countP (·.journals p j .prepared)

/-- The transactions of the job a process has committed. -/
def committed (p : ProjectId) (j : JobId) (i : Pid) (history : List Entry) : Nat :=
  (own i history).countP (·.journals p j .committed)

/-- The process owns the job: the job is in validation and the process is
the last to have entered. -/
def Busy (p : ProjectId) (j : JobId) (i : Pid) (w : World) : Prop :=
  w.data.status p j = some .completionSubmitted ∧
    validator p j w.history = some i

/-- The steps at which a status is written on the status read: a job is
marked submitted while it has the status the call has read, by a write that
succeeds; and a status is written back while it stands. -/
def entersAsRead : Par.Admission Pid Op World where
  step _ fault o w := match o with
    | .updateStatus p .completionSubmitted basis id _ _ _ =>
        fault = false ∧ w.data.status p id = basis
    | .updateStatus p .candidateCaptured basis id _ _ _ =>
        w.data.status p id = basis
    | .updateStatus p .validationFinished basis id _ _ _ =>
        w.data.status p id = basis
    | _ => True
  crash _ _ := True

-- ============================================================ the moves

section Moves

variable (p : ProjectId) (j : JobId)

/-- What one operation of a process may do to the job and its
transactions. -/
inductive Move (i : Pid) (u v : World) : Entry → Prop where
  | quiet {e : Entry} (hstatus : v.data.status p j = u.data.status p j)
      (henter : e.enters p j = false)
      (hbegin : e.journals p j .prepared = false)
      (hcommit : e.journals p j .committed = false) : Move i u v e
  | enter {e : Entry} {s : ExecutionJobStatus}
      (hread : u.data.status p j = some s) (hfree : s ≠ .completionSubmitted)
      (hopen : s.terminal = false) (henter : e.enters p j = true)
      (hstatus : v.data.status p j = some .completionSubmitted) : Move i u v e
  | close {e : Entry} {s : ExecutionJobStatus} (hbusy : Busy p j i u)
      (henter : e.enters p j = false)
      (hbegin : e.journals p j .prepared = false)
      (hcommit : e.journals p j .committed = false)
      (hstatus : v.data.status p j = some s)
      (hend : begun p j i u.history = 0 ∨ s = .accepted ∨ s = .failed) :
      Move i u v e
  | begin {e : Entry} (hbusy : Busy p j i u)
      (hfirst : begun p j i u.history = 0)
      (hstatus : v.data.status p j = u.data.status p j)
      (hbegin : e.journals p j .prepared = true) : Move i u v e
  | commit {e : Entry} (hbusy : Busy p j i u)
      (hbegun : begun p j i u.history = 1)
      (hfirst : committed p j i u.history = 0)
      (hstatus : v.data.status p j = u.data.status p j)
      (hcommit : e.journals p j .committed = true) : Move i u v e

/-- A call makes moves, and expects of the others that they leave alone a
job it owns. -/
def acceptContract : Par.Contract Pid World where
  rely i u v :=
    (Busy p j i u → v.data.status p j = u.data.status p j ∧
      validator p j v.history = validator p j u.history) ∧
    own i v.history = own i u.history
  guar i u v := ∃ e : Entry, e.pid = i ∧ e.before = u.data ∧
    v.history = e :: u.history ∧ Move p j i u v e

variable {p j}

/-- Entering, beginning and committing are different entries. -/
theorem Entry.not_journals_of_enters {e : Entry} (h : e.enters p j = true)
    (status : JournalStatus) : e.journals p j status = false := by
  obtain ⟨pid, fault, o, d⟩ := e
  cases o <;> simp_all [enters, journals]

theorem Entry.not_enters_of_journals {e : Entry} {status : JournalStatus}
    (h : e.journals p j status = true) : e.enters p j = false := by
  cases henter : e.enters p j with
  | false => rfl
  | true => rw [e.not_journals_of_enters henter] at h; cases h

theorem Entry.not_journals_other {e : Entry} {s t : JournalStatus}
    (h : e.journals p j s = true) (hst : s ≠ t) : e.journals p j t = false := by
  obtain ⟨pid, fault, o, d⟩ := e
  cases o <;> simp_all [journals]

theorem validator_cons_of_not {e : Entry} {history : List Entry}
    (h : e.enters p j = false) :
    validator p j (e :: history) = validator p j history := by
  simp [validator, h]

theorem validator_cons_of_enters {e : Entry} {history : List Entry}
    (h : e.enters p j = true) : validator p j (e :: history) = some e.pid := by
  simp [validator, h]

theorem own_cons (i : Pid) (e : Entry) (history : List Entry) :
    own i (e :: history) =
      if e.pid = i then e :: own i history else own i history := by
  simp only [own, List.filter_cons, decide_eq_true_eq]

/-- A move of another process leaves alone a job one owns. -/
theorem Move.keeps_busy {i k : Pid} (hik : k ≠ i) {u v : World} {e : Entry}
    (hhist : v.history = e :: u.history)
    (hmove : Move p j k u v e) (hbusy : Busy p j i u) :
    v.data.status p j = u.data.status p j ∧
      validator p j v.history = validator p j u.history := by
  have hother : ¬ Busy p j k u := by
    intro hk
    exact hik (Option.some.inj (hk.2.symm.trans hbusy.2))
  cases hmove with
  | quiet hstatus henter _ _ =>
      rw [hhist, validator_cons_of_not henter]
      exact ⟨hstatus, rfl⟩
  | enter hread hfree _ _ _ =>
      rw [hbusy.1] at hread
      exact absurd (Option.some.inj hread).symm hfree
  | close hk _ _ _ _ _ => exact absurd hk hother
  | begin hk _ _ _ => exact absurd hk hother
  | commit hk _ _ _ _ => exact absurd hk hother

theorem acceptContract_fits (E : Env) (A : Par.Admission Pid Op World) :
    (acceptContract p j).Fits (machine E) A where
  refl _ _ := ⟨fun _ => ⟨rfl, rfl⟩, rfl⟩
  trans i u v w huv hvw := by
    refine ⟨fun hbusy => ?_, hvw.2.trans huv.2⟩
    obtain ⟨hs, hval⟩ := huv.1 hbusy
    have hbusy' : Busy p j i v := ⟨hs.trans hbusy.1, hval.trans hbusy.2⟩
    obtain ⟨hs', hval'⟩ := hvw.1 hbusy'
    exact ⟨hs'.trans hs, hval'.trans hval⟩
  guar_rely k i u v hki hguar := by
    obtain ⟨e, hpid, -, hhist, hmove⟩ := hguar
    refine ⟨hmove.keeps_busy hki hhist, ?_⟩
    rw [hhist, own_cons, if_neg (fun h => hki (hpid.symm.trans h))]
  crash_rely k i w hki _ := by
    refine ⟨fun _ => ⟨rfl, validator_cons_of_not rfl⟩, ?_⟩
    exact own_cons_of_ne hki false (.mark .crashed) w.data w.history

end Moves

-- ==================================================== what a call does

section Call

variable {p : ProjectId} {j : JobId} {E : Env} {i : Pid}

/-- Where a call stands: whether it owns the job, and how many transactions
it has begun and committed. -/
def At (p : ProjectId) (j : JobId) (i : Pid) (owner : Bool) (n m : Nat)
    (w : World) : Prop :=
  (owner = true → Busy p j i w) ∧ begun p j i w.history = n ∧
    committed p j i w.history = m

theorem At.stable {owner : Bool} {n m : Nat} {u v : World}
    (h : At p j i owner n m u) (hrely : (acceptContract p j).rely i u v) :
    At p j i owner n m v := by
  obtain ⟨hbusy, hn, hm⟩ := h
  obtain ⟨hkeeps, hown⟩ := hrely
  refine ⟨fun ho => ?_, ?_, ?_⟩
  · obtain ⟨hs, hval⟩ := hkeeps (hbusy ho)
    exact ⟨hs.trans (hbusy ho).1, hval.trans (hbusy ho).2⟩
  · unfold begun at hn ⊢
    rw [hown, hn]
  · unfold committed at hm ⊢
    rw [hown, hm]

theorem At.release {owner : Bool} {n m : Nat} {w : World}
    (h : At p j i owner n m w) : At p j i false n m w :=
  ⟨fun ho => (Bool.false_ne_true ho).elim, h.2⟩

/-- Wherever a call stands, it stands somewhere. -/
theorem At.any (w : World) :
    At p j i false (begun p j i w.history) (committed p j i w.history) w :=
  ⟨fun ho => (Bool.false_ne_true ho).elim, rfl, rfl⟩

/-- A step that changes no status and writes no entry of note. -/
theorem At.quiet {owner : Bool} {n m : Nat} {fault : Bool} {o : Op} {v : World}
    (h : At p j i owner n m v)
    (hstatus : (o.apply E fault v.data).1.status p j = v.data.status p j)
    (henter : (⟨i, fault, o, v.data⟩ : Entry).enters p j = false)
    (hbegin : (⟨i, fault, o, v.data⟩ : Entry).journals p j .prepared = false)
    (hcommit : (⟨i, fault, o, v.data⟩ : Entry).journals p j .committed = false) :
    (acceptContract p j).guar i v (v.step E i fault o).1 ∧
      At p j i owner n m (v.step E i fault o).1 := by
  obtain ⟨hbusy, hn, hm⟩ := h
  refine ⟨⟨_, rfl, rfl, rfl, .quiet hstatus henter hbegin hcommit⟩, ?_, ?_, ?_⟩
  · intro ho
    refine ⟨hstatus.trans (hbusy ho).1, ?_⟩
    rw [World.step_history, validator_cons_of_not henter]
    exact (hbusy ho).2
  · unfold begun at hn ⊢
    rw [World.step_history, own_cons_self, List.countP_cons, hbegin, hn]
    simp
  · unfold committed at hm ⊢
    rw [World.step_history, own_cons_self, List.countP_cons, hcommit, hm]
    simp

/-- The operations that touch neither jobs nor journals. -/
def Op.isQuiet (o : Op) : Bool := !o.writesJobs && !o.writesJournals

theorem Op.isQuiet_of_isWork {o : Op} (h : o.isWork = true) :
    o.isQuiet = true := by
  cases o <;> first | rfl | cases h

theorem At.quietOp {owner : Bool} {n m : Nat} {o : Op} {v : World}
    (h : At p j i owner n m v) (fault : Bool) (ho : o.isQuiet = true) :
    (acceptContract p j).guar i v (v.step E i fault o).1 ∧
      At p j i owner n m (v.step E i fault o).1 := by
  simp only [Op.isQuiet, Bool.and_eq_true, Bool.not_eq_true'] at ho
  have hentry : ∀ s, (⟨i, fault, o, v.data⟩ : Entry).journals p j s = false := by
    intro s
    cases o <;> first | rfl | cases ho.2
  refine h.quiet ?_ ?_ (hentry _) (hentry _)
  · unfold Data.status Data.job
    rw [jobs_apply ho.1]
  · cases o <;> first | rfl | cases ho.1

/-- A program that touches neither jobs nor journals. -/
theorem quiet_safe {A : Par.Admission Pid Op World} {α : Type} {q : Proc α}
    (hq : Uses (fun o => o.isQuiet = true) q) {owner : Bool} {n m : Nat}
    {w : World} (h : At p j i owner n m w) :
    Safe (machine E) A (acceptContract p j) i
      (fun _ v => At p j i owner n m v) q w :=
  Safe.of_uses (fun _ _ hu hrely => hu.stable hrely)
    (fun _ _ fault ho hv _ => hv.quietOp fault ho) hq h

/-- An operation that touches neither jobs nor journals, and what follows. -/
theorem safe_quiet {A : Par.Admission Pid Op World} {α : Type}
    {Q : Except Raised α → World → Prop} {o : Op} {f : o.Res → Proc α}
    (ho : o.isQuiet = true) {owner : Bool} {n m : Nat} {w : World}
    (h : At p j i owner n m w)
    (hf : ∀ v r, At p j i owner n m v →
      Safe (machine E) A (acceptContract p j) i Q (f r) v) :
    Safe (machine E) A (acceptContract p j) i Q (perform o >>= f) w := by
  refine safe_perform fun v hv fault _ _ => ?_
  obtain ⟨hguar, hat⟩ := (h.stable hv).quietOp (E := E) fault ho
  exact ⟨hguar, hf _ _ hat⟩

variable {A : Par.Admission Pid Op World}

/-- Marking the job submitted on the status read makes the call its
owner. -/
theorem At.enter {n m : Nat} {s : ExecutionJobStatus} {v : World}
    (h : At p j i false n m v) (patch : MetadataPatch)
    (hread : v.data.status p j = some s)
    (hfree : s ≠ .completionSubmitted) (hopen : s.terminal = false)
    (hfrozen : patch.frozen = []) {o : Op}
    (ho : o = .updateStatus p .completionSubmitted (some s) j
      .completionSubmitted patch false) :
    (acceptContract p j).guar i v (v.step E i false o).1 ∧
      At p j i true n m (v.step E i false o).1 := by
  subst ho
  have hstatus := @status_updateStatus E v.data p .completionSubmitted (some s) j
    .completionSubmitted patch false s hread hfrozen
  have henter : (⟨i, false, .updateStatus p .completionSubmitted (some s) j
      .completionSubmitted patch false, v.data⟩ : Entry).enters p j = true := by
    simp [Entry.enters]
  refine ⟨⟨_, rfl, rfl, rfl, .enter hread hfree hopen henter hstatus⟩, ?_, ?_, ?_⟩
  · intro _
    exact ⟨hstatus, validator_cons_of_enters henter⟩
  · have hn := h.2.1
    unfold begun at hn ⊢
    rw [World.step_history, own_cons_self, List.countP_cons, hn,
      Entry.not_journals_of_enters henter]
    simp
  · have hm := h.2.2
    unfold committed at hm ⊢
    rw [World.step_history, own_cons_self, List.countP_cons, hm,
      Entry.not_journals_of_enters henter]
    simp

/-- A status written back while it stands leaves the owner the owner. -/
theorem At.writeBack {n m : Nat} {s : ExecutionJobStatus}
    {patch : MetadataPatch} {v : World} (h : At p j i true n m v)
    (site : WriteSite) (fault : Bool) (hsite : site ≠ .completionSubmitted)
    (hstands : v.data.status p j = some s) :
    (acceptContract p j).guar i v
        (v.step E i fault (.updateStatus p site (some s) j s patch false)).1 ∧
      At p j i true n m
        (v.step E i fault (.updateStatus p site (some s) j s patch false)).1 := by
  refine h.quiet ?_ ?_ rfl rfl
  · rcases @status_apply E fault
      (.updateStatus p site (some s) j s patch false) v.data
      (by intro q job hop; cases hop) p j with
      hsame | ⟨_, _, _, _, _, hop, hset⟩
    · exact hsame
    · cases hop
      exact hset.trans hstands.symm
  · cases site <;> first | rfl | exact absurd rfl hsite

/-- A closing write gives the job up. -/
theorem At.close {n m : Nat} {basis : Option ExecutionJobStatus}
    {s : ExecutionJobStatus} {patch : MetadataPatch} {v : World}
    (h : At p j i true n m v) (site : WriteSite) (fault : Bool)
    (hsite : site ≠ .completionSubmitted)
    (hend : n = 0 ∨ s = .accepted ∨ s = .failed) :
    (acceptContract p j).guar i v
        (v.step E i fault (.updateStatus p site basis j s patch false)).1 ∧
      At p j i false n m
        (v.step E i fault (.updateStatus p site basis j s patch false)).1 := by
  have henter : (⟨i, fault, .updateStatus p site basis j s patch false, v.data⟩ :
      Entry).enters p j = false := by
    cases site <;> first | rfl | exact absurd rfl hsite
  rcases @status_apply E fault
    (.updateStatus p site basis j s patch false) v.data
    (by intro q job hop; cases hop) p j with
    hsame | ⟨_, _, _, _, _, hop, hset⟩
  · obtain ⟨hguar, hat⟩ := h.quiet (E := E) hsame henter rfl rfl
    exact ⟨hguar, hat.release⟩
  · cases hop
    have hend' : begun p j i v.history = 0 ∨ s = .accepted ∨ s = .failed := by
      rw [h.2.1]
      exact hend
    refine ⟨⟨_, rfl, rfl, rfl, .close (h.1 rfl) henter rfl rfl hset hend'⟩,
      fun ho => (Bool.false_ne_true ho).elim, ?_, ?_⟩
    · have hn := h.2.1
      unfold begun at hn ⊢
      rw [World.step_history, own_cons_self, List.countP_cons, hn]
      rfl
    · have hm := h.2.2
      unfold committed at hm ⊢
      rw [World.step_history, own_cons_self, List.countP_cons, hm]
      rfl

/-- The write of a journal of the job. -/
theorem At.writeJournal {n m : Nat} {v : World} (h : At p j i true n m v)
    (fault : Bool) (r : TransactionJournalRecord) (hjob : r.context.jobId = some j) (hprep : r.status = .prepared → n = 0)
    (hcommit : r.status = .committed → n = 1 ∧ m = 0) :
    (acceptContract p j).guar i v (v.step E i fault (.writeJournal p r)).1 ∧
      At p j i true (n + if r.status = .prepared then 1 else 0)
        (m + if r.status = .committed then 1 else 0)
        (v.step E i fault (.writeJournal p r)).1 := by
  have hentry : ∀ s, (⟨i, fault, .writeJournal p r, v.data⟩ : Entry).journals p j s
      = decide (r.status = s) := by
    intro s
    simp [Entry.journals, hjob]
  have hstatus : ((Op.writeJournal p r).apply E fault v.data).1.status p j
      = v.data.status p j := by
    unfold Data.status Data.job
    rw [jobs_apply (by rfl)]
  constructor
  · refine ⟨_, rfl, rfl, rfl, ?_⟩
    cases hs : r.status with
    | prepared =>
        refine .begin (h.1 rfl) ?_ hstatus ?_
        · rw [h.2.1]
          exact hprep hs
        · rw [hentry, hs]
          rfl
    | committed =>
        obtain ⟨hn, hm⟩ := hcommit hs
        refine .commit (h.1 rfl) ?_ ?_ hstatus ?_
        · rw [h.2.1, hn]
        · rw [h.2.2, hm]
        · rw [hentry, hs]
          rfl
    | failed =>
        refine .quiet hstatus rfl ?_ ?_ <;>
        · rw [hentry, hs]
          rfl
  · refine ⟨fun _ => ⟨hstatus.trans (h.1 rfl).1, ?_⟩, ?_, ?_⟩
    · rw [World.step_history, validator_cons_of_not rfl]
      exact (h.1 rfl).2
    · have hn := h.2.1
      unfold begun at hn ⊢
      rw [World.step_history, own_cons_self, List.countP_cons, hn, hentry]
      simp
    · have hm := h.2.2
      unfold committed at hm ⊢
      rw [World.step_history, own_cons_self, List.countP_cons, hm, hentry]
      simp

-- ====================================================== the transaction

variable {V : CompletionService} {call : SubmitCall} {job : ExecutionJob}
  {sid : SubmissionId}

/-- Appending events is work. -/
theorem appendMany_quiet (events : List EventEnvelope) :
    Uses (fun o => o.isQuiet = true) (appendMany p events) :=
  appendMany_uses (S := fun o => o.isQuiet = true) (fun _ => rfl) rfl events

/-- A write of the owner's journal record, and what follows. -/
theorem writeRecord_safe {α : Type} {Q : Except Raised α → World → Prop}
    {f : Except DomainError Unit → Proc α} {r : TransactionJournalRecord}
    {n m : Nat} {w : World} (h : At p j i true n m w)
    (hjob : r.context.jobId = some j) (hprep : r.status = .prepared → n = 0)
    (hcommit : r.status = .committed → n = 1 ∧ m = 0)
    (hf : ∀ answer v, At p j i true (n + if r.status = .prepared then 1 else 0)
        (m + if r.status = .committed then 1 else 0) v →
      Safe (machine E) A (acceptContract p j) i Q (f answer) v) :
    Safe (machine E) A (acceptContract p j) i Q (writeRecord p r >>= f) w := by
  refine Safe.bind (safe_perform fun v hv fault _ _ => ?_)
  obtain ⟨hguar, hat⟩ := (h.stable hv).writeJournal (E := E) fault r hjob hprep
    hcommit
  refine ⟨hguar, ?_⟩
  split
  · exact hf _ _ hat
  · intro x hx fault _ _
    obtain ⟨hguar, hat⟩ := (hat.stable hx).quietOp (E := E)
      (o := .syncJournal p r) fault rfl
    exact ⟨hguar, hf _ _ hat⟩

/-- The owner's transaction begins once and commits at most once. -/
theorem apply_safe {plan : AcceptancePlan} {r : TransactionJournalRecord}
    (hV : V.project = p) (hjob : r.context.jobId = some j)
    (hstatus : r.status = .prepared) {w : World} (h : At p j i true 0 0 w) :
    Safe (machine E) A (acceptContract p j) i
      (fun _ v => ∃ m, At p j i true 1 m v)
      ((acceptanceRuntime E V job plan).apply r) w := by
  subst hV
  have hwork : ∀ {o : Op}, o.isWork = true → o.isQuiet = true :=
    Op.isQuiet_of_isWork
  have habort : ∀ applied error (v : World), At V.project j i true 1 0 v →
      Safe (machine E) A (acceptContract V.project j) i
        (fun _ v => ∃ m, At V.project j i true 1 m v)
        ((acceptanceRuntime E V job plan).abort r applied error) v := by
    intro applied error v hv
    refine writeRecord_safe (r := { r with status := .failed, error := some error })
      hv hjob (by intro hs; cases hs) (by intro hs; cases hs) fun _ x hat => ?_
    refine Safe.bind (Safe.mono (quiet_safe ((compensate_uses _
      (acceptanceRuntime_compensates E V job plan) _ _).mono fun _ => hwork) hat) ?_)
    rintro (e | _) y hy <;> exact ⟨0, hy⟩
  refine writeRecord_safe h hjob (fun _ => rfl)
    (by rw [hstatus]; intro hs; cases hs) fun _ v hat => ?_
  have hat' : At V.project j i true 1 0 v := by
    simpa [hstatus] using hat
  split
  · exact ⟨0, hat'⟩
  · -- the effects, the validation and the events are work
    refine Safe.bind (Safe.mono (quiet_safe ((applyEffects_uses _
      (applyEffect_uses E V) _ _ _ _).mono fun _ => hwork) hat') ?_)
    intro out y hy
    cases out with
    | error e => exact ⟨0, hy⟩
    | ok x =>
        obtain ⟨applied, failure⟩ := x
        cases failure with
        | some error => exact habort applied error y hy
        | none =>
            refine Safe.bind (Safe.mono (quiet_safe ((validate_uses _
              (acceptanceRuntime_validates E V job plan)).mono fun _ => hwork) hy) ?_)
            intro out z hz
            cases out with
            | error e => exact ⟨0, hz⟩
            | ok invalid =>
                cases invalid with
                | some error => exact habort applied error z hz
                | none =>
                    refine Safe.bind (Safe.mono
                      (quiet_safe (appendMany_quiet _) hz) ?_)
                    intro out z' hz'
                    cases out with
                    | error e => exact ⟨0, hz'⟩
                    | ok appended =>
                        cases appended with
                        | error error => exact habort applied error z' hz'
                        | ok _ =>
                            refine writeRecord_safe
                              (r := { r with status := .committed, error := none })
                              hz' hjob (by intro hs; cases hs)
                              (fun _ => ⟨rfl, rfl⟩) fun _ x hat => ?_
                            split <;> exact ⟨1, hat⟩

/-- The transaction of an acceptance is one of the job. -/
theorem applyAcceptance_safe {plan : AcceptancePlan} (hV : V.project = p)
    (hj : job.jobId = j) {w : World} (h : At p j i true 0 0 w) :
    Safe (machine E) A (acceptContract p j) i
      (fun _ v => ∃ m, At p j i true 1 m v)
      (applyAcceptance E V call job sid plan) w := by
  refine safe_read fun v hv fault _ => ?_
  obtain ⟨hguar, hat⟩ := (h.stable hv).quietOp (E := E) (o := .look) fault rfl
  refine ⟨hguar, apply_safe hV ?_ rfl hat⟩
  exact congrArg some hj

/-- The closing write of an acceptance settles the job. -/
theorem conclude_safe {n m : Nat} {t : TransactionApplyResult}
    (hV : V.project = p) (hj : job.jobId = j) {w : World}
    (h : At p j i true n m w) :
    Safe (machine E) A (acceptContract p j) i (fun _ _ => True)
      (conclude E V call job sid t) w := by
  subst hV
  subst hj
  unfold conclude
  split
  · refine safe_quiet rfl h fun v d hv => ?_
    split
    · trivial
    · refine safe_perform fun x hx fault _ _ => ?_
      obtain ⟨hguar, -⟩ := (hv.stable hx).close (E := E) .acceptanceAccepted fault
        (by intro hs; cases hs)
        (Or.inr (Or.inl rfl))
      exact ⟨hguar, trivial⟩
  · refine safe_quiet rfl h fun v r hv => ?_
    refine safe_perform fun x hx fault _ _ => ?_
    obtain ⟨hguar, -⟩ := (hv.stable hx).close (E := E) .acceptanceFailed fault
      (by intro hs; cases hs)
      (Or.inr (Or.inr rfl))
    exact ⟨hguar, trivial⟩

-- ============================================================ the call

/-- A rejection gives the job up. -/
theorem rejectCompletion_safe {verification : VerificationResult}
    {errors : List DomainError} (hV : V.project = p) (hj : job.jobId = j)
    {w : World} (h : At p j i true 0 0 w) :
    Safe (machine E) A (acceptContract p j) i (fun _ _ => True)
      (rejectCompletion V call job sid verification errors) w := by
  subst hV
  subst hj
  refine safe_quiet rfl h fun v current hv => ?_
  split
  · refine safe_perform fun x hx fault _ _ => ?_
    obtain ⟨hguar, hat⟩ := (hv.stable hx).close (E := E) .completionRejected fault
      (by intro hs; cases hs) (Or.inl rfl)
    exact ⟨hguar, safe_quiet rfl hat fun _ _ _ => trivial⟩
  · split
    · exact safe_quiet rfl hv fun _ _ _ => trivial
    · refine safe_perform fun x hx fault _ _ => ?_
      obtain ⟨hguar, hat⟩ := (hv.stable hx).close (E := E) .completionRejected fault
        (by intro hs; cases hs) (Or.inl rfl)
      exact ⟨hguar, safe_quiet rfl hat fun _ _ _ => trivial⟩

/-- So does handing the job back when its candidate cannot be captured. -/
theorem rejectCandidateCapture_safe {errors : List DomainError}
    (hV : V.project = p) (hj : job.jobId = j) {w : World}
    (h : At p j i true 0 0 w) :
    Safe (machine E) A (acceptContract p j) i (fun _ _ => True)
      (rejectCandidateCapture V call job sid errors) w := by
  subst hV
  subst hj
  refine safe_quiet rfl h fun v current hv => ?_
  refine safe_perform fun x hx fault _ _ => ?_
  obtain ⟨hguar, hat⟩ := (hv.stable hx).close (E := E) .captureRejected fault
    (by intro hs; cases hs) (Or.inl rfl)
  exact ⟨hguar, safe_quiet rfl hat fun _ _ _ => trivial⟩

/-- Recording the end of the validation keeps the job. -/
theorem recordValidationFinished_safe (hV : V.project = p)
    (hj : job.jobId = j) {w : World} (h : At p j i true 0 0 w) :
    Safe (machine E) entersAsRead (acceptContract p j) i
      (fun _ v => At p j i true 0 0 v)
      (recordValidationFinished V call job sid) w := by
  subst hV
  subst hj
  refine safe_quiet rfl h fun v _ hv => ?_
  refine safe_quiet rfl hv fun v current hv => ?_
  split
  · exact hv
  · refine safe_perform fun x hx fault _ hadm => ?_
    exact (hv.stable hx).writeBack (E := E) .validationFinished fault
      (by intro hs; cases hs) hadm

/-- Capturing the candidate keeps the job. -/
theorem captureCompletionCandidate_safe (hV : V.project = p)
    (hj : job.jobId = j) {w : World} (h : At p j i true 0 0 w) :
    Safe (machine E) entersAsRead (acceptContract p j) i
      (fun _ v => At p j i true 0 0 v)
      (captureCompletionCandidate V call job) w := by
  subst hV
  subst hj
  refine Safe.bind (Safe.mono (quiet_safe (uses_ofExcept _) h) ?_)
  intro out v hv
  cases out with
  | error e => exact hv
  | ok captured =>
      cases captured with
      | error errors => exact hv
      | ok sealed =>
          obtain ⟨candidate, files⟩ := sealed
          refine safe_quiet rfl hv fun v _ hv => ?_
          refine safe_quiet rfl hv fun v current hv => ?_
          refine safe_perform fun x hx fault _ hadm => ?_
          exact (hv.stable hx).writeBack (E := E) .candidateCaptured fault
            (by intro hs; cases hs) hadm

/-- Inside the publication lock the job is given up or its transaction has
run. -/
theorem publish_safe {contract : Option ExecutionContract}
    {transition : TransitionDefinition} {verification : VerificationResult}
    {candidate : Candidate} {out : RelPath} {delivery : DeliveryPlan}
    (hV : V.project = p) (hj : job.jobId = j) {w : World}
    (h : At p j i true 0 0 w) :
    Safe (machine E) A (acceptContract p j) i
      (fun out v => ∀ t, out = .ok (.inr t) → ∃ m, At p j i true 1 m v)
      (publish E V call job sid contract transition verification candidate out
        delivery) w := by
  refine safe_quiet rfl h fun v d hv => ?_
  refine Safe.bind (Safe.mono (quiet_safe (uses_ofExcept _) hv) ?_)
  rintro (e | derived) x hx
  · intro t ht
    cases ht
  · cases derived with
    | error errors =>
        refine Safe.bind (Safe.mono (rejectCompletion_safe hV hj hx) ?_)
        rintro (e | r) y - t ht <;> cases ht
    | ok derived =>
        dsimp only
        split
        · intro t ht
          cases ht
        · refine Safe.bind (Safe.mono (applyAcceptance_safe hV hj hx) ?_)
          intro out z hz
          cases out with
          | error e =>
              intro t ht
              cases ht
          | ok t => exact fun _ _ => hz

/-- From the verified candidate to the closing status. -/
theorem deliver_safe {contract : Option ExecutionContract}
    {transition : TransitionDefinition} {verification : VerificationResult}
    {candidate : Candidate} {out : RelPath} (hV : V.project = p)
    (hj : job.jobId = j) {w : World} (h : At p j i true 0 0 w) :
    Safe (machine E) A (acceptContract p j) i (fun _ _ => True)
      (deliver E V call job sid contract transition verification candidate out)
      w := by
  refine safe_read fun v hv fault _ => ?_
  obtain ⟨hguar, hat⟩ := (h.stable hv).quietOp (E := E) (o := .look) fault rfl
  refine ⟨hguar, ?_⟩
  split
  · exact rejectCompletion_safe hV hj hat
  · refine safe_read fun x hx fault _ => ?_
    obtain ⟨hguar, hat⟩ := (hat.stable hx).quietOp (E := E) (o := .look) fault rfl
    refine ⟨hguar, Safe.bind (Safe.mono (quiet_safe (uses_ofExcept _) hat) ?_)⟩
    rintro (e | delivery) y hy
    · trivial
    · refine Safe.bind (Safe.mono (quiet_safe (checkTarget_uses
        (S := fun o => o.isQuiet = true) (fun _ _ => rfl) _ _) hy) ?_)
      rintro (e | checked) z hz
      · trivial
      · cases checked with
        | error errors => exact rejectCompletion_safe hV hj hz
        | ok _ =>
            refine safe_quiet rfl hz fun u _ hu => ?_
            refine Safe.bind (Safe.ensure (Safe.mono (publish_safe hV hj hu) ?_))
            intro out x hx
            cases out with
            | error e => exact safe_quiet rfl (At.any x) fun _ _ _ => trivial
            | ok published =>
                cases published with
                | inl rejected =>
                    exact safe_quiet rfl (At.any x) fun _ _ _ => trivial
                | inr t =>
                    obtain ⟨m, hm⟩ := hx t rfl
                    exact safe_quiet rfl hm fun v _ hv => conclude_safe hV hj hv

/-- From the mark to the verdict. -/
theorem validateSubmission_safe {contract : Option ExecutionContract}
    {transition : TransitionDefinition} (hV : V.project = p)
    (hj : job.jobId = j) (hfree : job.status ≠ .completionSubmitted)
    (hopen : job.status.terminal = false) {w : World}
    (h : At p j i false 0 0 w) :
    Safe (machine E) entersAsRead (acceptContract p j) i (fun _ _ => True)
      (validateSubmission E V call job sid contract transition) w := by
  subst hV
  subst hj
  refine safe_quiet rfl h fun v _ hv => ?_
  refine safe_perform fun x hx fault _ hadm => ?_
  obtain ⟨rfl, hread⟩ := hadm
  obtain ⟨hguar, hat⟩ := (hv.stable hx).enter (E := E)
    { activeSubmissionId := some sid } hread hfree hopen rfl rfl
  refine ⟨hguar, ?_⟩
  refine safe_quiet rfl hat fun v _ hv => ?_
  refine Safe.bind (Safe.mono (captureCompletionCandidate_safe rfl rfl hv) ?_)
  intro out y hy
  cases out with
  | error e => trivial
  | ok captured =>
      cases captured with
      | error errors => exact rejectCandidateCapture_safe rfl rfl hy
      | ok candidate =>
          refine safe_quiet rfl hy fun v _ hv => ?_
          cases hverify : verifyCandidate E call job with
          | error e =>
              refine Safe.bind (Safe.mono (recordValidationFinished_safe rfl rfl hv) ?_)
              rintro (e | _) z - <;> trivial
          | ok verified =>
              obtain ⟨out, verification⟩ := verified
              refine Safe.bind (Safe.mono (recordValidationFinished_safe rfl rfl hv) ?_)
              intro finished z hz
              cases finished with
              | error e => trivial
              | ok _ =>
                  dsimp only
                  split
                  · exact deliver_safe rfl rfl hz
                  · exact rejectCompletion_safe rfl rfl hz

/-- A call keeps the contract, from its read of the job on. -/
theorem submit_safe (hV : V.project = p) (hj : call.jobId = j) {w : World}
    (h : At p j i false 0 0 w) :
    Safe (machine E) entersAsRead (acceptContract p j) i (fun _ _ => True)
      (submit E V call) w := by
  refine safe_perform fun v hv fault _ _ => ?_
  obtain ⟨hguar, hat⟩ := (h.stable hv).quietOp (E := E)
    (o := .getJob V.project call.jobId) fault rfl
  refine ⟨hguar, ?_⟩
  split
  · trivial
  next job hjob =>
    have hid : job.jobId = j := by
      have hget : (v.data.projects V.project).jobs.get call.jobId = some job :=
        job_of_getJob hjob
      exact (Table.key_of_get hget).trans hj
    unfold submitJob
    split
    · split <;> trivial
    · split
      · trivial
      · split
        · trivial
        next hfree =>
          split
          · exact safe_quiet rfl hat fun _ _ _ => trivial
          next hterminal =>
            split
            · exact safe_quiet rfl hat fun _ _ _ => trivial
            · split
              · trivial
              · exact validateSubmission_safe hV hid hfree
                  (by simpa using hterminal) hat

end Call

-- ============================================================= the runs

section Runs

variable {p : ProjectId} {j : JobId} {E : Env}

/-- What a run of such moves keeps: at most one transaction has been begun,
and its process owns the job until the job is settled; at most one has been
committed, by the process that began it; nothing has entered while the job
was in validation. -/
structure Single (p : ProjectId) (j : JobId) (w : World) : Prop where
  begins : w.history.countP (·.journals p j .prepared) = 0 ∨
    ∃ i, w.history.countP (·.journals p j .prepared) = 1 ∧
      begun p j i w.history = 1 ∧
        (Busy p j i w ∨ w.data.status p j = some .accepted ∨
          w.data.status p j = some .failed)
  commits : w.history.countP (·.journals p j .committed) = 0 ∨
    ∃ i, w.history.countP (·.journals p j .committed) = 1 ∧
      committed p j i w.history = 1 ∧ begun p j i w.history = 1
  entered : ∀ e ∈ w.history, e.enters p j = true →
    e.before.status p j ≠ some .completionSubmitted

/-- At most one transaction has been begun. -/
theorem Single.begins_le {w : World} (h : Single p j w) :
    w.history.countP (·.journals p j .prepared) ≤ 1 := by
  rcases h.begins with h | ⟨i, h, -⟩ <;> omega

/-- The process that has begun the transaction is the only one. -/
theorem Single.begun_unique {w : World} (h : Single p j w) {i k : Pid}
    (hi : begun p j i w.history = 1) (hk : begun p j k w.history = 1) :
    i = k := by
  by_contra hik
  have hle := own_countP_add_le hik (·.journals p j .prepared) w.history
  have hone := h.begins_le
  unfold begun at hi hk
  omega

/-- Counting one's own entries after a step. -/
theorem begun_cons (i : Pid) (e : Entry) (history : List Entry) :
    begun p j i (e :: history) = begun p j i history +
      if e.pid = i ∧ e.journals p j .prepared = true then 1 else 0 := by
  unfold begun
  rw [own_cons]
  split
  next h => simp [List.countP_cons, h]
  next h => simp [h]

theorem committed_cons (i : Pid) (e : Entry) (history : List Entry) :
    committed p j i (e :: history) = committed p j i history +
      if e.pid = i ∧ e.journals p j .committed = true then 1 else 0 := by
  unfold committed
  rw [own_cons]
  split
  next h => simp [List.countP_cons, h]
  next h => simp [h]

/-- An entry that is neither a beginning nor a commit keeps the counts. -/
theorem Single.keep {u v : World} {e : Entry} (h : Single p j u)
    (hhist : v.history = e :: u.history)
    (hbegin : e.journals p j .prepared = false)
    (hcommit : e.journals p j .committed = false)
    (hentered : e.enters p j = true →
      e.before.status p j ≠ some .completionSubmitted)
    (hstatus : ∀ i, begun p j i u.history = 1 →
      Busy p j i u ∨ u.data.status p j = some .accepted ∨
        u.data.status p j = some .failed →
      Busy p j i v ∨ v.data.status p j = some .accepted ∨
        v.data.status p j = some .failed) : Single p j v where
  begins := by
    rw [hhist, List.countP_cons, hbegin]
    rcases h.begins with h0 | ⟨i, h1, hi, hs⟩
    · exact Or.inl h0
    · refine Or.inr ⟨i, h1, ?_, hstatus i hi hs⟩
      rw [begun_cons, hbegin, hi]
      simp
  commits := by
    rw [hhist, List.countP_cons, hcommit]
    rcases h.commits with h0 | ⟨i, h1, hi, hb⟩
    · exact Or.inl h0
    · refine Or.inr ⟨i, h1, ?_, ?_⟩
      · rw [committed_cons, hcommit, hi]
        simp
      · rw [begun_cons, hbegin, hb]
        simp
  entered := by
    rw [hhist]
    exact List.forall_mem_cons.mpr ⟨hentered, h.entered⟩

/-- Every move keeps it. -/
theorem Single.move {i : Pid} {u v : World} (h : Single p j u)
    (hguar : (acceptContract p j).guar i u v) : Single p j v := by
  obtain ⟨e, hpid, hbefore, hhist, hmove⟩ := hguar
  cases hmove with
  | quiet hstatus henter hbegin hcommit =>
      refine h.keep hhist hbegin hcommit
        (by rw [henter]; intro hf; cases hf) fun k _ hk => ?_
      rcases hk with hk | hk
      · left
        refine ⟨hstatus.trans hk.1, ?_⟩
        rw [hhist, validator_cons_of_not henter]
        exact hk.2
      · right
        rwa [hstatus]
  | @enter s hread hfree hopen henter hstatus =>
      refine h.keep hhist (Entry.not_journals_of_enters henter _)
        (Entry.not_journals_of_enters henter _) (fun _ => ?_) fun k _ hk => ?_
      · rw [hbefore, hread]
        exact fun hs => hfree (Option.some.inj hs)
      · -- nothing enters once a transaction has been begun
        rcases hk with hk | hk | hk
        · rw [hk.1] at hread
          exact absurd (Option.some.inj hread).symm hfree
        · rw [hk] at hread
          cases hread
          cases hopen
        · rw [hk] at hread
          cases hread
          cases hopen
  | @close s hbusy henter hbegin hcommit hstatus hend =>
      refine h.keep hhist hbegin hcommit
        (by rw [henter]; intro hf; cases hf) fun k hk hs => ?_
      right
      -- the owner that closes is the one that has begun, if any has
      have hik : i = k := by
        rcases hs with hs | hs | hs
        · exact Option.some.inj (hbusy.2.symm.trans hs.2)
        · rw [hbusy.1] at hs
          cases hs
        · rw [hbusy.1] at hs
          cases hs
      subst hik
      rcases hend with h0 | rfl | rfl
      · omega
      · exact Or.inl hstatus
      · exact Or.inr hstatus
  | begin hbusy hfirst hstatus hbegin =>
      have hother := Entry.not_journals_other hbegin (t := .committed)
        (by intro hs; cases hs)
      have hnone : u.history.countP (·.journals p j .prepared) = 0 := by
        rcases h.begins with h0 | ⟨k, h1, hk, hs⟩
        · exact h0
        · have hik : i = k := by
            rcases hs with hs | hs | hs
            · exact Option.some.inj (hbusy.2.symm.trans hs.2)
            · rw [hbusy.1] at hs
              cases hs
            · rw [hbusy.1] at hs
              cases hs
          subst hik
          omega
      refine ⟨Or.inr ⟨i, ?_, ?_, Or.inl ⟨hstatus.trans hbusy.1, ?_⟩⟩, ?_, ?_⟩
      · rw [hhist, List.countP_cons, hbegin, hnone]
        rfl
      · rw [hhist, begun_cons, hfirst, hpid, hbegin]
        simp
      · rw [hhist, validator_cons_of_not (Entry.not_enters_of_journals hbegin)]
        exact hbusy.2
      · rw [hhist, List.countP_cons, hother]
        rcases h.commits with h0 | ⟨k, h1, hk, hb⟩
        · exact Or.inl h0
        · have hle : begun p j k u.history
              ≤ u.history.countP (·.journals p j .prepared) :=
            List.Sublist.countP_le List.filter_sublist
          omega
      · rw [hhist]
        refine List.forall_mem_cons.mpr ⟨fun hent => ?_, h.entered⟩
        rw [Entry.not_enters_of_journals hbegin] at hent
        cases hent
  | commit hbusy hbegun hfirst hstatus hcommit =>
      have hother := Entry.not_journals_other hcommit (t := .prepared)
        (by intro hs; cases hs)
      have hnone : u.history.countP (·.journals p j .committed) = 0 := by
        rcases h.commits with h0 | ⟨k, h1, hk, hb⟩
        · exact h0
        · have hik := h.begun_unique hbegun hb
          subst hik
          omega
      refine ⟨?_, Or.inr ⟨i, ?_, ?_, ?_⟩, ?_⟩
      · rw [hhist, List.countP_cons, hother]
        rcases h.begins with h0 | ⟨k, h1, hk, hs⟩
        · exact Or.inl h0
        · refine Or.inr ⟨k, h1, ?_, ?_⟩
          · rw [begun_cons, hother, hk]
            simp
          · rcases hs with hs | hs
            · refine Or.inl ⟨hstatus.trans hs.1, ?_⟩
              rw [hhist, validator_cons_of_not (Entry.not_enters_of_journals hcommit)]
              exact hs.2
            · right
              rwa [hstatus]
      · rw [hhist, List.countP_cons, hcommit, hnone]
        rfl
      · rw [hhist, committed_cons, hfirst, hpid, hcommit]
        simp
      · rw [hhist, begun_cons, hother, hbegun]
        simp
      · rw [hhist]
        refine List.forall_mem_cons.mpr ⟨fun hent => ?_, h.entered⟩
        rw [Entry.not_enters_of_journals hcommit] at hent
        cases hent

/-- So does a crash. -/
theorem Single.crash {i : Pid} {w : World} (h : Single p j w) :
    Single p j (w.crash i) := by
  refine h.keep (e := ⟨i, false, .mark .crashed, w.data⟩) rfl rfl rfl
    (by intro hf; cases hf) fun k _ hk => ?_
  rcases hk with hk | hk
  · refine Or.inl ⟨hk.1, ?_⟩
    rw [show (w.crash i).history = ⟨i, false, .mark .crashed, w.data⟩ :: w.history
      from rfl, validator_cons_of_not rfl]
    exact hk.2
  · exact Or.inr hk

end Runs

/-- A job is accepted at most once along the runs of a condition: of any
submissions for one job, in any interleaving, at most one begins and commits
an acceptance transaction, and none enters validation while another is in
it. -/
def AcceptsOnce (E : Env) (A : Par.Admission Pid Op World) : Prop :=
  ∀ (p : ProjectId) (j : JobId)
    (c c' : Config Pid Op Op.Res Raised Unit World),
    (∀ i q, c.procs i = some q → ∃ (V : CompletionService) (call : SubmitCall),
      V.project = p ∧ call.jobId = j ∧ q = (do let _ ← submit E V call)) →
    c.world.history = [] → Run (machine E) A c c' →
    c'.world.history.countP (·.journals p j .prepared) ≤ 1 ∧
      c'.world.history.countP (·.journals p j .committed) ≤ 1 ∧
      ∀ e ∈ c'.world.history, e.enters p j = true →
        e.before.status p j ≠ some .completionSubmitted

/-- Where every call marks the job submitted on the status it has read, the
job is accepted at most once. -/
theorem acceptsOnce_of_entersAsRead (E : Env) : AcceptsOnce E entersAsRead := by
  intro p j c c' hprocs hstart hrun
  have hsafe : Par.AllSafe (machine E) entersAsRead (acceptContract p j)
      (fun _ _ _ => True) c := by
    intro i q hq
    obtain ⟨V, call, hV, hj, rfl⟩ := hprocs i q hq
    have hat : At p j i false 0 0 c.world := by
      refine ⟨fun ho => (Bool.false_ne_true ho).elim, ?_, ?_⟩
      · simp [begun, hstart, own]
      · simp [committed, hstart, own]
    refine Safe.bind (Safe.mono (submit_safe hV hj hat) ?_)
    rintro (e | _) v - <;> trivial
  have hsingle : Single p j c'.world := by
    refine hsafe.invariant (acceptContract_fits E _) (fun _ _ _ _ _ _ => trivial)
      (fun u v hmoved h => ?_) hrun ?_
    · rcases hmoved with ⟨i, hguar⟩ | ⟨i, -, rfl⟩
      · exact h.move hguar
      · exact h.crash
    · exact ⟨Or.inl (by simp [hstart]), Or.inl (by simp [hstart]), by simp [hstart]⟩
  refine ⟨hsingle.begins_le, ?_, hsingle.entered⟩
  rcases hsingle.commits with h | ⟨i, h, -⟩ <;> omega

/-- Two calls that both read the job while it is running are both accepted:
each marks it submitted, and each commits its transaction. -/
theorem job_accepted_twice : ¬ AcceptsOnce smallEnv Par.Admission.any := by
  intro h
  let c : Config Pid Op Op.Res Raised Unit World :=
    system (smallData .running)
      [do let _ ← submit smallEnv ⟨"p", none, 2⟩ (smallCall "a"),
        do let _ ← submit smallEnv ⟨"p", none, 2⟩ (smallCall "b")]
  obtain ⟨c', hrun, htwice⟩ := Par.exists_run_of_nexts
    (M := machine smallEnv) (c := c)
    -- both read the job; one runs until its transaction is committed and the
    -- lock released, then the other commits too
    (l := [.step 0 false, .step 1 false] ++
      List.replicate 29 (.step 0 false) ++ List.replicate 28 (.step 1 false))
    (P := fun c' => c'.world.history.countP (·.journals "p" "j" .committed) = 2)
    (by decide +kernel)
  have honce := h "p" "j" c c'
    (by
      intro i q hq
      match i with
      | 0 => cases hq; exact ⟨_, _, rfl, rfl, rfl⟩
      | 1 => cases hq; exact ⟨_, _, rfl, rfl, rfl⟩
      | n + 2 => cases hq)
    rfl hrun
  have htwo := of_decide_eq_true htwice
  omega

end OpenTulid
