/-
Recovery beside a live acceptance: when the two do not get in each other's
way.

A prepared journal looks the same whether its process has crashed or is
still at work, and recovery takes no lock. So a recovery that lists the
journals while an acceptance is under way replays its effects, closes its
journal and settles its job. `apartFromLive` is the condition that keeps the
two apart: whenever another process lists the journals, what it finds of the
acceptance's journal and job is that one journal, which the acceptance has
committed.

# Method

A rely/guarantee contract between the acceptance (process zero) and all the
others. What the others do is `Beside`: they leave the journal, the marks of
its effects and the job alone, but for settling the job as accepted once the
acceptance has committed. `Live` is what the acceptance knows meanwhile.
-/
import OpenTulid.Proofs.Footprint
import OpenTulid.Proofs.Frame

namespace OpenTulid

open Prog (Uses)
open Par (Run Config Safe)

-- ========================================================== the history

/-- The mark is about an effect of the journal. -/
def Mark.about (J : JournalId) : Mark → Bool
  | .performs j _ | .compensates j _ => j = J
  | _ => false

/-- The effects of a journal that were performed and compensated, last
first. -/
def effectMarks (J : JournalId) (history : List Entry) : List Mark :=
  history.filterMap fun e => match e.op with
    | .mark m => if m.about J then some m else none
    | _ => none

/-- No effect is performed after it has been performed or compensated. -/
def OnceEach (J : JournalId) (history : List Entry) : Prop :=
  (effectMarks J history).Pairwise fun later earlier =>
    ∀ k, later = .performs J k →
      earlier ≠ .performs J k ∧ earlier ≠ .compensates J k

/-- The entry commits the journal. -/
def Entry.commits (p : ProjectId) (J : JournalId) (e : Entry) : Bool :=
  match e.op with
  | .writeJournal q r => q = p && r.journalId = J && r.status = .committed &&
      !e.fault && safeStem J
  | _ => false

/-- The acceptance has committed its journal. -/
def liveCommitted (p : ProjectId) (J : JournalId) (history : List Entry) : Bool :=
  history.any fun e => e.pid = 0 && e.commits p J

/-- Whenever another process lists the journals, what it finds of the
acceptance's journal and job is that journal, committed by the acceptance;
and the acceptance neither crashes nor fails to write the job or to flush a
journal it has written. -/
def apartFromLive (p : ProjectId) (j : JobId) (J : JournalId) :
    Par.Admission Pid Op World where
  step i fault o w := match o with
    | .updateStatus .. | .syncJournal .. => i = 0 → fault = false
    | .listJournals q => ∀ r ∈ (w.data.projects q).journals.values,
        r.journalId = J ∨ q = p ∧ r.context.jobId = some j →
          r.journalId = J ∧ r.status = .committed ∧
            liveCommitted p J w.history = true
    | _ => True
  crash i _ := i ≠ 0

-- ========================================================= the contract

/-- What the others do to the acceptance's journal and job. -/
structure Beside (p : ProjectId) (j : JobId) (J : JournalId) (u v : World) :
    Prop where
  marks : effectMarks J v.history = effectMarks J u.history
  committed : liveCommitted p J v.history = liveCommitted p J u.history
  journal : v.data.journal p J = u.data.journal p J
  status : v.data.status p j = u.data.status p j ∨
    liveCommitted p J u.history = true ∧ v.data.status p j = some .accepted
  git : ∀ r, (v.data.repos r).git.isSome = (u.data.repos r).git.isSome

/-- The acceptance is process zero; once it has committed, the others may
rely on it. -/
def liveContract (p : ProjectId) (j : JobId) (J : JournalId) :
    Par.Contract Pid World where
  rely i u v :=
    if i = 0 then Beside p j J u v
    else liveCommitted p J u.history = true → liveCommitted p J v.history = true
  guar i u v :=
    if i = 0 then
      (liveCommitted p J u.history = true → liveCommitted p J v.history = true) ∧
        (OnceEach J u.history → OnceEach J v.history)
    else Beside p j J u v

section Contract

variable {E : Env} {p : ProjectId} {j : JobId} {J : JournalId} {u v w : World}

theorem Beside.refl (u : World) : Beside p j J u u :=
  ⟨rfl, rfl, rfl, Or.inl rfl, fun _ => rfl⟩

theorem Beside.trans (huv : Beside p j J u v) (hvw : Beside p j J v w) :
    Beside p j J u w where
  marks := hvw.marks.trans huv.marks
  committed := hvw.committed.trans huv.committed
  journal := hvw.journal.trans huv.journal
  status := by
    rcases hvw.status with hsame | ⟨hlive, hset⟩
    · rw [hsame]
      exact huv.status
    · exact Or.inr ⟨huv.committed ▸ hlive, hset⟩
  git r := (hvw.git r).trans (huv.git r)

theorem Beside.onceEach (h : Beside p j J u v) (hu : OnceEach J u.history) :
    OnceEach J v.history := by
  unfold OnceEach at hu ⊢
  rw [h.marks]
  exact hu

/-- The operations that leave the journal, its marks and the job alone. -/
def Op.leaves (p : ProjectId) (j : JobId) (J : JournalId) : Op → Bool
  | .updateStatus q _ _ id _ _ _ => !(q = p && id = j)
  | .recordAttempt .. | .createJob .. => false
  | .writeJournal q r => !(q = p && r.journalId = J)
  | .mark m => !m.about J
  | _ => true

/-- A journal is changed only by a write of it. -/
theorem journal_apply {fault : Bool} {o : Op} {d : Data}
    (h : ∀ r, o = .writeJournal p r → r.journalId ≠ J) :
    (o.apply E fault d).1.journal p J = d.journal p J := by
  cases hw : o.writesJournals with
  | false =>
      unfold Data.journal
      rw [journals_apply hw]
  | true =>
      cases o with
      | writeJournal q r =>
          simp only [Op.apply]
          split
          · rfl
          · unfold Data.journal
            by_cases hq : p = q
            · subst hq
              rw [Data.withProject_projects_self, Table.get_put_of_ne]
              exact (h r rfl).symm
            · rw [Data.withProject_projects_of_ne d hq]
      | _ => cases hw

/-- An operation that leaves them alone does, whoever performs it. -/
theorem beside_of_leaves {i : Pid} (fault : Bool) {o : Op}
    (ho : o.leaves p j J = true) : Beside p j J w (w.step E i fault o).1 where
  marks := by
    unfold effectMarks
    rw [World.step_history, List.filterMap_cons]
    cases o with
    | mark m =>
        have hm : m.about J = false := by simpa [Op.leaves] using ho
        simp [hm]
    | _ => rfl
  committed := by
    unfold liveCommitted
    rw [World.step_history, List.any_cons]
    cases o with
    | writeJournal q r =>
        have hr : (decide (q = p) && decide (r.journalId = J)) = false :=
          (Bool.not_eq_true' _).mp ho
        simp only [Entry.commits, hr, Bool.false_and, Bool.and_false, Bool.false_or]
    | _ => simp [Entry.commits]
  journal := by
    refine journal_apply fun r hr hJ => ?_
    subst hr
    simp [Op.leaves, hJ] at ho
  status := by
    refine Or.inl ?_
    rcases @status_apply E fault o w.data (by rintro q job rfl; cases ho) p j with
      hsame | ⟨site, basis, s, patch, inc, rfl, -⟩
    · exact hsame
    · simp [Op.leaves] at ho
  git r := git_isSome_apply r

/-- A crash of another process leaves them alone. -/
theorem beside_of_crash {i : Pid} (hi : i ≠ 0) : Beside p j J w (w.crash i) where
  marks := rfl
  committed := by simp [World.crash, liveCommitted, hi]
  journal := rfl
  status := Or.inl rfl
  git _ := rfl

theorem liveContract_fits :
    (liveContract p j J).Fits (machine E) (apartFromLive p j J) where
  refl i w := by
    unfold liveContract
    dsimp only
    split
    · exact Beside.refl w
    · exact id
  trans i u v w huv hvw := by
    unfold liveContract at huv hvw ⊢
    dsimp only at huv hvw ⊢
    split at huv
    next hi =>
      rw [if_pos hi] at hvw ⊢
      exact huv.trans hvw
    next hi =>
      rw [if_neg hi] at hvw ⊢
      exact fun hu => hvw (huv hu)
  guar_rely i k u v hik hguar := by
    unfold liveContract at hguar ⊢
    dsimp only at hguar ⊢
    split at hguar
    next hi =>
      rw [if_neg (fun hk => hik (hi.trans hk.symm))]
      exact hguar.1
    next hi =>
      split
      · exact hguar
      · exact fun hu => hguar.committed.trans hu
  crash_rely i k w hik hi := by
    unfold liveContract
    dsimp only
    split
    · exact beside_of_crash hi
    · exact fun hu => (beside_of_crash (j := j) hi).committed.trans hu

end Contract

-- ======================================================== the recoveries

section Recoveries

variable {E : Env} {V : CompletionService} {p : ProjectId} {j : JobId}
  {J : JournalId} {w : World} {i : Pid}

/-- A status write that settles the job as accepted, or an operation that
leaves it alone. -/
def Op.settlesOrLeaves (p : ProjectId) (j : JobId) (J : JournalId) (o : Op) :
    Prop :=
  o.leaves p j J = true ∨
    ∃ site basis patch, o = .updateStatus p site basis j .accepted patch false

/-- Once the acceptance has committed, its job may be settled. -/
theorem beside_of_settles (fault : Bool) {o : Op}
    (ho : o.settlesOrLeaves p j J) (hlive : liveCommitted p J w.history = true) :
    Beside p j J w (w.step E i fault o).1 := by
  rcases ho with ho | ⟨site, basis, patch, rfl⟩
  · exact beside_of_leaves _ ho
  · refine ⟨rfl, ?_, ?_, ?_, fun r => git_isSome_apply r⟩
    · simp [liveCommitted, Entry.commits]
    · exact journal_apply (by intro r hr; cases hr)
    · rcases @status_apply E fault (.updateStatus p site basis j .accepted patch false)
        w.data (by intro q job hop; cases hop) p j with
        hsame | ⟨_, _, s, _, _, hop, hset⟩
      · exact Or.inl hsame
      · cases hop
        exact Or.inr ⟨hlive, hset⟩

/-- Recovering a record that has to do with neither the journal nor the job
leaves both alone. -/
theorem recoversWithin_of_other {record : TransactionJournalRecord}
    (hid : record.journalId ≠ J)
    (hjob : V.project = p → record.context.jobId ≠ some j) :
    RecoversWithin (fun o => o.leaves p j J = true) V record where
  effect o ho := by cases o <;> first | rfl | cases ho
  getJob _ := rfl
  performs _ _ := by simp [Op.leaves, Mark.about, hid]
  replays _ := rfl
  append _ _ := rfl
  human _ := rfl
  commit _ := by simp [Op.leaves, hid]
  sync _ := rfl
  settles := rfl
  settle id basis patch hset _ := by
    by_cases hp : V.project = p
    · have hne : id ≠ j := fun h => hjob hp (h ▸ hset)
      simp [Op.leaves, hne]
    · simp [Op.leaves, hp]

/-- Recovering the committed journal settles the job at most. -/
theorem recoversWithin_of_committed {record : TransactionJournalRecord}
    (hstatus : record.status = .committed) :
    RecoversWithin (Op.settlesOrLeaves p j J) V record where
  effect o ho := Or.inl (by cases o <;> first | rfl | cases ho)
  getJob _ := Or.inl rfl
  performs hopen := absurd hstatus hopen
  replays hopen := absurd hstatus hopen
  append hopen := absurd hstatus hopen
  human hopen := absurd hstatus hopen
  commit hopen := absurd hstatus hopen
  sync hopen := absurd hstatus hopen
  settles := Or.inl rfl
  settle id basis patch _ _ := by
    by_cases h : V.project = p ∧ id = j
    · exact Or.inr ⟨_, _, _, by rw [h.1, h.2]⟩
    · refine Or.inl ?_
      simp only [Op.leaves, Bool.not_eq_true', Bool.and_eq_false_imp,
        decide_eq_true_eq, decide_eq_false_iff_not]
      exact fun hp hid => h ⟨hp, hid⟩

/-- Recovery by another process keeps its side of the contract. -/
theorem recover_safe (hi : i ≠ 0) {Q : Except Raised (List JournalId) → World → Prop}
    (hQ : ∀ out v, Q out v) :
    Safe (machine E) (apartFromLive p j J) (liveContract p j J) i Q
      (recoverCompletionTransactions E V) w := by
  have hguar : ∀ {fault : Bool} {o : Op} {v : World},
      Beside p j J v (v.step E i fault o).1 →
      (liveContract p j J).guar i v (v.step E i fault o).1 := by
    intro fault o v h
    unfold liveContract
    dsimp only
    rw [if_neg hi]
    exact h
  refine safe_read fun v _ fault _ => ⟨hguar (beside_of_leaves _ rfl), ?_⟩
  refine safe_perform fun v' _ fault' _ hadm => ⟨hguar (beside_of_leaves _ rfl), ?_⟩
  split
  next => exact hQ _ _
  next records hlisted =>
    have hrecords : records = (v'.data.projects V.project).journals.values := by
      cases fault' with
      | true => cases hlisted
      | false => exact (Except.ok.inj hlisted).symm
    subst hrecords
    by_cases hlive : liveCommitted p J v'.history = true
    · -- the acceptance has committed: its job may be settled
      refine Safe.mono (Safe.of_uses
        (S := Op.settlesOrLeaves p j J)
        (F := fun x => liveCommitted p J x.history = true) ?_ ?_
        (recoverRecords_uses E V (fun record hmem => ?_) _) ?_) fun out x _ => hQ out x
      · intro x y hx hxy
        unfold liveContract at hxy
        dsimp only at hxy
        rw [if_neg hi] at hxy
        exact hxy hx
      · intro o x fault ho hx _
        have hbeside := beside_of_settles (E := E) (i := i) fault ho hx
        exact ⟨hguar hbeside, hbeside.committed.trans hx⟩
      · by_cases hown : record.journalId = J ∨
          V.project = p ∧ record.context.jobId = some j
        · exact recoversWithin_of_committed (hadm record hmem hown).2.1
        · obtain ⟨hid, hjob⟩ := not_or.mp hown
          refine (recoversWithin_of_other (j := j) hid ?_).mono fun _ => Or.inl
          exact fun hp hset => hjob ⟨hp, hset⟩
      · exact (beside_of_leaves (p := p) (j := j) _ rfl).committed.trans hlive
    · -- it has not: nothing of it was listed
      refine Safe.mono (Safe.of_uses (S := fun o => o.leaves p j J = true)
        (F := fun _ => True) (fun _ _ _ _ => trivial) ?_
        (recoverRecords_uses E V (fun record hmem => ?_) _) trivial)
        fun out x _ => hQ out x
      · intro o x fault ho _ _
        exact ⟨hguar (beside_of_leaves _ ho), trivial⟩
      · have hown : ¬ (record.journalId = J ∨
            V.project = p ∧ record.context.jobId = some j) :=
          fun hown => hlive (hadm record hmem hown).2.2
        obtain ⟨hid, hjob⟩ := not_or.mp hown
        exact recoversWithin_of_other hid fun hp hset => hjob ⟨hp, hset⟩

end Recoveries

-- ======================================================== the acceptance

section Acceptance

variable {E : Env} {V : CompletionService} {j : JobId} {J : JournalId}
  {accepted : Bool} {phase : Option Nat} {w v : World} {α β : Type}

/-- What the acceptance knows while the others stand beside it: whether it
has committed, that its job is stored, and, while it performs its effects
(`phase`), that no later one has been performed. -/
structure Live (E : Env) (V : CompletionService) (j : JobId) (J : JournalId)
    (accepted : Bool) (phase : Option Nat) (w : World) : Prop where
  committed : liveCommitted V.project J w.history = accepted
  journal : (w.data.journal V.project J).map (·.status) = some .committed ↔
    accepted = true
  job : (w.data.status V.project j).isSome
  git : gitUnavailable E V w.data = false
  once : OnceEach J w.history
  reached : ∀ k, phase = some k →
    ∀ m ∈ effectMarks J w.history, ∃ i < k, m = .performs J i

/-- What the others do keeps it. -/
theorem Live.beside (h : Live E V j J accepted phase w)
    (hv : Beside V.project j J w v) : Live E V j J accepted phase v where
  committed := hv.committed.trans h.committed
  journal := by rw [hv.journal, h.journal]
  job := by
    rcases hv.status with hsame | ⟨-, hset⟩
    · rw [hsame]
      exact h.job
    · rw [hset]
      rfl
  git := by
    rw [← h.git]
    exact gitUnavailable_congr hv.git
  once := hv.onceEach h.once
  reached k hk := by
    rw [hv.marks]
    exact h.reached k hk

abbrev SafeLive (E : Env) (p : ProjectId) (j : JobId) (J : JournalId)
    (Q : Except Raised α → World → Prop) (prog : Proc α) (w : World) : Prop :=
  Safe (machine E) (apartFromLive p j J) (liveContract p j J) 0 Q prog w

/-- An operation of the acceptance, and what follows, from what it knows. -/
theorem live_step {Q : Except Raised α → World → Prop} {o : Op}
    {f : o.Res → Proc α} (h : Live E V j J accepted phase w)
    (hop : ∀ v fault, Live E V j J accepted phase v →
      (apartFromLive V.project j J).step 0 fault o v →
      (OnceEach J v.history → OnceEach J (v.step E 0 fault o).1.history) ∧
        SafeLive E V.project j J Q (f (o.apply E fault v.data).2)
          (v.step E 0 fault o).1) :
    SafeLive E V.project j J Q (perform o >>= f) w := by
  refine safe_perform fun v hv fault _ hadm => ?_
  obtain ⟨honce, hsafe⟩ := hop v fault (h.beside hv) hadm
  refine ⟨⟨?_, honce⟩, hsafe⟩
  intro hlive
  unfold liveCommitted at hlive ⊢
  rw [World.step_history, List.any_cons, hlive, Bool.or_true]

/-- An operation that leaves journal, marks and job alone. -/
theorem live_leaves {Q : Except Raised α → World → Prop} {o : Op}
    {f : o.Res → Proc α} (ho : o.leaves V.project j J = true)
    (h : Live E V j J accepted phase w)
    (hf : ∀ v fault, Live E V j J accepted phase (v.step E 0 fault o).1 →
      Live E V j J accepted phase v →
      SafeLive E V.project j J Q (f (o.apply E fault v.data).2)
        (v.step E 0 fault o).1) :
    SafeLive E V.project j J Q (perform o >>= f) w := by
  refine live_step h fun v fault hv _ => ?_
  have hbeside := beside_of_leaves (E := E) (w := v) (i := 0) fault ho
  exact ⟨hbeside.onceEach, hf v fault (hv.beside hbeside) hv⟩

/-- A part of the acceptance that leaves them alone, and what follows. -/
theorem live_uses {Q : Except Raised α → World → Prop} {prog : Proc β}
    {f : β → Proc α} (huses : Uses (fun o => o.leaves V.project j J = true) prog)
    (hreturns : prog.Returns) (h : Live E V j J accepted phase w)
    (hf : ∀ b v, Live E V j J accepted phase v →
      SafeLive E V.project j J Q (f b) v) :
    SafeLive E V.project j J Q (prog >>= f) w := by
  have hprog : SafeLive E V.project j J
      (fun _ => Live E V j J accepted phase) prog w := by
    refine Safe.of_uses (fun u v hu hv => hu.beside hv) ?_ huses h
    intro o v fault ho hv _
    have hbeside := beside_of_leaves (E := E) (w := v) (i := 0) fault ho
    refine ⟨⟨?_, hbeside.onceEach⟩, hv.beside hbeside⟩
    exact fun hlive => hbeside.committed.trans hlive
  refine Safe.bind (Safe.mono (hprog.returns hreturns) ?_)
  rintro _ v ⟨b, rfl, hv⟩
  exact hf b v hv

/-- A write of the journal with a status other than committed. -/
theorem Live.writeJournal {r : TransactionJournalRecord}
    (h : Live E V j J false phase w) (fault : Bool) (hid : r.journalId = J)
    (hstatus : r.status ≠ .committed) :
    Live E V j J false phase (w.step E 0 fault (.writeJournal V.project r)).1 where
  committed := by
    unfold liveCommitted
    rw [World.step_history, List.any_cons]
    simp only [Entry.commits, hstatus, decide_false, Bool.and_false,
      Bool.false_and, Bool.false_or]
    exact h.committed
  journal := by
    simp only [Bool.false_eq_true, iff_false]
    simp only [World.step_data, Op.apply]
    split
    · exact fun hset => Bool.false_ne_true (h.journal.mp hset)
    · simp only [Data.journal, Data.withProject_projects_self, ← hid,
        Table.get_put, if_true, Option.map_some, Option.some.injEq]
      exact hstatus
  job := by
    unfold Data.status Data.job
    rw [World.step_data, jobs_apply rfl]
    exact h.job
  git := by
    rw [← h.git]
    exact gitUnavailable_congr fun r => git_isSome_apply r
  once := h.once
  reached := h.reached

/-- The write that commits the journal. -/
theorem Live.commitJournal {r : TransactionJournalRecord}
    (h : Live E V j J false phase w) (fault : Bool) (hid : r.journalId = J)
    (hstatus : r.status = .committed) :
    Live E V j J (!fault && safeStem J) phase
      (w.step E 0 fault (.writeJournal V.project r)).1 where
  committed := by
    have hbefore := h.committed
    unfold liveCommitted at hbefore ⊢
    rw [World.step_history, List.any_cons, hbefore, Bool.or_false]
    simp [Entry.commits, hid, hstatus]
  journal := by
    have hbefore := h.journal
    simp only [World.step_data, Op.apply, hid]
    cases fault with
    | true => simpa using hbefore
    | false =>
        cases hstem : safeStem J with
        | false => simpa using hbefore
        | true =>
            simp [Data.journal, ← hid, hstatus]
  job := by
    unfold Data.status Data.job
    rw [World.step_data, jobs_apply rfl]
    exact h.job
  git := by
    rw [← h.git]
    exact gitUnavailable_congr fun r => git_isSome_apply r
  once := h.once
  reached := h.reached

/-- Performing the next effect. -/
theorem Live.perform {k : Nat} {fault : Bool}
    (h : Live E V j J accepted (some k) w) :
    Live E V j J accepted (some (k + 1))
      (w.step E 0 fault (.mark (.performs J k))).1 where
  committed := by
    rw [← h.committed]
    simp [liveCommitted, Entry.commits]
  journal := h.journal
  job := h.job
  git := h.git
  once := by
    have hmarks : effectMarks J (w.step E 0 fault (.mark (.performs J k))).1.history
        = .performs J k :: effectMarks J w.history := by
      simp [effectMarks, Mark.about]
    unfold OnceEach
    rw [hmarks]
    refine List.Pairwise.cons (fun m hm i hi => ?_) h.once
    obtain rfl : k = i := by cases hi; rfl
    obtain ⟨i, hik, rfl⟩ := h.reached k rfl m hm
    constructor
    · intro heq
      cases heq
      omega
    · intro heq
      cases heq
  reached n hn m hm := by
    cases hn
    have hmarks : effectMarks J (w.step E 0 fault (.mark (.performs J k))).1.history
        = .performs J k :: effectMarks J w.history := by
      simp [effectMarks, Mark.about]
    rw [hmarks] at hm
    rcases List.mem_cons.mp hm with rfl | hm
    · exact ⟨k, by omega, rfl⟩
    · obtain ⟨i, hi, rfl⟩ := h.reached k rfl m hm
      exact ⟨i, by omega, rfl⟩

/-- Compensating an effect: from then on none is performed. -/
theorem Live.compensate {k : Nat} {fault : Bool}
    (h : Live E V j J accepted phase w) :
    Live E V j J accepted none
      (w.step E 0 fault (.mark (.compensates J k))).1 where
  committed := by
    rw [← h.committed]
    simp [liveCommitted, Entry.commits]
  journal := h.journal
  job := h.job
  git := h.git
  once := by
    have hmarks : effectMarks J
        (w.step E 0 fault (.mark (.compensates J k))).1.history
        = .compensates J k :: effectMarks J w.history := by
      simp [effectMarks, Mark.about]
    unfold OnceEach
    rw [hmarks]
    refine List.Pairwise.cons (fun m hm i hi => ?_) h.once
    cases hi
  reached _ hk := by cases hk

/-- A write of the journal with a status other than committed, and what
follows. -/
theorem writeRecord_live {Q : Except Raised α → World → Prop}
    {f : Except DomainError Unit → Proc α} {r : TransactionJournalRecord}
    (h : Live E V j J false phase w) (hid : r.journalId = J)
    (hstatus : r.status ≠ .committed)
    (hf : ∀ answer v, Live E V j J false phase v →
      SafeLive E V.project j J Q (f answer) v) :
    SafeLive E V.project j J Q (writeRecord V.project r >>= f) w := by
  refine Safe.bind (live_step h fun v fault hv _ => ?_)
  have hwritten := hv.writeJournal (E := E) (r := r) fault hid hstatus
  refine ⟨fun _ => hwritten.once, ?_⟩
  split
  · exact hf _ _ hwritten
  · exact live_uses (f := fun answer : Except DomainError Unit => .ret answer)
      (uses_perform (o := .syncJournal V.project r) rfl) (fun _ => trivial)
      hwritten fun answer v hv => hf answer v hv

/-- The write that commits the journal, and what follows. -/
theorem commitRecord_live {Q : Except Raised α → World → Prop}
    {f : Except DomainError Unit → Proc α} {r : TransactionJournalRecord}
    (h : Live E V j J false phase w) (hid : r.journalId = J)
    (hstatus : r.status = .committed)
    (hrejected : ∀ error v, Live E V j J false phase v →
      SafeLive E V.project j J Q (f (.error error)) v)
    (haccepted : ∀ v, Live E V j J true phase v →
      SafeLive E V.project j J Q (f (.ok ())) v) :
    SafeLive E V.project j J Q (writeRecord V.project r >>= f) w := by
  refine Safe.bind (live_step h fun v fault hv _ => ?_)
  have hwritten := hv.commitJournal (E := E) (r := r) fault hid hstatus
  refine ⟨fun _ => hwritten.once, ?_⟩
  split
  next error hwrite =>
    rcases of_writeJournal_eq_error hwrite with rfl | hstem
    · exact hrejected _ _ hwritten
    · rw [hid] at hstem
      rw [hstem, Bool.and_false] at hwritten
      exact hrejected _ _ hwritten
  next hwrite =>
    obtain ⟨hfault, hstem⟩ := writeJournal_eq_ok.mp hwrite
    rw [hid] at hstem
    rw [hstem, hfault] at hwritten
    rw [hfault]
    refine live_step (f := .ret) hwritten fun v fault hv hadm => ?_
    obtain rfl : fault = false := hadm rfl
    have hbeside := beside_of_leaves (E := E) (w := v) (i := 0) (j := j) (J := J)
      (p := V.project) (o := .syncJournal V.project r) false rfl
    exact ⟨hbeside.onceEach, haccepted _ (hv.beside hbeside)⟩

theorem Op.leaves_of_isEffect {p : ProjectId} {o : Op} (ho : o.isEffect = true) :
    o.leaves p j J = true := by
  cases o <;> first | rfl | cases ho

/-- The compensation leaves the journal uncommitted. -/
theorem compensate_live (R : FileTransactionRuntime)
    (hcomp : ∀ f, R.compensateEffect = some f →
      ∀ e, Uses (fun o => o.isEffect = true) (f e))
    (applied : List (Nat × Effect)) (h : Live E V j J false phase w) :
    SafeLive E V.project j J
      (fun out v => out = .ok () ∧ ∃ phase, Live E V j J false phase v)
      (R.compensate J applied) w := by
  induction applied generalizing phase w with
  | nil => exact ⟨rfl, phase, h⟩
  | cons ke rest ih =>
      obtain ⟨k, e⟩ := ke
      unfold FileTransactionRuntime.compensate
      split
      · exact ⟨rfl, phase, h⟩
      next g hg =>
        refine live_step h fun v fault hv _ => ⟨fun _ => hv.compensate.once, ?_⟩
        refine live_uses ?_ ?_ hv.compensate fun _ v hv => ih hv
        · exact Uses.tryCatch ((hcomp g hg e).mono
            fun _ => Op.leaves_of_isEffect) fun _ => trivial
        · refine Prog.Returns.tryCatch fun _ => ?_
          trivial

/-- What a transaction leaves: it answers that it accepted exactly when the
journal is committed. -/
def Answered (E : Env) (V : CompletionService) (j : JobId) (J : JournalId)
    (out : Except Raised TransactionApplyResult) (w : World) : Prop :=
  ∃ result phase, out = .ok result ∧ Live E V j J result.accepted phase w

section Runtime

variable {R : FileTransactionRuntime} (hproject : R.project = V.project)
  (hcomp : ∀ f, R.compensateEffect = some f →
    ∀ e, Uses (fun o => o.isEffect = true) (f e))
  {record : TransactionJournalRecord} (hid : record.journalId = J)

include hproject hcomp hid in
/-- Giving up leaves the journal uncommitted and answers a rejection. -/
theorem abort_live (applied : List (Nat × Effect)) (error : DomainError)
    (h : Live E V j J false phase w) :
    SafeLive E V.project j J (Answered E V j J) (R.abort record applied error)
      w := by
  subst hid
  unfold FileTransactionRuntime.abort FileTransactionRuntime.settle
  rw [hproject]
  refine writeRecord_live (r := { record with status := .failed, error := some error })
    h rfl (by intro hstatus; cases hstatus) fun _ v hfailed => ?_
  refine Safe.bind (Safe.mono (compensate_live R hcomp applied hfailed) ?_)
  rintro _ v ⟨rfl, phase, hv⟩
  exact ⟨_, phase, rfl, hv⟩

/-- Performing the effects in order. -/
theorem applyEffects_live
    (happly : ∀ e, Uses (fun o => o.isEffect = true) (R.applyEffect e))
    (k : Nat) (effects : List Effect) (applied : List (Nat × Effect))
    (h : Live E V j J false (some k) w) :
    SafeLive E V.project j J
      (fun out v => ∃ result phase, out = .ok result ∧ Live E V j J false phase v)
      (R.applyEffects J k effects applied) w := by
  induction effects generalizing k applied w with
  | nil => exact ⟨_, _, rfl, h⟩
  | cons e rest ih =>
      unfold FileTransactionRuntime.applyEffects
      refine live_step h fun v fault hv _ => ⟨fun _ => hv.perform.once, ?_⟩
      refine live_uses ?_ ?_ hv.perform fun result v hv => ?_
      · refine Uses.tryCatch (Uses.bind ?_ fun _ => trivial) fun _ => trivial
        exact (happly e).mono fun _ => Op.leaves_of_isEffect
      · refine Prog.Returns.tryCatch fun _ => ?_
        trivial
      · split
        · exact ⟨_, _, rfl, hv⟩
        · split
          · exact live_leaves rfl hv fun v _ hv _ => ih _ _ hv
          · exact ⟨_, _, rfl, hv⟩

include hproject hcomp hid in
/-- The transaction of the acceptance. -/
theorem apply_live
    (happly : ∀ e, Uses (fun o => o.isEffect = true) (R.applyEffect e))
    (hvalid : ∀ v, R.validateFinalState = some v →
      Uses (fun o => o.isEffect = true) v)
    (hprepared : record.status = .prepared)
    (h : Live E V j J false (some 0) w) :
    SafeLive E V.project j J (Answered E V j J) (R.apply record) w := by
  have habort : ∀ {w phase} (applied : List (Nat × Effect)) (error : DomainError),
      Live E V j J false phase w →
      SafeLive E V.project j J (Answered E V j J) (R.abort record applied error) w :=
    fun applied error h => abort_live hproject hcomp hid applied error h
  subst hid
  unfold FileTransactionRuntime.apply
  rw [hproject]
  refine writeRecord_live h rfl
    (by rw [hprepared]; intro hstatus; cases hstatus) fun _ v hbegun => ?_
  split
  next => exact ⟨_, _, rfl, hbegun⟩
  next =>
    refine Safe.bind (Safe.mono (applyEffects_live happly 0 _ [] hbegun) ?_)
    rintro _ v ⟨⟨applied, failure⟩, phase, rfl, hv⟩
    cases failure with
    | some error => exact habort applied error hv
    | none =>
      refine live_uses ((validate_uses_of R hvalid).mono
        fun _ => Op.leaves_of_isEffect) (validate_returns R) hv fun verdict v hv => ?_
      split
      next error => exact habort applied error hv
      next =>
        refine live_uses (appendMany_uses
          (S := fun o => o.leaves V.project j record.journalId = true)
          (fun _ => rfl) rfl _) (appendMany_returns _ _) hv fun appended v hv => ?_
        split
        next error => exact habort applied error hv
        next =>
          unfold FileTransactionRuntime.settle
          rw [hproject]
          refine commitRecord_live (r := { record with status := .committed, error := none })
            hv rfl rfl (fun error v hv => ?_) fun v hv => ?_
          · exact ⟨_, _, rfl, hv⟩
          · exact ⟨_, _, rfl, hv⟩

end Runtime

/-- Journal and job show what the acceptance reports. -/
def Reports (V : CompletionService) (j : JobId) (J : JournalId)
    (out : Except Raised CompletionResult) (w : World) : Prop :=
  ∀ result, out = .ok result →
    liveCommitted V.project J w.history = result.accepted ∧
      ((w.data.journal V.project J).map (·.status) = some .committed ↔
        result.accepted = true) ∧
      (w.data.status V.project j = some .accepted ↔ result.accepted = true)

theorem Reports.beside {out : Except Raised CompletionResult}
    (h : Reports V j J out w) (hv : Beside V.project j J w v) :
    Reports V j J out v := by
  intro result hresult
  obtain ⟨hcommitted, hjournal, hstatus⟩ := h result hresult
  refine ⟨hv.committed.trans hcommitted, by rw [hv.journal, hjournal], ?_⟩
  rcases hv.status with hsame | ⟨hlive, hset⟩
  · rw [hsame]
    exact hstatus
  · exact iff_of_true hset (hcommitted.symm.trans hlive)

/-- The closing status write stores what is reported. -/
theorem Live.reports {site : WriteSite} {basis : Option ExecutionJobStatus}
    {t : ExecutionJobStatus} {patch : MetadataPatch} (result : CompletionResult)
    (h : Live E V j J result.accepted phase w) (hfrozen : patch.frozen = [])
    (ht : t = .accepted ↔ result.accepted = true) :
    Reports V j J (.ok result)
      (w.step E 0 false (.updateStatus V.project site basis j t patch false)).1 := by
  obtain ⟨s, hs⟩ := Option.isSome_iff_exists.mp h.job
  have hstatus := @status_updateStatus E w.data V.project site basis j t patch
    false s hs hfrozen
  intro result' hresult
  cases hresult
  refine ⟨?_, ?_, ?_⟩
  · rw [← h.committed]
    simp [liveCommitted, Entry.commits]
  · rw [World.step_data, journal_apply (by intro r hr; cases hr)]
    exact h.journal
  · rw [World.step_data, hstatus, Option.some.injEq]
    exact ht

/-- The end of the acceptance. -/
theorem conclude_live {call : SubmitCall} {job : ExecutionJob}
    {sid : SubmissionId} (hj : job.jobId = j) (transaction : TransactionApplyResult)
    (h : Live E V j J transaction.accepted phase w) :
    SafeLive E V.project j J (Reports V j J)
      (conclude E V call job sid transaction) w := by
  subst hj
  unfold conclude
  split
  next haccepted =>
    refine live_leaves rfl h fun v fault hv hbefore => ?_
    split
    next hraised =>
      exact absurd (hbefore.git.symm.trans hraised) Bool.false_ne_true
    next =>
      refine live_step hv fun v fault hv hadm => ⟨id, ?_⟩
      obtain rfl : fault = false := hadm rfl
      rw [haccepted] at hv
      exact hv.reports { accepted := true } rfl (by decide)
  next hrejected =>
    refine live_leaves rfl h fun v fault hv _ => ?_
    refine live_step hv fun v fault hv hadm => ⟨id, ?_⟩
    obtain rfl : fault = false := hadm rfl
    rw [Bool.not_eq_true _ |>.mp hrejected] at hv
    exact hv.reports { accepted := false, errors := _ } rfl
      (iff_of_false (by decide) Bool.false_ne_true)

/-- The acceptance keeps its side of the contract and reports what journal
and job show. -/
theorem accept_live {call : SubmitCall} {job : ExecutionJob} {sid : SubmissionId}
    {plan : AcceptancePlan} (hj : job.jobId = j)
    (hJ : acceptanceJournalId job sid = J)
    (h : Live E V j J false (some 0) w) :
    SafeLive E V.project j J (Reports V j J) (accept E V call job sid plan) w := by
  refine Safe.bind ?_
  refine live_leaves rfl h fun v fault hv _ => ?_
  refine Safe.mono (apply_live rfl (acceptanceRuntime_compensates E V job plan) hJ
    (applyEffect_uses E V) (acceptanceRuntime_validates E V job plan) rfl hv) ?_
  rintro _ v ⟨transaction, phase, rfl, hv⟩
  exact conclude_live hj transaction hv

end Acceptance

-- ============================================================= the claim

/-- A live acceptance and recoveries by other processes along the runs of a
condition: no effect of the acceptance is performed after it has been
performed or compensated, the event log holds no id twice, and once the
acceptance has ended, its journal is committed and its job accepted exactly
when that is what it reports. -/
def KeepsApart (E : Env)
    (A : ProjectId → JobId → JournalId → Par.Admission Pid Op World) : Prop :=
  ∀ (V : CompletionService) (call : SubmitCall) (job : ExecutionJob)
    (sid : SubmissionId) (plan : AcceptancePlan)
    (c c' : Config Pid Op Op.Res Raised (Option CompletionResult) World),
    c.procs 0 = some (do return some (← accept E V call job sid plan)) →
    (∀ i q, i ≠ 0 → c.procs i = some q → ∃ V' : CompletionService,
      q = (do let _ ← recoverCompletionTransactions E V'; return none)) →
    c.world.history = [] →
    (c.world.data.status V.project job.jobId).isSome →
    (∀ r, c.world.data.journal V.project (acceptanceJournalId job sid) = some r →
      r.status ≠ .committed) →
    ((c.world.data.projects V.project).events.map (·.eventId)).Nodup →
    gitUnavailable E V c.world.data = false →
    Run (machine E) (A V.project job.jobId (acceptanceJournalId job sid)) c c' →
    OnceEach (acceptanceJournalId job sid) c'.world.history ∧
      ((c'.world.data.projects V.project).events.map (·.eventId)).Nodup ∧
      ∀ result, c'.procs 0 = some (.ret (some result)) →
        ((c'.world.data.journal V.project (acceptanceJournalId job sid)).map
            (·.status) = some .committed ↔ result.accepted = true) ∧
        (c'.world.data.status V.project job.jobId = some .accepted ↔
          result.accepted = true)

/-- Where no recovery lists the journals while the acceptance is under way,
the two keep apart. -/
theorem keepsApart_of_apartFromLive (E : Env) : KeepsApart E apartFromLive := by
  intro V call job sid plan c c' hlive hothers hstart hjob hjournal hevents hgit hrun
  have hbegin : Live E V job.jobId (acceptanceJournalId job sid) false (some 0)
      c.world := by
    refine ⟨by rw [hstart]; rfl, ?_, hjob, hgit, ?_, ?_⟩
    · simp only [Bool.false_eq_true, iff_false, Option.map_eq_some_iff, not_exists,
        not_and]
      exact hjournal
    · rw [hstart]
      exact List.Pairwise.nil
    · rw [hstart]
      intro k _ m hm
      cases hm
  let Q : Pid → Except Raised (Option CompletionResult) → World → Prop :=
    fun i out w => i = 0 → ∀ result, out = .ok (some result) →
      Reports V job.jobId (acceptanceJournalId job sid) (.ok result) w
  have hsafe : Par.AllSafe (machine E)
      (apartFromLive V.project job.jobId (acceptanceJournalId job sid))
      (liveContract V.project job.jobId (acceptanceJournalId job sid)) Q c := by
    intro i q hq
    by_cases hi : i = 0
    · subst hi
      obtain rfl := Option.some.inj (hlive.symm.trans hq)
      refine Safe.bind (Safe.mono (accept_live rfl rfl hbegin) ?_)
      rintro (e | answer) v hv
      · intro _ result hresult
        cases hresult
      · intro _ result hresult
        cases hresult
        exact hv
    · obtain ⟨V', rfl⟩ := hothers i q hi hq
      refine Safe.bind (recover_safe hi fun out v => ?_)
      cases out with
      | ok _ => exact fun h => absurd h hi
      | error _ => exact fun h => absurd h hi
  have hQ : ∀ i out u v, Q i out u →
      (liveContract V.project job.jobId (acceptanceJournalId job sid)).rely i u v →
      Q i out v := by
    intro i out u v hu hv hi result hresult
    subst hi
    exact (hu rfl result hresult).beside hv
  refine ⟨?_, ?_, ?_⟩
  · refine hsafe.invariant liveContract_fits hQ ?_ hrun
      (I := fun w => OnceEach (acceptanceJournalId job sid) w.history) hbegin.once
    rintro w v (⟨i, hguar⟩ | ⟨i, hi, rfl⟩) hw
    · unfold liveContract at hguar
      dsimp only at hguar
      split at hguar
      · exact hguar.2 hw
      · exact hguar.onceEach hw
    · exact hw
  · exact Par.Run.invariant (I := fun w =>
        ((w.data.projects V.project).events.map (·.eventId)).Nodup)
      (fun _ _ _ _ hw => events_nodup_apply hw) (fun _ _ hw => hw) hrun hevents
  · intro result hend
    have hreports := (hsafe.run liveContract_fits hQ hrun).2 0 _ hend
    exact (hreports rfl result rfl result rfl).2

/-- A plan that only moves the small project's task. -/
def smallPlan : AcceptancePlan where
  candidate := ⟨"c", "a", [], []⟩
  outputRelative := ["output"]
  artifactPaths := []
  promotedArtifacts := []
  promotedFiles := []
  commitEffect := none
  derived := []
  fromState := "Todo"
  effectiveToState := "Done"

/-- A recovery that lists the journals of a live acceptance performs its
effects again. -/
theorem recovery_overlaps_acceptance :
    ¬ KeepsApart smallEnv fun _ _ _ => Par.Admission.any := by
  intro h
  let c : Config Pid Op Op.Res Raised (Option CompletionResult) World :=
    ⟨{ data := smallData .completionSubmitted }, fun
      | 0 => some (do return some (← accept smallEnv ⟨"p", none, 2⟩ (smallCall "a")
          (smallJob .completionSubmitted) "a" smallPlan))
      | 1 => some (do
          let _ ← recoverCompletionTransactions smallEnv ⟨"p", none, 2⟩
          return none)
      | _ => none⟩
  obtain ⟨c', hrun, hP⟩ := Par.exists_run_of_nexts (M := machine smallEnv) (c := c)
    -- the acceptance prepares its journal, recovery lists it and comes to its
    -- effect, then both perform it
    (l := List.replicate 3 (.step 0 false) ++ List.replicate 6 (.step 1 false) ++
      [.step 0 false])
    (P := fun c' => decide (effectMarks "j-a" c'.world.history
      = [.performs "j-a" 0, .performs "j-a" 0])) (by decide +kernel)
  have honce := (h ⟨"p", none, 2⟩ (smallCall "a") (smallJob .completionSubmitted)
    "a" smallPlan c c' rfl (by
      intro i q hi hq
      match i with
      | 0 => exact absurd rfl hi
      | 1 => cases hq; exact ⟨_, rfl⟩
      | n + 2 => cases hq) rfl (by decide +kernel) (by
        intro r hr
        cases hr) (by decide) rfl hrun).1
  have hmarks := of_decide_eq_true hP
  have hid : acceptanceJournalId (smallJob .completionSubmitted) "a" = "j-a" := by
    decide +kernel
  rw [hid] at honce
  unfold OnceEach at honce
  rw [hmarks] at honce
  exact (List.pairwise_cons.mp honce).1 _ List.mem_cons_self 0 rfl |>.1 rfl

end OpenTulid
