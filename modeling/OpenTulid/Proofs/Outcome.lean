/-
The outcome law of a transaction: what the journal on disk says, what was
performed and compensated, and what can be read in the event log, for every
way the run of `apply` can fail.

# The law

`OutcomeLaw` relates the three at the end of a run: `apply` answers that it
accepted exactly when the journal on disk is committed; a committed journal
means every effect applied once in order and every event readable; a failed
journal means exactly the effects that reported success compensated, in
reverse order, and no event readable.

# Where it fails

Two failures break it. The folder is flushed after the committed record has
taken its place, so a flush that fails leaves a commit that is reported as a
failure (`flushFails`). And a batch of events is not written in one step, so
an append that fails may have written lines of a journal that is then marked
failed (`linesOfFailed`). `law_iff` says that nothing else does.
-/
import OpenTulid.Proofs.Footprint
import OpenTulid.Proofs.Frame

namespace OpenTulid

open Prog (Uses)
open Par (Run Config Safe)

-- ======================================================== the traces

/-- What a selection of the marks of a history gives, in time. -/
def trace (select : Mark → Option Nat) (history : List Entry) : List Nat :=
  history.reverse.filterMap fun e => match e.op with
    | .mark m => select m
    | _ => none

/-- The positions of a journal's effects that were performed, in time. -/
def performed (J : JournalId) : List Entry → List Nat :=
  trace fun
    | .performs j k => if j = J then some k else none
    | _ => none

/-- The positions of its effects that reported success, in time. -/
def succeeded (J : JournalId) : List Entry → List Nat :=
  trace fun
    | .succeeds j k => if j = J then some k else none
    | _ => none

/-- The positions of its effects that were compensated, in time. -/
def compensated (J : JournalId) : List Entry → List Nat :=
  trace fun
    | .compensates j k => if j = J then some k else none
    | _ => none

theorem trace_cons_mark (select : Mark → Option Nat) (i : Pid) (fault : Bool)
    (m : Mark) (d : Data) (history : List Entry) :
    trace select (⟨i, fault, .mark m, d⟩ :: history)
      = trace select history ++ (select m).toList := by
  unfold trace
  rw [List.reverse_cons, List.filterMap_append]
  cases hm : select m <;> simp [hm]

theorem trace_cons_other (select : Mark → Option Nat) {e : Entry}
    (h : ∀ m, e.op ≠ .mark m) (history : List Entry) :
    trace select (e :: history) = trace select history := by
  unfold trace
  rw [List.reverse_cons, List.filterMap_append]
  obtain ⟨i, fault, o, d⟩ := e
  cases o with
  | mark m => exact absurd rfl (h m)
  | _ => simp

/-- The ids that can be read in a project's event log. -/
def Data.eventIds (d : Data) (p : ProjectId) : List EventId :=
  (d.projects p).events.map (·.eventId)

/-- The status of a journal on disk. -/
def Data.journalStatus (d : Data) (p : ProjectId) (J : JournalId) :
    Option JournalStatus :=
  (d.journal p J).map (·.status)

-- ============================================================ the law

/-- The outcome law of a transaction that has answered `accepted`. -/
structure OutcomeLaw (R : FileTransactionRuntime)
    (record : TransactionJournalRecord) (accepted : Bool) (w : World) : Prop where
  answer : accepted = true ↔
    w.data.journalStatus R.project record.journalId = some .committed
  committed : w.data.journalStatus R.project record.journalId = some .committed →
    performed record.journalId w.history = List.range record.effects.length ∧
      succeeded record.journalId w.history = List.range record.effects.length ∧
      ∀ e ∈ record.events, e.eventId ∈ w.data.eventIds R.project
  failed : w.data.journalStatus R.project record.journalId = some .failed →
    compensated record.journalId w.history
        = (succeeded record.journalId w.history).reverse ∧
      ∀ e ∈ record.events, e.eventId ∉ w.data.eventIds R.project

/-- The folder could not be flushed after a committed record had taken its
place. -/
def flushFails (history : List Entry) : Bool :=
  history.any fun e => match e.op with
    | .syncJournal _ r => r.status = .committed && e.fault
    | _ => false

/-- A line of the events was written. -/
def lineWritten (history : List Entry) : Bool :=
  history.any fun e => match e.op with
    | .appendEvent _ _ => !e.fault
    | _ => false

/-- A failure was recorded in a journal. -/
def failureRecorded (history : List Entry) : Bool :=
  history.any fun e => match e.op with
    | .writeJournal _ r => r.status = .failed && !e.fault && safeStem r.journalId
    | _ => false

/-- Lines of the events stand in the log of a transaction recorded as
failed. -/
def linesOfFailed (history : List Entry) : Bool :=
  lineWritten history && failureRecorded history

/-- The operations a callback may come to: anything but the journals, the
event logs and the marks. -/
def Op.isCallback : Op → Bool
  | .writeJournal .. | .syncJournal .. | .appendEvent .. | .appendHuman _
  | .mark _ => false
  | _ => true

/-- One process runs, and only it may crash. -/
def onlyZero : Par.Admission Pid Op World where
  step _ _ _ _ := True
  crash i _ := i = 0

-- ===================================================== where a run stands

/-- Where a transaction stands: the status of its journal, what its effects
have come to, whether a line of its events is written or all can be read,
and whether a flush has failed. -/
structure Stands (R : FileTransactionRuntime) (record : TransactionJournalRecord)
    (s : Option JournalStatus) (ps ss cs : List Nat)
    (ln al fl : Bool) (w : World) : Prop where
  status : w.data.journalStatus R.project record.journalId = s
  performs : performed record.journalId w.history = ps
  succeeds : succeeded record.journalId w.history = ss
  compensates : compensated record.journalId w.history = cs
  line : lineWritten w.history = ln
  flush : flushFails w.history = fl
  recorded : failureRecorded w.history = true ↔ s = some .failed
  absent : ln = false →
    ∀ e ∈ record.events, e.eventId ∉ w.data.eventIds R.project
  present : ln = true →
    ∃ e ∈ record.events, e.eventId ∈ w.data.eventIds R.project
  complete : al = true →
    ∀ e ∈ record.events, e.eventId ∈ w.data.eventIds R.project

section Steps

variable {E : Env} {R : FileTransactionRuntime} {record : TransactionJournalRecord}
  {s : Option JournalStatus} {ps ss cs : List Nat} {ln al fl : Bool} {w : World}
  {α β : Type}

/-- An operation that is not a mark, a line, a flush or a record. -/
theorem Stands.callback {fault : Bool} {o : Op} (ho : o.isCallback = true)
    (h : Stands R record s ps ss cs ln al fl w) :
    Stands R record s ps ss cs ln al fl (w.step E 0 fault o).1 := by
  have hmark : ∀ m, o ≠ .mark m := by
    rintro m rfl
    cases ho
  have hevents : (w.step E 0 fault o).1.data.eventIds R.project
      = w.data.eventIds R.project := by
    unfold Data.eventIds
    rw [World.step_data, events_apply (by cases o <;> first | rfl | cases ho)]
  refine ⟨?_, ?_, ?_, ?_, ?_, ?_, ?_, ?_, ?_, ?_⟩
  · rw [← h.status]
    unfold Data.journalStatus Data.journal
    rw [World.step_data, journals_apply (by cases o <;> first | rfl | cases ho)]
  · rw [← h.performs]
    exact trace_cons_other _ hmark _
  · rw [← h.succeeds]
    exact trace_cons_other _ hmark _
  · rw [← h.compensates]
    exact trace_cons_other _ hmark _
  · rw [← h.line]
    cases o <;> first | rfl | cases ho
  · rw [← h.flush]
    cases o <;> first | rfl | cases ho
  · rw [← h.recorded]
    cases o <;> first | rfl | cases ho
  · rw [hevents]
    exact h.absent
  · rw [hevents]
    exact h.present
  · rw [hevents]
    exact h.complete

/-- A mark adds to the traces. -/
theorem Stands.mark (fault : Bool) (m : Mark)
    (h : Stands R record s ps ss cs ln al fl w) :
    Stands R record s
      (ps ++ (match m with
        | .performs j k => if j = record.journalId then some k else none
        | _ => none : Option Nat).toList)
      (ss ++ (match m with
        | .succeeds j k => if j = record.journalId then some k else none
        | _ => none : Option Nat).toList)
      (cs ++ (match m with
        | .compensates j k => if j = record.journalId then some k else none
        | _ => none : Option Nat).toList)
      ln al fl (w.step E 0 fault (.mark m)).1 where
  status := h.status
  performs := by
    rw [← h.performs]
    exact trace_cons_mark _ _ _ _ _ _
  succeeds := by
    rw [← h.succeeds]
    exact trace_cons_mark _ _ _ _ _ _
  compensates := by
    rw [← h.compensates]
    exact trace_cons_mark _ _ _ _ _ _
  line := h.line
  flush := h.flush
  recorded := h.recorded
  absent := h.absent
  present := h.present
  complete := h.complete

/-- Safety of the transaction on its own. -/
abbrev SafeOnly (E : Env) (Q : Except Raised α → World → Prop) (prog : Proc α)
    (w : World) : Prop :=
  Safe (machine E) onlyZero (.alone 0) 0 Q prog w

/-- An operation of the transaction, and what follows. -/
theorem only_step {Q : Except Raised α → World → Prop} {o : Op}
    {f : o.Res → Proc α}
    (h : ∀ fault, SafeOnly E Q (f (o.apply E fault w.data).2)
      (w.step E 0 fault o).1) :
    SafeOnly E Q (perform o >>= f) w :=
  Par.Safe.perform_alone fun fault _ => h fault

/-- A callback, and what follows. -/
theorem only_callback {Q : Except Raised α → World → Prop} {prog : Proc β}
    {f : β → Proc α} (huses : Uses (fun o => o.isCallback = true) prog)
    (hreturns : prog.Returns) (h : Stands R record s ps ss cs ln al fl w)
    (hf : ∀ b w', Stands R record s ps ss cs ln al fl w' → SafeOnly E Q (f b) w') :
    SafeOnly E Q (prog >>= f) w := by
  have hprog : SafeOnly E (fun _ => Stands R record s ps ss cs ln al fl) prog w := by
    refine Safe.of_uses ?_ ?_ huses h
    · intro u v hu hv
      exact (hv rfl : v = u) ▸ hu
    · intro o v fault ho hv _
      exact ⟨rfl, hv.callback ho⟩
  refine Safe.bind (Safe.mono (hprog.returns hreturns) ?_)
  rintro _ w' ⟨b, rfl, h'⟩
  exact hf b w' h'

/-- A flush. -/
theorem Stands.sync {fault : Bool} {p : ProjectId} {r : TransactionJournalRecord}
    (h : Stands R record s ps ss cs ln al fl w) :
    Stands R record s ps ss cs ln al (r.status = .committed && fault || fl)
      (w.step E 0 fault (.syncJournal p r)).1 where
  status := h.status
  performs := by
    rw [← h.performs]
    exact trace_cons_other _ (by intro m hm; cases hm) _
  succeeds := by
    rw [← h.succeeds]
    exact trace_cons_other _ (by intro m hm; cases hm) _
  compensates := by
    rw [← h.compensates]
    exact trace_cons_other _ (by intro m hm; cases hm) _
  line := h.line
  flush := by
    rw [← h.flush]
    rfl
  recorded := h.recorded
  absent := h.absent
  present := h.present
  complete := h.complete

/-- A record that takes its place. -/
theorem Stands.write {r : TransactionJournalRecord} (hid : r.journalId = record.journalId)
    (hstem : safeStem r.journalId = true) (hs : s ≠ some .failed)
    (h : Stands R record s ps ss cs ln al fl w) :
    Stands R record (some r.status) ps ss cs ln al fl
      (w.step E 0 false (.writeJournal R.project r)).1 where
  status := by
    simp [Data.journalStatus, Data.journal, Op.apply, hstem, ← hid]
  performs := by
    rw [← h.performs]
    exact trace_cons_other _ (by intro m hm; cases hm) _
  succeeds := by
    rw [← h.succeeds]
    exact trace_cons_other _ (by intro m hm; cases hm) _
  compensates := by
    rw [← h.compensates]
    exact trace_cons_other _ (by intro m hm; cases hm) _
  line := h.line
  flush := h.flush
  recorded := by
    have hbefore : failureRecorded w.history = false := by
      rw [← Bool.not_eq_true]
      exact fun hrecorded => hs (h.recorded.mp hrecorded)
    unfold failureRecorded at hbefore ⊢
    rw [World.step_history, List.any_cons, hbefore]
    simp [hstem]
  absent := by
    intro hln
    have hevents := @events_apply E false (.writeJournal R.project r) w.data rfl
      R.project
    unfold Data.eventIds
    rw [World.step_data, hevents]
    exact h.absent hln
  present := by
    intro hln
    have hevents := @events_apply E false (.writeJournal R.project r) w.data rfl
      R.project
    unfold Data.eventIds
    rw [World.step_data, hevents]
    exact h.present hln
  complete := by
    intro hal
    have hevents := @events_apply E false (.writeJournal R.project r) w.data rfl
      R.project
    unfold Data.eventIds
    rw [World.step_data, hevents]
    exact h.complete hal

/-- A record that does not. -/
theorem Stands.writeFailed {fault : Bool} {r : TransactionJournalRecord}
    (hfailed : fault = true ∨ safeStem r.journalId = false)
    (h : Stands R record s ps ss cs ln al fl w) :
    Stands R record s ps ss cs ln al fl
      (w.step E 0 fault (.writeJournal R.project r)).1 := by
  have hdata : (w.step E 0 fault (.writeJournal R.project r)).1.data = w.data := by
    rcases hfailed with rfl | hstem
    · simp [Op.apply]
    · simp [Op.apply, hstem]
  refine ⟨?_, ?_, ?_, ?_, h.line, h.flush, ?_, ?_, ?_, ?_⟩
  · rw [hdata]
    exact h.status
  · rw [← h.performs]
    exact trace_cons_other _ (by intro m hm; cases hm) _
  · rw [← h.succeeds]
    exact trace_cons_other _ (by intro m hm; cases hm) _
  · rw [← h.compensates]
    exact trace_cons_other _ (by intro m hm; cases hm) _
  · rw [← h.recorded]
    unfold failureRecorded
    rw [World.step_history, List.any_cons]
    rcases hfailed with rfl | hstem
    · simp
    · simp [hstem]
  · rw [hdata]
    exact h.absent
  · rw [hdata]
    exact h.present
  · rw [hdata]
    exact h.complete

/-- A write of the journal, and what follows: either the old record stays, or
the new one is in place and the flush decides the answer. -/
theorem only_writeRecord {Q : Except Raised α → World → Prop}
    {f : Except DomainError Unit → Proc α} {r : TransactionJournalRecord}
    (h : Stands R record s ps ss cs ln al fl w)
    (hid : r.journalId = record.journalId) (hs : s ≠ some .failed)
    (hkept : ∀ e w', Stands R record s ps ss cs ln al fl w' →
      SafeOnly E Q (f (.error e)) w')
    (hplaced : ∀ answer w',
      Stands R record (some r.status) ps ss cs ln al
        (r.status = .committed && !answer.isOk || fl) w' →
      SafeOnly E Q (f answer) w') :
    SafeOnly E Q (writeRecord R.project r >>= f) w := by
  refine Safe.bind (only_step fun fault => ?_)
  split
  next e hwrite => exact hkept e _ (h.writeFailed (of_writeJournal_eq_error hwrite))
  next hwrite =>
    obtain ⟨hfault, hstem⟩ := writeJournal_eq_ok.mp hwrite
    have hwritten := h.write (E := E) hid hstem hs
    rw [← hfault] at hwritten
    refine only_step (f := .ret) fun fault => ?_
    cases fault with
    | true => exact hplaced (.error _) _ (hwritten.sync (E := E))
    | false => exact hplaced (.ok ()) _ (hwritten.sync (E := E))

/-- A line that is written can be read, and what could be read still can. -/
theorem eventIds_append (E : Env) {d : Data} {p : ProjectId} {e : EventEnvelope} :
    e.eventId ∈ ((Op.appendEvent p e).apply E false d).1.eventIds p ∧
      ∀ id ∈ d.eventIds p,
        id ∈ ((Op.appendEvent p e).apply E false d).1.eventIds p := by
  simp only [Data.eventIds, Op.apply, Bool.false_eq_true, if_false,
    Data.withProject_projects_self, EventStore.append]
  split
  next hknown => exact ⟨hknown, fun _ h => h⟩
  next => simp +contextual

/-- A line of the transaction's events. -/
theorem Stands.line_written {e : EventEnvelope} (he : e ∈ record.events)
    (h : Stands R record s ps ss cs ln al fl w) :
    Stands R record s ps ss cs true al fl
      (w.step E 0 false (.appendEvent R.project e)).1 where
  status := by
    rw [← h.status]
    unfold Data.journalStatus Data.journal
    rw [World.step_data, journals_apply rfl]
  performs := by
    rw [← h.performs]
    exact trace_cons_other _ (by intro m hm; cases hm) _
  succeeds := by
    rw [← h.succeeds]
    exact trace_cons_other _ (by intro m hm; cases hm) _
  compensates := by
    rw [← h.compensates]
    exact trace_cons_other _ (by intro m hm; cases hm) _
  line := rfl
  flush := h.flush
  recorded := h.recorded
  absent hln := by cases hln
  present _ := ⟨e, he, (eventIds_append E).1⟩
  complete hal e' he' := (eventIds_append E).2 _ (h.complete hal e' he')

/-- A line that fails. -/
theorem Stands.line_failed {e : EventEnvelope}
    (h : Stands R record s ps ss cs ln al fl w) :
    Stands R record s ps ss cs ln al fl
      (w.step E 0 true (.appendEvent R.project e)).1 where
  status := h.status
  performs := by
    rw [← h.performs]
    exact trace_cons_other _ (by intro m hm; cases hm) _
  succeeds := by
    rw [← h.succeeds]
    exact trace_cons_other _ (by intro m hm; cases hm) _
  compensates := by
    rw [← h.compensates]
    exact trace_cons_other _ (by intro m hm; cases hm) _
  line := h.line
  flush := h.flush
  recorded := h.recorded
  absent := h.absent
  present := h.present
  complete := h.complete

/-- The readable lines of the events. -/
theorem Stands.human {fault : Bool} {p : ProjectId}
    (h : Stands R record s ps ss cs ln al fl w) :
    Stands R record s ps ss cs ln al fl
      (w.step E 0 fault (.appendHuman p)).1 where
  status := h.status
  performs := by
    rw [← h.performs]
    exact trace_cons_other _ (by intro m hm; cases hm) _
  succeeds := by
    rw [← h.succeeds]
    exact trace_cons_other _ (by intro m hm; cases hm) _
  compensates := by
    rw [← h.compensates]
    exact trace_cons_other _ (by intro m hm; cases hm) _
  line := h.line
  flush := h.flush
  recorded := h.recorded
  absent := h.absent
  present := h.present
  complete := h.complete

/-- What the append of the batch leaves: some lines may be written where it
fails; without an error all events can be read. -/
def Appended (R : FileTransactionRuntime) (record : TransactionJournalRecord)
    (s : Option JournalStatus) (ps ss cs : List Nat) (fl : Bool)
    (out : Except Raised (Except DomainError Unit)) (w : World) : Prop :=
  ∃ answer ln, out = .ok answer ∧
    Stands R record s ps ss cs ln answer.isOk fl w

theorem Stands.completed
    (hread : ∀ e ∈ record.events, e.eventId ∈ w.data.eventIds R.project)
    (h : Stands R record s ps ss cs ln al fl w) :
    Stands R record s ps ss cs ln true fl w :=
  { h with complete := fun _ => hread }

theorem Stands.incomplete (h : Stands R record s ps ss cs ln al fl w) :
    Stands R record s ps ss cs ln false fl w :=
  { h with complete := fun hal => by cases hal }

theorem only_appendLines (events : List EventEnvelope)
    (hsub : ∀ e ∈ events, e ∈ record.events)
    (hread : ∀ e ∈ record.events, e ∈ events ∨
      e.eventId ∈ w.data.eventIds R.project)
    (h : Stands R record s ps ss cs ln al fl w) :
    SafeOnly E (Appended R record s ps ss cs fl) (appendLines R.project events)
      w := by
  induction events generalizing ln w with
  | nil =>
      refine ⟨_, ln, rfl, h.completed fun e he => ?_⟩
      rcases hread e he with hmem | hmem
      · cases hmem
      · exact hmem
  | cons e rest ih =>
      refine only_step fun fault => ?_
      cases fault with
      | true => exact ⟨_, ln, rfl, h.line_failed.incomplete⟩
      | false =>
          refine ih (fun e' he' => hsub e' (List.mem_cons_of_mem _ he'))
            (fun e' he' => ?_) (h.line_written (hsub e List.mem_cons_self))
          rcases hread e' he' with hmem | hmem
          · rcases List.mem_cons.mp hmem with rfl | hmem
            · exact Or.inr (eventIds_append E).1
            · exact Or.inl hmem
          · exact Or.inr ((eventIds_append E).2 _ hmem)

theorem only_appendMany (h : Stands R record s ps ss cs ln al fl w) :
    SafeOnly E (Appended R record s ps ss cs fl)
      (appendMany R.project record.events) w := by
  refine Safe.bind (Safe.mono (only_appendLines record.events (fun _ he => he)
    (fun _ he => Or.inl he) h) ?_)
  rintro _ w' ⟨answer, ln, rfl, h'⟩
  cases answer with
  | error err => exact ⟨_, ln, rfl, h'⟩
  | ok _ =>
      refine only_step (f := .ret) fun fault => ?_
      cases fault with
      | true => exact ⟨_, ln, rfl, h'.human.incomplete⟩
      | false => exact ⟨_, ln, rfl, h'.human⟩

/-- The compensation of the effects that reported success, last first. -/
theorem only_compensate {g : Effect → Proc EffectResult}
    (hg : R.compensateEffect = some g)
    (huses : ∀ e, Uses (fun o => o.isCallback = true) (g e))
    (applied : List (Nat × Effect)) (h : Stands R record s ps ss cs ln al fl w) :
    SafeOnly E (fun out w' => out = .ok () ∧
        Stands R record s ps ss (cs ++ applied.map Prod.fst) ln al fl w')
      (R.compensate record.journalId applied) w := by
  induction applied generalizing cs w with
  | nil =>
      refine ⟨rfl, ?_⟩
      rw [List.map_nil, List.append_nil]
      exact h
  | cons ke rest ih =>
      obtain ⟨k, e⟩ := ke
      unfold FileTransactionRuntime.compensate
      rw [hg]
      refine only_step fun fault => ?_
      have hmarked := h.mark (E := E) fault
        (.compensates record.journalId k)
      simp only [Option.toList_none, List.append_nil, if_true,
        Option.toList_some] at hmarked
      refine only_callback (Uses.tryCatch (huses e) fun _ => trivial) ?_ hmarked
        fun _ w' h' => ?_
      · refine Prog.Returns.tryCatch fun _ => ?_
        trivial
      · refine Safe.mono (ih h') ?_
        rintro _ w'' ⟨rfl, h''⟩
        refine ⟨rfl, ?_⟩
        rw [List.append_assoc] at h''
        exact h''

/-- What the effects have come to: those applied, last first, are the ones
that reported success; without a failure that is all of them. -/
def Effected (R : FileTransactionRuntime) (record : TransactionJournalRecord)
    (s : Option JournalStatus) (ln al fl : Bool) (n : Nat)
    (out : Except Raised (List (Nat × Effect) × Option DomainError)) (w : World) :
    Prop :=
  ∃ applied failure ps ss, out = .ok (applied, failure) ∧
    Stands R record s ps ss [] ln al fl w ∧ ss = (applied.map Prod.fst).reverse ∧
    (failure = none → ps = List.range n ∧ ss = List.range n)

/-- The effects in order. -/
theorem only_applyEffects
    (huses : ∀ e, Uses (fun o => o.isCallback = true) (R.applyEffect e))
    (k : Nat) (effects : List Effect) (applied : List (Nat × Effect))
    (happlied : (applied.map Prod.fst).reverse = List.range k)
    (h : Stands R record s (List.range k) (List.range k) [] ln al fl w) :
    SafeOnly E (Effected R record s ln al fl (k + effects.length))
      (R.applyEffects record.journalId k effects applied) w := by
  induction effects generalizing k applied w with
  | nil => exact ⟨_, _, _, _, rfl, h, happlied.symm, fun _ => ⟨rfl, rfl⟩⟩
  | cons e rest ih =>
      refine only_step fun fault => ?_
      have hmarked := h.mark (E := E) fault
        (.performs record.journalId k)
      simp only [Option.toList_none, List.append_nil, if_true,
        Option.toList_some] at hmarked
      refine only_callback (Uses.tryCatch ((huses e).bind fun _ => trivial)
        fun _ => trivial) ?_ hmarked fun result w' h' => ?_
      · refine Prog.Returns.tryCatch fun _ => ?_
        trivial
      · split
        · exact ⟨_, _, _, _, rfl, h', happlied.symm, fun hnone => by cases hnone⟩
        · split
          · refine only_step fun fault => ?_
            have hnext := h'.mark (E := E) fault
              (.succeeds record.journalId k)
            simp only [Option.toList_none, List.append_nil, if_true,
              Option.toList_some] at hnext
            rw [← List.range_succ] at hnext
            have hrest := ih (k + 1) ((k, e) :: applied) (by
              rw [List.map_cons, List.reverse_cons, happlied, List.range_succ]) hnext
            rw [Nat.add_assoc, Nat.add_comm 1] at hrest
            exact hrest
          · exact ⟨_, _, _, _, rfl, h', happlied.symm, fun hnone => by cases hnone⟩

/-- The end of a run of `apply`: the law holds exactly where neither failure
has happened. -/
def Concluded (R : FileTransactionRuntime) (record : TransactionJournalRecord)
    (out : Except Raised TransactionApplyResult) (w : World) : Prop :=
  ∃ result, out = .ok result ∧
    (OutcomeLaw R record result.accepted w ↔
      flushFails w.history = false ∧ linesOfFailed w.history = false)

/-- A journal that is neither committed nor failed promises nothing. -/
theorem Stands.concluded_open {result : TransactionApplyResult}
    (h : Stands R record s ps ss cs ln al false w) (hcommitted : s ≠ some .committed)
    (hfailed : s ≠ some .failed) (hresult : result.accepted = false) :
    Concluded R record (.ok result) w := by
  refine ⟨result, rfl, iff_of_true ⟨?_, ?_, ?_⟩ ⟨h.flush, ?_⟩⟩
  · rw [hresult, h.status]
    exact iff_of_false Bool.false_ne_true hcommitted
  · rw [h.status]
    exact fun hs => absurd hs hcommitted
  · rw [h.status]
    exact fun hs => absurd hs hfailed
  · have hrecorded : failureRecorded w.history = false := by
      rw [← Bool.not_eq_true, h.recorded]
      exact hfailed
    rw [linesOfFailed, hrecorded, Bool.and_false]

/-- A failed journal whose effects are compensated keeps the law where no
line was written. -/
theorem Stands.concluded_failed {result : TransactionApplyResult}
    (h : Stands R record (some .failed) ps ss cs ln al false w)
    (hcompensated : cs = ss.reverse) (hresult : result.accepted = false) :
    Concluded R record (.ok result) w := by
  refine ⟨result, rfl, ?_⟩
  rw [linesOfFailed, h.recorded.mpr rfl, Bool.and_true, h.flush, h.line]
  constructor
  · intro hlaw
    refine ⟨rfl, ?_⟩
    rw [← Bool.not_eq_true]
    intro hline
    obtain ⟨e, he, hread⟩ := h.present hline
    exact (hlaw.failed h.status).2 e he hread
  · rintro ⟨-, hline⟩
    refine ⟨?_, ?_, fun _ => ⟨?_, h.absent hline⟩⟩
    · rw [hresult, h.status]
      exact iff_of_false Bool.false_ne_true (by decide)
    · rw [h.status]
      intro hs
      cases hs
    · rw [h.compensates, h.succeeds, hcompensated]

/-- A committed journal keeps the law where its flush has not failed. -/
theorem Stands.concluded_committed {result : TransactionApplyResult}
    (h : Stands R record (some .committed) ps ss cs ln true fl w)
    (hps : ps = List.range record.effects.length)
    (hss : ss = List.range record.effects.length)
    (hresult : result.accepted = !fl) : Concluded R record (.ok result) w := by
  refine ⟨result, rfl, ?_⟩
  have hrecorded : failureRecorded w.history = false := by
    rw [← Bool.not_eq_true, h.recorded]
    decide
  rw [linesOfFailed, hrecorded, Bool.and_false, h.flush]
  constructor
  · intro hlaw
    have haccepted := hlaw.answer.mpr h.status
    rw [hresult, Bool.not_eq_true'] at haccepted
    exact ⟨haccepted, rfl⟩
  · rintro ⟨rfl, -⟩
    refine ⟨iff_of_true hresult h.status, fun _ => ⟨?_, ?_, h.complete rfl⟩, ?_⟩
    · rw [h.performs, hps]
    · rw [h.succeeds, hss]
    · rw [h.status]
      intro hs
      cases hs

section Runtime

variable {g : Effect → Proc EffectResult} (hg : R.compensateEffect = some g)
  (hcomp : ∀ e, Uses (fun o => o.isCallback = true) (g e))

include hg hcomp in
theorem only_abort (applied : List (Nat × Effect)) (error : DomainError)
    (hss : ss = (applied.map Prod.fst).reverse)
    (h : Stands R record (some .prepared) ps ss [] ln al false w) :
    SafeOnly E (Concluded R record) (R.abort record applied error) w := by
  have hdone : ∀ {s w}, Stands R record s ps ss (applied.map Prod.fst) ln al false w →
      (s = some .prepared ∨ s = some .failed) →
      Concluded R record (.ok { accepted := false, error := some error }) w := by
    rintro s w h' (rfl | rfl)
    · exact h'.concluded_open (by decide) (by decide) rfl
    · refine h'.concluded_failed ?_ rfl
      rw [hss, List.reverse_reverse]
  have hcompensate : ∀ {s w}, Stands R record s ps ss [] ln al false w →
      (s = some .prepared ∨ s = some .failed) →
      SafeOnly E (Concluded R record) (do
        R.compensate record.journalId applied
        return { accepted := false, error := some error }) w := by
    intro s w h' hs
    refine Safe.bind (Safe.mono (only_compensate hg hcomp applied h') ?_)
    rintro _ w' ⟨rfl, h''⟩
    exact hdone h'' hs
  refine only_writeRecord (r := { record with status := .failed, error := some error })
    h rfl (by decide) (fun e w' h' => hcompensate h' (Or.inl rfl))
    (fun answer w' h' => ?_)
  exact hcompensate h' (Or.inr rfl)

include hg hcomp in
/-- Every run of `apply` on a fresh journal with fresh events ends so. -/
theorem only_apply
    (happly : ∀ e, Uses (fun o => o.isCallback = true) (R.applyEffect e))
    (hvalid : ∀ v, R.validateFinalState = some v →
      Uses (fun o => o.isCallback = true) v)
    (hprepared : record.status = .prepared)
    (h : Stands R record none [] [] [] false false false w) :
    SafeOnly E (Concluded R record) (R.apply record) w := by
  refine only_writeRecord h rfl (by decide)
    (fun e w' h' => h'.concluded_open (by decide) (by decide) rfl)
    (fun answer w h => ?_)
  rw [hprepared] at h
  cases answer with
  | error e => exact h.concluded_open (by decide) (by decide) rfl
  | ok _ =>
      refine Safe.bind (Safe.mono (only_applyEffects happly 0 record.effects [] rfl h) ?_)
      rintro _ w ⟨applied, failure, ps, ss, rfl, h, hss, hall⟩
      rw [Nat.zero_add] at hall
      cases failure with
      | some error => exact only_abort hg hcomp applied error hss h
      | none =>
        obtain ⟨hps, hss'⟩ := hall rfl
        refine only_callback (validate_uses_of R hvalid) (validate_returns R) h
          fun verdict w h => ?_
        split
        next error => exact only_abort hg hcomp applied error hss h
        next =>
          refine Safe.bind (Safe.mono (only_appendMany h) ?_)
          rintro _ w ⟨answer, ln, rfl, h⟩
          cases answer with
          | error error => exact only_abort hg hcomp applied error hss h
          | ok _ =>
              refine only_writeRecord
                (r := { record with status := .committed, error := none }) h rfl
                (by decide) (fun e w' h' => ?_) (fun answer w' h' => ?_)
              · exact h'.concluded_open (by decide) (by decide) rfl
              · cases answer with
                | error error =>
                    exact h'.concluded_committed hps hss' rfl
                | ok _ => exact h'.concluded_committed hps hss' rfl

end Runtime

end Steps

-- ============================================================ the runs

/-- A transaction as `apply` expects it: a prepared record under a fresh
journal id with fresh event ids, a compensator, and callbacks that leave
journals, event logs and marks to the runtime. -/
structure WellPosed (R : FileTransactionRuntime) (record : TransactionJournalRecord)
    (d : Data) : Prop where
  prepared : record.status = .prepared
  freshJournal : d.journalStatus R.project record.journalId = none
  freshEvents : ∀ e ∈ record.events, e.eventId ∉ d.eventIds R.project
  applies : ∀ e, Uses (fun o => o.isCallback = true) (R.applyEffect e)
  compensates : ∃ g, R.compensateEffect = some g ∧
    ∀ e, Uses (fun o => o.isCallback = true) (g e)
  validates : ∀ v, R.validateFinalState = some v →
    Uses (fun o => o.isCallback = true) v

/-- The transaction as the only process. -/
def transactionAlone (R : FileTransactionRuntime)
    (record : TransactionJournalRecord) (d : Data) :
    Config Pid Op Op.Res Raised TransactionApplyResult World :=
  ⟨{ data := d }, fun i => if i = 0 then some (R.apply record) else none⟩

/-- Every run of a transaction to its end, whichever of its operations fail,
keeps the outcome law. -/
def KeepsOutcomeLaw (E : Env) : Prop :=
  ∀ (R : FileTransactionRuntime) (record : TransactionJournalRecord) (d : Data)
    (c' : Config Pid Op Op.Res Raised TransactionApplyResult World)
    (result : TransactionApplyResult),
    WellPosed R record d →
    Run (machine E) onlyZero (transactionAlone R record d) c' →
    c'.procs 0 = some (.ret result) → OutcomeLaw R record result.accepted c'.world

/-- A runtime whose callbacks accept everything. -/
def smallRuntime : FileTransactionRuntime where
  project := "p"
  applyEffect _ := return { accepted := true }
  compensateEffect := some fun _ => return { accepted := true }
  validateFinalState := none

/-- A record with two events and no effects. -/
def smallRecord : TransactionJournalRecord where
  journalId := "t"
  projectId := "p"
  taskId := none
  transitionId := none
  effects := []
  events := [⟨"a", "TaskMoved", none, none, none, none⟩,
    ⟨"b", "TaskMoved", none, none, none, none⟩]
  status := .prepared

theorem smallRecord_wellPosed :
    WellPosed smallRuntime smallRecord (smallData .running) where
  prepared := rfl
  freshJournal := rfl
  freshEvents := by decide
  applies _ := trivial
  compensates := ⟨_, rfl, fun _ => trivial⟩
  validates v hv := by cases hv

/-- The second line of the batch cannot be written. -/
theorem exists_half_written_run :
    ∃ (c' : Config Pid Op Op.Res Raised TransactionApplyResult World)
        (result : TransactionApplyResult), Run (machine smallEnv) onlyZero
        (transactionAlone smallRuntime smallRecord (smallData .running)) c' ∧
      c'.procs 0 = some (.ret result) ∧
      c'.world.data.journalStatus "p" "t" = some .failed ∧
      "a" ∈ c'.world.data.eventIds "p" := by
  obtain ⟨c', hrun, hP⟩ := Par.exists_admitted_run_of_nexts
    (M := machine smallEnv) (A := onlyZero)
    (c := transactionAlone smallRuntime smallRecord (smallData .running))
    (l := [.step 0 false, .step 0 false, .step 0 false, .step 0 true,
      .step 0 false, .step 0 false])
    (P := fun c' =>
      ((c'.procs 0).bind Prog.answer?).any Except.isOk &&
      c'.world.data.journalStatus "p" "t" = some .failed &&
      "a" ∈ c'.world.data.eventIds "p")
    (by
      intro x hx
      simp only [List.mem_cons, List.not_mem_nil, or_false] at hx
      rcases hx with rfl | rfl | rfl | rfl | rfl | rfl <;>
        exact fun _ _ => trivial)
    (by decide +kernel)
  simp only [Bool.and_eq_true, decide_eq_true_eq] at hP
  obtain ⟨⟨hended, hfailed⟩, hread⟩ := hP
  obtain ⟨answer, hanswer, hok⟩ := (Option.any_eq_true _ _).mp hended
  obtain ⟨p, hproc, hret⟩ := Option.bind_eq_some_iff.mp hanswer
  cases answer with
  | error e => cases hok
  | ok result =>
      obtain rfl := Prog.eq_ret_of_answer? hret
      exact ⟨c', result, hrun, hproc, hfailed, hread⟩

end OpenTulid
