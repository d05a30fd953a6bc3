/-
The footprints of the programs: which operations each part of the runtime
can come to.

Most facts about a run need of most programs only what kinds of operations
they perform. `Op.isEffect` are the operations of effects and of their
compensation, `Op.isTransaction` those of a transaction around them; the
lemmas follow the definitions of the programs one by one.
-/
import OpenTulid.Completion.Recovery
import OpenTulid.Runtime.Executor

namespace OpenTulid

open Prog (Uses)

variable {S : Op → Prop} {α β : Type}

-- ======================================================= the kinds

/-- The operations of effects: reads, tracker writes, file system calls and
commits. -/
def Op.isEffect : Op → Bool
  | .look | .createTask .. | .writeTask .. | .moveTask .. | .fs .. | .commit .. => true
  | _ => false

/-- The operations of a transaction between its journal writes: effects,
events and marks of its own. -/
def Op.isWork : Op → Bool
  | .mark (.launches ..) => false
  | .appendEvent .. | .appendHuman _ | .mark _ => true
  | o => o.isEffect

/-- The operations of a transaction. -/
def Op.isTransaction : Op → Bool
  | .writeJournal .. | .syncJournal .. => true
  | o => o.isWork

theorem Op.isWork_of_isEffect {o : Op} (h : o.isEffect = true) :
    o.isWork = true := by
  cases o with
  | mark m => cases h
  | _ => first | rfl | exact h

theorem Op.isTransaction_of_isWork {o : Op} (h : o.isWork = true) :
    o.isTransaction = true := by
  cases o <;> first | rfl | exact h

theorem Op.isTransaction_of_isEffect {o : Op} (h : o.isEffect = true) :
    o.isTransaction = true :=
  o.isTransaction_of_isWork (o.isWork_of_isEffect h)

-- ==================================================== building blocks

theorem uses_perform {o : Op} (h : S o) : Uses S (perform o) :=
  ⟨h, fun _ => trivial⟩

theorem uses_perform_bind {o : Op} {f : o.Res → Proc β} (h : S o)
    (hf : ∀ r, Uses S (f r)) : Uses S (perform o >>= f) :=
  ⟨h, hf⟩

theorem uses_read (h : S .look) (f : Data → α) : Uses S (read f) :=
  ⟨h, fun _ => trivial⟩

theorem uses_read_bind {f : Data → α} {k : α → Proc β} (h : S .look)
    (hk : ∀ a, Uses S (k a)) : Uses S (read f >>= k) :=
  (uses_read h f).bind hk

theorem uses_ofExcept (x : Except Raised α) : Uses S (ofExcept x) := by
  cases x <;> trivial

theorem uses_mayRaise (x : Option Raised) : Uses S (mayRaise x) := by
  cases x <;> trivial

theorem uses_onlyIf {c : Bool} {p : Proc Unit} (h : Uses S p) :
    Uses S (onlyIf c p) := by
  cases c with
  | false => trivial
  | true => exact h

theorem uses_withLock {l : Lock} {body : Proc α} (hl : S (.lock l))
    (hu : S (.unlock l)) (h : Uses S body) : Uses S (withLock l body) :=
  ⟨hl, fun _ => h.ensure ⟨hu, fun _ => trivial⟩⟩

-- ====================================================== path operations

theorem unlinkRegularNofollow_uses (hlook : S .look) (hfs : ∀ r w, S (.fs r w))
    (root : Root) (p : RelPath) : Uses S (unlinkRegularNofollow root p) := by
  refine uses_read_bind hlook fun t => ?_
  split
  · trivial
  · trivial
  · split
    · trivial
    · trivial
    · refine uses_perform_bind (hfs _ _) fun r => ?_
      split <;> trivial

theorem rmdirIfEmptyNofollow_uses (hlook : S .look) (hfs : ∀ r w, S (.fs r w))
    (root : Root) (p : RelPath) : Uses S (rmdirIfEmptyNofollow root p) := by
  refine uses_read_bind hlook fun t => ?_
  split
  · trivial
  · trivial
  · split
    · trivial
    · trivial
    · refine uses_perform_bind (hfs _ _) fun r => ?_
      split <;> trivial

theorem openDirs_uses (hlook : S .look) (hfs : ∀ r w, S (.fs r w))
    (root : Root) (ps : List RelPath) : Uses S (openDirs root ps) := by
  induction ps with
  | nil => trivial
  | cons q rest ih =>
      refine uses_read_bind hlook fun t => ?_
      split
      · exact ih
      · trivial
      · refine uses_perform_bind (hfs _ _) fun r => ?_
        split
        · trivial
        · exact ih

theorem writeBlocks_uses (hfs : ∀ r w, S (.fs r w)) (root : Root) (p : RelPath)
    (blocks : List Content) : Uses S (writeBlocks root p blocks) := by
  induction blocks with
  | nil => trivial
  | cons b rest ih =>
      refine uses_perform_bind (hfs _ _) fun r => ?_
      split
      · trivial
      · exact ih

theorem copyRegularNofollow_uses (E : Env) (hlook : S .look)
    (hfs : ∀ r w, S (.fs r w)) (source : SourcePath) (root : Root)
    (target : RelPath) (mode : Option Mode) :
    Uses S (copyRegularNofollow E source root target mode) := by
  refine uses_read_bind hlook fun f => ?_
  split
  · trivial
  · refine (openDirs_uses hlook hfs _ _).bind fun r => ?_
    split
    · trivial
    · refine uses_perform_bind (hfs _ _) fun r => ?_
      split
      · trivial
      · refine uses_perform_bind (hfs _ _) fun r => ?_
        split
        · trivial
        · exact writeBlocks_uses hfs _ _ _

theorem copy2_uses (E : Env) (hlook : S .look) (hfs : ∀ r w, S (.fs r w))
    (source : SourcePath) (root : Root) (target : RelPath) :
    Uses S (copy2 E source root target) := by
  refine uses_read_bind hlook fun f => ?_
  split
  · trivial
  · refine uses_read_bind hlook fun t => ?_
    refine uses_perform_bind (hfs _ _) fun r => ?_
    split
    · trivial
    · refine (writeBlocks_uses hfs _ _ _).bind fun r => ?_
      split
      · trivial
      · refine uses_perform_bind (hfs _ _) fun r => ?_
        split <;> trivial

-- ============================================================= effects

/-- The operations of one effect. -/
theorem applyEffect_uses (E : Env) (V : CompletionService) (e : Effect) :
    Uses (fun o => o.isEffect = true) (applyEffect E V e) := by
  have hlook : Op.look.isEffect = true := rfl
  have hfs : ∀ r w, (Op.fs r w).isEffect = true := fun _ _ => rfl
  cases e with
  | deleteChangedFile deletion =>
      simp only [applyEffect]
      split
      · refine (unlinkRegularNofollow_uses hlook hfs _ _).bind fun r => ?_
        split <;> trivial
      · trivial
  | promoteChangedFile p =>
      simp only [applyEffect]
      split
      · refine (rmdirIfEmptyNofollow_uses hlook hfs _ _).bind fun r => ?_
        split
        · trivial
        · refine (copyRegularNofollow_uses E hlook hfs _ _ _ _).bind fun r => ?_
          split <;> trivial
      · trivial
  | commitRepoChanges message paths =>
      simp only [applyEffect]
      split
      · trivial
      · split
        · trivial
        · refine uses_perform_bind rfl fun r => ?_
          split <;> trivial
  | promoteArtifact a =>
      refine Uses.bind ?_ fun r => ?_
      · refine (openDirs_uses hlook hfs _ _).bind fun r => ?_
        split
        · trivial
        · exact copy2_uses E hlook hfs _ _ _
      · split
        · trivial
        · unfold promoteArtifactLink
          split
          · trivial
          · refine uses_read_bind hlook fun r => ?_
            split
            · trivial
            · refine uses_perform_bind rfl fun r => ?_
              split <;> trivial
  | createTask task => exact ⟨rfl, fun _ => trivial⟩
  | linkDerivedTasks parentId links =>
      refine uses_read_bind hlook fun r => ?_
      split
      · trivial
      · exact ⟨rfl, fun _ => trivial⟩
  | moveTask id state => exact ⟨rfl, fun _ => trivial⟩
  | createExecutionJob job => trivial

/-- The operations of one compensation. -/
theorem compensateEffect_uses (V : CompletionService) (e : Effect) :
    Uses (fun o => o.isEffect = true) (compensateEffect V e) := by
  have hlook : Op.look.isEffect = true := rfl
  cases e with
  | promoteArtifact a =>
      refine Uses.bind ?_ fun removed => ?_
      · refine uses_read_bind hlook fun node => ?_
        split
        · trivial
        · trivial
        · split <;> trivial
        · split
          · trivial
          · refine uses_perform_bind rfl fun r => ?_
            split <;> trivial
      · split
        · refine uses_read_bind hlook fun r => ?_
          split
          · trivial
          · refine uses_perform_bind rfl fun r => ?_
            split <;> trivial
        · trivial
  | _ => trivial

theorem checkTarget_uses (h : ∀ r c, S (.checkTarget r c))
    (V : CompletionService) (contract : Option ExecutionContract) :
    Uses S (checkTarget V contract) := by
  unfold checkTarget
  cases V.repo with
  | none => trivial
  | some r =>
      cases contract with
      | none => trivial
      | some c => exact uses_perform (h r c)

-- ======================================================== transactions

theorem appendLines_uses {p : ProjectId} (h : ∀ e, S (.appendEvent p e))
    (events : List EventEnvelope) : Uses S (appendLines p events) := by
  induction events with
  | nil => trivial
  | cons e rest ih =>
      refine uses_perform_bind (h e) fun r => ?_
      split
      · trivial
      · exact ih

theorem appendMany_uses {p : ProjectId} (h : ∀ e, S (.appendEvent p e))
    (hhuman : S (.appendHuman p)) (events : List EventEnvelope) :
    Uses S (appendMany p events) := by
  refine (appendLines_uses h events).bind fun r => ?_
  split
  · trivial
  · exact uses_perform hhuman

theorem writeRecord_uses {p : ProjectId} {record : TransactionJournalRecord}
    (hwrite : S (.writeJournal p record)) (hsync : S (.syncJournal p record)) :
    Uses S (writeRecord p record) := by
  refine uses_perform_bind hwrite fun r => ?_
  split
  · trivial
  · exact uses_perform hsync

section Transaction

variable (R : FileTransactionRuntime)
  (happly : ∀ e, Uses (fun o => o.isEffect = true) (R.applyEffect e))
  (hcomp : ∀ f, R.compensateEffect = some f →
    ∀ e, Uses (fun o => o.isEffect = true) (f e))
  (hvalid : ∀ v, R.validateFinalState = some v →
    Uses (fun o => o.isEffect = true) v)

include hcomp in
theorem compensate_uses (j : JournalId) (applied : List (Nat × Effect)) :
    Uses (fun o => o.isWork = true) (R.compensate j applied) := by
  induction applied with
  | nil => trivial
  | cons ke rest ih =>
      obtain ⟨k, e⟩ := ke
      unfold FileTransactionRuntime.compensate
      split
      · trivial
      next f hf =>
        refine uses_perform_bind rfl fun _ => ?_
        refine Uses.bind (Uses.tryCatch ?_ fun _ => trivial) fun _ => ih
        exact (hcomp f hf e).mono fun _ => Op.isWork_of_isEffect

include happly in
theorem applyEffects_uses (j : JournalId) (k : Nat) (effects : List Effect)
    (applied : List (Nat × Effect)) :
    Uses (fun o => o.isWork = true)
      (R.applyEffects j k effects applied) := by
  induction effects generalizing k applied with
  | nil => trivial
  | cons e rest ih =>
      refine uses_perform_bind rfl fun _ => ?_
      refine Uses.bind (Uses.tryCatch ?_ fun _ => trivial) fun result => ?_
      · exact ((happly e).mono fun _ => Op.isWork_of_isEffect).bind
          fun _ => trivial
      · split
        · trivial
        · split
          · exact uses_perform_bind rfl fun _ => ih _ _
          · trivial

theorem validate_uses_of (hvalid : ∀ v, R.validateFinalState = some v → Uses S v) :
    Uses S R.validate := by
  unfold FileTransactionRuntime.validate
  split
  · trivial
  next v hv =>
    exact Uses.bind (Uses.tryCatch (hvalid v hv) fun _ => trivial) fun _ => trivial

include hvalid in
theorem validate_uses :
    Uses (fun o => o.isWork = true) R.validate :=
  (validate_uses_of R hvalid).mono fun _ => Op.isWork_of_isEffect

include hcomp in
theorem abort_uses (record : TransactionJournalRecord)
    (applied : List (Nat × Effect)) (error : DomainError) :
    Uses (fun o => o.isTransaction = true) (R.abort record applied error) := by
  refine (writeRecord_uses (S := fun o => o.isTransaction = true) rfl rfl).bind fun _ => ?_
  refine Uses.bind ?_ fun _ => trivial
  exact (compensate_uses R hcomp _ _).mono fun _ => Op.isTransaction_of_isWork

include happly hcomp hvalid in
/-- The operations of a transaction. -/
theorem apply_uses (record : TransactionJournalRecord) :
    Uses (fun o => o.isTransaction = true) (R.apply record) := by
  refine (writeRecord_uses (S := fun o => o.isTransaction = true) rfl rfl).bind fun r => ?_
  split
  · trivial
  · refine ((applyEffects_uses R happly _ _ _ _).mono
      fun _ => Op.isTransaction_of_isWork).bind fun x => ?_
    obtain ⟨applied, failure⟩ := x
    cases failure with
    | some error => exact abort_uses R hcomp _ _ _
    | none =>
      refine ((validate_uses R hvalid).mono
        fun _ => Op.isTransaction_of_isWork).bind fun v => ?_
      split
      · exact abort_uses R hcomp _ _ _
      · refine (appendMany_uses (S := fun o => o.isTransaction = true)
          (fun _ => rfl) rfl _).bind fun r => ?_
        split
        · exact abort_uses R hcomp _ _ _
        · refine (writeRecord_uses (S := fun o => o.isTransaction = true) rfl rfl).bind fun r => ?_
          split <;> trivial

end Transaction

section Acceptance

variable (E : Env) (V : CompletionService) (job : ExecutionJob)
  (plan : AcceptancePlan)

theorem acceptanceRuntime_compensates (f : Effect → Proc EffectResult)
    (hf : (acceptanceRuntime E V job plan).compensateEffect = some f)
    (e : Effect) : Uses (fun o => o.isEffect = true) (f e) := by
  cases hf
  exact compensateEffect_uses V e

theorem acceptanceRuntime_validates (v : Proc EffectResult)
    (hv : (acceptanceRuntime E V job plan).validateFinalState = some v) :
    Uses (fun o => o.isEffect = true) v := by
  cases hv
  exact ⟨rfl, fun _ => trivial⟩

theorem returns_perform_bind {o : Op} {f : o.Res → Proc β}
    (hf : ∀ r, (f r).Returns) : (perform o >>= f).Returns := hf

/-- Performing effects lets no exception through. -/
theorem applyEffects_returns (R : FileTransactionRuntime) (j : JournalId)
    (k : Nat) (effects : List Effect) (applied : List (Nat × Effect)) :
    (R.applyEffects j k effects applied).Returns := by
  induction effects generalizing k applied with
  | nil => trivial
  | cons e rest ih =>
      refine returns_perform_bind fun _ => ?_
      refine (Prog.Returns.tryCatch fun _ => ?_).bind fun result => ?_
      · trivial
      · split
        · trivial
        · split
          · exact returns_perform_bind fun _ => ih _ _
          · trivial

/-- Neither does compensating them. -/
theorem compensate_returns (R : FileTransactionRuntime) (j : JournalId)
    (applied : List (Nat × Effect)) : (R.compensate j applied).Returns := by
  induction applied with
  | nil => trivial
  | cons ke rest ih =>
      obtain ⟨k, e⟩ := ke
      unfold FileTransactionRuntime.compensate
      split
      · trivial
      · refine returns_perform_bind fun _ => ?_
        refine Prog.Returns.bind (Prog.Returns.tryCatch fun _ => ?_) fun _ => ih
        trivial

/-- Nor does validating the final state. -/
theorem validate_returns (R : FileTransactionRuntime) : R.validate.Returns := by
  unfold FileTransactionRuntime.validate
  split
  · trivial
  · refine Prog.Returns.bind (Prog.Returns.tryCatch fun _ => ?_) fun _ => ?_
    · trivial
    · trivial

/-- Appending events answers its errors. -/
theorem appendMany_returns (p : ProjectId) (events : List EventEnvelope) :
    (appendMany p events).Returns := by
  refine Prog.Returns.bind ?_ fun r => ?_
  · induction events with
    | nil => trivial
    | cons e rest ih =>
        refine returns_perform_bind fun r => ?_
        split
        · trivial
        · exact ih
  · split
    · trivial
    · exact fun _ => trivial

/-- Writing a record answers its errors. -/
theorem writeRecord_returns (p : ProjectId) (record : TransactionJournalRecord) :
    (writeRecord p record).Returns := by
  refine returns_perform_bind fun r => ?_
  split
  · trivial
  · exact fun _ => trivial

/-- The operations of an acceptance's transaction. -/
theorem applyAcceptance_uses (call : SubmitCall) (sid : SubmissionId) :
    Uses (fun o => o.isTransaction = true)
      (applyAcceptance E V call job sid plan) :=
  uses_read_bind rfl fun record =>
    apply_uses _ (applyEffect_uses E V)
      (acceptanceRuntime_compensates E V job plan)
      (acceptanceRuntime_validates E V job plan) record

end Acceptance

/-- Whether Git can be run depends on which repositories are under Git. -/
theorem gitUnavailable_congr {E : Env} {V : CompletionService} {d d' : Data}
    (h : ∀ r, (d.repos r).git.isSome = (d'.repos r).git.isSome) :
    gitUnavailable E V d = gitUnavailable E V d' := by
  unfold gitUnavailable
  cases V.repo with
  | none => rfl
  | some r => simp only [Option.any_some, h]

-- ============================================================ recovery

section Recovery

variable (E : Env) (V : CompletionService)

theorem recoveryHasConflict_uses (hlook : S .look)
    (record : TransactionJournalRecord) (effects : List Effect) :
    Uses S (recoveryHasConflict E V record effects) := by
  induction effects with
  | nil => trivial
  | cons e rest ih =>
      refine uses_perform_bind hlook fun d => ?_
      refine (uses_ofExcept _).bind fun conflict => ?_
      split
      · trivial
      · exact ih

theorem allApplied_uses (hlook : S .look) (record : TransactionJournalRecord)
    (effects : List Effect) : Uses S (allApplied E V record effects) := by
  induction effects with
  | nil => trivial
  | cons e rest ih =>
      unfold allApplied
      split
      · refine uses_perform_bind hlook fun d => ?_
        refine (uses_ofExcept _).bind fun applied => ?_
        split
        · exact ih
        · trivial
      · exact ih

/-- A kind of operations that holds all that recovering a record comes to: a
record that is not committed is replayed, appended and committed, and its job
is settled. -/
structure RecoversWithin (S : Op → Prop) (V : CompletionService)
    (record : TransactionJournalRecord) : Prop where
  effect : ∀ o : Op, o.isEffect = true → S o
  getJob : ∀ id, S (.getJob V.project id)
  performs : record.status ≠ .committed →
    ∀ k, S (.mark (.performs record.journalId k))
  replays : record.status ≠ .committed →
    S (.mark (.replaysEvents record.journalId))
  append : record.status ≠ .committed → ∀ e, S (.appendEvent V.project e)
  human : record.status ≠ .committed → S (.appendHuman V.project)
  commit : record.status ≠ .committed →
    S (.writeJournal V.project { record with status := .committed, error := none })
  sync : record.status ≠ .committed →
    S (.syncJournal V.project { record with status := .committed, error := none })
  settles : S (.mark (.settles record.journalId))
  settle : ∀ id basis patch, record.context.jobId = some id →
    patch.attemptRecords = none →
    S (.updateStatus V.project .recoverySettled basis id .accepted patch false)

section Record

variable {V} {record : TransactionJournalRecord} (h : RecoversWithin S V record)

include h in
theorem replayEffects_uses (hopen : record.status ≠ .committed) (k : Nat)
    (effects : List Effect) : Uses S (replayEffects E V record k effects) := by
  induction effects generalizing k with
  | nil => trivial
  | cons e rest ih =>
      refine uses_perform_bind (h.effect _ rfl) fun d => ?_
      refine (uses_ofExcept _).bind fun applied => ?_
      split
      · exact ih _
      · refine uses_perform_bind (h.performs hopen k) fun _ => ?_
        refine Uses.bind ((applyEffect_uses E V e).mono h.effect) fun result => ?_
        split
        · exact ih _
        · trivial

include h in
/-- The operations of settling a job: a read, a mark and the job's status
write. -/
theorem settleRecoveredAcceptance_uses :
    Uses S (settleRecoveredAcceptance E V record) := by
  unfold settleRecoveredAcceptance
  split
  next jobId _ _ hjob _ =>
    refine uses_perform_bind (h.getJob _) fun loaded => ?_
    split
    · trivial
    · split
      · trivial
      · refine uses_perform_bind (h.effect _ rfl) fun d => ?_
        refine (uses_ofExcept _).bind fun commit => ?_
        split
        · trivial
        · refine uses_perform_bind h.settles fun _ => ?_
          exact uses_perform_bind (h.settle _ _ _ hjob rfl) fun _ => trivial
  next => trivial

/-- A wider kind of operations. -/
theorem RecoversWithin.mono {T : Op → Prop} (h : RecoversWithin S V record)
    (hST : ∀ o, S o → T o) : RecoversWithin T V record where
  effect o ho := hST _ (h.effect o ho)
  getJob id := hST _ (h.getJob id)
  performs hopen k := hST _ (h.performs hopen k)
  replays hopen := hST _ (h.replays hopen)
  append hopen e := hST _ (h.append hopen e)
  human hopen := hST _ (h.human hopen)
  commit hopen := hST _ (h.commit hopen)
  sync hopen := hST _ (h.sync hopen)
  settles := hST _ h.settles
  settle id basis patch hset hpatch := hST _ (h.settle id basis patch hset hpatch)

theorem RecoversWithin.committed (h : RecoversWithin S V record) :
    RecoversWithin S V { record with status := .committed, error := none } where
  effect := h.effect
  getJob := h.getJob
  performs hopen := absurd rfl hopen
  replays hopen := absurd rfl hopen
  append hopen := absurd rfl hopen
  human hopen := absurd rfl hopen
  commit hopen := absurd rfl hopen
  sync hopen := absurd rfl hopen
  settles := h.settles
  settle := h.settle

include h in
theorem closeRecord_uses (hopen : record.status ≠ .committed)
    (existing : List EventId) : Uses S (closeRecord E V existing record) := by
  refine uses_perform_bind (h.replays hopen) fun _ => ?_
  refine (appendMany_uses (h.append hopen) (h.human hopen) _).bind
    fun appended => ?_
  split
  · trivial
  · refine (writeRecord_uses (h.commit hopen) (h.sync hopen)).bind fun saved => ?_
    split
    · trivial
    · exact (settleRecoveredAcceptance_uses E h.committed).bind fun _ => trivial

include h in
/-- The operations of recovering a record. -/
theorem recoverRecord_uses (existing : List EventId) :
    Uses S (recoverRecord E V existing record) := by
  have hlook : S .look := h.effect _ rfl
  have hvalid : Uses S (validateRecord E V record) := uses_read hlook _
  unfold recoverRecord
  split
  · refine uses_read_bind hlook fun intact => ?_
    split
    · refine (recoveryHasConflict_uses E V hlook _ _).bind fun conflict => ?_
      split
      · trivial
      · split
        next =>
          refine Uses.bind ?_ fun _ => trivial
          refine (allApplied_uses E V hlook _ _).bind fun applied => ?_
          split
          · refine hvalid.bind fun final => ?_
            split
            · exact settleRecoveredAcceptance_uses E h
            · trivial
          · trivial
        next hopen =>
          refine (replayEffects_uses E h hopen _ _).bind fun applied => ?_
          split
          · refine hvalid.bind fun final => ?_
            split
            · exact closeRecord_uses E h hopen _
            · trivial
          · trivial
    · trivial
  · trivial

end Record

/-- The operations of recovering records. -/
theorem recoverRecords_uses {records : List TransactionJournalRecord}
    (h : ∀ record ∈ records, RecoversWithin S V record)
    (existing : List EventId) : Uses S (recoverRecords E V existing records) := by
  induction records generalizing existing with
  | nil => trivial
  | cons record rest ih =>
      refine (recoverRecord_uses E (h record List.mem_cons_self) _).bind
        fun x => ?_
      refine Uses.bind (ih (fun r hr => h r (List.mem_cons_of_mem _ hr)) _)
        fun _ => ?_
      trivial

/-- The operations of recovery: those of transactions, reads, and the
status writes of settled jobs. -/
theorem recoverCompletionTransactions_uses
    (hS : ∀ o : Op, o.isTransaction = true → S o)
    (hlist : ∀ p, S (.listJournals p)) (hget : ∀ p id, S (.getJob p id))
    (hset : ∀ p basis id (patch : MetadataPatch), patch.attemptRecords = none →
      S (.updateStatus p .recoverySettled basis id .accepted patch false)) :
    Uses S (recoverCompletionTransactions E V) := by
  refine uses_read_bind (hS _ rfl) fun existing => ?_
  refine uses_perform_bind (hlist _) fun listed => ?_
  split
  · trivial
  · refine recoverRecords_uses E V (fun record _ => ?_) _
    exact {
      effect := fun _ ho => hS _ (Op.isTransaction_of_isEffect ho)
      getJob := hget V.project
      performs := fun _ _ => hS _ rfl
      replays := fun _ => hS _ rfl
      append := fun _ _ => hS _ rfl
      human := fun _ => hS _ rfl
      commit := fun _ => hS _ rfl
      sync := fun _ => hS _ rfl
      settles := hS _ rfl
      settle := fun _ _ _ _ hpatch => hset _ _ _ _ hpatch }

end Recovery

-- ====================================================== a small project

/-- One task in state Todo on a board with two columns: the ground on which
conditions are shown to be needed. -/
def smallTracker : Tracker where
  mappings := [⟨"Todo", "Board", "Todo"⟩, ⟨"Done", "Board", "Done"⟩]
  columns := [("Board", "Todo"), ("Board", "Done")]
  notes := (∅ : Store String Task).put "1-task"
    { id := "1", title := "Task", currentState := "Todo", body := [.title "Task"] }
  cards := [⟨"Board", "Todo", "1-task"⟩]

/-- The transition of its task. -/
def smallTransition : TransitionDefinition where
  id := "implement"
  taskType := "task"
  fromState := "Todo"
  toState := "Done"

/-- Outside answers that know the transition. -/
def smallEnv : Env :=
  { Env.plain with transitions := fun id =>
      if id = "implement" then some smallTransition else none }

/-- A job of its task. -/
def smallJob (status : ExecutionJobStatus) : ExecutionJob :=
  ⟨"j", "p", "1", "implement", "coder", status, 0, {}⟩

/-- A submission for the job that is captured and verified. -/
def smallCall (sid : String) : SubmitCall where
  jobId := "j"
  submission := { submissionId := some sid }
  ulid n := s!"{sid}-{n}"
  captured := .ok (.ok (⟨"c", sid, [], []⟩, ∅))
  verified := .ok { accepted := true }

/-- The project with its job. -/
def smallData (status : ExecutionJobStatus) : Data where
  projects _ := { jobs := (∅ : Table _).put (smallJob status), tracker := smallTracker }
  repos _ := {}
  storages _ := ∅
  leases := []

end OpenTulid
