/-
`recover_completion_transactions`: rolling journals forward.

Every record of the journal store is looked at, whatever its status: one
that is not committed is replayed effect by effect, skipping those whose
outcome is already there, and then validated, its missing events appended,
committed and settled; a committed one is only settled. A record is passed
over when its candidate is damaged or when any of its effects shows a
conflicting change.
-/
import OpenTulid.Completion.Submit

namespace OpenTulid

/-- The effects recovery knows how to replay. -/
def Effect.recoverable : Effect → Bool
  | .createExecutionJob _ => false
  | _ => true

/-- `_expected_to_state`: where the record moves its task. -/
def expectedToState (record : TransactionJournalRecord) : String :=
  (record.effects.findSome? fun
    | .moveTask id toState => if some id = record.taskId then some toState else none
    | _ => none).getD ""

-- ============================================== what is there already

/-- The body without outer blank lines and leading title. -/
def identityBody (b : Body) : Body :=
  match b.trimStart with
  | .title _ :: rest => Body.trimEnd (Body.trimStart rest)
  | stripped => Body.trimEnd stripped

/-- `_created_task_matches`: the stored task is the created one up to
presentation. -/
def createdTaskMatches (task payload : Task) : Bool :=
  { task with body := identityBody task.body } =
    { payload with body := identityBody payload.body }

/-- `_transaction_commit_exists`: the tip is exactly the commit the record
intends. Asking Git raises when it cannot be run. -/
def transactionCommitExists (E : Env) (S : CompletionService)
    (record : TransactionJournalRecord) (message : String) (d : Data) :
    Except Raised Bool :=
  match S.repo, record.context.commit.bind fun c => c.intendedTree.map (c, ·) with
  | some r, some (commit, intendedTree) =>
      if E.gitRaises then .error ⟨"git executable not found"⟩
      else match (d.repos r).head with
      | none => .ok false
      | some head =>
          .ok <|
            (match commit.repositoryBaseCommit <|> record.context.repositoryBaseCommit with
            | none => true
            | some base =>
                (d.repos r).git.any (fun history => history.any fun c => c.sha = base) &&
                  head.sha ≠ base && head.parent = some base) &&
            head.tree = intendedTree && (message = "" || head.subject = message)
  | _, _ => .ok false

/-- `_recovery_effect_applied`. -/
def recoveryEffectApplied (E : Env) (S : CompletionService)
    (record : TransactionJournalRecord) (effect : Effect) (d : Data) :
    Except Raised Bool :=
  match effect with
  | .moveTask id toState =>
      match (d.projects S.project).tracker.readTask id with
      | .ok task => .ok (task.currentState = toState)
      | .error _ => .ok false
  | .createTask payload =>
      match (d.projects S.project).tracker.readTask payload.id with
      | .ok task => .ok (createdTaskMatches task payload)
      | .error _ => .ok false
  | .promoteArtifact a =>
      .ok (sameFileContent d a.source (.artifacts S.project) a.target)
  | .promoteChangedFile p =>
      .ok (S.repo.any fun r => sameFileContent d p.source (.repo r) p.target)
  | .deleteChangedFile deletion =>
      .ok (S.repo.all fun r => ((d.repos r).tree.node deletion.target).isNone)
  | .commitRepoChanges message _ => transactionCommitExists E S record message d
  | _ => .ok false

-- ======================================================== conflicts

/-- The images a promotion expects before and after. -/
structure ExpectedImages where
  after : Option Digest
  before : Option Digest
  beforeMode : Option Mode
  targetExisted : Bool

/-- The conflict of a promotion: the target shows neither image and is no
empty directory. -/
def promotionConflict (d : Data) (source : SourcePath) (root : Root)
    (target : RelPath) (expected : ExpectedImages) : Bool :=
  match (d.storages source.storage).file? source.path with
  | none => true
  | some f =>
      if expected.after.any (· ≠ sha256 f.content) then true
      else if sameFileContent d source root target then false
      else match (d.tree root).node target with
      | some .dir => (d.tree root).hasChild target
      | some (.file t) =>
          match expected.before with
          | none => true
          | some before =>
              before ≠ sha256 t.content || expected.beforeMode.any (· ≠ t.mode)
      | none => expected.before.isSome || expected.targetExisted

/-- The conflict of one effect. A deleted path that holds a directory
cannot be read as a file, which raises. -/
def effectConflict (E : Env) (S : CompletionService)
    (record : TransactionJournalRecord) (effect : Effect) (d : Data) :
    Except Raised Bool :=
  match effect with
  | .createTask payload =>
      match (d.projects S.project).tracker.readTask payload.id with
      | .ok task => .ok (!createdTaskMatches task payload)
      | .error errors => .ok (errors.any fun e => e.code ≠ "task.not_found")
  | .promoteArtifact a =>
      .ok <| promotionConflict d a.source (.artifacts S.project) a.target
        ⟨a.expectedAfterSha256, a.expectedBeforeSha256, a.expectedBeforeMode,
          a.targetExisted⟩
  | .promoteChangedFile p =>
      .ok <| S.repo.any fun r => promotionConflict d p.source (.repo r) p.target
        ⟨p.expectedAfterSha256, p.expectedBeforeSha256, p.expectedBeforeMode,
          p.targetExisted⟩
  | .moveTask id toState =>
      match record.context.expectedPreviousState with
      | none => .ok false
      | some previous =>
          match (d.projects S.project).tracker.readTask id with
          | .error _ => .ok true
          | .ok task => .ok (task.currentState ≠ previous && task.currentState ≠ toState)
  | .deleteChangedFile deletion =>
      match S.repo.bind fun r => (d.repos r).tree.node deletion.target,
          deletion.expectedBeforeSha256 with
      | some .dir, some _ => .error ⟨"Is a directory"⟩
      | some (.file f), some before => .ok (sha256 f.content ≠ before)
      | _, _ => .ok false
  | .commitRepoChanges message _ => do
      if ← transactionCommitExists E S record message d then return false
      else match S.repo, record.context.repositoryBaseCommit with
      | some r, some base =>
          if E.gitRaises then .error ⟨"git executable not found"⟩
          else return (d.repos r).head.any fun head => head.sha ≠ base
      | _, _ => return false
  | _ => .ok false

/-- `_recovery_has_conflict`: the effects are looked at one after the other,
up to the first conflict. -/
def recoveryHasConflict (E : Env) (S : CompletionService)
    (record : TransactionJournalRecord) : List Effect → Proc Bool
  | [] => return false
  | effect :: rest => do
      let d ← perform .look
      if ← ofExcept (effectConflict E S record effect d) then return true
      else recoveryHasConflict E S record rest

-- ========================================================= settlement

/-- `_recovered_commit_identity`: the proven tip of a record with a commit
effect. -/
def recoveredCommitIdentity (E : Env) (S : CompletionService)
    (record : TransactionJournalRecord) (message : String) (d : Data) :
    Except Raised (Option String) := do
  if ← transactionCommitExists E S record message d then
    return S.repo.bind fun r => (d.repos r).head.map (·.sha)
  else return none

/-- The message of the record's commit effect. -/
def commitEffectMessage (record : TransactionJournalRecord) : Option String :=
  record.effects.findSome? fun
    | .commitRepoChanges message _ => some message
    | _ => none

/-- `_settle_recovered_acceptance`: close the window between the journal's
commit and the job's update. -/
def settleRecoveredAcceptance (E : Env) (S : CompletionService)
    (record : TransactionJournalRecord) : Proc Bool :=
  match record.context.jobId, record.context.acceptanceMetadata with
  | some jobId, some (metadata, submissions) => do
      match ← perform (.getJob S.project jobId) with
      | .error _ => return false
      | .ok job =>
          if job.status = .accepted ∨ some job.taskId ≠ record.taskId ∨
              some job.transitionId ≠ record.transitionId then return false
          else do
          let d ← perform .look
          let commit ← ofExcept <| match commitEffectMessage record with
            | some message => (recoveredCommitIdentity E S record message d).map
                fun identity => identity.map some
            | none => .ok (some record.context.repositoryBaseCommit)
          match commit with
          | none => return false
          | some commit =>
              perform (.mark (.settles record.journalId))
              let saved ← writeStatus S .recoverySettled (some job.status) jobId
                .accepted {
                  acceptance := some { metadata with repositoryCommit := commit }
                  completionSubmissions := some submissions }
              return saved.isOk
  | _, _ => return false

-- ============================================================= replay

/-- Replay the effects in order, skipping those applied: whether all of
them are in place. -/
def replayEffects (E : Env) (S : CompletionService)
    (record : TransactionJournalRecord) : Nat → List Effect → Proc Bool
  | _, [] => return true
  | k, effect :: rest => do
      let d ← perform .look
      if ← ofExcept (recoveryEffectApplied E S record effect d) then
        replayEffects E S record (k + 1) rest
      else do
        perform (.mark (.performs record.journalId k))
        let result ← applyEffect E S effect
        if result.accepted then replayEffects E S record (k + 1) rest
        else return false

/-- The effects a committed record must show: all but the parent's links. -/
def Effect.hasIdentity : Effect → Bool
  | .linkDerivedTasks _ _ => false
  | _ => true

/-- Every effect that leaves an identity shows it. -/
def allApplied (E : Env) (S : CompletionService)
    (record : TransactionJournalRecord) : List Effect → Proc Bool
  | [] => return true
  | effect :: rest => do
      if effect.hasIdentity then
        let d ← perform .look
        if ← ofExcept (recoveryEffectApplied E S record effect d) then
          allApplied E S record rest
        else return false
      else allApplied E S record rest

/-- The final state of a record. -/
def validateRecord (E : Env) (S : CompletionService)
    (record : TransactionJournalRecord) : Proc EffectResult :=
  validateFinalState E S (record.taskId.getD "") (expectedToState record)
    record.context.candidate record.context.outputRelative
    record.context.artifactPaths

/-- Close a record whose effects are in place and validated: missing events,
the journal's commit, the job. -/
def closeRecord (E : Env) (S : CompletionService)
    (existing : List EventId) (record : TransactionJournalRecord) :
    Proc (Bool × List EventId) := do
  let missing := record.events.filter fun e => e.eventId ∉ existing
  perform (.mark (.replaysEvents record.journalId))
  match ← appendMany S.project missing with
  | .error _ => return (false, existing)
  | .ok () =>
      let existing := existing ++ missing.map (·.eventId)
      let committed := { record with status := JournalStatus.committed, error := none }
      match ← writeRecord S.project committed with
      | .error _ => return (false, existing)
      | .ok () =>
          let _ ← settleRecoveredAcceptance E S committed
          return (true, existing)

/-- Roll a record forward that is not committed. -/
def rollForward (E : Env) (S : CompletionService) (existing : List EventId)
    (record : TransactionJournalRecord) : Proc (Bool × List EventId) := do
  if ← replayEffects E S record 0 record.effects then
    let final ← validateRecord E S record
    if final.accepted then closeRecord E S existing record
    else return (false, existing)
  else return (false, existing)

/-- Settle the job of a committed record. -/
def settleCommitted (E : Env) (S : CompletionService)
    (record : TransactionJournalRecord) : Proc Bool := do
  if ← allApplied E S record record.effects then
    let final ← validateRecord E S record
    if final.accepted then settleRecoveredAcceptance E S record
    else return false
  else return false

/-- The sealed candidate of a record is missing or still what it was. -/
def candidateIntact (E : Env) (record : TransactionJournalRecord) (d : Data) :
    Bool :=
  record.context.candidate.all fun c =>
    c.manifest.lists (E.candidateSelects c) (d.storages c.storage)

/-- A record recovery takes up at all. -/
def recoverableRecord (record : TransactionJournalRecord) : Bool :=
  record.effects ≠ [] && record.effects.all Effect.recoverable &&
    record.taskId.isSome && record.transitionId.isSome &&
    expectedToState record ≠ ""

/-- Recover one record: whether it is reported recovered, and the event ids
known by then. -/
def recoverRecord (E : Env) (S : CompletionService) (existing : List EventId)
    (record : TransactionJournalRecord) : Proc (Bool × List EventId) := do
  if recoverableRecord record then
    if ← read (candidateIntact E record) then
      if ← recoveryHasConflict E S record record.effects then return (false, existing)
      else if record.status = .committed then
        return (← settleCommitted E S record, existing)
      else rollForward E S existing record
    else return (false, existing)
  else return (false, existing)

/-- Recover the records in order. -/
def recoverRecords (E : Env) (S : CompletionService) :
    List EventId → List TransactionJournalRecord → Proc (List JournalId)
  | _, [] => return []
  | existing, record :: rest => do
      let (recovered, existing) ← recoverRecord E S existing record
      let others ← recoverRecords E S existing rest
      return if recovered then record.journalId :: others else others

/-- `recover_completion_transactions`: the journals reported recovered. -/
def recoverCompletionTransactions (E : Env) (S : CompletionService) :
    Proc (List JournalId) := do
  let existing ← read fun d => (d.projects S.project).events.map (·.eventId)
  match ← perform (.listJournals S.project) with
  | .error e => Prog.raise e
  | .ok records => recoverRecords E S existing records

end OpenTulid
