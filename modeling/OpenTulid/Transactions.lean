/-
The file transaction runtime: a journal is prepared, the effects are
performed in order, the final state is validated, the events are appended
and the journal is committed. Any failure on the way marks the journal
failed and compensates the performed effects in reverse order.
-/
import OpenTulid.World

namespace OpenTulid

/-- What performing or compensating an effect answers. -/
structure EffectResult where
  accepted : Bool
  message : String := ""
  errors : List DomainError := []
  deriving DecidableEq, Repr

/-- What a transaction answers. -/
structure TransactionApplyResult where
  accepted : Bool
  error : Option DomainError := none
  deriving DecidableEq, Repr

/-- The callbacks of a transaction. -/
structure FileTransactionRuntime where
  project : ProjectId
  applyEffect : Effect → Proc EffectResult
  compensateEffect : Option (Effect → Proc EffectResult)
  validateFinalState : Option (Proc EffectResult)

/-- The error of an operation that was not accepted. -/
def operationError (result : EffectResult) : DomainError :=
  result.errors.head?.getD ⟨"effect.failed", result.message, none⟩

/-- The lines of a batch one after the other, up to the first that cannot
be written. -/
def appendLines (p : ProjectId) : List EventEnvelope → Proc (Except DomainError Unit)
  | [] => return .ok ()
  | e :: rest => do
      match ← perform (.appendEvent p e) with
      | .error err => return .error err
      | .ok () => appendLines p rest

/-- `append_many`: the lines of the batch, then its readable lines. -/
def appendMany (p : ProjectId) (events : List EventEnvelope) :
    Proc (Except DomainError Unit) := do
  match ← appendLines p events with
  | .error err => return .error err
  | .ok () => perform (.appendHuman p)

/-- `TransactionJournalStore.write`: the record takes the place of the one on
disk, then the folder is flushed. -/
def writeRecord (p : ProjectId) (record : TransactionJournalRecord) :
    Proc (Except DomainError Unit) := do
  match ← perform (.writeJournal p record) with
  | .error err => return .error err
  | .ok () => perform (.syncJournal p record)

namespace FileTransactionRuntime

variable (R : FileTransactionRuntime)

/-- Write the journal with its final status and error. -/
def settle (record : TransactionJournalRecord) (status : JournalStatus)
    (error : Option DomainError) : Proc (Except DomainError Unit) :=
  writeRecord R.project { record with status := status, error := error }

/-- Compensate effects in the order given; what fails or raises is left. -/
def compensate (j : JournalId) : List (Nat × Effect) → Proc Unit
  | [] => return ()
  | (k, effect) :: rest =>
      match R.compensateEffect with
      | none => return ()
      | some compensateEffect => do
          perform (.mark (.compensates j k))
          let _ ← Prog.tryCatch (compensateEffect effect) fun _ => return ⟨true, "", []⟩
          compensate j rest

/-- Perform the effects in order: those performed, last first, and the
error that stopped the list. -/
def applyEffects (j : JournalId) : Nat → List Effect → List (Nat × Effect) →
    Proc (List (Nat × Effect) × Option DomainError)
  | _, [], applied => return (applied, none)
  | k, effect :: rest, applied => do
      perform (.mark (.performs j k))
      let result ← Prog.tryCatch
        (do return Except.ok (← R.applyEffect effect))
        fun e => return Except.error (⟨"effect.exception",
          s!"Effect raised exception: {e.text}", none⟩ : DomainError)
      match result with
      | .error error => return (applied, some error)
      | .ok result =>
          if result.accepted then do
            perform (.mark (.succeeds j k))
            applyEffects j (k + 1) rest ((k, effect) :: applied)
          else return (applied, some (operationError result))

/-- Validate the final state; an exception is a rejection. -/
def validate : Proc (Option DomainError) :=
  match R.validateFinalState with
  | none => return none
  | some validateFinalState => do
      let result ← Prog.tryCatch validateFinalState fun e =>
        return { accepted := false
                 message := s!"Final validation raised exception: {e.text}" }
      return if result.accepted then none else some (operationError result)

/-- Mark the journal failed and compensate. -/
def abort (record : TransactionJournalRecord) (applied : List (Nat × Effect))
    (error : DomainError) : Proc TransactionApplyResult := do
  let _ ← R.settle record .failed (some error)
  R.compensate record.journalId applied
  return { accepted := false, error := some error }

/-- `FileTransactionRuntime.apply` on a record with status prepared. -/
def apply (record : TransactionJournalRecord) : Proc TransactionApplyResult := do
  match ← writeRecord R.project record with
  | .error error => return { accepted := false, error := some error }
  | .ok () =>
      let (applied, failure) ← R.applyEffects record.journalId 0 record.effects []
      match failure with
      | some error => R.abort record applied error
      | none =>
          match ← R.validate with
          | some error => R.abort record applied error
          | none =>
              match ← appendMany R.project record.events with
              | .error error => R.abort record applied error
              | .ok () =>
                  match ← R.settle record .committed none with
                  | .error error => return { accepted := false, error := some error }
                  | .ok () => return { accepted := true }

end FileTransactionRuntime

end OpenTulid
