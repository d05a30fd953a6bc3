/-
The digest of a workflow that a run's baseline records.

`workflowPayload` is what of a definition is recorded: its states, task types
and worker bindings, and of every transition its ends, its worker and what
it requires. The calls of validations are sorted as pairs of a type and a
dictionary; two dictionaries that are not equal have no order, so the
sorting raises where two calls of one type differ (`sortedCalls`). Arguments
are encoded as they were frozen: a nested mapping is a mapping proxy, which
JSON does not take, and neither does it take a date.

What JSON writes for a float is left open in `floatText`, with nothing for
the scalars it does not take.
-/
import OpenTulid.Engine.Compiler
import OpenTulid.Contract.Payload

namespace OpenTulid.Baseline

open Doc (Value Scalar Entries)
open Json (FloatText Fields)
open OpenTulid.Frozen (Sha256 strings orNull)
open OpenTulid.Engine

-- ============================================================== equality

/-- `==` of two scalars: a NaN is no other. -/
def sameScalar (s t : Scalar) : Bool := s.sameKey t && s ≠ .other "float" "nan"

mutual

/-- `==` of two values. -/
def sameValue : Value → Value → Bool
  | .scalar s, .scalar t => sameScalar s t
  | .list items, .list items' => sameItems items items'
  | .map m, .map m' => m.length = m'.length && sameEntries m m'
  | _, _ => false

/-- `==` of two lists. -/
def sameItems : List Value → List Value → Bool
  | [], [] => true
  | v :: rest, v' :: rest' => sameValue v v' && sameItems rest rest'
  | _, _ => false

/-- Every entry is in another mapping. -/
def sameEntries : List (Scalar × Value) → Entries → Bool
  | [], _ => true
  | (key, v) :: rest, m' =>
      (match m'.lookup key with
      | some v' => sameValue v v'
      | none => false) && sameEntries rest m'

end

/-- `==` of two dictionaries of arguments. -/
def sameArgs (args args' : Entries) : Bool :=
  args.length = args'.length && sameEntries args args'

-- =============================================================== encoding

/-- The decimal digits an integer may have in a text. -/
def maxStrDigits : Nat := 4300

/-- An integer as JSON has it. -/
def intJson (n : Int) : Option Json :=
  if n.natAbs < 10 ^ maxStrDigits then some (.int n) else none

variable (floatText : Scalar → Option FloatText)

/-- A scalar as JSON has it. -/
def scalarJson : Scalar → Option Json
  | .null => some .null
  | .bool b => some (.bool b)
  | .int n => intJson n
  | .str s => some (.str s)
  | .float n text => (floatText (.float n text)).map .float
  | .other type text => (floatText (.other type text)).map .float

mutual

/-- A frozen value as JSON has it: a tuple is a list, and a mapping proxy is
not taken. -/
def valueJson : Value → Option Json
  | .scalar s => scalarJson floatText s
  | .list items => (itemsJson items).map .arr
  | .map _ => none

/-- The items of a tuple as JSON has them. -/
def itemsJson : List Value → Option (List Json)
  | [] => some []
  | v :: rest =>
      match valueJson v, itemsJson rest with
      | some j, some js => some (j :: js)
      | _, _ => none

end

/-- `dict(call.args)` as JSON has it. Frozen keys are texts. -/
def argsJson : Entries → Option Fields
  | [] => some []
  | (.str key, v) :: rest =>
      match valueJson floatText v, argsJson rest with
      | some j, some fields => some ((key, j) :: fields)
      | _, _ => none
  | _ :: _ => none

/-- A call as JSON has it. -/
def callJson (call : ValidationCall) : Option Json :=
  (argsJson floatText call.args).map fun fields => .arr [.str call.type, .obj fields]

-- =============================================================== sorting

/-- The order of the types of calls. -/
def byType (call call' : ValidationCall) : Prop := call.type ≤ call'.type

instance : DecidableRel byType := fun call call' =>
  inferInstanceAs (Decidable (call.type ≤ call'.type))

/-- Of two calls of one type the arguments are equal. -/
def Comparable (call call' : ValidationCall) : Prop :=
  call.type = call'.type → sameArgs call.args call'.args = true ∧
    sameArgs call'.args call.args = true

instance : DecidableRel Comparable := fun call call' =>
  inferInstanceAs (Decidable (call.type = call'.type → _))

/-- `sorted((call.type, dict(call.args)) for call in …)`. Calls that come to
stand side by side have been compared, so a run that raises nothing has only
equal arguments within each type, and leaves those in the given order. -/
def sortedCalls (calls : List ValidationCall) : Except Raised (List ValidationCall) :=
  if calls.Pairwise Comparable then .ok (calls.insertionSort byType)
  else .error ⟨"'<' not supported between instances of 'dict' and 'dict'"⟩

/-- Entries in the order of their ids. The ids of a table differ, so nothing
behind them is compared. -/
def sortedById {α : Type} (id : α → String) (entries : List α) : List α :=
  entries.insertionSort fun a b => id a ≤ id b

-- =============================================================== the digest

/-- A value JSON takes, or its error. -/
def encoded (json : Option Json) : Except Raised Json :=
  match json with
  | some json => .ok json
  | none => .error ⟨"Object is not JSON serializable"⟩

/-- A transition as it is recorded. -/
def transitionPayload (t : CompiledTransition) : Except Raised Json := do
  let calls ← sortedCalls t.requires.validations
  let validations ← calls.mapM fun call => encoded (callJson floatText call)
  return .arr [
    .str t.id,
    .str t.taskType,
    .str t.fromState,
    .str t.toState,
    orNull t.worker,
    strings (t.requires.artifacts.insertionSort (· ≤ ·)),
    .arr validations,
    .bool t.requires.changedFilesRequired]

/-- A worker as it is recorded. -/
def workerPayload (worker : CompiledWorker) : Json :=
  .arr [.str worker.id, orNull worker.type, .str worker.implementationId]

/-- `_workflow_payload`. -/
def workflowPayload (w : CompiledWorkflow) : Except Raised Json := do
  let version ← encoded (intJson w.schemaVersion)
  let transitions ← (sortedById (·.id) w.transitions.values).mapM (transitionPayload floatText)
  return .obj [
    ("schema_version", version),
    ("states", strings w.states.keys),
    ("task_types", strings w.taskTypes.keys),
    ("worker_ids", strings ((w.workers.values.map (·.id)).insertionSort (· ≤ ·))),
    ("worker_bindings", .arr ((sortedById (·.id) w.workers.values).map workerPayload)),
    ("transitions", .arr transitions)]

/-- `workflow_sha256`. -/
def workflowSha256 (S : Sha256) (w : CompiledWorkflow) : Except Raised String := do
  let payload ← workflowPayload floatText w
  return S.canonical payload

end OpenTulid.Baseline
