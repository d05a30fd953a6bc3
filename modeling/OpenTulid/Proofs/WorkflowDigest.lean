/-
What the digest of a workflow tells, and when there is one.

A definition has a digest if and only if its parts can be compared and
encoded (`Digestible`), and two digests are the same if and only if the
recorded parts are (`workflowSha256_eq_iff`). Put together that says for
which definitions the digest is total, does not see the order of requirement
lists, and identifies what a workflow does (`identified_iff`).

The tables of a definition are read in the order of their keys, which are
the ids of their entries in everything the compiler makes
(`keyed_of_compiled`).
-/
import OpenTulid.Runtime.Baseline
import OpenTulid.Proofs.FrozenRoundTrip

namespace OpenTulid.Baseline

open Doc (Value Scalar Entries)
open Json (FloatText Fields)
open OpenTulid.Frozen (Sha256 strings orNull)
open OpenTulid.Engine
open Fallible

variable {floatText : Scalar → Option FloatText} {S : Sha256} {w w' : CompiledWorkflow}

-- ============================================================ the tables

/-- The entries of the tables are kept under their ids. -/
structure Keyed (w : CompiledWorkflow) : Prop where
  transitions : ∀ key t, w.transitions.get key = some t → t.id = key
  workers : ∀ key worker, w.workers.get key = some worker → worker.id = key

theorem Keyed.define (h : Keyed w) (statement : Statement) : Keyed (w.define statement) := by
  cases statement with
  | transition t =>
      refine ⟨fun key t' ht' => ?_, h.workers⟩
      simp only [CompiledWorkflow.define, Store.get_put] at ht'
      split at ht'
      next heq =>
        obtain rfl := Option.some.inj ht'
        exact heq.symm
      next => exact h.transitions key t' ht'
  | worker id type instructions =>
      refine ⟨h.transitions, fun key worker hworker => ?_⟩
      simp only [CompiledWorkflow.define, Store.get_put] at hworker
      split at hworker
      next heq =>
        obtain rfl := Option.some.inj hworker
        exact heq.symm
      next => exact h.workers key worker hworker
  | _ => exact ⟨h.transitions, h.workers⟩

theorem keyed_foldl (statements : List Statement) (h : Keyed w) :
    Keyed (statements.foldl CompiledWorkflow.define w) := by
  induction statements generalizing w with
  | nil => exact h
  | cons statement rest ih => exact ih (h.define statement)

/-- The compiler keeps every entry under its id. -/
theorem keyed_of_compiled {registries : RuntimeRegistries} {document : WorkflowDocument}
    {diags : List Diagnostic} (h : compileWorkflow registries document = (diags, some w)) :
    Keyed w := by
  unfold compileWorkflow at h
  split at h
  next => cases congrArg Prod.snd h
  next =>
    dsimp only at h
    split at h
    next =>
      obtain rfl := Option.some.inj (congrArg Prod.snd h)
      have hkeyed : Keyed (compiledTables document) := keyed_foldl _ ⟨nofun, nofun⟩
      exact ⟨hkeyed.transitions, hkeyed.workers⟩
    next => cases congrArg Prod.snd h

/-- A table kept under ids is in the order of the ids. -/
theorem sortedById_values {α : Type} {id : α → String} {table : Store String α}
    (h : ∀ key a, table.get key = some a → id a = key) :
    sortedById id table.values = table.values := by
  refine List.Pairwise.insertionSort_eq ?_
  unfold Store.values
  rw [List.pairwise_map]
  refine table.sorted.imp_of_mem fun {e e'} he he' hlt => ?_
  rw [h e.1 e.2 (Store.mem_entries.mp he), h e'.1 e'.2 (Store.mem_entries.mp he')]
  exact le_of_lt hlt

/-- The ids of such a table are in order. -/
theorem sorted_ids {α : Type} {id : α → String} {table : Store String α}
    (h : ∀ key a, table.get key = some a → id a = key) :
    (table.values.map id).insertionSort (· ≤ ·) = table.values.map id := by
  refine List.Pairwise.insertionSort_eq ?_
  unfold Store.values
  rw [List.map_map, List.pairwise_map]
  refine table.sorted.imp_of_mem fun {e e'} he he' hlt => ?_
  show id e.2 ≤ id e'.2
  rw [h e.1 e.2 (Store.mem_entries.mp he), h e'.1 e'.2 (Store.mem_entries.mp he')]
  exact le_of_lt hlt

-- ========================================================== its existence

/-- The workflow has a digest: of two calls of one type in a transition the
arguments are equal, and JSON takes all arguments. -/
structure Digestible (floatText : Scalar → Option FloatText) (w : CompiledWorkflow) : Prop where
  version : w.schemaVersion.natAbs < 10 ^ maxStrDigits
  comparable : ∀ t ∈ w.transitions.values, t.requires.validations.Pairwise Comparable
  encodable : ∀ t ∈ w.transitions.values, ∀ call ∈ t.requires.validations,
    (argsJson floatText call.args).isSome

theorem gives_encoded {json : Option Json} : Gives (encoded json) ↔ json.isSome := by
  cases json with
  | none => simp [encoded]
  | some json => simp [encoded]

theorem gives_sortedCalls {calls : List ValidationCall} :
    Gives (sortedCalls calls) ↔ calls.Pairwise Comparable := by
  unfold sortedCalls
  split
  next h => simp [h]
  next h => simp [h]

theorem sortedCalls_eq_ok {calls sorted : List ValidationCall}
    (h : sortedCalls calls = .ok sorted) : sorted = calls.insertionSort byType := by
  unfold sortedCalls at h
  split at h
  next => exact (Except.ok.inj h).symm
  next => cases h

theorem transitionPayload_gives_iff {t : CompiledTransition} :
    Gives (transitionPayload floatText t) ↔
      t.requires.validations.Pairwise Comparable ∧
        ∀ call ∈ t.requires.validations, (argsJson floatText call.args).isSome := by
  have hcalls : ∀ calls : List ValidationCall,
      Gives (calls.mapM fun call => encoded (callJson floatText call)) ↔
        ∀ call ∈ calls, (argsJson floatText call.args).isSome := by
    intro calls
    rw [gives_mapM]
    refine forall₂_congr fun call _ => ?_
    rw [gives_encoded, callJson, Option.isSome_map]
  unfold transitionPayload
  constructor
  · rintro ⟨payload, h⟩
    obtain ⟨sorted, hsorted, h⟩ := bind_eq_ok.mp h
    obtain ⟨validations, hvalidations, -⟩ := bind_eq_ok.mp h
    refine ⟨gives_sortedCalls.mp ⟨sorted, hsorted⟩, fun call hcall => ?_⟩
    refine (hcalls sorted).mp ⟨validations, hvalidations⟩ call ?_
    rw [sortedCalls_eq_ok hsorted]
    exact (List.mem_insertionSort _).mpr hcall
  · rintro ⟨hcomparable, hencodable⟩
    obtain ⟨sorted, hsorted⟩ := gives_sortedCalls.mpr hcomparable
    obtain ⟨validations, hvalidations⟩ := (hcalls sorted).mpr fun call hcall => by
      rw [sortedCalls_eq_ok hsorted] at hcall
      exact hencodable call ((List.mem_insertionSort _).mp hcall)
    exact ⟨_, bind_eq_ok.mpr ⟨sorted, hsorted, bind_eq_ok.mpr ⟨validations, hvalidations, rfl⟩⟩⟩

theorem gives_intJson {n : Int} :
    Gives (encoded (intJson n)) ↔ n.natAbs < 10 ^ maxStrDigits := by
  rw [gives_encoded, intJson]
  split
  next h => simp [h]
  next h => simp [h]

/-- There is a digest if and only if the parts can be compared and
encoded. -/
theorem workflowSha256_gives_iff (h : Keyed w) :
    Gives (workflowSha256 floatText S w) ↔ Digestible floatText w := by
  have hpayload : Gives (workflowSha256 floatText S w) ↔ Gives (workflowPayload floatText w) := by
    unfold workflowSha256
    rw [gives_bind (p := True) fun _ => by simp, and_true]
  rw [hpayload]
  unfold workflowPayload
  rw [gives_bind (p := ∀ t ∈ w.transitions.values, Gives (transitionPayload floatText t))
    fun version => ?_, gives_intJson]
  · constructor
    · rintro ⟨hversion, htransitions⟩
      exact ⟨hversion, fun t ht => (transitionPayload_gives_iff.mp (htransitions t ht)).1,
        fun t ht => (transitionPayload_gives_iff.mp (htransitions t ht)).2⟩
    · intro hdigestible
      exact ⟨hdigestible.version, fun t ht => transitionPayload_gives_iff.mpr
        ⟨hdigestible.comparable t ht, hdigestible.encodable t ht⟩⟩
  · rw [gives_bind (p := True) fun _ => by simp, and_true, sortedById_values h.transitions,
      gives_mapM]

-- ========================================================= what it tells

/-- A call as it is recorded. -/
def recordedCall (floatText : Scalar → Option FloatText) (call : ValidationCall) :
    String × Option Json :=
  (call.type, (argsJson floatText call.args).map fun fields => (Json.obj fields).canon)

/-- Two transitions that are recorded alike: the same but for the order of
the artifacts, the order of calls of different types, and everything the
payload leaves out. -/
structure SameRecordedTransition (floatText : Scalar → Option FloatText)
    (t t' : CompiledTransition) : Prop where
  id : t.id = t'.id
  taskType : t.taskType = t'.taskType
  fromState : t.fromState = t'.fromState
  toState : t.toState = t'.toState
  worker : t.worker = t'.worker
  artifacts : t.requires.artifacts.Perm t'.requires.artifacts
  validations : (t.requires.validations.insertionSort byType).map (recordedCall floatText) =
    (t'.requires.validations.insertionSort byType).map (recordedCall floatText)
  changedFiles : t.requires.changedFilesRequired = t'.requires.changedFilesRequired

/-- What a worker is bound to. -/
def binding (worker : CompiledWorker) : String × Option String × String :=
  (worker.id, worker.type, worker.implementationId)

/-- Two workflows that are recorded alike. -/
structure SameRecorded (floatText : Scalar → Option FloatText) (w w' : CompiledWorkflow) :
    Prop where
  schemaVersion : w.schemaVersion = w'.schemaVersion
  states : w.states.keys = w'.states.keys
  taskTypes : w.taskTypes.keys = w'.taskTypes.keys
  bindings : w.workers.values.map binding = w'.workers.values.map binding
  transitions : List.Forall₂ (SameRecordedTransition floatText) w.transitions.values
    w'.transitions.values

/-- Digests of texts without collisions tell canonical payloads apart. -/
theorem canonical_eq_iff {p p' : Json} : S.canonical p = S.canonical p' ↔ p.canon = p'.canon := by
  constructor
  · intro h
    exact Json.text_injective (String.ofList_injective (S.injective h))
  · intro h
    rw [Sha256.canonical, Sha256.canonical, h]

theorem canon_arr_eq_iff {xs ys : List Json} :
    (Json.arr xs).canon = (Json.arr ys).canon ↔ xs.map Json.canon = ys.map Json.canon := by
  rw [Json.canon, Json.canon, Json.arr.injEq, Json.canonItems_eq_map, Json.canonItems_eq_map]

theorem canon_strings_eq_iff {xs ys : List String} :
    (strings xs).canon = (strings ys).canon ↔ xs = ys := by
  have hstr : ∀ zs : List String, (zs.map Json.str).map Json.canon = zs.map Json.str := by
    intro zs
    rw [List.map_map]
    rfl
  unfold strings
  rw [canon_arr_eq_iff, hstr, hstr]
  exact (List.map_injective_iff.mpr fun _ _ h => Json.str.inj h).eq_iff

theorem canon_orNull_eq_iff {o o' : Option String} :
    (orNull o).canon = (orNull o').canon ↔ o = o' := by
  cases o <;> cases o' <;> simp [orNull, Json.canon]

theorem canon_str_eq_iff {s s' : String} : (Json.str s).canon = (Json.str s').canon ↔ s = s' := by
  simp [Json.canon]

theorem canon_bool_eq_iff {b b' : Bool} :
    (Json.bool b).canon = (Json.bool b').canon ↔ b = b' := by
  simp [Json.canon]

/-- Calls are encoded alike if and only if they are recorded alike. -/
theorem canon_encoded_call_eq_iff {call call' : ValidationCall} {j j' : Json}
    (h : encoded (callJson floatText call) = .ok j)
    (h' : encoded (callJson floatText call') = .ok j') :
    j.canon = j'.canon ↔ recordedCall floatText call = recordedCall floatText call' := by
  have hj : ∀ {call : ValidationCall} {j : Json}, encoded (callJson floatText call) = .ok j →
      ∃ fields, argsJson floatText call.args = some fields ∧
        j = .arr [.str call.type, .obj fields] := by
    intro call j h
    unfold callJson at h
    cases hargs : argsJson floatText call.args with
    | none =>
        rw [hargs] at h
        cases h
    | some fields =>
        rw [hargs] at h
        exact ⟨fields, rfl, (Except.ok.inj h).symm⟩
  obtain ⟨fields, hargs, rfl⟩ := hj h
  obtain ⟨fields', hargs', rfl⟩ := hj h'
  rw [canon_arr_eq_iff, recordedCall, recordedCall, hargs, hargs']
  simp [canon_str_eq_iff]

theorem perm_iff_insertionSort_eq {xs ys : List String} :
    xs.insertionSort (· ≤ ·) = ys.insertionSort (· ≤ ·) ↔ xs.Perm ys := by
  constructor
  · intro h
    exact (List.perm_insertionSort _ xs).symm.trans (h ▸ List.perm_insertionSort _ ys)
  · intro h
    exact ((List.perm_insertionSort _ xs).trans
        (h.trans (List.perm_insertionSort _ ys).symm)).eq_of_pairwise
      (fun _ _ _ _ => le_antisymm) (List.pairwise_insertionSort _ xs)
      (List.pairwise_insertionSort _ ys)

/-- Transitions have one payload if and only if they are recorded alike. -/
theorem canon_transitionPayload_eq_iff {t t' : CompiledTransition} {p p' : Json}
    (h : transitionPayload floatText t = .ok p) (h' : transitionPayload floatText t' = .ok p') :
    p.canon = p'.canon ↔ SameRecordedTransition floatText t t' := by
  unfold transitionPayload at h h'
  simp only [bind_eq_ok, pure_eq_ok] at h h'
  obtain ⟨sorted, hsorted, validations, hvalidations, rfl⟩ := h
  obtain ⟨sorted', hsorted', validations', hvalidations', rfl⟩ := h'
  obtain rfl := sortedCalls_eq_ok hsorted
  obtain rfl := sortedCalls_eq_ok hsorted'
  have hcalls : validations.map Json.canon = validations'.map Json.canon ↔
      (t.requires.validations.insertionSort byType).map (recordedCall floatText) =
        (t'.requires.validations.insertionSort byType).map (recordedCall floatText) := by
    rw [map_eq_iff_forall₂ (fun _ _ _ _ => canon_encoded_call_eq_iff)
      (mapM_eq_ok.mp hvalidations) (mapM_eq_ok.mp hvalidations'),
      ← List.forall₂_eq_eq_eq, List.forall₂_map_left_iff, List.forall₂_map_right_iff]
  rw [canon_arr_eq_iff]
  simp only [List.map_cons, List.map_nil, List.cons.injEq, and_true, canon_str_eq_iff,
    canon_orNull_eq_iff, canon_strings_eq_iff, canon_arr_eq_iff, canon_bool_eq_iff,
    perm_iff_insertionSort_eq, hcalls]
  constructor
  · rintro ⟨id, taskType, fromState, toState, worker, artifacts, validations, changedFiles⟩
    exact ⟨id, taskType, fromState, toState, worker, artifacts, validations, changedFiles⟩
  · intro h
    exact ⟨h.id, h.taskType, h.fromState, h.toState, h.worker, h.artifacts, h.validations,
      h.changedFiles⟩

theorem canon_workers_eq_iff {workers workers' : List CompiledWorker} :
    (Json.arr (workers.map workerPayload)).canon = (Json.arr (workers'.map workerPayload)).canon ↔
      workers.map binding = workers'.map binding := by
  have hworker : ∀ worker worker' : CompiledWorker,
      (workerPayload worker).canon = (workerPayload worker').canon ↔
        binding worker = binding worker' := by
    intro worker worker'
    unfold workerPayload binding
    rw [canon_arr_eq_iff]
    simp [canon_str_eq_iff, canon_orNull_eq_iff]
  rw [canon_arr_eq_iff, List.map_map, List.map_map, ← List.forall₂_eq_eq_eq,
    ← List.forall₂_eq_eq_eq, List.forall₂_map_left_iff, List.forall₂_map_right_iff,
    List.forall₂_map_left_iff, List.forall₂_map_right_iff]
  simp only [Function.comp_apply, hworker]

/-- Two digests are one if and only if the workflows are recorded alike. -/
theorem workflowSha256_eq_iff (hw : Keyed w) (hw' : Keyed w') {d d' : String}
    (h : workflowSha256 floatText S w = .ok d) (h' : workflowSha256 floatText S w' = .ok d') :
    d = d' ↔ SameRecorded floatText w w' := by
  unfold workflowSha256 workflowPayload at h h'
  simp only [bind_eq_ok, pure_eq_ok] at h h'
  obtain ⟨p, ⟨version, hversion, transitions, htransitions, rfl⟩, rfl⟩ := h
  obtain ⟨p', ⟨version', hversion', transitions', htransitions', rfl⟩, rfl⟩ := h'
  have hint : ∀ {n : Int} {j : Json}, encoded (intJson n) = .ok j → j = .int n := by
    intro n j h
    unfold intJson at h
    split at h
    next => exact (Except.ok.inj h).symm
    next => cases h
  obtain rfl := hint hversion
  obtain rfl := hint hversion'
  rw [sortedById_values hw.transitions] at htransitions
  rw [sortedById_values hw'.transitions] at htransitions'
  have hrecorded := map_eq_iff_forall₂ (fun _ _ _ _ => canon_transitionPayload_eq_iff)
    (mapM_eq_ok.mp htransitions) (mapM_eq_ok.mp htransitions')
  have hkeys : (["schema_version", "states", "task_types", "worker_ids", "worker_bindings",
      "transitions"] : List String).Nodup := by
    decide
  rw [canonical_eq_iff, Json.canon_obj_eq_iff (by rfl) (by exact hkeys), sortedById_values hw.workers, sortedById_values hw'.workers, sorted_ids hw.workers,
    sorted_ids hw'.workers]
  simp only [List.map_cons, List.map_nil, List.cons.injEq, and_true, canon_strings_eq_iff,
    canon_arr_eq_iff, hrecorded]
  rw [← canon_arr_eq_iff, canon_workers_eq_iff]
  constructor
  · rintro ⟨hversion, states, taskTypes, -, bindings, transitions⟩
    exact ⟨by simpa [Json.canon] using hversion, states, taskTypes, bindings, transitions⟩
  · intro h
    refine ⟨by rw [h.schemaVersion], h.states, h.taskTypes, ?_, h.bindings, h.transitions⟩
    have hids := congrArg (List.map Prod.fst) h.bindings
    rwa [List.map_map, List.map_map] at hids

-- ============================================================= its purpose

/-- Requirements that differ in the order of their lists. -/
structure ReorderedRequirements (req req' : RequirementSet) : Prop where
  artifacts : req.artifacts.Perm req'.artifacts
  validations : req.validations.Perm req'.validations
  changedFiles : req.changedFilesRequired = req'.changedFilesRequired

/-- Transitions that differ in the order of what they require. -/
structure ReorderedTransition (t t' : CompiledTransition) : Prop where
  same : t' = { t with requires := t'.requires }
  requires : ReorderedRequirements t.requires t'.requires

/-- Task types that differ in the order of what their states require. -/
structure ReorderedTaskType (e e' : String × CompiledTaskType) : Prop where
  key : e.1 = e'.1
  same : e'.2 = { e.2 with requirementsByState := e'.2.requirementsByState }
  requires : List.Forall₂ (fun r r' => r.1 = r'.1 ∧ ReorderedRequirements r.2 r'.2)
    e.2.requirementsByState e'.2.requirementsByState

/-- Workflows with the same states, the same worker bindings and the same
transitions, up to the order of what a transition requires. -/
structure SameMeaning (w w' : CompiledWorkflow) : Prop where
  states : w.states = w'.states
  bindings : w.workers.values.map binding = w'.workers.values.map binding
  transitions : List.Forall₂ ReorderedTransition w.transitions.values w'.transitions.values

/-- Workflows that differ in the order of statements, which the tables do
not keep, and of requirement lists. -/
structure Reordered (w w' : CompiledWorkflow) : Prop where
  same : w' = { w with taskTypes := w'.taskTypes, transitions := w'.transitions }
  taskTypes : List.Forall₂ ReorderedTaskType w.taskTypes.entries w'.taskTypes.entries
  transitions : List.Forall₂ ReorderedTransition w.transitions.values w'.transitions.values

/-- The digests of two workflows do what they are for: both are there, they
do not see the order of lists, and they tell workflows of different meaning
apart. -/
def Identified (floatText : Scalar → Option FloatText) (S : Sha256) (w w' : CompiledWorkflow) :
    Prop :=
  ∃ d d', workflowSha256 floatText S w = .ok d ∧ workflowSha256 floatText S w' = .ok d' ∧
    (Reordered w w' → d = d') ∧ (¬ SameMeaning w w' → d ≠ d')

/-- The digests of two compiled workflows do what they are for if and only
if both have one, a mere reordering is recorded alike, and what is recorded
alike has one meaning. -/
theorem identified_iff {registries registries' : RuntimeRegistries}
    {document document' : WorkflowDocument} {diags diags' : List Diagnostic}
    (h : compileWorkflow registries document = (diags, some w))
    (h' : compileWorkflow registries' document' = (diags', some w')) :
    Identified floatText S w w' ↔
      Digestible floatText w ∧ Digestible floatText w' ∧
        (Reordered w w' → SameRecorded floatText w w') ∧
        (SameRecorded floatText w w' → SameMeaning w w') := by
  have hw := keyed_of_compiled h
  have hw' := keyed_of_compiled h'
  constructor
  · rintro ⟨d, d', hd, hd', hreordered, hmeaning⟩
    have heq := workflowSha256_eq_iff hw hw' hd hd'
    refine ⟨(workflowSha256_gives_iff hw).mp ⟨d, hd⟩, (workflowSha256_gives_iff hw').mp ⟨d', hd'⟩,
      fun hr => heq.mp (hreordered hr), fun hsame => ?_⟩
    by_contra hdiffer
    exact hmeaning hdiffer (heq.mpr hsame)
  · rintro ⟨hdigestible, hdigestible', hreordered, hmeaning⟩
    obtain ⟨d, hd⟩ := (@workflowSha256_gives_iff floatText S w hw).mpr hdigestible
    obtain ⟨d', hd'⟩ := (@workflowSha256_gives_iff floatText S w' hw').mpr hdigestible'
    have heq := workflowSha256_eq_iff hw hw' hd hd'
    exact ⟨d, d', hd, hd', fun hr => heq.mpr (hreordered hr),
      fun hdiffer hsame => hdiffer (hmeaning (heq.mp hsame))⟩

/-- Where calls of one type in a transition have one encoding, a reordering
is recorded alike. -/
theorem sameRecordedTransition_of_reordered {t t' : CompiledTransition}
    (hsame : ∀ call ∈ t.requires.validations, ∀ call' ∈ t.requires.validations,
      call.type = call'.type → recordedCall floatText call = recordedCall floatText call')
    (h : ReorderedTransition t t') : SameRecordedTransition floatText t t' := by
  have hsame' := h.same
  have hcalls : (t.requires.validations.insertionSort byType).map (recordedCall floatText) =
      (t'.requires.validations.insertionSort byType).map (recordedCall floatText) := by
    have hsorted : ∀ calls : List ValidationCall,
        ((calls.insertionSort byType).map (recordedCall floatText)).Pairwise
          fun c c' => c.1 ≤ c'.1 := by
      intro calls
      rw [List.pairwise_map]
      have : IsTrans ValidationCall byType := ⟨fun _ _ _ => le_trans⟩
      have : Std.Total (byType : ValidationCall → ValidationCall → Prop) :=
        ⟨fun a b => le_total a.type b.type⟩
      exact List.pairwise_insertionSort byType calls
    have hperm : ((t.requires.validations.insertionSort byType).map (recordedCall floatText)).Perm
        ((t'.requires.validations.insertionSort byType).map (recordedCall floatText)) :=
      ((List.perm_insertionSort byType _).trans (h.requires.validations.trans
        (List.perm_insertionSort byType _).symm)).map _
    refine hperm.eq_of_pairwise (fun c c' hc hc' hle hge => ?_) (hsorted _) (hsorted _)
    obtain ⟨call, hcall, rfl⟩ := List.mem_map.mp hc
    obtain ⟨call', hcall', rfl⟩ := List.mem_map.mp hc'
    refine hsame call ((List.mem_insertionSort _).mp hcall) call' ?_ (le_antisymm hle hge)
    exact h.requires.validations.mem_iff.mpr ((List.mem_insertionSort _).mp hcall')
  rw [hsame']
  exact ⟨rfl, rfl, rfl, rfl, rfl, h.requires.artifacts, hcalls, h.requires.changedFiles⟩

/-- The digest does not see what a transition does, derives or is: its
transaction, its derivation, its review flag and its instructions. -/
theorem sameRecordedTransition_of_left_out (t : CompiledTransition)
    (transaction : Option TransactionPlan) (derives : Option DerivesSpec) (review : Bool)
    (instructions : List String) :
    SameRecordedTransition floatText t { t with
      transaction := transaction, derives := derives, review := review,
      instructions := instructions } :=
  ⟨rfl, rfl, rfl, rfl, rfl, List.Perm.refl _, rfl, rfl⟩

-- ================================================================ a slip

/-- A workflow of one transition with these calls, and further states. -/
def finishing (calls : List ValidationCall) (more : List Statement) : WorkflowDocument where
  schemaVersion := 1
  statements := [
    .state "ready" none,
    .state "done" (some "success"),
    .taskType "task" [] [],
    .validationType "file_exists" [],
    .transition {
      id := "finish", taskType := "task", fromState := "ready", toState := "done"
      requires := { validations := calls } }] ++ more

/-- A call that asks for a file. -/
def fileExists (path : String) : ValidationCall where
  type := "file_exists"
  args := [(.str "path", .str path)]

/-- A transition that asks for two files compiles, and has no digest. -/
theorem two_files_have_no_digest :
    compileWorkflow builtinRegistries (finishing [fileExists "a", fileExists "b"] []) =
        ([], some (compiledTables (finishing [fileExists "a", fileExists "b"] []))) ∧
      ¬ Identified (fun _ => none) Frozen.unaryDigest
        (compiledTables (finishing [fileExists "a", fileExists "b"] []))
        (compiledTables (finishing [fileExists "a", fileExists "b"] [])) := by
  have hcompiled :
      compileWorkflow builtinRegistries (finishing [fileExists "a", fileExists "b"] []) =
        ([], some (compiledTables (finishing [fileExists "a", fileExists "b"] []))) := by
    decide +kernel
  refine ⟨hcompiled, ?_⟩
  rintro ⟨d, -, hd, -⟩
  have hdigestible := (workflowSha256_gives_iff (keyed_of_compiled hcompiled)).mp ⟨d, hd⟩
  have hnone : ¬ ∀ t ∈ (compiledTables (finishing [fileExists "a", fileExists "b"] [])
      ).transitions.values, t.requires.validations.Pairwise Comparable := by
    decide +kernel
  exact hnone hdigestible.comparable

/-- A transition that asks for one file has a digest, which tells it apart
from the same in a workflow with another state. -/
theorem one_file_is_identified :
    Identified (fun _ => none) Frozen.unaryDigest
      (compiledTables (finishing [fileExists "a"] []))
      (compiledTables (finishing [fileExists "a"] [.state "held" (some "cancelled")])) := by
  have hcompiled : compileWorkflow builtinRegistries (finishing [fileExists "a"] []) =
      ([], some (compiledTables (finishing [fileExists "a"] []))) := by
    decide +kernel
  have hcompiled' : compileWorkflow builtinRegistries
      (finishing [fileExists "a"] [.state "held" (some "cancelled")]) =
      ([], some (compiledTables
        (finishing [fileExists "a"] [.state "held" (some "cancelled")]))) := by
    decide +kernel
  refine (identified_iff hcompiled hcompiled').mpr ⟨?_, ?_, fun h => ?_, fun h => ?_⟩
  · exact ⟨by decide +kernel, by decide +kernel, by decide +kernel⟩
  · exact ⟨by decide +kernel, by decide +kernel, by decide +kernel⟩
  · exact absurd (congrArg CompiledWorkflow.states h.same) (by decide +kernel)
  · exact absurd h.states (by decide +kernel)

end OpenTulid.Baseline
