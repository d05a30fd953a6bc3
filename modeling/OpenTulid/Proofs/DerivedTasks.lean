/-
Derived batches are well formed or rejected whole.

# The batch

A batch that is planned was parsed file by file, with no local id twice, and
names nothing but its own local tasks (`WellFormed`). The ids it gets are
the numbers after the highest in use, so they are new and differ, and an
edge between two tasks is one between their local ids: the graph of the
tasks has no cycle because that of the batch has none.

# The cycle report

The search for cycles comes after the files are parsed and their ids
compared. A batch that fails there is rejected without it.
-/
import OpenTulid.Proofs.Loadable
import OpenTulid.Runtime.DerivedTasks
import Mathlib.Data.Set.Function

namespace OpenTulid.Derived

-- ================================================================ batches

/-- The artifacts a transition derives tasks from. -/
def batch (derives : Option DerivesDefinition) (artifacts : List ArtifactSubmission) :
    List ArtifactSubmission :=
  match derives with
  | none => []
  | some derives => selected derives artifacts

/-- Every artifact is parsed, to the draft at its place. -/
def Parses (P : Python) (files : Source) (artifacts : List ArtifactSubmission)
    (drafts : List Draft) : Prop :=
  List.Forall₂ (fun artifact draft => parseArtifact P files artifact = .ok draft)
    artifacts drafts

/-- One draft names another of its batch as a dependency. -/
def LocalEdge (drafts : List Draft) (a b : String) : Prop :=
  ∃ draft ∈ drafts, draft.localId = a ∧ b ∈ draft.dependencies ∧ b ∈ drafts.map (·.localId)

/-- The local dependency graph has a cycle. -/
def HasLocalCycle (drafts : List Draft) : Prop :=
  ∃ localId, Relation.TransGen (LocalEdge drafts) localId localId

/-- One planned task depends on another. -/
def DependsOn (tasks : List PlannedTask) (a b : TaskId) : Prop :=
  ∃ derived ∈ tasks, derived.task.id = a ∧ b ∈ derived.task.dependencies

/-- What a plan has to be: one task for each artifact and local id, under new
ids that differ, on the tasks of the local ids it names. -/
structure WellFormed (P : Python) (files : Source) (artifacts : List ArtifactSubmission)
    (existing : List String) (drafts : List Draft) (idOf : String → TaskId)
    (tasks : List PlannedTask) : Prop where
  parsed : Parses P files artifacts drafts
  localIds : (drafts.map (·.localId)).Nodup
  planned : List.Forall₂ (fun (draft : Draft) (derived : PlannedTask) =>
    derived.task.id = idOf draft.localId ∧ derived.task.title = draft.title ∧
      derived.body = draft.body ∧
      derived.task.dependencies = draft.dependencies.map idOf) drafts tasks
  named : ∀ draft ∈ drafts, ∀ dep ∈ draft.dependencies, dep ∈ drafts.map (·.localId)
  distinct : (tasks.map (·.task.id)).Nodup
  fresh : ∀ derived ∈ tasks, derived.task.id ∉ existing
  acyclic : ∀ id, ¬ Relation.TransGen (DependsOn tasks) id id

/-- A cycle is among the errors. -/
def ReportsCycle (errors : List DomainError) : Prop :=
  ∃ error ∈ errors, error.code = "task.derived_dependency_cycle"

variable {P : Python} {files : Source}

-- ========================================================== the first pass

theorem parseFile_code {path : String} {error : DomainError}
    (h : parseFile P files path = .error error) :
    error.code ≠ "task.derived_dependency_cycle" := by
  unfold parseFile at h
  split at h
  next => cases h; simp
  next => cases h; simp
  next text _ =>
    cases hparse : parseDerivedTaskFile P (files.location path) text with
    | error e => rw [hparse] at h; cases h; simp
    | ok parsed => rw [hparse] at h; cases h

theorem parseArtifact_code {artifact : ArtifactSubmission} {error : DomainError}
    (h : parseArtifact P files artifact = .error error) :
    error.code ≠ "task.derived_dependency_cycle" := by
  unfold parseArtifact at h
  cases hparse : parseFile P files artifact.path with
  | error e =>
      rw [hparse] at h
      obtain rfl := Except.error.inj h
      exact parseFile_code hparse
  | ok parsed => rw [hparse] at h; cases h

/-- No error of the first pass is a cycle. -/
theorem parseBatch_code {artifacts : List ArtifactSubmission} :
    ∀ {seen localIds}, ∀ error ∈ (parseBatch P files seen localIds artifacts).2,
      error.code ≠ "task.derived_dependency_cycle" := by
  induction artifacts with
  | nil => intro seen localIds error h; cases h
  | cons artifact rest ih =>
      intro seen localIds error h
      rw [parseBatch] at h
      cases hparse : parseArtifact P files artifact with
      | error e =>
          rw [hparse] at h
          rcases List.mem_append.mp h with h | h
          · split at h
            next => obtain rfl := List.mem_singleton.mp h; simp
            next => cases h
          · rcases List.mem_cons.mp h with rfl | h
            · exact parseArtifact_code hparse
            · exact ih error h
      | ok draft =>
          rw [hparse] at h
          rcases List.mem_append.mp h with h | h
          · rcases List.mem_append.mp h with h | h
            all_goals
              split at h
              next => obtain rfl := List.mem_singleton.mp h; simp
              next => cases h
          · exact ih error h

/-- One artifact passes: it is parsed, under a path and a local id that were
not there before. -/
theorem parseBatch_cons_iff {artifact : ArtifactSubmission} {rest : List ArtifactSubmission}
    {seen localIds : List String} {drafts : List Draft} :
    parseBatch P files seen localIds (artifact :: rest) = (drafts, []) ↔
      ∃ draft tail, drafts = draft :: tail ∧ parseArtifact P files artifact = .ok draft ∧
        artifact.path ∉ seen ∧ draft.localId ∉ localIds ∧
        parseBatch P files (artifact.path :: seen) (draft.localId :: localIds) rest =
          (tail, []) := by
  rw [parseBatch]
  cases parseArtifact P files artifact with
  | error e =>
      constructor
      · intro h
        simp at h
      · rintro ⟨draft, tail, -, hok, -⟩
        cases hok
  | ok draft =>
      obtain ⟨tail, errors, hresult⟩ : ∃ tail errors, parseBatch P files
          (artifact.path :: seen) (draft.localId :: localIds) rest = (tail, errors) :=
        ⟨_, _, rfl⟩
      dsimp only
      rw [hresult]
      constructor
      · intro h
        obtain ⟨rfl, herrors⟩ := Prod.mk.inj h
        obtain ⟨hduplicates, rfl⟩ := List.append_eq_nil_iff.mp herrors
        obtain ⟨hpath, hid⟩ := List.append_eq_nil_iff.mp hduplicates
        refine ⟨draft, tail, rfl, rfl, fun hmem => ?_, fun hmem => ?_, hresult⟩
        · rw [if_pos hmem] at hpath
          cases hpath
        · rw [if_pos hmem] at hid
          cases hid
      · rintro ⟨draft', tail', rfl, hdraft, hpath, hid, htail⟩
        obtain rfl := Except.ok.inj hdraft
        obtain ⟨rfl, rfl⟩ := Prod.mk.inj (hresult.symm.trans htail)
        rw [if_neg hpath, if_neg hid]
        rfl

/-- The first pass has no error exactly where every artifact is parsed and
no path and no local id comes twice. -/
theorem parseBatch_eq_iff {artifacts : List ArtifactSubmission} :
    ∀ {drafts : List Draft} {seen localIds : List String},
      parseBatch P files seen localIds artifacts = (drafts, []) ↔
        Parses P files artifacts drafts ∧
          ((artifacts.map (·.path)).Nodup ∧ ∀ path ∈ artifacts.map (·.path), path ∉ seen) ∧
          ((drafts.map (·.localId)).Nodup ∧
            ∀ localId ∈ drafts.map (·.localId), localId ∉ localIds) := by
  induction artifacts with
  | nil =>
      intro drafts seen localIds
      rw [parseBatch]
      constructor
      · intro h
        obtain rfl := (Prod.mk.inj h).1
        exact ⟨.nil, ⟨.nil, nofun⟩, .nil, nofun⟩
      · rintro ⟨hparses, -⟩
        cases hparses
        rfl
  | cons artifact rest ih =>
      intro drafts seen localIds
      rw [parseBatch_cons_iff]
      constructor
      · rintro ⟨draft, tail, rfl, hdraft, hpath, hid, htail⟩
        obtain ⟨hparses, ⟨hpaths, hseen⟩, hids, hknown⟩ := ih.mp htail
        simp only [List.map_cons, List.nodup_cons, List.forall_mem_cons]
        refine ⟨.cons hdraft hparses, ⟨⟨fun hmem => ?_, hpaths⟩, hpath, fun p hp hmem => ?_⟩,
          ⟨fun hmem => ?_, hids⟩, hid, fun i hi hmem => ?_⟩
        · exact hseen _ hmem List.mem_cons_self
        · exact hseen p hp (List.mem_cons_of_mem _ hmem)
        · exact hknown _ hmem List.mem_cons_self
        · exact hknown i hi (List.mem_cons_of_mem _ hmem)
      · rintro ⟨hparses, ⟨hpaths, hseen⟩, hids, hknown⟩
        cases hparses with
        | @cons _ draft _ tail hdraft hrest =>
            simp only [List.map_cons, List.nodup_cons, List.forall_mem_cons]
              at hpaths hseen hids hknown
            refine ⟨draft, tail, rfl, hdraft, hseen.1, hknown.1, ih.mpr ⟨hrest, ⟨hpaths.2, ?_⟩,
              hids.2, ?_⟩⟩
            · intro p hp hmem
              rcases List.mem_cons.mp hmem with rfl | hmem
              · exact hpaths.1 hp
              · exact hseen.2 p hp hmem
            · intro i hi hmem
              rcases List.mem_cons.mp hmem with rfl | hmem
              · exact hids.1 hi
              · exact hknown.2 i hi hmem

/-- The local id of a path. -/
def localIdAt (P : Python) (files : Source) (path : String) : String :=
  match parseFile P files path with
  | .ok parsed => parsed.localId
  | .error _ => ""

/-- A draft has the local id its file has. -/
theorem localId_of_parseArtifact {artifact : ArtifactSubmission} {draft : Draft}
    (h : parseArtifact P files artifact = .ok draft) :
    draft.localId = localIdAt P files artifact.path := by
  unfold parseArtifact at h
  unfold localIdAt
  cases hparse : parseFile P files artifact.path with
  | error e => rw [hparse] at h; cases h
  | ok parsed =>
      rw [hparse] at h
      obtain rfl := Except.ok.inj h
      rfl

theorem Parses.localIds_eq {artifacts : List ArtifactSubmission} {drafts : List Draft}
    (h : Parses P files artifacts drafts) :
    drafts.map (·.localId) = (artifacts.map (·.path)).map (localIdAt P files) := by
  induction h with
  | nil => rfl
  | cons hdraft _ ih => rw [List.map_cons, List.map_cons, List.map_cons, ih,
      localId_of_parseArtifact hdraft]

/-- The artifacts say what their drafts are. -/
theorem Parses.unique {artifacts : List ArtifactSubmission} {drafts drafts' : List Draft}
    (h : Parses P files artifacts drafts) (h' : Parses P files artifacts drafts') :
    drafts = drafts' := by
  induction h generalizing drafts' with
  | nil =>
      cases h'
      rfl
  | cons hdraft _ ih =>
      cases h' with
      | cons hdraft' hrest' => rw [Except.ok.inj (hdraft.symm.trans hdraft'), ih hrest']

/-- A path that comes twice is a local id that comes twice: the first pass
is over exactly where every artifact is parsed and the local ids differ. -/
theorem parseBatch_eq_iff_nodup {artifacts : List ArtifactSubmission} {drafts : List Draft} :
    parseBatch P files [] [] artifacts = (drafts, []) ↔
      Parses P files artifacts drafts ∧ (drafts.map (·.localId)).Nodup := by
  rw [parseBatch_eq_iff]
  constructor
  · rintro ⟨hparses, -, hids, -⟩
    exact ⟨hparses, hids⟩
  · rintro ⟨hparses, hids⟩
    refine ⟨hparses, ⟨?_, fun _ _ => List.not_mem_nil⟩, hids, fun _ _ => List.not_mem_nil⟩
    rw [hparses.localIds_eq] at hids
    exact hids.of_map _

-- ============================================================= references

/-- A dependency without an error names another local task. -/
theorem dependencyError_eq_none_iff {localIds existing : List String} {localId dep : String} :
    dependencyError P localIds existing localId dep = none ↔ dep ≠ localId ∧ dep ∈ localIds := by
  unfold dependencyError
  split
  next h => simp [h]
  next hself =>
    split
    next h => simp [hself, h]
    next hlocal =>
      split
      all_goals simp [hlocal]

theorem referenceErrors_code {localIds existing : List String} {draft : Draft} :
    ∀ error ∈ referenceErrors P localIds existing draft,
      error.code ≠ "task.derived_dependency_cycle" := by
  intro error h
  rcases List.mem_append.mp h with h | h
  · split at h
    next => obtain rfl := List.mem_singleton.mp h; simp
    next => cases h
  · obtain ⟨dep, -, herror⟩ := List.mem_filterMap.mp h
    unfold dependencyError at herror
    split at herror
    next => cases herror; simp
    next =>
      split at herror
      next => cases herror
      next =>
        split at herror
        all_goals
          cases herror
          simp

/-- Where the references have no error every dependency is local. -/
theorem named_of_referenceErrors {localIds existing : List String} {draft : Draft}
    (h : referenceErrors P localIds existing draft = []) :
    ∀ dep ∈ draft.dependencies, dep ∈ localIds := by
  intro dep hdep
  have hnone := List.filterMap_eq_nil_iff.mp (List.append_eq_nil_iff.mp h).2 dep hdep
  exact (dependencyError_eq_none_iff.mp hnone).2

-- ================================================================= cycles

/-- Where local ids differ, the draft of an id is the one found for it. -/
theorem find?_eq_some_iff {drafts : List Draft} (hids : (drafts.map (·.localId)).Nodup)
    {localId : String} {draft : Draft} :
    drafts.reverse.find? (·.localId = localId) = some draft ↔
      draft ∈ drafts ∧ draft.localId = localId := by
  constructor
  · intro h
    exact ⟨List.mem_reverse.mp (List.mem_of_find?_eq_some h),
      of_decide_eq_true (List.find?_some (p := fun d : Draft => decide (d.localId = localId)) h)⟩
  · rintro ⟨hmem, rfl⟩
    cases hfind : drafts.reverse.find? (·.localId = draft.localId) with
    | none =>
        have hnone := List.find?_eq_none.mp hfind draft (List.mem_reverse.mpr hmem)
        simp at hnone
    | some other =>
        have hother : other.localId = draft.localId := of_decide_eq_true
          (List.find?_some (p := fun d : Draft => decide (d.localId = draft.localId)) hfind)
        have hmem' := List.mem_reverse.mp (List.mem_of_find?_eq_some hfind)
        rw [List.inj_on_of_nodup_map hids hmem' hmem hother]

/-- Where local ids differ, an edge of the search is one of the graph. -/
theorem edge_iff {drafts : List Draft} (hids : (drafts.map (·.localId)).Nodup) {a b : String} :
    CycleSearch.Edge (localDependencies drafts) a b ↔ LocalEdge drafts a b := by
  unfold CycleSearch.Edge localDependencies LocalEdge
  rw [List.mem_filter, decide_eq_true_eq]
  constructor
  · rintro ⟨hmem, hlocal⟩
    cases hfind : drafts.reverse.find? (·.localId = a) with
    | none =>
        rw [hfind] at hmem
        cases hmem
    | some draft =>
        rw [hfind] at hmem
        obtain ⟨hdraft, hid⟩ := (find?_eq_some_iff hids).mp hfind
        exact ⟨draft, hdraft, hid, hmem, hlocal⟩
  · rintro ⟨draft, hdraft, hid, hdep, hlocal⟩
    rw [(find?_eq_some_iff hids).mpr ⟨hdraft, hid⟩]
    exact ⟨hdep, hlocal⟩

/-- The edges of the search lead to nodes. -/
theorem localDependencies_closed {drafts : List Draft} :
    ∀ a ∈ drafts.map (·.localId), ∀ b ∈ localDependencies drafts a,
      b ∈ drafts.map (·.localId) := by
  intro a _ b hb
  unfold localDependencies at hb
  exact of_decide_eq_true (List.mem_filter.mp hb).2

theorem localDependencies_nodes {drafts : List Draft} {a : String}
    (h : localDependencies drafts a ≠ []) : a ∈ drafts.map (·.localId) := by
  by_contra hnot
  refine h ?_
  have hnone : drafts.reverse.find? (·.localId = a) = none := by
    rw [List.find?_eq_none]
    intro draft hdraft heq
    exact hnot (List.mem_map.mpr ⟨draft, List.mem_reverse.mp hdraft, of_decide_eq_true heq⟩)
  unfold localDependencies
  rw [hnone]
  rfl

/-- Every error of the search is a cycle. -/
theorem derivedCycleErrors_code {drafts : List Draft} :
    ∀ error ∈ derivedCycleErrors drafts, error.code = "task.derived_dependency_cycle" := by
  intro error h
  obtain ⟨node, dep, between, rfl, -⟩ :=
    CycleSearch.search_sound localDependencies_closed error h
  rfl

/-- The search reports something exactly where the local dependency graph
has a cycle. -/
theorem derivedCycleErrors_eq_nil_iff {drafts : List Draft}
    (hids : (drafts.map (·.localId)).Nodup) :
    derivedCycleErrors drafts = [] ↔ ¬ HasLocalCycle drafts := by
  have hedge : CycleSearch.Edge (localDependencies drafts) = LocalEdge drafts := by
    funext a b
    exact propext (edge_iff hids)
  have hsearch : derivedCycleErrors drafts = [] ↔
      ∀ a, ¬ CycleSearch.OnCycle (localDependencies drafts) a :=
    CycleSearch.search_eq_nil_iff localDependencies_closed fun _ => localDependencies_nodes
  unfold CycleSearch.OnCycle at hsearch
  rw [hedge] at hsearch
  rw [hsearch]
  unfold HasLocalCycle
  rw [not_exists]

-- ============================================================= allocation

/-- The number an id spells is at most the highest. -/
theorem le_highestNumber {ids : List String} {id : String} {n : Nat} (hid : id ∈ ids)
    (hn : matchedNumber id = some n) : n ≤ highestNumber ids := by
  have hgrows : ∀ (ids : List String) (m : Nat), m ≤ ids.foldl
      (fun highest id => max highest ((matchedNumber id).getD 0)) m := by
    intro ids
    induction ids with
    | nil => exact fun m => le_refl m
    | cons id rest ih => exact fun m => le_trans (le_max_left _ _) (ih _)
  have hmem : ∀ (ids : List String) (m : Nat), id ∈ ids → n ≤ ids.foldl
      (fun highest id => max highest ((matchedNumber id).getD 0)) m := by
    intro ids
    induction ids with
    | nil => exact fun m h => absurd h List.not_mem_nil
    | cons other rest ih =>
        intro m h
        rcases List.mem_cons.mp h with rfl | h
        · refine le_trans ?_ (hgrows rest _)
          show n ≤ max m ((matchedNumber id).getD 0)
          rw [hn]
          exact le_max_right _ _
        · exact ih _ h
  exact hmem ids 0 hid

/-- A number above the highest is no id in use. -/
theorem toString_not_mem {ids : List String} {n : Nat} (h : highestNumber ids < n) :
    toString n ∉ ids := by
  intro hmem
  have hdigits : (toString n).toList = Nat.toDigits 10 n := Nat.toList_repr
  have hlast : (toString n).toList.getLast? ≠ some '\n' := by
    intro hlast
    have hdigit : ('\n' : Char).isDigit = true := Nat.isDigit_of_mem_toDigits (b := 10) (n := n)
      (by omega) (le_refl 10) (hdigits ▸ List.mem_of_getLast? hlast)
    cases hdigit
  have hmatched : matchedNumber (toString n) = some n := by
    unfold matchedNumber
    rw [if_neg hlast]
    exact numericTaskId_toString (by omega)
  exact absurd (le_highestNumber hmem hmatched) (by omega)

theorem toString_injective : Function.Injective (toString : Nat → String) := by
  intro m n h
  have hdigits : ∀ k : Nat, (toString k).toList = Nat.toDigits 10 k := fun k => Nat.toList_repr
  exact Json.toDigits_inj (by rw [← hdigits, ← hdigits, h])

/-- The id a local id gets. -/
def idOf (drafts : List Draft) (existing : List String) (localId : String) : TaskId :=
  ((allocateNumericTaskIds (drafts.map (·.localId)) existing).lookup localId).getD ""

/-- The ids are the numbers from one on, in the order of the local ids. -/
theorem lookup_zip_range' {localIds : List String} {localId : String} (h : localId ∈ localIds) :
    ∀ start : Nat, (localIds.zip ((List.range' start localIds.length).map toString)).lookup
      localId = some (toString (start + localIds.idxOf localId)) := by
  induction localIds with
  | nil => cases h
  | cons other rest ih =>
      intro start
      rw [List.length_cons, List.range'_succ, List.map_cons, List.zip_cons_cons,
        List.lookup_cons]
      by_cases heq : localId = other
      · subst heq
        simp
      · have hrest : localId ∈ rest := (List.mem_cons.mp h).resolve_left heq
        rw [beq_false_of_ne heq, ih hrest, List.idxOf_cons_ne _ (Ne.symm heq)]
        exact congrArg some (congrArg toString (by omega))

theorem idOf_eq {drafts : List Draft} {existing : List String} {localId : String}
    (h : localId ∈ drafts.map (·.localId)) : idOf drafts existing localId =
      toString (highestNumber existing + 1 + (drafts.map (·.localId)).idxOf localId) := by
  unfold idOf allocateNumericTaskIds
  rw [lookup_zip_range' h]
  rfl

/-- Two local ids get two ids. -/
theorem idOf_injOn (drafts : List Draft) (existing : List String) :
    Set.InjOn (idOf drafts existing) {localId | localId ∈ drafts.map (·.localId)} := by
  intro a ha b hb h
  rw [idOf_eq ha, idOf_eq hb] at h
  have hindex := toString_injective h
  exact (List.idxOf_inj ha).mp (by omega)

/-- An id in use is not given again. -/
theorem idOf_fresh {drafts : List Draft} {existing : List String} {localId : String}
    (h : localId ∈ drafts.map (·.localId)) : idOf drafts existing localId ∉ existing := by
  rw [idOf_eq h]
  exact toString_not_mem (by omega)

-- ================================================================ planning

/-- Where the local graph has no cycle that of the planned tasks has none. -/
theorem acyclic_of_local {drafts : List Draft} {existing : List String}
    {tasks : List PlannedTask}
    (htasks : ∀ planned ∈ tasks, ∃ draft ∈ drafts, planned.task.id =
      idOf drafts existing draft.localId ∧
        planned.task.dependencies = draft.dependencies.map (idOf drafts existing))
    (hnamed : ∀ draft ∈ drafts, ∀ dep ∈ draft.dependencies, dep ∈ drafts.map (·.localId))
    (hlocal : ¬ HasLocalCycle drafts) (id : TaskId) :
    ¬ Relation.TransGen (DependsOn tasks) id id := by
  intro hcycle
  have hleft := (idOf_injOn drafts existing).leftInvOn_invFunOn
  refine hlocal ⟨_, Relation.TransGen.lift
    (Function.invFunOn (idOf drafts existing) {localId | localId ∈ drafts.map (·.localId)})
    ?_ _ _ hcycle⟩
  rintro a b ⟨planned, hplanned, rfl, hb⟩
  obtain ⟨draft, hdraft, hid, hdeps⟩ := htasks planned hplanned
  rw [hdeps] at hb
  obtain ⟨dep, hdep, rfl⟩ := List.mem_map.mp hb
  have hmem : draft.localId ∈ drafts.map (·.localId) := List.mem_map_of_mem hdraft
  show LocalEdge drafts _ _
  rw [hid, hleft hmem, hleft (hnamed draft hdraft dep hdep)]
  exact ⟨draft, hdraft, rfl, hdep, hnamed draft hdraft dep hdep⟩

/-- The codes of the errors of a body. -/
def schemaCodes : List String :=
  ["task.duplicate_heading", "task.section_missing", "task.acceptance_run_forbidden",
    "task.acceptance_criteria_missing", "task.section_empty"]

theorem validateTaskSchema_codes {body : Frozen.Prompt.Text} {location : String} :
    ∀ error ∈ validateTaskSchema body location, error.code ∈ schemaCodes := by
  intro error h
  unfold validateTaskSchema at h
  rcases List.mem_append.mp h with h | h
  · rcases List.mem_append.mp h with h | h
    · unfold validateTaskStructure at h
      rcases List.mem_append.mp h with h | h
      · simp at h
      · obtain ⟨name, -, rfl⟩ := List.mem_map.mp h
        simp [schemaCodes]
    · split at h
      next => cases h
      next => obtain rfl := List.mem_singleton.mp h; simp [schemaCodes]
  · obtain ⟨name, -, h⟩ := List.mem_flatMap.mp h
    unfold sectionErrors at h
    split at h
    next => obtain rfl := List.mem_singleton.mp h; simp [schemaCodes]
    next content _ =>
      split at h
      next =>
        rcases List.mem_append.mp h with h | h
        · obtain ⟨line, -, rfl⟩ := List.mem_map.mp h
          simp [schemaCodes]
        · split at h
          next => obtain rfl := List.mem_singleton.mp h; simp [schemaCodes]
          next => cases h
      next =>
        split at h
        next => cases h
        next => obtain rfl := List.mem_singleton.mp h; simp [schemaCodes]

/-- No error of a body is a cycle. -/
theorem validateTaskSchema_code {body : Frozen.Prompt.Text} {location : String} :
    ∀ error ∈ validateTaskSchema body location,
      error.code ≠ "task.derived_dependency_cycle" := by
  intro error h hcycle
  have hcode := validateTaskSchema_codes error h
  rw [hcycle] at hcode
  exact absurd hcode (by decide)

theorem schemaErrors_code {workflow : Option WorkflowDefinition} {planned : PlannedTask}
    {location : String} : ∀ error ∈ schemaErrors workflow planned location,
      error.code ≠ "task.derived_dependency_cycle" := by
  intro error h
  unfold schemaErrors at h
  split at h
  next =>
    split at h
    next => exact validateTaskSchema_code error h
    next => cases h
  next => cases h

/-- The drafts that pass are planned as they have to be. -/
theorem planned_wellFormed {artifacts : List ArtifactSubmission} {drafts : List Draft}
    {derives : DerivesDefinition} {parentId : TaskId} {existing : List String}
    (hparses : Parses P files artifacts drafts) (hids : (drafts.map (·.localId)).Nodup)
    (hreferences : ∀ draft ∈ drafts,
      referenceErrors P (drafts.map (·.localId)) existing draft = [])
    (hcycles : derivedCycleErrors drafts = []) :
    WellFormed P files artifacts existing drafts (idOf drafts existing)
      (drafts.map (derivedTask derives parentId
        (allocateNumericTaskIds (drafts.map (·.localId)) existing))) := by
  have hnamed : ∀ draft ∈ drafts, ∀ dep ∈ draft.dependencies, dep ∈ drafts.map (·.localId) :=
    fun draft hdraft => named_of_referenceErrors (hreferences draft hdraft)
  refine ⟨hparses, hids, ?_, hnamed, ?_, ?_, ?_⟩
  · rw [List.forall₂_map_right_iff, List.forall₂_same]
    exact fun draft _ => ⟨rfl, rfl, rfl, rfl⟩
  · have hmap : (drafts.map (derivedTask derives parentId (allocateNumericTaskIds
        (drafts.map (·.localId)) existing))).map (·.task.id) =
        (drafts.map (·.localId)).map (idOf drafts existing) := by
      rw [List.map_map, List.map_map]
      rfl
    rw [hmap]
    exact hids.map_on fun a ha b hb => idOf_injOn drafts existing ha hb
  · intro planned hplanned
    obtain ⟨draft, hdraft, rfl⟩ := List.mem_map.mp hplanned
    exact idOf_fresh (List.mem_map_of_mem hdraft)
  · refine @acyclic_of_local _ existing _ (fun planned hplanned => ?_) hnamed
      ((derivedCycleErrors_eq_nil_iff hids).mp hcycles)
    obtain ⟨draft, hdraft, rfl⟩ := List.mem_map.mp hplanned
    exact ⟨draft, hdraft, rfl, rfl⟩

/-- A plan is whole or it is errors. -/
def WholeOrRejected (P : Python) (files : Source) (artifacts : List ArtifactSubmission)
    (existing : List String) (plan : List PlannedTask × List DomainError) : Prop :=
  (plan.2 ≠ [] ∧ plan.1 = []) ∨
    (plan.2 = [] ∧ ∃ drafts ids, WellFormed P files artifacts existing drafts ids plan.1)

/-- The second pass over a batch that was parsed. -/
theorem planDrafts_spec {artifacts : List ArtifactSubmission} {drafts : List Draft}
    (derives : DerivesDefinition) (parentId : TaskId) (existing : List String)
    (workflow : Option WorkflowDefinition) (hparses : Parses P files artifacts drafts)
    (hids : (drafts.map (·.localId)).Nodup) :
    WholeOrRejected P files artifacts existing
        (planDrafts P derives parentId existing workflow drafts) ∧
      (ReportsCycle (planDrafts P derives parentId existing workflow drafts).2 ↔
        HasLocalCycle drafts) := by
  unfold planDrafts
  dsimp only
  split
  next herrors =>
    refine ⟨.inl ⟨herrors, rfl⟩, ?_⟩
    rw [← not_iff_not, ← derivedCycleErrors_eq_nil_iff hids]
    constructor
    · intro hnone
      rw [List.eq_nil_iff_forall_not_mem]
      intro error herror
      exact hnone ⟨error, List.mem_append_right _ herror, derivedCycleErrors_code error herror⟩
    · rintro hnil ⟨error, herror, hcode⟩
      rcases List.mem_append.mp herror with herror | herror
      · obtain ⟨draft, -, herror⟩ := List.mem_flatMap.mp herror
        exact referenceErrors_code error herror hcode
      · rw [hnil] at herror
        cases herror
  next herrors =>
    obtain ⟨hreferences, hcycles⟩ := List.append_eq_nil_iff.mp (not_not.mp herrors)
    have hacyclic := (derivedCycleErrors_eq_nil_iff hids).mp hcycles
    split
    next hschema =>
      refine ⟨.inl ⟨hschema, rfl⟩, iff_of_false ?_ hacyclic⟩
      rintro ⟨error, herror, hcode⟩
      obtain ⟨draft, -, herror⟩ := List.mem_flatMap.mp herror
      exact schemaErrors_code error herror hcode
    next hschema =>
      refine ⟨.inr ⟨not_not.mp hschema, drafts, idOf drafts existing, ?_⟩, iff_of_false ?_ hacyclic⟩
      · exact planned_wellFormed hparses hids (List.flatMap_eq_nil_iff.mp hreferences) hcycles
      · rintro ⟨error, herror, -⟩
        rw [not_not.mp hschema] at herror
        cases herror

/-- The drafts of those artifacts that are parsed. -/
def localDrafts (P : Python) (files : Source) (artifacts : List ArtifactSubmission) :
    List Draft :=
  artifacts.filterMap fun artifact => (parseArtifact P files artifact).toOption

/-- A reader of the frontmatter of two files that wait for each other. -/
def mutualPython : Python where
  yaml raw :=
    if raw = "\nlocal_id: a\ndependencies: b\n".toList then
      .ok (.map [(.str "local_id", .str "a"), (.str "dependencies", .str "b")])
    else if raw = "\nlocal_id: b\ndependencies: a\n".toList then
      .ok (.map [(.str "local_id", .str "b"), (.str "dependencies", .str "a")])
    else .error "mapping values are not allowed here"
  repr s := "'" ++ s ++ "'"

/-- Two files that wait for each other; there is no third. -/
def mutualFiles : Source where
  read path :=
    if path = "a.md" then
      .ok "---\nlocal_id: a\ndependencies: b\n---\n# A\n".toList
    else if path = "b.md" then
      .ok "---\nlocal_id: b\ndependencies: a\n---\n# B\n".toList
    else .error (.os ("[Errno 2] No such file or directory: " ++ path))
  location path := "/out/" ++ path
  promotedArtifactLinks _ := none

/-- The two files and one that is missing. -/
def mutualArtifacts : List ArtifactSubmission :=
  [⟨"DerivedTask", "a.md"⟩, ⟨"DerivedTask", "b.md"⟩, ⟨"DerivedTask", "c.md"⟩]

end OpenTulid.Derived
