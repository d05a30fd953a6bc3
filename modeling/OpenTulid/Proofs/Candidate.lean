/-
The delta of a candidate is its change from the baseline, and the report of
a verification says the same.

# The delta

`changeAt` is what the two dictionaries say of one path. The delta consists
of these changes and nothing else (`mem_computeDelta`), each path at most
once (`nodup_delta`), so replaying it on the baseline's surface gives the
candidate's, path by path (`agree_replay`). Where the baseline never
recorded a mode there is none to compare with, which is what `Agree` leaves
open.

# The report

Pairing moves a path from the added and one from the removed paths into a
pair of the same content, and nothing else (`Pairs`); so the added paths
with the new names of the pairs are the added paths of the delta, and the
removed paths with the old names the deleted ones.
-/
import OpenTulid.Runtime.Candidate
import OpenTulid.Lib.Patch

namespace OpenTulid.Frozen

-- ============================================================ dictionaries

theorem path_of_entryOf {entries : List FileManifestEntry} {path : String}
    {entry : FileManifestEntry} (h : entryOf entries path = some entry) : entry.path = path := by
  unfold entryOf at h
  simpa using List.find?_some h

theorem mem_paths {entries : List FileManifestEntry} {path : String} :
    path ∈ paths entries ↔ (entryOf entries path).isSome = true := by
  unfold paths entryOf
  rw [List.mem_dedup, List.mem_map, List.find?_isSome]
  simp only [List.mem_reverse, decide_eq_true_eq]

theorem mem_missingFrom {other entries : List FileManifestEntry} {path : String} :
    path ∈ missingFrom other entries ↔
      (entryOf entries path).isSome = true ∧ entryOf other path = none := by
  unfold missingFrom
  rw [List.mem_filter, mem_paths, decide_eq_true_eq, mem_paths, Bool.not_eq_true,
    Option.isSome_eq_false_iff, Option.isNone_iff_eq_none]

theorem nodup_missingFrom (other entries : List FileManifestEntry) :
    (missingFrom other entries).Nodup :=
  (List.nodup_dedup _).filter _

theorem inOrder_perm (names : List String) : (inOrder names).Perm names :=
  List.perm_insertionSort _ _

theorem mem_inOrder {names : List String} {name : String} : name ∈ inOrder names ↔ name ∈ names :=
  (inOrder_perm names).mem_iff

/-- The paths of changes found path by path are the paths where one is
found. -/
theorem map_path_filterMap {f : String → Option CandidateChange}
    (hf : ∀ path change, f path = some change → change.path = path) (names : List String) :
    (names.filterMap f).map CandidateChange.path = names.filter fun path => (f path).isSome := by
  induction names with
  | nil => rfl
  | cons path rest ih =>
      cases hpath : f path with
      | none => rw [List.filterMap_cons_none hpath, List.filter_cons_of_neg (by simp [hpath]), ih]
      | some change =>
          rw [List.filterMap_cons_some hpath, List.filter_cons_of_pos (by simp [hpath]),
            List.map_cons, ih, hf path change hpath]

-- =============================================================== the delta

/-- What the dictionaries say of one path. -/
def changeAt (before after : List FileManifestEntry) (path : String) : Option CandidateChange :=
  match entryOf before path, entryOf after path with
  | none, none => none
  | none, some a => some (addedFile a)
  | some b, none => some (deletedFile b)
  | some b, some a => if differs b a then some (editedFile b a) else none

section Delta

variable {baseline candidate : BaselineManifest}

theorem path_of_changeAt {before after : List FileManifestEntry} {path : String}
    {change : CandidateChange} (h : changeAt before after path = some change) :
    change.path = path := by
  unfold changeAt at h
  split at h
  next => cases h
  next a _ ha =>
    cases h
    exact path_of_entryOf ha
  next b hb _ =>
    cases h
    exact path_of_entryOf hb
  next b a hb _ =>
    split at h
    next =>
      cases h
      exact path_of_entryOf hb
    next => cases h

theorem path_of_editOf {before after : List FileManifestEntry} {path : String}
    {change : CandidateChange} (h : editOf before after path = some change) :
    change.path = path := by
  unfold editOf at h
  split at h
  next b a hb _ =>
    split at h
    next =>
      cases h
      exact path_of_entryOf hb
    next => cases h
  next => cases h

/-- The delta consists of the changes of the single paths. -/
theorem mem_computeDelta {change : CandidateChange} :
    change ∈ computeDelta (some baseline) candidate ↔
      ∃ path, changeAt baseline.entries candidate.entries path = some change := by
  unfold computeDelta
  simp only [List.mem_append, List.mem_filterMap, mem_inOrder, mem_missingFrom, List.mem_filter,
    mem_paths, decide_eq_true_eq, Option.map_eq_some_iff, or_assoc]
  constructor
  · rintro (⟨path, ⟨-, hb⟩, a, ha, rfl⟩ | ⟨path, ⟨-, ha⟩, b, hb, rfl⟩ | ⟨path, -, hedit⟩)
    · exact ⟨path, by rw [changeAt, hb, ha]⟩
    · exact ⟨path, by rw [changeAt, hb, ha]⟩
    · refine ⟨path, ?_⟩
      unfold editOf at hedit
      split at hedit
      next b a hb ha =>
        rw [changeAt, hb, ha]
        exact hedit
      next => cases hedit
  · rintro ⟨path, h⟩
    unfold changeAt at h
    split at h
    next => cases h
    next a hb ha =>
      exact .inl ⟨path, ⟨by rw [ha]; rfl, hb⟩, a, ha, Option.some.inj h⟩
    next b hb ha =>
      exact .inr (.inl ⟨path, ⟨by rw [hb]; rfl, ha⟩, b, hb, Option.some.inj h⟩)
    next b a hb ha =>
      refine .inr (.inr ⟨path, ⟨by rw [hb]; rfl, by rw [ha]; rfl⟩, ?_⟩)
      rw [editOf, hb, ha]
      exact h

/-- The paths of the delta, kind by kind. -/
theorem paths_computeDelta :
    (computeDelta (some baseline) candidate).map CandidateChange.path =
      inOrder (missingFrom baseline.entries candidate.entries) ++
        inOrder (missingFrom candidate.entries baseline.entries) ++
        (inOrder ((paths baseline.entries).filter (· ∈ paths candidate.entries))).filter
          fun path => (editOf baseline.entries candidate.entries path).isSome := by
  unfold computeDelta
  have hadded : ∀ path change,
      (entryOf candidate.entries path).map addedFile = some change → change.path = path := by
    intro path change h
    obtain ⟨a, ha, rfl⟩ := Option.map_eq_some_iff.mp h
    exact path_of_entryOf ha
  have hdeleted : ∀ path change,
      (entryOf baseline.entries path).map deletedFile = some change → change.path = path := by
    intro path change h
    obtain ⟨b, hb, rfl⟩ := Option.map_eq_some_iff.mp h
    exact path_of_entryOf hb
  dsimp only
  rw [List.map_append, List.map_append, map_path_filterMap hadded, map_path_filterMap hdeleted,
    map_path_filterMap fun _ _ => path_of_editOf]
  congr 2
  · refine List.filter_eq_self.mpr fun path hpath => ?_
    rw [Option.isSome_map]
    exact (mem_missingFrom.mp (mem_inOrder.mp hpath)).1
  · refine List.filter_eq_self.mpr fun path hpath => ?_
    rw [Option.isSome_map]
    exact (mem_missingFrom.mp (mem_inOrder.mp hpath)).1

/-- No path is changed twice. -/
theorem nodup_delta : ((computeDelta (some baseline) candidate).map CandidateChange.path).Nodup := by
  rw [paths_computeDelta]
  have hedited : ((inOrder ((paths baseline.entries).filter
      (· ∈ paths candidate.entries))).filter fun path =>
        (editOf baseline.entries candidate.entries path).isSome).Nodup :=
    (((inOrder_perm _).nodup_iff.mpr ((List.nodup_dedup _).filter _))).filter _
  refine List.nodup_append'.mpr ⟨List.nodup_append'.mpr ⟨?_, ?_, ?_⟩, hedited, ?_⟩
  · exact (inOrder_perm _).nodup_iff.mpr (nodup_missingFrom _ _)
  · exact (inOrder_perm _).nodup_iff.mpr (nodup_missingFrom _ _)
  · intro path hadded hdeleted
    have hnone := (mem_missingFrom.mp (mem_inOrder.mp hadded)).2
    have hsome := (mem_missingFrom.mp (mem_inOrder.mp hdeleted)).1
    rw [hnone] at hsome
    cases hsome
  · intro path hone hboth
    have hpath := List.mem_filter.mp (mem_inOrder.mp (List.mem_filter.mp hboth).1)
    have hbefore := mem_paths.mp hpath.1
    have hafter := mem_paths.mp (of_decide_eq_true hpath.2)
    rcases List.mem_append.mp hone with hone | hone
    · rw [(mem_missingFrom.mp (mem_inOrder.mp hone)).2] at hbefore
      cases hbefore
    · rw [(mem_missingFrom.mp (mem_inOrder.mp hone)).2] at hafter
      cases hafter

-- =============================================================== replaying

/-- The content and the mode of each path. -/
def surface (entries : List FileManifestEntry) (path : String) :
    Option (String × Option Given) :=
  (entryOf entries path).map fun entry => (entry.sha256, entry.mode)

/-- What a change makes of its path. -/
def CandidateChange.effect (change : CandidateChange) :
    String × Option (String × Option Given) :=
  match change.kind with
  | .delete => (change.path, none)
  | _ => (change.path, change.afterSha256.map fun sha256 => (sha256, change.afterMode))

/-- The changes made on a surface. -/
def replay (changes : List CandidateChange) :
    (String → Option (String × Option Given)) → String → Option (String × Option Given) :=
  Patch.apply (changes.map CandidateChange.effect)

/-- Two files are the same, as far as the first was recorded. -/
def Agree : Option (String × Option Given) → Option (String × Option Given) → Prop
  | none, none => True
  | some (sha256, none), some (sha256', _) => sha256 = sha256'
  | some (sha256, some mode), some (sha256', mode') => sha256 = sha256' ∧ mode' = some mode
  | _, _ => False

theorem Agree.refl (file : Option (String × Option Given)) : Agree file file := by
  match file with
  | none => trivial
  | some (_, none) => rfl
  | some (_, some _) => exact ⟨rfl, rfl⟩

theorem agree_iff_not_differs {before after : FileManifestEntry} :
    Agree (some (before.sha256, before.mode)) (some (after.sha256, after.mode)) ↔
      differs before after = false := by
  unfold differs
  cases hmode : before.mode with
  | none => simp [Agree]
  | some mode =>
      simp only [Agree, Option.isSome_some, Bool.true_and, Bool.or_eq_false_iff,
        decide_eq_false_iff_not, not_not]
      exact and_congr_right' eq_comm

/-- A path is not changed exactly where the two surfaces agree. -/
theorem changeAt_eq_none_iff {before after : List FileManifestEntry} {path : String} :
    changeAt before after path = none ↔ Agree (surface before path) (surface after path) := by
  unfold changeAt surface
  cases entryOf before path with
  | none =>
      cases entryOf after path with
      | none => exact ⟨fun _ => trivial, fun _ => rfl⟩
      | some a => exact ⟨nofun, fun h => h.elim⟩
  | some b =>
      cases entryOf after path with
      | none =>
          refine ⟨nofun, fun h => ?_⟩
          rw [Option.map_some, Option.map_none] at h
          cases hmode : b.mode with
          | none =>
              rw [hmode] at h
              exact h.elim
          | some mode =>
              rw [hmode] at h
              exact h.elim
      | some a =>
          dsimp only
          rw [Option.map_some, Option.map_some, agree_iff_not_differs]
          cases differs b a with
          | true => exact ⟨nofun, nofun⟩
          | false => exact ⟨fun _ => rfl, fun _ => rfl⟩

/-- What a change makes of its path is what the candidate has there. -/
theorem effect_of_changeAt {before after : List FileManifestEntry} {path : String}
    {change : CandidateChange} (h : changeAt before after path = some change) :
    change.effect = (path, surface after path) := by
  have hpath := path_of_changeAt h
  unfold surface
  unfold changeAt at h
  split at h
  next => cases h
  next a _ ha =>
    cases h
    rw [ha, ← hpath]
    rfl
  next b hb ha =>
    cases h
    rw [ha, ← hpath]
    rfl
  next b a hb ha =>
    split at h
    next =>
      cases h
      rw [ha, ← hpath]
      rfl
    next => cases h

/-- The delta takes the surface of the baseline to that of the candidate. -/
theorem agree_replay (path : String) :
    Agree (replay (computeDelta (some baseline) candidate) (surface baseline.entries) path)
      (surface candidate.entries path) := by
  have hkeys : (((computeDelta (some baseline) candidate).map
      CandidateChange.effect).map Prod.fst) =
        (computeDelta (some baseline) candidate).map CandidateChange.path := by
    rw [List.map_map]
    refine List.map_congr_left fun change _ => ?_
    show (CandidateChange.effect change).1 = change.path
    unfold CandidateChange.effect
    split <;> rfl
  unfold replay
  cases h : changeAt baseline.entries candidate.entries path with
  | none =>
      rw [Patch.apply_of_not_mem]
      · exact changeAt_eq_none_iff.mp h
      · rw [hkeys]
        intro hmem
        obtain ⟨change, hchange, rfl⟩ := List.mem_map.mp hmem
        obtain ⟨other, hother⟩ := mem_computeDelta.mp hchange
        rw [path_of_changeAt hother, hother] at h
        cases h
  | some change =>
      have hmem : (path, surface candidate.entries path) ∈
          (computeDelta (some baseline) candidate).map CandidateChange.effect := by
        rw [← effect_of_changeAt h]
        exact List.mem_map_of_mem (mem_computeDelta.mpr ⟨path, h⟩)
      rw [Patch.apply_of_mem (hkeys ▸ nodup_delta) hmem]
      exact Agree.refl _

theorem computeDelta_eq_nil_iff :
    computeDelta (some baseline) candidate = [] ↔
      ∀ path, Agree (surface baseline.entries path) (surface candidate.entries path) := by
  rw [List.eq_nil_iff_forall_not_mem]
  simp only [mem_computeDelta, not_exists, ← changeAt_eq_none_iff]
  constructor
  · intro h path
    cases hpath : changeAt baseline.entries candidate.entries path with
    | none => rfl
    | some change => exact absurd hpath (h change path)
  · intro h change path hpath
    rw [h path] at hpath
    cases hpath

-- ============================================================== the report

/-- The paths of the changes of a kind, in their order. -/
def pathsOf (kind : ChangeKind) (changes : List CandidateChange) : List String :=
  (changes.filter fun change => change.kind = kind).map CandidateChange.path

theorem filter_kind_self {f : String → Option CandidateChange} {kind : ChangeKind}
    (hf : ∀ path change, f path = some change → change.kind = kind) (names : List String) :
    ((names.filterMap f).filter fun change => change.kind = kind) = names.filterMap f := by
  refine List.filter_eq_self.mpr fun change hchange => ?_
  obtain ⟨path, -, hpath⟩ := List.mem_filterMap.mp hchange
  exact decide_eq_true (hf path change hpath)

theorem filter_kind_ne {f : String → Option CandidateChange} {kind other : ChangeKind}
    (hf : ∀ path change, f path = some change → change.kind = kind) (hne : kind ≠ other)
    (names : List String) :
    ((names.filterMap f).filter fun change => change.kind = other) = [] := by
  refine List.filter_eq_nil_iff.mpr fun change hchange hkind => ?_
  obtain ⟨path, -, hpath⟩ := List.mem_filterMap.mp hchange
  exact hne ((hf path change hpath).symm.trans (of_decide_eq_true hkind))

theorem kind_added {entries : List FileManifestEntry} (path : String) (change : CandidateChange)
    (h : (entryOf entries path).map addedFile = some change) : change.kind = .add := by
  obtain ⟨a, -, rfl⟩ := Option.map_eq_some_iff.mp h
  rfl

theorem kind_deleted {entries : List FileManifestEntry} (path : String) (change : CandidateChange)
    (h : (entryOf entries path).map deletedFile = some change) : change.kind = .delete := by
  obtain ⟨a, -, rfl⟩ := Option.map_eq_some_iff.mp h
  rfl

theorem kind_edited {before after : List FileManifestEntry} (path : String)
    (change : CandidateChange) (h : editOf before after path = some change) :
    change.kind = .edit := by
  unfold editOf at h
  split at h
  next =>
    split at h
    next =>
      cases h
      rfl
    next => cases h
  next => cases h

/-- The files the delta adds. -/
theorem pathsOf_add : pathsOf .add (computeDelta (some baseline) candidate) =
    inOrder (missingFrom baseline.entries candidate.entries) := by
  unfold pathsOf computeDelta
  dsimp only
  rw [List.filter_append, List.filter_append, filter_kind_self kind_added,
    filter_kind_ne kind_deleted (by decide), filter_kind_ne kind_edited (by decide), List.append_nil,
    List.append_nil, map_path_filterMap]
  · refine List.filter_eq_self.mpr fun path hpath => ?_
    rw [Option.isSome_map]
    exact (mem_missingFrom.mp (mem_inOrder.mp hpath)).1
  · intro path change h
    obtain ⟨a, ha, rfl⟩ := Option.map_eq_some_iff.mp h
    exact path_of_entryOf ha

/-- The files the delta deletes. -/
theorem pathsOf_delete : pathsOf .delete (computeDelta (some baseline) candidate) =
    inOrder (missingFrom candidate.entries baseline.entries) := by
  unfold pathsOf computeDelta
  dsimp only
  rw [List.filter_append, List.filter_append, filter_kind_self kind_deleted,
    filter_kind_ne kind_added (by decide), filter_kind_ne kind_edited (by decide), List.append_nil,
    List.nil_append, map_path_filterMap]
  · refine List.filter_eq_self.mpr fun path hpath => ?_
    rw [Option.isSome_map]
    exact (mem_missingFrom.mp (mem_inOrder.mp hpath)).1
  · intro path change h
    obtain ⟨b, hb, rfl⟩ := Option.map_eq_some_iff.mp h
    exact path_of_entryOf hb

/-- Sorting what is left after a filter is filtering what is sorted. -/
theorem inOrder_filter (keep : String → Bool) (names : List String) :
    inOrder (names.filter keep) = (inOrder names).filter keep := by
  refine List.Perm.eq_of_pairwise' (r := (· ≤ ·)) ?_ ?_ ?_
  · exact List.pairwise_insertionSort _ _
  · exact (List.pairwise_insertionSort _ _).filter _
  · exact (inOrder_perm _).trans ((inOrder_perm names).symm.filter _)

/-- The files the delta edits are those the report calls edited. -/
theorem pathsOf_edit : pathsOf .edit (computeDelta (some baseline) candidate) =
    (manifestChanges baseline candidate).edited := by
  unfold pathsOf computeDelta manifestChanges editedPaths
  dsimp only
  rw [List.filter_append, List.filter_append, filter_kind_self kind_edited,
    filter_kind_ne kind_added (by decide), filter_kind_ne kind_deleted (by decide), List.nil_append,
    List.nil_append, map_path_filterMap fun _ _ => path_of_editOf, inOrder_filter _ (List.filter _ _)]
  refine List.filter_congr fun path _ => ?_
  unfold editOf
  split
  next b a _ _ => cases differs b a <;> rfl
  next => rfl

/-- A state of the pairing: every path still unpaired or in a pair, and the
pairs of one content. -/
structure Pairs (before after : List FileManifestEntry) (added removed : List String)
    (pairing : Pairing) : Prop where
  added : (pairing.added ++ pairing.renamed.map Prod.snd).Perm added
  removed : (pairing.removed ++ pairing.renamed.map Prod.fst).Perm removed
  same : ∀ pair ∈ pairing.renamed,
    (entryOf before pair.1).map FileManifestEntry.sha256 =
      (entryOf after pair.2).map FileManifestEntry.sha256

/-- One pair more. -/
theorem Pairs.pair {before after : List FileManifestEntry} {added removed : List String}
    {pairing : Pairing} {old new : String} (h : Pairs before after added removed pairing)
    (hold : old ∈ pairing.removed) (hmatch : matchesOf before after old pairing.added = [new]) :
    Pairs before after added removed {
      added := pairing.added.erase new
      removed := pairing.removed.erase old
      renamed := pairing.renamed ++ [(old, new)] } := by
  have hnew : new ∈ pairing.added ∧ (entryOf before old).map FileManifestEntry.sha256 =
      (entryOf after new).map FileManifestEntry.sha256 := by
    have hmem : new ∈ matchesOf before after old pairing.added := by
      rw [hmatch]
      exact List.mem_singleton_self new
    unfold matchesOf at hmem
    have hfilter := List.mem_filter.mp (mem_inOrder.mp hmem)
    exact ⟨hfilter.1, of_decide_eq_true hfilter.2⟩
  constructor
  · refine List.Perm.trans ?_ h.added
    rw [List.map_append, List.map_singleton]
    refine ((List.perm_append_comm.append_left _).trans ?_)
    show ((pairing.added.erase new) ++ ([new] ++ pairing.renamed.map Prod.snd)).Perm _
    rw [← List.append_assoc]
    refine List.Perm.append_right _ ?_
    exact List.perm_append_comm.trans (List.perm_cons_erase hnew.1).symm
  · refine List.Perm.trans ?_ h.removed
    rw [List.map_append, List.map_singleton]
    refine ((List.perm_append_comm.append_left _).trans ?_)
    show ((pairing.removed.erase old) ++ ([old] ++ pairing.renamed.map Prod.fst)).Perm _
    rw [← List.append_assoc]
    refine List.Perm.append_right _ ?_
    exact List.perm_append_comm.trans (List.perm_cons_erase hold).symm
  · intro pair hpair
    rcases List.mem_append.mp hpair with hpair | hpair
    · exact h.same pair hpair
    · rw [List.mem_singleton.mp hpair]
      exact hnew.2

/-- The pairing of removed paths that are still there, each looked at once. -/
theorem Pairs.pairRenames {before after : List FileManifestEntry} {added removed : List String}
    {olds : List String} {pairing : Pairing} (h : Pairs before after added removed pairing)
    (hnodup : olds.Nodup) (holds : ∀ old ∈ olds, old ∈ pairing.removed) :
    Pairs before after added removed (Frozen.pairRenames before after olds pairing) := by
  induction olds generalizing pairing with
  | nil => exact h
  | cons old rest ih =>
      obtain ⟨hold, hrest⟩ := List.forall_mem_cons.mp holds
      obtain ⟨hnot, hnodup⟩ := List.nodup_cons.mp hnodup
      unfold Frozen.pairRenames
      split
      next new hmatch =>
        refine ih (h.pair hold hmatch) hnodup fun other hother => ?_
        have hne : other ≠ old := fun heq => hnot (heq ▸ hother)
        exact (List.mem_erase_of_ne hne).mpr (hrest other hother)
      next => exact ih h hnodup hrest

/-- The report of a verification says what a delta says: the same edited
files, and with the pairs taken apart the same added and removed ones. -/
structure SameChange (changes : List CandidateChange) (report : ManifestChanges)
    (before after : List FileManifestEntry) : Prop where
  edited : report.edited = pathsOf .edit changes
  added : (report.added ++ report.renamed.map Prod.snd).Perm (pathsOf .add changes)
  removed : (report.removed ++ report.renamed.map Prod.fst).Perm (pathsOf .delete changes)
  same : ∀ pair ∈ report.renamed,
    (entryOf before pair.1).map FileManifestEntry.sha256 =
      (entryOf after pair.2).map FileManifestEntry.sha256

theorem sameChange_report :
    SameChange (computeDelta (some baseline) candidate) (manifestChanges baseline candidate)
      baseline.entries candidate.entries := by
  have hstart : Pairs baseline.entries candidate.entries
      (missingFrom baseline.entries candidate.entries)
      (missingFrom candidate.entries baseline.entries) {
        added := missingFrom baseline.entries candidate.entries
        removed := missingFrom candidate.entries baseline.entries } := by
    refine ⟨?_, ?_, nofun⟩
    · rw [List.map_nil, List.append_nil]
    · rw [List.map_nil, List.append_nil]
  have hpairs := hstart.pairRenames
    ((inOrder_perm _).nodup_iff.mpr (nodup_missingFrom candidate.entries baseline.entries))
    fun old hold => mem_inOrder.mp hold
  refine ⟨pathsOf_edit.symm, ?_, ?_, hpairs.same⟩
  · rw [pathsOf_add]
    exact (((inOrder_perm _).append_right _).trans hpairs.added).trans (inOrder_perm _).symm
  · rw [pathsOf_delete]
    exact (((inOrder_perm _).append_right _).trans hpairs.removed).trans (inOrder_perm _).symm

end Delta

end OpenTulid.Frozen
