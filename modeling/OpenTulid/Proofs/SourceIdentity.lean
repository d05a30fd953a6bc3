/-
When the digests of a source depend on the source only.

Whatever is sorted is the same for every order it is met in, since no key
occurs twice (`insertionSort_eq_of_keys`): the ignore files, the entries of
the manifests, the top level. The tracked paths are not sorted. They are
hashed in the order in which the set yields them, so two orders of them are
two digests (`sourceSelectionSha256_git`), and one digest is all there is
exactly where one order is all there is: without Git, or with at most one
tracked path.
-/
import OpenTulid.Runtime.RepositoryFacts
import OpenTulid.Proofs.Candidate
import OpenTulid.Proofs.FrozenRoundTrip
import OpenTulid.Proofs.WorkflowDigest

namespace OpenTulid.Frozen

open Baseline (canonical_eq_iff canon_strings_eq_iff)

-- ================================================================= sorting

/-- Entries are sorted into one order where no two of them have one key. -/
theorem insertionSort_eq_of_keys {α κ : Type} {r : α → α → Prop} [DecidableRel r] [Std.Total r]
    [IsTrans α r] {key : α → κ} (hkey : ∀ a b, r a b → r b a → key a = key b) {xs ys : List α}
    (honce : (xs.map key).Nodup) (h : xs.Perm ys) : xs.insertionSort r = ys.insertionSort r := by
  have hperm : (xs.insertionSort r).Perm (ys.insertionSort r) :=
    (List.perm_insertionSort r xs).trans (h.trans (List.perm_insertionSort r ys).symm)
  refine hperm.eq_of_pairwise (fun a b ha hb hle hge => ?_)
    (List.pairwise_insertionSort r xs) (List.pairwise_insertionSort r ys)
  have ha : a ∈ xs := (List.mem_insertionSort r).mp ha
  have hb : b ∈ xs := h.mem_iff.mpr ((List.mem_insertionSort r).mp hb)
  exact List.inj_on_of_nodup_map honce ha hb (hkey a b hle hge)

instance : Std.Total shallowFirst where
  total a b := by
    unfold shallowFirst
    rcases Nat.lt_trichotomy (depth a.baseDir) (depth b.baseDir) with h | h | h
    · exact .inl (.inl h)
    · rcases le_total a.baseDir b.baseDir with hle | hle
      · exact .inl (.inr ⟨h, hle⟩)
      · exact .inr (.inr ⟨h.symm, hle⟩)
    · exact .inr (.inl h)

instance : IsTrans IgnoreFile shallowFirst where
  trans a b c := by
    unfold shallowFirst
    rintro (h | ⟨h, hle⟩) (h' | ⟨h', hle'⟩)
    · exact .inl (h.trans h')
    · exact .inl (by omega)
    · exact .inl (by omega)
    · exact .inr ⟨h.trans h', hle.trans hle'⟩

variable {S : Sha256}

/-- The ignore files are the same list in whatever order they are found. -/
theorem readIgnoreFiles_eq {found found' : List (String × String)}
    (honce : (found.map Prod.fst).Nodup) (h : found.Perm found') :
    readIgnoreFiles S found = readIgnoreFiles S found' := by
  refine @insertionSort_eq_of_keys _ _ _ _ _ _ IgnoreFile.baseDir ?_ _ _ ?_ (h.map _)
  · rintro a b (hlt | ⟨heq, hle⟩) (hgt | ⟨heq', hge⟩)
    · omega
    · omega
    · omega
    · exact le_antisymm hle hge
  · rw [List.map_map]
    exact honce

/-- A manifest is the same list in whatever order its files are met. -/
theorem insertionSort_path_eq {files files' : List ScannedFile}
    (honce : (files.map ScannedFile.path).Nodup) (h : files.Perm files') :
    (files.map ScannedFile.entry).insertionSort (fun a b => a.path ≤ b.path) =
      (files'.map ScannedFile.entry).insertionSort (fun a b => a.path ≤ b.path) := by
  have : Std.Total fun a b : FileManifestEntry => a.path ≤ b.path :=
    ⟨fun a b => le_total a.path b.path⟩
  have : IsTrans FileManifestEntry fun a b => a.path ≤ b.path :=
    ⟨fun _ _ _ h h' => le_trans h h'⟩
  refine @insertionSort_eq_of_keys _ _ _ _ _ _ FileManifestEntry.path (fun _ _ => le_antisymm)
    _ _ ?_ (h.map _)
  rw [List.map_map]
  exact honce

theorem inOrder_eq {names names' : List String} (h : names.Perm names') :
    inOrder names = inOrder names' := by
  have hperm : (inOrder names).Perm (inOrder names') :=
    (inOrder_perm names).trans (h.trans (inOrder_perm names').symm)
  exact hperm.eq_of_pairwise' (r := (· ≤ ·)) (List.pairwise_insertionSort _ _)
    (List.pairwise_insertionSort _ _)

-- ============================================== what the rule leaves open

section Orders

variable {rule : Rule} {detector : Detector} {repository : Repository} {workspace : Tree}
  {candidateId : String} {submitted : List String}

/-- Two orders of one tree deliver the same files. -/
theorem delivered_perm {tree : Tree} (selection : SourceSelection) (order order' : TreeOrder tree) :
    (iterDeliverableFiles rule selection order.files).Perm
      (iterDeliverableFiles rule selection order'.files) :=
  (order.filesPerm.trans order'.filesPerm.symm).filter _

/-- Two orders of one tree list the delivered files alike. -/
theorem delivered_eq {tree : Tree} (selection : SourceSelection) (order order' : TreeOrder tree) :
    ((iterDeliverableFiles rule selection order.files).map ScannedFile.entry).insertionSort
        (fun a b => a.path ≤ b.path) =
      ((iterDeliverableFiles rule selection order'.files).map ScannedFile.entry).insertionSort
        (fun a b => a.path ≤ b.path) := by
  refine insertionSort_path_eq ?_ (delivered_perm selection order order')
  exact ((order.filesPerm.map _).nodup_iff.mpr tree.filesOnce).sublist
    (List.filter_sublist.map _)

/-- Two orders of one tree yield one list of ignore files. -/
theorem ignoreFiles_eq {tree : Tree} (order order' : TreeOrder tree) :
    readIgnoreFiles S order.ignoreFiles = readIgnoreFiles S order'.ignoreFiles :=
  readIgnoreFiles_eq ((order.ignoreFilesPerm.map _).nodup_iff.mpr tree.ignoreFilesOnce)
    (order.ignoreFilesPerm.trans order'.ignoreFilesPerm.symm)

/-- A snapshot depends on the order of the tracked paths only. -/
theorem captureLiveSnapshot_eq (tracked : List String) (order order' : TreeOrder repository.toTree) :
    captureLiveSnapshot S rule detector tracked order =
      captureLiveSnapshot S rule detector tracked order' := by
  have hselection : discoverSourceSelection S repository.git tracked order.ignoreFiles =
      discoverSourceSelection S repository.git tracked order'.ignoreFiles := by
    unfold discoverSourceSelection
    rw [ignoreFiles_eq order order']
  have htop : inOrder (order.topLevel.filter (· ∉ excludedDirectoryNames)) =
      inOrder (order'.topLevel.filter (· ∉ excludedDirectoryNames)) :=
    inOrder_eq ((order.topLevelPerm.trans order'.topLevelPerm.symm).filter _)
  have hknown : ∀ selection, knownAmong (iterDeliverableFiles rule selection order.files) =
      knownAmong (iterDeliverableFiles rule selection order'.files) := fun selection =>
    inOrder_eq (((delivered_perm selection order order').map _).filter _)
  unfold captureLiveSnapshot
  rw [hselection]
  dsimp only
  split
  next => rfl
  next =>
    unfold captureRepositorySnapshot scanRepository baselineManifest
    simp only [delivered_eq _ order order', htop, hknown]

/-- A candidate's identity depends on the frozen rule only. -/
theorem captureCandidate_eq (baseline : Option BaselineManifest) (frozen : SourceSelection)
    (order order' : TreeOrder workspace) :
    captureCandidate S rule candidateId baseline submitted frozen order =
      captureCandidate S rule candidateId baseline submitted frozen order' := by
  have hselection : refreshWorkspaceSelection S frozen order.ignoreFiles =
      refreshWorkspaceSelection S frozen order'.ignoreFiles := by
    unfold refreshWorkspaceSelection
    rw [ignoreFiles_eq order order']
  unfold captureCandidate captureDeliverableManifest
  rw [hselection]
  simp only [delivered_eq _ order order']

/-- All digests are the same where the tracked paths come in one order, or
are not looked at. -/
theorem digests_eq {order order' : Enumeration repository workspace}
    (h : repository.git = true → order.tracked = order'.tracked) :
    digests S rule detector candidateId submitted order =
      digests S rule detector candidateId submitted order' := by
  have hselection :
      discoverSourceSelection S repository.git order.tracked order.source.ignoreFiles =
        discoverSourceSelection S repository.git order'.tracked order'.source.ignoreFiles := by
    unfold discoverSourceSelection
    cases hgit : repository.git with
    | false => rfl
    | true => rw [h hgit, ignoreFiles_eq order.source order'.source]
  have hsnapshot : captureLiveSnapshot S rule detector order.tracked order.source =
      captureLiveSnapshot S rule detector order'.tracked order'.source := by
    rw [captureLiveSnapshot_eq order.tracked order.source order'.source]
    unfold captureLiveSnapshot discoverSourceSelection
    cases hgit : repository.git with
    | false => rfl
    | true => rw [h hgit]
  unfold digests
  dsimp only
  rw [hselection, hsnapshot, captureCandidate_eq _ _ order.work order'.work]

-- ===================================================== the tracked paths

/-- Under Git the digest of the rule tells the orders of the tracked paths
apart. -/
theorem sourceSelectionSha256_git {tracked tracked' : List String}
    {found found' : List (String × String)}
    (h : sourceSelectionSha256 S (discoverSourceSelection S true tracked found) =
      sourceSelectionSha256 S (discoverSourceSelection S true tracked' found')) :
    tracked = tracked' := by
  unfold sourceSelectionSha256 at h
  have hkeys : (["schema", "mode", "version", "tracked_paths", "ignore_files"] :
      List String).Nodup := by
    decide
  rw [canonical_eq_iff] at h
  unfold sourceSelectionToDict at h
  rw [Json.canon_obj_eq_iff (by rfl) (by exact hkeys)] at h
  simp only [List.map_cons, List.map_nil, List.cons.injEq, and_true] at h
  exact canon_strings_eq_iff.mp h.2.2.2.1

/-- One order of the paths, and the trees as they stand. -/
def listed (repository : Repository) (workspace : Tree) (tracked : List String)
    (once : tracked.Nodup) (mem : ∀ path, path ∈ tracked ↔ path ∈ repository.tracked) :
    Enumeration repository workspace where
  tracked := tracked
  trackedOnce := once
  mem_tracked := mem
  source := ⟨repository.files, .refl _, repository.ignoreFiles, .refl _, repository.topLevel,
    .refl _⟩
  work := ⟨workspace.files, .refl _, workspace.ignoreFiles, .refl _, workspace.topLevel, .refl _⟩

/-- Paths that read the same backwards and do not repeat are at most one. -/
theorem length_le_one_of_reverse {names : List String} (honce : names.Nodup)
    (h : names = names.reverse) : names.length ≤ 1 := by
  match names with
  | [] => exact Nat.zero_le 1
  | first :: rest =>
      have hlast : rest = [] ∨ first ∈ rest := by
        rcases List.eq_nil_or_concat' rest with rfl | ⟨middle, last, rfl⟩
        · exact .inl rfl
        · rw [List.reverse_cons, List.reverse_append] at h
          have heads : first = last := (List.cons.inj h).1
          exact .inr (List.mem_append_right _ (heads ▸ List.mem_singleton_self _))
      rcases hlast with rfl | hmem
      · exact Nat.le_refl 1
      · exact absurd hmem (List.nodup_cons.mp honce).1

/-- The digests are those of the source, whatever order it is met in, exactly
where there is no Git or no second tracked path. -/
theorem digests_stable_iff (S : Sha256) (rule : Rule) (detector : Detector) (candidateId : String)
    (submitted : List String) (repository : Repository) (workspace : Tree) :
    (∀ order order' : Enumeration repository workspace,
        digests S rule detector candidateId submitted order =
          digests S rule detector candidateId submitted order') ↔
      (repository.git = true → repository.tracked.card ≤ 1) := by
  constructor
  · intro h hgit
    have honce : repository.tracked.toList.Nodup := repository.tracked.nodup_toList
    have hmem : ∀ path, path ∈ repository.tracked.toList ↔ path ∈ repository.tracked :=
      fun path => Finset.mem_toList
    have heq := h (listed repository workspace _ honce hmem)
      (listed repository workspace repository.tracked.toList.reverse
        (List.nodup_reverse.mpr honce) fun path => List.mem_reverse.trans (hmem path))
    have hselection := congrArg Digests.sourceSelection heq
    unfold digests at hselection
    simp only [hgit] at hselection
    rw [← Finset.length_toList]
    exact length_le_one_of_reverse honce (sourceSelectionSha256_git hselection)
  · intro h order order'
    refine digests_eq fun hgit => ?_
    have hperm : order.tracked.Perm order'.tracked :=
      (List.perm_ext_iff_of_nodup order.trackedOnce order'.trackedOnce).mpr fun path =>
        (order.mem_tracked path).trans (order'.mem_tracked path).symm
    have hlength : order.tracked.length ≤ 1 := by
      have hset : order.tracked.toFinset = repository.tracked := by
        ext path
        rw [List.mem_toFinset]
        exact order.mem_tracked path
      rw [← List.toFinset_card_of_nodup order.trackedOnce, hset]
      exact h hgit
    match hmatch : order.tracked with
    | [] =>
        rw [hmatch] at hperm
        exact hperm.nil_eq
    | [only] =>
        rw [hmatch] at hperm
        exact (List.perm_singleton.mp hperm.symm).symm
    | _ :: _ :: _ =>
        rw [hmatch] at hlength
        exact absurd hlength (by simp)

end Orders

-- ============================================================= two orders

/-- A file of the example. -/
def sourceFile (path : String) (h : path ≠ "") : ScannedFile where
  path := path
  sha256 := "00"
  size := 1
  mode := 420
  named := h
  hashed := by decide

/-- Two files. -/
def twoFiles : Tree where
  files := [sourceFile "a.txt" (by decide), sourceFile "b.txt" (by decide)]
  filesOnce := by decide
  ignoreFiles := []
  ignoreFilesOnce := by decide
  topLevel := ["a.txt", "b.txt"]
  topLevelNamed := by decide

/-- Both of them tracked by Git. -/
def twoTracked : Repository where
  toTree := twoFiles
  git := true
  tracked := {"a.txt", "b.txt"}
  head := some "0123456789abcdef"
  status := some ""

/-- The walk over the tracked files only. -/
def trackedOnly : Rule := fun _ tracked _ path => decide (path ∈ tracked)

/-- No file is an entry point. -/
def noEntrypoints : Detector where
  detect _ := []
  named _ := by simp

/-- The set yields the first path first. -/
def forwards : Enumeration twoTracked twoFiles :=
  listed twoTracked twoFiles ["a.txt", "b.txt"] (by decide) (by simp [twoTracked])

/-- The set yields the second path first. -/
def backwards : Enumeration twoTracked twoFiles :=
  listed twoTracked twoFiles ["b.txt", "a.txt"] (by decide) (by simp [twoTracked, or_comm])

/-- One repository has two digests of its selection rule. -/
theorem two_orders_two_digests :
    (digests unaryDigest trackedOnly noEntrypoints "job-1" [] forwards).sourceSelection ≠
      (digests unaryDigest trackedOnly noEntrypoints "job-1" [] backwards).sourceSelection := by
  unfold digests
  dsimp only
  intro h
  have hpaths : forwards.tracked = backwards.tracked := sourceSelectionSha256_git h
  exact absurd hpaths (by decide)

end OpenTulid.Frozen
