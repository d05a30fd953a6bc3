/-
What is verified against what was sealed.

A candidate is sealed by copying what its selection delivers, and the copy
shows the same manifest as the workspace (`captureCandidate_eq`): the
selection is a rule about paths, so copying cannot change it. The copy the
commands run in is made by another rule, by directory names. It shows the
sealed manifest exactly when nothing that was sealed lies at or below one of
those names (`verificationCopy_manifest_iff`), and the selection of a Git
source delivers such files when they are tracked.
-/
import OpenTulid.Source.Selection
import OpenTulid.World

namespace OpenTulid

variable {gitignoreMatches : List IgnoreFile → RelPath → Bool → Bool}

-- ================================================= manifests of copies

theorem file?_restrict (t : FileTree) (keep : RelPath → Bool) (p : RelPath) :
    (t.restrict keep).file? p = if FileTree.reached keep p then t.file? p else none := by
  unfold FileTree.file?
  rw [FileTree.node_restrict]
  cases FileTree.reached keep p <;> rfl

theorem keys_restrict (t : FileTree) (keep : RelPath → Bool) :
    (t.restrict keep).nodes.keys = t.nodes.keys.filter (FileTree.reached keep) := by
  unfold FileTree.restrict Store.keys
  rw [List.filter_map]
  rfl

/-- What a partial copy delivers is what is delivered and was copied. -/
theorem iterDeliverableFiles_restrict (selection : SourceSelection) (t : FileTree)
    (keep : RelPath → Bool) :
    iterDeliverableFiles gitignoreMatches selection (t.restrict keep)
      = (iterDeliverableFiles gitignoreMatches selection t).filter
          (FileTree.reached keep) := by
  unfold iterDeliverableFiles
  rw [keys_restrict, List.filter_filter, List.filter_filter]
  refine List.filter_congr fun p _ => ?_
  rw [file?_restrict]
  cases FileTree.reached keep p <;> simp

/-- The manifest of a partial copy lists the entries that were copied. -/
theorem captureDeliverableManifest_restrict (selection : SourceSelection)
    (t : FileTree) (keep : RelPath → Bool) :
    captureDeliverableManifest gitignoreMatches selection (t.restrict keep)
      = (captureDeliverableManifest gitignoreMatches selection t).filter
          fun e => FileTree.reached keep e.path := by
  unfold captureDeliverableManifest
  rw [iterDeliverableFiles_restrict, List.filter_filterMap, List.filterMap_filter]
  refine List.filterMap_congr fun p _ => ?_
  rw [file?_restrict]
  cases hreached : FileTree.reached keep p with
  | false => cases t.file? p <;> simp [Option.filter, hreached]
  | true => cases t.file? p <;> simp [Option.filter, hreached]

/-- What a manifest lists is a delivered file of the tree. -/
theorem mem_captureDeliverableManifest {selection : SourceSelection} {t : FileTree}
    {e : ManifestEntry} :
    e ∈ captureDeliverableManifest gitignoreMatches selection t ↔
      e.path ∈ iterDeliverableFiles gitignoreMatches selection t ∧
        t.file? e.path = some ⟨e.sha256, e.mode⟩ := by
  unfold captureDeliverableManifest
  rw [List.mem_filterMap]
  constructor
  · intro h
    obtain ⟨p, hp, he⟩ := h
    cases hfile : t.file? p with
    | none =>
        rw [hfile] at he
        cases he
    | some f =>
        rw [hfile] at he
        cases he
        exact ⟨hp, hfile⟩
  · intro h
    obtain ⟨hp, hfile⟩ := h
    exact ⟨e.path, hp, by rw [hfile]; rfl⟩

/-- A manifest lists exactly the deliverable surface of its tree. -/
theorem captureDeliverableManifest_lists (selection : SourceSelection) (t : FileTree) :
    (captureDeliverableManifest gitignoreMatches selection t).lists
      (delivers gitignoreMatches selection) t = true := by
  have hfiles : ∀ p, p ∈ iterDeliverableFiles gitignoreMatches selection t →
      delivers gitignoreMatches selection p = true := by
    intro p hp
    have := (List.mem_filter.mp hp).2
    simp only [Bool.and_eq_true] at this
    exact this.2
  unfold Manifest.lists
  rw [Bool.and_eq_true]
  constructor
  · refine List.all_eq_true.mpr fun e he => ?_
    obtain ⟨hp, hfile⟩ := mem_captureDeliverableManifest.mp he
    unfold surfaceAt
    rw [if_pos (hfiles _ hp), hfile]
    exact decide_eq_true rfl
  · refine List.all_eq_true.mpr fun p hp => ?_
    unfold surfaceAt
    rw [Bool.or_eq_true]
    cases hselected : delivers gitignoreMatches selection p with
    | false => exact Or.inl rfl
    | true =>
        cases hfile : t.file? p with
        | none => exact Or.inl (by simp)
        | some f =>
            refine Or.inr (List.any_eq_true.mpr ⟨⟨p, f.content, f.mode⟩, ?_, ?_⟩)
            · refine mem_captureDeliverableManifest.mpr ⟨?_, hfile⟩
              refine List.mem_filter.mpr ⟨hp, ?_⟩
              rw [hfile, hselected]
              rfl
            · exact decide_eq_true rfl

-- ======================================================== the sealing

/-- What is delivered is reached in the copy of what is delivered. -/
theorem reached_copyDeliverables {delivered : List RelPath} {p : RelPath}
    (h : p ∈ delivered) :
    FileTree.reached (fun q => q ∈ delivered ||
      delivered.any fun r => q.isPrefixOf r && q ≠ r) p = true := by
  unfold FileTree.reached
  refine List.all_eq_true.mpr fun q hq => ?_
  have hpre : q <+: p := (List.mem_inits _ _).mp hq
  by_cases heq : q = p
  · subst heq
    simp [h]
  · have hany : (delivered.any fun r => q.isPrefixOf r && q ≠ r) = true :=
      List.any_eq_true.mpr ⟨p, h, by simp [hpre, heq]⟩
    show (_ || (_ || delivered.any fun r => q.isPrefixOf r && q ≠ r)) = true
    rw [hany]
    simp

/-- The stored copy shows the manifest of the workspace. -/
theorem manifest_copyDeliverables (selection : SourceSelection) (workspace : FileTree) :
    captureDeliverableManifest gitignoreMatches selection
        (copyDeliverables gitignoreMatches selection workspace)
      = captureDeliverableManifest gitignoreMatches selection workspace := by
  unfold copyDeliverables
  rw [captureDeliverableManifest_restrict]
  refine List.filter_eq_self.mpr fun e he => ?_
  exact reached_copyDeliverables (mem_captureDeliverableManifest.mp he).1

/-- A workspace nobody writes to is sealed. -/
theorem captureCandidate_eq (selection : SourceSelection) (workspace : FileTree) :
    captureCandidate gitignoreMatches selection workspace = .ok
      { storage := copyDeliverables gitignoreMatches selection workspace
        selection := selection
        manifest := captureDeliverableManifest gitignoreMatches selection workspace } := by
  unfold captureCandidate
  simp only [manifest_copyDeliverables, ne_eq, not_true_eq_false, if_false]

/-- A sealed candidate shows its manifest under its own selection. -/
theorem manifest_of_captured {selection : SourceSelection} {workspace : FileTree}
    {captured : CapturedCandidate}
    (h : captureCandidate gitignoreMatches selection workspace = .ok captured) :
    captureDeliverableManifest gitignoreMatches captured.selection captured.storage
      = captured.manifest := by
  rw [captureCandidate_eq] at h
  cases h
  exact manifest_copyDeliverables selection workspace

-- ================================================ the verification copy

/-- A path is copied exactly when no name on it is left out. -/
theorem reached_names {names : List String} {p : RelPath} :
    FileTree.reached (fun q => !q.getLast?.any fun name => name ∈ names) p = true ↔
      ∀ name ∈ p, name ∉ names := by
  unfold FileTree.reached
  rw [List.all_eq_true]
  constructor
  · intro h name hname hmem
    obtain ⟨before, after, rfl⟩ := List.append_of_mem hname
    have hpre : before ++ [name] <+: before ++ name :: after :=
      ⟨after, by simp⟩
    have := h _ ((List.mem_inits _ _).mpr hpre)
    simp [hmem] at this
  · intro h q hq
    have hpre : q <+: p := (List.mem_inits _ _).mp hq
    by_cases hnil : q = []
    · simp [hnil]
    · have hlast := List.getLast?_eq_getLast_of_ne_nil hnil
      have hmem : q.getLast hnil ∈ p := hpre.subset (List.getLast_mem hnil)
      show (_ || !q.getLast?.any fun name => name ∈ names) = true
      rw [hlast]
      simp [h _ hmem]

/-- The copy the commands run in shows the manifest that was sealed exactly
when no name on a sealed path is one the copy leaves out. -/
theorem verificationCopy_manifest_iff
    (gitignoreMatches : List IgnoreFile → RelPath → Bool → Bool)
    (selection : SourceSelection) (workspace : FileTree)
    (captured : CapturedCandidate)
    (h : captureCandidate gitignoreMatches selection workspace = .ok captured) :
    captureDeliverableManifest gitignoreMatches captured.selection
        (prepareVerificationCopy captured.storage) = captured.manifest ↔
      ∀ e ∈ captured.manifest, ∀ name ∈ e.path,
        name ∉ verificationIgnorePatterns := by
  unfold prepareVerificationCopy
  rw [captureDeliverableManifest_restrict, manifest_of_captured h]
  constructor
  · intro hsame e he
    exact reached_names.mp (List.filter_eq_self.mp hsame e he)
  · intro hnames
    exact List.filter_eq_self.mpr fun e he => reached_names.mpr (hnames e he)

/-- A source with one tracked file of a vendored package. -/
def vendoredSource : FileTree where
  nodes := Store.ofList [(["node_modules"], .dir),
    (["node_modules", "lib.js"], .file ⟨[49], 0o644⟩)]
  closed := by decide

/-- The selection that tracks it. -/
def vendoredSelection : SourceSelection where
  git := true
  trackedPaths := [["node_modules", "lib.js"]]

/-- It is sealed, and the copy shows the sealed manifest if and only if its
names allow it. -/
theorem vendored_manifest_iff :
    ∃ captured, captureCandidate (fun _ _ _ => false) vendoredSelection
        vendoredSource = .ok captured ∧
      (captureDeliverableManifest (fun _ _ _ => false) captured.selection
          (prepareVerificationCopy captured.storage) = captured.manifest ↔
        ∀ e ∈ captured.manifest, ∀ name ∈ e.path,
          name ∉ verificationIgnorePatterns) :=
  ⟨_, captureCandidate_eq vendoredSelection vendoredSource,
    verificationCopy_manifest_iff _ vendoredSelection vendoredSource _
      (captureCandidate_eq vendoredSelection vendoredSource)⟩

/-- However ignore files are read, the vendored file is sealed and the
commands run without it. -/
theorem vendored_file_not_verified :
    ¬ ∃ gitignoreMatches : List IgnoreFile → RelPath → Bool → Bool,
      ∀ (selection : SourceSelection) (workspace : FileTree)
        (captured : CapturedCandidate),
        captureCandidate gitignoreMatches selection workspace = .ok captured →
        captureDeliverableManifest gitignoreMatches captured.selection
          (prepareVerificationCopy captured.storage) = captured.manifest := by
  intro h
  obtain ⟨gitignoreMatches, h⟩ := h
  have hsame := h vendoredSelection vendoredSource _
    (captureCandidate_eq vendoredSelection vendoredSource)
  have hsealed : captureDeliverableManifest gitignoreMatches vendoredSelection
      vendoredSource = [⟨["node_modules", "lib.js"], [49], 0o644⟩] := rfl
  have hcopied : captureDeliverableManifest gitignoreMatches vendoredSelection
      (prepareVerificationCopy (copyDeliverables gitignoreMatches
        vendoredSelection vendoredSource)) = [] := rfl
  rw [hcopied, hsealed] at hsame
  cases hsame

end OpenTulid
