/-
The walk over a Git source is the plain filter over all its files.

A directory is left out when it is reserved, or when it is excluded and
holds nothing tracked. Each of the two takes every file below it away as
well: a reserved name, a cache name and an ignored directory stay on the
path of whatever is below them (`gitignoreMatches_below`), and a file below
a directory that holds nothing tracked is not tracked.
-/
import OpenTulid.Source.Ignore

namespace OpenTulid

variable {patternMatches : String → RelPath → Bool → Bool}

/-- The plain filter: a file that is not under a reserved name, and that is
tracked or else neither under a cache name nor ignored. -/
def Delivered (patternMatches : String → RelPath → Bool → Bool) (selection : SourceSelection)
    (relative : RelPath) : Prop :=
  isReservedPath relative = false ∧
    (relative ∈ selection.trackedPaths ∨
      underDeclaredCache relative = false ∧
        gitignoreMatches patternMatches selection.ignoreFiles relative false = false)

theorem isReservedPath_below {d p : RelPath} (hlead : d <+: p) (h : isReservedPath d = true) :
    isReservedPath p = true := by
  unfold isReservedPath at h ⊢
  rw [List.any_eq_true] at h ⊢
  obtain ⟨part, hpart, hname⟩ := h
  exact ⟨part, hlead.subset hpart, hname⟩

theorem underDeclaredCache_below {d p : RelPath} (hlead : d <+: p)
    (h : underDeclaredCache d = true) : underDeclaredCache p = true := by
  unfold underDeclaredCache at h ⊢
  rw [List.any_eq_true] at h ⊢
  obtain ⟨part, hpart, hname⟩ := h
  exact ⟨part, hlead.subset hpart, hname⟩

theorem mem_ancestors {d p : RelPath} : d ∈ ancestors p ↔ d <+: p ∧ d ≠ [] ∧ d ≠ p := by
  unfold ancestors
  rw [List.mem_filter, List.mem_inits, decide_eq_true_eq]

/-- What stands above a directory stands above everything below it. -/
theorem ancestors_below {d e p : RelPath} (hlead : d <+: p) (hproper : d ≠ p)
    (h : e ∈ ancestors d) : e ∈ ancestors p := by
  obtain ⟨hed, hne, hed'⟩ := mem_ancestors.mp h
  refine mem_ancestors.mpr ⟨hed.trans hlead, hne, ?_⟩
  rintro rfl
  exact hproper (hlead.eq_of_length (Nat.le_antisymm hlead.length_le hed.length_le))

/-- Below an ignored directory everything is ignored. -/
theorem gitignoreMatches_below {ignoreFiles : List IgnoreFile} {d p : RelPath} {isDir : Bool}
    (hlead : d <+: p) (hproper : d ≠ p)
    (h : gitignoreMatches patternMatches ignoreFiles d true = true) :
    gitignoreMatches patternMatches ignoreFiles p isDir = true := by
  unfold gitignoreMatches at h ⊢
  split at h
  next => cases h
  next hne =>
    have hp : p ≠ [] := by
      rintro rfl
      exact hne (List.prefix_nil.mp hlead)
    rw [if_neg hp]
    have hany : ((ancestors p).any fun e => layerMatch patternMatches ignoreFiles e true) = true := by
      rw [List.any_eq_true]
      split at h
      next habove =>
        obtain ⟨e, he, hmatch⟩ := List.any_eq_true.mp habove
        exact ⟨e, ancestors_below hlead hproper he, hmatch⟩
      next => exact ⟨d, mem_ancestors.mpr ⟨hlead, hne, hproper⟩, h⟩
    rw [if_pos hany]

/-- Below a directory that is excluded everything untracked is. -/
theorem ignoredUnknownByRule_below {selection : SourceSelection} {d p : RelPath} {isDir : Bool}
    (hlead : d <+: p) (hproper : d ≠ p)
    (h : ignoredUnknownByRule (gitignoreMatches patternMatches) selection d true = true) :
    ignoredUnknownByRule (gitignoreMatches patternMatches) selection p isDir = true := by
  unfold ignoredUnknownByRule at h ⊢
  split at h
  next hcache => rw [if_pos (underDeclaredCache_below hlead hcache)]
  next =>
    split at h
    next => cases h
    next hfiles =>
      rw [if_neg hfiles, gitignoreMatches_below hlead hproper h]
      split <;> rfl

/-- Without ignore files nothing is ignored. -/
theorem gitignoreMatches_nil (relative : RelPath) (isDir : Bool) :
    gitignoreMatches patternMatches [] relative isDir = false := by
  unfold gitignoreMatches layerMatch
  split
  next => rfl
  next =>
    rw [List.foldl_nil, if_neg]
    rw [Bool.not_eq_true, List.any_eq_false]
    intro d _ h
    cases h

theorem ignoredUnknownByRule_eq_false_iff {selection : SourceSelection} {relative : RelPath} :
    ignoredUnknownByRule (gitignoreMatches patternMatches) selection relative false = false ↔
      underDeclaredCache relative = false ∧
        gitignoreMatches patternMatches selection.ignoreFiles relative false = false := by
  unfold ignoredUnknownByRule
  cases hcache : underDeclaredCache relative with
  | true => exact ⟨nofun, nofun⟩
  | false =>
      rw [if_neg Bool.false_ne_true]
      by_cases hfiles : selection.ignoreFiles = []
      · rw [if_pos hfiles, hfiles, gitignoreMatches_nil]
        exact ⟨fun _ => ⟨rfl, rfl⟩, fun _ => rfl⟩
      · rw [if_neg hfiles]
        exact ⟨fun h => ⟨rfl, h⟩, fun h => h.2⟩

/-- A file that is met is taken by the plain rule. -/
theorem takes_iff {selection : SourceSelection} {relative : RelPath} :
    (if isReservedPath relative then false
      else if relative ∈ selection.trackedPaths then true
      else !ignoredUnknownByRule (gitignoreMatches patternMatches) selection relative false) =
        true ↔ Delivered patternMatches selection relative := by
  unfold Delivered
  cases hreserved : isReservedPath relative with
  | true =>
      rw [if_pos rfl]
      exact ⟨nofun, nofun⟩
  | false =>
      rw [if_neg Bool.false_ne_true]
      by_cases htracked : relative ∈ selection.trackedPaths
      · rw [if_pos htracked]
        exact ⟨fun _ => ⟨rfl, .inl htracked⟩, fun _ => rfl⟩
      · rw [if_neg htracked, Bool.not_eq_true', ignoredUnknownByRule_eq_false_iff]
        constructor
        · intro h
          exact ⟨rfl, .inr h⟩
        · rintro ⟨-, h | h⟩
          · exact absurd h htracked
          · exact h

/-- Nothing below a directory that is left out is taken. -/
theorem not_delivered_below {selection : SourceSelection} {d p : RelPath} (hlead : d <+: p)
    (hproper : d ≠ p)
    (h : safePruneGitDirectory (gitignoreMatches patternMatches) selection d = true) :
    ¬ Delivered patternMatches selection p := by
  rintro ⟨hreserved, htaken⟩
  unfold safePruneGitDirectory at h
  split at h
  next hdir =>
    rw [isReservedPath_below hlead hdir] at hreserved
    cases hreserved
  next =>
    rw [Bool.and_eq_true, Bool.not_eq_true'] at h
    obtain ⟨hignored, hnone⟩ := h
    rcases htaken with htracked | hkept
    · unfold anyTrackedUnder at hnone
      have hbelow := List.any_eq_false.mp hnone p htracked
      exact hbelow (List.isPrefixOf_iff_prefix.mpr hlead)
    · have hexcluded : ignoredUnknownByRule (gitignoreMatches patternMatches) selection p false =
          true :=
        ignoredUnknownByRule_below hlead hproper hignored
      rw [ignoredUnknownByRule_eq_false_iff.mpr hkept] at hexcluded
      cases hexcluded

end OpenTulid
