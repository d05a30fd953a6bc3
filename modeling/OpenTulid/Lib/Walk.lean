/-
Walks over a directory tree that leave whole directories out.

A walk is told which directories to enter and which files to take, both by
their paths from the root. It yields the files that are taken and all of
whose directories are entered (`mem_walk`). Leaving a directory out is sound
where nothing below it would be taken; then the walk is the plain filter
over all the files (`mem_walk_of_sound`).
-/
import Mathlib.Data.List.Infix

mutual

/-- A directory: its files and its directories. -/
inductive Dir where
  | mk (files : List String) (dirs : Dirs)

/-- Some directories, each with its name. -/
inductive Dirs where
  | nil
  | cons (name : String) (dir : Dir) (rest : Dirs)

end

namespace Dir

-- =================================================================== files

mutual

/-- There is a file at a path. -/
def Has : Dir → List String → Prop
  | .mk files dirs, p => (∃ name ∈ files, p = [name]) ∨ HasBelow dirs p

/-- There is a file at a path through one of some directories. -/
def HasBelow : Dirs → List String → Prop
  | .nil, _ => False
  | .cons name dir rest, p => (∃ q, p = name :: q ∧ dir.Has q) ∨ HasBelow rest p

end

/-- A file has a name. -/
theorem ne_nil_of_has {dir : Dir} {p : List String} (h : dir.Has p) : p ≠ [] := by
  rintro rfl
  match dir with
  | .mk files dirs =>
      rcases h with ⟨name, -, hname⟩ | h
      · cases hname
      · exact absurd h (hasBelow_nil dirs)
where
  hasBelow_nil : ∀ dirs : Dirs, ¬ HasBelow dirs []
    | .nil => fun h => h
    | .cons _ _ rest => by
        rintro (⟨q, hq, -⟩ | h)
        · cases hq
        · exact hasBelow_nil rest h

-- =================================================================== walks

section Walk

variable (enter take : List String → Bool)

mutual

/-- The walk over a directory at a path: its own files first. -/
def walk (root : List String) : Dir → List (List String)
  | .mk files dirs =>
      ((files.map fun name => root ++ [name]).filter take) ++ walkBelow root dirs

/-- The walk over the directories at a path that are entered. -/
def walkBelow (root : List String) : Dirs → List (List String)
  | .nil => []
  | .cons name dir rest =>
      (if enter (root ++ [name]) then walk (root ++ [name]) dir else []) ++ walkBelow root rest

end

end Walk

section Members

variable {enter take : List String → Bool}

/-- Every directory between a path and a file below it is entered. -/
def Open (enter : List String → Bool) (root p : List String) : Prop :=
  ∀ d, d <+: p → d ≠ [] → d ≠ p → enter (root ++ d) = true

theorem open_singleton (root : List String) (name : String) : Open enter root [name] := by
  intro d hlead hne hproper
  rcases List.prefix_cons_iff.mp hlead with rfl | ⟨rest, rfl, hrest⟩
  · exact absurd rfl hne
  · rw [List.prefix_nil.mp hrest] at hproper
    exact absurd rfl hproper

/-- A file below a directory is reached through it. -/
theorem open_cons {root : List String} {name : String} {q : List String} (hq : q ≠ []) :
    Open enter root (name :: q) ↔
      enter (root ++ [name]) = true ∧ Open enter (root ++ [name]) q := by
  constructor
  · intro h
    refine ⟨h [name] ⟨q, rfl⟩ (List.cons_ne_nil _ _) ?_, fun d hlead hne hproper => ?_⟩
    · intro heq
      exact hq (List.cons.inj heq).2.symm
    · rw [List.append_assoc]
      refine h (name :: d) (List.cons_prefix_cons.mpr ⟨rfl, hlead⟩) (List.cons_ne_nil _ _) ?_
      intro heq
      exact hproper (List.cons.inj heq).2
  · rintro ⟨henter, h⟩ d hlead hne hproper
    rcases List.prefix_cons_iff.mp hlead with rfl | ⟨rest, rfl, hrest⟩
    · exact absurd rfl hne
    · by_cases hnil : rest = []
      · rw [hnil]
        exact henter
      · have hrestproper : rest ≠ q := fun heq => hproper (by rw [heq])
        have hopen := h rest hrest hnil hrestproper
        rwa [List.append_assoc] at hopen

mutual

/-- What a walk yields. -/
theorem mem_walk {root : List String} {p : List String} : ∀ {dir : Dir},
    p ∈ walk enter take root dir ↔
      ∃ q, p = root ++ q ∧ dir.Has q ∧ take p = true ∧ Open enter root q
  | .mk files dirs => by
      rw [walk, List.mem_append, List.mem_filter, List.mem_map, mem_walkBelow]
      constructor
      · rintro (⟨⟨name, hname, rfl⟩, htake⟩ | ⟨q, rfl, hhas, htake, hopen⟩)
        · exact ⟨[name], rfl, .inl ⟨name, hname, rfl⟩, htake, open_singleton root name⟩
        · exact ⟨q, rfl, .inr hhas, htake, hopen⟩
      · rintro ⟨q, rfl, ⟨name, hname, rfl⟩ | hhas, htake, hopen⟩
        · exact .inl ⟨⟨name, hname, rfl⟩, htake⟩
        · exact .inr ⟨q, rfl, hhas, htake, hopen⟩

theorem mem_walkBelow {root : List String} {p : List String} : ∀ {dirs : Dirs},
    p ∈ walkBelow enter take root dirs ↔
      ∃ q, p = root ++ q ∧ HasBelow dirs q ∧ take p = true ∧ Open enter root q
  | .nil => by
      constructor
      · intro h
        cases h
      · rintro ⟨q, -, hhas, -⟩
        exact hhas.elim
  | .cons name dir rest => by
      rw [walkBelow, List.mem_append, mem_walkBelow]
      constructor
      · rintro (h | ⟨q, rfl, hhas, htake, hopen⟩)
        · split at h
          next henter =>
            obtain ⟨q, rfl, hhas, htake, hopen⟩ := mem_walk.mp h
            refine ⟨name :: q, by simp, .inl ⟨q, rfl, hhas⟩, htake, ?_⟩
            exact (open_cons (ne_nil_of_has hhas)).mpr ⟨henter, hopen⟩
          next => cases h
        · exact ⟨q, rfl, .inr hhas, htake, hopen⟩
      · rintro ⟨q, rfl, ⟨r, rfl, hhas⟩ | hhas, htake, hopen⟩
        · obtain ⟨henter, hopen⟩ := (open_cons (ne_nil_of_has hhas)).mp hopen
          left
          rw [if_pos henter]
          exact mem_walk.mpr ⟨r, by simp, hhas, htake, hopen⟩
        · exact .inr ⟨q, rfl, hhas, htake, hopen⟩

end

/-- Where nothing is taken below a directory that is not entered, a walk from
the root yields the files that are taken. -/
theorem mem_walk_of_sound
    (hsound : ∀ d p, d <+: p → d ≠ [] → d ≠ p → enter d = false → take p = false)
    {dir : Dir} {p : List String} :
    p ∈ walk enter take [] dir ↔ dir.Has p ∧ take p = true := by
  rw [mem_walk]
  constructor
  · rintro ⟨q, rfl, hhas, htake, -⟩
    exact ⟨hhas, htake⟩
  · rintro ⟨hhas, htake⟩
    refine ⟨p, rfl, hhas, htake, fun d hlead hne hproper => ?_⟩
    cases henter : enter d with
    | true => exact henter
    | false =>
        rw [hsound d p hlead hne hproper henter] at htake
        cases htake

end Members

end Dir
