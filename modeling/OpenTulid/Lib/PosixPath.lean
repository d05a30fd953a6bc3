/-
Paths as text, and where they lead when their parts are followed one by one.

A text is cut at the slashes; empty parts and single dots say nothing and
are dropped (`parts`). `resolve` follows the parts from a root, a double dot
one step up: it fails when a step would leave the root, and else gives the
names from the root down. No name is looked up, so this is what a text says
where no name on the way is a link.

`resolve_eq_some_iff` says which parts stay: read in order, there are never
more double dots than names before them. `resolve_of_no_climb` is the usual
case, without double dots.
-/
import Mathlib.Tactic.Common

namespace PosixPath

-- ================================================================ parts

/-- The parts of a path. -/
def parts (text : String) : List String :=
  ((text.toList.splitOn '/').map String.ofList).filter fun part => part ≠ "" ∧ part ≠ "."

/-- The path starts at the root of the file system. -/
def isAbsolute (text : String) : Bool := text.toList.head? = some '/'

/-- No part is empty or a single dot. -/
theorem ne_of_mem_parts {text part : String} (h : part ∈ parts text) :
    part ≠ "" ∧ part ≠ "." := by
  simpa using (List.mem_filter.mp h).2

/-- The pieces of a text cut at a character do not have it. -/
theorem not_mem_of_mem_splitOn {α : Type} [DecidableEq α] {a : α} {text piece : List α}
    (h : piece ∈ text.splitOn a) : a ∉ piece := by
  induction text generalizing piece with
  | nil =>
      rw [List.splitOn_nil, List.mem_singleton] at h
      simp [h]
  | cons first rest ih =>
      rw [List.splitOn_cons_eq_if_modifyHead] at h
      split at h
      next =>
        rcases List.mem_cons.mp h with rfl | h
        · simp
        · exact ih h
      next hne =>
        cases hpieces : rest.splitOn a with
        | nil => exact absurd hpieces (List.splitOn_ne_nil _ _)
        | cons head pieces =>
            rw [hpieces, List.modifyHead_cons] at h
            rw [hpieces] at ih
            rcases List.mem_cons.mp h with rfl | h
            · have hhead := ih List.mem_cons_self
              intro hmem
              rcases List.mem_cons.mp hmem with rfl | hmem
              · simp at hne
              · exact hhead hmem
            · exact ih (List.mem_cons_of_mem _ h)

/-- A part of a path has no slash. -/
theorem not_slash_of_mem_parts {text part : String} (h : part ∈ parts text) :
    '/' ∉ part.toList := by
  obtain ⟨piece, hpiece, rfl⟩ := List.mem_map.mp (List.mem_filter.mp h).1
  rw [String.toList_ofList]
  exact not_mem_of_mem_splitOn hpiece

/-- A text without slashes is one part, where it says anything. -/
theorem parts_of_not_slash {text : String} (h : '/' ∉ text.toList) (hdot : text ≠ ".") :
    parts text = if text = "" then [] else [text] := by
  unfold parts
  rw [List.splitOn_eq_singleton h, List.map_singleton, String.ofList_toList]
  split
  next hnil => simp [hnil]
  next hne => simp [hne, hdot]

-- ============================================================= resolving

/-- The parts followed from a place, given as the names from it up to the
root. -/
def walk : List String → List String → Option (List String)
  | place, [] => some place
  | place, part :: rest =>
      if part = ".." then
        match place with
        | [] => none
        | _ :: up => walk up rest
      else walk (part :: place) rest

/-- Where the parts lead from the root. -/
def resolve (ps : List String) : Option (List String) := (walk [] ps).map List.reverse

/-- The steps up. -/
def climbs (ps : List String) : Nat := ps.count ".."

/-- The steps down. -/
def names (ps : List String) : Nat := ps.countP (· ≠ "..")

@[simp] theorem climbs_nil : climbs [] = 0 := rfl

@[simp] theorem names_nil : names [] = 0 := rfl

theorem climbs_cons (part : String) (ps : List String) :
    climbs (part :: ps) = climbs ps + if part = ".." then 1 else 0 := by
  simp [climbs, List.count_cons]

theorem names_cons (part : String) (ps : List String) :
    names (part :: ps) = names ps + if part = ".." then 0 else 1 := by
  by_cases h : part = ".."
  · simp [names, h]
  · simp [names, h]

/-- Read in order, the parts never take more steps up than there are steps
to take back. -/
def Stays (depth : Nat) (ps : List String) : Prop :=
  ∀ n, climbs (ps.take n) ≤ depth + names (ps.take n)

theorem stays_nil (depth : Nat) : Stays depth [] := by
  intro n
  simp

/-- A step down. -/
theorem stays_cons_name {depth : Nat} {part : String} {ps : List String} (h : part ≠ "..") :
    Stays depth (part :: ps) ↔ Stays (depth + 1) ps := by
  constructor
  · intro hstays n
    have hn := hstays (n + 1)
    rw [List.take_succ_cons, climbs_cons, names_cons, if_neg h, if_neg h] at hn
    omega
  · intro hstays n
    cases n with
    | zero => simp
    | succ n =>
        have hn := hstays n
        rw [List.take_succ_cons, climbs_cons, names_cons, if_neg h, if_neg h]
        omega

/-- A step up. -/
theorem stays_cons_climb {depth : Nat} {ps : List String} :
    Stays depth (".." :: ps) ↔ 0 < depth ∧ Stays (depth - 1) ps := by
  constructor
  · intro hstays
    have hone := hstays 1
    rw [List.take_succ_cons, climbs_cons, names_cons, if_pos rfl, if_pos rfl] at hone
    simp only [List.take_zero, climbs_nil, names_nil] at hone
    refine ⟨by omega, fun n => ?_⟩
    have hn := hstays (n + 1)
    rw [List.take_succ_cons, climbs_cons, names_cons, if_pos rfl, if_pos rfl] at hn
    omega
  · intro ⟨hdepth, hstays⟩ n
    cases n with
    | zero => simp
    | succ n =>
        have hn := hstays n
        rw [List.take_succ_cons, climbs_cons, names_cons, if_pos rfl, if_pos rfl]
        omega

/-- A walk arrives if and only if its parts stay, and it ends as deep as the
steps down and up leave it. -/
theorem walk_eq_some {place ps : List String} :
    (Stays place.length ps → ∃ place', walk place ps = some place' ∧
        place'.length + climbs ps = place.length + names ps) ∧
      (∀ place', walk place ps = some place' → Stays place.length ps) := by
  induction ps generalizing place with
  | nil => exact ⟨fun _ => ⟨place, rfl, rfl⟩, fun _ _ => stays_nil _⟩
  | cons part ps ih =>
      by_cases hpart : part = ".."
      · subst hpart
        cases place with
        | nil =>
            refine ⟨fun hstays => ?_, fun place' h => ?_⟩
            · exact absurd (stays_cons_climb.mp hstays).1 (by simp)
            · simp [walk] at h
        | cons name up =>
            refine ⟨fun hstays => ?_, fun place' h => ?_⟩
            · obtain ⟨place', hwalk, hlength⟩ := (@ih up).1 (stays_cons_climb.mp hstays).2
              refine ⟨place', by simpa [walk] using hwalk, ?_⟩
              rw [climbs_cons, names_cons, if_pos rfl, if_pos rfl, List.length_cons]
              omega
            · exact stays_cons_climb.mpr
                ⟨by simp, (@ih up).2 place' (by simpa [walk] using h)⟩
      · refine ⟨fun hstays => ?_, fun place' h => ?_⟩
        · obtain ⟨place', hwalk, hlength⟩ :=
            (@ih (part :: place)).1 ((stays_cons_name hpart).mp hstays)
          refine ⟨place', by simpa [walk, hpart] using hwalk, ?_⟩
          rw [climbs_cons, names_cons, if_neg hpart, if_neg hpart]
          rw [List.length_cons] at hlength
          omega
        · exact (stays_cons_name hpart).mpr
            ((@ih (part :: place)).2 place' (by simpa [walk, hpart] using h))

/-- The parts lead to a place below the root if and only if, read in order,
they never take more steps up than down, and take fewer in all. -/
theorem resolve_below_iff {ps : List String} :
    (∃ place, resolve ps = some place ∧ place ≠ []) ↔
      Stays 0 ps ∧ climbs ps < names ps := by
  unfold resolve
  constructor
  · rintro ⟨place, hplace, hne⟩
    obtain ⟨found, hfound, rfl⟩ := Option.map_eq_some_iff.mp hplace
    have hstays : Stays 0 ps := walk_eq_some.2 found hfound
    obtain ⟨found', hfound', hlength⟩ := (@walk_eq_some [] ps).1 hstays
    obtain rfl : found = found' := Option.some.inj (hfound.symm.trans hfound')
    have hpos : 0 < found.length := List.length_pos_iff.mpr (by simpa using hne)
    rw [List.length_nil] at hlength
    exact ⟨hstays, by omega⟩
  · intro ⟨hstays, hless⟩
    obtain ⟨found, hfound, hlength⟩ := (@walk_eq_some [] ps).1 hstays
    refine ⟨found.reverse, by rw [hfound]; rfl, ?_⟩
    rw [List.length_nil] at hlength
    have hpos : 0 < found.length := by omega
    simpa using List.ne_nil_of_length_pos hpos

/-- Parts without a step up lead inside. -/
theorem resolve_of_no_climb {ps : List String} (h : ".." ∉ ps) :
    ∃ place, resolve ps = some place := by
  have hstays : Stays 0 ps := by
    intro n
    have hclimbs : climbs (ps.take n) = 0 :=
      List.count_eq_zero.mpr fun hmem => h (List.mem_of_mem_take hmem)
    omega
  obtain ⟨found, hfound, -⟩ := (@walk_eq_some [] ps).1 hstays
  exact ⟨found.reverse, by rw [resolve, hfound]; rfl⟩

end PosixPath
