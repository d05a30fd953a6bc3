/-
A list without what stands at its ends and meets a predicate.

`trim p l` drops from both ends. What is left is told by its ends
(`trimmed_trim`, `trim_eq_self`), whatever meets the predicate may be put
around a list (`trim_around`), and a weaker predicate may be trimmed first
(`trim_trim_of_imp`).
-/
import Mathlib.Data.List.DropRight
import Mathlib.Data.List.Basic

namespace Trim

variable {α : Type} (p : α → Bool)

/-- The list between its first and its last element that do not meet `p`. -/
def trim (l : List α) : List α := (l.dropWhile p).rdropWhile p

/-- Neither end meets the predicate. -/
structure Trimmed (l : List α) : Prop where
  head : ∀ a ∈ l.head?, p a = false
  last : ∀ a ∈ l.getLast?, p a = false

variable {p} {l before after : List α}

theorem exists_around (p : α → Bool) (l : List α) :
    ∃ before after, l = before ++ trim p l ++ after ∧
      (∀ a ∈ before, p a = true) ∧ ∀ a ∈ after, p a = true := by
  refine ⟨l.takeWhile p, (l.dropWhile p).rtakeWhile p, ?_, ?_, ?_⟩
  · unfold trim
    rw [List.append_assoc, List.rdropWhile_append_rtakeWhile, List.takeWhile_append_dropWhile]
  · exact fun a ha => List.mem_takeWhile_imp ha
  · exact fun a ha => List.mem_rtakeWhile_imp ha

theorem rdropWhile_append_of_pos (h : ∀ a ∈ after, p a = true) (l : List α) :
    (l ++ after).rdropWhile p = l.rdropWhile p := by
  unfold List.rdropWhile
  rw [List.reverse_append, List.dropWhile_append_of_pos]
  simpa using h

/-- What is left at the right end is left behind any list. -/
theorem rdropWhile_append_of_ne_nil (h : l.rdropWhile p ≠ []) (before : List α) :
    (before ++ l).rdropWhile p = before ++ l.rdropWhile p := by
  unfold List.rdropWhile at h ⊢
  rw [List.reverse_append, List.dropWhile_append, if_neg, List.reverse_append, List.reverse_reverse]
  intro hempty
  rw [List.isEmpty_iff.mp hempty] at h
  exact h rfl

theorem trim_append_left (h : ∀ a ∈ before, p a = true) : trim p (before ++ l) = trim p l := by
  unfold trim
  rw [List.dropWhile_append_of_pos h]

theorem trim_append_right (h : ∀ a ∈ after, p a = true) : trim p (l ++ after) = trim p l := by
  unfold trim
  rw [List.dropWhile_append]
  split
  next hempty =>
    have hall : after.dropWhile p = [] := List.dropWhile_eq_nil_iff.mpr h
    rw [hall, List.isEmpty_iff.mp hempty]
  next => exact rdropWhile_append_of_pos h _

theorem trim_dropWhile (p : α → Bool) (l : List α) : trim p (l.dropWhile p) = trim p l := by
  conv => rhs; rw [← @List.takeWhile_append_dropWhile _ p l]
  exact (trim_append_left fun a ha => List.mem_takeWhile_imp ha).symm

theorem trim_rdropWhile (p : α → Bool) (l : List α) : trim p (l.rdropWhile p) = trim p l := by
  conv => rhs; rw [← @List.rdropWhile_append_rtakeWhile _ p l]
  exact (trim_append_right fun a ha => List.mem_rtakeWhile_imp ha).symm

/-- What meets the predicate may stand around a list. -/
theorem trim_around (hbefore : ∀ a ∈ before, p a = true) (hafter : ∀ a ∈ after, p a = true) :
    trim p (before ++ l ++ after) = trim p l := by
  rw [trim_append_right hafter, trim_append_left hbefore]

theorem trim_eq_nil_iff : trim p l = [] ↔ ∀ a ∈ l, p a = true := by
  unfold trim
  rw [List.rdropWhile_eq_nil_iff]
  constructor
  · intro h a ha
    by_contra hnot
    have hmem : a ∈ l.takeWhile p ++ l.dropWhile p := by
      rw [List.takeWhile_append_dropWhile]
      exact ha
    rcases List.mem_append.mp hmem with hmem | hmem
    · exact hnot (List.mem_takeWhile_imp hmem)
    · exact hnot (h a hmem)
  · exact fun h a ha => h a ((List.dropWhile_suffix p).subset ha)

theorem trimmed_trim (p : α → Bool) (l : List α) : Trimmed p (trim p l) where
  head := by
    intro a ha
    have hfirst := List.head?_dropWhile_not p l
    obtain ⟨rest, hrest⟩ := List.rdropWhile_prefix p (l.dropWhile p)
    obtain ⟨tail, htail⟩ := List.head?_eq_some_iff.mp ha
    unfold trim at htail
    rw [htail] at hrest
    rw [← hrest] at hfirst
    simpa using hfirst
  last := by
    intro a ha
    have hne : trim p l ≠ [] := by
      intro hnil
      rw [hnil] at ha
      cases ha
    have hlast := List.rdropWhile_last_not p (l.dropWhile p) hne
    have heq : a = (trim p l).getLast hne := by
      rw [List.getLast?_eq_some_getLast hne] at ha
      exact (Option.some.inj ha).symm
    rw [heq]
    exact Bool.eq_false_iff.mpr hlast

/-- A list whose ends do not meet the predicate is kept. -/
theorem Trimmed.trim_eq (h : Trimmed p l) : trim p l = l := by
  have hleft : l.dropWhile p = l := by
    cases l with
    | nil => rfl
    | cons a l => exact List.dropWhile_cons_of_neg (by simp [h.head a rfl])
  unfold trim
  rw [hleft, List.rdropWhile_eq_self_iff]
  intro hne
  simp [h.last _ (List.getLast?_eq_some_getLast hne)]

theorem trim_trim (p : α → Bool) (l : List α) : trim p (trim p l) = trim p l :=
  (trimmed_trim p l).trim_eq

/-- A predicate that meets less may be trimmed first. -/
theorem trim_trim_of_imp {q : α → Bool} (h : ∀ a, q a = true → p a = true) (l : List α) :
    trim p (trim q l) = trim p l := by
  obtain ⟨before, after, hl, hbefore, hafter⟩ := exists_around q l
  conv => rhs; rw [hl]
  exact (trim_around (fun a ha => h a (hbefore a ha)) fun a ha => h a (hafter a ha)).symm

theorem trim_map {f : α → α} (h : ∀ a, p (f a) = p a) (l : List α) :
    trim p (l.map f) = (trim p l).map f := by
  have hcomp : p ∘ f = p := funext h
  unfold trim List.rdropWhile
  rw [List.dropWhile_map, hcomp, ← List.map_reverse, List.dropWhile_map, hcomp, List.map_reverse]

/-- What does not meet the predicate stays. -/
theorem countP_trim (p : α → Bool) (l : List α) :
    (trim p l).countP (fun a => !p a) = l.countP fun a => !p a := by
  obtain ⟨before, after, hl, hbefore, hafter⟩ := exists_around p l
  have hnone : ∀ m : List α, (∀ a ∈ m, p a = true) → m.countP (fun a => !p a) = 0 := by
    intro m hm
    refine List.countP_eq_zero.mpr fun a ha => ?_
    simp [hm a ha]
  conv => rhs; rw [hl, List.countP_append, List.countP_append, hnone _ hbefore, hnone _ hafter]
  omega

end Trim
