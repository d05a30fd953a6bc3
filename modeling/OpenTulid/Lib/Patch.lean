/-
Patches of a map: what each of some keys is to hold, one after the other.

A patch gives a key its new value, or none where the key is to go. Where no
key occurs twice the order says nothing: a key holds what the patch gives it
(`apply_of_mem`), and every other key what it held (`apply_of_not_mem`).
-/
import Mathlib.Data.List.Nodup

namespace Patch

variable {κ ν : Type} [DecidableEq κ]

/-- The map once every entry of the patch is in. -/
def apply : List (κ × Option ν) → (κ → Option ν) → κ → Option ν
  | [], m => m
  | (k, v) :: rest, m => apply rest (Function.update m k v)

/-- A key the patch is not about. -/
theorem apply_of_not_mem {patch : List (κ × Option ν)} {m : κ → Option ν} {k : κ}
    (h : k ∉ patch.map Prod.fst) : apply patch m k = m k := by
  induction patch generalizing m with
  | nil => rfl
  | cons e rest ih =>
      rw [List.map_cons, List.mem_cons, not_or] at h
      rw [apply, ih h.2, Function.update_of_ne h.1]

/-- A key the patch is about, once. -/
theorem apply_of_mem {patch : List (κ × Option ν)} {m : κ → Option ν} {k : κ} {v : Option ν}
    (hnodup : (patch.map Prod.fst).Nodup) (h : (k, v) ∈ patch) : apply patch m k = v := by
  induction patch generalizing m with
  | nil => cases h
  | cons e rest ih =>
      rw [List.map_cons, List.nodup_cons] at hnodup
      rcases List.mem_cons.mp h with rfl | h
      · rw [apply, apply_of_not_mem hnodup.1, Function.update_self]
      · exact ih hnodup.2 h

end Patch
