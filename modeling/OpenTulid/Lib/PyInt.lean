/-
The integer a text stands for, as Python's `int` reads it.

Blanks around the number, a sign, underscores between digits and, in base
sixteen, a prefix `0x` are all taken. Texts are lists of code points, so
that the bytes of a stream and the characters of a string are read alike;
what counts as a blank differs between them and is an argument.
-/
import Mathlib.Data.List.Basic
import Mathlib.Data.List.DropRight

namespace PyInt

/-- The value of a digit. -/
def digit (base code : Nat) : Option Nat :=
  if 48 ≤ code ∧ code ≤ 57 then (if code - 48 < base then some (code - 48) else none)
  else if 97 ≤ code ∧ code ≤ 122 then (if code - 87 < base then some (code - 87) else none)
  else if 65 ≤ code ∧ code ≤ 90 then (if code - 55 < base then some (code - 55) else none)
  else none

/-- Digits with underscores between them; `after` says that the character
before was a digit. -/
def digits (base : Nat) : (acc : Nat) → (after : Bool) → List Nat → Option Nat
  | acc, after, [] => if after then some acc else none
  | acc, after, code :: rest =>
      if code = 95 then (if after then digits base acc false rest else none)
      else match digit base code with
        | some d => digits base (acc * base + d) true rest
        | none => none

/-- A number without a sign: a prefix in base sixteen, which one underscore
may follow. -/
def magnitude (base : Nat) (text : List Nat) : Option Nat :=
  match text with
  | 48 :: x :: rest =>
      if base = 16 ∧ (x = 120 ∨ x = 88) then
        match rest with
        | 95 :: rest => digits base 0 false rest
        | rest => digits base 0 false rest
      else digits base 0 false (48 :: x :: rest)
  | text => digits base 0 false text

/-- A number with its sign. -/
def signed (base : Nat) : List Nat → Option Int
  | 43 :: rest => (magnitude base rest).map Int.ofNat
  | 45 :: rest => (magnitude base rest).map fun n => -(n : Int)
  | text => (magnitude base text).map Int.ofNat

/-- `int` of a text. -/
def intOf (space : Nat → Bool) (base : Nat) (text : List Nat) : Option Int :=
  signed base ((text.dropWhile space).rdropWhile space)

-- =========================================================== plain digits

/-- The number a list of digits spells. -/
def value (base : Nat) (text : List Nat) : Nat :=
  text.foldl (fun n code => n * base + (digit base code).getD 0) 0

/-- Every character is a digit. -/
def Plain (base : Nat) (text : List Nat) : Prop :=
  text ≠ [] ∧ ∀ code ∈ text, (digit base code).isSome

theorem digit_underscore (base : Nat) : digit base 95 = none := by simp [digit]

/-- No sign, blank or prefix letter is a digit. -/
theorem ne_of_digit {base code other : Nat} (h : (digit base code).isSome)
    (hother : digit base other = none) : code ≠ other := by
  rintro rfl
  rw [hother] at h
  cases h

/-- A digit is no blank, and none of the characters before it. -/
theorem le_of_digit {base code : Nat} (h : (digit base code).isSome) : 48 ≤ code := by
  by_contra hlt
  unfold digit at h
  rw [if_neg (by omega), if_neg (by omega), if_neg (by omega)] at h
  cases h

theorem digits_of_plain {base : Nat} {text : List Nat}
    (h : ∀ code ∈ text, (digit base code).isSome) :
    ∀ {acc : Nat} {after : Bool}, (text ≠ [] ∨ after = true) → digits base acc after text =
      some (text.foldl (fun n code => n * base + (digit base code).getD 0) acc) := by
  induction text with
  | nil =>
      intro acc after hne
      rw [digits, if_pos (hne.resolve_left fun h => h rfl)]
      rfl
  | cons code rest ih =>
      intro acc after _
      obtain ⟨hcode, hrest⟩ := List.forall_mem_cons.mp h
      obtain ⟨d, hd⟩ := Option.isSome_iff_exists.mp hcode
      rw [digits, if_neg (ne_of_digit hcode (digit_underscore base)), hd]
      dsimp only
      rw [ih hrest (.inr rfl), List.foldl_cons, hd, Option.getD_some]

/-- Blanks after a text without any are taken off. -/
theorem trim_append {space : Nat → Bool} {text tail : List Nat} (hne : text ≠ [])
    (htext : ∀ code ∈ text, space code = false) (htail : ∀ code ∈ tail, space code = true) :
    ((text ++ tail).dropWhile space).rdropWhile space = text := by
  have hfront : (text ++ tail).dropWhile space = text ++ tail := by
    cases text with
    | nil => exact absurd rfl hne
    | cons code rest =>
        rw [List.cons_append, List.dropWhile_cons_of_neg]
        rw [htext code List.mem_cons_self]
        exact Bool.false_ne_true
  rw [hfront, List.rdropWhile, List.reverse_append, List.dropWhile_append_of_pos]
  · cases hrev : text.reverse with
    | nil => exact absurd (List.reverse_eq_nil_iff.mp hrev) hne
    | cons code rest =>
        have hcode : code ∈ text := List.mem_reverse.mp (by rw [hrev]; exact List.mem_cons_self)
        rw [List.dropWhile_cons_of_neg, ← hrev, List.reverse_reverse]
        rw [htext code hcode]
        exact Bool.false_ne_true
  · exact fun code hcode => htail code (List.mem_reverse.mp hcode)

/-- Plain hexadecimal digits are read as the number they spell. -/
theorem signed_of_plain {text : List Nat} (h : Plain 16 text) :
    signed 16 text = some (value 16 text : Int) := by
  obtain ⟨hne, hall⟩ := h
  have hmagnitude : magnitude 16 text = some (value 16 text) := by
    unfold magnitude
    split
    next x rest =>
      have hx : (digit 16 x).isSome := hall x (by simp)
      rw [if_neg]
      · exact digits_of_plain hall (.inl hne)
      · rintro ⟨-, rfl | rfl⟩
        all_goals simp [digit] at hx
    next => exact digits_of_plain hall (.inl hne)
  unfold signed
  split
  next rest =>
    have hsign := hall 43 (by simp)
    simp [digit] at hsign
  next rest =>
    have hsign := hall 45 (by simp)
    simp [digit] at hsign
  next =>
    rw [hmagnitude]
    rfl

/-- So they are with blanks after them. -/
theorem intOf_append {space : Nat → Bool} {text tail : List Nat} (h : Plain 16 text)
    (hspace : ∀ code, 48 ≤ code → space code = false)
    (htail : ∀ code ∈ tail, space code = true) :
    intOf space 16 (text ++ tail) = some (value 16 text : Int) := by
  unfold intOf
  rw [trim_append h.1 (fun code hcode => hspace code (le_of_digit (h.2 code hcode))) htail,
    signed_of_plain h]

end PyInt
