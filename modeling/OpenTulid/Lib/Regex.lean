/-
Regular expressions over characters, and the texts that stand for them.

# Meaning

A regular expression is read as the language of the texts that match it as a
whole. `fullmatch` decides it by derivatives (`fullmatch_iff`).

# Texts

`compile` reads the text of a regular expression: characters, escaped
punctuation, the dot, sets, groups that capture nothing, `*` and `?`. Other
constructs are not read. A text is read item by item: `ItemText` is what the
text of one item promises, and a text of items is read as their sequence
(`compile_items`).
-/
import Mathlib.Computability.Language
import Mathlib.Data.Char

open Computability

namespace Regex

-- ============================================================ character sets

/-- A set of characters: those of the ranges, or all others. -/
structure CharSet where
  negated : Bool := false
  ranges : List (Char × Char)
  deriving DecidableEq

/-- A character is in one of the ranges. -/
def inRanges (ranges : List (Char × Char)) (c : Char) : Bool :=
  ranges.any fun range => range.1 ≤ c && c ≤ range.2

namespace CharSet

def has (s : CharSet) (c : Char) : Bool := inRanges s.ranges c != s.negated

/-- One character. -/
def single (c : Char) : CharSet := { ranges := [(c, c)] }

/-- All characters but one. -/
def without (c : Char) : CharSet := { negated := true, ranges := [(c, c)] }

@[simp] theorem has_single {c d : Char} : (single c).has d = true ↔ d = c := by
  have hranges : (single c).has d = (decide (c ≤ d) && decide (d ≤ c)) := by
    unfold single has inRanges
    simp
  rw [hranges, Bool.and_eq_true_iff, decide_eq_true_iff, decide_eq_true_iff]
  constructor
  · intro h
    exact le_antisymm h.2 h.1
  · intro h
    exact ⟨h.ge, h.le⟩

@[simp] theorem has_without {c d : Char} : (without c).has d = true ↔ d ≠ c := by
  have hsame : (single c).has d = !(without c).has d := by
    unfold single without has
    simp
  rw [ne_eq, ← has_single, hsame]
  simp

end CharSet

end Regex

-- ======================================================= regular expressions

/-- Regular expressions. -/
inductive Regex where
  | none
  | empty
  | set (s : Regex.CharSet)
  | seq (r₁ r₂ : Regex)
  | alt (r₁ r₂ : Regex)
  | star (r : Regex)
  deriving DecidableEq

namespace Regex

/-- The texts that a regular expression matches. -/
def language : Regex → Language Char
  | none => 0
  | empty => 1
  | set s => {w | ∃ c, s.has c = true ∧ w = [c]}
  | seq r₁ r₂ => r₁.language * r₂.language
  | alt r₁ r₂ => r₁.language + r₂.language
  | star r => r.language∗

variable {r r₁ r₂ : Regex} {s : CharSet} {w : List Char} {c : Char}

@[simp] theorem mem_none : w ∈ none.language ↔ False := Iff.rfl

@[simp] theorem mem_empty : w ∈ empty.language ↔ w = [] := Iff.rfl

@[simp] theorem mem_set : w ∈ (set s).language ↔ ∃ c, s.has c = true ∧ w = [c] := Iff.rfl

theorem mem_seq :
    w ∈ (seq r₁ r₂).language ↔ ∃ a ∈ r₁.language, ∃ b ∈ r₂.language, a ++ b = w :=
  Language.mem_mul

@[simp] theorem mem_alt : w ∈ (alt r₁ r₂).language ↔ w ∈ r₁.language ∨ w ∈ r₂.language := Iff.rfl

/-- What is repeated character by character. -/
@[simp] theorem mem_star_set : w ∈ (star (set s)).language ↔ ∀ c ∈ w, s.has c = true := by
  show w ∈ (set s).language∗ ↔ _
  rw [Language.mem_kstar]
  constructor
  · rintro ⟨parts, rfl, hparts⟩ c hc
    obtain ⟨part, hpart, hc⟩ := List.mem_flatten.mp hc
    obtain ⟨d, hd, rfl⟩ := hparts part hpart
    rw [List.mem_singleton.mp hc]
    exact hd
  · intro hall
    have hw : w = (w.map fun c => [c]).flatten := by
      rw [← List.flatMap_def]
      simp
    refine ⟨w.map fun c => [c], hw, fun part hpart => ?_⟩
    obtain ⟨c, hc, rfl⟩ := List.mem_map.mp hpart
    exact ⟨c, hall c hc, rfl⟩

-- =============================================================== derivatives

/-- The empty text matches. -/
def nullable : Regex → Bool
  | none => false
  | empty => true
  | set _ => false
  | seq r₁ r₂ => r₁.nullable && r₂.nullable
  | alt r₁ r₂ => r₁.nullable || r₂.nullable
  | star _ => true

/-- What is left to match behind a character. -/
def deriv (c : Char) : Regex → Regex
  | none => none
  | empty => none
  | set s => if s.has c then empty else none
  | seq r₁ r₂ =>
      if r₁.nullable then alt (seq (r₁.deriv c) r₂) (r₂.deriv c) else seq (r₁.deriv c) r₂
  | alt r₁ r₂ => alt (r₁.deriv c) (r₂.deriv c)
  | star r => seq (r.deriv c) (star r)

/-- The text matches as a whole. -/
def fullmatch (r : Regex) (w : List Char) : Bool :=
  (w.foldl (fun r c => r.deriv c) r).nullable

theorem nullable_iff : r.nullable = true ↔ [] ∈ r.language := by
  induction r with
  | none => simp [nullable]
  | empty => simp [nullable]
  | set s => simp [nullable]
  | seq r₁ r₂ ih₁ ih₂ =>
      have hboth : (seq r₁ r₂).nullable = true ↔ r₁.nullable = true ∧ r₂.nullable = true :=
        Bool.and_eq_true_iff
      rw [mem_seq, hboth, ih₁, ih₂]
      constructor
      · rintro ⟨h₁, h₂⟩
        exact ⟨[], h₁, [], h₂, rfl⟩
      · rintro ⟨a, ha, b, hb, hab⟩
        obtain ⟨rfl, rfl⟩ := List.append_eq_nil_iff.mp hab
        exact ⟨ha, hb⟩
  | alt r₁ r₂ ih₁ ih₂ =>
      have heither : (alt r₁ r₂).nullable = true ↔ r₁.nullable = true ∨ r₂.nullable = true :=
        Bool.or_eq_true_iff
      rw [mem_alt, heither, ih₁, ih₂]
  | star r => exact ⟨fun _ => Language.nil_mem_kstar _, fun _ => rfl⟩

/-- A text that is repeated begins with one repetition. -/
theorem cons_mem_star :
    c :: w ∈ (star r).language ↔ ∃ a b, w = a ++ b ∧ c :: a ∈ r.language ∧ b ∈ (star r).language := by
  constructor
  · intro h
    obtain ⟨parts, heq, hparts⟩ := Language.mem_kstar_iff_exists_nonempty.mp h
    cases parts with
    | nil => cases heq
    | cons part parts =>
        obtain ⟨hpart, hne⟩ := hparts part (by simp)
        cases part with
        | nil => exact absurd rfl hne
        | cons d a =>
            rw [List.flatten_cons, List.cons_append] at heq
            obtain ⟨rfl, rfl⟩ := List.cons.inj heq
            exact ⟨a, _, rfl, hpart,
              Language.join_mem_kstar fun part h => (hparts part (by simp [h])).1⟩
  · rintro ⟨a, b, rfl, ha, hb⟩
    obtain ⟨parts, rfl, hparts⟩ := Language.mem_kstar.mp hb
    refine Language.mem_kstar.mpr ⟨(c :: a) :: parts, rfl, fun part h => ?_⟩
    rcases List.mem_cons.mp h with rfl | h
    · exact ha
    · exact hparts part h

theorem mem_deriv : w ∈ (r.deriv c).language ↔ c :: w ∈ r.language := by
  induction r generalizing w with
  | none => simp [deriv]
  | empty => simp [deriv]
  | set s =>
      unfold deriv
      split
      next h => simp [h]
      next h => simp [h]
  | seq r₁ r₂ ih₁ ih₂ =>
      have hfirst : w ∈ (seq (r₁.deriv c) r₂).language ↔
          ∃ a, c :: a ∈ r₁.language ∧ ∃ b ∈ r₂.language, a ++ b = w := by
        rw [mem_seq]
        exact exists_congr fun a => and_congr_left' ih₁
      have hsplit : c :: w ∈ (seq r₁ r₂).language ↔
          ([] ∈ r₁.language ∧ c :: w ∈ r₂.language) ∨
            ∃ a, c :: a ∈ r₁.language ∧ ∃ b ∈ r₂.language, a ++ b = w := by
        rw [mem_seq]
        constructor
        · rintro ⟨a, ha, b, hb, hab⟩
          cases a with
          | nil => exact .inl ⟨ha, hab ▸ hb⟩
          | cons d a =>
              obtain ⟨rfl, rfl⟩ := List.cons.inj hab
              exact .inr ⟨a, ha, b, hb, rfl⟩
        · rintro (⟨hnil, hw⟩ | ⟨a, ha, b, hb, rfl⟩)
          · exact ⟨[], hnil, _, hw, rfl⟩
          · exact ⟨_, ha, b, hb, rfl⟩
      rw [hsplit]
      unfold deriv
      split
      next hnull => rw [mem_alt, hfirst, ih₂, or_comm, iff_true_intro (nullable_iff.mp hnull), true_and]
      next hnull => rw [hfirst, iff_false_intro fun h => hnull (nullable_iff.mpr h), false_and, false_or]
  | alt r₁ r₂ ih₁ ih₂ => simp [deriv, ih₁, ih₂]
  | star r ih =>
      rw [cons_mem_star]
      unfold deriv
      rw [mem_seq]
      constructor
      · rintro ⟨a, ha, b, hb, rfl⟩
        exact ⟨a, b, rfl, ih.mp ha, hb⟩
      · rintro ⟨a, b, rfl, ha, hb⟩
        exact ⟨a, ih.mpr ha, b, hb, rfl⟩

theorem fullmatch_iff : r.fullmatch w = true ↔ w ∈ r.language := by
  induction w generalizing r with
  | nil => exact nullable_iff
  | cons c w ih =>
      have hstep : r.fullmatch (c :: w) = (r.deriv c).fullmatch w := rfl
      rw [hstep, ih, mem_deriv]

-- ================================================================= sequences

/-- Expressions one after the other. -/
def seqAll (rs : List Regex) : Regex := rs.foldr seq empty

@[simp] theorem mem_seqAll_nil : w ∈ (seqAll []).language ↔ w = [] := Iff.rfl

theorem mem_seqAll_cons {rs : List Regex} :
    w ∈ (seqAll (r :: rs)).language ↔
      ∃ a ∈ r.language, ∃ b ∈ (seqAll rs).language, a ++ b = w := mem_seq

theorem mem_seqAll_append {rs rs' : List Regex} :
    w ∈ (seqAll (rs ++ rs')).language ↔
      ∃ a ∈ (seqAll rs).language, ∃ b ∈ (seqAll rs').language, a ++ b = w := by
  induction rs generalizing w with
  | nil => simp
  | cons r rs ih =>
      rw [List.cons_append, mem_seqAll_cons]
      constructor
      · rintro ⟨a, ha, b, hb, rfl⟩
        obtain ⟨b₁, hb₁, b₂, hb₂, rfl⟩ := ih.mp hb
        exact ⟨a ++ b₁, mem_seqAll_cons.mpr ⟨a, ha, b₁, hb₁, rfl⟩, b₂, hb₂, by simp⟩
      · rintro ⟨a, ha, b, hb, rfl⟩
        obtain ⟨a₁, ha₁, a₂, ha₂, rfl⟩ := mem_seqAll_cons.mp ha
        exact ⟨a₁, ha₁, a₂ ++ b, ih.mpr ⟨a₂, ha₂, b, hb, rfl⟩, by simp⟩

-- ===================================================================== texts

/-- Characters that `escape` puts a backslash before. -/
def isSpecial (c : Char) : Bool := c ∈ "()[]\x7b\x7d?*+-|^$\\.&~# \t\n\r\x0b\x0c".toList

/-- The text of one character. -/
def escape (c : Char) : List Char := if isSpecial c then ['\\', c] else [c]

/-- The ranges of a set that holds no bracket and no backslash; a range that ends
before it begins is an error. -/
def rangesOf : List Char → Option (List (Char × Char))
  | [] => some []
  | c :: rest =>
      match rest with
      | '-' :: hi :: rest =>
          if hi < c then Option.none else (rangesOf rest).map ((c, hi) :: ·)
      | ['-'] => some [(c, c), ('-', '-')]
      | rest => (rangesOf rest).map ((c, c) :: ·)

/-- The ranges up to the bracket that closes a set, and what follows; `first` is
set while a bracket stands for itself. -/
def readRanges (first : Bool) : List Char → Option (List (Char × Char) × List Char)
  | [] => Option.none
  | c :: rest =>
      if c = ']' ∧ first = false then some ([], rest)
      else if c = '\\' then Option.none
      else match rest with
        | '-' :: hi :: rest =>
            if hi = ']' then some ([(c, c), ('-', '-')], rest)
            else if hi = '\\' ∨ hi < c then Option.none
            else (readRanges false rest).map fun e => ((c, hi) :: e.1, e.2)
        | rest => (readRanges false rest).map fun e => ((c, c) :: e.1, e.2)

/-- Characters that are no item of their own. -/
def isOperator (c : Char) : Bool := c ∈ "\\()[\x7b*+?|^$".toList

/-- The first part of an item, and what follows it; a group is read by `seqOf`. -/
def readAtom (seqOf : List Char → Option (Regex × List Char)) :
    List Char → Option (Regex × List Char)
  | '(' :: '?' :: ':' :: rest =>
      match seqOf rest with
      | some (r, ')' :: rest) => some (r, rest)
      | _ => Option.none
  | '[' :: '^' :: rest =>
      (readRanges true rest).map fun e => (.set { negated := true, ranges := e.1 }, e.2)
  | '[' :: rest => (readRanges true rest).map fun e => (.set { ranges := e.1 }, e.2)
  | '.' :: rest => some (.set (.without '\n'), rest)
  | '\\' :: c :: rest => if c.isAlphanum then Option.none else some (.set (.single c), rest)
  | c :: rest => if isOperator c then Option.none else some (.set (.single c), rest)
  | [] => Option.none

/-- An item, and what follows it. -/
def readItem (seqOf : List Char → Option (Regex × List Char)) (text : List Char) :
    Option (Regex × List Char) :=
  match readAtom seqOf text with
  | some (r, '*' :: rest) => some (.star r, rest)
  | some (r, '?' :: rest) => some (.alt r .empty, rest)
  | answer => answer

/-- The items up to the end of a group or of the text. -/
def readSeq : Nat → List Char → Option (Regex × List Char)
  | 0, _ => Option.none
  | n + 1, text =>
      if text.head? = Option.none ∨ text.head? = some ')' then some (.empty, text)
      else
        match readItem (readSeq n) text with
        | some (r, rest) => (readSeq n rest).map fun e => (r.seq e.1, e.2)
        | Option.none => Option.none

/-- The regular expression of a text, where a match begins with the text. -/
def compile (text : List Char) : Option Regex :=
  let text := if text.head? = some '^' then text.tail else text
  match readSeq (text.length + 1) text with
  | some (r, []) => some r
  | _ => Option.none

-- ===================================================== what a text is read as

/-- What follows is no operator on the item before it. -/
def Ends (rest : List Char) : Prop := rest.head? ≠ some '*' ∧ rest.head? ≠ some '?'

/-- The text of a part that is read as an expression, whatever follows. -/
structure AtomText (text : List Char) (r : Regex) : Prop where
  ends : Ends text
  head : ∃ c rest, text = c :: rest ∧ c ≠ ')'
  read : ∀ seqOf rest, readAtom seqOf (text ++ rest) = some (r, rest)

/-- The text of an item that is read as an expression; groups in it take `k`
rounds. -/
structure ItemText (k : Nat) (text : List Char) (r : Regex) : Prop where
  ends : Ends text
  head : ∃ c rest, text = c :: rest ∧ c ≠ ')'
  read : ∀ n, k ≤ n → ∀ rest, Ends rest → readItem (readSeq n) (text ++ rest) = some (r, rest)

variable {k : Nat} {text rest content : List Char} {ts : List (List Char)} {rs : List Regex}
  {ranges : List (Char × Char)}

theorem Ends.append (h : Ends text) (hrest : Ends rest) : Ends (text ++ rest) := by
  cases text with
  | nil => exact hrest
  | cons c text => exact h

theorem ItemText.mono {n : Nat} (h : ItemText k text r) (hle : k ≤ n) : ItemText n text r where
  ends := h.ends
  head := h.head
  read m hm rest hrest := h.read m (Nat.le_trans hle hm) rest hrest

theorem AtomText.item (h : AtomText text r) : ItemText k text r where
  ends := h.ends
  head := h.head
  read n hn rest hrest := by
    unfold readItem
    rw [h.read]
    split
    next heq =>
      cases heq
      exact absurd rfl hrest.1
    next heq =>
      cases heq
      exact absurd rfl hrest.2
    next => rfl

theorem AtomText.star (h : AtomText text r) : ItemText k (text ++ ['*']) (.star r) where
  ends := by
    obtain ⟨c, rest, rfl, -⟩ := h.head
    exact h.ends
  head := by
    obtain ⟨c, rest, rfl, hc⟩ := h.head
    exact ⟨c, rest ++ ['*'], rfl, hc⟩
  read n hn rest hrest := by
    unfold readItem
    rw [List.append_assoc, h.read]
    rfl

/-- The text of items is read as their sequence. -/
theorem readSeq_items (h : List.Forall₂ (ItemText k) ts rs) {n : Nat} (hn : ts.length + k < n)
    (hrest : rest = [] ∨ rest.head? = some ')') :
    readSeq n (ts.flatten ++ rest) = some (seqAll rs, rest) := by
  have hends : Ends rest := by
    rcases hrest with rfl | hrest
    · unfold Ends
      simp
    · unfold Ends
      rw [hrest]
      decide
  induction h generalizing n with
  | nil =>
      obtain ⟨n, rfl⟩ := Nat.exists_eq_add_of_lt hn
      unfold readSeq
      rw [if_pos]
      · rfl
      · rcases hrest with rfl | hrest
        · exact .inl rfl
        · exact .inr hrest
  | @cons t r ts rs hitem hitems ih =>
      obtain ⟨m, rfl⟩ : ∃ m, n = m + 1 := Nat.exists_eq_succ_of_ne_zero (by omega)
      obtain ⟨c, text, rfl, hc⟩ := hitem.head
      have hlater : Ends (ts.flatten ++ rest) := by
        cases hitems with
        | nil => exact hends
        | cons hnext _ =>
            rw [List.flatten_cons, List.append_assoc]
            obtain ⟨d, more, rfl, -⟩ := hnext.head
            exact hnext.ends
      rw [List.length_cons] at hn
      unfold readSeq
      rw [List.flatten_cons, List.append_assoc, if_neg, hitem.read m (by omega) _ hlater]
      · dsimp only
        rw [ih (by omega)]
        rfl
      · rintro (hnone | hclose)
        · cases hnone
        · exact hc (Option.some.inj hclose)

/-- A group that may be left out. -/
theorem ItemText.group (h : List.Forall₂ (ItemText k) ts rs) :
    ItemText (ts.length + k + 1) ("(?:".toList ++ ts.flatten ++ ")?".toList)
      (.alt (seqAll rs) .empty) where
  ends := by
    unfold Ends
    simp
  head := ⟨'(', _, rfl, by decide⟩
  read n hn rest hrest := by
    have hread : readSeq n (ts.flatten ++ ')' :: '?' :: rest) =
        some (seqAll rs, ')' :: '?' :: rest) := readSeq_items h (by omega) (.inr rfl)
    have hatom : readAtom (readSeq n) ("(?:".toList ++ ts.flatten ++ ")?".toList ++ rest) =
        some (seqAll rs, '?' :: rest) := by
      have htext : "(?:".toList ++ ts.flatten ++ ")?".toList ++ rest =
          '(' :: '?' :: ':' :: (ts.flatten ++ ')' :: '?' :: rest) := by simp
      rw [htext, readAtom, hread]
      rfl
    rw [readItem, hatom]
    rfl

/-- The text of items, all of which are to match from the beginning. -/
theorem compile_items (h : List.Forall₂ (ItemText k) ts rs)
    (hk : ts.length + k ≤ ts.flatten.length) : compile ('^' :: ts.flatten) = some (seqAll rs) := by
  have hread := readSeq_items h (Nat.lt_succ_of_le hk) (.inl rfl)
  rw [List.append_nil] at hread
  have hhead : ('^' :: ts.flatten).head? = some '^' := rfl
  unfold compile
  rw [if_pos hhead, List.tail_cons]
  dsimp only
  rw [hread]

-- ===================================================================== items

theorem atomText_escape (c : Char) : AtomText (escape c) (.set (.single c)) := by
  unfold escape
  split
  next h =>
    refine ⟨⟨by simp, by simp⟩, ⟨'\\', _, rfl, by decide⟩, fun seqOf rest => ?_⟩
    have hpunct : c.isAlphanum = false := by
      have hall : ("()[]\x7b\x7d?*+-|^$\\.&~# \t\n\r\x0b\x0c".toList.all
          fun d => !d.isAlphanum) = true := by rfl
      simpa using List.all_eq_true.mp hall c (of_decide_eq_true h)
    show (if c.isAlphanum then Option.none else some (Regex.set (.single c), rest)) = _
    rw [hpunct]
    rfl
  next h =>
    have hne : ∀ d ∈ "()[]\x7b\x7d?*+-|^$\\.&~# \t\n\r\x0b\x0c".toList, c ≠ d := by
      rintro d hd rfl
      exact h (decide_eq_true hd)
    simp at hne
    refine ⟨⟨?_, ?_⟩, ⟨c, _, rfl, ?_⟩, fun seqOf rest => ?_⟩
    · simp [hne]
    · simp [hne]
    · simp [hne]
    · have hop : isOperator c = false := by simp [isOperator, hne]
      simp [readAtom, hne, hop]

/-- The ranges of a set, read up to its end. -/
theorem readRanges_content {first : Bool} (hranges : rangesOf content = some ranges)
    (hclose : ']' ∉ content) (hescape : '\\' ∉ content) (hfirst : content ≠ [] ∨ first = false) :
    readRanges first (content ++ ']' :: rest) = some (ranges, rest) := by
  fun_induction rangesOf content generalizing ranges first with
  | case1 =>
      cases hranges
      have hflag : first = false := by simpa using hfirst
      rw [hflag]
      show readRanges false (']' :: rest) = _
      unfold readRanges
      rw [if_pos (by simp)]
  | case2 c hi more hlt => cases hranges
  | case3 c hi more hlt ih =>
      simp only [List.mem_cons, not_or] at hclose hescape
      obtain ⟨hc, -, hhi, hmore⟩ := hclose
      obtain ⟨hc', -, hhi', hmore'⟩ := hescape
      obtain ⟨tail, htail, rfl⟩ := Option.map_eq_some_iff.mp hranges
      show readRanges first (c :: '-' :: hi :: (more ++ ']' :: rest)) = _
      rw [readRanges, if_neg, if_neg (Ne.symm hc')]
      · rw [if_neg (Ne.symm hhi), if_neg, ih htail hmore hmore' (.inr rfl)]
        · rfl
        · rintro (hback | hback)
          · exact hhi' hback.symm
          · exact hlt hback
      · rintro ⟨hbracket, -⟩
        exact hc hbracket.symm
  | case4 c =>
      simp only [List.mem_cons, not_or] at hclose hescape
      cases hranges
      show readRanges first (c :: '-' :: ']' :: rest) = _
      rw [readRanges, if_neg, if_neg (Ne.symm hescape.1)]
      · rw [if_pos rfl]
      · rintro ⟨hbracket, -⟩
        exact hclose.1 hbracket.symm
  | case5 c more hdash hmore ih =>
      simp only [List.mem_cons, not_or] at hclose hescape
      obtain ⟨tail, htail, rfl⟩ := Option.map_eq_some_iff.mp hranges
      rw [List.cons_append, readRanges, if_neg, if_neg (Ne.symm hescape.1)]
      · rw [ih htail hclose.2 hescape.2 (.inr rfl)]
        rfl
      · rintro ⟨hbracket, -⟩
        exact hclose.1 hbracket.symm
      · -- what follows the character is no range
        intro hi more' heq
        cases more with
        | nil => cases heq
        | cons d more =>
            cases more with
            | nil =>
                cases heq
                exact hmore rfl
            | cons e more =>
                cases heq
                exact hdash _ _ rfl

/-- The first character of a set is one of it. -/
theorem inRanges_head (hranges : rangesOf (c :: content) = some ranges) :
    inRanges ranges c = true := by
  have hfirst : ∃ hi more, ranges = (c, hi) :: more ∧ c ≤ hi := by
    unfold rangesOf at hranges
    split at hranges
    next hi more =>
      split at hranges
      next => cases hranges
      next hlt =>
        obtain ⟨more, -, rfl⟩ := Option.map_eq_some_iff.mp hranges
        exact ⟨hi, more, rfl, not_lt.mp hlt⟩
    next =>
      cases hranges
      exact ⟨c, _, rfl, le_refl c⟩
    next =>
      obtain ⟨more, -, rfl⟩ := Option.map_eq_some_iff.mp hranges
      exact ⟨c, more, rfl, le_refl c⟩
  obtain ⟨hi, more, rfl, hle⟩ := hfirst
  simp [inRanges, hle]

theorem atomText_negated (hranges : rangesOf content = some ranges) (hne : content ≠ [])
    (hclose : ']' ∉ content) (hescape : '\\' ∉ content) :
    AtomText ('[' :: '^' :: content ++ [']']) (.set { negated := true, ranges := ranges }) := by
  refine ⟨⟨by simp, by simp⟩, ⟨'[', _, rfl, by decide⟩, fun seqOf rest => ?_⟩
  have hread : readRanges true (content ++ ']' :: rest) = some (ranges, rest) :=
    readRanges_content hranges hclose hescape (.inl hne)
  have htext : '[' :: '^' :: content ++ [']'] ++ rest = '[' :: '^' :: (content ++ ']' :: rest) := by
    simp
  rw [htext, readAtom, hread]
  rfl

theorem atomText_set (hranges : rangesOf content = some ranges) (hne : content ≠ [])
    (hclose : ']' ∉ content) (hescape : '\\' ∉ content) (hnegated : content.head? ≠ some '^') :
    AtomText ('[' :: content ++ [']']) (.set { ranges := ranges }) := by
  refine ⟨⟨by simp, by simp⟩, ⟨'[', _, rfl, by decide⟩, fun seqOf rest => ?_⟩
  have hread : readRanges true (content ++ ']' :: rest) = some (ranges, rest) :=
    readRanges_content hranges hclose hescape (.inl hne)
  have htext : '[' :: content ++ [']'] ++ rest = '[' :: (content ++ ']' :: rest) := by simp
  rw [htext]
  cases content with
  | nil => exact absurd rfl hne
  | cons c content =>
      have hc : c ≠ '^' := by
        rintro rfl
        exact hnegated rfl
      rw [List.cons_append] at hread ⊢
      rw [readAtom, hread]
      · rfl
      · intro more heq
        exact hc (List.cons.inj heq).1

end Regex
