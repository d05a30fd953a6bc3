/-
The texts of a packet: what `strip` leaves of them.

A text without blanks at its ends (`Tight`) is kept by `strip` wherever it
stands (`Tight.infix_strip`). The lines of the checks and the instructions
for the completion are such texts.
-/
import OpenTulid.Runtime.Prompts
import Mathlib

namespace OpenTulid.Frozen.Prompt

open Standard (isSpace)

-- ================================================================= texts

/-- Without blanks around, a text is kept by `strip` wherever it stands. -/
theorem infix_dropWhile {part text : Text} (hpart : ∀ c ∈ part.head?, isSpace c = false)
    (h : part <:+: text) : part <:+: text.dropWhile isSpace := by
  induction text with
  | nil => exact h
  | cons c text ih =>
      rw [List.dropWhile_cons]
      split
      next hspace =>
        rcases List.infix_cons_iff.mp h with hlead | hinfix
        · cases part with
          | nil => exact List.nil_infix
          | cons d part =>
              obtain ⟨rfl, -⟩ := List.cons_prefix_cons.mp hlead
              have := hpart d rfl
              rw [hspace] at this
              cases this
        · exact ih hinfix
      next => exact h

theorem infix_rdropWhile {part text : Text} (hpart : ∀ c ∈ part.getLast?, isSpace c = false)
    (h : part <:+: text) : part <:+: text.rdropWhile isSpace := by
  unfold List.rdropWhile
  rw [← List.reverse_infix, List.reverse_reverse]
  refine infix_dropWhile ?_ (List.reverse_infix.mpr h)
  rwa [List.head?_reverse]

/-- An end of a text that is no space, by evaluation. -/
theorem end_of_all {o : Option Char} (h : o.all (fun c => !isSpace c) = true) :
    ∀ c ∈ o, isSpace c = false := by
  rintro c rfl
  simpa using h

/-- No blanks at the ends. -/
structure Tight (text : Text) : Prop where
  head : ∀ c ∈ text.head?, isSpace c = false
  last : ∀ c ∈ text.getLast?, isSpace c = false

theorem Tight.infix_strip {part text : Text} (h : Tight part) (hpart : part <:+: text) :
    part <:+: strip text :=
  infix_rdropWhile h.last (infix_dropWhile h.head hpart)

theorem length_strip_le (text : Text) : (strip text).length ≤ text.length :=
  (List.rdropWhile_prefix isSpace (text.dropWhile isSpace)).length_le.trans
    (List.dropWhile_suffix isSpace).length_le

theorem Tight.strip_eq {text : Text} (h : Tight text) : strip text = text :=
  ((h.infix_strip (List.infix_refl _)).eq_of_length_le (length_strip_le text)).symm

/-- Between two texts without blanks at the near ends, anything. -/
theorem Tight.append {a b : Text} (text : Text) (ha : Tight a) (hb : Tight b) (hane : a ≠ [])
    (hbne : b ≠ []) : Tight (a ++ text ++ b) where
  head := by
    rw [List.append_assoc, List.head?_append_of_ne_nil _ hane]
    exact ha.head
  last := by
    rw [List.getLast?_append_of_ne_nil _ hbne]
    exact hb.last

theorem last_rstrip (text : Text) : ∀ c ∈ (rstrip text).getLast?, isSpace c = false := by
  intro c hc
  have hne : rstrip text ≠ [] := by
    intro hempty
    rw [hempty] at hc
    cases hc
  have hnot := List.rdropWhile_last_not isSpace text hne
  rw [List.getLast?_eq_some_getLast hne] at hc
  rw [← Option.some.inj hc]
  exact Bool.not_eq_true _ ▸ hnot

theorem tight_strip (text : Text) : Tight (strip text) where
  head := by
    intro c hc
    obtain ⟨rest, hrest⟩ := List.head?_eq_some_iff.mp hc
    obtain ⟨after, hafter⟩ := List.rdropWhile_prefix isSpace (text.dropWhile isSpace)
    have hhead : (text.dropWhile isSpace).head? = some c := by
      rw [← hafter]
      show (strip text ++ after).head? = some c
      rw [hrest]
      rfl
    have hnot := List.head?_dropWhile_not isSpace text
    rw [hhead] at hnot
    exact hnot
  last := last_rstrip (text.dropWhile isSpace)

theorem joined_append (separator : String) (text : Text) (texts more : List Text) :
    joined separator (text :: texts ++ more) =
      joined separator (text :: texts) ++ more.flatMap (separator.toList ++ ·) := by
  rw [List.cons_append, joined, joined, List.flatMap_append, List.append_assoc]

/-- What is joined first stands first. -/
theorem joined_isPrefix (separator : String) (texts more : List Text) :
    joined separator texts <+: joined separator (texts ++ more) := by
  cases texts with
  | nil => exact List.nil_prefix
  | cons text texts =>
      rw [joined_append]
      exact List.prefix_append _ _

theorem infix_joined {separator : String} {text : Text} {texts : List Text} (h : text ∈ texts) :
    text <:+: joined separator texts := by
  cases texts with
  | nil => cases h
  | cons first texts =>
      rw [joined]
      rcases List.mem_cons.mp h with rfl | h
      · exact (List.prefix_append _ _).isInfix
      · have hmore : text <:+: texts.flatMap (separator.toList ++ ·) :=
          (List.suffix_append _ _).isInfix.trans
            (List.infix_of_mem_flatten (List.mem_map_of_mem h))
        exact hmore.trans (List.suffix_append _ _).isInfix

-- ======================================================= mandatory texts

/-- Joined texts start as the first does and end as the last does. -/
theorem tight_joined {separator : String} {texts : List Text}
    (hfirst : ∀ t ∈ texts.head?, t ≠ [] ∧ ∀ c ∈ t.head?, isSpace c = false)
    (hlast : ∀ t ∈ texts.getLast?, t ≠ [] ∧ ∀ c ∈ t.getLast?, isSpace c = false) :
    Tight (joined separator texts) := by
  cases texts with
  | nil => exact ⟨nofun, nofun⟩
  | cons first texts =>
      obtain ⟨hne, hhead⟩ := hfirst first rfl
      constructor
      · rw [joined, List.head?_append_of_ne_nil _ hne]
        exact hhead
      · rcases List.eq_nil_or_concat' texts with rfl | ⟨middle, last, rfl⟩
        · rw [joined, List.flatMap_nil, List.append_nil]
          exact (hlast first rfl).2
        · obtain ⟨hlastne, hend⟩ := hlast last (by
            rw [← List.cons_append]
            exact List.getLast?_concat)
          rw [joined, List.flatMap_append, List.flatMap_singleton, ← List.append_assoc,
            ← List.append_assoc, List.getLast?_append_of_ne_nil _ hlastne]
          exact hend

theorem isSpace_of_isShellSafe {c : Char} (h : isShellSafe c = true) : isSpace c = false := by
  unfold isShellSafe at h
  rw [Bool.or_eq_true] at h
  rcases h with halnum | hmark
  · rw [Bool.eq_false_iff]
    intro hspace
    simp only [Char.isAlphanum, Char.isAlpha, Char.isUpper, Char.isLower, Char.isDigit,
      Bool.or_eq_true, Bool.and_eq_true, decide_eq_true_eq, UInt32.le_iff_toNat_le,
      ge_iff_le] at halnum
    simp only [isSpace, Bool.or_eq_true, Bool.and_eq_true, decide_eq_true_eq]
      at hspace
    simp at halnum
    omega
  · have hall : ("_@%+=:,./-".toList.all fun c => !isSpace c) = true := by decide +kernel
    simpa using List.all_eq_true.mp hall c (of_decide_eq_true hmark)

theorem shellQuote_end (word : String) :
    shellQuote word ≠ [] ∧ ∀ c ∈ (shellQuote word).getLast?, isSpace c = false := by
  unfold shellQuote
  split
  · exact ⟨by decide, end_of_all rfl⟩
  · next hword =>
    split
    next hsafe =>
      refine ⟨fun hnil => hword (String.toList_eq_nil_iff.mp hnil), fun c hc => ?_⟩
      exact isSpace_of_isShellSafe (List.all_eq_true.mp hsafe c (List.mem_of_getLast? hc))
    next =>
      refine ⟨by simp, ?_⟩
      rw [List.getLast?_append_of_ne_nil _ (by decide)]
      exact end_of_all rfl

theorem tight_checkLine (check : ResolvedCheck) : Tight (checkLine check) := by
  constructor
  · unfold checkLine
    rw [List.append_assoc, List.append_assoc, List.head?_append_of_ne_nil _ (by decide)]
    exact end_of_all rfl
  · unfold checkLine
    split
    · rw [List.getLast?_append_of_ne_nil _ (by decide)]
      exact end_of_all rfl
    · next hargv =>
      obtain ⟨middle, last, hsplit⟩ := (List.eq_nil_or_concat' check.argv).resolve_left hargv
      obtain ⟨hne, hend⟩ := shellQuote_end last
      have hjoin : ∃ before, shellJoin check.argv = before ++ shellQuote last := by
        unfold shellJoin
        rw [hsplit, List.map_append, List.map_singleton]
        cases middle.map shellQuote with
        | nil => exact ⟨[], by simp [joined]⟩
        | cons first rest =>
            rw [joined_append, List.flatMap_singleton, ← List.append_assoc]
            exact ⟨_, rfl⟩
      obtain ⟨before, hjoin⟩ := hjoin
      rw [hjoin, ← List.append_assoc, List.getLast?_append_of_ne_nil _ hne]
      exact hend

theorem tight_completionText (contract : ExecutionContract) (reviewResult : Bool) :
    Tight (completionText contract reviewResult) := by
  unfold completionText
  refine tight_joined ?_ ?_
  · intro t ht
    have ht : "Submit completion exactly once after the work and required checks are complete.".toList
        = t := Option.some.inj ht
    rw [← ht, String.toList_ofList]
    exact ⟨List.cons_ne_nil _ _, end_of_all rfl⟩
  · intro t ht
    rw [show t = "\x60\x60\x60".toList from (Option.some.inj ht).symm, String.toList_ofList]
    exact ⟨List.cons_ne_nil _ _, end_of_all rfl⟩

end OpenTulid.Frozen.Prompt
