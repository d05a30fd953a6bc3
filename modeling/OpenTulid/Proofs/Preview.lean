/-
What a comparison of a preview with a scheduled packet takes for the same.

Two texts are `Alike` if they differ in nothing but their headers, each as the
scan finds it. Normal forms are equal exactly for such texts
(`replaceHeaders_eq_iff`): what is written in place of a header is a header
again, so no other text has the normal form of one that has it.
-/
import Mathlib
import OpenTulid.Runtime.Preview

namespace OpenTulid.Frozen.Prompt

open Standard (isSpace)

/-- A text begins with a header, and a rest follows it: blanks and a word behind
`Job:`, up to the end of a line. -/
def HeaderAt (text tail : Text) : Prop :=
  ∃ space word, text = "Job:".toList ++ (space ++ (word ++ tail)) ∧
    (space ≠ [] ∧ ∀ c ∈ space, isSpace c = true) ∧ (word ≠ [] ∧ ∀ c ∈ word, isSpace c = false) ∧
    (tail = [] ∨ tail.head? = some '\n')

/-- Two texts that differ in their headers alone; the flag says whether a line
begins. -/
inductive Alike : Bool → Text → Text → Prop where
  | nil {start : Bool} : Alike start [] []
  | header {a b tailA tailB : Text} :
      HeaderAt a tailA → HeaderAt b tailB → Alike false tailA tailB → Alike true a b
  | char {start : Bool} {c : Char} {a b : Text} :
      (start = true → ¬ (∃ tail, HeaderAt (c :: a) tail) ∧ ¬ ∃ tail, HeaderAt (c :: b) tail) →
        Alike (c = '\n') a b → Alike start (c :: a) (c :: b)

variable {header text tail : Text} {start : Bool}

-- =================================================================== headers

theorem isSpace_newline : isSpace '\n' = true := by decide

/-- Blanks, a word and the end of a line are found as they are. -/
theorem takeWhile_parts {space word : Text} (hspace : ∀ c ∈ space, isSpace c = true)
    (hword : word ≠ [] ∧ ∀ c ∈ word, isSpace c = false)
    (htail : tail = [] ∨ tail.head? = some '\n') :
    (space ++ (word ++ tail)).takeWhile isSpace = space ∧
      (space ++ (word ++ tail)).dropWhile isSpace = word ++ tail ∧
      (word ++ tail).takeWhile (!isSpace ·) = word ∧
      (word ++ tail).dropWhile (!isSpace ·) = tail := by
  have hstop : (word ++ tail).takeWhile isSpace = [] ∧ (word ++ tail).dropWhile isSpace = word ++ tail := by
    obtain ⟨hne, hword⟩ := hword
    cases word with
    | nil => exact absurd rfl hne
    | cons c word =>
        have hc := hword c List.mem_cons_self
        rw [List.cons_append, List.takeWhile_cons, List.dropWhile_cons, hc]
        exact ⟨rfl, rfl⟩
  have hend : tail.takeWhile (!isSpace ·) = [] ∧ tail.dropWhile (!isSpace ·) = tail := by
    cases tail with
    | nil => exact ⟨rfl, rfl⟩
    | cons c tail =>
        have hc : c = '\n' := by simpa using htail
        rw [List.takeWhile_cons, List.dropWhile_cons, hc, isSpace_newline]
        exact ⟨rfl, rfl⟩
  have hword' : ∀ c ∈ word, (!isSpace c) = true := by
    intro c hc
    rw [hword.2 c hc]
    rfl
  refine ⟨?_, ?_, ?_, ?_⟩
  · rw [List.takeWhile_append_of_pos hspace, hstop.1, List.append_nil]
  · rw [List.dropWhile_append_of_pos hspace, hstop.2]
  · rw [List.takeWhile_append_of_pos hword', hend.1, List.append_nil]
  · rw [List.dropWhile_append_of_pos hword', hend.2]

/-- The scan finds the headers there are. -/
theorem headerLength_parts {space word : Text} (hspace : space ≠ [] ∧ ∀ c ∈ space, isSpace c = true)
    (hword : word ≠ [] ∧ ∀ c ∈ word, isSpace c = false) (htail : tail = [] ∨ tail.head? = some '\n') :
    headerLength ("Job:".toList ++ (space ++ (word ++ tail))) =
      some (4 + space.length + word.length) := by
  obtain ⟨htake, hdrop, htake', hdrop'⟩ := takeWhile_parts hspace.2 hword htail
  have hrest : ("Job:".toList ++ (space ++ (word ++ tail))).drop 4 = space ++ (word ++ tail) := rfl
  unfold headerLength
  rw [hrest, htake, hdrop, htake', hdrop']
  exact if_pos ⟨rfl, hspace.1, hword.1, htail⟩

theorem headerAt_of_length {length : Nat} (h : headerLength text = some length) :
    HeaderAt text (text.drop length) := by
  unfold headerLength at h
  dsimp only at h
  split at h
  next hheader =>
    cases h
    obtain ⟨hjob, hspace, hword, htail⟩ := hheader
    have htext : text = "Job:".toList ++ ((text.drop 4).takeWhile isSpace ++
        (((text.drop 4).dropWhile isSpace).takeWhile (!isSpace ·) ++
          ((text.drop 4).dropWhile isSpace).dropWhile (!isSpace ·))) := by
      rw [List.takeWhile_append_dropWhile, List.takeWhile_append_dropWhile, ← hjob,
        List.take_append_drop]
    have hrest : text.drop (4 + ((text.drop 4).takeWhile isSpace).length +
        (((text.drop 4).dropWhile isSpace).takeWhile (!isSpace ·)).length) =
        ((text.drop 4).dropWhile isSpace).dropWhile (!isSpace ·) := by
      rw [Nat.add_assoc, ← List.drop_drop, ← List.drop_drop]
      have hafter : (text.drop 4).drop ((text.drop 4).takeWhile isSpace).length =
          (text.drop 4).dropWhile isSpace := by
        conv => lhs; rw [← @List.takeWhile_append_dropWhile _ isSpace (text.drop 4)]
        exact List.drop_left' (by rw [List.takeWhile_append_dropWhile])
      rw [hafter]
      conv => lhs; rw [← @List.takeWhile_append_dropWhile _ (!isSpace ·) ((text.drop 4).dropWhile isSpace)]
      exact List.drop_left' (by rw [List.takeWhile_append_dropWhile])
    rw [hrest]
    refine ⟨_, _, htext, ⟨hspace, fun c hc => List.mem_takeWhile_imp hc⟩, ⟨hword, fun c hc => ?_⟩, htail⟩
    simpa using List.mem_takeWhile_imp hc
  next => cases h

theorem headerLength_eq_none (h : ¬ ∃ tail, HeaderAt text tail) : headerLength text = none := by
  cases hlength : headerLength text with
  | none => rfl
  | some length => exact absurd ⟨_, headerAt_of_length hlength⟩ h

-- ================================================================== the scan

/-- What is left of a header is passed over. -/
theorem replaceHeaders_left {front : Text} {c : Char} (hc : c ≠ '\n') :
    replaceHeaders header (front.length + 1) start (front ++ c :: tail) =
      replaceHeaders header 0 false tail := by
  induction front generalizing start with
  | nil =>
      show replaceHeaders header 0 (decide (c = '\n')) tail = _
      rw [decide_eq_false hc]
  | cons d front ih => exact ih

/-- A header is replaced, and the scan goes on behind it. -/
theorem replaceHeaders_header (h : HeaderAt text tail) :
    replaceHeaders header 0 true text = header ++ replaceHeaders header 0 false tail := by
  obtain ⟨space, word, rfl, hspace, hword, htail⟩ := h
  have hlength := headerLength_parts hspace hword htail
  obtain ⟨front, c, hlast⟩ : ∃ front c, word = front ++ [c] :=
    ⟨_, _, (List.dropLast_append_getLast hword.1).symm⟩
  have hc : c ≠ '\n' := by
    rintro rfl
    have hno := hword.2 '\n' (by simp [hlast])
    rw [isSpace_newline] at hno
    cases hno
  have hskip : replaceHeaders header (4 + space.length + word.length - 1) false
      ("ob:".toList ++ (space ++ (word ++ tail))) = replaceHeaders header 0 false tail := by
    have htext : "ob:".toList ++ (space ++ (word ++ tail)) =
        ("ob:".toList ++ (space ++ front)) ++ c :: tail := by simp [hlast]
    have hcount : 4 + space.length + word.length - 1 =
        ("ob:".toList ++ (space ++ front)).length + 1 := by
      rw [hlast, List.length_append, List.length_append, List.length_append]
      show 4 + space.length + (front.length + 1) - 1 = 3 + (space.length + front.length) + 1
      omega
    rw [htext, hcount, replaceHeaders_left hc]
  show replaceHeaders header 0 true ('J' :: ("ob:".toList ++ (space ++ (word ++ tail)))) = _
  have hlength' : headerLength ('J' :: ("ob:".toList ++ (space ++ (word ++ tail)))) =
      some (4 + space.length + word.length) := hlength
  rw [replaceHeaders, if_pos rfl, hlength']
  dsimp only
  rw [← hskip]
  rfl

/-- Any other character stays. -/
theorem replaceHeaders_char {c : Char} (h : start = true → ¬ ∃ tail, HeaderAt (c :: text) tail) :
    replaceHeaders header 0 start (c :: text) =
      c :: replaceHeaders header 0 (c = '\n') text := by
  rw [replaceHeaders]
  cases start with
  | false => rfl
  | true =>
      rw [if_pos rfl, headerLength_eq_none (h rfl)]

theorem replaceHeaders_ne_nil (hheader : header ≠ []) (hne : text ≠ []) :
    replaceHeaders header 0 start text ≠ [] := by
  cases text with
  | nil => exact absurd rfl hne
  | cons c text =>
      by_cases h : start = true ∧ ∃ tail, HeaderAt (c :: text) tail
      · obtain ⟨rfl, tail, htail⟩ := h
        rw [replaceHeaders_header htail]
        simp [hheader]
      · rw [replaceHeaders_char fun hstart htail => h ⟨hstart, htail⟩]
        simp

/-- Within a line, the scan changes nothing. -/
theorem line_kept {word out : Text} (hbreak : '\n' ∉ word)
    (h : replaceHeaders header 0 false text = word ++ out) :
    ∃ rest, text = word ++ rest ∧ replaceHeaders header 0 false rest = out := by
  induction word generalizing text with
  | nil => exact ⟨text, rfl, h⟩
  | cons c word ih =>
      rw [List.mem_cons, not_or] at hbreak
      cases text with
      | nil => cases h
      | cons d text =>
          rw [replaceHeaders_char (by simp), List.cons_append] at h
          obtain ⟨hd, hrest⟩ := List.cons.inj h
          rw [hd, decide_eq_false (Ne.symm hbreak.1)] at hrest
          obtain ⟨rest, hsplit, hout⟩ := ih hbreak.2 hrest
          exact ⟨rest, by rw [hd, hsplit]; rfl, hout⟩

/-- A line ends where its normal form ends. -/
theorem line_ends {rest : Text} (hheader : header ≠ [])
    (h : replaceHeaders header 0 false rest = replaceHeaders header 0 false tail)
    (htail : tail = [] ∨ tail.head? = some '\n') : rest = [] ∨ rest.head? = some '\n' := by
  rcases htail with hnil | hhead
  · left
    by_contra hne
    rw [hnil] at h
    exact replaceHeaders_ne_nil hheader hne h
  · right
    cases tail with
    | nil => cases hhead
    | cons c tail =>
        cases rest with
        | nil =>
            rw [replaceHeaders_char (by simp)] at h
            cases h
        | cons d rest =>
            rw [replaceHeaders_char (by simp), replaceHeaders_char (by simp)] at h
            rw [List.head?_cons, (List.cons.inj h).1]
            exact hhead

-- ============================================================== normal forms

section NormalForms

variable {jobId : String} (hid : jobId ≠ "" ∧ ∀ c ∈ jobId.toList, isSpace c = false)

include hid

/-- What is written for a header is a header: no other text has its normal form. -/
theorem headerAt_of_eq {a b tailA : Text} (ha : HeaderAt a tailA)
    (h : replaceHeaders ("Job: ".toList ++ jobId.toList) 0 true a =
      replaceHeaders ("Job: ".toList ++ jobId.toList) 0 true b) : ∃ tail, HeaderAt b tail := by
  by_contra hnone
  have hheader : "Job: ".toList ++ jobId.toList ≠ [] := by simp
  rw [replaceHeaders_header ha] at h
  cases b with
  | nil => cases h
  | cons d b =>
      have hform : ∀ rest : Text, "Job: ".toList ++ jobId.toList ++ rest =
          'J' :: ("ob: ".toList ++ jobId.toList ++ rest) := fun rest => rfl
      rw [replaceHeaders_char fun _ => hnone, hform] at h
      obtain ⟨hd, hrest⟩ := List.cons.inj h
      rw [← hd, decide_eq_false (by decide)] at hrest
      have hbreak : '\n' ∉ "ob: ".toList ++ jobId.toList := by
        rw [List.mem_append, not_or]
        refine ⟨by decide, fun hin => ?_⟩
        have hno := hid.2 '\n' hin
        rw [isSpace_newline] at hno
        cases hno
      obtain ⟨rest, rfl, hsame⟩ := line_kept hbreak hrest.symm
      obtain ⟨-, -, -, -, -, htail⟩ := ha
      have hend := line_ends hheader hsame htail
      have hblank : ∀ c ∈ [' '], isSpace c = true := by
        intro c hc
        rw [List.mem_singleton.mp hc]
        rfl
      refine hnone ⟨rest, [' '], jobId.toList, ?_, ⟨by simp, hblank⟩, ⟨?_, hid.2⟩, hend⟩
      · rw [← hd]
        simp
      · intro hnil
        exact hid.1 (String.toList_eq_nil_iff.mp hnil)

/-- Normal forms are equal exactly for texts that differ in their headers alone. -/
theorem replaceHeaders_eq_iff {a b : Text} :
    replaceHeaders ("Job: ".toList ++ jobId.toList) 0 start a =
        replaceHeaders ("Job: ".toList ++ jobId.toList) 0 start b ↔ Alike start a b := by
  have hheader : "Job: ".toList ++ jobId.toList ≠ [] := by simp
  constructor
  · induction hlen : a.length using Nat.strong_induction_on generalizing start a b with
    | _ n ih =>
    subst hlen
    intro h
    cases a with
    | nil =>
        have hnil : b = [] := by
          by_contra hne
          exact replaceHeaders_ne_nil hheader hne h.symm
        rw [hnil]
        exact .nil
    | cons c a =>
        cases b with
        | nil => exact absurd h (replaceHeaders_ne_nil hheader (by simp))
        | cons d b =>
            by_cases hA : start = true ∧ ∃ tail, HeaderAt (c :: a) tail
            · obtain ⟨rfl, tailA, htailA⟩ := hA
              obtain ⟨tailB, htailB⟩ := headerAt_of_eq hid htailA h
              rw [replaceHeaders_header htailA, replaceHeaders_header htailB] at h
              have hshort : tailA.length < (c :: a).length := by
                obtain ⟨space, word, htext, -⟩ := htailA
                rw [htext]
                simp only [List.length_append]
                have hjob : "Job:".toList.length = 4 := rfl
                omega
              exact .header htailA htailB
                (ih _ hshort rfl (List.append_cancel_left h))
            · have hB : ¬ (start = true ∧ ∃ tail, HeaderAt (d :: b) tail) := by
                rintro ⟨rfl, tailB, htailB⟩
                exact hA ⟨rfl, headerAt_of_eq hid htailB h.symm⟩
              rw [replaceHeaders_char fun hs ht => hA ⟨hs, ht⟩,
                replaceHeaders_char fun hs ht => hB ⟨hs, ht⟩] at h
              obtain ⟨rfl, hrest⟩ := List.cons.inj h
              exact .char (fun hs => ⟨fun ht => hA ⟨hs, ht⟩, fun ht => hB ⟨hs, ht⟩⟩)
                (ih _ (Nat.lt_succ_self _) rfl hrest)
  · intro h
    induction h with
    | nil => rfl
    | header hA hB _ ih => rw [replaceHeaders_header hA, replaceHeaders_header hB, ih]
    | char hnone _ ih =>
        rw [replaceHeaders_char fun hs => (hnone hs).1, replaceHeaders_char fun hs => (hnone hs).2,
          ih]

end NormalForms

/-- A preview matches a scheduled packet exactly if the two differ in their job
headers alone, and the digests of the contracts do not differ. -/
theorem previewMatches_iff {rendered scheduled : Text} {renderedSha scheduledSha : Option String} :
    previewMatches rendered scheduled renderedSha scheduledSha = true ↔
      Alike true rendered scheduled ∧
        ∀ a b, renderedSha = some a → scheduledSha = some b → a = b := by
  have hid : previewJobId ≠ "" ∧ ∀ c ∈ previewJobId.toList, isSpace c = false :=
    ⟨by decide, by simp [previewJobId, isSpace]⟩
  unfold previewMatches normalizeEphemeralCompletionFields
  dsimp only
  rw [Bool.and_eq_true_iff, decide_eq_true_iff, replaceHeaders_eq_iff hid]
  refine and_congr_right fun _ => ?_
  cases renderedSha with
  | none => simp
  | some a =>
      cases scheduledSha with
      | none => simp
      | some b => simp

end OpenTulid.Frozen.Prompt
