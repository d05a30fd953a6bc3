/-
Lines of a text: one line and what is below it.

`splitlines` is defined by splitting at every line break. For proofs a text is
its first line, a break and the text below (`splitlines_eq`); facts about all
lines follow by induction over the text below (`lines_induction`).
-/
import OpenTulid.Runtime.Prompts

namespace OpenTulid.Frozen.Prompt

-- ============================================================ the first line

/-- The first line. -/
def takeLine (text : Text) : Text := text.takeWhile fun c => !isLineBreak c

/-- The text below the first line. -/
def dropLine : Text → Text
  | [] => []
  | '\r' :: '\n' :: rest => rest
  | c :: rest => if isLineBreak c then rest else dropLine rest

/-- A break between lines. -/
inductive Break : Text → Prop
  | one {c : Char} : isLineBreak c = true → Break [c]
  | two : Break ['\r', '\n']

/-- A text is a line, or a line, a break and a text. -/
theorem eq_line_or (text : Text) :
    (text = takeLine text ∧ dropLine text = []) ∨
      ∃ mark, Break mark ∧ text = takeLine text ++ mark ++ dropLine text := by
  fun_induction dropLine text with
  | case1 => exact .inl ⟨rfl, rfl⟩
  | case2 rest =>
      right
      exact ⟨['\r', '\n'], .two, rfl⟩
  | case3 c rest hnot hbreak =>
      right
      refine ⟨[c], .one hbreak, ?_⟩
      unfold takeLine
      rw [List.takeWhile_cons_of_neg (by simp [hbreak])]
      rfl
  | case4 c rest hnot hbreak ih =>
      have hline : takeLine (c :: rest) = c :: takeLine rest := by
        unfold takeLine
        rw [List.takeWhile_cons_of_pos (by simp [hbreak])]
      rw [hline]
      rcases ih with ⟨htext, hdrop⟩ | ⟨mark, hmark, htext⟩
      · exact .inl ⟨by rw [← htext], hdrop⟩
      · exact .inr ⟨mark, hmark, by rw [List.cons_append, List.cons_append, ← htext]⟩

theorem not_isLineBreak_takeLine {text : Text} {c : Char} (h : c ∈ takeLine text) :
    isLineBreak c = false := by
  have := List.mem_takeWhile_imp h
  simpa using this

theorem dropLine_length {text : Text} (h : text ≠ []) :
    (dropLine text).length < text.length := by
  rcases eq_line_or text with ⟨-, hdrop⟩ | ⟨mark, hmark, htext⟩
  · rw [hdrop]
    exact List.length_pos_iff.mpr h
  · have hlength := congrArg List.length htext
    rw [List.length_append, List.length_append] at hlength
    cases hmark <;> simp only [List.length_cons, List.length_nil] at hlength <;> omega

/-- Induction over the lines of a text. -/
theorem lines_induction {motive : Text → Prop} (nil : motive [])
    (line : ∀ text, text ≠ [] → motive (dropLine text) → motive text) (text : Text) :
    motive text := by
  by_cases h : text = []
  · rw [h]
    exact nil
  · exact line text h (lines_induction nil line (dropLine text))
termination_by text.length
decreasing_by exact dropLine_length h

-- ================================================================ all lines

theorem splitlines_nil : splitlines [] = [] := rfl

/-- A line in front of other lines. -/
theorem splitlines_of_lines {text rest : Text} {line : Text}
    (h : (joinLineBreaks text).splitOnP isLineBreak =
      line :: (joinLineBreaks rest).splitOnP isLineBreak) :
    splitlines text = line :: splitlines rest := by
  unfold splitlines
  rw [h]
  obtain ⟨first, others, hothers⟩ :=
    List.exists_cons_of_ne_nil (List.splitOnP_ne_nil isLineBreak (joinLineBreaks rest))
  rw [hothers]
  simp only [List.getLast?_cons_cons, List.dropLast_cons_cons]
  split <;> rfl

/-- The breaks of a text, each as one character. -/
theorem joinLineBreaks_eq (text : Text) :
    (text = takeLine text ∧ joinLineBreaks text = takeLine text ∧ dropLine text = []) ∨
      ∃ c, isLineBreak c = true ∧
        joinLineBreaks text = takeLine text ++ c :: joinLineBreaks (dropLine text) := by
  fun_induction dropLine text with
  | case1 => exact .inl ⟨rfl, rfl, rfl⟩
  | case2 rest => exact .inr ⟨'\n', rfl, rfl⟩
  | case3 c rest hnot hbreak =>
      right
      refine ⟨c, hbreak, ?_⟩
      rw [joinLineBreaks, takeLine, List.takeWhile_cons_of_neg (by simp [hbreak])]
      · rfl
      · exact hnot
  | case4 c rest hnot hbreak ih =>
      have hline : takeLine (c :: rest) = c :: takeLine rest := by
        unfold takeLine
        rw [List.takeWhile_cons_of_pos (by simp [hbreak])]
      have hjoin : joinLineBreaks (c :: rest) = c :: joinLineBreaks rest := by
        rw [joinLineBreaks]
        exact hnot
      rw [hline, hjoin]
      rcases ih with ⟨htext, hjoin, hdrop⟩ | ⟨mark, hmark, hjoin⟩
      · exact .inl ⟨by rw [← htext], by rw [hjoin], hdrop⟩
      · exact .inr ⟨mark, hmark, by rw [hjoin, List.cons_append]⟩

/-- The lines of a text are its first and those of the text below. -/
theorem splitlines_eq {text : Text} (h : text ≠ []) :
    splitlines text = takeLine text :: splitlines (dropLine text) := by
  have hline : ∀ c ∈ takeLine text, isLineBreak c = false :=
    fun _ => not_isLineBreak_takeLine
  rcases joinLineBreaks_eq text with ⟨htext, hjoin, hdrop⟩ | ⟨c, hbreak, hjoin⟩
  · have hne : takeLine text ≠ [] := fun hnil => h (htext.trans hnil)
    rw [hdrop, splitlines_nil]
    unfold splitlines
    rw [hjoin, List.splitOnP_eq_singleton hline]
    simp [hne]
  · refine splitlines_of_lines ?_
    rw [hjoin]
    exact List.splitOnP_append_cons_of_forall_mem hline c hbreak _

/-- No line holds a break. -/
theorem not_isLineBreak_of_mem {text line : Text} {c : Char} (h : line ∈ splitlines text)
    (hc : c ∈ line) : isLineBreak c = false := by
  induction text using lines_induction with
  | nil => cases h
  | line text hne ih =>
      rw [splitlines_eq hne] at h
      rcases List.mem_cons.mp h with rfl | h
      · exact not_isLineBreak_takeLine hc
      · exact ih h

-- =========================================================== texts in a row

theorem takeLine_append (text rest : Text) : takeLine (text ++ '\n' :: rest) = takeLine text := by
  unfold takeLine
  induction text with
  | nil => rfl
  | cons c text ih =>
      rw [List.cons_append, List.takeWhile_cons, List.takeWhile_cons, ih]

/-- Below the first line of a text that ends with a newline, and whatever is
behind it. -/
theorem dropLine_append (text : Text) :
    (∀ rest, dropLine (text ++ '\n' :: rest) = rest) ∨
      ∃ text', text'.length < text.length ∧
        ∀ rest, dropLine (text ++ '\n' :: rest) = text' ++ '\n' :: rest := by
  fun_induction dropLine text with
  | case1 => exact .inl fun _ => rfl
  | case2 text => exact .inr ⟨text, by simp only [List.length_cons]; omega, fun _ => rfl⟩
  | case3 c text hnot hbreak =>
      by_cases hreturn : c = '\r' ∧ text = []
      · obtain ⟨rfl, rfl⟩ := hreturn
        exact .inl fun _ => rfl
      · refine .inr ⟨text, by simp, fun rest => ?_⟩
        rw [List.cons_append, dropLine, if_pos hbreak]
        rintro rest' rfl heq
        cases text with
        | nil => exact hreturn ⟨rfl, rfl⟩
        | cons d text =>
            cases heq
            exact hnot _ rfl rfl
  | case4 c text hnot hbreak ih =>
      have hskip : ∀ rest, dropLine (c :: text ++ '\n' :: rest) = dropLine (text ++ '\n' :: rest) := by
        intro rest
        rw [List.cons_append, dropLine, if_neg (by simpa using hbreak)]
        rintro rest' rfl heq
        exact hbreak rfl
      rcases ih with hlast | ⟨text', hlength, hmore⟩
      · exact .inl fun rest => (hskip rest).trans (hlast rest)
      · exact .inr ⟨text', by simp only [List.length_cons]; omega,
          fun rest => (hskip rest).trans (hmore rest)⟩

/-- Lines of a text that ends with a newline, and whatever is behind it. -/
theorem splitlines_append (text rest : Text) :
    splitlines (text ++ '\n' :: rest) = splitlines (text ++ ['\n']) ++ splitlines rest := by
  rw [@splitlines_eq (text ++ '\n' :: rest) (by simp),
    @splitlines_eq (text ++ ['\n']) (by simp), takeLine_append, takeLine_append,
    List.cons_append]
  rcases dropLine_append text with hlast | ⟨text', hlength, hmore⟩
  · rw [hlast, hlast]
    rfl
  · rw [hmore, hmore, splitlines_append text' rest]
termination_by text.length

/-- The text below some lines. -/
def dropLines (n : Nat) (text : Text) : Text := dropLine^[n] text

theorem splitlines_dropLines (n : Nat) (text : Text) :
    splitlines (dropLines n text) = (splitlines text).drop n := by
  induction n generalizing text with
  | zero => rfl
  | succ n ih =>
      show splitlines (dropLines n (dropLine text)) = _
      rw [ih]
      by_cases hnil : text = []
      · rw [hnil]
        simp [dropLine, splitlines_nil]
      · rw [splitlines_eq hnil, List.drop_succ_cons]

/-- Below some lines of a text that ends with a newline still stands what is
behind it. -/
theorem exists_dropLines_append (text rest : Text) {n : Nat}
    (h : n ≤ (splitlines (text ++ ['\n'])).length) :
    ∃ before, dropLines n (text ++ '\n' :: rest) = before ++ rest := by
  induction n generalizing text with
  | zero => exact ⟨text ++ ['\n'], by simp [dropLines]⟩
  | succ n ih =>
      rw [splitlines_eq (by simp), List.length_cons] at h
      show ∃ before, dropLines n (dropLine _) = before ++ rest
      rcases dropLine_append text with hlast | ⟨text', -, hmore⟩
      · rw [hlast] at h ⊢
        have hzero : n = 0 := by
          have : (splitlines ([] : Text)).length = 0 := rfl
          omega
        rw [hzero]
        exact ⟨[], rfl⟩
      · rw [hmore] at h ⊢
        exact ih text' (by omega)

/-- Below all lines of a text that ends with a newline stands what is behind
it. -/
theorem dropLines_append (text rest : Text) :
    dropLines (splitlines (text ++ ['\n'])).length (text ++ '\n' :: rest) = rest := by
  rw [splitlines_eq (by simp), List.length_cons]
  show dropLines _ (dropLine _) = rest
  rcases dropLine_append text with hlast | ⟨text', hlength, hmore⟩
  · rw [hlast, hlast]
    rfl
  · rw [hmore, hmore]
    exact dropLines_append text' rest
termination_by text.length

-- ============================================================ joined lines

/-- The characters that are no breaks. -/
def solid (text : Text) : Nat := text.countP fun c => !isLineBreak c

theorem solid_append (text rest : Text) : solid (text ++ rest) = solid text + solid rest :=
  List.countP_append

theorem solid_break {mark : Text} (h : Break mark) : solid mark = 0 := by
  cases h with
  | one hbreak => simp [solid, hbreak]
  | two => rfl

theorem solid_joined (lines : List Text) :
    solid (joined "\n" lines) = (lines.map solid).sum := by
  cases lines with
  | nil => rfl
  | cons line lines =>
      show solid (line ++ lines.flatMap ("\n".toList ++ ·)) = _
      rw [solid_append, List.map_cons, List.sum_cons]
      congr 1
      induction lines with
      | nil => rfl
      | cons next lines ih =>
          rw [List.flatMap_cons, solid_append, solid_append, ih, List.map_cons, List.sum_cons]
          have : solid "\n".toList = 0 := rfl
          omega

/-- Lines that are put together again hold the characters of the text. -/
theorem solid_splitlines (text : Text) : solid (joined "\n" (splitlines text)) = solid text := by
  rw [solid_joined]
  induction text using lines_induction with
  | nil => rfl
  | line text hne ih =>
      rw [splitlines_eq hne, List.map_cons, List.sum_cons, ih]
      rcases eq_line_or text with ⟨htext, hdrop⟩ | ⟨mark, hmark, htext⟩
      · rw [hdrop, ← htext]
        rfl
      · conv => rhs; rw [htext, solid_append, solid_append, solid_break hmark]
        omega

theorem joined_cons_cons (line next : Text) (lines : List Text) :
    joined "\n" (line :: next :: lines) = line ++ '\n' :: joined "\n" (next :: lines) := by
  show line ++ (next :: lines).flatMap ("\n".toList ++ ·) = _
  rw [List.flatMap_cons]
  rfl

/-- Joined lines have newlines only. -/
theorem newline_of_mem_joined {lines : List Text}
    (h : ∀ line ∈ lines, ∀ c ∈ line, isLineBreak c = false) {c : Char}
    (hc : c ∈ joined "\n" lines) (hbreak : isLineBreak c = true) : c = '\n' := by
  induction lines with
  | nil => cases hc
  | cons line lines ih =>
      have hline := h line (.head _)
      cases lines with
      | nil =>
          have hc : c ∈ line := by simpa [joined] using hc
          rw [hline c hc] at hbreak
          cases hbreak
      | cons next lines =>
          rw [joined_cons_cons, List.mem_append, List.mem_cons] at hc
          rcases hc with hc | hc | hc
          · rw [hline c hc] at hbreak
            cases hbreak
          · exact hc
          · exact ih (fun l hl => h l (.tail _ hl)) hc

/-- A text whose breaks are newlines is its lines put together, up to a
newline at the end. -/
theorem joined_splitlines {text : Text} (h : ∀ c ∈ text, isLineBreak c = true → c = '\n') :
    text = joined "\n" (splitlines text) ∨ text = joined "\n" (splitlines text) ++ ['\n'] := by
  induction text using lines_induction with
  | nil => exact .inl rfl
  | line text hne ih =>
      rw [splitlines_eq hne]
      rcases eq_line_or text with ⟨htext, hdrop⟩ | ⟨mark, hmark, htext⟩
      · left
        rw [hdrop, splitlines_nil]
        simpa [joined] using htext
      · have hnewline : mark = ['\n'] := by
          cases hmark with
          | @one c hbreak =>
              have hmem : c ∈ text := by
                rw [htext]
                simp
              rw [h c hmem hbreak]
          | two =>
              have hmem : '\r' ∈ text := by
                rw [htext]
                simp
              exact absurd (h _ hmem rfl) (by decide)
        have hbelow := ih fun c hc => h c (by rw [htext]; simp [hc])
        rw [hnewline] at htext
        by_cases hnil : dropLine text = []
        · right
          rw [hnil, splitlines_nil]
          rw [hnil] at htext
          simpa [joined] using htext
        · obtain ⟨next, lines, hlines⟩ :=
            List.exists_cons_of_ne_nil (by rw [splitlines_eq hnil]; simp :
              splitlines (dropLine text) ≠ [])
          rw [hlines, joined_cons_cons, ← hlines]
          rcases hbelow with hbelow | hbelow
          · left
            conv => lhs; rw [htext, hbelow]
            simp
          · right
            conv => lhs; rw [htext, hbelow]
            simp

end OpenTulid.Frozen.Prompt
