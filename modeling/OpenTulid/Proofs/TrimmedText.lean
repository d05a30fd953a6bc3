/-
Texts up to their line breaks, and up to blanks around them.

# Newlines only

`splitlines` knows many line breaks, and one of two characters. `newlined` is
the text with a newline for each of them. It has the same lines
(`splitlines_newlined`), its lines put together are the text itself
(`stripNewlines_newlined`), and it goes through `strip` (`strip_newlined`), so
what is read of lines is read of a text with newlines.

# Bodies

Up to its blanks a body is given by its lines: `comparedBody_eq` says what
`comparedBody` leaves of them.
-/
import OpenTulid.Lib.Trim
import OpenTulid.Adapters.CreateTask
import OpenTulid.Proofs.RepairNote

namespace OpenTulid.Obsidian

open Boards (stripped)
open Frozen.Prompt (Text splitlines joined joinLineBreaks isLineBreak takeLine dropLine
  lines_induction splitlines_eq)
open Standard (isSpace)
open Trim (trim Trimmed)

-- ================================================================= blanks

theorem isSpace_of_isLineBreak {c : Char} (h : isLineBreak c = true) : isSpace c = true := by
  unfold isLineBreak at h
  unfold isSpace
  simp only [Bool.or_eq_true, Bool.and_eq_true, decide_eq_true_eq] at h ⊢
  omega

theorem stripped_eq (text : Text) : stripped text = trim isSpace text := rfl

theorem stripNewlines_eq_trim (text : Text) : stripNewlines text = trim (· = '\n') text := rfl

theorem stripped_stripNewlines (text : Text) : stripped (stripNewlines text) = stripped text := by
  refine Trim.trim_trim_of_imp (fun c hc => ?_) text
  rw [of_decide_eq_true hc]
  rfl

-- =============================================================== newlines only

/-- A newline for a line break. -/
def newlineFor (c : Char) : Char := if isLineBreak c then '\n' else c

/-- The text with a newline for every line break. -/
def newlined (text : Text) : Text := (joinLineBreaks text).map newlineFor

theorem isLineBreak_newlineFor (c : Char) : isLineBreak (newlineFor c) = isLineBreak c := by
  unfold newlineFor
  split
  next h => exact h.symm
  next => rfl

theorem isSpace_newlineFor (c : Char) : isSpace (newlineFor c) = isSpace c := by
  unfold newlineFor
  split
  next h => exact (isSpace_of_isLineBreak h).symm
  next => rfl

/-- A text without carriage returns has no break of two characters. -/
theorem joinLineBreaks_self {text : Text} (h : '\r' ∉ text) : joinLineBreaks text = text := by
  fun_induction joinLineBreaks text with
  | case1 => rfl
  | case2 rest ih => exact absurd (List.mem_cons_self ..) h
  | case3 c rest hnot ih => rw [ih fun hmem => h (.tail _ hmem)]

/-- Splitting asks only what is a break. -/
theorem splitOnP_map {f : Char → Char} (hbreak : ∀ c, isLineBreak (f c) = isLineBreak c)
    (hkeep : ∀ c, isLineBreak c = false → f c = c) (text : Text) :
    (text.map f).splitOnP isLineBreak = text.splitOnP isLineBreak := by
  induction text with
  | nil => rfl
  | cons c text ih =>
      rw [List.map_cons, List.splitOnP_cons_eq_if_modifyHead,
        List.splitOnP_cons_eq_if_modifyHead, hbreak, ih]
      split
      next => rfl
      next h => rw [hkeep c (Bool.eq_false_iff.mpr h)]

/-- Another break for a break keeps the lines. -/
theorem splitlines_map {f : Char → Char} (hbreak : ∀ c, isLineBreak (f c) = isLineBreak c)
    (hkeep : ∀ c, isLineBreak c = false → f c = c) (hreturn : ∀ c, f c ≠ '\r') (text : Text) :
    splitlines ((joinLineBreaks text).map f) = splitlines text := by
  have hself : joinLineBreaks ((joinLineBreaks text).map f) = (joinLineBreaks text).map f := by
    refine joinLineBreaks_self fun hmem => ?_
    obtain ⟨c, -, hc⟩ := List.mem_map.mp hmem
    exact hreturn c hc
  unfold Frozen.Prompt.splitlines
  rw [hself, splitOnP_map hbreak hkeep]

theorem splitlines_newlined (text : Text) : splitlines (newlined text) = splitlines text := by
  refine splitlines_map isLineBreak_newlineFor ?_ ?_ text
  · intro c hc
    unfold newlineFor
    rw [hc]
    rfl
  · intro c
    unfold newlineFor
    split
    next => decide
    next h =>
      rintro rfl
      exact h rfl

theorem newline_of_mem_newlined {text : Text} {c : Char} (hc : c ∈ newlined text)
    (hbreak : isLineBreak c = true) : c = '\n' := by
  obtain ⟨d, -, rfl⟩ := List.mem_map.mp hc
  rw [isLineBreak_newlineFor] at hbreak
  unfold newlineFor
  rw [if_pos hbreak]

/-- A text with newlines only is kept. -/
theorem newlined_self {text : Text} (h : ∀ c ∈ text, isLineBreak c = true → c = '\n') :
    newlined text = text := by
  have hreturn : '\r' ∉ text := fun hmem => absurd (h _ hmem rfl) (by decide)
  unfold newlined
  rw [joinLineBreaks_self hreturn]
  conv => rhs; rw [← List.map_id text]
  refine List.map_congr_left fun c hc => ?_
  unfold newlineFor
  split
  next hbreak => exact (h c hc hbreak).symm
  next => rfl

/-- The lines of a text, put together. -/
theorem joined_splitlines_or (text : Text) :
    newlined text = joined "\n" (splitlines text) ∨
      newlined text = joined "\n" (splitlines text) ++ ['\n'] := by
  have h := @Frozen.Prompt.joined_splitlines (newlined text) fun c hc hbreak =>
    newline_of_mem_newlined hc hbreak
  rw [splitlines_newlined] at h
  exact h

theorem stripNewlines_newlined (text : Text) :
    stripNewlines (newlined text) = stripNewlines (joined "\n" (splitlines text)) := by
  rcases joined_splitlines_or text with h | h
  · rw [h]
  · rw [h, stripNewlines_concat]

theorem stripped_newlined (text : Text) :
    stripped (newlined text) = stripped (joined "\n" (splitlines text)) := by
  rw [← stripped_stripNewlines, stripNewlines_newlined, stripped_stripNewlines]

/-- A character that is no part of a break splits the text. -/
theorem joinLineBreaks_append {c : Char} (hnewline : c ≠ '\n') (hreturn : c ≠ '\r')
    (text rest : Text) :
    joinLineBreaks (text ++ c :: rest) = joinLineBreaks text ++ c :: joinLineBreaks rest := by
  have hcons : joinLineBreaks (c :: rest) = c :: joinLineBreaks rest := by
    rw [joinLineBreaks]
    rintro rest' rfl
    exact absurd rfl hreturn
  fun_induction joinLineBreaks text with
  | case1 => exact hcons
  | case2 text ih =>
      show joinLineBreaks ('\r' :: '\n' :: (text ++ c :: rest)) = _
      rw [joinLineBreaks, ih]
      rfl
  | case3 d text hnot ih =>
      rw [List.cons_append, joinLineBreaks, ih]
      · rfl
      · rintro rest' rfl heq
        cases text with
        | nil =>
            cases heq
            exact hnewline rfl
        | cons e text =>
            cases heq
            exact hnot _ rfl rfl

theorem isSpace_joinLineBreaks {text : Text} (h : ∀ c ∈ text, isSpace c = true) :
    ∀ c ∈ joinLineBreaks text, isSpace c = true := by
  fun_induction joinLineBreaks text with
  | case1 => exact nofun
  | case2 rest ih =>
      intro c hc
      rcases List.mem_cons.mp hc with rfl | hc
      · rfl
      · exact ih (fun c hc => h c (.tail _ (.tail _ hc))) c hc
  | case3 d rest hnot ih =>
      intro c hc
      rcases List.mem_cons.mp hc with rfl | hc
      · exact h _ (.head _)
      · exact ih (fun c hc => h c (.tail _ hc)) c hc

theorem dropWhile_joinLineBreaks (text : Text) :
    (joinLineBreaks text).dropWhile isSpace = joinLineBreaks (text.dropWhile isSpace) := by
  fun_induction joinLineBreaks text with
  | case1 => rfl
  | case2 rest ih => exact ih
  | case3 c rest hnot ih =>
      rw [List.dropWhile_cons, List.dropWhile_cons, ih]
      split
      next => rfl
      next =>
        rw [joinLineBreaks]
        exact hnot

theorem rdropWhile_joinLineBreaks (text : Text) :
    (joinLineBreaks text).rdropWhile isSpace = joinLineBreaks (text.rdropWhile isSpace) := by
  have htext := @List.rdropWhile_append_rtakeWhile _ isSpace text
  have hspaces : ∀ c ∈ text.rtakeWhile isSpace, isSpace c = true :=
    fun c hc => List.mem_rtakeWhile_imp hc
  rcases List.eq_nil_or_concat (text.rdropWhile isSpace) with hnil | ⟨rest, c, hconcat⟩
  · rw [hnil, List.nil_append] at htext
    rw [hnil, List.rdropWhile_eq_nil_iff.mpr]
    · rfl
    · rw [← htext]
      exact isSpace_joinLineBreaks hspaces
  · have hlast : isSpace c = false := by
      have h := List.rdropWhile_last_not isSpace text (by rw [hconcat]; simp)
      simp only [hconcat, List.concat_eq_append, List.getLast_append_singleton] at h
      exact Bool.eq_false_iff.mpr h
    have hnewline : c ≠ '\n' := by
      rintro rfl
      cases hlast
    have hreturn : c ≠ '\r' := by
      rintro rfl
      cases hlast
    rw [hconcat, List.concat_eq_append] at htext ⊢
    conv => lhs; rw [← htext]
    have hjoin := joinLineBreaks_append hnewline hreturn rest (text.rtakeWhile isSpace)
    rw [List.append_assoc, List.singleton_append, hjoin, ← List.singleton_append,
      ← List.append_assoc, Trim.rdropWhile_append_of_pos (isSpace_joinLineBreaks hspaces),
      List.rdropWhile_concat_neg _ _ _ (by simp [hlast]), joinLineBreaks_append hnewline hreturn]
    rfl

theorem strip_newlined (text : Text) : stripped (newlined text) = newlined (stripped text) := by
  have hmap : stripped (newlined text) =
      (trim isSpace (joinLineBreaks text)).map newlineFor :=
    Trim.trim_map isSpace_newlineFor _
  rw [hmap]
  unfold newlined stripped Frozen.Prompt.strip trim
  rw [dropWhile_joinLineBreaks, rdropWhile_joinLineBreaks]

/-- What reading gives of a file that is written has the lines that were
written. -/
theorem splitlines_universalNewlines (text : Text) :
    splitlines (universalNewlines text) = splitlines text := by
  have hmap : universalNewlines text =
      (joinLineBreaks text).map fun c => if c = '\r' then '\n' else c := by
    fun_induction universalNewlines text with
    | case1 => rfl
    | case2 rest ih => rw [joinLineBreaks, List.map_cons, ih]; rfl
    | case3 c rest hnot ih =>
        rw [joinLineBreaks, List.map_cons, ih]
        exact hnot
  rw [hmap]
  refine splitlines_map (fun c => ?_) (fun c hc => ?_) (fun c => ?_) text
  · split
    next h => rw [h]; rfl
    next => rfl
  · split
    next h => rw [h] at hc; cases hc
    next => rfl
  · split
    next => decide
    next h => exact h

-- ============================================================== blank lines

/-- The lines below the blank ones. -/
def solidLines (text : Text) : List Text := (splitlines text).dropWhile fun line => stripped line = []

theorem stripped_eq_nil_iff {text : Text} : stripped text = [] ↔ ∀ c ∈ text, isSpace c = true :=
  Trim.trim_eq_nil_iff

theorem takeLine_self {line : Text} (h : ∀ c ∈ line, isLineBreak c = false) :
    takeLine line = line := by
  unfold Frozen.Prompt.takeLine
  rw [List.takeWhile_eq_self_iff]
  intro c hc
  simp [h c hc]

/-- A text of one line. -/
theorem splitlines_line {line : Text} (h : ∀ c ∈ line, isLineBreak c = false) (hne : line ≠ []) :
    splitlines line = [line] := by
  have htake := takeLine_self h
  have hdrop : dropLine line = [] := by
    rcases Frozen.Prompt.eq_line_or line with ⟨-, hdrop⟩ | ⟨mark, hmark, htext⟩
    · exact hdrop
    · exfalso
      rw [htake] at htext
      have hlength := congrArg List.length htext
      rw [List.length_append, List.length_append] at hlength
      cases hmark <;> simp only [List.length_cons, List.length_nil] at hlength <;> omega
  rw [splitlines_eq hne, htake, hdrop]
  rfl

/-- A line and a newline before other lines. -/
theorem splitlines_cons {line : Text} (h : ∀ c ∈ line, isLineBreak c = false) (rest : Text) :
    splitlines (line ++ '\n' :: rest) = line :: splitlines rest := by
  have hdrop : dropLine (line ++ '\n' :: rest) = rest := by
    induction line with
    | nil => rfl
    | cons c line ih =>
        rw [List.cons_append, dropLine, if_neg (by simp [h c (.head _)])]
        · exact ih fun c hc => h c (.tail _ hc)
        · rintro rest' rfl
          exact absurd (h _ (.head _)) (by decide)
  rw [splitlines_eq (by simp), Frozen.Prompt.takeLine_append, takeLine_self h, hdrop]

/-- A text with newlines is blank, or it has a first line that is not. -/
theorem blank_or_line {text : Text} (h : ∀ c ∈ text, isLineBreak c = true → c = '\n') :
    (solidLines text = [] ∧ stripped text = []) ∨
      ∃ before line, (∀ c ∈ before, isSpace c = true) ∧ (∀ c ∈ line, isLineBreak c = false) ∧
        stripped line ≠ [] ∧
        ((solidLines text = [line] ∧ text = before ++ line) ∨
          ∃ rest, solidLines text = line :: splitlines rest ∧
            text = before ++ (line ++ '\n' :: rest)) := by
  induction text using lines_induction with
  | nil => exact .inl ⟨rfl, rfl⟩
  | line text hne ih =>
      have hline : ∀ c ∈ takeLine text, isLineBreak c = false :=
        fun _ => Frozen.Prompt.not_isLineBreak_takeLine
      unfold solidLines
      rw [splitlines_eq hne]
      rcases Frozen.Prompt.eq_line_or text with ⟨htext, hdrop⟩ | ⟨mark, hmark, htext⟩
      · rw [hdrop]
        by_cases hblank : stripped (takeLine text) = []
        · left
          rw [List.dropWhile_cons_of_pos (by simpa using hblank)]
          exact ⟨rfl, by rw [htext]; exact hblank⟩
        · right
          rw [List.dropWhile_cons_of_neg (by simpa using hblank)]
          exact ⟨[], takeLine text, nofun, hline, hblank, .inl ⟨rfl, htext⟩⟩
      · have hnewline : mark = ['\n'] := by
          cases hmark with
          | @one c hbreak => rw [h c (by rw [htext]; simp) hbreak]
          | two => exact absurd (h '\r' (by rw [htext]; simp) rfl) (by decide)
        rw [hnewline, List.append_assoc] at htext
        by_cases hblank : stripped (takeLine text) = []
        · rw [List.dropWhile_cons_of_pos (by simpa using hblank)]
          have hspaces : ∀ c ∈ takeLine text ++ ['\n'], isSpace c = true := by
            intro c hc
            rcases List.mem_append.mp hc with hc | hc
            · exact stripped_eq_nil_iff.mp hblank c hc
            · rw [List.mem_singleton.mp hc]
              rfl
          rcases ih fun c hc => h c (by rw [htext]; simp [hc]) with
            ⟨hnone, hstripped⟩ | ⟨before, line, hbefore, hsolid, hfull, hwhere⟩
          · refine .inl ⟨hnone, stripped_eq_nil_iff.mpr fun c hc => ?_⟩
            rw [htext, ← List.append_assoc] at hc
            rcases List.mem_append.mp hc with hc | hc
            · exact hspaces c hc
            · exact stripped_eq_nil_iff.mp hstripped c hc
          · refine .inr ⟨takeLine text ++ ['\n'] ++ before, line, ?_, hsolid, hfull, ?_⟩
            · intro c hc
              rcases List.mem_append.mp hc with hc | hc
              · exact hspaces c hc
              · exact hbefore c hc
            · rcases hwhere with ⟨hlines, hbelow⟩ | ⟨rest, hlines, hbelow⟩
              · refine .inl ⟨hlines, ?_⟩
                rw [List.append_assoc, List.append_assoc, ← hbelow]
                exact htext
              · refine .inr ⟨rest, hlines, ?_⟩
                rw [List.append_assoc, List.append_assoc, ← hbelow]
                exact htext
        · right
          rw [List.dropWhile_cons_of_neg (by simpa using hblank)]
          exact ⟨[], takeLine text, nofun, hline, hblank, .inr ⟨dropLine text, rfl, htext⟩⟩

-- =================================================================== bodies

/-- A line with a title. -/
def titled (line : Text) : Bool := titleMark.isPrefixOf (stripped line)

theorem stripped_joined_dropWhile (lines : List Text) :
    stripped (joined "\n" (lines.dropWhile fun line => stripped line = [])) =
      stripped (joined "\n" lines) := by
  induction lines with
  | nil => rfl
  | cons line lines ih =>
      rw [List.dropWhile_cons]
      split
      next hblank =>
        have hspaces := stripped_eq_nil_iff.mp (of_decide_eq_true hblank)
        rw [ih]
        cases lines with
        | nil =>
            show stripped (joined "\n" []) = stripped (line ++ [])
            rw [List.append_nil, of_decide_eq_true hblank]
            rfl
        | cons next lines =>
            rw [Frozen.Prompt.joined_cons_cons, ← @List.singleton_append _ '\n', ← List.append_assoc]
            refine (Trim.trim_append_left fun c hc => ?_).symm
            rcases List.mem_append.mp hc with hc | hc
            · exact hspaces c hc
            · rw [List.mem_singleton.mp hc]
              rfl
      next => rfl

theorem mem_stripped {text : Text} {c : Char} (hc : c ∈ stripped text) : c ∈ text := by
  obtain ⟨before, after, htext, -, -⟩ := Trim.exists_around isSpace text
  have hmem : c ∈ trim isSpace text := hc
  rw [htext]
  simp [hmem]

/-- The lines of a text without the blanks around it. -/
theorem splitlines_stripped {text : Text} (h : ∀ c ∈ text, isLineBreak c = true → c = '\n') :
    match solidLines text with
    | [] => stripped text = []
    | line :: rest => ∃ line' rest', splitlines (stripped text) = line' :: rest' ∧
        stripped line' = stripped line ∧
        stripped (joined "\n" rest') = stripped (joined "\n" rest) := by
  rcases blank_or_line h with ⟨hnone, hblank⟩ | ⟨before, line, hbefore, hsolid, hfull, hwhere⟩
  · rw [hnone]
    exact hblank
  · have hone : splitlines (stripped line) = [stripped line] :=
      splitlines_line (fun c hc => hsolid c (mem_stripped hc)) hfull
    rcases hwhere with ⟨hlines, htext⟩ | ⟨rest, hlines, htext⟩
    · rw [hlines]
      refine ⟨stripped line, [], ?_, Trim.trim_trim _ _, rfl⟩
      rw [← hone, htext]
      exact congrArg splitlines (Trim.trim_append_left hbefore)
    · rw [hlines]
      dsimp only
      have hrest : ∀ c ∈ rest, isLineBreak c = true → c = '\n' :=
        fun c hc => h c (by rw [htext]; simp [hc])
      have hbelow : stripped (joined "\n" (splitlines rest)) = stripped rest := by
        rw [← stripped_newlined, newlined_self hrest]
      have hstart : stripped text = stripped (line ++ '\n' :: rest) := by
        rw [htext]
        exact Trim.trim_append_left hbefore
      rw [hstart, hbelow]
      by_cases hblank : rest.rdropWhile isSpace = []
      · -- only blanks stand below the line
        have hspaces := List.rdropWhile_eq_nil_iff.mp hblank
        have hafter : ∀ c ∈ '\n' :: rest, isSpace c = true := by
          intro c hc
          rcases List.mem_cons.mp hc with rfl | hc
          · rfl
          · exact hspaces c hc
        refine ⟨stripped line, [], ?_, Trim.trim_trim _ _, ?_⟩
        · rw [← hone]
          exact congrArg splitlines (Trim.trim_append_right hafter)
        · rw [stripped_eq_nil_iff.mpr hspaces]
          rfl
      · have hhead : line.dropWhile isSpace ≠ [] := fun hnil =>
          hfull (stripped_eq_nil_iff.mpr (List.dropWhile_eq_nil_iff.mp hnil))
        have hparts : stripped (line ++ '\n' :: rest) =
            line.dropWhile isSpace ++ '\n' :: rest.rdropWhile isSpace := by
          unfold stripped Frozen.Prompt.strip
          rw [List.dropWhile_append, if_neg (by simpa [List.isEmpty_iff] using hhead),
            ← List.singleton_append, ← List.append_assoc,
            Trim.rdropWhile_append_of_ne_nil hblank, List.append_assoc]
          rfl
        refine ⟨line.dropWhile isSpace, splitlines (rest.rdropWhile isSpace), ?_, ?_, ?_⟩
        · rw [hparts, splitlines_cons fun c hc =>
            hsolid c ((List.dropWhile_suffix isSpace).subset hc)]
        · exact Trim.trim_dropWhile isSpace line
        · rw [← stripped_newlined, newlined_self fun c hc =>
            hrest c ((List.rdropWhile_prefix isSpace rest).subset hc)]
          exact Trim.trim_rdropWhile isSpace rest

/-- What is compared of a body, by its lines. -/
theorem comparedBody_eq (body : Text) :
    comparedBody body = match solidLines body with
      | [] => []
      | first :: rest =>
          if titled first then stripped (joined "\n" rest) else stripped (joined "\n" (first :: rest)) := by
  have hlines : solidLines (newlined body) = solidLines body := by
    unfold solidLines
    rw [splitlines_newlined]
  have hread := @splitlines_stripped (newlined body) fun c hc => newline_of_mem_newlined hc
  rw [hlines, strip_newlined, splitlines_newlined] at hread
  have hjoined : stripped (joined "\n" (splitlines (stripped body))) =
      stripped (joined "\n" (solidLines body)) := by
    unfold solidLines
    rw [stripped_joined_dropWhile, ← stripped_newlined, ← stripped_newlined, strip_newlined,
      strip_newlined]
    exact congrArg newlined (Trim.trim_trim _ _)
  unfold comparedBody
  cases hsolid : solidLines body with
  | nil =>
      rw [hsolid] at hread
      have hnil : splitlines (stripped body) = [] := by
        rw [← splitlines_newlined, hread]
        rfl
      rw [hnil]
      rfl
  | cons first rest =>
      rw [hsolid] at hread hjoined
      obtain ⟨first', rest', hfirst, hsame, hrest⟩ := hread
      rw [hfirst] at hjoined ⊢
      dsimp only
      unfold titled
      rw [hsame]
      split
      next => exact hrest
      next => exact hjoined

/-- A body is compared up to blanks around it and to the kind of its breaks. -/
theorem comparedBody_congr {body body' : Text}
    (h : newlined (stripped body) = newlined (stripped body')) :
    comparedBody body = comparedBody body' := by
  unfold comparedBody
  rw [← splitlines_newlined, h, splitlines_newlined]

theorem comparedBody_stripNewlines (body : Text) :
    comparedBody (stripNewlines (newlined body)) = comparedBody body := by
  refine comparedBody_congr ?_
  rw [stripped_stripNewlines, strip_newlined]
  refine newlined_self fun c hc => newline_of_mem_newlined hc

/-- Lines put together have newlines only. -/
theorem newlined_joined {lines : List Text} (h : ∀ line ∈ lines, ∀ c ∈ line, isLineBreak c = false) :
    newlined (joined "\n" lines) = joined "\n" lines :=
  newlined_self fun _ hc hbreak => Frozen.Prompt.newline_of_mem_joined h hc hbreak

/-- The body below the title that is written, up to blanks, is what is compared
of the body. -/
theorem stripped_stripLeadingTitle (body : Text) :
    stripped (joined "\n" (splitlines (stripNewlines (stripLeadingTitle body)))) =
      comparedBody body := by
  have hclean : ∀ line ∈ solidLines body, ∀ c ∈ line, isLineBreak c = false :=
    fun line hline c hc => Frozen.Prompt.not_isLineBreak_of_mem
      ((List.dropWhile_suffix _).subset hline) hc
  rw [← stripped_newlined, strip_newlined, stripped_stripNewlines, ← strip_newlined,
    comparedBody_eq]
  have hkept : stripped (newlined body) = stripped (joined "\n" (solidLines body)) := by
    unfold solidLines
    rw [stripped_joined_dropWhile, stripped_newlined]
  have hlines : (splitlines body).dropWhile (fun line => stripped line = []) = solidLines body := rfl
  unfold stripLeadingTitle
  rw [hlines]
  cases hsolid : solidLines body with
  | nil =>
      dsimp only
      rw [hkept, hsolid]
      rfl
  | cons first rest =>
      rw [hsolid] at hclean hkept
      have htitled : titleMark.isPrefixOf (stripped first) = titled first := rfl
      dsimp only
      rw [htitled]
      split
      next =>
        cases rest with
        | nil => rfl
        | cons next rest =>
            dsimp only
            split
            next hblank =>
              rw [newlined_joined fun line hline => hclean line (.tail _ (.tail _ hline)),
                ← stripped_joined_dropWhile (next :: rest),
                List.dropWhile_cons_of_pos (by simpa using hblank), stripped_joined_dropWhile]
            next =>
              rw [newlined_joined fun line hline => hclean line (.tail _ hline)]
      next => exact hkept

end OpenTulid.Obsidian
