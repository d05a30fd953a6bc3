/-
Texts made of sections under headings.

A section is a mark, its heading, a gap and its text; a gap stands between
two sections, and a gap is two line breaks. Nothing tells a gap between
sections from one inside a text, so a text has many divisions
(`render_shift`). Lengths settle it: two divisions into texts of the same
lengths are the same as long as the headings of one of them are lines
(`eq_of_render_eq`). The argument follows the reader from the left. Where it
is ahead of the true division (`not_ahead`), the next gap it takes cannot
lie before the end of the next true heading, so it stays ahead and has not
reached the end of the last section when the text is over.
-/
import Mathlib.Data.List.Forall2

namespace Headed

variable {α : Type}

-- ============================================================== the text

/-- A section: its heading and its text. -/
abbrev Part (α : Type) := List α × List α

/-- What stands before the text of a section. -/
def lead (mark : List α) (b : α) (heading : List α) : List α :=
  mark ++ heading ++ [b, b]

/-- The sections after the first. -/
def renderRest (mark : List α) (b : α) : List (Part α) → List α
  | [] => []
  | part :: parts => [b, b] ++ (lead mark b part.1 ++ (part.2 ++ renderRest mark b parts))

/-- The sections, each behind its heading. -/
def render (mark : List α) (b : α) : List (Part α) → List α
  | [] => []
  | part :: parts => lead mark b part.1 ++ (part.2 ++ renderRest mark b parts)

variable {mark : List α} {b : α}

theorem renderRest_cons (part : Part α) (parts : List (Part α)) :
    renderRest mark b (part :: parts) = [b, b] ++ render mark b (part :: parts) := rfl

theorem length_lead (heading : List α) :
    (lead mark b heading).length = mark.length + heading.length + 2 := by
  unfold lead
  simp only [List.length_append, List.length_cons, List.length_nil]

/-- A section is a part of the text. -/
theorem infix_render {part : Part α} {parts : List (Part α)} (h : part ∈ parts) :
    lead mark b part.1 ++ part.2 <:+: render mark b parts := by
  induction parts with
  | nil => cases h
  | cons first parts ih =>
      rw [render]
      rcases List.mem_cons.mp h with rfl | h
      · rw [← List.append_assoc]
        exact (List.prefix_append _ _).isInfix
      · cases parts with
        | nil => cases h
        | cons next parts =>
            rw [renderRest_cons]
            exact (ih h).trans (((List.suffix_append _ _).trans
              (List.suffix_append _ _)).trans (List.suffix_append _ _)).isInfix

/-- What a heading takes in up to a gap of its text, the text loses. -/
theorem render_shift (heading before after : List α) (parts : List (Part α)) :
    render mark b ((heading, before ++ [b, b] ++ after) :: parts) =
      render mark b ((heading ++ [b, b] ++ before, after) :: parts) := by
  simp [render, lead]

-- ============================================================ divisions

/-- After a gap and a line, a gap that is not the first one lies behind the
line. -/
theorem line_prefix_of_gap {line rest ahead after : List α} (hline : b ∉ line)
    (hne : line ≠ []) (hahead : ahead ≠ [])
    (h : [b, b] ++ (line ++ rest) = ahead ++ ([b, b] ++ after)) :
    ∃ more, ahead = [b, b] ++ (line ++ more) := by
  obtain ⟨c, line, rfl⟩ := List.exists_cons_of_ne_nil hne
  match ahead, hahead with
  | [_], _ =>
      -- one step ahead, the line would start with a break
      have hc : c = b := by
        simp only [List.cons_append, List.nil_append, List.cons.injEq] at h
        exact h.2.2.1
      exact absurd (hc ▸ List.mem_cons_self) hline
  | _ :: _ :: more, _ =>
      simp only [List.cons_append, List.nil_append, List.cons.injEq] at h
      obtain ⟨rfl, rfl, h⟩ := h
      rw [← List.cons_append, List.append_eq_append_iff] at h
      rcases h with ⟨more, rfl, -⟩ | ⟨tail, hsplit, htail⟩
      · exact ⟨more, rfl⟩
      · cases tail with
        | nil => exact ⟨[], by rw [List.append_nil, hsplit, List.append_nil]; rfl⟩
        | cons d tail =>
            -- the gap would start inside the line
            have hd : d = b := (List.cons.inj htail).1.symm
            refine absurd ?_ hline
            rw [hsplit, hd]
            exact List.mem_append_right _ List.mem_cons_self

/-- Who has read more has less left. -/
theorem exists_left_of_length_lt {read rest more left : List α} (h : read ++ rest = more ++ left)
    (hlength : read.length < more.length) : ∃ ahead ≠ [], rest = ahead ++ left := by
  rcases List.append_eq_append_iff.mp h with ⟨ahead, hmore, hrest⟩ | ⟨behind, hread, -⟩
  · refine ⟨ahead, ?_, hrest⟩
    rintro rfl
    rw [hmore, List.append_nil] at hlength
    exact absurd hlength (Nat.lt_irrefl _)
  · rw [hread, List.length_append] at hlength
    omega

/-- The texts of two divisions have the same lengths. -/
def SameLengths (parts others : List (Part α)) : Prop :=
  List.Forall₂ (fun part other => part.2.length = other.2.length) parts others

/-- A reader that is ahead stays ahead, and comes to no end. -/
theorem not_ahead (hmark : b ∉ mark) (hne : mark ≠ []) {parts others : List (Part α)}
    (hlengths : SameLengths parts others) (hlines : ∀ part ∈ parts, b ∉ part.1)
    {ahead : List α} (hahead : ahead ≠ []) :
    renderRest mark b parts ≠ ahead ++ renderRest mark b others := by
  induction hlengths generalizing ahead with
  | nil =>
      intro h
      exact hahead (List.append_eq_nil_iff.mp h.symm).1
  | @cons part other parts others hlength _ ih =>
      intro h
      have hline : b ∉ mark ++ part.1 := by
        rw [List.mem_append, not_or]
        exact ⟨hmark, hlines part List.mem_cons_self⟩
      simp only [renderRest, lead, List.append_assoc] at h
      rw [← List.append_assoc mark part.1] at h
      obtain ⟨more, rfl⟩ := line_prefix_of_gap hline (by simp [hne]) hahead h
      -- behind the true heading: the reader has `more` left and a heading to read
      simp only [List.append_assoc, List.append_cancel_left_eq] at h
      have hsplit : [b, b] ++ part.2 ++ renderRest mark b parts =
          (more ++ [b, b] ++ mark ++ other.1 ++ [b, b] ++ other.2) ++
            renderRest mark b others := by
        simpa only [List.append_assoc] using h
      have hlonger : ([b, b] ++ part.2).length <
          (more ++ [b, b] ++ mark ++ other.1 ++ [b, b] ++ other.2).length := by
        have := List.length_pos_of_ne_nil hne
        simp only [List.length_append, List.length_cons, List.length_nil]
        omega
      obtain ⟨left, hleft, hrest⟩ := exists_left_of_length_lt hsplit hlonger
      exact ih (fun part hpart => hlines part (List.mem_cons_of_mem _ hpart)) hleft hrest

/-- Two divisions of a text after its first section. -/
theorem eq_of_renderRest_eq (hmark : b ∉ mark) (hne : mark ≠ []) {parts others : List (Part α)}
    (hlengths : SameLengths parts others) (hlines : ∀ part ∈ parts, b ∉ part.1)
    (h : renderRest mark b parts = renderRest mark b others) : parts = others := by
  induction hlengths with
  | nil => rfl
  | @cons part other parts others hlength hrest ih =>
      have hline : b ∉ part.1 := hlines part List.mem_cons_self
      have hlater : ∀ part ∈ parts, b ∉ part.1 :=
        fun part hpart => hlines part (List.mem_cons_of_mem _ hpart)
      simp only [renderRest, lead, List.append_assoc, List.append_cancel_left_eq] at h
      rcases List.append_eq_append_iff.mp h with ⟨more, hmore, hafter⟩ | ⟨more, hmore, hafter⟩
      · cases more with
        | nil =>
            rw [List.append_nil] at hmore
            simp only [List.nil_append, List.append_cancel_left_eq] at hafter
            obtain ⟨htext, hparts⟩ := List.append_inj hafter hlength
            rw [ih hlater hparts, Prod.ext hmore.symm htext]
        | cons c more =>
            -- the other heading runs on: its reader is ahead from here on
            exfalso
            have hsplit : [b, b] ++ part.2 ++ renderRest mark b parts =
                (c :: more ++ [b, b] ++ other.2) ++ renderRest mark b others := by
              simpa only [List.append_assoc] using hafter
            have hlonger : ([b, b] ++ part.2).length <
                (c :: more ++ [b, b] ++ other.2).length := by
              simp only [List.length_append, List.length_cons, List.length_nil]
              omega
            obtain ⟨left, hleft, hleftover⟩ := exists_left_of_length_lt hsplit hlonger
            exact not_ahead hmark hne hrest hlater hleft hleftover
      · cases more with
        | nil =>
            rw [List.append_nil] at hmore
            simp only [List.nil_append, List.append_cancel_left_eq] at hafter
            obtain ⟨htext, hparts⟩ := List.append_inj hafter.symm hlength
            rw [ih hlater hparts, Prod.ext hmore htext]
        | cons c more =>
            -- the other heading is shorter: a break would stand in this one
            have hc : c = b := (List.cons.inj hafter).1.symm
            refine absurd ?_ hline
            rw [hmore, hc]
            exact List.mem_append_right _ List.mem_cons_self

/-- Two divisions of a text into texts of the same lengths are the same, as
long as the headings of one are lines. -/
theorem eq_of_render_eq (hmark : b ∉ mark) (hne : mark ≠ []) {parts others : List (Part α)}
    (hlengths : SameLengths parts others) (hlines : ∀ part ∈ parts, b ∉ part.1)
    (h : render mark b parts = render mark b others) : parts = others := by
  refine eq_of_renderRest_eq hmark hne hlengths hlines ?_
  cases hlengths with
  | nil => rfl
  | cons _ _ => rw [renderRest_cons, renderRest_cons, h]

end Headed
