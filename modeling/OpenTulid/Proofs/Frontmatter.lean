/-
The text of a note that is written, and what is below its frontmatter.

# Below the fence

`belowFence` is the text below the frontmatter as it stands in the file, with
its line breaks. The body that the adapter reads is put together from the
lines of it, so it is the same text if and only if every break is a newline
(`stripNewlines_joined_iff`).

# The written document

A document is a fence, what the YAML library writes, a fence and the body.
Where no line of what the library writes is itself a fence, the frontmatter
is read from those lines and the text below is the body
(`splitFrontmatter_document`, `belowFence_document`). Where one is, more is
below the first fence than was there before (`solid_belowFence_document`).
-/
import OpenTulid.Adapters.Frontmatter
import OpenTulid.Proofs.TextLines

namespace OpenTulid.Obsidian

open Boards (fence stripped)
open Frozen (Key PyValue Entries)
open Frozen.Prompt

variable {py : Python}

-- ================================================================ mappings

theorem get?_set (values : Entries) (key other : String) (v : PyValue) :
    get? (set values key v) other = if other = key then some v else get? values other := by
  induction values with
  | nil =>
      show (if key = other then some v else none) = if other = key then some v else none
      by_cases h : other = key
      · rw [if_pos h, if_pos h.symm]
      · rw [if_neg h, if_neg (Ne.symm h)]
  | cons e values ih =>
      obtain ⟨k, w⟩ := e
      cases k with
      | str k =>
          rw [set]
          split
          next hkey =>
            subst hkey
            rw [get?, get?]
            by_cases h : k = other
            · rw [if_pos h, if_pos h.symm]
            · rw [if_neg h, if_neg h, if_neg (Ne.symm h)]
          next hkey =>
            rw [get?, get?, ih]
            by_cases h : k = other
            · rw [if_pos h, if_pos h, if_neg (by rw [← h]; exact hkey)]
            · rw [if_neg h, if_neg h]
      | _ => simpa only [set, get?] using ih

theorem get_set_self (values : Entries) (key : String) (v : PyValue) :
    get (set values key v) key = v := by
  unfold get
  rw [get?_set, if_pos rfl]
  rfl

theorem get_set_of_ne {key other : String} (h : other ≠ key) (values : Entries) (v : PyValue) :
    get (set values key v) other = get values other := by
  unfold get
  rw [get?_set, if_neg h]

/-- A text key more does not change whether all keys are texts. -/
theorem all_isString_set (values : Entries) (key : String) (v : PyValue) :
    (set values key v).all (·.1.isString) = values.all (·.1.isString) := by
  induction values with
  | nil => rfl
  | cons e values ih =>
      obtain ⟨k, w⟩ := e
      cases k with
      | str k =>
          rw [set]
          split
          next => rfl
          next => rw [List.all_cons, List.all_cons, ih]
      | _ => simp only [set, List.all_cons, ih]

-- ========================================================= newlines outside

theorem stripNewlines_eq (text : Text) :
    ∃ before after, text = before ++ stripNewlines text ++ after ∧
      (∀ c ∈ before, c = '\n') ∧ ∀ c ∈ after, c = '\n' := by
  refine ⟨text.takeWhile (· = '\n'),
    (text.dropWhile (· = '\n')).rtakeWhile (· = '\n'), ?_, ?_, ?_⟩
  · unfold stripNewlines
    rw [List.append_assoc, List.rdropWhile_append_rtakeWhile, List.takeWhile_append_dropWhile]
  · intro c hc
    simpa using List.mem_takeWhile_imp hc
  · intro c hc
    simpa using List.mem_rtakeWhile_imp hc

theorem stripNewlines_cons (text : Text) : stripNewlines ('\n' :: text) = stripNewlines text := rfl

theorem stripNewlines_concat (text : Text) :
    stripNewlines (text ++ ['\n']) = stripNewlines text := by
  unfold stripNewlines
  rw [List.dropWhile_append]
  split
  next hempty =>
    rw [List.isEmpty_iff.mp hempty]
    rfl
  next => exact List.rdropWhile_concat_pos _ _ _ rfl

theorem stripNewlines_idempotent (text : Text) :
    stripNewlines (stripNewlines text) = stripNewlines text := by
  unfold stripNewlines
  have hself : ((text.dropWhile (· = '\n')).rdropWhile (· = '\n')).dropWhile (· = '\n') =
      (text.dropWhile (· = '\n')).rdropWhile (· = '\n') := by
    obtain ⟨after, hafter⟩ := List.rdropWhile_prefix (fun c => decide (c = '\n')) (text.dropWhile (· = '\n'))
    cases hrest : (text.dropWhile (· = '\n')).rdropWhile (· = '\n') with
    | nil => rfl
    | cons c rest =>
        rw [hrest] at hafter
        -- the first character of what is left is the first that is no newline
        have hfirst := List.head?_dropWhile_not (fun c => decide (c = '\n')) text
        rw [← hafter] at hfirst
        exact List.dropWhile_cons_of_neg (by simpa using hfirst)
  rw [hself, List.rdropWhile_idempotent]

theorem solid_newlines {text : Text} (h : ∀ c ∈ text, c = '\n') : solid text = 0 := by
  unfold solid
  refine List.countP_eq_zero.mpr fun c hc => ?_
  rw [h c hc]
  decide

theorem solid_stripNewlines (text : Text) : solid (stripNewlines text) = solid text := by
  obtain ⟨before, after, htext, hbefore, hafter⟩ := stripNewlines_eq text
  conv => rhs; rw [htext, solid_append, solid_append, solid_newlines hbefore,
    solid_newlines hafter]
  omega

theorem mem_stripNewlines {text : Text} {c : Char} (hc : c ∈ text) (hne : c ≠ '\n') :
    c ∈ stripNewlines text := by
  obtain ⟨before, after, htext, hbefore, hafter⟩ := stripNewlines_eq text
  rw [htext, List.mem_append, List.mem_append] at hc
  rcases hc with (hc | hc) | hc
  · exact absurd (hbefore c hc) hne
  · exact hc
  · exact absurd (hafter c hc) hne

theorem stripNewlines_subset {text : Text} {c : Char} (hc : c ∈ stripNewlines text) :
    c ∈ text := by
  obtain ⟨before, after, htext, -, -⟩ := stripNewlines_eq text
  rw [htext]
  simp [hc]

/-- Lines put together again are the text itself, up to newlines outside, if
and only if the text has no other breaks. -/
theorem stripNewlines_joined_iff (text : Text) :
    stripNewlines (joined "\n" (splitlines text)) = stripNewlines text ↔
      ∀ c ∈ text, isLineBreak c = true → c = '\n' := by
  constructor
  · intro h c hc hbreak
    by_contra hne
    have hmem := mem_stripNewlines hc hne
    rw [← h] at hmem
    exact hne (newline_of_mem_joined (fun _ hline _ => not_isLineBreak_of_mem hline)
      (stripNewlines_subset hmem) hbreak)
  · intro h
    rcases joined_splitlines h with htext | htext
    · rw [← htext]
    · conv => rhs; rw [htext, stripNewlines_concat]

-- =========================================================== below the fence

/-- The line of the fence that closes a frontmatter, counted below the first. -/
def closingFence (content : Text) : Option Nat :=
  match splitlines content with
  | [] => none
  | first :: rest =>
      if stripped first = fence then rest.findIdx? fun line => stripped line = fence else none

/-- The text below the frontmatter, as it stands. -/
def belowFence (content : Text) : Text :=
  match closingFence content with
  | some idx => dropLines (idx + 2) content
  | none => content

/-- The frontmatter and the body of a text, by its closing fence. -/
theorem splitFrontmatter_eq (content : Text) :
    splitFrontmatter py content =
      match closingFence content with
      | some idx => (parseFrontmatter py (joined "\n" (((splitlines content).drop 1).take idx))) >>=
          fun frontmatter => .ok (frontmatter,
            stripNewlines (joined "\n" (splitlines (belowFence content))))
      | none => .ok ([], content) := by
  unfold splitFrontmatter belowFence closingFence
  cases hlines : splitlines content with
  | nil => rfl
  | cons first rest =>
      dsimp only
      by_cases hfence : stripped first = fence
      · rw [if_neg (by simpa using hfence), if_pos hfence]
        cases hidx : rest.findIdx? fun line => stripped line = fence with
        | none => rfl
        | some idx =>
            dsimp only
            rw [splitlines_dropLines, hlines, List.drop_succ_cons]
            rfl
      · rw [if_pos hfence, if_neg hfence]

-- ================================================== the document that is written

/-- What stands behind the closing fence of a document. -/
def documentTail (body : Text) : Text :=
  if stripNewlines body = [] then ['\n'] else "\n\n".toList ++ stripNewlines body ++ ['\n']

/-- A document with `yaml` between its fences. -/
def document (yaml body : Text) : Text :=
  "---".toList ++ '\n' :: (yaml ++ '\n' :: ("---".toList ++ documentTail body))

theorem serializeTaskDocument_eq (frontmatter : Entries) (body : Text) :
    serializeTaskDocument py frontmatter body = (sortedEntries frontmatter).map fun sorted =>
      document (rstripNewlines (py.dump sorted)) body := by
  unfold serializeTaskDocument serializeFrontmatter document documentTail
  cases sortedEntries frontmatter with
  | none => rfl
  | some sorted =>
      simp only [Option.map_some]
      split
      next => simp
      next => simp

/-- Below the closing fence of a document. -/
theorem documentTail_eq (body : Text) :
    ∃ below, documentTail body = '\n' :: below ∧ stripNewlines below = stripNewlines body := by
  unfold documentTail
  split
  next hempty => exact ⟨[], rfl, hempty.symm ▸ rfl⟩
  next =>
    refine ⟨'\n' :: (stripNewlines body ++ ['\n']), rfl, ?_⟩
    rw [stripNewlines_cons, stripNewlines_concat, stripNewlines_idempotent]

/-- The lines that the YAML library writes. -/
def yamlLines (yaml : Text) : List Text := splitlines (yaml ++ ['\n'])

theorem splitlines_document (yaml body : Text) :
    splitlines (document yaml body) =
      fence :: (yamlLines yaml ++ splitlines ("---".toList ++ documentTail body)) := by
  unfold document yamlLines
  rw [splitlines_append "---".toList, splitlines_append yaml]
  rfl

theorem splitlines_fence (body : Text) :
    ∃ below, documentTail body = '\n' :: below ∧
      splitlines ("---".toList ++ documentTail body) = fence :: splitlines below := by
  obtain ⟨below, hbelow, -⟩ := documentTail_eq body
  refine ⟨below, hbelow, ?_⟩
  rw [hbelow, splitlines_append]
  rfl

/-- No line that the YAML library writes is a fence. -/
def NoFence (yaml : Text) : Prop := ∀ line ∈ yamlLines yaml, stripped line ≠ fence

/-- The closing fence of a document is behind the lines of the YAML library,
or one of them. -/
theorem closingFence_document (yaml body : Text) :
    (NoFence yaml ∧ closingFence (document yaml body) = some (yamlLines yaml).length) ∨
      ¬ NoFence yaml ∧ ∃ idx < (yamlLines yaml).length,
        closingFence (document yaml body) = some idx := by
  have hfirst : stripped fence = fence := rfl
  obtain ⟨below, -, hlines⟩ := splitlines_fence body
  unfold closingFence
  rw [splitlines_document, hlines]
  dsimp only
  rw [if_pos hfirst, List.findIdx?_append]
  cases hidx : (yamlLines yaml).findIdx? fun line => stripped line = fence with
  | none =>
      left
      have hnone := List.findIdx?_eq_none_iff.mp hidx
      refine ⟨fun line hline => by simpa using hnone line hline, ?_⟩
      rw [List.findIdx?_cons, if_pos (by simpa using hfirst)]
      simp
  | some idx =>
      right
      obtain ⟨hlt, hfound, -⟩ := List.findIdx?_eq_some_iff_getElem.mp hidx
      refine ⟨fun hno => ?_, idx, hlt, rfl⟩
      exact hno _ (List.getElem_mem hlt) (by simpa using hfound)

/-- Below the frontmatter of a document stands its body. -/
theorem belowFence_document {yaml : Text} (h : NoFence yaml) (body : Text) :
    stripNewlines (belowFence (document yaml body)) = stripNewlines body := by
  obtain ⟨below, htail, hstrip⟩ := documentTail_eq body
  rcases closingFence_document yaml body with ⟨-, hidx⟩ | ⟨hnot, -⟩
  · unfold belowFence
    rw [hidx]
    dsimp only
    unfold document
    show stripNewlines (dropLines ((yamlLines yaml).length + 1) (yaml ++ '\n' :: _)) = _
    have hsucc : ∀ text, dropLines ((yamlLines yaml).length + 1) text =
        dropLine (dropLines (yamlLines yaml).length text) :=
      fun text => Function.iterate_succ_apply' _ _ _
    rw [hsucc]
    unfold yamlLines
    rw [dropLines_append, htail, ← hstrip]
    rfl
  · exact absurd h hnot

/-- Where a line of the frontmatter is a fence, more stands below it than
the body. -/
theorem solid_belowFence_document {yaml : Text} (h : ¬ NoFence yaml) (body : Text) :
    solid body < solid (belowFence (document yaml body)) := by
  rcases closingFence_document yaml body with ⟨hno, -⟩ | ⟨-, idx, hlt, hidx⟩
  · exact absurd hno h
  · unfold belowFence
    rw [hidx]
    dsimp only
    unfold document
    show _ < solid (dropLines (idx + 1) (yaml ++ '\n' :: _))
    obtain ⟨before, hbefore⟩ := exists_dropLines_append yaml
      ("---".toList ++ documentTail body) (Nat.succ_le_of_lt hlt)
    obtain ⟨below, htail, hstrip⟩ := documentTail_eq body
    have hbody : solid (documentTail body) = solid body := by
      rw [htail, ← solid_stripNewlines body, ← hstrip, solid_stripNewlines]
      rfl
    rw [hbefore, solid_append, solid_append, hbody]
    have : solid "---".toList = 3 := rfl
    omega

/-- What is read of a document. -/
theorem splitFrontmatter_document {yaml : Text} (h : NoFence yaml) (body : Text) :
    splitFrontmatter py (document yaml body) =
      (parseFrontmatter py (joined "\n" (yamlLines yaml))) >>= fun frontmatter =>
        .ok (frontmatter, stripNewlines (joined "\n"
          (splitlines (belowFence (document yaml body))))) := by
  rcases closingFence_document yaml body with ⟨-, hidx⟩ | ⟨hnot, -⟩
  · rw [splitFrontmatter_eq, hidx, splitlines_document]
    dsimp only
    rw [List.drop_succ_cons, List.drop_zero, List.take_left]
  · exact absurd h hnot

end OpenTulid.Obsidian
