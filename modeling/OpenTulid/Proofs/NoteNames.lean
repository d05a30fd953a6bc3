/-
The name of the note of a created task.

Its stem is made of letters, digits and dashes (`plain_createdStem`), so the
row that is put into a board is read as a link to it (`parseTaskRow_cardLine`),
and no note of another name has this stem (`fresh_iff`).
-/
import OpenTulid.Adapters.CreateTask
import OpenTulid.Proofs.RepairNote

namespace OpenTulid.Obsidian

open Boards (ReadText parseTaskRow stripped isNameChar)
open Frozen.Prompt (Text isLineBreak)
open Standard (isSpace)

variable {p : Project} {task : Task}

-- =============================================================== characters

/-- A character of the name of a created note. -/
def Plain (c : Char) : Prop := isSlugChar c = true ∨ c = '-'

theorem plain_dashed {gap : Bool} {text : Text} : ∀ c ∈ dashed gap text, Plain c := by
  induction text generalizing gap with
  | nil => exact nofun
  | cons d text ih =>
      intro c hc
      unfold dashed at hc
      split at hc
      next hslug =>
        rcases List.mem_cons.mp hc with rfl | hc
        · exact .inl hslug
        · exact ih c hc
      next =>
        split at hc
        next => exact ih c hc
        next =>
          rcases List.mem_cons.mp hc with rfl | hc
          · exact .inr rfl
          · exact ih c hc

theorem toNat_of_le {c d : Char} (h : c ≤ d) : c.toNat ≤ d.toNat := UInt32.le_iff_toNat_le.mp h

/-- The code of a plain character. -/
theorem toNat_of_plain {c : Char} (h : Plain c) :
    (97 ≤ c.toNat ∧ c.toNat ≤ 122) ∨ (65 ≤ c.toNat ∧ c.toNat ≤ 90) ∨
      (48 ≤ c.toNat ∧ c.toNat ≤ 57) ∨ c.toNat = 45 := by
  rcases h with hslug | rfl
  · unfold isSlugChar at hslug
    simp only [Bool.or_eq_true, Bool.and_eq_true, decide_eq_true_eq] at hslug
    rcases hslug with (⟨hlow, hhigh⟩ | ⟨hlow, hhigh⟩) | ⟨hlow, hhigh⟩
    · exact .inl ⟨toNat_of_le hlow, toNat_of_le hhigh⟩
    · exact .inr (.inl ⟨toNat_of_le hlow, toNat_of_le hhigh⟩)
    · exact .inr (.inr (.inl ⟨toNat_of_le hlow, toNat_of_le hhigh⟩))
  · exact .inr (.inr (.inr rfl))

theorem plain_of_toNat {c : Char} (h : (97 ≤ c.toNat ∧ c.toNat ≤ 122) ∨
    (65 ≤ c.toNat ∧ c.toNat ≤ 90) ∨ (48 ≤ c.toNat ∧ c.toNat ≤ 57)) : Plain c := by
  left
  unfold isSlugChar
  simp only [Bool.or_eq_true, Bool.and_eq_true, decide_eq_true_eq]
  have hle : ∀ {a b : Char}, a.toNat ≤ b.toNat → a ≤ b := fun h => UInt32.le_iff_toNat_le.mpr h
  rcases h with ⟨hlow, hhigh⟩ | ⟨hlow, hhigh⟩ | ⟨hlow, hhigh⟩
  · exact .inl (.inl ⟨hle hlow, hle hhigh⟩)
  · exact .inl (.inr ⟨hle hlow, hle hhigh⟩)
  · exact .inr ⟨hle hlow, hle hhigh⟩

theorem plain_toLower {c : Char} (h : Plain c) : Plain c.toLower := by
  unfold Char.toLower
  split
  next hupper =>
    refine plain_of_toNat (.inl ?_)
    have hlow : 65 ≤ c.val.toNat := UInt32.le_iff_toNat_le.mp hupper.1
    have hhigh : c.val.toNat ≤ 90 := UInt32.le_iff_toNat_le.mp hupper.2
    have hsum : (c.val + ('a'.val - 'A'.val)).toNat = (c.val.toNat + 32) % 2 ^ 32 := rfl
    show 97 ≤ (c.val + ('a'.val - 'A'.val)).toNat ∧ (c.val + ('a'.val - 'A'.val)).toNat ≤ 122
    omega
  next => exact h

theorem plain_slugify (value : Text) : ∀ c ∈ slugify value, Plain c := by
  unfold slugify
  dsimp only
  split
  next =>
    intro c hc
    refine plain_of_toNat ?_
    have hword : ∀ c ∈ "task".toList, 97 ≤ c.toNat ∧ c.toNat ≤ 122 := by simp
    exact .inl (hword c hc)
  next =>
    intro c hc
    obtain ⟨d, hd, rfl⟩ := List.mem_map.mp hc
    exact plain_toLower (plain_dashed d ((List.dropWhile_suffix _).subset
      ((List.rdropWhile_prefix _ _).subset hd)))

theorem plain_of_isValidTaskId {id : Text} (h : isValidTaskId id = true) : ∀ c ∈ id, Plain c := by
  have hdigit : ∀ {c : Char}, '0' ≤ c → c ≤ '9' → Plain c := fun hlow hhigh =>
    plain_of_toNat (.inr (.inr ⟨toNat_of_le hlow, toNat_of_le hhigh⟩))
  have hone : ∀ {c : Char}, '1' ≤ c → '0' ≤ c := by
    intro c hc
    have hlow := toNat_of_le hc
    refine UInt32.le_iff_toNat_le.mpr ?_
    exact le_trans (by decide) hlow
  unfold isValidTaskId at h
  rcases Bool.or_eq_true_iff.mp h with hnumeric | hulid
  · cases id with
    | nil => exact nofun
    | cons c rest =>
        simp only [isNumericTaskId, Bool.and_eq_true, decide_eq_true_eq, List.all_eq_true] at hnumeric
        obtain ⟨⟨hlow, hhigh⟩, hrest⟩ := hnumeric
        intro d hd
        rcases List.mem_cons.mp hd with rfl | hd
        · exact hdigit (hone hlow) hhigh
        · exact hdigit (hrest d hd).1 (hrest d hd).2
  · simp only [isUlid, Bool.and_eq_true, Bool.or_eq_true, decide_eq_true_eq,
      List.all_eq_true] at hulid
    intro c hc
    rcases hulid.2 c hc with ⟨hlow, hhigh⟩ | ⟨⟨hlow, hhigh⟩, -⟩
    · exact hdigit hlow hhigh
    · exact plain_of_toNat (.inr (.inl ⟨toNat_of_le hlow, toNat_of_le hhigh⟩))

/-- A plain character is no blank, no break and no mark of a link or a name. -/
theorem Plain.safe {c : Char} (h : Plain c) :
    isSpace c = false ∧ isLineBreak c = false ∧ isNameChar c = true ∧ c ≠ '.' := by
  have hcode := toNat_of_plain h
  have hne : ∀ d : Char, d.toNat = 93 ∨ d.toNat = 124 ∨ d.toNat = 35 ∨ d.toNat = 47 ∨
      d.toNat = 92 ∨ d.toNat = 46 → c ≠ d := by
    rintro d hd rfl
    omega
  refine ⟨?_, ?_, ?_, hne '.' (by decide)⟩
  · unfold isSpace
    simp
    omega
  · unfold Frozen.Prompt.isLineBreak
    simp
    omega
  · unfold Boards.isNameChar
    simp only [Bool.and_eq_true, decide_eq_true_eq]
    exact ⟨⟨⟨⟨hne ']' (by decide), hne '|' (by decide)⟩, hne '#' (by decide)⟩,
      hne '/' (by decide)⟩, hne '\\' (by decide)⟩

-- ==================================================================== names

/-- The stem of the name of a created note. -/
def createdStem (task : Task) : Text := task.id ++ '-' :: slugify task.title

theorem noteName_eq (task : Task) : noteName task = createdStem task ++ ".md".toList := by
  unfold noteName createdStem
  simp

theorem plain_createdStem (h : isValidTaskId task.id = true) : ∀ c ∈ createdStem task, Plain c := by
  intro c hc
  rcases List.mem_append.mp hc with hc | hc
  · exact plain_of_isValidTaskId h c hc
  · rcases List.mem_cons.mp hc with rfl | hc
    · exact .inr rfl
    · exact plain_slugify _ c hc

theorem createdStem_ne_nil (task : Task) : createdStem task ≠ [] := by
  unfold createdStem
  simp

theorem stemOf_append {stem : Text} (h : stem ≠ []) : stemOf (stem ++ ".md".toList) = stem := by
  unfold stemOf
  rw [if_neg]
  · rw [List.length_append]
    exact List.take_left' rfl
  · intro heq
    exact h (List.append_left_eq_self.mp heq)

theorem stemOf_noteName (task : Task) : stemOf (noteName task) = createdStem task := by
  rw [noteName_eq, stemOf_append (createdStem_ne_nil task)]

theorem stripped_createdStem (h : isValidTaskId task.id = true) :
    stripped (createdStem task) = createdStem task :=
  stripped_of_solid fun c hc => (plain_createdStem h c hc).safe.1

/-- The row of a created note is read as a link to it. -/
theorem parseTaskRow_cardLine (h : isValidTaskId task.id = true) :
    parseTaskRow (cardLine (noteName task)) = some (stemOf (noteName task)) := by
  have hname : ∀ c ∈ createdStem task, isNameChar c = true :=
    fun c hc => (plain_createdStem h c hc).safe.2.2.1
  have htake : (createdStem task ++ "]]".toList).takeWhile isNameChar = createdStem task := by
    rw [List.takeWhile_append_of_pos hname]
    exact List.append_nil _
  have hdrop : (createdStem task ++ "]]".toList).dropWhile isNameChar = "]]".toList := by
    rw [List.dropWhile_append_of_pos hname]
    rfl
  have hlink : Boards.link ('[' :: '[' :: (createdStem task ++ "]]".toList)) =
      some (createdStem task) := by
    rw [Boards.link, hdrop, htake]
    exact if_pos ⟨createdStem_ne_nil task, rfl⟩
  have hrow : Boards.bullet Boards.checkbox (cardLine (noteName task)) =
      some (createdStem task) := by
    unfold cardLine
    rw [stemOf_noteName]
    exact hlink
  have hleft : (cardLine (noteName task)).dropWhile isSpace = cardLine (noteName task) := rfl
  unfold Boards.parseTaskRow Boards.taskRowPatterns
  rw [hleft, List.findSome?_cons, hrow, stemOf_noteName]
  exact congrArg some (stripped_createdStem h)

theorem not_isLineBreak_cardLine (h : isValidTaskId task.id = true) :
    ∀ c ∈ cardLine (noteName task), isLineBreak c = false := by
  have hends : ∀ c ∈ "- [ ] [[".toList ++ "]]".toList, isLineBreak c = false := by
    simp [isLineBreak]
  intro c hc
  unfold cardLine at hc
  rw [stemOf_noteName] at hc
  rcases List.mem_append.mp hc with hc | hc
  · rcases List.mem_append.mp hc with hc | hc
    · exact hends c (List.mem_append_left _ hc)
    · exact (plain_createdStem h c hc).safe.2.1
  · exact hends c (List.mem_append_right _ hc)

/-- No note of another name has the stem of the new one. -/
theorem fresh_iff (h : isValidTaskId task.id = true)
    (hnames : ∀ entry ∈ p.files.entries, ".md".toList <:+ entry.1) :
    (∀ entry ∈ p.files.entries, stemOf entry.1 ≠ stemOf (noteName task)) ↔
      p.files.get (noteName task) = none := by
  constructor
  · intro hfresh
    cases hget : p.files.get (noteName task) with
    | none => rfl
    | some file => exact absurd rfl (hfresh _ (Store.mem_entries.mpr hget))
  · intro hnone entry hentry heq
    obtain ⟨stem, hstem⟩ := hnames entry hentry
    have hname : entry.1 = noteName task := by
      rw [stemOf_noteName] at heq
      rw [noteName_eq, ← heq, ← hstem]
      by_cases hempty : stem = []
      · -- a note with no stem has a dot in the name that links to it
        exfalso
        rw [← hstem, hempty] at heq
        have hdot : '.' ∈ createdStem task := by
          rw [← heq]
          decide
        exact (plain_createdStem h '.' hdot).safe.2.2.2 rfl
      · rw [stemOf_append hempty]
    have hfile := Store.mem_entries.mp (show (entry.1, entry.2) ∈ p.files.entries from hentry)
    rw [hname, hnone] at hfile
    cases hfile

end OpenTulid.Obsidian
