/-
The lines of a board when a row is taken out and put in elsewhere.

# Places

`Place` is what the adapter knows between two lines: whether they lie in a
block and which heading it saw last. A row changes no place, so taking one out
leaves every other row in its column (`rowsOf_erase`), and where it is put in
is its column (`rowsOf_insert`).

# The other scanner

`Section` says where `_find_column_insert_index` puts a row: behind the last
row below the first heading of the column, or behind that heading, where every
line with two number signs is a heading.
-/
import OpenTulid.Adapters.MoveTask
import OpenTulid.Proofs.Boards
import OpenTulid.Proofs.TextLines

namespace OpenTulid.Boards

open Frozen.Prompt (Text splitlines joined)
open Standard (isSpace)

-- ================================================================= places

/-- What is known between two lines. -/
structure Place where
  mode : Mode
  column : Option Text
  deriving DecidableEq

/-- Before the first line. -/
def Place.start : Place := ⟨.outside, none⟩

/-- Behind a line. -/
def Place.next (place : Place) (line : Text) : Place :=
  match place.mode.marker line with
  | some next => ⟨next, place.column⟩
  | none =>
      match entryOf line with
      | .heading name => ⟨.outside, some name⟩
      | _ => ⟨.outside, place.column⟩

/-- Behind some lines. -/
def Place.after (place : Place) (lines : List Text) : Place := lines.foldl Place.next place

/-- A card without its number. -/
structure Row where
  column : Text
  note : Text
  text : Text
  deriving DecidableEq

/-- The rows of a line; `none` where it cannot be read. -/
def Place.rows (place : Place) (line : Text) : Option (List Row) :=
  match place.mode.marker line with
  | some _ => some []
  | none =>
      match entryOf line with
      | .blank | .heading _ => some []
      | .row note => place.column.map fun name => [⟨name, note, line⟩]
      | .other => none

/-- The rows of some lines. -/
def rowsOf : Place → List Text → Option (List Row)
  | _, [] => some []
  | place, line :: lines => do
      let rows ← place.rows line
      let rest ← rowsOf (place.next line) lines
      some (rows ++ rest)

def BoardCard.row (card : BoardCard) : Row := ⟨card.column, card.taskNote, card.cardText⟩

theorem Place.after_append (place : Place) (lines more : List Text) :
    place.after (lines ++ more) = (place.after lines).after more := List.foldl_append

theorem rowsOf_append (place : Place) (lines more : List Text) :
    rowsOf place (lines ++ more) = (do
      let rows ← rowsOf place lines
      let rest ← rowsOf (place.after lines) more
      some (rows ++ rest)) := by
  induction lines generalizing place with
  | nil =>
      show _ = (rowsOf place more >>= fun rest => some rest)
      rw [List.nil_append]
      cases rowsOf place more <;> rfl
  | cons line lines ih =>
      rw [List.cons_append, rowsOf, rowsOf, ih]
      cases place.rows line with
      | none => rfl
      | some rows =>
          show (rowsOf (place.next line) lines >>= _) >>= _ = (rowsOf (place.next line) lines >>= _) >>= _
          cases rowsOf (place.next line) lines with
          | none => rfl
          | some rest =>
              show (rowsOf ((place.next line).after lines) more >>= _) >>= _ =
                rowsOf ((place.next line).after lines) more >>= _
              cases rowsOf ((place.next line).after lines) more with
              | none => rfl
              | some last =>
                  show some (rows ++ (rest ++ last)) = some (rows ++ rest ++ last)
                  rw [List.append_assoc]

/-- The cards of some lines are their rows. -/
theorem rows_cardsOf (place : Place) (i : Nat) (lines : List Text) :
    (cardsOf place.column (visible place.mode i lines)).map (·.map BoardCard.row) =
      rowsOf place lines := by
  induction lines generalizing place i with
  | nil => rfl
  | cons line lines ih =>
      rw [visible, rowsOf]
      unfold Place.rows Place.next
      cases hmarker : place.mode.marker line with
      | some next =>
          have hrest := ih ⟨next, place.column⟩ (i + 1)
          dsimp only at hrest ⊢
          rw [hrest]
          cases rowsOf ⟨next, place.column⟩ lines <;> rfl
      | none =>
          dsimp only
          rw [cardsOf]
          cases hentry : entryOf line with
          | blank =>
              have hrest := ih ⟨.outside, place.column⟩ (i + 1)
              dsimp only at hrest ⊢
              rw [hrest]
              cases rowsOf ⟨.outside, place.column⟩ lines <;> rfl
          | heading name =>
              have hrest := ih ⟨.outside, some name⟩ (i + 1)
              dsimp only at hrest ⊢
              rw [hrest]
              cases rowsOf ⟨.outside, some name⟩ lines <;> rfl
          | other => rfl
          | row note =>
              have hrest := ih ⟨.outside, place.column⟩ (i + 1)
              dsimp only at hrest ⊢
              rw [← hrest]
              cases place.column with
              | none => rfl
              | some name =>
                  cases cardsOf (some name) (visible .outside (i + 1) lines) <;> rfl

/-- The row of a card stands in no block, below the heading of its column. -/
theorem place_of_card {place : Place} {i : Nat} {lines : List Text} {cards : List BoardCard}
    (h : cardsOf place.column (visible place.mode i lines) = some cards) {card : BoardCard}
    (hcard : card ∈ cards) :
    ∃ above below, lines = above ++ card.cardText :: below ∧
      card.lineIndex = i + above.length ∧
      place.after above = ⟨.outside, some card.column⟩ ∧
      parseTaskRow card.cardText = some card.taskNote := by
  induction lines generalizing place i cards with
  | nil =>
      cases h
      cases hcard
  | cons line lines ih =>
      rw [visible] at h
      have hlater : ∀ (next : Place) {later : List BoardCard}, place.next line = next →
          cardsOf next.column (visible next.mode (i + 1) lines) = some later → card ∈ later →
          ∃ above below, line :: lines = above ++ card.cardText :: below ∧
            card.lineIndex = i + above.length ∧
            place.after above = ⟨.outside, some card.column⟩ ∧
            parseTaskRow card.cardText = some card.taskNote := by
        intro next later hnext hlater hmem
        obtain ⟨above, below, rfl, hindex, hafter, hparse⟩ := ih hlater hmem
        refine ⟨line :: above, below, rfl, ?_, ?_, hparse⟩
        · rw [hindex, List.length_cons]
          omega
        · rw [← hafter, ← hnext]
          rfl
      cases hmarker : place.mode.marker line with
      | some next =>
          rw [hmarker] at h
          exact hlater ⟨next, place.column⟩ (by unfold Place.next; rw [hmarker]) h hcard
      | none =>
          rw [hmarker] at h
          have hmode : place.mode = .outside := by
            cases hm : place.mode with
            | outside => rfl
            | frontmatter =>
                rw [hm] at hmarker
                cases hmarker
            | settings =>
                rw [hm] at hmarker
                cases hmarker
          dsimp only at h
          rw [cardsOf] at h
          cases hentry : entryOf line with
          | blank =>
              rw [hentry] at h
              refine hlater ⟨.outside, place.column⟩ ?_ h hcard
              unfold Place.next
              rw [hmarker, hentry]
          | heading name =>
              rw [hentry] at h
              refine hlater ⟨.outside, some name⟩ ?_ h hcard
              unfold Place.next
              rw [hmarker, hentry]
          | other =>
              rw [hentry] at h
              cases h
          | row note =>
              rw [hentry] at h
              cases hcolumn : place.column with
              | none =>
                  rw [hcolumn] at h
                  cases h
              | some name =>
                  rw [hcolumn] at h
                  obtain ⟨later, hrest, rfl⟩ := Option.map_eq_some_iff.mp h
                  rcases List.mem_cons.mp hcard with rfl | hmem
                  · refine ⟨[], lines, rfl, rfl, ?_, ?_⟩
                    · show place = _
                      rw [← hcolumn, ← hmode]
                    · unfold entryOf at hentry
                      split at hentry
                      next => cases hentry
                      next =>
                        split at hentry
                        next hparse =>
                          cases hentry
                          exact hparse
                        next => split at hentry <;> cases hentry
                  · refine hlater ⟨.outside, some name⟩ ?_ hrest hmem
                    unfold Place.next
                    rw [hmarker, hentry, hcolumn]

-- ==================================================================== rows

/-- A row starts with a dash or a bracket. -/
theorem head_of_row {line note : Text} (h : parseTaskRow line = some note) :
    ∃ c rest, line.dropWhile isSpace = c :: rest ∧
      (c = '-' ∧ (∃ d more, rest = d :: more ∧ isSpace d = true) ∨ c = '[') := by
  unfold parseTaskRow at h
  obtain ⟨found, hfound, -⟩ := Option.map_eq_some_iff.mp h
  obtain ⟨pattern, hpattern, hmatch⟩ := List.exists_of_findSome?_eq_some hfound
  have hbullet : ∀ next, bullet next (line.dropWhile isSpace) = some found →
      ∃ c rest, line.dropWhile isSpace = c :: rest ∧
        (c = '-' ∧ (∃ d more, rest = d :: more ∧ isSpace d = true) ∨ c = '[') := by
    intro next hnext
    unfold bullet at hnext
    split at hnext
    next rest heq =>
      refine ⟨'-', rest, heq, .inl ⟨rfl, ?_⟩⟩
      cases rest with
      | nil => cases hnext
      | cons d more =>
          refine ⟨d, more, rfl, ?_⟩
          by_contra hspace
          have hnone : spaces (d :: more) = none := if_neg hspace
          rw [hnone] at hnext
          cases hnext
    next => cases hnext
  simp only [taskRowPatterns, List.mem_cons, List.not_mem_nil, or_false] at hpattern
  rcases hpattern with rfl | rfl | rfl
  · exact hbullet _ hmatch
  · exact hbullet _ hmatch
  · unfold link at hmatch
    split at hmatch
    next rest heq => exact ⟨'[', _, heq, .inr rfl⟩
    next => cases hmatch

/-- What a row is once its blanks are taken off. -/
theorem stripped_of_row {line note : Text} (h : parseTaskRow line = some note) :
    ∃ c rest, stripped line = c :: rest ∧ (c = '-' ∨ c = '[') ∧ c :: rest ≠ fence := by
  obtain ⟨c, rest, hline, hc⟩ := head_of_row h
  have hsolid : isSpace c = false := by
    rcases hc with ⟨rfl, -⟩ | rfl
    · rfl
    · rfl
  have hprefix := List.rdropWhile_prefix isSpace (c :: rest)
  cases hstripped : (c :: rest).rdropWhile isSpace with
  | nil =>
      rw [List.rdropWhile_eq_nil_iff] at hstripped
      have := hstripped c List.mem_cons_self
      rw [hsolid] at this
      cases this
  | cons c' rest' =>
      rw [hstripped] at hprefix
      obtain ⟨rfl, hrest⟩ := List.cons_prefix_cons.mp hprefix
      refine ⟨c', rest', ?_, ?_, ?_⟩
      · unfold stripped Frozen.Prompt.strip
        rw [hline, hstripped]
      · rcases hc with ⟨hc, -⟩ | hc
        · exact .inl hc
        · exact .inr hc
      · intro hfence
        obtain ⟨rfl, rfl⟩ := List.cons.inj hfence
        rcases hc with ⟨-, d, more, rfl, hspace⟩ | hc
        · obtain ⟨rfl, -⟩ := List.cons_prefix_cons.mp hrest
          cases hspace
        · exact absurd hc (by decide)

/-- The name of a heading, in a block or not. -/
def headingOf (line : Text) : Option Text :=
  if headingMark.isPrefixOf (stripped line) then some (stripped ((stripped line).drop 3))
  else none

theorem headingOf_row {line note : Text} (h : parseTaskRow line = some note) :
    headingOf line = none := by
  obtain ⟨c, rest, hline, hc, -⟩ := stripped_of_row h
  unfold headingOf
  rw [hline, if_neg]
  rcases hc with rfl | rfl
  · exact nofun
  · exact nofun

theorem entryOf_row {line note : Text} (h : parseTaskRow line = some note) :
    entryOf line = .row note := by
  have hheading := headingOf_row h
  unfold headingOf at hheading
  unfold entryOf
  split at hheading
  next => cases hheading
  next hnot => rw [if_neg hnot, h]

/-- A row is no marker. -/
theorem marker_row {line note : Text} (h : parseTaskRow line = some note) (mode : Mode) :
    mode.marker line = if mode = .outside then none else some mode := by
  obtain ⟨c, rest, hline, hc, hfence⟩ := stripped_of_row h
  have hstart : c :: rest ≠ settingsStart := by
    rcases hc with rfl | rfl
    · exact nofun
    · exact nofun
  have hend : c :: rest ≠ settingsEnd := by
    rcases hc with rfl | rfl
    · exact nofun
    · exact nofun
  unfold Mode.marker
  cases mode with
  | outside =>
      dsimp only
      rw [hline, if_neg hfence, if_neg hstart]
      rfl
  | frontmatter =>
      dsimp only
      rw [hline, if_neg hfence]
      rfl
  | settings =>
      dsimp only
      rw [hline, if_neg hend]
      rfl

/-- A row changes no place. -/
theorem Place.next_row {line note : Text} (h : parseTaskRow line = some note) (place : Place) :
    place.next line = place := by
  obtain ⟨mode, column⟩ := place
  unfold Place.next
  dsimp only
  rw [marker_row h]
  cases mode with
  | outside =>
      rw [if_pos rfl]
      dsimp only
      rw [entryOf_row h]
  | frontmatter => rfl
  | settings => rfl

/-- What a row is at a place: the row of its column, or nothing in a block. -/
theorem Place.rows_row {line note : Text} (h : parseTaskRow line = some note) (place : Place) :
    place.rows line = if place.mode = .outside then
      place.column.map fun name => [⟨name, note, line⟩] else some [] := by
  obtain ⟨mode, column⟩ := place
  unfold Place.rows
  dsimp only
  rw [marker_row h]
  cases mode with
  | outside =>
      rw [if_pos rfl]
      dsimp only
      rw [entryOf_row h]
      rfl
  | frontmatter => rfl
  | settings => rfl

/-- The rows of lines with a row among them. -/
theorem rowsOf_row {line note : Text} (h : parseTaskRow line = some note) (place : Place)
    (above below : List Text) :
    rowsOf place (above ++ line :: below) = (do
      let rows ← rowsOf place above
      let row ← (place.after above).rows line
      let rest ← rowsOf (place.after above) below
      some (rows ++ (row ++ rest))) := by
  rw [rowsOf_append, rowsOf, Place.next_row h]
  cases rowsOf place above with
  | none => rfl
  | some rows =>
      show ((place.after above).rows line >>= _) >>= _ = (place.after above).rows line >>= _
      cases (place.after above).rows line with
      | none => rfl
      | some row =>
          show (rowsOf (place.after above) below >>= _) >>= _ =
            rowsOf (place.after above) below >>= _
          cases rowsOf (place.after above) below <;> rfl

/-- The other rows, when one is taken out. -/
theorem rowsOf_erase {line note column : Text} (h : parseTaskRow line = some note)
    {place : Place} {above below : List Text} {rows : List Row}
    (hplace : place.after above = ⟨.outside, some column⟩)
    (hrows : rowsOf place (above ++ line :: below) = some rows) :
    ∃ before after, rows = before ++ ⟨column, note, line⟩ :: after ∧
      rowsOf place (above ++ below) = some (before ++ after) := by
  rw [rowsOf_row h, hplace, Place.rows_row h] at hrows
  rw [rowsOf_append, hplace]
  obtain ⟨before, hbefore, hrows⟩ := Option.bind_eq_some_iff.mp hrows
  obtain ⟨row, hrow, hrows⟩ := Option.bind_eq_some_iff.mp hrows
  obtain ⟨after, hafter, hrows⟩ := Option.bind_eq_some_iff.mp hrows
  cases hrow
  cases hrows
  refine ⟨before, after, rfl, ?_⟩
  rw [hbefore, hafter]
  rfl

/-- The rows when one is put in. -/
theorem rowsOf_insert {line note : Text} (h : parseTaskRow line = some note)
    {place : Place} {above below : List Text} {rows : List Row}
    (hrows : rowsOf place (above ++ below) = some rows) :
    ∃ before after, rows = before ++ after ∧
      rowsOf place (above ++ line :: below) =
        ((place.after above).rows line).map fun row => before ++ (row ++ after) := by
  rw [rowsOf_append] at hrows
  obtain ⟨before, hbefore, hrows⟩ := Option.bind_eq_some_iff.mp hrows
  obtain ⟨after, hafter, hrows⟩ := Option.bind_eq_some_iff.mp hrows
  cases hrows
  refine ⟨before, after, rfl, ?_⟩
  rw [rowsOf_row h, hbefore, hafter]
  show ((place.after above).rows line >>= _) = _
  cases (place.after above).rows line <;> rfl

-- ======================================================= the other scanner

/-- Behind `before` a row of the column is put: behind the last row below the
first heading of the column, up to the next heading, or behind that heading. -/
structure Section (column : Text) (lines before after : List Text) : Prop where
  lines_eq : lines = before ++ after
  before_eq : ∃ above heading rows, before = above ++ heading :: rows ∧
    headingOf heading = some column ∧ (∀ line ∈ above, headingOf line ≠ some column) ∧
    (∀ line ∈ rows, headingOf line = none) ∧
    ∀ last, rows.getLast? = some last → (parseTaskRow last).isSome = true
  rest : ∀ line ∈ after.takeWhile (fun line => (headingOf line).isNone),
    parseTaskRow line = none

open Obsidian (findColumn)

variable {column : Text}

/-- One round of the scanner. -/
theorem findColumn_cons (idx : Nat) (inTarget : Bool) (insertAt : Option Nat) (line : Text)
    (rest : List Text) :
    findColumn column idx inTarget insertAt (line :: rest) =
      match headingOf line with
      | some name =>
          if inTarget then some (insertAt.getD idx)
          else if name = column then findColumn column (idx + 1) true (some (idx + 1)) rest
          else findColumn column (idx + 1) false insertAt rest
      | none =>
          if inTarget && (parseTaskRow line).isSome then
            findColumn column (idx + 1) inTarget (some (idx + 1)) rest
          else findColumn column (idx + 1) inTarget insertAt rest := by
  rw [findColumn]
  unfold headingOf
  split
  next => rfl
  next => rfl

/-- Lines above the heading. -/
theorem findColumn_above {above : List Text} (h : ∀ line ∈ above, headingOf line ≠ some column)
    (idx : Nat) (rest : List Text) :
    findColumn column idx false none (above ++ rest) =
      findColumn column (idx + above.length) false none rest := by
  induction above generalizing idx with
  | nil => rfl
  | cons line above ih =>
      rw [List.cons_append, findColumn_cons, List.length_cons]
      have hrest := ih (fun l hl => h l (.tail _ hl)) (idx + 1)
      rw [show idx + 1 + above.length = idx + (above.length + 1) by omega] at hrest
      cases hline : headingOf line with
      | none => exact hrest
      | some name =>
          have hne : name ≠ column := fun heq => h line (.head _) (heq ▸ hline)
          dsimp only
          rw [if_neg hne]
          exact hrest

/-- Lines of the section. -/
theorem findColumn_rows {rows : List Text} (h : ∀ line ∈ rows, headingOf line = none)
    (idx k : Nat) (rest : List Text) :
    ∃ k', findColumn column idx true (some k) (rows ++ rest) =
      findColumn column (idx + rows.length) true (some k') rest := by
  induction rows generalizing idx k with
  | nil => exact ⟨k, rfl⟩
  | cons line rows ih =>
      rw [List.cons_append, findColumn_cons, List.length_cons, h line (.head _)]
      have hrest := ih (fun l hl => h l (.tail _ hl)) (idx + 1)
      rw [show idx + 1 + rows.length = idx + (rows.length + 1) by omega] at hrest
      dsimp only
      split
      next => exact hrest _
      next => exact hrest _

/-- What is left of the section has no row. -/
theorem findColumn_rest {after : List Text}
    (h : ∀ line ∈ after.takeWhile (fun line => (headingOf line).isNone), parseTaskRow line = none)
    (idx k : Nat) : findColumn column idx true (some k) after = some k := by
  induction after generalizing idx with
  | nil => rfl
  | cons line after ih =>
      rw [findColumn_cons]
      cases hline : headingOf line with
      | some name => rfl
      | none =>
          rw [List.takeWhile_cons_of_pos (by simp [hline])] at h
          dsimp only
          rw [h line (.head _)]
          exact ih (fun l hl => h l (.tail _ hl)) (idx + 1)

/-- The scanner finds the place of the section. -/
theorem Section.findColumnInsertIndex {lines before after : List Text}
    (h : Section column lines before after) :
    Obsidian.findColumnInsertIndex lines column = some before.length := by
  obtain ⟨hlines, ⟨above, heading, rows, rfl, hheading, habove, hrows, hlast⟩, hrest⟩ := h
  unfold Obsidian.findColumnInsertIndex
  rw [hlines, List.append_assoc, findColumn_above habove, List.cons_append, findColumn_cons,
    hheading]
  dsimp only
  rw [if_neg (by simp), if_pos rfl]
  rcases List.eq_nil_or_concat rows with rfl | ⟨init, last, rfl⟩
  · rw [List.nil_append, findColumn_rest hrest]
    simp
  · have hrow := hlast last (by simp)
    rw [List.concat_eq_append] at hrows ⊢
    rw [List.append_assoc]
    obtain ⟨k', hk'⟩ := @findColumn_rows column _
      (fun l hl => hrows l (List.mem_append_left _ hl)) (0 + above.length + 1)
      (0 + above.length + 1) ([last] ++ after)
    rw [hk', List.singleton_append, findColumn_cons, hrows last (by simp)]
    dsimp only
    rw [hrow, Bool.and_self, if_pos rfl, findColumn_rest hrest]
    simp only [List.length_append, List.length_cons, List.length_nil]
    congr 1
    omega

/-- The rows of a section, and what is left of it. -/
theorem exists_rows (lines : List Text) :
    ∃ rows after, lines = rows ++ after ∧ (∀ line ∈ rows, headingOf line = none) ∧
      (∀ last, rows.getLast? = some last → (parseTaskRow last).isSome = true) ∧
      ∀ line ∈ after.takeWhile (fun line => (headingOf line).isNone),
        parseTaskRow line = none := by
  induction lines with
  | nil => exact ⟨[], [], rfl, nofun, nofun, nofun⟩
  | cons line lines ih =>
      cases hline : headingOf line with
      | some name =>
          refine ⟨[], line :: lines, rfl, nofun, nofun, ?_⟩
          rw [List.takeWhile_cons_of_neg (by simp [hline])]
          exact nofun
      | none =>
          obtain ⟨rows, after, rfl, hrows, hlast, hrest⟩ := ih
          by_cases hnil : rows = []
          · cases hparse : parseTaskRow line with
            | some note =>
                refine ⟨[line], after, by rw [hnil]; rfl, ?_, ?_, hrest⟩
                · intro l hl
                  rw [List.mem_singleton.mp hl]
                  exact hline
                · intro last hlast'
                  rw [← Option.some.inj hlast']
                  show (parseTaskRow line).isSome = true
                  rw [hparse]
                  rfl
            | none =>
                refine ⟨[], line :: after, by rw [hnil]; rfl, nofun, nofun, ?_⟩
                rw [List.takeWhile_cons_of_pos (by simp [hline])]
                intro l hl
                rcases List.mem_cons.mp hl with rfl | hl
                · exact hparse
                · exact hrest l hl
          · refine ⟨line :: rows, after, rfl, ?_, ?_, hrest⟩
            · intro l hl
              rcases List.mem_cons.mp hl with rfl | hl
              · exact hline
              · exact hrows l hl
            · intro last hlast'
              obtain ⟨first, others, rfl⟩ := List.exists_cons_of_ne_nil hnil
              rw [List.getLast?_cons_cons] at hlast'
              exact hlast last hlast'

/-- Where there is a heading of the column there is a place for a row. -/
theorem exists_section {lines : List Text} (h : ∃ line ∈ lines, headingOf line = some column) :
    ∃ before after, Section column lines before after := by
  induction lines with
  | nil =>
      obtain ⟨line, hline, -⟩ := h
      cases hline
  | cons line lines ih =>
      by_cases hline : headingOf line = some column
      · obtain ⟨rows, after, rfl, hrows, hlast, hrest⟩ := exists_rows lines
        exact ⟨line :: rows, after, rfl, ⟨[], line, rows, rfl, hline, nofun, hrows, hlast⟩, hrest⟩
      · have hlater : ∃ line ∈ lines, headingOf line = some column := by
          obtain ⟨l, hl, heq⟩ := h
          rcases List.mem_cons.mp hl with rfl | hl
          · exact absurd heq hline
          · exact ⟨l, hl, heq⟩
        obtain ⟨before, after, rfl, ⟨above, heading, rows, rfl, hheading, habove, hsection⟩, hrest⟩ :=
          ih hlater
        refine ⟨line :: (above ++ heading :: rows), after, rfl,
          ⟨line :: above, heading, rows, rfl, hheading, ?_, hsection⟩, hrest⟩
        intro l hl
        rcases List.mem_cons.mp hl with rfl | hl
        · exact hline
        · exact habove l hl

/-- Where there is none the scanner finds nothing. -/
theorem findColumnInsertIndex_eq_none {lines : List Text}
    (h : ∀ line ∈ lines, headingOf line ≠ some column) :
    Obsidian.findColumnInsertIndex lines column = none := by
  unfold Obsidian.findColumnInsertIndex
  have habove := findColumn_above h 0 []
  rw [List.append_nil] at habove
  rw [habove]
  rfl

/-- The scanner finds a place if and only if there is a section for it. -/
theorem findColumnInsertIndex_eq_some {lines : List Text} {k : Nat} :
    Obsidian.findColumnInsertIndex lines column = some k ↔
      ∃ before after, Section column lines before after ∧ before.length = k := by
  constructor
  · intro h
    by_cases hheading : ∃ line ∈ lines, headingOf line = some column
    · obtain ⟨before, after, hsection⟩ := exists_section hheading
      rw [hsection.findColumnInsertIndex] at h
      exact ⟨before, after, hsection, Option.some.inj h⟩
    · have hnone := findColumnInsertIndex_eq_none fun line hline heq =>
        hheading ⟨line, hline, heq⟩
      rw [hnone] at h
      cases h
  · rintro ⟨before, after, hsection, rfl⟩
    exact hsection.findColumnInsertIndex

/-- A line that is put in behind others. -/
theorem insertIdx_append {α : Type} (before after : List α) (a : α) :
    (before ++ after).insertIdx before.length a = before ++ a :: after := by
  induction before with
  | nil => rfl
  | cons b before ih =>
      rw [List.cons_append, List.length_cons, List.insertIdx_succ_cons, ih, List.cons_append]

-- ============================================================= its text

/-- The lines of the text that is written for them. -/
theorem splitlines_boardText {lines : List Text} (hne : lines ≠ [])
    (h : ∀ line ∈ lines, ∀ c ∈ line, Frozen.Prompt.isLineBreak c = false) :
    splitlines (Obsidian.boardText lines) = lines := by
  have hone : ∀ line : Text, (∀ c ∈ line, Frozen.Prompt.isLineBreak c = false) →
      splitlines (line ++ ['\n']) = [line] := by
    intro line hline
    have htake : Frozen.Prompt.takeLine (line ++ ['\n']) = line := by
      rw [Frozen.Prompt.takeLine_append]
      unfold Frozen.Prompt.takeLine
      exact List.takeWhile_eq_self_iff.mpr fun c hc => by simp [hline c hc]
    have hdrop : Frozen.Prompt.dropLine (line ++ ['\n']) = [] := by
      rcases Frozen.Prompt.eq_line_or (line ++ ['\n']) with ⟨-, hdrop⟩ | ⟨mark, hmark, heq⟩
      · exact hdrop
      · rw [htake, List.append_assoc] at heq
        have hmarks := List.append_cancel_left heq
        cases hmark with
        | one => 
            obtain ⟨-, hnil⟩ := List.cons.inj hmarks
            exact hnil.symm
        | two => cases hmarks
    rw [Frozen.Prompt.splitlines_eq (by simp), htake, hdrop]
    rfl
  unfold Obsidian.boardText
  induction lines with
  | nil => exact absurd rfl hne
  | cons line lines ih =>
      cases lines with
      | nil =>
          have hjoined : joined "\n" [line] = line := by simp [joined]
          rw [hjoined]
          exact hone line (h line (.head _))
      | cons next lines =>
          rw [Frozen.Prompt.joined_cons_cons, List.append_assoc, List.cons_append,
            Frozen.Prompt.splitlines_append, hone line (h line (.head _)),
            ih (by simp) fun l hl => h l (.tail _ hl)]
          rfl

end OpenTulid.Boards
