/-
Wildcard patterns for the paths of files, and the ignore files that hold them.

# Names and paths

A path is the list of its names. `NameMatches` says which names the pattern of
a name stands for, and `PathMatches` which paths a pattern of several parts
stands for, where `**` stands for directories.

# Patterns

`readPattern` reads a line of an ignore file as the documentation of the format
has it. Quoted characters, classes that are negated or named, stars that are
doubled within a name and empty names are not read.

# Regular expressions

`regexes` are the expressions that a list of parts is commonly written as. They
say what the parts say as long as directories stand at the end only
(`slashed_mem_iff`); every part takes a name of its own (`length_le`).

# Ignored paths

`Ignored` says what layers of patterns ignore: the last pattern that matches
decides, where the deeper layer comes later, and nothing below an ignored
directory can be included again.
-/
import OpenTulid.Lib.Regex

namespace Glob

open Regex (inRanges rangesOf)

-- ===================================================================== names

/-- What the pattern of a name is made of. -/
inductive Item where
  | star
  | any
  | lit (c : Char)
  | set (ranges : List (Char × Char))
  deriving DecidableEq

/-- The characters that an item stands for one at a time. -/
def Item.takes : Item → Char → Bool
  | star, _ => false
  | any, _ => true
  | lit d, c => c = d
  | set ranges, c => inRanges ranges c

/-- The names that the pattern of a name stands for. -/
inductive NameMatches : List Item → List Char → Prop where
  | nil : NameMatches [] []
  | skip {items : List Item} {name : List Char} :
      NameMatches items name → NameMatches (.star :: items) name
  | star {items : List Item} {c : Char} {name : List Char} :
      NameMatches (.star :: items) name → NameMatches (.star :: items) (c :: name)
  | one {item : Item} {items : List Item} {c : Char} {name : List Char} :
      item.takes c = true → NameMatches items name → NameMatches (item :: items) (c :: name)

-- ===================================================================== paths

/-- What the pattern of a path is made of. -/
inductive Part where
  | dirs
  | name (items : List Item)
  deriving DecidableEq

/-- The paths that a pattern stands for. -/
inductive PathMatches : List Part → List (List Char) → Prop where
  | nil : PathMatches [] []
  | name {items : List Item} {parts : List Part} {name : List Char} {path : List (List Char)} :
      NameMatches items name → PathMatches parts path →
        PathMatches (.name items :: parts) (name :: path)
  /-- no directory at all, before something -/
  | skip {part : Part} {parts : List Part} {path : List (List Char)} :
      PathMatches (part :: parts) path → PathMatches (.dirs :: part :: parts) path
  | dirs {parts : List Part} {name : List Char} {path : List (List Char)} :
      PathMatches (.dirs :: parts) path → PathMatches (.dirs :: parts) (name :: path)
  /-- everything inside, at the end -/
  | inside {name : List Char} : PathMatches [.dirs] [name]

/-- A name of a file: no line break, so that a listing can hold it. -/
def IsName (name : List Char) : Prop := name ≠ [] ∧ '/' ∉ name ∧ '\n' ∉ name

def IsPath (path : List (List Char)) : Prop := path ≠ [] ∧ ∀ name ∈ path, IsName name

/-- The text of a path. -/
def slashed (path : List (List Char)) : List Char := ['/'].intercalate path

-- ================================================================== patterns

/-- A pattern of an ignore file. -/
structure Pattern where
  negated : Bool
  dirOnly : Bool
  /-- it begins with a slash -/
  rooted : Bool
  parts : List Part
  deriving DecidableEq

namespace Pattern

/-- A slash at the beginning or in the middle makes a pattern relative to the
directory of its file. -/
def relative (p : Pattern) : Bool := p.rooted || 1 < p.parts.length

/-- The paths below the directory of its file that a pattern stands for. -/
def Matches (p : Pattern) (path : List (List Char)) (isDir : Bool) : Prop :=
  (p.dirOnly = true → isDir = true) ∧
    PathMatches (if p.relative then p.parts else .dirs :: p.parts) path

end Pattern

/-- The set that stands between brackets. -/
def readSet (content : List Char) : Option Item :=
  if content = [] ∨ '\\' ∈ content ∨ '[' ∈ content ∨ content.head? = some '!' ∨
      content.head? = some '^' then none
  else match rangesOf content with
    | some ranges => if inRanges ranges '/' then none else some (.set ranges)
    | none => none

/-- The items of a name; the first argument holds what of a set was read. -/
def readItems : Option (List Char) → List Char → Option (List Item)
  | none, [] => some []
  | none, c :: rest =>
      if c = '*' then
        if rest.head? = some '*' then none else (readItems none rest).map (.star :: ·)
      else if c = '?' then (readItems none rest).map (.any :: ·)
      else if c = '[' then readItems (some []) rest
      else if c = '\\' then none
      else (readItems none rest).map (.lit c :: ·)
  | some _, [] => none
  | some content, c :: rest =>
      if c = ']' then (readSet content).bind fun item => (readItems none rest).map (item :: ·)
      else readItems (some (content ++ [c])) rest

def readPart (text : List Char) : Option Part :=
  if text = ['*', '*'] then some .dirs
  else if text = [] then none
  else (readItems none text).map .name

/-- The pattern of a line; comments and blank lines are no patterns. -/
def readPattern (line : List Char) : Option Pattern :=
  let negated := line.head? = some '!'
  let body := if negated then line.tail else line
  let dirOnly := body.getLast? = some '/'
  let body := if dirOnly then body.dropLast else body
  let rooted := body.head? = some '/'
  let body := if rooted then body.tail else body
  ((body.splitOn '/').mapM readPart).map fun parts =>
    { negated := negated, dirOnly := dirOnly, rooted := rooted, parts := parts }

-- ======================================================= regular expressions

namespace Item

/-- The expression of an item: only the slash is never taken for another character. -/
def regex : Item → Regex
  | star => .star (.set (.without '/'))
  | any => .set (.without '/')
  | lit c => .set (.single c)
  | set ranges => .set { ranges := ranges }

/-- An item that a name can be made of. -/
structure Proper (item : Item) : Prop where
  slash : item ≠ .any → item.takes '/' = false
  stands : item ≠ .star → ∃ c, item.takes c = true ∧ c ≠ '/' ∧ c ≠ '\n'

end Item

namespace Part

def regexes : Part → List Regex
  | dirs => [.star (.set (.without '\n'))]
  | name items => items.map Item.regex

/-- A part that stands for a name, or for directories. -/
inductive Proper : Part → Prop where
  | dirs : Proper .dirs
  | name {items : List Item} : items ≠ [] → (∀ item ∈ items, item.Proper) → Proper (.name items)

end Part

/-- The expressions of parts, with slashes between them. -/
def regexes : List Part → List Regex
  | [] => []
  | [part] => part.regexes
  | part :: next :: parts => part.regexes ++ .set (.single '/') :: regexes (next :: parts)

/-- What may stand before a pattern: any directories. -/
def anywhere : Regex :=
  .alt (.seqAll [.star (.set (.without '\n')), .set (.single '/')]) .empty

variable {items : List Item} {item : Item} {parts : List Part} {part next : Part}
  {name text before after : List Char} {path dir below : List (List Char)}

-- --------------------------------------------------------------------- names

/-- An item that is no star takes one character. -/
theorem mem_regex_one (hproper : item.Proper) (hstar : item ≠ .star) :
    text ∈ item.regex.language ↔ ∃ c, item.takes c = true ∧ c ≠ '/' ∧ text = [c] := by
  have hslash := hproper.slash
  cases item with
  | star => exact absurd rfl hstar
  | any => simp [Item.regex, Item.takes]
  | lit d =>
      have hd : d ≠ '/' := by
        have hno := hslash (by simp)
        intro heq
        simp [Item.takes, heq] at hno
      constructor
      · rintro ⟨c, hc, rfl⟩
        rw [Regex.CharSet.has_single] at hc
        exact ⟨c, by simp [Item.takes, hc], hc ▸ hd, rfl⟩
      · rintro ⟨c, hc, -, rfl⟩
        have hcd : c = d := by simpa [Item.takes] using hc.symm
        exact ⟨c, Regex.CharSet.has_single.mpr hcd, rfl⟩
  | set ranges =>
      have hno := hslash (by simp)
      have hhas : ∀ c, Regex.CharSet.has { ranges := ranges } c = (Item.set ranges).takes c := by
        intro c
        simp [Regex.CharSet.has, Item.takes]
      constructor
      · rintro ⟨c, hc, rfl⟩
        rw [hhas] at hc
        refine ⟨c, hc, ?_, rfl⟩
        rintro rfl
        rw [hno] at hc
        cases hc
      · rintro ⟨c, hc, -, rfl⟩
        exact ⟨c, (hhas c).trans hc, rfl⟩

theorem nameMatches_star :
    NameMatches (.star :: items) name ↔ ∃ a b, name = a ++ b ∧ NameMatches items b := by
  constructor
  · intro h
    generalize hstar : Item.star :: items = all at h
    induction h with
    | nil => cases hstar
    | skip h _ =>
        cases hstar
        exact ⟨[], _, rfl, h⟩
    | @star _ c name _ ih =>
        cases hstar
        obtain ⟨a, b, rfl, hb⟩ := ih rfl
        exact ⟨c :: a, b, rfl, hb⟩
    | one htakes _ _ =>
        cases hstar
        cases htakes
  · rintro ⟨a, b, rfl, hb⟩
    induction a with
    | nil => exact .skip hb
    | cons c a ih => exact .star ih

theorem nameMatches_one (hstar : item ≠ .star) :
    NameMatches (item :: items) name ↔
      ∃ c rest, name = c :: rest ∧ item.takes c = true ∧ NameMatches items rest := by
  constructor
  · intro h
    cases h with
    | skip => exact absurd rfl hstar
    | star => exact absurd rfl hstar
    | one htakes h => exact ⟨_, _, rfl, htakes, h⟩
  · rintro ⟨c, rest, rfl, htakes, h⟩
    exact .one htakes h

/-- The expressions of a name take the names that its pattern stands for. -/
theorem mem_items (hproper : ∀ item ∈ items, item.Proper) :
    text ∈ (Regex.seqAll (items.map Item.regex)).language ↔ '/' ∉ text ∧ NameMatches items text := by
  induction items generalizing text with
  | nil =>
      constructor
      · intro h
        rw [Regex.mem_seqAll_nil.mp h]
        exact ⟨by simp, .nil⟩
      · intro h
        cases h.2
        exact rfl
  | cons item items ih =>
      have hitem := hproper item List.mem_cons_self
      have ih := fun text => @ih text fun i hi => hproper i (List.mem_cons_of_mem _ hi)
      rw [List.map_cons, Regex.mem_seqAll_cons]
      by_cases hstar : item = .star
      · rw [hstar, nameMatches_star]
        constructor
        · rintro ⟨a, ha, b, hb, rfl⟩
          obtain ⟨hslash, hmatch⟩ := (ih b).mp hb
          rw [Item.regex, Regex.mem_star_set] at ha
          refine ⟨?_, a, b, rfl, hmatch⟩
          rw [List.mem_append]
          rintro (hin | hin)
          · exact absurd rfl (Regex.CharSet.has_without.mp (ha _ hin))
          · exact hslash hin
        · rintro ⟨hslash, a, b, rfl, hmatch⟩
          rw [List.mem_append, not_or] at hslash
          refine ⟨a, ?_, b, (ih b).mpr ⟨hslash.2, hmatch⟩, rfl⟩
          rw [Item.regex, Regex.mem_star_set]
          intro c hc
          rw [Regex.CharSet.has_without]
          rintro rfl
          exact hslash.1 hc
      · rw [nameMatches_one hstar]
        constructor
        · rintro ⟨a, ha, b, hb, rfl⟩
          obtain ⟨c, htakes, hc, rfl⟩ := (mem_regex_one hitem hstar).mp ha
          obtain ⟨hslash, hmatch⟩ := (ih b).mp hb
          exact ⟨by simp [hslash, Ne.symm hc], c, b, rfl, htakes, hmatch⟩
        · rintro ⟨hslash, c, b, rfl, htakes, hmatch⟩
          rw [List.mem_cons, not_or] at hslash
          exact ⟨[c], (mem_regex_one hitem hstar).mpr ⟨c, htakes, Ne.symm hslash.1, rfl⟩, b,
            (ih b).mpr ⟨hslash.2, hmatch⟩, rfl⟩

/-- There is a name that a pattern stands for. -/
theorem exists_name (hne : items ≠ []) (hproper : ∀ item ∈ items, item.Proper) :
    ∃ name, IsName name ∧ NameMatches items name := by
  have hall : ∃ name, (items ≠ [] → name ≠ []) ∧ ('/' ∉ name ∧ '\n' ∉ name) ∧
      NameMatches items name := by
    clear hne
    induction items with
    | nil => exact ⟨[], by simp, by simp, .nil⟩
    | cons item items ih =>
        obtain ⟨name, -, ⟨hslash, hbreak⟩, hmatch⟩ :=
          ih fun i hi => hproper i (List.mem_cons_of_mem _ hi)
        by_cases hstar : item = .star
        · rw [hstar]
          exact ⟨'x' :: name, by simp, by simp [hslash, hbreak], .star (.skip hmatch)⟩
        · obtain ⟨c, htakes, hc, hc'⟩ := (hproper item List.mem_cons_self).stands hstar
          exact ⟨c :: name, by simp, by simp [hslash, hbreak, Ne.symm hc, Ne.symm hc'],
            .one htakes hmatch⟩
  obtain ⟨name, hname, hclean, hmatch⟩ := hall
  exact ⟨name, ⟨hname hne, hclean.1, hclean.2⟩, hmatch⟩

-- ------------------------------------------------------------- texts of paths

@[simp] theorem slashed_single : slashed [name] = name := List.intercalate_singleton

theorem slashed_cons (hne : path ≠ []) : slashed (name :: path) = name ++ '/' :: slashed path := by
  cases path with
  | nil => exact absurd rfl hne
  | cons next path =>
      unfold slashed
      rw [List.intercalate_cons_cons]
      simp

theorem slashed_append (hdir : dir ≠ []) (hbelow : below ≠ []) :
    slashed (dir ++ below) = slashed dir ++ '/' :: slashed below := by
  induction dir with
  | nil => exact absurd rfl hdir
  | cons name dir ih =>
      by_cases hlast : dir = []
      · rw [hlast, List.singleton_append, slashed_cons hbelow, slashed_single]
      · rw [List.cons_append, slashed_cons (by simp [hlast]), slashed_cons hlast, ih hlast]
        simp

/-- A path is cut at a slash. -/
theorem slashed_cut (hpath : ∀ name ∈ path, '/' ∉ name) (h : slashed path = before ++ '/' :: after) :
    ∃ dir below, path = dir ++ below ∧ dir ≠ [] ∧ below ≠ [] ∧
      before = slashed dir ∧ after = slashed below := by
  induction path generalizing before with
  | nil => cases before <;> cases h
  | cons name path ih =>
      have hname := hpath name List.mem_cons_self
      by_cases hlast : path = []
      · rw [hlast, slashed_single] at h
        rw [h] at hname
        simp at hname
      · rw [slashed_cons hlast] at h
        rcases List.append_eq_append_iff.mp h with ⟨mid, hbefore, hrest⟩ | ⟨mid, hname', hrest⟩
        · cases mid with
          | nil =>
              have hafter : slashed path = after := (List.cons.inj hrest).2
              exact ⟨[name], path, rfl, by simp, hlast, by simpa using hbefore, hafter.symm⟩
          | cons c mid =>
              rw [List.cons_append] at hrest
              obtain ⟨rfl, hcut⟩ := List.cons.inj hrest
              obtain ⟨dir, below, rfl, hdir, hbelow, rfl, rfl⟩ :=
                ih (fun n hn => hpath n (List.mem_cons_of_mem _ hn)) hcut
              exact ⟨name :: dir, below, rfl, by simp, hbelow,
                by rw [slashed_cons hdir, hbefore], rfl⟩
        · cases mid with
          | nil =>
              have hafter : after = slashed path := (List.cons.inj hrest).2
              exact ⟨[name], path, rfl, by simp, hlast, by simpa using hname'.symm, hafter⟩
          | cons c mid =>
              rw [List.cons_append] at hrest
              obtain ⟨rfl, -⟩ := List.cons.inj hrest
              rw [hname'] at hname
              simp at hname

/-- A path has one slash less than names. -/
theorem count_slashed (hne : path ≠ []) (hpath : ∀ name ∈ path, '/' ∉ name) :
    (slashed path).count '/' + 1 = path.length := by
  induction path with
  | nil => exact absurd rfl hne
  | cons name path ih =>
      have hname : name.count '/' = 0 := List.count_eq_zero.mpr (hpath name List.mem_cons_self)
      by_cases hlast : path = []
      · rw [hlast, slashed_single, hname]
        rfl
      · have hrest := ih hlast fun n hn => hpath n (List.mem_cons_of_mem _ hn)
        rw [slashed_cons hlast, List.count_append, hname, List.count_cons_self, Nat.zero_add, hrest,
          List.length_cons]

theorem mem_slashed {c : Char} (hname : name ∈ path) (hc : c ∈ name) : c ∈ slashed path := by
  induction path with
  | nil => cases hname
  | cons first path ih =>
      by_cases hlast : path = []
      · rw [hlast] at hname ⊢
        rw [slashed_single, ← List.mem_singleton.mp hname]
        exact hc
      · rw [slashed_cons hlast, List.mem_append, List.mem_cons]
        rcases List.mem_cons.mp hname with hfirst | hlater
        · rw [← hfirst]
          exact .inl hc
        · exact .inr (.inr (ih hlater))

theorem break_notMem_slashed (hpath : ∀ name ∈ path, '\n' ∉ name) : '\n' ∉ slashed path := by
  induction path with
  | nil => simp [slashed]
  | cons name path ih =>
      have hname := hpath name List.mem_cons_self
      by_cases hlast : path = []
      · rw [hlast, slashed_single]
        exact hname
      · have hrest := ih fun n hn => hpath n (List.mem_cons_of_mem _ hn)
        rw [slashed_cons hlast]
        simp [hname, hrest]

theorem IsPath.slashless (h : IsPath path) : ∀ name ∈ path, '/' ∉ name :=
  fun name hname => (h.2 name hname).2.1

theorem IsPath.breakless (h : IsPath path) : ∀ name ∈ path, '\n' ∉ name :=
  fun name hname => (h.2 name hname).2.2

theorem IsPath.tail (h : IsPath (name :: path)) (hne : path ≠ []) : IsPath path :=
  ⟨hne, fun n hn => h.2 n (List.mem_cons_of_mem _ hn)⟩

theorem IsPath.rest (h : IsPath (dir ++ below)) (hne : below ≠ []) : IsPath below :=
  ⟨hne, fun n hn => h.2 n (List.mem_append_right _ hn)⟩

-- --------------------------------------------------------------------- paths

theorem mem_slash {rs rs' : List Regex} :
    text ∈ (Regex.seqAll (rs ++ .set (.single '/') :: rs')).language ↔
      ∃ a ∈ (Regex.seqAll rs).language, ∃ b ∈ (Regex.seqAll rs').language, text = a ++ '/' :: b := by
  rw [Regex.mem_seqAll_append]
  constructor
  · rintro ⟨a, ha, rest, hrest, rfl⟩
    obtain ⟨one, ⟨c, hc, rfl⟩, b, hb, rfl⟩ := Regex.mem_seqAll_cons.mp hrest
    rw [Regex.CharSet.has_single] at hc
    rw [hc]
    exact ⟨a, ha, b, hb, rfl⟩
  · rintro ⟨a, ha, b, hb, rfl⟩
    have hslash : ['/'] ∈ (Regex.set (.single '/')).language :=
      ⟨'/', Regex.CharSet.has_single.mpr rfl, rfl⟩
    exact ⟨a, ha, '/' :: b, Regex.mem_seqAll_cons.mpr ⟨['/'], hslash, b, hb, rfl⟩, rfl⟩

theorem mem_slash_end {r : Regex} :
    text ∈ (Regex.seqAll [r, .set (.single '/')]).language ↔
      ∃ a ∈ (Regex.seqAll [r]).language, text = a ++ ['/'] := by
  have hsplit : [r, .set (.single '/')] = [r] ++ Regex.set (.single '/') :: [] := rfl
  rw [hsplit, mem_slash]
  constructor
  · rintro ⟨a, ha, b, hb, htext⟩
    rw [Regex.mem_seqAll_nil.mp hb] at htext
    exact ⟨a, ha, htext⟩
  · rintro ⟨a, ha, htext⟩
    exact ⟨a, ha, [], rfl, htext⟩

/-- Before the expressions of a pattern, any directories may stand. -/
theorem mem_anywhere {rs : List Regex} (hpath : IsPath path) :
    slashed path ∈ (Regex.seqAll (anywhere :: rs)).language ↔
      ∃ dir below, path = dir ++ below ∧ below ≠ [] ∧
        slashed below ∈ (Regex.seqAll rs).language := by
  rw [Regex.mem_seqAll_cons]
  constructor
  · rintro ⟨lead, hlead, rest, hrest, htext⟩
    rcases Regex.mem_alt.mp hlead with hdirs | hnone
    · obtain ⟨a, -, hab⟩ := mem_slash_end.mp hdirs
      rw [hab, List.append_assoc] at htext
      obtain ⟨dir, below, hcut, -, hbelow, -, rfl⟩ := slashed_cut hpath.slashless htext.symm
      exact ⟨dir, below, hcut, hbelow, hrest⟩
    · rw [Regex.mem_empty.mp hnone, List.nil_append] at htext
      rw [htext] at hrest
      exact ⟨[], path, rfl, hpath.1, hrest⟩
  · rintro ⟨dir, below, rfl, hbelow, hrest⟩
    by_cases hdir : dir = []
    · rw [hdir]
      exact ⟨[], Regex.mem_alt.mpr (.inr rfl), _, hrest, rfl⟩
    · have hbreak : '\n' ∉ slashed dir :=
        break_notMem_slashed fun n hn => hpath.breakless n (List.mem_append_left _ hn)
      have hlead : slashed dir ++ ['/'] ∈ anywhere.language := by
        have hdirs : slashed dir ∈ (Regex.seqAll [.star (.set (.without '\n'))]).language := by
          refine Regex.mem_seqAll_cons.mpr ⟨slashed dir, ?_, [], rfl, List.append_nil _⟩
          rw [Regex.mem_star_set]
          intro c hc
          rw [Regex.CharSet.has_without]
          rintro rfl
          exact hbreak hc
        exact Regex.mem_alt.mpr (.inl (mem_slash_end.mpr ⟨_, hdirs, rfl⟩))
      refine ⟨_, hlead, _, hrest, ?_⟩
      rw [slashed_append hdir hbelow, List.append_assoc]
      rfl

theorem regexes_cons (hne : parts ≠ []) :
    regexes (part :: parts) = part.regexes ++ .set (.single '/') :: regexes parts := by
  cases parts with
  | nil => exact absurd rfl hne
  | cons next parts => rfl

/-- Every part takes a name of its own. -/
theorem length_le (h : text ∈ (Regex.seqAll (regexes parts)).language) :
    parts.length ≤ text.count '/' + 1 := by
  induction parts generalizing text with
  | nil => exact Nat.zero_le _
  | cons part parts ih =>
      by_cases hlast : parts = []
      · rw [hlast]
        exact Nat.succ_le_succ (Nat.zero_le _)
      · rw [regexes_cons hlast] at h
        obtain ⟨a, -, b, hb, rfl⟩ := mem_slash.mp h
        have hrest := ih hb
        rw [List.count_append, List.count_cons_self, List.length_cons]
        omega

theorem pathMatches_name :
    PathMatches (.name items :: parts) path ↔
      ∃ name rest, path = name :: rest ∧ NameMatches items name ∧ PathMatches parts rest := by
  constructor
  · intro h
    cases h with
    | name hname hrest => exact ⟨_, _, rfl, hname, hrest⟩
  · rintro ⟨name, rest, rfl, hname, hrest⟩
    exact .name hname hrest

/-- At the end, directories stand for whatever is inside. -/
theorem pathMatches_inside : PathMatches [.dirs] path ↔ path ≠ [] := by
  constructor
  · intro h
    cases h with
    | dirs => simp
    | inside => simp
  · intro hne
    induction path with
    | nil => exact absurd rfl hne
    | cons name path ih =>
        by_cases hlast : path = []
        · rw [hlast]
          exact .inside
        · exact .dirs (ih hlast)

/-- Elsewhere, they stand for any directories. -/
theorem pathMatches_dirs (hne : parts ≠ []) :
    PathMatches (.dirs :: parts) path ↔ ∃ dir below, path = dir ++ below ∧ PathMatches parts below := by
  constructor
  · intro h
    generalize hall : Part.dirs :: parts = all at h
    induction h with
    | nil => cases hall
    | name => cases hall
    | skip h _ =>
        cases hall
        exact ⟨[], _, rfl, h⟩
    | @dirs _ name path _ ih =>
        cases hall
        obtain ⟨dir, below, rfl, hbelow⟩ := ih rfl
        exact ⟨name :: dir, below, rfl, hbelow⟩
    | inside =>
        cases hall
        exact absurd rfl hne
  · rintro ⟨dir, below, rfl, hbelow⟩
    induction dir with
    | nil =>
        cases parts with
        | nil => exact absurd rfl hne
        | cons part parts => exact .skip hbelow
    | cons name dir ih => exact .dirs ih

theorem single_of_slashless (hne : path ≠ []) (hnames : ∀ n ∈ path, '/' ∉ n)
    (hslash : '/' ∉ slashed path) : ∃ name, path = [name] := by
  have hcount := count_slashed hne hnames
  rw [List.count_eq_zero.mpr hslash, Nat.zero_add] at hcount
  exact List.length_eq_one_iff.mp hcount.symm

/-- With directories at the end only, the expressions take the paths that the
parts stand for. -/
theorem slashed_mem_iff (hne : parts ≠ []) (hproper : ∀ part ∈ parts, part.Proper)
    (hdirs : Part.dirs ∉ parts.dropLast) (hpath : IsPath path) :
    slashed path ∈ (Regex.seqAll (regexes parts)).language ↔ PathMatches parts path := by
  induction parts generalizing path with
  | nil => exact absurd rfl hne
  | cons part parts ih =>
      have hpart := hproper part List.mem_cons_self
      by_cases hlast : parts = []
      · rw [hlast, regexes]
        cases hpart with
        | dirs =>
            have htext : slashed path ∈ (Regex.seqAll Part.dirs.regexes).language := by
              refine Regex.mem_seqAll_cons.mpr ⟨_, ?_, [], rfl, List.append_nil _⟩
              rw [Regex.mem_star_set]
              intro c hc
              rw [Regex.CharSet.has_without]
              rintro rfl
              exact break_notMem_slashed hpath.breakless hc
            exact iff_of_true htext (pathMatches_inside.mpr hpath.1)
        | name _ hitems =>
            rw [Part.regexes, mem_items hitems, pathMatches_name]
            constructor
            · rintro ⟨hslash, hmatch⟩
              obtain ⟨name, rfl⟩ := single_of_slashless hpath.1 hpath.slashless hslash
              rw [slashed_single] at hmatch
              exact ⟨name, [], rfl, hmatch, .nil⟩
            · rintro ⟨name, rest, rfl, hmatch, hrest⟩
              cases hrest
              rw [slashed_single]
              exact ⟨hpath.slashless name List.mem_cons_self, hmatch⟩
      · rw [List.dropLast_cons_of_ne_nil hlast, List.mem_cons, not_or] at hdirs
        have ih := fun path => @ih path hlast (fun p hp => hproper p (List.mem_cons_of_mem _ hp))
          hdirs.2
        rw [regexes_cons hlast, mem_slash]
        cases hpart with
        | dirs => exact absurd rfl hdirs.1
        | name _ hitems =>
            rw [pathMatches_name]
            constructor
            · rintro ⟨a, ha, b, hb, htext⟩
              obtain ⟨hslash, hmatch⟩ := (mem_items hitems).mp ha
              obtain ⟨dir, below, rfl, hdir, hbelow, rfl, rfl⟩ :=
                slashed_cut hpath.slashless htext
              -- the first part takes one name: it takes no slash
              obtain ⟨name, rfl⟩ := single_of_slashless hdir
                (fun n hn => hpath.slashless n (List.mem_append_left _ hn)) hslash
              rw [slashed_single] at hmatch
              exact ⟨name, below, rfl, hmatch, (ih below (hpath.rest hbelow)).mp hb⟩
            · rintro ⟨name, rest, rfl, hmatch, hrest⟩
              have hsome : rest ≠ [] := by
                rintro rfl
                cases parts with
                | nil => exact hlast rfl
                | cons part parts =>
                    cases hrest with
                    | skip hrest =>
                        refine hdirs.2 ?_
                        rw [List.dropLast_cons_of_ne_nil (by simp)]
                        exact List.mem_cons_self
              refine ⟨name, ?_, _, (ih rest (hpath.tail hsome)).mpr hrest, slashed_cons hsome⟩
              exact (mem_items hitems).mpr ⟨hpath.slashless name List.mem_cons_self, hmatch⟩

/-- There is a path that parts stand for, with no directories where none are needed. -/
theorem exists_path (hne : parts ≠ []) (hproper : ∀ part ∈ parts, part.Proper) :
    ∃ path, IsPath path ∧ PathMatches parts path ∧ path.length ≤ parts.length ∧
      (Part.dirs ∈ parts.dropLast → path.length < parts.length) := by
  induction parts with
  | nil => exact absurd rfl hne
  | cons part parts ih =>
      have hpart := hproper part List.mem_cons_self
      have hx : IsName ['x'] := ⟨by simp, by simp, by simp⟩
      by_cases hlast : parts = []
      · rw [hlast]
        cases hpart with
        | dirs => exact ⟨[['x']], ⟨by simp, by simpa using hx⟩, .inside, Nat.le_refl _, by simp⟩
        | name hitems hitem =>
            obtain ⟨name, hname, hmatch⟩ := exists_name hitems hitem
            exact ⟨[name], ⟨by simp, by simpa using hname⟩, .name hmatch .nil, Nat.le_refl _, by simp⟩
      · obtain ⟨path, hpath, hmatch, hlen, hshort⟩ :=
          ih hlast fun p hp => hproper p (List.mem_cons_of_mem _ hp)
        rw [List.dropLast_cons_of_ne_nil hlast]
        cases hpart with
        | dirs =>
            refine ⟨path, hpath, (pathMatches_dirs hlast).mpr ⟨[], path, rfl, hmatch⟩, ?_, ?_⟩
            · exact Nat.le_succ_of_le hlen
            · intro _
              exact Nat.lt_succ_of_le hlen
        | name hitems hitem =>
            obtain ⟨name, hname, hfirst⟩ := exists_name hitems hitem
            refine ⟨name :: path, ⟨by simp, ?_⟩, .name hfirst hmatch, Nat.succ_le_succ hlen, ?_⟩
            · intro n hn
              rcases List.mem_cons.mp hn with rfl | hn'
              · exact hname
              · exact hpath.2 n hn'
            · intro hdirs
              refine Nat.succ_lt_succ (hshort ?_)
              simpa using hdirs

/-- What parts take from the beginning is what they stand for when directories
stand at the end only. -/
theorem rooted_iff (hne : parts ≠ []) (hproper : ∀ part ∈ parts, part.Proper) :
    (∀ path, IsPath path →
      (slashed path ∈ (Regex.seqAll (regexes parts)).language ↔ PathMatches parts path)) ↔
      Part.dirs ∉ parts.dropLast := by
  constructor
  · intro hall hdirs
    obtain ⟨path, hpath, hmatch, -, hshort⟩ := exists_path hne hproper
    have hlen := length_le ((hall path hpath).mpr hmatch)
    rw [count_slashed hpath.1 hpath.slashless] at hlen
    exact absurd (hshort hdirs) (Nat.not_lt.mpr hlen)
  · intro hdirs path hpath
    exact slashed_mem_iff hne hproper hdirs hpath

/-- A pattern that every name matches. -/
def Universal (items : List Item) : Prop := ∀ name, IsName name → NameMatches items name

/-- Names, and what is inside. -/
theorem pathMatches_names {names : List (List Item)} :
    PathMatches (names.map .name ++ [.dirs]) path ↔
      ∃ first rest, path = first ++ rest ∧ rest ≠ [] ∧ List.Forall₂ NameMatches names first := by
  induction names generalizing path with
  | nil =>
      show PathMatches [.dirs] path ↔ _
      rw [pathMatches_inside]
      constructor
      · intro hne
        exact ⟨[], path, rfl, hne, .nil⟩
      · rintro ⟨first, rest, rfl, hrest, hnames⟩
        simp [hrest]
  | cons items names ih =>
      rw [List.map_cons, List.cons_append, pathMatches_name]
      constructor
      · rintro ⟨name, path, rfl, hname, hrest⟩
        obtain ⟨first, rest, rfl, hne, hnames⟩ := ih.mp hrest
        exact ⟨name :: first, rest, rfl, hne, .cons hname hnames⟩
      · rintro ⟨first, rest, rfl, hne, hnames⟩
        cases hnames with
        | cons hname hnames => exact ⟨_, _, rfl, hname, ih.mpr ⟨_, _, rfl, hne, hnames⟩⟩

/-- Parts that end with directories, none standing before. -/
theorem exists_names (hdirs : Part.dirs ∉ parts.dropLast) (hlast : parts.getLast? = some .dirs) :
    ∃ names : List (List Item), parts = names.map .name ++ [.dirs] := by
  obtain ⟨front, rfl⟩ := List.getLast?_eq_some_iff.mp hlast
  rw [List.dropLast_concat] at hdirs
  have hfront : ∃ names : List (List Item), front = names.map .name := by
    clear hlast
    induction front with
    | nil => exact ⟨[], rfl⟩
    | cons part front ih =>
        rw [List.mem_cons, not_or] at hdirs
        obtain ⟨names, rfl⟩ := ih hdirs.2
        cases part with
        | dirs => exact absurd rfl hdirs.1
        | name items => exact ⟨items :: names, rfl⟩
  obtain ⟨names, rfl⟩ := hfront
  exact ⟨names, rfl⟩

/-- Without directories, a pattern takes as many names as it has. -/
theorem length_eq (hdirs : Part.dirs ∉ parts) (h : PathMatches parts path) :
    path.length = parts.length := by
  induction h with
  | nil => rfl
  | name _ _ ih =>
      rw [List.mem_cons, not_or] at hdirs
      rw [List.length_cons, ih hdirs.2, List.length_cons]
  | skip => exact absurd List.mem_cons_self hdirs
  | dirs => exact absurd List.mem_cons_self hdirs
  | inside => exact absurd List.mem_cons_self hdirs

theorem pathMatches_universal {names : List (List Item)} (hall : ∀ items ∈ names, Universal items)
    (hpath : IsPath path) :
    PathMatches (names.map .name ++ [.dirs]) path ↔ names.length < path.length := by
  rw [pathMatches_names]
  constructor
  · rintro ⟨first, rest, rfl, hne, hnames⟩
    have hrest := List.length_pos_iff.mpr hne
    rw [hnames.length_eq, List.length_append]
    omega
  · intro hlt
    refine ⟨path.take names.length, path.drop names.length, (List.take_append_drop _ _).symm, ?_, ?_⟩
    · rw [← List.length_pos_iff, List.length_drop]
      omega
    · refine List.forall₂_iff_get.mpr ⟨by simp; omega, fun i hi hi' => ?_⟩
      refine hall _ (List.get_mem _ _) _ (hpath.2 _ ?_)
      exact List.mem_of_mem_take (List.get_mem _ _)

/-- What parts take anywhere is what they stand for when they are names that
every name matches, with directories at the end. -/
theorem spread_iff (hne : parts ≠ []) (hproper : ∀ part ∈ parts, part.Proper) :
    (∀ path, IsPath path →
      (slashed path ∈ (Regex.seqAll (anywhere :: regexes parts)).language ↔
        PathMatches parts path)) ↔
      ∃ names : List (List Item), parts = names.map .name ++ [.dirs] ∧
        ∀ items ∈ names, Universal items := by
  constructor
  · intro hall
    obtain ⟨path, hpath, hmatch, -, hshort⟩ := exists_path hne hproper
    have hdirs : Part.dirs ∉ parts.dropLast := by
      intro hdirs
      obtain ⟨dir, below, hcut, hbelow, hmem⟩ := (mem_anywhere hpath).mp ((hall path hpath).mpr hmatch)
      have hlen := length_le hmem
      rw [hcut] at hpath
      rw [count_slashed hbelow (hpath.rest hbelow).slashless] at hlen
      have hlt := hshort hdirs
      rw [hcut, List.length_append] at hlt
      omega
    -- below other directories, the expressions still take the path
    have hlower : ∀ dir, (∀ n ∈ dir, IsName n) → PathMatches parts (dir ++ path) := by
      intro dir hdir
      have hlong : IsPath (dir ++ path) := by
        refine ⟨by simp [hpath.1], fun n hn => ?_⟩
        rcases List.mem_append.mp hn with hn' | hn'
        · exact hdir n hn'
        · exact hpath.2 n hn'
      refine (hall _ hlong).mp ((mem_anywhere hlong).mpr ⟨dir, path, rfl, hpath.1, ?_⟩)
      exact (slashed_mem_iff hne hproper hdirs hpath).mpr hmatch
    have hlast : parts.getLast? = some .dirs := by
      have hx : ∀ n ∈ [['x']], IsName n := by
        intro n hn
        rw [List.mem_singleton.mp hn]
        exact ⟨by simp, by simp, by simp⟩
      by_contra hother
      have hnone : Part.dirs ∉ parts := by
        intro hin
        rw [← List.dropLast_append_getLast hne, List.mem_append, List.mem_singleton] at hin
        rcases hin with hin | hin
        · exact hdirs hin
        · exact hother (by rw [List.getLast?_eq_some_getLast hne, hin])
      have hlen := length_eq hnone hmatch
      have hlen' := length_eq hnone (hlower _ hx)
      simp [hlen] at hlen'
    obtain ⟨names, rfl⟩ := exists_names hdirs hlast
    refine ⟨names, rfl, fun items hitems name hname => ?_⟩
    have hsame := hlower (List.replicate names.length name) fun n hn => by
      rw [List.eq_of_mem_replicate hn]
      exact hname
    obtain ⟨first, rest, hcut, -, hnames⟩ := pathMatches_names.mp hsame
    have hfirst : List.replicate names.length name = first :=
      (List.append_inj hcut (by rw [List.length_replicate, hnames.length_eq])).1
    rw [← hfirst] at hnames
    obtain ⟨i, hi, rfl⟩ := List.mem_iff_getElem.mp hitems
    have hith := hnames.get hi (by simpa using hi)
    simpa using hith
  · rintro ⟨names, rfl, huniversal⟩ path hpath
    have hdirs : Part.dirs ∉ (names.map Part.name ++ [Part.dirs]).dropLast := by
      rw [List.dropLast_concat]
      simp
    rw [mem_anywhere hpath, pathMatches_universal huniversal hpath]
    constructor
    · rintro ⟨dir, below, rfl, hbelow, hmem⟩
      have hmatch := (slashed_mem_iff hne hproper hdirs (hpath.rest hbelow)).mp hmem
      have hlt := (pathMatches_universal huniversal (hpath.rest hbelow)).mp hmatch
      rw [List.length_append]
      omega
    · intro hlt
      have hmatch := (pathMatches_universal huniversal hpath).mpr hlt
      exact ⟨[], path, rfl, hpath.1, (slashed_mem_iff hne hproper hdirs hpath).mpr hmatch⟩

-- ============================================================= ignored paths

/-- The patterns of an ignore file, and the directory that holds it. -/
structure Layer where
  base : List (List Char)
  patterns : List Pattern

/-- The patterns that are asked about a path, with the path as each sees it. -/
def asked (layers : List Layer) (path : List (List Char)) : List (Pattern × List (List Char)) :=
  layers.flatMap fun layer =>
    if layer.base.isPrefixOf path ∧ layer.base.length < path.length then
      layer.patterns.map fun p => (p, path.drop layer.base.length)
    else []

/-- The pattern that decides about a path is the last that matches. -/
def Decides (layers : List Layer) (path : List (List Char)) (isDir : Bool) (p : Pattern) : Prop :=
  ∃ before seen after, asked layers path = before ++ (p, seen) :: after ∧
    p.Matches seen isDir ∧ ∀ q ∈ after, ¬ q.1.Matches q.2 isDir

/-- The paths that layers ignore, the deeper layers being the later ones. -/
inductive Ignored (layers : List Layer) : List (List Char) → Bool → Prop where
  | itself {path : List (List Char)} {isDir : Bool} {p : Pattern} :
      Decides layers path isDir p → p.negated = false → Ignored layers path isDir
  | inside {dir below : List (List Char)} {isDir : Bool} :
      Ignored layers dir true → below ≠ [] → Ignored layers (dir ++ below) isDir

/-- The verdict so far, and one more pattern. -/
noncomputable def verdictStep (isDir : Bool) (matched : Bool) (q : Pattern × List (List Char)) :
    Bool :=
  open Classical in if q.1.Matches q.2 isDir then !q.1.negated else matched

/-- The last pattern that matches decides. -/
theorem foldl_verdictStep {isDir : Bool} {qs : List (Pattern × List (List Char))} :
    qs.foldl (verdictStep isDir) false = true ↔
      ∃ before q after, qs = before ++ q :: after ∧ q.1.Matches q.2 isDir ∧
        (∀ r ∈ after, ¬ r.1.Matches r.2 isDir) ∧ q.1.negated = false := by
  induction qs using List.reverseRecOn with
  | nil =>
      refine iff_of_false (by simp) ?_
      rintro ⟨before, q, after, heq, -⟩
      simp at heq
  | append_singleton qs q ih =>
      rw [List.foldl_concat]
      unfold verdictStep
      by_cases hq : q.1.Matches q.2 isDir
      · rw [if_pos hq]
        constructor
        · intro hneg
          exact ⟨qs, q, [], rfl, hq, by simp, by simpa using hneg⟩
        · rintro ⟨before, p, after, heq, -, hafter, hneg⟩
          rcases List.eq_nil_or_concat after with hnil | ⟨front, r, hlast⟩
          · rw [hnil] at heq
            obtain ⟨-, hsame⟩ := List.append_inj' heq rfl
            rw [(List.cons.inj hsame).1, hneg]
            rfl
          · rw [List.concat_eq_append] at hlast
            rw [hlast, ← List.cons_append, ← List.append_assoc] at heq
            obtain ⟨-, hsame⟩ := List.append_inj' heq rfl
            refine absurd hq (hafter q ?_)
            rw [hlast, (List.cons.inj hsame).1]
            simp
      · rw [if_neg hq]
        refine ih.trans ?_
        constructor
        · rintro ⟨before, p, after, rfl, hp, hafter, hneg⟩
          refine ⟨before, p, after ++ [q], by simp, hp, fun r hr => ?_, hneg⟩
          rcases List.mem_append.mp hr with hr' | hr'
          · exact hafter r hr'
          · rw [List.mem_singleton.mp hr']
            exact hq
        · rintro ⟨before, p, after, heq, hp, hafter, hneg⟩
          rcases List.eq_nil_or_concat after with hnil | ⟨front, r, hlast⟩
          · rw [hnil] at heq
            obtain ⟨-, hsame⟩ := List.append_inj' heq rfl
            rw [(List.cons.inj hsame).1] at hq
            exact absurd hp hq
          · rw [List.concat_eq_append] at hlast
            rw [hlast, ← List.cons_append, ← List.append_assoc] at heq
            obtain ⟨hfront, -⟩ := List.append_inj' heq rfl
            refine ⟨before, p, front, hfront, hp, fun r hr => hafter r ?_, hneg⟩
            rw [hlast]
            exact List.mem_append_left _ hr

/-- What the layers say about a path alone. -/
noncomputable def verdict (layers : List Layer) (path : List (List Char)) (isDir : Bool) : Bool :=
  (asked layers path).foldl (verdictStep isDir) false

theorem verdict_iff {layers : List Layer} {isDir : Bool} :
    verdict layers path isDir = true ↔
      ∃ p, Decides layers path isDir p ∧ p.negated = false := by
  unfold verdict
  rw [foldl_verdictStep]
  constructor
  · rintro ⟨before, q, after, heq, hmatch, hafter, hneg⟩
    exact ⟨q.1, ⟨before, q.2, after, heq, hmatch, hafter⟩, hneg⟩
  · rintro ⟨p, ⟨before, seen, after, heq, hmatch, hafter⟩, hneg⟩
    exact ⟨before, (p, seen), after, heq, hmatch, hafter, hneg⟩

/-- No layer is asked about the root. -/
theorem verdict_root {layers : List Layer} {isDir : Bool} : verdict layers [] isDir = false := by
  have hasked : asked layers [] = [] := by
    unfold asked
    rw [List.flatMap_eq_nil_iff]
    simp
  unfold verdict
  rw [hasked]
  rfl

/-- A path is ignored by itself, or below a directory that is. -/
theorem ignored_iff {layers : List Layer} {isDir : Bool} :
    Ignored layers path isDir ↔ verdict layers path isDir = true ∨
      ∃ dir below, path = dir ++ below ∧ below ≠ [] ∧ verdict layers dir true = true := by
  constructor
  · intro h
    induction h with
    | itself hdecides hneg => exact .inl (verdict_iff.mpr ⟨_, hdecides, hneg⟩)
    | @inside dir below isDir _ hbelow ih =>
        right
        rcases ih with hdir | ⟨upper, lower, rfl, -, hupper⟩
        · exact ⟨dir, below, rfl, hbelow, hdir⟩
        · exact ⟨upper, lower ++ below, by simp, by simp [hbelow], hupper⟩
  · rintro (hself | ⟨dir, below, rfl, hbelow, hdir⟩)
    · obtain ⟨p, hdecides, hneg⟩ := verdict_iff.mp hself
      exact .itself hdecides hneg
    · obtain ⟨p, hdecides, hneg⟩ := verdict_iff.mp hdir
      exact .inside (.itself hdecides hneg) hbelow

end Glob
