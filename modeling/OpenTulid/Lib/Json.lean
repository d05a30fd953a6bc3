/-
JSON values and their canonical text.

# The text

`text` is the compact text of a value: no blanks, strings with the escapes
of the format and every other character as it is. A value can be read back
from its text even when more follows, as long as no number is cut short
(`text_unique`), so the text determines the value.

# Canonical values

The order of an object's entries is no part of what it says. `canon` puts
them in the order of their keys, at every depth, so that two values are the
same up to order if and only if their canonical forms are equal
(`canon_obj_eq_of_erase` is the form in which an object is compared without
one of its keys).
-/
import Mathlib.Data.List.Basic
import Mathlib.Data.List.Sort
import Mathlib.Data.Char
import Mathlib.Data.String.Basic

namespace Json

-- =============================================================== numbers

/-- A character that ends a number. -/
def endsNumber (c : Char) : Bool := c = ',' || c = ']' || c = '}'

/-- A character that a number can start with. -/
def startsNumber (c : Char) : Bool := c.isDigit || c = '-' || c = 'N' || c = 'I'

/-- The text of a number with a fraction, an exponent or no finite value. -/
structure FloatText where
  chars : List Char
  starts : ∃ c ∈ chars.head?, startsNumber c = true
  whole : ∀ c ∈ chars, endsNumber c = false
  fraction : ∃ c ∈ chars, c.isDigit = false ∧ c ≠ '-'
  deriving DecidableEq

/-- The decimal text of an integer. -/
def intText : Int → List Char
  | .ofNat n => Nat.toDigits 10 n
  | .negSucc n => '-' :: Nat.toDigits 10 (n + 1)

/-- What follows a number does not go on with it. -/
def Stops (r : List Char) : Prop := ∀ c ∈ r.head?, endsNumber c = true

end Json

-- ================================================================ values

/-- A value. -/
inductive Json where
  | null
  | bool (b : Bool)
  | int (n : Int)
  | float (f : Json.FloatText)
  | str (s : String)
  | arr (items : List Json)
  | obj (entries : List (String × Json))

namespace Json

/-- A character of a string, escaped. -/
def escape (c : Char) : List Char :=
  match c with
  | '"' => ['\\', '"']
  | '\\' => ['\\', '\\']
  | '\n' => ['\\', 'n']
  | '\r' => ['\\', 'r']
  | '\t' => ['\\', 't']
  | '\x08' => ['\\', 'b']
  | '\x0c' => ['\\', 'f']
  | c =>
      if c.toNat < 32 then
        ['\\', 'u', '0', '0', (c.toNat / 16).digitChar, (c.toNat % 16).digitChar]
      else [c]

/-- A string between quotes. -/
def quoted (s : String) : List Char := '"' :: s.toList.flatMap escape ++ ['"']

mutual

/-- The text of a value. -/
def text : Json → List Char
  | null => ['n', 'u', 'l', 'l']
  | bool true => ['t', 'r', 'u', 'e']
  | bool false => ['f', 'a', 'l', 's', 'e']
  | int n => intText n
  | float f => f.chars
  | str s => quoted s
  | arr [] => ['[', ']']
  | arr (x :: xs) => '[' :: (x.text ++ textItems xs)
  | obj [] => ['{', '}']
  | obj ((k, v) :: es) => '{' :: (quoted k ++ ':' :: (v.text ++ textEntries es))

/-- The items of an array after the first. -/
def textItems : List Json → List Char
  | [] => [']']
  | x :: xs => ',' :: (x.text ++ textItems xs)

/-- The entries of an object after the first. -/
def textEntries : List (String × Json) → List Char
  | [] => ['}']
  | (k, v) :: es => ',' :: (quoted k ++ ':' :: (v.text ++ textEntries es))

end

-- =============================================================== strings

/-- The value of a hexadecimal digit. -/
def hexValue (c : Char) : Nat := if c.isDigit then c.toNat - 48 else c.toNat - 87

theorem hexValue_digitChar : ∀ d < 16, hexValue d.digitChar = d := by decide

/-- A character of a string read back, with what follows it. -/
def unescape : List Char → Option (Char × List Char)
  | '\\' :: '"' :: r => some ('"', r)
  | '\\' :: '\\' :: r => some ('\\', r)
  | '\\' :: 'n' :: r => some ('\n', r)
  | '\\' :: 'r' :: r => some ('\r', r)
  | '\\' :: 't' :: r => some ('\t', r)
  | '\\' :: 'b' :: r => some ('\x08', r)
  | '\\' :: 'f' :: r => some ('\x0c', r)
  | '\\' :: 'u' :: '0' :: '0' :: h :: l :: r =>
      some (Char.ofNat (16 * hexValue h + hexValue l), r)
  | '"' :: _ => none
  | c :: r => some (c, r)
  | [] => none

theorem unescape_escape (c : Char) (r : List Char) :
    unescape (escape c ++ r) = some (c, r) := by
  unfold escape
  split
  all_goals try rfl
  next hquote hback _ _ _ _ _ =>
    split
    next hcontrol =>
      have hvalue : 16 * hexValue (c.toNat / 16).digitChar + hexValue (c.toNat % 16).digitChar =
          c.toNat := by
        rw [hexValue_digitChar _ (by omega), hexValue_digitChar _ (by omega)]
        omega
      show some (Char.ofNat _, r) = some (c, r)
      rw [hvalue, Char.ofNat_toNat]
    next =>
      rw [List.singleton_append]
      unfold unescape
      split <;> simp_all

/-- The characters of a string end at its closing quote. -/
theorem escaped_unique {cs ds r u : List Char}
    (h : cs.flatMap escape ++ '"' :: r = ds.flatMap escape ++ '"' :: u) :
    cs = ds ∧ r = u := by
  induction cs generalizing ds with
  | nil =>
      cases ds with
      | nil => exact ⟨rfl, List.tail_eq_of_cons_eq h⟩
      | cons d ds =>
          have hread := congrArg unescape h
          rw [List.flatMap_cons, List.append_assoc, unescape_escape] at hread
          cases hread
  | cons c cs ih =>
      have hread := congrArg unescape h
      rw [List.flatMap_cons, List.append_assoc, unescape_escape] at hread
      cases ds with
      | nil => cases hread
      | cons d ds =>
          rw [List.flatMap_cons, List.append_assoc, unescape_escape] at hread
          obtain ⟨rfl, hrest⟩ := Prod.mk.inj (Option.some.inj hread)
          obtain ⟨rfl, hr⟩ := ih hrest
          exact ⟨rfl, hr⟩

/-- A string ends at its closing quote. -/
theorem quoted_unique {s t : String} {r u : List Char} (h : quoted s ++ r = quoted t ++ u) :
    s = t ∧ r = u := by
  have hinner : s.toList.flatMap escape ++ '"' :: r = t.toList.flatMap escape ++ '"' :: u := by
    simpa [quoted] using h
  obtain ⟨hs, hr⟩ := escaped_unique hinner
  exact ⟨String.toList_inj.mp hs, hr⟩

-- =============================================================== numbers

theorem endsNumber_of_isDigit {c : Char} (h : c.isDigit = true) : endsNumber c = false := by
  unfold endsNumber
  simp only [Bool.or_eq_false_iff, decide_eq_false_iff_not]
  refine ⟨⟨?_, ?_⟩, ?_⟩
  all_goals
    rintro rfl
    cases h

/-- The digits of an integer, and no other characters but its sign. -/
theorem mem_intText {n : Int} {c : Char} (h : c ∈ intText n) : c.isDigit = true ∨ c = '-' := by
  cases n with
  | ofNat n => exact .inl (Nat.isDigit_of_mem_toDigits (b := 10) (by omega) (by omega) h)
  | negSucc n =>
      rcases List.mem_cons.mp h with rfl | h
      · exact .inr rfl
      · exact .inl (Nat.isDigit_of_mem_toDigits (b := 10) (by omega) (by omega) h)

theorem toDigits_inj {m n : Nat} (h : Nat.toDigits 10 m = Nat.toDigits 10 n) : m = n := by
  have hvalue := congrArg (fun ds => Nat.ofDigitChars 10 ds 0) h
  simpa using hvalue

theorem intText_inj {m n : Int} (h : intText m = intText n) : m = n := by
  have hsign : ∀ k l : Nat, Nat.toDigits 10 k ≠ '-' :: Nat.toDigits 10 l := by
    intro k l heq
    have hdigit : ('-' : Char).isDigit = true :=
      Nat.isDigit_of_mem_toDigits (b := 10) (n := k) (by omega) (by omega) (by rw [heq]; exact List.mem_cons_self)
    cases hdigit
  cases m with
  | ofNat m =>
      cases n with
      | ofNat n => rw [toDigits_inj h]
      | negSucc n => exact absurd h (hsign m (n + 1))
  | negSucc m =>
      cases n with
      | ofNat n => exact absurd h.symm (hsign n (m + 1))
      | negSucc n =>
          have := toDigits_inj (List.tail_eq_of_cons_eq h)
          rw [show m = n by omega]

/-- A number ends where the first character stands that no number has. -/
theorem number_unique {cs ds r u : List Char} (hcs : ∀ c ∈ cs, endsNumber c = false)
    (hds : ∀ c ∈ ds, endsNumber c = false) (hr : Stops r) (hu : Stops u)
    (h : cs ++ r = ds ++ u) : cs = ds ∧ r = u := by
  have hsplit : ∀ {cs r : List Char}, (∀ c ∈ cs, endsNumber c = false) → Stops r →
      (cs ++ r).takeWhile (fun c => !endsNumber c) = cs := by
    intro cs r hcs hr
    rw [List.takeWhile_append_of_pos (by simpa using hcs)]
    cases r with
    | nil => simp
    | cons c r =>
        have hstop : endsNumber c = true := hr c rfl
        simp [hstop]
  have hheads : cs = ds := by
    rw [← hsplit hcs hr, h, hsplit hds hu]
  rw [hheads] at h
  exact ⟨hheads, List.append_cancel_left h⟩

theorem intText_whole {n : Int} : ∀ c ∈ intText n, endsNumber c = false := by
  intro c hc
  rcases mem_intText hc with hdigit | rfl
  · exact endsNumber_of_isDigit hdigit
  · rfl

/-- No integer has the text of a float. -/
theorem intText_ne_chars {n : Int} {f : FloatText} : intText n ≠ f.chars := by
  intro h
  obtain ⟨c, hc, hdigit, hsign⟩ := f.fraction
  rw [← h] at hc
  rcases mem_intText hc with hyes | hminus
  · rw [hdigit] at hyes
    cases hyes
  · exact hsign hminus

-- ============================================================== any value

/-- The kind of value a character starts. -/
inductive Kind where
  | null
  | yes
  | no
  | string
  | array
  | object
  | number
  deriving DecidableEq

/-- The kind of value a character starts. -/
def kindOf (c : Char) : Kind :=
  if c = 'n' then .null
  else if c = 't' then .yes
  else if c = 'f' then .no
  else if c = '"' then .string
  else if c = '[' then .array
  else if c = '{' then .object
  else .number

/-- The kind of a value. -/
def kind : Json → Kind
  | null => .null
  | bool true => .yes
  | bool false => .no
  | int _ | float _ => .number
  | str _ => .string
  | arr _ => .array
  | obj _ => .object

theorem kindOf_of_startsNumber {c : Char} (h : startsNumber c = true) : kindOf c = .number := by
  unfold kindOf
  repeat
    rw [if_neg (by rintro rfl; cases h)]

theorem startsNumber_intText (n : Int) : ∃ c rest, intText n = c :: rest ∧
    startsNumber c = true := by
  have hne : intText n ≠ [] := by
    cases n with
    | ofNat n => exact Nat.toDigits_ne_nil
    | negSucc n => exact List.cons_ne_nil _ _
  obtain ⟨c, rest, htext⟩ := List.exists_cons_of_ne_nil hne
  refine ⟨c, rest, htext, ?_⟩
  rcases mem_intText (n := n) (c := c) (by rw [htext]; exact List.mem_cons_self) with
    hdigit | rfl
  · simp [startsNumber, hdigit]
  · rfl

/-- The first character of a text tells its kind, and ends no list. -/
theorem exists_text_eq (v : Json) : ∃ c rest, v.text = c :: rest ∧ kindOf c = v.kind ∧
    endsNumber c = false := by
  cases v with
  | null => exact ⟨_, _, rfl, rfl, rfl⟩
  | bool b => cases b <;> exact ⟨_, _, rfl, rfl, rfl⟩
  | int n =>
      obtain ⟨c, rest, htext, hstarts⟩ := startsNumber_intText n
      refine ⟨c, rest, htext, kindOf_of_startsNumber hstarts, intText_whole (n := n) c ?_⟩
      rw [htext]
      exact List.mem_cons_self
  | float f =>
      obtain ⟨c, hc, hstarts⟩ := f.starts
      obtain ⟨rest, htext⟩ := List.head?_eq_some_iff.mp hc
      refine ⟨c, rest, htext, kindOf_of_startsNumber hstarts, f.whole c ?_⟩
      rw [htext]
      exact List.mem_cons_self
  | str s => exact ⟨_, _, rfl, rfl, rfl⟩
  | arr items => cases items <;> exact ⟨_, _, rfl, rfl, rfl⟩
  | obj entries =>
      cases entries with
      | nil => exact ⟨_, _, rfl, rfl, rfl⟩
      | cons e es => exact ⟨_, _, rfl, rfl, rfl⟩

theorem kind_eq_of_text {v w : Json} {r u : List Char} (h : v.text ++ r = w.text ++ u) :
    v.kind = w.kind := by
  obtain ⟨c, rest, hv, hc, -⟩ := exists_text_eq v
  obtain ⟨d, rest', hw, hd, -⟩ := exists_text_eq w
  rw [hv, hw] at h
  rw [← hc, ← hd, (List.cons.inj h).1]

/-- No text starts with the bracket that ends a list. -/
theorem text_ne_of_ends {v : Json} {c : Char} {r u : List Char} (hc : endsNumber c = true) :
    v.text ++ r ≠ c :: u := by
  obtain ⟨d, rest, hv, -, hd⟩ := exists_text_eq v
  rw [hv]
  intro h
  rw [(List.cons.inj h).1, hc] at hd
  cases hd

theorem stops_textItems (xs : List Json) (r : List Char) : Stops (textItems xs ++ r) := by
  cases xs with
  | nil => rintro c ⟨⟩; rfl
  | cons x xs => rintro c ⟨⟩; rfl

theorem stops_textEntries (es : List (String × Json)) (r : List Char) :
    Stops (textEntries es ++ r) := by
  cases es with
  | nil => rintro c ⟨⟩; rfl
  | cons e es => rintro c ⟨⟩; rfl

mutual

/-- A value can be read back from its text with what follows it. -/
theorem text_unique : ∀ {v w : Json} {r u : List Char}, Stops r → Stops u →
    v.text ++ r = w.text ++ u → v = w ∧ r = u
  | v, w, r, u, hr, hu, h => by
      have hkind := kind_eq_of_text h
      cases v with
      | null =>
          cases w with
          | null => exact ⟨rfl, List.append_cancel_left h⟩
          | bool b => cases b <;> cases hkind
          | _ => cases hkind
      | bool b =>
          cases w with
          | bool b' =>
              have hsame : b = b' := by
                cases b with
                | false => cases b' with
                  | false => rfl
                  | true => cases hkind
                | true => cases b' with
                  | false => cases hkind
                  | true => rfl
              subst hsame
              exact ⟨rfl, List.append_cancel_left h⟩
          | _ => cases b <;> cases hkind
      | int n =>
          cases w with
          | int n' =>
              obtain ⟨htext, hrest⟩ := number_unique intText_whole intText_whole hr hu h
              rw [intText_inj htext]
              exact ⟨rfl, hrest⟩
          | float f =>
              exact absurd (number_unique intText_whole f.whole hr hu h).1 intText_ne_chars
          | bool b => cases b <;> cases hkind
          | _ => cases hkind
      | float f =>
          cases w with
          | int n =>
              exact absurd (number_unique f.whole intText_whole hr hu h).1.symm intText_ne_chars
          | float f' =>
              obtain ⟨htext, hrest⟩ := number_unique f.whole f'.whole hr hu h
              cases f
              cases f'
              cases htext
              exact ⟨rfl, hrest⟩
          | bool b => cases b <;> cases hkind
          | _ => cases hkind
      | str s =>
          cases w with
          | str t =>
              obtain ⟨rfl, hrest⟩ := quoted_unique h
              exact ⟨rfl, hrest⟩
          | bool b => cases b <;> cases hkind
          | _ => cases hkind
      | arr xs =>
          cases w with
          | arr ys =>
              cases xs with
              | nil =>
                  cases ys with
                  | nil => exact ⟨rfl, List.append_cancel_left h⟩
                  | cons y ys =>
                      simp only [text, List.cons_append, List.append_assoc, List.cons.injEq,
                        true_and] at h
                      exact absurd h.symm (text_ne_of_ends rfl)
              | cons x xs =>
                  cases ys with
                  | nil =>
                      simp only [text, List.cons_append, List.append_assoc, List.cons.injEq,
                        true_and] at h
                      exact absurd h (text_ne_of_ends rfl)
                  | cons y ys =>
                      simp only [text, List.cons_append, List.append_assoc, List.cons.injEq,
                        true_and] at h
                      obtain ⟨rfl, hitems⟩ :=
                        text_unique (stops_textItems xs r) (stops_textItems ys u) h
                      obtain ⟨rfl, hrest⟩ := items_unique hitems
                      exact ⟨rfl, hrest⟩
          | bool b => cases b <;> cases hkind
          | _ => cases hkind
      | obj es =>
          cases w with
          | obj fs =>
              cases es with
              | nil =>
                  cases fs with
                  | nil => exact ⟨rfl, List.append_cancel_left h⟩
                  | cons f fs => cases List.tail_eq_of_cons_eq h
              | cons e es =>
                  cases fs with
                  | nil => cases List.tail_eq_of_cons_eq h
                  | cons f fs =>
                      simp only [text, List.cons_append, List.append_assoc, List.cons.injEq,
                        true_and] at h
                      obtain ⟨hkey, hafter⟩ := quoted_unique h
                      obtain ⟨hvalue, hentries⟩ := text_unique (stops_textEntries es r)
                        (stops_textEntries fs u) (List.tail_eq_of_cons_eq hafter)
                      obtain ⟨rfl, hrest⟩ := entries_unique hentries
                      rw [Prod.ext hkey hvalue]
                      exact ⟨rfl, hrest⟩
          | bool b => cases b <;> cases hkind
          | _ => cases hkind

/-- The items of an array end at its bracket. -/
theorem items_unique : ∀ {xs ys : List Json} {r u : List Char},
    textItems xs ++ r = textItems ys ++ u → xs = ys ∧ r = u
  | [], [], _, _, h => ⟨rfl, List.append_cancel_left h⟩
  | [], y :: ys, _, _, h => by cases (List.cons.inj h).1
  | x :: xs, [], _, _, h => by cases (List.cons.inj h).1
  | x :: xs, y :: ys, r, u, h => by
      simp only [textItems, List.cons_append, List.append_assoc, List.cons.injEq,
        true_and] at h
      obtain ⟨rfl, hitems⟩ := text_unique (stops_textItems xs r) (stops_textItems ys u) h
      obtain ⟨rfl, hrest⟩ := items_unique hitems
      exact ⟨rfl, hrest⟩

/-- The entries of an object end at its brace. -/
theorem entries_unique : ∀ {es fs : List (String × Json)} {r u : List Char},
    textEntries es ++ r = textEntries fs ++ u → es = fs ∧ r = u
  | [], [], _, _, h => ⟨rfl, List.append_cancel_left h⟩
  | [], f :: fs, _, _, h => by cases (List.cons.inj h).1
  | e :: es, [], _, _, h => by cases (List.cons.inj h).1
  | (k, v) :: es, (l, w) :: fs, r, u, h => by
      simp only [textEntries, List.cons_append, List.append_assoc, List.cons.injEq,
        true_and] at h
      obtain ⟨rfl, hvalue⟩ := quoted_unique h
      obtain ⟨rfl, hentries⟩ := text_unique (stops_textEntries es r) (stops_textEntries fs u)
        (List.tail_eq_of_cons_eq hvalue)
      obtain ⟨rfl, hrest⟩ := entries_unique hentries
      exact ⟨rfl, hrest⟩

end

/-- The text of a value determines it. -/
theorem text_injective : Function.Injective text := fun v w h =>
  (text_unique (v := v) (w := w) (r := []) (u := []) nofun nofun (by rw [h])).1

-- =============================================================== objects

/-- The entries of an object. -/
abbrev Fields := List (String × Json)

namespace Fields

/-- The value of a key. -/
def get? (es : Fields) (key : String) : Option Json := es.lookup key

/-- The value of a key, null when it is absent. -/
def get (es : Fields) (key : String) : Json := (es.get? key).getD .null

/-- The entries without a key. -/
def erase (es : Fields) (key : String) : Fields := es.filter fun e => e.1 ≠ key

/-- The entries with a value assigned to a key. -/
def set (es : Fields) (key : String) (v : Json) : Fields :=
  match es with
  | [] => [(key, v)]
  | (k, w) :: rest => if k = key then (key, v) :: rest else (k, w) :: set rest key v

/-- No key has two entries. -/
def Distinct (es : Fields) : Prop := (es.map Prod.fst).Nodup

end Fields

/-- The key of an entry stands before that of another. -/
def byKey (e f : String × Json) : Prop := e.1 ≤ f.1

instance : DecidableRel byKey := fun e f => inferInstanceAs (Decidable (e.1 ≤ f.1))

instance : IsTrans (String × Json) byKey := ⟨fun _ _ _ h h' => le_trans (α := String) h h'⟩

instance : Std.Total byKey := ⟨fun e f => le_total (α := String) e.1 f.1⟩

mutual

/-- A value with the entries of its objects in the order of their keys. -/
def canon : Json → Json
  | arr xs => arr (canonItems xs)
  | obj es => obj ((canonFields es).insertionSort byKey)
  | null => null
  | bool b => bool b
  | int n => int n
  | float f => float f
  | str s => str s

/-- The items of an array, each so. -/
def canonItems : List Json → List Json
  | [] => []
  | x :: xs => x.canon :: canonItems xs

/-- The entries of an object, each value so. -/
def canonFields : List (String × Json) → List (String × Json)
  | [] => []
  | (k, v) :: es => (k, v.canon) :: canonFields es

end

theorem canonFields_eq_map (es : Fields) :
    canonFields es = es.map fun e => (e.1, e.2.canon) := by
  induction es with
  | nil => rfl
  | cons e es ih => rw [canonFields, ih, List.map_cons]

theorem canonFields_erase (es : Fields) (key : String) :
    canonFields (es.erase key) = Fields.erase (canonFields es) key := by
  rw [canonFields_eq_map, canonFields_eq_map, Fields.erase, Fields.erase, List.filter_map]
  rfl

theorem get?_canonFields (es : Fields) (key : String) :
    Fields.get? (canonFields es) key = (es.get? key).map canon := by
  induction es with
  | nil => rfl
  | cons e es ih =>
      obtain ⟨k, v⟩ := e
      unfold Fields.get? at ih ⊢
      rw [canonFields, List.lookup_cons, List.lookup_cons]
      cases key == k with
      | true => rfl
      | false => exact ih

theorem distinct_canonFields {es : Fields} (h : es.Distinct) :
    Fields.Distinct (canonFields es) := by
  unfold Fields.Distinct at h ⊢
  rw [canonFields_eq_map, List.map_map]
  exact h

/-- A key put back where it was. -/
theorem perm_erase {es : Fields} (h : es.Distinct) (key : String) :
    es.Perm ((es.get? key).toList.map (fun v => (key, v)) ++ es.erase key) := by
  induction es with
  | nil => rfl
  | cons e es ih =>
      obtain ⟨k, v⟩ := e
      obtain ⟨hout, hnodup⟩ := List.nodup_cons.mp h
      unfold Fields.get? Fields.erase at ih ⊢
      rw [List.lookup_cons]
      cases hkey : key == k with
      | true =>
          obtain rfl : key = k := eq_of_beq hkey
          have hothers : es.filter (fun e => e.1 ≠ key) = es := by
            refine List.filter_eq_self.mpr fun e he => decide_eq_true fun heq => hout ?_
            exact List.mem_map.mpr ⟨e, he, heq⟩
          rw [List.filter_cons_of_neg (by simp), hothers]
          exact List.Perm.refl _
      | false =>
          have hne : k ≠ key := fun heq => by simp [heq] at hkey
          rw [List.filter_cons_of_pos (by simpa using hne)]
          exact ((ih hnodup).cons _).trans List.perm_middle.symm

/-- Entries with distinct keys are put in one order. -/
theorem insertionSort_eq_of_perm {es fs : Fields} (hes : es.Distinct) (h : es.Perm fs) :
    es.insertionSort byKey = fs.insertionSort byKey := by
  have hperm : (es.insertionSort byKey).Perm (fs.insertionSort byKey) :=
    (List.perm_insertionSort _ _).trans (h.trans (List.perm_insertionSort _ _).symm)
  refine hperm.eq_of_pairwise (fun e f he hf hle hge => ?_)
    (List.pairwise_insertionSort byKey es) (List.pairwise_insertionSort byKey fs)
  have hkeys : e.1 = f.1 := le_antisymm hle hge
  have he : e ∈ es := (List.mem_insertionSort _).mp he
  have hf : f ∈ es := h.mem_iff.mpr ((List.mem_insertionSort _).mp hf)
  exact List.inj_on_of_nodup_map hes he hf hkeys

/-- Objects that agree on a key and without it are the same up to order. -/
theorem canon_obj_eq_of_erase {es fs : Fields} {key : String} (hes : es.Distinct)
    (hfs : fs.Distinct) (hkey : es.get? key = fs.get? key)
    (hrest : canon (obj (es.erase key)) = canon (obj (fs.erase key))) :
    canon (obj es) = canon (obj fs) := by
  have hrest : (canonFields (es.erase key)).Perm (canonFields (fs.erase key)) := by
    simp only [canon, obj.injEq] at hrest
    exact (List.perm_insertionSort byKey _).symm.trans
      (hrest ▸ List.perm_insertionSort byKey _)
  rw [canonFields_erase, canonFields_erase] at hrest
  have hes' := perm_erase (distinct_canonFields hes) key
  have hfs' := perm_erase (distinct_canonFields hfs) key
  rw [get?_canonFields] at hes' hfs'
  rw [hkey] at hes'
  simp only [canon, obj.injEq]
  exact insertionSort_eq_of_perm (distinct_canonFields hes)
    (hes'.trans ((hrest.append_left _).trans hfs'.symm))

/-- Entries under the same distinct keys that are the same up to order are
the same. -/
theorem eq_of_perm_of_keys {es fs : Fields} (hkeys : es.map Prod.fst = fs.map Prod.fst)
    (hes : es.Distinct) (h : es.Perm fs) : es = fs := by
  induction es generalizing fs with
  | nil => exact h.nil_eq
  | cons e es ih =>
      cases fs with
      | nil => cases hkeys
      | cons f fs =>
          obtain ⟨hkey, hrest⟩ := List.cons.inj hkeys
          obtain ⟨hout, hnodup⟩ := List.nodup_cons.mp hes
          have heq : e = f := by
            rcases List.mem_cons.mp (h.mem_iff.mp List.mem_cons_self) with heq | hmem
            · exact heq
            · exact absurd (hrest ▸ List.mem_map_of_mem hmem) hout
          subst heq
          rw [ih hrest hnodup (List.perm_cons e |>.mp h)]

/-- Objects under the same distinct keys are the same up to order if and
only if their values are. -/
theorem canon_obj_eq_iff {es fs : Fields} (hkeys : es.map Prod.fst = fs.map Prod.fst)
    (hes : es.Distinct) :
    canon (obj es) = canon (obj fs) ↔ es.map (·.2.canon) = fs.map (·.2.canon) := by
  have hcanonKeys : (canonFields es).map Prod.fst = (canonFields fs).map Prod.fst := by
    rw [canonFields_eq_map, canonFields_eq_map, List.map_map, List.map_map]
    exact hkeys
  constructor
  · intro h
    simp only [canon, obj.injEq] at h
    have hperm : (canonFields es).Perm (canonFields fs) :=
      (List.perm_insertionSort byKey _).symm.trans (h ▸ List.perm_insertionSort byKey _)
    have heq := eq_of_perm_of_keys hcanonKeys (distinct_canonFields hes) hperm
    rw [canonFields_eq_map, canonFields_eq_map] at heq
    have hvalues := congrArg (List.map Prod.snd) heq
    rwa [List.map_map, List.map_map] at hvalues
  · intro h
    have heq : canonFields es = canonFields fs := by
      rw [canonFields_eq_map, canonFields_eq_map]
      clear hcanonKeys hes
      induction es generalizing fs with
      | nil =>
          cases fs with
          | nil => rfl
          | cons f fs => cases hkeys
      | cons e es ih =>
          cases fs with
          | nil => cases hkeys
          | cons f fs =>
              obtain ⟨hkey, hkeys⟩ := List.cons.inj hkeys
              obtain ⟨hvalue, hvalues⟩ := List.cons.inj h
              have hvalue : e.2.canon = f.2.canon := hvalue
              rw [List.map_cons, List.map_cons, ih hkeys hvalues, hkey, hvalue]
    simp only [canon, heq]

theorem canonItems_eq_map (xs : List Json) : canonItems xs = xs.map canon := by
  induction xs with
  | nil => rfl
  | cons x xs ih => rw [canonItems, ih, List.map_cons]

-- ================================================= entries that are left out

/-- The entries that have a value. -/
def present (entries : List (String × Option Json)) : Fields :=
  entries.filterMap fun e => e.2.map fun v => (e.1, v)

/-- Where no key has two entries, the value under a key is that of its entry. -/
theorem lookup_eq_some_iff {α : Type} {entries : List (String × α)} {key : String} {v : α}
    (h : (entries.map Prod.fst).Nodup) : entries.lookup key = some v ↔ (key, v) ∈ entries := by
  induction entries with
  | nil => simp
  | cons e entries ih =>
      obtain ⟨k, w⟩ := e
      obtain ⟨hout, hnodup⟩ := List.nodup_cons.mp h
      rw [List.lookup_cons, List.mem_cons]
      cases hkey : key == k with
      | true =>
          obtain rfl : key = k := eq_of_beq hkey
          constructor
          · intro heq
            cases heq
            exact .inl rfl
          · rintro (heq | hmem)
            · cases heq
              rfl
            · exact absurd (List.mem_map.mpr ⟨_, hmem, rfl⟩) hout
      | false =>
          have hne : key ≠ k := ne_of_beq_false hkey
          rw [ih hnodup]
          constructor
          · exact .inr
          · rintro (heq | hmem)
            · cases heq
              exact absurd rfl hne
            · exact hmem

theorem get?_perm {es fs : Fields} (hes : es.Distinct) (h : es.Perm fs) (key : String) :
    es.get? key = fs.get? key := by
  have hfs : fs.Distinct := (h.map Prod.fst).nodup_iff.mp hes
  refine Option.ext fun v => ?_
  exact (lookup_eq_some_iff hes).trans (h.mem_iff.trans (lookup_eq_some_iff hfs).symm)

theorem mem_present {entries : List (String × Option Json)} {key : String} {v : Json} :
    (key, v) ∈ present entries ↔ (key, some v) ∈ entries := by
  unfold present
  rw [List.mem_filterMap]
  constructor
  · rintro ⟨⟨k, w⟩, hmem, hentry⟩
    obtain ⟨v', rfl, heq⟩ := Option.map_eq_some_iff.mp hentry
    cases heq
    exact hmem
  · intro hmem
    exact ⟨_, hmem, rfl⟩

/-- Keys that differ differ in what is left. -/
theorem distinct_present {entries : List (String × Option Json)}
    (h : (entries.map Prod.fst).Nodup) : (present entries).Distinct := by
  induction entries with
  | nil => exact .nil
  | cons e entries ih =>
      obtain ⟨key, value⟩ := e
      obtain ⟨hout, hnodup⟩ := List.nodup_cons.mp h
      cases value with
      | none => exact ih hnodup
      | some v =>
          refine List.nodup_cons.mpr ⟨fun hmem => hout ?_, ih hnodup⟩
          obtain ⟨⟨key', v'⟩, hmem, hkey⟩ := List.mem_map.mp hmem
          exact List.mem_map.mpr ⟨_, mem_present.mp hmem, hkey⟩

theorem get?_present {entries : List (String × Option Json)}
    (h : (entries.map Prod.fst).Nodup) (key : String) :
    (present entries).get? key = (entries.lookup key).join := by
  refine Option.ext fun v => ?_
  rw [Option.join_eq_some_iff]
  exact (lookup_eq_some_iff (distinct_present h)).trans
    (mem_present.trans (lookup_eq_some_iff h).symm)

/-- What is read under a key of an object. -/
theorem get?_canon {es : Fields} (h : es.Distinct) (key : String) :
    Fields.get? ((canonFields es).insertionSort byKey) key = (es.get? key).map canon := by
  have hdistinct := distinct_canonFields h
  rw [get?_perm ((List.perm_insertionSort byKey _).map Prod.fst |>.nodup_iff.mpr hdistinct)
    (List.perm_insertionSort byKey _), get?_canonFields]

/-- What is read under a key of an object of such entries. -/
theorem get?_canon_present {entries : List (String × Option Json)}
    (h : (entries.map Prod.fst).Nodup) (key : String) :
    Fields.get? ((canonFields (present entries)).insertionSort byKey) key =
      (entries.lookup key).join.map canon := by
  rw [get?_canon (distinct_present h), get?_present h]

end Json
