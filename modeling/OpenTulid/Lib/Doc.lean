/-
Documents of nested values: what a YAML or JSON text parses to, and the
sets of values a format can ask for.

# Values

A value is a scalar, a list, or a mapping in the order of its entries. A
float without a fraction stands beside the integer it equals; what is none of
these (another float, a date) is `Scalar.other` with the name of its type and
its text.

# Languages

A `Lang` says which values belong to it. Languages are built from those of
their parts: `list`, `mapping`, `record`. A field of a record says whether
it has to be present and whether a null stands for its absence.
-/
import Mathlib.Data.List.Basic
import Mathlib.Data.Bool.Basic

namespace Doc

-- ============================================================== values

/-- A value without parts. -/
inductive Scalar where
  | null
  | bool (b : Bool)
  | int (n : Int)
  | str (s : String)
  | float (n : Int) (text : String)
  | other (type text : String)
  deriving DecidableEq, Repr

/-- The number a scalar counts as when keys are compared. -/
def Scalar.number : Scalar → Option Int
  | .bool b => some (if b then 1 else 0)
  | .int n => some n
  | .float n _ => some n
  | .null | .str _ | .other _ _ => none

/-- Two scalars are the same key of a dictionary: true is one, and a float
without a fraction its integer. -/
def Scalar.sameKey (s t : Scalar) : Bool := s = t || (s.number.isSome && s.number = t.number)

@[simp] theorem Scalar.sameKey_str {s : Scalar} {key : String} :
    s.sameKey (.str key) = true ↔ s = .str key := by
  cases s <;> simp [sameKey, number]

/-- A value. -/
inductive Value where
  | scalar (s : Scalar)
  | list (items : List Value)
  | map (entries : List (Scalar × Value))
  deriving Repr

/-- The entries of a mapping. -/
abbrev Entries := List (Scalar × Value)

namespace Value

/-- No value. -/
abbrev null : Value := .scalar .null

abbrev bool (b : Bool) : Value := .scalar (.bool b)

abbrev int (n : Int) : Value := .scalar (.int n)

abbrev str (s : String) : Value := .scalar (.str s)

mutual

/-- Equality of values. -/
def decEq : (v w : Value) → Decidable (v = w)
  | .scalar s, .scalar t => decidable_of_iff (s = t) (by simp)
  | .list xs, .list ys =>
      match decEqList xs ys with
      | isTrue h => isTrue (by rw [h])
      | isFalse h => isFalse fun e => h (by injection e)
  | .map es, .map fs =>
      match decEqEntries es fs with
      | isTrue h => isTrue (by rw [h])
      | isFalse h => isFalse fun e => h (by injection e)
  | .scalar _, .list _ => isFalse nofun
  | .scalar _, .map _ => isFalse nofun
  | .list _, .scalar _ => isFalse nofun
  | .list _, .map _ => isFalse nofun
  | .map _, .scalar _ => isFalse nofun
  | .map _, .list _ => isFalse nofun

/-- Equality of lists of values. -/
def decEqList : (xs ys : List Value) → Decidable (xs = ys)
  | [], [] => isTrue rfl
  | x :: xs, y :: ys =>
      match decEq x y, decEqList xs ys with
      | isTrue h, isTrue h' => isTrue (by rw [h, h'])
      | isFalse h, _ => isFalse fun e => h (by injection e)
      | _, isFalse h => isFalse fun e => h (by injection e)
  | [], _ :: _ => isFalse nofun
  | _ :: _, [] => isFalse nofun

/-- Equality of entries. -/
def decEqEntries : (es fs : Entries) → Decidable (es = fs)
  | [], [] => isTrue rfl
  | (k, v) :: es, (l, w) :: fs =>
      match decEq v w, decEqEntries es fs with
      | isTrue h, isTrue h' =>
          decidable_of_iff (k = l) (by rw [h, h']; simp)
      | isFalse h, _ => isFalse fun e => h (by injection e with e; injection e)
      | _, isFalse h => isFalse fun e => h (by injection e)
  | [], _ :: _ => isFalse nofun
  | _ :: _, [] => isFalse nofun

end

instance : DecidableEq Value := decEq

end Value

-- ============================================================ mappings

namespace Entries

/-- The value of a key. -/
def get? (m : Entries) (key : String) : Option Value := m.lookup (.str key)

/-- The value of a key, null when it is absent. -/
def get (m : Entries) (key : String) : Value := (m.get? key).getD .null

/-- The mapping has a key. -/
def has (m : Entries) (key : String) : Bool := (m.get? key).isSome

/-- The key is none of the names. -/
def stray (names : List String) (key : Scalar) : Bool :=
  match key with
  | .str s => s ∉ names
  | _ => true

/-- The keys that are none of the names. -/
def strays (names : List String) (m : Entries) : List Scalar :=
  (m.map Prod.fst).filter (stray names)

@[simp] theorem get?_nil (key : String) : get? [] key = none := rfl

/-- What a mapping has is the value of one of its entries. -/
theorem mem_of_get? {m : Entries} {key : String} {v : Value} (h : m.get? key = some v) :
    (.str key, v) ∈ m := by
  unfold get? at h
  induction m with
  | nil => cases h
  | cons e rest ih =>
      obtain ⟨k, w⟩ := e
      rw [List.lookup_cons] at h
      split at h
      next hk =>
        cases h
        rw [beq_iff_eq.mp hk]
        exact List.mem_cons_self
      next => exact List.mem_cons_of_mem _ (ih h)

theorem get_eq_of_get? {m : Entries} {key : String} {v : Value} (h : m.get? key = some v) :
    m.get key = v := by
  simp [get, h]

theorem get_eq_null_of_get? {m : Entries} {key : String} (h : m.get? key = none) :
    m.get key = .null := by
  simp [get, h]

theorem get?_eq_of_get {m : Entries} {key : String} {v : Value} (h : m.get key = v)
    (hv : v ≠ .null) : m.get? key = some v := by
  unfold get at h
  cases hget : m.get? key with
  | none =>
      rw [hget] at h
      exact absurd h.symm hv
  | some found =>
      rw [hget] at h
      exact congrArg some h

/-- The keys of a dictionary are strings, no two of them alike. -/
def Texts {α : Type} (m : List (Scalar × α)) : Prop :=
  (∀ e ∈ m, ∃ s, e.1 = .str s) ∧ (m.map Prod.fst).Nodup

/-- The key is a string. -/
def isText : Scalar → Bool
  | .str _ => true
  | _ => false

theorem isText_iff {key : Scalar} : isText key = true ↔ ∃ s, key = .str s := by
  cases key <;> simp [isText]

instance {α : Type} (m : List (Scalar × α)) : Decidable (Texts m) :=
  decidable_of_iff ((∀ e ∈ m, isText e.1 = true) ∧ (m.map Prod.fst).Nodup)
    (and_congr_left' (forall₂_congr fun _ _ => isText_iff))

end Entries

-- ============================================== values with all their parts

namespace Value

mutual

/-- Every scalar of a value satisfies `p` and every mapping `q`. -/
def all (p : Scalar → Bool) (q : Entries → Bool) : Value → Bool
  | .scalar s => p s
  | .list items => allItems p q items
  | .map m => q m && allEntries p q m

/-- So does every item of a list. -/
def allItems (p : Scalar → Bool) (q : Entries → Bool) : List Value → Bool
  | [] => true
  | item :: rest => all p q item && allItems p q rest

/-- And every value of a mapping. -/
def allEntries (p : Scalar → Bool) (q : Entries → Bool) : Entries → Bool
  | [] => true
  | (_, value) :: rest => all p q value && allEntries p q rest

end

variable {p : Scalar → Bool} {q : Entries → Bool}

theorem all_of_mem_items {items : List Value} (h : (Value.list items).all p q = true) :
    ∀ item ∈ items, item.all p q = true := by
  rw [all] at h
  induction items with
  | nil => simp
  | cons item rest ih =>
      rw [allItems, Bool.and_eq_true] at h
      exact List.forall_mem_cons.mpr ⟨h.1, ih h.2⟩

theorem all_of_mem_entries {m : Entries} (h : (Value.map m).all p q = true) :
    ∀ e ∈ m, e.2.all p q = true := by
  rw [all, Bool.and_eq_true] at h
  replace h := h.2
  induction m with
  | nil => simp
  | cons e rest ih =>
      rw [allEntries, Bool.and_eq_true] at h
      exact List.forall_mem_cons.mpr ⟨h.1, ih h.2⟩

theorem all_of_get? {m : Entries} {key : String} {v : Value} (h : (Value.map m).all p q = true)
    (hget : m.get? key = some v) : v.all p q = true :=
  all_of_mem_entries h _ (Entries.mem_of_get? hget)

end Value

-- =========================================================== languages

/-- A set of values. -/
abbrev Lang := Value → Bool

/-- One key of a record. -/
structure Field where
  name : String
  lang : Lang
  /-- it has to be present -/
  required : Bool := false
  /-- a null stands for its absence -/
  nullable : Bool := false

namespace Field

/-- A key that has to be present. -/
abbrev must (name : String) (lang : Lang) : Field :=
  { name := name, lang := lang, required := true }

/-- A key that may be absent. -/
abbrev may (name : String) (lang : Lang) : Field := { name := name, lang := lang }

/-- A key that may be absent or null. -/
abbrev maybe (name : String) (lang : Lang) : Field :=
  { name := name, lang := lang, nullable := true }

end Field

/-- The entries fit a field. -/
def Field.fits (f : Field) (m : Entries) : Bool :=
  match m.get? f.name with
  | none => !f.required
  | some v => f.lang v || (f.nullable && v = .null)

namespace Lang

/-- Every value. -/
def anything : Lang := fun _ => true

/-- The strings. -/
def text : Lang
  | .scalar (.str _) => true
  | _ => false

/-- The booleans. -/
def bool : Lang
  | .scalar (.bool _) => true
  | _ => false

/-- Some strings. -/
def word (words : List String) : Lang
  | .scalar (.str s) => s ∈ words
  | _ => false

/-- Some integers. -/
def number (numbers : List Int) : Lang
  | .scalar (.int n) => n ∈ numbers
  | _ => false

/-- Some integers, also written as floats. -/
def integral (numbers : List Int) : Lang
  | .scalar (.int n) => n ∈ numbers
  | .scalar (.float n _) => n ∈ numbers
  | _ => false

/-- The lists of values of a language. -/
def list (item : Lang) : Lang
  | .list items => items.all item
  | _ => false

/-- The mappings of values of a language. -/
def mapping (item : Lang) : Lang
  | .map entries => entries.all fun e => item e.2
  | _ => false

/-- The mappings with keys that are strings. -/
def strKeys : Lang
  | .map entries => entries.all fun e => text (.scalar e.1)
  | _ => false

/-- The mappings. -/
def anyMapping : Lang
  | .map _ => true
  | _ => false

/-- The values of one of two languages. -/
def either (l l' : Lang) : Lang := fun v => l v || l' v

/-- The values of both languages. -/
def both (l l' : Lang) : Lang := fun v => l v && l' v

/-- The mappings whose entries fit the fields, other keys allowed. -/
def loose (fields : List Field) : Lang
  | .map m => fields.all fun f => f.fits m
  | _ => false

/-- The mappings that fit the fields and have no other keys. -/
def record (fields : List Field) : Lang
  | .map m => Entries.strays (fields.map (·.name)) m = [] && fields.all fun f => f.fits m
  | _ => false

end Lang

namespace Lang

variable {m : Entries} {name : String} {lang : Lang} {fields : List Field}

/-- A key that has to be present is present with a value of the language. -/
theorem fits_must : (Field.must name lang).fits m = (m.get? name).any lang := by
  unfold Field.fits
  cases m.get? name <;> simp

/-- A key that may be absent has a value of the language if it is there. -/
theorem fits_may : (Field.may name lang).fits m = (m.get? name).all lang := by
  unfold Field.fits
  cases m.get? name <;> simp

/-- So it has with its default, when that is of the language. -/
theorem fits_may_getD {default : Value} (h : lang default = true) :
    (Field.may name lang).fits m = lang ((m.get? name).getD default) := by
  rw [fits_may]
  cases m.get? name <;> simp [h]

/-- A key that may be null has a value of the language or none. -/
theorem fits_maybe :
    (Field.maybe name lang).fits m = (lang (m.get name) || decide (m.get name = .null)) := by
  unfold Field.fits Entries.get
  cases m.get? name <;> simp

/-- A record is a mapping without other keys that fits each field. -/
theorem record_map : record fields (.map m) =
    (decide (m.strays (fields.map (·.name)) = []) && loose fields (.map m)) := rfl

@[simp] theorem loose_nil : loose [] (.map m) = true := rfl

@[simp] theorem loose_cons {f : Field} :
    loose (f :: fields) (.map m) = (f.fits m && loose fields (.map m)) := rfl

/-- A language of mappings holds nothing else. -/
theorem record_eq_false {v : Value} (h : ∀ m, v ≠ .map m) : record fields v = false := by
  cases v with
  | map m => exact absurd rfl (h m)
  | scalar | list => rfl

/-- A record without some of its keys, none of which has to be present. -/
theorem record_filter {keys : List String} (h : ∀ f ∈ fields, f.name ∈ keys → f.required = false) :
    record (fields.filter fun f => f.name ∉ keys) (.map m) = true ↔
      record fields (.map m) = true ∧ ∀ key ∈ keys, m.get? key = none := by
  have hkey : ∀ {names : List String}, m.strays names = [] ↔
      ∀ e ∈ m, Entries.stray names e.1 = false := by
    intro names
    simp [Entries.strays, List.filter_eq_nil_iff]
  have hstray : ∀ e : Scalar × Value,
      Entries.stray ((fields.filter fun f => f.name ∉ keys).map (·.name)) e.1 = false ↔
        Entries.stray (fields.map (·.name)) e.1 = false ∧ ∀ key ∈ keys, e.1 ≠ .str key := by
    intro e
    cases e.1 with
    | str s =>
        simp only [Entries.stray, decide_eq_false_iff_not, not_not, List.mem_map, List.mem_filter,
          decide_eq_true_eq, ne_eq, Scalar.str.injEq]
        constructor
        · rintro ⟨f, ⟨hf, hnot⟩, rfl⟩
          exact ⟨⟨f, hf, rfl⟩, fun key hkey heq => hnot (heq ▸ hkey)⟩
        · rintro ⟨⟨f, hf, rfl⟩, hnot⟩
          exact ⟨f, ⟨hf, fun hmem => hnot _ hmem rfl⟩, rfl⟩
    | null | bool | int | float | other => simp [Entries.stray]
  have habsent : (∀ key ∈ keys, m.get? key = none) ↔ ∀ e ∈ m, ∀ key ∈ keys, e.1 ≠ .str key := by
    constructor
    · intro hnone e he key hmem heq
      have hlookup := hnone key hmem
      unfold Entries.get? at hlookup
      have hdiff := List.lookup_eq_none_iff.mp hlookup e he
      simp [heq] at hdiff
    · intro hne key hmem
      exact List.lookup_eq_none_iff.mpr fun e he => by
        simpa using Ne.symm (hne e he key hmem)
  simp only [record, Bool.and_eq_true, decide_eq_true_eq, hkey, hstray, habsent, List.all_eq_true,
    List.mem_filter]
  constructor
  · rintro ⟨hkeys, hfits⟩
    refine ⟨⟨fun e he => (hkeys e he).1, fun f hf => ?_⟩, fun e he => (hkeys e he).2⟩
    by_cases hmem : f.name ∈ keys
    · have hget := habsent.mpr (fun e he => (hkeys e he).2) f.name hmem
      simp [Field.fits, hget, h f hf hmem]
    · exact hfits f ⟨hf, hmem⟩
  · rintro ⟨⟨hkeys, hfits⟩, hne⟩
    exact ⟨fun e he => ⟨hkeys e he, hne e he⟩, fun f hf => hfits f hf.1⟩

end Lang

end Doc
