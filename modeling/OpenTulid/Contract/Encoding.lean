/-
Values and what comes back of them through a JSON file.

# Writing

`fileJson` is the value that stands in a file which `json.dump` writes without
a rule for other objects, before its entries are sorted; reading the file
gives `Json.canon` of it.

# The same value

`SameJson` is the identification that a JSON file makes by itself: a tuple is
the list of its items and a mapping has no order. A key that is no string has
no counterpart. `sameJson_canon_iff` says that a value comes back as the same
if and only if its keys are strings.
-/
import OpenTulid.Contract.Values

namespace OpenTulid.Frozen

open Json (FloatText Fields)

mutual

/-- What `json.dump(…, sort_keys=True)` writes for a value; `none` where it
raises. -/
def fileJson : PyValue → Option Json
  | .none => some .null
  | .bool b => some (.bool b)
  | .int n => some (.int n)
  | .float f => some (.float f)
  | .str s => some (.str s)
  | .list items => (fileItems items).map .arr
  | .tuple items => (fileItems items).map .arr
  | .dict entries =>
      if sortable entries then (fileEntries entries).map .obj else none
  | .other _ => none

/-- The items of an array in the file. -/
def fileItems : List PyValue → Option (List Json)
  | [] => some []
  | v :: items =>
      match fileJson v, fileItems items with
      | some j, some js => some (j :: js)
      | _, _ => none

/-- The entries of an object in the file. -/
def fileEntries : List (Key × PyValue) → Option Fields
  | [] => some []
  | (key, v) :: entries =>
      match key.dumped, fileJson v, fileEntries entries with
      | some text, some j, some fields => some ((text, j) :: fields)
      | _, _, _ => none

end

mutual

/-- Every key in the value is a string. -/
def Textual : PyValue → Prop
  | .list items => TextualItems items
  | .tuple items => TextualItems items
  | .dict entries => TextualEntries entries
  | _ => True

def TextualItems : List PyValue → Prop
  | [] => True
  | v :: items => Textual v ∧ TextualItems items

def TextualEntries : List (Key × PyValue) → Prop
  | [] => True
  | (key, v) :: entries => (∃ s, key = .str s) ∧ Textual v ∧ TextualEntries entries

end

-- ========================================================= the same value

mutual

/-- A value and the JSON value that stands for it. -/
inductive SameJson : PyValue → Json → Prop
  | none : SameJson .none .null
  | bool (b : Bool) : SameJson (.bool b) (.bool b)
  | int (n : Int) : SameJson (.int n) (.int n)
  | float (f : FloatText) : SameJson (.float f) (.float f)
  | str (s : String) : SameJson (.str s) (.str s)
  | list {items : List PyValue} {js : List Json} : SameItems items js →
      SameJson (.list items) (.arr js)
  | tuple {items : List PyValue} {js : List Json} : SameItems items js →
      SameJson (.tuple items) (.arr js)
  | dict {entries : List (Key × PyValue)} {fields fields' : Fields} :
      SameEntries entries fields → fields'.Perm fields → SameJson (.dict entries) (.obj fields')

/-- Item by item. -/
inductive SameItems : List PyValue → List Json → Prop
  | nil : SameItems [] []
  | cons {v : PyValue} {j : Json} {items : List PyValue} {js : List Json} : SameJson v j →
      SameItems items js → SameItems (v :: items) (j :: js)

/-- Entry by entry; every key is a string. -/
inductive SameEntries : List (Key × PyValue) → Fields → Prop
  | nil : SameEntries [] []
  | cons {key : String} {v : PyValue} {j : Json} {entries : List (Key × PyValue)}
      {fields : Fields} : SameJson v j → SameEntries entries fields →
      SameEntries ((.str key, v) :: entries) ((key, j) :: fields)

end

mutual

theorem textual_of_same {v : PyValue} {j : Json} : SameJson v j → Textual v
  | .none => trivial
  | .bool _ => trivial
  | .int _ => trivial
  | .float _ => trivial
  | .str _ => trivial
  | .list h => textualItems_of_same h
  | .tuple h => textualItems_of_same h
  | .dict h _ => textualEntries_of_same h

theorem textualItems_of_same {items : List PyValue} {js : List Json} :
    SameItems items js → TextualItems items
  | .nil => trivial
  | .cons h hs => ⟨textual_of_same h, textualItems_of_same hs⟩

theorem textualEntries_of_same {entries : List (Key × PyValue)} {fields : Fields} :
    SameEntries entries fields → TextualEntries entries
  | .nil => trivial
  | .cons h hs => ⟨⟨_, rfl⟩, textual_of_same h, textualEntries_of_same hs⟩

end

theorem fileItems_cons_eq_some {v : PyValue} {items : List PyValue} {js : List Json}
    (h : fileItems (v :: items) = some js) :
    ∃ j rest, fileJson v = some j ∧ fileItems items = some rest ∧ js = j :: rest := by
  rw [fileItems] at h
  split at h
  next j rest hj hrest =>
    cases h
    exact ⟨j, rest, hj, hrest, rfl⟩
  next => cases h

theorem fileEntries_cons_eq_some {key : Key} {v : PyValue} {entries : List (Key × PyValue)}
    {fields : Fields} (h : fileEntries ((key, v) :: entries) = some fields) :
    ∃ text j rest, key.dumped = some text ∧ fileJson v = some j ∧
      fileEntries entries = some rest ∧ fields = (text, j) :: rest := by
  rw [fileEntries] at h
  split at h
  next text j rest htext hj hrest =>
    cases h
    exact ⟨text, j, rest, htext, hj, hrest, rfl⟩
  next => cases h

mutual

/-- What is read back of a value with string keys is the same value. -/
theorem sameJson_canon : ∀ (v : PyValue) (j : Json), fileJson v = some j → Textual v →
    SameJson v j.canon
  | .none, _, rfl, _ => .none
  | .bool b, _, rfl, _ => .bool b
  | .int n, _, rfl, _ => .int n
  | .float f, _, rfl, _ => .float f
  | .str s, _, rfl, _ => .str s
  | .list items, j, h, htextual => by
      rw [fileJson] at h
      obtain ⟨js, hjs, rfl⟩ := Option.map_eq_some_iff.mp h
      exact .list (sameItems_canon items js hjs htextual)
  | .tuple items, j, h, htextual => by
      rw [fileJson] at h
      obtain ⟨js, hjs, rfl⟩ := Option.map_eq_some_iff.mp h
      exact .tuple (sameItems_canon items js hjs htextual)
  | .dict entries, j, h, htextual => by
      rw [fileJson] at h
      split at h
      next =>
        obtain ⟨fields, hfields, rfl⟩ := Option.map_eq_some_iff.mp h
        rw [Json.canon]
        exact .dict (sameEntries_canon entries fields hfields htextual)
          (List.perm_insertionSort _ _)
      next => cases h
  | .other _, _, h, _ => by cases h

theorem sameItems_canon : ∀ (items : List PyValue) (js : List Json),
    fileItems items = some js → TextualItems items → SameItems items (Json.canonItems js)
  | [], _, rfl, _ => .nil
  | v :: items, js, h, htextual => by
      obtain ⟨j, rest, hj, hrest, rfl⟩ := fileItems_cons_eq_some h
      exact .cons (sameJson_canon v j hj htextual.1) (sameItems_canon items rest hrest htextual.2)

theorem sameEntries_canon : ∀ (entries : List (Key × PyValue)) (fields : Fields),
    fileEntries entries = some fields → TextualEntries entries →
      SameEntries entries (Json.canonFields fields)
  | [], _, rfl, _ => .nil
  | (key, v) :: entries, fields, h, htextual => by
      obtain ⟨text, j, rest, htext, hj, hrest, rfl⟩ := fileEntries_cons_eq_some h
      obtain ⟨⟨s, rfl⟩, hv, hothers⟩ := htextual
      cases htext
      exact .cons (sameJson_canon v j hj hv) (sameEntries_canon entries rest hrest hothers)

end

/-- A value comes back as the same if and only if its keys are strings. -/
theorem sameJson_canon_iff {v : PyValue} {j : Json} (h : fileJson v = some j) :
    SameJson v j.canon ↔ Textual v :=
  ⟨textual_of_same, sameJson_canon v j h⟩

/-- A mapping is an object in the file. -/
theorem fileJson_dict {entries : List (Key × PyValue)} {j : Json}
    (h : fileJson (.dict entries) = some j) : ∃ fields : Fields, j = .obj fields := by
  rw [fileJson] at h
  split at h
  next =>
    obtain ⟨fields, -, rfl⟩ := Option.map_eq_some_iff.mp h
    exact ⟨fields, rfl⟩
  next => cases h

end OpenTulid.Frozen
