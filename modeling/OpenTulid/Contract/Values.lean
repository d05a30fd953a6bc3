/-
The values a frozen contract carries along without a look inside: a task's
metadata and the arguments of calls.

# Two forms

In memory a value is a `PyValue`: a frontmatter gives lists, mappings with
keys of any kind and dates, a compiled workflow tuples. Stored it is JSON.
`jsonValue` takes it there, `ofJson` is what comes back. A value that comes
back as it was is `plain`.

# Reading fields

What a decoder asks of a field (`requiredString`, `stringTuple`, …) raises a
`ValueError` with the text given here. What `str` and `int` make of a value
that is no string and no integer is left open in `Builtins`.
-/
import OpenTulid.Lib.Json

namespace OpenTulid.Frozen

open Json (FloatText Fields)

-- ================================================================ values

/-- A key of a dictionary. -/
inductive Key where
  | str (s : String)
  | none
  | bool (b : Bool)
  | int (n : Int)
  | float (f : FloatText)
  /-- a date, a tuple -/
  | other (text : String)

/-- A value of the program. -/
inductive PyValue where
  | none
  | bool (b : Bool)
  | int (n : Int)
  | float (f : FloatText)
  | str (s : String)
  | list (items : List PyValue)
  | tuple (items : List PyValue)
  | dict (entries : List (Key × PyValue))
  /-- a date, a set, with its `str` -/
  | other (text : String)

/-- The entries of a dictionary. -/
abbrev Entries := List (Key × PyValue)

/-- `str` of a key. -/
def Key.text : Key → String
  | .str s => s
  | .none => "None"
  | .bool true => "True"
  | .bool false => "False"
  | .int n => String.ofList (Json.intText n)
  | .float f => String.ofList f.chars
  | .other text => text

mutual

/-- `_json_value`. -/
def jsonValue : PyValue → Json
  | .none => .null
  | .bool b => .bool b
  | .int n => .int n
  | .float f => .float f
  | .str s => .str s
  | .list items => .arr (jsonItems items)
  | .tuple items => .arr (jsonItems items)
  | .dict entries => .obj (jsonFields [] entries)
  | .other text => .str text

/-- `_json_value` of the items of a list or a tuple. -/
def jsonItems : List PyValue → List Json
  | [] => []
  | item :: items => jsonValue item :: jsonItems items

/-- `_json_value` of a mapping: a key that has the text of an earlier one
takes its place. -/
def jsonFields (fields : Fields) : List (Key × PyValue) → Fields
  | [] => fields
  | (key, value) :: entries => jsonFields (fields.set key.text (jsonValue value)) entries

end

mutual

/-- A stored value as it is read again. -/
def ofJson : Json → PyValue
  | .null => .none
  | .bool b => .bool b
  | .int n => .int n
  | .float f => .float f
  | .str s => .str s
  | .arr items => .list (ofItems items)
  | .obj fields => .dict (ofFields fields)

/-- The items of a list, read again. -/
def ofItems : List Json → List PyValue
  | [] => []
  | item :: items => ofJson item :: ofItems items

/-- The entries of a mapping, read again. -/
def ofFields : List (String × Json) → List (Key × PyValue)
  | [] => []
  | (key, value) :: fields => (.str key, ofJson value) :: ofFields fields

end

/-- The key is a string. -/
def Key.isString : Key → Bool
  | .str _ => true
  | _ => false

mutual

/-- The value has a form in JSON: its lists are no tuples, and the keys of
its dictionaries are strings (no two the same, as in any dictionary). -/
def PyValue.plain : PyValue → Bool
  | .none | .bool _ | .int _ | .float _ | .str _ => true
  | .list items => plainItems items
  | .dict entries => plainEntries entries
  | .tuple _ | .other _ => false

/-- The items of a list have. -/
def plainItems : List PyValue → Bool
  | [] => true
  | item :: items => item.plain && plainItems items

/-- The entries of a dictionary have. -/
def plainEntries : List (Key × PyValue) → Bool
  | [] => true
  | (key, value) :: entries =>
      key.isString && key.text ∉ entries.map (·.1.text) && value.plain && plainEntries entries

end

-- ======================================================= json.dumps

/-- `json.dumps` has a text for a key. -/
def Key.dumped (key : Key) : Option String :=
  match key with
  | .str s => some s
  | .none => some "null"
  | .bool true => some "true"
  | .bool false => some "false"
  | .int n => some (String.ofList (Json.intText n))
  | .float f => some (String.ofList f.chars)
  | .other _ => Option.none

/-- The key is a number, as keys are compared. -/
def Key.isNumber : Key → Bool
  | .bool _ | .int _ | .float _ => true
  | _ => false

/-- The keys of a dictionary can be sorted. -/
def sortable (entries : List (Key × PyValue)) : Bool :=
  entries.length ≤ 1 || entries.all (·.1.isString) || entries.all (·.1.isNumber)

mutual

/-- What `json.dumps(…, sort_keys=True, default=str)` writes for a value, if
its keys can be sorted and written. -/
def dumped : PyValue → Option Json
  | .none => some .null
  | .bool b => some (.bool b)
  | .int n => some (.int n)
  | .float f => some (.float f)
  | .str s => some (.str s)
  | .list items => (dumpedItems items).map .arr
  | .tuple items => (dumpedItems items).map .arr
  | .dict entries =>
      if sortable entries then (dumpedEntries entries).map .obj else Option.none
  | .other text => some (.str text)

/-- The items of a list or a tuple. -/
def dumpedItems : List PyValue → Option (List Json)
  | [] => some []
  | item :: items => do
      let v ← dumped item
      let vs ← dumpedItems items
      return v :: vs

/-- The entries of a dictionary. -/
def dumpedEntries : List (Key × PyValue) → Option Fields
  | [] => some []
  | (key, value) :: entries => do
      let k ← key.dumped
      let v ← dumped value
      let es ← dumpedEntries entries
      return (k, v) :: es

end

-- ======================================================== reading fields

/-- What `str` and `int` make of a stored value. -/
structure Builtins where
  str : Json → String
  int : Json → Except String Int
  str_str : ∀ s, str (.str s) = s
  int_int : ∀ n, int (.int n) = .ok n

/-- Strings and integers, and nothing of other values. -/
def strictBuiltins : Builtins where
  str
    | .str s => s
    | _ => ""
  int
    | .int n => .ok n
    | _ => .error "not an integer"
  str_str _ := rfl
  int_int _ := rfl

/-- A stored value counts as true. -/
def truthy : Json → Bool
  | .null => false
  | .bool b => b
  | .int n => n ≠ 0
  | .float f => f.chars ≠ "0.0".toList && f.chars ≠ "-0.0".toList
  | .str s => s ≠ ""
  | .arr items => !items.isEmpty
  | .obj fields => !fields.isEmpty

/-- A stored value equals an integer. -/
def equalsInt (n : Int) : Json → Bool
  | .int m => m = n
  | .bool b => (if b then 1 else 0) = n
  | .float f => f.chars = Json.intText n ++ ['.', '0']
  | _ => false

/-- A check: what does not hold raises. -/
def demand (holds : Prop) [Decidable holds] (text : String) : Except String Unit :=
  if holds then .ok () else .error text

/-- `_mapping`. -/
def mapping (name : String) : Json → Except String Fields
  | .obj fields => .ok fields
  | _ => .error s!"{name} must be an object"

/-- `_required_string`. -/
def requiredString (fields : Fields) (key : String) : Except String String :=
  match fields.get key with
  | .str s => if s = "" then .error s!"{key} must be a non-empty string" else .ok s
  | _ => .error s!"{key} must be a non-empty string"

/-- `_string_tuple`. -/
def stringTuple (B : Builtins) : Json → Except String (List String)
  | .null => .ok []
  | .arr items =>
      let values := items.map B.str
      if "" ∈ values then .error "list values must be non-empty strings" else .ok values
  | _ => .error "value must be a list of strings"

/-- A value that may be null but is a string otherwise. -/
def stringOrNull (text : String) : Json → Except String (Option String)
  | .null => .ok none
  | .str s => .ok (some s)
  | _ => .error text

/-- A list, empty when it is absent. -/
def listOf (text : String) : Option Json → Except String (List Json)
  | none => .ok []
  | some (.arr items) => .ok items
  | some _ => .error text

/-- A mapping, empty when it is absent. -/
def objectOf (text : String) : Option Json → Except String Fields
  | none => .ok []
  | some (.obj fields) => .ok fields
  | some _ => .error text

/-- `_optional_int_value`. -/
def optionalIntValue : Json → Except String (Option Int)
  | .null => .ok none
  | .int n => .ok (some n)
  | _ => .error "value must be an integer or null"

/-- `_optional_string_value`. -/
def optionalStringValue : Json → Except String (Option String)
  | .null => .ok none
  | .str s => .ok (if s = "" then none else some s)
  | _ => .error "value must be a string or null"

/-- A field that is read without a look at its kind: none stands for null. -/
abbrev Given := { v : Json // v ≠ .null }

/-- A field so read. -/
def given : Json → Option Given
  | .null => none
  | .bool b => some ⟨.bool b, nofun⟩
  | .int n => some ⟨.int n, nofun⟩
  | .float f => some ⟨.float f, nofun⟩
  | .str s => some ⟨.str s, nofun⟩
  | .arr items => some ⟨.arr items, nofun⟩
  | .obj fields => some ⟨.obj fields, nofun⟩

/-- A list of strings, stored. -/
def strings (values : List String) : Json := .arr (values.map .str)

/-- A string or null, stored. -/
def orNull : Option String → Json
  | none => .null
  | some s => .str s

end OpenTulid.Frozen
