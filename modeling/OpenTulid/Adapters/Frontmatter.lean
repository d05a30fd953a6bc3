/-
The text of a note: a frontmatter between two fences and a body below.

A note is split into its lines, the values between the fences are given to
the YAML reader, and the lines below are put together again with newlines.
Writing puts the sorted values and the body behind each other. The YAML
library is a parameter: what it reads of a text and what it writes for a
mapping. Texts are as reading a file gives them.
-/
import OpenTulid.Adapters.Boards
import OpenTulid.Runtime.Baseline

namespace OpenTulid.Obsidian

open Boards (fence stripped)
open Frozen (Key PyValue Entries)
open Frozen.Prompt (Text joined splitlines)

/-- What the adapter uses of the language and of the YAML library. -/
structure Python where
  /-- `yaml.load`: a value, or the text of what it raises -/
  load : Text → Except String PyValue
  /-- `yaml.dump` of a mapping -/
  dump : Entries → Text
  /-- `str` and `repr` of a value -/
  str : PyValue → Text
  repr : Text → Text
  str_str : ∀ s, str (.str s) = s.toList

-- =============================================================== mappings

/-- The value of a text key. -/
def get? (values : Entries) (key : String) : Option PyValue :=
  match values with
  | [] => none
  | (.str k, v) :: rest => if k = key then some v else get? rest key
  | _ :: rest => get? rest key

/-- `values.get(key)` -/
def get (values : Entries) (key : String) : PyValue := (get? values key).getD .none

/-- `values[key] = value` -/
def set (values : Entries) (key : String) (value : PyValue) : Entries :=
  match values with
  | [] => [(.str key, value)]
  | (.str k, v) :: rest =>
      if k = key then (.str k, value) :: rest else (.str k, v) :: set rest key value
  | e :: rest => e :: set rest key value

/-- A value counts as true. -/
def truthy : PyValue → Bool
  | .none => false
  | .bool b => b
  | .int n => n ≠ 0
  | .float f => f.chars ≠ "0.0".toList && f.chars ≠ "-0.0".toList
  | .str s => s ≠ ""
  | .list items => !items.isEmpty
  | .tuple items => !items.isEmpty
  | .dict entries => !entries.isEmpty
  | .other _ => true

/-- The order of the keys of two entries. -/
def byText (e f : Key × PyValue) : Prop := e.1.text ≤ f.1.text

instance : DecidableRel byText := fun e f => inferInstanceAs (Decidable (e.1.text ≤ f.1.text))

/-- The entries in the order of their keys; `none` where texts and other keys
do not compare. A mapping that is written has a text key. -/
def sortedEntries (values : Entries) : Option Entries :=
  if values.all (·.1.isString) then some (values.insertionSort byText) else none

-- ================================================================== texts

/-- `text.strip("\n")` -/
def stripNewlines (text : Text) : Text := (text.dropWhile (· = '\n')).rdropWhile (· = '\n')

/-- `text.rstrip("\n")` -/
def rstripNewlines (text : Text) : Text := text.rdropWhile (· = '\n')

section Notes

variable (py : Python)

/-- `_parse_frontmatter` -/
def parseFrontmatter (source : Text) : Except String Entries :=
  if stripped source = [] then .ok []
  else match py.load source with
    | .error exc => .error s!"Task frontmatter is not valid YAML: {exc}"
    | .ok (.dict entries) => .ok entries
    | .ok _ => .ok []

/-- `_split_frontmatter` -/
def splitFrontmatter (content : Text) : Except String (Entries × Text) :=
  match splitlines content with
  | [] => .ok ([], content)
  | first :: rest =>
      if stripped first ≠ fence then .ok ([], content)
      else match rest.findIdx? fun line => stripped line = fence with
        | some idx => do
            let frontmatter ← parseFrontmatter py (joined "\n" (rest.take idx))
            .ok (frontmatter, stripNewlines (joined "\n" (rest.drop (idx + 1))))
        | none => .ok ([], content)

/-- `_serialize_frontmatter`; `none` where sorting raises. -/
def serializeFrontmatter (values : Entries) : Option Text :=
  (sortedEntries values).map fun sorted =>
    "---\n".toList ++ rstripNewlines (py.dump sorted) ++ "\n---".toList

/-- `_serialize_task_document` -/
def serializeTaskDocument (frontmatter : Entries) (body : Text) : Option Text :=
  (serializeFrontmatter py frontmatter).map fun content =>
    if stripNewlines body = [] then content ++ ['\n']
    else content ++ "\n\n".toList ++ stripNewlines body ++ ['\n']

end Notes

-- ================================================================= numbers

/-- `NUMERIC_TASK_ID_RE`, of a stripped text. -/
def isNumericTaskId : Text → Bool
  | [] => false
  | c :: rest => ('1' ≤ c && c ≤ '9') && rest.all fun c => '0' ≤ c && c ≤ '9'

/-- The number of a text of digits. -/
def numberOf (text : Text) : Int :=
  text.foldl (fun n c => n * 10 + (c.toNat - 48 : Nat)) 0

/-- `int` of a numeric id; `none` raises. -/
def intOfText (text : Text) : Option Int :=
  if text.length ≤ Baseline.maxStrDigits then some (numberOf text) else none

/-- `str` of an integer; `none` raises. -/
def textOfInt (n : Int) : Option Text :=
  if (Nat.toDigits 10 n.natAbs).length ≤ Baseline.maxStrDigits then some (Json.intText n) else none

/-- The number of an id, if it has one; `none` raises. -/
def numericId : PyValue → Option (Option Int)
  | .int n => some (some n)
  | .bool b => some (some (if b then 1 else 0))
  | .str s =>
      if isNumericTaskId (stripped s.toList) then (intOfText (stripped s.toList)).map some else some none
  | _ => some none

end OpenTulid.Obsidian
