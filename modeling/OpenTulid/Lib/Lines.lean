/-
Append-only files of one record a line, where a write may stop anywhere.

A `Lines` is what a file holds: its ended lines, and the text after the last
line end. Either is a sequence of fragments, the whole text of a record or a
torn part of one: records are written behind whatever stands in the last
line, so a torn record and the next whole one come to share a line. A line
reads as a record exactly when it is the whole text of one.

`appendAll` writes lines to their end, `appendTorn` stops on the way.
Nothing that is written adds more than what is appended, in its order
(`items_appendAll_sublist`, `items_appendTorn_sublist`); behind a line end
everything appended is added (`items_appendAll`).
-/
import Mathlib.Data.List.Sublists

/-- A line, ended or not: whole texts of records and torn parts (`none`). -/
abbrev Line (α : Type) : Type := List (Option α)

namespace Line

variable {α : Type}

/-- The record a line reads as. -/
def read : Line α → Option α
  | [some a] => some a
  | _ => none

@[simp] theorem read_nil : read ([] : Line α) = none := rfl

@[simp] theorem read_whole (a : α) : read [some a] = some a := rfl

@[simp] theorem read_torn : read ([none] : Line α) = none := rfl

/-- What is written behind a fragment makes no record of the line. -/
theorem read_append_of_ne_nil {l : Line α} (h : l ≠ []) (x : Option α) :
    read (l ++ [x]) = none := by
  cases l with
  | nil => exact absurd rfl h
  | cons y rest =>
      cases rest with
      | nil => cases y <;> rfl
      | cons z rest => cases y <;> rfl

/-- A fragment written to a line leaves at most what it is itself. -/
theorem read_append_sublist (l : Line α) (x : Option α) :
    (read (l ++ [x])).toList.Sublist ((read l).toList ++ x.toList) := by
  by_cases h : l = []
  · subst h
    cases x <;> simp
  · rw [read_append_of_ne_nil h]
    exact List.nil_sublist _

end Line

/-- A file of lines, and what stands after its last line end. -/
structure Lines (α : Type) where
  ended : List (Line α)
  tail : Line α
  deriving DecidableEq, Repr

/-- How much of the first line that was not ended reached the file. -/
inductive Cut where
  | nothing
  | part
  | text
  deriving DecidableEq, Repr

namespace Cut

variable {α : Type}

/-- The fragment a write that was cut leaves of the line it had come to. -/
def fragment : Cut → Option α → Option (Option α)
  | .part, some _ => some none
  | .text, some a => some (some a)
  | _, _ => none

/-- What a cut write leaves of a line is at most the line. -/
theorem fragment_sublist {cut : Cut} {line : Option α} {x : Option α}
    (h : fragment cut line = some x) : x.toList.Sublist line.toList := by
  cases line with
  | none => cases cut <;> cases h
  | some a =>
      cases cut with
      | nothing => cases h
      | part =>
          cases h
          exact List.nil_sublist _
      | text =>
          cases h
          exact List.Sublist.refl _

end Cut

namespace Lines

variable {α : Type}

/-- The file without a line. -/
def empty : Lines α := ⟨[], []⟩

/-- The records that can be read in a file, in the order of its lines. -/
def items (f : Lines α) : List α := (f.ended ++ [f.tail]).filterMap Line.read

/-- The file with a line written to its end. -/
def append (f : Lines α) (a : α) : Lines α :=
  ⟨f.ended ++ [f.tail ++ [some a]], []⟩

/-- The file with lines written to their ends. -/
def appendAll (f : Lines α) (lines : List α) : Lines α :=
  lines.foldl append f

/-- The file with a fragment written. -/
def fragment (f : Lines α) (x : Option α) : Lines α :=
  { f with tail := f.tail ++ [x] }

/-- The file with a write of lines stopped after `n` of them. -/
def appendTorn (f : Lines α) (lines : List α) (n : Nat) (cut : Cut) :
    Lines α :=
  match Cut.fragment cut lines[n]? with
  | some x => (f.appendAll (lines.take n)).fragment x
  | none => f.appendAll (lines.take n)

-- ==================================================== what can be read

@[simp] theorem items_empty : (empty : Lines α).items = [] := rfl

/-- What is read in the ended lines, and what in the last. -/
theorem items_eq (f : Lines α) :
    f.items = f.ended.filterMap Line.read ++ f.tail.read.toList := by
  unfold items
  rw [List.filterMap_append]
  cases h : f.tail.read <;> simp [h]

theorem items_append (f : Lines α) (a : α) :
    (f.append a).items
      = f.ended.filterMap Line.read ++ (Line.read (f.tail ++ [some a])).toList := by
  rw [items_eq]
  unfold append
  rw [List.filterMap_append]
  cases h : Line.read (f.tail ++ [some a]) <;> simp [h]

/-- Behind a line end a written line is read. -/
theorem items_append_of_tail {f : Lines α} (h : f.tail = []) (a : α) :
    (f.append a).items = f.items ++ [a] := by
  rw [items_append, items_eq, h]
  simp

theorem items_append_sublist (f : Lines α) (a : α) :
    (f.append a).items.Sublist (f.items ++ [a]) := by
  rw [items_append, items_eq, List.append_assoc]
  exact (List.Sublist.refl _).append (Line.read_append_sublist f.tail (some a))

theorem items_fragment_sublist (f : Lines α) (x : Option α) :
    (f.fragment x).items.Sublist (f.items ++ x.toList) := by
  rw [items_eq, items_eq, List.append_assoc]
  exact (List.Sublist.refl _).append (Line.read_append_sublist f.tail x)

/-- A torn part behind a line end is no record. -/
theorem items_fragment_torn {f : Lines α} (h : f.tail = []) :
    (f.fragment none).items = f.items := by
  rw [items_eq, items_eq]
  unfold fragment
  rw [h]
  rfl

@[simp] theorem appendAll_nil (f : Lines α) : f.appendAll [] = f := rfl

theorem appendAll_cons (f : Lines α) (a : α) (lines : List α) :
    f.appendAll (a :: lines) = (f.append a).appendAll lines := rfl

/-- Lines leave a line end behind. -/
theorem tail_appendAll {f : Lines α} (h : f.tail = []) (lines : List α) :
    (f.appendAll lines).tail = [] := by
  induction lines generalizing f with
  | nil => exact h
  | cons a rest ih => exact ih (f := f.append a) rfl

/-- Behind a line end every written line is read, in order. -/
theorem items_appendAll {f : Lines α} (h : f.tail = []) (lines : List α) :
    (f.appendAll lines).items = f.items ++ lines := by
  induction lines generalizing f with
  | nil => simp
  | cons a rest ih =>
      rw [appendAll_cons, ih rfl, items_append_of_tail h, List.append_assoc]
      rfl

/-- Lines add at most themselves, in their order. -/
theorem items_appendAll_sublist (f : Lines α) (lines : List α) :
    (f.appendAll lines).items.Sublist (f.items ++ lines) := by
  induction lines generalizing f with
  | nil => simp
  | cons a rest ih =>
      rw [appendAll_cons]
      refine (ih (f.append a)).trans ?_
      have := (items_append_sublist f a).append (List.Sublist.refl rest)
      simpa using this

/-- A write that stops adds at most a prefix of its lines. -/
theorem items_appendTorn_sublist (f : Lines α) (lines : List α) (n : Nat)
    (cut : Cut) :
    (f.appendTorn lines n cut).items.Sublist (f.items ++ lines) := by
  have htake := items_appendAll_sublist f (lines.take n)
  unfold appendTorn
  cases hx : Cut.fragment cut lines[n]? with
  | none => exact htake.trans ((List.Sublist.refl _).append (List.take_sublist n lines))
  | some x =>
      have hlines : (lines.take n ++ x.toList).Sublist lines := by
        have hstep : (lines.take n ++ x.toList).Sublist (lines.take (n + 1)) := by
          rw [List.take_add_one]
          exact (List.Sublist.refl _).append (Cut.fragment_sublist hx)
        exact hstep.trans (List.take_sublist _ _)
      have hfragment := items_fragment_sublist (f.appendAll (lines.take n)) x
      have hall := htake.append (List.Sublist.refl x.toList)
      rw [List.append_assoc] at hall
      exact (hfragment.trans hall).trans ((List.Sublist.refl _).append hlines)

/-- Behind a line end a write that stops loses nothing. -/
theorem items_sublist_appendTorn {f : Lines α} (h : f.tail = [])
    (lines : List α) (n : Nat) (cut : Cut) :
    f.items.Sublist (f.appendTorn lines n cut).items := by
  have htake : f.items.Sublist (f.appendAll (lines.take n)).items := by
    rw [items_appendAll h]
    exact List.sublist_append_left _ _
  unfold appendTorn
  split
  next x _ =>
    refine htake.trans ?_
    rw [items_eq, items_eq, tail_appendAll h]
    exact (List.Sublist.refl _).append (List.nil_sublist _)
  next => exact htake

/-- A write that stops before the end of a first text adds nothing behind a
line end. -/
theorem items_appendTorn_zero {f : Lines α} (h : f.tail = []) (lines : List α)
    {cut : Cut} (hcut : cut ≠ .text) :
    (f.appendTorn lines 0 cut).items = f.items := by
  unfold appendTorn
  cases hline : lines[0]? with
  | none => cases cut <;> rfl
  | some a =>
      cases cut with
      | nothing => rfl
      | part => exact items_fragment_torn h
      | text => exact absurd rfl hcut

end Lines
