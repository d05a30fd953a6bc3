/-
Finite stores: records under ordered keys, listed in the order of the keys.

A `Store κ α` is the list of its entries in strictly increasing order of
key, so that a store is its own listing (a directory read in sorted order)
and two stores with the same records are equal (`Store.ext_get`). `put`
writes one record, `erase` removes one, and `get` reads one; the lemmas say
what each of them leaves of the others. A `Table` is a store whose records
carry their own keys, as records in files named after them do.
-/
import Mathlib.Algebra.GroupWithZero.Nat
import Mathlib.Order.Lattice
import Mathlib.Data.List.Pairwise

-- The equality of the keys in use, which are names, paths and pairs of names.
instance lawfulBEqText : LawfulBEq (List Char) := inferInstance

instance lawfulBEqPath : LawfulBEq (List String) := inferInstance

instance lawfulBEqPair : LawfulBEq (String × String) := inferInstance

variable {κ α : Type} [LinearOrder κ]

/-- Records of `α` under keys of `κ`, in increasing order of key. -/
structure Store (κ α : Type) [LinearOrder κ] where
  entries : List (κ × α)
  sorted : entries.Pairwise fun a b => a.1 < b.1

namespace Store

-- ================================================= the entry lists

/-- The record under a key in a list of entries. -/
def getEntry (k : κ) : List (κ × α) → Option α
  | [] => none
  | (j, a) :: rest => if k = j then some a else getEntry k rest

/-- The list with the record under `k` written. -/
def putEntry (k : κ) (a : α) : List (κ × α) → List (κ × α)
  | [] => [(k, a)]
  | (j, b) :: rest =>
      if k < j then (k, a) :: (j, b) :: rest
      else if k = j then (k, a) :: rest
      else (j, b) :: putEntry k a rest

/-- A written entry is the new one or an old one. -/
theorem mem_putEntry {k : κ} {a : α} {l : List (κ × α)} {e : κ × α}
    (h : e ∈ putEntry k a l) : e = (k, a) ∨ e ∈ l := by
  induction l with
  | nil =>
      simp only [putEntry, List.mem_singleton] at h
      exact Or.inl h
  | cons head rest ih =>
      obtain ⟨j, b⟩ := head
      simp only [putEntry] at h
      split at h
      · simpa using h
      · split at h
        · rcases List.mem_cons.mp h with h | h
          · exact Or.inl h
          · exact Or.inr (List.mem_cons_of_mem _ h)
        · rcases List.mem_cons.mp h with h | h
          · exact Or.inr (h ▸ List.mem_cons_self)
          · rcases ih h with h | h
            · exact Or.inl h
            · exact Or.inr (List.mem_cons_of_mem _ h)

/-- Writing keeps the order of the keys. -/
theorem sorted_putEntry (k : κ) (a : α) {l : List (κ × α)}
    (h : l.Pairwise fun x y => x.1 < y.1) :
    (putEntry k a l).Pairwise fun x y => x.1 < y.1 := by
  induction l with
  | nil => exact List.pairwise_singleton _ _
  | cons head rest ih =>
      obtain ⟨j, b⟩ := head
      obtain ⟨hhead, hrest⟩ := List.pairwise_cons.mp h
      simp only [putEntry]
      split
      next hlt =>
        refine List.pairwise_cons.mpr ⟨fun e he => ?_, h⟩
        rcases List.mem_cons.mp he with rfl | he
        · exact hlt
        · exact lt_trans hlt (hhead e he)
      next hnot =>
        split
        next heq =>
          subst heq
          exact List.pairwise_cons.mpr ⟨hhead, hrest⟩
        next hne =>
          refine List.pairwise_cons.mpr ⟨fun e he => ?_, ih hrest⟩
          rcases mem_putEntry he with rfl | he
          · exact lt_of_le_of_ne (not_lt.mp hnot) (Ne.symm hne)
          · exact hhead e he

theorem getEntry_putEntry_self (k : κ) (a : α) (l : List (κ × α)) :
    getEntry k (putEntry k a l) = some a := by
  induction l with
  | nil => simp [putEntry, getEntry]
  | cons head rest ih =>
      obtain ⟨j, b⟩ := head
      simp only [putEntry]
      split
      · simp [getEntry]
      · split
        · simp [getEntry]
        next hne => simpa [getEntry, hne] using ih

theorem getEntry_putEntry_of_ne {j k : κ} (hjk : j ≠ k) (a : α)
    (l : List (κ × α)) : getEntry j (putEntry k a l) = getEntry j l := by
  induction l with
  | nil => simp [putEntry, getEntry, hjk]
  | cons head rest ih =>
      obtain ⟨i, b⟩ := head
      simp only [putEntry]
      split
      · simp [getEntry, hjk]
      · split
        next heq => subst heq; simp [getEntry, hjk]
        · simp [getEntry, ih]

/-- Leaving out another key changes nothing under this one. -/
theorem getEntry_filter_of_ne {j k : κ} (hjk : j ≠ k)
    (l : List (κ × α)) :
    getEntry j (l.filter fun e => e.1 ≠ k) = getEntry j l := by
  induction l with
  | nil => rfl
  | cons head rest ih =>
      obtain ⟨i, b⟩ := head
      by_cases hik : i = k
      · subst hik
        simpa [getEntry, hjk] using ih
      · rw [List.filter_cons_of_pos (by simpa using hik)]
        simp only [getEntry, ih]

/-- A key is found exactly when it is listed. -/
theorem getEntry_eq_none {k : κ} {l : List (κ × α)} :
    getEntry k l = none ↔ ∀ e ∈ l, e.1 ≠ k := by
  induction l with
  | nil => simp [getEntry]
  | cons head rest ih =>
      obtain ⟨j, b⟩ := head
      simp only [getEntry]
      split
      next heq => simp [heq]
      next hne => simp [ih, Ne.symm hne]

/-- What is found under a key is listed under it. -/
theorem mem_of_getEntry {k : κ} {a : α} {l : List (κ × α)}
    (h : getEntry k l = some a) : (k, a) ∈ l := by
  induction l with
  | nil => cases h
  | cons head rest ih =>
      obtain ⟨j, b⟩ := head
      simp only [getEntry] at h
      split at h
      next heq => cases h; subst heq; exact List.mem_cons_self
      next => exact List.mem_cons_of_mem _ (ih h)

/-- What a sorted list lists under a key is found under it. -/
theorem getEntry_of_mem {k : κ} {a : α} {l : List (κ × α)}
    (hl : l.Pairwise fun x y => x.1 < y.1) (h : (k, a) ∈ l) :
    getEntry k l = some a := by
  induction l with
  | nil => cases h
  | cons head rest ih =>
      obtain ⟨j, b⟩ := head
      obtain ⟨hhead, hrest⟩ := List.pairwise_cons.mp hl
      rcases List.mem_cons.mp h with heq | h
      · cases heq
        simp [getEntry]
      · have hlt : j < k := hhead _ h
        simp [getEntry, ne_of_gt hlt, ih hrest h]

/-- A key before all listed ones is not found. -/
theorem getEntry_eq_none_of_lt {j k : κ} {b : α} {l : List (κ × α)} (h : k < j)
    (hl : ((j, b) :: l).Pairwise fun x y => x.1 < y.1) :
    getEntry k ((j, b) :: l) = none := by
  refine getEntry_eq_none.mpr fun e he => ?_
  rcases List.mem_cons.mp he with rfl | he
  · exact ne_of_gt h
  · exact ne_of_gt (lt_trans h ((List.pairwise_cons.mp hl).1 e he))

/-- A record put in the place of another: the rest of the list is as it was. -/
theorem putEntry_eq_map {k : κ} {a b : α} {l : List (κ × α)}
    (hl : l.Pairwise fun x y => x.1 < y.1) (h : getEntry k l = some b) :
    putEntry k a l = l.map fun e => if e.1 = k then (k, a) else e := by
  induction l with
  | nil => cases h
  | cons head rest ih =>
      obtain ⟨j, c⟩ := head
      obtain ⟨hhead, hrest⟩ := List.pairwise_cons.mp hl
      rw [getEntry] at h
      rw [putEntry, List.map_cons]
      split at h
      next heq =>
        subst heq
        have hothers : ∀ e ∈ rest, (if e.1 = k then (k, a) else e) = e := by
          intro e he
          exact if_neg (ne_of_gt (hhead e he))
        rw [if_neg (lt_irrefl k), if_pos rfl, if_pos rfl, List.map_congr_left hothers]
        simp
      next hne =>
        have hlt : j < k := hhead _ (mem_of_getEntry h)
        rw [if_neg (not_lt_of_gt hlt), if_neg hne, if_neg (Ne.symm hne), ih hrest h]

/-- A record under a new key is put in somewhere. -/
theorem exists_putEntry_of_none {k : κ} {l : List (κ × α)} (h : getEntry k l = none) (a : α) :
    ∃ front back, l = front ++ back ∧ putEntry k a l = front ++ (k, a) :: back := by
  induction l with
  | nil => exact ⟨[], [], rfl, rfl⟩
  | cons head rest ih =>
      obtain ⟨j, b⟩ := head
      unfold getEntry at h
      split at h
      next => cases h
      next hne =>
        unfold putEntry
        by_cases hlt : k < j
        · rw [if_pos hlt]
          exact ⟨[], _, rfl, rfl⟩
        · rw [if_neg hlt, if_neg hne]
          obtain ⟨front, back, rfl, hput⟩ := ih h
          exact ⟨(j, b) :: front, back, rfl, by rw [hput]; rfl⟩

/-- What a write does to a sum over the records: the record it replaces goes
out and the written one comes in. -/
theorem sum_putEntry (f : α → Nat) (k : κ) (a : α) {l : List (κ × α)}
    (hl : l.Pairwise fun x y => x.1 < y.1) :
    ((putEntry k a l).map fun e => f e.2).sum + ((getEntry k l).map f).getD 0 =
      (l.map fun e => f e.2).sum + f a := by
  induction l with
  | nil => simp [putEntry, getEntry]
  | cons head rest ih =>
      obtain ⟨j, b⟩ := head
      have hrest := ih (List.pairwise_cons.mp hl).2
      simp only [putEntry]
      split
      next hlt =>
        rw [getEntry_eq_none_of_lt hlt hl]
        simp only [List.map_cons, List.sum_cons, Option.map_none, Option.getD_none]
        omega
      next hnot =>
        split
        next heq =>
          subst heq
          simp only [getEntry, if_true, List.map_cons, List.sum_cons,
            Option.map_some, Option.getD_some]
          omega
        next hne =>
          simp only [getEntry, hne, if_false, List.map_cons, List.sum_cons]
          omega

/-- Sorted lists that find the same records are equal. -/
theorem entries_ext {l m : List (κ × α)}
    (hl : l.Pairwise fun x y => x.1 < y.1)
    (hm : m.Pairwise fun x y => x.1 < y.1)
    (h : ∀ k, getEntry k l = getEntry k m) : l = m := by
  have hmem : ∀ e, e ∈ l ↔ e ∈ m := by
    intro e
    constructor
    · intro he
      exact mem_of_getEntry ((h e.1).symm.trans (getEntry_of_mem hl he))
    · intro he
      exact mem_of_getEntry ((h e.1).trans (getEntry_of_mem hm he))
  refine @List.Perm.eq_of_pairwise _ (fun x y => x.1 < y.1) _ _ ?_ hl hm ?_
  · intro a b _ _ hab hba
    exact absurd hab (lt_asymm hba)
  · refine (List.perm_ext_iff_of_nodup ?_ ?_).mpr hmem
    · exact hl.imp fun hlt heq => ne_of_lt hlt (congrArg Prod.fst heq)
    · exact hm.imp fun hlt heq => ne_of_lt hlt (congrArg Prod.fst heq)

-- ======================================================== the store

/-- The store without records. -/
def empty : Store κ α := ⟨[], List.Pairwise.nil⟩

instance : EmptyCollection (Store κ α) := ⟨empty⟩

instance [DecidableEq α] : DecidableEq (Store κ α) := fun s t =>
  decidable_of_iff (s.entries = t.entries) <| by
    cases s; cases t; simp

/-- The record under `k`. -/
def get (s : Store κ α) (k : κ) : Option α := getEntry k s.entries

/-- The store with the record under `k` written. -/
def put (s : Store κ α) (k : κ) (a : α) : Store κ α :=
  ⟨putEntry k a s.entries, sorted_putEntry k a s.sorted⟩

/-- The store without the record under `k`. -/
def erase (s : Store κ α) (k : κ) : Store κ α :=
  ⟨s.entries.filter fun e => e.1 ≠ k, s.sorted.filter _⟩

/-- The records in the order of their keys. -/
def values (s : Store κ α) : List α := s.entries.map Prod.snd

/-- The keys in order. -/
def keys (s : Store κ α) : List κ := s.entries.map Prod.fst

/-- The store of a list of records; of two under one key the first stands. -/
def ofList : List (κ × α) → Store κ α
  | [] => empty
  | (k, a) :: rest => (ofList rest).put k a

/-- The store with every record changed. -/
def map {β : Type} (f : α → β) (s : Store κ α) : Store κ β :=
  ⟨s.entries.map fun e => (e.1, f e.2), List.pairwise_map.mpr s.sorted⟩

/-- The store with the records that meet a condition. -/
def filter (p : α → Bool) (s : Store κ α) : Store κ α :=
  ⟨s.entries.filter fun e => p e.2, s.sorted.filter _⟩

variable {s t : Store κ α} {j k : κ} {a : α}

@[simp] theorem get_empty : (∅ : Store κ α).get k = none := rfl

@[simp] theorem get_put_self : (s.put k a).get k = some a :=
  getEntry_putEntry_self k a s.entries

theorem get_put_of_ne (h : j ≠ k) : (s.put k a).get j = s.get j :=
  getEntry_putEntry_of_ne h a s.entries

theorem get_put : (s.put k a).get j = if j = k then some a else s.get j := by
  split
  next h => rw [h, get_put_self]
  next h => exact get_put_of_ne h

@[simp] theorem get_erase_self : (s.erase k).get k = none := by
  refine getEntry_eq_none.mpr fun e he => ?_
  simpa using (List.mem_filter.mp he).2

theorem get_erase_of_ne (h : j ≠ k) : (s.erase k).get j = s.get j :=
  getEntry_filter_of_ne h s.entries

theorem get_erase : (s.erase k).get j = if j = k then none else s.get j := by
  split
  next h => rw [h, get_erase_self]
  next h => exact get_erase_of_ne h

/-- Stores with the same records are equal. -/
theorem ext_get (h : ∀ k, s.get k = t.get k) : s = t := by
  obtain ⟨l, hl⟩ := s
  obtain ⟨m, hm⟩ := t
  have : l = m := entries_ext hl hm h
  subst this
  rfl

/-- A record is found exactly when it is an entry. -/
theorem mem_entries : (k, a) ∈ s.entries ↔ s.get k = some a :=
  ⟨getEntry_of_mem s.sorted, mem_of_getEntry⟩

/-- A record is listed exactly when it stands under some key. -/
theorem mem_values : a ∈ s.values ↔ ∃ k, s.get k = some a := by
  constructor
  · intro h
    obtain ⟨⟨k, b⟩, he, rfl⟩ := List.mem_map.mp h
    exact ⟨k, mem_entries.mp he⟩
  · rintro ⟨k, h⟩
    exact List.mem_map.mpr ⟨(k, a), mem_entries.mpr h, rfl⟩

/-- What a write does to a sum over the records. -/
theorem sum_values_put (f : α → Nat) :
    ((s.put k a).values.map f).sum + ((s.get k).map f).getD 0 =
      (s.values.map f).sum + f a := by
  have h := sum_putEntry f k a s.sorted
  simpa only [put, get, values, List.map_map, Function.comp_def] using h

/-- A key is listed exactly when it has a record. -/
theorem mem_keys : k ∈ s.keys ↔ ∃ a, s.get k = some a := by
  constructor
  · intro h
    obtain ⟨⟨i, b⟩, he, rfl⟩ := List.mem_map.mp h
    exact ⟨b, mem_entries.mp he⟩
  · rintro ⟨a, h⟩
    exact List.mem_map.mpr ⟨(k, a), mem_entries.mpr h, rfl⟩

@[simp] theorem get_map {β : Type} (f : α → β) : (s.map f).get k = (s.get k).map f := by
  obtain ⟨l, hl⟩ := s
  unfold map get
  induction l with
  | nil => rfl
  | cons e rest ih =>
      simp only [List.map_cons, getEntry]
      split
      next => rfl
      next => exact ih (List.pairwise_cons.mp hl).2

@[simp] theorem values_map {β : Type} (f : α → β) : (s.map f).values = s.values.map f := by
  simp [map, values]

theorem get_filter (p : α → Bool) : (s.filter p).get k = (s.get k).filter p := by
  have hmem : ∀ a, (s.filter p).get k = some a ↔ s.get k = some a ∧ p a = true := by
    intro a
    rw [← mem_entries, ← mem_entries]
    exact List.mem_filter
  refine Option.ext fun a => ?_
  rw [hmem, Option.filter_eq_some_iff]

/-- Writing back the record that stands changes nothing. -/
theorem put_get_self (h : s.get k = some a) : s.put k a = s := by
  refine ext_get fun j => ?_
  rw [get_put]
  split
  next hj => rw [hj, h]
  next => rfl

/-- Of two writes under one key the second stands. -/
@[simp] theorem put_put (b : α) : (s.put k a).put k b = s.put k b := by
  refine ext_get fun j => ?_
  simp only [get_put]
  split <;> rfl

/-- Writes under different keys do not interfere. -/
theorem put_comm (h : j ≠ k) (b : α) :
    (s.put j b).put k a = (s.put k a).put j b := by
  refine ext_get fun i => ?_
  simp only [get_put]
  split
  next hik => subst hik; simp [Ne.symm h]
  next => rfl

end Store

-- ======================================================== the tables

/-- Records that are each filed under a key of their own. -/
structure Table {κ α : Type} [LinearOrder κ] (key : α → κ) where
  store : Store κ α
  filed : ∀ k a, store.get k = some a → key a = k

namespace Table

variable {κ α : Type} [LinearOrder κ] {key : α → κ}

instance : EmptyCollection (Table key) := ⟨⟨∅, by intro k a h; cases h⟩⟩

instance [DecidableEq α] : DecidableEq (Table key) := fun s t =>
  decidable_of_iff (s.store = t.store) <| by
    cases s; cases t; simp

/-- The record under a key. -/
def get (t : Table key) (k : κ) : Option α := t.store.get k

/-- The table with a record filed. -/
def put (t : Table key) (a : α) : Table key where
  store := t.store.put (key a) a
  filed k b h := by
    rw [Store.get_put] at h
    split at h
    next heq => cases h; exact heq.symm
    next => exact t.filed k b h

/-- The records in the order of their keys. -/
def values (t : Table key) : List α := t.store.values

/-- The table with the records that meet a condition. -/
def filter (p : α → Bool) (t : Table key) : Table key where
  store := t.store.filter p
  filed k a h := by
    rw [Store.get_filter] at h
    exact t.filed k a (Option.filter_eq_some_iff.mp h).1

variable {t : Table key} {k : κ} {a : α}

@[simp] theorem get_empty : (∅ : Table key).get k = none := rfl

/-- A record is found under its own key. -/
theorem key_of_get (h : t.get k = some a) : key a = k := t.filed k a h

theorem get_put : (t.put a).get k = if k = key a then some a else t.get k :=
  Store.get_put

@[simp] theorem get_put_self : (t.put a).get (key a) = some a :=
  Store.get_put_self

theorem get_put_of_ne (h : k ≠ key a) : (t.put a).get k = t.get k :=
  Store.get_put_of_ne h

/-- A record is listed exactly when it is found under its key. -/
theorem mem_values : a ∈ t.values ↔ t.get (key a) = some a := by
  constructor
  · intro h
    obtain ⟨k, hk⟩ := Store.mem_values.mp h
    rw [t.filed k a hk]
    exact hk
  · intro h
    exact Store.mem_values.mpr ⟨_, h⟩

/-- What filing a record does to a sum over the records. -/
theorem sum_values_put (f : α → Nat) :
    ((t.put a).values.map f).sum + ((t.get (key a)).map f).getD 0 =
      (t.values.map f).sum + f a :=
  Store.sum_values_put f

theorem get_filter (p : α → Bool) : (t.filter p).get k = (t.get k).filter p :=
  Store.get_filter p

/-- Its records are the records that meet it. -/
theorem values_filter (p : α → Bool) : (t.filter p).values = t.values.filter p := by
  unfold values filter Store.values Store.filter
  rw [List.filter_map]
  rfl

/-- Tables with the same records are equal. -/
theorem ext_get {s t : Table key} (h : ∀ k, s.get k = t.get k) : s = t := by
  have hstore : s.store = t.store := Store.ext_get h
  cases s
  cases t
  cases hstore
  rfl

end Table
