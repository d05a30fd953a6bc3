/-
Which values come back from JSON as they were, and what the fields of a
record are read as.

`returns_iff`: a value comes back if and only if it is plain. The induction
is on the value; a dictionary adds that its keys are strings and that no two
of them have one text, so that no entry takes the place of another
(`jsonFields_eq_map`).

The lemmas `…_eq_ok` invert the readers: a reader answers a value if and
only if the field holds its stored form and the value passes the check.
-/
import OpenTulid.Contract.Compile
import OpenTulid.Lib.Fallible

namespace OpenTulid.Frozen

open Json (Fields)
open Fallible

-- ======================================================== dictionaries

theorem keys_set (fields : Fields) (key : String) (v : Json) :
    (fields.set key v).map Prod.fst =
      if key ∈ fields.map Prod.fst then fields.map Prod.fst
      else fields.map Prod.fst ++ [key] := by
  induction fields with
  | nil => rfl
  | cons e fields ih =>
      obtain ⟨k, w⟩ := e
      rw [Fields.set]
      split
      next heq => simp [heq]
      next hne =>
        have hne' : key ≠ k := fun h => hne h.symm
        rw [List.map_cons, ih]
        by_cases hmem : key ∈ fields.map Prod.fst
        · simp [hmem]
        · simp [hmem, hne']

theorem Fields.set_of_not_mem {fields : Fields} {key : String} {v : Json}
    (h : key ∉ fields.map Prod.fst) : fields.set key v = fields ++ [(key, v)] := by
  induction fields with
  | nil => rfl
  | cons e fields ih =>
      obtain ⟨k, w⟩ := e
      have hne : k ≠ key := fun heq => h (by simp [heq])
      have hrest : key ∉ fields.map Prod.fst := fun hmem => h (by simp [hmem])
      rw [Fields.set, if_neg hne, ih hrest, List.cons_append]

/-- Entries with different keys keep their places. -/
theorem jsonFields_eq_map {fields : Fields} {entries : Entries}
    (h : (fields.map Prod.fst ++ entries.map (·.1.text)).Nodup) :
    jsonFields fields entries = fields ++ entries.map fun e => (e.1.text, jsonValue e.2) := by
  induction entries generalizing fields with
  | nil => simp [jsonFields]
  | cons e entries ih =>
      obtain ⟨key, value⟩ := e
      have hnew : key.text ∉ fields.map Prod.fst := by
        intro hmem
        exact (List.nodup_append.mp h).2.2 _ hmem _ List.mem_cons_self rfl
      rw [jsonFields, Fields.set_of_not_mem hnew, ih]
      · simp
      · simpa using h

/-- No key is stored twice. -/
theorem distinct_jsonFields {fields : Fields} (entries : Entries) (h : fields.Distinct) :
    Fields.Distinct (jsonFields fields entries) := by
  induction entries generalizing fields with
  | nil => exact h
  | cons e entries ih =>
      obtain ⟨key, value⟩ := e
      refine ih ?_
      unfold Fields.Distinct at h ⊢
      rw [keys_set]
      split
      next => exact h
      next hnew => exact List.nodup_append.mpr ⟨h, List.nodup_singleton _, by
          rintro a ha b hb rfl
          exact hnew (List.mem_singleton.mp hb ▸ ha)⟩

theorem ofFields_eq_map (fields : Fields) :
    ofFields fields = fields.map fun e => (Key.str e.1, ofJson e.2) := by
  induction fields with
  | nil => rfl
  | cons e fields ih =>
      rw [ofFields, ih, List.map_cons]

theorem plainEntries_iff {entries : Entries} :
    plainEntries entries = true ↔ (∀ e ∈ entries, e.1.isString = true) ∧
      (entries.map (·.1.text)).Nodup ∧ ∀ e ∈ entries, e.2.plain = true := by
  induction entries with
  | nil => simp [plainEntries]
  | cons e entries ih =>
      obtain ⟨key, value⟩ := e
      rw [plainEntries, Bool.and_eq_true, Bool.and_eq_true, Bool.and_eq_true, ih,
        decide_eq_true_eq, List.map_cons, List.nodup_cons, List.forall_mem_cons,
        List.forall_mem_cons]
      constructor
      · rintro ⟨⟨⟨hkey, hnew⟩, hvalue⟩, hkeys, hnodup, hvalues⟩
        exact ⟨⟨hkey, hkeys⟩, ⟨hnew, hnodup⟩, hvalue, hvalues⟩
      · rintro ⟨⟨hkey, hkeys⟩, ⟨hnew, hnodup⟩, hvalue, hvalues⟩
        exact ⟨⟨⟨hkey, hnew⟩, hvalue⟩, hkeys, hnodup, hvalues⟩

theorem Key.str_text {key : Key} (h : key.isString = true) : Key.str key.text = key := by
  cases key with
  | str s => rfl
  | none | bool | int | float | other => cases h

theorem map_eq_self {α : Type} {f : α → α} {l : List α} :
    l.map f = l ↔ ∀ a ∈ l, f a = a := by
  have h := List.map_inj_left (l := l) (f := f) (g := id)
  rwa [List.map_id] at h

/-- A dictionary whose values are as they should be comes back if and only
if it is plain. -/
theorem fields_return_iff {entries : Entries}
    (hvalues : ∀ e ∈ entries, (ofJson (jsonValue e.2) = e.2 ↔ e.2.plain = true)) :
    ofFields (jsonFields [] entries) = entries ↔ plainEntries entries = true := by
  rw [plainEntries_iff]
  constructor
  · intro h
    have hkeys : ∀ e ∈ entries, e.1.isString = true := by
      intro e he
      rw [← h, ofFields_eq_map] at he
      obtain ⟨f, -, rfl⟩ := List.mem_map.mp he
      rfl
    have htexts : entries.map (·.1.text) = (jsonFields [] entries).map Prod.fst := by
      conv_lhs => rw [← h, ofFields_eq_map, List.map_map]
      rfl
    have hnodup : (entries.map (·.1.text)).Nodup := by
      rw [htexts]
      exact distinct_jsonFields entries (List.nodup_nil)
    refine ⟨hkeys, hnodup, fun e he => (hvalues e he).mp ?_⟩
    rw [@jsonFields_eq_map [] _ (by simpa using hnodup), ofFields_eq_map,
      List.nil_append, List.map_map] at h
    have hsame := map_eq_self.mp h e he
    exact (Prod.mk.inj hsame).2
  · rintro ⟨hkeys, hnodup, hplain⟩
    rw [@jsonFields_eq_map [] _ (by simpa using hnodup), ofFields_eq_map,
      List.nil_append, List.map_map]
    refine map_eq_self.mpr fun e he => ?_
    exact Prod.ext (Key.str_text (hkeys e he)) ((hvalues e he).mpr (hplain e he))

mutual

/-- A value comes back as it was if and only if it is plain. -/
theorem returns_iff : ∀ v : PyValue, ofJson (jsonValue v) = v ↔ v.plain = true
  | .none | .bool _ | .int _ | .float _ | .str _ => by
      simp [jsonValue, ofJson, PyValue.plain]
  | .list items => by
      rw [jsonValue, ofJson, PyValue.plain, PyValue.list.injEq]
      exact items_return_iff items
  | .dict entries => by
      rw [jsonValue, ofJson, PyValue.plain, PyValue.dict.injEq]
      exact fields_return_iff (entries_return_iff entries)
  | .tuple _ | .other _ => by simp [jsonValue, ofJson, PyValue.plain]

/-- So are the items of a list. -/
theorem items_return_iff : ∀ items : List PyValue,
    ofItems (jsonItems items) = items ↔ plainItems items = true
  | [] => by simp [jsonItems, ofItems, plainItems]
  | item :: items => by
      rw [jsonItems, ofItems, plainItems, Bool.and_eq_true, List.cons.injEq,
        returns_iff item, items_return_iff items]

/-- So is the value of each entry. -/
theorem entries_return_iff : ∀ entries : List (Key × PyValue), ∀ e ∈ entries,
    (ofJson (jsonValue e.2) = e.2 ↔ e.2.plain = true)
  | [], _, he => nomatch he
  | (_, value) :: entries, _, he => by
      rcases List.mem_cons.mp he with rfl | he
      · exact returns_iff value
      · exact entries_return_iff entries _ he

end

/-- Arguments and metadata come back as they were if and only if they are
plain. -/
theorem arguments_return_iff (entries : Entries) :
    ofFields (jsonFields [] entries) = entries ↔ plainEntries entries = true :=
  fields_return_iff (entries_return_iff entries)

-- ================================================================ readers

theorem demand_eq_ok {holds : Prop} [Decidable holds] {text : String} {u : Unit} :
    demand holds text = .ok u ↔ holds := by
  unfold demand
  split
  next h => exact ⟨fun _ => h, fun _ => rfl⟩
  next h => exact ⟨nofun, fun h' => absurd h' h⟩

theorem mapping_eq_ok {name : String} {raw : Json} {fields : Fields} :
    mapping name raw = .ok fields ↔ raw = .obj fields := by
  cases raw <;> simp [mapping]

theorem requiredString_eq_ok {fields : Fields} {key s : String} :
    requiredString fields key = .ok s ↔ fields.get key = .str s ∧ s ≠ "" := by
  unfold requiredString
  split
  next t heq =>
    rw [heq, Json.str.injEq]
    split
    next hempty =>
      subst hempty
      constructor
      · nofun
      · rintro ⟨rfl, hne⟩
        exact absurd rfl hne
    next hne =>
      rw [Except.ok.injEq]
      constructor
      · rintro rfl
        exact ⟨rfl, hne⟩
      · exact fun h => h.1
  next hno =>
    constructor
    · nofun
    · rintro ⟨h, -⟩
      exact absurd h (hno s)

theorem map_str (B : Builtins) (values : List String) :
    (values.map Json.str).map B.str = values := by
  rw [List.map_map]
  exact map_eq_self.mpr fun s _ => B.str_str s

/-- A stored list of strings is read again unless one of them is empty. -/
theorem stringTuple_strings {B : Builtins} {values read : List String} :
    stringTuple B (strings values) = .ok read ↔ values = read ∧ "" ∉ read := by
  rw [strings, stringTuple, map_str]
  split
  next hmem =>
    constructor
    · nofun
    · rintro ⟨rfl, hout⟩
      exact absurd hmem hout
  next hout =>
    rw [Except.ok.injEq]
    constructor
    · rintro rfl
      exact ⟨rfl, hout⟩
    · exact fun h => h.1

theorem stringOrNull_orNull {text : String} {value read : Option String} :
    stringOrNull text (orNull value) = .ok read ↔ value = read := by
  cases value <;> simp [stringOrNull, orNull]

theorem filledOrNull_orNull {text : String} {value read : Option String} :
    filledOrNull text (orNull value) = .ok read ↔ value = read ∧ read ≠ some "" := by
  cases value with
  | none =>
      simp only [filledOrNull, orNull, Except.ok.injEq]
      constructor
      · rintro rfl
        exact ⟨rfl, nofun⟩
      · exact fun h => h.1
  | some s =>
      simp only [filledOrNull, orNull]
      split
      next hempty =>
        subst hempty
        constructor
        · nofun
        · rintro ⟨rfl, hne⟩
          exact absurd rfl hne
      next hne =>
        rw [Except.ok.injEq]
        constructor
        · rintro rfl
          exact ⟨rfl, fun h => hne (Option.some.inj h)⟩
        · exact fun h => h.1

/-- A part that may be absent comes back if and only if it does where it is
there. -/
theorem orAbsent_return_iff {α : Type} (decode : Json → Except String α) (encode : α → Json)
    (value : Option α) (hnull : ∀ a, encode a ≠ .null) :
    orAbsent decode ((value.map encode).getD .null) = .ok value ↔
      ∀ a, value = some a → decode (encode a) = .ok a := by
  cases value with
  | none => simp [orAbsent]
  | some a =>
      have hsome : orAbsent decode (encode a) = (decode (encode a)).map some := by
        unfold orAbsent
        split
        next heq => exact absurd heq (hnull a)
        next => rfl
      simp only [Option.map_some, Option.getD_some, hsome, Option.some.injEq, forall_eq']
      cases decode (encode a) with
      | error e => simp [Except.map]
      | ok b => simp [Except.map]

theorem given_val (review : Option Given) :
    given ((review.map Subtype.val).getD .null) = review := by
  cases review with
  | none => rfl
  | some review =>
      obtain ⟨v, hv⟩ := review
      cases v with
      | null => exact absurd rfl hv
      | _ => rfl

/-- A list comes back if and only if its items do. -/
theorem mapM_return_iff {α : Type} (decode : Json → Except String α) (encode : α → Json)
    (items : List α) :
    (items.map encode).mapM decode = .ok items ↔ ∀ a ∈ items, decode (encode a) = .ok a := by
  induction items with
  | nil =>
      simp only [List.map_nil, List.mapM_nil, List.not_mem_nil, false_imp_iff, implies_true,
        iff_true]
      rfl
  | cons a items ih =>
      rw [List.map_cons, List.mapM_cons, bind_eq_ok, List.forall_mem_cons]
      constructor
      · rintro ⟨b, hb, h⟩
        obtain ⟨bs, hbs, h⟩ := bind_eq_ok.mp h
        obtain ⟨rfl, rfl⟩ := List.cons.inj (pure_eq_ok.mp h)
        exact ⟨hb, ih.mp hbs⟩
      · rintro ⟨ha, hall⟩
        exact ⟨a, ha, bind_eq_ok.mpr ⟨items, ih.mpr hall, rfl⟩⟩

end OpenTulid.Frozen
