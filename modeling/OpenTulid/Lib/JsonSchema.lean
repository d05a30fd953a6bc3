/-
JSON schemas: a schema is a list of keywords, each an assertion about the
values it applies to, and a value is valid if every keyword holds.

Only `additionalProperties` reads another keyword: it is about the keys that
the `properties` beside it do not declare.

# Describing a language

`Describes schema lang` says that on JSON values without nulls the schema
and the language agree. A field that may be null or absent is there a field
that may be absent, so that every way to build a language (`text`, `list`,
`record`) has its schema.
-/
import OpenTulid.Lib.Doc

namespace Doc

-- =============================================================== schemas

/-- The types a schema can ask for. -/
inductive JsonType where
  | object
  | array
  | string
  | boolean
  | integer
  deriving DecidableEq, Repr

mutual

/-- A schema: `true`, `false`, or keywords. -/
inductive Schema where
  | boolean (b : Bool)
  | object (keywords : List Keyword)

/-- A keyword. -/
inductive Keyword where
  | type (t : JsonType)
  | const (s : Scalar)
  | enum (ss : List Scalar)
  | items (s : Schema)
  | oneOf (ss : List Schema)
  | required (keys : List String)
  | properties (props : List (String × Schema))
  | additionalProperties (s : Schema)
  | propertyNames (s : Schema)

end

/-- The value has a type; a float without a fraction is an integer. -/
def JsonType.holds : JsonType → Value → Bool
  | .object, .map _ => true
  | .array, .list _ => true
  | .string, .scalar (.str _) => true
  | .boolean, .scalar (.bool _) => true
  | .integer, .scalar (.int _) => true
  | .integer, .scalar (.float _ _) => true
  | _, _ => false

/-- Two scalars are the same JSON value. -/
def Scalar.alike : Scalar → Scalar → Bool
  | .int n, .float m _ => n = m
  | .float n _, .int m => n = m
  | .float n _, .float m _ => n = m
  | s, t => s = t

/-- The value is one of some scalars. -/
def Value.among (ss : List Scalar) : Value → Bool
  | .scalar s => ss.any s.alike
  | _ => false

/-- The keys a schema declares. -/
def declaredKeys : List Keyword → List String
  | [] => []
  | .properties props :: rest => props.map Prod.fst ++ declaredKeys rest
  | _ :: rest => declaredKeys rest

mutual

/-- A value is valid under a schema. -/
def Schema.valid : Schema → Value → Bool
  | .boolean b, _ => b
  | .object keywords, v => allHold (declaredKeys keywords) keywords v

/-- Every keyword holds. -/
def allHold (declared : List String) : List Keyword → Value → Bool
  | [], _ => true
  | k :: rest, v => k.holds declared v && allHold declared rest v

/-- A keyword holds of a value; of one it is not about, it does. -/
def Keyword.holds (declared : List String) : Keyword → Value → Bool
  | .type t, v => t.holds v
  | .const s, v => v.among [s]
  | .enum ss, v => v.among ss
  | .items s, .list items => items.all fun item => s.valid item
  | .items _, _ => true
  | .oneOf ss, v => countValid ss v = 1
  | .required keys, .map m => keys.all fun key => Entries.has m key
  | .required _, _ => true
  | .properties props, .map m => validProps props m
  | .properties _, _ => true
  | .additionalProperties s, .map m =>
      (m.filter fun e => Entries.stray declared e.1).all fun e => s.valid e.2
  | .additionalProperties _, _ => true
  | .propertyNames s, .map m => m.all fun e => s.valid (.scalar e.1)
  | .propertyNames _, _ => true

/-- The number of schemas a value is valid under. -/
def countValid : List Schema → Value → Nat
  | [], _ => 0
  | s :: rest, v => (if s.valid v then 1 else 0) + countValid rest v

/-- The declared properties that are there are valid. -/
def validProps : List (String × Schema) → Entries → Bool
  | [], _ => true
  | (key, s) :: rest, m => (m.get? key).all (fun v => s.valid v) && validProps rest m

end

attribute [local simp] Schema.valid allHold Keyword.holds countValid validProps

-- =========================================================== JSON values

/-- A JSON value without nulls and without numbers that are no integers: its
keys are strings, no two of them alike. -/
def Value.isJson (v : Value) : Bool :=
  v.all (fun | .null | .other _ _ => false | _ => true) fun m => decide (Entries.Texts m)

theorem Value.ne_null_of_isJson {v : Value} (h : v.isJson = true) : v ≠ .null := by
  rintro rfl
  cases h

/-- The keys of a JSON object are strings. -/
theorem Value.isText_of_isJson {m : Entries} (h : (Value.map m).isJson = true) :
    ∀ e ∈ m, Entries.isText e.1 = true := by
  unfold Value.isJson at h
  rw [Value.all, Bool.and_eq_true, decide_eq_true_eq] at h
  exact fun e he => Entries.isText_iff.mpr (h.1.1 e he)

-- ================================================== describing a language

/-- On JSON values a schema and a language agree. -/
def Describes (s : Schema) (lang : Lang) : Prop := ∀ v : Value, v.isJson = true → s.valid v = lang v

/-- Strings, and some of them. -/
theorem describes_text : Describes (.object [.type .string]) Lang.text := by
  intro v _
  cases v with
  | scalar s => cases s <;> rfl
  | list | map => rfl

theorem describes_bool : Describes (.object [.type .boolean]) Lang.bool := by
  intro v _
  cases v with
  | scalar s => cases s <;> rfl
  | list | map => rfl

theorem describes_word (words : List String) :
    Describes (.object [.type .string, .enum (words.map .str)]) (Lang.word words) := by
  intro v _
  cases v with
  | scalar s =>
      cases s <;> simp [Schema.valid, allHold, Keyword.holds, JsonType.holds, Lang.word,
        Value.among, Scalar.alike, List.any_eq]
  | list | map => rfl

theorem describes_const (word : String) :
    Describes (.object [.type .string, .const (.str word)]) (Lang.word [word]) :=
  describes_word [word]

/-- The objects. -/
theorem describes_anyMapping : Describes (.object [.type .object]) Lang.anyMapping := by
  intro v _
  cases v with
  | scalar s => cases s <;> rfl
  | list | map => rfl

theorem describes_anyMapping' :
    Describes (.object [.type .object, .additionalProperties (.boolean true)])
      Lang.anyMapping := by
  intro v _
  cases v with
  | scalar s => cases s <;> rfl
  | list => rfl
  | map m => simp [Schema.valid, allHold, Keyword.holds, JsonType.holds, Lang.anyMapping]

section

variable {s : Schema} {lang : Lang}

/-- A list of values of a language. -/
theorem describes_list (h : Describes s lang) :
    Describes (.object [.type .array, .items s]) (Lang.list lang) := by
  intro v hjson
  cases v with
  | scalar s => cases s <;> rfl
  | map => rfl
  | list items =>
      simp only [Schema.valid, allHold, Keyword.holds, JsonType.holds, Lang.list, Bool.true_and,
        Bool.and_true]
      rw [Bool.eq_iff_iff, List.all_eq_true, List.all_eq_true]
      exact forall₂_congr fun item hitem => by rw [h item (Value.all_of_mem_items hjson item hitem)]

/-- An object of values of a language. -/
theorem describes_mapping (h : Describes s lang) :
    Describes (.object [.type .object, .additionalProperties s]) (Lang.mapping lang) := by
  intro v hjson
  cases v with
  | scalar s => cases s <;> rfl
  | list => rfl
  | map m =>
      have hstray : ∀ e ∈ m, Entries.stray [] e.1 = true := by
        intro e _
        cases e.1 <;> simp [Entries.stray]
      simp only [Schema.valid, allHold, Keyword.holds, JsonType.holds, Lang.mapping, Bool.true_and,
        Bool.and_true, declaredKeys, List.filter_eq_self.mpr hstray]
      rw [Bool.eq_iff_iff, List.all_eq_true, List.all_eq_true]
      exact forall₂_congr fun e he => by rw [h e.2 (Value.all_of_mem_entries hjson e he)]

/-- The names of the properties are strings. -/
theorem describes_strKeys (h : Describes s lang) :
    Describes (.object [.type .object, .propertyNames (.object [.type .string]),
      .additionalProperties s]) (.both .strKeys (.mapping lang)) := by
  intro v hjson
  have hvalues := describes_mapping h v hjson
  cases v with
  | scalar s => cases s <;> rfl
  | list => rfl
  | map m =>
      have hnames : Lang.strKeys (.map m) = true := by
        refine List.all_eq_true.mpr fun e he => ?_
        obtain ⟨key, hkey⟩ := Entries.isText_iff.mp (Value.isText_of_isJson hjson e he)
        rw [hkey]
        rfl
      have hvalid : (m.all fun e => Schema.valid (.object [.type .string]) (.scalar e.1)) =
          true := by
        refine List.all_eq_true.mpr fun e he => ?_
        obtain ⟨key, hkey⟩ := Entries.isText_iff.mp (Value.isText_of_isJson hjson e he)
        rw [hkey]
        rfl
      rw [Lang.both, hnames, Bool.true_and, ← hvalues]
      simp only [Schema.valid, allHold, Keyword.holds, declaredKeys] at hvalid ⊢
      rw [hvalid, Bool.true_and]

end

-- ------------------------------------------------------------- alternatives

/-- No alternative counts where none is of a language. -/
theorem countValid_eq_zero {ss : List Schema} {v : Value} (h : ∀ s ∈ ss, s.valid v = false) :
    countValid ss v = 0 := by
  induction ss with
  | nil => rfl
  | cons s rest ih =>
      rw [countValid, h s List.mem_cons_self, ih fun s hs => h s (List.mem_cons_of_mem _ hs)]
      rfl

/-- Where at most one alternative can be valid, one is if any is. -/
theorem describes_oneOf {ι : Type} (is : List ι) {s : ι → Schema} {lang : ι → Lang}
    (h : ∀ i ∈ is, Describes (s i) (lang i))
    (hdisj : is.Pairwise fun i j => ∀ v, lang i v = true → lang j v = false) :
    Describes (.object [.oneOf (is.map s)]) (fun v => is.any fun i => lang i v) := by
  intro v hjson
  have hcount : countValid (is.map s) v = 1 ↔ (is.any fun i => lang i v) = true := by
    induction is with
    | nil => simp [countValid]
    | cons i rest ih =>
        obtain ⟨hfirst, hrest⟩ := List.pairwise_cons.mp hdisj
        replace ih := ih (fun j hj => h j (List.mem_cons_of_mem _ hj)) hrest
        rw [List.map_cons, countValid, h i List.mem_cons_self v hjson, List.any_cons]
        cases hi : lang i v with
        | false => simpa using ih
        | true =>
            have hzero : countValid (rest.map s) v = 0 := by
              refine countValid_eq_zero fun t ht => ?_
              obtain ⟨j, hj, rfl⟩ := List.mem_map.mp ht
              rw [h j (List.mem_cons_of_mem _ hj) v hjson]
              exact hfirst j hj v hi
            simp [hzero]
  simp only [Schema.valid, allHold, Keyword.holds, Bool.and_true]
  rw [Bool.eq_iff_iff, decide_eq_true_eq]
  exact hcount

-- ------------------------------------------------------------------ records

/-- The declared properties are valid one by one. -/
theorem validProps_iff {props : List (String × Schema)} {m : Entries} :
    validProps props m = true ↔
      ∀ p ∈ props, ∀ v, m.get? p.1 = some v → p.2.valid v = true := by
  induction props with
  | nil => simp [validProps]
  | cons p rest ih =>
      rw [validProps, Bool.and_eq_true, ih, List.forall_mem_cons]
      refine and_congr_left' ?_
      cases m.get? p.1 <;> simp

/-- In a JSON object a field is there if it has to be, and of its language if it
is there. -/
theorem Field.fits_iff {f : Field} {m : Entries} (hjson : (Value.map m).isJson = true) :
    f.fits m = true ↔
      (f.required = true → m.has f.name = true) ∧
        ∀ v, m.get? f.name = some v → f.lang v = true := by
  unfold Field.fits Entries.has
  cases hget : m.get? f.name with
  | none => simp
  | some v =>
      have hnull : v ≠ .null := Value.ne_null_of_isJson (Value.all_of_get? hjson hget)
      simp [hnull]

/-- A closed record: each row is a field and the schema of its values. The
schema may list the keys in any order. -/
theorem describes_record (rows : List (Field × Schema)) {required : List String}
    {props : List (String × Schema)} (h : ∀ r ∈ rows, Describes r.2 r.1.lang)
    (hrequired : ∀ key, key ∈ required ↔ ∃ r ∈ rows, r.1.required = true ∧ key = r.1.name)
    (hprops : ∀ p, p ∈ props ↔ ∃ r ∈ rows, p = (r.1.name, r.2)) :
    Describes (.object [.type .object, .required required,
        .additionalProperties (.boolean false), .properties props])
      (Lang.record (rows.map Prod.fst)) := by
  intro v hjson
  cases v with
  | scalar s => cases s <;> rfl
  | list => rfl
  | map m =>
      have hdeclared : ∀ key, Entries.stray (props.map Prod.fst) key =
          Entries.stray ((rows.map Prod.fst).map (·.name)) key := by
        intro key
        cases key with
        | str name =>
            simp only [Entries.stray, decide_eq_decide, List.mem_map, hprops, not_iff_not]
            constructor
            · rintro ⟨p, ⟨r, hr, rfl⟩, rfl⟩
              exact ⟨r.1, ⟨r, hr, rfl⟩, rfl⟩
            · rintro ⟨f, ⟨r, hr, rfl⟩, rfl⟩
              exact ⟨_, ⟨r, hr, rfl⟩, rfl⟩
        | null | bool | int | float | other => rfl
      have hkeys : ((m.filter fun e => Entries.stray (props.map Prod.fst) e.1).all fun _ => false) =
          true ↔ Entries.strays ((rows.map Prod.fst).map (·.name)) m = [] := by
        rw [Entries.strays, List.filter_map, List.map_eq_nil_iff, List.filter_eq_nil_iff]
        simp [hdeclared]
      simp only [Schema.valid, allHold, Keyword.holds, JsonType.holds, declaredKeys,
        List.append_nil, Bool.true_and, Bool.and_true, Lang.record]
      rw [Bool.eq_iff_iff, Bool.and_eq_true, Bool.and_eq_true, Bool.and_eq_true, hkeys,
        validProps_iff, decide_eq_true_eq, List.all_eq_true, List.all_eq_true]
      have hfits : (∀ f ∈ rows.map Prod.fst, f.fits m = true) ↔
          (∀ key ∈ required, Entries.has m key = true) ∧
            ∀ p ∈ props, ∀ v, Entries.get? m p.1 = some v → p.2.valid v = true := by
        simp only [List.forall_mem_map, Field.fits_iff hjson, hrequired, hprops]
        constructor
        · intro hrows
          refine ⟨?_, ?_⟩
          · rintro key ⟨r, hr, hreq, rfl⟩
            exact (hrows r hr).1 hreq
          · rintro p ⟨r, hr, rfl⟩ v hget
            rw [h r hr v (Value.all_of_get? hjson hget)]
            exact (hrows r hr).2 v hget
        · rintro ⟨hreq, hvalid⟩ r hr
          refine ⟨fun hmust => hreq _ ⟨r, hr, hmust, rfl⟩, fun v hget => ?_⟩
          rw [← h r hr v (Value.all_of_get? hjson hget)]
          exact hvalid _ ⟨r, hr, rfl⟩ v hget
      rw [hfits]
      tauto

/-- A closed record with no required keys. -/
theorem describes_record' (rows : List (Field × Schema)) {props : List (String × Schema)}
    (h : ∀ r ∈ rows, Describes r.2 r.1.lang) (hrequired : ∀ r ∈ rows, r.1.required = false)
    (hprops : ∀ p, p ∈ props ↔ ∃ r ∈ rows, p = (r.1.name, r.2)) :
    Describes (.object [.type .object, .additionalProperties (.boolean false),
        .properties props]) (Lang.record (rows.map Prod.fst)) := by
  intro v hjson
  have hnone : ∀ key, key ∈ [] ↔ ∃ r ∈ rows, r.1.required = true ∧ key = r.1.name := by
    intro key
    simp only [List.not_mem_nil, false_iff]
    rintro ⟨r, hr, hreq, -⟩
    rw [hrequired r hr] at hreq
    cases hreq
  rw [← describes_record rows h hnone hprops v hjson]
  cases v with
  | scalar s => cases s <;> rfl
  | list => rfl
  | map m => simp [Schema.valid, allHold, Keyword.holds, declaredKeys]

end Doc
