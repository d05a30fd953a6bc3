/-
The loader against the grammar.

Every builder either builds the meaning of its value without a diagnostic,
which is so if and only if the value belongs to the language of its place,
or answers a diagnostic (`Builds`). The statement builders of four kinds do
not look at their further keys, so for them the language is the one that is
not closed (`loaderClosed`).
-/
import OpenTulid.Engine.Grammar

namespace OpenTulid.Engine

open Doc

/-- What comes out of a builder is a value's meaning without a diagnostic if
the value belongs to a language, and has a diagnostic if it does not. -/
structure Builds {β : Type} (out : List Diagnostic × β) (inLang : Bool) (meaning : β) : Prop where
  accepts : inLang = true → out = ([], meaning)
  refuses : inLang = false → out.1 ≠ []

/-- The same for what gives up at the first diagnostic. -/
structure Reads {β : Type} (out : Except Diagnostic β) (inLang : Bool) (meaning : β) : Prop where
  accepts : inLang = true → out = .ok meaning
  refuses : inLang = false → ∃ d, out = .error d

namespace Reads

variable {β : Type} {meaning : β} {d : Diagnostic}

theorem ok : Reads (.ok meaning) true meaning where
  accepts := fun _ => rfl
  refuses := nofun

theorem error : Reads (.error d) false meaning where
  accepts := nofun
  refuses := fun _ => ⟨d, rfl⟩

/-- What was read is the meaning of a value of the language. -/
theorem of_ok {out : Except Diagnostic β} {inLang : Bool} {read : β}
    (h : Reads out inLang meaning) (hok : out = .ok read) : inLang = true ∧ meaning = read := by
  cases inLang with
  | true =>
      rw [h.accepts rfl] at hok
      cases hok
      exact ⟨rfl, rfl⟩
  | false =>
      obtain ⟨d, hd⟩ := h.refuses rfl
      rw [hd] at hok
      cases hok

/-- What could be read left no diagnostic. -/
theorem of_diagnosticsOf {out : Except Diagnostic β} {inLang : Bool}
    (h : Reads out inLang meaning) (hnil : diagnosticsOf out = []) : inLang = true := by
  cases out with
  | ok read => exact (h.of_ok rfl).1
  | error d => cases hnil

end Reads

namespace Builds

variable {β γ δ : Type} {out : List Diagnostic × β} {out' : List Diagnostic × γ}
  {inLang inLang' : Bool} {meaning : β} {meaning' : γ} {diags : List Diagnostic}

/-- A value outside the language is refused. -/
theorem refused (hlang : inLang = false) (hout : out.1 ≠ []) : Builds out inLang meaning where
  accepts := fun h => by
    rw [hlang] at h
    cases h
  refuses := fun _ => hout

/-- A value of the language is built. -/
theorem built (hlang : inLang = true) (hout : out = ([], meaning)) :
    Builds out inLang meaning where
  accepts := fun _ => hout
  refuses := fun h => by
    rw [hlang] at h
    cases h

/-- Diagnostics of its own, and the meaning whatever they are. -/
theorem checked (hlang : inLang = true ↔ diags = []) : Builds (diags, meaning) inLang meaning where
  accepts := fun h => by rw [hlang.mp h]
  refuses := fun h hnil => by
    rw [hlang.mpr hnil] at h
    cases h

/-- Diagnostics found before do not depend on what is built. -/
theorem keep (h : Builds (diags, ()) inLang ()) (meaning : β) :
    Builds (diags, meaning) inLang meaning where
  accepts := fun hl => by
    have hdiags : diags = [] := congrArg Prod.fst (h.accepts hl)
    rw [hdiags]
  refuses := h.refuses

/-- The diagnostics of two parts together. -/
theorem append (h : Builds out inLang meaning) (h' : Builds out' inLang' meaning')
    (f : β → γ → δ) :
    Builds (out.1 ++ out'.1, f out.2 out'.2) (inLang && inLang') (f meaning meaning') where
  accepts := fun hboth => by
    rw [Bool.and_eq_true] at hboth
    rw [h.accepts hboth.1, h'.accepts hboth.2, List.append_nil]
  refuses := fun hboth hnil => by
    obtain ⟨hout, hout'⟩ := List.append_eq_nil_iff.mp hnil
    rcases Bool.and_eq_false_iff.mp hboth with hl | hl
    · exact h.refuses hl hout
    · exact h'.refuses hl hout'

/-- What gives nothing on diagnostics. -/
theorem gate (h : Builds out inLang meaning) (f : β → δ) :
    Builds (if out.1 ≠ [] then (out.1, none) else ([], some (f out.2))) inLang
      (some (f meaning)) where
  accepts := fun hl => by simp [h.accepts hl]
  refuses := fun hl => by simp [h.refuses hl]

end Builds

/-- The keys of a mapping are checked. -/
theorem unknownKeys_builds (allowed : List String) (place : String) (m : Entries) :
    Builds (unknownKeys allowed place m, ()) (decide (m.strays allowed = [])) () :=
  .checked (by simp [unknownKeys])

/-- The items of a list are built one by one. -/
theorem buildItems_builds {α : Type} {build : Value → Built α} {lang : Lang}
    {meaning : Value → α} (h : ∀ v, Builds (build v) (lang v) (some (meaning v)))
    (items : List Value) :
    Builds (buildItems build items) (items.all lang) (items.map meaning) := by
  induction items with
  | nil => exact .built rfl rfl
  | cons v rest ih => exact (h v).append ih fun built others => built.toList ++ others

/-- So are the entries of a mapping. -/
theorem buildEntries_builds {α κ : Type} {build : κ → Value → Built α} {lang : Lang}
    {meaning : Value → α} (h : ∀ key v, Builds (build key v) (lang v) (some (meaning v)))
    (entries : List (κ × Value)) :
    Builds (buildEntries build entries) (entries.all fun e => lang e.2)
      (entries.map fun e => (e.1, meaning e.2)) := by
  induction entries with
  | nil => exact .built rfl rfl
  | cons e rest ih =>
      exact (h e.1 e.2).append ih fun built others => built.toList.map (e.1, ·) ++ others

-- ============================================================ single values

theorem text_eq_isSome (v : Value) : Lang.text v = (asStr v).isSome := by
  cases v with
  | scalar s => cases s <;> rfl
  | list | map => rfl

theorem textOf_eq {v : Value} {s : String} (h : asStr v = some s) : textOf v = s := by
  rw [textOf, h, Option.getD_some]

/-- What is neither a string nor null. -/
theorem asStr?_eq_none {v : Value} :
    asStr? v = none ↔ (Lang.text v || decide (v = .null)) = false := by
  cases v with
  | scalar s => cases s <;> simp [asStr?, Lang.text]
  | list | map => simp [asStr?, Lang.text]

/-- A string or null. -/
theorem asStr?_eq_some {v : Value} {text : Option String} (h : asStr? v = some text) :
    (Lang.text v || decide (v = .null)) = true ∧ asStr v = text := by
  cases v with
  | scalar s => cases s <;> simp_all [asStr?, Lang.text, asStr]
  | list | map => cases h

/-- One of some words or null. -/
theorem word_or_null (words : List String) (v : Value) :
    (Lang.word words v || decide (v = .null)) =
      (asStr? v).any fun text => text.all (· ∈ words) := by
  cases v with
  | scalar s => cases s <;> simp [asStr?, Lang.word]
  | list | map => simp [asStr?, Lang.word]

/-- What is no string. -/
theorem text_eq_false {v : Value} (h : ∀ s, v ≠ .str s) : Lang.text v = false := by
  cases v with
  | scalar s =>
      cases s with
      | str s => exact absurd rfl (h s)
      | null | bool | int | float | other => rfl
  | list | map => rfl

/-- What is no boolean. -/
theorem bool_eq_false {v : Value} (h : ∀ b, v ≠ .bool b) : Lang.bool v = false := by
  cases v with
  | scalar s =>
      cases s with
      | bool b => exact absurd rfl (h b)
      | null | int | str | float | other => rfl
  | list | map => rfl

/-- The truth of a key with a default. -/
theorem boolOf_get {m : Entries} {key : String} {b d : Bool}
    (h : (m.get? key).getD (.bool d) = .bool b) :
    (boolOf? (m.get key)).getD d = b := by
  unfold Entries.get
  cases hkey : m.get? key with
  | none =>
      rw [hkey] at h
      cases h
      rfl
  | some v =>
      rw [hkey] at h
      cases h
      rfl

/-- A list read item by item. -/
theorem mapM_reads {α β : Type} {read : α → Except Diagnostic β} {p : α → Bool} {f : α → β}
    (h : ∀ x, Reads (read x) (p x) (f x)) (xs : List α) :
    Reads (xs.mapM read) (xs.all p) (xs.map f) := by
  induction xs with
  | nil => exact .ok
  | cons x rest ih =>
      constructor
      · intro hall
        rw [List.all_cons, Bool.and_eq_true] at hall
        rw [List.mapM_cons, (h x).accepts hall.1, ih.accepts hall.2]
        rfl
      · intro hall
        rw [List.mapM_cons]
        cases hx : p x with
        | false =>
            obtain ⟨d, hd⟩ := (h x).refuses hx
            rw [hd]
            exact ⟨d, rfl⟩
        | true =>
            rw [List.all_cons, hx, Bool.true_and] at hall
            obtain ⟨d, hd⟩ := ih.refuses hall
            rw [(h x).accepts hx, hd]
            exact ⟨d, rfl⟩

-- ================================================================== parts

theorem buildArgSpec_builds (argName : Scalar) (v : Value) :
    Builds (buildArgSpec argName v) (argSpecLang v) (some (argSpecMeaning v)) := by
  unfold buildArgSpec
  split
  next m =>
    have hlang : argSpecLang (.map m) =
        (decide (Entries.strays argSpecKeys m = []) &&
          ((Entries.get? m "type").any (Lang.word supportedArgTypes) &&
            (Lang.bool ((Entries.get? m "required").getD (.bool false)) &&
              Lang.bool ((Entries.get? m "many").getD (.bool false))))) := by
      simp only [argSpecLang, Lang.record_map, Lang.loose_cons, Lang.fits_must,
        Lang.fits_may_getD (rfl : Lang.bool (.bool false) = true), Lang.loose_nil,
        Bool.and_true]
      rfl
    dsimp only
    split
    next htype => exact .refused (by simp [hlang, htype]) (by simp)
    next type htype =>
      split
      next hword => exact .refused (by simp [hlang, htype, Lang.word, hword]) (by simp)
      next hword =>
        split
        next required hrequired =>
          split
          next many hmany =>
            have hmeaning : argSpecMeaning (.map m) = ⟨type, required, many⟩ := by
              simp only [argSpecMeaning, entriesOf, boolOf_get hrequired, boolOf_get hmany,
                textOf, Entries.get_eq_of_get? htype, asStr, Option.getD_some]
            rw [hmeaning]
            refine .checked ?_
            rw [hlang, htype, hrequired, hmany]
            simp [unknownKeys, Lang.word, Lang.bool, not_not.mp hword]
          next hmany => exact .refused (by simp [hlang, bool_eq_false hmany]) (by simp)
        next hrequired => exact .refused (by simp [hlang, bool_eq_false hrequired]) (by simp)
    next type hstr htype =>
      refine .refused ?_ (by simp)
      have hword : Lang.word supportedArgTypes type = false := by
        unfold Lang.word
        split
        next s => exact absurd rfl (hstr s)
        next => rfl
      simp [hlang, htype, hword]
  next hmap => exact .refused (Lang.record_eq_false hmap) (by simp)

theorem buildInstructionRefs_builds (m : Entries) :
    Builds (buildInstructionRefs m) ((Field.may "instructions" instructionsLang).fits m)
      (instructionsOf (m.get "instructions")) := by
  rw [Lang.fits_may]
  unfold buildInstructionRefs Entries.get
  cases m.get? "instructions" with
  | none => exact .built rfl rfl
  | some v =>
      cases v with
      | scalar s =>
          cases s with
          | str ref => exact .built rfl rfl
          | null | bool | int | float | other => exact .refused rfl (by simp)
      | list items =>
          refine buildItems_builds (fun v => ?_) items
          cases v with
          | scalar s =>
              cases s with
              | str ref => exact .built rfl rfl
              | null | bool | int | float | other => exact .refused rfl (by simp)
          | list | map => exact .refused rfl (by simp)
      | map => exact .refused rfl (by simp)

theorem buildCallArgs_reads (what : String) (m : Entries) :
    Reads (buildCallArgs what m) ((Field.maybe "args" Lang.anyMapping).fits m)
      (entriesOf (m.get "args")) := by
  rw [Lang.fits_maybe]
  unfold buildCallArgs
  cases m.get "args" with
  | scalar s =>
      cases s with
      | null => exact .ok
      | bool | int | str | float | other => exact .error
  | map => exact .ok
  | list => exact .error

/-- Both kinds of calls. -/
theorem buildCall_builds {α : Type} (what head : String) (make : String → Entries → α)
    (v : Value) :
    Builds (buildCall what head [head, "args"] make v)
      (Lang.record [.must head .text, .maybe "args" .anyMapping] v)
      (some (make (textOf ((entriesOf v).get head)) (entriesOf ((entriesOf v).get "args")))) := by
  unfold buildCall
  split
  next m =>
    have hlang : Lang.record [.must head .text, .maybe "args" .anyMapping] (.map m) =
        (decide (Entries.strays [head, "args"] m = []) &&
          ((Entries.get? m head).any Lang.text && (Field.maybe "args" Lang.anyMapping).fits m)) := by
      simp only [Lang.record_map, Lang.loose_cons, Lang.fits_must, Lang.loose_nil, Bool.and_true]
      rfl
    have hargs := buildCallArgs_reads what m
    rw [hlang]
    dsimp only
    split
    next hhead => exact .refused (by simp [hhead]) (by simp)
    next name hhead =>
      cases hfits : (Field.maybe "args" Lang.anyMapping).fits m with
      | false =>
          obtain ⟨d, hd⟩ := hargs.refuses hfits
          rw [hd]
          exact .refused (by simp) (by simp)
      | true =>
          rw [hargs.accepts hfits]
          simp only [entriesOf, Entries.get_eq_of_get? hhead, textOf, asStr, Option.getD_some]
          exact .checked (by simp [unknownKeys, hhead, Lang.text])
    next raw hstr hhead =>
      exact .refused (by simp [hhead, text_eq_false hstr]) (by simp)
  next hmap => exact .refused (Lang.record_eq_false hmap) (by simp)

theorem buildValidationCall_builds (v : Value) :
    Builds (buildValidationCall v) (validationCallLang v) (some (validationCallMeaning v)) :=
  buildCall_builds "validation call" "type" ValidationCall.mk v

theorem buildOperationCall_builds (v : Value) :
    Builds (buildOperationCall v) (operationCallLang v) (some (operationCallMeaning v)) :=
  buildCall_builds "operation call" "op" OperationCall.mk v

theorem buildArtifact_reads (v : Value) : Reads (buildArtifact v) (Lang.text v) (textOf v) := by
  cases v with
  | scalar s =>
      cases s with
      | str s => exact .ok
      | null | bool | int | float | other => exact .error
  | list | map => exact .error

theorem buildArtifacts_reads (v : Value) :
    Reads (buildArtifacts v) (Lang.list .text v || decide (v = .null)) ((itemsOf v).map textOf) := by
  cases v with
  | scalar s =>
      cases s with
      | null => exact .ok
      | bool | int | str | float | other => exact .error
  | list items =>
      have h := mapM_reads buildArtifact_reads items
      simpa [buildArtifacts, Lang.list, itemsOf] using h
  | map => exact .error

/-- The validations are a list, whose items are built, or they are not. -/
theorem buildValidations_builds (v : Value) :
    (∃ out, buildValidations v = .ok out ∧
      Builds out (Lang.list validationCallLang v || decide (v = .null))
        ((itemsOf v).map validationCallMeaning)) ∨
    (∃ d, buildValidations v = .error d ∧
      (Lang.list validationCallLang v || decide (v = .null)) = false) := by
  cases v with
  | scalar s =>
      cases s with
      | null => exact .inl ⟨_, rfl, .built rfl rfl⟩
      | bool | int | str | float | other => exact .inr ⟨_, rfl, rfl⟩
  | list items =>
      have h := buildItems_builds buildValidationCall_builds items
      exact .inl ⟨_, rfl, by simpa [Lang.list, itemsOf] using h⟩
  | map => exact .inr ⟨_, rfl, rfl⟩

/-- So for the changed files. -/
theorem buildChangedFiles_builds (v : Value) :
    (∃ diags required, buildChangedFiles v = (diags, .ok required) ∧
      Builds (diags, required) (changedFilesLang v || decide (v = .null))
        (changedFilesMeaning v)) ∨
    (∃ diags d, buildChangedFiles v = (diags, .error d) ∧
      (changedFilesLang v || decide (v = .null)) = false) := by
  cases v with
  | scalar s =>
      cases s with
      | null => exact .inl ⟨_, _, rfl, .built rfl rfl⟩
      | bool | int | str | float | other => exact .inr ⟨_, _, rfl, rfl⟩
  | list => exact .inr ⟨_, _, rfl, rfl⟩
  | map m =>
      have hlang : (changedFilesLang (.map m) || decide (Value.map m = .null)) =
          (decide (Entries.strays ["required"] m = []) &&
            Lang.bool ((Entries.get? m "required").getD (.bool false))) := by
        simp only [changedFilesLang, Lang.record_map, Lang.loose_cons, Lang.loose_nil,
          Lang.fits_may_getD (rfl : Lang.bool (.bool false) = true), Bool.and_true]
        simp
      rw [hlang]
      unfold buildChangedFiles
      split
      next h => cases h
      next raw h =>
        cases h
        split
        next required hrequired =>
          refine .inl ⟨_, _, rfl, ?_⟩
          have hmeaning : changedFilesMeaning (.map m) = required := boolOf_get hrequired
          rw [hmeaning, hrequired]
          exact .checked (by simp [unknownKeys, Lang.bool])
        next hrequired =>
          exact .inr ⟨_, _, rfl, by simp [bool_eq_false hrequired]⟩
      next hmap => exact absurd rfl (hmap m)

theorem buildRequirementSet_builds (v : Value) :
    Builds (buildRequirementSet v) (requirementSetLang v) (some (requirementSetMeaning v)) := by
  unfold buildRequirementSet
  split
  next m =>
    have hlang : requirementSetLang (.map m) =
        (decide (Entries.strays requirementSetKeys m = []) &&
          ((Lang.list .text (Entries.get m "artifacts") ||
              decide (Entries.get m "artifacts" = .null)) &&
            ((Lang.list validationCallLang (Entries.get m "validations") ||
                decide (Entries.get m "validations" = .null)) &&
              (changedFilesLang (Entries.get m "changed_files") ||
                decide (Entries.get m "changed_files" = .null))))) := by
      simp only [requirementSetLang, Lang.record_map, Lang.loose_cons, Lang.fits_maybe,
        Lang.loose_nil, Bool.and_true]
      rfl
    have hartifacts := buildArtifacts_reads (Entries.get m "artifacts")
    rw [hlang]
    generalize hart : (Lang.list .text (Entries.get m "artifacts") ||
      decide (Entries.get m "artifacts" = .null)) = inArtifacts at hartifacts ⊢
    cases inArtifacts with
    | false =>
        obtain ⟨d, hd⟩ := hartifacts.refuses rfl
        rw [hd]
        exact .refused (by simp) (by simp)
    | true =>
        rw [hartifacts.accepts rfl]
        dsimp only
        obtain ⟨out, hout, hvalidations⟩ | ⟨d, hd, hfalse⟩ :=
          buildValidations_builds (Entries.get m "validations")
        · rw [hout]
          dsimp only
          obtain ⟨diags, required, hcall, hchanged⟩ | ⟨diags, d, hd, hfalse⟩ :=
            buildChangedFiles_builds (Entries.get m "changed_files")
          · rw [hcall]
            dsimp only
            have h := (((unknownKeys_builds requirementSetKeys "requirement set" m).append
              hvalidations fun _ validations => validations).append hchanged Prod.mk).gate
                fun out => RequirementSet.mk ((itemsOf (Entries.get m "artifacts")).map textOf)
                  out.1 out.2
            simpa [Bool.and_assoc, requirementSetMeaning, entriesOf] using h
          · rw [hd]
            exact .refused (by simp [hfalse]) (by simp)
        · rw [hd]
          exact .refused (by simp [hfalse]) (by simp)
  next hmap => exact .refused (Lang.record_eq_false hmap) (by simp)

theorem buildTransaction_builds (v : Value) :
    Builds (buildTransaction v) (transactionLang v) (some (transactionMeaning v)) := by
  unfold buildTransaction
  split
  next m =>
    have hlang : transactionLang (.map m) =
        (decide (Entries.strays transactionPlanKeys m = []) &&
          (Entries.get? m "steps").any (Lang.list operationCallLang)) := by
      simp only [transactionLang, Lang.record_map, Lang.loose_cons, Lang.fits_must,
        Lang.loose_nil, Bool.and_true]
      rfl
    rw [hlang]
    dsimp only
    split
    next hsteps => exact .refused (by simp [hsteps]) (by simp)
    next items hsteps =>
      have h := ((unknownKeys_builds transactionPlanKeys "transaction" m).append
        (buildItems_builds buildOperationCall_builds items) fun _ steps => steps).gate
          TransactionPlan.mk
      simpa [hsteps, Lang.list, transactionMeaning, entriesOf, itemsOf,
        Entries.get_eq_of_get? hsteps] using h
    next raw hlist hsteps =>
      refine .refused ?_ (by simp)
      have hitems : Lang.list operationCallLang raw = false := by
        cases raw with
        | list items => exact absurd rfl (hlist items)
        | scalar | map => rfl
      simp [hsteps, hitems]
  next hmap => exact .refused (Lang.record_eq_false hmap) (by simp)

/-- The strings among the required keys of a derivation. -/
theorem any_text_eq (m : Entries) (key : String) :
    (Entries.get? m key).any Lang.text = (asStr (Entries.get m key)).isSome := by
  rw [← text_eq_isSome]
  unfold Entries.get
  cases Entries.get? m key <;> rfl

theorem buildDerivesRequired_reads (m : Entries) :
    Reads (buildDerivesRequired m) (Lang.bool ((m.get? "required").getD (.bool true)))
      ((boolOf? (m.get "required")).getD true) := by
  unfold buildDerivesRequired
  split
  next required hrequired =>
    rw [boolOf_get hrequired, hrequired]
    exact .ok
  next hrequired =>
    rw [bool_eq_false hrequired]
    exact .error

theorem buildDerivesParent_reads (m : Entries) :
    Reads (buildDerivesParent m)
      (Lang.text (m.get "parent_to_if_derived") || decide (m.get "parent_to_if_derived" = .null))
      (asStr (m.get "parent_to_if_derived")) := by
  unfold buildDerivesParent
  split
  next parent hparent =>
    rw [(asStr?_eq_some hparent).1, (asStr?_eq_some hparent).2]
    exact .ok
  next hparent =>
    rw [asStr?_eq_none.mp hparent]
    exact .error

/-- What is absent is no string. -/
theorem asStr_of_not_has {m : Entries} {key : String} (h : (!Entries.has m key) = true) :
    asStr (Entries.get m key) = none := by
  have hget : Entries.get? m key = none := by simpa [Entries.has] using h
  rw [Entries.get_eq_null_of_get? hget]
  rfl

theorem buildDerives_builds (v : Value) :
    Builds (buildDerives v) (derivesLang v) (some (derivesMeaning v)) := by
  unfold buildDerives
  split
  next m =>
    have hlang : derivesLang (.map m) = true ↔
        Entries.strays derivesKeys m = [] ∧
          (∀ key ∈ derivesRequiredKeys, (asStr (Entries.get m key)).isSome = true) ∧
          Lang.bool ((Entries.get? m "required").getD (.bool true)) = true ∧
          (Lang.text (Entries.get m "parent_to_if_derived") ||
            decide (Entries.get m "parent_to_if_derived" = .null)) = true := by
      simp only [derivesLang, Lang.record_map, Lang.loose_cons, Lang.fits_must, any_text_eq,
        Lang.fits_may_getD (rfl : Lang.bool (.bool true) = true), Lang.fits_maybe,
        Lang.loose_nil, Bool.and_true, Bool.and_eq_true, decide_eq_true_eq, derivesRequiredKeys,
        List.forall_mem_cons, List.not_mem_nil, false_implies, implies_true, and_true, and_assoc]
      rfl
    dsimp only
    split
    next hmissing =>
      refine .refused ?_ (by simpa using fun _ => hmissing)
      rw [← Bool.not_eq_true, hlang]
      intro h
      refine hmissing ?_
      rw [List.map_eq_nil_iff, List.filter_eq_nil_iff]
      intro key hkey habsent
      have hsome := h.2.1 key hkey
      rw [asStr_of_not_has habsent] at hsome
      cases hsome
    next hmissing =>
      have hreadsRequired := buildDerivesRequired_reads m
      have hreadsParent := buildDerivesParent_reads m
      split
      next taskType state artifactType required parent htask hstate hartifact hrequired hparent =>
        obtain ⟨hlangRequired, hmeansRequired⟩ := hreadsRequired.of_ok hrequired
        obtain ⟨hlangParent, hmeansParent⟩ := hreadsParent.of_ok hparent
        have hmeaning : derivesMeaning (.map m) =
            ⟨taskType, state, artifactType, required, parent⟩ := by
          simp only [derivesMeaning, entriesOf, textOf_eq htask, textOf_eq hstate,
            textOf_eq hartifact, hmeansRequired, hmeansParent]
        rw [hmeaning]
        refine .checked ?_
        rw [hlang]
        simp [unknownKeys, derivesRequiredKeys, htask, hstate, hartifact, hlangRequired,
          hlangParent]
      next hfail =>
        have hparts : ¬((∀ key ∈ derivesRequiredKeys,
              (asStr (Entries.get m key)).isSome = true) ∧
            Lang.bool ((Entries.get? m "required").getD (.bool true)) = true ∧
            (Lang.text (Entries.get m "parent_to_if_derived") ||
              decide (Entries.get m "parent_to_if_derived" = .null)) = true) := by
          rintro ⟨hstrings, hrequired, hparent⟩
          obtain ⟨taskType, htask⟩ := Option.isSome_iff_exists.mp
            (hstrings "task_type" (by simp [derivesRequiredKeys]))
          obtain ⟨state, hstate⟩ := Option.isSome_iff_exists.mp
            (hstrings "state" (by simp [derivesRequiredKeys]))
          obtain ⟨artifactType, hartifact⟩ := Option.isSome_iff_exists.mp
            (hstrings "artifact_type" (by simp [derivesRequiredKeys]))
          exact hfail _ _ _ _ _ htask hstate hartifact (hreadsRequired.accepts hrequired)
            (hreadsParent.accepts hparent)
        refine .refused ?_ ?_
        · rw [← Bool.not_eq_true, hlang]
          exact fun h => hparts h.2
        · intro hnil
          simp only [List.append_eq_nil_iff] at hnil
          obtain ⟨⟨⟨-, hwrong⟩, hrequired⟩, hparent⟩ := hnil
          rw [List.map_eq_nil_iff, List.filter_eq_nil_iff] at hwrong
          exact hparts ⟨fun key hkey => by
            simpa [Option.isSome_iff_ne_none] using hwrong key hkey,
            hreadsRequired.of_diagnosticsOf hrequired, hreadsParent.of_diagnosticsOf hparent⟩
  next hmap => exact .refused (Lang.record_eq_false hmap) (by simp)

/-- A part that may be null. -/
theorem buildOptional_builds {α : Type} {build : Value → Built α} {lang : Lang}
    {meaning : Value → α} (h : ∀ v, Builds (build v) (lang v) (some (meaning v))) (v : Value) :
    Builds (buildOptional build v) (lang v || decide (v = .null)) (partOf? meaning v) := by
  unfold buildOptional partOf?
  split
  next hnull => exact .built (by simp [hnull]) rfl
  next hnull =>
    have hlang : (lang v || decide (v = .null)) = lang v := by simp [hnull]
    rw [hlang]
    exact h v

-- ============================================================== statements

/-- A statement's keys besides `kind` and `id` fit. -/
def fitsKind (kind : Kind) (m : Entries) : Bool := Lang.loose (statementFields kind) (.map m)

section

variable {diags : List Diagnostic} {closed : Bool}

theorem buildState_builds (m : Entries) (id : String) (hdiags : Builds (diags, ()) closed ()) :
    Builds (buildState diags m id) (closed && fitsKind .state m)
      (some (.state id (asStr (m.get "terminal_outcome")))) := by
  have hfits : fitsKind .state m =
      (asStr? (m.get "terminal_outcome")).any fun text =>
        text.all (· ∈ supportedTerminalOutcomes) := by
    simp [fitsKind, statementFields, Lang.fits_maybe, word_or_null]
  rw [hfits]
  unfold buildState
  split
  next hnone => exact .refused (by simp [hnone]) (by simp)
  next outcome hsome =>
    rw [hsome, (asStr?_eq_some hsome).2]
    split
    next hword => simpa [hword] using hdiags.keep (some (Statement.state id outcome))
    next hword => exact .refused (by simp [hword]) (by simp)

theorem buildArtifactType_builds (m : Entries) (id : String)
    (hdiags : Builds (diags, ()) closed ()) :
    Builds (buildArtifactType diags m id) (closed && fitsKind .artifactType m)
      (some (.artifactType id (asStr (m.get "template")))) := by
  have hfits : fitsKind .artifactType m =
      (Lang.text (m.get "template") || decide (m.get "template" = .null)) := by
    simp [fitsKind, statementFields, Lang.fits_maybe]
  rw [hfits]
  unfold buildArtifactType
  split
  next hnone => exact .refused (by simp [asStr?_eq_none.mp hnone]) (by simp)
  next template hsome =>
    rw [(asStr?_eq_some hsome).1, (asStr?_eq_some hsome).2, Bool.and_true]
    exact hdiags.keep _

theorem buildWorker_builds (m : Entries) (id : String) (hdiags : Builds (diags, ()) closed ()) :
    Builds (buildWorker diags m id) (closed && fitsKind .worker m)
      (some (.worker id (asStr (m.get "type")) (instructionsOf (m.get "instructions")))) := by
  have hfits : fitsKind .worker m =
      ((Lang.text (m.get "type") || decide (m.get "type" = .null)) &&
        (Field.may "instructions" instructionsLang).fits m) := by
    simp [fitsKind, statementFields, Lang.fits_maybe]
  rw [hfits]
  unfold buildWorker
  split
  next hnone => exact .refused (by simp [asStr?_eq_none.mp hnone]) (by simp)
  next type hsome =>
    rw [(asStr?_eq_some hsome).1, (asStr?_eq_some hsome).2, Bool.true_and]
    exact (hdiags.append (buildInstructionRefs_builds m) fun _ refs => refs).gate
      (Statement.worker id type)

end

/-- The keys of requirements are strings. -/
theorem requirementKeys_reads (requirements : Entries) :
    Reads (requirements.mapM fun e => (requirementKey e.1).map (·, e.2))
      (Lang.strKeys (.map requirements))
      (requirements.map fun e => (textOf (.scalar e.1), e.2)) := by
  refine mapM_reads (fun e => ?_) requirements
  obtain ⟨key, v⟩ := e
  cases key with
  | str state => exact .ok
  | null | bool | int | float | other => exact .error

/-- The requirement sets of the states of a task type. -/
def requirementsMeaning (v : Value) : List (String × RequirementSet) :=
  (entriesOf v).map fun e => (textOf (.scalar e.1), requirementSetMeaning e.2)

theorem buildTaskType_builds (m : Entries) (id : String) :
    Builds (buildTaskType m id) (fitsKind .taskType m)
      (some (.taskType id (requirementsMeaning (m.get "requirements"))
        (instructionsOf (m.get "instructions")))) := by
  have hfits : fitsKind .taskType m =
      ((Field.may "instructions" instructionsLang).fits m &&
        (Lang.both .strKeys (.mapping requirementSetLang) (m.get "requirements") ||
          decide (m.get "requirements" = .null))) := by
    simp [fitsKind, statementFields, Lang.fits_maybe, Bool.and_comm]
  have hinstructions := buildInstructionRefs_builds m
  rw [hfits]
  unfold buildTaskType
  dsimp only
  split
  next hnull =>
    rw [hnull]
    simpa [requirementsMeaning, entriesOf] using hinstructions.gate (Statement.taskType id [])
  next requirements hrequirements =>
    rw [hrequirements]
    have hkeys := requirementKeys_reads requirements
    cases hstr : Lang.strKeys (.map requirements) with
    | false =>
        obtain ⟨d, hd⟩ := hkeys.refuses hstr
        rw [hd]
        exact .refused (by simp [Lang.both, hstr]) (by simp)
    | true =>
        rw [hkeys.accepts hstr]
        have hsets := buildEntries_builds (fun (_ : String) v => buildRequirementSet_builds v)
          (requirements.map fun e => (textOf (.scalar e.1), e.2))
        have h := (hinstructions.append hsets Prod.mk).gate fun out =>
          Statement.taskType id out.2 out.1
        simpa [Lang.both, hstr, Lang.mapping, requirementsMeaning, entriesOf,
          Function.comp_def] using h
  next hnull hmap =>
    refine .refused ?_ (by simp)
    have hboth : Lang.both .strKeys (.mapping requirementSetLang) (m.get "requirements") =
        false := by
      cases hraw : m.get "requirements" with
      | map requirements => exact absurd hraw (hmap requirements)
      | scalar | list => rfl
    simpa [hboth] using fun _ => hnull

theorem buildArgSpecs_builds (m : Entries) :
    Builds (buildArgSpecs m) (Lang.mapping argSpecLang (m.get "args") || decide (m.get "args" = .null))
      (some (argSpecsMeaning (m.get "args"))) := by
  unfold buildArgSpecs
  cases m.get "args" with
  | scalar s =>
      cases s with
      | null => exact .built rfl rfl
      | bool | int | str | float | other => exact .refused rfl (by simp)
  | map args =>
      have h := (buildEntries_builds buildArgSpec_builds args).gate fun specs => specs
      simpa [Lang.mapping, argSpecsMeaning, entriesOf] using h
  | list => exact .refused rfl (by simp)

/-- A statement made of what was built. -/
theorem Builds.map {β γ : Type} {diags : List Diagnostic} {out : Option β} {inLang : Bool}
    {meaning : β} (h : Builds (diags, out) inLang (some meaning)) (f : β → γ) :
    Builds (diags, out.map f) inLang (some (f meaning)) where
  accepts := fun hl => by
    cases h.accepts hl
    rfl
  refuses := h.refuses

theorem buildValidationType_builds (m : Entries) (id : String) :
    Builds (buildValidationType m id) (fitsKind .validationType m)
      (some (.validationType id (argSpecsMeaning (m.get "args")))) := by
  have hfits : fitsKind .validationType m =
      (Lang.mapping argSpecLang (m.get "args") || decide (m.get "args" = .null)) := by
    simp [fitsKind, statementFields, Lang.fits_maybe]
  rw [hfits]
  exact (buildArgSpecs_builds m).map _

theorem buildOperationType_builds (m : Entries) (id : String) :
    Builds (buildOperationType m id) (fitsKind .operationType m)
      (some (.operationType id (argSpecsMeaning (m.get "args")))) := by
  have hfits : fitsKind .operationType m =
      (Lang.mapping argSpecLang (m.get "args") || decide (m.get "args" = .null)) := by
    simp [fitsKind, statementFields, Lang.fits_maybe]
  rw [hfits]
  exact (buildArgSpecs_builds m).map _

/-- A boolean or null. -/
theorem bool_or_null (v : Value) :
    (Lang.bool v || decide (v = .null)) = (asBool? v).isSome := by
  cases v with
  | scalar s => cases s <;> simp [asBool?, Lang.bool]
  | list | map => simp [asBool?, Lang.bool]

theorem asBool?_eq_some {v : Value} {b : Option Bool} (h : asBool? v = some b) :
    boolOf? v = b := by
  cases v with
  | scalar s => cases s <;> simp_all [asBool?, boolOf?]
  | list | map => cases h

theorem buildTransition_builds (m : Entries) (id : String) (hid : textOf (m.get "id") = id) :
    Builds (buildTransition m id) (fitsKind .transition m)
      (some (.transition (transitionMeaning (.map m)))) := by
  have hfits : fitsKind .transition m =
      ((asStr (m.get "task_type")).isSome && ((asStr (m.get "from")).isSome &&
        ((asStr (m.get "to")).isSome &&
        ((Lang.text (m.get "worker") || decide (m.get "worker" = .null)) &&
        (Lang.bool ((m.get? "default_for_scheduler").getD (.bool false)) &&
        ((requirementSetLang (m.get "requires") || decide (m.get "requires" = .null)) &&
        ((transactionLang (m.get "transaction") || decide (m.get "transaction" = .null)) &&
        ((Field.may "instructions" instructionsLang).fits m &&
        ((derivesLang (m.get "derives") || decide (m.get "derives" = .null)) &&
          (asBool? (m.get "review")).isSome))))))))) := by
    simp only [fitsKind, statementFields, Lang.loose_cons, Lang.fits_must, any_text_eq,
      Lang.fits_maybe, Lang.fits_may_getD (rfl : Lang.bool (.bool false) = true),
      Lang.loose_nil, Bool.and_true, bool_or_null]
  rw [hfits]
  unfold buildTransition
  dsimp only
  split
  next hmissing =>
    refine .refused ?_ (by simpa using hmissing)
    rw [ne_eq, List.map_eq_nil_iff, List.filter_eq_nil_iff] at hmissing
    push Not at hmissing
    obtain ⟨key, hkey, habsent⟩ := hmissing
    have hnone := asStr_of_not_has habsent
    simp only [List.mem_cons, List.not_mem_nil, or_false] at hkey
    rcases hkey with rfl | rfl | rfl <;> simp [hnone]
  next hmissing =>
  split
  next hnone => exact .refused (by simp [hnone]) (by simp)
  next taskType htask =>
  split
  next hnone => exact .refused (by simp [hnone]) (by simp)
  next fromState hfrom =>
  split
  next hnone => exact .refused (by simp [hnone]) (by simp)
  next toState hto =>
  split
  next hnone => exact .refused (by simp [asStr?_eq_none.mp hnone]) (by simp)
  next worker hworker =>
  split
  next hnone => exact .refused (by simp [hnone]) (by simp)
  next review hreview =>
  split
  next defaultForScheduler hdefault =>
    have hmeaning : transitionMeaning (.map m) =
        { id := id, taskType := taskType, fromState := fromState, toState := toState,
          worker := worker, instructions := instructionsOf (m.get "instructions"),
          defaultForScheduler := defaultForScheduler, review := review,
          requires := (partOf? requirementSetMeaning (m.get "requires")).getD {},
          transaction := partOf? transactionMeaning (m.get "transaction"),
          derives := partOf? derivesMeaning (m.get "derives") } := by
      simp only [transitionMeaning, entriesOf, hid, textOf_eq htask, textOf_eq hfrom,
        textOf_eq hto, (asStr?_eq_some hworker).2, boolOf_get hdefault, asBool?_eq_some hreview]
    have h := (((buildInstructionRefs_builds m).append
      (buildOptional_builds buildRequirementSet_builds (m.get "requires")) Prod.mk).append
      (buildOptional_builds buildTransaction_builds (m.get "transaction")) Prod.mk).append
      (buildOptional_builds buildDerives_builds (m.get "derives")) Prod.mk
    have h := h.gate fun out => Statement.transition
      { id := id, taskType := taskType, fromState := fromState, toState := toState,
        worker := worker, instructions := out.1.1.1,
        defaultForScheduler := defaultForScheduler, review := review,
        requires := out.1.1.2.getD {}, transaction := out.1.2, derives := out.2 }
    rw [hmeaning, htask, hfrom, hto, (asStr?_eq_some hworker).1, hdefault, hreview]
    simpa [Lang.bool, Bool.and_assoc, Bool.and_comm, Bool.and_left_comm] using h
  next hdefault => exact .refused (by simp [bool_eq_false hdefault]) (by simp)

-- ============================================================= statement

/-- The kinds whose statements are closed for the loader. -/
def loaderClosed : Kind → Bool
  | .state | .artifactType | .worker => true
  | .taskType | .validationType | .operationType | .transition => false

/-- The spelling of a kind is read back. -/
theorem Kind.ofString?_value (k : Kind) : Kind.ofString? k.value = some k := by
  cases k <;> decide

theorem Kind.value_injective {k k' : Kind} (h : k.value = k'.value) : k = k' := by
  have hread := congrArg Kind.ofString? h
  rw [Kind.ofString?_value, Kind.ofString?_value] at hread
  exact Option.some.inj hread

theorem Kind.mem_supportedKinds (k : Kind) : k ∈ supportedKinds := by
  cases k <;> decide

/-- The keys of the fields are the keys `langdef` lists. -/
theorem fieldsOf_names (kind : Kind) : (fieldsOf kind).map (·.name) = statementKeys kind := by
  cases kind <;> rfl

section

variable {closed : Kind → Bool} {m : Entries}

/-- The entries of a statement fit the fields of a kind. -/
theorem loose_fieldsOf (kind : Kind) :
    Lang.loose (fieldsOf kind) (.map m) =
      ((m.get? "kind").any (Lang.word [kind.value]) &&
        ((m.get? "id").any Lang.text && fitsKind kind m)) := by
  simp only [fieldsOf, Lang.loose_cons, Lang.fits_must, fitsKind]

/-- The statements of a kind. -/
theorem statementLangOf_map (kind : Kind) :
    statementLangOf closed kind (.map m) =
      ((!closed kind || decide (m.strays (statementKeys kind) = [])) &&
        ((m.get? "kind").any (Lang.word [kind.value]) &&
          ((m.get? "id").any Lang.text && fitsKind kind m))) := by
  unfold statementLangOf
  cases closed kind with
  | true => simp [Lang.record_map, fieldsOf_names, loose_fieldsOf]
  | false => simp [loose_fieldsOf]

/-- A statement that names its kind is one of that kind or none. -/
theorem statementLang_of_kind {name : String} {kind : Kind}
    (hname : m.get? "kind" = some (.str name)) (hkind : Kind.ofString? name = some kind) :
    statementLang closed (.map m) = statementLangOf closed kind (.map m) := by
  have hvalue : kind.value = name := by simpa using List.find?_some hkind
  rw [Bool.eq_iff_iff]
  constructor
  · intro h
    obtain ⟨kind', -, hkind'⟩ := List.any_eq_true.mp h
    have hword : kind'.value = kind.value := by
      rw [statementLangOf_map, Bool.and_eq_true, Bool.and_eq_true, hname] at hkind'
      have := hkind'.2.1
      simp [Lang.word] at this
      rw [hvalue, this]
    rw [← Kind.value_injective hword]
    exact hkind'
  · exact fun h => List.any_eq_true.mpr ⟨kind, Kind.mem_supportedKinds kind, h⟩

/-- A statement names a kind. -/
theorem statementLang_kind (h : statementLang closed (.map m) = true) :
    ∃ kind : Kind, m.get? "kind" = some (.str kind.value) := by
  obtain ⟨kind, -, hkind⟩ := List.any_eq_true.mp h
  rw [statementLangOf_map, Bool.and_eq_true, Bool.and_eq_true] at hkind
  refine ⟨kind, ?_⟩
  obtain ⟨v, hv, hword⟩ := (Option.any_eq_true _ _).mp hkind.2.1
  unfold Lang.word at hword
  split at hword
  next s => rw [hv, List.mem_singleton.mp (of_decide_eq_true hword)]
  next => cases hword

/-- What is no mapping is no statement. -/
theorem statementLang_eq_false {v : Value} (h : ∀ m, v ≠ .map m) :
    statementLang closed v = false := by
  rw [← Bool.not_eq_true]
  intro hlang
  obtain ⟨kind, -, hkind⟩ := List.any_eq_true.mp hlang
  unfold statementLangOf at hkind
  cases v with
  | map m => exact h m rfl
  | scalar | list =>
      split at hkind <;> cases hkind

end

theorem buildStatement_builds (idx : Nat) (v : Value) :
    Builds (buildStatement idx v) (statementLang loaderClosed v) (some (statementMeaning v)) := by
  unfold buildStatement
  split
  next m =>
    dsimp only
    split
    next hnone =>
      refine .refused ?_ (by simp)
      rw [← Bool.not_eq_true]
      intro h
      obtain ⟨kind, hkind⟩ := statementLang_kind h
      rw [hnone] at hkind
      cases hkind
    next name hname =>
      split
      next hunknown =>
        refine .refused ?_ (by simp)
        rw [← Bool.not_eq_true]
        intro h
        obtain ⟨kind, hkind⟩ := statementLang_kind h
        rw [hname] at hkind
        cases hkind
        rw [Kind.ofString?_value] at hunknown
        cases hunknown
      next kind hkind =>
        rw [statementLang_of_kind hname hkind, statementLangOf_map]
        split
        next hnone => exact .refused (by simp [hnone]) (by simp)
        next id hid =>
          have hvalue : kind.value = name := by simpa using List.find?_some hkind
          have hmeaning : statementMeaning (.map m) = statementMeaningOf kind (.map m) := by
            simp [statementMeaning, entriesOf, Entries.get_eq_of_get? hname, textOf, asStr, hkind]
          have htext : textOf (Entries.get m "id") = id :=
            textOf_eq (by rw [Entries.get_eq_of_get? hid]; rfl)
          have hword : (Entries.get? m "kind").any (Lang.word [kind.value]) = true := by
            simp [hname, hvalue, Lang.word]
          have hany : (Entries.get? m "id").any Lang.text = true := by
            simp [hid, Lang.text]
          rw [hmeaning, hword, hany, Bool.true_and, Bool.true_and]
          have hdiags := unknownKeys_builds (statementKeys kind) s!"{kind.value} statement" m
          subst hvalue
          cases kind with
          | state =>
              simpa [loaderClosed, statementMeaningOf, entriesOf, htext] using
                buildState_builds m id hdiags
          | artifactType =>
              simpa [loaderClosed, statementMeaningOf, entriesOf, htext] using
                buildArtifactType_builds m id hdiags
          | worker =>
              simpa [loaderClosed, statementMeaningOf, entriesOf, htext] using
                buildWorker_builds m id hdiags
          | taskType =>
              simpa [loaderClosed, statementMeaningOf, requirementsMeaning, entriesOf, htext] using
                buildTaskType_builds m id
          | validationType =>
              simpa [loaderClosed, statementMeaningOf, entriesOf, htext] using
                buildValidationType_builds m id
          | operationType =>
              simpa [loaderClosed, statementMeaningOf, entriesOf, htext] using
                buildOperationType_builds m id
          | transition =>
              simpa [loaderClosed, statementMeaningOf] using buildTransition_builds m id htext
        next raw hstr hraw =>
          refine .refused ?_ (by simp)
          simp [hraw, text_eq_false hstr]
    next raw hstr hraw =>
      refine .refused ?_ (by simp)
      rw [← Bool.not_eq_true]
      intro h
      obtain ⟨kind, hkind⟩ := statementLang_kind h
      rw [hraw] at hkind
      cases hkind
      exact hstr _ rfl
  next hmap => exact .refused (statementLang_eq_false hmap) (by simp)

-- ================================================================= document

theorem buildStatements_builds (items : List Value) (idx : Nat) :
    Builds (buildStatements idx items) (items.all (statementLang loaderClosed))
      (items.map statementMeaning) := by
  induction items generalizing idx with
  | nil => exact .built rfl rfl
  | cons v rest ih =>
      exact (buildStatement_builds idx v).append (ih (idx + 1)) fun stmt others =>
        stmt.toList ++ others

/-- The storage as it is loaded: the keys are their texts. -/
def coerced (storage : Value) : Option Entries :=
  partOf? (fun storage => entriesOf (coerceStorageConfig storage)) storage

theorem buildStorage_builds (v : Value) :
    Builds (buildStorage v) (Lang.anyMapping v || decide (v = .null)) (coerced v) := by
  cases v with
  | scalar s =>
      cases s with
      | null => exact .built rfl rfl
      | bool | int | str | float | other => exact .refused rfl (by simp [buildStorage])
  | list => exact .refused rfl (by simp [buildStorage])
  | map m => exact .built rfl rfl

/-- What the loader builds of a document. -/
def loadedMeaning (v : Value) : WorkflowDocument :=
  { documentMeaning v with storage := coerced ((entriesOf v).get "storage") }

theorem unknownTopKeys_builds (m : Entries) :
    Builds (unknownTopKeys m, ()) (decide (m.strays documentKeys = [])) () :=
  .checked (by simp [unknownTopKeys])

/-- The mappings among the documents. -/
theorem documentLang_map (closed : Kind → Bool) (m : Entries) :
    documentLang closed (.map m) =
      (decide (m.strays documentKeys = []) &&
        ((m.get? "schema_version").any (Lang.number supportedSchemaVersions) &&
        ((m.get? "statements").any (Lang.list (statementLang closed)) &&
          (Lang.anyMapping (m.get "storage") || decide (m.get "storage" = .null))))) := by
  simp only [documentLang, Lang.record_map, Lang.loose_cons, Lang.fits_must, Lang.fits_maybe,
    Lang.loose_nil, Bool.and_true]
  rfl

theorem buildAst_builds (v : Value) :
    Builds (buildAst v) (documentLang loaderClosed v) (some (loadedMeaning v)) := by
  unfold buildAst
  split
  next => exact .refused rfl (by simp)
  next m =>
    rw [documentLang_map]
    dsimp only
    split
    next hnone => exact .refused (by simp [hnone]) (by simp)
    next version hversion =>
      split
      next hnumber => exact .refused (by simp [hversion, Lang.number, hnumber]) (by simp)
      next hnumber =>
        split
        next hnone => exact .refused (by simp [hnone]) (by simp)
        next items hitems =>
          have hstatements := (unknownTopKeys_builds m).append (buildStatements_builds items 0)
            fun _ statements => statements
          have hversionLang : (Entries.get? m "schema_version").any
              (Lang.number supportedSchemaVersions) = true := by
            simp [hversion, Lang.number, not_not.mp hnumber]
          have hitemsLang : (Entries.get? m "statements").any
              (Lang.list (statementLang loaderClosed)) = items.all (statementLang loaderClosed) := by
            simp [hitems, Lang.list]
          have hmeaning : loadedMeaning (.map m) =
              ⟨version, items.map statementMeaning, coerced (Entries.get m "storage")⟩ := by
            simp only [loadedMeaning, documentMeaning, entriesOf, itemsOf,
              Entries.get_eq_of_get? hversion, Entries.get_eq_of_get? hitems]
          rw [hversionLang, hitemsLang, hmeaning, Bool.true_and, ← Bool.and_assoc]
          generalize (decide (Entries.strays documentKeys m = []) &&
            items.all (statementLang loaderClosed)) = inLang at hstatements ⊢
          cases inLang with
          | false =>
              rw [if_pos (hstatements.refuses rfl), Bool.false_and]
              exact .refused rfl (hstatements.refuses rfl)
          | true =>
              obtain ⟨hdiags, hbuilt⟩ := Prod.mk.inj (hstatements.accepts rfl)
              dsimp only at hdiags
              rw [hdiags, hbuilt, Bool.true_and, if_neg (not_not.mpr rfl)]
              split
              next hnone =>
                rw [Entries.get_eq_null_of_get? hnone]
                exact .built rfl rfl
              next raw hraw =>
                rw [Entries.get_eq_of_get? hraw]
                exact (buildStorage_builds raw).gate (WorkflowDocument.mk version _)
        next raw hlist hraw =>
          refine .refused ?_ (by simp)
          have hitems : Lang.list (statementLang loaderClosed) raw = false := by
            cases raw with
            | list items => exact absurd rfl (hlist items)
            | scalar | map => rfl
          simp [hraw, hitems]
    next raw hint hraw =>
      refine .refused ?_ (by simp)
      have hnumber : Lang.number supportedSchemaVersions raw = false := by
        unfold Lang.number
        split
        next n => exact absurd rfl (hint n)
        next => rfl
      simp [hraw, hnumber]
  next hnull hmap => exact .refused (Lang.record_eq_false hmap) (by simp)

-- ================================================================== storage

/-- The keys of a value are strings at every level, in no mapping two of them
alike. -/
def plainKeys (v : Value) : Bool := v.all (fun _ => true) fun m => decide (Entries.Texts m)

section

variable {α β : Type} {freeze : α → β}

/-- An entry set changes no keys or adds one. -/
theorem assign_keys (key : String) (value : β) (m : List (Scalar × β)) :
    (assign key value m).map Prod.fst =
      if Scalar.str key ∈ m.map Prod.fst then m.map Prod.fst
      else m.map Prod.fst ++ [.str key] := by
  induction m with
  | nil => rfl
  | cons e rest ih =>
      obtain ⟨k, v⟩ := e
      unfold assign
      split
      next hk => simp [hk]
      next hk =>
        rw [List.map_cons, ih, List.map_cons]
        by_cases hrest : Scalar.str key ∈ rest.map Prod.fst
        · rw [if_pos hrest, if_pos (List.mem_cons_of_mem _ hrest)]
        · rw [if_neg hrest, if_neg (by simpa [Ne.symm hk] using hrest), List.cons_append]

theorem assign_fresh {key : String} {value : β} {m : List (Scalar × β)}
    (h : Scalar.str key ∉ m.map Prod.fst) : assign key value m = m ++ [(.str key, value)] := by
  induction m with
  | nil => rfl
  | cons e rest ih =>
      rw [List.map_cons, List.mem_cons, not_or] at h
      obtain ⟨k, v⟩ := e
      unfold assign
      rw [if_neg (Ne.symm h.1), ih h.2, List.cons_append]

/-- Texts stay texts. -/
theorem texts_assign {m : List (Scalar × β)} (h : Entries.Texts m) (key : String) (value : β) :
    Entries.Texts (assign key value m) := by
  have hkeys : (∀ k ∈ m.map Prod.fst, ∃ s, k = .str s) := by
    simpa using h.1
  have hout : ∀ k ∈ (assign key value m).map Prod.fst, ∃ s, k = .str s := by
    rw [assign_keys]
    split
    next => exact hkeys
    next =>
      intro k hk
      rcases List.mem_append.mp hk with hk | hk
      · exact hkeys k hk
      · exact ⟨key, List.mem_singleton.mp hk⟩
  refine ⟨by simpa using hout, ?_⟩
  rw [assign_keys]
  split
  next => exact h.2
  next hfresh =>
    exact List.nodup_append.mpr ⟨h.2, by simp, fun k hk k' hk' => by
      rintro rfl
      rw [List.mem_singleton.mp hk'] at hk
      exact hfresh hk⟩

/-- The keys of what is frozen are texts. -/
theorem texts_freezeInto (m : List (Scalar × α)) {done : List (Scalar × β)}
    (h : Entries.Texts done) : Entries.Texts (freezeInto freeze done m) := by
  induction m generalizing done with
  | nil => simpa [freezeInto] using h
  | cons e rest ih =>
      rw [freezeInto]
      exact ih (texts_assign h _ _)

/-- Texts stay in their place. -/
theorem freezeInto_of_texts (m : List (Scalar × α)) {done : List (Scalar × β)}
    (h : Entries.Texts (done ++ m.map fun e => (e.1, freeze e.2))) :
    freezeInto freeze done m = done ++ m.map fun e => (e.1, freeze e.2) := by
  induction m generalizing done with
  | nil => simp [freezeInto]
  | cons e rest ih =>
      obtain ⟨k, v⟩ := e
      obtain ⟨key, hkey⟩ := h.1 (k, freeze v) (by simp)
      dsimp only at hkey
      subst hkey
      have hfresh : Scalar.str key ∉ done.map Prod.fst := by
        have hnodup := h.2
        rw [List.map_append, List.nodup_append] at hnodup
        exact fun hmem => hnodup.2.2 _ hmem (Scalar.str key) (by simp) rfl
      rw [freezeInto, keyText, assign_fresh hfresh, ih]
      · simp
      · simpa [List.append_assoc] using h

theorem texts_nil : Entries.Texts ([] : List (Scalar × β)) := ⟨by simp, by simp⟩

/-- A dictionary whose keys are texts keeps them. -/
theorem freeze_of_texts {m : List (Scalar × α)} (h : Entries.Texts m) :
    freezeInto freeze [] m = m.map fun e => (e.1, freeze e.2) := by
  refine freezeInto_of_texts m ⟨fun e he => ?_, ?_⟩
  · obtain ⟨entry, hentry, rfl⟩ := List.mem_map.mp (List.nil_append _ ▸ he)
    exact h.1 entry hentry
  · simpa [Function.comp_def] using h.2

end

/-- Coercing entries is freezing them. -/
theorem coerceEntries_eq (m done : Entries) :
    coerceEntries done m = freezeInto coerceStorageConfig done m := by
  induction m generalizing done with
  | nil => rfl
  | cons e rest ih =>
      rw [coerceEntries, ih]
      rfl

mutual

/-- A configuration is coerced to itself if its keys are plain. -/
theorem coerce_eq_iff : (v : Value) → (coerceStorageConfig v = v ↔ plainKeys v = true)
  | .scalar s => by simp [coerceStorageConfig, plainKeys, Value.all]
  | .list items => by
      have h := coerceItems_eq_iff items
      simpa [coerceStorageConfig, plainKeys, Value.all] using h
  | .map m => by
      have hvalues := coerceValues_eq_iff m
      simp only [coerceStorageConfig, plainKeys, Value.all, Bool.and_eq_true, decide_eq_true_eq,
        Value.map.injEq, coerceEntries_eq]
      constructor
      · intro h
        have htexts : Entries.Texts m := h ▸ texts_freezeInto m texts_nil
        rw [freeze_of_texts htexts] at h
        exact ⟨htexts, hvalues.mp h⟩
      · intro ⟨htexts, hplain⟩
        rw [freeze_of_texts htexts]
        exact hvalues.mpr hplain

theorem coerceItems_eq_iff : (items : List Value) → (coerceItems items = items ↔
    Value.allItems (fun _ => true) (fun m => decide (Entries.Texts m)) items = true)
  | [] => by simp [coerceItems, Value.allItems]
  | item :: rest => by
      have h := coerce_eq_iff item
      have hrest := coerceItems_eq_iff rest
      unfold plainKeys at h
      simp [coerceItems, Value.allItems, h, hrest]

theorem coerceValues_eq_iff : (m : Entries) →
    ((m.map fun e => (e.1, coerceStorageConfig e.2)) = m ↔
      Value.allEntries (fun _ => true) (fun m => decide (Entries.Texts m)) m = true)
  | [] => by simp [Value.allEntries]
  | (key, value) :: rest => by
      have h := coerce_eq_iff value
      have hrest := coerceValues_eq_iff rest
      unfold plainKeys at h
      simp [Value.allEntries, h, hrest]

end

theorem allEntries_assign {p : Scalar → Bool} {q : Entries → Bool} {m : Entries}
    (h : Value.allEntries p q m = true) (key : String) {value : Value}
    (hvalue : value.all p q = true) : Value.allEntries p q (assign key value m) = true := by
  induction m with
  | nil => simp [assign, Value.allEntries, hvalue]
  | cons e rest ih =>
      obtain ⟨k, v⟩ := e
      rw [Value.allEntries, Bool.and_eq_true] at h
      unfold assign
      split
      next => rw [Value.allEntries, hvalue, h.2, Bool.and_self]
      next => rw [Value.allEntries, h.1, ih h.2, Bool.and_self]

mutual

/-- What is coerced has plain keys. -/
theorem plainKeys_coerce : (v : Value) → plainKeys (coerceStorageConfig v) = true
  | .scalar s => rfl
  | .list items => plain_coerceItems items
  | .map m => by
      have hvalues := plain_coerceEntries m [] rfl
      have htexts : Entries.Texts (coerceEntries [] m) := by
        rw [coerceEntries_eq]
        exact texts_freezeInto m texts_nil
      simp only [coerceStorageConfig, plainKeys, Value.all, Bool.and_eq_true, decide_eq_true_eq]
      exact ⟨htexts, hvalues⟩

theorem plain_coerceItems : (items : List Value) → Value.allItems (fun _ => true)
    (fun m => decide (Entries.Texts m)) (coerceItems items) = true
  | [] => rfl
  | item :: rest => by
      have h := plainKeys_coerce item
      unfold plainKeys at h
      rw [coerceItems, Value.allItems, h, plain_coerceItems rest, Bool.and_self]

theorem plain_coerceEntries : (m done : Entries) →
    Value.allEntries (fun _ => true) (fun m => decide (Entries.Texts m)) done = true →
    Value.allEntries (fun _ => true) (fun m => decide (Entries.Texts m))
      (coerceEntries done m) = true
  | [], _, hdone => hdone
  | (key, value) :: rest, _, hdone =>
      plain_coerceEntries rest _ (allEntries_assign hdone (keyText key) (plainKeys_coerce value))

end

theorem plainKeys_buildStorage {raw : Value} {config : Entries}
    (h : (buildStorage raw).2 = some config) : plainKeys (.map config) = true := by
  cases raw with
  | scalar s => cases s <;> cases h
  | list items => cases h
  | map m =>
      cases h
      exact plainKeys_coerce (.map m)

/-- The storage of a document that is built has plain keys. -/
theorem plainKeys_storage {v : Value} {document : WorkflowDocument} {config : Entries}
    (h : (buildAst v).2 = some document) (hstorage : document.storage = some config) :
    plainKeys (.map config) = true := by
  cases v with
  | list items => cases h
  | scalar s => cases s <;> cases h
  | map parsed =>
      simp only [buildAst] at h
      split at h
      next => cases h
      next =>
        split at h
        next => cases h
        next =>
          split at h
          next => cases h
          next =>
            split at h
            next => cases h
            next =>
              split at h
              next =>
                cases h
                cases hstorage
              next raw _ =>
                split at h
                next => cases h
                next =>
                  cases h
                  exact plainKeys_buildStorage hstorage
          next => cases h
      next => cases h

-- ============================================== the loader and the grammar

/-- The loader accepts a value if it can be derived from the grammar and only
then, and what it builds is what the value says. -/
def LoadsExactly (v : Value) : Prop :=
  ((∃ doc, buildAst v = ([], some doc)) ↔ derivable v = true) ∧
    ∀ doc, buildAst v = ([], some doc) → doc = documentMeaning v

/-- A statement of a kind that is not closed for the loader has the keys of
its kind only. -/
def KnownKeys (stmt : Value) : Prop :=
  ∀ kind, (entriesOf stmt).get? "kind" = some (.str (Kind.value kind)) →
    loaderClosed kind = false → (entriesOf stmt).strays (statementKeys kind) = []

/-- The grammar's statements are those the loader builds whose keys are
known. -/
theorem statementLang_iff (v : Value) :
    statementLang (fun _ => true) v = true ↔ statementLang loaderClosed v = true ∧ KnownKeys v := by
  cases v with
  | scalar | list =>
      simp [statementLang_eq_false]
  | map m =>
      constructor
      · intro h
        obtain ⟨kind, hkind⟩ := statementLang_kind h
        have hread := Kind.ofString?_value kind
        rw [statementLang_of_kind hkind hread, statementLangOf_map] at h ⊢
        simp only [Bool.not_true, Bool.false_or, Bool.and_eq_true, decide_eq_true_eq] at h
        refine ⟨by simp [h.1, h.2.1, h.2.2.1, h.2.2.2], fun kind' hkind' _ => ?_⟩
        rw [entriesOf, hkind] at hkind'
        have hsame : kind = kind' := Kind.value_injective (by injections)
        exact hsame ▸ h.1
      · intro ⟨h, hknown⟩
        obtain ⟨kind, hkind⟩ := statementLang_kind h
        have hread := Kind.ofString?_value kind
        rw [statementLang_of_kind hkind hread, statementLangOf_map] at h ⊢
        have hkeys : Entries.strays (statementKeys kind) m = [] := by
          cases hclosed : loaderClosed kind with
          | true =>
              rw [hclosed, Bool.not_true, Bool.false_or, Bool.and_eq_true] at h
              exact of_decide_eq_true h.1
          | false => exact hknown kind hkind hclosed
        rw [Bool.and_eq_true] at h ⊢
        exact ⟨by simp [hkeys], h.2⟩

/-- The statements of a document. -/
def statementsOf (v : Value) : List Value := itemsOf ((entriesOf v).get "statements")

/-- The grammar's documents are those the loader builds whose statements have
known keys. -/
theorem derivable_iff (v : Value) :
    derivable v = true ↔
      documentLang loaderClosed v = true ∧ ∀ stmt ∈ statementsOf v, KnownKeys stmt := by
  unfold derivable
  cases v with
  | scalar | list => simp [documentLang, Lang.record]
  | map m =>
      have hstatements : (Entries.get? m "statements").any
            (Lang.list (statementLang fun _ => true)) = true ↔
          (Entries.get? m "statements").any (Lang.list (statementLang loaderClosed)) = true ∧
            ∀ stmt ∈ statementsOf (.map m), KnownKeys stmt := by
        unfold statementsOf entriesOf Entries.get
        dsimp only
        cases Entries.get? m "statements" with
        | none => simp [itemsOf]
        | some raw =>
            cases raw with
            | scalar | map => simp [Lang.list]
            | list items => simp [Lang.list, itemsOf, statementLang_iff, forall_and]
      rw [documentLang_map, documentLang_map]
      simp only [Bool.and_eq_true, hstatements]
      tauto

/-- A storage is loaded as it is if its keys are plain. -/
theorem coerced_eq_iff {storage : Value}
    (h : (Lang.anyMapping storage || decide (storage = .null)) = true) :
    coerced storage = partOf? entriesOf storage ↔ plainKeys storage = true := by
  cases storage with
  | scalar s =>
      cases s with
      | null => simp [coerced, partOf?, plainKeys, Value.all]
      | bool | int | str | float | other => cases h
  | list => cases h
  | map m =>
      have hcoerce := coerce_eq_iff (.map m)
      simp only [coerceStorageConfig, Value.map.injEq] at hcoerce
      simpa [coerced, partOf?, coerceStorageConfig, entriesOf] using hcoerce

/-- The loader against the grammar, value by value: they agree unless a value
that would load has a statement of one of the four kinds with a further key, or
a storage with keys that are no strings. -/
theorem loadsExactly_iff (v : Value) :
    LoadsExactly v ↔
      (documentLang loaderClosed v = true →
        (∀ stmt ∈ statementsOf v, KnownKeys stmt) ∧
          plainKeys ((entriesOf v).get "storage") = true) := by
  have hbuilds := buildAst_builds v
  unfold LoadsExactly
  cases hlang : documentLang loaderClosed v with
  | false =>
      have hnone : ∀ doc, buildAst v ≠ ([], some doc) := by
        intro doc hdoc
        exact hbuilds.refuses hlang (by rw [hdoc])
      have hderivable : ¬derivable v = true := by
        rw [derivable_iff, hlang]
        simp
      simp [hnone, hderivable]
  | true =>
      have hstorage : (Lang.anyMapping ((entriesOf v).get "storage") ||
          decide ((entriesOf v).get "storage" = .null)) = true := by
        cases v with
        | scalar | list => cases hlang
        | map m =>
            rw [documentLang_map] at hlang
            simp only [Bool.and_eq_true] at hlang
            exact hlang.2.2.2
      have hmeaning : loadedMeaning v = documentMeaning v ↔
          plainKeys ((entriesOf v).get "storage") = true := by
        rw [← coerced_eq_iff hstorage]
        constructor
        · exact fun h => congrArg WorkflowDocument.storage h
        · intro h
          unfold loadedMeaning
          rw [h]
          rfl
      rw [hbuilds.accepts hlang, derivable_iff, hlang]
      simp [hmeaning]

/-- A transition whose `review` is misspelt. -/
def misspeltReview : Value := .map [
  (.str "schema_version", .int 1),
  (.str "statements", .list [.map [
    (.str "kind", .str "transition"),
    (.str "id", .str "draft"),
    (.str "task_type", .str "article"),
    (.str "from", .str "todo"),
    (.str "to", .str "done"),
    (.str "reviw", .bool true)]])]

/-- It is loaded, without the review. -/
theorem misspeltReview_loads : ¬LoadsExactly misspeltReview := by
  intro h
  have hderivable := h.1.mp ⟨_, rfl⟩
  have hrefused : derivable misspeltReview = false := by decide
  rw [hrefused] at hderivable
  cases hderivable

end OpenTulid.Engine
