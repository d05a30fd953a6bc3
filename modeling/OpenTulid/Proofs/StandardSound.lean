/-
What an accepted project contract promises, and for which files.

The commands of an accepted contract are what they should be, whatever the
file: that follows from the accepted forms (`Accepted.commands_wellFormed`).
The runtime is not: a config home may climb out of the workspace or stay at
its root, and a user may have parts that are empty, that are too many, or
whose digits are no ASCII digits. `PlainRuntime` says which texts do none of
this. A file whose bytes are no UTF-8, or one with a key that has no text,
gives no result.
-/
import OpenTulid.Proofs.Standard
import OpenTulid.Lib.Json

namespace OpenTulid.Standard

open Doc (Value Scalar Entries)
open Fallible

variable {P : Python}

-- ======================================================= stripped texts

/-- A character that is no blank is not stripped away. -/
theorem mem_strip {s : String} {c : Char} (hc : c ∈ s.toList) (hspace : isSpace c = false) :
    c ∈ (strip s).toList := by
  have hdrop : c ∈ s.toList.dropWhile isSpace := by
    rw [← List.takeWhile_append_dropWhile (p := isSpace) (l := s.toList)] at hc
    rcases List.mem_append.mp hc with hc | hc
    · exact absurd (List.mem_takeWhile_imp hc) (by simp [hspace])
    · exact hc
  unfold strip
  rw [String.toList_ofList]
  rw [← List.rdropWhile_append_rtakeWhile (p := isSpace) (l := s.toList.dropWhile isSpace)]
    at hdrop
  rcases List.mem_append.mp hdrop with hc | hc
  · exact hc
  · exact absurd (List.mem_rtakeWhile_imp hc) (by simp [hspace])

/-- What is left after stripping has a character that is no blank. -/
theorem exists_of_strip_ne {s : String} (h : strip s ≠ "") :
    ∃ c ∈ s.toList, isSpace c = false := by
  by_contra hno
  apply h
  have hall : ∀ c ∈ s.toList, isSpace c = true := by
    intro c hc
    by_contra hspace
    exact hno ⟨c, hc, by simpa using hspace⟩
  unfold strip
  rw [List.dropWhile_eq_nil_iff.mpr hall]
  rfl

theorem strip_strip_ne {s : String} (h : strip s ≠ "") : strip (strip s) ≠ "" := by
  obtain ⟨c, hc, hspace⟩ := exists_of_strip_ne h
  intro hempty
  have hmem := mem_strip (mem_strip hc hspace) hspace
  rw [hempty] at hmem
  cases hmem

-- ==================================================== what is promised

/-- Digits, at least one. -/
def Digits (chars : List Char) : Prop := chars ≠ [] ∧ ∀ c ∈ chars, c.isDigit = true

/-- `digits` or `digits:digits` -/
def UserForm (user : String) : Prop :=
  ∃ uid, Digits uid ∧
    (user.toList = uid ∨ ∃ gid, Digits gid ∧ user.toList = uid ++ ':' :: gid)

/-- The commands of a contract are what they should be. -/
structure CommandsWellFormed (commands : List ProjectCommand) : Prop where
  filled : commands ≠ []
  apart : (commands.map (·.name)).Nodup
  named : ∀ command ∈ commands, strip command.name ≠ ""
  argv : ∀ command ∈ commands, command.argv ≠ [] ∧
    ∀ part ∈ command.argv, strip part ≠ "" ∧ part ∉ shellControlTokens
  placed : ∀ command ∈ commands,
    PosixPath.isAbsolute command.workingDirectory = false ∧
      ∃ place, PosixPath.resolve (PosixPath.parts command.workingDirectory) = some place
  limited : ∀ command ∈ commands,
    1 ≤ command.timeoutSeconds ∧ command.timeoutSeconds ≤ 3600

/-- The runtime of a contract is what it should be. -/
structure RuntimeWellFormed (runtime : StandardRuntime) : Prop where
  home : PosixPath.isAbsolute runtime.opencodeConfigHome = false ∧
    ∃ place, PosixPath.resolve (PosixPath.parts runtime.opencodeConfigHome) = some place ∧
      place ≠ []
  user : ∀ user, runtime.containerUser = some user → UserForm user

/-- The loader gives a result, and a contract only from a mapping without
foreign fields, with well-formed commands and a well-formed runtime. -/
def Sound (P : Python) (yaml : String → Except String Value) (path : String)
    (file : ContractFile) : Prop :=
  ∃ result, loadStandardContract P yaml path file = .ok result ∧
    ∀ c, result.contract = some c →
      CommandsWellFormed c.commands ∧ RuntimeWellFormed c.runtime ∧
        ∃ content text fields, file = .bytes content ∧
          String.fromUTF8? content = some text ∧ yaml text = .ok (.map fields) ∧
            ∀ m ∈ checkedMappings fields, Known m.1 m.2

-- ========================================================= the commands

theorem ArgvAccepted.parts {raw : Value} {argv : List String} (h : ArgvAccepted raw argv) :
    ∀ part ∈ argv, strip part ≠ "" ∧ part ∉ shellControlTokens := by
  intro part hpart
  refine ⟨?_, h.plain part hpart⟩
  obtain ⟨items, -, rfl, hitems⟩ := h.listed
  obtain ⟨item, hitem, hpart⟩ := List.mem_filterMap.mp hpart
  obtain ⟨text, rfl, hfilled⟩ := hitems item hitem
  unfold argvPart at hpart
  dsimp only at hpart
  rw [if_neg hfilled] at hpart
  obtain rfl := Option.some.inj hpart
  exact strip_strip_ne hfilled

/-- Every command comes from an accepted item. -/
theorem CommandsAccepted.command {raw : Value} {commands : List ProjectCommand}
    (h : CommandsAccepted raw commands) {command : ProjectCommand}
    (hcommand : command ∈ commands) : ∃ fields, CommandAccepted fields command := by
  obtain ⟨items, -, hitems⟩ := h.listed
  clear h
  induction hitems with
  | nil => cases hcommand
  | cons hitem _ ih =>
      rcases List.mem_cons.mp hcommand with rfl | hcommand
      · obtain ⟨fields, -, haccepted⟩ := hitem
        exact ⟨fields, haccepted⟩
      · exact ih hcommand

/-- Accepted commands are well formed, whatever the file. -/
theorem CommandsAccepted.wellFormed {raw : Value} {commands : List ProjectCommand}
    (h : CommandsAccepted raw commands) : CommandsWellFormed commands where
  filled := h.filled
  apart := h.apart
  named := by
    intro command hcommand
    obtain ⟨fields, haccepted⟩ := h.command hcommand
    obtain ⟨text, -, hfilled, hname⟩ := haccepted.name
    rw [hname]
    exact strip_strip_ne hfilled
  argv := by
    intro command hcommand
    obtain ⟨fields, haccepted⟩ := h.command hcommand
    exact ⟨haccepted.argv.filled, haccepted.argv.parts⟩
  placed := by
    intro command hcommand
    obtain ⟨fields, haccepted⟩ := h.command hcommand
    exact ⟨haccepted.directory.relative,
      PosixPath.resolve_of_no_climb haccepted.directory.inside⟩
  limited := by
    intro command hcommand
    obtain ⟨fields, haccepted⟩ := h.command hcommand
    exact haccepted.timeout.2

-- ============================================================ the fields

/-- A value that is no mapping has no fields. -/
theorem known_asMapping {allowed : List String} {raw : Value}
    (h : ∀ fields, raw = .map fields → Known allowed fields) :
    ∀ m ∈ asMapping allowed raw, Known m.1 m.2 := by
  cases raw with
  | scalar s => exact fun m hm => absurd hm List.not_mem_nil
  | list items => exact fun m hm => absurd hm List.not_mem_nil
  | map fields =>
      intro m hm
      obtain rfl := List.mem_singleton.mp hm
      exact h fields rfl

theorem known_commandMappings {item : Value} {command : ProjectCommand}
    (h : ItemAccepted item command) : ∀ m ∈ commandMappings item, Known m.1 m.2 := by
  obtain ⟨fields, rfl, haccepted⟩ := h
  intro m hm
  rcases List.mem_cons.mp hm with rfl | hm
  · exact haccepted.known
  · refine known_asMapping (fun m hm => ?_) m hm
    have hexpect := haccepted.expect
    rw [hm] at hexpect
    generalize command.expect = expect at hexpect
    cases hexpect with
    | given _ _ hknown _ => exact hknown

theorem known_commandsMappings {items : List Value} {commands : List ProjectCommand}
    (h : List.Forall₂ ItemAccepted items commands) :
    ∀ m ∈ items.flatMap commandMappings, Known m.1 m.2 := by
  induction h with
  | nil => exact fun m hm => absurd hm List.not_mem_nil
  | cons hitem _ ih =>
      intro m hm
      rw [List.flatMap_cons] at hm
      rcases List.mem_append.mp hm with hm | hm
      · exact known_commandMappings hitem m hm
      · exact ih m hm

/-- In an accepted mapping no mapping has a foreign field. -/
theorem Accepted.known_all {fields : Entries} {c : StandardContract}
    (h : Accepted P fields c) : ∀ m ∈ checkedMappings fields, Known m.1 m.2 := by
  intro m hm
  rcases List.mem_cons.mp hm with rfl | hm
  · exact h.known
  rcases List.mem_append.mp hm with hm | hm
  · obtain ⟨runtime, hruntime, haccepted⟩ := h.runtime
    rw [hruntime] at hm
    obtain rfl := List.mem_singleton.mp hm
    exact haccepted.known
  rcases List.mem_append.mp hm with hm | hm
  · obtain ⟨items, hitems, hall⟩ := h.commands.listed
    rw [hitems] at hm
    exact known_commandsMappings hall m hm
  · refine known_asMapping (fun m hm => ?_) m hm
    have hretry := h.retry
    rw [hm] at hretry
    generalize c.retry = retry at hretry
    cases hretry with
    | given _ _ _ hknown _ _ _ => exact hknown

-- ============================================================== the user

/-- At most one colon, something on each side of it, and ASCII only. -/
structure PlainUser (user : String) : Prop where
  two : (user.toList.splitOn ':').length ≤ 2
  filled : [] ∉ user.toList.splitOn ':'
  ascii : ∀ c ∈ user.toList, c.toNat < 128

theorem not_colon_of_digits {chars : List Char} (h : Digits chars) : ':' ∉ chars := by
  intro hmem
  exact absurd (h.2 ':' hmem) (by decide)

theorem ascii_of_isDigit {c : Char} (h : c.isDigit = true) : c.toNat < 128 := by
  simp only [Char.isDigit, Bool.and_eq_true, decide_eq_true_eq] at h
  have hle : c.val.toNat ≤ 57 := by simpa using UInt32.le_iff_toNat_le.mp h.2
  show c.val.toNat < 128
  omega

theorem UserForm.plainUser {user : String} (h : UserForm user) : PlainUser user := by
  obtain ⟨uid, huid, huser | ⟨gid, hgid, huser⟩⟩ := h
  · have hsplit : user.toList.splitOn ':' = [uid] := by
      rw [huser, List.splitOn_eq_singleton (not_colon_of_digits huid)]
    refine ⟨by simp [hsplit], ?_, ?_⟩
    · rw [hsplit]
      intro hmem
      exact huid.1 (List.mem_singleton.mp hmem).symm
    · intro c hc
      rw [huser] at hc
      exact ascii_of_isDigit (huid.2 c hc)
  · have hsplit : user.toList.splitOn ':' = [uid, gid] := by
      rw [huser, List.splitOn_append_cons_self_of_not_mem (not_colon_of_digits huid),
        List.splitOn_eq_singleton (not_colon_of_digits hgid)]
    refine ⟨by simp [hsplit], ?_, ?_⟩
    · rw [hsplit]
      intro hmem
      rcases List.mem_cons.mp hmem with h | hmem
      · exact huid.1 h.symm
      · exact hgid.1 (List.mem_singleton.mp hmem).symm
    · intro c hc
      rw [huser] at hc
      rcases List.mem_append.mp hc with hc | hc
      · exact ascii_of_isDigit (huid.2 c hc)
      · rcases List.mem_cons.mp hc with rfl | hc
        · decide
        · exact ascii_of_isDigit (hgid.2 c hc)

/-- Digits of the language that are ASCII are digits. -/
theorem digits_of_isDigits {chars : List Char}
    (hdigits : isDigits P (String.ofList chars) = true)
    (hascii : ∀ c ∈ chars, c.toNat < 128) : Digits chars := by
  unfold isDigits at hdigits
  rw [String.toList_ofList] at hdigits
  obtain ⟨hne, hall⟩ := Bool.and_eq_true_iff.mp hdigits
  refine ⟨?_, ?_⟩
  · rintro rfl
    simp at hne
  · intro c hc
    rw [← P.ascii c (hascii c hc)]
    exact List.all_eq_true.mp hall c hc

theorem ofList_ne {chars : List Char} (h : chars ≠ []) : String.ofList chars ≠ "" := by
  intro heq
  apply h
  rw [← String.toList_ofList (l := chars), heq]
  rfl

/-- A user that is accepted has the form that is meant if and only if it is
plain. -/
theorem userForm_iff_plainUser {user : String} (h : NumericUser P user) :
    UserForm user ↔ PlainUser user := by
  constructor
  · exact UserForm.plainUser
  · intro hplain
    obtain ⟨huid, hgid⟩ := h
    have hjoined : [':'].intercalate (user.toList.splitOn ':') = user.toList :=
      List.intercalate_splitOn ':'
    have htwo := hplain.two
    have hfilled := hplain.filled
    have hascii := hplain.ascii
    unfold userParts at huid hgid
    cases hsplit : user.toList.splitOn ':' with
    | nil => exact absurd hsplit (List.splitOn_ne_nil _ _)
    | cons uid rest =>
        rw [hsplit] at hjoined htwo hfilled huid hgid
        have huidne : uid ≠ [] := fun h => hfilled (by simp [h])
        cases rest with
        | nil =>
            have huser : user.toList = uid := by simpa using hjoined.symm
            have hdigits : isDigits P (String.ofList uid) = true := by
              simpa [ofList_ne huidne] using huid
            exact ⟨uid, digits_of_isDigits hdigits (huser ▸ hascii), Or.inl huser⟩
        | cons gid more =>
            have hgidne : gid ≠ [] := fun h => hfilled (by simp [h])
            have hmore : more = [] := by
              cases more with
              | nil => rfl
              | cons _ _ => simp at htwo
            subst hmore
            have huser : user.toList = uid ++ ':' :: gid := by
              simpa [List.intercalate] using hjoined.symm
            have hasciiUid : ∀ c ∈ uid, c.toNat < 128 := fun c hc =>
              hascii c (by simp [huser, hc])
            have hasciiGid : ∀ c ∈ gid, c.toNat < 128 := fun c hc =>
              hascii c (by simp [huser, hc])
            have hdigitsUid : isDigits P (String.ofList uid) = true := by
              simpa [ofList_ne huidne] using huid
            have hdigitsGid : isDigits P (String.ofList gid) = true := by
              simpa [ofList_ne huidne, ofList_ne hgidne] using hgid
            exact ⟨uid, digits_of_isDigits hdigitsUid hasciiUid,
              Or.inr ⟨gid, digits_of_isDigits hdigitsGid hasciiGid, huser⟩⟩

-- =========================================================== the runtime

/-- The config home is a path below the workspace, and the user is plain. -/
structure PlainRuntime (fields : Entries) : Prop where
  home : ∀ text, Entries.get fields "opencode_config_home" = .str text →
    PosixPath.Stays 0 (PosixPath.parts (strip text)) ∧
      PosixPath.climbs (PosixPath.parts (strip text)) <
        PosixPath.names (PosixPath.parts (strip text))
  user : ∀ text, Entries.get fields "container_user" = .str text → PlainUser (strip text)

/-- The default config home is below the workspace. -/
theorem defaultHome_below : PosixPath.isAbsolute defaultHome = false ∧
    ∃ place, PosixPath.resolve (PosixPath.parts defaultHome) = some place ∧ place ≠ [] :=
  ⟨by decide, [".open-tulid", "home"], by decide +kernel, nofun⟩

/-- An accepted runtime is well formed if and only if it is plain. -/
theorem RuntimeAccepted.wellFormed_iff {fields : Entries} {runtime : StandardRuntime}
    (h : RuntimeAccepted P fields runtime) :
    RuntimeWellFormed runtime ↔ PlainRuntime fields := by
  have hhome := h.home
  have huser := h.user
  constructor
  · intro hwell
    refine ⟨fun text htext => ?_, fun text htext => ?_⟩
    · rw [htext] at hhome
      have hbelow := hwell.home.2
      generalize runtime.opencodeConfigHome = home at hhome hbelow
      cases hhome with
      | placed _ _ _ => exact PosixPath.resolve_below_iff.mp hbelow
    · rw [htext] at huser
      have hform := hwell.user
      generalize runtime.containerUser = user at huser hform
      cases huser with
      | named _ _ hnumeric => exact (userForm_iff_plainUser hnumeric).mp (hform _ rfl)
  · intro hplain
    have hplainHome := hplain.home
    have hplainUser := hplain.user
    refine ⟨?_, fun user heq => ?_⟩
    · generalize Entries.get fields "opencode_config_home" = raw at hhome hplainHome
      generalize runtime.opencodeConfigHome = home at hhome
      cases hhome with
      | absent => exact defaultHome_below
      | placed text _ hrelative =>
          exact ⟨hrelative, PosixPath.resolve_below_iff.mpr (hplainHome text rfl)⟩
    · rw [heq] at huser
      generalize Entries.get fields "container_user" = raw at huser hplainUser
      cases huser with
      | named text _ hnumeric =>
          exact (userForm_iff_plainUser hnumeric).mpr (hplainUser text rfl)

-- ============================================================== the file

/-- The bytes are UTF-8; where they load as a mapping, the keys that are
looked at have texts, and where the mapping is accepted its runtime is
plain. -/
def PlainFile (P : Python) (yaml : String → Except String Value) (file : ContractFile) : Prop :=
  ∀ content, file = .bytes content →
    ∃ text, String.fromUTF8? content = some text ∧
      ∀ fields, yaml text = .ok (.map fields) →
        AllPrint P (checkedMappings fields) ∧
          ((∃ c, Accepted P fields c) →
            ∀ runtime, (Entries.get? fields "runtime").getD (.map []) = .map runtime →
              PlainRuntime runtime)

/-- What comes of a file other than a mapping is no contract. -/
theorem loadStandardContract_of_not_map {yaml : String → Except String Value} {path text : String}
    {content : ByteArray} (htext : String.fromUTF8? content = some text)
    (hno : ∀ fields, yaml text ≠ .ok (.map fields)) :
    ∃ result, loadStandardContract P yaml path (.bytes content) = .ok result ∧
      result.contract = none := by
  simp only [loadStandardContract, htext]
  split
  next => exact ⟨_, rfl, rfl⟩
  next => exact ⟨_, rfl, rfl⟩
  next fields heq => exact absurd heq (hno fields)
  next => exact ⟨_, rfl, rfl⟩

theorem loadStandardContract_of_map {yaml : String → Except String Value} {path text : String}
    {content : ByteArray} {fields : Entries} (htext : String.fromUTF8? content = some text)
    (hfields : yaml text = .ok (.map fields)) :
    loadStandardContract P yaml path (.bytes content) = parseContract P path fields := by
  simp only [loadStandardContract, htext, hfields]

/-- The loader is sound for a file if and only if the file is plain. -/
theorem loadStandardContract_sound_iff {yaml : String → Except String Value} {path : String}
    {file : ContractFile} : Sound P yaml path file ↔ PlainFile P yaml file := by
  constructor
  · rintro ⟨result, hload, hsound⟩ content rfl
    cases htext : String.fromUTF8? content with
    | none =>
        simp only [loadStandardContract, htext] at hload
        cases hload
    | some text =>
        refine ⟨text, rfl, fun fields hfields => ?_⟩
        rw [loadStandardContract_of_map htext hfields] at hload
        refine ⟨parseContract_gives_iff.mp ⟨result, hload⟩, fun ⟨c, hc⟩ runtime hruntime => ?_⟩
        obtain ⟨result', hload', hcontract⟩ :=
          (@parseContract_eq_some_iff P path fields c).mpr hc
        obtain rfl := Except.ok.inj (hload.symm.trans hload')
        obtain ⟨m, hm, haccepted⟩ := hc.runtime
        obtain rfl := Value.map.inj (hruntime.symm.trans hm)
        exact haccepted.wellFormed_iff.mp (hsound c hcontract).2.1
  · intro hplain
    cases file with
    | missing => exact ⟨{}, rfl, nofun⟩
    | unreadable text => exact ⟨_, rfl, nofun⟩
    | bytes content =>
        obtain ⟨text, htext, hfields⟩ := hplain content rfl
        by_cases hmap : ∃ fields, yaml text = .ok (.map fields)
        · obtain ⟨fields, hyaml⟩ := hmap
          obtain ⟨hprint, hruntime⟩ := hfields fields hyaml
          obtain ⟨result, hresult⟩ := (@parseContract_gives_iff P path fields).mpr hprint
          refine ⟨result, (loadStandardContract_of_map htext hyaml).trans hresult, ?_⟩
          intro c hc
          have haccepted := parseContract_eq_some_iff.mp ⟨result, hresult, hc⟩
          obtain ⟨runtime, hm, hr⟩ := haccepted.runtime
          exact ⟨haccepted.commands.wellFormed,
            hr.wellFormed_iff.mpr (hruntime ⟨c, haccepted⟩ runtime hm),
            content, text, fields, rfl, htext, hyaml, haccepted.known_all⟩
        · obtain ⟨result, hload, hnone⟩ :=
            @loadStandardContract_of_not_map P yaml path text content htext
              fun fields h => hmap ⟨fields, h⟩
          refine ⟨result, hload, fun c hc => ?_⟩
          rw [hnone] at hc
          cases hc

-- ================================================================ a slip

/-- The text of a key. Only strings are ever used as keys below. -/
def keyText : Scalar → Option String
  | .str s => some s
  | .null => some "None"
  | .bool true => some "True"
  | .bool false => some "False"
  | .int n =>
      if n.natAbs < 10 ^ 4300 then some (String.ofList (Json.intText n)) else none
  | .float _ text => some ("(" ++ text)
  | .other _ text => some ("(" ++ text)

/-- The names of fields start like no number and no tuple. -/
theorem head_of_mem_fieldNames {text : String} (h : text ∈ fieldNames) :
    ∃ c rest, text.toList = c :: rest ∧ Json.startsNumber c = false ∧ c ≠ '(' := by
  have hall : ∀ name ∈ fieldNames,
      name.toList.head?.any (fun c => !Json.startsNumber c && c ≠ '(') = true := by
    decide +kernel
  have htext := hall text h
  cases hlist : text.toList with
  | nil =>
      rw [hlist] at htext
      cases htext
  | cons c rest =>
      rw [hlist] at htext
      exact ⟨c, rest, rfl, by simpa using htext⟩

/-- The language, with ASCII digits. -/
def python : Python where
  str := keyText
  repr s := "'" ++ s ++ "'"
  isDigit := Char.isDigit
  str_str _ := rfl
  foreign := by
    intro key text hkey htext
    obtain ⟨c, rest, hlist, hnumber, hparen⟩ := head_of_mem_fieldNames htext
    cases key with
    | str s => exact congrArg Scalar.str (Option.some.inj hkey)
    | null =>
        obtain rfl := Option.some.inj hkey
        exact absurd htext (by decide)
    | bool b =>
        cases b <;>
          · obtain rfl := Option.some.inj hkey
            exact absurd htext (by decide)
    | int n =>
        simp only [keyText] at hkey
        split at hkey
        next =>
          obtain rfl := Option.some.inj hkey
          obtain ⟨d, rest', hint, hstarts⟩ := Json.startsNumber_intText n
          rw [String.toList_ofList, hint] at hlist
          obtain rfl := (List.cons.inj hlist).1
          rw [hstarts] at hnumber
          cases hnumber
        next => cases hkey
    | float _ t =>
        obtain rfl := Option.some.inj hkey
        rw [String.toList_append] at hlist
        exact absurd (List.cons.inj hlist).1.symm hparen
    | other _ t =>
        obtain rfl := Option.some.inj hkey
        rw [String.toList_append] at hlist
        exact absurd (List.cons.inj hlist).1.symm hparen
  ascii _ _ := rfl

/-- A contract whose config home is the directory above the workspace. -/
def climbingText : String :=
  "schema: tulid.contract/v1\nruntime:\n  opencode_config_home: ..\ncommands:\n" ++
    "  - name: test\n    argv: [pytest]\n"

/-- The mapping it loads as. -/
def climbingFields : Entries :=
  [(.str "schema", .str "tulid.contract/v1"),
    (.str "runtime", .map [(.str "opencode_config_home", .str "..")]),
    (.str "commands", .list [.map [(.str "name", .str "test"), (.str "argv", .list [.str "pytest"])]])]

/-- The contract comes out, and puts the config home above the workspace. -/
theorem config_home_above_workspace_is_accepted :
    ¬ Sound python (fun _ => .ok (.map climbingFields)) "contract.yaml"
      (.bytes climbingText.toUTF8) := by
  rintro ⟨result, hload, hsound⟩
  have htext : String.fromUTF8? climbingText.toUTF8 = some climbingText :=
    dif_pos climbingText.isValidUTF8
  have hparsed : parseContract python "contract.yaml" climbingFields = .ok
      { contract := some {
          schema := "tulid.contract/v1"
          runtime := ⟨none, ".."⟩
          commands := [{ name := "test", argv := ["pytest"] }]
          retry := {} } } := by
    rfl
  simp only [loadStandardContract, htext] at hload
  obtain rfl := Except.ok.inj (hload.symm.trans hparsed)
  obtain ⟨-, place, hplace, -⟩ := (hsound _ rfl).2.1.home
  have hnone : PosixPath.resolve (PosixPath.parts "..") = none := by decide +kernel
  rw [hnone] at hplace
  cases hplace

end OpenTulid.Standard
