/-
Which contract files are accepted, and what an accepted contract is.

Every check has an inversion lemma: it notes nothing if and only if the
value has the form the check asks for (`…_eq_ok`, `…_noted_nothing`). Put
together they give the accepted mappings (`Accepted`), with the contract
that comes out (`parseContract_eq_some_iff`). Next to that stands when
anything comes out at all: every key that is looked at must have a text
(`parseContract_gives_iff`).

# Where the checks are not what they are meant to be

The parts of the config home are asked for empty ones and single dots, which
parts never are (`no_part_is_asked_for`); a double dot is not asked for. The
user's parts are counted after the empty ones are dropped, and only two of
them are looked at. `loadStandardContract_sound_iff` says for which files
this matters.
-/
import OpenTulid.Contract.Standard
import OpenTulid.Lib.Fallible

namespace OpenTulid.Standard

open Doc (Value Scalar Entries)
open Fallible

variable {P : Python}

-- ============================================================== the fields

/-- A mapping has the allowed fields only. -/
def Known (allowed : List String) (fields : Entries) : Prop :=
  ∀ e ∈ fields, ∃ name ∈ allowed, e.1 = .str name

/-- The text of every key can be written. -/
def Prints (P : Python) (fields : Entries) : Prop := ∀ e ∈ fields, (P.str e.1).isSome

theorem rejectUnknownFields_gives_iff {allowed : List String} {location : String}
    {fields : Entries} :
    Gives (rejectUnknownFields P allowed location fields) ↔ Prints P fields := by
  induction fields with
  | nil => simp [rejectUnknownFields, Prints]
  | cons e rest ih =>
      obtain ⟨key, v⟩ := e
      simp only [rejectUnknownFields]
      cases hkey : P.str key with
      | none => simp [Prints, hkey]
      | some text =>
          have hrest : Prints P ((key, v) :: rest) ↔ Prints P rest := by
            simp [Prints, hkey]
          rw [hrest, ← ih, gives_bind (p := True) fun _ => by simp]
          simp

/-- Nothing is noted if and only if there are no other fields. -/
theorem rejectUnknownFields_eq_ok_nil {allowed : List String} {location : String}
    {fields : Entries} (hallowed : ∀ name ∈ allowed, name ∈ fieldNames) :
    rejectUnknownFields P allowed location fields = .ok [] ↔ Known allowed fields := by
  induction fields with
  | nil => simp [rejectUnknownFields, Known]
  | cons e rest ih =>
      obtain ⟨key, v⟩ := e
      have hcons : Known allowed ((key, v) :: rest) ↔
          (∃ name ∈ allowed, key = .str name) ∧ Known allowed rest := by
        simp [Known]
      rw [hcons, ← ih]
      simp only [rejectUnknownFields]
      cases hkey : P.str key with
      | none =>
          constructor
          · nofun
          · rintro ⟨⟨name, -, rfl⟩, -⟩
            rw [P.str_str] at hkey
            cases hkey
      | some text =>
          simp only [bind_eq_ok, pure_eq_ok]
          constructor
          · rintro ⟨errors, hrest, hnil⟩
            split at hnil
            next hmem =>
              subst hnil
              exact ⟨⟨text, hmem, P.foreign key text hkey (hallowed text hmem)⟩, hrest⟩
            next => cases hnil
          · rintro ⟨⟨name, hmem, rfl⟩, hrest⟩
            rw [P.str_str] at hkey
            obtain rfl := Option.some.inj hkey
            exact ⟨[], hrest, if_pos hmem⟩

-- ============================================================= the runtime

/-- The user is of the form that is asked for: the first part that is not
empty is a number, and so is the second where there is one. -/
def NumericUser (P : Python) (user : String) : Prop :=
  isDigits P ((userParts user).headD "") = true ∧
    ∀ gid ∈ (userParts user)[1]?, isDigits P gid = true

/-- The user of the container as it is accepted. -/
inductive UserAccepted (P : Python) : Value → Option String → Prop where
  | absent : UserAccepted P .null none
  | named (text : String) (filled : strip text ≠ "") (numeric : NumericUser P (strip text)) :
      UserAccepted P (.str text) (some (strip text))

theorem parseContainerUser_eq_nil {raw : Value} {location : String} {user : Option String} :
    parseContainerUser P raw location = (user, []) ↔ UserAccepted P raw user := by
  constructor
  · intro h
    unfold parseContainerUser at h
    split at h
    next =>
      obtain rfl := congrArg Prod.fst h
      exact .absent
    next text =>
      split at h
      next => cases congrArg Prod.snd h
      next hfilled =>
        dsimp only at h
        split at h
        next hnumeric =>
          obtain rfl := congrArg Prod.fst h
          exact .named text hfilled hnumeric
        next => cases congrArg Prod.snd h
    next => cases congrArg Prod.snd h
  · intro h
    cases h with
    | absent => rfl
    | named text hfilled hnumeric =>
        unfold parseContainerUser
        dsimp only
        rw [if_neg hfilled]
        exact if_pos hnumeric

/-- The config home as it is accepted. -/
inductive HomeAccepted : Value → String → Prop where
  | absent : HomeAccepted .null defaultHome
  | placed (text : String) (allowed : strip text ∉ [".", "", "opencode.json"])
      (relative : PosixPath.isAbsolute (strip text) = false) :
      HomeAccepted (.str text) (strip text)

/-- The parts of a path are never empty or single dots: asking for one finds
none. -/
theorem no_part_is_asked_for (home : String) :
    ¬ ∃ part ∈ PosixPath.parts home, part = "" ∨ part = "." := by
  rintro ⟨part, hpart, hasked⟩
  have hne := PosixPath.ne_of_mem_parts hpart
  rcases hasked with h | h
  · exact hne.1 h
  · exact hne.2 h

theorem parseConfigHome_eq_nil {raw : Value} {location : String} {home : String} :
    parseConfigHome P raw location = (home, []) ↔ HomeAccepted raw home := by
  have hparsed : parseConfigHome P raw location = (home, []) ↔
      configHomeText raw location = (home, []) ∧ home ∉ [".", "", "opencode.json"] ∧
        PosixPath.isAbsolute home = false := by
    unfold parseConfigHome
    cases configHomeText raw location with
    | mk text invalid =>
        simp only [Prod.mk.injEq, List.append_eq_nil_iff]
        constructor
        · rintro ⟨rfl, ⟨hinvalid, hforbidden⟩, houtside⟩
          refine ⟨⟨rfl, hinvalid⟩, ?_, ?_⟩
          · intro hmem
            rw [if_pos hmem] at hforbidden
            cases hforbidden
          · by_contra habsolute
            rw [if_pos (Or.inl (by simpa using habsolute))] at houtside
            cases houtside
        · rintro ⟨⟨rfl, hinvalid⟩, hallowed, hrelative⟩
          refine ⟨rfl, ⟨hinvalid, if_neg hallowed⟩, if_neg ?_⟩
          rintro (habsolute | hpart)
          · rw [hrelative] at habsolute
            cases habsolute
          · exact no_part_is_asked_for _ hpart
  rw [hparsed]
  constructor
  · rintro ⟨htext, hallowed, hrelative⟩
    unfold configHomeText at htext
    split at htext
    next =>
      obtain rfl := congrArg Prod.fst htext
      exact .absent
    next text =>
      split at htext
      next => cases congrArg Prod.snd htext
      next =>
        obtain rfl := congrArg Prod.fst htext
        exact .placed text hallowed hrelative
    next => cases congrArg Prod.snd htext
  · intro h
    cases h with
    | absent => exact ⟨rfl, by decide, by decide⟩
    | placed text hallowed hrelative =>
        have hfilled : strip text ≠ "" := fun hempty => hallowed (by simp [hempty])
        refine ⟨?_, hallowed, hrelative⟩
        unfold configHomeText
        dsimp only
        rw [if_neg hfilled]

/-- The names of the fields of the runtime. -/
abbrev runtimeFields : List String := ["container_user", "opencode_config_home"]

/-- The runtime as it is accepted. -/
structure RuntimeAccepted (P : Python) (fields : Entries) (runtime : StandardRuntime) :
    Prop where
  known : Known runtimeFields fields
  user : UserAccepted P (Entries.get fields "container_user") runtime.containerUser
  home : HomeAccepted (Entries.get fields "opencode_config_home") runtime.opencodeConfigHome

theorem parseRuntime_eq_ok_nil {raw : Value} {path : String} {runtime : StandardRuntime} :
    parseRuntime P raw path = .ok (runtime, []) ↔
      ∃ fields, raw = .map fields ∧ RuntimeAccepted P fields runtime := by
  unfold parseRuntime
  cases raw with
  | scalar s => simp
  | list items => simp
  | map fields =>
      have hknown : ∀ name ∈ runtimeFields, name ∈ fieldNames := by decide
      simp only [bind_eq_ok, pure_eq_ok, Prod.mk.injEq, List.append_eq_nil_iff]
      constructor
      · rintro ⟨unknown, hunknown, rfl, ⟨rfl, huser⟩, hhome⟩
        exact ⟨fields, rfl, (rejectUnknownFields_eq_ok_nil hknown).mp hunknown,
          parseContainerUser_eq_nil.mp (Prod.ext rfl huser),
          parseConfigHome_eq_nil.mp (Prod.ext rfl hhome)⟩
      · rintro ⟨_, ⟨⟩, h⟩
        refine ⟨[], (rejectUnknownFields_eq_ok_nil hknown).mpr h.known, ?_, ⟨rfl, ?_⟩, ?_⟩
        · rw [parseContainerUser_eq_nil.mpr h.user, parseConfigHome_eq_nil.mpr h.home]
        · rw [parseContainerUser_eq_nil.mpr h.user]
        · rw [parseConfigHome_eq_nil.mpr h.home]

-- ============================================================ the commands

/-- The argv as it is accepted. -/
structure ArgvAccepted (raw : Value) (argv : List String) : Prop where
  listed : ∃ items, raw = .list items ∧ argv = items.filterMap argvPart ∧
    ∀ item ∈ items, ∃ text, item = .str text ∧ strip text ≠ ""
  filled : argv ≠ []
  plain : ∀ part ∈ argv, part ∉ shellControlTokens

/-- Nothing is noted of an entry if and only if it is a text. -/
theorem argvItemError_eq_none {location : String} {item : Value} {index : Nat} :
    argvItemError location (item, index) = none ↔
      ∃ text, item = .str text ∧ strip text ≠ "" := by
  cases item with
  | list items => simp [argvItemError]
  | map fields => simp [argvItemError]
  | scalar s =>
      cases s with
      | str text =>
          unfold argvItemError
          by_cases hempty : strip text = ""
          · simp [hempty]
          · simp [hempty]
      | _ => simp [argvItemError]

theorem argvItemErrors_eq_nil {location : String} {items : List Value} :
    items.zipIdx.filterMap (argvItemError location) = [] ↔
      ∀ item ∈ items, ∃ text, item = .str text ∧ strip text ≠ "" := by
  rw [List.filterMap_eq_nil_iff]
  constructor
  · intro h item hitem
    obtain ⟨n, hn, rfl⟩ := List.mem_iff_getElem.mp hitem
    exact argvItemError_eq_none.mp
      (h (items[n], n) (by simp [List.mk_mem_zipIdx_iff_getElem?, hn]))
  · intro h ⟨item, index⟩ hmem
    exact argvItemError_eq_none.mpr (h item (List.fst_mem_of_mem_zipIdx hmem))

/-- Nothing is noted of an argv if and only if it is accepted. -/
theorem parseArgv_eq_nil {raw : Value} {location : String} {argv : List String} :
    parseArgv raw location = (argv, []) ↔ ArgvAccepted raw argv := by
  constructor
  · intro h
    unfold parseArgv at h
    split at h
    next => cases congrArg Prod.snd h
    next items =>
      dsimp only at h
      split at h
      next => exact absurd (congrArg Prod.snd h) (by simp)
      next hfilled =>
        split at h
        next hcontrols =>
          obtain ⟨rfl, herrors⟩ := Prod.mk.inj h
          refine ⟨⟨items, rfl, rfl, argvItemErrors_eq_nil.mp herrors⟩, hfilled, ?_⟩
          intro part hpart hcontrol
          have hmem : part ∈ (items.filterMap argvPart).filter (· ∈ shellControlTokens) :=
            List.mem_filter.mpr ⟨hpart, decide_eq_true hcontrol⟩
          rw [hcontrols] at hmem
          cases hmem
        next => exact absurd (congrArg Prod.snd h) (by simp)
    next => cases congrArg Prod.snd h
  · intro h
    obtain ⟨items, rfl, rfl, hitems⟩ := h.listed
    have hcontrols :
        (items.filterMap argvPart).filter (fun part => decide (part ∈ shellControlTokens)) =
          [] := by
      rw [List.filter_eq_nil_iff]
      intro part hpart
      simpa using h.plain part hpart
    unfold parseArgv
    dsimp only
    rw [if_neg h.filled, if_pos hcontrols, argvItemErrors_eq_nil.mpr hitems]

theorem parseName_eq_nil {raw : Value} {index : Nat} {location name : String} :
    parseName raw index location = (name, []) ↔
      ∃ text, raw = .str text ∧ strip text ≠ "" ∧ name = strip text := by
  constructor
  · intro h
    unfold parseName at h
    split at h
    next text =>
      split at h
      next => cases congrArg Prod.snd h
      next hfilled => exact ⟨text, rfl, hfilled, (congrArg Prod.fst h).symm⟩
    next => cases congrArg Prod.snd h
  · rintro ⟨text, rfl, hfilled, rfl⟩
    unfold parseName
    dsimp only
    rw [if_neg hfilled]

/-- The directory as it is accepted. -/
structure DirectoryAccepted (raw : Value) (directory : String) : Prop where
  text : raw = .str directory
  filled : strip directory ≠ ""
  relative : PosixPath.isAbsolute directory = false
  inside : ".." ∉ PosixPath.parts directory

theorem parseWorkingDirectory_eq_nil {raw : Value} {name location directory : String} :
    parseWorkingDirectory P raw name location = (directory, []) ↔
      DirectoryAccepted raw directory := by
  constructor
  · intro h
    unfold parseWorkingDirectory at h
    split at h
    next text =>
      split at h
      next => cases congrArg Prod.snd h
      next hplaced =>
        obtain rfl := congrArg Prod.fst h
        simp only [not_or] at hplaced
        exact ⟨rfl, hplaced.1, by simpa using hplaced.2.1, hplaced.2.2⟩
    next => cases congrArg Prod.snd h
  · intro h
    obtain rfl := h.text
    unfold parseWorkingDirectory
    dsimp only
    rw [if_neg]
    rintro (hempty | habsolute | hclimbs)
    · exact h.filled hempty
    · rw [h.relative] at habsolute
      cases habsolute
    · exact h.inside hclimbs

theorem parseTimeout_eq_nil {raw : Value} {name location : String} {n : Int} :
    parseTimeout P raw name location = (n, []) ↔ raw = .int n ∧ 1 ≤ n ∧ n ≤ 3600 := by
  constructor
  · intro h
    unfold parseTimeout at h
    split at h
    next m =>
      split at h
      next hlimits =>
        obtain rfl := congrArg Prod.fst h
        exact ⟨rfl, hlimits⟩
      next => cases congrArg Prod.snd h
    next => cases congrArg Prod.snd h
  · rintro ⟨rfl, hlimits⟩
    unfold parseTimeout
    dsimp only
    rw [if_pos hlimits]

/-- The expectation as it is accepted. -/
inductive ExpectAccepted : Value → CommandExpectation → Prop where
  | absent : ExpectAccepted .null {}
  | given (fields : Entries) (n : Int) (known : Known ["exit_code"] fields)
      (code : (Entries.get? fields "exit_code").getD (.int 0) = .int n) :
      ExpectAccepted (.map fields) ⟨n⟩

theorem parseExpect_eq_ok_nil {raw : Value} {name location : String}
    {expect : CommandExpectation} :
    parseExpect P raw name location = .ok (expect, []) ↔ ExpectAccepted raw expect := by
  have hknown : ∀ field ∈ ["exit_code"], field ∈ fieldNames := by decide
  constructor
  · intro h
    unfold parseExpect at h
    split at h
    next =>
      obtain rfl := congrArg Prod.fst (Except.ok.inj h)
      exact .absent
    next fields =>
      obtain ⟨unknown, hunknown, h⟩ := bind_eq_ok.mp h
      split at h
      next n hcode =>
        obtain ⟨rfl, rfl⟩ := Prod.mk.inj (pure_eq_ok.mp h)
        exact .given fields n ((rejectUnknownFields_eq_ok_nil hknown).mp hunknown) hcode
      next => exact absurd (congrArg Prod.snd (pure_eq_ok.mp h)) (by simp)
    next => cases congrArg Prod.snd (Except.ok.inj h)
  · intro h
    cases h with
    | absent => rfl
    | given fields n hfields hcode =>
        unfold parseExpect
        dsimp only
        rw [(rejectUnknownFields_eq_ok_nil hknown).mpr hfields, ok_bind, hcode]
        rfl

/-- A command as it is accepted. -/
structure CommandAccepted (fields : Entries) (command : ProjectCommand) : Prop where
  known : Known commandFields fields
  name : ∃ text, Entries.get fields "name" = .str text ∧ strip text ≠ "" ∧
    command.name = strip text
  argv : ArgvAccepted (Entries.get fields "argv") command.argv
  directory : DirectoryAccepted ((Entries.get? fields "working_directory").getD (.str "."))
    command.workingDirectory
  timeout : (Entries.get? fields "timeout_seconds").getD (.int 300) =
      .int command.timeoutSeconds ∧
    1 ≤ command.timeoutSeconds ∧ command.timeoutSeconds ≤ 3600
  expect : ExpectAccepted (Entries.get fields "expect") command.expect

/-- Nothing is noted in a round if and only if the command is accepted and
its name was not seen. -/
theorem parseCommand_eq_ok_nil {path : String} {index : Nat} {seen : List String}
    {fields : Entries} {command : ProjectCommand} :
    parseCommand P path index seen fields = .ok (command, []) ↔
      CommandAccepted fields command ∧ command.name ∉ seen := by
  have hfields : ∀ field ∈ commandFields, field ∈ fieldNames := by decide
  unfold parseCommand
  simp only [bind_eq_ok, pure_eq_ok, Prod.mk.injEq, List.append_eq_nil_iff, ite_eq_right_iff,
    reduceCtorEq, imp_false, Prod.exists]
  generalize s!"{path}:commands[{index}]" = location
  constructor
  · rintro ⟨unknown, hunknown, expect, errors, hexpect, rfl,
      ⟨⟨⟨⟨⟨rfl, hname⟩, hseen⟩, hargv⟩, hdirectory⟩, htimeout⟩, rfl⟩
    exact ⟨{
      known := (rejectUnknownFields_eq_ok_nil hfields).mp hunknown
      name := parseName_eq_nil.mp (Prod.ext rfl hname)
      argv := parseArgv_eq_nil.mp (Prod.ext rfl hargv)
      directory := parseWorkingDirectory_eq_nil.mp (Prod.ext rfl hdirectory)
      timeout := parseTimeout_eq_nil.mp (Prod.ext rfl htimeout)
      expect := parseExpect_eq_ok_nil.mp hexpect }, hseen⟩
  · rintro ⟨h, hseen⟩
    obtain ⟨text, hname⟩ := h.name
    have hname : parseName (Entries.get fields "name") index location = (command.name, []) :=
      parseName_eq_nil.mpr ⟨text, hname⟩
    have hargv : parseArgv (Entries.get fields "argv") s!"{location}.argv" = (command.argv, []) :=
      parseArgv_eq_nil.mpr h.argv
    rw [hname]
    dsimp only
    refine ⟨[], (rejectUnknownFields_eq_ok_nil hfields).mpr h.known, command.expect, [],
      parseExpect_eq_ok_nil.mpr h.expect, ?_⟩
    rw [hargv, parseWorkingDirectory_eq_nil.mpr h.directory,
      parseTimeout_eq_nil.mpr h.timeout]
    exact ⟨rfl, ⟨⟨⟨⟨⟨rfl, rfl⟩, hseen⟩, rfl⟩, rfl⟩, rfl⟩, rfl⟩

/-- The items of the list of commands as they are accepted. -/
def ItemAccepted (item : Value) (command : ProjectCommand) : Prop :=
  ∃ fields, item = .map fields ∧ CommandAccepted fields command

/-- Nothing is noted in the loop if and only if every item is accepted and
no name is seen twice. -/
theorem parseCommandsFrom_eq_ok_nil {path : String} {index : Nat} {seen : List String}
    {items : List Value} {commands : List ProjectCommand} :
    parseCommandsFrom P path index seen items = .ok (commands, []) ↔
      List.Forall₂ ItemAccepted items commands ∧ (commands.map (·.name)).Nodup ∧
        ∀ command ∈ commands, command.name ∉ seen := by
  induction items generalizing index seen commands with
  | nil =>
      simp only [parseCommandsFrom, Except.ok.injEq, Prod.mk.injEq, and_true,
        List.forall₂_nil_left_iff]
      constructor
      · rintro rfl
        simp
      · exact fun h => h.1.symm
  | cons item rest ih =>
      cases item with
      | map fields =>
          simp only [parseCommandsFrom, bind_eq_ok, pure_eq_ok, Prod.mk.injEq,
            List.append_eq_nil_iff, Prod.exists]
          constructor
          · rintro ⟨command, _, hcommand, commands, _, hrest, rfl, rfl, rfl⟩
            obtain ⟨haccepted, hseen⟩ := parseCommand_eq_ok_nil.mp hcommand
            obtain ⟨hitems, hnodup, hfresh⟩ := ih.mp hrest
            refine ⟨.cons ⟨fields, rfl, haccepted⟩ hitems, ?_, ?_⟩
            · rw [List.map_cons, List.nodup_cons]
              refine ⟨?_, hnodup⟩
              rw [List.mem_map]
              rintro ⟨other, hother, heq⟩
              exact hfresh other hother (by simp [heq])
            · intro other hother
              rcases List.mem_cons.mp hother with rfl | hother
              · exact hseen
              · exact fun hmem => hfresh other hother (List.mem_cons_of_mem _ hmem)
          · rintro ⟨hitems, hnodup, hfresh⟩
            cases hitems with
            | cons hitem hrest =>
                next command commands =>
                obtain ⟨_, ⟨⟩, haccepted⟩ := hitem
                rw [List.map_cons, List.nodup_cons] at hnodup
                refine ⟨command, [], parseCommand_eq_ok_nil.mpr
                  ⟨haccepted, hfresh command List.mem_cons_self⟩, commands, [],
                  ih.mpr ⟨hrest, hnodup.2, ?_⟩, rfl, rfl, rfl⟩
                intro other hother hmem
                rcases List.mem_cons.mp hmem with heq | hmem
                · exact hnodup.1 (List.mem_map.mpr ⟨other, hother, heq⟩)
                · exact hfresh other (List.mem_cons_of_mem _ hother) hmem
      | scalar s =>
          simp only [parseCommandsFrom, bind_eq_ok, pure_eq_ok, Prod.mk.injEq, Prod.exists]
          constructor
          · rintro ⟨_, _, _, _, ⟨⟩⟩
          · rintro ⟨hitems, -⟩
            cases hitems with
            | cons hitem _ =>
                obtain ⟨_, ⟨⟩, _⟩ := hitem
      | list items =>
          simp only [parseCommandsFrom, bind_eq_ok, pure_eq_ok, Prod.mk.injEq, Prod.exists]
          constructor
          · rintro ⟨_, _, _, _, ⟨⟩⟩
          · rintro ⟨hitems, -⟩
            cases hitems with
            | cons hitem _ =>
                obtain ⟨_, ⟨⟩, _⟩ := hitem

/-- The commands as they are accepted. -/
structure CommandsAccepted (raw : Value) (commands : List ProjectCommand) : Prop where
  listed : ∃ items, raw = .list items ∧ List.Forall₂ ItemAccepted items commands
  filled : commands ≠ []
  apart : (commands.map (·.name)).Nodup

theorem parseCommands_eq_ok_nil {raw : Value} {path : String}
    {commands : List ProjectCommand} :
    parseCommands P raw path = .ok (commands, []) ↔ CommandsAccepted raw commands := by
  constructor
  · intro h
    unfold parseCommands at h
    dsimp only at h
    split at h
    next => cases congrArg Prod.snd (Except.ok.inj h)
    next item items =>
      obtain ⟨hitems, hapart, -⟩ := parseCommandsFrom_eq_ok_nil.mp h
      refine ⟨⟨_, rfl, hitems⟩, ?_, hapart⟩
      rintro rfl
      cases hitems
    next => cases congrArg Prod.snd (Except.ok.inj h)
  · intro h
    obtain ⟨items, rfl, hitems⟩ := h.listed
    cases items with
    | nil =>
        cases hitems
        exact absurd rfl h.filled
    | cons item items =>
        exact parseCommandsFrom_eq_ok_nil.mpr ⟨hitems, h.apart, fun _ _ => List.not_mem_nil⟩

-- ============================================================= the retries

/-- The names of the fields of the retry policy. -/
abbrev retryFields : List String := ["max_attempts", "visible_feedback", "feedback"]

/-- The retry policy as it is accepted. -/
inductive RetryAccepted : Value → RetryPolicy → Prop where
  | absent : RetryAccepted .null {}
  | given (fields : Entries) (n : Int) (b : Bool) (known : Known retryFields fields)
      (attempts : (Entries.get? fields "max_attempts").getD (.int 3) = .int n) (filled : 0 ≤ n)
      (feedback : (Entries.get? fields "visible_feedback").getD
        ((Entries.get? fields "feedback").getD (.bool true)) = .bool b) :
      RetryAccepted (.map fields) ⟨n, b⟩

theorem parseRetry_eq_ok_nil {raw : Value} {path : String} {retry : RetryPolicy} :
    parseRetry P raw path = .ok (retry, []) ↔ RetryAccepted raw retry := by
  have hknown : ∀ name ∈ retryFields, name ∈ fieldNames := by decide
  constructor
  · intro h
    unfold parseRetry at h
    dsimp only at h
    split at h
    next =>
      obtain rfl := congrArg Prod.fst (Except.ok.inj h)
      exact .absent
    next fields =>
      obtain ⟨unknown, hunknown, h⟩ := bind_eq_ok.mp h
      obtain ⟨hretry, herrors⟩ := Prod.mk.inj (pure_eq_ok.mp h)
      simp only [List.append_eq_nil_iff] at herrors
      obtain ⟨⟨rfl, hattempts⟩, hfeedback⟩ := herrors
      subst hretry
      split at hattempts
      next n hn =>
        split at hattempts
        next hpos =>
          split at hfeedback
          next b hb =>
            rw [if_pos hpos]
            exact .given fields n b ((rejectUnknownFields_eq_ok_nil hknown).mp hunknown) hn hpos hb
          next => cases hfeedback
        next => cases hattempts
      next => cases hattempts
    next => cases congrArg Prod.snd (Except.ok.inj h)
  · intro h
    cases h with
    | absent => rfl
    | given fields n b hfields hn hpos hb =>
        unfold parseRetry
        dsimp only
        rw [(rejectUnknownFields_eq_ok_nil hknown).mpr hfields, ok_bind, hn, hb]
        dsimp only
        rw [if_pos hpos]
        rfl

-- ============================================================ the contract

/-- The names of the fields of the contract itself. -/
abbrev contractFields : List String := ["schema", "runtime", "commands", "retry"]

/-- A mapping as it is accepted, and the contract it gives. -/
structure Accepted (P : Python) (fields : Entries) (c : StandardContract) : Prop where
  known : Known contractFields fields
  schema : Entries.get fields "schema" = .str contractSchema
  runtime : ∃ m, (Entries.get? fields "runtime").getD (.map []) = .map m ∧
    RuntimeAccepted P m c.runtime
  commands : CommandsAccepted (Entries.get fields "commands") c.commands
  retry : RetryAccepted (Entries.get fields "retry") c.retry
  named : c.schema = contractSchema

theorem checkSchema_eq_nil {raw : Value} {path : String} :
    checkSchema P raw path = [] ↔ raw = .str contractSchema := by
  unfold checkSchema
  split
  next h => exact ⟨fun _ => h, fun _ => rfl⟩
  next h => exact ⟨nofun, fun h' => absurd h' h⟩

/-- A contract comes out if and only if the mapping is accepted. -/
theorem parseContract_eq_some_iff {path : String} {fields : Entries} {c : StandardContract} :
    (∃ result, parseContract P path fields = .ok result ∧ result.contract = some c) ↔
      Accepted P fields c := by
  have hknown : ∀ name ∈ contractFields, name ∈ fieldNames := by decide
  unfold parseContract
  simp only [bind_eq_ok, pure_eq_ok, Prod.exists]
  constructor
  · rintro ⟨result, ⟨unknown, hunknown, runtime, runtimeErrors, hruntime, commands,
      commandsErrors, hcommands, retry, retryErrors, hretry, hresult⟩, hc⟩
    split at hresult
    next hnone =>
      subst hresult
      obtain rfl := Option.some.inj hc
      simp only [List.append_eq_nil_iff] at hnone
      obtain ⟨⟨⟨⟨rfl, hschema⟩, rfl⟩, rfl⟩, rfl⟩ := hnone
      exact {
        known := (rejectUnknownFields_eq_ok_nil hknown).mp hunknown
        schema := checkSchema_eq_nil.mp hschema
        runtime := parseRuntime_eq_ok_nil.mp hruntime
        commands := parseCommands_eq_ok_nil.mp hcommands
        retry := parseRetry_eq_ok_nil.mp hretry
        named := rfl }
    next =>
      subst hresult
      cases hc
  · intro h
    refine ⟨{ contract := some c }, ⟨[], (rejectUnknownFields_eq_ok_nil hknown).mpr h.known,
      c.runtime, [], parseRuntime_eq_ok_nil.mpr h.runtime, c.commands, [],
      parseCommands_eq_ok_nil.mpr h.commands, c.retry, [],
      parseRetry_eq_ok_nil.mpr h.retry, ?_⟩, rfl⟩
    rw [checkSchema_eq_nil.mpr h.schema, ← h.named]
    rfl

-- ================================================== when a result comes out

/-- A value, where it is a mapping, with the fields it may have. -/
def asMapping (allowed : List String) : Value → List (List String × Entries)
  | .map fields => [(allowed, fields)]
  | _ => []

/-- The mappings of a command. -/
def commandMappings : Value → List (List String × Entries)
  | .map fields =>
      (commandFields, fields) :: asMapping ["exit_code"] (Entries.get fields "expect")
  | _ => []

/-- The mappings of the list of commands. -/
def commandsMappings : Value → List (List String × Entries)
  | .list items => items.flatMap commandMappings
  | _ => []

/-- The mappings of a contract whose fields are looked at. -/
def checkedMappings (fields : Entries) : List (List String × Entries) :=
  (contractFields, fields) ::
    (asMapping runtimeFields ((Entries.get? fields "runtime").getD (.map [])) ++
      (commandsMappings (Entries.get fields "commands") ++
        asMapping retryFields (Entries.get fields "retry")))

/-- The text of every key of some mappings can be written. -/
def AllPrint (P : Python) (mappings : List (List String × Entries)) : Prop :=
  ∀ m ∈ mappings, Prints P m.2

theorem allPrint_append {ms ms' : List (List String × Entries)} :
    AllPrint P (ms ++ ms') ↔ AllPrint P ms ∧ AllPrint P ms' := List.forall_mem_append

theorem allPrint_asMapping {allowed : List String} {fields : Entries} :
    AllPrint P (asMapping allowed (.map fields)) ↔ Prints P fields := by
  simp [AllPrint, asMapping]

theorem parseRuntime_gives_iff {raw : Value} {path : String} :
    Gives (parseRuntime P raw path) ↔ AllPrint P (asMapping runtimeFields raw) := by
  unfold parseRuntime
  cases raw with
  | scalar s => simp [AllPrint, asMapping]
  | list items => simp [AllPrint, asMapping]
  | map fields =>
      rw [allPrint_asMapping, gives_bind (p := True) fun _ => by simp,
        rejectUnknownFields_gives_iff, and_true]

theorem parseExpect_gives_iff {raw : Value} {name location : String} :
    Gives (parseExpect P raw name location) ↔ AllPrint P (asMapping ["exit_code"] raw) := by
  unfold parseExpect
  cases raw with
  | scalar s => cases s <;> simp [AllPrint, asMapping]
  | list items => simp [AllPrint, asMapping]
  | map fields =>
      rw [allPrint_asMapping, gives_bind (p := True), rejectUnknownFields_gives_iff, and_true]
      intro unknown
      split <;> simp

theorem parseRetry_gives_iff {raw : Value} {path : String} :
    Gives (parseRetry P raw path) ↔ AllPrint P (asMapping retryFields raw) := by
  unfold parseRetry
  cases raw with
  | scalar s => cases s <;> simp [AllPrint, asMapping]
  | list items => simp [AllPrint, asMapping]
  | map fields =>
      rw [allPrint_asMapping, gives_bind (p := True) fun _ => by simp,
        rejectUnknownFields_gives_iff, and_true]

theorem parseCommand_gives_iff {path : String} {index : Nat} {seen : List String}
    {fields : Entries} :
    Gives (parseCommand P path index seen fields) ↔
      AllPrint P (commandMappings (.map fields)) := by
  have hmappings : AllPrint P (commandMappings (.map fields)) ↔
      Prints P fields ∧ AllPrint P (asMapping ["exit_code"] (Entries.get fields "expect")) :=
    List.forall_mem_cons
  unfold parseCommand
  rw [hmappings, gives_bind fun unknown => ?_, rejectUnknownFields_gives_iff]
  dsimp only
  rw [gives_bind (p := True) fun _ => by simp, parseExpect_gives_iff, and_true]

theorem parseCommandsFrom_gives_iff {path : String} {index : Nat} {seen : List String}
    {items : List Value} :
    Gives (parseCommandsFrom P path index seen items) ↔
      AllPrint P (items.flatMap commandMappings) := by
  induction items generalizing index seen with
  | nil => simp [parseCommandsFrom, AllPrint]
  | cons item rest ih =>
      rw [List.flatMap_cons, allPrint_append]
      cases item with
      | map fields =>
          simp only [parseCommandsFrom]
          rw [gives_bind fun command => ?_, parseCommand_gives_iff]
          rw [gives_bind (p := True) fun _ => by simp, ih, and_true]
      | scalar s =>
          simp only [parseCommandsFrom]
          rw [gives_bind (p := True) fun _ => by simp, ih, and_true]
          simp [AllPrint, commandMappings]
      | list items =>
          simp only [parseCommandsFrom]
          rw [gives_bind (p := True) fun _ => by simp, ih, and_true]
          simp [AllPrint, commandMappings]

theorem parseCommands_gives_iff {raw : Value} {path : String} :
    Gives (parseCommands P raw path) ↔ AllPrint P (commandsMappings raw) := by
  unfold parseCommands
  dsimp only
  split
  next => simp [AllPrint, commandsMappings]
  next item items => exact parseCommandsFrom_gives_iff
  next hnull hitems =>
    cases raw with
    | scalar s => simp [AllPrint, commandsMappings]
    | map fields => simp [AllPrint, commandsMappings]
    | list items =>
        cases items with
        | nil => simp [AllPrint, commandsMappings]
        | cons item items => exact absurd rfl (hitems item items)

/-- A result comes out if and only if every key that is looked at has a
text. -/
theorem parseContract_gives_iff {path : String} {fields : Entries} :
    Gives (parseContract P path fields) ↔ AllPrint P (checkedMappings fields) := by
  have hmappings : AllPrint P (checkedMappings fields) ↔ Prints P fields ∧
      AllPrint P (asMapping runtimeFields ((Entries.get? fields "runtime").getD (.map []))) ∧
        AllPrint P (commandsMappings (Entries.get fields "commands")) ∧
          AllPrint P (asMapping retryFields (Entries.get fields "retry")) := by
    unfold checkedMappings
    rw [← allPrint_append, ← allPrint_append]
    exact List.forall_mem_cons
  unfold parseContract
  rw [hmappings, gives_bind fun unknown => ?_, rejectUnknownFields_gives_iff]
  rw [gives_bind fun runtime => ?_, parseRuntime_gives_iff]
  dsimp only
  rw [gives_bind fun commands => ?_, parseCommands_gives_iff]
  rw [gives_bind (p := True) fun _ => by simp, parseRetry_gives_iff, and_true]

end OpenTulid.Standard
