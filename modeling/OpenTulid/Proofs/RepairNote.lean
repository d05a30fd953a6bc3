/-
A repair with fixes: one note.

`needsRepair` says which notes are rewritten and `frontmatterAfter` with what.
A rewritten note must keep what is below its frontmatter and be read back
with what was written (`Rewritable`); an id must be a number, a text or
missing, since every other value is replaced. `noteFine_iff` says that these
are what the repair of a note needs.
-/
import OpenTulid.Adapters.Repair
import OpenTulid.Proofs.Frontmatter
import OpenTulid.Lib.Fallible

namespace OpenTulid.Obsidian

open Boards (ReadText fence stripped)
open Frozen (PyValue Entries)
open Frozen.Prompt

variable {py : Python} {states : NoteStates} {counter : Counter} {note : Note}

-- ============================================================== the next number

/-- Every used number is below the next. -/
def Counter.Ahead (counter : Counter) : Prop := ∀ n ∈ counter.used, n < counter.next

theorem skipUsed_of_ahead {used : List Int} {next : Int} (h : ∀ n ∈ used, n < next)
    (rounds : Nat) : skipUsed used rounds next = next := by
  cases rounds with
  | zero => rfl
  | succ rounds =>
      rw [skipUsed, if_neg fun hmem => absurd (h next hmem) (by omega)]

/-- The number before the first that is handed out. -/
def largest (used : List Int) : Int :=
  match used with
  | [] => 0
  | n :: rest => rest.foldl max n

theorem le_foldl_max (ns : List Int) (first : Int) :
    first ≤ ns.foldl max first ∧ ∀ n ∈ ns, n ≤ ns.foldl max first := by
  induction ns generalizing first with
  | nil => exact ⟨Int.le_refl _, fun _ h => nomatch h⟩
  | cons m ns ih =>
      obtain ⟨hfirst, hall⟩ := ih (max first m)
      rw [List.foldl_cons, List.forall_mem_cons]
      exact ⟨by omega, by omega, hall⟩

theorem le_largest {used : List Int} {n : Int} (h : n ∈ used) : n ≤ largest used := by
  cases used with
  | nil => cases h
  | cons m rest =>
      obtain ⟨hfirst, hall⟩ := le_foldl_max rest m
      rcases List.mem_cons.mp h with rfl | h
      · exact hfirst
      · exact hall n h

theorem ahead_start (used : List Int) : (Counter.start used).Ahead :=
  fun _ hn => Int.lt_add_one_iff.mpr (le_largest hn)

-- ================================================================= one note

/-- The id that a note is given; `none` where the text of a number is too
long. -/
def idGiven (next : Int) : PyValue → Option PyValue
  | .int n => (textOfInt n).map fun text => .str (String.ofList text)
  | .bool b => some (.str (String.ofList (if b then "True" else "False").toList))
  | taskId =>
      if isFilled taskId then some taskId
      else (textOfInt next).map fun text => .str (String.ofList text)

/-- The note takes a number. -/
def takesNumber : PyValue → Bool
  | .int _ => false
  | .bool _ => false
  | taskId => !isFilled taskId

/-- The number after a note. -/
def nextAfter (next : Int) (taskId : PyValue) : Int :=
  if takesNumber taskId then next + 1 else next

/-- The note is rewritten. -/
def needsRepair (py : Python) (boardState : Option String) (frontmatter : Entries) : Bool :=
  !isFilled (get frontmatter "id") || !isFilled (get frontmatter "type") ||
    match boardState with
    | none => false
    | some state => stateText py (get frontmatter "state") ≠ state.toList

/-- The frontmatter that is written. -/
def frontmatterAfter (py : Python) (boardState : Option String) (taskId : PyValue)
    (frontmatter : Entries) : Entries :=
  let frontmatter :=
    if isFilled (get frontmatter "id") then frontmatter else set frontmatter "id" taskId
  let frontmatter :=
    if isFilled (get frontmatter "type") then frontmatter
    else set frontmatter "type" (.str "ProductIdea")
  match boardState with
  | none => frontmatter
  | some state =>
      if stateText py (get frontmatter "state") = state.toList then frontmatter
      else set frontmatter "state" (.str state)

theorem repairId_eq (hahead : counter.Ahead) (location : String) (draft : Draft) :
    ∃ counter' : Counter, counter'.Ahead ∧
      counter'.next = nextAfter counter.next (get draft.frontmatter "id") ∧
      repairId true location counter draft =
        (idGiven counter.next (get draft.frontmatter "id")).map fun taskId =>
          (if isFilled (get draft.frontmatter "id") then draft
            else { draft with frontmatter := set draft.frontmatter "id" taskId, changed := true },
            counter') := by
  have hnumber : skipUsed counter.used counter.used.length counter.next = counter.next :=
    skipUsed_of_ahead hahead _
  have hnext : (⟨counter.next :: counter.used, counter.next + 1⟩ : Counter).Ahead := by
    intro n hn
    rcases List.mem_cons.mp hn with rfl | hn
    · exact Int.lt_succ _
    · exact Int.lt_trans (hahead n hn) (Int.lt_succ _)
  unfold repairId idGiven
  cases hid : get draft.frontmatter "id" with
  | int n =>
      refine ⟨counter, hahead, rfl, ?_⟩
      dsimp only
      cases textOfInt n <;> rfl
  | bool b => exact ⟨counter, hahead, rfl, rfl⟩
  | str s =>
      dsimp only
      by_cases hfilled : isFilled (.str s) = true
      · refine ⟨counter, hahead, ?_, ?_⟩
        · show counter.next = if (!isFilled (.str s)) = true then _ else _
          rw [hfilled]
          rfl
        · rw [if_pos hfilled, if_pos hfilled, Option.map_some, if_pos hfilled]
      · refine ⟨_, hnext, ?_, ?_⟩
        · show counter.next + 1 = if (!isFilled (.str s)) = true then _ else _
          rw [eq_false_of_ne_true hfilled]
          rfl
        · rw [if_neg hfilled, if_neg hfilled, if_pos rfl, hnumber, Option.map_map]
          simp only [Function.comp_def, if_neg hfilled]
          rfl
  | _ =>
      refine ⟨_, hnext, rfl, ?_⟩
      simp only [isFilled, Bool.false_eq_true, if_false, if_true, hnumber, Option.map_map]
      rfl

theorem repairType_eq (location : String) (draft : Draft) :
    repairType true location draft =
      if isFilled (get draft.frontmatter "type") then draft
      else { draft with
        frontmatter := set draft.frontmatter "type" (.str "ProductIdea"), changed := true } := by
  unfold repairType
  rfl

theorem repairState_eq (location : String) (boardState : Option String) (draft : Draft) :
    repairState py true location boardState draft =
      match boardState with
      | none => draft
      | some state =>
          if stateText py (get draft.frontmatter "state") = state.toList then draft
          else { draft with
            frontmatter := set draft.frontmatter "state" (.str state), changed := true } := by
  unfold repairState
  cases boardState with
  | none => rfl
  | some state =>
      dsimp only [Draft.assign]
      rw [if_pos rfl, String.ofList_toList]

/-- What the loop does with a note that can be read. -/
theorem repairNote_eq (hahead : counter.Ahead) {content : Text} {frontmatter : Entries}
    {body : Text} (hfile : note.file = .text content)
    (hsplit : splitFrontmatter py content = .ok (frontmatter, body)) :
    ∃ (counter' : Counter) (errors : List DomainError), counter'.Ahead ∧
      counter'.next = nextAfter counter.next (get frontmatter "id") ∧
      errors = Derived.validateTaskSchema body note.path ∧
      repairNote py true states counter note =
        (idGiven counter.next (get frontmatter "id")).bind fun taskId =>
          if needsRepair py (states.get note.stem) frontmatter then
            (serializeTaskDocument py
                (frontmatterAfter py (states.get note.stem) taskId frontmatter) body).map
              fun content => (⟨errors, some content⟩, counter')
          else some (⟨errors, none⟩, counter') := by
  obtain ⟨counter', hahead', hnext, hrepair⟩ := repairId_eq hahead note.path
    ⟨frontmatter, false, Derived.validateTaskSchema body note.path⟩
  refine ⟨counter', _, hahead', hnext, rfl, ?_⟩
  unfold repairNote
  rw [hfile]
  dsimp only
  rw [hsplit]
  dsimp only
  rw [hrepair]
  cases hgiven : idGiven counter.next (get frontmatter "id") with
  | none => rfl
  | some taskId =>
      have htypeId : ∀ v, get (set frontmatter "id" v) "type" = get frontmatter "type" :=
        get_set_of_ne (by decide) frontmatter
      have hstateId : ∀ v, get (set frontmatter "id" v) "state" = get frontmatter "state" :=
        get_set_of_ne (by decide) frontmatter
      have hstateType : ∀ (fields : Entries) (v), get (set fields "type" v) "state" =
          get fields "state" := fun fields => get_set_of_ne (by decide) fields
      rw [Option.map_some, Option.bind_some]
      simp only [repairType_eq, repairState_eq]
      unfold needsRepair frontmatterAfter
      cases isFilled (get frontmatter "id") <;> cases htype : isFilled (get frontmatter "type") <;>
        cases states.get note.stem with
        | none => simp [htypeId, htype, Option.map_eq_bind]
        | some state =>
            by_cases hstate : stateText py (get frontmatter "state") = state.toList <;>
              simp [htypeId, hstateId, hstateType, htype, hstate, Option.map_eq_bind]

theorem isFilled_eq_true {v : PyValue} (h : isFilled v = true) : ∃ s, v = .str s := by
  cases v with
  | str s => exact ⟨s, rfl⟩
  | _ => cases h

/-- An id that is filled is given to the note again. -/
theorem idGiven_of_filled {next : Int} {taskId : PyValue} (h : isFilled taskId = true) :
    idGiven next taskId = some taskId := by
  obtain ⟨s, rfl⟩ := isFilled_eq_true h
  unfold idGiven
  dsimp only
  rw [if_pos h]

/-- The id that is written is the one that is given. -/
theorem get_id_frontmatterAfter {boardState : Option String} {frontmatter : Entries} {next : Int}
    {taskId : PyValue} (h : idGiven next (get frontmatter "id") = some taskId) :
    get (frontmatterAfter py boardState taskId frontmatter) "id" = taskId := by
  have hother : ∀ (fields : Entries) (key : String) (v : PyValue), "id" ≠ key →
      get (set fields key v) "id" = get fields "id" := fun fields key v hne =>
    get_set_of_ne hne fields v
  have hfirst : get (if isFilled (get frontmatter "id") then frontmatter
      else set frontmatter "id" taskId) "id" = taskId := by
    split
    next hfilled =>
      rw [idGiven_of_filled hfilled] at h
      exact Option.some.inj h
    next => exact get_set_self _ _ _
  unfold frontmatterAfter
  dsimp only
  generalize (if isFilled (get frontmatter "id") then frontmatter
    else set frontmatter "id" taskId) = fields at hfirst ⊢
  have hsecond : get (if isFilled (get fields "type") then fields
      else set fields "type" (.str "ProductIdea")) "id" = taskId := by
    split
    next => exact hfirst
    next => exact (hother _ _ _ (by decide)).trans hfirst
  generalize (if isFilled (get fields "type") then fields
    else set fields "type" (.str "ProductIdea")) = fields at hsecond ⊢
  split
  next => exact hsecond
  next =>
    split
    next => exact hsecond
    next => exact (hother _ _ _ (by decide)).trans hsecond

theorem all_isString_ite (p : Prop) [Decidable p] (fields : Entries) (key : String)
    (v : PyValue) : (if p then fields else set fields key v).all (·.1.isString) =
      fields.all (·.1.isString) := by
  split
  next => rfl
  next => exact all_isString_set fields key v

/-- All keys are texts afterwards if they were before. -/
theorem all_isString_frontmatterAfter (boardState : Option String) (taskId : PyValue)
    (frontmatter : Entries) :
    (frontmatterAfter py boardState taskId frontmatter).all (·.1.isString) =
      frontmatter.all (·.1.isString) := by
  unfold frontmatterAfter
  cases boardState with
  | none => exact (all_isString_ite _ _ _ _).trans (all_isString_ite _ _ _ _)
  | some state =>
      exact ((all_isString_ite _ _ _ _).trans (all_isString_ite _ _ _ _)).trans
        (all_isString_ite _ _ _ _)

-- ========================================================= when a note is fine

/-- The id is neither missing nor a number nor a text. -/
def isOdd : PyValue → Bool
  | .none => false
  | .int _ => false
  | .str _ => false
  | _ => true

/-- There is no id. -/
def lacksId : PyValue → Bool
  | .none => true
  | .str s => stripped s.toList = []
  | _ => false

/-- The id that a number becomes. -/
def idText (n : Int) : PyValue := .str (String.ofList (Json.intText n))

/-- The value of an id is the same; a number may have become its text. -/
def SameId (old new : PyValue) : Prop := new = old ∨ ∃ n, old = .int n ∧ new = idText n

/-- What the YAML library writes between the fences. -/
def yamlOf (py : Python) (frontmatter : Entries) : Text :=
  rstripNewlines (py.dump (frontmatter.insertionSort byText))

/-- A note that is rewritten with a frontmatter keeps what is below and is
read back with the fields that were written. -/
structure Rewritable (py : Python) (boardState : Option String) (content : Text)
    (frontmatter : Entries) : Prop where
  /-- every key is a text -/
  keys : frontmatter.all (·.1.isString) = true
  /-- below a frontmatter there are no breaks but newlines -/
  breaks : closingFence content ≠ none → ∀ c ∈ belowFence content, isLineBreak c = true → c = '\n'
  /-- the YAML library writes no line that is a fence -/
  fences : NoFence (yamlOf py frontmatter)
  /-- it reads the id as it was written, a type, and the state -/
  readBack : ∃ read, parseFrontmatter py (joined "\n" (yamlLines (yamlOf py frontmatter))) =
      .ok read ∧ get read "id" = get frontmatter "id" ∧ isFilled (get read "type") = true ∧
        ∀ state, boardState = some state → stateText py (get read "state") = state.toList

/-- The repair of a note that is given the number `next` if it has no id. -/
def NoteFine (py : Python) (states : NoteStates) (next : Int) (note : Note) : Prop :=
  ∀ content frontmatter body, note.file = .text content →
    splitFrontmatter py content = .ok (frontmatter, body) →
    isOdd (get frontmatter "id") = false ∧
      (needsRepair py (states.get note.stem) frontmatter = true →
        ∃ taskId, idGiven next (get frontmatter "id") = some taskId ∧
          Rewritable py (states.get note.stem) content
            (frontmatterAfter py (states.get note.stem) taskId frontmatter))

/-- What a note keeps. -/
structure Kept (py : Python) (old new : Note) : Prop where
  path : new.path = old.path
  stem : new.stem = old.stem
  /-- what is below the frontmatter, up to newlines around it -/
  body : ∀ content, old.file = .text content → ∃ content', new.file = .text content' ∧
    stripNewlines (belowFence content') = stripNewlines (belowFence content)
  /-- an id -/
  id : ∀ frontmatter body, old.read py = some (frontmatter, body) →
    lacksId (get frontmatter "id") = false → ∃ frontmatter' body',
      new.read py = some (frontmatter', body') ∧
        SameId (get frontmatter "id") (get frontmatter' "id")

/-- A note without an id is read with the number. -/
def Given (py : Python) (next : Int) (old new : Note) : Prop :=
  ∀ frontmatter body, old.read py = some (frontmatter, body) →
    lacksId (get frontmatter "id") = true → ∃ frontmatter' body',
      new.read py = some (frontmatter', body') ∧ get frontmatter' "id" = idText next

/-- A repair of the note has nothing to do. -/
def Quiet (py : Python) (states : NoteStates) (note : Note) : Prop :=
  ∀ frontmatter body, note.read py = some (frontmatter, body) →
    needsRepair py (states.get note.stem) frontmatter = false

/-- The repair of a note did what it should. -/
structure NoteOk (py : Python) (states : NoteStates) (next : Int) (old new : Note) : Prop where
  kept : Kept py old new
  given : Given py next old new
  quiet : Quiet py states new

-- --------------------------------------------------------- from the condition

theorem read_of_split {content : Text} {frontmatter : Entries} {body : Text}
    (hfile : note.file = .text content)
    (hsplit : splitFrontmatter py content = .ok (frontmatter, body)) :
    note.read py = some (frontmatter, body) := by
  unfold Note.read
  rw [hfile]
  dsimp only
  rw [hsplit]
  rfl

/-- A note that is read is a text with a frontmatter. -/
theorem split_of_read {frontmatter : Entries} {body : Text}
    (h : note.read py = some (frontmatter, body)) :
    ∃ content, note.file = .text content ∧
      splitFrontmatter py content = .ok (frontmatter, body) := by
  unfold Note.read at h
  split at h
  next content hfile =>
    refine ⟨content, hfile, ?_⟩
    cases hsplit : splitFrontmatter py content with
    | error e =>
        rw [hsplit] at h
        cases h
    | ok parts =>
        rw [hsplit] at h
        cases h
        rfl
  next => cases h

/-- The body of a note is what is below its frontmatter, up to newlines
around it, if and only if there are no other breaks. -/
theorem body_iff {content : Text} {frontmatter : Entries} {body : Text}
    (hsplit : splitFrontmatter py content = .ok (frontmatter, body)) :
    (stripNewlines body = stripNewlines (belowFence content) ↔
      (closingFence content ≠ none →
        ∀ c ∈ belowFence content, isLineBreak c = true → c = '\n')) ∧
      solid body = solid (belowFence content) := by
  rw [splitFrontmatter_eq] at hsplit
  cases hidx : closingFence content with
  | none =>
      rw [hidx] at hsplit
      cases hsplit
      unfold belowFence
      rw [hidx]
      exact ⟨⟨fun _ h => absurd rfl h, fun _ => rfl⟩, rfl⟩
  | some idx =>
      rw [hidx] at hsplit
      obtain ⟨parsed, -, hparts⟩ := Fallible.bind_eq_ok.mp hsplit
      cases hparts
      rw [stripNewlines_idempotent, stripNewlines_joined_iff, solid_stripNewlines,
        solid_splitlines]
      exact ⟨⟨fun h _ => h, fun h => h (by simp)⟩, rfl⟩

/-- A note whose repair has nothing to do is as it was. -/
theorem noteOk_self {next : Int}
    (hread : ∀ frontmatter body, note.read py = some (frontmatter, body) →
      needsRepair py (states.get note.stem) frontmatter = false) :
    NoteOk py states next note note where
  kept := {
    path := rfl
    stem := rfl
    body := fun content hfile => ⟨content, hfile, rfl⟩
    id := fun frontmatter body hread _ => ⟨frontmatter, body, hread, .inl rfl⟩ }
  given := by
    intro frontmatter body hnote hlacks
    have hquiet := hread frontmatter body hnote
    unfold needsRepair at hquiet
    have hfilled : isFilled (get frontmatter "id") = true := by
      cases hfilled : isFilled (get frontmatter "id") with
      | true => rfl
      | false =>
          rw [hfilled] at hquiet
          cases hquiet
    obtain ⟨s, hs⟩ := isFilled_eq_true hfilled
    rw [hs] at hfilled hlacks
    unfold isFilled lacksId at *
    simp_all
  quiet := hread

/-- A number that is given is the id of its text. -/
theorem textOfInt_eq {n : Int} {new : PyValue}
    (h : (textOfInt n).map (fun text => PyValue.str (String.ofList text)) = some new) :
    new = idText n := by
  obtain ⟨text, htext, rfl⟩ := Option.map_eq_some_iff.mp h
  unfold textOfInt at htext
  split at htext
  next =>
    cases htext
    rfl
  next => cases htext

/-- The id that a note is given, by what it was. -/
theorem idGiven_cases {next : Int} {old new : PyValue} (hodd : isOdd old = false)
    (h : idGiven next old = some new) :
    (lacksId old = false →
      (isFilled old = true ∧ new = old) ∨ ∃ n, old = .int n ∧ new = idText n) ∧
    (lacksId old = true → new = idText next) := by
  cases old with
  | none => exact ⟨nofun, fun _ => textOfInt_eq h⟩
  | int n => exact ⟨fun _ => .inr ⟨n, rfl, textOfInt_eq h⟩, nofun⟩
  | str s =>
      have hgiven : (if isFilled (.str s) then some (.str s)
          else (textOfInt next).map fun text => .str (String.ofList text)) = some new := h
      by_cases hblank : stripped s.toList = []
      · rw [if_neg (by simp [isFilled, hblank])] at hgiven
        exact ⟨fun hlacks => by simp [lacksId, hblank] at hlacks, fun _ => textOfInt_eq hgiven⟩
      · have hfilled : isFilled (.str s) = true := by simp [isFilled, hblank]
        rw [if_pos hfilled] at hgiven
        cases hgiven
        exact ⟨fun _ => .inl ⟨hfilled, rfl⟩, fun hlacks => by simp [lacksId, hblank] at hlacks⟩
  | _ => cases hodd

/-- A text without blanks has nothing to strip. -/
theorem stripped_of_solid {text : Text} (h : ∀ c ∈ text, Standard.isSpace c = false) :
    stripped text = text := by
  unfold stripped Frozen.Prompt.strip
  have hleft : text.dropWhile Standard.isSpace = text := by
    cases text with
    | nil => rfl
    | cons c text => exact List.dropWhile_cons_of_neg (by simp [h c (.head _)])
  rw [hleft, List.rdropWhile_eq_self_iff]
  intro hne
  simp [h _ (List.getLast_mem hne)]

theorem isSpace_of_isDigit {c : Char} (h : c.isDigit = true) : Standard.isSpace c = false := by
  unfold Char.isDigit at h
  have hcode : 48 ≤ c.toNat ∧ c.toNat ≤ 57 := by
    simpa [UInt32.le_iff_toNat_le] using h
  unfold Standard.isSpace
  simp
  omega

theorem not_isSpace_intText (n : Int) : ∀ c ∈ Json.intText n, Standard.isSpace c = false := by
  intro c hc
  rcases Json.mem_intText hc with hdigit | rfl
  · exact isSpace_of_isDigit hdigit
  · rfl

/-- The id of a number is filled. -/
theorem isFilled_idText (n : Int) : isFilled (idText n) = true := by
  obtain ⟨c, rest, htext, -⟩ := Json.startsNumber_intText n
  unfold isFilled idText
  dsimp only
  rw [String.toList_ofList, stripped_of_solid (not_isSpace_intText n), htext]
  rfl

/-- The id that is given to a note without an odd one is filled. -/
theorem isFilled_of_idGiven {next : Int} {old new : PyValue} (hodd : isOdd old = false)
    (h : idGiven next old = some new) : isFilled new = true := by
  obtain ⟨hsame, hnew⟩ := idGiven_cases hodd h
  cases hlacks : lacksId old with
  | true =>
      rw [hnew hlacks]
      exact isFilled_idText next
  | false =>
      rcases hsame hlacks with ⟨hfilled, rfl⟩ | ⟨n, -, rfl⟩
      · exact hfilled
      · exact isFilled_idText n

theorem isFilled_of_quiet {boardState : Option String} {frontmatter : Entries}
    (h : needsRepair py boardState frontmatter = false) :
    isFilled (get frontmatter "id") = true ∧ isFilled (get frontmatter "type") = true ∧
      ∀ state, boardState = some state → stateText py (get frontmatter "state") = state.toList := by
  unfold needsRepair at h
  simp only [Bool.or_eq_false_iff, Bool.not_eq_false'] at h
  refine ⟨h.1.1, h.1.2, fun state hstate => ?_⟩
  have := h.2
  rw [hstate] at this
  simpa using this

theorem quiet_of_isFilled {boardState : Option String} {frontmatter : Entries}
    (hid : isFilled (get frontmatter "id") = true)
    (htype : isFilled (get frontmatter "type") = true)
    (hstate : ∀ state, boardState = some state →
      stateText py (get frontmatter "state") = state.toList) :
    needsRepair py boardState frontmatter = false := by
  unfold needsRepair
  rw [hid, htype]
  cases boardState with
  | none => rfl
  | some state => simp [hstate state rfl]

/-- Nothing is done with a note that cannot be read. -/
theorem repairNote_unread (h : note.read py = none) :
    ∃ errors, repairNote py true states counter note = some (⟨errors, none⟩, counter) := by
  unfold Note.read at h
  unfold repairNote
  cases hfile : note.file with
  | text content =>
      rw [hfile] at h
      dsimp only at h ⊢
      cases hsplit : splitFrontmatter py content with
      | error e => exact ⟨_, rfl⟩
      | ok parts =>
          rw [hsplit] at h
          cases h
  | _ => exact ⟨_, rfl⟩

/-- A note that is rewritten as it can be is repaired. -/
theorem noteOk_of_rewritable {next : Int} {content : Text} {frontmatter : Entries} {body : Text}
    {taskId : PyValue} (hfile : note.file = .text content)
    (hsplit : splitFrontmatter py content = .ok (frontmatter, body))
    (hodd : isOdd (get frontmatter "id") = false)
    (hgiven : idGiven next (get frontmatter "id") = some taskId)
    (hrewritable : Rewritable py (states.get note.stem) content
      (frontmatterAfter py (states.get note.stem) taskId frontmatter)) :
    NoteOk py states next note { note with file := .text (document
      (yamlOf py (frontmatterAfter py (states.get note.stem) taskId frontmatter)) body) } := by
  obtain ⟨-, hbreaks, hfences, read, hparse, hid, htype, hstate⟩ := hrewritable
  rw [get_id_frontmatterAfter hgiven] at hid
  obtain ⟨hsame, hnew⟩ := idGiven_cases hodd hgiven
  generalize hyaml : yamlOf py _ = yaml at hparse hfences ⊢
  -- what is read of the document
  obtain ⟨below, hdocument⟩ : ∃ below, splitFrontmatter py (document yaml body) =
      .ok (read, below) := by
    rw [splitFrontmatter_document hfences, hparse]
    exact ⟨_, rfl⟩
  have hread : Note.read py { note with file := .text (document yaml body) } =
      some (read, below) := read_of_split rfl hdocument
  have hold := read_of_split hfile hsplit
  refine ⟨⟨rfl, rfl, ?_, ?_⟩, ?_, ?_⟩
  · intro content' hcontent'
    rw [hfile] at hcontent'
    cases hcontent'
    refine ⟨_, rfl, ?_⟩
    rw [belowFence_document hfences]
    exact (body_iff hsplit).1.mpr hbreaks
  · intro frontmatter' body' hnote hlacks
    rw [hold] at hnote
    cases hnote
    refine ⟨read, below, hread, ?_⟩
    rw [hid]
    rcases hsame hlacks with ⟨-, heq⟩ | hnumber
    · exact .inl heq
    · exact .inr hnumber
  · intro frontmatter' body' hnote hlacks
    rw [hold] at hnote
    cases hnote
    exact ⟨read, below, hread, hid.trans (hnew hlacks)⟩
  · intro frontmatter' body' hnote
    rw [hread] at hnote
    cases hnote
    refine quiet_of_isFilled ?_ htype hstate
    rw [hid]
    exact isFilled_of_idGiven hodd hgiven

/-- A filled id is not odd. -/
theorem isOdd_of_isFilled {v : PyValue} (h : isFilled v = true) : isOdd v = false := by
  obtain ⟨s, rfl⟩ := isFilled_eq_true h
  rfl

/-- A note that keeps its id and has nothing to repair had no odd one. -/
theorem isOdd_of_kept {old new : Note} (hkept : Kept py old new) (hquiet : Quiet py states new)
    {frontmatter : Entries} {body : Text} (hold : old.read py = some (frontmatter, body)) :
    isOdd (get frontmatter "id") = false := by
  cases hodd : isOdd (get frontmatter "id") with
  | false => rfl
  | true =>
      exfalso
      have hlacks : lacksId (get frontmatter "id") = false := by
        revert hodd
        cases get frontmatter "id" <;> simp [isOdd, lacksId]
      obtain ⟨read, below, hread, hsame⟩ := hkept.id _ _ hold hlacks
      have hfilled := (isFilled_of_quiet (hquiet _ _ hread)).1
      rcases hsame with heq | ⟨n, heq, -⟩
      · rw [heq] at hfilled
        rw [isOdd_of_isFilled hfilled] at hodd
        cases hodd
      · rw [heq] at hodd
        cases hodd

/-- A note that was rewritten and repaired was rewritten as it can be. -/
theorem rewritable_of_noteOk {next : Int} {content : Text} {frontmatter : Entries} {body : Text}
    {taskId : PyValue} (hfile : note.file = .text content)
    (hsplit : splitFrontmatter py content = .ok (frontmatter, body))
    (hgiven : idGiven next (get frontmatter "id") = some taskId)
    (hkeys : (frontmatterAfter py (states.get note.stem) taskId frontmatter).all
      (·.1.isString) = true)
    (hok : NoteOk py states next note { note with file := .text (document
      (yamlOf py (frontmatterAfter py (states.get note.stem) taskId frontmatter)) body) }) :
    isOdd (get frontmatter "id") = false ∧ Rewritable py (states.get note.stem) content
      (frontmatterAfter py (states.get note.stem) taskId frontmatter) := by
  obtain ⟨hkept, hnumber, hquiet⟩ := hok
  have hbody := hkept.body
  have hid := hkept.id
  have hold := read_of_split hfile hsplit
  obtain ⟨hbodyIff, hsolid⟩ := body_iff hsplit
  -- the text below has not grown, so no line that was written is a fence
  obtain ⟨content', hcontent', hbelow⟩ := hbody content hfile
  cases hcontent'
  have hfences : NoFence (yamlOf py
      (frontmatterAfter py (states.get note.stem) taskId frontmatter)) := by
    by_contra hnot
    have hgrown := solid_belowFence_document hnot body
    have hequal := congrArg solid hbelow
    rw [solid_stripNewlines, solid_stripNewlines] at hequal
    omega
  have hbreaks := hbodyIff.mp ((belowFence_document hfences body).symm.trans hbelow)
  -- what is read of it
  obtain ⟨read, below, hread⟩ : ∃ read below, Note.read py { note with file := .text (document
      (yamlOf py (frontmatterAfter py (states.get note.stem) taskId frontmatter)) body) } =
        some (read, below) := by
    cases hlacks : lacksId (get frontmatter "id") with
    | true =>
        obtain ⟨read, below, hread, -⟩ := hnumber _ _ hold hlacks
        exact ⟨read, below, hread⟩
    | false =>
        obtain ⟨read, below, hread, -⟩ := hid _ _ hold hlacks
        exact ⟨read, below, hread⟩
  obtain ⟨hfilled, htype, hstate⟩ := isFilled_of_quiet (hquiet _ _ hread)
  have hodd := isOdd_of_kept hkept hquiet hold
  obtain ⟨hgivenSame, hgivenNew⟩ := idGiven_cases hodd hgiven
  have hidRead : get read "id" = taskId := by
    cases hlacks : lacksId (get frontmatter "id") with
    | true =>
        obtain ⟨read', below', hread', hnew⟩ := hnumber _ _ hold hlacks
        rw [hread] at hread'
        cases hread'
        exact hnew.trans (hgivenNew hlacks).symm
    | false =>
        obtain ⟨read', below', hread', hsame⟩ := hid _ _ hold hlacks
        rw [hread] at hread'
        cases hread'
        rcases hgivenSame hlacks with ⟨hstr, heq⟩ | ⟨n, hn, heq⟩
        · rcases hsame with hsame | ⟨n, hn, -⟩
          · exact hsame.trans heq.symm
          · rw [hn] at hstr
            cases hstr
        · rcases hsame with hsame | ⟨m, hm, hsame⟩
          · rw [hsame, hn] at hfilled
            cases hfilled
          · rw [hn] at hm
            cases hm
            exact hsame.trans heq.symm
  refine ⟨hodd, hkeys, hbreaks, hfences, read, ?_, ?_, htype, hstate⟩
  · obtain ⟨content', hcontent', hdocument⟩ := split_of_read hread
    cases hcontent'
    rw [splitFrontmatter_document hfences] at hdocument
    obtain ⟨parsed, hparsed, hparts⟩ := Fallible.bind_eq_ok.mp hdocument
    cases hparts
    exact hparsed
  · rw [get_id_frontmatterAfter hgiven]
    exact hidRead

/-- The document that is written, where sorting does not raise. -/
theorem serializeTaskDocument_map {α : Type} (frontmatter : Entries) (body : Text)
    (f : Text → α) : (serializeTaskDocument py frontmatter body).map f =
      if frontmatter.all (·.1.isString) then some (f (document (yamlOf py frontmatter) body))
      else none := by
  rw [serializeTaskDocument_eq]
  unfold sortedEntries yamlOf
  split <;> rfl

/-- The repair of a note does what it should if and only if the note is
fine. -/
theorem noteFine_iff (hahead : counter.Ahead) :
    NoteFine py states counter.next note ↔ ∃ plan counter',
      repairNote py true states counter note = some (plan, counter') ∧
        NoteOk py states counter.next note (plan.apply note) := by
  cases hread : note.read py with
  | none =>
      obtain ⟨errors, hrepair⟩ := @repairNote_unread _ states counter _ hread
      have hself : NoteOk py states counter.next note note :=
        noteOk_self fun frontmatter body h => by
          rw [hread] at h
          cases h
      constructor
      · exact fun _ => ⟨_, _, hrepair, hself⟩
      · intro _ content frontmatter body hfile hsplit
        rw [read_of_split hfile hsplit] at hread
        cases hread
  | some parts =>
      obtain ⟨frontmatter, body⟩ := parts
      obtain ⟨content, hfile, hsplit⟩ := split_of_read hread
      obtain ⟨counter', errors, -, -, -, hrepair⟩ :=
        @repairNote_eq py states counter note hahead content frontmatter body hfile hsplit
      rw [hrepair]
      cases hneeds : needsRepair py (states.get note.stem) frontmatter with
      | false =>
          have hfilled := (isFilled_of_quiet hneeds).1
          rw [idGiven_of_filled hfilled, Option.bind_some]
          constructor
          · refine fun _ => ⟨_, _, rfl, noteOk_self fun frontmatter' body' h => ?_⟩
            rw [hread] at h
            cases h
            exact hneeds
          · intro _ content' frontmatter' body' hfile' hsplit'
            rw [hfile] at hfile'
            cases hfile'
            rw [hsplit] at hsplit'
            cases hsplit'
            refine ⟨isOdd_of_isFilled hfilled, fun h => ?_⟩
            rw [hneeds] at h
            cases h
      | true =>
          simp only [if_true, serializeTaskDocument_map]
          constructor
          · intro hfine
            obtain ⟨hodd, hwrite⟩ := hfine content frontmatter body hfile hsplit
            obtain ⟨taskId, hgiven, hrewritable⟩ := hwrite hneeds
            rw [hgiven, Option.bind_some, if_pos hrewritable.keys]
            exact ⟨_, _, rfl, noteOk_of_rewritable hfile hsplit hodd hgiven hrewritable⟩
          · rintro ⟨plan, counter'', hplan, hok⟩ content' frontmatter' body' hfile' hsplit'
            rw [hfile] at hfile'
            cases hfile'
            rw [hsplit] at hsplit'
            cases hsplit'
            obtain ⟨taskId, hgiven, hwritten⟩ := Option.bind_eq_some_iff.mp hplan
            split at hwritten
            next hkeys =>
              cases hwritten
              obtain ⟨hodd, hrewritable⟩ :=
                rewritable_of_noteOk hfile hsplit hgiven hkeys hok
              exact ⟨hodd, fun _ => ⟨taskId, hgiven, hrewritable⟩⟩
            next => cases hwritten

end OpenTulid.Obsidian
