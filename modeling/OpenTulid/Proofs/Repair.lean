/-
A repair with fixes: what it leaves and when a second one has nothing to do.

# The numbers

The loop hands out the numbers after the largest one present, one for each
note without an id. `Repairable` follows the notes with the next number.

# The second repair

A second repair reads the notes that the first one left. It writes nothing
exactly where no note needs a repair any more; what it reports is never an
error that a repair can fix.
-/
import OpenTulid.Proofs.RepairNote
import OpenTulid.Proofs.DerivedTasks

namespace OpenTulid.Obsidian

open Boards (ReadText fence stripped)
open Frozen (PyValue Entries)
open Frozen.Prompt

variable {py : Python} {states : NoteStates} {counter : Counter} {note : Note}

-- ================================================================= all notes

/-- The number after a note, which takes one if it has no id. -/
def nextOf (py : Python) (next : Int) (note : Note) : Int :=
  match note.read py with
  | some (frontmatter, _) => nextAfter next (get frontmatter "id")
  | none => next

/-- Every note is fine, with the number that it would be given. -/
def Repairable (py : Python) (states : NoteStates) : Int → List Note → Prop
  | _, [] => True
  | next, note :: rest =>
      NoteFine py states next note ∧ Repairable py states (nextOf py next note) rest

/-- Every note is repaired, with the number that it would be given. -/
def AllOk (py : Python) (states : NoteStates) : Int → List Note → List Note → Prop
  | _, [], [] => True
  | next, old :: notes, new :: after =>
      NoteOk py states next old new ∧ AllOk py states (nextOf py next old) notes after
  | _, _, _ => False

theorem repairNote_counter (hahead : counter.Ahead) {plan : NotePlan} {counter' : Counter}
    (h : repairNote py true states counter note = some (plan, counter')) :
    counter'.Ahead ∧ counter'.next = nextOf py counter.next note := by
  unfold nextOf
  cases hread : note.read py with
  | none =>
      obtain ⟨errors, hrepair⟩ := @repairNote_unread _ states counter _ hread
      rw [hrepair] at h
      cases h
      exact ⟨hahead, rfl⟩
  | some parts =>
      obtain ⟨frontmatter, body⟩ := parts
      obtain ⟨content, hfile, hsplit⟩ := split_of_read hread
      obtain ⟨counter'', errors, hahead', hnext, -, hrepair⟩ :=
        @repairNote_eq py states counter note hahead content frontmatter body hfile hsplit
      rw [hrepair] at h
      obtain ⟨taskId, -, hwritten⟩ := Option.bind_eq_some_iff.mp h
      split at hwritten
      next =>
        obtain ⟨content, -, hplan⟩ := Option.map_eq_some_iff.mp hwritten
        cases hplan
        exact ⟨hahead', hnext⟩
      next =>
        cases hwritten
        exact ⟨hahead', hnext⟩

/-- The loop repairs every note if and only if every note is fine. -/
theorem repairable_iff (hahead : counter.Ahead) (notes : List Note) :
    Repairable py states counter.next notes ↔ ∃ plans,
      repairNotes py true states counter notes = some plans ∧
        AllOk py states counter.next notes (List.zipWith NotePlan.apply plans notes) := by
  induction notes generalizing counter with
  | nil => exact ⟨fun _ => ⟨[], rfl, trivial⟩, fun _ => trivial⟩
  | cons note notes ih =>
      constructor
      · rintro ⟨hfine, hrest⟩
        obtain ⟨plan, counter', hplan, hok⟩ := (noteFine_iff hahead).mp hfine
        obtain ⟨hahead', hnext⟩ := repairNote_counter hahead hplan
        rw [← hnext] at hrest
        obtain ⟨plans, hplans, hall⟩ := (ih hahead').mp hrest
        refine ⟨plan :: plans, ?_, hok, ?_⟩
        · rw [repairNotes, hplan]
          show (repairNotes py true states counter' notes).bind _ = _
          rw [hplans]
          rfl
        · rw [← hnext]
          exact hall
      · rintro ⟨plans, hplans, hall⟩
        rw [repairNotes] at hplans
        obtain ⟨⟨plan, counter'⟩, hplan, hplans⟩ := Option.bind_eq_some_iff.mp hplans
        obtain ⟨rest, hrest, heq⟩ := Option.bind_eq_some_iff.mp hplans
        cases heq
        obtain ⟨hok, hall⟩ := hall
        obtain ⟨hahead', hnext⟩ := repairNote_counter hahead hplan
        rw [← hnext] at hall
        refine ⟨(noteFine_iff hahead).mpr ⟨plan, counter', hplan, hok⟩, ?_⟩
        rw [← hnext]
        exact (ih hahead').mpr ⟨rest, hrest, hall⟩

-- ---------------------------------------------------------------- the ids given

/-- The id that a note without one is read with. -/
def newId (py : Python) (old new : Note) : Option PyValue :=
  match old.read py with
  | some (frontmatter, _) =>
      if lacksId (get frontmatter "id") then
        some ((new.read py).elim .none fun parts => get parts.1 "id")
      else none
  | none => none

/-- The ids of the notes that had none, in the order of their paths. -/
def newIds (py : Python) (notes after : List Note) : List PyValue :=
  (List.zipWith (newId py) notes after).reduceOption

/-- Numbers one after the other. -/
def numbersFrom : Int → Nat → List Int
  | _, 0 => []
  | n, k + 1 => n :: numbersFrom (n + 1) k

theorem le_of_mem_numbersFrom {n m : Int} {k : Nat} (h : m ∈ numbersFrom n k) : n ≤ m := by
  induction k generalizing n with
  | zero => cases h
  | succ k ih =>
      rcases List.mem_cons.mp h with rfl | h
      · exact Int.le_refl _
      · have := ih h
        omega

theorem nodup_numbersFrom (n : Int) (k : Nat) : (numbersFrom n k).Nodup := by
  induction k generalizing n with
  | zero => exact .nil
  | succ k ih =>
      refine List.nodup_cons.mpr ⟨fun hmem => ?_, ih (n + 1)⟩
      have := le_of_mem_numbersFrom hmem
      omega

/-- A note is given the number if and only if it is read with it. -/
theorem given_iff {next : Int} {old new : Note} :
    Given py next old new ↔ ∀ v, newId py old new = some v → v = idText next := by
  unfold Given newId
  cases hread : old.read py with
  | none => exact ⟨fun _ _ h => (nomatch h), fun _ _ _ h => nomatch h⟩
  | some parts =>
      obtain ⟨frontmatter, body⟩ := parts
      dsimp only
      cases hlacks : lacksId (get frontmatter "id") with
      | false =>
          refine ⟨fun _ _ h => (nomatch h), fun _ fm' body' h hlacks' => ?_⟩
          cases h
          rw [hlacks] at hlacks'
          cases hlacks'
      | true =>
          rw [if_pos rfl]
          constructor
          · intro hgiven v hv
            obtain ⟨fm', body', hnew, hid⟩ := hgiven _ _ rfl hlacks
            rw [hnew] at hv
            cases hv
            exact hid
          · intro hall fm' body' h _
            cases h
            have hid := hall _ rfl
            cases hnew : new.read py with
            | none =>
                rw [hnew] at hid
                cases hid
            | some parts =>
                rw [hnew] at hid
                exact ⟨parts.1, parts.2, rfl, hid⟩

/-- The number after a note, by whether the note was given one. -/
theorem nextOf_eq {next : Int} {old new : Note} (hkept : Kept py old new)
    (hquiet : Quiet py states new) :
    nextOf py next old = if (newId py old new).isSome then next + 1 else next := by
  unfold nextOf
  cases hread : old.read py with
  | none =>
      have hnew : newId py old new = none := by
        unfold newId
        rw [hread]
      rw [hnew]
      rfl
  | some parts =>
      obtain ⟨frontmatter, body⟩ := parts
      have hodd := isOdd_of_kept hkept hquiet hread
      have htakes : takesNumber (get frontmatter "id") = lacksId (get frontmatter "id") := by
        revert hodd
        cases get frontmatter "id" <;> simp [isOdd, takesNumber, lacksId, isFilled]
      have hnew : (newId py old new).isSome = lacksId (get frontmatter "id") := by
        unfold newId
        rw [hread]
        cases hlacks : lacksId (get frontmatter "id") <;> simp [hlacks]
      rw [hnew]
      dsimp only
      unfold nextAfter
      rw [htakes]

theorem allOk_iff {next : Int} {notes after : List Note} :
    AllOk py states next notes after ↔ List.Forall₂ (Kept py) notes after ∧
      (∀ new ∈ after, Quiet py states new) ∧
        newIds py notes after =
          (numbersFrom next (newIds py notes after).length).map idText := by
  induction notes generalizing next after with
  | nil =>
      cases after with
      | nil => exact ⟨fun _ => ⟨.nil, nofun, rfl⟩, fun _ => trivial⟩
      | cons new after => exact ⟨fun h => h.elim, fun h => by cases h.1⟩
  | cons old notes ih =>
      cases after with
      | nil => exact ⟨fun h => h.elim, fun h => by cases h.1⟩
      | cons new after =>
          have hids : newIds py (old :: notes) (new :: after) =
              (newId py old new).toList ++ newIds py notes after := by
            unfold newIds
            rw [List.zipWith_cons_cons]
            cases newId py old new <;> rfl
          rw [List.forall₂_cons, List.forall_mem_cons, hids]
          constructor
          · rintro ⟨hok, hall⟩
            obtain ⟨hkepts, hquiets, hnumbers⟩ := ih.mp hall
            refine ⟨⟨hok.kept, hkepts⟩, ⟨hok.quiet, hquiets⟩, ?_⟩
            rw [nextOf_eq hok.kept hok.quiet] at hnumbers
            have hgiven := given_iff.mp hok.given
            cases hid : newId py old new with
            | none =>
                rw [hid] at hnumbers
                exact hnumbers
            | some v =>
                rw [hid] at hnumbers
                have hv := hgiven v hid
                show v :: newIds py notes after = idText next :: List.map idText _
                rw [hv]
                exact congrArg _ hnumbers
          · rintro ⟨⟨hkept, hkepts⟩, ⟨hquiet, hquiets⟩, hnumbers⟩
            rw [AllOk]
            refine ⟨⟨hkept, given_iff.mpr ?_, hquiet⟩, ih.mpr ⟨hkepts, hquiets, ?_⟩⟩
            · intro v hv
              rw [hv] at hnumbers
              exact (List.cons.inj hnumbers).1
            · rw [nextOf_eq hkept hquiet]
              cases hid : newId py old new with
              | none =>
                  rw [hid] at hnumbers
                  exact hnumbers
              | some v =>
                  rw [hid] at hnumbers
                  exact (List.cons.inj hnumbers).2

-- ============================================================ the second repair

/-- The ids of the notes have numbers that can be read. -/
theorem existingNumericTaskIds_isSome {notes : List Note} :
    (existingNumericTaskIds py notes).isSome ↔ ∀ note ∈ notes, ∀ frontmatter body,
      note.read py = some (frontmatter, body) → (numericId (get frontmatter "id")).isSome := by
  induction notes with
  | nil => exact ⟨fun _ => nofun, fun _ => rfl⟩
  | cons note notes ih =>
      rw [existingNumericTaskIds, List.forall_mem_cons, ← ih]
      cases hread : note.read py with
      | none => exact ⟨fun h => ⟨nofun, h⟩, fun h => h.2⟩
      | some parts =>
          obtain ⟨frontmatter, body⟩ := parts
          dsimp only
          cases hnumber : numericId (get frontmatter "id") with
          | none =>
              refine ⟨fun h => (by cases h), fun h => ?_⟩
              have := h.1 _ _ rfl
              rw [hnumber] at this
              cases this
          | some number =>
              have hfirst : ∀ frontmatter' body', some (frontmatter, body) =
                  some (frontmatter', body') → (numericId (get frontmatter' "id")).isSome := by
                rintro frontmatter' body' ⟨⟩
                rw [hnumber]
                rfl
              cases existingNumericTaskIds py notes with
              | none => exact ⟨fun h => (by cases h), fun h => (by cases h.2)⟩
              | some ids => exact ⟨fun _ => ⟨hfirst, rfl⟩, fun _ => rfl⟩

/-- A number whose text can be written can be read again. -/
theorem numericId_of_textOfInt {n : Int} {text : Text} (h : textOfInt n = some text) :
    (numericId (.str (String.ofList text))).isSome := by
  unfold textOfInt at h
  split at h
  next hlength =>
    cases h
    have hspace : stripped (Json.intText n) = Json.intText n :=
      stripped_of_solid (not_isSpace_intText n)
    unfold numericId
    dsimp only
    rw [String.toList_ofList, hspace]
    split
    next hnumeric =>
      unfold intOfText
      rw [if_pos]
      · rfl
      · cases n with
        | ofNat n => exact hlength
        | negSucc n => cases hnumeric
    next => rfl
  next => cases h

/-- The id that is given has a number that can be read if the old one has. -/
theorem numericId_of_idGiven {next : Int} {old new : PyValue} (hodd : isOdd old = false)
    (h : idGiven next old = some new) (hold : (numericId old).isSome) :
    (numericId new).isSome := by
  have hnumber : ∀ n, (textOfInt n).map (fun text => PyValue.str (String.ofList text)) =
      some new → (numericId new).isSome := by
    intro n hn
    obtain ⟨text, htext, rfl⟩ := Option.map_eq_some_iff.mp hn
    exact numericId_of_textOfInt htext
  cases old with
  | none => exact hnumber next h
  | int n => exact hnumber n h
  | str s =>
      have hgiven : (if isFilled (.str s) then some (.str s)
          else (textOfInt next).map fun text => .str (String.ofList text)) = some new := h
      split at hgiven
      next =>
        cases hgiven
        exact hold
      next => exact hnumber next hgiven
  | _ => cases hodd

/-- The round of the loop writes nothing if and only if the note has nothing
to repair. -/
theorem repairNote_quiet_iff (hahead : counter.Ahead) :
    Quiet py states note ↔ ∃ errors counter',
      repairNote py true states counter note = some (⟨errors, none⟩, counter') := by
  cases hread : note.read py with
  | none =>
      obtain ⟨errors, hrepair⟩ := @repairNote_unread _ states counter _ hread
      refine ⟨fun _ => ⟨errors, counter, hrepair⟩, fun _ frontmatter body h => ?_⟩
      rw [hread] at h
      cases h
  | some parts =>
      obtain ⟨frontmatter, body⟩ := parts
      obtain ⟨content, hfile, hsplit⟩ := split_of_read hread
      obtain ⟨counter', errors, -, -, -, hrepair⟩ :=
        @repairNote_eq py states counter note hahead content frontmatter body hfile hsplit
      rw [hrepair]
      have hquiet : Quiet py states note ↔
          needsRepair py (states.get note.stem) frontmatter = false := by
        refine ⟨fun h => h _ _ hread, fun h frontmatter' body' hread' => ?_⟩
        rw [hread] at hread'
        cases hread'
        exact h
      rw [hquiet]
      constructor
      · intro hneeds
        rw [idGiven_of_filled (isFilled_of_quiet hneeds).1, Option.bind_some, hneeds]
        exact ⟨errors, counter', rfl⟩
      · rintro ⟨errors', counter'', h⟩
        obtain ⟨taskId, -, hwritten⟩ := Option.bind_eq_some_iff.mp h
        cases hneeds : needsRepair py (states.get note.stem) frontmatter with
        | false => rfl
        | true =>
            rw [hneeds, if_pos rfl] at hwritten
            obtain ⟨content, -, hplan⟩ := Option.map_eq_some_iff.mp hwritten
            cases hplan

/-- The loop writes nothing if and only if no note has anything to repair. -/
theorem repairNotes_quiet_iff (hahead : counter.Ahead) (notes : List Note) :
    (∀ note ∈ notes, Quiet py states note) ↔ ∃ plans,
      repairNotes py true states counter notes = some plans ∧
        plans.filterMap NotePlan.write = [] := by
  induction notes generalizing counter with
  | nil => exact ⟨fun _ => ⟨[], rfl, rfl⟩, fun _ => nofun⟩
  | cons note notes ih =>
      rw [List.forall_mem_cons, @repairNote_quiet_iff _ _ counter _ hahead]
      constructor
      · rintro ⟨⟨errors, counter', hrepair⟩, hrest⟩
        obtain ⟨hahead', -⟩ := repairNote_counter hahead hrepair
        obtain ⟨plans, hplans, hwrites⟩ := (ih hahead').mp hrest
        refine ⟨⟨errors, none⟩ :: plans, ?_, hwrites⟩
        rw [repairNotes, hrepair]
        show (repairNotes py true states counter' notes).bind _ = _
        rw [hplans]
        rfl
      · rintro ⟨plans, hplans, hwrites⟩
        rw [repairNotes] at hplans
        obtain ⟨⟨plan, counter'⟩, hplan, hplans⟩ := Option.bind_eq_some_iff.mp hplans
        obtain ⟨rest, hrest, heq⟩ := Option.bind_eq_some_iff.mp hplans
        cases heq
        obtain ⟨hahead', -⟩ := repairNote_counter hahead hplan
        obtain ⟨errors, write⟩ := plan
        cases write with
        | some content => cases hwrites
        | none => exact ⟨⟨errors, counter', hplan⟩, (ih hahead').mpr ⟨rest, hrest, hwrites⟩⟩

-- ---------------------------------------------------------------- the errors

/-- The codes of the errors that a repair can fix. -/
def fixableCodes : List String :=
  ["task.id_missing", "task.type_missing", "task.state_mismatch"]

/-- The codes of the errors of a board. -/
def boardCodes : List String :=
  ["board.not_found", "board.invalid_utf8", "board.read_failed", "board.invalid_task_row",
    "board.card_before_column"]

theorem scan_codes {path : String} {reading : Boards.Reading} {i : Nat} {lines : List Text}
    {e : Boards.BoardError} (h : reading.scan path i lines = .error e) : e.code ∈ boardCodes := by
  induction lines generalizing reading i with
  | nil => cases h
  | cons line lines ih =>
      rcases Fallible.bind_eq_error.mp h with hstep | ⟨reading', -, hrest⟩
      · unfold Boards.Reading.step at hstep
        split at hstep
        next => cases hstep
        next =>
          split at hstep
          next => cases hstep
          next =>
            split at hstep
            next => cases hstep
            next =>
              split at hstep
              next => cases hstep
              next =>
                unfold Boards.Reading.content at hstep
                split at hstep
                next => cases hstep
                next =>
                  split at hstep
                  next =>
                    split at hstep
                    next => cases hstep
                    next =>
                      cases hstep
                      show "board.invalid_task_row" ∈ boardCodes
                      decide
                  next =>
                    split at hstep
                    next =>
                      cases hstep
                      show "board.card_before_column" ∈ boardCodes
                      decide
                    next => cases hstep
      · exact ih hrest

theorem readBoard_codes {board path : String} {file : ReadText} {e : Boards.BoardError}
    (h : Boards.readBoard board path file = .error e) : e.code ∈ boardCodes := by
  cases file with
  | text text =>
      rcases Fallible.bind_eq_error.mp h with hscan | ⟨reading, -, hdoc⟩
      · exact scan_codes hscan
      · cases hdoc
  | notFound =>
      cases h
      show "board.not_found" ∈ boardCodes
      decide
  | notUtf8 =>
      cases h
      show "board.invalid_utf8" ∈ boardCodes
      decide
  | failed error =>
      cases h
      show "board.read_failed" ∈ boardCodes
      decide

/-- No error is one that a repair can fix. -/
def Unfixable (errors : List DomainError) : Prop := ∀ e ∈ errors, e.code ∉ fixableCodes

theorem Unfixable.append {errors : List DomainError} {e : DomainError} (h : Unfixable errors)
    (he : e.code ∉ fixableCodes) : Unfixable (errors ++ [e]) := by
  intro e' he'
  rcases List.mem_append.mp he' with he' | he'
  · exact h e' he'
  · rw [List.mem_singleton.mp he']
    exact he

theorem unfixable_cardStates {mappings : List StateMapping} {board : Board}
    {acc : NoteStates × List DomainError} (h : Unfixable acc.2) (cards : List Boards.BoardCard) :
    Unfixable (cards.foldl (cardStates py mappings board) acc).2 := by
  induction cards generalizing acc with
  | nil => exact h
  | cons card cards ih =>
      refine ih ?_
      unfold cardStates
      split
      next => exact h.append (show "board.column_unmapped" ∉ fixableCodes by decide)
      next => exact h

theorem unfixable_boardStates (mappings : List StateMapping) (boards : List Board) :
    Unfixable (boardStates py mappings boards).2 := by
  have hstart : Unfixable ([] : List DomainError) := fun e he => absurd he List.not_mem_nil
  unfold boardStates
  refine List.foldlRecOn (motive := fun acc : NoteStates × List DomainError => Unfixable acc.2)
    boards _ hstart fun acc h board _ => ?_
  cases hread : Boards.readBoard board.name board.path board.file with
  | error e =>
      have hcode := readBoard_codes hread
      refine h.append fun hfixable => ?_
      have hnone : ∀ code ∈ boardCodes, code ∉ fixableCodes := by decide
      exact hnone _ hcode hfixable
  | ok doc => exact unfixable_cardStates h doc.cards

theorem unfixable_repairNote (hahead : counter.Ahead) {plan : NotePlan} {counter' : Counter}
    (h : repairNote py true states counter note = some (plan, counter')) :
    Unfixable plan.errors := by
  cases hread : note.read py with
  | none =>
      unfold Note.read at hread
      unfold repairNote at h
      cases hfile : note.file with
      | text content =>
          rw [hfile] at hread h
          dsimp only at hread h
          cases hsplit : splitFrontmatter py content with
          | error e =>
              rw [hsplit] at h
              cases h
              intro e he
              rw [List.mem_singleton.mp he]
              show "task.invalid_frontmatter" ∉ fixableCodes
              decide
          | ok parts =>
              rw [hsplit] at hread
              cases hread
      | notUtf8 =>
          rw [hfile] at h
          cases h
          intro e he
          rw [List.mem_singleton.mp he]
          show "task.invalid_utf8" ∉ fixableCodes
          decide
      | _ =>
          rw [hfile] at h
          cases h
          intro e he
          rw [List.mem_singleton.mp he]
          show "task.read_failed" ∉ fixableCodes
          decide
  | some parts =>
      obtain ⟨frontmatter, body⟩ := parts
      obtain ⟨content, hfile, hsplit⟩ := split_of_read hread
      obtain ⟨counter'', errors, -, -, herrors, hrepair⟩ :=
        @repairNote_eq py states counter note hahead content frontmatter body hfile hsplit
      have hschema : Unfixable errors := by
        intro e he hfixable
        rw [herrors] at he
        have hnone : ∀ code ∈ Derived.schemaCodes, code ∉ fixableCodes := by decide
        exact hnone _ (Derived.validateTaskSchema_codes e he) hfixable
      rw [hrepair] at h
      obtain ⟨taskId, -, hwritten⟩ := Option.bind_eq_some_iff.mp h
      split at hwritten
      next =>
        obtain ⟨content, -, hplan⟩ := Option.map_eq_some_iff.mp hwritten
        cases hplan
        exact hschema
      next =>
        cases hwritten
        exact hschema

theorem unfixable_repairNotes (hahead : counter.Ahead) {notes : List Note}
    {plans : List NotePlan} (h : repairNotes py true states counter notes = some plans) :
    Unfixable (plans.flatMap NotePlan.errors) := by
  induction notes generalizing counter plans with
  | nil =>
      cases h
      exact nofun
  | cons note notes ih =>
      rw [repairNotes] at h
      obtain ⟨⟨plan, counter'⟩, hplan, hplans⟩ := Option.bind_eq_some_iff.mp h
      obtain ⟨rest, hrest, heq⟩ := Option.bind_eq_some_iff.mp hplans
      cases heq
      intro e he
      rw [List.flatMap_cons, List.mem_append] at he
      rcases he with he | he
      · exact unfixable_repairNote hahead hplan e he
      · exact ih (repairNote_counter hahead hplan).1 hrest e he

-- ================================================================== the repair

/-- A repair with fixes did what it should: every note keeps its id and what
is below its frontmatter; the notes without an id have the numbers after the
largest that was there, which differ and were not used; and a second repair
writes nothing and reports nothing that can be fixed. -/
structure Converges (py : Python) (mappings : List StateMapping) (boards : List Board)
    (notes after : List Note) : Prop where
  kept : List.Forall₂ (Kept py) notes after
  assigned : ∃ used numbers, existingNumericTaskIds py notes = some used ∧
    numbers = numbersFrom (largest used + 1) (newIds py notes after).length ∧
    newIds py notes after = numbers.map idText ∧ numbers.Nodup ∧ ∀ n ∈ numbers, n ∉ used
  second : ∃ plan, planRepair py mappings boards true after = some plan ∧ plan.writes = [] ∧
    Unfixable plan.errors

/-- The states that the boards give. -/
def statesOf (py : Python) (mappings : List StateMapping) (boards : List Board) : NoteStates :=
  (boardStates py mappings boards).1

theorem planRepair_eq_some {mappings : List StateMapping} {boards : List Board}
    {notes : List Note} {plan : Plan} :
    planRepair py mappings boards true notes = some plan ↔ ∃ used plans,
      existingNumericTaskIds py notes = some used ∧
      repairNotes py true (statesOf py mappings boards) (Counter.start used) notes =
        some plans ∧
      plan = ⟨plans, (boardStates py mappings boards).2 ++ plans.flatMap NotePlan.errors⟩ := by
  unfold planRepair statesOf
  obtain ⟨states, boardErrors⟩ := boardStates py mappings boards
  constructor
  · intro h
    obtain ⟨used, hused, h⟩ := Option.bind_eq_some_iff.mp h
    obtain ⟨plans, hplans, heq⟩ := Option.bind_eq_some_iff.mp h
    cases heq
    exact ⟨used, plans, hused, hplans, rfl⟩
  · rintro ⟨used, plans, hused, hplans, rfl⟩
    dsimp only at hplans ⊢
    rw [hused]
    show (repairNotes py true states (Counter.start used) notes).bind _ = _
    rw [hplans]
    rfl

/-- What a repair reports cannot be fixed. -/
theorem unfixable_planRepair {mappings : List StateMapping} {boards : List Board}
    {notes : List Note} {plan : Plan}
    (h : planRepair py mappings boards true notes = some plan) : Unfixable plan.errors := by
  obtain ⟨used, plans, -, hplans, rfl⟩ := planRepair_eq_some.mp h
  intro e he
  rcases List.mem_append.mp he with he | he
  · exact unfixable_boardStates mappings boards e he
  · exact unfixable_repairNotes (ahead_start used) hplans e he

/-- A second repair writes nothing if and only if the ids have numbers that
can be read and no note has anything to repair. -/
theorem second_iff {mappings : List StateMapping} {boards : List Board} {after : List Note} :
    (∃ plan, planRepair py mappings boards true after = some plan ∧ plan.writes = [] ∧
      Unfixable plan.errors) ↔
    (existingNumericTaskIds py after).isSome ∧
      ∀ note ∈ after, Quiet py (statesOf py mappings boards) note := by
  constructor
  · rintro ⟨plan, hplan, hwrites, -⟩
    obtain ⟨used, plans, hused, hplans, rfl⟩ := planRepair_eq_some.mp hplan
    exact ⟨by rw [hused]; rfl,
      (repairNotes_quiet_iff (ahead_start used) after).mpr ⟨plans, hplans, hwrites⟩⟩
  · rintro ⟨hsome, hquiet⟩
    obtain ⟨used, hused⟩ := Option.isSome_iff_exists.mp hsome
    obtain ⟨plans, hplans, hwrites⟩ :=
      (repairNotes_quiet_iff (ahead_start used) after).mp hquiet
    have hplan := planRepair_eq_some.mpr ⟨used, plans, hused, hplans, rfl⟩
    exact ⟨_, hplan, hwrites, unfixable_planRepair hplan⟩

/-- The id of a note has a number that can be read. -/
def NumberReads (py : Python) (note : Note) : Prop :=
  ∀ frontmatter body, note.read py = some (frontmatter, body) →
    (numericId (get frontmatter "id")).isSome

/-- The number of the id of a note can still be read after its repair. -/
theorem numberReads_apply (hahead : counter.Ahead)
    (hfine : NoteFine py states counter.next note) (hnumber : NumberReads py note)
    {plan : NotePlan} {counter' : Counter}
    (h : repairNote py true states counter note = some (plan, counter')) :
    NumberReads py (plan.apply note) := by
  cases hread : note.read py with
  | none =>
      obtain ⟨errors, hrepair⟩ := @repairNote_unread _ states counter _ hread
      rw [hrepair] at h
      cases h
      exact hnumber
  | some parts =>
      obtain ⟨frontmatter, body⟩ := parts
      obtain ⟨content, hfile, hsplit⟩ := split_of_read hread
      obtain ⟨counter'', errors, -, -, -, hrepair⟩ :=
        @repairNote_eq py states counter note hahead content frontmatter body hfile hsplit
      rw [hrepair] at h
      obtain ⟨taskId, hgiven, hwritten⟩ := Option.bind_eq_some_iff.mp h
      cases hneeds : needsRepair py (states.get note.stem) frontmatter with
      | false =>
          rw [hneeds] at hwritten
          cases hwritten
          exact hnumber
      | true =>
          obtain ⟨hodd, hwrite⟩ := hfine content frontmatter body hfile hsplit
          obtain ⟨taskId', hgiven', hrewritable⟩ := hwrite hneeds
          rw [hgiven] at hgiven'
          cases hgiven'
          rw [hneeds, if_pos rfl, serializeTaskDocument_map, if_pos hrewritable.keys] at hwritten
          cases hwritten
          obtain ⟨read, hparse, hid, -⟩ := hrewritable.readBack
          intro frontmatter' body' hread'
          obtain ⟨content', hcontent', hdocument⟩ := split_of_read hread'
          cases hcontent'
          rw [splitFrontmatter_document hrewritable.fences, hparse] at hdocument
          cases hdocument
          rw [hid, get_id_frontmatterAfter hgiven]
          exact numericId_of_idGiven hodd hgiven (hnumber _ _ hread)

theorem numbersRead_apply (hahead : counter.Ahead) {notes : List Note} {plans : List NotePlan}
    (hfine : Repairable py states counter.next notes) (hnumbers : ∀ note ∈ notes, NumberReads py note)
    (h : repairNotes py true states counter notes = some plans) :
    ∀ note ∈ List.zipWith NotePlan.apply plans notes, NumberReads py note := by
  induction notes generalizing counter plans with
  | nil =>
      cases h
      exact nofun
  | cons note notes ih =>
      rw [repairNotes] at h
      obtain ⟨⟨plan, counter'⟩, hplan, hplans⟩ := Option.bind_eq_some_iff.mp h
      obtain ⟨rest, hrest, heq⟩ := Option.bind_eq_some_iff.mp hplans
      cases heq
      obtain ⟨hahead', hnext⟩ := repairNote_counter hahead hplan
      rw [List.forall_mem_cons] at hnumbers
      rw [List.zipWith_cons_cons, List.forall_mem_cons]
      refine ⟨numberReads_apply hahead hfine.1 hnumbers.1 hplan, ih hahead' ?_ hnumbers.2 hrest⟩
      rw [hnext]
      exact hfine.2

/-- Notes that are not written are as they were. -/
theorem apply_of_quiet {notes : List Note} {plans : List NotePlan}
    (h : repairNotes py true states counter notes = some plans)
    (hwrites : plans.filterMap NotePlan.write = []) :
    List.zipWith NotePlan.apply plans notes = notes := by
  induction notes generalizing counter plans with
  | nil =>
      cases h
      rfl
  | cons note notes ih =>
      rw [repairNotes] at h
      obtain ⟨⟨plan, counter'⟩, hplan, hplans⟩ := Option.bind_eq_some_iff.mp h
      obtain ⟨rest, hrest, heq⟩ := Option.bind_eq_some_iff.mp hplans
      cases heq
      obtain ⟨errors, write⟩ := plan
      cases write with
      | some content => cases hwrites
      | none =>
          rw [List.zipWith_cons_cons, ih hrest hwrites]
          rfl

/-- What a repair leaves. -/
theorem repairProject_eq_some {mappings : List StateMapping} {boards : List Board}
    {fault : Option String} {notes after : List Note} {errors : List DomainError}
    (h : repairProject py mappings boards true fault notes = some (after, errors)) :
    ∃ used plans, existingNumericTaskIds py notes = some used ∧
      repairNotes py true (statesOf py mappings boards) (Counter.start used) notes =
        some plans ∧
      ((plans.filterMap NotePlan.write = [] ∨ fault = none) ∧
          after = List.zipWith NotePlan.apply plans notes ∨
        plans.filterMap NotePlan.write ≠ [] ∧ fault ≠ none ∧ after = notes) := by
  obtain ⟨plan, hplan, h⟩ := Option.bind_eq_some_iff.mp h
  obtain ⟨used, plans, hused, hplans, rfl⟩ := planRepair_eq_some.mp hplan
  refine ⟨used, plans, hused, hplans, ?_⟩
  by_cases hwrites : plans.filterMap NotePlan.write = []
  · left
    refine ⟨.inl hwrites, ?_⟩
    have hnone : Plan.writes ⟨plans, (boardStates py mappings boards).2 ++
        plans.flatMap NotePlan.errors⟩ = [] := hwrites
    rw [hnone] at h
    cases h
    exact (apply_of_quiet hplans hwrites).symm
  · have hsome : (true && !(Plan.writes ⟨plans, (boardStates py mappings boards).2 ++
        plans.flatMap NotePlan.errors⟩).isEmpty) = true := by
      simpa [Plan.writes] using hwrites
    rw [if_pos hsome] at h
    cases fault with
    | none =>
        cases h
        exact .inl ⟨.inr rfl, rfl⟩
    | some exc =>
        cases h
        exact .inr ⟨hwrites, nofun, rfl⟩

/-- What a repair needs: the numbers of the ids can be read, every note is
fine, and the writes succeed if there are any. -/
def Repairs (py : Python) (mappings : List StateMapping) (boards : List Board)
    (fault : Option String) (notes : List Note) : Prop :=
  ∃ used, existingNumericTaskIds py notes = some used ∧
    Repairable py (statesOf py mappings boards) (largest used + 1) notes ∧
    (fault = none ∨ ∀ note ∈ notes, Quiet py (statesOf py mappings boards) note)

section Main

variable {mappings : List StateMapping} {boards : List Board} {fault : Option String}
  {notes after : List Note} {errors : List DomainError}

theorem repairs_of_converges
    (h : repairProject py mappings boards true fault notes = some (after, errors))
    (hconverges : Converges py mappings boards notes after) :
    Repairs py mappings boards fault notes := by
  obtain ⟨hkept, ⟨used, numbers, hused, hnumbers, hids, -, -⟩, hsecond⟩ := hconverges
  obtain ⟨used', plans, hused', hplans, hafter⟩ := repairProject_eq_some h
  rw [hused] at hused'
  cases hused'
  obtain ⟨-, hquiet⟩ := second_iff.mp hsecond
  rcases hafter with ⟨hwritten, rfl⟩ | ⟨hwrites, -, rfl⟩
  · rw [hnumbers] at hids
    refine ⟨used, hused, ?_, ?_⟩
    · exact (repairable_iff (ahead_start used) notes).mpr
        ⟨plans, hplans, allOk_iff.mpr ⟨hkept, hquiet, hids⟩⟩
    · rcases hwritten with hwrites | hnone
      · exact .inr ((repairNotes_quiet_iff (ahead_start used) notes).mpr
          ⟨plans, hplans, hwrites⟩)
      · exact .inl hnone
  · -- a repair whose writes failed has the same to write again
    obtain ⟨plans', hplans', hnone⟩ :=
      (repairNotes_quiet_iff (ahead_start used) _).mp hquiet
    rw [hplans] at hplans'
    cases hplans'
    exact absurd hnone hwrites

theorem converges_of_repairs (h : Repairs py mappings boards fault notes) :
    ∃ after errors, repairProject py mappings boards true fault notes = some (after, errors) ∧
      Converges py mappings boards notes after := by
  obtain ⟨used, hused, hrepairable, hfault⟩ := h
  obtain ⟨plans, hplans, hall⟩ := (repairable_iff (ahead_start used) notes).mp hrepairable
  obtain ⟨hkept, hquiet, hids⟩ := allOk_iff.mp hall
  have hwritten : plans.filterMap NotePlan.write = [] ∨ fault = none := by
    rcases hfault with hnone | hquiet
    · exact .inr hnone
    · obtain ⟨plans', hplans', hwrites⟩ :=
        (repairNotes_quiet_iff (ahead_start used) notes).mp hquiet
      rw [hplans] at hplans'
      cases hplans'
      exact .inl hwrites
  have hnumbers : (existingNumericTaskIds py
      (List.zipWith NotePlan.apply plans notes)).isSome := by
    refine existingNumericTaskIds_isSome.mpr ?_
    exact numbersRead_apply (ahead_start used) hrepairable
      (existingNumericTaskIds_isSome.mp (by rw [hused]; rfl)) hplans
  have hconverges : Converges py mappings boards notes
      (List.zipWith NotePlan.apply plans notes) := by
    refine ⟨hkept, ⟨used, _, hused, rfl, hids, nodup_numbersFrom _ _, fun n hn hmem => ?_⟩,
      second_iff.mpr ⟨hnumbers, hquiet⟩⟩
    have hfirst := le_of_mem_numbersFrom hn
    have hlargest := le_largest hmem
    omega
  have hplan := planRepair_eq_some.mpr ⟨used, plans, hused, hplans, rfl⟩
  obtain ⟨after, errors, hafter⟩ : ∃ after errors,
      repairProject py mappings boards true fault notes = some (after, errors) := by
    unfold repairProject
    rw [hplan]
    simp only [Option.bind_eq_bind, Option.bind_some]
    split
    next =>
      cases fault with
      | none => exact ⟨_, _, rfl⟩
      | some exc => exact ⟨_, _, rfl⟩
    next => exact ⟨_, _, rfl⟩
  refine ⟨after, errors, hafter, ?_⟩
  obtain ⟨used', plans', hused', hplans', hleft⟩ := repairProject_eq_some hafter
  rw [hused] at hused'
  cases hused'
  rw [hplans] at hplans'
  cases hplans'
  rcases hleft with ⟨-, rfl⟩ | ⟨hwrites, hfailed, rfl⟩
  · exact hconverges
  · rcases hwritten with hnone | hnone
    · exact absurd hnone hwrites
    · exact absurd hnone hfailed

end Main

/-- A repair converges if and only if every note can be repaired: no id is
anything but a number or a text, and what is rewritten has text keys only,
keeps its line breaks, has no fence within its frontmatter and is read back
as it was written. -/
theorem repair_converges (py : Python) (mappings : List StateMapping) (boards : List Board)
    (fault : Option String) (notes : List Note) :
    (∃ after errors, repairProject py mappings boards true fault notes = some (after, errors) ∧
      Converges py mappings boards notes after) ↔ Repairs py mappings boards fault notes := by
  constructor
  · rintro ⟨after, errors, h, hconverges⟩
    exact repairs_of_converges h hconverges
  · exact converges_of_repairs

/-- A library that knows the frontmatter of one note and what is written for
it. -/
def plainYaml : Python where
  load text :=
    if text = "type: Task".toList then .ok (.dict [(.str "type", .str "Task")])
    else .ok (.dict [(.str "id", .str "1"), (.str "type", .str "Task")])
  dump _ := "id: '1'\ntype: Task\n".toList
  str
    | .str s => s.toList
    | _ => []
  repr text := text
  str_str _ := rfl

/-- A note without an id, with two pages. -/
def pagesText : Text := "---\ntype: Task\n---\none\x0ctwo\n".toList

def pagesNote : Note := ⟨"tasks/a.md", "a".toList, .text pagesText⟩

/-- The page break of a note that is given an id becomes a newline. -/
theorem page_break_lost :
    ¬ ∃ after errors, repairProject plainYaml [] [] true none [pagesNote] =
        some (after, errors) ∧ Converges plainYaml [] [] [pagesNote] after := by
  rintro ⟨after, errors, h, hconverges⟩
  obtain ⟨used, -, ⟨hfine, -⟩, -⟩ := repairs_of_converges h hconverges
  have hsplit : splitFrontmatter plainYaml pagesText =
      .ok ([(.str "type", .str "Task")], "one\ntwo".toList) := rfl
  obtain ⟨-, hwrite⟩ := hfine pagesText _ _ rfl hsplit
  obtain ⟨taskId, -, hrewritable⟩ := hwrite rfl
  have hfence : closingFence pagesText ≠ none := by decide
  have hbelow : belowFence pagesText = "one\x0ctwo\n".toList := rfl
  have hbreaks := hrewritable.breaks hfence
  rw [hbelow] at hbreaks
  exact absurd (hbreaks '\x0c' (by decide) rfl) (by decide)

end OpenTulid.Obsidian
