/-
Durability and uniqueness of the event log, over every sequence of calls.

# The laws

`EventLogLaws` says of a log and of the calls that made it: ids are distinct;
what an accepted call appended can be read from then on; the events of a file
stand in the order in which they were appended; a call that answered with an
error left the readable events as they were.

Ids and order hold whatever goes wrong (`distinct_of_run`,
`ordered_of_run`): a line that does not read adds nothing.

# Where they fail

The two others need more (`Sound`). A crash leaves a torn line, and the next
event written to that file shares its line and is lost though the call is
accepted. An event whose required texts are empty is written and never read.
And a call that fails after a whole line was written, be it the line for
people that fails, answers with an error and leaves the event behind.
-/
import OpenTulid.Runtime.EventLog
import OpenTulid.World

namespace OpenTulid

-- ========================================================= the files

theorem EventLog.file_put (log : EventLog) (day d : String)
    (f : Lines LoggedEvent) :
    EventLog.file (log.put day f) d = if d = day then f else log.file d := by
  unfold EventLog.file
  rw [Store.get_put]
  split <;> rfl

/-- What is read in the log is what is read in its files. -/
theorem EventLog.mem_iterEvents {log : EventLog} {e : LoggedEvent} :
    e ∈ log.iterEvents ↔ ∃ day, e ∈ log.fileEvents day := by
  unfold EventLog.iterEvents EventLog.fileEvents EventLog.file
  rw [List.mem_flatMap]
  constructor
  · intro h
    obtain ⟨⟨day, f⟩, hentry, he⟩ := h
    have hget := Store.mem_entries.mp hentry
    exact ⟨day, by rw [hget]; exact he⟩
  · intro h
    obtain ⟨day, he⟩ := h
    cases hget : log.get day with
    | none =>
        rw [hget] at he
        cases he
    | some f =>
        rw [hget] at he
        exact ⟨(day, f), Store.mem_entries.mpr hget, he⟩

/-- The ids that can be read in a file. -/
def EventLog.fileIds (log : EventLog) (day : String) : List EventId :=
  (log.fileEvents day).map (·.eventId)

theorem EventLog.mem_eventIds {log : EventLog} {id : EventId} :
    id ∈ log.eventIds ↔ ∃ day, id ∈ log.fileIds day := by
  unfold EventLog.eventIds EventLog.fileIds
  constructor
  · intro h
    obtain ⟨e, he, rfl⟩ := List.mem_map.mp h
    obtain ⟨day, hday⟩ := EventLog.mem_iterEvents.mp he
    exact ⟨day, List.mem_map_of_mem hday⟩
  · intro h
    obtain ⟨day, hday⟩ := h
    obtain ⟨e, he, rfl⟩ := List.mem_map.mp hday
    exact List.mem_map_of_mem (EventLog.mem_iterEvents.mpr ⟨day, he⟩)

/-- Ids are distinct in the log when they are in each file and no two files
share one. -/
theorem EventLog.nodup_eventIds {log : EventLog}
    (hfile : ∀ day, (log.fileIds day).Nodup)
    (hfiles : ∀ day other, day ≠ other →
      (log.fileIds day).Disjoint (log.fileIds other)) : log.eventIds.Nodup := by
  have hids : ∀ entry ∈ log.entries,
      (entry.2.items.filterMap eventFromDict).map (·.eventId)
        = log.fileIds entry.1 := by
    intro entry hentry
    obtain ⟨day, f⟩ := entry
    have hget : log.get day = some f := Store.mem_entries.mp hentry
    unfold EventLog.fileIds EventLog.fileEvents EventLog.file
    rw [hget]
    rfl
  unfold EventLog.eventIds EventLog.iterEvents
  rw [List.map_flatMap, List.nodup_flatMap]
  constructor
  · intro entry hentry
    rw [hids entry hentry]
    exact hfile entry.1
  · refine List.Pairwise.imp_of_mem ?_ log.sorted
    intro a b ha hb hlt
    have hdisjoint := hfiles a.1 b.1 (ne_of_lt hlt)
    rw [← hids a ha, ← hids b hb] at hdisjoint
    exact hdisjoint

-- =================================================== the new events

/-- The events of a call that are written: those whose id is neither read in
the log nor met before in the call. -/
def newEvents (existing : List EventId) : List LoggedEvent → List LoggedEvent
  | [] => []
  | e :: rest =>
      if e.eventId ∈ existing then newEvents existing rest
      else e :: newEvents (e.eventId :: existing) rest

theorem newEvents_sublist (existing : List EventId) (events : List LoggedEvent) :
    (newEvents existing events).Sublist events := by
  induction events generalizing existing with
  | nil => exact List.Sublist.refl _
  | cons e rest ih =>
      unfold newEvents
      split
      · exact (ih existing).cons e
      · exact (ih _).cons_cons e

theorem not_mem_of_mem_newEvents {existing : List EventId}
    {events : List LoggedEvent} {e : LoggedEvent}
    (h : e ∈ newEvents existing events) : e.eventId ∉ existing := by
  induction events generalizing existing with
  | nil => cases h
  | cons head rest ih =>
      unfold newEvents at h
      split at h
      · exact ih h
      next hnew =>
        rcases List.mem_cons.mp h with heq | h
        · rw [heq]
          exact hnew
        · exact fun hmem => ih h (List.mem_cons_of_mem _ hmem)

/-- No two new events share their id. -/
theorem nodup_newEvents (existing : List EventId) (events : List LoggedEvent) :
    ((newEvents existing events).map (·.eventId)).Nodup := by
  induction events generalizing existing with
  | nil => exact List.nodup_nil
  | cons e rest ih =>
      unfold newEvents
      split
      · exact ih existing
      · refine List.nodup_cons.mpr ⟨?_, ih _⟩
        intro hmem
        obtain ⟨e', he', heq⟩ := List.mem_map.mp hmem
        exact not_mem_of_mem_newEvents he' (heq ▸ List.mem_cons_self)

/-- The id of an event of a call is known or is that of a new event. -/
theorem known_or_new (existing : List EventId) {events : List LoggedEvent}
    {e : LoggedEvent} (h : e ∈ events) :
    e.eventId ∈ existing ∨
      e.eventId ∈ (newEvents existing events).map (·.eventId) := by
  induction events generalizing existing with
  | nil => cases h
  | cons head rest ih =>
      unfold newEvents
      rcases List.mem_cons.mp h with heq | h
      · subst heq
        split
        next hmem => exact Or.inl hmem
        next => exact Or.inr List.mem_cons_self
      · split
        · exact ih existing h
        · rcases ih (head.eventId :: existing) h with hmem | hmem
          · rcases List.mem_cons.mp hmem with heq | hmem
            · rw [heq]
              exact Or.inr List.mem_cons_self
            · exact Or.inl hmem
          · exact Or.inr (List.mem_cons_of_mem _ hmem)

-- ================================================= the prepared lines

/-- The lines prepared for the file of a day. -/
def linesOf (day : String) : List (String × List LoggedEvent) → List LoggedEvent
  | [] => []
  | (d, lines) :: rest => if d = day then lines else linesOf day rest

/-- The lines of some events, by file: each file once, its lines the events
of its day in order. -/
structure Prepares (events : List LoggedEvent)
    (prepared : List (String × List LoggedEvent)) : Prop where
  once : (prepared.map Prod.fst).Nodup
  lines : ∀ day, linesOf day prepared
    = events.filter fun e => pathFor e = some day
  dated : ∀ e ∈ events, ∃ day, pathFor e = some day
  meant : ∀ day ∈ prepared.map Prod.fst, ∃ e ∈ events, pathFor e = some day

theorem linesOf_of_not_mem {day : String}
    {prepared : List (String × List LoggedEvent)}
    (h : day ∉ prepared.map Prod.fst) : linesOf day prepared = [] := by
  induction prepared with
  | nil => rfl
  | cons entry rest ih =>
      obtain ⟨d, lines⟩ := entry
      simp only [List.map_cons, List.mem_cons, not_or] at h
      unfold linesOf
      rw [if_neg (Ne.symm h.1)]
      exact ih h.2

theorem mem_keys_addLine {day d : String} {e : LoggedEvent}
    {prepared : List (String × List LoggedEvent)} :
    d ∈ (addLine day e prepared).map Prod.fst ↔
      d = day ∨ d ∈ prepared.map Prod.fst := by
  induction prepared with
  | nil => simp [addLine]
  | cons entry rest ih =>
      obtain ⟨k, lines⟩ := entry
      unfold addLine
      split
      next heq =>
        subst heq
        simp
      next =>
        rw [List.map_cons, List.mem_cons, ih, List.map_cons, List.mem_cons]
        tauto

theorem once_addLine {day : String} {e : LoggedEvent}
    {prepared : List (String × List LoggedEvent)}
    (h : (prepared.map Prod.fst).Nodup) :
    ((addLine day e prepared).map Prod.fst).Nodup := by
  induction prepared with
  | nil => exact List.nodup_singleton _
  | cons entry rest ih =>
      obtain ⟨k, lines⟩ := entry
      obtain ⟨hk, hrest⟩ := List.nodup_cons.mp h
      unfold addLine
      split
      · exact h
      next hne =>
        refine List.nodup_cons.mpr ⟨?_, ih hrest⟩
        intro hmem
        rcases mem_keys_addLine.mp hmem with heq | hmem
        · exact hne heq
        · exact hk hmem

theorem linesOf_addLine (day d : String) (e : LoggedEvent)
    (prepared : List (String × List LoggedEvent)) :
    linesOf d (addLine day e prepared)
      = if d = day then linesOf d prepared ++ [e] else linesOf d prepared := by
  induction prepared with
  | nil =>
      unfold addLine linesOf linesOf
      split
      next h => rw [if_pos h.symm]; rfl
      next h => rw [if_neg (Ne.symm h)]
  | cons entry rest ih =>
      obtain ⟨k, lines⟩ := entry
      unfold addLine
      by_cases hk : k = day
      · subst hk
        simp only [linesOf, if_pos]
        by_cases hd : k = d
        · subst hd
          simp
        · simp [hd, Ne.symm hd]
      · rw [if_neg hk]
        simp only [linesOf]
        rw [ih]
        by_cases hd : k = d
        · subst hd
          simp [hk]
        · simp [hd]

/-- What the loop over the events of a batch prepares. -/
theorem prepares_of_prepareLines {existing : List EventId}
    {done events : List LoggedEvent}
    {start prepared : List (String × List LoggedEvent)}
    (hstart : Prepares done start)
    (h : prepareLines existing start events = some prepared) :
    Prepares (done ++ newEvents existing events) prepared := by
  induction events generalizing existing done start with
  | nil =>
      cases h
      simpa [newEvents] using hstart
  | cons e rest ih =>
      unfold prepareLines at h
      unfold newEvents
      split at h
      next hmem =>
        rw [if_pos hmem]
        exact ih hstart h
      next hnew =>
        rw [if_neg hnew]
        split at h
        next day _ hday _ =>
          have hstep : Prepares (done ++ [e]) (addLine day e start) :=
            { once := once_addLine hstart.once
              lines := by
                intro d
                rw [linesOf_addLine, List.filter_append, hstart.lines d]
                split
                next hd => simp [hd, hday]
                next hd => simp [hday, Ne.symm hd]
              dated := by
                intro x hx
                rcases List.mem_append.mp hx with hx | hx
                · exact hstart.dated x hx
                · rw [List.mem_singleton.mp hx]
                  exact ⟨day, hday⟩
              meant := by
                intro d hd
                rcases mem_keys_addLine.mp hd with heq | hd
                · rw [heq]
                  exact ⟨e, List.mem_append_right _ List.mem_cons_self, hday⟩
                · obtain ⟨x, hx, hpath⟩ := hstart.meant d hd
                  exact ⟨x, List.mem_append_left _ hx, hpath⟩ }
          have := ih hstep h
          rwa [List.append_assoc] at this
        next => cases h

-- ========================================================= the writes

theorem WriteFault.ends_ne_accepted (f : WriteFault) : f.ends ≠ .accepted := by
  unfold WriteFault.ends
  split <;> exact fun h => by cases h

theorem WriteFault.crash_of_ends_error (f : WriteFault) (h : f.ends = .error) :
    f.crash = false := by
  unfold WriteFault.ends at h
  cases hcrash : f.crash with
  | false => rfl
  | true =>
      rw [hcrash] at h
      cases h

/-- Writes end early only at their fault. -/
theorem ended_writeLines {fault : Option WriteFault} {i : Nat}
    {prepared : List (String × List LoggedEvent)} {log : EventLog}
    {ended : AppendEnd} (h : (writeLines fault i prepared log).2 = some ended) :
    ∃ f, fault = some f ∧ f.ends = ended := by
  induction prepared generalizing i log with
  | nil => cases h
  | cons entry rest ih =>
      obtain ⟨d, lines⟩ := entry
      unfold writeLines at h
      split at h
      next f hfilter =>
        obtain ⟨hfault, -⟩ := Option.filter_eq_some_iff.mp hfilter
        exact ⟨f, hfault, Option.some.inj h⟩
      next => exact ih h

/-- Whatever goes wrong, a file gains at most its lines, in their order. -/
theorem items_writeLines_sublist (fault : Option WriteFault) (i : Nat)
    {prepared : List (String × List LoggedEvent)}
    (honce : (prepared.map Prod.fst).Nodup) (log : EventLog) (day : String) :
    ((writeLines fault i prepared log).1.file day).items.Sublist
      ((log.file day).items ++ linesOf day prepared) := by
  induction prepared generalizing i log with
  | nil => simp [writeLines, linesOf]
  | cons entry rest ih =>
      obtain ⟨d, lines⟩ := entry
      obtain ⟨hd, hrest⟩ := List.nodup_cons.mp honce
      unfold writeLines linesOf
      split
      next f _ =>
        rw [EventLog.file_put]
        by_cases hday : day = d
        · subst hday
          rw [if_pos rfl, if_pos rfl]
          exact Lines.items_appendTorn_sublist _ _ _ _
        · rw [if_neg hday]
          exact List.sublist_append_left _ _
      next =>
        have hstep := ih (i + 1) hrest
          (log.put d ((log.file d).appendAll lines))
        rw [EventLog.file_put] at hstep
        by_cases hday : day = d
        · subst hday
          rw [if_pos rfl, linesOf_of_not_mem hd, List.append_nil] at hstep
          rw [if_pos rfl]
          exact hstep.trans (Lines.items_appendAll_sublist _ _)
        · rw [if_neg hday] at hstep
          rw [if_neg (Ne.symm hday)]
          exact hstep

/-- Writing one file leaves the line ends of the others. -/
theorem ended_put {d : String} {days : List String} (hd : d ∉ days)
    {log : EventLog} (hended : ∀ day ∈ days, (log.file day).tail = [])
    (f : Lines LoggedEvent) :
    ∀ day ∈ days, (EventLog.file (log.put d f) day).tail = [] := by
  intro day hday
  have hne : day ≠ d := fun heq => hd (heq ▸ hday)
  rw [EventLog.file_put, if_neg hne]
  exact hended day hday

/-- Behind line ends nothing that could be read is lost. -/
theorem items_sublist_writeLines (fault : Option WriteFault) (i : Nat)
    {prepared : List (String × List LoggedEvent)}
    (honce : (prepared.map Prod.fst).Nodup) {log : EventLog}
    (hended : ∀ day ∈ prepared.map Prod.fst, (log.file day).tail = [])
    (day : String) :
    (log.file day).items.Sublist
      ((writeLines fault i prepared log).1.file day).items := by
  induction prepared generalizing i log with
  | nil => exact List.Sublist.refl _
  | cons entry rest ih =>
      obtain ⟨d, lines⟩ := entry
      obtain ⟨hd, hrest⟩ := List.nodup_cons.mp honce
      have htail := hended d List.mem_cons_self
      unfold writeLines
      split
      next f _ =>
        rw [EventLog.file_put]
        split
        next hday =>
          rw [hday]
          exact Lines.items_sublist_appendTorn htail _ _ _
        next => exact List.Sublist.refl _
      next =>
        have hstep := ih (i + 1) hrest (ended_put hd
          (fun k hk => hended k (List.mem_cons_of_mem _ hk))
          ((log.file d).appendAll lines))
        refine List.Sublist.trans ?_ hstep
        rw [EventLog.file_put]
        split
        next hday =>
          rw [hday, Lines.items_appendAll htail]
          exact List.sublist_append_left _ _
        next => exact List.Sublist.refl _

/-- Behind line ends a call that writes all its lines adds them all. -/
theorem items_writeLines (fault : Option WriteFault) (i : Nat)
    {prepared : List (String × List LoggedEvent)}
    (honce : (prepared.map Prod.fst).Nodup) {log : EventLog}
    (hended : ∀ day ∈ prepared.map Prod.fst, (log.file day).tail = [])
    (hall : (writeLines fault i prepared log).2 = none) (day : String) :
    ((writeLines fault i prepared log).1.file day).items
      = (log.file day).items ++ linesOf day prepared := by
  induction prepared generalizing i log with
  | nil => simp [writeLines, linesOf]
  | cons entry rest ih =>
      obtain ⟨d, lines⟩ := entry
      obtain ⟨hd, hrest⟩ := List.nodup_cons.mp honce
      have htail := hended d List.mem_cons_self
      unfold writeLines at hall ⊢
      split at hall
      next => cases hall
      next =>
        have hstep := ih (i + 1) hrest (ended_put hd
          (fun k hk => hended k (List.mem_cons_of_mem _ hk))
          ((log.file d).appendAll lines)) hall
        rw [EventLog.file_put] at hstep
        unfold linesOf
        by_cases hday : day = d
        · subst hday
          rw [if_pos rfl, linesOf_of_not_mem hd, List.append_nil,
            Lines.items_appendAll htail] at hstep
          rw [if_pos rfl]
          exact hstep
        · rw [if_neg hday] at hstep
          rw [if_neg (Ne.symm hday)]
          exact hstep

/-- A first write that stops before the end of a first text adds nothing
behind a line end. -/
theorem items_writeLines_first {f : WriteFault} (hindex : f.index = 0)
    (hlines : f.lines = 0) (hcut : f.cut ≠ .text)
    {prepared : List (String × List LoggedEvent)} {log : EventLog}
    (hended : ∀ day ∈ prepared.map Prod.fst, (log.file day).tail = [])
    (day : String) :
    ((writeLines (some f) 0 prepared log).1.file day).items
      = (log.file day).items := by
  cases prepared with
  | nil => rfl
  | cons entry rest =>
      obtain ⟨d, lines⟩ := entry
      unfold writeLines
      rw [Option.filter_some, if_pos (by simpa using hindex)]
      show (EventLog.file (log.put d _) day).items = _
      rw [EventLog.file_put, hlines]
      split
      next hday =>
        rw [hday]
        exact Lines.items_appendTorn_zero (hended d List.mem_cons_self) lines hcut
      next => rfl

/-- No write can stop in a call that writes nothing. -/
theorem writePrepared_nil (fault : Option WriteFault) (log : EventLog) :
    writePrepared fault [] log = (log, .accepted) := by
  unfold writePrepared writeLines writeHumanLines
  cases fault with
  | none => rfl
  | some f =>
      have hnone : ¬ (0 ≤ f.index ∧ f.index < 0 + 0) := by omega
      simp [Option.filter]

-- ========================================================== the calls

theorem prepares_nil : Prepares [] [] where
  once := List.nodup_nil
  lines _ := rfl
  dated _ h := by cases h
  meant _ h := by cases h

theorem prepares_singleton {e : LoggedEvent} {day : String}
    (h : pathFor e = some day) : Prepares [e] [(day, [e])] where
  once := List.nodup_singleton _
  lines d := by
    unfold linesOf linesOf
    by_cases hd : day = d
    · simp [h, hd]
    · simp [h, hd]
  dated x hx := by
    rw [List.mem_singleton.mp hx]
    exact ⟨day, h⟩
  meant d hd := by
    rw [List.mem_singleton.mp hd]
    exact ⟨e, List.mem_cons_self, h⟩

/-- `append` raises and writes nothing, or it writes its event when it is
new. -/
theorem appendUnlocked_cases (fault : Option WriteFault) (log : EventLog)
    (e : LoggedEvent) :
    log.appendUnlocked fault e = (log, .error) ∨
      ∃ prepared, Prepares (newEvents log.eventIds [e]) prepared ∧
        log.appendUnlocked fault e = writePrepared fault prepared log := by
  unfold EventLog.appendUnlocked
  cases hday : pathFor e with
  | none => exact Or.inl rfl
  | some day =>
      by_cases hmem : e.eventId ∈ log.eventIds
      · refine Or.inr ⟨[], ?_, ?_⟩
        · unfold newEvents
          rw [if_pos hmem]
          exact prepares_nil
        · simp only [hmem, if_true]
          exact (writePrepared_nil fault log).symm
      · cases hdata : e.data with
        | none =>
            left
            simp only [hmem, if_false]
        | some text =>
            refine Or.inr ⟨[(day, [e])], ?_, ?_⟩
            · unfold newEvents
              rw [if_neg hmem]
              exact prepares_singleton hday
            · simp only [hmem, if_false]

/-- `append_many` raises and writes nothing, or it writes its new events. -/
theorem appendManyUnlocked_cases (fault : Option WriteFault) (log : EventLog)
    (events : List LoggedEvent) :
    log.appendManyUnlocked fault events = (log, .error) ∨
      ∃ prepared, Prepares (newEvents log.eventIds events) prepared ∧
        log.appendManyUnlocked fault events = writePrepared fault prepared log := by
  unfold EventLog.appendManyUnlocked
  cases hprepared : prepareLines log.eventIds [] events with
  | none => exact Or.inl rfl
  | some prepared =>
      exact Or.inr ⟨prepared, prepares_of_prepareLines prepares_nil hprepared, rfl⟩

theorem runUnlocked_cases (call : AppendCall) (fault : Option WriteFault)
    (log : EventLog) :
    call.runUnlocked fault log = (log, .error) ∨
      ∃ prepared, Prepares (newEvents log.eventIds call.events) prepared ∧
        call.runUnlocked fault log = writePrepared fault prepared log := by
  cases call with
  | append e => exact appendUnlocked_cases fault log e
  | appendMany events => exact appendManyUnlocked_cases fault log events

/-- A call raises and writes nothing, or it writes its new events. -/
theorem run_cases (s : AppendStep) (log : EventLog) :
    s.run log = (log, .error) ∨
      ∃ fault prepared, (∀ f, fault = some f → s.fault = some (.write f)) ∧
        Prepares (newEvents log.eventIds s.call.events) prepared ∧
        s.run log = writePrepared fault prepared log := by
  unfold AppendStep.run
  split
  next => exact Or.inl rfl
  next f hfault =>
    rcases runUnlocked_cases s.call (some f) log with h | ⟨prepared, hp, h⟩
    · exact Or.inl h
    · refine Or.inr ⟨some f, prepared, fun g hg => ?_, hp, h⟩
      cases hg
      exact hfault
  next =>
    rcases runUnlocked_cases s.call none log with h | ⟨prepared, hp, h⟩
    · exact Or.inl h
    · exact Or.inr ⟨none, prepared, (fun g hg => by cases hg), hp, h⟩

/-- What a file has gained when a call has written its new events. -/
theorem fst_writePrepared (fault : Option WriteFault)
    (prepared : List (String × List LoggedEvent)) (log : EventLog) :
    (writePrepared fault prepared log).1 = (writeLines fault 0 prepared log).1 := by
  unfold writePrepared
  split
  next h => rw [h]
  next h => rw [h]

/-- A call that is accepted has written all its lines. -/
theorem writeLines_of_accepted {fault : Option WriteFault}
    {prepared : List (String × List LoggedEvent)} {log : EventLog}
    (h : (writePrepared fault prepared log).2 = .accepted) :
    (writeLines fault 0 prepared log).2 = none := by
  unfold writePrepared at h
  split at h
  next ended hlines =>
    obtain ⟨f, -, hended⟩ := ended_writeLines (congrArg Prod.snd hlines)
    rw [← hended] at h
    exact absurd h f.ends_ne_accepted
  next hlines => rw [hlines]

/-- A call that fails has met a fault that is an error. -/
theorem fault_of_error {fault : Option WriteFault}
    {prepared : List (String × List LoggedEvent)} {log : EventLog}
    (h : (writePrepared fault prepared log).2 = .error) :
    ∃ f, fault = some f ∧ f.crash = false := by
  unfold writePrepared at h
  split at h
  next ended hlines =>
    obtain ⟨f, hfault, hended⟩ := ended_writeLines (congrArg Prod.snd hlines)
    rw [← hended] at h
    exact ⟨f, hfault, f.crash_of_ends_error h⟩
  next hlines =>
    unfold writeHumanLines at h
    cases hfilter : fault.filter _ with
    | none =>
        rw [hfilter] at h
        cases h
    | some f =>
        rw [hfilter] at h
        obtain ⟨hfault, -⟩ := Option.filter_eq_some_iff.mp hfilter
        exact ⟨f, hfault, f.crash_of_ends_error h⟩

-- ======================================================== the runs

/-- A call in the history of a log. -/
structure AppendRecord where
  before : EventLog
  step : AppendStep
  deriving DecidableEq

/-- The log after the call. -/
def AppendRecord.after (r : AppendRecord) : EventLog := (r.step.run r.before).1

/-- How the call ended. -/
def AppendRecord.ended (r : AppendRecord) : AppendEnd := (r.step.run r.before).2

/-- The events that were new to the log in the call. -/
def AppendRecord.newEvents (r : AppendRecord) : List LoggedEvent :=
  OpenTulid.newEvents r.before.eventIds r.step.call.events

/-- A log that calls have made of the empty one, each call allowed by `P`. -/
inductive LogRun (P : EventLog → AppendStep → Prop) :
    EventLog → List AppendRecord → Prop where
  | start : LogRun P ∅ []
  | call {log : EventLog} {history : List AppendRecord} (s : AppendStep)
      (run : LogRun P log history) (allowed : P log s) :
      LogRun P (s.run log).1 (history ++ [⟨log, s⟩])

/-- What the log promises of its calls. -/
structure EventLogLaws (log : EventLog) (history : List AppendRecord) : Prop where
  distinct : log.eventIds.Nodup
  kept : ∀ r ∈ history, r.ended = .accepted →
    (∀ e ∈ r.step.call.events, e.eventId ∈ log.eventIds) ∧
      ∀ e ∈ r.newEvents, ∃ e' ∈ log.iterEvents, eventFromDict e = some e'
  ordered : ∀ day, (log.fileEvents day).Sublist
    ((history.flatMap fun r => r.step.call.events).filterMap eventFromDict)
  unchanged : ∀ r ∈ history, r.ended = .error →
    ∀ e, e ∈ r.after.iterEvents ↔ e ∈ r.before.iterEvents

/-- A log keeps the laws however the allowed calls made it. -/
def KeepsEventLogLaws (P : EventLog → AppendStep → Prop) (log : EventLog) : Prop :=
  ∀ history, LogRun P log history → EventLogLaws log history

/-- A call that does not reach a torn line, an unreadable event or a failure
behind a written line: the new events have their required texts, the files
they go to end with a line end, and a write that fails is the first and fails
before the text of a first line is whole. -/
structure Sound (log : EventLog) (s : AppendStep) : Prop where
  readable : ∀ e ∈ newEvents log.eventIds s.call.events,
    (eventFromDict e).isSome
  ended : ∀ e ∈ newEvents log.eventIds s.call.events, ∀ day,
    pathFor e = some day → (log.file day).tail = []
  first : newEvents log.eventIds s.call.events ≠ [] →
    ∀ f, s.fault = some (.write f) → f.crash = false →
      f.index = 0 ∧ f.lines = 0 ∧ f.cut ≠ .text

-- ===================================================== what always holds

theorem eventFromDict_eventId {e e' : LoggedEvent}
    (h : eventFromDict e = some e') : e'.eventId = e.eventId := by
  unfold eventFromDict at h
  split at h
  · cases h
  · cases h
    rfl

/-- The ids of events that read are ids of events. -/
theorem ids_filterMap_sublist (events : List LoggedEvent) :
    ((events.filterMap eventFromDict).map (·.eventId)).Sublist
      (events.map (·.eventId)) := by
  induction events with
  | nil => exact List.Sublist.refl _
  | cons e rest ih =>
      rw [List.filterMap_cons]
      cases h : eventFromDict e with
      | none => exact ih.cons _
      | some e' =>
          rw [List.map_cons, List.map_cons, eventFromDict_eventId h]
          exact ih.cons_cons _

/-- A file gains at most the new events of its day, in order. -/
theorem items_run_sublist (s : AppendStep) (log : EventLog) (day : String) :
    ((s.run log).1.file day).items.Sublist ((log.file day).items ++
      (newEvents log.eventIds s.call.events).filter
        fun e => pathFor e = some day) := by
  rcases run_cases s log with h | ⟨fault, prepared, -, hprepared, h⟩
  · rw [h]
    exact List.sublist_append_left _ _
  · rw [h, fst_writePrepared, ← hprepared.lines day]
    exact items_writeLines_sublist fault 0 hprepared.once log day

/-- An id that can be read in a file after a call could be read there before
or is that of a new event of the day. -/
theorem mem_fileIds_run {s : AppendStep} {log : EventLog} {day : String}
    {id : EventId} (h : id ∈ (s.run log).1.fileIds day) :
    id ∈ log.fileIds day ∨ ∃ e ∈ newEvents log.eventIds s.call.events,
      pathFor e = some day ∧ e.eventId = id := by
  unfold EventLog.fileIds EventLog.fileEvents at h
  have hsublist := ((items_run_sublist s log day).filterMap eventFromDict).map
    (·.eventId)
  have hmem := hsublist.subset h
  rw [List.filterMap_append, List.map_append] at hmem
  rcases List.mem_append.mp hmem with hmem | hmem
  · exact Or.inl hmem
  · obtain ⟨e, he, heq⟩ := List.mem_map.mp ((ids_filterMap_sublist _).subset hmem)
    obtain ⟨hnew, hday⟩ := List.mem_filter.mp he
    exact Or.inr ⟨e, hnew, by simpa using hday, heq⟩

/-- No id can be read twice, in one file or in two. -/
structure DistinctIds (log : EventLog) : Prop where
  file : ∀ day, (log.fileIds day).Nodup
  files : ∀ day other, day ≠ other →
    (log.fileIds day).Disjoint (log.fileIds other)

/-- Ids stay distinct, whatever goes wrong in a call. -/
theorem DistinctIds.run {log : EventLog} (h : DistinctIds log)
    (s : AppendStep) : DistinctIds (s.run log).1 where
  file day := by
    have hsublist := ((items_run_sublist s log day).filterMap eventFromDict).map
      (·.eventId)
    refine List.Nodup.sublist hsublist ?_
    rw [List.filterMap_append, List.map_append]
    refine List.nodup_append'.mpr ⟨h.file day, ?_, ?_⟩
    · have hnew := nodup_newEvents log.eventIds s.call.events
      exact ((ids_filterMap_sublist _).trans (List.filter_sublist.map _)).nodup hnew
    · intro id hold hnew
      obtain ⟨e, he, heq⟩ :=
        List.mem_map.mp ((ids_filterMap_sublist _).subset hnew)
      have hfresh := not_mem_of_mem_newEvents (List.mem_filter.mp he).1
      exact hfresh (heq ▸ EventLog.mem_eventIds.mpr ⟨day, hold⟩)
  files day other hne := by
    intro id hday hother
    rcases mem_fileIds_run hday with hday | ⟨e, he, hpath, heq⟩
    · rcases mem_fileIds_run hother with hother | ⟨e, he, hpath, heq⟩
      · exact h.files day other hne hday hother
      · exact not_mem_of_mem_newEvents he
          (heq ▸ EventLog.mem_eventIds.mpr ⟨day, hday⟩)
    · rcases mem_fileIds_run hother with hother | ⟨e', he', hpath', heq'⟩
      · exact not_mem_of_mem_newEvents he
          (heq ▸ EventLog.mem_eventIds.mpr ⟨other, hother⟩)
      · have hsame : e = e' := List.inj_on_of_nodup_map
          (nodup_newEvents log.eventIds s.call.events) he he' (heq.trans heq'.symm)
        rw [hsame, hpath'] at hpath
        exact hne (Option.some.inj hpath).symm

/-- Ids are distinct in every log that calls make. -/
theorem distinct_of_run {P : EventLog → AppendStep → Prop} {log : EventLog}
    {history : List AppendRecord} (h : LogRun P log history) :
    DistinctIds log := by
  induction h with
  | start =>
      constructor
      · intro day
        exact List.nodup_nil
      · intro day other _ id hid
        cases hid
  | call s _ _ ih => exact ih.run s

/-- The events of a file stand in the order in which calls appended them. -/
theorem ordered_of_run {P : EventLog → AppendStep → Prop} {log : EventLog}
    {history : List AppendRecord} (h : LogRun P log history) (day : String) :
    (log.fileEvents day).Sublist
      ((history.flatMap fun r => r.step.call.events).filterMap eventFromDict) := by
  induction h with
  | start => exact List.Sublist.refl _
  | @call log history s _ _ ih =>
      have hnew : ((newEvents log.eventIds s.call.events).filter
          fun e => pathFor e = some day).Sublist s.call.events :=
        List.filter_sublist.trans (newEvents_sublist _ _)
      have hstep := ((items_run_sublist s log day).trans
        ((List.Sublist.refl _).append hnew)).filterMap eventFromDict
      rw [List.filterMap_append] at hstep
      rw [List.flatMap_append, List.filterMap_append, List.flatMap_singleton]
      exact hstep.trans (ih.append (List.Sublist.refl _))

-- ================================================== what sound calls keep

/-- Lines are prepared for files that end with a line end when those of the
new events do. -/
theorem ended_of_prepares {log : EventLog} {events : List LoggedEvent}
    {prepared : List (String × List LoggedEvent)} (h : Prepares events prepared)
    (hended : ∀ e ∈ events, ∀ day, pathFor e = some day →
      (log.file day).tail = []) :
    ∀ day ∈ prepared.map Prod.fst, (log.file day).tail = [] := by
  intro day hday
  obtain ⟨e, he, hpath⟩ := h.meant day hday
  exact hended e he day hpath

/-- Without new events no lines are prepared. -/
theorem prepared_eq_nil {events : List LoggedEvent}
    {prepared : List (String × List LoggedEvent)} (h : Prepares events prepared)
    (hnone : events = []) : prepared = [] := by
  cases prepared with
  | nil => rfl
  | cons entry rest =>
      obtain ⟨e, he, -⟩ := h.meant entry.1 List.mem_cons_self
      rw [hnone] at he
      cases he

/-- A sound call loses nothing that could be read. -/
theorem Sound.keeps {log : EventLog} {s : AppendStep} (h : Sound log s)
    {e : LoggedEvent} (he : e ∈ log.iterEvents) :
    e ∈ (s.run log).1.iterEvents := by
  rcases run_cases s log with hrun | ⟨fault, prepared, -, hprepared, hrun⟩
  · rw [hrun]
    exact he
  · obtain ⟨day, hday⟩ := EventLog.mem_iterEvents.mp he
    refine EventLog.mem_iterEvents.mpr ⟨day, ?_⟩
    rw [hrun, fst_writePrepared]
    have hsublist := items_sublist_writeLines fault 0 hprepared.once
      (ended_of_prepares hprepared h.ended) day
    exact (hsublist.filterMap eventFromDict).subset hday

/-- When a sound call is accepted its new events can be read. -/
theorem Sound.reads {log : EventLog} {s : AppendStep} (h : Sound log s)
    (haccepted : (s.run log).2 = .accepted) {e : LoggedEvent}
    (he : e ∈ newEvents log.eventIds s.call.events) :
    ∃ e' ∈ (s.run log).1.iterEvents, eventFromDict e = some e' := by
  rcases run_cases s log with hrun | ⟨fault, prepared, -, hprepared, hrun⟩
  · rw [hrun] at haccepted
    cases haccepted
  · rw [hrun] at haccepted
    obtain ⟨e', he'⟩ := Option.isSome_iff_exists.mp (h.readable e he)
    obtain ⟨day, hday⟩ := hprepared.dated e he
    have hitems := items_writeLines fault 0 hprepared.once
      (ended_of_prepares hprepared h.ended) (writeLines_of_accepted haccepted) day
    rw [hprepared.lines day] at hitems
    refine ⟨e', EventLog.mem_iterEvents.mpr ⟨day, ?_⟩, he'⟩
    rw [hrun, fst_writePrepared]
    unfold EventLog.fileEvents
    rw [hitems]
    refine List.mem_filterMap.mpr ⟨e, List.mem_append_right _ ?_, he'⟩
    exact List.mem_filter.mpr ⟨he, by simpa using hday⟩

/-- When a sound call fails nothing that can be read has changed. -/
theorem Sound.unchanged {log : EventLog} {s : AppendStep} (h : Sound log s)
    (herror : (s.run log).2 = .error) (e : LoggedEvent) :
    e ∈ (s.run log).1.iterEvents ↔ e ∈ log.iterEvents := by
  rcases run_cases s log with hrun | ⟨fault, prepared, hfault, hprepared, hrun⟩
  · rw [hrun]
  · rw [hrun] at herror
    obtain ⟨f, hf, hcrash⟩ := fault_of_error herror
    have hitems : ∀ day, ((s.run log).1.file day).items = (log.file day).items := by
      intro day
      rw [hrun, fst_writePrepared]
      by_cases hnew : newEvents log.eventIds s.call.events = []
      · rw [prepared_eq_nil hprepared hnew]
        rfl
      · obtain ⟨hindex, hlines, hcut⟩ := h.first hnew f (hfault f hf) hcrash
        rw [hf]
        exact items_writeLines_first hindex hlines hcut
          (ended_of_prepares hprepared h.ended) day
    rw [EventLog.mem_iterEvents, EventLog.mem_iterEvents]
    unfold EventLog.fileEvents
    simp only [hitems]

-- ========================================================== the laws

/-- What was kept is kept by a sound call. -/
theorem mem_eventIds_run {log : EventLog} {s : AppendStep} (h : Sound log s)
    {id : EventId} (hid : id ∈ log.eventIds) : id ∈ (s.run log).1.eventIds := by
  obtain ⟨e, he, heq⟩ := List.mem_map.mp hid
  exact List.mem_map.mpr ⟨e, h.keeps he, heq⟩

/-- The events of an accepted sound call can be read after it by their ids. -/
theorem Sound.mem_eventIds {log : EventLog} {s : AppendStep} (h : Sound log s)
    (haccepted : (s.run log).2 = .accepted) {e : LoggedEvent}
    (he : e ∈ s.call.events) : e.eventId ∈ (s.run log).1.eventIds := by
  rcases known_or_new log.eventIds he with hknown | hnew
  · exact mem_eventIds_run h hknown
  · obtain ⟨x, hx, heq⟩ := List.mem_map.mp hnew
    obtain ⟨x', hread, hx'⟩ := h.reads haccepted hx
    rw [← heq, ← eventFromDict_eventId hx']
    exact List.mem_map_of_mem hread

/-- The ids of the log after a call are those before it and those of its
events, and no more. -/
theorem mem_eventIds_of_run {s : AppendStep} {log : EventLog} {id : EventId}
    (h : id ∈ (s.run log).1.eventIds) :
    id ∈ log.eventIds ∨ id ∈ s.call.events.map (·.eventId) := by
  obtain ⟨day, hday⟩ := EventLog.mem_eventIds.mp h
  rcases mem_fileIds_run hday with hold | ⟨e, he, -, heq⟩
  · exact Or.inl (EventLog.mem_eventIds.mpr ⟨day, hold⟩)
  · rw [← heq]
    exact Or.inr (List.mem_map_of_mem ((newEvents_sublist _ _).subset he))

/-- On ids a sound and accepted call of `append` is the append of the stored
project's log. -/
theorem eventIds_append_call {log : EventLog} {e : LoggedEvent} {s : AppendStep}
    (hcall : s.call = .append e) (h : Sound log s)
    (haccepted : (s.run log).2 = .accepted) (id : EventId) :
    id ∈ (s.run log).1.eventIds ↔
      id ∈ (EventStore.append (log.iterEvents.map (·.toEventEnvelope))
        e.toEventEnvelope).map (·.eventId) := by
  have hids : (log.iterEvents.map (·.toEventEnvelope)).map (·.eventId)
      = log.eventIds := by
    rw [List.map_map]
    rfl
  have hmem : e ∈ s.call.events := by
    rw [hcall]
    exact List.mem_cons_self
  have happend : id ∈ (EventStore.append (log.iterEvents.map (·.toEventEnvelope))
      e.toEventEnvelope).map (·.eventId) ↔ id ∈ log.eventIds ∨ id = e.eventId := by
    unfold EventStore.append
    rw [hids]
    split
    next hknown =>
      rw [hids]
      constructor
      · exact Or.inl
      · intro hid
        rcases hid with hid | rfl
        · exact hid
        · exact hknown
    next =>
      rw [List.map_append, hids, List.mem_append]
      simp
  rw [happend]
  constructor
  · intro hid
    rcases mem_eventIds_of_run hid with hid | hid
    · exact Or.inl hid
    · rw [hcall] at hid
      exact Or.inr (List.mem_singleton.mp hid)
  · intro hid
    rcases hid with hid | rfl
    · exact mem_eventIds_run h hid
    · exact h.mem_eventIds haccepted hmem

/-- Every run of sound calls keeps the laws of the event log. -/
theorem keepsEventLogLaws_of_sound (log : EventLog) : KeepsEventLogLaws Sound log := by
  intro history h
  have hids := distinct_of_run h
  have hordered := ordered_of_run h
  refine ⟨EventLog.nodup_eventIds hids.file hids.files, ?_, hordered, ?_⟩
  · clear hids hordered
    induction h with
    | start =>
        intro r hr
        cases hr
    | call s _ hsound ih =>
        intro r hr haccepted
        rcases List.mem_append.mp hr with hr | hr
        · obtain ⟨hcall, hnew⟩ := ih r hr haccepted
          constructor
          · exact fun e he => mem_eventIds_run hsound (hcall e he)
          · intro e he
            obtain ⟨e', hread, he'⟩ := hnew e he
            exact ⟨e', hsound.keeps hread, he'⟩
        · rw [List.mem_singleton.mp hr] at haccepted ⊢
          exact ⟨fun e he => hsound.mem_eventIds haccepted he,
            fun e he => hsound.reads haccepted he⟩
  · clear hids hordered
    induction h with
    | start =>
        intro r hr
        cases hr
    | call s _ hsound ih =>
        intro r hr herror
        rcases List.mem_append.mp hr with hr | hr
        · exact ih r hr herror
        · rw [List.mem_singleton.mp hr] at herror ⊢
          exact hsound.unchanged herror

/-- An event of the first of May. -/
def smallEvent (id : EventId) : LoggedEvent where
  eventId := id
  eventType := "TaskMoved"
  timestamp := "2026-05-01T00:00:00Z"
  projectId := "p"
  actorType := "system"
  actorId := "scheduler"
  correlationId := "c"
  data := some "{}"

/-- The process dies within the first line of the day. -/
def tornStep : AppendStep :=
  ⟨.append (smallEvent "a"), some (.write ⟨0, 0, .part, true⟩)⟩

/-- The next event of the day shares the torn line: its call is accepted and
the event cannot be read. -/
theorem torn_line_swallows_event : ¬ ∀ log, KeepsEventLogLaws (fun _ _ => True) log := by
  intro h
  have hrun := LogRun.call (P := fun _ _ => True) ⟨.append (smallEvent "b"), none⟩
    (LogRun.call tornStep LogRun.start trivial) trivial
  have hlaws := h _ _ hrun
  have hkept := hlaws.kept _ (List.mem_append_right _ List.mem_cons_self)
    (by decide +kernel)
  have hlost : (smallEvent "b").eventId ∉
      ((AppendStep.mk (.append (smallEvent "b")) none).run
        (tornStep.run ∅).1).1.eventIds := by decide +kernel
  exact hlost (hkept.1 _ List.mem_cons_self)

end OpenTulid
