/-
Job records keep their identity and their attempt records.

# What is kept

`Kept` compares a record with a later one under the same path: who it is
about, when it was created, every immutable key once set, the counter of
attempts and every attempt that is recorded. `WellFormed` is what a record's
list of attempts is like: different ids, in the order of the numbers.

# The calls

Every call rewrites a record by `updateStatus` or writes a new one. The step
lemma for `updateStatus` asks what its updates do to the list of attempts;
`recordAttempt` filters, appends and sorts, which is followed on the pairs of
id and number (`recordsOf`). A new record must not take the place of another,
and the updates of a caller must leave the creation time and the list of
attempts alone: nothing in the code sees to that.
-/
import OpenTulid.Runtime.JobStore
import OpenTulid.Lib.Fallible

namespace OpenTulid.JobFiles

open Json (Fields)
open Fallible (mapM_cons_eq_some)

-- =============================================================== attempts

section Attempts

variable (py : Python)

/-- The attempt id and number of a raw record. -/
def identity (item : Json) : Option (String × Int) :=
  match item with
  | .obj payload =>
      match Fields.get payload "attempt_id" with
      | .str attemptId => (numberOf py (.obj payload)).map fun n => (attemptId, n)
      | _ => none
  | _ => none

/-- The ids and numbers of the attempts that the metadata records; `none`
where that is no list of records. -/
def recordsOf (metadata : Metadata) : Option (List (String × Int)) :=
  (listOf ((metadata.get attemptRecordMetadataKey).getD .null)).bind fun items =>
    items.mapM (identity py)

/-- Different ids, in the order of the numbers. -/
def Ordered (records : List (String × Int)) : Prop :=
  (records.map Prod.fst).Nodup ∧ records.Pairwise fun a b => a.2 ≤ b.2

/-- The attempts of a record are well formed. -/
def WellFormed (metadata : Metadata) : Prop :=
  ∃ records, recordsOf py metadata = some records ∧ Ordered records

/-- What a record has kept of an earlier one. -/
structure Kept (old new : Job) : Prop where
  jobId : new.jobId = old.jobId
  projectId : new.projectId = old.projectId
  taskId : new.taskId = old.taskId
  transitionId : new.transitionId = old.transitionId
  workerId : new.workerId = old.workerId
  workspacePath : new.workspacePath = old.workspacePath
  createdAt : ∀ v, old.metadata.get "created_at" = some v → new.metadata.get "created_at" = some v
  immutable : ∀ key ∈ immutableJobMetadataKeys, ∀ v, old.metadata.get key = some v →
    ∃ v', new.metadata.get key = some v' ∧ (v' = v ∨ py.equal v' v = true)
  attempts : old.attempts ≤ new.attempts
  records : ∀ records, recordsOf py old.metadata = some records →
    ∃ records', recordsOf py new.metadata = some records' ∧
      ∀ attemptId ∈ records.map Prod.fst, attemptId ∈ records'.map Prod.fst

end Attempts

variable {py : Python} {L : Layout} {files : Files} {job : Job}

theorem Kept.refl (job : Job) : Kept py job job where
  jobId := rfl
  projectId := rfl
  taskId := rfl
  transitionId := rfl
  workerId := rfl
  workspacePath := rfl
  createdAt := fun _ h => h
  immutable := fun _ _ v h => ⟨v, h, .inl rfl⟩
  attempts := Int.le_refl _
  records := fun records h => ⟨records, h, fun _ h => h⟩

theorem Kept.trans {a b c : Job} (h : Kept py a b) (h' : Kept py b c) : Kept py a c where
  jobId := h'.jobId.trans h.jobId
  projectId := h'.projectId.trans h.projectId
  taskId := h'.taskId.trans h.taskId
  transitionId := h'.transitionId.trans h.transitionId
  workerId := h'.workerId.trans h.workerId
  workspacePath := h'.workspacePath.trans h.workspacePath
  createdAt := fun v hv => h'.createdAt v (h.createdAt v hv)
  immutable := by
    intro key hkey v hv
    obtain ⟨v', hv', heq⟩ := h.immutable key hkey v hv
    obtain ⟨v'', hv'', heq'⟩ := h'.immutable key hkey v' hv'
    refine ⟨v'', hv'', ?_⟩
    rcases heq with rfl | heq
    · exact heq'
    · rcases heq' with rfl | heq'
      · exact .inr heq
      · exact .inr (py.equal_trans _ _ _ heq' heq)
  attempts := Int.le_trans h.attempts h'.attempts
  records := by
    intro records hrecords
    obtain ⟨records', hrecords', hsub⟩ := h.records records hrecords
    obtain ⟨records'', hrecords'', hsub'⟩ := h'.records records' hrecords'
    exact ⟨records'', hrecords'', fun id hid => hsub' id (hsub id hid)⟩

-- =============================================================== metadata

theorem get_foldl_put (entries : List (String × Json)) (m : Metadata) (key : String)
    (hdistinct : entries.Pairwise fun a b => a.1 < b.1) :
    (entries.foldl (fun m e => m.put e.1 e.2) m).get key =
      (Store.getEntry key entries).or (m.get key) := by
  induction entries generalizing m with
  | nil => rfl
  | cons e entries ih =>
      obtain ⟨other, v⟩ := e
      rw [List.pairwise_cons] at hdistinct
      rw [List.foldl_cons, ih _ hdistinct.2, Store.get_put]
      show _ = (if key = other then some v else Store.getEntry key entries).or _
      by_cases hkey : key = other
      · have hnone : Store.getEntry key entries = none :=
          Store.getEntry_eq_none.mpr fun e' he' heq =>
            absurd (hdistinct.1 e' he') (by rw [heq, hkey]; exact lt_irrefl _)
        rw [if_pos hkey, if_pos hkey, hnone]
        rfl
      · rw [if_neg hkey, if_neg hkey]

/-- What the metadata holds after an update. -/
theorem get_update (m u : Metadata) (key : String) :
    (Metadata.update m u).get key = (u.get key).or (m.get key) :=
  get_foldl_put u.entries m key u.sorted

theorem get_setDefault (m : Metadata) (key other : String) (v : Json) :
    (setDefault m key v).get other =
      if other = key then some ((m.get key).getD v) else m.get other := by
  unfold setDefault
  split
  next old hold =>
    split
    next heq => rw [heq, hold]; rfl
    next => rfl
  next hnone =>
    rw [Store.get_put, hnone]
    rfl

-- ============================================================ the records

theorem recordsOf_congr {m m' : Metadata}
    (h : m'.get attemptRecordMetadataKey = m.get attemptRecordMetadataKey) :
    recordsOf py m' = recordsOf py m := by
  unfold recordsOf
  rw [h]

theorem numberOf_toDict (record : AttemptRecord) :
    numberOf py (attemptRecordToDict record) = some record.attemptNumber := by
  show (py.builtins.int (.int record.attemptNumber)).toOption = _
  rw [py.builtins.int_int]
  rfl

theorem identity_toDict (record : AttemptRecord) :
    identity py (attemptRecordToDict record) = some (record.attemptId, record.attemptNumber) := by
  show (numberOf py (attemptRecordToDict record)).map (fun n => (record.attemptId, n)) = _
  rw [numberOf_toDict]
  rfl

/-- What is known of a raw record by its identity. -/
theorem identity_eq_some {item : Json} {r : String × Int} (h : identity py item = some r) :
    numberOf py item = some r.2 ∧ ∀ attemptId, isAttempt attemptId item = decide (r.1 = attemptId) := by
  unfold identity at h
  split at h
  next payload =>
    split at h
    next attemptId hid =>
      obtain ⟨n, hn, rfl⟩ := Option.map_eq_some_iff.mp h
      refine ⟨hn, fun other => ?_⟩
      simp only [isAttempt, hid]
    next => cases h
  next => cases h

/-- Leaving out an attempt among the raw records is leaving it out among the
pairs. -/
theorem mapM_identity_filter {items : List Json} {records : List (String × Int)}
    (h : items.mapM (identity py) = some records) (attemptId : String) :
    (items.filter fun item => !isAttempt attemptId item).mapM (identity py) =
      some (records.filter fun r => r.1 ≠ attemptId) := by
  induction items generalizing records with
  | nil =>
      cases h
      rfl
  | cons item items ih =>
      obtain ⟨r, rest, hr, hrest, rfl⟩ := mapM_cons_eq_some.mp h
      have hsame := (identity_eq_some hr).2 attemptId
      rw [List.filter_cons, List.filter_cons]
      by_cases heq : r.1 = attemptId
      · rw [if_neg (by simp [hsame, heq]), if_neg (by simp [heq])]
        exact ih hrest
      · rw [if_pos (by simp [hsame, heq]), if_pos (by simp [heq]), mapM_cons_eq_some]
        exact ⟨r, _, hr, ih hrest, rfl⟩

theorem mapM_append_some {α β : Type} {f : α → Option β} {as : List α} {bs : List β} {a : α}
    {b : β} (h : as.mapM f = some bs) (ha : f a = some b) :
    (as ++ [a]).mapM f = some (bs ++ [b]) := by
  rw [List.mapM_append, h]
  simp [ha]

/-- Every record of a list comes with its number. -/
theorem mapM_numbered {items : List Json} {records : List (String × Int)}
    (h : items.mapM (identity py) = some records) :
    ∃ numbered, (items.mapM fun item => (numberOf py item).map fun n => (n, item)) =
        some numbered ∧ numbered.map Prod.snd = items ∧
      ∀ e ∈ numbered, numberOf py e.2 = some e.1 := by
  induction items generalizing records with
  | nil => exact ⟨[], rfl, rfl, fun _ he => nomatch he⟩
  | cons item items ih =>
      obtain ⟨r, rest, hr, hrest, rfl⟩ := mapM_cons_eq_some.mp h
      obtain ⟨numbered, hnumbered, hitems, hnumber⟩ := ih hrest
      have hhead := (identity_eq_some hr).1
      refine ⟨(r.2, item) :: numbered, ?_, by rw [List.map_cons, hitems], ?_⟩
      · rw [mapM_cons_eq_some]
        exact ⟨(r.2, item), numbered, by rw [hhead]; rfl, hnumbered, rfl⟩
      · intro e he
        cases he with
        | head => exact hhead
        | tail _ he => exact hnumber e he

/-- Of numbered records that are put in another order the identities are. -/
theorem mapM_identity_perm {items sorted : List Json} {records : List (String × Int)}
    (h : items.mapM (identity py) = some records) (hperm : sorted.Perm items) :
    ∃ records', sorted.mapM (identity py) = some records' ∧ records'.Perm records := by
  induction hperm generalizing records with
  | nil =>
      cases h
      exact ⟨[], rfl, .refl _⟩
  | cons item _ ih =>
      obtain ⟨r, rest, hr, hrest, rfl⟩ := mapM_cons_eq_some.mp h
      obtain ⟨rest', hrest', hperm'⟩ := ih hrest
      exact ⟨r :: rest', mapM_cons_eq_some.mpr ⟨r, rest', hr, hrest', rfl⟩, hperm'.cons r⟩
  | swap a b items =>
      obtain ⟨r, rest, hr, hrest, rfl⟩ := mapM_cons_eq_some.mp h
      obtain ⟨r', rest', hr', hrest', rfl⟩ := mapM_cons_eq_some.mp hrest
      refine ⟨r' :: r :: rest', ?_, .swap r r' rest'⟩
      exact mapM_cons_eq_some.mpr ⟨r', _, hr',
        mapM_cons_eq_some.mpr ⟨r, rest', hr, hrest', rfl⟩, rfl⟩
  | trans _ _ ih₁ ih₂ =>
      obtain ⟨records₁, h₁, hperm₁⟩ := ih₂ h
      obtain ⟨records₂, h₂, hperm₂⟩ := ih₁ h₁
      exact ⟨records₂, h₂, hperm₂.trans hperm₁⟩

/-- Where every pair carries the number of its record, the identities are in
the order of the pairs. -/
theorem pairwise_identity {numbered : List (Int × Json)} {records : List (String × Int)}
    (hnumber : ∀ e ∈ numbered, numberOf py e.2 = some e.1)
    (hsorted : numbered.Pairwise fun a b => a.1 ≤ b.1)
    (h : (numbered.map Prod.snd).mapM (identity py) = some records) :
    records.Pairwise (fun a b => a.2 ≤ b.2) ∧
      ∀ r ∈ records, ∃ e ∈ numbered, r.2 = e.1 := by
  induction numbered generalizing records with
  | nil =>
      cases h
      exact ⟨.nil, fun _ hr => nomatch hr⟩
  | cons e numbered ih =>
      obtain ⟨r, rest, hr, hrest, rfl⟩ := mapM_cons_eq_some.mp h
      rw [List.pairwise_cons] at hsorted
      obtain ⟨hpairs, hfrom⟩ :=
        ih (fun e' he' => hnumber e' (.tail _ he')) hsorted.2 hrest
      have hfirst : r.2 = e.1 := by
        have hboth := (identity_eq_some hr).1.symm.trans (hnumber e (.head _))
        exact Option.some.inj hboth
      constructor
      · refine .cons (fun r' hr' => ?_) hpairs
        obtain ⟨e', he', heq⟩ := hfrom r' hr'
        rw [hfirst, heq]
        exact hsorted.1 e' he'
      · intro r' hr'
        cases hr' with
        | head => exact ⟨e, .head _, hfirst⟩
        | tail _ hr' =>
            obtain ⟨e', he', heq⟩ := hfrom r' hr'
            exact ⟨e', .tail _ he', heq⟩

/-- Sorted by number, the numbers ascend. -/
theorem pairwise_byNumber (numbered : List (Int × Json)) :
    (numbered.insertionSort fun a b => a.1 ≤ b.1).Pairwise fun a b => a.1 ≤ b.1 := by
  have htotal : Std.Total fun a b : Int × Json => a.1 ≤ b.1 := ⟨fun a b => Int.le_total a.1 b.1⟩
  have htrans : IsTrans (Int × Json) fun a b => a.1 ≤ b.1 :=
    ⟨fun _ _ _ => Int.le_trans⟩
  exact List.pairwise_insertionSort _ numbered

/-- Raw records are sorted by number as their pairs are. -/
theorem sortRecords_eq {items : List Json} {records : List (String × Int)}
    (h : items.mapM (identity py) = some records) :
    ∃ sorted records', sortRecords py items = some sorted ∧
      sorted.mapM (identity py) = some records' ∧ records'.Perm records ∧
      records'.Pairwise fun a b => a.2 ≤ b.2 := by
  obtain ⟨numbered, hnumbered, hitems, hnumber⟩ := mapM_numbered h
  have hperm : (numbered.insertionSort fun a b => a.1 ≤ b.1).Perm numbered :=
    List.perm_insertionSort _ numbered
  obtain ⟨records', hrecords', hpermRecords⟩ :=
    mapM_identity_perm h (hitems ▸ hperm.map Prod.snd)
  have hsorted : (numbered.insertionSort fun a b => a.1 ≤ b.1).Pairwise fun a b => a.1 ≤ b.1 :=
    pairwise_byNumber numbered
  refine ⟨_, records', ?_, hrecords', hpermRecords, ?_⟩
  · unfold sortRecords
    rw [hnumbered]
    rfl
  · exact (pairwise_identity (fun e he => hnumber e (hperm.mem_iff.mp he)) hsorted hrecords').1

-- ============================================================= one call

/-- Every file is that of its record, and every record is well formed. -/
def Sound (py : Python) (L : Layout) (files : Files) : Prop :=
  ∀ path job, files.get path = some job →
    L.pathFor job.jobId = path ∧ WellFormed py job.metadata

/-- Every record is still there, as far as it must be kept. -/
def Later (py : Python) (files files' : Files) : Prop :=
  ∀ path job, files.get path = some job →
    ∃ job', files'.get path = some job' ∧ Kept py job job'

theorem Later.refl (files : Files) : Later py files files :=
  fun _ job h => ⟨job, h, Kept.refl job⟩

theorem Later.trans {a b c : Files} (h : Later py a b) (h' : Later py b c) : Later py a c := by
  intro path job hjob
  obtain ⟨job', hjob', hkept⟩ := h path job hjob
  obtain ⟨job'', hjob'', hkept'⟩ := h' path job' hjob'
  exact ⟨job'', hjob'', hkept.trans hkept'⟩

/-- A record that is found is the one in the file of the id. -/
theorem get_of_getJob {jobId : String} (h : getJob L jobId files = .ok job) :
    files.get (L.pathFor jobId) = some job := by
  unfold getJob at h
  split at h
  next => cases h
  next found hfound =>
    split at h
    next =>
      cases h
      exact hfound
    next => cases h

/-- A record is written over with one that keeps it. -/
theorem save_keeps {saves : Bool} {new : Job} (hsound : Sound py L files)
    (hwell : WellFormed py new.metadata)
    (hkept : ∀ old, files.get (L.pathFor new.jobId) = some old → Kept py old new) :
    Sound py L (save L saves new files).1 ∧ Later py files (save L saves new files).1 := by
  unfold save
  split
  next =>
    constructor
    · intro path job hjob
      rw [Store.get_put] at hjob
      split at hjob
      next hpath =>
        cases hjob
        exact ⟨hpath.symm, hwell⟩
      next => exact hsound path job hjob
    · intro path job hjob
      rw [Store.get_put]
      split
      next hpath =>
        rw [hpath] at hjob
        exact ⟨new, rfl, hkept job hjob⟩
      next => exact ⟨job, hjob, Kept.refl job⟩
  next => exact ⟨hsound, Later.refl files⟩

/-- An update that is let through keeps every immutable key that is set. -/
theorem immutable_of_changedKey {metadata updates : Metadata}
    (h : changedKey py metadata updates = none) {key : String}
    (hkey : key ∈ immutableJobMetadataKeys) {v : Json} (hv : metadata.get key = some v) :
    ∃ v', (Metadata.update metadata updates).get key = some v' ∧
      (v' = v ∨ py.equal v' v = true) := by
  have hsame := List.find?_eq_none.mp h key hkey
  rw [get_update]
  cases hnew : updates.get key with
  | none => exact ⟨v, by rw [hv]; rfl, .inl rfl⟩
  | some v' =>
      rw [hnew, hv] at hsame
      refine ⟨v', rfl, .inr ?_⟩
      cases heq : py.equal v' v with
      | false => simp [heq] at hsame
      | true => rfl

/-- What an update must not do to the attempts of a record. -/
def KeepsRecords (py : Python) (metadata updates : Metadata) : Prop :=
  ∀ records, recordsOf py metadata = some records → Ordered records →
    ∃ records', recordsOf py (Metadata.update metadata updates) = some records' ∧
      Ordered records' ∧ ∀ attemptId ∈ records.map Prod.fst, attemptId ∈ records'.map Prod.fst

theorem updateStatus_keeps {now : String} {saves : Bool} {jobId status : String}
    {updates : Metadata} {incrementAttempts : Bool} (hsound : Sound py L files)
    (hcreated : ∀ job, getJob L jobId files = .ok job → ∀ v, updates.get "created_at" = some v →
      job.metadata.get "created_at" = some v)
    (hrecords : ∀ job, getJob L jobId files = .ok job → KeepsRecords py job.metadata updates) :
    Sound py L (updateStatus py L now saves jobId status updates incrementAttempts files).1 ∧
      Later py files
        (updateStatus py L now saves jobId status updates incrementAttempts files).1 := by
  unfold updateStatus
  split
  next => exact ⟨hsound, Later.refl files⟩
  next job hjob =>
    split
    next => exact ⟨hsound, Later.refl files⟩
    next hchanged =>
      have hfile := get_of_getJob hjob
      obtain ⟨hpath, records, hold, hordered⟩ := hsound _ job hfile
      obtain ⟨records', hnew, hordered', hsub⟩ := hrecords job hjob records hold hordered
      -- the time of the update stands under a key of its own
      have hother : ∀ key, key ≠ "updated_at" →
          ((Metadata.update job.metadata updates).put "updated_at" (.str now)).get key =
            (Metadata.update job.metadata updates).get key :=
        fun key hkey => Store.get_put_of_ne hkey
      have hnew' : recordsOf py
          ((Metadata.update job.metadata updates).put "updated_at" (.str now)) = some records' :=
        (recordsOf_congr (hother _ (by decide))).trans hnew
      refine save_keeps hsound ⟨records', hnew', hordered'⟩ fun old hold' => ?_
      rw [hpath, hfile] at hold'
      cases hold'
      exact {
        jobId := rfl
        projectId := rfl
        taskId := rfl
        transitionId := rfl
        workerId := rfl
        workspacePath := rfl
        createdAt := by
          intro v hv
          refine (hother _ (by decide)).trans ?_
          rw [get_update]
          cases hupdate : updates.get "created_at" with
          | none => exact hv
          | some v' =>
              have hsame := hcreated job hjob v' hupdate
              rw [hv] at hsame
              cases hsame
              rfl
        immutable := by
          intro key hkey v hv
          have hne : key ≠ "updated_at" := by
            intro heq
            rw [heq] at hkey
            revert hkey
            decide
          obtain ⟨v', hv', heq⟩ := immutable_of_changedKey hchanged hkey hv
          exact ⟨v', (hother key hne).trans hv', heq⟩
        attempts := by
          show job.attempts ≤ job.attempts + _
          split <;> omega
        records := by
          intro records₀ h₀
          rw [hold] at h₀
          cases h₀
          exact ⟨records', hnew', hsub⟩ }

/-- The raw records with one attempt taken out and put in again, sorted. -/
theorem keepsRecords_recordAttempt {metadata : Metadata} {rawRecords sorted : List Json}
    {incoming : AttemptRecord}
    (hraw : listOf ((metadata.get attemptRecordMetadataKey).getD .null) = some rawRecords)
    (hsorted : sortRecords py ((rawRecords.filter fun item =>
      !isAttempt incoming.attemptId item) ++ [attemptRecordToDict incoming]) = some sorted) :
    KeepsRecords py metadata
      ((∅ : Metadata).put attemptRecordMetadataKey (.arr sorted)) := by
  intro records hrecords hordered
  unfold recordsOf at hrecords
  rw [hraw, Option.bind_some] at hrecords
  have hsurviving := mapM_append_some (mapM_identity_filter hrecords incoming.attemptId)
    (@identity_toDict py incoming)
  obtain ⟨sorted', records', hsorted', hidentity, hperm, hascending⟩ := sortRecords_eq hsurviving
  rw [hsorted] at hsorted'
  cases hsorted'
  have hids := hperm.map Prod.fst
  refine ⟨records', ?_, ⟨?_, hascending⟩, ?_⟩
  · unfold recordsOf
    rw [get_update, Store.get_put_self, Option.some_or, Option.getD_some]
    have hlist : listOf (.arr sorted) = some sorted := by
      cases sorted <;> rfl
    rw [hlist]
    exact hidentity
  · -- the incoming attempt is new among those that survive
    rw [hids.nodup_iff, List.map_append, List.nodup_append]
    refine ⟨hordered.1.sublist (List.filter_sublist.map Prod.fst), by simp, ?_⟩
    intro attemptId hleft other hother heq
    obtain ⟨r, hr, rfl⟩ := List.mem_map.mp hleft
    have hne : r.1 ≠ incoming.attemptId := by simpa using (List.mem_filter.mp hr).2
    have hsame : other = incoming.attemptId := by simpa using hother
    exact hne (heq.trans hsame)
  · intro attemptId hid
    rw [hids.mem_iff, List.map_append, List.mem_append]
    by_cases hsame : attemptId = incoming.attemptId
    · exact .inr (by simp [hsame])
    · obtain ⟨r, hr, rfl⟩ := List.mem_map.mp hid
      exact .inl (List.mem_map.mpr ⟨r, List.mem_filter.mpr ⟨hr, by simpa using hsame⟩, rfl⟩)

theorem recordAttempt_keeps {now : String} {saves : Bool} {jobId : String} {payload : Fields}
    (hsound : Sound py L files) :
    Sound py L (recordAttempt py L now saves jobId payload files).1 ∧
      Later py files (recordAttempt py L now saves jobId payload files).1 := by
  unfold recordAttempt
  split
  next => exact ⟨hsound, Later.refl files⟩
  next job hjob =>
    split
    next => exact ⟨hsound, Later.refl files⟩
    next incoming hincoming =>
      split
      next => exact ⟨hsound, Later.refl files⟩
      next rawRecords hraw =>
        dsimp only
        split
        next => exact ⟨hsound, Later.refl files⟩
        next sorted hsorted =>
          refine updateStatus_keeps hsound (fun _ _ v hv => ?_) (fun found hfound => ?_)
          · rw [Store.get_put_of_ne (by decide), Store.get_empty] at hv
            cases hv
          · rw [hjob] at hfound
            cases hfound
            exact keepsRecords_recordAttempt hraw hsorted

/-- What every call keeps, the calls one after the other keep. -/
theorem foldl_keeps {α : Type} {call : Files → α → Files}
    (hcall : ∀ files a, Sound py L files →
      Sound py L (call files a) ∧ Later py files (call files a))
    (as : List α) (hsound : Sound py L files) :
    Sound py L (as.foldl call files) ∧ Later py files (as.foldl call files) := by
  induction as generalizing files with
  | nil => exact ⟨hsound, Later.refl files⟩
  | cons a as ih =>
      obtain ⟨hafter, hlater⟩ := hcall files a hsound
      obtain ⟨hend, hrest⟩ := ih hafter
      exact ⟨hend, hlater.trans hrest⟩

theorem settleInterruptedAttempts_keeps {now : String} {saves : String → Bool} {jobId : String}
    {endedAt failureReference : Option String} (hsound : Sound py L files) :
    Sound py L
        (settleInterruptedAttempts py L now saves jobId endedAt failureReference files).1 ∧
      Later py files
        (settleInterruptedAttempts py L now saves jobId endedAt failureReference files).1 := by
  unfold settleInterruptedAttempts
  split
  next => exact ⟨hsound, Later.refl files⟩
  next job hjob =>
    split
    next => exact ⟨hsound, Later.refl files⟩
    next records hrecords =>
      exact foldl_keeps (fun files record hsound => recordAttempt_keeps hsound) _ hsound

/-- The times that a new record is given leave its attempts alone. -/
theorem recordsOf_setDefault {metadata : Metadata} {key : String} {v : Json}
    (hkey : key ≠ attemptRecordMetadataKey) :
    recordsOf py (setDefault metadata key v) = recordsOf py metadata :=
  recordsOf_congr (by rw [get_setDefault, if_neg (Ne.symm hkey)])

/-- A record in a file that was not there takes the place of none. -/
theorem create_keeps {now : String} {saves : Bool} (hsound : Sound py L files)
    (hfree : saves = true → findActive L job.projectId job.taskId job.transitionId files = .ok [] →
      files.get (L.pathFor job.jobId) = none ∧ WellFormed py job.metadata) :
    Sound py L (create L now saves job files).1 ∧
      Later py files (create L now saves job files).1 := by
  unfold create
  split
  next => exact ⟨hsound, Later.refl files⟩
  next => exact ⟨hsound, Later.refl files⟩
  next hactive =>
    dsimp only
    cases saves with
    | false => exact ⟨hsound, Later.refl files⟩
    | true =>
        obtain ⟨hnone, records, hrecords, hordered⟩ := hfree rfl hactive
        refine save_keeps hsound ⟨records, ?_, hordered⟩ fun old hold => ?_
        · rw [recordsOf_setDefault (by decide), recordsOf_setDefault (by decide)]
          exact hrecords
        · rw [hnone] at hold
          cases hold

-- ================================================================ the run

/-- A call that does what the store does not check: a new record comes in a
file that is not there and with attempts that are in order; the updates of a
caller leave the time of the creation and the list of attempts as they are. -/
def Careful (py : Python) (L : Layout) (files : Files) : Op → Prop
  | .create job saves =>
      saves = true → findActive L job.projectId job.taskId job.transitionId files = .ok [] →
        files.get (L.pathFor job.jobId) = none ∧ WellFormed py job.metadata
  | .updateStatus jobId _ updates _ _ =>
      ∀ job, getJob L jobId files = .ok job → ∀ key ∈ ["created_at", attemptRecordMetadataKey],
        ∀ v, updates.get key = some v → job.metadata.get key = some v
  | .recordAttempt .. => True
  | .settleInterruptedAttempts .. => True

/-- Every call of a run is careful in the state that it finds. -/
def CarefulRun (py : Python) (L : Layout) : Files → List (String × Op) → Prop
  | _, [] => True
  | files, call :: calls =>
      Careful py L files call.2 ∧ CarefulRun py L (step py L call.1 call.2 files) calls

theorem step_keeps {now : String} {op : Op} (hsound : Sound py L files)
    (hcareful : Careful py L files op) :
    Sound py L (step py L now op files) ∧ Later py files (step py L now op files) := by
  cases op with
  | create job saves => exact create_keeps hsound hcareful
  | updateStatus jobId status updates incrementAttempts saves =>
      refine updateStatus_keeps hsound (fun job hjob => ?_) (fun job hjob records hrecords hordered => ?_)
      · exact hcareful job hjob "created_at" (.head _)
      · -- an update that names the list gives the list that is there
        have hlist := hcareful job hjob attemptRecordMetadataKey (.tail _ (.head _))
        refine ⟨records, (recordsOf_congr ?_).trans hrecords, hordered, fun _ h => h⟩
        rw [get_update]
        cases hupdate : updates.get attemptRecordMetadataKey with
        | none => rfl
        | some v => exact (hlist v hupdate).symm
  | recordAttempt jobId payload saves => exact recordAttempt_keeps hsound
  | settleInterruptedAttempts jobId endedAt failureReference saves =>
      exact settleInterruptedAttempts_keeps hsound

theorem runCalls_keeps {calls : List (String × Op)} (hsound : Sound py L files)
    (hcareful : CarefulRun py L files calls) :
    Sound py L (runCalls py L files calls) ∧ Later py files (runCalls py L files calls) := by
  induction calls generalizing files with
  | nil => exact ⟨hsound, Later.refl files⟩
  | cons call calls ih =>
      obtain ⟨hfirst, hrest⟩ := hcareful
      obtain ⟨hafter, hlater⟩ := @step_keeps py L files call.1 call.2 hsound hfirst
      obtain ⟨hend, hlater'⟩ := ih hafter hrest
      exact ⟨hend, hlater.trans hlater'⟩

theorem carefulRun_append {before after : List (String × Op)}
    (h : CarefulRun py L files (before ++ after)) :
    CarefulRun py L files before ∧ CarefulRun py L (runCalls py L files before) after := by
  induction before generalizing files with
  | nil => exact ⟨trivial, h⟩
  | cons call before ih =>
      obtain ⟨hfirst, hrest⟩ := h
      obtain ⟨hbefore, hafter⟩ := ih hrest
      exact ⟨⟨hfirst, hbefore⟩, hafter⟩

/-- In a run of careful calls from no records, a record that is stored at one
moment is stored at every later one and keeps its identity, the time of its
creation, its immutable keys and its attempts, and at every moment the
attempts of a record are different and in order. -/
theorem records_keep_identity (py : Python) (L : Layout) (before after : List (String × Op))
    (hcareful : CarefulRun py L ∅ (before ++ after)) :
    (∀ path job, (runCalls py L ∅ before).get path = some job →
      ∃ job', (runCalls py L ∅ (before ++ after)).get path = some job' ∧ Kept py job job') ∧
    ∀ path job, (runCalls py L ∅ (before ++ after)).get path = some job →
      WellFormed py job.metadata := by
  obtain ⟨hbefore, hafter⟩ := carefulRun_append hcareful
  have hempty : Sound py L ∅ := fun _ _ h => by cases h
  obtain ⟨hmiddle, -⟩ := runCalls_keeps hempty hbefore
  obtain ⟨hend, hlater⟩ := runCalls_keeps hmiddle hafter
  have hruns : runCalls py L ∅ (before ++ after) =
      runCalls py L (runCalls py L ∅ before) after := List.foldl_append
  rw [hruns]
  exact ⟨hlater, fun path job hjob => (hend path job hjob).2⟩

/-- Values are equal as their canonical texts are; strings and integers only. -/
def plainPython : Python where
  equal a b := decide (a.canon.text = b.canon.text)
  equal_trans _ _ _ hab hbc :=
    decide_eq_true ((of_decide_eq_true hab).trans (of_decide_eq_true hbc))
  builtins := Frozen.strictBuiltins
  dict _ := none

/-- Every job in the folder of its id. -/
def plainLayout : Layout := ⟨fun jobId => jobId ++ "/job.json", fun _ => true⟩

/-- A new job of a task. -/
def jobOf (taskId : String) : Job where
  jobId := "job-1"
  projectId := "demo"
  taskId := taskId
  transitionId := "implement"
  workerId := "coder"
  workspacePath := "/work/job-1"
  status := "pending"
  attempts := 0
  metadata := ∅

/-- A first attempt of the job. -/
def firstAttempt : Fields :=
  [("attempt_id", .str "job-1-a1"), ("job_id", .str "job-1"), ("attempt_number", .int 1),
    ("task_revision", .str "r1"), ("transition_id", .str "implement"),
    ("worker_id", .str "coder")]

/-- A job is made, and its first attempt recorded. -/
def plainRun : List (String × Op) :=
  [("t0", .create (jobOf "1") true), ("t1", .recordAttempt "job-1" firstAttempt true)]

theorem records_keep_identity_plain :
    ∃ job, (runCalls plainPython plainLayout ∅ plainRun).get "job-1/job.json" = some job ∧
      WellFormed plainPython job.metadata := by
  have hcareful : CarefulRun plainPython plainLayout ∅ ([] ++ plainRun) :=
    ⟨fun _ _ => ⟨rfl, [], rfl, .nil, .nil⟩, trivial, trivial⟩
  have hwell := (records_keep_identity plainPython plainLayout [] plainRun hcareful).2
  exact ⟨_, rfl, hwell "job-1/job.json" _ rfl⟩

/-- The second of two new jobs with one id is written over the first. -/
theorem reused_id_overwrites :
    ∃ path job, (runCalls plainPython plainLayout ∅ plainRun).get path = some job ∧
      job.taskId = "1" ∧ ¬ ∃ job', (runCalls plainPython plainLayout ∅
        (plainRun ++ [("t2", .create (jobOf "2") true)])).get path = some job' ∧
          Kept plainPython job job' := by
  refine ⟨"job-1/job.json", _, rfl, rfl, ?_⟩
  rintro ⟨job', hjob', hkept⟩
  have htask : ((runCalls plainPython plainLayout ∅
      (plainRun ++ [("t2", .create (jobOf "2") true)])).get "job-1/job.json").map Job.taskId =
        some "2" := rfl
  rw [hjob'] at htask
  have hsame := hkept.taskId
  have hnew : job'.taskId = "2" := Option.some.inj htask
  rw [hnew] at hsame
  exact absurd hsame (by decide)

end OpenTulid.JobFiles
