/-
No resource is over-committed, and which calls leave a job with some of what
it asked for.

# The argument

A job has one file in each folder, so however many leases a call writes, a
folder gains at most one file (`count_writeLeases`); the call found room for
it under the lock. Removals only take files away. So the capacities hold in
every state of every history, as long as names that lead to one folder have
one capacity.

What a job holds after a call is what it held before, with the folders
written and without the files removed (`holds_writeLeases`,
`holds_removeLeases`). A failing write leaves the leases written before it,
and a release does not reach every folder a name can lead to: `Whole` says
when neither leaves a part of a request behind.
-/
import OpenTulid.Runtime.LeaseFiles

namespace OpenTulid

theorem LeaseFile.path_inj {p q : List String} {i j : JobId} :
    p ++ [i] = q ++ [j] ↔ p = q ∧ i = j := by
  constructor
  · intro h
    have hparts := List.append_inj' h rfl
    exact ⟨hparts.1, by simpa using hparts.2⟩
  · rintro ⟨rfl, rfl⟩
    rfl

namespace FileResourceLeaseStore

variable {S : FileResourceLeaseStore} {t : LeaseFiles} {jobId : JobId}

-- ================================================================ holdings

/-- A job holds a resource by its file in the resource's folder. -/
theorem holds_iff {resource : String} :
    S.holds t jobId resource = true ↔
      (t.get (S.layout.place resource ++ [jobId])).isSome = true := by
  unfold holds leasesFor
  rw [List.any_eq_true, Option.isSome_iff_exists]
  constructor
  · rintro ⟨f, hf, hjob⟩
    obtain ⟨hmem, hplace⟩ := List.mem_filter.mp hf
    have hget := Table.mem_values.mp hmem
    have hpath : f.path = S.layout.place resource ++ [jobId] := by
      unfold LeaseFile.path
      rw [LeaseFile.path_inj]
      exact ⟨by simpa using hplace, by simpa using hjob⟩
    exact ⟨f, hpath ▸ hget⟩
  · rintro ⟨f, hget⟩
    have hpath : f.path = S.layout.place resource ++ [jobId] := Table.key_of_get hget
    have hparts := LeaseFile.path_inj.mp hpath
    refine ⟨f, List.mem_filter.mpr ⟨Table.mem_values.mpr (hpath ▸ hget), ?_⟩, ?_⟩
    · simpa using hparts.1
    · simpa using hparts.2

/-- What is dealt with before the one that fails. -/
def written {α : Type} (failing : Option Nat) (l : List α) : List α :=
  match failing with
  | none => l
  | some n => l.take n

theorem written_map {α β : Type} (failing : Option Nat) (f : α → β) (l : List α) :
    written failing (l.map f) = (written failing l).map f := by
  cases failing with
  | none => rfl
  | some n => exact (List.map_take ..).symm

theorem written_subset {α : Type} (failing : Option Nat) (l : List α) : written failing l ⊆ l := by
  cases failing with
  | none => exact List.Subset.refl l
  | some n => exact List.take_subset n l

theorem writeLeases_fst (failing : Option Nat) (leases : List LeaseFile) (t : LeaseFiles) :
    (writeLeases failing leases t).1 = (written failing leases).foldl Table.put t := by
  induction leases generalizing failing t with
  | nil =>
      cases failing with
      | none => rfl
      | some n => simp [writeLeases, written]
  | cons lease rest ih =>
      cases failing with
      | none => exact ih none (t.put lease)
      | some n =>
          cases n with
          | zero => rfl
          | succ n => exact ih (some n) (t.put lease)

/-- The writes all succeed if none of them is the one that fails. -/
theorem writeLeases_ok {failing : Option Nat} {leases : List LeaseFile} {t : LeaseFiles} :
    (writeLeases failing leases t).2 = .ok () ↔ written failing leases = leases := by
  induction leases generalizing failing t with
  | nil =>
      cases failing with
      | none => simp [writeLeases, written]
      | some n => simp [writeLeases, written]
  | cons lease rest ih =>
      cases failing with
      | none => simpa [writeLeases, written] using @ih none (t.put lease)
      | some n =>
          cases n with
          | zero => simp [writeLeases, written]
          | succ n =>
              have h := @ih (some n) (t.put lease)
              simpa [writeLeases, written] using h

/-- What a job holds once its leases on resources are written. -/
theorem holds_writes (request : LeaseRequest) (ids : List String) {resource : String} :
    S.holds ((ids.map (S.leaseOf request)).foldl Table.put t) request.jobId resource = true ↔
      S.holds t request.jobId resource = true ∨
        S.layout.place resource ∈ ids.map S.layout.place := by
  induction ids generalizing t with
  | nil => simp
  | cons id rest ih =>
      rw [List.map_cons, List.foldl_cons, ih, holds_iff, holds_iff, Table.get_put]
      have hpath : (S.leaseOf request id).path = S.layout.place id ++ [request.jobId] := rfl
      rw [hpath, List.map_cons, List.mem_cons]
      by_cases hplace : S.layout.place resource = S.layout.place id
      · simp [hplace]
      · have hne : S.layout.place resource ++ [request.jobId] ≠
            S.layout.place id ++ [request.jobId] := fun h => hplace (LeaseFile.path_inj.mp h).1
        rw [if_neg hne]
        simp [hplace]

/-- What a job holds once leases are removed. -/
theorem holds_removeLeases (removal : Removal) (matching : LeaseFile → Bool)
    {resource : String} :
    S.holds (S.removeLeases removal matching t).1 jobId resource = true ↔
      ∃ f, t.get (S.layout.place resource ++ [jobId]) = some f ∧
        ¬(S.layout.reached (S.layout.place resource) = true ∧ matching f = true ∧
          removal.all (fun gone => S.layout.place resource ++ [jobId] ∈ gone) = true) := by
  rw [holds_iff]
  unfold removeLeases
  dsimp only
  rw [Table.get_filter, Option.isSome_iff_exists]
  simp only [Option.filter_eq_some_iff]
  refine exists_congr fun f => and_congr_right fun hget => ?_
  have hpath : f.path = S.layout.place resource ++ [jobId] := Table.key_of_get hget
  have hplace : f.place = S.layout.place resource := (LeaseFile.path_inj.mp hpath).1
  rw [hplace, hpath, Bool.not_eq_true', Bool.eq_false_iff]
  simp only [ne_eq, Bool.and_eq_true, and_assoc]

-- ============================================================== capacities

/-- The number of lease files in a folder. -/
def count (place : List String) (t : LeaseFiles) : Nat :=
  (t.values.filter fun f => f.place = place).length

theorem count_eq_sum (place : List String) (t : LeaseFiles) :
    count place t = (t.values.map fun f => if f.place = place then 1 else 0).sum := by
  unfold count
  induction t.values with
  | nil => rfl
  | cons f rest ih =>
      rw [List.filter_cons, List.map_cons, List.sum_cons, ← ih]
      by_cases h : f.place = place
      · simp [h]
        omega
      · simp [h]

/-- A folder gains at most the one file that is written, and none when the
file stood there. -/
theorem count_put (place : List String) (t : LeaseFiles) (lease : LeaseFile) :
    count place (t.put lease) ≤ count place t +
      (if lease.place = place ∧ (t.get lease.path).isNone then 1 else 0) := by
  have hsum := Table.sum_values_put (t := t) (a := lease) fun f => if f.place = place then 1 else 0
  rw [← count_eq_sum, ← count_eq_sum] at hsum
  cases hget : t.get lease.path with
  | none =>
      rw [hget] at hsum
      by_cases h : lease.place = place
      · simp only [h, and_self, Option.isNone_none, if_true] at hsum ⊢
        simp at hsum
        omega
      · simp [h] at hsum ⊢
        omega
  | some old =>
      have hpath : old.path = lease.path := Table.key_of_get hget
      have hplace : old.place = lease.place := (LeaseFile.path_inj.mp hpath).1
      rw [hget] at hsum
      simp only [Option.map_some, Option.getD_some, hplace] at hsum
      simp
      omega

/-- A folder gains at most one file by the leases a job writes, and none when
none of them goes there. -/
theorem count_writes (place : List String) (request : LeaseRequest) (ids : List String) :
    count place ((ids.map (S.leaseOf request)).foldl Table.put t) ≤ count place t +
      (if place ∈ ids.map S.layout.place ∧ (t.get (place ++ [request.jobId])).isNone then 1
        else 0) := by
  induction ids generalizing t with
  | nil => simp
  | cons id rest ih =>
      have hput := count_put place t (S.leaseOf request id)
      have hrest := ih (t := t.put (S.leaseOf request id))
      have hpath : (S.leaseOf request id).path = S.layout.place id ++ [request.jobId] := rfl
      have hplaceOf : (S.leaseOf request id).place = S.layout.place id := rfl
      rw [List.map_cons, List.foldl_cons, List.map_cons]
      rw [hpath, hplaceOf] at hput
      by_cases hplace : S.layout.place id = place
      · subst hplace
        -- the file stands there now, so the rest adds none
        have hself : ((t.put (S.leaseOf request id)).get
            (S.layout.place id ++ [request.jobId])).isNone = false := by
          rw [← hpath, Table.get_put_self]
          rfl
        simp only [hself, Bool.false_eq_true, and_false, if_false] at hrest
        simp only [true_and, List.mem_cons, true_or] at hput ⊢
        omega
      · have hne : place ++ [request.jobId] ≠ (S.leaseOf request id).path := fun h =>
          hplace (LeaseFile.path_inj.mp h).1.symm
        rw [Table.get_put_of_ne hne] at hrest
        have hcons : place ∈ S.layout.place id :: rest.map S.layout.place ↔
            place ∈ rest.map S.layout.place := by
          simp [Ne.symm hplace]
        simp only [hplace, false_and, if_false] at hput
        simp only [hcons]
        omega

/-- No resource has more leases than its capacity. -/
def WithinCapacity (S : FileResourceLeaseStore) (t : LeaseFiles) : Prop :=
  ∀ resource capacity, S.resources.lookup resource = some capacity →
    (S.leasesFor t resource).length ≤ capacity

/-- Resources whose names lead to one folder have one capacity. -/
def OneCapacity (S : FileResourceLeaseStore) : Prop :=
  ∀ r r' c c', S.resources.lookup r = some c → S.resources.lookup r' = some c' →
    S.layout.place r = S.layout.place r' → c = c'

theorem within_removeLeases (h : S.WithinCapacity t) (removal : Removal)
    (matching : LeaseFile → Bool) : S.WithinCapacity (S.removeLeases removal matching t).1 := by
  intro resource capacity hlookup
  refine le_trans (List.Sublist.length_le ?_) (h resource capacity hlookup)
  unfold leasesFor removeLeases
  dsimp only
  rw [Table.values_filter]
  exact List.Sublist.filter _ List.filter_sublist

/-- Leases for which there is room keep the capacities. -/
theorem within_writes (hone : S.OneCapacity) (h : S.WithinCapacity t) {request : LeaseRequest}
    (hroom : S.busy t request.resourceIds = []) {ids : List String}
    (hids : ids ⊆ request.resourceIds) :
    S.WithinCapacity ((ids.map (S.leaseOf request)).foldl Table.put t) := by
  intro resource capacity hlookup
  have hcount := count_writes (S := S) (t := t) (S.layout.place resource) request ids
  have hbefore : count (S.layout.place resource) t ≤ capacity := h resource capacity hlookup
  show count (S.layout.place resource) _ ≤ capacity
  by_cases hplace : S.layout.place resource ∈ ids.map S.layout.place
  · -- the call found room in this folder
    obtain ⟨id, hid, heq⟩ := List.mem_map.mp hplace
    have hcapacity : S.hasCapacity t id = true := by
      have hnot := List.filter_eq_nil_iff.mp hroom id (hids hid)
      simpa using hnot
    unfold hasCapacity at hcapacity
    cases hconfigured : S.resources.lookup id with
    | none =>
        rw [hconfigured] at hcapacity
        cases hcapacity
    | some c =>
        rw [hconfigured] at hcapacity
        obtain rfl : c = capacity := hone id resource c capacity hconfigured hlookup heq
        have hlength : (S.leasesFor t id).length < c := by simpa using hcapacity
        have hless : count (S.layout.place id) t < c := hlength
        rw [heq] at hless
        have hgain : (if S.layout.place resource ∈ ids.map S.layout.place ∧
            (t.get (S.layout.place resource ++ [request.jobId])).isNone = true then 1 else 0)
              ≤ 1 := by
          split <;> omega
        omega
  · rw [if_neg fun hboth => hplace hboth.1] at hcount
    omega

theorem within_written (hone : S.OneCapacity) (h : S.WithinCapacity t) (failing : Option Nat)
    {request : LeaseRequest} (hroom : S.busy t request.resourceIds = []) :
    S.WithinCapacity
      (writeLeases failing (request.resourceIds.map (S.leaseOf request)) t).1 := by
  rw [writeLeases_fst, written_map]
  exact within_writes hone h hroom (written_subset failing _)

/-- Every call keeps the capacities. -/
theorem within_step (hone : S.OneCapacity) (h : S.WithinCapacity t) (call : LeaseCall) :
    S.WithinCapacity (S.step t call) := by
  cases call with
  | tryAcquire request failing =>
      unfold step tryAcquire
      dsimp only
      split
      next => exact h
      next hroom => exact within_written hone h failing (not_not.mp hroom)
  | admitWithLeases request failing outcome removal =>
      unfold step admitWithLeases
      dsimp only
      split
      next => exact h
      next hroom =>
        have hwritten := within_written hone h failing (not_not.mp hroom)
        split
        next => exact hwritten
        next =>
          cases outcome with
          | accepted => exact hwritten
          | rejected => exact within_removeLeases hwritten _ _
          | raises => exact within_removeLeases hwritten _ _
  | releaseJob id removal => exact within_removeLeases h _ _
  | releaseInactive active removal => exact within_removeLeases h _ _
  | releaseOrphans pathExists removal => exact within_removeLeases h _ _

-- ========================================================= all or nothing

/-- A request is met as a whole, or it gives its job nothing. -/
def AllOrNone (S : FileResourceLeaseStore) (before after : LeaseFiles)
    (request : LeaseRequest) : Prop :=
  (∀ r ∈ request.resourceIds, S.holds after request.jobId r = true) ∨
    ∀ r ∈ request.resourceIds, S.holds after request.jobId r = true →
      S.holds before request.jobId r = true

/-- The writes before the failing one complete what the job holds, or give it
nothing it did not hold. -/
def WritesWhole (S : FileResourceLeaseStore) (t : LeaseFiles) (failing : Option Nat)
    (request : LeaseRequest) : Prop :=
  (∀ r ∈ request.resourceIds, S.holds t request.jobId r = true ∨
      S.layout.place r ∈ (written failing request.resourceIds).map S.layout.place) ∨
    ∀ r ∈ written failing request.resourceIds, S.holds t request.jobId r = true

/-- A removal leaves a job's lease of a resource. -/
def Spared (S : FileResourceLeaseStore) (removal : Removal) (jobId : JobId) (r : String) : Prop :=
  ¬(S.layout.reached (S.layout.place r) = true ∧
    removal.all (fun gone => S.layout.place r ++ [jobId] ∈ gone) = true)

/-- The release leaves the job all leases of the request, or none that it did
not hold. -/
def ReleaseWhole (S : FileResourceLeaseStore) (t : LeaseFiles) (removal : Removal)
    (request : LeaseRequest) : Prop :=
  (∀ r ∈ request.resourceIds, S.Spared removal request.jobId r) ∨
    ∀ r ∈ request.resourceIds, S.Spared removal request.jobId r →
      S.holds t request.jobId r = true

/-- What a call needs of the outside to leave no part of a request. -/
def Whole (S : FileResourceLeaseStore) (t : LeaseFiles) : LeaseCall → Prop
  | .tryAcquire request failing =>
      S.busy t request.resourceIds ≠ [] ∨ S.WritesWhole t failing request
  | .admitWithLeases request failing outcome removal =>
      S.busy t request.resourceIds ≠ [] ∨
        if written failing request.resourceIds = request.resourceIds then
          outcome = .accepted ∨ S.ReleaseWhole t removal request
        else S.WritesWhole t failing request
  | _ => True

/-- Holding depends on the folder alone. -/
theorem holds_of_place {r r' : String} (h : S.layout.place r = S.layout.place r') :
    S.holds t jobId r = S.holds t jobId r' := by
  unfold holds leasesFor
  rw [h]

theorem allOrNone_writes (failing : Option Nat) (request : LeaseRequest) :
    S.AllOrNone t
        (writeLeases failing (request.resourceIds.map (S.leaseOf request)) t).1 request ↔
      S.WritesWhole t failing request := by
  unfold AllOrNone WritesWhole
  rw [writeLeases_fst, written_map]
  simp only [holds_writes]
  refine or_congr_right ?_
  constructor
  · intro h r hr
    exact h r (written_subset failing _ hr) (.inr (List.mem_map_of_mem hr))
  · intro h r _ hafter
    rcases hafter with hheld | hplace
    · exact hheld
    · obtain ⟨r', hr', heq⟩ := List.mem_map.mp hplace
      rw [← holds_of_place heq]
      exact h r' hr'

theorem writesWhole_of_all {failing : Option Nat} {request : LeaseRequest}
    (h : written failing request.resourceIds = request.resourceIds) :
    S.WritesWhole t failing request := by
  left
  rw [h]
  exact fun r hr => .inr (List.mem_map_of_mem hr)

/-- What a job holds of a request whose leases were written and released. -/
theorem holds_released {removal : Removal} {request : LeaseRequest} {failing : Option Nat}
    (hall : written failing request.resourceIds = request.resourceIds) {r : String}
    (hr : r ∈ request.resourceIds) :
    S.holds (S.releaseJobUnlocked removal request.jobId
        (writeLeases failing (request.resourceIds.map (S.leaseOf request)) t).1).1
        request.jobId r = true ↔ S.Spared removal request.jobId r := by
  unfold releaseJobUnlocked Spared
  rw [holds_removeLeases, writeLeases_fst, written_map, hall]
  have hheld := (@holds_writes S t request request.resourceIds r).mpr
    (.inr (List.mem_map_of_mem hr))
  obtain ⟨f, hget⟩ := Option.isSome_iff_exists.mp (holds_iff.mp hheld)
  have hpath : f.path = S.layout.place r ++ [request.jobId] := Table.key_of_get hget
  have hjob : f.jobId = request.jobId := (LeaseFile.path_inj.mp hpath).2
  constructor
  · rintro ⟨g, hg, hspared⟩ ⟨hreached, hgone⟩
    obtain rfl : g = f := Option.some.inj (hg.symm.trans hget)
    exact hspared ⟨hreached, by simpa using hjob, hgone⟩
  · intro hspared
    exact ⟨f, hget, fun h => hspared ⟨h.1, h.2.2⟩⟩

theorem allOrNone_released {removal : Removal} {request : LeaseRequest} {failing : Option Nat}
    (hall : written failing request.resourceIds = request.resourceIds) :
    S.AllOrNone t (S.releaseJobUnlocked removal request.jobId
        (writeLeases failing (request.resourceIds.map (S.leaseOf request)) t).1).1 request ↔
      S.ReleaseWhole t removal request := by
  unfold AllOrNone ReleaseWhole
  refine or_congr (forall₂_congr fun r hr => holds_released hall hr)
    (forall₂_congr fun r hr => ?_)
  rw [holds_released hall hr]

/-- The writes of a request all succeed if none of them is the one that
fails. -/
theorem writeLeases_request {failing : Option Nat} {request : LeaseRequest} :
    (writeLeases failing (request.resourceIds.map (S.leaseOf request)) t).2 = .ok () ↔
      written failing request.resourceIds = request.resourceIds := by
  have hinj : Function.Injective (S.leaseOf request) := fun r r' h =>
    congrArg LeaseFile.resourceId h
  rw [writeLeases_ok, written_map, (List.map_injective_iff.mpr hinj).eq_iff]

theorem allOrNone_admitWithLeases {failing : Option Nat} {outcome : CommitOutcome}
    {removal : Removal}
    {request : LeaseRequest} (hroom : S.busy t request.resourceIds = []) :
    S.AllOrNone t (S.admitWithLeases failing outcome removal request t).1 request ↔
      if written failing request.resourceIds = request.resourceIds then
        outcome = .accepted ∨ S.ReleaseWhole t removal request
      else S.WritesWhole t failing request := by
  unfold admitWithLeases
  rw [if_neg fun hne => hne hroom]
  dsimp only
  cases hwritten : (writeLeases failing (request.resourceIds.map (S.leaseOf request)) t).2 with
  | error e =>
      have hnot : written failing request.resourceIds ≠ request.resourceIds := by
        rw [ne_eq, ← writeLeases_request (S := S) (t := t), hwritten]
        simp
      rw [if_neg hnot]
      exact allOrNone_writes failing request
  | ok done =>
      have hall := writeLeases_request.mp hwritten
      rw [if_pos hall]
      cases outcome with
      | accepted =>
          simp only [true_or, iff_true]
          exact (allOrNone_writes failing request).mpr (writesWhole_of_all hall)
      | rejected =>
          simp only [reduceCtorEq, false_or]
          exact allOrNone_released hall
      | raises =>
          simp only [reduceCtorEq, false_or]
          exact allOrNone_released hall

/-- A call meets its request as a whole or not at all, if and only if the
outside lets it. -/
theorem allOrNone_step (call : LeaseCall) :
    (∀ request, call.request? = some request → S.AllOrNone t (S.step t call) request) ↔
      S.Whole t call := by
  have hsame : ∀ request, S.AllOrNone t t request := fun _ => .inr fun _ _ h => h
  cases call with
  | tryAcquire request failing =>
      unfold step tryAcquire Whole LeaseCall.request?
      simp only [Option.some.injEq, forall_eq']
      by_cases hbusy : S.busy t request.resourceIds = []
      · rw [if_neg fun hne => hne hbusy]
        simp [hbusy, allOrNone_writes]
      · simp [hbusy, hsame]
  | admitWithLeases request failing outcome removal =>
      unfold step Whole LeaseCall.request?
      simp only [Option.some.injEq, forall_eq']
      by_cases hbusy : S.busy t request.resourceIds = []
      · rw [allOrNone_admitWithLeases hbusy]
        simp [hbusy]
      · unfold admitWithLeases
        simp [hbusy, hsame]
  | releaseJob | releaseInactive | releaseOrphans => simp [LeaseCall.request?, Whole]

-- ============================================================== histories

/-- Resources are not over-committed, and requests are met as a whole or not
at all, at every call of a history. -/
def LeasesSound (S : FileResourceLeaseStore) (t : LeaseFiles) (calls : List LeaseCall) : Prop :=
  ∀ e ∈ S.callsFrom t calls, S.WithinCapacity e.1 ∧ S.WithinCapacity (S.step e.1 e.2) ∧
    ∀ request, e.2.request? = some request → S.AllOrNone e.1 (S.step e.1 e.2) request

theorem within_callsFrom (hone : S.OneCapacity) (h : S.WithinCapacity t) (calls : List LeaseCall) :
    ∀ e ∈ S.callsFrom t calls, S.WithinCapacity e.1 := by
  induction calls generalizing t with
  | nil => simp [callsFrom]
  | cons call rest ih =>
      intro e he
      rcases List.mem_cons.mp he with rfl | he
      · exact h
      · exact ih (within_step hone h call) e he

/-- Two resources of one unit each, in folders of their names. -/
def pairStore : FileResourceLeaseStore where
  layout := { place := fun name => [name], reached := fun place => place.length = 1 }
  resources := [("gpu", 1), ("model", 1)]

theorem pairStore_oneCapacity : pairStore.OneCapacity := by
  intro r r' c c' hr hr' hplace
  obtain rfl : r = r' := by simpa [pairStore] using hplace
  exact Option.some.inj (hr.symm.trans hr')

theorem empty_withinCapacity (S : FileResourceLeaseStore) : S.WithinCapacity ∅ :=
  fun _ _ _ => Nat.zero_le _

end FileResourceLeaseStore

end OpenTulid
