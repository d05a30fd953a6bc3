/-
The lease store: acquiring resources for a job, admitting a job with its
leases, and giving leases back.

Every operation of the store takes the store's lock for its whole length.
The sweep the command line runs (`sweepInactiveReservations`) collects the
active jobs of the configured projects first, without a lock, and gives
back the leases of all others under it.
-/
import OpenTulid.World

namespace OpenTulid

/-- The configured capacities of the resources. -/
abbrev Resources := List (String × Nat)

/-- A lock held around a program. -/
def withLock {α : Type} (l : Lock) (body : Proc α) : Proc α := do
  perform (.lock l)
  body.ensure (do perform (.unlock l); return ⟨⟩)

/-- `leases_for`. -/
def leasesFor (d : Data) (resource : String) : List ResourceLease :=
  d.leases.filter fun l => l.resourceId = resource

/-- `_has_capacity`. -/
def hasCapacity (R : Resources) (d : Data) (resource : String) : Bool :=
  match R.lookup resource with
  | none => false
  | some capacity => (leasesFor d resource).length < capacity

/-- The resources that are busy. -/
def busyResources (R : Resources) (ids : List String) (d : Data) : List String :=
  ids.filter fun r => !hasCapacity R d r

/-- `job_holds`. -/
def jobHolds (ids : List String) (jobId : JobId) : Proc Bool :=
  withLock .leases <| read fun d =>
    ids.all fun r => (leasesFor d r).any fun l => l.jobId = jobId

/-- Write the leases one after the other; a failing write raises. -/
def writeLeases : List ResourceLease → Proc Unit
  | [] => return ()
  | lease :: rest => do
      match ← perform (.writeLease lease) with
      | .error e => Prog.raise e
      | .ok () => writeLeases rest

/-- Remove leases one after the other; a failing removal raises. -/
def removeLeases : List ResourceLease → Proc Unit
  | [] => return ()
  | lease :: rest => do
      match ← perform (.removeLease lease) with
      | .error e => Prog.raise e
      | .ok () => removeLeases rest

/-- `_release_job_unlocked`. -/
def releaseJobUnlocked (jobId : JobId) : Proc Unit := do
  removeLeases (← read fun d => d.leases.filter fun l => l.jobId = jobId)

/-- `release_job`. -/
def releaseJob (jobId : JobId) : Proc Unit :=
  withLock .leases (releaseJobUnlocked jobId)

/-- The leases of a job on resources. -/
def leasesOf (ids : List String) (jobId : JobId) (workerId : String) :
    List ResourceLease :=
  ids.map fun r => ⟨r, jobId, workerId⟩

/-- `try_acquire`: the busy resources, none when the leases are written. -/
def tryAcquire (R : Resources) (ids : List String) (jobId : JobId)
    (workerId : String) : Proc (List String) :=
  withLock .leases do
    let busy ← read (busyResources R ids)
    if busy ≠ [] then return busy
    else do
      writeLeases (leasesOf ids jobId workerId)
      return []

/-- The lease store's `admit`: the leases are written, the job is committed, and the leases
are given back when that raises or is not accepted. -/
def admitWithLeases {α : Type} (R : Resources) (ids : List String) (jobId : JobId)
    (workerId : String) (commit : Proc α) (accepted : α → Bool) :
    Proc (Except (List String) α) :=
  withLock .leases do
    let busy ← read (busyResources R ids)
    if busy ≠ [] then return .error busy
    else do
      writeLeases (leasesOf ids jobId workerId)
      let committed ← Prog.tryCatch commit fun e => do
        releaseJobUnlocked jobId
        Prog.raise e
      if accepted committed then return .ok committed
      else do
        releaseJobUnlocked jobId
        return .ok committed

/-- `release_inactive_reservations`: the leases of all jobs but the active
ones are removed. -/
def releaseInactiveReservations (activeJobIds : List JobId) :
    Proc (List JobId) :=
  withLock .leases do
    let inactive ← read fun d =>
      d.leases.filter fun l => l.jobId ∉ activeJobIds
    removeLeases inactive
    return inactive.map (·.jobId)

/-- The statuses `_active_runtime_job_ids` collects. -/
def ExecutionJobStatus.keepsLease : ExecutionJobStatus → Bool
  | .pending => true
  | .running => true
  | .completionRejected => true
  | .stale => true
  | _ => false

/-- `_active_runtime_job_ids`: nothing when a store cannot be listed. -/
def activeRuntimeJobIds : List ProjectId → Proc (Option (List JobId))
  | [] => return some []
  | p :: rest => do
      match ← perform (.listJobs p) with
      | .error _ => return none
      | .ok jobs => do
          let others ← activeRuntimeJobIds rest
          return others.map fun ids =>
            (jobs.filter fun job => job.status.keepsLease).map (·.jobId) ++ ids

/-- What every runtime command does with the leases: those of inactive jobs
of the configured projects are given back. -/
def sweepInactiveReservations (projects : List ProjectId) : Proc (List JobId) := do
  match ← activeRuntimeJobIds projects with
  | none => return []
  | some ids => releaseInactiveReservations ids

end OpenTulid
