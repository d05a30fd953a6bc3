/-
The lease store on its files: one file for each resource a job holds, in a
folder of the resource.

# Calls

Every call of the store takes the store's lock for its whole length, so the
calls of any number of jobs come one after the other, and a history is a list
of them (`LeaseCall`). A call carries what the outside decides: which lease
write fails, how the commit ends, and at which lease file a removal fails.

# Places

Resource names are joined to paths as they are. Which folder a name leads to
and which folders the pattern `*/leases/*.json` reaches is the file system's
affair (`LeaseLayout`).
-/
import OpenTulid.Runtime.Resources

namespace OpenTulid

/-- The folder each resource name leads to, and the folders a look over all
leases reaches. -/
structure LeaseLayout where
  place : String → List String
  reached : List String → Bool

/-- A lease file: its folder, the job it is named after, and its record. -/
structure LeaseFile where
  place : List String
  jobId : JobId
  resourceId : String
  workerId : String
  ownerPath : Option String := none
  deriving DecidableEq, Repr

/-- The path of a lease file. -/
def LeaseFile.path (f : LeaseFile) : List String := f.place ++ [f.jobId]

/-- The lease files of a store. -/
abbrev LeaseFiles := Table LeaseFile.path

/-- Who asks for which resources. -/
structure LeaseRequest where
  resourceIds : List String
  jobId : JobId
  workerId : String
  ownerPath : Option String := none
  deriving DecidableEq, Repr

/-- How the commit of an admission ends. -/
inductive CommitOutcome where
  | accepted
  | rejected
  | raises
  deriving DecidableEq, Repr

/-- A removal of lease files: all of them, or up to a failure behind the
files of these paths. -/
abbrev Removal := Option (List (List String))

/-- The configured store. -/
structure FileResourceLeaseStore where
  layout : LeaseLayout
  resources : Resources

namespace FileResourceLeaseStore

variable (S : FileResourceLeaseStore)

/-- `leases_for`. -/
def leasesFor (t : LeaseFiles) (resource : String) : List LeaseFile :=
  t.values.filter fun f => f.place = S.layout.place resource

/-- `_has_capacity`. -/
def hasCapacity (t : LeaseFiles) (resource : String) : Bool :=
  match S.resources.lookup resource with
  | none => false
  | some capacity => (S.leasesFor t resource).length < capacity

/-- The busy resources of a request. -/
def busy (t : LeaseFiles) (resourceIds : List String) : List String :=
  resourceIds.filter fun r => !S.hasCapacity t r

/-- A job holds a resource. -/
def holds (t : LeaseFiles) (jobId : JobId) (resource : String) : Bool :=
  (S.leasesFor t resource).any fun f => f.jobId = jobId

/-- `job_holds`. -/
def jobHolds (t : LeaseFiles) (resourceIds : List String) (jobId : JobId) : Bool :=
  resourceIds.all (S.holds t jobId)

/-- The lease of a resource for a request. -/
def leaseOf (request : LeaseRequest) (resource : String) : LeaseFile where
  place := S.layout.place resource
  jobId := request.jobId
  resourceId := resource
  workerId := request.workerId
  ownerPath := request.ownerPath

/-- Leases written one after the other, up to the write that fails. -/
def writeLeases : Option Nat → List LeaseFile → LeaseFiles → LeaseFiles × Except Raised Unit
  | _, [], t => (t, .ok ())
  | some 0, _ :: _, t => (t, .error ⟨"lease write failed"⟩)
  | some (n + 1), lease :: rest, t => writeLeases (some n) rest (t.put lease)
  | none, lease :: rest, t => writeLeases none rest (t.put lease)

/-- The files of some jobs removed where the look over all leases reaches
them. -/
def removeLeases (removal : Removal) (matching : LeaseFile → Bool) (t : LeaseFiles) :
    LeaseFiles × Except Raised Unit :=
  (t.filter fun f =>
      !(S.layout.reached f.place && matching f && removal.all fun gone => f.path ∈ gone),
    if removal.isNone then .ok () else .error ⟨"lease unlink failed"⟩)

/-- `_release_job_unlocked`. -/
def releaseJobUnlocked (removal : Removal) (jobId : JobId) (t : LeaseFiles) :
    LeaseFiles × Except Raised Unit :=
  S.removeLeases removal (fun f => f.jobId = jobId) t

/-- `try_acquire`: the busy resources, none when the leases are written. -/
def tryAcquire (failing : Option Nat) (request : LeaseRequest) (t : LeaseFiles) :
    LeaseFiles × Except Raised (List String) :=
  if S.busy t request.resourceIds ≠ [] then (t, .ok (S.busy t request.resourceIds))
  else
    let written := writeLeases failing (request.resourceIds.map (S.leaseOf request)) t
    (written.1, written.2.map fun _ => [])

/-- `admit`: the busy resources, or whether what was committed was
accepted. -/
def admitWithLeases (failing : Option Nat) (outcome : CommitOutcome) (removal : Removal)
    (request : LeaseRequest) (t : LeaseFiles) :
    LeaseFiles × Except Raised (Except (List String) Bool) :=
  if S.busy t request.resourceIds ≠ [] then (t, .ok (.error (S.busy t request.resourceIds)))
  else
    let written := writeLeases failing (request.resourceIds.map (S.leaseOf request)) t
    match written.2 with
    | .error e => (written.1, .error e)
    | .ok () =>
        match outcome with
        | .accepted => (written.1, .ok (.ok true))
        | .rejected =>
            let released := S.releaseJobUnlocked removal request.jobId written.1
            (released.1, released.2.map fun _ => .ok false)
        | .raises =>
            let released := S.releaseJobUnlocked removal request.jobId written.1
            (released.1, .error ⟨"the commit raised"⟩)

/-- `release_inactive_reservations`. -/
def releaseInactiveReservations (removal : Removal) (activeJobIds : List JobId)
    (t : LeaseFiles) : LeaseFiles × Except Raised Unit :=
  S.removeLeases removal (fun f => f.jobId ∉ activeJobIds) t

/-- `release_orphan_reservations`, where some paths exist. -/
def releaseOrphanReservations (removal : Removal) (pathExists : String → Bool)
    (t : LeaseFiles) : LeaseFiles × Except Raised Unit :=
  S.removeLeases removal (fun f => f.ownerPath.any fun path => path ≠ "" && !pathExists path) t

end FileResourceLeaseStore

-- ============================================================== histories

/-- A call of the store with what the outside decides about it. -/
inductive LeaseCall where
  | tryAcquire (request : LeaseRequest) (failing : Option Nat)
  | admitWithLeases (request : LeaseRequest) (failing : Option Nat) (outcome : CommitOutcome)
      (removal : Removal)
  | releaseJob (jobId : JobId) (removal : Removal)
  | releaseInactive (activeJobIds : List JobId) (removal : Removal)
  | releaseOrphans (pathExists : String → Bool) (removal : Removal)

/-- The request of a call that asks for resources. -/
def LeaseCall.request? : LeaseCall → Option LeaseRequest
  | .tryAcquire request _ | .admitWithLeases request _ _ _ => some request
  | _ => none

namespace FileResourceLeaseStore

variable (S : FileResourceLeaseStore)

/-- The files after a call. -/
def step (t : LeaseFiles) : LeaseCall → LeaseFiles
  | .tryAcquire request failing => (S.tryAcquire failing request t).1
  | .admitWithLeases request failing outcome removal =>
      (S.admitWithLeases failing outcome removal request t).1
  | .releaseJob jobId removal => (S.releaseJobUnlocked removal jobId t).1
  | .releaseInactive active removal => (S.releaseInactiveReservations removal active t).1
  | .releaseOrphans pathExists removal => (S.releaseOrphanReservations removal pathExists t).1

/-- The calls of a history, each with the files before it. -/
def callsFrom (t : LeaseFiles) : List LeaseCall → List (LeaseFiles × LeaseCall)
  | [] => []
  | call :: rest => (t, call) :: callsFrom (S.step t call) rest

end FileResourceLeaseStore

end OpenTulid
