/-
The sessions of the model proxy, kept in a dictionary or in a folder.

# The two stores

`dictStep` and `fileStep` perform the calls of a store (`Op`), each at the
reading of its clock. The dictionary is a `Store`; the folder is a directory
of a file system with links, and a token given to `get` is the name of a file
in it, as text: `sessionPath` reads it as a path, which need not stay in the
folder.

# Sessions

A token is drawn by the store when it issues a session, so `Op.issue` carries
what is drawn; the folder draws again while the file is there. Moments are
counted in microseconds.
-/
import OpenTulid.Lib.Links
import OpenTulid.Lib.PosixPath
import OpenTulid.Lib.Store
import Mathlib.Data.String.Basic

namespace OpenTulid.ModelProxy

open Links (Disk Place)

-- =============================================================== sessions

/-- What the stores use of `datetime`. -/
structure Datetime where
  isoformat : Int → String
  /-- a text without a zone is read in UTC; `none` is a `ValueError` -/
  fromisoformat : String → Option Int
  fromisoformat_isoformat : ∀ moment, fromisoformat (isoformat moment) = some moment

/-- `ModelProxySession` -/
structure Session where
  token : String
  jobId : String
  workerId : String
  proxyId : String
  resourceId : String
  attemptId : Option String
  issuedAt : Option String
  expiresAt : Option String
  deriving DecidableEq

/-- `SessionStatus` -/
inductive SessionStatus where
  | valid
  | expired
  | unknown
  deriving DecidableEq

/-- The arguments of `issue`. -/
structure Request where
  jobId : String
  workerId : String
  proxyId : String
  resourceId : String
  attemptId : Option String
  expiresAt : Option String

section Sessions

variable (py : Datetime)

/-- `ModelProxySession.expired` -/
def Session.expired (session : Session) (now : Int) : Bool :=
  match session.expiresAt with
  | none => false
  | some text =>
      match py.fromisoformat text with
      | none => true
      | some expiry => expiry ≤ now

/-- `_new_session` -/
def newSession (ttl : Int) (token : String) (request : Request) (now : Int) : Session where
  token := token
  jobId := request.jobId
  workerId := request.workerId
  proxyId := request.proxyId
  resourceId := request.resourceId
  attemptId := request.attemptId
  issuedAt := some (py.isoformat now)
  expiresAt :=
    match request.expiresAt with
    | none | some "" => some (py.isoformat (now + ttl))
    | some text => some text

end Sessions

-- ================================================================== calls

/-- A call of a store. -/
inductive Op where
  /-- a session under the first of the drawn tokens, or a later one -/
  | issue (token : String) (later : List String) (request : Request)
  | get (token : String)
  | revokeJob (jobId : String)
  | revokeAttempt (attemptId : Option String)

/-- What a call answers. -/
inductive Answer where
  | issued (session : Session)
  | found (status : SessionStatus) (session : Option Session)
  | done
  /-- an exception that the store lets through -/
  | raised
  /-- no drawn token is free -/
  | drawing
  deriving DecidableEq

/-- A call of a store at a reading of its clock. -/
abbrev History := List (Int × Op)

/-- The calls one after the other. -/
def run {S : Type} (step : Op → Int → S → S × Answer) : S → History → S × List Answer
  | s, [] => (s, [])
  | s, (now, op) :: rest =>
      let (s', answer) := step op now s
      let (final, answers) := run step s' rest
      (final, answer :: answers)

-- ========================================================= the dictionary

/-- `_sessions` -/
abbrev Sessions := Store String Session

section Dictionary

variable (py : Datetime) (ttl : Int)

/-- `ModelProxySessionStore.get` -/
def dictGet (token : String) (now : Int) (sessions : Sessions) : Sessions × Answer :=
  match sessions.get token with
  | none => (sessions, .found .unknown none)
  | some session =>
      if session.expired py now then (sessions.erase token, .found .expired session)
      else (sessions, .found .valid session)

/-- A call of `ModelProxySessionStore`. -/
def dictStep : Op → Int → Sessions → Sessions × Answer
  | .issue token _ request, now, sessions =>
      let session := newSession py ttl token request now
      (sessions.put token session, .issued session)
  | .get token, now, sessions => dictGet py token now sessions
  | .revokeJob jobId, _, sessions =>
      (sessions.filter fun session => session.jobId ≠ jobId, .done)
  | .revokeAttempt none, _, sessions => (sessions, .done)
  | .revokeAttempt (some attemptId), _, sessions =>
      if attemptId = "" then (sessions, .done)
      else (sessions.filter fun session => session.attemptId ≠ some attemptId, .done)

end Dictionary

-- ============================================================= the folder

/-- What a file holds. -/
inductive FileText where
  /-- the JSON of a session -/
  | session (session : Session)
  /-- a text that is no JSON, or not of a session -/
  | other
  /-- bytes that are no UTF-8 -/
  | notUtf8
  deriving DecidableEq

/-- The folder of a store: a directory without links on its way. -/
structure FileStore (root : Place) where
  disk : Disk FileText
  isDir : disk.node root = some .dir
  plain : disk.Plain root

/-- The character that no path may hold. -/
def nul : Char := Char.ofNat 0

/-- `f"{token}.json"` -/
def fileName (token : String) : String := token ++ ".json"

/-- `self.root / f"{token}.json"` -/
def sessionPath (root : Place) (token : String) : List String :=
  if PosixPath.isAbsolute (fileName token) then PosixPath.parts (fileName token)
  else root ++ PosixPath.parts (fileName token)

namespace FileStore

variable {root : Place}

/-- The store with files removed. -/
def removeWhere (s : FileStore root) (gone : Place → Bool) : FileStore root where
  disk := s.disk.removeWhere gone
  isDir := by rw [Disk.node_removeWhere, s.isDir]
  plain := s.plain.removeWhere gone

/-- `path.unlink(missing_ok=True)` of a path that leads to a file; its last
name is not followed. -/
def unlink (s : FileStore root) (path : List String) : FileStore root :=
  match path.getLast?, s.disk.follow path.dropLast with
  | some name, .ok up => s.removeWhere fun p => p = up ++ [name]
  | _, _ => s

/-- The session in a file of the folder whose name `*.json` matches. -/
def sessionAt (s : FileStore root) (p : Place) : Option Session :=
  if p.dropLast = root ∧ p.getLast?.any (fun name => ".json".toList.isSuffixOf name.toList) then
    match s.disk.node p with
    | some (.file (.session session)) => some session
    | _ => none
  else none

/-- The files of the sessions that meet a condition are removed. -/
def revoke (s : FileStore root) (meets : Session → Bool) : FileStore root :=
  s.removeWhere fun p => (s.sessionAt p).any meets

/-- The file of a session is written, over what is there unless that is a
directory. -/
def save (s : FileStore root) (session : Session) : Option (FileStore root) :=
  let p := root ++ [fileName session.token]
  if h : s.disk.node p = some .dir then none
  else
    have hup : s.disk.node p.dropLast = some .dir := by
      rw [List.dropLast_concat]
      exact s.isDir
    have hbehind : ∀ q, q <+: root → q ≠ p := by
      intro q hq heq
      have := hq.length_le
      rw [heq, List.length_append, List.length_singleton] at this
      omega
    some {
      disk := s.disk.put p (.file (.session session)) (by simp [p]) hup h
      isDir := by
        rw [Disk.node_put, if_neg (hbehind root (List.prefix_refl _))]
        exact s.isDir
      plain := s.plain.put (by simp [p]) hup h fun hp => hbehind p hp rfl }

end FileStore

section Folder

variable (py : Datetime) (ttl : Int) {root : Place}

/-- `FileModelProxySessionStore.get` -/
def fileGet (token : String) (now : Int) (s : FileStore root) : FileStore root × Answer :=
  if nul ∈ token.toList then (s, .raised)
  else
    match s.disk.readFile (sessionPath root token) with
    | none | some .other => (s, .found .unknown none)
    | some .notUtf8 => (s, .raised)
    | some (.session session) =>
        if session.expired py now then
          (s.unlink (sessionPath root token), .found .expired session)
        else (s, .found .valid session)

/-- `FileModelProxySessionStore.issue` -/
def fileIssue (tokens : List String) (request : Request) (now : Int) (s : FileStore root) :
    FileStore root × Answer :=
  match tokens.find? fun token => !s.disk.pathExists (sessionPath root token) with
  | none => (s, .drawing)
  | some token =>
      let session := newSession py ttl token request now
      match s.save session with
      | none => (s, .raised)
      | some s' => (s', .issued session)

/-- A call of `FileModelProxySessionStore`. -/
def fileStep : Op → Int → FileStore root → FileStore root × Answer
  | .issue token later request, now, s => fileIssue py ttl (token :: later) request now s
  | .get token, now, s => fileGet py token now s
  | .revokeJob jobId, _, s => (s.revoke fun session => session.jobId = jobId, .done)
  | .revokeAttempt none, _, s => (s, .done)
  | .revokeAttempt (some attemptId), _, s =>
      if attemptId = "" then (s, .done)
      else (s.revoke fun session => session.attemptId = some attemptId, .done)

end Folder

end OpenTulid.ModelProxy
