/-
The writes of several tracker files at once.

# The calls

`writePrepared` is a program of system calls (`Call`) on a file tree. A
`Host` says which calls fail, which random names `mkstemp` tries and in which
blocks a text reaches its file. The list of paths is taken from the root of
the file system, in which no links stand.

# The three lists

The body keeps the temporary files made so far, the original bytes read so
far and the originals of the targets replaced so far (`Progress`). They
outlive an `OSError`, so the exception of the body carries them
(`Interrupted`) to the handler, `rollback`, which restores the replaced
targets from the last to the first and removes the temporary files.
-/
import OpenTulid.Lib.Prog
import OpenTulid.Lib.Tree

namespace OpenTulid.PreparedWrites

-- ================================================================== calls

/-- A system call. -/
inductive Call where
  | mkdir (path : RelPath)
  | isDir (path : RelPath)
  | exists (path : RelPath)
  | readBytes (path : RelPath)
  /-- a new file of a random name in a directory -/
  | mkstemp (dir : RelPath) (base : String)
  /-- the stream over the descriptor that `mkstemp` gave -/
  | fdopen (path : RelPath)
  | openBytes (path : RelPath)
  | write (path : RelPath) (block : Content)
  | close (path : RelPath)
  | replace (src dst : RelPath)
  | unlink (path : RelPath)

/-- What a call that succeeds answers. -/
abbrev Call.Value : Call → Type
  | .isDir _ | .exists _ => Bool
  | .readBytes _ => Content
  | .mkstemp _ _ => RelPath
  | _ => Unit

/-- The answer of a call: a value or an `OSError`. -/
abbrev Call.Answer (call : Call) : Type := Except Errno call.Value

/-- A host. -/
structure Host where
  /-- the calls that fail, by their number, whatever the tree holds -/
  fault : Nat → Option Errno
  /-- the random parts that `mkstemp` tries, by the number of the call -/
  drawn : Nat → List String
  /-- the blocks in which the bytes of a text are written -/
  blocks : Content → List Content
  blocks_flatten : ∀ content, (blocks content).flatten = content
  /-- `str` of an `OSError` -/
  errorText : Errno → String

/-- A file tree and the number of calls made so far. -/
structure Machine where
  tree : FileTree
  calls : Nat

/-- The name that `mkstemp` makes of a prefix, a random part and a suffix. -/
def tempPath (dir : RelPath) (base random : String) : RelPath :=
  dir ++ ["." ++ base ++ "." ++ random ++ ".tmp"]

/-- A call that changes the tree, or leaves it and answers the error. -/
def changing (t : FileTree) : Except Errno FileTree → FileTree × Except Errno Unit
  | .ok t' => (t', .ok ())
  | .error e => (t, .error e)

/-- What a call does to the tree. -/
def Call.perform (drawn : List String) : (call : Call) → FileTree → FileTree × call.Answer
  | .mkdir path, t => changing t (t.write (.mkdir path))
  | .isDir path, t => (t, .ok (t.node path = some .dir))
  | .exists path, t => (t, .ok (t.node path).isSome)
  | .readBytes path, t =>
      match t.node path with
      | some (.file f) => (t, .ok f.content)
      | some .dir => (t, .error .eisdir)
      | none => (t, .error (t.missing path.dropLast))
  | .mkstemp dir base, t =>
      match (drawn.map (tempPath dir base)).find? fun p => (t.node p).isNone with
      | none => (t, .error .eexist)
      | some p =>
          match t.write (.openTrunc p 0o600) with
          | .ok t' => (t', .ok p)
          | .error e => (t, .error e)
  | .fdopen _, t => (t, .ok ())
  | .openBytes path, t => changing t (t.write (.openTrunc path 0o644))
  | .write path block, t => changing t (t.write (.append path block))
  | .close _, t => (t, .ok ())
  | .replace src dst, t => changing t (t.replace src dst)
  | .unlink path, t => changing t (t.write (.unlink path))

/-- A call on the host. -/
def Host.exec (host : Host) (call : Call) (m : Machine) : Machine × call.Answer :=
  match host.fault m.calls with
  | some e => (⟨m.tree, m.calls + 1⟩, .error e)
  | none =>
      let done := call.perform (host.drawn m.calls) m.tree
      (⟨done.1, m.calls + 1⟩, done.2)

/-- A program that may raise `ε`. -/
abbrev Sys (ε α : Type) := Prog Call Call.Answer ε α

/-- A call whose error is raised. -/
def attempt (call : Call) : Sys Errno call.Value :=
  .op call fun
    | .ok value => .ret value
    | .error e => .raise e

/-- `try: … except OSError: pass`. -/
def quietly {ε : Type} (p : Sys Errno Unit) : Sys ε Unit := p.handle fun _ => .ret ()

/-- One call of `Path.mkdir`: what to do where a directory above is missing
is `missing`. -/
def mkdirOr (path : RelPath) (missing : Sys Errno Unit) : Sys Errno Unit :=
  .op (.mkdir path) fun
    | .ok _ => .ret ()
    | .error .enoent => missing
    | .error e => .op (.isDir path) fun
        | .ok true => .ret ()
        | _ => .raise e

/-- `Path.mkdir(parents=True, exist_ok=True)` of a path given from its last
name up. -/
def mkdirUp : List String → Sys Errno Unit
  | [] => mkdirOr [] (.raise .enoent)
  | name :: up =>
      let path := (name :: up).reverse
      mkdirOr path (mkdirUp up >>= fun _ => mkdirOr path (.raise .enoent))

/-- `Path.mkdir(parents=True, exist_ok=True)`. -/
def mkdirParents (path : RelPath) : Sys Errno Unit := mkdirUp path.reverse

-- ================================================================= writes

/-- `_PreparedWrite`. -/
structure PreparedWrite where
  path : RelPath
  content : String

/-- The bytes of a text in UTF-8. -/
def encode (text : String) : Content := text.toUTF8.toList

/-- A target with its original bytes, if it had any. -/
abbrev Original := RelPath × Option Content

/-- What the body of the `try` has done so far. -/
structure Progress where
  tempPaths : List RelPath := []
  originals : List Original := []
  replaced : List Original := []

/-- An `OSError` of the body, with what was done before it. -/
structure Interrupted where
  error : Errno
  progress : Progress

/-- Calls of the body, made when `progress` was done. -/
def during {α : Type} (progress : Progress) (p : Sys Errno α) : Sys Interrupted α :=
  p.handle fun e => .raise ⟨e, progress⟩

/-- `write.path.read_bytes() if write.path.exists() else None`, in an
existing directory. -/
def readOriginal (path : RelPath) : Sys Errno (Option Content) := do
  mkdirParents path.dropLast
  if ← attempt (.exists path) then
    let bytes ← attempt (.readBytes path)
    pure (some bytes)
  else
    pure none

/-- The blocks of a file one after the other. -/
def writeBlocks (path : RelPath) : List Content → Sys Errno Unit
  | [] => .ret ()
  | block :: rest => do
      attempt (.write path block)
      writeBlocks path rest

/-- The temporary file is filled. -/
def fill (host : Host) (temp : RelPath) (content : String) : Sys Errno Unit := do
  attempt (.fdopen temp)
  writeBlocks temp (host.blocks (encode content))
  attempt (.close temp)

/-- One round of the first loop. -/
def prepare (host : Host) (progress : Progress) (write : PreparedWrite) :
    Sys Interrupted Progress := do
  let original ← during progress (readOriginal write.path)
  let progress := { progress with originals := progress.originals ++ [(write.path, original)] }
  let temp ← during progress
    (attempt (.mkstemp write.path.dropLast (write.path.getLast?.getD "")))
  let progress := { progress with tempPaths := progress.tempPaths ++ [temp] }
  during progress (fill host temp write.content)
  pure progress

/-- The first loop. -/
def prepareAll (host : Host) : List PreparedWrite → Progress → Sys Interrupted Progress
  | [], progress => .ret progress
  | write :: rest, progress => do
      let progress ← prepare host progress write
      prepareAll host rest progress

/-- The second loop, over what `zip` gives. -/
def replaceAll : List (PreparedWrite × RelPath × Original) → Progress →
    Sys Interrupted Progress
  | [], progress => .ret progress
  | (write, temp, original) :: rest, progress => do
      during progress (attempt (.replace temp write.path))
      replaceAll rest { progress with replaced := progress.replaced ++ [original] }

/-- The body of the `try`. -/
def body (host : Host) (writes : List PreparedWrite) : Sys Interrupted Progress := do
  let progress ← prepareAll host writes {}
  replaceAll (writes.zip (progress.tempPaths.zip progress.originals)) progress

-- =============================================================== rollback

/-- A replaced target gets its original bytes back, or goes. -/
def restore (host : Host) : Original → Sys Errno Unit
  | (path, none) => do
      if ← attempt (.exists path) then attempt (.unlink path) else pure ()
  | (path, some bytes) => do
      attempt (.openBytes path)
      writeBlocks path (host.blocks bytes)
      attempt (.close path)

/-- A temporary file that is still there is removed. -/
def removeTemp (temp : RelPath) : Sys Errno Unit := do
  if ← attempt (.exists temp) then attempt (.unlink temp) else pure ()

/-- One step after the other, each of which may fail. -/
def eachQuietly {β ε : Type} (step : β → Sys Errno Unit) : List β → Sys ε Unit
  | [] => .ret ()
  | b :: rest => do
      quietly (step b)
      eachQuietly step rest

/-- The handler of the `OSError`, up to its answer. -/
def rollback {ε : Type} (host : Host) (progress : Progress) : Sys ε Unit := do
  eachQuietly (restore host) progress.replaced.reverse
  eachQuietly removeTemp progress.tempPaths

/-- An error of the adapter. -/
structure WriteError where
  code : String
  message : String
  path : Option RelPath
  deriving DecidableEq

/-- `WriteResult`. -/
structure WriteResult where
  path : Option RelPath := none
  errors : List WriteError := []
  deriving DecidableEq

/-- The path of the last write. -/
def lastPath (writes : List PreparedWrite) : Option RelPath :=
  writes.getLast?.map (·.path)

/-- The answer to an `OSError`. -/
def failed (host : Host) (writes : List PreparedWrite) (e : Errno) : WriteResult where
  errors := [⟨"file.write_failed", s!"Cannot write files: {host.errorText e}", lastPath writes⟩]

/-- `ObsidianAdapter._write_prepared`. No exception leaves it. -/
def writePrepared (host : Host) (writes : List PreparedWrite) : Sys Empty WriteResult :=
  (body host writes >>= fun _ => .ret { path := lastPath writes }).handle fun interrupted => do
    rollback host interrupted.progress
    .ret (failed host writes interrupted.error)

end OpenTulid.PreparedWrites
