/-
Source transport on file trees: the containment-safe operations of
`pathops`, and the copies of the artifact store.

Every function is the sequence of calls its source makes, so a crash can
fall between any two of them. Paths are below an admitted root; the trees
hold no links, so the refusals to follow one never fire here.
-/
import OpenTulid.World

namespace OpenTulid

/-- The error of a path operation: a path that changed type, or a failed
call. -/
inductive FsError where
  | sourcePath (text : String)
  | os (e : Errno)
  deriving DecidableEq, Repr

/-- Opening the parent directory of a path. -/
def openParent (t : FileTree) (p : RelPath) : Except Errno Unit :=
  match p.dropLast.inits.find? fun q => t.node q ≠ some .dir with
  | none => .ok ()
  | some q => if t.node q = none then .error .enoent else .error .enotdir

/-- Unlink a regular file: whether one was removed. -/
def unlinkRegularNofollow (root : Root) (p : RelPath) :
    Proc (Except FsError Bool) := do
  let t ← read (·.tree root)
  match openParent t p with
  | .error .enoent => return .ok false
  | .error e => return .error (.os e)
  | .ok () =>
      match t.node p with
      | none => return .ok false
      | some .dir => return .error (.sourcePath
          "Cannot delete changed entry: target is not a regular file")
      | some (.file _) =>
          match ← perform (.fs root (.unlink p)) with
          | .error e => return .error (.os e)
          | .ok () => return .ok true

/-- Remove an empty directory: whether one was removed. -/
def rmdirIfEmptyNofollow (root : Root) (p : RelPath) :
    Proc (Except FsError Bool) := do
  let t ← read (·.tree root)
  match openParent t p with
  | .error .enoent => return .ok false
  | .error e => return .error (.os e)
  | .ok () =>
      match t.node p with
      | none => return .ok false
      | some (.file _) => return .ok false
      | some .dir =>
          match ← perform (.fs root (.rmdir p)) with
          | .error _ => return .error (.sourcePath
              "Cannot replace non-empty directory with a file")
          | .ok () => return .ok true

/-- Open the directories of a path one after the other, creating those
that are missing. -/
def openDirs (root : Root) : List RelPath → Proc (Except FsError Unit)
  | [] => return .ok ()
  | q :: rest => do
      let t ← read (·.tree root)
      match t.node q with
      | some .dir => openDirs root rest
      | some (.file _) => return .error (.os .enotdir)
      | none =>
          match ← perform (.fs root (.mkdir q)) with
          | .error e => return .error (.os e)
          | .ok () => openDirs root rest

/-- Open or create the parent directories of a target. -/
def openTargetParents (root : Root) (p : RelPath) : Proc (Except FsError Unit) :=
  openDirs root p.dropLast.inits

/-- Write the blocks of a content to the opened file. -/
def writeBlocks (root : Root) (p : RelPath) : List Content →
    Proc (Except FsError Unit)
  | [] => return .ok ()
  | block :: rest => do
      match ← perform (.fs root (.append p block)) with
      | .error e => return .error (.os e)
      | .ok () => writeBlocks root p rest

/-- The regular file a source names, when it is one. -/
def readSource (d : Data) (s : SourcePath) : Except FsError FileImage :=
  match (d.storages s.storage).node s.path with
  | some (.file f) => .ok f
  | some .dir => .error (.sourcePath
      "Unsupported source filesystem entry (expected a regular file)")
  | none => .error (.os .enoent)

/-- Copy a regular file of a sealed storage to a target: create or
truncate it, give it its mode, fill it. -/
def copyRegularNofollow (E : Env) (source : SourcePath) (root : Root)
    (target : RelPath) (mode : Option Mode) : Proc (Except FsError Unit) := do
  match ← read fun d => readSource d source with
  | .error e => return .error e
  | .ok f =>
      let effectiveMode := mode.getD f.mode
      match ← openTargetParents root target with
      | .error e => return .error e
      | .ok () =>
          match ← perform (.fs root (.openTrunc target (E.createMode effectiveMode))) with
          | .error e => return .error (.os e)
          | .ok () =>
              match ← perform (.fs root (.fchmod target effectiveMode)) with
              | .error e => return .error (.os e)
              | .ok () => writeBlocks root target (E.blocks f.content)

/-- `shutil.copy2` into the artifact store: into the target, or into the
directory it is, filled first and given its mode last. -/
def copy2 (E : Env) (source : SourcePath) (root : Root) (target : RelPath) :
    Proc (Except FsError Unit) := do
  match ← read fun d => readSource d source with
  | .error e => return .error e
  | .ok f =>
      let t ← read (·.tree root)
      let dst := if t.node target = some .dir
        then target ++ source.path.getLast?.toList else target
      match ← perform (.fs root (.openTrunc dst (E.createMode 0o666))) with
      | .error e => return .error (.os e)
      | .ok () =>
          match ← writeBlocks root dst (E.blocks f.content) with
          | .error e => return .error e
          | .ok () =>
              match ← perform (.fs root (.fchmod dst f.mode)) with
              | .error e => return .error (.os e)
              | .ok () => return .ok ()

end OpenTulid
