/-
Instruction references: from the names a worker, a task type or a transition
gives to the files under a project's agents folder.

# What is on disk

An `AgentFolder` says for every path below the folder which regular file the
operating system finds there, links followed, and where that file really
lies.
-/
import OpenTulid.Runtime.Context

namespace OpenTulid

/-- What reading a file as UTF-8 gives. -/
inductive TextRead where
  | text (content : String)
  | osError (message : String)
  | undecodable
  deriving DecidableEq, Repr

/-- A regular file: its path with all links followed, and its content. -/
structure AgentFile where
  resolved : RelPath
  content : TextRead
  deriving DecidableEq, Repr

/-- An agents folder: its own path with all links followed, and the regular
files the paths below it lead to. -/
structure AgentFolder where
  root : RelPath
  file? : RelPath → Option AgentFile

/-- `InstructionDocument`. -/
structure InstructionDocument where
  ref : String
  path : RelPath
  content : String
  deriving DecidableEq, Repr

/-- `Path(…).suffix == ".md"`. -/
def hasMarkdownSuffix (path : RelPath) : Bool :=
  match path.getLast? with
  | none => false
  | some name => ".md".toList.isSuffixOf name.toList && 3 < name.length

/-- A reference that does not stay in the folder. -/
def leavesAgents (ref : String) : Bool := isAbsolute ref || ".." ∈ pathParts ref

/-- The paths a reference can mean. -/
def instructionCandidates (ref : String) : List RelPath :=
  if hasMarkdownSuffix (pathParts ref) then [pathParts ref]
  else [pathParts (ref ++ ".agent.md"), pathParts ref]

/-- The text of an absolute path. -/
def pathText (path : RelPath) : String := "/" ++ "/".intercalate path

namespace AgentFolder

/-- The files a reference can mean. -/
def matchesOf (a : AgentFolder) (ref : String) : List AgentFile :=
  (instructionCandidates ref).filterMap a.file?

/-- `_resolve`; the content of a file that is not UTF-8 raises. -/
def resolve (a : AgentFolder) (ref : String) :
    Except Raised (Except DomainError InstructionDocument) :=
  if strip ref = "" then
    .ok (.error ⟨"instructions.invalid_ref", "Instruction reference is empty.", none⟩)
  else if leavesAgents ref then
    .ok (.error ⟨"instructions.invalid_ref",
      s!"Instruction reference must stay inside agents/: {ref}", some ref⟩)
  else match a.matchesOf ref with
  | [file] =>
      if a.root <+: file.resolved then
        match file.content with
        | .text content => .ok (.ok ⟨ref, file.resolved, content⟩)
        | .osError message => .ok (.error ⟨"instructions.read_failed",
            s!"Cannot read instruction file: {message}", some (pathText file.resolved)⟩)
        | .undecodable => .error ⟨"the instruction file is not UTF-8"⟩
      else .ok (.error ⟨"instructions.invalid_ref",
        s!"Instruction reference escapes agents/: {ref}", some ref⟩)
  | [] => .ok (.error ⟨"instructions.not_found",
      s!"Instruction reference must resolve to exactly one agents/*.agent.md file: {ref}",
      some ref⟩)
  | _ => .ok (.error ⟨"instructions.ambiguous",
      s!"Instruction reference must resolve to exactly one agents/*.agent.md file: {ref}",
      some ref⟩)

end AgentFolder

end OpenTulid
