/-
The ignore files of a source, and the walk over a Git source that leaves
ignored directories out.

A `.gitignore` is a layer: its lines in order, each pattern overriding what
stood before it, the layers from the shallow ones to the deep ones
(`layerMatch`). An ignored directory makes everything below it ignored
(`gitignoreMatches`). `patternMatches` reads one pattern; nothing here
depends on what it answers.

`walkGitDeliverables` is the walk as the source has it, over a directory
tree of regular files whose directories hold their names in order.
-/
import OpenTulid.Contract.Standard
import OpenTulid.Lib.Walk
import OpenTulid.Source.Selection

namespace OpenTulid

-- ================================================================= layers

/-- `str.splitlines`: the characters that end a line; a carriage return
before a line feed ends none of its own. -/
def splitLines (text : String) : List String :=
  let lines := (joined text.toList).splitOnP ended
  ((if lines.getLast? = some [] then lines.dropLast else lines).map String.ofList)
where
  ended (c : Char) : Bool :=
    let n := c.toNat
    (10 ≤ n && n ≤ 13) || (28 ≤ n && n ≤ 30) || n = 0x85 || n = 0x2028 || n = 0x2029
  joined : List Char → List Char
    | [] => []
    | '\r' :: '\n' :: rest => '\n' :: joined rest
    | c :: rest => c :: joined rest

/-- The patterns of an ignore file, in their order. -/
def patternsOf (content : String) : List String :=
  ((splitLines content).map Standard.strip).filter fun pattern =>
    pattern ≠ "" ∧ pattern.toList.head? ≠ some '#'

/-- A pattern that re-includes. -/
def negated (pattern : String) : Bool := pattern.toList.head? = some '!'

section Match

variable (patternMatches : String → RelPath → Bool → Bool)

/-- The patterns of one layer that match, one after the other. -/
def layerVerdict (relative : RelPath) (isDir : Bool) (matched : Bool) (file : IgnoreFile) : Bool :=
  if file.baseDir.isPrefixOf relative then
    (patternsOf file.content).foldl
      (fun matched pattern =>
        if patternMatches pattern (relative.drop file.baseDir.length) isDir then !negated pattern
        else matched)
      matched
  else matched

/-- `_layer_match`. -/
def layerMatch (ignoreFiles : List IgnoreFile) (relative : RelPath) (isDir : Bool) : Bool :=
  ignoreFiles.foldl (layerVerdict patternMatches relative isDir) false

/-- The directories above a path. -/
def ancestors (relative : RelPath) : List RelPath :=
  relative.inits.filter fun d => d ≠ [] ∧ d ≠ relative

/-- `_gitignore_matches`. -/
def gitignoreMatches (ignoreFiles : List IgnoreFile) (relative : RelPath) (isDir : Bool) : Bool :=
  if relative = [] then false
  else if (ancestors relative).any fun d => layerMatch patternMatches ignoreFiles d true then true
  else layerMatch patternMatches ignoreFiles relative isDir

-- ================================================================ the walk

/-- `_walk_git_deliverables`. -/
def walkGitDeliverables (selection : SourceSelection) (root : Dir) : List RelPath :=
  Dir.walk
    (fun relativeDir =>
      !safePruneGitDirectory (gitignoreMatches patternMatches) selection relativeDir)
    (fun relative =>
      if isReservedPath relative then false
      else if relative ∈ selection.trackedPaths then true
      else !ignoredUnknownByRule (gitignoreMatches patternMatches) selection relative false)
    [] root

end Match

end OpenTulid
