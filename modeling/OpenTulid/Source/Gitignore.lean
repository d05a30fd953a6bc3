/-
One pattern of an ignore file, as the source reads it.

`globRegex` turns the pattern of a path into the text of a regular expression,
piece by piece, and compiles it. `patternMatches` takes the signs off a pattern
that say when it applies, and matches the expression against the path or its
last name. A text that is no regular expression raises, which is `none` here;
`layerMatch` and `gitignoreMatches` read layers and paths with it, up to the
first pattern that raises.

Paths are texts here, as the source has them: `pathText` is the text of a path.
-/
import OpenTulid.Lib.Glob
import OpenTulid.Source.Ignore
import Mathlib.Data.List.DropRight

namespace OpenTulid.Gitignore

open Glob (slashed)

-- ============================================================ one pattern

/-- The loop of `_glob_regex`: the pieces of a pattern; the number counts
characters that the piece before took. -/
def globPieces : Nat → List Char → List (List Char)
  | _, [] => []
  | skip + 1, _ :: rest => globPieces skip rest
  | 0, c :: rest =>
      if c = '*' then
        if rest.head? = some '*' then ['.', '*'] :: globPieces 1 rest
        else ['[', '^', '/', ']', '*'] :: globPieces 0 rest
      else if c = '?' then ['[', '^', '/', ']'] :: globPieces 0 rest
      else if c = '[' then
        match rest.idxOf? ']' with
        | none => ['\\', '['] :: globPieces 0 rest
        | some j => ('[' :: rest.take j ++ [']']) :: globPieces (j + 1) rest
      else Regex.escape c :: globPieces 0 rest

/-- `_glob_regex`, which raises for a text that is no regular expression. -/
def globRegex (pattern : List Char) (anchored : Bool) : Option Regex :=
  let regex := (globPieces 0 pattern).flatten
  Regex.compile (if anchored then '^' :: regex else "^(?:.*/)?".toList ++ regex)

/-- `_pattern_matches` -/
def patternMatches (pattern path : List Char) (isDir : Bool) : Option Bool :=
  let negated := pattern.head? = some '!'
  let body := if negated then pattern.tail else pattern
  let directoryOnly : Bool := body.getLast? = some '/'
  let body := if directoryOnly then body.dropLast else body
  let anchored : Bool := body.head? = some '/'
  let body := if anchored then body.tail else body
  let slash := '/' ∈ body
  let body := body.rdropWhile (· = '/')
  let target := if slash then path else path.rtakeWhile (· ≠ '/')
  let regex :=
    if slash then globRegex body anchored
    else globRegex (if ['*', '*', '/'].isPrefixOf body then body.drop 3 else body) false
  regex.map fun regex =>
    if regex.fullmatch (if target = [] then ['/'] else target) then
      if directoryOnly then isDir else true
    else false

-- ================================================================= layers

/-- The text of a path. -/
def pathText (relative : RelPath) : List Char := slashed (relative.map String.toList)

/-- The patterns of one layer, one after the other. -/
def layerVerdict (relative : RelPath) (isDir : Bool) (matched : Bool) (file : IgnoreFile) :
    Option Bool :=
  if file.baseDir.isPrefixOf relative then
    (patternsOf file.content).foldlM
      (fun matched pattern =>
        (patternMatches pattern.toList (pathText (relative.drop file.baseDir.length)) isDir).map
          fun found => if found then !negated pattern else matched)
      matched
  else some matched

/-- `_layer_match` -/
def layerMatch (ignoreFiles : List IgnoreFile) (relative : RelPath) (isDir : Bool) : Option Bool :=
  ignoreFiles.foldlM (layerVerdict relative isDir) false

/-- `_gitignore_matches` -/
def gitignoreMatches (ignoreFiles : List IgnoreFile) (relative : RelPath) (isDir : Bool) :
    Option Bool :=
  if relative = [] then some false
  else do
    let inside ← (ancestors relative).anyM fun d => layerMatch ignoreFiles d true
    if inside then some true else layerMatch ignoreFiles relative isDir

end OpenTulid.Gitignore
