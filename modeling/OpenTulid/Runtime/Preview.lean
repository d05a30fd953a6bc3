/-
The comparison of a prompt preview with the packet that was frozen for a job.

A packet may carry the id of its job in a header line. The comparison writes one
id into every header of both texts (`normalizeEphemeralCompletionFields`) and
takes the texts for the same if nothing else differs. A header is found the way
the regular expression `^Job:\s+\S+$` finds it, in one scan over the text: its
blanks may be line breaks.
-/
import OpenTulid.Runtime.Prompts

namespace OpenTulid.Frozen.Prompt

open Standard (isSpace)

/-- `PREVIEW_JOB_ID` -/
def previewJobId : String := "PROMPT_PREVIEW"

/-- The length of the header that a text begins with, at the beginning of a line. -/
def headerLength (text : Text) : Option Nat :=
  let space := (text.drop 4).takeWhile isSpace
  let word := ((text.drop 4).dropWhile isSpace).takeWhile (!isSpace ·)
  let tail := ((text.drop 4).dropWhile isSpace).dropWhile (!isSpace ·)
  if text.take 4 = "Job:".toList ∧ space ≠ [] ∧ word ≠ [] ∧ (tail = [] ∨ tail.head? = some '\n') then
    some (4 + space.length + word.length)
  else none

/-- The substitution, in one scan: the number counts characters of a header that
are left, and the flag says whether a line begins. -/
def replaceHeaders (header : Text) : Nat → Bool → Text → Text
  | _, _, [] => []
  | left + 1, _, c :: rest => replaceHeaders header left (c = '\n') rest
  | 0, start, c :: rest =>
      match if start then headerLength (c :: rest) else none with
      | some length => header ++ replaceHeaders header (length - 1) (c = '\n') rest
      | none => c :: replaceHeaders header 0 (c = '\n') rest

/-- `normalize_ephemeral_completion_fields` -/
def normalizeEphemeralCompletionFields (packet : Text) (jobId : String) : Text :=
  replaceHeaders ("Job: ".toList ++ jobId.toList) 0 true packet

/-- What `_compare_preview_to_scheduled` takes for a match: the packets, and the
digests of the contracts where both are there. -/
def previewMatches (rendered scheduled : Text) (renderedSha scheduledSha : Option String) : Bool :=
  let packetMatch : Bool := normalizeEphemeralCompletionFields rendered previewJobId =
    normalizeEphemeralCompletionFields scheduled previewJobId
  let contractMatch : Option Bool :=
    match renderedSha, scheduledSha with
    | some rendered, some scheduled => some (rendered = scheduled)
    | _, _ => none
  packetMatch && contractMatch ≠ some false

end OpenTulid.Frozen.Prompt
