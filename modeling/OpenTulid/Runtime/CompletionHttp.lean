/-
The completion endpoint: how the body of a request is read.

A body is read by its Content-Length or in chunks. The stream is a buffered
reader over the connection: `read` of a negative size reads to the end, or
raises below minus one. `Reading` keeps what was asked of the stream as
payload beside the outcome.

Headers are Latin-1, as the server decodes them.
-/
import OpenTulid.Contract.Standard
import OpenTulid.Lib.Chunked

namespace OpenTulid.Http

open Chunked (Bytes codes crlf)

-- ================================================================ streams

/-- `readline` with a limit: the line and what is left. -/
def readline : (limit : Nat) → Bytes → Bytes × Bytes
  | 0, s => ([], s)
  | _ + 1, [] => ([], [])
  | limit + 1, c :: s =>
      if c = 10 then ([c], s)
      else ((c :: (readline limit s).1), (readline limit s).2)

/-- `read`: the bytes and what is left. -/
def read (size : Int) (s : Bytes) : Except String (Bytes × Bytes) :=
  if size < -1 then .error "read length must be non-negative or -1"
  else if size = -1 then .ok (s, [])
  else .ok (s.take size.toNat, s.drop size.toNat)

/-- A line and the rest make up the stream. -/
theorem readline_append (limit : Nat) (s : Bytes) :
    (readline limit s).1 ++ (readline limit s).2 = s := by
  induction limit generalizing s with
  | zero => rfl
  | succ limit ih =>
      cases s with
      | nil => rfl
      | cons c s =>
          rw [readline]
          split
          next => rfl
          next => exact congrArg (c :: ·) (ih s)

/-- A line that is not empty takes something from the stream. -/
theorem length_readline_lt {limit : Nat} {s : Bytes} (h : (readline limit s).1 ≠ []) :
    (readline limit s).2.length < s.length := by
  have hlength := congrArg List.length (readline_append limit s)
  rw [List.length_append] at hlength
  have hpos := List.length_pos_of_ne_nil h
  omega

theorem length_read_le {size : Int} {s chunk rest : Bytes} (h : read size s = .ok (chunk, rest)) :
    rest.length ≤ s.length := by
  unfold read at h
  split at h
  next => cases h
  next =>
    split at h
    next =>
      cases h
      exact Nat.zero_le _
    next =>
      cases h
      rw [List.length_drop]
      exact Nat.sub_le _ _

-- ================================================================= bodies

/-- How a read ends. -/
inductive Outcome where
  | body (bytes : Bytes)
  | error (code message : String)
  /-- an exception of the stream -/
  | raised (text : String)
  deriving DecidableEq, Repr

/-- A read of a body. -/
structure Reading where
  outcome : Outcome
  /-- the sizes asked of the stream as payload, in order -/
  asked : List Int
  /-- what is left of the stream -/
  rest : Bytes

/-- The headers a read looks at. -/
structure Headers where
  transferEncoding : Option String
  contentLength : Option String

/-- The blanks of bytes. -/
def byteSpace (code : Nat) : Bool := (9 ≤ code && code ≤ 13) || code = 32

/-- The size in the line of a chunk. -/
def chunkSize (line : Bytes) : Option Int :=
  PyInt.intOf byteSpace 16 (codes (line.takeWhile (· ≠ 59)))

def malformed (message : String) : Outcome := .error "completion.chunked_malformed" message

def tooLarge : Outcome :=
  .error "completion.payload_too_large" "Completion payload exceeds 1 MiB."

/-- Consume the trailer headers. -/
def skipTrailers (s : Bytes) : Bytes :=
  if h : (readline 1024 s).1 ∈ [crlf, [10], []] then (readline 1024 s).2
  else skipTrailers (readline 1024 s).2
termination_by s.length
decreasing_by exact length_readline_lt fun hnil => h (by simp [hnil])

/-- `_read_chunked_body`, with what it has of the body. -/
def readChunkedBody (maxBytes : Nat) (body s : Bytes) : Reading :=
  let line := (readline 1024 s).1
  let rest := (readline 1024 s).2
  if hline : line = [] then
    ⟨malformed "Chunked completion payload ended before the final chunk.", [], rest⟩
  else match chunkSize line with
    | none => ⟨malformed "Chunked completion payload has an invalid chunk size.", [], rest⟩
    | some size =>
        if size = 0 then ⟨.body body, [], skipTrailers rest⟩
        else if (body.length : Int) + size > maxBytes then ⟨tooLarge, [], rest⟩
        else match hread : read size rest with
          | .error text => ⟨.raised text, [size], rest⟩
          | .ok (chunk, after) =>
              if (chunk.length : Int) ≠ size then
                ⟨malformed "Chunked completion payload ended inside a chunk.", [size], after⟩
              else if after.take 2 ≠ crlf then
                ⟨malformed "Chunked completion payload is missing a chunk terminator.", [size],
                  after.drop 2⟩
              else
                let later := readChunkedBody maxBytes (body ++ chunk) (after.drop 2)
                { later with asked := size :: later.asked }
termination_by s.length
decreasing_by
  have hrest := length_readline_lt hline
  have hafter := length_read_le hread
  have hdrop : (after.drop 2).length ≤ after.length := by
    rw [List.length_drop]
    exact Nat.sub_le _ _
  exact Nat.lt_of_le_of_lt (Nat.le_trans hdrop hafter) hrest

/-- The blanks `int` passes over in a string. -/
def textSpace (code : Nat) : Bool :=
  byteSpace code || (128 ≤ code && Standard.isSpace (Char.ofNat code))

/-- `int` of a header, which gives up on more than 4300 digits. -/
def intOfHeader (text : String) : Option Int :=
  let codes := text.toList.map Char.toNat
  if 4300 < codes.countP fun code => 48 ≤ code && code ≤ 57 then none
  else PyInt.intOf textSpace 10 codes

/-- The encodings a header names. -/
def encodings (lower : String → String) (transferEncoding : String) : List String :=
  ((transferEncoding.toList.splitOn ',').map fun part =>
    Standard.strip (String.ofList part)).filter (· ≠ "") |>.map lower

/-- The request says that its body comes in chunks. -/
def isChunked (lower : String → String) (headers : Headers) : Bool :=
  "chunked" ∈ encodings lower (headers.transferEncoding.getD "")

/-- `_read_request_body`; `lower` is `str.lower`. -/
def readRequestBody (lower : String → String) (headers : Headers) (maxBytes : Nat)
    (s : Bytes) : Reading :=
  if isChunked lower headers then readChunkedBody maxBytes [] s
  else match headers.contentLength with
    | none => ⟨.error "completion.content_length_missing"
        "Completion payload requires Content-Length or Transfer-Encoding: chunked.", [], s⟩
    | some contentLength =>
        match intOfHeader contentLength with
        | none => ⟨.error "completion.content_length_invalid"
            "Content-Length must be an integer.", [], s⟩
        | some length =>
            if length > maxBytes then ⟨tooLarge, [], s⟩
            else match read length s with
              | .error text => ⟨.raised text, [length], s⟩
              | .ok (body, rest) => ⟨.body body, [length], rest⟩

end OpenTulid.Http
