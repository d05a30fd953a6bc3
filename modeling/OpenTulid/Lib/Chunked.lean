/-
The chunked transfer coding: a body as a series of chunks, each under a line
with its size, then a last chunk of size zero and the trailers.

A `Frame` is one chunk with its line, an `Ending` what follows the last one,
an `Encoding` the whole. They carry what makes them well formed: the digits
spell the length of the data, an extension starts with a semicolon, no line
has a line break inside.
-/
import OpenTulid.Lib.PyInt
import Mathlib.Data.List.TakeWhile

namespace Chunked

abbrev Bytes := List UInt8

/-- The bytes of a text, as numbers. -/
def codes (bytes : Bytes) : List Nat := bytes.map UInt8.toNat

/-- The end of a line. -/
def crlf : Bytes := [13, 10]

/-- No line break. -/
def Unbroken (bytes : Bytes) : Prop := ∀ c ∈ bytes, c ≠ 13 ∧ c ≠ 10

/-- Chunk extensions: nothing, or whatever follows a semicolon. -/
def IsExtension (ext : Bytes) : Prop :=
  ext = [] ∨ ∃ blanks rest, ext = blanks ++ 59 :: rest ∧
    (∀ c ∈ blanks, c = 32 ∨ c = 9) ∧ Unbroken rest

/-- A chunk. -/
structure Frame where
  size : Bytes
  ext : Bytes
  data : Bytes
  plain : PyInt.Plain 16 (codes size)
  extension : IsExtension ext
  length : PyInt.value 16 (codes size) = data.length
  nonempty : data ≠ []

namespace Frame

/-- The line of a chunk. -/
def line (f : Frame) : Bytes := f.size ++ f.ext ++ crlf

def bytes (f : Frame) : Bytes := f.line ++ f.data ++ crlf

end Frame

/-- The last chunk and the trailers. -/
structure Ending where
  zeros : Bytes
  ext : Bytes
  trailers : List Bytes
  zero : zeros ≠ [] ∧ ∀ c ∈ zeros, c = 48
  extension : IsExtension ext
  unbroken : ∀ t ∈ trailers, t ≠ [] ∧ Unbroken t

namespace Ending

/-- The line of the last chunk. -/
def line (e : Ending) : Bytes := e.zeros ++ e.ext ++ crlf

def bytes (e : Ending) : Bytes := e.line ++ (e.trailers.flatMap (· ++ crlf) ++ crlf)

end Ending

/-- A body in chunks. -/
structure Encoding where
  frames : List Frame
  ending : Ending

namespace Encoding

def bytes (e : Encoding) : Bytes := e.frames.flatMap Frame.bytes ++ e.ending.bytes

/-- The body it stands for. -/
def body (e : Encoding) : Bytes := e.frames.flatMap Frame.data

end Encoding

end Chunked
