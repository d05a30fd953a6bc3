/-
When the body of a request is bounded and its chunks are read exactly.

# The walk

A stream falls into lines and chunks as the reader takes it (`Walk`): a line
of at most 1024 bytes, the size it stands for, that many bytes, the end of a
line. One read follows the walk (`chunkStep`); a run ends where the walk
ends, and accepts where it ends at a size of zero.

# When it is exact

The sizes are read with `int`, which takes more than hexadecimal digits: a
sign, a prefix, underscores. So a negative size asks for the whole stream,
and a stream that is no encoding is accepted where its walk ends at zero
under such lines. A size line of more than 1024 bytes is cut, and what
follows it is taken for the chunk. Away from these the read is exact
(`Orderly`).
-/
import OpenTulid.Runtime.CompletionHttp
import Mathlib.Algebra.Ring.Int.Defs

namespace OpenTulid.Http

open Chunked (Bytes codes crlf Frame Ending Encoding IsExtension Unbroken)

-- ============================================================== the claim

/-- Nothing is asked to the end of the stream, and no more than the bound in
all. -/
structure Asks (maxBytes : Nat) (asked : List Int) : Prop where
  nonneg : ∀ n ∈ asked, 0 ≤ n
  sum_le : asked.sum ≤ maxBytes

/-- A body is within the bound, and so is what was asked for it. -/
structure Bounded (maxBytes : Nat) (r : Reading) : Prop where
  body : ∀ b, r.outcome = .body b → b.length ≤ maxBytes
  asks : Asks maxBytes r.asked

/-- Every encoding of a body within the bound is read as that body. -/
def Decodes (maxBytes : Nat) (s : Bytes) (r : Reading) : Prop :=
  ∀ (e : Encoding) (rest : Bytes), s = e.bytes ++ rest → e.body.length ≤ maxBytes →
    r.outcome = .body e.body

/-- A stream without an encoding gives no body. -/
def Rejects (s : Bytes) (r : Reading) : Prop :=
  (∀ (e : Encoding) (rest : Bytes), s ≠ e.bytes ++ rest) → ∀ b, r.outcome ≠ .body b

/-- A read of chunks that is bounded and exact. -/
structure ExactChunks (maxBytes : Nat) (s : Bytes) (r : Reading) : Prop where
  bounded : Bounded maxBytes r
  decodes : Decodes maxBytes s r
  rejects : Rejects s r

-- =============================================================== the walk

/-- The size in the line a stream starts with. -/
def sizeAt (s : Bytes) : Option Int := chunkSize (readline 1024 s).1

/-- A stream as the reader takes it: lines with their chunks, and what is
left. -/
inductive Walk : Bytes → List (Bytes × Bytes) → Bytes → Prop where
  | nil (s : Bytes) : Walk s [] s
  | cons {s line data after left : Bytes} {frames : List (Bytes × Bytes)} :
      readline 1024 s = (line, data ++ crlf ++ after) →
      chunkSize line = some (data.length : Int) → data ≠ [] →
      Walk after frames left → Walk s ((line, data) :: frames) left

/-- The chunks of a walk. -/
def datas (frames : List (Bytes × Bytes)) : Bytes := frames.flatMap Prod.snd

/-- The line of a chunk as the coding has it. -/
def IsSizeLine (line : Bytes) : Prop :=
  ∃ size ext, PyInt.Plain 16 (codes size) ∧ IsExtension ext ∧ line = size ++ ext ++ crlf

/-- Every line of a chunk fits the limit of a line. -/
def Short (e : Encoding) : Prop := ∀ f ∈ e.frames, f.line.length ≤ 1024

/-- No size on the walk is negative; where it ends at zero its lines are
those of the coding and the trailers are whole; and no encoding within the
bound has a line that is cut. -/
structure Orderly (maxBytes : Nat) (s : Bytes) : Prop where
  nonneg : ∀ frames left n, Walk s frames left → (datas frames).length ≤ maxBytes →
    sizeAt left = some n → 0 ≤ n
  strict : ∀ frames left, Walk s frames left → (datas frames).length ≤ maxBytes →
    sizeAt left = some 0 →
      (∀ f ∈ frames, IsSizeLine f.1) ∧ ∃ (e : Ending) (rest : Bytes), left = e.bytes ++ rest
  short : ∀ (e : Encoding) (rest : Bytes), s = e.bytes ++ rest → e.body.length ≤ maxBytes →
    Short e

-- =============================================================== one step

/-- What one turn of the loop does. -/
inductive ChunkStep (maxBytes : Nat) (body s : Bytes) : Reading → Prop where
  | rejected {r : Reading} : (∀ b, r.outcome ≠ .body b) → Asks (maxBytes - body.length) r.asked →
      ChunkStep maxBytes body s r
  | negative {r : Reading} {n : Int} : sizeAt s = some n → n < 0 → n ∈ r.asked →
      (∀ b, r.outcome ≠ .body b) → ChunkStep maxBytes body s r
  | last {rest : Bytes} : sizeAt s = some 0 → ChunkStep maxBytes body s ⟨.body body, [], rest⟩
  | chunk {line data after : Bytes} : readline 1024 s = (line, data ++ crlf ++ after) →
      chunkSize line = some (data.length : Int) → data ≠ [] →
      body.length + data.length ≤ maxBytes →
      ChunkStep maxBytes body s
        { readChunkedBody maxBytes (body ++ data) after with
          asked := data.length :: (readChunkedBody maxBytes (body ++ data) after).asked }

theorem asks_nil (maxBytes : Nat) : Asks maxBytes [] := ⟨nofun, by simp⟩

theorem asks_singleton {maxBytes : Nat} {n : Int} (hn : 0 ≤ n) (hle : n ≤ maxBytes) :
    Asks maxBytes [n] := ⟨by simpa using hn, by simpa using hle⟩

/-- What a read of the stream answers. -/
theorem read_cases (size : Int) (s : Bytes) :
    (size < 0 ∧ ∀ chunk rest, read size s = .ok (chunk, rest) → chunk.length ≠ size) ∨
      0 ≤ size ∧ read size s = .ok (s.take size.toNat, s.drop size.toNat) := by
  unfold read
  split
  next h => exact .inl ⟨by omega, nofun⟩
  next h =>
    split
    next hall =>
      refine .inl ⟨by omega, fun chunk rest _ heq => ?_⟩
      omega
    next hall => exact .inr ⟨by omega, rfl⟩

theorem chunkStep (maxBytes : Nat) (body s : Bytes) (hbody : body.length ≤ maxBytes) :
    ChunkStep maxBytes body s (readChunkedBody maxBytes body s) := by
  rw [readChunkedBody]
  dsimp only
  split
  next => exact .rejected (fun _ h => by cases h) (asks_nil _)
  next hline =>
    split
    next => exact .rejected (fun _ h => by cases h) (asks_nil _)
    next size hsize =>
      split
      next hzero => exact .last (hzero ▸ hsize)
      next hzero =>
        split
        next => exact .rejected (fun _ h => by cases h) (asks_nil _)
        next hmax =>
          have hle : size ≤ ((maxBytes - body.length : Nat) : Int) := by omega
          split
          next text hread =>
            rcases read_cases size (readline 1024 s).2 with ⟨hneg, -⟩ | ⟨-, hok⟩
            · exact .negative hsize hneg List.mem_cons_self (fun _ h => by cases h)
            · rw [hok] at hread
              cases hread
          next chunk after hread =>
            rcases read_cases size (readline 1024 s).2 with ⟨hneg, hlength⟩ | ⟨hnonneg, hok⟩
            · rw [if_pos (hlength chunk after hread)]
              exact .negative hsize hneg List.mem_cons_self (fun _ h => by cases h)
            · rw [hok] at hread
              obtain ⟨rfl, rfl⟩ := Prod.mk.inj (Except.ok.inj hread)
              have hasks := asks_singleton hnonneg hle
              split
              next => exact .rejected (fun _ h => by cases h) hasks
              next hlength =>
                split
                next => exact .rejected (fun _ h => by cases h) hasks
                next hcrlf =>
                  have hlength := not_not.mp hlength
                  have hcrlf := not_not.mp hcrlf
                  have hsplit : (readline 1024 s).2 =
                      (readline 1024 s).2.take size.toNat ++ crlf ++
                        ((readline 1024 s).2.drop size.toNat).drop 2 := by
                    rw [← hcrlf, List.append_assoc, List.take_append_drop,
                      List.take_append_drop]
                  have hne : (readline 1024 s).2.take size.toNat ≠ [] := by
                    intro hnil
                    rw [hnil] at hlength
                    exact hzero hlength.symm
                  have hstep := @ChunkStep.chunk maxBytes body s (readline 1024 s).1 _ _
                    (Prod.ext rfl hsplit)
                    (by rw [hsize, hlength]) hne (by omega)
                  rwa [hlength] at hstep

-- ================================================================ the run

theorem length_after_lt {s line data after : Bytes}
    (h : readline 1024 s = (line, data ++ crlf ++ after)) : after.length < s.length := by
  have hlength := congrArg List.length (readline_append 1024 s)
  rw [h] at hlength
  simp only [List.length_append, crlf, List.length_cons, List.length_nil] at hlength
  omega

/-- A run that accepts has walked to a size of zero. -/
theorem walk_of_body {maxBytes : Nat} {body s b : Bytes} (hbody : body.length ≤ maxBytes)
    (h : (readChunkedBody maxBytes body s).outcome = .body b) :
    ∃ frames left, Walk s frames left ∧ sizeAt left = some 0 ∧ b = body ++ datas frames ∧
      b.length ≤ maxBytes := by
  induction hn : s.length using Nat.strong_induction_on generalizing body s with
  | _ n ih =>
      have hstep := chunkStep maxBytes body s hbody
      generalize readChunkedBody maxBytes body s = r at hstep h
      cases hstep with
      | rejected hnone _ => exact absurd h (hnone b)
      | negative _ _ _ hnone => exact absurd h (hnone b)
      | last hzero =>
          obtain rfl := Outcome.body.inj h
          exact ⟨[], s, .nil s, hzero, by simp [datas], hbody⟩
      | @chunk line data after hline hsize hne hmax =>
          obtain ⟨frames, left, hwalk, hzero, hb, hle⟩ := ih after.length
            (hn ▸ length_after_lt hline) (by rw [List.length_append]; exact hmax) h rfl
          refine ⟨(line, data) :: frames, left, .cons hline hsize hne hwalk, hzero, ?_, hle⟩
          rw [hb, List.append_assoc]
          rfl

/-- A run asks within the bound, or its walk comes to a negative size. -/
theorem asks_or_negative {maxBytes : Nat} {body s : Bytes} (hbody : body.length ≤ maxBytes) :
    Asks (maxBytes - body.length) (readChunkedBody maxBytes body s).asked ∨
      ∃ frames left n, Walk s frames left ∧ body.length + (datas frames).length ≤ maxBytes ∧
        sizeAt left = some n ∧ n < 0 := by
  induction hn : s.length using Nat.strong_induction_on generalizing body s with
  | _ n ih =>
      have hstep := chunkStep maxBytes body s hbody
      generalize readChunkedBody maxBytes body s = r at hstep
      cases hstep with
      | rejected _ hasks => exact .inl hasks
      | @negative _ size hsize hneg _ _ => exact .inr ⟨[], s, size, .nil s, hbody, hsize, hneg⟩
      | last => exact .inl (asks_nil _)
      | @chunk line data after hline hsize hne hmax =>
          have hmax' : (body ++ data).length ≤ maxBytes := by
            rw [List.length_append]
            exact hmax
          rcases ih after.length (hn ▸ length_after_lt hline) hmax' rfl with
            ⟨hnonneg, hsum⟩ | ⟨frames, left, size, hwalk, hle, hleft, hneg⟩
          · refine .inl ⟨?_, ?_⟩
            · exact List.forall_mem_cons.mpr ⟨Int.natCast_nonneg _, hnonneg⟩
            · rw [List.length_append] at hsum
              show (_ :: _ : List Int).sum ≤ _
              rw [List.sum_cons]
              omega
          · refine .inr ⟨(line, data) :: frames, left, size, .cons hline hsize hne hwalk, ?_,
              hleft, hneg⟩
            rw [List.length_append] at hle
            show _ + (data ++ datas frames).length ≤ _
            rw [List.length_append]
            omega

/-- The turn that takes a chunk. -/
theorem readChunkedBody_chunk {maxBytes : Nat} {body s line data after : Bytes}
    (hline : readline 1024 s = (line, data ++ crlf ++ after))
    (hsize : chunkSize line = some (data.length : Int)) (hne : data ≠ [])
    (hmax : body.length + data.length ≤ maxBytes) :
    readChunkedBody maxBytes body s =
      { readChunkedBody maxBytes (body ++ data) after with
        asked := data.length :: (readChunkedBody maxBytes (body ++ data) after).asked } := by
  have hpos : data.length ≠ 0 := fun h => hne (List.eq_nil_of_length_eq_zero h)
  have hread : read (data.length : Int) (data ++ crlf ++ after) = .ok (data, crlf ++ after) := by
    rcases read_cases (data.length : Int) (data ++ crlf ++ after) with ⟨hneg, -⟩ | ⟨-, hok⟩
    · omega
    · rw [hok, Int.toNat_natCast, List.append_assoc, List.take_left, List.drop_left]
  rw [readChunkedBody]
  dsimp only
  split
  next hnil =>
    rw [hline] at hnil
    rw [show line = [] from hnil] at hsize
    cases hsize
  next =>
    split
    next hnone =>
      rw [hline, hsize] at hnone
      cases hnone
    next size hsome =>
      rw [hline] at hsome ⊢
      obtain rfl := Option.some.inj (hsize.symm.trans hsome)
      rw [if_neg (by omega), if_neg (by omega)]
      split
      next text hraised =>
        rw [hread] at hraised
        cases hraised
      next chunk rest hok =>
        rw [hread] at hok
        obtain ⟨rfl, rfl⟩ := Prod.mk.inj (Except.ok.inj hok)
        rw [if_neg (not_not.mpr rfl)]
        exact if_neg (not_not.mpr rfl)

/-- A run goes along a walk: it ends as the run from where the walk ends,
and asks what that asks. -/
theorem run_walk {maxBytes : Nat} {s left : Bytes} {frames : List (Bytes × Bytes)}
    (hwalk : Walk s frames left) : ∀ {body : Bytes},
      body.length + (datas frames).length ≤ maxBytes →
      (readChunkedBody maxBytes body s).outcome =
          (readChunkedBody maxBytes (body ++ datas frames) left).outcome ∧
        ∀ n ∈ (readChunkedBody maxBytes (body ++ datas frames) left).asked,
          n ∈ (readChunkedBody maxBytes body s).asked := by
  induction hwalk with
  | nil s =>
      intro body _
      rw [show datas [] = [] from rfl, List.append_nil]
      exact ⟨rfl, fun _ h => h⟩
  | @cons s line data after left frames hline hsize hne hwalk ih =>
      intro body hmax
      have hsplit : datas ((line, data) :: frames) = data ++ datas frames := rfl
      rw [hsplit, List.length_append] at hmax
      rw [hsplit, ← List.append_assoc]
      obtain ⟨houtcome, hasked⟩ := @ih (body ++ data) (by rw [List.length_append]; omega)
      rw [readChunkedBody_chunk hline hsize hne (by omega)]
      exact ⟨houtcome, fun n hn => List.mem_cons_of_mem _ (hasked n hn)⟩

-- ================================================================== sizes

/-- The size is that of the digits a line starts with, where only blanks
follow them up to a semicolon. -/
theorem chunkSize_append {size tail : Bytes} (hplain : PyInt.Plain 16 (codes size))
    (htail : ∀ c ∈ tail.takeWhile (· ≠ 59), byteSpace c.toNat = true) :
    chunkSize (size ++ tail) = some (PyInt.value 16 (codes size) : Int) := by
  have hsemicolon : ∀ c ∈ size, c ≠ 59 := by
    rintro c hc rfl
    have hdigit := hplain.2 59 (List.mem_map_of_mem (f := UInt8.toNat) hc)
    simp [PyInt.digit] at hdigit
  have hcut : (size ++ tail).takeWhile (· ≠ 59) = size ++ tail.takeWhile (· ≠ 59) := by
    rw [List.takeWhile_append_of_pos]
    simpa using hsemicolon
  unfold chunkSize
  rw [hcut, codes, List.map_append]
  refine PyInt.intOf_append hplain (fun code hcode => ?_) fun code hcode => ?_
  · simp [byteSpace]
    omega
  · obtain ⟨c, hc, rfl⟩ := List.mem_map.mp hcode
    exact htail c hc

/-- Nothing but blanks stands before the semicolon of an extension. -/
theorem space_of_extension {ext : Bytes} (h : IsExtension ext) :
    ∀ c ∈ (ext ++ crlf).takeWhile (· ≠ 59), byteSpace c.toNat = true := by
  rcases h with rfl | ⟨blanks, rest, rfl, hblanks, -⟩
  · have hcut : ([] ++ crlf).takeWhile (· ≠ 59) = [13, 10] := rfl
    intro c hc
    rw [hcut] at hc
    rcases List.mem_pair.mp hc with rfl | rfl
    all_goals rfl
  · have hcut : (blanks ++ 59 :: rest ++ crlf).takeWhile (· ≠ 59) = blanks := by
      rw [List.append_assoc, List.takeWhile_append_of_pos]
      · simp
      · intro c hc
        rcases hblanks c hc with rfl | rfl
        all_goals rfl
    intro c hc
    rw [hcut] at hc
    rcases hblanks c hc with rfl | rfl
    all_goals rfl

/-- A line of the coding stands for the number it spells. -/
theorem chunkSize_line {size ext : Bytes} (hplain : PyInt.Plain 16 (codes size))
    (hext : IsExtension ext) :
    chunkSize (size ++ ext ++ crlf) = some (PyInt.value 16 (codes size) : Int) := by
  rw [List.append_assoc]
  exact chunkSize_append hplain (space_of_extension hext)

-- ================================================================== lines

/-- A line is read to its end, or as far as the limit goes. -/
theorem readline_line {text rest : Bytes} (h : ∀ c ∈ text, c ≠ 10) : ∀ (limit : Nat),
    readline limit (text ++ 10 :: rest) =
      ((text ++ [10]).take limit, (text ++ 10 :: rest).drop (min limit (text.length + 1))) := by
  induction text with
  | nil =>
      intro limit
      cases limit with
      | zero => rfl
      | succ limit => simp [readline]
  | cons c text ih =>
      intro limit
      obtain ⟨hc, htext⟩ := List.forall_mem_cons.mp h
      cases limit with
      | zero => simp [readline]
      | succ limit =>
          rw [List.cons_append, readline, if_neg hc, ih htext limit]
          simp [Nat.succ_min_succ]

/-- A line within the limit is read whole. -/
theorem readline_of_le {limit : Nat} {text rest : Bytes} (h : ∀ c ∈ text, c ≠ 10)
    (hlimit : text.length + 1 ≤ limit) :
    readline limit (text ++ 10 :: rest) = (text ++ [10], rest) := by
  rw [readline_line h, List.take_of_length_le (by simpa using hlimit), min_eq_right hlimit]
  simp

/-- No line break stands in a size with its extension. -/
theorem unbroken_of_line {size ext : Bytes} (hplain : PyInt.Plain 16 (codes size))
    (hext : IsExtension ext) : ∀ c ∈ size ++ ext ++ [13], c ≠ 10 := by
  intro c hc
  rw [List.append_assoc] at hc
  rcases List.mem_append.mp hc with hc | hc
  · rintro rfl
    have hdigit := PyInt.le_of_digit (hplain.2 10 (List.mem_map_of_mem (f := UInt8.toNat) hc))
    omega
  · rcases List.mem_append.mp hc with hc | hc
    · rcases hext with rfl | ⟨blanks, rest, rfl, hblanks, hrest⟩
      · cases hc
      · rcases List.mem_append.mp hc with hc | hc
        · rcases hblanks c hc with rfl | rfl
          all_goals decide
        · rcases List.mem_cons.mp hc with rfl | hc
          · decide
          · exact (hrest c hc).2
    · obtain rfl := List.mem_singleton.mp hc
      decide

/-- A chunk of the coding is read as it is, where its line fits. -/
theorem readline_frame (f : Frame) (rest : Bytes) (hshort : f.line.length ≤ 1024) :
    readline 1024 (f.bytes ++ rest) = (f.line, f.data ++ crlf ++ rest) := by
  have hline : f.line = f.size ++ f.ext ++ [13] ++ [10] := by simp [Frame.line, crlf]
  have hbytes : f.bytes ++ rest =
      (f.size ++ f.ext ++ [13]) ++ 10 :: (f.data ++ crlf ++ rest) := by
    simp [Frame.bytes, Frame.line, crlf]
  rw [hline] at hshort ⊢
  rw [hbytes]
  refine readline_of_le (unbroken_of_line f.plain f.extension) ?_
  rw [List.length_append] at hshort
  exact hshort

theorem plain_of_zeros {zeros : Bytes} (h : zeros ≠ [] ∧ ∀ c ∈ zeros, c = 48) :
    PyInt.Plain 16 (codes zeros) ∧ PyInt.value 16 (codes zeros) = 0 := by
  obtain ⟨hne, hall⟩ := h
  refine ⟨⟨fun hnil => hne (List.map_eq_nil_iff.mp hnil), fun code hcode => ?_⟩, ?_⟩
  · obtain ⟨c, hc, rfl⟩ := List.mem_map.mp hcode
    rw [hall c hc]
    rfl
  · have hzero : ∀ zeros : Bytes, (∀ c ∈ zeros, c = 48) →
        PyInt.value 16 (codes zeros) = 0 := by
      intro zeros
      induction zeros with
      | nil => exact fun _ => rfl
      | cons c rest ih =>
          intro h
          obtain ⟨rfl, hrest⟩ := List.forall_mem_cons.mp h
          exact ih hrest
    exact hzero zeros hall

/-- The last chunk is read as a size of zero, however long its line is. -/
theorem sizeAt_ending (e : Ending) (rest : Bytes) : sizeAt (e.bytes ++ rest) = some 0 := by
  have hbytes : e.bytes ++ rest = (e.zeros ++ e.ext ++ [13]) ++
      10 :: (e.trailers.flatMap (· ++ crlf) ++ crlf ++ rest) := by
    simp [Ending.bytes, Ending.line, crlf]
  have htake : (e.zeros ++ e.ext ++ [13] ++ [10]).take 1024 =
      e.zeros.take 1024 ++ (e.ext ++ crlf).take (1024 - e.zeros.length) := by
    rw [← List.take_append]
    simp [crlf]
  have hzeros : e.zeros.take 1024 ≠ [] ∧ ∀ c ∈ e.zeros.take 1024, c = 48 := by
    refine ⟨fun hnil => ?_, fun c hc => e.zero.2 c (List.mem_of_mem_take hc)⟩
    rcases List.take_eq_nil_iff.mp hnil with h | h
    · exact absurd h (by decide)
    · exact e.zero.1 h
  have hvalue := plain_of_zeros hzeros
  unfold sizeAt
  rw [hbytes, readline_line (unbroken_of_line (plain_of_zeros e.zero).1 e.extension)]
  dsimp only
  rw [htake, chunkSize_append hvalue.1, hvalue.2]
  · rfl
  · intro c hc
    rw [← List.take_takeWhile] at hc
    exact space_of_extension e.extension c (List.mem_of_mem_take hc)

-- ========================================================= walks and codes

/-- What a walk goes through in an encoding. -/
def framesOf (e : Encoding) : List (Bytes × Bytes) := e.frames.map fun f => (f.line, f.data)

theorem datas_framesOf (e : Encoding) : datas (framesOf e) = e.body := by
  unfold datas framesOf Encoding.body
  rw [List.flatMap_map]

/-- The walk goes through an encoding whose lines fit. -/
theorem walk_of_encoding (e : Encoding) (rest : Bytes) (hshort : Short e) :
    Walk (e.bytes ++ rest) (framesOf e) (e.ending.bytes ++ rest) := by
  obtain ⟨frames, ending⟩ := e
  unfold Encoding.bytes framesOf
  induction frames with
  | nil => exact .nil _
  | cons f frames ih =>
      obtain ⟨hf, hrest⟩ := List.forall_mem_cons.mp hshort
      have hbytes : (f :: frames).flatMap Frame.bytes ++ ending.bytes ++ rest =
          f.bytes ++ (frames.flatMap Frame.bytes ++ ending.bytes ++ rest) := by simp
      dsimp only
      rw [hbytes]
      refine .cons (readline_frame f _ hf) ?_ f.nonempty (ih hrest)
      rw [← f.length]
      exact chunkSize_line f.plain f.extension

/-- A walk under lines of the coding that ends where an ending starts is an
encoding. -/
theorem encoding_of_walk {s left : Bytes} {frames : List (Bytes × Bytes)}
    (hwalk : Walk s frames left) (hlines : ∀ f ∈ frames, IsSizeLine f.1) {ending : Ending}
    {rest : Bytes} (hleft : left = ending.bytes ++ rest) :
    ∃ e : Encoding, s = e.bytes ++ rest ∧ e.body = datas frames := by
  induction hwalk with
  | nil s => exact ⟨⟨[], ending⟩, hleft, rfl⟩
  | @cons s line data after left frames hline hsize hne hwalk ih =>
      obtain ⟨⟨size, ext, hplain, hext, hcoded⟩, hothers⟩ := List.forall_mem_cons.mp hlines
      dsimp only at hcoded
      obtain ⟨⟨fs, tail⟩, hs, hbody⟩ := ih hothers hleft
      have hvalue : PyInt.value 16 (codes size) = data.length := by
        rw [hcoded, chunkSize_line hplain hext] at hsize
        exact Int.ofNat.inj (Option.some.inj hsize)
      refine ⟨⟨⟨size, ext, data, hplain, hext, hvalue, hne⟩ :: fs, tail⟩, ?_, ?_⟩
      · have hwhole := readline_append 1024 s
        rw [hline, hs] at hwhole
        rw [← hwhole, hcoded]
        simp [Encoding.bytes, Frame.bytes, Frame.line]
      · show data ++ Encoding.body ⟨fs, tail⟩ = data ++ datas frames
        rw [hbody]

/-- Two walks to a size of zero are one. -/
theorem walk_unique {s left left' : Bytes} {frames frames' : List (Bytes × Bytes)}
    (hwalk : Walk s frames left) (hwalk' : Walk s frames' left') (hzero : sizeAt left = some 0)
    (hzero' : sizeAt left' = some 0) : frames = frames' ∧ left = left' := by
  have hnone : ∀ {s line data rest : Bytes}, readline 1024 s = (line, rest) →
      chunkSize line = some (data.length : Int) → data ≠ [] → sizeAt s ≠ some 0 := by
    intro s line data rest hline hsize hne hzero
    unfold sizeAt at hzero
    rw [hline, hsize] at hzero
    exact hne (List.eq_nil_of_length_eq_zero (Int.ofNat.inj (Option.some.inj hzero)))
  induction hwalk generalizing frames' with
  | nil s =>
      cases hwalk' with
      | nil => exact ⟨rfl, rfl⟩
      | cons hline hsize hne _ => exact absurd hzero (hnone hline hsize hne)
  | @cons s line data after left frames hline hsize hne hwalk ih =>
      cases hwalk' with
      | nil => exact absurd hzero' (hnone hline hsize hne)
      | @cons _ line' data' after' _ frames' hline' hsize' hne' hwalk' =>
          obtain ⟨rfl, hrest⟩ := Prod.mk.inj (hline.symm.trans hline')
          have hlength : data.length = data'.length :=
            Int.ofNat.inj (Option.some.inj (hsize.symm.trans hsize'))
          rw [List.append_assoc, List.append_assoc] at hrest
          obtain rfl := (List.append_inj hrest hlength).1
          have hafter : after = after' :=
            List.append_cancel_left (List.append_cancel_left hrest)
          obtain ⟨rfl, rfl⟩ := ih (hafter ▸ hwalk') hzero
          exact ⟨rfl, rfl⟩

-- ============================================================ exact reading

/-- A size of zero ends a run with what it has. -/
theorem outcome_of_zero {maxBytes : Nat} {body s : Bytes} (hzero : sizeAt s = some 0) :
    (readChunkedBody maxBytes body s).outcome = .body body := by
  rw [readChunkedBody]
  dsimp only
  unfold sizeAt at hzero
  split
  next hnil =>
    rw [hnil] at hzero
    cases hzero
  next =>
    split
    next hnone =>
      rw [hzero] at hnone
      cases hnone
    next size hsize =>
      rw [if_pos (Option.some.inj (hsize.symm.trans hzero))]

/-- A negative size is asked of the stream. -/
theorem asked_of_negative {maxBytes : Nat} {body s : Bytes} {n : Int}
    (hbody : body.length ≤ maxBytes) (hn : sizeAt s = some n) (hneg : n < 0) :
    n ∈ (readChunkedBody maxBytes body s).asked := by
  rw [readChunkedBody]
  dsimp only
  unfold sizeAt at hn
  split
  next hnil =>
    rw [hnil] at hn
    cases hn
  next =>
    split
    next hnone =>
      rw [hn] at hnone
      cases hnone
    next size hsize =>
      obtain rfl := Option.some.inj (hsize.symm.trans hn)
      rw [if_neg (by omega), if_neg (by omega)]
      split
      next => exact List.mem_cons_self
      next =>
        split
        next => exact List.mem_cons_self
        next =>
          split
          next => exact List.mem_cons_self
          next => exact List.mem_cons_self

/-- An orderly stream is read within the bound and exactly. -/
theorem exact_of_orderly {maxBytes : Nat} {s : Bytes} (h : Orderly maxBytes s) :
    ExactChunks maxBytes s (readChunkedBody maxBytes [] s) := by
  refine ⟨⟨fun b hb => ?_, ?_⟩, fun e rest hs hmax => ?_, fun hnone b hb => ?_⟩
  · obtain ⟨-, -, -, -, -, hle⟩ := walk_of_body (Nat.zero_le _) hb
    exact hle
  · rcases @asks_or_negative maxBytes [] s (Nat.zero_le maxBytes) with
      hasks | ⟨frames, left, n, hwalk, hmax, hleft, hneg⟩
    · exact hasks
    · have hnonneg := h.nonneg frames left n hwalk (by simpa using hmax) hleft
      omega
  · have hwalk := walk_of_encoding e rest (h.short e rest hs hmax)
    rw [← hs] at hwalk
    have hrun := @run_walk maxBytes _ _ _ hwalk []
      (by rw [datas_framesOf]; simpa using hmax)
    rw [hrun.1, datas_framesOf, List.nil_append]
    exact outcome_of_zero (sizeAt_ending e.ending rest)
  · obtain ⟨frames, left, hwalk, hzero, rfl, hle⟩ := walk_of_body (Nat.zero_le _) hb
    obtain ⟨hlines, ending, rest, hleft⟩ := h.strict frames left hwalk (by simpa using hle) hzero
    obtain ⟨e, hs, -⟩ := encoding_of_walk hwalk hlines hleft
    exact hnone e rest hs

/-- A stream that is read within the bound and exactly is orderly, but for
one with an encoding in which a line is cut. -/
theorem orderly_of_exact {maxBytes : Nat} {s : Bytes}
    (h : ExactChunks maxBytes s (readChunkedBody maxBytes [] s))
    (hshort : ∀ (e : Encoding) (rest : Bytes), s = e.bytes ++ rest → Short e) :
    Orderly maxBytes s := by
  refine ⟨fun frames left n hwalk hmax hn => ?_, fun frames left hwalk hmax hzero => ?_,
    fun e rest hs _ => hshort e rest hs⟩
  · by_contra hneg
    have hrun := @run_walk maxBytes _ _ _ hwalk [] (by simpa using hmax)
    have hasked := @asked_of_negative maxBytes ([] ++ datas frames) _ _ hmax hn (by omega)
    have hnonneg := h.bounded.asks.nonneg n (hrun.2 n hasked)
    omega
  · have hrun := @run_walk maxBytes _ _ _ hwalk [] (by simpa using hmax)
    have hbody := hrun.1.trans (@outcome_of_zero _ ([] ++ datas frames) _ hzero)
    -- the stream is accepted, so it has an encoding; its walk is this one
    have hvalid : ∃ (e : Encoding) (rest : Bytes), s = e.bytes ++ rest := by
      by_contra hnone
      refine h.rejects (fun e rest hs => hnone ⟨e, rest, hs⟩) _ hbody
    obtain ⟨e, rest, hs⟩ := hvalid
    have hwalk' := walk_of_encoding e rest (hshort e rest hs)
    rw [← hs] at hwalk'
    obtain ⟨rfl, rfl⟩ := walk_unique hwalk hwalk' hzero (sizeAt_ending e.ending rest)
    refine ⟨fun f hf => ?_, e.ending, rest, rfl⟩
    obtain ⟨frame, -, rfl⟩ := List.mem_map.mp hf
    exact ⟨frame.size, frame.ext, frame.plain, frame.extension, rfl⟩

-- =============================================================== requests

/-- A request is read within the bound, and its chunks exactly. -/
structure Exact (lower : String → String) (headers : Headers) (maxBytes : Nat) (s : Bytes)
    (r : Reading) : Prop where
  bounded : Bounded maxBytes r
  decodes : isChunked lower headers = true → Decodes maxBytes s r
  rejects : isChunked lower headers = true → Rejects s r

/-- In chunks the stream is orderly; otherwise the length is not negative. -/
def Sound (lower : String → String) (headers : Headers) (maxBytes : Nat) (s : Bytes) : Prop :=
  if isChunked lower headers then Orderly maxBytes s
  else ∀ length, headers.contentLength.bind intOfHeader = some length → 0 ≤ length

/-- The stream has an encoding in which the line of a chunk is cut. -/
def Cut (s : Bytes) : Prop :=
  ∃ (e : Encoding) (rest : Bytes), s = e.bytes ++ rest ∧ ¬ Short e

/-- A body by its length is read within the bound exactly where the length
is not negative. -/
theorem bounded_of_length_iff {lower : String → String} {headers : Headers} {maxBytes : Nat}
    {s : Bytes} (hchunked : ¬ isChunked lower headers = true) :
    Bounded maxBytes (readRequestBody lower headers maxBytes s) ↔
      ∀ length, headers.contentLength.bind intOfHeader = some length → 0 ≤ length := by
  unfold readRequestBody
  rw [if_neg hchunked]
  cases headers.contentLength with
  | none => exact iff_of_true ⟨nofun, asks_nil _⟩ nofun
  | some text =>
      dsimp only
      rw [Option.bind_some]
      cases intOfHeader text with
      | none => exact iff_of_true ⟨nofun, asks_nil _⟩ nofun
      | some length =>
          dsimp only
          split
          next hmax =>
            refine iff_of_true ⟨nofun, asks_nil _⟩ fun length' heq => ?_
            obtain rfl := Option.some.inj heq
            omega
          next hmax =>
            constructor
            · intro h length' heq
              obtain rfl := Option.some.inj heq
              refine h.asks.nonneg length ?_
              split
              all_goals exact List.mem_cons_self
            · intro h
              have hnonneg := h length rfl
              have hasks : Asks maxBytes [length] := asks_singleton hnonneg (by omega)
              rcases read_cases length s with ⟨hneg, -⟩ | ⟨-, hok⟩
              · omega
              · rw [hok]
                refine ⟨fun b hb => ?_, hasks⟩
                obtain rfl := Outcome.body.inj hb
                rw [List.length_take]
                omega

/-- A request whose stream is orderly, or whose length is not negative, is
read within the bound and exactly; and there is no other, but for a stream
in which the line of a chunk is cut. -/
theorem readRequestBody_exact (lower : String → String) (headers : Headers) (maxBytes : Nat)
    (s : Bytes) :
    (Sound lower headers maxBytes s →
        Exact lower headers maxBytes s (readRequestBody lower headers maxBytes s)) ∧
      (Exact lower headers maxBytes s (readRequestBody lower headers maxBytes s) →
        Sound lower headers maxBytes s ∨ isChunked lower headers = true ∧ Cut s) := by
  by_cases hchunked : isChunked lower headers = true
  · have hread : readRequestBody lower headers maxBytes s = readChunkedBody maxBytes [] s :=
      if_pos hchunked
    rw [hread, Sound, if_pos hchunked]
    constructor
    · intro h
      obtain ⟨hbounded, hdecodes, hrejects⟩ := exact_of_orderly h
      exact ⟨hbounded, fun _ => hdecodes, fun _ => hrejects⟩
    · rintro ⟨hbounded, hdecodes, hrejects⟩
      by_cases hcut : Cut s
      · exact .inr ⟨hchunked, hcut⟩
      · refine .inl (orderly_of_exact ⟨hbounded, hdecodes hchunked, hrejects hchunked⟩ ?_)
        intro e rest hs
        by_contra hshort
        exact hcut ⟨e, rest, hs, hshort⟩
  · rw [Sound, if_neg hchunked]
    have hiff := @bounded_of_length_iff _ _ maxBytes s hchunked
    refine ⟨fun h => ?_, fun h => .inl (hiff.mp h.bounded)⟩
    exact ⟨hiff.mpr h, fun h => absurd h hchunked, fun h => absurd h hchunked⟩

/-- A length of minus one reads the whole connection: four bytes where three
are the bound. -/
theorem negative_length_unbounded :
    ¬ Exact id ⟨none, some "-1"⟩ 3 [1, 2, 3, 4]
      (readRequestBody id ⟨none, some "-1"⟩ 3 [1, 2, 3, 4]) := by
  intro h
  have hle := h.bounded.body [1, 2, 3, 4] rfl
  exact absurd hle (by decide)

end OpenTulid.Http
