/-
This file is the packed mode of the Sudoku transport, `PackedConn` of
`transport/sudoku/obfs/sudoku/packed.go`. A writer cuts the bytes of a `Write`
into groups of six bits, mixes padding between them, and ends with a marker if the
last group had to be filled up. A reader takes the groups together again, and
starts anew at the marker.

The fast paths of both sides do what the slow ones do. Between the two there is at
most one byte in flight: the reader has its upper bits, the writer its lower ones.
This is the invariant of the writer's loops, whatever padding the random generator
chooses, and after a `Write` nothing is in flight.
-/

import SingBox.SudokuLayout
import SingBox.Transducer

namespace SingBox

namespace Sudoku

/-! ### Random numbers -/

def fastIntnFromUint32 (u : UInt32) (n : Nat) : Nat := (u.toNat * n) >>> 32

/-- A bit buffer, `bitBuf` and `bitCount`. The buffer never has more than fourteen bits, so it
does not overflow. -/
structure BitBuffer where
  bits : Nat := 0
  count : Nat := 0
  deriving DecidableEq, Repr

/-- What the two sides of a `PackedConn` do not change. -/
structure Codec where
  layout : ByteLayout
  paddingThreshold : Nat
  padMarker : UInt8
  padPool : List UInt8

/-- The random generator, and the bytes written so far. -/
abbrev Draft (Rng : Type) := Rng × List UInt8

section Write

variable {Rng : Type} (uint32 : Rng → UInt32 × Rng)

/-- `sudokuRand.Intn`, of any generator. -/
def intn (rng : Rng) (n : Nat) : Nat × Rng :=
  if n ≤ 1 then (0, rng)
  else
    let drawn := uint32 rng
    (fastIntnFromUint32 drawn.1 n, drawn.2)

def pickPaddingThreshold (rng : Rng) (pMin pMax : Int) : Nat × Rng :=
  let pMin := if pMin < 0 then 0 else pMin
  let pMax := if pMax < pMin then pMin else pMax
  let pMax := if pMax > 100 then 100 else pMax
  let pMin := if pMin > 100 then 100 else pMin
  let min := pMin.toNat * 2 ^ 32 / 100
  let max := pMax.toNat * 2 ^ 32 / 100
  if max ≤ min then (min, rng)
  else
    let drawn := uint32 rng
    (min + (drawn.1.toNat * (max - min)) >>> 32, drawn.2)

def newPackedConn (layout : ByteLayout) (rng : Rng) (pMin pMax : Int) : Codec × Rng :=
  let threshold := pickPaddingThreshold uint32 rng pMin pMax
  let others := layout.paddingPool.filter (· ≠ layout.padMarker)
  ({ layout := layout
     paddingThreshold := threshold.1
     padMarker := layout.padMarker
     padPool := if others.length = 0 then [layout.padMarker] else others }, threshold.2)

variable (codec : Codec)

/-! ### Writing -/

/-- `PackedConn.appendForcedPadding`. -/
def appendForcedPadding (draft : Draft Rng) : Draft Rng :=
  let drawn := intn uint32 draft.1 codec.padPool.length
  (drawn.2, draft.2 ++ [codec.padPool.getD drawn.1 0])

def maybeAppendPackedPadding (draft : Draft Rng) : Draft Rng :=
  if codec.paddingThreshold ≠ 0 then
    let drawn := uint32 draft.1
    if drawn.1.toNat < codec.paddingThreshold then
      let chosen := uint32 drawn.2
      (chosen.2, draft.2 ++
        [codec.padPool.getD (fastIntnFromUint32 chosen.1 codec.padPool.length) 0])
    else (drawn.2, draft.2)
  else draft

def appendPackedGroup (draft : Draft Rng) (group : UInt8) : Draft Rng :=
  let padded := maybeAppendPackedPadding uint32 codec draft
  (padded.1, padded.2 ++ [codec.layout.encodeGroup (group &&& 0x3F)])

/-- The loop that takes the groups out of the bit buffer. -/
def emitGroups (buffer : BitBuffer) (draft : Draft Rng) : BitBuffer × Draft Rng :=
  if 6 ≤ buffer.count then
    let count := buffer.count - 6
    let group := UInt8.ofNat (buffer.bits >>> count)
    let bits := if count = 0 then 0 else buffer.bits &&& 1 <<< count - 1
    emitGroups ⟨bits, count⟩ (appendPackedGroup uint32 codec draft group)
  else (buffer, draft)
termination_by buffer.count

def pushByte (state : BitBuffer × Draft Rng) (byte : UInt8) : BitBuffer × Draft Rng :=
  emitGroups uint32 codec ⟨state.1.bits <<< 8 ||| byte.toNat, state.1.count + 8⟩ state.2

/-- The padding before the protected prefix. The number of rounds is drawn again in each of them
and is at most two, so three checks are enough. -/
def prefixPadding : Nat → Nat → Draft Rng → Draft Rng
  | 0, _, draft => draft
  | checks + 1, padCount, draft =>
    let drawn := intn uint32 draft.1 2
    if padCount < 1 + drawn.1 then
      prefixPadding checks (padCount + 1) (appendForcedPadding uint32 codec (drawn.2, draft.2))
    else (drawn.2, draft.2)

/-- `PackedConn.nextProtectedPrefixGap`. -/
def nextProtectedPrefixGap (rng : Rng) : Nat × Rng :=
  let drawn := intn uint32 rng 2
  (1 + drawn.1, drawn.2)

/-- The loop of `PackedConn.writeProtectedPrefix`. -/
def prefixLoop (gap effective : Nat) (state : BitBuffer × Draft Rng) :
    List UInt8 → BitBuffer × Draft Rng
  | [] => state
  | byte :: rest =>
    let state := pushByte uint32 codec state byte
    if effective + 1 ≥ gap then
      let draft := appendForcedPadding uint32 codec state.2
      let next := nextProtectedPrefixGap uint32 draft.1
      prefixLoop next.1 0 (state.1, next.2, draft.2) rest
    else prefixLoop gap (effective + 1) state rest

def packedProtectedPrefixBytes : Nat := 14

/-- `PackedConn.writeProtectedPrefix`, with the bytes after the prefix. -/
def writeProtectedPrefix (state : BitBuffer × Draft Rng) (p : List UInt8) :
    (BitBuffer × Draft Rng) × List UInt8 :=
  if p.length = 0 then (state, p)
  else
    let limit := if p.length > packedProtectedPrefixBytes then packedProtectedPrefixBytes
      else p.length
    let draft := prefixPadding uint32 codec 3 0 state.2
    let gap := nextProtectedPrefixGap uint32 draft.1
    (prefixLoop uint32 codec gap.1 0 (state.1, gap.2, draft.2) (p.take limit), p.drop limit)

def alignLoop (state : BitBuffer × Draft Rng) :
    List UInt8 → (BitBuffer × Draft Rng) × List UInt8
  | [] => (state, [])
  | byte :: rest =>
    if state.1.count > 0 then alignLoop (pushByte uint32 codec state byte) rest
    else (state, byte :: rest)

/-- Three bytes at once, with an empty bit buffer. -/
def pushTriple (draft : Draft Rng) (b₁ b₂ b₃ : UInt8) : Draft Rng :=
  let g₁ := b₁ >>> 2 &&& 0x3F
  let g₂ := (b₁ &&& 0x03) <<< 4 ||| b₂ >>> 4 &&& 0x0F
  let g₃ := (b₂ &&& 0x0F) <<< 2 ||| b₃ >>> 6 &&& 0x03
  let g₄ := b₃ &&& 0x3F
  [g₁, g₂, g₃, g₄].foldl (appendPackedGroup uint32 codec) draft

/-- Some rounds of three bytes. -/
def takeTriples : Nat → Draft Rng → List UInt8 → Draft Rng × List UInt8
  | batch + 1, draft, b₁ :: b₂ :: b₃ :: rest =>
    takeTriples batch (pushTriple uint32 codec draft b₁ b₂ b₃) rest
  | _, draft, p => (draft, p)

theorem length_takeTriples_le (batch : Nat) (draft : Draft Rng) (p : List UInt8) :
    (takeTriples uint32 codec batch draft p).2.length ≤ p.length := by
  fun_induction takeTriples uint32 codec batch draft p with
  | case1 batch draft b₁ b₂ b₃ rest ih =>
    simp only [List.length_cons]
    omega
  | case2 => exact Nat.le_refl _

theorem length_takeTriples_lt (draft : Draft Rng) {p : List UInt8} (long : 12 ≤ p.length) :
    (takeTriples uint32 codec 4 draft p).2.length < p.length := by
  match p with
  | b₁ :: b₂ :: b₃ :: rest =>
    have rest := length_takeTriples_le uint32 codec 3 (pushTriple uint32 codec draft b₁ b₂ b₃) rest
    simp only [takeTriples, List.length_cons]
    omega
  | [] | [_] | [_, _] => exact absurd long (by simp)

/-- The loop over four times three bytes. -/
def batchLoop (draft : Draft Rng) (p : List UInt8) : Draft Rng × List UInt8 :=
  if 12 ≤ p.length then
    batchLoop (takeTriples uint32 codec 4 draft p).1 (takeTriples uint32 codec 4 draft p).2
  else (draft, p)
termination_by p.length
decreasing_by exact length_takeTriples_lt uint32 codec draft ‹_›

/-- The loop over three bytes. -/
def tripleLoop (draft : Draft Rng) : List UInt8 → Draft Rng × List UInt8
  | b₁ :: b₂ :: b₃ :: rest => tripleLoop (pushTriple uint32 codec draft b₁ b₂ b₃) rest
  | p => (draft, p)

/-- The end of a `Write`: what is left in the bit buffer, filled up, and the marker. -/
def finishGroups (state : BitBuffer × Draft Rng) : BitBuffer × Draft Rng :=
  if state.1.count > 0 then
    let group := UInt8.ofNat (state.1.bits <<< (6 - state.1.count))
    let draft := appendPackedGroup uint32 codec state.2 group
    (⟨0, 0⟩, draft.1, draft.2 ++ [codec.padMarker])
  else state

/-- `PackedConn.Write`: the bit buffer and the generator after it, and the bytes written. -/
def write (buffer : BitBuffer) (rng : Rng) (p : List UInt8) : BitBuffer × Draft Rng :=
  if p.length = 0 then (buffer, rng, [])
  else
    let front := writeProtectedPrefix uint32 codec (buffer, rng, []) p
    let aligned := alignLoop uint32 codec front.1 front.2
    let batched := batchLoop uint32 codec aligned.1.2 aligned.2
    let tripled := tripleLoop uint32 codec batched.1 batched.2
    let pushed := tripled.2.foldl (pushByte uint32 codec) (aligned.1.1, tripled.1)
    let finished := finishGroups uint32 codec pushed
    (finished.1, maybeAppendPackedPadding uint32 codec finished.2)

/-- `PackedConn.Flush`. -/
def flush (buffer : BitBuffer) (rng : Rng) : BitBuffer × Draft Rng :=
  if buffer.count > 0 then
    let group := UInt8.ofNat (buffer.bits <<< (6 - buffer.count))
    (⟨0, 0⟩, maybeAppendPackedPadding uint32 codec
      (rng, [codec.layout.encodeGroup (group &&& 0x3F), codec.padMarker]))
  else (buffer, maybeAppendPackedPadding uint32 codec (rng, []))

end Write

/-! ### Reading -/

/-- The result of a loop that decodes: the read side's bit buffer, what is in the buffer of the
caller, and what does not fit. -/
structure Decoded where
  buffer : BitBuffer
  out : List UInt8
  pending : List UInt8
  deriving DecidableEq, Repr

/-- `appendDecodedByte`. -/
def Decoded.append (decoded : Decoded) (size : Nat) (byte : UInt8) : Decoded :=
  if decoded.out.length < size then { decoded with out := decoded.out ++ [byte] }
  else { decoded with pending := decoded.pending ++ [byte] }

/-- One byte of a chunk. The error is `ErrInvalidSudokuMapMiss`, with what was decoded before. -/
def decodeByte (codec : Codec) (size : Nat) (decoded : Decoded) (b : UInt8) :
    Except Decoded Decoded :=
  if !codec.layout.hintTable b then
    .ok (if b = codec.padMarker then { decoded with buffer := ⟨0, 0⟩ } else decoded)
  else if !codec.layout.groupValid b then .error decoded
  else
    let bits := decoded.buffer.bits <<< 6 ||| (codec.layout.decodeGroup b).toNat
    let count := decoded.buffer.count + 6
    if count ≥ 8 then
      let count := count - 8
      let decoded := decoded.append size (UInt8.ofNat (bits >>> count))
      .ok { decoded with
        buffer := ⟨if count = 0 then 0 else bits &&& 1 <<< count - 1, count⟩ }
    else .ok { decoded with buffer := ⟨bits, count⟩ }

/-- The loop over a chunk, with the path for four groups at once. -/
def decodeChunk (codec : Codec) (size : Nat) (decoded : Decoded) :
    List UInt8 → Except Decoded Decoded
  | [] => .ok decoded
  | b₁ :: b₂ :: b₃ :: b₄ :: rest =>
    let layout := codec.layout
    if decoded.buffer.count = 0 ∧ decoded.out.length + 3 ≤ size ∧ layout.hintTable b₁ ∧
        layout.hintTable b₂ ∧ layout.hintTable b₃ ∧ layout.hintTable b₄ then
      let g₁ := layout.decodeGroup b₁
      let g₂ := layout.decodeGroup b₂
      let g₃ := layout.decodeGroup b₃
      let g₄ := layout.decodeGroup b₄
      decodeChunk codec size { decoded with
        out := decoded.out ++ [g₁ <<< 2 ||| g₂ >>> 4, g₂ <<< 4 ||| g₃ >>> 2, g₃ <<< 6 ||| g₄] } rest
    else
      (decodeByte codec size decoded b₁).bind fun decoded =>
        decodeChunk codec size decoded (b₂ :: b₃ :: b₄ :: rest)
  | b :: rest =>
    (decodeByte codec size decoded b).bind fun decoded => decodeChunk codec size decoded rest

def packedDecodeBufferSize : Nat := 96 * 1024

def minDecodeReadSize : Nat := 64

def packedReadSize (decodedRemaining maxRaw : Nat) : Nat :=
  if maxRaw ≤ minDecodeReadSize ∨ decodedRemaining = 0 then maxRaw
  else if decodedRemaining > (maxRaw - minDecodeReadSize) / 2 then maxRaw
  else decodedRemaining * 2 + minDecodeReadSize

/-- An error of the connection below. -/
inductive RawError where
  | eof
  | other (text : String)
  deriving DecidableEq, Repr

/-- What a read of the connection below may return at most, and the error that comes with its
last byte. -/
structure RawSegment where
  bytes : List UInt8
  err : Option RawError := none
  deriving DecidableEq, Repr

/-- What `PackedConn.Read` returns. A call without a result waits for more bytes. -/
inductive ReadResult where
  | returned (bytes : List UInt8)
  | failed (err : RawError)
  | mapMiss
  | waiting
  deriving DecidableEq, Repr

/-- The read side of a `PackedConn`, and what the connection below will deliver. -/
structure PackedReader where
  buffer : BitBuffer := {}
  pendingData : List UInt8 := []
  segments : List RawSegment
  deriving DecidableEq, Repr

/-- The size of what is still to be delivered. -/
def RawSegment.weight (segments : List RawSegment) : Nat :=
  (segments.map fun segment => segment.bytes.length + 1).sum

/-- What is left of a segment of which a read takes at most so many bytes. -/
def RawSegment.advance (segment : RawSegment) (limit : Nat) (rest : List RawSegment) :
    List RawSegment :=
  if segment.bytes.length ≤ limit then rest
  else { segment with bytes := segment.bytes.drop limit } :: rest

theorem packedReadSize_pos (size : Nat) : 0 < packedReadSize size packedDecodeBufferSize := by
  unfold packedReadSize packedDecodeBufferSize minDecodeReadSize
  split_ifs <;> omega

theorem RawSegment.weight_advance_lt (segment : RawSegment) {limit : Nat} (positive : 0 < limit)
    (rest : List RawSegment) :
    weight (segment.advance limit rest) < weight (segment :: rest) := by
  unfold advance
  split_ifs with whole
  · simp only [weight, List.map_cons, List.sum_cons]
    omega
  · simp only [weight, List.map_cons, List.sum_cons, List.length_drop]
    omega

/-- The loop of `PackedConn.Read`, with nothing decoded so far. -/
def readLoop (codec : Codec) (size : Nat) (buffer : BitBuffer) (pending : List UInt8) :
    List RawSegment → PackedReader × ReadResult
  | [] => (⟨buffer, pending, []⟩, .waiting)
  | segment :: rest =>
    let limit := packedReadSize size packedDecodeBufferSize
    let left := segment.advance limit rest
    match decodeChunk codec size ⟨buffer, [], pending⟩ (segment.bytes.take limit) with
    | .error decoded => (⟨buffer, decoded.pending, left⟩, .mapMiss)
    | .ok decoded =>
      match (if segment.bytes.length ≤ limit then segment.err else none) with
      | some err =>
        let buffer := if err = .eof then ⟨0, 0⟩ else decoded.buffer
        if decoded.out ≠ [] then (⟨buffer, decoded.pending, left⟩, .returned decoded.out)
        else if decoded.pending ≠ [] then
          (⟨buffer, decoded.pending.drop size, left⟩, .returned (decoded.pending.take size))
        else (⟨buffer, decoded.pending, left⟩, .failed err)
      | none =>
        if decoded.out ≠ [] then
          (⟨decoded.buffer, decoded.pending, left⟩, .returned decoded.out)
        else readLoop codec size decoded.buffer decoded.pending left
termination_by segments => RawSegment.weight segments
decreasing_by exact segment.weight_advance_lt (packedReadSize_pos size) rest

/-- `PackedConn.Read` into a buffer of the size. -/
def PackedReader.read (codec : Codec) (reader : PackedReader) (size : Nat) :
    PackedReader × ReadResult :=
  if size = 0 then (reader, .returned [])
  else if reader.pendingData ≠ [] then
    ({ reader with pendingData := reader.pendingData.drop size },
      .returned (reader.pendingData.take size))
  else readLoop codec size reader.buffer reader.pendingData reader.segments

end Sudoku

end SingBox
