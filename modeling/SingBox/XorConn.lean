/-
This file is the `XorConn` of `protocol/vless/encryption`, which hides the record
headers of the stream it carries. Both directions are incremental parsers: five
bytes of header are masked with a key stream, the length in the header tells how
many bytes are left alone, and then the next header begins. The writer parses what
it masks, the reader parses what it has unmasked.

Both loops work on whole buffers and carry a half-read header from one call to the
next. Each is equal to a machine that looks at one byte at a time, and the machine
of the reader undoes that of the writer byte by byte.
-/

import SingBox.Transducer
import Mathlib

namespace SingBox

open List

namespace Encryption

/-! ### Headers -/

/-- The error of `DecodeHeader`, which quotes the header. -/
structure InvalidHeader where
  header : List UInt8
  deriving DecidableEq, Repr

def encodeHeader (length : Nat) : List UInt8 :=
  [23, 3, 3, UInt8.ofNat (length >>> 8), UInt8.ofNat length]

/-- `DecodeHeader` of the five bytes of a header. -/
def decodeHeader (header : List UInt8) : Nat × Option InvalidHeader :=
  let length := (header.getD 3 0).toNat <<< 8 ||| (header.getD 4 0).toNat
  let length :=
    if header.getD 0 0 ≠ 23 ∨ header.getD 1 0 ≠ 3 ∨ header.getD 2 0 ≠ 3 then 0 else length
  (length, if length < 17 ∨ length > 17000 then some { header := header } else none)

/-! ### Masking -/

/-- A `cipher.Stream` in counter mode: its key stream, and how much of it has been used. -/
structure CipherStream where
  keyStream : Nat → UInt8
  position : Nat := 0

def CipherStream.xorKeyStream (ctr : CipherStream) (bytes : List UInt8) :
    CipherStream × List UInt8 :=
  ({ ctr with position := ctr.position + bytes.length },
    bytes.mapIdx fun index byte => byte ^^^ ctr.keyStream (ctr.position + index))

/-- One direction of an `XorConn`: the key stream, the bytes to leave alone, and the part of
a header that has been seen. -/
structure XorHalf where
  ctr : CipherStream
  skip : Nat
  header : List UInt8 := []
  short : header.length < 5 := by decide

/-- What is parsed of the bytes of a header: what they are before masking, or after it. -/
def CipherStream.parsed (ctr : CipherStream) (decrypting : Bool) (bytes : List UInt8) :
    List UInt8 :=
  if decrypting then (ctr.xorKeyStream bytes).2 else bytes

@[simp] theorem CipherStream.length_parsed (ctr : CipherStream) (decrypting : Bool)
    (bytes : List UInt8) : (ctr.parsed decrypting bytes).length = bytes.length := by
  cases decrypting with
  | false => rfl
  | true => exact length_mapIdx

/-- The loop of `XorConn.Write`, and the one of `XorConn.Read`, over the rest of the buffer:
the writer parses a header before it masks it, the reader after it. -/
def maskLoop (decrypting : Bool) (half : XorHalf) (p : List UInt8) : XorHalf × List UInt8 :=
  if p.length ≤ half.skip then ({ half with skip := half.skip - p.length }, p)
  else
    let need := 5 - half.header.length
    let ahead := p.drop half.skip
    if part : ahead.length < need then
      let masked := half.ctr.xorKeyStream ahead
      ({ ctr := masked.1
         skip := 0
         header := half.header ++ half.ctr.parsed decrypting ahead
         short := by
          rw [List.length_append, CipherStream.length_parsed]
          omega },
        p.take half.skip ++ masked.2)
    else
      let masked := half.ctr.xorKeyStream (ahead.take need)
      let header := half.header ++ half.ctr.parsed decrypting (ahead.take need)
      let rest := maskLoop decrypting
        { ctr := masked.1, skip := (decodeHeader header).1 } (ahead.drop need)
      (rest.1, p.take half.skip ++ masked.2 ++ rest.2)
termination_by p.length
decreasing_by
  have short := half.short
  simp only [List.length_drop]
  omega

/-- An `XorConn`, without the connection below it. -/
structure XorConn where
  outgoing : XorHalf
  incoming : XorHalf

def newXorConn (ctr peerCTR : CipherStream) (outSkip inSkip : Nat) : XorConn where
  outgoing := { ctr := ctr, skip := outSkip }
  incoming := { ctr := peerCTR, skip := inSkip }

/-- `XorConn.Write`: what is written to the connection below. -/
def XorConn.write (conn : XorConn) (b : List UInt8) : XorConn × List UInt8 :=
  if b.length = 0 then (conn, [])
  else
    let masked := maskLoop false conn.outgoing b
    ({ conn with outgoing := masked.1 }, masked.2)

/-- `XorConn.Read` into a buffer of the given size, when the connection below has the bytes
`pending` and hands over the first `available` of them. The bytes that are left below and
those that are returned. -/
def XorConn.read (conn : XorConn) (size available : Nat) (pending : List UInt8) :
    XorConn × List UInt8 × List UInt8 :=
  if size = 0 then (conn, pending, [])
  else
    let count := min size available
    let masked := maskLoop true conn.incoming (pending.take count)
    ({ conn with incoming := masked.1 }, pending.drop count, masked.2)

/-! ### One byte at a time -/

/-- The key stream from the next position on. -/
def CipherStream.next (ctr : CipherStream) : CipherStream :=
  { ctr with position := ctr.position + 1 }

def CipherStream.mask (ctr : CipherStream) (byte : UInt8) : UInt8 :=
  byte ^^^ ctr.keyStream ctr.position

/-- The header grows by a byte; a full header is decoded. -/
def XorHalf.push (half : XorHalf) (byte : UInt8) : XorHalf :=
  if fits : half.header.length + 1 < 5 then
    { ctr := half.ctr.next
      skip := 0
      header := half.header ++ [byte]
      short := by rwa [List.length_append] }
  else { ctr := half.ctr.next, skip := (decodeHeader (half.header ++ [byte])).1 }

/-- What the loops do with one byte. -/
def maskByte (decrypting : Bool) (half : XorHalf) (byte : UInt8) : XorHalf × List UInt8 :=
  if half.skip = 0 then
    (half.push (if decrypting then half.ctr.mask byte else byte), [half.ctr.mask byte])
  else ({ half with skip := half.skip - 1 }, [byte])

open Transducer

variable (decrypting : Bool)

theorem xorKeyStream_cons (ctr : CipherStream) (byte : UInt8) (rest : List UInt8) :
    ctr.xorKeyStream (byte :: rest) = ((ctr.next.xorKeyStream rest).1,
      ctr.mask byte :: (ctr.next.xorKeyStream rest).2) := by
  have shifted : (fun index byte => byte ^^^ ctr.keyStream (ctr.position + (index + 1))) =
      fun index byte => byte ^^^ ctr.next.keyStream (ctr.next.position + index) := by
    funext index byte
    rw [Nat.add_comm index, ← Nat.add_assoc]
    rfl
  unfold CipherStream.xorKeyStream
  rw [mapIdx_cons, length_cons, shifted, Nat.add_comm rest.length, ← Nat.add_assoc]
  rfl

theorem parsed_cons (ctr : CipherStream) (byte : UInt8) (rest : List UInt8) :
    ctr.parsed decrypting (byte :: rest) =
      (if decrypting then ctr.mask byte else byte) :: ctr.next.parsed decrypting rest := by
  unfold CipherStream.parsed
  rw [xorKeyStream_cons]
  cases decrypting <;> rfl

theorem parsed_nil (ctr : CipherStream) : ctr.parsed decrypting [] = [] := by
  cases decrypting <;> rfl

/-- Bytes that are left alone. -/
theorem run_maskByte_skipped (half : XorHalf) (bytes : List UInt8)
    (inside : bytes.length ≤ half.skip) :
    run (maskByte decrypting) half bytes =
      ({ half with skip := half.skip - bytes.length }, bytes) := by
  induction bytes generalizing half with
  | nil => rfl
  | cons byte rest ih =>
    have more : rest.length + 1 ≤ half.skip := inside
    rw [run_cons, maskByte, if_neg (by omega), ih _ (by dsimp only; omega)]
    refine Prod.ext ?_ rfl
    rw [length_cons, Nat.sub_sub, Nat.add_comm 1]

/-- Bytes that do not complete the header. -/
theorem run_maskByte_part (half : XorHalf) (bytes : List UInt8) (atHeader : half.skip = 0)
    (part : half.header.length + bytes.length < 5) :
    ∃ short, run (maskByte decrypting) half bytes =
      (⟨(half.ctr.xorKeyStream bytes).1, 0, half.header ++ half.ctr.parsed decrypting bytes,
        short⟩, (half.ctr.xorKeyStream bytes).2) := by
  induction bytes generalizing half with
  | nil =>
    obtain ⟨ctr, skip, header, short⟩ := half
    cases atHeader
    simp only [parsed_nil, append_nil]
    exact ⟨short, rfl⟩
  | cons byte rest ih =>
    rw [length_cons] at part
    have fits : half.header.length + 1 < 5 := by omega
    rw [run_cons, maskByte, if_pos atHeader, xorKeyStream_cons, parsed_cons]
    rw [XorHalf.push, dif_pos fits, append_cons]
    obtain ⟨short, later⟩ := ih
      ⟨half.ctr.next, 0, half.header ++ [if decrypting then half.ctr.mask byte else byte],
        by rwa [length_append]⟩ rfl (by
        rw [length_append, length_singleton]
        omega)
    rw [later]
    exact ⟨short, rfl⟩

/-- Bytes that complete the header. -/
theorem run_maskByte_full (half : XorHalf) (bytes : List UInt8) (atHeader : half.skip = 0)
    (full : half.header.length + bytes.length = 5) :
    run (maskByte decrypting) half bytes =
      ({ ctr := (half.ctr.xorKeyStream bytes).1
         skip := (decodeHeader (half.header ++ half.ctr.parsed decrypting bytes)).1 },
        (half.ctr.xorKeyStream bytes).2) := by
  induction bytes generalizing half with
  | nil => exact absurd full half.short.ne
  | cons byte rest ih =>
    rw [length_cons] at full
    rw [run_cons, maskByte, if_pos atHeader, xorKeyStream_cons, parsed_cons]
    by_cases fits : half.header.length + 1 < 5
    · rw [XorHalf.push, dif_pos fits, ih _ rfl (by
        rw [length_append, length_singleton]
        omega), append_assoc]
      rfl
    · have last : rest = [] := length_eq_zero_iff.mp (by omega)
      rw [XorHalf.push, dif_neg fits, last, parsed_nil]
      rfl

/-- The loops do with a buffer what the machine does byte by byte. -/
theorem maskLoop_eq_run (half : XorHalf) (p : List UInt8) :
    maskLoop decrypting half p = run (maskByte decrypting) half p := by
  have skipped (half : XorHalf) (p : List UInt8) (outside : ¬p.length ≤ half.skip) :
      run (maskByte decrypting) half p =
        ((run (maskByte decrypting) { half with skip := 0 } (p.drop half.skip)).1,
          p.take half.skip ++
            (run (maskByte decrypting) { half with skip := 0 } (p.drop half.skip)).2) := by
    have taken : (p.take half.skip).length = half.skip := length_take_of_le (by omega)
    have passed := run_maskByte_skipped decrypting half (p.take half.skip) (by omega)
    rw [taken, Nat.sub_self] at passed
    conv_lhs => rw [← take_append_drop half.skip p]
    rw [run_append, passed]
  fun_induction maskLoop decrypting half p with
  | case1 half p inside => exact (run_maskByte_skipped decrypting half p inside).symm
  | case2 half p outside need ahead part masked =>
    obtain ⟨short, machine⟩ := run_maskByte_part decrypting { half with skip := 0 } ahead rfl
      (by dsimp only; omega)
    rw [skipped half p outside, machine]
  | case3 half p outside need ahead complete masked header rest ih =>
    have header := half.short
    have machine := run_maskByte_full decrypting { half with skip := 0 }
      (ahead.take need) rfl (by
        dsimp only
        rw [length_take_of_le (Nat.le_of_not_lt complete)]
        omega)
    rw [skipped half p outside, ← take_append_drop need (p.drop half.skip), run_append,
      machine, ← ih, append_assoc]

/-! ### Transparency -/

/-- The reader, in the state the writer was in, undoes what the writer did. -/
theorem run_unmask (half : XorHalf) (bytes : List UInt8) :
    run (maskByte true) half (run (maskByte false) half bytes).2 =
      ((run (maskByte false) half bytes).1, bytes) := by
  have letterwise (writer reader : XorHalf) (byte : UInt8) (same : writer = reader) :
      (run (maskByte true) reader (maskByte false writer byte).2).2 = [byte] ∧
        (maskByte false writer byte).1 =
          (run (maskByte true) reader (maskByte false writer byte).2).1 := by
    subst same
    by_cases atHeader : writer.skip = 0
    · have twice : writer.ctr.mask (writer.ctr.mask byte) = byte := by
        rw [CipherStream.mask, CipherStream.mask, UInt8.xor_assoc, UInt8.xor_self, UInt8.xor_zero]
      simp [maskByte, atHeader, run_cons, twice]
    · simp [maskByte, atHeader, run_cons]
  obtain ⟨restored, same⟩ := run_channel Eq letterwise bytes half half rfl
  exact Prod.ext same.symm restored

/-- Each byte gives one byte. -/
theorem length_run_maskByte (half : XorHalf) (bytes : List UInt8) :
    (run (maskByte decrypting) half bytes).2.length = bytes.length := by
  induction bytes generalizing half with
  | nil => rfl
  | cons byte rest ih =>
    rw [run_cons, length_append, ih, maskByte]
    split <;> exact Nat.add_comm ..

/-- Which position of the key stream masks each byte of a plain stream. -/
def maskPositions (position skip : Nat) (header : List UInt8) : List UInt8 → List (Option Nat)
  | [] => []
  | byte :: rest =>
    if skip = 0 then
      some position ::
        if header.length + 1 < 5 then maskPositions (position + 1) 0 (header ++ [byte]) rest
        else maskPositions (position + 1) (decodeHeader (header ++ [byte])).1 [] rest
    else none :: maskPositions position (skip - 1) header rest

/-- A byte, masked at the given position or left alone. -/
def maskAt (keyStream : Nat → UInt8) (byte : UInt8) : Option Nat → UInt8
  | none => byte
  | some position => byte ^^^ keyStream position

theorem maskAt_maskAt (keyStream : Nat → UInt8) (byte : UInt8) (position : Option Nat) :
    maskAt keyStream (maskAt keyStream byte position) position = byte := by
  cases position with
  | none => rfl
  | some position => rw [maskAt, maskAt, UInt8.xor_assoc, UInt8.xor_self, UInt8.xor_zero]

theorem length_maskPositions (position skip : Nat) (header bytes : List UInt8) :
    (maskPositions position skip header bytes).length = bytes.length := by
  induction bytes generalizing position skip header with
  | nil => rfl
  | cons byte rest ih =>
    rw [maskPositions]
    repeat' split
    all_goals exact congrArg (· + 1) (ih _ _ _)

/-- Masking twice at the same positions restores the bytes. -/
theorem zipWith_maskAt_maskAt (keyStream : Nat → UInt8) (bytes : List UInt8)
    (positions : List (Option Nat)) (aligned : positions.length = bytes.length) :
    List.zipWith (maskAt keyStream) (List.zipWith (maskAt keyStream) bytes positions)
      positions = bytes := by
  induction bytes generalizing positions with
  | nil => rfl
  | cons byte rest ih =>
    cases positions with
    | nil => cases aligned
    | cons position later =>
      rw [zipWith_cons_cons, zipWith_cons_cons, maskAt_maskAt, ih later (Nat.succ.inj aligned)]

theorem zipWith_take {First Second Result : Type} (f : First → Second → Result)
    (first : List First) (second : List Second) (count : Nat) :
    List.zipWith f (first.take count) second = (List.zipWith f first second).take count := by
  induction first generalizing second count with
  | nil => simp
  | cons head rest ih =>
    cases second <;> cases count <;> simp [ih]

/-- The writer masks the bytes at the positions. -/
theorem run_mask_eq_maskAt (half : XorHalf) (bytes : List UInt8) :
    (run (maskByte false) half bytes).2 =
      List.zipWith (maskAt half.ctr.keyStream) bytes
        (maskPositions half.ctr.position half.skip half.header bytes) := by
  induction bytes generalizing half with
  | nil => rfl
  | cons byte rest ih =>
    rw [run_cons, ih, maskPositions, maskByte]
    by_cases atHeader : half.skip = 0
    · rw [if_pos atHeader, if_pos atHeader]
      by_cases fits : half.header.length + 1 < 5
      · simp only [XorHalf.push, fits]
        rfl
      · simp only [XorHalf.push, fits]
        rfl
    · rw [if_neg atHeader, if_neg atHeader]
      rfl

/-- A writer and a reader with the transport between them, and what the calls so far have
handed over. -/
structure XorLink where
  writer : XorConn
  reader : XorConn
  pending : List UInt8 := []
  written : List UInt8 := []
  sent : List UInt8 := []
  obtained : List UInt8 := []

/-- A call of one of the ends. The transport hands at most `available` bytes to a read. -/
inductive LinkEvent where
  | write (b : List UInt8)
  | read (size available : Nat)

def XorLink.step (link : XorLink) : LinkEvent → XorLink
  | .write b =>
    let outcome := link.writer.write b
    { link with
      writer := outcome.1
      pending := link.pending ++ outcome.2
      written := link.written ++ b
      sent := link.sent ++ outcome.2 }
  | .read size available =>
    let outcome := link.reader.read size available link.pending
    { link with
      reader := outcome.1
      pending := outcome.2.1
      obtained := link.obtained ++ outcome.2.2 }

/-- Both ends have come from the half they started in: the writer by what was written, the
reader by what it has received of what was sent. -/
structure XorLink.Linked (half : XorHalf) (link : XorLink) : Prop where
  writer : run (maskByte false) half link.written = (link.writer.outgoing, link.sent)
  reader : ∃ received, received ++ link.pending = link.sent ∧
    run (maskByte true) half received = (link.reader.incoming, link.obtained)

theorem XorConn.write_eq (conn : XorConn) (b : List UInt8) :
    conn.write b = ({ conn with outgoing := (run (maskByte false) conn.outgoing b).1 },
      (run (maskByte false) conn.outgoing b).2) := by
  rw [write, maskLoop_eq_run]
  split
  next empty =>
    rw [length_eq_zero_iff.mp empty]
    rfl
  · rfl

/-- A read takes the bytes that fit and that the transport hands over. -/
theorem XorConn.read_eq (conn : XorConn) (size available : Nat) (pending : List UInt8) :
    let count := min size available
    conn.read size available pending =
      ({ conn with incoming := (run (maskByte true) conn.incoming (pending.take count)).1 },
        pending.drop count, (run (maskByte true) conn.incoming (pending.take count)).2) := by
  dsimp only
  rw [read]
  split
  next empty =>
    rw [empty, Nat.zero_min]
    rfl
  · dsimp only
    rw [maskLoop_eq_run]

theorem XorLink.linked_step {half : XorHalf} {link : XorLink} (linked : link.Linked half)
    (event : LinkEvent) : (link.step event).Linked half := by
  obtain ⟨received, whole, reading⟩ := linked.reader
  cases event with
  | write b =>
    rw [step, XorConn.write_eq]
    refine ⟨?_, received, ?_, reading⟩
    · rw [run_append, linked.writer]
    · rw [← append_assoc, whole]
  | read size available =>
    rw [step, link.reader.read_eq]
    refine ⟨linked.writer, received ++ link.pending.take (min size available), ?_, ?_⟩
    · rw [append_assoc, take_append_drop, whole]
    · rw [run_append, reading]

theorem XorLink.linked_run {half : XorHalf} (events : List LinkEvent) {link : XorLink}
    (linked : link.Linked half) : (events.foldl step link).Linked half := by
  induction events generalizing link with
  | nil => exact linked
  | cons event rest ih => exact ih (linked_step linked event)

namespace XorLink.Linked

variable {half : XorHalf} {link : XorLink} (linked : link.Linked half)

include linked

/-- Nothing is lost on the way. -/
theorem length_eq : link.obtained.length + link.pending.length = link.written.length := by
  obtain ⟨received, whole, reading⟩ := linked.reader
  have obtained := length_run_maskByte true half received
  have sent := length_run_maskByte false half link.written
  rw [reading] at obtained
  rw [linked.writer, ← whole, length_append] at sent
  dsimp only at obtained sent
  omega

theorem obtained_isPrefix : link.obtained <+: link.written := by
  obtain ⟨received, whole, reading⟩ := linked.reader
  have restored := congrArg Prod.snd (run_unmask half link.written)
  rw [linked.writer] at restored
  dsimp only at restored
  rw [← restored, ← whole, show link.obtained = _ from (congrArg Prod.snd reading).symm]
  exact output_isPrefix _ ⟨_, rfl⟩

end XorLink.Linked

/-- An `XorConn` is transparent: whatever the calls, the reader has obtained a part of what was
written, and the rest is on its way; the next read gives as much of it as fits and the transport
hands over; and the reader unmasked every byte it received at the position of the key stream at
which the writer masked it. -/
theorem xorConn_transparent (ctr peerCTR readerCTR : CipherStream) (skip inSkip outSkip : Nat)
    (events : List LinkEvent) :
    let link := events.foldl XorLink.step
      { writer := newXorConn ctr peerCTR skip inSkip
        reader := newXorConn readerCTR ctr outSkip skip }
    let positions := maskPositions ctr.position skip [] link.written
    link.obtained <+: link.written ∧
      link.obtained.length + link.pending.length = link.written.length ∧
      (link.pending = [] → link.obtained = link.written) ∧
      (∀ size available, (link.step (.read size available)).obtained =
        link.written.take (link.obtained.length +
          min (min size available) link.pending.length)) ∧
      link.sent = List.zipWith (maskAt ctr.keyStream) link.written positions ∧
      link.obtained = List.zipWith (maskAt ctr.keyStream)
        (link.sent.take link.obtained.length) positions := by
  intro link positions
  have linked : link.Linked { ctr := ctr, skip := skip } :=
    XorLink.linked_run events ⟨rfl, [], rfl, rfl⟩
  have masked : link.sent = List.zipWith (maskAt ctr.keyStream) link.written positions := by
    have writing := run_mask_eq_maskAt { ctr := ctr, skip := skip } link.written
    rw [linked.writer] at writing
    exact writing
  have part := linked.obtained_isPrefix
  refine ⟨part, linked.length_eq, fun drained => ?_, fun size available => ?_, masked, ?_⟩
  · have whole := linked.length_eq
    rw [drained] at whole
    exact part.eq_of_length whole
  · have next := prefix_iff_eq_take.mp
      (XorLink.linked_step linked (.read size available)).obtained_isPrefix
    have taken : (link.step (.read size available)).obtained.length =
        link.obtained.length + min (min size available) link.pending.length := by
      rw [XorLink.step, link.reader.read_eq]
      dsimp only
      rw [length_append, length_run_maskByte, length_take]
    rw [taken] at next
    exact next
  · have unmasked := zipWith_maskAt_maskAt ctr.keyStream link.written positions
      (length_maskPositions _ _ _ _)
    rw [← masked] at unmasked
    rw [zipWith_take, unmasked]
    exact prefix_iff_eq_take.mp part

end Encryption

end SingBox
