/-
This file is the first half of `QUICClientHello`: the long header of an Initial
packet, the removal of its protection, and the frames inside. The keys of Initial
packets are public, so the plaintext is whatever the sender wants.

Header and decryption stay inside the packet whatever it contains. Of the frames
only CRYPTO is dangerous: its length field says how much of the packet's memory is
taken as payload, and is not compared with what is there.
-/

import SingBox.InboundContext
import SingBox.Ja3

namespace SingBox

open List

namespace Quic

open Outcome

/-! ### Reading bytes -/

abbrev Sniff := Outcome SniffError

/-- A `bytes.Reader`. Its position may lie behind the end. -/
structure Reader where
  bytes : List UInt8
  position : Nat := 0

variable {reader : Reader} {fuel : Nat} {memory : List UInt8}

namespace Reader

/-- `bytes.Reader.Len`. -/
def len (reader : Reader) : Nat := reader.bytes.length - reader.position

/-- `bytes.Reader.Seek` from the current position. -/
def seek (reader : Reader) (offset : Nat) : Reader :=
  { reader with position := reader.position + offset }

def readByte (reader : Reader) : Sniff (UInt8 × Reader) :=
  match reader.bytes[reader.position]? with
  | some byte => .value (byte, reader.seek 1)
  | none => .error [.other "EOF"]

/-- `io.ReadFull` into a buffer of the given size. -/
def readFull (reader : Reader) (count : Nat) : Sniff (List UInt8 × Reader) :=
  if reader.len < count then .error [.other "unexpected EOF"]
  else .value ((reader.bytes.drop reader.position).take count, reader.seek count)

/-- `io.CopyN(io.Discard, reader, count)`. -/
def discard (reader : Reader) (count : Nat) : Sniff Reader :=
  if reader.len < count then .error [.other "EOF"] else .value (reader.seek count)

/-- One reader has read on from the other, inside the bytes. -/
structure Advances (before after : Reader) : Prop where
  bytes : after.bytes = before.bytes
  further : before.position ≤ after.position
  inside : after.position ≤ before.bytes.length

theorem Advances.trans {first second third : Reader} (before : Advances first second)
    (after : Advances second third) : Advances first third where
  bytes := after.bytes.trans before.bytes
  further := before.further.trans after.further
  inside := before.bytes ▸ after.inside

theorem ensures_readByte (reader : Reader) :
    reader.readByte.Ensures fun result => Advances reader result.2 := by
  rw [readByte]
  split
  next found => exact ⟨rfl, Nat.le_succ _, (List.getElem?_eq_some_iff.mp found).1⟩
  · trivial

theorem ensures_readFull (inside : reader.position ≤ reader.bytes.length) (count : Nat) :
    (reader.readFull count).Ensures fun result =>
      Advances reader result.2 ∧ result.2.position = reader.position + count := by
  refine ensures_ite_error fun long => ?_
  rw [len] at long
  exact ⟨⟨rfl, Nat.le_add_right _ _, by simp only [seek]; omega⟩, rfl⟩

theorem ensures_discard (inside : reader.position ≤ reader.bytes.length) (count : Nat) :
    (reader.discard count).Ensures fun after =>
      Advances reader after ∧ after.position = reader.position + count := by
  refine ensures_ite_error fun long => ?_
  rw [len] at long
  exact ⟨⟨rfl, Nat.le_add_right _ _, by simp only [seek]; omega⟩, rfl⟩

end Reader

open Reader

/-- `qtls.ReadUvarint`. -/
def readUvarint (reader : Reader) : Sniff (Nat × Reader) := do
  let (firstByte, reader) ← reader.readByte
  let len := 1 <<< ((firstByte.toNat &&& 0xc0) >>> 6)
  let b1 := firstByte.toNat &&& 0x3f
  if len = 1 then pure (b1, reader)
  else do
    let (b2, reader) ← reader.readByte
    if len = 2 then pure (b2.toNat + b1 <<< 8, reader)
    else do
      let (b3, reader) ← reader.readByte
      let (b4, reader) ← reader.readByte
      if len = 4 then
        pure (b4.toNat + b3.toNat <<< 8 + b2.toNat <<< 16 + b1 <<< 24, reader)
      else do
        let (b5, reader) ← reader.readByte
        let (b6, reader) ← reader.readByte
        let (b7, reader) ← reader.readByte
        let (b8, reader) ← reader.readByte
        pure (b8.toNat + b7.toNat <<< 8 + b6.toNat <<< 16 + b5.toNat <<< 24 + b4.toNat <<< 32 +
          b3.toNat <<< 40 + b2.toNat <<< 48 + b1 <<< 56, reader)

/-- A variable-length integer has at most 62 bits, and at least one byte. -/
theorem ensures_readUvarint (reader : Reader) :
    (readUvarint reader).Ensures fun result => result.1 < 2 ^ 62 ∧ Advances reader result.2 := by
  refine (ensures_readByte reader).bind fun (firstByte, r1) a1 => ?_
  have small : firstByte.toNat &&& 0x3f ≤ 63 := Nat.and_le_right
  dsimp only
  split
  · exact ⟨by omega, a1⟩
  refine (ensures_readByte r1).bind fun (b2, r2) a2 => ?_
  have := b2.toNat_lt
  split
  · exact ⟨by simp only [Nat.shiftLeft_eq]; omega, a1.trans a2⟩
  refine (ensures_readByte r2).bind fun (b3, r3) a3 => ?_
  refine (ensures_readByte r3).bind fun (b4, r4) a4 => ?_
  have := b3.toNat_lt
  have := b4.toNat_lt
  dsimp only
  split
  · exact ⟨by simp only [Nat.shiftLeft_eq]; omega, ((a1.trans a2).trans a3).trans a4⟩
  refine (ensures_readByte r4).bind fun (b5, r5) a5 => ?_
  refine (ensures_readByte r5).bind fun (b6, r6) a6 => ?_
  refine (ensures_readByte r6).bind fun (b7, r7) a7 => ?_
  refine (ensures_readByte r7).bind fun (b8, r8) a8 => ?_
  have := b5.toNat_lt
  have := b6.toNat_lt
  have := b7.toNat_lt
  have := b8.toNat_lt
  exact ⟨by simp only [Nat.shiftLeft_eq]; omega,
    ((((((a1.trans a2).trans a3).trans a4).trans a5).trans a6).trans a7).trans a8⟩

/-! ### The Initial packet -/

def versionDraft29 : Nat := 0xff00001d

def version1 : Nat := 0x1

def version2 : Nat := 0x6b3343cf

/-- What the initial secret of a connection is used for: the header protection mask of a
sample, and the AEAD, given the packet number, the additional data and the ciphertext. Both
depend on the version and the destination connection ID. -/
structure Keys where
  mask : Nat → List UInt8 → List UInt8 → List UInt8
  length_mask : ∀ version destConnID sample, (mask version destConnID sample).length = 16
  openInitial : Nat → List UInt8 → Nat → List UInt8 → List UInt8 → Option (List UInt8)
  length_openInitial : ∀ version destConnID packetNumber header data plaintext,
    openInitial version destConnID packetNumber header data = some plaintext →
      plaintext.length + 16 = data.length

structure Header where
  versionNumber : Nat
  destConnID : List UInt8
  hdrLen : Nat
  packetLen : Nat
  pnBytes : List UInt8

def bigEndian (bytes : List UInt8) : Nat := bytes.foldl (fun value byte => value * 256 + byte.toNat) 0

/-- The header fields of `QUICClientHello`. -/
def readHeader (packet : List UInt8) : Sniff Header := do
  let (typeByte, reader) ← readByte { bytes := packet }
  if typeByte &&& 0x40 = 0 then .error [.other "bad type byte"]
  else do
    let (version, reader) ← reader.readFull 4
    let versionNumber := bigEndian version
    if versionNumber ≠ versionDraft29 ∧ versionNumber ≠ version1 ∧ versionNumber ≠ version2 then
      .error [.other "bad version"]
    else
      let packetType := (typeByte &&& 0x30) >>> 4
      if packetType = 0 ∧ versionNumber = version2 ∨ packetType = 2 ∧ versionNumber ≠ version2 ∨
          packetType > 2 then
        .error [.other "bad packet type"]
      else do
        let (destConnIDLen, reader) ← reader.readByte
        if destConnIDLen = 0 ∨ destConnIDLen > 20 then
          .error [.other "bad destination connection id length"]
        else do
          let (destConnID, reader) ← reader.readFull destConnIDLen.toNat
          let (srcConnIDLen, reader) ← reader.readByte
          let reader ← reader.discard srcConnIDLen.toNat
          let (tokenLen, reader) ← readUvarint reader
          let reader ← reader.discard tokenLen
          let (packetLen, reader) ← readUvarint reader
          let hdrLen := packet.length - reader.len
          if hdrLen + packetLen > packet.length then .error [.other "invalid argument"]
          else do
            let reader ← reader.discard 4
            let (pnBytes, _) ← reader.readFull 16
            pure { versionNumber := versionNumber, destConnID := destConnID, hdrLen := hdrLen,
                   packetLen := packetLen, pnBytes := pnBytes }

/-- The packet goes on for at least 20 bytes after a header that is accepted, and the
length in the header ends inside the packet. -/
theorem ensures_readHeader (packet : List UInt8) :
    (readHeader packet).Ensures fun header =>
      header.hdrLen + 20 ≤ packet.length ∧ header.hdrLen + header.packetLen ≤ packet.length := by
  refine (ensures_readByte _).bind fun (typeByte, r1) a1 => ensures_ite_error fun _ => ?_
  refine (ensures_readFull (a1.bytes ▸ a1.inside) 4).bind fun (version, r2) a2 => ?_
  have a2 := a1.trans a2.1
  refine ensures_ite_error fun _ => ensures_ite_error fun _ => ?_
  refine (ensures_readByte r2).bind fun (destConnIDLen, r3) a3 => ensures_ite_error fun _ => ?_
  have a3 := a2.trans a3
  refine (ensures_readFull (a3.bytes ▸ a3.inside) _).bind fun (destConnID, r4) a4 => ?_
  have a4 := a3.trans a4.1
  refine (ensures_readByte r4).bind fun (srcConnIDLen, r5) a5 => ?_
  have a5 := a4.trans a5
  refine (ensures_discard (a5.bytes ▸ a5.inside) _).bind fun r6 a6 => ?_
  have a6 := a5.trans a6.1
  refine (ensures_readUvarint r6).bind fun (tokenLen, r7) a7 => ?_
  have a7 := a6.trans a7.2
  refine (ensures_discard (a7.bytes ▸ a7.inside) _).bind fun r8 a8 => ?_
  have a8 := a7.trans a8.1
  refine (ensures_readUvarint r8).bind fun (packetLen, r9) a9 => ?_
  have a9 := a8.trans a9.2
  refine ensures_ite_error fun fits => ?_
  refine (ensures_discard (a9.bytes ▸ a9.inside) 4).bind fun r10 a10 => ?_
  have a10' := a9.trans a10.1
  refine (ensures_readFull (a10'.bytes ▸ a10'.inside) 16).bind fun (pnBytes, r11) a11 => ?_
  have end11 := (a10'.trans a11.1).inside
  have start9 := a9.inside
  have same9 : r9.bytes = packet := a9.bytes
  dsimp only [len] at fits start9 end11 a10 a11
  rw [same9] at fits
  show packet.length - r9.len + 20 ≤ _ ∧ packet.length - r9.len + packetLen ≤ _
  rw [len, same9]
  omega

/-- A packet without its header protection. -/
structure Unprotected where
  newPacket : List UInt8
  packetNumber : Nat
  extHdrLen : Nat

/-- The switch on the length of the packet number. -/
def readPacketNumber (newPacket : List UInt8) (hdrLen packetNumberLength : Nat) : Sniff Nat :=
  if packetNumberLength = 1 then do
    let byte ← index newPacket hdrLen
    pure byte.toNat
  else if packetNumberLength = 2 then do
    let rest ← sliceFrom newPacket hdrLen
    Ja3.uint16At rest 0
  else if packetNumberLength = 3 then do
    let low ← index newPacket (hdrLen + 2)
    let middle ← index newPacket (hdrLen + 1)
    let high ← index newPacket hdrLen
    pure (low.toNat ||| middle.toNat <<< 8 ||| high.toNat <<< 16)
  else if packetNumberLength = 4 then do
    let rest ← sliceFrom newPacket hdrLen
    let high ← Ja3.uint16At rest 0
    let low ← Ja3.uint16At rest 2
    pure (high * 65536 + low)
  else .error [.other "bad packet number length"]

/-- The removal of the header protection in a copy of the packet. The bytes behind the packet
number are taken from the packet again. -/
def unprotect (keys : Keys) (packet : List UInt8) (header : Header) : Sniff Unprotected := do
  let hdrLen := header.hdrLen
  let mask := keys.mask header.versionNumber header.destConnID header.pnBytes
  let first ← index mask 0
  let newPacket ← update packet 0 (· ^^^ (first &&& 0xf))
  let _ ← slice newPacket hdrLen (hdrLen + 4)
  let newPacket ← (List.range 4).foldlM (fun newPacket i => do
    let bits ← index mask (i + 1)
    update newPacket (hdrLen + i) (· ^^^ bits)) newPacket
  let first ← index newPacket 0
  let packetNumberLength := (first.toNat &&& 0x3) + 1
  if hdrLen + packetNumberLength > header.packetLen + hdrLen then
    .error [.other "invalid argument"]
  else do
    let packetNumber ← readPacketNumber newPacket hdrLen packetNumberLength
    let extHdrLen := hdrLen + packetNumberLength
    let _ ← slice newPacket extHdrLen (hdrLen + 4)
    let rest ← sliceFrom packet extHdrLen
    let newPacket := newPacket.take extHdrLen ++ rest.take (hdrLen + 4 - extHdrLen) ++
      newPacket.drop (hdrLen + 4)
    pure { newPacket := newPacket, packetNumber := packetNumber, extHdrLen := extHdrLen }

/-- The plaintext of a packet, and the memory up to the capacity of its slice: the plaintext
replaces the start of the ciphertext in the copy of the packet. -/
structure Initial where
  decrypted : List UInt8
  memory : List UInt8

/-- The first part of `QUICClientHello`, up to the frames. -/
def decryptInitial (keys : Keys) (packet : List UInt8) : Sniff Initial := do
  let header ← readHeader packet
  let { newPacket, packetNumber, extHdrLen } ← unprotect keys packet header
  let data ← slice newPacket extHdrLen (header.packetLen + header.hdrLen)
  let additionalData ← slice newPacket 0 extHdrLen
  match keys.openInitial header.versionNumber header.destConnID packetNumber additionalData
      data with
  | none => .error [.other "cipher: message authentication failed"]
  | some decrypted =>
    pure { decrypted := decrypted
           memory := decrypted ++ newPacket.drop (extHdrLen + decrypted.length) }

theorem ensures_readPacketNumber {newPacket : List UInt8} {hdrLen : Nat}
    (long : hdrLen + 4 ≤ newPacket.length) (packetNumberLength : Nat) :
    (readPacketNumber newPacket hdrLen packetNumberLength).Ensures fun _ => True := by
  rw [readPacketNumber]
  split
  · exact (ensures_index (by omega)).bind fun _ _ => trivial
  split
  · refine (ensures_sliceFrom (by omega)).bind fun rest same => ?_
    refine (Ja3.ensures_uint16At ?_).mono fun _ _ => trivial
    rw [same, length_drop]
    omega
  split
  · refine (ensures_index (by omega)).bind fun _ _ => (ensures_index (by omega)).bind fun _ _ => ?_
    exact (ensures_index (by omega)).bind fun _ _ => trivial
  split
  · refine (ensures_sliceFrom (by omega)).bind fun rest same => ?_
    have length : rest.length = newPacket.length - hdrLen := by rw [same, length_drop]
    refine (Ja3.ensures_uint16At (by omega)).bind fun _ _ => ?_
    exact (Ja3.ensures_uint16At (by omega)).bind fun _ _ => trivial
  · trivial

theorem ensures_unprotect (keys : Keys) {packet : List UInt8} {header : Header}
    (long : header.hdrLen + 20 ≤ packet.length) :
    (unprotect keys packet header).Ensures fun unprotected =>
      unprotected.newPacket.length = packet.length ∧
        unprotected.extHdrLen ≤ header.packetLen + header.hdrLen := by
  have mask := keys.length_mask header.versionNumber header.destConnID header.pnBytes
  refine (ensures_index (by omega)).bind fun first _ => ?_
  refine (ensures_update (by omega) _).bind fun first same => ?_
  refine (ensures_slice (by omega) (by omega)).bind fun _ _ => ?_
  refine (ensures_foldlM (fun newPacket => newPacket.length = packet.length) same
    fun i member newPacket same => ?_).bind fun newPacket same => ?_
  · have := mem_range.mp member
    refine (ensures_index (by omega)).bind fun bits _ => ?_
    exact (ensures_update (by omega) _).mono fun _ length => length.trans same
  refine (ensures_index (by omega)).bind fun first _ => ensures_ite_error fun fits => ?_
  have small : first.toNat &&& 0x3 ≤ 3 := Nat.and_le_right
  refine (ensures_readPacketNumber (by omega) _).bind fun packetNumber _ => ?_
  refine (ensures_slice (by omega) (by omega)).bind fun _ _ => ?_
  refine (ensures_sliceFrom (by omega)).bind fun rest tail => ?_
  refine ⟨?_, by dsimp only; omega⟩
  simp only [length_append, length_take, length_drop, tail]
  omega

/-- Header and decryption stay inside the packet, and the plaintext is followed by the rest
of the packet in memory. -/
theorem ensures_decryptInitial (keys : Keys) (packet : List UInt8) :
    (decryptInitial keys packet).Ensures fun initial =>
      initial.decrypted.length ≤ initial.memory.length ∧ initial.memory.length ≤ packet.length := by
  refine (ensures_readHeader packet).bind fun header fits => ?_
  refine (ensures_unprotect keys fits.1).bind fun unprotected bounds => ?_
  refine (ensures_slice (by omega) (by omega)).bind fun data ciphertext => ?_
  refine (ensures_slice (by omega) (by omega)).bind fun additionalData _ => ?_
  split
  · trivial
  next decrypted opened =>
    have overhead := keys.length_openInitial _ _ _ _ _ _ opened
    refine ⟨by simp only [length_append]; omega, ?_⟩
    simp only [length_append, length_drop]
    omega

/-! ### Frames -/

def readAckRanges : Nat → Reader → Sniff Reader
  | 0, reader => pure reader
  | ackRangeCount + 1, reader => do
    let (_, reader) ← readUvarint reader
    let (_, reader) ← readUvarint reader
    readAckRanges ackRangeCount reader

def readAck (frameType : UInt8) (reader : Reader) : Sniff Reader := do
  let (_, reader) ← readUvarint reader
  let (_, reader) ← readUvarint reader
  let (ackRangeCount, reader) ← readUvarint reader
  let (_, reader) ← readUvarint reader
  let reader ← readAckRanges ackRangeCount reader
  if frameType = 0x03 then do
    let (_, reader) ← readUvarint reader
    let (_, reader) ← readUvarint reader
    let (_, reader) ← readUvarint reader
    pure reader
  else pure reader

/-- The fields of a frame after its type, up to the payload of a CRYPTO frame, whose offset
and length are returned. -/
def readFields (frameType : UInt8) (reader : Reader) : Sniff (Option (Nat × Nat) × Reader) :=
  if frameType = 0x00 ∨ frameType = 0x01 then pure (none, reader)
  else if frameType = 0x02 ∨ frameType = 0x03 then do
    let reader ← readAck frameType reader
    pure (none, reader)
  else if frameType = 0x06 then do
    let (offset, reader) ← readUvarint reader
    let (length, reader) ← readUvarint reader
    pure (some (offset, length), reader)
  else if frameType = 0x1c then do
    let (_, reader) ← readUvarint reader
    let (_, reader) ← readUvarint reader
    let (length, reader) ← readUvarint reader
    pure (none, reader.seek length)
  else .error [.other "invalid argument"]

/-- The frame loop of `QUICClientHello`: the types of the frames and the fragments of CRYPTO
frames so far. -/
def readFrames (memory : List UInt8) :
    Nat → Reader → List UInt8 → List QCryptoFragment → Sniff (List UInt8 × List QCryptoFragment)
  | 0, _, _, _ => .unfinished
  | fuel + 1, reader, frameTypeList, fragments =>
    match reader.bytes[reader.position]? with
    | none => pure (frameTypeList, fragments)
    | some frameType => do
      let (crypto, reader) ← readFields frameType (reader.seek 1)
      match crypto with
      | none => readFrames memory fuel reader (frameTypeList ++ [frameType]) fragments
      | some (offset, length) => do
        let index := reader.bytes.length - reader.len
        let payload ← slice memory index (index + length)
        readFrames memory fuel (reader.seek length) (frameTypeList ++ [frameType])
          (fragments ++ [{ offset := offset, length := length, payload := payload }])

theorem ensures_readAckRanges (count : Nat) (inside : reader.position ≤ reader.bytes.length) :
    (readAckRanges count reader).Ensures (Advances reader) := by
  induction count generalizing reader with
  | zero => exact ⟨rfl, le_rfl, inside⟩
  | succ count ih =>
    refine (ensures_readUvarint reader).bind fun (_, r1) a1 => ?_
    refine (ensures_readUvarint r1).bind fun (_, r2) a2 => ?_
    have a2 := a1.2.trans a2.2
    exact (ih (a2.bytes ▸ a2.inside)).mono fun _ a3 => a2.trans a3

theorem ensures_readAck (frameType : UInt8) (reader : Reader) :
    (readAck frameType reader).Ensures (Advances reader) := by
  refine (ensures_readUvarint reader).bind fun (_, r1) a1 => ?_
  refine (ensures_readUvarint r1).bind fun (_, r2) a2 => ?_
  refine (ensures_readUvarint r2).bind fun (ackRangeCount, r3) a3 => ?_
  refine (ensures_readUvarint r3).bind fun (_, r4) a4 => ?_
  have a4 := ((a1.2.trans a2.2).trans a3.2).trans a4.2
  refine (ensures_readAckRanges _ (a4.bytes ▸ a4.inside)).bind fun r5 a5 => ?_
  have a5 := a4.trans a5
  split
  · refine (ensures_readUvarint r5).bind fun (_, r6) a6 => ?_
    refine (ensures_readUvarint r6).bind fun (_, r7) a7 => ?_
    refine (ensures_readUvarint r7).bind fun (_, r8) a8 => ?_
    exact ((a5.trans a6.2).trans a7.2).trans a8.2
  · exact a5

/-- The fields of a frame are read without a panic. Those of a CRYPTO frame have at most 62
bits, and the reader is inside the plaintext after them. -/
theorem ensures_readFields (frameType : UInt8) (reader : Reader) :
    (readFields frameType reader).Ensures fun result =>
      result.2.bytes = reader.bytes ∧ reader.position ≤ result.2.position ∧
        ∀ offset length, result.1 = some (offset, length) →
          offset < 2 ^ 62 ∧ length < 2 ^ 62 ∧ result.2.position ≤ result.2.bytes.length := by
  rw [readFields]
  split
  · exact ⟨rfl, le_rfl, fun _ _ none => nomatch none⟩
  split
  · refine (ensures_readAck frameType reader).bind fun r1 a1 => ?_
    exact ⟨a1.bytes, a1.further, fun _ _ none => nomatch none⟩
  split
  · refine (ensures_readUvarint reader).bind fun (offset, r1) a1 => ?_
    refine (ensures_readUvarint r1).bind fun (length, r2) a2 => ?_
    have both := a1.2.trans a2.2
    refine ⟨both.bytes, both.further, fun _ _ same => ?_⟩
    cases same
    exact ⟨a1.1, a2.1, both.bytes ▸ both.inside⟩
  split
  · refine (ensures_readUvarint reader).bind fun (_, r1) a1 => ?_
    refine (ensures_readUvarint r1).bind fun (_, r2) a2 => ?_
    refine (ensures_readUvarint r2).bind fun (length, r3) a3 => ?_
    have all := (a1.2.trans a2.2).trans a3.2
    exact ⟨all.bytes, all.further.trans (Nat.le_add_right _ _), fun _ _ none => nomatch none⟩
  · trivial

/-! ### CRYPTO frames that end inside the packet -/

/-- The plaintext has a CRYPTO frame whose payload starts at an index and has a length. Only
frames before the first malformed one count. -/
inductive Declares : Reader → Nat → Nat → Prop where
  | here {reader after : Reader} {frameType : UInt8} {offset length : Nat}
      (byte : reader.bytes[reader.position]? = some frameType)
      (fields : readFields frameType (reader.seek 1) = .value (some (offset, length), after)) :
      Declares reader (after.bytes.length - after.len) length
  | afterPlain {reader after : Reader} {frameType : UInt8} {index size : Nat}
      (byte : reader.bytes[reader.position]? = some frameType)
      (fields : readFields frameType (reader.seek 1) = .value (none, after))
      (later : Declares after index size) : Declares reader index size
  | afterCrypto {reader after : Reader} {frameType : UInt8} {offset length index size : Nat}
      (byte : reader.bytes[reader.position]? = some frameType)
      (fields : readFields frameType (reader.seek 1) = .value (some (offset, length), after))
      (later : Declares (after.seek length) index size) : Declares reader index size

/-- What is known after the fields of a frame. -/
structure AfterFields (reader after : Reader) (crypto : Option (Nat × Nat)) : Prop where
  bytes : after.bytes = reader.bytes
  further : reader.position < after.position
  crypto : ∀ offset length, crypto = some (offset, length) →
    offset < 2 ^ 62 ∧ length < 2 ^ 62 ∧ after.position ≤ after.bytes.length

theorem afterFields {after : Reader} {frameType : UInt8} {crypto : Option (Nat × Nat)}
    (fields : readFields frameType (reader.seek 1) = .value (crypto, after)) :
    AfterFields reader after crypto := by
  obtain ⟨same, further, bounds⟩ := (ensures_readFields frameType (reader.seek 1)).of_eq fields
  exact ⟨same, further, bounds⟩

/-- The frame loop returns exactly if every CRYPTO frame ends inside the memory of the
plaintext. -/
theorem returns_readFrames (enough : reader.bytes.length - reader.position < fuel)
    (frameTypeList : List UInt8) (fragments : List QCryptoFragment) :
    (readFrames memory fuel reader frameTypeList fragments).Returns ↔
      ∀ index length, Declares reader index length → index + length ≤ memory.length := by
  induction fuel generalizing reader frameTypeList fragments with
  | zero => exact absurd enough (Nat.not_lt_zero _)
  | succ fuel ih =>
    rw [readFrames]
    cases byte : reader.bytes[reader.position]? with
    | none =>
      refine iff_of_true trivial fun index length declared => ?_
      cases declared with
      | here found | afterPlain found | afterCrypto found => cases byte.symm.trans found
    | some frameType =>
      have inside : reader.position < reader.bytes.length := (List.getElem?_eq_some_iff.mp byte).1
      have less {after : Reader} {crypto : Option (Nat × Nat)} (skipped : Nat)
          (read : AfterFields reader after crypto) :
          (after.seek skipped).bytes.length - (after.seek skipped).position < fuel := by
        have further := read.further
        rw [seek, read.bytes]
        dsimp only
        omega
      rw [returns_bind]
      constructor
      · rintro ⟨_, continues⟩ index length declared
        cases declared with
        | here found fields =>
          cases byte.symm.trans found
          have sliced := (returns_bind.mp (continues _ fields)).1
          exact (returns_slice (Nat.le_add_right _ _)).mp sliced
        | afterPlain found fields later =>
          cases byte.symm.trans found
          exact (ih (less 0 (afterFields fields)) _ _).mp (continues _ fields)
            _ _ later
        | afterCrypto found fields later =>
          cases byte.symm.trans found
          obtain ⟨sliced, rest⟩ := returns_bind.mp (continues _ fields)
          have within := (returns_slice (Nat.le_add_right _ _)).mp sliced
          exact (ih (less _ (afterFields fields)) _ _).mp
            (rest _ (if_pos ⟨Nat.le_add_right _ _, within⟩)) _ _ later
      · intro fits
        refine ⟨(ensures_readFields _ _).returns, ?_⟩
        rintro ⟨crypto, after⟩ fields
        have read := afterFields fields
        cases crypto with
        | none =>
          refine (ih (less 0 read) _ _).mpr fun _ _ later => ?_
          exact fits _ _ (.afterPlain byte fields later)
        | some crypto =>
          obtain ⟨offset, length⟩ := crypto
          refine returns_bind.mpr ⟨(returns_slice (Nat.le_add_right _ _)).mpr
            (fits _ _ (.here byte fields)), fun payload _ => ?_⟩
          refine (ih (less length read) _ _).mpr ?_
          exact fun _ _ later => fits _ _ (.afterCrypto byte fields later)

theorem continues_readFrames (memory : List UInt8) {more : Nat} (less : fuel ≤ more)
    (reader : Reader) (frameTypeList : List UInt8) (fragments : List QCryptoFragment) :
    (readFrames memory fuel reader frameTypeList fragments).Continues
      (readFrames memory more reader frameTypeList fragments) := by
  induction fuel generalizing more reader frameTypeList fragments with
  | zero => exact fun finished => absurd rfl finished
  | succ fuel ih =>
    obtain ⟨more, rfl⟩ : ∃ previous, more = previous + 1 := ⟨more - 1, by omega⟩
    have later := Nat.le_of_succ_le_succ less
    rw [readFrames, readFrames]
    split
    · exact fun _ => rfl
    refine Continues.bind ?_ _
    rintro ⟨crypto, after⟩
    cases crypto with
    | none => exact ih later _ _ _
    | some crypto => exact Continues.bind (fun _ => ih later _ _ _) _

/-! ### The fragments of a packet -/

/-- A fragment as the frame loop builds it. -/
structure Sound (fragment : QCryptoFragment) : Prop where
  offset : fragment.offset < 2 ^ 62
  length : fragment.length < 2 ^ 62
  payload : fragment.payload.length = fragment.length

/-- The number of bytes that fragments hold. -/
def totalLength (fragments : List QCryptoFragment) : Nat :=
  (fragments.map QCryptoFragment.length).sum

/-- What holds along the frame loop: the fragments are sound, hold no more bytes than were
read, and come from frames. -/
structure Collected (memory : List UInt8) (reader : Reader) (frameTypeList : List UInt8)
    (fragments : List QCryptoFragment) : Prop where
  sound : ∀ fragment ∈ fragments, Sound fragment
  position : totalLength fragments ≤ reader.position
  memory : totalLength fragments ≤ memory.length
  typed : frameTypeList = [] → fragments = []

theorem collected_readFrames {frameTypeList frameTypeList' : List UInt8}
    {fragments fragments' : List QCryptoFragment}
    (collected : Collected memory reader frameTypeList fragments)
    (read : readFrames memory fuel reader frameTypeList fragments =
      .value (frameTypeList', fragments')) :
    ∃ reader, Collected memory reader frameTypeList' fragments' := by
  induction fuel generalizing reader frameTypeList fragments with
  | zero => cases read
  | succ fuel ih =>
    rw [readFrames] at read
    split at read
    · cases read
      exact ⟨reader, collected⟩
    next frameType byte =>
      obtain ⟨⟨crypto, after⟩, fields, read⟩ := bind_eq_value.mp read
      have known := afterFields fields
      have further := known.further
      have position := collected.position
      have nonempty : frameTypeList ++ [frameType] ≠ [] :=
        append_ne_nil_of_right_ne_nil _ (cons_ne_nil _ _)
      cases crypto with
      | none =>
        exact ih ⟨collected.sound, by omega, collected.memory,
          fun empty => absurd empty nonempty⟩ read
      | some crypto =>
        obtain ⟨offset, length⟩ := crypto
        obtain ⟨smallOffset, smallLength, inside⟩ := known.crypto _ _ rfl
        obtain ⟨payload, sliced, read⟩ := bind_eq_value.mp read
        obtain ⟨⟨_, within⟩, same⟩ := slice_eq_value.mp sliced
        rw [len] at within same
        have total : totalLength (fragments ++ [⟨offset, length, payload⟩]) =
            totalLength fragments + length := by
          rw [totalLength, map_append, sum_append]
          rfl
        refine ih ⟨?_, ?_, ?_, fun empty => absurd empty nonempty⟩ read
        · intro fragment member
          rcases mem_append.mp member with earlier | new
          · exact collected.sound fragment earlier
          · rw [mem_singleton.mp new]
            refine ⟨smallOffset, smallLength, ?_⟩
            rw [← same, length_take, length_drop]
            dsimp only
            omega
        · rw [total, seek]
          dsimp only
          omega
        · omega

end Quic

end SingBox
