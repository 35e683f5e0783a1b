/-
This file is the part of the standard library's `net/netip` that address ranges
need: successors, prefixes, their binary forms, and membership. A masked prefix
is an interval of numbers, and its broadcast address is the last of them; the
proofs about ranges count in these numbers instead of in bits.
-/

import SingBox.InboundContext
import SingBox.Outcome
import Mathlib.Data.Nat.Bitwise
import Mathlib.Data.BitVec

namespace SingBox

namespace Addr

/-- `netip.Addr.BitLen`. -/
def bitLen : Addr → Nat
  | invalid => 0
  | v4 _ => 32
  | v6 _ => 128

/-- `netip.Addr.Next` of a valid address. -/
def next : Addr → Addr
  | invalid => invalid
  | v4 bits => if bits + 1 = 0 then invalid else v4 (bits + 1)
  | v6 bits => if bits + 1 = 0 then invalid else v6 (bits + 1)

/-- The bytes of a number, the most significant first. -/
def bytesOf : Nat → Nat → List UInt8
  | 0, _ => []
  | count + 1, number => bytesOf count (number / 256) ++ [UInt8.ofNat number]

def numberOf (bytes : List UInt8) : Nat :=
  bytes.foldl (fun number byte => number * 256 + byte.toNat) 0

/-- `netip.Addr.AsSlice`. -/
def asSlice : Addr → List UInt8
  | invalid => []
  | v4 bits => bytesOf 4 bits.toNat
  | v6 bits => bytesOf 16 bits.toNat

/-- `netip.AddrFromSlice`; the zero address where it fails. -/
def fromSlice (slice : List UInt8) : Addr :=
  if slice.length = 4 then v4 (BitVec.ofNat 32 (numberOf slice))
  else if slice.length = 16 then v6 (BitVec.ofNat 128 (numberOf slice))
  else invalid

/-- `netip.Addr.As16`. -/
def as16 : Addr → BitVec 128
  | invalid => 0
  | v4 bits => 0xffff00000000 ||| bits.setWidth 128
  | v6 bits => bits

end Addr

/-- A `netip.Prefix`. -/
structure Prefix where
  addr : Addr := .invalid
  bitsPlusOne : Nat := 0
  deriving DecidableEq, Repr, Inhabited

namespace Prefix

/-- `netip.Prefix.IsValid`. -/
def isValid (range : Prefix) : Bool := range.bitsPlusOne > 0

/-- `netip.PrefixFrom`. -/
def prefixFrom (addr : Addr) (bits : Nat) : Prefix where
  addr := addr
  bitsPlusOne := if addr.isValid ∧ bits ≤ addr.bitLen then bits + 1 else 0

/-- The number of bits that are not fixed. -/
def hostBits (range : Prefix) : Nat := range.addr.bitLen - (range.bitsPlusOne - 1)

/-- `netip.Prefix.Contains`. -/
def contains (range : Prefix) (address : Addr) : Bool :=
  range.isValid &&
    match range.addr, address with
    | .v4 network, .v4 other => (other ^^^ network) >>> range.hostBits == 0
    | .v6 network, .v6 other => (other ^^^ network) >>> range.hostBits == 0
    | _, _ => false

/-- `netip.Prefix.MarshalBinary`. An invalid prefix has the length -1. -/
def marshalBinary (range : Prefix) : List UInt8 :=
  range.addr.asSlice ++
    [if range.isValid then UInt8.ofNat (range.bitsPlusOne - 1) else 255]

/-- `netip.Prefix.UnmarshalBinary`. -/
def unmarshalBinary (data : List UInt8) : Outcome String Prefix :=
  match data.getLast? with
  | none => .error "unexpected slice size"
  | some bits =>
    if [0, 4, 16].contains (data.length - 1) then
      .value (prefixFrom (Addr.fromSlice data.dropLast) bits.toNat)
    else .error "unexpected slice size"

end Prefix

/-! ### Binary forms -/

namespace Addr

theorem length_bytesOf (count number : Nat) : (bytesOf count number).length = count := by
  induction count generalizing number with
  | zero => rfl
  | succ count ih =>
    rw [bytesOf, List.length_append, ih]
    rfl

theorem numberOf_bytesOf (count number : Nat) :
    numberOf (bytesOf count number) = number % 256 ^ count := by
  induction count generalizing number with
  | zero => rw [Nat.pow_zero, Nat.mod_one]; rfl
  | succ count ih =>
    have step : numberOf (bytesOf (count + 1) number) =
        numberOf (bytesOf count (number / 256)) * 256 + (UInt8.ofNat number).toNat := by
      rw [numberOf, bytesOf, List.foldl_append]
      rfl
    rw [step, ih, UInt8.toNat_ofNat', Nat.pow_succ 256 count,
      Nat.mul_comm (256 ^ count), Nat.mod_mul]
    omega

@[simp] theorem fromSlice_asSlice (address : Addr) : fromSlice address.asSlice = address := by
  have restored (width : Nat) (bits : BitVec width) (count : Nat) (size : 256 ^ count = 2 ^ width) :
      BitVec.ofNat width (numberOf (bytesOf count bits.toNat)) = bits := by
    rw [numberOf_bytesOf, size, Nat.mod_eq_of_lt bits.isLt, BitVec.ofNat_toNat, BitVec.setWidth_eq]
  cases address with
  | invalid => rfl
  | v4 bits =>
    rw [asSlice, fromSlice, if_pos (length_bytesOf 4 _), restored 32 bits 4 rfl]
  | v6 bits =>
    rw [asSlice, fromSlice, if_neg (by rw [length_bytesOf]; decide), if_pos (length_bytesOf 16 _),
      restored 128 bits 16 rfl]

theorem asSlice_injective {first second : Addr} (same : first.asSlice = second.asSlice) :
    first = second := by
  rw [← fromSlice_asSlice first, same, fromSlice_asSlice]

theorem length_asSlice (address : Addr) : address.asSlice.length = address.bitLen / 8 := by
  cases address with
  | invalid => rfl
  | v4 bits | v6 bits => rw [asSlice, length_bytesOf, bitLen]

end Addr

/-- A prefix as `PrefixFrom` makes it: the zero value, or a length that fits a valid address. -/
def Prefix.WellFormed (range : Prefix) : Prop :=
  range = {} ∨ range.addr.isValid ∧ 0 < range.bitsPlusOne ∧ range.bitsPlusOne ≤ range.addr.bitLen + 1

theorem Prefix.unmarshalBinary_marshalBinary {range : Prefix} (wellFormed : range.WellFormed) :
    unmarshalBinary range.marshalBinary = .value range := by
  rcases wellFormed with rfl | ⟨valid, positive, fits⟩
  · rfl
  · obtain ⟨addr, bitsPlusOne⟩ := range
    dsimp only at valid positive fits
    have small : addr.bitLen ≤ 128 := by cases addr <;> simp [Addr.bitLen]
    have last : (UInt8.ofNat (bitsPlusOne - 1)).toNat = bitsPlusOne - 1 := by
      exact Nat.mod_eq_of_lt (by omega)
    have size : [0, 4, 16].contains (addr.bitLen / 8) = true := by
      cases addr <;> simp [Addr.bitLen]
    rw [marshalBinary, isValid, decide_eq_true positive]
    unfold unmarshalBinary
    simp only [if_true, List.getLast?_concat, List.length_append, List.length_singleton,
      Nat.add_sub_cancel, Addr.length_asSlice, size, List.dropLast_concat, Addr.fromSlice_asSlice,
      last, prefixFrom, valid, true_and]
    rw [if_pos (by omega), Nat.sub_add_cancel positive]

/-! ### Ranges as intervals -/

/-- The number of bits of the addresses of a family. -/
def Addr.width (isIPv6 : Bool) : Nat := if isIPv6 then 128 else 32

/-- The address of a family with the given number. -/
def Addr.ofValue (isIPv6 : Bool) (value : Nat) : Addr :=
  if isIPv6 then v6 (BitVec.ofNat 128 value) else v4 (BitVec.ofNat 32 value)

namespace Addr

variable {isIPv6 : Bool} {value : Nat}

@[simp] theorem isValid_ofValue : (ofValue isIPv6 value).isValid = true := by
  cases isIPv6 <;> rfl

@[simp] theorem is6_ofValue : (ofValue isIPv6 value).is6 = isIPv6 := by
  cases isIPv6 <;> rfl

@[simp] theorem is4_ofValue : (ofValue isIPv6 value).is4 = !isIPv6 := by
  cases isIPv6 <;> rfl

@[simp] theorem bitLen_ofValue : (ofValue isIPv6 value).bitLen = width isIPv6 := by
  cases isIPv6 <;> rfl

theorem ofValue_injective {other : Nat} (small : value < 2 ^ width isIPv6)
    (small' : other < 2 ^ width isIPv6) (same : ofValue isIPv6 value = ofValue isIPv6 other) :
    value = other := by
  have number (count : Nat) (small : value < 2 ^ count) (small' : other < 2 ^ count)
      (same : BitVec.ofNat count value = BitVec.ofNat count other) : value = other := by
    have equal := congrArg BitVec.toNat same
    rwa [BitVec.toNat_ofNat, BitVec.toNat_ofNat, Nat.mod_eq_of_lt small,
      Nat.mod_eq_of_lt small'] at equal
  cases isIPv6 with
  | false => exact number 32 small small' (v4.inj same)
  | true => exact number 128 small small' (v6.inj same)

theorem next_ofValue (small : value + 1 < 2 ^ width isIPv6) :
    (ofValue isIPv6 value).next = ofValue isIPv6 (value + 1) := by
  have number (count : Nat) (small : value + 1 < 2 ^ count) :
      BitVec.ofNat count value + 1 = BitVec.ofNat count (value + 1) ∧
        BitVec.ofNat count (value + 1) ≠ 0 := by
    refine ⟨BitVec.ofNat_add_ofNat .., fun zero => ?_⟩
    have equal := congrArg BitVec.toNat zero
    rw [BitVec.toNat_ofNat, Nat.mod_eq_of_lt small] at equal
    simp at equal
  cases isIPv6 with
  | false =>
    obtain ⟨sum, nonzero⟩ := number 32 small
    show (if _ then _ else _) = _
    rw [sum, if_neg nonzero]
    rfl
  | true =>
    obtain ⟨sum, nonzero⟩ := number 128 small
    show (if _ then _ else _) = _
    rw [sum, if_neg nonzero]
    rfl

end Addr

/-- The prefix is a masked range of the family: the addresses from a network address on that
is a multiple of their number. -/
structure Prefix.Masked (range : Prefix) (isIPv6 : Bool) (network host : Nat) : Prop where
  addr : range.addr = .ofValue isIPv6 network
  bits : range.bitsPlusOne = Addr.width isIPv6 - host + 1
  fits : host ≤ Addr.width isIPv6
  small : network < 2 ^ Addr.width isIPv6
  aligned : 2 ^ host ∣ network

namespace Prefix.Masked

variable {range : Prefix} {isIPv6 : Bool} {network host value : Nat}

section

variable (masked : range.Masked isIPv6 network host)

include masked

theorem isValid : range.isValid = true := by
  rw [Prefix.isValid, masked.bits]
  exact decide_eq_true (Nat.succ_pos _)

theorem hostBits : range.hostBits = host := by
  have fits := masked.fits
  rw [Prefix.hostBits, masked.addr, masked.bits, Addr.bitLen_ofValue]
  omega

/-- The range ends where the addresses of the family do, or before. -/
theorem inside : network + 2 ^ host ≤ 2 ^ Addr.width isIPv6 := by
  obtain ⟨count, network⟩ := masked.aligned
  obtain ⟨total, whole⟩ := Nat.pow_dvd_pow 2 masked.fits
  have small := masked.small
  rw [network, whole] at small ⊢
  have less : count < total := Nat.lt_of_mul_lt_mul_left small
  calc 2 ^ host * count + 2 ^ host = 2 ^ host * (count + 1) := (Nat.mul_succ _ _).symm
    _ ≤ 2 ^ host * total := Nat.mul_le_mul_left _ less

theorem contains_iff (small : value < 2 ^ Addr.width isIPv6) :
    range.contains (.ofValue isIPv6 value) = true ↔
      network ≤ value ∧ value < network + 2 ^ host := by
  have quotient : value / 2 ^ host = network / 2 ^ host ↔
      network ≤ value ∧ value < network + 2 ^ host := by
    obtain ⟨count, rfl⟩ := masked.aligned
    have positive : 0 < 2 ^ host := Nat.two_pow_pos host
    rw [Nat.mul_div_cancel_left _ positive, Nat.div_eq_iff positive]
    constructor
    · rintro ⟨low, high⟩
      constructor
      · rwa [Nat.mul_comm]
      · rw [Nat.mul_comm]
        omega
    · rintro ⟨low, high⟩
      rw [Nat.mul_comm] at low high
      omega
  have number (width : Nat) (small : value < 2 ^ width) (fits : network < 2 ^ width) :
      ((BitVec.ofNat width value ^^^ BitVec.ofNat width network) >>> host == 0) = true ↔
        value / 2 ^ host = network / 2 ^ host := by
    rw [beq_iff_eq, ← BitVec.toNat_inj, BitVec.toNat_ushiftRight, BitVec.toNat_xor,
      BitVec.toNat_ofNat, BitVec.toNat_ofNat, Nat.mod_eq_of_lt small, Nat.mod_eq_of_lt fits,
      Nat.shiftRight_xor_distrib, Nat.shiftRight_eq_div_pow, Nat.shiftRight_eq_div_pow]
    exact Nat.xor_eq_zero_iff
  unfold Prefix.contains
  rw [masked.isValid, masked.hostBits, masked.addr, Bool.true_and, ← quotient]
  cases isIPv6 with
  | false => exact number 32 small masked.small
  | true => exact number 128 small masked.small

end

end Prefix.Masked

/-- What a range contains is of its family. -/
theorem Prefix.is6_of_contains {range : Prefix} {address : Addr}
    (inside : range.contains address = true) : address.is6 = range.addr.is6 := by
  unfold Prefix.contains at inside
  rw [Bool.and_eq_true] at inside
  obtain ⟨_, inside⟩ := inside
  split at inside
  next network other first =>
    rw [first]
    rfl
  next network other first =>
    rw [first]
    rfl
  · cases inside

end SingBox
