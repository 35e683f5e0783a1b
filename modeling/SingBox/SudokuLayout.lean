/-
This file is the byte layouts of the Sudoku transport, from
`transport/sudoku/obfs/sudoku/layout.go`. A layout divides the bytes of the wire
into hints, which carry data, and the rest, which is padding; in packed mode a
hint carries a group of six bits. One padding byte is the marker that ends a
sequence of groups.

What the packed mode needs of a layout is `Sound`: groups survive their encoding,
padding is never taken for a hint, and there is padding besides the marker. The
two fixed layouts have it by inspection. A custom layout has it because a pattern
is accepted only if its letters divide the eight bits of a byte into two, two and
four.
-/

import Mathlib

namespace SingBox

open List

namespace Sudoku

/-! ### Layouts -/

/-- The part of a `byteLayout` that the packed mode uses. The tables are functions; that of the
groups has an entry for each of the 64. -/
structure ByteLayout where
  padMarker : UInt8
  paddingPool : List UInt8
  hintTable : UInt8 → Bool
  encodeGroup : UInt8 → UInt8
  decodeGroup : UInt8 → UInt8
  groupValid : UInt8 → Bool

def newASCIILayout : ByteLayout where
  padMarker := 0x3F
  paddingPool := (List.range 32).map fun i => 0x20 + UInt8.ofNat i
  hintTable wire := wire &&& 0x40 = 0x40 ∨ wire = 0x0A
  encodeGroup group :=
    let b := 0x40 ||| group
    if b = 0x7F then 0x0A else b
  decodeGroup wire :=
    if wire = 0x0A then 0x3F else if wire &&& 0x40 = 0x40 then wire &&& 0x3F else 0
  groupValid wire := wire &&& 0x40 = 0x40 ∨ wire = 0x0A

def newEntropyLayout : ByteLayout where
  padMarker := 0x80
  paddingPool := (List.range 8).flatMap fun i => [0x80 + UInt8.ofNat i, 0x10 + UInt8.ofNat i]
  hintTable wire := wire &&& 0x90 = 0
  encodeGroup group := (group &&& 0x30) <<< 1 ||| group &&& 0x0F
  decodeGroup wire :=
    if wire &&& 0x90 = 0 then wire >>> 1 &&& 0x30 ||| wire &&& 0x0F else 0
  groupValid wire := wire &&& 0x90 = 0

/-- The bits of a byte that a pattern gives to each of its letters. -/
structure Places where
  xBits : List Nat := []
  pBits : List Nat := []
  vBits : List Nat := []
  deriving DecidableEq, Repr

/-- The errors of `resolveLayout` and `newCustomLayout`. -/
inductive LayoutError where
  | invalidMode (mode : List Char)
  | symbolCount (count : Nat)
  | invalidChar (char : Char)
  | letterCounts
  | emptyPaddingPool
  deriving DecidableEq, Repr

/-- The loop of `newCustomLayout` over the pattern, at some byte of it. -/
def collectPlaces (places : Places) (offset : Nat) : List Char → Except LayoutError Places
  | [] => .ok places
  | char :: rest =>
    let bit := 7 - offset
    let offset := offset + char.utf8Size
    if char = 'x' then collectPlaces { places with xBits := places.xBits ++ [bit] } offset rest
    else if char = 'p' then
      collectPlaces { places with pBits := places.pBits ++ [bit] } offset rest
    else if char = 'v' then
      collectPlaces { places with vBits := places.vBits ++ [bit] } offset rest
    else .error (.invalidChar char)

def setBit (byte : UInt8) (bit : Nat) : UInt8 := byte ||| 1 <<< UInt8.ofNat bit

def clearBit (byte : UInt8) (bit : Nat) : UInt8 := byte &&& ~~~(1 <<< UInt8.ofNat bit)

def hasBit (byte : UInt8) (bit : Nat) : Bool := byte &&& 1 <<< UInt8.ofNat bit ≠ 0

/-- The bits of a value, for the places in their order. -/
def setBits (byte : UInt8) (bits : List Nat) (value : UInt8) : UInt8 :=
  bits.zipIdx.foldl (fun byte place =>
    if hasBit value (bits.length - 1 - place.2) then setBit byte place.1 else byte) byte

/-- The value whose bits are at the places. -/
def readBits (byte : UInt8) (bits : List Nat) : UInt8 :=
  bits.zipIdx.foldl (fun value place =>
    if hasBit byte place.1 then setBit value (bits.length - 1 - place.2) else value) 0

def Places.xMask (places : Places) : UInt8 := places.xBits.foldl setBit 0

/-- `encodeBits` of `newCustomLayout`. -/
def Places.encodeBits (places : Places) (val pos : UInt8) (dropX : Option Nat) : UInt8 :=
  let out := places.xMask
  let out := match dropX with
    | some drop => clearBit out (places.xBits.getD drop 0)
    | none => out
  setBits (setBits out places.pBits val) places.vBits pos

/-- `bits.OnesCount8`. -/
def onesCount8 (byte : UInt8) : Nat := (List.range 8).countP fun bit => hasBit byte bit

/-- The padding of a pattern: hints with one of their marks missing, if they have many ones. -/
def Places.padding (places : Places) : List UInt8 :=
  let candidates := (List.range places.xBits.length).flatMap fun drop =>
    (List.range 4).flatMap fun val => (List.range 16).map fun pos =>
      places.encodeBits (UInt8.ofNat val) (UInt8.ofNat pos) (some drop)
  let padding := candidates.foldl (fun padding b =>
    if onesCount8 b ≥ 5 then if b ∈ padding then padding else padding ++ [b] else padding) []
  padding.mergeSort fun first second => first ≤ second

/-- `unicode.IsSpace`. -/
def isSpace (char : Char) : Bool :=
  [0x09, 0x0A, 0x0B, 0x0C, 0x0D, 0x20, 0x85, 0xA0, 0x1680, 0x2028, 0x2029, 0x202F, 0x205F,
    0x3000].contains char.toNat || (0x2000 ≤ char.toNat && char.toNat ≤ 0x200A)

/-- `strings.TrimSpace`. -/
def trimSpace (text : List Char) : List Char :=
  ((text.dropWhile isSpace).reverse.dropWhile isSpace).reverse

/-- The tables of a custom layout. -/
def Places.layout (places : Places) (padMarker : UInt8) (others : List UInt8) : ByteLayout where
  padMarker := padMarker
  paddingPool := padMarker :: others
  hintTable wire := wire &&& places.xMask = places.xMask
  encodeGroup group := places.encodeBits (group >>> 4 &&& 0x03) (group &&& 0x0F) none
  decodeGroup wire :=
    if wire &&& places.xMask = places.xMask then
      readBits wire places.pBits <<< 4 ||| readBits wire places.vBits
    else 0
  groupValid wire := wire &&& places.xMask = places.xMask

/-- `newCustomLayout`, with `unicode.ToLower`. -/
def newCustomLayout (lower : Char → Char) (pattern : List Char) : Except LayoutError ByteLayout :=
  let cleaned := ((trimSpace pattern).filter (· ≠ ' ')).map lower
  let size := (cleaned.map Char.utf8Size).sum
  if size ≠ 8 then .error (.symbolCount size)
  else
    match collectPlaces {} 0 cleaned with
    | .error err => .error err
    | .ok places =>
      if places.xBits.length ≠ 2 ∨ places.pBits.length ≠ 2 ∨ places.vBits.length ≠ 4 then
        .error .letterCounts
      else
        match places.padding with
        | [] => .error .emptyPaddingPool
        | padMarker :: others => .ok (places.layout padMarker others)

/-- `resolveLayout`, with `unicode.ToLower`. -/
def resolveLayout (lower : Char → Char) (mode customPattern : List Char) : Except LayoutError ByteLayout :=
  let name := String.ofList (mode.map lower)
  if name = "ascii" ∨ name = "prefer_ascii" then .ok newASCIILayout
  else if name = "entropy" ∨ name = "prefer_entropy" ∨ name = "" then
    if trimSpace customPattern ≠ [] then newCustomLayout lower customPattern
    else .ok newEntropyLayout
  else .error (.invalidMode mode)

/-! ### Sound layouts -/

/-- Groups survive their encoding, padding is not taken for a hint, and there is padding besides
the marker. -/
structure ByteLayout.Sound (layout : ByteLayout) : Prop where
  hint : ∀ group < 64, layout.hintTable (layout.encodeGroup group) = true
  decode : ∀ group < 64, layout.decodeGroup (layout.encodeGroup group) = group
  small : ∀ wire, layout.decodeGroup wire < 64
  valid : ∀ wire, layout.hintTable wire = true → layout.groupValid wire = true
  padding : ∀ byte ∈ layout.paddingPool, layout.hintTable byte = false
  marker : layout.hintTable layout.padMarker = false
  other : ∃ byte ∈ layout.paddingPool, byte ≠ layout.padMarker

variable {property : UInt8 → Prop} {pattern : List Char} {places : Places} {lower : Char → Char}

/-- A group is one of 64 numbers. -/
theorem forall_group (holds : ∀ number < 64, property (UInt8.ofNat number)) :
    ∀ group < 64, property group := by
  intro group small
  have same : UInt8.ofNat group.toNat = group := UInt8.ofNat_toNat
  rw [← same]
  exact holds group.toNat (UInt8.lt_iff_toNat_lt.mp small)

theorem forall_byte (holds : ∀ number < 256, property (UInt8.ofNat number)) (byte : UInt8) :
    property byte := by
  have same : UInt8.ofNat byte.toNat = byte := UInt8.ofNat_toNat
  rw [← same]
  exact holds byte.toNat byte.toNat_lt

theorem newASCIILayout_sound : newASCIILayout.Sound where
  hint := forall_group (by decide)
  decode := forall_group (by decide)
  small := forall_byte (by decide +kernel)
  valid _ := id
  padding := by decide +kernel
  marker := by decide
  other := by decide

theorem newEntropyLayout_sound : newEntropyLayout.Sound where
  hint := forall_group (by decide)
  decode := forall_group (by decide)
  small := forall_byte (by decide +kernel)
  valid _ := id
  padding := by decide +kernel
  marker := by decide
  other := by decide

/-! ### Single bits -/

theorem one_shiftLeft_toBitVec (small : bit < 8) :
    (1 <<< UInt8.ofNat bit : UInt8).toBitVec = BitVec.twoPow 8 bit := by
  have all : ∀ bit < 8, (1 <<< UInt8.ofNat bit : UInt8).toBitVec = BitVec.twoPow 8 bit := by decide
  exact all bit small

theorem hasBit_eq (small : bit < 8) (byte : UInt8) :
    hasBit byte bit = byte.toBitVec.getLsbD bit := by
  have masked : (byte &&& 1 <<< UInt8.ofNat bit).toBitVec =
      if byte.toBitVec.getLsbD bit then BitVec.twoPow 8 bit else 0#8 := by
    rw [UInt8.toBitVec_and, one_shiftLeft_toBitVec small, BitVec.and_twoPow]
  have power : BitVec.twoPow 8 bit ≠ 0#8 := by
    have all : ∀ bit < 8, BitVec.twoPow 8 bit ≠ 0#8 := by decide
    exact all bit small
  rw [hasBit, Bool.eq_iff_iff, decide_eq_true_eq, ne_eq, ← UInt8.toBitVec_inj, masked]
  cases byte.toBitVec.getLsbD bit with
  | false => simp
  | true => simpa using power

variable {bit other : Nat}

theorem hasBit_setBit (small : bit < 8) (small' : other < 8) (byte : UInt8) :
    hasBit (setBit byte bit) other = (decide (other = bit) || hasBit byte other) := by
  rw [hasBit_eq small', hasBit_eq small', setBit, UInt8.toBitVec_or, one_shiftLeft_toBitVec small,
    BitVec.getLsbD_or, BitVec.getLsbD_twoPow, Bool.or_comm]
  simp [small, eq_comm]

theorem hasBit_clearBit (small : bit < 8) (small' : other < 8) (byte : UInt8) :
    hasBit (clearBit byte bit) other = (!decide (other = bit) && hasBit byte other) := by
  rw [hasBit_eq small', hasBit_eq small', clearBit, UInt8.toBitVec_and, UInt8.toBitVec_not,
    one_shiftLeft_toBitVec small, BitVec.getLsbD_and, BitVec.getLsbD_not, BitVec.getLsbD_twoPow,
    Bool.and_comm]
  simp [small, small', eq_comm]

theorem hasBit_and (small : bit < 8) (first second : UInt8) :
    hasBit (first &&& second) bit = (hasBit first bit && hasBit second bit) := by
  rw [hasBit_eq small, hasBit_eq small, hasBit_eq small, UInt8.toBitVec_and, BitVec.getLsbD_and]

theorem hasBit_zero (small : other < 8) : hasBit 0 other = false := by
  rw [hasBit_eq small]
  simp

theorem ext_hasBit {first second : UInt8}
    (same : ∀ bit < 8, hasBit first bit = hasBit second bit) : first = second := by
  rw [← UInt8.toBitVec_inj]
  ext bit small
  have equal := same bit small
  rwa [hasBit_eq small, hasBit_eq small] at equal

/-! ### Custom layouts -/

/-- The letters of an accepted pattern: the eight bits, each at one place. -/
structure Places.Division (places : Places) (x₀ x₁ p₀ p₁ v₀ v₁ v₂ v₃ : Nat) : Prop where
  xBits : places.xBits = [x₀, x₁]
  pBits : places.pBits = [p₀, p₁]
  vBits : places.vBits = [v₀, v₁, v₂, v₃]
  small : ∀ bit ∈ [x₀, x₁, p₀, p₁, v₀, v₁, v₂, v₃], bit < 8
  distinct : [x₀, x₁, p₀, p₁, v₀, v₁, v₂, v₃].Nodup
  all : ∀ bit < 8, bit ∈ [x₀, x₁, p₀, p₁, v₀, v₁, v₂, v₃]

/-- The places found so far, and the bits before the current offset. -/
theorem collectPlaces_perm {found : Places} {offset : Nat}
    (collected : collectPlaces places offset pattern = .ok found)
    (size : offset + (pattern.map Char.utf8Size).sum = 8)
    (before : (places.xBits ++ places.pBits ++ places.vBits).Perm
      ((List.range offset).map fun index => 7 - index)) :
    (found.xBits ++ found.pBits ++ found.vBits).Perm
      ((List.range 8).map fun index => 7 - index) := by
  induction pattern generalizing places offset with
  | nil =>
    obtain rfl : offset = 8 := by simpa using size
    cases collected
    exact before
  | cons char rest ih =>
    rw [map_cons, sum_cons, ← Nat.add_assoc] at size
    rw [collectPlaces] at collected
    have next {bits : List Nat} (added : bits.Perm
        (places.xBits ++ places.pBits ++ places.vBits ++ [7 - offset])) (single : char.utf8Size = 1) :
        bits.Perm ((List.range (offset + char.utf8Size)).map fun index => 7 - index) := by
      rw [single, range_succ, map_append]
      exact added.trans (before.append_right _)
    split_ifs at collected with isX isP isV
    · refine ih collected size (next ?_ (by rw [isX]; decide))
      rw [perm_iff_count]
      simp only [count_append]
      omega
    · refine ih collected size (next ?_ (by rw [isP]; decide))
      rw [perm_iff_count]
      intro bit
      simp only [count_append]
      omega
    · refine ih collected size (next ?_ (by rw [isV]; decide))
      rw [perm_iff_count]
      simp only [count_append]
      omega

theorem division_of_perm (two : places.xBits.length = 2) (two' : places.pBits.length = 2)
    (four : places.vBits.length = 4)
    (perm : (places.xBits ++ places.pBits ++ places.vBits).Perm
      ((List.range 8).map fun index => 7 - index)) :
    ∃ x₀ x₁ p₀ p₁ v₀ v₁ v₂ v₃, places.Division x₀ x₁ p₀ p₁ v₀ v₁ v₂ v₃ := by
  obtain ⟨x₀, x₁, xBits⟩ := length_eq_two.mp two
  obtain ⟨p₀, p₁, pBits⟩ := length_eq_two.mp two'
  obtain ⟨v₀, v₁, v₂, v₃, vBits⟩ := length_eq_four.mp four
  rw [xBits, pBits, vBits] at perm
  refine ⟨x₀, x₁, p₀, p₁, v₀, v₁, v₂, v₃, xBits, pBits, vBits, ?_, ?_, ?_⟩
  · intro bit member
    have listed := perm.mem_iff.mp member
    revert listed
    simp only [mem_map, mem_range]
    omega
  · exact perm.nodup_iff.mpr (by decide)
  · intro bit small
    refine perm.mem_iff.mpr (mem_map.mpr ⟨7 - bit, mem_range.mpr (by omega), by omega⟩)

theorem hasBit_foldl_setBit (places : List (Nat × Nat)) (chosen : Nat × Nat → Bool)
    (small : ∀ place ∈ places, place.1 < 8) (small' : other < 8) (byte : UInt8) :
    hasBit (places.foldl (fun byte place =>
        if chosen place then setBit byte place.1 else byte) byte) other =
      (hasBit byte other || places.any fun place => chosen place && decide (other = place.1)) := by
  induction places generalizing byte with
  | nil => simp
  | cons place places ih =>
    rw [foldl_cons, ih fun place member =>
      small place (mem_cons_of_mem _ member), any_cons]
    cases chosen place with
    | false => simp
    | true =>
      rw [if_pos rfl, hasBit_setBit (small place mem_cons_self) small']
      cases hasBit byte other <;> simp

namespace Places.Division

variable {places : Places} {x₀ x₁ p₀ p₁ v₀ v₁ v₂ v₃ : Nat}
  (division : places.Division x₀ x₁ p₀ p₁ v₀ v₁ v₂ v₃)

include division in
theorem hasBit_xMask (small : bit < 8) :
    hasBit places.xMask bit = (decide (bit = x₀) || decide (bit = x₁)) := by
  have first := division.small x₀ (by simp)
  have second := division.small x₁ (by simp)
  rw [xMask, division.xBits, foldl_cons, foldl_cons, foldl_nil,
    hasBit_setBit second small, hasBit_setBit first small, hasBit_zero small, Bool.or_false,
    Bool.or_comm]

include division in
theorem hasBit_setBits (small : bit < 8) (byte val pos : UInt8) :
    hasBit (setBits (setBits byte places.pBits val) places.vBits pos) bit =
      (hasBit byte bit ||
        (hasBit val 1 && decide (bit = p₀) || hasBit val 0 && decide (bit = p₁)) ||
        (hasBit pos 3 && decide (bit = v₀) || hasBit pos 2 && decide (bit = v₁) ||
          hasBit pos 1 && decide (bit = v₂) || hasBit pos 0 && decide (bit = v₃))) := by
  have bound := division.small
  rw [setBits, setBits, division.pBits, division.vBits]
  rw [hasBit_foldl_setBit _ _ (by simp [bound]) small, hasBit_foldl_setBit _ _ (by simp [bound]) small]
  simp [Bool.or_assoc]

include division in
/-- A byte is a hint if it has both marks. -/
theorem hint_iff (wire : UInt8) :
    wire &&& places.xMask = places.xMask ↔ hasBit wire x₀ = true ∧ hasBit wire x₁ = true := by
  have bound := division.small
  simp only [forall_mem_cons] at bound
  constructor
  · intro same
    have marked {bit : Nat} (small : bit < 8) (mark : bit = x₀ ∨ bit = x₁) :
        hasBit wire bit = true := by
      have equal := congrArg (hasBit · bit) same
      rw [hasBit_and small, division.hasBit_xMask small, ← Bool.decide_or, decide_eq_true mark,
        Bool.and_true] at equal
      exact equal
    exact ⟨marked bound.1 (.inl rfl), marked bound.2.1 (.inr rfl)⟩
  · rintro ⟨first, second⟩
    refine ext_hasBit fun bit small => ?_
    rw [hasBit_and small, division.hasBit_xMask small]
    by_cases isFirst : bit = x₀
    · rw [isFirst, first, Bool.true_and]
    · by_cases isSecond : bit = x₁
      · rw [isSecond, second, Bool.true_and]
      · simp [isFirst, isSecond]

include division in
theorem ne_pairs : [x₀, x₁, p₀, p₁, v₀, v₁, v₂, v₃].Pairwise fun first second =>
    first ≠ second ∧ second ≠ first :=
  division.distinct.imp fun different => ⟨different, different.symm⟩

include division in
/-- What is at the places of an encoded value. -/
theorem hasBit_encodeBits (val pos : UInt8) :
    let wire := places.encodeBits val pos none
    (hasBit wire x₀ = true ∧ hasBit wire x₁ = true) ∧
      (hasBit wire p₀ = hasBit val 1 ∧ hasBit wire p₁ = hasBit val 0) ∧
      hasBit wire v₀ = hasBit pos 3 ∧ hasBit wire v₁ = hasBit pos 2 ∧
      hasBit wire v₂ = hasBit pos 1 ∧ hasBit wire v₃ = hasBit pos 0 := by
  have bound := division.small
  have distinct := division.ne_pairs
  simp only [pairwise_cons, forall_mem_cons] at distinct
  have rule {bit : Nat} (small : bit < 8) : hasBit (places.encodeBits val pos none) bit = _ :=
    (division.hasBit_setBits small places.xMask val pos).trans (by rw [division.hasBit_xMask small])
  simp [rule, bound, distinct]

variable {mark drop : Nat} (isMark : mark = x₀ ∨ mark = x₁)
  (dropped : places.xBits.getD drop 0 = mark)

include division isMark dropped in
theorem hasBit_encodeBits_drop (val pos : UInt8) (small : bit < 8) :
    hasBit (places.encodeBits val pos (some drop)) bit =
      (!decide (bit = mark) && (decide (bit = x₀) || decide (bit = x₁)) ||
        (hasBit val 1 && decide (bit = p₀) || hasBit val 0 && decide (bit = p₁)) ||
        (hasBit pos 3 && decide (bit = v₀) || hasBit pos 2 && decide (bit = v₁) ||
          hasBit pos 1 && decide (bit = v₂) || hasBit pos 0 && decide (bit = v₃))) := by
  have bound : mark < 8 := by
    rcases isMark with rfl | rfl <;> exact division.small _ (by simp)
  refine (division.hasBit_setBits small _ val pos).trans ?_
  dsimp only
  rw [dropped, hasBit_clearBit bound small, division.hasBit_xMask small]

include division isMark dropped in
/-- A hint without one of its marks is none. -/
theorem not_hint (val pos : UInt8) :
    ¬places.encodeBits val pos (some drop) &&& places.xMask = places.xMask := by
  have bound := division.small
  simp only [forall_mem_cons] at bound
  have distinct := division.ne_pairs
  simp only [pairwise_cons, forall_mem_cons] at distinct
  have rule {bit : Nat} (small : bit < 8) :=
    division.hasBit_encodeBits_drop isMark dropped val pos small
  rw [division.hint_iff]
  rintro ⟨first, second⟩
  rcases isMark with rfl | rfl
  · rw [rule bound.1] at first
    simp [distinct] at first
  · rw [rule bound.2.1] at second
    simp [distinct] at second

include division isMark dropped in
/-- The largest value sets all other bits. -/
theorem hasBit_full (small : bit < 8) :
    hasBit (places.encodeBits 3 15 (some drop)) bit = decide (bit ≠ mark) := by
  have distinct := division.ne_pairs
  simp only [pairwise_cons, forall_mem_cons] at distinct
  have ones : hasBit 3 1 = true ∧ hasBit 3 0 = true ∧ hasBit 15 3 = true ∧ hasBit 15 2 = true ∧
      hasBit 15 1 = true ∧ hasBit 15 0 = true := by decide
  have member := division.all bit small
  rw [division.hasBit_encodeBits_drop isMark dropped 3 15 small]
  simp only [ones, Bool.true_and]
  simp only [mem_cons, not_mem_nil, or_false] at member
  rcases isMark with rfl | rfl
  · rcases member with rfl | rfl | rfl | rfl | rfl | rfl | rfl | rfl <;> simp [distinct]
  · rcases member with rfl | rfl | rfl | rfl | rfl | rfl | rfl | rfl <;> simp [distinct]

include division isMark dropped in
theorem onesCount8_full : onesCount8 (places.encodeBits 3 15 (some drop)) = 7 := by
  have bound : mark < 8 := by
    rcases isMark with rfl | rfl <;> exact division.small _ (by simp)
  have counted : ∀ mark < 8, (List.range 8).countP (fun bit => decide (bit ≠ mark)) = 7 := by decide
  rw [onesCount8, ← counted mark bound]
  refine countP_congr fun bit member => ?_
  rw [division.hasBit_full isMark dropped (mem_range.mp member)]

end Places.Division

/-- What the padding of a pattern consists of. -/
theorem Places.mem_padding (places : Places) (byte : UInt8) :
    byte ∈ places.padding ↔ onesCount8 byte ≥ 5 ∧ ∃ drop < places.xBits.length, ∃ val < 4,
      ∃ pos < 16, places.encodeBits (UInt8.ofNat val) (UInt8.ofNat pos) (some drop) = byte := by
  have collected (candidates padding : List UInt8) :
      byte ∈ candidates.foldl (fun padding b =>
        if onesCount8 b ≥ 5 then if b ∈ padding then padding else padding ++ [b] else padding)
          padding ↔ byte ∈ padding ∨ byte ∈ candidates ∧ onesCount8 byte ≥ 5 := by
    induction candidates generalizing padding with
    | nil => simp
    | cons candidate candidates ih =>
      rw [foldl_cons, ih]
      by_cases same : byte = candidate
      · subst same
        split_ifs with many known
        · simp [many, known]
        · simp [many]
        · simp [many]
      · split_ifs with many known <;> simp [same]
  rw [padding, mem_mergeSort, collected]
  simp only [not_mem_nil, false_or, mem_flatMap, mem_map, mem_range]
  tauto

theorem readBits_two {wire value : UInt8} {p₀ p₁ : Nat} (first : hasBit wire p₀ = hasBit value 1)
    (second : hasBit wire p₁ = hasBit value 0) :
    readBits wire [p₀, p₁] = readBits value [1, 0] := by
  simp only [readBits, zipIdx_cons, zipIdx_nil, foldl_cons, foldl_nil, first, second]
  rfl

theorem readBits_four {wire value : UInt8} {v₀ v₁ v₂ v₃ : Nat}
    (first : hasBit wire v₀ = hasBit value 3) (second : hasBit wire v₁ = hasBit value 2)
    (third : hasBit wire v₂ = hasBit value 1) (fourth : hasBit wire v₃ = hasBit value 0) :
    readBits wire [v₀, v₁, v₂, v₃] = readBits value [3, 2, 1, 0] := by
  simp only [readBits, zipIdx_cons, zipIdx_nil, foldl_cons, foldl_nil, first, second, third, fourth]
  rfl

theorem readBits_lt (wire : UInt8) (p₀ p₁ v₀ v₁ v₂ v₃ : Nat) :
    readBits wire [p₀, p₁] <<< 4 ||| readBits wire [v₀, v₁, v₂, v₃] < 64 := by
  simp only [readBits, zipIdx_cons, zipIdx_nil, foldl_cons, foldl_nil, length_cons, length_nil]
  generalize hasBit wire p₀ = c₀
  generalize hasBit wire p₁ = c₁
  generalize hasBit wire v₀ = d₀
  generalize hasBit wire v₁ = d₁
  generalize hasBit wire v₂ = d₂
  generalize hasBit wire v₃ = d₃
  revert c₀ c₁ d₀ d₁ d₂ d₃
  decide

/-- A division of the bits, whatever padding it has. -/
theorem Places.Division.sound {x₀ x₁ p₀ p₁ v₀ v₁ v₂ v₃ : Nat}
    (division : places.Division x₀ x₁ p₀ p₁ v₀ v₁ v₂ v₃) {padMarker : UInt8} {others : List UInt8}
    (padding : places.padding = padMarker :: others) : (places.layout padMarker others).Sound := by
  have marks : places.xBits.length = 2 := by rw [division.xBits]; rfl
  have first : places.xBits.getD 0 0 = x₀ := by rw [division.xBits]; rfl
  have second : places.xBits.getD 1 0 = x₁ := by rw [division.xBits]; rfl
  have notHint : ∀ byte ∈ places.padding, ¬byte &&& places.xMask = places.xMask := by
    intro byte member
    obtain ⟨-, drop, small, val, -, pos, -, rfl⟩ := (places.mem_padding byte).mp member
    rw [marks] at small
    rcases Nat.lt_succ_iff_lt_or_eq.mp small with less | rfl
    · obtain rfl : drop = 0 := Nat.lt_one_iff.mp less
      exact division.not_hint (.inl rfl) first _ _
    · exact division.not_hint (.inr rfl) second _ _
  have full (drop mark : Nat) (small : drop < 2) (isMark : mark = x₀ ∨ mark = x₁)
      (dropped : places.xBits.getD drop 0 = mark) :
      places.encodeBits 3 15 (some drop) ∈ places.padding := by
    refine (places.mem_padding _).mpr ⟨?_, drop, by rwa [marks], 3, by decide, 15, by decide, rfl⟩
    rw [division.onesCount8_full isMark dropped]
    decide
  constructor
  · intro group _
    obtain ⟨hint, -⟩ := division.hasBit_encodeBits (group >>> 4 &&& 0x03) (group &&& 0x0F)
    exact decide_eq_true ((division.hint_iff _).mpr hint)
  · refine forall_group fun number small => ?_
    obtain ⟨hint, pBits, vBits⟩ :=
      division.hasBit_encodeBits (UInt8.ofNat number >>> 4 &&& 0x03) (UInt8.ofNat number &&& 0x0F)
    have restored : ∀ number < 64, readBits (UInt8.ofNat number >>> 4 &&& 0x03) [1, 0] <<< 4 |||
        readBits (UInt8.ofNat number &&& 0x0F) [3, 2, 1, 0] = UInt8.ofNat number := by decide
    refine (if_pos ((division.hint_iff _).mpr hint)).trans ?_
    dsimp only [Places.layout]
    rw [division.pBits, division.vBits, readBits_two pBits.1 pBits.2,
      readBits_four vBits.1 vBits.2.1 vBits.2.2.1 vBits.2.2.2]
    exact restored number small
  · intro wire
    dsimp only [Places.layout]
    rw [division.pBits, division.vBits]
    split
    · exact readBits_lt wire p₀ p₁ v₀ v₁ v₂ v₃
    · decide
  · exact fun _ hint => hint
  · intro byte member
    exact decide_eq_false (notHint byte (by rw [padding]; exact member))
  · have member : padMarker ∈ places.padding := by
      rw [padding]
      exact mem_cons_self
    exact decide_eq_false (notHint padMarker member)
  · have small := division.small x₀ (by simp)
    have distinct := division.ne_pairs
    simp only [pairwise_cons, forall_mem_cons] at distinct
    have different : places.encodeBits 3 15 (some 0) ≠ places.encodeBits 3 15 (some 1) := by
      intro same
      have equal := congrArg (hasBit · x₀) same
      rw [division.hasBit_full (.inl rfl) first small,
        division.hasBit_full (.inr rfl) second small] at equal
      simp [distinct] at equal
    have without₀ := full 0 x₀ (by decide) (.inl rfl) first
    have without₁ := full 1 x₁ (by decide) (.inr rfl) second
    rw [padding] at without₀ without₁
    by_cases marker : places.encodeBits 3 15 (some 0) = padMarker
    · exact ⟨_, without₁, fun same => different (marker.trans same.symm)⟩
    · exact ⟨_, without₀, marker⟩

theorem newCustomLayout_sound {layout : ByteLayout}
    (accepted : newCustomLayout lower pattern = .ok layout) : layout.Sound := by
  unfold newCustomLayout at accepted
  dsimp only at accepted
  split_ifs at accepted with size
  split at accepted
  · cases accepted
  next places collected =>
    split_ifs at accepted with lengths
    split at accepted
    · cases accepted
    next padMarker others padding =>
      cases accepted
      simp only [ne_eq, not_or, not_not] at size lengths
      have perm := collectPlaces_perm collected (by rw [Nat.zero_add, size]) (List.Perm.refl [])
      obtain ⟨x₀, x₁, p₀, p₁, v₀, v₁, v₂, v₃, division⟩ :=
        division_of_perm lengths.1 lengths.2.1 lengths.2.2 perm
      exact division.sound padding

/-- Every layout that `resolveLayout` produces is sound. -/
theorem resolveLayout_sound {mode customPattern : List Char} {layout : ByteLayout}
    (resolved : resolveLayout lower mode customPattern = .ok layout) : layout.Sound := by
  unfold resolveLayout at resolved
  dsimp only at resolved
  split_ifs at resolved
  · cases resolved
    exact newASCIILayout_sound
  · exact newCustomLayout_sound resolved
  · cases resolved
    exact newEntropyLayout_sound

end Sudoku

end SingBox
