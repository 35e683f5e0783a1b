/-
This file proves that packed streams of the Sudoku transport round trip. The
reader is a machine that looks at one byte of the wire at a time: padding leaves
it as it is, the marker empties its bit buffer, and a group may complete a byte.
The invariant of the writer's loops says what this machine does with the bytes
written so far: it has all the data but at most one byte, whose bits the two
sides share.
-/

import SingBox.SudokuPacked

namespace SingBox

open List

namespace Sudoku

open Transducer RawSegment Decoded ReadResult

/-! ### Bits of bytes -/

theorem toNat_shiftLeft_or {upper lower shift : UInt8} (few : shift.toNat < 8)
    (small : lower.toNat < 2 ^ shift.toNat) :
    (upper <<< shift ||| lower).toNat =
      upper.toNat % 2 ^ (8 - shift.toNat) * 2 ^ shift.toNat + lower.toNat := by
  have power : 2 ^ 8 = 2 ^ (8 - shift.toNat) * 2 ^ shift.toNat := by
    rw [← Nat.pow_add, Nat.sub_add_cancel few.le]
  rw [UInt8.toNat_or, UInt8.toNat_shiftLeft, Nat.mod_eq_of_lt few, Nat.shiftLeft_eq, power,
    Nat.mul_mod_mul_right, ← Nat.shiftLeft_eq, Nat.shiftLeft_add_eq_or_of_lt small]

variable {byte : UInt8} {Rng : Type} {buffer : BitBuffer} {rest segments : List RawSegment}
  {segment : RawSegment} {size : Nat} {reader : PackedReader}

theorem toNat_shiftRight {shift : UInt8} (few : shift.toNat < 8) :
    (byte >>> shift).toNat = byte.toNat / 2 ^ shift.toNat := by
  rw [UInt8.toNat_shiftRight, Nat.mod_eq_of_lt few, Nat.shiftRight_eq_div_pow]

theorem toNat_and_ones {ones : UInt8} (count : Nat) (all : ones.toNat = 2 ^ count - 1) :
    (byte &&& ones).toNat = byte.toNat % 2 ^ count := by
  rw [UInt8.toNat_and, all, Nat.and_two_pow_sub_one_eq_mod]

/-! ### The reader as a machine -/

/-- A group is added to the bit buffer, and may complete a byte. -/
def takeGroup (buffer : BitBuffer) (group : UInt8) : BitBuffer × List UInt8 :=
  let bits := buffer.bits * 64 + group.toNat
  if 2 ≤ buffer.count then
    (⟨bits % 2 ^ (buffer.count - 2), buffer.count - 2⟩,
      [UInt8.ofNat (bits / 2 ^ (buffer.count - 2))])
  else (⟨bits, buffer.count + 6⟩, [])

/-- One byte of the wire. -/
def unpack (codec : Codec) (buffer : BitBuffer) (b : UInt8) : BitBuffer × List UInt8 :=
  if codec.layout.hintTable b then takeGroup buffer (codec.layout.decodeGroup b)
  else if b = codec.padMarker then (⟨0, 0⟩, [])
  else (buffer, [])

/-- Connections of one layout read alike. -/
theorem unpack_newPackedConn (uint32 : Rng → UInt32 × Rng) (layout : ByteLayout) (rng : Rng)
    (pMin pMax : Int) : unpack (newPackedConn uint32 layout rng pMin pMax).1 =
      unpack ⟨layout, 0, layout.padMarker, []⟩ := by
  funext buffer b
  unfold unpack newPackedConn
  rfl

/-- The codec of a sound layout. -/
structure Codec.Sound (codec : Codec) : Prop where
  layout : codec.layout.Sound
  marker : codec.layout.hintTable codec.padMarker = false
  pool : ∀ byte ∈ codec.padPool, codec.layout.hintTable byte = false ∧ byte ≠ codec.padMarker
  nonempty : 0 < codec.padPool.length

theorem newPackedConn_sound (uint32 : Rng → UInt32 × Rng) {layout : ByteLayout}
    (sound : layout.Sound) (rng : Rng) (pMin pMax : Int) :
    (newPackedConn uint32 layout rng pMin pMax).1.Sound := by
  have others : layout.paddingPool.filter (· ≠ layout.padMarker) ≠ [] := by
    obtain ⟨byte, member, different⟩ := sound.other
    exact ne_nil_of_mem (mem_filter.mpr ⟨member, decide_eq_true different⟩)
  have pool : (newPackedConn uint32 layout rng pMin pMax).1.padPool =
      layout.paddingPool.filter (· ≠ layout.padMarker) :=
    if_neg fun empty => others (length_eq_zero_iff.mp empty)
  refine ⟨sound, sound.marker, fun byte member => ?_, ?_⟩
  · rw [pool, mem_filter] at member
    exact ⟨sound.padding byte member.1, of_decide_eq_true member.2⟩
  · rw [pool]
    exact length_pos_iff.mpr others

variable {codec : Codec}

section

variable (sound : codec.Sound) (buffer : BitBuffer)

include sound

/-- Padding leaves the reader as it is. -/
theorem run_unpack_padding {gap : List UInt8} (padding : ∀ byte ∈ gap, byte ∈ codec.padPool) :
    run (unpack codec) buffer gap = (buffer, []) := by
  induction gap with
  | nil => rfl
  | cons byte gap ih =>
    obtain ⟨notHint, notMarker⟩ := sound.pool byte (padding byte mem_cons_self)
    have same : unpack codec buffer byte = (buffer, []) := by
      rw [unpack, notHint, if_neg Bool.false_ne_true, if_neg notMarker]
    rw [run_cons, same]
    exact ih fun byte member => padding byte (mem_cons_of_mem _ member)

theorem unpack_group {group : UInt8} (small : group < 64) :
    unpack codec buffer (codec.layout.encodeGroup group) = takeGroup buffer group := by
  rw [unpack, sound.layout.hint group small, if_pos rfl, sound.layout.decode group small]

theorem unpack_marker : unpack codec buffer codec.padMarker = (⟨0, 0⟩, []) := by
  rw [unpack, sound.marker, if_neg Bool.false_ne_true, if_pos rfl]

end

/-! ### Padding and groups of the writer -/

theorem fastIntnFromUint32_lt (u : UInt32) {n : Nat} (positive : 0 < n) :
    fastIntnFromUint32 u n < n := by
  have bound : u.toNat < 2 ^ 32 := u.toNat_lt
  rw [fastIntnFromUint32, Nat.shiftRight_eq_div_pow, Nat.div_lt_iff_lt_mul (by decide)]
  rw [Nat.mul_comm n]
  exact Nat.mul_lt_mul_of_pos_right bound positive

theorem getD_mem_padPool {index : Nat}
    (small : index < codec.padPool.length) : codec.padPool.getD index 0 ∈ codec.padPool := by
  rw [getD_eq_getElem _ _ small]
  exact getElem_mem small

section Write

variable {Rng : Type} (uint32 : Rng → UInt32 × Rng)

theorem intn_lt (rng : Rng) {n : Nat} (positive : 0 < n) : (intn uint32 rng n).1 < n := by
  unfold intn
  split
  · exact positive
  · exact fastIntnFromUint32_lt _ positive

/-- Only padding has been written. -/
def Padded (codec : Codec) (draft draft' : Draft Rng) : Prop :=
  ∃ gap, (∀ byte ∈ gap, byte ∈ codec.padPool) ∧ draft'.2 = draft.2 ++ gap

theorem appendForcedPadding_eq (sound : codec.Sound) (draft : Draft Rng) :
    Padded codec draft (appendForcedPadding uint32 codec draft) := by
  refine ⟨_, fun byte member => ?_, rfl⟩
  rw [mem_singleton.mp member]
  exact getD_mem_padPool (intn_lt uint32 _ sound.nonempty)

theorem maybeAppendPackedPadding_eq (sound : codec.Sound) (draft : Draft Rng) :
    Padded codec draft (maybeAppendPackedPadding uint32 codec draft) := by
  unfold maybeAppendPackedPadding
  dsimp only
  split_ifs
  · refine ⟨_, fun byte member => ?_, rfl⟩
    rw [mem_singleton.mp member]
    exact getD_mem_padPool (fastIntnFromUint32_lt _ sound.nonempty)
  all_goals exact ⟨[], nofun, (append_nil _).symm⟩

/-- What the reader does with a group, and the padding before it. -/
theorem run_appendPackedGroup (sound : codec.Sound) (start : BitBuffer) (draft : Draft Rng)
    (group : UInt8) :
    run (unpack codec) start (appendPackedGroup uint32 codec draft group).2 =
      ((takeGroup (run (unpack codec) start draft.2).1 (group &&& 0x3F)).1,
        (run (unpack codec) start draft.2).2 ++
          (takeGroup (run (unpack codec) start draft.2).1 (group &&& 0x3F)).2) := by
  have small : group &&& 0x3F < 64 := by
    exact Nat.lt_succ_of_le Nat.and_le_right
  obtain ⟨gap, padding, padded⟩ := maybeAppendPackedPadding_eq uint32 sound draft
  have written : (appendPackedGroup uint32 codec draft group).2 =
      draft.2 ++ gap ++ [codec.layout.encodeGroup (group &&& 0x3F)] := by
    rw [← padded]
    rfl
  rw [written, run_append, run_append,
    run_unpack_padding sound _ padding, run_cons, unpack_group sound _ small]
  simp

/-! ### What is in flight -/

/-- What the two sides hold of the data: nothing, or the bits of one byte. -/
inductive InFlight : BitBuffer → BitBuffer → List UInt8 → Prop
  | none : InFlight ⟨0, 0⟩ ⟨0, 0⟩ []
  | two {lower upper : Nat} (byte : UInt8) (low : lower = byte.toNat % 4)
      (high : upper = byte.toNat / 4) : InFlight ⟨lower, 2⟩ ⟨upper, 6⟩ [byte]
  | four {lower upper : Nat} (byte : UInt8) (low : lower = byte.toNat % 16)
      (high : upper = byte.toNat / 16) : InFlight ⟨lower, 4⟩ ⟨upper, 4⟩ [byte]

/-- A reader that starts with the first byte written has the data but for what is in flight. -/
def Sent (codec : Codec) (start : BitBuffer) (state : BitBuffer × Draft Rng)
    (data : List UInt8) : Prop :=
  ∃ held, InFlight state.1 (Transducer.run (unpack codec) start state.2.2).1 held ∧
    (Transducer.run (unpack codec) start state.2.2).2 ++ held = data

variable {start : BitBuffer} {buffer : BitBuffer} {draft : Draft Rng} {data : List UInt8}

/-- Padding changes nothing. -/
theorem Sent.padded (sound : codec.Sound) (sent : Sent codec start (buffer, draft) data)
    {draft' : Draft Rng} (padding : Padded codec draft draft') :
    Sent codec start (buffer, draft') data := by
  obtain ⟨gap, members, padded⟩ := padding
  rw [Sent, padded, run_append, run_unpack_padding sound _ members, append_nil]
  exact sent

variable {count : Nat} {state : BitBuffer × Draft Rng}

theorem emitGroups_step (bits : Nat) (draft : Draft Rng) :
    emitGroups uint32 codec ⟨bits, count + 6⟩ draft =
      emitGroups uint32 codec ⟨bits % 2 ^ count, count⟩
        (appendPackedGroup uint32 codec draft (UInt8.ofNat (bits / 2 ^ count))) := by
  rw [emitGroups, if_pos (Nat.le_add_left 6 count)]
  dsimp only
  rw [Nat.add_sub_cancel, Nat.shiftRight_eq_div_pow, Nat.one_shiftLeft,
    Nat.and_two_pow_sub_one_eq_mod]
  split
  next zero => rw [zero, Nat.pow_zero, Nat.mod_one]
  · rfl

theorem emitGroups_done (few : count < 6) (bits : Nat) (draft : Draft Rng) :
    emitGroups uint32 codec ⟨bits, count⟩ draft = (⟨bits, count⟩, draft) := by
  rw [emitGroups, if_neg (Nat.not_le_of_lt few)]

theorem toNat_group (value : Nat) : (UInt8.ofNat value &&& 0x3F).toNat = value % 64 := by
  have mask : (0x3F : UInt8).toNat = 2 ^ 6 - 1 := rfl
  rw [UInt8.toNat_and, UInt8.toNat_ofNat', mask, Nat.and_two_pow_sub_one_eq_mod]
  omega

theorem pushByte_eq (bits count : Nat) (draft : Draft Rng) (byte : UInt8) :
    pushByte uint32 codec (⟨bits, count⟩, draft) byte =
      emitGroups uint32 codec ⟨bits * 256 + byte.toNat, count + 8⟩ draft := by
  have sum : bits <<< 8 ||| byte.toNat = bits * 256 + byte.toNat := by
    rw [← Nat.shiftLeft_add_eq_or_of_lt byte.toNat_lt, Nat.shiftLeft_eq]
  rw [pushByte, sum]

/-- The three phases of the writer. -/
theorem pushByte_zero (draft : Draft Rng) (byte : UInt8) :
    pushByte uint32 codec (⟨0, 0⟩, draft) byte = (⟨byte.toNat % 4, 2⟩,
      appendPackedGroup uint32 codec draft (UInt8.ofNat (byte.toNat / 4))) := by
  rw [pushByte_eq, Nat.zero_mul, Nat.zero_add, emitGroups_step, emitGroups_done uint32 (by decide)]
  rfl

theorem pushByte_two (lower : Nat) (draft : Draft Rng) (byte : UInt8) :
    pushByte uint32 codec (⟨lower, 2⟩, draft) byte = (⟨(lower * 256 + byte.toNat) % 16, 4⟩,
      appendPackedGroup uint32 codec draft (UInt8.ofNat ((lower * 256 + byte.toNat) / 16))) := by
  rw [pushByte_eq, emitGroups_step, emitGroups_done uint32 (by decide)]
  rfl

theorem pushByte_four (lower : Nat) (draft : Draft Rng) (byte : UInt8) :
    pushByte uint32 codec (⟨lower, 4⟩, draft) byte = (⟨0, 0⟩,
      appendPackedGroup uint32 codec
        (appendPackedGroup uint32 codec draft (UInt8.ofNat ((lower * 256 + byte.toNat) / 64)))
        (UInt8.ofNat ((lower * 256 + byte.toNat) % 64))) := by
  rw [pushByte_eq, emitGroups_step, emitGroups_step, emitGroups_done uint32 (by decide),
    Nat.pow_zero, Nat.mod_one, Nat.div_one]
  rfl

/-- A group completes no byte in a buffer with less than two bits. -/
theorem takeGroup_few (few : count < 2) (bits : Nat) (group : UInt8) :
    takeGroup ⟨bits, count⟩ group = (⟨bits * 64 + group.toNat, count + 6⟩, []) :=
  if_neg (Nat.not_le_of_lt few)

theorem takeGroup_many (bits count : Nat) (group : UInt8) :
    takeGroup ⟨bits, count + 2⟩ group =
      (⟨(bits * 64 + group.toNat) % 2 ^ count, count⟩,
        [UInt8.ofNat ((bits * 64 + group.toNat) / 2 ^ count)]) := by
  rfl

theorem ofNat_eq_of_toNat {value : Nat} (same : value = byte.toNat) : UInt8.ofNat value = byte := by
  rw [same, UInt8.ofNat_toNat]

/-- One byte of the data, in each of the three phases. -/
theorem Sent.pushByte (sound : codec.Sound) (sent : Sent codec start state data) (byte : UInt8) :
    Sent codec start (pushByte uint32 codec state byte) (data ++ [byte]) := by
  obtain ⟨buffer, draft⟩ := state
  obtain ⟨held, inFlight, decoded⟩ := sent
  have bound := byte.toNat_lt
  generalize read : run (unpack codec) start draft.2 = reader at inFlight decoded
  obtain ⟨reader, out⟩ := reader
  have group := run_appendPackedGroup uint32 sound start
  cases inFlight with
  | none =>
    rw [pushByte_zero, Sent, group, read, takeGroup_few (by decide), toNat_group, ← decoded]
    exact ⟨[byte], .two byte rfl (by omega), by simp⟩
  | two last low high =>
    rw [pushByte_two, Sent, group, read, takeGroup_many, toNat_group, ← decoded]
    refine ⟨[byte], .four byte (by omega) (by omega), ?_⟩
    rw [(ofNat_eq_of_toNat (by omega) : UInt8.ofNat _ = last)]
  | four last low high =>
    rw [pushByte_four, Sent, group, group, read, takeGroup_many, takeGroup_many, toNat_group,
      toNat_group, ← decoded, Nat.pow_zero, Nat.mod_one]
    refine ⟨[], .none, (append_nil _).trans (congrArg₂ (fun bytes byte => bytes ++ [byte])
      (congrArg (fun byte => out ++ [byte]) (ofNat_eq_of_toNat ?_)) (ofNat_eq_of_toNat ?_))⟩
    · omega
    · omega

theorem Sent.foldl_pushByte (sound : codec.Sound) (sent : Sent codec start state data)
    (bytes : List UInt8) :
    Sent codec start (bytes.foldl (Sudoku.pushByte uint32 codec) state) (data ++ bytes) := by
  induction bytes generalizing state data with
  | nil => rwa [append_nil]
  | cons byte bytes ih =>
    rw [← singleton_append, ← append_assoc]
    exact ih (sent.pushByte uint32 sound byte)

theorem appendPackedGroup_congr (draft : Draft Rng) {first second : UInt8}
    (same : (first &&& 0x3F).toNat = (second &&& 0x3F).toNat) :
    appendPackedGroup uint32 codec draft first = appendPackedGroup uint32 codec draft second := by
  rw [appendPackedGroup, appendPackedGroup, UInt8.toNat_inj.mp same]

/-- The path for three bytes is the slow one. -/
theorem foldl_pushByte_triple (draft : Draft Rng) (b₁ b₂ b₃ : UInt8) :
    [b₁, b₂, b₃].foldl (pushByte uint32 codec) (⟨0, 0⟩, draft) =
      (⟨0, 0⟩, pushTriple uint32 codec draft b₁ b₂ b₃) := by
  have bound₂ := b₂.toNat_lt
  have bound₃ := b₃.toNat_lt
  rw [foldl_cons, foldl_cons, foldl_cons, foldl_nil, pushByte_zero, pushByte_two, pushByte_four]
  unfold pushTriple
  rw [foldl_cons, foldl_cons, foldl_cons, foldl_cons, foldl_nil]
  have six {group : UInt8} : (group &&& 0x3F).toNat = group.toNat % 2 ^ 6 := toNat_and_ones 6 rfl
  have four {byte : UInt8} : (byte &&& 0x0F).toNat = byte.toNat % 2 ^ 4 := toNat_and_ones 4 rfl
  have two {byte : UInt8} : (byte &&& 0x03).toNat = byte.toNat % 2 ^ 2 := toNat_and_ones 2 rfl
  have group₁ : (UInt8.ofNat (b₁.toNat / 4) &&& 0x3F).toNat =
      (b₁ >>> 2 &&& 0x3F &&& 0x3F).toNat := by
    rw [toNat_group, six, six, toNat_shiftRight (by decide)]
    show _ = b₁.toNat / 4 % 64 % 64
    omega
  have group₂ : (UInt8.ofNat ((b₁.toNat % 4 * 256 + b₂.toNat) / 16) &&& 0x3F).toNat =
      (((b₁ &&& 0x03) <<< 4 ||| b₂ >>> 4 &&& 0x0F) &&& 0x3F).toNat := by
    have small : (b₂ >>> 4 &&& 0x0F).toNat < 2 ^ 4 := by
      rw [four]
      exact Nat.mod_lt _ (by decide)
    rw [toNat_group, six, toNat_shiftLeft_or (by decide) small, two, four,
      toNat_shiftRight (by decide)]
    show _ = (b₁.toNat % 4 % 16 * 16 + b₂.toNat / 16 % 16) % 64
    omega
  have group₃ : (UInt8.ofNat (((b₁.toNat % 4 * 256 + b₂.toNat) % 16 * 256 + b₃.toNat) / 64) &&&
      0x3F).toNat = (((b₂ &&& 0x0F) <<< 2 ||| b₃ >>> 6 &&& 0x03) &&& 0x3F).toNat := by
    have small : (b₃ >>> 6 &&& 0x03).toNat < 2 ^ 2 := by
      rw [two]
      exact Nat.mod_lt _ (by decide)
    rw [toNat_group, six, toNat_shiftLeft_or (by decide) small, two, four,
      toNat_shiftRight (by decide)]
    show _ = (b₂.toNat % 16 % 64 * 4 + b₃.toNat / 64 % 4) % 64
    omega
  have group₄ : (UInt8.ofNat (((b₁.toNat % 4 * 256 + b₂.toNat) % 16 * 256 + b₃.toNat) % 64) &&&
      0x3F).toNat = (b₃ &&& 0x3F &&& 0x3F).toNat := by
    rw [toNat_group, six, six]
    omega
  rw [appendPackedGroup_congr uint32 _ group₁, appendPackedGroup_congr uint32 _ group₂,
    appendPackedGroup_congr uint32 _ group₃, appendPackedGroup_congr uint32 _ group₄]

/-- The loops over three bytes. -/
theorem Sent.pushTriple (sound : codec.Sound) (sent : Sent codec start (⟨0, 0⟩, draft) data)
    (b₁ b₂ b₃ : UInt8) :
    Sent codec start (⟨0, 0⟩, Sudoku.pushTriple uint32 codec draft b₁ b₂ b₃)
      (data ++ [b₁, b₂, b₃]) := by
  rw [← foldl_pushByte_triple]
  exact sent.foldl_pushByte uint32 sound _

/-- A loop has sent the front of the bytes. -/
def SentFront (codec : Codec) (start buffer : BitBuffer) (result : Draft Rng × List UInt8)
    (data p : List UInt8) : Prop :=
  ∃ front, front ++ result.2 = p ∧ Sent codec start (buffer, result.1) (data ++ front)

theorem SentFront.append {result : Draft Rng × List UInt8} {front p p' : List UInt8}
    (later : SentFront codec start buffer result (data ++ front) p') (whole : front ++ p' = p) :
    SentFront codec start buffer result data p := by
  obtain ⟨middle, rest, sent⟩ := later
  exact ⟨front ++ middle, by rw [append_assoc, rest, whole], by rwa [← append_assoc]⟩

section

variable (sound : codec.Sound) (sent : Sent codec start (⟨0, 0⟩, draft) data)

include sound sent

theorem Sent.takeTriples (batch : Nat) (p : List UInt8) :
    SentFront codec start ⟨0, 0⟩ (Sudoku.takeTriples uint32 codec batch draft p) data p := by
  fun_induction Sudoku.takeTriples uint32 codec batch draft p generalizing data with
  | case1 batch draft b₁ b₂ b₃ rest ih =>
    exact (ih (sent.pushTriple uint32 sound b₁ b₂ b₃)).append rfl
  | case2 => exact ⟨[], rfl, by rwa [append_nil]⟩

theorem Sent.tripleLoop (p : List UInt8) :
    SentFront codec start ⟨0, 0⟩ (Sudoku.tripleLoop uint32 codec draft p) data p := by
  fun_induction Sudoku.tripleLoop uint32 codec draft p generalizing data with
  | case1 draft b₁ b₂ b₃ rest ih =>
    exact (ih (sent.pushTriple uint32 sound b₁ b₂ b₃)).append rfl
  | case2 => exact ⟨[], rfl, by rwa [append_nil]⟩

theorem Sent.batchLoop (p : List UInt8) :
    SentFront codec start ⟨0, 0⟩ (Sudoku.batchLoop uint32 codec draft p) data p := by
  fun_induction Sudoku.batchLoop uint32 codec draft p generalizing data with
  | case1 draft p long ih =>
    obtain ⟨front, whole, now⟩ := sent.takeTriples uint32 sound 4 p
    exact (ih now).append whole
  | case2 => exact ⟨[], rfl, by rwa [append_nil]⟩

end

/-! ### A whole `Write` -/

/-- The number of rounds of padding is at most two, so a fourth check would never be made. -/
theorem prefixPadding_succ {checks padCount : Nat} (enough : 3 ≤ padCount + (checks + 1))
    (draft : Draft Rng) :
    prefixPadding uint32 codec (checks + 2) padCount draft =
      prefixPadding uint32 codec (checks + 1) padCount draft := by
  induction checks generalizing padCount draft with
  | zero =>
    have drawn : (intn uint32 draft.1 2).1 < 2 := intn_lt uint32 draft.1 (by decide)
    have last : ¬padCount < 1 + (intn uint32 draft.1 2).1 := by omega
    rw [prefixPadding, if_neg last, prefixPadding, if_neg last]
  | succ checks ih =>
    rw [prefixPadding, ih (by omega)]
    rfl

section

variable (sound : codec.Sound)

include sound

theorem prefixPadding_eq (checks padCount : Nat) (draft : Draft Rng) :
    Padded codec draft (prefixPadding uint32 codec checks padCount draft) := by
  induction checks generalizing padCount draft with
  | zero => exact ⟨[], nofun, (append_nil _).symm⟩
  | succ checks ih =>
    rw [prefixPadding]
    split
    · obtain ⟨first, members, now⟩ :=
        appendForcedPadding_eq uint32 sound ((intn uint32 draft.1 2).2, draft.2)
      obtain ⟨second, members', later⟩ := ih (padCount + 1)
        (appendForcedPadding uint32 codec ((intn uint32 draft.1 2).2, draft.2))
      refine ⟨first ++ second, fun byte member => ?_, ?_⟩
      · rcases mem_append.mp member with member | member
        · exact members byte member
        · exact members' byte member
      · rw [later, now, append_assoc]
    · exact ⟨[], nofun, (append_nil _).symm⟩

section

variable (sent : Sent codec start state data)

include sent

/-- The generator does not matter for what has been sent. -/
theorem Sent.prefixLoop (gap effective : Nat) (bytes : List UInt8) :
    Sent codec start (prefixLoop uint32 codec gap effective state bytes) (data ++ bytes) := by
  induction bytes generalizing gap effective state data with
  | nil => rwa [append_nil]
  | cons byte bytes ih =>
    have pushed := sent.pushByte uint32 sound byte
    have split : data ++ byte :: bytes = data ++ [byte] ++ bytes := by simp
    rw [split, Sudoku.prefixLoop]
    split
    · refine ih ?_ _ _
      exact pushed.padded sound (appendForcedPadding_eq uint32 sound _)
    · exact ih pushed _ _

theorem Sent.writeProtectedPrefix (p : List UInt8) :
    ∃ front, front ++ (writeProtectedPrefix uint32 codec state p).2 = p ∧
      Sent codec start (writeProtectedPrefix uint32 codec state p).1 (data ++ front) := by
  unfold Sudoku.writeProtectedPrefix
  split
  · exact ⟨[], rfl, by rwa [append_nil]⟩
  · refine ⟨_, take_append_drop _ p, Sent.prefixLoop uint32 sound ?_ _ _ _⟩
    exact sent.padded sound (prefixPadding_eq uint32 sound 3 0 state.2)

/-- The loop ends with an empty bit buffer or with no byte left. -/
theorem Sent.alignLoop (p : List UInt8) : ∃ front, front ++ (alignLoop uint32 codec state p).2 = p ∧
      Sent codec start (alignLoop uint32 codec state p).1 (data ++ front) ∧
      ((alignLoop uint32 codec state p).1.1 = ⟨0, 0⟩ ∨ (alignLoop uint32 codec state p).2 = []) := by
  induction p generalizing state data with
  | nil => exact ⟨[], rfl, by rwa [append_nil], .inr rfl⟩
  | cons byte rest ih =>
    rw [Sudoku.alignLoop]
    split
    · obtain ⟨front, whole, later, aligned⟩ :=
        ih (sent.pushByte uint32 sound byte)
      refine ⟨byte :: front, congrArg (byte :: ·) whole, ?_, aligned⟩
      rwa [append_assoc] at later
    next empty =>
      refine ⟨[], rfl, by rwa [append_nil], .inl ?_⟩
      obtain ⟨held, inFlight, -⟩ := sent
      obtain ⟨buffer, draft⟩ := state
      generalize (run (unpack codec) start draft.2).1 = reader at inFlight
      cases inFlight with
      | none => rfl
      | two => exact absurd (Nat.succ_pos 1) empty
      | four => exact absurd (Nat.succ_pos 3) empty

/-- At the end nothing is in flight. -/
theorem Sent.finishGroups : (finishGroups uint32 codec state).1 = ⟨0, 0⟩ ∧
      run (unpack codec) start (finishGroups uint32 codec state).2.2 = (⟨0, 0⟩, data) := by
  obtain ⟨buffer, draft⟩ := state
  obtain ⟨held, inFlight, decoded⟩ := sent
  generalize read : run (unpack codec) start draft.2 = reader at inFlight decoded
  obtain ⟨reader, out⟩ := reader
  have group := run_appendPackedGroup uint32 sound start
  dsimp only at inFlight decoded
  cases inFlight with
  | none =>
    rw [append_nil] at decoded
    exact ⟨rfl, read.trans (by rw [decoded])⟩
  | two last low high | four last low high =>
    refine ⟨rfl, ?_⟩
    show run (unpack codec) start (_ ++ [codec.padMarker]) = _
    rw [run_append, group, read, takeGroup_many, toNat_group, run_cons,
      unpack_marker sound, ← decoded, Nat.shiftLeft_eq]
    refine Prod.ext rfl ((append_nil _).trans
      (congrArg (fun byte => out ++ [byte]) (ofNat_eq_of_toNat ?_)))
    dsimp only
    omega

end

/-- Both loops over three bytes, after the bit buffer has been emptied. -/
theorem Sent.loops (sent : Sent codec start (buffer, draft) data) {p : List UInt8}
    (aligned : buffer = ⟨0, 0⟩ ∨ p = []) :
    SentFront codec start buffer (Sudoku.tripleLoop uint32 codec
      (Sudoku.batchLoop uint32 codec draft p).1 (Sudoku.batchLoop uint32 codec draft p).2) data p := by
  rcases aligned with rfl | rfl
  · obtain ⟨front, whole, sent⟩ := sent.batchLoop uint32 sound p
    exact (sent.tripleLoop uint32 sound _).append whole
  · have nothing : Sudoku.batchLoop uint32 codec draft [] = (draft, []) := by
      rw [Sudoku.batchLoop, if_neg (by decide)]
    rw [nothing]
    exact ⟨[], rfl, by rwa [append_nil]⟩

/-- What a `Write` puts on the wire is read as what was written, and both sides are as before. -/
theorem write_sends (rng : Rng) (p : List UInt8) : (write uint32 codec ⟨0, 0⟩ rng p).1 = ⟨0, 0⟩ ∧
      run (unpack codec) ⟨0, 0⟩ (write uint32 codec ⟨0, 0⟩ rng p).2.2 = (⟨0, 0⟩, p) := by
  unfold write
  split
  next empty =>
    rw [length_eq_zero_iff.mp empty]
    exact ⟨rfl, rfl⟩
  · have begin : Sent codec ⟨0, 0⟩ (⟨0, 0⟩, rng, []) [] := ⟨[], .none, rfl⟩
    obtain ⟨first, whole, sent⟩ := begin.writeProtectedPrefix uint32 sound p
    dsimp only
    generalize writeProtectedPrefix uint32 codec (⟨0, 0⟩, rng, []) p = front at whole sent ⊢
    obtain ⟨second, rest, sent, aligned⟩ := sent.alignLoop uint32 sound front.2
    generalize alignLoop uint32 codec front.1 front.2 = emptied at rest sent aligned ⊢
    obtain ⟨third, rest', sent⟩ := sent.loops uint32 sound aligned
    generalize tripleLoop uint32 codec (batchLoop uint32 codec emptied.1.2 emptied.2).1
      (batchLoop uint32 codec emptied.1.2 emptied.2).2 = tripled at rest' sent ⊢
    obtain ⟨empty, read⟩ := (sent.foldl_pushByte uint32 sound tripled.2).finishGroups uint32 sound
    have data : [] ++ first ++ second ++ third ++ tripled.2 = p := by
      rw [nil_append, append_assoc, rest', append_assoc, rest, whole]
    obtain ⟨gap, members, padded⟩ := maybeAppendPackedPadding_eq uint32 sound
      (finishGroups uint32 codec
        (tripled.2.foldl (pushByte uint32 codec) (emptied.1.1, tripled.1))).2
    refine ⟨empty, ?_⟩
    rw [padded, run_append, read, run_unpack_padding sound _ members, append_nil, data]

/-- `Flush` between calls of `Write` sends only padding. -/
theorem flush_sends (rng : Rng) : (flush uint32 codec ⟨0, 0⟩ rng).1 = ⟨0, 0⟩ ∧
      run (unpack codec) ⟨0, 0⟩ (flush uint32 codec ⟨0, 0⟩ rng).2.2 = (⟨0, 0⟩, []) := by
  refine ⟨rfl, ?_⟩
  obtain ⟨gap, members, padded⟩ := maybeAppendPackedPadding_eq uint32 sound (rng, [])
  show run _ _ (maybeAppendPackedPadding uint32 codec (rng, [])).2 = _
  rw [padded]
  exact run_unpack_padding sound _ members

end

end Write

/-! ### Reading chunks -/

/-- The decoded bytes go to the caller as long as they fit. -/
def Decoded.deliver (decoded : Decoded) (size : Nat) (bytes : List UInt8) : Decoded :=
  bytes.foldl (fun decoded byte => decoded.append size byte) decoded

def Decoded.withBuffer (decoded : Decoded) (buffer : BitBuffer) : Decoded :=
  { decoded with buffer := buffer }

/-- What the machine makes of a chunk. -/
def Decoded.follow (codec : Codec) (size : Nat) (decoded : Decoded) (chunk : List UInt8) :
    Decoded :=
  (decoded.deliver size (Transducer.run (unpack codec) decoded.buffer chunk).2).withBuffer
    (Transducer.run (unpack codec) decoded.buffer chunk).1

/-- A buffer has no more bits than it counts. -/
def BitBuffer.Tidy (buffer : BitBuffer) : Prop := buffer.bits < 2 ^ buffer.count

theorem BitBuffer.Tidy.eq_zero (tidy : buffer.Tidy) (empty : buffer.count = 0) :
    buffer = ⟨0, 0⟩ := by
  obtain ⟨bits, count⟩ := buffer
  obtain rfl : count = 0 := empty
  obtain rfl : bits = 0 := Nat.lt_one_iff.mp tidy
  rfl

theorem unpack_tidy (sound : codec.Sound) (tidy : buffer.Tidy) (b : UInt8) :
    (unpack codec buffer b).1.Tidy := by
  unfold unpack
  split_ifs
  · have small := UInt8.lt_iff_toNat_lt.mp (sound.layout.small b)
    unfold takeGroup
    split_ifs
    · exact Nat.mod_lt _ (Nat.two_pow_pos _)
    · show buffer.bits * 64 + (codec.layout.decodeGroup b).toNat < 2 ^ (buffer.count + 6)
      change _ < 64 at small
      change _ < _ at tidy
      rw [Nat.pow_add]
      omega
  · exact Nat.one_pos
  · exact tidy

theorem run_unpack_tidy (sound : codec.Sound) (tidy : buffer.Tidy) (bytes : List UInt8) :
    (run (unpack codec) buffer bytes).1.Tidy := by
  induction bytes generalizing buffer with
  | nil => exact tidy
  | cons b bytes ih => exact ih (unpack_tidy sound tidy b)

section

variable {size : Nat}

theorem deliver_withBuffer (decoded : Decoded) (buffer : BitBuffer) (bytes : List UInt8) :
    (decoded.withBuffer buffer).deliver size bytes =
      (decoded.deliver size bytes).withBuffer buffer := by
  induction bytes generalizing decoded with
  | nil => rfl
  | cons byte bytes ih =>
    have same : (decoded.withBuffer buffer).append size byte =
        (decoded.append size byte).withBuffer buffer := by
      unfold append withBuffer
      split_ifs <;> rfl
    rw [deliver, foldl_cons, same]
    exact ih _

variable {decoded : Decoded}

theorem deliver_of_room {bytes : List UInt8} (room : decoded.out.length + bytes.length ≤ size) :
    decoded.deliver size bytes = { decoded with out := decoded.out ++ bytes } := by
  induction bytes generalizing decoded with
  | nil => rw [append_nil]; rfl
  | cons byte bytes ih =>
    rw [length_cons] at room
    have first : decoded.append size byte = { decoded with out := decoded.out ++ [byte] } :=
      if_pos (by omega)
    rw [deliver, foldl_cons, first]
    refine (ih ?_).trans ?_
    · rw [length_append, length_singleton]
      omega
    · rw [append_assoc, singleton_append]

theorem deliver_of_full (full : size ≤ decoded.out.length) (bytes : List UInt8) :
    decoded.deliver size bytes = { decoded with pending := decoded.pending ++ bytes } := by
  induction bytes generalizing decoded with
  | nil => rw [append_nil]; rfl
  | cons byte bytes ih =>
    have first : decoded.append size byte = { decoded with pending := decoded.pending ++ [byte] } :=
      if_neg (by omega)
    have later := @ih { decoded with pending := decoded.pending ++ [byte] } full
    rw [append_assoc, singleton_append] at later
    rw [deliver, foldl_cons, first]
    exact later

/-- With nothing decoded before, the caller gets the first bytes and the others are pending. -/
theorem deliver_nil (buffer : BitBuffer) (bytes : List UInt8) :
    deliver ⟨buffer, [], []⟩ size bytes = ⟨buffer, bytes.take size, bytes.drop size⟩ := by
  by_cases fits : bytes.length ≤ size
  · rw [deliver_of_room (by simpa using fits), take_of_length_le fits,
      drop_eq_nil_of_le fits]
    rfl
  · have taken : (bytes.take size).length = size := by
      rw [length_take]
      omega
    have front : deliver ⟨buffer, [], []⟩ size (bytes.take size) =
        ⟨buffer, bytes.take size, []⟩ := deliver_of_room (by simp [taken])
    have back : deliver ⟨buffer, bytes.take size, []⟩ size (bytes.drop size) =
        ⟨buffer, bytes.take size, bytes.drop size⟩ := deliver_of_full taken.ge _
    calc deliver ⟨buffer, [], []⟩ size bytes
      _ = deliver ⟨buffer, [], []⟩ size (bytes.take size ++ bytes.drop size) := by
        rw [take_append_drop]
      _ = (deliver ⟨buffer, [], []⟩ size (bytes.take size)).deliver size
          (bytes.drop size) := foldl_append ..
      _ = ⟨buffer, bytes.take size, bytes.drop size⟩ := by rw [front, back]

theorem follow_append (decoded : Decoded) (first second : List UInt8) :
    decoded.follow codec size (first ++ second) =
      (decoded.follow codec size first).follow codec size second := by
  have delivered (bytes bytes' : List UInt8) : decoded.deliver size (bytes ++ bytes') =
      (decoded.deliver size bytes).deliver size bytes' := foldl_append ..
  rw [follow, run_append, delivered, follow, follow, deliver_withBuffer]
  rfl

theorem decodeByte_eq (sound : codec.Sound) (decoded : Decoded) (b : UInt8) :
    decodeByte codec size decoded b = .ok (decoded.follow codec size [b]) := by
  unfold decodeByte follow
  rw [run_cons, run_nil, append_nil]
  unfold unpack
  cases hint : codec.layout.hintTable b with
  | false =>
    simp only [Bool.not_false, if_true, Bool.false_eq_true, if_false]
    split_ifs <;> rfl
  | true =>
    have small := UInt8.lt_iff_toNat_lt.mp (sound.layout.small b)
    have sum : decoded.buffer.bits <<< 6 ||| (codec.layout.decodeGroup b).toNat =
        decoded.buffer.bits * 64 + (codec.layout.decodeGroup b).toNat := by
      rw [← Nat.shiftLeft_add_eq_or_of_lt small, Nat.shiftLeft_eq]
    simp only [Bool.not_true, Bool.false_eq_true, if_false, sound.layout.valid b hint, if_true, sum]
    have masked (bits count : Nat) : (if count = 0 then 0 else bits % 2 ^ count) =
        bits % 2 ^ count := by
      split_ifs with zero
      · rw [zero, Nat.pow_zero, Nat.mod_one]
      · rfl
    unfold takeGroup
    by_cases complete : 2 ≤ decoded.buffer.count
    · have count : decoded.buffer.count + 6 - 8 = decoded.buffer.count - 2 := by omega
      rw [if_pos (by omega), if_pos complete, count, Nat.shiftRight_eq_div_pow, Nat.one_shiftLeft,
        Nat.and_two_pow_sub_one_eq_mod, masked]
      rfl
    · rw [if_neg (by omega), if_neg complete]
      rfl

/-- Four groups at once are three bytes. -/
theorem run_unpack_four (sound : codec.Sound) {b₁ b₂ b₃ b₄ : UInt8}
    (hints : codec.layout.hintTable b₁ ∧ codec.layout.hintTable b₂ ∧ codec.layout.hintTable b₃ ∧
      codec.layout.hintTable b₄) :
    let g₁ := codec.layout.decodeGroup b₁
    let g₂ := codec.layout.decodeGroup b₂
    let g₃ := codec.layout.decodeGroup b₃
    let g₄ := codec.layout.decodeGroup b₄
    run (unpack codec) ⟨0, 0⟩ [b₁, b₂, b₃, b₄] =
      (⟨0, 0⟩, [g₁ <<< 2 ||| g₂ >>> 4, g₂ <<< 4 ||| g₃ >>> 2, g₃ <<< 6 ||| g₄]) := by
  obtain ⟨hint₁, hint₂, hint₃, hint₄⟩ := hints
  have group {b : UInt8} (buffer : BitBuffer) (hint : codec.layout.hintTable b = true) :
      unpack codec buffer b = takeGroup buffer (codec.layout.decodeGroup b) := if_pos hint
  have small (b : UInt8) : (codec.layout.decodeGroup b).toNat < 64 :=
    UInt8.lt_iff_toNat_lt.mp (sound.layout.small b)
  rw [run_cons, group _ hint₁, takeGroup_few (by decide), run_cons,
    group _ hint₂, takeGroup_many, run_cons, group _ hint₃, takeGroup_many,
    run_cons, group _ hint₄, takeGroup_many, run_nil, Nat.pow_zero,
    Nat.mod_one]
  have small₁ := small b₁
  have small₂ := small b₂
  have small₃ := small b₃
  have small₄ := small b₄
  generalize codec.layout.decodeGroup b₁ = g₁ at small₁ ⊢
  generalize codec.layout.decodeGroup b₂ = g₂ at small₂ ⊢
  generalize codec.layout.decodeGroup b₃ = g₃ at small₃ ⊢
  generalize codec.layout.decodeGroup b₄ = g₄ at small₄ ⊢
  have shifted₂ : (g₂ >>> 4).toNat = g₂.toNat / 16 := toNat_shiftRight (by decide)
  have shifted₃ : (g₃ >>> 2).toNat = g₃.toNat / 4 := toNat_shiftRight (by decide)
  have byte₁ : (g₁ <<< 2 ||| g₂ >>> 4).toNat = g₁.toNat % 64 * 4 + g₂.toNat / 16 := by
    rw [toNat_shiftLeft_or (by decide) (by rw [shifted₂]; show _ < 4; omega), shifted₂]
    rfl
  have byte₂ : (g₂ <<< 4 ||| g₃ >>> 2).toNat = g₂.toNat % 16 * 16 + g₃.toNat / 4 := by
    rw [toNat_shiftLeft_or (by decide) (by rw [shifted₃]; show _ < 16; omega), shifted₃]
    rfl
  have byte₃ : (g₃ <<< 6 ||| g₄).toNat = g₃.toNat % 4 * 64 + g₄.toNat := by
    rw [toNat_shiftLeft_or (by decide) small₄]
    rfl
  refine Prod.ext rfl (congrArg₂ List.cons (ofNat_eq_of_toNat ?_) (congrArg₂ List.cons
    (ofNat_eq_of_toNat ?_) (congrArg (fun byte => [byte]) (ofNat_eq_of_toNat ?_))))
  · omega
  · omega
  · omega

theorem decodeChunk_eq (sound : codec.Sound) (tidy : decoded.buffer.Tidy) (chunk : List UInt8) :
    decodeChunk codec size decoded chunk = .ok (decoded.follow codec size chunk) := by
  have slowly (decoded : Decoded) (tidy : decoded.buffer.Tidy) (b : UInt8) (rest : List UInt8)
      (later : ∀ decoded' : Decoded, decoded'.buffer.Tidy →
        decodeChunk codec size decoded' rest = .ok (decoded'.follow codec size rest)) :
      ((decodeByte codec size decoded b).bind fun decoded => decodeChunk codec size decoded rest) =
        .ok (decoded.follow codec size (b :: rest)) := by
    rw [decodeByte_eq sound]
    refine (later _ ?_).trans (congrArg Except.ok (follow_append decoded [b] rest).symm)
    exact unpack_tidy sound tidy b
  fun_induction decodeChunk codec size decoded chunk with
  | case1 => rfl
  | case2 decoded b₁ b₂ b₃ b₄ rest layout fast g₁ g₂ g₃ g₄ ih =>
    obtain ⟨empty, room, hints⟩ := fast
    have buffer := tidy.eq_zero empty
    have four : decoded.follow codec size [b₁, b₂, b₃, b₄] = { decoded with
        out := decoded.out ++ [g₁ <<< 2 ||| g₂ >>> 4, g₂ <<< 4 ||| g₃ >>> 2, g₃ <<< 6 ||| g₄] } := by
      rw [follow, buffer, run_unpack_four sound hints, deliver_of_room room, withBuffer, ← buffer]
    rw [ih tidy, ← four, ← follow_append]
    rfl
  | case3 decoded b₁ b₂ b₃ b₄ rest layout slow ih =>
    exact slowly decoded tidy b₁ _ ih
  | case4 decoded b rest short ih =>
    exact slowly decoded tidy b rest ih

end

/-! ### Reads -/

/-- The bytes that are still to be delivered. -/
def RawSegment.bytesOf (segments : List RawSegment) : List UInt8 :=
  segments.flatMap RawSegment.bytes

/-- After the end of a stream nothing is delivered. -/
def RawSegment.EndsAtEof (segments : List RawSegment) : Prop :=
  ∀ before segment after, segments = before ++ segment :: after → segment.err = some .eof →
    bytesOf after = []

/-- What has been read of the delivered bytes: the bytes taken from the connection below have
been decoded, and returned but for what is pending. -/
structure Follows (codec : Codec) (delivered returned : List UInt8) (reader : PackedReader) :
    Prop where
  ends : RawSegment.EndsAtEof reader.segments
  taken : ∃ taken, taken ++ RawSegment.bytesOf reader.segments = delivered ∧
    (Transducer.run (unpack codec) ⟨0, 0⟩ taken).2 = returned ++ reader.pendingData ∧
    (RawSegment.bytesOf reader.segments ≠ [] →
      (Transducer.run (unpack codec) ⟨0, 0⟩ taken).1 = reader.buffer) ∧ reader.buffer.Tidy

theorem RawSegment.bytesOf_advance (segment : RawSegment) (limit : Nat) (rest : List RawSegment) :
    segment.bytes.take limit ++ bytesOf (segment.advance limit rest) =
      bytesOf (segment :: rest) := by
  unfold advance
  split
  next whole =>
    rw [take_of_length_le whole]
    rfl
  · show _ ++ (segment.bytes.drop limit ++ bytesOf rest) = segment.bytes ++ bytesOf rest
    rw [← append_assoc, take_append_drop]

theorem RawSegment.EndsAtEof.advance (ends : EndsAtEof (segment :: rest)) (limit : Nat) :
    EndsAtEof (segment.advance limit rest) := by
  unfold RawSegment.advance
  split
  · intro before other after split
    exact ends (segment :: before) other after (congrArg (segment :: ·) split)
  · intro before other after split
    cases before with
    | nil =>
      obtain ⟨rfl, rfl⟩ := List.cons.inj split
      exact ends [] segment rest rfl
    | cons first before =>
      obtain ⟨rfl, same⟩ := List.cons.inj split
      exact ends (segment :: before) other after (congrArg (segment :: ·) same)

/-- What `Read` returns, as bytes. -/
def ReadResult.bytes : ReadResult → List UInt8
  | returned bytes => bytes
  | failed _ | mapMiss | waiting => []

variable {delivered returned : List UInt8}

/-- A read of the connection below, and what is decoded of it. -/
theorem Follows.chunk (sound : codec.Sound)
    (follows : Follows codec delivered returned ⟨buffer, [], segment :: rest⟩)
    (positive : 0 < size) (limit : Nat) :
    let decoded := follow codec size ⟨buffer, [], []⟩ (segment.bytes.take limit)
    decodeChunk codec size ⟨buffer, [], []⟩ (segment.bytes.take limit) = .ok decoded ∧
      (decoded.out = [] → decoded.pending = []) ∧
      Follows codec delivered (returned ++ decoded.out)
        ⟨decoded.buffer, decoded.pending, segment.advance limit rest⟩ := by
  obtain ⟨ends, taken, whole, read, same, tidy⟩ := follows
  have bytes := segment.bytesOf_advance limit rest
  have decoded : follow codec size ⟨buffer, [], []⟩ (segment.bytes.take limit) =
      ⟨(run (unpack codec) buffer (segment.bytes.take limit)).1,
        (run (unpack codec) buffer (segment.bytes.take limit)).2.take size,
        (run (unpack codec) buffer (segment.bytes.take limit)).2.drop size⟩ := by
    rw [follow, deliver_nil]
    rfl
  have agree : (run (unpack codec) ⟨0, 0⟩ taken).1 = buffer ∨
      segment.bytes.take limit = [] ∧ bytesOf (segment.advance limit rest) = [] := by
    by_cases nothing : bytesOf (segment :: rest) = []
    · rw [nothing] at bytes
      exact .inr (append_eq_nil_iff.mp bytes)
    · exact .inl (same nothing)
  refine ⟨decodeChunk_eq sound tidy _, ?_, ends.advance limit, taken ++ segment.bytes.take limit,
    ?_, ?_, ?_, ?_⟩
  · rw [decoded]
    intro none
    rw [take_eq_nil_iff.mp none |>.resolve_left positive.ne', drop_nil]
  · rw [append_assoc, bytes, whole]
  · rw [decoded, append_assoc, take_append_drop, run_append, read,
      append_nil]
    rcases agree with same | ⟨nothing, -⟩
    · rw [same]
    · rw [nothing]
      rfl
  · intro remaining
    rcases agree with same | ⟨-, nothing⟩
    · rw [decoded, run_append, same]
    · exact absurd nothing remaining
  · exact run_unpack_tidy sound tidy _

/-- The loop of `Read`. -/
theorem follows_readLoop (sound : codec.Sound) (positive : 0 < size)
    (follows : Follows codec delivered returned ⟨buffer, [], segments⟩) :
    Follows codec delivered (returned ++ (readLoop codec size buffer [] segments).2.bytes)
        (readLoop codec size buffer [] segments).1 ∧
      (readLoop codec size buffer [] segments).2 ≠ .mapMiss := by
  induction weight : weight segments using Nat.strong_induction_on
    generalizing buffer segments returned with
  | _ weight ih =>
    cases segments with
    | nil =>
      rw [readLoop]
      refine ⟨by rwa [ReadResult.bytes, append_nil], ?_⟩
      rintro ⟨⟩
    | cons segment rest =>
      obtain ⟨decodes, empty, next⟩ := follows.chunk sound positive
        (packedReadSize size packedDecodeBufferSize)
      have less := segment.weight_advance_lt (packedReadSize_pos size) rest
      have atEof : segment.bytes.length ≤ packedReadSize size packedDecodeBufferSize →
          segment.err = some .eof → bytesOf (segment.advance
            (packedReadSize size packedDecodeBufferSize) rest) = [] := by
        intro whole eof
        rw [advance, if_pos whole]
        exact follows.ends [] segment rest rfl eof
      rw [weight] at less
      rw [readLoop]
      rw [decodes]
      generalize Decoded.follow codec size ⟨buffer, [], []⟩ (segment.bytes.take
        (packedReadSize size packedDecodeBufferSize)) = decoded at empty next ⊢
      generalize segment.advance (packedReadSize size packedDecodeBufferSize) rest = left
        at next less atEof ⊢
      cases failure : (if segment.bytes.length ≤ packedReadSize size packedDecodeBufferSize then
        segment.err else none) with
      | none =>
        dsimp only
        by_cases some : decoded.out ≠ []
        · rw [if_pos some]
          refine ⟨next, ?_⟩
          rintro ⟨⟩
        · rw [if_neg some]
          have nothing := not_not.mp some
          rw [nothing, append_nil, empty nothing] at next
          rw [empty nothing]
          exact ih _ less next rfl
      | some err =>
        have reset : Follows codec delivered (returned ++ decoded.out)
            ⟨if err = .eof then ⟨0, 0⟩ else decoded.buffer, decoded.pending, left⟩ := by
          split_ifs at failure ⊢ with eof whole
          · obtain ⟨ends, taken, whole', read, -, -⟩ := next
            rw [eof] at failure
            exact ⟨ends, taken, whole', read, fun remaining => absurd (atEof whole failure) remaining,
              Nat.one_pos⟩
          · exact next
        dsimp only
        by_cases some : decoded.out ≠ []
        · rw [if_pos some]
          refine ⟨reset, ?_⟩
          rintro ⟨⟩
        · rw [if_neg some]
          have nothing := not_not.mp some
          rw [nothing, empty nothing] at reset
          rw [empty nothing, if_neg (not_not.mpr rfl)]
          refine ⟨reset, ?_⟩
          rintro ⟨⟩

theorem Follows.read (sound : codec.Sound) (follows : Follows codec delivered returned reader)
    (size : Nat) : Follows codec delivered (returned ++ (reader.read codec size).2.bytes)
        (reader.read codec size).1 ∧ (reader.read codec size).2 ≠ .mapMiss := by
  unfold PackedReader.read
  split_ifs with zero pending
  · exact ⟨by rwa [ReadResult.bytes, append_nil], nofun⟩
  · obtain ⟨ends, taken, whole, read, same, tidy⟩ := follows
    refine ⟨⟨ends, taken, whole, ?_, same, tidy⟩, nofun⟩
    rw [read, ReadResult.bytes, append_assoc, take_append_drop]
  · have none : reader.pendingData = [] := not_not.mp pending
    obtain ⟨buffer, pendingData, segments⟩ := reader
    obtain rfl : pendingData = [] := none
    exact follows_readLoop sound (Nat.pos_of_ne_zero zero) follows

/-! ### Whole streams -/

/-- A call at the writing end. -/
inductive WriterCall where
  | write (p : List UInt8)
  | flush
  deriving DecidableEq, Repr

/-- What a call hands over. -/
def WriterCall.data : WriterCall → List UInt8
  | write p => p
  | flush => []

/-- A call at the writing end, and what it puts on the wire. -/
def send {Rng : Type} (uint32 : Rng → UInt32 × Rng) (codec : Codec) (writer : BitBuffer × Rng) :
    WriterCall → (BitBuffer × Rng) × List UInt8
  | .write p =>
    let sent := write uint32 codec writer.1 writer.2 p
    ((sent.1, sent.2.1), sent.2.2)
  | .flush =>
    let sent := flush uint32 codec writer.1 writer.2
    ((sent.1, sent.2.1), sent.2.2)

/-- A call of `Read`, and what it returns. -/
def receive (codec : Codec) (reader : PackedReader) (size : Nat) :
    PackedReader × List ReadResult :=
  ((reader.read codec size).1, [(reader.read codec size).2])

theorem run_send (uint32 : Rng → UInt32 × Rng) (sound : codec.Sound) (calls : List WriterCall)
    (rng : Rng) : run (unpack codec) ⟨0, 0⟩
        (run (send uint32 codec) (⟨0, 0⟩, rng) calls).2 =
      (⟨0, 0⟩, calls.flatMap WriterCall.data) := by
  have call (rng : Rng) (call : WriterCall) :
      (send uint32 codec (⟨0, 0⟩, rng) call).1.1 = ⟨0, 0⟩ ∧
        run (unpack codec) ⟨0, 0⟩ (send uint32 codec (⟨0, 0⟩, rng) call).2 =
          (⟨0, 0⟩, call.data) := by
    cases call with
    | write p => exact write_sends uint32 sound rng p
    | flush => exact flush_sends uint32 sound rng
  induction calls generalizing rng with
  | nil => rfl
  | cons first calls ih =>
    obtain ⟨buffer, read⟩ := call rng first
    rw [run_cons]
    generalize send uint32 codec (⟨0, 0⟩, rng) first = sent at buffer read ⊢
    obtain ⟨⟨_, rng⟩, wire⟩ := sent
    obtain rfl : _ = (⟨0, 0⟩ : BitBuffer) := buffer
    rw [run_append, read, ih]
    rfl

theorem Follows.run_receive (sound : codec.Sound)
    (follows : Follows codec delivered returned reader) (sizes : List Nat) : Follows codec delivered
        (returned ++ (Transducer.run (receive codec) reader sizes).2.flatMap ReadResult.bytes)
        (Transducer.run (receive codec) reader sizes).1 ∧
      .mapMiss ∉ (run (receive codec) reader sizes).2 := by
  induction sizes generalizing reader returned with
  | nil => exact ⟨by rwa [run_nil, flatMap_nil, append_nil], nofun⟩
  | cons size sizes ih =>
    obtain ⟨next, hit⟩ := follows.read sound size
    obtain ⟨later, hits⟩ := ih next
    refine ⟨?_, not_mem_cons_of_ne_of_not_mem hit.symm hits⟩
    show Follows codec delivered (returned ++ (_ ++ _)) _
    rwa [← append_assoc]

/-- Before the first read. -/
theorem Follows.start (ends : RawSegment.EndsAtEof segments) :
    Follows codec (bytesOf segments) [] { segments } :=
  ⟨ends, [], rfl, rfl, fun _ => rfl, Nat.one_pos⟩

theorem Follows.isPrefix (follows : Follows codec delivered returned reader) :
    returned <+: (run (unpack codec) ⟨0, 0⟩ delivered).2 := by
  obtain ⟨-, taken, whole, read, -⟩ := follows
  have part : (run (unpack codec) ⟨0, 0⟩ taken).2 <+: _ :=
    output_isPrefix _ ⟨_, whole⟩
  rw [read] at part
  exact (prefix_append _ _).trans part

/-- All bytes of the wire have been decoded once none is left below. -/
theorem Follows.consumed (follows : Follows codec delivered returned reader)
    (none : bytesOf reader.segments = []) :
    returned ++ reader.pendingData = (run (unpack codec) ⟨0, 0⟩ delivered).2 := by
  obtain ⟨-, taken, whole, read, -⟩ := follows
  rw [none, append_nil] at whole
  rw [← read, whole]

/-! ### Enough reads -/

theorem weight_readLoop_le (codec : Codec) (size : Nat) (buffer : BitBuffer)
    (pending : List UInt8) (segments : List RawSegment) :
    weight (readLoop codec size buffer pending segments).1.segments ≤ weight segments - 1 := by
  have less (segment : RawSegment) (rest : List RawSegment) :=
    Nat.le_sub_one_of_lt (segment.weight_advance_lt (packedReadSize_pos size) rest)
  fun_induction readLoop codec size buffer pending segments with
  | case1 => exact Nat.zero_le _
  | case2 | case3 | case4 | case5 | case6 => exact less _ _
  | case7 buffer pending segment rest limit left decoded chunk noError nothing
      ih =>
    exact ih.trans ((Nat.sub_le _ _).trans (less _ _))

/-- A call of `Read` with a buffer takes bytes from below or returns some, until nothing is left
to do. -/
theorem read_progress (codec : Codec) (reader : PackedReader) (positive : 0 < size) :
    (reader.segments = [] ∧ reader.pendingData = []) ∧ (reader.read codec size).1 = reader ∨
      weight (reader.read codec size).1.segments + 1 ≤
        weight reader.segments + (reader.read codec size).2.bytes.length := by
  unfold PackedReader.read
  rw [if_neg positive.ne']
  by_cases pending : reader.pendingData ≠ []
  · right
    rw [if_pos pending]
    have some := length_pos_iff.mpr pending
    show _ + 1 ≤ _ + (reader.pendingData.take size).length
    rw [length_take]
    exact Nat.add_le_add_left (Nat.le_min.mpr ⟨positive, some⟩) _
  · rw [if_neg pending]
    cases left : reader.segments with
    | nil =>
      left
      rw [readLoop, ← left]
      exact ⟨⟨rfl, not_not.mp pending⟩, rfl⟩
    | cons segment rest =>
      right
      have shorter := weight_readLoop_le codec size reader.buffer reader.pendingData
        (segment :: rest)
      have some : 0 < weight (segment :: rest) := Nat.lt_of_lt_of_le
        (Nat.succ_pos segment.bytes.length) (Nat.le_add_right _ _)
      omega

/-- Reads that are enough for all that is left below and all that has not been returned. -/
theorem Follows.run_receive_all (sound : codec.Sound) {data : List UInt8}
    (read : (run (unpack codec) ⟨0, 0⟩ delivered).2 = data)
    (follows : Follows codec delivered returned reader) {sizes : List Nat}
    (positive : ∀ size ∈ sizes, 0 < size)
    (enough : RawSegment.weight reader.segments + data.length ≤ sizes.length + returned.length) :
    returned ++ (Transducer.run (receive codec) reader sizes).2.flatMap ReadResult.bytes =
      data := by
  have finished {returned : List UInt8} {reader : PackedReader}
      (follows : Follows codec delivered returned reader)
      (none : weight reader.segments + data.length ≤ returned.length) :
      returned = data := by
    have part := follows.isPrefix
    rw [read] at part
    exact part.eq_of_length (by have := part.length_le; omega)
  induction sizes generalizing reader returned with
  | nil =>
    rw [run_nil, flatMap_nil, append_nil]
    exact finished follows (by simpa using enough)
  | cons size sizes ih =>
    obtain ⟨next, -⟩ := follows.read sound size
    show returned ++ ((reader.read codec size).2.bytes ++ _) = data
    rw [← append_assoc]
    refine ih next (fun size member => positive size (.tail _ member)) ?_
    rcases read_progress codec reader (positive size (.head _)) with ⟨⟨below, pending⟩, same⟩ | less
    · have all := next.consumed (by rw [same, below]; rfl)
      rw [same, pending, append_nil, read] at all
      show weight (reader.read codec size).1.segments + _ ≤ _
      rw [all, same, below]
      exact Nat.add_le_add_right (Nat.zero_le _) _
    · show weight (reader.read codec size).1.segments + _ ≤ _
      rw [length_cons] at enough
      rw [length_append]
      omega

/-- Packed streams round trip. Whatever the generators draw at both ends, for every sequence of
calls at the writing end, every segmentation of what it puts on the wire and every sequence of
reads: what the reads return is the front of what was written, and none of them fails to decode.
Once all bytes of the wire are taken from below, the rest of it is pending, and reads with
buffers return it all. -/
theorem packed_round_trip {Rng : Type} (uint32 : Rng → UInt32 × Rng) {lower : Char → Char}
    {mode customPattern : List Char} {layout : ByteLayout}
    (resolved : resolveLayout lower mode customPattern = .ok layout)
    (writerRng readerRng : Rng) (writerMin writerMax readerMin readerMax : Int)
    (calls : List WriterCall) (segments : List RawSegment)
    (ends : RawSegment.EndsAtEof segments) (sizes : List Nat) :
    let writer := newPackedConn uint32 layout writerRng writerMin writerMax
    let wire := (Transducer.run (send uint32 writer.1) ({}, writer.2) calls).2
    let written := calls.flatMap WriterCall.data
    let codec := (newPackedConn uint32 layout readerRng readerMin readerMax).1
    let reads := Transducer.run (receive codec) { segments := segments } sizes
    let returned := reads.2.flatMap ReadResult.bytes
    (RawSegment.bytesOf segments <+: wire → returned <+: written ∧ .mapMiss ∉ reads.2) ∧
      (RawSegment.bytesOf segments = wire →
        (RawSegment.bytesOf reads.1.segments = [] → returned ++ reads.1.pendingData = written) ∧
        ((∀ size ∈ sizes, 0 < size) →
          RawSegment.weight segments + written.length ≤ sizes.length → returned = written)) := by
  intro writer wire written codec reads returned
  have layoutSound := resolveLayout_sound resolved
  have sound : codec.Sound := newPackedConn_sound uint32 layoutSound readerRng _ _
  have sent : run (unpack codec) ⟨0, 0⟩ wire = (⟨0, 0⟩, written) := by
    have same : unpack codec = unpack writer.1 := by
      rw [unpack_newPackedConn, unpack_newPackedConn]
    rw [same]
    exact run_send uint32 (newPackedConn_sound uint32 layoutSound writerRng _ _) calls writer.2
  have start : Follows codec (bytesOf segments) [] { segments := segments } :=
    Follows.start ends
  obtain ⟨follows, hits⟩ := start.run_receive sound sizes
  refine ⟨fun part => ⟨?_, hits⟩, fun whole => ⟨fun none => ?_, fun positive enough => ?_⟩⟩
  · have front := follows.isPrefix.trans (output_isPrefix _ part)
    rwa [sent] at front
  · have all := follows.consumed none
    rwa [whole, sent] at all
  · exact start.run_receive_all sound (by rw [whole, sent]) positive enough

/-- A generator that counts. -/
def counter (state : Nat) : UInt32 × Nat := (UInt32.ofNat (state * 0x9E3779B9), state + 1)

/-- What two calls put on the wire. -/
def counterWire : List UInt8 :=
  (Transducer.run (send counter (newPackedConn counter newASCIILayout 1 20 80).1)
    ({}, (newPackedConn counter newASCIILayout 1 20 80).2) [.write [1, 2, 3, 4], .flush]).2

theorem packed_round_trip_counter :
    (Transducer.run (receive (newPackedConn counter newASCIILayout 7 0 50).1)
      { segments := [⟨counterWire, some .eof⟩] }
      (List.replicate (counterWire.length + 5) 3)).2.flatMap ReadResult.bytes = [1, 2, 3, 4] := by
  have resolved : resolveLayout id "ascii".toList [] = .ok newASCIILayout := by
    unfold resolveLayout
    exact if_pos (.inl (by decide))
  have ends : RawSegment.EndsAtEof [⟨counterWire, some .eof⟩] := by
    intro before segment after split _
    have short : before.length + (after.length + 1) = 1 := by
      rw [← length_cons, ← length_append, ← split]
      rfl
    rw [length_eq_zero_iff.mp (by omega : after.length = 0)]
    rfl
  refine ((packed_round_trip counter resolved 1 7 20 80 0 50 [.write [1, 2, 3, 4], .flush] _ ends
    _).2 (append_nil _)).2 (fun size member => ?_) ?_
  · rw [eq_of_mem_replicate member]
    decide
  · rw [length_replicate]
    generalize counterWire = wire
    exact Nat.le_refl _

end Sudoku

end SingBox
