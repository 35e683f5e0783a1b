/-
This file is the text of the standard library's `netip.Addr` and `netip.Prefix`.
An IPv6 address is written in groups of four hexadecimal digits, and its longest run
of zero groups as two colons. The groups before and after the colons tell how many
were left out, so the text of an address can be read back.
-/

import SingBox.Netip
import SingBox.Text
import Mathlib

namespace SingBox

open List Text

def ascii (text : String) : List UInt8 := text.toList.map Char.toUInt8

def dot : UInt8 := 46

def slash : UInt8 := 47

def colon : UInt8 := 58

namespace Addr

/-- `netip.Addr.v6u16`. -/
def group (bits : BitVec 128) (index : Nat) : Nat := bits.toNat / 65536 ^ (7 - index) % 65536

def groups (bits : BitVec 128) : List Nat := (List.range 8).map (group bits)

def octets (bits : BitVec 32) : List Nat :=
  (List.range 4).map fun index => bits.toNat / 256 ^ (3 - index) % 256

/-- `netip.Addr.Is4In6` of an IPv6 address. -/
def is4In6 (bits : BitVec 128) : Prop := bits.extractLsb' 32 96 = 0xffff

instance (bits : BitVec 128) : Decidable (is4In6 bits) := inferInstanceAs (Decidable (_ = _))

/-- `netip.Addr.string4`. -/
def string4 (bits : BitVec 32) : List UInt8 :=
  Text.join dot ((octets bits).map (Text.formatUint 10))

/-- The first loop of `appendTo6`: the longest run of zero groups, its start and its end. -/
def zeroRun (groups : List Nat) : Nat × Nat :=
  (List.range 8).foldl (fun run i =>
    let j := i + ((groups.drop i).takeWhile (· = 0)).length
    if 2 ≤ j - i ∧ run.2 - run.1 < j - i then (i, j) else run) (255, 255)

/-- The second loop of `appendTo6`, from the given group on. -/
def append6 (groups : List Nat) (zeroStart zeroEnd : Nat) : Nat → Nat → List UInt8
  | 0, _ => []
  | rounds + 1, i =>
    if 8 ≤ i then []
    else if i = zeroStart then
      colon :: colon :: if 8 ≤ zeroEnd then []
        else Text.formatUint 16 (groups.getD zeroEnd 0) ++
          append6 groups zeroStart zeroEnd rounds (zeroEnd + 1)
    else
      (if 0 < i then [colon] else []) ++ Text.formatUint 16 (groups.getD i 0) ++
        append6 groups zeroStart zeroEnd rounds (i + 1)

/-- `netip.Addr.string6`. -/
def string6 (groups : List Nat) : List UInt8 :=
  append6 groups (zeroRun groups).1 (zeroRun groups).2 8 0

/-- `netip.Addr.String`. -/
def string : Addr → List UInt8
  | invalid => ascii "invalid IP"
  | v4 bits => string4 bits
  | v6 bits =>
    if is4In6 bits then ascii "::ffff:" ++ string4 (bits.extractLsb' 0 32)
    else string6 (groups bits)

end Addr

/-- `netip.Prefix.String`. -/
def Prefix.string (range : Prefix) : List UInt8 :=
  if range.isValid then
    range.addr.string ++ slash :: Text.formatUint 10 (range.bitsPlusOne - 1)
  else ascii "invalid Prefix"

/-! ### Groups -/

variable {byte : UInt8}

namespace Addr

/-- Numbers with the same digits are the same, as far as the digits go. -/
theorem mod_pow_congr {base first second : Nat} (width : Nat)
    (same : ∀ index < width, first / base ^ index % base = second / base ^ index % base) :
    first % base ^ width = second % base ^ width := by
  induction width with
  | zero => rw [Nat.pow_zero, Nat.mod_one, Nat.mod_one]
  | succ width ih =>
    rw [Nat.mod_pow_succ, Nat.mod_pow_succ, same width (Nat.lt_succ_self _),
      ih fun index below => same index (Nat.lt_succ_of_lt below)]

variable {first : BitVec 128} {run : Nat × Nat} {field : List UInt8}

theorem groups_inj {second : BitVec 128} (same : groups first = groups second) :
    first = second := by
  have digits : ∀ index < 8,
      first.toNat / 65536 ^ index % 65536 = second.toNat / 65536 ^ index % 65536 := by
    intro index below
    have equal := map_inj_left.mp same (7 - index) (mem_range.mpr (by omega))
    rw [group, group, Nat.sub_sub_self (by omega)] at equal
    exact equal
  have number : first.toNat % 2 ^ 128 = second.toNat % 2 ^ 128 := mod_pow_congr 8 digits
  rw [Nat.mod_eq_of_lt first.isLt, Nat.mod_eq_of_lt second.isLt] at number
  exact BitVec.eq_of_toNat_eq number

theorem octets_inj {first second : BitVec 32} (same : octets first = octets second) :
    first = second := by
  have digits : ∀ index < 4,
      first.toNat / 256 ^ index % 256 = second.toNat / 256 ^ index % 256 := by
    intro index below
    have equal := map_inj_left.mp same (3 - index) (mem_range.mpr (by omega))
    rw [Nat.sub_sub_self (by omega)] at equal
    exact equal
  have number : first.toNat % 2 ^ 32 = second.toNat % 2 ^ 32 := mod_pow_congr 4 digits
  rw [Nat.mod_eq_of_lt first.isLt, Nat.mod_eq_of_lt second.isLt] at number
  exact BitVec.eq_of_toNat_eq number

/-- A separator is not a digit. -/
theorem not_mem_formatUint {base : Nat} (positive : 1 < base) (small : base ≤ 36) (number : Nat)
    {separator : UInt8} (apart : ¬ Text.IsDigit separator) :
    separator ∉ formatUint base number := fun member =>
  apart (isDigit_of_mem positive small member)

theorem string4_inj {first second : BitVec 32} (same : string4 first = string4 second) :
    first = second := by
  have absent : ∀ bits, ∀ field ∈ (octets bits).map (formatUint 10), dot ∉ field := by
    intro bits field member
    obtain ⟨octet, -, rfl⟩ := mem_map.mp member
    exact not_mem_formatUint (by decide) (by decide) _ (by decide)
  have fields := join_inj (absent first) (absent second) (cons_ne_nil _ _) (cons_ne_nil _ _) same
  exact octets_inj (map_injective_iff.mpr
    (fun _ _ equal => formatUint_inj (by decide) (by decide) equal) fields)

/-! ### IPv6 texts -/

/-- A run that `appendTo6` may leave out: none, or some zero groups. -/
def Run (groups : List Nat) (run : Nat × Nat) : Prop :=
  run = (255, 255) ∨
    (run.1 < run.2 ∧ run.2 ≤ 8 ∧ ∀ index, run.1 ≤ index → index < run.2 → groups.getD index 0 = 0)

theorem run_zeroRun {groups : List Nat} (length : groups.length = 8) :
    Run groups (zeroRun groups) := by
  have each : ∀ (indices : List Nat) (run : Nat × Nat), Run groups run →
      Run groups (indices.foldl (fun run i =>
        let j := i + ((groups.drop i).takeWhile (· = 0)).length
        if 2 ≤ j - i ∧ run.2 - run.1 < j - i then (i, j) else run) run) := by
    intro indices
    induction indices with
    | nil => exact fun run holds => holds
    | cons i rest ih =>
      intro run holds
      refine ih _ ?_
      dsimp only
      split_ifs with longer
      · have short := (takeWhile_sublist (p := (· = 0)) (l := groups.drop i)).length_le
        rw [length_drop, length] at short
        refine .inr ⟨by omega, by omega, fun index low high => ?_⟩
        have zero := mem_takeWhile_imp (getElem_mem
          (show index - i < ((groups.drop i).takeWhile (· = 0)).length by omega))
        rw [decide_eq_true_eq, List.IsPrefix.getElem <| takeWhile_prefix _] at zero
        rw [getElem_drop] at zero
        rw [getD_eq_getElem _ _ (by omega), ← zero]
        congr 1
        omega
      · exact holds
  exact each (List.range 8) (255, 255) (.inl rfl)

def fields (groups : List Nat) (run : Nat × Nat) : List (List UInt8) :=
  let texts := groups.map (Text.formatUint 16)
  if 8 ≤ run.1 then texts
  else (if run.1 = 0 then [[]] else texts.take run.1) ++ [] ::
    if run.2 = 8 then [[]] else texts.drop run.2

theorem append6_eq {groups : List Nat} (length : groups.length = 8) (holds : Run groups run) :
    append6 groups run.1 run.2 8 0 = join colon (fields groups run) := by
  obtain ⟨a, b, c, d, e, f, g, h, rfl⟩ : ∃ a b c d e f g h, groups = [a, b, c, d, e, f, g, h] := by
    match groups, length with
    | [a, b, c, d, e, f, g, h], _ => exact ⟨a, b, c, d, e, f, g, h, rfl⟩
  obtain ⟨start, stop⟩ := run
  rcases holds with none | ⟨before, inside, -⟩
  · cases none
    simp [append6, fields, join, List.intercalate]
  · interval_cases stop <;> interval_cases start <;>
      simp [append6, fields, join, List.intercalate]

/-- The texts of the groups, with those that were left out. -/
def expand (fields : List (List UInt8)) : List (List UInt8) :=
  let front := fields.takeWhile (· ≠ [])
  let back := (fields.reverse.takeWhile (· ≠ [])).reverse
  if front.length = 8 then front
  else front ++ List.replicate (8 - front.length - back.length) (Text.formatUint 16 0) ++ back

/-- The fields before an empty one. -/
theorem takeWhile_fields {front : List (List UInt8)} (some : ∀ field ∈ front, field ≠ [])
    (rest : List (List UInt8)) :
    ((if front = [] then [[]] else front) ++ [] :: rest).takeWhile (· ≠ []) = front := by
  split_ifs with empty
  · rw [empty]
    rfl
  · rw [takeWhile_append_of_pos fun field member => decide_eq_true (some field member)]
    exact append_nil _

/-- A list of eight texts, with the equal ones between two places left out and put back. -/
theorem replicate_between {texts : List (List UInt8)} {start stop : Nat} {text : List UInt8}
    (before : start < stop) (inside : stop ≤ texts.length)
    (equal : ∀ index, start ≤ index → index < stop → texts.getD index [] = text) :
    texts.take start ++ List.replicate (stop - start) text ++ texts.drop stop = texts := by
  have middle : (texts.drop start).take (stop - start) = List.replicate (stop - start) text := by
    rw [eq_replicate_iff, length_take, length_drop]
    refine ⟨by omega, fun other member => ?_⟩
    obtain ⟨index, below, rfl⟩ := mem_iff_getElem.mp member
    rw [length_take, length_drop] at below
    rw [getElem_take, getElem_drop,
      ← equal (start + index) (by omega) (by omega), getD_eq_getElem _ _ (by omega)]
  rw [← middle, append_assoc]
  have back : texts.drop stop = (texts.drop start).drop (stop - start) := by
    rw [drop_drop]
    congr 1
    omega
  rw [back, take_append_drop, take_append_drop]

theorem expand_fields {groups : List Nat} (length : groups.length = 8) (holds : Run groups run) :
    expand (fields groups run) = groups.map (formatUint 16) := by
  have some : ∀ field ∈ groups.map (formatUint 16), field ≠ [] := by
    intro field member
    obtain ⟨number, -, rfl⟩ := mem_map.mp member
    exact formatUint_ne_nil 16 number
  rw [← length_map (formatUint 16)] at length
  have texts : ∀ index, index < 8 → groups.getD index 0 = 0 →
      (groups.map (formatUint 16)).getD index [] = formatUint 16 0 := by
    intro index below zero
    rw [length_map] at length
    rw [getD_eq_getElem _ _ (by omega)] at zero
    rw [getD_eq_getElem _ _ (by rw [length_map]; omega), getElem_map, zero]
  obtain ⟨start, stop⟩ := run
  rw [fields, expand]
  generalize groups.map (formatUint 16) = words at *
  rcases holds with none | ⟨before, inside, zero⟩
  · cases none
    have whole : words.takeWhile (· ≠ []) = words :=
      takeWhile_eq_self_iff.mpr fun field member => decide_eq_true (some field member)
    rw [if_pos (show 8 ≤ 255 by decide), whole, if_pos length]
  · have front : ((if start = 0 then [[]] else words.take start) ++ [] ::
        if stop = 8 then [[]] else words.drop stop).takeWhile (· ≠ []) = words.take start := by
      have cut : start = 0 ↔ words.take start = [] := by
        rw [take_eq_nil_iff, ← length_eq_zero_iff]
        omega
      rw [if_congr cut rfl rfl]
      exact takeWhile_fields (fun field member => some field (mem_of_mem_take member)) _
    have back : (((if start = 0 then [[]] else words.take start) ++ [] ::
        if stop = 8 then [[]] else words.drop stop).reverse.takeWhile (· ≠ [])).reverse =
          words.drop stop := by
      have cut : stop = 8 ↔ (words.drop stop).reverse = [] := by
        rw [reverse_eq_nil_iff, drop_eq_nil_iff]
        omega
      have turned : (if stop = 8 then [[]] else words.drop stop).reverse =
          if (words.drop stop).reverse = [] then [[]] else (words.drop stop).reverse := by
        rw [if_congr cut rfl rfl]
        split_ifs <;> rfl
      rw [reverse_append, reverse_cons, turned, append_assoc, singleton_append,
        takeWhile_fields (fun field member => some field
          (mem_of_mem_drop (mem_reverse.mp member))), reverse_reverse]
    rw [if_neg (show ¬ 8 ≤ start by omega), front, back, length_take, length_drop, length,
      Nat.min_eq_left (by omega), if_neg (by omega),
      show 8 - start - (8 - stop) = stop - start by omega]
    exact replicate_between before (by omega) fun index low high =>
      texts index (by omega) (zero index low high)

theorem mem_fields {groups : List Nat} (member : field ∈ fields groups run) :
    field = [] ∨ ∃ number, field = formatUint 16 number := by
  have texts : ∀ field ∈ groups.map (formatUint 16), ∃ number, field = formatUint 16 number := by
    intro field member
    obtain ⟨number, -, rfl⟩ := mem_map.mp member
    exact ⟨number, rfl⟩
  have part {empty : Prop} [Decidable empty] {some : List (List UInt8)}
      (inside : some ⊆ groups.map (formatUint 16)) (member : field ∈ if empty then [[]] else some) :
      field = [] ∨ ∃ number, field = formatUint 16 number := by
    split_ifs at member
    · exact .inl (mem_singleton.mp member)
    · exact .inr (texts field (inside member))
  rw [fields] at member
  by_cases whole : 8 ≤ run.1
  · rw [if_pos whole] at member
    exact .inr (texts field member)
  · rw [if_neg whole] at member
    rcases mem_append.mp member with inFront | later
    · exact part (take_subset _ _) inFront
    · rcases mem_cons.mp later with empty | inBack
      · exact .inl empty
      · exact part (drop_subset _ _) inBack

theorem colon_not_mem_fields {groups : List Nat} (member : field ∈ fields groups run) :
    colon ∉ field := by
  rcases mem_fields member with rfl | ⟨number, rfl⟩
  · exact not_mem_nil
  · exact not_mem_formatUint (by decide) (by decide) _ (by decide)

theorem two_le_length_fields {groups : List Nat} (length : groups.length = 8) (run : Nat × Nat) :
    2 ≤ (fields groups run).length := by
  rw [fields]
  by_cases whole : 8 ≤ run.1
  · rw [if_pos whole, length_map, length]
    decide
  · rw [if_neg whole, length_append, length_cons]
    have front : 1 ≤ (if run.1 = 0 then [[]]
        else (groups.map (formatUint 16)).take run.1).length := by
      split_ifs with zero
      · exact le_rfl
      · rw [length_take, length_map, length]
        omega
    omega

theorem fields_ne_nil {groups : List Nat} (length : groups.length = 8) (run : Nat × Nat) :
    fields groups run ≠ [] := by
  intro empty
  have several := two_le_length_fields length run
  rw [empty] at several
  cases several

theorem string6_inj {second : BitVec 128}
    (same : string6 (groups first) = string6 (groups second)) : first = second := by
  have length : ∀ bits, (groups bits).length = 8 := fun bits => rfl
  rw [string6, string6, append6_eq (length first) (run_zeroRun (length first)),
    append6_eq (length second) (run_zeroRun (length second))] at same
  have equal := join_inj (fun _ => colon_not_mem_fields) (fun _ => colon_not_mem_fields)
    (fields_ne_nil (length first) _) (fields_ne_nil (length second) _) same
  have texts := congrArg expand equal
  rw [expand_fields (length first) (run_zeroRun (length first)),
    expand_fields (length second) (run_zeroRun (length second))] at texts
  exact groups_inj (map_injective_iff.mpr
    (fun _ _ equal => formatUint_inj (by decide) (by decide) equal) texts)

/-! ### Texts of addresses and prefixes -/

/-- The bytes of an IPv4 text. -/
theorem mem_string4 {bits : BitVec 32} (member : byte ∈ string4 bits) :
    Text.IsDigit byte ∨ byte = dot := by
  rcases mem_join member with same | ⟨field, found, inField⟩
  · exact .inr same
  · obtain ⟨octet, -, rfl⟩ := mem_map.mp found
    exact .inl (isDigit_of_mem (by decide) (by decide) inField)

/-- The bytes of an IPv6 text. -/
theorem mem_string6 {bits : BitVec 128} (member : byte ∈ string6 (groups bits)) :
    Text.IsDigit byte ∨ byte = colon := by
  have length : (groups bits).length = 8 := rfl
  rw [string6, append6_eq length (run_zeroRun length)] at member
  rcases mem_join member with same | ⟨field, found, inField⟩
  · exact .inr same
  · rcases mem_fields found with rfl | ⟨number, rfl⟩
    · cases inField
    · exact .inl (isDigit_of_mem (by decide) (by decide) inField)

theorem dot_mem_string4 (bits : BitVec 32) : dot ∈ string4 bits :=
  separator_mem_join (by rw [length_map, octets, length_map]; decide)

theorem colon_mem_string6 (bits : BitVec 128) : colon ∈ string6 (groups bits) := by
  have length : (groups bits).length = 8 := rfl
  rw [string6, append6_eq length (run_zeroRun length)]
  exact separator_mem_join (two_le_length_fields length _)

/-- Whether the text of an address has dots. -/
def isDotted : Addr → Bool
  | invalid => false
  | v4 _ => true
  | v6 bits => is4In6 bits

/-- The two separators of a text tell its kind. -/
theorem separators (address : Addr) :
    (dot ∈ address.string ↔ address.isDotted = true) ∧
      (colon ∈ address.string ↔ address.is6 = true) := by
  cases address with
  | invalid => decide +kernel
  | v4 bits =>
    have noColon : colon ∉ string4 bits := fun member => by
      rcases mem_string4 member with digit | same
      · exact absurd digit (by decide)
      · exact absurd same (by decide)
    exact ⟨⟨fun _ => rfl, fun _ => dot_mem_string4 bits⟩, fun member => absurd member noColon, nofun⟩
  | v6 bits =>
    rw [string, isDotted, is6]
    split_ifs with mapped
    · exact ⟨⟨fun _ => decide_eq_true mapped, fun _ =>
        mem_append_right _ (dot_mem_string4 _)⟩,
        fun _ => rfl, fun _ => mem_append_left _ (by decide +kernel)⟩
    · have noDot : dot ∉ string6 (groups bits) := fun member => by
        rcases mem_string6 member with digit | same
        · exact absurd digit (by decide)
        · exact absurd same (by decide)
      exact ⟨⟨fun member => absurd member noDot, fun dotted =>
        absurd (of_decide_eq_true dotted) mapped⟩, fun _ => rfl, fun _ => colon_mem_string6 bits⟩

theorem extract_inj {second : BitVec 128} (firstMapped : is4In6 first)
    (secondMapped : is4In6 second) (same : first.extractLsb' 0 32 = second.extractLsb' 0 32) :
    first = second := by
  have high := congrArg BitVec.toNat (firstMapped.trans secondMapped.symm)
  have low := congrArg BitVec.toNat same
  simp only [BitVec.extractLsb'_toNat, Nat.shiftRight_eq_div_pow] at high low
  refine BitVec.eq_of_toNat_eq ?_
  omega

theorem string_inj {first second : Addr} (same : first.string = second.string) :
    first = second := by
  have dotted : first.isDotted = second.isDotted := by
    rw [Bool.eq_iff_iff, ← (separators first).1, ← (separators second).1, same]
  have wide : first.is6 = second.is6 := by
    rw [Bool.eq_iff_iff, ← (separators first).2, ← (separators second).2, same]
  match first, second with
  | invalid, invalid => rfl
  | invalid, v4 _ => cases dotted
  | invalid, v6 _ => cases wide
  | v4 _, invalid => cases dotted
  | v4 _, v4 _ => exact congrArg v4 (string4_inj same)
  | v4 _, v6 _ | v6 _, invalid | v6 _, v4 _ => cases wide
  | v6 one, v6 two =>
    have kind : is4In6 one ↔ is4In6 two := decide_eq_decide.mp dotted
    rw [string, string] at same
    by_cases mapped : is4In6 one
    · rw [if_pos mapped, if_pos (kind.mp mapped)] at same
      exact congrArg v6 (extract_inj mapped (kind.mp mapped)
        (string4_inj (append_cancel_left same)))
    · rw [if_neg mapped, if_neg fun other => mapped (kind.mpr other)] at same
      exact congrArg v6 (string6_inj same)

/-- The bytes of the text of an address are above the control characters, and no slash. -/
theorem mem_string {address : Addr} (member : byte ∈ address.string) :
    32 ≤ byte ∧ byte ≠ slash := by
  have digits : ∀ byte, Text.IsDigit byte → 32 ≤ byte ∧ byte ≠ slash := by
    intro byte digit
    refine ⟨?_, fun same => absurd (same ▸ digit) (by decide)⟩
    rcases digit with ⟨low, -⟩ | ⟨low, -⟩
    · exact UInt8.le_trans (by decide) low
    · exact UInt8.le_trans (by decide) low
  have texts : (∀ byte ∈ ascii "invalid IP", 32 ≤ byte ∧ byte ≠ slash) ∧
      ∀ byte ∈ ascii "::ffff:", 32 ≤ byte ∧ byte ≠ slash := by decide +kernel
  have quad : ∀ {bits}, byte ∈ string4 bits → 32 ≤ byte ∧ byte ≠ slash := by
    intro bits found
    rcases mem_string4 found with digit | rfl
    · exact digits byte digit
    · decide
  cases address with
  | invalid => exact texts.1 byte member
  | v4 bits => exact quad member
  | v6 bits =>
    rw [string] at member
    split_ifs at member with mapped
    · rcases mem_append.mp member with front | back
      · exact texts.2 byte front
      · exact quad back
    · rcases mem_string6 member with digit | rfl
      · exact digits byte digit
      · decide

end Addr

/-- Valid prefixes with the same text are the same. -/
theorem Prefix.string_inj {first second : Prefix} (firstValid : first.isValid = true)
    (secondValid : second.isValid = true) (same : first.string = second.string) :
    first = second := by
  rw [Prefix.string, Prefix.string, if_pos firstValid, if_pos secondValid] at same
  have front := congrArg (List.takeWhile (· ≠ slash)) same
  rw [takeWhile_append fun member => (Addr.mem_string member).2 rfl,
    takeWhile_append fun member => (Addr.mem_string member).2 rfl] at front
  rw [front, append_cancel_left_eq, List.cons.injEq] at same
  have bits := formatUint_inj (by decide) (by decide) same.2
  have firstPositive : first.bitsPlusOne > 0 := of_decide_eq_true firstValid
  have secondPositive : second.bitsPlusOne > 0 := of_decide_eq_true secondValid
  have address := Addr.string_inj front
  obtain ⟨addr, bitsPlusOne⟩ := first
  obtain ⟨other, length⟩ := second
  obtain rfl : addr = other := address
  dsimp only at bits firstPositive secondPositive
  have equal : bitsPlusOne = length := by omega
  rw [equal]

/-- The text of a prefix has no control characters. -/
theorem Prefix.mem_string {range : Prefix} (valid : range.isValid = true)
    (member : byte ∈ range.string) : 32 ≤ byte := by
  rw [Prefix.string, if_pos valid] at member
  rcases mem_append.mp member with front | back
  · exact (Addr.mem_string front).1
  · rcases mem_cons.mp back with rfl | inBits
    · decide
    · rcases isDigit_of_mem (by decide) (by decide) inBits with ⟨low, -⟩ | ⟨low, -⟩
      · exact UInt8.le_trans (by decide) low
      · exact UInt8.le_trans (by decide) low

end SingBox
