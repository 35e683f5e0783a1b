/-
This file is about texts that stand for numbers and for lists of fields. A number is
written with its digits, the most significant first and without leading zeros, and
fields are joined by a separator that none of them contains. Either can be read back,
so different numbers and different lists have different texts.

Texts are bytes.
-/

import Mathlib

namespace Text

open List

/-- The digit for a value below 36. -/
def digit (value : Nat) : UInt8 :=
  if value < 10 then UInt8.ofNat (48 + value) else UInt8.ofNat (87 + value)

/-- The text of a number in a base of at most 36. -/
def formatUint (base number : Nat) : List UInt8 :=
  if number = 0 then [digit 0] else ((Nat.digits base number).reverse).map digit

/-- Fields with a separator between them. -/
def join (separator : UInt8) (fields : List (List UInt8)) : List UInt8 :=
  [separator].intercalate fields

/-- A byte that is a digit or a small letter. -/
def IsDigit (byte : UInt8) : Prop :=
  (48 ≤ byte ∧ byte ≤ 57) ∨ (97 ≤ byte ∧ byte ≤ 122)

instance (byte : UInt8) : Decidable (IsDigit byte) := inferInstanceAs (Decidable (_ ∨ _))

theorem isDigit_digit : ∀ value < 36, IsDigit (digit value) := by
  decide

def value (byte : UInt8) : Nat := if byte < 58 then byte.toNat - 48 else byte.toNat - 87

theorem value_digit : ∀ number < 36, value (digit number) = number := by
  decide

/-- The number that a text stands for. -/
def parseUint (base : Nat) (text : List UInt8) : Nat :=
  Nat.ofDigits base (text.reverse.map value)

variable {base : Nat}

theorem formatUint_ne_nil (base number : Nat) : formatUint base number ≠ [] := by
  rw [formatUint]
  split_ifs with zero
  · exact cons_ne_nil _ _
  · rw [Ne, map_eq_nil_iff, reverse_eq_nil_iff]
    exact Nat.digits_ne_nil_iff_ne_zero.mpr zero

section

variable (positive : 1 < base) (small : base ≤ 36)

include positive small

theorem isDigit_of_mem {number : Nat} {byte : UInt8} (member : byte ∈ formatUint base number) :
    IsDigit byte := by
  rw [formatUint] at member
  split_ifs at member with zero
  · rw [mem_singleton.mp member]
    exact isDigit_digit 0 (by decide)
  · obtain ⟨value, found, rfl⟩ := mem_map.mp member
    exact isDigit_digit value (Nat.lt_of_lt_of_le
      (Nat.digits_lt_base positive (mem_reverse.mp found)) small)

theorem parseUint_formatUint (number : Nat) : parseUint base (formatUint base number) = number := by
  rw [parseUint, formatUint]
  split_ifs with zero
  · rw [zero]
    rfl
  · have values : (Nat.digits base number).map (value ∘ digit) = Nat.digits base number := by
      refine (map_congr_left fun number member => ?_).trans (map_id _)
      exact value_digit number (Nat.lt_of_lt_of_le (Nat.digits_lt_base positive member) small)
    rw [← map_reverse, reverse_reverse, map_map, values, Nat.ofDigits_digits]

theorem formatUint_inj {first second : Nat}
    (same : formatUint base first = formatUint base second) : first = second := by
  rw [← parseUint_formatUint positive small first, same, parseUint_formatUint positive small]

end

variable {separator : UInt8} {fields : List (List UInt8)}

theorem join_inj {first second : List (List UInt8)} (inFirst : ∀ field ∈ first, separator ∉ field)
    (inSecond : ∀ field ∈ second, separator ∉ field) (firstSome : first ≠ [])
    (secondSome : second ≠ []) (same : join separator first = join separator second) :
    first = second := by
  rw [← splitOn_intercalate separator inFirst firstSome,
    ← splitOn_intercalate separator inSecond secondSome]
  exact congrArg _ same

theorem join_cons_cons (separator : UInt8) (first second : List UInt8) (rest : List (List UInt8)) :
    join separator (first :: second :: rest) =
      first ++ separator :: join separator (second :: rest) := by
  rw [join, intercalate_cons_cons, append_assoc, singleton_append]
  rfl

theorem mem_join {byte : UInt8} (member : byte ∈ join separator fields) :
    byte = separator ∨ ∃ field ∈ fields, byte ∈ field := by
  induction fields with
  | nil => cases member
  | cons first rest ih =>
    cases rest with
    | nil =>
      rw [join, intercalate_singleton] at member
      exact .inr ⟨first, mem_cons_self, member⟩
    | cons second others =>
      rw [join_cons_cons] at member
      rcases mem_append.mp member with inFirst | later
      · exact .inr ⟨first, mem_cons_self, inFirst⟩
      · rcases mem_cons.mp later with same | inRest
        · exact .inl same
        · rcases ih inRest with same | ⟨field, found, inField⟩
          · exact .inl same
          · exact .inr ⟨field, mem_cons_of_mem _ found, inField⟩

theorem separator_mem_join (several : 2 ≤ fields.length) : separator ∈ join separator fields := by
  match fields, several with
  | first :: second :: rest, _ =>
    rw [join_cons_cons]
    exact mem_append_right _ mem_cons_self

/-- What stands before the first separator. -/
theorem takeWhile_append {front : List UInt8} (absent : separator ∉ front) (rest : List UInt8) :
    (front ++ separator :: rest).takeWhile (· ≠ separator) = front := by
  rw [takeWhile_append_of_pos, takeWhile_cons_of_neg, append_nil]
  · simp
  · intro byte member
    exact decide_eq_true fun same => absent (same ▸ member)

end Text
