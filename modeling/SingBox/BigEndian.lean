/-
This file is about numbers of a fixed width in bytes, the most significant byte
first.
-/

import Mathlib.Data.List.Basic
import Mathlib.Tactic.Ring

namespace BigEndian

/-- The lowest bytes of a number, the most significant first. -/
def put : Nat → Nat → List UInt8
  | 0, _ => []
  | width + 1, value => UInt8.ofNat (value / 256 ^ width) :: put width value

/-- The number that bytes stand for. -/
def get (bytes : List UInt8) : Nat := bytes.foldl (fun value byte => value * 256 + byte.toNat) 0

@[simp]
theorem length_put (width value : Nat) : (put width value).length = width := by
  induction width with
  | zero => rfl
  | succ width ih => rw [put, List.length_cons, ih]

theorem foldl_put (width value start : Nat) :
    (put width value).foldl (fun value byte => value * 256 + byte.toNat) start =
      start * 256 ^ width + value % 256 ^ width := by
  induction width generalizing start with
  | zero => rw [put, List.foldl_nil, Nat.pow_zero, Nat.mod_one, Nat.mul_one, Nat.add_zero]
  | succ width ih =>
    have split : value % 256 ^ (width + 1) =
        256 ^ width * (value / 256 ^ width % 256) + value % 256 ^ width := by
      rw [Nat.pow_succ, Nat.mod_mul, Nat.add_comm]
    rw [put, List.foldl_cons, ih, split, UInt8.toNat_ofNat']
    ring

theorem get_put {width value : Nat} (fits : value < 256 ^ width) :
    get (put width value) = value := by
  rw [get, foldl_put, Nat.zero_mul, Nat.zero_add, Nat.mod_eq_of_lt fits]

theorem put_inj {width first second : Nat} (firstFits : first < 256 ^ width)
    (secondFits : second < 256 ^ width) (same : put width first = put width second) :
    first = second := by
  rw [← get_put firstFits, same, get_put secondFits]

end BigEndian
