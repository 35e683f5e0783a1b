/-
This file is about tables that give slots to keys and take them back. Such a table
is two partial maps, from keys to slots and from slots to keys, that are inverse
to each other; the structure carries the proof, so a table that knows a slot
without knowing whose it is cannot be built.
-/

import Mathlib.Logic.Basic
import Mathlib.Data.Option.Basic

/-- Keys and the slots they hold. -/
structure Pairing (Key Slot : Type*) where
  slotOf : Key → Option Slot
  keyOf : Slot → Option Key
  inverse : ∀ key slot, slotOf key = some slot ↔ keyOf slot = some key

namespace Pairing

open Option

variable {Key Slot : Type*}

/-- No key holds a slot. -/
def empty : Pairing Key Slot where
  slotOf _ := none
  keyOf _ := none
  inverse _ _ := ⟨nofun, nofun⟩

variable [DecidableEq Key] [DecidableEq Slot]

/-- A slot is given to a key that holds none; the key that held it loses it. -/
def assign (table : Pairing Key Slot) (key : Key) (slot : Slot)
    (free : table.slotOf key = none) : Pairing Key Slot where
  slotOf other :=
    if other = key then some slot
    else if table.keyOf slot = some other then none
    else table.slotOf other
  keyOf other := if other = slot then some key else table.keyOf other
  inverse other place := by
    by_cases own : other = key
    · subst own
      by_cases here : place = slot
      · simp [here]
      · have absent : table.keyOf place ≠ some other := fun held => by
          rw [(table.inverse other place).mpr held] at free
          cases free
        simp [here, absent, Ne.symm here]
    · by_cases here : place = slot
      · subst here
        have taken : ¬(if table.keyOf place = some other then none else table.slotOf other) =
            some place := by
          split
          · rintro ⟨⟩
          · rename_i absent
            exact fun held => absent ((table.inverse other place).mp held)
        simp [own, taken, Ne.symm own]
      · rw [if_neg own, if_neg here, ← table.inverse other place]
        split
        · rename_i held
          have holds := (table.inverse other slot).mpr held
          constructor
          · rintro ⟨⟩
          · intro holds'
            exact absurd (Option.some.inj (holds'.symm.trans holds)) here
        · rfl

variable (table : Pairing Key Slot) {key : Key} {slot : Slot} (free : table.slotOf key = none)

@[simp] theorem slotOf_assign_self : (table.assign key slot free).slotOf key = some slot :=
  if_pos rfl

@[simp] theorem keyOf_assign_self : (table.assign key slot free).keyOf slot = some key :=
  if_pos rfl

/-- Another key keeps its slot, unless it is the one given away. -/
theorem slotOf_assign_of_ne {other : Key} {place : Slot} (holds : table.slotOf other = some place)
    (different : place ≠ slot) : (table.assign key slot free).slotOf other = some place := by
  have own : other ≠ key := by
    rintro rfl
    cases holds.symm.trans free
  have kept : table.keyOf slot ≠ some other := fun held =>
    different (some.inj (holds.symm.trans ((table.inverse other slot).mpr held)))
  show (if other = key then _ else if _ then _ else _) = _
  rw [if_neg own, if_neg kept, holds]

/-- What the table holds afterwards is what was assigned, or was held before. -/
theorem slotOf_assign_eq_some {other : Key} {place : Slot}
    (holds : (table.assign key slot free).slotOf other = some place) :
    other = key ∧ place = slot ∨ table.slotOf other = some place := by
  change (if other = key then some slot else if table.keyOf slot = some other then none
    else table.slotOf other) = some place at holds
  split at holds
  next own => exact .inl ⟨own, (some.inj holds).symm⟩
  · split at holds
    · cases holds
    · exact .inr holds

end Pairing
