/-
This file is about lists that grow at their end, as histories do. What stands at a
place stays there; an entry that is replaced moves from one count to another.
-/

import Mathlib.Data.List.Perm.Basic

namespace Log

open List Option

variable {Entry : Type*} {log : List Entry} {entry found : Entry} {place : Nat}

theorem lt_length (listed : log[place]? = some found) : place < log.length :=
  (List.getElem?_eq_some_iff.mp listed).1

/-- An entry of a log with one more entry was there before, or is the new one. -/
theorem snoc_cases (listed : (log ++ [entry])[place]? = some found) :
    log[place]? = some found ∨ (place = log.length ∧ found = entry) := by
  rcases Nat.lt_or_ge place log.length with old | new
  · rw [getElem?_append_left old] at listed
    exact .inl listed
  · rw [getElem?_append_right new] at listed
    have inside := lt_length listed
    rw [length_singleton] at inside
    have last : place = log.length := by omega
    rw [last, Nat.sub_self] at listed
    exact .inr ⟨last, (some.inj listed).symm⟩

theorem mem_snoc {other : Entry} (member : other ∈ log ++ [entry]) : other ∈ log ∨ other = entry :=
  (mem_append.mp member).imp_right mem_singleton.mp

theorem snoc_of_some (listed : log[place]? = some found) :
    (log ++ [entry])[place]? = some found := by
  rw [getElem?_append_left (lt_length listed)]
  exact listed

theorem snoc_self (log : List Entry) (entry : Entry) :
    (log ++ [entry])[log.length]? = some entry := by
  rw [getElem?_append_right (Nat.le_refl _), Nat.sub_self]
  rfl

theorem set_snoc (log : List Entry) (entry new : Entry) :
    (log ++ [entry]).set log.length new = log ++ [new] := by
  rw [set_append_right _ _ (Nat.le_refl _), Nat.sub_self]
  rfl

/-- An entry of a list in which one entry was replaced. -/
theorem set_cases {other : Nat} (listed : (log.set place entry)[other]? = some found) :
    (other = place ∧ found = entry) ∨ (other ≠ place ∧ log[other]? = some found) := by
  by_cases same : other = place
  · subst same
    have inside := lt_length listed
    rw [length_set] at inside
    rw [getElem?_set_self inside] at listed
    exact .inl ⟨rfl, (some.inj listed).symm⟩
  · rw [getElem?_set_ne (Ne.symm same)] at listed
    exact .inr ⟨same, listed⟩

/-- An entry is the one that is taken out, or stays. -/
theorem eq_or_mem_eraseIdx {other : Entry} (listed : log[place]? = some found)
    (member : other ∈ log) : other = found ∨ other ∈ log.eraseIdx place := by
  obtain ⟨index, stands⟩ := mem_iff_getElem?.mp member
  by_cases same : index = place
  · rw [same, listed] at stands
    exact .inl (some.inj stands).symm
  · exact .inr (mem_eraseIdx_iff_getElem?.mpr ⟨index, same, stands⟩)

/-! ### Counting -/

/-- One for the number itself, and nothing for the others. -/
def one (hand : Option Nat) (number : Nat) : Nat := if hand = some number then 1 else 0

theorem one_none (number : Nat) : one none number = 0 := rfl

theorem one_some (other number : Nat) :
    one (some other) number = if other = number then 1 else 0 := by
  simp only [one, some.injEq]

/-- Replacing an entry moves it between two counts. -/
theorem countP_set (counted : Entry → Bool) (listed : log[place]? = some found) (entry : Entry) :
    (log.set place entry).countP counted + (if counted found then 1 else 0) =
      log.countP counted + (if counted entry then 1 else 0) := by
  obtain ⟨inside, rfl⟩ := List.getElem?_eq_some_iff.mp listed
  rw [countP_set inside]
  have counts : (if counted log[place] then 1 else 0) ≤ log.countP counted := by
    split
    next holds => exact countP_pos_iff.mpr ⟨_, getElem_mem inside, holds⟩
    · exact Nat.zero_le _
  omega

/-- What stands at one place only is counted once. -/
theorem countP_le_one {counted : Entry → Bool}
    (single : ∀ (one two : Nat) (first second : Entry), log[one]? = some first →
      log[two]? = some second → counted first = true → counted second = true → one = two) :
    log.countP counted ≤ 1 := by
  induction log with
  | nil => exact Nat.zero_le _
  | cons head rest ih =>
    by_cases here : counted head = true
    · have others : rest.countP counted = 0 := countP_eq_zero.mpr fun entry member found => by
        obtain ⟨place, listed⟩ := mem_iff_getElem?.mp member
        exact nomatch single 0 (place + 1) head entry rfl listed here found
      exact Nat.le_of_eq ((countP_cons_of_pos here).trans (congrArg (· + 1) others))
    · rw [countP_cons_of_neg here]
      refine ih fun one two first second listed listed' found found' => ?_
      exact Nat.succ.inj (single (one + 1) (two + 1) first second listed listed' found found')

end Log
