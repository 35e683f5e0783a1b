/-
This file develops three-valued verdicts: strong Kleene logic on `no`, `unknown`
and `yes`. A verdict admits the Boolean answers it leaves open, and every
connective keeps that relation, so an evaluation that marks some leaves
`unknown` is sound for every value those leaves may still take.

The connectives are also monotone for the order `no < unknown < yes`, and
negation is antitone. An evaluator that replaces `unknown` by `yes` at some
leaves therefore errs upwards below an even number of negations and downwards
below an odd number.
-/

import SingBox.Reached

namespace Kleene

open List Loop

/-- A three-valued answer. -/
inductive Verdict where
  | no
  | unknown
  | yes
  deriving DecidableEq, Repr

namespace Verdict

/-! ### Connectives -/

def ofBool : Bool → Verdict
  | false => no
  | true => yes

def neg : Verdict → Verdict
  | no => yes
  | unknown => unknown
  | yes => no

def conj : Verdict → Verdict → Verdict
  | no, _ => no
  | unknown, no => no
  | unknown, _ => unknown
  | yes, second => second

def disj : Verdict → Verdict → Verdict
  | yes, _ => yes
  | unknown, yes => yes
  | unknown, _ => unknown
  | no, second => second

/-- Negation under a flag. -/
def invert (flag : Bool) (verdict : Verdict) : Verdict := if flag then verdict.neg else verdict

/-- The verdict of a condition that is either open or holds. -/
def openIf (isOpen : Bool) : Verdict := if isOpen then unknown else yes

/-- Under the flag, an open verdict is taken for `yes`. -/
def settle (flag : Bool) (verdict : Verdict) : Verdict :=
  if flag && verdict = unknown then yes else verdict

/-- The answer may still be positive. -/
def possible : Verdict → Bool
  | no => false
  | unknown | yes => true

def all {α : Type*} (verdict : α → Verdict) : List α → Verdict
  | [] => yes
  | element :: rest => (verdict element).conj (all verdict rest)

def any {α : Type*} (verdict : α → Verdict) : List α → Verdict
  | [] => no
  | element :: rest => (verdict element).disj (any verdict rest)

variable {α : Type*} {answer flag downwards : Bool}
  {verdict first second first' second' computed exact : Verdict}

theorem all_map {β : Type*} (verdict : β → Verdict) (f : α → β) (elements : List α) :
    all verdict (elements.map f) = all (fun element => verdict (f element)) elements := by
  induction elements with
  | nil => rfl
  | cons element rest ih => rw [map_cons, all, all, ih]

theorem any_map {β : Type*} (verdict : β → Verdict) (f : α → β) (elements : List α) :
    any verdict (elements.map f) = any (fun element => verdict (f element)) elements := by
  induction elements with
  | nil => rfl
  | cons element rest ih => rw [map_cons, any, any, ih]

theorem conj_assoc : ∀ first second third : Verdict,
    (first.conj second).conj third = first.conj (second.conj third)
  | no, _, _ | yes, _, _ | unknown, no, _ | unknown, yes, _ | unknown, unknown, no => rfl
  | unknown, unknown, unknown | unknown, unknown, yes => rfl

theorem disj_assoc : ∀ first second third : Verdict,
    (first.disj second).disj third = first.disj (second.disj third)
  | no, _, _ | yes, _, _ | unknown, no, _ | unknown, yes, _ | unknown, unknown, no => rfl
  | unknown, unknown, unknown | unknown, unknown, yes => rfl

section

variable (verdict)

include verdict

@[simp] theorem conj_yes : verdict.conj yes = verdict := by
  cases verdict <;> rfl

@[simp] theorem yes_conj : yes.conj verdict = verdict := rfl

@[simp] theorem no_conj : no.conj verdict = no := rfl

@[simp] theorem disj_no : verdict.disj no = verdict := by
  cases verdict <;> rfl

@[simp] theorem yes_disj : yes.disj verdict = yes := rfl

@[simp] theorem disj_yes : verdict.disj yes = yes := by
  cases verdict <;> rfl

@[simp] theorem conj_no : verdict.conj no = no := by
  cases verdict <;> rfl

end

theorem conj_disj_distrib (first second third : Verdict) :
    first.conj (second.disj third) = (first.conj second).disj (first.conj third) := by
  cases first <;> cases second <;> cases third <;> rfl

theorem conj_any (first : Verdict) (verdict : α → Verdict) (elements : List α) :
    first.conj (any verdict elements) = any (fun element => first.conj (verdict element)) elements := by
  induction elements with
  | nil => exact conj_no first
  | cons element rest ih =>
    rw [any, any, conj_disj_distrib, ih]

@[simp] theorem settle_false (verdict : Verdict) : verdict.settle false = verdict := rfl

@[simp] theorem openIf_false : openIf false = yes := rfl

@[simp] theorem openIf_true : openIf true = unknown := rfl

theorem openIf_eq_unknown_iff (isOpen : Bool) : openIf isOpen = unknown ↔ isOpen = true := by
  cases isOpen <;> decide

theorem possible_openIf (isOpen : Bool) : (openIf isOpen).possible = true := by
  cases isOpen <;> rfl

/-! ### Admitted answers -/

/-- The verdict leaves the answer open or is that answer. -/
def Admits (verdict : Verdict) (answer : Bool) : Prop :=
  verdict = unknown ∨ verdict = ofBool answer

theorem admits_ofBool (answer : Bool) : Admits (ofBool answer) answer := Or.inr rfl

theorem Admits.eq_false_of_no (admits : Admits verdict answer) (decided : verdict = no) :
    answer = false := by
  subst decided
  rcases admits with absent | same
  · cases absent
  · cases answer with
    | false => rfl
    | true => cases same

theorem Admits.conj {a b : Bool} (left : Admits first a) (right : Admits second b) :
    Admits (first.conj second) (a && b) := by
  rcases left with rfl | rfl <;> rcases right with rfl | rfl <;> cases a <;> cases b <;>
    first | exact Or.inl rfl | exact Or.inr rfl

theorem Admits.disj {a b : Bool} (left : Admits first a) (right : Admits second b) :
    Admits (first.disj second) (a || b) := by
  rcases left with rfl | rfl <;> rcases right with rfl | rfl <;> cases a <;> cases b <;>
    first | exact Or.inl rfl | exact Or.inr rfl

theorem Admits.invert (admits : Admits verdict answer) (flag : Bool) :
    Admits (verdict.invert flag) (answer ^^ flag) := by
  rcases admits with rfl | rfl <;> cases answer <;> cases flag <;>
    first | exact Or.inl rfl | exact Or.inr rfl

/-- A condition that is answered except for a part that may be open: closed it is the answer,
and open it can still refute. -/
theorem admits_openIf_conj (isOpen sofar answer : Bool)
    (closed : isOpen = false → answer = sofar)
    (refuted : isOpen = true → sofar = false → answer = false) :
    Admits ((openIf isOpen).conj (ofBool sofar)) answer := by
  cases isOpen with
  | false =>
    rw [closed rfl]
    exact Or.inr rfl
  | true => cases sofar with
    | false =>
      rw [refuted rfl rfl]
      exact Or.inr rfl
    | true => exact Or.inl rfl

section

variable (verdict : α → Verdict) (answer : α → Bool) (elements : List α)
  (each : ∀ element ∈ elements, Admits (verdict element) (answer element))

include each

theorem admits_all : Admits (all verdict elements) (elements.all answer) := by
  induction elements with
  | nil => exact Or.inr rfl
  | cons element rest ih =>
    rw [all, all_cons]
    exact (each element mem_cons_self).conj
      (ih fun other member => each other (mem_cons_of_mem _ member))

theorem admits_any : Admits (any verdict elements) (elements.any answer) := by
  induction elements with
  | nil => exact Or.inr rfl
  | cons element rest ih =>
    rw [any, any_cons]
    exact (each element mem_cons_self).disj
      (ih fun other member => each other (mem_cons_of_mem _ member))

end

/-! ### The truth order -/

/-- The position in `no < unknown < yes`. -/
def rank : Verdict → Nat
  | no => 0
  | unknown => 1
  | yes => 2

instance : LE Verdict := ⟨fun first second => first.rank ≤ second.rank⟩

instance (first second : Verdict) : Decidable (first ≤ second) :=
  inferInstanceAs (Decidable (first.rank ≤ second.rank))

theorem le_refl (verdict : Verdict) : verdict ≤ verdict := Nat.le_refl _

theorem eq_no_of_le (below : verdict ≤ no) : verdict = no := by
  revert below
  cases verdict <;> decide

theorem conj_mono (left : first ≤ first') (right : second ≤ second') :
    first.conj second ≤ first'.conj second' := by
  revert left right
  cases first <;> cases first' <;> cases second <;> cases second' <;> decide

theorem disj_mono (left : first ≤ first') (right : second ≤ second') :
    first.disj second ≤ first'.disj second' := by
  revert left right
  cases first <;> cases first' <;> cases second <;> cases second' <;> decide

theorem neg_anti (below : first ≤ second) : second.neg ≤ first.neg := by
  revert below
  cases first <;> cases second <;> decide

theorem le_settle (flag : Bool) (verdict : Verdict) : verdict ≤ verdict.settle flag := by
  cases flag <;> cases verdict <;> decide

theorem settle_of_ne (decided : flag = true → verdict ≠ unknown) :
    verdict.settle flag = verdict := by
  cases flag with
  | false => rfl
  | true => cases verdict with
    | unknown => exact absurd rfl (decided rfl)
    | no | yes => rfl

/-- The order in which errors are harmless: upwards, or downwards when the flag is set. -/
def LeUnder (downwards : Bool) (exact computed : Verdict) : Prop :=
  if downwards then computed ≤ exact else exact ≤ computed

theorem LeUnder.refl (downwards : Bool) (verdict : Verdict) :
    LeUnder downwards verdict verdict := by
  cases downwards <;> exact le_refl _

theorem LeUnder.conj (left : LeUnder downwards first first')
    (right : LeUnder downwards second second') :
    LeUnder downwards (first.conj second) (first'.conj second') := by
  cases downwards <;> exact conj_mono left right

theorem LeUnder.disj (left : LeUnder downwards first first')
    (right : LeUnder downwards second second') :
    LeUnder downwards (first.disj second) (first'.disj second') := by
  cases downwards <;> exact disj_mono left right

/-- Once the computed conjunction is `no`, what follows cannot make its error harmful. -/
theorem LeUnder.conj_of_no (left : LeUnder downwards first no) :
    LeUnder downwards (first.conj second) (no.conj second') := by
  rw [no_conj]
  revert left
  unfold LeUnder
  cases downwards <;> cases first <;> cases second <;> decide

/-- Once the computed disjunction is `yes`, what follows cannot make its error harmful. -/
theorem LeUnder.disj_of_yes (left : LeUnder downwards first yes) :
    LeUnder downwards (first.disj second) (yes.disj second') := by
  rw [yes_disj]
  revert left
  unfold LeUnder
  cases downwards <;> cases first <;> cases second <;> decide

section

variable (exact computed : α → Verdict) (elements : List α)

/-- A loop that leaves at the first `no` errs as the elements do that it reaches. -/
theorem LeUnder.all (each : ∀ element ∈ reached (computed · = no) elements,
      LeUnder downwards (exact element) (computed element)) :
    LeUnder downwards (all exact elements) (all computed elements) := by
  induction elements with
  | nil => exact .refl _ _
  | cons element rest ih =>
    have here := each element mem_reached_cons_self
    rw [Verdict.all, Verdict.all]
    by_cases stops : computed element = no
    · rw [stops] at here ⊢
      exact here.conj_of_no
    · exact here.conj (ih fun other later =>
        each other (mem_reached_cons (decide_eq_false stops) later))

/-- A loop that leaves at the first `yes` errs as the elements do that it reaches. -/
theorem LeUnder.any (each : ∀ element ∈ reached (computed · = yes) elements,
      LeUnder downwards (exact element) (computed element)) :
    LeUnder downwards (any exact elements) (any computed elements) := by
  induction elements with
  | nil => exact .refl _ _
  | cons element rest ih =>
    have here := each element mem_reached_cons_self
    rw [Verdict.any, Verdict.any]
    by_cases stops : computed element = yes
    · rw [stops] at here ⊢
      exact here.disj_of_yes
    · exact here.disj (ih fun other later =>
        each other (mem_reached_cons (decide_eq_false stops) later))

end

/-- Negation turns the harmless direction around. -/
theorem LeUnder.invert (below : LeUnder (downwards ^^ flag) exact computed) :
    LeUnder downwards (exact.invert flag) (computed.invert flag) := by
  cases downwards <;> cases flag <;> first | exact below | exact neg_anti below

/-- Settling errs upwards, so it must change nothing where only downward errors are
harmless. -/
theorem LeUnder.settle (below : LeUnder downwards exact computed)
    (kept : downwards = true → flag = true → computed ≠ unknown) :
    LeUnder downwards exact (computed.settle flag) := by
  cases downwards with
  | false =>
    have settled := le_settle flag computed
    exact Nat.le_trans below settled
  | true =>
    rw [settle_of_ne (kept rfl)]
    exact below

end Verdict

end Kleene
