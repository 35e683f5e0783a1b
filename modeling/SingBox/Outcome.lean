/-
This file is about programs with bounds-checked slices, reported errors and loops
that need not end. The outcome of such a program is its value, an error it
reports, a panic, or nothing yet, when one of its loops ran out of fuel.

A program returns if it ends in a value or an error. Which programs return is
computed along their structure, from the slices they take; a program that ensures
a postcondition returns, and its value has the property.
-/

import Mathlib.Data.List.Basic
import Mathlib.Data.List.Forall2

/-- What the run of a program ends in. -/
inductive Outcome (Error Value : Type) where
  | value (result : Value)
  | error (err : Error)
  | panicked
  | unfinished
  deriving DecidableEq, Repr

namespace Outcome

open List

variable {Error Value Result Element : Type}

protected def bind (outcome : Outcome Error Value) (next : Value → Outcome Error Result) :
    Outcome Error Result :=
  match outcome with
  | value result => next result
  | error err => error err
  | panicked => panicked
  | unfinished => unfinished

instance : Monad (Outcome Error) where
  pure := value
  bind := Outcome.bind

instance : LawfulMonad (Outcome Error) :=
  LawfulMonad.mk' (Outcome Error) (fun outcome => by cases outcome <;> rfl) (fun _ _ => rfl)
    (fun outcome _ _ => by cases outcome <;> rfl)

/-- The error of a program is taken as the result of a larger one. -/
def handle {Failure : Type} (outcome : Outcome Error Value)
    (next : Value → Outcome Failure Result) (failed : Error → Outcome Failure Result) :
    Outcome Failure Result :=
  match outcome with
  | value result => next result
  | error err => failed err
  | panicked => panicked
  | unfinished => unfinished

/-- The program ends, and not in a panic. -/
def Returns : Outcome Error Value → Prop
  | value _ | error _ => True
  | panicked | unfinished => False

instance (outcome : Outcome Error Value) : Decidable outcome.Returns :=
  match outcome with
  | value _ | error _ => isTrue trivial
  | panicked | unfinished => isFalse id

/-- The program returns, and a value it returns has the property. -/
def Ensures (outcome : Outcome Error Value) (post : Value → Prop) : Prop :=
  match outcome with
  | value result => post result
  | error _ => True
  | panicked | unfinished => False

/-- The program reports no error. -/
def Plain : Outcome Error Value → Prop
  | error _ => False
  | value _ | panicked | unfinished => True

/-! ### Rules -/

@[simp] theorem bind_value (result : Value) (next : Value → Outcome Error Result) :
    (value result >>= next) = next result := rfl

@[simp] theorem returns_value (result : Value) : (value result : Outcome Error Value).Returns :=
  trivial

variable {next : Value → Outcome Error Result} {outcome : Outcome Error Value}
  {f : Element → Outcome Error Value} {xs : List Element}

theorem bind_eq_value {last : Result} :
    (outcome >>= next) = value last ↔ ∃ result, outcome = value result ∧ next result = value last := by
  cases outcome with
  | value result => exact ⟨fun same => ⟨result, rfl, same⟩, fun ⟨_, same, rest⟩ => by
      cases same; exact rest⟩
  | error _ | panicked | unfinished =>
    exact ⟨fun same => (nomatch same), fun ⟨_, same, _⟩ => (nomatch same)⟩

section

variable {Failure : Type} {next : Value → Outcome Failure Result}
  {failed : Error → Outcome Failure Result}

theorem handle_eq_value {last : Result} (ends : outcome.handle next failed = value last) :
    (∃ result, outcome = value result ∧ next result = value last) ∨
      ∃ err, outcome = error err ∧ failed err = value last := by
  cases outcome with
  | value result => exact .inl ⟨result, rfl, ends⟩
  | error err => exact .inr ⟨err, rfl, ends⟩
  | panicked | unfinished => cases ends

theorem returns_handle (caught : ∀ err, (failed err).Returns) :
    (outcome.handle next failed).Returns ↔
      outcome.Returns ∧ ∀ result, outcome = value result → (next result).Returns := by
  cases outcome with
  | value result => exact ⟨fun returns => ⟨trivial, fun _ same => by cases same; exact returns⟩,
      fun both => both.2 result rfl⟩
  | error err => exact ⟨fun _ => ⟨trivial, fun _ same => nomatch same⟩, fun _ => caught err⟩
  | panicked | unfinished => exact ⟨False.elim, fun both => both.1⟩

end

theorem returns_bind : (outcome >>= next).Returns ↔
      outcome.Returns ∧ ∀ result, outcome = value result → (next result).Returns := by
  exact returns_handle fun _ => trivial

theorem Plain.bind (plain : outcome.Plain) (rest : ∀ result, (next result).Plain) :
    (outcome >>= next).Plain := by
  cases outcome with
  | value result => exact rest result
  | error _ => exact plain
  | panicked | unfinished => trivial

namespace Ensures

variable {outcome : Outcome Error Value} {next : Value → Outcome Error Result}
  {post weaker : Value → Prop} {goal : Result → Prop}

section

variable (ensures : outcome.Ensures post)

include ensures

theorem returns : outcome.Returns := by
  cases outcome with
  | value _ | error _ => trivial
  | panicked | unfinished => exact ensures

theorem of_eq {result : Value} (same : outcome = value result) : post result := by
  rw [same] at ensures
  exact ensures

theorem mono (implied : ∀ result, post result → weaker result) : outcome.Ensures weaker := by
  cases outcome with
  | value result => exact implied result ensures
  | error _ => trivial
  | panicked | unfinished => exact ensures

theorem bind (rest : ∀ result, post result → (next result).Ensures goal) :
    (outcome >>= next).Ensures goal := by
  cases outcome with
  | value result => exact rest result ensures
  | error _ => trivial
  | panicked | unfinished => exact ensures

end

end Ensures

/-- A run with more fuel ends in the same outcome as one that has ended. -/
def Continues (outcome longer : Outcome Error Value) : Prop :=
  outcome ≠ unfinished → longer = outcome

theorem Continues.bind {longer : Value → Outcome Error Result}
    (each : ∀ result, (next result).Continues (longer result)) (outcome : Outcome Error Value) :
    (outcome >>= next).Continues (outcome >>= longer) := by
  cases outcome with
  | value result => exact each result
  | error _ | panicked | unfinished => exact fun _ => rfl

/-- Two runs that have ended with some fuel each end in the same outcome. -/
theorem eq_of_continues (runs : Nat → Outcome Error Value)
    (grows : ∀ fuel more, fuel ≤ more → (runs fuel).Continues (runs more)) {first second : Nat}
    (finished : runs first ≠ unfinished) (ended : runs second ≠ unfinished) :
    runs first = runs second := by
  rcases Nat.le_total first second with less | more
  · exact (grows first second less finished).symm
  · exact grows second first more ended

theorem Returns.ne_unfinished (returns : outcome.Returns) : outcome ≠ unfinished := by
  rintro rfl
  exact returns

theorem ne_unfinished_of_value {result : Value} (ends : outcome = value result) :
    outcome ≠ unfinished := by
  rintro rfl
  cases ends

theorem ne_unfinished_of_error {err : Error} (ends : outcome = error err) :
    outcome ≠ unfinished := by
  rintro rfl
  cases ends

/-- An error instead of the rest of the program. -/
theorem ensures_ite_error {condition : Prop} [Decidable condition] {err : Error}
    {rest : Outcome Error Value} {post : Value → Prop}
    (ensures : ¬condition → rest.Ensures post) :
    (if condition then error err else rest).Ensures post := by
  split
  · trivial
  next passed => exact ensures passed

/-! ### Slices -/

/-- `xs[i]`. -/
def index (xs : List Element) (i : Nat) : Outcome Error Element :=
  match xs[i]? with
  | some x => value x
  | none => panicked

/-- `xs[low:]`. -/
def sliceFrom (xs : List Element) (low : Nat) : Outcome Error (List Element) :=
  if low ≤ xs.length then value (xs.drop low) else panicked

/-- `xs[low:high]`, where `xs` is all the memory up to the capacity of the slice. -/
def slice (xs : List Element) (low high : Nat) : Outcome Error (List Element) :=
  if low ≤ high ∧ high ≤ xs.length then value ((xs.drop low).take (high - low)) else panicked

/-- An assignment to `xs[i]`. -/
def update (xs : List Element) (i : Nat) (change : Element → Element) :
    Outcome Error (List Element) :=
  if i < xs.length then value (xs.modify i change) else panicked

section Slices

variable {xs : List Element} {i low high : Nat}

theorem index_of_lt (within : i < xs.length) :
    (index xs i : Outcome Error Element) = value xs[i] := by
  rw [index, getElem?_eq_getElem within]

theorem plain_index : (index xs i : Outcome Error Element).Plain := by
  rw [index]
  split <;> trivial

theorem plain_sliceFrom : (sliceFrom xs low : Outcome Error (List Element)).Plain := by
  rw [sliceFrom]
  split <;> trivial

theorem ensures_index (within : i < xs.length) :
    (index xs i : Outcome Error Element).Ensures fun x => xs[i]? = some x := by
  rw [index_of_lt within]
  exact getElem?_eq_getElem within

theorem returns_index : (index xs i : Outcome Error Element).Returns ↔ i < xs.length := by
  refine ⟨fun returns => ?_, fun within => (ensures_index within).returns⟩
  by_contra outside
  rw [index, getElem?_eq_none (Nat.le_of_not_lt outside)] at returns
  exact returns

theorem ensures_sliceFrom (within : low ≤ xs.length) :
    (sliceFrom xs low : Outcome Error (List Element)).Ensures fun ys => ys = xs.drop low := by
  rw [sliceFrom, if_pos within]
  exact rfl

theorem returns_sliceFrom :
    (sliceFrom xs low : Outcome Error (List Element)).Returns ↔ low ≤ xs.length := by
  refine ⟨fun returns => ?_, fun within => (ensures_sliceFrom within).returns⟩
  by_contra outside
  rw [sliceFrom, if_neg outside] at returns
  exact returns

theorem ensures_slice (ordered : low ≤ high) (within : high ≤ xs.length) :
    (slice xs low high : Outcome Error (List Element)).Ensures fun ys =>
      ys = (xs.drop low).take (high - low) ∧ ys.length = high - low := by
  rw [slice, if_pos ⟨ordered, within⟩]
  exact ⟨rfl, by rw [length_take, length_drop]; omega⟩

theorem returns_slice (ordered : low ≤ high) :
    (slice xs low high : Outcome Error (List Element)).Returns ↔ high ≤ xs.length := by
  refine ⟨fun returns => ?_, fun within => (ensures_slice ordered within).returns⟩
  by_contra outside
  rw [slice, if_neg fun both => outside both.2] at returns
  exact returns

theorem slice_eq_value {ys : List Element} :
    (slice xs low high : Outcome Error (List Element)) = value ys ↔
      (low ≤ high ∧ high ≤ xs.length) ∧ (xs.drop low).take (high - low) = ys := by
  rw [slice]
  split
  next inside => exact ⟨fun same => ⟨inside, value.inj same⟩, fun both => congrArg value both.2⟩
  next outside => exact ⟨fun same => (nomatch same), fun both => absurd both.1 outside⟩

theorem ensures_update (within : i < xs.length) (change : Element → Element) :
    (update xs i change : Outcome Error (List Element)).Ensures fun ys =>
      ys.length = xs.length := by
  rw [update, if_pos within]
  exact length_modify ..

end Slices

/-! ### Loops over a list -/

theorem ensures_mapM (each : ∀ x ∈ xs, (f x).Returns) : (xs.mapM f).Ensures fun _ => True := by
  induction xs with
  | nil => trivial
  | cons x xs ih =>
    rw [mapM_cons]
    have first : (f x).Ensures fun _ => True := by
      have returns := each x mem_cons_self
      cases outcome : f x with
      | value _ | error _ => trivial
      | panicked | unfinished => rw [outcome] at returns; exact returns
    refine first.bind fun _ _ => ?_
    refine (ih fun y member => each y (mem_cons_of_mem _ member)).bind ?_
    exact fun _ _ => trivial

/-- A loop whose body reports no errors goes through all elements. -/
theorem returns_mapM (plain : ∀ x, (f x).Plain) :
    (xs.mapM f).Returns ↔ ∀ x ∈ xs, (f x).Returns := by
  refine ⟨fun returns => ?_, fun each => (ensures_mapM each).returns⟩
  induction xs with
  | nil => exact fun _ member => nomatch member
  | cons x xs ih =>
    rw [mapM_cons, returns_bind] at returns
    obtain ⟨first, rest⟩ := returns
    intro y member
    rcases mem_cons.mp member with rfl | later
    · exact first
    · cases outcome : f x with
      | value result => exact ih (returns_bind.mp (rest result outcome)).1 y later
      | error err => exact (outcome ▸ plain x : (error err : Outcome Error Value).Plain).elim
      | panicked | unfinished => rw [outcome] at first; exact first.elim

/-- A loop has a value if each turn has one. -/
theorem mapM_eq_value {ys : List Value} :
    xs.mapM f = value ys ↔ List.Forall₂ (fun x y => f x = value y) xs ys := by
  induction xs generalizing ys with
  | nil =>
    rw [mapM_nil, forall₂_nil_left_iff]
    exact ⟨fun same => (value.inj same).symm, fun same => congrArg value same.symm⟩
  | cons x xs ih =>
    rw [mapM_cons, bind_eq_value, forall₂_cons_left_iff]
    refine exists_congr fun y => ?_
    constructor
    · rintro ⟨first, rest⟩
      obtain ⟨later, mapped, same⟩ := bind_eq_value.mp rest
      exact ⟨later, first, ih.mp mapped, (value.inj same).symm⟩
    · rintro ⟨later, first, mapped, rfl⟩
      exact ⟨first, bind_eq_value.mpr ⟨later, ih.mpr mapped, rfl⟩⟩

/-- A list of partners exists if each element has one. -/
theorem exists_forall₂ {related : Element → Value → Prop} :
    (∃ ys, List.Forall₂ related xs ys) ↔ ∀ x ∈ xs, ∃ y, related x y := by
  induction xs with
  | nil => exact ⟨fun _ _ => nofun, fun _ => ⟨[], .nil⟩⟩
  | cons x xs ih =>
    rw [forall_mem_cons, ← ih]
    constructor
    · rintro ⟨_, each⟩
      obtain ⟨y, ys, here, later, -⟩ := forall₂_cons_left_iff.mp each
      exact ⟨⟨y, here⟩, ys, later⟩
    · rintro ⟨⟨y, here⟩, ys, later⟩
      exact ⟨y :: ys, .cons here later⟩

theorem exists_mapM_eq_value : (∃ ys, xs.mapM f = value ys) ↔ ∀ x ∈ xs, ∃ y, f x = value y := by
  simp only [mapM_eq_value, exists_forall₂]

theorem ensures_foldlM (invariant : Value → Prop) {f : Value → Element → Outcome Error Value}
    {start : Value} (initial : invariant start)
    (kept : ∀ x ∈ xs, ∀ state, invariant state → (f state x).Ensures invariant) :
    (xs.foldlM f start).Ensures invariant := by
  induction xs generalizing start with
  | nil => exact initial
  | cons x xs ih =>
    refine (kept x mem_cons_self start initial).bind fun state holds => ?_
    exact ih holds fun y member => kept y (mem_cons_of_mem _ member)

end Outcome
