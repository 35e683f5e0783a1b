/-
This file is about loops over a list that leave at their first hit. What such a loop does
depends on the elements that it reaches only.
-/

import Mathlib.Data.List.Basic

namespace Loop

variable {α : Type*} {stops : α → Bool} {element : α} {rest : List α}

/-- The elements that a loop reaches that leaves behind the first one that stops it. -/
def reached (stops : α → Bool) : List α → List α
  | [] => []
  | element :: rest => element :: if stops element then [] else reached stops rest

@[simp] theorem reached_nil : reached stops [] = [] := rfl

theorem mem_reached_cons_self : element ∈ reached stops (element :: rest) :=
  List.mem_cons_self

theorem mem_reached_cons {other : α} (goes : stops element = false)
    (later : other ∈ reached stops rest) : other ∈ reached stops (element :: rest) := by
  rw [reached, goes]
  exact List.mem_cons_of_mem _ later

theorem mem_of_mem_reached {elements : List α} (member : element ∈ reached stops elements) :
    element ∈ elements := by
  induction elements with
  | nil => exact member
  | cons first rest ih =>
    rw [reached] at member
    rcases List.mem_cons.mp member with rfl | later
    · exact List.mem_cons_self
    · split at later
      · exact absurd later List.not_mem_nil
      · exact List.mem_cons_of_mem _ (ih later)

theorem reached_map {β : Type*} {stops : β → Bool} (f : α → β) (elements : List α) :
    reached stops (elements.map f) = (reached (fun element => stops (f element)) elements).map f := by
  induction elements with
  | nil => rfl
  | cons element rest ih =>
    rw [List.map_cons, reached, reached, List.map_cons, ih]
    cases stops (f element) <;> rfl

end Loop
