/-
This file is about two parties and the packets between them. The network may lose,
duplicate and reorder packets, so that all it has to remember is which packets each
party has sent: any of them can arrive, at any time and any number of times.

A property of one direction, with a sender and a receiver, holds after every run if
it holds at the start and if what a party does keeps it in both roles.
-/

import SingBox.Machine
import Mathlib.Logic.Function.Basic

namespace SingBox

open Machine Function

namespace Duplex

inductive Side where
  | client
  | server
  deriving DecidableEq, Repr

def Side.other : Side → Side
  | client => server
  | server => client

@[simp] theorem Side.other_other (side : Side) : side.other.other = side := by
  cases side <;> rfl

theorem Side.other_ne (side : Side) : side.other ≠ side := by
  cases side <;> decide

theorem Side.eq_or_other (side place : Side) : side = place ∨ side = place.other := by
  cases side <;> cases place <;> decide

variable {Party Packet Action : Type}

/-- Two parties, and the packets that each has sent. -/
structure Session (Party Packet : Type) where
  ends : Side → Party
  sent : Side → List Packet := fun _ => []

variable (react : Party → List Packet → Action → Party × List Packet)

/-- A party acts: it may receive packets that the other party has sent, and it sends packets. -/
def step (session : Session Party Packet) (event : Side × Action) : Session Party Packet :=
  let result := react (session.ends event.1) (session.sent event.1.other) event.2
  { ends := Function.update session.ends event.1 result.1
    sent := Function.update session.sent event.1 (session.sent event.1 ++ result.2) }

/-- A party acts several times in a row: the party after it, and the packets it sends. -/
def acts (party : Party) (arriving : List Packet) : List Action → Party × List Packet
  | [] => (party, [])
  | action :: rest =>
    let first := react party arriving action
    let others := acts first.1 arriving rest
    (others.1, first.2 ++ others.2)

theorem drive_acts (session : Session Party Packet) (side : Side) (actions : List Action) :
    drive (step react) session (actions.map (side, ·)) =
      { ends := update session.ends side
          (acts react (session.ends side) (session.sent side.other) actions).1
        sent := update session.sent side (session.sent side ++
          (acts react (session.ends side) (session.sent side.other) actions).2) } := by
  induction actions generalizing session with
  | nil =>
    rw [acts, List.append_nil, update_eq_self, update_eq_self]
    rfl
  | cons action rest ih =>
    rw [List.map_cons]
    refine (ih (step react session (side, action))).trans ?_
    simp only [step, acts, update_self, update_idem,
      update_of_ne (Side.other_ne side), List.append_assoc]

variable (direction : Party → List Packet → Party → List Packet → Prop)

/-- What the actions of a party keep as a sender and as a receiver, every run keeps in both
directions. -/
theorem direction_run {start : Session Party Packet}
    (initial : ∀ side, direction (start.ends side) (start.sent side) (start.ends side.other)
      (start.sent side.other))
    (sends : ∀ sender data receiver replies action, direction sender data receiver replies →
      direction (react sender replies action).1 (data ++ (react sender replies action).2) receiver
        replies)
    (receives : ∀ sender data receiver replies action, direction sender data receiver replies →
      direction sender data (react receiver data action).1
        (replies ++ (react receiver data action).2))
    (events : List (Side × Action)) (side : Side) :
    direction ((drive (step react) start events).ends side)
      ((drive (step react) start events).sent side)
      ((drive (step react) start events).ends side.other)
      ((drive (step react) start events).sent side.other) := by
  refine invariant_events (fun session : Session Party Packet => ∀ side,
    direction (session.ends side) (session.sent side) (session.ends side.other)
      (session.sent side.other)) initial ?_ events side
  intro session event holds side
  rcases side.eq_or_other event.1 with rfl | rfl
  · rw [step]
    dsimp only
    rw [update_self, update_self, update_of_ne (Side.other_ne _), update_of_ne (Side.other_ne _)]
    exact sends _ _ _ _ _ (holds event.1)
  · have before := holds event.1.other
    rw [Side.other_other] at before
    rw [step, Side.other_other]
    dsimp only
    rw [update_self, update_self, update_of_ne (Side.other_ne _), update_of_ne (Side.other_ne _)]
    exact receives _ _ _ _ _ before

end Duplex

end SingBox
