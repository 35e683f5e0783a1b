/-
This file embeds the keyed mutex. `Unlock` hands the key over with one signal and the caller it
wakes does not look again, so the argument is about what the count of an entry says: there is one
owner, who was signalled or has returned, and the others sleep.
-/

import SingBox.Machine
import Mathlib.Data.List.Basic

namespace SingBox.Kmutex

variable {Key Caller : Type} [DecidableEq Key]

/-- What belongs to a key: the count of its entry in the map, the callers in `Wait`, those that
were signalled and have not returned yet, and those whose `Lock` has returned. -/
structure Slot (Caller : Type) where
  ref : Option Nat := none
  waiting : List Caller := []
  signalled : List Caller := []
  holding : List Caller := []

inductive Action (Caller : Type) where
  | lock (caller : Caller)
  /-- The second caller is the one that `Signal` wakes. -/
  | unlock (caller woken : Caller)
  | wake (caller : Caller)

namespace Slot

variable {slot : Slot Caller} {caller woken : Caller}

/-- The count is that of the sleepers and one owner; without an entry there is nobody. -/
def Sound (slot : Slot Caller) : Prop :=
  match slot.ref with
  | none => slot.waiting = [] ∧ slot.signalled = [] ∧ slot.holding = []
  | some ref => ref = slot.waiting.length + 1 ∧ slot.signalled.length + slot.holding.length = 1

/-- The holder of a key is alone, and the count says how many sleep. -/
theorem Sound.held (sound : slot.Sound) (holds : caller ∈ slot.holding) :
    ∃ waiting, slot = ⟨some (waiting.length + 1), waiting, [], [caller]⟩ := by
  obtain ⟨ref, waiting, signalled, holding⟩ := slot
  refine ⟨waiting, ?_⟩
  rcases holding with _ | ⟨first, _ | ⟨second, rest⟩⟩ <;> cases signalled <;> grind [Sound]

def lock (slot : Slot Caller) (caller : Caller) : Slot Caller :=
  match slot.ref with
  | none => { slot with ref := some 1, holding := caller :: slot.holding }
  | some ref => { slot with ref := some (ref + 1), waiting := slot.waiting ++ [caller] }

theorem Sound.lock (sound : slot.Sound) (free : slot.ref = none) (caller : Caller) :
    slot.lock caller = ⟨some 1, [], [], [caller]⟩ := by
  obtain ⟨ref, waiting, signalled, holding⟩ := slot
  obtain rfl : ref = none := free
  obtain ⟨rfl, rfl, rfl⟩ := sound
  rfl

variable [DecidableEq Caller]

def signal (slot : Slot Caller) (woken : Caller) : Slot Caller :=
  if woken ∈ slot.waiting then
    { slot with waiting := slot.waiting.erase woken, signalled := woken :: slot.signalled }
  else slot

/-- The panic of `Unlock` leaves everything as it is. -/
def unlock (slot : Slot Caller) (caller woken : Caller) : Slot Caller :=
  match slot.ref with
  | none | some 0 => slot
  | some 1 => { slot with ref := none, holding := slot.holding.erase caller }
  | some (ref + 1) =>
    signal { slot with ref := some ref, holding := slot.holding.erase caller } woken

def act (slot : Slot Caller) : Action Caller → Slot Caller
  | .lock caller => slot.lock caller
  | .unlock caller woken => slot.unlock caller woken
  | .wake caller =>
    if caller ∈ slot.signalled then { slot with
      signalled := slot.signalled.erase caller, holding := caller :: slot.holding }
    else slot

/-- Only a holder unlocks, and a signal wakes somebody if anybody waits. -/
def Proper (slot : Slot Caller) : Action Caller → Prop
  | .unlock caller woken => caller ∈ slot.holding ∧ (slot.waiting ≠ [] → woken ∈ slot.waiting)
  | _ => True

theorem Sound.unlock (sound : slot.Sound) (holds : caller ∈ slot.holding)
    (asleep : woken ∈ slot.waiting) : slot.unlock caller woken =
      ⟨some slot.waiting.length, slot.waiting.erase woken, [woken], []⟩ := by
  obtain ⟨waiting, rfl⟩ := sound.held holds
  obtain ⟨count, several⟩ := Nat.exists_eq_add_of_lt (List.length_pos_of_mem asleep)
  dsimp only at asleep several
  simp [Slot.unlock, signal, asleep, several]

theorem Sound.act (sound : slot.Sound) {action : Action Caller} (proper : slot.Proper action) :
    (slot.act action).Sound := by
  cases action with
  | lock caller => grind [Slot.act, Slot.lock, Sound]
  | wake caller => grind [Slot.act, Sound]
  | unlock caller woken =>
    obtain ⟨holds, wakes⟩ := proper
    by_cases asleep : slot.waiting = []
    · obtain ⟨waiting, rfl⟩ := sound.held holds
      cases asleep
      simp [Slot.act, Slot.unlock, Sound]
    · rw [Slot.act, sound.unlock holds (wakes asleep)]
      grind [Sound]

end Slot

variable [DecidableEq Caller]

def step (slots : Key → Slot Caller) (event : Key × Action Caller) : Key → Slot Caller :=
  Function.update slots event.1 ((slots event.1).act event.2)

/-- For every run: a key has at most one owner, and an entry in the map just when it is owned or
waited for; `Lock` acquires a free key; an `Unlock` with sleepers makes one of them the owner, whose
next step returns from `Lock` as the only holder; no step touches another key. -/
theorem kmutex_correct {events : List (Key × Action Caller)}
    (proper : Machine.Meets step (fun slots event => (slots event.1).Proper event.2)
      (fun _ => {}) events) :
    let slots := Machine.drive step (fun _ => {}) events
    (∀ key, (slots key).signalled.length + (slots key).holding.length ≤ 1 ∧
      ((slots key).ref ≠ none ↔
        (slots key).holding ≠ [] ∨ (slots key).signalled ≠ [] ∨ (slots key).waiting ≠ [])) ∧
    (∀ key caller, (slots key).ref = none →
      step slots (key, .lock caller) key = ⟨some 1, [], [], [caller]⟩) ∧
    (∀ key, ∀ caller ∈ (slots key).holding, ∀ woken ∈ (slots key).waiting,
      let after := step slots (key, .unlock caller woken)
      let left := (slots key).waiting.erase woken
      after key = ⟨some (slots key).waiting.length, left, [woken], []⟩ ∧
        step after (key, .wake woken) key =
          ⟨some (slots key).waiting.length, left, [], [woken]⟩) ∧
    ∀ key action other, other ≠ key → step slots (key, action) other = slots other := by
  intro slots
  have sound : ∀ key, (slots key).Sound := by
    refine Machine.invariant_drive (fun slots : Key → Slot Caller => ∀ key, (slots key).Sound)
      (fun _ => ⟨rfl, rfl, rfl⟩) (fun slots event sound met => ?_) proper
    exact (Function.forall_update_iff slots fun _ slot => slot.Sound).mpr
      ⟨(sound event.1).act met, fun key _ => sound key⟩
  have here (slots : Key → Slot Caller) (key : Key) (action : Action Caller) :
      step slots (key, action) key = (slots key).act action := Function.update_self ..
  refine ⟨fun key => ?_, fun key caller free => ?_, fun key caller holds woken asleep => ?_,
    fun key action other apart => Function.update_of_ne apart ..⟩
  · have sound := sound key
    grind [Slot.Sound]
  · rw [here]
    exact (sound key).lock free caller
  · have handed := (sound key).unlock holds asleep
    refine ⟨(here ..).trans handed, ?_⟩
    rw [here, here, Slot.act, handed, Slot.act]
    simp

/-- Two callers wait while a third holds the key; it goes to the second of them. -/
theorem kmutex_correct_handover :
    let slots := Machine.drive step (fun _ : Bool => ({} : Slot Nat))
      [(true, .lock 1), (true, .lock 2), (true, .lock 3)]
    step (step slots (true, .unlock 1 3)) (true, .wake 3) true = ⟨some 2, [2], [], [3]⟩ := by
  have proper : Machine.Meets step (fun slots event => (slots event.1).Proper event.2)
      (fun _ : Bool => ({} : Slot Nat)) [(true, .lock 1), (true, .lock 2), (true, .lock 3)] :=
    ⟨trivial, trivial, trivial, trivial⟩
  exact ((kmutex_correct proper).2.2.1 true 1 (by decide) 3 (by decide)).2

end SingBox.Kmutex
