/-
This file is about runs of a deterministic machine, given by its step function.
The two rules are the ones every development of a state machine needs: what holds
at the start and is kept by every step that meets a side condition holds along
every run whose steps all meet it, and a machine whose steps lower a well-founded
measure until it has finished does finish. A machine may also be driven by events;
the first rule is then about the events of a list.
-/

import Mathlib.Order.WellFounded

namespace Machine

variable {State : Type*} (step : State → State)

/-- The state after the given number of steps. -/
def run (start : State) : Nat → State
  | 0 => start
  | count + 1 => step (run start count)

theorem run_add (start : State) (first second : Nat) :
    run step start (first + second) = run step (run step start first) second := by
  induction second with
  | zero => rfl
  | succ count ih => exact congrArg step ih

variable {step} {start : State} {condition : State → Prop} (invariant : State → Prop)

/-- What the start has and every step under the condition keeps, the run has. -/
theorem invariant_run (initial : invariant start)
    (kept : ∀ state, invariant state → condition state → invariant (step state))
    (met : ∀ count, condition (run step start count)) (count : Nat) :
    invariant (run step start count) := by
  induction count with
  | zero => exact initial
  | succ count ih => exact kept _ ih (met count)

/-- What the start has and every step keeps, the run has. -/
theorem invariant_run_of_step (initial : invariant start)
    (kept : ∀ state, invariant state → invariant (step state)) (count : Nat) :
    invariant (run step start count) :=
  invariant_run invariant initial (fun state holds (_ : True) => kept state holds)
    (fun _ => trivial) count

/-- A machine whose measure decreases until it has finished does finish. -/
theorem finishes_of_measure {Rank : Type*} {less : Rank → Rank → Prop}
    (wellFounded : WellFounded less) (measure : State → Rank) {finished : State → Prop}
    (initial : invariant start)
    (kept : ∀ state, invariant state → condition state → invariant (step state))
    (decreases : ∀ state, invariant state → condition state → ¬finished state →
      less (measure (step state)) (measure state))
    (met : ∀ count, condition (run step start count)) :
    ∃ count, finished (run step start count) := by
  by_contra never
  have unfinished : ∀ count, ¬finished (run step start count) := fun count done =>
    never ⟨count, done⟩
  have holds := invariant_run invariant initial kept met
  obtain ⟨_, ⟨count, rfl⟩, minimal⟩ := wellFounded.has_min
    (Set.range fun count => measure (run step start count)) ⟨_, 0, rfl⟩
  exact minimal _ ⟨count + 1, rfl⟩ (decreases _ (holds count) (met count) (unfinished count))

/-! ### Machines that are driven by events -/

section Events

variable {Event : Type*} (react : State → Event → State)

def drive (start : State) (events : List Event) : State := events.foldl react start

theorem drive_append (start : State) (first second : List Event) :
    drive react start (first ++ second) = drive react (drive react start first) second :=
  List.foldl_append

/-- Every event of a run meets the condition in the state in which it happens. -/
def Meets (condition : State → Event → Prop) : State → List Event → Prop
  | _, [] => True
  | state, event :: events => condition state event ∧ Meets condition (react state event) events

variable {react} {holds also : State → Event → Prop}

variable {events : List Event}

/-- What the start has and every event under the condition keeps, the end of a run has. -/
theorem invariant_drive (initial : invariant start)
    (kept : ∀ state event, invariant state → holds state event → invariant (react state event))
    (met : Meets react holds start events) : invariant (drive react start events) := by
  induction events generalizing start with
  | nil => exact initial
  | cons event events ih =>
    exact ih (kept start event initial met.1) met.2

/-- What the start has and every event keeps, the end of a run has. -/
theorem invariant_events (initial : invariant start)
    (kept : ∀ state event, invariant state → invariant (react state event)) (events : List Event) :
    invariant (drive react start events) := by
  induction events generalizing start with
  | nil => exact initial
  | cons event events ih =>
    exact ih (kept start event initial)

theorem Meets.and (first : Meets react holds start events)
    (second : Meets react also start events) :
    Meets react (fun state event => holds state event ∧ also state event) start events := by
  induction events generalizing start with
  | nil => trivial
  | cons event events ih =>
    exact ⟨⟨first.1, second.1⟩, ih first.2 second.2⟩

/-- What is true of all events of a run may be added to the condition. -/
theorem Meets.and_of_mem {each : Event → Prop} (met : Meets react holds start events)
    (all : ∀ event ∈ events, each event) :
    Meets react (fun state event => holds state event ∧ each event) start events := by
  induction events generalizing start with
  | nil => trivial
  | cons event events ih =>
    exact ⟨⟨met.1, all event List.mem_cons_self⟩,
      ih met.2 fun later member => all later (List.mem_cons_of_mem _ member)⟩

instance {condition : State → Event → Prop} [∀ state event, Decidable (condition state event)] :
    (start : State) → (events : List Event) → Decidable (Meets react condition start events)
  | _, [] => isTrue trivial
  | start, event :: events =>
    let _ : Decidable (Meets react condition (react start event) events) :=
      instDecidableMeets (react start event) events
    inferInstanceAs (Decidable (_ ∧ _))

end Events

end Machine
