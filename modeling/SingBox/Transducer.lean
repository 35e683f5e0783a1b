/-
This file is about machines that read one letter at a time and emit some output
for each. A function that works on whole chunks is such a machine in disguise if
it does the same for every way of cutting its input, and two machines are a
channel if what the first emits for a letter makes the second emit that letter.
-/

import Mathlib.Data.List.Basic

namespace Transducer

variable {State Input Output : Type*}

/-- The state a machine is left in and what it has emitted, after a list of letters. -/
def run (step : State → Input → State × List Output) : State → List Input → State × List Output
  | state, [] => (state, [])
  | state, letter :: rest =>
    let later := run step (step state letter).1 rest
    (later.1, (step state letter).2 ++ later.2)

variable {step : State → Input → State × List Output}

@[simp] theorem run_nil (state : State) : run step state [] = (state, []) := rfl

theorem run_cons (state : State) (letter : Input) (rest : List Input) :
    run step state (letter :: rest) =
      ((run step (step state letter).1 rest).1,
        (step state letter).2 ++ (run step (step state letter).1 rest).2) := rfl

theorem run_append (state : State) (first second : List Input) :
    run step state (first ++ second) =
      ((run step (run step state first).1 second).1,
        (run step state first).2 ++ (run step (run step state first).1 second).2) := by
  induction first generalizing state with
  | nil => rfl
  | cons letter rest ih =>
    rw [List.cons_append, run_cons, ih, run_cons, List.append_assoc]

/-- What is emitted for a part of the input is a part of what is emitted for all of it. -/
theorem output_isPrefix (state : State) {first whole : List Input} (part : first <+: whole) :
    (run step state first).2 <+: (run step state whole).2 := by
  obtain ⟨second, rfl⟩ := part
  rw [run_append]
  exact ⟨_, rfl⟩

section Channel

variable {Receiver : Type*} {receive : Receiver → Output → Receiver × List Input}
  (related : State → Receiver → Prop)

/-- The receiver emits the letters that the sender read, if it does so for every letter. -/
theorem run_channel
    (letterwise : ∀ state receiver letter, related state receiver →
      (run receive receiver (step state letter).2).2 = [letter] ∧
        related (step state letter).1 (run receive receiver (step state letter).2).1)
    (letters : List Input) (state : State) (receiver : Receiver)
    (start : related state receiver) :
    (run receive receiver (run step state letters).2).2 = letters ∧
      related (run step state letters).1 (run receive receiver (run step state letters).2).1 := by
  induction letters generalizing state receiver with
  | nil => exact ⟨rfl, start⟩
  | cons letter rest ih =>
    obtain ⟨here, next⟩ := letterwise state receiver letter start
    obtain ⟨later, ends⟩ := ih _ _ next
    rw [run_cons, run_append]
    refine ⟨?_, ends⟩
    rw [here, later]
    rfl

end Channel

end Transducer
