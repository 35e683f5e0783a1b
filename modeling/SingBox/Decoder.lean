/-
This file is about programs that take values from the front of a list of bytes
and may refuse it. A decoder reads some bytes as a value if it takes just these
bytes from every input that starts with them; it refuses them if it fails on
every such input. It settles them by a condition if it reads them where the
condition holds and refuses them elsewhere. All three follow the structure of a
program, so a decoder is verified against a writer piece by piece.
-/

import Mathlib.Data.List.Basic
import Mathlib.Data.List.Forall2
import Mathlib.Data.Nat.Bitwise

/-- A program that takes a value from the front of its input. -/
abbrev Decoder (Error : Type) := StateT (List UInt8) (Except Error)

namespace Decoder

variable {Error Value Result State : Type}

/-- The bytes are taken, and nothing after them. -/
def Reads (decoder : Decoder Error Value) (bytes : List UInt8) (value : Value) : Prop :=
  ∀ rest, decoder.run (bytes ++ rest) = .ok (value, rest)

/-- No input that starts with the bytes is accepted. -/
def Refuses (decoder : Decoder Error Value) (bytes : List UInt8) : Prop :=
  ∀ rest, ∃ err, decoder.run (bytes ++ rest) = .error err

/-- The bytes are read where the condition holds, and refused elsewhere. -/
structure Settles (decoder : Decoder Error Value) (bytes : List UInt8) (good : Prop)
    (value : Value) : Prop where
  reads : good → decoder.Reads bytes value
  refuses : ¬good → decoder.Refuses bytes

/-! ### Rules -/

theorem reads_pure (value : Value) : Reads (pure value : Decoder Error Value) [] value :=
  fun _ => rfl

theorem refuses_throw (err : Error) (bytes : List UInt8) :
    Refuses (throw err : Decoder Error Value) bytes :=
  fun _ => ⟨err, rfl⟩

variable {good : Prop} {bytes : List UInt8} {decoder : Decoder Error Value} {number : Nat}

section Bind

variable {decoder : Decoder Error Value} {next : Value → Decoder Error Result}
  {bytes later : List UInt8} {value : Value} {result : Result}

theorem Reads.bind (first : decoder.Reads bytes value) (second : (next value).Reads later result) :
    Reads (decoder >>= next) (bytes ++ later) result := by
  intro rest
  rw [StateT.run_bind, List.append_assoc, first]
  exact second rest

theorem Reads.bind_refuses (first : decoder.Reads bytes value)
    (second : (next value).Refuses later) : Refuses (decoder >>= next) (bytes ++ later) := by
  intro rest
  rw [StateT.run_bind, List.append_assoc, first]
  exact second rest

theorem Refuses.bind (first : decoder.Refuses bytes) : Refuses (decoder >>= next) bytes := by
  intro rest
  obtain ⟨err, failed⟩ := first rest
  refine ⟨err, ?_⟩
  rw [StateT.run_bind, failed]
  rfl

theorem Refuses.append (refuses : decoder.Refuses bytes) (more : List UInt8) :
    decoder.Refuses (bytes ++ more) := by
  intro rest
  rw [List.append_assoc]
  exact refuses _

theorem Reads.map (reads : decoder.Reads bytes value) (f : Value → Result) :
    Reads (f <$> decoder) bytes (f value) := by
  intro rest
  rw [StateT.run_map, reads]
  rfl

theorem Refuses.map (refuses : decoder.Refuses bytes) (f : Value → Result) :
    Refuses (f <$> decoder) bytes := by
  intro rest
  obtain ⟨err, failed⟩ := refuses rest
  refine ⟨err, ?_⟩
  rw [StateT.run_map, failed]
  rfl

theorem Reads.bind_pure (reads : decoder.Reads bytes value) (f : Value → Result) :
    Reads (decoder >>= fun value => pure (f value)) bytes (f value) := by
  rw [← List.append_nil bytes]
  exact reads.bind (reads_pure _)

theorem Reads.congr {other : Value} (reads : decoder.Reads bytes value) (same : value = other) :
    decoder.Reads bytes other := by
  rwa [← same]

theorem Reads.settles (reads : decoder.Reads bytes value) : decoder.Settles bytes True value :=
  ⟨fun _ => reads, fun never => absurd trivial never⟩

section

variable (settles : decoder.Settles bytes good value)

include settles

theorem Settles.congr {same : Prop} (iff : same ↔ good) : decoder.Settles bytes same value :=
  ⟨fun holds => settles.reads (iff.mp holds), fun fails => settles.refuses (mt iff.mpr fails)⟩

theorem Settles.map (f : Value → Result) : Settles (f <$> decoder) bytes good (f value) :=
  ⟨fun holds => (settles.reads holds).map f, fun fails => (settles.refuses fails).map f⟩

theorem Settles.bind_pure (f : Value → Result) :
    Settles (decoder >>= fun value => pure (f value)) bytes good (f value) :=
  ⟨fun holds => (settles.reads holds).bind_pure f, fun fails => (settles.refuses fails).bind⟩

end

theorem Settles.bind {also : Prop} (first : decoder.Settles bytes good value)
    (second : (next value).Settles later also result) :
    Settles (decoder >>= next) (bytes ++ later) (good ∧ also) result := by
  refine ⟨fun both => (first.reads both.1).bind (second.reads both.2), fun fails => ?_⟩
  by_cases holds : good
  · exact (first.reads holds).bind_refuses (second.refuses fun also => fails ⟨holds, also⟩)
  · exact ((first.refuses holds).append later).bind

theorem Reads.bind_settles (first : decoder.Reads bytes value)
    (second : (next value).Settles later good result) :
    Settles (decoder >>= next) (bytes ++ later) good result :=
  (first.settles.bind second).congr (iff_of_eq (true_and good)).symm

theorem Settles.bind_reads (first : decoder.Settles bytes good value)
    (second : (next value).Reads later result) :
    Settles (decoder >>= next) (bytes ++ later) good result :=
  (first.bind second.settles).congr (iff_of_eq (and_true good)).symm

end Bind

/-! ### Errors -/

/-- The error of a decoder is reported with what it was about. -/
def cause (about : Error → Error) (decoder : Decoder Error Value) : Decoder Error Value :=
  fun input => (decoder input).mapError about

theorem Reads.cause {value : Value} (reads : decoder.Reads bytes value) (about : Error → Error) :
    Reads (decoder.cause about) bytes value := by
  intro rest
  show (decoder (bytes ++ rest)).mapError about = _
  rw [show decoder (bytes ++ rest) = _ from reads rest]
  rfl

theorem Refuses.cause (refuses : decoder.Refuses bytes) (about : Error → Error) :
    Refuses (decoder.cause about) bytes := by
  intro rest
  obtain ⟨err, failed⟩ := refuses rest
  refine ⟨about err, ?_⟩
  show (decoder (bytes ++ rest)).mapError about = _
  rw [show decoder (bytes ++ rest) = _ from failed]
  rfl

theorem Settles.cause {value : Value} (settles : decoder.Settles bytes good value)
    (about : Error → Error) : Settles (decoder.cause about) bytes good value :=
  ⟨fun holds => (settles.reads holds).cause about, fun fails => (settles.refuses fails).cause about⟩

/-! ### Bytes -/

def byte (eof : Error) : Decoder Error UInt8 := fun input =>
  match input with
  | [] => .error eof
  | b :: rest => .ok (b, rest)

/-- So many bytes; an empty input and a short one fail differently. -/
def full (eof unexpected : Error) (count : Nat) : Decoder Error (List UInt8) := fun input =>
  if count ≤ input.length then .ok (input.take count, input.drop count)
  else .error (if input = [] then eof else unexpected)

theorem reads_byte (eof : Error) (b : UInt8) : Reads (byte eof) [b] b := fun _ => rfl

theorem reads_full (eof unexpected : Error) {count : Nat} (length : bytes.length = count) :
    Reads (full eof unexpected count) bytes bytes := by
  intro rest
  have enough : count ≤ (bytes ++ rest).length := by
    rw [List.length_append, length]
    exact Nat.le_add_right _ _
  refine (if_pos enough).trans ?_
  rw [List.take_left' length, List.drop_left' length]

/-! ### Numbers of variable length -/

/-- Seven bits a byte, the lowest first; all bytes but the last have the high bit. -/
def putUvarint (number : Nat) : List UInt8 :=
  if number < 0x80 then [UInt8.ofNat number]
  else UInt8.ofNat (number % 0x80 + 0x80) :: putUvarint (number / 0x80)
decreasing_by omega

/-- The loop that reads such a number of 64 bits, with the number of bytes that may follow. -/
def uvarintLoop (eof unexpected overflow : Error) : Nat → Nat → Decoder Error Nat
  | 0, _ => throw overflow
  | left + 1, number => do
    let b ← byte (if left = 9 then eof else unexpected)
    let shift := 7 * (9 - left)
    if b < 0x80 then
      if left = 0 ∧ b > 1 then throw overflow
      else pure (number ||| b.toNat <<< shift)
    else uvarintLoop eof unexpected overflow left (number ||| (b &&& 0x7f).toNat <<< shift)

def uvarint (eof unexpected overflow : Error) : Decoder Error Nat :=
  uvarintLoop eof unexpected overflow 10 0

theorem or_shiftLeft {low high shift : Nat} (small : low < 2 ^ shift) :
    low ||| high <<< shift = low + high * 2 ^ shift := by
  rw [Nat.or_comm, ← Nat.shiftLeft_add_eq_or_of_lt small, Nat.shiftLeft_eq, Nat.add_comm]

section

variable (eof unexpected overflow : Error) {left start : Nat}
  (small : start < 2 ^ (7 * (9 - left))) (fits : number < 2 ^ (7 * left + 1))

include small fits

/-- The last byte of a number. -/
theorem reads_uvarintLoop_last (short : number < 0x80) :
    Reads (uvarintLoop eof unexpected overflow (left + 1) start) (putUvarint number)
      (start + number * 2 ^ (7 * (9 - left))) := by
  have value : (UInt8.ofNat number).toNat = number := by
    exact Nat.mod_eq_of_lt (short.trans (by decide))
  have last : UInt8.ofNat number < 0x80 := by
    rw [UInt8.lt_iff_toNat_lt, value]
    exact short
  have bit : ¬(left = 0 ∧ UInt8.ofNat number > 1) := by
    rintro ⟨rfl, more⟩
    have two := UInt8.lt_iff_toNat_lt.mp more
    rw [value] at two
    exact absurd fits (Nat.not_lt.mpr two)
  rw [putUvarint, if_pos short, uvarintLoop, ← List.append_nil [UInt8.ofNat number]]
  refine (reads_byte _ _).bind ?_
  rw [if_pos last, if_neg bit, value, or_shiftLeft small]
  exact reads_pure _

theorem reads_uvarintLoop (few : left < 10) :
    Reads (uvarintLoop eof unexpected overflow (left + 1) start) (putUvarint number)
      (start + number * 2 ^ (7 * (9 - left))) := by
  induction left generalizing start number with
  | zero =>
    exact reads_uvarintLoop_last _ _ _ small fits (fits.trans (by decide))
  | succ left ih =>
    by_cases short : number < 0x80
    · exact reads_uvarintLoop_last _ _ _ small fits short
    · have value : (UInt8.ofNat (number % 0x80 + 0x80)).toNat = number % 0x80 + 0x80 := by
        exact Nat.mod_eq_of_lt (by omega)
      have more : ¬UInt8.ofNat (number % 0x80 + 0x80) < 0x80 := by
        rw [UInt8.lt_iff_toNat_lt, value]
        exact Nat.not_lt.mpr (Nat.le_add_left _ _)
      have digit : (UInt8.ofNat (number % 0x80 + 0x80) &&& 0x7f).toNat = number % 0x80 := by
        rw [UInt8.toNat_and, value]
        refine (Nat.and_two_pow_sub_one_eq_mod _ 7).trans ?_
        rw [Nat.add_mod_right, Nat.mod_mod]
      have width : 7 * (9 - left) = 7 * (9 - (left + 1)) + 7 := by omega
      have power : 2 ^ (7 * (9 - left)) = 0x80 * 2 ^ (7 * (9 - (left + 1))) := by
        rw [width, Nat.pow_add, Nat.mul_comm]
      have small' : start + number % 0x80 * 2 ^ (7 * (9 - (left + 1))) < 2 ^ (7 * (9 - left)) := by
        have digits : number % 0x80 + 1 ≤ 0x80 := Nat.mod_lt _ (by decide)
        have bound := Nat.mul_le_mul_right (2 ^ (7 * (9 - (left + 1)))) digits
        rw [Nat.succ_mul] at bound
        omega
      have fits' : number / 0x80 < 2 ^ (7 * left + 1) := by
        refine Nat.div_lt_of_lt_mul (fits.trans_eq ?_)
        rw [show 7 * (left + 1) + 1 = 7 + (7 * left + 1) by omega, Nat.pow_add]
      have rest := ih small' fits' (Nat.lt_of_succ_lt few)
      have sum : start + number % 0x80 * 2 ^ (7 * (9 - (left + 1))) +
          number / 0x80 * 2 ^ (7 * (9 - left)) =
          start + number * 2 ^ (7 * (9 - (left + 1))) := by
        rw [power, Nat.add_assoc, ← Nat.mul_assoc, ← Nat.add_mul, Nat.mul_comm _ 0x80,
          Nat.mod_add_div]
      rw [sum] at rest
      rw [putUvarint, if_neg short, uvarintLoop]
      refine (reads_byte _ _).bind ?_
      rw [if_neg more, digit, or_shiftLeft small]
      exact rest

end

theorem reads_uvarint (eof unexpected overflow : Error) (fits : number < 2 ^ 64) :
    Reads (uvarint eof unexpected overflow) (putUvarint number) number := by
  have reads := reads_uvarintLoop eof unexpected overflow
    (Nat.one_pos : 0 < 2 ^ (7 * (9 - 9))) fits (by decide : 9 < 10)
  rwa [Nat.zero_add, Nat.sub_self, Nat.mul_zero, Nat.pow_zero, Nat.mul_one] at reads

/-! ### Counted repetition -/

/-- A body for so many indices, the first of them given. -/
def timesFrom (body : Nat → Decoder Error Value) (first : Nat) : Nat → Decoder Error (List Value)
  | 0 => pure []
  | count + 1 => do
    let value ← body first
    let values ← timesFrom body (first + 1) count
    pure (value :: values)

def times (count : Nat) (body : Nat → Decoder Error Value) : Decoder Error (List Value) :=
  timesFrom body 0 count

section Times

variable {Element : Type} {body : Nat → Decoder Error Value} {good : Element → Prop}
  {read : Element → Value}

variable {chunks : List (List UInt8)} {elements : List Element}

section

variable
  (each : List.Forall₂ (fun element chunk => ∀ index,
    (body index).Settles chunk (good element) (read element)) elements chunks)

include each

/-- A list of chunks is settled by what settles each of them. -/
theorem settles_timesFrom (first : Nat) :
    Settles (timesFrom body first elements.length) chunks.flatten
      (∀ element ∈ elements, good element) (elements.map read) := by
  induction each generalizing first with
  | nil => exact (reads_pure _).settles.congr (by simp)
  | cons here _ ih =>
    refine ((here first).bind ?_).congr List.forall_mem_cons
    exact (ih (first + 1)).bind_pure _

theorem settles_times : Settles (times elements.length body) chunks.flatten
      (∀ element ∈ elements, good element) (elements.map read) :=
  settles_timesFrom each 0

end

end Times

/-! ### Loops -/

/-- A step is repeated until it gives a result. A step that takes no byte would be repeated
forever, and is stopped. -/
def loop (stuck : Error) (step : State → Decoder Error (State ⊕ Value)) (state : State) :
    Decoder Error Value := fun input =>
  match step state input with
  | .error err => .error err
  | .ok (.inr value, rest) => .ok (value, rest)
  | .ok (.inl state, rest) =>
    if rest.length < input.length then loop stuck step state rest else .error stuck
termination_by input => input.length

section Loop

variable {stuck : Error} {step : State → Decoder Error (State ⊕ Value)} {state next : State}
  {bytes later : List UInt8} {value : Value}

theorem Reads.loop_done (reads : (step state).Reads bytes (.inr value)) :
    Reads (loop stuck step state) bytes value := by
  intro rest
  have here : step state (bytes ++ rest) = .ok (.inr value, rest) := reads rest
  show loop stuck step state (bytes ++ rest) = _
  rw [loop, here]

theorem loop_next (reads : (step state).Reads bytes (.inl next)) (taken : bytes ≠ [])
    (rest : List UInt8) :
    (loop stuck step state).run (bytes ++ rest) = (loop stuck step next).run rest := by
  have here : step state (bytes ++ rest) = .ok (.inl next, rest) := reads rest
  have shorter : rest.length < (bytes ++ rest).length := by
    rw [List.length_append]
    exact Nat.lt_add_of_pos_left (List.length_pos_iff.mpr taken)
  show loop stuck step state (bytes ++ rest) = _
  rw [loop, here]
  exact if_pos shorter

/-- A step that is taken, and the rest of the loop. -/
theorem Reads.loop_settles (reads : (step state).Reads bytes (.inl next)) (taken : bytes ≠ [])
    (rest : Settles (loop stuck step next) later good value) :
    Settles (loop stuck step state) (bytes ++ later) good value := by
  refine ⟨fun holds input => ?_, fun fails input => ?_⟩
  · rw [List.append_assoc, loop_next reads taken]
    exact rest.reads holds input
  · rw [List.append_assoc, loop_next reads taken]
    exact rest.refuses fails input

theorem Refuses.loop (refuses : (step state).Refuses bytes) :
    Refuses (Decoder.loop stuck step state) bytes := by
  intro rest
  obtain ⟨err, failed⟩ := refuses rest
  have here : step state (bytes ++ rest) = .error err := failed
  refine ⟨err, ?_⟩
  show Decoder.loop stuck step state (bytes ++ rest) = _
  rw [Decoder.loop, here]

theorem Settles.loop {also : Prop} (settles : (step state).Settles bytes good (.inl next))
    (taken : bytes ≠ []) (rest : Settles (Decoder.loop stuck step next) later also value) :
    Settles (Decoder.loop stuck step state) (bytes ++ later) (good ∧ also) value := by
  by_cases holds : good
  · exact ((settles.reads holds).loop_settles taken rest).congr (and_iff_right holds)
  · exact ⟨fun both => absurd both.1 holds, fun _ => (settles.refuses holds).loop.append later⟩

end Loop

end Decoder
