/-
This file embeds the messages of the sudoku transport: a magic, a type, a length of two bytes
and a payload. The writer takes payloads of up to 65536 bytes, and the length of such a payload
is written as zero.
-/

import SingBox.BigEndian
import SingBox.Decoder

namespace SingBox.Kip

open Decoder BigEndian

/-- The bytes of `"kip"`. -/
def kipMagic : List UInt8 := [107, 105, 112]

def kipMaxPayload : Nat := 64 * 1024

structure KIPMessage where
  type : UInt8
  payload : List UInt8

def writeKIPMessage (message : KIPMessage) : Except String (List UInt8) :=
  let length := message.payload.length
  if length > kipMaxPayload then .error s!"kip protocol error: payload too large: {length}"
  else .ok (kipMagic ++ [message.type] ++ put 2 length ++ message.payload)

def readKIPMessage : Decoder String KIPMessage := do
  let hdr ← full "EOF" "unexpected EOF" 6
  let n := get (hdr.drop 4)
  if hdr.take 3 ≠ kipMagic then throw "kip protocol error: bad magic"
  else if n > kipMaxPayload then throw s!"kip protocol error: invalid payload length: {n}"
  else if n > 0 then return ⟨hdr.getD 3 0, ← full "EOF" "unexpected EOF" n⟩
  else return ⟨hdr.getD 3 0, []⟩

theorem reads_frame (type : UInt8) (payload : List UInt8) (fits : payload.length < kipMaxPayload) :
    Reads readKIPMessage (kipMagic ++ [type] ++ put 2 payload.length ++ payload)
      ⟨type, payload⟩ := by
  have magic : ((kipMagic ++ [type] ++ put 2 payload.length).take 3) = kipMagic := rfl
  have length : get ((kipMagic ++ [type] ++ put 2 payload.length).drop 4) = payload.length :=
    get_put fits
  refine (reads_full _ _ (by simp [kipMagic])).bind ?_
  dsimp only
  rw [if_neg (not_not.mpr magic), length, if_neg (Nat.lt_asymm fits)]
  split_ifs with some
  · exact (reads_full _ _ rfl).bind_pure _
  · rw [List.length_eq_zero_iff.mp (Nat.eq_zero_of_not_pos some)]
    exact reads_pure _

/-- A payload of the greatest length is left in the stream. -/
theorem reads_longest (type : UInt8) :
    Reads readKIPMessage (kipMagic ++ [type] ++ put 2 kipMaxPayload) ⟨type, []⟩ :=
  reads_frame type [] (by decide)

theorem run_times_iff {bytes later : List UInt8} {message other : KIPMessage}
    {rest : List KIPMessage} (reads : Reads readKIPMessage bytes message) (first count : Nat) :
    (timesFrom (fun _ => readKIPMessage) first (count + 1)).run (bytes ++ later) =
        .ok (other :: rest, []) ↔
      message = other ∧
        (timesFrom (fun _ => readKIPMessage) (first + 1) count).run later = .ok (rest, []) := by
  rw [timesFrom, StateT.run_bind, reads]
  change Except.bind ((timesFrom _ _ _).run later) _ = _ ↔ _
  cases (timesFrom _ (first + 1) count).run later with
  | error err => exact ⟨nofun, fun both => nomatch both.2⟩
  | ok result =>
    obtain ⟨values, left⟩ := result
    constructor
    · rintro ⟨⟩
      exact ⟨rfl, rfl⟩
    · rintro ⟨rfl, ⟨⟩⟩
      rfl

/-- For every sequence of messages that the writer accepts, the messages are read back from
their bytes just when every payload is shorter than the greatest length. -/
theorem readKIPMessages_iff {messages : List KIPMessage} {chunks : List (List UInt8)}
    (written : List.Forall₂ (fun message bytes => writeKIPMessage message = .ok bytes)
      messages chunks) :
    (times messages.length fun _ => readKIPMessage).run chunks.flatten = .ok (messages, []) ↔
      ∀ message ∈ messages, message.payload.length < kipMaxPayload := by
  unfold times
  generalize 0 = first
  induction written generalizing first with
  | nil => exact iff_of_true rfl nofun
  | @cons message _ rest chunks accepted _ ih =>
    obtain ⟨type, payload⟩ := message
    rw [writeKIPMessage] at accepted
    split_ifs at accepted with long
    cases accepted
    rw [List.forall_mem_cons, List.length_cons, List.flatten_cons]
    by_cases fits : payload.length < kipMaxPayload
    · rw [run_times_iff (reads_frame type payload fits), ih, and_iff_right rfl, and_iff_right fits]
    · have longest : payload.length = kipMaxPayload :=
        Nat.le_antisymm (Nat.not_lt.mp long) (Nat.not_lt.mp fits)
      refine iff_of_false (fun same => ?_) fun both => fits both.1
      rw [longest, List.append_assoc, run_times_iff (reads_longest type)] at same
      cases same.1
      exact fits (by decide)

/-- Three messages, one of them empty. -/
theorem readKIPMessages_short : (times 3 fun _ => readKIPMessage).run
    [107, 105, 112, 1, 0, 1, 5, 107, 105, 112, 2, 0, 0, 107, 105, 112, 1, 0, 2, 6, 7] =
      .ok ([⟨1, [5]⟩, ⟨2, []⟩, ⟨1, [6, 7]⟩], []) :=
  (@readKIPMessages_iff [⟨1, [5]⟩, ⟨2, []⟩, ⟨1, [6, 7]⟩]
    [[107, 105, 112, 1, 0, 1, 5], [107, 105, 112, 2, 0, 0], [107, 105, 112, 1, 0, 2, 6, 7]]
    (.cons rfl (.cons rfl (.cons rfl .nil)))).mpr (by decide)

/-- A payload of 65536 bytes is accepted, and an empty one is read. -/
theorem readKIPMessage_longest : ∃ bytes,
    writeKIPMessage ⟨2, List.replicate 65536 0⟩ = .ok bytes ∧
      readKIPMessage.run bytes = .ok (⟨2, []⟩, List.replicate 65536 0) := by
  have length : (List.replicate 65536 (0 : UInt8)).length = kipMaxPayload := List.length_replicate
  generalize List.replicate 65536 (0 : UInt8) = payload at length
  refine ⟨_, ?_, reads_longest 2 payload⟩
  simp [writeKIPMessage, length]

end SingBox.Kip
