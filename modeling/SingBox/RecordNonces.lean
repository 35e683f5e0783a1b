/-
This file is about the nonces of the record layer: an epoch and a sequence number. A call of
`Write` may stop in any round, because the frame cannot be written or no random number can be
drawn, and the counters have moved on by then.
-/

import SingBox.RecordOrder

namespace SingBox.RecordConn

/-- How a round of the loop of `Write` ends after its record was sealed. -/
inductive Ending where
  | sent
  | unwritten
  | undrawn

def Sender.round (random : Nat → UInt64) (sender : Sender) (length : Nat) : Ending → Sender
  | .sent => sender.next random length
  | .unwritten => { sender with sendSeq := sender.sendSeq + 1 }
  | .undrawn => { sender.next random length with sendSeq := sender.sendSeq + 1 }

/-- A call of `Write`: the rounds that go well, and how the next one ends if it seals a record. -/
structure Call where
  p : List UInt8
  sent : Nat
  failure : Option Ending

def Call.rounds (call : Call) : List (List UInt8 × Ending) :=
  let all := chunks call.p.length call.p
  (all.take call.sent).map (·, .sent) ++ (all.drop call.sent).zip call.failure.toList

/-- The records that are sealed, and the sender after them. -/
def Sender.sealed (cipher : Cipher) (random : Nat → UInt64) (sender : Sender) :
    List (List UInt8 × Ending) → List Record × Sender
  | [] => ([], sender)
  | (chunk, ending) :: rest =>
    let later := (sender.round random chunk.length ending).sealed cipher random rest
    (sender.record cipher chunk :: later.1, later.2)

variable (cipher : Cipher) (random : Nat → UInt64) (sender : Sender)

theorem Sender.round_cases (length : Nat) (ending : Ending) :
    let after := sender.round random length ending
    after.sendEpoch = sender.sendEpoch ∧ after.sendSeq = sender.sendSeq + 1 ∧
        after.drawn = sender.drawn ∨
      after.sendEpoch = sender.sendEpoch + 1 ∧ after.drawn = sender.drawn + 1 := by
  cases ending with
  | sent => exact sender.next_cases random length
  | unwritten => exact .inl ⟨rfl, rfl, rfl⟩
  | undrawn => exact (sender.next_cases random length).imp_left fun kept => ⟨kept.1, rfl, kept.2.2⟩

theorem countP_own (chunk : List UInt8) (rest : List Record) :
    (sender.record cipher chunk :: rest).countP (·.epoch = sender.sendEpoch) =
      rest.countP (·.epoch = sender.sendEpoch) + 1 :=
  List.countP_cons_of_pos (decide_eq_true rfl)

/-- A record is some epochs ahead of the sender, or some places ahead in its epoch. -/
theorem Sender.ahead (rounds : List (List UInt8 × Ending)) :
    let result := sender.sealed cipher random rounds
    sender.drawn ≤ result.2.drawn ∧ ∀ record ∈ result.1, ∃ bumps,
      sender.drawn + bumps ≤ result.2.drawn ∧
        record.epoch = sender.sendEpoch + .ofNat bumps ∧ (bumps = 0 →
          ∃ place < result.1.countP (·.epoch = sender.sendEpoch),
            record.seq = sender.sendSeq + .ofNat place) := by
  induction rounds generalizing sender with
  | nil => exact ⟨le_rfl, nofun⟩
  | cons first rest ih =>
    obtain ⟨more, later⟩ := ih (sender.round random first.1.length first.2)
    have moved := sender.round_cases random first.1.length first.2
    have own := countP_own cipher sender first.1
    refine ⟨by grind [sealed], fun record member => ?_⟩
    rcases List.mem_cons.mp member with rfl | old
    · exact ⟨0, by grind [sealed], (UInt32.add_zero _).symm, fun _ =>
        ⟨0, by grind [sealed], (UInt64.add_zero _).symm⟩⟩
    · obtain ⟨bumps, bound, epoch, places⟩ := later record old
      rcases moved with ⟨sameEpoch, nextSeq, sameDrawn⟩ | ⟨nextEpoch, nextDrawn⟩
      · refine ⟨bumps, sameDrawn ▸ bound, sameEpoch ▸ epoch, fun none => ?_⟩
        obtain ⟨place, inside, seq⟩ := places none
        rw [sameEpoch] at inside
        refine ⟨place + 1, (Nat.succ_lt_succ inside).trans_eq (own _).symm, ?_⟩
        rw [seq, nextSeq, UInt64.ofNat_add]
        grind
      · refine ⟨bumps + 1, by grind [sealed], ?_, nofun⟩
        rw [epoch, nextEpoch, UInt32.ofNat_add]
        grind

theorem eq_zero_of_add_eq {epoch : UInt32} {bumps : Nat} (small : bumps < 2 ^ 32)
    (same : epoch = epoch + .ofNat bumps) : bumps = 0 := by
  have values := congrArg UInt32.toNat same
  have range := epoch.toNat_lt
  rw [UInt32.toNat_add, UInt32.toNat_ofNat'] at values
  omega

theorem pair_of_header {one two : Record} (same : one.header = two.header) :
    (one.epoch, one.seq) = (two.epoch, two.seq) := by
  have parsed (record : Record) :
      ((parse record.header).epoch, (parse record.header).seq) = (record.epoch, record.seq) := by
    have whole := parse_header { record with ciphertext := [] }
    rw [List.append_nil] at whole
    exact congrArg (fun record => (record.epoch, record.seq)) whole
  rw [← parsed, same, parsed]

/-- Between two calls of `Rekey`, whatever is written and wherever a call fails: no two records
are sealed with the same epoch and sequence number, and so no two with the same nonce. -/
theorem nonces_distinct (calls : List Call)
    (few : (sender.sealed cipher random (calls.flatMap Call.rounds)).2.drawn <
      sender.drawn + (2 ^ 32 - 1))
    (short : ∀ epoch, (sender.sealed cipher random (calls.flatMap Call.rounds)).1.countP
      (·.epoch = epoch) < 2 ^ 64) :
    (sender.sealed cipher random (calls.flatMap Call.rounds)).1.Pairwise fun one two =>
      (one.epoch, one.seq) ≠ (two.epoch, two.seq) ∧ one.header ≠ two.header := by
  generalize calls.flatMap Call.rounds = rounds at few short ⊢
  induction rounds generalizing sender with
  | nil => exact .nil
  | cons first rest ih =>
    obtain ⟨more, later⟩ := (sender.round random first.1.length first.2).ahead cipher random rest
    have total := (countP_own ..).symm.trans_lt (short sender.sendEpoch)
    have moved := sender.round_cases random first.1.length first.2
    rw [Sender.sealed] at few
    dsimp only at few moved
    refine List.pairwise_cons.mpr ⟨fun record old => ?_, ih _ (by omega) fun epoch => ?_⟩
    · suffices apart : (sender.sendEpoch, sender.sendSeq) ≠ (record.epoch, record.seq) from
        ⟨apart, fun same => apart (pair_of_header same)⟩
      intro same
      obtain ⟨sameEpoch, sameSeq⟩ := Prod.mk.inj same
      obtain ⟨bumps, bound, epoch, places⟩ := later record old
      rw [← sameEpoch] at epoch
      rw [← sameSeq] at places
      rcases moved with ⟨kept, nextSeq, sameDrawn⟩ | ⟨nextEpoch, nextDrawn⟩
      · rw [kept] at epoch places
        obtain ⟨place, inside, seq⟩ := places (eq_zero_of_add_eq (by omega) epoch)
        rw [nextSeq, UInt64.add_assoc, UInt64.left_eq_add, UInt64.add_comm] at seq
        refine ofNat_succ_ne_zero place (by omega) ?_
        rwa [UInt64.ofNat_add]
      · rw [nextEpoch, UInt32.add_assoc, UInt32.add_comm 1] at epoch
        have passed : sender.sendEpoch = sender.sendEpoch + .ofNat (bumps + 1) := by
          rw [UInt32.ofNat_add]
          exact epoch
        exact nomatch eq_zero_of_add_eq (by omega) passed
    · exact (List.sublist_cons_self ..).countP_le.trans_lt (short epoch)

theorem nonces_distinct_failed :
    let calls : List Call := [⟨[1], 0, some .unwritten⟩, ⟨[2], 1, none⟩]
    let result := Sender.sealed ⟨fun _ _ _ _ => [], fun _ _ _ _ => none⟩ (fun _ => 7) ⟨1, 2, 0, 0, 0⟩
      (calls.flatMap Call.rounds)
    result.1.length = 2 ∧ result.1.Pairwise fun one two =>
      (one.epoch, one.seq) ≠ (two.epoch, two.seq) ∧ one.header ≠ two.header := by
  intro calls result
  exact ⟨by decide +kernel, nonces_distinct _ _ _ calls (by decide +kernel) fun _ =>
    List.countP_le_length.trans_lt (by decide +kernel)⟩

end SingBox.RecordConn
