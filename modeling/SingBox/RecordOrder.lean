/-
This file is about an attacker who passes on records as they like. With an ideal
cipher the receiver accepts only records that were sent. The ledger of a sender says
where they are: the epochs do not decrease, and within an epoch the sequence numbers
count up, fewer than `2 ^ 64` of them. So the records that are accepted come in the
order in which they were sent, each once, and within an epoch none is missing.

At the change of an epoch the receiver has nothing to compare with: the sequence number
starts at random, and the last one of the epoch before is not known. Records that are
dropped next to the change are not missed.
-/

import SingBox.Log
import SingBox.RecordStream
import Mathlib

namespace SingBox

open List Log

namespace RecordConn

open Receiver
open Sender hiding next

variable {cipher : Cipher} {random : Nat → UInt64}

/-! ### The ledger of a sender -/

/-- What the positions of records say about their places: the epochs do not decrease, the next
sequence number of an epoch is the next place, and no position comes twice. -/
structure Sequenced (sent : List Record) : Prop where
  ordered : ∀ (first second : Nat) (one two : Record), sent[first]? = some one →
    sent[second]? = some two → first ≤ second → one.epoch ≤ two.epoch
  adjacent : ∀ (first second : Nat) (one two : Record), sent[first]? = some one →
    sent[second]? = some two → one.epoch = two.epoch → two.seq = one.seq + 1 → second = first + 1
  apart : ∀ (first second : Nat) (one two : Record), sent[first]? = some one →
    sent[second]? = some two → one.epoch = two.epoch → one.seq = two.seq → first = second

/-- The records that were sent, for a sender that has sent some of them in its epoch. -/
structure Ledger (sent : List Record) (sender : Sender) (age : Nat) : Prop extends
    Sequenced sent where
  recent : ∀ (index : Nat) (record : Record), sent[index]? = some record →
    sent.length ≤ index + age → record.epoch = sender.sendEpoch ∧
      record.seq + UInt64.ofNat (sent.length - index) = sender.sendSeq
  older : ∀ (index : Nat) (record : Record), sent[index]? = some record →
    index + age < sent.length → record.epoch < sender.sendEpoch

theorem ofNat_eq_one {number : Nat} (small : number < 2 ^ 64)
    (one : UInt64.ofNat number = 1) : number = 1 := by
  have values := congrArg UInt64.toNat one
  rw [UInt64.toNat_ofNat', Nat.mod_eq_of_lt small] at values
  exact values

theorem ofNat_succ_ne_zero (number : Nat) (small : number + 1 < 2 ^ 64) :
    UInt64.ofNat (number + 1) ≠ 0 := by
  intro zero
  have values := congrArg UInt64.toNat zero
  rw [UInt64.toNat_ofNat', Nat.mod_eq_of_lt small] at values
  exact absurd values (Nat.succ_ne_zero _)

variable {index : Nat} {sent : List Record} {sendEpoch : UInt32} {receiver : Receiver}
  {one two : Record}

section Append

variable {sent : List Record} {sender : Sender} {age : Nat} {record : Record}

section

variable (ledger : Ledger sent sender age)

include ledger

/-- Where a record has the epoch of the sender, it is one of the recent ones. -/
theorem Ledger.seq_of_epoch {found : Record} (listed : sent[index]? = some found)
    (epoch : found.epoch = sender.sendEpoch) : sent.length ≤ index + age ∧
      found.seq + UInt64.ofNat (sent.length - index) = sender.sendSeq := by
  rcases Nat.lt_or_ge (index + age) sent.length with old | new
  · exact absurd (epoch ▸ ledger.older index found listed old) (UInt32.lt_irrefl _)
  · exact ⟨new, (ledger.recent index found listed new).2⟩

theorem Ledger.le_epoch {found : Record} (listed : sent[index]? = some found) :
    found.epoch ≤ sender.sendEpoch := by
  rcases Nat.lt_or_ge (index + age) sent.length with old | new
  · exact UInt32.le_of_lt (ledger.older index found listed old)
  · rw [(ledger.recent index found listed new).1]
    exact UInt32.le_refl _

section

variable (young : age < 2 ^ 63) (epoch : record.epoch = sender.sendEpoch)
  (seq : record.seq = sender.sendSeq)

include young epoch seq

/-- The positions after one more record. -/
theorem Ledger.sequenced : Sequenced (sent ++ [record]) := by
  have fresh {place : Nat} {other : _} (old : sent[place]? = some other)
      (same : other.epoch = sender.sendEpoch) : other.seq ≠ record.seq := by
    intro equal
    obtain ⟨recent, counted⟩ := ledger.seq_of_epoch old same
    have inside := (List.getElem?_eq_some_iff.mp old).1
    rw [equal, seq, UInt64.add_eq_left] at counted
    refine absurd ?_ (ofNat_succ_ne_zero (sent.length - place - 1) (by omega))
    rwa [Nat.sub_add_cancel (by omega)]
  refine ⟨fun first second one two isFirst isSecond before => ?_,
    fun first second one two isFirst isSecond same next => ?_,
    fun first second one two isFirst isSecond same equal => ?_⟩
  · rcases snoc_cases isFirst with old | ⟨rfl, rfl⟩ <;>
      rcases snoc_cases isSecond with oldToo | ⟨rfl, rfl⟩
    · exact ledger.ordered first second one two old oldToo before
    · exact epoch ▸ ledger.le_epoch old
    · have inside := (List.getElem?_eq_some_iff.mp oldToo).1
      omega
    · exact UInt32.le_refl _
  · rcases snoc_cases isFirst with old | ⟨rfl, rfl⟩ <;>
      rcases snoc_cases isSecond with oldToo | ⟨rfl, rfl⟩
    · exact ledger.adjacent first second one two old oldToo same next
    · obtain ⟨recent, counted⟩ := ledger.seq_of_epoch old (same.trans epoch)
      have one : UInt64.ofNat (sent.length - first) = 1 :=
        UInt64.add_left_inj one.seq |>.mp ((UInt64.add_comm _ _).trans
          (counted.trans (seq.symm.trans (next.trans (UInt64.add_comm _ _)))))
      have := ofNat_eq_one (by omega) one
      omega
    · obtain ⟨recent, counted⟩ := ledger.seq_of_epoch oldToo (same.symm.trans epoch)
      rw [next, seq, UInt64.add_assoc, UInt64.add_eq_left] at counted
      refine absurd ?_ (ofNat_succ_ne_zero (sent.length - second) (by omega))
      rw [UInt64.ofNat_add, UInt64.add_comm]
      exact counted
    · rw [UInt64.left_eq_add] at next
      exact absurd next (by decide)
  · rcases snoc_cases isFirst with old | ⟨rfl, rfl⟩ <;>
      rcases snoc_cases isSecond with oldToo | ⟨rfl, rfl⟩
    · exact ledger.apart first second one two old oldToo same equal
    · exact absurd equal (fresh old (same.trans epoch))
    · exact absurd equal.symm (fresh oldToo (same.symm.trans epoch))
    · rfl

/-- A record within an epoch. -/
theorem Ledger.keep {next : Sender} (same : next.sendEpoch = sender.sendEpoch)
    (counted : next.sendSeq = sender.sendSeq + 1) : Ledger (sent ++ [record]) next (age + 1) := by
  refine ⟨ledger.sequenced young epoch seq, fun index found listed new => ?_,
    fun index found listed old => ?_⟩ <;> rw [length_append, length_singleton] at *
  · rcases snoc_cases listed with before | ⟨rfl, rfl⟩
    · obtain ⟨recent, place⟩ := ledger.recent index found before (by omega)
      have inside := (List.getElem?_eq_some_iff.mp before).1
      refine ⟨recent.trans same.symm, ?_⟩
      rw [Nat.succ_sub (by omega), ← Nat.add_one, UInt64.ofNat_add, ← UInt64.add_assoc, place]
      exact counted.symm
    · refine ⟨epoch.trans same.symm, ?_⟩
      rw [Nat.add_sub_cancel_left, seq]
      exact counted.symm
  · rcases snoc_cases listed with before | ⟨rfl, rfl⟩
    · exact same ▸ ledger.older index found before (by omega)
    · omega

/-- A record that ends an epoch. -/
theorem Ledger.update {next : Sender} (later : sender.sendEpoch < next.sendEpoch) :
    Ledger (sent ++ [record]) next 0 := by
  refine ⟨ledger.sequenced young epoch seq, fun index found listed new => ?_,
    fun index found listed old => ?_⟩
  · have inside := (List.getElem?_eq_some_iff.mp listed).1
    omega
  · rcases snoc_cases listed with before | ⟨rfl, rfl⟩
    · exact UInt32.lt_of_le_of_lt (ledger.le_epoch before) later
    · exact epoch ▸ later

end

end

end Append

/-- A sender and what it has sent so far: the records of its epoch are at most as many as the
bytes that it has sent in it. -/
structure Accounts (start : UInt32) (sent : List Record) (sender : Sender) (age total : Nat) :
    Prop where
  ledger : Ledger sent sender age
  counts : sender.Counts total sender.drawn
  epoch : sender.sendEpoch.toNat = start.toNat + sender.drawn
  grown : 33554432 * sender.drawn + age ≤ total
  below : total < 33554432 * (sender.drawn + 1)

theorem Accounts.record {start : UInt32} {sender : Sender} {age total : Nat}
    (accounts : Accounts start sent sender age total) (nonzero : 0 < start.toNat)
    {chunk : List UInt8} (small : Chunk chunk)
    (unwrapped : start.toNat + (sender.next random chunk.length).drawn < 2 ^ 32) :
    ∃ age total, Accounts start (sent ++ [sender.record cipher chunk])
      (sender.next random chunk.length) age total := by
  obtain ⟨ledger, counts, epoch, grown, below⟩ := accounts
  have positive : 0 < chunk.length := length_pos_iff.mpr small.1
  have short : chunk.length ≤ 65507 := small.2
  have bound : sender.drawn ≤ (sender.next random chunk.length).drawn :=
    drawn_le_after random sender [chunk]
  by_cases within : total + chunk.length < 33554432 * (sender.drawn + 1)
  · obtain ⟨kept, same, counted⟩ := counts.keep random (by omega) within
    refine ⟨age + 1, total + chunk.length, ledger.keep (by omega) rfl rfl same counted, ?_, ?_, ?_, ?_⟩
    · rw [kept.drawn]
      exact kept
    · rw [same, kept.drawn]
      exact epoch
    · rw [kept.drawn]
      omega
    · rw [kept.drawn]
      exact within
  · obtain ⟨updated, next⟩ := counts.update random (by omega) (by omega) (Nat.not_lt.mp within)
    rw [updated.drawn] at unwrapped
    have more : (sender.next random chunk.length).sendEpoch.toNat = sender.sendEpoch.toNat + 1 := by
      rw [next, UInt32.toNat_add]
      exact Nat.mod_eq_of_lt (show sender.sendEpoch.toNat + 1 < 2 ^ 32 by omega)
    refine ⟨0, total + chunk.length, ledger.update (by omega) rfl rfl ?_, ?_, ?_, ?_, ?_⟩
    · rw [UInt32.lt_iff_toNat_lt]
      omega
    · rw [updated.drawn]
      exact updated
    · rw [more, updated.drawn]
      omega
    · rw [updated.drawn]
      omega
    · rw [updated.drawn]
      omega

theorem accounts_records (cipher : Cipher) (random : Nat → UInt64) (nonzero : sendEpoch ≠ 0)
    (sendSeq : UInt64) (chunks : List (List UInt8)) (small : ∀ chunk ∈ chunks, Chunk chunk)
    (unwrapped : sendEpoch.toNat + (after random { sendEpoch, sendSeq } chunks).drawn < 2 ^ 32) :
    ∃ age total, Accounts sendEpoch
      (records cipher random { sendEpoch, sendSeq } chunks)
      (after random { sendEpoch, sendSeq } chunks) age total := by
  have positive : 0 < sendEpoch.toNat := Nat.pos_of_ne_zero fun zero =>
    nonzero (UInt32.toNat_inj.mp zero)
  induction chunks using List.reverseRecOn with
  | nil =>
    exact ⟨0, 0, ⟨⟨nofun, nofun, nofun⟩, nofun, nofun⟩, ⟨rfl, rfl, rfl⟩, rfl, Nat.le_refl _,
      show 0 < 33554432 by decide⟩
  | append_singleton chunks chunk ih =>
    rw [Sender.after, foldl_append] at unwrapped
    have bound := Sender.drawn_le_after random (Sender.after random
      { sendEpoch, sendSeq } chunks) [chunk]
    obtain ⟨age, total, accounts⟩ := ih
      (fun other member => small other (mem_append_left _ member))
      (Nat.lt_of_le_of_lt (Nat.add_le_add_left bound _) unwrapped)
    rw [Sender.records_append, Sender.after, Sender.after, foldl_append]
    exact accounts.record positive (small chunk mem_concat_self)
      unwrapped

/-! ### What the receiver accepts -/

/-- The cipher opens what was sealed for the records that were sent, and nothing else. -/
def Cipher.Ideal (cipher : Cipher) (sent : List Record) : Prop :=
  ∀ record : Record, (cipher.openWith record.epoch record.header record.ciphertext
    record.header).isSome ↔ record ∈ sent

/-- The records that are accepted of those that are passed on, before the first error. -/
def Receiver.accepts (cipher : Cipher) : Receiver → List Record → List Record
  | _, [] => []
  | receiver, record :: rest =>
    match receiver.accept cipher record with
    | .error _ => []
    | .ok next => record :: next.accepts cipher rest

/-- A record that is accepted after another: it is the next one of the epoch, or it is of a
later epoch. -/
def Follow (one two : Record) : Prop :=
  (one.epoch = two.epoch ∧ two.seq = one.seq + 1) ∨ one.epoch < two.epoch

theorem accept_eq_ok {next : Receiver} {record : Record}
    (accepted : receiver.accept cipher record = .ok next) :
    (∃ plaintext, cipher.openWith record.epoch record.header record.ciphertext record.header =
        some plaintext) ∧
      receiver.validateRecvPosition record.epoch record.seq = none ∧
      next.recvEpoch = record.epoch ∧ next.recvSeq = record.seq + 1 ∧
      next.recvInitialized = true := by
  rw [accept] at accepted
  cases valid : receiver.validateRecvPosition record.epoch record.seq with
  | some err =>
    rw [valid] at accepted
    cases accepted
  | none =>
    rw [valid] at accepted
    cases opened : cipher.openWith record.epoch record.header record.ciphertext record.header with
    | none =>
      rw [opened] at accepted
      cases accepted
    | some plaintext =>
      rw [opened] at accepted
      cases accepted
      exact ⟨⟨plaintext, rfl⟩, rfl, rfl, rfl, rfl⟩

theorem follow_of_valid (initialized : receiver.recvInitialized = true)
    (epoch : receiver.recvEpoch = one.epoch) (seq : receiver.recvSeq = one.seq + 1)
    (valid : receiver.validateRecvPosition two.epoch two.seq = none) : Follow one two := by
  rw [validateRecvPosition, if_neg (ne_false_of_eq_true initialized), epoch, seq] at valid
  split_ifs at valid with below other far
  by_cases same : two.epoch = one.epoch
  · exact .inl ⟨same.symm, not_not.mp fun different => other ⟨same, different⟩⟩
  · refine .inr ?_
    rcases UInt32.lt_or_le one.epoch two.epoch with later | notLater
    · exact later
    · rcases UInt32.lt_or_eq_of_le notLater with earlier | equal
      · exact absurd earlier below
      · exact absurd equal same

/-- The records that are accepted were sent, and each follows the one before it. -/
theorem accepts_chain (ideal : cipher.Ideal sent) (delivered : List Record) (receiver : Receiver) :
    (∀ record ∈ receiver.accepts cipher delivered, record ∈ sent) ∧
      (receiver.accepts cipher delivered).IsChain Follow ∧
      ∀ one, receiver.recvInitialized = true → receiver.recvEpoch = one.epoch →
        receiver.recvSeq = one.seq + 1 → ∀ two ∈ (receiver.accepts cipher delivered).head?,
          Follow one two := by
  induction delivered generalizing receiver with
  | nil => exact ⟨nofun, .nil, fun _ _ _ _ _ => nofun⟩
  | cons record rest ih =>
    rw [accepts]
    cases accepted : receiver.accept cipher record with
    | error err => exact ⟨nofun, .nil, fun _ _ _ _ _ => nofun⟩
    | ok next =>
      obtain ⟨⟨plaintext, opened⟩, valid, epoch, seq, initialized⟩ := accept_eq_ok accepted
      obtain ⟨members, chain, head⟩ := ih next
      refine ⟨fun other member => ?_, ?_, fun one ready sameEpoch sameSeq two first => ?_⟩
      · rcases mem_cons.mp member with rfl | later
        · exact (ideal other).mp (Option.isSome_iff_exists.mpr ⟨plaintext, opened⟩)
        · exact members other later
      · exact isChain_cons.mpr ⟨head record initialized epoch seq, chain⟩
      · cases first
        exact follow_of_valid ready sameEpoch sameSeq valid

/-- The first record of an epoch is the next one after the last record of the epoch before. -/
def SentNext (sent : List Record) (one two : Record) : Prop :=
  one.epoch ≠ two.epoch → [one, two] <:+: sent

/-- A record of a later epoch, near enough to be accepted, is passed on only when it was sent right
after the last one that was accepted. -/
def Receiver.PassedNext (sent : List Record) (receiver : Receiver) (record : Record) : Prop :=
  receiver.recvInitialized = true → record ∈ sent → receiver.recvEpoch < record.epoch →
    record.epoch - receiver.recvEpoch ≤ maxJump →
      ∃ last, [last, record] <:+: sent ∧ last.epoch = receiver.recvEpoch ∧
        last.seq + 1 = receiver.recvSeq

/-- The attacker passes on each record so, up to the first error. -/
def Receiver.PassesNext (cipher : Cipher) (sent : List Record) : Receiver → List Record → Prop
  | _, [] => True
  | receiver, record :: rest => receiver.PassedNext sent record ∧
    ∀ next ∈ (receiver.accept cipher record).toOption, next.PassesNext cipher sent rest

section Places

variable {sent accepted : List Record}

/-- A record that follows another one comes after it. -/
theorem Sequenced.lt_of_follow (sequenced : Sequenced sent) {first second : Nat}
    (isFirst : sent[first]? = some one) (isSecond : sent[second]? = some two)
    (follow : Follow one two) : first < second := by
  rcases follow with ⟨epoch, seq⟩ | later
  · rw [sequenced.adjacent first second one two isFirst isSecond epoch seq]
    exact Nat.lt_succ_self _
  · refine Nat.lt_of_not_le fun before => ?_
    exact UInt32.not_le.mpr later (sequenced.ordered second first two one isSecond isFirst before)

theorem drop_of_getElem? {record : Record} (listed : sent[index]? = some record) :
    sent.drop index = record :: sent.drop (index + 1) := by
  obtain ⟨inside, rfl⟩ := List.getElem?_eq_some_iff.mp listed
  exact drop_eq_getElem_cons inside

section

variable (sequenced : Sequenced sent)

include sequenced

/-- A chain of sent records stands in the order in which they were sent. -/
theorem Sequenced.sublist_drop (chain : accepted.IsChain Follow)
    (members : ∀ record ∈ accepted, record ∈ sent) (place : Nat)
    (starts : ∀ first ∈ accepted.head?, ∀ index, sent[index]? = some first → place ≤ index) :
    accepted.Sublist (sent.drop place) := by
  induction accepted generalizing place with
  | nil => exact nil_sublist _
  | cons one rest ih =>
    obtain ⟨index, listed⟩ := mem_iff_getElem?.mp (members one mem_cons_self)
    have later := ih (isChain_cons.mp chain).2
      (fun record member => members record (mem_cons_of_mem _ member)) (index + 1)
      (fun two first second isSecond => sequenced.lt_of_follow listed isSecond
        ((isChain_cons.mp chain).1 two first))
    have fits : place ≤ index := starts one rfl index listed
    have front := drop_sublist_drop_left sent fits
    rw [drop_of_getElem? listed] at front
    exact (later.cons_cons one).trans front

/-- The records of an adjacent pair stand at adjacent places. -/
theorem Sequenced.next_place (pair : [one, two] <:+: sent) (listed : sent[index]? = some one) :
    sent[index + 1]? = some two := by
  obtain ⟨before, after, whole⟩ := pair
  have first : sent[before.length]? = some one := by
    rw [← whole]
    simp
  have second : sent[before.length + 1]? = some two := by
    rw [← whole]
    simp
  rw [sequenced.apart index before.length one one listed first rfl rfl]
  exact second

/-- A chain of sent records, of which those of two epochs that meet were sent one after the
other, has no gap. -/
theorem Sequenced.prefix_drop (chain : accepted.IsChain Follow)
    (members : ∀ record ∈ accepted, record ∈ sent)
    (changes : accepted.IsChain (SentNext sent))
    (place : Nat) (starts : ∀ first ∈ accepted.head?, sent[place]? = some first) :
    accepted <+: sent.drop place := by
  induction accepted generalizing place with
  | nil => exact nil_prefix
  | cons one rest ih =>
    have listed := starts one rfl
    rw [drop_of_getElem? listed, cons_prefix_cons]
    refine ⟨rfl, ih (isChain_cons.mp chain).2
      (fun record member => members record (mem_cons_of_mem _ member))
      (isChain_cons.mp changes).2 (place + 1) fun two first => ?_⟩
    obtain ⟨others, rfl⟩ : ∃ others, rest = two :: others := by
      cases rest with
      | nil => cases first
      | cons head others => exact ⟨others, by rw [Option.some.inj first]⟩
    rcases (isChain_cons.mp chain).1 two rfl with ⟨epoch, seq⟩ | later
    · obtain ⟨index, isSecond⟩ := mem_iff_getElem?.mp
        (members two (mem_cons_of_mem _ mem_cons_self))
      rw [← sequenced.adjacent place index one two listed isSecond epoch seq]
      exact isSecond
    · refine sequenced.next_place ((isChain_cons.mp changes).1 two rfl fun same => ?_) listed
      exact UInt32.lt_irrefl _ (same ▸ later)

theorem Sequenced.nodup : sent.Nodup := by
  rw [nodup_iff_getElem?_ne_getElem?]
  intro first second before inside same
  have listed : sent[first]? = some sent[first] := getElem?_eq_getElem (by omega)
  have equal := sequenced.apart first second _ _ listed (same ▸ listed) rfl rfl
  omega

end

end Places

/-- The records that the given buffers are sent in. -/
def sentBy (cipher : Cipher) (random : Nat → UInt64) (sendEpoch : UInt32) (sendSeq : UInt64)
    (writes : List (List UInt8)) : List Record :=
  Sender.records cipher random { sendEpoch := sendEpoch, sendSeq := sendSeq }
    (writes.flatMap fun p => chunks p.length p)

/-- The sender after the given buffers. -/
def senderOf (random : Nat → UInt64) (sendEpoch : UInt32) (sendSeq : UInt64)
    (writes : List (List UInt8)) : Sender :=
  Sender.after random { sendEpoch := sendEpoch, sendSeq := sendSeq }
    (writes.flatMap fun p => chunks p.length p)

/-- Calls of `Write` put these records on the wire. -/
theorem run_writes (cipher : Cipher) (random : Nat → UInt64) (sendEpoch : UInt32)
    (sendSeq : UInt64) (writes : List (List UInt8)) :
    (run cipher random sendEpoch sendSeq (writes.map Event.write)).inFlight =
        (sentBy cipher random sendEpoch sendSeq writes).flatMap Record.frame ∧
      (run cipher random sendEpoch sendSeq (writes.map Event.write)).sender =
        senderOf random sendEpoch sendSeq writes := by
  induction writes using List.reverseRecOn with
  | nil => exact ⟨rfl, rfl⟩
  | append_singleton writes p ih =>
    obtain ⟨wire, sender⟩ := ih
    rw [run] at wire sender
    rw [run, map_append, Machine.drive_append, sentBy, senderOf, flatMap_append,
      Sender.records_append, flatMap_append, flatMap_singleton, Sender.after, Sender.after,
      foldl_append]
    constructor
    · show _ ++ List.flatMap _ _ = _
      rw [wire, sender]
      rfl
    · show after random _ _ = _
      rw [sender]
      rfl

/-- The positions of the records that are sent. -/
theorem sequenced_sentBy (cipher : Cipher) (random : Nat → UInt64) (nonzero : sendEpoch ≠ 0)
    (sendSeq : UInt64) (writes : List (List UInt8))
    (unwrapped : sendEpoch.toNat + (senderOf random sendEpoch sendSeq writes).drawn < 2 ^ 32) :
    Sequenced (sentBy cipher random sendEpoch sendSeq writes) := by
  have small : ∀ chunk ∈ writes.flatMap fun p => chunks p.length p, Chunk chunk := by
    intro chunk member
    obtain ⟨p, -, taken⟩ := mem_flatMap.mp member
    exact chunk_of_mem taken
  obtain ⟨age, total, accounts⟩ := accounts_records cipher random nonzero sendSeq _ small unwrapped
  exact accounts.ledger.toSequenced

/-- The receiver has accepted the record last. -/
structure Receiver.At (receiver : Receiver) (last : Record) : Prop where
  initialized : receiver.recvInitialized = true
  epoch : receiver.recvEpoch = last.epoch
  seq : receiver.recvSeq = last.seq + 1

variable {record : Record} {accepted : List Record}

/-- A near record of a later epoch is valid. -/
theorem valid_of_later (later : receiver.recvEpoch < record.epoch)
    (near : record.epoch - receiver.recvEpoch ≤ maxJump) :
    receiver.validateRecvPosition record.epoch record.seq = none := by
  rw [validateRecvPosition]
  split_ifs with fresh below other far
  · rfl
  · exact absurd below (UInt32.lt_asymm later)
  · exact absurd (other.1 ▸ later) (UInt32.lt_irrefl _)
  · exact absurd far.2 (UInt32.not_lt.mpr near)
  · rfl

theorem jump_le_of_valid (initialized : receiver.recvInitialized = true)
    (valid : receiver.validateRecvPosition record.epoch record.seq = none)
    (later : receiver.recvEpoch < record.epoch) :
    record.epoch - receiver.recvEpoch ≤ maxJump := by
  rw [validateRecvPosition, if_neg (ne_false_of_eq_true initialized)] at valid
  split_ifs at valid with below other far
  exact UInt32.not_lt.mp fun jump => far ⟨later, jump⟩

section

variable (ideal : cipher.Ideal sent)

include ideal

/-- Where a record is accepted, the condition on it is about the record before it. -/
theorem passedNext_iff (sequenced : Sequenced sent) {last : Record} (isSent : last ∈ sent)
    (state : receiver.At last) {next : Receiver}
    (accepted : receiver.accept cipher record = .ok next) :
    receiver.PassedNext sent record ↔ SentNext sent last record := by
  obtain ⟨⟨plaintext, opened⟩, valid, -⟩ := accept_eq_ok accepted
  have member := (ideal record).mp (Option.isSome_iff_exists.mpr ⟨plaintext, opened⟩)
  constructor
  · intro passed changed
    have later : receiver.recvEpoch < record.epoch := by
      rcases follow_of_valid state.initialized state.epoch state.seq valid with ⟨same, -⟩ | later
      · exact absurd same changed
      · rwa [state.epoch]
    obtain ⟨other, pair, epoch, seq⟩ := passed state.initialized member later
      (jump_le_of_valid state.initialized valid later)
    obtain ⟨first, isFirst⟩ := mem_iff_getElem?.mp (pair.subset mem_cons_self)
    obtain ⟨second, isSecond⟩ := mem_iff_getElem?.mp isSent
    have same := sequenced.apart first second other last isFirst isSecond
      (epoch.trans state.epoch) ((UInt64.add_left_inj 1).mp (seq.trans state.seq))
    rw [same] at isFirst
    cases isFirst.symm.trans isSecond
    exact pair
  · intro sentNext initialized _ later _
    refine ⟨last, sentNext fun same => ?_, state.epoch.symm, state.seq.symm⟩
    exact UInt32.lt_irrefl _ ((state.epoch.trans same) ▸ later)

/-- A record that is refused meets the condition. -/
theorem passedNext_of_error {err : Error} (refused : receiver.accept cipher record = .error err) :
    receiver.PassedNext sent record := by
  intro _ member later near
  obtain ⟨plaintext, opened⟩ := Option.isSome_iff_exists.mp ((ideal record).mpr member)
  rw [accept, valid_of_later later near, opened] at refused
  cases refused

theorem passesNext_iff_of_at (sequenced : Sequenced sent) (delivered : List Record) {last : Record}
    (isSent : last ∈ sent) (state : receiver.At last) :
    receiver.PassesNext cipher sent delivered ↔
      (last :: receiver.accepts cipher delivered).IsChain (SentNext sent) := by
  induction delivered generalizing receiver last with
  | nil => exact iff_of_true trivial (.singleton _)
  | cons record rest ih =>
    rw [PassesNext, accepts]
    cases accepted : receiver.accept cipher record with
    | error err =>
      exact iff_of_true ⟨passedNext_of_error ideal accepted, nofun⟩ (.singleton _)
    | ok next =>
      obtain ⟨⟨plaintext, opened⟩, -, epoch, seq, initialized⟩ := accept_eq_ok accepted
      have member := (ideal record).mp (Option.isSome_iff_exists.mpr ⟨plaintext, opened⟩)
      rw [passedNext_iff ideal sequenced isSent state accepted, isChain_cons_cons,
        ← ih member ⟨initialized, epoch, seq⟩]
      simp [Except.toOption]

/-- The attacker meets the condition just when the records that are accepted have no gap where the
epoch changes. -/
theorem passesNext_iff (sequenced : Sequenced sent) (delivered : List Record) :
    PassesNext cipher sent {} delivered ↔
      (accepts cipher {} delivered).IsChain (SentNext sent) := by
  cases delivered with
  | nil => exact iff_of_true trivial .nil
  | cons record rest =>
    rw [PassesNext, accepts]
    cases accepted : accept cipher {} record with
    | error err => exact iff_of_true ⟨nofun, nofun⟩ .nil
    | ok next =>
      obtain ⟨⟨plaintext, opened⟩, -, epoch, seq, initialized⟩ := accept_eq_ok accepted
      have member := (ideal record).mp (Option.isSome_iff_exists.mpr ⟨plaintext, opened⟩)
      rw [← passesNext_iff_of_at ideal sequenced rest member ⟨initialized, epoch, seq⟩]
      simp [Except.toOption, PassedNext]

end

/-- Records of one epoch may be passed on as the attacker likes. -/
theorem passesNext_of_epoch {epoch : UInt32} (delivered : List Record)
    (same : ∀ record ∈ delivered, record.epoch = epoch)
    (here : receiver.recvInitialized = true → receiver.recvEpoch = epoch) :
    receiver.PassesNext cipher sent delivered := by
  induction delivered generalizing receiver with
  | nil => trivial
  | cons record rest ih =>
    have first := same record mem_cons_self
    refine ⟨fun initialized _ later => ?_, fun next accepted => ?_⟩
    · rw [here initialized, first] at later
      exact absurd later (UInt32.lt_irrefl _)
    · refine ih (fun other member => same other (mem_cons_of_mem _ member)) fun _ => ?_
      cases result : receiver.accept cipher record with
      | error err =>
        rw [result] at accepted
        cases accepted
      | ok after =>
        rw [result] at accepted
        cases accepted
        exact (accept_eq_ok result).2.2.1.trans first

/-- A block of the sent records has no gap. -/
theorem isChain_of_isInfix (block : accepted <:+: sent) : accepted.IsChain (SentNext sent) := by
  induction accepted with
  | nil => exact .nil
  | cons one rest ih =>
    refine isChain_cons.mpr ⟨fun two first _ => ?_, ih ((suffix_cons one rest).isInfix.trans block)⟩
    obtain ⟨others, rfl⟩ := head?_eq_some_iff.mp first
    exact IsInfix.trans ⟨[], others, rfl⟩ block

/-- With an ideal cipher, and as long as the epoch has not wrapped, the receiver accepts records
of the sender in the order in which they were sent, and none of them twice. None is missing
between two of them if and only if the attacker passes on a record of a later epoch only when it
is the next one. -/
theorem record_order (cipher : Cipher) (random : Nat → UInt64) (sendEpoch : UInt32)
    (nonzero : sendEpoch ≠ 0) (sendSeq : UInt64) (writes : List (List UInt8))
    (unwrapped : sendEpoch.toNat + (senderOf random sendEpoch sendSeq writes).drawn < 2 ^ 32)
    (ideal : cipher.Ideal (sentBy cipher random sendEpoch sendSeq writes))
    (delivered : List Record) :
    (Receiver.accepts cipher {} delivered).Sublist
        (sentBy cipher random sendEpoch sendSeq writes) ∧
      (Receiver.accepts cipher {} delivered).Nodup ∧
      (Receiver.accepts cipher {} delivered <:+: sentBy cipher random sendEpoch sendSeq writes ↔
        Receiver.PassesNext cipher (sentBy cipher random sendEpoch sendSeq writes) {}
          delivered) := by
  have sequenced := sequenced_sentBy cipher random nonzero sendSeq writes unwrapped
  obtain ⟨members, chain, -⟩ := accepts_chain ideal delivered {}
  have sublist := sequenced.sublist_drop chain members 0 fun _ _ index _ => Nat.zero_le index
  rw [passesNext_iff ideal sequenced]
  refine ⟨sublist, sequenced.nodup.sublist sublist, isChain_of_isInfix, fun changes => ?_⟩
  cases first : (Receiver.accepts cipher {} delivered).head? with
  | none =>
    rw [head?_eq_none_iff.mp first]
    exact nil_infix
  | some record =>
    obtain ⟨place, listed⟩ := mem_iff_getElem?.mp (members record (mem_of_mem_head? first))
    refine (sequenced.prefix_drop chain members changes place fun head found => ?_).isInfix.trans
      (drop_suffix place _).isInfix
    rw [first] at found
    rw [← Option.some.inj found]
    exact listed

/-! ### An ideal cipher -/

/-- A cipher that opens only the given records. -/
def loggedCipher (sent : List Record) : Cipher where
  sealWith := plainCipher.sealWith
  openWith epoch nonce ciphertext additional :=
    if nonce = additional ∧ ∃ record ∈ sent, record.epoch = epoch ∧ record.header = nonce ∧
        record.ciphertext = ciphertext then
      plainCipher.openWith epoch nonce ciphertext additional
    else none

theorem seq_of_header (same : one.header = two.header) : one.seq = two.seq := by
  have back := (append_inj same (by rw [BigEndian.length_put, BigEndian.length_put])).2
  exact UInt64.toNat_inj.mp (BigEndian.put_inj one.seq.toNat_lt two.seq.toNat_lt back)

theorem open_loggedCipher {record : Record} (member : record ∈ sent) :
    (loggedCipher sent).openWith record.epoch record.header record.ciphertext record.header =
      some (record.ciphertext.take (record.ciphertext.length - overhead)) :=
  if_pos ⟨rfl, record, member, rfl, rfl, rfl⟩

theorem ideal_loggedCipher (sent : List Record) : (loggedCipher sent).Ideal sent := by
  refine fun record => ⟨fun opened => ?_, fun member => ?_⟩
  · rw [loggedCipher] at opened
    dsimp only at opened
    split_ifs at opened with logged
    · obtain ⟨-, other, member, epoch, header, ciphertext⟩ := logged
      have seq := seq_of_header header
      obtain rfl : other = record := by
        cases other
        cases record
        cases epoch
        cases seq
        cases ciphertext
        rfl
      exact member
    · cases opened
  · rw [open_loggedCipher member]
    rfl

/-- The first two records that are accepted, where the second one is of the next epoch. -/
theorem accepts_two (first : one ∈ sent) (second : two ∈ sent)
    (next : two.epoch.toNat = one.epoch.toNat + 1) :
    accepts (loggedCipher sent) {} [one, two] = [one, two] := by
  have expects : ∀ seq readBuf, Receiver.Expects
      { recvEpoch := one.epoch, recvSeq := seq, recvInitialized := true, readBuf }
      { sendEpoch := two.epoch, sendSeq := two.seq } := fun _ _ => .inr (.inr next)
  have starts : validateRecvPosition {} one.epoch one.seq = none := rfl
  have accepted : ∀ {receiver : Receiver} {record : Record}, record ∈ sent →
      receiver.validateRecvPosition record.epoch record.seq = none →
      receiver.accept (loggedCipher sent) record = .ok
        { recvEpoch := record.epoch
          recvSeq := record.seq + 1
          recvInitialized := true
          readBuf := receiver.readBuf ++
            record.ciphertext.take (record.ciphertext.length - overhead) } := by
    intro receiver record member valid
    rw [accept, valid]
    rw [open_loggedCipher member]
    rfl
  rw [accepts, accepted first starts]
  dsimp only
  rw [accepts, accepted second (expects _ _).validate]
  rfl

theorem sentBy_loggedCipher (sent : List Record) (random : Nat → UInt64) (sendEpoch : UInt32)
    (sendSeq : UInt64) (writes : List (List UInt8)) :
    sentBy (loggedCipher sent) random sendEpoch sendSeq writes =
      sentBy plainCipher random sendEpoch sendSeq writes := by
  rw [sentBy, sentBy]
  generalize (writes.flatMap fun p => chunks p.length p) = chunks
  generalize ({ sendEpoch, sendSeq } : Sender) = sender
  induction chunks generalizing sender with
  | nil => rfl
  | cons chunk rest ih => exact congrArg (_ :: ·) (ih _)

theorem record_order_twoRecords :
    Receiver.accepts (loggedCipher (sentBy plainCipher (fun _ => 5) 7 9 [[1], [2, 3]])) {}
        (sentBy plainCipher (fun _ => 5) 7 9 [[1], [2, 3], [1]]) <:+:
      sentBy (loggedCipher (sentBy plainCipher (fun _ => 5) 7 9 [[1], [2, 3]])) (fun _ => 5) 7 9
        [[1], [2, 3]] := by
  have order := record_order (loggedCipher (sentBy plainCipher (fun _ => 5) 7 9 [[1], [2, 3]]))
    (fun _ => 5) 7 (by decide) 9 [[1], [2, 3]] (by decide +kernel)
    (by rw [sentBy_loggedCipher]; exact ideal_loggedCipher _)
    (sentBy plainCipher (fun _ => 5) 7 9 [[1], [2, 3], [1]])
  exact order.2.2.mpr (@passesNext_of_epoch _ _ {} 7 _ (by decide +kernel) nofun)

/-! ### Records that are dropped where the epoch changes -/

/-- Full records, one after the other. -/
theorem getElem?_fullRecords (sender : Sender) {count : Nat} (inside : index < count) :
    (sender.records cipher random (List.replicate count fullChunk))[index]? =
      some ((senderAfter random sender index).record cipher fullChunk) := by
  induction count generalizing sender index with
  | zero => exact absurd inside (Nat.not_lt_zero _)
  | succ count ih =>
    rw [replicate_succ, records, length_fullChunk]
    cases index with
    | zero => rfl
    | succ index =>
      rw [getElem?_cons_succ, ih _ (Nat.lt_of_succ_lt_succ inside)]
      rfl

theorem after_fullRecords (random : Nat → UInt64) (sender : Sender) (count : Nat) :
    sender.after random (List.replicate count fullChunk) = senderAfter random sender count := by
  induction count generalizing sender with
  | zero => rfl
  | succ count ih =>
    rw [replicate_succ, Sender.after, foldl_cons, length_fullChunk]
    exact ih _

theorem chunks_fullRecords (count : Nat) :
    ((List.replicate count fullChunk).flatMap fun p => chunks p.length p) =
      List.replicate count fullChunk := by
  induction count with
  | zero => rfl
  | succ count ih =>
    rw [replicate_succ, flatMap_cons, ih, length_fullChunk, chunks_fullChunk]
    rfl

/-- The epoch changes with the record at place 513, the last of the first 32 MiB. -/
theorem firstUpdate (random : Nat → UInt64) (sendEpoch : UInt32) (sendSeq : UInt64) :
    (senderAfter random { sendEpoch, sendSeq } 513).sendEpoch =
        sendEpoch + 1 ∧
      (senderAfter random { sendEpoch, sendSeq } 514).drawn = 1 := by
  have start : Sender.Counts { sendEpoch, sendSeq } 0 0 := ⟨rfl, rfl, rfl⟩
  obtain ⟨first, epoch⟩ := start.upTo random 512 (by decide) (by decide) (by decide) (by decide)
  obtain ⟨between, -⟩ := first.between random 1 (by decide) (by decide)
  rw [senderAfter, senderAfter, ← Function.iterate_add_apply] at between
  exact ⟨epoch, between.drawn⟩

/-- Of 514 full records the attacker passes on the first one and the last one, which is of the
next epoch. Both are accepted, although 512 records are missing between them. -/
theorem droppedRecords_missed :
    ∃ (sent : List Record) (one two : Record),
      sentBy (loggedCipher sent) (fun _ => 1) 1 1 (List.replicate 514 fullChunk) = sent ∧
        (loggedCipher sent).Ideal sent ∧
        Receiver.accepts (loggedCipher sent) {} [one, two] = [one, two] ∧
        sent[0]? = some one ∧ sent[513]? = some two ∧ ¬ [one, two] <:+: sent := by
  obtain ⟨later, drawn⟩ := firstUpdate (fun _ => 1) 1 1
  have first : (sentBy plainCipher (fun _ => 1) 1 1 (List.replicate 514 fullChunk))[0]? =
      some ((senderAfter (fun _ => 1) { sendEpoch := 1, sendSeq := 1 } 0).record plainCipher
        fullChunk) := by
    rw [sentBy, chunks_fullRecords, getElem?_fullRecords _ (by decide)]
  have last : (sentBy plainCipher (fun _ => 1) 1 1 (List.replicate 514 fullChunk))[513]? =
      some ((senderAfter (fun _ => 1) { sendEpoch := 1, sendSeq := 1 } 513).record plainCipher
        fullChunk) := by
    rw [sentBy, chunks_fullRecords, getElem?_fullRecords _ (by decide)]
  have sequenced := sequenced_sentBy plainCipher (fun _ => 1) (by decide : (1 : UInt32) ≠ 0) 1
    (List.replicate 514 fullChunk) (by
      rw [senderOf, chunks_fullRecords, after_fullRecords, drawn]
      decide)
  refine ⟨sentBy plainCipher (fun _ => 1) 1 1 (List.replicate 514 fullChunk), _, _,
    sentBy_loggedCipher _ _ _ _ _, ideal_loggedCipher _,
    accepts_two (mem_of_getElem? first) (mem_of_getElem? last) ?_, first, last,
    fun pair => ?_⟩
  · rw [Sender.record, Sender.record, later]
    rfl
  · exact absurd (sequenced.apart _ _ _ _ (sequenced.next_place pair first) last rfl rfl) (by decide)

end RecordConn

end SingBox
