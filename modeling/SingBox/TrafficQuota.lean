/-
This file is about the traffic quota of a user on a node: the limiter that counts what
is sent, and the reports of what was counted, which the manager answers with its own
total. The call of the manager is made without the lock of the limiter, so anything may
happen between its steps.
-/

import SingBox.Machine
import Mathlib

namespace SingBox.Traffic

open Machine

/-- The limiter of a user on a node, with the traffic that was not reported yet. -/
structure TrafficLimiter where
  rawUsed : UInt64
  rawQuota : UInt64
  new : UInt64 := 0

namespace TrafficLimiter

def can (limiter : TrafficLimiter) (n : UInt64) : TrafficLimiter × Bool :=
  if limiter.rawUsed = limiter.rawQuota then (limiter, false)
  else if limiter.rawQuota < limiter.rawUsed + n then
    ({ limiter with
        new := limiter.new + (limiter.rawQuota - limiter.rawUsed)
        rawUsed := limiter.rawQuota }, false)
  else (limiter, true)

/-- `Add` makes the test of `Can` and counts what passes it. -/
def add (limiter : TrafficLimiter) (n : UInt64) : TrafficLimiter × Bool :=
  match limiter.can n with
  | (limiter, true) =>
    ({ limiter with rawUsed := limiter.rawUsed + n, new := limiter.new + n }, true)
  | (limiter, false) => (limiter, false)

/-- The end of `UpdateRemainingTraffic`, with the answer of the manager if there is one. -/
def finish (limiter : TrafficLimiter) (reported : UInt64) : Option UInt64 → TrafficLimiter
  | some newUsed => { limiter with rawUsed := newUsed }
  | none => { limiter with new := limiter.new + reported }

end TrafficLimiter

/-- `AddTrafficUsage` of the manager: its total after a report. -/
def addTrafficUsage (quota used n : UInt64) : UInt64 :=
  if quota < used + n then quota else used + n

/-- A report under way, and the result of the call once the manager is through with it. -/
structure Report where
  amount : UInt64
  result : Option (Option UInt64) := none

/-- How a call of the manager ends. It may fail before or after the report was counted. -/
inductive Reply where
  | answer
  | failsBefore
  | failsAfter

/-- A node and its manager, with the bytes for which `Add` returned nil. -/
structure Node where
  limiter : TrafficLimiter
  used : UInt64
  reports : List Report := []
  granted : Nat := 0

inductive Event where
  | can (n : UInt64)
  | add (n : UInt64)
  | take
  | manage (place : Nat) (reply : Reply)
  | finish (place : Nat)

namespace Node

/-- The call of the manager ends, with its total and a result. -/
def settle (node : Node) (place : Nat) (amount used : UInt64) (result : Option UInt64) : Node :=
  { node with used, reports := node.reports.set place ⟨amount, some result⟩ }

def manage (node : Node) (place : Nat) (amount : UInt64) : Reply → Node
  | .answer =>
    let counted := addTrafficUsage node.limiter.rawQuota node.used amount
    node.settle place amount counted (some counted)
  | .failsBefore => node.settle place amount node.used none
  | .failsAfter =>
    node.settle place amount (addTrafficUsage node.limiter.rawQuota node.used amount) none

def step (node : Node) : Event → Node
  | .can n => { node with limiter := (node.limiter.can n).1 }
  | .add n =>
    match node.limiter.add n with
    | (limiter, true) => { node with limiter, granted := node.granted + n.toNat }
    | (limiter, false) => { node with limiter }
  | .take =>
    if node.limiter.new = 0 then node
    else
      { node with
        limiter := { node.limiter with new := 0 }
        reports := node.reports ++ [⟨node.limiter.new, none⟩] }
  | .manage place reply =>
    match node.reports[place]? with
    | some ⟨amount, none⟩ => node.manage place amount reply
    | _ => node
  | .finish place =>
    match node.reports[place]? with
    | some ⟨amount, some result⟩ =>
      { node with
        limiter := node.limiter.finish amount result
        reports := node.reports.eraseIdx place }
    | _ => node

/-- Nothing is added and no report is begun while a report is under way, and no sum of two
numbers of 64 bits is too large. -/
def Orderly (node : Node) : Event → Prop
  | .can _ =>
    node.limiter.new.toNat + (node.limiter.rawQuota - node.limiter.rawUsed).toNat < 2 ^ 64
  | .add n =>
    node.reports = [] ∧ node.limiter.rawUsed.toNat + n.toNat < 2 ^ 64 ∧
      node.limiter.new.toNat + n.toNat < 2 ^ 64 ∧
      node.limiter.new.toNat + (node.limiter.rawQuota - node.limiter.rawUsed).toNat < 2 ^ 64
  | .take => node.reports = []
  | .manage place _ => ∀ report, node.reports[place]? = some report →
    node.used.toNat + report.amount.toNat < 2 ^ 64
  | .finish place => ∀ report, node.reports[place]? = some report →
    node.limiter.new.toNat + report.amount.toNat < 2 ^ 64

end Node

/-- A node that begins with what the manager says. -/
def start (quota used : UInt64) : Node := { limiter := ⟨used, quota, 0⟩, used }

/-- What was spent is in the answer of the manager; or in its total with the report, until there is
an answer. -/
def Report.Right (quota spent total : Nat) : Report → Prop
  | ⟨_, some (some newUsed)⟩ =>
    spent ≤ newUsed.toNat ∧ newUsed.toNat ≤ quota ∧ newUsed.toNat ≤ total
  | ⟨amount, none⟩ | ⟨amount, some none⟩ => spent ≤ total + amount.toNat

/-- What was spent is in the total of the manager with the traffic to be reported or with the only
report under way. -/
def Books (quota spent total new : Nat) : List Report → Prop
  | [] => spent ≤ total + new
  | [report] => report.Right quota spent total
  | _ :: _ :: _ => False

/-- What was granted, with what had been used before, was counted by the limiter, and the books are
right. -/
structure Sound (quota used : UInt64) (node : Node) : Prop where
  same : node.limiter.rawQuota = quota
  within : node.limiter.rawUsed.toNat ≤ quota.toNat
  capped : node.used.toNat ≤ quota.toNat
  counted : used.toNat + node.granted ≤ node.limiter.rawUsed.toNat
  books : Books quota.toNat (used.toNat + node.granted) node.used.toNat node.limiter.new.toNat
    node.reports

theorem sound_start {quota used : UInt64} (within : used ≤ quota) :
    Sound quota used (start quota used) :=
  ⟨rfl, within, within, Nat.le_refl _, Nat.le_refl _⟩

/-- A report under way is the only one. -/
theorem Books.only {quota spent total new place : Nat} {reports : List Report} {report : Report}
    (books : Books quota spent total new reports) (found : reports[place]? = some report) :
    reports = [report] ∧ place = 0 := by
  match reports, place with
  | [], _ => exact nomatch found
  | [only], 0 => exact ⟨congrArg (fun report => [report]) (Option.some.inj found), rfl⟩
  | [_], _ + 1 => exact nomatch found
  | _ :: _ :: _, _ => exact False.elim books

section

variable {quota used : UInt64} {node : Node}

theorem toNat_add {first second : UInt64} (fits : first.toNat + second.toNat < 2 ^ 64) :
    (first + second).toNat = first.toNat + second.toNat :=
  (UInt64.toNat_add first second).trans (Nat.mod_eq_of_lt fits)

variable (sound : Sound quota used node)

include sound

/-- The test of `Can` keeps the books, whatever its result. -/
theorem Sound.can (n : UInt64)
    (fits : node.limiter.new.toNat +
      (node.limiter.rawQuota - node.limiter.rawUsed).toNat < 2 ^ 64) :
    Sound quota used { node with limiter := (node.limiter.can n).1 } := by
  unfold TrafficLimiter.can
  split
  · exact sound
  · split
    · refine { sound with
        within := (congrArg UInt64.toNat sound.same).le
        counted := sound.counted.trans (sound.within.trans (congrArg _ sound.same).ge)
        books := ?_ }
      have books := sound.books
      rw [toNat_add fits]
      revert books
      match node.reports with
      | [] => exact fun known => known.trans (Nat.add_le_add_left (Nat.le_add_right _ _) _)
      | [_] => exact id
      | _ :: _ :: _ => exact False.elim
    · exact sound

theorem Sound.accepted {n : UInt64} (sum : node.limiter.rawUsed.toNat + n.toNat < 2 ^ 64)
    {limiter : TrafficLimiter} (result : node.limiter.can n = (limiter, true)) :
    node.limiter = limiter ∧ node.limiter.rawUsed.toNat + n.toNat ≤ quota.toNat := by
  unfold TrafficLimiter.can at result
  split at result
  · exact nomatch result
  · split at result
    · exact nomatch result
    next small =>
      rw [sound.same, UInt64.not_lt, UInt64.le_iff_toNat_le, toNat_add sum] at small
      exact ⟨congrArg Prod.fst result, small⟩

theorem Sound.add (n : UInt64) (orderly : node.Orderly (.add n)) :
    Sound quota used (node.step (.add n)) := by
  obtain ⟨idle, sum, more, rest⟩ := orderly
  have tested := sound.can n rest
  simp only [Node.step, TrafficLimiter.add]
  rcases result : node.limiter.can n with ⟨limiter, accepted⟩
  rw [result] at tested
  cases accepted with
  | false => exact tested
  | true =>
    obtain ⟨rfl, fits⟩ := sound.accepted sum result
    have counted := sound.counted
    have books := sound.books
    refine ⟨sound.same, ?_, sound.capped, ?_, ?_⟩
    · exact (toNat_add sum).trans_le fits
    · dsimp only
      rw [toNat_add sum]
      omega
    · dsimp only
      rw [idle, Books] at books ⊢
      rw [toNat_add more]
      omega

theorem Sound.take (idle : node.reports = []) : Sound quota used (node.step .take) := by
  have books := sound.books
  simp only [Node.step]
  split
  · exact sound
  · rw [idle] at books ⊢
    exact { sound with books }

theorem Sound.manage {place : Nat} {amount : UInt64}
    (found : node.reports[place]? = some ⟨amount, none⟩)
    (fits : node.used.toNat + amount.toNat < 2 ^ 64) (reply : Reply) :
    Sound quota used (node.manage place amount reply) := by
  have books := sound.books
  obtain ⟨reports, rfl⟩ := books.only found
  rw [reports] at books
  have total : (addTrafficUsage node.limiter.rawQuota node.used amount).toNat ≤ quota.toNat ∧
      used.toNat + node.granted ≤
        (addTrafficUsage node.limiter.rawQuota node.used amount).toNat := by
    unfold addTrafficUsage
    rw [sound.same]
    split
    · exact ⟨Nat.le_refl _, sound.counted.trans sound.within⟩
    next small =>
      rw [UInt64.not_lt, UInt64.le_iff_toNat_le] at small
      exact ⟨small, Nat.le_trans books (toNat_add fits).ge⟩
  unfold Node.manage Node.settle
  rw [reports]
  cases reply with
  | answer => exact { sound with capped := total.1, books := ⟨total.2, total.1, Nat.le_refl _⟩ }
  | failsBefore => exact { sound with books }
  | failsAfter =>
    exact { sound with capped := total.1, books := Nat.le_add_right_of_le total.2 }

theorem Sound.finish {place : Nat} {amount : UInt64} {result : Option UInt64}
    (found : node.reports[place]? = some ⟨amount, some result⟩)
    (fits : node.limiter.new.toNat + amount.toNat < 2 ^ 64) :
    Sound quota used { node with
      limiter := node.limiter.finish amount result
      reports := node.reports.eraseIdx place } := by
  have books := sound.books
  obtain ⟨reports, rfl⟩ := books.only found
  rw [reports] at books ⊢
  cases result with
  | some newUsed =>
    obtain ⟨known, within, total⟩ := books
    exact { sound with
      within, counted := known, books := Nat.le_add_right_of_le (known.trans total) }
  | none =>
    refine { sound with books := ?_ }
    show _ ≤ node.used.toNat + (node.limiter.new + amount).toNat
    rw [toNat_add fits, Nat.add_left_comm]
    exact Nat.le_add_left_of_le books

theorem Sound.step (event : Event) (orderly : node.Orderly event) :
    Sound quota used (node.step event) := by
  cases event with
  | can n => exact sound.can n orderly
  | add n => exact sound.add n orderly
  | take => exact sound.take orderly
  | manage place reply =>
    simp only [Node.step]
    split
    next amount found => exact sound.manage found (orderly _ found) reply
    · exact sound
  | finish place =>
    simp only [Node.step]
    split
    next amount result found => exact sound.finish found (orderly _ found)
    · exact sound

end

/-- In every run in which nothing is added and no report is begun while a report is under way, and
no sum overflows, the bytes for which `Add` returned nil stay within what the quota leaves. -/
theorem quota_kept {quota used : UInt64} (within : used ≤ quota) {events : List Event}
    (orderly : Meets Node.step Node.Orderly (start quota used) events) :
    (drive Node.step (start quota used) events).granted ≤ quota.toNat - used.toNat := by
  have sound := invariant_drive (Sound quota used) (sound_start within)
    (fun _ event sound => sound.step event) orderly
  exact Nat.le_sub_of_add_le' (sound.counted.trans sound.within)

instance (node : Node) (event : Event) : Decidable (node.Orderly event) := by
  cases event <;> unfold Node.Orderly <;> infer_instance

/-- Two reports in turn. -/
theorem quota_kept_inTurn :
    (drive Node.step (start 100 10) [.can 50, .add 50, .take, .manage 0 .answer, .finish 0,
      .add 40, .add 1, .take, .manage 0 .failsBefore, .finish 0]).granted ≤ 90 :=
  quota_kept (by decide) (by decide)

/-- What is added while a report is under way is forgotten when the answer comes: 150 bytes pass
a quota of 100. -/
theorem lateAnswer_exceeds :
    (drive Node.step (start 100 0) [.add 50, .take, .manage 0 .answer, .add 50, .finish 0,
      .add 50]).granted = 150 := by
  decide

end SingBox.Traffic
