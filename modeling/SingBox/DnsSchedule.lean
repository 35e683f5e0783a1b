/-
This file is about walks of lists without race rules. Nothing is ever armed in
them, so a walk only waits for exchanges, and it waits for each of them once: the
walk ends whatever the schedule. If it is timely, it ends with the result of the
sequential walk, for every schedule the same. A schedule under which it is not
timely can give another result.
-/

import SingBox.DnsFollow
import Mathlib

namespace SingBox

open WalkState

/-! ### The end of a walk -/

/-- What a walk without race rules suspends for. -/
def Suspension.Calm (futures : List Future) : Suspension → Prop
  | .await future => future ∈ futures
  | .drain => False
  | .pending _ => True

/-- Where a walk without race rules can be. -/
def Control.Calm (futures : List Future) : Control → Prop
  | .sweep _ (.resume suspension) | .resume suspension | .decide suspension =>
    suspension.Calm futures
  | .sweep _ .nextRule | .matchArmed _ _ _ => False
  | .walk | .matchRule _ | .finish _ | .done _ => True

/-- Nothing is armed. -/
structure Calm (walk : Walk) : Prop where
  unarmed : walk.state.armedRules = []
  control : walk.control.Calm walk.state.futures

/-- How many turns are left before the walk leaves the rule it is at, when nothing is awaited. -/
def Control.rank : Control → Nat
  | .done _ => 0
  | .finish _ => 1
  | .decide (.pending _) => 2
  | .sweep _ (.resume (.pending _)) => 3
  | .resume (.pending _) => 4
  | .matchRule _ => 5
  | .walk => 6
  | .decide _ => 7
  | .sweep _ _ => 8
  | .resume _ => 9
  | .matchArmed _ _ _ => 10

/-- How many polls the schedule can still let fail. -/
def WalkState.failing (schedule : Schedule) (state : WalkState) : Nat :=
  (state.futures.map fun future => schedule future.id - state.clock).sum

/-- The rules left, the polls that can fail and the turns left. -/
def Walk.measure (schedule : Schedule) (rules : List DNSRule) (walk : Walk) : Nat × Nat × Nat :=
  (rules.length - walk.state.ruleIndex, walk.state.failing schedule, walk.control.rank)

/-- The lexicographic order on measures. -/
abbrev Measure.Less : Nat × Nat × Nat → Nat × Nat × Nat → Prop :=
  Prod.Lex (· < ·) (Prod.Lex (· < ·) (· < ·))

theorem Measure.less_wellFounded : WellFounded Measure.Less :=
  WellFounded.prod_lex wellFounded_lt (WellFounded.prod_lex wellFounded_lt wellFounded_lt)

variable {future : Future}

namespace WalkState

variable {schedule : Schedule} {state later : WalkState}

theorem failing_le (futures : later.futures = state.futures) (clock : state.clock ≤ later.clock) :
    later.failing schedule ≤ state.failing schedule := by
  rw [failing, failing, futures]
  exact List.sum_le_sum fun future _ => Nat.sub_le_sub_left clock _

/-- A poll that failed was one of those that could. -/
theorem failing_lt (futures : later.futures = state.futures) (clock : state.clock < later.clock)
    (member : future ∈ state.futures) (unresolved : state.clock < schedule future.id) :
    later.failing schedule < state.failing schedule := by
  rw [failing, failing, futures]
  exact List.sum_lt_sum _ _ (fun other _ => Nat.sub_le_sub_left clock.le _)
    ⟨future, member, by omega⟩

end WalkState

/-- A step of a walk without race rules. -/
structure Progress (schedule : Schedule) (rules : List DNSRule) (before after : Walk) : Prop where
  calm : Calm after
  less : Measure.Less (after.measure schedule rules) (before.measure schedule rules)

namespace Progress

variable {router : WalkContext} {schedule : Schedule} {rules : List DNSRule}
  {state later : WalkState} {before control : Control} {rule : DNSRule}

section

variable (index : later.ruleIndex = state.ruleIndex) (unarmed : later.armedRules = [])

include index unarmed

/-- The walk leaves the rule. -/
theorem advance (inside : state.ruleIndex < rules.length) :
    Progress schedule rules ⟨before, state⟩ later.advance := by
  refine ⟨⟨unarmed, trivial⟩, .left _ _ ?_⟩
  show rules.length - (later.ruleIndex + 1) < rules.length - state.ruleIndex
  omega

/-- The walk goes on at the same rule. -/
theorem turn (futures : later.futures = state.futures) (clock : state.clock ≤ later.clock)
    (calm : control.Calm later.futures) (rank : control.rank < before.rank) :
    Progress schedule rules ⟨before, state⟩ ⟨control, later⟩ := by
  refine ⟨⟨unarmed, calm⟩, ?_⟩
  unfold Walk.measure
  rw [index]
  refine .right _ ?_
  rcases (failing_le futures clock).lt_or_eq with fewer | same
  · exact .left _ _ fewer
  · rw [same]
    exact .right _ rank

theorem failed (futures : later.futures = state.futures) (clock : state.clock < later.clock)
    (member : future ∈ state.futures) (unresolved : state.clock < schedule future.id) :
    Progress schedule rules ⟨before, state⟩ ⟨.resume (.await future), later⟩ := by
  refine ⟨⟨unarmed, show future ∈ later.futures from futures ▸ member⟩, ?_⟩
  unfold Walk.measure
  rw [index]
  exact .right _ (.left _ _ (failing_lt futures clock member unresolved))

end

theorem visitRule (ledger : Ledger router rules state) (unarmed : state.armedRules = [])
    (final : rule.race = false) :
    Progress schedule rules ⟨.walk, state⟩ (state.visitRule router schedule rule) := by
  unfold WalkState.visitRule
  split
  · exact turn rfl unarmed rfl le_rfl trivial (Nat.lt_succ_self _)
  · have settles : state.Settles (state.settleDNSFutures router schedule) :=
      state.settleDNSFutures_settles
    have booked : Ledger router rules (state.settleDNSFutures router schedule) :=
      ledger.settleDNSFutures
    generalize state.settleDNSFutures router schedule = state' at settles booked
    have unarmed' := settles.armedRules.trans unarmed
    rw [final, if_neg Bool.false_ne_true]
    have polled := firstUnresolved_polled schedule state' (state'.boundFutures rule)
    split
    next future later polls =>
      rw [polls] at polled
      obtain ⟨member, earlier, unresolved⟩ := unresolved_of_firstUnresolved polls
      obtain ⟨clock, grown, rfl⟩ := polled
      have inside := booked.mem_of_bound member
      rw [settles.futures] at inside
      have index : (state'.setClock clock).ruleIndex = state.ruleIndex := settles.ruleIndex
      have sooner : state.clock < (state'.setClock clock).clock := settles.clock.trans_lt earlier
      exact failed index unarmed' settles.futures sooner inside (sooner.trans_le unresolved)
    next later polls =>
      rw [polls] at polled
      obtain ⟨clock, grown, rfl⟩ := polled
      have index : (state'.setClock clock).ruleIndex = state.ruleIndex := settles.ruleIndex
      exact turn index unarmed' settles.futures (settles.clock.trans grown) trivial
        (Nat.lt_succ_self _)

variable {clock : Nat} (grown : state.clock ≤ clock)

include grown

section

variable (ledger : Ledger router rules state) (unarmed : state.armedRules = [])

include ledger unarmed

theorem respond : Progress schedule rules ⟨.matchRule rule, state⟩
      ((state.setClock clock).respond router schedule rule) := by
  unfold WalkState.respond
  split
  · exact turn rfl unarmed rfl grown trivial (Nat.zero_lt_succ _)
  · have polled := awaitAnonymous_polled schedule (state.setClock clock) rule
    split
    next future later polls =>
      rw [polls] at polled
      rw [awaitAnonymous] at polls
      split at polls
      · cases polls
      · obtain ⟨member, earlier, unresolved⟩ := unresolved_of_firstUnresolved polls
        rw [Option.mem_toList] at member
        obtain ⟨clock', _, rfl⟩ := polled
        have sooner : state.clock < (state.setClock clock').clock := grown.trans_lt earlier
        have index : (state.setClock clock').ruleIndex = state.ruleIndex := rfl
        exact failed index unarmed rfl sooner (ledger.anonymous future member)
          (sooner.trans_le unresolved)
    next later polls =>
      rw [polls] at polled
      obtain ⟨clock', grown', left⟩ :=
        polled.trans (later.anonymousResponse_polled router schedule)
      dsimp only
      rw [left]
      exact turn rfl unarmed rfl (grown.trans grown') trivial (Nat.zero_lt_succ _)

theorem applyAction (inside : state.ruleIndex < rules.length) :
    Progress schedule rules ⟨.matchRule rule, state⟩
      ((state.setClock clock).applyAction router schedule rule) := by
  have armed : (!(state.setClock clock).armedRules.isEmpty) = false := by
    rw [show (state.setClock clock).armedRules = [] from unarmed]
    rfl
  have ends (result : ExchangeResult) : Progress schedule rules ⟨.matchRule rule, state⟩
      ⟨.done result, state.setClock clock⟩ :=
    turn rfl unarmed rfl grown trivial (Nat.zero_lt_succ _)
  have sends (exchange : PendingExchange) : Progress schedule rules ⟨.matchRule rule, state⟩
      ⟨.resume (.pending exchange), state.setClock clock⟩ :=
    turn rfl unarmed rfl grown trivial (Nat.lt_succ_self _)
  fun_cases WalkState.applyAction router schedule (state.setClock clock) rule with
  | case2 =>
    unfold evaluate
    split
    · split <;> exact advance rfl unarmed inside
    · rw [armed, Bool.and_false, if_neg Bool.false_ne_true]
      split <;> exact advance rfl unarmed inside
  | case4 => exact respond grown ledger unarmed
  | case6 =>
    unfold route
    rw [armed, if_neg Bool.false_ne_true]
    split
    · split <;> exact sends _
    · exact sends _
  | case8 | case9 | case12 => exact ends _
  | case1 | case5 | case10 => exact advance rfl unarmed inside
  | case3 | case7 | case11 => exact absurd armed (Bool.not_eq_false _ ▸ ‹_›)

omit grown in
theorem matchRule (inside : state.ruleIndex < rules.length) :
    Progress schedule rules ⟨.matchRule rule, state⟩ (state.matchRule router schedule rule) := by
  obtain ⟨clock, grown, left⟩ := state.anonymousResponse_polled router schedule
  unfold WalkState.matchRule
  dsimp only
  rw [left]
  split
  · exact applyAction grown ledger unarmed inside
  · exact advance rfl unarmed inside

end

end Progress

section Ends

variable {router : WalkContext} {schedule : Schedule} {rules : List DNSRule}

def Walk.Finished (walk : Walk) : Prop := ∃ result, walk.control = .done result

/-- Every step of a walk without race rules that has no result yet is progress. -/
theorem Calm.step (final : ∀ rule ∈ rules, rule.race = false) {walk : Walk}
    (located : Located router rules walk) (calm : Calm walk) (unfinished : ¬walk.Finished) :
    Progress schedule rules walk (walk.step router schedule rules) := by
  obtain ⟨control, state⟩ := walk
  obtain ⟨unarmed, place⟩ := calm
  have ledger := located.ledger
  unfold Walk.step
  cases control with
  | walk =>
    dsimp only
    split
    next rule present => exact .visitRule ledger unarmed (final rule (List.mem_of_getElem? present))
    · unfold endOfRules
      rw [show state.armedRules = [] from unarmed]
      exact .turn rfl unarmed rfl le_rfl trivial (by simp [Control.rank])
  | matchRule rule =>
    exact .matchRule ledger unarmed (List.getElem?_eq_some_iff.mp located.listed).1
  | sweep index after =>
    have absent : state.armedRules[index]? = none := by simp [show state.armedRules = [] from unarmed]
    cases after with
    | nextRule => exact place.elim
    | resume suspension =>
      dsimp only
      unfold sweep
      rw [absent]
      refine .turn rfl unarmed rfl le_rfl place ?_
      cases suspension <;> exact Nat.lt_succ_self _
  | matchArmed armed index after => exact place.elim
  | resume suspension =>
    have settles : state.Settles (state.settleDNSFutures router schedule) :=
      state.settleDNSFutures_settles
    refine .turn settles.ruleIndex (settles.armedRules.trans unarmed) settles.futures settles.clock
      ?_ ?_
    · rw [settles.futures]
      exact place
    · cases suspension <;> exact Nat.lt_succ_self _
  | decide suspension =>
    cases suspension with
    | await future =>
      unfold WalkState.decide
      dsimp only [WalkState.resolved]
      split
      · exact .turn rfl unarmed rfl (Nat.le_succ _) trivial (Nat.lt_succ_self _)
      next unresolved =>
        have index : (state.setClock (state.clock + 1)).ruleIndex = state.ruleIndex := rfl
        exact .failed index unarmed rfl (Nat.lt_succ_self _) place (by simpa using unresolved)
    | drain => exact place.elim
    | pending exchange => exact .turn rfl unarmed rfl le_rfl trivial (Nat.lt_succ_self _)
  | finish exchange => exact .turn rfl unarmed rfl le_rfl trivial (Nat.lt_succ_self _)
  | done result => exact absurd ⟨result, rfl⟩ unfinished

/-- A walk of a list without race rules ends. -/
theorem Walk.finishes (accepted : Accepted rules) (final : ∀ rule ∈ rules, rule.race = false) :
    ∃ count, (Walk.run router schedule rules count).Finished := by
  refine Machine.finishes_of_measure (fun walk => Located router rules walk ∧ Calm walk)
    Measure.less_wellFounded (Walk.measure schedule rules) ⟨⟨Ledger.start, trivial⟩, rfl, trivial⟩
    (fun walk kept (_ : True) => ⟨kept.1.step accepted, ?_⟩)
    (fun walk kept _ unfinished => (kept.2.step final kept.1 unfinished).less) fun _ => trivial
  by_cases finished : walk.Finished
  · obtain ⟨result, done⟩ := finished
    obtain ⟨control, state⟩ := walk
    subst done
    exact kept.2
  · exact (kept.2.step final kept.1 finished).calm

variable {result : ExchangeResult}

theorem Walk.run_of_done {count : Nat}
    (done : (Walk.run router schedule rules count).control = .done result) (more : Nat) :
    Walk.run router schedule rules (count + more) = Walk.run router schedule rules count := by
  induction more with
  | zero => rfl
  | succ more ih =>
    have next : Walk.run router schedule rules (count + (more + 1)) =
        (Walk.run router schedule rules (count + more)).step router schedule rules := rfl
    rw [next, ih, Walk.step, done]

/-- Without race rules, what a walk that follows the sequential walk produces is its result. -/
theorem Produced.eq_sequentialWalk (final : ∀ rule ∈ rules, rule.race = false) {state : WalkState}
    (produced : Produced router schedule rules state result) :
    result = sequentialWalk router rules := by
  cases produced with
  | race index rule listed races _ _ _ =>
    exact absurd ((final rule (List.mem_of_getElem? listed)).symm.trans races) (by simp)
  | final index rule listed _ earlier gives =>
    cases gives with
    | inTurn commits => exact (sequentialWalk_of_committed earlier commits).symm
    | speculative _ _ _ _ _ _ _ _ _ ahead _ =>
      obtain ⟨other, _, race, present, races⟩ := ahead
      exact absurd ((final race (List.mem_of_getElem? present)).symm.trans races) (by simp)
  | default none result => exact result.trans (sequentialWalk_of_none none).symm

/-- A timely walk of an accepted list without race rules ends with the result of the sequential
walk, whatever the schedule. -/
theorem Walk.run_eq_sequentialWalk (accepted : Accepted rules)
    (final : ∀ rule ∈ rules, rule.race = false)
    (timely : ∀ count, (Walk.run router schedule rules count).Timely) :
    ∃ count, (Walk.run router schedule rules count).control =
      .done (sequentialWalk router rules) := by
  obtain ⟨count, result, done⟩ : ∃ count, (Walk.run router schedule rules count).Finished :=
    Walk.finishes accepted final
  have produced := (Follows.run accepted timely count).sound
  rw [done] at produced
  exact ⟨count, by rw [done, ← produced.eq_sequentialWalk final]⟩

end Ends

/-! ### A response that is missed -/

namespace MissedResponse

/-- A rule that asks a server for every query of an inbound, under a tag. -/
def ask : DNSRule where
  rule := .default { items := [fun metadata => metadata.inbound == "tun"] } none
  action := .evaluate "remote" "answer" false {}

/-- A rule that returns the tagged response if it is a success. -/
def answer : DNSRule where
  rule := .default
    { items := [fun metadata => metadata.dnsResponse.any (·.rcode == rcodeSuccess)]
      matchResponse := .tagged "answer" } none
  action := .respond

def rules : List DNSRule := [ask, answer]

/-- The asked server succeeds, the default server refuses. -/
def router : WalkContext where
  transport := fun tag => if tag = "remote" then some { tag } else none
  defaultTransport := { tag := "local" }
  exchange := fun site _ _ => match site with
    | .rule _ => { response := some { rcode := rcodeSuccess } }
    | .final => { response := some { rcode := rcodeRefused } }
  metadata := { inbound := "tun" }

theorem reads_ask : ask.rule.Every ReadsBound := by
  refine .default _ _ ⟨?_, ?_, ?_⟩ ?_
  · rintro other member metadata named
    rw [List.mem_singleton.mp member]
    rfl
  · rintro _ other member metadata response _
    rw [List.mem_singleton.mp member]
    rfl
  · rintro _ ⟨⟩
  · rintro _ ⟨⟩

theorem reads_answer : answer.rule.Every ReadsBound := by
  refine .default _ _ ⟨?_, ?_, ?_⟩ ?_
  · rintro other member metadata named
    rw [List.mem_singleton.mp member]
    rfl
  · rintro ⟨⟩
  · rintro _ ⟨⟩
  · rintro _ ⟨⟩

theorem accepted : Accepted rules := by
  refine ⟨?_, ⟨_, rfl⟩, ?_⟩
  all_goals
    intro rule member
    rcases List.mem_pair.mp member with rfl | rfl
  · rfl
  · rfl
  · exact reads_ask
  · exact reads_answer

theorem final : ∀ rule ∈ rules, rule.race = false := by
  intro rule member
  rcases List.mem_pair.mp member with rfl | rfl <;> rfl

end MissedResponse

/-- The answer arrives after the walk has settled the futures for the second rule and before it
checks what to await. The rule is matched without the response, and the default server is asked,
where a walk that sees the answer one poll earlier returns it. -/
theorem Walk.run_misses_response :
    Accepted MissedResponse.rules ∧ (∀ rule ∈ MissedResponse.rules, rule.race = false) ∧
    (Walk.run MissedResponse.router (fun _ => 0) MissedResponse.rules 4).control =
      .done (sequentialWalk MissedResponse.router MissedResponse.rules) ∧
    (Walk.run MissedResponse.router (fun _ => 1) MissedResponse.rules 9).control =
      .done { response := some { rcode := rcodeRefused }, transport := some { tag := "local" } } ∧
    sequentialWalk MissedResponse.router MissedResponse.rules =
      { response := some { rcode := rcodeSuccess }, transport := some { tag := "remote" } } :=
  ⟨MissedResponse.accepted, MissedResponse.final, rfl, rfl, rfl⟩

/-- The walk that sees the answer at the first poll. -/
theorem Walk.run_eq_sequentialWalk_atOnce :
    ∃ count, (Walk.run MissedResponse.router (fun _ => 0) MissedResponse.rules count).control =
      .done (sequentialWalk MissedResponse.router MissedResponse.rules) := by
  refine Walk.run_eq_sequentialWalk MissedResponse.accepted MissedResponse.final fun count => ?_
  rcases Nat.lt_or_ge count 4 with early | late
  · interval_cases count <;> decide
  · obtain ⟨more, rfl⟩ := Nat.exists_eq_add_of_le late
    rw [Walk.run_of_done rfl]
    trivial

end SingBox
