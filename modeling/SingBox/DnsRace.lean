/-
This file is about walks with race rules. An armed race rule is a barrier: until
it is decided, no other rule ends the walk and only speculative exchanges are
launched. The barrier and the count of launched exchanges do not depend on the
schedule. What a walk produces is the result of a race rule that matched, or of
the first rule that ends the sequential walk, if the walk is timely; otherwise a
race rule can be decided without the response that it waited for.
-/

import SingBox.DnsSchedule

namespace SingBox

open WalkState

/-- A rule that is not a race rule, or the default transport, takes effect: the walk ends, sends
its last query, or launches an exchange that is not speculative. -/
inductive TakesEffect (before after : Walk) : Prop where
  | ends (place : before.control = .walk ∨ ∃ rule, before.control = .matchRule rule)
      (result : ExchangeResult) (done : after.control = .done result)
  | sends (place : before.control = .walk ∨ ∃ rule, before.control = .matchRule rule)
      (exchange : PendingExchange) (sent : after.control = .resume (.pending exchange))
  | launches (rule : DNSRule) (matched : before.control = .matchRule rule) (server tag : String)
      (options : RuleActionDNSRouteOptions)
      (evaluates : rule.action = .evaluate server tag false options)
      (launched : after.state.futures ≠ before.state.futures)

/-- No rule sends two queries: the exchanges come from different evaluate rules and speculative
route rules, and a route rule that sends the last query has launched no exchange before. -/
structure SendsOnce (rules : List DNSRule) (before after : Walk) : Prop where
  once : (after.state.futures.map (·.site)).Nodup
  launched : ∀ future ∈ after.state.futures, ∃ rule, rules[future.site]? = some rule ∧
    ((∃ server tag speculative options, rule.action = .evaluate server tag speculative options) ∨
      ∃ server options, rule.action = .route server true options)
  last : ∀ rule exchange, before.control = .matchRule rule →
    after.control = .resume (.pending exchange) → exchange.future = none →
      ∀ future ∈ before.state.futures, future.site ≠ before.state.ruleIndex

section

variable {router : WalkContext} {schedule : Schedule} {rules : List DNSRule} {state : WalkState}
  {rule : DNSRule}

/-! ### The barrier -/

/-- The walk neither ends nor sends its last query. -/
def Control.Held : Control → Prop
  | .done _ | .resume (.pending _) => False
  | _ => True

section Barrier

variable (armed : (!state.armedRules.isEmpty) = true)

include armed

theorem held_applyAction : (state.applyAction router schedule rule).control.Held := by
  fun_cases WalkState.applyAction router schedule state rule with
  | case2 =>
    unfold evaluate
    split
    · exact trivial
    · split <;> exact trivial
  | case6 =>
    unfold route
    rw [if_pos armed]
    split <;> exact trivial
  | case1 | case3 | case5 | case7 | case10 | case11 => exact trivial
  | _ => exact absurd armed ‹_›

/-- A rule with a query that is not speculative launches nothing while rules are armed. -/
theorem futures_evaluate (server tag : String) (options : RuleActionDNSRouteOptions) :
    (state.evaluate router server tag false options).state.futures = state.futures := by
  unfold evaluate
  split
  · split <;> rfl
  · rw [armed]
    rfl

theorem held_matchRule : (state.matchRule router schedule rule).control.Held := by
  obtain ⟨clock, _, left⟩ := state.anonymousResponse_polled router schedule
  unfold WalkState.matchRule
  dsimp only
  rw [left]
  split
  · exact held_applyAction armed
  · exact trivial

theorem futures_matchRule {server tag : String} {options : RuleActionDNSRouteOptions}
    (evaluates : rule.action = .evaluate server tag false options) :
    (state.matchRule router schedule rule).state.futures = state.futures := by
  obtain ⟨clock, _, left⟩ := state.anonymousResponse_polled router schedule
  unfold WalkState.matchRule
  dsimp only
  rw [left]
  split
  · have armed' : (!(state.setClock clock).armedRules.isEmpty) = true := armed
    unfold applyAction
    rw [evaluates]
    exact futures_evaluate armed' server tag options
  · rfl

end Barrier

theorem held_visitRule : (state.visitRule router schedule rule).control.Held := by
  unfold visitRule
  split
  · exact trivial
  · dsimp only
    split
    · split <;> exact trivial
    · split <;> exact trivial

/-- Nothing takes effect while a rule is armed. -/
theorem TakesEffect.unarmed {walk : Walk}
    (effect : TakesEffect walk (walk.step router schedule rules)) : walk.state.armedRules = [] := by
  obtain ⟨control, state⟩ := walk
  by_contra present
  have armed : (!state.armedRules.isEmpty) = true := by simpa using present
  have held (place : control = .walk ∨ ∃ rule, control = .matchRule rule) :
      (Walk.step router schedule rules ⟨control, state⟩).control.Held := by
    rcases place with rfl | ⟨rule, rfl⟩
    · unfold Walk.step
      dsimp only
      split
      · exact held_visitRule
      · unfold endOfRules
        rw [if_pos armed]
        exact trivial
    · exact held_matchRule armed
  cases effect with
  | ends place result done =>
    have := held place
    rw [done] at this
    exact this
  | sends place exchange sent =>
    have := held place
    rw [sent] at this
    exact this
  | launches rule matched server tag options evaluates launched =>
    subst matched
    exact launched (futures_matchRule armed evaluates)

/-! ### One query for each rule -/

variable {exchange : PendingExchange} {future : Future}

section

variable (ledger : Ledger router rules state) (member : future ∈ state.futures)
  (site : future.site = state.ruleIndex)

include ledger member site

/-- A route rule that has launched its exchange does not send another query. -/
theorem future_isSome_route {speculative : Bool} {transport : DNSTransport}
    {options : DNSQueryOptions}
    (sent : (state.route speculative transport options).control = .resume (.pending exchange)) :
    exchange.future ≠ none := by
  cases ledger.launched future member with
  | evaluate _ _ _ _ _ _ passed => exact absurd site passed.ne
  | terminal _ _ _ _ kept place =>
    unfold route at sent
    split at sent
    · split at sent <;> cases sent
    · rw [kept] at sent
      dsimp only at sent
      rw [if_pos (place.trans site)] at sent
      cases sent
      simp

theorem future_isSome_applyAction
    (sent : (state.applyAction router schedule rule).control = .resume (.pending exchange)) :
    exchange.future ≠ none := by
  revert sent
  fun_cases WalkState.applyAction router schedule state rule with
  | case2 =>
    unfold evaluate
    split
    · rintro ⟨⟩
    · split <;> rintro ⟨⟩
  | case4 =>
    unfold respond
    split
    · rintro ⟨⟩
    · split <;> rintro ⟨⟩
  | case6 => exact future_isSome_route ledger member site
  | _ => rintro ⟨⟩

end

theorem Located.sendsOnce (accepted : Accepted rules) {walk : Walk}
    (located : Located router rules walk) :
    SendsOnce rules walk (walk.step router schedule rules) := by
  have next : Located router rules (walk.step router schedule rules) := located.step accepted
  have ledger := next.ledger
  refine ⟨ledger.once, fun future member => ?_, fun rule exchange matched sent absent future member
    site => ?_⟩
  · cases ledger.launched future member with
    | evaluate rule server speculative options listed launches _ =>
      exact ⟨rule, listed, .inl ⟨server, future.tag, speculative, options, launches⟩⟩
    | terminal rule listed launches _ _ _ =>
      refine ⟨rule, listed, .inr ?_⟩
      cases act : rule.action with
      | route server speculative options =>
        rw [act] at launches
        obtain rfl : speculative = true := launches
        exact ⟨server, options, rfl⟩
      | routeOptions | evaluate | respond | reject | predefined =>
        rw [act] at launches
        cases launches
  · obtain ⟨control, state⟩ := walk
    subst matched
    have sent : (state.matchRule router schedule rule).control = .resume (.pending exchange) := sent
    obtain ⟨clock, _, left⟩ := state.anonymousResponse_polled router schedule
    unfold WalkState.matchRule at sent
    dsimp only at sent
    rw [left] at sent
    split at sent
    · have ledger : Ledger router rules (state.setClock clock) := located.ledger.congr rfl
      exact future_isSome_applyAction ledger member site sent absent
    · cases sent

/-- The race barrier. While a rule is armed, no other rule takes effect. No rule sends two
queries. And a timely walk produces the result of a race rule that matched, of the first rule
that ends the sequential walk, or of the default transport. -/
theorem Walk.race_barrier (router : WalkContext) (schedule : Schedule) (accepted : Accepted rules) :
    (∀ count, TakesEffect (Walk.run router schedule rules count)
      (Walk.run router schedule rules (count + 1)) →
        (Walk.run router schedule rules count).state.armedRules = []) ∧
    (∀ count, SendsOnce rules (Walk.run router schedule rules count)
      (Walk.run router schedule rules (count + 1))) ∧
    ((∀ count, (Walk.run router schedule rules count).Timely) → ∀ count result,
      (Walk.run router schedule rules count).control = .done result →
        Produced router schedule rules (Walk.run router schedule rules count).state result) := by
  refine ⟨fun count effect => effect.unarmed, fun count => ?_, fun timely count result done => ?_⟩
  · exact (Located.run accepted count).sendsOnce accepted
  · have sound := (Follows.run accepted timely count).sound
    rw [done] at sound
    exact sound

end

/-! ### A race rule without its response -/

namespace LostRace

/-- A race rule that rejects the query unless the tagged response is a success. -/
def guard : DNSRule where
  rule := .default
    { items := [fun metadata => metadata.dnsResponse.any (·.rcode == rcodeSuccess)]
      invert := true
      matchResponse := .tagged "answer" } none
  action := .reject { method := .default }
  race := true

def rules : List DNSRule := [MissedResponse.ask, guard]

theorem reads_guard : guard.rule.Every ReadsBound := by
  refine .default _ _ ⟨?_, ?_, ?_⟩ ?_
  · rintro other member metadata named
    rw [List.mem_singleton.mp member]
    rfl
  · rintro ⟨⟩
  · rintro _ ⟨⟩
  · rintro _ ⟨⟩

theorem accepted : Accepted rules := by
  refine ⟨?_, ⟨_, rfl⟩, ?_⟩
  all_goals
    intro rule member
    rcases List.mem_pair.mp member with rfl | rfl
  · rfl
  · rfl
  · exact MissedResponse.reads_ask
  · exact reads_guard

theorem committed_none : ∀ index, committed MissedResponse.router rules index = none
  | 0 | 1 | _ + 2 => rfl

end LostRace

/-- The answer, a success, arrives after the walk has settled the futures for the race rule and
before it lists what the rule waits for. The rule is swept at once without the response, and
rejects the query that it should let pass. -/
theorem Walk.race_without_response :
    Accepted LostRace.rules ∧
    (Walk.run MissedResponse.router (fun _ => 1) LostRace.rules 5).control = .done
      { response := some (dnsRefusedResponse {}), rejectAction := some { method := .default } } ∧
    ¬Produced MissedResponse.router (fun _ => 1) LostRace.rules
      (Walk.run MissedResponse.router (fun _ => 1) LostRace.rules 5).state
      { response := some (dnsRefusedResponse {}), rejectAction := some { method := .default } } := by
  refine ⟨LostRace.accepted, rfl, fun produced => ?_⟩
  cases produced with
  | race index rule listed _ _ _ commits =>
    rw [LostRace.committed_none] at commits
    cases commits
  | final index rule listed final _ gives =>
    cases gives with
    | inTurn commits =>
      rw [LostRace.committed_none] at commits
      cases commits
    | speculative _ _ _ _ present routes _ _ _ _ _ =>
      rcases List.mem_pair.mp (List.mem_of_getElem? present) with rfl | rfl <;> cases routes
  | default _ result => cases result

/-- The walk that sees the answer at the first poll asks the default server. -/
theorem Walk.race_barrier_atOnce :
    Produced MissedResponse.router (fun _ => 0) LostRace.rules
      (Walk.run MissedResponse.router (fun _ => 0) LostRace.rules 11).state
      { response := some { rcode := rcodeRefused }, transport := some { tag := "local" } } := by
  refine (Walk.race_barrier MissedResponse.router (fun _ => 0) LostRace.accepted).2.2
    (fun count => ?_) 11 _ rfl
  rcases Nat.lt_or_ge count 11 with early | late
  · interval_cases count <;> decide
  · obtain ⟨more, rfl⟩ := Nat.exists_eq_add_of_le late
    rw [Walk.run_of_done rfl]
    trivial

/-- On every schedule a rule launches at most one exchange, and the response under a tag is that
of the exchange which was launched under it. -/
theorem Walk.launches_once (router : WalkContext) (schedule : Schedule) {rules : List DNSRule}
    (accepted : Accepted rules) (count : Nat) :
    let state := (Walk.run router schedule rules count).state
    (state.futures.map (·.site)).Nodup ∧ ∀ tag future, state.namedFutures tag = some future →
      future.id ∈ state.settled → state.namedResponses tag = router.view future.toLaunch :=
  have ledger := (Located.run accepted count).ledger
  ⟨ledger.once, fun tag future named settled => (ledger.response tag future named settled).1⟩

/-- The answer of the tagged rule arrives at once and is settled under its tag. -/
theorem Walk.launches_once_atOnce :
    let state := (Walk.run MissedResponse.router (fun _ => 0) LostRace.rules 11).state
    (state.futures.map (·.site)).Nodup ∧ ∀ tag future, state.namedFutures tag = some future →
      future.id ∈ state.settled →
        state.namedResponses tag = MissedResponse.router.view future.toLaunch :=
  Walk.launches_once MissedResponse.router (fun _ => 0) LostRace.accepted 11

end SingBox
