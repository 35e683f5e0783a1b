/-
This file says what a walk of the DNS rules is for. The rules are considered in
order, every evaluate action completes before the next rule is considered, and
the first rule that matches and ends the walk gives the result. There are no
polls, suspensions or armed rules here; `sequentialAt` is the state in which a
rule is considered, and `committed` the result that the rule gives in it.
-/

import SingBox.DnsRules

namespace SingBox

/-- What the rules before a rule leave for it: the query options and the exchanges launched. -/
structure Sequential where
  options : DNSQueryOptions
  anonymous : Option Launch := none
  named : String → Option Launch := fun _ => none

namespace Sequential

variable (router : WalkContext)

/-- A rule is matched with the responses of completed exchanges. -/
def matchRule (seq : Sequential) (rule : DNSRule) : Bool :=
  (rule.rule.matchOn (router.matchMetadata (seq.anonymous.bind router.view)
    fun tag => (seq.named tag).bind router.view)).1

/-- The exchange whose response a respond action returns. -/
def respondLaunch (seq : Sequential) (rule : DNSRule) : Option Launch :=
  match rule.matchResponseTag with
  | some tag => seq.named tag
  | none => seq.anonymous

/-- The result of a rule that matched, if its action ends the walk. -/
def effect (seq : Sequential) (rule : DNSRule) : Option ExchangeResult :=
  match rule.action with
  | .respond =>
    let launch := seq.respondLaunch rule
    some (respondWith (launch.bind router.view) (launch.map (·.transport)))
  | .route server _ options =>
    (router.resolveDNSRoute server options seq.options).map fun (transport, options) =>
      WalkState.finishPendingExchange router { transport, options }
  | .reject action => match action.method with
    | .default =>
      some { response := dnsRefusedResponse router.message, rejectAction := action }
    | .drop => some { rejectAction := action, err := errDrop }
    | .reply => none
  | .predefined response => some { response := response router.message }
  | .routeOptions _ | .evaluate _ _ _ _ => none

/-- The state after a rule that matched and did not end the walk. -/
def apply (seq : Sequential) (index : Nat) (rule : DNSRule) : Sequential :=
  match rule.action with
  | .routeOptions options => { seq with options := applyDNSRouteOptions seq.options options }
  | .evaluate server tag _ options => match router.transport server with
    | none => if tag = "" then { seq with anonymous := none } else seq
    | some transport =>
      let launch : Launch :=
        { site := index, transport, options := applyDNSRouteOptions seq.options options }
      if tag = "" then { seq with anonymous := some launch }
      else { seq with named := Function.update seq.named tag (some launch) }
  | .respond | .route _ _ _ | .reject _ | .predefined _ => seq

/-- The state in which the rule after the given one is considered. -/
def next (seq : Sequential) (index : Nat) (rule : DNSRule) : Sequential :=
  if seq.matchRule router rule then seq.apply router index rule else seq

/-- The exchanges that a rule binds. -/
def boundLaunches (seq : Sequential) (rule : DNSRule) : List Launch :=
  rule.matchResponseTags.filterMap seq.named ++
    (if rule.matchResponseAnonymous then seq.anonymous else none).toList

end Sequential

variable (router : WalkContext) (rules : List DNSRule)

/-- The state in which the rule at an index is considered. -/
def sequentialAt : Nat → Sequential
  | 0 => { options := router.options }
  | index + 1 => match rules[index]? with
    | none => sequentialAt index
    | some rule => (sequentialAt index).next router index rule

/-- The result that the rule at an index gives when it is considered. -/
def committed (index : Nat) : Option ExchangeResult :=
  rules[index]?.bind fun rule =>
    if (sequentialAt router rules index).matchRule router rule then
      (sequentialAt router rules index).effect router rule
    else none

/-- The result of an exchange that a rule launched ahead of its turn. -/
def launchedResult (launch : Launch) : ExchangeResult where
  response := router.view launch
  transport := launch.transport
  err := (router.outcome launch).err

/-- The result that the rule at an index gives, or gives through the exchange that it launched
ahead of its turn, behind a race rule. -/
inductive Gives (index : Nat) (result : ExchangeResult) : Prop where
  | inTurn (committed : committed router rules index = some result)
  | speculative (rule : DNSRule) (server : String) (options : RuleActionDNSRouteOptions)
      (launch : Launch) (listed : rules[index]? = some rule)
      (routes : rule.action = .route server true options)
      (hit : (sequentialAt router rules index).matchRule router rule = true)
      (resolves : router.resolveDNSRoute server options (sequentialAt router rules index).options =
        some (launch.transport, launch.options))
      (site : launch.site = index)
      (ahead : ∃ other < index, ∃ race, rules[other]? = some race ∧ race.race = true)
      (result : result = launchedResult router launch)

def defaultResult : ExchangeResult :=
  WalkState.finishPendingExchange router
    { transport := router.defaultTransport
      options := (sequentialAt router rules rules.length).options }

/-- The result of a walk in which every evaluate action completes before the next rule. -/
def sequentialWalk : ExchangeResult :=
  ((List.range rules.length).findSome? (committed router rules)).getD (defaultResult router rules)

variable {router rules}

variable {index : Nat} {rule : DNSRule} {seq : Sequential}

theorem sequentialAt_succ (listed : rules[index]? = some rule) :
    sequentialAt router rules (index + 1) =
      (sequentialAt router rules index).next router index rule := by
  rw [sequentialAt, listed]

theorem committed_eq (listed : rules[index]? = some rule) : committed router rules index =
      if (sequentialAt router rules index).matchRule router rule then
        (sequentialAt router rules index).effect router rule
      else none := by
  rw [committed, listed, Option.bind_some]

theorem committed_of_length_le (beyond : rules.length ≤ index) :
    committed router rules index = none := by
  rw [committed, List.getElem?_eq_none beyond, Option.bind_none]

/-- The first rule that ends the walk gives the result. -/
theorem sequentialWalk_of_committed {result : ExchangeResult}
    (earlier : ∀ other < index, committed router rules other = none)
    (ends : committed router rules index = some result) : sequentialWalk router rules = result := by
  have inside : index < rules.length := by
    by_contra beyond
    rw [committed_of_length_le (by omega)] at ends
    cases ends
  have first : (List.range rules.length).findSome? (committed router rules) = some result := by
    refine List.findSome?_eq_some_iff.mpr
      ⟨List.range index, index, (List.range' (index + 1) (rules.length - (index + 1))), ?_, ends, ?_⟩
    · have joined := List.range'_append_1 (s := 0) (m := index)
        (n := rules.length - (index + 1) + 1)
      rw [Nat.zero_add, List.range'_succ] at joined
      rw [List.range_eq_range', List.range_eq_range', joined]
      congr 1
      omega
    · intro other member
      exact earlier other (List.mem_range.mp member)
  rw [sequentialWalk, first, Option.getD_some]

/-- If no rule ends the walk, the default transport gives the result. -/
theorem sequentialWalk_of_none (none : ∀ index, committed router rules index = none) :
    sequentialWalk router rules = defaultResult router rules := by
  have first : (List.range rules.length).findSome? (committed router rules) = Option.none :=
    List.findSome?_eq_none_iff.mpr fun index _ => none index
  rw [sequentialWalk, first, Option.getD_none]

/-- Only the rule that defines a tag changes what the tag refers to. -/
theorem Sequential.next_named (seq : Sequential) (index : Nat) {tag : String}
    (other : rule.evaluateTag ≠ some tag) :
    (seq.next router index rule).named tag = seq.named tag := by
  unfold Sequential.next
  split
  · unfold Sequential.apply
    cases act : rule.action with
    | evaluate server named speculative options =>
      dsimp only
      cases router.transport server with
      | none =>
        dsimp only
        split <;> rfl
      | some transport =>
        dsimp only
        split
        · rfl
        next tagged =>
          refine Function.update_of_ne ?_ _ _
          rintro rfl
          exact other (by simp [DNSRule.evaluateTag, act, tagged])
    | routeOptions | respond | route | reject | predefined => rfl
  · rfl

/-- What a rule binds does not change after the rule. -/
theorem Accepted.named_stable (accepted : Accepted rules) {first second : Nat}
    (before : first ≤ second) (listed : rules[first]? = some rule) {tag : String}
    (bound : tag ∈ rule.matchResponseTags) :
    (sequentialAt router rules second).named tag = (sequentialAt router rules first).named tag := by
  induction second, before using Nat.le_induction with
  | base => rfl
  | succ second before ih =>
    rw [← ih]
    cases present : rules[second]? with
    | none => rw [sequentialAt, present]
    | some other =>
      rw [sequentialAt_succ present]
      exact Sequential.next_named _ _ (accepted.evaluateTag_ne_of_bound listed present before bound)

/-- A rule that did not match leaves the state as it was. -/
theorem Sequential.next_of_miss (miss : seq.matchRule router rule = false) (index : Nat) :
    seq.next router index rule = seq := by
  rw [Sequential.next, miss]
  rfl

theorem Sequential.next_of_hit (hit : seq.matchRule router rule = true) (index : Nat) :
    seq.next router index rule = seq.apply router index rule := by
  rw [Sequential.next, if_pos hit]

/-- An action that may end the walk leaves the state as it was. -/
theorem Sequential.next_of_final (final : rule.action.isFinal = true) (seq : Sequential)
    (index : Nat) : seq.next router index rule = seq := by
  unfold Sequential.next Sequential.apply
  cases act : rule.action <;> simp_all [DNSRuleAction.isFinal]

theorem committed_of_miss (listed : rules[index]? = some rule)
    (miss : (sequentialAt router rules index).matchRule router rule = false) :
    committed router rules index = none := by
  rw [committed_eq listed, miss]
  rfl

theorem committed_of_hit (listed : rules[index]? = some rule)
    (hit : (sequentialAt router rules index).matchRule router rule = true) :
    committed router rules index = (sequentialAt router rules index).effect router rule := by
  rw [committed_eq listed, if_pos hit]

theorem sequentialAt_of_length_le (beyond : rules.length ≤ index) :
    sequentialAt router rules index = sequentialAt router rules rules.length := by
  induction index, beyond using Nat.le_induction with
  | base => rfl
  | succ index beyond ih =>
    rw [sequentialAt, List.getElem?_eq_none beyond]
    exact ih

theorem Sequential.effect_respond (act : rule.action = .respond) {launch : Option Launch}
    (responds : seq.respondLaunch rule = launch) : seq.effect router rule =
      some (respondWith (launch.bind router.view) (launch.map (·.transport))) := by
  rw [Sequential.effect, act, responds]

end SingBox
