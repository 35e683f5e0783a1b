/-
This file models the DNS rule walk of `dns/router.go`: `walkDNSRules`,
`settleDNSFutures`, `sweepArmedDNSRules`, `resumeExchangeWithRules` and
`finishPendingExchange`, with the options and actions they read.

The walk is a coroutine. It suspends to await an exchange, to drain the armed
race rules or to send a last query, and it resumes at the rule it left. Here it
is a machine: `Control` is the program point, `WalkState` the `dnsRuleWalkState`,
and `step` one turn of a loop. Each exchange has a fixed outcome. When its
completion becomes visible is the schedule's choice: every call of
`dnsEvaluatedFuture.resolved` is a poll, the state counts the polls, and the
schedule says from which poll on a future is seen as resolved. Blocking on the
wake channel is a turn of the resume loop that changes nothing, because the
channel is signalled after every completion. `Match` leaves the metadata as it
found it, so the machine builds the metadata for every match anew.
-/

import SingBox.RuleFormula
import SingBox.Machine

namespace SingBox

open Function

/-! ### Options and actions -/

/-- An `adapter.DNSTransport`. -/
structure DNSTransport where
  tag : String
  isFakeIP : Bool := false
  deriving DecidableEq, Repr

inductive DomainStrategy where
  | asIS
  | preferIPv4
  | preferIPv6
  | ipv4Only
  | ipv6Only
  deriving DecidableEq, Repr

/-- A valid `netip.Prefix`. -/
structure Subnet where
  addr : Addr
  bits : Nat
  deriving DecidableEq, Repr

/-- `adapter.DNSQueryOptions`. -/
structure DNSQueryOptions where
  strategy : DomainStrategy := .asIS
  lookupStrategy : DomainStrategy := .asIS
  disableCache : Bool := false
  disableOptimisticCache : Bool := false
  rewriteTTL : Option UInt32 := none
  timeout : Nat := 0
  clientSubnet : Option Subnet := none
  removeClientSubnet : Bool := false
  deriving DecidableEq, Repr

/-- `RuleActionDNSRouteOptions`, without the strategy that this path never reads. -/
structure RuleActionDNSRouteOptions where
  disableCache : Bool := false
  disableOptimisticCache : Bool := false
  rewriteTTL : Option UInt32 := none
  timeout : Nat := 0
  clientSubnet : Option Subnet := none
  removeClientSubnet : Bool := false
  deriving DecidableEq, Repr

/-- `Router.applyDNSRouteOptions`. -/
def applyDNSRouteOptions (options : DNSQueryOptions)
    (routeOptions : RuleActionDNSRouteOptions) : DNSQueryOptions :=
  let options := if routeOptions.disableCache then { options with disableCache := true }
    else options
  let options := if routeOptions.disableOptimisticCache then
      { options with disableOptimisticCache := true }
    else options
  let options := if routeOptions.rewriteTTL.isSome then
      { options with rewriteTTL := routeOptions.rewriteTTL }
    else options
  let options := if routeOptions.timeout > 0 then { options with timeout := routeOptions.timeout }
    else options
  let options := if routeOptions.clientSubnet.isSome then
      { options with clientSubnet := routeOptions.clientSubnet, removeClientSubnet := false }
    else options
  if routeOptions.removeClientSubnet then
    { options with clientSubnet := none, removeClientSubnet := true }
  else options

/-- The actions of a DNS rule. A predefined action is its `Response` method. -/
inductive DNSRuleAction where
  | routeOptions (options : RuleActionDNSRouteOptions)
  | evaluate (server tag : String) (speculative : Bool) (options : RuleActionDNSRouteOptions)
  | respond
  | route (server : String) (speculative : Bool) (options : RuleActionDNSRouteOptions)
  | reject (action : RuleActionReject)
  | predefined (response : Msg → Msg)

mutual

/-- `MatchResponseTags`: the evaluate tags that a rule binds. -/
def Rule.matchResponseTags : Rule → List String
  | .default rule _ => match rule.matchResponse with
    | .tagged tag => [tag]
    | .disabled | .anonymous => []
  | .logical _ rules _ => (matchResponseTagsOf rules).eraseDups

def matchResponseTagsOf : List Rule → List String
  | [] => []
  | rule :: rest => rule.matchResponseTags ++ matchResponseTagsOf rest

end

mutual

/-- `MatchResponseAnonymous`: whether a rule binds the anonymous response. -/
def Rule.matchResponseAnonymous : Rule → Bool
  | .default rule _ => rule.matchResponse == .anonymous
  | .logical _ rules _ => matchResponseAnonymousOf rules

def matchResponseAnonymousOf : List Rule → Bool
  | [] => false
  | rule :: rest => rule.matchResponseAnonymous || matchResponseAnonymousOf rest

end

/-- A DNS rule with its action. -/
structure DNSRule where
  rule : Rule
  action : DNSRuleAction
  race : Bool := false

namespace DNSRule

def matchResponseTags (rule : DNSRule) : List String := rule.rule.matchResponseTags

def matchResponseAnonymous (rule : DNSRule) : Bool := rule.rule.matchResponseAnonymous

/-- `MatchResponseTag`: the tag of a default rule, nothing for a logical rule. -/
def matchResponseTag (rule : DNSRule) : Option String :=
  match rule.rule with
  | .default inner _ => match inner.matchResponse with
    | .tagged tag => some tag
    | .disabled | .anonymous => none
  | .logical _ _ _ => none

def hasBindings (rule : DNSRule) : Bool :=
  !rule.matchResponseTags.isEmpty || rule.matchResponseAnonymous

end DNSRule

/-! ### Exchanges -/

/-- What an exchange ends with. -/
structure ExchangeOutcome where
  response : Option Msg := none
  err : Option String := none
  deriving DecidableEq, Repr

/-- Who sends a query: a rule of the list, or the walk when it is over. -/
inductive ExchangeSite where
  | rule (index : Nat)
  | final
  deriving DecidableEq, Repr

/-- The router and the query that is walked: the transports, the outcome of every exchange,
and the arguments of `exchangeWithRules`. -/
structure WalkContext where
  transport : String → Option DNSTransport
  defaultTransport : DNSTransport
  defaultDomainStrategy : DomainStrategy := .asIS
  exchange : ExchangeSite → DNSTransport → DNSQueryOptions → ExchangeOutcome
  message : Msg := {}
  metadata : InboundContext := {}
  options : DNSQueryOptions := {}
  allowFakeIP : Bool := false

/-- What determines the outcome of an exchange that a rule launches. -/
structure Launch where
  site : Nat
  transport : DNSTransport
  options : DNSQueryOptions
  deriving DecidableEq, Repr

/-- A `dnsEvaluatedFuture`. The order of the launches identifies it. -/
structure Future extends Launch where
  id : Nat
  tag : String
  terminal : Bool := false
  deriving DecidableEq, Repr

/-- `exchangeWithRulesResult`. -/
structure ExchangeResult where
  response : Option Msg := none
  transport : Option DNSTransport := none
  rejectAction : Option RuleActionReject := none
  err : Option String := none
  deriving DecidableEq, Repr

def dnsRespondMissingResponseMessage : String :=
  "respond action requires an evaluated response from a preceding evaluate action"

/-- The result of a respond action with a response that may be nil. -/
def respondWith (response : Option Msg) (transport : Option DNSTransport) : ExchangeResult :=
  match response with
  | none => { err := dnsRespondMissingResponseMessage }
  | some response => { response, transport }

def errDrop : String := "packet dropped"

def dnsRefusedResponse (message : Msg) : Msg where
  id := message.id
  rcode := rcodeRefused
  response := true
  question := message.question.take 1

namespace WalkContext

variable (router : WalkContext)

/-- `Router.finalizeExchangeOptions`. -/
def finalizeExchangeOptions (options : DNSQueryOptions) : DNSQueryOptions :=
  if options.strategy = .asIS then { options with strategy := router.defaultDomainStrategy }
  else options

/-- What a launched exchange ends with. -/
def outcome (launch : Launch) : ExchangeOutcome :=
  router.exchange (.rule launch.site) launch.transport
    (router.finalizeExchangeOptions launch.options)

/-- `dnsEvaluatedFuture.view` of a resolved future. -/
def view (launch : Launch) : Option Msg :=
  if (router.outcome launch).err.isSome then none else (router.outcome launch).response

/-- `Router.resolveDNSRoute`: no value for a missing transport and for a skipped one. -/
def resolveDNSRoute (server : String) (routeOptions : RuleActionDNSRouteOptions)
    (options : DNSQueryOptions) : Option (DNSTransport × DNSQueryOptions) :=
  match router.transport server with
  | none => none
  | some transport =>
    if transport.isFakeIP && !router.allowFakeIP then none
    else
      let options := applyDNSRouteOptions options routeOptions
      some (transport, if transport.isFakeIP then { options with disableCache := true }
        else options)

/-- The metadata a rule of the walk is matched with. -/
def matchMetadata (anonymous : Option Msg) (named : String → Option Msg) : InboundContext :=
  { router.metadata.resetRuleCache with
    dnsResponse := anonymous
    namedDNSResponses := named
    destinationAddressMatchFromResponse := false }

end WalkContext

/-! ### The state of a walk -/

/-- A `dnsArmedRule`. -/
structure ArmedRule where
  ruleIndex : Nat
  rule : DNSRule
  futures : List Future
  anonymousFuture : Option Future
  bindsAnonymous : Bool
  options : DNSQueryOptions

/-- A `dnsPendingExchange`. -/
structure PendingExchange where
  transport : DNSTransport
  options : DNSQueryOptions := {}
  future : Option Future := none
  deriving DecidableEq, Repr

/-- A `dnsWalkSuspension`. -/
inductive Suspension where
  | await (future : Future)
  | drain
  | pending (exchange : PendingExchange)
  deriving DecidableEq, Repr

/-- `dnsRuleWalkState`. The `settled` flags of the futures are the list of settled ids, and
`clock` counts the polls. -/
structure WalkState where
  ruleIndex : Nat := 0
  effectiveOptions : DNSQueryOptions := {}
  anonymousFuture : Option Future := none
  namedFutures : String → Option Future := fun _ => none
  namedResponses : String → Option Msg := fun _ => none
  namedTransports : String → Option DNSTransport := fun _ => none
  futures : List Future := []
  settled : List Nat := []
  armedRules : List ArmedRule := []
  terminalFuture : Option Future := none
  terminalIndex : Nat := 0
  clock : Nat := 0

/-- From which poll on the completion of a future is visible. -/
abbrev Schedule := Nat → Nat

namespace WalkState

def setClock (state : WalkState) (clock : Nat) : WalkState := { state with clock }

variable (router : WalkContext) (schedule : Schedule)

/-- `dnsEvaluatedFuture.resolved`. -/
def resolved (state : WalkState) (future : Future) : Bool × WalkState :=
  (schedule future.id ≤ state.clock, state.setClock (state.clock + 1))

/-- `dnsEvaluatedFuture.view` of a future that may be nil. -/
def viewOf (state : WalkState) : Option Future → Option Msg × WalkState
  | none => (none, state)
  | some future =>
    let (isResolved, state) := state.resolved schedule future
    (if isResolved then router.view future.toLaunch else none, state)

/-- `dnsRuleWalkState.anonymousResponse`. -/
def anonymousResponse (state : WalkState) : Option Msg × WalkState :=
  state.viewOf router schedule state.anonymousFuture

/-- One turn of `settleDNSFutures`. The view is taken of a future just seen resolved, so the
poll inside it is not counted. -/
def settleFuture (state : WalkState) (future : Future) : WalkState :=
  if state.settled.contains future.id then state
  else
    let (isResolved, state) := state.resolved schedule future
    if !isResolved then state
    else
      let state := { state with settled := future.id :: state.settled }
      if future.tag = "" then state
      else { state with
        namedResponses :=
          Function.update state.namedResponses future.tag (router.view future.toLaunch)
        namedTransports := Function.update state.namedTransports future.tag future.transport }

/-- `Router.settleDNSFutures`. -/
def settleDNSFutures (state : WalkState) : WalkState :=
  state.futures.foldl (settleFuture router schedule) state

/-- `Router.launchDNSEvaluate`, by the rule the walk is at. -/
def launchDNSEvaluate (state : WalkState) (tag : String) (terminal : Bool)
    (transport : DNSTransport) (options : DNSQueryOptions) : Future × WalkState :=
  let future : Future :=
    { id := state.futures.length, tag, terminal, site := state.ruleIndex, transport, options }
  (future, { state with futures := state.futures ++ [future] })

/-- The first future of the list that a poll finds unresolved. -/
def firstUnresolved (state : WalkState) : List Future → Option Future × WalkState
  | [] => (none, state)
  | future :: rest =>
    let (isResolved, state) := state.resolved schedule future
    if isResolved then state.firstUnresolved rest else (some future, state)

/-- The futures of the list that a poll finds unresolved. -/
def allUnresolved (state : WalkState) : List Future → List Future × WalkState
  | [] => ([], state)
  | future :: rest =>
    let (isResolved, state) := state.resolved schedule future
    let (unresolved, state) := state.allUnresolved rest
    (if isResolved then unresolved else future :: unresolved, state)

/-- The futures that the tags of a rule refer to. -/
def taggedFutures (state : WalkState) (rule : DNSRule) : List Future :=
  rule.matchResponseTags.filterMap state.namedFutures

def boundAnonymous (state : WalkState) (rule : DNSRule) : Option Future :=
  if rule.matchResponseAnonymous then state.anonymousFuture else none

/-- All futures that a rule binds, in the order `walkDNSRules` polls them. -/
def boundFutures (state : WalkState) (rule : DNSRule) : List Future :=
  state.taggedFutures rule ++ (state.boundAnonymous rule).toList

end WalkState

/-! ### The machine -/

/-- Where a sweep returns to when no armed rule committed. -/
inductive AfterSweep where
  | nextRule
  | resume (suspension : Suspension)
  deriving DecidableEq, Repr

/-- The program point of a walk. -/
inductive Control where
  | walk
  | matchRule (rule : DNSRule)
  | sweep (index : Nat) (after : AfterSweep)
  | matchArmed (armed : ArmedRule) (index : Nat) (after : AfterSweep)
  | resume (suspension : Suspension)
  | decide (suspension : Suspension)
  | finish (exchange : PendingExchange)
  | done (result : ExchangeResult)

structure Walk where
  control : Control
  state : WalkState

namespace WalkState

/-- The walk goes on with the next rule. -/
def advance (state : WalkState) : Walk where
  control := .walk
  state := { state with ruleIndex := state.ruleIndex + 1 }

variable (router : WalkContext) (schedule : Schedule)

/-- The part of `walkDNSRules` before a rule is matched: settle the futures, arm a race rule,
await what the rule binds. -/
def visitRule (state : WalkState) (rule : DNSRule) : Walk :=
  if !rule.hasBindings then { control := .matchRule rule, state }
  else
    let state := state.settleDNSFutures router schedule
    if rule.race then
      let anonymousFuture := state.boundAnonymous rule
      let (pendingFutures, state) := state.allUnresolved schedule (state.boundFutures rule)
      let armed : ArmedRule :=
        { ruleIndex := state.ruleIndex, rule, futures := pendingFutures, anonymousFuture,
          bindsAnonymous := rule.matchResponseAnonymous, options := state.effectiveOptions }
      let state := { state with armedRules := state.armedRules ++ [armed] }
      if pendingFutures.isEmpty then { control := .sweep 0 .nextRule, state }
      else state.advance
    else
      match state.firstUnresolved schedule (state.boundFutures rule) with
      | (some future, state) => { control := .resume (.await future), state }
      | (none, state) => { control := .matchRule rule, state }

/-- The evaluate action of `walkDNSRules`. -/
def evaluate (state : WalkState) (server tag : String) (speculative : Bool)
    (options : RuleActionDNSRouteOptions) : Walk :=
  match router.transport server with
  | none => (if tag = "" then { state with anonymousFuture := none } else state).advance
  | some transport =>
    if !speculative && !state.armedRules.isEmpty then { control := .resume .drain, state }
    else
      let queryOptions := applyDNSRouteOptions state.effectiveOptions options
      let (future, state) := state.launchDNSEvaluate tag false transport queryOptions
      (if tag = "" then { state with anonymousFuture := some future }
        else { state with
          namedFutures := Function.update state.namedFutures tag (some future) }).advance

/-- The check of the respond action on the anonymous future, which a rule that binds it has
passed before. -/
def awaitAnonymous (state : WalkState) (rule : DNSRule) : Option Future × WalkState :=
  if rule.hasBindings then (none, state)
  else state.firstUnresolved schedule state.anonymousFuture.toList

/-- The respond action of `walkDNSRules`. -/
def respond (state : WalkState) (rule : DNSRule) : Walk :=
  match rule.matchResponseTag with
  | some tag =>
    { control := .done (respondWith (state.namedResponses tag) (state.namedTransports tag)), state }
  | none => match state.awaitAnonymous schedule rule with
    | (some future, state) => { control := .resume (.await future), state }
    | (none, state) =>
      let (response, state) := state.anonymousResponse router schedule
      { control := .done (respondWith response (state.anonymousFuture.map (·.transport))), state }

/-- The route action of `walkDNSRules`, once its transport is resolved. -/
def route (state : WalkState) (speculative : Bool) (transport : DNSTransport)
    (options : DNSQueryOptions) : Walk :=
  if !state.armedRules.isEmpty then
    if speculative && state.terminalFuture.isNone then
      let (future, state) := state.launchDNSEvaluate "" true transport options
      { control := .resume .drain,
        state := { state with
          terminalFuture := some future
          terminalIndex := state.ruleIndex } }
    else { control := .resume .drain, state }
  else match state.terminalFuture with
    | some future =>
      if state.terminalIndex = state.ruleIndex then
        { control := .resume (.pending { transport := future.transport, future := some future }),
          state }
      else { control := .resume (.pending { transport, options }), state }
    | none => { control := .resume (.pending { transport, options }), state }

/-- The switch of `walkDNSRules` over the action of a rule that matched. -/
def applyAction (state : WalkState) (rule : DNSRule) : Walk :=
  match rule.action with
  | .routeOptions options =>
    { state with
      effectiveOptions := applyDNSRouteOptions state.effectiveOptions options }.advance
  | .evaluate server tag speculative options =>
    state.evaluate router server tag speculative options
  | .respond =>
    if !state.armedRules.isEmpty then { control := .resume .drain, state }
    else state.respond router schedule rule
  | .route server speculative options =>
    match router.resolveDNSRoute server options state.effectiveOptions with
    | none => state.advance
    | some (transport, queryOptions) => state.route speculative transport queryOptions
  | .reject action =>
    if !state.armedRules.isEmpty then { control := .resume .drain, state }
    else match action.method with
      | .default =>
        { control := .done { response := dnsRefusedResponse router.message,
                             rejectAction := action }, state }
      | .drop => { control := .done { rejectAction := action, err := errDrop }, state }
      | .reply => state.advance
  | .predefined response =>
    if !state.armedRules.isEmpty then { control := .resume .drain, state }
    else { control := .done { response := response router.message }, state }

/-- The part of `walkDNSRules` from the match of a rule on. -/
def matchRule (state : WalkState) (rule : DNSRule) : Walk :=
  let (anonymous, state) := state.anonymousResponse router schedule
  if (rule.rule.matchOn (router.matchMetadata anonymous state.namedResponses)).1 then
    state.applyAction router schedule rule
  else state.advance

/-- The end of `walkDNSRules`, after the last rule. -/
def endOfRules (state : WalkState) : Walk :=
  if !state.armedRules.isEmpty then { control := .resume .drain, state }
  else
    { control := .resume (.pending { transport := router.defaultTransport,
                                     options := state.effectiveOptions }), state }

/-- A committed sweep whose result is still to be fetched. -/
def commitPending (state : WalkState) (after : AfterSweep) (exchange : PendingExchange) : Walk :=
  match after with
  | .nextRule =>
    { control := .resume (.pending exchange), state := { state with armedRules := [] } }
  | .resume _ => { control := .finish exchange, state }

/-- The response and the transport that the respond action of an armed rule returns. -/
def armedResponse (state : WalkState) (armed : ArmedRule) :
    Option Msg × Option DNSTransport × WalkState :=
  match armed.rule.matchResponseTag with
  | some tag => (state.namedResponses tag, state.namedTransports tag, state)
  | none => match armed.anonymousFuture with
    | some future =>
      let (response, state) := state.viewOf router schedule (some future)
      (response, some future.transport, state)
    | none => match state.anonymousFuture with
      | some future =>
        let (response, state) := state.anonymousResponse router schedule
        (response, some future.transport, state)
      | none => (none, none, state)

/-- The anonymous response that an armed rule is matched with. -/
def armedAnonymous (state : WalkState) (armed : ArmedRule) : Option Msg × WalkState :=
  if armed.bindsAnonymous then state.viewOf router schedule armed.anonymousFuture
  else state.anonymousResponse router schedule

/-- The switch of `sweepArmedDNSRules` over the action of an armed rule that matched. -/
def applyArmed (state : WalkState) (armed : ArmedRule) (index : Nat) (after : AfterSweep) : Walk :=
  match armed.rule.action with
  | .respond =>
    let (response, transport, state) := state.armedResponse router schedule armed
    { control := .done (respondWith response transport), state }
  | .route server _ options =>
    match router.resolveDNSRoute server options armed.options with
    | none => { control := .sweep index after, state }
    | some (transport, queryOptions) =>
      state.commitPending after { transport, options := queryOptions }
  | .reject action => match action.method with
    | .default =>
      { control := .done { response := dnsRefusedResponse router.message, rejectAction := action },
        state }
    | .drop => { control := .done { rejectAction := action, err := errDrop }, state }
    | .reply => { control := .sweep index after, state }
  | .predefined response => { control := .done { response := response router.message }, state }
  | .routeOptions _ | .evaluate _ _ _ _ => { control := .sweep index after, state }

/-- The part of `sweepArmedDNSRules` from the match of an armed rule on. -/
def matchArmed (state : WalkState) (armed : ArmedRule) (index : Nat) (after : AfterSweep) : Walk :=
  let (anonymous, state) := state.armedAnonymous router schedule armed
  if (armed.rule.rule.matchOn (router.matchMetadata anonymous state.namedResponses)).1 then
    state.applyArmed router schedule armed index after
  else { control := .sweep index after, state }

/-- One turn of the loop of `sweepArmedDNSRules`. -/
def sweep (state : WalkState) (index : Nat) (after : AfterSweep) : Walk :=
  match state.armedRules[index]? with
  | none => match after with
    | .nextRule => state.advance
    | .resume suspension => { control := .decide suspension, state }
  | some armed =>
    match state.firstUnresolved schedule armed.futures with
    | (some _, state) => { control := .sweep (index + 1) after, state }
    | (none, state) =>
      { control := .matchArmed armed index after,
        state := { state with armedRules := state.armedRules.eraseIdx index } }

/-- The part of `resumeExchangeWithRules` after the sweep. -/
def decide (state : WalkState) (suspension : Suspension) : Walk :=
  match suspension with
  | .pending exchange => { control := .finish exchange, state }
  | .await future =>
    let (isResolved, state) := state.resolved schedule future
    if isResolved then { control := .walk, state } else { control := .resume suspension, state }
  | .drain =>
    if state.armedRules.isEmpty then { control := .walk, state }
    else { control := .resume suspension, state }

/-- `Router.finishPendingExchange`. -/
def finishPendingExchange (exchange : PendingExchange) : ExchangeResult :=
  match exchange.future with
  | some future =>
    { response := router.view future.toLaunch
      transport := future.transport
      err := (router.outcome future.toLaunch).err }
  | none =>
    let outcome := router.exchange .final exchange.transport
      (router.finalizeExchangeOptions exchange.options)
    { response := outcome.response, transport := exchange.transport, err := outcome.err }

end WalkState

namespace Walk

variable (router : WalkContext) (schedule : Schedule) (rules : List DNSRule)

/-- One turn of a loop of the walk. -/
def step (walk : Walk) : Walk :=
  match walk.control with
  | .walk => match rules[walk.state.ruleIndex]? with
    | some rule => walk.state.visitRule router schedule rule
    | none => walk.state.endOfRules router
  | .matchRule rule => walk.state.matchRule router schedule rule
  | .sweep index after => walk.state.sweep schedule index after
  | .matchArmed armed index after => walk.state.matchArmed router schedule armed index after
  | .resume suspension =>
    { control := .sweep 0 (.resume suspension)
      state := walk.state.settleDNSFutures router schedule }
  | .decide suspension => walk.state.decide schedule suspension
  | .finish exchange =>
    { control := .done (WalkState.finishPendingExchange router exchange), state := walk.state }
  | .done _ => walk

/-- `Router.exchangeWithRules`: where the walk starts. -/
def start : Walk where
  control := .walk
  state := { effectiveOptions := router.options }

/-- The walk of a query after the given number of turns. -/
def run (count : Nat) : Walk :=
  Machine.run (step router schedule rules) (start router) count

end Walk

end SingBox
