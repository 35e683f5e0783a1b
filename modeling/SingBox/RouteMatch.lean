/-
This file is the rule walk of `route/route.go`. A route rule pairs a condition
with an action; `matchRule` goes through the rules in order, lets every matching
action change the metadata, and stops at the first one that decides where the
connection goes.

The same walk serves TCP and UDP. What differs is what a sniff action has to
work with: a stream with the buffers read so far, or a packet connection with the
datagrams read so far. The walk is therefore generic in the type of what it
holds, and takes the sniff action as a parameter.
-/

import SingBox.RuleMatch
import SingBox.Machine

namespace SingBox

open Machine

/-! ### Actions -/

/-- A sniffer: it looks at the bytes it is given and may record what it recognises in the
metadata, also when it fails. -/
abbrev Sniffer := List UInt8 → InboundContext → Option SniffError × InboundContext

structure RuleActionRouteOptions where
  overrideAddress : Socksaddr := {}
  overridePort : UInt16 := 0
  overrideGateway : Option Addr := none
  networkStrategy : Option Nat := none
  networkType : List Nat := []
  fallbackNetworkType : List Nat := []
  fallbackDelay : Nat := 0
  udpDisableDomainUnmapping : Bool := false
  udpConnect : Bool := false
  udpTimeout : Nat := 0
  tlsFragment : Bool := false
  tlsFragmentFallbackDelay : Nat := 0
  tlsRecordFragment : Bool := false
  tlsSpoof : String := ""
  tlsSpoofMethod : Nat := 0

/-- A `RuleActionSniff`. Its timeout is part of when reads fail, not of what is read. -/
structure RuleActionSniff where
  snifferNames : List String := []
  streamSniffers : List Sniffer := []
  packetSniffers : List Sniffer := []
  overrideDestination : Bool := false

structure RuleActionResolve where
  server : String := ""
  timeout : Nat := 0
  strategy : Nat := 0
  disableCache : Bool := false
  disableOptimisticCache : Bool := false
  rewriteTTL : Option UInt32 := none
  clientSubnet : Option (Addr × Nat) := none

inductive RouteRuleAction where
  | sniff (action : RuleActionSniff)
  | resolve (action : RuleActionResolve)
  | route (outbound : String) (options : RuleActionRouteOptions)
  | routeOptions (options : RuleActionRouteOptions)
  | bypass (outbound : String) (options : RuleActionRouteOptions)
  | reject (action : RuleActionReject)
  | hijackDNS
  | direct

structure RouteRule where
  rule : Rule
  action : RouteRuleAction

/-! ### The router -/

/-- What the flow pre-match decides about a packet. -/
inductive PreMatchAction where
  | preMatchContinue
  | preMatchFlow
  | preMatchBypass
  | preMatchReject
  | preMatchDrop
  | preMatchHijackDNS
  deriving DecidableEq, Repr

/-- An outbound. A group has a current member (`Now`), a flow outbound decides about flows. -/
structure Outbound where
  tag : String
  network : List Network
  now : Option String := none
  preMatchFlow : Option (Network → Addr → PreMatchAction) := none

structure NeighborResolver where
  lookupMAC : Addr → Option (List UInt8)
  lookupHostname : Addr → Option String

structure FakeIPStore where
  contains : Addr → Bool
  lookup : Addr → Option String

/-- The host names that used to select global multiplexing. -/
structure MuxDestinations where
  mux : String
  vmessMux : String
  uotMagicAddress : String
  uotLegacyMagicAddress : String

/-- A `Router`, with the services it was given. -/
structure Router where
  rules : List RouteRule
  outbound : String → Option Outbound
  defaultOutbound : Outbound
  /-- The inbound of a tag: whether it takes TCP connections, and UDP ones. -/
  inbound : String → Option (Bool × Bool) := fun _ => none
  muxDestinations : MuxDestinations
  processSearcher : Option (Network → Socksaddr → Socksaddr → Option String) := none
  isLocalSource : Addr → Bool := fun _ => false
  neighborResolver : Option NeighborResolver := none
  fakeIP : Option FakeIPStore := none
  lookupReverseMapping : Addr → Option String := fun _ => none
  dnsTransport : String → Bool := fun _ => false
  lookup : InboundContext → String → RuleActionResolve → Except String (List Addr)
  defaultStreamSniffers : List Sniffer := []
  defaultPacketSniffers : List Sniffer := []
  quicClientHello : Sniffer
  /-- The size of the buffers `buf.NewPacket` returns. -/
  packetSize : Nat := 0
  /-- Whether the reject action at hand has seen more than fifty requests in its window. -/
  flooding : RuleActionReject → Bool := fun _ => false

/-- An assignment to `Network`. -/
def InboundContext.setNetwork (metadata : InboundContext) (network : Network) : InboundContext :=
  { metadata with network := network }

/-- `Router.searchProcessInfo`. -/
def searchProcessInfo (router : Router) (metadata : InboundContext) : InboundContext :=
  match router.processSearcher with
  | none => metadata
  | some searcher =>
    if metadata.processInfo.isSome || !router.isLocalSource metadata.source.addr then metadata
    else
      let originDestination :=
        if metadata.originDestination.isValid then metadata.originDestination
        else if metadata.destination.isIP then metadata.destination
        else {}
      match searcher metadata.network metadata.source originDestination with
      | none => metadata
      | some info => { metadata with processInfo := some info }

/-- The neighbour lookup of `prepareMatchMetadata`. -/
def searchNeighbor (router : Router) (metadata : InboundContext) : InboundContext :=
  match router.neighborResolver with
  | none => metadata
  | some resolver =>
    if metadata.sourceMACAddress.isNone && metadata.source.addr.isValid then
      { metadata with
        sourceMACAddress := resolver.lookupMAC metadata.source.addr
        sourceHostname :=
          (resolver.lookupHostname metadata.source.addr).getD metadata.sourceHostname }
    else metadata

/-- A fake address is replaced by the name it stands for. -/
def restoreFakeIP (metadata : InboundContext) (domain : String) : InboundContext :=
  if domain = "" then metadata
  else
    { metadata with
      originDestination := metadata.destination
      destination := { fqdn := domain, port := metadata.destination.port }
      fakeIP := true }

/-- The destination lookup of `prepareMatchMetadata`. -/
def searchDestination (router : Router) (metadata : InboundContext) :
    Except String InboundContext :=
  let reverse : InboundContext :=
    if metadata.domain = "" then
      match router.lookupReverseMapping metadata.destination.addr with
      | some domain => { metadata with domain := domain }
      | none => metadata
    else metadata
  match router.fakeIP with
  | none => .ok reverse
  | some store =>
    if metadata.destination.addr.isValid && store.contains metadata.destination.addr then
      match store.lookup metadata.destination.addr with
      | none => .error "missing fakeip record, try enable `experimental.cache_file`"
      | some domain => .ok (restoreFakeIP metadata domain)
    else .ok reverse

/-- `Router.prepareMatchMetadata`. -/
def prepareMatchMetadata (router : Router) (metadata : InboundContext) :
    Except String InboundContext := do
  let metadata := searchNeighbor router (searchProcessInfo router metadata)
  let metadata ← searchDestination router metadata
  if metadata.destination.isIPv4 then return { metadata with ipVersion := 4 }
  else if metadata.destination.isIPv6 then return { metadata with ipVersion := 6 }
  else return metadata

/-! ### What the actions do to the metadata -/

def applyRouteOptionsOverride (metadata : InboundContext) (options : RuleActionRouteOptions) :
    InboundContext :=
  let destination : Socksaddr :=
    if options.overrideAddress.isValid then
      { addr := options.overrideAddress.addr
        port := metadata.destination.port
        fqdn := options.overrideAddress.fqdn }
    else metadata.destination
  { metadata with
    destination :=
      if options.overridePort > 0 then { destination with port := options.overridePort }
      else destination
    udpTimeout := if options.udpTimeout > 0 then options.udpTimeout else metadata.udpTimeout }

/-- The destination before the first override is kept. -/
def recordRouteOriginalDestination (metadata : InboundContext)
    (options : RuleActionRouteOptions) : InboundContext :=
  if (options.overrideAddress.isValid || options.overridePort > 0) &&
      !metadata.routeOriginalDestination.isValid then
    { metadata with routeOriginalDestination := metadata.destination }
  else metadata

/-- An overridden address is not the one that was resolved. -/
def forgetResolved (metadata : InboundContext) (options : RuleActionRouteOptions) :
    InboundContext :=
  if options.overrideAddress.isValid then { metadata with destinationAddresses := [] }
  else metadata

/-- The options that only concern how the outbound dials. -/
def setDialOptions (metadata : InboundContext) (options : RuleActionRouteOptions) :
    InboundContext :=
  { metadata with
    gateway := match options.overrideGateway with
      | some gateway => if gateway.isValid then some gateway else metadata.gateway
      | none => metadata.gateway
    networkStrategy := options.networkStrategy.or metadata.networkStrategy
    networkType :=
      if options.networkType.isEmpty then metadata.networkType else options.networkType
    fallbackNetworkType :=
      if options.fallbackNetworkType.isEmpty then metadata.fallbackNetworkType
      else options.fallbackNetworkType
    fallbackDelay :=
      if options.fallbackDelay ≠ 0 then options.fallbackDelay else metadata.fallbackDelay
    udpDisableDomainUnmapping :=
      options.udpDisableDomainUnmapping || metadata.udpDisableDomainUnmapping
    udpConnect := options.udpConnect || metadata.udpConnect
    tlsFragment := options.tlsFragment || metadata.tlsFragment
    tlsFragmentFallbackDelay :=
      if options.tlsFragment then options.tlsFragmentFallbackDelay
      else metadata.tlsFragmentFallbackDelay
    tlsRecordFragment := options.tlsRecordFragment || metadata.tlsRecordFragment
    tlsSpoof := if options.tlsSpoof ≠ "" then options.tlsSpoof else metadata.tlsSpoof
    tlsSpoofMethod :=
      if options.tlsSpoof ≠ "" then options.tlsSpoofMethod else metadata.tlsSpoofMethod }

/-- The block of `matchRule` that applies route options. -/
def applyRouteOptions (metadata : InboundContext) (options : RuleActionRouteOptions) :
    InboundContext :=
  let metadata := recordRouteOriginalDestination metadata options
  let metadata := forgetResolved metadata options
  setDialOptions (applyRouteOptionsOverride metadata options) options

/-- `Router.actionResolve`. -/
def actionResolve (router : Router) (metadata : InboundContext) (action : RuleActionResolve) :
    Except String InboundContext :=
  if metadata.destination.isDomain then
    if action.server ≠ "" && !router.dnsTransport action.server then
      .error ("DNS server not found: " ++ action.server)
    else
      match router.lookup metadata metadata.destination.fqdn action with
      | .error err => .error err
      | .ok addresses => .ok { metadata with destinationAddresses := addresses }
  else .ok metadata

/-- `sniff.Skip`: the ports of protocols in which the server speaks first. -/
def sniffSkip (metadata : InboundContext) : Bool :=
  [25, 465, 587, 143, 993, 110, 995].contains metadata.destination.port

/-- The exits of `actionSniff` before anything is read, for a connection sniffed with `own`
while `other` are the action's sniffers for the other network. -/
def sniffSkipped (action : RuleActionSniff) (own other : List Sniffer)
    (metadata : InboundContext) : Bool :=
  sniffSkip metadata || metadata.protocol ≠ "" || (own.isEmpty && !other.isEmpty) ||
    (metadata.snifferNames = action.snifferNames && metadata.sniffError.isSome &&
      !isNeedMoreData metadata.sniffError)

/-- The assignments to `SnifferNames` and `SniffError` after a peek. -/
def setSniffed (metadata : InboundContext) (action : RuleActionSniff) (err : Option SniffError) :
    InboundContext :=
  { metadata with snifferNames := action.snifferNames, sniffError := err }

/-- What a successful sniff does to the destination. -/
def overrideDestination (metadata : InboundContext) (action : RuleActionSniff) :
    InboundContext :=
  if action.overrideDestination && isDomainName metadata.domain then
    { metadata with
      destination := { fqdn := metadata.domain, port := metadata.destination.port } }
  else metadata

/-- The loop over the sniffers in `PeekStream` and `PeekPacket`, which join the errors. -/
def sniffWith (input : List UInt8) (sniffError : Option SniffError) :
    List Sniffer → InboundContext → Option SniffError × InboundContext
  | [], metadata => (sniffError, metadata)
  | sniffer :: rest, metadata =>
    match sniffer input metadata with
    | (none, metadata) => (none, metadata)
    | (some err, metadata) => sniffWith input (some (sniffError.getD [] ++ err)) rest metadata

/-! ### The walk -/

variable {metadata : InboundContext} {Conn : Type} {defaultError name : String} {network : Network}

section Walk

variable {Held : Type}

inductive MatchStatus where
  | running
  | selected (rule : RouteRule)
  | failed (err : String)

/-- The local variables of `matchRule`; `held` is what the sniff actions have read so far,
with the connection they read it from. -/
structure MatchState (Held : Type) where
  ruleIndex : Nat := 0
  metadata : InboundContext
  held : Held
  status : MatchStatus := .running

/-- What a sniff action leaves. -/
structure SniffOutcome (Held : Type) where
  metadata : InboundContext
  held : Held
  fatalErr : Option String := none

abbrev SniffAction (Held : Type) := RuleActionSniff → InboundContext → Held → SniffOutcome Held

variable (router : Router) (sniff : SniffAction Held)

/-- What the action of a matching rule does. The walk has gone on to the next rule in `next`;
a bypass without an outbound is passed over, options and all. -/
def matchAction (rule : RouteRule) (next : MatchState Held) : MatchState Held :=
  match rule.action with
  | .sniff action =>
    let outcome := sniff action next.metadata next.held
    { next with
      metadata := outcome.metadata
      held := outcome.held
      status := match outcome.fatalErr with
        | none => .running
        | some err => .failed err }
  | .resolve action =>
    match actionResolve router next.metadata action with
    | .error err => { next with status := .failed err }
    | .ok metadata => { next with metadata := metadata }
  | .route _ options =>
    { next with metadata := applyRouteOptions next.metadata options, status := .selected rule }
  | .routeOptions options => { next with metadata := applyRouteOptions next.metadata options }
  | .bypass outbound options =>
    if outbound = "" then next
    else
      { next with metadata := applyRouteOptions next.metadata options, status := .selected rule }
  | .reject _ | .hijackDNS => { next with status := .selected rule }
  | .direct => next

/-- One turn of the loop of `matchRule`. -/
def matchTurn (rule : RouteRule) (state : MatchState Held) : MatchState Held :=
  let result := rule.rule.matchOn state.metadata.resetRuleCache
  let next := { state with ruleIndex := state.ruleIndex + 1, metadata := result.2 }
  if result.1 then matchAction router sniff rule next else next

/-- One step of the walk: a turn for the current rule, if there is one and nothing is
decided yet. -/
def matchStep (state : MatchState Held) : MatchState Held :=
  match state.status, router.rules[state.ruleIndex]? with
  | .running, some rule => matchTurn router sniff rule state
  | _, _ => state

/-- The state in which the loop is entered. -/
def matchStart (metadata : InboundContext) (held : Held) : MatchState Held :=
  match prepareMatchMetadata router metadata with
  | .error err => { metadata := metadata, held := held, status := .failed err }
  | .ok metadata => { metadata := metadata, held := held }

/-- The walk after the given number of rules. -/
def matchWalk (metadata : InboundContext) (held : Held) : Nat → MatchState Held :=
  Machine.run (matchStep router sniff) (matchStart router metadata held)

/-- `Router.matchRule`. -/
def matchRule (metadata : InboundContext) (held : Held) : MatchState Held :=
  matchWalk router sniff metadata held router.rules.length

/-- The sniff action that the next step runs, with the metadata it finds. -/
def sniffing (state : MatchState Held) : Option (RuleActionSniff × InboundContext) :=
  match state.status, router.rules[state.ruleIndex]? with
  | .running, some rule =>
    match rule.action, rule.rule.matchOn state.metadata.resetRuleCache with
    | .sniff action, (true, metadata) => some (action, metadata)
    | _, _ => none
  | _, _ => none

/-- The sniff action that the next step runs, if any, meets the condition. -/
def SniffsUnder (condition : RuleActionSniff → InboundContext → Held → Prop)
    (state : MatchState Held) : Prop :=
  ∀ action metadata, sniffing router state = some (action, metadata) →
    condition action metadata state.held

instance (condition : RuleActionSniff → InboundContext → Held → Prop)
    [∀ action metadata held, Decidable (condition action metadata held)]
    (state : MatchState Held) : Decidable (SniffsUnder router condition state) :=
  match runs : sniffing router state with
  | none => isTrue fun _ _ running => nomatch running.symm.trans runs
  | some (action, metadata) =>
    decidable_of_iff (condition action metadata state.held)
      ⟨fun holds _ _ running => by cases running.symm.trans runs; exact holds,
        fun under => under action metadata runs⟩

variable {router sniff}

/-! Every step takes the next rule, so the walk is over after as many steps as there are
rules. -/

theorem ruleIndex_matchTurn (rule : RouteRule) (state : MatchState Held) :
    (matchTurn router sniff rule state).ruleIndex = state.ruleIndex + 1 := by
  rw [matchTurn]
  split
  · rw [matchAction]
    split
    case h_2 => split <;> rfl
    case h_5 => split <;> rfl
    all_goals rfl
  · rfl

theorem ruleIndex_matchWalk (metadata : InboundContext) (held : Held) (count : Nat)
    (running : (matchWalk router sniff metadata held count).status = .running) :
    min count router.rules.length ≤ (matchWalk router sniff metadata held count).ruleIndex := by
  induction count with
  | zero => exact Nat.min_le_left 0 _ |>.trans (Nat.zero_le _)
  | succ count ih =>
    rw [matchWalk, run, ← matchWalk, matchStep] at running ⊢
    generalize matchWalk router sniff metadata held count = state at *
    cases current : router.rules[state.ruleIndex]? with
    | none =>
      have outside := List.getElem?_eq_none_iff.mp current
      split
      next found => cases found
      · exact (Nat.min_le_right _ _).trans outside
    | some rule =>
      cases status : state.status with
      | running =>
        have before := ih status
        rw [ruleIndex_matchTurn]
        omega
      | selected _ | failed _ =>
        rw [status] at running
        cases status.symm.trans running

variable {held : Held} {condition : RuleActionSniff → InboundContext → Held → Prop}
  {state : MatchState Held}

/-- The walk makes at most one turn for each rule: there is no rule left after them. -/
theorem getElem?_ruleIndex_matchWalk {count : Nat} (after : router.rules.length ≤ count)
    (running : (matchWalk router sniff metadata held count).status = .running) :
    router.rules[(matchWalk router sniff metadata held count).ruleIndex]? = none := by
  have position := ruleIndex_matchWalk metadata held count running
  rw [Nat.min_eq_right after] at position
  exact List.getElem?_eq_none_iff.mpr position

/-- No sniff action runs after the rules. -/
theorem sniffing_matchWalk_of_le {count : Nat} (after : router.rules.length ≤ count) :
    sniffing router (matchWalk router sniff metadata held count) = none := by
  rw [sniffing]
  split
  next running current => cases (getElem?_ruleIndex_matchWalk after running).symm.trans current
  · rfl

/-- It is enough to look at the steps that have a rule. -/
theorem sniffsUnder_matchWalk
    (met : ∀ count < router.rules.length,
      SniffsUnder router condition (matchWalk router sniff metadata held count)) (count : Nat) :
    SniffsUnder router condition (matchWalk router sniff metadata held count) := by
  by_cases inside : count < router.rules.length
  · exact met count inside
  · intro action current runs
    cases (sniffing_matchWalk_of_le (Nat.le_of_not_lt inside)).symm.trans runs

/-- Outside of sniff actions, the walk leaves what it holds alone. -/
theorem held_matchStep_of_not_sniffing (idle : sniffing router state = none) :
    (matchStep router sniff state).held = state.held := by
  rw [matchStep]
  rw [sniffing] at idle
  split
  next rule running current =>
    rw [running, current] at idle
    rw [matchTurn]
    dsimp only at idle ⊢
    split
    next matched =>
      rw [matchAction]
      split
      case h_1 action act =>
        rw [act, show rule.rule.matchOn state.metadata.resetRuleCache =
          (true, (rule.rule.matchOn state.metadata.resetRuleCache).2) from
            Prod.ext matched rfl] at idle
        cases idle
      case h_2 => split <;> rfl
      case h_5 => split <;> rfl
      all_goals rfl
    · rfl
  · rfl

/-- A sniff action decides what is held after its step. -/
theorem held_matchStep_of_sniffing {action : RuleActionSniff}
    (runs : sniffing router state = some (action, metadata)) :
    (matchStep router sniff state).held = (sniff action metadata state.held).held := by
  rw [sniffing] at runs
  split at runs
  next rule running current =>
    split at runs
    next act matched =>
      cases runs
      rw [matchStep, running, current]
      dsimp only
      rw [matchTurn, matched]
      rw [if_pos rfl, matchAction, act]
    · cases runs
  · cases runs

section

variable (invariant : Held → Prop) (kept : ∀ action metadata held, invariant held → condition
    action metadata held → invariant (sniff action metadata held).held)

include kept

/-- A property of what the walk holds that the sniff actions keep is kept from any state on,
as long as every sniff action meets the side condition under which it keeps it. -/
theorem held_run {start : MatchState Held} (initial : invariant start.held)
    (met : ∀ count, SniffsUnder router condition (run (matchStep router sniff) start count))
    (count : Nat) : invariant (run (matchStep router sniff) start count).held := by
  refine invariant_run (fun state : MatchState Held => invariant state.held) initial ?_ met count
  intro state holds allowed
  cases runs : sniffing router state with
  | none => rwa [held_matchStep_of_not_sniffing runs]
  | some sniffed =>
    rw [held_matchStep_of_sniffing runs]
    exact kept _ _ _ holds (allowed _ _ runs)

theorem held_matchWalk (initial : invariant held)
    (met : ∀ count, SniffsUnder router condition (matchWalk router sniff metadata held count))
    (count : Nat) : invariant (matchWalk router sniff metadata held count).held := by
  refine held_run invariant kept ?_ met count
  rw [matchStart]
  split <;> exact initial

end

end Walk

/-! ### Handing the connection over -/

/-- What becomes of a connection. -/
inductive Routed (Conn : Type) where
  | failed (err : String)
  | rejected (action : RuleActionReject)
  | detour (inbound : String) (conn : Conn)
  | hijackDNS (conn : Conn)
  | outbound (tag : String) (conn : Conn)

/-- The connection is handed over to an outbound or to DNS hijacking. -/
def Routed.HandsOver {Conn : Type} : Routed Conn → Conn → Prop
  | .outbound _ handed, conn | .hijackDNS handed, conn => handed = conn
  | .failed _, _ | .rejected _, _ | .detour _ _, _ => False

/-- The outbound of a selected rule, which has to support the network. -/
def outboundFor (router : Router) (network : Network) (name tag : String) :
    Except String Outbound :=
  match router.outbound tag with
  | none => .error ("outbound not found: " ++ tag)
  | some outbound =>
    if outbound.network.contains network then .ok outbound
    else .error (name ++ " is not supported by outbound: " ++ outbound.tag)

/-- The switch on the selected rule that `routeConnection` and `routePacketConnection` share,
with the connection as it is handed to an outbound, and as it is handed to DNS hijacking.
`matchRule` selects none of the rules of the last case, for which the source would go on
without an outbound. -/
def routeSelected {Conn : Type} (router : Router) (network : Network) (name defaultError : String)
    (status : MatchStatus) (conn hijacked : Conn) : Routed Conn :=
  match status with
  | .failed err => .failed err
  | .running =>
    if router.defaultOutbound.network.contains network then
      .outbound router.defaultOutbound.tag conn
    else .failed (defaultError ++ router.defaultOutbound.tag)
  | .selected rule =>
    match rule.action with
    | .route tag _ | .bypass tag _ =>
      match outboundFor router network name tag with
      | .error err => .failed err
      | .ok outbound => .outbound outbound.tag conn
    | .reject action =>
      if action.method = .reply then
        .failed ("reject method `reply` is not supported for " ++ name ++ " connections")
      else .rejected action
    | .hijackDNS => .hijackDNS hijacked
    | .sniff _ | .resolve _ | .routeOptions _ | .direct => .failed "no outbound"

variable {status : MatchStatus}

/-- The connection that is handed over is one of the two given. -/
theorem conn_of_routeSelected {router : Router} {conn hijacked handed : Conn}
    (handing : (routeSelected router network name defaultError status conn hijacked).HandsOver
      handed) : conn = handed ∨ hijacked = handed := by
  unfold routeSelected at handing
  repeat' split at handing
  all_goals first | exact .inl handing | exact .inr handing | exact handing.elim

/-- The connection that is handed to an outbound. -/
theorem conn_of_routeSelected_eq_outbound {router : Router} {tag : String}
    {conn hijacked handed : Conn}
    (routed : routeSelected router network name defaultError status conn hijacked =
      .outbound tag handed) : conn = handed := by
  unfold routeSelected at routed
  repeat' split at routed
  all_goals first | cases routed; rfl | cases routed

/-- The inbound detour at the start of both routing functions; `supported` picks the flag of
the network out of the flags of an inbound. -/
def routeDetour {Conn : Type} (router : Router) (supported : Bool × Bool → Bool) (name : String)
    (metadata : InboundContext) (conn : Conn) : Routed Conn :=
  if metadata.lastInbound = metadata.inboundDetour then
    .failed ("routing loop on detour: " ++ metadata.inboundDetour)
  else
    match router.inbound metadata.inboundDetour with
    | none => .failed ("inbound detour not found: " ++ metadata.inboundDetour)
    | some flags =>
      if supported flags then .detour metadata.inboundDetour conn
      else .failed ("inbound detour is not " ++ name ++ " injectable: " ++ metadata.inboundDetour)

theorem not_handsOver_routeDetour {router : Router} {supported : Bool × Bool → Bool}
    {conn handed : Conn} : ¬(routeDetour router supported name metadata conn).HandsOver handed := by
  rw [routeDetour]
  repeat' split
  all_goals exact id

/-! ### Routers for concrete runs -/

namespace Sample

/-- A sniffer that recognises nothing. -/
def unrecognised : Sniffer := fun _ metadata => (some [.other "unrecognised"], metadata)

/-- A rule without conditions. -/
def always (action : RouteRuleAction) : RouteRule where
  rule := .default {} none
  action := action

/-- A router with nothing but its rules, whose outbounds take every network. -/
def router (rules : List RouteRule) : Router where
  rules := rules
  outbound := fun tag => some { tag := tag, network := [.tcp, .udp] }
  defaultOutbound := { tag := "direct", network := [.tcp, .udp] }
  muxDestinations :=
    { mux := "mux", vmessMux := "vmess", uotMagicAddress := "uot"
      uotLegacyMagicAddress := "legacy" }
  lookup := fun _ _ _ => .error "no server"
  quicClientHello := unrecognised
  packetSize := 4

end Sample

end SingBox
