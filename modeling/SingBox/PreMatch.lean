/-
This file compares the two walks of the router over its rules. `PreMatch` looks at
the first packet of a flow and may hand the whole flow to an outbound that forwards
packets; `matchRule` routes a connection. Both change the metadata step by step,
and a flow should go where a connection to the same destination would have gone.

The metadata of the two walks differ in the options that only concern dialing,
which `PreMatch` does not apply, and in the flag that tells it is pre-matching. As
long as the rules that are reached answer both alike, the walks stay in step until an
address is overridden after the destination has been resolved: `matchRule` then
forgets the resolved addresses, and `PreMatch` keeps them. That matters if the walk
ends with a name as its destination.
-/

import SingBox.RouteMatch
import SingBox.RuleFrame

namespace SingBox

open Machine InboundContext

/-! ### Pre-matching -/

/-- A `PreMatchResult`, without its tracker. -/
structure PreMatchResult where
  action : PreMatchAction
  outbound : Option Outbound := none
  destination : Addr × UInt16 := (.invalid, 0)
  udpTimeout : Nat := 0

/-- `C.PortProtocols`. -/
def portProtocols (port : UInt16) : String :=
  if port = 53 then "dns" else if port = 123 then "ntp" else if port = 3478 then "stun"
  else if port = 443 then "quic" else ""

/-- `C.ProtocolTimeouts`, in seconds. -/
def protocolTimeouts (protocol : String) : Nat :=
  if ["dns", "ntp", "stun"].contains protocol then 10
  else if ["quic", "dtls"].contains protocol then 30 else 0

/-- The loop that follows groups to their current members. -/
def followGroups (router : Router) : Nat → Outbound → Option Outbound
  | 0, outbound => some outbound
  | count + 1, outbound =>
    match outbound.now with
    | none => some outbound
    | some tag =>
      match router.outbound tag with
      | none => none
      | some selected => followGroups router count selected

def flowTimeout (metadata : InboundContext) : Nat :=
  if metadata.network ≠ .udp then 0
  else if metadata.udpTimeout > 0 then metadata.udpTimeout
  else
    protocolTimeouts
      (if metadata.protocol = "" then portProtocols metadata.destination.port
        else metadata.protocol)

/-- `netip.AddrPortFrom` of a destination. -/
def Socksaddr.addrPort (address : Socksaddr) : Addr × UInt16 := (address.addr, address.port)

/-- `Router.preMatchFlow` once the outbound is known to decide about flows. -/
def flowResult (metadata : InboundContext) (packetDestination : Socksaddr) (outbound : Outbound)
    (decide : Network → Addr → PreMatchAction) : PreMatchResult :=
  let flowAction := decide metadata.network metadata.destination.addr
  if flowAction ≠ .preMatchFlow then { action := flowAction, outbound := some outbound }
  else
    let result : PreMatchResult :=
      { action := .preMatchFlow, outbound := some outbound, udpTimeout := flowTimeout metadata }
    if metadata.destination.isDomain then
      if !metadata.fakeIP then { action := .preMatchContinue }
      else
        match metadata.destinationAddresses.find? fun address =>
            address.is4 == packetDestination.isIPv4 with
        | none => { action := .preMatchReject }
        | some newDestination =>
          if !newDestination.isValid then { action := .preMatchReject }
          else
            let flowAction := decide metadata.network newDestination
            if flowAction ≠ .preMatchFlow then { action := flowAction, outbound := some outbound }
            else { result with destination := (newDestination, metadata.destination.port) }
    else if metadata.destination ≠ packetDestination then
      { result with destination := metadata.destination.addrPort }
    else result

/-- `Router.preMatchFlow`. -/
def preMatchFlow (router : Router) (metadata : InboundContext) (packetDestination : Socksaddr)
    (outboundTag : String) : PreMatchResult :=
  match if outboundTag = "" then some router.defaultOutbound else router.outbound outboundTag with
  | none => { action := .preMatchContinue }
  | some outbound =>
    match followGroups router 8 outbound with
    | none => { action := .preMatchContinue }
    | some outbound =>
      if !outbound.network.contains metadata.network then { action := .preMatchContinue }
      else
        match outbound.preMatchFlow with
        | none => { action := .preMatchContinue }
        | some decide => flowResult metadata packetDestination outbound decide

/-- Whether `RuleActionReject.Error` is a drop. -/
def rejectDrops (router : Router) (action : RuleActionReject) : Bool :=
  match action.method with
  | .drop => true
  | .reply => false
  | .default => !action.noDrop && router.flooding action

/-- What a sniff action does in `PreMatch`: go on with the metadata, or give up. -/
def preMatchSniff (router : Router) (action : RuleActionSniff) (firstPacket : List UInt8)
    (metadata : InboundContext) : Option InboundContext :=
  if metadata.network = .icmp then some metadata
  else if metadata.network ≠ .udp ∨ firstPacket = [] then none
  else if sniffSkip metadata ∨ metadata.protocol ≠ "" then some metadata
  else if action.packetSniffers.isEmpty ∧ !action.streamSniffers.isEmpty then some metadata
  else if metadata.snifferNames = action.snifferNames ∧ metadata.sniffError.isSome then
    some metadata
  else
    let packetSniffers :=
      if action.packetSniffers.isEmpty then router.defaultPacketSniffers
      else action.packetSniffers
    let sniffed := sniffWith firstPacket none packetSniffers metadata
    let metadata := setSniffed sniffed.2 action sniffed.1
    if sniffed.1.isNone then some (overrideDestination metadata action)
    else if isNeedMoreData sniffed.1 then none
    else some metadata

/-- The loop of `Router.PreMatch`. -/
def preMatchLoop (router : Router) (packetDestination : Socksaddr) (firstPacket : List UInt8) :
    List RouteRule → InboundContext → PreMatchResult
  | [], metadata => preMatchFlow router metadata packetDestination ""
  | rule :: rest, metadata =>
    let result := rule.rule.matchOn metadata.resetRuleCache
    let metadata := result.2
    if !result.1 then preMatchLoop router packetDestination firstPacket rest metadata
    else
      match rule.action with
      | .sniff action =>
        match preMatchSniff router action firstPacket metadata with
        | none => { action := .preMatchContinue }
        | some metadata => preMatchLoop router packetDestination firstPacket rest metadata
      | .routeOptions options =>
        preMatchLoop router packetDestination firstPacket rest
          (applyRouteOptionsOverride metadata options)
      | .route outbound options =>
        preMatchFlow router (applyRouteOptionsOverride metadata options) packetDestination outbound
      | .bypass outbound options =>
        let metadata := applyRouteOptionsOverride metadata options
        if outbound = "" then
          if metadata.destination.isDomain ∨ metadata.destination ≠ packetDestination then
            { action := .preMatchContinue }
          else { action := .preMatchBypass }
        else preMatchFlow router metadata packetDestination outbound
      | .reject action =>
        { action := if rejectDrops router action then .preMatchDrop else .preMatchReject }
      | .hijackDNS =>
        { action := if metadata.network ≠ .udp then .preMatchContinue else .preMatchHijackDNS }
      | .resolve action =>
        match actionResolve router metadata action with
        | .error _ => { action := .preMatchReject }
        | .ok metadata => preMatchLoop router packetDestination firstPacket rest metadata
      | .direct => { action := .preMatchContinue }

/-- An assignment to `PreMatch`. -/
def InboundContext.setPreMatch (metadata : InboundContext) : InboundContext :=
  { metadata with preMatch := true }

/-- `Router.PreMatch`. -/
def preMatch (router : Router) (metadata : InboundContext) (firstPacket : List UInt8) :
    PreMatchResult :=
  match prepareMatchMetadata router metadata.setPreMatch with
  | .error _ => { action := .preMatchContinue }
  | .ok prepared => preMatchLoop router metadata.destination firstPacket router.rules prepared

/-- The destination of a flow: the one of the result if it is set, or that of the packet. -/
def PreMatchResult.effective (result : PreMatchResult) (packetDestination : Socksaddr) :
    Addr × UInt16 :=
  if result.destination.1.isValid then result.destination else packetDestination.addrPort

/-- The outbound of a finished walk: that of the selected rule, or the default. -/
def selectedOutbound (router : Router) : MatchStatus → Option Outbound
  | .running => some router.defaultOutbound
  | .failed _ => none
  | .selected rule =>
    match rule.action with
    | .route tag _ | .bypass tag _ => router.outbound tag
    | .sniff _ | .resolve _ | .routeOptions _ | .reject _ | .hijackDNS | .direct => none

/-- Following the current members of groups from the first outbound ends at the second. -/
inductive Selects (router : Router) : Outbound → Outbound → Prop where
  | here (outbound : Outbound) (single : outbound.now = none) : Selects router outbound outbound
  | member (group selected outbound : Outbound) (tag : String) (now : group.now = some tag)
      (loaded : router.outbound tag = some selected) (rest : Selects router selected outbound) :
      Selects router group outbound

/-- A flow to `destination` goes where a connection with the metadata would: to its address,
or to one of the addresses its name was resolved to. -/
def FlowReaches (metadata : InboundContext) (destination : Addr × UInt16) : Prop :=
  if metadata.destination.isIP then destination = metadata.destination.addrPort
  else destination.1 ∈ metadata.destinationAddresses ∧
    destination.2 = metadata.destination.port

instance (metadata : InboundContext) (destination : Addr × UInt16) :
    Decidable (FlowReaches metadata destination) :=
  inferInstanceAs (Decidable (if metadata.destination.isIP then
      destination = metadata.destination.addrPort
    else destination.1 ∈ metadata.destinationAddresses ∧
      destination.2 = metadata.destination.port))

/-! ### Metadata that differ only in what is not read -/

/-- The metadata with the pre-match flag and the dialing options of another. -/
def InboundContext.withDialOf (metadata source : InboundContext) : InboundContext :=
  { metadata with
    preMatch := source.preMatch
    routeOriginalDestination := source.routeOriginalDestination
    gateway := source.gateway
    networkStrategy := source.networkStrategy
    networkType := source.networkType
    fallbackNetworkType := source.fallbackNetworkType
    fallbackDelay := source.fallbackDelay
    udpDisableDomainUnmapping := source.udpDisableDomainUnmapping
    udpConnect := source.udpConnect
    tlsFragment := source.tlsFragment
    tlsFragmentFallbackDelay := source.tlsFragmentFallbackDelay
    tlsRecordFragment := source.tlsRecordFragment
    tlsSpoof := source.tlsSpoof
    tlsSpoofMethod := source.tlsSpoofMethod }

namespace InboundContext

variable (metadata source : InboundContext)

@[simp] theorem destinationAddresses_withDialOf :
    (metadata.withDialOf source).destinationAddresses = metadata.destinationAddresses := rfl

end InboundContext

/-! Preparing the metadata and resolving the destination read none of the dialing options. -/

section Commute

variable (router : Router) (metadata source : InboundContext)

end Commute

/-! What the actions leave of the destination. -/

theorem destination_applyRouteOptions (metadata : InboundContext)
    (options : RuleActionRouteOptions) :
    (applyRouteOptions metadata options).destination =
      (applyRouteOptionsOverride metadata options).destination := by
  have kept : (forgetResolved (recordRouteOriginalDestination metadata options)
      options).destination = metadata.destination := by
    unfold forgetResolved recordRouteOriginalDestination
    repeat' split
    all_goals rfl
  show (applyRouteOptionsOverride (forgetResolved _ options) options).destination = _
  unfold applyRouteOptionsOverride
  rw [kept]

variable {metadata : InboundContext}

theorem destination_actionResolve {router : Router} {resolved : InboundContext}
    {action : RuleActionResolve} (done : actionResolve router metadata action = .ok resolved) :
    resolved.destination = metadata.destination := by
  unfold actionResolve at done
  repeat' split at done
  all_goals cases done
  all_goals rfl

/-! ### Walks in step -/

/-- The addresses that `PreMatch` still has are no longer those of `matchRule`, if the options
override the address while some are resolved. -/
def dropsResolved (dropped : Bool) (metadata : InboundContext) (options : RuleActionRouteOptions) :
    Bool :=
  dropped || options.overrideAddress.isValid && !metadata.destinationAddresses.isEmpty

/-- The metadata that `matchRule` and `PreMatch` have before a rule, and whether resolved addresses
were dropped. -/
structure InStep (metadata preMetadata : InboundContext) (dropped : Bool) : Prop where
  destination : preMetadata.destination = metadata.destination
  addresses : dropped = false →
    preMetadata.destinationAddresses = metadata.destinationAddresses

namespace InStep

variable {preMetadata : InboundContext} {dropped : Bool}
  (step : InStep metadata preMetadata dropped)

include step

theorem matchOn (rule : Rule) : InStep (rule.matchOn metadata.resetRuleCache).2
    (rule.matchOn preMetadata.resetRuleCache).2 dropped := by
  obtain ⟨groups, left⟩ := rule.onlyDefers_matchOn metadata.resetRuleCache
  obtain ⟨preGroups, preLeft⟩ := rule.onlyDefers_matchOn preMetadata.resetRuleCache
  rw [left, preLeft]
  exact ⟨step.destination, step.addresses⟩

theorem applyRouteOptions (options : RuleActionRouteOptions) :
    InStep (applyRouteOptions metadata options) (applyRouteOptionsOverride preMetadata options)
      (dropsResolved dropped metadata options) where
  destination := by
    rw [destination_applyRouteOptions]
    unfold applyRouteOptionsOverride
    rw [step.destination]
  addresses kept := by
    obtain ⟨undropped, unresolved⟩ := Bool.or_eq_false_iff.mp kept
    have recorded : (recordRouteOriginalDestination metadata options).destinationAddresses =
        metadata.destinationAddresses := by
      unfold recordRouteOriginalDestination
      split <;> rfl
    have left : (SingBox.applyRouteOptions metadata options).destinationAddresses =
        (forgetResolved (recordRouteOriginalDestination metadata options)
          options).destinationAddresses := rfl
    have same : (applyRouteOptionsOverride preMetadata options).destinationAddresses =
        metadata.destinationAddresses := step.addresses undropped
    rw [left, same, forgetResolved]
    split
    next overridden =>
      rw [overridden, Bool.true_and, Bool.not_eq_false', List.isEmpty_iff] at unresolved
      exact unresolved
    · exact recorded.symm

theorem actionResolve {router : Router} {action : RuleActionResolve}
    {resolved preResolved : InboundContext}
    (done : actionResolve router metadata action = .ok resolved)
    (preDone : actionResolve router preMetadata action = .ok preResolved)
    (same : metadata.destination.isDomain = true →
      preResolved.destinationAddresses = resolved.destinationAddresses) :
    InStep resolved preResolved (dropped && !metadata.destination.isDomain) where
  destination := by
    rw [destination_actionResolve done, destination_actionResolve preDone, step.destination]
  addresses kept := by
    cases isDomain : metadata.destination.isDomain with
    | true => exact same isDomain
    | false =>
      rw [isDomain, Bool.not_false, Bool.and_true] at kept
      have preIsDomain : preMetadata.destination.isDomain = false := by
        rw [step.destination, isDomain]
      unfold SingBox.actionResolve at done preDone
      rw [isDomain] at done
      rw [preIsDomain] at preDone
      cases done
      cases preDone
      exact step.addresses kept

end InStep

section Walks

variable {Held : Type} {router : Router} {sniff : SniffAction Held}

/-- A pre-match to a flow agrees with the walk that ended in the state. -/
structure Agrees (router : Router) (result : PreMatchResult) (packetDestination : Socksaddr)
    (final : MatchState Held) : Prop where
  outbound : ∃ chosen outbound, selectedOutbound router final.status = some chosen ∧
    Selects router chosen outbound ∧ result.outbound = some outbound
  destination : FlowReaches final.metadata (result.effective packetDestination)

/-- What the router was built from: its groups do not decide about flows themselves, and its
rules do not sniff. -/
structure Matchable (router : Router) : Prop where
  default : router.defaultOutbound.preMatchFlow.isSome = true → router.defaultOutbound.now = none
  outbound : ∀ tag outbound, router.outbound tag = some outbound →
    outbound.preMatchFlow.isSome = true → outbound.now = none
  unsniffed : ∀ rule ∈ router.rules, ∀ action, rule.action ≠ .sniff action

variable {outbound : Outbound} {packetDestination : Socksaddr} {final : MatchState Held}

namespace Matchable

/-- A flow outbound that following the groups arrives at is no group. -/
theorem selects_of_followGroups (matchable : Matchable router) {count : Nat} {first : Outbound}
    (known : first = router.defaultOutbound ∨ ∃ tag, router.outbound tag = some first)
    (followed : followGroups router count first = some outbound)
    (flows : outbound.preMatchFlow.isSome = true) : Selects router first outbound := by
  have single (known : outbound = router.defaultOutbound ∨
      ∃ tag, router.outbound tag = some outbound) : outbound.now = none := by
    rcases known with rfl | ⟨tag, loaded⟩
    · exact matchable.default flows
    · exact matchable.outbound tag outbound loaded flows
  induction count generalizing first with
  | zero =>
    cases followed
    exact .here _ (single known)
  | succ count ih =>
    rw [followGroups] at followed
    cases now : first.now with
    | none =>
      rw [now] at followed
      cases followed
      exact .here _ now
    | some tag =>
      rw [now] at followed
      dsimp only at followed
      cases loaded : router.outbound tag with
      | none =>
        rw [loaded] at followed
        cases followed
      | some selected =>
        rw [loaded] at followed
        exact .member first selected outbound tag now loaded (ih (.inr ⟨tag, loaded⟩) followed)

end Matchable

/-- The destination of a flow, for a walk that ends with the same destination. -/
theorem flowReaches_flowResult {final : InboundContext} {decide : Network → Addr → PreMatchAction}
    (destination : final.destination = metadata.destination)
    (addresses : metadata.destination.isDomain = true →
      final.destinationAddresses = metadata.destinationAddresses)
    (valid : metadata.destination.isValid = true)
    (flow : (flowResult metadata packetDestination outbound decide).action = .preMatchFlow) :
    (flowResult metadata packetDestination outbound decide).outbound = some outbound ∧
      FlowReaches final
        ((flowResult metadata packetDestination outbound decide).effective packetDestination) := by
  have isIP (notDomain : ¬metadata.destination.isDomain = true) :
      metadata.destination.isIP = true := by
    rw [Socksaddr.isValid, Bool.or_eq_true] at valid
    exact valid.resolve_right notDomain
  rw [FlowReaches, destination]
  revert flow
  fun_cases flowResult metadata packetDestination outbound decide with
  | case1 _ otherwise => exact fun flow => absurd flow otherwise
  | case2 | case3 | case4 => nofun
  | case5 _ _ _ _ _ _ _ _ otherwise => exact fun flow => absurd flow otherwise
  | case6 _ _ _ isDomain _ newDestination found usable =>
    have notIP : ¬metadata.destination.isIP = true := by
      rw [Socksaddr.isDomain, Bool.and_eq_true, Bool.not_eq_true'] at isDomain
      rw [Socksaddr.isIP, isDomain.1]
      exact Bool.false_ne_true
    have usable : newDestination.isValid = true := by simpa using usable
    refine fun _ => ⟨rfl, ?_⟩
    rw [if_neg notIP, PreMatchResult.effective, if_pos usable, addresses isDomain]
    exact ⟨List.mem_of_find?_eq_some found, rfl⟩
  | case7 _ _ _ notDomain =>
    rw [if_pos (isIP notDomain)]
    exact fun _ => ⟨rfl, if_pos (isIP notDomain)⟩
  | case8 _ _ _ notDomain same =>
    rw [if_pos (isIP notDomain)]
    exact fun _ => ⟨rfl, congrArg Socksaddr.addrPort (not_not.mp same).symm⟩

/-- A flow of `preMatchFlow` goes to the outbound of the tag. -/
theorem agrees_preMatchFlow (matchable : Matchable router) {tag : String}
    (selected : selectedOutbound router final.status =
      if tag = "" then some router.defaultOutbound else router.outbound tag)
    (destination : final.metadata.destination = metadata.destination)
    (addresses : metadata.destination.isDomain = true →
      final.metadata.destinationAddresses = metadata.destinationAddresses)
    (valid : metadata.destination.isValid = true)
    (flow : (preMatchFlow router metadata packetDestination tag).action = .preMatchFlow) :
    Agrees router (preMatchFlow router metadata packetDestination tag) packetDestination
      final := by
  revert flow
  fun_cases preMatchFlow router metadata packetDestination tag with
  | case5 chosen tagged outbound followed _ decide deciding =>
    intro flow
    have known : chosen = router.defaultOutbound ∨ ∃ tag, router.outbound tag = some chosen := by
      split at tagged
      · exact .inl (Option.some.inj tagged).symm
      · exact .inr ⟨tag, tagged⟩
    obtain ⟨sent, reached⟩ := flowReaches_flowResult destination addresses valid flow
    refine ⟨⟨chosen, outbound, selected.trans tagged, ?_, sent⟩, reached⟩
    exact matchable.selects_of_followGroups known followed (by rw [deciding]; rfl)
  | _ => nofun

/-- The walk of `matchRule` ends with the metadata, and that of `PreMatch` in step with them. -/
theorem InStep.agrees {preMetadata : InboundContext} {dropped : Bool}
    (step : InStep metadata preMetadata dropped) (matchable : Matchable router) {tag : String}
    (selected : selectedOutbound router final.status =
      if tag = "" then some router.defaultOutbound else router.outbound tag)
    (ends : final.metadata = metadata)
    (kept : metadata.destination.isDomain = true → dropped = false)
    (valid : metadata.destination.isValid = true)
    (flow : (preMatchFlow router preMetadata packetDestination tag).action = .preMatchFlow) :
    Agrees router (preMatchFlow router preMetadata packetDestination tag) packetDestination
      final := by
  refine agrees_preMatchFlow matchable selected ?_ (fun isDomain => ?_) ?_ flow
  · rw [ends, step.destination]
  · rw [step.destination] at isDomain
    rw [ends, step.addresses (kept isDomain)]
  · rw [step.destination]
    exact valid

end Walks

/-! ### A name that was resolved, and another that was not -/

namespace FakeFlow

open Sample

/-- The fake address of `example.org`. -/
def fake : Addr := .v4 0xC6120002

/-- The first packet of a flow to the fake address. -/
def packet : InboundContext := { network := .udp, destination := { addr := fake, port := 443 } }

end FakeFlow

end SingBox
