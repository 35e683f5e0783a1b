/-
This file is the data model of `adapter/inbound.go`: addresses, DNS messages and
the `InboundContext` that every rule item, sniffer and router walk reads and
updates. The Go zero value of each field is its default here, so `{}` is the
context a fresh connection starts from.

Two groups of fields carry the state of a rule match rather than facts about the
connection. The rule cache (`ipCIDRMatchSource`, `ipCIDRAcceptEmpty`,
`deferredIPCIDRMatchGroups`) is cleared by `resetRuleCache`; the flag
`ignoreDestinationIPCIDRMatch` survives it and is owned by the legacy DNS
pre-match.
-/

import Mathlib.Data.List.Basic

namespace SingBox

/-! ### Addresses -/

/-- A `netip.Addr`. Zones are not modelled. -/
inductive Addr where
  | invalid
  | v4 (bits : BitVec 32)
  | v6 (bits : BitVec 128)
  deriving DecidableEq, Repr, Inhabited

namespace Addr

/-- `netip.Addr.IsValid`. -/
def isValid : Addr → Bool
  | invalid => false
  | v4 _ | v6 _ => true

/-- `netip.Addr.Is4`. -/
def is4 : Addr → Bool
  | v4 _ => true
  | invalid | v6 _ => false

/-- `netip.Addr.Is6`. -/
def is6 : Addr → Bool
  | v6 _ => true
  | invalid | v4 _ => false

/-- `netip.Addr.Unmap`: an IPv4-mapped IPv6 address becomes the IPv4 address. -/
def unmap : Addr → Addr
  | v6 bits => if bits.extractLsb' 32 96 = 0xffff then v4 (bits.extractLsb' 0 32) else v6 bits
  | other => other

end Addr

/-- The character loop of the standard library's `isDomainName`: the previous character,
whether a letter or hyphen was seen, and the length of the current label. -/
def isDomainNameFrom (last : Char) (nonNumeric : Bool) (partlen : Nat) : List Char → Bool
  | [] => if last = '-' ∨ partlen > 63 then false else nonNumeric
  | c :: rest =>
    if c.isAlpha ∨ c = '_' then isDomainNameFrom c true (partlen + 1) rest
    else if c.isDigit then isDomainNameFrom c nonNumeric (partlen + 1) rest
    else if c = '-' then
      if last = '.' then false else isDomainNameFrom c true (partlen + 1) rest
    else if c = '.' then
      if last = '.' ∨ last = '-' ∨ partlen > 63 ∨ partlen = 0 then false
      else isDomainNameFrom c nonNumeric 0 rest
    else false

/-- `M.IsDomainName`, the standard library's `isDomainName`. Only ASCII names are accepted,
so counting characters instead of bytes changes nothing. -/
def isDomainName (s : String) : Bool :=
  let chars := s.toList
  if s = "." then true
  else if chars.length = 0 ∨ chars.length > 254 ∨
      chars.length = 254 ∧ chars.getLast? ≠ some '.' then false
  else isDomainNameFrom '.' false 0 chars

/-- An `M.Socksaddr`: an address or a domain name, with a port. -/
structure Socksaddr where
  addr : Addr := .invalid
  port : UInt16 := 0
  fqdn : String := ""
  deriving DecidableEq, Repr, Inhabited

namespace Socksaddr

def isIP (address : Socksaddr) : Bool := address.addr.isValid

def isIPv4 (address : Socksaddr) : Bool := address.addr.is4

def isIPv6 (address : Socksaddr) : Bool := address.addr.is6

/-- `Socksaddr.IsDomain`: a destination that is not an address and names a host. -/
def isDomain (address : Socksaddr) : Bool :=
  !address.addr.isValid && isDomainName address.fqdn

def isValid (address : Socksaddr) : Bool := address.isIP || address.isDomain

end Socksaddr

/-! ### DNS messages -/

/-- An address hint of an HTTPS record. -/
inductive SVCBHint where
  | ipv4 (hint : List Addr)
  | ipv6 (hint : List Addr)
  deriving DecidableEq, Repr

/-- A resource record. Record types whose content no modelled function looks into are kept
as their presentation text. -/
inductive RR where
  | a (addr : Addr)
  | aaaa (addr : Addr)
  | https (value : List SVCBHint)
  | other (text : String)
  deriving DecidableEq, Repr

structure Question where
  name : String
  qtype : UInt16
  deriving DecidableEq, Repr

/-- A `dns.Msg`. -/
structure Msg where
  id : UInt16 := 0
  response : Bool := false
  rcode : Nat := 0
  question : List Question := []
  answer : List RR := []
  ns : List RR := []
  extra : List RR := []
  deriving DecidableEq, Repr, Inhabited

def rcodeSuccess : Nat := 0

def rcodeRefused : Nat := 5

/-- The addresses one answer record exposes for matching. -/
def RR.addresses : RR → List Addr
  | .a addr | .aaaa addr => [addr].filter Addr.isValid
  | .https value => value.flatMap fun
      | .ipv4 hint => (hint.map Addr.unmap).filter Addr.isValid
      | .ipv6 hint => hint.filter Addr.isValid
  | .other _ => []

/-- `adapter.DNSResponseAddresses`. -/
def dnsResponseAddresses : Option Msg → List Addr
  | none => []
  | some response =>
    if response.rcode ≠ rcodeSuccess then [] else response.answer.flatMap RR.addresses

/-! ### Sniffing results -/

/-- What one sniffer reports when it does not recognise its input. -/
inductive SniffCause where
  | needMoreData
  | other (text : String)
  deriving DecidableEq, Repr

/-- The error value left by a sniff: the joined causes of all sniffers tried. -/
abbrev SniffError := List SniffCause

/-- `errors.Is(err, sniff.ErrNeedMoreData)` on an error that may be nil. -/
def isNeedMoreData : Option SniffError → Bool
  | none => false
  | some causes => causes.contains .needMoreData

/-- One CRYPTO frame kept between packets by the QUIC sniffer. -/
structure QCryptoFragment where
  offset : Nat
  length : Nat
  payload : List UInt8
  deriving DecidableEq, Repr

/-! ### The inbound context -/

inductive Network where
  | tcp
  | udp
  | icmp
  deriving DecidableEq, Repr, Inhabited

/-- An `adapter.InboundContext`. -/
structure InboundContext where
  inbound : String := ""
  inboundType : String := ""
  ipVersion : Nat := 0
  network : Network := .tcp
  source : Socksaddr := {}
  destination : Socksaddr := {}
  gateway : Option Addr := none
  protocol : String := ""
  domain : String := ""
  client : String := ""
  sniffContext : Option (List QCryptoFragment) := none
  snifferNames : List String := []
  sniffError : Option SniffError := none
  inboundDetour : String := ""
  lastInbound : String := ""
  originDestination : Socksaddr := {}
  routeOriginalDestination : Socksaddr := {}
  udpDisableDomainUnmapping : Bool := false
  udpConnect : Bool := false
  udpTimeout : Nat := 0
  tlsFragment : Bool := false
  tlsFragmentFallbackDelay : Nat := 0
  tlsRecordFragment : Bool := false
  tlsSpoof : String := ""
  tlsSpoofMethod : Nat := 0
  networkStrategy : Option Nat := none
  networkType : List Nat := []
  fallbackNetworkType : List Nat := []
  fallbackDelay : Nat := 0
  destinationAddresses : List Addr := []
  dnsResponse : Option Msg := none
  namedDNSResponses : String → Option Msg := fun _ => none
  destinationAddressMatchFromResponse : Bool := false
  processInfo : Option String := none
  sourceMACAddress : Option (List UInt8) := none
  sourceHostname : String := ""
  fakeIP : Bool := false
  preMatch : Bool := false
  ipCIDRMatchSource : Bool := false
  ipCIDRAcceptEmpty : Bool := false
  deferredIPCIDRMatchGroups : BitVec 8 := 0
  ignoreDestinationIPCIDRMatch : Bool := false
  deriving Inhabited

namespace InboundContext

/-- An assignment to `DeferredIPCIDRMatchGroups`. -/
def setDeferred (metadata : InboundContext) (groups : BitVec 8) : InboundContext :=
  { metadata with deferredIPCIDRMatchGroups := groups }

/-- An assignment to `IgnoreDestinationIPCIDRMatch`. -/
def setIgnore (metadata : InboundContext) (ignore : Bool) : InboundContext :=
  { metadata with ignoreDestinationIPCIDRMatch := ignore }

/-- The assignments to `IPCIDRMatchSource` and `IPCIDRAcceptEmpty`. -/
def setIPCIDRFlags (metadata : InboundContext) (matchSource acceptEmpty : Bool) :
    InboundContext :=
  { metadata with ipCIDRMatchSource := matchSource, ipCIDRAcceptEmpty := acceptEmpty }

/-- The assignments that make a match read `response` as the destination addresses. -/
def setResponse (metadata : InboundContext) (response : Option Msg) : InboundContext :=
  { metadata with dnsResponse := response, destinationAddressMatchFromResponse := true }

/-- An assignment to `DNSResponse`. -/
def setDNSResponse (metadata : InboundContext) (response : Option Msg) : InboundContext :=
  { metadata with dnsResponse := response }

/-- An assignment to `NamedDNSResponses`. -/
def setNamedDNSResponses (metadata : InboundContext) (named : String → Option Msg) :
    InboundContext :=
  { metadata with namedDNSResponses := named }

def resetRuleMatchCache (metadata : InboundContext) : InboundContext := metadata.setDeferred 0

def resetRuleCache (metadata : InboundContext) : InboundContext :=
  (metadata.setIPCIDRFlags false false).resetRuleMatchCache

def dnsResponseAddressesForMatch (metadata : InboundContext) : List Addr :=
  dnsResponseAddresses metadata.dnsResponse

section

variable (metadata : InboundContext)

include metadata

@[simp] theorem setDeferred_self :
    metadata.setDeferred metadata.deferredIPCIDRMatchGroups = metadata := rfl

@[simp] theorem setIPCIDRFlags_setIPCIDRFlags
    (matchSource acceptEmpty matchSource' acceptEmpty' : Bool) :
    (metadata.setIPCIDRFlags matchSource acceptEmpty).setIPCIDRFlags matchSource' acceptEmpty' =
      metadata.setIPCIDRFlags matchSource' acceptEmpty' := rfl

@[simp] theorem deferred_setDeferred (groups : BitVec 8) :
    (metadata.setDeferred groups).deferredIPCIDRMatchGroups = groups := rfl

@[simp] theorem deferred_resetRuleCache :
    metadata.resetRuleCache.deferredIPCIDRMatchGroups = 0#8 := rfl

end

end InboundContext

end SingBox
