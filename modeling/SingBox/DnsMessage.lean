/-
This file embeds what the DNS client does to messages: how long a response may be kept,
how the lifetimes of its records are set, and how it is edited for the options of the
query. Two messages are the same but for lifetimes and number if they have the same bare
form.
-/

import Mathlib.Data.List.Basic

namespace SingBox

namespace DnsClient

abbrev Bytes := List UInt8

def typeA : UInt16 := 1
def typeSOA : UInt16 := 6
def typeAAAA : UInt16 := 28
def typeOPT : UInt16 := 41
def typeHTTPS : UInt16 := 65

def rcodeSuccess : Nat := 0
def rcodeFormatError : Nat := 1
def rcodeNameError : Nat := 3

/-- The parameters of an `HTTPS` record that hint at addresses. -/
def svcbIPv4Hint : UInt16 := 4
def svcbIPv6Hint : UInt16 := 6

/-- The options of an `OPT` record for the client subnet and for padding. -/
def edns0Subnet : UInt16 := 8
def edns0Padding : UInt16 := 12

structure Question where
  name : Bytes
  qtype : UInt16
  qclass : UInt16
  deriving DecidableEq, Repr

/-- A record. `options` are the options of an `OPT` record and the parameters of an `HTTPS` record,
`minttl` is a field of a `SOA` record, and `rdata` is what the client does not look into. -/
structure Record where
  rrtype : UInt16
  rrclass : UInt16 := 1
  ttl : UInt32 := 0
  rdata : Bytes := []
  options : List (UInt16 × Bytes) := []
  minttl : UInt32 := 0
  deriving DecidableEq, Repr

structure Msg where
  id : UInt16 := 0
  rcode : Nat := rcodeSuccess
  question : List Question := []
  answer : List Record := []
  ns : List Record := []
  extra : List Record := []
  deriving DecidableEq, Repr

inductive Strategy where
  | asIS
  | preferIPv4
  | preferIPv6
  | ipv4Only
  | ipv6Only
  deriving DecidableEq, Repr

/-! ### Lifetimes -/

def extractNegativeTTL (response : Msg) : Option UInt32 :=
  (response.ns.find? fun record => record.rrtype = typeSOA).map fun soa =>
    if soa.ttl < soa.minttl then soa.ttl else soa.minttl

/-- The loop of `computeTimeToLive`. -/
def leastTTL (records : List Record) : UInt32 :=
  records.foldl (fun timeToLive record =>
    if record.rrtype = typeOPT then timeToLive
    else if timeToLive = 0 ∨ 0 < record.ttl ∧ record.ttl < timeToLive then record.ttl
    else timeToLive) 0

def computeTimeToLive (response : Msg) : UInt32 :=
  match if response.answer = [] then extractNegativeTTL response else none with
  | some soaTTL => soaTTL
  | none => leastTTL (response.answer ++ response.ns ++ response.extra)

/-- A record with another lifetime. The field has another meaning in an `OPT` record. -/
def Record.setTTL (record : Record) (timeToLive : UInt32) : Record :=
  if record.rrtype = typeOPT then record else { record with ttl := timeToLive }

def normalizeTTL (response : Msg) (timeToLive : UInt32) : Msg :=
  { response with
    answer := response.answer.map (·.setTTL timeToLive)
    ns := response.ns.map (·.setTTL timeToLive)
    extra := response.extra.map (·.setTTL timeToLive) }

/-- A message without its number and the lifetimes of its records. -/
def Msg.bare (message : Msg) : Msg := normalizeTTL { message with id := 0 } 0

/-- An answer section without lifetimes. -/
def bareAnswer (answer : List Record) : List Record := answer.map (·.setTTL 0)

theorem Record.setTTL_setTTL (record : Record) (first second : UInt32) :
    (record.setTTL first).setTTL second = record.setTTL second := by
  unfold Record.setTTL
  by_cases opt : record.rrtype = typeOPT
  · rw [if_pos opt, if_pos opt]
  · rw [if_neg opt, if_neg opt, if_neg opt]

theorem Record.map_setTTL (records : List Record) (first second : UInt32) :
    (records.map (·.setTTL first)).map (·.setTTL second) = records.map (·.setTTL second) := by
  rw [List.map_map]
  exact List.map_congr_left fun record _ => record.setTTL_setTTL _ _

theorem Msg.bare_normalizeTTL (message : Msg) (timeToLive : UInt32) :
    (normalizeTTL message timeToLive).bare = message.bare := by
  simp only [Msg.bare, normalizeTTL, Record.map_setTTL]

/-- The parameter of `HTTPS` records that a strategy takes out. -/
def Strategy.dropped : Strategy → Option UInt16
  | .ipv4Only => some svcbIPv6Hint
  | .ipv6Only => some svcbIPv4Hint
  | .asIS | .preferIPv4 | .preferIPv6 => none

/-- An `HTTPS` record without the parameter. -/
def Record.dropHint (record : Record) (hint : UInt16) : Record :=
  if record.rrtype = typeHTTPS then
    { record with options := record.options.filter fun option => option.1 ≠ hint }
  else record

def filterHints (question : Question) (strategy : Strategy) (answer : List Record) : List Record :=
  match if question.qtype = typeHTTPS then strategy.dropped else none with
  | some hint => answer.map (·.dropHint hint)
  | none => answer

/-- A query for addresses of the family that its strategy excludes. -/
def strategyRejects (question : Question) (strategy : Strategy) : Bool :=
  question.qtype = typeA ∧ strategy = .ipv6Only ∨ question.qtype = typeAAAA ∧ strategy = .ipv4Only

/-- `applyResponseOptions`: the response, and for how long it may be kept. -/
def applyResponseOptions (question : Question) (response : Msg) (strategy : Strategy)
    (rewriteTTL : Option UInt32) : Msg × UInt32 :=
  let filtered := { response with answer := filterHints question strategy response.answer }
  let timeToLive := rewriteTTL.getD (computeTimeToLive filtered)
  (normalizeTTL filtered timeToLive, timeToLive)

def fixedResponseStatus (message : Msg) (rcode : Nat) : Msg :=
  { id := message.id, rcode := rcode, question := message.question }

def stripDNSPadding (response : Msg) : Msg :=
  { response with
    extra := response.extra.map fun record =>
      if record.rrtype = typeOPT then
        { record with options := record.options.filter fun option => option.1 ≠ edns0Padding }
      else record }

/-- `IsEdns0`: the last `OPT` record. -/
def Msg.isEdns0 (message : Msg) : Option Record :=
  message.extra.reverse.find? fun record => record.rrtype = typeOPT

/-- `Version` of an `OPT` record. -/
def Record.version (record : Record) : UInt32 := (record.ttl &&& 0x00ff0000) >>> 16

/-- The end of `finishExchange`: the extensions of a response are those of the request. -/
def matchEdns0 (request response : Msg) : Msg :=
  match response.isEdns0 with
  | none => response
  | some responseOpt =>
    let stripped := { response with
      extra := response.extra.filter fun record => record.rrtype ≠ typeOPT }
    match request.isEdns0 with
    | none => stripped
    | some requestOpt =>
      if requestOpt.version < responseOpt.version then
        { stripped with
          extra := stripped.extra ++ [{
            rrtype := typeOPT
            rrclass := responseOpt.rrclass
            ttl := responseOpt.ttl &&& 0x8000 }] }
      else response

/-- Matching the extensions touches the additional section only. -/
theorem matchEdns0_eq (request response : Msg) :
    matchEdns0 request response =
      { response with extra := (matchEdns0 request response).extra } := by
  unfold matchEdns0
  cases response.isEdns0 with
  | none => rfl
  | some responseOpt =>
    cases request.isEdns0 with
    | none => rfl
    | some requestOpt =>
      dsimp only
      split
      · rfl
      · rfl

theorem rcode_matchEdns0 (request response : Msg) :
    (matchEdns0 request response).rcode = response.rcode := by
  rw [matchEdns0_eq]

theorem Record.rrtype_setTTL (record : Record) (timeToLive : UInt32) :
    (record.setTTL timeToLive).rrtype = record.rrtype := by
  unfold Record.setTTL
  split
  · rfl
  · rfl

/-- Lifetimes do not touch the extensions of a message. -/
theorem Msg.isEdns0_normalizeTTL (message : Msg) (timeToLive : UInt32) :
    (normalizeTTL message timeToLive).isEdns0 = message.isEdns0 := by
  unfold Msg.isEdns0 normalizeTTL
  rw [← List.map_reverse, List.find?_map]
  have same : ((fun record : Record => decide (record.rrtype = typeOPT)) ∘
      (fun record : Record => record.setTTL timeToLive)) =
        fun record => decide (record.rrtype = typeOPT) := by
    funext record
    rw [Function.comp_apply, record.rrtype_setTTL]
  rw [same]
  cases found : message.extra.reverse.find? fun record => record.rrtype = typeOPT with
  | none => rfl
  | some record =>
    have opt : record.rrtype = typeOPT := of_decide_eq_true (List.find?_some found :)
    rw [Option.map_some, Record.setTTL, if_pos opt]

theorem Record.filter_setTTL (records : List Record) (timeToLive : UInt32) :
    (records.map (·.setTTL timeToLive)).filter (fun record => record.rrtype ≠ typeOPT) =
      (records.filter fun record => record.rrtype ≠ typeOPT).map (·.setTTL timeToLive) := by
  rw [List.filter_map]
  congr 2
  funext record
  rw [Function.comp_apply, record.rrtype_setTTL]

/-- Matching the extensions commutes with setting lifetimes and the number. -/
theorem bare_matchEdns0 (request response : Msg) (timeToLive : UInt32) (id : UInt16) :
    (matchEdns0 request { normalizeTTL response timeToLive with id }).bare =
      (matchEdns0 request response).bare := by
  have same : ({ normalizeTTL response timeToLive with id } : Msg).isEdns0 =
    response.isEdns0 := response.isEdns0_normalizeTTL timeToLive
  unfold matchEdns0
  rw [same]
  cases response.isEdns0 with
  | none => exact response.bare_normalizeTTL timeToLive
  | some responseOpt =>
    cases request.isEdns0 with
    | none =>
      simp only [Msg.bare, normalizeTTL, Record.filter_setTTL, Record.map_setTTL]
    | some requestOpt =>
      dsimp only
      split
      · simp only [Msg.bare, normalizeTTL, Record.filter_setTTL, Record.map_setTTL, List.map_append]
      · exact response.bare_normalizeTTL timeToLive

/-- The additional section of a request has nothing but a client subnet. -/
def isSimpleExtra : List Record → Bool
  | [] => true
  | [record] =>
    record.rrtype = typeOPT ∧ 0 < record.rrclass ∧ record.ttl = 0 ∧
      ∀ option ∈ record.options, option.1 = edns0Subnet
  | _ => false

/-- A request that the cache takes. -/
def isSimpleRequest (message : Msg) : Bool :=
  message.question.length = 1 && message.ns.isEmpty && isSimpleExtra message.extra

end DnsClient

end SingBox
