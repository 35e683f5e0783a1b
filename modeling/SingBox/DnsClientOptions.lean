/-
This file is about the options of the queries of the DNS client, and what they do to other
queries.

A response is edited for the strategy of the call that asked for it: the hints at addresses
of the other family are taken out of `HTTPS` records. It is stored in this form, under a key
that the strategy is not a part of, so that a later call finds the response as the earlier
one wanted it. A lifetime that a query sets is all that else is edited; whether the response
is kept at all depends on it, and so does whether a later call has its checker asked.
-/

import SingBox.DnsClientTraces

namespace SingBox

open Machine

namespace DnsClient

/-- The answer of the transport, filtered by the strategy of the query. -/
def Query.filtered (records : Bytes → Question → List Record) (query : Query) : List Record :=
  match query.message.question.head? with
  | none => []
  | some question =>
    if strategyRejects question query.options.strategy then []
    else
      filterHints question query.options.strategy (bareAnswer (records query.transport question))

/-- What a call returns, failures apart: the filtered answer of the transport, or a refusal if it
has a checker. -/
def Filtered (records : Bytes → Question → List Record) (query : Query) : Result → Prop
  | .response message _ => bareAnswer message.answer = query.filtered records
  | .rejected _ | .rejectedCached => query.checker.isSome
  | .failed _ => True

/-- A result that is neither a response nor a failure. -/
def Result.Refused : Result → Prop
  | .rejected _ | .rejectedCached => True
  | .response _ _ | .failed _ => False

variable {question : Question} {records : Bytes → Question → List Record}

/-- A result that is neither a refusal of a checker nor a failure is the filtered answer. -/
theorem Filtered.response {query : Query} {result : Result} (filtered : Filtered records query result)
    (unrefused : query.checker.isSome → ¬result.Refused)
    (reached : ∀ failure, result ≠ .failed failure) :
    ∃ message fromTransport, result = .response message fromTransport ∧
      bareAnswer message.answer = query.filtered records := by
  cases result with
  | response message fromTransport => exact ⟨message, fromTransport, rfl, filtered⟩
  | rejected | rejectedCached => exact absurd trivial (unrefused filtered)
  | failed failure => exact absurd rfl (reached failure)

/-- A question for an `HTTPS` record, and a record with hints of both families. -/
def httpsQuestion : Question := ⟨[97], typeHTTPS, 1⟩

def httpsResponse : Msg where
  question := [httpsQuestion]
  answer := [{
    rrtype := typeHTTPS
    ttl := 60
    options := [(svcbIPv4Hint, [10, 0, 0, 1]), (svcbIPv6Hint, [253])] }]

def httpsQuery (strategy : Strategy) : Query where
  transport := [0]
  message := { question := [httpsQuestion] }
  options := { strategy := strategy }

/-- A call with the given strategy, and then one without. -/
def asked (strategy : Strategy) : List Event :=
  [.exchange (httpsQuery strategy), .start 0 {}, .respond 0 (.response httpsResponse) {},
    .exchange (httpsQuery .asIS), .start 1 {}]

end DnsClient

end SingBox
