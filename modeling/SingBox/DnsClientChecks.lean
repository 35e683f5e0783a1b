/-
This file is about the checkers of the DNS client, by which the router limits a rule to
responses with certain addresses.

The cache has one entry for a question and a transport, whoever asked. A call with a checker
takes what it finds there, although it may have been stored by a call with another checker
or with none; and it is refused when the store of rejections knows the question, although
another checker may have rejected it. Both answers are right when the entries that a call
can find come from calls whose checkers are as strict as its own, or, for rejections, at
most as strict.
-/

import SingBox.DnsClientTraces

namespace SingBox

open Machine

namespace DnsClient

/-! ### Responses -/

/-- A checker that accepts a response whatever the client then does to its hints and extensions. -/
structure Indifferent (checker : Checker) : Prop where
  hints : ∀ question strategy (response : Msg), checker response = true →
    checker { response with answer := filterHints question strategy response.answer } = true
  edns : ∀ request response, checker response = true →
    checker (matchEdns0 request response) = true

/-- The responses that a call with a checker can find were accepted by checkers that are as strict. -/
def StrictEntries (library : Library) (config : Config) (client : Client) : Event → Prop
  | .start index env =>
    ∀ call checker question, client.calls[index]? = some call →
      call.query.checker = some checker → call.query.message.question.head? = some question →
      ∀ stored ∈ client.caches.stored, stored.Shadows library config call.query question env →
        ∃ other, stored.query.checker = some other ∧
          ∀ response, other response = true → checker response = true
  | _ => True

/-- What a call with a checker returns from a transport, the checker accepts. -/
def Accepted (query : Query) (result : Result) : Prop :=
  ∀ checker message, query.checker = some checker → Indifferent checker →
    result = .response message true →
    ∃ response, response.bare = message.bare ∧ checker response = true

theorem accepted_finishResult {query : Query} {operation : Operation} (own : operation.Of query)
    (response : Msg) : Accepted query (finishResult operation response) := by
  intro checker message checks indifferent returned
  unfold finishResult at returned
  dsimp only at returned
  split at returned
  · exact nomatch returned
  next accepts =>
    rw [← own.own] at checks
    have accepted := Traced.accepted_of_not_rejects accepts checker checks
    cases returned
    exact ⟨_, (bare_matchEdns0 _ _ _ _).symm,
      indifferent.edns operation.message _ (indifferent.hints _ _ _ accepted)⟩

/-- Whatever the calls, with any transports, options and checkers: what a call with a checker
returns from a transport is accepted by it, but for lifetimes and the number. -/
theorem responses_accepted {library : Library} (config : Config)
    (roundTrip : ∀ message packed, library.pack message = some packed →
      library.unpack packed = some message) {events : List Event}
    (strict : Machine.Meets (Client.step library config) (StrictEntries library config) {} events)
    {call : Call} (member : call ∈ (run library config events).calls) {checker : Checker}
    (checks : call.query.checker = some checker) (indifferent : Indifferent checker)
    {message : Msg} (returned : call.phase = .returned (.response message true)) :
    ∃ response, response.bare = message.bare ∧ checker response = true := by
  have sound : Sound library (fun _ _ _ => True) Accepted (run library config events) := by
    refine invariant_drive _ .init
      (fun client event sound strict => ?_) strict
    refine sound.step ?_ ?_ (fun query operation response own _ =>
      accepted_finishResult own response) (fun _ _ _ _ _ _ other => absurd other nofun)
    · cases event with
      | respond index reply env => exact fun _ _ _ _ _ => trivial
      | refresh index reply env => exact fun _ _ _ _ => trivial
      | _ => trivial
    · rintro index env call result rfl - listed gives checker message checks indifferent rfl
      cases gives with
      | cached question asked response isStale id head taken own found =>
        obtain ⟨stored, kept, right, shadows, same⟩ :=
          sound.stored_of_loadResponse roundTrip id own found
        obtain ⟨other, otherChecks, stricter⟩ :=
          strict call checker question listed checks head stored kept shadows
        exact ⟨_, same.symm, indifferent.hints _ _ _
          (stricter _ (right.accepted other otherChecks))⟩
  exact sound.fits call member _ returned checker message checks indifferent rfl

def plainQuestion : Question := ⟨[97], typeA, 1⟩

def plainResponse : Msg where
  question := [plainQuestion]
  answer := [{ rrtype := typeA, ttl := 60, rdata := [10, 0, 0, 1] }]

def checkedQuery (checker : Option Checker) : Query where
  transport := [0]
  message := { question := [plainQuestion] }
  checker := checker

/-- Two calls for one question, one after the other, with the given checkers. -/
def twoCalls (first second : Option Checker) : List Event :=
  [.exchange (checkedQuery first), .start 0 {}, .respond 0 (.response plainResponse) {},
    .exchange (checkedQuery second), .start 1 {}]

/-- A checker that looks at the code only, and one that rejects everything. -/
def successful : Checker := fun response => response.rcode = rcodeSuccess

def unsuccessful : Checker := fun _ => false

theorem indifferent_successful : Indifferent successful where
  hints _ _ _ accepted := accepted
  edns request response accepted := by
    unfold successful
    rw [rcode_matchEdns0]
    exact accepted

theorem strictEntries_twoCalls :
    Meets (Client.step plainLibrary {}) (StrictEntries plainLibrary {}) {}
      (twoCalls (some successful) (some successful)) := by
  simp only [twoCalls, Meets]
  refine ⟨trivial, fun _ _ _ _ _ _ stored member => absurd member List.not_mem_nil, trivial,
    trivial, fun call checker question listed checks head stored member shadows => ?_, trivial⟩
  cases listed
  cases checks
  cases List.mem_singleton.mp member
  exact ⟨successful, rfl, fun _ accepted => accepted⟩

/-- The cache answers the second call with a response that the same checker has accepted. -/
theorem responses_accepted_again : ∃ response : Msg,
    response.bare = plainResponse.bare ∧ successful response = true := by
  have member : ⟨checkedQuery (some successful), .returned (.response plainResponse true)⟩ ∈
      (run plainLibrary {} (twoCalls (some successful) (some successful))).calls :=
    List.mem_of_getElem? (i := 1) rfl
  exact responses_accepted {} plainLibrary_roundTrip strictEntries_twoCalls member rfl
    indifferent_successful rfl

/-- The first call has no checker, and that of the second one rejects everything. -/
theorem unchecked_returned :
    ∃ call ∈ (run plainLibrary {} (twoCalls none (some unsuccessful))).calls,
      call.query.checker = some unsuccessful ∧
      call.phase = .returned (.response plainResponse true) ∧ Checkable plainResponse ∧
      ¬∃ response : Msg, response.bare = plainResponse.bare ∧ unsuccessful response = true := by
  refine ⟨⟨checkedQuery (some unsuccessful), .returned (.response plainResponse true)⟩,
    List.mem_of_getElem? (i := 1) rfl, rfl, rfl, .inl rfl, ?_⟩
  rintro ⟨response, -, accepted⟩
  exact nomatch accepted

/-! ### Rejections -/

/-- The transport answers a question always in the same way, but for the number. -/
def Answers (answers : Bytes → Question → Msg) (transport : Bytes) (question : Question)
    (response : Msg) : Prop :=
  ∃ id, response = { answers transport question with id := id }

/-- The rejections that a call can find are of its own question, by checkers that are at most as
strict. -/
def MildRejections (client : Client) : Event → Prop
  | .start index _ =>
    ∀ call checker question, client.calls[index]? = some call →
      call.query.checker = some checker → call.query.message.question.head? = some question →
      ∀ rejection ∈ client.caches.rejections,
        rdrcKey rejection.query.transport rejection.question =
          rdrcKey call.query.transport question →
        rejection.question = question ∧ ∀ other, rejection.query.checker = some other →
          ∀ (response : Msg) id, checker { response with id := id } = true →
            other response = true
  | _ => True

/-- A call is refused for an earlier rejection only if its own checker rejects the response. -/
def Repeated (answers : Bytes → Question → Msg) (query : Query) (result : Result) : Prop :=
  result = .rejectedCached → ∃ checker question, query.checker = some checker ∧
    query.message.question.head? = some question ∧
    ∀ id, Rejects checker { answers query.transport question with id := id }

theorem finishResult_ne_rejectedCached (operation : Operation) (response : Msg) :
    finishResult operation response ≠ .rejectedCached := by
  unfold finishResult
  dsimp only
  split
  · nofun
  · nofun

/-- A milder checker's rejection is one of the checker. -/
theorem Rejects.of_mild {checker other : Checker} {response : Msg}
    (rejects : Rejects other response) {id : UInt16}
    (mild : checker { response with id } = true → other response = true) :
    Rejects checker { response with id } := by
  rcases rejects with code | refused
  · exact .inl code
  · refine .inr (Bool.eq_false_iff.mpr fun accepted => ?_)
    rw [mild accepted] at refused
    exact nomatch refused

/-- If the transports answer a question always in the same way, then a call that is refused for an
earlier rejection has a checker that rejects the response. -/
theorem rejections_repeated {library : Library} (config : Config)
    (answers : Bytes → Question → Msg) {events : List Event}
    (honest : Machine.Meets (Client.step library config) (Honest (Answers answers)) {} events)
    (mild : Machine.Meets (Client.step library config) MildRejections {} events)
    {call : Call} (member : call ∈ (run library config events).calls)
    (returned : call.phase = .returned .rejectedCached) :
    ∃ checker question, call.query.checker = some checker ∧
      call.query.message.question.head? = some question ∧
      ∀ id, Rejects checker { answers call.query.transport question with id := id } := by
  have sound : Sound library (Answers answers) (Repeated answers) (run library config events) := by
    refine invariant_drive _ .init
      (fun client event sound condition => ?_) (honest.and mild)
    refine sound.step condition.1 ?_ (fun query operation response _ _ refused =>
      absurd refused (finishResult_ne_rejectedCached operation response))
      (fun _ _ other => absurd other nofun)
    rintro index env call result rfl - listed gives rfl
    cases gives with
    | rejected question head checked noted =>
      obtain ⟨checker, checks⟩ := Option.isSome_iff_exists.mp checked
      obtain ⟨rejection, kept, same⟩ := sound.traced.noted_of_load noted
      obtain ⟨⟨number, response⟩, other, otherChecks, rejects⟩ :=
        sound.traced.rejections rejection kept
      obtain ⟨question_eq, milder⟩ :=
        condition.2 call checker question listed checks head rejection kept same
      have transport_eq : rejection.query.transport = call.query.transport :=
        congrArg DnsStore.SaveCacheKey.transportName same
      refine ⟨checker, question, checks, head, fun id => ?_⟩
      have repeated := rejects.of_mild (milder other otherChecks rejection.response id)
      rw [response, question_eq, transport_eq] at repeated
      exact repeated
  exact sound.fits call member _ returned rfl

/-- The transport gives the plain response in both calls. -/
theorem honest_twoCalls (config : Config) (first second : Option Checker) :
    Meets (Client.step plainLibrary config) (Honest (Answers fun _ _ => plainResponse)) {}
      (twoCalls first second) := by
  simp only [twoCalls, Meets]
  refine ⟨trivial, trivial, fun query operation response _ answered => ?_, trivial, trivial,
    trivial⟩
  cases answered
  exact ⟨0, rfl⟩

theorem mildRejections_twoCalls :
    Meets (Client.step plainLibrary { rdrc := true }) MildRejections {}
      (twoCalls (some unsuccessful) (some unsuccessful)) := by
  simp only [twoCalls, Meets]
  refine ⟨trivial, fun _ _ _ _ _ _ rejection member => absurd member List.not_mem_nil, trivial,
    trivial, fun call checker question listed checks head rejection member same => ?_, trivial⟩
  cases listed
  cases checks
  cases head
  cases List.mem_singleton.mp member
  exact ⟨rfl, fun other otherChecks _ _ accepted => absurd accepted nofun⟩

/-- The second call is refused for the rejection of the same checker. -/
theorem rejections_repeated_again : ∃ checker question,
    (checkedQuery (some unsuccessful)).checker = some checker ∧
      (checkedQuery (some unsuccessful)).message.question.head? = some question ∧
      ∀ id, Rejects checker { plainResponse with id := id } := by
  have member : ⟨checkedQuery (some unsuccessful), .returned .rejectedCached⟩ ∈
      (run plainLibrary { rdrc := true }
        (twoCalls (some unsuccessful) (some unsuccessful))).calls :=
    List.mem_of_getElem? (i := 1) rfl
  exact rejections_repeated _ _ (honest_twoCalls _ _ _) mildRejections_twoCalls member rfl

/-- The checker of the first call rejects the response, and that of the second one accepts it. -/
theorem foreign_rejection_repeated :
    Machine.Meets (Client.step plainLibrary { rdrc := true })
      (Honest (Answers fun _ _ => plainResponse)) {}
      (twoCalls (some unsuccessful) (some successful)) ∧
    ∃ call ∈ (run plainLibrary { rdrc := true }
        (twoCalls (some unsuccessful) (some successful))).calls,
      call.phase = .returned .rejectedCached ∧ call.query.checker = some successful ∧
      ∀ id, ¬Rejects successful { plainResponse with id := id } := by
  refine ⟨honest_twoCalls _ _ _, ⟨checkedQuery (some successful), .returned .rejectedCached⟩,
    List.mem_of_getElem? (i := 1) rfl, rfl, rfl, fun id rejects => ?_⟩
  rcases rejects with code | refused
  · exact code (.inl rfl)
  · exact nomatch refused

end DnsClient

end SingBox
