/-
This file says where the responses and the rejections of the DNS client come from. What
the caches hold for a key was stored under a key that they do not tell from it, after the
checker of the call that asked for it had accepted it; what the store of rejections holds
was rejected by a checker. A call that returns a response of a transport has it from the
transport itself or from the caches.
-/

import SingBox.DnsClient

namespace SingBox

open List Log Function Option

namespace DnsClient

open DnsStore (CacheKey SaveCacheKey Response)

/-! ### The caches -/

/-- The keys for which the cache has one entry. -/
def Config.Shares (config : Config) (one two : CacheKey) : Prop :=
  if config.dnsCache then one.saveKey = two.saveKey else one = two

/-- A stored response was accepted, and stored in its edited form. What is known of the responses of
the transports is known of it. -/
structure Stored.Right (good : Bytes → Question → Msg → Prop) (stored : Stored) : Prop where
  good : good stored.query.transport stored.question stored.response
  accepted : ∀ checker, stored.query.checker = some checker → checker stored.response = true
  edited : stored.message = (applyResponseOptions stored.question stored.response
    stored.query.options.strategy stored.query.options.rewriteTTL).1

/-- A noted response was rejected. -/
structure Rejection.Right (good : Bytes → Question → Msg → Prop) (rejection : Rejection) :
    Prop where
  good : good rejection.query.transport rejection.question rejection.response
  rejected : ∃ checker, rejection.query.checker = some checker ∧
    Rejects checker rejection.response

/-- A response was rejected under the key. -/
def Caches.Noted (caches : Caches) (key : SaveCacheKey) : Prop :=
  ∃ rejection ∈ caches.rejections, rdrcKey rejection.query.transport rejection.question = key

/-- All entries come from responses. -/
structure Traced (library : Library) (good : Bytes → Question → Msg → Prop) (caches : Caches) :
    Prop where
  memory : ∀ key message expireAt, caches.memory key = some (message, expireAt) →
    ∃ stored ∈ caches.stored, stored.key = key ∧ stored.message = message
  saves : ∀ save ∈ caches.saves, ∃ stored ∈ caches.stored,
    stored.key.saveKey = save.1 ∧ library.pack stored.message = some save.2.rawMessage
  stored : ∀ stored ∈ caches.stored, stored.Right good
  pending : ∀ key, caches.rdrc.saveRDRC key = true → caches.Noted key
  bucket : ∀ key, (caches.rdrc.bucket key).isSome → caches.Noted key
  flushes : ∀ flush ∈ caches.rdrc.flushes, caches.Noted flush.1
  rejections : ∀ rejection ∈ caches.rejections, rejection.Right good

/-- What is loaded from the cache file is the message of an entry, but for its lifetimes. -/
theorem loadPersistentResponse_message {codec : DnsStore.Codec Msg} {options : DnsStore.Options}
    {loaded : Option Response} {now : Int} {found : Msg × Int × Bool}
    (result : DnsStore.loadPersistentResponse codec options loaded now = some found) :
    ∃ response message, loaded = some response ∧
      codec.unpack response.rawMessage = some message ∧
      (found.1 = message ∨ ∃ timeToLive, found.1 = codec.normalizeTTL message timeToLive) := by
  obtain ⟨response, given, result⟩ := bind_eq_some_iff.mp result
  obtain ⟨message, unpacked, result⟩ := bind_eq_some_iff.mp result
  refine ⟨response, message, given, unpacked, ?_⟩
  split at result
  · cases result
    exact .inl rfl
  · split at result
    · split at result
      · cases result
        exact .inr ⟨_, rfl⟩
      · exact nomatch result
    · cases result
      exact .inr ⟨_, rfl⟩

variable {env : Env} {operation : Operation} {query : Query} {question : Question} {response : Msg}

namespace Traced

variable {library : Library} {config : Config} {good : Bytes → Question → Msg → Prop}
  {caches : Caches}

theorem init : Traced library good {} where
  memory _ _ _ found := absurd found nofun
  saves _ member := absurd member not_mem_nil
  stored _ member := absurd member not_mem_nil
  pending _ found := absurd found nofun
  bucket _ found := absurd found nofun
  flushes _ member := absurd member not_mem_nil
  rejections _ member := absurd member not_mem_nil

section

variable (traced : Traced library good caches)

include traced

/-- A loaded response was stored under a key with the same entry. -/
theorem load
    (roundTrip : ∀ message packed, library.pack message = some packed →
      library.unpack packed = some message) {key : CacheKey} {isStale : Bool}
    (found : caches.loadResponse library config key env = some (response, isStale)) :
    ∃ stored ∈ caches.stored, config.Shares stored.key key ∧
      (response = stored.message ∨
        ∃ timeToLive, response = normalizeTTL stored.message timeToLive) := by
  unfold Caches.loadResponse at found
  unfold Config.Shares
  by_cases persistent : config.dnsCache = true
  · rw [if_pos persistent] at found
    obtain ⟨result, loaded, same⟩ := map_eq_some_iff.mp found
    obtain ⟨saved, message, given, unpacked, shape⟩ := loadPersistentResponse_message loaded
    obtain ⟨save, chosen, kept⟩ := bind_eq_some_iff.mp given
    obtain ⟨index, -, listed⟩ := bind_eq_some_iff.mp chosen
    by_cases own : save.1 = key.saveKey
    · rw [if_pos own] at kept
      obtain ⟨stored, member, shared, packed⟩ := traced.saves save (mem_of_getElem? listed)
      have message_eq : message = stored.message := by
        rw [some.inj kept] at packed
        exact some.inj (unpacked.symm.trans (roundTrip _ _ packed))
      refine ⟨stored, member, ?_, ?_⟩
      · rw [if_pos persistent, shared, own]
      · cases same
        rw [← message_eq]
        exact shape
    · rw [if_neg own] at kept
      exact nomatch kept
  · rw [if_neg persistent] at found
    obtain ⟨⟨message, expireAt⟩, listed, found⟩ := bind_eq_some_iff.mp found
    obtain ⟨stored, member, shared, rfl⟩ := traced.memory key message expireAt listed
    refine ⟨stored, member, ?_, ?_⟩
    · rw [if_neg persistent]
      exact shared
    · dsimp only at found
      split at found
      · cases found
        exact .inl rfl
      · split at found
        · split at found
          · cases found
            exact .inr ⟨_, rfl⟩
          · exact nomatch found
        · cases found
          exact .inr ⟨_, rfl⟩

/-- A response that `LoadRDRC` reports was rejected. -/
theorem noted_of_load {key : SaveCacheKey} {now : Int}
    (rejected : caches.rdrc.load key now = true) : caches.Noted key := by
  unfold Rdrc.load at rejected
  split at rejected
  next pending => exact traced.pending key pending
  · cases entry : caches.rdrc.bucket key with
    | none =>
      rw [entry] at rejected
      exact nomatch rejected
    | some expiresAt => exact traced.bucket key (by rw [entry]; rfl)

theorem storeCache {stored : Stored} (right : stored.Right good) (timeToLive : UInt32) (env : Env) :
    Traced library good (caches.storeCache library config stored timeToLive env) := by
  have older : ∀ other ∈ caches.stored, other ∈ caches.stored ++ [stored] :=
    fun other member => mem_append_left _ member
  have newer : stored ∈ caches.stored ++ [stored] := mem_concat_self
  have all : ∀ other ∈ caches.stored ++ [stored], other.Right good := by
    intro other member
    rcases mem_snoc member with old | rfl
    · exact traced.stored other old
    · exact right
  unfold Caches.storeCache DnsStore.storeCache
  split
  · exact traced
  · split
    · cases packed : library.codec.pack stored.message with
      | none => exact traced
      | some bytes =>
        refine { traced with
          memory := fun key message expireAt found => ?_
          saves := fun save member => ?_
          stored := all }
        · obtain ⟨other, old, same⟩ := traced.memory key message expireAt found
          exact ⟨other, older other old, same⟩
        · rcases mem_snoc member with old | rfl
          · obtain ⟨other, listed, same⟩ := traced.saves save old
            exact ⟨other, older other listed, same⟩
          · exact ⟨stored, newer, rfl, packed⟩
    · refine { traced with
      memory := fun key message expireAt found => ?_
      saves := fun save member => ?_
      stored := all }
      · have entry : update caches.memory stored.key
          (some (stored.message, env.now + second * timeToLive.toNat)) key =
            some (message, expireAt) := found
        by_cases own : key = stored.key
        · rw [own, update_self] at entry
          cases entry
          exact ⟨stored, newer, own.symm, rfl⟩
        · rw [update_of_ne own] at entry
          obtain ⟨other, old, same⟩ := traced.memory key message expireAt entry
          exact ⟨other, older other old, same⟩
      · obtain ⟨other, listed, same⟩ := traced.saves save member
        exact ⟨other, older other listed, same⟩

theorem keep (key : CacheKey) (known : good query.transport question response)
    (accepted : ∀ checker, query.checker = some checker → checker response = true) (env : Env) :
    Traced library good (caches.keep library config key query question response env) := by
  unfold Caches.keep
  cases finishCacheKey key env with
  | none => exact traced
  | some storeKey => exact traced.storeCache ⟨known, accepted, rfl⟩ _ env

theorem saveRDRC (known : good query.transport question response) {checker : Checker}
    (checks : query.checker = some checker) (rejected : Rejects checker response) :
    Traced library good (caches.saveRDRC config query question response) := by
  unfold Caches.saveRDRC
  split
  · have older : ∀ key, caches.Noted key →
        ∃ rejection ∈ caches.rejections ++ [⟨query, question, response⟩],
          rdrcKey rejection.query.transport rejection.question = key := by
      rintro key ⟨rejection, member, same⟩
      exact ⟨rejection, mem_append_left _ member, same⟩
    have newer : ∃ rejection ∈ caches.rejections ++ [⟨query, question, response⟩],
        rdrcKey rejection.query.transport rejection.question = rdrcKey query.transport question :=
      ⟨_, mem_concat_self, rfl⟩
    refine ⟨traced.memory, traced.saves, traced.stored, fun key pending => ?_,
      fun key present => older key (traced.bucket key present), fun flush member => ?_,
      fun rejection member => ?_⟩
    · have entry : update caches.rdrc.saveRDRC (rdrcKey query.transport question) true
        key = true := pending
      by_cases own : key = rdrcKey query.transport question
      · rw [own]
        exact newer
      · rw [update_of_ne own] at entry
        exact older key (traced.pending key entry)
    · rcases mem_snoc member with old | rfl
      · exact older _ (traced.flushes flush old)
      · exact newer
    · rcases mem_snoc member with old | rfl
      · exact traced.rejections rejection old
      · exact ⟨known, checker, checks, rejected⟩
  · exact traced

end

theorem accepted_of_not_rejects (accepts : ¬∃ checker ∈ query.checker, Rejects checker response) :
    ∀ checker, query.checker = some checker → checker response = true := by
  intro checker checks
  by_contra refused
  exact accepts ⟨checker, checks, .inr (Bool.eq_false_iff.mpr refused)⟩

variable (traced : Traced library good caches)

include traced

theorem finishExchange (known : good operation.query.transport operation.question response)
    (env : Env) :
    Traced library good (caches.finishExchange library config operation response env) := by
  unfold Caches.finishExchange
  dsimp only
  split
  · exact traced
  · split
    next rejected =>
      obtain ⟨checker, checks, rejects⟩ := rejected
      exact traced.saveRDRC known checks rejects
    next accepted => exact traced.keep _ known (accepted_of_not_rejects accepted) env

theorem refreshed {refresh : Refresh}
    (known : good refresh.query.transport (questionOf refresh.key) response) (env : Env) :
    Traced library good (caches.refreshed library config refresh response env) := by
  unfold Caches.refreshed
  cases checks : refresh.query.checker with
  | some checker =>
    dsimp only
    split
    next rejects => exact traced.saveRDRC known checks rejects
    next accepts =>
      refine traced.keep _ known (fun other same => ?_) env
      cases checks.symm.trans same
      exact Bool.not_eq_false _ ▸ fun refused => accepts (.inr refused)
  | none =>
    dsimp only
    split
    · exact traced.keep _ known (fun other same => absurd (checks.symm.trans same) nofun) env
    · exact traced

/-- Entries are taken out of the cache in memory. -/
theorem forget {memory : CacheKey → Option (Msg × Int)}
    (less : ∀ key entry, memory key = some entry → caches.memory key = some entry) :
    Traced library good { caches with memory } :=
  { traced with
    memory := fun key message expireAt found => traced.memory key message expireAt (less key _ found) }

/-- The store of rejections goes on, without new keys. -/
theorem setRdrc {rdrc : Rdrc} (pending : ∀ key, rdrc.saveRDRC key = true → caches.Noted key)
    (bucket : ∀ key, (rdrc.bucket key).isSome → caches.Noted key)
    (flushes : ∀ flush ∈ rdrc.flushes, caches.Noted flush.1) :
    Traced library good { caches with rdrc } :=
  { traced with pending, bucket, flushes }

theorem flush (index : Nat) (expiresAt : Int64) (fault : Bool) :
    Traced library good { caches with rdrc := caches.rdrc.flush index expiresAt fault } := by
  unfold Rdrc.flush
  cases listed : caches.rdrc.flushes[index]? with
  | none => exact traced
  | some flush =>
    obtain ⟨key, written⟩ := flush
    have noted : caches.Noted key := traced.flushes _ (mem_of_getElem? listed)
    cases written with
    | false =>
      refine traced.setRdrc traced.pending (fun other present => ?_) fun other member => ?_
      · dsimp only at present
        split at present
        · exact traced.bucket other present
        · by_cases own : other = key
          · rw [own]
            exact noted
          · rw [update_of_ne own] at present
            exact traced.bucket other present
      · rcases mem_or_eq_of_mem_set member with old | rfl
        · exact traced.flushes other old
        · exact noted
    | true =>
      refine traced.setRdrc (fun other pending => ?_) traced.bucket fun other member =>
        traced.flushes other (mem_of_mem_eraseIdx member)
      dsimp only at pending
      by_cases own : other = key
      · rw [own, update_self] at pending
        exact nomatch pending
      · rw [update_of_ne own] at pending
        exact traced.pending other pending

theorem delete (key : SaveCacheKey) :
    Traced library good { caches with rdrc := caches.rdrc.delete key } := by
  refine traced.setRdrc traced.pending (fun other present => ?_) traced.flushes
  have entry : (update caches.rdrc.bucket key none other).isSome := present
  by_cases own : other = key
  · rw [own, update_self] at entry
    exact nomatch entry
  · rw [update_of_ne own] at entry
    exact traced.bucket other entry

end Traced

/-! ### The calls -/

section Calls

variable (library : Library) (config : Config)

/-- What a section of a call returns without asking the transport. -/
inductive Caches.Gives (caches : Caches) (query : Query) (env : Env) : Result → Prop where
  | failed (failure : Failure) : Gives caches query env (.failed failure)
  | made (message : Msg) (empty : message.answer = [])
      (excluded : ∀ question, query.message.question.head? = some question →
        strategyRejects question query.options.strategy = true) :
      Gives caches query env (.response message false)
  | cached (question : Question) (message response : Msg) (isStale : Bool) (id : UInt16)
      (head : query.message.question.head? = some question)
      (taken : strategyRejects question query.options.strategy = false)
      (own : message = query.message ∨ message = prepareExchangeMessage library config query)
      (found : caches.loadResponse library config
        (newCacheKey library config query question message env) env = some (response, isStale)) :
      Gives caches query env (.response { response with id := id } true)
  | rejected (question : Question) (head : query.message.question.head? = some question)
      (checked : query.checker.isSome)
      (noted : caches.rdrc.load (rdrcKey query.transport question) env.now = true) :
      Gives caches query env .rejectedCached

/-- An operation is that of a query, which its strategy does not exclude. -/
structure Operation.Of (operation : Operation) (query : Query) : Prop where
  own : operation.query = query
  head : query.message.question.head? = some operation.question
  taken : strategyRejects operation.question query.options.strategy = false

/-- What is known of a query in a phase of its call. -/
def Phase.Begun (query : Query) : Phase → Prop
  | .asking | .waiting _ =>
    ∀ question, query.message.question.head? = some question →
      strategyRejects question query.options.strategy = false
  | .exchanging operation => operation.Of query
  | .starting | .startingAsync | .returned _ => True

/-- What a section of a call does: the caches stay, and so do the other calls. -/
structure Client.Goes (client : Client) (query : Query) (env : Env) (after : Client) : Prop where
  caches : after.caches = client.caches
  calls : ∀ call ∈ after.calls, call ∈ client.calls ∨ call.query = query ∧
    call.phase.Begun query ∧
    ∀ result, call.phase = .returned result → client.caches.Gives library config query env result

variable {library config} {client before : Client} {query : Query} {env : Env} {index : Nat}

theorem Client.Goes.refl : client.Goes library config query env client :=
  ⟨rfl, fun _ member => .inl member⟩

@[simp]
theorem Client.caches_release (key : CacheKey) (lock : Option Nat) :
    (client.release key lock).caches = client.caches := by
  cases lock with
  | none | some cond => rfl

@[simp]
theorem Client.calls_release (key : CacheKey) (lock : Option Nat) :
    (client.release key lock).calls = client.calls := by
  cases lock with
  | none | some cond => rfl

@[simp]
theorem Client.caches_startRefresh (key : CacheKey) (message : Msg) :
    (client.startRefresh query key message).caches = client.caches := by
  unfold Client.startRefresh
  split
  · rfl
  · rfl

@[simp]
theorem Client.calls_startRefresh (key : CacheKey) (message : Msg) :
    (client.startRefresh query key message).calls = client.calls := by
  unfold Client.startRefresh
  split
  · rfl
  · rfl

section

variable (caches : before.caches = client.caches) (calls : before.calls = client.calls)

include caches calls

theorem Client.Goes.setPhase {phase : Phase} (begun : phase.Begun query)
    (gives : ∀ result, phase = .returned result →
      client.caches.Gives library config query env result) :
    client.Goes library config query env (before.setPhase index query phase) := by
  refine ⟨caches, fun call member => ?_⟩
  rcases mem_or_eq_of_mem_set member with old | rfl
  · rw [calls] at old
    exact .inl old
  · exact .inr ⟨rfl, begun, gives⟩

theorem Client.Goes.returned {result : Result}
    (gives : client.caches.Gives library config query env result) :
    client.Goes library config query env (before.setPhase index query (.returned result)) := by
  refine .setPhase caches calls trivial fun other same => ?_
  cases same
  exact gives

theorem Client.Goes.checkRDRC (own : operation.Of query) :
    client.Goes library config query env (before.checkRDRC config index operation env) := by
  obtain ⟨rfl, head, taken⟩ := own
  unfold Client.checkRDRC
  split
  next noted =>
    obtain ⟨-, checked, -, noted⟩ := noted
    rw [caches] at noted
    exact .returned (by simpa using caches) (by simpa using calls)
      (.rejected operation.question head checked noted)
  · exact .setPhase caches calls ⟨rfl, head, taken⟩ fun _ other => nomatch other

theorem Client.Goes.load {lock : Option Nat} (head : query.message.question.head? = some question)
    (taken : strategyRejects question query.options.strategy = false) :
    client.Goes library config query env (before.load library config index
      (keyedOperation library config query question lock env) env) := by
  have own : (keyedOperation library config query question lock env).Of query :=
    ⟨rfl, head, taken⟩
  unfold Client.load
  rw [caches]
  split
  · exact .checkRDRC caches calls own
  next response isStale found =>
    have gives : client.caches.Gives library config query env (.response { response with
        id := (keyedOperation library config query question lock env).message.id } true) :=
      .cached question _ response isStale _ head taken (.inr rfl) found
    split
    · split
      · exact .checkRDRC caches calls own
      · exact .returned (by simpa using caches) (by simpa using calls) gives
    · exact .returned (by simpa using caches) (by simpa using calls) gives

end

theorem Client.Goes.beginExchange {allowWait : Bool} :
    client.Goes library config query env
      (client.beginExchange library config index query allowWait env) := by
  unfold Client.beginExchange
  split
  · exact .returned rfl rfl (.failed _)
  · split
    next none => exact .returned rfl rfl (.made _ rfl fun question head => by
      rw [none] at head
      exact absurd head nofun)
    next question rest questions =>
      have head : query.message.question.head? = some question := by
        rw [questions]
        rfl
      split
      next rejects =>
        refine .returned rfl rfl (.made _ rfl fun other same => ?_)
        cases head.symm.trans same
        exact rejects
      next accepts =>
        have taken := Bool.eq_false_iff.mpr accepts
        split
        · exact .setPhase rfl rfl ⟨rfl, head, taken⟩ fun _ other => nomatch other
        · dsimp only
          split
          · refine .setPhase rfl rfl ?_ fun _ other => ?_
            · split
              · intro other same
                cases head.symm.trans same
                exact taken
              · trivial
            · split at other
              · exact nomatch other
              · exact nomatch other
          · refine .load ?_ ?_ head taken
            · rfl
            · rfl

theorem Client.Goes.startCall {call : Call} (begun : call.phase.Begun call.query) :
    client.Goes library config call.query env (client.startCall library config index call env) := by
  obtain ⟨query, phase⟩ := call
  cases phase with
  | asking =>
    unfold Client.startCall Client.questionCache
    dsimp only
    split
    · exact .refl
    next question rest questions =>
      have head : query.message.question.head? = some question := by
        rw [questions]
        rfl
      have starting : ∀ index, client.Goes library config query env
          (client.setPhase index query .starting) := fun index =>
        .setPhase rfl rfl trivial fun _ other => nomatch other
      split
      · exact starting index
      · split
        · exact starting index
        next response isStale found =>
          have gives : client.caches.Gives library config query env (.response response true) :=
            .cached question _ response isStale response.id head (begun question head)
              (.inl rfl) found
          split
          · split
            · exact starting index
            · exact .returned (by simp) (by simp) gives
          · exact .returned rfl rfl gives
  | starting | startingAsync => exact .beginExchange
  | waiting cond =>
    unfold Client.startCall Client.resume
    dsimp only
    split
    · exact .refl
    next question rest questions =>
      have head : query.message.question.head? = some question := by
        rw [questions]
        rfl
      split
      · exact .load rfl rfl head (begun question head)
      · exact .refl
  | exchanging operation | returned result => exact .refl

/-- The calls of a `Lookup` are not excluded by its strategy. -/
theorem taken_of_lookupQueries {transport name : Bytes} {options : QueryOptions}
    {checker : Option Checker} {stack : List Bytes}
    (member : query ∈ lookupQueries transport name options checker stack)
    (head : query.message.question.head? = some question) :
    strategyRejects question query.options.strategy = false := by
  unfold lookupQueries at member
  dsimp only at member
  split at member
  next strategy =>
    cases mem_singleton.mp member
    cases head
    rw [strategy]
    rfl
  next strategy =>
    cases mem_singleton.mp member
    cases head
    rw [strategy]
    rfl
  all_goals
    rename_i strategy
    rcases mem_cons.mp member with same | member
    · cases same
      cases head
      rw [strategy]
      rfl
    · cases mem_singleton.mp member
      cases head
      rw [strategy]
      rfl

end Calls

/-! ### Runs -/

/-- What is known of the responses of the transports is true of the response of an event. -/
def Honest (good : Bytes → Question → Msg → Prop) (client : Client) : Event → Prop
  | .respond index reply _ =>
    ∀ query operation response, client.calls[index]? = some ⟨query, .exchanging operation⟩ →
      exchangeToTransport operation.message reply = .ok response →
      good operation.query.transport operation.question response
  | .refresh index reply _ =>
    ∀ refresh response, client.refreshes[index]? = some refresh →
      exchangeToTransport refresh.message reply = .ok response →
      good refresh.query.transport (questionOf refresh.key) response
  | _ => True

/-- The caches are traced, and what has been returned has the property. -/
structure Sound (library : Library) (good : Bytes → Question → Msg → Prop)
    (fits : Query → Result → Prop) (client : Client) : Prop where
  traced : Traced library good client.caches
  begun : ∀ call ∈ client.calls, call.phase.Begun call.query
  fits : ∀ call ∈ client.calls, ∀ result, call.phase = .returned result → fits call.query result

/-- The caches do not tell the key of a stored response from one under which a query looks. -/
def Stored.Shadows (library : Library) (config : Config) (stored : Stored) (query : Query)
    (question : Question) (env : Env) : Prop :=
  ∃ message, (message = query.message ∨ message = prepareExchangeMessage library config query) ∧
    config.Shares stored.key (newCacheKey library config query question message env)

section Runs

variable {library : Library} {config : Config} {good : Bytes → Question → Msg → Prop}
  {fits : Query → Result → Prop} {client : Client}

theorem Sound.init : Sound library good fits {} where
  traced := .init
  begun _ member := absurd member not_mem_nil
  fits _ member := absurd member not_mem_nil

section

variable (sound : Sound library good fits client)

include sound

theorem Sound.of_calls {after : Client} (traced : Traced library good after.caches)
    (calls : ∀ call ∈ after.calls, call ∈ client.calls ∨ call.phase.Begun call.query ∧
      ∀ result, call.phase = .returned result → fits call.query result) :
    Sound library good fits after where
  traced
  begun call member := (calls call member).elim (sound.begun call) fun new => new.1
  fits call member := (calls call member).elim (sound.fits call) fun new => new.2

theorem Sound.setCaches {caches : Caches} (traced : Traced library good caches) :
    Sound library good fits { client with caches } :=
  ⟨traced, sound.begun, sound.fits⟩

theorem Sound.respond {index : Nat} {reply : Reply}
    (honest : ∀ response, exchangeToTransport operation.message reply = .ok response →
      good operation.query.transport operation.question response)
    (finishes : ∀ response, good operation.query.transport operation.question response →
      fits operation.query (finishResult operation response))
    (fails : ∀ failure, fits operation.query (.failed failure)) :
    Sound library good fits (client.respond library config index operation reply env) := by
  unfold Client.respond
  split
  · refine sound.of_calls (by simpa [Client.setPhase] using sound.traced) fun call member => ?_
    rcases mem_or_eq_of_mem_set member with old | rfl
    · rw [Client.calls_release] at old
      exact .inl old
    · refine .inr ⟨trivial, fun result same => ?_⟩
      cases same
      exact fails _
  next response answered =>
    have known := honest response answered
    refine sound.of_calls
      (by simpa [Client.setPhase] using sound.traced.finishExchange known env) fun call member => ?_
    rcases mem_or_eq_of_mem_set member with old | rfl
    · rw [Client.calls_release] at old
      exact .inl old
    · refine .inr ⟨trivial, fun result same => ?_⟩
      cases same
      exact finishes response known

/-- A response from the caches is a stored one, but for its lifetimes and its number. -/
theorem Sound.stored_of_loadResponse
    (roundTrip : ∀ message packed, library.pack message = some packed →
      library.unpack packed = some message) {message : Msg} {isStale : Bool} (id : UInt16)
    (own : message = query.message ∨ message = prepareExchangeMessage library config query)
    (found : client.caches.loadResponse library config
      (newCacheKey library config query question message env) env = some (response, isStale)) :
    ∃ stored ∈ client.caches.stored, stored.Right good ∧
      stored.Shadows library config query question env ∧
      ({ response with id } : Msg).bare = ({ stored.response with
        answer := filterHints stored.question stored.query.options.strategy
          stored.response.answer } : Msg).bare := by
  obtain ⟨stored, member, shared, shape⟩ := sound.traced.load roundTrip found
  have right := sound.traced.stored stored member
  refine ⟨stored, member, right, ⟨message, own, shared⟩, ?_⟩
  have edited : stored.message.bare = ({ stored.response with
      answer := filterHints stored.question stored.query.options.strategy
        stored.response.answer } : Msg).bare := by
    rw [right.edited, applyResponseOptions, Msg.bare_normalizeTTL]
  rw [← edited]
  rcases shape with rfl | ⟨timeToLive, rfl⟩
  · rfl
  · exact stored.message.bare_normalizeTTL timeToLive

theorem Sound.step {event : Event} (honest : Honest good client event)
    (gives : ∀ index env call result, event = .start index env → call ∈ client.calls →
      client.calls[index]? = some call →
      client.caches.Gives library config call.query env result → fits call.query result)
    (finishes : ∀ query operation response, operation.Of query →
      good query.transport operation.question response →
      fits query (finishResult operation response))
    (fails : ∀ query failure, fits query (.failed failure)) :
    Sound library good fits (client.step library config event) := by
  have added : ∀ queries : List Query, ∀ phase : Phase, (∀ result, phase ≠ .returned result) →
      (∀ query ∈ queries, phase.Begun query) →
      Sound library good fits { client with
        calls := client.calls ++ queries.map fun query => ⟨query, phase⟩ } := by
    intro queries phase unreturned begun
    refine sound.of_calls sound.traced fun call member => ?_
    rcases mem_append.mp member with old | new
    · exact .inl old
    · obtain ⟨query, listed, rfl⟩ := mem_map.mp new
      exact .inr ⟨begun query listed, fun result same => absurd same (unreturned result)⟩
  fun_cases Client.step library config client event with
  | case1 query => exact added [query] .starting (by nofun) fun _ _ => trivial
  | case2 query => exact added [query] .startingAsync (by nofun) fun _ _ => trivial
  | case3 =>
    exact added _ .asking (by nofun) fun query member question head =>
      taken_of_lookupQueries member head
  | case5 index env call listed =>
    have member := mem_of_getElem? listed
    have goes : client.Goes library config call.query env
        (client.startCall library config index call env) := .startCall (sound.begun call member)
    refine sound.of_calls (by rw [goes.caches]; exact sound.traced) fun other listedAfter => ?_
    refine (goes.calls other listedAfter).imp_right fun new => ?_
    obtain ⟨same, begun, results⟩ := new
    rw [same]
    exact ⟨begun, fun result returned =>
      gives index env call result rfl member listed (results result returned)⟩
  | case6 =>
    refine sound.of_calls sound.traced fun call member => ?_
    rcases mem_or_eq_of_mem_set member with old | rfl
    · exact .inl old
    · refine .inr ⟨trivial, fun result same => ?_⟩
      cases same
      exact fails _ _
  | case8 index reply env query operation listed =>
    have own : operation.Of query := sound.begun _ (mem_of_getElem? listed)
    have same := own.own
    refine sound.respond (honest query operation · listed) (fun response known => ?_) (fails _)
    rw [same] at known ⊢
    exact finishes query operation response own known
  | case11 index reply env refresh listed =>
    refine sound.of_calls ?_ fun call member => .inl member
    unfold Client.refresh
    dsimp only
    split
    · exact sound.traced
    next response answered =>
      exact sound.traced.refreshed (honest refresh response listed answered) env
  | case12 key =>
    refine sound.setCaches (sound.traced.forget fun other entry found => ?_)
    by_cases own : other = key
    · rw [own, update_self] at found
      exact nomatch found
    · rw [update_of_ne own] at found
      exact found
  | case13 => exact sound.setCaches (sound.traced.forget fun _ _ found => absurd found nofun)
  | case14 index now fault => exact sound.setCaches (sound.traced.flush index _ fault)
  | case15 key => exact sound.setCaches (sound.traced.delete key)
  | _ => exact sound

end

end Runs

end DnsClient

end SingBox
