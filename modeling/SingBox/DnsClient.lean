/-
This file embeds the client of the DNS router: its caches, its lock for each key, the
refreshing of stale responses in the background, and the store of rejected responses.

A call starts by looking for a response in the cache, in memory or in the cache file, and
asks the transport if there is none. Its checker, if it has one, sees the response of the
transport, which is then edited for the options of the call and stored. A response that is
rejected is noted in the store of rejections. The steps of the machine are the sections of
the calls between two points at which they may wait, and those of the goroutines. What the
cache file returns for a key is something that was saved under it, or nothing.
-/

import SingBox.DnsCacheKey
import SingBox.DnsMessage

namespace SingBox

open Function

namespace DnsClient

open DnsStore (CacheKey SaveCacheKey Response)

/-! ### Queries -/

/-- The parts of the DNS library and of the handling of client subnets that the client uses. -/
structure Library where
  pack : Msg → Option Bytes
  unpack : Bytes → Option Msg
  clientSubnetFromMessage : Msg → Prefix
  setClientSubnet : Msg → Prefix → Msg
  removeClientSubnet : Msg → Msg

def Library.codec (library : Library) : DnsStore.Codec Msg :=
  ⟨library.pack, library.unpack, normalizeTTL⟩

/-- A library for clients without a cache file and without client subnets. -/
def plainLibrary : Library where
  pack _ := none
  unpack _ := none
  clientSubnetFromMessage _ := {}
  setClientSubnet message _ := message
  removeClientSubnet message := message

theorem plainLibrary_roundTrip (message : Msg) (packed : Bytes)
    (written : plainLibrary.pack message = some packed) :
    plainLibrary.unpack packed = some message :=
  absurd written nofun

/-- The options of the client. `dnsCache` and `rdrc` say whether it has these stores. -/
structure Config where
  disableCache : Bool := false
  cache : DnsStore.Options := {}
  clientSubnet : Prefix := {}
  dnsCache : Bool := false
  rdrc : Bool := false
  rdrcTimeout : Int := 0

/-- An `adapter.DNSQueryOptions`. -/
structure QueryOptions where
  strategy : Strategy := .asIS
  lookupStrategy : Strategy := .asIS
  disableCache : Bool := false
  disableOptimisticCache : Bool := false
  rewriteTTL : Option UInt32 := none
  clientSubnet : Prefix := {}
  removeClientSubnet : Bool := false
  deriving DecidableEq, Repr

abbrev Checker := Msg → Bool

/-- The arguments of a call: the tag of the transport, and those of the transports that the context
names. -/
structure Query where
  transport : Bytes
  message : Msg
  options : QueryOptions := {}
  checker : Option Checker := none
  stack : List Bytes := []

/-- What the surroundings decide when a step is taken: the time, the hash of the environment, and
which of its entries the cache file returns, if any. -/
structure Env where
  now : Int := 0
  environment : UInt64 := 0
  loaded : Option Nat := none
  deriving DecidableEq, Repr

def newCacheKey (library : Library) (config : Config) (query : Query) (question : Question)
    (message : Msg) (env : Env) : CacheKey where
  name := question.name
  qtype := question.qtype
  qclass := question.qclass
  transportTag := query.transport
  clientSubnet :=
    if query.options.removeClientSubnet then {}
    else if query.options.clientSubnet.isValid then query.options.clientSubnet
    else if config.clientSubnet.isValid then config.clientSubnet
    else library.clientSubnetFromMessage message
  environment := env.environment

def finishCacheKey (key : CacheKey) (env : Env) : Option CacheKey :=
  if env.environment = key.environment ∨ key.environment = 0 then
    some { key with environment := env.environment }
  else none

def prepareExchangeMessage (library : Library) (config : Config) (query : Query) : Msg :=
  if query.options.removeClientSubnet then library.removeClientSubnet query.message
  else
    let clientSubnet :=
      if query.options.clientSubnet.isValid then query.options.clientSubnet
      else config.clientSubnet
    if clientSubnet.isValid then library.setClientSubnet query.message clientSubnet
    else query.message

/-- The calls of `lookupToExchange` that a `Lookup` makes. -/
def lookupQueries (transport name : Bytes) (options : QueryOptions) (checker : Option Checker)
    (stack : List Bytes) : List Query :=
  let strategy :=
    if options.lookupStrategy ≠ .asIS then options.lookupStrategy else options.strategy
  let query := fun qtype =>
    { transport := transport
      message := { question := [⟨name, qtype, 1⟩] }
      options := { options with strategy := strategy }
      checker := checker
      stack := stack }
  match strategy with
  | .ipv4Only => [query typeA]
  | .ipv6Only => [query typeAAAA]
  | .asIS | .preferIPv4 | .preferIPv6 => [query typeA, query typeAAAA]

/-! ### The store of rejected responses -/

/-- The entries that are being saved, and those of the cache file with the time at which they
expire. A goroutine is listed with its key, and has written it or not. -/
structure Rdrc where
  saveRDRC : SaveCacheKey → Bool := fun _ => false
  bucket : SaveCacheKey → Option Int64 := fun _ => none
  flushes : List (SaveCacheKey × Bool) := []

/-- `LoadRDRC`. -/
def Rdrc.load (rdrc : Rdrc) (key : SaveCacheKey) (now : Int) : Bool :=
  if rdrc.saveRDRC key then true
  else
    match rdrc.bucket key with
    | none => false
    | some expiresAt => ¬ofUnix expiresAt < now

/-- `SaveRDRCAsync`. -/
def Rdrc.save (rdrc : Rdrc) (key : SaveCacheKey) : Rdrc :=
  { rdrc with
    saveRDRC := Function.update rdrc.saveRDRC key true
    flushes := rdrc.flushes ++ [(key, false)] }

/-- The next section of a goroutine of `SaveRDRCAsync`; its transaction may fail. -/
def Rdrc.flush (rdrc : Rdrc) (index : Nat) (expiresAt : Int64) (fault : Bool) : Rdrc :=
  match rdrc.flushes[index]? with
  | none => rdrc
  | some (key, false) =>
    { rdrc with
      bucket :=
        if fault then rdrc.bucket else Function.update rdrc.bucket key (some expiresAt)
      flushes := rdrc.flushes.set index (key, true) }
  | some (key, true) =>
    { rdrc with
      saveRDRC := Function.update rdrc.saveRDRC key false
      flushes := rdrc.flushes.eraseIdx index }

/-- `LoadRDRC` deletes an entry that it has found expired. -/
def Rdrc.delete (rdrc : Rdrc) (key : SaveCacheKey) : Rdrc :=
  { rdrc with bucket := Function.update rdrc.bucket key none }

/-! ### The machine -/

/-- An `exchangeOperation`. `lock` is the channel that is to be closed. -/
structure Operation where
  query : Query
  message : Msg
  question : Question
  disableCache : Bool
  cacheKey : CacheKey
  lock : Option Nat := none

/-- The errors of a call, those about the response apart. -/
inductive Failure where
  | loop (stack : List Bytes) (tag : Bytes)
  | canceled
  | transport (text : String)
  deriving DecidableEq, Repr

/-- What a call returns. A response is from a transport, now or earlier, or made up by the client. -/
inductive Result where
  | response (message : Msg) (fromTransport : Bool)
  | rejected (message : Msg)
  | rejectedCached
  | failed (failure : Failure)

/-- Where a call is: before the question cache of a lookup, before the lock with the permission to
wait or without it, at the channel of another call, at the transport, or at its end. -/
inductive Phase where
  | asking
  | starting
  | startingAsync
  | waiting (cond : Nat)
  | exchanging (operation : Operation)
  | returned (result : Result)

structure Call where
  query : Query
  phase : Phase

/-- A goroutine of `backgroundRefreshDNS`. -/
structure Refresh where
  query : Query
  key : CacheKey
  message : Msg

/-- A response that was stored, with the call for which it was asked. -/
structure Stored where
  key : CacheKey
  query : Query
  question : Question
  response : Msg
  message : Msg

/-- A response that was rejected and noted. -/
structure Rejection where
  query : Query
  question : Question
  response : Msg

/-- The caches. `saves` is what the cache file was given. The last two fields are history. -/
structure Caches where
  memory : CacheKey → Option (Msg × Int) := fun _ => none
  saves : List (SaveCacheKey × Response) := []
  rdrc : Rdrc := {}
  stored : List Stored := []
  rejections : List Rejection := []

structure Client where
  caches : Caches := {}
  cacheLock : CacheKey → Option Nat := fun _ => none
  conds : Nat := 0
  released : List Nat := []
  backgroundRefresh : List CacheKey := []
  refreshes : List Refresh := []
  calls : List Call := []

/-- What a transport makes of a message. -/
inductive Reply where
  | response (message : Msg)
  | rcodeError (rcode : Nat)
  | failed (text : String)

/-- The events. `start` is the next section of a call that has not asked its transport; `cancel` is
the end of the context of a call that waits. `evict` is what the cache in memory does when it is
full, or when an entry has been found expired. -/
inductive Event where
  | exchange (query : Query)
  | exchangeAsync (query : Query)
  | lookup (transport name : Bytes) (options : QueryOptions) (checker : Option Checker)
      (stack : List Bytes)
  | start (index : Nat) (env : Env)
  | cancel (index : Nat)
  | respond (index : Nat) (reply : Reply) (env : Env)
  | refresh (index : Nat) (reply : Reply) (env : Env)
  | evict (key : CacheKey)
  | clear
  | flush (index : Nat) (now : Int) (fault : Bool)
  | deleteRDRC (key : SaveCacheKey)

/-- `exchangeToTransport`: the response for a message, or the error. -/
def exchangeToTransport (message : Msg) : Reply → Except String Msg
  | .response response => .ok (stripDNSPadding response)
  | .rcodeError rcode => .ok (fixedResponseStatus message rcode)
  | .failed text => .error text

/-- A response that a checker is asked about. -/
def Checkable (response : Msg) : Prop :=
  response.rcode = rcodeSuccess ∨ response.rcode = rcodeNameError

instance (response : Msg) : Decidable (Checkable response) := inferInstanceAs (Decidable (_ ∨ _))

/-- A response that is rejected by a checker or for its code. -/
def Rejects (checker : Checker) (response : Msg) : Prop :=
  ¬Checkable response ∨ checker response = false

instance (checker : Checker) (response : Msg) : Decidable (Rejects checker response) :=
  inferInstanceAs (Decidable (_ ∨ _))

def rdrcKey (transport : Bytes) (question : Question) : SaveCacheKey :=
  ⟨transport, question.name, question.qtype⟩

def questionOf (key : CacheKey) : Question := ⟨key.name, key.qtype, key.qclass⟩

section Steps

variable (library : Library) (config : Config)

/-! #### The caches -/

namespace Caches

variable (caches : Caches)

/-- `loadResponse`: a response and whether it is stale. -/
def loadResponse (key : CacheKey) (env : Env) : Option (Msg × Bool) :=
  if config.dnsCache then
    let loaded := (env.loaded.bind fun index => caches.saves[index]?).bind fun save =>
      if save.1 = key.saveKey then some save.2 else none
    (DnsStore.loadPersistentResponse library.codec config.cache loaded env.now).map fun found =>
      (found.1, found.2.2)
  else
    (caches.memory key).bind fun (response, expireAt) =>
      if config.cache.disableExpire then some (response, false)
      else if expireAt < env.now then
        if 0 < config.cache.optimisticTimeout ∧
            env.now < expireAt + config.cache.optimisticTimeout then
          some (normalizeTTL response 1, true)
        else none
      else
        some (normalizeTTL response
          (UInt32.ofNat (max ((expireAt - env.now) / second) 0).toNat), false)

def storeCache (stored : Stored) (timeToLive : UInt32) (env : Env) : Caches :=
  if timeToLive = 0 then caches
  else if config.dnsCache then
    match DnsStore.storeCache library.codec stored.key stored.message timeToLive env.now with
    | some (.save saveKey saved) =>
      { caches with
        saves := caches.saves ++ [(saveKey, saved)], stored := caches.stored ++ [stored] }
    | _ => caches
  else
    { caches with
      memory := Function.update caches.memory stored.key
        (some (stored.message, env.now + second * timeToLive.toNat))
      stored := caches.stored ++ [stored] }

/-- A response is edited for the options of a call, and stored if the key is still right. -/
def keep (key : CacheKey) (query : Query) (question : Question) (response : Msg) (env : Env) :
    Caches :=
  let (edited, timeToLive) :=
    applyResponseOptions question response query.options.strategy query.options.rewriteTTL
  match finishCacheKey key env with
  | none => caches
  | some storeKey =>
    caches.storeCache library config ⟨storeKey, query, question, response, edited⟩ timeToLive env

/-- `SaveRDRCAsync` for a response. -/
def saveRDRC (query : Query) (question : Question) (response : Msg) : Caches :=
  if config.rdrc then
    { caches with
      rdrc := caches.rdrc.save (rdrcKey query.transport question)
      rejections := caches.rejections ++ [⟨query, question, response⟩] }
  else caches

/-- What `finishExchange` does to the caches. -/
def finishExchange (operation : Operation) (response : Msg) (env : Env) : Caches :=
  let query := operation.query
  if operation.disableCache ∨ ¬Checkable response then caches
  else if ∃ checker ∈ query.checker, Rejects checker response then
    caches.saveRDRC config query operation.question response
  else caches.keep library config operation.cacheKey query operation.question response env

/-- What a goroutine of `backgroundRefreshDNS` does to the caches with a response. -/
def refreshed (refresh : Refresh) (response : Msg) (env : Env) : Caches :=
  match refresh.query.checker with
  | some checker =>
    if Rejects checker response then
      caches.saveRDRC config refresh.query (questionOf refresh.key) response
    else
      caches.keep library config refresh.key refresh.query (questionOf refresh.key) response env
  | none =>
    if Checkable response then
      caches.keep library config refresh.key refresh.query (questionOf refresh.key) response env
    else caches

end Caches

/-! #### The calls -/

variable (client : Client)

def Client.setPhase (index : Nat) (query : Query) (phase : Phase) : Client :=
  { client with calls := client.calls.set index ⟨query, phase⟩ }

def Client.release (key : CacheKey) : Option Nat → Client
  | none => client
  | some cond =>
    { client with
      cacheLock := Function.update client.cacheLock key none
      released := client.released ++ [cond] }

/-- `backgroundRefreshDNS`, up to its goroutine. -/
def Client.startRefresh (query : Query) (key : CacheKey) (message : Msg) : Client :=
  if key ∈ client.backgroundRefresh then client
  else
    { client with
      backgroundRefresh := client.backgroundRefresh ++ [key]
      refreshes := client.refreshes ++ [⟨query, key, message⟩] }

/-- The end of `beginExchange`, after the cache. -/
def Client.checkRDRC (index : Nat) (operation : Operation) (env : Env) : Client :=
  if operation.disableCache = false ∧ operation.query.checker.isSome ∧ config.rdrc ∧
      client.caches.rdrc.load (rdrcKey operation.query.transport operation.question) env.now then
    (client.release operation.cacheKey operation.lock).setPhase index operation.query
      (.returned .rejectedCached)
  else client.setPhase index operation.query (.exchanging operation)

/-- The part of `beginExchange` after the lock. -/
def Client.load (index : Nat) (operation : Operation) (env : Env) : Client :=
  match client.caches.loadResponse library config operation.cacheKey env with
  | none => client.checkRDRC config index operation env
  | some (response, isStale) =>
    let found := Phase.returned (.response { response with id := operation.message.id } true)
    if isStale then
      if operation.query.options.disableOptimisticCache then
        client.checkRDRC config index operation env
      else
        ((client.startRefresh operation.query operation.cacheKey operation.message).release
          operation.cacheKey operation.lock).setPhase index operation.query found
    else
      (client.release operation.cacheKey operation.lock).setPhase index operation.query found

/-- The operation of a call, before its key and its lock are known. -/
def operationOf (query : Query) (question : Question) : Operation where
  query := query
  message := prepareExchangeMessage library config query
  question := question
  disableCache :=
    !isSimpleRequest query.message || config.disableCache || query.options.disableCache
  cacheKey := ⟨question.name, question.qtype, question.qclass, query.transport, {}, 0⟩

def keyedOperation (query : Query) (question : Question) (lock : Option Nat) (env : Env) :
    Operation :=
  let operation := operationOf library config query question
  { operation with
    cacheKey := newCacheKey library config query question operation.message env
    lock := lock }

def Client.beginExchange (index : Nat) (query : Query) (allowWait : Bool) (env : Env) : Client :=
  if query.transport ∈ query.stack then
    client.setPhase index query (.returned (.failed (.loop query.stack query.transport)))
  else
    match query.message.question with
    | [] =>
      client.setPhase index query
        (.returned (.response (fixedResponseStatus query.message rcodeFormatError) false))
    | question :: _ =>
      if strategyRejects question query.options.strategy then
        client.setPhase index query
          (.returned (.response (fixedResponseStatus query.message rcodeSuccess) false))
      else if (operationOf library config query question).disableCache then
        client.setPhase index query (.exchanging (operationOf library config query question))
      else
        let operation := keyedOperation library config query question (some client.conds) env
        match client.cacheLock operation.cacheKey with
        | some cond => client.setPhase index query (if allowWait then .waiting cond else .starting)
        | none =>
          { client with
            cacheLock := Function.update client.cacheLock operation.cacheKey (some client.conds)
            conds := client.conds + 1 }.load library config index operation env

/-- A call that has waited for another one goes on, without a lock. -/
def Client.resume (index : Nat) (query : Query) (cond : Nat) (env : Env) : Client :=
  match query.message.question with
  | [] => client
  | question :: _ =>
    if cond ∈ client.released then
      client.load library config index (keyedOperation library config query question none env) env
    else client

/-- `questionCache`, and what `lookupToExchange` does with its result. -/
def Client.questionCache (index : Nat) (query : Query) (env : Env) : Client :=
  match query.message.question with
  | [] => client
  | question :: _ =>
    let key := newCacheKey library config query question query.message env
    if config.disableCache || query.options.disableCache then
      client.setPhase index query .starting
    else
      match client.caches.loadResponse library config key env with
      | none => client.setPhase index query .starting
      | some (response, isStale) =>
        if isStale then
          if query.options.disableOptimisticCache then client.setPhase index query .starting
          else
            (client.startRefresh query key (prepareExchangeMessage library config query)).setPhase
              index query (.returned (.response response true))
        else client.setPhase index query (.returned (.response response true))

/-- What `finishExchange` returns. -/
def finishResult (operation : Operation) (response : Msg) : Result :=
  let query := operation.query
  if ∃ checker ∈ query.checker, Rejects checker response then .rejected response
  else
    let edited := (applyResponseOptions operation.question response query.options.strategy
      query.options.rewriteTTL).1
    .response (matchEdns0 operation.message { edited with id := operation.message.id }) true

/-- The transport has answered a call. -/
def Client.respond (index : Nat) (operation : Operation) (reply : Reply) (env : Env) : Client :=
  match exchangeToTransport operation.message reply with
  | .error text =>
    (client.release operation.cacheKey operation.lock).setPhase index operation.query
      (.returned (.failed (.transport text)))
  | .ok response =>
    ({ client with
      caches := client.caches.finishExchange library config operation response env }.release
        operation.cacheKey operation.lock).setPhase index operation.query
      (.returned (finishResult operation response))

/-- The transport has answered a goroutine of `backgroundRefreshDNS`. -/
def Client.refresh (index : Nat) (refresh : Refresh) (reply : Reply) (env : Env) : Client :=
  { client with
    refreshes := client.refreshes.eraseIdx index
    backgroundRefresh := client.backgroundRefresh.erase refresh.key
    caches :=
      match exchangeToTransport refresh.message reply with
      | .error _ => client.caches
      | .ok response => client.caches.refreshed library config refresh response env }

def Client.startCall (index : Nat) (call : Call) (env : Env) : Client :=
  match call.phase with
  | .asking => client.questionCache library config index call.query env
  | .starting => client.beginExchange library config index call.query true env
  | .startingAsync => client.beginExchange library config index call.query false env
  | .waiting cond => client.resume library config index call.query cond env
  | .exchanging _ | .returned _ => client

def Client.step : Event → Client
  | .exchange query => { client with calls := client.calls ++ [⟨query, .starting⟩] }
  | .exchangeAsync query => { client with calls := client.calls ++ [⟨query, .startingAsync⟩] }
  | .lookup transport name options checker stack =>
    { client with
      calls := client.calls ++
        (lookupQueries transport name options checker stack).map fun query => ⟨query, .asking⟩ }
  | .start index env =>
    match client.calls[index]? with
    | none => client
    | some call => client.startCall library config index call env
  | .cancel index =>
    match client.calls[index]? with
    | some ⟨query, .waiting _⟩ =>
      client.setPhase index query (.returned (.failed .canceled))
    | _ => client
  | .respond index reply env =>
    match client.calls[index]? with
    | some ⟨_, .exchanging operation⟩ => client.respond library config index operation reply env
    | _ => client
  | .refresh index reply env =>
    match client.refreshes[index]? with
    | none => client
    | some refresh => client.refresh library config index refresh reply env
  | .evict key =>
    { client with
      caches := { client.caches with memory := Function.update client.caches.memory key none } }
  | .clear => { client with caches := { client.caches with memory := fun _ => none } }
  | .flush index now fault =>
    { client with
      caches := { client.caches with
        rdrc := client.caches.rdrc.flush index (unix (now + config.rdrcTimeout)) fault } }
  | .deleteRDRC key =>
    { client with caches := { client.caches with rdrc := client.caches.rdrc.delete key } }

end Steps

def run (library : Library) (config : Config) (events : List Event) : Client :=
  Machine.drive (Client.step library config) {} events

end DnsClient

end SingBox
