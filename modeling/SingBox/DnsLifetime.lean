/-
This file is about the lifetimes of the records that the DNS client returns. All records of
a response are given one lifetime, which passes over the records that must not be kept at
all as soon as there is another one, and which for a negative answer is that of its `SOA`
record. So no record outlives its own lifetime exactly for the responses for which the
common lifetime is right.
-/

import SingBox.DnsClient

namespace SingBox.DnsClient

open List Option
open DnsStore (CacheKey SaveCacheKey Response)

/-- The lifetimes of a section, those of the `OPT` records apart. -/
def lifetimes (records : List Record) : List UInt32 :=
  (records.filter fun record => record.rrtype ≠ typeOPT).map (·.ttl)

/-- The lifetimes of a message, record by record. -/
def Msg.lifetimes (message : Msg) : List UInt32 :=
  DnsClient.lifetimes (message.answer ++ message.ns ++ message.extra)

/-- No record of the message has more left than the one of the response has after the seconds. -/
def Within (response : Msg) (elapsed : Nat) (message : Msg) : Prop :=
  Forall₂ (fun returned original : UInt32 => returned.toNat ≤ original.toNat - elapsed)
    message.lifetimes response.lifetimes

/-- The message is returned to a query from the response, so many seconds after its reception: at
once, or from what the response alone leaves in the caches. -/
inductive Serves (library : Library) (config : Config) (operation : Operation) (response : Msg)
    (received : Env) : Nat → Msg → Prop where
  | fresh (message : Msg) (returned : finishResult operation response = .response message true) :
      Serves library config operation response received 0 message
  | cached (key : CacheKey) (later : Env) (elapsed : Nat) (message : Msg) (isStale : Bool)
      (passed : received.now + second * elapsed ≤ later.now)
      (found : (({} : Caches).keep library config operation.cacheKey operation.query
        operation.question response received).loadResponse library config key later =
          some (message, isStale)) :
      Serves library config operation response received elapsed message

/-- The client expires what it keeps, and a packed message is unpacked to itself. -/
structure Expiring (library : Library) (config : Config) : Prop where
  roundTrip : ∀ message packed, library.pack message = some packed →
    library.unpack packed = some message
  expires : config.cache.disableExpire = false
  pessimistic : config.cache.optimisticTimeout ≤ 0

/-- The common lifetime is right: for a negative answer with a `SOA` record each record may be kept
for the lifetime or the minimum of the first of them, and else all records may be kept or none. -/
def Uniform (response : Msg) : Prop :=
  match if response.answer = [] then
      response.ns.find? fun record => record.rrtype = typeSOA else none with
  | some soa => ∀ original ∈ response.lifetimes, soa.ttl ≤ original ∨ soa.minttl ≤ original
  | none => ∀ one ∈ response.lifetimes, ∀ other ∈ response.lifetimes, one = 0 → other = 0

variable {response message : Msg}

/-! ### The common lifetime -/

theorem lifetimes_setTTL (records : List Record) (timeToLive : UInt32) :
    lifetimes (records.map (·.setTTL timeToLive)) = (lifetimes records).map fun _ => timeToLive := by
  induction records with
  | nil => rfl
  | cons record records ih =>
    by_cases opt : record.rrtype = typeOPT <;>
      simp_all [lifetimes, Record.setTTL]

theorem lifetimes_normalizeTTL (message : Msg) (timeToLive : UInt32) :
    (normalizeTTL message timeToLive).lifetimes = message.lifetimes.map fun _ => timeToLive := by
  rw [Msg.lifetimes, Msg.lifetimes, ← lifetimes_setTTL]
  simp only [normalizeTTL, map_append]

theorem normalizeTTL_normalizeTTL (message : Msg) (first second : UInt32) :
    normalizeTTL (normalizeTTL message first) second = normalizeTTL message second := by
  simp only [normalizeTTL, Record.map_setTTL]

theorem lifetimes_filterHints (question : Question) (strategy : Strategy) (response : Msg) :
    ({ response with answer := filterHints question strategy response.answer } : Msg).lifetimes =
      response.lifetimes := by
  have section_eq : lifetimes (filterHints question strategy response.answer) =
      lifetimes response.answer := by
    unfold filterHints
    split
    · next hint _ =>
      induction response.answer with
      | nil => rfl
      | cons record records ih =>
        by_cases https : record.rrtype = typeHTTPS <;>
          by_cases opt : record.rrtype = typeOPT <;>
            simp_all [lifetimes, Record.dropHint]
    · rfl
  simp_all [Msg.lifetimes, lifetimes]

theorem lifetimes_matchEdns0 (request response : Msg) :
    (matchEdns0 request response).lifetimes = response.lifetimes := by
  unfold matchEdns0
  split
  · rfl
  · split
    · simp [Msg.lifetimes, lifetimes]
    · split <;> simp [Msg.lifetimes, lifetimes]

/-- A message with one lifetime is within that of the response if the lifetime is. -/
theorem within_normalizeTTL (same : message.lifetimes = response.lifetimes) (elapsed : Nat)
    (timeToLive : UInt32) :
    Within response elapsed (normalizeTTL message timeToLive) ↔
      ∀ original ∈ response.lifetimes, timeToLive.toNat ≤ original.toNat - elapsed := by
  rw [Within, lifetimes_normalizeTTL, same, forall₂_map_left_iff, forall₂_same]

/-- One round of the loop of `computeTimeToLive`. -/
def lesser (timeToLive ttl : UInt32) : UInt32 :=
  if timeToLive = 0 ∨ 0 < ttl ∧ ttl < timeToLive then ttl else timeToLive

theorem leastTTL_eq (records : List Record) : leastTTL records = (lifetimes records).foldl lesser 0 := by
  simp only [leastTTL, lifetimes, foldl_map, foldl_filter]
  congr 1
  funext timeToLive record
  by_cases opt : record.rrtype = typeOPT <;> simp [opt, lesser]

/-- The loop ends with a least lifetime, zeros apart. -/
theorem foldl_lesser (ttls : List UInt32) (least : UInt32) :
    (ttls.foldl lesser least = 0 ↔ least = 0 ∧ ∀ ttl ∈ ttls, ttl = 0) ∧
      (least ≠ 0 → ttls.foldl lesser least ≤ least) ∧
      ∀ ttl ∈ ttls, ttl ≠ 0 → ttls.foldl lesser least ≤ ttl := by
  induction ttls generalizing least with
  | nil => simp
  | cons first ttls ih =>
    obtain ⟨zero, below, lower⟩ := ih (lesser least first)
    rw [foldl_cons]
    generalize ttls.foldl lesser (lesser least first) = result at zero below lower
    simp only [mem_cons, lesser] at zero below ⊢
    grind

/-- The loop passes over zeros once it has another lifetime. -/
theorem leastTTL_le_iff (records : List Record) :
    (∀ original ∈ lifetimes records, leastTTL records ≤ original) ↔
      ∀ one ∈ lifetimes records, ∀ other ∈ lifetimes records, one = 0 → other = 0 := by
  obtain ⟨zero, -, lower⟩ := foldl_lesser (lifetimes records) 0
  rw [leastTTL_eq]
  grind

theorem computeTimeToLive_le_iff (question : Question) (strategy : Strategy) (response : Msg) :
    (∀ original ∈ response.lifetimes, computeTimeToLive { response with
      answer := filterHints question strategy response.answer } ≤ original) ↔
      Uniform response := by
  have empty : filterHints question strategy response.answer = [] ↔ response.answer = [] := by
    unfold filterHints
    split <;> simp
  have loop := leastTTL_le_iff
    (filterHints question strategy response.answer ++ response.ns ++ response.extra)
  have same := lifetimes_filterHints question strategy response
  simp only [Msg.lifetimes] at same
  simp only [same] at loop
  simp only [computeTimeToLive, Uniform, extractNegativeTTL, empty, Msg.lifetimes]
  by_cases negative : response.answer = []
  · cases soa : response.ns.find? fun record => record.rrtype = typeSOA with
    | none => simp_all
    | some soa =>
      simp_all
      grind
  · simp_all

/-! ### Loading -/

/-- What is loaded is the edited response with the whole seconds that it has left. -/
theorem loadResponse_keep {library : Library} {config : Config} (expiring : Expiring library config)
    {operation : Operation} {received later : Env} {key : CacheKey} {isStale : Bool}
    (found : (({} : Caches).keep library config operation.cacheKey operation.query
      operation.question response received).loadResponse library config key later =
        some (message, isStale)) :
    let edited := applyResponseOptions operation.question response
      operation.query.options.strategy operation.query.options.rewriteTTL
    message = normalizeTTL edited.1 (UInt32.ofNat
      (max ((received.now + second * edited.2.toNat - later.now) / second) 0).toNat) := by
  have pessimistic : ¬(0 < config.cache.optimisticTimeout) := not_lt.mpr expiring.pessimistic
  simp only [Caches.loadResponse, DnsStore.loadPersistentResponse, expiring.expires, pessimistic,
    false_and, if_false, Bool.false_eq_true, Caches.keep] at found
  generalize applyResponseOptions operation.question response operation.query.options.strategy
    operation.query.options.rewriteTTL = edited at found
  cases stored : finishCacheKey operation.cacheKey received with
  | none => simp [stored] at found
  | some storeKey =>
    simp only [stored, Caches.storeCache, DnsStore.storeCache] at found
    split_ifs at found with persistent zero
    · simp at found
    · cases packed : library.codec.pack edited.1 with
      | none => simp [packed] at found
      | some bytes =>
        have unpacked : library.codec.unpack bytes = some edited.1 := expiring.roundTrip _ _ packed
        simp only [packed, map_some] at found
        obtain ⟨_, loaded, same⟩ := map_eq_some_iff.mp found
        obtain ⟨_, given, loaded⟩ := bind_eq_some_iff.mp loaded
        obtain ⟨save, chosen, own⟩ := bind_eq_some_iff.mp given
        obtain ⟨index, -, listed⟩ := bind_eq_some_iff.mp chosen
        cases mem_singleton.mp (mem_of_getElem? listed)
        split_ifs at own
        cases own
        obtain ⟨entry, unpacks, loaded⟩ := bind_eq_some_iff.mp loaded
        cases unpacked.symm.trans unpacks
        split_ifs at loaded
        cases loaded
        cases same
        rfl
    · simp at found
    · grind [Function.update_apply]

/-! ### The answers -/

/-- An entry has lost at least the seconds that have passed. -/
theorem left_le {timeToLive : UInt32} {elapsed : Nat} {received now : Int}
    (passed : received + second * elapsed ≤ now) :
    (UInt32.ofNat (max ((received + second * timeToLive.toNat - now) / second) 0).toNat).toNat ≤
      timeToLive.toNat - elapsed := by
  simp only [second] at *
  rw [UInt32.toNat_ofNat']
  omega

/-- A query for an address without a checker. -/
def plainOperation : Operation where
  query := { transport := [], message := {} }
  message := {}
  question := ⟨[], typeA, 1⟩
  disableCache := false
  cacheKey := ⟨[], typeA, 1, [], {}, 0⟩

/-- All answers to queries from a response have lifetimes within its own, in every client without
stale answers and for all queries that do not set lifetimes, just if its common lifetime is right. -/
theorem served_within (response : Msg) :
    (∀ (library : Library) (config : Config) (operation : Operation) (received : Env)
      (elapsed : Nat) (message : Msg), Expiring library config →
      operation.query.options.rewriteTTL = none →
      Serves library config operation response received elapsed message →
      Within response elapsed message) ↔ Uniform response := by
  constructor
  · intro served
    have fresh := served plainLibrary {} plainOperation {} 0 _
      ⟨plainLibrary_roundTrip, rfl, le_refl _⟩ rfl (.fresh _ rfl)
    rw [Within, lifetimes_matchEdns0] at fresh
    rw [← computeTimeToLive_le_iff plainOperation.question .asIS]
    exact (within_normalizeTTL (lifetimes_filterHints plainOperation.question .asIS response) 0
      _).mp fresh
  · intro uniform library config operation received elapsed message expiring unset served
    have least := (computeTimeToLive_le_iff operation.question operation.query.options.strategy
      response).mpr uniform
    have same := lifetimes_filterHints operation.question operation.query.options.strategy response
    cases served with
    | fresh message returned =>
      simp only [finishResult] at returned
      split_ifs at returned
      cases returned
      rw [Within, lifetimes_matchEdns0, unset]
      exact (within_normalizeTTL same 0 _).mpr least
    | cached key later elapsed message isStale passed found =>
      obtain rfl := loadResponse_keep expiring found
      rw [unset, applyResponseOptions, normalizeTTL_normalizeTTL]
      refine (within_normalizeTTL same elapsed _).mpr fun original member => ?_
      have lower := UInt32.le_iff_toNat_le.mp (least original member)
      exact (left_le passed).trans (Nat.sub_le_sub_right lower elapsed)

/-- An alias and an address that must not be kept. -/
def aliasResponse : Msg := { answer := [⟨5, 1, 300, [], [], 0⟩, ⟨typeA, 1, 0, [], [], 0⟩] }

/-- The address is returned with the lifetime of the alias. -/
theorem address_raised :
    ∃ message, Serves plainLibrary {} plainOperation aliasResponse {} 0 message ∧
      ¬Within aliasResponse 0 message := by
  refine ⟨_, .fresh _ rfl, fun within => ?_⟩
  have lifetimes : Forall₂ (fun returned original : UInt32 => returned.toNat ≤ original.toNat - 0)
      [300, 300] [300, 0] := within
  simp at lifetimes

end SingBox.DnsClient
