/-
This file is about the keys of the DNS cache. In memory a response is kept under the
whole key: the question, the tag of the transport, the client subnet and the hash of the
environment. The cache file keeps it under the name of the question, its type, and one
name for the rest: the tag, the subnet after a zero byte, and the hash after a one byte.
That name can be taken apart again where the tag has no such byte, so two keys share a
response of the cache file exactly if they agree in all that is written: the class of
the question is not, and neither is a subnet that is not valid.
-/

import SingBox.DnsWriteBehind
import SingBox.NetipText

namespace SingBox

open List Option

namespace DnsStore

/-- A `dnsCacheKey`, with the fields of its question. -/
structure CacheKey where
  name : Bytes
  qtype : UInt16
  qclass : UInt16
  transportTag : Bytes
  clientSubnet : Prefix := {}
  environment : UInt64 := 0
  deriving DecidableEq, Repr

/-- The part of the persistent name for the client subnet. -/
def CacheKey.subnetPart (key : CacheKey) : Bytes :=
  if key.clientSubnet.isValid then 0 :: key.clientSubnet.string else []

/-- The part of the persistent name for the environment. -/
def CacheKey.environmentPart (key : CacheKey) : Bytes :=
  if key.environment ≠ 0 then 1 :: Text.formatUint 36 key.environment.toNat else []

def CacheKey.persistentName (key : CacheKey) : Bytes :=
  key.transportTag ++ (key.subnetPart ++ key.environmentPart)

/-- What the calls of the client pass to the cache file. -/
def CacheKey.saveKey (key : CacheKey) : SaveCacheKey := ⟨key.persistentName, key.name, key.qtype⟩

/-! ### The client -/

/-- The parts of the DNS library that the client uses. -/
structure Codec (Message : Type) where
  pack : Message → Option Bytes
  unpack : Bytes → Option Message
  normalizeTTL : Message → UInt32 → Message

structure Options where
  disableExpire : Bool := false
  optimisticTimeout : Int := 0

variable {Message : Type}

/-- `storeCache` with a cache file: the save it makes, if any. -/
def storeCache (codec : Codec Message) (key : CacheKey) (message : Message) (timeToLive : UInt32)
    (now : Int) : Option Event :=
  if timeToLive = 0 then none
  else (codec.pack message).map fun packed =>
    .save key.saveKey ⟨packed, now + second * timeToLive.toNat⟩

/-- `loadPersistentResponse`, with what `LoadDNSCache` has returned: the message, the rest of its
lifetime in seconds, and whether it is stale. -/
def loadPersistentResponse (codec : Codec Message) (options : Options) (loaded : Option Response)
    (now : Int) : Option (Message × Int × Bool) := do
  let response ← loaded
  let message ← codec.unpack response.rawMessage
  if options.disableExpire then return (message, 0, false)
  else if response.expireAt < now then
    if 0 < options.optimisticTimeout ∧ now < response.expireAt + options.optimisticTimeout then
      return (codec.normalizeTTL message 1, 0, true)
    else none
  else
    let nowTTL := max ((response.expireAt - now) / second) 0
    return (codec.normalizeTTL message (UInt32.ofNat nowTTL.toNat), nowTTL, false)

/-- A response that is stored under the first key may be returned for the second one: there is a run
of the cache file in which nothing is stored but under the first key, and a load for the second key
that makes the client return a message. -/
def Returns [Bolt.Engine] (codec : Codec Message) (options : Options)
    (stored asked : CacheKey) : Prop :=
  ∃ events : List Event,
    (∀ key response, Event.save key response ∈ events → ∃ message timeToLive now,
      storeCache codec stored message timeToLive now = some (.save key response)) ∧
    ∃ answer ∈ (run events).answers, answer.key = asked.saveKey ∧
      ∃ now, (loadPersistentResponse codec options answer.result now).isSome = true

/-! ### The persistent name -/

/-- The keys agree in all that the cache file is told of them. -/
structure Agree (one two : CacheKey) : Prop where
  name : one.name = two.name
  qtype : one.qtype = two.qtype
  transportTag : one.transportTag = two.transportTag
  environment : one.environment = two.environment
  clientSubnet : one.clientSubnet = two.clientSubnet ∨
    (one.clientSubnet.isValid = false ∧ two.clientSubnet.isValid = false)

/-- A tag without the two bytes that separate the parts of a persistent name. -/
def Plain (tag : Bytes) : Prop := ∀ byte ∈ tag, byte ≠ 0 ∧ byte ≠ 1

theorem subnetPart_cases (key : CacheKey) :
    (key.clientSubnet.isValid = false ∧ key.subnetPart = []) ∨
      (key.clientSubnet.isValid = true ∧ key.subnetPart = 0 :: key.clientSubnet.string) := by
  rw [CacheKey.subnetPart]
  cases valid : key.clientSubnet.isValid with
  | false => exact .inl ⟨rfl, rfl⟩
  | true => exact .inr ⟨rfl, rfl⟩

theorem environmentPart_cases (key : CacheKey) :
    (key.environment = 0 ∧ key.environmentPart = []) ∨
      (key.environment ≠ 0 ∧
        key.environmentPart = 1 :: Text.formatUint 36 key.environment.toNat) := by
  by_cases zero : key.environment = 0
  · exact .inl ⟨zero, if_neg (not_not.mpr zero)⟩
  · exact .inr ⟨zero, if_pos zero⟩

theorem one_not_mem_subnetPart (key : CacheKey) : (1 : UInt8) ∉ key.subnetPart := by
  rcases subnetPart_cases key with ⟨-, empty⟩ | ⟨valid, part⟩
  · rw [empty]
    exact not_mem_nil
  · rw [part]
    intro member
    rcases mem_cons.mp member with zero | inside
    · exact absurd zero (by decide)
    · exact absurd (Prefix.mem_string valid inside) (by decide)

/-- The tag ends where the first of the two separators is. -/
theorem takeWhile_persistentName {key : CacheKey} (plain : Plain key.transportTag) :
    key.persistentName.takeWhile (fun byte => byte ≠ 0 ∧ byte ≠ 1) = key.transportTag := by
  have front : ∀ byte ∈ key.transportTag, decide (byte ≠ 0 ∧ byte ≠ 1) = true :=
    fun byte member => decide_eq_true (plain byte member)
  have rest : (key.subnetPart ++ key.environmentPart).takeWhile
      (fun byte => byte ≠ 0 ∧ byte ≠ 1) = [] := by
    rcases subnetPart_cases key with ⟨-, subnet⟩ | ⟨-, subnet⟩
    · rcases environmentPart_cases key with ⟨-, environment⟩ | ⟨-, environment⟩
      · rw [subnet, environment]
        rfl
      · rw [subnet, environment]
        rfl
    · rw [subnet]
      rfl
  rw [CacheKey.persistentName, takeWhile_append_of_pos front, rest, append_nil]

theorem takeWhile_subnetPart (key : CacheKey) :
    (key.subnetPart ++ key.environmentPart).takeWhile (· ≠ 1) = key.subnetPart := by
  rcases environmentPart_cases key with ⟨-, environment⟩ | ⟨-, environment⟩
  · rw [environment, append_nil, takeWhile_eq_self_iff]
    exact fun byte member => decide_eq_true fun same => one_not_mem_subnetPart key (same ▸ member)
  · rw [environment]
    exact Text.takeWhile_append (one_not_mem_subnetPart key) _

variable {one two : CacheKey} {key : SaveCacheKey}

theorem clientSubnet_of_subnetPart (same : one.subnetPart = two.subnetPart) :
    one.clientSubnet = two.clientSubnet ∨
      (one.clientSubnet.isValid = false ∧ two.clientSubnet.isValid = false) := by
  rcases subnetPart_cases one with ⟨invalid, first⟩ | ⟨valid, first⟩ <;>
    rcases subnetPart_cases two with ⟨invalidToo, other⟩ | ⟨validToo, other⟩ <;>
    rw [first, other] at same
  · exact .inr ⟨invalid, invalidToo⟩
  · cases same
  · cases same
  · exact .inl (Prefix.string_inj valid validToo (List.cons.inj same).2)

theorem environment_of_environmentPart (same : one.environmentPart = two.environmentPart) :
    one.environment = two.environment := by
  rcases environmentPart_cases one with ⟨zero, first⟩ | ⟨nonzero, first⟩ <;>
    rcases environmentPart_cases two with ⟨zeroToo, other⟩ | ⟨nonzeroToo, other⟩ <;>
    rw [first, other] at same
  · exact zero.trans zeroToo.symm
  · cases same
  · cases same
  · exact UInt64.toNat_inj.mp (Text.formatUint_inj (by decide) (by decide) (List.cons.inj same).2)

/-- Keys are saved under one name exactly if they agree. -/
theorem saveKey_eq_iff (plain : Plain one.transportTag) (plainToo : Plain two.transportTag) :
    one.saveKey = two.saveKey ↔ Agree one two := by
  constructor
  · intro same
    have names : one.persistentName = two.persistentName :=
      congrArg SaveCacheKey.transportName same
    have tag : one.transportTag = two.transportTag := by
      rw [← takeWhile_persistentName plain, names, takeWhile_persistentName plainToo]
    rw [CacheKey.persistentName, CacheKey.persistentName, tag, append_cancel_left_eq] at names
    have subnet : one.subnetPart = two.subnetPart := by
      rw [← takeWhile_subnetPart one, names, takeWhile_subnetPart two]
    rw [subnet, append_cancel_left_eq] at names
    exact ⟨congrArg SaveCacheKey.questionName same, congrArg SaveCacheKey.qType same, tag,
      environment_of_environmentPart names, clientSubnet_of_subnetPart subnet⟩
  · intro agree
    have subnet : one.subnetPart = two.subnetPart := by
      rcases agree.clientSubnet with same | ⟨invalid, invalidToo⟩
      · rw [CacheKey.subnetPart, CacheKey.subnetPart, same]
      · rw [CacheKey.subnetPart, CacheKey.subnetPart, invalid, invalidToo]
        rfl
    have environment : one.environmentPart = two.environmentPart := by
      rw [CacheKey.environmentPart, CacheKey.environmentPart, agree.environment]
    rw [CacheKey.saveKey, CacheKey.saveKey, CacheKey.persistentName, CacheKey.persistentName,
      agree.name, agree.qtype, agree.transportTag, subnet, environment]

/-! ### What a load finds was saved -/

def Store.Saved (store : Store) (key : SaveCacheKey) : Prop :=
  ∃ response, (key, response) ∈ store.saves

/-- Everything that is pending, in the database, or returned was saved for its key. -/
structure Known (store : Store) : Prop where
  pending : ∀ key entry, store.pending key = some entry → store.Saved key
  flushers : ∀ flusher ∈ store.flushers, store.Saved flusher.key
  view : ∀ key response, viewDNSCache store.db key = some response → store.Saved key
  answers : ∀ answer ∈ store.answers, ∀ response, answer.result = some response →
    store.Saved answer.key

variable {store : Store}

theorem Known.save (known : Known store) (key : SaveCacheKey) (response : Response) :
    Known (store.save key response) := by
  have grown : ∀ {other}, store.Saved other → (store.save key response).Saved other :=
    fun ⟨saved, member⟩ => ⟨saved, mem_append_left _ member⟩
  have new : (store.save key response).Saved key :=
    ⟨response, mem_concat_self⟩
  refine ⟨fun other entry present => ?_, fun flusher member => ?_,
    fun other found view => grown (known.view other found view),
    fun answer member found result => grown (known.answers answer member found result)⟩
  · by_cases same : other = key
    · rw [same]
      exact new
    · exact grown (known.pending other entry ((put_of_ne _ _ same).symm.trans present))
  · have listed : flusher ∈ (if (!((store.pending key).getD {}).saving) = true then
        store.flushers ++ [Flusher.mk key .read] else store.flushers) := member
    split_ifs at listed
    · rcases Log.mem_snoc listed with old | rfl
      · exact grown (known.flushers flusher old)
      · exact new
    · exact grown (known.flushers flusher listed)

theorem Known.setPhase (known : Known store) (index : Nat) (saved : store.Saved key)
    (phase : Phase) : Known (store.setPhase index key phase) := by
  refine { known with flushers := fun flusher member => ?_ }
  rcases mem_or_eq_of_mem_set member with old | rfl
  · exact known.flushers flusher old
  · exact saved

theorem Known.flush [Bolt.Engine] (known : Known store) (index : Nat) (fault : Bool) :
    Known (store.flush index fault) := by
  have saved {key : SaveCacheKey} {phase : Phase}
      (listed : store.flushers[index]? = some ⟨key, phase⟩) :=
    known.flushers _ (mem_of_getElem? listed)
  fun_cases store.flush index fault with
  | case2 key listed | case3 key listed | case4 key _ listed | case6 key _ listed
  | case7 key _ listed => exact known.setPhase index (saved listed) _
  | case5 key held listed after written =>
    have done : saveDNSCache store.db key held.response = .ok after := by
      cases fault with
      | true => cases written
      | false => exact written
    have wrote : Known { store with
        db := after, stored := put store.stored key (some held.place) } := by
      refine { known with view := fun other response view => ?_ }
      rw [view_saveDNSCache done] at view
      split_ifs at view with same
      · rw [same]
        exact saved listed
      · exact known.view other response view
    exact wrote.setPhase index (saved listed) _
  | case8 key _ listed =>
    have removed : Known { store with pending := put store.pending key none } := by
      refine { known with pending := fun other current found => ?_ }
      by_cases same : other = key
      · rw [same]
        exact saved listed
      · exact known.pending other current ((put_of_ne _ _ same).symm.trans found)
    exact removed.setPhase index (saved listed) _
  | _ => exact known

theorem Known.step [Bolt.Engine] (known : Known store) (event : Event) :
    Known (store.step event) := by
  cases event with
  | save key response => exact known.save key response
  | flush index fault => exact known.flush index fault
  | clearStart => exact { known with pending := nofun }
  | clearEnd index =>
    show Known (store.clearEnd index)
    unfold Store.clearEnd
    split
    · exact known
    · exact { known with view := nofun }
  | loadStart key =>
    show Known (store.loadStart key)
    unfold Store.loadStart
    split
    next entry present =>
      refine { known with answers := fun answer member response result => ?_ }
      rcases Log.mem_snoc member with old | rfl
      · exact known.answers answer old response result
      · exact known.pending key entry present
    · exact { known with }
  | loadEnd index =>
    show Known (store.loadEnd index)
    unfold Store.loadEnd
    split
    · exact known
    next load listed =>
      refine { known with answers := fun answer member response result => ?_ }
      rcases mem_append.mp member with old | new
      · exact known.answers answer old response result
      · rw [mem_singleton.mp new] at result ⊢
        exact known.view load.key response result

theorem known_run [Bolt.Engine] (events : List Event) : Known (run events) := by
  refine Machine.invariant_events Known ?_ (fun _ event known => known.step event) events
  exact ⟨fun _ _ present => (nomatch present), fun _ member => (nomatch member),
    fun _ _ view => (nomatch view), fun _ member => (nomatch member)⟩

theorem saves_flush [Bolt.Engine] (store : Store) (index : Nat) (fault : Bool) :
    (store.flush index fault).saves = store.saves := by
  unfold Store.flush
  repeat' split
  all_goals rfl

/-- The saves of a run are its events. -/
theorem mem_of_mem_saves [Bolt.Engine] (events : List Event) {save : SaveCacheKey × Response}
    (member : save ∈ (run events).saves) : Event.save save.1 save.2 ∈ events := by
  induction events using List.reverseRecOn with
  | nil => cases member
  | append_singleton events event ih =>
    rw [run, Machine.drive_append] at member
    have kept : save ∈ (run events).saves → Event.save save.1 save.2 ∈ events ++ [event] :=
      fun old => mem_append_left _ (ih old)
    cases event with
    | save key response =>
      rcases Log.mem_snoc member with old | rfl
      · exact kept old
      · exact mem_concat_self
    | flush index fault =>
      refine kept ?_
      rw [← saves_flush (run events) index fault]
      exact member
    | clearStart => exact kept member
    | clearEnd | loadStart | loadEnd =>
      dsimp only [Machine.drive, foldl, Store.step, Store.clearEnd, Store.loadStart,
        Store.loadEnd] at member
      split at member <;> exact kept member

/-! ### The keys that share a response -/

section Keys

variable {codec : Codec Message} {options : Options} {stored asked : CacheKey}

variable {message : Message}

theorem saveKey_of_storeCache {timeToLive : UInt32} {now : Int} {response : Response}
    (saves : storeCache codec stored message timeToLive now = some (.save key response)) :
    key = stored.saveKey := by
  rw [storeCache] at saves
  split_ifs at saves
  obtain ⟨packed, -, same⟩ := map_eq_some_iff.mp saves
  cases same
  rfl

theorem saveKey_of_returns [Bolt.Engine] (returns : Returns codec options stored asked) :
    stored.saveKey = asked.saveKey := by
  obtain ⟨events, only, answer, member, key, now, found⟩ := returns
  cases result : answer.result with
  | none =>
    rw [result] at found
    cases found
  | some response =>
    obtain ⟨saved, listed⟩ := (known_run events).answers answer member response result
    obtain ⟨message, timeToLive, time, saves⟩ := only _ _ (mem_of_mem_saves events listed)
    exact (saveKey_of_storeCache saves).symm.trans key

/-- A response that has just been stored is found among the pending saves. -/
theorem returns_of_saveKey [Bolt.Engine] {decoded : Message} {packed : Bytes}
    (packs : codec.pack message = some packed) (unpacks : codec.unpack packed = some decoded)
    (same : stored.saveKey = asked.saveKey) : Returns codec options stored asked := by
  refine ⟨[.save stored.saveKey ⟨packed, second * (1 : UInt32).toNat⟩, .loadStart asked.saveKey],
    fun key response member => ?_, ⟨asked.saveKey, 1, 0, 0, some ⟨packed, second⟩⟩, ?_, rfl, 0, ?_⟩
  · refine ⟨message, 1, 0, ?_⟩
    rcases mem_cons.mp member with isSave | isLoad
    · cases isSave
      rw [storeCache, if_neg (by decide), packs]
      rfl
    · cases mem_singleton.mp isLoad
  · have pending : ∀ response, (run [.save stored.saveKey response]).pending asked.saveKey =
        some ⟨response.rawMessage, response.expireAt, 1, true, 0⟩ := fun response => by
      rw [← same]
      exact put_self _ _ _
    show _ ∈ ((run [.save stored.saveKey _]).loadStart asked.saveKey).answers
    unfold Store.loadStart
    rw [pending]
    exact mem_cons_self
  · have live : ¬ second < 0 := by decide
    rw [loadPersistentResponse]
    simp only [bind_eq_bind, bind_some, unpacks, if_neg live]
    split_ifs <;> rfl

/-- Of the keys with plain tags, those share a response of the cache file that agree in all that is
written. So a response is returned only for its own key exactly if agreement makes the keys equal:
if it comes with the same class, and with the same subnet where neither is valid. -/
theorem persistent_distinguishes [Bolt.Engine] {message decoded : Message} {packed : Bytes}
    (packs : codec.pack message = some packed) (unpacks : codec.unpack packed = some decoded)
    (plain : Plain stored.transportTag) (plainToo : Plain asked.transportTag) :
    (Returns codec options stored asked → stored = asked) ↔
      (Agree stored asked →
        stored.qclass = asked.qclass ∧ stored.clientSubnet = asked.clientSubnet) := by
  constructor
  · intro only agree
    have same := only (returns_of_saveKey packs unpacks
      ((saveKey_eq_iff plain plainToo).mpr agree))
    exact ⟨congrArg CacheKey.qclass same, congrArg CacheKey.clientSubnet same⟩
  · intro enough returns
    have agree := (saveKey_eq_iff plain plainToo).mp (saveKey_of_returns returns)
    obtain ⟨qclass, clientSubnet⟩ := enough agree
    obtain ⟨name, qtype, class_, tag, subnet, environment⟩ := stored
    obtain ⟨name', qtype', class', tag', subnet', environment'⟩ := asked
    cases agree.name
    cases agree.qtype
    cases agree.transportTag
    cases agree.environment
    cases qclass
    cases clientSubnet
    rfl

end Keys

/-- Messages that are their own packed form. -/
def plainCodec : Codec Bytes where
  pack message := some message
  unpack packed := some packed
  normalizeTTL message _ := message

/-- A question for `a.` of the type TXT, in the given class. -/
def questionOf (qclass : UInt16) : CacheKey := ⟨[97, 46], 16, qclass, [100], {}, 0⟩

section

attribute [local instance] Bolt.bbolt

theorem persistent_distinguishes_otherType :
    ¬ Returns plainCodec {} (questionOf 1) { questionOf 1 with qtype := 1 } := by
  intro returns
  have same := (@persistent_distinguishes _ plainCodec {} (questionOf 1)
    { questionOf 1 with qtype := 1 } _ [1] [1] [1] rfl rfl (by unfold Plain; decide +kernel)
    (by unfold Plain; decide +kernel)).mpr (fun agree => absurd agree.qtype (by decide)) returns
  exact absurd same (by decide)

/-- A response to a question of the class IN is returned for the question of the class CH. -/
theorem otherClass_returned :
    Returns plainCodec {} (questionOf 1) (questionOf 3) ∧ questionOf 1 ≠ questionOf 3 :=
  ⟨@returns_of_saveKey _ plainCodec {} _ _ [1] _ [1] [1] rfl rfl rfl, by decide⟩

end

end DnsStore

end SingBox
