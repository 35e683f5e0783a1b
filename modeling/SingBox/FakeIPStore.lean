/-
This file is the FakeIP store of `dns/transport/fakeip` with its two storages, the
one in memory and the one in the cache file. A domain is given the next address of
a range; when the range is used up the allocation starts again at its beginning,
and the domain that had the address loses it.

What a storage is for is a pairing of domains with addresses. Both storages keep
such a pairing, each in its own maps, and give an address to a domain as the
pairing does; what the store guarantees is then proved once, over any storage that
keeps a pairing.
-/

import SingBox.Netip
import SingBox.Bolt
import SingBox.Pairing

namespace SingBox

namespace FakeIP

open Bolt

/-! ### Data -/

/-- A domain name, the bytes of a Go string. -/
abbrev Domain := List UInt8

/-- A value for each of the two address families. -/
structure Families (Value : Type) where
  inet4 : Value
  inet6 : Value
  deriving DecidableEq, Repr

variable {isIPv6 : Bool} {address : Addr} {domain : Domain}

namespace Families

variable {Value : Type}

def get (families : Families Value) (isIPv6 : Bool) : Value :=
  if isIPv6 then families.inet6 else families.inet4

def set (families : Families Value) (isIPv6 : Bool) (value : Value) : Families Value :=
  if isIPv6 then { families with inet6 := value } else { families with inet4 := value }

@[simp] theorem get_set_self (families : Families Value) (isIPv6 : Bool) (value : Value) :
    (families.set isIPv6 value).get isIPv6 = value := by
  cases isIPv6 <;> rfl

theorem get_set_of_ne (families : Families Value) {other : Bool} (value : Value)
    (different : other ≠ isIPv6) : (families.set isIPv6 value).get other = families.get other := by
  cases isIPv6 <;> cases other <;> first | rfl | exact absurd rfl different

end Families

/-- An `adapter.FakeIPMetadata`. -/
structure FakeIPMetadata where
  range : Families Prefix
  current : Families Addr
  deriving DecidableEq, Repr

/-- One element of the binary form, after its length. -/
def marshalElement (data : List UInt8) : List UInt8 := Addr.bytesOf 2 data.length ++ data

def FakeIPMetadata.marshalBinary (metadata : FakeIPMetadata) : List UInt8 :=
  marshalElement metadata.range.inet4.marshalBinary ++
    marshalElement metadata.range.inet6.marshalBinary ++
    marshalElement metadata.current.inet4.asSlice ++
    marshalElement metadata.current.inet6.asSlice

/-- The element at the start of the data, and what follows it. Too few bytes for the length
are a panic, too few for the element an error. -/
def readElement (data : List UInt8) : Outcome String (List UInt8 × List UInt8) :=
  if data.length < 2 then .panicked
  else
    let length := Addr.numberOf (data.take 2)
    let rest := data.drop 2
    if rest.length < length then .error "unexpected EOF"
    else .value (rest.take length, rest.drop length)

/-- `netip.Addr.UnmarshalBinary`, without zones. -/
def unmarshalAddr (data : List UInt8) : Outcome String Addr :=
  if [0, 4, 16].contains data.length then .value (Addr.fromSlice data)
  else .error "unexpected slice size"

/-- `FakeIPMetadata.UnmarshalBinary`. -/
def unmarshalBinary (data : List UInt8) : Outcome String FakeIPMetadata := do
  let (element, data) ← readElement data
  let inet4Range ← Prefix.unmarshalBinary element
  let (element, data) ← readElement data
  let inet6Range ← Prefix.unmarshalBinary element
  let (element, data) ← readElement data
  let inet4Current ← unmarshalAddr element
  let (element, _) ← readElement data
  let inet6Current ← unmarshalAddr element
  return { range := ⟨inet4Range, inet6Range⟩, current := ⟨inet4Current, inet6Current⟩ }

/-! ### Storages -/

/-- An `adapter.FakeIPStorage`. -/
structure FakeIPStorage (Storage : Type) where
  metadata : Storage → Storage × Option FakeIPMetadata
  saveMetadata : Storage → FakeIPMetadata → Storage × Except Bolt.Error Unit
  saveMetadataAsync : Storage → FakeIPMetadata → Storage
  store : Storage → Addr → Domain → Storage × Except Bolt.Error Unit
  load : Storage → Addr → Option Domain
  loadDomain : Storage → Domain → Bool → Option Addr
  reset : Storage → Storage × Except Bolt.Error Unit

structure MemoryStorage where
  addressCache : Addr → Option Domain := fun _ => none
  domainCache : Families (Domain → Option Addr) := ⟨fun _ => none, fun _ => none⟩

def MemoryStorage.fakeIPStore (storage : MemoryStorage) (address : Addr) (domain : Domain) :
    MemoryStorage :=
  let isIPv6 := !address.is4
  let domainCache := match storage.addressCache address with
    | some oldDomain => storage.domainCache.set isIPv6 fun other =>
      if other = oldDomain then none else storage.domainCache.get isIPv6 other
    | none => storage.domainCache
  { addressCache := fun other => if other = address then some domain else storage.addressCache other
    domainCache := domainCache.set isIPv6 fun other =>
      if other = domain then some address else domainCache.get isIPv6 other }

def memory : FakeIPStorage MemoryStorage where
  metadata storage := (storage, none)
  saveMetadata storage _ := (storage, .ok ())
  saveMetadataAsync storage _ := storage
  store storage address domain := (storage.fakeIPStore address domain, .ok ())
  load storage address := storage.addressCache address
  loadDomain storage domain isIPv6 := storage.domainCache.get isIPv6 domain
  reset _ := ({}, .ok ())

/-- The part of a `CacheFile` that FakeIP uses. The maps with the pending writes of
`FakeIPStoreAsync` stay empty, because the store writes synchronously. -/
structure CacheFile where
  db : Bolt.Database := fun _ => none
  saveMetadata : Option FakeIPMetadata := none
  saveDomain : Addr → Option Domain := fun _ => none
  saveAddress : Families (Domain → Option Addr) := ⟨fun _ => none, fun _ => none⟩

def bucketFakeIP : String := "fakeip_address"

def bucketFakeIPDomain (isIPv6 : Bool) : String :=
  if isIPv6 then "fakeip_domain6" else "fakeip_domain4"

/-- The bytes of `fakeip_metadata`. -/
def keyMetadata : List UInt8 :=
  [102, 97, 107, 101, 105, 112, 95, 109, 101, 116, 97, 100, 97, 116, 97]

namespace CacheFile

/-- The function of the batch of `CacheFile.FakeIPMetadata`. -/
def metadataTx : Bolt.Tx FakeIPMetadata := do
  if !(← Bolt.hasBucket bucketFakeIP) then Bolt.fail "file does not exist"
  else
    let metadataBinary := (← Bolt.get bucketFakeIP keyMetadata).getD []
    if metadataBinary.length = 0 then Bolt.fail "invalid argument"
    else
      Bolt.delete bucketFakeIP keyMetadata
      fun db => (unmarshalBinary metadataBinary).handle (fun metadata => .value (metadata, db))
        fun err => .error (.returned err)

variable [Engine]

/-- `CacheFile.FakeIPMetadata`: the metadata are taken out of the file. -/
def fakeIPMetadata (file : CacheFile) : CacheFile × Option FakeIPMetadata :=
  let outcome := Bolt.batch file.db metadataTx
  ({ file with db := outcome.1 }, outcome.2.toOption)

/-- The function of the batch of `CacheFile.FakeIPSaveMetadata`. -/
def saveMetadataTx (metadata : FakeIPMetadata) : Bolt.Tx Unit := do
  Bolt.createBucketIfNotExists bucketFakeIP
  Bolt.put bucketFakeIP keyMetadata metadata.marshalBinary

def fakeIPSaveMetadata (file : CacheFile) (metadata : FakeIPMetadata) :
    CacheFile × Except Bolt.Error Unit :=
  let outcome := Bolt.batch file.db (saveMetadataTx metadata)
  ({ file with db := outcome.1 }, outcome.2)

/-- The function of the timer of `CacheFile.FakeIPSaveMetadataAsync`. -/
def saveMetadataTimer (file : CacheFile) : CacheFile :=
  match file.saveMetadata with
  | none => file
  | some metadata => (file.fakeIPSaveMetadata metadata).1

/-- The function of the batch of `CacheFile.FakeIPStore`. -/
def storeTx (address : Addr) (domain : Domain) : Bolt.Tx Unit := do
  Bolt.createBucketIfNotExists bucketFakeIP
  let oldDomain ← Bolt.get bucketFakeIP address.asSlice
  Bolt.put bucketFakeIP address.asSlice domain
  let bucket := bucketFakeIPDomain (!address.is4)
  Bolt.createBucketIfNotExists bucket
  match oldDomain with
  | some oldDomain =>
    Bolt.delete bucket oldDomain
    Bolt.put bucket domain address.asSlice
  | none => Bolt.put bucket domain address.asSlice

def fakeIPStore (file : CacheFile) (address : Addr) (domain : Domain) :
    CacheFile × Except Bolt.Error Unit :=
  let outcome := Bolt.batch file.db (storeTx address domain)
  ({ file with db := outcome.1 }, outcome.2)

def fakeIPLoad (file : CacheFile) (address : Addr) : Option Domain :=
  match file.saveDomain address with
  | some cachedDomain => some cachedDomain
  | none =>
    let domain := (file.db.lookup bucketFakeIP address.asSlice).getD []
    if domain ≠ [] then some domain else none

def fakeIPLoadDomain (file : CacheFile) (domain : Domain) (isIPv6 : Bool) : Option Addr :=
  match file.saveAddress.get isIPv6 domain with
  | some cachedAddress => some cachedAddress
  | none =>
    let address := Addr.fromSlice ((file.db.lookup (bucketFakeIPDomain isIPv6) domain).getD [])
    if address.isValid then some address else none

/-- The function of the batch of `CacheFile.FakeIPReset`. -/
def resetTx : Bolt.Tx Unit := do
  Bolt.deleteBucket bucketFakeIP
  Bolt.deleteBucket (bucketFakeIPDomain false)
  Bolt.deleteBucket (bucketFakeIPDomain true)

def fakeIPReset (file : CacheFile) : CacheFile × Except Bolt.Error Unit :=
  let outcome := Bolt.batch file.db resetTx
  ({ file with db := outcome.1 }, outcome.2)

end CacheFile

def cacheFile [Engine] : FakeIPStorage CacheFile where
  metadata := CacheFile.fakeIPMetadata
  saveMetadata := CacheFile.fakeIPSaveMetadata
  saveMetadataAsync file metadata := { file with saveMetadata := some metadata }
  store := CacheFile.fakeIPStore
  load := CacheFile.fakeIPLoad
  loadDomain := CacheFile.fakeIPLoadDomain
  reset := CacheFile.fakeIPReset

/-! ### The store -/

/-- `broadcastAddress`: the bits behind the prefix are set, counted from the most significant
one of sixteen bytes. -/
def broadcastAddress (range : Prefix) : Addr :=
  let bits := range.bitsPlusOne - 1 + if range.addr.is4 then 96 else 0
  let raw := (List.range' bits (128 - bits)).foldl (fun raw index => raw ||| 1#128 <<< (127 - index))
    range.addr.as16
  if range.addr.is4 then .v4 (raw.extractLsb' 0 32) else .v6 raw

structure Store (Storage : Type) where
  range : Families Prefix
  last : Families Addr
  current : Families Addr := ⟨.invalid, .invalid⟩
  storage : Storage

section

variable {Storage : Type} (ops : FakeIPStorage Storage)

/-- `NewStore` and `Store.Start`, with the storage that `Start` finds. -/
def start (range : Families Prefix) (storage : Storage) : Store Storage :=
  let last (range : Prefix) : Addr := if range.isValid then broadcastAddress range else .invalid
  let first (range : Prefix) : Addr := if range.isValid then range.addr.next else .invalid
  let found := ops.metadata storage
  let store : Store Storage :=
    { range := range, last := ⟨last range.inet4, last range.inet6⟩, storage := found.1 }
  match found.2 with
  | some metadata =>
    if metadata.range = range then { store with current := metadata.current }
    else
      { store with
        current := ⟨first range.inet4, first range.inet6⟩
        storage := (ops.reset found.1).1 }
  | none =>
    { store with
      current := ⟨first range.inet4, first range.inet6⟩
      storage := (ops.reset found.1).1 }

/-- The address after the current one; the third of the range after the last but one. -/
def nextAddress (range : Prefix) (last current : Addr) : Addr :=
  if current.next = last ∨ !range.contains current.next then range.addr.next.next
  else current.next

namespace Store

def metadata (store : Store Storage) : FakeIPMetadata where
  range := store.range
  current := store.current

/-- `Store.Create`. In a sequence of calls, the check before the lock is taken and the one
after it are the same. -/
def create (store : Store Storage) (domain : Domain) (isIPv6 : Bool) :
    Store Storage × Except String Addr :=
  match ops.loadDomain store.storage domain isIPv6 with
  | some address => (store, .ok address)
  | none =>
    let current := store.current.get isIPv6
    if !current.isValid then
      (store, .error (if isIPv6 then "missing IPv6 fakeip address range"
        else "missing IPv4 fakeip address range"))
    else
      let address := nextAddress (store.range.get isIPv6) (store.last.get isIPv6) current
      let store := { store with current := store.current.set isIPv6 address }
      let storage := (ops.store store.storage address domain).1
      ({ store with storage := ops.saveMetadataAsync storage store.metadata }, .ok address)

/-- The store after a new domain has got an address. -/
def allocated (store : Store Storage) (domain : Domain) (isIPv6 : Bool) (address : Addr) :
    Store Storage :=
  let current := store.current.set isIPv6 address
  { store with
    current := current
    storage := ops.saveMetadataAsync (ops.store store.storage address domain).1
      { store with current := current }.metadata }

section

variable {ops} {store : Store Storage} {domain : Domain} {isIPv6 : Bool}

theorem create_of_known (known : ops.loadDomain store.storage domain isIPv6 = some address) :
    store.create ops domain isIPv6 = (store, .ok address) := by
  unfold create
  rw [known]

theorem create_of_missing (unknown : ops.loadDomain store.storage domain isIPv6 = none)
    (missing : (store.current.get isIPv6).isValid = false) :
    ∃ err, store.create ops domain isIPv6 = (store, .error err) := by
  unfold create
  rw [unknown]
  dsimp only
  rw [missing]
  exact ⟨_, rfl⟩

theorem create_of_unknown (unknown : ops.loadDomain store.storage domain isIPv6 = none)
    (valid : (store.current.get isIPv6).isValid = true) :
    store.create ops domain isIPv6 =
      (store.allocated ops domain isIPv6 (nextAddress (store.range.get isIPv6)
          (store.last.get isIPv6) (store.current.get isIPv6)),
        .ok (nextAddress (store.range.get isIPv6) (store.last.get isIPv6)
          (store.current.get isIPv6))) := by
  unfold create
  rw [unknown]
  dsimp only
  rw [valid]
  rfl

end

def lookup (store : Store Storage) (address : Addr) : Option Domain :=
  ops.load store.storage address

def close (store : Store Storage) : Store Storage :=
  { store with storage := (ops.saveMetadata store.storage store.metadata).1 }

end Store

end

/-! ### Storages keep a pairing -/

/-- Domains of the two families, paired with addresses. -/
abbrev Pairs := Pairing (Bool × Domain) Addr

/-- The addresses of a pairing are of the family of their domain. -/
def Typed (pairs : Pairs) : Prop :=
  ∀ isIPv6 domain address, pairs.slotOf (isIPv6, domain) = some address →
    address.isValid = true ∧ address.is6 = isIPv6

theorem not_is4_of_isValid (valid : address.isValid = true) : (!address.is4) = address.is6 := by
  cases address with
  | invalid => cases valid
  | v4 _ | v6 _ => rfl

variable {pairs : Pairs}

theorem Typed.keyOf (typed : Typed pairs) (held : pairs.keyOf address = some (isIPv6, domain)) :
    address.isValid = true ∧ address.is6 = isIPv6 :=
  typed isIPv6 domain address ((pairs.inverse _ _).mpr held)

theorem Typed.assign (typed : Typed pairs) (valid : address.isValid = true)
    (free : pairs.slotOf (address.is6, domain) = none) :
    Typed (pairs.assign (address.is6, domain) address free) := by
  intro isIPv6 other place holds
  rcases pairs.slotOf_assign_eq_some free holds with ⟨same, rfl⟩ | before
  · exact ⟨valid, (congrArg Prod.fst same).symm⟩
  · exact typed isIPv6 other place before

/-- What an assignment leaves of the map from domains: the family of the address has the new
domain and has lost the old one, the other family is untouched. -/
theorem Typed.slotOf_assign (typed : Typed pairs)
    (free : pairs.slotOf (address.is6, domain) = none) (isIPv6 : Bool) (other : Domain) :
    (pairs.assign (address.is6, domain) address free).slotOf (isIPv6, other) =
      if isIPv6 = address.is6 then
        if other = domain then some address
        else if (pairs.keyOf address).map Prod.snd = some other then none
        else pairs.slotOf (isIPv6, other)
      else pairs.slotOf (isIPv6, other) := by
  show (if (isIPv6, other) = (address.is6, domain) then some address
    else if pairs.keyOf address = some (isIPv6, other) then none
    else pairs.slotOf (isIPv6, other)) = _
  by_cases family : isIPv6 = address.is6
  · subst family
    have owner : pairs.keyOf address = some (address.is6, other) ↔
        (pairs.keyOf address).map Prod.snd = some other := by
      cases held : pairs.keyOf address with
      | none => simp
      | some key =>
        obtain ⟨isIPv6, old⟩ := key
        have same := (typed.keyOf held).2
        simp [same]
    simp only [owner, if_true, Prod.mk.injEq, true_and]
  · have other : ¬pairs.keyOf address = some (isIPv6, other) := fun held =>
      family (typed.keyOf held).2.symm
    rw [if_neg family, if_neg other, if_neg fun same => family (congrArg Prod.fst same)]

/-- The storage keeps a pairing: it answers from it, and gives an address to a domain as the
pairing does, unless it cannot store the domain. -/
structure FakeIPStorage.Keeps {Storage : Type} (ops : FakeIPStorage Storage)
    (holds : Storage → Pairs → Prop) (storable : Domain → Prop) : Prop where
  typed : ∀ {storage pairs}, holds storage pairs → Typed pairs
  stored : ∀ {storage pairs}, holds storage pairs → ∀ {key address},
    pairs.slotOf key = some address → storable key.2
  load : ∀ {storage pairs}, holds storage pairs → ∀ {address : Addr}, address.isValid = true →
    ops.load storage address = (pairs.keyOf address).map Prod.snd
  loadDomain : ∀ {storage pairs}, holds storage pairs → ∀ domain isIPv6,
    ops.loadDomain storage domain isIPv6 = pairs.slotOf (isIPv6, domain)
  store : ∀ {storage pairs}, holds storage pairs → ∀ {domain}, storable domain →
    ∀ {address : Addr}, address.isValid = true →
    ∀ free : pairs.slotOf (address.is6, domain) = none,
      holds (ops.store storage address domain).1 (pairs.assign (address.is6, domain) address free)
  refuse : ∀ {storage pairs}, holds storage pairs → ∀ {domain}, ¬storable domain →
    ∀ {address : Addr}, address.isValid = true →
      holds (ops.store storage address domain).1 pairs
  saveMetadataAsync : ∀ {storage pairs}, holds storage pairs → ∀ metadata,
    holds (ops.saveMetadataAsync storage metadata) pairs

theorem FakeIPStorage.Keeps.store_at {Storage : Type} {ops : FakeIPStorage Storage}
    {holds : Storage → Pairs → Prop} {storable : Domain → Prop} (keeps : ops.Keeps holds storable)
    {storage : Storage} (kept : holds storage pairs) (stored : storable domain)
    (valid : address.isValid = true) (family : address.is6 = isIPv6)
    (free : pairs.slotOf (isIPv6, domain) = none) :
    holds (ops.store storage address domain).1 (pairs.assign (isIPv6, domain) address free) := by
  subst family
  exact keeps.store kept stored valid free

/-- The maps of a `MemoryStorage` are the pairing. -/
structure MemoryStorage.Holds (storage : MemoryStorage) (pairs : Pairs) : Prop where
  typed : Typed pairs
  addressCache : ∀ address, storage.addressCache address = (pairs.keyOf address).map Prod.snd
  domainCache : ∀ isIPv6 domain,
    storage.domainCache.get isIPv6 domain = pairs.slotOf (isIPv6, domain)

theorem MemoryStorage.holds_store {storage : MemoryStorage} (holds : storage.Holds pairs)
    (valid : address.isValid = true) (free : pairs.slotOf (address.is6, domain) = none) :
    (storage.fakeIPStore address domain).Holds
      (pairs.assign (address.is6, domain) address free) where
  typed := holds.typed.assign valid free
  addressCache other := by
    show (if other = address then some domain else storage.addressCache other) =
      Option.map Prod.snd (if other = address then some _ else pairs.keyOf other)
    rw [holds.addressCache]
    split <;> rfl
  domainCache isIPv6 other := by
    rw [holds.typed.slotOf_assign free, ← holds.addressCache, ← holds.domainCache isIPv6]
    unfold fakeIPStore
    rw [not_is4_of_isValid valid]
    by_cases family : isIPv6 = address.is6
    · subst family
      cases storage.addressCache address with
      | none => simp
      | some oldDomain =>
        simp [eq_comm]
    · rw [if_neg family, Families.get_set_of_ne _ _ family]
      split
      · rw [Families.get_set_of_ne _ _ family]
      · rfl

theorem MemoryStorage.holds_empty : MemoryStorage.Holds {} Pairing.empty :=
  ⟨nofun, fun _ => rfl, fun isIPv6 _ => by cases isIPv6 <;> rfl⟩

theorem memory_keeps : memory.Keeps MemoryStorage.Holds fun _ => True where
  typed holds := holds.typed
  stored _ _ _ _ := trivial
  load holds _ _ := holds.addressCache _
  loadDomain holds domain isIPv6 := holds.domainCache isIPv6 domain
  store holds _ _ _ valid free := MemoryStorage.holds_store holds valid free
  refuse _ _ refused := absurd trivial refused
  saveMetadataAsync holds _ := holds

/-- The buckets of a `CacheFile` are the pairing. -/
structure CacheFile.Holds (file : CacheFile) (pairs : Pairs) : Prop where
  typed : Typed pairs
  stored : ∀ {key address}, pairs.slotOf key = some address → Bolt.Storable key.2
  address : ∀ {address : Addr}, address.isValid = true →
    file.db.lookup bucketFakeIP address.asSlice = (pairs.keyOf address).map Prod.snd
  domain : ∀ isIPv6 domain, file.db.lookup (bucketFakeIPDomain isIPv6) domain =
    (pairs.slotOf (isIPv6, domain)).map Addr.asSlice
  saveDomain : ∀ address, file.saveDomain address = none
  saveAddress : ∀ isIPv6 domain, file.saveAddress.get isIPv6 domain = none

namespace CacheFile

theorem bucketFakeIP_ne (isIPv6 : Bool) : bucketFakeIPDomain isIPv6 ≠ bucketFakeIP := by
  cases isIPv6 <;> decide

theorem bucketFakeIPDomain_injective {first second : Bool}
    (same : bucketFakeIPDomain first = bucketFakeIPDomain second) : first = second := by
  cases first <;> cases second <;> first | rfl | exact absurd same (by decide)

theorem storable_asSlice (valid : address.isValid = true) :
    Bolt.Storable address.asSlice ∧ address.asSlice.length ≤ maxValueSize := by
  have size := address.length_asSlice
  have bounds : address.bitLen / 8 ≠ 0 ∧ address.bitLen / 8 ≤ 16 := by
    cases address with
    | invalid => cases valid
    | v4 _ | v6 _ => simp [Addr.bitLen]
  rw [← size] at bounds
  refine ⟨⟨fun empty => bounds.1 (by rw [empty]; rfl), ?_⟩, ?_⟩
  · exact bounds.2.trans (by decide)
  · exact bounds.2.trans (by decide)

/-- What is left of a database after `storeTx`. -/
structure StoredIn (address : Addr) (domain : Domain) (before after : Bolt.Database) : Prop where
  ofAddress : ∀ key, after.lookup bucketFakeIP key =
    if key = address.asSlice then some domain else before.lookup bucketFakeIP key
  ofDomain : ∀ key, after.lookup (bucketFakeIPDomain (!address.is4)) key =
    if key = domain then some address.asSlice
    else if before.lookup bucketFakeIP address.asSlice = some key then none
    else before.lookup (bucketFakeIPDomain (!address.is4)) key
  other : ∀ name, name ≠ bucketFakeIP → name ≠ bucketFakeIPDomain (!address.is4) →
    after name = before name

variable {file : CacheFile}

section

variable [Engine] [Documented]

/-- The last write of `storeTx`, in a bucket from which the old domain is gone. -/
theorem storedIn_put (valid : address.isValid = true) (storable : Bolt.Storable domain)
    {before written : Bolt.Database} {bucket : Bolt.Bucket}
    (ofAddress : ∀ key, written.lookup bucketFakeIP key =
      if key = address.asSlice then some domain else before.lookup bucketFakeIP key)
    (present : written (bucketFakeIPDomain (!address.is4)) = some bucket)
    (ofDomain : ∀ key, bucket key =
      if before.lookup bucketFakeIP address.asSlice = some key then none
      else before.lookup (bucketFakeIPDomain (!address.is4)) key)
    (other : ∀ name, name ≠ bucketFakeIP → name ≠ bucketFakeIPDomain (!address.is4) →
      written name = before name) :
    ∃ after, put (bucketFakeIPDomain (!address.is4)) domain address.asSlice written =
        .value ((), after) ∧ StoredIn address domain before after := by
  refine ⟨_, put_of_storable present storable (storable_asSlice valid).2, ?_, ?_, ?_⟩
  · intro key
    rw [lookup_set_of_ne _ _ (bucketFakeIP_ne _).symm, ofAddress]
  · intro key
    rw [lookup_set_self, ofDomain]
  · intro name first second
    rw [set_of_ne _ _ second, other name first second]

theorem storeTx_value (valid : address.isValid = true) (storable : Bolt.Storable domain)
    (db : Bolt.Database) : ∃ after, storeTx address domain db = .value ((), after) ∧
      StoredIn address domain db after := by
  have different := bucketFakeIP_ne (!address.is4)
  have small : domain.length ≤ maxValueSize := storable.2.trans (by decide)
  unfold storeTx
  simp only [Bolt.bind_apply, Bolt.createBucketIfNotExists, Bolt.get, Outcome.bind_value,
    Bolt.set_self]
  rw [Bolt.put_of_storable (Bolt.set_self _ _ _) (storable_asSlice valid).1 small]
  simp only [Outcome.bind_value, Bolt.set_of_ne _ _ different, Bolt.getD_apply]
  cases held : db.lookup bucketFakeIP address.asSlice with
  | none =>
    refine storedIn_put valid storable (fun key => ?_) (set_self _ _ _) (fun key => ?_)
      fun name first second => ?_
    · rw [lookup_set_of_ne _ _ different.symm, lookup_set_self]
    · rw [held, if_neg (by simp), getD_apply]
    · rw [set_of_ne _ _ second, set_of_ne _ _ first, set_of_ne _ _ first]
  | some oldDomain =>
    dsimp only [bind_apply, delete]
    rw [set_self]
    refine storedIn_put valid storable (fun key => ?_) (set_self _ _ _) (fun key => ?_)
      fun name first second => ?_
    · rw [lookup_set_of_ne _ _ different.symm, lookup_set_of_ne _ _ different.symm, lookup_set_self]
    · rw [held, getD_apply]
      simp only [Option.some.injEq, eq_comm]
    · dsimp only
      rw [set_of_ne _ _ second, set_of_ne _ _ second, set_of_ne _ _ first, set_of_ne _ _ first]

/-- A domain that is not a key of the file fails the transaction. -/
theorem storeTx_refused (refused : ¬Bolt.Storable domain) (address : Addr) (db : Bolt.Database) :
    ∃ err, storeTx address domain db = .error err := by
  have different := bucketFakeIP_ne (!address.is4)
  unfold storeTx
  simp only [Bolt.bind_apply, Bolt.createBucketIfNotExists, Bolt.get, Outcome.bind_value,
    Bolt.set_self]
  rcases Bolt.put_cases address.asSlice domain (Bolt.set_self _ _ _) with ⟨err, failed⟩ | written
  · rw [failed]
    exact ⟨err, rfl⟩
  · rw [written]
    simp only [Outcome.bind_value, Bolt.set_of_ne _ _ different, Bolt.getD_apply]
    cases db.lookup bucketFakeIP address.asSlice with
    | none => exact put_of_not_storable (set_self _ _ _) refused
    | some oldDomain =>
      dsimp only [bind_apply, delete]
      rw [set_self]
      exact put_of_not_storable (set_self _ _ _) refused

/-- After a store, both families of the file are the pairing with the address assigned. -/
theorem holds_store (holds : file.Holds pairs) (valid : address.isValid = true)
    (storable : Bolt.Storable domain) (free : pairs.slotOf (address.is6, domain) = none) :
    (file.fakeIPStore address domain).1.Holds
      (pairs.assign (address.is6, domain) address free) := by
  obtain ⟨after, stored, writes⟩ := storeTx_value valid storable file.db
  have left : (file.fakeIPStore address domain).1 = { file with db := after } := by
    rw [fakeIPStore, batch_of_value stored]
  rw [left]
  refine ⟨holds.typed.assign valid free, ?_, ?_, ?_, holds.saveDomain, holds.saveAddress⟩
  · intro key place paired
    rcases pairs.slotOf_assign_eq_some free paired with ⟨rfl, -⟩ | before
    · exact storable
    · exact holds.stored before
  · intro other validOther
    rw [writes.ofAddress, holds.address validOther]
    show _ = Option.map Prod.snd (if other = address then some _ else pairs.keyOf other)
    by_cases same : other = address
    · rw [if_pos same, if_pos (congrArg _ same)]
      rfl
    · rw [if_neg same, if_neg fun slices => same (Addr.asSlice_injective slices)]
  · intro isIPv6 other
    rw [holds.typed.slotOf_assign free, ← holds.address valid]
    by_cases family : isIPv6 = address.is6
    · subst family
      rw [← not_is4_of_isValid valid, writes.ofDomain, holds.domain, if_pos rfl]
      split_ifs <;> rfl
    · have otherBucket : bucketFakeIPDomain isIPv6 ≠ bucketFakeIPDomain (!address.is4) := by
        rw [not_is4_of_isValid valid]
        exact fun same => family (bucketFakeIPDomain_injective same)
      rw [if_neg family, ← holds.domain, Bolt.Database.lookup, Bolt.Database.lookup,
        ← writes.other _ (bucketFakeIP_ne isIPv6) otherBucket]

theorem holds_refused (holds : file.Holds pairs) (refused : ¬Bolt.Storable domain)
    (address : Addr) : (file.fakeIPStore address domain).1.Holds pairs := by
  obtain ⟨err, failed⟩ := storeTx_refused refused address file.db
  have left : (file.fakeIPStore address domain).1 = file := by
    rw [fakeIPStore, batch_of_error failed]
  rw [left]
  exact holds

end

theorem fakeIPLoad_eq (holds : file.Holds pairs) (valid : address.isValid = true) :
    file.fakeIPLoad address = (pairs.keyOf address).map Prod.snd := by
  rw [fakeIPLoad, holds.saveDomain, holds.address valid]
  cases held : pairs.keyOf address with
  | none => rfl
  | some key => exact if_pos (holds.stored ((pairs.inverse _ _).mpr held)).1

theorem fakeIPLoadDomain_eq (holds : file.Holds pairs) (domain : Domain) (isIPv6 : Bool) :
    file.fakeIPLoadDomain domain isIPv6 = pairs.slotOf (isIPv6, domain) := by
  rw [fakeIPLoadDomain, holds.saveAddress, holds.domain]
  cases paired : pairs.slotOf (isIPv6, domain) with
  | none => rfl
  | some address =>
    show (if (Addr.fromSlice address.asSlice).isValid then some (Addr.fromSlice address.asSlice)
      else none) = some address
    rw [Addr.fromSlice_asSlice]
    exact if_pos (holds.typed _ _ _ paired).1

end CacheFile

theorem CacheFile.holds_empty : CacheFile.Holds {} Pairing.empty :=
  ⟨nofun, nofun, fun _ => rfl, fun _ _ => rfl, fun _ => rfl, fun isIPv6 _ => by
    cases isIPv6 <;> rfl⟩

theorem cacheFile_keeps [Engine] [Documented] : cacheFile.Keeps CacheFile.Holds Bolt.Storable where
  typed holds := holds.typed
  stored holds _ _ := holds.stored
  load holds _ := CacheFile.fakeIPLoad_eq holds
  loadDomain holds := CacheFile.fakeIPLoadDomain_eq holds
  store holds _ storable _ valid free := CacheFile.holds_store holds valid storable free
  refuse holds _ refused address _ := CacheFile.holds_refused holds refused address
  saveMetadataAsync holds _ := { holds with }

end FakeIP

end SingBox
