/-
This file is about the FakeIP store over several runs of the program on one cache
file. A run starts the store with its own ranges, creates domains, and ends with
or without `Close`. The file always holds a pairing and, at most, metadata of a
run; when a run has other ranges than the metadata say, or finds none, it resets
the file, by one transaction that deletes three buckets.

A bucket that no earlier run has created cannot be deleted, and then the reset
does nothing and the old mappings stay. The new run serves no stale mapping
exactly when the reset works or no mapping is stale.
-/

import SingBox.FakeIPCreate

namespace SingBox

open Option

namespace FakeIP

open Bolt

/-! ### Runs of the program -/

section

variable [Engine]

/-- What happens in a run: a domain is created, or the timer of the metadata fires. -/
inductive RunEvent where
  | create (domain : Domain) (isIPv6 : Bool)
  | timer
  deriving DecidableEq, Repr

/-- A run of the program. It ends with `Close`, or is killed. -/
structure ProgramRun where
  range : Families Prefix
  events : List RunEvent
  closed : Bool
  deriving DecidableEq, Repr

def Store.handle (store : Store CacheFile) : RunEvent → Store CacheFile
  | .create domain isIPv6 => (store.create cacheFile domain isIPv6).1
  | .timer => { store with storage := store.storage.saveMetadataTimer }

/-- The store after `Start`, in a process that has just opened the file. -/
def startRun (range : Families Prefix) (db : Bolt.Database) : Store CacheFile :=
  start cacheFile range { db := db }

/-- What a run leaves in the file. -/
def ProgramRun.leave (run : ProgramRun) (db : Bolt.Database) : Bolt.Database :=
  let store := run.events.foldl Store.handle (startRun run.range db)
  if run.closed then (store.close cacheFile).storage.db else store.storage.db

/-- The file after some runs, the first of which creates it. -/
def fileAfter (history : List ProgramRun) : Bolt.Database :=
  history.foldl (fun db run => run.leave db) fun _ => none

end

/-! ### The binary form of the metadata -/

theorem readElement_marshalElement {data : List UInt8} (small : data.length < 256 ^ 2)
    (rest : List UInt8) : readElement (marshalElement data ++ rest) = .value (data, rest) := by
  have size := Addr.length_bytesOf 2 data.length
  have front : (marshalElement data ++ rest).take 2 = Addr.bytesOf 2 data.length := by
    rw [marshalElement, List.append_assoc, List.take_left' size]
  have back : (marshalElement data ++ rest).drop 2 = data ++ rest := by
    rw [marshalElement, List.append_assoc, List.drop_left' size]
  have long : ¬(marshalElement data ++ rest).length < 2 := by
    rw [marshalElement, List.length_append, List.length_append, size]
    omega
  have length : Addr.numberOf (Addr.bytesOf 2 data.length) = data.length := by
    rw [Addr.numberOf_bytesOf, Nat.mod_eq_of_lt small]
  unfold readElement
  rw [if_neg long]
  rw [front, back, length, if_neg (by rw [List.length_append]; omega), List.take_left,
    List.drop_left]

theorem unmarshalAddr_asSlice (address : Addr) :
    unmarshalAddr address.asSlice = .value address := by
  have size : [0, 4, 16].contains address.asSlice.length = true := by
    rw [Addr.length_asSlice]
    cases address <;> simp [Addr.bitLen]
  rw [unmarshalAddr, if_pos size, Addr.fromSlice_asSlice]

theorem length_asSlice_le (address : Addr) : address.asSlice.length ≤ 16 := by
  rw [Addr.length_asSlice]
  cases address <;> simp [Addr.bitLen]

theorem length_marshalBinary_le (range : Prefix) : range.marshalBinary.length ≤ 17 := by
  rw [Prefix.marshalBinary, List.length_append]
  exact Nat.add_le_add_right (length_asSlice_le range.addr) 1

theorem unmarshalBinary_marshalBinary {metadata : FakeIPMetadata}
    (wellFormed : ∀ isIPv6, (metadata.range.get isIPv6).WellFormed) :
    unmarshalBinary metadata.marshalBinary = .value metadata := by
  have range (range : Prefix) : range.marshalBinary.length < 256 ^ 2 :=
    Nat.lt_of_le_of_lt (length_marshalBinary_le range) (by decide)
  have slice (address : Addr) : address.asSlice.length < 256 ^ 2 :=
    Nat.lt_of_le_of_lt (length_asSlice_le address) (by decide)
  have inet4 : Prefix.unmarshalBinary metadata.range.inet4.marshalBinary = _ :=
    Prefix.unmarshalBinary_marshalBinary (wellFormed false)
  have inet6 : Prefix.unmarshalBinary metadata.range.inet6.marshalBinary = _ :=
    Prefix.unmarshalBinary_marshalBinary (wellFormed true)
  unfold unmarshalBinary
  rw [FakeIPMetadata.marshalBinary, List.append_assoc, List.append_assoc,
    ← List.append_nil (marshalElement metadata.current.inet6.asSlice)]
  simp only [readElement_marshalElement (range _), readElement_marshalElement (slice _),
    Outcome.bind_value, inet4, inet6, unmarshalAddr_asSlice]
  rfl

/-! ### What the file holds -/

/-- The ranges are as the configuration gives them, each of its own family. -/
structure Configured (range : Families Prefix) : Prop where
  wellFormed : ∀ isIPv6, (range.get isIPv6).WellFormed
  family : ∀ isIPv6, (range.get isIPv6).isValid = true → (range.get isIPv6).addr.is6 = isIPv6

/-- The current address of a family at a start without metadata. -/
def firstAddress (range : Prefix) : Addr := if range.isValid then range.addr.next else .invalid

/-- Metadata of a run: a family that cannot give out addresses has no current one. -/
structure FakeIPMetadata.Proper (metadata : FakeIPMetadata) : Prop where
  configured : Configured metadata.range
  idle : ∀ isIPv6, (firstAddress (metadata.range.get isIPv6)).isValid = false →
    (metadata.current.get isIPv6).isValid = false

/-- The file holds the pairing, and its metadata are those of a run. -/
structure CacheFile.Kept (file : CacheFile) (pairs : Pairs) : Prop where
  holds : file.Holds pairs
  saved : ∀ {data}, file.db.lookup bucketFakeIP keyMetadata = some data →
    ∃ metadata : FakeIPMetadata, metadata.Proper ∧ data = metadata.marshalBinary
  pending : ∀ {metadata}, file.saveMetadata = some metadata → metadata.Proper

variable {address : Addr} {db : Bolt.Database} {domain : Domain} {file : CacheFile} {isIPv6 : Bool}
  {events : List RunEvent}

namespace CacheFile

theorem asSlice_ne_keyMetadata (address : Addr) : address.asSlice ≠ keyMetadata := by
  intro same
  have size := congrArg List.length same
  rw [Addr.length_asSlice] at size
  cases address <;> exact absurd size (by simp [Addr.bitLen, keyMetadata])

/-- The pairing of a file does not depend on the metadata. -/
theorem Holds.of_set (holds : file.Holds pairs) (bucket : Bolt.Bucket)
    (same : ∀ key, key ≠ keyMetadata → bucket key = file.db.lookup bucketFakeIP key) :
    { file with db := file.db.set bucketFakeIP (some bucket) }.Holds pairs where
  typed := holds.typed
  stored := holds.stored
  address {address} valid := by
    rw [← holds.address valid, lookup_set_self, same _ (asSlice_ne_keyMetadata address)]
  domain isIPv6 domain := by
    rw [← holds.domain isIPv6, lookup_set_of_ne _ _ (bucketFakeIP_ne isIPv6)]
  saveDomain := holds.saveDomain
  saveAddress := holds.saveAddress

theorem metadataTx_absent (absent : db bucketFakeIP = none) :
    metadataTx db = .error (.returned "file does not exist") := by
  unfold metadataTx
  simp only [Bolt.bind_apply, Bolt.hasBucket, absent, Outcome.bind_value]
  rfl

theorem metadataTx_present {bucket : Bolt.Bucket} (present : db bucketFakeIP = some bucket) :
    metadataTx db = if ((bucket keyMetadata).getD []).length = 0 then
        .error (.returned "invalid argument")
      else (unmarshalBinary ((bucket keyMetadata).getD [])).handle
        (fun metadata => .value (metadata, db.set bucketFakeIP
          (some fun key => if key = keyMetadata then none else bucket key)))
        fun err => .error (.returned err) := by
  unfold metadataTx
  simp only [Bolt.bind_apply, Bolt.hasBucket, Bolt.get, present, Outcome.bind_value,
    isSome_some, Bool.not_true, Bool.false_eq_true, if_false]
  split
  · rfl
  · simp only [Bolt.bind_apply, Bolt.delete, present, Outcome.bind_value]

/-- The buckets that a reset deletes are there. -/
def Deletable (db : Bolt.Database) : Prop :=
  (db bucketFakeIP).isSome = true ∧ (db (bucketFakeIPDomain false)).isSome = true ∧
    (db (bucketFakeIPDomain true)).isSome = true

instance (db : Bolt.Database) : Decidable (Deletable db) := inferInstanceAs (Decidable (_ ∧ _))

/-- The database without the three buckets. -/
def cleared (db : Bolt.Database) : Bolt.Database :=
  ((db.set bucketFakeIP none).set (bucketFakeIPDomain false) none).set
    (bucketFakeIPDomain true) none

theorem lookup_cleared (db : Bolt.Database) (key : List UInt8) :
    (cleared db).lookup bucketFakeIP key = none ∧
      ∀ isIPv6, (cleared db).lookup (bucketFakeIPDomain isIPv6) key = none := by
  refine ⟨rfl, fun isIPv6 => ?_⟩
  cases isIPv6 <;> rfl

variable [Engine] [Documented]

/-- The metadata of a file are taken out of it, or there are none and the file stays. -/
theorem fakeIPMetadata_cases (kept : file.Kept pairs) :
    file.fakeIPMetadata = (file, none) ∨ ∃ metadata : FakeIPMetadata, metadata.Proper ∧
      ∃ bucket, file.db bucketFakeIP = some bucket ∧ file.fakeIPMetadata = ({ file with
        db := file.db.set bucketFakeIP
          (some fun key => if key = keyMetadata then none else bucket key) }, some metadata) := by
  have saved := @kept.saved
  have nothing {err : Error} (failed : metadataTx file.db = .error err) :
      file.fakeIPMetadata = (file, none) := by
    rw [fakeIPMetadata, batch_of_error failed]
    rfl
  rw [Bolt.Database.lookup] at saved
  cases present : file.db bucketFakeIP with
  | none => exact .inl (nothing (metadataTx_absent present))
  | some bucket =>
    have outcome := metadataTx_present present
    rw [present] at saved
    cases held : bucket keyMetadata with
    | none =>
      rw [held] at outcome
      exact .inl (nothing outcome)
    | some data =>
      obtain ⟨metadata, proper, rfl⟩ := saved held
      have nonempty : ¬metadata.marshalBinary.length = 0 := by
        simp [FakeIPMetadata.marshalBinary, marshalElement, Addr.length_bytesOf]
      rw [held, getD_some, if_neg nonempty,
        unmarshalBinary_marshalBinary proper.configured.wellFormed] at outcome
      refine .inr ⟨metadata, proper, bucket, rfl, ?_⟩
      rw [fakeIPMetadata, batch_of_value outcome]
      rfl

theorem Kept.metadata (kept : file.Kept pairs) : file.fakeIPMetadata.1.Kept pairs := by
  rcases fakeIPMetadata_cases kept with none | ⟨metadata, -, bucket, present, taken⟩
  · rw [none]
    exact kept
  · rw [taken]
    refine ⟨kept.holds.of_set _ fun key other => ?_, fun held => ?_, kept.pending⟩
    · rw [if_neg other, Bolt.Database.lookup, present]
      rfl
    · cases held

theorem proper_of_metadata (kept : file.Kept pairs) {metadata : FakeIPMetadata}
    (found : file.fakeIPMetadata.2 = some metadata) : metadata.Proper := by
  rcases fakeIPMetadata_cases kept with none | ⟨metadata', proper, bucket, present, taken⟩
  · rw [none] at found
    cases found
  · rw [taken] at found
    cases found
    exact proper

theorem deletable_metadata (kept : file.Kept pairs) :
    Deletable file.fakeIPMetadata.1.db ↔ Deletable file.db := by
  rcases fakeIPMetadata_cases kept with none | ⟨metadata, proper, bucket, present, taken⟩
  · rw [none]
  · rw [taken]
    dsimp only [Deletable]
    rw [set_self, set_of_ne _ _ (bucketFakeIP_ne false),
      set_of_ne _ _ (bucketFakeIP_ne true), present, isSome_some, isSome_some]

/-- An invalid address is not a key of the file. -/
theorem storeTx_invalid (domain : Domain) (db : Bolt.Database) :
    ∃ err, storeTx .invalid domain db = .error err := by
  have failure : ∃ err, put bucketFakeIP Addr.invalid.asSlice domain
      (db.set bucketFakeIP (some ((db bucketFakeIP).getD fun _ => none))) = .error err :=
    put_of_not_storable (set_self _ _ _) fun storable => storable.1 rfl
  obtain ⟨err, failed⟩ := failure
  unfold storeTx
  simp only [Bolt.bind_apply, Bolt.createBucketIfNotExists, Bolt.get, Outcome.bind_value,
    Bolt.set_self]
  rw [failed]
  exact ⟨err, rfl⟩

theorem resetTx_eq (db : Bolt.Database) :
    resetTx db = if Deletable db then .value ((), cleared db) else .error .bucketNotFound := by
  have first := Bolt.set_of_ne db none (bucketFakeIP_ne false)
  have second : (db.set bucketFakeIP none).set (bucketFakeIPDomain false) none
      (bucketFakeIPDomain true) = db (bucketFakeIPDomain true) := by
    rw [set_of_ne _ _ (by decide), set_of_ne _ _ (bucketFakeIP_ne true)]
  unfold resetTx
  rw [Bolt.bind_apply]
  by_cases addresses : (db bucketFakeIP).isSome = true
  · rw [Bolt.deleteBucket_of_isSome addresses, Outcome.bind_value, Bolt.bind_apply]
    by_cases domains4 : (db (bucketFakeIPDomain false)).isSome = true
    · rw [deleteBucket_of_isSome (by rw [← first] at domains4; exact domains4), Outcome.bind_value]
      by_cases domains6 : (db (bucketFakeIPDomain true)).isSome = true
      · rw [deleteBucket_of_isSome (by rw [← second] at domains6; exact domains6),
          if_pos ⟨addresses, domains4, domains6⟩]
        rfl
      · rw [deleteBucket_of_not_isSome (by rw [← second] at domains6; exact domains6),
          if_neg fun deletable => domains6 deletable.2.2]
    · rw [deleteBucket_of_not_isSome (by rw [← first] at domains4; exact domains4),
        if_neg fun deletable => domains4 deletable.2.1]
      rfl
  · rw [deleteBucket_of_not_isSome addresses, if_neg fun deletable => addresses deletable.1]
    rfl

section

variable (kept : file.Kept pairs)

include kept

theorem Kept.reset :
    file.fakeIPReset.1.Kept (if Deletable file.db then Pairing.empty else pairs) := by
  have outcome := resetTx_eq file.db
  by_cases deletable : Deletable file.db
  · rw [if_pos deletable] at outcome ⊢
    rw [fakeIPReset, batch_of_value outcome]
    have empty := lookup_cleared file.db
    refine ⟨⟨holds_empty.typed, holds_empty.stored, fun _ => (empty _).1,
      fun isIPv6 domain => (empty domain).2 isIPv6, kept.holds.saveDomain,
      kept.holds.saveAddress⟩, fun saved => ?_, kept.pending⟩
    cases saved
  · rw [if_neg deletable] at outcome ⊢
    rw [fakeIPReset, batch_of_error outcome]
    exact kept

theorem Kept.saveMetadata {metadata : FakeIPMetadata} (proper : metadata.Proper) :
    (file.fakeIPSaveMetadata metadata).1.Kept pairs := by
  have puts : saveMetadataTx metadata file.db = put bucketFakeIP keyMetadata metadata.marshalBinary
      (file.db.set bucketFakeIP (some ((file.db bucketFakeIP).getD fun _ => none))) := rfl
  rcases Bolt.put_cases keyMetadata metadata.marshalBinary (Bolt.set_self file.db bucketFakeIP _)
    with ⟨err, failed⟩ | written
  · rw [fakeIPSaveMetadata, batch_of_error (puts.trans failed)]
    exact kept
  · rw [Bolt.set_set] at written
    rw [fakeIPSaveMetadata, batch_of_value (puts.trans written)]
    refine ⟨kept.holds.of_set _ fun key other => ?_, fun saved => ?_, kept.pending⟩
    · rw [if_neg other, Bolt.getD_apply]
    · exact ⟨metadata, proper, (some.inj saved).symm⟩

theorem Kept.timer : file.saveMetadataTimer.Kept pairs := by
  unfold saveMetadataTimer
  split
  · exact kept
  next metadata pending => exact kept.saveMetadata (kept.pending pending)

theorem Kept.saveMetadataAsync {metadata : FakeIPMetadata} (proper : metadata.Proper) :
    (cacheFile.saveMetadataAsync file metadata).Kept pairs where
  holds := cacheFile_keeps.saveMetadataAsync kept.holds metadata
  saved := kept.saved
  pending found := by
    cases found
    exact proper

/-- A store gives the address to the domain, if the file can store it, or leaves the file. -/
theorem Kept.store (family : address.isValid = true → address.is6 = isIPv6)
    (free : pairs.slotOf (isIPv6, domain) = none) : (file.fakeIPStore address domain).1.Kept
      (if address.isValid = true ∧ Bolt.Storable domain then
        pairs.assign (isIPv6, domain) address free else pairs) := by
  by_cases valid : address.isValid = true
  · by_cases storable : Bolt.Storable domain
    · rw [if_pos ⟨valid, storable⟩]
      obtain ⟨after, stored, writes⟩ := storeTx_value valid storable file.db
      have left : (file.fakeIPStore address domain).1 = { file with db := after } := by
        rw [fakeIPStore, batch_of_value stored]
      refine ⟨cacheFile_keeps.store_at kept.holds storable valid (family valid) free, ?_, ?_⟩
      · rw [left, writes.ofAddress, if_neg (asSlice_ne_keyMetadata address).symm]
        exact kept.saved
      · exact kept.pending
    · rw [if_neg fun both => storable both.2]
      obtain ⟨err, failed⟩ := storeTx_refused storable address file.db
      rw [fakeIPStore, batch_of_error failed]
      exact kept
  · cases address with
    | invalid =>
      obtain ⟨err, failed⟩ := storeTx_invalid domain file.db
      rw [fakeIPStore, batch_of_error failed]
      exact kept
    | v4 _ | v6 _ => exact absurd rfl valid

end

end CacheFile

/-! ### A run -/

structure Live (range : Families Prefix) (store : Store CacheFile) (pairs : Pairs) : Prop where
  kept : store.storage.Kept pairs
  proper : store.metadata.Proper
  same : store.range = range

/-- `Start` resets the file, successfully. -/
def Resets [Engine] (range : Families Prefix) (db : Bolt.Database) : Prop :=
  (∀ metadata, (CacheFile.fakeIPMetadata { db := db }).2 = some metadata →
    metadata.range ≠ range) ∧ CacheFile.Deletable db

theorem firstAddress_proper (configured : Configured range) :
    FakeIPMetadata.Proper ⟨range, ⟨firstAddress range.inet4, firstAddress range.inet6⟩⟩ where
  configured
  idle isIPv6 := by cases isIPv6 <;> exact id

theorem startRun_live [Engine] [Documented] (configured : Configured range)
    (kept : CacheFile.Kept { db } pairs) :
    ∃ pairs', Live range (startRun range db) pairs' ∧
      (Resets range db → pairs' = Pairing.empty) ∧ (¬Resets range db → pairs' = pairs) := by
  have found := kept.metadata
  have reset := found.reset
  simp only [CacheFile.deletable_metadata kept] at reset
  have first := firstAddress_proper configured
  unfold startRun start
  dsimp only
  cases taken : (cacheFile.metadata { db }).2 with
  | none =>
    refine ⟨_, ⟨reset, first, rfl⟩, fun resets => if_pos resets.2, fun fails => if_neg ?_⟩
    refine fun deletable => fails ⟨fun metadata found => ?_, deletable⟩
    cases taken.symm.trans found
  | some metadata =>
    have proper := CacheFile.proper_of_metadata kept taken
    dsimp only
    by_cases same : metadata.range = range
    · rw [if_pos same]
      refine ⟨pairs, ⟨found, ?_, rfl⟩, fun resets => absurd same (resets.1 metadata taken),
        fun _ => rfl⟩
      rw [← same]
      exact proper
    · rw [if_neg same]
      refine ⟨_, ⟨reset, first, rfl⟩, fun resets => if_pos resets.2, fun fails => if_neg ?_⟩
      refine fun deletable => fails ⟨fun metadata' found => ?_, deletable⟩
      obtain rfl := some.inj (taken.symm.trans found)
      exact same

def InRange (range : Families Prefix) (pairs : Pairs) : Prop :=
  ∀ isIPv6 domain address, pairs.slotOf (isIPv6, domain) = some address →
    (range.get isIPv6).contains address = true

/-- The range has a third address, with which the allocation starts and starts again. -/
def Usable (range : Families Prefix) : Prop :=
  ∀ isIPv6, (firstAddress (range.get isIPv6)).isValid = true →
    (range.get isIPv6).contains (range.get isIPv6).addr.next.next = true

theorem is6_next (valid : address.next.isValid = true) :
    address.next.is6 = address.is6 ∧ address.isValid = true := by
  cases address with
  | invalid => cases valid
  | v4 bits | v6 bits =>
    rw [Addr.next] at valid ⊢
    split_ifs at valid ⊢ with overflow
    · cases valid
    · exact ⟨rfl, rfl⟩

theorem nextAddress_cases (range : Prefix) (last current : Addr) :
    nextAddress range last current = range.addr.next.next ∨
      range.contains (nextAddress range last current) = true := by
  unfold nextAddress
  split_ifs with restarts
  · exact .inl rfl
  · simp only [Bool.not_eq_true', not_or, Bool.not_eq_false] at restarts
    exact .inr restarts.2

theorem is6_nextAddress {range : Prefix} {last current : Addr}
    (valid : (nextAddress range last current).isValid = true) :
    (nextAddress range last current).is6 = range.addr.is6 := by
  rcases nextAddress_cases range last current with third | inside
  · rw [third] at valid ⊢
    obtain ⟨family, valid⟩ := is6_next valid
    rw [family, (is6_next valid).1]
  · exact Prefix.is6_of_contains inside

variable {range : Families Prefix} {store : Store CacheFile} {pairs : Pairs}

section

variable [Engine] [Documented] (live : Live range store pairs)

include live

theorem Live.lookup (paired : pairs.slotOf (isIPv6, domain) = some address) :
    store.lookup cacheFile address = some domain := by
  have valid := (live.kept.holds.typed _ _ _ paired).1
  show cacheFile.load store.storage address = some domain
  rw [cacheFile_keeps.load live.kept.holds valid, (pairs.inverse _ _).mp paired]
  rfl

/-- A new domain gets an address when the family can give out addresses. -/
theorem Live.create_new (free : pairs.slotOf (isIPv6, domain) = none)
    (current : (store.current.get isIPv6).isValid = true) :
    ∃ address, (store.create cacheFile domain isIPv6).2 = .ok address ∧
      (firstAddress (range.get isIPv6)).isValid = true ∧
      (address = (range.get isIPv6).addr.next.next ∨ (range.get isIPv6).contains address = true) ∧
      Live range (store.create cacheFile domain isIPv6).1
        (if address.isValid = true ∧ Bolt.Storable domain then
          pairs.assign (isIPv6, domain) address free else pairs) := by
  have unknown := (cacheFile_keeps.loadDomain live.kept.holds domain isIPv6).trans free
  have first : (firstAddress (range.get isIPv6)).isValid = true := by
    by_contra idle
    have missing := live.proper.idle isIPv6 (by
      rw [← live.same] at idle
      exact (Bool.not_eq_true _).mp idle)
    cases current.symm.trans missing
  have configured : (range.get isIPv6).isValid = true := by
    by_contra missing
    rw [firstAddress, if_neg missing] at first
    cases first
  have cases := nextAddress_cases (range.get isIPv6) (store.last.get isIPv6)
    (store.current.get isIPv6)
  have family {last current : Addr}
      (valid : (nextAddress (range.get isIPv6) last current).isValid = true) :
      (nextAddress (range.get isIPv6) last current).is6 = isIPv6 := by
    have own := live.proper.configured.family isIPv6
    rw [Store.metadata, live.same] at own
    rw [is6_nextAddress valid, own configured]
  have proper (address : Addr) :
      { store with current := store.current.set isIPv6 address }.metadata.Proper := by
    refine ⟨live.proper.configured, fun other idle => ?_⟩
    by_cases same : other = isIPv6
    · subst same
      change (firstAddress (store.range.get other)).isValid = false at idle
      rw [live.same, first] at idle
      cases idle
    · change ((store.current.set isIPv6 address).get other).isValid = false
      rw [Families.get_set_of_ne _ _ same]
      exact live.proper.idle other idle
  rw [Store.create_of_unknown unknown current, live.same]
  exact ⟨_, rfl, first, cases,
    (live.kept.store family free).saveMetadataAsync (proper _), proper _, live.same⟩

theorem Live.handle (event : RunEvent) : ∃ pairs', Live range (store.handle event) pairs' := by
  cases event with
  | timer => exact ⟨pairs, live.kept.timer, live.proper, live.same⟩
  | create domain isIPv6 =>
    show ∃ pairs', Live range (store.create cacheFile domain isIPv6).1 pairs'
    have loaded := cacheFile_keeps.loadDomain live.kept.holds domain isIPv6
    cases paired : pairs.slotOf (isIPv6, domain) with
    | some address =>
      rw [Store.create_of_known (loaded.trans paired)]
      exact ⟨pairs, live⟩
    | none =>
      cases current : (store.current.get isIPv6).isValid with
      | false =>
        obtain ⟨err, failed⟩ := Store.create_of_missing (loaded.trans paired) current
        rw [failed]
        exact ⟨pairs, live⟩
      | true =>
        obtain ⟨address, -, -, -, after⟩ := live.create_new paired current
        exact ⟨_, after⟩

theorem Live.run (events : List RunEvent) :
    ∃ pairs', Live range (events.foldl Store.handle store) pairs' := by
  induction events generalizing store pairs with
  | nil => exact ⟨pairs, live⟩
  | cons event events ih =>
    obtain ⟨pairs', live'⟩ := live.handle event
    exact ih live'

end

/-! ### All runs -/

/-- What a new process reads is what the last one left in the file. -/
theorem CacheFile.Kept.reopen (kept : file.Kept pairs) :
    CacheFile.Kept { db := file.db } pairs where
  holds := ⟨kept.holds.typed, kept.holds.stored, kept.holds.address, kept.holds.domain,
    fun _ => rfl, fun isIPv6 _ => by cases isIPv6 <;> rfl⟩
  saved := kept.saved
  pending := nofun

theorem ProgramRun.kept_leave [Engine] [Documented] {run : ProgramRun}
    (configured : Configured run.range)
    (kept : CacheFile.Kept { db } pairs) :
    ∃ pairs', CacheFile.Kept { db := run.leave db } pairs' := by
  obtain ⟨started, live, -⟩ := startRun_live configured kept
  obtain ⟨pairs', ended⟩ := live.run run.events
  refine ⟨pairs', ?_⟩
  unfold leave
  split
  · exact (ended.kept.saveMetadata ended.proper).reopen
  · exact ended.kept.reopen

/-- Whatever the program ran with before, the file holds a pairing. -/
theorem kept_fileAfter [Engine] [Documented] {history : List ProgramRun}
    (configured : ∀ run ∈ history, Configured run.range) :
    ∃ pairs, CacheFile.Kept { db := fileAfter history } pairs := by
  have go (db : Bolt.Database) {pairs : Pairs} (kept : CacheFile.Kept { db } pairs) :
      ∃ pairs', CacheFile.Kept { db := history.foldl (fun db run => run.leave db) db } pairs' := by
    induction history generalizing db pairs with
    | nil => exact ⟨pairs, kept⟩
    | cons run history ih =>
      obtain ⟨pairs', kept'⟩ := run.kept_leave (configured run List.mem_cons_self) kept
      exact ih (fun run member => configured run (List.mem_cons_of_mem _ member))
        _ kept'
  exact go _ ⟨CacheFile.holds_empty, nofun, nofun⟩

/-! ### What a run serves -/

/-- What `Create` returns is in the range of the family, and `Lookup` finds the domain. -/
def Serves [Engine] (range : Families Prefix) (store : Store CacheFile) (domain : Domain)
    (isIPv6 : Bool) : Prop :=
  ∀ address, (store.create cacheFile domain isIPv6).2 = .ok address →
    (range.get isIPv6).contains address = true ∧
      (store.create cacheFile domain isIPv6).1.lookup cacheFile address = some domain

/-- Every `Create` among the events of a run is served. -/
def ServesAll [Engine] (range : Families Prefix) (store : Store CacheFile)
    (events : List RunEvent) : Prop :=
  ∀ before domain isIPv6 later, events = before ++ .create domain isIPv6 :: later →
    Serves range (before.foldl Store.handle store) domain isIPv6

/-- The event creates a domain that can be stored, if any. -/
def RunEvent.Storable : RunEvent → Prop
  | create domain _ => Bolt.Storable domain
  | timer => True

theorem isValid_of_contains {range : Prefix} (inside : range.contains address = true) :
    address.isValid = true := by
  cases address with
  | invalid =>
    unfold Prefix.contains at inside
    simp at inside
  | v4 _ | v6 _ => rfl

section

variable [Engine] [Documented] (live : Live range store pairs) (usable : Usable range)
  (within : InRange range pairs)

include live usable within

/-- With a usable range and no stale mapping, a `Create` is served and leaves none. -/
theorem Live.serves (storable : Bolt.Storable domain) (isIPv6 : Bool) :
    Serves range store domain isIPv6 ∧ ∃ pairs',
      Live range (store.create cacheFile domain isIPv6).1 pairs' ∧ InRange range pairs' := by
  have loaded := cacheFile_keeps.loadDomain live.kept.holds domain isIPv6
  cases paired : pairs.slotOf (isIPv6, domain) with
  | some address =>
    rw [Serves, Store.create_of_known (loaded.trans paired)]
    refine ⟨fun returned same => ?_, pairs, live, within⟩
    obtain rfl := Except.ok.inj same
    exact ⟨within _ _ _ paired, live.lookup paired⟩
  | none =>
    cases current : (store.current.get isIPv6).isValid with
    | false =>
      obtain ⟨err, failed⟩ := Store.create_of_missing (loaded.trans paired) current
      rw [Serves, failed]
      exact ⟨nofun, pairs, live, within⟩
    | true =>
      obtain ⟨address, result, first, next, after⟩ := live.create_new paired current
      have inside : (range.get isIPv6).contains address = true := by
        rcases next with rfl | inside
        · exact usable isIPv6 first
        · exact inside
      rw [if_pos ⟨isValid_of_contains inside, storable⟩] at after
      refine ⟨fun returned same => ?_, _, after, fun other name place holds => ?_⟩
      · obtain rfl := Except.ok.inj (result.symm.trans same)
        exact ⟨inside, after.lookup (pairs.slotOf_assign_self paired)⟩
      · rcases pairs.slotOf_assign_eq_some paired holds with ⟨own, rfl⟩ | before
        · obtain ⟨rfl, rfl⟩ := Prod.mk.inj own
          exact inside
        · exact within _ _ _ before

theorem Live.inRange_run (storable : ∀ event ∈ events, event.Storable) :
    ∃ pairs', Live range (events.foldl Store.handle store) pairs' ∧ InRange range pairs' := by
  induction events generalizing store pairs with
  | nil => exact ⟨pairs, live, within⟩
  | cons event events ih =>
    have later := fun event member => storable event (List.mem_cons_of_mem _ member)
    cases event with
    | timer => exact ih ⟨live.kept.timer, live.proper, live.same⟩ within later
    | create domain isIPv6 =>
      have own := storable _ List.mem_cons_self
      obtain ⟨-, pairs', live', within'⟩ := live.serves usable within own isIPv6
      exact ih live' within' later

theorem Live.servesAll (storable : ∀ event ∈ events, event.Storable) :
    ServesAll range store events := by
  rintro before domain isIPv6 later rfl
  have earlier := fun event member => storable event (List.mem_append_left _ member)
  have own : Bolt.Storable domain :=
    storable _ (List.mem_append_right _ List.mem_cons_self)
  obtain ⟨pairs', live', within'⟩ := live.inRange_run usable within earlier
  exact (live'.serves usable within' own isIPv6).1

end

/-- A mapping outside of the range is served as it is. -/
theorem Live.inRange_of_serves [Engine] [Documented] (live : Live range store pairs)
    (serves : ∀ domain isIPv6, Bolt.Storable domain → Serves range store domain isIPv6) :
    InRange range pairs := by
  intro isIPv6 domain address paired
  have loaded := cacheFile_keeps.loadDomain live.kept.holds domain isIPv6
  refine (serves domain isIPv6 (live.kept.holds.stored paired) address ?_).1
  rw [Store.create_of_known (loaded.trans paired)]

/-- After any earlier runs, a run with usable ranges serves everything that can be stored
exactly when its `Start` resets the file, or no mapping of the file lies outside of the ranges. -/
theorem restart_serves [Engine] [Documented] {history : List ProgramRun}
    (configured : ∀ run ∈ history, Configured run.range) {range : Families Prefix}
    (own : Configured range) (usable : Usable range) :
    (∀ events : List RunEvent, (∀ event ∈ events, event.Storable) →
        ServesAll range (startRun range (fileAfter history)) events) ↔
      Resets range (fileAfter history) ∨
        ∀ domain isIPv6 address,
          CacheFile.fakeIPLoadDomain { db := fileAfter history } domain isIPv6 = some address →
          (range.get isIPv6).contains address = true := by
  obtain ⟨pairs, kept⟩ := kept_fileAfter configured
  obtain ⟨started, live, reset, stays⟩ := startRun_live own kept
  have loaded := CacheFile.fakeIPLoadDomain_eq kept.holds
  constructor
  · intro serves
    by_cases resets : Resets range (fileAfter history)
    · exact .inl resets
    · refine .inr fun domain isIPv6 address found => ?_
      rw [loaded] at found
      obtain rfl := stays resets
      refine live.inRange_of_serves (fun domain isIPv6 storable => ?_) isIPv6 domain address found
      exact serves [.create domain isIPv6] (by simpa [RunEvent.Storable] using storable) [] _ _ []
        rfl
  · intro safe events storable
    refine live.servesAll usable (fun isIPv6 domain address paired => ?_) storable
    by_cases resets : Resets range (fileAfter history)
    · rw [reset resets] at paired
      cases paired
    · rw [stays resets] at paired
      rcases safe with resets' | inside
      · exact absurd resets' resets
      · exact inside domain isIPv6 address ((loaded domain isIPv6).trans paired)

/-- The ranges 198.18.0.0/15 and fc00::/18. -/
def bothRanges : Families Prefix :=
  ⟨.prefixFrom (.v4 0xC6120000) 15, .prefixFrom (.v6 0xFC000000000000000000000000000000) 18⟩

/-- The range 10.64.0.0/16. -/
def otherRange : Families Prefix := ⟨.prefixFrom (.v4 0x0A400000) 16, {}⟩

/-- A run with both ranges that creates `a.b` in both families and is killed. -/
def bothRun : ProgramRun :=
  ⟨bothRanges, [.create [97, 46, 98] false, .create [97, 46, 98] true], false⟩

/-- A run without IPv6 that creates `a.b`. -/
def usualRun : ProgramRun := ⟨usualRange, [.create [97, 46, 98] false], true⟩

theorem configured_bothRanges : Configured bothRanges where
  wellFormed isIPv6 := by
    cases isIPv6 <;> exact .inr ⟨rfl, by decide, by decide⟩
  family isIPv6 _ := by
    cases isIPv6 <;> rfl

theorem configured_otherRange : Configured otherRange where
  wellFormed isIPv6 := by
    cases isIPv6 with
    | false => exact .inr ⟨rfl, by decide, by decide⟩
    | true => exact .inl rfl
  family isIPv6 valid := by
    cases isIPv6 with
    | false => rfl
    | true => cases valid

theorem usable_otherRange : Usable otherRange := by
  intro isIPv6 first
  cases isIPv6 with
  | false => decide
  | true => cases first

section

attribute [local instance] bbolt documented_bbolt

/-- After a run in which both families were used, a run with another range starts afresh. -/
theorem restart_serves_bothRun :
    Resets otherRange (fileAfter [bothRun]) ∧
      ServesAll otherRange (startRun otherRange (fileAfter [bothRun]))
        [.create [97, 46, 98] false] := by
  have none : (CacheFile.fakeIPMetadata { db := fileAfter [bothRun] }).2 = none := by
    decide +kernel
  have resets : Resets otherRange (fileAfter [bothRun]) := by
    refine ⟨fun metadata found => ?_, by decide +kernel⟩
    cases none.symm.trans found
  have configured : ∀ run ∈ [bothRun], Configured run.range := by
    intro run member
    rw [List.mem_singleton.mp member]
    exact configured_bothRanges
  refine ⟨resets, (restart_serves configured configured_otherRange usable_otherRange).mpr
    (.inl resets) _ fun event member => ?_⟩
  rw [List.mem_singleton.mp member]
  show Bolt.Storable [97, 46, 98]
  decide

/-- After a run without IPv6, `a.b` keeps the address 198.18.0.2 in a run with the range
10.64.0.0/16. -/
theorem restart_serves_stale :
    ((startRun otherRange (fileAfter [usualRun])).create cacheFile [97, 46, 98] false).2 =
        .ok (.v4 0xC6120002) ∧
      otherRange.inet4.contains (.v4 0xC6120002) = false ∧
      ¬ServesAll otherRange (startRun otherRange (fileAfter [usualRun]))
        [.create [97, 46, 98] false] := by
  have returned : ((startRun otherRange (fileAfter [usualRun])).create cacheFile
      [97, 46, 98] false).2 = .ok (.v4 0xC6120002) := by decide +kernel
  have outside : otherRange.inet4.contains (.v4 0xC6120002) = false := by decide
  refine ⟨returned, outside, fun serves => ?_⟩
  have inside := (serves [] [97, 46, 98] false [] rfl _ returned).1
  cases outside.symm.trans inside

end

end FakeIP

end SingBox
