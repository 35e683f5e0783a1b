/-
This file proves when a rule-set survives its binary form. Each value is read back
from what was written for it; each item of a default rule sets its field and no
other, so the loop of the reader collects the rule item by item; and the rules
follow by induction on their depth.

A prefix without an address is written as an address of no bytes, which the reader
refuses. All other values come back, and so a rule-set round trips just when its
version is known to the reader, each of its types, modes and addresses is known to
the writer, and each of its prefixes has an address.
-/

import SingBox.SrsBinary

namespace SingBox

open List

namespace Srs

open Decoder Outcome Addr

/-! ### Values -/

/-- Lengths are ints. -/
def Fits {Element : Type} (value : List Element) : Prop := value.length < 2 ^ 63

instance {Element : Type} (value : List Element) : Decidable (Fits value) :=
  inferInstanceAs (Decidable (_ < _))

variable {Element Value Key : Type} {bytes : List UInt8} {value : List GoString} {address : Addr}

theorem reads_length {value : List Element} (fits : Fits value) :
    Reads readUvarint (putUvarint value.length) value.length :=
  reads_uvarint _ _ _ (Nat.lt_trans fits (by decide))

section

variable {value : List Element} (fits : Fits value) (written : Element → List UInt8)
  (body : Nat → Decoder ReadError Value)

include fits

/-- A value that is written as its length and its elements. -/
theorem settles_counted (good : Element → Prop) (read : Element → Value)
    (each : ∀ element ∈ value, ∀ index,
      (body index).Settles (written element) (good element) (read element)) :
    Settles (do let length ← readUvarint; times length body)
      (putUvarint value.length ++ value.flatMap written) (∀ element ∈ value, good element)
      (value.map read) := by
  refine (reads_length fits).bind_settles ?_
  exact settles_times (forall₂_map_right_iff.mpr (forall₂_same.mpr each))

theorem reads_counted (read : Element → Value)
    (each : ∀ element ∈ value, ∀ index, (body index).Reads (written element) (read element)) :
    Reads (do let length ← readUvarint; times length body)
      (putUvarint value.length ++ value.flatMap written) (value.map read) :=
  (settles_counted fits written body (fun _ => True) read fun element member index =>
    (each element member index).settles).reads fun _ _ => trivial

end

theorem reads_bool (value : Bool) : Reads readBool (writeBool value) value := by
  have reads := (reads_byte ReadError.eof (if value then 1 else 0)).map (· != 0)
  cases value <;> exact reads

theorem reads_readFull {count : Nat} (length : bytes.length = count) :
    Reads (readFull count) bytes bytes :=
  reads_full _ _ length

theorem reads_uint8s {value : List UInt8} (fits : Fits value) :
    Reads readUint8s (putUvarint value.length ++ value) value := by
  have reads := reads_counted fits (fun byte => [byte])
    (fun _ => (fun bytes => bytes.headD 0) <$> readFull 1) id
    fun byte _ _ => (reads_readFull (length_singleton (a := byte))).map _
  rwa [flatMap_singleton', map_id] at reads

theorem reads_uint16s {value : List UInt16} (fits : Fits value) :
    Reads readUint16s
      (putUvarint value.length ++ value.flatMap fun word => bytesOf 2 word.toNat) value := by
  have reads := reads_counted fits (fun word => bytesOf 2 word.toNat)
    (fun _ => (fun bytes => UInt16.ofNat (numberOf bytes)) <$> readFull 2) id
    fun word _ _ => by
      have reads := (reads_readFull (length_bytesOf 2 word.toNat)).map
        fun bytes => UInt16.ofNat (numberOf bytes)
      have small : word.toNat % 256 ^ 2 = word.toNat := Nat.mod_eq_of_lt word.toNat_lt
      rwa [numberOf_bytesOf, small, UInt16.ofNat_toNat] at reads
  rwa [map_id] at reads

/-- The lengths of strings are ints, too. -/
def FitsStrings (value : List GoString) : Prop := Fits value ∧ ∀ text ∈ value, Fits text

instance (value : List GoString) : Decidable (FitsStrings value) :=
  inferInstanceAs (Decidable (_ ∧ _))

theorem reads_strings (fits : FitsStrings value) : Reads readRuleItemString
      (putUvarint value.length ++ value.flatMap fun text => putUvarint text.length ++ text)
      value := by
  have reads := reads_counted fits.1 (fun text => putUvarint text.length ++ text)
    (fun _ => readUint8s) id fun text member _ => reads_uint8s (fits.2 text member)
  rwa [map_id] at reads

/-! ### Addresses -/

theorem length_asSlice_cases (valid : address.isValid) :
    address.asSlice.length = 4 ∨ address.asSlice.length = 16 := by
  rw [address.length_asSlice]
  cases address with
  | invalid => cases valid
  | v4 _ | v6 _ => simp [bitLen]

theorem reads_addrBytes (valid : address.isValid) :
    Reads readAddrBytes (writeAddr address) address.asSlice := by
  have known := length_asSlice_cases valid
  have fits : Fits address.asSlice := by
    unfold Fits
    omega
  refine (reads_length fits).bind ?_
  rw [if_neg (by omega)]
  exact reads_readFull rfl

/-- There is no address of no bytes. -/
theorem refuses_addrBytes : Refuses readAddrBytes (writeAddr .invalid) := by
  have zero : Fits ([] : List UInt8) := Nat.two_pow_pos 63
  exact (reads_length zero).bind_refuses (refuses_throw _ _)

theorem reads_addr (valid : address.isValid) : Reads readIPSetAddr (writeAddr address) address := by
  have reads := (reads_addrBytes valid).map fromSlice
  rwa [fromSlice_asSlice] at reads

/-- The length of a prefix is read as it was. -/
theorem prefixFrom_bits (prefixable : Prefixable) :
    Prefix.prefixFrom prefixable.range.addr (if prefixable.range.isValid then
      UInt8.ofNat (prefixable.range.bitsPlusOne - 1) else 255).toNat = prefixable.range := by
  obtain ⟨range, addr, bits, rfl⟩ := prefixable
  have small : addr.bitLen ≤ 128 := by cases addr <;> simp [bitLen]
  unfold Prefix.prefixFrom Prefix.isValid
  by_cases proper : addr.isValid ∧ bits ≤ addr.bitLen
  · have same : (UInt8.ofNat bits).toNat = bits := by
      exact Nat.mod_eq_of_lt (by omega)
    simp only [if_pos proper, Nat.add_sub_cancel, gt_iff_lt, Nat.succ_pos, decide_true, if_true,
      same]
  · have long : ¬(addr.isValid ∧ (255 : UInt8).toNat ≤ addr.bitLen) := by
      rintro ⟨-, many⟩
      exact absurd (many.trans small) (by decide)
    simp only [if_neg proper, gt_iff_lt, Nat.lt_irrefl, decide_false, Bool.false_eq_true, if_false,
      if_neg long]

theorem reads_readPrefix {prefixable : Prefixable} (valid : prefixable.range.addr.isValid) :
    Reads readPrefix (writePrefix prefixable.range) prefixable := by
  have same : (⟨Prefix.prefixFrom (fromSlice prefixable.range.addr.asSlice)
      (if prefixable.range.isValid then UInt8.ofNat (prefixable.range.bitsPlusOne - 1)
        else 255).toNat, _, _, rfl⟩ : Prefixable) = prefixable := by
    obtain ⟨range, made⟩ := prefixable
    have restored := prefixFrom_bits ⟨range, made⟩
    simp only [fromSlice_asSlice] at restored ⊢
    congr
  exact (reads_addrBytes valid).bind (((reads_byte _ _).bind_pure _).congr same)

theorem refuses_readPrefix {range : Prefix} (invalid : ¬range.addr.isValid) :
    Refuses readPrefix (writePrefix range) := by
  have none : range.addr = .invalid := by
    cases address : range.addr with
    | invalid => rfl
    | v4 _ | v6 _ => exact absurd (by rw [address]; rfl) invalid
  rw [writePrefix, none]
  exact (refuses_addrBytes.append _).bind

/-- A prefix that has an address. -/
def Addressed (rawPrefix : Option Prefixable) : Prop := (build rawPrefix).addr.isValid

theorem settles_rawPrefix (rawPrefix : Option Prefixable) :
    Settles (some <$> readPrefix) (writePrefix (build rawPrefix)) (Addressed rawPrefix)
      rawPrefix := by
  refine ⟨fun addressed => ?_, fun invalid => (refuses_readPrefix invalid).map _⟩
  cases rawPrefix with
  | none => cases addressed
  | some prefixable => exact (reads_readPrefix addressed).map some

theorem settles_prefixes {value : List (Option Prefixable)} (fits : Fits value) :
    Settles readPrefixes (writePrefixes value) (∀ rawPrefix ∈ value, Addressed rawPrefix)
      value := by
  have settles := settles_counted fits (fun rawPrefix => writePrefix (build rawPrefix))
    (fun _ => some <$> readPrefix) Addressed id fun rawPrefix _ _ => settles_rawPrefix rawPrefix
  rwa [map_id] at settles

theorem reads_ipRange {range : IPRange} (first : range.fromAddr.isValid)
    (last : range.toAddr.isValid) : Reads readIPRange (writeIPRange range) range :=
  (reads_addr first).bind ((reads_addr last).bind_pure _)

theorem reads_ipSet {set : List IPRange} (fits : Fits set)
    (valid : ∀ range ∈ set, range.fromAddr.isValid ∧ range.toAddr.isValid) :
    Reads readIPSet (writeIPSet set) set := by
  have number : numberOf (bytesOf 8 set.length) = set.length := by
    rw [numberOf_bytesOf]
    exact Nat.mod_eq_of_lt (Nat.lt_trans fits (by decide))
  have length := (reads_readFull (length_bytesOf 8 set.length)).map numberOf
  have ranges : List.Forall₂ (fun range chunk => ∀ _ : Nat, readIPRange.Settles chunk
      (True : Prop) (id range)) set (set.map writeIPRange) :=
    forall₂_map_right_iff.mpr (forall₂_same.mpr fun range member _ =>
      (reads_ipRange (valid range member).1 (valid range member).2).settles)
  have reads := (settles_times ranges).reads fun _ _ => trivial
  rw [number] at length
  rw [map_id, ← flatMap_def] at reads
  refine (reads_byte _ 1).bind ?_
  exact length.bind reads

/-! ### Interface addresses -/

theorem TypedMap.putEntry_of_new [DecidableEq Key] {key : Key} {value : Value}
    {entries : List (Key × Value)} (new : key ∉ entries.map Prod.fst) :
    putEntry key value entries = entries ++ [(key, value)] := by
  induction entries with
  | nil => rfl
  | cons entry rest ih =>
    rw [map_cons, mem_cons, not_or] at new
    rw [putEntry, if_neg (Ne.symm new.1), ih new.2]
    rfl

/-- A map is rebuilt from its entries. -/
theorem TypedMap.foldl_put [DecidableEq Key] (map : TypedMap Key Value) :
    map.entries.foldl (fun map entry => map.put entry.1 entry.2) {} = map := by
  have build (later : List (Key × Value)) (start : TypedMap Key Value)
      (distinct : ((start.entries ++ later).map Prod.fst).Nodup) :
      (later.foldl (fun map entry => map.put entry.1 entry.2) start).entries =
        start.entries ++ later := by
    induction later generalizing start with
    | nil => exact (append_nil _).symm
    | cons entry later ih =>
      have new : entry.1 ∉ start.entries.map Prod.fst := by
        rw [map_append, map_cons] at distinct
        exact fun member => (nodup_append.mp distinct).2.2 _ member _ (.head _) rfl
      have put : (start.put entry.1 entry.2).entries = start.entries ++ [entry] :=
        putEntry_of_new new
      have same : start.entries ++ [entry] ++ later = start.entries ++ entry :: later := by simp
      rw [foldl_cons, ih _ (by rw [put, same]; exact distinct), put, same]
  obtain ⟨entries, distinct⟩ := map
  exact TypedMap.ext (build entries {} distinct)

theorem settles_interfaceEntry {entry : UInt8 × List (Option Prefixable)} (fits : Fits entry.2) :
    Settles readInterfaceEntry (writeInterfaceEntry entry)
      (∀ rawPrefix ∈ entry.2, Addressed rawPrefix) entry :=
  (reads_byte _ entry.1).bind_settles ((settles_prefixes fits).bind_pure _)

theorem settles_interfaceAddresses {map : TypedMap UInt8 (List (Option Prefixable))}
    (fits : Fits map.entries) (each : ∀ entry ∈ map.entries, Fits entry.2) :
    Settles readInterfaceAddresses (writeInterfaceAddresses map)
      (∀ entry ∈ map.entries, ∀ rawPrefix ∈ entry.2, Addressed rawPrefix) map := by
  have settles := settles_counted fits writeInterfaceEntry (fun _ => readInterfaceEntry)
    (fun entry => ∀ rawPrefix ∈ entry.2, Addressed rawPrefix) id
    fun entry member _ => settles_interfaceEntry (each entry member)
  rw [map_id] at settles
  have built := settles.map fun entries => entries.foldl (fun map entry => map.put entry.1 entry.2)
    ({} : TypedMap UInt8 (List (Option Prefixable)))
  rwa [TypedMap.foldl_put] at built

/-! ### What a rule is read as -/

section

variable {Matcher AdGuardMatcher : Type} (library : Library Matcher AdGuardMatcher)

/-- What lists of names stand for. -/
structure Names where
  domains : List GoString → List GoString → GoString → Bool
  adGuard : List GoString → GoString → Bool

/-- The addresses that are in what is added to a set. -/
def Entry.Contains (address : Addr) : Entry → Prop
  | ofPrefix range => range.contains address
  | ofAddr other => address = other

/-- What is assumed of the functions from outside: matchers survive their binary form and accept
the names of their lists, a set has the addresses of what the parsers returned, and a stream
survives its compression. -/
structure Library.Correct (names : Names) : Prop where
  matcher : ∀ domain domainSuffix legacy, domain ≠ [] ∨ domainSuffix ≠ [] →
    FitsStrings domain → FitsStrings domainSuffix →
    library.readMatcher.Reads (library.writeMatcher (library.newMatcher domain domainSuffix legacy))
        (library.loaded (library.newMatcher domain domainSuffix legacy)) ∧
      ∀ name, library.accepts (library.loaded (library.newMatcher domain domainSuffix legacy)) name =
        names.domains domain domainSuffix name
  adGuard : ∀ domain, domain ≠ [] → FitsStrings domain →
    library.readAdGuardMatcher.Reads
        (library.writeAdGuardMatcher (library.newAdGuardMatcher domain))
        (library.loadedAdGuard (library.newAdGuardMatcher domain)) ∧
      ∀ name, library.acceptsAdGuard (library.loadedAdGuard (library.newAdGuardMatcher domain))
        name = names.adGuard domain name
  ipSet : ∀ entries, Fits entries → (∀ entry ∈ entries, ∃ text, library.entry text = some entry) →
    Fits (library.buildIPSet entries) ∧
      (∀ range ∈ library.buildIPSet entries, range.fromAddr.isValid ∧ range.toAddr.isValid) ∧
      ∀ address, library.contains (library.buildIPSet entries) address ↔
        ∃ entry ∈ entries, entry.Contains address
  zlib : ∀ stream, library.decompress (library.compress stream) = .ok stream

variable (recover : Bool) (generateVersion : UInt8)

/-- The set of addresses that is written for an item. -/
def Library.setOf (value : List GoString) : List IPRange :=
  library.buildIPSet (value.filterMap library.entry)

def DefaultHeadlessRule.matcher (rule : DefaultHeadlessRule Matcher AdGuardMatcher) : Matcher :=
  library.loaded (library.newMatcher rule.domain rule.domainSuffix (generateVersion == 1))

def DefaultHeadlessRule.adGuardMatcher (rule : DefaultHeadlessRule Matcher AdGuardMatcher) :
    AdGuardMatcher :=
  library.loadedAdGuard (library.newAdGuardMatcher rule.adGuardDomain)

def DefaultHeadlessRule.readAs (rule : DefaultHeadlessRule Matcher AdGuardMatcher) :
    DefaultHeadlessRule Matcher AdGuardMatcher :=
  { rule with
    domain := if rule.domain ≠ [] ∨ rule.domainSuffix ≠ [] then
      if recover then (library.dump (rule.matcher library generateVersion)).1 else [] else []
    domainSuffix := if rule.domain ≠ [] ∨ rule.domainSuffix ≠ [] then
      if recover then (library.dump (rule.matcher library generateVersion)).2 else [] else []
    domainMatcher := if rule.domain ≠ [] ∨ rule.domainSuffix ≠ [] then
      some (rule.matcher library generateVersion) else none
    sourceIPCIDR := if rule.sourceIPCIDR ≠ [] then
      if recover then library.prefixStrings (library.setOf rule.sourceIPCIDR) else [] else []
    sourceIPSet := if rule.sourceIPCIDR ≠ [] then some (library.setOf rule.sourceIPCIDR) else none
    ipCIDR := if rule.ipCIDR ≠ [] then
      if recover then library.prefixStrings (library.setOf rule.ipCIDR) else [] else []
    ipSet := if rule.ipCIDR ≠ [] then some (library.setOf rule.ipCIDR) else none
    adGuardDomain := if rule.adGuardDomain ≠ [] then
      if recover then library.dumpAdGuard (rule.adGuardMatcher library) else [] else []
    adGuardDomainMatcher := if rule.adGuardDomain ≠ [] then
      some (rule.adGuardMatcher library) else none }

/-- All prefixes of a rule have an address. -/
structure DefaultHeadlessRule.Readable (rule : DefaultHeadlessRule Matcher AdGuardMatcher) :
    Prop where
  networkInterface : ∀ entry ∈ rule.networkInterfaceAddress.entries,
    ∀ rawPrefix ∈ entry.2, Addressed rawPrefix
  defaultInterface : ∀ rawPrefix ∈ rule.defaultInterfaceAddress, Addressed rawPrefix

/-- The lengths of a rule are ints. -/
structure DefaultHeadlessRule.Fits (rule : DefaultHeadlessRule Matcher AdGuardMatcher) :
    Prop where
  words : ∀ value ∈ [rule.queryType, rule.sourcePort, rule.port], Srs.Fits value
  strings : ∀ value ∈ [rule.network, rule.domain, rule.domainSuffix, rule.domainKeyword,
    rule.domainRegex, rule.sourceIPCIDR, rule.ipCIDR, rule.sourcePortRange, rule.portRange,
    rule.processName, rule.processPath, rule.processPathRegex, rule.packageName,
    rule.packageNameRegex, rule.wifiSSID, rule.wifiBSSID, rule.adGuardDomain], FitsStrings value
  networkType : Srs.Fits rule.networkType
  networkInterface : Srs.Fits rule.networkInterfaceAddress.entries ∧
    ∀ entry ∈ rule.networkInterfaceAddress.entries, Srs.Fits entry.2
  defaultInterface : Srs.Fits rule.defaultInterfaceAddress

/-! ### Items -/

abbrev Update (Matcher AdGuardMatcher : Type) :=
  DefaultHeadlessRule Matcher AdGuardMatcher → DefaultHeadlessRule Matcher AdGuardMatcher

/-- What an item is written as is settled by the condition, and read as an update of the rule. -/
def ItemSettles (item : Outcome WriteError (List UInt8))
    (spec : Prop × (DefaultHeadlessRule Matcher AdGuardMatcher →
      DefaultHeadlessRule Matcher AdGuardMatcher)) : Prop :=
  ∀ bytes, item = .value bytes →
    bytes = [] ∧ spec.1 ∧ (∀ rule, spec.2 rule = rule) ∨
      bytes ≠ [] ∧ ∃ itemType, ∀ state,
        (readStep library recover state).Settles bytes spec.1 (.inl (spec.2 state.1, itemType))

variable {library recover}

variable {good present : Prop} {itemType : UInt8} {payload : List UInt8}
  {item : Outcome WriteError (List UInt8)}
  {update : Update Matcher AdGuardMatcher}
  {entries : List Entry} {names : Names} {rule : DefaultHeadlessRule Matcher AdGuardMatcher}
  {depth : Nat} {rules : List (HeadlessRule Matcher AdGuardMatcher)}

theorem ItemSettles.congr {same : Prop}
    {update other : Update Matcher AdGuardMatcher}
    (settles : ItemSettles library recover item (good, update)) (iff : same ↔ good)
    (equal : ∀ rule, update rule = other rule) :
    ItemSettles library recover item (same, other) := by
  intro bytes wrote
  obtain rfl : update = other := funext equal
  obtain rfl : same = good := propext iff
  exact settles bytes wrote

section

variable {decoder : Decoder ReadError Value}
  {update : Value → Update Matcher AdGuardMatcher}
  (reading : ∀ rule last, readItem library recover rule last itemType =
    (fun value => update value rule) <$> decoder) (other : itemType ≠ ruleItemFinal)

include reading other

/-- A step of the loop, with an item that is not the final marker. -/
theorem settles_readStep {value : Value} (settles : decoder.Settles payload good value)
    (state : DefaultHeadlessRule Matcher AdGuardMatcher × UInt8) :
    (readStep library recover state).Settles (itemType :: payload) good
      (.inl (update value state.1, itemType)) := by
  refine (reads_byte _ itemType).bind_settles ?_
  rw [if_neg other, reading]
  exact (settles.map _).map _

/-- An item that may be absent. -/
theorem itemSettles_optional [Decidable present]
    {written : Outcome WriteError (List UInt8)} (good : Prop) {value : Value}
    (settles : present → ∀ bytes, written = .value bytes → ∃ payload, bytes = itemType :: payload ∧
      decoder.Settles payload good value) : ItemSettles library recover (optional present written)
      (present → good, fun rule => if present then update value rule else rule) := by
  intro bytes wrote
  by_cases here : present
  · rw [optional, if_pos here] at wrote
    obtain ⟨payload, rfl, settled⟩ := settles here bytes wrote
    refine .inr ⟨cons_ne_nil _ _, itemType, fun state => ?_⟩
    dsimp only
    rw [if_pos here]
    exact (settles_readStep reading other settled state).congr (forall_prop_of_true here)
  · rw [optional, if_neg here] at wrote
    refine .inl ⟨(Outcome.value.inj wrote).symm, fun there => absurd there here, fun rule => ?_⟩
    exact if_neg here

omit reading other in
/-- An item that is always read back. -/
theorem itemSettles_read [Decidable present] {value : Value}
    (reads : present → decoder.Reads payload value)
    (reading : ∀ rule last, readItem library recover rule last itemType =
      (fun value => update value rule) <$> decoder := by exact fun _ _ => rfl)
    (other : itemType ≠ ruleItemFinal := by decide) :
    ItemSettles library recover (optional present (.value (itemType :: payload)))
      (True, fun rule => if present then update value rule else rule) := by
  refine (itemSettles_optional reading other True fun here bytes wrote =>
    ⟨payload, (Outcome.value.inj wrote).symm, (reads here).settles⟩).congr ?_ fun _ => rfl
  exact ⟨fun _ _ => trivial, fun _ => trivial⟩

/-- An item of prefixes, which may have no address. -/
theorem itemSettles_prefixes {elements : List Element} [Decidable (elements ≠ [])] {value : Value}
    (empty : elements = [] → good) (settles : decoder.Settles payload good value) :
    ItemSettles library recover (optional (elements ≠ []) (.value (itemType :: payload)))
      (good, fun rule => if elements ≠ [] then update value rule else rule) := by
  refine (itemSettles_optional reading other good fun _ bytes wrote =>
    ⟨payload, (Outcome.value.inj wrote).symm, settles⟩).congr ?_ fun _ => rfl
  refine ⟨fun holds _ => holds, fun holds => ?_⟩
  by_cases absent : elements = []
  · exact empty absent
  · exact holds absent

end

theorem since_eq_value {version generateVersion : UInt8} {text : String} :
    since version generateVersion text item = .value bytes ↔
      ¬generateVersion < version ∧ item = .value bytes := by
  unfold since
  split_ifs with old
  · exact ⟨nofun, fun both => absurd old both.1⟩
  · exact (and_iff_right old).symm

/-- The version of an item does not matter once it is written. -/
theorem ItemSettles.since [Decidable present]
    {spec : Prop × (Update Matcher AdGuardMatcher)}
    (settles : ItemSettles library recover (optional present item) spec)
    (version generateVersion : UInt8) (text : String) :
    ItemSettles library recover (optional present (Srs.since version generateVersion text item))
      spec := by
  intro bytes wrote
  refine settles bytes ?_
  unfold optional at wrote ⊢
  split_ifs at wrote ⊢
  · exact (since_eq_value.mp wrote).2
  · exact wrote

theorem parseEntries_eq_value {item : String} {index : Nat} :
    parseEntries library item index value = .value entries ↔
      List.Forall₂ (fun text entry => library.entry text = some entry) value entries := by
  induction value generalizing index entries with
  | nil =>
    rw [parseEntries, forall₂_nil_left_iff]
    exact ⟨fun same => (value.inj same).symm, fun same => congrArg _ same.symm⟩
  | cons text rest ih =>
    rw [parseEntries, forall₂_cons_left_iff]
    cases parsed : library.entry text with
    | none => exact ⟨nofun, nofun⟩
    | some entry =>
      rw [bind_eq_value]
      constructor
      · rintro ⟨later, parsedLater, same⟩
        exact ⟨entry, later, rfl, ih.mp parsedLater, (value.inj same).symm⟩
      · rintro ⟨_, later, ⟨⟩, parsedLater, rfl⟩
        exact ⟨later, ih.mpr parsedLater, rfl⟩

theorem filterMap_of_forall₂
    (parsed : List.Forall₂ (fun text entry => library.entry text = some entry) value entries) :
    value.filterMap library.entry = entries := by
  induction parsed with
  | nil => rfl
  | cons here _ ih => rw [filterMap_cons_some here, ih]

/-- The set that is written for the strings of an item. -/
theorem Library.Correct.setOf (correct : library.Correct names) (fits : Fits value) :
    Fits (library.setOf value) ∧
      (∀ range ∈ library.setOf value, range.fromAddr.isValid ∧ range.toAddr.isValid) ∧
      ∀ address, library.contains (library.setOf value) address ↔
        ∃ text ∈ value, ∃ entry, library.entry text = some entry ∧ entry.Contains address := by
  have parsed : ∀ entry ∈ value.filterMap library.entry, ∃ text,
      library.entry text = some entry := by
    intro entry member
    obtain ⟨text, -, parsed⟩ := mem_filterMap.mp member
    exact ⟨text, parsed⟩
  obtain ⟨size, valid, contains⟩ := correct.ipSet (value.filterMap library.entry)
    (Nat.lt_of_le_of_lt (length_filterMap_le _ _) fits) parsed
  refine ⟨size, valid, fun address => (contains address).trans ?_⟩
  constructor
  · rintro ⟨entry, member, contains⟩
    obtain ⟨text, listed, parsed⟩ := mem_filterMap.mp member
    exact ⟨text, listed, entry, parsed, contains⟩
  · rintro ⟨text, listed, entry, parsed, contains⟩
    exact ⟨entry, mem_filterMap.mpr ⟨text, listed, parsed⟩, contains⟩

theorem itemSettles_cidr (correct : library.Correct names)
    {update : List IPRange → Update Matcher AdGuardMatcher}
    (item : ∀ rule last, readItem library recover rule last itemType =
      (fun value => update value rule) <$> readIPSet) (other : itemType ≠ ruleItemFinal)
    (name : String) (fits : FitsStrings value) : ItemSettles library recover
      (optional (value ≠ []) (writeRuleItemCIDR library name itemType value))
      (True, fun rule => if value ≠ [] then update (library.setOf value) rule else rule) := by
  refine (itemSettles_optional item other True fun _ bytes wrote => ?_).congr
    ⟨fun _ _ => trivial, fun _ => trivial⟩ fun _ => rfl
  obtain ⟨entries, parsed, same⟩ := bind_eq_value.mp wrote
  obtain ⟨size, valid, -⟩ := correct.setOf fits.1
  rw [← filterMap_of_forall₂ (parseEntries_eq_value.mp parsed)] at same
  exact ⟨_, (Outcome.value.inj same).symm, (reads_ipSet size valid).settles⟩

/-- What the items of a rule do to the rule that is read, in their order. -/
def itemSpecs (library : Library Matcher AdGuardMatcher) (recover : Bool) (generateVersion : UInt8)
    (rule : DefaultHeadlessRule Matcher AdGuardMatcher) :
    List (Prop × (DefaultHeadlessRule Matcher AdGuardMatcher →
      DefaultHeadlessRule Matcher AdGuardMatcher)) :=
  [ (True, fun read => { read with
      queryType := if rule.queryType ≠ [] then rule.queryType else read.queryType }),
    (True, fun read => { read with
      network := if rule.network ≠ [] then rule.network else read.network }),
    (True, fun read => { read with
      domainMatcher := if rule.domain ≠ [] ∨ rule.domainSuffix ≠ [] then
        some (rule.matcher library generateVersion) else read.domainMatcher
      domain := if rule.domain ≠ [] ∨ rule.domainSuffix ≠ [] then
        if recover then (library.dump (rule.matcher library generateVersion)).1 else read.domain
        else read.domain
      domainSuffix := if rule.domain ≠ [] ∨ rule.domainSuffix ≠ [] then
        if recover then (library.dump (rule.matcher library generateVersion)).2
        else read.domainSuffix else read.domainSuffix }),
    (True, fun read => { read with
      domainKeyword := if rule.domainKeyword ≠ [] then rule.domainKeyword
        else read.domainKeyword }),
    (True, fun read => { read with
      domainRegex := if rule.domainRegex ≠ [] then rule.domainRegex else read.domainRegex }),
    (True, fun read => { read with
      sourceIPSet := if rule.sourceIPCIDR ≠ [] then some (library.setOf rule.sourceIPCIDR)
        else read.sourceIPSet
      sourceIPCIDR := if rule.sourceIPCIDR ≠ [] then
        if recover then library.prefixStrings (library.setOf rule.sourceIPCIDR)
        else read.sourceIPCIDR else read.sourceIPCIDR }),
    (True, fun read => { read with
      ipSet := if rule.ipCIDR ≠ [] then some (library.setOf rule.ipCIDR) else read.ipSet
      ipCIDR := if rule.ipCIDR ≠ [] then
        if recover then library.prefixStrings (library.setOf rule.ipCIDR) else read.ipCIDR
        else read.ipCIDR }),
    (True, fun read => { read with
      sourcePort := if rule.sourcePort ≠ [] then rule.sourcePort else read.sourcePort }),
    (True, fun read => { read with
      sourcePortRange := if rule.sourcePortRange ≠ [] then rule.sourcePortRange
        else read.sourcePortRange }),
    (True, fun read => { read with port := if rule.port ≠ [] then rule.port else read.port }),
    (True, fun read => { read with
      portRange := if rule.portRange ≠ [] then rule.portRange else read.portRange }),
    (True, fun read => { read with
      processName := if rule.processName ≠ [] then rule.processName else read.processName }),
    (True, fun read => { read with
      processPath := if rule.processPath ≠ [] then rule.processPath else read.processPath }),
    (True, fun read => { read with
      processPathRegex := if rule.processPathRegex ≠ [] then rule.processPathRegex
        else read.processPathRegex }),
    (True, fun read => { read with
      packageName := if rule.packageName ≠ [] then rule.packageName else read.packageName }),
    (True, fun read => { read with
      packageNameRegex := if rule.packageNameRegex ≠ [] then rule.packageNameRegex
        else read.packageNameRegex }),
    (True, fun read => { read with
      networkType := if rule.networkType ≠ [] then rule.networkType else read.networkType }),
    (True, fun read => { read with
      networkIsExpensive := if rule.networkIsExpensive = true then true
        else read.networkIsExpensive }),
    (True, fun read => { read with
      networkIsConstrained := if rule.networkIsConstrained = true then true
        else read.networkIsConstrained }),
    (∀ entry ∈ rule.networkInterfaceAddress.entries, ∀ rawPrefix ∈ entry.2, Addressed rawPrefix,
      fun read => { read with
        networkInterfaceAddress := if rule.networkInterfaceAddress.entries ≠ [] then
          rule.networkInterfaceAddress else read.networkInterfaceAddress }),
    (∀ rawPrefix ∈ rule.defaultInterfaceAddress, Addressed rawPrefix,
      fun read => { read with
        defaultInterfaceAddress := if rule.defaultInterfaceAddress ≠ [] then
          rule.defaultInterfaceAddress else read.defaultInterfaceAddress }),
    (True, fun read => { read with
      wifiSSID := if rule.wifiSSID ≠ [] then rule.wifiSSID else read.wifiSSID }),
    (True, fun read => { read with
      wifiBSSID := if rule.wifiBSSID ≠ [] then rule.wifiBSSID else read.wifiBSSID }),
    (True, fun read => { read with
      adGuardDomainMatcher := if rule.adGuardDomain ≠ [] then
        some (rule.adGuardMatcher library) else read.adGuardDomainMatcher
      adGuardDomain := if rule.adGuardDomain ≠ [] then
        if recover then library.dumpAdGuard (rule.adGuardMatcher library) else read.adGuardDomain
        else read.adGuardDomain }) ]

theorem itemSettles_flag
    (item : ∀ rule last, readItem library recover rule last itemType = pure (update rule))
    (other : itemType ≠ ruleItemFinal) [Decidable present] :
    ItemSettles library recover (optional present (.value [itemType]))
      (True, fun rule => if present then update rule else rule) := by
  have read : ∀ rule last, readItem library recover rule last itemType =
      (fun _ => update rule) <$> (pure () : Decoder ReadError Unit) := item
  exact itemSettles_read (fun _ => reads_pure ()) read other

/-- An item updates a rule as its specification says, whether it is present or not. -/
theorem ItemSettles.updates
    {update other : Update Matcher AdGuardMatcher}
    (settles : ItemSettles library recover item (good, update))
    (equal : ∀ rule, update rule = other rule := by intro rule; split_ifs <;> rfl) :
    ItemSettles library recover item (good, other) :=
  settles.congr Iff.rfl equal

/-- Every item does what it should. -/
theorem forall₂_itemSettles (correct : library.Correct names) (generateVersion : UInt8)
    (fits : rule.Fits) :
    List.Forall₂ (ItemSettles library recover) (defaultRuleItems library generateVersion rule)
      (itemSpecs library recover generateVersion rule) := by
  obtain ⟨words, strings, networkType, networkInterface, defaultInterface⟩ := fits
  simp only [forall_mem_cons] at words strings
  obtain ⟨queryType, sourcePort, port, -⟩ := words
  obtain ⟨network, domain, domainSuffix, domainKeyword, domainRegex, sourceIPCIDR, ipCIDR,
    sourcePortRange, portRange, processName, processPath, processPathRegex, packageName,
    packageNameRegex, wifiSSID, wifiBSSID, adGuardDomain, -⟩ := strings
  refine .cons (itemSettles_read fun _ => reads_uint16s queryType).updates ?_
  refine .cons (itemSettles_read fun _ => reads_strings network).updates ?_
  refine .cons (itemSettles_read fun present =>
    (correct.matcher _ _ _ present domain domainSuffix).1).updates ?_
  refine .cons (itemSettles_read fun _ => reads_strings domainKeyword).updates ?_
  refine .cons (itemSettles_read fun _ => reads_strings domainRegex).updates ?_
  refine .cons (itemSettles_cidr correct (fun _ _ => rfl) (by decide) "source_ip_cidr"
    sourceIPCIDR).updates ?_
  refine .cons (itemSettles_cidr correct (fun _ _ => rfl) (by decide) "ipcidr" ipCIDR).updates ?_
  refine .cons (itemSettles_read fun _ => reads_uint16s sourcePort).updates ?_
  refine .cons (itemSettles_read fun _ => reads_strings sourcePortRange).updates ?_
  refine .cons (itemSettles_read fun _ => reads_uint16s port).updates ?_
  refine .cons (itemSettles_read fun _ => reads_strings portRange).updates ?_
  refine .cons (itemSettles_read fun _ => reads_strings processName).updates ?_
  refine .cons (itemSettles_read fun _ => reads_strings processPath).updates ?_
  refine .cons (itemSettles_read fun _ => reads_strings processPathRegex).updates ?_
  refine .cons (itemSettles_read fun _ => reads_strings packageName).updates ?_
  refine .cons ((itemSettles_read fun _ => reads_strings packageNameRegex).since 5 _ _).updates ?_
  refine .cons ((itemSettles_read fun _ => reads_uint8s networkType).since 3 _ _).updates ?_
  refine .cons ((itemSettles_flag (fun _ _ => rfl) (by decide)).since 3 _ _).updates ?_
  refine .cons ((itemSettles_flag (fun _ _ => rfl) (by decide)).since 3 _ _).updates ?_
  refine .cons ((itemSettles_prefixes (fun _ _ => rfl) (by decide) (fun absent => by
    rw [absent]; exact nofun) (settles_interfaceAddresses networkInterface.1
      networkInterface.2)).since 4 _ _).updates ?_
  refine .cons ((itemSettles_prefixes (fun _ _ => rfl) (by decide) (fun absent => by
    rw [absent]; exact nofun) (settles_prefixes defaultInterface)).since 4 _ _).updates ?_
  refine .cons (itemSettles_read fun _ => reads_strings wifiSSID).updates ?_
  refine .cons (itemSettles_read fun _ => reads_strings wifiBSSID).updates ?_
  refine .cons ((itemSettles_read fun present =>
    (correct.adGuard _ present adGuardDomain).1).since 2 _ _).updates .nil

/-! ### Default rules -/

/-- The loop reads the items that are written and the final marker. -/
theorem settles_items {items : List (Outcome WriteError (List UInt8))}
    {specs : List (Prop × (Update Matcher AdGuardMatcher))}
    (settle : List.Forall₂ (ItemSettles library recover) items specs) {chunks : List (List UInt8)}
    (written : List.Forall₂ (fun item chunk => id item = .value chunk) items chunks)
    (stuck : ReadError) (invert : Bool)
    (state : DefaultHeadlessRule Matcher AdGuardMatcher × UInt8) :
    Settles (loop stuck (readStep library recover) state)
      (chunks.flatten ++ ruleItemFinal :: writeBool invert) (∀ spec ∈ specs, spec.1)
      { specs.foldl (fun rule spec => spec.2 rule) state.1 with invert } := by
  induction settle generalizing chunks state with
  | nil =>
    cases written
    have last : Reads (readStep library recover state) (ruleItemFinal :: writeBool invert)
        (.inr { state.1 with invert }) := by
      refine (reads_byte _ ruleItemFinal).bind ?_
      exact (reads_bool invert).map _
    exact last.loop_done.settles.congr ⟨fun _ => trivial, fun _ _ => nofun⟩
  | @cons item spec items specs here _ ih =>
    obtain ⟨_, _, wrote, later, rfl⟩ := forall₂_cons_left_iff.mp written
    rw [flatten_cons, append_assoc, foldl_cons]
    rcases here _ wrote with ⟨rfl, holds, same⟩ | ⟨taken, itemType, settles⟩
    · rw [same, nil_append]
      refine (ih later state).congr ?_
      rw [forall_mem_cons]
      exact and_iff_right holds
    · refine Settles.congr ?_ forall_mem_cons
      exact (settles state).loop taken (ih later _)

theorem ite_ne_nil (value : List Element) [Decidable (value ≠ [])] :
    (if value ≠ [] then value else []) = value := by
  split_ifs with present
  · rfl
  · exact (not_not.mp present).symm

theorem ite_entries_ne_nil (map : TypedMap Key Value) [Decidable (map.entries ≠ [])] :
    (if map.entries ≠ [] then map else .empty) = map := by
  split_ifs with present
  · rfl
  · exact TypedMap.ext (not_not.mp present).symm

/-- The items together give the rule that is read. -/
theorem foldl_itemSpecs (generateVersion : UInt8)
    (rule : DefaultHeadlessRule Matcher AdGuardMatcher) :
    { (itemSpecs library recover generateVersion rule).foldl (fun rule spec => spec.2 rule) {} with
      invert := rule.invert } = rule.readAs library recover generateVersion := by
  simp only [itemSpecs, foldl_cons, foldl_nil, ite_ne_nil, ite_entries_ne_nil,
    Bool.if_true_left, Bool.decide_eq_true, Bool.or_false, DefaultHeadlessRule.readAs]

theorem forall_itemSpecs (generateVersion : UInt8)
    (rule : DefaultHeadlessRule Matcher AdGuardMatcher) :
    rule.Readable ↔ ∀ spec ∈ itemSpecs library recover generateVersion rule, spec.1 := by
  simp only [itemSpecs, forall_mem_cons, true_and, not_mem_nil, false_implies,
    implies_true, and_true]
  exact ⟨fun readable => ⟨readable.1, readable.2⟩, fun both => ⟨both.1, both.2⟩⟩

theorem settles_defaultRule (recover : Bool) (correct : library.Correct names)
    {generateVersion : UInt8} (fits : rule.Fits)
    (wrote : writeDefaultRule library generateVersion rule = .value bytes) :
    ∃ payload, bytes = 0 :: payload ∧ Settles (readDefaultRule library recover) payload
      rule.Readable (rule.readAs library recover generateVersion) := by
  obtain ⟨chunks, written, same⟩ := bind_eq_value.mp wrote
  refine ⟨_, (value.inj same).symm, ?_⟩
  have items : List.Forall₂ (ItemSettles library recover) _ _ :=
    forall₂_itemSettles correct generateVersion fits
  have settles := settles_items items (mapM_eq_value.mp written)
    (.external "no progress") rule.invert ({}, 0)
  rw [foldl_itemSpecs] at settles
  exact settles.congr (forall_itemSpecs generateVersion rule)

/-! ### Rules -/

namespace HeadlessRule

/-- The logical rules nest at most so deep. -/
inductive Nests : Nat → HeadlessRule Matcher AdGuardMatcher → Prop where
  | default {depth : Nat} {options : DefaultHeadlessRule Matcher AdGuardMatcher} :
    Nests depth (.default options)
  | logical {depth : Nat} {mode : LogicalType} {rules : List (HeadlessRule Matcher AdGuardMatcher)}
    {invert : Bool} (below : ∀ rule ∈ rules, Nests depth rule) :
    Nests (depth + 1) (.logical mode rules invert)
  | unknown {depth : Nat} {type : String} : Nests depth (.unknown type)

/-- Conditions on the default rules, the logical rules and the rules of other types in a rule. -/
inductive Every (options : DefaultHeadlessRule Matcher AdGuardMatcher → Prop)
    (logical : LogicalType → List (HeadlessRule Matcher AdGuardMatcher) → Prop) (other : Prop) :
    HeadlessRule Matcher AdGuardMatcher → Prop where
  | default {rule : DefaultHeadlessRule Matcher AdGuardMatcher} (holds : options rule) :
    Every options logical other (.default rule)
  | logical {mode : LogicalType} {rules : List (HeadlessRule Matcher AdGuardMatcher)}
    {invert : Bool} (here : logical mode rules)
    (below : ∀ rule ∈ rules, Every options logical other rule) :
    Every options logical other (.logical mode rules invert)
  | unknown {type : String} (holds : other) : Every options logical other (.unknown type)

/-- All prefixes have an address. -/
abbrev Readable : HeadlessRule Matcher AdGuardMatcher → Prop :=
  Every DefaultHeadlessRule.Readable (fun _ _ => True) True

/-- The lengths are ints. -/
abbrev Fits : HeadlessRule Matcher AdGuardMatcher → Prop :=
  Every DefaultHeadlessRule.Fits (fun _ rules => Srs.Fits rules) True

def readAs (library : Library Matcher AdGuardMatcher) (recover : Bool) (generateVersion : UInt8) :
    HeadlessRule Matcher AdGuardMatcher → HeadlessRule Matcher AdGuardMatcher
  | .default options => .default (options.readAs library recover generateVersion)
  | .logical mode rules invert =>
    .logical mode (rules.map fun rule => rule.readAs library recover generateVersion) invert
  | .unknown type => .unknown type
termination_by rule => sizeOf rule
decreasing_by
  have smaller := List.sizeOf_lt_of_mem ‹_ ∈ _›
  rw [logical.sizeOf_spec]
  omega

end HeadlessRule

theorem writeEach_eq (library : Library Matcher AdGuardMatcher) (generateVersion : UInt8)
    (rules : List (HeadlessRule Matcher AdGuardMatcher)) :
    writeEach library generateVersion rules = rules.mapM (writeRule library generateVersion) := by
  induction rules with
  | nil => rw [writeEach]; rfl
  | cons rule rules ih => rw [writeEach, ih, mapM_cons]

/-- The byte of a mode is read as the mode. -/
theorem writeMode_eq_value {mode : LogicalType} {byte : UInt8}
    (wrote : writeMode mode = .value byte) :
    ¬1 < byte ∧ (if byte = 0 then LogicalType.and else .or) = mode := by
  cases mode with
  | and | or => cases wrote; exact ⟨by decide, rfl⟩
  | unknown mode => cases wrote

/-- A rule is read back from what is written for it, if its prefixes have addresses. -/
theorem settles_rule (correct : library.Correct names) {generateVersion : UInt8}
    {rule : HeadlessRule Matcher AdGuardMatcher} (nests : rule.Nests depth) (fits : rule.Fits)
    {levels : Nat} (enough : depth < levels)
    (wrote : writeRule library generateVersion rule = .value bytes) :
    Settles (readRule library recover levels) bytes rule.Readable
      (rule.readAs library recover generateVersion) := by
  obtain ⟨levels, rfl⟩ := Nat.exists_eq_succ_of_ne_zero (Nat.ne_zero_of_lt enough)
  induction nests generalizing levels bytes with
  | default =>
    cases fits with
    | default fits =>
      obtain ⟨payload, rfl, settles⟩ := settles_defaultRule recover correct fits wrote
      rw [HeadlessRule.readAs]
      refine ((reads_byte _ 0).bind_settles (settles.map _)).congr ?_
      exact ⟨fun | .default holds => holds, .default⟩
  | @logical depth mode rules invert below ih =>
    cases fits with
    | logical length each =>
      rw [writeRule, bind_eq_value] at wrote
      obtain ⟨modeByte, wroteMode, wrote⟩ := wrote
      obtain ⟨written, wroteEach, same⟩ := bind_eq_value.mp wrote
      obtain ⟨known, read⟩ := writeMode_eq_value wroteMode
      rw [writeEach_eq, mapM_eq_value] at wroteEach
      obtain rfl := value.inj same
      have shallower := Nat.lt_of_succ_lt_succ enough
      obtain ⟨levels, rfl⟩ := Nat.exists_eq_succ_of_ne_zero (Nat.ne_zero_of_lt shallower)
      have settle : ∀ rule ∈ rules, ∀ bytes, writeRule library generateVersion rule = .value bytes →
          Settles (readRule library recover levels.succ) bytes rule.Readable
            (rule.readAs library recover generateVersion) :=
        fun rule member _ wrote =>
          ih rule member (each rule member) wrote levels shallower
      have chunks := ((forall₂_and_left _ _).mpr ⟨settle, wroteEach⟩).imp
        fun rule chunk both (index : Nat) =>
          (both.1 chunk both.2).cause (ReadError.logicalRuleAt index)
      rw [HeadlessRule.readAs, ← read, append_assoc]
      refine ((reads_byte _ 1).bind_settles ((reads_byte _ modeByte).bind_settles ?_)).congr
        ⟨fun | .logical _ below => below, .logical trivial⟩
      rw [if_neg known]
      exact (reads_length length).bind_settles
        ((settles_times chunks).bind_reads ((reads_bool invert).bind_pure _))
  | unknown => rw [writeRule] at wrote; cases wrote

/-! ### What is written -/

/-- The items of a default rule are permitted for a version. -/
structure DefaultHeadlessRule.Permitted (generateVersion : UInt8)
    (rule : DefaultHeadlessRule Matcher AdGuardMatcher) : Prop where
  packageNameRegex : rule.packageNameRegex ≠ [] → 5 ≤ generateVersion
  networkType : rule.networkType ≠ [] → 3 ≤ generateVersion
  networkIsExpensive : rule.networkIsExpensive → 3 ≤ generateVersion
  networkIsConstrained : rule.networkIsConstrained → 3 ≤ generateVersion
  networkInterfaceAddress : rule.networkInterfaceAddress.entries ≠ [] → 4 ≤ generateVersion
  defaultInterfaceAddress : rule.defaultInterfaceAddress ≠ [] → 4 ≤ generateVersion
  adGuardDomain : rule.adGuardDomain ≠ [] → 2 ≤ generateVersion

/-- The addresses of a default rule can be parsed. -/
def DefaultHeadlessRule.Parses (library : Library Matcher AdGuardMatcher)
    (rule : DefaultHeadlessRule Matcher AdGuardMatcher) : Prop :=
  ∀ text ∈ rule.sourceIPCIDR ++ rule.ipCIDR, (library.entry text).isSome

def LogicalType.Known : LogicalType → Prop
  | and | or => True
  | unknown _ => False

abbrev HeadlessRule.Permitted (generateVersion : UInt8) :
    HeadlessRule Matcher AdGuardMatcher → Prop :=
  Every (DefaultHeadlessRule.Permitted generateVersion) (fun _ _ => True) True

/-- The types and modes of a rule are known, and its addresses can be parsed. -/
abbrev HeadlessRule.Writable (library : Library Matcher AdGuardMatcher) :
    HeadlessRule Matcher AdGuardMatcher → Prop :=
  Every (DefaultHeadlessRule.Parses library) (fun mode _ => mode.Known) False

theorem exists_optional [Decidable present] : (∃ bytes, optional present item = .value bytes) ↔
      (present → ∃ bytes, item = .value bytes) := by
  unfold optional
  split_ifs with here
  · exact ⟨fun written _ => written, fun written => written here⟩
  · exact ⟨fun _ there => absurd there here, fun _ => ⟨[], rfl⟩⟩

theorem exists_since {version generateVersion : UInt8} {text : String} :
    (∃ bytes, since version generateVersion text item = .value bytes) ↔
      version ≤ generateVersion ∧ ∃ bytes, item = .value bytes := by
  simp only [since_eq_value, exists_and_left, UInt8.not_lt]

theorem exists_cidr {item : String} :
    (∃ bytes, writeRuleItemCIDR library item itemType value = .value bytes) ↔
      ∀ text ∈ value, (library.entry text).isSome := by
  simp only [writeRuleItemCIDR, bind_eq_value, parseEntries_eq_value, Option.isSome_iff_exists,
    ← exists_forall₂]
  exact ⟨fun ⟨_, entries, parsed, _⟩ => ⟨entries, parsed⟩,
    fun ⟨entries, parsed⟩ => ⟨_, entries, parsed, rfl⟩⟩

theorem exists_writeDefaultRule {generateVersion : UInt8}
    (permitted : rule.Permitted generateVersion) :
    (∃ bytes, writeDefaultRule library generateVersion rule = .value bytes) ↔
      rule.Parses library := by
  have items : (∃ bytes, writeDefaultRule library generateVersion rule = .value bytes) ↔
      ∃ chunks, (defaultRuleItems library generateVersion rule).mapM id = .value chunks := by
    simp only [writeDefaultRule, bind_eq_value]
    exact ⟨fun ⟨_, chunks, written, _⟩ => ⟨chunks, written⟩,
      fun ⟨chunks, written⟩ => ⟨_, chunks, written, rfl⟩⟩
  have written (bytes : List UInt8) :
      (∃ other, (value bytes : Outcome WriteError _) = .value other) ↔ True :=
    iff_true_intro ⟨bytes, rfl⟩
  rw [items, exists_mapM_eq_value]
  simp only [defaultRuleItems, id_eq, forall_mem_cons, exists_optional, exists_since,
    exists_cidr, written, and_true, implies_true, true_and]
  have present (value : List GoString) :
      (value ≠ [] → ∀ text ∈ value, (library.entry text).isSome) ↔
        ∀ text ∈ value, (library.entry text).isSome :=
    ⟨fun each text member => each (ne_nil_of_mem member) text member, fun each _ => each⟩
  rw [present, present, DefaultHeadlessRule.Parses, forall_mem_append]
  obtain ⟨regex, type, expensive, constrained, networkInterface, defaultInterface, adGuard⟩ :=
    permitted
  exact ⟨fun parses => ⟨parses.1, parses.2.1⟩, fun parses => ⟨parses.1, parses.2, regex, type,
    expensive, constrained, networkInterface, defaultInterface, adGuard, nofun⟩⟩

theorem exists_writeRule {generateVersion : UInt8} {rule : HeadlessRule Matcher AdGuardMatcher}
    (nests : rule.Nests depth) (permitted : rule.Permitted generateVersion) :
    (∃ bytes, writeRule library generateVersion rule = .value bytes) ↔ rule.Writable library := by
  induction nests with
  | default =>
    cases permitted with
    | default permitted =>
      simp only [writeRule, exists_writeDefaultRule permitted]
      exact ⟨.default, fun | .default holds => holds⟩
  | @logical depth mode rules invert below ih =>
    cases permitted with
    | logical _ permitted =>
      have mode : (∃ byte, writeMode mode = .value byte) ↔ mode.Known := by
        cases mode with
        | and => exact ⟨fun _ => trivial, fun _ => ⟨0, rfl⟩⟩
        | or => exact ⟨fun _ => trivial, fun _ => ⟨1, rfl⟩⟩
        | unknown mode => exact ⟨nofun, nofun⟩
      have each : (∃ written, rules.mapM (writeRule library generateVersion) = .value written) ↔
          ∀ rule ∈ rules, rule.Writable library := by
        rw [exists_mapM_eq_value]
        exact forall₂_congr fun rule member =>
          ih rule member (permitted rule member)
      simp only [writeRule, bind_eq_value, writeEach_eq]
      constructor
      · rintro ⟨_, byte, wroteMode, written, wrote, -⟩
        exact .logical (mode.mp ⟨byte, wroteMode⟩) (each.mp ⟨written, wrote⟩)
      · rintro (_ | ⟨known, writable⟩)
        obtain ⟨byte, wroteMode⟩ := mode.mpr known
        obtain ⟨written, wrote⟩ := each.mpr writable
        exact ⟨_, byte, wroteMode, written, wrote, rfl⟩
  | unknown =>
    exact ⟨nofun, nofun⟩

/-! ### The same rules -/

/-- A rule that was read stands for a rule that was written: the items are the same, names are
represented by matchers that accept them, and addresses by sets that contain them. -/
structure DefaultHeadlessRule.Represents (library : Library Matcher AdGuardMatcher) (names : Names)
    (rule read : DefaultHeadlessRule Matcher AdGuardMatcher) : Prop where
  items : { read with
    domain := rule.domain
    domainSuffix := rule.domainSuffix
    domainMatcher := rule.domainMatcher
    sourceIPCIDR := rule.sourceIPCIDR
    sourceIPSet := rule.sourceIPSet
    ipCIDR := rule.ipCIDR
    ipSet := rule.ipSet
    adGuardDomain := rule.adGuardDomain
    adGuardDomainMatcher := rule.adGuardDomainMatcher } = rule
  domains : (rule.domain = [] ∧ rule.domainSuffix = []) ∧ read.domainMatcher = none ∨
    ∃ matcher, read.domainMatcher = some matcher ∧
      ∀ name, library.accepts matcher name = names.domains rule.domain rule.domainSuffix name
  sourceIP : rule.sourceIPCIDR = [] ∧ read.sourceIPSet = none ∨
    ∃ set, read.sourceIPSet = some set ∧ ∀ address, library.contains set address ↔
      ∃ text ∈ rule.sourceIPCIDR, ∃ entry, library.entry text = some entry ∧ entry.Contains address
  ip : rule.ipCIDR = [] ∧ read.ipSet = none ∨
    ∃ set, read.ipSet = some set ∧ ∀ address, library.contains set address ↔
      ∃ text ∈ rule.ipCIDR, ∃ entry, library.entry text = some entry ∧ entry.Contains address
  adGuard : rule.adGuardDomain = [] ∧ read.adGuardDomainMatcher = none ∨
    ∃ matcher, read.adGuardDomainMatcher = some matcher ∧
      ∀ name, library.acceptsAdGuard matcher name = names.adGuard rule.adGuardDomain name

/-- The rules are the same, with their modes and in their order. -/
inductive HeadlessRule.Represents (library : Library Matcher AdGuardMatcher) (names : Names) :
    HeadlessRule Matcher AdGuardMatcher → HeadlessRule Matcher AdGuardMatcher → Prop where
  | default {rule read : DefaultHeadlessRule Matcher AdGuardMatcher}
    (options : rule.Represents library names read) :
    Represents library names (.default rule) (.default read)
  | logical {mode : LogicalType} {rules reads : List (HeadlessRule Matcher AdGuardMatcher)}
    {invert : Bool} (below : List.Forall₂ (Represents library names) rules reads) :
    Represents library names (.logical mode rules invert) (.logical mode reads invert)

theorem represents_set (correct : library.Correct names) (fits : FitsStrings value) :
    value = [] ∧ (if value ≠ [] then some (library.setOf value) else none) = none ∨
      ∃ set, (if value ≠ [] then some (library.setOf value) else none) = some set ∧
        ∀ address, library.contains set address ↔
          ∃ text ∈ value, ∃ entry, library.entry text = some entry ∧ entry.Contains address := by
  by_cases present : value ≠ []
  · exact .inr ⟨_, if_pos present, (correct.setOf fits.1).2.2⟩
  · exact .inl ⟨not_not.mp present, if_neg present⟩

theorem represents_readAs (correct : library.Correct names) (recover : Bool)
    (generateVersion : UInt8) (fits : rule.Fits) :
    rule.Represents library names (rule.readAs library recover generateVersion) := by
  have strings := fits.strings
  simp only [forall_mem_cons] at strings
  obtain ⟨-, domain, domainSuffix, -, -, sourceIPCIDR, ipCIDR, -, -, -, -, -, -, -, -, -,
    adGuardDomain, -⟩ := strings
  refine ⟨rfl, ?_, represents_set correct sourceIPCIDR, represents_set correct ipCIDR, ?_⟩
  · by_cases present : rule.domain ≠ [] ∨ rule.domainSuffix ≠ []
    · exact .inr ⟨_, if_pos present, (correct.matcher _ _ _ present domain domainSuffix).2⟩
    · rw [not_or, not_not, not_not] at present
      exact .inl ⟨present, if_neg (by rw [not_or, not_not, not_not]; exact present)⟩
  · by_cases present : rule.adGuardDomain ≠ []
    · exact .inr ⟨_, if_pos present, (correct.adGuard _ present adGuardDomain).2⟩
    · exact .inl ⟨not_not.mp present, if_neg present⟩

theorem represents_rule (correct : library.Correct names) (recover : Bool)
    (generateVersion : UInt8) {rule : HeadlessRule Matcher AdGuardMatcher}
    (writable : rule.Writable library) (fits : rule.Fits) :
    rule.Represents library names (rule.readAs library recover generateVersion) := by
  induction writable with
  | default _ =>
    cases fits with
    | default fits =>
      rw [HeadlessRule.readAs]
      exact .default (represents_readAs correct recover generateVersion fits)
  | logical _ _ ih =>
    cases fits with
    | logical _ fits =>
      rw [HeadlessRule.readAs]
      refine .logical (forall₂_map_right_iff.mpr (forall₂_same.mpr ?_))
      exact fun rule member => ih rule member (fits rule member)
  | unknown never => exact never.elim

/-! ### Files -/

theorem settles_header (version : UInt8) :
    Settles readHeader (magicBytes ++ [version]) (version ≤ ruleSetVersionCurrent) version := by
  have magic : Reads (readFull 3) magicBytes magicBytes := reads_readFull rfl
  refine magic.bind_settles ?_
  refine (reads_byte _ version).bind_settles ?_
  by_cases known : version ≤ ruleSetVersionCurrent
  · rw [if_neg (UInt8.not_lt.mpr known)]
    exact (reads_pure version).settles.congr (iff_true_intro known)
  · rw [if_pos (UInt8.not_le.mp known)]
    exact ⟨fun holds => absurd holds known, fun _ => refuses_throw _ _⟩

section

variable (correct : library.Correct names) (recover : Bool) {generateVersion : UInt8}
  (nests : ∀ rule ∈ rules, rule.Nests maxLogicalRuleDepth) (length : Fits rules)
  (fits : ∀ rule ∈ rules, rule.Fits)

include correct nests length fits

theorem settles_rules {written : List (List UInt8)}
    (wrote : writeEach library generateVersion rules = .value written) :
    Settles (readRules library recover) (putUvarint rules.length ++ written.flatten)
      (∀ rule ∈ rules, rule.Readable)
      (rules.map fun rule => rule.readAs library recover generateVersion) := by
  rw [writeEach_eq, mapM_eq_value] at wrote
  have settle : ∀ rule ∈ rules, ∀ bytes, writeRule library generateVersion rule = .value bytes →
      Settles (readRule library recover (maxLogicalRuleDepth + 1)) bytes rule.Readable
        (rule.readAs library recover generateVersion) :=
    fun rule member _ wrote =>
      settles_rule correct (nests rule member) (fits rule member) (Nat.lt_succ_self _) wrote
  have chunks := ((forall₂_and_left _ _).mpr ⟨settle, wrote⟩).imp
    fun rule chunk both (index : Nat) => (both.1 chunk both.2).cause (ReadError.ruleAt index)
  exact (reads_length length).bind_settles (settles_times chunks)

/-- `Write` and then `Read` give the same rules, and all that was written is consumed. -/
def RoundTrips (library : Library Matcher AdGuardMatcher) (names : Names) (recover : Bool)
    (generateVersion : UInt8) (rules : List (HeadlessRule Matcher AdGuardMatcher)) : Prop :=
  ∃ file reads, write library rules generateVersion = .value file ∧
    read library recover file = .ok (⟨generateVersion, reads⟩, []) ∧
    List.Forall₂ (HeadlessRule.Represents library names) rules reads

/-- What the reader makes of a file that was written. -/
theorem read_written {file : List UInt8}
    (wrote : write library rules generateVersion = .value file) :
    (generateVersion ≤ ruleSetVersionCurrent ∧ (∀ rule ∈ rules, rule.Readable) →
      read library recover file = .ok (⟨generateVersion,
        rules.map fun rule => rule.readAs library recover generateVersion⟩, [])) ∧
    (¬(generateVersion ≤ ruleSetVersionCurrent ∧ ∀ rule ∈ rules, rule.Readable) →
      ∃ err, read library recover file = .error err) := by
  obtain ⟨written, wroteEach, same⟩ := bind_eq_value.mp wrote
  obtain rfl := value.inj same
  have header := settles_header generateVersion
  have body := settles_rules correct recover nests length fits wroteEach
  have split (rest : List UInt8) : magicBytes ++ generateVersion :: rest =
      magicBytes ++ [generateVersion] ++ rest := by simp
  unfold read
  rw [split]
  refine ⟨fun both => ?_, fun fails => ?_⟩
  · have whole := body.reads both.2 []
    rw [append_nil] at whole
    rw [header.reads both.1]
    dsimp only
    rw [correct.zlib]
    dsimp only
    rw [whole]
  · by_cases known : generateVersion ≤ ruleSetVersionCurrent
    · obtain ⟨err, failed⟩ := body.refuses (fun readable => fails ⟨known, readable⟩) []
      rw [append_nil] at failed
      refine ⟨err, ?_⟩
      rw [header.reads known]
      dsimp only
      rw [correct.zlib]
      dsimp only
      rw [failed]
    · obtain ⟨err, failed⟩ := header.refuses known
        (library.compress (putUvarint rules.length ++ written.flatten))
      refine ⟨err, ?_⟩
      rw [failed]

end

theorem exists_write {generateVersion : UInt8} (nests : ∀ rule ∈ rules, rule.Nests depth)
    (permitted : ∀ rule ∈ rules, rule.Permitted generateVersion) :
    (∃ file, write library rules generateVersion = .value file) ↔
      ∀ rule ∈ rules, rule.Writable library := by
  have each : (∃ written, rules.mapM (writeRule library generateVersion) = .value written) ↔
      ∀ rule ∈ rules, rule.Writable library := by
    rw [exists_mapM_eq_value]
    exact forall₂_congr fun rule member =>
      exists_writeRule (nests rule member) (permitted rule member)
  rw [← each]
  simp only [write, bind_eq_value, writeEach_eq]
  exact ⟨fun ⟨_, written, wrote, _⟩ => ⟨written, wrote⟩,
    fun ⟨written, wrote⟩ => ⟨_, written, wrote, rfl⟩⟩

/-- A rule-set whose logical rules nest at most a hundred deep and whose items are permitted for
the version round trips just when the version is known to the reader, the types, modes and
addresses are known to the writer, and every prefix has an address. -/
theorem srs_round_trip {names : Names} (correct : library.Correct names) (recover : Bool)
    (generateVersion : UInt8) {rules : List (HeadlessRule Matcher AdGuardMatcher)}
    (nests : ∀ rule ∈ rules, rule.Nests 100)
    (permitted : ∀ rule ∈ rules, rule.Permitted generateVersion) (length : Fits rules)
    (fits : ∀ rule ∈ rules, rule.Fits) :
    RoundTrips library names recover generateVersion rules ↔
      generateVersion ≤ 5 ∧ ∀ rule ∈ rules, rule.Writable library ∧ rule.Readable := by
  constructor
  · rintro ⟨file, reads, wrote, ok, -⟩
    have writable := (exists_write nests permitted).mp ⟨file, wrote⟩
    have readable : generateVersion ≤ ruleSetVersionCurrent ∧ ∀ rule ∈ rules, rule.Readable := by
      by_contra fails
      obtain ⟨err, failed⟩ := (read_written correct recover nests length fits wrote).2 fails
      rw [ok] at failed
      cases failed
    exact ⟨readable.1, fun rule member => ⟨writable rule member, readable.2 rule member⟩⟩
  · rintro ⟨known, each⟩
    have written : ∃ file, write library rules generateVersion = .value file :=
      (exists_write nests permitted).mpr fun rule member => (each rule member).1
    obtain ⟨file, wrote⟩ := written
    refine ⟨file, _, wrote, (read_written correct recover nests length fits wrote).1
      ⟨known, fun rule member => (each rule member).2⟩, ?_⟩
    refine forall₂_map_right_iff.mpr (forall₂_same.mpr fun rule member => ?_)
    exact represents_rule correct recover generateVersion (each rule member).1 (fits rule member)

end

/-! ### Instances -/

/-- A library that writes lists for matchers and does not compress. -/
def plainLibrary : Library (List GoString × List GoString) (List GoString) where
  newMatcher domain domainSuffix _ := (domain, domainSuffix)
  writeMatcher matcher :=
    (putUvarint matcher.1.length ++
      matcher.1.flatMap fun text => putUvarint text.length ++ text) ++
    (putUvarint matcher.2.length ++
      matcher.2.flatMap fun text => putUvarint text.length ++ text)
  readMatcher := do
    let domain ← readRuleItemString
    let domainSuffix ← readRuleItemString
    pure (domain, domainSuffix)
  loaded := id
  dump := id
  accepts matcher name :=
    matcher.1.contains name || matcher.2.any fun text => text.isSuffixOf name
  newAdGuardMatcher := id
  writeAdGuardMatcher matcher := putUvarint matcher.length ++
    matcher.flatMap fun text => putUvarint text.length ++ text
  readAdGuardMatcher := readRuleItemString
  loadedAdGuard := id
  dumpAdGuard := id
  acceptsAdGuard matcher name := matcher.contains name
  parsePrefix _ := none
  parseAddr text := if (Addr.fromSlice text).isValid then some (Addr.fromSlice text) else none
  buildIPSet entries := entries.map fun
    | .ofPrefix range => ⟨range.addr, range.addr⟩
    | .ofAddr address => ⟨address, address⟩
  prefixStrings set := set.map fun range => range.fromAddr.asSlice
  contains set address := set.any fun range => range.fromAddr = address
  compress := id
  decompress stream := .ok stream

def plainNames : Names where
  domains domain domainSuffix name :=
    domain.contains name || domainSuffix.any fun text => text.isSuffixOf name
  adGuard domain name := domain.contains name

theorem plainLibrary_entry {text : GoString} {entry : Entry}
    (parsed : plainLibrary.entry text = some entry) :
    ∃ address : Addr, address.isValid ∧ entry = .ofAddr address := by
  obtain ⟨address, found, rfl⟩ := Option.map_eq_some_iff.mp parsed
  refine ⟨address, ?_, rfl⟩
  obtain ⟨valid, same⟩ := Option.ite_none_right_eq_some.mp found
  rwa [← Option.some.inj same]

theorem plainLibrary_correct : plainLibrary.Correct plainNames where
  matcher domain domainSuffix _ _ fits fits' :=
    ⟨(reads_strings fits).bind ((reads_strings fits').bind_pure _), fun _ => rfl⟩
  adGuard domain _ fits := ⟨reads_strings fits, fun _ => rfl⟩
  ipSet entries fits parsed := by
    have each : ∀ entry ∈ entries, ∃ address : Addr, address.isValid ∧ entry = .ofAddr address :=
      fun entry member => plainLibrary_entry (parsed entry member).choose_spec
    refine ⟨(length_map _).trans_lt fits, fun range member => ?_, fun address => ?_⟩
    · obtain ⟨entry, listed, rfl⟩ := mem_map.mp member
      obtain ⟨address, valid, rfl⟩ := each entry listed
      exact ⟨valid, valid⟩
    · show (List.any (List.map _ entries) _ = true) ↔ _
      rw [any_eq_true]
      constructor
      · rintro ⟨range, member, same⟩
        obtain ⟨entry, listed, rfl⟩ := mem_map.mp member
        obtain ⟨other, -, rfl⟩ := each entry listed
        exact ⟨_, listed, (of_decide_eq_true same).symm⟩
      · rintro ⟨entry, listed, contains⟩
        obtain ⟨other, -, rfl⟩ := each entry listed
        exact ⟨_, mem_map_of_mem listed, decide_eq_true (Eq.symm contains)⟩
  zlib _ := rfl

/-- A rule-set with a null among the interface addresses of its rule. -/
def nullAddress : List (HeadlessRule (List GoString × List GoString) (List GoString)) :=
  [.default { defaultInterfaceAddress := [none] }]

/-- A rule-set with a null prefix is written, and the reader refuses it. -/
theorem nullAddress_refused :
    (∃ file, write plainLibrary nullAddress 4 = .value file ∧
      ∃ err, read plainLibrary false file = .error err) ∧
    ¬RoundTrips plainLibrary plainNames false 4 nullAddress := by
  have nests : ∀ rule ∈ nullAddress, rule.Nests maxLogicalRuleDepth :=
    forall_mem_singleton.mpr .default
  have permitted : ∀ rule ∈ nullAddress, rule.Permitted 4 :=
    forall_mem_singleton.mpr (.default ⟨nofun, nofun, nofun, nofun, nofun,
      fun _ => by decide, nofun⟩)
  have fits : ∀ rule ∈ nullAddress, rule.Fits := forall_mem_singleton.mpr
    (.default ⟨by decide, by decide, by decide, by decide, by decide⟩)
  have writable : ∀ rule ∈ nullAddress, rule.Writable plainLibrary :=
    forall_mem_singleton.mpr (.default nofun)
  have unreadable : ¬∀ rule ∈ nullAddress, rule.Readable := by
    intro readable
    cases readable _ (.head _) with
    | default holds => exact Bool.false_ne_true (holds.defaultInterface none (.head _))
  obtain ⟨file, wrote⟩ := (exists_write nests permitted).mpr writable
  obtain ⟨err, failed⟩ := (read_written plainLibrary_correct false nests (by decide) fits wrote).2
    fun both => unreadable both.2
  refine ⟨⟨file, wrote, err, failed⟩, ?_⟩
  rintro ⟨other, reads, wrote', ok, -⟩
  obtain rfl := Outcome.value.inj (wrote.symm.trans wrote')
  rw [failed] at ok
  cases ok

/-- A rule-set with rules of both types. -/
def mixedRules : List (HeadlessRule (List GoString × List GoString) (List GoString)) :=
  [.default { domain := [[97, 46, 98]], ipCIDR := [[10, 0, 0, 1]], networkType := [1] },
    .logical .or [.default
      { defaultInterfaceAddress := [some ⟨Prefix.prefixFrom (.v4 0x0a000000) 8, _, _, rfl⟩]
        invert := true }] false]

theorem srs_round_trip_mixedRules : RoundTrips plainLibrary plainNames true 4 mixedRules := by
  refine (srs_round_trip plainLibrary_correct true 4 ?_ ?_ (by decide) ?_).mpr
    ⟨by decide, forall_mem_cons.mpr ⟨?_, forall_mem_singleton.mpr ?_⟩⟩
  · exact forall_mem_cons.mpr ⟨.default, forall_mem_singleton.mpr
      (.logical (forall_mem_singleton.mpr .default))⟩
  · exact forall_mem_cons.mpr ⟨.default ⟨nofun, fun _ => by decide, nofun, nofun, nofun, nofun,
      nofun⟩, forall_mem_singleton.mpr (.logical trivial (forall_mem_singleton.mpr
        (.default ⟨nofun, nofun, nofun, nofun, nofun, fun _ => by decide, nofun⟩)))⟩
  · exact forall_mem_cons.mpr ⟨.default ⟨by decide, by decide, by decide, by decide,
      by decide⟩, forall_mem_singleton.mpr (.logical (by decide)
        (forall_mem_singleton.mpr (.default ⟨by decide, by decide, by decide, by decide,
          by decide⟩)))⟩
  · exact ⟨.default (forall_mem_singleton.mpr rfl), .default ⟨nofun, nofun⟩⟩
  · exact ⟨.logical trivial (forall_mem_singleton.mpr (.default nofun)),
      .logical trivial (forall_mem_singleton.mpr
        (.default ⟨nofun, forall_mem_singleton.mpr rfl⟩))⟩

end Srs

end SingBox
