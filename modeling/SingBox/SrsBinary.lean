/-
This file embeds the binary form of rule-sets. A file is a magic number, a
version and a compressed list of rules; a default rule is a list of tagged items
up to a final marker, and a logical rule holds rules again. The reader meets the
items in any order and any number of times, and guards the depth of the rules.

The compressor, the domain matchers, the parsers of addresses and the builder of
sets of addresses are not part of the repository, and stand as functions of a
library.
-/

import SingBox.Decoder
import SingBox.Netip

namespace SingBox

namespace Srs

open Decoder

/-- A string of Go is a list of bytes. -/
abbrev GoString := List UInt8

/-! ### Options -/

/-- A `badoption.Prefixable`: a prefix, which only `netip.PrefixFrom` makes. -/
structure Prefixable where
  range : Prefix
  made : ∃ addr bits, range = Prefix.prefixFrom addr bits

/-- `Prefixable.Build` with the zero prefix as the default; the pointer may be nil. -/
def build : Option Prefixable → Prefix
  | none => {}
  | some prefixable => prefixable.range

/-- A `badjson.TypedMap`: entries in the order of their insertion, one for a key. -/
@[ext] structure TypedMap (Key Value : Type) where
  entries : List (Key × Value) := []
  distinct : (entries.map Prod.fst).Nodup := by simp

def TypedMap.empty {Key Value : Type} : TypedMap Key Value := {}

/-- `TypedMap.Put`: the value of a key that is there is replaced. -/
def TypedMap.putEntry {Key Value : Type} [DecidableEq Key] (key : Key) (value : Value) :
    List (Key × Value) → List (Key × Value)
  | [] => [(key, value)]
  | entry :: rest =>
    if entry.1 = key then (key, value) :: rest else entry :: putEntry key value rest

theorem TypedMap.mem_keys_putEntry {Key Value : Type} [DecidableEq Key] {key other : Key}
    {value : Value} {entries : List (Key × Value)} :
    other ∈ (putEntry key value entries).map Prod.fst ↔
      other = key ∨ other ∈ entries.map Prod.fst := by
  induction entries with
  | nil => simp [putEntry]
  | cons entry rest ih =>
    rw [putEntry]
    split_ifs with same
    · simp [same]
    · rw [List.map_cons, List.mem_cons, ih, List.map_cons, List.mem_cons]
      exact or_left_comm

theorem TypedMap.nodup_putEntry {Key Value : Type} [DecidableEq Key] (key : Key) (value : Value)
    {entries : List (Key × Value)} (distinct : (entries.map Prod.fst).Nodup) :
    ((putEntry key value entries).map Prod.fst).Nodup := by
  induction entries with
  | nil => exact List.nodup_singleton key
  | cons entry rest ih =>
    rw [List.map_cons, List.nodup_cons] at distinct
    rw [putEntry]
    split_ifs with same
    · rw [List.map_cons, List.nodup_cons, ← same]
      exact distinct
    · rw [List.map_cons, List.nodup_cons, mem_keys_putEntry, not_or]
      exact ⟨⟨same, distinct.1⟩, ih distinct.2⟩

def TypedMap.put {Key Value : Type} [DecidableEq Key] (map : TypedMap Key Value) (key : Key)
    (value : Value) : TypedMap Key Value where
  entries := putEntry key value map.entries
  distinct := nodup_putEntry key value map.distinct

/-- A range of a `netipx.IPSet`. -/
structure IPRange where
  fromAddr : Addr
  toAddr : Addr
  deriving DecidableEq, Repr

/-- An `option.DefaultHeadlessRule`. A nil slice or map is an empty one. -/
structure DefaultHeadlessRule (Matcher AdGuardMatcher : Type) where
  queryType : List UInt16 := []
  network : List GoString := []
  domain : List GoString := []
  domainSuffix : List GoString := []
  domainKeyword : List GoString := []
  domainRegex : List GoString := []
  sourceIPCIDR : List GoString := []
  ipCIDR : List GoString := []
  sourcePort : List UInt16 := []
  sourcePortRange : List GoString := []
  port : List UInt16 := []
  portRange : List GoString := []
  processName : List GoString := []
  processPath : List GoString := []
  processPathRegex : List GoString := []
  packageName : List GoString := []
  packageNameRegex : List GoString := []
  networkType : List UInt8 := []
  networkIsExpensive : Bool := false
  networkIsConstrained : Bool := false
  wifiSSID : List GoString := []
  wifiBSSID : List GoString := []
  networkInterfaceAddress : TypedMap UInt8 (List (Option Prefixable)) := .empty
  defaultInterfaceAddress : List (Option Prefixable) := []
  invert : Bool := false
  domainMatcher : Option Matcher := none
  sourceIPSet : Option (List IPRange) := none
  ipSet : Option (List IPRange) := none
  adGuardDomain : List GoString := []
  adGuardDomainMatcher : Option AdGuardMatcher := none

/-- The mode of a logical rule; the source has a string. -/
inductive LogicalType where
  | and
  | or
  | unknown (mode : String)
  deriving DecidableEq, Repr

/-- An `option.HeadlessRule`, with the options that its type selects. -/
inductive HeadlessRule (Matcher AdGuardMatcher : Type) where
  | default (options : DefaultHeadlessRule Matcher AdGuardMatcher)
  | logical (mode : LogicalType) (rules : List (HeadlessRule Matcher AdGuardMatcher))
    (invert : Bool)
  | unknown (type : String)

/-- An `option.PlainRuleSetCompat`. -/
structure PlainRuleSetCompat (Matcher AdGuardMatcher : Type) where
  version : UInt8
  rules : List (HeadlessRule Matcher AdGuardMatcher)

/-! ### The library -/

/-- What `Read` fails with. -/
inductive ReadError where
  | eof
  | unexpectedEOF
  | overflow
  | invalid
  | invalidFile
  | unsupportedVersion (version : UInt8)
  | nestedTooDeep
  | unknownRuleType (ruleType : UInt8)
  | unknownItemType (itemType lastItemType : UInt8)
  | unknownMode (mode : UInt8)
  | ruleAt (index : Nat) (err : ReadError)
  | logicalRuleAt (index : Nat) (err : ReadError)
  | external (text : String)
  deriving DecidableEq, Repr

/-- What `Write` fails with. -/
inductive WriteError where
  | unsupported (text : String)
  | cidr (item : String) (index : Nat)
  deriving DecidableEq, Repr

/-- What is added to a `netipx.IPSetBuilder`. -/
inductive Entry where
  | ofPrefix (range : Prefix)
  | ofAddr (address : Addr)
  deriving DecidableEq, Repr

/-- The functions from outside. A matcher may be `loaded` in another form than it was written. -/
structure Library (Matcher AdGuardMatcher : Type) where
  newMatcher : List GoString → List GoString → Bool → Matcher
  writeMatcher : Matcher → List UInt8
  readMatcher : Decoder ReadError Matcher
  loaded : Matcher → Matcher
  dump : Matcher → List GoString × List GoString
  accepts : Matcher → GoString → Bool
  newAdGuardMatcher : List GoString → AdGuardMatcher
  writeAdGuardMatcher : AdGuardMatcher → List UInt8
  readAdGuardMatcher : Decoder ReadError AdGuardMatcher
  loadedAdGuard : AdGuardMatcher → AdGuardMatcher
  dumpAdGuard : AdGuardMatcher → List GoString
  acceptsAdGuard : AdGuardMatcher → GoString → Bool
  parsePrefix : GoString → Option Prefix
  parseAddr : GoString → Option Addr
  buildIPSet : List Entry → List IPRange
  prefixStrings : List IPRange → List GoString
  contains : List IPRange → Addr → Bool
  compress : List UInt8 → List UInt8
  decompress : List UInt8 → Except ReadError (List UInt8)

/-! ### Items -/

@[match_pattern] abbrev ruleItemQueryType : UInt8 := 0
@[match_pattern] abbrev ruleItemNetwork : UInt8 := 1
@[match_pattern] abbrev ruleItemDomain : UInt8 := 2
@[match_pattern] abbrev ruleItemDomainKeyword : UInt8 := 3
@[match_pattern] abbrev ruleItemDomainRegex : UInt8 := 4
@[match_pattern] abbrev ruleItemSourceIPCIDR : UInt8 := 5
@[match_pattern] abbrev ruleItemIPCIDR : UInt8 := 6
@[match_pattern] abbrev ruleItemSourcePort : UInt8 := 7
@[match_pattern] abbrev ruleItemSourcePortRange : UInt8 := 8
@[match_pattern] abbrev ruleItemPort : UInt8 := 9
@[match_pattern] abbrev ruleItemPortRange : UInt8 := 10
@[match_pattern] abbrev ruleItemProcessName : UInt8 := 11
@[match_pattern] abbrev ruleItemProcessPath : UInt8 := 12
@[match_pattern] abbrev ruleItemPackageName : UInt8 := 13
@[match_pattern] abbrev ruleItemWIFISSID : UInt8 := 14
@[match_pattern] abbrev ruleItemWIFIBSSID : UInt8 := 15
@[match_pattern] abbrev ruleItemAdGuardDomain : UInt8 := 16
@[match_pattern] abbrev ruleItemProcessPathRegex : UInt8 := 17
@[match_pattern] abbrev ruleItemNetworkType : UInt8 := 18
@[match_pattern] abbrev ruleItemNetworkIsExpensive : UInt8 := 19
@[match_pattern] abbrev ruleItemNetworkIsConstrained : UInt8 := 20
@[match_pattern] abbrev ruleItemNetworkInterfaceAddress : UInt8 := 21
@[match_pattern] abbrev ruleItemDefaultInterfaceAddress : UInt8 := 22
@[match_pattern] abbrev ruleItemPackageNameRegex : UInt8 := 23
@[match_pattern] abbrev ruleItemFinal : UInt8 := 0xFF

def maxLogicalRuleDepth : Nat := 100

def ruleSetVersionCurrent : UInt8 := 5

/-! ### Reading values -/

def readByte : Decoder ReadError UInt8 := byte .eof

/-- `io.ReadFull`. -/
def readFull (count : Nat) : Decoder ReadError (List UInt8) := full .eof .unexpectedEOF count

/-- `binary.ReadUvarint`. -/
def readUvarint : Decoder ReadError Nat := uvarint .eof .unexpectedEOF .overflow

/-- `binary.Read` into a bool. -/
def readBool : Decoder ReadError Bool := (· != 0) <$> readByte

/-- `varbin.ReadSlice` of elements of so many bytes. -/
def readSlice {Element : Type} (size : Nat) (element : List UInt8 → Element) :
    Decoder ReadError (List Element) := do
  let length ← readUvarint
  times length fun _ => element <$> readFull size

def readUint16s : Decoder ReadError (List UInt16) :=
  readSlice 2 fun bytes => UInt16.ofNat (Addr.numberOf bytes)

def readUint8s : Decoder ReadError (List UInt8) := readSlice 1 fun bytes => bytes.headD 0

def readRuleItemString : Decoder ReadError (List GoString) := do
  let length ← readUvarint
  times length fun _ => readUint8s

/-- The bytes of an address, with their number before them. -/
def readAddrBytes : Decoder ReadError (List UInt8) := do
  let addrLen ← readUvarint
  if addrLen ≠ 4 ∧ addrLen ≠ 16 then throw .invalid
  else readFull addrLen

def readPrefix : Decoder ReadError Prefixable := do
  let addrBytes ← readAddrBytes
  let prefixBits ← readByte
  pure ⟨Prefix.prefixFrom (Addr.fromSlice addrBytes) prefixBits.toNat, _, _, rfl⟩

/-- The values of an interface address item. -/
def readPrefixes : Decoder ReadError (List (Option Prefixable)) := do
  let prefixCount ← readUvarint
  times prefixCount fun _ => some <$> readPrefix

def readIPSetAddr : Decoder ReadError Addr := Addr.fromSlice <$> readAddrBytes

def readIPRange : Decoder ReadError IPRange := do
  let fromAddr ← readIPSetAddr
  let toAddr ← readIPSetAddr
  pure ⟨fromAddr, toAddr⟩

def readIPSet : Decoder ReadError (List IPRange) := do
  let version ← readByte
  if version ≠ 1 then throw .invalid
  else do
    let length ← Addr.numberOf <$> readFull 8
    times length fun _ => readIPRange

/-- An entry of `network_interface_address`. -/
def readInterfaceEntry : Decoder ReadError (UInt8 × List (Option Prefixable)) := do
  let key ← readByte
  let value ← readPrefixes
  pure (key, value)

def readInterfaceAddresses : Decoder ReadError (TypedMap UInt8 (List (Option Prefixable))) :=
  (fun entries => entries.foldl (fun map entry => map.put entry.1 entry.2) {}) <$> do
    let size ← readUvarint
    times size fun _ => readInterfaceEntry

/-! ### Reading rules -/

section Read

variable {Matcher AdGuardMatcher : Type} (library : Library Matcher AdGuardMatcher) (recover : Bool)

/-- The `switch` of `readDefaultRule`, but for the final marker. -/
def readItem (rule : DefaultHeadlessRule Matcher AdGuardMatcher) (lastItemType : UInt8)
    (itemType : UInt8) : Decoder ReadError (DefaultHeadlessRule Matcher AdGuardMatcher) :=
  match itemType with
  | ruleItemQueryType => (fun value => { rule with queryType := value }) <$> readUint16s
  | ruleItemNetwork => (fun value => { rule with network := value }) <$> readRuleItemString
  | ruleItemDomain => (fun matcher => { rule with
      domainMatcher := some matcher
      domain := if recover then (library.dump matcher).1 else rule.domain
      domainSuffix := if recover then (library.dump matcher).2 else rule.domainSuffix }) <$>
        library.readMatcher
  | ruleItemDomainKeyword =>
    (fun value => { rule with domainKeyword := value }) <$> readRuleItemString
  | ruleItemDomainRegex => (fun value => { rule with domainRegex := value }) <$> readRuleItemString
  | ruleItemSourceIPCIDR => (fun set => { rule with
      sourceIPSet := some set
      sourceIPCIDR := if recover then library.prefixStrings set else rule.sourceIPCIDR }) <$>
        readIPSet
  | ruleItemIPCIDR => (fun set => { rule with
      ipSet := some set
      ipCIDR := if recover then library.prefixStrings set else rule.ipCIDR }) <$> readIPSet
  | ruleItemSourcePort => (fun value => { rule with sourcePort := value }) <$> readUint16s
  | ruleItemSourcePortRange =>
    (fun value => { rule with sourcePortRange := value }) <$> readRuleItemString
  | ruleItemPort => (fun value => { rule with port := value }) <$> readUint16s
  | ruleItemPortRange => (fun value => { rule with portRange := value }) <$> readRuleItemString
  | ruleItemProcessName => (fun value => { rule with processName := value }) <$> readRuleItemString
  | ruleItemProcessPath => (fun value => { rule with processPath := value }) <$> readRuleItemString
  | ruleItemProcessPathRegex =>
    (fun value => { rule with processPathRegex := value }) <$> readRuleItemString
  | ruleItemPackageName => (fun value => { rule with packageName := value }) <$> readRuleItemString
  | ruleItemPackageNameRegex =>
    (fun value => { rule with packageNameRegex := value }) <$> readRuleItemString
  | ruleItemWIFISSID => (fun value => { rule with wifiSSID := value }) <$> readRuleItemString
  | ruleItemWIFIBSSID => (fun value => { rule with wifiBSSID := value }) <$> readRuleItemString
  | ruleItemAdGuardDomain => (fun matcher => { rule with
      adGuardDomainMatcher := some matcher
      adGuardDomain := if recover then library.dumpAdGuard matcher else rule.adGuardDomain }) <$>
        library.readAdGuardMatcher
  | ruleItemNetworkType => (fun value => { rule with networkType := value }) <$> readUint8s
  | ruleItemNetworkIsExpensive => pure { rule with networkIsExpensive := true }
  | ruleItemNetworkIsConstrained => pure { rule with networkIsConstrained := true }
  | ruleItemNetworkInterfaceAddress =>
    (fun value => { rule with networkInterfaceAddress := value }) <$> readInterfaceAddresses
  | ruleItemDefaultInterfaceAddress =>
    (fun value => { rule with defaultInterfaceAddress := value }) <$> readPrefixes
  | itemType => throw (.unknownItemType itemType lastItemType)

/-- The body of the loop of `readDefaultRule`, with the rule so far and the last item type. -/
def readStep (state : DefaultHeadlessRule Matcher AdGuardMatcher × UInt8) :
    Decoder ReadError ((DefaultHeadlessRule Matcher AdGuardMatcher × UInt8) ⊕
      DefaultHeadlessRule Matcher AdGuardMatcher) := do
  let itemType ← readByte
  if itemType = ruleItemFinal then
    (fun invert => .inr { state.1 with invert := invert }) <$> readBool
  else
    (fun rule => .inl (rule, itemType)) <$> readItem library recover state.1 state.2 itemType

def readDefaultRule : Decoder ReadError (DefaultHeadlessRule Matcher AdGuardMatcher) :=
  loop (.external "no progress") (readStep library recover) ({}, 0)

/-- `readLogicalRule`, with the reader of the rules below it. -/
def readLogicalRule (below : Decoder ReadError (HeadlessRule Matcher AdGuardMatcher)) :
    Decoder ReadError (HeadlessRule Matcher AdGuardMatcher) := do
  let mode ← readByte
  if 1 < mode then throw (.unknownMode mode)
  else do
    let length ← readUvarint
    let rules ← times length fun i => below.cause (.logicalRuleAt i)
    let invert ← readBool
    pure (.logical (if mode = 0 then .and else .or) rules invert)

/-- `readRule`. The argument counts the levels that are left: at the depth of the source it is
`maxLogicalRuleDepth + 1 - depth`. -/
def readRule : Nat → Decoder ReadError (HeadlessRule Matcher AdGuardMatcher)
  | 0 => throw .nestedTooDeep
  | levels + 1 => do
    let ruleType ← readByte
    match ruleType with
    | 0 => .default <$> readDefaultRule library recover
    | 1 => readLogicalRule (readRule levels)
    | ruleType => throw (.unknownRuleType ruleType)

/-- What `Read` takes from the compressed stream. -/
def readRules : Decoder ReadError (List (HeadlessRule Matcher AdGuardMatcher)) := do
  let length ← readUvarint
  times length fun i => (readRule library recover (maxLogicalRuleDepth + 1)).cause (.ruleAt i)

def magicBytes : List UInt8 := [0x53, 0x52, 0x53]

/-- The part of a file before the compressed stream. -/
def readHeader : Decoder ReadError UInt8 := do
  let magic ← readFull 3
  if magic ≠ magicBytes then throw .invalidFile
  else do
    let version ← readByte
    if version > ruleSetVersionCurrent then throw (.unsupportedVersion version)
    else pure version

/-- `Read`, with what it leaves of the compressed stream. -/
def read (file : List UInt8) :
    Except ReadError (PlainRuleSetCompat Matcher AdGuardMatcher × List UInt8) :=
  match readHeader.run file with
  | .error err => .error err
  | .ok (version, compressed) =>
    match library.decompress compressed with
    | .error err => .error err
    | .ok stream =>
      match (readRules library recover).run stream with
      | .error err => .error err
      | .ok (rules, rest) => .ok (⟨version, rules⟩, rest)

end Read

/-! ### Writing values -/

def writeBool (value : Bool) : List UInt8 := [if value then 1 else 0]

def writeRuleItemString (itemType : UInt8) (value : List GoString) : List UInt8 :=
  itemType :: (putUvarint value.length ++
    value.flatMap fun text => putUvarint text.length ++ text)

def writeRuleItemUint8 (itemType : UInt8) (value : List UInt8) : List UInt8 :=
  itemType :: (putUvarint value.length ++ value)

def writeRuleItemUint16 (itemType : UInt8) (value : List UInt16) : List UInt8 :=
  itemType :: (putUvarint value.length ++ value.flatMap fun word => Addr.bytesOf 2 word.toNat)

def writeAddr (address : Addr) : List UInt8 :=
  putUvarint address.asSlice.length ++ address.asSlice

/-- `writePrefix`. The length of an invalid prefix is -1. -/
def writePrefix (range : Prefix) : List UInt8 :=
  writeAddr range.addr ++ [if range.isValid then UInt8.ofNat (range.bitsPlusOne - 1) else 255]

def writePrefixes (value : List (Option Prefixable)) : List UInt8 :=
  putUvarint value.length ++ value.flatMap fun rawPrefix => writePrefix (build rawPrefix)

def writeIPRange (range : IPRange) : List UInt8 :=
  writeAddr range.fromAddr ++ writeAddr range.toAddr

def writeIPSet (set : List IPRange) : List UInt8 :=
  1 :: (Addr.bytesOf 8 set.length ++ set.flatMap writeIPRange)

def writeInterfaceEntry (entry : UInt8 × List (Option Prefixable)) : List UInt8 :=
  entry.1 :: writePrefixes entry.2

def writeInterfaceAddresses (map : TypedMap UInt8 (List (Option Prefixable))) : List UInt8 :=
  putUvarint map.entries.length ++ map.entries.flatMap writeInterfaceEntry

/-! ### Writing rules -/

section Write

variable {Matcher AdGuardMatcher : Type} (library : Library Matcher AdGuardMatcher)

/-- What a string of an address item stands for. -/
def Library.entry (text : GoString) : Option Entry :=
  match library.parsePrefix text with
  | some range => some (.ofPrefix range)
  | none => (library.parseAddr text).map .ofAddr

/-- The loop of `writeRuleItemCIDR`, from an index on. -/
def parseEntries (item : String) : Nat → List GoString → Outcome WriteError (List Entry)
  | _, [] => .value []
  | i, text :: rest =>
    match library.entry text with
    | some entry => do
      let entries ← parseEntries item (i + 1) rest
      pure (entry :: entries)
    | none => .error (.cidr item i)

def writeRuleItemCIDR (item : String) (itemType : UInt8) (value : List GoString) :
    Outcome WriteError (List UInt8) := do
  let entries ← parseEntries library item 0 value
  pure (itemType :: writeIPSet (library.buildIPSet entries))

/-- An item that is written if there is something to write. -/
def optional (present : Prop) [Decidable present] (item : Outcome WriteError (List UInt8)) :
    Outcome WriteError (List UInt8) :=
  if present then item else .value []

/-- An item that needs a version. -/
def since (version generateVersion : UInt8) (text : String)
    (item : Outcome WriteError (List UInt8)) : Outcome WriteError (List UInt8) :=
  if generateVersion < version then .error (.unsupported text) else item

/-- The items of a default rule, in the order in which they are written. -/
def defaultRuleItems (generateVersion : UInt8)
    (rule : DefaultHeadlessRule Matcher AdGuardMatcher) :
    List (Outcome WriteError (List UInt8)) :=
  [ optional (rule.queryType ≠ []) (.value (writeRuleItemUint16 ruleItemQueryType rule.queryType)),
    optional (rule.network ≠ []) (.value (writeRuleItemString ruleItemNetwork rule.network)),
    optional (rule.domain ≠ [] ∨ rule.domainSuffix ≠ []) (.value (ruleItemDomain ::
      library.writeMatcher (library.newMatcher rule.domain rule.domainSuffix
        (generateVersion == 1)))),
    optional (rule.domainKeyword ≠ [])
      (.value (writeRuleItemString ruleItemDomainKeyword rule.domainKeyword)),
    optional (rule.domainRegex ≠ [])
      (.value (writeRuleItemString ruleItemDomainRegex rule.domainRegex)),
    optional (rule.sourceIPCIDR ≠ [])
      (writeRuleItemCIDR library "source_ip_cidr" ruleItemSourceIPCIDR rule.sourceIPCIDR),
    optional (rule.ipCIDR ≠ []) (writeRuleItemCIDR library "ipcidr" ruleItemIPCIDR rule.ipCIDR),
    optional (rule.sourcePort ≠ [])
      (.value (writeRuleItemUint16 ruleItemSourcePort rule.sourcePort)),
    optional (rule.sourcePortRange ≠ [])
      (.value (writeRuleItemString ruleItemSourcePortRange rule.sourcePortRange)),
    optional (rule.port ≠ []) (.value (writeRuleItemUint16 ruleItemPort rule.port)),
    optional (rule.portRange ≠ []) (.value (writeRuleItemString ruleItemPortRange rule.portRange)),
    optional (rule.processName ≠ [])
      (.value (writeRuleItemString ruleItemProcessName rule.processName)),
    optional (rule.processPath ≠ [])
      (.value (writeRuleItemString ruleItemProcessPath rule.processPath)),
    optional (rule.processPathRegex ≠ [])
      (.value (writeRuleItemString ruleItemProcessPathRegex rule.processPathRegex)),
    optional (rule.packageName ≠ [])
      (.value (writeRuleItemString ruleItemPackageName rule.packageName)),
    optional (rule.packageNameRegex ≠ []) (since 5 generateVersion
      "`package_name_regex` rule item is only supported in version 5 or later"
      (.value (writeRuleItemString ruleItemPackageNameRegex rule.packageNameRegex))),
    optional (rule.networkType ≠ []) (since 3 generateVersion
      "`network_type` rule item is only supported in version 3 or later"
      (.value (writeRuleItemUint8 ruleItemNetworkType rule.networkType))),
    optional (rule.networkIsExpensive = true) (since 3 generateVersion
      "`network_is_expensive` rule item is only supported in version 3 or later"
      (.value [ruleItemNetworkIsExpensive])),
    optional (rule.networkIsConstrained = true) (since 3 generateVersion
      "`network_is_constrained` rule item is only supported in version 3 or later"
      (.value [ruleItemNetworkIsConstrained])),
    optional (rule.networkInterfaceAddress.entries ≠ []) (since 4 generateVersion
      "`network_interface_address` rule item is only supported in version 4 or later"
      (.value (ruleItemNetworkInterfaceAddress ::
        writeInterfaceAddresses rule.networkInterfaceAddress))),
    optional (rule.defaultInterfaceAddress ≠ []) (since 4 generateVersion
      "`default_interface_address` rule item is only supported in version 4 or later"
      (.value (ruleItemDefaultInterfaceAddress :: writePrefixes rule.defaultInterfaceAddress))),
    optional (rule.wifiSSID ≠ []) (.value (writeRuleItemString ruleItemWIFISSID rule.wifiSSID)),
    optional (rule.wifiBSSID ≠ [])
      (.value (writeRuleItemString ruleItemWIFIBSSID rule.wifiBSSID)),
    optional (rule.adGuardDomain ≠ []) (since 2 generateVersion
      "AdGuard rule items is only supported in version 2 or later"
      (.value (ruleItemAdGuardDomain ::
        library.writeAdGuardMatcher (library.newAdGuardMatcher rule.adGuardDomain)))) ]

def writeDefaultRule (generateVersion : UInt8)
    (rule : DefaultHeadlessRule Matcher AdGuardMatcher) : Outcome WriteError (List UInt8) := do
  let items ← (defaultRuleItems library generateVersion rule).mapM id
  pure (0 :: (items.flatten ++ ruleItemFinal :: writeBool rule.invert))

/-- The byte of a mode; there is none for an unknown one. -/
def writeMode : LogicalType → Outcome WriteError UInt8
  | .and => .value 0
  | .or => .value 1
  | .unknown _ => .panicked

mutual

/-- `writeRule`, with `writeLogicalRule`. -/
def writeRule (generateVersion : UInt8) :
    HeadlessRule Matcher AdGuardMatcher → Outcome WriteError (List UInt8)
  | .default options => writeDefaultRule library generateVersion options
  | .logical mode rules invert => do
    let modeByte ← writeMode mode
    let written ← writeEach generateVersion rules
    pure (1 :: modeByte :: (putUvarint rules.length ++ written.flatten ++ writeBool invert))
  | .unknown _ => .panicked

/-- The loop over a list of rules. -/
def writeEach (generateVersion : UInt8) :
    List (HeadlessRule Matcher AdGuardMatcher) → Outcome WriteError (List (List UInt8))
  | [] => .value []
  | rule :: rules => do
    let first ← writeRule generateVersion rule
    let later ← writeEach generateVersion rules
    pure (first :: later)

end

def write (rules : List (HeadlessRule Matcher AdGuardMatcher)) (generateVersion : UInt8) :
    Outcome WriteError (List UInt8) := do
  let written ← writeEach library generateVersion rules
  pure (magicBytes ++ generateVersion ::
    library.compress (putUvarint rules.length ++ written.flatten))

end Write

end Srs

end SingBox
