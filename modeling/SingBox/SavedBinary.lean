/-
This file embeds the saved binaries of the cache file: rule-sets, configurations of
WARP and of MASQUE, and subscriptions. Each kind has a function that saves a binary
under a tag and one that loads it. All of them use the bucket of the rule-sets, with
the tag alone as the key, so a load returns what was saved last under the tag,
whatever its kind.
-/

import SingBox.BigEndian
import SingBox.Bolt
import SingBox.Decoder
import SingBox.GoTime

namespace SingBox

open List

namespace SavedBinary

open Bolt Decoder

abbrev Bytes := List UInt8

/-- An `adapter.SavedBinary`. -/
structure Binary where
  content : Bytes
  lastUpdated : Int
  lastEtag : Bytes
  urlHash : Bytes
  deriving DecidableEq, Repr

/-! ### The binary form -/

inductive Error where
  | eof
  | unexpectedEOF
  | overflow
  | invalidLength (field : String) (length : Nat)
  deriving DecidableEq, Repr

def Error.text : Error → String
  | .eof => "EOF"
  | .unexpectedEOF => "unexpected EOF"
  | .overflow => "binary: varint overflows a 64-bit integer"
  | .invalidLength field length => "invalid " ++ field ++ " length: " ++ toString length

/-- Bytes after their number. -/
def writeBytes (data : Bytes) : Bytes := Decoder.putUvarint data.length ++ data

def marshalBinary (saved : Binary) : Bytes :=
  [2] ++ (writeBytes saved.content ++ (BigEndian.put 8 (unix saved.lastUpdated).toUInt64.toNat ++
    (writeBytes saved.lastEtag ++ writeBytes saved.urlHash)))

/-- Bytes after their number, which the rest of the reader has to have. -/
def readBytes (field : String) : Decoder Error Bytes := do
  let length ← Decoder.uvarint .eof .unexpectedEOF .overflow
  let rest ← get
  if length > rest.length then throw (.invalidLength field length)
  else Decoder.full .eof .unexpectedEOF length

def unmarshalFields : Decoder Error Binary := do
  let version ← Decoder.byte .eof
  let content ← readBytes "content"
  let lastUpdated ← Decoder.full .eof .unexpectedEOF 8
  let lastEtag ← readBytes "etag"
  let urlHash ← if version < 2 then pure [] else readBytes "url hash"
  pure
    { content := content
      lastUpdated := ofUnix (UInt64.ofNat (BigEndian.get lastUpdated)).toInt64
      lastEtag := lastEtag
      urlHash := urlHash }

def unmarshalBinary (data : Bytes) : Except Error Binary :=
  (unmarshalFields.run data).map Prod.fst

/-! ### The cache file -/

def bucketRuleSet : String := "rule_set"

/-- What is made of the value of a tag, which is empty where there is none. -/
def readSet (setBinary : Bytes) : Bolt.Tx Binary :=
  if setBinary = [] then Bolt.fail "invalid argument"
  else
    match unmarshalBinary setBinary with
    | .error err => Bolt.fail err.text
    | .ok saved => pure saved

/-- The function of the transaction that loads a binary. -/
def load (bucket : String) (tag : Bytes) : Bolt.Tx Binary := do
  if ← Bolt.hasBucket bucket then
    let setBinary ← Bolt.get bucket tag
    readSet (setBinary.getD [])
  else Bolt.fail "file does not exist"

/-- The function of the transaction that saves a binary. -/
def save [Bolt.Engine] (bucket : String) (tag : Bytes) (set : Binary) : Bolt.Tx Unit := do
  Bolt.createBucketIfNotExists bucket
  Bolt.put bucket tag (marshalBinary set)

/-- A transaction that reads: an error is no result. -/
def view {Value : Type} (db : Bolt.Database) (fn : Bolt.Tx Value) : Option Value :=
  match fn db with
  | .value (result, _) => some result
  | .error _ | .panicked | .unfinished => none

def loadRuleSet (db : Bolt.Database) (tag : Bytes) : Option Binary :=
  view db (load bucketRuleSet tag)

def saveRuleSet [Bolt.Engine] (db : Bolt.Database) (tag : Bytes) (set : Binary) :
    Bolt.Database × Except Bolt.Error Unit :=
  Bolt.batch db (save bucketRuleSet tag set)

def loadWARPConfig (db : Bolt.Database) (tag : Bytes) : Option Binary :=
  view db (load bucketRuleSet tag)

def saveWARPConfig [Bolt.Engine] (db : Bolt.Database) (tag : Bytes) (set : Binary) :
    Bolt.Database × Except Bolt.Error Unit :=
  Bolt.batch db (save bucketRuleSet tag set)

def loadMASQUEConfig (db : Bolt.Database) (tag : Bytes) : Option Binary :=
  view db (load bucketRuleSet tag)

def saveMASQUEConfig [Bolt.Engine] (db : Bolt.Database) (tag : Bytes) (set : Binary) :
    Bolt.Database × Except Bolt.Error Unit :=
  Bolt.batch db (save bucketRuleSet tag set)

def loadSubscription (db : Bolt.Database) (tag : Bytes) : Option Binary :=
  view db (load bucketRuleSet tag)

def saveSubscription [Bolt.Engine] (db : Bolt.Database) (tag : Bytes) (sub : Binary) :
    Bolt.Database × Except Bolt.Error Unit :=
  Bolt.batch db (save bucketRuleSet tag sub)

inductive Kind where
  | ruleSet
  | warpConfig
  | masqueConfig
  | subscription
  deriving DecidableEq, Repr

def Kind.load : Kind → Bolt.Database → Bytes → Option Binary
  | .ruleSet => loadRuleSet
  | .warpConfig => loadWARPConfig
  | .masqueConfig => loadMASQUEConfig
  | .subscription => loadSubscription

def Kind.save [Bolt.Engine] :
    Kind → Bolt.Database → Bytes → Binary → Bolt.Database × Except Bolt.Error Unit
  | .ruleSet => saveRuleSet
  | .warpConfig => saveWARPConfig
  | .masqueConfig => saveMASQUEConfig
  | .subscription => saveSubscription

/-- A call of one of the functions that save. -/
structure Save where
  kind : Kind
  tag : Bytes
  set : Binary
  deriving DecidableEq, Repr

def Save.apply [Bolt.Engine] (call : Save) (db : Bolt.Database) :
    Bolt.Database × Except Bolt.Error Unit :=
  call.kind.save db call.tag call.set

/-- The cache file after some calls. -/
def afterSaves [Bolt.Engine] (calls : List Save) : Bolt.Database :=
  calls.foldl (fun db call => (call.apply db).1) fun _ => none

/-! ### What the calls are for -/

/-- A call that returns no error: the database takes its tag and the size of its binary. -/
def Save.Accepted (call : Save) : Prop :=
  Bolt.Storable call.tag ∧ (marshalBinary call.set).length ≤ Bolt.maxValueSize

instance (call : Save) : Decidable call.Accepted := inferInstanceAs (Decidable (_ ∧ _))

/-- The last accepted call of a class. -/
def last (chosen : Save → Bool) (calls : List Save) : Option Save :=
  (calls.filter fun call => call.Accepted && chosen call).getLast?

/-- The last call that has saved something under the tag. -/
def lastUnder (tag : Bytes) : List Save → Option Save := last fun call => call.tag = tag

/-- The last call that has saved something of the kind under the tag. -/
def lastOf (kind : Kind) (tag : Bytes) : List Save → Option Save :=
  last fun call => call.kind = kind ∧ call.tag = tag

/-- What was saved last under the tag is of the kind, or has the content that was saved last of the
kind. -/
def Undisturbed (kind : Kind) (tag : Bytes) (calls : List Save) : Prop :=
  ∀ call, lastUnder tag calls = some call →
    call.kind = kind ∨ (lastOf kind tag calls).map (·.set.content) = some call.set.content

/-! ### The round trip of a binary -/

theorem reads_readBytes (field : String) {data : Bytes} (fits : data.length < 2 ^ 64) :
    (readBytes field).Reads (writeBytes data) data := by
  refine (reads_uvarint _ _ _ fits).bind fun rest => ?_
  have enough : ¬data.length > (data ++ rest).length := by
    rw [length_append]
    exact Nat.not_lt.mpr (Nat.le_add_right _ _)
  rw [StateT.run_bind, StateT.run_get]
  refine Eq.trans ?_ (reads_full .eof .unexpectedEOF rfl rest)
  exact congrArg (fun decoder : Decoder Error Bytes => decoder.run (data ++ rest)) (if_neg enough)

/-- What is read back: the time has lost the part of a second. -/
def Binary.truncated (saved : Binary) : Binary :=
  { saved with lastUpdated := ofUnix (unix saved.lastUpdated) }

theorem unmarshalBinary_marshalBinary {saved : Binary} (contentFits : saved.content.length < 2 ^ 64)
    (etagFits : saved.lastEtag.length < 2 ^ 64) (hashFits : saved.urlHash.length < 2 ^ 64) :
    unmarshalBinary (marshalBinary saved) = .ok saved.truncated := by
  have seconds : (UInt64.ofNat (BigEndian.get (BigEndian.put 8
      (unix saved.lastUpdated).toUInt64.toNat))).toInt64 = unix saved.lastUpdated := by
    rw [BigEndian.get_put (UInt64.toNat_lt _), UInt64.ofNat_toNat, Int64.toInt64_toUInt64]
  have reads : unmarshalFields.Reads (marshalBinary saved) saved.truncated := by
    refine (reads_byte _ _).bind ?_
    refine (reads_readBytes _ contentFits).bind ?_
    refine (reads_full _ _ (BigEndian.length_put _ _)).bind ?_
    refine (reads_readBytes _ etagFits).bind ?_
    rw [← append_nil (writeBytes saved.urlHash)]
    refine (reads_readBytes _ hashFits).bind ?_
    rw [seconds]
    exact reads_pure _
  have run := reads []
  rw [append_nil] at run
  rw [unmarshalBinary, run]
  rfl

theorem length_le_writeBytes (data : Bytes) : data.length ≤ (writeBytes data).length := by
  rw [writeBytes, length_append]
  exact Nat.le_add_left _ _

variable {call : Save} {bucket : String} {db : Bolt.Database} {calls : List Save}

/-- An accepted binary is read back. -/
theorem Save.Accepted.unmarshal (accepted : call.Accepted) :
    unmarshalBinary (marshalBinary call.set) = .ok call.set.truncated := by
  have size := accepted.2
  have content := length_le_writeBytes call.set.content
  have etag := length_le_writeBytes call.set.lastEtag
  have hash := length_le_writeBytes call.set.urlHash
  simp only [marshalBinary, length_append, maxValueSize] at size
  exact unmarshalBinary_marshalBinary (by omega) (by omega) (by omega)

theorem marshalBinary_ne_nil (saved : Binary) : marshalBinary saved ≠ [] := nofun

/-! ### One call -/

theorem Kind.load_eq (kind : Kind) (db : Bolt.Database) (tag : Bytes) :
    kind.load db tag = view db (SavedBinary.load bucketRuleSet tag) := by
  cases kind <;> rfl

theorem Kind.save_eq [Engine] (kind : Kind) (db : Bolt.Database) (tag : Bytes) (set : Binary) :
    kind.save db tag set = batch db (SavedBinary.save bucketRuleSet tag set) := by
  cases kind <;> rfl

theorem save_run [Engine] (db : Bolt.Database) (bucket : String) (tag : Bytes) (set : Binary) :
    save bucket tag set db = put bucket tag (marshalBinary set)
      (db.set bucket (some ((db bucket).getD fun _ => none))) := rfl

/-- An accepted call returns no error, and the other calls change nothing. -/
theorem Save.apply_of_accepted [Engine] [Documented] (accepted : call.Accepted)
    (db : Bolt.Database) :
    (call.apply db).2 = .ok () ∧ ∀ tag, (call.apply db).1.lookup bucketRuleSet tag =
      if tag = call.tag then some (marshalBinary call.set) else db.lookup bucketRuleSet tag := by
  have stored := (save_run db bucketRuleSet call.tag call.set).trans
    (put_of_storable (set_self _ _ _) accepted.1 accepted.2)
  rw [Save.apply, Kind.save_eq, batch_of_value stored]
  refine ⟨rfl, fun tag => ?_⟩
  rw [lookup_set_self, getD_apply]

theorem Save.apply_of_not_accepted [Engine] [Documented] (refused : ¬call.Accepted)
    (db : Bolt.Database) :
    (∃ err, (call.apply db).2 = .error err) ∧ (call.apply db).1 = db := by
  obtain ⟨err, failed⟩ := put_of_not_taken
    (set_self db bucketRuleSet (some ((db bucketRuleSet).getD fun _ => none))) refused
  rw [Save.apply, Kind.save_eq, batch_of_error ((save_run _ _ _ _).trans failed)]
  exact ⟨⟨err, rfl⟩, rfl⟩

theorem load_of_missing (tag : Bytes) (missing : db bucket = none) :
    load bucket tag db = .error (.returned "file does not exist") := by
  unfold load
  rw [bind_apply, hasBucket, missing]
  rfl

theorem load_of_present {content : Bolt.Bucket} (tag : Bytes) (present : db bucket = some content) :
    load bucket tag db = readSet ((content tag).getD []) db := by
  have got : Bolt.get bucket tag db = .value (content tag, db) := by
    unfold Bolt.get
    rw [present]
  unfold load
  rw [bind_apply, hasBucket, present]
  refine (bind_apply (get bucket tag) (fun setBinary => readSet (setBinary.getD [])) db).trans ?_
  rw [got]
  rfl

theorem view_readSet (db : Bolt.Database) (setBinary : Bytes) :
    view db (readSet setBinary) =
      if setBinary = [] then none else (unmarshalBinary setBinary).toOption := by
  unfold readSet
  by_cases empty : setBinary = []
  · rw [if_pos empty, if_pos empty]
    rfl
  · rw [if_neg empty, if_neg empty]
    cases unmarshalBinary setBinary <;> rfl

/-- What a load makes of the content of the bucket. -/
theorem Kind.load_lookup (kind : Kind) (db : Bolt.Database) (tag : Bytes) :
    kind.load db tag = (db.lookup bucketRuleSet tag).bind fun setBinary =>
      if setBinary = [] then none else (unmarshalBinary setBinary).toOption := by
  rw [Kind.load_eq, Bolt.Database.lookup]
  cases present : db bucketRuleSet with
  | none =>
    rw [view, load_of_missing tag present]
    rfl
  | some content =>
    rw [view, load_of_present tag present, ← view, view_readSet, Option.bind_some]
    cases content tag with
    | none => rfl
    | some setBinary => rfl

/-! ### All calls -/

theorem afterSaves_snoc [Engine] (calls : List Save) (call : Save) :
    afterSaves (calls ++ [call]) = (call.apply (afterSaves calls)).1 := by
  rw [afterSaves, foldl_append]
  rfl

theorem last_snoc (chosen : Save → Bool) (calls : List Save) (call : Save) :
    last chosen (calls ++ [call]) =
      if call.Accepted ∧ chosen call then some call else last chosen calls := by
  rw [last, filter_append, filter_singleton]
  by_cases counted : call.Accepted ∧ chosen call
  · have kept : (call.Accepted && chosen call) = true := by simpa using counted
    rw [if_pos counted, kept, cond_true, getLast?_concat]
  · have dropped : (call.Accepted && chosen call) = false := by simpa using counted
    rw [if_neg counted, dropped, cond_false, append_nil]
    rfl

theorem last_mem {chosen : Save → Bool} (found : last chosen calls = some call) :
    call.Accepted ∧ chosen call := by
  have member := mem_filter.mp (mem_of_getLast? found)
  simpa using member.2

/-- Under a tag stands what was saved last under it, whatever its kind. -/
theorem lookup_afterSaves [Engine] [Documented] (calls : List Save) (tag : Bytes) :
    (afterSaves calls).lookup bucketRuleSet tag =
      (lastUnder tag calls).map fun call => marshalBinary call.set := by
  induction calls using List.reverseRecOn with
  | nil => rfl
  | append_singleton calls call ih =>
    rw [afterSaves_snoc, lastUnder, last_snoc]
    by_cases accepted : call.Accepted
    · rw [(Save.apply_of_accepted accepted _).2]
      by_cases same : tag = call.tag
      · rw [if_pos same, if_pos ⟨accepted, decide_eq_true same.symm⟩]
        rfl
      · rw [if_neg same, if_neg fun both => same (of_decide_eq_true both.2).symm]
        exact ih
    · rw [(Save.apply_of_not_accepted accepted _).2, if_neg fun both => accepted both.1]
      exact ih

theorem load_afterSaves [Engine] [Documented] (calls : List Save) (kind : Kind) (tag : Bytes) :
    kind.load (afterSaves calls) tag = (lastUnder tag calls).map fun call => call.set.truncated := by
  rw [Kind.load_lookup, lookup_afterSaves]
  cases found : lastUnder tag calls with
  | none => rfl
  | some call =>
    rw [Option.map_some, Option.bind_some, if_neg (marshalBinary_ne_nil _),
      (last_mem found).1.unmarshal]
    rfl

/-- The last call of all under the tag is the last one of its own kind. -/
theorem lastOf_of_lastUnder {tag : Bytes} (found : lastUnder tag calls = some call) :
    lastOf call.kind tag calls = some call := by
  induction calls using List.reverseRecOn with
  | nil => exact nomatch found
  | append_singleton calls later ih =>
    rw [lastUnder, last_snoc] at found
    rw [lastOf, last_snoc]
    by_cases counted : later.Accepted ∧ decide (later.tag = tag)
    · rw [if_pos counted] at found
      cases found
      exact if_pos ⟨counted.1, decide_eq_true ⟨rfl, of_decide_eq_true counted.2⟩⟩
    · rw [if_neg counted] at found
      rw [if_neg fun both =>
        counted ⟨both.1, decide_eq_true (of_decide_eq_true both.2).2⟩]
      exact ih found

theorem lastOf_of_lastUnder_eq_none {tag : Bytes} (kind : Kind)
    (missing : lastUnder tag calls = none) : lastOf kind tag calls = none := by
  cases found : lastOf kind tag calls with
  | none => rfl
  | some call =>
    have counted := last_mem found
    have dropped := filter_eq_nil_iff.mp (getLast?_eq_none_iff.mp missing) call
      (mem_filter.mp (mem_of_getLast? found)).1
    refine absurd ?_ dropped
    simpa using ⟨counted.1, (of_decide_eq_true counted.2).2⟩

/-- A load returns the content of the last save of its kind under the tag, or nothing if there was
none, just if the saves of the other kinds have left the tag undisturbed. -/
theorem load_last_iff [Engine] [Documented] (calls : List Save) (kind : Kind) (tag : Bytes) :
    (kind.load (afterSaves calls) tag).map Binary.content =
        (lastOf kind tag calls).map (·.set.content) ↔
      Undisturbed kind tag calls := by
  rw [load_afterSaves, Option.map_map, Undisturbed]
  cases found : lastUnder tag calls with
  | none =>
    rw [lastOf_of_lastUnder_eq_none kind found]
    exact iff_of_true rfl nofun
  | some call =>
    constructor
    · rintro same other ⟨⟩
      exact .inr same.symm
    · intro undisturbed
      rcases undisturbed call rfl with rfl | same
      · rw [lastOf_of_lastUnder found]
        rfl
      · exact same.symm

/-- A rule-set and a subscription under one tag. -/
def sharedTag : List Save :=
  [⟨.ruleSet, [0x61], ⟨[1], 0, [], []⟩⟩, ⟨.subscription, [0x61], ⟨[2], 0, [], []⟩⟩]

section

attribute [local instance] bbolt documented_bbolt

/-- The subscription of the tag is loaded with the content that was saved last. -/
theorem load_last_iff_sharedTag :
    (Kind.subscription.load (afterSaves sharedTag) [0x61]).map Binary.content =
      (lastOf .subscription [0x61] sharedTag).map (·.set.content) := by
  refine (load_last_iff sharedTag .subscription [0x61]).mpr fun call found => .inl ?_
  have last : (lastUnder [0x61] sharedTag).map Save.kind = some .subscription := by decide +kernel
  rw [found] at last
  exact Option.some.inj last

/-- The rule-set of the tag is loaded with the content of the subscription. -/
theorem sharedTag_overwritten :
    (lastOf .ruleSet [0x61] sharedTag).map (·.set.content) = some [1] ∧
      (loadRuleSet (afterSaves sharedTag) [0x61]).map Binary.content = some [2] := by
  decide +kernel

end

end SavedBinary

end SingBox
