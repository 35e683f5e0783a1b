/-
This file embeds the DNS cache of the cache file. A response is saved by putting it
into a map of pending saves; a goroutine for its key writes it to the database and
takes it out of the map, unless it has been replaced in the meantime, which the
sequence number of the entry tells. A load looks into the map first and then into the
database. Clearing the cache empties the map and then deletes the bucket.

The steps of the machine are the sections under the lock of the map and the
transactions of the database. Its history says what was saved, in which order, and what
the loads have returned.
-/

import SingBox.BigEndian
import SingBox.Bolt
import SingBox.GoTime
import SingBox.Machine

namespace SingBox

namespace DnsStore

abbrev Bytes := List UInt8

structure SaveCacheKey where
  transportName : Bytes
  questionName : Bytes
  qType : UInt16
  deriving DecidableEq, Repr

/-- What is saved: a packed message and the time at which it expires. -/
structure Response where
  rawMessage : Bytes
  expireAt : Int
  deriving DecidableEq, Repr

/-- A `saveDNSCacheEntry`. Its last field is history: the place of the save among all saves. -/
structure Entry where
  rawMessage : Bytes := []
  expireAt : Int := 0
  sequence : UInt64 := 0
  saving : Bool := false
  place : Nat := 0
  deriving DecidableEq, Repr

def Entry.response (entry : Entry) : Response := ⟨entry.rawMessage, entry.expireAt⟩

/-! ### The database -/

/-- The bucket of the DNS cache, if it exists, with its bucket for each transport name. -/
def Tree := Option (Bytes → Option Bolt.Bucket)

def recordKey (key : SaveCacheKey) : Bytes := BigEndian.put 2 key.qType.toNat ++ key.questionName

def recordValue (response : Response) : Bytes :=
  BigEndian.put 8 (unix response.expireAt).toUInt64.toNat ++ response.rawMessage

/-- `SaveDNSCache`: one transaction. That its commit fails is a fault of the flush. -/
def saveDNSCache [Bolt.Engine] (db : Tree) (key : SaveCacheKey) (response : Response) :
    Except Bolt.Error Tree :=
  let root := Option.getD db fun _ => none
  match Bolt.Engine.createError key.transportName with
  | some err => .error err
  | none =>
    match Bolt.Engine.putError (recordKey key) (recordValue response) with
    | some err => .error err
    | none =>
      .ok (some fun name =>
        if name = key.transportName then
          some fun other =>
            if other = recordKey key then some (recordValue response)
            else ((root key.transportName).getD fun _ => none) other
        else root name)

def Tree.content (db : Tree) (key : SaveCacheKey) : Option Bytes := do
  let root ← show Option _ from db
  let bucket ← root key.transportName
  bucket (recordKey key)

/-- What the transaction of `LoadDNSCache` makes of a content. -/
def decode (content : Bytes) : Option Response :=
  if content.length < 8 then none
  else
    some
      { rawMessage := content.drop 8
        expireAt := ofUnix (UInt64.ofNat (BigEndian.get (content.take 8))).toInt64 }

/-- What the transaction of `LoadDNSCache` finds. -/
def viewDNSCache (db : Tree) (key : SaveCacheKey) : Option Response := db.content key >>= decode

/-! ### The machine -/

/-- Where a goroutine of `flushPendingDNSCacheWith` is in its loop. -/
inductive Phase where
  | read
  | save (entry : Entry)
  | check (entry : Entry)
  | done
  deriving DecidableEq, Repr

structure Flusher where
  key : SaveCacheKey
  phase : Phase
  deriving DecidableEq, Repr

/-- A load that has not found its key among the pending saves. It started after the given number of
saves. -/
structure Load where
  key : SaveCacheKey
  begun : Nat
  deriving DecidableEq, Repr

/-- What a load has returned, with the numbers of saves before it started, before the last start of
a clear, and before the start of a clear that has returned. -/
structure Answer where
  key : SaveCacheKey
  begun : Nat
  floor : Nat
  cleared : Nat
  result : Option Response
  deriving DecidableEq, Repr

/-- The store. A clear that is running is listed with the number of saves before it. The last fields
are history: the saves, the place of the save that the database has for a key, the numbers of saves
before the last start of a clear and before the start of a clear that has returned, and the
answers. -/
structure Store where
  pending : SaveCacheKey → Option Entry := fun _ => none
  db : Tree := none
  flushers : List Flusher := []
  clears : List Nat := []
  loads : List Load := []
  saves : List (SaveCacheKey × Response) := []
  stored : SaveCacheKey → Option Nat := fun _ => none
  floor : Nat := 0
  cleared : Nat := 0
  answers : List Answer := []

/-- A flush may be told that its transaction fails, for a reason outside of the program. -/
inductive Event where
  | save (key : SaveCacheKey) (response : Response)
  | flush (index : Nat) (fault : Bool)
  | clearStart
  | clearEnd (index : Nat)
  | loadStart (key : SaveCacheKey)
  | loadEnd (index : Nat)
  deriving DecidableEq, Repr

/-- `queueDNSCacheSave`: the entry for a save. -/
def Store.queued (store : Store) (key : SaveCacheKey) (response : Response) : Entry :=
  let entry := (store.pending key).getD {}
  { rawMessage := response.rawMessage
    expireAt := response.expireAt
    sequence := entry.sequence + 1
    saving := true
    place := store.saves.length }

/-- A map with another value for a key. -/
def put {Value : Type} (map : SaveCacheKey → Option Value) (key : SaveCacheKey)
    (value : Option Value) : SaveCacheKey → Option Value :=
  fun other => if other = key then value else map other

/-- `SaveDNSCacheAsync`. -/
def Store.save (store : Store) (key : SaveCacheKey) (response : Response) : Store :=
  let startFlush := !((store.pending key).getD {}).saving
  { store with
    pending := put store.pending key (some (store.queued key response))
    saves := store.saves ++ [(key, response)]
    flushers := if startFlush then store.flushers ++ [⟨key, .read⟩] else store.flushers }

def Store.setPhase (store : Store) (index : Nat) (key : SaveCacheKey) (phase : Phase) : Store :=
  { store with flushers := store.flushers.set index ⟨key, phase⟩ }

/-- The next section of a goroutine of `flushPendingDNSCacheWith`. -/
def Store.flush [Bolt.Engine] (store : Store) (index : Nat) (fault : Bool) : Store :=
  match store.flushers[index]? with
  | none => store
  | some ⟨key, .read⟩ =>
    match store.pending key with
    | none => store.setPhase index key .done
    | some entry => store.setPhase index key (.save entry)
  | some ⟨key, .save entry⟩ =>
    match if fault then .error (.returned "fault") else
        saveDNSCache store.db key entry.response with
    | .error _ => store.setPhase index key (.check entry)
    | .ok db =>
      { store with db := db, stored := put store.stored key (some entry.place) }.setPhase index key
        (.check entry)
  | some ⟨key, .check entry⟩ =>
    match store.pending key with
    | none => store.setPhase index key .done
    | some current =>
      if current.sequence ≠ entry.sequence then store.setPhase index key .read
      else { store with pending := put store.pending key none }.setPhase index key .done
  | some ⟨_, .done⟩ => store

/-- The first section of `ClearDNSCache`. -/
def Store.clearStart (store : Store) : Store :=
  { store with
    pending := fun _ => none
    clears := store.clears ++ [store.saves.length]
    floor := store.saves.length }

/-- The transaction of a running `ClearDNSCache`. -/
def Store.clearEnd (store : Store) (index : Nat) : Store :=
  match store.clears[index]? with
  | none => store
  | some begun =>
    { store with
      db := none
      stored := fun _ => none
      clears := store.clears.eraseIdx index
      cleared := max store.cleared begun }

/-- The first section of `LoadDNSCache`. -/
def Store.loadStart (store : Store) (key : SaveCacheKey) : Store :=
  match store.pending key with
  | some entry =>
    { store with answers := store.answers ++
        [⟨key, store.saves.length, store.floor, store.cleared, some entry.response⟩] }
  | none => { store with loads := store.loads ++ [⟨key, store.saves.length⟩] }

/-- The transaction of a running `LoadDNSCache`. -/
def Store.loadEnd (store : Store) (index : Nat) : Store :=
  match store.loads[index]? with
  | none => store
  | some load =>
    { store with
      loads := store.loads.eraseIdx index
      answers := store.answers ++
        [⟨load.key, load.begun, store.floor, store.cleared, viewDNSCache store.db load.key⟩] }

def Store.step [Bolt.Engine] (store : Store) : Event → Store
  | .save key response => store.save key response
  | .flush index fault => store.flush index fault
  | .clearStart => store.clearStart
  | .clearEnd index => store.clearEnd index
  | .loadStart key => store.loadStart key
  | .loadEnd index => store.loadEnd index

def run [Bolt.Engine] (events : List Event) : Store := Machine.drive Store.step {} events

end DnsStore

end SingBox
