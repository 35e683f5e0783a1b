/-
This file embeds the two checks that the server of the sudoku transport makes of a
client hello: the timestamp of the hello may be at most 60 seconds away from the time of
the server, in whole seconds, and the nonce must not be among those of the last 60
seconds. The nonces of a user are kept in a map from the nonce to its expiry, which is
swept at most every 30 seconds, or when it has become too large.

The lifetime of a nonce starts when the hello is accepted, and the time in which the
timestamp is good ends 61 seconds after the timestamp. So a hello is good for longer than
its nonce is remembered, unless its timestamp is already more than a second old when it is
accepted. With fewer than 4096 nonces in 60 seconds this is the only way in.
-/

import SingBox.Log
import SingBox.GoTime
import SingBox.Machine
import Mathlib

namespace SingBox

open Machine Log

namespace Kip

def handshakeReplayTTL : Int := 60 * second

def kipHandshakeSkew : Int := 60 * second

abbrev Nonce := Vector UInt8 16

abbrev UserHash := Vector UInt8 8

open List

/-- The fields of a client hello that the checks read. -/
structure ClientHello where
  userHash : UserHash
  nonce : Nonce
  timestamp : Int64
  deriving DecidableEq, Repr

/-! ### The nonces of a user -/

structure NonceSet where
  m : List (Nonce × Int) := []
  maxEntries : Nat
  lastPrune : Int
  deriving DecidableEq, Repr

/-- The zero value of a time, the first of January of the year 1. -/
def zeroTime : Int := -62135596800 * second

def newNonceSet (maxEntries : Nat) : NonceSet where
  maxEntries := if maxEntries ≤ 0 then 4096 else maxEntries
  lastPrune := zeroTime

/-- The difference of two times is a duration of 64 bits, which saturates. -/
def sub (later earlier : Int) : Int := max (-2 ^ 63) (min (2 ^ 63 - 1) (later - earlier))

/-- The loop that deletes entries while there are too many. It deletes the entry that the iteration
over the map comes to first, which may be any of them. -/
def evict (pick : Nat → Nat) (maxEntries : Nat) : Nat → List (Nonce × Int) → List (Nonce × Int)
  | 0, m => m
  | rounds + 1, m =>
    if m.length ≤ maxEntries then m
    else evict pick maxEntries rounds (m.eraseIdx (pick rounds % m.length))

/-- The sweep at the beginning of `allow`. -/
def NonceSet.sweep (pick : Nat → Nat) (set : NonceSet) (now : Int) (ttl : Int) : NonceSet :=
  if sub now set.lastPrune > ttl / 2 ∨ set.m.length > set.maxEntries then
    let live := set.m.filter fun entry => now < entry.2
    { set with m := evict pick set.maxEntries live.length live, lastPrune := now }
  else set

def NonceSet.allow (pick : Nat → Nat) (set : NonceSet) (nonce : Nonce) (now : Int) (ttl : Int) :
    Bool × NonceSet :=
  let ttl := if ttl ≤ 0 then 60 * second else ttl
  let swept := set.sweep pick now ttl
  if ∃ expiry ∈ swept.m.lookup nonce, now < expiry then (false, swept)
  else (true, { swept with m := (nonce, now + ttl) :: swept.m.filter fun entry => entry.1 ≠ nonce })

/-! ### The protector -/

/-- The sets of the users, under the hexadecimal texts of their hashes. -/
abbrev Protector := String → Option NonceSet

def Protector.allow (pick : Nat → Nat) (protector : Protector) (userHash : String) (nonce : Nonce)
    (now : Int) : Bool × Protector :=
  let userHash := if userHash = "" then "_" else userHash
  let set := (protector userHash).getD (newNonceSet 4096)
  let (allowed, after) := set.allow pick nonce now handshakeReplayTTL
  (allowed, fun key => if key = userHash then some after else protector key)

def hextable : List Char := "0123456789abcdef".toList

def encodeToString (src : List UInt8) : String :=
  String.ofList (src.flatMap fun byte =>
    [hextable.getD (byte / 16).toNat '0', hextable.getD (byte % 16).toNat '0'])

/-! ### Handshakes -/

/-- A handshake: the hello, the time of the check of its timestamp, the time of the check of its
nonce, and the order of the iterations over the map. -/
structure Handshake where
  hello : ClientHello
  clock : Int
  now : Int
  pick : Nat → Nat

def absInt64 (v : Int64) : Int64 := if v < 0 then -v else v

/-- The check of the timestamp. -/
def skewed (clock : Int) (timestamp : Int64) : Bool :=
  absInt64 (unix clock - timestamp) > Int64.ofInt (kipHandshakeSkew / second)

/-- The process: its protector and, as its history, the handshakes that have passed. -/
structure Server where
  protector : Protector := fun _ => none
  passed : List Handshake := []

/-- `ServerHandshake`, as far as its two checks. -/
def Server.handshake (server : Server) (handshake : Handshake) : Server :=
  if skewed handshake.clock handshake.hello.timestamp then server
  else
    let (allowed, protector) := server.protector.allow handshake.pick
      (encodeToString handshake.hello.userHash.toList) handshake.hello.nonce handshake.now
    { protector := protector
      passed := if allowed then server.passed ++ [handshake] else server.passed }

def serve (handshakes : List Handshake) : Server := Machine.drive Server.handshake {} handshakes

/-! ### Runs -/

/-- The times of a run: the checks of the nonces happen one after the other, each at most the given
delay after the check of the timestamp, and the clock shows times of Unix. -/
structure Clocked (delay : Int) (handshakes : List Handshake) : Prop where
  ordered : handshakes.Pairwise fun first second => first.now ≤ second.now
  checked : ∀ handshake ∈ handshakes,
    handshake.clock ≤ handshake.now ∧ handshake.now ≤ handshake.clock + delay
  range : ∀ handshake ∈ handshakes, 0 ≤ handshake.clock ∧ handshake.now < 2 ^ 61 * second

/-- A nonce of a user is presented in the lifetime that ends at the given time. -/
def Presented (handshakes : List Handshake) (userHash : UserHash) (time : Int) (nonce : Nonce) :
    Prop :=
  ∃ handshake ∈ handshakes, handshake.hello.userHash = userHash ∧
    handshake.hello.nonce = nonce ∧ time < handshake.now + handshakeReplayTTL ∧
    handshake.now ≤ time

/-- Fewer than 4096 nonces of a user are presented in a lifetime. -/
def Sparse (handshakes : List Handshake) : Prop :=
  ∀ (userHash : UserHash) (time : Int) (nonces : List Nonce), nonces.Nodup →
    (∀ nonce ∈ nonces, Presented handshakes userHash time nonce) → nonces.length < 4096

/-- The timestamp is more than a second old, and more than the delay, when the hello is accepted. -/
def Late (delay : Int) (handshake : Handshake) : Prop :=
  (handshake.hello.timestamp.toInt + 1) * second + delay ≤ handshake.now

/-! ### Hexadecimal texts -/

theorem hextable_inj : ∀ one < 16, ∀ two < 16,
    hextable.getD one '0' = hextable.getD two '0' → one = two := by
  decide

theorem encode_byte_inj {one two : UInt8}
    (high : hextable.getD (one / 16).toNat '0' = hextable.getD (two / 16).toNat '0')
    (low : hextable.getD (one % 16).toNat '0' = hextable.getD (two % 16).toNat '0') :
    one = two := by
  have first := one.toNat_lt
  have second := two.toNat_lt
  have quotient := hextable_inj _ (by rw [UInt8.toNat_div]; exact Nat.div_lt_of_lt_mul first) _
    (by rw [UInt8.toNat_div]; exact Nat.div_lt_of_lt_mul second) high
  have remainder := hextable_inj _ (by rw [UInt8.toNat_mod]; exact Nat.mod_lt _ (by decide)) _
    (by rw [UInt8.toNat_mod]; exact Nat.mod_lt _ (by decide)) low
  refine UInt8.toNat_inj.mp ?_
  rw [← Nat.div_add_mod one.toNat 16, ← Nat.div_add_mod two.toNat 16]
  exact congrArg₂ _ (congrArg _ quotient) remainder

theorem encodeToString_inj {one two : List UInt8} (same : encodeToString one = encodeToString two) :
    one = two := by
  have chars := String.ofList_injective same
  clear same
  induction one generalizing two with
  | nil =>
    cases two with
    | nil => rfl
    | cons byte rest => cases chars
  | cons first others ih =>
    cases two with
    | nil => cases chars
    | cons byte rest =>
      rw [flatMap_cons, flatMap_cons, cons_append, cons_append,
        cons_append, cons_append, nil_append, nil_append, cons.injEq,
        cons.injEq] at chars
      rw [encode_byte_inj chars.1 chars.2.1, ih chars.2.2]

/-- The text under which the set of a user is kept. -/
def key (userHash : UserHash) : String := encodeToString userHash.toList

theorem key_inj {one two : UserHash} (same : key one = key two) : one = two :=
  Vector.toList_inj.mp (encodeToString_inj same)

theorem key_ne_empty (userHash : UserHash) : key userHash ≠ "" := by
  intro empty
  have nothing : userHash.toList = [] := encodeToString_inj (empty.trans rfl)
  have length := congrArg length nothing
  rw [Vector.length_toList] at length
  cases length

/-! ### What a set remembers -/

/-- What the set of a user holds after some nonces were presented and some of them accepted, each
with its time. An accepted nonce is in the set until it has expired. -/
structure Tracks (set : NonceSet) (shown passed : List (Nonce × Int)) (latest : Int) :
    Prop where
  keys : (set.m.map Prod.fst).Nodup
  source : ∀ entry ∈ set.m, (entry.1, entry.2 - handshakeReplayTTL) ∈ shown
  kept : ∀ accepted ∈ passed, accepted.2 + handshakeReplayTTL ≤ latest ∨
    ∃ expiry, (accepted.1, expiry) ∈ set.m ∧ accepted.2 + handshakeReplayTTL ≤ expiry
  size : set.maxEntries = 4096

/-- Few nonces are in their lifetime at the given time. -/
def Few (shown : List (Nonce × Int)) (now : Int) : Prop :=
  ∀ nonces : List Nonce, nonces.Nodup →
    (∀ nonce ∈ nonces, ∃ time, (nonce, time) ∈ shown ∧ now < time + handshakeReplayTTL) →
    nonces.length < 4096

variable {pick : Nat → Nat} {set : NonceSet} {shown passed : List (Nonce × Int)}
  {latest now : Int} {nonce : Nonce}

theorem evict_of_le {maxEntries : Nat} {m : List (Nonce × Int)} (fits : m.length ≤ maxEntries)
    (rounds : Nat) : evict pick maxEntries rounds m = m := by
  cases rounds with
  | zero => rfl
  | succ rounds => exact if_pos fits

theorem Tracks.mono (tracks : Tracks set shown passed latest) {more : List (Nonce × Int)}
    (added : shown ⊆ more) (later : latest ≤ now) : Tracks set more passed now := { tracks with
  source entry member := added (tracks.source entry member)
  kept accepted member := (tracks.kept accepted member).imp_left fun old => old.trans later }

/-- The sweep forgets only what has expired. -/
theorem Tracks.sweep (tracks : Tracks set shown passed latest) (later : latest ≤ now)
    (few : Few shown now) :
    Tracks (set.sweep pick now handshakeReplayTTL) shown passed now := by
  rw [NonceSet.sweep]
  split_ifs
  · have source : ∀ entry ∈ set.m.filter fun entry => now < entry.2,
        (entry.1, entry.2 - handshakeReplayTTL) ∈ shown := fun entry member =>
      tracks.source entry (mem_of_mem_filter member)
    have keys : ((set.m.filter fun entry => now < entry.2).map Prod.fst).Nodup :=
      tracks.keys.sublist (filter_sublist.map _)
    have fits : (set.m.filter fun entry => now < entry.2).length ≤ set.maxEntries := by
      have below := few _ keys fun other member => by
        obtain ⟨entry, found, rfl⟩ := mem_map.mp member
        refine ⟨_, source entry found, ?_⟩
        rw [sub_add_cancel]
        exact of_decide_eq_true (mem_filter.mp found).2
      rw [length_map] at below
      rw [tracks.size]
      exact Nat.le_of_lt below
    dsimp only
    rw [evict_of_le fits]
    refine ⟨keys, source, fun accepted member => ?_, tracks.size⟩
    rcases tracks.kept accepted member with old | ⟨expiry, found, bound⟩
    · exact .inl (old.trans later)
    · rcases Int.lt_or_le now expiry with live | dead
      · exact .inr ⟨expiry, mem_filter.mpr ⟨found, decide_eq_true live⟩, bound⟩
      · exact .inl (bound.trans dead)
  · exact tracks.mono (List.Subset.refl _) later

theorem mem_lookup (keys : (set.m.map Prod.fst).Nodup) {expiry : Int} :
    expiry ∈ set.m.lookup nonce ↔ (nonce, expiry) ∈ set.m := by
  generalize set.m = m at keys
  induction m with
  | nil => exact ⟨nofun, nofun⟩
  | cons entry rest ih =>
    obtain ⟨first, time⟩ := entry
    rw [map_cons, nodup_cons] at keys
    rw [lookup_cons, mem_cons, Prod.mk.injEq]
    by_cases same : nonce = first
    · subst same
      have absent : (nonce, expiry) ∉ rest := fun found =>
        keys.1 (mem_map.mpr ⟨_, found, rfl⟩)
      simp [absent, eq_comm]
    · simp only [beq_eq_false_iff_ne.mpr same, same, false_and, false_or]
      exact ih keys.2

/-- What `allow` does with a set: it refuses a nonce whose entry has not expired, and otherwise it
accepts and remembers it. -/
theorem Tracks.allow_cases (tracks : Tracks set shown passed latest) (later : latest ≤ now)
    (few : Few shown now) :
    ((set.allow pick nonce now handshakeReplayTTL).1 = false ∧
        (∃ time, (nonce, time) ∈ shown ∧ now < time + handshakeReplayTTL) ∧
        Tracks (set.allow pick nonce now handshakeReplayTTL).2 shown passed now) ∨
      ((set.allow pick nonce now handshakeReplayTTL).1 = true ∧
        (∀ time, (nonce, time) ∈ passed → time + handshakeReplayTTL ≤ now) ∧
        Tracks (set.allow pick nonce now handshakeReplayTTL).2 (shown ++ [(nonce, now)])
          (passed ++ [(nonce, now)]) now) := by
  have swept := @Tracks.sweep pick _ _ _ _ _ tracks later few
  have lifetime : (if handshakeReplayTTL ≤ 0 then 60 * second else handshakeReplayTTL) =
      handshakeReplayTTL := rfl
  rw [NonceSet.allow, lifetime]
  generalize set.sweep pick now handshakeReplayTTL = set at swept ⊢
  split_ifs with refused
  · obtain ⟨expiry, found, live⟩ := refused
    refine .inl ⟨rfl, ⟨_, swept.source _ ((mem_lookup swept.keys).mp found), ?_⟩, swept⟩
    rw [sub_add_cancel]
    exact live
  · have expired : ∀ expiry, (nonce, expiry) ∈ set.m → expiry ≤ now := fun expiry found =>
      Int.not_lt.mp fun live => refused ⟨expiry, (mem_lookup swept.keys).mpr found, live⟩
    refine .inr ⟨rfl, fun time member => ?_, ?_, fun entry member => ?_, fun accepted member => ?_,
      swept.size⟩
    · rcases swept.kept _ member with old | ⟨expiry, found, bound⟩
      · exact old
      · exact bound.trans (expired expiry found)
    · rw [map_cons, nodup_cons]
      refine ⟨fun found => ?_, swept.keys.sublist (filter_sublist.map _)⟩
      obtain ⟨entry, member, same⟩ := mem_map.mp found
      exact of_decide_eq_true (mem_filter.mp member).2 same
    · rcases mem_cons.mp member with rfl | old
      · rw [add_sub_cancel_right]
        exact mem_concat_self
      · exact mem_append_left _ (swept.source entry (mem_of_mem_filter old))
    · rcases mem_append.mp member with old | new
      · rcases swept.kept _ old with gone | ⟨expiry, found, bound⟩
        · exact .inl gone
        · by_cases same : accepted.1 = nonce
          · exact .inl (bound.trans (expired expiry (same ▸ found)))
          · exact .inr ⟨expiry, mem_cons_of_mem _
              (mem_filter.mpr ⟨found, decide_eq_true same⟩), bound⟩
      · rw [mem_singleton] at new
        subst new
        exact .inr ⟨_, mem_cons_self, Int.le_refl _⟩

/-! ### What the process remembers -/

/-- The nonces of a user in some handshakes, with their times. -/
def noncesOf (handshakes : List Handshake) (userHash : UserHash) : List (Nonce × Int) :=
  (handshakes.filter fun handshake => handshake.hello.userHash = userHash).map fun handshake =>
    (handshake.hello.nonce, handshake.now)

variable {userHash : UserHash} {handshakes more : List Handshake} {delay : Int} {first : Handshake}

theorem mem_noncesOf {time : Int} : (nonce, time) ∈ noncesOf handshakes userHash ↔
      ∃ handshake ∈ handshakes, handshake.hello.userHash = userHash ∧
        handshake.hello.nonce = nonce ∧ handshake.now = time := by
  simp only [noncesOf, mem_map, mem_filter, decide_eq_true_eq, Prod.mk.injEq, and_assoc]

theorem noncesOf_append (first second : List Handshake) (userHash : UserHash) :
    noncesOf (first ++ second) userHash = noncesOf first userHash ++ noncesOf second userHash := by
  rw [noncesOf, filter_append, map_append]
  rfl

theorem noncesOf_self (handshake : Handshake) :
    noncesOf [handshake] handshake.hello.userHash = [(handshake.hello.nonce, handshake.now)] := by
  simp [noncesOf]

theorem noncesOf_other {handshake : Handshake} (other : userHash ≠ handshake.hello.userHash) :
    noncesOf [handshake] userHash = [] := by
  simp [noncesOf, other.symm]

def Server.nonces (server : Server) (userHash : UserHash) : NonceSet :=
  (server.protector (key userHash)).getD (newNonceSet 4096)

/-- Two handshakes with one nonce of one user are a lifetime apart. -/
def Spaced (first second : Handshake) : Prop :=
  first.hello.userHash = second.hello.userHash → first.hello.nonce = second.hello.nonce →
    first.now + handshakeReplayTTL ≤ second.now

/-- What the process has done with the handshakes so far. -/
structure Remembers (past : List Handshake) (server : Server) (latest : Int) : Prop where
  sets : ∀ userHash, Tracks (server.nonces userHash) (noncesOf past userHash)
    (noncesOf server.passed userHash) latest
  passed : server.passed ⊆ past
  spaced : server.passed.Pairwise Spaced
  checked : ∀ handshake ∈ server.passed,
    skewed handshake.clock handshake.hello.timestamp = false

/-- What a handshake does that is in time. -/
theorem handshake_eq (server : Server) {handshake : Handshake}
    (inTime : skewed handshake.clock handshake.hello.timestamp = false) :
    let result := (server.nonces handshake.hello.userHash).allow handshake.pick
      handshake.hello.nonce handshake.now handshakeReplayTTL
    (server.handshake handshake).passed =
        (if result.1 then server.passed ++ [handshake] else server.passed) ∧
      ∀ userHash, (server.handshake handshake).nonces userHash =
        if userHash = handshake.hello.userHash then result.2 else server.nonces userHash := by
  rw [Server.handshake, if_neg (by rw [inTime]; exact nofun), Protector.allow]
  have name : (if encodeToString handshake.hello.userHash.toList = "" then "_"
      else encodeToString handshake.hello.userHash.toList) = key handshake.hello.userHash :=
    if_neg (key_ne_empty _)
  rw [name]
  refine ⟨rfl, fun userHash => ?_⟩
  dsimp only [Server.nonces]
  by_cases same : userHash = handshake.hello.userHash
  · rw [if_pos same, same, if_pos rfl]
    rfl
  · rw [if_neg same, if_neg fun equal => same (key_inj equal)]

variable {past : List Handshake} {server : Server}

theorem Remembers.mono (remembers : Remembers past server latest) (added : past ⊆ more)
    (later : latest ≤ now) : Remembers more server now := { remembers with
  sets userHash := (remembers.sets userHash).mono (fun entry member => by
    obtain ⟨handshake, found, fields⟩ := mem_noncesOf.mp member
    exact mem_noncesOf.mpr ⟨handshake, added found, fields⟩) later
  passed := fun _ member => added (remembers.passed member) }

/-- A handshake passes, or it is one whose timestamp is too far away or whose nonce is still in its
lifetime. -/
theorem Remembers.handshake (remembers : Remembers past server latest) {handshake : Handshake}
    (later : latest ≤ handshake.now)
    (few : Few (noncesOf past handshake.hello.userHash) handshake.now) :
    Remembers (past ++ [handshake]) (server.handshake handshake) handshake.now ∧
      ((server.handshake handshake).passed = server.passed ++ [handshake] ∨
        skewed handshake.clock handshake.hello.timestamp = true ∨
        ∃ time, (handshake.hello.nonce, time) ∈ noncesOf past handshake.hello.userHash ∧
          handshake.now < time + handshakeReplayTTL) := by
  have wider := remembers.mono (subset_append_left past [handshake]) later
  cases inTime : skewed handshake.clock handshake.hello.timestamp with
  | true =>
    rw [Server.handshake, if_pos inTime]
    exact ⟨wider, .inr (.inl rfl)⟩
  | false =>
    obtain ⟨passed, nonces⟩ := handshake_eq server inTime
    rcases @Tracks.allow_cases handshake.pick _ _ _ _ _ handshake.hello.nonce
      (remembers.sets handshake.hello.userHash) later few with
      ⟨refused, live, tracks⟩ | ⟨allowed, apart, tracks⟩
    · rw [refused, if_neg nofun] at passed
      refine ⟨⟨fun userHash => ?_, ?_, ?_, ?_⟩, .inr (.inr live)⟩
      · rw [nonces, passed]
        split_ifs with same
        · rw [same, noncesOf_append past]
          exact tracks.mono (subset_append_left _ _) (Int.le_refl _)
        · exact wider.sets userHash
      · rw [passed]
        exact wider.passed
      · rw [passed]
        exact wider.spaced
      · rw [passed]
        exact wider.checked
    · rw [allowed, if_pos rfl] at passed
      refine ⟨⟨fun userHash => ?_, ?_, ?_, ?_⟩, .inl passed⟩
      · rw [nonces, passed, noncesOf_append server.passed]
        split_ifs with same
        · rw [same, noncesOf_append past, noncesOf_self]
          exact tracks
        · rw [noncesOf_other same, append_nil]
          exact wider.sets userHash
      · rw [passed]
        refine append_subset.mpr ⟨wider.passed, fun _ member => ?_⟩
        exact mem_append_right _ member
      · rw [passed, pairwise_append]
        refine ⟨wider.spaced, pairwise_singleton _ _, fun first member second last => ?_⟩
        rw [mem_singleton] at last
        subst last
        exact fun user nonce => apart _ (mem_noncesOf.mpr ⟨first, member, user, nonce, rfl⟩)
      · rw [passed]
        intro other member
        rcases mem_snoc member with old | rfl
        · exact wider.checked other old
        · exact inTime

/-! ### Whole runs -/

theorem Clocked.left {first second : List Handshake} (clocked : Clocked delay (first ++ second)) :
    Clocked delay first where
  ordered := (pairwise_append.mp clocked.ordered).1
  checked handshake member := clocked.checked handshake (mem_append_left _ member)
  range handshake member := clocked.range handshake (mem_append_left _ member)

theorem Sparse.mono {fewer : List Handshake} (sparse : Sparse more) (subset : fewer ⊆ more) :
    Sparse fewer := by
  intro userHash time nonces distinct presented
  refine sparse userHash time nonces distinct fun nonce member => ?_
  obtain ⟨handshake, found, fields⟩ := presented nonce member
  exact ⟨handshake, subset found, fields⟩

/-- The nonces in their lifetime are few when the last of some handshakes is checked. -/
theorem Sparse.few (sparse : Sparse handshakes)
    (last : ∀ handshake ∈ handshakes, handshake.now ≤ now) (userHash : UserHash) :
    Few (noncesOf handshakes userHash) now := by
  intro nonces distinct live
  refine sparse userHash now nonces distinct fun nonce member => ?_
  obtain ⟨time, shown, bound⟩ := live nonce member
  obtain ⟨handshake, found, user, same, rfl⟩ := mem_noncesOf.mp shown
  exact ⟨handshake, found, user, same, bound, last handshake found⟩

theorem serve_append (first second : List Handshake) :
    serve (first ++ second) = drive Server.handshake (serve first) second :=
  drive_append _ _ _ _

theorem remembers_serve (handshakes : List Handshake) (clocked : Clocked delay handshakes)
    (sparse : Sparse handshakes) (latest : Int)
    (last : ∀ handshake ∈ handshakes, handshake.now ≤ latest) :
    Remembers handshakes (serve handshakes) latest := by
  induction handshakes using reverseRecOn generalizing latest with
  | nil =>
    refine ⟨fun userHash => ⟨nodup_nil, nofun, nofun, rfl⟩, nofun, List.Pairwise.nil, nofun⟩
  | append_singleton past handshake ih =>
    have before : ∀ earlier ∈ past, earlier.now ≤ handshake.now := fun earlier member =>
      (pairwise_append.mp clocked.ordered).2.2 earlier member handshake mem_cons_self
    have sparser := sparse.mono (subset_append_left past [handshake])
    have remembers := ih clocked.left sparser handshake.now before
    rw [serve_append]
    refine (remembers.handshake (Int.le_refl _) (sparser.few before _)).1.mono
      (List.Subset.refl _) (last handshake ?_)
    exact mem_concat_self

/-! ### The timestamp -/

theorem toInt_absInt64 (v : Int64) :
    (absInt64 v).toInt = if v.toInt = -2 ^ 63 then -2 ^ 63 else |v.toInt| := by
  have least := v.le_toInt
  have zero : (0 : Int64).toInt = 0 := rfl
  rw [absInt64]
  simp only [Int64.lt_iff_toInt_lt, zero]
  split_ifs with negative minimal minimal
  · rw [Int64.toInt_neg, minimal]
    rfl
  · rw [Int64.toInt_neg, abs_of_neg negative]
    exact Int.bmod_eq_of_le (by omega) (by omega)
  · omega
  · exact (abs_of_nonneg (Int.not_lt.mp negative)).symm

/-- The timestamps that pass the check of a clock: those that are at most 60 seconds away, and the
one for which the difference is the least number of 64 bits, which is its own absolute value. -/
theorem skewed_eq_false {clock : Int} {timestamp : Int64} (positive : 0 ≤ clock)
    (small : clock < 2 ^ 61 * second) :
    skewed clock timestamp = false ↔
      (timestamp.toInt - 60 ≤ clock / second ∧ clock / second ≤ timestamp.toInt + 60) ∨
        clock / second = timestamp.toInt + 2 ^ 63 := by
  have low : 0 ≤ clock / second := Int.ediv_nonneg positive (by decide)
  have high : clock / second < 2 ^ 61 := Int.ediv_lt_of_lt_mul (by decide) small
  have shown : unix clock = Int64.ofInt (clock / second) := rfl
  rw [skewed, shown]
  generalize clock / second = seconds at *
  have least := timestamp.le_toInt
  have most := timestamp.toInt_lt
  have difference : (Int64.ofInt seconds - timestamp).toInt =
      if seconds - timestamp.toInt < 2 ^ 63 then seconds - timestamp.toInt
      else seconds - timestamp.toInt - 2 ^ 64 := by
    rw [Int64.toInt_sub, Int64.toInt_ofInt_of_le (by omega) (by omega), Int.bmod_def]
    split_ifs <;> omega
  have bound : (Int64.ofInt (kipHandshakeSkew / second)).toInt = 60 := by decide
  rw [decide_eq_false_iff_not, gt_iff_lt, Int64.lt_iff_toInt_lt, bound, toInt_absInt64, difference,
    Int.not_lt]
  split_ifs with near minimal minimal
  · omega
  · rw [abs_le]
    omega
  · omega
  · rw [abs_le]
    omega

/-- A hello that was not late when it passed is in time again when its nonce has just expired. -/
theorem inTime_of_not_late {handshake : Handshake} (short : delay ≤ 59 * second)
    (isFirst : 0 ≤ handshake.clock ∧ handshake.now < 2 ^ 61 * second)
    (before : handshake.clock ≤ handshake.now)
    (left : handshake.now + handshakeReplayTTL < 2 ^ 61 * second) (nonnegative : 0 ≤ delay)
    (early : ¬ Late delay handshake)
    (passed : skewed handshake.clock handshake.hello.timestamp = false) :
    skewed (handshake.now + handshakeReplayTTL - delay) handshake.hello.timestamp = false := by
  simp only [Late, handshakeReplayTTL] at *
  rw [skewed_eq_false isFirst.1 (by omega)] at passed
  simp only [second] at *
  rw [skewed_eq_false (by omega) (by simp only [second]; omega)]
  simp only [second]
  omega

/-! ### A hello is accepted once -/

/-- Passed handshakes with one hello: the first of them was not late. -/
theorem hello_ne_of_late (short : delay ≤ 59 * second) (clocked : Clocked delay handshakes)
    {second : Handshake} (isFirst : first ∈ handshakes) (isSecond : second ∈ handshakes)
    (late : Late delay first) (spaced : Spaced first second)
    (firstPassed : skewed first.clock first.hello.timestamp = false)
    (secondPassed : skewed second.clock second.hello.timestamp = false) :
    first.hello ≠ second.hello := by
  intro same
  have apart := spaced (congrArg _ same) (congrArg _ same)
  have firstRange := clocked.range first isFirst
  have secondRange := clocked.range second isSecond
  have before := clocked.checked first isFirst
  have delayed := clocked.checked second isSecond
  rw [skewed_eq_false firstRange.1 (by omega)] at firstPassed
  rw [← same, skewed_eq_false secondRange.1 (by omega)] at secondPassed
  simp only [Late, handshakeReplayTTL, SingBox.second] at *
  omega

/-- A further handshake, once all nonces have expired. -/
theorem Sparse.append (sparse : Sparse handshakes) {handshake : Handshake}
    (expired : ∀ earlier ∈ handshakes, earlier.now + handshakeReplayTTL ≤ handshake.now) :
    Sparse (handshakes ++ [handshake]) := by
  intro userHash time nonces distinct presented
  by_cases reached : handshake.now ≤ time
  · have only : ∀ nonce ∈ nonces, nonce ∈ [handshake.hello.nonce] := by
      intro nonce member
      obtain ⟨other, found, -, rfl, live, -⟩ := presented nonce member
      rcases mem_snoc found with old | rfl
      · exact absurd (Int.lt_of_le_of_lt reached live) (Int.not_lt.mpr (expired other old))
      · exact mem_cons_self
    exact Nat.lt_of_le_of_lt (subperm_of_subset distinct only).length_le (show 1 < 4096 by decide)
  · refine sparse userHash time nonces distinct fun nonce member => ?_
    obtain ⟨other, found, user, same, live, shown⟩ := presented nonce member
    rcases mem_snoc found with old | rfl
    · exact ⟨other, old, user, same, live, shown⟩
    · exact absurd shown reached

/-- A run with few handshakes. -/
theorem sparse_of_length (few : handshakes.length < 4096) : Sparse handshakes := by
  intro userHash time nonces distinct presented
  have subset : nonces ⊆ handshakes.map fun handshake => handshake.hello.nonce := by
    intro nonce member
    obtain ⟨handshake, found, -, same, -⟩ := presented nonce member
    exact mem_map.mpr ⟨handshake, found, same⟩
  have length := (subperm_of_subset distinct subset).length_le
  rw [length_map] at length
  exact Nat.lt_of_le_of_lt length few

/-- The replay of a hello at the moment at which its nonce expires. -/
def replayOf (delay : Int) (handshake : Handshake) : Handshake :=
  { handshake with
    clock := handshake.now + handshakeReplayTTL - delay
    now := handshake.now + handshakeReplayTTL }

/-- If every hello that passes is late, no hello passes twice. The condition is sharp: a hello that
has just passed and was not late passes again when its nonce has expired. -/
theorem hello_once (delay : Int) (nonnegative : 0 ≤ delay) (short : delay ≤ 59 * second)
    (handshakes : List Handshake) (clocked : Clocked delay handshakes)
    (sparse : Sparse handshakes) :
    ((∀ handshake ∈ (serve handshakes).passed, Late delay handshake) →
        ((serve handshakes).passed.map Handshake.hello).Nodup) ∧
      ∀ handshake ∈ (serve handshakes).passed,
        (∀ other ∈ handshakes, other.now ≤ handshake.now) → ¬ Late delay handshake →
        handshake.now + handshakeReplayTTL < 2 ^ 61 * second →
          Clocked delay (handshakes ++ [replayOf delay handshake]) ∧
          Sparse (handshakes ++ [replayOf delay handshake]) ∧
          (serve (handshakes ++ [replayOf delay handshake])).passed =
            (serve handshakes).passed ++ [replayOf delay handshake] := by
  constructor
  · intro late
    obtain ⟨latest, last⟩ : ∃ latest, ∀ handshake ∈ handshakes, handshake.now ≤ latest :=
      ⟨2 ^ 61 * second, fun handshake member => Int.le_of_lt (clocked.range handshake member).2⟩
    have remembers := remembers_serve handshakes clocked sparse latest last
    rw [List.Nodup, List.pairwise_map]
    refine remembers.spaced.imp_of_mem fun {first second} isFirst isSecond spaced => ?_
    exact hello_ne_of_late short clocked (remembers.passed isFirst) (remembers.passed isSecond)
      (late first isFirst) spaced (remembers.checked first isFirst)
      (remembers.checked second isSecond)
  · intro handshake passed last early left
    have remembers := remembers_serve handshakes clocked sparse handshake.now last
    have range := clocked.range handshake (remembers.passed passed)
    have checked := clocked.checked handshake (remembers.passed passed)
    have inTime := inTime_of_not_late short range checked.1 left nonnegative early
      (remembers.checked handshake passed)
    have positive : (0 : Int) < handshakeReplayTTL := by decide
    have expired : ∀ earlier ∈ handshakes,
        earlier.now + handshakeReplayTTL ≤ (replayOf delay handshake).now := fun earlier member =>
      Int.add_le_add_right (last earlier member) _
    have later : handshake.now ≤ (replayOf delay handshake).now :=
      Int.le_add_of_nonneg_right (Int.le_of_lt positive)
    refine ⟨⟨?_, ?_, ?_⟩, sparse.append expired, ?_⟩
    · refine List.pairwise_append.mpr ⟨clocked.ordered, List.pairwise_singleton _ _, ?_⟩
      intro earlier member replay isReplay
      rw [List.mem_singleton.mp isReplay]
      exact (last earlier member).trans later
    · intro other member
      rcases mem_snoc member with old | rfl
      · exact clocked.checked other old
      · exact ⟨Int.sub_le_self _ nonnegative, Int.le_of_eq (Int.sub_add_cancel _ _).symm⟩
    · intro other member
      rcases mem_snoc member with old | rfl
      · exact clocked.range other old
      · refine ⟨?_, left⟩
        show 0 ≤ handshake.now + handshakeReplayTTL - delay
        rw [show handshakeReplayTTL = 60 * second from rfl]
        omega
    · rw [serve_append]
      have few := sparse.few (fun other member => (last other member).trans later)
        (replayOf delay handshake).hello.userHash
      rcases (remembers.handshake later few).2 with done | skew | ⟨time, shown, live⟩
      · exact done
      · exact Bool.noConfusion (inTime.symm.trans skew)
      · obtain ⟨earlier, member, -, -, rfl⟩ := mem_noncesOf.mp shown
        exact absurd live (Int.not_lt.mpr (expired earlier member))

/-- A hello with the timestamp 100. -/
def helloAt : ClientHello where
  userHash := Vector.replicate 8 7
  nonce := Vector.replicate 16 9
  timestamp := 100

/-- A handshake with this hello. -/
def presentAt (time : Int) : Handshake where
  hello := helloAt
  clock := time
  now := time
  pick _ := 0

/-- A hello that is two seconds old is accepted once, although it is presented again. -/
theorem hello_once_late :
    ((serve [presentAt (102 * second), presentAt (160 * second),
        presentAt (162 * second)]).passed.map fun handshake => (handshake.hello, handshake.now)) =
          [(helloAt, 102 * second)] ∧
      ((serve [presentAt (102 * second), presentAt (160 * second),
        presentAt (162 * second)]).passed.map Handshake.hello).Nodup := by
  have passed : ((serve [presentAt (102 * second), presentAt (160 * second),
      presentAt (162 * second)]).passed.map fun handshake => (handshake.hello, handshake.now)) =
        [(helloAt, 102 * second)] := by decide +kernel
  refine ⟨passed, (hello_once 0 (by decide) (by decide) _
    ⟨?_, ?_, ?_⟩ (sparse_of_length (by decide))).1 fun handshake member => ?_⟩
  · simp [presentAt, second]
  · simp [presentAt]
  · simp [presentAt, second]
  · have only := List.mem_map_of_mem member (f := fun handshake => (handshake.hello, handshake.now))
    rw [passed, List.mem_singleton, Prod.mk.injEq] at only
    rw [Late, only.1, only.2]
    decide

/-- A hello with the time of the server as its timestamp is accepted again 60 seconds later. -/
theorem hello_replayed :
    Clocked 0 [presentAt (100 * second), presentAt (160 * second)] ∧
      Sparse [presentAt (100 * second), presentAt (160 * second)] ∧
      (serve [presentAt (100 * second), presentAt (160 * second)]).passed.map Handshake.hello =
        [helloAt, helloAt] := by
  refine ⟨⟨?_, ?_, ?_⟩, sparse_of_length (by decide), ?_⟩
  · simp [presentAt, second]
  · simp [presentAt]
  · simp [presentAt, second]
  · decide +kernel

end Kip

end SingBox
