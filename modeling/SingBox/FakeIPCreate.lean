/-
This file proves what `Store.Create` guarantees over a run. The addresses of a
range are given out in turn: the current address of a family is the turn that
stands for the number of new domains so far, and a domain loses its address when
its turn comes again, after as many new domains as the range has turns.

All of it holds for every storage that keeps a pairing. The storage in memory
keeps every domain; the cache file refuses a domain that is not a key of its
buckets, so `Create` returns an address that `Lookup` does not know.
-/

import SingBox.FakeIPStore

namespace SingBox

open Pairing

namespace FakeIP

open Addr

/-! ### The end of a range -/

/-- The bits that the loop of `broadcastAddress` sets. -/
theorem getLsbD_setBits (indices : List Nat) (raw : BitVec 128) {place : Nat} (small : place < 128) :
    (indices.foldl (fun raw index => raw ||| 1#128 <<< (127 - index)) raw).getLsbD place =
      (raw.getLsbD place || indices.any fun index => 127 - index == place) := by
  induction indices generalizing raw with
  | nil => simp
  | cons index indices ih =>
    rw [List.foldl_cons, ih, List.any_cons, BitVec.getLsbD_or, Bool.or_assoc]
    have single : (1#128 <<< (127 - index)).getLsbD place = (127 - index == place) := by
      rw [BitVec.getLsbD_shiftLeft, BitVec.getLsbD_one, Bool.eq_iff_iff]
      simp only [Bool.and_eq_true, Bool.not_eq_true', decide_eq_true_eq, decide_eq_false_iff_not,
        beq_iff_eq]
      omega
    rw [single]

theorem foldl_setBits {host : Nat} (fits : host ≤ 128) (raw : BitVec 128) :
    (List.range' (128 - host) host).foldl (fun raw index => raw ||| 1#128 <<< (127 - index)) raw =
      raw ||| BitVec.ofNat 128 (2 ^ host - 1) := by
  ext place small
  rw [← BitVec.getLsbD_eq_getElem, ← BitVec.getLsbD_eq_getElem, getLsbD_setBits _ _ small,
    BitVec.getLsbD_or, BitVec.getLsbD_ofNat, Nat.testBit_two_pow_sub_one]
  congr 1
  rw [Bool.eq_iff_iff, List.any_eq_true]
  simp only [List.mem_range'_1, beq_iff_eq, Bool.and_eq_true, decide_eq_true_eq]
  constructor
  · rintro ⟨index, ⟨low, high⟩, same⟩
    omega
  · rintro ⟨-, below⟩
    exact ⟨127 - place, by omega, by omega⟩

variable {isIPv6 : Bool}

theorem broadcastAddress_eq {range : Prefix} {network host : Nat}
    (masked : range.Masked isIPv6 network host) :
    broadcastAddress range = .ofValue isIPv6 (network + (2 ^ host - 1)) := by
  have sum : network + (2 ^ host - 1) = network ||| (2 ^ host - 1) := by
    obtain ⟨count, rfl⟩ := masked.aligned
    exact Nat.two_pow_add_eq_or_of_lt (Nat.sub_lt (Nat.two_pow_pos host) Nat.one_pos) count
  have fits : host ≤ 128 := masked.fits.trans (by cases isIPv6 <;> decide)
  have bits : width isIPv6 - host + 1 - 1 + (if (!isIPv6) = true then 96 else 0) = 128 - host := by
    have narrow := masked.fits
    cases isIPv6 with
    | false =>
      change 32 - host + 1 - 1 + 96 = 128 - host
      change host ≤ 32 at narrow
      omega
    | true => rfl
  have hosts : 128 - (128 - host) = host := Nat.sub_sub_self fits
  rw [sum]
  unfold broadcastAddress
  dsimp only
  rw [masked.addr, masked.bits, is4_ofValue, bits, hosts, foldl_setBits fits]
  cases isIPv6 with
  | false =>
    refine congrArg v4 ?_
    have low : (0xffff00000000#128).extractLsb' 0 32 = 0#32 := by decide
    have narrow : 32 ≤ 128 := by decide
    show ((0xffff00000000#128 ||| _) ||| _).extractLsb' 0 32 = _
    rw [BitVec.extractLsb'_or, BitVec.extractLsb'_or, low, BitVec.zero_or,
      BitVec.extractLsb'_setWidth_of_le narrow, BitVec.extractLsb'_eq_self,
      ← BitVec.setWidth_eq_extractLsb' narrow, BitVec.setWidth_ofNat_of_le narrow, BitVec.ofNat_or]
  | true =>
    refine congrArg v6 ?_
    rw [BitVec.ofNat_or]
    rfl

/-! ### Turns -/

/-- The number of the current address after some new domains. The network address, the one
after it and the broadcast address get no turn. -/
def turn (network host count : Nat) : Nat :=
  if count = 0 then network + 1 else network + 2 + (count - 1) % (2 ^ host - 3)

section

variable {network host : Nat}

theorem turns_pos (wide : 2 ≤ host) : 0 < 2 ^ host - 3 := by
  have power : 2 ^ 2 ≤ 2 ^ host := Nat.pow_le_pow_right Nat.two_pos wide
  omega

theorem turn_succ (count : Nat) :
    turn network host (count + 1) = network + 2 + count % (2 ^ host - 3) :=
  if_neg (Nat.succ_ne_zero count)

/-- A turn lies behind the first host address and before the broadcast address. -/
theorem turn_bounds (wide : 2 ≤ host) (count : Nat) :
    network + 1 ≤ turn network host count ∧ turn network host count + 1 < network + 2 ^ host ∧
      (0 < count → network + 2 ≤ turn network host count) := by
  have turns := turns_pos wide
  cases count with
  | zero =>
    refine ⟨le_refl _, ?_, fun positive => absurd positive (Nat.lt_irrefl 0)⟩
    show network + 1 + 1 < network + 2 ^ host
    omega
  | succ count =>
    have below := Nat.mod_lt count turns
    rw [turn_succ]
    omega

theorem turn_next (wide : 2 ≤ host) (count : Nat) :
    turn network host (count + 1) =
      if turn network host count + 1 = network + (2 ^ host - 1) then network + 2
      else turn network host count + 1 := by
  have turns := turns_pos wide
  cases count with
  | zero =>
    have first : turn network host 0 = network + 1 := rfl
    rw [turn_succ, Nat.zero_mod, first]
    split <;> omega
  | succ count =>
    rw [turn_succ, turn_succ]
    have below := Nat.mod_lt count turns
    have whole := Nat.div_add_mod count (2 ^ host - 3)
    by_cases last : count % (2 ^ host - 3) + 1 = 2 ^ host - 3
    · have again : (count + 1) % (2 ^ host - 3) = 0 := by
        rw [← whole, Nat.add_assoc, last, Nat.mul_add_mod, Nat.mod_self]
      rw [if_pos (by omega), again]
    · have further : (count + 1) % (2 ^ host - 3) = count % (2 ^ host - 3) + 1 := by
        rw [← whole, Nat.add_assoc, Nat.mul_add_mod, Nat.mul_add_mod, Nat.mod_mod]
        exact Nat.mod_eq_of_lt (by omega)
      rw [if_neg (by omega), further]
      rfl

/-- A turn does not come again before all others. -/
theorem turn_ne {first second : Nat} (positive : 0 < first) (after : first < second)
    (soon : second < first + (2 ^ host - 3)) :
    turn network host first ≠ turn network host second := by
  obtain ⟨first, rfl⟩ := Nat.exists_eq_succ_of_ne_zero positive.ne'
  obtain ⟨second, rfl⟩ := Nat.exists_eq_succ_of_ne_zero (positive.trans after).ne'
  intro same
  have apart : (second - first) % (2 ^ host - 3) = 0 :=
    Nat.sub_mod_eq_zero_of_mod_eq (Nat.add_left_cancel same).symm
  rw [Nat.mod_eq_of_lt (by omega)] at apart
  omega

variable {range : Prefix} {isIPv6 : Bool}

theorem turn_lt_width (masked : range.Masked isIPv6 network host) (wide : 2 ≤ host) (count : Nat) :
    turn network host count + 1 < 2 ^ width isIPv6 :=
  Nat.lt_of_lt_of_le (turn_bounds wide count).2.1 masked.inside

/-- `Create` gives out the turns one after the other. -/
theorem nextAddress_turn (masked : range.Masked isIPv6 network host) (wide : 2 ≤ host)
    (count : Nat) :
    nextAddress range (broadcastAddress range) (.ofValue isIPv6 (turn network host count)) =
      .ofValue isIPv6 (turn network host (count + 1)) := by
  obtain ⟨low, high, -⟩ := @turn_bounds network host wide count
  have inside := masked.inside
  have small := turn_lt_width masked wide count
  have restart : range.addr.next.next = .ofValue isIPv6 (network + 2) := by
    rw [masked.addr, next_ofValue (by omega), next_ofValue (by omega)]
  have contained : range.contains (.ofValue isIPv6 (turn network host count + 1)) = true :=
    (masked.contains_iff small).mpr ⟨by omega, high⟩
  rw [nextAddress, next_ofValue small, broadcastAddress_eq masked, restart, contained,
    turn_next wide]
  by_cases last : turn network host count + 1 = network + (2 ^ host - 1)
  · rw [if_pos last, if_pos (.inl (congrArg _ last))]
  · have different : ofValue isIPv6 (turn network host count + 1) ≠
        .ofValue isIPv6 (network + (2 ^ host - 1)) := fun same =>
      last (ofValue_injective small (by omega) same)
    rw [if_neg last, if_neg (by simp [different])]

end

/-! ### The run of a store -/

/-- The configured ranges are masked, with at least two host bits. -/
structure Masks (range : Families Prefix) (network host : Bool → Nat) : Prop where
  masked : ∀ {isIPv6}, (range.get isIPv6).isValid = true →
    (range.get isIPv6).Masked isIPv6 (network isIPv6) (host isIPv6)
  wide : ∀ {isIPv6}, (range.get isIPv6).isValid = true → 2 ≤ host isIPv6

section

variable {Storage : Type} (ops : FakeIPStorage Storage)

/-- The store after some calls of `Create`. -/
def run (store : Store Storage) (calls : List (Domain × Bool)) : Store Storage :=
  calls.foldl (fun store call => (store.create ops call.1 call.2).1) store

/-- The number of calls that create a new domain of the family. -/
def newDomains (isIPv6 : Bool) (store : Store Storage) : List (Domain × Bool) → Nat
  | [] => 0
  | call :: calls =>
    (if call.2 = isIPv6 ∧ ops.loadDomain store.storage call.1 call.2 = none then 1 else 0) +
      newDomains isIPv6 (store.create ops call.1 call.2).1 calls

/-- A store in a run: its storage holds the pairing, the current addresses are those of the
numbers of new domains, and every address in use had its turn. -/
structure Runs (holds : Storage → Pairs → Prop) (range : Families Prefix)
    (network host : Bool → Nat) (store : Store Storage) (pairs : Pairs) (count : Bool → Nat) :
    Prop where
  kept : holds store.storage pairs
  last : ∀ {isIPv6}, (range.get isIPv6).isValid = true →
    store.last.get isIPv6 = broadcastAddress (range.get isIPv6)
  current : ∀ isIPv6, store.current.get isIPv6 = if (range.get isIPv6).isValid then
    .ofValue isIPv6 (turn (network isIPv6) (host isIPv6) (count isIPv6)) else .invalid
  turns : ∀ {isIPv6 domain address}, pairs.slotOf (isIPv6, domain) = some address →
    (range.get isIPv6).isValid = true ∧ ∃ number, 0 < number ∧ number ≤ count isIPv6 ∧
      address = .ofValue isIPv6 (turn (network isIPv6) (host isIPv6) number)
  configured : store.range = range

end

section

variable {Storage : Type} {ops : FakeIPStorage Storage} {holds : Storage → Pairs → Prop}
  {storable : Domain → Prop} {range : Families Prefix} {network host : Bool → Nat}
  {store : Store Storage} {pairs : Pairs} {count : Bool → Nat}

namespace Runs

variable (keeps : ops.Keeps holds storable) (masks : Masks range network host)
  (runs : Runs holds range network host store pairs count) {domain : Domain} {isIPv6 : Bool}

include keeps runs in
/-- A known domain has its address, and nothing changes. -/
theorem create_known {address : Addr} (known : pairs.slotOf (isIPv6, domain) = some address) :
    store.create ops domain isIPv6 = (store, .ok address) :=
  Store.create_of_known ((keeps.loadDomain runs.kept domain isIPv6).trans known)

include keeps runs in
/-- Without a range there is no address, and nothing changes. -/
theorem create_missing (missing : (range.get isIPv6).isValid = false) :
    (store.create ops domain isIPv6).1 = store := by
  have free : pairs.slotOf (isIPv6, domain) = none := by
    cases paired : pairs.slotOf (isIPv6, domain) with
    | none => rfl
    | some address =>
      rw [(runs.turns paired).1] at missing
      cases missing
  have idle : (store.current.get isIPv6).isValid = false := by
    rw [runs.current, missing]
    rfl
  obtain ⟨err, failed⟩ :=
    Store.create_of_missing ((keeps.loadDomain runs.kept domain isIPv6).trans free) idle
  rw [failed]

/-- The counts after a new domain of the family. -/
def counted (count : Bool → Nat) (isIPv6 : Bool) : Bool → Nat :=
  fun other => if other = isIPv6 then count other + 1 else count other

/-- The address of the next turn. -/
def upcoming (network host count : Bool → Nat) (isIPv6 : Bool) : Addr :=
  .ofValue isIPv6 (turn (network isIPv6) (host isIPv6) (count isIPv6 + 1))

theorem isValid_upcoming : (upcoming network host count isIPv6).isValid = true :=
  isValid_ofValue

variable (free : pairs.slotOf (isIPv6, domain) = none)
  (configured : (range.get isIPv6).isValid = true)

include keeps masks runs free configured

/-- A new domain gets the next turn. -/
theorem create_new : store.create ops domain isIPv6 =
      (store.allocated ops domain isIPv6 (upcoming network host count isIPv6),
        .ok (upcoming network host count isIPv6)) := by
  have address : nextAddress (store.range.get isIPv6) (store.last.get isIPv6)
      (store.current.get isIPv6) = upcoming network host count isIPv6 := by
    rw [runs.current, if_pos configured, runs.last configured, runs.configured,
      nextAddress_turn (masks.masked configured) (masks.wide configured)]
    rfl
  have valid : (store.current.get isIPv6).isValid = true := by
    rw [runs.current, if_pos configured, isValid_ofValue]
  rw [Store.create_of_unknown ((keeps.loadDomain runs.kept domain isIPv6).trans free) valid,
    address]

/-- The run goes on with what the storage holds after a new domain, the domain at the next turn
or not. -/
theorem runs_create_new {pairs' : Pairs}
    (kept : holds (ops.store store.storage (upcoming network host count isIPv6) domain).1 pairs')
    (old : ∀ {key address}, pairs'.slotOf key = some address → key = (isIPv6, domain) ∧ address =
      upcoming network host count isIPv6 ∨ pairs.slotOf key = some address) :
    Runs holds range network host (store.create ops domain isIPv6).1 pairs'
      (counted count isIPv6) := by
  rw [runs.create_new keeps masks free configured]
  refine ⟨keeps.saveMetadataAsync kept _, runs.last, ?_, ?_, runs.configured⟩
  · intro other
    by_cases same : other = isIPv6
    · subst same
      show (store.current.set other _).get other = _
      rw [Families.get_set_self, if_pos configured, counted, if_pos rfl]
      rfl
    · show (store.current.set isIPv6 _).get other = _
      rw [Families.get_set_of_ne _ _ same, runs.current, counted, if_neg same]
  · intro other name address paired
    rcases old paired with ⟨same, rfl⟩ | before
    · obtain rfl : other = isIPv6 := congrArg Prod.fst same
      refine ⟨configured, count other + 1, Nat.succ_pos _, ?_, rfl⟩
      rw [counted, if_pos rfl]
    · obtain ⟨valid, number, positive, reached, turn⟩ := runs.turns before
      refine ⟨valid, number, positive, reached.trans ?_, turn⟩
      rw [counted]
      split <;> omega

theorem runs_create_storable (stored : storable domain) :
    Runs holds range network host (store.create ops domain isIPv6).1
      (pairs.assign (isIPv6, domain) (upcoming network host count isIPv6) free)
      (counted count isIPv6) :=
  runs.runs_create_new keeps masks free configured
    (keeps.store_at runs.kept stored isValid_upcoming is6_ofValue free)
    (pairs.slotOf_assign_eq_some free)

theorem runs_create_refused (refused : ¬storable domain) :
    Runs holds range network host (store.create ops domain isIPv6).1 pairs (counted count isIPv6) :=
  runs.runs_create_new keeps masks free configured
    (keeps.refuse runs.kept refused isValid_upcoming) .inr

end Runs

variable (ops range network host)

/-- What some calls of `Create` leave of the pairing and the counts: every new domain counts,
and a domain keeps its turn until it comes again. -/
structure Continues (store : Store Storage) (calls : List (Domain × Bool)) (pairs : Pairs)
    (count : Bool → Nat) (pairs' : Pairs) (count' : Bool → Nat) : Prop where
  counts : ∀ {isIPv6}, (range.get isIPv6).isValid = true →
    count' isIPv6 = count isIPv6 + newDomains ops isIPv6 store calls
  keeps : ∀ {isIPv6 domain number}, 0 < number → number ≤ count isIPv6 →
    pairs.slotOf (isIPv6, domain) =
      some (.ofValue isIPv6 (turn (network isIPv6) (host isIPv6) number)) →
    count' isIPv6 < number + (2 ^ host isIPv6 - 3) →
    pairs'.slotOf (isIPv6, domain) =
      some (.ofValue isIPv6 (turn (network isIPv6) (host isIPv6) number))

variable {ops range network host}

theorem Runs.newDomains_single (keeps : ops.Keeps holds storable)
    (runs : Runs holds range network host store pairs count) (domain : Domain)
    (isIPv6 other : Bool) :
    newDomains ops other store [(domain, isIPv6)] =
      if isIPv6 = other ∧ pairs.slotOf (isIPv6, domain) = none then 1 else 0 := by
  show (if isIPv6 = other ∧ ops.loadDomain store.storage domain isIPv6 = none then 1 else 0) = _
  rw [keeps.loadDomain runs.kept]

/-- The next turn is not one that came a short time ago. -/
theorem ofValue_turn_ne_upcoming (masks : Masks range network host) {other : Bool}
    (valid : (range.get other).isValid = true) {number : Nat} (positive : 0 < number)
    (reached : number ≤ count other)
    (soon : Runs.counted count isIPv6 other < number + (2 ^ host other - 3)) :
    .ofValue other (turn (network other) (host other) number) ≠
      Runs.upcoming network host count isIPv6 := by
  intro same
  have family := congrArg is6 same
  rw [Runs.upcoming, is6_ofValue, is6_ofValue] at family
  subst family
  rw [Runs.counted, if_pos rfl] at soon
  have masked := masks.masked valid
  have wide := masks.wide valid
  refine turn_ne positive (Nat.lt_succ_of_le reached) soon (ofValue_injective ?_ ?_ same)
  · exact (Nat.lt_succ_self _).trans (turn_lt_width masked wide _)
  · exact (Nat.lt_succ_self _).trans (turn_lt_width masked wide _)

section

variable (keeps : ops.Keeps holds storable) (masks : Masks range network host)
  (runs : Runs holds range network host store pairs count)

include keeps masks runs

/-- One call of `Create`. -/
theorem Runs.create (domain : Domain) (isIPv6 : Bool) : ∃ pairs' count',
      Runs holds range network host (store.create ops domain isIPv6).1 pairs' count' ∧
      Continues ops range network host store [(domain, isIPv6)] pairs count pairs' count' := by
  have single := runs.newDomains_single keeps domain isIPv6
  cases paired : pairs.slotOf (isIPv6, domain) with
  | some address =>
    refine ⟨pairs, count, ?_, fun valid => ?_, fun _ _ before _ => before⟩
    · rw [runs.create_known keeps paired]
      exact runs
    · rw [single, paired, if_neg (by simp)]
      rfl
  | none =>
    cases configured : (range.get isIPv6).isValid with
    | false =>
      refine ⟨pairs, count, ?_, fun {other} valid => ?_, fun _ _ before _ => before⟩
      · rw [runs.create_missing keeps configured]
        exact runs
      · rw [single, if_neg]
        · rfl
        · rintro ⟨rfl, -⟩
          rw [configured] at valid
          cases valid
    | true =>
      have counts (other : Bool) : counted count isIPv6 other =
          count other + newDomains ops other store [(domain, isIPv6)] := by
        rw [single, counted]
        by_cases same : other = isIPv6
        · rw [if_pos same, if_pos ⟨same.symm, paired⟩]
        · rw [if_neg same, if_neg fun both => same both.1.symm]
          rfl
      by_cases stored : storable domain
      · refine ⟨_, _, runs.runs_create_storable keeps masks paired configured stored,
          fun _ => counts _, fun positive reached before soon => ?_⟩
        exact pairs.slotOf_assign_of_ne paired before
          (ofValue_turn_ne_upcoming masks (runs.turns before).1 positive reached soon)
      · exact ⟨_, _, runs.runs_create_refused keeps masks paired configured stored,
          fun _ => counts _, fun _ _ before _ => before⟩

theorem Runs.run (calls : List (Domain × Bool)) :
    ∃ pairs' count', Runs holds range network host (run ops store calls) pairs' count' ∧
      Continues ops range network host store calls pairs count pairs' count' := by
  induction calls generalizing store pairs count with
  | nil => exact ⟨pairs, count, runs, fun _ => rfl, fun _ _ paired _ => paired⟩
  | cons call calls ih =>
    obtain ⟨pairs₁, count₁, runs₁, first⟩ := runs.create keeps masks call.1 call.2
    obtain ⟨pairs₂, count₂, runs₂, rest⟩ := ih runs₁
    refine ⟨pairs₂, count₂, runs₂, fun valid => ?_, fun positive reached paired soon => ?_⟩
    · rw [rest.counts valid, first.counts valid, Nat.add_assoc]
      rfl
    · have valid := (runs.turns paired).1
      have grows := first.counts valid
      have grows' := rest.counts valid
      exact rest.keeps positive (by omega) (first.keeps positive reached paired (by omega)) soon

end

/-- A store that finds no metadata and an empty storage after the reset starts a run. -/
theorem runs_start (masks : Masks range network host) {storage : Storage}
    (fresh : (ops.metadata storage).2 = none)
    (kept : holds (ops.reset (ops.metadata storage).1).1 empty) :
    Runs holds range network host (start ops range storage) empty fun _ => 0 := by
  unfold start
  dsimp only
  rw [fresh]
  refine ⟨kept, fun {isIPv6} valid => ?_, fun isIPv6 => ?_, nofun, rfl⟩
  · cases isIPv6 with
    | false | true => exact if_pos valid
  · have first : (if (range.get isIPv6).isValid then (range.get isIPv6).addr.next
        else .invalid) = if (range.get isIPv6).isValid then
          ofValue isIPv6 (turn (network isIPv6) (host isIPv6) 0) else .invalid := by
      split
      next valid =>
        have masked := masks.masked valid
        rw [masked.addr, next_ofValue]
        · rfl
        · have bounds := turn_lt_width masked (masks.wide valid) 0
          exact (Nat.lt_succ_self _).trans bounds
      · rfl
    rw [← first]
    cases isIPv6 <;> rfl

/-! ### What `Create` guarantees -/

variable (ops)

/-- The two maps are inverse to each other, in each family. -/
def Inverse (storage : Storage) : Prop :=
  ∀ isIPv6 domain address, ops.loadDomain storage domain isIPv6 = some address ↔
    address.isValid = true ∧ address.is6 = isIPv6 ∧ ops.load storage address = some domain

/-- A call of `Create` is served: it returns an address of the range that is not one of the three
special ones, `Lookup` finds the domain right after the call, and a domain that was new keeps the
address until so many new domains have been created. -/
structure Served (range : Prefix) (network host : Nat) (store : Store Storage) (domain : Domain)
    (isIPv6 : Bool) (later : List (Domain × Bool)) (address : Addr) : Prop where
  returned : (store.create ops domain isIPv6).2 = .ok address
  inside : range.contains address = true
  notNetwork : address ≠ range.addr
  notFirstHost : address ≠ range.addr.next
  notBroadcast : address ≠ .ofValue isIPv6 (network + 2 ^ host - 1)
  lookup : (store.create ops domain isIPv6).1.lookup ops address = some domain
  lifetime : ops.loadDomain store.storage domain isIPv6 = none → ∀ calls, calls <+: later →
    newDomains ops isIPv6 (store.create ops domain isIPv6).1 calls < 2 ^ host - 3 →
    ops.loadDomain (FakeIP.run ops (store.create ops domain isIPv6).1 calls).storage domain isIPv6 =
      some address

/-- The maps are inverse throughout the calls, and each call with a configured range is served. -/
structure Faithful (range : Families Prefix) (network host : Bool → Nat) (store : Store Storage)
    (calls : List (Domain × Bool)) : Prop where
  inverse : ∀ before, before <+: calls → Inverse ops (FakeIP.run ops store before).storage
  served : ∀ before domain isIPv6 later, calls = before ++ (domain, isIPv6) :: later →
    (range.get isIPv6).isValid = true →
    ∃ address, Served ops (range.get isIPv6) (network isIPv6) (host isIPv6)
      (FakeIP.run ops store before) domain isIPv6 later address

variable {ops}

theorem Runs.inverse (keeps : ops.Keeps holds storable)
    (runs : Runs holds range network host store pairs count) : Inverse ops store.storage := by
  have typed := keeps.typed runs.kept
  intro isIPv6 domain address
  rw [keeps.loadDomain runs.kept]
  constructor
  · intro paired
    obtain ⟨valid, family⟩ := typed _ _ _ paired
    refine ⟨valid, family, ?_⟩
    rw [keeps.load runs.kept valid, (pairs.inverse _ _).mp paired]
    rfl
  · rintro ⟨valid, rfl, loaded⟩
    rw [keeps.load runs.kept valid, Option.map_eq_some_iff] at loaded
    obtain ⟨⟨isIPv6, name⟩, held, rfl⟩ := loaded
    rw [(typed.keyOf held).2]
    exact (pairs.inverse _ _).mpr held

/-- A turn is an address of the range, and none of the three special ones. -/
theorem turn_special {range : Prefix} {network host : Nat}
    (masked : range.Masked isIPv6 network host) (wide : 2 ≤ host) {number : Nat}
    (positive : 0 < number) : range.contains (.ofValue isIPv6 (turn network host number)) = true ∧
      .ofValue isIPv6 (turn network host number) ≠ range.addr ∧
      .ofValue isIPv6 (turn network host number) ≠ range.addr.next ∧
      .ofValue isIPv6 (turn network host number) ≠ ofValue isIPv6 (network + 2 ^ host - 1) := by
  obtain ⟨-, high, low⟩ := @turn_bounds network host wide number
  have inside := masked.inside
  specialize low positive
  rw [masked.addr, next_ofValue (by omega)]
  refine ⟨(masked.contains_iff (by omega)).mpr ⟨by omega, by omega⟩, ?_, ?_, ?_⟩
  all_goals
    intro same
    have equal := ofValue_injective (by omega) (by omega) same
    omega

variable {domain : Domain}

section

variable (keeps : ops.Keeps holds storable) (masks : Masks range network host)
  (runs : Runs holds range network host store pairs count)

include keeps masks runs

/-- A domain that is stored already, or can be, is served. -/
theorem Runs.served (configured : (range.get isIPv6).isValid = true) (stored : storable domain)
    (later : List (Domain × Bool)) :
    ∃ address, Served ops (range.get isIPv6) (network isIPv6) (host isIPv6) store domain isIPv6
      later address := by
  have special {number : Nat} (positive : 0 < number) :=
    turn_special (masks.masked configured) (masks.wide configured) positive
  cases paired : pairs.slotOf (isIPv6, domain) with
  | some address =>
    have same := runs.create_known keeps paired
    obtain ⟨-, number, positive, -, rfl⟩ := runs.turns paired
    obtain ⟨inside, notNetwork, notFirstHost, notBroadcast⟩ := special positive
    refine ⟨_, congrArg Prod.snd same, inside, notNetwork, notFirstHost, notBroadcast, ?_, ?_⟩
    · rw [same]
      show ops.load store.storage _ = some domain
      rw [keeps.load runs.kept isValid_ofValue, (pairs.inverse _ _).mp paired]
      rfl
    · intro unknown
      rw [keeps.loadDomain runs.kept, paired] at unknown
      cases unknown
  | none =>
    have after := runs.runs_create_storable keeps masks paired configured stored
    obtain ⟨inside, notNetwork, notFirstHost, notBroadcast⟩ := special (Nat.succ_pos (count isIPv6))
    refine ⟨upcoming network host count isIPv6, ?_, inside, notNetwork, notFirstHost,
      notBroadcast, ?_, ?_⟩
    · rw [runs.create_new keeps masks paired configured]
    · show ops.load (store.create ops domain isIPv6).1.storage _ = some domain
      rw [keeps.load after.kept isValid_upcoming, keyOf_assign_self]
      rfl
    · intro _ calls _ soon
      obtain ⟨pairs', count', further, continues⟩ := after.run keeps masks calls
      have counts := continues.counts configured
      have grown : counted count isIPv6 isIPv6 = count isIPv6 + 1 := if_pos rfl
      rw [keeps.loadDomain further.kept]
      exact continues.keeps (Nat.succ_pos (count isIPv6)) (le_of_eq grown.symm)
        (pairs.slotOf_assign_self paired) (by omega)

/-- A domain that cannot be stored is not found under the address it gets. -/
theorem Runs.not_served (configured : (range.get isIPv6).isValid = true)
    (refused : ¬storable domain) (later : List (Domain × Bool)) (address : Addr) :
    ¬Served ops (range.get isIPv6) (network isIPv6) (host isIPv6) store domain isIPv6
      later address := by
  intro served
  have unstored (other : Bool) : pairs.slotOf (other, domain) = none := by
    cases paired : pairs.slotOf (other, domain) with
    | none => rfl
    | some _ => exact absurd (keeps.stored runs.kept paired) refused
  have after := runs.runs_create_refused keeps masks (unstored isIPv6) configured refused
  have returned := served.returned
  rw [runs.create_new keeps masks (unstored isIPv6) configured] at returned
  obtain rfl := Except.ok.inj returned
  have lookup : ops.load (store.create ops domain isIPv6).1.storage _ = some domain :=
    served.lookup
  rw [keeps.load after.kept isValid_upcoming, Option.map_eq_some_iff] at lookup
  obtain ⟨⟨other, name⟩, held, rfl⟩ := lookup
  have paired := (pairs.inverse _ _).mpr held
  rw [unstored other] at paired
  cases paired

theorem Runs.faithful_iff (calls : List (Domain × Bool)) :
    Faithful ops range network host store calls ↔
      ∀ call ∈ calls, (range.get call.2).isValid = true → storable call.1 := by
  constructor
  · intro faithful call member configured
    by_contra refused
    obtain ⟨before, later, split⟩ := List.append_of_mem member
    obtain ⟨pairs', count', runs', -⟩ := runs.run keeps masks before
    obtain ⟨address, served⟩ := faithful.served before call.1 call.2 later split configured
    exact runs'.not_served keeps masks configured refused later address served
  · intro stored
    constructor
    · intro before _
      obtain ⟨pairs', count', runs', -⟩ := runs.run keeps masks before
      exact runs'.inverse keeps
    · intro before domain isIPv6 later split configured
      obtain ⟨pairs', count', runs', -⟩ := runs.run keeps masks before
      have member : (domain, isIPv6) ∈ calls := by
        rw [split]
        exact List.mem_append_right _ List.mem_cons_self
      exact runs'.served keeps masks configured (stored _ member configured) later

end

end

/-- A file without buckets stays as it is at a start: it has no metadata and nothing to reset. -/
theorem CacheFile.start_empty [Bolt.Engine] [Bolt.Documented] :
    (cacheFile.reset (cacheFile.metadata {}).1).1 = {} := by
  have metadata : cacheFile.metadata {} = ({}, none) := by
    show CacheFile.fakeIPMetadata {} = _
    rw [fakeIPMetadata, Bolt.batch_of_error (by rfl : metadataTx _ = .error _)]
    rfl
  have reset : CacheFile.resetTx (fun _ => none) = .error .bucketNotFound := by
    unfold resetTx
    rw [Bolt.bind_apply, Bolt.deleteBucket_of_not_isSome (by simp)]
    rfl
  rw [metadata]
  show (CacheFile.fakeIPReset {}).1 = _
  rw [fakeIPReset, Bolt.batch_of_error reset]

/-- From a fresh storage on, the mappings of the storage in memory are faithful whatever is
created. Those of the cache file, over a database that does as its documentation says, are exactly
when every domain that is created in a configured range is a key of its buckets. -/
theorem fakeIP_faithful [Bolt.Engine] [Bolt.Documented] {range : Families Prefix}
    {network host : Bool → Nat} (masks : Masks range network host) :
    (∀ calls, Faithful memory range network host (start memory range {}) calls) ∧
      ∀ calls, Faithful cacheFile range network host (start cacheFile range {}) calls ↔
        ∀ call ∈ calls, (range.get call.2).isValid = true → Bolt.Storable call.1 := by
  have inMemory : Runs MemoryStorage.Holds range network host (start memory range {})
      empty fun _ => 0 := runs_start masks rfl MemoryStorage.holds_empty
  have inFile : Runs CacheFile.Holds range network host (start cacheFile range {})
      empty fun _ => 0 := by
    refine runs_start masks rfl ?_
    rw [CacheFile.start_empty]
    exact CacheFile.holds_empty
  refine ⟨fun calls => ?_, fun calls => inFile.faithful_iff cacheFile_keeps masks calls⟩
  exact (inMemory.faithful_iff memory_keeps masks calls).mpr fun _ _ _ => trivial

/-- The usual range, 198.18.0.0/15, and no IPv6. -/
def usualRange : Families Prefix := ⟨.prefixFrom (.v4 0xC6120000) 15, {}⟩

theorem masks_usualRange : Masks usualRange (fun _ => 0xC6120000) fun _ => 17 where
  masked {isIPv6} valid := by
    cases isIPv6 with
    | false => exact ⟨rfl, rfl, by decide, by decide, by decide⟩
    | true => cases valid
  wide _ := by decide

section

attribute [local instance] Bolt.bbolt Bolt.documented_bbolt

/-- `a.b` and `c.d`, created one after the other. -/
theorem fakeIP_faithful_usualRange :
    Masks usualRange (fun _ => 0xC6120000) (fun _ => 17) ∧
      Faithful cacheFile usualRange (fun _ => 0xC6120000) (fun _ => 17)
        (start cacheFile usualRange {}) [([97, 46, 98], false), ([99, 46, 100], false)] :=
  ⟨masks_usualRange, ((fakeIP_faithful masks_usualRange).2 _).mpr (by decide)⟩

/-- The empty domain gets 198.18.0.2, which `Lookup` does not know afterwards. -/
theorem create_empty_domain :
    ((start cacheFile usualRange {}).create cacheFile [] false).2 = .ok (.v4 0xC6120002) ∧
      ((start cacheFile usualRange {}).create cacheFile [] false).1.lookup cacheFile
        (.v4 0xC6120002) = none ∧
      ¬Faithful cacheFile usualRange (fun _ => 0xC6120000) (fun _ => 17)
        (start cacheFile usualRange {}) [([], false)] := by
  have returned : ((start cacheFile usualRange {}).create cacheFile [] false).2 =
      .ok (.v4 0xC6120002) := by decide +kernel
  have unknown : ((start cacheFile usualRange {}).create cacheFile [] false).1.lookup cacheFile
      (.v4 0xC6120002) = none := by decide +kernel
  refine ⟨returned, unknown, fun faithful => ?_⟩
  obtain ⟨address, served⟩ := faithful.served [] [] false [] rfl rfl
  cases unknown.symm.trans served.lookup

end

end FakeIP

end SingBox
