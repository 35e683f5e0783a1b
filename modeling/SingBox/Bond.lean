/-
This file models bonded connections: how the ratios of the sub-connections split a
write, which configurations the outbound accepts, and how the inbound assembles the
sub-connections of a client. The totals of the ratios are bytes, so what is accepted
is a sum of 100 modulo 256; a write whose products with a ratio fit into an `int` is
split without a panic exactly when the sum is 100 as a number.
-/

import SingBox.Outcome
import SingBox.Table
import Mathlib

namespace SingBox.Bond

open List

/-! ### Splitting by ratios -/

/-- How many bits an `int` of the platform has. -/
inductive IntSize where
  | bits32
  | bits64

namespace IntSize

/-- The first number that an `int` cannot hold. -/
def limit : IntSize → Nat
  | bits32 => 2 ^ 31
  | bits64 => 2 ^ 63

/-- The `int` that is left of a result; it wraps around. -/
def wrap (size : IntSize) (value : Int) : Int := Int.bmod value (2 * size.limit)

theorem le_limit (size : IntSize) : 2 ^ 31 ≤ size.limit := by
  cases size <;> decide

theorem wrap_eq (size : IntSize) {value : Int} (low : 0 ≤ value) (high : value < size.limit) :
    size.wrap value = value := by
  unfold wrap
  rw [Int.bmod_eq_of_le] <;> omega

end IntSize

variable (size : IntSize)

/-- The loop of `splitByRatios`; the last part is what remains. -/
def splitLoop (number : Int) : Int → List UInt8 → List Int
  | _, [] => []
  | remaining, [_] => [remaining]
  | remaining, ratio :: next :: rest =>
    let part := (size.wrap (number * ratio.toNat)).tdiv 100
    part :: splitLoop number (size.wrap (remaining - part)) (next :: rest)

def splitByRatios (number : Int) (ratios : List UInt8) : Outcome Empty (List Int) :=
  if ratios = [] then .panicked else .value (splitLoop size number number ratios)

/-- The chunks that `Write` cuts out of its argument, from the place it has reached. -/
def chunksOf (b : List UInt8) : Int → List Int → Outcome Empty (List (List UInt8))
  | _, [] => .value []
  | total, part :: rest =>
    if part = 0 then (fun chunks => [] :: chunks) <$> chunksOf b total rest
    else
      let stop := size.wrap (total + part)
      if stop < total ∨ (b.length : Int) < stop then .panicked
      else do
        let chunks ← chunksOf b stop rest
        pure (((b.drop total.toNat).take part.toNat) :: chunks)

/-- What `Write` sends on the sub-connections after the header. -/
def writeChunks (ratios : List UInt8) (b : List UInt8) : Outcome Empty (List (List UInt8)) := do
  let parts ← splitByRatios size b.length ratios
  chunksOf size b 0 parts

def weight (ratios : List UInt8) : Nat := (ratios.map UInt8.toNat).sum

/-- The number is split into one part for every ratio, none of them negative. -/
def Splits (number : Nat) (ratios : List UInt8) : Prop :=
  ∃ parts, splitByRatios size number ratios = .value parts ∧ parts.length = ratios.length ∧
    (∀ part ∈ parts, 0 ≤ part) ∧ parts.sum = number

/-- The products of the number with a ratio do not overflow. -/
def Fits (number : Nat) : Prop := number * 255 < size.limit

theorem length_splitLoop (number remaining : Int) (ratios : List UInt8) :
    (splitLoop size number remaining ratios).length = ratios.length := by
  fun_induction splitLoop size number remaining ratios with
  | case1 | case2 => rfl
  | case3 remaining ratio next rest part ih =>
    exact congrArg (· + 1) ih

variable {size} {ratios : List UInt8} {number : Nat}

theorem Fits.wrap_mul (fits : Fits size number) (ratio : UInt8) :
    size.wrap ((number : Int) * ratio.toNat) = (number * ratio.toNat : Nat) := by
  have small : ratio.toNat ≤ 255 := Nat.le_of_lt_succ ratio.toNat_lt
  have bound : number * ratio.toNat ≤ number * 255 := Nat.mul_le_mul_left _ small
  unfold Fits at fits
  rw [← Int.natCast_mul]
  exact size.wrap_eq (Int.natCast_nonneg _) (by omega)

/-- While what remains has room for the ratios that are left, no part is negative and the parts
add up to what remains. -/
theorem splitLoop_parts (fits : Fits size number) (remaining : Nat) (some : ratios ≠ [])
    (room : number * weight ratios ≤ 100 * remaining) (small : remaining < size.limit) :
    (∀ part ∈ splitLoop size number remaining ratios, 0 ≤ part) ∧
      (splitLoop size number remaining ratios).sum = remaining := by
  induction ratios generalizing remaining with
  | nil => exact absurd rfl some
  | cons ratio rest ih =>
    cases rest with
    | nil => simp [splitLoop]
    | cons next rest =>
      have total : number * weight (ratio :: next :: rest) =
          number * ratio.toNat + number * weight (next :: rest) := by
        rw [weight, map_cons, sum_cons, Nat.mul_add]
        rfl
      -- the part is the integer share, and the rest keeps the room of the other ratios
      have share : (size.wrap ((number : Int) * ratio.toNat)).tdiv 100 =
          (number * ratio.toNat / 100 : Nat) := by
        rw [fits.wrap_mul]
        rfl
      have left : size.wrap ((remaining : Int) - (number * ratio.toNat / 100 : Nat)) =
          (remaining - number * ratio.toNat / 100 : Nat) := by
        rw [size.wrap_eq] <;> omega
      obtain ⟨nonneg, sum⟩ := ih (remaining - number * ratio.toNat / 100)
        (cons_ne_nil _ _) (by omega) (by omega)
      rw [splitLoop, share, left]
      refine ⟨forall_mem_cons.mpr ⟨Int.natCast_nonneg _, nonneg⟩, ?_⟩
      rw [sum_cons, sum]
      omega

theorem fits_hundred (size : IntSize) : Fits size 100 := by
  have large := size.le_limit
  unfold Fits
  omega

/-- A split of 100 shows the ratios themselves. -/
theorem weight_le_of_nonneg {remaining : Int} (some : ratios ≠ [])
    (nonneg : ∀ part ∈ splitLoop size (100 : Nat) remaining ratios, 0 ≤ part) :
    (weight ratios : Int) ≤ (splitLoop size (100 : Nat) remaining ratios).sum + 255 := by
  induction ratios generalizing remaining with
  | nil => exact absurd rfl some
  | cons ratio rest ih =>
    cases rest with
    | nil =>
      have last : 0 ≤ remaining := nonneg remaining (mem_singleton.mpr rfl)
      have small := ratio.toNat_lt
      simp only [splitLoop, weight, map_cons, map_nil, sum_cons, sum_nil]
      omega
    | cons next rest =>
      have whole : (size.wrap (((100 : Nat) : Int) * ratio.toNat)).tdiv 100 = ratio.toNat := by
        rw [(fits_hundred size).wrap_mul]
        exact congrArg Int.ofNat (Nat.mul_div_cancel_left _ (by decide))
      rw [splitLoop, whole] at nonneg ⊢
      have later := ih (cons_ne_nil _ _) (forall_mem_cons.mp nonneg).2
      rw [weight, map_cons, sum_cons, sum_cons]
      rw [weight] at later
      omega

/-- Ratios that are accepted split every number whose products do not overflow exactly when their
sum is 100 as a number. -/
theorem splits_iff (accepted : weight ratios % 256 = 100) :
    (∀ number, Fits size number → Splits size number ratios) ↔ weight ratios = 100 := by
  have some : ratios ≠ [] := by
    rintro rfl
    exact absurd accepted (by decide)
  have splits : ∀ number : Nat, splitByRatios size number ratios =
      .value (splitLoop size number number ratios) := fun number => if_neg some
  constructor
  · intro every
    obtain ⟨parts, split, -, nonneg, sum⟩ := every 100 (fits_hundred size)
    cases (splits 100).symm.trans split
    have bound := weight_le_of_nonneg some nonneg
    omega
  · intro hundred number fits
    have small : number < size.limit := by
      unfold Fits at fits
      omega
    obtain ⟨nonneg, sum⟩ := splitLoop_parts fits number some (by rw [hundred]; omega) small
    exact ⟨_, splits number, length_splitLoop _ _ _ _, nonneg, sum⟩

theorem returns_chunksOf (b : List UInt8) (small : b.length < size.limit) (total : Nat)
    {parts : List Int} (nonneg : ∀ part ∈ parts, 0 ≤ part)
    (inside : total + parts.sum ≤ b.length) : (chunksOf size b total parts).Returns := by
  induction parts generalizing total with
  | nil => trivial
  | cons part rest ih =>
    obtain ⟨here, later⟩ := forall_mem_cons.mp nonneg
    have tail : 0 ≤ rest.sum := sum_nonneg later
    rw [sum_cons] at inside
    unfold chunksOf
    split
    · exact Outcome.returns_bind.mpr ⟨ih _ later (by omega), fun _ _ => trivial⟩
    · have stop : size.wrap (total + part) = (total + part.toNat : Nat) := by
        rw [size.wrap_eq] <;> omega
      rw [stop]
      dsimp only
      rw [if_neg (by omega)]
      exact Outcome.returns_bind.mpr ⟨ih _ later (by omega), fun _ _ => trivial⟩

/-- A write of ratios whose sum is 100 stays inside its argument. -/
theorem returns_writeChunks (hundred : weight ratios = 100) (b : List UInt8)
    (fits : Fits size b.length) : (writeChunks size ratios b).Returns := by
  obtain ⟨parts, split, -, nonneg, sum⟩ :=
    (splits_iff (by rw [hundred])).mpr hundred b.length fits
  unfold Fits at fits
  rw [writeChunks, split]
  exact returns_chunksOf b (by omega) 0 nonneg (by rw [sum]; omega)

/-! ### The outbound -/

/-- An outbound of the options, with its ratios and how often it is used. -/
structure BondOutbound (Settings : Type) where
  outbound : Settings
  downloadRatio : UInt8
  uploadRatio : UInt8
  count : UInt8

structure Outbound (Instance : Type) where
  outbounds : List Instance := []
  downloadRatios : List UInt8 := []
  uploadRatios : List UInt8 := []

/-- Why `NewOutbound` fails: an outbound could not be created, or the ratios are not accepted. -/
inductive OutboundError where
  | create
  | invalidRatios
  deriving DecidableEq

section Outbound

variable {Settings Instance : Type} (create : Settings → Option Instance)

/-- The loop of `NewOutbound`, with the totals of the ratios. -/
def newOutboundLoop : List (BondOutbound Settings) → Outbound Instance → UInt8 → UInt8 →
    Except OutboundError (Outbound Instance)
  | [], bond, totalDownloadRatio, totalUploadRatio =>
    if totalDownloadRatio ≠ 100 ∨ totalUploadRatio ≠ 100 then .error .invalidRatios
    else .ok bond
  | options :: rest, bond, totalDownloadRatio, totalUploadRatio =>
    match create options.outbound with
    | none => .error .create
    | some outbound =>
      newOutboundLoop rest {
        outbounds := bond.outbounds ++ [outbound]
        downloadRatios := bond.downloadRatios ++ [options.downloadRatio]
        uploadRatios := bond.uploadRatios ++ [options.uploadRatio] }
        (totalDownloadRatio + options.downloadRatio) (totalUploadRatio + options.uploadRatio)

/-- `NewOutbound`: every outbound is created as often as its count says, at least once. -/
def newOutbound (outbounds : List (BondOutbound Settings)) :
    Except OutboundError (Outbound Instance) :=
  newOutboundLoop create (outbounds.flatMap fun options =>
    List.replicate (if options.count = 0 then 1 else options.count.toNat) options) {} 0 0

theorem weight_snoc (ratios : List UInt8) (ratio : UInt8) :
    weight (ratios ++ [ratio]) = weight ratios + ratio.toNat := by
  simp [weight]

theorem accepted_newOutboundLoop (outbounds : List (BondOutbound Settings))
    {bond result : Outbound Instance} {totalDownloadRatio totalUploadRatio : UInt8}
    (download : totalDownloadRatio.toNat = weight bond.downloadRatios % 256)
    (upload : totalUploadRatio.toNat = weight bond.uploadRatios % 256)
    (made : newOutboundLoop create outbounds bond totalDownloadRatio totalUploadRatio =
      .ok result) :
    weight result.downloadRatios % 256 = 100 ∧ weight result.uploadRatios % 256 = 100 := by
  induction outbounds generalizing bond totalDownloadRatio totalUploadRatio with
  | nil =>
    unfold newOutboundLoop at made
    split_ifs at made with refused
    obtain ⟨downloads, uploads⟩ := not_or.mp refused
    cases made
    rw [← download, ← upload, not_not.mp downloads, not_not.mp uploads]
    decide
  | cons options rest ih =>
    unfold newOutboundLoop at made
    split at made
    · exact nomatch made
    · refine ih ?_ ?_ made
      · rw [weight_snoc, UInt8.toNat_add, download]
        omega
      · rw [weight_snoc, UInt8.toNat_add, upload]
        omega

end Outbound

/-! ### The inbound -/

/-- A request that opens a sub-connection. -/
structure Request (UUID Destination : Type) where
  uuid : UUID
  index : UInt8
  count : UInt8
  downloadRatio : UInt8
  uploadRatio : UInt8
  destination : Destination

structure RatioConn (Conn : Type) where
  conn : Conn
  downloadRatio : UInt8
  uploadRatio : UInt8
  deriving DecidableEq

/-- A bonded connection; a sub-connection that is missing is `none`. -/
structure BondedConn (Conn : Type) where
  conns : List (Option Conn)
  downloadRatios : List UInt8
  uploadRatios : List UInt8
  deriving DecidableEq

/-- What the handler does with a connection: it keeps it for later, closes all connections of the
group because of their ratios, or routes the bonded connection. -/
inductive Handled (Conn Destination : Type) where
  | stored
  | invalidRatios (closed : List (Option Conn))
  | routed (conn : BondedConn Conn) (destination : Destination)
  deriving DecidableEq

/-- The sub-connections of a client that have arrived. -/
abbrev Group (Conn : Type) := Table UInt8 (RatioConn Conn)

section Inbound

variable {UUID Destination Conn : Type}

namespace Group

/-- The slot of an index after the loop over the group. -/
def slot (group : Group Conn) (index : Nat) : Option (RatioConn Conn) :=
  group.find? (UInt8.ofNat index)

/-- The slices that the loop over the group fills. An entry whose index lies outside panics; the
order in which the entries are visited does not matter, since every index is there once. -/
def slots (group : Group Conn) : Outcome Empty (List (Option (RatioConn Conn))) :=
  if ∀ entry ∈ group.entries, entry.1.toNat < group.entries.length then
    .value ((List.range group.entries.length).map group.slot)
  else .panicked

def total (group : Group Conn) (ratio : RatioConn Conn → UInt8) : UInt8 :=
  group.entries.foldr (fun entry sum => sum + ratio entry.2) 0

end Group

variable [DecidableEq UUID]

/-- The group of a request, with the new connection. -/
def joined (groups : Table UUID (Group Conn)) (request : Request UUID Destination) (conn : Conn) :
    Group Conn :=
  ((groups.find? request.uuid).getD .empty).set request.index
    ⟨conn, request.downloadRatio, request.uploadRatio⟩

/-- The slice of ratios that the loop over the group fills. -/
def ratiosOf (ratio : RatioConn Conn → UInt8) (slots : List (Option (RatioConn Conn))) :
    List UInt8 :=
  slots.map fun slot => (slot.map ratio).getD 0

/-- `connHandler` with the request that it has read. -/
def connHandler (groups : Table UUID (Group Conn)) (request : Request UUID Destination)
    (conn : Conn) : Outcome Empty (Table UUID (Group Conn) × Handled Conn Destination) :=
  let group := joined groups request conn
  if group.entries.length = request.count.toNat then do
    let slots ← group.slots
    let conns := slots.map fun slot => slot.map RatioConn.conn
    if group.total RatioConn.downloadRatio ≠ 100 ∨ group.total RatioConn.uploadRatio ≠ 100 then
      pure (groups.set request.uuid .empty, .invalidRatios conns)
    else
      pure (groups.set request.uuid .empty, .routed
        ⟨conns, ratiosOf RatioConn.downloadRatio slots, ratiosOf RatioConn.uploadRatio slots⟩
        request.destination)
  else pure (groups.set request.uuid group, .stored)

/-- Different indices below their number are all the numbers below it. -/
theorem Group.perm_range {group : Group Conn}
    (below : ∀ entry ∈ group.entries, entry.1.toNat < group.entries.length) :
    (group.entries.map fun entry => entry.1.toNat).Perm (List.range group.entries.length) := by
  have nodup : (group.entries.map fun entry => entry.1.toNat).Nodup := by
    have keys := group.distinct.map (f := UInt8.toNat) fun _ _ same => UInt8.toNat_inj.mp same
    rwa [map_map] at keys
  refine (nodup.subperm fun index member => ?_).perm_of_length_le (by simp)
  obtain ⟨entry, listed, rfl⟩ := mem_map.mp member
  exact mem_range.mpr (below entry listed)

theorem Group.slot_eq {group : Group Conn} {entry : UInt8 × RatioConn Conn}
    (member : entry ∈ group.entries) : group.slot entry.1.toNat = some entry.2 := by
  rw [slot, UInt8.ofNat_toNat]
  exact Table.find?_eq_some_iff.mpr member

theorem Group.weight_ratiosOf {group : Group Conn}
    (below : ∀ entry ∈ group.entries, entry.1.toNat < group.entries.length)
    (ratio : RatioConn Conn → UInt8) :
    weight (ratiosOf ratio ((List.range group.entries.length).map group.slot)) =
      (group.entries.map fun entry => (ratio entry.2).toNat).sum := by
  rw [weight, ratiosOf, map_map, map_map]
  refine (((perm_range below).symm.map _).sum_eq).trans ?_
  rw [map_map]
  refine congrArg List.sum (map_congr_left fun entry member => ?_)
  simp only [Function.comp_apply, slot_eq member, Option.map_some, Option.getD_some]

theorem Group.toNat_total (group : Group Conn) (ratio : RatioConn Conn → UInt8) :
    (group.total ratio).toNat =
      (group.entries.map fun entry => (ratio entry.2).toNat).sum % 256 := by
  unfold total
  induction group.entries with
  | nil => rfl
  | cons entry rest ih =>
    rw [foldr_cons, UInt8.toNat_add, ih, map_cons, sum_cons]
    omega

theorem accepted_connHandler {groups after : Table UUID (Group Conn)}
    {request : Request UUID Destination} {conn : Conn} {bonded : BondedConn Conn}
    {destination : Destination}
    (handled : connHandler groups request conn = .value (after, .routed bonded destination)) :
    weight bonded.downloadRatios % 256 = 100 ∧ weight bonded.uploadRatios % 256 = 100 := by
  unfold connHandler Group.slots at handled
  dsimp only at handled
  split at handled
  · split at handled
    next below =>
      split at handled
      · exact nomatch handled
      next accepted =>
        obtain ⟨downloads, uploads⟩ := not_or.mp accepted
        cases handled
        rw [Group.weight_ratiosOf below, Group.weight_ratiosOf below, ← Group.toNat_total,
          ← Group.toNat_total, not_not.mp downloads, not_not.mp uploads]
        decide
    · exact nomatch handled
  · exact nomatch handled

end Inbound

/-! ### What is accepted can be split -/

/-- Ratios split every number whose products do not overflow, and a write of such a length stays
inside its argument. -/
def Splittable (size : IntSize) (ratios : List UInt8) : Prop :=
  (∀ number, Fits size number → Splits size number ratios) ∧
    ∀ b, Fits size b.length → (writeChunks size ratios b).Returns

theorem splittable_iff (accepted : weight ratios % 256 = 100) :
    Splittable size ratios ↔ weight ratios = 100 :=
  ⟨fun splittable => (splits_iff accepted).mp splittable.1,
    fun hundred => ⟨(splits_iff accepted).mpr hundred, returns_writeChunks hundred⟩⟩

/-- The ratios of an outbound that is accepted, and of a connection that the inbound bonds, are
splittable exactly when their sum is 100 as a number. -/
theorem accepted_splittable [DecidableEq UUID] {Settings Instance : Type} (size : IntSize)
    (create : Settings → Option Instance) (outbounds : List (BondOutbound Settings))
    (groups : Table UUID (Group Conn)) (request : Request UUID Destination) (conn : Conn) :
    (∀ bond, newOutbound create outbounds = .ok bond →
      (Splittable size bond.downloadRatios ↔ weight bond.downloadRatios = 100) ∧
        (Splittable size bond.uploadRatios ↔ weight bond.uploadRatios = 100)) ∧
      ∀ after bonded destination,
        connHandler groups request conn = .value (after, .routed bonded destination) →
          (Splittable size bonded.downloadRatios ↔ weight bonded.downloadRatios = 100) ∧
            (Splittable size bonded.uploadRatios ↔ weight bonded.uploadRatios = 100) := by
  refine ⟨fun bond made => ?_, fun after bonded destination handled => ?_⟩
  · have accepted := accepted_newOutboundLoop create _ rfl rfl made
    exact ⟨splittable_iff accepted.1, splittable_iff accepted.2⟩
  · have accepted := accepted_connHandler handled
    exact ⟨splittable_iff accepted.1, splittable_iff accepted.2⟩

/-- Two outbounds with the ratios 200 and 156 are accepted, and a write of 100 bytes panics. The
second part is negative, so a larger capacity of the argument would not help. -/
theorem wrappedRatios_panic :
    (newOutbound some [⟨(), 200, 200, 0⟩, ⟨(), 156, 156, 1⟩]).toOption.map Outbound.uploadRatios =
        some [200, 156] ∧
      splitByRatios .bits64 100 [200, 156] = .value [200, -100] ∧
      writeChunks .bits64 [200, 156] (List.replicate 100 0) = .panicked := by
  decide +kernel

end SingBox.Bond
