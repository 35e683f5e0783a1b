/-
This file follows the inbound of bonded connections along every sequence of
requests. A bonded connection that it forms has the latest sub-connections of the
client, each of them present; and the handler panics exactly when a group becomes as
large as a request says while one of its indices lies outside.
-/

import SingBox.Bond
import SingBox.Log
import SingBox.Machine

namespace SingBox.Bond

open Machine Table

variable {UUID Destination Conn : Type} [DecidableEq UUID]

/-- A request arrives on a connection, or the group of a client expires. -/
inductive Event (UUID Destination Conn : Type) where
  | request (request : Request UUID Destination) (conn : Conn)
  | evict (uuid : UUID)

/-- A bonded connection that was formed, with the request that completed it and all requests that
had arrived by then. -/
structure Formed (UUID Destination Conn : Type) where
  received : List (Request UUID Destination × Conn)
  request : Request UUID Destination
  conns : List (Option Conn)

/-- The inbound and its history. A panic ends the program. -/
structure Inbound (UUID Destination Conn : Type) where
  groups : Table UUID (Group Conn) := .empty
  received : List (Request UUID Destination × Conn) := []
  formed : List (Formed UUID Destination Conn) := []
  crashed : Bool := false

namespace Inbound

def handle (inbound : Inbound UUID Destination Conn) (request : Request UUID Destination)
    (conn : Conn) : Inbound UUID Destination Conn :=
  let received := inbound.received ++ [(request, conn)]
  match connHandler inbound.groups request conn with
  | .value (groups, .routed bonded _) =>
    { groups, received, formed := inbound.formed ++ [⟨received, request, bonded.conns⟩] }
  | .value (groups, _) => { inbound with groups, received }
  | _ => { inbound with crashed := true }

def step (inbound : Inbound UUID Destination Conn) (event : Event UUID Destination Conn) :
    Inbound UUID Destination Conn :=
  if inbound.crashed then inbound
  else
    match event with
    | .request request conn => inbound.handle request conn
    | .evict uuid => { inbound with groups := inbound.groups.erase uuid }

/-- When the indices that have arrived for a client, with the one of the request, are as many as
the request says, they all lie below that number. -/
def Orderly (inbound : Inbound UUID Destination Conn) : Event UUID Destination Conn → Prop
  | .request request conn =>
    (joined inbound.groups request conn).entries.length = request.count.toNat →
      ∀ entry ∈ (joined inbound.groups request conn).entries,
        entry.1.toNat < request.count.toNat
  | .evict _ => True

end Inbound

def run (events : List (Event UUID Destination Conn)) : Inbound UUID Destination Conn :=
  Machine.drive Inbound.step {} events

/-- The latest connection that arrived for an index of a client. -/
def latest (received : List (Request UUID Destination × Conn)) (uuid : UUID) (index : Nat) :
    Option Conn :=
  (received.reverse.find? fun entry => entry.1.uuid = uuid ∧ entry.1.index.toNat = index).map
    Prod.snd

theorem latest_snoc (received : List (Request UUID Destination × Conn))
    (request : Request UUID Destination) (conn : Conn) (uuid : UUID) (index : Nat) :
    latest (received ++ [(request, conn)]) uuid index =
      if request.uuid = uuid ∧ request.index.toNat = index then some conn
      else latest received uuid index := by
  unfold latest
  rw [List.reverse_append, List.reverse_singleton, List.singleton_append, List.find?_cons]
  split_ifs with same
  · rw [decide_eq_true same]
    rfl
  · rw [decide_eq_false same]

/-- The group holds the latest connections of a client. -/
def Current (received : List (Request UUID Destination × Conn)) (uuid : UUID) (group : Group Conn) :
    Prop :=
  ∀ entry ∈ group.entries, latest received uuid entry.1.toNat = some entry.2.conn

variable {inbound : Inbound UUID Destination Conn} {request : Request UUID Destination} {conn : Conn}

/-- What the handler does: it keeps the connection while the group is not complete; it takes a
complete group whose indices lie inside; and otherwise it panics. -/
inductive Handles (groups : Table UUID (Group Conn)) (request : Request UUID Destination)
    (conn : Conn) : Outcome Empty (Table UUID (Group Conn) × Handled Conn Destination) → Prop
  | stores (few : (joined groups request conn).entries.length ≠ request.count.toNat) :
    Handles groups request conn
      (.value (groups.set request.uuid (joined groups request conn), .stored))
  | takes {handled : Handled Conn Destination}
    (full : (joined groups request conn).entries.length = request.count.toNat)
    (below : ∀ entry ∈ (joined groups request conn).entries,
      entry.1.toNat < request.count.toNat)
    (conns : ∀ bonded destination, handled = .routed bonded destination → bonded.conns =
      (List.range request.count.toNat).map fun index =>
        ((joined groups request conn).slot index).map RatioConn.conn) :
    Handles groups request conn (.value (groups.set request.uuid .empty, handled))
  | panics (full : (joined groups request conn).entries.length = request.count.toNat)
    (outside : ¬∀ entry ∈ (joined groups request conn).entries,
      entry.1.toNat < request.count.toNat) : Handles groups request conn .panicked

theorem handles_connHandler (groups : Table UUID (Group Conn))
    (request : Request UUID Destination) (conn : Conn) :
    Handles groups request conn (connHandler groups request conn) := by
  unfold connHandler Group.slots
  dsimp only
  split
  next full =>
    rw [full]
    split
    next below =>
      split
      · refine .takes full below fun bonded destination same => ?_
        cases same
      · refine .takes full below fun bonded destination same => ?_
        cases same
        rw [List.map_map]
        rfl
    next outside => exact .panics full outside
  next few => exact .stores few

/-- What the groups hold are the latest connections, and what was formed has the latest
connections of that time, each of them present. -/
structure Sound (inbound : Inbound UUID Destination Conn) : Prop where
  groups : ∀ uuid group, inbound.groups.find? uuid = some group → ∀ entry ∈ group.entries,
    latest inbound.received uuid entry.1.toNat = some entry.2.conn
  formed : ∀ formed ∈ inbound.formed,
    formed.conns = (List.range formed.request.count.toNat).map
        (latest formed.received formed.request.uuid) ∧
      ∀ index < formed.request.count.toNat,
        (latest formed.received formed.request.uuid index).isSome

theorem Sound.of_joined (sound : Sound inbound) (request : Request UUID Destination) (conn : Conn) :
    Current (inbound.received ++ [(request, conn)]) request.uuid
      (joined inbound.groups request conn) := by
  intro entry member
  rw [latest_snoc]
  rcases mem_set.mp member with rfl | ⟨before, other⟩
  · exact if_pos ⟨rfl, rfl⟩
  · rw [if_neg fun same => other (UInt8.toNat_inj.mp same.2).symm]
    cases found : inbound.groups.find? request.uuid with
    | none =>
      rw [found] at before
      exact nomatch before
    | some group =>
      rw [found] at before
      exact sound.groups _ group found entry before

/-- The group of the request is replaced; the others have nothing new. -/
theorem Sound.set (sound : Sound inbound) {group : Group Conn}
    (new : Current (inbound.received ++ [(request, conn)]) request.uuid group) :
    ∀ uuid found, (inbound.groups.set request.uuid group).find? uuid = some found →
      Current (inbound.received ++ [(request, conn)]) uuid found := by
  intro uuid found listed entry member
  rcases find?_set_some listed with ⟨rfl, rfl⟩ | ⟨other, before⟩
  · exact new entry member
  · rw [latest_snoc, if_neg fun same => other same.1.symm]
    exact sound.groups uuid found before entry member

/-- A complete group whose indices lie inside has them all. -/
theorem mem_of_full {group : Group Conn} {count : Nat} (full : group.entries.length = count)
    (below : ∀ entry ∈ group.entries, entry.1.toNat < count) {index : Nat}
    (inside : index < count) : ∃ entry ∈ group.entries, entry.1.toNat = index := by
  subst full
  exact List.mem_map.mp ((Group.perm_range below).mem_iff.mpr (List.mem_range.mpr inside))

theorem Sound.handle (sound : Sound inbound) (request : Request UUID Destination) (conn : Conn) :
    Sound (inbound.handle request conn) := by
  have handles := handles_connHandler inbound.groups request conn
  unfold Inbound.handle
  generalize connHandler inbound.groups request conn = outcome at handles
  cases handles with
  | stores few => exact { sound with groups := sound.set (sound.of_joined request conn) }
  | @takes handled full below conns =>
    have emptied := sound.set (show Current (inbound.received ++ [(request, conn)]) request.uuid
      (.empty : Group Conn) from nofun)
    cases handled with
    | stored | invalidRatios => exact { sound with groups := emptied }
    | routed bonded destination =>
      refine ⟨emptied, fun formed member => ?_⟩
      rcases Log.mem_snoc member with before | rfl
      · exact sound.formed formed before
      · have each : ∀ index < request.count.toNat, ∃ entry : UInt8 × RatioConn Conn,
            (joined inbound.groups request conn).slot index = some entry.2 ∧
              latest (inbound.received ++ [(request, conn)]) request.uuid index =
                some entry.2.conn := by
          intro index inside
          obtain ⟨entry, listed, rfl⟩ := mem_of_full full below inside
          exact ⟨entry, Group.slot_eq listed, sound.of_joined request conn entry listed⟩
        refine ⟨?_, fun index inside => ?_⟩
        · rw [conns bonded destination rfl]
          refine List.map_congr_left fun index member => ?_
          obtain ⟨entry, slot, last⟩ := each index (List.mem_range.mp member)
          rw [slot, last]
          rfl
        · obtain ⟨entry, -, last⟩ := each index inside
          rw [last]
          rfl
  | panics => exact { sound with }

theorem Sound.step (sound : Sound inbound) (event : Event UUID Destination Conn) :
    Sound (inbound.step event) := by
  unfold Inbound.step
  split
  · exact sound
  · cases event with
    | request request conn => exact sound.handle request conn
    | evict uuid =>
      refine { sound with groups := fun other group listed => ?_ }
      exact sound.groups other group (find?_erase_some listed).2

/-- A step of a program that runs panics exactly when it is not orderly. -/
theorem crashed_step (running : inbound.crashed = false) (event : Event UUID Destination Conn) :
    (inbound.step event).crashed = false ↔ inbound.Orderly event := by
  unfold Inbound.step
  rw [if_neg (by rw [running]; decide)]
  cases event with
  | evict uuid => exact ⟨fun _ => trivial, fun _ => running⟩
  | request request conn =>
    have handles := handles_connHandler inbound.groups request conn
    dsimp only
    unfold Inbound.handle
    generalize connHandler inbound.groups request conn = outcome at handles
    cases handles with
    | stores few => exact ⟨fun _ full => absurd full few, fun _ => running⟩
    | @takes handled full below conns =>
      refine ⟨fun _ _ => below, fun _ => ?_⟩
      cases handled with
      | stored | invalidRatios => exact running
      | routed bonded destination => rfl
    | panics full outside => exact ⟨nofun, fun orderly => absurd (orderly full) outside⟩

theorem crashed_drive (crashed : inbound.crashed = true)
    (events : List (Event UUID Destination Conn)) :
    (drive Inbound.step inbound events).crashed = true := by
  refine invariant_events (fun state : Inbound UUID Destination Conn => state.crashed = true)
    crashed (fun state event crashed => ?_) events
  unfold Inbound.step
  rw [if_pos crashed]
  exact crashed

theorem crashed_drive_iff (running : inbound.crashed = false)
    (events : List (Event UUID Destination Conn)) :
    (drive Inbound.step inbound events).crashed = false ↔
      Meets Inbound.step Inbound.Orderly inbound events := by
  induction events generalizing inbound with
  | nil => exact ⟨fun _ => trivial, fun _ => running⟩
  | cons event events ih =>
    by_cases orderly : inbound.Orderly event
    · have next := (crashed_step running event).mpr orderly
      exact (ih next).trans (and_iff_right orderly).symm
    · have next : (inbound.step event).crashed = true :=
        Bool.eq_true_of_not_eq_false fun next => orderly ((crashed_step running event).mp next)
      have last := crashed_drive next events
      exact ⟨fun runs => absurd (last.symm.trans runs) nofun, fun met => absurd met.1 orderly⟩

/-- Along every sequence of requests: the handler never panics exactly when the indices of every
group that becomes complete lie inside; and a bonded connection has the latest connections that
arrived for the indices of its client, each of them present. -/
theorem assembly_sound (events : List (Event UUID Destination Conn)) :
    ((run events).crashed = false ↔
        Machine.Meets Inbound.step Inbound.Orderly ({} : Inbound UUID Destination Conn) events) ∧
      ∀ formed ∈ (run events).formed,
        formed.conns = (List.range formed.request.count.toNat).map
            (latest formed.received formed.request.uuid) ∧
          ∀ index < formed.request.count.toNat,
            (latest formed.received formed.request.uuid index).isSome := by
  refine ⟨crashed_drive_iff rfl events, ?_⟩
  have start : Sound ({} : Inbound UUID Destination Conn) := ⟨nofun, nofun⟩
  exact (invariant_events Sound start (fun _ event sound => sound.step event)
    events).formed

/-- The only request of a group of one has an index outside. -/
theorem indexOutside_panics :
    (run [.request (⟨0, 5, 1, 100, 100, ()⟩ : Request Nat Unit) 7]).crashed = true := by
  decide

end SingBox.Bond
