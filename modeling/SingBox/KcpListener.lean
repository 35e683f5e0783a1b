/-
This file is about the sessions of the KCP listener. Every packet is handled by a
goroutine of its own, which looks up the session of the conversation, makes one when
there is none, and enters it afterwards; the steps of several goroutines may alternate.
-/

import SingBox.Log
import SingBox.Machine

namespace SingBox.KcpListener

open Machine

variable {Segment : Type}

/-- Where the goroutine of a packet is in `handlePacket`. Connections are numbered in the order in
which `NewConnection` makes them; at the end it is known which one was given the segments. -/
inductive Phase (Segment : Type) where
  | arrived (segments : List Segment)
  | missed (segments : List Segment)
  | made (segments : List Segment) (conn : Nat)
  | stored (segments : List Segment) (conn : Nat)
  | input (segments : List Segment) (conn : Nat)
  | returned (segments : List Segment) (conn : Option Nat)

/-- The listener, for one remote address and conversation. -/
structure Server (Segment : Type) where
  session : Option Nat := none
  connections : Nat := 0
  handled : List Nat := []
  goroutines : List (Phase Segment) := []

inductive Event (Segment : Type) where
  | packet (segments : List Segment)
  | advance (place : Nat)

/-- The stages of a goroutine that found no session, until it calls the handler. -/
inductive Stage where
  | missed
  | made
  | stored
  deriving DecidableEq

def Phase.stage : Phase Segment → Option Stage
  | .missed _ => some .missed
  | .made _ _ => some .made
  | .stored _ _ => some .stored
  | _ => none

/-- The number of goroutines at a stage. -/
def Server.count (server : Server Segment) (stage : Stage) : Nat :=
  server.goroutines.countP fun phase => phase.stage = some stage

namespace Server

/-- The next operation of `handlePacket`, for packets whose first segment may be a command to
terminate. -/
def operate (terminates : Segment → Bool) (server : Server Segment) :
    Phase Segment → Server Segment × Phase Segment
  | .arrived [] => (server, .returned [] none)
  | .arrived (first :: rest) =>
    match server.session with
    | none => (server, if terminates first then .returned (first :: rest) none
      else .missed (first :: rest))
    | some conn => (server, .input (first :: rest) conn)
  | .missed segments =>
    ({ server with connections := server.connections + 1 }, .made segments server.connections)
  | .made segments conn => ({ server with session := some conn }, .stored segments conn)
  | .stored segments conn =>
    ({ server with handled := server.handled ++ [conn] }, .input segments conn)
  | .input segments conn => (server, .returned segments (some conn))
  | .returned segments conn => (server, .returned segments conn)

def step (terminates : Segment → Bool) (server : Server Segment) : Event Segment → Server Segment
  | .packet segments => { server with goroutines := server.goroutines ++ [.arrived segments] }
  | .advance place =>
    match server.goroutines[place]? with
    | none => server
    | some phase =>
      let (after, next) := server.operate terminates phase
      { after with goroutines := server.goroutines.set place next }

/-- A packet that finds no session does not begin with a command to terminate, and no other
goroutine is about to enter a session. -/
def Orderly (terminates : Segment → Bool) (server : Server Segment) : Event Segment → Prop
  | .packet _ => True
  | .advance place =>
    match server.goroutines[place]?, server.session with
    | some (.arrived (first :: _)), none =>
      terminates first = false ∧ server.count .missed = 0 ∧ server.count .made = 0
    | _, _ => True

end Server

/-- The goroutine has to do with the first connection only, and has given it its segments when it
returns. -/
def Phase.Right : Phase Segment → Prop
  | .made _ conn | .stored _ conn | .input _ conn => conn = 0
  | .returned segments conn => segments = [] ∨ conn = some 0
  | _ => True

/-- At most one goroutine ever finds no session: it makes the connection, enters it and calls the
handler. -/
structure Sound (server : Server Segment) : Prop where
  once : server.count .missed + server.connections ≤ 1
  made : server.connections =
    server.count .made + server.count .stored + server.handled.length
  fresh : server.session = none → server.count .stored + server.handled.length = 0
  session : ∀ conn, server.session = some conn → conn = 0
  right : ∀ phase ∈ server.goroutines, phase.Right

variable {terminates : Segment → Bool} {server : Server Segment}

/-- A goroutine moves on: what is left to see is how the counts change. -/
theorem Sound.move (sound : Sound server) {place : Nat} {phase : Phase Segment}
    (found : server.goroutines[place]? = some phase) (next : Phase Segment) (right : next.Right)
    (session : Option Nat) (connections : Nat) (handled : List Nat)
    (first : ∀ conn, session = some conn → conn = 0)
    (kept : ∀ count : Stage → Nat,
      (∀ stage, count stage + (if phase.stage = some stage then 1 else 0) =
        server.count stage + if next.stage = some stage then 1 else 0) →
      count .missed + connections ≤ 1 ∧
        connections = count .made + count .stored + handled.length ∧
        (session = none → count .stored + handled.length = 0)) :
    Sound ⟨session, connections, handled, server.goroutines.set place next⟩ := by
  obtain ⟨once, made, fresh⟩ := kept
    (Server.count ⟨session, connections, handled, server.goroutines.set place next⟩) fun stage => by
      have set := Log.countP_set (fun phase => decide (phase.stage = some stage)) found next
      simp only [decide_eq_true_eq] at set
      exact set
  refine ⟨once, made, fresh, first, fun other member => ?_⟩
  rcases List.mem_or_eq_of_mem_set member with before | rfl
  · exact sound.right other before
  · exact right

theorem Sound.advance (sound : Sound server) (place : Nat)
    (orderly : server.Orderly terminates (.advance place)) :
    Sound (server.step terminates (.advance place)) := by
  simp only [Server.Orderly] at orderly
  simp only [Server.step]
  cases found : server.goroutines[place]? with
  | none => exact sound
  | some phase =>
    rw [found] at orderly
    have own := sound.right phase (List.mem_of_getElem? found)
    have ⟨once, made, fresh, session, _⟩ := sound
    cases phase with
    | arrived segments =>
      cases segments with
      | nil =>
        refine sound.move found (.returned [] none) (.inl rfl) _ _ _ session fun count counts => ?_
        grind [Phase.stage, Server.operate]
      | cons head tail =>
        cases seen : server.session with
        | some conn =>
          simp only [Server.operate, seen]
          refine sound.move found (.input _ conn) (session conn seen) _ _ _ (seen ▸ session)
            fun count counts => ?_
          grind [Phase.stage]
        | none =>
          rw [seen] at orderly
          obtain ⟨goes, missed, unmade⟩ := orderly
          simp only [Server.operate, seen, goes]
          refine sound.move found (.missed (head :: tail)) trivial _ _ _ nofun
            fun count counts => ?_
          grind [Phase.stage]
    | missed segments =>
      have none : server.connections = 0 := by
        have counted : 0 < server.count .missed :=
          List.countP_pos_iff.mpr ⟨_, List.mem_of_getElem? found, decide_eq_true rfl⟩
        omega
      refine sound.move found (.made segments server.connections) none _ _ _ session
        fun count counts => ?_
      grind [Phase.stage, Server.operate]
    | made segments conn =>
      refine sound.move found (.stored segments conn) own (some conn) _ _ ?_ fun count counts => ?_
      · rintro _ ⟨⟩
        exact own
      · grind [Phase.stage, Server.operate]
    | stored segments conn =>
      refine sound.move found (.input segments conn) own _ _ _ session fun count counts => ?_
      grind [Phase.stage, Server.operate]
    | input segments conn =>
      refine sound.move found (.returned segments (some conn)) (.inr (congrArg some own)) _ _ _
        session fun count counts => ?_
      grind [Phase.stage, Server.operate]
    | returned segments conn =>
      refine sound.move found (.returned segments conn) own _ _ _ session fun count counts => ?_
      grind [Phase.stage, Server.operate]

theorem Sound.step (sound : Sound server) (event : Event Segment)
    (orderly : server.Orderly terminates event) : Sound (server.step terminates event) := by
  cases event with
  | advance place => exact sound.advance place orderly
  | packet segments =>
    have same : (server.step terminates (.packet segments)).count = server.count :=
      funext fun stage => (List.countP_append ..).trans (Nat.add_zero _)
    obtain ⟨once, made, fresh, session, right⟩ := sound
    rw [← same] at once made fresh
    refine ⟨once, made, fresh, session, fun phase member => ?_⟩
    rcases Log.mem_snoc member with before | rfl
    · exact right phase before
    · exact trivial

/-- In every run in which a goroutine that finds no session is the only one to make one, and has
no command to terminate: `NewConnection` and the handler are called at most once, and every
goroutine that returns has given its segments to the first connection. -/
theorem session_single {events : List (Event Segment)}
    (orderly : Machine.Meets (Server.step terminates) (Server.Orderly terminates) {} events) :
    let server := drive (Server.step terminates) {} events
    server.connections ≤ 1 ∧ server.handled.length ≤ 1 ∧
      ∀ segments conn, .returned segments conn ∈ server.goroutines →
        segments = [] ∨ conn = some 0 := by
  intro server
  have start : Sound ({} : Server Segment) := ⟨Nat.zero_le 1, rfl, fun _ => rfl, nofun, nofun⟩
  have sound : Sound server :=
    invariant_drive Sound start (fun _ event sound => sound.step event) orderly
  have once := sound.once
  have made := sound.made
  exact ⟨by omega, by omega, fun segments conn => sound.right _⟩

instance (server : Server Segment) (event : Event Segment) :
    Decidable (server.Orderly terminates event) := by
  unfold Server.Orderly
  split
  · infer_instance
  · split <;> infer_instance

/-- The second packet comes when the session is there. -/
theorem session_single_inTurn :
    let server := drive (Server.step fun segment : Nat => segment = 0) {}
      [.packet [1], .advance 0, .advance 0, .advance 0, .packet [2, 0], .advance 1, .advance 1]
    server.connections ≤ 1 ∧ server.handled.length ≤ 1 ∧
      ∀ segments conn, .returned segments conn ∈ server.goroutines →
        segments = [] ∨ conn = some 0 :=
  session_single (by decide)

/-- Two packets look for the session before it is there: two connections are made and handled. -/
theorem firstPackets_doubled :
    let server := drive (Server.step fun segment : Nat => segment = 0) {}
      [.packet [1], .packet [2], .advance 0, .advance 1, .advance 0, .advance 1, .advance 0,
        .advance 1, .advance 0, .advance 1]
    server.connections = 2 ∧ server.handled = [0, 1] := by
  decide

end SingBox.KcpListener
