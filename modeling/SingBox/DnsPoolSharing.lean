/-
This file proves that the pool dials its shared connection once at a time: the state
object says which goroutine dials for it, and a state object with a shared connection
has none.
-/

import SingBox.DnsPoolMoves
import SingBox.Log
import Mathlib

namespace SingBox.DnsPool

open List Log Option ConnPoolState

variable {options : ConnPoolOptions} {pool next : ConnPool}

/-- While a dial of the current state object is in progress, `connecting` says so and there is no
shared connection; a connection that is not there was not claimed. -/
structure Sharing (pool : ConnPool) : Prop where
  claimed : pool.state.shared = none → pool.state.sharedClaimed = false
  exclusive : pool.state.connecting ≠ none → pool.state.shared = none
  connecting : ∀ place connect, pool.connects[place]? = some connect →
    (∀ err, connect.phase ≠ .done err) → pool.closed = false →
    connect.generation = pool.generation → pool.state.connecting = some place
  bound : ∀ connect ∈ pool.connects, connect.generation ≤ pool.generation

theorem sharing_new : Sharing newConnPool where
  claimed := fun _ => rfl
  exclusive := fun some => absurd rfl some
  connecting := nofun
  bound := nofun

variable {connect : Connect} {place conn call : Nat} {current : Call} {err : Err}

section

variable (sharing : Sharing pool) (listed : pool.connects[place]? = some connect)
  (dialing : ∀ err, connect.phase ≠ .done err)

include sharing listed dialing

/-- A goroutine goes on, and says whether it still dials. -/
theorem Sharing.setConnect (phase : ConnectPhase) :
    Sharing (pool.setConnect place { connect with phase }) := by
  refine ⟨sharing.claimed, sharing.exclusive, fun other found stands running fresh current => ?_,
    fun other member => ?_⟩
  · rcases set_cases stands with ⟨rfl, rfl⟩ | ⟨-, before⟩
    · exact sharing.connecting _ connect listed dialing fresh current
    · exact sharing.connecting other found before running fresh current
  · rcases mem_or_eq_of_mem_set member with before | rfl
    · exact sharing.bound other before
    · exact sharing.bound connect (mem_of_getElem? listed)

/-- A goroutine that is done is the one that dialed for the current state object, or one that
dialed for a replaced one. -/
theorem Sharing.done {err : Option Err} {state : ConnPoolState}
    (claimed : state.shared = none → state.sharedClaimed = false)
    (connecting : pool.generation = connect.generation → state.connecting = none)
    (kept : pool.generation ≠ connect.generation →
      state.connecting = pool.state.connecting ∧ state.shared = pool.state.shared) :
    Sharing ((pool.setState state).setConnect place { connect with phase := .done err }) := by
  refine ⟨claimed, fun busy => ?_, fun other found stands running fresh current => ?_,
    fun other member => ?_⟩
  · by_cases same : pool.generation = connect.generation
    · exact absurd (connecting same) busy
    · show state.shared = none
      rw [(kept same).2]
      refine sharing.exclusive fun idle => busy ?_
      show state.connecting = none
      rw [(kept same).1, idle]
  · rcases set_cases stands with ⟨rfl, rfl⟩ | ⟨ne, before⟩
    · exact absurd rfl (running err)
    · have owner := sharing.connecting other found before running fresh current
      by_cases same : pool.generation = connect.generation
      · have mine := sharing.connecting place connect listed dialing fresh same.symm
        exact absurd (some.inj (owner.symm.trans mine)) ne
      · show state.connecting = some other
        rw [(kept same).1, owner]
  · rcases mem_or_eq_of_mem_set member with before | rfl
    · exact sharing.bound other before
    · exact sharing.bound connect (mem_of_getElem? listed)

end

theorem connecting_removeConn (mode : ConnPoolMode) (state : ConnPoolState) (conn : Nat) :
    (state.removeConn mode conn).connecting = state.connecting := by
  unfold removeConn
  cases mode <;> dsimp only <;> split <;> rfl

/-- The shared connection that is removed is gone and may be claimed again. -/
theorem shared_removeConn (mode : ConnPoolMode) (state : ConnPoolState) (conn : Nat) :
    ((state.removeConn mode conn).shared = none ∧
        (state.removeConn mode conn).sharedClaimed = false) ∨
      ((state.removeConn mode conn).shared = state.shared ∧
        (state.removeConn mode conn).sharedClaimed = state.sharedClaimed) := by
  unfold removeConn
  cases mode with
  | single =>
    dsimp only
    split
    · exact .inl ⟨rfl, rfl⟩
    · exact .inr ⟨rfl, rfl⟩
  | ordered =>
    dsimp only
    split
    · exact .inr ⟨rfl, rfl⟩
    · exact .inr ⟨rfl, rfl⟩

theorem Sharing.drop (sharing : Sharing pool) (conn : Nat) : Sharing (pool.drop options conn) := by
  have connecting := connecting_removeConn options.mode pool.state conn
  refine ⟨fun absent => ?_, fun busy => ?_, fun place connect listed running fresh current => ?_,
    sharing.bound⟩
  · rcases shared_removeConn options.mode pool.state conn with ⟨-, unclaimed⟩ | ⟨shared, claimed⟩
    · exact unclaimed
    · exact claimed.trans (sharing.claimed (shared.symm.trans absent))
  · have idle := sharing.exclusive fun none => busy (connecting.trans none)
    rcases shared_removeConn options.mode pool.state conn with ⟨gone, -⟩ | ⟨shared, -⟩
    · exact gone
    · exact shared.trans idle
  · exact connecting.trans (sharing.connecting place connect listed running fresh current)

/-- A new state object has no dial in progress. -/
theorem Sharing.renew (sharing : Sharing pool) (state : next.state = newConnPoolState)
    (connects : next.connects = pool.connects)
    (replaced : next.closed = true ∨ pool.generation < next.generation)
    (later : pool.generation ≤ next.generation) : Sharing next := by
  refine ⟨fun _ => by rw [state]; rfl, fun _ => by rw [state]; rfl,
    fun place connect listed _ fresh current => ?_, fun connect member => ?_⟩
  · have old := sharing.bound connect (connects ▸ mem_of_getElem? listed)
    rcases replaced with closed | newer
    · exact nomatch closed.symm.trans fresh
    · omega
  · exact Nat.le_trans (sharing.bound connect (connects ▸ member)) later

theorem Sharing.move (sharing : Sharing pool) (move : Move options pool next) :
    Sharing next := by
  cases move with
  | start running quiet openPool unshared nobody =>
    refine ⟨sharing.claimed, fun _ => unshared,
      fun place connect listed dialing fresh current => ?_, fun connect member => ?_⟩
    · rcases snoc_cases listed with before | ⟨rfl, -⟩
      · have busy := sharing.connecting place connect before dialing fresh current
        exact nomatch busy.symm.trans nobody
      · rfl
    · rcases mem_snoc member with before | rfl
      · exact sharing.bound connect before
      · exact Nat.le_refl _
  | claim running quiet single shared =>
    refine { sharing with claimed := fun absent => absurd (shared.symm.trans absent) nofun }
  | drop conn => exact sharing.drop conn
  | connectFailed listed dialing =>
    exact sharing.setConnect listed (by rw [dialing]; exact nofun) _
  | connectDialed listed dialing =>
    have counted : Sharing pool.newConn := { sharing with }
    exact counted.setConnect listed (by rw [dialing]; exact nofun) _
  | connectDone listed installing =>
    exact sharing.done listed (by rw [installing]; exact nofun) sharing.claimed
      (fun same => if_pos same) fun other => ⟨if_neg other, rfl⟩
  | @connectRefuse place conn connect listed installing replaced =>
    have done : Sharing ((pool.clearConnecting connect.generation).setConnect place
        { connect with phase := .done (some .closed) }) :=
      sharing.done listed (by rw [installing]; exact nofun) sharing.claimed
        (fun same => if_pos same) fun other => ⟨if_neg other, rfl⟩
    exact { done with }
  | connectInstall listed installing openPool current =>
    exact sharing.done listed (by rw [installing]; exact nofun) nofun
      (fun _ => rfl) fun other => absurd current other
  | reset openPool =>
    rw [reset_of_open openPool]
    exact sharing.renew rfl rfl (.inr (Nat.lt_succ_self _)) (Nat.le_succ _)
  | shutdown openPool =>
    rw [shutdown_of_open openPool]
    exact sharing.renew rfl rfl (.inl rfl) (Nat.le_refl _)
  | _ => exact { sharing with }

theorem sharing_run (options : ConnPoolOptions) (events : List Event) :
    Sharing (run options events) :=
  invariant_run sharing_new (fun _ _ move sharing => sharing.move move) events

/-- A goroutine that dials or has yet to enter its section. -/
def Connect.dialing (connect : Connect) : Bool :=
  match connect.phase with
  | .dial | .install _ => true
  | .done _ => false

/-- While the pool is open and was not reset, at most one dial for the shared connection is in
progress. -/
theorem dials_single (options : ConnPoolOptions) (events : List Event)
    (opened : (run options events).closed = false) :
    ((run options events).connects.countP fun connect =>
      connect.generation = (run options events).generation && connect.dialing) ≤ 1 := by
  have connecting := (sharing_run options events).connecting
  have busy : ∀ (place : Nat) (connect : Connect),
      (run options events).connects[place]? = some connect →
      (connect.generation = (run options events).generation && connect.dialing) = true →
      (run options events).state.connecting = some place := by
    intro place connect listed counted
    rw [Bool.and_eq_true, decide_eq_true_eq] at counted
    refine connecting place connect listed (fun err done => ?_) opened counted.1
    rw [Connect.dialing, done] at counted
    exact nomatch counted.2
  exact countP_le_one fun one two first second listed listed' counted counted' =>
    some.inj ((busy one first listed counted).symm.trans (busy two second listed' counted'))

/-- The dial of the first call has failed, and its goroutine has left its section when a third
call starts another dial. -/
def dialAgain : List Event :=
  [.acquire 0, .advance 0 (.begin true), .acquire 1, .advance 1 (.begin true),
    .dialed 0 false false, .connect 0, .acquire 2, .advance 2 (.begin true)]

/-- The second dial is the only one, although the first goroutine has yet to close its channel. -/
theorem dials_single_second :
    (run ⟨.single, 0⟩ dialAgain).announced = [] ∧
      (run ⟨.single, 0⟩ dialAgain).connects =
        [⟨0, 0, 0, .done (some (.dial 0))⟩, ⟨0, 2, 2, .dial⟩] ∧
      ((run ⟨.single, 0⟩ dialAgain).connects.countP fun connect =>
        connect.generation = (run ⟨.single, 0⟩ dialAgain).generation && connect.dialing) ≤ 1 := by
  have opened : (run ⟨.single, 0⟩ dialAgain).closed = false := by decide
  exact ⟨by decide, by decide, dials_single ⟨.single, 0⟩ dialAgain opened⟩

end SingBox.DnsPool
