/-
This file says what the steps of the pool can do, as moves with their conditions:
which call or goroutine takes a connection from where to where. Every step of the
model is made of such moves, so what all moves keep is kept by every run.
-/

import Mathlib.Logic.Relation
import SingBox.DnsPool

namespace SingBox.DnsPool

open ConnPool

/-- The call has no connection in its hand and has not returned. -/
def Phase.quiet : Phase → Bool
  | .install _ _ | .returned _ => false
  | _ => true

/-- The phases of a call that neither has a connection nor has started a dial for others. -/
def Phase.plain : Phase → Bool
  | .begin | .acquireSlot _ | .dial _ | .wait _ _ false => true
  | _ => false

/-- What one part of a step does. -/
inductive Move (options : ConnPoolOptions) (pool : ConnPool) : ConnPool → Prop
  | acquire (context : Nat) : Move options pool (pool.acquire context)
  | endContext (context : Nat) : Move options pool (pool.endContext context)
  | setSlots (slots : Nat) : Move options pool (pool.setSlots slots)
  | go {call : Nat} {current : Call} (phase : Phase) (running : pool.calls[call]? = some current)
      (quiet : current.phase.quiet = true) (plain : phase.plain = true) :
      Move options pool (pool.setCall call { current with phase })
  | start {call : Nat} {current : Call} (running : pool.calls[call]? = some current)
      (quiet : current.phase.quiet = true) (openPool : pool.closed = false)
      (unshared : pool.state.shared = none) (nobody : pool.state.connecting = none) :
      Move options pool ((pool.startConnect call current.context).setCall call
        { current with phase := .wait pool.generation pool.connects.length true })
  | fail {call : Nat} {current : Call} {err : Err} (running : pool.calls[call]? = some current)
      (quiet : current.phase.quiet = true) : Move options pool (pool.finish call current (.err err))
  | lose : Move options pool (pool.newConn.close pool.dialed)
  | dialed {call generation : Nat} {current : Call} (running : pool.calls[call]? = some current)
      (dialing : current.phase = .dial generation) :
      Move options pool
        (pool.newConn.setCall call { current with phase := .install generation pool.dialed })
  | refuse {call generation conn : Nat} {current : Call}
      (running : pool.calls[call]? = some current)
      (installing : current.phase = .install generation conn)
      (replaced : pool.closed = true ∨ pool.generation ≠ generation) :
      Move options pool ((pool.close conn).finish call current (.err .closed))
  | install {call generation conn : Nat} {current : Call}
      (running : pool.calls[call]? = some current)
      (installing : current.phase = .install generation conn) (openPool : pool.closed = false) :
      Move options pool ((pool.setState { pool.state with
        all := conn :: pool.state.all }).lend call current conn true)
  | lend {call element conn : Nat} {current : Call} {idle : List (Nat × Nat)}
      (running : pool.calls[call]? = some current) (quiet : current.phase.quiet = true)
      (front : pool.state.idle = (element, conn) :: idle) :
      Move options pool ((pool.setState { pool.state with
        idle, idleElements := pool.state.idleElements.erase conn }).lend call current conn false)
  | dropIdle {element conn : Nat} {idle : List (Nat × Nat)}
      (front : pool.state.idle = (element, conn) :: idle) :
      Move options pool ((pool.setState { pool.state with
        idle, idleElements := pool.state.idleElements.erase conn
        all := pool.state.all.filter (· ≠ conn) }).close conn)
  | claim {call conn : Nat} {current : Call} (running : pool.calls[call]? = some current)
      (quiet : current.phase.quiet = true) (single : options.mode = .single)
      (shared : pool.state.shared = some conn) : Move options pool (pool.claim call current conn)
  | drop (conn : Nat) : Move options pool (pool.drop options conn)
  | connectFailed {place : Nat} {connect : Connect} {err : Err}
      (listed : pool.connects[place]? = some connect) (dialing : connect.phase = .dial) :
      Move options pool
        (pool.setConnect place { connect with phase := .install (.error err) })
  | connectDialed {place : Nat} {connect : Connect}
      (listed : pool.connects[place]? = some connect) (dialing : connect.phase = .dial) :
      Move options pool
        (pool.newConn.setConnect place { connect with phase := .install (.ok pool.dialed) })
  | connectDone {place : Nat} {connect : Connect} {err : Err}
      (listed : pool.connects[place]? = some connect)
      (installing : connect.phase = .install (.error err)) :
      Move options pool ((pool.clearConnecting connect.generation).setConnect place
        { connect with phase := .done (some err) })
  | connectRefuse {place conn : Nat} {connect : Connect}
      (listed : pool.connects[place]? = some connect)
      (installing : connect.phase = .install (.ok conn))
      (replaced : pool.closed = true ∨ pool.generation ≠ connect.generation) :
      Move options pool (((pool.clearConnecting connect.generation).close conn).setConnect place
        { connect with phase := .done (some .closed) })
  | connectInstall {place conn : Nat} {connect : Connect}
      (listed : pool.connects[place]? = some connect)
      (installing : connect.phase = .install (.ok conn)) (openPool : pool.closed = false)
      (current : pool.generation = connect.generation) :
      Move options pool ((pool.setState { pool.state with
        connecting := none, shared := some conn, all := conn :: pool.state.all }).setConnect place
          { connect with phase := .done none })
  | announce (place : Nat) : Move options pool (pool.announce place)
  | unhold (place : Nat) : Move options pool (pool.unhold place)
  | close (conn : Nat) : Move options pool (pool.close conn)
  | giveBack {place : Nat} {held : Nat × Nat} (listed : pool.holds[place]? = some held)
      (tracked : held.2 ∈ pool.state.all)
      (absent : pool.state.idleElements.find? held.2 = none) :
      Move options pool ((pool.unhold place).pushIdle held.2)
  | reset (openPool : pool.closed = false) : Move options pool pool.reset
  | shutdown (openPool : pool.closed = false) : Move options pool pool.shutdown
  | closeState {place generation : Nat} {conns : List Nat}
      (listed : pool.retiring[place]? = some (generation, conns)) :
      Move options pool (pool.closeState place generation conns)
  | closeConn {place conn : Nat} (listed : pool.closing[place]? = some conn) :
      Move options pool (pool.closeConn place conn)

/-- Some moves one after the other. -/
abbrev Moves (options : ConnPoolOptions) : ConnPool → ConnPool → Prop :=
  Relation.ReflTransGen (Move options)

/-! ### Every step is made of moves -/

section Steps

variable {options : ConnPoolOptions} {pool next : ConnPool} {call generation : Nat}
  {current : Call}

open Relation

theorem reset_of_open (openPool : pool.closed = false) : pool.reset = { pool with
    generation := pool.generation + 1
    state := newConnPoolState
    retiring := pool.retiring ++ [(pool.generation, pool.state.all)] } :=
  if_neg (Bool.not_eq_true _ ▸ openPool)

theorem shutdown_of_open (openPool : pool.closed = false) : pool.shutdown = { pool with
    closed := true
    state := newConnPoolState
    retiring := pool.retiring ++ [(pool.generation, pool.state.all)] } :=
  if_neg (Bool.not_eq_true _ ▸ openPool)

theorem moves_releaseSlot (options : ConnPoolOptions) (pool : ConnPool) :
    Moves options pool (pool.releaseSlot options) := by
  unfold releaseSlot
  split
  · exact .refl
  · exact .single (.setSlots _)

section

variable (running : pool.calls[call]? = some current)

include running

theorem moves_acquireOrdered (phase : current.phase = .begin) (isAlive : Bool) :
    Moves options pool (pool.acquireOrdered call current isAlive) := by
  have quiet : current.phase.quiet = true := by rw [phase]; rfl
  unfold acquireOrdered
  split
  · exact .single (.fail running quiet)
  · split
    · exact .single (.go _ running quiet rfl)
    next front =>
      split
      · exact .single (.lend running quiet front)
      · exact .single (.dropIdle front)

theorem moves_acquireSlot (phase : current.phase = .acquireSlot generation) :
    Moves options pool (pool.acquireSlot options call current generation) := by
  have quiet : current.phase.quiet = true := by rw [phase]; rfl
  unfold acquireSlot
  split
  · exact .single (.go _ running quiet rfl)
  · split
    · exact .tail (.single (.setSlots (pool.slots + 1))) (.go (.dial generation) running quiet rfl)
    · exact .refl

theorem moves_missSlot (phase : current.phase = .acquireSlot generation) :
    Moves options pool (pool.missSlot call current generation) := by
  have quiet : current.phase.quiet = true := by rw [phase]; rfl
  unfold missSlot
  split
  · exact .single (.fail running quiet)
  · split
    · exact .single (.fail running quiet)
    · exact .refl

theorem moves_dialAndInstall (phase : current.phase = .dial generation)
    (succeeded stateFirst : Bool) : Moves options pool
      (pool.dialAndInstall options call current generation succeeded stateFirst) := by
  have quiet : current.phase.quiet = true := by rw [phase]; rfl
  unfold dialAndInstall
  split
  · exact (moves_releaseSlot options _).head (.fail running quiet)
  · exact (moves_releaseSlot options _).head (.fail running quiet)
  · exact .head .lose ((moves_releaseSlot options _).head (.fail running quiet))
  · exact .single (.dialed running phase)

theorem moves_install {conn : Nat} (phase : current.phase = .install generation conn) :
    Moves options pool (pool.install options call current generation conn) := by
  unfold install
  split
  next replaced => exact (moves_releaseSlot options _).head (.refuse running phase replaced)
  next kept =>
    rw [not_or, Bool.not_eq_true] at kept
    exact (moves_releaseSlot options _).head (.install running phase kept.1)

theorem moves_join (quiet : current.phase.quiet = true) (openPool : pool.closed = false)
    (unshared : pool.state.shared = none) : Moves options pool (pool.join call current) := by
  unfold join
  split
  · exact .single (.go _ running quiet rfl)
  next nobody => exact .single (.start running quiet openPool unshared nobody)

end

theorem moves_acquireShared (single : options.mode = .single)
    (running : pool.calls[call]? = some current) (quiet : current.phase.quiet = true)
    (isAlive : Bool) : Moves options pool (pool.acquireShared options call current isAlive) := by
  unfold acquireShared
  split
  · exact .single (.fail running quiet)
  next openPool =>
    split
    next unshared => exact moves_join running quiet (Bool.not_eq_true _ ▸ openPool) unshared
    next conn shared =>
      split
      · exact .single (.claim running quiet single shared)
      · exact .single (.drop conn)

theorem move_retry (running : pool.calls[call]? = some current)
    (quiet : current.phase.quiet = true) : Move options pool (pool.retry call current) :=
  .go .begin running quiet rfl

variable {place : Nat} {startDial : Bool} {connect : Connect} {invariant : ConnPool → Prop}

theorem moves_collect (single : options.mode = .single)
    (running : pool.calls[call]? = some current)
    (phase : current.phase = .wait generation place startDial) (isAlive : Bool) : Moves options pool
      (pool.collect options call current generation place startDial isAlive) := by
  have quiet : current.phase.quiet = true := by rw [phase]; rfl
  unfold collect
  split
  · split
    · unfold collectShared
      split
      · split
        · exact .single (.fail running quiet)
        · exact .single (move_retry running quiet)
      · split
        · exact .single (.fail running quiet)
        · split
          · exact .single (move_retry running quiet)
          next conn shared =>
            split
            · exact .single (.claim running quiet single shared)
            · exact .tail (.single (.drop conn)) (move_retry running quiet)
    · exact .refl
  · exact .refl

theorem moves_notice (running : pool.calls[call]? = some current)
    (phase : current.phase = .wait generation place startDial) :
    Moves options pool (pool.notice call current generation) := by
  have quiet : current.phase.quiet = true := by rw [phase]; rfl
  unfold notice
  split
  · split
    · exact .single (.fail running quiet)
    · exact .single (move_retry running quiet)
  · exact .refl

theorem moves_dialSingle (listed : pool.connects[place]? = some connect)
    (dialing : connect.phase = .dial) (succeeded stateFirst : Bool) :
    Moves options pool (pool.dialSingle place connect succeeded stateFirst) := by
  unfold dialSingle
  split
  · exact .single (.connectFailed listed dialing)
  · exact .single (.connectFailed listed dialing)
  · exact .tail (.single .lose) (.connectFailed listed dialing)
  · exact .single (.connectDialed listed dialing)

theorem moves_connectSingle {outcome : Except Err Nat}
    (listed : pool.connects[place]? = some connect)
    (installing : connect.phase = .install outcome) :
    Moves options pool (pool.connectSingle place connect outcome) := by
  unfold connectSingle
  cases outcome with
  | error err => exact .single (.connectDone listed installing)
  | ok conn =>
    dsimp only
    split
    next replaced => exact .single (.connectRefuse listed installing replaced)
    next kept =>
      rw [not_or, Bool.not_eq_true, not_not] at kept
      have current : pool.generation = connect.generation := kept.2
      unfold clearConnecting
      rw [if_pos current]
      exact .single (.connectInstall listed installing kept.1 current)

theorem moves_invalidate (conn : Nat) : Moves options pool (pool.invalidate options conn) := by
  unfold invalidate
  split
  · exact .single (.close conn)
  · split
    · exact .refl
    · exact .single (.drop conn)

theorem moves_releaseShared (single : options.mode = .single) (conn : Nat)
    (reuse isAlive : Bool) : Moves options pool (pool.release options conn reuse isAlive) := by
  unfold release
  split
  · exact .single (.close conn)
  · split
    · exact .single (.drop conn)
    · rw [if_neg (by rw [single]; exact nofun)]

theorem moves_release {held : Nat × Nat} (listed : pool.holds[place]? = some held)
    (reuse isAlive : Bool) :
    Moves options pool ((pool.unhold place).release options held.2 reuse isAlive) := by
  unfold release
  split
  · exact .tail (.single (.unhold place)) (.close held.2)
  next tracked =>
    split
    · exact .tail (.single (.unhold place)) (.drop held.2)
    · split
      next absent =>
        rw [not_or, not_not] at tracked
        exact .single (.giveBack listed tracked.2 absent.2)
      · exact .single (.unhold place)

theorem moves_advance (running : pool.calls[call]? = some current) (action : Action) :
    Moves options pool (pool.advance options call current action) := by
  fun_cases advance options pool call current action with
  | case1 isAlive begins single =>
    exact moves_acquireShared single running (by rw [begins]; rfl) isAlive
  | case2 isAlive begins => exact moves_acquireOrdered running begins isAlive
  | case4 _ phase => exact moves_acquireSlot running phase
  | case6 _ phase => exact moves_missSlot running phase
  | case8 succeeded stateFirst _ phase =>
    exact moves_dialAndInstall running phase succeeded stateFirst
  | case10 _ _ phase => exact moves_install running phase
  | case12 isAlive _ _ _ phase single => exact moves_collect single running phase isAlive
  | case14 _ _ _ phase =>
    unfold giveUp
    split
    · exact .single (.fail running (by rw [phase]; rfl))
    · exact .refl
  | case16 _ _ _ phase => exact moves_notice running phase
  | _ => exact .refl

/-- Every step is made of moves. -/
theorem moves_step (event : Event) : Moves options pool (pool.step options event) := by
  fun_cases step options pool event with
  | case1 context => exact .single (.acquire context)
  | case3 call action _ running => exact moves_advance running action
  | case5 place succeeded stateFirst _ listed dialing =>
    exact moves_dialSingle listed dialing succeeded stateFirst
  | case8 place _ listed _ installing => exact moves_connectSingle listed installing
  | case10 place => exact .single (.announce place)
  | case13 place reuse isAlive _ listed => exact moves_release listed reuse isAlive
  | case14 conn reuse isAlive single => exact moves_releaseShared single.1 conn reuse isAlive
  | case16 conn => exact moves_invalidate conn
  | case18 =>
    by_cases closed : pool.closed = true
    · have same : pool.reset = pool := if_pos closed
      rw [same]
    · exact .single (.reset (Bool.not_eq_true _ ▸ closed))
  | case19 =>
    by_cases closed : pool.closed = true
    · have same : pool.shutdown = pool := if_pos closed
      rw [same]
    · exact .single (.shutdown (Bool.not_eq_true _ ▸ closed))
  | case21 place _ _ listed => exact .single (.closeState listed)
  | case23 place _ listed => exact .single (.closeConn listed)
  | case24 context => exact .single (.endContext context)
  | _ => exact .refl

theorem kept_moves (kept : ∀ pool next, Move options pool next → invariant pool → invariant next)
    (moves : Moves options pool next) (holds : invariant pool) : invariant next := by
  induction moves with
  | refl => exact holds
  | tail _ move ih => exact kept _ _ move ih

/-- What the new pool has and every move keeps, every run has. -/
theorem invariant_run (initial : invariant newConnPool)
    (kept : ∀ pool next, Move options pool next → invariant pool → invariant next)
    (events : List Event) : invariant (run options events) :=
  Machine.invariant_events invariant initial
    (fun _ event holds => kept_moves kept (moves_step event) holds) events

end Steps

end SingBox.DnsPool
