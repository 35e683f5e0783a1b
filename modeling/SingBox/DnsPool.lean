/-
This file models the connection pool of the DNS transports in both of its modes:
one shared connection, and connections that are lent one at a time. The running
calls, the goroutines that dial the shared connection, and the operations on the
pool take turns at the sections that the mutex guards; every order of these steps
is a run.

The state object that `Reset` and `Close` replace is told apart from its successors
by a number. Once it is replaced nobody reads it any more, except for the
connections that `closeState` has yet to close and for its context. Connections
are numbered in the order in which dials succeed.
-/

import SingBox.Machine
import SingBox.Table

namespace SingBox.DnsPool

/-- How connections are handed out. -/
inductive ConnPoolMode where
  | single
  | ordered
  deriving DecidableEq

/-- The options that matter here; no bound on the dials in progress is `0`. -/
structure ConnPoolOptions where
  mode : ConnPoolMode
  maxInflight : Nat

/-- The error of a call: that of the dial which a call started, that of a context, or
`net.ErrClosed`. -/
inductive Err where
  | dial (starter : Nat)
  | context (context : Nat)
  | closed
  deriving DecidableEq

/-- What a call returns. -/
inductive Outcome where
  | conn (conn : Nat) (created : Bool)
  | err (err : Err)
  deriving DecidableEq

/-- How far a call of `Acquire` or `AcquireShared` has come. The generation is that of the state
object it works on. -/
inductive Phase where
  | begin
  | acquireSlot (generation : Nat)
  | dial (generation : Nat)
  | install (generation conn : Nat)
  | wait (generation connect : Nat) (startDial : Bool)
  | returned (outcome : Outcome)
  deriving DecidableEq

/-- A call of `Acquire` or `AcquireShared`. -/
structure Call where
  context : Nat
  phase : Phase
  deriving DecidableEq

/-- How far `connectSingle` has come: it dials, it is about to enter its section with the outcome
of the dial, or it has left its section. The channel of the waiters is closed after that. -/
inductive ConnectPhase where
  | dial
  | install (outcome : Except Err Nat)
  | done (err : Option Err)
  deriving DecidableEq

/-- A running `connectSingle`, with the call that started it. -/
structure Connect where
  generation : Nat
  starter : Nat
  context : Nat
  phase : ConnectPhase
  deriving DecidableEq

/-- The state object. The idle list has elements, and the index points to them. -/
structure ConnPoolState where
  all : List Nat
  idle : List (Nat × Nat)
  idleElements : Table Nat Nat
  shared : Option Nat
  sharedClaimed : Bool
  connecting : Option Nat

/-- The new state object. -/
def newConnPoolState : ConnPoolState where
  all := []
  idle := []
  idleElements := .empty
  shared := none
  sharedClaimed := false
  connecting := none

/-- The pool and what runs on it. `announced` has the goroutines that have closed the channel of
their waiters, `retiring` the replaced state objects that are still to be
closed, `closing` the connections that somebody is about to pass to the close function, and
`closedConns` those that were passed to it. `holds` says which call was lent which connection. -/
structure ConnPool where
  closed : Bool
  generation : Nat
  state : ConnPoolState
  retiring : List (Nat × List Nat)
  ended : List Nat
  contexts : List Nat
  slots : Nat
  calls : List Call
  connects : List Connect
  announced : List Nat
  elements : Nat
  dialed : Nat
  holds : List (Nat × Nat)
  closing : List Nat
  closedConns : List Nat

def newConnPool : ConnPool where
  closed := false
  generation := 0
  state := newConnPoolState
  retiring := []
  ended := []
  contexts := []
  slots := 0
  calls := []
  connects := []
  announced := []
  elements := 0
  dialed := 0
  holds := []
  closing := []
  closedConns := []

/-- `removeConn`: the connection is not tracked any more. -/
def ConnPoolState.removeConn (mode : ConnPoolMode) (state : ConnPoolState) (conn : Nat) :
    ConnPoolState :=
  let state := { state with all := state.all.filter (· ≠ conn) }
  match mode with
  | .single =>
    if state.shared = some conn then { state with shared := none, sharedClaimed := false }
    else state
  | .ordered =>
    match state.idleElements.find? conn with
    | none => state
    | some element =>
      { state with
        idle := state.idle.filter (·.1 ≠ element)
        idleElements := state.idleElements.erase conn }

namespace ConnPool

variable (options : ConnPoolOptions) (pool : ConnPool)

def setCall (call : Nat) (current : Call) : ConnPool :=
  { pool with calls := pool.calls.set call current }

/-- A `connectSingle` goes on. -/
def setConnect (place : Nat) (connect : Connect) : ConnPool :=
  { pool with connects := pool.connects.set place connect }

def setState (state : ConnPoolState) : ConnPool := { pool with state := state }

/-- Somebody is going to pass the connection to the close function. -/
def close (conn : Nat) : ConnPool := { pool with closing := pool.closing ++ [conn] }

def finish (call : Nat) (current : Call) (outcome : Outcome) : ConnPool :=
  pool.setCall call { current with phase := .returned outcome }

/-- A call is lent a connection. -/
def hold (call conn : Nat) : ConnPool := { pool with holds := pool.holds ++ [(call, conn)] }

/-- A call gives a connection back. -/
def unhold (place : Nat) : ConnPool := { pool with holds := pool.holds.eraseIdx place }

/-- A call returns a connection, which it then holds. -/
def lend (call : Nat) (current : Call) (conn : Nat) (created : Bool) : ConnPool :=
  (pool.hold call conn).finish call current (.conn conn created)

/-- The connection is not tracked any more, and is going to be closed. -/
def drop (conn : Nat) : ConnPool :=
  (pool.setState (pool.state.removeConn options.mode conn)).close conn

/-- The cause of the context of a dial when the dial has returned. When both the context of the
caller and that of the state object have ended, the first one counts. -/
def dialErr (context generation : Nat) (stateFirst : Bool) : Option Err :=
  if context ∈ pool.contexts ∧ (generation ∉ pool.ended ∨ !stateFirst) then some (.context context)
  else if generation ∈ pool.ended then some .closed
  else none

/-! ### Connections that are lent one at a time -/

/-- The section of `acquireOrdered`. -/
def acquireOrdered (call : Nat) (current : Call) (isAlive : Bool) : ConnPool :=
  if pool.closed then pool.finish call current (.err .closed)
  else
    match pool.state.idle with
    | [] => pool.setCall call { current with phase := .acquireSlot pool.generation }
    | (_, conn) :: idle =>
      let state := { pool.state with idle, idleElements := pool.state.idleElements.erase conn }
      if isAlive then (pool.setState state).lend call current conn false
      else (pool.setState { state with all := state.all.filter (· ≠ conn) }).close conn

/-- The number of slots of the semaphore that are taken. -/
def setSlots (slots : Nat) : ConnPool := { pool with slots := slots }

/-- `acquireSlot`: the semaphore bounds the dials in progress. -/
def acquireSlot (call : Nat) (current : Call) (generation : Nat) : ConnPool :=
  if options.maxInflight = 0 then pool.setCall call { current with phase := .dial generation }
  else if pool.slots < options.maxInflight then
    (pool.setSlots (pool.slots + 1)).setCall call { current with phase := .dial generation }
  else pool

/-- `acquireSlot` that gives up when a context ends. -/
def missSlot (call : Nat) (current : Call) (generation : Nat) : ConnPool :=
  if current.context ∈ pool.contexts then
    pool.finish call current (.err (.context current.context))
  else if generation ∈ pool.ended then pool.finish call current (.err .closed)
  else pool

def releaseSlot : ConnPool :=
  if options.maxInflight = 0 then pool else pool.setSlots (pool.slots - 1)

/-- A dial succeeded. -/
def newConn : ConnPool := { pool with dialed := pool.dialed + 1 }

/-- `dialAndInstall` when the dial has returned. -/
def dialAndInstall (call : Nat) (current : Call) (generation : Nat) (succeeded stateFirst : Bool) :
    ConnPool :=
  match pool.dialErr current.context generation stateFirst, succeeded with
  | some err, false => (pool.finish call current (.err err)).releaseSlot options
  | none, false => (pool.finish call current (.err (.dial call))).releaseSlot options
  | some err, true =>
    ((pool.newConn.close pool.dialed).finish call current (.err err)).releaseSlot options
  | none, true =>
    pool.newConn.setCall call { current with phase := .install generation pool.dialed }

/-- The section of `dialAndInstall`. -/
def install (call : Nat) (current : Call) (generation conn : Nat) : ConnPool :=
  if pool.closed ∨ pool.generation ≠ generation then
    ((pool.close conn).finish call current (.err .closed)).releaseSlot options
  else
    ((pool.setState { pool.state with all := conn :: pool.state.all }).lend
      call current conn true).releaseSlot options

/-! ### One shared connection -/

/-- The shared connection is handed out; the first one to get it is told so. -/
def claim (call : Nat) (current : Call) (conn : Nat) : ConnPool :=
  (pool.setState { pool.state with sharedClaimed := true }).lend call current conn
    (!pool.state.sharedClaimed)

/-- A goroutine is started that dials. -/
def startConnect (call context : Nat) : ConnPool :=
  { pool with
    state := { pool.state with connecting := some pool.connects.length }
    connects := pool.connects ++ [⟨pool.generation, call, context, .dial⟩] }

/-- `acquireShared` joins the dial in progress, or starts one. -/
def join (call : Nat) (current : Call) : ConnPool :=
  match pool.state.connecting with
  | some connect =>
    pool.setCall call { current with phase := .wait pool.generation connect false }
  | none =>
    (pool.startConnect call current.context).setCall call
      { current with phase := .wait pool.generation pool.connects.length true }

/-- The first section of `acquireShared`. -/
def acquireShared (call : Nat) (current : Call) (isAlive : Bool) : ConnPool :=
  if pool.closed then pool.finish call current (.err .closed)
  else
    match pool.state.shared with
    | none => pool.join call current
    | some conn => if isAlive then pool.claim call current conn else pool.drop options conn

/-- The call enters its loop again. -/
def retry (call : Nat) (current : Call) : ConnPool :=
  pool.setCall call { current with phase := .begin }

/-- `collectShared`, when the dial is over. -/
def collectShared (call : Nat) (current : Call) (generation : Nat) (err : Option Err)
    (startDial isAlive : Bool) : ConnPool :=
  match err with
  | some err =>
    if startDial then pool.finish call current (.err err) else pool.retry call current
  | none =>
    if pool.closed ∨ pool.generation ≠ generation then pool.finish call current (.err .closed)
    else
      match pool.state.shared with
      | none => pool.retry call current
      | some conn =>
        if isAlive then pool.claim call current conn
        else (pool.drop options conn).retry call current

/-- `connectSingle` when the dial has returned. -/
def dialSingle (place : Nat) (connect : Connect) (succeeded stateFirst : Bool) : ConnPool :=
  match pool.dialErr connect.context connect.generation stateFirst, succeeded with
  | some err, false => pool.setConnect place { connect with phase := .install (.error err) }
  | none, false =>
    pool.setConnect place { connect with phase := .install (.error (.dial connect.starter)) }
  | some err, true =>
    (pool.newConn.close pool.dialed).setConnect place
      { connect with phase := .install (.error err) }
  | none, true =>
    pool.newConn.setConnect place { connect with phase := .install (.ok pool.dialed) }

/-- `connecting` of the state object is cleared; that of a replaced one is not read again. -/
def clearConnecting (generation : Nat) : ConnPool :=
  pool.setState { pool.state with
    connecting := if pool.generation = generation then none else pool.state.connecting }

/-- The section of `connectSingle`. -/
def connectSingle (place : Nat) (connect : Connect) (outcome : Except Err Nat) : ConnPool :=
  let pool := pool.clearConnecting connect.generation
  match outcome with
  | .error err => pool.setConnect place { connect with phase := .done (some err) }
  | .ok conn =>
    if pool.closed ∨ pool.generation ≠ connect.generation then
      (pool.close conn).setConnect place { connect with phase := .done (some .closed) }
    else
      (pool.setState { pool.state with
        shared := some conn, all := conn :: pool.state.all }).setConnect place
          { connect with phase := .done none }

/-! ### Giving connections back -/

/-- A connection becomes the last idle one. -/
def pushIdle (conn : Nat) : ConnPool :=
  { pool with
    state := { pool.state with
      idle := pool.state.idle ++ [(pool.elements, conn)]
      idleElements := pool.state.idleElements.set conn pool.elements }
    elements := pool.elements + 1 }

/-- The section of `Release`. -/
def release (conn : Nat) (reuse isAlive : Bool) : ConnPool :=
  if pool.closed ∨ conn ∉ pool.state.all then pool.close conn
  else if !reuse || !isAlive then pool.drop options conn
  else if options.mode = .ordered ∧ pool.state.idleElements.find? conn = none then
    pool.pushIdle conn
  else pool

def invalidate (conn : Nat) : ConnPool :=
  if pool.closed then pool.close conn
  else if conn ∉ pool.state.all then pool
  else pool.drop options conn

/-- The section of `Reset`. -/
def reset : ConnPool :=
  if pool.closed then pool
  else
    { pool with
      generation := pool.generation + 1
      state := newConnPoolState
      retiring := pool.retiring ++ [(pool.generation, pool.state.all)] }

/-- The section of `Close`. -/
def shutdown : ConnPool :=
  if pool.closed then pool
  else
    { pool with
      closed := true
      state := newConnPoolState
      retiring := pool.retiring ++ [(pool.generation, pool.state.all)] }

def closeState (place : Nat) (generation : Nat) (conns : List Nat) : ConnPool :=
  { pool with
    retiring := pool.retiring.eraseIdx place
    ended := pool.ended ++ [generation]
    closing := pool.closing ++ conns }

def closeConn (place conn : Nat) : ConnPool :=
  { pool with
    closing := pool.closing.eraseIdx place
    closedConns := pool.closedConns ++ [conn] }

end ConnPool

/-- The steps of a call. `collect`, `giveUp` and `notice` are the cases of its select. -/
inductive Action where
  | begin (isAlive : Bool)
  | acquireSlot
  | missSlot
  | dialed (succeeded stateFirst : Bool)
  | install
  | collect (isAlive : Bool)
  | giveUp
  | notice
  deriving DecidableEq

/-- The steps of a run. The numbers are places of calls, of running `connectSingle`, of holds, of
replaced state objects and of connections that are going to be closed. -/
inductive Event where
  | acquire (context : Nat)
  | advance (call : Nat) (action : Action)
  | dialed (connect : Nat) (succeeded stateFirst : Bool)
  | connect (connect : Nat)
  | announce (connect : Nat)
  | release (hold : Nat) (reuse isAlive : Bool)
  | releaseShared (conn : Nat) (reuse isAlive : Bool)
  | invalidate (conn : Nat)
  | reset
  | close
  | closeState (place : Nat)
  | closeConn (place : Nat)
  | endContext (context : Nat)
  deriving DecidableEq

namespace ConnPool

variable (options : ConnPoolOptions) (pool : ConnPool)

/-- A new call. -/
def acquire (context : Nat) : ConnPool :=
  { pool with calls := pool.calls ++ [⟨context, .begin⟩] }

def endContext (context : Nat) : ConnPool :=
  { pool with contexts := pool.contexts ++ [context] }

/-- Some call has got the connection. -/
def given (conn : Nat) : Bool :=
  pool.calls.any fun call =>
    call.phase = .returned (.conn conn true) ∨ call.phase = .returned (.conn conn false)

/-- A goroutine that has left its section closes the channel of its waiters. -/
def announce (place : Nat) : ConnPool := { pool with announced := pool.announced ++ [place] }

/-- The case of the select in which the channel of the dial was closed. -/
def collect (call : Nat) (current : Call) (generation place : Nat) (startDial isAlive : Bool) :
    ConnPool :=
  match pool.connects[place]? with
  | some ⟨_, _, _, .done err⟩ =>
    if place ∈ pool.announced then
      pool.collectShared options call current generation err startDial isAlive
    else pool
  | _ => pool

/-- The case of the select in which the context of the call ended. -/
def giveUp (call : Nat) (current : Call) : ConnPool :=
  if current.context ∈ pool.contexts then
    pool.finish call current (.err (.context current.context))
  else pool

/-- The case of the select in which the context of the state object ended. -/
def notice (call : Nat) (current : Call) (generation : Nat) : ConnPool :=
  if generation ∈ pool.ended then
    if pool.closed then pool.finish call current (.err .closed) else pool.retry call current
  else pool

/-- A step of a call; one that its phase does not allow does nothing. -/
def advance (call : Nat) (current : Call) : Action → ConnPool
  | .begin isAlive =>
    if current.phase = .begin then
      match options.mode with
      | .single => pool.acquireShared options call current isAlive
      | .ordered => pool.acquireOrdered call current isAlive
    else pool
  | .acquireSlot =>
    match current.phase with
    | .acquireSlot generation => pool.acquireSlot options call current generation
    | _ => pool
  | .missSlot =>
    match current.phase with
    | .acquireSlot generation => pool.missSlot call current generation
    | _ => pool
  | .dialed succeeded stateFirst =>
    match current.phase with
    | .dial generation =>
      pool.dialAndInstall options call current generation succeeded stateFirst
    | _ => pool
  | .install =>
    match current.phase with
    | .install generation conn => pool.install options call current generation conn
    | _ => pool
  | .collect isAlive =>
    match options.mode, current.phase with
    | .single, .wait generation connect startDial =>
      pool.collect options call current generation connect startDial isAlive
    | _, _ => pool
  | .giveUp =>
    match current.phase with
    | .wait _ _ _ => pool.giveUp call current
    | _ => pool
  | .notice =>
    match current.phase with
    | .wait generation _ _ => pool.notice call current generation
    | _ => pool

/-- One step; a step that is not possible in the state does nothing. A connection that is lent
to one call is released by that call; a shared one may be released by anybody once a call has got
it. -/
def step (pool : ConnPool) : Event → ConnPool
  | .acquire context => pool.acquire context
  | .advance call action =>
    match pool.calls[call]? with
    | none => pool
    | some current => pool.advance options call current action
  | .dialed place succeeded stateFirst =>
    match pool.connects[place]? with
    | none => pool
    | some connect =>
      if connect.phase = .dial then pool.dialSingle place connect succeeded stateFirst else pool
  | .connect place =>
    match pool.connects[place]? with
    | none => pool
    | some connect =>
      match connect.phase with
      | .install outcome => pool.connectSingle place connect outcome
      | _ => pool
  | .announce place =>
    match pool.connects[place]? with
    | some ⟨_, _, _, .done _⟩ => pool.announce place
    | _ => pool
  | .release place reuse isAlive =>
    match pool.holds[place]? with
    | none => pool
    | some hold => (pool.unhold place).release options hold.2 reuse isAlive
  | .releaseShared conn reuse isAlive =>
    if options.mode = .single ∧ pool.given conn then pool.release options conn reuse isAlive
    else pool
  | .invalidate conn => if conn < pool.dialed then pool.invalidate options conn else pool
  | .reset => pool.reset
  | .close => pool.shutdown
  | .closeState place =>
    match pool.retiring[place]? with
    | none => pool
    | some (generation, conns) => pool.closeState place generation conns
  | .closeConn place =>
    match pool.closing[place]? with
    | none => pool
    | some conn => pool.closeConn place conn
  | .endContext context => pool.endContext context

end ConnPool

/-- The state after a list of steps. -/
def run (options : ConnPoolOptions) (events : List Event) : ConnPool :=
  Machine.drive (ConnPool.step options) newConnPool events

end SingBox.DnsPool
