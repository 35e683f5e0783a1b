/-
This file models the query multiplexer of the DNS transports: how queries are
registered under wire identifiers on a shared connection, written, answered, given
up and retried. Its goroutines take turns at the sections that the mutex of the
pending table guards, and in between at anything they do to the connection pool or
the network; every order of these steps is a run. The connection pool, the network
and the contexts of the callers are the surroundings: a run says what they do.
-/

import SingBox.Machine
import SingBox.Table
import Mathlib

namespace SingBox.DnsMux

open Function

/-- Why the context of a query is done. -/
inductive ContextErr where
  | canceled
  | deadlineExceeded
  deriving DecidableEq

/-- The cause with which the context of a connection ended: the read error that `recvLoop`
wraps, or any other one. -/
inductive ConnErr where
  | queryMultiplexerReadError
  | other
  deriving DecidableEq

/-- A registered query. The callback and the message are those of the query; `registration`
numbers the registrations and is history only. -/
structure PendingQuery where
  query : Nat
  context : Nat
  conn : Nat
  readEpoch : UInt64
  retryCtx : Bool
  registration : Nat
  deriving DecidableEq

/-- What `exchangeAsync` knows after it has registered its query. -/
structure Attempt where
  conn : Nat
  created : Bool
  queryId : UInt16
  registration : Nat
  deriving DecidableEq

/-- How far a running exchange has come. -/
inductive Phase where
  | acquire
  | register (conn : Nat) (created : Bool)
  | write (attempt : Attempt)
  | take (attempt : Attempt)
  | invalidate (attempt : Attempt) (pending : Option PendingQuery)
  | exchangeSingle
  | returned
  deriving DecidableEq

/-- A running `exchangeAsync` or `exchangeSingle`. -/
structure Call where
  query : Nat
  context : Nat
  firstAttempt : Bool
  retryReadError : Bool
  phase : Phase
  deriving DecidableEq

/-- A function of `context.AfterFunc` that was started and has not run yet. -/
inductive Task where
  | contextDone (queryId : UInt16) (context : Nat)
  | connDone (queryId : UInt16) (conn : Nat)
  deriving DecidableEq

/-- The wire identifier under which a task will take a pending query. -/
def Task.queryId : Task → UInt16
  | .contextDone queryId _ => queryId
  | .connDone queryId _ => queryId

/-- How far the answer to a query message has come: the server has yet to send it or it is on
its way, `recvLoop` has read it, or `recvLoop` has handed it to `complete`. -/
inductive Stage where
  | sent
  | read
  | completed
  deriving DecidableEq

/-- A query message that reached the server. Its answer carries its identifier and its
question. -/
structure Message (Question : Type) where
  conn : Nat
  queryId : UInt16
  question : Question
  registration : Nat
  stage : Stage

/-- A call of a query's callback, with the question of the response it got. -/
structure Result (Question : Type) where
  query : Nat
  response : Option Question

/-- What completed a registration. -/
inductive Completion where
  | response
  | contextDone
  | connDone
  | writeFailed
  deriving DecidableEq

/-- The multiplexer and its surroundings. The lists from `registered` on are history. -/
structure Mux (Question : Type) where
  queryId : UInt16
  queries : Table UInt16 PendingQuery
  calls : List Call
  tasks : List Task
  contexts : Nat → Option ContextErr
  connErrs : Nat → Option ConnErr
  readEpochs : Nat → UInt64
  finished : List Nat
  messages : List (Message Question)
  questions : List Question
  results : List (Result Question)
  registered : List Nat
  completions : List (Nat × Completion)
  lateFailures : List Nat
  releases : List Nat

variable {Question : Type}

def newQueryMultiplexer : Mux Question where
  queryId := 0
  queries := .empty
  calls := []
  tasks := []
  contexts := fun _ => none
  connErrs := fun _ => none
  readEpochs := fun _ => 0
  finished := []
  messages := []
  questions := []
  results := []
  registered := []
  completions := []
  lateFailures := []
  releases := []

namespace Mux

variable (mux : Mux Question)

/-- A running exchange goes on. -/
def setCall (call : Nat) (current : Call) : Mux Question :=
  { mux with calls := mux.calls.set call current }

def callback (query : Nat) (response : Option Question) : Mux Question :=
  { mux with results := mux.results ++ [⟨query, response⟩] }

/-- The connection of a registration is given back to the pool. -/
def release (registration : Nat) : Mux Question :=
  { mux with releases := mux.releases ++ [registration] }

/-- The context of a connection ends, unless it has ended before: the functions that pending
queries have registered for it are started. -/
def endConn (conn : Nat) (err : ConnErr) : Mux Question :=
  if mux.connErrs conn = none then
    { mux with
      connErrs := Function.update mux.connErrs conn (some err)
      tasks := mux.tasks ++ (mux.queries.entries.filter fun entry => entry.2.conn = conn).map
        fun entry => .connDone entry.1 conn }
  else mux

/-- The context of a query ends, unless it has ended before. -/
def endContext (context : Nat) (err : ContextErr) : Mux Question :=
  if mux.contexts context = none then
    { mux with
      contexts := Function.update mux.contexts context (some err)
      tasks := mux.tasks ++
        (mux.queries.entries.filter fun entry => entry.2.context = context).map
          fun entry => .contextDone entry.1 context }
  else mux

/-- `Invalidate` of the pool: the connection of a registration is given back as a broken one,
and its context ends. -/
def invalidate (registration conn : Nat) (err : ConnErr) : Mux Question :=
  (mux.release registration).endConn conn err

/-- `dispatch`: a probe of the server decides between a connection of its own and the shared
one. -/
def dispatch (query context : Nat) (retryReadError single : Bool) : Mux Question :=
  { mux with
    calls := mux.calls ++ [{
      query, context, firstAttempt := true, retryReadError
      phase := if single then .exchangeSingle else .acquire }] }

/-- A new query comes with its question. -/
def ask (question : Question) : Mux Question :=
  { mux with questions := mux.questions ++ [question] }

/-- `ExchangeAsync`: a new query. -/
def exchangeAsync (question : Question) (context : Nat) (single : Bool) : Mux Question :=
  (mux.ask question).dispatch mux.questions.length context true single

/-- The search of `register` for an identifier that is not pending. -/
def nextId (queries : Table UInt16 PendingQuery) (start : UInt16) : Nat → UInt16 → UInt16 × Bool
  | 0, queryId => (queryId, false)
  | rounds + 1, queryId =>
    if queries.find? (queryId + 1) = none then (queryId + 1, true)
    else if queryId + 1 = start then (queryId + 1, false)
    else nextId queries start rounds (queryId + 1)

theorem nextId_free (queries : Table UInt16 PendingQuery) (start : UInt16) (rounds : Nat)
    (queryId : UInt16) (found : (nextId queries start rounds queryId).2 = true) :
    queries.find? (nextId queries start rounds queryId).1 = none := by
  induction rounds generalizing queryId with
  | zero => exact nomatch found
  | succ rounds ih =>
    unfold nextId at found ⊢
    split
    next free => exact free
    next pending =>
      rw [if_neg pending] at found
      split
      next around =>
        rw [if_pos around] at found
        exact nomatch found
      next more =>
        rw [if_neg more] at found
        exact ih _ found

/-- The outcome of the search: the counter, and whether an identifier was found. -/
def search : UInt16 × Bool := nextId mux.queries mux.queryId (2 ^ 16) mux.queryId

/-- The functions that `register` hands to `context.AfterFunc` and that start at once, because
the context is done. -/
def startedTasks (queryId : UInt16) (context conn : Nat) : List Task :=
  (if mux.contexts context = none then [] else [.contextDone queryId context]) ++
    (if mux.connErrs conn = none then [] else [.connDone queryId conn])

/-- `register` with the identifier that the search found. -/
def addPending (retryReadError : Bool) (call : Nat) (current : Call) (conn : Nat)
    (created : Bool) (queryId : UInt16) : Mux Question :=
  { mux with
    queryId := queryId
    queries := mux.queries.set queryId {
      query := current.query
      context := current.context
      conn := conn
      readEpoch := mux.readEpochs conn
      retryCtx := current.retryReadError && retryReadError && !created
      registration := mux.registered.length }
    tasks := mux.tasks ++ mux.startedTasks queryId current.context conn
    registered := mux.registered ++ [current.query]
    calls := mux.calls.set call { current with
      phase := .write ⟨conn, created, queryId, mux.registered.length⟩ } }

/-- The counter of the identifiers moves. -/
def setId (queryId : UInt16) : Mux Question := { mux with queryId := queryId }

/-- `register` and what `exchangeAsync` does when it fails. -/
def register (retryReadError : Bool) (call : Nat) (current : Call) (conn : Nat)
    (created : Bool) : Mux Question :=
  if mux.search.2 then mux.addPending retryReadError call current conn created mux.search.1
  else
    ((mux.setId mux.search.1).setCall call { current with phase := .returned }).callback
      current.query none

/-- The query message reaches the server. -/
def send (question : Question) (attempt : Attempt) : Mux Question :=
  { mux with messages := mux.messages ++ [{
      conn := attempt.conn
      queryId := attempt.queryId
      question := question
      registration := attempt.registration
      stage := .sent }] }

/-- The end of `write`: the message may have reached the server even when it fails. -/
def write (call : Nat) (current : Call) (attempt : Attempt) (reached failed : Bool) :
    Mux Question :=
  match mux.questions[current.query]? with
  | none => mux
  | some question =>
    (if reached || !failed then mux.send question attempt else mux).setCall call
      { current with phase := if failed then .take attempt else .returned }

/-- `take`: the pending query leaves the table. Functions of its contexts that have not been
started are stopped with it. -/
def take (queryId : UInt16) : Mux Question := { mux with queries := mux.queries.erase queryId }

def completed (registration : Nat) (completion : Completion) : Mux Question :=
  { mux with completions := mux.completions ++ [(registration, completion)] }

/-- A write failed after its query had been completed. -/
def failedLate (registration : Nat) : Mux Question :=
  { mux with lateFailures := mux.lateFailures ++ [registration] }

/-- `take` of an exchange whose write failed. -/
def takeFailed (call : Nat) (current : Call) (attempt : Attempt) : Mux Question :=
  match mux.queries.find? attempt.queryId with
  | none =>
    (mux.failedLate attempt.registration).setCall call
      { current with phase := .invalidate attempt none }
  | some pending =>
    ((mux.take attempt.queryId).completed pending.registration .writeFailed).setCall call
      { current with phase := .invalidate attempt (some pending) }

/-- What `exchangeAsync` does after the `take`: the connection is invalid, and the query is
tried once more when it was written to a connection that had been used before. -/
def giveUp (call : Nat) (current : Call) (attempt : Attempt) (pending : Option PendingQuery) :
    Mux Question :=
  match pending with
  | none =>
    (mux.setCall call { current with phase := .returned }).invalidate
      attempt.registration attempt.conn .other
  | some _ =>
    if !attempt.created && current.firstAttempt then
      (mux.setCall call { current with firstAttempt := false, phase := .acquire }).invalidate
        attempt.registration attempt.conn .other
    else
      ((mux.setCall call { current with phase := .returned }).invalidate
        attempt.registration attempt.conn .other).callback current.query none

/-- `complete` with a response. -/
def complete (queryId : UInt16) (question : Question) : Mux Question :=
  match mux.queries.find? queryId with
  | none => mux
  | some pending =>
    (((mux.take queryId).completed pending.registration .response).release
      pending.registration).callback pending.query (some question)

/-- `completeContextDone`: a query whose deadline passes while its connection reads nothing
takes the connection with it. -/
def completeContextDone (queryId : UInt16) (context : Nat) : Mux Question :=
  match mux.queries.find? queryId with
  | none => mux
  | some pending =>
    let taken := (mux.take queryId).completed pending.registration .contextDone
    (if mux.contexts context = some .deadlineExceeded ∧
        mux.readEpochs pending.conn = pending.readEpoch then
      taken.invalidate pending.registration pending.conn .other
    else taken.release pending.registration).callback pending.query none

/-- `completeConnDone`: a query whose connection failed to read may be dispatched again. -/
def completeConnDone (queryId : UInt16) (conn : Nat) (single : Bool) : Mux Question :=
  match mux.queries.find? queryId with
  | none => mux
  | some pending =>
    let taken := (mux.take queryId).completed pending.registration .connDone
    if pending.retryCtx ∧ mux.connErrs conn = some .queryMultiplexerReadError then
      taken.dispatch pending.query pending.context false single
    else taken.callback pending.query none

/-- `recvLoop` has read something. -/
def countRead (conn : Nat) : Mux Question :=
  { mux with readEpochs := Function.update mux.readEpochs conn (mux.readEpochs conn + 1) }

/-- The answer to a message gets further. -/
def setMessage (place : Nat) (message : Message Question) : Mux Question :=
  { mux with messages := mux.messages.set place message }

/-- `recvLoop` reads the answer to a message. -/
def read (place : Nat) (message : Message Question) : Mux Question :=
  (mux.countRead message.conn).setMessage place { message with stage := .read }

/-- `recvLoop` hands the answer that it read to `complete`. -/
def deliver (place : Nat) (message : Message Question) : Mux Question :=
  (mux.setMessage place { message with stage := .completed }).complete
    message.queryId message.question

/-- `recvLoop` returns. -/
def finish (conn : Nat) : Mux Question := { mux with finished := mux.finished ++ [conn] }

/-- A started function begins to run. -/
def start (place : Nat) : Mux Question := { mux with tasks := mux.tasks.eraseIdx place }

/-- A started function runs. -/
def perform (task : Task) (single : Bool) : Mux Question :=
  match task with
  | .contextDone queryId context => mux.completeContextDone queryId context
  | .connDone queryId conn => mux.completeConnDone queryId conn single

end Mux

/-- The steps of a running exchange. -/
inductive Action where
  | acquireFailed
  | acquired (conn : Nat) (created : Bool)
  | register
  | write (reached failed : Bool)
  | take
  | invalidate
  | exchangedSingle (answered : Bool)
  deriving DecidableEq

/-- The steps of a run. The numbers are places of running exchanges, of messages and of started
functions, and the contexts and connections. -/
inductive Event (Question : Type) where
  | exchangeAsync (question : Question) (context : Nat) (single : Bool)
  | exchange (call : Nat) (action : Action)
  | endContext (context : Nat) (err : ContextErr)
  | endConn (conn : Nat)
  | readFailed (conn : Nat)
  | readNothing (conn : Nat)
  | read (message : Nat)
  | deliver (message : Nat)
  | perform (task : Nat) (single : Bool)

/-- A step of a running exchange; one that its phase does not allow does nothing. -/
def Mux.advance (retryReadError : Bool) (mux : Mux Question) (call : Nat) (current : Call) :
    Action → Mux Question
  | .acquireFailed =>
    if current.phase = .acquire then
      (mux.setCall call { current with phase := .returned }).callback current.query none
    else mux
  | .acquired conn created =>
    if current.phase = .acquire then
      mux.setCall call { current with phase := .register conn created }
    else mux
  | .register =>
    match current.phase with
    | .register conn created => mux.register retryReadError call current conn created
    | _ => mux
  | .write reached failed =>
    match current.phase with
    | .write attempt => mux.write call current attempt reached failed
    | _ => mux
  | .take =>
    match current.phase with
    | .take attempt => mux.takeFailed call current attempt
    | _ => mux
  | .invalidate =>
    match current.phase with
    | .invalidate attempt pending => mux.giveUp call current attempt pending
    | _ => mux
  | .exchangedSingle answered =>
    if current.phase = .exchangeSingle then
      (mux.setCall call { current with phase := .returned }).callback current.query
        (if answered then mux.questions[current.query]? else none)
    else mux

/-- One step; a step that is not possible in the state does nothing. -/
def Mux.step (retryReadError : Bool) (mux : Mux Question) : Event Question → Mux Question
  | .exchangeAsync question context single => mux.exchangeAsync question context single
  | .exchange call action =>
    match mux.calls[call]? with
    | none => mux
    | some current => mux.advance retryReadError call current action
  | .endContext context err => mux.endContext context err
  | .endConn conn => mux.endConn conn .other
  | .readFailed conn => (mux.endConn conn .queryMultiplexerReadError).finish conn
  | .readNothing conn => mux.countRead conn
  | .read place =>
    match mux.messages[place]? with
    | none => mux
    | some message =>
      if message.stage = .sent ∧ message.conn ∉ mux.finished then mux.read place message else mux
  | .deliver place =>
    match mux.messages[place]? with
    | none => mux
    | some message => if message.stage = .read then mux.deliver place message else mux
  | .perform place single =>
    match mux.tasks[place]? with
    | none => mux
    | some task => (mux.start place).perform task single

/-- The state after a list of steps. -/
def run (retryReadError : Bool) (events : List (Event Question)) : Mux Question :=
  Machine.drive (Mux.step retryReadError) newQueryMultiplexer events

end SingBox.DnsMux
