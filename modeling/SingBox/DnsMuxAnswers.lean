/-
This file proves what the multiplexer promises about answers: as long as no wire
identifier is handed out again while a query under it is still to be written, or
its answer can still arrive, every callback that gets a response gets the answer to
its own question. Nothing in the code waits for that: the identifier of a query
that was given up is free at once, and after `2 ^ 16` registrations a late answer
reaches another query.
-/

import SingBox.DnsMux
import SingBox.Log

namespace SingBox.DnsMux

open List Machine Log Function Table Mux

variable {Question : Type}

/-- The answer to the message can still be handed to `complete`. -/
def Mux.Awaited (mux : Mux Question) (message : Message Question) : Prop :=
  message.stage = .read ∨ (message.stage = .sent ∧ message.conn ∉ mux.finished)

/-- No query under the identifier is still to be written, and no answer with the identifier
can still arrive. -/
def Mux.Unused (mux : Mux Question) (queryId : UInt16) : Prop :=
  (∀ call ∈ mux.calls, ∀ attempt, call.phase = .write attempt → attempt.queryId ≠ queryId) ∧
    ∀ message ∈ mux.messages, message.queryId = queryId → ¬mux.Awaited message

/-- Where the step registers a query, the identifier it hands out is not in use any more. -/
def Settled (mux : Mux Question) : Event Question → Prop
  | .exchange _ .register => mux.Unused mux.search.1
  | _ => True

/-- Every response that a callback got carries the question of its query. -/
def AnsweredRight (mux : Mux Question) : Prop :=
  ∀ result ∈ mux.results, ∀ question, result.response = some question →
    mux.questions[result.query]? = some question

/-! ### The invariant -/

/-- The pending query under the identifier, if there is one, is that of the registration. -/
def Mux.Owns (mux : Mux Question) (registration : Nat) (queryId : UInt16) : Prop :=
  ∀ pending, mux.queries.find? queryId = some pending → pending.registration = registration

/-- Registrations belong to queries; a query that is still to be written and an answer that can
still arrive can only meet the pending query of their own registration. -/
structure Answers (mux : Mux Question) : Prop where
  pending : ∀ queryId pending, mux.queries.find? queryId = some pending →
    mux.registered[pending.registration]? = some pending.query
  writing : ∀ call ∈ mux.calls, ∀ attempt, call.phase = .write attempt →
    mux.registered[attempt.registration]? = some call.query ∧
      mux.Owns attempt.registration attempt.queryId
  messages : ∀ message ∈ mux.messages,
    (∃ query, mux.registered[message.registration]? = some query ∧
      mux.questions[query]? = some message.question) ∧
      (mux.Awaited message → mux.Owns message.registration message.queryId)
  right : AnsweredRight mux

theorem answers_new : Answers (newQueryMultiplexer : Mux Question) where
  pending := nofun
  writing := nofun
  messages := nofun
  right := nofun

variable {place count : Nat} {message : Message Question} {mux : Mux Bool}

namespace Answers

variable {mux : Mux Question}

section

variable (answers : Answers mux)

include answers

theorem release (registration : Nat) : Answers (mux.release registration) :=
  { answers with }

theorem completed (registration : Nat) (completion : Completion) :
    Answers (mux.completed registration completion) :=
  { answers with }

theorem endConn (conn : Nat) (err : ConnErr) : Answers (mux.endConn conn err) := by
  unfold Mux.endConn
  split
  · exact { answers with }
  · exact answers

theorem endContext (context : Nat) (err : ContextErr) : Answers (mux.endContext context err) := by
  unfold Mux.endContext
  split
  · exact { answers with }
  · exact answers

theorem invalidate (registration conn : Nat) (err : ConnErr) :
    Answers (mux.invalidate registration conn err) :=
  (answers.release registration).endConn conn err

/-- A callback may be called without a response, or with the question of its query. -/
theorem callback (query : Nat) (response : Option Question)
    (right : ∀ question, response = some question → mux.questions[query]? = some question) :
    Answers (mux.callback query response) := by
  refine { answers with right := fun result member question => ?_ }
  rcases mem_snoc member with before | rfl
  · exact answers.right result before question
  · exact right question

/-- An exchange that does not begin to write may go on. -/
theorem setCall (call : Nat) (current : Call) (idle : ∀ attempt, current.phase ≠ .write attempt) :
    Answers (mux.setCall call current) := by
  refine { answers with writing := fun other member attempt writes => ?_ }
  rcases mem_or_eq_of_mem_set member with before | rfl
  · exact answers.writing other before attempt writes
  · exact absurd writes (idle attempt)

theorem dispatch (query context : Nat) (retryReadError single : Bool) :
    Answers (mux.dispatch query context retryReadError single) := by
  refine { answers with writing := fun call member attempt writes => ?_ }
  rcases mem_snoc member with before | rfl
  · exact answers.writing call before attempt writes
  · cases single <;> exact nomatch writes

theorem ask (question : Question) : Answers (mux.ask question) := by
  refine ⟨answers.pending, answers.writing, fun message member => ?_, ?_⟩
  · obtain ⟨⟨query, listed, asked⟩, owns⟩ := answers.messages message member
    exact ⟨⟨query, listed, snoc_of_some asked⟩, owns⟩
  · exact fun result member question got =>
      snoc_of_some (answers.right result member question got)

theorem take (queryId : UInt16) : Answers (mux.take queryId) := by
  have owns : ∀ registration other, mux.Owns registration other →
      (mux.take queryId).Owns registration other := fun _ _ owner pending left =>
    owner pending (find?_erase_some left).2
  refine ⟨fun other pending left => ?_, fun call member attempt writes => ?_,
    fun message member => ?_, answers.right⟩
  · exact answers.pending other pending (find?_erase_some left).2
  · obtain ⟨listed, owner⟩ := answers.writing call member attempt writes
    exact ⟨listed, owns _ _ owner⟩
  · obtain ⟨asked, owner⟩ := answers.messages message member
    exact ⟨asked, fun awaited => owns _ _ (owner awaited)⟩

/-- The answer to a message may get further, but not be awaited again. -/
theorem setMessage (listed : mux.messages[place]? = some message) (stage : Stage)
    (awaited : mux.Awaited { message with stage } → mux.Awaited message) :
    Answers (mux.setMessage place { message with stage }) := by
  refine { answers with messages := fun other member => ?_ }
  rcases mem_or_eq_of_mem_set member with before | rfl
  · exact answers.messages other before
  · obtain ⟨asked, owner⟩ := answers.messages message (mem_of_getElem? listed)
    exact ⟨asked, fun still => owner (awaited still)⟩

theorem finish (conn : Nat) : Answers (mux.finish conn) := by
  refine { answers with messages := fun message member => ?_ }
  obtain ⟨asked, owner⟩ := answers.messages message member
  refine ⟨asked, fun awaited => owner ?_⟩
  rcases awaited with read | ⟨sent, open_⟩
  · exact .inl read
  · exact .inr ⟨sent, fun finished => open_ (mem_append_left _ finished)⟩

end

/-! ### Registering and writing -/

section

variable (answers : Answers mux) (retryReadError : Bool) (call : Nat) (current : Call)
  (conn : Nat) (created : Bool)

include answers

theorem addPending (queryId : UInt16) (unused : mux.Unused queryId) :
    Answers (mux.addPending retryReadError call current conn created queryId) := by
  have owns : ∀ registration other, other ≠ queryId → mux.Owns registration other →
      (mux.addPending retryReadError call current conn created queryId).Owns registration other := by
    intro registration other ne owner pending listed
    exact owner pending (find?_set_ne ne ▸ listed)
  refine ⟨fun other pending listed => ?_, fun other member attempt writes => ?_,
    fun message member => ?_, answers.right⟩
  · rcases find?_set_some listed with ⟨-, rfl⟩ | ⟨-, before⟩
    · exact snoc_self _ _
    · exact snoc_of_some (answers.pending other pending before)
  · rcases mem_or_eq_of_mem_set member with before | rfl
    · obtain ⟨registered, owner⟩ := answers.writing other before attempt writes
      exact ⟨snoc_of_some registered, owns _ _ (unused.1 other before attempt writes) owner⟩
    · cases writes
      refine ⟨snoc_self _ _, fun pending listed => ?_⟩
      rcases find?_set_some listed with ⟨-, rfl⟩ | ⟨ne, -⟩
      · rfl
      · exact absurd rfl ne
  · obtain ⟨⟨query, registered, asked⟩, owner⟩ := answers.messages message member
    refine ⟨⟨query, snoc_of_some registered, asked⟩, fun awaited => ?_⟩
    exact owns _ _ (fun same => unused.2 message member same awaited) (owner awaited)

theorem register (unused : mux.Unused mux.search.1) :
    Answers (mux.register retryReadError call current conn created) := by
  unfold Mux.register
  split
  · exact answers.addPending _ _ _ _ _ _ unused
  · have moved : Answers (mux.setId mux.search.1) :=
      { answers with }
    exact (moved.setCall _ _ (by nofun)).callback _ _ (by nofun)

end

variable {attempt : Attempt}

theorem send (answers : Answers mux) {query : Nat} {question : Question}
    (asked : mux.questions[query]? = some question)
    (registered : mux.registered[attempt.registration]? = some query)
    (owner : mux.Owns attempt.registration attempt.queryId) :
    Answers (mux.send question attempt) := by
  refine { answers with messages := fun message member => ?_ }
  rcases mem_snoc member with before | rfl
  · exact answers.messages message before
  · exact ⟨⟨query, registered, asked⟩, fun _ => owner⟩

theorem write (answers : Answers mux) {call : Nat} {current : Call}
    (running : mux.calls[call]? = some current) (writes : current.phase = .write attempt)
    (reached failed : Bool) : Answers (mux.write call current attempt reached failed) := by
  unfold Mux.write
  split
  · exact answers
  next question asked =>
    obtain ⟨registered, owner⟩ :=
      answers.writing current (mem_of_getElem? running) attempt writes
    refine setCall ?_ _ _ (fun other => by cases failed <;> exact nofun)
    split
    · exact answers.send asked registered owner
    · exact answers

/-! ### Completing a query -/

section

variable (answers : Answers mux)

include answers

theorem takeFailed (call : Nat) (current : Call) (attempt : Attempt) :
    Answers (mux.takeFailed call current attempt) := by
  unfold Mux.takeFailed
  split
  · have noted : Answers (mux.failedLate attempt.registration) :=
      { answers with }
    exact noted.setCall _ _ (by nofun)
  · exact ((answers.take _).completed _ _).setCall _ _ (by nofun)

theorem giveUp (call : Nat) (current : Call) (attempt : Attempt) (pending : Option PendingQuery) :
    Answers (mux.giveUp call current attempt pending) := by
  unfold Mux.giveUp
  cases pending with
  | none => exact (answers.setCall _ _ (by nofun)).invalidate _ _ _
  | some pending =>
    dsimp only
    split
    · exact (answers.setCall _ _ (by nofun)).invalidate _ _ _
    · exact ((answers.setCall _ _ (by nofun)).invalidate _ _ _).callback _ _ (by nofun)

/-- A response completes the query whose question it carries. -/
theorem complete (queryId : UInt16) (question : Question)
    (right : ∀ pending, mux.queries.find? queryId = some pending →
      mux.questions[pending.query]? = some question) : Answers (mux.complete queryId question) := by
  unfold Mux.complete
  split
  · exact answers
  next pending listed =>
    refine (((answers.take _).completed _ _).release _).callback _ _ fun other same => ?_
    cases same
    exact right pending listed

theorem completeContextDone (queryId : UInt16) (context : Nat) :
    Answers (mux.completeContextDone queryId context) := by
  unfold Mux.completeContextDone
  split
  · exact answers
  next pending listed =>
    have taken := (answers.take queryId).completed pending.registration .contextDone
    refine callback ?_ _ _ nofun
    split
    · exact taken.invalidate _ _ _
    · exact taken.release _

theorem completeConnDone (queryId : UInt16) (conn : Nat) (single : Bool) :
    Answers (mux.completeConnDone queryId conn single) := by
  unfold Mux.completeConnDone
  split
  · exact answers
  next pending listed =>
    have taken := (answers.take queryId).completed pending.registration .connDone
    split
    · exact taken.dispatch _ _ _ _
    · exact taken.callback _ _ (by nofun)

theorem perform (task : Task) (single : Bool) : Answers (mux.perform task single) := by
  cases task with
  | contextDone queryId context => exact answers.completeContextDone queryId context
  | connDone queryId conn => exact answers.completeConnDone queryId conn single

/-- The answer that `recvLoop` has read meets the query it answers, or none. -/
theorem deliver (listed : mux.messages[place]? = some message) (read : message.stage = .read) :
    Answers (mux.deliver place message) := by
  refine (answers.setMessage listed .completed ?_).complete _ _ fun pending found => ?_
  · rintro (still | ⟨still, -⟩) <;> exact nomatch still
  · obtain ⟨⟨query, registered, asked⟩, owner⟩ :=
      answers.messages message (mem_of_getElem? listed)
    have own : pending.registration = message.registration := owner (.inl read) pending found
    have same : some pending.query = some query := by
      rw [← answers.pending _ pending found, own, registered]
    rw [Option.some.inj same]
    exact asked

end

/-! ### Every run -/

theorem advance (answers : Answers mux) (retryReadError : Bool) {call : Nat} {current : Call}
    (running : mux.calls[call]? = some current) (action : Action)
    (settled : Settled mux (.exchange call action)) :
    Answers (mux.advance retryReadError call current action) := by
  fun_cases Mux.advance retryReadError mux call current action with
  | case1 => exact (answers.setCall _ _ (by nofun)).callback _ _ (by nofun)
  | case3 => exact answers.setCall _ _ (by nofun)
  | case5 => exact answers.register _ _ _ _ _ settled
  | case7 reached failed _ writes => exact answers.write running writes reached failed
  | case9 => exact answers.takeFailed _ _ _
  | case11 => exact answers.giveUp _ _ _ _
  | case13 answered =>
    refine (answers.setCall _ _ (by nofun)).callback _ _ fun question got => ?_
    cases answered with
    | false => exact nomatch got
    | true => exact got
  | _ => exact answers

theorem step (answers : Answers mux) (retryReadError : Bool) (event : Event Question)
    (settled : Settled mux event) : Answers (mux.step retryReadError event) := by
  fun_cases Mux.step retryReadError mux event with
  | case1 question => exact (answers.ask question).dispatch _ _ _ _
  | case3 _ action _ running => exact answers.advance retryReadError running action settled
  | case4 context err => exact answers.endContext context err
  | case5 conn => exact answers.endConn conn .other
  | case6 conn => exact (answers.endConn conn _).finish conn
  | case7 => exact { answers with }
  | case9 _ message listed waiting =>
    have counted : Answers (mux.countRead message.conn) :=
      { answers with }
    exact counted.setMessage listed .read fun _ => .inr waiting
  | case12 _ _ listed read => exact answers.deliver listed read
  | case15 place single task =>
    have started : Answers (mux.start place) :=
      { answers with }
    exact started.perform task single
  | _ => exact answers

end Answers

/-- Along every run that hands out no identifier in use, every callback that gets a response
gets the answer to the question of its own query. -/
theorem answered_right (retryReadError : Bool) (events : List (Event Question))
    (settled : Machine.Meets (Mux.step retryReadError) Settled newQueryMultiplexer events) :
    AnsweredRight (run retryReadError events) :=
  (invariant_drive Answers answers_new
    (fun _ event answers met => answers.step retryReadError event met) settled).right

/-- Two queries on one connection, and the second one is answered first. -/
def outOfOrder : List (Event Nat) :=
  [.exchangeAsync 5 0 false, .exchange 0 (.acquired 0 true), .exchange 0 .register,
    .exchange 0 (.write true false), .exchangeAsync 6 1 false, .exchange 1 (.acquired 0 false),
    .exchange 1 .register, .exchange 1 (.write true false), .read 1, .deliver 1, .read 0,
    .deliver 0]

theorem answered_right_outOfOrder :
    (run true outOfOrder).results = [⟨1, some 6⟩, ⟨0, some 5⟩] ∧
      AnsweredRight (run true outOfOrder) := by
  refine ⟨rfl, answered_right true outOfOrder ⟨trivial, trivial, ?_, trivial, trivial,
    trivial, ?_, trivial, trivial, trivial, trivial, trivial, trivial⟩⟩
  · refine ⟨fun call member attempt writes => ?_, nofun⟩
    rw [mem_singleton.mp member] at writes
    exact nomatch writes
  · refine ⟨fun call member attempt writes => ?_, fun message member same => ?_⟩
    · rcases mem_pair.mp member with rfl | rfl <;> exact nomatch writes
    · rw [mem_singleton.mp member] at same
      exact absurd same (by decide)

/-! ### An identifier comes around -/

/-- A query that is given up as soon as it was written. -/
def givenUp (question : Bool) (query : Nat) : List (Event Bool) :=
  [.exchangeAsync question query false, .exchange query (.acquired 0 false),
    .exchange query .register, .exchange query (.write true false),
    .endContext query .canceled, .perform 0 false]

/-- Queries have come and gone, and all of them wrote to one connection. -/
structure Quiet (mux : Mux Bool) (count : Nat) : Prop where
  queryId : mux.queryId = UInt16.ofNat count
  queries : mux.queries = .empty
  tasks : mux.tasks = []
  calls : mux.calls.length = count
  questions : mux.questions.length = count
  contexts : ∀ context, count ≤ context → mux.contexts context = none
  connErrs : ∀ conn, mux.connErrs conn = none
  finished : mux.finished = []

theorem search_of_empty (none : mux.queries = .empty) : mux.search = (mux.queryId + 1, true) := by
  unfold search
  rw [none]
  rfl

/-- The state in which a new query is registered and is still to be written. -/
def Mux.withWriting (mux : Mux Bool) (question : Bool) (count : Nat) : Mux Bool :=
  { mux with
    queryId := mux.queryId + 1
    queries := Table.empty.set (mux.queryId + 1)
      ⟨count, count, 0, mux.readEpochs 0, true, mux.registered.length⟩
    calls := mux.calls ++ [⟨count, count, true, true,
      .write ⟨0, false, mux.queryId + 1, mux.registered.length⟩⟩]
    registered := mux.registered ++ [count]
    questions := mux.questions ++ [question] }

section

variable (quiet : Quiet mux count) (question : Bool)

include quiet

theorem drive_register : drive (step true) mux [.exchangeAsync question count false,
      .exchange count (.acquired 0 false), .exchange count .register] =
      mux.withWriting question count := by
  obtain ⟨queryId, queries, calls, tasks, contexts, connErrs, readEpochs, finished, messages,
    questions, results, registered, completions, lateFailures, releases⟩ := mux
  obtain ⟨-, rfl, rfl, rfl, asked, fresh, alive, rfl⟩ := quiet
  dsimp only at asked fresh alive
  simp only [drive, List.foldl, step, exchangeAsync, ask, dispatch,
    snoc_self, advance, setCall, set_snoc, register, asked,
    Bool.false_eq_true, if_false, if_true]
  rw [search_of_empty rfl]
  simp only [if_true, addPending, set_snoc, startedTasks, fresh _ le_rfl, alive,
    withWriting, Bool.and_true, Bool.not_false, append_nil]

/-- The state in which the query was written and given up. -/
def Mux.withGivenUp (mux : Mux Bool) (question : Bool) (count : Nat) : Mux Bool :=
  { mux with
    queryId := mux.queryId + 1
    calls := mux.calls ++ [⟨count, count, true, true, .returned⟩]
    contexts := Function.update mux.contexts count (some .canceled)
    messages := mux.messages ++
      [⟨0, mux.queryId + 1, question, mux.registered.length, .sent⟩]
    questions := mux.questions ++ [question]
    results := mux.results ++ [⟨count, none⟩]
    registered := mux.registered ++ [count]
    completions := mux.completions ++ [(mux.registered.length, .contextDone)]
    releases := mux.releases ++ [mux.registered.length] }

theorem drive_giveUp : drive (Mux.step true) (mux.withWriting question count)
      [.exchange count (.write true false), .endContext count .canceled, .perform 0 false] =
      mux.withGivenUp question count := by
  obtain ⟨queryId, queries, calls, tasks, contexts, connErrs, readEpochs, finished, messages,
    questions, results, registered, completions, lateFailures, releases⟩ := mux
  obtain ⟨-, rfl, rfl, rfl, asked, fresh, alive, rfl⟩ := quiet
  dsimp only at asked fresh alive
  have single : ∀ pending : PendingQuery, (empty.set (queryId + 1) pending).entries =
      [(queryId + 1, pending)] := fun _ => rfl
  simp only [drive, List.foldl, Mux.step, Mux.withWriting, snoc_self, Mux.advance,
    Mux.write, Mux.send, Mux.setCall, set_snoc, Bool.true_or, if_true, Bool.false_eq_true,
    if_false, Mux.endContext]
  rw [← asked, snoc_self, asked]
  simp only [if_true, fresh _ le_rfl, single, decide_true, filter_cons_of_pos,
    filter_nil, map_cons, map_nil, nil_append, getElem?_cons_zero,
    Mux.start, Mux.perform, eraseIdx_cons_zero, Mux.completeContextDone,
    find?_set_self, Mux.take, Mux.completed, erase_set (find?_empty _),
    update_self]
  rfl

/-- One more query has come and gone. -/
theorem Quiet.givenUp : Quiet (mux.withGivenUp question count) (count + 1) := { quiet with
  queryId := by
    show mux.queryId + 1 = _
    rw [quiet.queryId, UInt16.ofNat_add]
    rfl
  calls := by
    show (mux.calls ++ [_]).length = _
    rw [length_append, quiet.calls, length_singleton]
  questions := by
    show (mux.questions ++ [_]).length = _
    rw [length_append, quiet.questions, length_singleton]
  contexts := fun context later => by
    show update mux.contexts count _ context = none
    rw [update_of_ne (by omega)]
    exact quiet.contexts context (by omega) }

theorem drive_givenUp :
    drive (step true) mux (givenUp question count) = mux.withGivenUp question count := by
  rw [← drive_giveUp quiet question, ← drive_register quiet question, ← drive_append]
  rfl

end

/-- Queries that are given up one after the other. -/
def allGivenUp : Nat → List (Event Bool)
  | 0 => givenUp false 0
  | count + 1 => allGivenUp count ++ givenUp true (count + 1)

/-- The first message is still waiting for its answer after any number of queries. -/
theorem quiet_allGivenUp (count : Nat) :
    Quiet (run true (allGivenUp count)) (count + 1) ∧
      (run true (allGivenUp count)).messages[0]? = some ⟨0, 1, false, 0, .sent⟩ := by
  induction count with
  | zero =>
    have quiet : Quiet newQueryMultiplexer 0 :=
      ⟨rfl, rfl, rfl, rfl, rfl, fun _ _ => rfl, fun _ => rfl, rfl⟩
    exact ⟨quiet.givenUp false, rfl⟩
  | succ count ih =>
    obtain ⟨quiet, waiting⟩ := ih
    rw [allGivenUp, run, drive_append]
    have next := drive_givenUp quiet true
    rw [run] at next quiet waiting
    rw [next]
    exact ⟨quiet.givenUp true, snoc_of_some waiting⟩

/-- An answer reaches whichever query is pending under its identifier. -/
theorem drive_deliver (retryReadError : Bool) {mux : Mux Question} {pending : PendingQuery}
    (listed : mux.messages[place]? = some message) (sent : message.stage = .sent)
    (read : message.conn ∉ mux.finished)
    (found : mux.queries.find? message.queryId = some pending) :
    (drive (step retryReadError) mux [.read place, .deliver place]).results =
        mux.results ++ [⟨pending.query, some message.question⟩] ∧
      (drive (step retryReadError) mux [.read place, .deliver place]).questions =
        mux.questions := by
  have reading : mux.step retryReadError (.read place) = mux.read place message := by
    simp only [step, listed]
    exact if_pos ⟨sent, read⟩
  have answer : (mux.read place message).messages[place]? =
      some { message with stage := .read } := getElem?_set_self (lt_length listed)
  have deliver : drive (step retryReadError) mux [.read place, .deliver place] =
      (mux.read place message).deliver place { message with stage := .read } := by
    show (mux.step retryReadError (.read place)).step retryReadError (.deliver place) = _
    rw [reading]
    simp only [step, answer]
    exact if_pos trivial
  rw [deliver]
  unfold Mux.deliver Mux.complete
  rw [show ((mux.read place message).setMessage place _).queries.find? _ = _ from found]
  exact ⟨rfl, rfl⟩

/-- Queries that are given up, and another one that waits when the answer to the first of them
arrives. -/
def lateAnswer (count : Nat) : List (Event Bool) :=
  allGivenUp count ++ ([.exchangeAsync true (count + 1) false,
    .exchange (count + 1) (.acquired 0 false), .exchange (count + 1) .register] ++
    [.read 0, .deliver 0])

/-- When the identifiers have come around, the next query gets the first one, and with it the
late answer to the first query. -/
theorem misdelivered_of_around (around : UInt16.ofNat (count + 1) = 0) :
    ¬AnsweredRight (run true (lateAnswer count)) := by
  obtain ⟨quiet, waiting⟩ := quiet_allGivenUp count
  unfold run at quiet waiting ⊢
  unfold lateAnswer
  rw [drive_append, drive_append]
  generalize drive (step true) newQueryMultiplexer (allGivenUp count) = mux at quiet waiting ⊢
  rw [drive_register quiet]
  have found : (mux.withWriting true (count + 1)).queries.find? 1 =
      some ⟨count + 1, count + 1, 0, mux.readEpochs 0, true, mux.registered.length⟩ := by
    show (empty.set (mux.queryId + 1) _).find? 1 = _
    rw [quiet.queryId, around]
    exact find?_set_self _ _ _
  have unread : 0 ∉ (mux.withWriting true (count + 1)).finished := by
    show 0 ∉ mux.finished
    rw [quiet.finished]
    exact not_mem_nil
  have still : (mux.withWriting true (count + 1)).messages[0]? =
      some ⟨0, 1, false, 0, .sent⟩ := waiting
  obtain ⟨results, questions⟩ := drive_deliver true still rfl unread found
  intro right
  have wrong := right ⟨count + 1, some false⟩ (by
    rw [results]
    exact mem_concat_self) false rfl
  rw [questions] at wrong
  have asked : (mux.questions ++ [true])[count + 1]? = some true :=
    quiet.questions ▸ snoc_self _ _
  exact absurd (asked.symm.trans wrong) (by decide)

/-- After `2 ^ 16` queries that were given up, a late answer reaches another query. -/
theorem lateAnswer_misdelivered : ¬AnsweredRight (run true (lateAnswer (2 ^ 16 - 1))) :=
  misdelivered_of_around rfl

end SingBox.DnsMux
