/-
This file proves that the callback of every query is called once. A query that was
dispatched is at every moment at exactly one place: a running exchange has it, it
is pending under one identifier, or its callback was called. A step moves it from
one place to the next, so the argument counts places. The same counting says how
often a registration is completed, and how often it gives its connection back.

The one place where the counting could go wrong is an exchange whose write failed:
it takes back whatever is pending under its identifier. The results are therefore
about runs in which no identifier is handed out again while such an exchange is
still at work; the identifiers come around after `2 ^ 16` registrations.
-/

import SingBox.DnsMuxAnswers

namespace SingBox.DnsMux

open List Log Table

open Log (one one_none one_some)
open Completion Call Mux

variable {Question : Type}

/-! ### What is counted -/

/-- The exchange has the query: nothing else will call the callback. -/
def Phase.holds : Phase → Bool
  | .acquire | .register _ _ | .exchangeSingle | .invalidate _ (some _) => true
  | _ => false

/-- The attempt whose write is not over. -/
def Phase.writing : Phase → Option Attempt
  | .write attempt | .take attempt => some attempt
  | _ => none

def Call.holds (query : Nat) (call : Call) : Bool := call.query = query && call.phase.holds

/-- The exchange has not finished the write of the registration. -/
def Call.writes (registration : Nat) (call : Call) : Bool :=
  call.phase.writing.any fun attempt => attempt.registration = registration

/-- The exchange is about to invalidate the connection of the registration. -/
def Call.owes (registration : Nat) (call : Call) : Bool :=
  match call.phase with
  | .invalidate attempt _ => attempt.registration = registration
  | _ => false

def Call.hand (call : Call) : Option Nat := if call.phase.holds then some call.query else none

/-- The registration whose write the exchange has not finished. -/
def Call.underway (call : Call) : Option Nat := call.phase.writing.map (·.registration)

/-- The registration whose connection the exchange is about to invalidate. -/
def Call.debt (call : Call) : Option Nat :=
  match call.phase with
  | .invalidate attempt _ => some attempt.registration
  | _ => none

/-- Any way to complete a registration. -/
def Completion.any : Completion → Bool := fun _ => true

/-- The exchange took its query back when its write failed. -/
def Completion.ofWrite : Completion → Bool
  | .writeFailed => true
  | _ => false

/-- A completion that comes with giving back the connection. -/
def Completion.givesBack : Completion → Bool
  | .connDone => false
  | _ => true

namespace Mux

variable (mux : Mux Question)

/-- The number of running exchanges that have a query. -/
def held (query : Nat) : Nat := mux.calls.countP (Call.holds query)

/-- The number of identifiers under which a query is pending. -/
def pending (query : Nat) : Nat := mux.queries.count fun entry => entry.2.query = query

/-- How often the callback of a query was called. -/
def called (query : Nat) : Nat := mux.results.countP fun result => result.query = query

/-- The number of identifiers under which a registration is pending. -/
def listed (registration : Nat) : Nat :=
  mux.queries.count fun entry => entry.2.registration = registration

/-- How often a registration was completed in one of some ways. -/
def completedBy (ways : Completion → Bool) (registration : Nat) : Nat :=
  mux.completions.countP fun entry => entry.1 = registration && ways entry.2

/-- The number of exchanges that have not finished the write of a registration. -/
def writing (registration : Nat) : Nat := mux.calls.countP (Call.writes registration)

/-- The number of exchanges that are about to invalidate the connection of a registration. -/
def owing (registration : Nat) : Nat := mux.calls.countP (Call.owes registration)

/-- How often a write of a registration failed after its completion. -/
def failures (registration : Nat) : Nat := mux.lateFailures.count registration

/-- How often a registration gave its connection back. -/
def released (registration : Nat) : Nat := mux.releases.count registration

end Mux

/-- Every query is at one place, every registration is pending or was completed, its write ends
once at most, and it gives its connection back once for every completion but one by the loss of
the connection, and once for a write that failed after its completion. A step in the middle may
have a query in its hand, and a connection to give back. -/
structure Balanced (mux : Mux Question) (hand due : Option Nat) : Prop where
  queries : ∀ query, mux.held query + mux.pending query + mux.called query + one hand query =
    if query < mux.questions.length then 1 else 0
  registrations : ∀ registration,
    mux.listed registration + mux.completedBy Completion.any registration =
      if registration < mux.registered.length then 1 else 0
  writes : ∀ registration, mux.writing registration + mux.failures registration +
    mux.completedBy Completion.ofWrite registration ≤
      if registration < mux.registered.length then 1 else 0
  releases : ∀ registration,
    mux.released registration + mux.owing registration + one due registration =
      mux.completedBy Completion.givesBack registration + mux.failures registration

theorem balanced_new : Balanced (newQueryMultiplexer : Mux Question) none none where
  queries := fun _ => rfl
  registrations := fun _ => rfl
  writes := fun _ => Nat.zero_le _
  releases := fun _ => rfl

/-- What is pending under the identifier of a write that is not over is its own query. -/
structure Owned (mux : Mux Question) : Prop where
  pending : ∀ queryId pending, mux.queries.find? queryId = some pending →
    mux.registered[pending.registration]? = some pending.query
  writing : ∀ call ∈ mux.calls, ∀ attempt, call.phase.writing = some attempt →
    mux.registered[attempt.registration]? = some call.query ∧
      ∀ pending, mux.queries.find? attempt.queryId = some pending →
        pending.registration = attempt.registration

/-! ### What the parts of a step do to the counts -/

section Counts

variable (mux : Mux Question)

theorem called_callback (query other : Nat) (response : Option Question) :
    (mux.callback query response).called other = mux.called other + one (some query) other := by
  show (mux.results ++ [(⟨query, response⟩ : Result Question)]).countP _ = _
  rw [countP_append, countP_singleton, one_some]
  simp only [decide_eq_true_eq]
  rfl

theorem released_release (registration other : Nat) :
    (mux.release registration).released other =
      mux.released other + one (some registration) other := by
  show (mux.releases ++ [registration]).count other = _
  rw [count_append, count_singleton, one_some]
  simp only [beq_iff_eq]
  rfl

theorem failures_failedLate (registration other : Nat) :
    (mux.failedLate registration).failures other =
      mux.failures other + one (some registration) other := by
  show (mux.lateFailures ++ [registration]).count other = _
  rw [count_append, count_singleton, one_some]
  simp only [beq_iff_eq]
  rfl

theorem completedBy_completed (registration other : Nat) (completion : Completion)
    (ways : Completion → Bool) :
    (mux.completed registration completion).completedBy ways other =
      mux.completedBy ways other + if ways completion then one (some registration) other else 0 := by
  show (mux.completions ++ [(registration, completion)]).countP _ = _
  rw [countP_append, countP_singleton, one_some]
  cases ways completion <;> simp [completedBy]

section Dispatch

variable (query context : Nat) (retryReadError single : Bool)

theorem held_dispatch (other : Nat) :
    (mux.dispatch query context retryReadError single).held other =
      mux.held other + one (some query) other := by
  show (mux.calls ++ [_]).countP _ = _
  rw [countP_append, countP_singleton, one_some]
  cases single <;> simp [holds, Phase.holds, held]

theorem writing_dispatch (other : Nat) :
    (mux.dispatch query context retryReadError single).writing other = mux.writing other := by
  show (mux.calls ++ [_]).countP _ = _
  rw [countP_append, countP_singleton]
  cases single <;> rfl

theorem owing_dispatch (other : Nat) :
    (mux.dispatch query context retryReadError single).owing other = mux.owing other := by
  show (mux.calls ++ [_]).countP _ = _
  rw [countP_append, countP_singleton]
  cases single <;> rfl

end Dispatch

variable {mux} {call : Nat} {current : Call}

section

variable (running : mux.calls[call]? = some current)

include running

theorem held_setCall (next : Call) (query : Nat) :
    (mux.setCall call next).held query + one current.hand query =
      mux.held query + one next.hand query := by
  have counts (call : Call) : one call.hand query = if call.holds query then 1 else 0 := by
    cases holds : call.phase.holds <;> simp [Call.hand, Call.holds, holds, one]
  rw [counts, counts]
  exact countP_set _ running next

theorem writing_setCall (next : Call) (registration : Nat) :
    (mux.setCall call next).writing registration + one current.underway registration =
      mux.writing registration + one next.underway registration := by
  have counts (call : Call) :
      one call.underway registration = if call.writes registration then 1 else 0 := by
    cases writes : call.phase.writing <;> simp [Call.underway, Call.writes, writes, one]
  rw [counts, counts]
  exact countP_set _ running next

theorem owing_setCall (next : Call) (registration : Nat) :
    (mux.setCall call next).owing registration + one current.debt registration =
      mux.owing registration + one next.debt registration := by
  have counts (call : Call) :
      one call.debt registration = if call.owes registration then 1 else 0 := by
    unfold debt owes
    split <;> simp [one]
  rw [counts, counts]
  exact countP_set _ running next

end

variable {queryId : UInt16} {taken : PendingQuery}

theorem pending_take (found : mux.queries.find? queryId = some taken) (query : Nat) :
    mux.pending query = (mux.take queryId).pending query + one (some taken.query) query := by
  rw [one_some]
  refine (count_erase _ found).trans ?_
  simp only [decide_eq_true_eq]
  rfl

theorem listed_take (found : mux.queries.find? queryId = some taken) (registration : Nat) :
    mux.listed registration =
      (mux.take queryId).listed registration + one (some taken.registration) registration := by
  rw [one_some]
  refine (count_erase _ found).trans ?_
  simp only [decide_eq_true_eq]
  rfl

end Counts

variable {call query : Nat} {current : Call} {queryId : UInt16} {next : Mux Question}

namespace Balanced

variable {mux : Mux Question} {hand due : Option Nat}

theorem endConn (balanced : Balanced mux hand due) (conn : Nat) (err : ConnErr) :
    Balanced (mux.endConn conn err) hand due := by
  unfold Mux.endConn
  split
  · exact { balanced with }
  · exact balanced

theorem endContext (balanced : Balanced mux hand due) (context : Nat) (err : ContextErr) :
    Balanced (mux.endContext context err) hand due := by
  unfold Mux.endContext
  split
  · exact { balanced with }
  · exact balanced

variable {registration : Nat} {attempt : Attempt}

theorem release (balanced : Balanced mux hand (some registration)) :
    Balanced (mux.release registration) hand none := by
  refine { balanced with releases := fun other => ?_ }
  have before := balanced.releases other
  show (mux.release registration).released other + mux.owing other + 0 =
    mux.completedBy givesBack other + mux.failures other
  rw [released_release]
  omega

theorem invalidate (balanced : Balanced mux hand (some registration)) (conn : Nat) (err : ConnErr) :
    Balanced (mux.invalidate registration conn err) hand none :=
  balanced.release.endConn conn err

theorem callback (balanced : Balanced mux (some query) due) (response : Option Question) :
    Balanced (mux.callback query response) none due := by
  refine { balanced with queries := fun other => ?_ }
  have before := balanced.queries other
  show mux.held other + mux.pending other + (mux.callback query response).called other + 0 =
    if other < mux.questions.length then 1 else 0
  rw [called_callback]
  omega

/-- A new query comes into the hand. -/
theorem ask (balanced : Balanced mux none due) (question : Question) :
    Balanced (mux.ask question) (some mux.questions.length) due := by
  refine { balanced with queries := fun other => ?_ }
  have before := balanced.queries other
  show mux.held other + mux.pending other + mux.called other + one _ other =
    if other < (mux.questions ++ [question]).length then 1 else 0
  rw [one_some, length_append, length_singleton]
  rw [one_none] at before
  split_ifs at before ⊢ <;> omega

theorem dispatch (balanced : Balanced mux (some query) due) (context : Nat)
    (retryReadError single : Bool) :
    Balanced (mux.dispatch query context retryReadError single) none due := by
  refine ⟨fun other => ?_, balanced.registrations, fun other => ?_, fun other => ?_⟩
  · have before := balanced.queries other
    rw [held_dispatch]
    show mux.held other + one (some query) other + mux.pending other + mux.called other + 0 =
      if other < mux.questions.length then 1 else 0
    omega
  · rw [writing_dispatch]
    exact balanced.writes other
  · rw [owing_dispatch]
    exact balanced.releases other

/-- A pending query that is completed, but not by its own exchange, comes into the hand. -/
theorem completed (balanced : Balanced mux none none) {pending : PendingQuery}
    (found : mux.queries.find? queryId = some pending) (completion : Completion)
    (other : completion ≠ .writeFailed) :
    Balanced ((mux.take queryId).completed pending.registration completion)
      (some pending.query) (if completion.givesBack then some pending.registration else none) := by
  refine ⟨fun query => ?_, fun registration => ?_, fun registration => ?_, fun registration => ?_⟩
  · have before := balanced.queries query
    have moved := pending_take found query
    show mux.held query + (mux.take queryId).pending query + mux.called query + _ =
      if query < mux.questions.length then 1 else 0
    rw [one_none] at before
    omega
  · have before := balanced.registrations registration
    have moved := listed_take found registration
    rw [completedBy_completed]
    show (mux.take queryId).listed registration + (mux.completedBy any registration +
      one (some pending.registration) registration) =
        if registration < mux.registered.length then 1 else 0
    omega
  · rw [completedBy_completed,
      if_neg (by cases completion <;> first | exact absurd rfl other | decide)]
    exact balanced.writes registration
  · have before := balanced.releases registration
    rw [completedBy_completed]
    show mux.released registration + mux.owing registration + _ =
      mux.completedBy givesBack registration + _ + mux.failures registration
    rw [one_none] at before
    cases completion.givesBack
    · rw [if_neg (by decide), if_neg (by decide), one_none]
      omega
    · rw [if_pos rfl, if_pos rfl]
      omega

/-! ### Registering, and the end of a write -/

section

variable (balanced : Balanced mux none none) (running : mux.calls[call]? = some current)

include balanced running

/-- A running exchange goes on, and may pass its query or the connection it has to give back to
the rest of the step. -/
theorem setCall (next : Call)
    (holds : ∀ query, one current.hand query = one next.hand query + one hand query)
    (writes : ∀ registration, one next.underway registration ≤ one current.underway registration)
    (owes : ∀ registration, one current.debt registration =
      one next.debt registration + one due registration) :
    Balanced (mux.setCall call next) hand due := by
  refine ⟨fun query => ?_, balanced.registrations, fun registration => ?_, fun registration => ?_⟩
  · have before := balanced.queries query
    have moved := held_setCall running next query
    have passed := holds query
    show (mux.setCall call next).held query + mux.pending query + mux.called query +
      one hand query = if query < mux.questions.length then 1 else 0
    rw [one_none] at before
    omega
  · have before := balanced.writes registration
    have moved := writing_setCall running next registration
    have fewer := writes registration
    show (mux.setCall call next).writing registration + mux.failures registration +
      mux.completedBy ofWrite registration ≤
        if registration < mux.registered.length then 1 else 0
    omega
  · have before := balanced.releases registration
    have moved := owing_setCall running next registration
    have passed := owes registration
    show mux.released registration + (mux.setCall call next).owing registration +
      one due registration = mux.completedBy givesBack registration + mux.failures registration
    rw [one_none] at before
    omega

theorem addPending (retryReadError : Bool) {conn : Nat} {created : Bool}
    (phase : current.phase = .register conn created) (free : mux.queries.find? queryId = none) :
    Balanced (mux.addPending retryReadError call current conn created queryId) none none := by
  have holds : current.hand = some current.query := by
    rw [hand, phase]
    rfl
  have idle : current.underway = none := by
    rw [underway, phase]
    rfl
  have paid : current.debt = none := by rw [debt, phase]
  have next : ∃ next : Call, next.phase = .write ⟨conn, created, queryId, mux.registered.length⟩ ∧
      (mux.addPending retryReadError call current conn created queryId).calls =
        (mux.setCall call next).calls := ⟨_, rfl, rfl⟩
  obtain ⟨next, writes, calls⟩ := next
  refine ⟨fun query => ?_, fun registration => ?_, fun registration => ?_, fun registration => ?_⟩
  · have before := balanced.queries query
    have moved := held_setCall running next query
    have entered : (mux.addPending retryReadError call current conn created queryId).pending query =
        mux.pending query + _ := count_set _ free
    rw [holds, show next.hand = none by rw [hand, writes]; rfl, one_some, one_none] at moved
    simp only [decide_eq_true_eq] at entered
    rw [entered, held, calls]
    show (mux.setCall call next).held query + _ + mux.called query + one none query =
      if query < mux.questions.length then 1 else 0
    omega
  · have before := balanced.registrations registration
    have entered : (mux.addPending retryReadError call current conn created queryId).listed
        registration = mux.listed registration + _ := count_set _ free
    simp only [decide_eq_true_eq] at entered
    rw [entered]
    show _ + _ + mux.completedBy any registration =
      if registration < (mux.registered ++ [current.query]).length then 1 else 0
    rw [length_append, length_singleton]
    split_ifs at before ⊢ <;> omega
  · have before := balanced.writes registration
    have moved := writing_setCall running next registration
    rw [idle, one_none, show next.underway = some mux.registered.length by
      rw [underway, writes]; rfl, one_some] at moved
    rw [writing, calls]
    show (mux.setCall call next).writing registration + mux.failures registration +
      mux.completedBy ofWrite registration ≤
        if registration < (mux.registered ++ [current.query]).length then 1 else 0
    rw [length_append, length_singleton]
    split_ifs at before moved ⊢ <;> omega
  · have before := balanced.releases registration
    have moved := owing_setCall running next registration
    rw [paid, show next.debt = none by rw [debt, writes]] at moved
    rw [owing, calls]
    show mux.released registration + (mux.setCall call next).owing registration + one none _ =
      mux.completedBy givesBack registration + mux.failures registration
    omega

/-- The exchange whose write failed takes its query back, or finds it completed. -/
theorem takeFailed (owned : Owned mux) (phase : current.phase = .take attempt) :
    Balanced (mux.takeFailed call current attempt) none none := by
  have free : current.hand = none := by
    rw [hand, phase]
    rfl
  have writes : current.underway = some attempt.registration := by
    rw [underway, phase]
    rfl
  have paid : current.debt = none := by rw [debt, phase]
  -- the connection is given back later, whether the query was taken or not
  have owes (registration : Nat) (taken : Option PendingQuery) :
      (mux.setCall call { current with phase := .invalidate attempt taken }).owing registration =
        mux.owing registration + one (some attempt.registration) registration := by
    have moved := owing_setCall running { current with phase := .invalidate attempt taken }
      registration
    rwa [paid] at moved
  have ends (registration : Nat) (taken : Option PendingQuery) :
      (mux.setCall call { current with phase := .invalidate attempt taken }).writing registration +
        one (some attempt.registration) registration = mux.writing registration := by
    have moved := writing_setCall running { current with phase := .invalidate attempt taken }
      registration
    rwa [writes] at moved
  unfold Mux.takeFailed
  split
  next absent =>
    refine ⟨fun query => ?_, balanced.registrations, fun registration => ?_, fun registration => ?_⟩
    · have moved := held_setCall running { current with phase := .invalidate attempt none } query
      rw [free] at moved
      have before := balanced.queries query
      rwa [← Nat.add_right_cancel moved] at before
    · have before := balanced.writes registration
      have moved := ends registration none
      have noted := failures_failedLate mux attempt.registration registration
      show (mux.setCall call _).writing registration +
        (mux.failedLate attempt.registration).failures registration +
        mux.completedBy ofWrite registration ≤
          if registration < mux.registered.length then 1 else 0
      omega
    · have before := balanced.releases registration
      have moved := owes registration none
      have noted := failures_failedLate mux attempt.registration registration
      show mux.released registration + (mux.setCall call _).owing registration + one none _ =
        mux.completedBy givesBack registration +
          (mux.failedLate attempt.registration).failures registration
      omega
  next taken found =>
    have member := mem_of_getElem? running
    obtain ⟨registered, owner⟩ := owned.writing current member attempt (by rw [phase]; rfl)
    have own : taken.registration = attempt.registration := owner taken found
    have same : taken.query = current.query := by
      have listed := owned.pending _ taken found
      rw [own, registered] at listed
      exact (Option.some.inj listed).symm
    refine ⟨fun query => ?_, fun registration => ?_, fun registration => ?_, fun registration => ?_⟩
    · have before := balanced.queries query
      have moved : _ = mux.held query + one (some current.query) query := held_setCall running
        { current with phase := .invalidate attempt (some taken) } query
      have left := pending_take found query
      rw [free, one_none] at moved
      rw [same] at left
      show (mux.setCall call _).held query + (mux.take attempt.queryId).pending query +
        mux.called query + one none query = if query < mux.questions.length then 1 else 0
      omega
    · have before := balanced.registrations registration
      have left := listed_take found registration
      show (mux.take attempt.queryId).listed registration +
        (mux.completed taken.registration .writeFailed).completedBy any registration =
          if registration < mux.registered.length then 1 else 0
      rw [completedBy_completed, if_pos (by decide)]
      omega
    · have before := balanced.writes registration
      have moved := ends registration (some taken)
      show (mux.setCall call _).writing registration + mux.failures registration +
        (mux.completed taken.registration .writeFailed).completedBy ofWrite
          registration ≤ if registration < mux.registered.length then 1 else 0
      rw [completedBy_completed, if_pos (by decide), own]
      omega
    · have before := balanced.releases registration
      have moved := owes registration (some taken)
      show mux.released registration + (mux.setCall call _).owing registration + one none _ =
        (mux.completed taken.registration .writeFailed).completedBy givesBack
          registration + mux.failures registration
      rw [completedBy_completed, if_pos (by decide), own]
      omega

/-- An exchange that has its query returns and passes the query on. -/
theorem leave (holds : current.phase.holds = true) (paid : current.debt = none) :
    Balanced (mux.setCall call { current with phase := .returned }) (some current.query) none := by
  refine balanced.setCall running _ (fun query => ?_) (fun registration => Nat.zero_le _)
    fun registration => ?_
  · rw [hand, holds]
    exact (Nat.zero_add _).symm
  · rw [paid]
    rfl

theorem register (retryReadError : Bool) {conn : Nat} {created : Bool}
    (phase : current.phase = .register conn created) :
    Balanced (mux.register retryReadError call current conn created) none none := by
  unfold Mux.register
  split
  next found =>
    exact balanced.addPending running retryReadError phase (nextId_free _ _ _ _ found)
  · have moved : Balanced (mux.setId mux.search.1) none none :=
      { balanced with }
    exact (moved.leave running (by rw [phase]; rfl) (by rw [debt, phase])).callback none

theorem write (phase : current.phase = .write attempt) (reached failed : Bool) :
    Balanced (mux.write call current attempt reached failed) none none := by
  unfold Mux.write
  split
  · exact balanced
  next question asked =>
    have sent : Balanced (if reached || !failed then mux.send question attempt else mux)
        none none := by
      split
      · exact { balanced with }
      · exact balanced
    have still : (if reached || !failed then mux.send question attempt else mux).calls[call]? =
        some current := by
      split <;> exact running
    refine sent.setCall still _ (fun query => ?_) (fun registration => ?_) fun registration => ?_
    · cases failed <;> simp [hand, phase, Phase.holds, one]
    · cases failed <;> simp [underway, phase, Phase.writing, one]
    · cases failed <;> simp [debt, phase, one]

theorem giveUp {pending : Option PendingQuery}
    (phase : current.phase = .invalidate attempt pending) :
    Balanced (mux.giveUp call current attempt pending) none none := by
  have owes : ∀ registration, one current.debt registration =
      0 + one (some attempt.registration) registration := fun registration => by
    rw [debt, phase]
    exact (Nat.zero_add _).symm
  unfold Mux.giveUp
  cases pending with
  | none =>
    refine invalidate ?_ _ _
    refine balanced.setCall running _ (fun query => ?_) (fun _ => Nat.zero_le _) owes
    rw [hand, phase]
    rfl
  | some pending =>
    have holds : current.hand = some current.query := by
      rw [hand, phase]
      rfl
    dsimp only
    split
    · refine invalidate ?_ _ _
      refine balanced.setCall running _ (fun query => ?_) (fun _ => Nat.zero_le _) owes
      rw [holds]
      rfl
    · refine callback (invalidate ?_ _ _) none
      refine balanced.setCall running _ (fun query => ?_) (fun _ => Nat.zero_le _) owes
      rw [holds]
      exact (Nat.zero_add _).symm

end

/-! ### Completing a query -/

section

variable (balanced : Balanced mux none none)

include balanced

theorem complete (queryId : UInt16) (question : Question) :
    Balanced (mux.complete queryId question) none none := by
  unfold Mux.complete
  split
  · exact balanced
  next pending found =>
    exact (balanced.completed found .response (by decide)).release.callback _

theorem completeContextDone (queryId : UInt16) (context : Nat) :
    Balanced (mux.completeContextDone queryId context) none none := by
  unfold Mux.completeContextDone
  split
  · exact balanced
  next pending found =>
    have taken := balanced.completed found .contextDone (by decide)
    refine callback ?_ none
    split
    · exact taken.invalidate _ _
    · exact taken.release

theorem completeConnDone (queryId : UInt16) (conn : Nat) (single : Bool) :
    Balanced (mux.completeConnDone queryId conn single) none none := by
  unfold Mux.completeConnDone
  split
  · exact balanced
  next pending found =>
    have taken := balanced.completed found .connDone (by decide)
    split
    · exact taken.dispatch _ _ _
    · exact taken.callback none

theorem perform (task : Task) (single : Bool) : Balanced (mux.perform task single) none none := by
  cases task with
  | contextDone queryId context => exact balanced.completeContextDone queryId context
  | connDone queryId conn => exact balanced.completeConnDone queryId conn single

end

end Balanced

/-! ### Whose identifier it is -/

/-- Where the step registers a query, no write under the identifier that it hands out is still
to end. -/
def WritesOver (mux : Mux Question) : Event Question → Prop
  | .exchange _ .register => ∀ call ∈ mux.calls, ∀ attempt ∈ call.phase.writing,
    attempt.queryId ≠ mux.search.1
  | _ => True

instance (mux : Mux Question) (event : Event Question) : Decidable (WritesOver mux event) := by
  unfold WritesOver
  split <;> infer_instance

theorem owned_new : Owned (newQueryMultiplexer : Mux Question) := ⟨nofun, nofun⟩

namespace Owned

variable {mux : Mux Question}

section

variable (owned : Owned mux)

include owned

theorem endConn (conn : Nat) (err : ConnErr) : Owned (mux.endConn conn err) := by
  unfold Mux.endConn
  split
  · exact { owned with }
  · exact owned

theorem endContext (context : Nat) (err : ContextErr) : Owned (mux.endContext context err) := by
  unfold Mux.endContext
  split
  · exact { owned with }
  · exact owned

theorem setCall {next : Call} (running : mux.calls[call]? = some current)
    (query : next.query = current.query)
    (writing : ∀ attempt, next.phase.writing = some attempt →
      current.phase.writing = some attempt) : Owned (mux.setCall call next) := by
  refine ⟨owned.pending, fun other member attempt writes => ?_⟩
  rcases mem_or_eq_of_mem_set member with before | rfl
  · exact owned.writing other before attempt writes
  · rw [query]
    exact owned.writing current (mem_of_getElem? running) attempt (writing attempt writes)

theorem leave (call : Nat) (next : Call) (idle : next.phase.writing = none) :
    Owned (mux.setCall call next) := by
  refine ⟨owned.pending, fun other member attempt writes => ?_⟩
  rcases mem_or_eq_of_mem_set member with before | rfl
  · exact owned.writing other before attempt writes
  · exact nomatch idle.symm.trans writes

theorem dispatch (query context : Nat) (retryReadError single : Bool) :
    Owned (mux.dispatch query context retryReadError single) := by
  refine ⟨owned.pending, fun call member attempt writes => ?_⟩
  rcases mem_snoc member with before | rfl
  · exact owned.writing call before attempt writes
  · cases single <;> exact nomatch writes

theorem take (queryId : UInt16) : Owned (mux.take queryId) := by
  refine ⟨fun other pending left => ?_, fun call member attempt writes => ?_⟩
  · exact owned.pending other pending (find?_erase_some left).2
  · obtain ⟨listed, owner⟩ := owned.writing call member attempt writes
    exact ⟨listed, fun pending left => owner pending (find?_erase_some left).2⟩

theorem addPending (retryReadError : Bool) (call : Nat) (current : Call) (conn : Nat)
    (created : Bool) (queryId : UInt16)
    (finished : ∀ call ∈ mux.calls, ∀ attempt, call.phase.writing = some attempt →
      attempt.queryId ≠ queryId) :
    Owned (mux.addPending retryReadError call current conn created queryId) := by
  refine ⟨fun other pending listed => ?_, fun other member attempt writes => ?_⟩
  · rcases find?_set_some listed with ⟨-, rfl⟩ | ⟨-, before⟩
    · exact snoc_self _ _
    · exact snoc_of_some (owned.pending other pending before)
  · rcases mem_or_eq_of_mem_set member with before | rfl
    · obtain ⟨registered, owner⟩ := owned.writing other before attempt writes
      refine ⟨snoc_of_some registered, fun pending listed => owner pending ?_⟩
      exact find?_set_ne (finished other before attempt writes) ▸ listed
    · cases writes
      refine ⟨snoc_self _ _, fun pending listed => ?_⟩
      rcases find?_set_some listed with ⟨-, rfl⟩ | ⟨ne, -⟩
      · rfl
      · exact absurd rfl ne

end

end Owned

/-! ### Nobody is forgotten -/

/-- For every pending query whose context or whose connection has ended, the function that
completes it was started. One identifier may be left out. -/
def Started (mux : Mux Question) (except : Option UInt16) : Prop :=
  ∀ queryId pending, except ≠ some queryId → mux.queries.find? queryId = some pending →
    (mux.contexts pending.context ≠ none → .contextDone queryId pending.context ∈ mux.tasks) ∧
      (mux.connErrs pending.conn ≠ none → .connDone queryId pending.conn ∈ mux.tasks)

theorem started_new : Started (newQueryMultiplexer : Mux Question) none := nofun

namespace Started

variable {mux : Mux Question} {except : Option UInt16}

theorem endConn (started : Started mux except) (conn : Nat) (err : ConnErr) :
    Started (mux.endConn conn err) except := by
  unfold Mux.endConn
  split
  · intro queryId pending other found
    obtain ⟨context, ended⟩ := started queryId pending other found
    refine ⟨fun done => mem_append_left _ (context done), fun done => ?_⟩
    by_cases same : pending.conn = conn
    · refine mem_append_right _ (mem_map.mpr ⟨(queryId, pending), ?_, by rw [same]⟩)
      exact mem_filter.mpr ⟨find?_eq_some_iff.mp found, decide_eq_true same⟩
    · refine mem_append_left _ (ended ?_)
      exact fun before => done ((Function.update_of_ne same _ _).trans before)
  · exact started

theorem endContext (started : Started mux except) (context : Nat) (err : ContextErr) :
    Started (mux.endContext context err) except := by
  unfold Mux.endContext
  split
  · intro queryId pending other found
    obtain ⟨ended, conn⟩ := started queryId pending other found
    refine ⟨fun done => ?_, fun done => mem_append_left _ (conn done)⟩
    by_cases same : pending.context = context
    · refine mem_append_right _ (mem_map.mpr ⟨(queryId, pending), ?_, by rw [same]⟩)
      exact mem_filter.mpr ⟨find?_eq_some_iff.mp found, decide_eq_true same⟩
    · refine mem_append_left _ (ended ?_)
      exact fun before => done ((Function.update_of_ne same _ _).trans before)
  · exact started

/-- The identifier that was left out may be the one that is taken. -/
theorem take (started : Started mux (some queryId)) : Started (mux.take queryId) none := by
  intro other pending _ left
  obtain ⟨ne, found⟩ := find?_erase_some left
  exact started other pending (fun same => ne (Option.some.inj same).symm) found

theorem weaken (started : Started mux none) (queryId : UInt16) : Started mux (some queryId) :=
  fun other pending _ found => started other pending nofun found

theorem of_absent (started : Started mux (some queryId))
    (absent : mux.queries.find? queryId = none) : Started mux none := by
  intro other pending _ found
  refine started other pending (fun same => ?_) found
  cases same
  exact nomatch absent.symm.trans found

theorem addPending (started : Started mux none) (retryReadError : Bool) (call : Nat)
    (current : Call) (conn : Nat) (created : Bool) (queryId : UInt16) :
    Started (mux.addPending retryReadError call current conn created queryId) none := by
  intro other pending _ listed
  rcases find?_set_some listed with ⟨rfl, rfl⟩ | ⟨-, found⟩
  · refine ⟨fun (done : mux.contexts current.context ≠ none) => ?_,
      fun (done : mux.connErrs conn ≠ none) => ?_⟩
    · refine mem_append_right _ (mem_append_left _ ?_)
      rw [if_neg done]
      exact mem_singleton.mpr rfl
    · refine mem_append_right _ (mem_append_right _ ?_)
      rw [if_neg done]
      exact mem_singleton.mpr rfl
  · obtain ⟨ended, lost⟩ := started other pending nofun found
    exact ⟨fun done => mem_append_left _ (ended done), fun done => mem_append_left _ (lost done)⟩

/-- A function that begins to run is answerable for its own identifier only. -/
theorem start (started : Started mux none) {place : Nat} {task : Task}
    (listed : mux.tasks[place]? = some task) :
    Started (mux.start place) (some task.queryId) := by
  have kept : ∀ other : Task, other.queryId ≠ task.queryId → other ∈ mux.tasks →
      other ∈ mux.tasks.eraseIdx place := fun other ne member => by
    rcases eq_or_mem_eraseIdx listed member with same | left
    · exact absurd (congrArg Task.queryId same) ne
    · exact left
  intro queryId pending other found
  obtain ⟨ended, lost⟩ := started queryId pending nofun found
  have ne : queryId ≠ task.queryId := fun same => other (congrArg some same.symm)
  exact ⟨fun done => kept _ ne (ended done), fun done => kept _ ne (lost done)⟩

end Started

/-! ### The steps -/

/-- Both of the above. -/
structure Kept (mux : Mux Question) (except : Option UInt16) : Prop extends Owned mux where
  started : Started mux except

namespace Kept

variable {mux : Mux Question} {except : Option UInt16}

theorem take (kept : Kept mux (some queryId)) : Kept (mux.take queryId) none :=
  ⟨kept.toOwned.take queryId, kept.started.take⟩

theorem weaken (kept : Kept mux none) (queryId : UInt16) : Kept mux (some queryId) :=
  { kept with started := kept.started.weaken queryId }

section

variable (kept : Kept mux except)

include kept

theorem endConn (conn : Nat) (err : ConnErr) : Kept (mux.endConn conn err) except :=
  ⟨kept.toOwned.endConn conn err, kept.started.endConn conn err⟩

theorem invalidate (registration conn : Nat) (err : ConnErr) :
    Kept (mux.invalidate registration conn err) except :=
  endConn (show Kept (mux.release registration) except from { kept with }) conn err

theorem callback (query : Nat) (response : Option Question) :
    Kept (mux.callback query response) except := { kept with }

theorem leave (call : Nat) (next : Call) (idle : next.phase.writing = none) :
    Kept (mux.setCall call next) except :=
  { kept.toOwned.leave call next idle with started := kept.started }

theorem dispatch (query context : Nat) (retryReadError single : Bool) :
    Kept (mux.dispatch query context retryReadError single) except :=
  { kept.toOwned.dispatch query context retryReadError single with started := kept.started }

end

/-- A function that runs leaves nothing under its identifier. -/
theorem perform {task : Task} (kept : Kept mux (some task.queryId)) (single : Bool) :
    Kept (mux.perform task single) none := by
  cases task with
  | contextDone queryId context =>
    show Kept (mux.completeContextDone queryId context) none
    unfold completeContextDone
    split
    next absent => exact { kept with started := kept.started.of_absent absent }
    next pending found =>
      have taken : Kept ((mux.take queryId).completed pending.registration .contextDone) none :=
        { kept.take with }
      refine callback ?_ _ _
      split
      · exact taken.invalidate _ _ _
      · exact { taken with }
  | connDone queryId conn =>
    show Kept (mux.completeConnDone queryId conn single) none
    unfold completeConnDone
    split
    next absent => exact { kept with started := kept.started.of_absent absent }
    next pending found =>
      have taken : Kept ((mux.take queryId).completed pending.registration .connDone) none :=
        { kept.take with }
      split
      · exact taken.dispatch _ _ _ _
      · exact taken.callback _ _

theorem complete (kept : Kept mux none) (queryId : UInt16) (question : Question) :
    Kept (mux.complete queryId question) none := by
  unfold Mux.complete
  split
  · exact kept
  · exact { (kept.weaken queryId).take with }

end Kept

/-- The counts are right, nobody is forgotten, and no write is over another's query. -/
structure Sound (mux : Mux Question) : Prop extends Balanced mux none none, Kept mux none

namespace Sound

variable {mux : Mux Question} (sound : Sound mux)

include sound

theorem endConn (conn : Nat) (err : ConnErr) : Sound (mux.endConn conn err) :=
  ⟨sound.toBalanced.endConn conn err, sound.toKept.endConn conn err⟩

theorem advance (retryReadError : Bool) (running : mux.calls[call]? = some current)
    (action : Action) (finished : WritesOver mux (.exchange call action)) :
    Sound (mux.advance retryReadError call current action) := by
  fun_cases Mux.advance retryReadError mux call current action with
  | case1 phase | case13 _ phase =>
    exact ⟨(sound.toBalanced.leave running (by rw [phase]; rfl) (by rw [debt, phase])).callback _,
      (sound.toKept.leave _ _ (by rfl)).callback _ _⟩
  | case3 _ _ phase =>
    refine ⟨sound.toBalanced.setCall running _ (fun query => ?_) (fun _ => Nat.zero_le _)
      fun registration => ?_, sound.toKept.leave _ _ (by rfl)⟩
    · rw [hand, phase]
      rfl
    · rw [debt, phase]
      rfl
  | case5 _ _ phase =>
    refine ⟨sound.toBalanced.register running retryReadError phase, ?_⟩
    unfold register
    split
    · exact ⟨sound.toOwned.addPending _ _ _ _ _ _ finished, sound.started.addPending _ _ _ _ _ _⟩
    · have moved : Kept (mux.setId mux.search.1) none := { sound.toKept with }
      exact (moved.leave _ _ (by rfl)).callback _ _
  | case7 reached failed attempt phase =>
    refine ⟨sound.toBalanced.write running phase reached failed, ?_⟩
    unfold write
    split
    · exact sound.toKept
    next question asked =>
      have sent : Kept (if reached || !failed then mux.send question attempt else mux) none := by
        split
        · exact { sound.toKept with }
        · exact sound.toKept
      have still : (if reached || !failed then mux.send question attempt else mux).calls[call]? =
          some current := by
        split <;> exact running
      refine ⟨sent.toOwned.setCall still rfl fun other writes => ?_, sent.started⟩
      rw [phase]
      cases failed with
      | false => cases writes
      | true => exact writes
  | case9 attempt phase =>
    refine ⟨sound.toBalanced.takeFailed running sound.toOwned phase, ?_⟩
    unfold takeFailed
    split
    · have noted : Kept (mux.failedLate attempt.registration) none := { sound.toKept with }
      exact noted.leave _ _ (by rfl)
    next pending found =>
      have taken : Kept ((mux.take attempt.queryId).completed pending.registration
          .writeFailed) none := { (sound.toKept.weaken attempt.queryId).take with }
      exact taken.leave _ _ (by rfl)
  | case11 attempt pending phase =>
    refine ⟨sound.toBalanced.giveUp running phase, ?_⟩
    unfold giveUp
    cases pending with
    | none => exact (sound.toKept.leave _ _ (by rfl)).invalidate _ _ _
    | some pending =>
      dsimp only
      split
      · exact (sound.toKept.leave _ _ (by rfl)).invalidate _ _ _
      · exact ((sound.toKept.leave _ _ (by rfl)).invalidate _ _ _).callback _ _
  | _ => exact sound

theorem step (retryReadError : Bool) (event : Event Question) (finished : WritesOver mux event) :
    Sound (mux.step retryReadError event) := by
  fun_cases Mux.step retryReadError mux event with
  | case1 question =>
    have asked : Kept (mux.ask question) none := { sound.toKept with }
    exact ⟨(sound.toBalanced.ask question).dispatch _ _ _, asked.dispatch _ _ _ _⟩
  | case3 _ action _ running => exact sound.advance retryReadError running action finished
  | case4 context err =>
    exact ⟨sound.toBalanced.endContext context err, sound.toOwned.endContext context err,
      sound.started.endContext context err⟩
  | case5 conn => exact sound.endConn conn .other
  | case6 conn => exact { sound.endConn conn _ with }
  | case7 | case9 => exact { sound with }
  | case12 place message =>
    have marked : Sound (mux.setMessage place { message with stage := .completed }) :=
      { sound with }
    exact ⟨marked.toBalanced.complete _ _, marked.toKept.complete _ _⟩
  | case15 place single task listed =>
    have balanced : Balanced (mux.start place) none none := { sound.toBalanced with }
    have begun : Kept (mux.start place) (some task.queryId) :=
      { sound.toKept with started := sound.started.start listed }
    exact ⟨balanced.perform task single, begun.perform single⟩
  | _ => exact sound

end Sound

/-! ### Every run -/

/-- A step is under way that will see to the query: an exchange has it, or a function was
started that will complete the registration under which it is pending. -/
def Mux.UnderWay (mux : Mux Question) (query : Nat) : Prop :=
  (∃ call ∈ mux.calls, call.holds query) ∨
    ∃ queryId pending, mux.queries.find? queryId = some pending ∧ pending.query = query ∧
      ∃ task ∈ mux.tasks, task.queryId = queryId

/-- The query is pending, and neither its context nor its connection has ended. -/
def Mux.Waits (mux : Mux Question) (query : Nat) : Prop :=
  ∃ queryId pending, mux.queries.find? queryId = some pending ∧ pending.query = query ∧
    mux.contexts pending.context = none ∧ mux.connErrs pending.conn = none

/-- A query whose callback was not called is under way or waits. -/
theorem underWay_or_waits {mux : Mux Question} (balanced : Balanced mux none none)
    (started : Started mux none) (asked : query < mux.questions.length)
    (uncalled : mux.called query = 0) : mux.UnderWay query ∨ mux.Waits query := by
  have place := balanced.queries query
  rw [uncalled, one_none, if_pos asked] at place
  rcases Nat.eq_zero_or_pos (mux.held query) with free | held
  · have pending : 0 < mux.pending query := by omega
    obtain ⟨⟨queryId, entry⟩, member, same⟩ := countP_pos_iff.mp pending
    have found := find?_eq_some_iff.mpr member
    have own : entry.query = query := of_decide_eq_true same
    obtain ⟨ended, lost⟩ := started queryId entry nofun found
    by_cases context : mux.contexts entry.context = none
    · by_cases conn : mux.connErrs entry.conn = none
      · exact .inr ⟨queryId, entry, found, own, context, conn⟩
      · exact .inl (.inr ⟨queryId, entry, found, own, _, lost conn, rfl⟩)
    · exact .inl (.inr ⟨queryId, entry, found, own, _, ended context, rfl⟩)
  · obtain ⟨call, member, holds⟩ := countP_pos_iff.mp held
    exact .inl (.inl ⟨call, member, holds⟩)

/-- Along every run that hands out no identifier while an earlier write under it is still to
end: the callback of a query is called once, unless a step is under way that will see to the
query or nothing has happened to it yet; a registration is completed once at most, and gives its
connection back once for every completion but one by the loss of the connection, and once more
when its write failed after the completion. -/
theorem completes_once (retryReadError : Bool) (events : List (Event Question))
    (finished : Machine.Meets (Mux.step retryReadError) WritesOver newQueryMultiplexer events) :
    (∀ query, (run retryReadError events).called query ≤ 1) ∧
      (∀ query < (run retryReadError events).questions.length,
        (run retryReadError events).called query = 1 ∨
          (run retryReadError events).UnderWay query ∨
          (run retryReadError events).Waits query) ∧
      ∀ registration,
        (run retryReadError events).completedBy Completion.any registration ≤ 1 ∧
          (run retryReadError events).released registration +
              (run retryReadError events).owing registration =
            (run retryReadError events).completedBy Completion.givesBack registration +
              (run retryReadError events).failures registration ∧
          (run retryReadError events).failures registration +
            (run retryReadError events).completedBy Completion.ofWrite registration ≤ 1 := by
  obtain ⟨balanced, -, started⟩ := Machine.invariant_drive Sound
    ⟨balanced_new, owned_new, started_new⟩
    (fun _ event sound met => sound.step retryReadError event met) finished
  change Balanced (run retryReadError events) none none at balanced
  change Started (run retryReadError events) none at started
  generalize run retryReadError events = mux at balanced started ⊢
  have once : ∀ query, mux.called query ≤ 1 := fun query => by
    have place := balanced.queries query
    split_ifs at place <;> omega
  refine ⟨once, fun query asked => ?_, fun registration => ⟨?_, ?_, ?_⟩⟩
  · rcases Nat.eq_zero_or_pos (mux.called query) with uncalled | called
    · exact .inr (underWay_or_waits balanced started asked uncalled)
    · exact .inl (Nat.le_antisymm (once query) called)
  · have place := balanced.registrations registration
    split_ifs at place <;> omega
  · exact balanced.releases registration
  · have place := balanced.writes registration
    split_ifs at place <;> omega

/-- A query that loses its connection, is tried again and is answered. -/
def retried : List (Event Nat) :=
  [.exchangeAsync 5 0 false, .exchange 0 (.acquired 0 false), .exchange 0 .register,
    .exchange 0 (.write true false), .readFailed 0, .perform 0 false,
    .exchange 1 (.acquired 1 true), .exchange 1 .register, .exchange 1 (.write true false),
    .read 1, .deliver 1]

/-- Both attempts are completed, the callback is called for the second one only, and that one's
connection is given back. -/
theorem completes_once_retried :
    (run true retried).called 0 = 1 ∧
      (run true retried).completedBy Completion.any 0 = 1 ∧
      (run true retried).completedBy Completion.any 1 = 1 ∧
      (∀ query, (run true retried).called query ≤ 1) ∧
      ∀ registration, (run true retried).completedBy Completion.any registration ≤ 1 := by
  obtain ⟨once, -, registrations⟩ := completes_once true retried (by decide)
  exact ⟨by decide, by decide, by decide, once, fun registration => (registrations registration).1⟩

/-- A query whose connection is lost while it is pending. -/
def lostConn : List (Event Nat) :=
  [.exchangeAsync 5 0 false, .exchange 0 (.acquired 0 true), .exchange 0 .register,
    .exchange 0 (.write true false), .readFailed 0, .perform 0 false]

/-- A connection that is lost is not given back by the query that was pending on it. -/
theorem lostConn_unreleased : (run true lostConn).completedBy Completion.any 0 = 1 ∧
    (run true lostConn).called 0 = 1 ∧ (run true lostConn).released 0 = 0 := by
  decide

end SingBox.DnsMux
