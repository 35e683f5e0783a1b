/-
This file is about the connect attempts of one session of the Hysteria2 realm server.
The handler of a connect request enters its nonce into the table of pending attempts
and waits. When it returns it takes the nonce out of the table, whoever has entered it
by then.
-/

import SingBox.Log
import SingBox.Machine
import SingBox.Table

namespace SingBox.RealmConnect

open Machine

variable {Nonce Address : Type}

/-- What `handleConnect` renders; nothing when the context of the request has ended. -/
inductive Answer (Address : Type) where
  | addresses (addresses : List Address)
  | rateLimited (message : String)
  | nothing

/-- Why a handler stops waiting, if not for a response. -/
inductive Ending where
  | bufferFull
  | timer
  | context

/-- After the timer the handler answers with the addresses that it has read before. -/
def Ending.answer (serverAddresses : List Address) : Ending → Answer Address
  | .bufferFull => .rateLimited "server event buffer full"
  | .timer => .addresses serverAddresses
  | .context => .nothing

/-- The handler of a connect request that was registered: the first payload sent on its channel,
its answer once it has stopped waiting, and whether it has returned. -/
structure Attempt (Nonce Address : Type) where
  nonce : Nonce
  serverAddresses : List Address
  sent : Option (List Address) := none
  answer : Option (Answer Address) := none
  returned : Bool := false

namespace Attempt

variable (attempt : Attempt Nonce Address)

/-- The select takes the payload. -/
def receive : Attempt Nonce Address :=
  { attempt with answer := attempt.answer.or (attempt.sent.map fun payload =>
      .addresses (if payload.isEmpty then attempt.serverAddresses else payload)) }

/-- The handler stops waiting for another reason. -/
def leave (ending : Ending) : Attempt Nonce Address :=
  { attempt with answer := attempt.answer.or (some (ending.answer attempt.serverAddresses)) }

/-- Registered, not answered, not timed out or cancelled. -/
def Waiting : Prop := attempt.sent = none ∧ attempt.answer = none

end Attempt

/-- A `realmSession`; its channels are those of the attempts. -/
structure Session (Nonce Address : Type) where
  closed : Bool := false
  pending : Table Nonce Nat := .empty
  attempts : List (Attempt Nonce Address) := []

inductive Event (Nonce Address : Type) where
  | connect (nonce : Nonce) (serverAddresses : List Address)
  | respond (nonce : Nonce) (addresses : List Address)
  | receive (place : Nat)
  | leave (place : Nat) (ending : Ending)
  | cancel (place : Nat)

def maxPendingAttempts : Nat := 16

variable [DecidableEq Nonce]

namespace Session

variable (session : Session Nonce Address)

/-- `registerPending`, for a handler that has read the addresses of the server. -/
def registerPending (nonce : Nonce) (serverAddresses : List Address) :
    Session Nonce Address × Bool :=
  if session.closed ∨ maxPendingAttempts ≤ session.pending.entries.length ∨
      session.pending.find? nonce ≠ none then (session, false)
  else
    ({ session with
      pending := session.pending.set nonce session.attempts.length
      attempts := session.attempts ++ [{ nonce, serverAddresses }] }, true)

def modify (place : Nat) (change : Attempt Nonce Address → Attempt Nonce Address) :
    Session Nonce Address :=
  { session with attempts := session.attempts.modify place change }

def deliverPending (nonce : Nonce) (payload : List Address) : Session Nonce Address × Bool :=
  if session.closed then (session, false)
  else
    match session.pending.find? nonce with
    | none => (session, false)
    | some place =>
      ({ session with pending := session.pending.erase nonce }.modify place fun attempt =>
        { attempt with sent := attempt.sent.or (some payload) }, true)

def cancelPending (nonce : Nonce) : Session Nonce Address :=
  { session with pending := session.pending.erase nonce }

/-- A response without addresses is refused by `handleConnectResponse`. -/
def step : Event Nonce Address → Session Nonce Address
  | .connect nonce serverAddresses => (session.registerPending nonce serverAddresses).1
  | .respond nonce addresses =>
    if addresses = [] then session else (session.deliverPending nonce addresses).1
  | .receive place => session.modify place .receive
  | .leave place ending => session.modify place (.leave · ending)
  | .cancel place =>
    match session.attempts[place]? with
    | some attempt =>
      if attempt.answer.isNone ∨ attempt.returned then session
      else
        (session.cancelPending attempt.nonce).modify place fun attempt =>
          { attempt with returned := true }
    | none => session

/-- A nonce is registered again only when the handlers that had it before have returned, and no
handler stops waiting for another reason once its response has been sent. -/
def Orderly : Event Nonce Address → Prop
  | .connect nonce _ => session.pending.find? nonce = none →
    ∀ attempt ∈ session.attempts, attempt.nonce = nonce → attempt.returned = true
  | .leave place _ => ∀ attempt ∈ session.attempts[place]?, attempt.sent = none
  | _ => True

instance (event : Event Nonce Address) : Decidable (session.Orderly event) := by
  cases event <;> unfold Orderly <;> infer_instance

end Session

/-- An attempt that waits is in the table, and a nonce of a handler that has not returned is there
for that handler only. -/
structure Sound (session : Session Nonce Address) : Prop where
  opened : session.closed = false
  waiting : ∀ (place : Nat) attempt, session.attempts[place]? = some attempt → attempt.Waiting →
    session.pending.find? attempt.nonce = some place
  own : ∀ (place : Nat) attempt, session.attempts[place]? = some attempt →
    attempt.returned = false → ∀ other, session.pending.find? attempt.nonce = some other →
      other = place

variable {session : Session Nonce Address} {place : Nat} {addresses : List Address}

omit [DecidableEq Nonce] in
theorem Session.modify_cases {change : Attempt Nonce Address → Attempt Nonce Address} {other : Nat}
    {attempt : Attempt Nonce Address}
    (listed : (session.modify other change).attempts[place]? = some attempt) :
    (other ≠ place ∧ session.attempts[place]? = some attempt) ∨
      (other = place ∧ ∃ old, session.attempts[place]? = some old ∧ attempt = change old) := by
  rw [Session.modify, List.getElem?_modify] at listed
  by_cases here : other = place
  · simp only [if_pos here, Option.map_eq_map, Option.map_eq_some_iff] at listed
    obtain ⟨old, found, same⟩ := listed
    exact .inr ⟨here, old, found, same.symm⟩
  · simp only [if_neg here, id_map'] at listed
    exact .inl ⟨here, listed⟩

omit [DecidableEq Nonce] in
theorem Session.modify_self {change : Attempt Nonce Address → Attempt Nonce Address}
    {attempt : Attempt Nonce Address} (listed : session.attempts[place]? = some attempt) :
    (session.modify place change).attempts[place]? = some (change attempt) := by
  simp only [Session.modify, List.getElem?_modify, if_true, listed, Option.map_eq_map,
    Option.map_some]

omit [DecidableEq Nonce] in
theorem Session.modify_ne {change : Attempt Nonce Address → Attempt Nonce Address} {other : Nat}
    (ne : other ≠ place) : (session.modify other change).attempts[place]? =
      session.attempts[place]? := by
  simp only [Session.modify, List.getElem?_modify, if_neg ne, id_map']

namespace Sound

/-- A handler is registered under a nonce that nobody has who has not returned. -/
theorem connect (sound : Sound session) (nonce : Nonce) (serverAddresses : List Address)
    (orderly : session.Orderly (.connect nonce serverAddresses)) :
    Sound (session.registerPending nonce serverAddresses).1 := by
  unfold Session.registerPending
  split_ifs with refused
  · exact sound
  simp only [not_or, not_not] at refused
  have absent := refused.2.2
  refine ⟨sound.opened, fun place attempt found waits => ?_,
    fun place attempt found running other entry => ?_⟩
  · show (session.pending.set nonce _).find? attempt.nonce = some place
    rcases Log.snoc_cases found with old | ⟨rfl, rfl⟩
    · have known := sound.waiting place attempt old waits
      have ne : attempt.nonce ≠ nonce := fun same => by
        rw [same, absent] at known
        exact nomatch known
      exact (Table.find?_set_ne ne).trans known
    · exact Table.find?_set_self ..
  · rcases Log.snoc_cases found with old | ⟨rfl, rfl⟩
    · rcases Table.find?_set_some entry with ⟨same, -⟩ | ⟨-, before⟩
      · have finished := orderly absent attempt (List.mem_of_getElem? old) same
        exact nomatch running.symm.trans finished
      · exact sound.own place attempt old running other before
    · exact (Option.some.inj ((Table.find?_set_self ..).symm.trans entry)).symm

/-- A handler whose attempt keeps its nonce, does not wait again and does not run again. -/
theorem modify (sound : Sound session) (place : Nat)
    {change : Attempt Nonce Address → Attempt Nonce Address}
    (nonce : ∀ attempt, (change attempt).nonce = attempt.nonce)
    (waiting : ∀ attempt, (change attempt).Waiting → attempt.Waiting)
    (returned : ∀ attempt, (change attempt).returned = attempt.returned) :
    Sound (session.modify place change) := by
  refine ⟨sound.opened, fun other attempt found waits => ?_,
    fun other attempt found running entry known => ?_⟩
  · rcases Session.modify_cases found with ⟨-, old⟩ | ⟨-, before, old, rfl⟩
    · exact sound.waiting other attempt old waits
    · rw [nonce]
      exact sound.waiting other before old (waiting before waits)
  · rcases Session.modify_cases found with ⟨-, old⟩ | ⟨-, before, old, rfl⟩
    · exact sound.own other attempt old running entry known
    · rw [nonce] at known
      rw [returned] at running
      exact sound.own other before old running entry known

/-- The attempt that a response is for does not wait any more. -/
theorem deliver (sound : Sound session) (nonce : Nonce) (payload : List Address) :
    Sound (session.deliverPending nonce payload).1 := by
  unfold Session.deliverPending
  split_ifs
  · exact sound
  split
  · exact sound
  rename_i target known
  refine ⟨sound.opened, fun other attempt found waits => ?_,
    fun other attempt found running entry left => ?_⟩
  · show (session.pending.erase nonce).find? attempt.nonce = some other
    rcases Session.modify_cases found with ⟨elsewhere, old⟩ | ⟨-, before, -, rfl⟩
    · have mine := sound.waiting other attempt old waits
      have ne : attempt.nonce ≠ nonce := fun same =>
        elsewhere (Option.some.inj (known.symm.trans (same ▸ mine)))
      exact (Table.find?_erase_ne ne).trans mine
    · exact nomatch (Option.or_eq_none_iff.mp waits.1).2
  · have before := (Table.find?_erase_some left).2
    rcases Session.modify_cases found with ⟨-, old⟩ | ⟨-, attempt, old, rfl⟩ <;>
      exact sound.own other _ old running entry before

/-- A handler that returns takes only its own nonce out of the table. -/
theorem cancel (sound : Sound session) {attempt : Attempt Nonce Address}
    (listed : session.attempts[place]? = some attempt) (answered : attempt.answer.isNone = false)
    (running : attempt.returned = false) :
    Sound ((session.cancelPending attempt.nonce).modify place fun attempt =>
      { attempt with returned := true }) := by
  refine ⟨sound.opened, fun other waiter found waits => ?_,
    fun other runner found still entry left => ?_⟩
  · show (session.pending.erase attempt.nonce).find? waiter.nonce = some other
    rcases Session.modify_cases found with ⟨elsewhere, old⟩ | ⟨rfl, before, old, rfl⟩
    · have mine := sound.waiting other waiter old waits
      have ne : waiter.nonce ≠ attempt.nonce := fun same =>
        elsewhere (sound.own place attempt listed running other (same ▸ mine)).symm
      exact (Table.find?_erase_ne ne).trans mine
    · obtain rfl := Option.some.inj (listed.symm.trans old)
      have none : attempt.answer = none := waits.2
      rw [none] at answered
      exact nomatch answered
  · rcases Session.modify_cases found with ⟨-, old⟩ | ⟨-, before, -, rfl⟩
    · exact sound.own other runner old still entry (Table.find?_erase_some left).2
    · exact nomatch still

theorem step (sound : Sound session) (event : Event Nonce Address)
    (orderly : session.Orderly event) : Sound (session.step event) := by
  cases event with
  | connect nonce serverAddresses => exact sound.connect nonce serverAddresses orderly
  | respond nonce addresses =>
    simp only [Session.step]
    split_ifs
    · exact sound
    · exact sound.deliver nonce addresses
  | receive place | leave place ending =>
    exact sound.modify place (fun _ => rfl)
      (fun _ waits => ⟨waits.1, (Option.or_eq_none_iff.mp waits.2).1⟩) fun _ => rfl
  | cancel place =>
    simp only [Session.step]
    split
    · rename_i attempt listed
      split_ifs with finished
      · exact sound
      · obtain ⟨answered, running⟩ := not_or.mp finished
        exact sound.cancel listed (Bool.eq_false_of_not_eq_true answered)
          (Bool.eq_false_of_not_eq_true running)
    · exact sound

end Sound

/-- The response was sent to the handler at the place, and if it has an answer, it is the
response. -/
def Session.Served (session : Session Nonce Address) (place : Nat) (addresses : List Address) :
    Prop :=
  ∃ attempt, session.attempts[place]? = some attempt ∧ attempt.sent = some addresses ∧
    ∀ answer, attempt.answer = some answer → answer = .addresses addresses

omit [DecidableEq Nonce] in
/-- The handler at the place keeps what it was sent and what it answers. -/
theorem Served.keep {after : Session Nonce Address} (served : session.Served place addresses)
    (kept : ∀ attempt, session.attempts[place]? = some attempt →
      ∃ next, after.attempts[place]? = some next ∧
        (attempt.sent = some addresses → next.sent = some addresses ∧
          (next.answer = attempt.answer ∨ next.answer = some (.addresses addresses)))) :
    after.Served place addresses := by
  obtain ⟨attempt, found, sent, answers⟩ := served
  obtain ⟨next, found', keeps⟩ := kept attempt found
  refine ⟨next, found', (keeps sent).1, fun answer given => ?_⟩
  rcases (keeps sent).2 with same | response
  · exact answers answer (same.symm.trans given)
  · exact (Option.some.inj (response.symm.trans given)).symm

theorem Session.Served.cancelPending (served : session.Served place addresses) (nonce : Nonce) :
    (session.cancelPending nonce).Served place addresses := served

omit [DecidableEq Nonce] in
/-- A change of one handler, which may be the one at the place. -/
theorem Served.modify (served : session.Served place addresses) (other : Nat)
    {change : Attempt Nonce Address → Attempt Nonce Address}
    (keeps : ∀ attempt, session.attempts[other]? = some attempt →
      attempt.sent = some addresses → (change attempt).sent = some addresses ∧
        ((change attempt).answer = attempt.answer ∨
          (change attempt).answer = some (.addresses addresses))) :
    (session.modify other change).Served place addresses := by
  refine Served.keep served fun attempt found => ?_
  by_cases here : other = place
  · subst here
    exact ⟨change attempt, Session.modify_self found, keeps attempt found⟩
  · exact ⟨attempt, (Session.modify_ne here).trans found, fun sent => ⟨sent, .inl rfl⟩⟩

omit [DecidableEq Nonce] in
/-- The select of a handler that was sent the response takes it, if it has no answer yet. -/
theorem Attempt.answer_receive {attempt : Attempt Nonce Address}
    (sent : attempt.sent = some addresses) (nonempty : addresses ≠ []) :
    attempt.receive.answer = attempt.answer.or (some (.addresses addresses)) := by
  rw [Attempt.receive, sent, Option.map_some, if_neg (by rwa [List.isEmpty_iff])]

theorem Served.step (served : session.Served place addresses) (nonempty : addresses ≠ [])
    (event : Event Nonce Address) (orderly : session.Orderly event) :
    (session.step event).Served place addresses := by
  cases event with
  | connect nonce serverAddresses =>
    simp only [Session.step, Session.registerPending]
    split_ifs
    · exact served
    · exact Served.keep served fun attempt found =>
        ⟨attempt, Log.snoc_of_some found, fun sent => ⟨sent, .inl rfl⟩⟩
  | respond nonce payload =>
    simp only [Session.step, Session.deliverPending]
    split_ifs
    · exact served
    · exact served
    · split
      · exact served
      · refine Served.modify (served.cancelPending nonce) _ fun attempt _ sent => ⟨?_, .inl rfl⟩
        rw [sent]
        rfl
  | receive other =>
    refine Served.modify served other fun attempt _ sent => ⟨sent, ?_⟩
    rw [Attempt.answer_receive sent nonempty]
    cases attempt.answer with
    | none => exact .inr rfl
    | some answer => exact .inl rfl
  | leave other ending =>
    refine Served.modify served other fun attempt found sent => ?_
    exact nomatch sent.symm.trans (orderly attempt (Option.mem_def.mpr found))
  | cancel other =>
    simp only [Session.step]
    split
    · split_ifs
      · exact served
      · exact Served.modify (served.cancelPending _) other fun _ _ sent => ⟨sent, .inl rfl⟩
    · exact served

/-- Once the select has taken its payload, the handler answers with the response. -/
theorem Served.receive (served : session.Served place addresses) (nonempty : addresses ≠ []) :
    ((session.step (.receive place)).attempts[place]?.bind Attempt.answer) =
      some (.addresses addresses) := by
  obtain ⟨attempt, found, sent, answers⟩ := served
  show ((session.modify place .receive).attempts[place]?.bind Attempt.answer) = _
  rw [Session.modify_self found, Option.bind_some, Attempt.answer_receive sent nonempty]
  cases given : attempt.answer with
  | none => rfl
  | some answer => exact congrArg some (answers answer given)

def run (events : List (Event Nonce Address)) : Session Nonce Address := drive Session.step {} events

/-- Along every run in which a nonce is registered again only when the handlers that had it have
returned, and no handler stops waiting for another reason after its response was sent: a response
for an attempt that waits is accepted, it is the only thing that attempt can answer from then on,
and it is what it answers when it receives from its channel. -/
theorem response_reaches (events : List (Event Nonce Address))
    (orderly : Meets Session.step Session.Orderly {} events) (place : Nat)
    (attempt : Attempt Nonce Address) (found : (run events).attempts[place]? = some attempt)
    (waiting : attempt.Waiting) (nonempty : addresses ≠ []) :
    ((run events).deliverPending attempt.nonce addresses).2 = true ∧
      ∀ later, Meets Session.step Session.Orderly
          ((run events).deliverPending attempt.nonce addresses).1 later →
        (drive Session.step ((run events).deliverPending attempt.nonce addresses).1 later).Served
            place addresses ∧
          ((drive Session.step ((run events).deliverPending attempt.nonce addresses).1
            (later ++ [.receive place])).attempts[place]?.bind Attempt.answer) =
              some (.addresses addresses) := by
  have sound : Sound (run events) := by
    refine invariant_drive Sound ⟨rfl, fun place _ found => ?_, fun place _ found => ?_⟩
      (fun _ event sound => sound.step event) orderly <;>
    exact nomatch List.getElem?_nil.symm.trans found
  have known := sound.waiting place attempt found waiting
  have delivered : ((run events).deliverPending attempt.nonce addresses).2 = true ∧
      ((run events).deliverPending attempt.nonce addresses).1.Served place addresses := by
    simp only [Session.deliverPending, sound.opened, known, Bool.false_eq_true, if_false]
    refine ⟨trivial, { attempt with sent := some addresses }, ?_, rfl, ?_⟩
    · simp [Session.modify, found, waiting.1]
    · simp [waiting.2]
  refine ⟨delivered.1, fun later orderly => ?_⟩
  have served := invariant_drive (Session.Served · place addresses) delivered.2
    (fun _ event served => Served.step served nonempty event) orderly
  rw [drive_append]
  exact ⟨served, Served.receive served nonempty⟩

/-- A nonce that is used again after the first handler has returned. -/
def reusedAfter : List (Event Nat Nat) :=
  [.connect 7 [1], .respond 7 [2], .receive 0, .cancel 0, .connect 7 [1]]

/-- The second handler answers with its own response. -/
theorem response_reaches_reused :
    ((run reusedAfter).deliverPending 7 [3]).2 = true ∧
      ((drive Session.step ((run reusedAfter).deliverPending 7 [3]).1
        [.cancel 0, .receive 1]).attempts[1]?.bind Attempt.answer) = some (.addresses [3]) := by
  obtain ⟨accepted, answers⟩ := response_reaches reusedAfter (by decide) 1
    { nonce := 7, serverAddresses := [1] } rfl ⟨rfl, rfl⟩ (List.cons_ne_nil 3 [])
  exact ⟨accepted, (answers [.cancel 0] (by decide)).2⟩

/-- A nonce that is used again before the first handler has returned. -/
def reusedBefore : List (Event Nat Nat) :=
  [.connect 7 [1], .respond 7 [2], .receive 0, .connect 7 [1], .cancel 0]

/-- The first handler takes the nonce of the second one out of the table. -/
theorem reused_refused :
    (run reusedBefore).attempts[1]? = some { nonce := 7, serverAddresses := [1] } ∧
      ({ nonce := 7, serverAddresses := [1] } : Attempt Nat Nat).Waiting ∧
      ((run reusedBefore).deliverPending 7 [3]).2 = false :=
  ⟨rfl, ⟨rfl, rfl⟩, by decide⟩

end SingBox.RealmConnect
