/-
This file is about the two locks of a failover session. A Reconnect handler takes the mutex
of the session and then the lock of the connection, `Close` takes them in the other order,
and some returns of the handler forget the mutex.
-/

import SingBox.Machine

namespace SingBox.FailoverLocks

open Function Machine

inductive Command where
  | tcp | reconnect | unknown
  deriving DecidableEq

/-- Where a call is. A handler has the session, waits in `RestoreConn` for the lock of the
connection, or has it; `Close` has its read lock and waits for the session, or has both. -/
inductive Phase where
  | idle
  | locked (command : Command)
  | restoring (conn : Nat)
  | restored (conn : Nat)
  | handled
  | reading (conn : Nat)
  | deleting (conn : Nat)
  | closed
  deriving DecidableEq

/-- One session of an `Inbound`: the call that has its mutex, its connection, how many it has had,
and the calls that have the locks of the connections. -/
structure Session where
  mutex : Option Nat := none
  conn : Option Nat := none
  conns : Nat := 0
  writer : Nat → Option Nat := fun _ => none
  reader : Nat → Option Nat := fun _ => none
  phase : Nat → Phase := fun _ => .idle

/-- A handler locks the session, writes `StatusOK` if it has to, locks the connection in
`RestoreConn` and ends; `Close` takes its read lock, locks the session in `onClose` and ends. -/
inductive Event where
  | lock (call : Nat) (command : Command)
  | handle (call : Nat) (written : Bool)
  | lockConn (call : Nat)
  | restore (call : Nat)
  | lockRead (call conn : Nat)
  | lockSession (call : Nat)
  | finish (call : Nat)

namespace Session

def go (session : Session) (call : Nat) (phase : Phase) : Session :=
  { session with phase := update session.phase call phase }

def handle (session : Session) (call : Nat) (written : Bool) : Command → Session
  | .tcp =>
    { session.go call .handled with
      conn := session.conns, conns := session.conns + 1, mutex := none }
  | .reconnect =>
    match session.conn with
    | none => { session.go call .handled with mutex := none }
    | some conn => session.go call (if written then .restoring conn else .handled)
  | .unknown => session.go call .handled

def step (session : Session) : Event → Session
  | .lock call command =>
    if session.phase call = .idle ∧ session.mutex = none then
      { session.go call (.locked command) with mutex := call }
    else session
  | .handle call written =>
    match session.phase call with
    | .locked command => session.handle call written command
    | _ => session
  | .lockConn call =>
    match session.phase call with
    | .restoring conn =>
      if session.writer conn = none ∧ session.reader conn = none then
        { session.go call (.restored conn) with
          writer := update session.writer conn call }
      else session
    | _ => session
  | .restore call =>
    match session.phase call with
    | .restored conn =>
      { session.go call .handled with
        mutex := none
        writer := update session.writer conn none }
    | _ => session
  | .lockRead call conn =>
    if session.phase call = .idle ∧ session.writer conn = none ∧ session.reader conn = none then
      { session.go call (.reading conn) with reader := update session.reader conn call }
    else session
  | .lockSession call =>
    match session.phase call, session.mutex with
    | .reading conn, none => { session.go call (.deleting conn) with mutex := call }
    | _, _ => session
  | .finish call =>
    match session.phase call with
    | .deleting conn =>
      { session.go call .closed with
        mutex := none, conn := none
        reader := update session.reader conn none }
    | _ => session

/-- `Close` and a Reconnect handler do not wait for each other, and a handler that has returned
does not have the mutex. -/
structure Safe (session : Session) : Prop where
  apart : ∀ call handler conn, session.phase call = .reading conn →
    session.mutex = some handler → session.phase handler ≠ .restoring conn
  released : ∀ call, session.phase call = .handled → session.mutex ≠ some call

/-- `Close` takes its read lock while nobody has the session, and a handler takes the session while
no `Close` has a read lock; `StatusOK` can be written, and the command is known. -/
def Orderly (session : Session) : Event → Prop
  | .lockRead _ _ => session.mutex = none
  | .lock _ _ => ∀ conn, session.reader conn = none
  | .handle call written => written = true ∧ session.phase call ≠ .locked .unknown
  | _ => True

/-- What the call has where it is. While a handler has the session, nobody has a read lock. -/
def Fine (mutex : Option Nat) (reader : Nat → Option Nat) (call : Nat) : Phase → Prop
  | .locked _ | .restoring _ | .restored _ => mutex = some call ∧ ∀ conn, reader conn = none
  | .handled => mutex ≠ some call
  | .reading conn => reader conn = some call
  | .deleting conn => mutex = some call ∧ reader conn = some call
  | .idle | .closed => True

def Sound (session : Session) : Prop :=
  ∀ call, Fine session.mutex session.reader call (session.phase call)

variable {session next : Session}

theorem Sound.has (sound : session.Sound) {call : Nat} {phase : Phase}
    (place : session.phase call = phase) : Fine session.mutex session.reader call phase :=
  place ▸ sound call

/-- A step is taken by a call that has the session or takes it, while nobody else has it. -/
theorem Sound.move (sound : session.Sound) {call : Nat} {phase : Phase}
    (moved : next.phase = update session.phase call phase)
    (fine : Fine next.mutex next.reader call phase)
    (before : session.mutex = none ∨ session.mutex = some call)
    (after : next.mutex = none ∨ next.mutex = some call)
    (kept : ∀ other ≠ call, ∀ conn, session.reader conn = some other →
      next.reader conn = some other) : next.Sound := by
  intro other
  rw [moved, update_apply]
  split
  next same => exact same ▸ fine
  next distinct =>
    have kept := kept other distinct
    have old := sound other
    cases place : session.phase other <;> rw [place] at old <;> grind [Fine]

theorem Sound.step (sound : session.Sound) {event : Event} (orderly : session.Orderly event) :
    (session.step event).Sound := by
  fun_cases Session.step session event with
  | case1 call command idle =>
    exact sound.move rfl ⟨rfl, orderly⟩ (.inl idle.2) (.inr rfl) fun _ _ _ => id
  | case3 call written command locked =>
    obtain ⟨rfl, known⟩ := orderly
    have fine := sound.has locked
    fun_cases Session.handle session call true command with
    | case1 | case2 => exact sound.move rfl nofun (.inr fine.1) (.inl rfl) fun _ _ _ => id
    | case3 => exact sound.move rfl fine (.inr fine.1) (.inr fine.1) fun _ _ _ => id
    | case4 => contradiction
  | case5 call conn restoring =>
    have fine := sound.has restoring
    exact sound.move rfl fine (.inr fine.1) (.inr fine.1) fun _ _ _ => id
  | case8 call conn restored =>
    exact sound.move rfl nofun (.inr (sound.has restored).1) (.inl rfl) fun _ _ _ => id
  | case10 call conn free =>
    refine sound.move rfl (update_self ..) (.inl orderly) (.inl orderly) fun _ _ other has => ?_
    refine (update_of_ne ?_ ..).trans has
    rintro rfl
    exact nomatch free.2.2.symm.trans has
  | case12 call conn free reading =>
    exact sound.move rfl ⟨rfl, sound.has reading⟩ (.inl free) (.inr rfl) fun _ _ _ => id
  | case14 call conn deleting =>
    obtain ⟨has, reads⟩ := sound.has deleting
    refine sound.move rfl trivial (.inr has) (.inl rfl) fun _ distinct other has => ?_
    refine (update_of_ne ?_ ..).trans has
    rintro rfl
    exact distinct (Option.some.inj (has.symm.trans reads))
  | _ => exact sound

theorem Sound.safe (sound : session.Sound) : session.Safe := by
  refine ⟨fun call handler conn waits _ restores => ?_, fun call => sound.has⟩
  exact nomatch ((sound.has restores).2 conn).symm.trans (sound.has waits)

end Session

open Session

/-- In every run that meets the condition no Close and no handler wait for each other, and every
handler that returns has released the session. -/
theorem session_safe {events : List Event} (orderly : Meets step Orderly {} events) :
    (drive step {} events).Safe :=
  (invariant_drive Sound (by intro; trivial) (fun _ _ sound met => sound.step met) orderly).safe

theorem session_safe_inTurn :
    (drive step {} [.lock 0 .tcp, .handle 0 true, .lock 1 .reconnect, .handle 1 true, .lockConn 1,
      .restore 1, .lockRead 2 0, .lockSession 2]).Safe :=
  session_safe ⟨fun _ => rfl, ⟨rfl, nofun⟩, fun _ => rfl, ⟨rfl, nofun⟩, trivial, trivial, rfl,
    trivial, trivial⟩

/-- `Close` has the read lock and waits for the session, which the handler has that waits for the
lock. A handler that cannot write, or does not know the command, keeps the session. -/
theorem waits_crossed :
    ¬(drive step {} [.lock 0 .tcp, .handle 0 true, .lock 1 .reconnect, .lockRead 2 0,
        .handle 1 true]).Safe ∧
      ¬(drive step {} [.lock 0 .tcp, .handle 0 true, .lock 1 .reconnect, .handle 1 false]).Safe ∧
      ¬(drive step {} [.lock 0 .unknown, .handle 0 true]).Safe :=
  ⟨fun safe => safe.apart 2 1 0 rfl rfl rfl, fun safe => safe.released 1 rfl rfl,
    fun safe => safe.released 0 rfl rfl⟩

end SingBox.FailoverLocks
