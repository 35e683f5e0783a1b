/-
This file is the session table of the VLESS encryption server and the handshakes
that use it. A 1-RTT handshake issues a ticket and stores a session under it; a
0-RTT handshake looks the session of its ticket up and then records its key in the
set of keys that the session has seen; once a minute a clean-up loop removes the
sessions whose tickets have expired.

The three run concurrently. A handshake keeps the pointer it has looked up, so the
table and the session objects are modelled apart: removing a session from the table
does not touch the object. An event is one of the sections that the code runs under
its lock, or the atomic operation on the key set, so a list of events is an
interleaving.
-/

import SingBox.ByteString

namespace SingBox

open List Option ByteString

namespace Encryption

/-! ### The table -/

/-- A `[16]byte` ticket. -/
abbrev Ticket := List UInt8

/-- A `ServerSession`: its key, and the keys of the 0-RTT handshakes it has seen. -/
structure ServerSession where
  pfsKey : List UInt8
  nfsKeys : List (List UInt8) := []
  deriving DecidableEq, Repr

/-- The bounds of a session's life in seconds, from the server's configuration. -/
structure SessionSeconds where
  secondsFrom : Int
  secondsTo : Int

/-- The mutable fields of a `ServerInstance`. The sessions of the table are pointers into
`heap`. -/
structure ServerTable where
  closed : Bool := false
  lasts : Int → Option Ticket := fun _ => none
  tickets : List Ticket := []
  sessions : Ticket → Option Nat := fun _ => none
  heap : List ServerSession := []

namespace ServerTable

/-- The statements under the lock with which `ServerInstance.Handshake` issues a ticket that
lives for some seconds. -/
def issue (table : ServerTable) (limits : SessionSeconds) (now seconds : Int) (ticket : Ticket)
    (pfsKey : List UInt8) : ServerTable :=
  if seconds > 0 then
    { table with
      lasts := fun minute =>
        if minute = (now + max limits.secondsFrom limits.secondsTo).tdiv 60 + 2 then some ticket
        else table.lasts minute
      tickets := table.tickets ++ [ticket]
      sessions := fun other =>
        if other = ticket then some table.heap.length else table.sessions other
      heap := table.heap ++ [{ pfsKey := pfsKey }] }
  else table

/-- `LoadOrStore` on the keys of a session: whether the key was there, and the table with
the key. -/
def loadOrStore (table : ServerTable) (session : Nat) (nfsKey : List UInt8) :
    Bool × ServerTable :=
  match table.heap[session]? with
  | none => (false, table)
  | some found =>
    if nfsKey ∈ found.nfsKeys then (true, table)
    else
      (false, { table with
        heap := table.heap.set session { found with nfsKeys := nfsKey :: found.nfsKeys } })

/-- The loop of the clean-up over the tickets, up to the last one to go. -/
def expire (last : Ticket) (all : List Ticket) (sessions : Ticket → Option Nat) :
    List Ticket → List Ticket × (Ticket → Option Nat)
  | [] => (all, sessions)
  | ticket :: rest =>
    let sessions := fun other => if other = ticket then none else sessions other
    if ticket = last then (rest, sessions) else expire last all sessions rest

/-- One turn of the clean-up loop of `ServerInstance.Init`. -/
def cleanUp (table : ServerTable) (minute : Int) : ServerTable :=
  if table.closed then table
  else
    let last := (table.lasts minute).getD (List.replicate 16 0)
    let lasts := fun other => if other = minute ∨ other = minute - 1 then none
      else table.lasts other
    if last ≠ List.replicate 16 0 then
      let remaining := expire last table.tickets table.sessions table.tickets
      { table with lasts := lasts, tickets := remaining.1, sessions := remaining.2 }
    else { table with lasts := lasts }

/-- `ServerInstance.Close`. -/
def close (table : ServerTable) : ServerTable := { table with closed := true }

end ServerTable

/-! ### Handshakes -/

/-- What the server has decrypted of a 0-RTT hello. -/
structure ZeroRTTHello where
  ticket : Ticket
  nfsKey : List UInt8
  deriving DecidableEq, Repr

/-- How far a 0-RTT handshake has come. -/
inductive Progress where
  | opened
  | found (session : Nat)
  | accepted (session : Nat)
  | refused (err : String)
  deriving DecidableEq, Repr

structure ZeroRTT where
  hello : ZeroRTTHello
  progress : Progress := .opened
  deriving DecidableEq, Repr

/-- A server at work: its table, its 0-RTT handshakes, and the tickets it has stored a session
for, in the order of the sessions. -/
structure ServerRun where
  table : ServerTable := {}
  handshakes : List ZeroRTT := []
  stored : List Ticket := []

/-- What happens next on the server. -/
inductive ServerEvent where
  | issue (now seconds : Int) (ticket : Ticket) (pfsKey : List UInt8)
  | hello (hello : ZeroRTTHello)
  | lookup (handshake : Nat)
  | loadOrStore (handshake : Nat)
  | cleanUp (minute : Int)
  | close

/-- The lookup of a 0-RTT handshake. -/
def ServerTable.find (table : ServerTable) (limits : SessionSeconds) (ticket : Ticket) : Progress :=
  if limits.secondsFrom = 0 ∧ limits.secondsTo = 0 then .refused "0-RTT is not allowed"
  else
    match table.sessions ticket with
    | none => .refused "expired ticket"
    | some session => .found session

/-- A handshake goes on. -/
def ServerRun.setProgress (run : ServerRun) (index : Nat) (handshake : ZeroRTT)
    (progress : Progress) : ServerRun :=
  { run with handshakes := run.handshakes.set index { handshake with progress := progress } }

/-- The effect of an event. An event of a handshake that is not at that point has none. -/
def ServerRun.step (limits : SessionSeconds) (run : ServerRun) : ServerEvent → ServerRun
  | .issue now seconds ticket pfsKey =>
    { run with
      table := run.table.issue limits now seconds ticket pfsKey
      stored := if seconds > 0 then run.stored ++ [ticket] else run.stored }
  | .hello hello => { run with handshakes := run.handshakes ++ [{ hello := hello }] }
  | .lookup index =>
    match run.handshakes[index]? with
    | some ⟨hello, .opened⟩ =>
      run.setProgress index ⟨hello, .opened⟩ (run.table.find limits hello.ticket)
    | _ => run
  | .loadOrStore index =>
    match run.handshakes[index]? with
    | some ⟨hello, .found session⟩ =>
      let outcome := run.table.loadOrStore session hello.nfsKey
      { run with table := outcome.2 }.setProgress index ⟨hello, .found session⟩
        (if outcome.1 then .refused "replay detected" else .accepted session)
    | _ => run
  | .cleanUp minute => { run with table := run.table.cleanUp minute }
  | .close => { run with table := run.table.close }

def ServerEvent.ticket : ServerEvent → Option Ticket
  | .issue _ _ ticket _ => some ticket
  | .hello _ | .lookup _ | .loadOrStore _ | .cleanUp _ | .close => none

/-- The hellos of the handshakes that were accepted. -/
def ServerRun.accepted (run : ServerRun) : List ZeroRTTHello :=
  run.handshakes.filterMap fun handshake =>
    match handshake.progress with
    | .accepted _ => some handshake.hello
    | .opened | .found _ | .refused _ => none

/-! ### What the operations on the table keep -/

variable {table : ServerTable}

namespace ServerTable

variable {session : Nat} {key : List UInt8}

theorem sessions_expire {last : Ticket} {all tickets : List Ticket}
    {sessions : Ticket → Option Nat} {ticket : Ticket}
    (found : (expire last all sessions tickets).2 ticket = some session) :
    sessions ticket = some session := by
  induction tickets generalizing sessions with
  | nil => exact found
  | cons first rest ih =>
    have before (kept : (if ticket = first then none else sessions ticket) = some session) :
        sessions ticket = some session := by
      split at kept
      · cases kept
      · exact kept
    rw [expire] at found
    split at found
    · exact before found
    · exact before (ih found)

/-- The clean-up takes sessions out of the table, and nothing else. -/
theorem sessions_cleanUp {minute : Int} {ticket : Ticket}
    (found : (table.cleanUp minute).sessions ticket = some session) :
    table.sessions ticket = some session := by
  rw [cleanUp] at found
  dsimp only at found
  split at found
  · exact found
  · split at found
    · exact sessions_expire found
    · exact found

theorem heap_cleanUp (table : ServerTable) (minute : Int) :
    (table.cleanUp minute).heap = table.heap := by
  rw [cleanUp]
  dsimp only
  split
  · rfl
  · split <;> rfl

/-- The key has been recorded by the session. -/
def Recorded (table : ServerTable) (session : Nat) (nfsKey : List UInt8) : Prop :=
  ∃ found, table.heap[session]? = some found ∧ nfsKey ∈ found.nfsKeys

theorem sessions_loadOrStore (table : ServerTable) (session : Nat) (nfsKey : List UInt8) :
    (table.loadOrStore session nfsKey).2.sessions = table.sessions := by
  rw [loadOrStore]
  split
  · rfl
  · split <;> rfl

theorem length_heap_loadOrStore (table : ServerTable) (session : Nat) (nfsKey : List UInt8) :
    (table.loadOrStore session nfsKey).2.heap.length = table.heap.length := by
  rw [loadOrStore]
  split
  · rfl
  · split
    · rfl
    · exact length_set

theorem recorded_loadOrStore {other : Nat} (recorded : table.Recorded other key) (session : Nat)
    (nfsKey : List UInt8) : (table.loadOrStore session nfsKey).2.Recorded other key := by
  obtain ⟨before, stored, member⟩ := recorded
  rw [loadOrStore]
  split
  · exact ⟨before, stored, member⟩
  next found here =>
    split
    · exact ⟨before, stored, member⟩
    · by_cases same : session = other
      · subst same
        cases here.symm.trans stored
        have inside := (List.getElem?_eq_some_iff.mp stored).1
        exact ⟨_, getElem?_set_self inside, mem_cons_of_mem _ member⟩
      · refine ⟨before, ?_, member⟩
        rw [getElem?_set_ne same, stored]

/-- A key that was not loaded is new to the session, and recorded from then on. -/
theorem recorded_of_not_loaded {nfsKey : List UInt8} (inside : session < table.heap.length)
    (stored : (table.loadOrStore session nfsKey).1 = false) : ¬table.Recorded session nfsKey ∧
      (table.loadOrStore session nfsKey).2.Recorded session nfsKey := by
  rw [loadOrStore] at stored ⊢
  rw [getElem?_eq_getElem inside] at stored ⊢
  dsimp only at stored ⊢
  split at stored
  · cases stored
  next unseen =>
    rw [if_neg unseen]
    refine ⟨?_, ⟨_, getElem?_set_self inside, mem_cons_self⟩⟩
    rintro ⟨found, here, member⟩
    cases (getElem?_eq_getElem inside).symm.trans here
    exact unseen member

theorem recorded_issue (recorded : table.Recorded session key) (limits : SessionSeconds)
    (now seconds : Int) (ticket : Ticket) (pfsKey : List UInt8) :
    (table.issue limits now seconds ticket pfsKey).Recorded session key := by
  obtain ⟨found, here, member⟩ := recorded
  rw [issue]
  split
  · refine ⟨found, ?_, member⟩
    rw [getElem?_append_left (List.getElem?_eq_some_iff.mp here).1, here]
  · exact ⟨found, here, member⟩

end ServerTable

/-! ### At most once -/

/-- What every interleaving keeps: each session belongs to one ticket, a handshake holds the
session of its ticket, and the session has recorded the keys of those it accepted. -/
structure ServerRun.Kept (run : ServerRun) : Prop where
  heap : run.table.heap.length = run.stored.length
  sessions : ∀ ticket session, run.table.sessions ticket = some session →
    run.stored[session]? = some ticket
  held : ∀ (index : Nat) (handshake : ZeroRTT) (session : Nat),
    run.handshakes[index]? = some handshake →
    handshake.progress = .found session ∨ handshake.progress = .accepted session →
    run.stored[session]? = some handshake.hello.ticket
  recorded : ∀ (index : Nat) (handshake : ZeroRTT) (session : Nat),
    run.handshakes[index]? = some handshake →
    handshake.progress = .accepted session → run.table.Recorded session handshake.hello.nfsKey
  once : ∀ (first second : Nat) (handshake other : ZeroRTT) (session : Nat),
    run.handshakes[first]? = some handshake →
    run.handshakes[second]? = some other → handshake.progress = .accepted session →
    other.progress = .accepted session → handshake.hello.nfsKey = other.hello.nfsKey →
    first = second

theorem getElem?_set_eq_some {Entry : Type} {entries : List Entry} {index position : Nat}
    {entry found : Entry} (here : (entries.set index entry)[position]? = some found) :
    position = index ∧ found = entry ∨ position ≠ index ∧ entries[position]? = some found := by
  by_cases same : position = index
  · subst same
    have inside : position < (entries.set position entry).length :=
      (List.getElem?_eq_some_iff.mp here).1
    rw [length_set] at inside
    rw [getElem?_set_self inside] at here
    exact .inl ⟨rfl, (some.inj here).symm⟩
  · rw [getElem?_set_ne (Ne.symm same)] at here
    exact .inr ⟨same, here⟩

namespace ServerRun.Kept

variable {limits : SessionSeconds} {run : ServerRun}

section

variable (kept : run.Kept)

include kept

/-- A table that has fewer sessions and has recorded no less. -/
theorem setTable (heap : table.heap.length = run.table.heap.length)
    (sessions : ∀ ticket session, table.sessions ticket = some session →
      run.table.sessions ticket = some session)
    (recorded : ∀ session nfsKey, run.table.Recorded session nfsKey →
      table.Recorded session nfsKey) :
    ServerRun.Kept { run with table := table } where
  heap := heap.trans kept.heap
  sessions ticket session found := kept.sessions ticket session (sessions ticket session found)
  held := kept.held
  recorded index handshake session listed accepted :=
    recorded _ _ (kept.recorded index handshake session listed accepted)
  once := kept.once

/-- A handshake that is not accepted goes on. -/
theorem setProgress (index : Nat) (handshake : ZeroRTT) (progress : Progress)
    (held : ∀ session, progress = .found session ∨ progress = .accepted session →
      run.stored[session]? = some handshake.hello.ticket)
    (fresh : ∀ session, progress = .accepted session →
      run.table.Recorded session handshake.hello.nfsKey ∧ ∀ (other : Nat) (entry : ZeroRTT),
        run.handshakes[other]? = some entry → entry.progress = .accepted session →
          entry.hello.nfsKey ≠ handshake.hello.nfsKey) :
    (run.setProgress index handshake progress).Kept := { kept with
  held position entry session listed holds := by
    rcases getElem?_set_eq_some listed with ⟨_, rfl⟩ | ⟨_, listed⟩
    · exact held session holds
    · exact kept.held position entry session listed holds
  recorded position entry session listed accepted := by
    rcases getElem?_set_eq_some listed with ⟨_, rfl⟩ | ⟨_, listed⟩
    · exact (fresh session accepted).1
    · exact kept.recorded position entry session listed accepted
  once first second entry other session listed listed' accepted accepted' same := by
    rcases getElem?_set_eq_some listed with ⟨here, rfl⟩ | ⟨_, listed⟩
    · rcases getElem?_set_eq_some listed' with ⟨here', rfl⟩ | ⟨_, listed'⟩
      · rw [here, here']
      · exact absurd same.symm ((fresh session accepted).2 second other listed' accepted')
    · rcases getElem?_set_eq_some listed' with ⟨here', rfl⟩ | ⟨_, listed'⟩
      · exact absurd same ((fresh session accepted').2 first entry listed accepted)
      · exact kept.once first second entry other session listed listed' accepted accepted' same }

theorem issue (now seconds : Int) (ticket : Ticket) (pfsKey : List UInt8) :
    (run.step limits (.issue now seconds ticket pfsKey)).Kept := by
  have longer (session : Nat) (owner : Ticket) (stored : run.stored[session]? = some owner) :
      (if seconds > 0 then run.stored ++ [ticket] else run.stored)[session]? = some owner := by
    split
    · rw [getElem?_append_left (List.getElem?_eq_some_iff.mp stored).1, stored]
    · exact stored
  refine ⟨?_, ?_, ?_, ?_, kept.once⟩
  · rw [ServerRun.step, ServerTable.issue]
    split
    · rw [length_append, length_append, kept.heap]
      rfl
    · exact kept.heap
  · intro other session found
    rw [ServerRun.step, ServerTable.issue] at found
    by_cases positive : seconds > 0
    · rw [if_pos positive] at found
      dsimp only at found
      split at found
      next same =>
        rw [← some.inj found, same, ServerRun.step, if_pos positive, kept.heap]
        exact getElem?_concat_length
      · exact longer session other (kept.sessions other session found)
    · rw [if_neg positive] at found
      exact longer session other (kept.sessions other session found)
  · exact fun index handshake session listed holds =>
      longer session _ (kept.held index handshake session listed holds)
  · exact fun index handshake session listed accepted =>
      ServerTable.recorded_issue (kept.recorded index handshake session listed accepted) _ _ _ _ _

theorem hello (hello : ZeroRTTHello) : (run.step limits (.hello hello)).Kept := by
  have old {index : Nat} {handshake : ZeroRTT} (progressed : handshake.progress ≠ .opened)
      (listed : (run.handshakes ++ [{ hello := hello }])[index]? = some handshake) :
      run.handshakes[index]? = some handshake := by
    rw [getElem?_append] at listed
    split at listed
    · exact listed
    · have new := mem_of_getElem? listed
      rw [mem_singleton.mp new] at progressed
      exact absurd rfl progressed
  refine ⟨kept.heap, kept.sessions, ?_, ?_, ?_⟩
  · intro index handshake session listed holds
    refine kept.held index handshake session (old ?_ listed) holds
    rcases holds with holds | holds <;> rw [holds] <;> rintro ⟨⟩
  · intro index handshake session listed accepted
    refine kept.recorded index handshake session (old ?_ listed) accepted
    rw [accepted]
    rintro ⟨⟩
  · intro first second handshake other session listed listed' accepted accepted'
    refine kept.once first second handshake other session (old ?_ listed) (old ?_ listed')
      accepted accepted'
    · rw [accepted]
      rintro ⟨⟩
    · rw [accepted']
      rintro ⟨⟩

theorem lookup (index : Nat) : (run.step limits (.lookup index)).Kept := by
  rw [ServerRun.step]
  split
  next hello listed =>
    refine kept.setProgress index _ _ (fun session holds => ?_) fun session accepted => ?_
    · rw [ServerTable.find] at holds
      split at holds
      · rcases holds with ⟨⟨⟩⟩ | ⟨⟨⟩⟩
      · split at holds
        · rcases holds with ⟨⟨⟩⟩ | ⟨⟨⟩⟩
        next found =>
          rcases holds with ⟨⟨⟩⟩ | ⟨⟨⟩⟩
          exact kept.sessions _ _ found
    · rw [ServerTable.find] at accepted
      split at accepted
      · cases accepted
      · split at accepted <;> cases accepted
  · exact kept

theorem loadOrStore (index : Nat) : (run.step limits (.loadOrStore index)).Kept := by
  rw [ServerRun.step]
  split
  next hello session listed =>
    have owner := kept.held index _ session listed (.inl rfl)
    have inside : session < run.table.heap.length := by
      rw [kept.heap]
      exact (List.getElem?_eq_some_iff.mp owner).1
    have stored := kept.setTable (run.table.length_heap_loadOrStore session hello.nfsKey)
      (fun ticket session found => by rwa [ServerTable.sessions_loadOrStore] at found)
      (fun other key recorded => ServerTable.recorded_loadOrStore recorded session hello.nfsKey)
    dsimp only
    by_cases loaded : (run.table.loadOrStore session hello.nfsKey).1 = true
    · rw [if_pos loaded]
      refine stored.setProgress index _ _ (fun other holds => ?_) fun other accepted => ?_
      · rcases holds with ⟨⟨⟩⟩ | ⟨⟨⟩⟩
      · cases accepted
    · rw [if_neg loaded]
      obtain ⟨unseen, recorded⟩ :=
        ServerTable.recorded_of_not_loaded inside ((Bool.not_eq_true _).mp loaded)
      refine stored.setProgress index _ _ (fun other holds => ?_) fun other accepted => ?_
      · rcases holds with ⟨⟨⟩⟩ | ⟨⟨⟩⟩
        exact owner
      · cases accepted
        refine ⟨recorded, fun other entry listed accepted same => unseen ?_⟩
        rw [← same]
        exact kept.recorded other entry session listed accepted
  · exact kept

/-- Every event keeps it. -/
theorem step (event : ServerEvent) : (run.step limits event).Kept := by
  cases event with
  | issue now seconds ticket pfsKey => exact kept.issue now seconds ticket pfsKey
  | hello hello => exact kept.hello hello
  | lookup index => exact kept.lookup index
  | loadOrStore index => exact kept.loadOrStore index
  | cleanUp minute =>
    refine kept.setTable (by rw [ServerTable.heap_cleanUp]) ?_ ?_
    · exact fun ticket session found => ServerTable.sessions_cleanUp found
    · rintro session nfsKey ⟨found, here, member⟩
      exact ⟨found, by rw [ServerTable.heap_cleanUp, here], member⟩
  | close => exact kept.setTable rfl (fun _ _ found => found) fun _ _ recorded => recorded

end

end ServerRun.Kept

/-- The tickets with a session are among those that were issued. -/
theorem ServerRun.stored_sublist (limits : SessionSeconds) (events : List ServerEvent)
    (run : ServerRun) :
    (events.foldl (step limits) run).stored.Sublist
      (run.stored ++ events.filterMap ServerEvent.ticket) := by
  induction events generalizing run with
  | nil => simp
  | cons event rest ih =>
    refine (ih (run.step limits event)).trans ?_
    have here : (run.step limits event).stored.Sublist
        (run.stored ++ [event].filterMap ServerEvent.ticket) := by
      cases event with
      | issue now seconds ticket pfsKey =>
        rw [step]
        split
        · exact List.Sublist.refl _
        · exact sublist_append_left _ _
      | hello _ | cleanUp _ | close => exact sublist_append_left _ _
      | lookup index | loadOrStore index =>
        rw [step]
        split <;> exact sublist_append_left _ _
    have later := here.append_right (rest.filterMap ServerEvent.ticket)
    rwa [append_assoc, ← filterMap_append] at later

/-- A 0-RTT hello is accepted at most once: whatever the interleaving of handshakes and
clean-up, no two handshakes with the same ticket and key are accepted, as long as no ticket
is issued twice. -/
theorem zeroRTT_accepted_once (limits : SessionSeconds) (events : List ServerEvent)
    (distinct : (events.filterMap ServerEvent.ticket).Nodup) :
    (events.foldl (ServerRun.step limits) {}).accepted.Nodup := by
  have kept : (events.foldl (ServerRun.step limits) {}).Kept := by
    refine List.foldlRecOn events _ ?_ fun run kept event _ => kept.step event
    exact ⟨rfl, nofun, nofun, nofun, nofun⟩
  have owners : (events.foldl (ServerRun.step limits) {}).stored.Nodup :=
    (ServerRun.stored_sublist limits events {}).nodup distinct
  generalize events.foldl (ServerRun.step limits) {} = run at kept owners
  have session {handshake : ZeroRTT} {hello : ZeroRTTHello}
      (accepted : (match handshake.progress with
        | .accepted _ => some handshake.hello
        | .opened | .found _ | .refused _ => none) = some hello) :
      ∃ session, handshake.progress = .accepted session ∧ handshake.hello = hello := by
    split at accepted
    next session progress => exact ⟨session, progress, some.inj accepted⟩
    all_goals cases accepted
  rw [ServerRun.accepted, List.Nodup, pairwise_filterMap, pairwise_iff_getElem]
  rintro first second inside inside' before hello accepted _ accepted' rfl
  obtain ⟨own, progress, same⟩ := session accepted
  obtain ⟨other, progress', same'⟩ := session accepted'
  have listed := getElem?_eq_getElem inside
  have listed' := getElem?_eq_getElem inside'
  have owner := kept.held first _ own listed (.inr progress)
  have owner' := kept.held second _ other listed' (.inr progress')
  rw [same] at owner
  rw [same'] at owner'
  have unique : own = other :=
    (getElem?_inj (List.getElem?_eq_some_iff.mp owner).1 owners).mp (owner.trans owner'.symm)
  subst unique
  refine Nat.ne_of_lt before
    (kept.once first second _ _ own listed listed' progress progress' ?_)
  rw [same, same']

/-- Two handshakes with the same hello hold the session when the clean-up removes it; one of
them is accepted. -/
theorem zeroRTT_accepted_once_removed :
    (ServerRun.accepted ([.issue 0 60 [1] [2], .hello ⟨[1], [3]⟩, .hello ⟨[1], [3]⟩, .lookup 0,
      .lookup 1, .cleanUp 3, .loadOrStore 1, .loadOrStore 0].foldl
        (ServerRun.step { secondsFrom := 60, secondsTo := 60 }) {})).Nodup ∧
    ServerRun.accepted ([.issue 0 60 [1] [2], .hello ⟨[1], [3]⟩, .hello ⟨[1], [3]⟩, .lookup 0,
      .lookup 1, .cleanUp 3, .loadOrStore 1, .loadOrStore 0].foldl
        (ServerRun.step { secondsFrom := 60, secondsTo := 60 }) {}) = [⟨[1], [3]⟩] :=
  ⟨zeroRTT_accepted_once _ _ (by decide), by decide⟩

/-- A hello is accepted only with a ticket that the server has given out. -/
theorem accepted_issued (limits : SessionSeconds) (events : List ServerEvent)
    (hello : ZeroRTTHello) (session : Nat)
    (accepted : ⟨hello, .accepted session⟩ ∈ (events.foldl (ServerRun.step limits) {}).handshakes) :
    hello.ticket ∈ events.filterMap ServerEvent.ticket := by
  obtain ⟨index, listed⟩ := mem_iff_getElem?.mp accepted
  have kept : (events.foldl (ServerRun.step limits) {}).Kept :=
    List.foldlRecOn events _ ⟨rfl, nofun, nofun, nofun, nofun⟩ fun run kept event _ =>
      kept.step event
  have stored := kept.held index _ session listed (.inr rfl)
  exact (ServerRun.stored_sublist limits events {}).subset (mem_of_getElem? stored)

/-- The second of two tickets is used, after a clean-up. -/
theorem accepted_issued_second :
    [7] ∈ [ServerEvent.issue 0 60 [1] [2], .issue 1 60 [7] [2], .cleanUp 2, .hello ⟨[7], [3]⟩,
      .lookup 0, .loadOrStore 0].filterMap ServerEvent.ticket :=
  accepted_issued { secondsFrom := 60, secondsTo := 60 } _ ⟨[7], [3]⟩ 1 (by decide)

end Encryption

end SingBox
