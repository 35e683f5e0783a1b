/-
This file settles when the sender of mKCP may drop a segment from its window. While
it is active and at most `2 ^ 32` segments were accepted, every segment is in the
window, or the receiver has stored it or taken it.

The bound is sharp. `Clear` compares numbers as they are: after `2 ^ 32` segments that
were all answered one by one, the next segment has the number zero, and a late answer
from before the wrap clears it from the window although nobody has received it.
-/

import SingBox.KcpStream

namespace SingBox

open List Machine

namespace Kcp

open Duplex (Side)

/-- While the sender is active, a segment is in its window, or stored or taken by the receiver,
if the numbers of 32 bits tell the segments apart. -/
theorem kcp_keeps (pool : Pool) (conversation : UInt16) (overhead : Side → UInt32)
    (config : Side → Config) (events : List (Side × Action)) (side : Side)
    (active : ((run pool (newSession conversation overhead config) events).ends
      side).conn.state = .active)
    (few : ((run pool (newSession conversation overhead config) events).ends
      side).accepted.length ≤ 2 ^ 32) (index : Nat) (b : List UInt8)
    (accepted : ((run pool (newSession conversation overhead config) events).ends
      side).accepted[index]? = some b) :
    (∃ segment ∈ ((run pool (newSession conversation overhead config) events).ends
        side).conn.sendingWorker.window.cache,
        segment.number = UInt32.ofNat index ∧ segment.payload = b) ∨
      (∃ entry ∈ ((run pool (newSession conversation overhead config) events).ends
        side.other).conn.receivingWorker.window.cache,
        entry.2.number = UInt32.ofNat index ∧ entry.2.payload = b) ∨
      ((run pool (newSession conversation overhead config) events).ends
        side.other).taken[index]? = some b := by
  have direction := direction_run pool conversation overhead config events side
  generalize (run pool (newSession conversation overhead config) events).ends side = sender at *
  generalize (run pool (newSession conversation overhead config) events).ends side.other =
    receiver at *
  have within : index < sender.accepted.length := (List.getElem?_eq_some_iff.mp accepted).1
  have alone {payload : List UInt8}
      (numbered : Numbered sender.accepted (UInt32.ofNat index, payload)) : payload = b := by
    obtain ⟨place, same, found⟩ := numbered
    have bound : place < sender.accepted.length := (List.getElem?_eq_some_iff.mp found).1
    have values := congrArg UInt32.toNat same
    rw [UInt32.toNat_ofNat', UInt32.toNat_ofNat', Nat.mod_eq_of_lt (by omega),
      Nat.mod_eq_of_lt (by omega)] at values
    rw [← values, accepted] at found
    exact (Option.some.inj found).symm
  rcases direction.kept active index within with ⟨key, member, number⟩ | below | stored
  · obtain ⟨segment, listed, rfl⟩ := mem_map.mp member
    refine .inl ⟨segment, listed, number, alone ?_⟩
    exact number ▸ direction.window segment.key member
  · rw [UInt32.toNat_ofNat', Nat.mod_eq_of_lt (by omega)] at below
    have taken := getElem?_eq_getElem below
    have same := direction.store.taken few index _ (by omega) taken
    rw [accepted] at same
    exact .inr (.inr (taken.trans same.symm))
  · obtain ⟨entry, member, number⟩ := stored
    obtain ⟨same, numbered⟩ := direction.store.cache entry member
    refine .inr (.inl ⟨entry, member, same.symm.trans number, alone ?_⟩)
    exact (same.symm.trans number) ▸ numbered

theorem kcp_keeps_threeBytes :
    ((run wholePool (newSession 0 (fun _ => 0) fun _ => {}) threeBytes).ends
        .client).accepted[0]? = some [1, 2, 3] ∧
      ((∃ segment ∈ ((run wholePool (newSession 0 (fun _ => 0) fun _ => {}) threeBytes).ends
        .client).conn.sendingWorker.window.cache,
        segment.number = UInt32.ofNat 0 ∧ segment.payload = [1, 2, 3]) ∨
      (∃ entry ∈ ((run wholePool (newSession 0 (fun _ => 0) fun _ => {}) threeBytes).ends
        .server).conn.receivingWorker.window.cache,
        entry.2.number = UInt32.ofNat 0 ∧ entry.2.payload = [1, 2, 3]) ∨
      ((run wholePool (newSession 0 (fun _ => 0) fun _ => {}) threeBytes).ends
        .server).taken[0]? = some [1, 2, 3]) :=
  ⟨by decide, kcp_keeps wholePool 0 (fun _ => 0) (fun _ => {}) threeBytes .client (by decide)
    (by decide) 0 [1, 2, 3] (by decide)⟩

/-! ### One segment at a time -/

/-- A client that is about to send the given number, with some segments in its window. -/
structure Sender (first next : UInt32) (cache : List DataSegment) (endpoint : Endpoint) :
    Prop where
  state : endpoint.conn.state = .active
  config : endpoint.conn.config = {}
  conversation : endpoint.conn.conversation = 0
  mss : endpoint.conn.mss = 1332
  calls : endpoint.calls 0 = none
  closed : endpoint.conn.sendingWorker.closed = false
  cache : endpoint.conn.sendingWorker.window.cache = cache
  first : endpoint.conn.sendingWorker.firstUnacknowledged = first
  next : endpoint.conn.sendingWorker.nextNumber = next

/-- What an end does in a row. -/
abbrev acts := Duplex.acts (react wholePool)

/-- A call of `Write` with one byte: the byte is pushed, and the call returns. -/
def writeByte (byte : UInt8) : List Action := [.write 0 [byte], .push 0, .push 0]

variable {endpoint : Endpoint} {number : UInt32} {arriving answers data : List Segment}
  {entries : List AckEntry} {segment : DataSegment} {session : Session}

theorem Sender.writeByte (idle : Sender number number [] endpoint) (arriving : List Segment)
    (byte : UInt8) : Sender number (number + 1) [{ number, payload := [byte] }]
        (acts endpoint arriving (writeByte byte)).1 ∧
      (acts endpoint arriving (writeByte byte)).1.accepted = endpoint.accepted ++ [[byte]] ∧
      (acts endpoint arriving (writeByte byte)).2 = [] := by
  have room : ¬ endpoint.conn.sendingWorker.window.len >
      endpoint.conn.sendingWorker.windowSize := by
    rw [SendingWindow.len, idle.cache]
    exact UInt32.not_lt.mpr (UInt32.zero_le)
  refine ⟨⟨?_, ?_, ?_, ?_, ?_, ?_, ?_, ?_, ?_⟩, ?_, ?_⟩ <;>
    simp [Duplex.acts, Kcp.writeByte, idle.calls, react, Endpoint.push, SendingWorker.push,
      SendingWindow.push, wholePool, idle.mss, idle.closed, room, idle.state, idle.config,
      idle.conversation, idle.cache, idle.first, idle.next]

/-- The segment with a number, sent while it is the only one in the window. -/
def oneByte (number : UInt32) (byte : UInt8) : DataSegment :=
  { number := number, sendingNext := number, payload := [byte] }

/-- The answer to that segment, before it is read. -/
def oneAck (number : UInt32) : AckSegment :=
  { receivingNext := number, receivingWindow := number + 3883, numberList := [number] }

theorem Sender.flush {byte : UInt8}
    (loaded : Sender number (number + 1) [{ number, payload := [byte] }] endpoint)
    (arriving : List Segment) : (∃ segment : DataSegment, segment.number = number ∧
      Sender number (number + 1) [segment]
        (react wholePool endpoint arriving (.flushSending 0)).1) ∧
      (react wholePool endpoint arriving (.flushSending 0)).1.accepted = endpoint.accepted ∧
      (react wholePool endpoint arriving (.flushSending 0)).2 = [.data (oneByte number byte)] := by
  refine ⟨⟨{ oneByte number byte with timeout := endpoint.conn.roundTrip.timeout, transmit := 1 },
    rfl, ⟨?_, ?_, ?_, ?_, ?_, ?_, ?_, ?_, ?_⟩⟩, ?_, ?_⟩ <;>
    simp [react, SendingWorker.flush, visitFlush, SendingWorker.stamp, SendingWorker.onPacketLoss,
      DataSegment.onWire, oneByte, loaded.state, loaded.config, loaded.conversation, loaded.mss,
      loaded.calls, loaded.closed, loaded.cache, loaded.first, loaded.next]

/-- A server that expects the given number, with what it has stored and what it has listed. -/
structure Receiver (number : UInt32) (cache : List (UInt32 × DataSegment))
    (entries : List AckEntry) (endpoint : Endpoint) : Prop where
  state : endpoint.conn.state = .active
  conversation : endpoint.conn.conversation = 0
  leftOver : endpoint.conn.receivingWorker.leftOver = none
  cache : endpoint.conn.receivingWorker.window.cache = cache
  entries : endpoint.conn.receivingWorker.acklist.entries = entries
  next : endpoint.conn.receivingWorker.nextNumber = number
  windowSize : endpoint.conn.receivingWorker.windowSize = 3883

attribute [local simp] Connection.input Connection.inputSegments Connection.inputSegment
  Connection.handleOption Segment.conversation segmentOptionClose AckSegment.isEmpty
  SendingWorker.processSegment SendingWorker.processReceivingNext SendingWindow.clear
  SendingWorker.findFirstUnacknowledged SendingWorker.processAcks SendingWorker.processAck

theorem react_arrived {segment : Segment} (arrived : segment ∈ arriving) :
    react wholePool endpoint arriving (.input 0 [segment]) =
      ({ endpoint with conn := endpoint.conn.input 0 [segment] }, []) :=
  if_pos fun _ member => mem_singleton.mp member ▸ arrived

theorem Receiver.input (waiting : Receiver number [] entries endpoint) (byte : UInt8)
    (old : ∀ entry ∈ entries, entry.number < number)
    (sent : .data (oneByte number byte) ∈ arriving) :
    Receiver number [(number, oneByte number byte)] [{ number, timestamp := 0 }]
        (react wholePool endpoint arriving (.input 0 [.data (oneByte number byte)])).1 ∧
      (react wholePool endpoint arriving (.input 0 [.data (oneByte number byte)])).1.taken =
        endpoint.taken ∧
      (react wholePool endpoint arriving (.input 0 [.data (oneByte number byte)])).2 = [] := by
  rw [react_arrived sent]
  refine ⟨⟨?_, ?_, ?_, ?_, ?_, ?_, ?_⟩, ?_, ?_⟩ <;>
    simp [oneByte, ReceivingWorker.processSegment, ReceivingWindow.set, AckList.clear, AckList.add,
      waiting.state, waiting.conversation, waiting.leftOver, waiting.cache, waiting.entries,
      waiting.next, waiting.windowSize]
  exact old

theorem Receiver.flush {cache : List (UInt32 × DataSegment)}
    (stored : Receiver number cache [{ number, timestamp := 0 }] endpoint)
    (arriving : List Segment) : (∃ nextFlush, Receiver number cache [⟨number, 0, nextFlush⟩]
        (react wholePool endpoint arriving (.flushReceiving 0)).1) ∧
      (react wholePool endpoint arriving (.flushReceiving 0)).1.taken = endpoint.taken ∧
      (react wholePool endpoint arriving (.flushReceiving 0)).2 = [.ack (oneAck number)] := by
  refine ⟨⟨if endpoint.conn.roundTrip.timeout / 2 < 20 then 20
    else endpoint.conn.roundTrip.timeout / 2, ⟨?_, ?_, ?_, ?_, ?_, ?_, ?_⟩⟩, ?_, ?_⟩ <;>
    simp [react, ReceivingWorker.flush, AckList.flush, AckFlush.visit, AckSegment.putNumber,
      AckSegment.putTimestamp, AckSegment.isFull, ackNumberLimit,
      ReceivingWorker.stamp, oneAck,
      stored.state, stored.conversation, stored.leftOver, stored.cache, stored.entries,
      stored.next, stored.windowSize]

theorem Receiver.read {byte : UInt8}
    (stored : Receiver number [(number, oneByte number byte)] entries endpoint)
    (arriving : List Segment) :
    Receiver (number + 1) [] entries (react wholePool endpoint arriving (.read 1)).1 ∧
      (react wholePool endpoint arriving (.read 1)).1.taken = endpoint.taken ++ [[byte]] ∧
      (react wholePool endpoint arriving (.read 1)).2 = [] := by
  refine ⟨⟨?_, ?_, ?_, ?_, ?_, ?_, ?_⟩, ?_, ?_⟩ <;>
    simp [react, Endpoint.read, Connection.readCloses, ReceivingWorker.read,
      ReceivingWorker.readMultiBuffer, ReceivingWorker.collect, ReceivingWindow.remove,
      ReceivingWorker.ready, splitBytes, oneByte,
      stored.state, stored.conversation, stored.leftOver, stored.cache, stored.entries,
      stored.next, stored.windowSize]

theorem Sender.acked (numbered : segment.number = number)
    (sent : Sender number (number + 1) [segment] endpoint)
    (answered : .ack (oneAck number) ∈ arriving) : Sender (number + 1) (number + 1) []
        (react wholePool endpoint arriving (.input 0 [.ack (oneAck number)])).1 ∧
      (react wholePool endpoint arriving (.input 0 [.ack (oneAck number)])).1.accepted =
        endpoint.accepted ∧
      (react wholePool endpoint arriving (.input 0 [.ack (oneAck number)])).2 = [] := by
  have wrapped : number - (number + 1) = 0xFFFFFFFF := by grind
  rw [react_arrived answered]
  refine ⟨⟨?_, ?_, ?_, ?_, ?_, ?_, ?_, ?_, ?_⟩, ?_, ?_⟩ <;>
    simp [oneAck, SendingWindow.remove, removeNumber, wrapped, numbered,
      SendingWindow.handleFastAck,
      sent.state, sent.config, sent.conversation, sent.mss,
      sent.calls, sent.closed, sent.cache, sent.first, sent.next]
  all_goals
    split_ifs <;> simp [fastAck]

/-! ### Rounds -/

/-- The client writes a byte and sends it; the server answers; the client drops it from its
window; and the server reads it. -/
def round (number : UInt32) : List (Side × Action) :=
  (writeByte 0).map (.client, ·) ++
    [(.client, .flushSending 0), (.server, .input 0 [.data (oneByte number 0)]),
      (.server, .flushReceiving 0), (.client, .input 0 [.ack (oneAck number)]), (.server, .read 1)]

/-- A session in which a number of bytes have been written, answered and read one by one. -/
structure Rounds (count : Nat) (session : Session) : Prop where
  client : Sender (UInt32.ofNat count) (UInt32.ofNat count) [] (session.ends .client)
  accepted : (session.ends .client).accepted.length = count
  server : ∃ entries, (∀ entry ∈ entries, entry.number.toNat < count) ∧
    Receiver (UInt32.ofNat count) [] entries (session.ends .server)
  taken : (session.ends .server).taken.length = count
  answers : ∀ number < count, .ack (oneAck (UInt32.ofNat number)) ∈ session.sent .server

/-- The ends of a session and what they have sent. -/
def Stage (client server : Endpoint) (data answers : List Segment) (session : Session) : Prop :=
  session.ends .client = client ∧ session.ends .server = server ∧ session.sent .client = data ∧
    session.sent .server = answers

theorem Stage.client {client server : Endpoint} (stage : Stage client server data answers session)
    (action : Action) : Stage (react wholePool client answers action).1 server
      (data ++ (react wholePool client answers action).2) answers
      (Duplex.step (react wholePool) session (.client, action)) := by
  obtain ⟨rfl, rfl, rfl, rfl⟩ := stage
  exact ⟨rfl, rfl, rfl, rfl⟩

theorem Stage.server {client server : Endpoint} (stage : Stage client server data answers session)
    (action : Action) : Stage client (react wholePool server data action).1 data
      (answers ++ (react wholePool server data action).2)
      (Duplex.step (react wholePool) session (.server, action)) := by
  obtain ⟨rfl, rfl, rfl, rfl⟩ := stage
  exact ⟨rfl, rfl, rfl, rfl⟩

theorem Stage.writes (session : Session) (byte : UInt8) :
    Stage (acts (session.ends .client) (session.sent .server) (writeByte byte)).1
      (session.ends .server)
      (session.sent .client ++
        (acts (session.ends .client) (session.sent .server) (writeByte byte)).2)
      (session.sent .server)
      (drive (Duplex.step (react wholePool)) session ((writeByte byte).map (Side.client, ·))) := by
  rw [Duplex.drive_acts]
  exact ⟨rfl, rfl, rfl, rfl⟩

theorem Rounds.round {count : Nat} (rounds : Rounds count session) (few : count < 2 ^ 32) :
    Rounds (count + 1) (run wholePool session (round (UInt32.ofNat count))) := by
  obtain ⟨client, accepted, ⟨entries, old, server⟩, taken, answers⟩ := rounds
  have number : (UInt32.ofNat count).toNat = count := by
    rw [UInt32.toNat_ofNat', Nat.mod_eq_of_lt few]
  have below : ∀ entry ∈ entries, entry.number < UInt32.ofNat count := by
    intro entry member
    rw [UInt32.lt_iff_toNat_lt, number]
    exact old entry member
  obtain ⟨loaded, grown, quiet⟩ := client.writeByte (session.sent .server) 0
  obtain ⟨⟨segment, numbered, flying⟩, same, data⟩ := loaded.flush (session.sent .server)
  have sent := (Stage.writes session 0).client (.flushSending 0)
  rw [quiet, data, append_nil] at sent
  obtain ⟨stored, unread, silent⟩ := server.input 0 below
    (mem_append_right (session.sent .client) mem_cons_self)
  obtain ⟨⟨nextFlush, listed⟩, still, answer⟩ := stored.flush
    (session.sent .client ++ [.data (oneByte (UInt32.ofNat count) 0)])
  have answered := (sent.server (.input 0 [.data (oneByte (UInt32.ofNat count) 0)])).server
    (.flushReceiving 0)
  rw [silent, answer, append_nil] at answered
  obtain ⟨dropped, kept, hushed⟩ := Sender.acked numbered flying
    (mem_append_right (session.sent .server) mem_cons_self)
  obtain ⟨done, read, mute⟩ := listed.read
    (session.sent .client ++ [.data (oneByte (UInt32.ofNat count) 0)])
  have ended := (answered.client (.input 0 [.ack (oneAck (UInt32.ofNat count))])).server (.read 1)
  rw [hushed, append_nil, mute, append_nil] at ended
  obtain ⟨clientEnd, serverEnd, -, answersEnd⟩ := ended
  refine ⟨?_, ?_, ⟨[⟨UInt32.ofNat count, 0, nextFlush⟩], ?_, ?_⟩, ?_, ?_⟩
  · rw [ofNat_succ]
    exact clientEnd ▸ dropped
  · refine (congrArg (fun endpoint => endpoint.accepted.length) clientEnd).trans ?_
    rw [kept, same, grown, length_append, accepted]
    rfl
  · intro entry member
    rw [mem_singleton.mp member]
    exact number.trans_lt (Nat.lt_succ_self count)
  · rw [ofNat_succ]
    exact serverEnd ▸ done
  · refine (congrArg (fun endpoint => endpoint.taken.length) serverEnd).trans ?_
    rw [read, still, unread, length_append, taken]
    rfl
  · intro earlier bound
    refine answersEnd ▸ ?_
    rcases Nat.lt_succ_iff_lt_or_eq.mp bound with before | rfl
    · exact mem_append_left _ (answers earlier before)
    · exact mem_concat_self

theorem run_append (pool : Pool) (start : Session) (first second : List (Side × Action)) :
    run pool start (first ++ second) = run pool (run pool start first) second :=
  drive_append _ _ _ _

def rounds (count : Nat) : List (Side × Action) :=
  (List.range count).flatMap fun number => round (UInt32.ofNat number)

theorem rounds_run (count : Nat) (few : count ≤ 2 ^ 32) :
    Rounds count (run wholePool (newSession 0 (fun _ => 0) fun _ => {}) (rounds count)) := by
  induction count with
  | zero =>
    exact ⟨⟨rfl, rfl, rfl, by decide, rfl, rfl, rfl, rfl, rfl⟩, rfl,
      ⟨[], nofun, ⟨rfl, rfl, rfl, rfl, rfl, rfl, by decide⟩⟩, rfl, nofun⟩
  | succ count ih =>
    have before := ih (Nat.le_of_succ_le few)
    rw [rounds, range_succ, flatMap_append, run_append, flatMap_cons, flatMap_nil, append_nil]
    exact before.round few

theorem Sender.forgets (late : UInt32) (above : segment.number < late)
    (far : 0x7FFFFFFF < late - 1) (loaded : Sender 0 1 [segment] endpoint)
    (answered : .ack (oneAck late) ∈ arriving) :
    Sender 1 1 [] (react wholePool endpoint arriving (.input 0 [.ack (oneAck late)])).1 ∧
      (react wholePool endpoint arriving (.input 0 [.ack (oneAck late)])).1.accepted =
        endpoint.accepted := by
  have positive : 0 < late := UInt32.lt_of_le_of_lt UInt32.zero_le above
  rw [react_arrived answered]
  refine ⟨⟨?_, ?_, ?_, ?_, ?_, ?_, ?_, ?_, ?_⟩, ?_⟩ <;>
    simp [oneAck, above, far, positive, loaded.state, loaded.config, loaded.conversation,
      loaded.mss, loaded.calls, loaded.closed, loaded.cache, loaded.first, loaded.next]

/-- One more byte is written, and an answer arrives once more. -/
def answeredAgain (late : UInt32) : List (Side × Action) :=
  (writeByte 1).map (.client, ·) ++ [(.client, .input 0 [.ack (oneAck late)])]

theorem Rounds.forgets {count : Nat} (full : count = 2 ^ 32) (rounds : Rounds count session) :
    Sender 1 1 [] ((run wholePool session (answeredAgain 0xFFFFFFFF)).ends .client) ∧
      ((run wholePool session (answeredAgain 0xFFFFFFFF)).ends .client).accepted[count]? =
        some [1] ∧
      (run wholePool session (answeredAgain 0xFFFFFFFF)).ends .server = session.ends .server := by
  obtain ⟨client, accepted, -, -, answers⟩ := rounds
  have zero : UInt32.ofNat count = 0 := by
    rw [full]
    rfl
  rw [zero] at client
  have answered : .ack (oneAck 0xFFFFFFFF) ∈ session.sent .server :=
    answers 0xFFFFFFFF (by omega)
  obtain ⟨loaded, grown, -⟩ := client.writeByte (session.sent .server) 1
  obtain ⟨forgotten, kept⟩ := Sender.forgets 0xFFFFFFFF (by decide) (by decide) loaded answered
  obtain ⟨clientEnd, serverEnd, -, -⟩ := (Stage.writes session 1).client
    (.input 0 [.ack (oneAck 0xFFFFFFFF)])
  refine ⟨clientEnd ▸ forgotten, ?_, serverEnd⟩
  refine (congrArg (fun endpoint => endpoint.accepted[count]?) clientEnd).trans ?_
  rw [kept, grown, ← accepted]
  simp

/-- After `2 ^ 32` rounds the client writes one more byte, and the answer to the byte before it
arrives once more. -/
def lateAnswer : List (Side × Action) :=
  rounds (2 ^ 32) ++ answeredAgain 0xFFFFFFFF

/-- A segment is forgotten: the client is active and has accepted the byte, but it is neither in
the window of the client nor stored by the server, and the server has taken only the segments
before it. -/
theorem lateAnswer_forgets :
    ((run wholePool (newSession 0 (fun _ => 0) fun _ => {}) lateAnswer).ends .client).conn.state =
        .active ∧
      ((run wholePool (newSession 0 (fun _ => 0) fun _ => {}) lateAnswer).ends
        .client).accepted[2 ^ 32]? = some [1] ∧
      ((run wholePool (newSession 0 (fun _ => 0) fun _ => {}) lateAnswer).ends
        .client).conn.sendingWorker.window.cache = [] ∧
      ((run wholePool (newSession 0 (fun _ => 0) fun _ => {}) lateAnswer).ends
        .server).conn.receivingWorker.window.cache = [] ∧
      ((run wholePool (newSession 0 (fun _ => 0) fun _ => {}) lateAnswer).ends
        .server).taken.length = 2 ^ 32 := by
  have before := rounds_run (2 ^ 32) (Nat.le_refl _)
  rw [lateAnswer, run_append]
  generalize run wholePool (newSession 0 (fun _ => 0) fun _ => {}) (rounds (2 ^ 32)) = session
    at before ⊢
  obtain ⟨client, accepted, server⟩ := before.forgets rfl
  obtain ⟨-, -, ⟨entries, -, receiver⟩, taken, -⟩ := before
  rw [server]
  exact ⟨client.state, accepted, client.cache, receiver.cache, taken⟩

end Kcp

end SingBox
