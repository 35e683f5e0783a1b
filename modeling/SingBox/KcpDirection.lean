/-
This file follows one direction of an mKCP session through every action. The sender
only drops segments that the peer has answered for, as long as it is active; the
receiver only stores segments that have been sent, and takes them in the order of
their numbers; and its answers are about segments that it has.

An action concerns the sending half and the receiving half of its end. Each half has
its own description of what an action can do, and the invariant of a direction is
kept by each of the two.
-/

import SingBox.Log
import SingBox.Kcp

namespace SingBox

open List Log Option

namespace Kcp

open SendingWorker Connection DataSegment

/-! ### The sending half -/

/-- What the window knows of a segment. -/
def DataSegment.key (segment : DataSegment) : UInt32 × List UInt8 :=
  (segment.number, segment.payload)

def SendingWorker.keys (worker : SendingWorker) : List (UInt32 × List UInt8) :=
  worker.window.cache.map DataSegment.key

/-- A worker keeps its segments, but for some of those whose number satisfies a condition. -/
structure Kept (gone : UInt32 → Prop) (before after : SendingWorker) : Prop where
  next : after.nextNumber = before.nextNumber
  old : ∀ key ∈ after.keys, key ∈ before.keys
  left : ∀ key ∈ before.keys, key ∈ after.keys ∨ gone key.1

variable {gone : UInt32 → Prop} {before middle after : SendingWorker}

theorem Kept.of_keys (next : after.nextNumber = before.nextNumber)
    (same : after.keys = before.keys) : Kept gone before after :=
  ⟨next, fun _ member => same ▸ member, fun _ member => .inl (same ▸ member)⟩

theorem Kept.refl : Kept gone before before := .of_keys rfl rfl

theorem Kept.trans (first : Kept gone before middle) (second : Kept gone middle after) :
    Kept gone before after where
  next := second.next.trans first.next
  old key member := first.old key (second.old key member)
  left key member := by
    rcases first.left key member with kept | dropped
    · exact second.left key kept
    · exact .inr dropped

theorem Kept.mono {also : UInt32 → Prop} (kept : Kept gone before after)
    (weaker : ∀ number, gone number → also number) : Kept also before after := { kept with
  left key member := (kept.left key member).imp_right (weaker key.1) }

theorem mem_dropWhile_or {Value : Type} (test : Value → Bool) {value : Value}
    {values : List Value} (member : value ∈ values) :
    value ∈ values.dropWhile test ∨ test value = true := by
  rw [← takeWhile_append_dropWhile (p := test) (l := values), mem_append] at member
  rcases member with front | rest
  · exact .inr (mem_takeWhile_imp front)
  · exact .inl rest

theorem kept_clear (worker : SendingWorker) (una : UInt32) :
    Kept (· < una) worker { worker with window := worker.window.clear una } where
  next := rfl
  old key member := by
    obtain ⟨segment, listed, rfl⟩ := mem_map.mp member
    exact mem_map_of_mem ((dropWhile_suffix _).subset listed)
  left key member := by
    obtain ⟨segment, listed, rfl⟩ := mem_map.mp member
    rcases mem_dropWhile_or (fun segment => decide (segment.number < una)) listed with
      kept | below
    · exact .inl (mem_map_of_mem kept)
    · exact .inr (of_decide_eq_true below)

theorem map_key_fastAck (number rto : UInt32) (cache : List DataSegment) :
    (fastAck number rto cache).map key = cache.map key := by
  induction cache with
  | nil => rfl
  | cons segment rest ih =>
    rw [fastAck]
    by_cases reached : number = segment.number ∨ number - segment.number > 0x7FFFFFFF
    · rw [if_pos reached]
    · rw [if_neg reached, map_cons, map_cons, ih]
      split_ifs <;> rfl

/-- The visitor of `Flush` keeps the segments of the window, and writes only those. -/
theorem visitFlush_keys {stamp : DataSegment → DataSegment}
    (stamped : ∀ segment, (stamp segment).key = segment.key)
    (current rto maxInFlightSize : UInt32) (cache : List DataSegment)
    (total lost inFlight : UInt32) :
    (visitFlush stamp current rto maxInFlightSize cache total lost inFlight).cache.map
        key = cache.map key ∧
      ∀ segment ∈ (visitFlush stamp current rto maxInFlightSize cache total lost inFlight).written,
        segment.key ∈ cache.map key := by
  induction cache generalizing total lost inFlight with
  | nil => exact ⟨rfl, nofun⟩
  | cons segment rest ih =>
    rw [visitFlush]
    by_cases waiting : current - segment.timeout ≥ 0x7FFFFFFF
    · rw [if_pos waiting]
      obtain ⟨keys, written⟩ := ih total lost inFlight
      exact ⟨congrArg (segment.key :: ·) keys, fun other member =>
        mem_cons_of_mem _ (written other member)⟩
    · split_ifs
      all_goals
        first
        | refine ⟨by rw [map_cons, map_cons, stamped, (ih _ _ _).1]; rfl,
            fun other member => ?_⟩
          rcases mem_cons.mp member with rfl | member
          · rw [stamped]
            exact mem_cons_self
          · exact mem_cons_of_mem _ ((ih _ _ _).2 other member)
        | refine ⟨by rw [map_cons, map_cons, stamped]; rfl, fun other member => ?_⟩
          rw [mem_singleton.mp member, stamped]
          exact mem_cons_self

theorem removeNumber_split {number : UInt32} {cache rest : List DataSegment}
    (removed : removeNumber number cache = some rest) :
    ∃ front segment back, cache = front ++ segment :: back ∧ segment.number = number ∧
      rest = front ++ back := by
  induction cache generalizing rest with
  | nil => cases removed
  | cons segment cache ih =>
    rw [removeNumber] at removed
    split_ifs at removed with above found
    · cases removed
      exact ⟨[], segment, cache, rfl, found, rfl⟩
    · obtain ⟨inner, within, rfl⟩ := map_eq_some_iff.mp removed
      obtain ⟨front, target, back, rfl, numbered, rfl⟩ := ih within
      exact ⟨segment :: front, target, back, rfl, numbered, rfl⟩

section

variable (worker : SendingWorker)

theorem kept_processAck (number : UInt32) :
    Kept (· = number) worker (worker.processAck number).1 := by
  unfold processAck
  split_ifs
  · exact .refl
  · split
    · exact .refl
    next window removed =>
      obtain ⟨cache, within, rfl⟩ := map_eq_some_iff.mp removed
      obtain ⟨front, target, back, whole, numbered, rfl⟩ := removeNumber_split within
      refine ⟨rfl, fun key member => ?_, fun key member => ?_⟩
      · obtain ⟨segment, listed, rfl⟩ := mem_map.mp member
        refine mem_map_of_mem ?_
        rw [whole]
        rcases mem_append.mp listed with inFront | inBack
        · exact mem_append_left _ inFront
        · exact mem_append_right _ (mem_cons_of_mem _ inBack)
      · obtain ⟨segment, listed, rfl⟩ := mem_map.mp member
        rw [whole] at listed
        rcases mem_append.mp listed with inFront | inBack
        · exact .inl (mem_map_of_mem (mem_append_left _ inFront))
        · rcases mem_cons.mp inBack with rfl | inBack
          · exact .inr numbered
          · exact .inl (mem_map_of_mem (mem_append_right _ inBack))

theorem kept_processAcks (numbers : List UInt32) (maxack : UInt32) (maxackRemoved : Bool) :
    Kept (· ∈ numbers) worker (worker.processAcks numbers maxack maxackRemoved).1 := by
  induction numbers generalizing worker maxack maxackRemoved with
  | nil => exact .refl
  | cons number rest ih =>
    have first : Kept (· ∈ number :: rest) worker (worker.processAck number).1 :=
      (kept_processAck worker number).mono fun other same => same ▸ mem_cons_self
    rw [processAcks]
    split_ifs <;>
      exact first.trans ((ih _ _ _).mono fun _ => mem_cons_of_mem _)

/-- A segment answers for the numbers below the next number it gives and for those it lists. -/
def Segment.Answers (number : UInt32) : Segment → Prop
  | .data _ => False
  | .ack segment => number < segment.receivingNext ∨ number ∈ segment.numberList
  | .cmd segment => number < segment.receivingNext

theorem kept_processReceivingNext (nextNumber : UInt32) :
    Kept (· < nextNumber) worker (worker.processReceivingNext nextNumber) :=
  (kept_clear worker nextNumber).trans (.of_keys rfl rfl)

theorem kept_processSegment (roundTrip : RoundTripInfo) (current : UInt32) (segment : AckSegment)
    (rto : UInt32) : Kept (fun number => (Segment.ack segment).Answers number) worker
      (worker.processSegment roundTrip current segment rto).1 := by
  unfold processSegment
  by_cases closed : worker.closed
  · rw [if_pos closed]
    exact .refl
  · rw [if_neg closed]
    dsimp only
    have advanced : Kept (fun number => (Segment.ack segment).Answers number) worker
        { worker with
          remoteNextNumber := if worker.remoteNextNumber < segment.receivingWindow then
            segment.receivingWindow else worker.remoteNextNumber } := .of_keys rfl rfl
    have cleared := advanced.trans ((kept_processReceivingNext _ segment.receivingNext).mono
      fun number below => Or.inl below)
    generalize processReceivingNext _ _ = next at cleared ⊢
    have acked := cleared.trans ((kept_processAcks next segment.numberList 0 false).mono
      fun number listed => Or.inr listed)
    by_cases empty : segment.isEmpty
    · rw [if_pos empty]
      exact cleared
    · split_ifs
      · exact acked.trans (.of_keys rfl (map_key_fastAck _ _ _))
      · exact acked.trans (.of_keys rfl (map_key_fastAck _ _ _))
      · exact acked

theorem kept_closeWrite : Kept (fun _ => True) worker worker.closeWrite :=
  (kept_clear worker _).mono fun _ _ => trivial

theorem kept_release : Kept (fun _ => True) worker worker.release :=
  ⟨rfl, nofun, fun _ _ => .inr trivial⟩

theorem kept_onPacketLoss (config : Config) (roundTrip : RoundTripInfo) (lossRate : UInt32) :
    Kept gone worker (worker.onPacketLoss config roundTrip lossRate) := by
  unfold onPacketLoss
  split_ifs
  · exact .refl
  all_goals exact .of_keys rfl rfl

theorem flush_keys (config : Config) (roundTrip : RoundTripInfo) (conv : UInt16) (state : State)
    (current : UInt32) : Kept gone worker (worker.flush config roundTrip conv state current).1 ∧
      ∀ segment ∈ (worker.flush config roundTrip conv state current).2,
        segment.key ∈ worker.keys := by
  unfold flush
  split_ifs with closed empty
  · exact ⟨.refl, nofun⟩
  · exact ⟨.of_keys rfl rfl, nofun⟩
  · have visited := visitFlush_keys (fun segment => show (worker.stamp conv state segment).key =
      segment.key from rfl) current roundTrip.timeout (worker.cwnd config) worker.window.cache
      worker.window.totalInFlightSize 0 0
    have kept : Kept gone worker { worker with
        window := ⟨(visitFlush (worker.stamp conv state) current roundTrip.timeout
          (worker.cwnd config) worker.window.cache worker.window.totalInFlightSize 0 0).cache,
          (visitFlush (worker.stamp conv state) current roundTrip.timeout (worker.cwnd config)
            worker.window.cache worker.window.totalInFlightSize 0 0).totalInFlightSize⟩
        firstUnacknowledgedUpdated := false } := .of_keys rfl visited.1
    refine ⟨?_, visited.2⟩
    dsimp only
    split_ifs
    · exact kept.trans (kept_onPacketLoss _ _ _ _)
    · exact kept

end

/-! ### Changes of the state -/

/-- A connection changes its state: it does not become active again, a terminated connection
stays so, and segments are dropped only if it is not active any more. -/
structure Turned (before after : Connection) : Prop where
  receiving : after.receivingWorker = before.receivingWorker
  sending : Kept (fun _ => after.state ≠ .active) before.sendingWorker after.sendingWorker
  active : after.state = .active → before.state = .active
  ended : before.state = .terminated → after.state = .terminated

variable {conn : Connection} {data replies arriving : List Segment} {worker : ReceivingWorker}
  {entry : AckEntry} {listed : List UInt32} {state : AckFlush} {roundTrip : RoundTripInfo}

theorem Turned.refl : Turned conn conn := ⟨rfl, .refl, id, id⟩

theorem Turned.trans {first second third : Connection} (one : Turned first second)
    (two : Turned second third) : Turned first third where
  receiving := two.receiving.trans one.receiving
  sending := (one.sending.mono fun _ left active => left (two.active active)).trans two.sending
  active active := one.active (two.active active)
  ended ended := two.ended (one.ended ended)

section

variable (conn) (current : UInt32)

include conn current

theorem turned_setState (state : State) (passive : state ≠ .active)
    (running : conn.state ≠ .terminated) : Turned conn (conn.setState current state) := by
  have ended : conn.state = .terminated → (conn.setState current state).state = .terminated :=
    fun terminated => absurd terminated running
  cases state with
  | active => exact absurd rfl passive
  | readyToClose => exact ⟨rfl, .of_keys rfl rfl, nofun, ended⟩
  | peerClosed | terminating | peerTerminating | terminated =>
    exact ⟨rfl, (kept_closeWrite _).mono fun _ _ => nofun, nofun, ended⟩

theorem turned_handleOption (option : UInt8) : Turned conn (conn.handleOption current option) := by
  unfold handleOption onPeerClosed
  split_ifs
  · split
    · exact turned_setState _ current _ nofun (by simp [*])
    · exact turned_setState _ current _ nofun (by simp [*])
    · exact .refl
  · exact .refl

theorem turned_handleCommand (cmd : Command) : Turned conn (conn.handleCommand current cmd) := by
  fun_cases conn.handleCommand current cmd with
  | case5 | case6 => exact .refl
  | _ => exact turned_setState _ current _ nofun (by simp [*])

theorem turned_close : Turned conn (conn.close current) := by
  unfold close
  split
  · exact .refl
  · exact .refl
  · exact .refl
  all_goals exact turned_setState _ current _ nofun (by simp [*])

theorem turned_closeIdle : Turned conn (conn.closeIdle current) := by
  have closed : Turned conn (if conn.state = .active ∧ current - conn.lastIncomingTime ≥ 30000 then
      conn.close current else conn) := by
    split_ifs
    · exact turned_close conn current
    · exact .refl
  unfold closeIdle
  by_cases ready : (if conn.state = .active ∧ current - conn.lastIncomingTime ≥ 30000 then
      conn.close current else conn).state = .readyToClose ∧
      (if conn.state = .active ∧ current - conn.lastIncomingTime ≥ 30000 then
      conn.close current else conn).sendingWorker.window.cache.isEmpty
  · rw [if_pos ready]
    exact closed.trans (turned_setState _ current _ nofun (by simp [ready.1]))
  · rw [if_neg ready]
    exact closed

theorem turned_updateState : Turned conn (conn.updateState current).1 := by
  unfold updateState
  by_cases terminated : conn.state = .terminated
  · rw [if_pos terminated]
    exact .refl
  · have idle := turned_closeIdle conn current
    generalize conn.closeIdle current = closed at idle ⊢
    dsimp only
    by_cases terminating : closed.state = .terminating
    · split_ifs
      · exact idle.trans (turned_setState closed current .terminated nofun (by simp [terminating]))
      · exact idle.trans ⟨rfl, .refl, id, id⟩
    · by_cases peer : closed.state = .peerTerminating ∧ current - closed.stateBeginTime > 4000
      · have turned : Turned closed (closed.setState current .terminating) :=
          turned_setState _ current _ nofun (by simp [peer.1])
        split_ifs with ready
        · exact nomatch ready.1
        · exact idle.trans turned
      · split_ifs with ready
        · exact idle.trans (turned_setState closed current .terminating nofun (by simp [ready.1]))
        · exact idle

end

/-! ### The receiving half -/

/-- A worker is fed with segments that were sent: it stores some, and lists what it has. -/
structure Fed (data : List Segment) (before after : ReceivingWorker) : Prop where
  next : after.nextNumber = before.nextNumber
  leftOver : after.leftOver = before.leftOver
  stored : ∀ entry ∈ before.window.cache, entry ∈ after.window.cache
  cache : ∀ entry ∈ after.window.cache, entry ∈ before.window.cache ∨
    entry.1 = entry.2.number ∧ Segment.data entry.2 ∈ data
  listed : ∀ entry ∈ after.acklist.entries,
    (∃ old ∈ before.acklist.entries, old.number = entry.number) ∨
      ∃ stored ∈ after.window.cache, stored.1 = entry.number

theorem Fed.of_list {acklist : AckList}
    (listed : ∀ entry ∈ acklist.entries,
      ∃ old ∈ worker.acklist.entries, old.number = entry.number) :
    Fed data worker { worker with acklist } :=
  ⟨rfl, rfl, fun _ => id, fun _ => .inl, fun entry member => .inl (listed entry member)⟩

theorem Fed.refl : Fed data worker worker :=
  .of_list fun entry member => ⟨entry, member, rfl⟩

theorem Fed.trans {before middle after : ReceivingWorker} (first : Fed data before middle)
    (second : Fed data middle after) : Fed data before after where
  next := second.next.trans first.next
  leftOver := second.leftOver.trans first.leftOver
  stored entry member := second.stored entry (first.stored entry member)
  cache entry member := by
    rcases second.cache entry member with old | fresh
    · exact first.cache entry old
    · exact .inr fresh
  listed entry member := by
    rcases second.listed entry member with ⟨old, earlier, same⟩ | stored
    · rcases first.listed old earlier with ⟨older, earliest, equal⟩ | ⟨kept, within, equal⟩
      · exact .inl ⟨older, earliest, equal.trans same⟩
      · exact .inr ⟨kept, second.stored kept within, equal.trans same⟩
    · exact .inr stored

theorem mem_clear {list : AckList} {una : UInt32} (member : entry ∈ (list.clear una).entries) :
    entry ∈ list.entries :=
  mem_of_mem_filter member

theorem fed_processSendingNext (data : List Segment) (worker : ReceivingWorker)
    (number : UInt32) : Fed data worker (worker.processSendingNext number) :=
  .of_list fun entry member => ⟨entry, mem_clear member, rfl⟩

theorem mem_set (window : ReceivingWindow) (segment : DataSegment) :
    ∃ stored ∈ (window.set segment.number segment).cache, stored.1 = segment.number := by
  unfold ReceivingWindow.set
  split_ifs with present
  · obtain ⟨value, found⟩ := isSome_iff_exists.mp present
    obtain ⟨front, back, whole, -⟩ := lookup_eq_some_iff.mp found
    rw [whole]
    exact ⟨(segment.number, value), mem_append_right _ mem_cons_self, rfl⟩
  · exact ⟨_, mem_append_right _ mem_cons_self, rfl⟩

theorem fed_processSegment (worker : ReceivingWorker) {segment : DataSegment}
    (sent : Segment.data segment ∈ data) : Fed data worker (worker.processSegment segment) := by
  unfold ReceivingWorker.processSegment
  split_ifs with outside
  · exact .refl
  · refine ⟨rfl, rfl, fun entry member => ?_, fun entry member => ?_, fun entry member => ?_⟩
    · unfold ReceivingWindow.set
      split_ifs
      · exact member
      · exact mem_append_left _ member
    · unfold ReceivingWindow.set at member
      split_ifs at member
      · exact .inl member
      · rcases mem_snoc member with old | rfl
        · exact .inl old
        · exact .inr ⟨rfl, sent⟩
    · rcases mem_snoc member with old | rfl
      · exact .inl ⟨entry, mem_clear old, rfl⟩
      · exact .inr (mem_set worker.window segment)

/-! ### Acknowledgements -/

def numbers (entries : List AckEntry) : List UInt32 := entries.map AckEntry.number

/-- What the loop of `AckList.Flush` keeps for the entries it has visited. -/
structure AckFlush.Within (listed : List UInt32) (state : AckFlush) : Prop where
  entries : ∀ entry ∈ state.entries, entry.number ∈ listed
  segment : ∀ number ∈ state.segment.numberList, number ∈ listed
  candidates : ∀ number ∈ state.candidates, number ∈ listed
  written : ∀ segment ∈ state.written, ∀ number ∈ segment.numberList, number ∈ listed

theorem numberList_putTimestamp (segment : AckSegment) (timestamp : UInt32) :
    (segment.putTimestamp timestamp).numberList = segment.numberList := by
  unfold AckSegment.putTimestamp
  split_ifs <;> rfl

theorem AckFlush.Within.visit (within : state.Within listed) (current rto : UInt32)
    (member : entry.number ∈ listed) : (state.visit current rto entry).Within listed := by
  have put : ∀ number ∈ ((state.segment.putNumber entry.number).putTimestamp
      entry.timestamp).numberList, number ∈ listed := by
    intro number inList
    rw [numberList_putTimestamp] at inList
    rcases mem_snoc inList with old | rfl
    · exact within.segment number old
    · exact member
  have visited (nextFlush : UInt32) : ∀ other ∈ state.entries ++ [{ entry with
      nextFlush }], other.number ∈ listed := by
    intro other inList
    rcases mem_snoc inList with old | rfl
    · exact within.entries other old
    · exact member
  unfold AckFlush.visit
  by_cases later : entry.nextFlush > current
  · rw [if_pos later]
    refine ⟨visited entry.nextFlush, within.segment, fun number inList => ?_, within.written⟩
    split_ifs at inList
    · rcases mem_snoc inList with old | rfl
      · exact within.candidates number old
      · exact member
    · exact within.candidates number inList
  · dsimp only
    split_ifs
    all_goals
      first
      | refine ⟨visited _, nofun, within.candidates, fun segment inList => ?_⟩
        rcases mem_snoc inList with old | rfl
        · exact within.written segment old
        · exact put
      | exact ⟨visited _, put, within.candidates, within.written⟩

theorem AckFlush.Within.fold (within : state.Within listed) (current rto : UInt32)
    (entries : List AckEntry) (members : ∀ entry ∈ entries, entry.number ∈ listed) :
    (entries.foldl (AckFlush.visit current rto) state).Within listed := by
  induction entries generalizing state with
  | nil => exact within
  | cons entry rest ih =>
    exact ih (within.visit current rto (members entry mem_cons_self))
      fun other member => members other (mem_cons_of_mem _ member)

theorem mem_candidates {candidates : List UInt32} {segment : AckSegment}
    (inside : ∀ number ∈ segment.numberList, number ∈ listed)
    (members : ∀ number ∈ candidates, number ∈ listed) :
    ∀ number ∈ (candidates.foldl (fun segment number => if segment.isFull then segment
      else segment.putNumber number) segment).numberList, number ∈ listed := by
  induction candidates generalizing segment with
  | nil => exact inside
  | cons candidate rest ih =>
    refine ih (fun number inList => ?_) fun other member => members other (mem_cons_of_mem _ member)
    dsimp only at inList
    split_ifs at inList
    · exact inside number inList
    · rcases mem_snoc inList with old | rfl
      · exact inside number old
      · exact members _ mem_cons_self

/-- What a flush of the list keeps and writes are numbers of the list. -/
theorem ackFlush_within (list : AckList) (current rto : UInt32) :
    (∀ entry ∈ (list.flush current rto).1.entries, entry.number ∈ numbers list.entries) ∧
      ∀ segment ∈ (list.flush current rto).2, ∀ number ∈ segment.numberList,
        number ∈ numbers list.entries := by
  have within : ({ dirty := list.dirty } : AckFlush).Within (numbers list.entries) :=
    ⟨nofun, nofun, nofun, nofun⟩
  have visited := within.fold current rto list.entries fun entry member => mem_map_of_mem member
  unfold AckList.flush
  dsimp only
  split_ifs
  · refine ⟨visited.entries, fun segment member => ?_⟩
    rcases mem_snoc member with old | rfl
    · exact visited.written segment old
    · exact mem_candidates visited.segment visited.candidates
  · exact ⟨visited.entries, visited.written⟩

/-! ### What an action can do -/

/-- A number for which one of the segments answers. -/
def Answered (replies : List Segment) (number : UInt32) : Prop :=
  ∃ reply ∈ replies, reply.Answers number

/-- What a change of a connection means for its sending half, where the given segments can
arrive. -/
structure Sending (replies : List Segment) (before after : Connection) : Prop where
  active : after.state = .active → before.state = .active
  kept : Kept (fun number => after.state = .active → Answered replies number)
    before.sendingWorker after.sendingWorker

/-- What it means for its receiving half. -/
structure Receiving (data : List Segment) (before after : Connection) : Prop where
  ended : before.state = .terminated → after.state = .terminated
  fed : Fed data before.receivingWorker after.receivingWorker

theorem Sending.trans {before middle after : Connection} (first : Sending replies before middle)
    (second : Sending replies middle after) : Sending replies before after where
  active active := first.active (second.active active)
  kept := (first.kept.mono fun _ answered active => answered (second.active active)).trans
    second.kept

theorem Receiving.trans {before middle after : Connection} (first : Receiving data before middle)
    (second : Receiving data middle after) : Receiving data before after where
  ended ended := second.ended (first.ended ended)
  fed := first.fed.trans second.fed

theorem Turned.sends {before after : Connection} (turned : Turned before after) :
    Sending replies before after :=
  ⟨turned.active, turned.sending.mono fun _ left active => absurd active left⟩

theorem Turned.receives {before after : Connection} (turned : Turned before after) :
    Receiving data before after :=
  ⟨turned.ended, turned.receiving ▸ .refl⟩

/-- A change of the sending worker alone, in which segments are dropped that are answered for. -/
theorem Sending.of_worker {worker : SendingWorker} {receiving : ReceivingWorker}
    (kept : Kept (Answered replies) conn.sendingWorker worker) : Sending replies conn { conn with
      sendingWorker := worker, roundTrip, receivingWorker := receiving } :=
  ⟨id, kept.mono fun _ answered _ => answered⟩

theorem Receiving.of_worker {sending : SendingWorker} (fed : Fed data conn.receivingWorker worker) :
    Receiving data conn { conn with
      receivingWorker := worker, roundTrip, sendingWorker := sending } :=
  ⟨id, fed⟩

theorem inputSegment_halves (conn : Connection) (current : UInt32) {segment : Segment}
    (member : segment ∈ arriving) : Sending arriving conn (conn.inputSegment current segment) ∧
      Receiving arriving conn (conn.inputSegment current segment) := by
  cases segment with
  | data segment =>
    have turned := turned_handleOption conn current segment.option
    exact ⟨turned.sends.trans (.of_worker .refl),
      turned.receives.trans (.of_worker (fed_processSegment _ member))⟩
  | ack segment =>
    have turned := turned_handleOption conn current segment.option
    exact ⟨turned.sends.trans (.of_worker ((kept_processSegment _ _ _ _ _).mono
      fun number answers => ⟨_, member, answers⟩)), turned.receives.trans (.of_worker .refl)⟩
  | cmd segment =>
    have turned := (turned_handleOption conn current segment.option).trans
      (turned_handleCommand _ current segment.cmd)
    exact ⟨turned.sends.trans (.of_worker ((kept_processReceivingNext _ _).mono
      fun number answers => ⟨_, member, answers⟩)),
      turned.receives.trans (.of_worker (fed_processSendingNext _ _ _))⟩

theorem inputSegments_halves (conn : Connection) (current : UInt32) {segments : List Segment}
    (members : ∀ segment ∈ segments, segment ∈ arriving) :
    Sending arriving conn (conn.inputSegments current segments) ∧
      Receiving arriving conn (conn.inputSegments current segments) := by
  induction segments generalizing conn with
  | nil => exact ⟨Turned.refl.sends, Turned.refl.receives⟩
  | cons segment rest ih =>
    rw [inputSegments]
    split_ifs
    · exact ⟨Turned.refl.sends, Turned.refl.receives⟩
    · have first := inputSegment_halves conn current (members segment mem_cons_self)
      have others := ih (conn.inputSegment current segment)
        fun other member => members other (mem_cons_of_mem _ member)
      exact ⟨first.1.trans others.1, first.2.trans others.2⟩

/-- What an action does to the sending half of its end: the window loses what was answered for,
or it gets one more segment. -/
inductive SendingStep (replies : List Segment) (before after : Endpoint) (written : List Segment) :
    Prop where
  | keeps (accepted : after.accepted = before.accepted)
      (sending : Sending replies before.conn after.conn)
      (data : ∀ segment, .data segment ∈ written → segment.key ∈ before.conn.sendingWorker.keys)
  | pushes (b : List UInt8) (accepted : after.accepted = before.accepted ++ [b])
      (state : after.conn.state = before.conn.state)
      (next : after.conn.sendingWorker.nextNumber = before.conn.sendingWorker.nextNumber + 1)
      (keys : after.conn.sendingWorker.keys =
        before.conn.sendingWorker.keys ++ [(before.conn.sendingWorker.nextNumber, b)])
      (data : written = [])

/-- What it does to the receiving half: segments arrive and answers are written, or `Read` takes
segments, or what is left over is released at the end. -/
inductive ReceivingStep (data : List Segment) (before after : Endpoint) (written : List Segment) :
    Prop where
  | feeds (taken : after.taken = before.taken) (returned : after.returned = before.returned)
      (receiving : Receiving data before.conn after.conn)
      (replies : ∀ reply ∈ written, ∀ number, reply.Answers number →
        number < after.conn.receivingWorker.nextNumber ∨
          number ∈ numbers before.conn.receivingWorker.acklist.entries)
  | reads (size : Nat) (open' : before.conn.readCloses = false) (same : after = before.read size)
      (replies : written = [])
  | releases (ended : before.conn.state = .terminated)
      (same : after = { before with conn := before.conn.terminate }) (replies : written = [])

theorem SendingStep.of_quiet {before after : Endpoint}
    (accepted : after.accepted = before.accepted)
    (sending : Sending replies before.conn after.conn) : SendingStep replies before after [] :=
  .keeps accepted sending nofun

theorem ReceivingStep.of_quiet {before after : Endpoint} (taken : after.taken = before.taken)
    (returned : after.returned = before.returned)
    (receiving : Receiving data before.conn after.conn) : ReceivingStep data before after [] :=
  .feeds taken returned receiving nofun

theorem Pool.fill_eq_take (pool : Pool) (rest : List UInt8) (size : Nat) :
    pool.fill (rest.take size) = rest.take (pool.fill (rest.take size)).length :=
  prefix_iff_eq_take.mp ((pool.front _).trans <| take_prefix _ _)

theorem push_halves (pool : Pool) (endpoint : Endpoint) (id : Nat) (arriving : List Segment) :
    SendingStep arriving endpoint (endpoint.push pool id) [] ∧
      ReceivingStep arriving endpoint (endpoint.push pool id) [] := by
  have quiet (calls : Nat → Option Call) :
      SendingStep arriving endpoint { endpoint with calls } [] ∧
        ReceivingStep arriving endpoint { endpoint with calls } [] :=
    ⟨.of_quiet rfl Turned.refl.sends, .of_quiet rfl rfl Turned.refl.receives⟩
  unfold Endpoint.push
  cases endpoint.calls id with
  | none => exact quiet endpoint.calls
  | some call =>
    dsimp only
    have filled := pool.fill_eq_take (call.buffer.drop call.totalWritten) endpoint.conn.mss.toNat
    generalize call.buffer.drop call.totalWritten = rest at filled ⊢
    generalize pool.fill (rest.take endpoint.conn.mss.toNat) = buffer at filled ⊢
    by_cases ended : rest = [] ∨ buffer = []
    · rw [if_pos ended]
      exact quiet _
    · rw [if_neg ended, ← filled]
      cases pushed : endpoint.conn.sendingWorker.push buffer with
      | none =>
        split_ifs
        · exact quiet _
        · exact quiet endpoint.calls
      | some worker =>
        unfold push at pushed
        split_ifs at pushed
        cases pushed
        exact ⟨.pushes buffer rfl rfl rfl map_append rfl, .of_quiet rfl rfl (.of_worker .refl)⟩

theorem updateState_pings {current : UInt32} {segment : CmdOnlySegment}
    (member : segment ∈ (conn.updateState current).2) :
    segment.receivingNext = conn.receivingWorker.nextNumber := by
  unfold updateState at member
  have idle := (turned_closeIdle conn current).receiving
  generalize conn.closeIdle current = closed at idle member
  dsimp only at member
  split_ifs at member
  all_goals
    first
    | rw [mem_singleton.mp member, ← idle]
      rfl
    | cases member

theorem react_halves (pool : Pool) (endpoint : Endpoint) (arriving : List Segment)
    (action : Action) :
    SendingStep arriving endpoint (react pool endpoint arriving action).1
        (react pool endpoint arriving action).2 ∧
      ReceivingStep arriving endpoint (react pool endpoint arriving action).1
        (react pool endpoint arriving action).2 := by
  have quiet (calls : Nat → Option Call) {conn : Connection} (turned : Turned endpoint.conn conn) :
      SendingStep arriving endpoint { endpoint with conn, calls } [] ∧
        ReceivingStep arriving endpoint { endpoint with conn, calls } [] :=
    ⟨.of_quiet rfl turned.sends, .of_quiet rfl rfl turned.receives⟩
  cases action with
  | write call b =>
    rw [react]
    split_ifs
    · exact quiet _ .refl
    · exact quiet endpoint.calls .refl
  | push call => exact push_halves pool endpoint call arriving
  | giveUp call => exact quiet _ .refl
  | read size =>
    rw [react, Endpoint.read]
    by_cases closes : endpoint.conn.readCloses
    · rw [if_pos closes]
      exact quiet endpoint.calls .refl
    · refine ⟨?_, .reads size (by simpa using closes) (by rw [Endpoint.read]) rfl⟩
      rw [if_neg closes]
      exact .of_quiet rfl ⟨id, .refl⟩
  | flushReceiving current =>
    have flushed := ackFlush_within endpoint.conn.receivingWorker.acklist current
      endpoint.conn.roundTrip.timeout
    refine ⟨.keeps rfl ⟨id, .refl⟩ fun segment member => ?_,
      .feeds rfl rfl ⟨id, .of_list fun entry member => ?_⟩ fun reply member number answers => ?_⟩
    · obtain ⟨ack, -, wrong⟩ := mem_map.mp member
      cases wrong
    · obtain ⟨old, listed, same⟩ := mem_map.mp (flushed.1 entry member)
      exact ⟨old, listed, same⟩
    · obtain ⟨ack, listed, rfl⟩ := mem_map.mp member
      obtain ⟨inner, within, rfl⟩ := mem_map.mp listed
      rcases answers with below | inside
      · exact .inl below
      · exact .inr (flushed.2 inner within number inside)
  | flushSending current =>
    have flushed := @flush_keys (Answered arriving) endpoint.conn.sendingWorker
      endpoint.conn.config endpoint.conn.roundTrip endpoint.conn.conversation endpoint.conn.state
      current
    refine ⟨.keeps rfl (.of_worker flushed.1) fun segment member => ?_,
      .feeds rfl rfl ⟨id, .refl⟩ fun reply member number answers => ?_⟩
    · obtain ⟨data, listed, same⟩ := mem_map.mp member
      cases same
      exact flushed.2 data listed
    · obtain ⟨data, -, rfl⟩ := mem_map.mp member
      exact answers.elim
  | ping current =>
    refine ⟨.keeps rfl ⟨id, .refl⟩ nofun,
      .feeds rfl rfl ⟨id, .refl⟩ fun reply member number answers => ?_⟩
    rw [mem_singleton.mp member] at answers
    exact .inl answers
  | updateState current =>
    have turned := turned_updateState endpoint.conn current
    refine ⟨.keeps rfl turned.sends fun segment member => ?_,
      .feeds rfl rfl turned.receives fun reply member number answers => ?_⟩
    · obtain ⟨cmd, -, wrong⟩ := mem_map.mp member
      cases wrong
    · obtain ⟨cmd, listed, rfl⟩ := mem_map.mp member
      refine .inl (lt_of_lt_of_eq (show number < cmd.receivingNext from answers) ?_)
      rw [updateState_pings listed]
      exact congrArg _ turned.receiving.symm
  | input current segments =>
    rw [react]
    split_ifs with arrives
    · have stamped : Turned endpoint.conn { endpoint.conn with lastIncomingTime := current } :=
        ⟨rfl, .refl, id, id⟩
      have halves := inputSegments_halves { endpoint.conn with lastIncomingTime := current }
        current arrives
      exact ⟨.of_quiet rfl (stamped.sends.trans halves.1),
        .of_quiet rfl rfl (stamped.receives.trans halves.2)⟩
    · exact quiet endpoint.calls .refl
  | close current => exact quiet endpoint.calls (turned_close endpoint.conn current)
  | terminate =>
    rw [react]
    split_ifs with ended
    · refine ⟨.of_quiet rfl ⟨id, (kept_release _).mono fun number _ active => ?_⟩,
        .releases ended rfl rfl⟩
      exact nomatch ended.symm.trans active
    · exact quiet endpoint.calls .refl

end Kcp

end SingBox
