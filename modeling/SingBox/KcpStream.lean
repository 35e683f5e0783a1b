/-
This file proves what mKCP promises for a direction. The invariant says that every
segment, in the window, on the way or stored by the receiver, carries what was
accepted under its number, that the receiver has taken the segments in the order of
their numbers, and that it has whatever it answers for.

Numbers have 32 bits, so they tell segments apart as long as at most `2 ^ 32` have
been accepted. For these the receiver reads a front of what was written, and no
segment is forgotten. With one more segment a late answer that is below the numbers
before the wrap is above those after it, and the sender drops what nobody has.
-/

import SingBox.KcpDirection

namespace SingBox

open List

namespace Kcp

open ReceivingWorker SendingWorker

/-! ### The invariant of a direction -/

/-- A segment carries what was accepted under its number. -/
def Numbered (accepted : List (List UInt8)) (key : UInt32 × List UInt8) : Prop :=
  ∃ index, key.1 = UInt32.ofNat index ∧ accepted[index]? = some key.2

variable {accepted taken : List (List UInt8)} {before worker : ReceivingWorker} {number : UInt32}
  {segment : DataSegment} {window : ReceivingWindow}

theorem Numbered.append {key : UInt32 × List UInt8} (numbered : Numbered accepted key)
    (b : List UInt8) : Numbered (accepted ++ [b]) key := by
  obtain ⟨index, number, payload⟩ := numbered
  exact ⟨index, number, getElem?_append_left (List.getElem?_eq_some_iff.mp payload).1 ▸ payload⟩

/-- The receiver has taken or stored the segment with a number, if no more than `2 ^ 32` were
accepted. -/
def Has (taken : List (List UInt8)) (worker : ReceivingWorker) (number : UInt32) : Prop :=
  number.toNat < taken.length ∨ ∃ entry ∈ worker.window.cache, entry.1 = number

/-- What the receiver has taken and stored. -/
structure Store (accepted taken : List (List UInt8)) (worker : ReceivingWorker) : Prop where
  cache : ∀ entry ∈ worker.window.cache,
    entry.1 = entry.2.number ∧ Numbered accepted entry.2.key
  next : worker.nextNumber = UInt32.ofNat taken.length
  taken : accepted.length ≤ 2 ^ 32 → ∀ index b, index < 2 ^ 32 → taken[index]? = some b →
    accepted[index]? = some b

structure Direction (sender : Endpoint) (data : List Segment) (receiver : Endpoint)
    (replies : List Segment) : Prop where
  next : sender.conn.sendingWorker.nextNumber = UInt32.ofNat sender.accepted.length
  window : ∀ key ∈ sender.conn.sendingWorker.keys, Numbered sender.accepted key
  data : ∀ segment, .data segment ∈ data → Numbered sender.accepted segment.key
  kept : sender.conn.state = .active → ∀ index < sender.accepted.length,
    (∃ key ∈ sender.conn.sendingWorker.keys, key.1 = UInt32.ofNat index) ∨
      Has receiver.taken receiver.conn.receivingWorker (UInt32.ofNat index)
  store : Store sender.accepted receiver.taken receiver.conn.receivingWorker
  returned : receiver.returned <+: receiver.taken.flatten
  leftOver : receiver.conn.state ≠ .terminated → receiver.returned ++
    (receiver.conn.receivingWorker.leftOver.getD []).flatten = receiver.taken.flatten
  listed : ∀ number ∈ numbers receiver.conn.receivingWorker.acklist.entries,
    Has receiver.taken receiver.conn.receivingWorker number
  replies : ∀ reply ∈ replies, ∀ number, reply.Answers number →
    Has receiver.taken receiver.conn.receivingWorker number

variable {sender receiver after : Endpoint} {data replies written : List Segment}

/-! ### The sender -/

theorem ofNat_succ (number : Nat) : UInt32.ofNat (number + 1) = UInt32.ofNat number + 1 := by
  rw [UInt32.ofNat_add]
  rfl

theorem Direction.sends (direction : Direction sender data receiver replies)
    (step : SendingStep replies sender after written) :
    Direction after (data ++ written) receiver replies := by
  cases step with
  | keeps accepted sending listed =>
    refine { direction with
      next := ?_, window := ?_, data := ?_, kept := ?_, store := ?_ }
    · rw [sending.kept.next, accepted]
      exact direction.next
    · rw [accepted]
      exact fun key member => direction.window key (sending.kept.old key member)
    · rw [accepted]
      intro segment member
      rcases mem_append.mp member with old | fresh
      · exact direction.data segment old
      · exact direction.window _ (listed segment fresh)
    · rw [accepted]
      intro active index within
      rcases direction.kept (sending.active active) index within with ⟨key, member, number⟩ | has
      · rcases sending.kept.left key member with kept | answered
        · exact .inl ⟨key, kept, number⟩
        · obtain ⟨reply, listed, answers⟩ := answered active
          exact .inr (number ▸ direction.replies reply listed key.1 answers)
      · exact .inr has
    · rw [accepted]
      exact direction.store
  | pushes b accepted state next keys nothing =>
    have grown : (sender.accepted ++ [b])[sender.accepted.length]? = some b := by simp
    refine { direction with
      next := ?_, window := ?_, data := ?_, kept := ?_, store := ?_ }
    · rw [next, accepted, length_append, direction.next]
      exact (ofNat_succ _).symm
    · rw [keys, accepted]
      intro key member
      rcases Log.mem_snoc member with old | rfl
      · exact (direction.window key old).append b
      · exact ⟨_, direction.next, grown⟩
    · rw [nothing, append_nil, accepted]
      exact fun segment member => (direction.data segment member).append b
    · rw [keys, accepted, state]
      intro active index within
      rw [length_append, length_singleton] at within
      rcases Nat.lt_succ_iff_lt_or_eq.mp within with old | rfl
      · rcases direction.kept active index old with ⟨key, member, number⟩ | has
        · exact .inl ⟨key, mem_append_left _ member, number⟩
        · exact .inr has
      · exact .inl ⟨_, mem_concat_self, direction.next⟩
    · rw [accepted]
      refine ⟨fun entry member => ?_, direction.store.next, fun few index payload below taken => ?_⟩
      · obtain ⟨number, numbered⟩ := direction.store.cache entry member
        exact ⟨number, numbered.append b⟩
      · rw [length_append] at few
        have before := direction.store.taken (by omega) index payload below taken
        rw [getElem?_append_left (List.getElem?_eq_some_iff.mp before).1]
        exact before

/-! ### The receiver -/

theorem Has.fed {after : ReceivingWorker} (has : Has taken before number)
    (fed : Fed data before after) : Has taken after number := by
  rcases has with below | ⟨entry, member, same⟩
  · exact .inl below
  · exact .inr ⟨entry, fed.stored entry member, same⟩

theorem Store.fed {after : ReceivingWorker} (store : Store accepted taken before)
    (fed : Fed data before after)
    (sent : ∀ segment, .data segment ∈ data → Numbered accepted segment.key) :
    Store accepted taken after where
  cache entry member := by
    rcases fed.cache entry member with old | ⟨number, fresh⟩
    · exact store.cache entry old
    · exact ⟨number, sent entry.2 fresh⟩
  next := fed.next.trans store.next
  taken := store.taken

theorem remove_eq_some {rest : ReceivingWindow} {id : UInt32}
    (removed : window.remove id = some (segment, rest)) :
    (id, segment) ∈ window.cache ∧ rest.cache = window.cache.filter fun entry => entry.1 ≠ id := by
  obtain ⟨value, found, same⟩ := Option.map_eq_some_iff.mp removed
  cases same
  obtain ⟨front, back, whole, -⟩ := lookup_eq_some_iff.mp found
  rw [whole]
  exact ⟨mem_append_right _ mem_cons_self, rfl⟩

section

variable (store : Store accepted taken worker)
  (removed : worker.window.remove worker.nextNumber = some (segment, window))

include store removed

/-- What is taken next is what was accepted next, unless the numbers have wrapped. -/
theorem Store.take : Store accepted (taken ++ [segment.payload])
      { worker with window, nextNumber := worker.nextNumber + 1 } := by
  obtain ⟨member, rest⟩ := remove_eq_some removed
  refine ⟨fun entry kept => ?_, ?_, fun few index b below listed => ?_⟩
  · rw [rest] at kept
    exact store.cache entry (mem_of_mem_filter kept)
  · rw [length_append]
    exact (congrArg (· + 1) store.next).trans (ofNat_succ _).symm
  · rcases Nat.lt_or_ge index taken.length with old | new
    · rw [getElem?_append_left old] at listed
      exact store.taken few index b below listed
    · rw [getElem?_append_right new] at listed
      obtain ⟨offset, same⟩ := List.getElem?_eq_some_iff.mp listed
      have last : index = taken.length := by
        rw [length_singleton] at offset
        omega
      subst last
      obtain ⟨number, place, numbered, payload⟩ := store.cache _ member
      have within : place < accepted.length := (List.getElem?_eq_some_iff.mp payload).1
      have equal : UInt32.ofNat taken.length = UInt32.ofNat place :=
        store.next.symm.trans (number.trans numbered)
      have values := congrArg UInt32.toNat equal
      rw [UInt32.toNat_ofNat', UInt32.toNat_ofNat', Nat.mod_eq_of_lt below,
        Nat.mod_eq_of_lt (by omega)] at values
      rw [values, payload, ← same]
      simp [DataSegment.key]

theorem Has.take (has : Has taken worker number) : Has (taken ++ [segment.payload])
      { worker with window, nextNumber := worker.nextNumber + 1 } number := by
  obtain ⟨-, rest⟩ := remove_eq_some removed
  unfold Has
  rw [length_append, length_singleton]
  rcases has with below | ⟨entry, stored, same⟩
  · exact .inl (by omega)
  · by_cases next : number = worker.nextNumber
    · refine .inl ?_
      rw [next, store.next, UInt32.toNat_ofNat']
      omega
    · refine .inr ⟨entry, ?_, same⟩
      rw [rest]
      exact mem_filter.mpr ⟨stored, by simpa [same] using next⟩

end

theorem Store.collect (store : Store accepted taken worker) (rounds : Nat) :
    Store accepted (taken ++ (worker.collect rounds).2) (worker.collect rounds).1 ∧
      ∀ number, Has taken worker number →
        Has (taken ++ (worker.collect rounds).2) (worker.collect rounds).1 number := by
  induction rounds generalizing taken worker with
  | zero => exact ⟨by rwa [collect, append_nil], fun number has => by rwa [collect, append_nil]⟩
  | succ rounds ih =>
    unfold collect
    cases removed : worker.window.remove worker.nextNumber with
    | none => exact ⟨by rwa [append_nil], fun number has => by rwa [append_nil]⟩
    | some found =>
      obtain ⟨later, has⟩ := ih (store.take removed)
      rw [append_assoc] at later
      refine ⟨later, fun number had => ?_⟩
      have := has number (had.take store removed)
      rwa [append_assoc] at this

theorem collect_keeps (worker : ReceivingWorker) (rounds : Nat) :
    (worker.collect rounds).1.acklist = worker.acklist ∧
      (worker.collect rounds).1.leftOver = worker.leftOver := by
  induction rounds generalizing worker with
  | zero => exact ⟨rfl, rfl⟩
  | succ rounds ih =>
    unfold collect
    cases worker.window.remove worker.nextNumber with
    | none => exact ⟨rfl, rfl⟩
    | some found => exact ih _

/-- The loop of `ReadMultiBuffer` ends: as many rounds as there are segments are enough. -/
theorem collect_ends (rounds : Nat) (worker : ReceivingWorker)
    (enough : worker.window.cache.length ≤ rounds) :
    (worker.collect rounds).1.window.remove (worker.collect rounds).1.nextNumber = none := by
  induction rounds generalizing worker with
  | zero =>
    have empty : worker.window.cache = [] := length_eq_zero_iff.mp (Nat.le_zero.mp enough)
    rw [collect, ReceivingWindow.remove, empty]
    rfl
  | succ rounds ih =>
    unfold collect
    cases removed : worker.window.remove worker.nextNumber with
    | none => exact removed
    | some found =>
      obtain ⟨member, rest⟩ := remove_eq_some removed
      refine ih _ ?_
      have shorter : (worker.window.cache.filter fun entry => entry.1 ≠ worker.nextNumber).length <
          worker.window.cache.length :=
        length_filter_lt_length_iff_exists.mpr ⟨_, member, by simp⟩
      rw [rest]
      omega

theorem splitBytes_flatten (mb : List (List UInt8)) (size : Nat) :
    (splitBytes mb size).2 ++ (splitBytes mb size).1.flatten = mb.flatten := by
  induction mb generalizing size with
  | nil => rfl
  | cons buffer rest ih =>
    rw [splitBytes]
    split_ifs with more
    · rw [flatten_cons, flatten_cons, ← append_assoc, take_append_drop]
    · have whole : buffer.take size = buffer := by
        have joined := take_append_drop size buffer
        rwa [not_not.mp more, append_nil] at joined
      rw [append_assoc, ih, whole, flatten_cons]

theorem flatten_of_all_isEmpty {mb : List (List UInt8)} (empty : mb.all List.isEmpty = true) :
    mb.flatten = [] := by
  rw [flatten_eq_nil_iff]
  intro buffer member
  exact List.isEmpty_iff.mp (all_eq_true.mp empty buffer member)

/-- What `Read` returns and leaves over is what was left over and what it takes. -/
theorem read_bytes (worker : ReceivingWorker) (size : Nat) :
    (worker.read size).2 ++ ((worker.read size).1.leftOver.getD []).flatten =
      (worker.leftOver.getD []).flatten ++ worker.ready.flatten := by
  have front : worker.readMultiBuffer.1.leftOver = none ∧ worker.readMultiBuffer.2.flatten =
      (worker.leftOver.getD []).flatten ++ worker.ready.flatten := by
    unfold readMultiBuffer ready
    cases left : worker.leftOver with
    | some mb => exact ⟨rfl, (append_nil _).symm⟩
    | none => exact ⟨(collect_keeps worker _).2.trans left, rfl⟩
  unfold ReceivingWorker.read
  rw [← front.2]
  generalize worker.readMultiBuffer = result at front ⊢
  dsimp only
  by_cases empty : result.2.all List.isEmpty = true
  · rw [if_pos empty, front.1, flatten_of_all_isEmpty empty]
    rfl
  · rw [if_neg empty, ← splitBytes_flatten result.2 size]
    split_ifs with finished
    · rw [front.1, flatten_of_all_isEmpty finished]
      rfl
    · rfl

theorem read_worker (worker : ReceivingWorker) (size : Nat) :
    (worker.read size).1.window = worker.readMultiBuffer.1.window ∧
      (worker.read size).1.nextNumber = worker.readMultiBuffer.1.nextNumber ∧
      (worker.read size).1.acklist = worker.readMultiBuffer.1.acklist := by
  unfold ReceivingWorker.read
  dsimp only
  split_ifs <;> exact ⟨rfl, rfl, rfl⟩

/-- `Read` stores what `ReadMultiBuffer` stores. -/
theorem Store.read (store : Store accepted taken worker) (size : Nat) :
    Store accepted (taken ++ worker.ready) (worker.read size).1 ∧
      (∀ number, Has taken worker number →
        Has (taken ++ worker.ready) (worker.read size).1 number) ∧
      (worker.read size).1.acklist = worker.acklist := by
  obtain ⟨window, next, acklist⟩ := read_worker worker size
  have collected := store.collect worker.window.cache.length
  unfold readMultiBuffer at window next acklist
  unfold ready
  cases left : worker.leftOver with
  | some mb =>
    rw [left] at window next acklist
    rw [Option.isSome_some, if_pos rfl, append_nil]
    refine ⟨⟨window ▸ store.cache, next.trans store.next, store.taken⟩, fun number has => ?_, acklist⟩
    unfold Has
    rw [window]
    exact has
  | none =>
    rw [left] at window next acklist
    refine ⟨⟨window ▸ collected.1.cache, next.trans collected.1.next, collected.1.taken⟩,
      fun number has => ?_, acklist.trans (collect_keeps worker _).1⟩
    unfold Has
    rw [window]
    exact collected.2 number has

theorem Direction.receives (direction : Direction sender data receiver replies)
    (step : ReceivingStep data receiver after written) :
    Direction sender data after (replies ++ written) := by
  cases step with
  | feeds taken returned receiving answers =>
    have has {number : UInt32} (before : Has receiver.taken receiver.conn.receivingWorker number) :
        Has receiver.taken after.conn.receivingWorker number := before.fed receiving.fed
    refine { direction with
      kept := ?_, store := ?_, returned := ?_, leftOver := ?_, listed := ?_, replies := ?_ }
    · rw [taken]
      exact fun active index within => (direction.kept active index within).imp_right has
    · rw [taken]
      exact direction.store.fed receiving.fed direction.data
    · rw [taken, returned]
      exact direction.returned
    · rw [taken, returned, receiving.fed.leftOver]
      exact fun running => direction.leftOver fun ended => running (receiving.ended ended)
    · rw [taken]
      intro number member
      obtain ⟨entry, listed, rfl⟩ := mem_map.mp member
      rcases receiving.fed.listed entry listed with ⟨old, earlier, same⟩ | stored
      · exact has (direction.listed _ (mem_map.mpr ⟨old, earlier, same⟩))
      · exact .inr stored
    · rw [taken]
      intro reply member number answered
      rcases mem_append.mp member with old | fresh
      · exact has (direction.replies reply old number answered)
      · rcases answers reply fresh number answered with below | listed
        · rw [receiving.fed.next, direction.store.next] at below
          have bound : number.toNat < receiver.taken.length % 2 ^ 32 := by
            simpa [UInt32.lt_iff_toNat_lt] using below
          exact .inl (Nat.lt_of_lt_of_le bound (Nat.mod_le _ _))
        · exact has (direction.listed number listed)
  | reads size opened same nothing =>
    subst same
    rw [nothing, append_nil]
    obtain ⟨store, has, acklist⟩ := direction.store.read size
    have bytes := read_bytes receiver.conn.receivingWorker size
    have running : receiver.conn.state ≠ .terminated := fun ended => by
      simp [Connection.readCloses, ended] at opened
    have before := direction.leftOver running
    unfold Endpoint.read
    rw [if_neg (by rw [opened]; exact Bool.false_ne_true)]
    have joined : (receiver.returned ++ (receiver.conn.receivingWorker.read size).2) ++
        ((receiver.conn.receivingWorker.read size).1.leftOver.getD []).flatten =
          (receiver.taken ++ receiver.conn.receivingWorker.ready).flatten := by
      rw [append_assoc, bytes, ← append_assoc, before, flatten_append]
    refine { direction with
      kept := ?_, store, returned := ?_, leftOver := fun _ => joined, listed := ?_,
      replies := ?_ }
    · exact fun active index within => (direction.kept active index within).imp_right (has _)
    · exact joined ▸ prefix_append _ _
    · rw [acklist]
      exact fun number member => has number (direction.listed number member)
    · exact fun reply member number answered => has number
        (direction.replies reply member number answered)
  | releases ended same nothing =>
    subst same
    rw [nothing, append_nil]
    exact { direction with
      store := { direction.store with }, leftOver := fun running => absurd ended running }

/-- The invariant holds in both directions after every run. -/
theorem direction_run (pool : Pool) (conversation : UInt16) (overhead : Duplex.Side → UInt32)
    (config : Duplex.Side → Config) (events : List (Duplex.Side × Action)) (side : Duplex.Side) :
    Direction ((run pool (newSession conversation overhead config) events).ends side)
      ((run pool (newSession conversation overhead config) events).sent side)
      ((run pool (newSession conversation overhead config) events).ends side.other)
      ((run pool (newSession conversation overhead config) events).sent side.other) := by
  refine Duplex.direction_run (react pool) Direction (fun side => ?_)
    (fun sender data receiver replies action direction =>
      direction.sends (react_halves pool sender replies action).1)
    (fun sender data receiver replies action direction =>
      direction.receives (react_halves pool receiver data action).2) events side
  exact ⟨rfl, nofun, nofun, nofun, ⟨nofun, rfl, nofun⟩, prefix_rfl, fun _ => rfl, nofun, nofun⟩

/-! ### What is read -/

/-- Up to `2 ^ 32 - 1` segments, what was taken is a front of what was accepted. -/
theorem Direction.taken_prefix (direction : Direction sender data receiver replies)
    (few : sender.accepted.length < 2 ^ 32) : receiver.taken <+: sender.accepted := by
  have same := direction.store.taken (Nat.le_of_lt few)
  have short : receiver.taken.length ≤ sender.accepted.length := by
    by_contra longer
    obtain ⟨b, listed⟩ : ∃ b, receiver.taken[sender.accepted.length]? = some b :=
      ⟨_, getElem?_eq_getElem (Nat.not_le.mp longer)⟩
    have accepted := same _ b few listed
    rw [getElem?_eq_none (Nat.le_refl _)] at accepted
    cases accepted
  rw [prefix_iff_getElem?]
  intro index within
  exact same index _ (by omega) (getElem?_eq_getElem within)

/-- As long as fewer than `2 ^ 31` segments were accepted at the other side, the bytes that were
read are a front of the bytes that were accepted there. -/
theorem kcp_stream (pool : Pool) (conversation : UInt16) (overhead : Duplex.Side → UInt32)
    (config : Duplex.Side → Config) (events : List (Duplex.Side × Action)) (side : Duplex.Side)
    (few : ((run pool (newSession conversation overhead config) events).ends
      side).accepted.length < 2 ^ 31) :
    ((run pool (newSession conversation overhead config) events).ends side.other).returned <+:
      ((run pool (newSession conversation overhead config) events).ends side).accepted.flatten := by
  have direction := direction_run pool conversation overhead config events side
  obtain ⟨rest, whole⟩ := direction.taken_prefix (by omega)
  rw [← whole, flatten_append]
  exact direction.returned.trans (prefix_append _ _)

/-- A pool whose buffers take everything. -/
def wholePool : Pool := ⟨id, fun _ => List.prefix_rfl⟩

/-- Three bytes are written, and read two at a time. -/
def threeBytes : List (Duplex.Side × Action) :=
  [(.client, .write 0 [1, 2, 3]), (.client, .push 0), (.client, .flushSending 0),
    (.server, .input 0 [.data { number := 0, payload := [1, 2, 3] }]), (.server, .read 2),
    (.server, .read 2)]

theorem kcp_stream_threeBytes :
    ((run wholePool (newSession 0 (fun _ => 0) fun _ => {}) threeBytes).ends .server).returned =
        [1, 2, 3] ∧
      [1, 2, 3] <+: ((run wholePool (newSession 0 (fun _ => 0) fun _ => {}) threeBytes).ends
        .client).accepted.flatten := by
  have returned : ((run wholePool (newSession 0 (fun _ => 0) fun _ => {}) threeBytes).ends
      .server).returned = [1, 2, 3] := by decide
  have stream := kcp_stream wholePool 0 (fun _ => 0) (fun _ => {}) threeBytes .client (by decide)
  exact ⟨returned, returned ▸ stream⟩

/-- As long as the numbers do not come round, a data segment carries what was accepted under its
number, what was taken is a front of what was accepted, and a number is acknowledged only when its
segment was taken or is in the window. -/
theorem sent_honest (pool : Pool) (conversation : UInt16) (overhead : Duplex.Side → UInt32)
    (config : Duplex.Side → Config) (events : List (Duplex.Side × Action)) (side : Duplex.Side)
    (few : ((run pool (newSession conversation overhead config) events).ends
      side).accepted.length < 2 ^ 32) :
    let session := run pool (newSession conversation overhead config) events
    (∀ segment, .data segment ∈ session.sent side →
      (session.ends side).accepted[segment.number.toNat]? = some segment.payload) ∧
    (session.ends side.other).taken <+: (session.ends side).accepted ∧
    ∀ reply ∈ session.sent side.other, ∀ number, reply.Answers number →
      Has (session.ends side.other).taken (session.ends side.other).conn.receivingWorker
        number := by
  intro session
  have direction := direction_run pool conversation overhead config events side
  refine ⟨fun segment sent => ?_, direction.taken_prefix few, direction.replies⟩
  obtain ⟨index, number, payload⟩ := direction.data segment sent
  have inside := (List.getElem?_eq_some_iff.mp payload).1
  have same : segment.number.toNat = index := by
    rw [show segment.number = _ from number, UInt32.toNat_ofNat']
    exact Nat.mod_eq_of_lt (Nat.lt_trans inside few)
  rwa [same]

/-- The three bytes are acknowledged after they have been taken. -/
theorem sent_honest_threeBytes :
    let session := run wholePool (newSession 0 (fun _ => 0) fun _ => {})
      (threeBytes ++ [(.server, .flushReceiving 0)])
    .ack { receivingWindow := 3884, receivingNext := 1, numberList := [0] } ∈
        session.sent .server ∧
      Has (session.ends .server).taken (session.ends .server).conn.receivingWorker 0 := by
  intro session
  have sent : .ack { receivingWindow := 3884, receivingNext := 1, numberList := [0] } ∈
      session.sent .server := by decide
  exact ⟨sent, (sent_honest wholePool 0 (fun _ => 0) (fun _ => {}) _ .client
    (by decide)).2.2 _ sent 0 (.inl (by decide))⟩

end Kcp

end SingBox
