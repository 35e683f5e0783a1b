/-
This file embeds the upload queue of the XHTTP server. The posts of a session are pushed
into a channel in any order; reading takes them from there into a heap, and gives out the
bytes of the packet whose turn it is. What does not fit into the buffer of the reader goes
back into the heap, under the number of its packet.

The steps of the machine are the sections of `Push` and `Read` between two points at which
they may wait, and the iterations of the loop of `Read`. One call of `Read` is under way at
a time. If a packet is pushed twice, both copies may be in the heap when its turn comes. A
reader that takes only a part of it may then be given the other copy from its beginning.
-/

import SingBox.Heap
import SingBox.Log
import SingBox.Machine

namespace SingBox

open List Machine Option

namespace UploadQueue

open Heap

abbrev Bytes := List UInt8

/-! ### The machine -/

/-- A packet of data, or one that stands for a stream. -/
structure Packet where
  reader : Option Nat := none
  payload : Bytes
  seq : UInt64
  deriving DecidableEq, Repr

/-- The key by which the heap orders packets. -/
def Packet.number (packet : Packet) : Nat := packet.seq.toNat

inductive Error where
  | eof
  | closed
  | readerExists
  | tooLarge
  | stream (text : String)
  deriving DecidableEq, Repr

def Error.text : Error → String
  | .eof => "EOF"
  | .closed => "packet queue closed"
  | .readerExists => "h.reader already exists"
  | .tooLarge => "packet queue is too large"
  | .stream text => text

/-- Where the call of `Read` under way is, with the length of its buffer: at the first receive from
the channel, at the head of the loop, at the receive in the loop, or in the `Read` of a stream. -/
inductive Phase where
  | idle
  | receiving (size : Nat)
  | looping (size : Nat)
  | waiting (size : Nat)
  | streaming (size : Nat)
  deriving DecidableEq, Repr

/-- The queue. The calls of `Push` that have passed the section under the lock are listed with their
packets. The last two fields are what the calls have returned. -/
structure Queue where
  maxPackets : Nat
  reader : Option Nat := none
  nomore : Bool := false
  pushedPackets : List Packet := []
  heap : Heap Packet.number := Heap.empty _
  nextSeq : UInt64 := 0
  closed : Bool := false
  draining : Bool := false
  pushing : List Packet := []
  phase : Phase := .idle
  pushes : List (Except Error Unit) := []
  reads : List (Except Error Bytes) := []

def newUploadQueue (maxPackets : Nat) : Queue := { maxPackets := maxPackets }

inductive Event where
  | push (packet : Packet)
  | send (index : Nat)
  | refuse (index : Nat)
  | close
  | drain (sender : Option Nat)
  | read (size : Nat)
  | receive (sender : Option Nat)
  | loop
  | stop
  | stream (result : Except Error Bytes)

/-- A receive from the channel: its first packet, or that of a call of `Push` if it is empty. -/
def Queue.take (queue : Queue) : Option Nat → Option (Packet × Queue)
  | none =>
    match queue.pushedPackets with
    | [] => none
    | packet :: rest => some (packet, { queue with pushedPackets := rest })
  | some index =>
    if queue.pushedPackets = [] then
      queue.pushing[index]?.map fun packet =>
        (packet, { queue with
          pushing := queue.pushing.eraseIdx index, pushes := queue.pushes ++ [.ok ()] })
    else none

/-- The call of `Read` under way returns. -/
def Queue.answer (queue : Queue) (result : Except Error Bytes) : Queue :=
  { queue with phase := .idle, reads := queue.reads ++ [result] }

/-- The section of `Push` under the lock. -/
def Queue.push (queue : Queue) (packet : Packet) : Queue :=
  if queue.closed then { queue with pushes := queue.pushes ++ [.error .closed] }
  else if queue.nomore then { queue with pushes := queue.pushes ++ [.error .readerExists] }
  else
    { queue with
      nomore := queue.nomore || packet.reader.isSome, pushing := queue.pushing ++ [packet] }

/-- A call of `Push` puts its packet into the channel. -/
def Queue.send (queue : Queue) (index : Nat) : Queue :=
  match queue.pushing[index]? with
  | none => queue
  | some packet =>
    if queue.pushedPackets.length < queue.maxPackets then
      { queue with
        pushedPackets := queue.pushedPackets ++ [packet]
        pushing := queue.pushing.eraseIdx index
        pushes := queue.pushes ++ [.ok ()] }
    else queue

/-- A call of `Push` finds the queue closed. -/
def Queue.refuse (queue : Queue) (index : Nat) : Queue :=
  match queue.pushing[index]? with
  | none => queue
  | some _ =>
    if queue.closed then
      { queue with
        pushing := queue.pushing.eraseIdx index, pushes := queue.pushes ++ [.error .closed] }
    else queue

/-- The section of `Close` under the lock. -/
def Queue.close (queue : Queue) : Queue :=
  if queue.closed then queue else { queue with closed := true, draining := true }

/-- `Close` takes a packet from the channel, until there is none. -/
def Queue.drain (queue : Queue) (sender : Option Nat) : Queue :=
  if queue.draining then
    match queue.take sender with
    | none => { queue with draining := false }
    | some (_, rest) => rest
  else queue

/-- The beginning of `Read`. -/
def Queue.read (queue : Queue) (size : Nat) : Queue :=
  if queue.closed then queue.answer (.error .eof)
  else if queue.reader.isSome then { queue with phase := .streaming size }
  else if queue.heap.size = 0 then { queue with phase := .receiving size }
  else { queue with phase := .looping size }

/-- The first receive of `Read`. The channel is never closed. -/
def Queue.received (queue : Queue) (size : Nat) (packet : Packet) : Queue :=
  match packet.reader with
  | some reader =>
    if queue.closed then queue.answer (.error .eof)
    else { queue with reader := some reader, phase := .streaming size }
  | none => { queue with heap := queue.heap.push packet, phase := .looping size }

/-- An iteration of the loop of `Read`, with the packet from the heap and the rest of the heap. -/
def Queue.popped (queue : Queue) (size : Nat) (packet : Packet) (heap : Heap Packet.number) :
    Queue :=
  if packet.seq = queue.nextSeq then
    let n := min size packet.payload.length
    if n < packet.payload.length then
      { queue with heap := heap.push { packet with payload := packet.payload.drop n } }.answer
        (.ok (packet.payload.take n))
    else
      { queue with heap := heap, nextSeq := packet.seq + 1 }.answer (.ok (packet.payload.take n))
  else if packet.seq > queue.nextSeq then
    if heap.size > queue.maxPackets then { queue with heap := heap }.answer (.error .tooLarge)
    else { queue with heap := heap.push packet, phase := .waiting size }
  else { queue with heap := heap }

def Queue.step (queue : Queue) : Event → Queue
  | .push packet => queue.push packet
  | .send index => queue.send index
  | .refuse index => queue.refuse index
  | .close => queue.close
  | .drain sender => queue.drain sender
  | .read size =>
    match queue.phase with
    | .idle => queue.read size
    | _ => queue
  | .receive sender =>
    match queue.phase, queue.take sender with
    | .receiving size, some (packet, rest) => rest.received size packet
    | .waiting size, some (packet, rest) =>
      { rest with heap := rest.heap.push packet, phase := .looping size }
    | _, _ => queue
  | .loop =>
    match queue.phase with
    | .looping size =>
      match queue.heap.pop with
      | none => queue.answer (.ok [])
      | some (packet, heap) => queue.popped size packet heap
    | _ => queue
  | .stop =>
    match queue.phase with
    | .receiving _ | .waiting _ => if queue.closed then queue.answer (.error .eof) else queue
    | _ => queue
  | .stream result =>
    match queue.phase with
    | .streaming size => queue.answer (result.map fun bytes => bytes.take size)
    | _ => queue

def run (maxPackets : Nat) (events : List Event) : Queue :=
  Machine.drive Queue.step (newUploadQueue maxPackets) events

/-- The bytes of a result of `Read`. -/
def bytesOf : Except Error Bytes → Bytes
  | .ok bytes => bytes
  | .error _ => []

/-- All bytes that `Read` has returned. -/
def Queue.bytes (queue : Queue) : Bytes := queue.reads.flatMap bytesOf

/-! ### What the queue is for -/

/-- A packet of the data, with its own number. -/
def Of (payloads : List Bytes) (packet : Packet) : Prop :=
  packet.reader = none ∧ payloads[packet.number]? = some packet.payload

instance (payloads : List Bytes) (packet : Packet) : Decidable (Of payloads packet) :=
  inferInstanceAs (Decidable (_ ∧ _))

/-- Only packets of the data are pushed. -/
def PushesOf (payloads : List Bytes) : Event → Prop
  | .push packet => Of payloads packet
  | _ => True

instance (payloads : List Bytes) (event : Event) : Decidable (PushesOf payloads event) := by
  unfold PushesOf
  split <;> infer_instance

/-- A reader whose buffer is too small for the packet whose turn it is finds no second copy of it in
the heap. -/
def Alone (queue : Queue) : Event → Prop
  | .loop =>
    match queue.phase with
    | .looping size =>
      ∀ packet ∈ queue.heap.toList, packet.seq = queue.nextSeq → size < packet.payload.length →
        queue.heap.toList.countP (·.seq = queue.nextSeq) = 1
    | _ => True
  | _ => True

instance (queue : Queue) (event : Event) : Decidable (Alone queue event) := by
  unfold Alone
  split
  · split <;> infer_instance
  · infer_instance

/-! ### The invariant -/

/-- A packet of the heap: all of its data is there if its turn has not come, and what follows the
given part of it if it has. -/
structure Fits (payloads : List Bytes) (nextSeq : UInt64) (part : Bytes) (packet : Packet) :
    Prop where
  data : packet.reader = none
  later : nextSeq < packet.seq → payloads[packet.number]? = some packet.payload
  turn : packet.seq = nextSeq → payloads[packet.number]? = some (part ++ packet.payload)

variable {packet : Packet}

theorem Of.fits {payloads : List Bytes} (of : Of payloads packet) (nextSeq : UInt64) :
    Fits payloads nextSeq [] packet where
  data := of.1
  later _ := of.2
  turn _ := of.2

/-- At a receive from the channel. -/
def Phase.Receives : Phase → Prop
  | .receiving _ | .waiting _ => True
  | .idle | .looping _ | .streaming _ => False

/-- The bytes returned so far are those of the packets before the next one and a part of that. If
the part is not empty, the rest of the packet is in the heap, and no packet is received before it. -/
structure Assembled (payloads : List Bytes) (maxPackets : Nat) (queue : Queue) (part : Bytes) :
    Prop where
  limit : queue.maxPackets = maxPackets
  pushing : ∀ packet ∈ queue.pushing, Of payloads packet
  sent : ∀ packet ∈ queue.pushedPackets, Of payloads packet
  noReader : queue.reader = none
  notStreaming : ∀ size, queue.phase ≠ .streaming size
  fits : ∀ packet ∈ queue.heap.toList, Fits payloads queue.nextSeq part packet
  bytes : queue.bytes = (payloads.take queue.nextSeq.toNat).flatten ++ part
  begun : part ≠ [] →
    (∃ packet ∈ queue.heap.toList, packet.seq = queue.nextSeq) ∧ ¬queue.phase.Receives
  few : queue.heap.size ≤ maxPackets + 2
  fewer : queue.phase.Receives → queue.heap.size ≤ maxPackets + 1

namespace Assembled

variable {payloads : List Bytes} {maxPackets : Nat} {queue after : Queue} {part : Bytes}

theorem init (payloads : List Bytes) (maxPackets : Nat) :
    Assembled payloads maxPackets (newUploadQueue maxPackets) [] where
  limit := rfl
  pushing _ member := absurd member not_mem_nil
  sent _ member := absurd member not_mem_nil
  noReader := rfl
  notStreaming _ := nofun
  fits _ member := absurd member not_mem_nil
  bytes := rfl
  begun nonempty := absurd rfl nonempty
  few := Nat.zero_le _
  fewer receives := receives.elim

section

variable (assembled : Assembled payloads maxPackets queue part)

include assembled

/-- A receive from the channel gives a packet of the data, and changes nothing else. -/
theorem take {sender : Option Nat} (taken : queue.take sender = some (packet, after)) :
    Assembled payloads maxPackets after part ∧ Of payloads packet ∧ after.phase = queue.phase ∧
      after.heap = queue.heap := by
  cases sender with
  | none =>
    unfold Queue.take at taken
    cases sent : queue.pushedPackets with
    | nil =>
      rw [sent] at taken
      exact nomatch taken
    | cons first rest =>
      rw [sent] at taken
      cases taken
      have members := assembled.sent
      rw [sent] at members
      exact ⟨{ assembled with sent := fun other member => members other (mem_cons_of_mem _ member) },
        members _ mem_cons_self, rfl, rfl⟩
  | some index =>
    simp only [Queue.take] at taken
    split at taken
    · obtain ⟨sender, found, same⟩ := map_eq_some_iff.mp taken
      cases same
      exact ⟨{ assembled with
        pushing := fun other member => assembled.pushing other (mem_of_mem_eraseIdx member) },
        assembled.pushing _ (mem_of_getElem? found), rfl, rfl⟩
    · exact nomatch taken

theorem push (of : Of payloads packet) :
    Assembled payloads maxPackets (queue.push packet) part := by
  unfold Queue.push
  split
  · exact { assembled with }
  · split
    · exact { assembled with }
    · refine { assembled with pushing := fun other member => ?_ }
      rcases Log.mem_snoc member with old | rfl
      · exact assembled.pushing other old
      · exact of

theorem send (index : Nat) : Assembled payloads maxPackets (queue.send index) part := by
  unfold Queue.send
  cases found : queue.pushing[index]? with
  | none => exact assembled
  | some packet =>
    dsimp only
    split
    · refine { assembled with
        pushing := fun other member => assembled.pushing other (mem_of_mem_eraseIdx member)
        sent := fun other member => ?_ }
      rcases Log.mem_snoc member with old | rfl
      · exact assembled.sent other old
      · exact assembled.pushing _ (mem_of_getElem? found)
    · exact assembled

theorem refuse (index : Nat) : Assembled payloads maxPackets (queue.refuse index) part := by
  unfold Queue.refuse
  cases queue.pushing[index]? with
  | none => exact assembled
  | some packet =>
    dsimp only
    split
    · exact { assembled with
        pushing := fun other member => assembled.pushing other (mem_of_mem_eraseIdx member) }
    · exact assembled

theorem close : Assembled payloads maxPackets queue.close part := by
  unfold Queue.close
  split
  · exact assembled
  · exact { assembled with }

theorem drain (sender : Option Nat) : Assembled payloads maxPackets (queue.drain sender) part := by
  unfold Queue.drain
  split
  · cases taken : queue.take sender with
    | none => exact { assembled with }
    | some pair => exact (assembled.take taken).1
  · exact assembled

end

/-! #### The calls of `Read` -/

theorem bytes_answer (queue : Queue) (result : Except Error Bytes) :
    (queue.answer result).bytes = queue.bytes ++ bytesOf result := by
  rw [Queue.bytes, Queue.answer, flatMap_append, flatMap_singleton]
  rfl

section

variable (assembled : Assembled payloads maxPackets queue part)

include assembled

/-- A call returns without a byte. -/
theorem answer {result : Except Error Bytes} (none' : bytesOf result = []) :
    Assembled payloads maxPackets (queue.answer result) part := { assembled with
  notStreaming _ := nofun
  bytes := by
    rw [bytes_answer, none', append_nil]
    exact assembled.bytes
  begun nonempty := ⟨(assembled.begun nonempty).1, id⟩
  fewer receives := receives.elim }

/-- The call goes on to another point. It may wait only if no packet has been read in part. -/
theorem setPhase {phase : Phase} (notStreaming : ∀ size, phase ≠ .streaming size)
    (begun : part ≠ [] → ¬phase.Receives)
    (fewer : phase.Receives → queue.heap.size ≤ maxPackets + 1) :
    Assembled payloads maxPackets { queue with phase } part where
  limit := assembled.limit
  pushing := assembled.pushing
  sent := assembled.sent
  noReader := assembled.noReader
  notStreaming
  fits := assembled.fits
  bytes := assembled.bytes
  begun nonempty := ⟨(assembled.begun nonempty).1, begun nonempty⟩
  few := assembled.few
  fewer

theorem read (size : Nat) : Assembled payloads maxPackets (queue.read size) part := by
  unfold Queue.read
  split
  · exact assembled.answer rfl
  · rw [if_neg (by rw [assembled.noReader]; exact nofun)]
    split
    next empty =>
      refine assembled.setPhase (fun _ => nofun) (fun nonempty => ?_) fun _ => ?_
      · obtain ⟨⟨packet, member, _⟩, _⟩ := assembled.begun nonempty
        have nil : queue.heap.toList = [] := eq_nil_of_length_eq_zero empty
        rw [nil] at member
        exact absurd member not_mem_nil
      · rw [empty]
        exact Nat.zero_le _
    · exact assembled.setPhase (fun _ => nofun) (fun _ => id) fun receives => receives.elim

/-- A received packet goes into the heap. -/
theorem receive (receives : queue.phase.Receives) (of : Of payloads packet) (size : Nat) :
    Assembled payloads maxPackets
      { queue with heap := queue.heap.push packet, phase := .looping size } part := by
  have unread : part = [] := by_contra fun nonempty => (assembled.begun nonempty).2 receives
  refine { assembled with
    notStreaming := fun _ => nofun
    fits := fun other member => ?_
    begun := fun nonempty => absurd unread nonempty
    few := ?_
    fewer := fun receives => receives.elim }
  · rcases mem_push.mp member with rfl | old
    · rw [unread]
      exact of.fits _
    · exact assembled.fits other old
  · rw [size_push]
    exact Nat.succ_le_succ (assembled.fewer receives)

end

variable {heap : Heap Packet.number}

section

variable (assembled : Assembled payloads maxPackets queue part)
  (pop : queue.heap.pop = some (packet, heap))

include assembled pop

/-- A packet is taken out of the heap whose turn is over, or it is given up. -/
theorem dropped (other : part ≠ [] → packet.seq ≠ queue.nextSeq) :
    Assembled payloads maxPackets { queue with heap } part where
  limit := assembled.limit
  pushing := assembled.pushing
  sent := assembled.sent
  noReader := assembled.noReader
  notStreaming := assembled.notStreaming
  fits later member := assembled.fits later ((mem_of_pop pop).mpr (.inr member))
  bytes := assembled.bytes
  begun nonempty := by
    obtain ⟨⟨turn, member, same⟩, going⟩ := assembled.begun nonempty
    refine ⟨⟨turn, ?_, same⟩, going⟩
    rcases (mem_of_pop pop).mp member with rfl | rest
    · exact absurd same (other nonempty)
    · exact rest
  few := by
    have size := size_of_pop pop
    have few := assembled.few
    show heap.size ≤ maxPackets + 2
    omega
  fewer receives := by
    have size := size_of_pop pop
    have fewer := assembled.fewer receives
    show heap.size ≤ maxPackets + 1
    omega

/-- While the least number of the heap is after the next one, no packet has been read in part. -/
theorem unread (later : queue.nextSeq < packet.seq) : part = [] := by
  by_contra nonempty
  obtain ⟨⟨turn, member, same⟩, -⟩ := assembled.begun nonempty
  have least : packet.seq.toNat ≤ turn.seq.toNat := pop_least pop member
  rw [same] at least
  exact absurd (UInt64.lt_iff_toNat_lt.mp later) (Nat.not_lt.mpr least)

/-- The packet whose turn it is is given out whole. -/
theorem whole (numbered : payloads.length < 2 ^ 64) (turn : packet.seq = queue.nextSeq) :
    Assembled payloads maxPackets ({ queue with heap, nextSeq := packet.seq + 1 }.answer
      (.ok packet.payload)) [] := by
  have data := (assembled.fits packet ((mem_of_pop pop).mpr (.inl rfl))).turn turn
  have inside := (List.getElem?_eq_some_iff.mp data).1
  have next : (packet.seq + 1).toNat = queue.nextSeq.toNat + 1 := by
    rw [UInt64.toNat_add, turn]
    rw [Packet.number, turn] at inside
    show (queue.nextSeq.toNat + 1) % 2 ^ 64 = queue.nextSeq.toNat + 1
    exact Nat.mod_eq_of_lt (by omega)
  have size := size_of_pop pop
  refine { assembled with
    notStreaming := fun _ => nofun
    fits := fun other member => ?_
    bytes := ?_
    begun := fun nonempty => absurd rfl nonempty
    few := ?_
    fewer := fun receives => receives.elim }
  · have old := assembled.fits other ((mem_of_pop pop).mpr (.inr member))
    have step : queue.nextSeq < packet.seq + 1 := by
      rw [UInt64.lt_iff_toNat_lt, next]
      exact Nat.lt_succ_self _
    exact ⟨old.data, fun after => old.later (UInt64.lt_trans step after), fun same =>
      old.later (same ▸ step)⟩
  · rw [bytes_answer, append_nil]
    show queue.bytes ++ packet.payload = (payloads.take (packet.seq + 1).toNat).flatten
    rw [Packet.number, turn] at data
    rw [assembled.bytes, next, take_add_one, data, flatten_append, toList_some,
      flatten_singleton, append_assoc]
  · have few := assembled.few
    show heap.size ≤ maxPackets + 2
    omega

/-- The packet whose turn it is is given out in part. -/
theorem split (turn : packet.seq = queue.nextSeq)
    (alone : queue.heap.toList.countP (·.seq = queue.nextSeq) = 1) (count : Nat) :
    Assembled payloads maxPackets
      ({ queue with heap := heap.push { packet with payload := packet.payload.drop count } }.answer
        (.ok (packet.payload.take count))) (part ++ packet.payload.take count) := by
  have old := assembled.fits packet ((mem_of_pop pop).mpr (.inl rfl))
  have size := size_of_pop pop
  have others : ∀ other ∈ heap.toList, other.seq ≠ queue.nextSeq := by
    have rest : heap.toList.countP (·.seq = queue.nextSeq) = 0 := by
      rw [(pop_perm pop).countP_eq, countP_cons, if_pos (decide_eq_true turn)] at alone
      exact Nat.succ.inj alone
    intro other member same
    exact countP_eq_zero.mp rest other member (decide_eq_true same)
  refine { assembled with
    notStreaming := fun _ => nofun
    fits := fun other member => ?_
    bytes := ?_
    begun := fun _ => ⟨⟨_, mem_push.mpr (.inl rfl), turn⟩, id⟩
    few := ?_
    fewer := fun receives => receives.elim }
  · rcases mem_push.mp member with rfl | rest
    · refine ⟨old.data, fun after => absurd after ?_, fun _ => ?_⟩
      · rw [turn]
        exact UInt64.lt_irrefl _
      · rw [append_assoc, take_append_drop]
        exact old.turn turn
    · have former := assembled.fits other ((mem_of_pop pop).mpr (.inr rest))
      exact ⟨former.data, former.later, fun same => absurd same (others other rest)⟩
  · rw [bytes_answer]
    show queue.bytes ++ packet.payload.take count = _
    rw [assembled.bytes, append_assoc]
    rfl
  · have few := assembled.few
    show (heap.push _).size ≤ maxPackets + 2
    rw [size_push]
    omega

/-- A packet that is too early goes back into the heap. -/
theorem early (later : queue.nextSeq < packet.seq)
    (room : heap.size ≤ queue.maxPackets) (size : Nat) : Assembled payloads maxPackets
      { queue with heap := heap.push packet, phase := .waiting size } part := by
  have unread := assembled.unread pop later
  have bound : (heap.push packet).size ≤ maxPackets + 1 := by
    rw [size_push, ← assembled.limit]
    exact Nat.succ_le_succ room
  exact { assembled with
    notStreaming := fun _ => nofun
    fits := fun other member =>
      assembled.fits other ((mem_of_pop pop).mpr (mem_push.mp member))
    begun := fun nonempty => absurd unread nonempty
    few := Nat.le_succ_of_le bound
    fewer := fun _ => bound }

theorem popped (numbered : payloads.length < 2 ^ 64) {size : Nat}
    (alone : packet.seq = queue.nextSeq → size < packet.payload.length →
      queue.heap.toList.countP (·.seq = queue.nextSeq) = 1) :
    ∃ part, Assembled payloads maxPackets (queue.popped size packet heap) part := by
  unfold Queue.popped
  by_cases turn : packet.seq = queue.nextSeq
  · rw [if_pos turn]
    by_cases short : min size packet.payload.length < packet.payload.length
    · rw [if_pos short]
      exact ⟨_, assembled.split pop turn (alone turn (by omega)) _⟩
    · rw [if_neg short, take_of_length_le (Nat.le_of_not_lt short)]
      exact ⟨_, assembled.whole pop numbered turn⟩
  · rw [if_neg turn]
    by_cases later : queue.nextSeq < packet.seq
    · rw [if_pos later]
      split
      · exact ⟨_, (assembled.dropped pop fun _ => turn).answer rfl⟩
      next room => exact ⟨_, assembled.early pop later (Nat.le_of_not_lt room) size⟩
    · rw [if_neg later]
      exact ⟨_, assembled.dropped pop fun _ => turn⟩

end

/-! #### Runs -/

theorem step (assembled : Assembled payloads maxPackets queue part)
    (numbered : payloads.length < 2 ^ 64) {event : Event}
    (of : PushesOf payloads event) (alone : Alone queue event) :
    ∃ part, Assembled payloads maxPackets (queue.step event) part := by
  fun_cases queue.step event with
  | case1 => exact ⟨_, assembled.push of⟩
  | case2 index => exact ⟨_, assembled.send index⟩
  | case3 index => exact ⟨_, assembled.refuse index⟩
  | case4 => exact ⟨_, assembled.close⟩
  | case5 sender => exact ⟨_, assembled.drain sender⟩
  | case6 size => exact ⟨_, assembled.read size⟩
  | case8 sender size packet rest taken phase =>
    obtain ⟨kept, of, samePhase, -⟩ := assembled.take taken
    rw [Queue.received, of.1]
    exact ⟨_, kept.receive (by rw [samePhase, phase]; trivial) of size⟩
  | case9 sender size packet rest taken phase =>
    obtain ⟨kept, of, samePhase, -⟩ := assembled.take taken
    exact ⟨_, kept.receive (by rw [samePhase, phase]; trivial) of size⟩
  | case11 | case14 | case16 => exact ⟨_, assembled.answer rfl⟩
  | case12 size phase packet heap pop =>
    simp only [Alone, phase] at alone
    exact assembled.popped pop numbered (alone packet ((mem_of_pop pop).mpr (.inl rfl)))
  | case19 result size phase => exact absurd phase (assembled.notStreaming size)
  | _ => exact ⟨_, assembled⟩

theorem flatten_take_isPrefix (payloads : List Bytes) (count : Nat) :
    (payloads.take count).flatten <+: payloads.flatten :=
  ⟨(payloads.drop count).flatten, by rw [← flatten_append, take_append_drop]⟩

theorem isPrefix (assembled : Assembled payloads maxPackets queue part) :
    queue.bytes <+: payloads.flatten := by
  rw [assembled.bytes]
  by_cases empty : part = []
  · rw [empty, append_nil]
    exact flatten_take_isPrefix _ _
  · obtain ⟨⟨packet, member, turn⟩, -⟩ := assembled.begun empty
    have data := (assembled.fits packet member).turn turn
    rw [Packet.number, turn] at data
    have step : (payloads.take (queue.nextSeq.toNat + 1)).flatten =
        (payloads.take queue.nextSeq.toNat).flatten ++ part ++ packet.payload := by
      rw [take_add_one, data, flatten_append, toList_some, flatten_singleton, append_assoc]
    exact (prefix_append _ packet.payload).trans (step ▸ flatten_take_isPrefix _ _)

end Assembled

/-- If every reader whose buffer is too small for the packet whose turn it is finds no second copy
of it, the bytes returned are the first bytes of the data, and the heap stays small. -/
theorem reassembled (maxPackets : Nat) (payloads : List Bytes) (numbered : payloads.length < 2 ^ 64)
    (events : List Event) (pushes : ∀ event ∈ events, PushesOf payloads event)
    (alone : Machine.Meets Queue.step Alone (newUploadQueue maxPackets) events) :
    (run maxPackets events).bytes <+: payloads.flatten ∧
      (run maxPackets events).heap.size ≤ maxPackets + 2 := by
  obtain ⟨part, assembled⟩ := invariant_drive
    (fun queue => ∃ part, Assembled payloads maxPackets queue part)
    ⟨[], .init payloads maxPackets⟩
    (fun queue event ⟨_, assembled⟩ met => assembled.step numbered met.2 met.1)
    (alone.and_of_mem pushes)
  exact ⟨assembled.isPrefix, assembled.few⟩

/-- Two copies of the second packet arrive before the first one, and the second packet is read byte
by byte. -/
def copies : List Event :=
  [.push ⟨none, [20, 21], 1⟩, .push ⟨none, [20, 21], 1⟩, .push ⟨none, [10], 0⟩,
    .send 0, .send 0, .send 0, .read 8, .receive none, .loop, .receive none, .loop, .receive none,
    .loop, .read 1, .loop, .read 1, .loop]

/-- The same packets, and the buffers have room for them. -/
def wholeCopies : List Event := copies.take 13 ++ [.read 8, .loop, .read 8, .loop]

/-- The second copy is received and passed over. -/
theorem reassembled_whole :
    (run 3 wholeCopies).bytes = [10, 20, 21] ∧
      (run 3 wholeCopies).bytes <+: [[10], [20, 21]].flatten ∧
      (run 3 wholeCopies).heap.size ≤ 3 + 2 := by
  refine ⟨by decide +kernel, ?_⟩
  exact reassembled 3 [[10], [20, 21]] (by decide) wholeCopies (by decide +kernel)
    (by decide +kernel)

/-- The first byte of the second packet is returned twice. -/
theorem copies_repeated : (∀ event ∈ copies, PushesOf [[10], [20, 21]] event) ∧
    (run 3 copies).bytes = [10, 20, 20] ∧
    ¬(run 3 copies).bytes <+: [[10], [20, 21]].flatten := by
  decide +kernel

end UploadQueue

end SingBox
