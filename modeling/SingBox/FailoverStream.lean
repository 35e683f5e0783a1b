/-
This file proves that a failover session preserves the byte stream of each
direction, as long as the counters mean what the other end takes them for. The
invariant of a direction says that the reader has a front of the frames, and that
the bytes on the way are a front of the rest; both ends of the rest meet again on a
fresh connection if the reader's counter is the number of frames it has received.

The counter is the number of calls of `Read`, so a frame that is read in two parts
counts twice. Nor does the reader forget a part of a frame that was cut off, or the
writer know of a frame that arrived although its write failed. Such a session loses
bytes, repeats them or breaks.
-/

import SingBox.Failover

namespace SingBox

open List Machine Function

open Duplex (Side)

namespace Failover

open Session Endpoint

/-! ### One direction -/

/-- The part of an end that sends. -/
structure Outgoing where
  attached : Bool
  stalled : Bool
  writeIndex : UInt32
  writeBuffers : Fin bufferSize → List UInt8
  pending : Option (List UInt8)
  written : List (List UInt8)

/-- The part of an end that receives. -/
structure Incoming where
  stalled : Bool
  readIndex : UInt32
  readBuffer : List UInt8
  returned : List UInt8
  received : Nat
  cut : Bool

def Endpoint.outgoing (endpoint : Endpoint) : Outgoing :=
  ⟨endpoint.attached, endpoint.writeStalled, endpoint.conn.writeIndex, endpoint.conn.writeBuffers,
    endpoint.pending, endpoint.written⟩

def Endpoint.incoming (endpoint : Endpoint) : Incoming :=
  ⟨endpoint.readStalled, endpoint.conn.readIndex, endpoint.conn.readBuffer, endpoint.returned,
    endpoint.received, endpoint.cut⟩

/-- The frames that were put on a connection, the last of them perhaps without success. -/
def Outgoing.offered (out : Outgoing) : List (List UInt8) :=
  out.written ++ if out.stalled then out.pending.toList else []

def slotOf (number : Nat) : Fin bufferSize := slot (UInt32.ofNat number)

/-- What the sending end keeps: frames have a length of 16 bits, and the last frame of each slot
is in the ring. -/
structure Sends (out : Outgoing) : Prop where
  lengths : ∀ b ∈ out.written ++ out.pending.toList, 0 < b.length ∧ b.length < 65536
  writeIndex : out.writeIndex = UInt32.ofNat out.written.length
  slots : ∀ number b, out.written[number]? = some b →
    (∀ later, number < later → later < out.written.length → slotOf later ≠ slotOf number) →
    out.writeBuffers (slotOf number) = b

/-- What the receiving end has of some frames, and what is on the way to it. -/
structure Takes (offered : List (List UInt8)) (inc : Incoming) (wire : List UInt8) : Prop where
  received : inc.received ≤ offered.length
  front : inc.returned ++ inc.readBuffer <+: offered.flatten
  exact : inc.cut = false → inc.returned ++ inc.readBuffer = (offered.take inc.received).flatten
  cut : inc.cut = true → inc.stalled = true
  onWire : wire <+: (offered.drop inc.received).flatMap frame

/-- The invariant of a direction. -/
structure Flows (out : Outgoing) (inc : Incoming) (wire : List UInt8) (alive : Bool) : Prop where
  sends : Sends out
  takes : Takes out.offered inc wire
  whole : alive = true → out.attached = true →
    wire = (out.offered.drop inc.received).flatMap frame

/-! ### Frames -/

variable {b wire : List UInt8} {session : Session}

theorem header_length (short : b.length < 65536) :
    (UInt8.ofNat (b.length / 256)).toNat * 256 + (UInt8.ofNat b.length).toNat = b.length := by
  rw [UInt8.toNat_ofNat', UInt8.toNat_ofNat']
  omega

theorem receive_frame (positive : 0 < b.length) (short : b.length < 65536) (rest : List UInt8) :
    receive (frame b ++ rest) = .frame b rest := by
  show receive (_ :: _ :: (b ++ rest)) = _
  rw [receive, header_length short, if_neg positive.ne',
    if_pos (by rw [length_append]; omega), take_left' rfl, drop_left' rfl]

/-- A frame that is cut off leaves a front of its payload. -/
theorem receive_cut {missing : List UInt8} (positive : 0 < b.length) (short : b.length < 65536)
    (cut : frame b = wire ++ missing) (some : missing ≠ []) :
    ∃ part, receive wire = .short part ∧ part <+: b := by
  match wire, cut with
  | [], _ => exact ⟨[], rfl, nil_prefix⟩
  | [_], _ => exact ⟨[], rfl, nil_prefix⟩
  | high :: low :: part, cut =>
    simp only [frame, cons_append, List.cons.injEq] at cut
    obtain ⟨rfl, rfl, cut⟩ := cut
    have less : part.length < b.length := by
      have length := congrArg List.length cut
      have some := length_pos_iff.mpr some
      rw [length_append] at length
      omega
    refine ⟨part, ?_, missing, cut.symm⟩
    rw [receive, header_length short, if_neg positive.ne', if_neg (Nat.not_le.mpr less)]

/-- What is received of a front of some frames. -/
theorem receive_front {frames : List (List UInt8)}
    (lengths : ∀ b ∈ frames, 0 < b.length ∧ b.length < 65536)
    (front : wire <+: frames.flatMap frame) :
    (∃ b later rest, frames = b :: later ∧ wire = frame b ++ rest ∧
        receive wire = .frame b rest ∧ rest <+: later.flatMap frame) ∨
      ∃ part, receive wire = .short part ∧ part <+: frames.flatten := by
  cases frames with
  | nil =>
    rw [flatMap_nil, prefix_nil] at front
    exact .inr ⟨[], by rw [front]; rfl, nil_prefix⟩
  | cons b later =>
    obtain ⟨positive, short⟩ := lengths b (.head _)
    obtain ⟨lost, whole⟩ := front
    have complete (rest : List UInt8) (same : rest ++ lost = later.flatMap frame)
        (split : wire = frame b ++ rest) : ∃ b' later' rest', b :: later = b' :: later' ∧
          wire = frame b' ++ rest' ∧ receive wire = .frame b' rest' ∧
          rest' <+: later'.flatMap frame :=
      ⟨b, later, rest, rfl, split, by rw [split]; exact receive_frame positive short rest,
        lost, same⟩
    rcases append_eq_append_iff.mp whole with ⟨missing, cut, same⟩ | ⟨rest, split, same⟩
    · by_cases none : missing = []
      · rw [none, append_nil] at cut
        rw [none, nil_append] at same
        exact .inl (complete [] same (by rw [append_nil, cut]))
      · obtain ⟨part, received, part'⟩ := receive_cut positive short cut none
        exact .inr ⟨part, received, part'.trans (prefix_append _ _)⟩
    · exact .inl (complete rest same.symm split)

/-! ### Calls -/

section

variable {out : Outgoing} {inc : Incoming} {wire : List UInt8} {alive : Bool}
  {offered : List (List UInt8)}

theorem offered_of_running (running : out.stalled = false) : out.offered = out.written := by
  rw [Outgoing.offered, running]
  exact append_nil _

def Outgoing.wrote (out : Outgoing) (b : List UInt8) : Outgoing :=
  { out with
    writeIndex := out.writeIndex + 1
    writeBuffers := Function.update out.writeBuffers (slot out.writeIndex) b
    pending := none
    written := out.written ++ [b] }

theorem ofNat_succ (number : Nat) : UInt32.ofNat number + 1 = UInt32.ofNat (number + 1) := by
  rw [UInt32.ofNat_add]
  rfl

/-- The ring after another frame. -/
theorem Sends.slots_wrote (sends : Sends out) (b : List UInt8) {number : Nat}
    {other : List UInt8} (listed : (out.written ++ [b])[number]? = some other)
    (last : ∀ later, number < later → later < (out.written ++ [b]).length →
      slotOf later ≠ slotOf number) :
    update out.writeBuffers (slot out.writeIndex) b (slotOf number) = other := by
  have newest : slot out.writeIndex = slotOf out.written.length := by
    rw [sends.writeIndex, slotOf]
  rw [length_append, length_singleton] at last
  rw [newest]
  rcases Nat.lt_trichotomy number out.written.length with old | rfl | beyond
  · rw [getElem?_append_left old] at listed
    rw [update_of_ne (last _ old (Nat.lt_succ_self _)).symm]
    exact sends.slots number other listed fun later above below =>
      last later above (Nat.lt_succ_of_lt below)
  · rw [getElem?_concat_length] at listed
    rw [update_self]
    exact Option.some.inj listed
  · rw [getElem?_eq_none (by rw [length_append]; exact beyond)] at listed
    cases listed

theorem Sends.wrote (sends : Sends out) (proper : 0 < b.length ∧ b.length < 65536) :
    Sends (out.wrote b) where
  lengths other member := by
    rcases mem_append.mp (append_nil (out.written ++ [b]) ▸ member) with old | new
    · exact sends.lengths other (mem_append_left _ old)
    · rw [mem_singleton.mp new]
      exact proper
  writeIndex := by
    show out.writeIndex + 1 = UInt32.ofNat (out.written ++ [b]).length
    rw [sends.writeIndex, ofNat_succ, length_append, length_singleton]
  slots _ _ := sends.slots_wrote b

theorem Sends.lengths_offered (sends : Sends out) (member : b ∈ out.offered) :
    0 < b.length ∧ b.length < 65536 := by
  refine sends.lengths b ?_
  rcases mem_append.mp member with written | pending
  · exact mem_append_left _ written
  · split_ifs at pending
    · exact mem_append_right _ pending
    · cases pending

/-- More frames are offered. -/
theorem Takes.append (takes : Takes offered inc wire) (more : List (List UInt8)) :
    Takes (offered ++ more) inc wire where
  received := takes.received.trans (by rw [length_append]; exact Nat.le_add_right _ _)
  front := takes.front.trans (by rw [flatten_append]; exact prefix_append _ _)
  exact uncut := by rw [take_append_of_le_length takes.received]; exact takes.exact uncut
  cut := takes.cut
  onWire := takes.onWire.trans (by
    rw [drop_append_of_le_length takes.received, flatMap_append]
    exact prefix_append _ _)

/-- Another frame on a connection that has all the others. -/
theorem Takes.offer (takes : Takes offered inc wire)
    (whole : wire = (offered.drop inc.received).flatMap frame) (b : List UInt8) :
    Takes (offered ++ [b]) inc (wire ++ frame b) ∧
      wire ++ frame b = ((offered ++ [b]).drop inc.received).flatMap frame := by
  have all : wire ++ frame b = ((offered ++ [b]).drop inc.received).flatMap frame := by
    rw [drop_append_of_le_length takes.received, flatMap_append, ← whole, flatMap_singleton]
  obtain ⟨received, front, exact', cut, -⟩ := takes.append [b]
  exact ⟨⟨received, front, exact', cut, all ▸ prefix_rfl⟩, all⟩

theorem Flows.wrote (flows : Flows out inc wire true) (attached : out.attached = true)
    (running : out.stalled = false) (proper : 0 < b.length ∧ b.length < 65536) :
    Flows (out.wrote b) inc (wire ++ frame b) true := by
  have offered : (out.wrote b).offered = out.offered ++ [b] := by
    rw [offered_of_running running]
    exact offered_of_running running
  obtain ⟨takes, whole⟩ := flows.takes.offer (flows.whole rfl attached) b
  rw [← offered] at takes whole
  exact ⟨flows.sends.wrote proper, takes, fun _ _ => whole⟩

def Outgoing.writeFailed (out : Outgoing) (b : List UInt8) : Outgoing :=
  { out with pending := some b, stalled := true }

theorem Sends.writeFailed (sends : Sends out) (proper : 0 < b.length ∧ b.length < 65536) :
    Sends (out.writeFailed b) := { sends with
  lengths other member := by
    rcases mem_append.mp member with old | new
    · exact sends.lengths other (mem_append_left _ old)
    · rw [mem_singleton.mp new]
      exact proper }

theorem Flows.writeFailed (flows : Flows out inc wire alive) (attached : out.attached = true)
    (running : out.stalled = false) (proper : 0 < b.length ∧ b.length < 65536) :
    Flows (out.writeFailed b) inc (if alive then wire ++ frame b else wire) alive := by
  have offered : (out.writeFailed b).offered = out.offered ++ [b] := by
    rw [offered_of_running running]
    rfl
  cases alive with
  | false =>
    have takes := flows.takes.append [b]
    rw [← offered] at takes
    exact ⟨flows.sends.writeFailed proper, takes, nofun⟩
  | true =>
    obtain ⟨takes, whole⟩ := flows.takes.offer (flows.whole rfl attached) b
    rw [← offered] at takes whole
    exact ⟨flows.sends.writeFailed proper, takes, fun _ _ => whole⟩

/-- The connection fails, and a part of what is on the way is delivered. -/
theorem Flows.fail (flows : Flows out inc wire alive) (delivered : Nat) :
    Flows out inc (wire.take delivered) false := by
  obtain ⟨sends, ⟨received, front, exact', cut, onWire⟩, -⟩ := flows
  exact ⟨sends, ⟨received, front, exact', cut, take_prefix _ _ |>.trans onWire⟩, nofun⟩

/-! ### Reads -/

variable {later : List (List UInt8)} {reader writer : Endpoint}

theorem take_drop_succ {received : Nat} (split : offered.drop received = b :: later) :
    offered.take (received + 1) = offered.take received ++ [b] ∧
      offered.drop (received + 1) = later ∧ received < offered.length := by
  have next : (offered.drop received)[0]? = (b :: later)[0]? := by rw [split]
  have rest := congrArg (List.drop 1) split
  rw [getElem?_drop, Nat.add_zero, getElem?_cons_zero] at next
  rw [drop_drop] at rest
  refine ⟨?_, rest, (List.getElem?_eq_some_iff.mp next).1⟩
  rw [take_add_one, next]
  rfl

section

variable (takes : Takes offered inc wire) (uncut : inc.cut = false)
  (empty : inc.readBuffer = [])

include takes uncut empty

/-- A read takes a frame from the connection. -/
theorem Takes.frame {rest : List UInt8} (split : offered.drop inc.received = b :: later)
    (onWire : rest <+: later.flatMap frame) (size : Nat) : Takes offered { inc with
      readIndex := inc.readIndex + 1
      readBuffer := b.drop size
      returned := inc.returned ++ b.take size
      received := inc.received + 1 } rest := by
  obtain ⟨taken, left, bound⟩ := take_drop_succ split
  have data : inc.returned ++ b.take size ++ b.drop size =
      (offered.take (inc.received + 1)).flatten := by
    have before := takes.exact uncut
    rw [empty, append_nil] at before
    rw [append_assoc, take_append_drop, taken, flatten_append, ← before, flatten_singleton]
  have all : (offered.take (inc.received + 1)).flatten <+: offered.flatten := by
    nth_rewrite 2 [← take_append_drop (inc.received + 1) offered]
    rw [flatten_append]
    exact prefix_append _ _
  refine ⟨bound, ?_, fun _ => data, takes.cut, ?_⟩
  · rw [data]
    exact all
  · rw [left]
    exact onWire

/-- A read sees the end of the connection, in the middle of a frame or before it. -/
theorem Takes.readFailed {part : List UInt8}
    (front : part <+: (offered.drop inc.received).flatten) : Takes offered { inc with
      stalled := true, readBuffer := part, cut := inc.cut || !part.isEmpty } [] := by
  have before := takes.exact uncut
  rw [empty, append_nil] at before
  refine ⟨takes.received, ?_, fun whole => ?_, fun _ => rfl, nil_prefix⟩
  · show inc.returned ++ part <+: _
    rw [before]
    nth_rewrite 2 [← take_append_drop inc.received offered]
    rw [flatten_append]
    exact (prefix_append_right_inj _).mpr front
  · have none : part = [] := by
      rw [uncut, Bool.false_or, Bool.not_eq_false'] at whole
      exact List.isEmpty_iff.mp whole
    rw [none, append_nil]
    exact before

end

theorem Flows.read (flows : Flows out reader.incoming wire alive) (size : Nat) :
    Flows out (reader.read wire alive size).1.incoming (reader.read wire alive size).2 alive := by
  unfold Endpoint.read
  by_cases stalled : reader.readStalled = true
  · rwa [if_pos stalled]
  rw [if_neg stalled]
  have uncut : reader.cut = false := by
    by_contra cut
    exact stalled (flows.takes.cut (Bool.of_not_eq_false cut))
  obtain ⟨sends, takes, whole⟩ := flows
  by_cases buffered : reader.conn.readBuffer ≠ []
  · rw [if_pos buffered]
    obtain ⟨received, front, exact', cut, onWire⟩ := takes
    have same : reader.returned ++ reader.conn.readBuffer.take size ++
        reader.conn.readBuffer.drop size = reader.returned ++ reader.conn.readBuffer := by
      rw [append_assoc, take_append_drop]
    refine ⟨sends, ⟨received, ?_, fun uncut => ?_, cut, onWire⟩, whole⟩
    · exact same ▸ front
    · exact same.trans (exact' uncut)
  rw [if_neg buffered]
  have empty : reader.conn.readBuffer = [] := not_not.mp buffered
  by_cases unable : reader.attached = false ∨ reader.closed = true
  · rw [if_pos unable]
    exact ⟨sends, takes, whole⟩
  rw [if_neg unable]
  have lengths : ∀ b ∈ out.offered.drop reader.received, 0 < b.length ∧ b.length < 65536 :=
    fun b member => sends.lengths_offered (mem_of_mem_drop member)
  rcases receive_front lengths takes.onWire with
    ⟨b, later, rest, split, framed, received, onWire⟩ | ⟨part, received, front⟩
  · rw [received]
    refine ⟨sends, takes.frame uncut empty split onWire size, fun living attached => ?_⟩
    have all := whole living attached
    rw [framed, show reader.incoming.received = reader.received from rfl, split,
      flatMap_cons] at all
    show rest = (out.offered.drop (reader.received + 1)).flatMap frame
    rw [(take_drop_succ split).2.1]
    exact append_cancel_left all
  · rw [received]
    dsimp only
    by_cases living : alive = true
    · rw [if_pos living]
      exact ⟨sends, takes, whole⟩
    · rw [if_neg living]
      exact ⟨sends, takes.readFailed uncut empty front, fun alive => absurd alive living⟩

/-! ### The next connection -/

theorem ofNat_eq_iff {first count : Nat} (ordered : first ≤ count)
    (window : count - first < 2 ^ 32) :
    UInt32.ofNat first = UInt32.ofNat count ↔ first = count := by
  refine ⟨fun same => ?_, fun same => by rw [same]⟩
  have residues := congrArg UInt32.toNat same
  rw [UInt32.toNat_ofNat', UInt32.toNat_ofNat'] at residues
  omega

/-- The loop collects what was written from a number on, if there is room for it. -/
theorem collect_eq {conn : FailoverConn} {count : Nat}
    (writeIndex : conn.writeIndex = UInt32.ofNat count) {room first : Nat}
    (ordered : first ≤ count) (window : count - first < 2 ^ 32) :
    conn.collect room (UInt32.ofNat first) = if count - first ≤ room then
      some ((List.range' first (count - first)).map fun number =>
        conn.writeBuffers (slotOf number)) else none := by
  induction room generalizing first with
  | zero =>
    rw [FailoverConn.collect, writeIndex]
    simp only [ofNat_eq_iff ordered window]
    by_cases done : first = count
    · rw [if_pos done, if_pos (by omega), done, Nat.sub_self]
      rfl
    · rw [if_neg done, if_neg (by omega)]
  | succ room ih =>
    rw [FailoverConn.collect, writeIndex]
    simp only [ofNat_eq_iff ordered window]
    by_cases done : first = count
    · rw [if_pos done, if_pos (by omega), done, Nat.sub_self]
      rfl
    · have more : count - first = count - (first + 1) + 1 := by omega
      rw [if_neg done, ofNat_succ, ih (by omega) (by omega), more]
      simp only [Nat.add_le_add_iff_right]
      split_ifs
      · rfl
      · rfl

/-- The counters of a direction mean what they are taken for: every call of `Read` that was
counted was a frame, no part of a frame is in the buffer, no frame has arrived whose write
failed, and the frames that are sent again are still in the ring. -/
structure Clean (out : Outgoing) (inc : Incoming) : Prop where
  counted : inc.readIndex = UInt32.ofNat inc.received
  uncut : inc.cut = false
  written : inc.received ≤ out.written.length
  window : out.written.length - inc.received < 2 ^ 32
  kept : out.written.length - inc.received ≤ bufferSize → ∀ number later, inc.received ≤ number →
    number < later → later < out.written.length → slotOf later ≠ slotOf number

/-- Before the counter of written frames has wrapped, frames that share a slot are not sent again
together. -/
theorem Clean.of_unwrapped (counted : inc.readIndex = UInt32.ofNat inc.received)
    (uncut : inc.cut = false) (written : inc.received ≤ out.written.length)
    (unwrapped : out.written.length < 2 ^ 32) : Clean out inc where
  counted
  uncut
  written
  window := by omega
  kept := by
    intro few number later above between below same
    have values := congrArg Fin.val same
    change (UInt32.ofNat later).toNat % 10 = (UInt32.ofNat number).toNat % 10 at values
    change out.written.length - inc.received ≤ 10 at few
    rw [UInt32.toNat_ofNat', UInt32.toNat_ofNat', Nat.mod_eq_of_lt (show later < 2 ^ 32 by omega),
      Nat.mod_eq_of_lt (show number < 2 ^ 32 by omega)] at values
    omega

/-- What is sent again are the frames that have not been received. -/
theorem Sends.resent (sends : Sends out) (clean : Clean out inc)
    (few : out.written.length - inc.received ≤ bufferSize) :
    ((List.range' inc.received (out.written.length - inc.received)).map fun number =>
      out.writeBuffers (slotOf number)) = out.written.drop inc.received := by
  refine ext_getElem? fun index => ?_
  rw [getElem?_map, getElem?_drop]
  by_cases within : index < out.written.length - inc.received
  · obtain ⟨b, listed⟩ : ∃ b, out.written[inc.received + index]? = some b :=
      ⟨_, getElem?_eq_getElem (by omega)⟩
    rw [getElem?_range' within, Nat.one_mul, listed]
    refine congrArg some (sends.slots _ b listed fun later above below => ?_)
    exact clean.kept few _ later (Nat.le_add_right _ _) above below
  · rw [getElem?_eq_none (by rw [length_range']; omega),
      getElem?_eq_none (by omega)]
    rfl

theorem restoreConn_eq (sends : Sends writer.outgoing)
    (clean : Clean writer.outgoing reader.incoming) : writer.conn.restoreConn reader.conn =
      if writer.written.length - reader.received ≤ bufferSize then
        some (writer.written.drop reader.received) else none := by
  have counted : reader.conn.readIndex = UInt32.ofNat reader.incoming.received := clean.counted
  rw [FailoverConn.restoreConn, counted, collect_eq sends.writeIndex clean.written clean.window]
  by_cases few : writer.outgoing.written.length - reader.incoming.received ≤ bufferSize
  · exact (if_pos few).trans ((congrArg some (sends.resent clean few)).trans (if_pos few).symm)
  · exact (if_neg few).trans (if_neg few).symm

theorem incoming_restore (endpoint peer : Endpoint) :
    (endpoint.restore peer).1.incoming = { endpoint.incoming with stalled := false } := by
  unfold restore
  split <;> rfl

theorem Flows.restore (flows : Flows writer.outgoing reader.incoming wire alive)
    (clean : Clean writer.outgoing reader.incoming) :
    Flows (writer.restore reader).1.outgoing (reader.restore writer).1.incoming
      (writer.restore reader).2 true := by
  obtain ⟨sends, takes, -⟩ := flows
  have data := takes.exact clean.uncut
  have front : reader.incoming.returned ++ reader.incoming.readBuffer =
      (writer.written.take reader.received).flatten := by
    rw [data, Outgoing.offered, take_append_of_le_length clean.written]
    rfl
  have all : (writer.written.take reader.received).flatten <+: writer.written.flatten := by
    nth_rewrite 2 [← take_append_drop reader.received writer.written]
    rw [flatten_append]
    exact prefix_append _ _
  have again (wire : List UInt8) (onWire : wire <+: (writer.written.drop
      reader.received).flatMap frame) :
      Takes writer.written { reader.incoming with stalled := false } wire :=
    ⟨clean.written, front ▸ all, fun _ => front, fun cut => absurd cut (by
      rw [clean.uncut]; decide), onWire⟩
  rw [incoming_restore]
  unfold Endpoint.restore
  rw [restoreConn_eq sends clean]
  by_cases few : writer.written.length - reader.received ≤ bufferSize
  · rw [if_pos few]
    have offered : (outgoing { writer with
        attached := true, readStalled := false, writeStalled := false }).offered =
          writer.written := offered_of_running rfl
    refine ⟨{ sends with }, ?_, fun _ _ => ?_⟩
    · rw [offered]
      exact again _ prefix_rfl
    · rw [offered]
      rfl
  · rw [if_neg few]
    dsimp only
    have offered : (outgoing { writer with
        attached := false, readStalled := false, writeStalled := false, broken := true }).offered =
          writer.written := offered_of_running rfl
    refine ⟨{ sends with }, ?_, nofun⟩
    rw [offered]
    exact again _ nil_prefix

end

/-! ### Sessions -/

/-- The direction of a session towards a side. -/
def Session.Flows (session : Session) (side : Side) : Prop :=
  Failover.Flows (session.ends side.other).outgoing (session.ends side).incoming
    (session.wire side.other) session.alive

/-- What is asked of the calls and of the state before the next connection. -/
def Careful (session : Session) : Event → Prop
  | .write _ b | .writeFails _ b => 0 < b.length ∧ b.length < 65536
  | .restore => ∀ side : Side,
    Clean (session.ends side.other).outgoing (session.ends side).incoming
  | .read .. | .fail _ => True

/-- At most ten frames have not been received before the next connection. -/
def FewUnread (session : Session) : Event → Prop
  | .restore => ∀ side : Side,
    (session.ends side.other).written.length - (session.ends side).received ≤ bufferSize
  | _ => True

/-- An update of the end at a side keeps the direction it receives from, or the one it sends to,
if it does so at that end. -/
theorem Session.flows_update {at' : Side} {endpoint : Endpoint} {wire : Side → List UInt8}
    (sends : Failover.Flows endpoint.outgoing (session.ends at'.other).incoming (wire at')
      session.alive)
    (receives : Failover.Flows (session.ends at'.other).outgoing endpoint.incoming
      (wire at'.other) session.alive) (side : Side) :
    Session.Flows { session with ends := update session.ends at' endpoint, wire }
      side := by
  rcases side.eq_or_other at' with rfl | rfl
  · unfold Session.Flows
    dsimp only
    rw [update_of_ne (Side.other_ne _), update_self]
    exact receives
  · unfold Session.Flows
    dsimp only
    rw [Side.other_other, update_self, update_of_ne (Side.other_ne _)]
    exact sends

/-- `Read` leaves the writing half of its end as it is, and does not break the session. -/
theorem read_keeps (endpoint : Endpoint) (wire : List UInt8) (alive : Bool) (size : Nat) :
    (endpoint.read wire alive size).1.outgoing = endpoint.outgoing ∧
      (endpoint.read wire alive size).1.broken = endpoint.broken := by
  fun_cases endpoint.read wire alive size with
  | _ => exact ⟨rfl, rfl⟩

/-- Every event that meets the condition keeps the invariant of both directions. -/
theorem Session.flows_step (flows : ∀ side, session.Flows side) {event : Event}
    (careful : Careful session event) (side : Side) : (session.step event).Flows side := by
  have sends (at' : Side) : Failover.Flows (session.ends at').outgoing
      (session.ends at'.other).incoming (session.wire at') session.alive := by
    have sends := flows at'.other
    unfold Session.Flows at sends
    rwa [Side.other_other] at sends
  cases event with
  | write at' b =>
    rw [step]
    split_ifs with may
    · obtain ⟨alive, attached, running, -⟩ := may
      refine flows_update ?_ ?_ side
      · rw [update_self, alive]
        exact Flows.wrote (alive ▸ sends at') attached running careful
      · rw [update_of_ne (Side.other_ne _)]
        exact flows at'
    · exact flows side
  | writeFails at' b =>
    rw [step]
    by_cases may : (session.ends at').MayWrite b
    · have failed := (sends at').writeFailed may.1 may.2.1 careful
      rw [if_pos may]
      refine flows_update ?_ ?_ side
      · cases living : session.alive with
        | false => rw [living] at failed; exact failed
        | true =>
          rw [living] at failed
          rw [if_pos rfl, update_self]
          exact failed
      · have kept := flows at'
        split_ifs
        · rw [update_of_ne (Side.other_ne _)]
          exact kept
        · exact kept
    · rw [if_neg may]
      exact flows side
  | read at' size =>
    refine flows_update ?_ ?_ side
    · rw [update_of_ne (Side.other_ne _).symm, (read_keeps _ _ _ _).1]
      exact sends at'
    · rw [update_self]
      exact (flows at').read size
  | fail delivered =>
    rw [step]
    split_ifs
    · exact (flows side).fail _
    · exact flows side
  | restore =>
    rw [step]
    split_ifs
    · have again := (flows side).restore (careful side)
      unfold Session.Flows
      dsimp only
      rwa [Side.other_other]
    · exact flows side

theorem flows_run {events : List Event} (careful : Meets step Careful {} events)
    (side : Side) : (run events).Flows side := by
  refine invariant_drive (fun session => ∀ side, session.Flows side) (fun side => ?_)
    (fun session event flows careful => flows_step flows careful) careful side
  exact ⟨⟨nofun, rfl, nofun⟩, ⟨Nat.le_refl 0, prefix_rfl, fun _ => rfl, nofun,
    prefix_rfl⟩, fun _ _ => rfl⟩

/-! ### Broken sessions -/

theorem Session.broken_step (flows : ∀ side, session.Flows side)
    (unbroken : ∀ side, (session.ends side).broken = false) {event : Event}
    (careful : Careful session event) (few : FewUnread session event) (side : Side) :
    ((session.step event).ends side).broken = false := by
  have update (at' : Side) (endpoint : Endpoint) (kept : endpoint.broken = false) :
      (update session.ends at' endpoint side).broken = false := by
    rw [update_apply]
    split_ifs
    · exact kept
    · exact unbroken side
  fun_cases session.step event with
  | case1 at' | case3 at' => exact update at' _ (unbroken at')
  | case5 at' => exact update at' _ ((read_keeps _ _ _ _).2.trans (unbroken at'))
  | case8 =>
    have flow := flows side.other
    have clean := careful side.other
    have unread := few side.other
    unfold Session.Flows at flow
    rw [Side.other_other] at flow clean unread
    show ((session.ends side).restore (session.ends side.other)).1.broken = false
    rw [restore, restoreConn_eq flow.sends clean, if_pos unread]
    exact unbroken side
  | _ => exact unbroken side

/-- In a session whose events meet the condition, what one side has read is a front of what was
passed to `Write` at the other side. If at most ten frames are unread whenever the ends meet on
the next connection, the session does not break. -/
theorem failover_stream {events : List Event}
    (careful : Machine.Meets Session.step Careful {} events) (side : Side) :
    ((run events).ends side).returned <+:
        (((run events).ends side.other).written ++
          ((run events).ends side.other).pending.toList).flatten ∧
      (Machine.Meets Session.step FewUnread {} events →
        ((run events).ends side).broken = false) := by
  constructor
  · have front := (flows_run careful side).takes.front
    refine ((prefix_append _ _).trans front).trans ?_
    rw [Outgoing.offered]
    split_ifs
    · exact prefix_rfl
    · rw [append_nil, flatten_append]
      exact prefix_append _ _
  · intro few
    have both := invariant_drive
      (fun session => (∀ side, session.Flows side) ∧ ∀ side, (session.ends side).broken = false)
      ⟨@flows_run [] trivial, fun _ => rfl⟩
      (fun session event holds meets =>
        ⟨Session.flows_step holds.1 meets.1, Session.broken_step holds.1 holds.2 meets.1 meets.2⟩)
      (careful.and few)
    exact both.2 side

/-- A session in which the second frame is lost with its connection, and sent again. -/
def lostFrame : List Event :=
  [.write .client [1, 2], .write .client [3, 4], .read .server 9, .fail fun _ => 1,
    .read .server 9, .restore, .read .server 9, .write .client [5], .read .server 9]

theorem careful_lostFrame : Meets step Careful {} lostFrame := by
  refine ⟨⟨by decide, by decide⟩, ⟨by decide, by decide⟩, trivial, trivial, trivial, fun side => ?_,
    trivial, ⟨by decide, by decide⟩, trivial, trivial⟩
  cases side with
  | client | server => exact Clean.of_unwrapped rfl rfl (by decide) (by decide)

theorem failover_stream_lostFrame :
    ((run lostFrame).ends .server).returned = [1, 2, 3, 4, 5] ∧
      [1, 2, 3, 4, 5] <+: (((run lostFrame).ends .client).written ++
        ((run lostFrame).ends .client).pending.toList).flatten ∧
      ((run lostFrame).ends .server).broken = false := by
  have returned : ((run lostFrame).ends .server).returned = [1, 2, 3, 4, 5] := by decide
  have stream := failover_stream careful_lostFrame .server
  refine ⟨returned, stream.1, stream.2 ⟨trivial, trivial, trivial, trivial, trivial, fun side => ?_,
    trivial, trivial, trivial, trivial⟩⟩
  cases side <;> decide

/-- A session in which the first frame is read in two parts, and the second is lost with its
connection. -/
def splitRead : List Event :=
  [.write .client [1, 2], .write .client [3, 4], .read .server 1, .read .server 1,
    .fail fun _ => 0, .restore, .write .client [5, 6], .read .server 9]

/-- A frame that is read in two parts is counted twice, so the frame after it is not sent again;
where no frame is after it, the session breaks although nothing is unread. -/
theorem splitRead_loses :
    ((run splitRead).ends .server).returned = [1, 2, 5, 6] ∧
      ((run splitRead).ends .client).written = [[1, 2], [3, 4], [5, 6]] ∧
      ¬ ((run splitRead).ends .server).returned <+: ((run splitRead).ends .client).written.flatten ∧
      ((run [.write .client [1, 2], .read .server 1, .read .server 1, .fail fun _ => 0,
        .restore]).ends .client).broken = true := by
  decide

end Failover

end SingBox
