/-
This file embeds the connections of mKCP. The sending worker gives every buffer the
next number of 32 bits and keeps it in its window until it is acknowledged, by its
number or by the number the peer expects next. The receiving worker keeps what
arrives in a map, until the segments before it have been read.

Two connections and the packets between them are a session. Its actions are the
sections that the locks of the source make atomic: one buffer of a call of `Write`,
one attempt of `Read`, the two flushes, a ping, the update of the state, the input of
a packet, `Close` and the release at the end.
-/

import SingBox.Duplex
import Mathlib

namespace SingBox

open Function

namespace Kcp

/-! ### Configuration and round trips -/

inductive State where
  | active
  | readyToClose
  | peerClosed
  | terminating
  | peerTerminating
  | terminated
  deriving DecidableEq, Repr

structure Config where
  mtu : UInt32 := 0
  tti : UInt32 := 0
  uplinkCapacity : UInt32 := 0
  downlinkCapacity : UInt32 := 0
  congestion : Bool := false
  writeBufferSize : UInt32 := 0
  deriving DecidableEq, Repr

def Config.getMTUValue (config : Config) : UInt32 :=
  if config.mtu = 0 then 1350 else config.mtu

def Config.getTTIValue (config : Config) : UInt32 :=
  if config.tti = 0 then 50 else config.tti

def Config.getUplinkCapacityValue (config : Config) : UInt32 :=
  if config.uplinkCapacity = 0 then 12 else config.uplinkCapacity

def Config.getDownlinkCapacityValue (config : Config) : UInt32 :=
  if config.downlinkCapacity = 0 then 100 else config.downlinkCapacity

def Config.getWriteBufferSize (config : Config) : UInt32 :=
  if config.writeBufferSize = 0 then 2 * 1024 * 1024 else config.writeBufferSize * 1024 * 1024

/-- The number of segments in flight for a capacity. -/
def Config.inFlightSize (config : Config) (capacity : UInt32) : UInt32 :=
  let size := capacity * 1024 * 1024 / config.getMTUValue / (1000 / config.getTTIValue)
  if size < 8 then 8 else size

def Config.getSendingInFlightSize (config : Config) : UInt32 :=
  config.inFlightSize config.getUplinkCapacityValue

def Config.getSendingBufferSize (config : Config) : UInt32 :=
  config.getWriteBufferSize / config.getMTUValue

def Config.getReceivingInFlightSize (config : Config) : UInt32 :=
  config.inFlightSize config.getDownlinkCapacityValue

structure RoundTripInfo where
  variation : UInt32 := 0
  srtt : UInt32 := 0
  rto : UInt32 := 0
  minRtt : UInt32 := 0
  updatedTimestamp : UInt32 := 0
  deriving DecidableEq, Repr

def RoundTripInfo.updatePeerRTO (info : RoundTripInfo) (rto current : UInt32) : RoundTripInfo :=
  if current - info.updatedTimestamp < 3000 then info
  else { info with updatedTimestamp := current, rto := rto }

/-- The estimates of `Update` after a measured round trip. -/
def RoundTripInfo.measure (info : RoundTripInfo) (rtt : UInt32) : RoundTripInfo :=
  if info.srtt = 0 then { info with srtt := rtt, variation := rtt / 2 }
  else
    let delta := if info.srtt > rtt then info.srtt - rtt else rtt - info.srtt
    let srtt := (7 * info.srtt + rtt) / 8
    { info with
      variation := (3 * info.variation + delta) / 4
      srtt := if srtt < info.minRtt then info.minRtt else srtt }

def RoundTripInfo.update (info : RoundTripInfo) (rtt current : UInt32) : RoundTripInfo :=
  if rtt > 0x7FFFFFFF then info
  else
    let measured := info.measure rtt
    let rto := if measured.minRtt < 4 * measured.variation then
        measured.srtt + 4 * measured.variation
      else measured.srtt + measured.variation
    let bounded := if rto > 10000 then 10000 else rto
    { measured with rto := bounded * 5 / 4, updatedTimestamp := current }

def RoundTripInfo.timeout (info : RoundTripInfo) : UInt32 :=
  if info.rto = 0 then 100 else info.rto

/-! ### Segments -/

def segmentOptionClose : UInt8 := 1

structure DataSegment where
  conv : UInt16 := 0
  option : UInt8 := 0
  timestamp : UInt32 := 0
  number : UInt32
  sendingNext : UInt32 := 0
  payload : List UInt8
  timeout : UInt32 := 0
  transmit : UInt32 := 0
  deriving DecidableEq, Repr

/-- A segment as the peer parses it: the fields that are not on the wire are empty. -/
def DataSegment.onWire (segment : DataSegment) : DataSegment :=
  { segment with timeout := 0, transmit := 0 }

structure AckSegment where
  conv : UInt16 := 0
  option : UInt8 := 0
  receivingWindow : UInt32 := 0
  receivingNext : UInt32 := 0
  timestamp : UInt32 := 0
  numberList : List UInt32 := []
  deriving DecidableEq, Repr

/-- The commands of segments that carry nothing but a command. -/
inductive Command where
  | terminate
  | ping
  deriving DecidableEq, Repr

structure CmdOnlySegment where
  conv : UInt16 := 0
  cmd : Command
  option : UInt8 := 0
  sendingNext : UInt32 := 0
  receivingNext : UInt32 := 0
  peerRTO : UInt32 := 0
  deriving DecidableEq, Repr

inductive Segment where
  | data (segment : DataSegment)
  | ack (segment : AckSegment)
  | cmd (segment : CmdOnlySegment)
  deriving DecidableEq, Repr

def Segment.conversation : Segment → UInt16
  | .data segment => segment.conv
  | .ack segment => segment.conv
  | .cmd segment => segment.conv

def Segment.option : Segment → UInt8
  | .data segment => segment.option
  | .ack segment => segment.option
  | .cmd segment => segment.option

def ackNumberLimit : Nat := 128

def AckSegment.putTimestamp (segment : AckSegment) (timestamp : UInt32) : AckSegment :=
  if timestamp - segment.timestamp < 0x7FFFFFFF then { segment with timestamp := timestamp }
  else segment

def AckSegment.putNumber (segment : AckSegment) (number : UInt32) : AckSegment :=
  { segment with numberList := segment.numberList ++ [number] }

def AckSegment.isFull (segment : AckSegment) : Bool :=
  segment.numberList.length == ackNumberLimit

def AckSegment.isEmpty (segment : AckSegment) : Bool := segment.numberList.isEmpty

/-! ### The sending window -/

structure SendingWindow where
  cache : List DataSegment := []
  totalInFlightSize : UInt32 := 0
  deriving DecidableEq, Repr

def SendingWindow.len (window : SendingWindow) : UInt32 := UInt32.ofNat window.cache.length

def SendingWindow.push (window : SendingWindow) (number : UInt32) (b : List UInt8) :
    SendingWindow :=
  { window with cache := window.cache ++ [{ number := number, payload := b }] }

/-- Segments leave the front of the window while their number is below the given one. -/
def SendingWindow.clear (window : SendingWindow) (una : UInt32) : SendingWindow :=
  { window with cache := window.cache.dropWhile fun segment => segment.number < una }

/-- The visitor of `HandleFastAck` on a list of segments. -/
def fastAck (number rto : UInt32) : List DataSegment → List DataSegment
  | [] => []
  | segment :: rest =>
    if number = segment.number ∨ number - segment.number > 0x7FFFFFFF then segment :: rest
    else
      (if segment.transmit > 0 ∧ segment.timeout > rto / 3 then
        { segment with timeout := segment.timeout - rto / 3 } else segment) ::
        fastAck number rto rest

def SendingWindow.handleFastAck (window : SendingWindow) (number rto : UInt32) : SendingWindow :=
  { window with cache := fastAck number rto window.cache }

/-- What the visitor of `Flush` has done: the segments of the window after it, those it has
written, and its counters. -/
structure Flushed where
  cache : List DataSegment
  written : List DataSegment := []
  totalInFlightSize : UInt32
  lost : UInt32
  inFlightSize : UInt32

/-- The visitor of `Flush` on a list of segments; `stamp` is what `SendingWorker.Write` puts into
a segment. -/
def visitFlush (stamp : DataSegment → DataSegment) (current rto maxInFlightSize : UInt32) :
    List DataSegment → UInt32 → UInt32 → UInt32 → Flushed
  | [], total, lost, inFlight => ⟨[], [], total, lost, inFlight⟩
  | segment :: rest, total, lost, inFlight =>
    if current - segment.timeout ≥ 0x7FFFFFFF then
      let flushed := visitFlush stamp current rto maxInFlightSize rest total lost inFlight
      { flushed with cache := segment :: flushed.cache }
    else
      let total' := if segment.transmit = 0 then total + 1 else total
      let lost' := if segment.transmit = 0 then lost else lost + 1
      let written := stamp { segment with
        timeout := current + rto, timestamp := current, transmit := segment.transmit + 1 }
      if inFlight + 1 < maxInFlightSize then
        let flushed := visitFlush stamp current rto maxInFlightSize rest total' lost' (inFlight + 1)
        { flushed with cache := written :: flushed.cache, written := written :: flushed.written }
      else ⟨written :: rest, [written], total', lost', inFlight + 1⟩

/-- The walk of `Remove` over the window. There is nothing after it if nothing was removed. -/
def removeNumber (number : UInt32) : List DataSegment → Option (List DataSegment)
  | [] => none
  | segment :: rest =>
    if segment.number > number then none
    else if segment.number = number then some rest
    else (removeNumber number rest).map (segment :: ·)

def SendingWindow.remove (window : SendingWindow) (number : UInt32) : Option SendingWindow :=
  (removeNumber number window.cache).map fun cache =>
    { cache := cache
      totalInFlightSize :=
        if window.totalInFlightSize > 0 then window.totalInFlightSize - 1
        else window.totalInFlightSize }

/-! ### The sending worker -/

structure SendingWorker where
  window : SendingWindow := {}
  firstUnacknowledged : UInt32 := 0
  nextNumber : UInt32 := 0
  remoteNextNumber : UInt32 := 32
  controlWindow : UInt32
  windowSize : UInt32
  firstUnacknowledgedUpdated : Bool := false
  closed : Bool := false
  deriving DecidableEq, Repr

def newSendingWorker (config : Config) : SendingWorker :=
  { controlWindow := config.getSendingInFlightSize, windowSize := config.getSendingBufferSize }

def SendingWorker.release (worker : SendingWorker) : SendingWorker :=
  { worker with window := { worker.window with cache := [] }, closed := true }

def SendingWorker.findFirstUnacknowledged (worker : SendingWorker) : SendingWorker :=
  let first := match worker.window.cache with
    | segment :: _ => segment.number
    | [] => worker.nextNumber
  { worker with
    firstUnacknowledged := first
    firstUnacknowledgedUpdated :=
      worker.firstUnacknowledgedUpdated || worker.firstUnacknowledged != first }

def SendingWorker.processReceivingNext (worker : SendingWorker) (nextNumber : UInt32) :
    SendingWorker :=
  { worker with window := worker.window.clear nextNumber }.findFirstUnacknowledged

/-- `processAck`, with whether a segment was removed. -/
def SendingWorker.processAck (worker : SendingWorker) (number : UInt32) : SendingWorker × Bool :=
  if number - worker.firstUnacknowledged > 0x7FFFFFFF ∨
      number - worker.nextNumber < 0x7FFFFFFF then (worker, false)
  else
    match worker.window.remove number with
    | none => (worker, false)
    | some window => ({ worker with window := window }.findFirstUnacknowledged, true)

/-- The loop of `ProcessSegment` over the acknowledged numbers, with `maxack` and
`maxackRemoved`. -/
def SendingWorker.processAcks : SendingWorker → List UInt32 → UInt32 → Bool →
    SendingWorker × UInt32 × Bool
  | worker, [], maxack, maxackRemoved => (worker, maxack, maxackRemoved)
  | worker, number :: rest, maxack, maxackRemoved =>
    let result := worker.processAck number
    if maxack < number then result.1.processAcks rest number result.2
    else result.1.processAcks rest maxack maxackRemoved

/-- `ProcessSegment`, with the round trip of the connection. -/
def SendingWorker.processSegment (worker : SendingWorker) (roundTrip : RoundTripInfo)
    (current : UInt32) (segment : AckSegment) (rto : UInt32) : SendingWorker × RoundTripInfo :=
  if worker.closed then (worker, roundTrip)
  else
    let advanced := { worker with
      remoteNextNumber := if worker.remoteNextNumber < segment.receivingWindow then
        segment.receivingWindow else worker.remoteNextNumber }
    let cleared := advanced.processReceivingNext segment.receivingNext
    if segment.isEmpty then (cleared, roundTrip)
    else
      let (acked, maxack, maxackRemoved) := cleared.processAcks segment.numberList 0 false
      if maxackRemoved then
        ({ acked with window := acked.window.handleFastAck maxack rto },
          if current - segment.timestamp < 10000 then
            roundTrip.update (current - segment.timestamp) current else roundTrip)
      else (acked, roundTrip)

/-- `Push`, if there is room. -/
def SendingWorker.push (worker : SendingWorker) (b : List UInt8) : Option SendingWorker :=
  if worker.closed then none
  else if worker.window.len > worker.windowSize then none
  else some { worker with
    window := worker.window.push worker.nextNumber b
    nextNumber := worker.nextNumber + 1 }

def SendingWorker.onPacketLoss (worker : SendingWorker) (config : Config)
    (roundTrip : RoundTripInfo) (lossRate : UInt32) : SendingWorker :=
  if config.congestion = false ∨ roundTrip.timeout = 0 then worker
  else
    let changed := if lossRate ≥ 15 then 3 * worker.controlWindow / 4
      else if lossRate ≤ 5 then worker.controlWindow + worker.controlWindow / 4
      else worker.controlWindow
    let least := if changed < 16 then 16 else changed
    { worker with
      controlWindow := if least > 2 * config.getSendingInFlightSize then
        2 * config.getSendingInFlightSize else least }

/-- What `Write` of the worker puts into a segment. -/
def SendingWorker.stamp (worker : SendingWorker) (conv : UInt16) (state : State)
    (segment : DataSegment) : DataSegment :=
  { segment with
    conv := conv
    sendingNext := worker.firstUnacknowledged
    option := if state = .readyToClose then segmentOptionClose else 0 }

/-- The window that `Flush` gives to the window of segments. -/
def SendingWorker.cwnd (worker : SendingWorker) (config : Config) : UInt32 :=
  let remote := worker.remoteNextNumber - worker.firstUnacknowledged
  let cwnd := if config.getSendingInFlightSize > remote then remote
    else config.getSendingInFlightSize
  (if config.congestion = true ∧ cwnd > worker.controlWindow then worker.controlWindow
    else cwnd) * 20

/-- `Flush`, with the segments it writes. -/
def SendingWorker.flush (worker : SendingWorker) (config : Config) (roundTrip : RoundTripInfo)
    (conv : UInt16) (state : State) (current : UInt32) : SendingWorker × List DataSegment :=
  if worker.closed then (worker, [])
  else if worker.window.cache.isEmpty then
    ({ worker with firstUnacknowledgedUpdated := false }, [])
  else
    let flushed := visitFlush (worker.stamp conv state) current roundTrip.timeout
      (worker.cwnd config) worker.window.cache worker.window.totalInFlightSize 0 0
    let written := { worker with
      window := ⟨flushed.cache, flushed.totalInFlightSize⟩
      firstUnacknowledgedUpdated := false }
    (if flushed.inFlightSize > 0 ∧ flushed.totalInFlightSize ≠ 0 then
      written.onPacketLoss config roundTrip (flushed.lost * 100 / flushed.totalInFlightSize)
      else written, flushed.written)

def SendingWorker.closeWrite (worker : SendingWorker) : SendingWorker :=
  { worker with window := worker.window.clear 0xFFFFFFFF }

/-! ### The receiving worker -/

structure ReceivingWindow where
  cache : List (UInt32 × DataSegment) := []
  deriving DecidableEq, Repr

def ReceivingWindow.set (window : ReceivingWindow) (id : UInt32) (value : DataSegment) :
    ReceivingWindow :=
  if (window.cache.lookup id).isSome then window else ⟨window.cache ++ [(id, value)]⟩

def ReceivingWindow.remove (window : ReceivingWindow) (id : UInt32) :
    Option (DataSegment × ReceivingWindow) :=
  (window.cache.lookup id).map fun value => (value, ⟨window.cache.filter fun entry => entry.1 ≠ id⟩)

/-- An entry of the three slices of an `AckList`. -/
structure AckEntry where
  number : UInt32
  timestamp : UInt32
  nextFlush : UInt32 := 0
  deriving DecidableEq, Repr

structure AckList where
  entries : List AckEntry := []
  dirty : Bool := false
  deriving DecidableEq, Repr

def AckList.add (list : AckList) (number timestamp : UInt32) : AckList :=
  { entries := list.entries ++ [{ number := number, timestamp := timestamp }], dirty := true }

def AckList.clear (list : AckList) (una : UInt32) : AckList :=
  let entries := list.entries.filter fun entry => ¬ entry.number < una
  { entries := entries, dirty := list.dirty || entries.length < list.entries.length }

/-- The state of the loop of `AckList.Flush`. -/
structure AckFlush where
  entries : List AckEntry := []
  segment : AckSegment := {}
  candidates : List UInt32 := []
  written : List AckSegment := []
  dirty : Bool

/-- One round of the loop of `AckList.Flush`. -/
def AckFlush.visit (current rto : UInt32) (state : AckFlush) (entry : AckEntry) : AckFlush :=
  if entry.nextFlush > current then
    { state with
      entries := state.entries ++ [entry]
      candidates := if state.candidates.length < 128 then state.candidates ++ [entry.number]
        else state.candidates }
  else
    let segment := (state.segment.putNumber entry.number).putTimestamp entry.timestamp
    let timeout := if rto / 2 < 20 then 20 else rto / 2
    let visited := { state with
      entries := state.entries ++ [{ entry with nextFlush := current + timeout }] }
    if segment.isFull then
      { visited with written := state.written ++ [segment], segment := {}, dirty := false }
    else { visited with segment := segment }

/-- `AckList.Flush`, with the segments it writes. -/
def AckList.flush (list : AckList) (current rto : UInt32) : AckList × List AckSegment :=
  let state := list.entries.foldl (AckFlush.visit current rto) { dirty := list.dirty }
  if state.dirty ∨ ¬ state.segment.isEmpty then
    let segment := state.candidates.foldl
      (fun segment number => if segment.isFull then segment else segment.putNumber number)
      state.segment
    ({ entries := state.entries, dirty := false }, state.written ++ [segment])
  else ({ entries := state.entries, dirty := state.dirty }, state.written)

structure ReceivingWorker where
  leftOver : Option (List (List UInt8)) := none
  window : ReceivingWindow := {}
  acklist : AckList := {}
  nextNumber : UInt32 := 0
  windowSize : UInt32
  deriving DecidableEq, Repr

def newReceivingWorker (config : Config) : ReceivingWorker :=
  { windowSize := config.getReceivingInFlightSize }

def ReceivingWorker.release (worker : ReceivingWorker) : ReceivingWorker :=
  { worker with leftOver := none }

def ReceivingWorker.processSendingNext (worker : ReceivingWorker) (number : UInt32) :
    ReceivingWorker :=
  { worker with acklist := worker.acklist.clear number }

def ReceivingWorker.processSegment (worker : ReceivingWorker) (segment : DataSegment) :
    ReceivingWorker :=
  if segment.number - worker.nextNumber ≥ worker.windowSize then worker
  else { worker with
    acklist := (worker.acklist.clear segment.sendingNext).add segment.number segment.timestamp
    window := worker.window.set segment.number segment }

/-- The loop of `ReadMultiBuffer`, for at most the given number of rounds. -/
def ReceivingWorker.collect : Nat → ReceivingWorker → ReceivingWorker × List (List UInt8)
  | 0, worker => (worker, [])
  | rounds + 1, worker =>
    match worker.window.remove worker.nextNumber with
    | none => (worker, [])
    | some (segment, window) =>
      let result := collect rounds
        { worker with window := window, nextNumber := worker.nextNumber + 1 }
      (result.1, segment.payload :: result.2)

/-- What `ReadMultiBuffer` takes from the window. -/
def ReceivingWorker.ready (worker : ReceivingWorker) : List (List UInt8) :=
  if worker.leftOver.isSome then []
  else (worker.collect worker.window.cache.length).2

def ReceivingWorker.readMultiBuffer (worker : ReceivingWorker) :
    ReceivingWorker × List (List UInt8) :=
  match worker.leftOver with
  | some mb => ({ worker with leftOver := none }, mb)
  | none => worker.collect worker.window.cache.length

/-- `SplitBytes` into a buffer of the given size: what is left over, and the bytes. -/
def splitBytes : List (List UInt8) → Nat → List (List UInt8) × List UInt8
  | [], _ => ([], [])
  | buffer :: rest, size =>
    if buffer.drop size ≠ [] then (buffer.drop size :: rest, buffer.take size)
    else
      let result := splitBytes rest (size - buffer.length)
      (result.1, buffer.take size ++ result.2)

def ReceivingWorker.read (worker : ReceivingWorker) (size : Nat) :
    ReceivingWorker × List UInt8 :=
  let (worker, mb) := worker.readMultiBuffer
  if mb.all List.isEmpty then (worker, [])
  else
    let (rest, bytes) := splitBytes mb size
    (if rest.all List.isEmpty then worker else { worker with leftOver := some rest }, bytes)

/-- What `Write` of the worker puts into a segment. -/
def ReceivingWorker.stamp (worker : ReceivingWorker) (conv : UInt16) (state : State)
    (segment : AckSegment) : AckSegment :=
  { segment with
    conv := conv
    receivingNext := worker.nextNumber
    receivingWindow := worker.nextNumber + worker.windowSize
    option := if state = .readyToClose then segmentOptionClose else 0 }

/-- `Flush`, with the segments it writes. -/
def ReceivingWorker.flush (worker : ReceivingWorker) (roundTrip : RoundTripInfo) (conv : UInt16)
    (state : State) (current : UInt32) : ReceivingWorker × List AckSegment :=
  let (acklist, written) := worker.acklist.flush current roundTrip.timeout
  ({ worker with acklist := acklist }, written.map (worker.stamp conv state))

/-! ### Connections -/

structure Connection where
  conversation : UInt16
  config : Config
  state : State := .active
  stateBeginTime : UInt32 := 0
  lastIncomingTime : UInt32 := 0
  lastPingTime : UInt32 := 0
  mss : UInt32
  roundTrip : RoundTripInfo
  receivingWorker : ReceivingWorker
  sendingWorker : SendingWorker
  deriving DecidableEq, Repr

def dataSegmentOverhead : UInt32 := 18

/-- A connection over a packet writer with the given overhead. -/
def newConnection (conversation : UInt16) (overhead : UInt32) (config : Config) : Connection :=
  { conversation := conversation
    config := config
    mss := config.getMTUValue - overhead - dataSegmentOverhead
    roundTrip := { rto := 100, minRtt := config.getTTIValue }
    receivingWorker := newReceivingWorker config
    sendingWorker := newSendingWorker config }

/-- `SetState`. The other states do not close the sending worker. -/
def Connection.setState (conn : Connection) (current : UInt32) (state : State) : Connection :=
  let changed := { conn with state := state, stateBeginTime := current }
  match state with
  | .active | .readyToClose => changed
  | .peerClosed | .terminating | .peerTerminating | .terminated =>
    { changed with sendingWorker := conn.sendingWorker.closeWrite }

/-- `Terminate`, after its delay. -/
def Connection.terminate (conn : Connection) : Connection :=
  { conn with
    sendingWorker := conn.sendingWorker.release
    receivingWorker := conn.receivingWorker.release }

def Connection.onPeerClosed (conn : Connection) (current : UInt32) : Connection :=
  match conn.state with
  | .readyToClose => conn.setState current .terminating
  | .active => conn.setState current .peerClosed
  | _ => conn

def Connection.handleOption (conn : Connection) (current : UInt32) (option : UInt8) : Connection :=
  if option &&& segmentOptionClose = segmentOptionClose then conn.onPeerClosed current else conn

/-- What `Input` does to the state for a command. -/
def Connection.handleCommand (conn : Connection) (current : UInt32) (cmd : Command) : Connection :=
  if cmd = .terminate then
    match conn.state with
    | .active | .peerClosed => conn.setState current .peerTerminating
    | .readyToClose => conn.setState current .terminating
    | .terminating => conn.setState current .terminated
    | _ => conn
  else conn

/-- `Input` of one segment of the conversation. -/
def Connection.inputSegment (conn : Connection) (current : UInt32) : Segment → Connection
  | .data segment =>
    let conn := conn.handleOption current segment.option
    { conn with receivingWorker := conn.receivingWorker.processSegment segment }
  | .ack segment =>
    let conn := conn.handleOption current segment.option
    let result := conn.sendingWorker.processSegment conn.roundTrip current segment
      conn.roundTrip.timeout
    { conn with sendingWorker := result.1, roundTrip := result.2 }
  | .cmd segment =>
    let conn := (conn.handleOption current segment.option).handleCommand current segment.cmd
    { conn with
      sendingWorker := conn.sendingWorker.processReceivingNext segment.receivingNext
      receivingWorker := conn.receivingWorker.processSendingNext segment.sendingNext
      roundTrip := conn.roundTrip.updatePeerRTO segment.peerRTO current }

/-- The loop of `Input` over the segments of a packet. -/
def Connection.inputSegments (conn : Connection) (current : UInt32) : List Segment → Connection
  | [] => conn
  | segment :: rest =>
    if segment.conversation ≠ conn.conversation then conn
    else (conn.inputSegment current segment).inputSegments current rest

def Connection.input (conn : Connection) (current : UInt32) (segments : List Segment) :
    Connection :=
  { conn with lastIncomingTime := current }.inputSegments current segments

def Connection.close (conn : Connection) (current : UInt32) : Connection :=
  match conn.state with
  | .readyToClose | .terminating | .terminated => conn
  | .active => conn.setState current .readyToClose
  | .peerClosed => conn.setState current .terminating
  | .peerTerminating => conn.setState current .terminated

/-- The segment of `Ping`. -/
def Connection.pingSegment (conn : Connection) (cmd : Command) : CmdOnlySegment :=
  { conv := conn.conversation
    cmd := cmd
    sendingNext := conn.sendingWorker.firstUnacknowledged
    receivingNext := conn.receivingWorker.nextNumber
    peerRTO := conn.roundTrip.timeout
    option := if conn.state = .readyToClose then segmentOptionClose else 0 }

/-- The part of `updateTask` that changes the state while the connection is not terminated, up to
the ping of a connection that is terminating. -/
def Connection.closeIdle (conn : Connection) (current : UInt32) : Connection :=
  let conn := if conn.state = .active ∧ current - conn.lastIncomingTime ≥ 30000 then
    conn.close current else conn
  if conn.state = .readyToClose ∧ conn.sendingWorker.window.cache.isEmpty then
    conn.setState current .terminating else conn

/-- The part of `updateTask` before its flushes, with the segments it writes. -/
def Connection.updateState (conn : Connection) (current : UInt32) :
    Connection × List CmdOnlySegment :=
  if conn.state = .terminated then (conn, [])
  else
    let conn := conn.closeIdle current
    if conn.state = .terminating then
      if current - conn.stateBeginTime > 8000 then (conn.setState current .terminated, [])
      else ({ conn with lastPingTime := current }, [conn.pingSegment .terminate])
    else
      let conn := if conn.state = .peerTerminating ∧ current - conn.stateBeginTime > 4000 then
        conn.setState current .terminating else conn
      (if conn.state = .readyToClose ∧ current - conn.stateBeginTime > 15000 then
        conn.setState current .terminating else conn, [])

/-- `Read` returns an error instead of reading. -/
def Connection.readCloses (conn : Connection) : Bool :=
  conn.state = .readyToClose || conn.state = .terminating || conn.state = .terminated

/-! ### Sessions -/

/-- What `Buffer.ReadFrom` leaves in a fresh buffer of the pool, for a reader of some bytes: it
reads from their front, and returns how many it has read. -/
structure Pool where
  fill : List UInt8 → List UInt8
  front : ∀ bytes, fill bytes <+: bytes

/-- A call of `Write` and how far it has come. -/
structure Call where
  buffer : List UInt8
  totalWritten : Nat := 0

/-- A connection and the calls of `Write` on it. The last three fields are its history: the
bytes that `Write` has accepted, a list for each segment; the payloads that `Read` has taken from
the window; and the bytes that `Read` has returned. -/
structure Endpoint where
  conn : Connection
  calls : Nat → Option Call := fun _ => none
  accepted : List (List UInt8) := []
  taken : List (List UInt8) := []
  returned : List UInt8 := []

inductive Action where
  | write (call : Nat) (b : List UInt8)
  | push (call : Nat)
  | giveUp (call : Nat)
  | read (size : Nat)
  | flushReceiving (current : UInt32)
  | flushSending (current : UInt32)
  | ping (current : UInt32)
  | updateState (current : UInt32)
  | input (current : UInt32) (segments : List Segment)
  | close (current : UInt32)
  | terminate

/-- One buffer of a call of `Write`: it is pushed, or the call waits, or it returns. -/
def Endpoint.push (pool : Pool) (endpoint : Endpoint) (id : Nat) : Endpoint :=
  match endpoint.calls id with
  | none => endpoint
  | some call =>
    let rest := call.buffer.drop call.totalWritten
    let buffer := pool.fill (rest.take endpoint.conn.mss.toNat)
    if rest = [] ∨ buffer = [] then
      { endpoint with calls := Function.update endpoint.calls id none }
    else
      match endpoint.conn.sendingWorker.push buffer with
      | some worker =>
        { endpoint with
          conn := { endpoint.conn with sendingWorker := worker }
          calls := Function.update endpoint.calls id
            (some { call with totalWritten := call.totalWritten + buffer.length })
          accepted := endpoint.accepted ++ [rest.take buffer.length] }
      | none =>
        if endpoint.conn.state ≠ .active then
          { endpoint with calls := Function.update endpoint.calls id none }
        else endpoint

/-- One attempt of `Read`. -/
def Endpoint.read (endpoint : Endpoint) (size : Nat) : Endpoint :=
  if endpoint.conn.readCloses then endpoint
  else
    let result := endpoint.conn.receivingWorker.read size
    { endpoint with
      conn := { endpoint.conn with receivingWorker := result.1 }
      taken := endpoint.taken ++ endpoint.conn.receivingWorker.ready
      returned := endpoint.returned ++ result.2 }

/-- What an action does to an end, where the given segments can arrive, and the segments it
writes. An action that cannot happen changes nothing. -/
def react (pool : Pool) (endpoint : Endpoint) (arriving : List Segment) :
    Action → Endpoint × List Segment
  | .write call b =>
    if endpoint.conn.state = .active ∧ endpoint.calls call = none then
      ({ endpoint with calls := Function.update endpoint.calls call (some { buffer := b }) }, [])
    else (endpoint, [])
  | .push call => (endpoint.push pool call, [])
  | .giveUp call => ({ endpoint with calls := Function.update endpoint.calls call none }, [])
  | .read size => (endpoint.read size, [])
  | .flushReceiving current =>
    let result := endpoint.conn.receivingWorker.flush endpoint.conn.roundTrip
      endpoint.conn.conversation endpoint.conn.state current
    ({ endpoint with conn := { endpoint.conn with receivingWorker := result.1 } },
      result.2.map .ack)
  | .flushSending current =>
    let result := endpoint.conn.sendingWorker.flush endpoint.conn.config endpoint.conn.roundTrip
      endpoint.conn.conversation endpoint.conn.state current
    ({ endpoint with conn := { endpoint.conn with sendingWorker := result.1 } },
      result.2.map fun segment => .data segment.onWire)
  | .ping current =>
    ({ endpoint with conn := { endpoint.conn with lastPingTime := current } },
      [.cmd (endpoint.conn.pingSegment .ping)])
  | .updateState current =>
    let result := endpoint.conn.updateState current
    ({ endpoint with conn := result.1 }, result.2.map .cmd)
  | .input current segments =>
    if ∀ segment ∈ segments, segment ∈ arriving then
      ({ endpoint with conn := endpoint.conn.input current segments }, [])
    else (endpoint, [])
  | .close current => ({ endpoint with conn := endpoint.conn.close current }, [])
  | .terminate =>
    if endpoint.conn.state = .terminated then
      ({ endpoint with conn := endpoint.conn.terminate }, [])
    else (endpoint, [])

abbrev Session := Duplex.Session Endpoint Segment

/-- Two fresh connections of one conversation, over packet writers with the given overheads. -/
def newSession (conversation : UInt16) (overhead : Duplex.Side → UInt32)
    (config : Duplex.Side → Config) : Session where
  ends side := { conn := newConnection conversation (overhead side) (config side) }

/-- A session after a list of actions at its two ends. -/
def run (pool : Pool) (start : Session) (events : List (Duplex.Side × Action)) : Session :=
  Machine.drive (Duplex.step (react pool)) start events

end Kcp

end SingBox
