/-
This file embeds the connections of the failover protocol. A write is a frame with
a length of 16 bits; the last ten frames are kept in a ring, under counters of 32
bits. When the connection below fails, both ends meet on a fresh one, tell each
other how many reads they have made, and send again what the other end seems not
to have read.

A session is two such ends and the bytes on the way. Its events are the calls at
both ends, the failure of the connection, after which a part of what was written
to it has been delivered, and the meeting on the next connection.
-/

import SingBox.Duplex
import Mathlib

namespace SingBox

open Function

open Duplex (Side)

namespace Failover

def bufferSize : Nat := 10

/-- The slot of the ring for a counter. -/
def slot (index : UInt32) : Fin bufferSize := ⟨index.toNat % bufferSize, Nat.mod_lt _ (by decide)⟩

/-- A `failoverConn`, but for the connection below it. -/
structure FailoverConn where
  readIndex : UInt32 := 0
  readBuffer : List UInt8 := []
  writeIndex : UInt32 := 0
  writeBuffers : Fin bufferSize → List UInt8 := fun _ => []

/-- What `failoverConn.write` writes to the connection below. -/
def frame (b : List UInt8) : List UInt8 :=
  UInt8.ofNat (b.length / 256) :: UInt8.ofNat b.length :: b

/-- What is recorded of a frame that was written without an error. -/
def FailoverConn.wrote (conn : FailoverConn) (b : List UInt8) : FailoverConn :=
  { conn with
    writeBuffers := Function.update conn.writeBuffers (slot conn.writeIndex) b
    writeIndex := conn.writeIndex + 1 }

/-- What can be taken from the connection below. -/
inductive Received where
  | frame (payload rest : List UInt8)
  | closed (rest : List UInt8)
  | short (part : List UInt8)
  deriving DecidableEq, Repr

/-- A frame, or what `io.CopyN` has copied of its payload when the bytes end. -/
def receive : List UInt8 → Received
  | high :: low :: rest =>
    let n := high.toNat * 256 + low.toNat
    if n = 0 then .closed rest
    else if n ≤ rest.length then .frame (rest.take n) (rest.drop n)
    else .short rest
  | _ => .short []

/-- The loop of `RestoreConn` that collects what is sent again, with the room that is left.
There is nothing to send if the session is broken. -/
def FailoverConn.collect (conn : FailoverConn) : Nat → UInt32 → Option (List (List UInt8))
  | 0, index => if index = conn.writeIndex then some [] else none
  | room + 1, index =>
    if index = conn.writeIndex then some []
    else (collect conn room (index + 1)).map (conn.writeBuffers (slot index) :: ·)

/-- What `RestoreConn` sends again to an end with the given counter. -/
def FailoverConn.restoreConn (conn : FailoverConn) (peer : FailoverConn) :
    Option (List (List UInt8)) :=
  conn.collect bufferSize peer.readIndex

/-! ### Sessions -/

/-- One end of a session. The last four fields are its history: the buffers of the calls of
`Write` that have returned, the bytes that calls of `Read` have returned, how many frames have
been received completely, and whether the buffer holds a part of a frame that was cut off. -/
structure Endpoint where
  conn : FailoverConn := {}
  attached : Bool := true
  readStalled : Bool := false
  writeStalled : Bool := false
  broken : Bool := false
  closed : Bool := false
  pending : Option (List UInt8) := none
  written : List (List UInt8) := []
  returned : List UInt8 := []
  received : Nat := 0
  cut : Bool := false

/-- Two ends, the bytes each has on the way to the other, and whether the connection lives. -/
structure Session where
  ends : Side → Endpoint := fun _ => {}
  wire : Side → List UInt8 := fun _ => []
  alive : Bool := true

inductive Event where
  | write (side : Side) (b : List UInt8)
  | writeFails (side : Side) (b : List UInt8)
  | read (side : Side) (size : Nat)
  | fail (delivered : Side → Nat)
  | restore

/-- A call of `Write` with the buffer can try to write to the connection below. A call that has
seen an error tries again with its own buffer, on the next connection. -/
def Endpoint.MayWrite (endpoint : Endpoint) (b : List UInt8) : Prop :=
  endpoint.attached = true ∧ endpoint.writeStalled = false ∧ endpoint.closed = false ∧
    (endpoint.pending = none ∨ endpoint.pending = some b)

instance (endpoint : Endpoint) (b : List UInt8) : Decidable (endpoint.MayWrite b) :=
  inferInstanceAs (Decidable (_ ∧ _))

/-- `Write`, where the write below succeeds. -/
def Endpoint.wrote (endpoint : Endpoint) (b : List UInt8) : Endpoint :=
  { endpoint with
    conn := endpoint.conn.wrote b
    pending := none
    written := endpoint.written ++ [b] }

/-- `Write`, where the write below reports an error. The call waits for the next connection. -/
def Endpoint.writeFailed (endpoint : Endpoint) (b : List UInt8) : Endpoint :=
  { endpoint with pending := some b, writeStalled := true }

/-- `Read` takes bytes from the front of a buffer, and counts the call. -/
def Endpoint.took (endpoint : Endpoint) (buffer : List UInt8) (size : Nat) : Endpoint :=
  { endpoint with
    conn := { endpoint.conn with
      readBuffer := buffer.drop size
      readIndex := endpoint.conn.readIndex + 1 }
    returned := endpoint.returned ++ buffer.take size }

/-- `Read` sees the end of the connection. What it has copied of a frame stays in its buffer. -/
def Endpoint.readFailed (endpoint : Endpoint) (part : List UInt8) : Endpoint :=
  { endpoint with
    conn := { endpoint.conn with readBuffer := part }
    readStalled := true
    cut := endpoint.cut || !part.isEmpty }

/-- `Read`, with the bytes on the way to the end: the end after it, and the bytes left. A call
without a frame waits while the connection lives. -/
def Endpoint.read (endpoint : Endpoint) (wire : List UInt8) (alive : Bool) (size : Nat) :
    Endpoint × List UInt8 :=
  if endpoint.readStalled then (endpoint, wire)
  else if endpoint.conn.readBuffer ≠ [] then (endpoint.took endpoint.conn.readBuffer size, wire)
  else if endpoint.attached = false ∨ endpoint.closed = true then (endpoint, wire)
  else
    match receive wire with
    | .frame payload rest =>
      ({ endpoint.took payload size with received := endpoint.received + 1 }, rest)
    | .closed rest => ({ endpoint with closed := true }, rest)
    | .short part => if alive then (endpoint, wire) else (endpoint.readFailed part, [])

/-- An end after `RestoreConn`; what it sends again is the second component. -/
def Endpoint.restore (endpoint peer : Endpoint) : Endpoint × List UInt8 :=
  match endpoint.conn.restoreConn peer.conn with
  | some buffers =>
    ({ endpoint with attached := true, readStalled := false, writeStalled := false },
      buffers.flatMap frame)
  | none =>
    ({ endpoint with
        attached := false, readStalled := false, writeStalled := false, broken := true }, [])

/-- The session after an event. An event that cannot happen changes nothing; after
`SessionBroken` the client does not dial again. -/
def Session.step (session : Session) : Event → Session
  | .write side b =>
    if session.alive = true ∧ (session.ends side).MayWrite b then
      { session with
        ends := Function.update session.ends side ((session.ends side).wrote b)
        wire := Function.update session.wire side (session.wire side ++ frame b) }
    else session
  | .writeFails side b =>
    if (session.ends side).MayWrite b then
      { session with
        ends := Function.update session.ends side ((session.ends side).writeFailed b)
        wire := if session.alive then
            Function.update session.wire side (session.wire side ++ frame b)
          else session.wire }
    else session
  | .read side size =>
    let result := (session.ends side).read (session.wire side.other) session.alive size
    { session with
      ends := Function.update session.ends side result.1
      wire := Function.update session.wire side.other result.2 }
  | .fail delivered =>
    if session.alive then
      { session with
        alive := false
        wire := fun side => (session.wire side).take (delivered side) }
    else session
  | .restore =>
    if session.alive = false ∧ (session.ends .client).broken = false then
      { ends := fun side => ((session.ends side).restore (session.ends side.other)).1
        wire := fun side => ((session.ends side).restore (session.ends side.other)).2
        alive := true }
    else session

def run (events : List Event) : Session := Machine.drive Session.step {} events

end Failover

end SingBox
