/-
This file embeds the record layer of the sudoku transport. A record carries the
epoch of its key and a sequence number in the clear; both are its nonce and its
additional data. The sender starts with random counters, and after every 32 MiB it
takes the next epoch and a fresh random sequence number. The receiver accepts the
first record as it comes; later it wants the next sequence number of the epoch, or an
epoch that is at most eight ahead, with any sequence number.

The cipher is a parameter: what it promises is stated where it is used.
-/

import SingBox.Machine
import SingBox.BigEndian

namespace SingBox

namespace RecordConn

def keyUpdateAfterBytes : Int64 := 33554432

def recordHeaderSize : Nat := 12

def maxFrameBodySize : Nat := 65535

/-- The overhead of both ciphers. -/
def overhead : Nat := 16

def maxPlain : Nat := maxFrameBodySize - recordHeaderSize - overhead

/-- A cipher with the keys of the epochs of one direction. The arguments after the epoch are the
nonce, the text and the additional data. -/
structure Cipher where
  sealWith : UInt32 → List UInt8 → List UInt8 → List UInt8 → List UInt8
  openWith : UInt32 → List UInt8 → List UInt8 → List UInt8 → Option (List UInt8)

/-- What is sent for a chunk of plaintext. -/
structure Record where
  epoch : UInt32
  seq : UInt64
  ciphertext : List UInt8
  deriving DecidableEq, Repr

def header (epoch : UInt32) (seq : UInt64) : List UInt8 :=
  BigEndian.put 4 epoch.toNat ++ BigEndian.put 8 seq.toNat

def Record.header (record : Record) : List UInt8 := RecordConn.header record.epoch record.seq

/-- A record on the wire. -/
def Record.frame (record : Record) : List UInt8 :=
  BigEndian.put 2 (recordHeaderSize + record.ciphertext.length) ++
    (record.header ++ record.ciphertext)

/-! ### The sender -/

/-- The sending half; `drawn` says how many sequence numbers were drawn after the first. -/
structure Sender where
  sendEpoch : UInt32
  sendSeq : UInt64
  sendBytes : Int64 := 0
  sendEpochUpdates : UInt32 := 0
  drawn : Nat := 0
  deriving DecidableEq, Repr

def Sender.maybeBumpSendEpochLocked (random : Nat → UInt64) (sender : Sender) (addedPlain : Nat) :
    Sender :=
  if keyUpdateAfterBytes ≤ 0 then sender
  else
    let sendBytes := sender.sendBytes + Int64.ofNat addedPlain
    let threshold := keyUpdateAfterBytes * Int64.ofNat (sender.sendEpochUpdates + 1).toNat
    if sendBytes < threshold then { sender with sendBytes := sendBytes }
    else
      { sendEpoch := sender.sendEpoch + 1
        sendSeq := random sender.drawn
        sendBytes := sendBytes
        sendEpochUpdates := sender.sendEpochUpdates + 1
        drawn := sender.drawn + 1 }

def Sender.record (cipher : Cipher) (sender : Sender) (chunk : List UInt8) : Record where
  epoch := sender.sendEpoch
  seq := sender.sendSeq
  ciphertext := cipher.sealWith sender.sendEpoch (header sender.sendEpoch sender.sendSeq) chunk
    (header sender.sendEpoch sender.sendSeq)

/-- The sender after the record for a chunk of the given length. -/
def Sender.next (random : Nat → UInt64) (sender : Sender) (length : Nat) : Sender :=
  { sender with sendSeq := sender.sendSeq + 1 }.maybeBumpSendEpochLocked random length

/-- The chunks that the loop of `Write` takes from a buffer, for at most the given number of
rounds. -/
def chunks : Nat → List UInt8 → List (List UInt8)
  | 0, _ => []
  | rounds + 1, p => if p = [] then [] else p.take maxPlain :: chunks rounds (p.drop maxPlain)

def Sender.records (cipher : Cipher) (random : Nat → UInt64) :
    Sender → List (List UInt8) → List Record
  | _, [] => []
  | sender, chunk :: rest =>
    sender.record cipher chunk :: (sender.next random chunk.length).records cipher random rest

def Sender.after (random : Nat → UInt64) (sender : Sender) (chunks : List (List UInt8)) : Sender :=
  chunks.foldl (fun sender chunk => sender.next random chunk.length) sender

/-! ### The receiver -/

structure Receiver where
  recvEpoch : UInt32 := 0
  recvSeq : UInt64 := 0
  recvInitialized : Bool := false
  readBuf : List UInt8 := []
  deriving DecidableEq, Repr

inductive Error where
  | replayedEpoch (got want : UInt32)
  | outOfOrder (epoch : UInt32) (got want : UInt64)
  | epochJump (got : UInt32)
  | decryptionFailed (epoch : UInt32) (seq : UInt64)
  | frameTooShort
  deriving DecidableEq, Repr

def maxJump : UInt32 := 8

/-- `validateRecvPosition`, with its error if there is one. -/
def Receiver.validateRecvPosition (receiver : Receiver) (epoch : UInt32) (seq : UInt64) :
    Option Error :=
  if receiver.recvInitialized = false then none
  else if epoch < receiver.recvEpoch then some (.replayedEpoch epoch receiver.recvEpoch)
  else if epoch = receiver.recvEpoch ∧ seq ≠ receiver.recvSeq then
    some (.outOfOrder epoch seq receiver.recvSeq)
  else if epoch > receiver.recvEpoch ∧ epoch - receiver.recvEpoch > maxJump then
    some (.epochJump (epoch - receiver.recvEpoch))
  else none

def Receiver.markRecvPosition (receiver : Receiver) (epoch : UInt32) (seq : UInt64) : Receiver :=
  { receiver with recvEpoch := epoch, recvSeq := seq + 1, recvInitialized := true }

/-- `Read` with a record: the receiver after it, with the plaintext in its buffer. -/
def Receiver.accept (cipher : Cipher) (receiver : Receiver) (record : Record) :
    Except Error Receiver :=
  match receiver.validateRecvPosition record.epoch record.seq with
  | some err => .error err
  | none =>
    match cipher.openWith record.epoch record.header record.ciphertext record.header with
    | none => .error (.decryptionFailed record.epoch record.seq)
    | some plaintext => .ok { receiver.markRecvPosition record.epoch record.seq with
        readBuf := receiver.readBuf ++ plaintext }

/-- What a call of `Read` does. -/
inductive Outcome where
  | bytes (b : List UInt8)
  | waits
  | error (err : Error)
  deriving DecidableEq, Repr

def parse (body : List UInt8) : Record where
  epoch := UInt32.ofNat (BigEndian.get (body.take 4))
  seq := UInt64.ofNat (BigEndian.get ((body.take recordHeaderSize).drop 4))
  ciphertext := body.drop recordHeaderSize

/-- `Read` into a buffer of the given size, with the bytes that have arrived: its outcome, the
receiver after it, and the bytes that are left. -/
def Receiver.read (cipher : Cipher) (receiver : Receiver) (size : Nat) (arrived : List UInt8) :
    Outcome × Receiver × List UInt8 :=
  if receiver.readBuf ≠ [] then
    (.bytes (receiver.readBuf.take size),
      { receiver with readBuf := receiver.readBuf.drop size }, arrived)
  else
    let bodyLen := BigEndian.get (arrived.take 2)
    if arrived.length < 2 then (.waits, receiver, arrived)
    else if bodyLen < recordHeaderSize then (.error .frameTooShort, receiver, arrived.drop 2)
    else if arrived.length < 2 + bodyLen then (.waits, receiver, arrived)
    else
      let rest := arrived.drop (2 + bodyLen)
      match receiver.accept cipher (parse ((arrived.drop 2).take bodyLen)) with
      | .error err => (.error err, receiver, rest)
      | .ok accepted =>
        (.bytes (accepted.readBuf.take size),
          { accepted with readBuf := accepted.readBuf.drop size }, rest)

/-! ### Sessions -/

/-- One direction over a reliable stream of bytes. The last three fields are its history: the
chunks that were written, the bytes that were read, and the errors that `Read` has reported. -/
structure Session where
  sender : Sender
  receiver : Receiver := {}
  inFlight : List UInt8 := []
  arrived : List UInt8 := []
  written : List (List UInt8) := []
  returned : List UInt8 := []
  errors : List Error := []

inductive Event where
  | write (p : List UInt8)
  | arrive (count : Nat)
  | read (size : Nat)

def Session.write (cipher : Cipher) (random : Nat → UInt64) (session : Session) (p : List UInt8) :
    Session :=
  { session with
    sender := session.sender.after random (chunks p.length p)
    inFlight := session.inFlight ++
      (session.sender.records cipher random (chunks p.length p)).flatMap Record.frame
    written := session.written ++ [p] }

def Session.read (cipher : Cipher) (session : Session) (size : Nat) : Session :=
  let (outcome, receiver, rest) := session.receiver.read cipher size session.arrived
  let after := { session with receiver := receiver, arrived := rest }
  match outcome with
  | .bytes b => { after with returned := session.returned ++ b }
  | .waits => after
  | .error err => { after with errors := session.errors ++ [err] }

def Session.step (cipher : Cipher) (random : Nat → UInt64) (session : Session) : Event → Session
  | .write p => session.write cipher random p
  | .arrive count =>
    { session with
      inFlight := session.inFlight.drop count
      arrived := session.arrived ++ session.inFlight.take count }
  | .read size => session.read cipher size

/-- A session with the given random counters, after a list of events. -/
def run (cipher : Cipher) (random : Nat → UInt64) (sendEpoch : UInt32) (sendSeq : UInt64)
    (events : List Event) : Session :=
  Machine.drive (Session.step cipher random)
    { sender := { sendEpoch := sendEpoch, sendSeq := sendSeq } } events

end RecordConn

end SingBox
