/-
This file embeds the frames of the call tunnel. The epoch of the peer is read from the clear
header of a frame before the frame is opened, so a frame of anybody else with another epoch makes
the next frame of the peer look like one after a restart.
-/

import SingBox.BigEndian
import SingBox.Machine

namespace SingBox.CallTunnel

def vp8Keepalive : List UInt8 :=
  [0x30, 0x01, 0x00, 0x9d, 0x01, 0x2a, 0x10, 0x00, 0x10, 0x00, 0x00, 0x47, 0x08, 0x85, 0x85, 0x88,
    0x99, 0x84, 0x88, 0xfc]

def vp8Interframe : List UInt8 :=
  [0xb1, 0x01, 0x00, 0x08, 0x11, 0x18, 0x00, 0x18, 0x00, 0x18, 0x58, 0x2f, 0xf4, 0x00, 0x08, 0x00,
    0x00]

/-- The cipher and the own epoch; `peerEpoch`, once `hasPeer`, is passed beside them. -/
structure TunnelObfuscator where
  nonceSize : Nat
  overhead : Nat
  seals : List UInt8 → List UInt8 → List UInt8
  opens : List UInt8 → List UInt8 → Option (List UInt8)
  localEpoch : UInt32

structure DecodeResult where
  hasFrame : Bool := false
  keepalive : Bool := false
  selfEcho : Bool := false
  peerRestart : Bool := false
  payload : List UInt8 := []
  peerEpoch : UInt32 := 0
  deriving DecidableEq

/-- Whether a frame is a keepalive, its epoch and what follows its header. -/
def header (frame : List UInt8) : Option (Bool × UInt32 × List UInt8) :=
  let split (keepalive : Bool) (length : Nat) : Option (Bool × UInt32 × List UInt8) :=
    if frame.length < length + 4 then none
    else some (keepalive, .ofNat (BigEndian.get ((frame.drop length).take 4)),
      frame.drop (length + 4))
  if frame.head? = vp8Keepalive.head? then split true 20
  else if frame.head? = vp8Interframe.head? then split false 17
  else none

namespace TunnelObfuscator

variable (o : TunnelObfuscator)

def encodeKeepalive (padding : List UInt8) : List UInt8 :=
  vp8Keepalive ++ BigEndian.put 4 o.localEpoch.toNat ++ padding

def encodeData (nonce payload : List UInt8) : List UInt8 :=
  vp8Interframe ++ BigEndian.put 4 o.localEpoch.toNat ++ nonce ++ o.seals nonce payload

def decode (known : Option UInt32) (frame : List UInt8) : DecodeResult × Option UInt32 :=
  match header frame with
  | none => ({}, known)
  | some (keepalive, peerEpoch, body) =>
    if peerEpoch = o.localEpoch then ({ hasFrame := true, selfEcho := true, peerEpoch }, known)
    else
      let res : DecodeResult :=
        { hasFrame := true, peerEpoch, peerRestart := known.any (· ≠ peerEpoch) }
      (if keepalive ∨ body = [] then { res with keepalive := true }
        else if body.length < o.nonceSize + o.overhead then {}
        else match o.opens (body.take o.nonceSize) (body.drop o.nonceSize) with
          | none => {}
          | some payload => { res with payload }, some peerEpoch)

/-- The results of the frames of the peer, which are marked, among frames of others. -/
def results (known : Option UInt32) : List (Bool × List UInt8) → List DecodeResult
  | [] => []
  | (genuine, frame) :: rest =>
    let later := results (o.decode known frame).2 rest
    if genuine then (o.decode known frame).1 :: later else later

/-- A frame of another has no header, the own epoch or that of the known peer. -/
def Quiet (known : Option UInt32) (event : Bool × List UInt8) : Prop :=
  event.1 = false → ∀ read ∈ header event.2, read.2.1 = o.localEpoch ∨ known = some read.2.1

variable {o} {known : Option UInt32}

theorem decode_of_quiet {frame : List UInt8} (quiet : o.Quiet known (false, frame)) :
    (o.decode known frame).2 = known := by
  unfold decode
  cases read : header frame with
  | none => rfl
  | some found =>
    dsimp only
    by_cases own : found.2.1 = o.localEpoch
    · rw [if_pos own]
    · rw [if_neg own]
      exact ((quiet rfl found read).resolve_left own).symm

/-- For every run of frames in which the frames of others are quiet, the results of the frames of
the peer are those without them. -/
theorem results_filter {events : List (Bool × List UInt8)}
    (quiet : Machine.Meets (fun known event => (o.decode known event.2).2) o.Quiet known events) :
    o.results known events = o.results known (events.filter (·.1)) := by
  induction events generalizing known with
  | nil => rfl
  | cons event rest ih =>
    obtain ⟨genuine, frame⟩ := event
    have later := ih quiet.2
    cases genuine with
    | true => exact congrArg (_ :: ·) later
    | false =>
      dsimp only at later
      rw [decode_of_quiet quiet.1] at later
      rwa [results, decode_of_quiet quiet.1]

/-- A cipher that puts a byte before the text. -/
def tagging (localEpoch : UInt32) : TunnelObfuscator :=
  ⟨0, 1, fun _ text => 77 :: text,
    fun _ text => if text.head? = some 77 then some text.tail else none, localEpoch⟩

theorem results_filter_noise :
    let data := (true, (tagging 5).encodeData [] [9])
    (tagging 1).results none [data, (false, [1, 2]), data] =
      (tagging 1).results none [data, data] := by
  intro data
  exact @results_filter (tagging 1) none [data, (false, [1, 2]), data]
    ⟨(nofun), (fun _ _ found => nomatch found), (nofun), trivial⟩

/-- A keepalive of another, with another epoch, between two data frames of the peer. -/
theorem results_forged :
    let data := (true, (tagging 5).encodeData [] [9])
    ((tagging 1).results none [data, (false, (tagging 7).encodeKeepalive []), data]).map
        (·.peerRestart) = [false, true] ∧
      ((tagging 1).results none [data, data]).map (·.peerRestart) = [false, false] := by
  decide

end TunnelObfuscator

end SingBox.CallTunnel
