/-
This file is about the end of a packet connection of the relay bridge: its own `Close`,
the sweeps of `closeAll` and the delivery of replies, each taken apart into its operations
on the flag, the table and the channel of the connection.
-/

import SingBox.Log
import SingBox.Machine

namespace SingBox.RelayClosing

open Machine

/-- A goroutine stands before the operation that its phase names. A sweep of the table remembers
whether the client was there when the sweep began. -/
inductive Phase where
  | compareAndSwap
  | range (listed : Bool)
  | store
  | close
  | delete
  | load (payload : List UInt8)
  | check (payload : List UInt8)
  | send (payload : List UInt8)
  | done

def Phase.closes : Phase → Bool
  | .close => true
  | _ => false

def Phase.sends : Phase → Bool
  | .send _ => true
  | _ => false

/-- A client of the table with its channel and the goroutines that have to do with it. -/
structure UdpClient where
  listed : Bool := true
  closed : Bool := false
  pending : List (List UInt8) := []
  ended : Bool := false
  goroutines : List Phase := []
  panicked : Bool := false

inductive Event where
  | close
  | closeAll
  | reply (payload : List UInt8)
  | read
  | advance (place : Nat) (seen : Bool)

namespace UdpClient

/-- One operation of a goroutine, and where it stands then. A sweep meets a client that is in the
table, and may meet one that was removed since the sweep began. -/
def operate (client : UdpClient) (seen : Bool) : Phase → UdpClient × Phase
  | .compareAndSwap =>
    if client.closed then (client, .done) else ({ client with closed := true }, .close)
  | .range listed => (client, if client.listed || (listed && seen) then .store else .done)
  | .store => ({ client with closed := true }, .close)
  | .close =>
    if client.ended then ({ client with panicked := true }, .done)
    else ({ client with ended := true }, .delete)
  | .delete => ({ client with listed := false }, .done)
  | .load payload => (client, if client.listed then .check payload else .done)
  | .check payload => (client, if client.closed then .done else .send payload)
  | .send payload =>
    if client.ended then ({ client with panicked := true }, .done)
    else if client.pending.length < 64 then
      ({ client with pending := client.pending ++ [payload] }, .done)
    else (client, .done)
  | .done => (client, .done)

def begin (client : UdpClient) (phase : Phase) : UdpClient :=
  { client with goroutines := client.goroutines ++ [phase] }

def step (client : UdpClient) : Event → UdpClient
  | .close => client.begin .compareAndSwap
  | .closeAll => client.begin (.range client.listed)
  | .reply payload => client.begin (.load payload)
  | .read => { client with pending := client.pending.tail }
  | .advance place seen =>
    match client.goroutines[place]? with
    | some phase =>
      let (after, next) := client.operate seen phase
      { after with goroutines := client.goroutines.set place next }
    | none => client

/-- A sweep sets the flag only while it is not set, and the channel is closed only while no
delivery stands between its look at the flag and its send. -/
def Orderly (client : UdpClient) : Event → Prop
  | .advance place _ =>
    match client.goroutines[place]? with
    | some .store => client.closed = false
    | some .close => client.goroutines.countP Phase.sends = 0
    | _ => True
  | _ => True

end UdpClient

/-- The flag is set before the channel is closed, by one goroutine only, and nobody is about to
send on a closed channel. -/
structure Sound (client : UdpClient) : Prop where
  once : client.goroutines.countP Phase.closes + client.ended.toNat ≤ client.closed.toNat
  quiet : client.ended = true → client.goroutines.countP Phase.sends = 0
  running : client.panicked = false

variable {client : UdpClient}

theorem Sound.begin (sound : Sound client) (phase : Phase) (closes : phase.closes = false)
    (sends : phase.sends = false) : Sound (client.begin phase) := by
  refine ⟨?_, fun ended => ?_, sound.running⟩
  · show (client.goroutines ++ [phase]).countP _ + _ ≤ _
    rw [List.countP_append, List.countP_singleton, closes]
    exact sound.once
  · show (client.goroutines ++ [phase]).countP _ = 0
    rw [List.countP_append, List.countP_singleton, sends, sound.quiet ended]
    rfl

/-- While the flag is not set, nobody is about to close the channel, and it is not closed. -/
theorem Sound.unclosed (sound : Sound client) (opened : client.closed = false) :
    client.goroutines.countP Phase.closes = 0 ∧ client.ended = false := by
  have once := sound.once
  rw [opened] at once
  exact ⟨Nat.eq_zero_of_add_eq_zero_right (Nat.le_zero.mp once),
    Bool.toNat_eq_zero.mp (Nat.eq_zero_of_add_eq_zero_left (Nat.le_zero.mp once))⟩

/-- A goroutine goes on, and is not about to close or to send unless it may. -/
theorem Sound.move (sound : Sound client) {place : Nat} {phase next : Phase}
    (found : client.goroutines[place]? = some phase)
    (closes : next.closes = true → phase.closes = true)
    (sends : next.sends = true → client.ended = false) :
    Sound { client with goroutines := client.goroutines.set place next } := by
  have closing := Log.countP_set Phase.closes found next
  have sending := Log.countP_set Phase.sends found next
  refine ⟨?_, fun ended => ?_, sound.running⟩
  · show (client.goroutines.set place next).countP Phase.closes + client.ended.toNat ≤ _
    have fewer : (client.goroutines.set place next).countP Phase.closes ≤
        client.goroutines.countP Phase.closes := by
      by_cases closer : next.closes = true
      · rw [if_pos closer, if_pos (closes closer)] at closing
        omega
      · rw [if_neg closer] at closing
        omega
    exact (Nat.add_le_add_right fewer _).trans sound.once
  · have quiet := sound.quiet ended
    have unsent : ¬next.sends = true := fun sent => nomatch ended.symm.trans (sends sent)
    rw [if_neg unsent, quiet] at sending
    exact Nat.eq_zero_of_add_eq_zero_right sending

/-- A goroutine sets the flag, which was not set, and is about to close the channel. -/
theorem Sound.claim (sound : Sound client) {place : Nat} {phase : Phase}
    (found : client.goroutines[place]? = some phase) (opened : client.closed = false) :
    Sound { client with closed := true, goroutines := client.goroutines.set place .close } := by
  obtain ⟨nobody, unended⟩ := sound.unclosed opened
  have closing : (client.goroutines.set place .close).countP Phase.closes + _ = _ + 1 :=
    Log.countP_set Phase.closes found .close
  refine ⟨?_, fun ended => absurd (unended.symm.trans ended) (by decide), sound.running⟩
  show (client.goroutines.set place .close).countP Phase.closes + client.ended.toNat ≤ 1
  rw [unended, Bool.toNat_false]
  omega

/-- The channel is closed by the goroutine that has set the flag, while nobody is about to send. -/
theorem Sound.close (sound : Sound client) {place : Nat}
    (found : client.goroutines[place]? = some .close)
    (quiet : client.goroutines.countP Phase.sends = 0) :
    client.ended = false ∧
      Sound { client with ended := true, goroutines := client.goroutines.set place .delete } := by
  have closing : (client.goroutines.set place .delete).countP Phase.closes + 1 =
      client.goroutines.countP Phase.closes := Log.countP_set Phase.closes found .delete
  have sending : (client.goroutines.set place .delete).countP Phase.sends =
      client.goroutines.countP Phase.sends := Log.countP_set Phase.sends found .delete
  have once := sound.once
  have single : client.closed.toNat ≤ 1 := client.closed.toNat_le
  refine ⟨Bool.toNat_eq_zero.mp (by omega), ?_, fun _ => sending.trans quiet, sound.running⟩
  show (client.goroutines.set place .delete).countP Phase.closes + 1 ≤ client.closed.toNat
  omega

theorem Sound.advance (sound : Sound client) (place : Nat) (seen : Bool)
    (orderly : client.Orderly (.advance place seen)) :
    Sound (client.step (.advance place seen)) := by
  simp only [UdpClient.Orderly] at orderly
  simp only [UdpClient.step]
  cases found : client.goroutines[place]? with
  | none => exact sound
  | some phase =>
    rw [found] at orderly
    cases phase with
    | compareAndSwap =>
      simp only [UdpClient.operate]
      split_ifs with closed
      · exact sound.move found nofun nofun
      · exact sound.claim found (Bool.eq_false_of_not_eq_true closed)
    | range listed =>
      simp only [UdpClient.operate]
      split_ifs <;> exact sound.move found nofun nofun
    | store => exact sound.claim found orderly
    | close =>
      obtain ⟨unended, closed⟩ := sound.close found orderly
      simp only [UdpClient.operate, unended, Bool.false_eq_true, if_false]
      exact closed
    | delete =>
      have moved : Sound { client with goroutines := client.goroutines.set place .done } :=
        sound.move found nofun nofun
      exact { moved with }
    | load payload =>
      simp only [UdpClient.operate]
      split_ifs <;> exact sound.move found nofun nofun
    | check payload =>
      simp only [UdpClient.operate]
      split_ifs with closed
      · exact sound.move found nofun nofun
      · exact sound.move found nofun
          fun _ => (sound.unclosed (Bool.eq_false_of_not_eq_true closed)).2
    | send payload =>
      have moved : Sound { client with goroutines := client.goroutines.set place .done } :=
        sound.move found nofun nofun
      -- a goroutine that is about to send is counted, so the channel is still open
      have unended : client.ended ≠ true := fun ended =>
        (List.countP_eq_zero.mp (sound.quiet ended) _ (List.mem_of_getElem? found)) rfl
      simp only [UdpClient.operate, if_neg unended]
      split_ifs
      · exact { moved with }
      · exact moved
    | done => exact sound.move found nofun nofun

theorem Sound.step (sound : Sound client) (event : Event) (orderly : client.Orderly event) :
    Sound (client.step event) := by
  cases event with
  | close | closeAll | reply payload => exact sound.begin _ rfl rfl
  | read => exact { sound with }
  | advance place seen => exact sound.advance place seen orderly

/-- In every run in which sweeps set the flag only while it is not set, and the channel is closed
only while no delivery is about to send, no channel is closed twice and nothing is sent on a
closed channel. -/
theorem closing_safe {events : List Event}
    (orderly : Machine.Meets UdpClient.step UdpClient.Orderly {} events) :
    (Machine.drive UdpClient.step {} events).panicked = false := by
  have start : Sound {} := ⟨Nat.le_refl 0, nofun, rfl⟩
  exact (invariant_drive Sound start (fun _ event sound => sound.step event)
    orderly).running

instance (client : UdpClient) (event : Event) : Decidable (client.Orderly event) := by
  unfold UdpClient.Orderly
  split
  · split <;> infer_instance
  · infer_instance

/-- A reply is delivered, the connection is closed, and a sweep comes too late. -/
theorem closing_safe_inTurn :
    (Machine.drive UdpClient.step {} [.reply [1], .advance 0 true, .advance 0 true,
      .advance 0 true, .close, .advance 1 true, .advance 1 true, .advance 1 true, .closeAll,
      .advance 2 true]).panicked = false :=
  closing_safe (by decide)

/-- `Close` has set the flag when a sweep meets the client, sets it again and closes the channel;
then `Close` closes the channel once more. And a delivery that has looked at the flag sends after
a sweep. -/
theorem overlapping_panics :
    (Machine.drive UdpClient.step {} [.close, .closeAll, .advance 0 true, .advance 1 true,
      .advance 1 true, .advance 1 true, .advance 0 true]).panicked = true ∧
    (Machine.drive UdpClient.step {} [.reply [1], .closeAll, .advance 0 true, .advance 0 true,
      .advance 1 true, .advance 1 true, .advance 1 true, .advance 0 true]).panicked = true := by
  decide

end SingBox.RelayClosing
