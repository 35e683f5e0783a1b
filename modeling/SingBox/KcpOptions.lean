/-
This file is about the numbers of a new mKCP connection. They are unsigned numbers of 32 bits
that nothing checks: a large capacity or buffer wraps around, a long interval makes a divisor
zero, and a small MTU is less than the overhead of a packet.
-/

import SingBox.Kcp

namespace SingBox.Kcp

/-- The getters of the options. -/
def orDefault (value default : UInt32) : UInt32 := if value = 0 then default else value

/-- The options that a new connection reads. -/
structure V2RayKCPOptions where
  mtu : UInt32 := 0
  tti : UInt32 := 0
  uplinkCapacity : UInt32 := 0
  downlinkCapacity : UInt32 := 0
  writeBufferSize : UInt32 := 0
  headerType : String := ""
  seed : String := ""

def newConfig (options : V2RayKCPOptions) : Config where
  mtu := orDefault options.mtu 1350
  tti := orDefault options.tti 50
  uplinkCapacity := orDefault options.uplinkCapacity 12
  downlinkCapacity := orDefault options.downlinkCapacity 100
  writeBufferSize := orDefault options.writeBufferSize 1

def headerSize (headerType : String) : UInt32 :=
  match headerType with
  | "srtp" | "utp" | "wireguard" => 4
  | "wechat-video" | "dtls" => 13
  | _ => 0

/-- `Overhead` of a packet writer: the header, and AES-GCM or the simple authenticator. -/
def overhead (options : V2RayKCPOptions) : UInt32 :=
  headerSize options.headerType + if options.seed = "" then 6 else 16

/-- A number of megabytes does not wrap around. -/
def Megabytes (value : UInt32) : Prop := (value * 1024 * 1024).toNat = value.toNat * 1024 * 1024

/-- No divisor of the sizes is zero, no product and no difference wraps around, and the results
are in range. -/
@[mk_iff]
structure Config.Safe (config : Config) (overhead : UInt32) : Prop where
  interval : 1000 / config.getTTIValue ≠ 0
  mtu : config.getMTUValue ≠ 0
  uplink : Megabytes config.getUplinkCapacityValue
  downlink : Megabytes config.getDownlinkCapacityValue
  buffer : Megabytes config.writeBufferSize
  mss : (newConnection 0 overhead config).mss.toNat + (overhead.toNat + 18) =
    config.getMTUValue.toNat ∧ 0 < (newConnection 0 overhead config).mss
  sending : 8 ≤ config.getSendingInFlightSize
  receiving : 8 ≤ config.getReceivingInFlightSize

theorem overhead_le (options : V2RayKCPOptions) : (overhead options).toNat ≤ 29 := by
  unfold overhead headerSize
  split <;> split_ifs <;> decide

theorem le_inFlightSize (config : Config) (capacity : UInt32) :
    8 ≤ config.inFlightSize capacity := by
  unfold Config.inFlightSize
  dsimp only
  split_ifs with small
  · exact UInt32.le_refl 8
  · exact UInt32.not_lt.mp small

section Fields

variable {value default other : UInt32}

theorem orDefault_ne (given : default ≠ 0) : orDefault value default ≠ 0 := by
  unfold orDefault
  split_ifs <;> assumption

/-- The getters of the configuration have the same defaults. -/
theorem ite_orDefault : (if orDefault value default = 0 then default
    else orDefault value default) = orDefault value default := by
  unfold orDefault
  split_ifs <;> rfl

theorem interval_iff : 1000 / orDefault value 50 ≠ 0 ↔ value ≤ 1000 := by
  unfold orDefault
  split_ifs with none
  · subst none
    decide
  · rw [UInt32.le_iff_toNat_le, ne_eq, ← UInt32.toNat_inj, UInt32.toNat_div]
    rw [← UInt32.toNat_inj] at none
    simp at none ⊢
    omega

theorem megabytes_iff : Megabytes value ↔ value < 4096 := by
  rw [Megabytes, UInt32.lt_iff_toNat_lt, UInt32.toNat_mul, UInt32.toNat_mul]
  simp
  omega

theorem orDefault_lt (small : default < 4096) : orDefault value default < 4096 ↔ value < 4096 := by
  unfold orDefault
  split_ifs with none
  · simp [small, none]
  · rfl

theorem mss_iff (little : other.toNat ≤ 29) :
    (value - other - 18).toNat + (other.toNat + 18) = value.toNat ∧ 0 < value - other - 18 ↔
      other.toNat + 18 < value.toNat := by
  have := value.toNat_lt
  rw [UInt32.lt_iff_toNat_lt, UInt32.toNat_sub, UInt32.toNat_sub]
  simp
  omega

end Fields

/-- For every options, the numbers are safe just when the interval is at most a second, the
capacities and the buffer are less than 4096 and the MTU is more than the overhead. -/
theorem safe_newConfig_iff (options : V2RayKCPOptions) :
    (newConfig options).Safe (overhead options) ↔ options.tti ≤ 1000 ∧
      options.uplinkCapacity < 4096 ∧ options.downlinkCapacity < 4096 ∧
      options.writeBufferSize < 4096 ∧
      (options.mtu = 0 ∨ (overhead options).toNat + 18 < options.mtu.toNat) := by
  have little := overhead_le options
  have sizes := le_inFlightSize (newConfig options)
  have mtu : (overhead options).toNat + 18 < (orDefault options.mtu 1350).toNat ↔
      options.mtu = 0 ∨ (overhead options).toNat + 18 < options.mtu.toNat := by
    unfold orDefault
    split_ifs with none
    · simp [none]
      omega
    · simp [none]
  simp only [Config.safe_iff, newConnection, newConfig, Config.getTTIValue, Config.getMTUValue,
    Config.getUplinkCapacityValue, Config.getDownlinkCapacityValue, dataSegmentOverhead,
    ite_orDefault, megabytes_iff, interval_iff, mss_iff little, mtu]
  rw [orDefault_lt (by decide), orDefault_lt (by decide), orDefault_lt (by decide)]
  constructor
  · rintro ⟨interval, -, up, down, saved, mss, -⟩
    exact ⟨interval, up, down, saved, mss⟩
  · rintro ⟨interval, up, down, saved, mss⟩
    exact ⟨interval, orDefault_ne (by decide), up, down, saved, mss, sizes _, sizes _⟩

/-- An interval of more than a second makes a divisor zero. -/
theorem not_safe_long : ¬(newConfig { tti := 1001 }).Safe (overhead { tti := 1001 }) :=
  fun safe => safe.interval (by decide)

end SingBox.Kcp
