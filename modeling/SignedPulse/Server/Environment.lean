import SignedPulse.Framework.Bytes
import Mathlib.Data.List.Basic

/-! # Addresses and clocks

    What the server takes from its platform: source addresses and two clocks.
    The monotonic clock (`Instant`) times leases, blocks and windows; the unix
    clock (an `i64` of seconds) dates nonces and signed HELLOs.

    An `Instant` is a number of nanoseconds, so subtraction saturates at zero
    as `Instant::duration_since` does. Sums of an instant and a duration are
    not bounded here.
-/

namespace SignedPulse

/-! ### Addresses -/

inductive IpAddr where
  | V4 (octets : ByteVec 4)
  | V6 (octets : ByteVec 16)
  deriving DecidableEq

structure SocketAddr where
  ip : IpAddr
  port : UInt16
  deriving DecidableEq

/-- Sources of packets, for sample runs. -/
def IpAddr.sample (n : UInt8) : IpAddr := .V4 ⟨[198, 51, 100, n], rfl⟩

/-! ### Clocks -/

/-- A span of monotonic time, in nanoseconds. -/
abbrev Duration := Nat

/-- A reading of the monotonic clock, in nanoseconds. -/
abbrev Instant := Nat

def Duration.from_secs (secs : UInt64) : Duration := secs.toNat * 1000000000

/-- `as_millis() as u64`. -/
def Duration.as_millis (d : Duration) : UInt64 := UInt64.ofNat (d / 1000000)

/-- `self.duration_since(earlier)`, zero when `earlier` is later. -/
def Instant.duration_since (now earlier : Instant) : Duration := now - earlier

/-- `(now + secs).min(i64::MAX)`, computed in `i128`. -/
def unix_deadline (now : Int64) (secs : UInt64) : Int64 :=
  Int64.ofInt (min (now.toInt + secs.toNat) Int64.maxValue.toInt)

/-- `u64::saturating_mul`. -/
def saturating_mul (a b : UInt64) : UInt64 :=
  UInt64.ofNat (min (a.toNat * b.toNat) (UInt64.size - 1))

/-- `Ord::clamp`. -/
def clamp (x lo hi : UInt64) : UInt64 :=
  if x < lo then lo else if x > hi then hi else x

theorem unix_deadline_toInt (now : Int64) (secs : UInt64) :
    (unix_deadline now secs).toInt = min (now.toInt + secs.toNat) Int64.maxValue.toInt := by
  have hlo := now.le_toInt
  have hmax : Int64.maxValue.toInt = 2 ^ 63 - 1 := rfl
  exact Int64.toInt_ofInt_of_le (by omega) (by omega)

theorem saturating_mul_toNat (a b : UInt64) :
    (saturating_mul a b).toNat = min (a.toNat * b.toNat) (UInt64.size - 1) := by
  unfold saturating_mul
  rw [UInt64.toNat_ofNat']
  exact Nat.mod_eq_of_lt (lt_of_le_of_lt (Nat.min_le_right _ _) (by decide))

theorem Duration.from_secs_pos {secs : UInt64} (h : 1 ≤ secs) : 0 < Duration.from_secs secs := by
  have hsecs : 1 ≤ secs.toNat := by simpa using UInt64.le_iff_toNat_le.mp h
  exact Nat.mul_pos hsecs (by decide)

/-- A window is never empty. -/
theorem Duration.from_secs_max_pos (secs : UInt64) : 0 < Duration.from_secs (max secs 1) := by
  refine Duration.from_secs_pos ?_
  rw [show max secs 1 = if secs ≤ 1 then 1 else secs from rfl]
  split
  · exact UInt64.le_refl 1
  · rename_i hlarge
    exact UInt64.le_of_lt (UInt64.not_le.mp hlarge)

end SignedPulse
