import Mathlib.Data.Nat.Basic
import Mathlib.Tactic.Ring

/-! # Little-endian integers

    Byte strings and the fixed-width little-endian rendering of naturals.
    A width-`w` rendering keeps the value modulo `256 ^ w`, and every byte
    string is the rendering of exactly one value at its own width.
-/

/-- A byte string. -/
abbrev Bytes := List UInt8

/-- A byte string of a fixed length. -/
abbrev ByteVec (n : Nat) := { bs : Bytes // bs.length = n }

/-- The `w` low bytes of `n`, least significant first. -/
def le_bytes : Nat → Nat → Bytes
  | 0, _ => []
  | w + 1, n => UInt8.ofNat n :: le_bytes w (n / 256)

/-- The value of a little-endian byte string. -/
def of_le_bytes : Bytes → Nat
  | [] => 0
  | b :: bs => b.toNat + 256 * of_le_bytes bs

@[simp] theorem le_bytes_length (w n : Nat) : (le_bytes w n).length = w := by
  induction w generalizing n with
  | zero => rfl
  | succ w ih => simp [le_bytes, ih]

/-- A byte string of length `w` has a value below `256 ^ w`. -/
theorem of_le_bytes_lt (bs : Bytes) : of_le_bytes bs < 256 ^ bs.length := by
  induction bs with
  | nil => simp [of_le_bytes]
  | cons b bs ih =>
    have hb : b.toNat < 256 := b.toNat_lt
    simp only [of_le_bytes, List.length_cons, Nat.pow_succ]
    omega

/-- Rendering then reading keeps the value modulo the width. -/
theorem of_le_bytes_le_bytes (w n : Nat) : of_le_bytes (le_bytes w n) = n % 256 ^ w := by
  induction w generalizing n with
  | zero => simp [le_bytes, of_le_bytes, Nat.mod_one]
  | succ w ih =>
    have hb : (UInt8.ofNat n).toNat = n % 256 := by simp
    rw [le_bytes, of_le_bytes, ih, hb, Nat.pow_succ, Nat.mul_comm (256 ^ w) 256,
      Nat.mod_mul]

/-- Reading then rendering at the same width gives the bytes back. -/
theorem le_bytes_of_le_bytes (bs : Bytes) : le_bytes bs.length (of_le_bytes bs) = bs := by
  induction bs with
  | nil => rfl
  | cons b bs ih =>
    have hb : b.toNat < 256 := b.toNat_lt
    have hdiv : (b.toNat + 256 * of_le_bytes bs) / 256 = of_le_bytes bs := by omega
    have hlow : UInt8.ofNat (b.toNat + 256 * of_le_bytes bs) = b := by
      apply UInt8.toNat_inj.mp
      rw [UInt8.toNat_ofNat']
      omega
    simp only [List.length_cons, of_le_bytes, le_bytes, hdiv, hlow, ih]
