import SignedPulse.Protocol.Packet

/-! # Reading a client id

    `ClientId::from_hex` slices a string by byte positions, which panics inside
    a character. `none` stands for the panic.
-/

namespace SignedPulse

/-- `char::is_whitespace`: the Unicode property `White_Space`. -/
def is_whitespace (c : Char) : Bool :=
  let n := c.toNat
  (0x09 ≤ n && n ≤ 0x0d) || n = 0x20 || n = 0x85 || n = 0xa0 || n = 0x1680 ||
    (0x2000 ≤ n && n ≤ 0x200a) || n = 0x2028 || n = 0x2029 || n = 0x202f || n = 0x205f ||
    n = 0x3000

/-- `str::trim`. -/
def trim (s : Str) : Str :=
  ((s.dropWhile is_whitespace).reverse.dropWhile is_whitespace).reverse

/-- A byte position between two characters. -/
def is_char_boundary (s : Str) (i : Nat) : Bool :=
  s.inits.any (fun p => (utf8 p).length = i)

/-- `&s[a..b]` on the bytes of `s`; `none` is a panic. -/
def slice (s : Str) (a b : Nat) : Option Bytes :=
  if is_char_boundary s a && is_char_boundary s b then some ((utf8 s).drop a |>.take (b - a))
  else none

/-- The value of an ASCII hex digit. -/
def hex_value (b : UInt8) : Option Nat :=
  let n := b.toNat
  if 48 ≤ n ∧ n ≤ 57 then some (n - 48)
  else if 97 ≤ n ∧ n ≤ 102 then some (n - 87)
  else if 65 ≤ n ∧ n ≤ 70 then some (n - 55)
  else none

/-- `u8::from_str_radix(_, 16)` on two bytes: a leading plus sign is skipped. -/
def u8_from_str_radix_16 : Bytes → Option UInt8
  | [a, b] =>
    if a.toNat = 43 then (hex_value b).map UInt8.ofNat
    else do
      let hi ← hex_value a
      let lo ← hex_value b
      return UInt8.ofNat (16 * hi + lo)
  | _ => none

/-- The bytes from the pair at `i` on. -/
def from_hex_pairs (s : Str) : (n i : Nat) → Option (Except ProtocolError (ByteVec n))
  | 0, _ => some (.ok ⟨[], rfl⟩)
  | n + 1, i =>
    match slice s (2 * i) (2 * i + 2) with
    | none => none
    | some pair =>
      match u8_from_str_radix_16 pair with
      | none => some (.error .BadClientIdHex)
      | some byte =>
        (from_hex_pairs s n (i + 1)).map (fun r => r.map (fun bs =>
          ⟨byte :: bs.val, by rw [List.length_cons, bs.property]⟩))

def ClientId.from_hex (s : Str) : Option (Except ProtocolError ClientId) :=
  let s := trim s
  if (utf8 s).length ≠ CLIENT_ID_LEN * 2 then some (.error .BadClientIdHex)
  else (from_hex_pairs s CLIENT_ID_LEN 0).map (fun r => r.map ClientId.mk)

end SignedPulse
