import Mathlib.Data.List.Infix
import SignedPulse.Protocol.ClientIdHex

/-! # Spellings of a client id

    One client id has many spellings that `from_hex` accepts: surrounding white
    space is trimmed, letters may be upper case, and a pair of digits may begin
    with a plus sign in place of a zero. `canonical_of_from_hex` reduces them
    all to the hex that the server itself writes, which is one of them
    (`from_hex_to_hex`).
-/

namespace SignedPulse

/-- `str::to_lowercase`, on texts of hex digits, plus signs and white space. -/
def to_lowercase (s : Str) : Str := s.map Char.toLower

/-- Read a plus sign at the front of a pair as a zero. -/
def plus_to_zero : Str → Str
  | a :: b :: rest => (if a = '+' then '0' else a) :: b :: plus_to_zero rest
  | rest => rest

/-- The spelling without white space, upper case and plus signs. -/
def canonical_spelling (s : Str) : Str := plus_to_zero (to_lowercase (trim s))

/-! ### ASCII -/

/-- The character that a byte encodes by itself. -/
def ascii_char (b : UInt8) : Char := Char.ofNat b.toNat

theorem utf8_ascii {bs : Bytes} (h : ∀ b ∈ bs, b.toNat < 128) : utf8 (bs.map ascii_char) = bs := by
  have key : ∀ n < 128, String.utf8EncodeChar (Char.ofNat n) = [UInt8.ofNat n] := by decide
  induction bs with
  | nil => rfl
  | cons b bs ih =>
    have hb := key b.toNat (h b List.mem_cons_self)
    rw [UInt8.ofNat_toNat] at hb
    have hrest := ih fun b' hb' => h b' (List.mem_cons_of_mem _ hb')
    unfold utf8 at hrest ⊢
    rw [List.map_cons, List.flatMap_cons, hrest]
    show String.utf8EncodeChar (Char.ofNat b.toNat) ++ bs = b :: bs
    rw [hb]
    rfl

/-- A text whose bytes are all ASCII consists of their characters. -/
theorem eq_ascii_of_utf8 {s : Str} {bs : Bytes} (hs : utf8 s = bs) (h : ∀ b ∈ bs, b.toNat < 128) :
    s = bs.map ascii_char :=
  utf8_injective (hs.trans (utf8_ascii h).symm)

/-! ### Digits -/

theorem hex_value_lt {b : UInt8} {v : Nat} (h : hex_value b = some v) : b.toNat < 128 ∧ v < 16 := by
  unfold hex_value at h
  dsimp only at h
  split at h
  · obtain rfl := Option.some.inj h
    omega
  · split at h
    · obtain rfl := Option.some.inj h
      omega
    · split at h
      · obtain rfl := Option.some.inj h
        omega
      · cases h

/-- A digit in lower case is the digit that is written for its value. -/
theorem lower_digit {b : UInt8} {v : Nat} (h : hex_value b = some v) :
    (ascii_char b).toLower = hex_digit v ∧ (ascii_char b).toLower ≠ '+' := by
  have key : ∀ n < 128, ∀ v ∈ hex_value (UInt8.ofNat n),
      (ascii_char (UInt8.ofNat n)).toLower = hex_digit v ∧
        (ascii_char (UInt8.ofNat n)).toLower ≠ '+' := by decide
  have hb := key b.toNat (hex_value_lt h).1
  rw [UInt8.ofNat_toNat] at hb
  exact hb v h

/-- The two characters of a pair, spelled canonically, are the hex of its byte. -/
theorem pair_spelling {a b byte : UInt8} (h : u8_from_str_radix_16 [a, b] = some byte) :
    a.toNat < 128 ∧ b.toNat < 128 ∧
      (if (ascii_char a).toLower = '+' then '0' else (ascii_char a).toLower) =
        hex_digit (byte.toNat / 16) ∧
      (ascii_char b).toLower = hex_digit (byte.toNat % 16) := by
  unfold u8_from_str_radix_16 at h
  dsimp only at h
  split at h
  · -- a plus sign stands for a leading zero
    rename_i hplus
    obtain ⟨v, hv, rfl⟩ := Option.map_eq_some_iff.mp h
    obtain ⟨hb, hlt⟩ := hex_value_lt hv
    have ha : (ascii_char a).toLower = '+' := by
      unfold ascii_char
      rw [hplus]
      decide
    have hbyte : (UInt8.ofNat v).toNat = v := by
      rw [UInt8.toNat_ofNat']
      omega
    refine ⟨by omega, hb, ?_, ?_⟩
    · rw [if_pos ha, hbyte, Nat.div_eq_of_lt hlt]
      rfl
    · rw [hbyte, Nat.mod_eq_of_lt hlt]
      exact (lower_digit hv).1
  · simp only [Option.bind_eq_bind, Option.bind_eq_some_iff, Option.pure_def,
      Option.some.injEq] at h
    obtain ⟨hi, hhi, lo, hlo, rfl⟩ := h
    obtain ⟨ha, hhi_lt⟩ := hex_value_lt hhi
    obtain ⟨hb, hlo_lt⟩ := hex_value_lt hlo
    have hbyte : (UInt8.ofNat (16 * hi + lo)).toNat = 16 * hi + lo := by
      rw [UInt8.toNat_ofNat']
      omega
    obtain ⟨hlower, hnot⟩ := lower_digit hhi
    refine ⟨ha, hb, ?_, ?_⟩
    · rw [if_neg hnot, hbyte, hlower, show (16 * hi + lo) / 16 = hi by omega]
    · rw [hbyte, (lower_digit hlo).1, show (16 * hi + lo) % 16 = lo by omega]

/-! ### Whole ids -/

theorem pair_of_radix {bs : Bytes} {byte : UInt8} (h : u8_from_str_radix_16 bs = some byte) :
    ∃ a b, bs = [a, b] := by
  unfold u8_from_str_radix_16 at h
  split at h
  · exact ⟨_, _, rfl⟩
  · cases h

/-- What a successful parse says about the bytes of the text, pair by pair. -/
theorem from_hex_pairs_ok {s : Str} {n i : Nat} {bs : ByteVec n}
    (h : from_hex_pairs s n i = some (.ok bs)) :
    ∃ ps : List (UInt8 × UInt8), ((utf8 s).drop (2 * i)).take (2 * n) =
        ps.flatMap (fun p => [p.1, p.2]) ∧
      List.Forall₂ (fun p byte => u8_from_str_radix_16 [p.1, p.2] = some byte) ps bs.val := by
  induction n generalizing i with
  | zero =>
    have hnil : bs.val = [] := List.length_eq_zero_iff.mp bs.property
    exact ⟨[], by simp, by rw [hnil]; exact .nil⟩
  | succ n ih =>
    unfold from_hex_pairs at h
    split at h
    · cases h
    rename_i pair hpair
    split at h
    · cases h
    rename_i byte hbyte
    obtain ⟨r, hr, hmap⟩ := Option.map_eq_some_iff.mp h
    cases r with
    | error e => cases hmap
    | ok rest =>
      obtain ⟨ps, hbytes, hps⟩ := ih hr
      obtain rfl := Except.ok.inj hmap
      -- the pair is two bytes of the text
      unfold slice at hpair
      split at hpair
      swap
      · cases hpair
      have hpair : ((utf8 s).drop (2 * i)).take 2 = pair := by
        have := Option.some.inj hpair
        rwa [show 2 * i + 2 - 2 * i = 2 by omega] at this
      obtain ⟨a, b, rfl⟩ := pair_of_radix hbyte
      refine ⟨(a, b) :: ps, ?_, .cons hbyte hps⟩
      rw [show 2 * (n + 1) = 2 + 2 * n by omega, List.take_add, hpair, List.drop_drop,
        show 2 * i + 2 = 2 * (i + 1) by omega, hbytes]
      rfl

/-- The spelling of a text that is made of pairs. -/
theorem spelling_of_pairs {ps : List (UInt8 × UInt8)} {bs : Bytes}
    (h : List.Forall₂ (fun p byte => u8_from_str_radix_16 [p.1, p.2] = some byte) ps bs) :
    (∀ b ∈ ps.flatMap (fun p => [p.1, p.2]), b.toNat < 128) ∧
      plus_to_zero (to_lowercase ((ps.flatMap (fun p => [p.1, p.2])).map ascii_char)) = hex bs := by
  induction h with
  | nil => exact ⟨by simp, rfl⟩
  | cons hpair _ ih =>
    rename_i p byte ps bs
    obtain ⟨ha, hb, hhi, hlo⟩ := pair_spelling hpair
    obtain ⟨hascii, hspelling⟩ := ih
    constructor
    · intro b hmem
      rw [List.flatMap_cons, List.mem_append] at hmem
      rcases hmem with hmem | hmem
      · rcases List.mem_cons.mp hmem with rfl | hmem
        · exact ha
        · rwa [List.mem_singleton.mp hmem]
      · exact hascii b hmem
    · unfold to_lowercase hex at hspelling ⊢
      simp only [List.flatMap_cons, List.cons_append, List.nil_append, List.map_cons,
        plus_to_zero, hspelling, hhi, hlo]

/-- Every spelling of a client id has the server's hex of it for its canonical spelling. -/
theorem canonical_of_from_hex {s : Str} {id : ClientId} (h : ClientId.from_hex s = some (.ok id)) :
    canonical_spelling s = id.to_hex := by
  unfold ClientId.from_hex at h
  dsimp only at h
  split at h
  · cases h
  rename_i hlength
  push Not at hlength
  obtain ⟨r, hr, hmap⟩ := Option.map_eq_some_iff.mp h
  cases r with
  | error e => cases hmap
  | ok bs =>
    obtain rfl := Except.ok.inj hmap
    obtain ⟨ps, hbytes, hps⟩ := from_hex_pairs_ok hr
    rw [Nat.mul_zero, List.drop_zero, List.take_of_length_le (by rw [hlength]; decide)] at hbytes
    obtain ⟨hascii, hspelling⟩ := spelling_of_pairs hps
    unfold canonical_spelling
    rw [eq_ascii_of_utf8 hbytes hascii, hspelling]
    rfl

/-! ### The server's own spelling -/

/-- The byte of a hex digit. -/
def digit_byte (n : Nat) : UInt8 := UInt8.ofNat (hex_digit n).toNat

theorem utf8_hex (bs : Bytes) :
    utf8 (hex bs) =
      bs.flatMap (fun b => [digit_byte (b.toNat / 16), digit_byte (b.toNat % 16)]) := by
  have key : ∀ n < 16, String.utf8EncodeChar (hex_digit n) = [digit_byte n] := by decide
  induction bs with
  | nil => rfl
  | cons b bs ih =>
    have hlt : b.toNat < 256 := b.toNat_lt
    unfold utf8 hex at ih ⊢
    rw [List.flatMap_cons, List.flatMap_append, ih, List.flatMap_cons, List.flatMap_cons,
      List.flatMap_cons, key _ (by omega), key _ (Nat.mod_lt _ (by decide))]
    rfl

theorem radix_of_digits (b : UInt8) :
    u8_from_str_radix_16 [digit_byte (b.toNat / 16), digit_byte (b.toNat % 16)] = some b := by
  have hvalue : ∀ n < 16, hex_value (digit_byte n) = some n := by decide
  have hplus : ∀ n < 16, (digit_byte n).toNat ≠ 43 := by decide
  have hlt : b.toNat < 256 := b.toNat_lt
  have hhi : b.toNat / 16 < 16 := by omega
  unfold u8_from_str_radix_16
  dsimp only
  rw [if_neg (hplus _ hhi), hvalue _ hhi, hvalue _ (Nat.mod_lt _ (by decide))]
  show some (UInt8.ofNat (16 * (b.toNat / 16) + b.toNat % 16)) = some b
  rw [Nat.div_add_mod, UInt8.ofNat_toNat]

theorem utf8_hex_length (bs : Bytes) : (utf8 (hex bs)).length = 2 * bs.length := by
  rw [utf8_hex, List.length_flatMap]
  simp [Nat.mul_comm]

/-- A position between two pairs is between two characters. -/
theorem boundary_hex (pre bs : Bytes) : is_char_boundary (hex (pre ++ bs)) (2 * pre.length) := by
  refine List.any_eq_true.mpr ⟨hex pre, (List.mem_inits _ _).mpr ?_, by simp [utf8_hex_length]⟩
  unfold hex
  rw [List.flatMap_append]
  exact List.prefix_append _ _

theorem slice_hex (pre bs : Bytes) (b : UInt8) :
    slice (hex (pre ++ b :: bs)) (2 * pre.length) (2 * pre.length + 2) =
      some [digit_byte (b.toNat / 16), digit_byte (b.toNat % 16)] := by
  have hend := boundary_hex (pre ++ [b]) bs
  rw [List.append_assoc, List.singleton_append, List.length_append, List.length_singleton,
    Nat.mul_add] at hend
  unfold slice
  rw [boundary_hex, hend, Bool.and_self, if_pos rfl, utf8_hex, List.flatMap_append]
  congr 1
  rw [List.drop_left' (by rw [← utf8_hex, utf8_hex_length]), Nat.add_sub_cancel_left]
  rfl

theorem from_hex_pairs_hex {n : Nat} (pre : Bytes) (bs : ByteVec n) :
    from_hex_pairs (hex (pre ++ bs.val)) n pre.length = some (.ok bs) := by
  obtain ⟨bs, hbs⟩ := bs
  induction n generalizing pre bs with
  | zero =>
    obtain rfl := List.length_eq_zero_iff.mp hbs
    rfl
  | succ n ih =>
    cases bs with
    | nil => cases hbs
    | cons b bs =>
      have hrest := ih (pre ++ [b]) bs (Nat.succ.inj hbs)
      rw [List.append_assoc, List.singleton_append, List.length_append,
        List.length_singleton] at hrest
      unfold from_hex_pairs
      dsimp only at hrest ⊢
      rw [slice_hex]
      dsimp only
      rw [radix_of_digits]
      dsimp only
      rw [hrest]
      rfl

/-- The hex that the server writes is a spelling. -/
theorem from_hex_to_hex (id : ClientId) : ClientId.from_hex id.to_hex = some (.ok id) := by
  have hspace : ∀ n < 16, is_whitespace (hex_digit n) = false := by decide
  have hdigits : ∀ c ∈ id.to_hex, is_whitespace c = false := forall_mem_hex hspace id.bytes.val
  have hdrop {s : Str} (hs : ∀ c ∈ s, is_whitespace c = false) : s.dropWhile is_whitespace = s := by
    cases s with
    | nil => rfl
    | cons c s => exact List.dropWhile_cons_of_neg (by simp [hs c List.mem_cons_self])
  have htrim : trim id.to_hex = id.to_hex := by
    unfold trim
    rw [hdrop hdigits, hdrop (by simpa using hdigits), List.reverse_reverse]
  unfold ClientId.from_hex
  dsimp only
  rw [htrim]
  unfold ClientId.to_hex
  rw [utf8_hex_length, id.bytes.property, Nat.mul_comm, if_neg (by simp)]
  have hpairs := from_hex_pairs_hex [] id.bytes
  rw [List.nil_append, List.length_nil] at hpairs
  rw [hpairs]
  rfl

end SignedPulse
