import SignedPulse.Protocol.ClientIdSpelling

/-! # Which texts are read as a client id

    `from_hex` is documented to parse 64 hex digits. It compares the number of
    bytes, then cuts the text every two bytes and hands the pieces to an integer
    parser. So it panics when a cut falls inside a character
    (`from_hex_pairs_spec`), and it accepts a plus sign at the front of a pair.
-/

namespace SignedPulse

/-- `char::is_ascii_hexdigit`. -/
def is_ascii_hexdigit (c : Char) : Bool :=
  let n := c.toNat
  (48 ≤ n && n ≤ 57) || (97 ≤ n && n ≤ 102) || (65 ≤ n && n ≤ 70)

/-- The text is 64 ASCII hexadecimal digits. -/
def HexDigits (s : Str) : Prop :=
  s.length = CLIENT_ID_LEN * 2 ∧ ∀ c ∈ s, is_ascii_hexdigit c = true

/-- What `from_hex` is documented to do with a text: no panic, an id just for 64 digits, and the id
    that is written so. -/
def ReadAsDocumented (s : Str) : Prop :=
  ClientId.from_hex s ≠ none ∧
  ((∃ id, ClientId.from_hex s = some (.ok id)) ↔ HexDigits (trim s)) ∧
  ∀ id, ClientId.from_hex s = some (.ok id) → id.to_hex = to_lowercase (trim s)

/-! ### Pairs of digits -/

/-- Two characters that the integer parser takes: the first may be a plus sign. -/
def digit_pair (a b : Char) : Bool := (is_ascii_hexdigit a || a == '+') && is_ascii_hexdigit b

/-- The text is made of such pairs. -/
inductive DigitPairs : Str → Prop
  | nil : DigitPairs []
  | cons {a b : Char} {rest : Str} (hpair : digit_pair a b = true) (hrest : DigitPairs rest) :
      DigitPairs (a :: b :: rest)

/-- After any number of pairs, the next two bytes end between two characters. -/
def BoundariesKept (s : Str) : Prop :=
  ∀ pre rest, s = pre ++ rest → DigitPairs pre → rest ≠ [] → is_char_boundary rest 2 = true

theorem utf8_append (s t : Str) : utf8 (s ++ t) = utf8 s ++ utf8 t := List.flatMap_append

theorem hex_value_ascii {c : Char} (h : c.toNat < 128) :
    (hex_value (UInt8.ofNat c.toNat)).isSome = is_ascii_hexdigit c := by
  have key : ∀ n < 128, (hex_value (UInt8.ofNat n)).isSome = is_ascii_hexdigit (Char.ofNat n) := by
    decide
  rw [key c.toNat h, Char.ofNat_toNat]

theorem utf8_char_ascii {c : Char} (h : c.toNat < 128) :
    String.utf8EncodeChar c = [UInt8.ofNat c.toNat] := by
  have key : ∀ n < 128, String.utf8EncodeChar (Char.ofNat n) = [UInt8.ofNat n] := by decide
  have hc := key c.toNat h
  rwa [Char.ofNat_toNat] at hc

theorem ascii_of_hexdigit {c : Char} (h : is_ascii_hexdigit c = true) : c.toNat < 128 := by
  unfold is_ascii_hexdigit at h
  simp only [Bool.or_eq_true, Bool.and_eq_true, decide_eq_true_eq] at h
  omega

theorem digit_pair_cases {a b : Char} (h : digit_pair a b = true) :
    (is_ascii_hexdigit a = true ∨ a = '+') ∧ is_ascii_hexdigit b = true ∧ a.toNat < 128 ∧
      b.toNat < 128 := by
  unfold digit_pair at h
  rw [Bool.and_eq_true, Bool.or_eq_true, beq_iff_eq] at h
  obtain ⟨ha, hb⟩ := h
  refine ⟨ha, hb, ?_, ascii_of_hexdigit hb⟩
  rcases ha with ha | rfl
  · exact ascii_of_hexdigit ha
  · decide

/-- A pair is two bytes. -/
theorem utf8_pair {a b : Char} (h : digit_pair a b = true) :
    utf8 [a, b] = [UInt8.ofNat a.toNat, UInt8.ofNat b.toNat] := by
  obtain ⟨-, -, ha, hb⟩ := digit_pair_cases h
  show String.utf8EncodeChar a ++ (String.utf8EncodeChar b ++ []) = _
  rw [utf8_char_ascii ha, utf8_char_ascii hb]
  rfl

/-- The integer parser takes the bytes of a text just when the text is a pair. -/
theorem radix_utf8_iff {s : Str} :
    (∃ byte, u8_from_str_radix_16 (utf8 s) = some byte) ↔
      ∃ a b, s = [a, b] ∧ digit_pair a b = true := by
  constructor
  · intro ⟨byte, h⟩
    obtain ⟨x, y, hbytes⟩ := pair_of_radix h
    rw [hbytes] at h
    obtain ⟨hx, hy, -, -⟩ := pair_spelling h
    have hs : s = [ascii_char x, ascii_char y] :=
      eq_ascii_of_utf8 hbytes (by simp [hx, hy])
    refine ⟨_, _, hs, ?_⟩
    have hdigit {z : UInt8} (hz : z.toNat < 128) :
        (hex_value z).isSome = is_ascii_hexdigit (ascii_char z) := by
      have key : ∀ n < 128, (hex_value (UInt8.ofNat n)).isSome =
          is_ascii_hexdigit (ascii_char (UInt8.ofNat n)) := by decide
      have hn := key z.toNat hz
      rwa [UInt8.ofNat_toNat] at hn
    unfold digit_pair
    rw [← hdigit hx, ← hdigit hy]
    unfold u8_from_str_radix_16 at h
    dsimp only at h
    split at h
    · -- a plus sign, then a digit
      rename_i hplus
      obtain ⟨v, hv, -⟩ := Option.map_eq_some_iff.mp h
      have hchar : ascii_char x = '+' := by
        unfold ascii_char
        rw [hplus]
      simp [hv, hchar]
    · simp only [Option.bind_eq_bind, Option.bind_eq_some_iff, Option.pure_def] at h
      obtain ⟨hi, hhi, lo, hlo, -⟩ := h
      simp [hhi, hlo]
  · intro ⟨a, b, hs, hpair⟩
    obtain ⟨ha, hb, ha_lt, hb_lt⟩ := digit_pair_cases hpair
    rw [hs, utf8_pair hpair]
    rw [← hex_value_ascii hb_lt, Option.isSome_iff_exists] at hb
    obtain ⟨lo, hlo⟩ := hb
    unfold u8_from_str_radix_16
    dsimp only
    split
    · exact ⟨_, by rw [hlo]; rfl⟩
    · rename_i hplus
      rcases ha with ha | rfl
      · rw [← hex_value_ascii ha_lt, Option.isSome_iff_exists] at ha
        obtain ⟨hi, hhi⟩ := ha
        exact ⟨_, by rw [hhi, hlo]; rfl⟩
      · exact absurd (by decide) hplus

/-! ### Cutting by bytes -/

theorem is_char_boundary_iff {s : Str} {i : Nat} :
    is_char_boundary s i = true ↔ ∃ p r, s = p ++ r ∧ (utf8 p).length = i := by
  unfold is_char_boundary
  rw [List.any_eq_true]
  constructor
  · intro ⟨p, hp, hlen⟩
    obtain ⟨r, hr⟩ := (List.mem_inits _ _).mp hp
    exact ⟨p, r, hr.symm, of_decide_eq_true hlen⟩
  · intro ⟨p, r, hs, hlen⟩
    exact ⟨p, (List.mem_inits _ _).mpr ⟨r, hs.symm⟩, decide_eq_true hlen⟩

/-- Two ways to cut a text at one byte position are the same. -/
theorem cut_unique {p r p' r' : Str} (h : p ++ r = p' ++ r')
    (hlen : (utf8 p).length = (utf8 p').length) : p = p' := by
  refine utf8_injective ?_
  have hbytes := congrArg utf8 h
  rw [utf8_append, utf8_append] at hbytes
  exact (List.append_inj hbytes hlen).1

/-- Positions behind a prefix are positions in the rest. -/
theorem is_char_boundary_append (pre rest : Str) (k : Nat) :
    is_char_boundary (pre ++ rest) ((utf8 pre).length + k) = is_char_boundary rest k := by
  rw [Bool.eq_iff_iff, is_char_boundary_iff, is_char_boundary_iff]
  constructor
  · intro ⟨p, r, hs, hlen⟩
    rcases List.append_eq_append_iff.mp hs with ⟨q, hp, hrest⟩ | ⟨q, hpre, -⟩
    · refine ⟨q, r, hrest, ?_⟩
      rw [hp, utf8_append, List.length_append] at hlen
      exact Nat.add_left_cancel hlen
    · -- the position is the end of the prefix
      refine ⟨[], rest, rfl, ?_⟩
      rw [hpre, utf8_append, List.length_append] at hlen
      show 0 = k
      omega
  · intro ⟨p, r, hrest, hlen⟩
    refine ⟨pre ++ p, r, by rw [hrest, List.append_assoc], ?_⟩
    rw [utf8_append, List.length_append, hlen]

/-- The next two bytes after a prefix. -/
theorem slice_append (pre rest : Str) (i : Nat) (hpre : (utf8 pre).length = 2 * i) :
    slice (pre ++ rest) (2 * i) (2 * i + 2) =
      if is_char_boundary rest 2 = true then some ((utf8 rest).take 2) else none := by
  have hstart : is_char_boundary (pre ++ rest) (2 * i) = true :=
    is_char_boundary_iff.mpr ⟨pre, rest, rfl, hpre⟩
  have hend := is_char_boundary_append pre rest 2
  rw [hpre] at hend
  unfold slice
  rw [hstart, hend, Bool.true_and, utf8_append, ← hpre, List.drop_left, Nat.add_sub_cancel_left]

/-! ### Reading pair by pair -/

theorem DigitPairs.boundary {s : Str} (h : DigitPairs s) (hne : s ≠ []) :
    is_char_boundary s 2 = true := by
  cases h with
  | nil => exact absurd rfl hne
  | @cons a b rest hpair _ =>
    refine is_char_boundary_iff.mpr ⟨[a, b], rest, rfl, ?_⟩
    rw [utf8_pair hpair]
    rfl

theorem boundaries_kept_pair {a b : Char} {rest : Str} (hpair : digit_pair a b = true) :
    BoundariesKept (a :: b :: rest) ↔ BoundariesKept rest := by
  constructor
  · intro h pre r hsplit hpre hne
    exact h (a :: b :: pre) r (by rw [hsplit]; rfl) (.cons hpair hpre) hne
  · intro h pre r hsplit hpre hne
    cases hpre with
    | nil =>
      rw [← List.nil_append r, ← hsplit]
      refine is_char_boundary_iff.mpr ⟨[a, b], rest, rfl, ?_⟩
      rw [utf8_pair hpair]
      rfl
    | cons hpair' hpre =>
      obtain ⟨-, hrest⟩ := List.cons.inj hsplit
      exact h _ r (List.cons.inj hrest).2 hpre hne

/-- Spec lemma: the reader panics when a cut falls inside a character, and reads a text of pairs;
    anything else is an error. -/
theorem from_hex_pairs_spec {n i : Nat} {pre rest : Str} (hpre : (utf8 pre).length = 2 * i)
    (hrest : (utf8 rest).length = 2 * n) :
    (from_hex_pairs (pre ++ rest) n i = none ↔ ¬ BoundariesKept rest) ∧
      ((∃ bs, from_hex_pairs (pre ++ rest) n i = some (.ok bs)) ↔ DigitPairs rest) := by
  induction n generalizing i pre rest with
  | zero =>
    have hnil : rest = [] := by
      have hbytes : utf8 rest = utf8 [] := List.length_eq_zero_iff.mp hrest
      exact utf8_injective hbytes
    have hkept : BoundariesKept rest := by
      intro p r hsplit _ hne
      rw [hnil] at hsplit
      exact absurd (List.append_eq_nil_iff.mp hsplit.symm).2 hne
    refine ⟨?_, ?_⟩
    · simp [from_hex_pairs, hkept]
    · rw [hnil]
      exact ⟨fun _ => .nil, fun _ => ⟨_, rfl⟩⟩
  | succ n ih =>
    have hne : rest ≠ [] := by
      intro hnil
      rw [hnil] at hrest
      simp [utf8] at hrest
    unfold from_hex_pairs
    rw [slice_append pre rest i hpre]
    by_cases hcut : is_char_boundary rest 2 = true
    swap
    · -- the cut falls inside a character
      have hlost : ¬ BoundariesKept rest := fun h => hcut (h [] rest rfl .nil hne)
      have hpairs : ¬ DigitPairs rest := fun h => hcut (h.boundary hne)
      rw [if_neg hcut]
      simp [hlost, hpairs]
    rw [if_pos hcut]
    obtain ⟨q, r, hsplit, hq⟩ := is_char_boundary_iff.mp hcut
    have htake : (utf8 rest).take 2 = utf8 q := by
      rw [hsplit, utf8_append, ← hq, List.take_left]
    rw [htake]
    dsimp only
    cases hbyte : u8_from_str_radix_16 (utf8 q) with
    | none =>
      -- the piece is no pair, and the text does not begin with one
      have hno : ∀ a b t, rest = a :: b :: t → digit_pair a b = false := by
        intro a b t ht
        by_contra hpair
        rw [Bool.not_eq_false] at hpair
        have hsame : q = [a, b] := by
          refine cut_unique (hsplit.symm.trans ht) ?_
          rw [hq, utf8_pair hpair]
          rfl
        obtain ⟨byte, hsome⟩ := radix_utf8_iff.mpr ⟨a, b, hsame, hpair⟩
        rw [hbyte] at hsome
        cases hsome
      have hkept : BoundariesKept rest := by
        intro p t ht hp _
        cases hp with
        | nil =>
          rw [List.nil_append] at ht
          rwa [ht] at hcut
        | cons hpair _ =>
          have hfalse := hno _ _ _ ht
          rw [hpair] at hfalse
          cases hfalse
      have hpairs : ¬ DigitPairs rest := by
        intro h
        cases h with
        | nil => exact hne rfl
        | cons hpair _ =>
          have hfalse := hno _ _ _ rfl
          rw [hpair] at hfalse
          cases hfalse
      simp [hkept, hpairs]
    | some byte =>
      -- one pair, and the rest
      obtain ⟨a, b, rfl, hpair⟩ := radix_utf8_iff.mp ⟨byte, hbyte⟩
      have hcons : rest = a :: b :: r := hsplit
      have hpre' : (utf8 (pre ++ [a, b])).length = 2 * (i + 1) := by
        rw [utf8_append, List.length_append, hpre, hq]
        omega
      have hr : (utf8 r).length = 2 * n := by
        rw [hsplit, utf8_append, List.length_append, hq] at hrest
        omega
      have hpairs : DigitPairs rest ↔ DigitPairs r := by
        rw [hcons]
        constructor
        · intro h
          cases h with
          | cons _ hr => exact hr
        · exact .cons hpair
      have hread := ih hpre' hr
      rw [List.append_assoc, ← hsplit] at hread
      rw [hcons, boundaries_kept_pair hpair, ← hcons, ← hread.1, hpairs, ← hread.2]
      dsimp only
      cases from_hex_pairs (pre ++ rest) n (i + 1) with
      | none => simp
      | some o =>
        cases o with
        | error e => simp [Except.map]
        | ok bs => simp [Except.map]

/-! ### Whole texts -/

theorem DigitPairs.utf8_length {s : Str} (h : DigitPairs s) : (utf8 s).length = s.length := by
  induction h with
  | nil => rfl
  | @cons a b rest hpair _ ih =>
    rw [show a :: b :: rest = [a, b] ++ rest from rfl, utf8_append, List.length_append,
      List.length_append, utf8_pair hpair, ih]
    rfl

theorem digit_pairs_of_hexdigits {n : Nat} {s : Str} (hlen : s.length = 2 * n)
    (h : ∀ c ∈ s, is_ascii_hexdigit c = true) : DigitPairs s := by
  induction n generalizing s with
  | zero =>
    rw [List.length_eq_zero_iff.mp hlen]
    exact .nil
  | succ n ih =>
    rcases s with - | ⟨a, - | ⟨b, s⟩⟩
    · simp at hlen
    · simp at hlen
      omega
    · refine .cons ?_ (ih ?_ fun c hc => h c (by simp [hc]))
      · simp [digit_pair, h a (by simp), h b (by simp)]
      · simp only [List.length_cons] at hlen
        omega

/-- Nothing else than digits and plus signs. -/
theorem DigitPairs.notMem {s : Str} (h : DigitPairs s) {c : Char}
    (hdigit : is_ascii_hexdigit c = false) (hplus : c ≠ '+') : c ∉ s := by
  induction h with
  | nil => exact List.not_mem_nil
  | @cons a b rest hpair _ ih =>
    obtain ⟨ha, hb, -, -⟩ := digit_pair_cases hpair
    have hne (d : Char) (hd : is_ascii_hexdigit d = true) : c ≠ d := by
      intro hsame
      rw [← hsame, hdigit] at hd
      cases hd
    have hfirst : c ≠ a := by
      rcases ha with ha | rfl
      · exact hne a ha
      · exact hplus
    simp [hfirst, hne b hb, ih]

theorem DigitPairs.hexdigits {s : Str} (h : DigitPairs s) (hplus : '+' ∉ s) :
    ∀ c ∈ s, is_ascii_hexdigit c = true := by
  induction h with
  | nil => simp
  | @cons a b rest hpair _ ih =>
    obtain ⟨ha, hb, -, -⟩ := digit_pair_cases hpair
    intro c hc
    rcases List.mem_cons.mp hc with rfl | hc
    · exact ha.resolve_right fun heq => hplus (by simp [heq])
    · rcases List.mem_cons.mp hc with rfl | hc
      · exact hb
      · exact ih (fun hmem => hplus (by simp [hmem])) c hc

/-- 64 digits are 64 bytes of pairs without a plus sign. -/
theorem hex_digits_iff {s : Str} :
    HexDigits s ↔ (utf8 s).length = CLIENT_ID_LEN * 2 ∧ DigitPairs s ∧ '+' ∉ s := by
  constructor
  · intro ⟨hlen, hdigits⟩
    have hpairs : DigitPairs s :=
      digit_pairs_of_hexdigits (hlen.trans (Nat.mul_comm CLIENT_ID_LEN 2)) hdigits
    refine ⟨hpairs.utf8_length.trans hlen, hpairs, ?_⟩
    intro hplus
    exact absurd (hdigits '+' hplus) (by decide)
  · intro ⟨hlen, hpairs, hplus⟩
    exact ⟨hpairs.utf8_length.symm.trans hlen, hpairs.hexdigits hplus⟩

/-- The canonical spelling of digits is their lower case. -/
theorem plus_to_zero_of_not_mem {s : Str} (h : '+' ∉ s) : plus_to_zero s = s := by
  fun_induction plus_to_zero s with
  | case1 a b rest ih =>
    rw [if_neg (fun heq => h (by simp [heq])), ih fun hmem => h (by simp [hmem])]
  | case2 rest => rfl

theorem plus_notMem_lowercase {s : Str} (h : ∀ c ∈ s, is_ascii_hexdigit c = true) :
    '+' ∉ to_lowercase s := by
  have key : ∀ n < 128, is_ascii_hexdigit (Char.ofNat n) = true → (Char.ofNat n).toLower ≠ '+' := by
    decide
  intro hplus
  obtain ⟨c, hc, hlower⟩ := List.mem_map.mp hplus
  have hn := key c.toNat (ascii_of_hexdigit (h c hc))
  rw [Char.ofNat_toNat] at hn
  exact hn (h c hc) hlower

/-- What `from_hex` does with 64 bytes. -/
theorem from_hex_spec {s : Str} (hlen : (utf8 (trim s)).length = CLIENT_ID_LEN * 2) :
    (ClientId.from_hex s = none ↔ ¬ BoundariesKept (trim s)) ∧
      ((∃ id, ClientId.from_hex s = some (.ok id)) ↔ DigitPairs (trim s)) := by
  have hspec := @from_hex_pairs_spec CLIENT_ID_LEN 0 [] (trim s) rfl
    (hlen.trans (Nat.mul_comm _ _))
  rw [List.nil_append] at hspec
  obtain ⟨hnone, hok⟩ := hspec
  unfold ClientId.from_hex
  dsimp only
  rw [if_neg (fun h => h hlen), ← hnone, ← hok]
  cases from_hex_pairs (trim s) CLIENT_ID_LEN 0 with
  | none => simp
  | some o =>
    cases o with
    | error e => simp [Except.map]
    | ok bs => simp [Except.map]

theorem reads_of_hexdigits {s : Str} (h : HexDigits (trim s)) :
    ∃ id, ClientId.from_hex s = some (.ok id) := by
  obtain ⟨hlen, hpairs, -⟩ := hex_digits_iff.mp h
  exact (from_hex_spec hlen).2.mpr hpairs

/-- `from_hex` reads a text as documented, unless its 64 bytes are pairs with a plus sign among
    them, or are cut inside a character; what the server writes is always read back. -/
theorem from_hex_reads_iff (s : Str) :
    (∀ id : ClientId, ClientId.from_hex id.to_hex = some (.ok id)) ∧
    (ReadAsDocumented s ↔
      ((utf8 (trim s)).length = CLIENT_ID_LEN * 2 →
        (DigitPairs (trim s) → '+' ∉ trim s) ∧ BoundariesKept (trim s))) := by
  refine ⟨from_hex_to_hex, ?_⟩
  by_cases hlen : (utf8 (trim s)).length = CLIENT_ID_LEN * 2
  swap
  · -- another length is an error, and no 64 digits
    have hread : ClientId.from_hex s = some (.error .BadClientIdHex) := by
      unfold ClientId.from_hex
      dsimp only
      rw [if_pos hlen]
    have hdigits : ¬ HexDigits (trim s) := fun h => hlen (hex_digits_iff.mp h).1
    unfold ReadAsDocumented
    simp [hread, hdigits, hlen]
  obtain ⟨hpanics, haccepts⟩ := from_hex_spec hlen
  constructor
  · intro hread _
    obtain ⟨hsafe, hexact, -⟩ := hread
    refine ⟨fun hpairs => ?_, ?_⟩
    · exact (hex_digits_iff.mp (hexact.mp (haccepts.mpr hpairs))).2.2
    · by_contra hlost
      exact hsafe (hpanics.mpr hlost)
  · intro hcond
    obtain ⟨hplus, hkept⟩ := hcond hlen
    refine ⟨fun h => hpanics.mp h hkept, ?_, ?_⟩
    · rw [haccepts, hex_digits_iff]
      exact ⟨fun hpairs => ⟨hlen, hpairs, hplus hpairs⟩, fun h => h.2.1⟩
    · intro id hid
      have hpairs : DigitPairs (trim s) := haccepts.mp ⟨id, hid⟩
      have hcanonical := canonical_of_from_hex hid
      unfold canonical_spelling at hcanonical
      rw [← hcanonical]
      exact (plus_to_zero_of_not_mem
        (plus_notMem_lowercase (hpairs.hexdigits (hplus hpairs))))

/-- 64 bytes whose second byte is in the middle of a character. -/
def cut_text : Str := 'a' :: 'é' :: List.replicate 61 'a'

/-- 64 characters, of which the first is a plus sign. -/
def plus_text : Str := '+' :: List.replicate 63 'a'

/-- The one text makes the parser panic, the other is read as an id. -/
theorem from_hex_misreads :
    ClientId.from_hex cut_text = none ∧ ¬ ReadAsDocumented cut_text ∧
    (∃ id, ClientId.from_hex plus_text = some (.ok id)) ∧ ¬ HexDigits (trim plus_text) ∧
      ¬ ReadAsDocumented plus_text := by
  have hpanics : ClientId.from_hex cut_text = none := by
    refine (from_hex_spec (by decide +kernel)).1.mpr fun hkept => ?_
    have hcut := hkept [] (trim cut_text) rfl .nil (by decide +kernel)
    exact absurd hcut (by decide +kernel)
  have htrim : trim plus_text = plus_text := by decide +kernel
  have hreads : ∃ id, ClientId.from_hex plus_text = some (.ok id) := by
    refine (from_hex_spec (by decide +kernel)).2.mpr ?_
    rw [htrim]
    have hrest : DigitPairs (List.replicate 62 'a') := by
      refine digit_pairs_of_hexdigits (n := 31) rfl fun c hc => ?_
      rw [List.eq_of_mem_replicate hc]
      rfl
    exact .cons rfl hrest
  have hdigits : ¬ HexDigits (trim plus_text) := by
    intro h
    rw [htrim] at h
    exact absurd (h.2 '+' (by simp [plus_text])) (by decide)
  refine ⟨hpanics, fun h => h.1 hpanics, hreads, hdigits, fun h => ?_⟩
  exact hdigits (h.2.1.mp hreads)

end SignedPulse
