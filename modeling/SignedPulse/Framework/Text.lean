import Mathlib.Data.List.Basic
import SignedPulse.Framework.Bytes

/-! # Text renderings

    Text is a list of Unicode scalar values (`Str`). This file renders bytes
    and integers as text (UTF-8, lower-case hex, padded base64, decimal) and
    shows that

    - each rendering is injective
    - hex, base64 and decimal never contain a line feed, so a text that ends
      in lines made of them can be taken apart from the right
-/

/-- Text, as the list of its Unicode scalar values. -/
abbrev Str := List Char

/-- What holds of every character of a text is decided along the text, and not over all
    characters. -/
instance (priority := high) Str.decidableForall (p : Char → Prop) [DecidablePred p] (s : Str) :
    Decidable (∀ c ∈ s, p c) := List.decidableBAll p s

instance Str.lawfulBEq : LawfulBEq Str := inferInstance

/-! ### UTF-8 -/

/-- The UTF-8 bytes of a text. -/
def utf8 (s : Str) : Bytes := s.flatMap String.utf8EncodeChar

/-- Decode UTF-8 bytes; `none` when they are not valid UTF-8. -/
def from_utf8 (bs : Bytes) : Option Str :=
  bs.toByteArray.utf8Decode?.map Array.toList

theorem from_utf8_utf8 (s : Str) : from_utf8 (utf8 s) = some s := by
  have h : (utf8 s).toByteArray = s.utf8Encode := rfl
  rw [from_utf8, h, List.utf8Decode?_utf8Encode]
  rfl

theorem utf8_injective : Function.Injective utf8 := by
  intro s t h
  have hs := from_utf8_utf8 s
  rw [h, from_utf8_utf8 t] at hs
  exact (Option.some.inj hs).symm

/-! ### Hexadecimal -/

/-- The lower-case hex digit of a number below 16. -/
def hex_digit (n : Nat) : Char := Nat.digitChar n

/-- Lower-case hex, two digits per byte. -/
def hex (bs : Bytes) : Str :=
  bs.flatMap (fun b => [hex_digit (b.toNat / 16), hex_digit (b.toNat % 16)])

theorem hex_digit_injective {m n : Nat} (hm : m < 16) (hn : n < 16)
    (h : hex_digit m = hex_digit n) : m = n := by
  revert h
  have key : ∀ i < 16, ∀ j < 16, hex_digit i = hex_digit j → i = j := by decide
  exact key m hm n hn

theorem hex_injective : Function.Injective hex := by
  intro xs
  induction xs with
  | nil =>
    intro ys h
    cases ys with
    | nil => rfl
    | cons y ys => simp [hex] at h
  | cons x xs ih =>
    intro ys h
    cases ys with
    | nil => simp [hex] at h
    | cons y ys =>
      simp only [hex, List.flatMap_cons, List.cons_append, List.nil_append,
        List.cons.injEq] at h
      obtain ⟨hhi, hlo, htail⟩ := h
      -- two digits below 16 recover the byte
      have hx : x.toNat < 256 := x.toNat_lt
      have hy : y.toNat < 256 := y.toNat_lt
      have h1 := hex_digit_injective (by omega) (by omega) hhi
      have h2 := hex_digit_injective (by omega) (by omega) hlo
      have hxy : x = y := UInt8.toNat_inj.mp (by omega)
      rw [hxy, ih htail]

/-- What holds of the digits holds of the text. -/
theorem forall_mem_hex {p : Char → Prop} (hp : ∀ i < 16, p (hex_digit i)) (bs : Bytes) :
    ∀ c ∈ hex bs, p c := by
  intro c hc
  obtain ⟨b, -, hb⟩ := List.mem_flatMap.mp hc
  have hlt : b.toNat < 256 := b.toNat_lt
  rcases List.mem_cons.mp hb with rfl | hb
  · exact hp _ (by omega)
  · rw [List.mem_singleton.mp hb]
    exact hp _ (Nat.mod_lt _ (by decide))

theorem not_mem_hex {c : Char} (hc : ∀ i < 16, hex_digit i ≠ c) (bs : Bytes) : c ∉ hex bs := by
  have hall : ∀ d ∈ hex bs, d ≠ c := forall_mem_hex hc bs
  intro h
  exact hall c h rfl

theorem newline_notMem_hex (bs : Bytes) : '\n' ∉ hex bs := not_mem_hex (by decide) bs

theorem length_hex (bs : Bytes) : (hex bs).length = 2 * bs.length := by
  induction bs with
  | nil => rfl
  | cons b bs ih =>
    rw [hex, List.flatMap_cons, List.length_append, ← hex, ih]
    show 2 + 2 * bs.length = 2 * (bs.length + 1)
    omega

/-! ### Base64 (standard alphabet, padded) -/

/-- The base64 digit of a number below 64. -/
def base64_digit (n : Nat) : Char :=
  if n < 26 then Char.ofNat (65 + n)
  else if n < 52 then Char.ofNat (97 + (n - 26))
  else if n < 62 then Char.ofNat (48 + (n - 52))
  else if n = 62 then '+' else '/'

/-- Standard base64 with padding: three bytes become four digits. -/
def base64 : Bytes → Str
  | [] => []
  | [a] => [base64_digit (a.toNat / 4), base64_digit (a.toNat % 4 * 16), '=', '=']
  | [a, b] =>
    [base64_digit (a.toNat / 4), base64_digit (a.toNat % 4 * 16 + b.toNat / 16),
      base64_digit (b.toNat % 16 * 4), '=']
  | a :: b :: c :: rest =>
    base64_digit (a.toNat / 4) :: base64_digit (a.toNat % 4 * 16 + b.toNat / 16) ::
      base64_digit (b.toNat % 16 * 4 + c.toNat / 64) :: base64_digit (c.toNat % 64) ::
      base64 rest

theorem base64_digit_injective {m n : Nat} (hm : m < 64) (hn : n < 64)
    (h : base64_digit m = base64_digit n) : m = n := by
  have key : ∀ i < 64, ∀ j < 64, base64_digit i = base64_digit j → i = j := by
    decide +kernel
  exact key m hm n hn h

theorem base64_digit_ne_pad {n : Nat} (hn : n < 64) : base64_digit n ≠ '=' := by
  have key : ∀ i < 64, base64_digit i ≠ '=' := by decide +kernel
  exact key n hn

theorem base64_digit_ne_newline {n : Nat} (hn : n < 64) : base64_digit n ≠ '\n' := by
  have key : ∀ i < 64, base64_digit i ≠ '\n' := by decide +kernel
  exact key n hn

/-- The digits in front of the padding recover the bytes, group by group. -/
theorem base64_injective : Function.Injective base64 := by
  intro xs
  induction xs using base64.induct with
  | case1 =>
    intro ys h
    cases ys using base64.fun_cases <;> simp [base64] at h ⊢
  | case2 a =>
    intro ys h
    have ha : a.toNat < 256 := a.toNat_lt
    cases ys using base64.fun_cases with
    | case1 => simp [base64] at h
    | case2 x =>
      have hx : x.toNat < 256 := x.toNat_lt
      simp only [base64, List.cons.injEq, and_true] at h
      have h1 := base64_digit_injective (by omega) (by omega) h.1
      have h2 := base64_digit_injective (by omega) (by omega) h.2
      rw [UInt8.toNat_inj.mp (show a.toNat = x.toNat by omega)]
    | case3 x y =>
      simp only [base64, List.cons.injEq] at h
      have hy : y.toNat < 256 := y.toNat_lt
      -- a pad stands against a digit
      exact absurd h.2.2.1.symm (base64_digit_ne_pad (by omega))
    | case4 x y z ys =>
      simp only [base64, List.cons.injEq] at h
      exact absurd h.2.2.2.1.symm (base64_digit_ne_pad (by omega))
  | case3 a b =>
    intro ys h
    have ha : a.toNat < 256 := a.toNat_lt
    have hb : b.toNat < 256 := b.toNat_lt
    cases ys using base64.fun_cases with
    | case1 => simp [base64] at h
    | case2 x =>
      simp only [base64, List.cons.injEq] at h
      exact absurd h.2.2.1 (base64_digit_ne_pad (by omega))
    | case3 x y =>
      have hx : x.toNat < 256 := x.toNat_lt
      have hy : y.toNat < 256 := y.toNat_lt
      simp only [base64, List.cons.injEq, and_true] at h
      have h1 := base64_digit_injective (by omega) (by omega) h.1
      have h2 := base64_digit_injective (by omega) (by omega) h.2.1
      have h3 := base64_digit_injective (by omega) (by omega) h.2.2
      -- the digits of a group determine its bytes
      rw [UInt8.toNat_inj.mp (show a.toNat = x.toNat by omega),
        UInt8.toNat_inj.mp (show b.toNat = y.toNat by omega)]
    | case4 x y z ys =>
      simp only [base64, List.cons.injEq] at h
      exact absurd h.2.2.2.1.symm (base64_digit_ne_pad (by omega))
  | case4 a b c rest ih =>
    intro ys h
    have ha : a.toNat < 256 := a.toNat_lt
    have hb : b.toNat < 256 := b.toNat_lt
    have hc : c.toNat < 256 := c.toNat_lt
    cases ys using base64.fun_cases with
    | case1 => simp [base64] at h
    | case2 x =>
      simp only [base64, List.cons.injEq] at h
      exact absurd h.2.2.2.1 (base64_digit_ne_pad (by omega))
    | case3 x y =>
      simp only [base64, List.cons.injEq] at h
      exact absurd h.2.2.2.1 (base64_digit_ne_pad (by omega))
    | case4 x y z ys =>
      have hx : x.toNat < 256 := x.toNat_lt
      have hy : y.toNat < 256 := y.toNat_lt
      have hz : z.toNat < 256 := z.toNat_lt
      simp only [base64, List.cons.injEq] at h
      obtain ⟨h1, h2, h3, h4, htail⟩ := h
      have e1 := base64_digit_injective (by omega) (by omega) h1
      have e2 := base64_digit_injective (by omega) (by omega) h2
      have e3 := base64_digit_injective (by omega) (by omega) h3
      have e4 := base64_digit_injective (by omega) (by omega) h4
      rw [UInt8.toNat_inj.mp (show a.toNat = x.toNat by omega),
        UInt8.toNat_inj.mp (show b.toNat = y.toNat by omega),
        UInt8.toNat_inj.mp (show c.toNat = z.toNat by omega), ih htail]

/-- What holds of the digits and the padding holds of the text. -/
theorem forall_mem_base64 {p : Char → Prop} (hdigit : ∀ n < 64, p (base64_digit n)) (hpad : p '=')
    (bs : Bytes) : ∀ c ∈ base64 bs, p c := by
  induction bs using base64.induct with
  | case1 => simp [base64]
  | case2 a =>
    have ha : a.toNat < 256 := a.toNat_lt
    simp only [base64, List.mem_cons, List.not_mem_nil, or_false, forall_eq_or_imp, forall_eq]
    exact ⟨hdigit _ (by omega), hdigit _ (by omega), hpad, hpad⟩
  | case3 a b =>
    have ha : a.toNat < 256 := a.toNat_lt
    have hb : b.toNat < 256 := b.toNat_lt
    simp only [base64, List.mem_cons, List.not_mem_nil, or_false, forall_eq_or_imp, forall_eq]
    exact ⟨hdigit _ (by omega), hdigit _ (by omega), hdigit _ (by omega), hpad⟩
  | case4 a b c rest ih =>
    have ha : a.toNat < 256 := a.toNat_lt
    have hb : b.toNat < 256 := b.toNat_lt
    have hc : c.toNat < 256 := c.toNat_lt
    simp only [base64, List.mem_cons, forall_eq_or_imp]
    exact ⟨hdigit _ (by omega), hdigit _ (by omega), hdigit _ (by omega), hdigit _ (by omega), ih⟩

theorem newline_notMem_base64 (bs : Bytes) : '\n' ∉ base64 bs := by
  have hall : ∀ c ∈ base64 bs, c ≠ '\n' :=
    forall_mem_base64 (fun n hn => base64_digit_ne_newline hn) (by decide) bs
  intro h
  exact hall _ h rfl

/-! ### Decimal -/

/-- Decimal, with a leading minus sign for a negative number. -/
def decimal : Int → Str
  | .ofNat n => Nat.toDigits 10 n
  | .negSucc n => '-' :: Nat.toDigits 10 (n + 1)

theorem toDigits_ten_injective {m n : Nat} (h : Nat.toDigits 10 m = Nat.toDigits 10 n) :
    m = n := by
  have hm := @Nat.ofDigitChars_ten_toDigits m
  rw [h, Nat.ofDigitChars_ten_toDigits] at hm
  exact hm.symm

theorem not_mem_toDigits_of_not_digit {c : Char} (hc : c.isDigit = false) (n : Nat) :
    c ∉ Nat.toDigits 10 n := by
  intro h
  have := Nat.isDigit_of_mem_toDigits (by decide) (by decide) h
  rw [hc] at this
  exact Bool.false_ne_true this

theorem decimal_injective : Function.Injective decimal := by
  intro a b h
  cases a with
  | ofNat m =>
    cases b with
    | ofNat n => rw [toDigits_ten_injective h]
    | negSucc n =>
      -- a sign is not a digit
      have hmem : '-' ∈ Nat.toDigits 10 m := by
        have : Nat.toDigits 10 m = '-' :: Nat.toDigits 10 (n + 1) := h
        rw [this]; exact List.mem_cons_self
      exact absurd hmem (not_mem_toDigits_of_not_digit (by decide) m)
  | negSucc m =>
    cases b with
    | ofNat n =>
      have hmem : '-' ∈ Nat.toDigits 10 n := by
        have : '-' :: Nat.toDigits 10 (m + 1) = Nat.toDigits 10 n := h
        rw [← this]; exact List.mem_cons_self
      exact absurd hmem (not_mem_toDigits_of_not_digit (by decide) n)
    | negSucc n =>
      have := toDigits_ten_injective (List.cons.inj h).2
      rw [Nat.succ_injective this]

theorem newline_notMem_decimal (i : Int) : '\n' ∉ decimal i := by
  cases i with
  | ofNat n => exact not_mem_toDigits_of_not_digit (by decide) n
  | negSucc n =>
    simp only [decimal, List.mem_cons, not_or]
    exact ⟨by decide, not_mem_toDigits_of_not_digit (by decide) _⟩

/-! ### Taking a text apart from the right -/

/-- A line feed in front of a line without one cannot stand further to the right. -/
theorem no_earlier_sep {α : Type*} {sep : α} {as x y : List α} (hx : sep ∉ x)
    (h : sep :: x = as ++ sep :: y) : as = [] ∧ x = y := by
  cases as with
  | nil => exact ⟨rfl, (List.cons.inj h).2⟩
  | cons a as =>
    have hmem : sep ∈ x := by
      rw [(List.cons.inj h).2]
      exact List.mem_append_right _ List.mem_cons_self
    exact absurd hmem hx

/-- The last line of a text is unique: two texts that end in a line feed and
    a line without one agree on what stands before and on the line. -/
theorem last_line_inj {α : Type*} {sep : α} {s t x y : List α}
    (hx : sep ∉ x) (hy : sep ∉ y) (h : s ++ sep :: x = t ++ sep :: y) :
    s = t ∧ x = y := by
  rcases List.append_eq_append_iff.mp h with ⟨as, ht, hxy⟩ | ⟨bs, hs, hyx⟩
  · obtain ⟨rfl, hline⟩ := no_earlier_sep hx hxy
    exact ⟨by simpa using ht.symm, hline⟩
  · obtain ⟨rfl, hline⟩ := no_earlier_sep hy hyx
    exact ⟨by simpa using hs, hline.symm⟩
