import SignedPulse.Framework.Text

/-! # Scanning a text from the left

    A scanner reads something off the front of a text and hands back the text
    that is left, or it reads nothing. A number ends where the digits end, so
    what is read back from a printed number depends on the text after it:
    `NoDigit` says that the text after it does not go on with a digit.
-/

namespace Scan

/-- What was read, and the text that is left. -/
abbrev Scanner (α : Type*) := Str → Option (α × Str)

/-- The letters of either case count on from ten. -/
def digit_value (c : Char) : Option Nat :=
  if c.isDigit then some (c.toNat - 48)
  else if c.isLower then some (c.toNat - 87)
  else if c.isUpper then some (c.toNat - 55)
  else none

/-- `char::to_digit`. -/
def to_digit (radix : Nat) (c : Char) : Option Nat := (digit_value c).filter (· < radix)

def read_char (c : Char) : Scanner Unit
  | [] => none
  | d :: s => if d = c then some ((), s) else none

/-- Every part but the first comes after a separator. -/
def read_separator {α : Type*} (sep : Char) (index : Nat) (inner : Scanner α) : Scanner α :=
  fun s =>
    if 0 < index then
      match read_char sep s with
      | none => none
      | some (_, s) => inner s
    else inner s

/-- The digits at the front of a text. -/
def read_digits (radix : Nat) : Str → List Nat × Str
  | [] => ([], [])
  | c :: s =>
    match to_digit radix c with
    | none => ([], c :: s)
    | some d => (d :: (read_digits radix s).1, (read_digits radix s).2)

/-- The number that digits stand for, the most significant one first. -/
def of_digits (radix : Nat) (ds : List Nat) : Nat := ds.foldl (fun n d => n * radix + d) 0

/-- A number below `bound`, of at most `max_digits` digits. -/
def read_number (radix : Nat) (max_digits : Option Nat) (bound : Nat) (zero_prefix_allowed : Bool) :
    Scanner Nat := fun s =>
  let ds := (read_digits radix s).1
  if ds = [] then none
  else if max_digits.any (fun m => m < ds.length) then none
  else if !zero_prefix_allowed && ds.head? = some 0 && 1 < ds.length then none
  else if of_digits radix ds < bound then some (of_digits radix ds, (read_digits radix s).2)
  else none

/-! ### Digits -/

/-- The text does not go on with a digit. -/
def NoDigit (radix : Nat) (s : Str) : Prop := ∀ c, s.head? = some c → to_digit radix c = none

theorem noDigit_nil (radix : Nat) : NoDigit radix [] := by
  intro c hc
  cases hc

theorem noDigit_cons {radix : Nat} {c : Char} {s : Str} :
    NoDigit radix (c :: s) ↔ to_digit radix c = none := by
  constructor
  · intro h
    exact h c rfl
  · intro h d hd
    obtain rfl := Option.some.inj hd
    exact h

theorem to_digit_digitChar {radix d : Nat} (hradix : radix ≤ 16) (hd : d < radix) :
    to_digit radix d.digitChar = some d := by
  have hvalue : ∀ d < 16, digit_value d.digitChar = some d := by decide
  unfold to_digit
  rw [hvalue d (by omega)]
  exact Option.filter_eq_some_iff.mpr ⟨rfl, decide_eq_true hd⟩

theorem read_digits_stop {radix : Nat} {s : Str} (h : NoDigit radix s) :
    read_digits radix s = ([], s) := by
  cases s with
  | nil => rfl
  | cons c s => simp only [read_digits, noDigit_cons.mp h]

/-- Printed digits are read back, as far as they go. -/
theorem read_digits_append {radix : Nat} (hradix : radix ≤ 16) {ds : List Nat}
    (hds : ∀ d ∈ ds, d < radix) {s : Str} (hs : NoDigit radix s) :
    read_digits radix (ds.map Nat.digitChar ++ s) = (ds, s) := by
  induction ds with
  | nil => exact read_digits_stop hs
  | cons d ds ih =>
    have hhead := to_digit_digitChar hradix (hds d List.mem_cons_self)
    have htail := ih (fun e he => hds e (List.mem_cons_of_mem _ he))
    show read_digits radix (d.digitChar :: (ds.map Nat.digitChar ++ s)) = _
    simp only [read_digits, hhead, htail]

/-- The digits of a number: they stand for it, and they have no leading zero. -/
theorem toDigits_spec {radix : Nat} (hradix : 1 < radix) (n : Nat) :
    ∃ ds, Nat.toDigits radix n = ds.map Nat.digitChar ∧ (∀ d ∈ ds, d < radix) ∧ ds ≠ [] ∧
      of_digits radix ds = n ∧ (ds.head? = some 0 → n = 0) := by
  induction n using Nat.strong_induction_on with
  | _ n ih =>
    rw [Nat.toDigits_eq_if hradix]
    by_cases hn : n < radix
    · refine ⟨[n], by rw [if_pos hn]; rfl, ?_, by simp, by simp [of_digits], ?_⟩
      · intro d hd
        rwa [List.mem_singleton.mp hd]
      · intro hzero
        exact Option.some.inj hzero
    · rw [if_neg hn]
      have hsmaller : n / radix < n := Nat.div_lt_self (by omega) hradix
      obtain ⟨ds, htext, hlt, hne, hvalue, hzero⟩ := ih (n / radix) hsmaller
      refine ⟨ds ++ [n % radix], by rw [htext, List.map_append]; rfl, ?_, by simp, ?_, ?_⟩
      · intro d hd
        rcases List.mem_append.mp hd with hd | hd
        · exact hlt d hd
        · rw [List.mem_singleton.mp hd]
          exact Nat.mod_lt _ (by omega)
      · show of_digits radix (ds ++ [n % radix]) = n
        unfold of_digits at hvalue ⊢
        rw [List.foldl_append, hvalue]
        show n / radix * radix + n % radix = n
        rw [Nat.mul_comm]
        exact Nat.div_add_mod n radix
      · intro hhead
        rw [List.head?_append_of_ne_nil _ hne] at hhead
        -- the quotient is not zero
        have hquot : 0 < n / radix := Nat.div_pos (by omega) (by omega)
        rw [hzero hhead] at hquot
        exact absurd hquot (Nat.lt_irrefl 0)

/-! ### Numbers -/

theorem read_number_none {radix bound : Nat} {max_digits : Option Nat} {zero : Bool} {s : Str}
    (h : NoDigit radix s) : read_number radix max_digits bound zero s = none := by
  unfold read_number
  rw [read_digits_stop h]
  rfl

/-- A printed number is read back when the text after it does not start with a digit. -/
theorem read_number_toDigits {radix bound n : Nat} {max_digits : Option Nat} {zero : Bool} {s : Str}
    (hlow : 1 < radix) (hhigh : radix ≤ 16) (hn : n < bound)
    (hmax : ∀ m, max_digits = some m → 0 < m ∧ n < radix ^ m) (hs : NoDigit radix s) :
    read_number radix max_digits bound zero (Nat.toDigits radix n ++ s) = some (n, s) := by
  obtain ⟨ds, htext, hlt, hne, hvalue, hzero⟩ := toDigits_spec hlow n
  have hlength : ds.length = (Nat.toDigits radix n).length := by rw [htext, List.length_map]
  have hdigits : max_digits.any (fun m => m < ds.length) = false := by
    cases hm : max_digits with
    | none => rfl
    | some m =>
      obtain ⟨hpos, hpow⟩ := hmax m hm
      have hle := (Nat.length_toDigits_le_iff hlow hpos).mpr hpow
      show decide (m < ds.length) = false
      rw [hlength]
      exact decide_eq_false (by omega)
  have hprefix : (!zero && ds.head? = some 0 && 1 < ds.length) = false := by
    by_cases hhead : ds.head? = some 0
    · -- zero has one digit
      have hone : ds.length = 1 := by
        rw [hlength, hzero hhead, Nat.toDigits_zero]
        rfl
      simp [hone]
    · simp [hhead]
  unfold read_number
  rw [htext, read_digits_append hhigh hlt hs]
  dsimp only
  rw [if_neg hne, hdigits, hprefix, hvalue, if_neg Bool.false_ne_true, if_neg Bool.false_ne_true,
    if_pos hn]

theorem read_number_rest {radix bound n : Nat} {max_digits : Option Nat} {zero : Bool} {s t : Str}
    (h : read_number radix max_digits bound zero s = some (n, t)) :
    t = (read_digits radix s).2 := by
  unfold read_number at h
  dsimp only at h
  split at h
  · cases h
  split at h
  · cases h
  split at h
  · cases h
  split at h
  · exact (Prod.mk.inj (Option.some.inj h)).2.symm
  · cases h

/-! ### Separators -/

theorem read_char_none {c : Char} {s : Str} (h : s.head? ≠ some c) : read_char c s = none := by
  cases s with
  | nil => rfl
  | cons d s =>
    have hd : d ≠ c := by
      intro heq
      exact h (by rw [heq]; rfl)
    exact if_neg hd

theorem read_separator_zero {α : Type*} (sep : Char) (inner : Scanner α) (s : Str) :
    read_separator sep 0 inner s = inner s := rfl

theorem read_separator_succ {α : Type*} (sep : Char) (i : Nat) (inner : Scanner α) (s : Str) :
    read_separator sep (i + 1) inner (sep :: s) = inner s := by
  simp [read_separator, read_char]

theorem read_separator_none {α : Type*} {sep : Char} {i : Nat} {inner : Scanner α} {s : Str}
    (hsep : s.head? ≠ some sep) (hi : 0 < i) : read_separator sep i inner s = none := by
  unfold read_separator
  rw [if_pos hi, read_char_none hsep]

theorem intercalate_eq_flatMap (sep : Char) (s : Str) (ss : List Str) :
    List.intercalate [sep] (s :: ss) = s ++ ss.flatMap (sep :: ·) := by
  induction ss generalizing s with
  | nil => rw [List.intercalate_singleton, List.flatMap_nil, List.append_nil]
  | cons t ss ih =>
    rw [List.intercalate_cons_cons, ih, List.flatMap_cons, List.append_assoc]
    rfl

theorem mem_intercalate {sep c : Char} {ss : List Str} (h : c ∈ List.intercalate [sep] ss) :
    c = sep ∨ ∃ s ∈ ss, c ∈ s := by
  cases ss with
  | nil => cases h
  | cons s ss =>
    rw [intercalate_eq_flatMap] at h
    rcases List.mem_append.mp h with h | h
    · exact .inr ⟨s, List.mem_cons_self, h⟩
    · obtain ⟨t, ht, hc⟩ := List.mem_flatMap.mp h
      rcases List.mem_cons.mp hc with hc | hc
      · exact .inl hc
      · exact .inr ⟨t, List.mem_cons_of_mem _ ht, hc⟩

end Scan
