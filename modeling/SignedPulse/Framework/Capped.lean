import SignedPulse.Framework.HashMap

/-! # Tables with a cap

    A table takes a new key only while it holds fewer than `cap` keys; zero
    stands for no cap. The entry of a key that is there is updated in any case.

    - `put`: update the entry of a key, under the cap
    - `Tracks`: what may be expected of a table that is offered a key
    - `Bounded`: the table holds at most `cap` keys
-/

namespace HashMap

universe u v

variable {K : Type u} {V : Type v}

/-! ### The number of keys -/

theorem len_eq_keys (t : HashMap K V) : t.len = t.keys.length := by
  simp [len, AList.keys, List.keys]

theorem len_retain_le (p : K → V → Bool) (t : HashMap K V) : len (retain p t) ≤ t.len :=
  List.length_filter_le _ _

section keys
variable [DecidableEq K]

/-- Only a new key makes a table longer. -/
theorem len_insert (k : K) (v : V) (t : HashMap K V) :
    len (AList.insert k v t) = if k ∈ t then t.len else t.len + 1 := by
  rw [len_eq_keys, len_eq_keys, AList.keys_insert, List.length_cons]
  split
  · rename_i h
    have hpos : 0 < t.keys.length := List.length_pos_of_mem h
    rw [List.length_erase_of_mem h]
    omega
  · rename_i h
    rw [List.erase_of_not_mem h]

theorem len_erase_le (k : K) (t : HashMap K V) : len (AList.erase k t) ≤ t.len := by
  rw [len_eq_keys, len_eq_keys, AList.keys_erase]
  exact List.length_erase_le

end keys

/-! ### Updates under a cap -/

/-- The table holds at most `cap` keys. -/
def Bounded (cap : Nat) (t : HashMap K V) : Prop := 0 < cap → t.len ≤ cap

section put
variable [DecidableEq K]

/-- The key has an entry, or the table has room for one. -/
def Admits (cap : Nat) (t : HashMap K V) (k : K) : Prop := k ∈ t ∨ cap = 0 ∨ t.len < cap

instance (cap : Nat) (t : HashMap K V) (k : K) : Decidable (Admits cap t k) :=
  inferInstanceAs (Decidable (_ ∨ _))

/-- Update the entry of `k` if the cap admits it. -/
def put (cap : Nat) (k : K) (f : Option V → V) (t : HashMap K V) : HashMap K V :=
  if Admits cap t k then AList.insert k (f (AList.lookup k t)) t else t

/-- A table that was `t` has been offered the key `k`, with the update `f` of its entry, and is
    `t'` now. -/
structure Tracks (cap : Nat) (t : HashMap K V) (k : K) (f : Option V → V) (t' : HashMap K V) :
    Prop where
  /-- A key that is there is updated. -/
  updated : k ∈ t → AList.lookup k t' = some (f (AList.lookup k t))
  /-- A new key is refused only by a table that is full. -/
  refused : k ∉ t → k ∉ t' → 0 < cap ∧ t.len = cap

variable {cap : Nat} {k : K} {f : Option V → V} {t : HashMap K V}

theorem put_of_admits (h : Admits cap t k) :
    put cap k f t = AList.insert k (f (AList.lookup k t)) t := if_pos h

theorem put_of_not_admits (h : ¬ Admits cap t k) : put cap k f t = t := if_neg h

omit [DecidableEq K] in
/-- The guard of a table that leaves out a cap of zero. -/
theorem not_admits_iff : ¬ Admits cap t k ↔ cap > 0 ∧ t.len ≥ cap ∧ k ∉ t := by
  unfold Admits
  push Not
  rw [gt_iff_lt, Nat.pos_iff_ne_zero]
  constructor
  · rintro ⟨hnew, hcap, hfull⟩
    exact ⟨hcap, hfull, hnew⟩
  · rintro ⟨hcap, hfull, hnew⟩
    exact ⟨hnew, hcap, hfull⟩

omit [DecidableEq K] in
theorem Bounded.empty : Bounded cap (∅ : HashMap K V) := fun _ => Nat.zero_le _

omit [DecidableEq K] in
theorem Bounded.shrink {t' : HashMap K V} (h : Bounded cap t) (hle : t'.len ≤ t.len) :
    Bounded cap t' := fun hpos => Nat.le_trans hle (h hpos)

/-- The cap is a hard one. -/
theorem Bounded.put (h : Bounded cap t) : Bounded cap (put cap k f t) := by
  intro hpos
  have hle := h hpos
  by_cases hadmits : Admits cap t k
  · rw [put_of_admits hadmits, len_insert]
    rcases hadmits with hmem | hzero | hlt
    · rw [if_pos hmem]
      exact hle
    · omega
    · split <;> omega
  · rw [put_of_not_admits hadmits]
    exact hle

theorem Tracks.put (h : Bounded cap t) : Tracks cap t k f (put cap k f t) where
  updated hmem := by
    rw [put_of_admits (.inl hmem), AList.lookup_insert]
  refused hnew hrefused := by
    by_cases hadmits : Admits cap t k
    · rw [put_of_admits hadmits] at hrefused
      exact absurd ((AList.mem_insert t).mpr (.inl rfl)) hrefused
    · obtain ⟨hpos, hfull, -⟩ := not_admits_iff.mp hadmits
      exact ⟨hpos, le_antisymm (h hpos) hfull⟩

end put

end HashMap
