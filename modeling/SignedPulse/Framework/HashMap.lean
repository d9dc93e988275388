import Mathlib.Data.List.AList
import Mathlib.Data.List.Perm.Basic

/-! # Hash maps

    A hash map is an association list without duplicate keys (`AList`), so
    `insert`, `erase` and `lookup` are Mathlib's. This file adds the three
    operations a mutex-guarded table needs on top of them:

    - `len`: the number of keys
    - `retain`: keep the entries that satisfy a test
    - `count`: how many entries satisfy a test

    The order of `entries` carries no meaning: a user that walks a map takes
    its entries in the order of `visit`, for any choice.
-/

universe u v

/-- A map from `K` to `V` with at most one entry per key. -/
abbrev HashMap (K : Type u) (V : Type v) := AList (fun _ : K => V)

namespace HashMap

variable {K : Type u} {V : Type v}

/-! ### Operations -/

/-- The number of keys. -/
def len (m : HashMap K V) : Nat := m.entries.length

/-- Keep the entries that satisfy `p`. -/
def retain (p : K → V → Bool) (m : HashMap K V) : HashMap K V where
  entries := m.entries.filter (fun e => p e.1 e.2)
  nodupKeys := m.nodupKeys.sublist List.filter_sublist

/-- How many entries satisfy `p`. -/
def count (p : K → V → Bool) (m : HashMap K V) : Nat :=
  m.entries.countP (fun e => p e.1 e.2)

/-- The elements of a list in an order that `choice` decides: each number picks one of the
    elements that are left. -/
def visit {A : Type u} : List Nat → List A → List A
  | _, [] => []
  | [], l => l
  | i :: choice, x :: xs =>
    let l := x :: xs
    have h : i % l.length < l.length := Nat.mod_lt _ (Nat.succ_pos _)
    l[i % l.length] :: visit choice (l.eraseIdx (i % l.length))

theorem visit_perm {A : Type u} (choice : List Nat) (l : List A) : (visit choice l).Perm l := by
  induction choice generalizing l with
  | nil => cases l <;> exact .refl _
  | cons i choice ih =>
    cases l with
    | nil => exact .refl _
    | cons x xs =>
      have h : i % (x :: xs).length < (x :: xs).length := Nat.mod_lt _ (Nat.succ_pos _)
      exact ((ih _).cons _).trans (List.getElem_cons_eraseIdx_perm h)

/-! ### Lookups after `retain` -/

section lookups
variable [DecidableEq K]

/-- An entry survives `retain` iff it was there and passes the test. -/
theorem lookup_retain_eq_some {p : K → V → Bool} {m : HashMap K V} {k : K} {v : V} :
    AList.lookup k (retain p m) = some v ↔ AList.lookup k m = some v ∧ p k v = true := by
  rw [← Option.mem_def, ← Option.mem_def, AList.mem_lookup_iff, AList.mem_lookup_iff]
  exact List.mem_filter

theorem lookup_retain (p : K → V → Bool) (m : HashMap K V) (k : K) :
    AList.lookup k (retain p m) = (AList.lookup k m).filter (p k) := by
  apply Option.ext
  intro v
  rw [lookup_retain_eq_some, Option.filter_eq_some_iff]

/-- A key comes up at most once among the entries that pass the test. -/
theorem count_key [BEq K] [LawfulBEq K] (p : K → V → Bool) (m : HashMap K V) (k : K) :
    ((m.entries.filter (fun e => p e.1 e.2)).map Sigma.fst).count k =
      ((AList.lookup k m).any (p k)).toNat := by
  have hkeys : (m.entries.filter (fun e => p e.1 e.2)).map Sigma.fst = (retain p m).keys := rfl
  have hnodup : (retain p m).keys.Nodup := (retain p m).nodupKeys
  have hmem : k ∈ (retain p m).keys ↔ (AList.lookup k m).any (p k) = true := by
    rw [show k ∈ (retain p m).keys ↔ k ∈ retain p m from Iff.rfl, ← AList.lookup_isSome,
      lookup_retain]
    cases AList.lookup k m with
    | none => simp
    | some v => cases hp : p k v <;> simp [Option.filter, hp]
  rw [hkeys, hnodup.count]
  cases h : (AList.lookup k m).any (p k) with
  | true => exact if_pos (hmem.mpr h)
  | false => exact if_neg (fun hin => Bool.false_ne_true (h.symm.trans (hmem.mp hin)))

/-! ### Counting -/

theorem count_eq_zero {p : K → V → Bool} {m : HashMap K V} :
    count p m = 0 ↔ ∀ k v, AList.lookup k m = some v → p k v = false := by
  unfold count
  rw [List.countP_eq_zero]
  constructor
  · intro h k v hv
    have := h ⟨k, v⟩ (AList.mem_lookup_iff.mp hv)
    simpa using this
  · intro h e he
    have := h e.1 e.2 (AList.mem_lookup_iff.mpr he)
    simp [this]

/-- Counting entries is counting the keys that pass the test. -/
theorem count_eq_length {p : K → V → Bool} {m : HashMap K V} {ks : List K} (hks : ks.Nodup)
    (h : ∀ k, k ∈ ks ↔ ∃ v, AList.lookup k m = some v ∧ p k v = true) : count p m = ks.length := by
  have hmem (k : K) : k ∈ (retain p m).keys ↔ k ∈ ks := by
    rw [h, show k ∈ (retain p m).keys ↔ k ∈ retain p m from Iff.rfl, ← AList.lookup_isSome,
      Option.isSome_iff_exists]
    exact exists_congr fun v => lookup_retain_eq_some
  have hperm : (retain p m).keys.Perm ks :=
    (List.perm_ext_iff_of_nodup (retain p m).nodupKeys hks).mpr hmem
  rw [← hperm.length_eq]
  unfold count retain AList.keys List.keys
  rw [List.length_map, List.countP_eq_length_filter]

end lookups

end HashMap
