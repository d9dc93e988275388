import SignedPulse.Framework.Capped
import Mathlib.Data.List.Forall2

/-! # Housekeeping that nobody notices

    A store answers calls one after another, each made at a time of its own.
    Some of the calls are housekeeping: they answer nothing and throw away
    entries that have gone stale.

    - `Store.after`, `Store.answers`: the store after a sequence of calls, and
      what the calls were answered
    - `Extended`: a sequence of calls with further housekeeping put in
    - `Unnoticed.answers`: the simulation rule, by which all answers are as
      they would have been without it
    - `HashMap.Pruned`: a table from which stale entries are missing
-/

/-- A call, and when it is made. -/
structure Timed (T C : Type) where
  now : T
  call : C
  deriving DecidableEq

/-- The answer to a call at some time, if there is one, and the store afterwards. -/
abbrev Store (T C A S : Type) := S → T → C → Option A × S

/-- The calls come at non-decreasing times. -/
def Timed.Ordered {T C : Type} (le : T → T → Prop) (calls : List (Timed T C)) : Prop :=
  calls.Pairwise (fun d d' => le d.now d'.now)

namespace Store

variable {T C A S : Type} (st : Store T C A S)

/-! ### Sequences of calls -/

def after (s : S) (calls : List (Timed T C)) : S :=
  calls.foldl (fun s d => (st s d.now d.call).2) s

def answers (s : S) : List (Timed T C) → List A
  | [] => []
  | d :: calls => (st s d.now d.call).1.toList ++ answers (st s d.now d.call).2 calls

/-- What is asked of the store and a call holds whenever a call is made. -/
def Throughout (P : S → T → C → Prop) (s : S) : List (Timed T C) → Prop
  | [] => True
  | d :: calls => P s d.now d.call ∧ Throughout P (st s d.now d.call).2 calls

@[simp] theorem after_nil (s : S) : st.after s [] = s := rfl

@[simp] theorem after_snoc (s : S) (calls : List (Timed T C)) (d : Timed T C) :
    st.after s (calls ++ [d]) = (st (st.after s calls) d.now d.call).2 := by
  simp [after]

theorem throughout_snoc {P : S → T → C → Prop} {s : S} {calls : List (Timed T C)}
    {d : Timed T C} : st.Throughout P s (calls ++ [d]) ↔
      st.Throughout P s calls ∧ P (st.after s calls) d.now d.call := by
  induction calls generalizing s with
  | nil => simp [Throughout]
  | cons d' calls ih =>
    rw [List.cons_append, Throughout, Throughout, ih, and_assoc]
    rfl

variable {st} in
theorem Throughout.init {P : S → T → C → Prop} {s : S} {calls calls' : List (Timed T C)}
    (h : st.Throughout P s (calls ++ calls')) : st.Throughout P s calls := by
  induction calls generalizing s with
  | nil => trivial
  | cons d calls ih => exact ⟨h.1, ih h.2⟩

theorem throughout_true (s : S) (calls : List (Timed T C)) :
    st.Throughout (fun _ _ _ => True) s calls := by
  induction calls generalizing s with
  | nil => trivial
  | cons d calls ih => exact ⟨trivial, ih _⟩

end Store

/-! ### Housekeeping put in -/

/-- The second sequence is the first one with further housekeeping calls put in anywhere. -/
inductive Extended {T C : Type} (housekeeping : C → Prop) :
    List (Timed T C) → List (Timed T C) → Prop where
  | nil : Extended housekeeping [] []
  | same {calls calls' : List (Timed T C)} (d : Timed T C) :
      Extended housekeeping calls calls' → Extended housekeeping (d :: calls) (d :: calls')
  | extra {calls calls' : List (Timed T C)} (d : Timed T C) : housekeeping d.call →
      Extended housekeeping calls calls' → Extended housekeeping calls (d :: calls')

/-- `R t` relates a store to one that may have been through more housekeeping before `t`. -/
structure Unnoticed {T C A S : Type} (st : Store T C A S) (le : T → T → Prop)
    (housekeeping : C → Prop) (room : S → T → C → Prop) (same : A → A → Prop)
    (R : T → S → S → Prop) : Prop where
  later : ∀ {t t' s s'}, le t t' → R t s s' → R t' s s'
  answer : ∀ {t s s'} c, R t s s' → room s t c → Option.Rel same (st s t c).1 (st s' t c).1
  call : ∀ {t s s'} c, R t s s' → room s t c → R t (st s t c).2 (st s' t c).2
  silent : ∀ {t s'} c, housekeeping c → (st s' t c).1 = none
  extra : ∀ {t s s'} c, housekeeping c → R t s s' → R t s (st s' t c).2

theorem Unnoticed.answers {T C A S : Type} {st : Store T C A S} {le : T → T → Prop}
    {housekeeping : C → Prop} {room : S → T → C → Prop} {same : A → A → Prop}
    {R : T → S → S → Prop} (h : Unnoticed st le housekeeping room same R)
    {calls calls' : List (Timed T C)} (hext : Extended housekeeping calls calls')
    (hord : Timed.Ordered le calls') {s s' : S} (hrel : ∀ d ∈ calls', R d.now s s')
    (hroom : st.Throughout room s calls) :
    List.Forall₂ same (st.answers s calls) (st.answers s' calls') := by
  induction hext generalizing s s' with
  | nil => exact .nil
  | same d _ ih =>
    obtain ⟨hlater, hord⟩ := List.pairwise_cons.mp hord
    obtain ⟨hnow, hroom⟩ := hroom
    have hd : R d.now s s' := hrel d List.mem_cons_self
    have hrest := ih hord (fun d' hd' => h.later (hlater d' hd') (h.call d.call hd hnow)) hroom
    have hanswer := h.answer d.call hd hnow
    unfold Store.answers
    revert hanswer
    cases (st s d.now d.call).1 <;> cases (st s' d.now d.call).1
    · intro _
      exact hrest
    · rintro ⟨⟩
    · rintro ⟨⟩
    · rintro ⟨hsame⟩
      exact .cons hsame hrest
  | extra d hd _ ih =>
    obtain ⟨hlater, hord⟩ := List.pairwise_cons.mp hord
    have hstep : R d.now s (st s' d.now d.call).2 :=
      h.extra d.call hd (hrel d List.mem_cons_self)
    have hrest := ih hord (fun d' hd' => h.later (hlater d' hd') hstep) hroom
    show List.Forall₂ same _ ((st s' d.now d.call).1.toList ++ _)
    rw [h.silent d.call hd]
    exact hrest

/-! ### Pruned tables -/

namespace HashMap

universe u v

variable {K : Type u} {V : Type v} [DecidableEq K]

/-- `t'` is `t`, but stale entries may be missing. -/
def Pruned (stale : V → Prop) (t t' : HashMap K V) : Prop :=
  ∀ k, AList.lookup k t' = AList.lookup k t ∨
    (AList.lookup k t' = none ∧ ∃ v, AList.lookup k t = some v ∧ stale v)

section pruned
variable {stale : V → Prop} {t t' : HashMap K V} {k : K}

theorem Pruned.refl (t : HashMap K V) : Pruned stale t t := fun _ => .inl rfl

theorem Pruned.mono {stale' : V → Prop} (h : Pruned stale t t') (hle : ∀ v, stale v → stale' v) :
    Pruned stale' t t' := by
  intro k
  rcases h k with hsame | ⟨hnone, v, hv, hstale⟩
  · exact .inl hsame
  · exact .inr ⟨hnone, v, hv, hle v hstale⟩

/-- An update takes the entry to the same value in both. -/
theorem Pruned.insert (h : Pruned stale t t') (k : K) (v : V) :
    Pruned stale (AList.insert k v t) (AList.insert k v t') := by
  intro k'
  by_cases hk : k' = k
  · rw [hk, AList.lookup_insert, AList.lookup_insert]
    exact .inl rfl
  · rw [AList.lookup_insert_ne hk, AList.lookup_insert_ne hk]
    exact h k'

/-- Housekeeping on one side drops stale entries alone. -/
theorem Pruned.retain_right {p : K → V → Bool} (h : Pruned stale t t')
    (hp : ∀ k v, p k v = false → stale v) : Pruned stale t (retain p t') := by
  intro k
  rw [lookup_retain]
  rcases h k with hsame | ⟨hnone, hv⟩
  · cases hv : AList.lookup k t' with
    | none => exact .inl (by rw [← hsame, hv]; rfl)
    | some v =>
      cases hpv : p k v with
      | true => exact .inl (by rw [← hsame, hv, Option.filter_some, hpv]; rfl)
      | false =>
        refine .inr ⟨by rw [Option.filter_some, hpv]; rfl, v, ?_, hp k v hpv⟩
        rw [← hsame, hv]
  · exact .inr ⟨by rw [hnone]; rfl, hv⟩

/-- The same housekeeping on both sides. -/
theorem Pruned.retain {p : K → V → Bool} (h : Pruned stale t t')
    (hp : ∀ k v, stale v → p k v = false) : Pruned stale (retain p t) (retain p t') := by
  intro k
  rw [lookup_retain, lookup_retain]
  rcases h k with hsame | ⟨hnone, v, hv, hstale⟩
  · exact .inl (by rw [hsame])
  · refine .inl ?_
    rw [hnone, hv, Option.filter_some, hp k v hstale]
    rfl

theorem Pruned.mem (h : Pruned stale t t') (hk : k ∈ t') : k ∈ t := by
  rcases h k with hsame | ⟨hnone, -⟩
  · rwa [← AList.lookup_isSome, ← hsame, AList.lookup_isSome]
  · rw [← AList.lookup_isSome, hnone] at hk
    cases hk

theorem Pruned.keys_subset (h : Pruned stale t t') : t'.keys ⊆ t.keys := fun _ hk => h.mem hk

theorem Pruned.len_le (h : Pruned stale t t') : t'.len ≤ t.len := by
  rw [len_eq_keys, len_eq_keys]
  exact (List.subperm_of_subset t'.nodupKeys h.keys_subset).length_le

/-- A key that is missing makes room. -/
theorem Pruned.len_lt (h : Pruned stale t t') (hk : k ∈ t) (hk' : k ∉ t') : t'.len < t.len := by
  have hkeys : k :: t'.keys ⊆ t.keys := List.cons_subset.mpr ⟨hk, h.keys_subset⟩
  have hnodup : (k :: t'.keys).Nodup := List.nodup_cons.mpr ⟨hk', t'.nodupKeys⟩
  rw [len_eq_keys, len_eq_keys]
  exact (List.subperm_of_subset hnodup hkeys).length_le

/-- A table that takes the key takes it when it has been pruned, too. -/
theorem Pruned.admits {cap : Nat} (h : Pruned stale t t') (hbounded : Bounded cap t)
    (hk : Admits cap t k) : Admits cap t' k := by
  by_cases hk' : k ∈ t'
  · exact .inl hk'
  by_cases hcap : cap = 0
  · exact .inr (.inl hcap)
  refine .inr (.inr ?_)
  rcases hk with hmem | hzero | hlt
  · exact lt_of_lt_of_le (h.len_lt hmem hk') (hbounded (Nat.pos_of_ne_zero hcap))
  · exact absurd hzero hcap
  · exact lt_of_le_of_lt h.len_le hlt

/-- What does not tell a stale entry from none is the same on both sides. -/
theorem Pruned.read {B : Type*} {f : Option V → B} (h : Pruned stale t t')
    (hf : ∀ v, stale v → f (some v) = f none) (k : K) :
    f (AList.lookup k t) = f (AList.lookup k t') := by
  rcases h k with hsame | ⟨hnone, v, hv, hstale⟩
  · rw [hsame]
  · rw [hnone, hv, hf v hstale]

theorem Pruned.put {cap : Nat} {f : Option V → V} (h : Pruned stale t t')
    (hbounded : Bounded cap t) (hk : Admits cap t k) (hf : ∀ v, stale v → f (some v) = f none) :
    Pruned stale (put cap k f t) (put cap k f t') := by
  rw [put_of_admits hk, put_of_admits (h.admits hbounded hk), h.read hf]
  exact h.insert k _

end pruned

end HashMap
