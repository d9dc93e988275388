import Mathlib.Data.List.Induction
import Mathlib.Tactic.Tauto

/-! # Past events

    Five questions about the list of events so far, latest event last:

    - `Since p q`: there was a `p`, and no `q` has come after it
    - `Followed p q`: there was a `p`, and a `q` has come after it
    - `last p`: the latest `p`
    - `count_since p q`: how many `q` have come after the latest `p`
    - `latest f`: what `f` reads off the latest event that it reads anything off

    An invariant of a run follows `Since` and `last` through one `snoc` at a
    time; `since_of_not_followed` is the way in from a run as a whole.
-/

namespace Trace

variable {α : Type}

/-! ### Since -/

/-- There was an event in `p`, and no event in `q` has come after it. -/
def Since (p q : α → Prop) : List α → Prop
  | [] => False
  | x :: l => (p x ∧ ∀ y ∈ l, ¬ q y) ∨ Since p q l

section since
variable {p q : α → Prop}

instance decidable_since [DecidablePred p] [DecidablePred q] : (l : List α) →
    Decidable (Since p q l)
  | [] => isFalse id
  | x :: l =>
    have := decidable_since l
    inferInstanceAs (Decidable ((p x ∧ ∀ y ∈ l, ¬ q y) ∨ Since p q l))

@[simp] theorem since_nil : ¬ Since p q [] := id

theorem since_snoc {l : List α} {x : α} :
    Since p q (l ++ [x]) ↔ p x ∨ (Since p q l ∧ ¬ q x) := by
  induction l with
  | nil => simp [Since]
  | cons a l ih =>
    have hall : (∀ y ∈ l ++ [x], ¬ q y) ↔ (∀ y ∈ l, ¬ q y) ∧ ¬ q x := by simp [or_imp, forall_and]
    simp only [List.cons_append, Since, ih, hall]
    tauto

/-- Events outside `p` can only end it. -/
theorem since_append {l l' : List α} (h : ∀ x ∈ l', ¬ p x) :
    Since p q (l ++ l') ↔ Since p q l ∧ ∀ x ∈ l', ¬ q x := by
  induction l' using List.reverseRecOn with
  | nil => simp
  | append_singleton l' x ih =>
    have hx : ¬ p x := h x (by simp)
    have hl' : ∀ y ∈ l', ¬ p y := fun y hy => h y (by simp [hy])
    rw [← List.append_assoc, since_snoc, ih hl']
    simp only [List.mem_append, List.mem_singleton, or_imp, forall_and, forall_eq]
    tauto

end since

/-! ### Followed -/

/-- There was an event in `p`, and an event in `q` has come after it. -/
def Followed (p q : α → Prop) : List α → Prop
  | [] => False
  | x :: l => (p x ∧ ∃ y ∈ l, q y) ∨ Followed p q l

section followed
variable {p q : α → Prop}

instance decidable_followed [DecidablePred p] [DecidablePred q] :
    (l : List α) → Decidable (Followed p q l)
  | [] => isFalse id
  | x :: l =>
    have := decidable_followed l
    inferInstanceAs (Decidable ((p x ∧ ∃ y ∈ l, q y) ∨ Followed p q l))

theorem since_of_not_followed {l : List α} {x : α} (hx : x ∈ l) (hp : p x)
    (hno : ¬ Followed p q l) : Since p q l := by
  induction l with
  | nil => cases hx
  | cons a l ih =>
    simp only [Followed, not_or, not_and, not_exists] at hno
    rcases List.mem_cons.mp hx with rfl | hx
    · exact .inl ⟨hp, hno.1 hp⟩
    · exact .inr (ih hx hno.2)

end followed

/-! ### The latest event -/

/-- The latest event in `p`. -/
def last (p : α → Bool) (l : List α) : Option α := (l.filter p).getLast?

section last
variable {p : α → Bool}

@[simp] theorem last_nil : last p [] = none := rfl

theorem last_snoc_of_pos {l : List α} {x : α} (h : p x = true) : last p (l ++ [x]) = some x := by
  simp [last, List.filter_append, h]

/-- Events outside `p` do not count. -/
theorem last_append {l l' : List α} (h : ∀ x ∈ l', p x = false) : last p (l ++ l') = last p l := by
  have hnil : l'.filter p = [] := List.filter_eq_nil_iff.mpr fun x hx => by simp [h x hx]
  simp [last, List.filter_append, hnil]

/-- An event in `p`, and none after it. -/
theorem split_latest {l : List α} (h : ∃ x ∈ l, p x = true) :
    ∃ a x b, l = a ++ x :: b ∧ p x = true ∧ ∀ y ∈ b, p y = false := by
  induction l with
  | nil => simp at h
  | cons z l ih =>
    by_cases hl : ∃ x ∈ l, p x = true
    · obtain ⟨a, x, b, rfl, hx, hb⟩ := ih hl
      exact ⟨z :: a, x, b, rfl, hx, hb⟩
    · have hl : ∀ y ∈ l, p y = false := by simpa using hl
      obtain ⟨x, hx, hp⟩ := h
      rcases List.mem_cons.mp hx with rfl | hx
      · exact ⟨[], x, l, rfl, hp, hl⟩
      · rw [hl x hx] at hp
        cases hp

/-- An event in `p`, and none before it. -/
theorem split_first {l : List α} (h : ∃ x ∈ l, p x = true) :
    ∃ a x b, l = a ++ x :: b ∧ p x = true ∧ ∀ y ∈ a, p y = false := by
  obtain ⟨a, x, b, hl, hx, hb⟩ := split_latest (p := p) (l := l.reverse) (by simpa using h)
  refine ⟨b.reverse, x, a.reverse, ?_, hx, by simpa using hb⟩
  rw [← List.reverse_reverse l, hl]
  simp

end last

/-! ### Counting since an event -/

/-- How many events in `q` have come after the latest event in `p`; none if there was no `p`. -/
def count_since (p q : α → Bool) (l : List α) : Option Nat :=
  l.foldl (fun n x => if p x then some 0 else if q x then n.map (· + 1) else n) none

section count_since
variable {p q : α → Bool} {l : List α} {x : α}

@[simp] theorem count_since_nil : count_since p q [] = none := rfl

theorem count_since_snoc : count_since p q (l ++ [x]) =
    if p x then some 0 else if q x then (count_since p q l).map (· + 1) else count_since p q l := by
  simp [count_since]

/-- Other events do not count. -/
theorem count_since_snoc_of_not (hp : p x = false) (hq : q x = false) :
    count_since p q (l ++ [x]) = count_since p q l := by
  rw [count_since_snoc, hp, hq]
  rfl

theorem count_since_split {l' : List α} (hx : p x = true) (hl' : ∀ y ∈ l', p y = false) :
    count_since p q (l ++ x :: l') = some (l'.countP q) := by
  induction l' using List.reverseRecOn with
  | nil =>
    rw [count_since_snoc, hx]
    rfl
  | append_singleton l' y ih =>
    have hy : p y = false := hl' y (by simp)
    have hcount := ih (fun z hz => hl' z (by simp [hz]))
    rw [show l ++ x :: (l' ++ [y]) = (l ++ x :: l') ++ [y] by simp, count_since_snoc, hy, hcount,
      List.countP_append, List.countP_singleton]
    cases q y <;> rfl

end count_since

/-! ### The latest reading -/

section latest
variable {β : Type} (f : List α → α → Option β)

/-- The latest that `f` reads off an event, given the events before it; `past` came first. -/
def latest (past : List α) : List α → Option β
  | [] => none
  | x :: l => (latest (past ++ [x]) l).or (f past x)

@[simp] theorem latest_nil (past : List α) : latest f past [] = none := rfl

theorem latest_snoc (past l : List α) (x : α) :
    latest f past (l ++ [x]) = (f (past ++ l) x).or (latest f past l) := by
  induction l generalizing past with
  | nil => simp [latest]
  | cons y l ih =>
    rw [List.cons_append, latest, latest, ih, List.append_assoc, List.singleton_append,
      Option.or_assoc]

end latest

end Trace
