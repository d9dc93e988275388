import Mathlib.Data.List.Basic

/-! # Programs over an interface of operations

    A `Program` is a task that asks its surroundings to perform operations, one
    at a time, and goes on with the results. Between two operations anything
    may happen, so the operations are the atomic steps of the task.

    `wp` is the weakest precondition of a program in given surroundings. Three
    kinds of surroundings are of use:

    - `histories`: any result may come back; what is proved holds of the events
      of the task, whatever other tasks do (see `Interleaving`)
    - `favoured`: only results that meet a condition come back; what is proved
      holds of a task all of whose events turn out to meet it
    - a machine that serves this program alone (see `Sequential`)
-/

/-- Operations and the types of their results. -/
structure Interface where
  Op : Type
  Res : Op → Type

/-- An operation that was performed, with its result. -/
structure Event (I : Interface) where
  op : I.Op
  res : I.Res op

inductive Program (I : Interface) (α : Type) where
  | pure (a : α)
  | call (o : I.Op) (next : I.Res o → Program I α)

namespace Program

variable {I : Interface} {α β τ : Type}

/-! ### Sequencing -/

def bind : Program I α → (α → Program I β) → Program I β
  | .pure a, f => f a
  | .call o next, f => .call o (fun r => (next r).bind f)

instance : Monad (Program I) where
  pure := Program.pure
  bind := Program.bind

/-- Perform one operation and return its result. -/
def perform (o : I.Op) : Program I (I.Res o) := .call o .pure

/-- Run the body for every element of the list, in order. -/
def each (body : β → Program I Unit) : List β → Program I Unit
  | [] => .pure ()
  | x :: xs => (body x).bind (fun _ => each body xs)

/-! ### Weakest preconditions -/

/-- How the state around a program changes with an operation and its result, and what every
    event of the program has to meet. -/
structure Surroundings (I : Interface) (τ : Type) where
  step : τ → (o : I.Op) → I.Res o → τ → Prop
  must : τ → Event I → Prop

/-- Whatever the surroundings do, every event meets its demand and the program ends in `Q`. -/
def wp (R : Surroundings I τ) (Q : α → τ → Prop) : Program I α → τ → Prop
  | .pure a, t => Q a t
  | .call o next, t => ∀ r t', R.step t o r t' → R.must t ⟨o, r⟩ ∧ wp R Q (next r) t'

section rules
variable {R : Surroundings I τ}

@[simp] theorem wp_pure {Q : α → τ → Prop} {a : α} {t : τ} :
    wp R Q (Pure.pure a : Program I α) t ↔ Q a t := Iff.rfl

@[simp] theorem wp_pure' {Q : α → τ → Prop} {a : α} {t : τ} :
    wp R Q (Program.pure a) t ↔ Q a t := Iff.rfl

theorem wp_perform {o : I.Op} {Q : I.Res o → τ → Prop} {t : τ} :
    wp R Q (perform o) t ↔ ∀ r t', R.step t o r t' → R.must t ⟨o, r⟩ ∧ Q r t' := Iff.rfl

theorem wp_mono {Q Q' : α → τ → Prop} (hQ : ∀ a t, Q a t → Q' a t) {p : Program I α} {t : τ}
    (h : wp R Q p t) : wp R Q' p t := by
  induction p generalizing t with
  | pure a => exact hQ a t h
  | call o next ih =>
    intro r t' hstep
    obtain ⟨hmust, hnext⟩ := h r t' hstep
    exact ⟨hmust, ih r hnext⟩

theorem wp_bind {Q : β → τ → Prop} {p : Program I α} {f : α → Program I β} {t : τ} :
    wp R Q (p >>= f) t ↔ wp R (fun a t' => wp R Q (f a) t') p t := by
  induction p generalizing t with
  | pure a => exact Iff.rfl
  | call o next ih =>
    constructor
    · intro h r t' hstep
      exact ⟨(h r t' hstep).1, (ih r).mp (h r t' hstep).2⟩
    · intro h r t' hstep
      exact ⟨(h r t' hstep).1, (ih r).mpr (h r t' hstep).2⟩

/-- Sequencing: what the first part promises is all the second part may rely on. -/
theorem wp_seq {Q' : α → τ → Prop} {Q : β → τ → Prop} {p : Program I α} {f : α → Program I β}
    {t : τ} (hp : wp R Q' p t) (hf : ∀ a t', Q' a t' → wp R Q (f a) t') : wp R Q (p >>= f) t :=
  wp_bind.mpr (wp_mono hf hp)

/-- One operation, and then the rest of the program. -/
theorem wp_perform_bind {o : I.Op} {f : I.Res o → Program I β} {Q : β → τ → Prop} {t : τ} :
    wp R Q (perform o >>= f) t ↔
      ∀ r t', R.step t o r t' → R.must t ⟨o, r⟩ ∧ wp R Q (f r) t' := Iff.rfl

/-- Loop rule: the invariant speaks of the elements that are still to come. -/
theorem wp_each (Inv : List β → τ → Prop) {body : β → Program I Unit}
    (hbody : ∀ x xs t, Inv (x :: xs) t → wp R (fun _ t' => Inv xs t') (body x) t)
    {xs : List β} {t : τ} (h : Inv xs t) : wp R (fun _ t' => Inv [] t') (each body xs) t := by
  induction xs generalizing t with
  | nil => exact h
  | cons x xs ih => exact wp_seq (hbody x xs t h) fun _ _ h' => ih h'

end rules

/-! ### The operations a program can reach -/

/-- Every operation of the program satisfies `P`, whatever results come back. -/
def Uses (P : I.Op → Prop) : Program I α → Prop
  | .pure _ => True
  | .call o next => P o ∧ ∀ r, (next r).Uses P

theorem uses_pure {P : I.Op → Prop} {a : α} : (Pure.pure a : Program I α).Uses P := trivial

theorem uses_perform {P : I.Op → Prop} {o : I.Op} (h : P o) : (perform o).Uses P :=
  ⟨h, fun _ => trivial⟩

theorem uses_bind {P : I.Op → Prop} {p : Program I α} {f : α → Program I β} (hp : p.Uses P)
    (hf : ∀ a, (f a).Uses P) : (p >>= f).Uses P := by
  induction p with
  | pure a => exact hf a
  | call o next ih => exact ⟨hp.1, fun r => ih r (hp.2 r)⟩

theorem uses_true (p : Program I α) : p.Uses (fun _ => True) := by
  induction p with
  | pure a => trivial
  | call o next ih => exact ⟨trivial, ih⟩

theorem Uses.imp {P P' : I.Op → Prop} (hP : ∀ o, P o → P' o) {p : Program I α} (h : p.Uses P) :
    p.Uses P' := by
  induction p with
  | pure a => trivial
  | call o next ih => exact ⟨hP o h.1, fun r => ih r (h.2 r)⟩

/-- Frame rule: what the operations of a program preserve, the program preserves. -/
theorem wp_of_uses {R : Surroundings I τ} {P : I.Op → Prop} {J : τ → Prop}
    (hstep : ∀ t o r t', P o → J t → R.step t o r t' → R.must t ⟨o, r⟩ ∧ J t')
    {p : Program I α} (hp : p.Uses P) {t : τ} (h : J t) : wp R (fun _ t' => J t') p t := by
  induction p generalizing t with
  | pure a => exact h
  | call o next ih =>
    intro r t' hs
    obtain ⟨hmust, hinv⟩ := hstep t o r t' hp.1 h hs
    exact ⟨hmust, ih r (hp.2 r) hinv⟩

/-! ### Histories -/

/-- The state is the list of the program's own events; any result may come back, and every
    event has to be justified by the events before it. -/
def histories (P : List (Event I) → Event I → Prop) : Surroundings I (List (Event I)) where
  step h o r h' := h' = h ++ [⟨o, r⟩]
  must := P

theorem wp_histories_perform_bind {P : List (Event I) → Event I → Prop} {o : I.Op}
    {f : I.Res o → Program I β} {Q : β → List (Event I) → Prop} {h : List (Event I)} :
    wp (histories P) Q (perform o >>= f) h ↔
      ∀ r, P h ⟨o, r⟩ ∧ wp (histories P) Q (f r) (h ++ [⟨o, r⟩]) := by
  rw [wp_perform_bind]
  constructor
  · intro hw r
    exact hw r _ rfl
  · rintro hw r _ rfl
    exact hw r

theorem wp_histories_perform {P : List (Event I) → Event I → Prop} {o : I.Op}
    {Q : I.Res o → List (Event I) → Prop} {h : List (Event I)} :
    wp (histories P) Q (perform o) h ↔ ∀ r, P h ⟨o, r⟩ ∧ Q r (h ++ [⟨o, r⟩]) := by
  rw [wp_perform]
  constructor
  · intro hw r
    exact hw r _ rfl
  · rintro hw r _ rfl
    exact hw r

/-- What meets a demand meets any weaker one. -/
theorem wp_histories_imp {P P' : List (Event I) → Event I → Prop} (hP : ∀ h ev, P h ev → P' h ev)
    {p : Program I α} {Q : α → List (Event I) → Prop} {h : List (Event I)}
    (hp : wp (histories P) Q p h) : wp (histories P') Q p h := by
  induction p generalizing h with
  | pure a => exact hp
  | call o next ih =>
    intro r h' hs
    obtain ⟨hmust, hrest⟩ := hp r h' hs
    exact ⟨hP _ _ hmust, ih r hrest⟩

/-! ### Favourable results -/

/-- As in `histories`, but every event that comes about meets `G`. -/
def favoured (G : Event I → Prop) : Surroundings I (List (Event I)) where
  step h o r h' := G ⟨o, r⟩ ∧ h' = h ++ [⟨o, r⟩]
  must _ _ := True

theorem wp_favoured_perform_bind {G : Event I → Prop} {o : I.Op} {f : I.Res o → Program I β}
    {Q : β → List (Event I) → Prop} {h : List (Event I)} :
    wp (favoured G) Q (perform o >>= f) h ↔
      ∀ r, G ⟨o, r⟩ → wp (favoured G) Q (f r) (h ++ [⟨o, r⟩]) := by
  rw [wp_perform_bind]
  constructor
  · intro hw r hG
    exact (hw r _ ⟨hG, rfl⟩).2
  · rintro hw r _ ⟨hG, rfl⟩
    exact ⟨trivial, hw r hG⟩

theorem wp_favoured_perform {G : Event I → Prop} {o : I.Op} {Q : I.Res o → List (Event I) → Prop}
    {h : List (Event I)} :
    wp (favoured G) Q (perform o) h ↔ ∀ r, G ⟨o, r⟩ → Q r (h ++ [⟨o, r⟩]) := by
  rw [wp_perform]
  constructor
  · intro hw r hG
    exact (hw r _ ⟨hG, rfl⟩).2
  · rintro hw r _ ⟨hG, rfl⟩
    exact ⟨trivial, hw r hG⟩

/-- What is proved of favourable results holds, whatever comes back, of the histories in which all
    new events are favourable. -/
theorem wp_histories_of_favoured {G : Event I → Prop} {Q : α → List (Event I) → Prop}
    {p : Program I α} {h : List (Event I)} (hp : wp (favoured G) Q p h) :
    wp (histories (fun _ _ => True))
      (fun a h' => ∃ l, h' = h ++ l ∧ ((∀ ev ∈ l, G ev) → Q a h')) p h := by
  have hgrows (p : Program I α) (h : List (Event I)) :
      wp (histories (fun _ _ => True)) (fun _ h' => ∃ l, h' = h ++ l) p h := by
    refine wp_of_uses (P := fun _ => True) (J := fun h' => ∃ l, h' = h ++ l) ?_ ?_ ⟨[], by simp⟩
    · rintro _ o r _ - ⟨l, rfl⟩ rfl
      exact ⟨trivial, l ++ [⟨o, r⟩], by simp⟩
    · exact uses_true p
  induction p generalizing h with
  | pure a => exact ⟨[], by simp, fun _ => hp⟩
  | call o next ih =>
    rintro r _ rfl
    refine ⟨trivial, ?_⟩
    by_cases hG : G ⟨o, r⟩
    · refine wp_mono ?_ (ih r (hp r _ ⟨hG, rfl⟩).2)
      rintro a _ ⟨l, rfl, hQ⟩
      refine ⟨⟨o, r⟩ :: l, by simp, fun hl => hQ ?_⟩
      exact (List.forall_mem_cons.mp hl).2
    · refine wp_mono ?_ (hgrows (next r) _)
      rintro a _ ⟨l, rfl⟩
      refine ⟨⟨o, r⟩ :: l, by simp, fun hl => ?_⟩
      exact absurd (List.forall_mem_cons.mp hl).1 hG

/-! ### Traces -/

/-- The program can perform these events, in this order, and then returns `a`. -/
inductive Yields : Program I α → List (Event I) → α → Prop where
  | pure {a} : Yields (.pure a) [] a
  | call {o next evs a} (r : I.Res o) (h : Yields (next r) evs a) :
      Yields (.call o next) (⟨o, r⟩ :: evs) a

/-- What holds of the history of the program, whatever results come back, holds of its traces. -/
theorem Yields.of_histories {P : List (Event I) → Event I → Prop} {Q : α → List (Event I) → Prop}
    {p : Program I α} {evs h : List (Event I)} {a : α} (hp : p.Yields evs a)
    (hwp : wp (histories P) Q p h) : Q a (h ++ evs) := by
  induction hp generalizing h with
  | pure => simpa using hwp
  | call r _ ih =>
    have hrest := ih (hwp r _ rfl).2
    rwa [List.append_assoc] at hrest

/-- What holds of favourable results holds of the traces with no others. -/
theorem Yields.of_favoured {G : Event I → Prop} {Q : α → List (Event I) → Prop} {p : Program I α}
    {evs : List (Event I)} {a : α} (hp : p.Yields evs a) (hwp : wp (favoured G) Q p [])
    (hG : ∀ ev ∈ evs, G ev) : Q a evs := by
  obtain ⟨l, hl, hQ⟩ := hp.of_histories (wp_histories_of_favoured hwp)
  obtain rfl : evs = l := by simpa using hl
  exact hQ hG

/-- The trace on which every operation has the result that `answer` gives. -/
def follow (answer : (o : I.Op) → I.Res o) : Program I α → List (Event I) × α
  | .pure a => ([], a)
  | .call o next =>
    let r := follow answer (next (answer o))
    (⟨o, answer o⟩ :: r.1, r.2)

theorem yields_follow (answer : (o : I.Op) → I.Res o) (p : Program I α) :
    p.Yields (p.follow answer).1 (p.follow answer).2 := by
  induction p with
  | pure a => exact .pure
  | call o next ih => exact .call _ (ih _)

theorem mem_follow {answer : (o : I.Op) → I.Res o} {p : Program I α} {o : I.Op} {r : I.Res o}
    (h : ⟨o, r⟩ ∈ (p.follow answer).1) : r = answer o := by
  induction p with
  | pure a => cases h
  | call o' next ih =>
    rcases List.mem_cons.mp h with heq | hrest
    · cases heq
      rfl
    · exact ih _ hrest

end Program
