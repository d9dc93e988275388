import SignedPulse.Framework.Program
import Mathlib.Logic.Equiv.Defs

/-! # Programs made of programs

    What a sequence of programs yields, a program that runs inside one with
    more operations (`embed`), and one that is tried for one element after the
    other until it ends well (`first_ok`).

    `yields_first_ok` takes the events of such a loop apart: the tries that
    failed, in order, and the last one.
-/

namespace Program

variable {I J : Interface} {α β ε : Type}

/-! ### Sequencing -/

theorem yields_pure {a b : α} {evs : List (Event I)} :
    (pure a : Program I α).Yields evs b ↔ evs = [] ∧ b = a := by
  constructor
  · intro h
    cases h
    exact ⟨rfl, rfl⟩
  · rintro ⟨rfl, rfl⟩
    exact .pure

theorem yields_bind {p : Program I α} {f : α → Program I β} {evs : List (Event I)} {b : β} :
    (p >>= f).Yields evs b ↔
      ∃ evs₁ evs₂ a, evs = evs₁ ++ evs₂ ∧ p.Yields evs₁ a ∧ (f a).Yields evs₂ b := by
  induction p generalizing evs with
  | pure a =>
    constructor
    · intro h
      exact ⟨[], evs, a, rfl, .pure, h⟩
    · rintro ⟨evs₁, evs₂, a', rfl, hp, hf⟩
      cases hp
      exact hf
  | call o next ih =>
    constructor
    · intro h
      cases h with
      | call r h =>
        obtain ⟨evs₁, evs₂, a, rfl, hp, hf⟩ := (ih r).mp h
        exact ⟨⟨o, r⟩ :: evs₁, evs₂, a, rfl, .call r hp, hf⟩
    · rintro ⟨evs₁, evs₂, a, rfl, hp, hf⟩
      cases hp with
      | call r hp => exact .call r ((ih r).mpr ⟨_, evs₂, a, rfl, hp, hf⟩)

theorem yields_perform {o : I.Op} {evs : List (Event I)} {r : I.Res o} :
    (perform o).Yields evs r ↔ evs = [⟨o, r⟩] := by
  constructor
  · intro h
    cases h with
    | call r h =>
      cases h
      rfl
  · rintro rfl
    exact .call r .pure

/-- One operation, and then the rest of the program. -/
theorem yields_perform_bind {o : I.Op} {f : I.Res o → Program I β} {evs : List (Event I)} {b : β} :
    (perform o >>= f).Yields evs b ↔ ∃ r rest, evs = ⟨o, r⟩ :: rest ∧ (f r).Yields rest b := by
  rw [yields_bind]
  constructor
  · rintro ⟨evs₁, evs₂, r, rfl, hp, hf⟩
    rw [yields_perform.mp hp]
    exact ⟨r, evs₂, rfl, hf⟩
  · rintro ⟨r, rest, rfl, hf⟩
    exact ⟨[⟨o, r⟩], rest, r, rfl, yields_perform.mpr rfl, hf⟩

/-- Two promises of one program. -/
theorem wp_and {τ : Type} {R : Surroundings I τ} {Q Q' : α → τ → Prop} {p : Program I α} {t : τ}
    (hp : wp R Q p t) (hp' : wp R Q' p t) : wp R (fun a t' => Q a t' ∧ Q' a t') p t := by
  induction p generalizing t with
  | pure a => exact ⟨hp, hp'⟩
  | call o next ih =>
    intro r t' hstep
    obtain ⟨hmust, hnext⟩ := hp r t' hstep
    exact ⟨hmust, ih r hnext (hp' r t' hstep).2⟩

/-- A demand that every event meets. -/
theorem wp_histories_of_forall {P : List (Event I) → Event I → Prop} (hP : ∀ h ev, P h ev)
    (p : Program I α) {h : List (Event I)} : wp (histories P) (fun _ _ => True) p h := by
  induction p generalizing h with
  | pure a => trivial
  | call o next ih =>
    intro r h' _
    exact ⟨hP h ⟨o, r⟩, ih r⟩

/-- What a program with harmless operations adds to the history is one of its traces. -/
theorem wp_histories_yields {P : List (Event I) → Event I → Prop} {G : I.Op → Prop}
    (hP : ∀ h o r, G o → P h ⟨o, r⟩) {p : Program I α} (hp : p.Uses G) {h : List (Event I)} :
    wp (histories P) (fun a h' => ∃ evs, h' = h ++ evs ∧ p.Yields evs a) p h := by
  induction p generalizing h with
  | pure a => exact ⟨[], (List.append_nil h).symm, .pure⟩
  | call o next ih =>
    rintro r _ rfl
    refine ⟨hP h o r hp.1, wp_mono ?_ (ih r (hp.2 r))⟩
    rintro a _ ⟨evs, rfl, hyields⟩
    exact ⟨⟨o, r⟩ :: evs, by simp, .call r hyields⟩

/-! ### Interfaces within interfaces -/

/-- The operations of one interface are among those of another, with the same results. -/
structure Embedding (I J : Interface) where
  op : I.Op → J.Op
  res : (o : I.Op) → J.Res (op o) ≃ I.Res o

def Embedding.event (e : Embedding I J) (ev : Event I) : Event J :=
  ⟨e.op ev.op, (e.res ev.op).symm ev.res⟩

/-- The same program, with the operations of the larger interface. -/
def embed (e : Embedding I J) : Program I α → Program J α
  | .pure a => .pure a
  | .call o next => .call (e.op o) fun r => (next (e.res o r)).embed e

theorem yields_embed {e : Embedding I J} {p : Program I α} {evs : List (Event J)} {a : α} :
    (p.embed e).Yields evs a ↔ ∃ own, evs = own.map e.event ∧ p.Yields own a := by
  induction p generalizing evs with
  | pure b =>
    constructor
    · intro h
      cases h
      exact ⟨[], rfl, .pure⟩
    · rintro ⟨own, rfl, hp⟩
      cases hp
      exact .pure
  | call o next ih =>
    constructor
    · intro h
      cases h with
      | call r h =>
        obtain ⟨own, rfl, hp⟩ := (ih _).mp h
        refine ⟨⟨o, e.res o r⟩ :: own, ?_, .call _ hp⟩
        simp [Embedding.event]
    · rintro ⟨own, rfl, hp⟩
      cases hp with
      | call r hp =>
        refine .call _ ((ih _).mpr ⟨_, rfl, ?_⟩)
        rwa [Equiv.apply_symm_apply]

theorem uses_embed {e : Embedding I J} {P : J.Op → Prop} (hP : ∀ o, P (e.op o))
    (p : Program I α) : (p.embed e).Uses P := by
  induction p with
  | pure a => trivial
  | call o next ih => exact ⟨hP o, fun r => ih _⟩

/-! ### Trying until it works -/

/-- Run the body for one element after the other, until it ends well. -/
def first_ok (body : β → Program I (Except ε α)) : List β → Program I (Option α)
  | [] => .pure none
  | x :: xs => body x >>= fun r =>
    match r with
    | .ok a => .pure (some a)
    | .error _ => first_ok body xs

theorem uses_first_ok {P : I.Op → Prop} {body : β → Program I (Except ε α)}
    (hbody : ∀ x, (body x).Uses P) (xs : List β) : (first_ok body xs).Uses P := by
  induction xs with
  | nil => trivial
  | cons x xs ih =>
    refine uses_bind (hbody x) fun r => ?_
    cases r with
    | ok a => trivial
    | error e => exact ih

/-- Elements for which the body has failed, each with its events. -/
def Failures (body : β → Program I (Except ε α)) (failed : List (β × List (Event I))) : Prop :=
  ∀ x ∈ failed, ∃ e, (body x.1).Yields x.2 (.error e)

/-- The loop fails for some first elements. Then it ends well with the next one, or there is
    none. -/
theorem yields_first_ok {body : β → Program I (Except ε α)} {xs : List β} {evs : List (Event I)}
    {r : Option α} : (first_ok body xs).Yields evs r ↔
      ∃ failed, Failures body failed ∧
        ((r = none ∧ xs = failed.map Prod.fst ∧ evs = (failed.map Prod.snd).flatten) ∨
        ∃ x rest last a, r = some a ∧ xs = failed.map Prod.fst ++ x :: rest ∧
          evs = (failed.map Prod.snd).flatten ++ last ∧ (body x).Yields last (.ok a)) := by
  induction xs generalizing evs with
  | nil =>
    constructor
    · intro h
      cases h
      exact ⟨[], by simp [Failures], .inl ⟨rfl, rfl, rfl⟩⟩
    · rintro ⟨failed, -, ⟨rfl, hxs, rfl⟩ | ⟨x, rest, last, a, -, hxs, -, -⟩⟩
      · obtain rfl : failed = [] := List.map_eq_nil_iff.mp hxs.symm
        exact .pure
      · simp at hxs
  | cons y ys ih =>
    rw [first_ok, yields_bind]
    constructor
    · rintro ⟨evs₁, evs₂, result, rfl, hbody, hrest⟩
      -- the first body ends the loop, or the rest of it goes on
      cases result with
      | ok a =>
        obtain ⟨rfl, rfl⟩ := yields_pure.mp hrest
        exact ⟨[], by simp [Failures], .inr ⟨y, ys, evs₁, a, rfl, rfl, by simp, hbody⟩⟩
      | error e =>
        obtain ⟨failed, hfailed, hends⟩ := ih.mp hrest
        refine ⟨(y, evs₁) :: failed, ?_, ?_⟩
        · exact List.forall_mem_cons.mpr ⟨⟨e, hbody⟩, hfailed⟩
        · rcases hends with ⟨hnone, rfl, rfl⟩ | ⟨x, rest, last, a, hsome, rfl, rfl, hlast⟩
          · exact .inl ⟨hnone, rfl, rfl⟩
          · exact .inr ⟨x, rest, last, a, hsome, rfl, by simp, hlast⟩
    · rintro ⟨failed, hfailed, hends⟩
      cases failed with
      | nil =>
        obtain ⟨-, hxs, -⟩ | ⟨x, rest, last, a, rfl, hxs, rfl, hlast⟩ := hends
        · cases hxs
        · obtain ⟨rfl, rfl⟩ := List.cons.inj hxs
          exact ⟨_, [], .ok a, by simp, hlast, .pure⟩
      | cons first failed =>
        obtain ⟨⟨e, hfirst⟩, hfailed⟩ := List.forall_mem_cons.mp hfailed
        rcases hends with ⟨rfl, hxs, rfl⟩ | ⟨x, rest, last, a, rfl, hxs, rfl, hlast⟩
        · obtain ⟨rfl, rfl⟩ := List.cons.inj hxs
          exact ⟨first.2, _, .error e, rfl, hfirst, ih.mpr ⟨failed, hfailed, .inl ⟨rfl, rfl, rfl⟩⟩⟩
        · obtain ⟨rfl, rfl⟩ := List.cons.inj hxs
          refine ⟨first.2, (failed.map Prod.snd).flatten ++ last, .error e, by simp, hfirst, ?_⟩
          exact ih.mpr ⟨failed, hfailed, .inr ⟨x, rest, last, a, rfl, rfl, rfl, hlast⟩⟩

end Program
