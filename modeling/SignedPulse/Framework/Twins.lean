import Mathlib.Data.List.Forall2
import SignedPulse.Framework.Sequential

/-! # Two runs side by side

    Sequential runs in which every step is recorded, together with the state
    that it was taken in. Some jobs are of concern; they come in both runs, in
    the same order and with the same inputs. Other jobs come in between, in
    each of the runs as they like.

    - `Performs`, `Served`: executions and runs with their records
    - `Similar`: programs that go on alike as long as they get like results
    - `Performs.twins`: like steps from states that are related
    - `Served.twins`: the jobs of concern have the same outcomes in both runs
-/

namespace Twins

variable {I : Interface} {E σ J α β : Type}

/-! ### Records -/

/-- An operation that was performed: where, with which decisions of the environment, and how. -/
structure Step (I : Interface) (E σ : Type) where
  before : σ
  env : E
  event : Event I

/-- A job and the steps it took. -/
structure Turn (I : Interface) (E σ J : Type) where
  job : J
  steps : List (Step I E σ)

section
variable (m : Machine I E σ)

def taken (o : I.Op) (e : E) (s : σ) : Step I E σ := ⟨s, e, ⟨o, (m.perform o e s).1⟩⟩

/-- The program runs from one state to another, taking these steps, and returns `a`. -/
inductive Performs : Program I α → σ → List (Step I E σ) → α → σ → Prop where
  | pure {a s} : Performs (.pure a) s [] a s
  | call {o next s xs a s'} (e : E)
      (h : Performs (next (m.perform o e s).1) (m.perform o e s).2 xs a s') :
      Performs (.call o next) s (taken m o e s :: xs) a s'

/-- The jobs run one after the other, each to its end. -/
inductive Served (prog : J → Program I Unit) (s₀ : σ) : List (Turn I E σ J) → σ → Prop where
  | start : Served prog s₀ [] s₀
  | turn {ts s xs s'} (j : J) (h : Served prog s₀ ts s) (hj : Performs m (prog j) s xs () s') :
      Served prog s₀ (ts ++ [⟨j, xs⟩]) s'

/-! ### Computing records -/

/-- Run the program with the given decisions of the environment. -/
def trace : Program I α → List E → σ → Option (List (Step I E σ) × α × σ)
  | .pure a, _, s => some ([], a, s)
  | .call _ _, [], _ => none
  | .call o next, e :: es, s =>
    (trace (next (m.perform o e s).1) es (m.perform o e s).2).map
      fun r => (taken m o e s :: r.1, r.2)

def serve (prog : J → Program I Unit) : List (J × List E) → σ → Option (List (Turn I E σ J) × σ)
  | [], s => some ([], s)
  | (j, es) :: js, s =>
    (trace m (prog j) es s).bind fun r =>
      (serve prog js r.2.2).map fun q => (⟨j, r.1⟩ :: q.1, q.2)

end

variable {m : Machine I E σ} {prog : J → Program I Unit} {s₀ t₀ s s' t t' : σ}

theorem trace_sound {p : Program I α} {es : List E} {xs : List (Step I E σ)} {a : α}
    (h : trace m p es s = some (xs, a, s')) : Performs m p s xs a s' := by
  induction p generalizing es s xs with
  | pure b =>
    simp only [trace, Option.some.injEq, Prod.mk.injEq] at h
    obtain ⟨rfl, rfl, rfl⟩ := h
    exact .pure
  | call o next ih =>
    cases es with
    | nil => cases h
    | cons e es =>
      obtain ⟨r, hr, hxs⟩ := Option.map_eq_some_iff.mp h
      obtain ⟨rfl, hend⟩ := Prod.mk.inj hxs
      obtain ⟨rfl, rfl⟩ := Prod.mk.inj hend
      exact .call e (ih _ hr)

theorem serve_sound {js : List (J × List E)} {ts ts' : List (Turn I E σ J)}
    (hrun : Served m prog s₀ ts s) (h : serve m prog js s = some (ts', s')) :
    Served m prog s₀ (ts ++ ts') s' := by
  induction js generalizing ts s ts' with
  | nil =>
    simp only [serve, Option.some.injEq, Prod.mk.injEq] at h
    obtain ⟨rfl, rfl⟩ := h
    simpa using hrun
  | cons x js ih =>
    obtain ⟨j, es⟩ := x
    obtain ⟨r, hr, hrest⟩ := Option.bind_eq_some_iff.mp h
    obtain ⟨q, hq, hts⟩ := Option.map_eq_some_iff.mp hrest
    obtain ⟨rfl, rfl⟩ := Prod.mk.inj hts
    have hlater := ih (hrun.turn j (trace_sound hr)) hq
    rwa [List.append_assoc] at hlater

theorem serve_jobs {js : List (J × List E)} {ts : List (Turn I E σ J)}
    (h : serve m prog js s = some (ts, s')) : ts.map Turn.job = js.map Prod.fst := by
  induction js generalizing s ts with
  | nil =>
    simp only [serve, Option.some.injEq, Prod.mk.injEq] at h
    obtain ⟨rfl, -⟩ := h
    rfl
  | cons x js ih =>
    obtain ⟨j, es⟩ := x
    obtain ⟨r, -, hrest⟩ := Option.bind_eq_some_iff.mp h
    obtain ⟨q, hq, hts⟩ := Option.map_eq_some_iff.mp hrest
    obtain ⟨rfl, rfl⟩ := Prod.mk.inj hts
    rw [List.map_cons, List.map_cons, ih hq]

/-! ### One execution -/

section execution
variable {p : Program I α} {xs : List (Step I E σ)} {a : α}

theorem Performs.yields (h : Performs m p s xs a s') : p.Yields (xs.map Step.event) a := by
  induction h with
  | pure => exact .pure
  | call e _ ih => exact .call _ ih

/-- Every event meets the demand that the program meets. -/
theorem Performs.meets {D : Event I → Prop} {Q : α → List (Event I) → Prop} {l : List (Event I)}
    (h : Performs m p s xs a s') (hwp : p.wp (Program.histories fun _ ev => D ev) Q l) :
    ∀ x ∈ xs, D x.event := by
  induction h generalizing l with
  | pure => exact List.forall_mem_nil _
  | call e _ ih =>
    obtain ⟨hmust, hrest⟩ := hwp _ _ rfl
    exact List.forall_mem_cons.mpr ⟨hmust, ih hrest⟩

/-- What every step leaves as it is, is the same in the end. -/
theorem Performs.kept {γ : Type} {f : σ → γ} (h : Performs m p s xs a s')
    (hstep : ∀ x ∈ xs, f (m.perform x.event.op x.env x.before).2 = f x.before) : f s' = f s := by
  induction h with
  | pure => rfl
  | call e _ ih =>
    obtain ⟨hfirst, hrest⟩ := List.forall_mem_cons.mp hstep
    exact (ih hrest).trans hfirst

/-- The machine serves one program alone. -/
def serving (m : Machine I E σ) : Program.Surroundings I σ where
  step s o r s' := ∃ e, r = (m.perform o e s).1 ∧ s' = (m.perform o e s).2
  must _ _ := True

theorem Performs.sound {Q : α → σ → Prop} (h : Performs m p s xs a s')
    (hwp : p.wp (serving m) Q s) :
    Q a s' := by
  induction h with
  | pure => exact hwp
  | call e _ ih => exact ih (hwp _ _ ⟨e, rfl, rfl⟩).2

/-- The steps of a sequence are those of its first part and then those of the second. -/
theorem Performs.split {q : α → Program I β} {b : β} (h : Performs m (p >>= q) s xs b s') :
    ∃ ys zs a t, xs = ys ++ zs ∧ Performs m p s ys a t ∧ Performs m (q a) t zs b s' := by
  induction p generalizing s xs with
  | pure a => exact ⟨[], xs, a, s, rfl, .pure, h⟩
  | call o next ih =>
    have h' : Performs m (.call o fun r => next r >>= q) s xs b s' := h
    cases h' with
    | call e hrest =>
      obtain ⟨ys, zs, a, t, rfl, hfirst, hsecond⟩ := ih _ hrest
      exact ⟨taken m o e s :: ys, zs, a, t, rfl, .call e hfirst, hsecond⟩

end execution

/-! ### Similar programs -/

/-- The programs perform operations in `K`, and go on alike when their events are in `L`. -/
inductive Similar (K : I.Op → I.Op → Prop) (L : Event I → Event I → Prop) (R : α → β → Prop) :
    Program I α → Program I β → Prop where
  | pure {a b} (h : R a b) : Similar K L R (.pure a) (.pure b)
  | call {o o' next next'} (ho : K o o')
      (h : ∀ r r', L ⟨o, r⟩ ⟨o', r'⟩ → Similar K L R (next r) (next' r')) :
      Similar K L R (.call o next) (.call o' next')

section similar
variable {K : I.Op → I.Op → Prop} {L : Event I → Event I → Prop} {R : α → β → Prop}
variable {p : Program I α} {p' : Program I β}

theorem Similar.bind {γ δ : Type} {S : γ → δ → Prop} {f : α → Program I γ} {f' : β → Program I δ}
    (h : Similar K L R p p') (hf : ∀ a b, R a b → Similar K L S (f a) (f' b)) :
    Similar K L S (p >>= f) (p' >>= f') := by
  induction h with
  | pure h => exact hf _ _ h
  | call ho _ ih => exact .call ho ih

theorem Similar.perform_bind {γ δ : Type} {S : γ → δ → Prop} {o o' : I.Op}
    {f : I.Res o → Program I γ} {f' : I.Res o' → Program I δ} (ho : K o o')
    (hf : ∀ r r', L ⟨o, r⟩ ⟨o', r'⟩ → Similar K L S (f r) (f' r')) :
    Similar K L S (Program.perform o >>= f) (Program.perform o' >>= f') :=
  .call ho hf

/-- A program is like itself, if like results of its operations are equal. -/
theorem Similar.of_uses {P : I.Op → Prop} (hK : ∀ o, P o → K o o)
    (hL : ∀ o, P o → ∀ r r', L ⟨o, r⟩ ⟨o, r'⟩ → r = r') (h : p.Uses P) : Similar K L Eq p p := by
  induction p with
  | pure a => exact .pure rfl
  | call o next ih =>
    refine .call (hK o h.1) fun r r' hr => ?_
    rw [hL o h.1 r r' hr]
    exact ih r' (h.2 r')

/-- Twin rule: similar programs take like steps from related states, as long as the steps have
    matching inputs. -/
theorem Performs.twins {rel : σ → σ → Prop} {M : Step I E σ → Step I E σ → Prop}
    (hstep : ∀ o o' e e' s s', K o o' → rel s s' → M (taken m o e s) (taken m o' e' s') →
      L (taken m o e s).event (taken m o' e' s').event ∧
        rel (m.perform o e s).2 (m.perform o' e' s').2)
    (hp : Similar K L R p p') {xs xs' : List (Step I E σ)} {a : α} {b : β}
    (h : Performs m p s xs a t) (h' : Performs m p' s' xs' b t') (hrel : rel s s')
    (hM : ∀ (i : Nat) x x', xs[i]? = some x → xs'[i]? = some x' → M x x') :
    List.Forall₂ (fun x x' => L x.event x'.event) xs xs' ∧ R a b ∧ rel t t' := by
  induction hp generalizing s s' xs xs' with
  | pure hR =>
    cases h
    cases h'
    exact ⟨.nil, hR, hrel⟩
  | call ho _ ih =>
    cases h with
    | call e h =>
      cases h' with
      | call e' h' =>
        obtain ⟨hlike, hafter⟩ := hstep _ _ e e' _ _ ho hrel (hM 0 _ _ rfl rfl)
        obtain ⟨hrest, hR, hend⟩ := ih _ _ hlike h h' hafter fun i => hM (i + 1)
        exact ⟨.cons hlike hrest, hR, hend⟩

end similar

/-! ### Two runs -/

theorem forall_mem_concat {p : α → Prop} {l : List α} {a : α} :
    (∀ x ∈ l ++ [a], p x) ↔ (∀ x ∈ l, p x) ∧ p a := by
  rw [List.forall_mem_append, List.forall_mem_singleton]

theorem forall₂_snoc {R : α → β → Prop} {l : List α} {l' : List β} {a : α} {b : β} :
    List.Forall₂ R (l ++ [a]) (l' ++ [b]) ↔ List.Forall₂ R l l' ∧ R a b := by
  rw [← List.forall₂_reverse_iff, List.reverse_concat, List.reverse_concat, List.forall₂_cons,
    List.forall₂_reverse_iff, and_comm]

section runs
variable {concerns : J → Bool}

/-- The turns of concern. -/
def concerned (concerns : J → Bool) (ts : List (Turn I E σ J)) : List (Turn I E σ J) :=
  ts.filter fun t => concerns t.job

theorem concerned_jobs (ts : List (Turn I E σ J)) :
    (concerned concerns ts).map Turn.job = (ts.map Turn.job).filter concerns := by
  rw [List.filter_map]
  rfl

theorem concerned_snoc_pos {t : Turn I E σ J} (h : concerns t.job = true)
    (ts : List (Turn I E σ J)) : concerned concerns (ts ++ [t]) = concerned concerns ts ++ [t] := by
  simp [concerned, h]

theorem concerned_snoc_neg {t : Turn I E σ J} (h : concerns t.job = false)
    (ts : List (Turn I E σ J)) : concerned concerns (ts ++ [t]) = concerned concerns ts := by
  simp [concerned, h]

/-- Run rule: when the other turns leave the state related to what it was, and turns of concern with
    matching inputs have the same outcome from related states, then all of them do. Only turns that
    meet `Fit` are taken in either run. -/
theorem Served.twins {γ : Type} {rel : σ → σ → Prop} (hrel : Equivalence rel)
    {Fit : Turn I E σ J → Prop} {Match : Turn I E σ J → Turn I E σ J → Prop}
    (outcome : Turn I E σ J → γ)
    (hother : ∀ j xs s s', concerns j = false → Fit ⟨j, xs⟩ → Performs m (prog j) s xs () s' →
      rel s s')
    (htwins : ∀ j j' xs xs' s s' t t', concerns j = true → Fit ⟨j, xs⟩ → Fit ⟨j', xs'⟩ →
      Match ⟨j, xs⟩ ⟨j', xs'⟩ → rel s s' → Performs m (prog j) s xs () t →
      Performs m (prog j') s' xs' () t' → outcome ⟨j, xs⟩ = outcome ⟨j', xs'⟩ ∧ rel t t')
    {ts ts' : List (Turn I E σ J)} (hstart : rel s₀ t₀) (h : Served m prog s₀ ts s)
    (h' : Served m prog t₀ ts' s')
    (hmatch : List.Forall₂ Match (concerned concerns ts) (concerned concerns ts'))
    (hfit : ∀ t ∈ ts, Fit t) (hfit' : ∀ t ∈ ts', Fit t) :
    (concerned concerns ts).map outcome = (concerned concerns ts').map outcome ∧ rel s s' := by
  induction h generalizing ts' s' with
  | start =>
    induction h' with
    | start => exact ⟨rfl, hstart⟩
    | turn j _ hj ih =>
      obtain ⟨hfit₁, hlast⟩ := forall_mem_concat.mp hfit'
      cases hconcerns : concerns j with
      | true =>
        rw [concerned_snoc_pos hconcerns] at hmatch
        exact absurd hmatch.length_eq (by simp [concerned])
      | false =>
        rw [concerned_snoc_neg hconcerns] at hmatch ⊢
        obtain ⟨houtcomes, hend⟩ := ih hmatch hfit₁
        exact ⟨houtcomes, hrel.trans hend (hother _ _ _ _ hconcerns hlast hj)⟩
  | turn j h hj ih =>
    obtain ⟨hfit₁, hlast⟩ := forall_mem_concat.mp hfit
    cases hconcerns : concerns j with
    | false =>
      rw [concerned_snoc_neg hconcerns] at hmatch ⊢
      obtain ⟨houtcomes, hend⟩ := ih h' hmatch hfit₁ hfit'
      exact ⟨houtcomes, hrel.trans (hrel.symm (hother _ _ _ _ hconcerns hlast hj)) hend⟩
    | true =>
      rw [concerned_snoc_pos hconcerns] at hmatch ⊢
      -- the other run has to get to its turn
      induction h' with
      | start => exact absurd hmatch.length_eq (by simp [concerned])
      | turn j' h' hj' ih' =>
        obtain ⟨hfit₂, hlast'⟩ := forall_mem_concat.mp hfit'
        cases hconcerns' : concerns j' with
        | false =>
          rw [concerned_snoc_neg hconcerns'] at hmatch ⊢
          obtain ⟨houtcomes, hend⟩ := ih' hmatch hfit₂
          exact ⟨houtcomes, hrel.trans hend (hother _ _ _ _ hconcerns' hlast' hj')⟩
        | true =>
          rw [concerned_snoc_pos hconcerns'] at hmatch ⊢
          obtain ⟨hbefore, hmatched⟩ := forall₂_snoc.mp hmatch
          obtain ⟨houtcomes, hrelated⟩ := ih h' hbefore hfit₁ hfit₂
          obtain ⟨houtcome, hend⟩ :=
            htwins _ _ _ _ _ _ _ _ hconcerns hlast hlast' hmatched hrelated hj hj'
          rw [List.map_append, List.map_append, houtcomes, List.map_singleton, List.map_singleton,
            houtcome]
          exact ⟨rfl, hend⟩

end runs

end Twins
