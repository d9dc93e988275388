import SignedPulse.Framework.Interleaving
import Mathlib.Logic.Function.Iterate

/-! # Sequential runs

    The special case of `Interleaving` in which each task runs to its end
    before the next one begins (`Run.reachable` is the embedding). A
    restriction `A` says what the environment may do at each operation; a
    property of all runs within it is proved by a `wp` for each program
    (`Run.invariant`). `run_jobs` computes runs.
-/

namespace Sequential

variable {I : Interface} {E σ J α : Type}

/-- The machine between two operations of a sequential run. -/
structure Snapshot (I : Interface) (σ : Type) where
  state : σ
  log : List (Event I)

section
variable (m : Machine I E σ) (A : (o : I.Op) → E → σ → Prop)

def advance (o : I.Op) (e : E) (t : Snapshot I σ) : Snapshot I σ where
  state := (m.perform o e t.state).2
  log := t.log ++ [⟨o, (m.perform o e t.state).1⟩]

/-- The machine serves one program alone. -/
def alone : Program.Surroundings I (Snapshot I σ) where
  step t o r t' := ∃ e, A o e t.state ∧ r = (m.perform o e t.state).1 ∧ t' = advance m o e t
  must _ _ := True

/-- The program runs from one snapshot to another and returns `a`. -/
inductive Exec : Program I α → Snapshot I σ → α → Snapshot I σ → Prop where
  | pure {a t} : Exec (.pure a) t a t
  | call {o next t a t'} (e : E) (hA : A o e t.state)
      (h : Exec (next (m.perform o e t.state).1) (advance m o e t) a t') :
      Exec (.call o next) t a t'

/-- The jobs run one after the other, each to its end. -/
inductive Run (prog : J → Program I Unit) (s : σ) : List J → Snapshot I σ → Prop where
  | start : Run prog s [] { state := s, log := [] }
  | job {js t t'} (j : J) (h : Run prog s js t) (hj : Exec m A (prog j) t () t') :
      Run prog s (js ++ [j]) t'

/-! ### Computing runs -/

/-- Run the program with the given decisions of the environment. -/
def exec [∀ o e s, Decidable (A o e s)] : Program I α → List E → Snapshot I σ →
    Option (α × Snapshot I σ)
  | .pure a, _, t => some (a, t)
  | .call _ _, [], _ => none
  | .call o next, e :: es, t =>
    if A o e t.state then exec (next (m.perform o e t.state).1) es (advance m o e t) else none

def run_jobs [∀ o e s, Decidable (A o e s)] (prog : J → Program I Unit) :
    List (J × List E) → Snapshot I σ → Option (Snapshot I σ)
  | [], t => some t
  | (j, es) :: js, t => (exec m A (prog j) es t).bind (fun r => run_jobs prog js r.2)

end

variable {m : Machine I E σ} {A : (o : I.Op) → E → σ → Prop} {prog : J → Program I Unit} {s : σ}

theorem exec_sound [∀ o e s, Decidable (A o e s)] {p : Program I α} {es : List E}
    {t t' : Snapshot I σ} {a : α} (h : exec m A p es t = some (a, t')) : Exec m A p t a t' := by
  induction p generalizing es t with
  | pure b =>
    simp only [exec, Option.some.injEq, Prod.mk.injEq] at h
    obtain ⟨rfl, rfl⟩ := h
    exact .pure
  | call o next ih =>
    cases es with
    | nil => cases h
    | cons e es =>
      simp only [exec] at h
      split at h
      · rename_i hA
        exact .call e hA (ih _ h)
      · cases h

theorem run_jobs_sound [∀ o e s, Decidable (A o e s)] {jobs : List (J × List E)} {js : List J}
    {t t' : Snapshot I σ} (hrun : Run m A prog s js t) (h : run_jobs m A prog jobs t = some t') :
    Run m A prog s (js ++ jobs.map Prod.fst) t' := by
  induction jobs generalizing js t with
  | nil =>
    simp only [run_jobs, Option.some.injEq] at h
    simpa [h] using hrun
  | cons x jobs ih =>
    obtain ⟨j, es⟩ := x
    obtain ⟨⟨u, t₁⟩, hexec, hrest⟩ := Option.bind_eq_some_iff.mp h
    have := ih (.job j hrun (exec_sound hexec)) hrest
    simpa using this

/-! ### Rules -/

theorem wp_alone_perform_bind {β : Type} {o : I.Op} {f : I.Res o → Program I β}
    {Q : β → Snapshot I σ → Prop} {t : Snapshot I σ} :
    (Program.perform o >>= f).wp (alone m A) Q t ↔
      ∀ e, A o e t.state → (f (m.perform o e t.state).1).wp (alone m A) Q (advance m o e t) := by
  rw [Program.wp_perform_bind]
  constructor
  · intro h e hA
    exact (h _ _ ⟨e, hA, rfl, rfl⟩).2
  · rintro h _ _ ⟨e, hA, rfl, rfl⟩
    exact ⟨trivial, h e hA⟩

theorem Exec.sound {p : Program I α} {Q : α → Snapshot I σ → Prop} {t t' : Snapshot I σ} {a : α}
    (h : Exec m A p t a t') (hwp : p.wp (alone m A) Q t) : Q a t' := by
  induction h with
  | pure => exact hwp
  | call e hA _ ih => exact ih ((hwp _ _ ⟨e, hA, rfl, rfl⟩).2)

/-- Run rule: what every job preserves holds after every run. -/
theorem Run.invariant (Inv : Snapshot I σ → Prop) (h0 : Inv { state := s, log := [] })
    (hjob : ∀ j t, Inv t → (prog j).wp (alone m A) (fun _ t' => Inv t') t) {js : List J}
    {t : Snapshot I σ} (h : Run m A prog s js t) : Inv t := by
  induction h with
  | start => exact h0
  | job j _ hexec ih => exact hexec.sound (hjob j _ ih)

/-! ### From events to states -/

section events
variable {β : Type} {p : Program I α} {t t' : Snapshot I σ} {a : α} {evs l : List (Event I)}

theorem Exec.log_append (h : Exec m A p t a t') : ∃ evs, t'.log = t.log ++ evs := by
  induction h with
  | pure => exact ⟨[], by simp⟩
  | call e _ _ ih =>
    obtain ⟨evs, hevs⟩ := ih
    rw [hevs]
    exact ⟨_, List.append_assoc _ _ _⟩

/-- The first of the events of an execution, and the others. -/
theorem Exec.events_cons {o : I.Op} {next : I.Res o → Program I α} {e : E}
    (h : Exec m A (next (m.perform o e t.state).1) (advance m o e t) a t')
    (hlog : t'.log = t.log ++ evs) : ∃ evs', evs = ⟨o, (m.perform o e t.state).1⟩ :: evs' ∧
      t'.log = (advance m o e t).log ++ evs' := by
  obtain ⟨evs', hevs⟩ := h.log_append
  refine ⟨evs', ?_, hevs⟩
  rw [hlog] at hevs
  simpa [advance] using hevs

/-- What holds of the history of the program, whatever results come back, holds of an execution. -/
theorem Exec.of_histories {P : List (Event I) → Event I → Prop} {Q : α → List (Event I) → Prop}
    (h : Exec m A p t a t') (hwp : p.wp (Program.histories P) Q l) (hlog : t'.log = t.log ++ evs) :
    Q a (l ++ evs) := by
  induction h generalizing l evs with
  | pure =>
    have hnil : evs = [] := by simpa using hlog
    rw [hnil, List.append_nil]
    exact hwp
  | call e _ h ih =>
    obtain ⟨evs', rfl, hlog'⟩ := h.events_cons hlog
    have hQ := ih (hwp _ _ rfl).2 hlog'
    rwa [List.append_assoc] at hQ

/-- Fold rule: when each event that is allowed acts on a part of the state by `g`, an execution with
    only such events acts on it by their fold. -/
theorem Exec.fold {f : σ → β} {g : β → Event I → β} {P : Event I → Prop}
    (hstep : ∀ o e s, P ⟨o, (m.perform o e s).1⟩ →
      f (m.perform o e s).2 = g (f s) ⟨o, (m.perform o e s).1⟩)
    (h : Exec m A p t a t') (hlog : t'.log = t.log ++ evs) (hok : ∀ ev ∈ evs, P ev) :
    f t'.state = evs.foldl g (f t.state) := by
  induction h generalizing evs with
  | pure =>
    have hnil : evs = [] := by simpa using hlog
    rw [hnil]
    rfl
  | call e _ h ih =>
    obtain ⟨evs', rfl, hlog'⟩ := h.events_cons hlog
    rw [ih hlog' fun ev hev => hok ev (List.mem_cons_of_mem _ hev), List.foldl_cons,
      ← hstep _ _ _ (hok _ List.mem_cons_self)]
    rfl

/-- Frame rule: what no event of the execution changes is unchanged. -/
theorem Exec.frame {f : σ → β} {P : Event I → Prop}
    (hstep : ∀ o e s, P ⟨o, (m.perform o e s).1⟩ → f (m.perform o e s).2 = f s)
    (h : Exec m A p t a t') (hlog : t'.log = t.log ++ evs) (hok : ∀ ev ∈ evs, P ev) :
    f t'.state = f t.state := by
  rw [h.fold (g := fun b _ => b) hstep hlog hok, List.foldl_fixed]

/-- Counting rule: an execution acts on a part of the state once for each event that counts. -/
theorem Exec.count {f : σ → β} {g : β → β} {counts : Event I → Bool}
    (hstep : ∀ o e s, f (m.perform o e s).2 =
      if counts ⟨o, (m.perform o e s).1⟩ then g (f s) else f s)
    (h : Exec m A p t a t') (hlog : t'.log = t.log ++ evs) :
    f t'.state = g^[evs.countP counts] (f t.state) := by
  induction h generalizing evs with
  | pure =>
    have hnil : evs = [] := by simpa using hlog
    rw [hnil]
    rfl
  | @call o next t₀ a t₁ e _ h ih =>
    obtain ⟨evs', rfl, hlog'⟩ := h.events_cons hlog
    have hfirst : f (advance m o e t₀).state = _ := hstep o e t₀.state
    rw [ih hlog', hfirst, List.countP_cons]
    split
    · exact (Function.iterate_add_apply g _ 1 _).symm
    · rfl

/-- An event that comes after nothing that changes a part of the state has its result there. -/
theorem Exec.result_at {f : σ → β} {P : Event I → Prop}
    (hstep : ∀ o e s, P ⟨o, (m.perform o e s).1⟩ → f (m.perform o e s).2 = f s)
    (h : Exec m A p t a t') {pre post : List (Event I)} {ev : Event I}
    (hlog : t'.log = t.log ++ (pre ++ ev :: post)) (hok : ∀ ev ∈ pre, P ev) :
    ∃ e st, f st = f t.state ∧ ev.res = (m.perform ev.op e st).1 := by
  induction h generalizing pre with
  | pure => simp at hlog
  | @call o next t₀ a t₁ e _ h ih =>
    obtain ⟨evs', hevs, hlog'⟩ := h.events_cons hlog
    cases pre with
    | nil =>
      obtain ⟨rfl, -⟩ := List.cons.inj hevs
      exact ⟨e, t₀.state, rfl, rfl⟩
    | cons ev' pre =>
      obtain ⟨rfl, rfl⟩ := List.cons.inj hevs
      obtain ⟨hfirst, hpre⟩ := List.forall_mem_cons.mp hok
      obtain ⟨e', st, hst, hres⟩ := ih hlog' hpre
      exact ⟨e', st, hst.trans (hstep o e _ hfirst), hres⟩

end events

/-! ### Executions under way -/

section
variable (m : Machine I E σ) (A : (o : I.Op) → E → σ → Prop)

/-- Running `p` from `t`, the machine has come to `p'` at `t'`. -/
inductive UnderWay : Program I α → Snapshot I σ → Program I α → Snapshot I σ → Prop where
  | refl {p t} : UnderWay p t p t
  | call {o next t p' t'} (e : E) (hA : A o e t.state)
      (h : UnderWay (next (m.perform o e t.state).1) (advance m o e t) p' t') :
      UnderWay (.call o next) t p' t'

/-- The machine serves one program alone, and every event has to meet a demand in the snapshot in
    which it comes about. -/
def demanding (D : Snapshot I σ → Event I → Prop) : Program.Surroundings I (Snapshot I σ) where
  step := (alone m A).step
  must := D

end

/-- As many operations of the program as there are decisions. -/
def take_steps (m : Machine I E σ) : Program I α × Snapshot I σ → List E →
    Program I α × Snapshot I σ
  | r, [] => r
  | (.pure a, t), _ => (.pure a, t)
  | (.call o next, t), e :: es =>
    take_steps m (next (m.perform o e t.state).1, advance m o e t) es

theorem take_steps_sound (r : Program I α × Snapshot I σ) (es : List E) :
    UnderWay m (fun _ _ _ => True) r.1 r.2 (take_steps m r es).1 (take_steps m r es).2 := by
  induction es generalizing r with
  | nil =>
    unfold take_steps
    exact .refl
  | cons e es ih =>
    obtain ⟨p, t⟩ := r
    cases p with
    | pure a => exact .refl
    | call o next =>
      exact .call e trivial (ih (next (m.perform o e t.state).1, advance m o e t))

section under_way
variable {D : Snapshot I σ → Event I → Prop} {Q : α → Snapshot I σ → Prop} {p p' : Program I α}
variable {t t' : Snapshot I σ}

/-- What is left of the program still meets the demand. -/
theorem UnderWay.guarded (h : UnderWay m A p t p' t') (hwp : p.wp (demanding m A D) Q t) :
    p'.wp (demanding m A D) Q t' := by
  induction h with
  | refl => exact hwp
  | call e hA _ ih => exact ih (hwp _ _ ⟨e, hA, rfl, rfl⟩).2

/-- The event that comes next meets the demand. -/
theorem UnderWay.demanded {o : I.Op} {next : I.Res o → Program I α}
    (h : UnderWay m A p t (.call o next) t') (hwp : p.wp (demanding m A D) Q t) (e : E)
    (hA : A o e t'.state) : D t' ⟨o, (m.perform o e t'.state).1⟩ :=
  (h.guarded hwp _ _ ⟨e, hA, rfl, rfl⟩).1

/-- Events that come only when there has been none come once at most. -/
theorem UnderWay.once {q : Event I → Bool} (h : UnderWay m A p t p' t')
    (hwp : p.wp (demanding m A D) Q t)
    (hD : ∀ t ev, D t ev → q ev = true → t.log.countP q = 0) (h0 : t.log.countP q ≤ 1) :
    t'.log.countP q ≤ 1 := by
  induction h with
  | refl => exact h0
  | @call o next t p' t' e hA _ ih =>
    obtain ⟨hmust, hnext⟩ := hwp _ _ ⟨e, hA, rfl, rfl⟩
    refine ih hnext ?_
    show (t.log ++ [_]).countP q ≤ 1
    rw [List.countP_append, List.countP_singleton]
    split
    · rename_i hq
      have hnone := hD t _ hmust hq
      omega
    · exact h0

end under_way

/-! ### Sequential runs are interleaved runs -/

open Interleaving

/-- A program that runs alone is a task that takes step after step. -/
theorem Exec.steps (prog : J → Program I Unit) {p : Program I Unit} {t t' : Snapshot I σ}
    {u : Unit} (h : Exec m A p t u t') (c : Config I σ J) {i : Nat} {j : J}
    (hstate : c.state = t.state) (hlog : c.log.map Prod.snd = t.log)
    (hi : c.tasks[i]? = some ⟨j, p⟩) :
    ∃ c', Relation.ReflTransGen (Step m prog) c c' ∧ c'.state = t'.state ∧
      c'.log.map Prod.snd = t'.log := by
  induction h generalizing c with
  | pure => exact ⟨c, .refl, hstate, hlog⟩
  | @call o next t₀ u t₁ e hA _ ih =>
    -- the scheduler picks the task once more
    have happly : apply m prog c (.run i e) = some
        { state := (m.perform o e c.state).2
          tasks := c.tasks.set i ⟨j, next (m.perform o e c.state).1⟩
          log := c.log ++ [(i, ⟨o, (m.perform o e c.state).1⟩)] } := by
      simp only [apply, hi]
    rw [hstate] at happly
    have hlt := (List.getElem?_eq_some_iff.mp hi).1
    -- the rest of the execution starts from there
    obtain ⟨c', hsteps, hrest⟩ := ih
      { state := (m.perform o e t₀.state).2
        tasks := c.tasks.set i ⟨j, next (m.perform o e t₀.state).1⟩
        log := c.log ++ [(i, ⟨o, (m.perform o e t₀.state).1⟩)] }
      rfl (by simp [advance, hlog]) (List.getElem?_set_self hlt)
    exact ⟨c', .head ⟨_, happly⟩ hsteps, hrest⟩

theorem Run.reachable {js : List J} {t : Snapshot I σ} (h : Run m A prog s js t) :
    ∃ c, Reachable m prog s c ∧ c.state = t.state ∧ c.log.map Prod.snd = t.log := by
  induction h with
  | start => exact ⟨init s, .refl, rfl, rfl⟩
  | job j _ hexec ih =>
    obtain ⟨c, hreach, hstate, hlog⟩ := ih
    -- the job begins as a new task and then runs to its end
    have hbegin : Step m prog c { c with tasks := c.tasks ++ [⟨j, prog j⟩] } := ⟨.begin j, rfl⟩
    have hnew : (c.tasks ++ [⟨j, prog j⟩])[c.tasks.length]? = some ⟨j, prog j⟩ := by simp
    obtain ⟨c', hsteps, hrest⟩ := hexec.steps prog
      { c with tasks := c.tasks ++ [⟨j, prog j⟩] } hstate hlog hnew
    exact ⟨c', (hreach.tail hbegin).trans hsteps, hrest⟩

end Sequential
