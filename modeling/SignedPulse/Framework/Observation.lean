import SignedPulse.Framework.Interleaving

/-! # Observed runs

    Some operations of a task can be seen from outside and some stay hidden.
    An observed run is an interleaved run together with its cues, which are
    what the environment does in plain sight, and with the events that can be
    seen. Hidden operations may come at any point between them.

    Two systems whose programs perform the same visible operations (`Alike`)
    and whose states agree on what these depend on show the same events under
    the same cues (`Coupling.observed_related`), and whatever cues one of them can
    follow, the other one can follow too (`Simulation.observed_related`).
-/

namespace Interleaving

variable {I : Interface} {E D σ J α β : Type}

/-! ### Cues and observations -/

/-- What the environment does in plain sight; `d` is what it decides at a visible operation. -/
inductive Cue (J D : Type) where
  | begin (job : J)
  | act (i : Nat) (d : D)

/-- Which operations of which job are hidden, and which decisions at a state are seen as `d`. -/
structure Observer (I : Interface) (E D σ J : Type) where
  hidden : J → I.Op → Prop
  fits : D → E → σ → Prop

/-- Task `i` performs `o` and goes on with `next`. -/
def Config.act (m : Machine I E σ) (c : Config I σ J) (i : Nat) (job : J) (o : I.Op)
    (next : I.Res o → Program I Unit) (e : E) : Config I σ J where
  state := (m.perform o e c.state).2
  tasks := c.tasks.set i ⟨job, next (m.perform o e c.state).1⟩
  log := c.log ++ [(i, ⟨o, (m.perform o e c.state).1⟩)]

/-- A run from `s`, its cues and its visible events. -/
inductive Observed (m : Machine I E σ) (prog : J → Program I Unit) (v : Observer I E D σ J)
    (s : σ) : List (Cue J D) → Log I → Config I σ J → Prop where
  | start : Observed m prog v s [] [] (init s)
  | begin {cues obs c} (job : J) (h : Observed m prog v s cues obs c) :
      Observed m prog v s (cues ++ [.begin job]) obs
        { c with tasks := c.tasks ++ [⟨job, prog job⟩] }
  | hidden {cues obs c i job o next} (e : E) (h : Observed m prog v s cues obs c)
      (hi : c.tasks[i]? = some ⟨job, .call o next⟩) (ho : v.hidden job o) :
      Observed m prog v s cues obs (c.act m i job o next e)
  | act {cues obs c i job o next} (d : D) (e : E) (h : Observed m prog v s cues obs c)
      (hi : c.tasks[i]? = some ⟨job, .call o next⟩) (ho : ¬ v.hidden job o)
      (hd : v.fits d e c.state) :
      Observed m prog v s (cues ++ [.act i d]) (obs ++ [(i, ⟨o, (m.perform o e c.state).1⟩)])
        (c.act m i job o next e)

section observed
variable {m : Machine I E σ} {prog : J → Program I Unit} {v : Observer I E D σ J} {s : σ}
variable {c : Config I σ J}

theorem act_step {i : Nat} {job : J} {o : I.Op} {next : I.Res o → Program I Unit} (e : E)
    (hi : c.tasks[i]? = some ⟨job, .call o next⟩) : Step m prog c (c.act m i job o next e) := by
  refine ⟨.run i e, ?_⟩
  simp only [apply, hi]
  rfl

/-- An observed run is a run. -/
theorem Observed.reachable {cues : List (Cue J D)} {obs : Log I}
    (h : Observed m prog v s cues obs c) : Reachable m prog s c := by
  induction h with
  | start => exact .refl
  | begin job _ ih => exact ih.tail ⟨.begin job, rfl⟩
  | hidden e _ hi _ ih => exact ih.tail (act_step e hi)
  | act d e _ hi _ _ ih => exact ih.tail (act_step e hi)

/-- The event is one that is seen. -/
def Observer.Sees (v : Observer I E D σ J) (c : Config I σ J) (x : Nat × Event I) : Prop :=
  ∃ task, c.tasks[x.1]? = some task ∧ ¬ v.hidden task.job x.2.op

theorem sees_iff {x : Nat × Event I} {task : Task I J} (hx : c.tasks[x.1]? = some task) :
    v.Sees c x ↔ ¬ v.hidden task.job x.2.op := by
  constructor
  · rintro ⟨task', hx', ho⟩
    rwa [← Option.some.inj (hx.symm.trans hx')] at ho
  · exact fun ho => ⟨task, hx, ho⟩

open Classical in
/-- What is seen is the visible part of the log. -/
theorem Observed.log {cues : List (Cue J D)} {obs : Log I} (h : Observed m prog v s cues obs c) :
    obs = c.log.filter (fun x => v.Sees c x) := by
  -- a task keeps its job, so what was seen is seen later on
  have hkeep {c c' : Config I σ J} (hreach : Reachable m prog s c) (hstep : Step m prog c c') :
      c.log.filter (fun x => v.Sees c' x) = c.log.filter (fun x => v.Sees c x) := by
    refine List.filter_congr fun x hx => ?_
    have htask := List.getElem?_eq_getElem (hreach.owned x hx)
    obtain ⟨task', htask', hjob⟩ := hstep.keeps_job htask
    rw [decide_eq_decide, sees_iff htask, sees_iff htask', hjob]
  have hlast {c c' : Config I σ J} {i : Nat} {task : Task I J} {o : I.Op} {r : I.Res o}
      (hi : c.tasks[i]? = some task) (hstep : Step m prog c c') :
      v.Sees c' (i, ⟨o, r⟩) ↔ ¬ v.hidden task.job o := by
    obtain ⟨task', htask', hjob⟩ := hstep.keeps_job hi
    rw [sees_iff htask', hjob]
  induction h with
  | start => rfl
  | begin job h ih => exact ih.trans (hkeep h.reachable ⟨.begin job, rfl⟩).symm
  | @hidden cues obs c i job o next e h hi ho ih =>
    have hstep : Step m prog c (c.act m i job o next e) := act_step e hi
    have hlast : ¬ v.Sees (c.act m i job o next e) (i, ⟨o, (m.perform o e c.state).1⟩) :=
      fun hsees => (hlast hi hstep).mp hsees ho
    rw [ih, ← hkeep h.reachable hstep]
    unfold Config.act at hlast ⊢
    simp [hlast]
  | @act cues obs c i job o next d e h hi ho hd ih =>
    have hstep : Step m prog c (c.act m i job o next e) := act_step e hi
    have hlast : v.Sees (c.act m i job o next e) (i, ⟨o, (m.perform o e c.state).1⟩) :=
      (hlast hi hstep).mpr ho
    rw [ih, ← hkeep h.reachable hstep]
    unfold Config.act at hlast ⊢
    simp [hlast]

open Classical in
theorem Observed.mem_obs {cues : List (Cue J D)} {obs : Log I}
    (h : Observed m prog v s cues obs c) {x : Nat × Event I} :
    x ∈ obs ↔ x ∈ c.log ∧ v.Sees c x := by
  rw [h.log, List.mem_filter, decide_eq_true_iff]

/-- Every run can be observed, if every decision fits some cue. -/
theorem Reachable.observed (hfits : ∀ e s, ∃ d, v.fits d e s) (h : Reachable m prog s c) :
    ∃ cues obs, Observed m prog v s cues obs c := by
  induction h with
  | refl => exact ⟨[], [], .start⟩
  | tail _ hstep ih =>
    obtain ⟨cues, obs, hobs⟩ := ih
    obtain ⟨job, rfl⟩ | ⟨i, job, o, next, e, hi, rfl⟩ := step_cases m prog hstep
    · exact ⟨_, _, .begin job hobs⟩
    · by_cases ho : v.hidden job o
      · exact ⟨_, _, .hidden e hobs hi ho⟩
      · obtain ⟨d, hd⟩ := hfits e _
        exact ⟨_, _, .act d e hobs hi ho hd⟩

end observed

/-! ### Programs with the same visible operations -/

/-- The programs perform the same visible operations, with hidden ones in between, and return
    results in `R`; `gives` are the results that an operation can have. -/
inductive Alike (hidden : I.Op → Prop) (gives : (o : I.Op) → I.Res o → Prop) (R : α → β → Prop) :
    Program I α → Program I β → Prop where
  | pure {a b} (h : R a b) : Alike hidden gives R (.pure a) (.pure b)
  | call {o next next'} (ho : ¬ hidden o) (h : ∀ r, Alike hidden gives R (next r) (next' r)) :
      Alike hidden gives R (.call o next) (.call o next')
  | left {o next p} (ho : hidden o) (h : ∀ r, gives o r → Alike hidden gives R (next r) p) :
      Alike hidden gives R (.call o next) p
  | right {o next p} (ho : hidden o) (h : ∀ r, gives o r → Alike hidden gives R p (next r)) :
      Alike hidden gives R p (.call o next)

namespace Alike

variable {hidden : I.Op → Prop} {gives : (o : I.Op) → I.Res o → Prop} {R : α → β → Prop}
variable {p : Program I α} {p' : Program I β}

theorem symm (h : Alike hidden gives R p p') : Alike hidden gives (fun b a => R a b) p' p := by
  induction h with
  | pure h => exact .pure h
  | call ho _ ih => exact .call ho ih
  | left ho _ ih => exact .right ho ih
  | right ho _ ih => exact .left ho ih

/-- A program is like itself, if its hidden operations have no choice of a result. -/
theorem refl (hone : ∀ o, hidden o → ∀ r r', gives o r → gives o r' → r = r')
    (p : Program I α) : Alike hidden gives Eq p p := by
  induction p with
  | pure a => exact .pure rfl
  | call o next ih =>
    by_cases ho : hidden o
    · refine .left ho fun r hr => .right ho fun r' hr' => ?_
      rw [hone o ho r' r hr' hr]
      exact ih r
    · exact .call ho ih

section sequence
variable {γ δ : Type} {S : γ → δ → Prop}

theorem bind {f : α → Program I γ} {f' : β → Program I δ} (h : Alike hidden gives R p p')
    (hf : ∀ a b, R a b → Alike hidden gives S (f a) (f' b)) :
    Alike hidden gives S (p >>= f) (p' >>= f') := by
  induction h with
  | pure h => exact hf _ _ h
  | call ho _ ih => exact .call ho ih
  | left ho _ ih => exact .left ho ih
  | right ho _ ih => exact .right ho ih

/-- A visible operation on both sides. -/
theorem perform_bind {o : I.Op} {f : I.Res o → Program I γ} {f' : I.Res o → Program I δ}
    (ho : ¬ hidden o) (hf : ∀ r, Alike hidden gives S (f r) (f' r)) :
    Alike hidden gives S (Program.perform o >>= f) (Program.perform o >>= f') :=
  .call ho hf

theorem left_bind {o : I.Op} {f : I.Res o → Program I γ} {q : Program I δ} (ho : hidden o)
    (hf : ∀ r, gives o r → Alike hidden gives S (f r) q) :
    Alike hidden gives S (Program.perform o >>= f) q :=
  .left ho hf

theorem right_bind {o : I.Op} {f : I.Res o → Program I δ} {q : Program I γ} (ho : hidden o)
    (hf : ∀ r, gives o r → Alike hidden gives S q (f r)) :
    Alike hidden gives S q (Program.perform o >>= f) :=
  .right ho hf

end sequence

theorem ite {c : Prop} [Decidable c] {q : Program I α} {q' : Program I β}
    (h : Alike hidden gives R p p') (h' : Alike hidden gives R q q') :
    Alike hidden gives R (if c then p else q) (if c then p' else q') := by
  split
  · exact h
  · exact h'

theorem each {γ : Type} {body body' : γ → Program I Unit}
    (h : ∀ x, Alike hidden gives Eq (body x) (body' x)) (xs : List γ) :
    Alike hidden gives Eq (Program.each body xs) (Program.each body' xs) := by
  induction xs with
  | nil => exact .pure rfl
  | cons x xs ih => exact (h x).bind fun _ _ _ => ih

/-- A hidden operation on one side takes nothing away. -/
theorem drop_left {o : I.Op} {next : I.Res o → Program I α} (ho : hidden o)
    (h : Alike hidden gives R (.call o next) p') {r : I.Res o} (hr : gives o r) :
    Alike hidden gives R (next r) p' := by
  generalize hq : Program.call o next = q at h
  induction h with
  | pure => cases hq
  | call hvisible =>
    cases hq
    exact absurd ho hvisible
  | left _ h =>
    cases hq
    exact h r hr
  | right ho' _ ih => exact .right ho' fun r' hr' => ih r' hr' hq

theorem drop_right {o : I.Op} {next : I.Res o → Program I β} (ho : hidden o)
    (h : Alike hidden gives R p (.call o next)) {r : I.Res o} (hr : gives o r) :
    Alike hidden gives R p (next r) :=
  (h.symm.drop_left ho hr).symm

/-- Visible operations that come next are the same. -/
theorem next {o o' : I.Op} {next : I.Res o → Program I α} {next' : I.Res o' → Program I β}
    (ho : ¬ hidden o) (ho' : ¬ hidden o')
    (h : Alike hidden gives R (.call o next) (.call o' next')) :
    ∃ heq : o = o', ∀ r, Alike hidden gives R (next r) (next' (heq ▸ r)) := by
  cases h with
  | call _ h => exact ⟨rfl, h⟩
  | left hhidden => exact absurd hhidden ho
  | right hhidden => exact absurd hhidden ho'

end Alike

/-! ### Tasks in step -/

/-- Task by task, the same job with programs that are alike. -/
structure InStep (hidden : J → I.Op → Prop) (gives : (o : I.Op) → I.Res o → Prop)
    (ts ts' : List (Task I J)) : Prop where
  length : ts.length = ts'.length
  alike : ∀ (i : Nat) (t t' : Task I J), ts[i]? = some t → ts'[i]? = some t' →
    t.job = t'.job ∧ Alike (hidden t.job) gives Eq t.prog t'.prog

namespace InStep

variable {hidden : J → I.Op → Prop} {gives : (o : I.Op) → I.Res o → Prop}
variable {ts ts' : List (Task I J)} {i : Nat} {job : J} {p p' : Program I Unit}

theorem nil : InStep hidden gives ([] : List (Task I J)) [] := ⟨rfl, by simp⟩

theorem symm (h : InStep hidden gives ts ts') : InStep hidden gives ts' ts where
  length := h.length.symm
  alike i t' t ht' ht := by
    obtain ⟨hjob, halike⟩ := h.alike i t t' ht ht'
    rw [hjob] at halike
    exact ⟨hjob.symm, halike.symm⟩

/-- The task on the other side. -/
theorem get (h : InStep hidden gives ts ts') (hi : ts[i]? = some ⟨job, p⟩) :
    ∃ p', ts'[i]? = some ⟨job, p'⟩ ∧ Alike (hidden job) gives Eq p p' := by
  have hlt := (List.getElem?_eq_some_iff.mp hi).1
  rw [h.length] at hlt
  have hi' := List.getElem?_eq_getElem hlt
  obtain ⟨hjob, halike⟩ := h.alike i _ _ hi hi'
  refine ⟨ts'[i].prog, ?_, halike⟩
  rw [hi']
  dsimp only at hjob
  rw [hjob]

theorem snoc (h : InStep hidden gives ts ts') (halike : Alike (hidden job) gives Eq p p') :
    InStep hidden gives (ts ++ [⟨job, p⟩]) (ts' ++ [⟨job, p'⟩]) where
  length := by simp [h.length]
  alike i t t' ht ht' := by
    by_cases hlt : i < ts.length
    · rw [List.getElem?_append_left hlt] at ht
      rw [List.getElem?_append_left (h.length ▸ hlt)] at ht'
      exact h.alike i t t' ht ht'
    · rw [List.getElem?_append_right (Nat.not_lt.mp hlt), List.getElem?_singleton] at ht
      rw [List.getElem?_append_right (h.length ▸ Nat.not_lt.mp hlt), List.getElem?_singleton,
        ← h.length] at ht'
      split at ht
      · rename_i hzero
        rw [if_pos hzero] at ht'
        rw [← Option.some.inj ht, ← Option.some.inj ht']
        exact ⟨rfl, halike⟩
      · cases ht

theorem set (h : InStep hidden gives ts ts') (halike : Alike (hidden job) gives Eq p p') :
    InStep hidden gives (ts.set i ⟨job, p⟩) (ts'.set i ⟨job, p'⟩) where
  length := by simp [h.length]
  alike j t t' ht ht' := by
    by_cases hij : i = j
    · subst hij
      have hlt : i < ts.length := by
        rw [← List.length_set]
        exact (List.getElem?_eq_some_iff.mp ht).1
      rw [List.getElem?_set_self hlt] at ht
      rw [List.getElem?_set_self (h.length ▸ hlt)] at ht'
      rw [← Option.some.inj ht, ← Option.some.inj ht']
      exact ⟨rfl, halike⟩
    · rw [List.getElem?_set_ne hij] at ht ht'
      exact h.alike j t t' ht ht'

/-- Only the left side goes on. -/
theorem set_left (h : InStep hidden gives ts ts') (hi : ts'[i]? = some ⟨job, p'⟩)
    (halike : Alike (hidden job) gives Eq p p') : InStep hidden gives (ts.set i ⟨job, p⟩) ts' := by
  have hset := h.set (i := i) halike
  obtain ⟨hlt, hget⟩ := List.getElem?_eq_some_iff.mp hi
  rwa [← hget, List.set_getElem_self] at hset

theorem set_right (h : InStep hidden gives ts ts') (hi : ts[i]? = some ⟨job, p⟩)
    (halike : Alike (hidden job) gives Eq p p') : InStep hidden gives ts (ts'.set i ⟨job, p'⟩) :=
  (h.symm.set_left hi halike.symm).symm

end InStep

/-! ### Two systems under the same cues -/

/-- The results of the machine are among those that an operation can have. -/
def Gives (m : Machine I E σ) (gives : (o : I.Op) → I.Res o → Prop) : Prop :=
  ∀ o e s, gives o (m.perform o e s).1

/-- States in `rel` agree on all that visible operations depend on. -/
structure Coupling (m m' : Machine I E σ) (v : Observer I E D σ J) (rel : σ → σ → Prop) : Prop where
  left : ∀ job o e s s', v.hidden job o → rel s s' → rel (m.perform o e s).2 s'
  right : ∀ job o e s s', v.hidden job o → rel s s' → rel s (m'.perform o e s').2
  both : ∀ job o d e e' s s', ¬ v.hidden job o → v.fits d e s → v.fits d e' s' → rel s s' →
    (m.perform o e s).1 = (m'.perform o e' s').1 ∧ rel (m.perform o e s).2 (m'.perform o e' s').2

/-- The second system can follow the first one: it may idle in hidden operations, and can take the
    decision that is seen of the first one. -/
structure Simulation (m m' : Machine I E σ) (v : Observer I E D σ J) (rel : σ → σ → Prop) :
    Prop where
  left : ∀ job o e s s', v.hidden job o → rel s s' → rel (m.perform o e s).2 s'
  idle : ∀ job o s s', v.hidden job o → rel s s' → ∃ e', rel s (m'.perform o e' s').2
  both : ∀ job o d e s s', ¬ v.hidden job o → v.fits d e s → rel s s' → ∃ e', v.fits d e' s' ∧
    (m.perform o e s).1 = (m'.perform o e' s').1 ∧ rel (m.perform o e s).2 (m'.perform o e' s').2

/-- States in relation, and tasks in step. -/
structure Related (v : Observer I E D σ J) (gives : (o : I.Op) → I.Res o → Prop)
    (rel : σ → σ → Prop) (c c' : Config I σ J) : Prop where
  state : rel c.state c'.state
  tasks : InStep v.hidden gives c.tasks c'.tasks

section rules
variable {m m' : Machine I E σ} {v : Observer I E D σ J} {gives : (o : I.Op) → I.Res o → Prop}
variable {rel : σ → σ → Prop} {prog prog' : J → Program I Unit} {s s' : σ}
variable {cues : List (Cue J D)} {obs obs' : Log I} {c c' : Config I σ J}

section steps
variable {i : Nat} {job : J} {o : I.Op} {next : I.Res o → Program I Unit} {e : E}

/-- A new task on both sides. -/
theorem Related.begin (h : Related v gives rel c c')
    (halike : Alike (v.hidden job) gives Eq (prog job) (prog' job)) :
    Related v gives rel { c with tasks := c.tasks ++ [⟨job, prog job⟩] }
      { c' with tasks := c'.tasks ++ [⟨job, prog' job⟩] } where
  state := h.state
  tasks := h.tasks.snoc halike

/-- A hidden operation on one side. -/
theorem Related.left (h : Related v gives rel c c') (hgives : Gives m gives)
    (hstate : rel (m.perform o e c.state).2 c'.state)
    (hi : c.tasks[i]? = some ⟨job, .call o next⟩) (ho : v.hidden job o) :
    Related v gives rel (c.act m i job o next e) c' where
  state := hstate
  tasks := by
    obtain ⟨p', hi', halike⟩ := h.tasks.get hi
    exact h.tasks.set_left hi' (halike.drop_left ho (hgives o e c.state))

theorem Related.right (h : Related v gives rel c c') (hgives : Gives m' gives)
    (hstate : rel c.state (m'.perform o e c'.state).2)
    (hi : c'.tasks[i]? = some ⟨job, .call o next⟩) (ho : v.hidden job o) :
    Related v gives rel c (c'.act m' i job o next e) where
  state := hstate
  tasks := by
    obtain ⟨p, hi', halike⟩ := h.tasks.symm.get hi
    exact h.tasks.set_right hi' (halike.symm.drop_right ho (hgives o e c'.state))

/-- A visible operation on both sides. -/
theorem Related.both {e' : E} {next' : I.Res o → Program I Unit} (h : Related v gives rel c c')
    (hres : (m.perform o e c.state).1 = (m'.perform o e' c'.state).1)
    (hstate : rel (m.perform o e c.state).2 (m'.perform o e' c'.state).2)
    (hnext : ∀ r, Alike (v.hidden job) gives Eq (next r) (next' r)) :
    Related v gives rel (c.act m i job o next e) (c'.act m' i job o next' e') where
  state := hstate
  tasks := by
    unfold Config.act
    dsimp only
    rw [hres]
    exact h.tasks.set (hnext _)

end steps

/-- Two coupled systems show the same events under the same cues. -/
theorem Coupling.observed_related (hcoupling : Coupling m m' v rel) (hgives : Gives m gives)
    (hgives' : Gives m' gives)
    (hprog : ∀ job, .begin job ∈ cues → Alike (v.hidden job) gives Eq (prog job) (prog' job))
    (hstart : rel s s') (h : Observed m prog v s cues obs c)
    (h' : Observed m' prog' v s' cues obs' c') : obs = obs' ∧ Related v gives rel c c' := by
  induction h generalizing obs' c' with
  | start =>
    generalize hcues : ([] : List (Cue J D)) = l at h'
    induction h' with
    | start => exact ⟨rfl, hstart, .nil⟩
    | begin => simp at hcues
    | hidden e _ hi ho ih =>
      obtain ⟨hobs, hrel⟩ := ih hcues
      exact ⟨hobs, hrel.right hgives' (hcoupling.right _ _ e _ _ ho hrel.state) hi ho⟩
    | act => simp at hcues
  | @begin cues obs c job h ih =>
    generalize hcues : cues ++ [.begin job] = l at h'
    induction h' with
    | start => simp at hcues
    | begin job' h' =>
      obtain ⟨rfl, hlast⟩ := List.append_inj' hcues rfl
      obtain rfl : job = job' := by simpa using hlast
      obtain ⟨hobs, hrel⟩ := ih (fun j hj => hprog j (by simp [hj])) h'
      exact ⟨hobs, hrel.begin (hprog job (by simp))⟩
    | hidden e _ hi ho ih' =>
      obtain ⟨hobs, hrel⟩ := ih' hcues
      exact ⟨hobs, hrel.right hgives' (hcoupling.right _ _ e _ _ ho hrel.state) hi ho⟩
    | act => simp at hcues
  | hidden e _ hi ho ih =>
    obtain ⟨hobs, hrel⟩ := ih hprog h'
    exact ⟨hobs, hrel.left hgives (hcoupling.left _ _ e _ _ ho hrel.state) hi ho⟩
  | @act cues obs c i job o next d e h hi ho hd ih =>
    generalize hcues : cues ++ [.act i d] = l at h'
    induction h' with
    | start => simp at hcues
    | begin => simp at hcues
    | hidden e _ hi ho ih' =>
      obtain ⟨hobs, hrel⟩ := ih' hcues
      exact ⟨hobs, hrel.right hgives' (hcoupling.right _ _ e _ _ ho hrel.state) hi ho⟩
    | @act cues' obs' c' i' job' o' next' d' e' h' hi' ho' hd' =>
      obtain ⟨rfl, hlast⟩ := List.append_inj' hcues rfl
      obtain ⟨rfl, rfl⟩ : i = i' ∧ d = d' := by simpa using hlast
      obtain ⟨hobs, hrel⟩ := ih (fun j hj => hprog j (by simp [hj])) h'
      -- the two tasks are about to perform the same operation
      obtain ⟨p', hp', halike⟩ := hrel.tasks.get hi
      obtain ⟨rfl, rfl⟩ : job = job' ∧ p' = .call o' next' := by
        simpa using hp'.symm.trans hi'
      obtain ⟨rfl, hnext⟩ := halike.next ho ho'
      obtain ⟨hres, hstate⟩ := hcoupling.both job o d e e' _ _ ho hd hd' hrel.state
      exact ⟨by rw [hobs, hres], hrel.both hres hstate hnext⟩

/-- A system in step can come to the operation that is about to be seen of the other one. -/
theorem Simulation.catch_up (hsim : Simulation m m' v rel) (hgives : Gives m' gives) {i : Nat}
    {job : J} {o : I.Op} {next : I.Res o → Program I Unit} {p' : Program I Unit}
    (ho : ¬ v.hidden job o) (halike : Alike (v.hidden job) gives Eq (.call o next) p')
    (hi' : c'.tasks[i]? = some ⟨job, p'⟩)
    (hrel : Related v gives rel c c') (h' : Observed m' prog' v s' cues obs c') :
    ∃ c'' next', Observed m' prog' v s' cues obs c'' ∧ Related v gives rel c c'' ∧
      c''.tasks[i]? = some ⟨job, .call o next'⟩ ∧
      ∀ r, Alike (v.hidden job) gives Eq (next r) (next' r) := by
  generalize hq : Program.call o next = q at halike
  induction halike generalizing c' with
  | pure a => cases hq
  | call _ hnext =>
    cases hq
    exact ⟨c', _, h', hrel, hi', hnext⟩
  | left hhidden =>
    cases hq
    exact absurd hhidden ho
  | @right o' next' p ho' _ ih =>
    -- one hidden operation, and then the rest
    obtain ⟨e', hstate⟩ := hsim.idle job o' _ _ ho' hrel.state
    have hlt := (List.getElem?_eq_some_iff.mp hi').1
    exact ih _ (hgives o' e' c'.state) (List.getElem?_set_self hlt)
      (hrel.right hgives hstate hi' ho') (.hidden e' h' hi' ho') hq

/-- Whatever is seen of the first system can be seen of the second one. -/
theorem Simulation.observed_related (hsim : Simulation m m' v rel) (hgives : Gives m gives)
    (hgives' : Gives m' gives)
    (hprog : ∀ job, .begin job ∈ cues → Alike (v.hidden job) gives Eq (prog job) (prog' job))
    (hstart : rel s s') (h : Observed m prog v s cues obs c) :
    ∃ c', Observed m' prog' v s' cues obs c' ∧ Related v gives rel c c' := by
  induction h with
  | start => exact ⟨_, .start, hstart, .nil⟩
  | begin job _ ih =>
    obtain ⟨c', h', hrel⟩ := ih fun j hj => hprog j (by simp [hj])
    exact ⟨_, .begin job h', hrel.begin (hprog job (by simp))⟩
  | hidden e _ hi ho ih =>
    obtain ⟨c', h', hrel⟩ := ih hprog
    exact ⟨c', h', hrel.left hgives (hsim.left _ _ e _ _ ho hrel.state) hi ho⟩
  | @act cues obs c i job o next d e _ hi ho hd ih =>
    obtain ⟨c', h', hrel⟩ := ih fun j hj => hprog j (by simp [hj])
    obtain ⟨p', hi', halike⟩ := hrel.tasks.get hi
    obtain ⟨c'', next', h'', hrel', hi'', hnext⟩ :=
      hsim.catch_up hgives' ho halike hi' hrel h'
    obtain ⟨e', hd', hres, hstate⟩ := hsim.both job o d e _ _ ho hd hrel'.state
    rw [hres]
    exact ⟨_, .act d e' h'' hi'' ho hd', hrel'.both hres hstate hnext⟩

end rules

end Interleaving
