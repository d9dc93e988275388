import SignedPulse.Framework.Interleaving
import Mathlib.Data.List.Induction

/-! # Recorded runs

    The log of an interleaved run has the events. A record has, for every
    event, the state in which the operation was performed and what the
    environment decided, so that one can speak of what was the case at each
    moment of the run. Every reachable configuration has a record
    (`Reachable.recorded`).

    `InTurn` are the records of sequential runs: each task runs to its end
    before the next one begins.
-/

namespace Interleaving

variable {I : Interface} {E σ J : Type}

/-- Task `task` performs `op` in `state`. -/
structure Moment (I : Interface) (E σ : Type) where
  task : Nat
  state : σ
  op : I.Op
  env : E

namespace Moment

variable (m : Machine I E σ) (x : Moment I E σ)

def res : I.Res x.op := (m.perform x.op x.env x.state).1

/-- The state afterwards. -/
def after : σ := (m.perform x.op x.env x.state).2

def event : Event I := ⟨x.op, x.res m⟩

end Moment

/-- The moments of a run from `s`, latest last. -/
inductive Recorded (m : Machine I E σ) (prog : J → Program I Unit) (s : σ) :
    Config I σ J → List (Moment I E σ) → Prop where
  | start : Recorded m prog s (init s) []
  | begin {c ms} (job : J) (h : Recorded m prog s c ms) :
      Recorded m prog s { c with tasks := c.tasks ++ [⟨job, prog job⟩] } ms
  | run {c ms i job o next} (e : E) (h : Recorded m prog s c ms)
      (hi : c.tasks[i]? = some ⟨job, .call o next⟩) :
      Recorded m prog s
        { state := (m.perform o e c.state).2
          tasks := c.tasks.set i ⟨job, next (m.perform o e c.state).1⟩
          log := c.log ++ [(i, ⟨o, (m.perform o e c.state).1⟩)] }
        (ms ++ [⟨i, c.state, o, e⟩])

section records
variable {m : Machine I E σ} {prog : J → Program I Unit} {s : σ} {c : Config I σ J}
variable {ms : List (Moment I E σ)}

theorem Recorded.reachable (h : Recorded m prog s c ms) : Reachable m prog s c := by
  induction h with
  | start => exact .refl
  | begin job _ ih => exact ih.tail ⟨.begin job, rfl⟩
  | @run c ms i job o next e _ hi ih =>
    refine ih.tail ⟨.run i e, ?_⟩
    simp only [apply, hi]

theorem Reachable.recorded (h : Reachable m prog s c) :
    ∃ ms : List (Moment I E σ), Recorded m prog s c ms := by
  induction h with
  | refl => exact ⟨[], .start⟩
  | tail _ hstep ih =>
    obtain ⟨ms, hms⟩ := ih
    obtain ⟨job, rfl⟩ | ⟨i, job, o, next, e, hi, rfl⟩ := step_cases m prog hstep
    · exact ⟨ms, .begin job hms⟩
    · exact ⟨_, .run e hms hi⟩

/-- The events of the record are the log. -/
theorem Recorded.log (h : Recorded m prog s c ms) :
    c.log = ms.map (fun x => (x.task, x.event m)) := by
  induction h with
  | start => rfl
  | begin job _ ih => exact ih
  | run e _ _ ih =>
    rw [List.map_append, ← ih]
    rfl

/-- A moment of the record, and the configuration in which it came about. -/
theorem Recorded.split {pre post : List (Moment I E σ)} {x : Moment I E σ}
    (h : Recorded m prog s c (pre ++ x :: post)) :
    ∃ c' job next, Recorded m prog s c' pre ∧ c'.state = x.state ∧
      c'.tasks[x.task]? = some ⟨job, .call x.op next⟩ := by
  obtain ⟨ms, hms⟩ : ∃ ms, pre ++ x :: post = ms := ⟨_, rfl⟩
  rw [hms] at h
  induction h generalizing post with
  | start => simp at hms
  | begin job _ ih => exact ih hms
  | @run c ms i job o next e hrec hi ih =>
    rcases snoc_eq_split hms.symm with ⟨rfl, rfl, -⟩ | ⟨post', -, hold⟩
    · exact ⟨c, job, next, hrec, rfl, hi⟩
    · exact ih hold.symm

/-- The events of task `i`. -/
def done_by (m : Machine I E σ) (i : Nat) (ms : List (Moment I E σ)) : List (Event I) :=
  (ms.filter (fun x => x.task = i)).map (fun x => x.event m)

@[simp] theorem done_by_nil (i : Nat) : done_by m i [] = [] := rfl

theorem done_by_append (i : Nat) (ms ms' : List (Moment I E σ)) :
    done_by m i (ms ++ ms') = done_by m i ms ++ done_by m i ms' := by
  simp [done_by]

theorem done_by_snoc_self (ms : List (Moment I E σ)) (x : Moment I E σ) :
    done_by m x.task (ms ++ [x]) = done_by m x.task ms ++ [x.event m] := by
  simp [done_by]

theorem done_by_snoc_ne {i : Nat} {x : Moment I E σ} (h : x.task ≠ i)
    (ms : List (Moment I E σ)) : done_by m i (ms ++ [x]) = done_by m i ms := by
  simp [done_by, h]

theorem mem_done_by {i : Nat} {ev : Event I} :
    ev ∈ done_by m i ms ↔ ∃ x ∈ ms, x.task = i ∧ x.event m = ev := by
  simp [done_by, and_assoc]

theorem own_events (i : Nat) (ms : List (Moment I E σ)) :
    own i (ms.map (fun x => (x.task, x.event m))) = done_by m i ms := by
  simp [own, done_by, List.filter_map, Function.comp_def]

theorem Recorded.mem_log (h : Recorded m prog s c ms) {i : Nat} {ev : Event I} :
    (i, ev) ∈ c.log ↔ ev ∈ done_by m i ms := by
  rw [← mem_own, h.log, own_events]

/-- Every event of the record meets the demand of its task, given the task's earlier events. -/
theorem Recorded.guarded_at {P : J → List (Event I) → Event I → Prop}
    (hprog : ∀ job, (prog job).wp (Program.histories (P job)) (fun _ _ => True) [])
    {pre post : List (Moment I E σ)} {x : Moment I E σ}
    (h : Recorded m prog s c (pre ++ x :: post)) :
    ∃ task, c.tasks[x.task]? = some task ∧ P task.job (done_by m x.task pre) (x.event m) := by
  have hlog := h.log
  rw [List.map_append, List.map_cons] at hlog
  obtain ⟨task, htask, hP⟩ := h.reachable.event_guarded hprog hlog
  rw [own_events] at hP
  exact ⟨task, htask, hP⟩

theorem Recorded.guarded {P : J → List (Event I) → Event I → Prop}
    (hprog : ∀ job, (prog job).wp (Program.histories (P job)) (fun _ _ => True) [])
    (h : Recorded m prog s c ms) {x : Moment I E σ} (hx : x ∈ ms) :
    ∃ task evs, c.tasks[x.task]? = some task ∧ P task.job evs (x.event m) := by
  obtain ⟨pre, post, rfl⟩ := List.append_of_mem hx
  obtain ⟨task, htask, hP⟩ := h.guarded_at hprog
  exact ⟨task, _, htask, hP⟩

/-- What a task demands to be the first of its kind, it does once. -/
theorem Recorded.once {P : J → List (Event I) → Event I → Prop} {p : Moment I E σ → Bool}
    (hprog : ∀ job, (prog job).wp (Program.histories (P job)) (fun _ _ => True) [])
    (hfirst : ∀ job h x y, P job h (x.event m) → p x = true → p y = true → y.event m ∉ h)
    (h : Recorded m prog s c ms) : ((ms.filter p).map (fun x => x.task)).Nodup := by
  induction h with
  | start => exact .nil
  | begin job _ ih => exact ih
  | @run c ms i job o next e hrec hi ih =>
    rw [List.filter_append, List.map_append]
    cases hp : p ⟨i, c.state, o, e⟩ with
    | false => simpa [hp] using ih
    | true =>
      have hlast : [(⟨i, c.state, o, e⟩ : Moment I E σ)].filter p = [⟨i, c.state, o, e⟩] := by
        simp [hp]
      rw [hlast]
      refine List.nodup_append.mpr ⟨ih, by simp, ?_⟩
      rintro j hj k hk rfl
      obtain ⟨y, hy, rfl⟩ := List.mem_map.mp hj
      obtain ⟨hmem, hpy⟩ := List.mem_filter.mp hy
      obtain rfl : y.task = i := by simpa using hk
      -- the earlier event is in the history of the task
      have hown : y.event m ∈ own y.task c.log := by
        rw [mem_own, hrec.log]
        exact List.mem_map.mpr ⟨y, hmem, rfl⟩
      exact hfirst job _ ⟨y.task, c.state, o, e⟩ y
        (Reachable.next_guarded hprog hrec.reachable hi _) hp hpy hown

/-- A part of the record from its beginning is a record. -/
theorem Recorded.initial {pre post : List (Moment I E σ)}
    (h : Recorded m prog s c (pre ++ post)) : ∃ c', Recorded m prog s c' pre := by
  cases post with
  | nil => exact ⟨c, by simpa using h⟩
  | cons x post =>
    obtain ⟨c', _, _, hrec, -, -⟩ := h.split
    exact ⟨c', hrec⟩

/-- The latest moment, and what was recorded before it. -/
theorem Recorded.latest {x : Moment I E σ} (h : Recorded m prog s c (ms ++ [x])) :
    c.state = x.after m ∧ ∃ c', Recorded m prog s c' ms ∧ c'.state = x.state := by
  obtain ⟨l, hl⟩ : ∃ l, ms ++ [x] = l := ⟨_, rfl⟩
  rw [hl] at h
  induction h with
  | start => simp at hl
  | begin job _ ih => exact ih hl
  | @run c ms' i job o next e hrec hi ih =>
    obtain ⟨rfl, rfl⟩ : ms = ms' ∧ x = ⟨i, c.state, o, e⟩ := by simpa using List.append_inj' hl rfl
    exact ⟨rfl, c, hrec, rfl⟩

theorem Recorded.state_of_nil (h : Recorded m prog s c []) : c.state = s := by
  obtain ⟨ms, hms⟩ : ∃ ms : List (Moment I E σ), ms = [] := ⟨[], rfl⟩
  rw [← hms] at h
  induction h with
  | start => rfl
  | begin job _ ih => exact ih hms
  | run e _ _ _ => simp at hms

/-- The record tells the state. -/
theorem Recorded.state_eq {c' : Config I σ J} (h : Recorded m prog s c ms)
    (h' : Recorded m prog s c' ms) : c.state = c'.state := by
  cases ms using List.reverseRecOn with
  | nil => rw [h.state_of_nil, h'.state_of_nil]
  | append_singleton ms x => rw [h.latest.1, h'.latest.1]

/-- What holds in the beginning and is kept by each moment holds in the end. -/
theorem Recorded.induction (Inv : σ → List (Moment I E σ) → Prop) (h0 : Inv s [])
    (hstep : ∀ c ms x, Recorded m prog s c ms → c.state = x.state → Inv x.state ms →
      Inv (x.after m) (ms ++ [x])) (h : Recorded m prog s c ms) : Inv c.state ms := by
  induction h with
  | start => exact h0
  | begin job _ ih => exact ih
  | @run c ms i job o next e hrec _ ih => exact hstep c ms ⟨i, c.state, o, e⟩ hrec rfl ih

/-- An invariant of a whole record may use, at each moment, all that the record says of it. -/
theorem Recorded.along (Inv : σ → List (Moment I E σ) → Prop) (h0 : Inv s [])
    (hstep : ∀ pre x post, ms = pre ++ x :: post → Inv x.state pre →
      Inv (x.after m) (pre ++ [x])) (h : Recorded m prog s c ms) : Inv c.state ms := by
  refine h.induction (fun st l => l <+: ms → Inv st l) (fun _ => h0) ?_ List.prefix_rfl
  rintro c' pre x - - ih ⟨post, hpost⟩
  have hsplit : ms = pre ++ x :: post := by simpa using hpost.symm
  exact hstep pre x post hsplit (ih ⟨x :: post, hsplit.symm⟩)

/-! ### Demands on all moments -/

/-- Every moment meets the demand, given the moments before it. -/
def Throughout (P : List (Moment I E σ) → Moment I E σ → Prop) (ms : List (Moment I E σ)) : Prop :=
  ∀ pre x post, ms = pre ++ x :: post → P pre x

theorem Throughout.initial {P : List (Moment I E σ) → Moment I E σ → Prop}
    {pre post : List (Moment I E σ)} (h : Throughout P (pre ++ post)) : Throughout P pre := by
  intro pre' x post' hsplit
  exact h pre' x (post' ++ post) (by simp [hsplit])

theorem Throughout.latest {P : List (Moment I E σ) → Moment I E σ → Prop} {x : Moment I E σ}
    (h : Throughout P (ms ++ [x])) : P ms x :=
  h ms x [] rfl

/-- A demand that holds at every position of the list holds throughout. -/
theorem throughout_of_take {P : List (Moment I E σ) → Moment I E σ → Prop}
    (h : ∀ k x, ms[k]? = some x → P (ms.take k) x) : Throughout P ms := by
  rintro pre x post rfl
  have hk := h pre.length x (by simp)
  rwa [List.take_left' rfl] at hk

/-! ### Tasks that have ended -/

/-- The task has nothing left to do. -/
def Task.ended (t : Task I J) : Bool :=
  match t.prog with
  | .pure _ => true
  | .call .. => false

def AllEnded (c : Config I σ J) : Prop := ∀ t ∈ c.tasks, t.ended = true

instance (c : Config I σ J) : Decidable (AllEnded c) :=
  inferInstanceAs (Decidable (∀ t ∈ c.tasks, _))

theorem Task.prog_of_ended {t : Task I J} (h : t.ended = true) : t.prog = .pure () := by
  unfold Task.ended at h
  split at h
  · assumption
  · cases h

/-- A task that has ended has met its postcondition. -/
theorem Recorded.ended_meets {P : J → List (Event I) → Event I → Prop}
    {Q : J → List (Event I) → Prop}
    (hprog : ∀ job, (prog job).wp (Program.histories (P job)) (fun _ => Q job) [])
    (h : Recorded m prog s c ms) {i : Nat} {task : Task I J} (hi : c.tasks[i]? = some task)
    (hend : task.ended = true) : Q task.job (done_by m i ms) := by
  have hrest := h.reachable.task_guarded hprog hi
  rw [Task.prog_of_ended hend, h.log, own_events] at hrest
  exact hrest

/-- A task that has ended, with favourable results only, has met its postcondition. -/
theorem Recorded.ended_favoured {G : Event I → Prop} {Q : List (Event I) → Prop} {i : Nat}
    {task : Task I J} (hprog : (prog task.job).wp (Program.favoured G) (fun _ => Q) [])
    (h : Recorded m prog s c ms) (hi : c.tasks[i]? = some task) (hend : task.ended = true)
    (hG : ∀ ev ∈ done_by m i ms, G ev) : Q (done_by m i ms) := by
  -- of the other jobs nothing is said
  have hall (job : J) : (prog job).wp (Program.histories (fun _ _ => True))
      (fun _ h' => job = task.job → (∀ ev ∈ h', G ev) → Q h') [] := by
    by_cases hjob : job = task.job
    · subst hjob
      refine Program.wp_mono ?_ (Program.wp_histories_of_favoured hprog)
      rintro _ _ ⟨l, rfl, hQ⟩ - hl
      exact hQ hl
    · refine Program.wp_mono (fun _ _ _ hsame => absurd hsame hjob)
        (Program.wp_of_uses (P := fun _ => True) (J := fun _ => True) ?_ ?_ trivial)
      · rintro _ o r _ - - -
        exact ⟨trivial, trivial⟩
      · exact Program.uses_true _
  exact h.ended_meets hall hi hend rfl hG

/-! ### Sequential runs -/

/-- Each task runs to its end before the next one begins: what was done is in the order of the
    tasks, and only the latest one may be under way. -/
structure InTurn (c : Config I σ J) (ms : List (Moment I E σ)) : Prop where
  sorted : ms.Pairwise (fun x y => x.task ≤ y.task)
  finished : ∀ i task, i + 1 < c.tasks.length → c.tasks[i]? = some task → task.ended = true

/-- When all tasks have ended, the order of what was done is all there is to a sequential run. -/
theorem InTurn.of_ended {c : Config I σ J} {ms : List (Moment I E σ)}
    (hsorted : ms.Pairwise (fun x y => x.task ≤ y.task)) (hend : AllEnded c) : InTurn c ms where
  sorted := hsorted
  finished _ task _ hi := hend task (List.mem_of_getElem? hi)

end records

/-! ### Computing records -/

section compute
variable (m : Machine I E σ) (prog : J → Program I Unit)

/-- Apply a list of labels and record the moments. -/
def record : Config I σ J × List (Moment I E σ) → List (Label E J) →
    Option (Config I σ J × List (Moment I E σ))
  | t, [] => some t
  | t, .begin job :: ls =>
    record ({ t.1 with tasks := t.1.tasks ++ [⟨job, prog job⟩] }, t.2) ls
  | t, .run i e :: ls =>
    match t.1.tasks[i]? with
    | some ⟨job, .call o next⟩ =>
      let r := m.perform o e t.1.state
      record ({ state := r.2
                tasks := t.1.tasks.set i ⟨job, next r.1⟩
                log := t.1.log ++ [(i, ⟨o, r.1⟩)] },
        t.2 ++ [⟨i, t.1.state, o, e⟩]) ls
    | _ => none

variable {m prog}

theorem record_sound {s : σ} {t r : Config I σ J × List (Moment I E σ)} {ls : List (Label E J)}
    (ht : Recorded m prog s t.1 t.2) (h : record m prog t ls = some r) :
    Recorded m prog s r.1 r.2 := by
  induction ls generalizing t with
  | nil =>
    rw [← Option.some.inj h]
    exact ht
  | cons l ls ih =>
    cases l with
    | begin job => exact ih (t := (_, t.2)) (.begin job ht) h
    | run i e =>
      simp only [record] at h
      split at h
      · rename_i job o next hi
        exact ih (t := (_, _)) (.run e ht hi) h
      · cases h

/-- Recording goes on from the moments that are there. -/
theorem record_extends {t r : Config I σ J × List (Moment I E σ)} {ls : List (Label E J)}
    (h : record m prog t ls = some r) : r.2 = t.2 ++ r.2.drop t.2.length := by
  suffices hprefix : t.2 <+: r.2 by
    obtain ⟨post, hpost⟩ := hprefix
    rw [← hpost, List.drop_left]
  induction ls generalizing t with
  | nil =>
    have hr : t = r := Option.some.inj h
    exact hr ▸ List.prefix_rfl
  | cons l ls ih =>
    cases l with
    | begin job =>
      simp only [record] at h
      have hrest := ih h
      exact hrest
    | run i e =>
      simp only [record] at h
      split at h
      · exact (List.prefix_append _ _).trans (ih h)
      · cases h

end compute

end Interleaving
