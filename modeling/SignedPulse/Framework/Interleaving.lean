import SignedPulse.Framework.Program
import Mathlib.Logic.Relation

/-! # Interleaved tasks

    Any number of tasks run their programs against one machine. The
    environment decides when a task begins and which task performs its next
    operation; `log` records every event with the task it belongs to.

    `Reachable.event_guarded` and `Reachable.invariant` are the two rules for
    such systems: a demand that every program meets on its own (a `wp` over
    `histories`) holds of every event of every run, and an invariant of the
    shared state may use it at each step.
-/

/-- Performs operations on a state; `E` is what the environment decides at each of them. -/
structure Machine (I : Interface) (E σ : Type) where
  perform : (o : I.Op) → E → σ → I.Res o × σ

namespace Interleaving

variable {I : Interface} {E σ J : Type}

structure Task (I : Interface) (J : Type) where
  job : J
  prog : Program I Unit

/-- Events with the index of the task that performed them. -/
abbrev Log (I : Interface) := List (Nat × Event I)

structure Config (I : Interface) (σ J : Type) where
  state : σ
  tasks : List (Task I J)
  log : Log I

inductive Label (E J : Type) where
  /-- A new task. -/
  | begin (job : J)
  /-- Task `i` performs its next operation. -/
  | run (i : Nat) (e : E)

/-- The events of task `i`. -/
def own (i : Nat) (log : Log I) : List (Event I) :=
  (log.filter (fun x => x.1 = i)).map (fun x => x.2)

@[simp] theorem own_nil (i : Nat) : own i ([] : Log I) = [] := rfl

theorem own_append (i : Nat) (l l' : Log I) : own i (l ++ l') = own i l ++ own i l' := by
  simp [own]

theorem own_snoc_self (i : Nat) (l : Log I) (ev : Event I) :
    own i (l ++ [(i, ev)]) = own i l ++ [ev] := by
  simp [own]

theorem own_snoc_ne {i j : Nat} (h : j ≠ i) (l : Log I) (ev : Event I) :
    own i (l ++ [(j, ev)]) = own i l := by
  simp [own, h]

theorem mem_own {i : Nat} {l : Log I} {ev : Event I} : ev ∈ own i l ↔ (i, ev) ∈ l := by
  simp [own]

/-! ### Steps -/

section steps
variable (m : Machine I E σ) (prog : J → Program I Unit)

def init (s : σ) : Config I σ J := { state := s, tasks := [], log := [] }

def apply (c : Config I σ J) : Label E J → Option (Config I σ J)
  | .begin job => some { c with tasks := c.tasks ++ [⟨job, prog job⟩] }
  | .run i e =>
    match c.tasks[i]? with
    | some ⟨job, .call o next⟩ =>
      let r := m.perform o e c.state
      some { state := r.2
             tasks := c.tasks.set i ⟨job, next r.1⟩
             log := c.log ++ [(i, ⟨o, r.1⟩)] }
    | _ => none

def Step (c c' : Config I σ J) : Prop := ∃ l, apply m prog c l = some c'

/-- What a step can do. -/
theorem step_cases {c c' : Config I σ J} (h : Step m prog c c') :
    (∃ job, c' = { c with tasks := c.tasks ++ [⟨job, prog job⟩] }) ∨
    (∃ i job o next e, c.tasks[i]? = some ⟨job, .call o next⟩ ∧
      c' = { state := (m.perform o e c.state).2
             tasks := c.tasks.set i ⟨job, next (m.perform o e c.state).1⟩
             log := c.log ++ [(i, ⟨o, (m.perform o e c.state).1⟩)] }) := by
  obtain ⟨l, hl⟩ := h
  cases l with
  | begin job => exact .inl ⟨job, (Option.some.inj hl).symm⟩
  | run i e =>
    simp only [apply] at hl
    split at hl
    · rename_i job o next htask
      exact .inr ⟨i, job, o, next, e, htask, (Option.some.inj hl).symm⟩
    · cases hl

/-- Running a task adds one event to the log. -/
theorem apply_run_log {c c' : Config I σ J} {i : Nat} {e : E}
    (h : apply m prog c (.run i e) = some c') : ∃ ev, c'.log = c.log ++ [(i, ev)] := by
  simp only [apply] at h
  split at h
  · rw [← Option.some.inj h]
    exact ⟨_, rfl⟩
  · cases h

def Reachable (s : σ) (c : Config I σ J) : Prop :=
  Relation.ReflTransGen (Step m prog) (init s) c

/-- Apply a list of labels. -/
def run (c : Config I σ J) : List (Label E J) → Option (Config I σ J)
  | [] => some c
  | l :: ls => (apply m prog c l).bind (fun c' => run c' ls)

theorem reachable_of_run {c c' : Config I σ J} {ls : List (Label E J)}
    (h : run m prog c ls = some c') : Relation.ReflTransGen (Step m prog) c c' := by
  induction ls generalizing c with
  | nil => rw [Option.some.inj h]
  | cons l ls ih =>
    obtain ⟨c₁, hl, hrest⟩ := Option.bind_eq_some_iff.mp h
    exact .head ⟨l, hl⟩ (ih hrest)

end steps

/-! ### Rules -/

section rules
variable {m : Machine I E σ} {prog : J → Program I Unit} {s : σ} {c : Config I σ J}
variable {P : J → List (Event I) → Event I → Prop}

/-- Every event belongs to a task that has begun. -/
theorem Reachable.owned (h : Reachable m prog s c) : ∀ x ∈ c.log, x.1 < c.tasks.length := by
  induction h with
  | refl => simp [init]
  | tail _ hstep ih =>
    obtain ⟨job, rfl⟩ | ⟨i, job, o, next, e, hi, rfl⟩ := step_cases m prog hstep
    · intro x hx
      have := ih x hx
      simp only [List.length_append, List.length_singleton]
      omega
    · intro x hx
      rw [List.length_set]
      rcases List.mem_append.mp hx with hx | hx
      · exact ih x hx
      · rw [List.mem_singleton.mp hx]
        exact (List.getElem?_eq_some_iff.mp hi).1

/-- What is left of a task still meets the demand, given the events of the task so far. -/
theorem Reachable.task_guarded {Q : J → List (Event I) → Prop}
    (hprog : ∀ job, (prog job).wp (Program.histories (P job)) (fun _ => Q job) [])
    (h : Reachable m prog s c) {i : Nat} {task : Task I J} (hi : c.tasks[i]? = some task) :
    task.prog.wp (Program.histories (P task.job)) (fun _ => Q task.job) (own i c.log) := by
  induction h generalizing i task with
  | refl => simp [init] at hi
  | tail hreach hstep ih =>
    rename_i c₁ c₂
    obtain ⟨job, rfl⟩ | ⟨j, job, o, next, e, hj, rfl⟩ := step_cases m prog hstep
    · dsimp only at hi ⊢
      by_cases hlt : i < c₁.tasks.length
      · rw [List.getElem?_append_left hlt] at hi
        exact ih hi
      · -- the new task has no events yet
        have hfresh : own i c₁.log = [] := by
          unfold own
          rw [List.map_eq_nil_iff, List.filter_eq_nil_iff]
          intro x hx
          have := Reachable.owned hreach x hx
          simp only [decide_eq_true_eq]
          omega
        rw [List.getElem?_append_right (Nat.not_lt.mp hlt)] at hi
        obtain ⟨_, htask⟩ := List.getElem?_eq_some_iff.mp hi
        rw [List.getElem_singleton] at htask
        rw [hfresh, ← htask]
        exact hprog job
    · dsimp only at hi ⊢
      by_cases hij : j = i
      · -- the task that has taken the step
        subst hij
        have hlt := (List.getElem?_eq_some_iff.mp hj).1
        rw [List.getElem?_set_self hlt] at hi
        rw [← Option.some.inj hi, own_snoc_self]
        exact ((ih hj) _ _ rfl).2
      · rw [List.getElem?_set_ne hij] at hi
        rw [own_snoc_ne hij]
        exact ih hi

/-- The event a task performs next meets the demand. -/
theorem Reachable.next_guarded
    (hprog : ∀ job, (prog job).wp (Program.histories (P job)) (fun _ _ => True) [])
    (h : Reachable m prog s c) {i : Nat} {job : J} {o : I.Op} {next : I.Res o → Program I Unit}
    (hi : c.tasks[i]? = some ⟨job, .call o next⟩) (r : I.Res o) : P job (own i c.log) ⟨o, r⟩ :=
  (Reachable.task_guarded (Q := fun _ _ => True) hprog h hi r _ rfl).1

/-- A task keeps its job. -/
theorem Step.keeps_job {c c' : Config I σ J} (h : Step m prog c c') {i : Nat} {task : Task I J}
    (hi : c.tasks[i]? = some task) : ∃ task', c'.tasks[i]? = some task' ∧ task'.job = task.job := by
  have hlt := (List.getElem?_eq_some_iff.mp hi).1
  obtain ⟨job, rfl⟩ | ⟨j, job, o, next, e, hj, rfl⟩ := step_cases m prog h
  · exact ⟨task, by rw [List.getElem?_append_left hlt, hi], rfl⟩
  · by_cases hij : j = i
    · -- only the rest of the program changes
      subst hij
      rw [hj] at hi
      exact ⟨_, List.getElem?_set_self hlt, by rw [← Option.some.inj hi]⟩
    · exact ⟨task, by rw [List.getElem?_set_ne hij, hi], rfl⟩

/-- A position of a list that has grown by one is the last one or a position of the old list. -/
theorem snoc_eq_split {α : Type} {l pre post : List α} {x y : α}
    (h : l ++ [x] = pre ++ y :: post) :
    (l = pre ∧ x = y ∧ post = []) ∨ ∃ post', post = post' ++ [x] ∧ l = pre ++ y :: post' := by
  rcases List.eq_nil_or_concat post with rfl | ⟨post', z, rfl⟩
  · obtain ⟨hl, hx⟩ := List.append_inj' h rfl
    exact .inl ⟨hl, by simpa using hx, rfl⟩
  · rw [List.concat_eq_append] at h ⊢
    have h' : l ++ [x] = (pre ++ y :: post') ++ [z] := by simpa using h
    obtain ⟨hl, hx⟩ := List.append_inj' h' rfl
    obtain rfl : x = z := by simpa using hx
    exact .inr ⟨post', rfl, hl⟩

/-- Every event of a run meets the demand of its task, given the task's earlier events. -/
theorem Reachable.event_guarded
    (hprog : ∀ job, (prog job).wp (Program.histories (P job)) (fun _ _ => True) [])
    (h : Reachable m prog s c) {pre post : Log I} {i : Nat} {ev : Event I}
    (hlog : c.log = pre ++ (i, ev) :: post) :
    ∃ task, c.tasks[i]? = some task ∧ P task.job (own i pre) ev := by
  induction h generalizing post with
  | refl => simp [init] at hlog
  | tail hreach hstep ih =>
    rename_i c₁ c₂
    -- an event that was there before keeps its task
    have hkeep {post'} (hold : c₁.log = pre ++ (i, ev) :: post') :
        ∃ task, c₂.tasks[i]? = some task ∧ P task.job (own i pre) ev := by
      obtain ⟨task, hi, hP⟩ := ih hold
      obtain ⟨task', hi', hjob⟩ := Step.keeps_job hstep hi
      exact ⟨task', hi', hjob ▸ hP⟩
    have hcases := step_cases m prog hstep
    rcases hcases with ⟨job, hc⟩ | ⟨j, job, o, next, e, hj, hc⟩
    · rw [hc] at hlog
      exact hkeep hlog
    · rw [hc] at hlog
      rcases snoc_eq_split hlog with ⟨hpre, hev, -⟩ | ⟨post', -, hold⟩
      · -- the new event meets the demand of the program that performs it
        obtain ⟨rfl, rfl⟩ := Prod.mk.inj hev
        obtain ⟨task', hi', hjob⟩ := Step.keeps_job hstep hj
        refine ⟨task', hi', ?_⟩
        rw [hjob, ← hpre]
        exact Reachable.next_guarded hprog hreach hj _
      · exact hkeep hold

theorem take_cons_drop {α : Type} {l : List α} {k : Nat} {x : α} (h : l[k]? = some x) :
    l = l.take k ++ x :: l.drop (k + 1) := by
  obtain ⟨hlt, hx⟩ := List.getElem?_eq_some_iff.mp h
  rw [← hx, ← List.drop_eq_getElem_cons hlt, List.take_append_drop]

/-- The event at a position of the log meets the demand, given the task's events before it. -/
theorem Reachable.guarded_at
    (hprog : ∀ job, (prog job).wp (Program.histories (P job)) (fun _ _ => True) [])
    (h : Reachable m prog s c) {k i : Nat} {ev : Event I} (hk : c.log[k]? = some (i, ev)) :
    ∃ task, c.tasks[i]? = some task ∧ P task.job (own i (c.log.take k)) ev :=
  Reachable.event_guarded hprog h (take_cons_drop hk)

/-- An earlier event of the same task is in its history. -/
theorem mem_own_take {l : Log I} {k k' i : Nat} {ev : Event I} (hk : l[k]? = some (i, ev))
    (hlt : k < k') : ev ∈ own i (l.take k') := by
  rw [mem_own]
  exact List.mem_of_getElem? ((List.getElem?_take_of_lt hlt).trans hk)

/-- Invariant rule: each step may use the demand its event meets. -/
theorem Reachable.invariant (Inv : σ → Log I → Prop)
    (hprog : ∀ job, (prog job).wp (Program.histories (P job)) (fun _ _ => True) [])
    (h0 : Inv s [])
    (hstep : ∀ st l i job o e, Inv st l → P job (own i l) ⟨o, (m.perform o e st).1⟩ →
      Inv (m.perform o e st).2 (l ++ [(i, ⟨o, (m.perform o e st).1⟩)]))
    (h : Reachable m prog s c) : Inv c.state c.log := by
  induction h with
  | refl => exact h0
  | tail hreach hnext ih =>
    rename_i c₁ c₂
    obtain ⟨job, rfl⟩ | ⟨i, job, o, next, e, hi, rfl⟩ := step_cases m prog hnext
    · exact ih
    · exact hstep _ _ i job o e ih (Reachable.next_guarded hprog hreach hi _)

end rules

end Interleaving
