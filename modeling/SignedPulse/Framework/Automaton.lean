import SignedPulse.Framework.Record

/-! # Tasks that follow an automaton

    An automaton reads the events of one task and says which events may come
    next. A program is checked against it on its own (`Accepts`, a `wp`); in
    every run of interleaved tasks each task is then at some stage of the
    automaton (`stage`), and takes no step that the automaton does not allow.

    `Recorded.invariant` is the invariant rule: each step may use the stage of
    the task that takes it.
-/

/-- `next` is `none` for an event that may not come. -/
structure Automaton (I : Interface) (Q : Type) where
  start : Q
  next : Q → Event I → Option Q
  final : Q → Prop

namespace Automaton

open Interleaving Program

variable {I : Interface} {E σ J Q α β : Type} (A : Automaton I Q)

def advance (q : Q) (ev : Event I) : Q := (A.next q ev).getD q

/-- The stage after some events. -/
def walk (evs : List (Event I)) : Q := evs.foldl A.advance A.start

/-- The surroundings in which every event has to be allowed. -/
def follow : Surroundings I Q where
  step q o r q' := q' = A.advance q ⟨o, r⟩
  must q ev := (A.next q ev).isSome

/-- The automaton follows the program from its beginning to its end. -/
def Accepts (p : Program I Unit) : Prop := p.wp A.follow (fun _ q => A.final q) A.start

/-- The stage of task `i` after the moments. -/
def stage (m : Machine I E σ) (i : Nat) (ms : List (Moment I E σ)) : Q :=
  A.walk (done_by m i ms)

variable {A} {m : Machine I E σ} {prog : J → Program I Unit} {s : σ} {c : Config I σ J}
variable {ms : List (Moment I E σ)} {q : Q}

theorem advance_of_next {q' : Q} {ev : Event I} (h : A.next q ev = some q') :
    A.advance q ev = q' := by
  unfold advance
  rw [h]
  rfl

/-! ### Stages -/

@[simp] theorem stage_nil (i : Nat) : A.stage m i [] = A.start := rfl

theorem stage_snoc_self (ms : List (Moment I E σ)) (x : Moment I E σ) :
    A.stage m x.task (ms ++ [x]) = A.advance (A.stage m x.task ms) (x.event m) := by
  unfold stage walk
  rw [done_by_snoc_self, List.foldl_concat]

theorem stage_snoc_ne {i : Nat} (ms : List (Moment I E σ)) {x : Moment I E σ} (h : x.task ≠ i) :
    A.stage m i (ms ++ [x]) = A.stage m i ms := by
  unfold stage
  rw [done_by_snoc_ne h]

/-! ### Programs -/

theorem wp_follow_perform_bind {o : I.Op} {f : I.Res o → Program I β} {Q' : β → Q → Prop} :
    (perform o >>= f).wp A.follow Q' q ↔
      ∀ r, (A.next q ⟨o, r⟩).isSome ∧ (f r).wp A.follow Q' (A.advance q ⟨o, r⟩) := by
  rw [wp_perform_bind]
  constructor
  · intro h r
    exact h r _ rfl
  · rintro h r _ rfl
    exact h r

/-- One operation that the automaton allows whatever its result is. -/
theorem wp_follow_call {o : I.Op} {f : I.Res o → Program I β} {Q' : β → Q → Prop}
    (next : I.Res o → Q) (hnext : ∀ r, A.next q ⟨o, r⟩ = some (next r))
    (hf : ∀ r, (f r).wp A.follow Q' (next r)) : (perform o >>= f).wp A.follow Q' q := by
  rw [wp_follow_perform_bind]
  intro r
  rw [advance_of_next (hnext r), hnext r]
  exact ⟨rfl, hf r⟩

/-- Operations that the automaton takes no notice of. -/
theorem wp_follow_of_uses {P : I.Op → Prop} (hquiet : ∀ q o r, P o → A.next q ⟨o, r⟩ = some q)
    {p : Program I α} (hp : p.Uses P) : p.wp A.follow (fun _ q' => q' = q) q := by
  have hstep : ∀ t o r t', P o → t = q → A.follow.step t o r t' →
      A.follow.must t ⟨o, r⟩ ∧ t' = q := by
    intro t o r t' ho ht ht'
    subst ht
    have hnext := hquiet t o r ho
    have hmust : (A.next t ⟨o, r⟩).isSome = true := by rw [hnext]; rfl
    exact ⟨hmust, by rw [ht', advance_of_next hnext]⟩
  exact wp_of_uses hstep hp rfl

/-! ### Paths -/

/-- The automaton goes from one stage to another with these events. -/
def Path (A : Automaton I Q) : Q → List (Event I) → Q → Prop
  | q, [], q' => q = q'
  | q, ev :: evs, q' => ∃ q₁, A.next q ev = some q₁ ∧ A.Path q₁ evs q'

theorem path_append {q q' : Q} {evs evs' : List (Event I)} :
    A.Path q (evs ++ evs') q' ↔ ∃ q₁, A.Path q evs q₁ ∧ A.Path q₁ evs' q' := by
  induction evs generalizing q with
  | nil =>
    constructor
    · intro h
      exact ⟨q, rfl, h⟩
    · intro ⟨q₁, heq, h⟩
      rwa [show q = q₁ from heq]
  | cons ev evs ih =>
    constructor
    · intro ⟨q₁, hnext, h⟩
      obtain ⟨q₂, h₁, h₂⟩ := ih.mp h
      exact ⟨q₂, ⟨q₁, hnext, h₁⟩, h₂⟩
    · intro ⟨q₂, ⟨q₁, hnext, h₁⟩, h₂⟩
      exact ⟨q₁, hnext, ih.mpr ⟨q₂, h₁, h₂⟩⟩

theorem Path.foldl {q q' : Q} {evs : List (Event I)} (h : A.Path q evs q') :
    evs.foldl A.advance q = q' := by
  induction evs generalizing q with
  | nil => exact h
  | cons ev evs ih =>
    obtain ⟨q₁, hnext, hrest⟩ := h
    rw [List.foldl_cons, advance_of_next hnext]
    exact ih hrest

/-- What every step keeps is kept. -/
theorem Path.kept {φ : Q → Prop} (hstep : ∀ q ev q', A.next q ev = some q' → φ q → φ q')
    {q q' : Q} {evs : List (Event I)} (h : A.Path q evs q') (hq : φ q) : φ q' := by
  induction evs generalizing q with
  | nil => rwa [← show q = q' from h]
  | cons ev evs ih =>
    obtain ⟨q₁, hnext, hrest⟩ := h
    exact ih hrest (hstep q ev q₁ hnext hq)

/-- Who is in a state at the end was in it from the beginning, or has entered it. -/
theorem Path.entered {φ : Q → Prop} {ψ : Event I → Prop}
    (hstep : ∀ q ev q', A.next q ev = some q' → φ q' → φ q ∨ ψ ev) {q q' : Q}
    {evs : List (Event I)} (h : A.Path q evs q') (hq' : φ q') : φ q ∨ ∃ ev ∈ evs, ψ ev := by
  induction evs generalizing q with
  | nil =>
    rw [show q = q' from h]
    exact .inl hq'
  | cons ev evs ih =>
    obtain ⟨q₁, hnext, hrest⟩ := h
    rcases ih hrest with hq₁ | ⟨e, he, hψ⟩
    · exact (hstep q ev q₁ hnext hq₁).imp_right (fun hev => ⟨ev, List.mem_cons_self, hev⟩)
    · exact .inr ⟨e, List.mem_cons_of_mem _ he, hψ⟩

/-- Who is in a state at the beginning is in it to the end, or has left it. -/
theorem Path.left {φ : Q → Prop} {ψ : Event I → Prop}
    (hstep : ∀ q ev q', A.next q ev = some q' → φ q → φ q' ∨ ψ ev) {q q' : Q}
    {evs : List (Event I)} (h : A.Path q evs q') (hq : φ q) : φ q' ∨ ∃ ev ∈ evs, ψ ev := by
  induction evs generalizing q with
  | nil =>
    rw [← show q = q' from h]
    exact .inl hq
  | cons ev evs ih =>
    obtain ⟨q₁, hnext, hrest⟩ := h
    rcases hstep q ev q₁ hnext hq with hq₁ | hev
    · exact (ih hrest hq₁).imp_right
        (fun ⟨e, he, hψ⟩ => ⟨e, List.mem_cons_of_mem _ he, hψ⟩)
    · exact .inr ⟨ev, List.mem_cons_self, hev⟩

/-! ### Runs -/

/-- A task that has not taken a step is at the beginning. -/
theorem stage_of_fresh {i : Nat} (h : ∀ x ∈ ms, x.task ≠ i) : A.stage m i ms = A.start := by
  have hnil : done_by m i ms = [] := by
    unfold done_by
    rw [List.map_eq_nil_iff, List.filter_eq_nil_iff]
    intro x hx
    simpa using h x hx
  unfold stage
  rw [hnil]
  rfl

theorem owned (h : Recorded m prog s c ms) : ∀ x ∈ ms, x.task < c.tasks.length := by
  intro x hx
  have hlog : (x.task, x.event m) ∈ c.log := by
    rw [h.log]
    exact List.mem_map.mpr ⟨x, hx, rfl⟩
  exact h.reachable.owned _ hlog

/-- What is left of a task can still be followed, from the stage the task is at. -/
theorem follows (hprog : ∀ job, A.Accepts (prog job)) (h : Recorded m prog s c ms) {i : Nat}
    {task : Task I J} (hi : c.tasks[i]? = some task) :
    task.prog.wp A.follow (fun _ q => A.final q) (A.stage m i ms) := by
  induction h generalizing i task with
  | start => simp [init] at hi
  | @begin c ms job hrec ih =>
    dsimp only at hi
    by_cases hlt : i < c.tasks.length
    · rw [List.getElem?_append_left hlt] at hi
      exact ih hi
    · rw [List.getElem?_append_right (Nat.not_lt.mp hlt)] at hi
      obtain ⟨_, htask⟩ := List.getElem?_eq_some_iff.mp hi
      rw [List.getElem_singleton] at htask
      rw [stage_of_fresh fun x hx heq => hlt (by rw [← heq]; exact owned hrec x hx), ← htask]
      exact hprog job
  | @run c ms j job o next e hrec hj ih =>
    dsimp only at hi
    by_cases hij : j = i
    · -- the task that has taken the step
      subst hij
      have hlt := (List.getElem?_eq_some_iff.mp hj).1
      rw [List.getElem?_set_self hlt] at hi
      rw [← Option.some.inj hi,
        stage_snoc_self ms (⟨j, c.state, o, e⟩ : Moment I E σ)]
      exact ((ih hj) _ _ rfl).2
    · rw [List.getElem?_set_ne hij] at hi
      rw [stage_snoc_ne ms (x := ⟨j, c.state, o, e⟩) hij]
      exact ih hi

/-- Every step is one that the automaton allows. -/
theorem next_of_split (hprog : ∀ job, A.Accepts (prog job)) {pre post : List (Moment I E σ)}
    {x : Moment I E σ} (h : Recorded m prog s c (pre ++ x :: post)) :
    ∃ q', A.next (A.stage m x.task pre) (x.event m) = some q' := by
  obtain ⟨c', job, next, hrec, -, hi⟩ := h.split
  have hmust := (follows hprog hrec hi (x.res m) _ rfl).1
  exact Option.isSome_iff_exists.mp hmust

/-- The stage of a task after a step is the one that the automaton has for it. -/
theorem next_stage (hprog : ∀ job, A.Accepts (prog job)) {pre post : List (Moment I E σ)}
    {x : Moment I E σ} (h : Recorded m prog s c (pre ++ x :: post)) :
    A.next (A.stage m x.task pre) (x.event m) = some (A.stage m x.task (pre ++ [x])) := by
  obtain ⟨q', hq'⟩ := next_of_split hprog h
  rw [stage_snoc_self, advance_of_next hq', hq']

/-- What a task has done so far is a path to its stage. -/
theorem path_of_recorded (hprog : ∀ job, A.Accepts (prog job)) (h : Recorded m prog s c ms)
    (i : Nat) : A.Path A.start (done_by m i ms) (A.stage m i ms) := by
  induction h with
  | start => exact rfl
  | begin job _ ih => exact ih
  | @run c ms j job o next e hrec hj ih =>
    have hnext := next_stage hprog (Recorded.run e hrec hj)
    by_cases hij : j = i
    · subst hij
      rw [done_by_snoc_self ms (⟨j, c.state, o, e⟩ : Moment I E σ)]
      exact path_append.mpr ⟨_, ih, _, hnext, rfl⟩
    · rw [done_by_snoc_ne (x := ⟨j, c.state, o, e⟩) hij,
        stage_snoc_ne ms (x := ⟨j, c.state, o, e⟩) hij]
      exact ih

/-- What a task has done since is a path from the stage it was at. -/
theorem path_between (hprog : ∀ job, A.Accepts (prog job)) {pre post : List (Moment I E σ)}
    (h : Recorded m prog s c (pre ++ post)) (i : Nat) :
    A.Path (A.stage m i pre) (done_by m i post) (A.stage m i (pre ++ post)) := by
  have hpath := path_of_recorded hprog h i
  rw [done_by_append] at hpath
  obtain ⟨q₁, hpre, hpost⟩ := path_append.mp hpath
  rwa [← show A.stage m i pre = q₁ from hpre.foldl] at hpost

/-- A task that has ended is at its end. -/
theorem final_of_ended (hprog : ∀ job, A.Accepts (prog job)) (h : Recorded m prog s c ms)
    {i : Nat} {task : Task I J} (hi : c.tasks[i]? = some task) (hend : task.ended = true) :
    A.final (A.stage m i ms) := by
  have hfollows := follows hprog h hi
  rwa [Task.prog_of_ended hend] at hfollows

/-- When all tasks have ended, every task is at its end, or it has not begun. -/
theorem final_of_all_ended (hprog : ∀ job, A.Accepts (prog job)) (hstart : A.final A.start)
    (h : Recorded m prog s c ms) (hend : AllEnded c) (i : Nat) : A.final (A.stage m i ms) := by
  by_cases hlt : i < c.tasks.length
  · exact final_of_ended hprog h (List.getElem?_eq_getElem hlt)
      (hend _ (List.getElem_mem hlt))
  · have hfresh : A.stage m i ms = A.start := by
      apply stage_of_fresh
      intro x hx
      have := owned h x hx
      omega
    rw [hfresh]
    exact hstart

/-- Invariant rule: each step may use the stage of its task, and the stage it goes to. -/
theorem invariant (hprog : ∀ job, A.Accepts (prog job))
    (Inv : σ → List (Moment I E σ) → Prop) (h0 : Inv s [])
    (hstep : ∀ c ms x q', Recorded m prog s c ms → c.state = x.state → Inv x.state ms →
      A.next (A.stage m x.task ms) (x.event m) = some q' → Inv (x.after m) (ms ++ [x]))
    (h : Recorded m prog s c ms) : Inv c.state ms := by
  induction h with
  | start => exact h0
  | begin job _ ih => exact ih
  | @run c ms i job o next e hrec hi ih =>
    obtain ⟨q', hq'⟩ := next_of_split hprog (Recorded.run e hrec hi)
    exact hstep c ms ⟨i, c.state, o, e⟩ q' hrec rfl ih hq'

/-! ### How many tasks are at a stage -/

/-- Counting below `n`, when one place changes. -/
theorem countP_range_add {p p' : Nat → Bool} {i n : Nat} (hi : i < n)
    (hne : ∀ j, j ≠ i → p' j = p j) :
    (List.range n).countP p' + (p i).toNat = (List.range n).countP p + (p' i).toNat := by
  induction n with
  | zero => omega
  | succ n ih =>
    have hlast (f : Nat → Bool) :
        (List.range (n + 1)).countP f = (List.range n).countP f + (f n).toNat := by
      rw [List.range_succ, List.countP_append, List.countP_singleton]
      cases f n <;> rfl
    rw [hlast, hlast]
    by_cases heq : i = n
    · -- the place that changes is the last one
      subst heq
      have hsame : (List.range i).countP p' = (List.range i).countP p := by
        apply List.countP_congr
        intro j hj
        rw [hne j (Nat.ne_of_lt (List.mem_range.mp hj))]
      omega
    · have := ih (by omega)
      rw [hne n (Ne.symm heq)]
      omega

variable (A) in
/-- How many of the first `n` tasks are at a stage with `p`. -/
def count (m : Machine I E σ) (p : Q → Bool) (n : Nat) (ms : List (Moment I E σ)) : Nat :=
  (List.range n).countP (fun i => p (A.stage m i ms))

/-- Only the task that takes the step is counted anew. -/
theorem count_snoc (ms : List (Moment I E σ)) {x : Moment I E σ} {n : Nat} (p : Q → Bool)
    (hx : x.task < n) :
    A.count m p n (ms ++ [x]) + (p (A.stage m x.task ms)).toNat =
      A.count m p n ms + (p (A.stage m x.task (ms ++ [x]))).toNat := by
  have hne (j : Nat) (hj : j ≠ x.task) :
      (fun i => p (A.stage m i (ms ++ [x]))) j = (fun i => p (A.stage m i ms)) j :=
    congrArg p (stage_snoc_ne ms (Ne.symm hj))
  exact countP_range_add hx hne

/-- In a sequential run, the other tasks have ended or not begun. -/
theorem final_of_inTurn (hprog : ∀ job, A.Accepts (prog job)) (hstart : A.final A.start)
    (h : Recorded m prog s c ms) (hturn : InTurn c ms) {pre post : List (Moment I E σ)}
    {x : Moment I E σ} (hsplit : ms = pre ++ x :: post) {i : Nat} (hi : i ≠ x.task) :
    A.final (A.stage m i pre) := by
  have hx : x.task < c.tasks.length := owned h x (by simp [hsplit])
  have hsorted := hturn.sorted
  rw [hsplit, List.pairwise_append] at hsorted
  obtain ⟨-, hpost, hpre⟩ := hsorted
  rcases Nat.lt_or_gt_of_ne hi with hlt | hgt
  · -- an earlier task: all it has done is in the part before
    obtain ⟨task, htask⟩ : ∃ task, c.tasks[i]? = some task :=
      ⟨_, List.getElem?_eq_getElem (by omega)⟩
    have hfinal := final_of_ended hprog h htask (hturn.finished i task (by omega) htask)
    have hsame : A.stage m i ms = A.stage m i pre := by
      have hnone : done_by m i (x :: post) = [] := by
        unfold done_by
        rw [List.map_eq_nil_iff, List.filter_eq_nil_iff]
        intro y hy
        rcases List.mem_cons.mp hy with rfl | hy
        · simpa using hi.symm
        · have := (List.pairwise_cons.mp hpost).1 y hy
          simp only [decide_eq_true_eq]
          omega
      unfold stage
      rw [hsplit, done_by_append, hnone, List.append_nil]
    exact hsame ▸ hfinal
  · -- a later task: nothing of it is in the part before
    have hfresh : A.stage m i pre = A.start := by
      apply stage_of_fresh
      intro y hy
      have := hpre y hy x List.mem_cons_self
      omega
    rw [hfresh]
    exact hstart

/-- Invariant rule for sequential runs: the invariant may speak of the stage of the task under way,
    and does not tell the final stages apart. -/
theorem invariant_inTurn (hprog : ∀ job, A.Accepts (prog job)) (hstart : A.final A.start)
    (h : Recorded m prog s c ms) (hturn : InTurn c ms)
    (Inv : σ → List (Moment I E σ) → Q → Prop) (h0 : Inv s [] A.start)
    (hfinal : ∀ s ms q q', A.final q → A.final q' → Inv s ms q → Inv s ms q')
    (hstep : ∀ pre x post q q', ms = pre ++ x :: post → A.next q (x.event m) = some q' →
      Inv x.state pre q → Inv (x.after m) (pre ++ [x]) q')
    {pre post : List (Moment I E σ)} {x : Moment I E σ} (hsplit : ms = pre ++ x :: post) :
    Inv x.state pre (A.stage m x.task pre) := by
  have hpart : ∀ pre post c' i, ms = pre ++ post → Recorded m prog s c' pre →
      (∀ j, j ≠ i → A.final (A.stage m j pre)) → Inv c'.state pre (A.stage m i pre) := by
    intro pre
    induction pre using List.reverseRecOn with
    | nil =>
      intro post c' i _ hrec _
      have hs : c'.state = s :=
        hrec.induction (fun s' ms => ms = [] → s' = s) (fun _ => rfl) (by simp) rfl
      rw [hs]
      exact h0
    | append_singleton pre x ih =>
      intro post c' i hsplit hrec hothers
      have hsplit : ms = pre ++ x :: post := by simpa using hsplit
      obtain ⟨hstate, c'', hrec', hx⟩ := hrec.latest
      have hInv := ih (x :: post) c'' x.task hsplit hrec'
        (fun j hj => final_of_inTurn hprog hstart h hturn hsplit hj)
      rw [hx] at hInv
      have hafter := hstep pre x post _ _ hsplit (next_stage hprog hrec) hInv
      rw [hstate]
      by_cases hi : i = x.task
      · rw [hi]
        exact hafter
      · -- the task of the moment has ended, and this one has not begun
        refine hfinal _ _ _ _ (hothers x.task (Ne.symm hi)) ?_ hafter
        rw [stage_snoc_ne pre (Ne.symm hi)]
        exact final_of_inTurn hprog hstart h hturn hsplit hi
  obtain ⟨c', -, -, hrec, hx, -⟩ := (hsplit ▸ h).split
  rw [← hx]
  exact hpart pre (x :: post) c' x.task hsplit hrec
    (fun j hj => final_of_inTurn hprog hstart h hturn hsplit hj)

end Automaton
