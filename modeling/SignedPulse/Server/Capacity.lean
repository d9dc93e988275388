import SignedPulse.Server.Moments

/-! # Revoke hooks and the capacity of their executor

    A lease is removed first, and then its revoke hook is invoked, which may be
    refused: the executor has a fixed number of permits and no queue. A task
    that removes leases goes through them one by one and takes no note of a
    refusal.

    `every_lease_revoked_iff` says that the revoke hook of every removed lease
    is started exactly when no revoke hook is invoked while all permits are in
    use; `second_bye_not_revoked` is a run in which two clients leave at once.
-/

namespace SignedPulse

namespace Server

open Interleaving

/-! ### Removed leases and started hooks -/

/-- The revoke hook of the lease that ended; a BYE may bring its own parameter. -/
def RevokeFor (call : HookCall) (x : ExpiredLease × Nat) : Prop :=
  ∃ param reason, call = revoke_call x.1 param reason x.2

/-- The revoke hook that an event starts. -/
def revoke_of (ev : Event ops) : Option HookCall :=
  match hook_of ev with
  | some (.revoke, call) => some call
  | _ => none

def revokes_started (evs : List (Event ops)) : List HookCall := evs.filterMap revoke_of

/-- A revoke hook gets no permit, or its process does not start. -/
def refused : Event ops → Bool
  | ⟨.hook_acquire .revoke _, permit⟩ => !permit
  | ⟨.hook_spawn .revoke _, spawned⟩ => !spawned
  | _ => false

/-- When the task removes leases, it starts the revoke hook of each of them afterwards: one
    process for each lease, in their order, and no others. -/
def EachRevoked (evs : List (Event ops)) : Prop :=
  ∀ pre ev post, evs = pre ++ ev :: post → ended_by ev ≠ [] →
    revokes_started pre = [] ∧ List.Forall₂ RevokeFor (revokes_started post) (ended_by ev)

namespace Stage

/-- The revoke hooks that a task starts from here on, when none is refused. -/
def Expects : Stage → List HookCall → Prop
  | .revoking _ x todo, calls => List.Forall₂ RevokeFor calls (x :: todo)
  | .revoke_held call todo, calls => ∃ rest, calls = call :: rest ∧ List.Forall₂ RevokeFor rest todo
  | .revoke_running _ todo, calls => List.Forall₂ RevokeFor calls todo
  | _, calls => calls = []

/-- How many of them there are. -/
def to_start : Stage → Nat
  | .revoking _ _ todo => todo.length + 1
  | .revoke_held _ todo => todo.length + 1
  | .revoke_running _ todo => todo.length
  | _ => 0

/-- The task has a permit of the executor. -/
def holds (x : Executor) : Stage → Bool
  | .grant_held _ | .grant_running _ => decide (x = .grant)
  | .revoke_held .. | .revoke_running .. => decide (x = .revoke)
  | _ => false

theorem expects_proceed {reason : Reason} {todo : List (ExpiredLease × Nat)}
    {calls : List HookCall} :
    (proceed reason todo).Expects calls ↔ List.Forall₂ RevokeFor calls todo := by
  cases todo with
  | nil => exact List.forall₂_nil_right_iff.symm
  | cons x todo => exact Iff.rfl

@[simp] theorem to_start_proceed (reason : Reason) (todo : List (ExpiredLease × Nat)) :
    (proceed reason todo).to_start = todo.length := by
  cases todo <;> rfl

@[simp] theorem holds_proceed (x : Executor) (reason : Reason)
    (todo : List (ExpiredLease × Nat)) : (proceed reason todo).holds x = false := by
  cases todo <;> rfl

end Stage

section moves
variable {srv : Server} {q q' : Stage} {ev : Event ops} {calls : List HookCall}

theorem revoke_of_quiet (h : ev.op.area ∉ Stage.areas) :
    revoke_of ev = none ∧ refused ev = false ∧ ended_by ev = [] := by
  obtain ⟨o, r⟩ := ev
  cases o <;> first | exact ⟨rfl, rfl, rfl⟩ | simp [Stage.areas, Op.area] at h

/-- A task removes leases only at its beginning. -/
theorem Stage.Goes.once (h : Goes srv q ev q') (hq : q ≠ .idle) : ended_by ev = [] := by
  cases h with
  | quiet harea => exact (revoke_of_quiet harea).2.2
  | released _ r => exact absurd rfl hq
  | taken expired => exact absurd rfl hq
  | _ => rfl

/-- What a task is still to start is started or refused. -/
theorem Stage.Goes.to_start (h : Goes srv q ev q') (hev : ended_by ev = []) :
    q.to_start = q'.to_start + (revoke_of ev).toList.length + (refused ev).toNat := by
  cases h with
  | quiet harea =>
    obtain ⟨hnone, hfalse, -⟩ := revoke_of_quiet harea
    simp [hnone, hfalse]
  | purged => rfl
  | renewed p ttl =>
    unfold Stage.renewed
    split <;> rfl
  | checked p cooling => cases cooling <;> rfl
  | counted p n => rfl
  | released _ r =>
    rw [show r.toList = [] from hev]
    unfold ended
    split <;> rfl
  | taken expired =>
    rw [show expired = [] from hev]
    unfold ended
    split <;> rfl
  | grant_acquired call permit => cases permit <;> rfl
  | grant_spawned call spawned => cases spawned <;> rfl
  | grant_ended call outcome => split <;> rfl
  | revoke_acquired reason x param permit todo =>
    cases permit with
    | true => rfl
    | false =>
      show todo.length + 1 = (proceed reason todo).to_start + 0 + 1
      rw [to_start_proceed]
  | revoke_spawned call spawned todo =>
    cases spawned with
    | true => rfl
    | false =>
      show todo.length + 1 = (proceed call.reason todo).to_start + 0 + 1
      rw [to_start_proceed]
  | revoke_ended call outcome todo =>
    show todo.length = (proceed call.reason todo).to_start
    rw [to_start_proceed]
  | marked call => rfl

/-- One more hook of those that a task starts. -/
theorem Stage.Goes.expects (h : Goes srv q ev q') (hev : ended_by ev = [])
    (hok : refused ev = false) (hcalls : q'.Expects calls) :
    q.Expects ((revoke_of ev).toList ++ calls) := by
  cases h with
  | quiet harea =>
    rw [(revoke_of_quiet harea).1]
    exact hcalls
  | purged => exact hcalls
  | renewed p ttl =>
    unfold Stage.renewed at hcalls
    split at hcalls <;> exact hcalls
  | checked p cooling => cases cooling <;> exact hcalls
  | counted p n => exact hcalls
  | released _ r =>
    have hover : (ended srv .bye r.toList).Expects calls := hcalls
    rw [show r.toList = [] from hev] at hover
    unfold ended at hover
    split at hover <;> exact hover
  | taken expired =>
    rw [show expired = [] from hev] at hcalls
    unfold ended at hcalls
    split at hcalls <;> exact hcalls
  | grant_acquired call permit => cases permit <;> exact hcalls
  | grant_spawned call spawned => cases spawned <;> exact hcalls
  | grant_ended call outcome => split at hcalls <;> exact hcalls
  | revoke_acquired reason x param permit todo =>
    obtain rfl : permit = true := by simpa [refused] using hok
    obtain ⟨rest, hrest, hforall⟩ := hcalls
    rw [hrest]
    exact .cons ⟨param, reason, rfl⟩ hforall
  | revoke_spawned call spawned todo =>
    obtain rfl : spawned = true := by simpa [refused] using hok
    exact ⟨calls, rfl, hcalls⟩
  | revoke_ended call outcome todo => exact expects_proceed.mp hcalls
  | marked call => exact hcalls

end moves

/-! ### From the removal to the end of the task -/

section paths
variable {srv : Server} {q q' : Stage} {evs : List (Event ops)}

/-- What a task is still to start after it has removed its leases is started or refused. -/
theorem path_to_start (hpath : srv.stages.Path q evs q') (hq : q ≠ .idle) :
    q.to_start = q'.to_start + (revokes_started evs).length + evs.countP refused := by
  induction evs generalizing q with
  | nil =>
    rw [show q = q' from hpath]
    rfl
  | cons ev evs ih =>
    obtain ⟨q₁, hnext, hrest⟩ := hpath
    have hgoes := goes_of_stages hnext
    have hstep := hgoes.to_start (hgoes.once hq)
    have hrun := ih hrest (hgoes.not_idle hq)
    have hstarted : (revokes_started (ev :: evs)).length =
        (revoke_of ev).toList.length + (revokes_started evs).length := by
      unfold revokes_started
      rw [List.filterMap_cons]
      cases revoke_of ev with
      | none => exact (Nat.zero_add _).symm
      | some call => exact Nat.add_comm _ _
    have hrefused : (ev :: evs).countP refused = (refused ev).toNat + evs.countP refused := by
      rw [List.countP_cons]
      cases refused ev with
      | true => exact Nat.add_comm _ _
      | false => exact (Nat.zero_add _).symm
    omega

/-- Without a refusal, a task starts what it is expected to start. -/
theorem path_expects (hpath : srv.stages.Path q evs .over) (hq : q ≠ .idle)
    (hok : ∀ ev ∈ evs, refused ev = false) : q.Expects (revokes_started evs) := by
  induction evs generalizing q with
  | nil =>
    rw [show q = .over from hpath]
    rfl
  | cons ev evs ih =>
    obtain ⟨q₁, hnext, hrest⟩ := hpath
    have hgoes := goes_of_stages hnext
    have hexp := hgoes.expects (hgoes.once hq) (hok ev List.mem_cons_self)
      (ih hrest (hgoes.not_idle hq) (fun e he => hok e (List.mem_cons_of_mem _ he)))
    have hstarted : revokes_started (ev :: evs) =
        (revoke_of ev).toList ++ revokes_started evs := by
      unfold revokes_started
      rw [List.filterMap_cons]
      cases revoke_of ev <;> rfl
    rwa [hstarted]

/-- A removal takes an idle task to the hooks of the removed leases. -/
theorem path_removal {ev : Event ops} (hrevoke : srv.revoke_executor = true)
    (hgoes : Stage.Goes srv q ev q') (hev : ended_by ev ≠ []) :
    q = .idle ∧ ∃ reason, q' = Stage.proceed reason (ended_by ev) := by
  have hidle : q = .idle := by
    by_contra hq
    exact hev (hgoes.once hq)
  refine ⟨hidle, ?_⟩
  cases hgoes with
  | quiet harea => exact absurd (revoke_of_quiet harea).2.2 hev
  | released _ r => exact ⟨.bye, by simp [Stage.ended, hrevoke, ended_by]⟩
  | taken expired => exact ⟨.expired, by simp [Stage.ended, hrevoke, ended_by]⟩
  | _ => exact absurd rfl hev

/-- A task that has left the beginning does not come back to it. -/
theorem path_not_idle (hpath : srv.stages.Path q evs q') (hq : q ≠ .idle) : q' ≠ .idle :=
  hpath.kept (φ := fun q => q ≠ .idle) (fun _ _ _ hnext => (goes_of_stages hnext).not_idle) hq

/-- A task at its beginning starts and is refused no revoke hook. -/
theorem Stage.Goes.idle {ev : Event ops} (h : Goes srv .idle ev q') :
    revoke_of ev = none ∧ refused ev = false := by
  cases h with
  | quiet harea => exact ⟨(revoke_of_quiet harea).1, (revoke_of_quiet harea).2.1⟩
  | _ => exact ⟨rfl, rfl⟩

theorem idle_path (hpath : srv.stages.Path .idle evs .idle) : revokes_started evs = [] := by
  induction evs with
  | nil => rfl
  | cons ev evs ih =>
    obtain ⟨q₁, hnext, hrest⟩ := hpath
    obtain rfl : q₁ = .idle := by
      by_contra hq₁
      exact path_not_idle hrest hq₁ rfl
    unfold revokes_started
    have hgoes := goes_of_stages hnext
    rw [List.filterMap_cons, hgoes.idle.1]
    exact ih hrest

/-- Without a refusal, the revoke hook of every removed lease is started. -/
theorem each_revoked_of_not_refused (hrevoke : srv.revoke_executor = true)
    (hpath : srv.stages.Path .idle evs q') (hend : q' = .idle ∨ q' = .over)
    (hok : ∀ ev ∈ evs, refused ev = false) : EachRevoked evs := by
  rintro pre ev post rfl hev
  obtain ⟨q₁, hpre, q₂, hnext, hpost⟩ := Automaton.path_append.mp hpath
  obtain ⟨rfl, reason, rfl⟩ := path_removal hrevoke (goes_of_stages hnext) hev
  have hleft : Stage.proceed reason (ended_by ev) ≠ .idle := by
    cases ended_by ev <;> nofun
  obtain rfl : q' = .over := hend.resolve_left (path_not_idle hpost hleft)
  have hexp := path_expects hpost hleft (fun e he => hok e (by simp [he]))
  exact ⟨idle_path hpre, Stage.expects_proceed.mp hexp⟩

/-- When the revoke hook of every removed lease is started, none was refused. -/
theorem not_refused_of_each_revoked (hrevoke : srv.revoke_executor = true)
    (hpath : srv.stages.Path .idle evs q') (h : EachRevoked evs) :
    ∀ ev ∈ evs, refused ev = false := by
  induction evs with
  | nil => nofun
  | cons ev evs ih =>
    obtain ⟨q₁, hnext, hrest⟩ := hpath
    have hgoes := goes_of_stages hnext
    have htail : EachRevoked evs := by
      rintro pre e post rfl he
      obtain ⟨hpre, hpost⟩ := h (ev :: pre) e post rfl he
      unfold revokes_started at hpre
      rw [List.filterMap_cons, hgoes.idle.1] at hpre
      exact ⟨hpre, hpost⟩
    have hrefused : ∀ e ∈ evs, refused e = false := by
      by_cases hq₁ : q₁ = .idle
      · subst hq₁
        exact ih hrest htail
      -- the task has left the beginning: count what it was still to start
      have hcount := path_to_start hrest hq₁
      have hzero : evs.countP refused = 0 := by
        by_cases hev : ended_by ev = []
        · have hstep : 0 = q₁.to_start + _ + _ := hgoes.to_start hev
          omega
        · obtain ⟨-, reason, rfl⟩ := path_removal hrevoke hgoes hev
          have hlength := (h [] ev evs rfl hev).2.length_eq
          rw [Stage.to_start_proceed] at hcount
          omega
      intro e he
      simpa using List.countP_eq_zero.mp hzero e he
    intro e he
    rcases List.mem_cons.mp he with rfl | he
    · exact hgoes.idle.2
    · exact hrefused e he

end paths

/-! ### Permits -/

section permits
variable {srv : Server} {now : Instant} {unix : Int64} {c : Config ops State Job}
variable {ms : List ServerMoment} {q q' : Stage}

/-- How many of the first `n` tasks have a permit of the executor. -/
def permits_used (srv : Server) (x : Executor) (n : Nat) (ms : List ServerMoment) : Nat :=
  srv.stages.count srv.machine (Stage.holds x) n ms

/-- Only the operations on hooks take permits and give them back. -/
theorem Stage.Goes.holds {ev : Event ops} (h : Goes srv q ev q') (hev : ev.op.area ≠ .hook)
    (y : Executor) : q'.holds y = q.holds y := by
  have hended (reason : Reason) (todo : List (ExpiredLease × Nat)) :
      (ended srv reason todo).holds y = false := by
    unfold ended
    split
    · exact holds_proceed y reason todo
    · rfl
  cases h with
  | quiet _ => rfl
  | purged => rfl
  | renewed p ttl =>
    unfold Stage.renewed
    split <;> rfl
  | checked p cooling => cases cooling <;> rfl
  | counted p n => rfl
  | released _ r => exact hended _ _
  | taken expired => exact hended _ _
  | marked call => rfl
  | _ => exact absurd rfl hev

theorem perform_running {o : Op} {e : Env} {s : State} (h : o.area ≠ .hook) :
    (srv.perform o e s).2.running = s.running := by
  cases o <;> first | rfl | exact absurd rfl h

theorem take_permit_apply (x y : Executor) (running : Executor → Nat) :
    take_permit x running y = running y + (decide (y = x)).toNat := by
  unfold take_permit
  by_cases hyx : y = x
  · subst hyx
    simp
  · simp [hyx]

theorem drop_permit_apply {x : Executor} (y : Executor) {running : Executor → Nat}
    (hpos : 0 < running x) :
    drop_permit x running y + (decide (y = x)).toNat = running y := by
  unfold drop_permit
  by_cases hyx : y = x
  · subst hyx
    simp
    omega
  · simp [hyx]

/-- The executor's count of permits changes with the stage of the task. -/
theorem running_step {o : Op} {e : Env} {s : State}
    (h : Stage.Goes srv q ⟨o, (srv.perform o e s).1⟩ q')
    (hpos : ∀ y, q.holds y = true → 0 < s.running y) (y : Executor) :
    (srv.perform o e s).2.running y + (q.holds y).toNat =
      s.running y + (q'.holds y).toNat := by
  -- only the operations of hooks touch the permits
  by_cases harea : o.area = .hook
  swap
  · rw [perform_running harea, h.holds harea]
  have hproceed (reason : Reason) (todo : List (ExpiredLease × Nat)) :
      s.running y = s.running y + ((Stage.proceed reason todo).holds y).toNat := by
    rw [Stage.holds_proceed]
    rfl
  cases o <;> simp only [Op.area, reduceCtorEq] at harea
  case hook_acquire x call =>
    have hafter : (srv.perform (.hook_acquire x call) e s).2.running =
        if (srv.perform (.hook_acquire x call) e s).1 then take_permit x s.running
        else s.running := rfl
    rw [hafter]
    generalize (srv.perform (.hook_acquire x call) e s).1 = permit at h ⊢
    cases h with
    | quiet hquiet => simp [Stage.areas, Op.area] at hquiet
    | grant_acquired _ permit => cases permit <;> simp [take_permit_apply, Stage.holds]
    | revoke_acquired reason _ _ permit todo =>
      cases permit with
      | true => simp [take_permit_apply, Stage.holds]
      -- the hook is skipped for want of a permit
      | false => exact hproceed reason todo
  case hook_spawn x call =>
    have hafter : (srv.perform (.hook_spawn x call) e s).2.running =
        if (srv.perform (.hook_spawn x call) e s).1 then s.running
        else drop_permit x s.running := rfl
    rw [hafter]
    generalize (srv.perform (.hook_spawn x call) e s).1 = spawned at h ⊢
    cases h with
    | quiet hquiet => simp [Stage.areas, Op.area] at hquiet
    | grant_spawned _ spawned =>
      have hdrop := drop_permit_apply y (hpos .grant rfl)
      cases spawned <;> simp [Stage.holds, hdrop]
    | revoke_spawned call spawned todo =>
      have hdrop := drop_permit_apply y (hpos .revoke rfl)
      cases spawned with
      | true => simp [Stage.holds]
      -- a hook that cannot be spawned gives its permit back
      | false => exact hdrop.trans (hproceed call.reason todo)
  case hook_wait x call =>
    have hafter : (srv.perform (.hook_wait x call) e s).2.running = drop_permit x s.running := rfl
    rw [hafter]
    generalize (srv.perform (.hook_wait x call) e s).1 = outcome at h ⊢
    cases h with
    | quiet hquiet => simp [Stage.areas, Op.area] at hquiet
    | grant_ended =>
      have hdrop := drop_permit_apply y (hpos .grant rfl)
      split <;> simpa [Stage.holds] using hdrop
    | revoke_ended call _ todo =>
      exact (drop_permit_apply y (hpos .revoke rfl)).trans (hproceed call.reason todo)

/-- The permits in use are those of the tasks that run a hook. -/
theorem running_eq (h : Recorded srv.machine srv.prog (srv.start now unix) c ms) :
    ∀ n, (∀ y ∈ ms, y.task < n) → ∀ x, c.state.running x = srv.permits_used x n ms := by
  refine Automaton.invariant srv.prog_staged
    (fun s ms => ∀ n, (∀ y ∈ ms, y.task < n) → ∀ x, s.running x = srv.permits_used x n ms) ?_ ?_ h
  · intro n _ x
    have hnone : srv.permits_used x n [] = 0 :=
      List.countP_eq_zero.mpr (fun _ _ => Bool.noConfusion)
    rw [hnone]
    rfl
  · intro c ms x q' _ _ ih hnext n hn y
    have hold := ih n (fun z hz => hn z (List.mem_append_left _ hz))
    have hx : x.task < n := hn x (by simp)
    have hgoes : Stage.Goes srv (srv.stage_of x.task ms) (x.event srv.machine) q' :=
      goes_of_stages hnext
    -- a task that has a permit is counted
    have hpos (y : Executor) (hy : (srv.stage_of x.task ms).holds y = true) :
        0 < x.state.running y := by
      rw [hold]
      exact List.countP_pos_iff.mpr ⟨x.task, List.mem_range.mpr hx, hy⟩
    have hstep := running_step hgoes hpos y
    have hcount : srv.permits_used y n (ms ++ [x]) + ((srv.stage_of x.task ms).holds y).toNat =
        srv.permits_used y n ms + (q'.holds y).toNat := by
      have hsnoc := Automaton.count_snoc (A := srv.stages) (m := srv.machine) ms (Stage.holds y) hx
      rwa [Automaton.stage_snoc_self, Automaton.advance_of_next hnext] at hsnoc
    have hbefore := hold y
    show (srv.perform x.op x.env x.state).2.running y = _
    omega

/-- A revoke hook that is invoked finds a permit, and one that has a permit starts its process. -/
def FindsPermit (srv : Server) (n : Nat) (pre : List ServerMoment) (x : ServerMoment) : Prop :=
  match x.op with
  | .hook_acquire .revoke _ => srv.permits_used .revoke n pre < max srv.config.max_concurrent 1
  | .hook_spawn .revoke _ => x.env.spawned = true
  | _ => True

instance (srv : Server) (n : Nat) (pre : List ServerMoment) (x : ServerMoment) :
    Decidable (srv.FindsPermit n pre x) := by
  unfold FindsPermit
  split <;> infer_instance

theorem refused_iff {pre post : List ServerMoment} {x : ServerMoment}
    (h : Recorded srv.machine srv.prog (srv.start now unix) c (pre ++ x :: post)) {n : Nat}
    (hn : ∀ y ∈ pre, y.task < n) :
    refused (x.event srv.machine) = false ↔ srv.FindsPermit n pre x := by
  obtain ⟨c', _, _, hrec, hstate, -⟩ := h.split
  have hrunning := running_eq hrec n hn .revoke
  rw [hstate] at hrunning
  obtain ⟨i, s, o, e⟩ := x
  have hother (hfalse : refused ⟨o, (srv.perform o e s).1⟩ = false)
      (htrue : srv.FindsPermit n pre ⟨i, s, o, e⟩) :
      refused ⟨o, (srv.perform o e s).1⟩ = false ↔ srv.FindsPermit n pre ⟨i, s, o, e⟩ :=
    iff_of_true hfalse htrue
  cases o with
  | hook_acquire y call =>
    cases y with
    | grant => exact hother rfl trivial
    | revoke =>
      have hrunning : s.running .revoke = srv.permits_used .revoke n pre := hrunning
      show (!decide (s.running .revoke < max srv.config.max_concurrent 1)) = false ↔
        srv.permits_used .revoke n pre < max srv.config.max_concurrent 1
      rw [← hrunning, Bool.not_eq_false', decide_eq_true_iff]
  | hook_spawn y call =>
    cases y with
    | grant => exact hother rfl trivial
    | revoke =>
      show (!e.spawned) = false ↔ e.spawned = true
      rw [Bool.not_eq_false']
  | _ => exact hother rfl trivial

end permits

/-! ### Whole runs -/

/-- When all tasks have ended, the revoke hook of every removed lease was started, exactly when
    every revoke hook found fewer than `max_concurrent` tasks with a permit and started. -/
theorem every_lease_revoked_iff (srv : Server) (hrevoke : srv.revoke_executor = true)
    (now : Instant) (unix : Int64) (c : Config ops State Job) (ms : List ServerMoment)
    (hrec : Recorded srv.machine srv.prog (srv.start now unix) c ms) (hend : AllEnded c) :
    (∀ i, EachRevoked (done_by srv.machine i ms)) ↔
      Throughout (srv.FindsPermit c.tasks.length) ms := by
  have hpath (i : Nat) := Automaton.path_of_recorded srv.prog_staged hrec i
  constructor
  · intro hall pre x post hsplit
    have howned : ∀ y ∈ pre, y.task < c.tasks.length := by
      intro y hy
      exact Automaton.owned hrec y (by simp [hsplit, hy])
    rw [← refused_iff (hsplit ▸ hrec) howned]
    refine not_refused_of_each_revoked hrevoke (hpath x.task) (hall x.task) _ ?_
    exact mem_done_by.mpr ⟨x, by simp [hsplit], rfl, rfl⟩
  · intro hall i
    refine each_revoked_of_not_refused hrevoke (hpath i) (stage_of_ended hrec hend i) ?_
    intro ev hev
    obtain ⟨x, hx, -, rfl⟩ := mem_done_by.mp hev
    obtain ⟨pre, post, hsplit⟩ := List.append_of_mem hx
    have howned : ∀ y ∈ pre, y.task < c.tasks.length := by
      intro y hy
      exact Automaton.owned hrec y (by simp [hsplit, hy])
    exact (refused_iff (hsplit ▸ hrec) howned).mpr (hall pre x post hsplit)

theorem every_lease_revoked_iff_left :
    ∃ c ms, record sample.machine sample.prog (init (sample.start 0 1000), []) pulse_then_bye =
        some (c, ms) ∧
      (∀ i, EachRevoked (done_by sample.machine i ms)) ∧
      (revokes_started (done_by sample.machine 3 ms)).length = 1 := by
  have hrun : (record sample.machine sample.prog (init (sample.start 0 1000), [])
      pulse_then_bye).any (fun t =>
        decide (AllEnded t.1) &&
        decide (∀ k < t.2.length,
          t.2[k]?.all (fun x => decide (sample.FindsPermit t.1.tasks.length (t.2.take k) x)) =
            true) &&
        decide ((revokes_started (done_by sample.machine 3 t.2)).length = 1)) = true := by
    decide +kernel
  obtain ⟨⟨c, ms⟩, ht, hcheck⟩ := (Option.any_eq_true _ _).mp hrun
  simp only [Bool.and_eq_true, decide_eq_true_iff] at hcheck
  obtain ⟨⟨hend, hpermits⟩, hone⟩ := hcheck
  have hrec : Recorded sample.machine sample.prog (sample.start 0 1000) c ms :=
    record_sound (r := (c, ms)) .start ht
  refine ⟨c, ms, ht, (every_lease_revoked_iff sample rfl 0 1000 c ms hrec hend).mpr ?_, hone⟩
  apply throughout_of_take
  intro k x hx
  have hcheck := hpermits k (List.getElem?_eq_some_iff.mp hx).1
  rw [hx] at hcheck
  simpa using hcheck

/-- The sample server with one permit for each executor. -/
def one_permit : Server := { sample with config := { sample_config with max_concurrent := 1 } }

/-- Clients 1 and 2 pulse and leave; the second BYE is handled while the revoke hook of the first
    one runs. -/
def two_byes : List (Label Env Job) :=
  sample_task 0 1 (.Hello (sample_hello 1 1000 1)) 14 (sample_env 1000 1) ++
  sample_task 1 1 (.Response (sample_response 1 1)) 21 (sample_env 1000 0) ++
  sample_task 2 2 (.Hello (sample_hello 2 1000 2)) 14 (sample_env 1000 2) ++
  sample_task 3 2 (.Response (sample_response 2 2)) 21 (sample_env 1000 0) ++
  sample_task 4 1 (.Hello (sample_hello 1 1000 3)) 14 (sample_env 1000 3) ++
  sample_task 5 2 (.Hello (sample_hello 2 1000 4)) 14 (sample_env 1000 4) ++
  sample_task 6 1 (.Bye (sample_bye 1 3)) 12 (sample_env 1000 0) ++
  sample_task 7 2 (.Bye (sample_bye 2 4)) 12 (sample_env 1000 0) ++
  (List.replicate 4 (.run 6 (sample_env 1000 0)) : List (Label Env Job))

/-- The lease of client 2 is gone, and no hook was started for it. -/
theorem second_bye_not_revoked :
    ∃ c ms, Recorded one_permit.machine one_permit.prog (one_permit.start 0 1000) c ms ∧
      AllEnded c ∧ ((done_by one_permit.machine 7 ms).flatMap ended_by).length = 1 ∧
      revokes_started (done_by one_permit.machine 7 ms) = [] ∧
      ¬ EachRevoked (done_by one_permit.machine 7 ms) := by
  have hrun : (record one_permit.machine one_permit.prog (init (one_permit.start 0 1000), [])
      two_byes).any (fun t =>
        decide (AllEnded t.1) &&
        decide (((done_by one_permit.machine 7 t.2).flatMap ended_by).length = 1) &&
        decide (revokes_started (done_by one_permit.machine 7 t.2) = [])) = true := by
    decide +kernel
  obtain ⟨⟨c, ms⟩, ht, hcheck⟩ := (Option.any_eq_true _ _).mp hrun
  simp only [Bool.and_eq_true, decide_eq_true_iff] at hcheck
  obtain ⟨⟨hend, hremoved⟩, hnone⟩ := hcheck
  refine ⟨c, ms, record_sound (r := (c, ms)) .start ht, hend, hremoved, hnone, ?_⟩
  intro hall
  -- the event that has removed the lease
  have hne : (done_by one_permit.machine 7 ms).flatMap ended_by ≠ [] := by
    intro hnil
    rw [hnil] at hremoved
    cases hremoved
  obtain ⟨ev, hev, hended⟩ : ∃ ev ∈ done_by one_permit.machine 7 ms, ended_by ev ≠ [] := by
    simpa using hne
  obtain ⟨pre, post, hsplit⟩ := List.append_of_mem hev
  have hpost : revokes_started post = [] := by
    rw [hsplit] at hnone
    unfold revokes_started at hnone ⊢
    rw [List.filterMap_append, List.append_eq_nil_iff] at hnone
    exact List.filterMap_eq_nil_iff.mpr
      (fun e he => List.filterMap_eq_nil_iff.mp hnone.2 e (List.mem_cons_of_mem _ he))
  have hlength := (hall pre ev post hsplit hended).2.length_eq
  rw [hpost] at hlength
  exact hended (List.length_eq_zero_iff.mp hlength.symm)

end Server

end SignedPulse
