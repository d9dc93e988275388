import SignedPulse.Server.Moments

/-! # When hooks take effect

    A hook changes the world at some time between its start and its end, and
    the server does not see when. `Unfolds` adds these effects to a recorded
    run, at any time that the record allows.

    The lease of a client is changed under a lock and its hook runs afterwards,
    so the effects may come in another order than the changes.
    `access_closed_without_lease` says when a client without a lease is still
    never left with a grant as its last effect; `late_grant_effect` is a run in
    which a BYE overtakes a grant.
-/

namespace SignedPulse

namespace Server

open Interleaving

/-! ### Effects -/

/-- `pending i` is the hook of task `i` that has started and not yet taken effect; `done` are
    those that have, latest last. -/
structure Effects where
  pending : Nat → Option HookRun
  done : List HookRun

namespace Effects

def none_yet : Effects := ⟨fun _ => none, []⟩

/-- A hook starts. -/
def started (w : Effects) (i : Nat) (r : HookRun) : Effects :=
  { w with pending := Function.update w.pending i (some r) }

/-- The hook of task `i` takes effect. -/
def taken (w : Effects) (i : Nat) (r : HookRun) : Effects :=
  { pending := Function.update w.pending i none, done := w.done ++ [r] }

end Effects

/-- The operation sees a hook end. -/
def EndsHook : Op → Prop
  | .hook_wait .. => True
  | _ => False

/-- The effects of the hooks of a run, each at some time between the start and the end of its
    hook. -/
inductive Unfolds (srv : Server) : List ServerMoment → Effects → Prop where
  | start : Unfolds srv [] .none_yet
  /-- A hook starts. -/
  | begins {ms w} (x : ServerMoment) (r : HookRun) (h : Unfolds srv ms w)
      (hx : hook_of (x.event srv.machine) = some r) :
      Unfolds srv (ms ++ [x]) (w.started x.task r)
  /-- No hook starts; one that ends has taken effect. -/
  | passes {ms w} (x : ServerMoment) (h : Unfolds srv ms w)
      (hx : hook_of (x.event srv.machine) = none)
      (hend : EndsHook x.op → w.pending x.task = none) : Unfolds srv (ms ++ [x]) w
  | effect {ms w} (i : Nat) (r : HookRun) (h : Unfolds srv ms w) (hi : w.pending i = some r) :
      Unfolds srv ms (w.taken i r)

/-- The hook is about the client. -/
def About (client_id : Str) (r : HookRun) : Bool := decide (r.2.client_id = client_id)

/-- The last effect for the client is a grant: its access is open. -/
def AccessOpen (client_id : Str) (done : List HookRun) : Prop :=
  (Trace.last (About client_id) done).map Prod.fst = some .grant

instance (client_id : Str) (done : List HookRun) : Decidable (AccessOpen client_id done) :=
  inferInstanceAs (Decidable (_ = _))

section effects
variable {srv : Server} {client_id : Str} {done : List HookRun}

theorem access_open_snoc {r : HookRun} : AccessOpen client_id (done ++ [r]) ↔
    (About client_id r = true ∧ r.1 = .grant) ∨
      (About client_id r = false ∧ AccessOpen client_id done) := by
  unfold AccessOpen
  cases habout : About client_id r with
  | true =>
    rw [Trace.last_snoc_of_pos habout]
    simp
  | false =>
    rw [Trace.last_append (by simpa using habout)]
    simp

/-- Every hook may take effect as soon as it has started. -/
theorem Unfolds.at_once (srv : Server) (ms : List ServerMoment) :
    Unfolds srv ms ⟨fun _ => none, ms.filterMap (fun x => hook_of (x.event srv.machine))⟩ := by
  induction ms using List.reverseRecOn with
  | nil => exact .start
  | append_singleton ms x ih =>
    rw [List.filterMap_append, List.filterMap_cons, List.filterMap_nil]
    cases hx : hook_of (x.event srv.machine) with
    | none =>
      rw [List.append_nil]
      exact .passes x ih hx (fun _ => rfl)
    | some r =>
      have hstarted := Unfolds.begins x r ih hx
      have htaken := hstarted.effect x.task r (by simp [Effects.started])
      simpa [Effects.taken, Effects.started] using htaken

end effects

/-! ### Grants and revokes on their way -/

/-- The client that a task is about to grant access to: its lease is renewed, and its grant hook
    has not ended. -/
def Stage.granting_for : Stage → Option Str
  | .checking p | .cleared p => some p.client_id
  | .granting call | .grant_held call | .grant_running call => some call.client_id
  | _ => none

/-- The clients whose revoke hook a task is going to start. -/
def Stage.to_revoke : Stage → List Str
  | .revoking _ x todo => x.1.client_id :: todo.map (fun y => y.1.client_id)
  | .revoke_held call todo => call.client_id :: todo.map (fun y => y.1.client_id)
  | .revoke_running _ todo => todo.map (fun y => y.1.client_id)
  | _ => []

/-- The hook that a task has started and not seen end. -/
def Stage.hook : Stage → Option HookRun
  | .grant_running call => some (.grant, call)
  | .revoke_running call _ => some (.revoke, call)
  | _ => none

namespace Stage

@[simp] theorem granting_for_proceed (reason : Reason) (todo : List (ExpiredLease × Nat)) :
    (proceed reason todo).granting_for = none := by
  cases todo <;> rfl

@[simp] theorem to_revoke_proceed (reason : Reason) (todo : List (ExpiredLease × Nat)) :
    (proceed reason todo).to_revoke = todo.map (fun y => y.1.client_id) := by
  cases todo <;> rfl

theorem granting_for_ended {srv : Server} {reason : Reason} {todo : List (ExpiredLease × Nat)} :
    (ended srv reason todo).granting_for = none := by
  unfold ended
  split
  · exact granting_for_proceed reason todo
  · rfl

theorem to_revoke_ended {srv : Server} (hrevoke : srv.revoke_executor = true) {reason : Reason}
    {todo : List (ExpiredLease × Nat)} :
    (ended srv reason todo).to_revoke = todo.map (fun y => y.1.client_id) := by
  unfold ended
  rw [hrevoke]
  exact to_revoke_proceed reason todo

end Stage

section moves
variable {srv : Server} {q q' : Stage} {ev : Event ops} {client_id : Str}

/-- A hook that is invoked succeeds. -/
def succeeds : Event ops → Bool
  | ⟨.hook_acquire _ _, permit⟩ => permit
  | ⟨.hook_spawn _ _, spawned⟩ => spawned
  | ⟨.hook_wait _ _, outcome⟩ => decide (outcome = .exited (some 0))
  | _ => true

/-- Only a verified pulse puts a grant on its way. -/
theorem Stage.Goes.granting_for (h : Goes srv q ev q') (hq' : q'.granting_for = some client_id) :
    q.granting_for = some client_id ∨ ∃ ip, renewal_of ev.op = some (client_id, ip) := by
  -- a renewal starts it; everything else keeps the grant of the stage or gives it up
  cases h with
  | quiet _ => exact .inl hq'
  | purged => exact .inl hq'
  | renewed p ttl =>
    have hp : p.client_id = client_id := by
      unfold Stage.renewed at hq'
      split at hq' <;> exact Option.some.inj hq'
    exact .inr ⟨p.ip, by rw [← hp]; rfl⟩
  | checked p cooling =>
    cases cooling with
    | true => cases hq'
    | false => exact .inl hq'
  | counted p n => exact .inl hq'
  | released _ r =>
    rw [granting_for_ended] at hq'
    cases hq'
  | taken expired =>
    rw [granting_for_ended] at hq'
    cases hq'
  | grant_acquired call permit =>
    cases permit with
    | true => exact .inl hq'
    | false => cases hq'
  | grant_spawned call spawned =>
    cases spawned with
    | true => exact .inl hq'
    | false => cases hq'
  | grant_ended call outcome => split at hq' <;> cases hq'
  | revoke_acquired reason x param permit todo =>
    cases permit with
    | true => cases hq'
    | false => simp at hq'
  | revoke_spawned call spawned todo =>
    cases spawned with
    | true => cases hq'
    | false => simp at hq'
  | revoke_ended call outcome todo =>
    rw [granting_for_proceed] at hq'
    cases hq'
  | marked call => cases hq'

/-- A revoke hook that is to come stays so until it starts. -/
theorem Stage.Goes.to_revoke (h : Goes srv q ev q') (hsucc : succeeds ev = true)
    (hstart : ∀ call, hook_of ev = some (.revoke, call) → call.client_id ≠ client_id)
    (hq : client_id ∈ q.to_revoke) : client_id ∈ q'.to_revoke := by
  cases h with
  | quiet _ => exact hq
  | revoke_acquired reason x param permit todo =>
    obtain rfl : permit = true := hsucc
    exact hq
  | revoke_spawned call spawned todo =>
    obtain rfl : spawned = true := hsucc
    -- the client is not the one whose hook starts
    rcases List.mem_cons.mp hq with heq | hq
    · exact absurd heq.symm (hstart call rfl)
    · exact hq
  | revoke_ended call outcome todo =>
    rw [to_revoke_proceed]
    exact hq
  | _ => cases hq

/-- The lease of a client that has ended is on the task's list. -/
theorem Stage.Goes.ended_by (hrevoke : srv.revoke_executor = true) (h : Goes srv q ev q')
    {x : ExpiredLease × Nat} (hx : x ∈ Server.ended_by ev) :
    x.1.client_id ∈ q'.to_revoke := by
  cases h with
  | quiet harea =>
    obtain ⟨o, r⟩ := ev
    cases o <;> first | (simp [areas, Op.area] at harea; done) | cases hx
  | released _ r =>
    rw [to_revoke_ended hrevoke]
    exact List.mem_map_of_mem (f := fun y => y.1.client_id) hx
  | taken expired =>
    rw [to_revoke_ended hrevoke]
    exact List.mem_map_of_mem (f := fun y => y.1.client_id) hx
  | _ => cases hx

/-- Where a hook starts. -/
theorem Stage.Goes.hook_of {r : HookRun} (h : Goes srv q ev q') (hr : Server.hook_of ev = some r) :
    q.hook = none ∧ q'.hook = some r := by
  cases h with
  | quiet harea =>
    obtain ⟨o, r⟩ := ev
    cases o <;> first | (simp [areas, Op.area] at harea; done) | cases hr
  | grant_spawned call spawned =>
    cases spawned with
    | false => cases hr
    | true => exact ⟨rfl, hr⟩
  | revoke_spawned call spawned todo =>
    cases spawned with
    | false => cases hr
    | true => exact ⟨rfl, hr⟩
  | _ => cases hr

/-- A hook that is running goes on until its task sees it end. -/
theorem Stage.Goes.of_hook {r : HookRun} (h : Goes srv q ev q') (hq : q.hook = some r) :
    q'.hook = some r ∨ EndsHook ev.op := by
  cases h with
  | quiet _ => exact .inl hq
  | grant_ended => exact .inr trivial
  | revoke_ended => exact .inr trivial
  | _ => cases hq

end moves

/-- A task that runs a revoke hook grants nothing. -/
theorem Stage.not_granting_of_hook {q : Stage} {call : HookCall} {client_id : Str}
    (h : q.hook = some (.revoke, call)) : q.granting_for ≠ some client_id := by
  cases q <;> cases h
  nofun

/-- A task that runs a grant hook is granting access to its client. -/
theorem Stage.granting_of_hook {q : Stage} {call : HookCall} (h : q.hook = some (.grant, call)) :
    q.granting_for = some call.client_id := by
  cases q <;> cases h
  rfl

/-! ### The invariant -/

/-- A lease that is gone was there before and has just ended, or there was none and no renewal
    has found room. -/
theorem entry_gone {srv : Server} {o : Op} {e : Env} {s : State} {client_id : Str}
    (h : (srv.perform o e s).2.leases.entry client_id = none) :
    (s.leases.entry client_id = none ∧
      ∀ ip, renewal_of o = some (client_id, ip) → ¬ s.leases.HasRoom client_id) ∨
    ∃ x ∈ ended_by ⟨o, (srv.perform o e s).1⟩, x.1.client_id = client_id := by
  have hother (hnone : renewal_of o = none) (ip : IpAddr)
      (hrenewal : renewal_of o = some (client_id, ip)) : ¬ s.leases.HasRoom client_id := by
    rw [hnone] at hrenewal
    cases hrenewal
  -- other operations leave the table alone
  by_cases harea : o.area = .leases
  swap
  · rw [perform_leases harea] at h
    refine .inl ⟨h, ?_⟩
    intro ip hrenewal
    cases o <;> first | exact absurd rfl harea | cases hrenewal
  cases o <;> simp only [Op.area, reduceCtorEq] at harea
  case leases_renew c a port param ttl =>
    have h : (s.leases.renew_at c a port param ttl (s.now + e.elapsed)).2.entry client_id =
        none := h
    left
    -- without room the table does not change
    by_cases hroom : s.leases.HasRoom c
    · rw [LeaseTracker.entry_renew_at hroom] at h
      split at h
      · cases h
      · rename_i hne
        refine ⟨h, ?_⟩
        intro ip hrenewal
        exact absurd (Prod.mk.inj (Option.some.inj hrenewal)).1.symm hne
    · rw [LeaseTracker.renew_at_full hroom] at h
      refine ⟨h, ?_⟩
      intro ip hrenewal
      rwa [← (Prod.mk.inj (Option.some.inj hrenewal)).1]
  case leases_release c =>
    by_cases hc : s.leases.entry client_id = none
    · exact .inl ⟨hc, hother rfl⟩
    · right
      have h : (s.leases.release_at c (s.now + e.elapsed)).2.entry client_id = none := h
      rw [LeaseTracker.entry_release_at] at h
      -- the entry was there, so it is the one that was released
      have heq : client_id = c := by
        by_contra hne
        rw [if_neg hne] at h
        exact hc h
      show ∃ x ∈ (s.leases.release_at c (s.now + e.elapsed)).1.toList, x.1.client_id = client_id
      cases hreleased : (s.leases.release_at c (s.now + e.elapsed)).1 with
      | none =>
        rw [heq] at hc
        exact absurd (LeaseTracker.entry_of_release_none hreleased) hc
      | some x =>
        obtain ⟨e', remaining⟩ := x
        obtain ⟨l, -, rfl, -⟩ := LeaseTracker.release_at_some hreleased
        exact ⟨_, List.mem_singleton.mpr rfl, heq.symm⟩
  case leases_others_on_ip => exact .inl ⟨h, hother rfl⟩
  case leases_take_expired =>
    have h : (s.leases.take_expired_at (s.now + e.elapsed) e.order).2.entry client_id =
        none := h
    rw [LeaseTracker.entry_take_expired_at] at h
    cases hc : s.leases.entry client_id with
    | none => exact .inl ⟨rfl, hother rfl⟩
    | some l =>
      right
      -- what a scan drops is over, and reported
      have hdead : l.live (s.now + e.elapsed) = false := by
        rw [hc] at h
        simpa [Option.filter] using h
      exact ⟨_, LeaseTracker.drained_of_dead hc hdead e.order, rfl⟩

/-- The access of a client is about to be closed, or it is closed, or it is never going to be
    opened again and a revoke is taking effect. -/
def Closing (srv : Server) (ms : List ServerMoment) (w : Effects) (client_id : Str) : Prop :=
  (∃ i, client_id ∈ (srv.stage_of i ms).to_revoke) ∨
    ((∀ i, (srv.stage_of i ms).granting_for ≠ some client_id) ∧
      (¬ AccessOpen client_id w.done ∨
        ∃ i call, w.pending i = some (.revoke, call) ∧ call.client_id = client_id))

structure EffectInv (srv : Server) (s : State) (ms : List ServerMoment) (w : Effects) : Prop where
  /-- A hook that has not taken effect is running. -/
  pending : ∀ i r, w.pending i = some r → (srv.stage_of i ms).hook = some r
  closing : ∀ client_id, s.leases.entry client_id = none → Closing srv ms w client_id

/-- What a run has to meet: hooks succeed, verified pulses find room in the lease table, and no
    grant of a client is on its way when a revoke hook starts for it and it has no lease. -/
structure Orderly (srv : Server) (pre : List ServerMoment) (x : ServerMoment) : Prop where
  succeeds : succeeds (x.event srv.machine) = true
  room : ∀ r ∈ renewal_of x.op, x.state.leases.HasRoom r.1
  alone : ∀ call, hook_of (x.event srv.machine) = some (.revoke, call) →
    x.state.leases.entry call.client_id = none →
      ∀ i, (srv.stage_of i pre).granting_for ≠ some call.client_id

section run
variable {srv : Server} {now : Instant} {unix : Int64} {c : Config ops State Job}
variable {ms : List ServerMoment} {x : ServerMoment} {w w' : Effects} {client_id : Str}

/-- A move that starts no revoke hook for the client. -/
theorem Closing.move (h : Closing srv ms w client_id)
    (hgoes : Stage.Goes srv (srv.stage_of x.task ms) (x.event srv.machine)
      (srv.stage_of x.task (ms ++ [x])))
    (hsucc : succeeds (x.event srv.machine) = true)
    (hstart : ∀ call, hook_of (x.event srv.machine) = some (.revoke, call) →
      call.client_id ≠ client_id)
    (hrenewal : ∀ ip, renewal_of x.op ≠ some (client_id, ip)) (hdone : w'.done = w.done)
    (hpending : ∀ i call, w.pending i = some (.revoke, call) →
      w'.pending i = some (.revoke, call)) :
    Closing srv (ms ++ [x]) w' client_id := by
  rcases h with ⟨i, hi⟩ | ⟨hnone, hclosed⟩
  · left
    refine ⟨i, ?_⟩
    by_cases hix : i = x.task
    · subst hix
      exact hgoes.to_revoke hsucc hstart hi
    · rwa [stage_of_other hix]
  · right
    constructor
    · intro i hi
      by_cases hix : i = x.task
      · subst hix
        rcases hgoes.granting_for hi with hold | ⟨ip, hip⟩
        · exact hnone x.task hold
        · exact hrenewal ip hip
      · rw [stage_of_other hix] at hi
        exact hnone i hi
    · rw [hdone]
      exact hclosed.imp_right (fun ⟨i, call, hi, hcall⟩ => ⟨i, call, hpending i call hi, hcall⟩)

/-- What a moment does to a client without a lease, whatever it does to the effects. -/
theorem EffectInv.closing_step (hrevoke : srv.revoke_executor = true)
    (h : EffectInv srv x.state ms w) (hx : Orderly srv ms x)
    (hgoes : Stage.Goes srv (srv.stage_of x.task ms) (x.event srv.machine)
      (srv.stage_of x.task (ms ++ [x]))) (hdone : w'.done = w.done)
    (hpending : ∀ i r, w.pending i = some r → w'.pending i = some r)
    (hstarted : ∀ r, hook_of (x.event srv.machine) = some r → w'.pending x.task = some r)
    (hgone : (x.after srv.machine).leases.entry client_id = none) :
    Closing srv (ms ++ [x]) w' client_id := by
  rcases entry_gone hgone with ⟨hbefore, hrenewal⟩ | ⟨y, hy, hid⟩
  swap
  · -- the lease has just ended: its revoke hook is to come
    exact .inl ⟨x.task, hid ▸ hgoes.ended_by hrevoke hy⟩
  by_cases hstart : ∃ call, hook_of (x.event srv.machine) = some (.revoke, call) ∧
      call.client_id = client_id
  · -- the revoke hook of the client starts, and no grant of it is on its way
    obtain ⟨call, hcall, rfl⟩ := hstart
    right
    constructor
    · intro i hi
      by_cases hix : i = x.task
      · obtain ⟨-, hrunning⟩ := hgoes.hook_of hcall
        rw [hix] at hi
        exact Stage.not_granting_of_hook hrunning hi
      · rw [stage_of_other hix] at hi
        exact hx.alone call hcall hbefore i hi
    · exact .inr ⟨x.task, call, hstarted _ hcall, rfl⟩
  · refine (h.closing client_id hbefore).move hgoes hx.succeeds ?_ ?_ hdone
      (fun i call => hpending i (.revoke, call))
    · intro call hcall hid
      exact hstart ⟨call, hcall, hid⟩
    · intro ip hip
      exact hrenewal ip hip (hx.room (client_id, ip) hip)

/-- Step lemma for a moment in which a hook starts. -/
theorem EffectInv.begins (hrevoke : srv.revoke_executor = true) (h : EffectInv srv x.state ms w)
    (hx : Orderly srv ms x)
    (hgoes : Stage.Goes srv (srv.stage_of x.task ms) (x.event srv.machine)
      (srv.stage_of x.task (ms ++ [x]))) {r : HookRun}
    (hr : hook_of (x.event srv.machine) = some r) :
    EffectInv srv (x.after srv.machine) (ms ++ [x]) (w.started x.task r) := by
  obtain ⟨hbefore, hafter⟩ := hgoes.hook_of hr
  -- the task has no hook yet
  have hfree : w.pending x.task = none := by
    cases hp : w.pending x.task with
    | none => rfl
    | some r =>
      rw [h.pending x.task r hp] at hbefore
      cases hbefore
  have hself : (w.started x.task r).pending x.task = some r := Function.update_self ..
  have hother {i : Nat} (hi : i ≠ x.task) : (w.started x.task r).pending i = w.pending i :=
    Function.update_of_ne hi ..
  constructor
  · intro i r' hi
    by_cases hix : i = x.task
    · subst hix
      rw [hself] at hi
      rw [hafter, hi]
    · rw [hother hix] at hi
      rw [stage_of_other hix]
      exact h.pending i r' hi
  · intro client_id hgone
    refine h.closing_step hrevoke hx hgoes rfl ?_ ?_ hgone
    · intro i r hi
      have hix : i ≠ x.task := by
        intro heq
        rw [heq, hfree] at hi
        cases hi
      rwa [hother hix]
    · intro r hr'
      rw [hself, ← hr, hr']

/-- Step lemma for a moment in which no hook starts. -/
theorem EffectInv.passes (hrevoke : srv.revoke_executor = true) (h : EffectInv srv x.state ms w)
    (hx : Orderly srv ms x)
    (hgoes : Stage.Goes srv (srv.stage_of x.task ms) (x.event srv.machine)
      (srv.stage_of x.task (ms ++ [x]))) (hnone : hook_of (x.event srv.machine) = none)
    (hend : EndsHook x.op → w.pending x.task = none) :
    EffectInv srv (x.after srv.machine) (ms ++ [x]) w := by
  constructor
  · intro i r hi
    by_cases hix : i = x.task
    · -- its own task cannot have seen it end
      subst hix
      rcases hgoes.of_hook (h.pending x.task r hi) with hsame | hends
      · exact hsame
      · rw [hend hends] at hi
        cases hi
    · rw [stage_of_other hix]
      exact h.pending i r hi
  · intro client_id hgone
    refine h.closing_step hrevoke hx hgoes rfl (fun i r hi => hi) ?_ hgone
    intro r hr
    rw [hnone] at hr
    cases hr

/-- Step lemma for an effect. -/
theorem EffectInv.effect {s : State} (h : EffectInv srv s ms w) {i : Nat} {r : HookRun}
    (hi : w.pending i = some r) : EffectInv srv s ms (w.taken i r) := by
  obtain ⟨y, call⟩ := r
  have hother {j : Nat} (hj : j ≠ i) : (w.taken i (y, call)).pending j = w.pending j :=
    Function.update_of_ne hj ..
  constructor
  · intro j r hj
    by_cases hji : j = i
    · subst hji
      rw [show (w.taken j (y, call)).pending j = none from Function.update_self ..] at hj
      cases hj
    · rw [hother hji] at hj
      exact h.pending j r hj
  · intro client_id hgone
    rcases h.closing client_id hgone with hto | ⟨hnone, hclosed⟩
    · exact .inl hto
    refine .inr ⟨hnone, ?_⟩
    by_cases hid : call.client_id = client_id
    · -- a grant of the client is not on its way, so this is a revoke
      left
      intro hopen
      rcases access_open_snoc.mp hopen with ⟨-, hgrant⟩ | ⟨habout, -⟩
      · have hgrant : y = .grant := hgrant
        refine hnone i ?_
        rw [hgrant] at hi
        rw [Stage.granting_of_hook (h.pending i _ hi), hid]
      · simp [About, hid] at habout
    · have habout : About client_id (y, call) = false := by simp [About, hid]
      rcases hclosed with hclosed | ⟨j, call', hj, hcall'⟩
      · left
        intro hopen
        rcases access_open_snoc.mp hopen with ⟨hsame, -⟩ | ⟨-, hopen⟩
        · rw [habout] at hsame
          cases hsame
        · exact hclosed hopen
      · refine .inr ⟨j, call', ?_, hcall'⟩
        have hji : j ≠ i := by
          intro heq
          rw [heq, hi] at hj
          obtain ⟨-, rfl⟩ := Prod.mk.inj (Option.some.inj hj)
          exact hid hcall'
        rwa [hother hji]

/-- Run lemma. -/
theorem effect_inv (hrevoke : srv.revoke_executor = true) (hw : Unfolds srv ms w)
    (hrec : Recorded srv.machine srv.prog (srv.start now unix) c ms)
    (horderly : Throughout (Orderly srv) ms) : EffectInv srv c.state ms w := by
  induction hw generalizing c with
  | start =>
    have hnone (i : Nat) : srv.stage_of i [] = .idle := rfl
    refine ⟨nofun, ?_⟩
    intro client_id _
    refine .inr ⟨?_, .inl ?_⟩
    · intro i hi
      rw [hnone] at hi
      cases hi
    · intro hopen
      cases hopen
  | begins x r _ hr ih =>
    obtain ⟨hstate, c', hrec', hx⟩ := hrec.latest
    rw [hstate]
    exact EffectInv.begins hrevoke (hx ▸ ih hrec' horderly.initial) horderly.latest
      (moment_goes hrec) hr
  | passes x _ hnone hend ih =>
    obtain ⟨hstate, c', hrec', hx⟩ := hrec.latest
    rw [hstate]
    exact EffectInv.passes hrevoke (hx ▸ ih hrec' horderly.initial) horderly.latest
      (moment_goes hrec) hnone hend
  | effect i r _ hi ih => exact (ih hrec horderly).effect hi

/-- In an orderly run, once every task has ended, the last effect for a client without a lease is
    not a grant. -/
theorem access_closed_without_lease (srv : Server) (hrevoke : srv.revoke_executor = true)
    (now : Instant) (unix : Int64) (c : Config ops State Job) (ms : List ServerMoment)
    (hrec : Recorded srv.machine srv.prog (srv.start now unix) c ms)
    (horderly : Throughout (Orderly srv) ms) (w : Effects) (hw : Unfolds srv ms w)
    (hended : AllEnded c) (client_id : Str) (hlease : c.state.leases.entry client_id = none) :
    ¬ AccessOpen client_id w.done := by
  have hInv := effect_inv hrevoke hw hrec horderly
  -- a task at its end has no hook running and none to come
  have hfinal := stage_of_ended hrec hended
  rcases hInv.closing client_id hlease with ⟨i, hi⟩ | ⟨-, hclosed | ⟨i, call, hi, -⟩⟩
  · rcases hfinal i with h | h <;> (rw [h] at hi; cases hi)
  · exact hclosed
  · have hstage := hInv.pending i _ hi
    rcases hfinal i with h | h <;> (rw [h] at hstage; cases hstage)

end run

/-- None of the first `n` tasks is about to grant access to a client whose revoke hook starts. -/
def starts_alone (srv : Server) (n : Nat) (pre : List ServerMoment) (x : ServerMoment) : Bool :=
  match hook_of (x.event srv.machine) with
  | some (.revoke, call) => (List.range n).all (fun i =>
      decide ((srv.stage_of i pre).granting_for ≠ some call.client_id))
  | _ => true

/-- Whether a run is orderly is seen from the tasks that have begun. -/
theorem orderly_of_checks (hrec : Recorded srv.machine srv.prog (srv.start now unix) c ms)
    (hsucc : ∀ x ∈ ms, succeeds (x.event srv.machine) = true)
    (hroom : ∀ x ∈ ms, ∀ r ∈ renewal_of x.op, x.state.leases.HasRoom r.1)
    (halone : ∀ k < ms.length, ms[k]?.all (srv.starts_alone c.tasks.length (ms.take k)) = true) :
    Throughout (Orderly srv) ms := by
  apply throughout_of_take
  intro k x hx
  have hmem : x ∈ ms := List.mem_of_getElem? hx
  refine ⟨hsucc x hmem, hroom x hmem, ?_⟩
  intro call hcall _ i
  by_cases hlt : i < c.tasks.length
  · have hcheck := halone k (List.getElem?_eq_some_iff.mp hx).1
    rw [hx] at hcheck
    unfold starts_alone at hcheck
    simp only [Option.all_some, hcall, List.all_eq_true, List.mem_range, decide_eq_true_iff]
      at hcheck
    exact hcheck i hlt
  · have hfresh : srv.stage_of i (ms.take k) = .idle := by
      refine Automaton.stage_of_fresh ?_
      intro y hy heq
      exact hlt (heq ▸ Automaton.owned hrec y (List.mem_of_mem_take hy))
    rw [hfresh]
    nofun

theorem access_closed_without_lease_left :
    ∃ c ms, record sample.machine sample.prog (init (sample.start 0 1000), []) pulse_then_bye =
        some (c, ms) ∧
      (ms.filterMap (fun x => hook_of (x.event sample.machine))).length = 2 ∧
      ¬ AccessOpen (sample_id 1).to_hex
        (ms.filterMap (fun x => hook_of (x.event sample.machine))) := by
  have hrun : (record sample.machine sample.prog (init (sample.start 0 1000), [])
      pulse_then_bye).any (fun t =>
        decide (AllEnded t.1) &&
        decide (∀ x ∈ t.2, succeeds (x.event sample.machine) = true) &&
        decide (∀ x ∈ t.2, ∀ r ∈ renewal_of x.op, x.state.leases.HasRoom r.1) &&
        decide (∀ k < t.2.length,
          t.2[k]?.all (sample.starts_alone t.1.tasks.length (t.2.take k)) = true) &&
        decide (t.1.state.leases.entry (sample_id 1).to_hex = none) &&
        decide ((t.2.filterMap (fun x => hook_of (x.event sample.machine))).length = 2)) =
        true := by
    decide +kernel
  obtain ⟨⟨c, ms⟩, ht, hcheck⟩ := (Option.any_eq_true _ _).mp hrun
  simp only [Bool.and_eq_true, decide_eq_true_iff] at hcheck
  obtain ⟨⟨⟨⟨⟨hend, hsucc⟩, hroom⟩, halone⟩, hlease⟩, htwo⟩ := hcheck
  have hrec : Recorded sample.machine sample.prog (sample.start 0 1000) c ms :=
    record_sound (r := (c, ms)) .start ht
  exact ⟨c, ms, ht, htwo, access_closed_without_lease sample rfl 0 1000 c ms hrec
    (orderly_of_checks hrec hsucc hroom halone) _ (.at_once sample ms) hend _ hlease⟩

/-- Client 1 pulses and leaves at once: its BYE is handled while its RESPONSE has renewed the
    lease and not yet run the grant hook. -/
def overtaken_pulse : List (Label Env Job) :=
  sample_task 0 1 (.Hello (sample_hello 1 1000 1)) 14 (sample_env 1000 1) ++
  sample_task 1 1 (.Hello (sample_hello 1 1000 2)) 14 (sample_env 1000 2) ++
  sample_task 2 1 (.Response (sample_response 1 1)) 13 (sample_env 1000 0) ++
  sample_task 3 1 (.Bye (sample_bye 1 2)) 16 (sample_env 1000 0) ++
  (List.replicate 8 (.run 2 (sample_env 1000 0)) : List (Label Env Job))

/-- The revoke hook takes effect first, and the access stays open. -/
theorem late_grant_effect :
    ∃ c ms w client_id, Recorded sample.machine sample.prog (sample.start 0 1000) c ms ∧
      Unfolds sample ms w ∧ AllEnded c ∧
      (∀ x ∈ ms, succeeds (x.event sample.machine) = true) ∧
      (∀ x ∈ ms, ∀ r ∈ renewal_of x.op,
        x.state.leases.HasRoom r.1 ∧ r.2 = (sample_peer 1).ip) ∧
      c.state.leases.entry client_id = none ∧ AccessOpen client_id w.done := by
  have hrun : (record sample.machine sample.prog (init (sample.start 0 1000), [])
      overtaken_pulse).any (fun t =>
        decide (AllEnded t.1) &&
        decide (∀ x ∈ t.2, succeeds (x.event sample.machine) = true) &&
        decide (∀ x ∈ t.2, ∀ r ∈ renewal_of x.op,
          x.state.leases.HasRoom r.1 ∧ r.2 = (sample_peer 1).ip) &&
        decide (t.1.state.leases.entry (sample_id 1).to_hex = none) &&
        decide (AccessOpen (sample_id 1).to_hex
          (t.2.filterMap (fun x => hook_of (x.event sample.machine))))) = true := by
    decide +kernel
  obtain ⟨t, ht, hcheck⟩ := (Option.any_eq_true _ _).mp hrun
  simp only [Bool.and_eq_true, decide_eq_true_iff] at hcheck
  obtain ⟨⟨⟨⟨hend, hsucc⟩, hroom⟩, hlease⟩, hopen⟩ := hcheck
  exact ⟨t.1, t.2, _, _, record_sound .start ht, .at_once sample t.2, hend, hsucc, hroom, hlease,
    hopen⟩

end Server

end SignedPulse
