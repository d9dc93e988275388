import SignedPulse.Framework.Automaton
import SignedPulse.Server.RevokeStart

/-! # The stages of a task

    What leases, cooldown and hooks can tell about a task between two of its
    operations. A RESPONSE goes from `checking` to `marking`, a BYE or a lease
    scan from `revoking` to `over`, and every other task stays `idle`.

    `prog_staged` says that every task goes through the stages as `Stage.next`
    has it; `Goes` lists the moves one by one. Together with
    `Automaton.invariant` this is what later files use of the handlers: none
    of them looks into a program again.
-/

namespace SignedPulse

namespace Server

open Interleaving

/-- A verified pulse, as far as the rest of its handler is concerned. -/
structure Pulse where
  client_id : Str
  ip : IpAddr
  port : UInt16
  param : Option Str
  is_new : Bool
  deriving DecidableEq

/-- The arguments of the grant hook. -/
def Pulse.call (p : Pulse) (ip_clients : Nat) : HookCall where
  client_id := p.client_id
  source_ip := p.ip
  source_port := p.port
  param := p.param
  is_new := p.is_new
  reason := .grant
  ip_clients := ip_clients

/-- `todo` are the ended leases whose revoke hook comes after the one at hand. A hook is `held`
    when it has its permit and no process yet. -/
inductive Stage where
  /-- Neither a lease nor a hook was touched. -/
  | idle
  /-- A live lease was renewed; the cooldown check comes next. -/
  | checking (p : Pulse)
  /-- The grant hook will run; the other clients on the IP are still to be counted. -/
  | cleared (p : Pulse)
  | granting (call : HookCall)
  | grant_held (call : HookCall)
  | grant_running (call : HookCall)
  /-- The grant hook ended in `Ok`; the cooldown is not marked yet. -/
  | marking (call : HookCall)
  | revoking (reason : Reason) (x : ExpiredLease × Nat) (todo : List (ExpiredLease × Nat))
  | revoke_held (call : HookCall) (todo : List (ExpiredLease × Nat))
  | revoke_running (call : HookCall) (todo : List (ExpiredLease × Nat))
  | over
  deriving DecidableEq

namespace Stage

/-- Go on with the ended leases that are left. -/
def proceed (reason : Reason) : List (ExpiredLease × Nat) → Stage
  | [] => .over
  | x :: todo => .revoking reason x todo

/-- Leases have ended; their revoke hooks run if one is configured. -/
def ended (srv : Server) (reason : Reason) (todo : List (ExpiredLease × Nat)) : Stage :=
  if srv.revoke_executor then proceed reason todo else .over

/-- A new session does not take the cooldown check. -/
def renewed (p : Pulse) : Stage := if p.is_new then .cleared p else .checking p

/-- The areas that stages are about. -/
def areas : List Area := [.leases, .cooldown, .hook]

def next (srv : Server) (q : Stage) : Event ops → Option Stage
  | ⟨.leases_renew client_id ip port param _, is_new⟩ =>
    match q with
    | .idle => some (renewed ⟨client_id, ip, port, param, is_new⟩)
    | _ => none
  | ⟨.leases_release _, released⟩ =>
    match q with
    | .idle => some (ended srv .bye released.toList)
    | _ => none
  | ⟨.leases_take_expired, expired⟩ =>
    match q with
    | .idle => some (ended srv .expired expired)
    | _ => none
  | ⟨.leases_others_on_ip ip client_id, n⟩ =>
    match q with
    | .cleared p =>
      if ip = p.ip ∧ client_id = p.client_id then some (.granting (p.call n)) else none
    | _ => none
  | ⟨.in_cooldown key, cooling⟩ =>
    match q with
    | .checking p =>
      if key = id_key p.client_id then some (if cooling then .over else .cleared p) else none
    | _ => none
  | ⟨.cooldown_mark key, _⟩ =>
    match q with
    | .marking call => if key = id_key call.client_id then some .over else none
    | _ => none
  | ⟨.cooldown_purge_stale, _⟩ =>
    match q with
    | .idle => some .idle
    | _ => none
  | ⟨.hook_acquire x call, permit⟩ =>
    match q with
    | .granting call' =>
      if x = .grant ∧ call = call' then some (if permit then .grant_held call else .over)
      else none
    | .revoking reason y todo =>
      -- a BYE may bring its own parameter
      if x = .revoke ∧ call = revoke_call y.1 call.param reason y.2 then
        some (if permit then .revoke_held call todo else proceed reason todo)
      else none
    | _ => none
  | ⟨.hook_spawn x call, spawned⟩ =>
    match q with
    | .grant_held call' =>
      if x = .grant ∧ call = call' then some (if spawned then .grant_running call else .over)
      else none
    | .revoke_held call' todo =>
      if x = .revoke ∧ call = call' then
        some (if spawned then .revoke_running call todo else proceed call.reason todo)
      else none
    | _ => none
  | ⟨.hook_wait x call, outcome⟩ =>
    match q with
    | .grant_running call' =>
      if x = .grant ∧ call = call' then
        some (if outcome = .failed then .over else .marking call)
      else none
    | .revoke_running call' todo =>
      if x = .revoke ∧ call = call' then some (proceed call.reason todo) else none
    | _ => none
  | _ => some q

/-- The moves of a task, one by one. -/
inductive Goes (srv : Server) : Stage → Event ops → Stage → Prop where
  /-- Anything that is about neither leases nor cooldown nor hooks. -/
  | quiet {q : Stage} {ev : Event ops} (h : ev.op.area ∉ areas) : Goes srv q ev q
  | purged : Goes srv .idle ⟨.cooldown_purge_stale, ()⟩ .idle
  | renewed (p : Pulse) (ttl : Duration) : Goes srv .idle
      ⟨.leases_renew p.client_id p.ip p.port p.param ttl, p.is_new⟩ (renewed p)
  | checked (p : Pulse) (cooling : Bool) : Goes srv (.checking p)
      ⟨.in_cooldown (id_key p.client_id), cooling⟩ (if cooling then .over else .cleared p)
  | counted (p : Pulse) (n : Nat) : Goes srv (.cleared p)
      ⟨.leases_others_on_ip p.ip p.client_id, n⟩ (.granting (p.call n))
  | released (client_id : Str) (r : Option (ExpiredLease × Nat)) : Goes srv .idle
      ⟨.leases_release client_id, r⟩ (ended srv .bye r.toList)
  | taken (expired : List (ExpiredLease × Nat)) : Goes srv .idle
      ⟨.leases_take_expired, expired⟩ (ended srv .expired expired)
  | grant_acquired (call : HookCall) (permit : Bool) : Goes srv (.granting call)
      ⟨.hook_acquire .grant call, permit⟩ (if permit then .grant_held call else .over)
  | grant_spawned (call : HookCall) (spawned : Bool) : Goes srv (.grant_held call)
      ⟨.hook_spawn .grant call, spawned⟩ (if spawned then .grant_running call else .over)
  | grant_ended (call : HookCall) (outcome : WaitOutcome) : Goes srv (.grant_running call)
      ⟨.hook_wait .grant call, outcome⟩ (if outcome = .failed then .over else .marking call)
  | revoke_acquired (reason : Reason) (x : ExpiredLease × Nat) (param : Option Str)
      (permit : Bool) (todo : List (ExpiredLease × Nat)) : Goes srv (.revoking reason x todo)
      ⟨.hook_acquire .revoke (revoke_call x.1 param reason x.2), permit⟩
      (if permit then .revoke_held (revoke_call x.1 param reason x.2) todo
        else proceed reason todo)
  | revoke_spawned (call : HookCall) (spawned : Bool) (todo : List (ExpiredLease × Nat)) :
      Goes srv (.revoke_held call todo) ⟨.hook_spawn .revoke call, spawned⟩
      (if spawned then .revoke_running call todo else proceed call.reason todo)
  | revoke_ended (call : HookCall) (outcome : WaitOutcome) (todo : List (ExpiredLease × Nat)) :
      Goes srv (.revoke_running call todo) ⟨.hook_wait .revoke call, outcome⟩
      (proceed call.reason todo)
  | marked (call : HookCall) : Goes srv (.marking call)
      ⟨.cooldown_mark (id_key call.client_id), ()⟩ .over

section moves
variable {srv : Server} {q q' : Stage} {ev : Event ops}

theorem next_of_goes (h : Goes srv q ev q') : next srv q ev = some q' := by
  cases h with
  | quiet h =>
    obtain ⟨o, r⟩ := ev
    cases o <;> first | rfl | simp [areas, Op.area] at h
  | purged => rfl
  | renewed p ttl => rfl
  | checked p cooling => simp [next]
  | counted p n => simp [next]
  | released client_id r => rfl
  | taken expired => rfl
  | grant_acquired call permit => simp [next]
  | grant_spawned call spawned => simp [next]
  | grant_ended call outcome => simp [next]
  | revoke_acquired reason x param permit todo => simp [next, revoke_call]
  | revoke_spawned call spawned todo => simp [next]
  | revoke_ended call outcome todo => simp [next]
  | marked call => simp [next]

/-- What a move can be. -/
theorem goes_of_next (h : next srv q ev = some q') : Goes srv q ev q' := by
  obtain ⟨o, r⟩ := ev
  by_cases harea : o.area ∈ areas
  swap
  · -- whatever is quiet keeps the stage
    have hquiet : next srv q ⟨o, r⟩ = some q := next_of_goes (.quiet harea)
    rw [← Option.some.inj (hquiet.symm.trans h)]
    exact .quiet harea
  cases o <;> simp [areas, Op.area] at harea
  case leases_renew client_id ip port param ttl =>
    cases q <;> cases h
    exact .renewed ⟨client_id, ip, port, param, r⟩ ttl
  case leases_release client_id =>
    cases q <;> cases h
    exact .released client_id r
  case leases_take_expired =>
    cases q <;> cases h
    exact .taken r
  case leases_others_on_ip ip client_id =>
    cases q <;> try cases h
    rename_i p
    simp only [next] at h
    split at h
    · rename_i heq
      rw [heq.1, heq.2, ← Option.some.inj h]
      exact .counted p r
    · cases h
  case in_cooldown key =>
    cases q <;> try cases h
    rename_i p
    simp only [next] at h
    split at h
    · rename_i heq
      rw [heq, ← Option.some.inj h]
      exact .checked p r
    · cases h
  case cooldown_mark key =>
    cases q <;> try cases h
    rename_i call
    simp only [next] at h
    split at h
    · rename_i heq
      rw [heq, ← Option.some.inj h]
      exact .marked call
    · cases h
  case cooldown_purge_stale =>
    cases q <;> cases h
    exact .purged
  case hook_acquire x call =>
    cases q <;> try cases h
    · rename_i call'
      simp only [next] at h
      split at h
      · rename_i heq
        rw [heq.1, heq.2, ← Option.some.inj h, heq.2]
        exact .grant_acquired call' r
      · cases h
    · rename_i reason y todo
      simp only [next] at h
      split at h
      · rename_i heq
        obtain ⟨param, hparam⟩ : ∃ param, call.param = param := ⟨_, rfl⟩
        rw [hparam] at heq
        rw [heq.1, heq.2, ← Option.some.inj h, heq.2]
        exact .revoke_acquired reason y param r todo
      · cases h
  case hook_spawn x call =>
    cases q <;> try cases h
    · rename_i call'
      simp only [next] at h
      split at h
      · rename_i heq
        rw [heq.1, heq.2, ← Option.some.inj h, heq.2]
        exact .grant_spawned call' r
      · cases h
    · rename_i call' todo
      simp only [next] at h
      split at h
      · rename_i heq
        rw [heq.1, heq.2, ← Option.some.inj h, heq.2]
        exact .revoke_spawned call' r todo
      · cases h
  case hook_wait x call =>
    cases q <;> try cases h
    · rename_i call'
      simp only [next] at h
      split at h
      · rename_i heq
        rw [heq.1, heq.2, ← Option.some.inj h, heq.2]
        exact .grant_ended call' r
      · cases h
    · rename_i call' todo
      simp only [next] at h
      split at h
      · rename_i heq
        rw [heq.1, heq.2, ← Option.some.inj h, heq.2]
        exact .revoke_ended call' r todo
      · cases h

/-! ### Progress -/

/-- Stages in the order in which a task goes through them. -/
def rank : Stage → Nat
  | .idle => 0
  | .checking _ => 1
  | .cleared _ => 2
  | .granting _ => 3
  | .grant_held _ => 4
  | .grant_running _ => 5
  | .marking _ => 6
  | .revoking .. | .revoke_held .. | .revoke_running .. => 7
  | .over => 8

theorem rank_proceed (reason : Reason) (todo : List (ExpiredLease × Nat)) :
    7 ≤ (proceed reason todo).rank := by
  cases todo <;> simp [proceed, rank]

theorem eq_over_of_rank (h : 8 ≤ q.rank) : q = .over := by
  cases q <;> first | rfl | (simp [rank] at h)

theorem eq_idle_of_rank (h : q.rank ≤ 0) : q = .idle := by
  cases q <;> first | rfl | (simp [rank] at h)

/-- A task does not go back. -/
theorem Goes.rank_le (h : Goes srv q ev q') : q.rank ≤ q'.rank := by
  cases h with
  | quiet _ => exact le_rfl
  | purged => exact le_rfl
  | renewed p ttl => exact Nat.zero_le _
  | checked p cooling => cases cooling <;> simp [rank]
  | counted p n => simp [rank]
  | released _ r => exact Nat.zero_le _
  | taken expired => exact Nat.zero_le _
  | grant_acquired call permit => cases permit <;> simp [rank]
  | grant_spawned call spawned => cases spawned <;> simp [rank]
  | grant_ended call outcome => split <;> simp [rank]
  | revoke_acquired reason x param permit todo =>
    cases permit with
    | true => exact le_rfl
    | false => exact rank_proceed reason todo
  | revoke_spawned call spawned todo =>
    cases spawned with
    | true => exact le_rfl
    | false => exact rank_proceed call.reason todo
  | revoke_ended call outcome todo => exact rank_proceed call.reason todo
  | marked call => simp [rank]

theorem Goes.not_idle (h : Goes srv q ev q') (hq : q ≠ .idle) : q' ≠ .idle := by
  have hle := h.rank_le
  intro hq'
  rw [hq'] at hle
  exact hq (eq_idle_of_rank hle)

end moves

end Stage

/-- The stages of the server's tasks. -/
def stages (srv : Server) : Automaton ops Stage where
  start := .idle
  next := Stage.next srv
  final q := q = .idle ∨ q = .over

theorem goes_of_stages {srv : Server} {q q' : Stage} {ev : Event ops}
    (h : srv.stages.next q ev = some q') : Stage.Goes srv q ev q' :=
  Stage.goes_of_next h

/-! ### Programs -/

section programs
variable {srv : Server} {q : Stage}

/-- One move of a task, and then the rest of its program. -/
theorem staged_call {α : Type} {o : Op} {f : o.Res → ServerM α} {Q : α → Stage → Prop}
    (next : o.Res → Stage) (hgoes : ∀ r, Stage.Goes srv q ⟨o, r⟩ (next r))
    (hf : ∀ r, Program.wp srv.stages.follow Q (f r) (next r)) :
    Program.wp srv.stages.follow Q (ServerM.perform o >>= f) q :=
  Automaton.wp_follow_call next (fun r => Stage.next_of_goes (hgoes r)) hf

/-- A program that is about neither leases nor cooldown nor hooks. -/
theorem staged_of_touches {α : Type} {areas : List Area} {p : ServerM α} (hp : Touches areas p)
    (hquiet : ∀ a ∈ areas, a ∉ Stage.areas) :
    Program.wp srv.stages.follow (fun _ q' => q' = q) p q := by
  refine Automaton.wp_follow_of_uses (I := ops) (P := fun o : Op => o.area ∈ areas) ?_ hp
  intro q o r ho
  exact Stage.next_of_goes (.quiet (hquiet _ ho))

/-- A hook that is invoked, started and waited for; each of these may fail. -/
theorem execute_staged {x : Executor} {call : HookCall} {held running failed : Stage}
    {ended : WaitOutcome → Stage}
    (hacquire : ∀ permit, Stage.Goes srv q ⟨.hook_acquire x call, permit⟩
      (if permit then held else failed))
    (hspawn : ∀ spawned, Stage.Goes srv held ⟨.hook_spawn x call, spawned⟩
      (if spawned then running else failed))
    (hwait : ∀ outcome, Stage.Goes srv running ⟨.hook_wait x call, outcome⟩ (ended outcome))
    {Q : Except CommandError CommandResult → Stage → Prop} (hfailed : ∀ e, Q (.error e) failed)
    (hended : ∀ e, Q (.error e) (ended .failed))
    (hok : ∀ a outcome, outcome ≠ .failed → Q (.ok a) (ended outcome)) :
    Program.wp srv.stages.follow Q (execute x call) q := by
  unfold execute
  apply staged_call _ hacquire
  intro permit
  cases permit with
  | false => exact hfailed _
  | true =>
    apply staged_call _ hspawn
    intro spawned
    cases spawned with
    | false => exact hfailed _
    | true =>
      apply staged_call _ hwait
      intro outcome
      cases outcome with
      | exited code => exact hok _ _ nofun
      | failed => exact hended _
      | timed_out => exact hok _ _ nofun

theorem run_grant_staged (name : Str) (call : HookCall) :
    Program.wp srv.stages.follow (fun _ q' => q' = .over) (run_grant name call)
      (.granting call) := by
  unfold run_grant
  have hexecute : Program.wp srv.stages.follow
      (fun r q' => q' = if r.toBool then .marking call else .over) (execute .grant call)
      (.granting call) := by
    apply execute_staged (.grant_acquired call) (.grant_spawned call) (.grant_ended call)
    · intro e
      rfl
    · intro e
      rfl
    · intro a outcome hne
      exact if_neg hne
  apply Program.wp_seq hexecute
  rintro result _ rfl
  cases result with
  | error e => exact rfl
  | ok result =>
    show Program.wp srv.stages.follow _ (note_granted name call result) (Stage.marking call)
    unfold note_granted
    apply staged_call _ (fun _ => .marked call)
    intro _
    refine staged_of_touches (?_ : Touches [.clock, .status] _) (by decide)
    exact touches_call (by simp [Op.area]) fun _ => touches_perform (by simp [Op.area])

theorem run_revoke_staged (name : Str) (reason : Reason) (x : ExpiredLease × Nat)
    (param : Option Str) (todo : List (ExpiredLease × Nat)) :
    Program.wp srv.stages.follow (fun _ q' => q' = Stage.proceed reason todo)
      (run_revoke name (revoke_call x.1 param reason x.2)) (.revoking reason x todo) := by
  unfold run_revoke
  have hexecute : Program.wp srv.stages.follow (fun _ q' => q' = Stage.proceed reason todo)
      (execute .revoke (revoke_call x.1 param reason x.2)) (.revoking reason x todo) := by
    apply execute_staged (fun permit => .revoke_acquired reason x param permit todo)
      (fun spawned => .revoke_spawned _ spawned todo) (fun outcome => .revoke_ended _ outcome todo)
    · intro e
      rfl
    · intro e
      rfl
    · intro a outcome _
      rfl
  apply Program.wp_seq hexecute
  rintro result _ rfl
  cases result with
  | error e => exact rfl
  | ok result => exact staged_of_touches (note_revoked_touches name _ result) (by decide)

theorem response_verified_staged (client_hex : Str) (interval_seconds : UInt32) (name : Str)
    (param : Option Str) (peer : SocketAddr) :
    Program.wp srv.stages.follow (fun _ q' => q' = .over)
      (srv.response_verified client_hex interval_seconds name param peer) .idle := by
  -- the rest of the handler, once the cooldown let the pulse pass
  have hgrant (is_new : Bool) : Program.wp srv.stages.follow (fun _ q' => q' = .over)
      (do
        let ip_clients ← ServerM.leases_others_on_ip peer.ip client_hex
        run_grant name
          { client_id := client_hex
            source_ip := peer.ip
            source_port := peer.port
            param := param
            is_new := is_new
            reason := .grant
            ip_clients := ip_clients })
      (.cleared ⟨client_hex, peer.ip, peer.port, param, is_new⟩) := by
    apply staged_call _ (fun n => .counted ⟨client_hex, peer.ip, peer.port, param, is_new⟩ n)
    intro n
    exact run_grant_staged name _
  unfold response_verified
  apply Program.wp_seq (staged_of_touches (note_pulse_touches name peer) (by decide))
  rintro _ _ rfl
  apply staged_call _ (fun is_new =>
    .renewed ⟨client_hex, peer.ip, peer.port, param, is_new⟩ (srv.lease_ttl interval_seconds))
  intro is_new
  cases is_new with
  | true => exact hgrant true
  | false =>
    apply staged_call _ (fun cooling =>
      .checked ⟨client_hex, peer.ip, peer.port, param, false⟩ cooling)
    intro cooling
    cases cooling with
    | true => exact rfl
    | false => exact hgrant false

theorem bye_verified_staged (client_hex : Str) (bye_param : Option Str) :
    Program.wp srv.stages.follow (fun _ q' => q' = .over)
      (srv.bye_verified client_hex bye_param) .idle := by
  unfold bye_verified
  apply staged_call _ (fun r => .released client_hex r)
  intro released
  cases released with
  | none =>
    show Stage.ended srv .bye [] = .over
    unfold Stage.ended
    split <;> rfl
  | some x =>
    obtain ⟨e, remaining⟩ := x
    dsimp only
    unfold Stage.ended
    cases srv.revoke_executor with
    | false => exact rfl
    | true => exact run_revoke_staged _ .bye (e, remaining) _ []

theorem run_lease_scan_staged :
    Program.wp srv.stages.follow (fun _ q' => q' = .over) srv.run_lease_scan .idle := by
  unfold run_lease_scan
  apply staged_call _ (fun expired => .taken expired)
  intro expired
  unfold Stage.ended
  cases srv.revoke_executor with
  | false => exact rfl
  | true =>
    -- the leases still to come are those the stage has left
    refine Program.wp_each (fun xs q' => q' = Stage.proceed .expired xs) ?_ rfl
    rintro x xs _ rfl
    exact run_revoke_staged _ .expired x x.1.param xs

/-- Every task goes through the stages. -/
theorem prog_staged (srv : Server) (job : Job) : srv.stages.Accepts (srv.prog job) := by
  -- programs outside the areas of the stages keep a task idle
  have hidle {areas : List Area} {p : ServerM Unit} (hp : Touches areas p)
      (hquiet : ∀ a ∈ areas, a ∉ Stage.areas) :
      Program.wp srv.stages.follow (fun _ q' => srv.stages.final q') p .idle :=
    Program.wp_mono (fun _ _ h => .inl h) (staged_of_touches hp hquiet)
  have hover {p : ServerM Unit}
      (h : Program.wp srv.stages.follow (fun _ q' => q' = .over) p .idle) :
      Program.wp srv.stages.follow (fun _ q' => srv.stages.final q') p .idle :=
    Program.wp_mono (fun _ _ h => .inr h) h
  cases job with
  | datagram data peer =>
    refine wp_receive (fun q => q = .idle) srv.stages.final ?_ (fun _ h => .inl h) ?_ ?_ rfl
    · -- the gates
      rintro _ o r _ ho rfl rfl
      have hnext : Stage.next srv .idle ⟨o, r⟩ = some .idle := by
        refine Stage.next_of_goes (.quiet ?_)
        intro harea
        simp [Stage.areas] at ho harea
        grind
      exact ⟨Option.isSome_of_eq_some hnext, Automaton.advance_of_next hnext⟩
    · rintro _ rfl
      refine wp_handle_datagram (.inl rfl) (hidle (note_faulty_touches _) (by decide))
        (hidle (note_rejected_touches _) (by decide)) ?_ ?_ ?_
      · intro hello reply _
        exact hidle (srv.handle_hello_touches _ _ _) (by decide)
      · intro resp reply _
        unfold handle_response
        apply Program.wp_seq
          (staged_of_touches (srv.verify_and_consume_touches _ _ _ _ _ _ _) (by decide))
        rintro verified _ rfl
        cases verified with
        | none => exact .inl rfl
        | some name =>
          apply Program.wp_seq (staged_of_touches (srv.decrypt_param_touches _) (by decide))
          rintro param _ rfl
          cases param with
          | error _ => exact .inl rfl
          | ok param => exact hover (response_verified_staged _ _ _ _ _)
      · intro bye reply _
        unfold handle_bye
        apply Program.wp_seq
          (staged_of_touches (srv.verify_and_consume_touches _ _ _ _ _ _ _) (by decide))
        rintro verified _ rfl
        cases verified with
        | none => exact .inl rfl
        | some name =>
          apply Program.wp_seq (staged_of_touches (srv.decrypt_param_touches _) (by decide))
          rintro param _ rfl
          cases param with
          | error _ => exact .inl rfl
          | ok param => exact hover (bye_verified_staged _ _)
    · -- giving the permit back
      intro q₀ r q₁ hfinal hstep
      have hsame : q₁ = q₀ := hstep
      exact ⟨rfl, hsame ▸ hfinal⟩
  | cleanup =>
    refine wp_cleanup (fun q => q = .idle) srv.stages.final ?_ ?_ rfl
    · -- the purges
      rintro _ o r _ ho rfl rfl
      have hnext : Stage.next srv .idle ⟨o, r⟩ = some .idle := by
        cases o <;> first | rfl | cases ho
      exact ⟨Option.isSome_of_eq_some hnext, Automaton.advance_of_next hnext⟩
    · rintro _ rfl
      exact hover run_lease_scan_staged

end programs

end Server

end SignedPulse
