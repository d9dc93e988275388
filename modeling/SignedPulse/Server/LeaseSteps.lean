import SignedPulse.Server.Rules

/-! # Sequential runs as lease steps

    When each task runs to its end before the next one begins and every hook
    succeeds, all that leases and hooks ever see of a task is one `LeaseStep`:
    a verified RESPONSE, a BYE, a lease scan, or nothing at all. `prog_step` is
    the refinement; `lease_invariant` takes an invariant of lease steps to
    every sequential run of the server.
-/

namespace SignedPulse

namespace Server

open Sequential

/-! ### The view -/

/-- A hook process that was started. -/
abbrev HookRun := Executor × HookCall

/-- The hook process that an event starts. -/
def hook_of : Event ops → Option HookRun
  | ⟨.hook_spawn x h, true⟩ => some (x, h)
  | _ => none

/-- The renewal that an operation makes: client and source IP. -/
def renewal_of : Op → Option (Str × IpAddr)
  | .leases_renew client_id ip _ _ _ => some (client_id, ip)
  | _ => none

/-- The hook processes started so far. -/
def hooks (log : List (Event ops)) : List HookRun := log.filterMap hook_of

/-- The lease renewals so far, one for each verified RESPONSE. -/
def renewals (log : List (Event ops)) : List (Str × IpAddr) :=
  log.filterMap (fun ev => renewal_of ev.op)

theorem hooks_snoc (log : List (Event ops)) (ev : Event ops) :
    hooks (log ++ [ev]) = hooks log ++ (hook_of ev).toList := by
  unfold hooks
  rw [List.filterMap_append, List.filterMap_cons, List.filterMap_nil]
  cases hook_of ev <;> rfl

theorem renewals_snoc (log : List (Event ops)) (ev : Event ops) :
    renewals (log ++ [ev]) = renewals log ++ (renewal_of ev.op).toList := by
  unfold renewals
  rw [List.filterMap_append, List.filterMap_cons, List.filterMap_nil]
  cases renewal_of ev.op <;> rfl

/-- What leases and hooks are about. -/
structure View where
  leases : LeaseTracker
  now : Instant
  hooks : List HookRun
  renewals : List (Str × IpAddr)

/-- The snapshot shows the view, at its time or later. -/
structure Shows (t : Snapshot ops State) (v : View) : Prop where
  leases : t.state.leases = v.leases
  now : v.now ≤ t.state.now
  hooks : Server.hooks t.log = v.hooks
  renewals : Server.renewals t.log = v.renewals

def view (t : Snapshot ops State) : View where
  leases := t.state.leases
  now := t.state.now
  hooks := Server.hooks t.log
  renewals := Server.renewals t.log

theorem shows_view (t : Snapshot ops State) : Shows t (view t) := ⟨rfl, le_rfl, rfl, rfl⟩

/-! ### What the environment may do -/

/-- Every hook invocation succeeds, and each renewal of a lease meets `Ren` in the state in which
    it is made. -/
def Within (srv : Server) (Ren : Str → IpAddr → State → Prop) (o : Op) (e : Env) (s : State) :
    Prop :=
  match o with
  | .leases_renew client_id ip _ _ _ => Ren client_id ip (tick s e)
  | .hook_acquire x _ => srv.has_permit x s = true
  | .hook_spawn _ _ => e.spawned = true
  | .hook_wait _ _ => e.outcome = .exited (some 0)
  | _ => True

instance {srv : Server} {Ren : Str → IpAddr → State → Prop}
    [∀ client_id ip s, Decidable (Ren client_id ip s)] (o : Op) (e : Env) (s : State) :
    Decidable (Within srv Ren o e s) :=
  match o with
  | .leases_renew client_id ip _ _ _ => inferInstanceAs (Decidable (Ren client_id ip (tick s e)))
  | .hook_acquire x _ => inferInstanceAs (Decidable (srv.has_permit x s = true))
  | .hook_spawn _ _ => inferInstanceAs (Decidable (e.spawned = true))
  | .hook_wait _ _ => inferInstanceAs (Decidable (e.outcome = .exited (some 0)))
  | .now_unix | .nonce_generate | .verify_payload_raw .. | .rate_limiter_check _
  | .rate_limiter_purge_stale | .seen_insert_if_absent .. | .seen_purge_expired _
  | .nonce_insert .. | .nonce_validate .. | .nonce_consume .. | .nonce_purge_expired _
  | .active_mark _ | .is_active _ | .active_purge_stale | .is_blocked _ | .under_attack
  | .note_lockdown_drop | .note_rejection | .record_faulty _ | .blacklist_purge_stale
  | .lockdown_logged_store _ | .in_cooldown _ | .cooldown_mark _ | .cooldown_purge_stale
  | .leases_release _ | .leases_others_on_ip .. | .leases_take_expired | .status_update _
  | .seal_reply .. | .send_to .. | .inflight_acquire | .inflight_release => isTrue trivial

section programs
variable {srv : Server} {Ren : Str → IpAddr → State → Prop}
variable {t : Snapshot ops State} {v : View}

/-! ### One operation -/

/-- What one operation adds to a view. -/
theorem Shows.performed (h : Shows t v) {o : Op} {e : Env} {v' : View}
    (hleases : (srv.perform o e t.state).2.leases = v'.leases)
    (hnow : v'.now ≤ t.state.now + e.elapsed)
    (hhooks : v'.hooks = v.hooks ++ (hook_of ⟨o, (srv.perform o e t.state).1⟩).toList)
    (hrenewals : v'.renewals = v.renewals ++ (renewal_of o).toList) :
    Shows (advance srv.machine o e t) v' where
  leases := hleases
  now := by
    show v'.now ≤ (srv.perform o e t.state).2.now
    rw [perform_now]
    exact hnow
  hooks := by rw [hhooks, ← h.hooks]; exact hooks_snoc _ _
  renewals := by rw [hrenewals, ← h.renewals]; exact renewals_snoc _ _

/-- An operation that is about neither leases nor hooks. -/
theorem Shows.quiet (h : Shows t v) {o : Op} {e : Env} (hleases : o.area ≠ .leases)
    (hhook : o.area ≠ .hook) : Shows (advance srv.machine o e t) v := by
  have hle := h.now
  refine h.performed ((perform_leases hleases).trans h.leases)
    (show v.now ≤ t.state.now + e.elapsed by lia) ?_ ?_
  · cases o <;> first | exact (List.append_nil _).symm | exact absurd rfl hhook
  · cases o <;> first | exact (List.append_nil _).symm | exact absurd rfl hleases

/-- A program that is about neither leases nor hooks. -/
theorem Shows.touches {α : Type} {areas : List Area} {p : ServerM α} (hp : Touches areas p)
    (hleases : Area.leases ∉ areas) (hhook : Area.hook ∉ areas) (h : Shows t v) :
    Program.wp (alone srv.machine (srv.Within Ren)) (fun _ t' => Shows t' v) p t := by
  refine Program.wp_of_uses (I := ops) (P := fun o : Op => o.area ∈ areas) ?_ hp h
  rintro t o r t' ho hshows ⟨e, -, rfl, rfl⟩
  exact ⟨trivial, hshows.quiet (fun heq => hleases (heq ▸ ho)) (fun heq => hhook (heq ▸ ho))⟩

/-! ### Hooks -/

/-- An operation on a hook that does not start it. -/
theorem Shows.hook_idle (h : Shows t v) {o : Op} {e : Env} (harea : o.area = .hook)
    (hidle : hook_of ⟨o, (srv.perform o e t.state).1⟩ = none) :
    Shows (advance srv.machine o e t) v := by
  have hle := h.now
  refine h.performed ?_ (show v.now ≤ t.state.now + e.elapsed by lia)
    (by rw [hidle]; exact (List.append_nil _).symm) ?_
  · rw [perform_leases (by rw [harea]; decide)]
    exact h.leases
  · cases o <;> first | exact (List.append_nil _).symm | exact absurd harea (by simp [Op.area])

/-- The process starts. -/
theorem Shows.hook_spawn (h : Shows t v) {x : Executor} {call : HookCall} {e : Env}
    (hspawned : e.spawned = true) :
    Shows (advance srv.machine (.hook_spawn x call) e t)
      { v with hooks := v.hooks ++ [(x, call)] } := by
  have hle := h.now
  have hres : (srv.perform (.hook_spawn x call) e t.state).1 = true := hspawned
  exact h.performed h.leases (show v.now ≤ _ by lia) (by rw [hres]; rfl) (List.append_nil _).symm

/-- A hook that succeeds is started once. -/
theorem Shows.execute (h : Shows t v) (x : Executor) (call : HookCall) :
    Program.wp (alone srv.machine (srv.Within Ren))
      (fun r t' => r = .ok { exit_code := some 0, timed_out := false } ∧
        Shows t' { v with hooks := v.hooks ++ [(x, call)] }) (execute x call) t := by
  unfold SignedPulse.execute
  refine wp_alone_perform_bind.mpr fun e₁ hA₁ => ?_
  -- a permit is free
  obtain ⟨t₁, ht₁⟩ : ∃ t₁, advance srv.machine (.hook_acquire x call) e₁ t = t₁ :=
    ⟨_, rfl⟩
  have h₁ : Shows t₁ v := ht₁ ▸ h.hook_idle rfl rfl
  have hpermit : (srv.machine.perform (.hook_acquire x call) e₁ t.state).1 = true := hA₁
  rw [hpermit, ht₁]
  refine wp_alone_perform_bind.mpr fun e₂ hA₂ => ?_
  -- the process starts: this is the hook run that the view shows
  obtain ⟨t₂, ht₂⟩ : ∃ t₂, advance srv.machine (.hook_spawn x call) e₂ t₁ = t₂ :=
    ⟨_, rfl⟩
  have h₂ : Shows t₂ { v with hooks := v.hooks ++ [(x, call)] } := ht₂ ▸ h₁.hook_spawn hA₂
  have hspawned : (srv.machine.perform (.hook_spawn x call) e₂ t₁.state).1 = true := hA₂
  rw [hspawned, ht₂]
  refine wp_alone_perform_bind.mpr fun e₃ hA₃ => ?_
  have hexited : (srv.machine.perform (.hook_wait x call) e₃ t₂.state).1 = .exited (some 0) := hA₃
  rw [hexited]
  exact ⟨rfl, h₂.hook_idle rfl rfl⟩

theorem Shows.run_grant (h : Shows t v) (name : Str) (call : HookCall) :
    Program.wp (alone srv.machine (srv.Within Ren))
      (fun _ t' => Shows t' { v with hooks := v.hooks ++ [(.grant, call)] })
      (run_grant name call) t := by
  unfold Server.run_grant
  apply Program.wp_seq (h.execute .grant call)
  rintro _ t₁ ⟨rfl, h₁⟩
  exact h₁.touches (note_granted_touches name call _) (by decide) (by decide)

theorem Shows.run_revoke (h : Shows t v) (name : Str) (call : HookCall) :
    Program.wp (alone srv.machine (srv.Within Ren))
      (fun _ t' => Shows t' { v with hooks := v.hooks ++ [(.revoke, call)] })
      (run_revoke name call) t := by
  unfold Server.run_revoke
  apply Program.wp_seq (h.execute .revoke call)
  rintro _ t₁ ⟨rfl, h₁⟩
  exact h₁.touches (note_revoked_touches name call _) (by decide) (by decide)

end programs

/-! ### Lease steps -/

/-- The revoke hook runs of leases that ended, when a revoke hook is configured. -/
def revokes (srv : Server) (ended : List (ExpiredLease × Nat)) (param : ExpiredLease → Option Str)
    (reason : Reason) : List HookRun :=
  if srv.revoke_executor then
    ended.map (fun x => (.revoke, revoke_call x.1 (param x.1) reason x.2))
  else []

/-- What one task does, as seen by leases and hooks. -/
inductive LeaseStep (srv : Server) (Ren : Str → IpAddr → State → Prop) : View → View → Prop where
  /-- A rejected datagram, a HELLO, a BYE without a lease. -/
  | idle {v v' : View} (hleases : v'.leases = v.leases) (hhooks : v'.hooks = v.hooks)
      (hrenewals : v'.renewals = v.renewals) (hnow : v.now ≤ v'.now) : LeaseStep srv Ren v v'
  /-- A verified RESPONSE; `s` is the state in which the lease is renewed. -/
  | response {v v' : View} (s : State) (client_id : Str) (ip : IpAddr) (port : UInt16)
      (param : Option Str) (ttl : Duration) (is_new : Bool) (hs : s.leases = v.leases)
      (hbefore : v.now ≤ s.now) (hafter : s.now ≤ v'.now) (hren : Ren client_id ip s)
      (hnew : (v.leases.renew_at client_id ip port param ttl s.now).1 = is_new)
      (hleases : v'.leases = (v.leases.renew_at client_id ip port param ttl s.now).2)
      (hrenewals : v'.renewals = v.renewals ++ [(client_id, ip)])
      (hhooks : (is_new = false ∧ v'.hooks = v.hooks ∧
          ∃ n, s.now ≤ n ∧ s.cooldown.in_cooldown (id_key client_id) n = true) ∨
        ∃ others, v'.hooks = v.hooks ++ [(.grant,
          { client_id := client_id, source_ip := ip, source_port := port, param := param,
            is_new := is_new, reason := .grant, ip_clients := others })]) :
      LeaseStep srv Ren v v'
  /-- A verified BYE that releases a lease. -/
  | bye {v v' : View} (n : Instant) (client_id : Str) (e : ExpiredLease) (remaining : Nat)
      (bye_param : Option Str) (hbefore : v.now ≤ n) (hafter : n ≤ v'.now)
      (hreleased : (v.leases.release_at client_id n).1 = some (e, remaining))
      (hleases : v'.leases = (v.leases.release_at client_id n).2)
      (hrenewals : v'.renewals = v.renewals)
      (hhooks : v'.hooks = v.hooks ++
        srv.revokes [(e, remaining)] (fun e => bye_param.or e.param) .bye) : LeaseStep srv Ren v v'
  /-- A cleanup tick with its lease scan. -/
  | scan {v v' : View} (n : Instant) (order : List Nat) (hbefore : v.now ≤ n) (hafter : n ≤ v'.now)
      (hleases : v'.leases = (v.leases.take_expired_at n order).2)
      (hrenewals : v'.renewals = v.renewals)
      (hhooks : v'.hooks = v.hooks ++
        srv.revokes (v.leases.take_expired_at n order).1 (fun e => e.param) .expired) :
      LeaseStep srv Ren v v'

section refinement
variable {srv : Server} {Ren : Str → IpAddr → State → Prop}
variable {t : Snapshot ops State} {v : View}

/-- A snapshot that still shows the old view. -/
theorem LeaseStep.of_idle (h : Shows t v) : LeaseStep srv Ren v (view t) :=
  .idle h.leases h.hooks h.renewals h.now

/-- The view after a renewal. -/
def View.renewed (v : View) (client_id : Str) (ip : IpAddr) (port : UInt16) (param : Option Str)
    (ttl : Duration) (n : Instant) : View where
  leases := (v.leases.renew_at client_id ip port param ttl n).2
  now := n
  hooks := v.hooks
  renewals := v.renewals ++ [(client_id, ip)]

theorem Shows.renew (h : Shows t v) (client_id : Str) (peer : SocketAddr) (param : Option Str)
    (ttl : Duration) (e : Env) :
    Shows (advance srv.machine (.leases_renew client_id peer.ip peer.port param ttl) e t)
      (v.renewed client_id peer.ip peer.port param ttl (t.state.now + e.elapsed)) := by
  refine h.performed ?_ le_rfl (List.append_nil _).symm rfl
  show (t.state.leases.renew_at _ _ _ _ _ _).2 = _
  rw [h.leases]
  rfl

/-- Counting the other clients on an IP changes nothing. -/
theorem Shows.others_on_ip (h : Shows t v) (ip : IpAddr) (client_id : Str) (e : Env) :
    Shows (advance srv.machine (.leases_others_on_ip ip client_id) e t) v := by
  have hle := h.now
  exact h.performed h.leases (show v.now ≤ t.state.now + e.elapsed by lia) (List.append_nil _).symm
    (List.append_nil _).symm

/-- The grant hook of a verified RESPONSE. -/
theorem Shows.grant (h : Shows t v) (client_hex name : Str) (param : Option Str)
    (peer : SocketAddr) (is_new : Bool) :
    Program.wp (alone srv.machine (srv.Within Ren))
      (fun _ t' => ∃ others, Shows t' { v with hooks := v.hooks ++ [(.grant,
        { client_id := client_hex, source_ip := peer.ip, source_port := peer.port,
          param := param, is_new := is_new, reason := .grant, ip_clients := others })] })
      (do
        let ip_clients ← ServerM.leases_others_on_ip peer.ip client_hex
        Server.run_grant name
          { client_id := client_hex
            source_ip := peer.ip
            source_port := peer.port
            param := param
            is_new := is_new
            reason := .grant
            ip_clients := ip_clients }) t := by
  refine wp_alone_perform_bind.mpr fun e _ => ?_
  obtain ⟨others, hothers⟩ :
      ∃ n, (srv.machine.perform (.leases_others_on_ip peer.ip client_hex) e t.state).1 = n :=
    ⟨_, rfl⟩
  have h₁ : Shows (advance srv.machine (.leases_others_on_ip peer.ip client_hex) e t) v :=
    h.others_on_ip peer.ip client_hex e
  rw [hothers]
  exact Program.wp_mono (fun _ _ hshows => ⟨others, hshows⟩) (h₁.run_grant name _)

/-- The rest of `response_verified`, once the lease is renewed in the state `s`. -/
theorem renewed_step {client_hex : Str} {param : Option Str} {peer : SocketAddr} {ttl : Duration}
    {s : State} {is_new : Bool} (hs : s.leases = v.leases) (hbefore : v.now ≤ s.now)
    (hren : Ren client_hex peer.ip s)
    (hnew : (v.leases.renew_at client_hex peer.ip peer.port param ttl s.now).1 = is_new)
    (h : Shows t (v.renewed client_hex peer.ip peer.port param ttl s.now))
    (hnow : t.state.now = s.now) (hcooldown : t.state.cooldown = s.cooldown) (name : Str) :
    Program.wp (alone srv.machine (srv.Within Ren)) (fun _ t' => LeaseStep srv Ren v (view t'))
      (do
        let skip ← within_cooldown is_new client_hex
        if skip then return ()
        else
          let ip_clients ← ServerM.leases_others_on_ip peer.ip client_hex
          run_grant name
            { client_id := client_hex
              source_ip := peer.ip
              source_port := peer.port
              param := param
              is_new := is_new
              reason := .grant
              ip_clients := ip_clients }) t := by
  have hgranted : ∀ (_ : Unit) (t' : Snapshot ops State),
      (∃ others, Shows t' { v.renewed client_hex peer.ip peer.port param ttl s.now with
        hooks := v.hooks ++ [(.grant,
          { client_id := client_hex, source_ip := peer.ip, source_port := peer.port,
            param := param, is_new := is_new, reason := .grant, ip_clients := others })] }) →
      LeaseStep srv Ren v (view t') := by
    rintro _ t' ⟨others, h'⟩
    exact .response s client_hex peer.ip peer.port param ttl is_new hs hbefore h'.now hren hnew
      h'.leases h'.renewals (.inr ⟨others, h'.hooks⟩)
  cases is_new with
  | true => exact Program.wp_mono hgranted (h.grant client_hex name param peer true)
  | false =>
    refine wp_alone_perform_bind.mpr fun e _ => ?_
    have h₁ : Shows (advance srv.machine (.in_cooldown (id_key client_hex)) e t)
        (v.renewed client_hex peer.ip peer.port param ttl s.now) :=
      h.quiet (by simp [Op.area]) (by simp [Op.area])
    split
    · -- the cooldown has the grant skipped
      rename_i hskip
      have hskip : t.state.cooldown.in_cooldown (id_key client_hex) (t.state.now + e.elapsed) =
          true := hskip
      rw [hcooldown, hnow] at hskip
      exact .response s client_hex peer.ip peer.port param ttl false hs hbefore h₁.now hren hnew
        h₁.leases h₁.renewals (.inl ⟨rfl, h₁.hooks, _, Nat.le_add_right _ _, hskip⟩)
    · exact Program.wp_mono hgranted (h₁.grant client_hex name param peer false)

theorem response_verified_step (h : Shows t v) (client_hex : Str) (interval_seconds : UInt32)
    (name : Str) (param : Option Str) (peer : SocketAddr) :
    Program.wp (alone srv.machine (srv.Within Ren)) (fun _ t' => LeaseStep srv Ren v (view t'))
      (srv.response_verified client_hex interval_seconds name param peer) t := by
  unfold response_verified
  apply Program.wp_seq (h.touches (note_pulse_touches name peer) (by decide) (by decide))
  intro _ t₁ h₁
  obtain ⟨ttl, httl⟩ : ∃ ttl, srv.lease_ttl interval_seconds = ttl := ⟨_, rfl⟩
  rw [httl]
  refine wp_alone_perform_bind.mpr fun e hren => ?_
  have hbefore : v.now ≤ (tick t₁.state e).now := h₁.now.trans (Nat.le_add_right _ _)
  have hnew : (v.leases.renew_at client_hex peer.ip peer.port param ttl (tick t₁.state e).now).1 =
      (srv.machine.perform (.leases_renew client_hex peer.ip peer.port param ttl) e
        t₁.state).1 := by
    rw [← h₁.leases]
    rfl
  exact renewed_step (s := tick t₁.state e) h₁.leases hbefore hren hnew
    (h₁.renew client_hex peer param ttl e) rfl rfl name

theorem bye_verified_step (h : Shows t v) (client_hex : Str) (bye_param : Option Str) :
    Program.wp (alone srv.machine (srv.Within Ren)) (fun _ t' => LeaseStep srv Ren v (view t'))
      (srv.bye_verified client_hex bye_param) t := by
  have hle := h.now
  unfold bye_verified
  refine wp_alone_perform_bind.mpr fun e _ => ?_
  obtain ⟨n, hn⟩ : ∃ n, t.state.now + e.elapsed = n := ⟨_, rfl⟩
  have hbefore : v.now ≤ n := hn ▸ hle.trans (Nat.le_add_right _ _)
  have hresult : (srv.machine.perform (.leases_release client_hex) e t.state).1 =
      (v.leases.release_at client_hex n).1 := by
    rw [← h.leases, ← hn]
    rfl
  have h₁ : Shows (advance srv.machine (.leases_release client_hex) e t)
      { v with leases := (v.leases.release_at client_hex n).2, now := n } := by
    refine h.performed ?_ (show n ≤ t.state.now + e.elapsed from hn.ge) (List.append_nil _).symm
      (List.append_nil _).symm
    rw [← h.leases, ← hn]
    rfl
  rw [hresult]
  cases hreleased : (v.leases.release_at client_hex n).1 with
  | none =>
    -- without a lease the release changes nothing
    have hsame : (v.leases.release_at client_hex n).2 = v.leases :=
      LeaseTracker.release_at_none hreleased
    exact .idle (h₁.leases.trans hsame) h₁.hooks h₁.renewals (hbefore.trans h₁.now)
  | some x =>
    obtain ⟨ended, remaining⟩ := x
    dsimp only
    split
    · rename_i hno
      refine .bye n client_hex ended remaining bye_param hbefore h₁.now hreleased h₁.leases
        h₁.renewals (h₁.hooks.trans ?_)
      have hno : srv.revoke_executor = false := by simpa using hno
      simp [revokes, hno]
    · rename_i hyes
      have hyes : srv.revoke_executor = true := by simpa using hyes
      refine Program.wp_mono ?_ (h₁.run_revoke _ _)
      intro _ t' h'
      refine .bye n client_hex ended remaining bye_param hbefore h'.now hreleased h'.leases
        h'.renewals (h'.hooks.trans ?_)
      simp [revokes, hyes]

/-- The revoke hooks of a lease scan run one after the other. -/
theorem Shows.revoke_each (h : Shows t v) (name : ExpiredLease × Nat → Str)
    (call : ExpiredLease × Nat → HookCall) (expired : List (ExpiredLease × Nat)) :
    Program.wp (alone srv.machine (srv.Within Ren))
      (fun _ t' => Shows t'
        { v with hooks := v.hooks ++ expired.map (fun x => (.revoke, call x)) })
      (Program.each (fun x => Server.run_revoke (name x) (call x)) expired) t := by
  -- the invariant speaks of the hooks that have run and of the leases still to come
  refine Program.wp_mono ?_ (Program.wp_each (fun xs t => ∃ done : List HookRun,
    done ++ xs.map (fun x => (.revoke, call x)) = expired.map (fun x => (.revoke, call x)) ∧
      Shows t { v with hooks := v.hooks ++ done }) ?_ ⟨[], rfl, ?_⟩)
  · rintro _ t' ⟨done, hdone, hshows⟩
    rw [List.map_nil, List.append_nil] at hdone
    exact hdone ▸ hshows
  · rintro x xs t₁ ⟨done, hdone, hshows⟩
    refine Program.wp_mono ?_ (hshows.run_revoke (name x) (call x))
    intro _ t₂ h₂
    refine ⟨done ++ [(.revoke, call x)], by simpa using hdone, ?_⟩
    rwa [List.append_assoc] at h₂
  · rw [List.append_nil]
    exact h

theorem run_lease_scan_step (h : Shows t v) :
    Program.wp (alone srv.machine (srv.Within Ren)) (fun _ t' => LeaseStep srv Ren v (view t'))
      srv.run_lease_scan t := by
  have hle := h.now
  unfold run_lease_scan
  refine wp_alone_perform_bind.mpr fun e _ => ?_
  obtain ⟨n, hn⟩ : ∃ n, t.state.now + e.elapsed = n := ⟨_, rfl⟩
  have hbefore : v.now ≤ n := hn ▸ hle.trans (Nat.le_add_right _ _)
  have hresult : (srv.machine.perform .leases_take_expired e t.state).1 =
      (v.leases.take_expired_at n e.order).1 := by
    rw [← h.leases, ← hn]
    rfl
  have h₁ : Shows (advance srv.machine .leases_take_expired e t)
      { v with leases := (v.leases.take_expired_at n e.order).2, now := n } := by
    refine h.performed ?_ (show n ≤ t.state.now + e.elapsed from hn.ge) (List.append_nil _).symm
      (List.append_nil _).symm
    rw [← h.leases, ← hn]
    rfl
  rw [hresult]
  split
  · rename_i hno
    have hno : srv.revoke_executor = false := by simpa using hno
    refine .scan n e.order hbefore h₁.now h₁.leases h₁.renewals (h₁.hooks.trans ?_)
    simp [revokes, hno]
  · rename_i hyes
    have hyes : srv.revoke_executor = true := by simpa using hyes
    refine Program.wp_mono ?_ (h₁.revoke_each _ _ _)
    intro _ t' h'
    refine .scan n e.order hbefore h'.now h'.leases h'.renewals (h'.hooks.trans ?_)
    simp [revokes, hyes]

/-! ### Tasks -/

/-- What is not seen by leases and hooks may follow a step. -/
theorem LeaseStep.then_idle {v' v'' : View} (h : LeaseStep srv Ren v v')
    (hleases : v''.leases = v'.leases) (hhooks : v''.hooks = v'.hooks)
    (hrenewals : v''.renewals = v'.renewals) (hnow : v'.now ≤ v''.now) :
    LeaseStep srv Ren v v'' := by
  cases h with
  | idle h₁ h₂ h₃ h₄ =>
    exact .idle (hleases.trans h₁) (hhooks.trans h₂) (hrenewals.trans h₃) (h₄.trans hnow)
  | response s client_id ip port param ttl is_new hs hbefore hafter hren hnew h₁ h₃ h₂ =>
    exact .response s client_id ip port param ttl is_new hs hbefore (hafter.trans hnow) hren hnew
      (hleases.trans h₁) (hrenewals.trans h₃) (hhooks ▸ h₂)
  | bye n client_id ended remaining bye_param hbefore hafter hreleased h₁ h₃ h₂ =>
    exact .bye n client_id ended remaining bye_param hbefore (hafter.trans hnow) hreleased
      (hleases.trans h₁) (hrenewals.trans h₃) (hhooks.trans h₂)
  | scan n order hbefore hafter h₁ h₃ h₂ =>
    exact .scan n order hbefore (hafter.trans hnow) (hleases.trans h₁) (hrenewals.trans h₃)
      (hhooks.trans h₂)

theorem handle_response_step (h : Shows t v) (resp : Response) (peer : SocketAddr) :
    Program.wp (alone srv.machine (srv.Within Ren)) (fun _ t' => LeaseStep srv Ren v (view t'))
      (srv.handle_response resp peer) t := by
  unfold handle_response
  apply Program.wp_seq
    (h.touches (srv.verify_and_consume_touches _ _ _ _ _ _ _) (by decide) (by decide))
  intro verified t₁ h₁
  cases verified with
  | none => exact .of_idle h₁
  | some name =>
    apply Program.wp_seq (h₁.touches (srv.decrypt_param_touches _) (by decide) (by decide))
    intro param t₂ h₂
    cases param with
    | error _ => exact .of_idle h₂
    | ok param => exact response_verified_step h₂ _ _ _ _ _

theorem handle_bye_step (h : Shows t v) (bye : Bye) (peer : SocketAddr) :
    Program.wp (alone srv.machine (srv.Within Ren)) (fun _ t' => LeaseStep srv Ren v (view t'))
      (srv.handle_bye bye peer) t := by
  unfold handle_bye
  apply Program.wp_seq
    (h.touches (srv.verify_and_consume_touches _ _ _ _ _ _ _) (by decide) (by decide))
  intro verified t₁ h₁
  cases verified with
  | none => exact .of_idle h₁
  | some name =>
    apply Program.wp_seq (h₁.touches (srv.decrypt_param_touches _) (by decide) (by decide))
    intro bye_param t₂ h₂
    cases bye_param with
    | error _ => exact .of_idle h₂
    | ok bye_param => exact bye_verified_step h₂ _ _

/-- Every task of a sequential run is one lease step. -/
theorem prog_step (srv : Server) (Ren : Str → IpAddr → State → Prop) (job : Job)
    (t : Snapshot ops State) :
    Program.wp (alone srv.machine (srv.Within Ren))
      (fun _ t' => LeaseStep srv Ren (view t) (view t')) (srv.prog job) t := by
  have hidle {areas : List Area} {p : ServerM Unit} (hp : Touches areas p)
      (hleases : Area.leases ∉ areas) (hhook : Area.hook ∉ areas) {t₁ : Snapshot ops State}
      (h₁ : Shows t₁ (view t)) :
      Program.wp (alone srv.machine (srv.Within Ren))
        (fun _ t' => LeaseStep srv Ren (view t) (view t')) p t₁ :=
    Program.wp_mono (fun _ _ h => .of_idle h) (h₁.touches hp hleases hhook)
  cases job with
  | datagram data peer =>
    refine wp_receive (fun t' => Shows t' (view t))
      (fun t' => LeaseStep srv Ren (view t) (view t')) ?_ (fun _ h => .of_idle h) ?_ ?_
      (shows_view t)
    · rintro t₁ o r t₂ ho h₁ ⟨e, -, rfl, rfl⟩
      refine ⟨trivial, h₁.quiet ?_ ?_⟩ <;> (intro heq; simp [heq] at ho)
    · intro t₁ h₁
      refine wp_handle_datagram (.of_idle h₁) (hidle (note_faulty_touches _) (by decide)
        (by decide) h₁) (hidle (note_rejected_touches _) (by decide) (by decide) h₁) ?_ ?_ ?_
      · intro hello reply _
        exact hidle (srv.handle_hello_touches _ _ _) (by decide) (by decide) h₁
      · intro resp reply _
        exact handle_response_step h₁ resp peer
      · intro bye reply _
        exact handle_bye_step h₁ bye peer
    · -- the permit is given back
      rintro t₁ r t₂ hstep ⟨e, -, rfl, rfl⟩
      have h₂ : Shows (advance srv.machine .inflight_release e t₁) (view t₁) :=
        (shows_view t₁).quiet (by simp [Op.area]) (by simp [Op.area])
      exact ⟨trivial, hstep.then_idle h₂.leases h₂.hooks h₂.renewals h₂.now⟩
  | cleanup =>
    refine wp_cleanup (fun t' => Shows t' (view t))
      (fun t' => LeaseStep srv Ren (view t) (view t')) ?_ (fun _ h => run_lease_scan_step h)
      (shows_view t)
    rintro t₁ o r t₂ ho h₁ ⟨e, -, rfl, rfl⟩
    refine ⟨trivial, h₁.quiet ?_ ?_⟩ <;> (intro heq; cases o <;> simp_all [purges, Op.area])

/-- Run rule: what every lease step preserves holds after every sequential run. -/
theorem lease_invariant (Inv : View → Prop) {now : Instant} {unix : Int64}
    (h0 : Inv (view { state := srv.start now unix, log := [] }))
    (hstep : ∀ v v', Inv v → LeaseStep srv Ren v v' → Inv v') {js : List Job}
    (h : Run srv.machine (srv.Within Ren) srv.prog (srv.start now unix) js t) : Inv (view t) := by
  refine h.invariant (fun t => Inv (view t)) h0 ?_
  intro j t hInv
  exact Program.wp_mono (fun _ t' h' => hstep _ _ hInv h') (srv.prog_step Ren j t)

end refinement

end Server

end SignedPulse
