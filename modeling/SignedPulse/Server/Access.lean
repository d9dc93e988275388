import SignedPulse.Framework.Trace
import SignedPulse.Server.LeaseSteps

/-! # Access and its lease

    A grant hook opens a source IP for a client and a revoke hook closes it
    again. Over sequential runs, two questions about the lease table:

    - is every IP that is open for a client on record, so that its revoke hook
      will run?
    - is the IP a client pulses from the one that was granted to it last?

    Both hold as long as the client does not show up at another IP too early,
    and `moved_client_forgotten` and `moved_client_not_granted` show what
    happens when it does.
-/

namespace SignedPulse

namespace Server

open Sequential Trace

/-! ### What the hooks have done -/

/-- A grant hook for the client on the IP. -/
def GrantOf (client_id : Str) (ip : IpAddr) (x : HookRun) : Prop :=
  x.1 = .grant ∧ x.2.client_id = client_id ∧ x.2.source_ip = ip

/-- A revoke hook for the client on the IP. -/
def RevokeOf (client_id : Str) (ip : IpAddr) (x : HookRun) : Prop :=
  x.1 = .revoke ∧ x.2.client_id = client_id ∧ x.2.source_ip = ip

instance (client_id : Str) (ip : IpAddr) : DecidablePred (GrantOf client_id ip) :=
  fun _ => inferInstanceAs (Decidable (_ ∧ _))

instance (client_id : Str) (ip : IpAddr) : DecidablePred (RevokeOf client_id ip) :=
  fun _ => inferInstanceAs (Decidable (_ ∧ _))

/-- A grant hook was run for the client on the IP, and no revoke hook since. -/
def Opened (client_id : Str) (ip : IpAddr) (hs : List HookRun) : Prop :=
  Since (GrantOf client_id ip) (RevokeOf client_id ip) hs

instance (client_id : Str) (ip : IpAddr) (hs : List HookRun) : Decidable (Opened client_id ip hs) :=
  decidable_since hs

/-- The most recent hook for the client. -/
def last_hook (client_id : Str) (hs : List HookRun) : Option HookRun :=
  last (fun x => decide (x.2.client_id = client_id)) hs

section revokes
variable {srv : Server} {ended : List (ExpiredLease × Nat)} {param : ExpiredLease → Option Str}
variable {reason : Reason}

theorem mem_revokes {x : HookRun} : x ∈ srv.revokes ended param reason ↔
    srv.revoke_executor = true ∧ ∃ e remaining, (e, remaining) ∈ ended ∧
      x = (.revoke, revoke_call e (param e) reason remaining) := by
  unfold revokes
  split
  · rename_i hyes
    simp only [hyes, true_and, List.mem_map, Prod.exists]
    exact exists₂_congr fun e n => and_congr_right fun _ => eq_comm
  · rename_i hno
    simp [hno]

theorem not_grantOf_of_mem_revokes {client_id : Str} {ip : IpAddr} :
    ∀ x ∈ srv.revokes ended param reason, ¬ GrantOf client_id ip x := by
  rintro x hx ⟨hgrant, -⟩
  obtain ⟨-, e, n, -, rfl⟩ := mem_revokes.mp hx
  cases hgrant

/-- Revoke hooks close what they name. -/
theorem opened_append_revokes {client_id : Str} {ip : IpAddr} {hs : List HookRun}
    (hrevoke : srv.revoke_executor = true) :
    Opened client_id ip (hs ++ srv.revokes ended param reason) ↔ Opened client_id ip hs ∧
      ∀ e remaining, (e, remaining) ∈ ended → e.client_id = client_id → e.ip ≠ ip := by
  unfold Opened
  rw [since_append not_grantOf_of_mem_revokes]
  refine and_congr_right fun _ => ⟨?_, ?_⟩
  · intro h e n hmem hid hip
    exact h _ (mem_revokes.mpr ⟨hrevoke, e, n, hmem, rfl⟩) ⟨rfl, hid, hip⟩
  · rintro h x hx ⟨-, hid, hip⟩
    obtain ⟨-, e, n, hmem, rfl⟩ := mem_revokes.mp hx
    exact h e n hmem hid hip

end revokes

/-! ### Open addresses are on record -/

/-- The client holds no lease entry on another IP. -/
def StaysPut (client_id : Str) (ip : IpAddr) (s : State) : Prop :=
  ∀ l, s.leases.entry client_id = some l → l.ip = ip

instance (client_id : Str) (ip : IpAddr) (s : State) : Decidable (StaysPut client_id ip s) :=
  inferInstanceAs (Decidable (∀ l ∈ s.leases.entry client_id, l.ip = ip))

/-- The lease table has room for the client. -/
def BelowCap (client_id : Str) (_ : IpAddr) (s : State) : Prop := s.leases.HasRoom client_id

instance (client_id : Str) (ip : IpAddr) (s : State) : Decidable (BelowCap client_id ip s) :=
  inferInstanceAs (Decidable (s.leases.HasRoom client_id))

/-- Every address that is open for a client is the address of its lease entry. -/
def OnRecord (leases : LeaseTracker) (hs : List HookRun) : Prop :=
  ∀ client_id ip, Opened client_id ip hs → ∃ l, leases.entry client_id = some l ∧ l.ip = ip

/-- Step lemma. -/
theorem on_record_step {srv : Server} (hrevoke : srv.revoke_executor = true) {v v' : View}
    (h : OnRecord v.leases v.hooks)
    (hstep : LeaseStep srv (fun client_id ip s => BelowCap client_id ip s ∧ StaysPut client_id ip s)
      v v') : OnRecord v'.leases v'.hooks := by
  intro c a hopened
  cases hstep with
  | idle hleases hhooks _ _ =>
    rw [hhooks] at hopened
    rw [hleases]
    exact h c a hopened
  | response s client_id ip port param ttl is_new hs _ _ hren _ hleases _ hhooks =>
    obtain ⟨hroom, hput⟩ := hren
    unfold BelowCap at hroom
    unfold StaysPut at hput
    rw [hs] at hroom hput
    -- there is room, so the entry of the client is replaced
    have hentry : v'.leases.entry c = if c = client_id then
        some { expires_at := s.now + ttl, ip := ip, source_port := port, param := param }
        else v.leases.entry c := by
      rw [hleases]
      exact LeaseTracker.entry_renew_at hroom
    -- an address that was open before is still on record
    have hold (hopened : Opened c a v.hooks) :
        ∃ l, v'.leases.entry c = some l ∧ l.ip = a := by
      obtain ⟨l, hl, hip⟩ := h c a hopened
      rw [hentry]
      split
      · rename_i hc
        refine ⟨_, rfl, ?_⟩
        rw [← hput l (hc ▸ hl), hip]
      · exact ⟨l, hl, hip⟩
    rcases hhooks with ⟨-, hhooks, -⟩ | ⟨others, hhooks⟩
    · rw [hhooks] at hopened
      exact hold hopened
    · rw [hhooks] at hopened
      rcases since_snoc.mp hopened with ⟨-, hid, hip⟩ | ⟨hopened, -⟩
      · exact ⟨_, hentry.trans (if_pos hid.symm), hip⟩
      · exact hold hopened
  | bye n client_id e remaining bye_param _ _ hreleased hleases _ hhooks =>
    rw [hhooks, opened_append_revokes hrevoke] at hopened
    obtain ⟨hopened, hclosed⟩ := hopened
    obtain ⟨l, hl, hip⟩ := h c a hopened
    -- the released entry is the only one to go, and its revoke hook closes its address
    obtain ⟨l', hl', rfl, -⟩ := LeaseTracker.release_at_some hreleased
    refine ⟨l, ?_, hip⟩
    rw [hleases, LeaseTracker.entry_release_at, if_neg ?_]
    · exact hl
    · rintro rfl
      obtain rfl : l = l' := Option.some.inj (hl.symm.trans hl')
      exact hclosed _ remaining (List.mem_singleton.mpr rfl) rfl hip
  | scan n order _ _ hleases _ hhooks =>
    rw [hhooks, opened_append_revokes hrevoke] at hopened
    obtain ⟨hopened, hclosed⟩ := hopened
    obtain ⟨l, hl, hip⟩ := h c a hopened
    refine ⟨l, ?_, hip⟩
    rw [hleases, LeaseTracker.entry_take_expired_at, hl, Option.filter_some, if_pos ?_]
    -- a drained entry had its revoke hook run
    by_contra hdead
    exact hclosed _ _ (LeaseTracker.drained_of_dead hl (by simpa using hdead) order) rfl hip

/-- As long as every verified RESPONSE finds no lease entry of its client on another IP, no open
    address is forgotten. -/
theorem opened_address_on_record {srv : Server} (hrevoke : srv.revoke_executor = true)
    {now : Instant} {unix : Int64} {js : List Job} {t : Snapshot ops State}
    (h : Run srv.machine
      (srv.Within fun client_id ip s => BelowCap client_id ip s ∧ StaysPut client_id ip s)
      srv.prog (srv.start now unix) js t) :
    ∀ client_id ip, Opened client_id ip (hooks t.log) →
      ∃ l, t.state.leases.entry client_id = some l ∧ l.ip = ip :=
  lease_invariant (fun v => OnRecord v.leases v.hooks)
    (fun _ _ hopened => absurd hopened since_nil)
    (fun _ _ hInv hs => on_record_step hrevoke hInv hs) h

/-- Client 1 pulses from one address, and 100 seconds later from another. -/
def moved_client : List (Job × List Env) :=
  sample_pulse 1 (sample_peer 1) 1 (sample_env 1000 0) ++
    sample_pulse 1 (sample_peer 2) 2 { sample_env 1000 0 with elapsed := 100000000000 }

/-- The first address stays open, and nothing remembers it. -/
theorem moved_client_forgotten :
    ∃ js t, Run sample.machine (sample.Within BelowCap) sample.prog (sample.start 0 1000) js t ∧
      Opened (sample_id 1).to_hex (sample_peer 1).ip (hooks t.log) ∧
      ¬ ∃ l, t.state.leases.entry (sample_id 1).to_hex = some l ∧ l.ip = (sample_peer 1).ip := by
  have hrun : (run_jobs sample.machine (sample.Within BelowCap) sample.prog moved_client
      { state := sample.start 0 1000, log := [] }).any (fun t =>
        decide (Opened (sample_id 1).to_hex (sample_peer 1).ip (hooks t.log)) &&
        decide (¬ ∃ l ∈ t.state.leases.entry (sample_id 1).to_hex, l.ip = (sample_peer 1).ip)) =
      true := by decide +kernel
  obtain ⟨t, ht, hcheck⟩ := (Option.any_eq_true _ _).mp hrun
  rw [Bool.and_eq_true, decide_eq_true_iff, decide_eq_true_iff] at hcheck
  exact ⟨_, t, run_jobs_sound .start ht, hcheck⟩

/-- Client 1 pulses twice from one address, and from another once its lease has expired and was
    drained. -/
def returning_client : List (Job × List Env) :=
  sample_pulse 1 (sample_peer 1) 1 (sample_env 1000 0) ++
    sample_pulse 1 (sample_peer 1) 2 (sample_env 1000 0) ++
    (.cleanup, List.replicate 13 { sample_env 1000 0 with elapsed := 200000000000 }) ::
    sample_pulse 1 (sample_peer 2) 3 (sample_env 1000 0)

theorem opened_address_on_record_returning :
    ∃ t, run_jobs sample.machine
        (sample.Within fun client_id ip s => BelowCap client_id ip s ∧ StaysPut client_id ip s)
        sample.prog returning_client { state := sample.start 0 1000, log := [] } = some t ∧
      ∃ l, t.state.leases.entry (sample_id 1).to_hex = some l ∧ l.ip = (sample_peer 2).ip := by
  have hrun : (run_jobs sample.machine
      (sample.Within fun client_id ip s => BelowCap client_id ip s ∧ StaysPut client_id ip s)
      sample.prog returning_client { state := sample.start 0 1000, log := [] }).any (fun t =>
        decide (Opened (sample_id 1).to_hex (sample_peer 2).ip (hooks t.log))) = true := by
    decide +kernel
  obtain ⟨t, ht, hopened⟩ := (Option.any_eq_true _ _).mp hrun
  exact ⟨t, ht, opened_address_on_record rfl (run_jobs_sound .start ht) _ _
    (of_decide_eq_true hopened)⟩

/-! ### The cooldown and the last grant -/

/-- When a live lease of the client is on another IP, its cooldown is over. -/
def CooledDown (client_id : Str) (ip : IpAddr) (s : State) : Prop :=
  ∀ l, s.leases.entry client_id = some l → l.live s.now = true → l.ip ≠ ip →
    s.cooldown.in_cooldown (id_key client_id) s.now = false

instance (client_id : Str) (ip : IpAddr) (s : State) : Decidable (CooledDown client_id ip s) :=
  inferInstanceAs (Decidable (∀ l ∈ s.leases.entry client_id, l.live s.now = true → l.ip ≠ ip →
    s.cooldown.in_cooldown (id_key client_id) s.now = false))

/-- The most recent hook for the client is a grant of the IP. -/
def LastGranted (client_id : Str) (ip : IpAddr) (hs : List HookRun) : Prop :=
  ∃ call, last_hook client_id hs = some (.grant, call) ∧ call.source_ip = ip

instance (client_id : Str) (ip : IpAddr) (hs : List HookRun) :
    Decidable (LastGranted client_id ip hs) :=
  decidable_of_iff (∃ x ∈ last_hook client_id hs, x.1 = .grant ∧ x.2.source_ip = ip) <| by
    constructor
    · rintro ⟨⟨_, call⟩, hcall, rfl, hip⟩
      exact ⟨call, hcall, hip⟩
    · rintro ⟨call, hcall, hip⟩
      exact ⟨_, hcall, rfl, hip⟩

/-- The address of every lease entry was granted last. -/
def EntriesGranted (leases : LeaseTracker) (hs : List HookRun) : Prop :=
  ∀ client_id l, leases.entry client_id = some l → LastGranted client_id l.ip hs

theorem LastGranted.snoc {client_id : Str} {hs : List HookRun} {call : HookCall}
    (hid : call.client_id = client_id) :
    LastGranted client_id call.source_ip (hs ++ [(.grant, call)]) :=
  ⟨call, last_snoc_of_pos (by simp [hid]), rfl⟩

/-- Hooks for other clients do not matter. -/
theorem LastGranted.append {client_id : Str} {ip : IpAddr} {hs hs' : List HookRun}
    (h : LastGranted client_id ip hs) (hother : ∀ x ∈ hs', x.2.client_id ≠ client_id) :
    LastGranted client_id ip (hs ++ hs') := by
  obtain ⟨call, hcall, hip⟩ := h
  exact ⟨call, (last_append fun x hx => by simp [hother x hx]).trans hcall, hip⟩

section cooldown
variable {srv : Server} {v v' : View}

/-- After a verified RESPONSE its IP was granted last. -/
theorem last_granted_response {s : State} {client_id : Str} {ip : IpAddr} {port : UInt16}
    {param : Option Str} {ttl : Duration} {is_new : Bool}
    (h : EntriesGranted v.leases v.hooks) (hs : s.leases = v.leases)
    (hren : CooledDown client_id ip s)
    (hnew : (v.leases.renew_at client_id ip port param ttl s.now).1 = is_new)
    (hhooks : (is_new = false ∧ v'.hooks = v.hooks ∧
        ∃ n, s.now ≤ n ∧ s.cooldown.in_cooldown (id_key client_id) n = true) ∨
      ∃ others, v'.hooks = v.hooks ++ [(.grant,
        { client_id := client_id, source_ip := ip, source_port := port, param := param,
          is_new := is_new, reason := .grant, ip_clients := others })]) :
    LastGranted client_id ip v'.hooks := by
  rcases hhooks with ⟨rfl, hhooks, n, hn, hcooling⟩ | ⟨others, hhooks⟩
  · -- the hook is skipped: the live lease has to be on the same IP
    obtain ⟨l, hl, hlive⟩ := LeaseTracker.renew_at_not_new.mp hnew
    have hip : l.ip = ip := by
      by_contra hne
      have hover := hren l (hs ▸ hl) hlive hne
      rw [CooldownTracker.in_cooldown_of_later hn hcooling] at hover
      cases hover
    rw [hhooks, ← hip]
    exact h client_id l hl
  · rw [hhooks]
    exact .snoc rfl

/-- Step lemma. -/
theorem entries_granted_step (h : EntriesGranted v.leases v.hooks)
    (hstep : LeaseStep srv CooledDown v v') : EntriesGranted v'.leases v'.hooks := by
  intro c l hl
  cases hstep with
  | idle hleases hhooks _ _ =>
    rw [hhooks]
    exact h c l (hleases ▸ hl)
  | response s client_id ip port param ttl is_new hs _ _ hren hnew hleases _ hhooks =>
    have hgranted : LastGranted client_id ip v'.hooks :=
      last_granted_response h hs hren hnew hhooks
    -- other clients keep their entries, and the grant hook is not about them
    have hother (hc : c ≠ client_id) (hl : v.leases.entry c = some l) :
        LastGranted c l.ip v'.hooks := by
      rcases hhooks with ⟨-, hhooks, -⟩ | ⟨others, hhooks⟩
      · rw [hhooks]
        exact h c l hl
      · rw [hhooks]
        refine (h c l hl).append fun x hx => ?_
        rw [List.mem_singleton.mp hx]
        exact hc.symm
    rw [hleases] at hl
    -- a table that is full takes no new client
    by_cases hroom : v.leases.HasRoom client_id
    · rw [LeaseTracker.entry_renew_at hroom] at hl
      split at hl
      · rename_i hc
        rw [← Option.some.inj hl, hc]
        exact hgranted
      · rename_i hc
        exact hother hc hl
    · rw [LeaseTracker.renew_at_full hroom] at hl
      refine hother ?_ hl
      rintro rfl
      exact hroom (.of_entry hl)
  | bye n client_id e remaining bye_param _ _ hreleased hleases _ hhooks =>
    rw [hleases, LeaseTracker.entry_release_at] at hl
    split at hl
    · cases hl
    · rename_i hc
      obtain ⟨l', -, rfl, -⟩ := LeaseTracker.release_at_some hreleased
      rw [hhooks]
      refine (h c l hl).append fun x hx => ?_
      obtain ⟨-, e, m, hmem, rfl⟩ := mem_revokes.mp hx
      obtain ⟨rfl, -⟩ := Prod.mk.inj (List.mem_singleton.mp hmem)
      exact fun heq => hc heq.symm
  | scan n order _ _ hleases _ hhooks =>
    rw [hleases, LeaseTracker.entry_take_expired_at, Option.filter_eq_some_iff] at hl
    obtain ⟨hl, hlive⟩ := hl
    rw [hhooks]
    refine (h c l hl).append fun x hx => ?_
    obtain ⟨-, e, m, hmem, rfl⟩ := mem_revokes.mp hx
    -- an entry that stays is live, so it was not drained
    obtain ⟨c', l', hl', hdead, heq⟩ := LeaseTracker.mem_take_expired_at.mp hmem
    obtain ⟨rfl, -⟩ := Prod.mk.inj heq
    rintro rfl
    obtain rfl : l = l' := Option.some.inj (hl.symm.trans hl')
    rw [hlive] at hdead
    cases hdead

/-- Run lemma. -/
theorem entries_granted {now : Instant} {unix : Int64} {js : List Job} {t : Snapshot ops State}
    (h : Run srv.machine (srv.Within CooledDown) srv.prog (srv.start now unix) js t) :
    EntriesGranted t.state.leases (hooks t.log) :=
  lease_invariant (fun v => EntriesGranted v.leases v.hooks)
    (fun _ _ hl => by cases hl) (fun _ _ hInv hs => entries_granted_step hInv hs) h

/-- As long as no client moves to another IP within its cooldown and with a live lease, every
    verified RESPONSE ends with its IP granted. -/
theorem last_hook_grants_pulse {now : Instant} {unix : Int64} {js : List Job}
    {t t' : Snapshot ops State} {j : Job}
    (h : Run srv.machine (srv.Within CooledDown) srv.prog (srv.start now unix) js t)
    (hj : Exec srv.machine (srv.Within CooledDown) (srv.prog j) t () t')
    {client_id : Str} {ip : IpAddr}
    (hpulse : renewals t'.log = renewals t.log ++ [(client_id, ip)]) :
    ∃ call, last_hook client_id (hooks t'.log) = some (.grant, call) ∧ call.source_ip = ip := by
  have hgranted := entries_granted h
  have hstep := hj.sound (srv.prog_step CooledDown j t)
  -- only a verified RESPONSE renews a lease
  have hquiet (hrenewals : (view t').renewals = (view t).renewals) : False := by
    have hlength := congrArg List.length (hrenewals.symm.trans hpulse)
    simp [view] at hlength
  cases hstep with
  | idle _ _ hrenewals _ => exact (hquiet hrenewals).elim
  | bye _ _ _ _ _ _ _ _ _ hrenewals _ => exact (hquiet hrenewals).elim
  | scan _ _ _ _ _ hrenewals _ => exact (hquiet hrenewals).elim
  | response s c a port param ttl is_new hs _ _ hren hnew _ hrenewals hhooks =>
    have hsame := List.append_cancel_left (hrenewals.symm.trans hpulse)
    obtain ⟨rfl, rfl⟩ := Prod.mk.inj (List.singleton_inj.mp hsame)
    exact last_granted_response hgranted hs hren hnew hhooks

end cooldown

/-- The RESPONSE of a second pulse from the same address, within the cooldown. -/
theorem last_hook_grants_pulse_again :
    ∃ t t', run_jobs sample.machine (sample.Within CooledDown) sample.prog
        (returning_client.take 3) { state := sample.start 0 1000, log := [] } = some t ∧
      Exec sample.machine (sample.Within CooledDown) (sample.prog (.datagram
        (Packet.Response (sample_response 1 2)).encode (sample_peer 1))) t () t' ∧
      ∃ call, last_hook (sample_id 1).to_hex (hooks t'.log) = some (.grant, call) ∧
        call.source_ip = (sample_peer 1).ip := by
  have hrun : (run_jobs sample.machine (sample.Within CooledDown) sample.prog
      (returning_client.take 3) { state := sample.start 0 1000, log := [] }).any (fun t =>
        (exec sample.machine (sample.Within CooledDown) (sample.prog (.datagram
          (Packet.Response (sample_response 1 2)).encode (sample_peer 1)))
          (List.replicate 24 (sample_env 1000 0)) t).any (fun r =>
            decide (renewals r.2.log =
              renewals t.log ++ [((sample_id 1).to_hex, (sample_peer 1).ip)]))) = true := by
    decide +kernel
  obtain ⟨t, ht, hexec⟩ := (Option.any_eq_true _ _).mp hrun
  obtain ⟨⟨u, t'⟩, ht', hpulse⟩ := (Option.any_eq_true _ _).mp hexec
  exact ⟨t, t', ht, exec_sound ht', last_hook_grants_pulse (run_jobs_sound .start ht)
    (exec_sound ht') (of_decide_eq_true hpulse)⟩

/-- A client that moves within its cooldown is not granted its new address. -/
theorem moved_client_not_granted :
    ∃ js j t t', Run sample.machine (sample.Within fun _ _ _ => True) sample.prog
        (sample.start 0 1000) js t ∧
      Exec sample.machine (sample.Within fun _ _ _ => True) (sample.prog j) t () t' ∧
      renewals t'.log = renewals t.log ++ [((sample_id 1).to_hex, (sample_peer 2).ip)] ∧
      ¬ ∃ call, last_hook (sample_id 1).to_hex (hooks t'.log) = some (.grant, call) ∧
        call.source_ip = (sample_peer 2).ip := by
  have hrun : (run_jobs sample.machine (sample.Within fun _ _ _ => True) sample.prog
      (sample_pulse 1 (sample_peer 1) 1 (sample_env 1000 0) ++
        (sample_pulse 1 (sample_peer 2) 2 (sample_env 1000 0)).take 1)
      { state := sample.start 0 1000, log := [] }).any (fun t =>
        (exec sample.machine (sample.Within fun _ _ _ => True) (sample.prog (.datagram
          (Packet.Response (sample_response 1 2)).encode (sample_peer 2)))
          (List.replicate 24 (sample_env 1000 0)) t).any (fun r =>
            decide (renewals r.2.log =
              renewals t.log ++ [((sample_id 1).to_hex, (sample_peer 2).ip)]) &&
            decide (¬ LastGranted (sample_id 1).to_hex (sample_peer 2).ip (hooks r.2.log)))) =
      true := by decide +kernel
  obtain ⟨t, ht, hexec⟩ := (Option.any_eq_true _ _).mp hrun
  obtain ⟨⟨u, t'⟩, ht', hcheck⟩ := (Option.any_eq_true _ _).mp hexec
  rw [Bool.and_eq_true, decide_eq_true_iff, decide_eq_true_iff] at hcheck
  exact ⟨_, _, t, t', run_jobs_sound .start ht, exec_sound ht', hcheck⟩

end Server

end SignedPulse
