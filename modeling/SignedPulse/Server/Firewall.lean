import Mathlib.Data.Finset.Basic
import SignedPulse.Server.Access

/-! # The firewall behind the hooks

    The documented hook keeps a set of IPs: `grant` adds the IP, `revoke`
    deletes it when no other client is left behind it. `Guards` relates that
    set to the lease table, which is keyed by client: an IP with a live lease
    is open, and an open IP has a lease entry. Every lease step of clients that
    keep their IP preserves it.
-/

namespace SignedPulse

namespace Server

open Sequential Trace

/-! ### The documented hook -/

/-- `grant` adds the IP; `revoke` deletes it when `ip_clients` is zero. -/
def hook (allow : Finset IpAddr) (x : HookRun) : Finset IpAddr :=
  match x.1 with
  | .grant => insert x.2.source_ip allow
  | .revoke => if x.2.ip_clients = 0 then allow.erase x.2.source_ip else allow

/-- The allowed IPs after the hooks have run. -/
def firewall (hs : List HookRun) : Finset IpAddr := hs.foldl hook ∅

/-- The hook adds the IP. -/
def Adds (ip : IpAddr) (x : HookRun) : Prop := x.1 = .grant ∧ x.2.source_ip = ip

/-- The hook deletes the IP. -/
def Deletes (ip : IpAddr) (x : HookRun) : Prop :=
  x.1 = .revoke ∧ x.2.source_ip = ip ∧ x.2.ip_clients = 0

theorem mem_hook {allow : Finset IpAddr} {x : HookRun} {ip : IpAddr} :
    ip ∈ hook allow x ↔ Adds ip x ∨ (ip ∈ allow ∧ ¬ Deletes ip x) := by
  obtain ⟨executor, call⟩ := x
  cases executor with
  | grant => simp [hook, Adds, Deletes, eq_comm]
  | revoke =>
    by_cases hzero : call.ip_clients = 0
    · simp [hook, Adds, Deletes, hzero, and_comm, eq_comm]
    · simp [hook, Adds, Deletes, hzero]

/-- An IP is open when it was added and not deleted since. -/
theorem mem_firewall {hs : List HookRun} {ip : IpAddr} :
    ip ∈ firewall hs ↔ Since (Adds ip) (Deletes ip) hs := by
  induction hs using List.reverseRecOn with
  | nil => simp [firewall]
  | append_singleton hs x ih =>
    have hsnoc : firewall (hs ++ [x]) = hook (firewall hs) x := by simp [firewall]
    rw [hsnoc, mem_hook, since_snoc, ih]

theorem mem_firewall_grant {hs : List HookRun} {call : HookCall} {ip : IpAddr} :
    ip ∈ firewall (hs ++ [(.grant, call)]) ↔ call.source_ip = ip ∨ ip ∈ firewall hs := by
  rw [mem_firewall, since_snoc, ← mem_firewall]
  simp [Adds, Deletes]

theorem mem_firewall_revokes {srv : Server} {ended : List (ExpiredLease × Nat)}
    {param : ExpiredLease → Option Str} {reason : Reason} {hs : List HookRun} {ip : IpAddr} :
    ip ∈ firewall (hs ++ srv.revokes ended param reason) ↔ ip ∈ firewall hs ∧
      (srv.revoke_executor = true →
        ∀ e remaining, (e, remaining) ∈ ended → e.ip = ip → remaining ≠ 0) := by
  have hadds : ∀ x ∈ srv.revokes ended param reason, ¬ Adds ip x := by
    rintro x hx ⟨hgrant, -⟩
    obtain ⟨-, e, n, -, rfl⟩ := mem_revokes.mp hx
    cases hgrant
  rw [mem_firewall, since_append hadds, ← mem_firewall]
  refine and_congr_right fun _ => ⟨?_, ?_⟩
  · intro h hrevoke e n hmem hip hzero
    exact h _ (mem_revokes.mpr ⟨hrevoke, e, n, hmem, rfl⟩) ⟨rfl, hip, hzero⟩
  · rintro h x hx ⟨-, hip, hzero⟩
    obtain ⟨hrevoke, e, n, hmem, rfl⟩ := mem_revokes.mp hx
    exact h hrevoke e n hmem hip hzero

/-! ### The relation -/

/-- The firewall `allow` and the lease table at time `now`, when client `c` is always at
    `home c`. -/
structure Guards (srv : Server) (home : Str → IpAddr) (leases : LeaseTracker) (now : Instant)
    (allow : Finset IpAddr) : Prop where
  at_home : ∀ c l, leases.entry c = some l → l.ip = home c
  live_open : ∀ c l, leases.entry c = some l → l.live now = true → l.ip ∈ allow
  open_entry : srv.revoke_executor = true →
    ∀ ip ∈ allow, ∃ c l, leases.entry c = some l ∧ l.ip = ip

/-- The lease table has room for the client, and the client is at home. -/
def AtHome (home : Str → IpAddr) (client_id : Str) (ip : IpAddr) (s : State) : Prop :=
  BelowCap client_id ip s ∧ ip = home client_id

instance (home : Str → IpAddr) (client_id : Str) (ip : IpAddr) (s : State) :
    Decidable (AtHome home client_id ip s) := inferInstanceAs (Decidable (_ ∧ _))

/-- A lease that is live now has been live before. -/
theorem live_of_later {l : Lease} {now later : Instant} (hle : now ≤ later)
    (h : l.live later = true) : l.live now = true := by
  unfold Lease.live at h ⊢
  rw [decide_eq_true_eq] at h ⊢
  exact lt_of_le_of_lt hle h

section steps
variable {srv : Server} {home : Str → IpAddr} {leases : LeaseTracker} {hs : List HookRun}
variable {now n later : Instant}

/-- A verified RESPONSE: the IP of the client is open afterwards, and nothing is closed. -/
theorem Guards.response (h : Guards srv home leases now (firewall hs)) {s : State}
    {client_id : Str} {ip : IpAddr} {port : UInt16} {param : Option Str} {ttl : Duration}
    {is_new : Bool} {hs' : List HookRun} (hs_leases : s.leases = leases)
    (hbefore : now ≤ s.now) (hafter : s.now ≤ later) (hren : AtHome home client_id ip s)
    (hnew : (leases.renew_at client_id ip port param ttl s.now).1 = is_new)
    (hhooks : (is_new = false ∧ hs' = hs ∧
        ∃ n, s.now ≤ n ∧ s.cooldown.in_cooldown (id_key client_id) n = true) ∨
      ∃ others, hs' = hs ++ [(.grant,
        { client_id := client_id, source_ip := ip, source_port := port, param := param,
          is_new := is_new, reason := .grant, ip_clients := others })]) :
    Guards srv home (leases.renew_at client_id ip port param ttl s.now).2 later (firewall hs') := by
  obtain ⟨hroom, hhome⟩ := hren
  unfold BelowCap at hroom
  rw [hs_leases] at hroom
  have hentry (c : Str) : (leases.renew_at client_id ip port param ttl s.now).2.entry c =
      if c = client_id then
        some { expires_at := s.now + ttl, ip := ip, source_port := port, param := param }
      else leases.entry c := LeaseTracker.entry_renew_at hroom
  -- the IP is open, by this pulse or by an earlier one
  have hopen : ip ∈ firewall hs' := by
    rcases hhooks with ⟨rfl, rfl, -⟩ | ⟨others, rfl⟩
    · obtain ⟨l, hl, hlive⟩ := LeaseTracker.renew_at_not_new.mp hnew
      have hip : l.ip = ip := (h.at_home _ l hl).trans hhome.symm
      exact hip ▸ h.live_open _ l hl (live_of_later hbefore hlive)
    · exact mem_firewall_grant.mpr (.inl rfl)
  have hkeep {a : IpAddr} (ha : a ∈ firewall hs) : a ∈ firewall hs' := by
    rcases hhooks with ⟨-, rfl, -⟩ | ⟨others, rfl⟩
    · exact ha
    · exact mem_firewall_grant.mpr (.inr ha)
  have hadded {a : IpAddr} (ha : a ∈ firewall hs') : a = ip ∨ a ∈ firewall hs := by
    rcases hhooks with ⟨-, rfl, -⟩ | ⟨others, rfl⟩
    · exact .inr ha
    · exact (mem_firewall_grant.mp ha).imp Eq.symm id
  refine ⟨?_, ?_, ?_⟩
  · intro c l hl
    rw [hentry] at hl
    split at hl
    · rename_i hc
      rw [← Option.some.inj hl, hc]
      exact hhome
    · exact h.at_home c l hl
  · intro c l hl hlive
    rw [hentry] at hl
    split at hl
    · rw [← Option.some.inj hl]
      exact hopen
    · exact hkeep (h.live_open c l hl (live_of_later (hbefore.trans hafter) hlive))
  · intro hrevoke a ha
    rcases hadded ha with rfl | ha
    · exact ⟨client_id, _, (hentry client_id).trans (if_pos rfl), rfl⟩
    · obtain ⟨c, l, hl, hip⟩ := h.open_entry hrevoke a ha
      by_cases hc : c = client_id
      · -- the entry is the one that was renewed, and the client has not moved
        refine ⟨client_id, _, (hentry client_id).trans (if_pos rfl), ?_⟩
        rw [← hip, h.at_home c l hl, hc]
        exact hhome
      · exact ⟨c, l, by rw [hentry, if_neg hc, hl], hip⟩

/-- Entries leave the table and their revoke hooks run, each with the count of live leases on its
    IP. A BYE and a lease scan are the two cases. -/
theorem Guards.revoke (h : Guards srv home leases now (firewall hs)) {leases' : LeaseTracker}
    {ended : List (ExpiredLease × Nat)} {param : ExpiredLease → Option Str} {reason : Reason}
    (hbefore : now ≤ n) (hafter : n ≤ later)
    (hkept : ∀ c l, leases'.entry c = some l → leases.entry c = some l)
    (hgone : ∀ c l, leases.entry c = some l → leases'.entry c = none →
      (l.ended c, leases'.live_on l.ip n) ∈ ended)
    (hended : ∀ e remaining, (e, remaining) ∈ ended → remaining = leases'.live_on e.ip n) :
    Guards srv home leases' later (firewall (hs ++ srv.revokes ended param reason)) := by
  refine ⟨fun c l hl => h.at_home c l (hkept c l hl), ?_, ?_⟩
  · intro c l hl hlive
    have hlive' : l.live n = true := live_of_later hafter hlive
    rw [mem_firewall_revokes]
    refine ⟨h.live_open c l (hkept c l hl) (live_of_later hbefore hlive'), ?_⟩
    intro _ e remaining hmem hip hzero
    -- the lease is counted
    rw [hended e remaining hmem, hip, LeaseTracker.live_on_eq_zero] at hzero
    exact hzero c l hl hlive' rfl
  · intro hrevoke a ha
    obtain ⟨hopen, hcount⟩ := mem_firewall_revokes.mp ha
    obtain ⟨c, l, hl, hip⟩ := h.open_entry hrevoke a hopen
    cases hnone : leases'.entry c with
    | some l' =>
      obtain rfl : l = l' := Option.some.inj (hl.symm.trans (hkept c l' hnone))
      exact ⟨c, l, hnone, hip⟩
    | none =>
      -- its own entry is gone, so another live lease is why the IP is still open
      have hpos := hcount hrevoke _ _ (hgone c l hl hnone) hip
      rw [ne_eq, LeaseTracker.live_on_eq_zero] at hpos
      push Not at hpos
      obtain ⟨c', l', hl', -, hip'⟩ := hpos
      exact ⟨c', l', hl', hip'.trans hip⟩

/-- Step lemma. -/
theorem guards_step {v v' : View} (h : Guards srv home v.leases v.now (firewall v.hooks))
    (hstep : LeaseStep srv (AtHome home) v v') :
    Guards srv home v'.leases v'.now (firewall v'.hooks) := by
  cases hstep with
  | idle hleases hhooks _ hnow =>
    rw [hleases, hhooks]
    exact ⟨h.at_home, fun c l hl hlive => h.live_open c l hl (live_of_later hnow hlive),
      h.open_entry⟩
  | response s client_id ip port param ttl is_new hs hbefore hafter hren hnew hleases _ hhooks =>
    rw [hleases]
    exact h.response hs hbefore hafter hren hnew hhooks
  | bye n client_id e remaining bye_param hbefore hafter hreleased hleases _ hhooks =>
    obtain ⟨l, hl, rfl, rfl⟩ := LeaseTracker.release_at_some hreleased
    rw [hleases, hhooks]
    refine h.revoke hbefore hafter ?_ ?_ ?_
    · intro c l' hl'
      rw [LeaseTracker.entry_release_at] at hl'
      split at hl'
      · cases hl'
      · exact hl'
    · intro c l' hl' hnone
      rw [LeaseTracker.entry_release_at] at hnone
      split at hnone
      · -- the entry that went is the one that was released
        rename_i hc
        obtain rfl : l' = l := Option.some.inj ((hc ▸ hl').symm.trans hl)
        rw [hc]
        exact List.mem_singleton.mpr rfl
      · rw [hl'] at hnone
        cases hnone
    · intro e remaining hmem
      obtain ⟨rfl, rfl⟩ := Prod.mk.inj (List.mem_singleton.mp hmem)
      rfl
  | scan n order hbefore hafter hleases _ hhooks =>
    rw [hleases, hhooks]
    refine h.revoke hbefore hafter ?_ ?_ ?_
    · intro c l hl
      rw [LeaseTracker.entry_take_expired_at, Option.filter_eq_some_iff] at hl
      exact hl.1
    · intro c l hl hnone
      rw [LeaseTracker.entry_take_expired_at, hl, Option.filter_some] at hnone
      -- a scan keeps the live entries, so this one was dead
      refine LeaseTracker.drained_of_dead hl ?_ order
      split at hnone
      · cases hnone
      · rename_i hdead
        simpa using hdead
    · intro e remaining hmem
      obtain ⟨c, l, -, -, heq⟩ := LeaseTracker.mem_take_expired_at.mp hmem
      obtain ⟨rfl, rfl⟩ := Prod.mk.inj heq
      rfl

/-- When every client keeps its IP, the firewall follows the leases. -/
theorem firewall_follows_leases {unix : Int64} {js : List Job} {t : Snapshot ops State}
    (h : Run srv.machine (srv.Within (AtHome home)) srv.prog (srv.start now unix) js t) :
    (∀ c l, t.state.leases.entry c = some l → l.live t.state.now = true →
      l.ip ∈ firewall (hooks t.log)) ∧
    (srv.revoke_executor = true → ∀ ip ∈ firewall (hooks t.log),
      ∃ c l, t.state.leases.entry c = some l ∧ l.ip = ip) := by
  have hguards : Guards srv home t.state.leases t.state.now (firewall (hooks t.log)) := by
    refine lease_invariant (fun v => Guards srv home v.leases v.now (firewall v.hooks))
      ⟨?_, ?_, ?_⟩ (fun _ _ hInv hs => guards_step hInv hs) h
    · intro c l hl
      cases hl
    · intro c l hl
      cases hl
    · intro _ ip hip
      cases hip
  exact ⟨hguards.live_open, hguards.open_entry⟩

end steps

/-- Two clients behind one address pulse, and the first one leaves. -/
def shared_address : List (Job × List Env) :=
  sample_pulse 1 (sample_peer 1) 1 (sample_env 1000 0) ++
    sample_pulse 2 (sample_peer 1) 2 (sample_env 1000 0) ++
    [(.datagram (Packet.Hello (sample_hello 1 1000 3)).encode (sample_peer 1),
        List.replicate 24 (sample_env 1000 3)),
      (.datagram (Packet.Bye (sample_bye 1 3)).encode (sample_peer 1),
        List.replicate 24 (sample_env 1000 0))]

theorem firewall_follows_leases_shared :
    ∃ t, run_jobs sample.machine (sample.Within (AtHome fun _ => (sample_peer 1).ip)) sample.prog
        shared_address { state := sample.start 0 1000, log := [] } = some t ∧
      renewals t.log ≠ [] ∧
      (∀ c l, t.state.leases.entry c = some l → l.live t.state.now = true →
        l.ip ∈ firewall (hooks t.log)) ∧
      (sample.revoke_executor = true → ∀ ip ∈ firewall (hooks t.log),
        ∃ c l, t.state.leases.entry c = some l ∧ l.ip = ip) := by
  have hrun : (run_jobs sample.machine (sample.Within (AtHome fun _ => (sample_peer 1).ip))
      sample.prog shared_address { state := sample.start 0 1000, log := [] }).any (fun t =>
        decide (renewals t.log ≠ [])) = true := by decide +kernel
  obtain ⟨t, ht, hpulsed⟩ := (Option.any_eq_true _ _).mp hrun
  exact ⟨t, ht, of_decide_eq_true hpulsed, firewall_follows_leases (run_jobs_sound .start ht)⟩

end Server

end SignedPulse
