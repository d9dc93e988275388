import SignedPulse.Server.Config
import SignedPulse.Server.Spacing

/-! # Leases and pulses in time

    How long a pulse keeps a lease follows from the interval that its RESPONSE
    advertises (`renewal_demand`, `lease_ttl_eq`). When the pulses of a client
    follow each other within that time, its session goes on, and after the last
    pulse one scan reports its end (`lease_kept`).

    `expiry` is what the lease table amounts to for one client: the time at
    which the lease is over. `expiry_eq` is the refinement.

    Each pulse and each scan has one time: an operation on the lease table
    reads the clock and updates the table in one step.
-/

namespace SignedPulse

namespace Server

open Interleaving

/-! ### The interval of a pulse -/

/-- A renewal has its client and its TTL from the RESPONSE that the task handles. -/
def RenewalDemand (srv : Server) (job : Job) (ev : Event ops) : Prop :=
  match ev.op with
  | .leases_renew client_id ip port _ ttl =>
    ∃ resp peer, srv.packet_from job = some (.Response resp, peer) ∧
      client_id = resp.client_id.to_hex ∧ ip = peer.ip ∧ port = peer.port ∧
      ttl = srv.lease_ttl resp.interval_seconds
  | _ => True

section demand
variable {srv : Server} {job : Job} {h : List (Event ops)}

theorem renewal_demand_of_area {ev : Event ops} (h : ev.op.area ≠ .leases) :
    RenewalDemand srv job ev := by
  unfold RenewalDemand
  split
  · rename_i hop
    exact absurd (by rw [hop]; rfl) h
  · trivial

/-- A program without leases. -/
theorem renewal_demand_of_touches {α : Type} {areas : List Area} {p : ServerM α}
    (hp : Touches areas p) (hareas : Area.leases ∉ areas) :
    Program.wp (Program.histories (fun _ ev => RenewalDemand srv job ev))
      (fun _ _ => True) p h := by
  refine Program.wp_mono (fun _ _ _ => trivial) (hp.histories ?_)
  intro _ ev harea
  exact renewal_demand_of_area fun heq => hareas (heq ▸ harea)

theorem handle_response_renewal {resp : Response} {peer : SocketAddr}
    (hjob : srv.packet_from job = some (.Response resp, peer)) :
    Program.wp (Program.histories (fun _ ev => RenewalDemand srv job ev)) (fun _ _ => True)
      (srv.handle_response resp peer) h := by
  unfold handle_response
  apply Program.wp_seq
    (renewal_demand_of_touches (srv.verify_and_consume_touches _ _ _ _ _ _ _) (by decide))
  intro verified _ _
  split
  · trivial
  apply Program.wp_seq (renewal_demand_of_touches (srv.decrypt_param_touches _) (by decide))
  intro param _ _
  split
  · trivial
  unfold response_verified
  apply Program.wp_seq (renewal_demand_of_touches (note_pulse_touches _ peer) (by decide))
  intro _ _ _
  refine Program.wp_histories_perform_bind.mpr fun is_new => ⟨?_, ?_⟩
  · exact ⟨resp, peer, hjob, rfl, rfl, rfl, rfl⟩
  apply Program.wp_seq (renewal_demand_of_touches (within_cooldown_touches _ _) (by decide))
  intro skip _ _
  split
  · trivial
  refine Program.wp_histories_perform_bind.mpr fun ip_clients => ⟨trivial, ?_⟩
  exact renewal_demand_of_touches (run_grant_touches _ _) (by decide)

theorem handle_bye_renewal (bye : Bye) (peer : SocketAddr) :
    Program.wp (Program.histories (fun _ ev => RenewalDemand srv job ev)) (fun _ _ => True)
      (srv.handle_bye bye peer) h := by
  unfold handle_bye
  apply Program.wp_seq
    (renewal_demand_of_touches (srv.verify_and_consume_touches _ _ _ _ _ _ _) (by decide))
  intro verified _ _
  split
  · trivial
  apply Program.wp_seq (renewal_demand_of_touches (srv.decrypt_param_touches _) (by decide))
  intro param _ _
  split
  · trivial
  unfold bye_verified
  refine Program.wp_histories_perform_bind.mpr fun released => ⟨trivial, ?_⟩
  split
  · trivial
  split
  · trivial
  exact renewal_demand_of_touches (run_revoke_touches _ _) (by decide)

theorem run_lease_scan_renewal :
    Program.wp (Program.histories (fun _ ev => RenewalDemand srv job ev)) (fun _ _ => True)
      srv.run_lease_scan h := by
  unfold run_lease_scan
  refine Program.wp_histories_perform_bind.mpr fun expired => ⟨trivial, ?_⟩
  split
  · trivial
  refine Program.wp_each (fun _ _ => True) ?_ trivial
  intro x _ _ _
  exact renewal_demand_of_touches (run_revoke_touches _ _) (by decide)

theorem prog_renewal_demand (srv : Server) (job : Job) :
    Program.wp (Program.histories (fun _ ev => RenewalDemand srv job ev)) (fun _ _ => True)
      (srv.prog job) [] := by
  cases job with
  | datagram data peer =>
    have hfrom {packet : Packet} {reply : ReplyMode}
        (hpacket : srv.packet_of data = some (packet, reply)) :
        srv.packet_from (.datagram data peer) = some (packet, peer) := by
      simp [packet_from, hpacket]
    refine wp_receive (fun _ => True) (fun _ => True) ?_ (fun _ _ => trivial) ?_ ?_ trivial
    · intro _ o r _ ho _ _
      refine ⟨renewal_demand_of_area fun heq => ?_, trivial⟩
      simp [heq] at ho
    · intro h _
      refine wp_handle_datagram trivial
        (renewal_demand_of_touches (note_faulty_touches _) (by decide))
        (renewal_demand_of_touches (note_rejected_touches _) (by decide)) ?_ ?_ ?_
      · intro hello reply _
        exact renewal_demand_of_touches (srv.handle_hello_touches _ _ _) (by decide)
      · intro resp reply hpacket
        exact handle_response_renewal (hfrom hpacket)
      · intro bye reply _
        exact handle_bye_renewal bye peer
    · intro _ _ _ _ _
      exact ⟨trivial, trivial⟩
  | cleanup =>
    refine wp_cleanup (fun _ => True) (fun _ => True) ?_ (fun _ _ => run_lease_scan_renewal) trivial
    intro _ o r _ ho _ _
    refine ⟨?_, trivial⟩
    cases o <;> first | exact trivial | simp [purges] at ho

end demand

/-- How long a pulse with this interval keeps the lease: the grace period, but at least a second
    and at most the configured maximum. -/
def keeps_for (cfg : Config.ServerConfig) (interval_seconds : UInt32) : Duration :=
  max 1 (min (interval_seconds.toNat * cfg.server.lease_grace_multiplier.toNat)
    cfg.server.lease_max_seconds.toNat) * 1000000000

/-- Nothing of the TTL is lost to saturation. -/
theorem lease_ttl_eq {srv : Server} {cfg : Config.ServerConfig}
    (hcfg : cfg.validate = some (.ok ())) (hsrv : srv.config = cfg.settings)
    (interval_seconds : UInt32) :
    srv.lease_ttl interval_seconds = keeps_for cfg interval_seconds := by
  have hmax : 1 ≤ cfg.server.lease_max_seconds.toNat := (Config.ServerConfig.lease_limits hcfg).2
  obtain ⟨product, hproduct⟩ :
      ∃ n, interval_seconds.toNat * cfg.server.lease_grace_multiplier.toNat = n := ⟨_, rfl⟩
  -- two 32-bit factors
  have hlt : product < UInt64.size := by
    have hi := interval_seconds.toNat_lt
    have hm := cfg.server.lease_grace_multiplier.toNat_lt
    rw [← hproduct]
    exact lt_of_le_of_lt (Nat.mul_le_mul (Nat.le_pred_of_lt hi) (Nat.le_pred_of_lt hm)) (by decide)
  have hmul : (saturating_mul interval_seconds.toUInt64
      cfg.server.lease_grace_multiplier.toUInt64).toNat = product := by
    unfold saturating_mul
    rw [UInt32.toNat_toUInt64, UInt32.toNat_toUInt64, hproduct,
      min_eq_left (Nat.le_sub_one_of_lt hlt), UInt64.toNat_ofNat', Nat.mod_eq_of_lt hlt]
  -- so the clamp is that of the natural numbers
  have hclamp : (clamp (saturating_mul interval_seconds.toUInt64
      cfg.server.lease_grace_multiplier.toUInt64) 1 cfg.server.lease_max_seconds).toNat =
        max 1 (min product cfg.server.lease_max_seconds.toNat) := by
    have hone : (1 : UInt64).toNat = 1 := rfl
    unfold clamp
    split
    · rename_i hlow
      rw [UInt64.lt_iff_toNat_lt, hmul] at hlow
      omega
    · rename_i hlow
      rw [UInt64.lt_iff_toNat_lt, hmul] at hlow
      split
      · rename_i hhigh
        rw [gt_iff_lt, UInt64.lt_iff_toNat_lt, hmul] at hhigh
        omega
      · rename_i hhigh
        rw [gt_iff_lt, UInt64.lt_iff_toNat_lt, hmul] at hhigh
        omega
  unfold lease_ttl Duration.from_secs keeps_for
  rw [hsrv]
  show (clamp (saturating_mul interval_seconds.toUInt64
    cfg.server.lease_grace_multiplier.toUInt64) 1 cfg.server.lease_max_seconds).toNat * _ = _
  rw [hclamp, hproduct]

/-! ### When a lease is over -/

/-- The operation is a verified pulse of the client. -/
def is_pulse (client_id : Str) (x : ServerMoment) : Bool :=
  (renewal_of x.op).any (fun r => decide (r.1 = client_id))

/-- The operation is the draining of a lease scan. -/
def is_scan (x : ServerMoment) : Bool :=
  match x.op with
  | .leases_take_expired => true
  | _ => false

/-- How often an event reports that the lease of the client has ended. -/
def reported (srv : Server) (client_id : Str) (x : ServerMoment) : Nat :=
  ((ended_by (x.event srv.machine)).map (fun y => y.1.client_id)).count client_id

/-- The time at which the client's lease is over, after one more moment; none without a lease. -/
def expiry_step (client_id : Str) (t : Option Instant) (x : ServerMoment) : Option Instant :=
  match x.op with
  | .leases_renew c _ _ _ ttl => if c = client_id then some (x.time + ttl) else t
  | .leases_release c => if c = client_id then none else t
  | .leases_take_expired => t.filter (fun d => decide (x.time < d))
  | _ => t

/-- The time at which the client's lease is over. -/
def expiry (client_id : Str) (ms : List ServerMoment) : Option Instant :=
  ms.foldl (expiry_step client_id) none

section expiry
variable {srv : Server} {now : Instant} {unix : Int64} {c : Config ops State Job}
variable {ms pre mid post : List ServerMoment} {x : ServerMoment} {client_id : Str}

theorem expiry_snoc :
    expiry client_id (ms ++ [x]) = expiry_step client_id (expiry client_id ms) x := by
  simp [expiry]

/-- The lease table has the time at which the lease is over. -/
theorem expiry_eq (h : Recorded srv.machine srv.prog (srv.start now unix) c ms)
    (hroom : ∀ x ∈ ms, is_pulse client_id x = true → x.state.leases.HasRoom client_id) :
    (c.state.leases.entry client_id).map Lease.expires_at = expiry client_id ms := by
  revert hroom
  -- by induction on the run: each operation moves the expiry as it moves the entry
  refine h.induction (fun s ms => (∀ x ∈ ms, is_pulse client_id x = true →
    x.state.leases.HasRoom client_id) →
      (s.leases.entry client_id).map Lease.expires_at = expiry client_id ms) (fun _ => rfl) ?_
  rintro c ms x - - ih hroom
  replace ih := ih fun y hy => hroom y (List.mem_append_left _ hy)
  replace hroom := hroom x (by simp)
  rw [expiry_snoc, ← ih]
  obtain ⟨i, s, o, e⟩ := x
  unfold expiry_step
  by_cases harea : o.area = .leases
  swap
  · have hsame : (Moment.after srv.machine (⟨i, s, o, e⟩ : ServerMoment)).leases = s.leases :=
      perform_leases harea
    rw [hsame]
    cases o <;> first | rfl | exact absurd rfl harea
  cases o <;> simp only [Op.area, reduceCtorEq] at harea
  case leases_renew c' ip port param ttl =>
    show ((s.leases.renew_at c' ip port param ttl (s.now + e.elapsed)).2.entry client_id).map _ = _
    dsimp only
    by_cases hc : c' = client_id
    · subst hc
      have hroom : s.leases.HasRoom c' := hroom (by simp [is_pulse, renewal_of])
      rw [LeaseTracker.entry_renew_at hroom, if_pos rfl, if_pos rfl]
      rfl
    · -- the pulse of another client, which may find no room
      rw [if_neg hc]
      by_cases hroom : s.leases.HasRoom c'
      · rw [LeaseTracker.entry_renew_at hroom, if_neg (Ne.symm hc)]
      · rw [LeaseTracker.renew_at_full hroom]
  case leases_release c' =>
    show ((s.leases.release_at c' (s.now + e.elapsed)).2.entry client_id).map _ = _
    dsimp only
    rw [LeaseTracker.entry_release_at]
    by_cases hc : c' = client_id
    · rw [if_pos hc.symm, if_pos hc]
      rfl
    · rw [if_neg (Ne.symm hc), if_neg hc]
  case leases_others_on_ip ip c' => rfl
  case leases_take_expired =>
    show ((s.leases.take_expired_at (s.now + e.elapsed) e.order).2.entry client_id).map _ = _
    rw [LeaseTracker.entry_take_expired_at]
    cases s.leases.entry client_id with
    | none => rfl
    | some l =>
      show Option.map _ (Option.filter (fun l => l.live (s.now + e.elapsed)) (some l)) =
        Option.filter (fun d => decide (s.now + e.elapsed < d)) (some l.expires_at)
      -- a scan drops the entry and the expiry under the same condition
      unfold Lease.live
      by_cases hlive : s.now + e.elapsed < l.expires_at <;> simp [Option.filter, hlive]

theorem pulse_op (h : is_pulse client_id x = true) :
    ∃ ip port param ttl, x.op = .leases_renew client_id ip port param ttl := by
  obtain ⟨⟨c', ip⟩, hrenewal, hid⟩ := (Option.any_eq_true _ _).mp h
  obtain rfl : c' = client_id := of_decide_eq_true hid
  unfold renewal_of at hrenewal
  split at hrenewal
  · rename_i hop
    obtain ⟨rfl, rfl⟩ := Prod.mk.inj (Option.some.inj hrenewal)
    exact ⟨_, _, _, _, hop⟩
  · cases hrenewal

theorem expiry_step_scan {t : Option Instant} (h : is_scan x = true) :
    expiry_step client_id t x = t.filter (fun d => decide (x.time < d)) := by
  unfold is_scan at h
  split at h
  · rename_i hop
    unfold expiry_step
    rw [hop]
  · cases h

theorem expiry_step_quiet {t : Option Instant} (hpulse : is_pulse client_id x = false)
    (hbye : x.op ≠ .leases_release client_id) (hscan : is_scan x = false) :
    expiry_step client_id t x = t := by
  unfold expiry_step
  split
  · rename_i c' _ _ _ _ hop
    rw [if_neg]
    intro hc
    rw [is_pulse, hop] at hpulse
    simp [renewal_of, hc] at hpulse
  · rename_i c' hop
    rw [if_neg]
    intro hc
    exact hbye (hc ▸ hop)
  · rename_i hop
    rw [is_scan, hop] at hscan
    cases hscan
  · rfl

/-- Before the first pulse there is no lease. -/
theorem expiry_of_no_pulse (hno : ∀ m ∈ ms, is_pulse client_id m = false)
    (hbye : ∀ m ∈ ms, m.op ≠ .leases_release client_id) : expiry client_id ms = none := by
  induction ms using List.reverseRecOn with
  | nil => rfl
  | append_singleton ms x ih =>
    rw [expiry_snoc, ih (fun m hm => hno m (List.mem_append_left _ hm))
      (fun m hm => hbye m (List.mem_append_left _ hm))]
    cases hscan : is_scan x with
    | true => exact expiry_step_scan hscan
    | false => exact expiry_step_quiet (hno x (by simp)) (hbye x (by simp)) hscan

/-- After a pulse, the lease is over at the time that the pulse has set, unless a scan has come
    after that time. -/
theorem expiry_since {ip : IpAddr} {port : UInt16} {param : Option Str} {ttl : Duration}
    (hx : x.op = .leases_renew client_id ip port param ttl)
    (hno : ∀ m ∈ mid, is_pulse client_id m = false)
    (hbye : ∀ m ∈ mid, m.op ≠ .leases_release client_id) :
    expiry client_id (pre ++ x :: mid) =
      if ∀ w ∈ mid, is_scan w = true → w.time < x.time + ttl then some (x.time + ttl)
      else none := by
  -- induction on what came since; the last operation is a scan or has no effect
  induction mid using List.reverseRecOn with
  | nil =>
    rw [expiry_snoc]
    unfold expiry_step
    rw [hx]
    simp
  | append_singleton mid y ih =>
    rw [show pre ++ x :: (mid ++ [y]) = (pre ++ x :: mid) ++ [y] by simp, expiry_snoc,
      ih (fun m hm => hno m (List.mem_append_left _ hm))
        (fun m hm => hbye m (List.mem_append_left _ hm))]
    have hall : (∀ w ∈ mid ++ [y], is_scan w = true → w.time < x.time + ttl) ↔
        (∀ w ∈ mid, is_scan w = true → w.time < x.time + ttl) ∧
          (is_scan y = true → y.time < x.time + ttl) := by
      simp [or_imp, forall_and]
    simp only [hall]
    cases hscan : is_scan y with
    | true =>
      rw [expiry_step_scan hscan]
      by_cases hmid : ∀ w ∈ mid, is_scan w = true → w.time < x.time + ttl
      · rw [if_pos hmid]
        by_cases hy : y.time < x.time + ttl
        · rw [if_pos ⟨hmid, fun _ => hy⟩]
          simp [Option.filter, hy]
        · rw [if_neg fun hboth => hy (hboth.2 rfl)]
          simp [Option.filter, hy]
      · rw [if_neg hmid, if_neg fun hboth => hmid hboth.1]
        rfl
    | false =>
      rw [expiry_step_quiet (hno y (by simp)) (hbye y (by simp)) hscan]
      simp

/-- What a renewal tells about the lease before it. -/
theorem renewed_false_of_expiry
    (h : Recorded srv.machine srv.prog (srv.start now unix) c (pre ++ x :: post))
    (hroom : ∀ m ∈ pre ++ x :: post, is_pulse client_id m = true →
      m.state.leases.HasRoom client_id)
    (hx : is_pulse client_id x = true) {d : Instant} (hexpiry : expiry client_id pre = some d)
    (hd : x.time < d) : Renewed client_id false (x.event srv.machine) := by
  obtain ⟨c', -, -, hrec, hstate, -⟩ := h.split
  have hentry : (c'.state.leases.entry client_id).map Lease.expires_at = expiry client_id pre :=
    expiry_eq hrec fun y hy => hroom y (by simp [hy])
  rw [hstate, hexpiry] at hentry
  obtain ⟨l, hl, rfl⟩ := Option.map_eq_some_iff.mp hentry
  obtain ⟨ip, port, param, ttl, hop⟩ := pulse_op hx
  refine ⟨ip, port, param, ttl, ?_⟩
  obtain ⟨i, s, o, e⟩ := x
  obtain rfl : o = .leases_renew client_id ip port param ttl := hop
  have hres : (s.leases.renew_at client_id ip port param ttl (s.now + e.elapsed)).1 = false :=
    LeaseTracker.renew_at_not_new.mpr ⟨l, hl, decide_eq_true hd⟩
  exact congrArg (fun r => (⟨.leases_renew client_id ip port param ttl, r⟩ : Event ops)) hres

/-- A scan reports a client once if its lease is over, and not at all otherwise. -/
theorem reported_eq (h : Recorded srv.machine srv.prog (srv.start now unix) c (pre ++ x :: post))
    (hroom : ∀ m ∈ pre ++ x :: post, is_pulse client_id m = true →
      m.state.leases.HasRoom client_id) (hx : is_scan x = true) :
    reported srv client_id x =
      ((expiry client_id pre).any (fun d => decide (d ≤ x.time))).toNat := by
  obtain ⟨c', -, -, hrec, hstate, -⟩ := h.split
  have hentry : (c'.state.leases.entry client_id).map Lease.expires_at = expiry client_id pre :=
    expiry_eq hrec fun y hy => hroom y (by simp [hy])
  rw [hstate] at hentry
  rw [← hentry]
  obtain ⟨i, s, o, e⟩ := x
  unfold is_scan at hx
  split at hx
  swap
  · cases hx
  rename_i hop
  obtain rfl : o = .leases_take_expired := hop
  refine (LeaseTracker.count_take_expired_at (t := s.leases) (c := client_id)).trans ?_
  cases s.leases.entry client_id with
  | none => rfl
  | some l =>
    show (!decide (s.now + e.elapsed < l.expires_at)).toNat =
      (decide (l.expires_at ≤ s.now + e.elapsed)).toNat
    rw [← decide_not]
    exact congrArg Bool.toNat (decide_eq_decide.mpr Nat.not_lt)

end expiry

/-! ### Sessions that are kept up -/

/-- The pulse at this moment advertises the interval. -/
def Advertises (srv : Server) (c : Config ops State Job) (client_id : Str) (x : ServerMoment)
    (interval_seconds : UInt32) : Prop :=
  is_pulse client_id x = true ∧ ∃ task resp peer, c.tasks[x.task]? = some task ∧
    srv.packet_from task.job = some (.Response resp, peer) ∧
    resp.client_id.to_hex = client_id ∧ resp.interval_seconds = interval_seconds

/-- Each pulse of the client comes before the time that the pulse before it has bought is over. -/
def InTime (srv : Server) (cfg : Config.ServerConfig) (c : Config ops State Job) (client_id : Str)
    (ms : List ServerMoment) : Prop :=
  ∀ pre x mid y post interval_seconds, ms = pre ++ x :: (mid ++ y :: post) →
    Advertises srv c client_id x interval_seconds → is_pulse client_id y = true →
    (∀ m ∈ mid, is_pulse client_id m = false) →
      y.time < x.time + keeps_for cfg interval_seconds

/-- The session of the client goes on from its first pulse to its last one, and ends once. -/
structure LeaseKept (srv : Server) (cfg : Config.ServerConfig) (c : Config ops State Job)
    (client_id : Str) (ms : List ServerMoment) : Prop where
  advertised : ∀ x ∈ ms, is_pulse client_id x = true →
    ∃ interval_seconds, Advertises srv c client_id x interval_seconds
  /-- Only the first pulse opens a session. -/
  one_session : ∀ pre y post, ms = pre ++ y :: post → is_pulse client_id y = true →
    (∃ x ∈ pre, is_pulse client_id x = true) → Renewed client_id false (y.event srv.machine)
  /-- Only the grant hook of the first pulse is told of a new session. -/
  one_grant : ∀ y ∈ ms, ∀ call, grant_of y.op = some call → call.client_id = client_id →
    call.is_new = true → ∃ pre x post, ms = pre ++ x :: post ∧ x.task = y.task ∧
      is_pulse client_id x = true ∧ ∀ m ∈ pre, is_pulse client_id m = false
  /-- No scan before the last pulse drains the lease. -/
  undrained : ∀ pre z post, ms = pre ++ z :: post → is_scan z = true →
    (∃ y ∈ post, is_pulse client_id y = true) → reported srv client_id z = 0
  /-- The first scan at the end of the lease or later reports it, and no other scan. -/
  drained : ∀ pre x mid z post interval_seconds, ms = pre ++ x :: (mid ++ z :: post) →
    Advertises srv c client_id x interval_seconds →
    (∀ m ∈ mid ++ z :: post, is_pulse client_id m = false) → is_scan z = true →
      reported srv client_id z =
        if x.time + keeps_for cfg interval_seconds ≤ z.time ∧
          ∀ w ∈ mid, is_scan w = true → w.time < x.time + keeps_for cfg interval_seconds
        then 1 else 0

section sessions
variable {srv : Server} {cfg : Config.ServerConfig} {now : Instant} {unix : Int64}
variable {c : Config ops State Job} {ms pre mid post : List ServerMoment} {x : ServerMoment}
variable {client_id : Str} {interval_seconds : UInt32}

theorem advertised (h : Recorded srv.machine srv.prog (srv.start now unix) c ms) (hx : x ∈ ms)
    (hpulse : is_pulse client_id x = true) :
    ∃ interval_seconds, Advertises srv c client_id x interval_seconds := by
  obtain ⟨ip, port, param, ttl, hop⟩ := pulse_op hpulse
  obtain ⟨task, evs, htask, hdemand⟩ := h.guarded (P := fun job _ ev => RenewalDemand srv job ev)
    (prog_renewal_demand srv) hx
  unfold RenewalDemand at hdemand
  rw [show (x.event srv.machine).op = .leases_renew client_id ip port param ttl from hop] at hdemand
  obtain ⟨resp, peer, hpacket, hid, -, -, -⟩ := hdemand
  exact ⟨resp.interval_seconds, hpulse, task, resp, peer, htask, hpacket, hid.symm, rfl⟩

/-- The TTL of a renewal is the time that its interval buys. -/
theorem renewal_of_advertises (hcfg : cfg.validate = some (.ok ()))
    (hsrv : srv.config = cfg.settings)
    (h : Recorded srv.machine srv.prog (srv.start now unix) c ms) (hx : x ∈ ms)
    (hadv : Advertises srv c client_id x interval_seconds) :
    ∃ ip port param, x.op = .leases_renew client_id ip port param
      (keeps_for cfg interval_seconds) := by
  obtain ⟨hpulse, task, resp, peer, htask, hpacket, -, hinterval⟩ := hadv
  obtain ⟨ip, port, param, ttl, hop⟩ := pulse_op hpulse
  obtain ⟨task', evs, htask', hdemand⟩ := h.guarded (P := fun job _ ev => RenewalDemand srv job ev)
    (prog_renewal_demand srv) hx
  obtain rfl : task = task' := Option.some.inj (htask.symm.trans htask')
  unfold RenewalDemand at hdemand
  rw [show (x.event srv.machine).op = .leases_renew client_id ip port param ttl from hop] at hdemand
  obtain ⟨resp', peer', hpacket', -, -, -, httl⟩ := hdemand
  obtain ⟨hresp, -⟩ := Prod.mk.inj (Option.some.inj (hpacket.symm.trans hpacket'))
  obtain rfl : resp = resp' := Packet.Response.inj hresp
  rw [lease_ttl_eq hcfg hsrv, hinterval] at httl
  exact ⟨ip, port, param, httl ▸ hop⟩

/-- The time at which the lease is over, between two pulses or after the last one. -/
theorem expiry_of_advertises (hcfg : cfg.validate = some (.ok ()))
    (hsrv : srv.config = cfg.settings)
    (h : Recorded srv.machine srv.prog (srv.start now unix) c (pre ++ x :: (mid ++ post)))
    (hbye : ∀ m ∈ pre ++ x :: (mid ++ post), m.op ≠ .leases_release client_id)
    (hadv : Advertises srv c client_id x interval_seconds)
    (hno : ∀ m ∈ mid, is_pulse client_id m = false) :
    expiry client_id (pre ++ x :: mid) =
      if ∀ w ∈ mid, is_scan w = true → w.time < x.time + keeps_for cfg interval_seconds then
        some (x.time + keeps_for cfg interval_seconds)
      else none := by
  obtain ⟨ip, port, param, hop⟩ := renewal_of_advertises hcfg hsrv h (x := x) (by simp) hadv
  exact expiry_since hop hno fun m hm => hbye m (by simp [hm])

/-- When the next pulse is in time, the lease has not ended by then. -/
theorem expiry_in_time (hcfg : cfg.validate = some (.ok ())) (hsrv : srv.config = cfg.settings)
    (h : Recorded srv.machine srv.prog (srv.start now unix) c (pre ++ x :: (mid ++ post)))
    (hbye : ∀ m ∈ pre ++ x :: (mid ++ post), m.op ≠ .leases_release client_id)
    (hadv : Advertises srv c client_id x interval_seconds)
    (hno : ∀ m ∈ mid, is_pulse client_id m = false) {y : ServerMoment} (hy : y ∈ post)
    (hin_time : y.time < x.time + keeps_for cfg interval_seconds) :
    expiry client_id (pre ++ x :: mid) = some (x.time + keeps_for cfg interval_seconds) := by
  rw [expiry_of_advertises hcfg hsrv h hbye hadv hno, if_pos]
  intro w hw _
  -- the scan comes before the next pulse
  obtain ⟨a, b, rfl⟩ := List.append_of_mem hw
  have hsplit : pre ++ x :: ((a ++ w :: b) ++ post) = (pre ++ x :: a) ++ w :: (b ++ post) := by
    simp
  have hle := (time_le_of_split (hsplit ▸ h)).2 y (by simp [hy])
  lia

theorem not_pulse_of_scan (h : is_scan x = true) : is_pulse client_id x = false := by
  unfold is_scan at h
  split at h
  · rename_i hop
    unfold is_pulse
    rw [hop]
    rfl
  · cases h

section kept
variable {y z : ServerMoment} (hcfg : cfg.validate = some (.ok ()))
  (hsrv : srv.config = cfg.settings)
  (h : Recorded srv.machine srv.prog (srv.start now unix) c ms)
  (hroom : ∀ x ∈ ms, is_pulse client_id x = true → x.state.leases.HasRoom client_id)
  (hbye : ∀ x ∈ ms, x.op ≠ .leases_release client_id)
  (hin_time : InTime srv cfg c client_id ms)
include hcfg hsrv h hroom hbye hin_time

/-- A pulse after the first one renews a live session. -/
theorem renewed_false_of_in_time (hsplit : ms = pre ++ y :: post) (hy : is_pulse client_id y = true)
    (hpre : ∃ x ∈ pre, is_pulse client_id x = true) :
    Renewed client_id false (y.event srv.machine) := by
  obtain ⟨a, x, b, rfl, hx, hb⟩ := Trace.split_latest hpre
  obtain ⟨i, hadv⟩ := advertised h (x := x) (by simp [hsplit]) hx
  have hsplit' : ms = a ++ x :: (b ++ y :: post) := by simp [hsplit]
  have hsoon := hin_time a x b y post i hsplit' hadv hy hb
  have hexpiry := expiry_in_time hcfg hsrv (hsplit' ▸ h) (hsplit' ▸ hbye) hadv hb (y := y) (by simp)
    hsoon
  exact renewed_false_of_expiry (hsplit ▸ h) (hsplit ▸ hroom) hy hexpiry hsoon

/-- A grant hook that is told of a new session is that of the first pulse. -/
theorem first_of_new_grant {call : HookCall} (hy : y ∈ ms) (hgrant : grant_of y.op = some call)
    (hid : call.client_id = client_id) (hnew : call.is_new = true) :
    ∃ pre x post, ms = pre ++ x :: post ∧ x.task = y.task ∧ is_pulse client_id x = true ∧
      ∀ m ∈ pre, is_pulse client_id m = false := by
  obtain ⟨pre, post, hsplit⟩ := List.append_of_mem hy
  have hgranting : srv.stage_of y.task pre = .granting call :=
    (moment_goes (hsplit ▸ h)).of_grant hgrant
  obtain ⟨c', -, -, hrec, -, -⟩ := (hsplit ▸ h).split
  have hsession : (srv.stage_of y.task pre).session = some (client_id, true) := by
    rw [hgranting, ← hid, ← hnew]
    rfl
  obtain ⟨x, hx, htask, ip, port, param, ttl, hev⟩ := renewed_of_session hrec hsession
  have hpulse : is_pulse client_id x = true := by
    unfold is_pulse
    rw [show x.op = .leases_renew client_id ip port param ttl from congrArg Event.op hev]
    simp [renewal_of]
  obtain ⟨a, b, rfl⟩ := List.append_of_mem hx
  have hsplit' : ms = a ++ x :: (b ++ y :: post) := by simp [hsplit]
  refine ⟨a, x, b ++ y :: post, hsplit', htask, hpulse, ?_⟩
  -- with a pulse before it, it would renew a live session
  by_contra hsome
  have hsome : ∃ m ∈ a, is_pulse client_id m = true := by simpa using hsome
  obtain ⟨ip', port', param', ttl', hev'⟩ :=
    renewed_false_of_in_time hcfg hsrv h hroom hbye hin_time hsplit' hpulse hsome
  rw [hev] at hev'
  cases hev'

/-- A scan before the last pulse does not report the client. -/
theorem not_reported_before_pulse (hsplit : ms = pre ++ z :: post) (hz : is_scan z = true)
    (hlater : ∃ y ∈ post, is_pulse client_id y = true) : reported srv client_id z = 0 := by
  rw [reported_eq (hsplit ▸ h) (hsplit ▸ hroom) hz]
  by_cases hpre : ∃ x ∈ pre, is_pulse client_id x = true
  swap
  · have hno : ∀ m ∈ pre, is_pulse client_id m = false := by simpa using hpre
    rw [expiry_of_no_pulse hno fun m hm => hbye m (by simp [hsplit, hm])]
    rfl
  obtain ⟨a, x, b, rfl, hx, hb⟩ := Trace.split_latest hpre
  obtain ⟨a', y, b', rfl, hy, ha'⟩ := Trace.split_first hlater
  obtain ⟨i, hadv⟩ := advertised h (x := x) (by simp [hsplit]) hx
  have hno : ∀ m ∈ b ++ z :: a', is_pulse client_id m = false := by
    intro m hm
    simp only [List.mem_append, List.mem_cons] at hm
    rcases hm with hm | rfl | hm
    · exact hb m hm
    · exact not_pulse_of_scan hz
    · exact ha' m hm
  have hsplit' : ms = a ++ x :: (b ++ (z :: a' ++ y :: b')) := by simp [hsplit]
  have hsoon := hin_time a x (b ++ z :: a') y b' i (by simp [hsplit]) hadv hy hno
  rw [expiry_in_time hcfg hsrv (hsplit' ▸ h) (hsplit' ▸ hbye) hadv hb (y := y) (by simp) hsoon]
  have hzy := (time_le_of_split (hsplit ▸ h)).2 y (by simp)
  have hearly : z.time < x.time + keeps_for cfg i := hzy.trans_lt hsoon
  rw [Option.any_some, decide_eq_false (Nat.not_le_of_lt hearly)]
  rfl

omit hin_time in
/-- After the last pulse, a scan reports the client if it is the first one at the end of the lease
    or later. -/
theorem reported_after_last_pulse (hsplit : ms = pre ++ x :: (mid ++ z :: post))
    (hadv : Advertises srv c client_id x interval_seconds)
    (hno : ∀ m ∈ mid ++ z :: post, is_pulse client_id m = false) (hz : is_scan z = true) :
    reported srv client_id z =
      if x.time + keeps_for cfg interval_seconds ≤ z.time ∧
        ∀ w ∈ mid, is_scan w = true → w.time < x.time + keeps_for cfg interval_seconds
      then 1 else 0 := by
  have hsplit' : ms = (pre ++ x :: mid) ++ z :: post := by simp [hsplit]
  rw [reported_eq (hsplit' ▸ h) (hsplit' ▸ hroom) hz, expiry_of_advertises hcfg hsrv (hsplit ▸ h)
    (hsplit ▸ hbye) hadv fun m hm => hno m (List.mem_append_left _ hm)]
  generalize x.time + keeps_for cfg interval_seconds = d
  by_cases hmid : ∀ w ∈ mid, is_scan w = true → w.time < d
  · rw [if_pos hmid, Option.any_some]
    by_cases hd : d ≤ z.time
    · rw [if_pos ⟨hd, hmid⟩, decide_eq_true hd]
      rfl
    · rw [if_neg fun hboth => hd hboth.1, decide_eq_false hd]
      rfl
  · rw [if_neg hmid, if_neg fun hboth => hmid hboth.2]
    rfl

end kept

/-- As long as the pulses of a client come in time, its session goes on: only its first pulse opens
    one, no scan drains its lease, and after its last pulse the first scan at the end of the lease
    or later reports it, once. -/
theorem lease_kept (srv : Server) (cfg : Config.ServerConfig)
    (hcfg : cfg.validate = some (.ok ())) (hsrv : srv.config = cfg.settings) (now : Instant)
    (unix : Int64) (c : Config ops State Job) (ms : List ServerMoment)
    (h : Recorded srv.machine srv.prog (srv.start now unix) c ms) (client_id : Str)
    (hroom : ∀ x ∈ ms, is_pulse client_id x = true → x.state.leases.HasRoom client_id)
    (hbye : ∀ x ∈ ms, x.op ≠ .leases_release client_id)
    (hin_time : InTime srv cfg c client_id ms) : LeaseKept srv cfg c client_id ms where
  advertised _ hx hpulse := advertised h hx hpulse
  one_session _ _ _ hsplit := renewed_false_of_in_time hcfg hsrv h hroom hbye hin_time hsplit
  one_grant _ hy _ := first_of_new_grant hcfg hsrv h hroom hbye hin_time hy
  undrained _ _ _ hsplit := not_reported_before_pulse hcfg hsrv h hroom hbye hin_time hsplit
  drained _ _ _ _ _ _ hsplit := reported_after_last_pulse hcfg hsrv h hroom hbye hsplit

/-! ### A sample run -/

/-- The TTL that an operation gives a lease. -/
def ttl_of : Op → Duration
  | .leases_renew _ _ _ _ ttl => ttl
  | _ => 0

/-- Pulses that are in time for every earlier pulse are in time for the pulse before. -/
theorem in_time_of_pairwise (hcfg : cfg.validate = some (.ok ())) (hsrv : srv.config = cfg.settings)
    (h : Recorded srv.machine srv.prog (srv.start now unix) c ms)
    (hpairs : ms.Pairwise (fun x y => is_pulse client_id x = true → is_pulse client_id y = true →
      y.time < x.time + ttl_of x.op)) : InTime srv cfg c client_id ms := by
  intro pre x mid y post i hsplit hadv hy _
  obtain ⟨ip, port, param, hop⟩ :=
    renewal_of_advertises hcfg hsrv h (x := x) (by simp [hsplit]) hadv
  rw [hsplit, List.pairwise_append, List.pairwise_cons] at hpairs
  have hsoon := hpairs.2.1.1 y (by simp) hadv.1 hy
  rwa [hop] at hsoon

/-- The configuration of the sample server. -/
def sample_settings : Config.ServerConfig where
  server :=
    { bind := "0.0.0.0:7370".toList
      server_id := "gate".toList
      nonce_ttl_seconds := 30
      command_timeout_seconds := 10
      client_cooldown_seconds := 60
      max_packet_size := 1200
      hello_rate_max := 30
      hello_rate_window_seconds := 60
      hello_max_skew_seconds := 30
      state_file := none
      encryption_private_key := none
      max_param_len := 256
      wire_encryption := .Off
      max_faulty_packets := 10
      blacklist_seconds := 600
      attack_blacklist_threshold := 100
      attack_window_seconds := 60
      attack_rejection_threshold := 1000
      active_ip_ttl_seconds := 600
      max_inflight_packets := 1024
      max_tracked_ips := 100000
      lease_grace_multiplier := 3
      lease_max_seconds := 86400 }
  command :=
    { argv := ["/usr/local/bin/grant".toList]
      revoke_argv := some ["/usr/local/bin/revoke".toList]
      working_dir := none
      max_concurrent := 4
      allow_shell := false }
  clients :=
    [{ client_id := (sample_id 1).to_hex, public_key := [], label := some ['a'] },
      { client_id := (sample_id 2).to_hex, public_key := [], label := some ['b'] }]

/-- Client 1 pulses twice; a scan comes between its pulses, and two come after its lease is over. -/
def pulse_and_scan : List (Label Env Job) :=
  sample_task 0 1 (.Hello (sample_hello 1 1000 1)) 14 (sample_env 1000 1) ++
  sample_task 1 1 (.Response (sample_response 1 1)) 21 (sample_env 1000 0) ++
  (.begin .cleanup :: List.replicate 8 (.run 2 (sample_env 1000 0)) : List (Label Env Job)) ++
  sample_task 3 1 (.Hello (sample_hello 1 1000 2)) 14
    { sample_env 1000 2 with elapsed := Duration.from_secs 5 } ++
  sample_task 4 1 (.Response (sample_response 1 2)) 22 (sample_env 1000 0) ++
  (.begin .cleanup ::
    List.replicate 13 (.run 5 { sample_env 1000 0 with elapsed := Duration.from_secs 30 }) :
      List (Label Env Job)) ++
  (.begin .cleanup :: List.replicate 8 (.run 6 (sample_env 1000 0)) : List (Label Env Job))

theorem lease_kept_twice :
    ∃ c ms, record sample.machine sample.prog (init (sample.start 0 1000), []) pulse_and_scan =
        some (c, ms) ∧
      ms.countP (is_pulse (sample_id 1).to_hex) = 2 ∧
      (ms.filter is_scan).map (reported sample (sample_id 1).to_hex) = [0, 1, 0] ∧
      LeaseKept sample sample_settings c (sample_id 1).to_hex ms := by
  have hcfg : sample_settings.validate = some (.ok ()) := by decide +kernel
  have hrun : (record sample.machine sample.prog (init (sample.start 0 1000), [])
      pulse_and_scan).any (fun t =>
        decide (t.2.countP (is_pulse (sample_id 1).to_hex) = 2) &&
        decide ((t.2.filter is_scan).map (reported sample (sample_id 1).to_hex) = [0, 1, 0]) &&
        decide (∀ x ∈ t.2, is_pulse (sample_id 1).to_hex x = true →
          x.state.leases.HasRoom (sample_id 1).to_hex) &&
        decide (∀ x ∈ t.2, (match x.op with | .leases_release _ => true | _ => false) = false) &&
        decide (t.2.Pairwise (fun x y => is_pulse (sample_id 1).to_hex x = true →
          is_pulse (sample_id 1).to_hex y = true → y.time < x.time + ttl_of x.op))) = true := by
    decide +kernel
  obtain ⟨⟨c, ms⟩, ht, hcheck⟩ := (Option.any_eq_true _ _).mp hrun
  simp only [Bool.and_eq_true, decide_eq_true_iff] at hcheck
  obtain ⟨⟨⟨⟨htwo, hscans⟩, hroom⟩, hbye⟩, hpairs⟩ := hcheck
  have hrec : Recorded sample.machine sample.prog (sample.start 0 1000) c ms :=
    record_sound (r := (c, ms)) .start ht
  refine ⟨c, ms, ht, htwo, hscans, lease_kept sample sample_settings hcfg rfl 0 1000 c ms hrec _
    hroom ?_ (in_time_of_pairwise hcfg rfl hrec hpairs)⟩
  intro x hx hop
  have hno := hbye x hx
  rw [hop] at hno
  cases hno

end sessions

end Server

end SignedPulse
