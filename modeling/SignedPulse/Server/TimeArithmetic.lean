import SignedPulse.Server.Blocks
import SignedPulse.Server.HelloReplay
import SignedPulse.Server.KeepAlive
import SignedPulse.Server.Spending

/-! # Sums of times

    An `Instant` of the platform counts seconds in an `i64`, and adding a
    `Duration` past its end panics; the lockdown timer counts milliseconds in a
    `u64`. `TimesExact` says that the sums that an operation forms are those of
    unbounded arithmetic, so that none panics or wraps.

    The unix deadlines are computed in `i128` and clipped, and a lease is never
    longer than a year, but the block duration and the attack window may be any
    `u64` of seconds. So the sums are exact while the clock leaves room for them
    (`HasRoom`, `times_exact_of_room`).
-/

namespace SignedPulse

/-! ### The range of the monotonic clock -/

/-- The last instant: the largest `i64` of seconds, and the nanoseconds of a second. -/
def Instant.MAX : Instant := 2 ^ 63 * 1000000000 - 1

/-- `Instant::checked_add`; the operator `+` panics on `none`. -/
def Instant.checked_add (t : Instant) (d : Duration) : Option Instant :=
  if t + d ≤ Instant.MAX then some (t + d) else none

theorem Instant.checked_add_eq_some {t : Instant} {d : Duration} (h : t + d ≤ Instant.MAX) :
    t.checked_add d = some (t + d) := if_pos h

namespace Blacklist

/-! ### Sums of the blacklist -/

/-- A faulty packet at `now` begins a block or extends one. -/
def begins_or_extends (threshold : UInt32) (now : Instant) (e : Entry) : Bool :=
  match e.blocked_until with
  | some t => decide (now < t)
  | none => decide (threshold < e.faults + 1)

/-- The duration that `record_faulty_at` adds to the clock, where it adds one. -/
def added (b : Blacklist) (ip : IpAddr) (now : Instant) : Option Duration :=
  if b.threshold = 0 then none
  else if b.max_entries > 0 ∧ b.state.len ≥ b.max_entries ∧ ip ∉ b.state then none
  else if begins_or_extends b.threshold now
      ((AList.lookup ip b.state).getD { faults := 0, blocked_until := none }) then some b.duration
  else none

theorem added_eq_some {b : Blacklist} {ip : IpAddr} {now : Instant} {d : Duration}
    (h : b.added ip now = some d) : b.threshold ≠ 0 ∧ d = b.duration := by
  unfold added at h
  split at h
  · cases h
  rename_i hT
  split at h
  · cases h
  split at h
  · exact ⟨hT, (Option.some.inj h).symm⟩
  · cases h

/-- An entry's deadline is such a sum. -/
theorem fault_deadline {threshold : UInt32} {duration : Duration} {now t : Instant} {e : Entry}
    (h : (fault threshold duration now e).2.blocked_until = some t) :
    begins_or_extends threshold now e = true ∧ t = now + duration := by
  unfold fault at h
  unfold begins_or_extends
  cases hentry : e.blocked_until with
  | some limit =>
    simp only [hentry] at h
    split at h
    · rename_i hlive
      exact ⟨decide_eq_true hlive, (Option.some.inj h).symm⟩
    · cases h
  | none =>
    simp only [hentry] at h
    split at h
    · rename_i htrip
      exact ⟨decide_eq_true htrip, (Option.some.inj h).symm⟩
    · cases h

/-- Whatever deadline a faulty packet leaves in the table was there, or is the sum of the clock and
    `added`. -/
theorem deadline_of_added {b : Blacklist} {ip ip' : IpAddr} {now t : Instant} {e : Entry}
    (h : AList.lookup ip (b.record_faulty ip' now).2.state = some e)
    (ht : e.blocked_until = some t) :
    AList.lookup ip b.state = some e ∨ ∃ d, b.added ip' now = some d ∧ t = now + d := by
  by_cases hrefused : b.threshold = 0 ∨
      b.max_entries > 0 ∧ b.state.len ≥ b.max_entries ∧ ip' ∉ b.state
  · rw [record_faulty_refused ip' now hrefused] at h
    exact .inl h
  obtain ⟨hT, hroom⟩ := not_or.mp hrefused
  rw [record_faulty_counted ip' now hT hroom] at h
  by_cases hip : ip = ip'
  · subst hip
    rw [AList.lookup_insert, Option.some.injEq] at h
    rw [← h] at ht
    obtain ⟨hadds, rfl⟩ := fault_deadline ht
    refine .inr ⟨b.duration, ?_, rfl⟩
    unfold added
    rw [if_neg hT, if_neg hroom, if_pos hadds]
  · rw [AList.lookup_insert_ne hip] at h
    exact .inl h

/-- Arming the lockdown now keeps it on until one window after now, in milliseconds since the
    start. -/
def ArmsExactly (b : Blacklist) (now : Instant) : Prop :=
  (b.arm_lockdown now).lockdown_until_ms.toNat = max b.lockdown_until_ms.toNat
    (Instant.duration_since now b.base / 1000000 + b.attack_window / 1000000)

instance (b : Blacklist) (now : Instant) : Decidable (b.ArmsExactly now) :=
  inferInstanceAs (Decidable (_ = _))

theorem toNat_max (a b : UInt64) : (max a b).toNat = max a.toNat b.toNat := by
  rw [show max a b = if a ≤ b then b else a from rfl]
  split
  · rename_i hle
    exact (Nat.max_eq_right (UInt64.le_iff_toNat_le.mp hle)).symm
  · rename_i hle
    rw [UInt64.le_iff_toNat_le] at hle
    exact (Nat.max_eq_left (Nat.le_of_not_le hle)).symm

theorem arms_exactly_of_room {b : Blacklist} {now : Instant}
    (h : Instant.duration_since now b.base / 1000000 + b.attack_window / 1000000 < 2 ^ 64) :
    b.ArmsExactly now := by
  have hsum : (b.now_ms now + Duration.as_millis b.attack_window).toNat =
      Instant.duration_since now b.base / 1000000 + b.attack_window / 1000000 := by
    unfold now_ms Duration.as_millis
    rw [UInt64.toNat_add, UInt64.toNat_ofNat', UInt64.toNat_ofNat',
      Nat.mod_eq_of_lt ((Nat.le_add_right _ _).trans_lt h),
      Nat.mod_eq_of_lt ((Nat.le_add_left _ _).trans_lt h), Nat.mod_eq_of_lt h]
  unfold ArmsExactly arm_lockdown
  rw [toNat_max, hsum]

end Blacklist

namespace Server

open Interleaving

/-! ### Unix deadlines -/

/-- A HELLO task dates the nonce and the replay key by the clock that it has read. -/
def DeadlineDemand (srv : Server) (job : Job) (h : List (Event ops)) (ev : Event ops) : Prop :=
  ∀ hello peer, srv.packet_from job = some (.Hello hello, peer) →
    match ev.op with
    | .nonce_insert _ _ _ _ expires_at => ∃ unix, ⟨.now_unix, unix⟩ ∈ h ∧
        expires_at = unix_deadline unix srv.config.nonce_ttl_seconds
    | .seen_insert_if_absent _ unix ttl_seconds => ⟨.now_unix, unix⟩ ∈ h ∧
        ttl_seconds = saturating_mul srv.config.hello_max_skew_seconds 2
    | _ => True

section demand
variable {srv : Server} {job : Job} {h : List (Event ops)}

theorem deadline_demand_of_area {ev : Event ops} (hnonces : ev.op.area ≠ .nonces)
    (hcache : ev.op.area ≠ .cache) : srv.DeadlineDemand job h ev := by
  intro hello peer _
  split
  · rename_i hop
    exact absurd (by rw [hop]; rfl) hnonces
  · rename_i hop
    exact absurd (by rw [hop]; rfl) hcache
  · trivial

theorem deadline_demand_of_touches {α : Type} {areas : List Area} {p : ServerM α}
    (hp : Touches areas p) (hnonces : Area.nonces ∉ areas) (hcache : Area.cache ∉ areas) :
    Program.wp (Program.histories (srv.DeadlineDemand job)) (fun _ _ => True) p h := by
  refine Program.wp_mono (fun _ _ _ => trivial) (hp.histories ?_)
  intro _ ev harea
  exact deadline_demand_of_area (fun heq => hnonces (heq ▸ harea)) fun heq => hcache (heq ▸ harea)

/-- Nothing is demanded of the other tasks. -/
theorem deadline_demand_of_other {α : Type} {areas : List Area} {p : ServerM α}
    (hp : Touches areas p)
    (hother : ∀ hello peer, srv.packet_from job ≠ some (.Hello hello, peer)) :
    Program.wp (Program.histories (srv.DeadlineDemand job)) (fun _ _ => True) p h := by
  refine Program.wp_mono (fun _ _ _ => trivial) (hp.histories ?_)
  intro _ ev _ hello peer hjob
  exact absurd hjob (hother hello peer)

theorem handle_hello_deadlines (srv : Server) (hello : Hello) (peer : SocketAddr)
    (reply : ReplyMode) :
    Program.wp (Program.histories (srv.DeadlineDemand job)) (fun _ _ => True)
      (srv.handle_hello hello peer reply) h := by
  have hrejected (replay : Bool) (h : List (Event ops)) :
      Program.wp (Program.histories (srv.DeadlineDemand job)) (fun _ _ => True)
        (note_rejected replay) h :=
    deadline_demand_of_touches (note_rejected_touches replay) (by decide) (by decide)
  unfold handle_hello
  refine Program.wp_histories_perform_bind.mpr fun allowed => ⟨fun _ _ _ => trivial, ?_⟩
  split
  · exact hrejected false _
  split
  · refine Program.wp_histories_perform_bind.mpr fun _ => ⟨fun _ _ _ => trivial, ?_⟩
    exact hrejected false _
  refine Program.wp_histories_perform_bind.mpr fun checked => ⟨fun _ _ _ => trivial, ?_⟩
  split
  · exact hrejected false _
  refine Program.wp_histories_perform_bind.mpr fun unix => ⟨fun _ _ _ => trivial, ?_⟩
  split
  · exact hrejected false _
  refine Program.wp_histories_perform_bind.mpr fun fresh => ⟨fun _ _ _ => ⟨by simp, rfl⟩, ?_⟩
  split
  · exact hrejected true _
  unfold issue_challenge
  refine Program.wp_histories_perform_bind.mpr fun _ => ⟨fun _ _ _ => trivial, ?_⟩
  refine Program.wp_histories_perform_bind.mpr fun nonce => ⟨fun _ _ _ => trivial, ?_⟩
  refine Program.wp_histories_perform_bind.mpr fun _ => ⟨fun _ _ _ => ⟨unix, by simp, rfl⟩, ?_⟩
  exact deadline_demand_of_touches (srv.send_challenge_touches _ _ _ _ _) (by decide) (by decide)

/-- Every task meets the demand. -/
theorem prog_deadline_demand (srv : Server) (job : Job) :
    Program.wp (Program.histories (srv.DeadlineDemand job)) (fun _ _ => True)
      (srv.prog job) [] := by
  cases job with
  | datagram data peer =>
    -- a demand is made of the handler of a HELLO only
    have hother {packet : Packet} {reply : ReplyMode}
        (hpacket : srv.packet_of data = some (packet, reply))
        (hne : ∀ hello, packet ≠ .Hello hello) (hello : Hello) (peer' : SocketAddr) :
        srv.packet_from (.datagram data peer) ≠ some (.Hello hello, peer') := by
      simp [packet_from, hpacket, hne hello]
    refine wp_receive (fun _ => True) (fun _ => True) ?_ (fun _ _ => trivial) ?_ ?_ trivial
    · intro _ o r _ ho _ _
      refine ⟨deadline_demand_of_area (fun heq => ?_) fun heq => ?_, trivial⟩
      · simp [heq] at ho
      · simp [heq] at ho
    · intro h _
      refine wp_handle_datagram trivial
        (deadline_demand_of_touches (note_faulty_touches _) (by decide) (by decide))
        (deadline_demand_of_touches (note_rejected_touches _) (by decide) (by decide)) ?_ ?_ ?_
      · exact fun hello reply _ => handle_hello_deadlines srv hello peer reply
      · intro resp reply hpacket
        exact deadline_demand_of_other (srv.handle_response_touches resp peer)
          (hother hpacket fun hello => by simp)
      · intro bye reply hpacket
        exact deadline_demand_of_other (srv.handle_bye_touches bye peer)
          (hother hpacket fun hello => by simp)
    · intro _ _ _ _ _
      exact ⟨fun _ _ _ => trivial, trivial⟩
  | cleanup =>
    have hnone (h : List (Event ops)) (ev : Event ops) : srv.DeadlineDemand .cleanup h ev := by
      intro hello peer hjob
      cases hjob
    refine wp_cleanup (fun _ => True) (fun _ => True) ?_ ?_ trivial
    · exact fun _ _ _ _ _ _ _ => ⟨hnone _ _, trivial⟩
    · intro h _
      refine Program.wp_mono (fun _ _ _ => trivial) (srv.run_lease_scan_touches.histories ?_)
      exact fun _ _ _ => hnone _ _

end demand

/-- The two ways to say that a task handles a HELLO. -/
theorem packet_from_of_hello {srv : Server} {job : Job} {hello : Hello}
    (h : srv.hello_of job = some hello) :
    ∃ peer, srv.packet_from job = some (.Hello hello, peer) := by
  cases job with
  | cleanup => cases h
  | datagram data peer =>
    refine ⟨peer, ?_⟩
    unfold hello_of at h
    dsimp only at h
    split at h
    · rename_i hello' reply hpacket
      rw [← Option.some.inj h]
      simp [packet_from, hpacket]
    · cases h

/-! ### Runs -/

/-- The sums of times that are formed at a moment are those of unbounded arithmetic; `pre` are the
    moments before it. -/
def TimesExact (srv : Server) (pre : List ServerMoment) (x : ServerMoment) : Prop :=
  x.state.blacklist.ArmsExactly x.time ∧
  match x.op with
  | .record_faulty ip => ∀ d, x.state.blacklist.added ip x.time = some d →
      x.time.checked_add d = some (x.time + d)
  | .leases_renew _ _ _ _ ttl => x.time.checked_add ttl = some (x.time + ttl)
  | .nonce_insert _ _ _ _ expires_at =>
    ∃ unix : Int64, ⟨.now_unix, unix⟩ ∈ done_by srv.machine x.task pre ∧
      expires_at.toInt =
        min (unix.toInt + srv.config.nonce_ttl_seconds.toNat) Int64.maxValue.toInt
  | .seen_insert_if_absent _ unix ttl_seconds =>
    ⟨.now_unix, unix⟩ ∈ done_by srv.machine x.task pre ∧
      (unix_deadline unix ttl_seconds).toInt =
        min (unix.toInt + 2 * srv.config.hello_max_skew_seconds.toNat) Int64.maxValue.toInt
  | _ => True

/-- The skew check of a HELLO, whose differences fit 128 bits. -/
def SkewExact (srv : Server) (hello : Hello) (unix : Int64) : Prop :=
  (unix.toInt - hello.client_timestamp_unix.toInt).bmod (2 ^ 128) =
      unix.toInt - hello.client_timestamp_unix.toInt ∧
    (srv.within_skew hello unix = true ↔
      |unix.toInt - hello.client_timestamp_unix.toInt| ≤ srv.config.hello_max_skew_seconds.toNat)

/-- At `t` the clock leaves room for a block, a lease and an attack window, when the server was
    started at `start`. -/
structure HasRoom (cfg : Config.ServerConfig) (start t : Instant) : Prop where
  block : cfg.server.max_faulty_packets = 0 ∨
    t + Duration.from_secs cfg.server.blacklist_seconds ≤ Instant.MAX
  lease : t + Duration.from_secs cfg.server.lease_max_seconds ≤ Instant.MAX
  window : Instant.duration_since t start / 1000000 +
    max cfg.server.attack_window_seconds.toNat 1 * 1000 < 2 ^ 64

instance (cfg : Config.ServerConfig) (start t : Instant) : Decidable (HasRoom cfg start t) :=
  decidable_of_iff ((cfg.server.max_faulty_packets = 0 ∨
      t + Duration.from_secs cfg.server.blacklist_seconds ≤ Instant.MAX) ∧
    t + Duration.from_secs cfg.server.lease_max_seconds ≤ Instant.MAX ∧
    Instant.duration_since t start / 1000000 +
      max cfg.server.attack_window_seconds.toNat 1 * 1000 < 2 ^ 64)
    ⟨fun ⟨hblock, hlease, hwindow⟩ => ⟨hblock, hlease, hwindow⟩,
      fun h => ⟨h.block, h.lease, h.window⟩⟩

section runs
variable {srv : Server} {cfg : Config.ServerConfig} {now : Instant} {unix : Int64}
variable {c : Config ops State Job} {ms : List ServerMoment}

/-- The blacklist as it was set up. -/
theorem blacklist_settings (hsrv : srv.config = cfg.settings)
    (h : Recorded srv.machine srv.prog (srv.start now unix) c ms) :
    c.state.blacklist.threshold = cfg.server.max_faulty_packets ∧
      c.state.blacklist.duration = Duration.from_secs cfg.server.blacklist_seconds ∧
      c.state.blacklist.base = now ∧
      c.state.blacklist.attack_window =
        Duration.from_secs (max cfg.server.attack_window_seconds 1) := by
  have hstart : (srv.start now unix).blacklist = .new cfg.server.max_faulty_packets
      cfg.server.blacklist_seconds cfg.server.attack_blacklist_threshold
      cfg.server.attack_rejection_threshold cfg.server.attack_window_seconds
      cfg.server.max_tracked_ips now := by
    unfold start
    rw [hsrv]
    rfl
  obtain ⟨calls, -, -, hrun⟩ := blacklist_of_reachable h.reachable
  rw [hrun, hstart]
  exact ⟨Blacklist.run_threshold _ _, Blacklist.run_duration _ _,
    congrArg Blacklist.Settings.base (Blacklist.run_settings _ calls),
    Blacklist.run_attack_window _ _⟩

/-- A lease is never longer than the configured maximum. -/
theorem lease_ttl_le (hcfg : cfg.validate = some (.ok ())) (hsrv : srv.config = cfg.settings)
    (interval_seconds : UInt32) :
    srv.lease_ttl interval_seconds ≤ Duration.from_secs cfg.server.lease_max_seconds := by
  have hmax : 1 ≤ cfg.server.lease_max_seconds.toNat := (Config.ServerConfig.lease_limits hcfg).2
  rw [lease_ttl_eq hcfg hsrv]
  unfold keeps_for Duration.from_secs
  refine Nat.mul_le_mul_right _ (max_le hmax (min_le_right _ _))

/-- The skew check is exact, for any timestamp that a HELLO may carry. -/
theorem skew_exact (srv : Server) (hello : Hello) (unix : Int64) : srv.SkewExact hello unix := by
  have hlo := unix.le_toInt
  have hhi := unix.toInt_lt
  have hlo' := hello.client_timestamp_unix.le_toInt
  have hhi' := hello.client_timestamp_unix.toInt_lt
  constructor
  · rw [Int.bmod_eq_of_le] <;> omega
  · unfold within_skew
    rw [decide_eq_true_iff, ← Int.natCast_natAbs]
    omega

/-- The TTL in the replay cache is twice the skew, unless the deadline is clipped anyway. -/
theorem replay_deadline_toInt (unix : Int64) (skew : UInt64) :
    (unix_deadline unix (saturating_mul skew 2)).toInt =
      min (unix.toInt + 2 * skew.toNat) Int64.maxValue.toInt := by
  have hlo := unix.le_toInt
  have hmax : Int64.maxValue.toInt = 2 ^ 63 - 1 := rfl
  have htwo : (2 : UInt64).toNat = 2 := rfl
  rw [unix_deadline_toInt, saturating_mul_toNat, htwo, show UInt64.size = 2 ^ 64 from rfl]
  omega

/-- The deadlines of a HELLO's nonce and of its replay key. -/
theorem deadlines_exact {pre post : List ServerMoment} {x : ServerMoment}
    (h : Recorded srv.machine srv.prog (srv.start now unix) c (pre ++ x :: post)) :
    (∀ nonce client_id ip port expires_at,
      x.op = .nonce_insert nonce client_id ip port expires_at → ∃ unix : Int64,
        ⟨.now_unix, unix⟩ ∈ done_by srv.machine x.task pre ∧ expires_at.toInt =
          min (unix.toInt + srv.config.nonce_ttl_seconds.toNat) Int64.maxValue.toInt) ∧
    ∀ key unix ttl_seconds, x.op = .seen_insert_if_absent key unix ttl_seconds →
      ⟨.now_unix, unix⟩ ∈ done_by srv.machine x.task pre ∧
        (unix_deadline unix ttl_seconds).toInt =
          min (unix.toInt + 2 * srv.config.hello_max_skew_seconds.toNat)
            Int64.maxValue.toInt := by
  obtain ⟨task, htask, hdeadline⟩ := h.guarded_at srv.prog_deadline_demand
  constructor
  · intro nonce client_id ip port expires_at hop
    obtain ⟨task', htask', hminted⟩ := h.guarded_at srv.prog_spend_demand
    obtain rfl : task = task' := Option.some.inj (htask.symm.trans htask')
    obtain ⟨i, s, op, e⟩ := x
    obtain rfl : op = _ := hop
    obtain ⟨⟨hello, peer, _, _, _, _, hjob, -⟩, -⟩ := hminted
    obtain ⟨unix', hread, rfl⟩ := hdeadline hello peer hjob
    exact ⟨unix', hread, unix_deadline_toInt _ _⟩
  · intro key unix' ttl_seconds hop
    obtain ⟨task', htask', hshown⟩ := h.guarded_at srv.prog_hello_demand
    obtain rfl : task = task' := Option.some.inj (htask.symm.trans htask')
    obtain ⟨i, s, op, e⟩ := x
    obtain rfl : op = _ := hop
    obtain ⟨⟨hello, hjob, -⟩, -⟩ := hshown
    obtain ⟨peer, hfrom⟩ := packet_from_of_hello hjob
    obtain ⟨hread, rfl⟩ := hdeadline hello peer hfrom
    exact ⟨hread, replay_deadline_toInt _ _⟩

/-- While the clock leaves room, no sum of times panics, wraps or is truncated. -/
theorem times_exact_of_room (hcfg : cfg.validate = some (.ok ())) (hsrv : srv.config = cfg.settings)
    (h : Recorded srv.machine srv.prog (srv.start now unix) c ms)
    (hroom : ∀ x ∈ ms, HasRoom cfg now x.time) :
    Throughout (TimesExact srv) ms ∧ ∀ hello unix, srv.SkewExact hello unix := by
  refine ⟨?_, skew_exact srv⟩
  rintro pre x post rfl
  obtain ⟨c', job, next, hrec, hstate, -⟩ := h.split
  obtain ⟨hthreshold, hduration, hbase, hwindow⟩ := blacklist_settings hsrv hrec
  rw [hstate] at hthreshold hduration hbase hwindow
  have hx : x ∈ pre ++ x :: post := by simp
  obtain ⟨hblock, hlease, hms⟩ := hroom x hx
  obtain ⟨hnonce, hseen⟩ := deadlines_exact h
  -- the lockdown timer: the window in milliseconds
  constructor
  · apply Blacklist.arms_exactly_of_room
    have hmillis : x.state.blacklist.attack_window / 1000000 =
        max cfg.server.attack_window_seconds.toNat 1 * 1000 := by
      rw [hwindow, Duration.from_secs, Blacklist.toNat_max, show (1 : UInt64).toNat = 1 from rfl]
      exact Nat.div_eq_of_eq_mul_left (by decide) (Nat.mul_assoc _ 1000 1000000).symm
    rw [hbase, hmillis]
    exact hms
  -- and each operation with its own sum
  split
  · intro d hadded
    obtain ⟨hon, rfl⟩ := Blacklist.added_eq_some hadded
    rw [hduration]
    exact Instant.checked_add_eq_some (hblock.resolve_left (hthreshold ▸ hon))
  · rename_i client_id ip port param ttl hop
    obtain ⟨task, evs, htask, hdemand⟩ := h.guarded (P := fun job _ ev => RenewalDemand srv job ev)
      (prog_renewal_demand srv) hx
    have hevent : (x.event srv.machine).op = .leases_renew client_id ip port param ttl := hop
    unfold RenewalDemand at hdemand
    rw [hevent] at hdemand
    obtain ⟨resp, peer, -, -, -, -, rfl⟩ := hdemand
    exact Instant.checked_add_eq_some
      ((Nat.add_le_add_left (lease_ttl_le hcfg hsrv _) _).trans hlease)
  · rename_i nonce client_id ip port expires_at hop
    exact hnonce nonce client_id ip port expires_at hop
  · rename_i key unix' ttl_seconds hop
    exact hseen key unix' ttl_seconds hop
  · trivial

end runs

/-- The configuration of `strict`. -/
def strict_settings : Config.ServerConfig :=
  { sample_settings with server := { sample_settings.server with max_faulty_packets := 1 } }

/-- Faulty packets from one source, and a pulse from another. -/
def faults_and_pulse : List (Label Env Job) :=
  two_empty_datagrams ++ sample_task 3 2 (.Response (sample_response 2 1)) 21 (sample_env 1000 0)

theorem times_exact_of_room_strict :
    ∃ c ms, Recorded strict.machine strict.prog (strict.start 0 1000) c ms ∧
      (∃ x ∈ ms, blames (sample_peer 1).ip x = true) ∧ (∃ x ∈ ms, (renewal_of x.op).isSome = true) ∧
      Throughout (TimesExact strict) ms ∧ ∀ hello unix, strict.SkewExact hello unix := by
  have hcfg : strict_settings.validate = some (.ok ()) := by decide +kernel
  have hrun : (record strict.machine strict.prog (init (strict.start 0 1000), [])
      faults_and_pulse).any (fun t =>
        t.2.any (blames (sample_peer 1).ip) && t.2.any (fun x => (renewal_of x.op).isSome) &&
        decide (∀ x ∈ t.2, HasRoom strict_settings 0 x.time)) = true := by
    decide +kernel
  obtain ⟨⟨c, ms⟩, ht, hcheck⟩ := (Option.any_eq_true _ _).mp hrun
  simp only [Bool.and_eq_true, decide_eq_true_iff, List.any_eq_true] at hcheck
  obtain ⟨⟨hfaults, hpulse⟩, hroom⟩ := hcheck
  have hrec : Recorded strict.machine strict.prog (strict.start 0 1000) c ms :=
    record_sound (r := (c, ms)) .start ht
  exact ⟨c, ms, hrec, hfaults, hpulse, times_exact_of_room hcfg rfl hrec hroom⟩

/-- Blocks and attack windows as long as a configuration file can say. -/
def endless_settings : Config.ServerConfig :=
  { strict_settings with
    server :=
      { strict_settings.server with
        blacklist_seconds := 9223372036854775807
        attack_window_seconds := 9223372036854775807 } }

def endless : Server := { sample with config := endless_settings.settings }

/-- The sum of the clock and the block duration panics at this moment. -/
def panics (x : ServerMoment) : Bool :=
  match x.op with
  | .record_faulty ip =>
    (x.state.blacklist.added ip x.time).any (fun d => (x.time.checked_add d).isNone)
  | _ => false

/-- Two faulty packets are enough to make the server panic, and no lockdown lasts as long as it
    should. -/
theorem endless_block_panics :
    endless_settings.validate = some (.ok ()) ∧ endless.config = endless_settings.settings ∧
    ∃ c ms, Recorded endless.machine endless.prog (endless.start 0 1000) c ms ∧
      (∀ x ∈ ms, x.time ≤ Instant.MAX) ∧ (∃ x ∈ ms, panics x = true) ∧
      (∃ x ∈ ms, x.op = .note_rejection ∧ ¬ x.state.blacklist.ArmsExactly x.time) ∧
      ¬ Throughout (TimesExact endless) ms := by
  have hrun : (record endless.machine endless.prog (init (endless.start 0 1000), [])
      two_empty_datagrams).any (fun t =>
        decide (∀ x ∈ t.2, x.time ≤ Instant.MAX) && t.2.any panics &&
        t.2.any (fun x => (match x.op with | .note_rejection => true | _ => false) &&
          !decide (x.state.blacklist.ArmsExactly x.time))) = true := by
    decide +kernel
  obtain ⟨⟨c, ms⟩, ht, hcheck⟩ := (Option.any_eq_true _ _).mp hrun
  simp only [Bool.and_eq_true, decide_eq_true_iff, List.any_eq_true] at hcheck
  obtain ⟨⟨hclock, hpanics⟩, y, hy, hop, harms⟩ := hcheck
  have hrejection : y.op = .note_rejection := by
    split at hop
    · assumption
    · cases hop
  have hshort : ¬ y.state.blacklist.ArmsExactly y.time := by simpa using harms
  refine ⟨by decide +kernel, rfl, c, ms, record_sound (r := (c, ms)) .start ht, hclock, hpanics,
    ⟨y, hy, hrejection, hshort⟩, ?_⟩
  intro hexact
  obtain ⟨pre, post, rfl⟩ := List.append_of_mem hy
  exact hshort (hexact pre y post rfl).1

end Server

end SignedPulse
