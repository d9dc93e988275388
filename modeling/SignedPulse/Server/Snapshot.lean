import SignedPulse.Server.KeepAlive

/-! # The status snapshot

    On request the server writes out its status: a copy of the counters, taken
    at one moment, and a row for each live lease, read at a later one, with
    the seconds until the lease would be revoked.

    `snapshot_foretells` says what the rows promise. Without another pulse or a
    BYE of the client, no scan takes its lease within that many seconds, and
    the first scan after one second more reports its end, once.
-/

namespace SignedPulse

/-! ### The snapshot -/

/-- The leases that have not expired. -/
def LeaseTracker.active_count (t : LeaseTracker) (now : Instant) : Nat :=
  t.leases.count fun _ l => decide (now < l.expires_at)

/-- Source IP, client id and whole seconds until the lease expires. The table is walked in the order
    that `order` decides. -/
def LeaseTracker.live_snapshot (t : LeaseTracker) (now : Instant) (order : List Nat) :
    List (IpAddr × Str × Nat) :=
  ((HashMap.visit order t.leases.entries).filter fun e => decide (now < e.2.expires_at)).map
    fun e => (e.2.ip, e.1, (e.2.expires_at - now) / 1000000000)

structure LeaseInfo where
  source_ip : IpAddr
  client_id : Str
  revoke_in_seconds : Nat

structure ServerStatusSnapshot where
  status : ServerStatus
  active_leases : Nat
  leases : List LeaseInfo

namespace Server

open Interleaving

/-- The order of the rows: by the seconds that are left. -/
def sooner (a b : LeaseInfo) : Bool := decide (a.revoke_in_seconds ≤ b.revoke_in_seconds)

/-- What is written out, with a status that was copied before the leases are read. -/
def write_status (status : ServerStatus) (t : LeaseTracker) (now : Instant) (order : List Nat) :
    ServerStatusSnapshot :=
  let leases := (t.live_snapshot now order).map fun x => LeaseInfo.mk x.1 x.2.1 x.2.2
  -- a stable sort
  let leases := leases.mergeSort sooner
  { status := status, active_leases := leases.length, leases := leases }

section rows
variable {status : ServerStatus} {t : LeaseTracker} {now : Instant} {order : List Nat}

theorem rows_perm : (write_status status t now order).leases.Perm
    ((t.leases.entries.filter fun e => decide (now < e.2.expires_at)).map fun e =>
      LeaseInfo.mk e.2.ip e.1 ((e.2.expires_at - now) / 1000000000)) := by
  refine (List.mergeSort_perm _ _).trans ?_
  unfold LeaseTracker.live_snapshot
  rw [List.map_map]
  exact ((HashMap.visit_perm order _).filter _).map _

theorem rows_sorted : (write_status status t now order).leases.Pairwise
    fun a b => a.revoke_in_seconds ≤ b.revoke_in_seconds := by
  have htrans (a b c : LeaseInfo) (hab : sooner a b = true) (hbc : sooner b c = true) :
      sooner a c = true :=
    decide_eq_true ((of_decide_eq_true hab).trans (of_decide_eq_true hbc))
  have htotal (a b : LeaseInfo) : (sooner a b || sooner b a) = true := by
    unfold sooner
    rcases Nat.le_total a.revoke_in_seconds b.revoke_in_seconds with h | h <;> simp [h]
  exact (List.pairwise_mergeSort htrans htotal _).imp fun h => of_decide_eq_true h

/-- Whole seconds until an instant. -/
theorem seconds_until {now expires_at k : Nat} (h : now < expires_at) :
    (expires_at - now) / 1000000000 = k ↔
      now + k * 1000000000 ≤ expires_at ∧ expires_at < now + (k + 1) * 1000000000 := by
  omega

/-- A row is a live lease, and the seconds of the row are those that are left of it. -/
theorem mem_rows {row : LeaseInfo} : row ∈ (write_status status t now order).leases ↔
    ∃ l, t.entry row.client_id = some l ∧ row.source_ip = l.ip ∧ now < l.expires_at ∧
      now + row.revoke_in_seconds * 1000000000 ≤ l.expires_at ∧
      l.expires_at < now + (row.revoke_in_seconds + 1) * 1000000000 := by
  rw [rows_perm.mem_iff, List.mem_map]
  constructor
  · rintro ⟨⟨client_id, l⟩, hmem, rfl⟩
    obtain ⟨hentry, hlive⟩ := List.mem_filter.mp hmem
    have hlive := of_decide_eq_true hlive
    exact ⟨l, AList.mem_lookup_iff.mpr hentry, rfl, hlive, (seconds_until hlive).mp rfl⟩
  · rintro ⟨l, hentry, hip, hlive, hseconds⟩
    refine ⟨⟨row.client_id, l⟩, List.mem_filter.mpr
      ⟨AList.mem_lookup_iff.mp hentry, decide_eq_true hlive⟩, ?_⟩
    have hseconds := (seconds_until hlive).mpr hseconds
    obtain ⟨source_ip, client_id, revoke_in_seconds⟩ := row
    dsimp only at hip hseconds ⊢
    rw [hip, hseconds]

/-- No client has two rows. -/
theorem rows_nodup :
    ((write_status status t now order).leases.map LeaseInfo.client_id).Nodup := by
  refine (rows_perm.map LeaseInfo.client_id).nodup_iff.mpr ?_
  rw [List.map_map]
  exact t.leases.nodupKeys.sublist List.filter_sublist

theorem active_leases_eq :
    (write_status status t now order).active_leases = t.active_count now := by
  show (write_status status t now order).leases.length = _
  rw [rows_perm.length_eq, List.length_map]
  exact (List.countP_eq_length_filter).symm

end rows

/-! ### What becomes of a lease -/

section entries
variable (srv : Server) {x : ServerMoment} {client_id : Str}

/-- Without a pulse or a BYE of the client, only a scan can take its lease. -/
theorem entry_after (hpulse : is_pulse client_id x = false)
    (hbye : x.op ≠ .leases_release client_id) :
    (x.after srv.machine).leases.entry client_id =
      if is_scan x then (x.state.leases.entry client_id).filter fun l => l.live x.time
      else x.state.leases.entry client_id := by
  obtain ⟨i, s, o, e⟩ := x
  by_cases harea : o.area = .leases
  swap
  · have hsame : (Moment.after srv.machine (⟨i, s, o, e⟩ : ServerMoment)).leases = s.leases :=
      perform_leases harea
    rw [hsame]
    cases o <;> first | rfl | exact absurd rfl harea
  cases o <;> simp only [Op.area, reduceCtorEq] at harea
  case leases_renew c ip port param ttl =>
    have hc : client_id ≠ c := by
      intro hc
      simp [is_pulse, renewal_of, hc] at hpulse
    show (s.leases.renew_at c ip port param ttl (s.now + e.elapsed)).2.entry client_id =
      s.leases.entry client_id
    by_cases hroom : s.leases.HasRoom c
    · rw [LeaseTracker.entry_renew_at hroom, if_neg hc]
    · rw [LeaseTracker.renew_at_full hroom]
  case leases_release c =>
    have hc : client_id ≠ c := fun hc => hbye (congrArg Op.leases_release hc.symm)
    show (s.leases.release_at c (s.now + e.elapsed)).2.entry client_id = s.leases.entry client_id
    rw [LeaseTracker.entry_release_at, if_neg hc]
  case leases_others_on_ip => rfl
  case leases_take_expired =>
    show (s.leases.take_expired_at (s.now + e.elapsed) e.order).2.entry client_id =
      (s.leases.entry client_id).filter fun l => l.live (s.now + e.elapsed)
    exact LeaseTracker.entry_take_expired_at

/-- And only a scan can report its end, once it is over. -/
theorem reported_after (hbye : x.op ≠ .leases_release client_id) :
    reported srv client_id x =
      if is_scan x then ((x.state.leases.entry client_id).any fun l => !l.live x.time).toNat
      else 0 := by
  obtain ⟨i, s, o, e⟩ := x
  cases o
  case leases_release c =>
    have hc : c ≠ client_id := fun hc => hbye (congrArg Op.leases_release hc)
    exact (LeaseTracker.count_release_at (t := s.leases) (c := client_id)).trans
      (if_neg (Ne.symm hc))
  case leases_take_expired => exact LeaseTracker.count_take_expired_at
  all_goals rfl

end entries

section runs
variable {srv : Server} {now : Instant} {unix : Int64} {c c' : Config ops State Job}
variable {pre post : List ServerMoment} {client_id : Str} {l : Lease}

/-- A lease that is neither renewed nor released is there until the first scan after its time,
    which reports its end. Nothing else does. -/
theorem lease_runs_out (h : Recorded srv.machine srv.prog (srv.start now unix) c pre)
    (hentry : c.state.leases.entry client_id = some l)
    (h' : Recorded srv.machine srv.prog (srv.start now unix) c' (pre ++ post))
    (hpulse : ∀ x ∈ post, is_pulse client_id x = false)
    (hbye : ∀ x ∈ post, x.op ≠ .leases_release client_id) :
    ((∀ x ∈ post, is_scan x = true → x.time < l.expires_at) ∧
      (post.map (reported srv client_id)).sum = 0 ∧
      c'.state.leases.entry client_id = some l) ∨
    ((∃ x ∈ post, is_scan x = true ∧ l.expires_at ≤ x.time) ∧
      (post.map (reported srv client_id)).sum = 1 ∧
      c'.state.leases.entry client_id = none) := by
  -- induction on the run since the snapshot: the lease is still there, or it has been reported
  induction post using List.reverseRecOn generalizing c' with
  | nil =>
    have hsame : c'.state = c.state := by
      rw [List.append_nil] at h'
      exact h'.state_eq h
    exact .inl ⟨by simp, rfl, by rw [hsame, hentry]⟩
  | append_singleton post x ih =>
    rw [← List.append_assoc] at h'
    obtain ⟨hafter, c₁, h₁, hstate⟩ := h'.latest
    have hentry' := entry_after srv (hpulse x (by simp)) (hbye x (by simp))
    have hreported := reported_after srv (hbye x (by simp))
    rw [hafter, hentry', List.map_append, List.sum_append, List.map_singleton, List.sum_singleton,
      hreported, ← hstate]
    rcases ih h₁ (fun y hy => hpulse y (by simp [hy])) (fun y hy => hbye y (by simp [hy])) with
      ⟨hbefore, hnone, hheld⟩ | ⟨⟨y, hy, hover⟩, hone, hgone⟩
    · rw [hheld, hnone]
      cases hscan : is_scan x with
      | false =>
        refine .inl ⟨?_, by simp, by simp⟩
        intro y hy hyscan
        rcases List.mem_append.mp hy with hy | hy
        · exact hbefore y hy hyscan
        · rw [List.mem_singleton.mp hy, hscan] at hyscan
          cases hyscan
      | true =>
        -- this scan finds it live, or takes it
        by_cases hlive : x.time < l.expires_at
        · refine .inl ⟨?_, by simp [Lease.live, hlive], by simp [Lease.live, hlive]⟩
          intro y hy hyscan
          rcases List.mem_append.mp hy with hy | hy
          · exact hbefore y hy hyscan
          · rwa [List.mem_singleton.mp hy]
        · refine .inr ⟨⟨x, by simp, hscan, Nat.not_lt.mp hlive⟩, ?_, ?_⟩
          · simp [Lease.live, hlive]
          · simp [Lease.live, hlive, Option.filter]
    · rw [hgone, hone]
      exact .inr ⟨⟨y, by simp [hy], hover⟩, by simp, by simp⟩

/-- What the row says comes true in every run that goes on without a pulse and without a BYE of its
    client: no scan takes the lease within the seconds of the row, and the first scan one second
    later, if not one before, has reported its end, once. -/
def Foretells (srv : Server) (start : State) (pre : List ServerMoment) (now : Instant)
    (row : LeaseInfo) : Prop :=
  ∀ (c : Config ops State Job) (post : List ServerMoment),
    Recorded srv.machine srv.prog start c (pre ++ post) →
    (∀ x ∈ post, is_pulse row.client_id x = false) →
    (∀ x ∈ post, x.op ≠ .leases_release row.client_id) →
    ((∀ x ∈ post, is_scan x = true → x.time < now + row.revoke_in_seconds * 1000000000) →
      (post.map (reported srv row.client_id)).sum = 0 ∧
        ∃ l, c.state.leases.entry row.client_id = some l ∧ l.ip = row.source_ip) ∧
    ((∃ x ∈ post, is_scan x = true ∧
        now + (row.revoke_in_seconds + 1) * 1000000000 ≤ x.time) →
      (post.map (reported srv row.client_id)).sum = 1 ∧
        c.state.leases.entry row.client_id = none) ∧
    (post.map (reported srv row.client_id)).sum ≤ 1

/-- In every interleaving, the snapshot has one row for each live lease, ordered by the seconds that
    are left, and every row comes true. -/
theorem snapshot_foretells (srv : Server) (start now : Instant) (unix : Int64)
    (c : Config ops State Job) (pre : List ServerMoment)
    (h : Recorded srv.machine srv.prog (srv.start start unix) c pre) (status : ServerStatus)
    (order : List Nat) :
    (write_status status c.state.leases now order).active_leases =
      c.state.leases.active_count now ∧
    (write_status status c.state.leases now order).leases.Pairwise
      (fun a b => a.revoke_in_seconds ≤ b.revoke_in_seconds) ∧
    ((write_status status c.state.leases now order).leases.map LeaseInfo.client_id).Nodup ∧
    (∀ client_id l, c.state.leases.entry client_id = some l → l.live now = true →
      ∃ row ∈ (write_status status c.state.leases now order).leases, row.client_id = client_id) ∧
    ∀ row ∈ (write_status status c.state.leases now order).leases,
      srv.Foretells (srv.start start unix) pre now row := by
  refine ⟨active_leases_eq, rows_sorted, rows_nodup, ?_, ?_⟩
  · intro client_id l hentry hlive
    have hlive := of_decide_eq_true hlive
    exact ⟨⟨l.ip, client_id, (l.expires_at - now) / 1000000000⟩,
      mem_rows.mpr ⟨l, hentry, rfl, hlive, (seconds_until hlive).mp rfl⟩, rfl⟩
  · intro row hrow c' post h' hpulse hbye
    obtain ⟨l, hentry, hip, -, hleast, hmost⟩ := mem_rows.mp hrow
    rcases lease_runs_out h hentry h' hpulse hbye with
      ⟨hbefore, hnone, hheld⟩ | ⟨⟨x, hx, hscan, hover⟩, hone, hgone⟩
    · refine ⟨fun _ => ⟨hnone, l, hheld, hip.symm⟩, ?_, by omega⟩
      rintro ⟨x, hx, hscan, hlate⟩
      exact absurd (hbefore x hx hscan) (Nat.not_lt.mpr (hmost.le.trans hlate))
    · refine ⟨fun hsoon => ?_, fun _ => ⟨hone, hgone⟩, hone.le⟩
      exact absurd (hsoon x hx hscan) (Nat.not_lt.mpr (hleast.trans hover))

end runs

/-- Client 1 pulses. -/
def one_pulse : List (Label Env Job) :=
  sample_task 0 1 (.Hello (sample_hello 1 1000 1)) 14 (sample_env 1000 1) ++
  sample_task 1 1 (.Response (sample_response 1 1)) 21 (sample_env 1000 0)

/-- And the scan comes late. -/
def late_scan : List (Label Env Job) :=
  .begin .cleanup ::
    List.replicate 13 (.run 2 { sample_env 1000 0 with elapsed := Duration.from_secs 30 })

/-- A row of 172 seconds, and a scan that comes later. -/
theorem snapshot_foretells_late :
    ∃ (c c' : Config ops State Job) (pre post : List ServerMoment) (row : LeaseInfo),
      Recorded sample.machine sample.prog (sample.start 0 1000) c pre ∧
      Recorded sample.machine sample.prog (sample.start 0 1000) c' (pre ++ post) ∧
      row ∈ (write_status c.state.status c.state.leases c.state.now []).leases ∧
      row.client_id = (sample_id 1).to_hex ∧ row.revoke_in_seconds = 172 ∧
      (post.map (reported sample row.client_id)).sum = 1 := by
  have hrun : (record sample.machine sample.prog (init (sample.start 0 1000), [])
      one_pulse).any (fun t => (record sample.machine sample.prog t late_scan).any fun t' =>
        (write_status t.1.state.status t.1.state.leases t.1.state.now []).leases.any (fun row =>
          decide (row.client_id = (sample_id 1).to_hex ∧ row.revoke_in_seconds = 172)) &&
        (t'.2.drop t.2.length).all (fun x => !is_pulse (sample_id 1).to_hex x) &&
        (t'.2.drop t.2.length).all (fun x => match x.op with
          | .leases_release _ => false
          | _ => true) &&
        (t'.2.drop t.2.length).any (fun x => is_scan x &&
          decide (t.1.state.now + (172 + 1) * 1000000000 ≤ x.time))) = true := by
    decide +kernel
  obtain ⟨⟨c, pre⟩, ht, hrun⟩ := (Option.any_eq_true _ _).mp hrun
  obtain ⟨⟨c', ms⟩, ht', hcheck⟩ := (Option.any_eq_true _ _).mp hrun
  simp only [Bool.and_eq_true, List.any_eq_true, List.all_eq_true, decide_eq_true_eq,
    Bool.not_eq_true'] at hcheck
  obtain ⟨⟨⟨⟨row, hrow, hid, hseconds⟩, hpulse⟩, hbye⟩, x, hx, hscan, hlate⟩ := hcheck
  have hrec : Recorded sample.machine sample.prog (sample.start 0 1000) c pre :=
    record_sound (r := (c, pre)) .start ht
  have hrec' : Recorded sample.machine sample.prog (sample.start 0 1000) c' ms :=
    record_sound (r := (c', ms)) hrec ht'
  have hms : ms = pre ++ ms.drop pre.length := record_extends ht'
  rw [hms] at hrec'
  obtain ⟨-, -, -, -, hrows⟩ :=
    snapshot_foretells sample 0 c.state.now 1000 c pre hrec c.state.status []
  rw [← hid] at hpulse
  rw [← hseconds] at hlate
  refine ⟨c, c', pre, _, row, hrec, hrec', hrow, hid, hseconds,
    ((hrows row hrow c' _ hrec' hpulse ?_).2.1 ⟨x, hx, hscan, hlate⟩).1⟩
  intro y hy hop
  have hno := hbye y hy
  rw [hop] at hno
  cases hno

end Server

end SignedPulse
