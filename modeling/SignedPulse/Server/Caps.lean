import SignedPulse.Framework.Capped
import SignedPulse.Server.Rules
import Mathlib.Data.List.Induction

/-! # Caps on tracked keys

    `max_tracked_ips` is handed to four tables: the HELLO budget, the
    blacklist, the active sources and the leases. It is documented as a hard
    cap, with zero for no cap. Each table has a guard of its own:

    - the HELLO budget and the blacklist leave the cap out when it is zero
    - the active sources and the leases take zero for one

    So a positive cap is kept by all four over every run of operations, and a
    cap of zero is not what it is documented to be (`caps_kept_iff`).
-/

namespace SignedPulse

open HashMap

/-! ### What each table does with a key -/

namespace HelloRateLimiter

/-- The window of a source IP after one more HELLO. -/
def hit (r : HelloRateLimiter) (now : Instant) (old : Option Window) : Window :=
  let entry := old.getD { window_start := now, count := 0 }
  let entry :=
    if Instant.duration_since now entry.window_start ≥ r.window then
      { window_start := now, count := 0 }
    else entry
  if entry.count ≥ r.max_per_window then entry else { entry with count := entry.count + 1 }

/-- With a budget, a check is an update under the cap. -/
theorem check_at_eq {r : HelloRateLimiter} (h : r.max_per_window ≠ 0) (ip : IpAddr)
    (now : Instant) :
    (r.check_at ip now).2 = { r with state := put r.max_entries ip (r.hit now) r.state } := by
  unfold check_at
  rw [if_neg h]
  by_cases hadmits : Admits r.max_entries r.state ip
  · rw [if_neg (fun hfull => not_admits_iff.mpr hfull hadmits), put_of_admits hadmits]
    unfold hit
    dsimp only
    split_ifs <;> rfl
  · rw [if_pos (not_admits_iff.mp hadmits), put_of_not_admits hadmits]

theorem check_at_off {r : HelloRateLimiter} (h : r.max_per_window = 0) (ip : IpAddr)
    (now : Instant) : (r.check_at ip now).2 = r := by
  unfold check_at
  rw [if_pos h]

end HelloRateLimiter

namespace Blacklist

/-- The entry of a source IP after one more fault. -/
def faulted (b : Blacklist) (now : Instant) (old : Option Entry) : Entry :=
  (fault b.threshold b.duration now (old.getD { faults := 0, blocked_until := none })).2

theorem count_fault_eq (b : Blacklist) (ip : IpAddr) (now : Instant) :
    (b.count_fault ip now).2 =
      { b with state := put b.max_entries ip (b.faulted now) b.state } := by
  unfold count_fault
  by_cases hadmits : Admits b.max_entries b.state ip
  · rw [if_neg (fun hfull => not_admits_iff.mpr hfull hadmits), put_of_admits hadmits]
    rfl
  · rw [if_pos (not_admits_iff.mp hadmits), put_of_not_admits hadmits]

/-- The keys and the settings that bound them. -/
def tracked (b : Blacklist) : HashMap IpAddr Entry × Nat × UInt32 × Duration :=
  (b.state, b.max_entries, b.threshold, b.duration)

theorem note_event_tracked (b : Blacklist) (now : Instant) :
    (b.note_event now).tracked = b.tracked := by
  unfold note_event
  dsimp only
  split <;> rfl

theorem note_rejection_tracked (b : Blacklist) (now : Instant) :
    (b.note_rejection now).tracked = b.tracked := by
  unfold note_rejection
  dsimp only
  repeat' split
  all_goals rfl

theorem note_lockdown_drop_tracked (b : Blacklist) (now : Instant) :
    (b.note_lockdown_drop now).tracked = b.tracked := by
  unfold note_lockdown_drop
  dsimp only
  repeat' split
  all_goals rfl

/-- With a threshold, a faulty packet is an update under the cap. -/
theorem record_faulty_tracked {b : Blacklist} (h : b.threshold ≠ 0) (ip : IpAddr) (now : Instant) :
    (b.record_faulty ip now).2.tracked =
      { b with state := put b.max_entries ip (b.faulted now) b.state }.tracked := by
  unfold record_faulty record_faulty_at
  rw [if_neg h, if_neg h, ← count_fault_eq]
  dsimp only
  split
  · exact note_event_tracked _ _
  · rfl

theorem record_faulty_off {b : Blacklist} (h : b.threshold = 0) (ip : IpAddr) (now : Instant) :
    (b.record_faulty ip now).2 = b := by
  unfold record_faulty
  rw [if_pos h]

end Blacklist

/-- A positive cap is the cap of the active sources. -/
theorem ActiveIps.mark_seen {a : ActiveIps} (h : 0 < a.max_entries) (ip : IpAddr) (now : Instant) :
    (a.mark ip now).seen = put a.max_entries ip (fun _ => now) a.seen := by
  have hzero : a.max_entries ≠ 0 := Nat.pos_iff_ne_zero.mp h
  unfold ActiveIps.mark put Admits
  simp only [hzero, false_or]
  split <;> rfl

/-- A positive cap is the cap of the leases. -/
theorem LeaseTracker.renew_at_leases {t : LeaseTracker} (h : 0 < t.max_entries) (client_id : Str)
    (ip : IpAddr) (port : UInt16) (param : Option Str) (ttl : Duration) (now : Instant) :
    (t.renew_at client_id ip port param ttl now).2.leases = put t.max_entries client_id
      (fun _ => { expires_at := now + ttl, ip := ip, source_port := port, param := param })
      t.leases := by
  have hzero : t.max_entries ≠ 0 := Nat.pos_iff_ne_zero.mp h
  unfold LeaseTracker.renew_at put Admits
  simp only [hzero, false_or]
  split <;> rfl

namespace Server

open Interleaving

/-! ### Runs of operations -/

/-- The state after a sequence of operations. -/
def performed (srv : Server) (s : State) (calls : List (Op × Env)) : State :=
  calls.foldl (fun s c => (srv.perform c.1 c.2 s).2) s

theorem performed_snoc (srv : Server) (s : State) (calls : List (Op × Env)) (o : Op) (e : Env) :
    srv.performed s (calls ++ [(o, e)]) = (srv.perform o e (srv.performed s calls)).2 := by
  simp [performed]

/-- No table holds more keys than the cap. -/
structure WithinCap (cap : Nat) (s : State) : Prop where
  rate_limiter : Bounded cap s.rate_limiter.state
  blacklist : Bounded cap s.blacklist.state
  active_ips : Bounded cap s.active_ips.seen
  leases : Bounded cap s.leases.leases

/-- What an operation makes of the key that it hands to a table. A HELLO budget of zero and a
    fault threshold of zero turn their tables off, and then nothing is handed to them. -/
def TracksKey (srv : Server) (o : Op) (e : Env) (s : State) : Prop :=
  let cap := srv.config.max_tracked_ips
  let s' := (srv.perform o e s).2
  match o with
  | .rate_limiter_check ip => srv.config.hello_rate_max ≠ 0 →
    Tracks cap s.rate_limiter.state ip (s.rate_limiter.hit s'.now) s'.rate_limiter.state
  | .record_faulty ip => srv.config.max_faulty_packets ≠ 0 →
    Tracks cap s.blacklist.state ip (s.blacklist.faulted s'.now) s'.blacklist.state
  | .active_mark ip => Tracks cap s.active_ips.seen ip (fun _ => s'.now) s'.active_ips.seen
  | .leases_renew client_id ip source_port param ttl =>
    Tracks cap s.leases.leases client_id
      (fun _ =>
        { expires_at := s'.now + ttl, ip := ip, source_port := source_port, param := param })
      s'.leases.leases
  | _ => True

/-! ### Positive caps -/

/-- The tables go by the configured cap and keep it. -/
structure CapKept (srv : Server) (s : State) : Prop where
  budget : s.rate_limiter.max_per_window = srv.config.hello_rate_max
  threshold : s.blacklist.threshold = srv.config.max_faulty_packets
  rate_limiter : s.rate_limiter.max_entries = srv.config.max_tracked_ips
  blacklist : s.blacklist.max_entries = srv.config.max_tracked_ips
  active_ips : s.active_ips.max_entries = srv.config.max_tracked_ips
  leases : s.leases.max_entries = srv.config.max_tracked_ips
  within : WithinCap srv.config.max_tracked_ips s

section positive
variable {srv : Server} {s : State}

theorem cap_kept_start (hcap : 0 < srv.config.max_tracked_ips) (now : Instant) (unix : Int64) :
    CapKept srv (srv.start now unix) where
  budget := rfl
  threshold := rfl
  rate_limiter := rfl
  blacklist := rfl
  active_ips := Nat.max_eq_left hcap
  leases := Nat.max_eq_left hcap
  within := ⟨.empty, .empty, .empty, .empty⟩

/-- What a step keeps, table by table: settings as they were, and keys within the cap. -/
theorem CapKept.of_tables (h : CapKept srv s) {s' : State}
    (hlimiter : s'.rate_limiter.max_per_window = s.rate_limiter.max_per_window ∧
      s'.rate_limiter.max_entries = s.rate_limiter.max_entries ∧
      Bounded srv.config.max_tracked_ips s'.rate_limiter.state)
    (hblacklist : s'.blacklist.threshold = s.blacklist.threshold ∧
      s'.blacklist.max_entries = s.blacklist.max_entries ∧
      Bounded srv.config.max_tracked_ips s'.blacklist.state)
    (hactive : s'.active_ips.max_entries = s.active_ips.max_entries ∧
      Bounded srv.config.max_tracked_ips s'.active_ips.seen)
    (hleases : s'.leases.max_entries = s.leases.max_entries ∧
      Bounded srv.config.max_tracked_ips s'.leases.leases) : CapKept srv s' where
  budget := hlimiter.1.trans h.budget
  threshold := hblacklist.1.trans h.threshold
  rate_limiter := hlimiter.2.1.trans h.rate_limiter
  blacklist := hblacklist.2.1.trans h.blacklist
  active_ips := hactive.1.trans h.active_ips
  leases := hleases.1.trans h.leases
  within := ⟨hlimiter.2.2, hblacklist.2.2, hactive.2, hleases.2⟩

theorem CapKept.limiter_check (h : CapKept srv s) (ip : IpAddr) (now : Instant) :
    (s.rate_limiter.check_at ip now).2.max_per_window = s.rate_limiter.max_per_window ∧
      (s.rate_limiter.check_at ip now).2.max_entries = s.rate_limiter.max_entries ∧
      Bounded srv.config.max_tracked_ips (s.rate_limiter.check_at ip now).2.state := by
  by_cases hoff : s.rate_limiter.max_per_window = 0
  · rw [HelloRateLimiter.check_at_off hoff]
    exact ⟨rfl, rfl, h.within.rate_limiter⟩
  · rw [HelloRateLimiter.check_at_eq hoff, h.rate_limiter]
    exact ⟨rfl, rfl, h.within.rate_limiter.put⟩

/-- A blacklist with the same settings and no more keys. -/
theorem CapKept.blacklist_kept (h : CapKept srv s) {b : Blacklist}
    (htracked : b.tracked = s.blacklist.tracked) :
    b.threshold = s.blacklist.threshold ∧ b.max_entries = s.blacklist.max_entries ∧
      Bounded srv.config.max_tracked_ips b.state := by
  unfold Blacklist.tracked at htracked
  simp only [Prod.mk.injEq] at htracked
  obtain ⟨hstate, hentries, hthreshold, -⟩ := htracked
  rw [hstate]
  exact ⟨hthreshold, hentries, h.within.blacklist⟩

theorem CapKept.blacklist_faulty (h : CapKept srv s) (ip : IpAddr) (now : Instant) :
    (s.blacklist.record_faulty ip now).2.threshold = s.blacklist.threshold ∧
      (s.blacklist.record_faulty ip now).2.max_entries = s.blacklist.max_entries ∧
      Bounded srv.config.max_tracked_ips (s.blacklist.record_faulty ip now).2.state := by
  by_cases hoff : s.blacklist.threshold = 0
  · rw [Blacklist.record_faulty_off hoff]
    exact ⟨rfl, rfl, h.within.blacklist⟩
  · have htracked := Blacklist.record_faulty_tracked hoff ip now
    unfold Blacklist.tracked at htracked
    simp only [Prod.mk.injEq] at htracked
    obtain ⟨hstate, hentries, hthreshold, -⟩ := htracked
    rw [hstate, h.blacklist]
    exact ⟨hthreshold, hentries.trans h.blacklist, h.within.blacklist.put⟩

theorem CapKept.active_mark (hcap : 0 < srv.config.max_tracked_ips) (h : CapKept srv s)
    (ip : IpAddr) (now : Instant) :
    (s.active_ips.mark ip now).max_entries = s.active_ips.max_entries ∧
      Bounded srv.config.max_tracked_ips (s.active_ips.mark ip now).seen := by
  constructor
  · unfold ActiveIps.mark
    split <;> rfl
  · rw [ActiveIps.mark_seen (h.active_ips ▸ hcap), h.active_ips]
    exact h.within.active_ips.put

theorem CapKept.leases_renew (hcap : 0 < srv.config.max_tracked_ips) (h : CapKept srv s)
    (client_id : Str) (ip : IpAddr) (port : UInt16) (param : Option Str) (ttl : Duration)
    (now : Instant) :
    (s.leases.renew_at client_id ip port param ttl now).2.max_entries = s.leases.max_entries ∧
      Bounded srv.config.max_tracked_ips
        (s.leases.renew_at client_id ip port param ttl now).2.leases := by
  constructor
  · unfold LeaseTracker.renew_at
    dsimp only
    split <;> rfl
  · rw [LeaseTracker.renew_at_leases (h.leases ▸ hcap), h.leases]
    exact h.within.leases.put

theorem CapKept.leases_release (h : CapKept srv s) (client_id : Str) (now : Instant) :
    (s.leases.release_at client_id now).2.max_entries = s.leases.max_entries ∧
      Bounded srv.config.max_tracked_ips (s.leases.release_at client_id now).2.leases := by
  unfold LeaseTracker.release_at
  split
  · exact ⟨rfl, h.within.leases⟩
  · exact ⟨rfl, h.within.leases.shrink (len_erase_le _ _)⟩

/-- Step lemma. -/
theorem CapKept.step (hcap : 0 < srv.config.max_tracked_ips) (h : CapKept srv s) (o : Op)
    (e : Env) : CapKept srv (srv.perform o e s).2 := by
  have hlimiter := h.within.rate_limiter
  have hblacklist := h.within.blacklist
  have hactive := h.within.active_ips
  have hleases := h.within.leases
  -- one case for each operation on a capped table; the others leave all four alone
  cases o
  case rate_limiter_check ip =>
    exact h.of_tables (h.limiter_check ip _) ⟨rfl, rfl, hblacklist⟩ ⟨rfl, hactive⟩ ⟨rfl, hleases⟩
  case rate_limiter_purge_stale =>
    exact h.of_tables ⟨rfl, rfl, hlimiter.shrink (len_retain_le _ _)⟩ ⟨rfl, rfl, hblacklist⟩
      ⟨rfl, hactive⟩ ⟨rfl, hleases⟩
  case note_lockdown_drop =>
    exact h.of_tables ⟨rfl, rfl, hlimiter⟩
      (h.blacklist_kept (Blacklist.note_lockdown_drop_tracked _ _)) ⟨rfl, hactive⟩ ⟨rfl, hleases⟩
  case note_rejection =>
    exact h.of_tables ⟨rfl, rfl, hlimiter⟩ (h.blacklist_kept (Blacklist.note_rejection_tracked _ _))
      ⟨rfl, hactive⟩ ⟨rfl, hleases⟩
  case record_faulty ip =>
    exact h.of_tables ⟨rfl, rfl, hlimiter⟩ (h.blacklist_faulty ip _) ⟨rfl, hactive⟩ ⟨rfl, hleases⟩
  case blacklist_purge_stale =>
    exact h.of_tables ⟨rfl, rfl, hlimiter⟩ ⟨rfl, rfl, hblacklist.shrink (len_retain_le _ _)⟩
      ⟨rfl, hactive⟩ ⟨rfl, hleases⟩
  case active_mark ip =>
    exact h.of_tables ⟨rfl, rfl, hlimiter⟩ ⟨rfl, rfl, hblacklist⟩ (h.active_mark hcap ip _)
      ⟨rfl, hleases⟩
  case active_purge_stale =>
    exact h.of_tables ⟨rfl, rfl, hlimiter⟩ ⟨rfl, rfl, hblacklist⟩
      ⟨rfl, hactive.shrink (len_retain_le _ _)⟩ ⟨rfl, hleases⟩
  case leases_renew client_id ip port param ttl =>
    exact h.of_tables ⟨rfl, rfl, hlimiter⟩ ⟨rfl, rfl, hblacklist⟩ ⟨rfl, hactive⟩
      (h.leases_renew hcap client_id ip port param ttl _)
  case leases_release client_id =>
    exact h.of_tables ⟨rfl, rfl, hlimiter⟩ ⟨rfl, rfl, hblacklist⟩ ⟨rfl, hactive⟩
      (h.leases_release client_id _)
  case leases_take_expired =>
    exact h.of_tables ⟨rfl, rfl, hlimiter⟩ ⟨rfl, rfl, hblacklist⟩ ⟨rfl, hactive⟩
      ⟨rfl, hleases.shrink (len_retain_le _ _)⟩
  all_goals
    exact h.of_tables ⟨rfl, rfl, hlimiter⟩ ⟨rfl, rfl, hblacklist⟩ ⟨rfl, hactive⟩ ⟨rfl, hleases⟩

/-- Run lemma. -/
theorem cap_kept (hcap : 0 < srv.config.max_tracked_ips) (now : Instant) (unix : Int64)
    (calls : List (Op × Env)) : CapKept srv (srv.performed (srv.start now unix) calls) := by
  induction calls using List.reverseRecOn with
  | nil => exact cap_kept_start hcap now unix
  | append_singleton calls c ih =>
    rw [performed_snoc]
    exact ih.step hcap c.1 c.2

/-- Every state that the server reaches is the result of such a run. -/
theorem performed_of_reachable {now : Instant} {unix : Int64} {c : Config ops State Job}
    (h : Reachable srv.machine srv.prog (srv.start now unix) c) :
    ∃ calls, c.state = srv.performed (srv.start now unix) calls := by
  induction h with
  | refl => exact ⟨[], rfl⟩
  | tail _ hstep ih =>
    obtain ⟨calls, hcalls⟩ := ih
    obtain ⟨job, rfl⟩ | ⟨i, job, o, next, e, hi, rfl⟩ := step_cases _ _ hstep
    · exact ⟨calls, hcalls⟩
    · refine ⟨calls ++ [(o, e)], ?_⟩
      rw [performed_snoc, ← hcalls]
      rfl

/-- Whatever the tasks do, no table outgrows a positive cap. -/
theorem within_cap_of_reachable (hcap : 0 < srv.config.max_tracked_ips) {now : Instant}
    {unix : Int64} {c : Config ops State Job}
    (h : Reachable srv.machine srv.prog (srv.start now unix) c) :
    WithinCap srv.config.max_tracked_ips c.state := by
  obtain ⟨calls, hcalls⟩ := performed_of_reachable h
  rw [hcalls]
  exact (cap_kept hcap now unix calls).within

/-- Every table does with a key what the cap asks for. -/
theorem CapKept.tracks (hcap : 0 < srv.config.max_tracked_ips) (h : CapKept srv s) (o : Op)
    (e : Env) : TracksKey srv o e s := by
  unfold TracksKey
  dsimp only
  rw [perform_now]
  split
  · rename_i ip
    intro hon
    show Tracks _ _ _ _ (s.rate_limiter.check_at ip (s.now + e.elapsed)).2.state
    rw [HelloRateLimiter.check_at_eq (h.budget ▸ hon), h.rate_limiter]
    exact .put h.within.rate_limiter
  · rename_i ip
    intro hon
    have htracked := Blacklist.record_faulty_tracked (h.threshold ▸ hon) ip (s.now + e.elapsed)
    have hstate := congrArg Prod.fst htracked
    show Tracks _ _ _ _ (s.blacklist.record_faulty ip (s.now + e.elapsed)).2.state
    unfold Blacklist.tracked at hstate
    dsimp only at hstate
    rw [hstate, h.blacklist]
    exact .put h.within.blacklist
  · rename_i ip
    show Tracks _ _ _ _ (s.active_ips.mark ip (s.now + e.elapsed)).seen
    rw [ActiveIps.mark_seen (h.active_ips ▸ hcap), h.active_ips]
    exact .put h.within.active_ips
  · rename_i client_id ip port param ttl
    show Tracks _ _ _ _ (s.leases.renew_at client_id ip port param ttl (s.now + e.elapsed)).2.leases
    rw [LeaseTracker.renew_at_leases (h.leases ▸ hcap), h.leases]
    exact .put h.within.leases
  · trivial

end positive

/-! ### The cap of zero -/

/-- Some source is marked active, and then another one. -/
def marked_once (e : Env) : List (Op × Env) := [(.active_mark (sample_peer 1).ip, e)]

/-- A cap of zero leaves room for one active source. -/
theorem second_source_refused {srv : Server} (hzero : srv.config.max_tracked_ips = 0)
    (now : Instant) (unix : Int64) (e : Env) :
    ¬ TracksKey srv (.active_mark (sample_peer 2).ip) e
      (srv.performed (srv.start now unix) (marked_once e)) := by
  intro h
  have hcap : (srv.start now unix).active_ips.max_entries = 1 := by
    show max srv.config.max_tracked_ips 1 = 1
    rw [hzero]
    rfl
  -- the first source fills the table
  obtain ⟨n, hseen⟩ : ∃ n, (srv.performed (srv.start now unix) (marked_once e)).active_ips =
      { ttl := (srv.start now unix).active_ips.ttl, max_entries := 1,
        seen := AList.insert (sample_peer 1).ip n ∅ } := by
    refine ⟨now + e.elapsed, ?_⟩
    show (srv.start now unix).active_ips.mark (sample_peer 1).ip (now + e.elapsed) = _
    unfold ActiveIps.mark
    rw [if_pos (.inr (by rw [hcap]; exact Nat.one_pos)), hcap]
    rfl
  have hrefused := h.refused
  have hmark : (srv.perform (.active_mark (sample_peer 2).ip) e
      (srv.performed (srv.start now unix) (marked_once e))).2.active_ips.seen =
      AList.insert (sample_peer 1).ip n ∅ := by
    show
      (ActiveIps.mark (srv.performed (srv.start now unix) (marked_once e)).active_ips _ _).seen = _
    rw [hseen]
    rfl
  rw [hmark, hseen, hzero] at hrefused
  have hnew : (sample_peer 2).ip ∉ AList.insert (sample_peer 1).ip n
    (∅ : HashMap IpAddr Instant) := by
    intro hmem
    rcases (AList.mem_insert _).mp hmem with heq | hmem
    · exact absurd heq (by decide)
    · exact AList.notMem_empty _ hmem
  exact absurd (hrefused hnew hnew).1 (Nat.lt_irrefl 0)

/-- The documented cap is kept over every run of operations iff it is positive. -/
theorem caps_kept_iff (srv : Server) (now : Instant) (unix : Int64) :
    (∀ calls, WithinCap srv.config.max_tracked_ips (srv.performed (srv.start now unix) calls) ∧
      ∀ o e, TracksKey srv o e (srv.performed (srv.start now unix) calls)) ↔
      0 < srv.config.max_tracked_ips := by
  constructor
  · intro h
    by_contra hzero
    have hzero : srv.config.max_tracked_ips = 0 := Nat.eq_zero_of_not_pos hzero
    exact second_source_refused hzero now unix (sample_env unix 0) ((h _).2 _ _)
  · intro hcap calls
    have hkept := cap_kept hcap now unix calls
    exact ⟨hkept.within, hkept.tracks hcap⟩

/-- The sample server with the cap that is documented as no cap. -/
def uncapped : Server := { sample with config := { sample_config with max_tracked_ips := 0 } }

/-- The second client to pulse is refused a lease. -/
theorem uncapped_lease_refused :
    ∃ calls client_id ip port param ttl e,
      let s := uncapped.performed (uncapped.start 0 1000) calls
      let o := Op.leases_renew client_id ip port param ttl
      client_id ∉ (uncapped.perform o e s).2.leases.leases ∧ ¬ TracksKey uncapped o e s := by
  let renew (n : UInt8) : Op :=
    .leases_renew (sample_id n).to_hex (sample_peer n).ip 7370 none 180000000000
  have hnew : (sample_id 2).to_hex ∉ (uncapped.performed (uncapped.start 0 1000)
      [(renew 1, sample_env 1000 0)]).leases.leases := by decide +kernel
  have hrefused : (sample_id 2).to_hex ∉ (uncapped.perform (renew 2) (sample_env 1000 0)
      (uncapped.performed (uncapped.start 0 1000)
        [(renew 1, sample_env 1000 0)])).2.leases.leases := by
    decide +kernel
  refine ⟨[(renew 1, sample_env 1000 0)], _, _, _, _, _, sample_env 1000 0, hrefused, ?_⟩
  intro h
  exact absurd (h.refused hnew hrefused).1 (Nat.lt_irrefl 0)

end Server

end SignedPulse
