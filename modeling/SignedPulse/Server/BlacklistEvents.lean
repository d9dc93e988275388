import SignedPulse.Server.LockdownTimer

/-! # Which IPs engage the lockdown

    `attack_blacklist_threshold` is documented as a number of distinct IPs, but
    the queue `events` holds a time for each packet that newly blacklists an IP
    (`Events`). The two agree as long as no IP is blacklisted again while its
    previous event is still in the window, which holds in every run when a
    block outlasts the window (`not_repeated_of_long_blocks`).
-/

namespace SignedPulse

namespace Blacklist

/-! ### Newly blacklisted -/

/-- The call of the run at `t` has newly blacklisted the IP: `record_faulty` has returned true. -/
def newly_blacklisted (b : Blacklist) (calls : List TimedCall) (ip : IpAddr) (t : Instant) :
    Prop :=
  ∃ pre d, pre ++ [d] <+: calls ∧ d.now = t ∧ d.call = .record_faulty ip ∧
    ((b.run pre).record_faulty ip t).1 = true

theorem newly_blacklisted_mono {b : Blacklist} {calls more : List TimedCall} {ip : IpAddr}
    {t : Instant} (h : newly_blacklisted b calls ip t) :
    newly_blacklisted b (calls ++ more) ip t := by
  obtain ⟨pre, d, hpre, hd⟩ := h
  exact ⟨pre, d, hpre.trans (List.prefix_append calls more), hd⟩

theorem record_faulty_eq_true {b : Blacklist} {ip : IpAddr} {now : Instant} :
    (b.record_faulty ip now).1 = true ↔
      b.threshold ≠ 0 ∧ (b.count_fault ip now).1 = true := by
  unfold record_faulty record_faulty_at
  by_cases hT : b.threshold = 0
  · simp [hT]
  · simp only [hT, if_false, ne_eq, not_false_eq_true, true_and]
    cases (b.count_fault ip now).1 <;> simp

/-- A packet newly blacklists its IP when the IP has used up its faults, and not otherwise. -/
theorem record_faulty_trips_iff {b : Blacklist} {ip : IpAddr} {now : Instant} :
    (b.record_faulty ip now).1 = true ↔ b.threshold ≠ 0 ∧ b.used_up ip := by
  rw [record_faulty_eq_true]
  constructor
  · intro h
    refine ⟨h.1, by_contra fun hspare => ?_⟩
    rw [count_fault_silent h.1 hspare] at h
    exact absurd h.2 (by decide)
  · intro h
    obtain ⟨hT, e, hlookup, hfree, hover⟩ := h
    have hmem : ip ∈ b.state := AList.lookup_isSome.mp (by rw [hlookup]; rfl)
    refine ⟨hT, ?_⟩
    unfold count_fault
    rw [if_neg (fun hfull => hfull.2.2 hmem), hlookup]
    simp [fault, hfree, hover]

/-- No packet newly blacklists an IP that was newly blacklisted within the window before it. -/
def NotRepeated (b : Blacklist) (calls : List TimedCall) : Prop :=
  ∀ pre c ip, pre ++ [c] <+: calls → c.call = .record_faulty ip → (b.run pre).used_up ip →
    ∀ t, newly_blacklisted b pre ip t → within b.attack_window c.now t = false

/-- What arms the timer before any drop has more than the threshold of distinct IPs behind it, each
    newly blacklisted within the window. -/
def ArmedByDistinct (b : Blacklist) (calls : List TimedCall) : Prop :=
  ∀ pre c, pre ++ [c] <+: calls → (∀ d ∈ pre ++ [c], d.call ≠ .shed) → (b.run pre).arms c →
    ∃ ips : List IpAddr, ips.Nodup ∧ b.attack_threshold.toNat < ips.length ∧
      ∀ ip ∈ ips, ∃ t, newly_blacklisted b (pre ++ [c]) ip t ∧
        within b.attack_window c.now t = true

/-! ### The queue of events -/

/-- The queue holds the times of `q`, each with the IP that it stands for. -/
structure Events (b : Blacklist) (calls : List TimedCall) (q : List (Instant × IpAddr)) : Prop where
  times : q.map Prod.fst = (b.run calls).events
  sorted : (q.map Prod.fst).Pairwise (· ≤ ·)
  blacklisted : ∀ p ∈ q, newly_blacklisted b calls p.2 p.1
  distinct : (q.map Prod.snd).Nodup

theorem record_faulty_events (b : Blacklist) (ip : IpAddr) (now : Instant) :
    (b.record_faulty ip now).2.events = if (b.record_faulty ip now).1 = true then
      trim b.attack_window (b.events ++ [now]) now else b.events := by
  unfold record_faulty record_faulty_at
  by_cases hT : b.threshold = 0
  · simp [hT]
  · simp only [hT, if_false]
    cases htrip : (b.count_fault ip now).1 with
    | false =>
      simp only [Bool.false_eq_true, if_false]
      rw [count_fault_lockdown]
    | true =>
      simp only [if_true]
      rw [count_fault_lockdown]
      unfold note_event
      dsimp only
      split <;> rfl

theorem note_rejection_events (b : Blacklist) (now : Instant) :
    (b.note_rejection now).events = b.events := by
  unfold note_rejection
  dsimp only
  repeat' split
  all_goals rfl

theorem note_lockdown_drop_events (b : Blacklist) (now : Instant) :
    (b.note_lockdown_drop now).events = b.events := by
  unfold note_lockdown_drop
  dsimp only
  repeat' split
  all_goals rfl

theorem step_events (b : Blacklist) (c : TimedCall) :
    (b.step c).events = match c.call with
      | .record_faulty ip => if (b.record_faulty ip c.now).1 = true then
          trim b.attack_window (b.events ++ [c.now]) c.now else b.events
      | .purge_stale => trim b.attack_window b.events c.now
      | _ => b.events := by
  unfold step
  cases c.call with
  | record_faulty ip => exact record_faulty_events b ip c.now
  | note_rejection => exact note_rejection_events b c.now
  | is_blocked ip => rfl
  | shed =>
    dsimp only
    split
    · exact note_lockdown_drop_events b c.now
    · rfl
  | purge_stale => rfl

/-- The time that was just queued is not trimmed. -/
theorem trim_snoc (window : Duration) (q : List Instant) (now : Instant) :
    trim window (q ++ [now]) now = trim window q now ++ [now] := by
  have hkept : [now].dropWhile (fun front => decide (Instant.duration_since now front > window)) =
      [now] := by
    refine List.dropWhile_cons_of_neg ?_
    simp [Instant.duration_since]
  unfold trim
  rw [List.dropWhile_append, hkept]
  split
  · rename_i hempty
    rw [List.isEmpty_iff.mp hempty, List.nil_append]
  · rfl

/-- Trimming the queue forgets the oldest events. -/
theorem Events.trimmed {b : Blacklist} {calls : List TimedCall} {q : List (Instant × IpAddr)}
    (h : Events b calls q) (window : Duration) (now : Instant) :
    ∃ q' : List (Instant × IpAddr), q'.Sublist q ∧
      q'.map Prod.fst = trim window (b.run calls).events now := by
  refine ⟨q.dropWhile ((fun front => decide (Instant.duration_since now front > window)) ∘
    Prod.fst), List.dropWhile_sublist _, ?_⟩
  rw [← h.times]
  unfold trim
  rw [List.dropWhile_map]

/-- The time of the next call is the latest. -/
theorem Events.queue_sorted {b : Blacklist} {calls : List TimedCall} {c : TimedCall}
    {q : List (Instant × IpAddr)} (h : Events b calls q) (hord : Ordered (calls ++ [c])) :
    ((b.run calls).events ++ [c.now]).Pairwise (· ≤ ·) := by
  rw [← h.times]
  refine List.pairwise_append.mpr ⟨h.sorted, List.pairwise_singleton _ _, ?_⟩
  intro t ht now hnow
  obtain ⟨p, hp, rfl⟩ := List.mem_map.mp ht
  obtain ⟨pre, d, hpre, hd, -⟩ := h.blacklisted p hp
  rw [List.mem_singleton.mp hnow, ← hd]
  exact hord.le_last d (hpre.subset (by simp))

/-- Step lemma: a packet that newly blacklists its IP adds one event, and no IP is there twice. -/
theorem Events.step {b : Blacklist} {calls : List TimedCall} {c : TimedCall}
    {q : List (Instant × IpAddr)} (h : Events b calls q) (hord : Ordered (calls ++ [c]))
    (hnew : NotRepeated b (calls ++ [c])) : ∃ q', Events b (calls ++ [c]) q' := by
  -- what a sublist of the queue keeps
  have hkeep {q' : List (Instant × IpAddr)} (hsub : q'.Sublist q)
      (htimes : q'.map Prod.fst = (b.run (calls ++ [c])).events) : Events b (calls ++ [c]) q' :=
    { times := htimes
      sorted := h.sorted.sublist (hsub.map _)
      blacklisted := fun p hp => newly_blacklisted_mono (h.blacklisted p (hsub.subset hp))
      distinct := h.distinct.sublist (hsub.map _) }
  have hevents := step_events (b.run calls) c
  rw [← run_snoc, run_attack_window] at hevents
  have hsame (hidle : (b.run (calls ++ [c])).events = (b.run calls).events) :
      ∃ q', Events b (calls ++ [c]) q' :=
    ⟨q, hkeep (List.Sublist.refl q) (h.times.trans hidle.symm)⟩
  cases hcall : c.call with
  | is_blocked ip => exact hsame (by rw [hevents, hcall])
  | note_rejection => exact hsame (by rw [hevents, hcall])
  | shed => exact hsame (by rw [hevents, hcall])
  | purge_stale =>
    obtain ⟨q', hsub, htimes⟩ := h.trimmed b.attack_window c.now
    exact ⟨q', hkeep hsub (by rw [htimes, hevents, hcall])⟩
  | record_faulty ip =>
    rw [hcall] at hevents
    dsimp only at hevents
    by_cases htrip : ((b.run calls).record_faulty ip c.now).1 = true
    swap
    · exact hsame (by rw [hevents, if_neg htrip])
    simp only [htrip, if_true, trim_snoc] at hevents
    obtain ⟨q', hsub, htimes⟩ := h.trimmed b.attack_window c.now
    have hwithin : ∀ p ∈ q', within b.attack_window c.now p.1 = true := by
      intro p hp
      have hmem : p.1 ∈ trim b.attack_window (b.run calls).events c.now := by
        rw [← htimes]
        exact List.mem_map_of_mem hp
      refine trim_within ?_ p.1 hmem
      rw [← h.times]
      exact h.sorted
    refine ⟨q' ++ [(c.now, ip)], ?_, ?_, ?_, ?_⟩
    · rw [List.map_append, htimes, hevents]
      rfl
    · rw [List.map_append, htimes]
      exact (h.queue_sorted hord).sublist ((trim_sublist _ _ _).append_right _)
    · intro p hp
      rcases List.mem_append.mp hp with hp | hp
      · exact newly_blacklisted_mono (h.blacklisted p (hsub.subset hp))
      · rw [List.mem_singleton.mp hp]
        exact ⟨calls, c, List.prefix_rfl, rfl, hcall, htrip⟩
    · rw [List.map_append, List.nodup_append]
      refine ⟨h.distinct.sublist (hsub.map _), List.nodup_singleton _, ?_⟩
      intro x hx y hy
      obtain ⟨p, hp, rfl⟩ := List.mem_map.mp hx
      rw [List.mem_singleton.mp hy]
      -- the IP of an older event cannot be the one that is blacklisted now
      intro (hagain : p.2 = ip)
      have hused := (record_faulty_trips_iff.mp htrip).2
      have hrepeat : newly_blacklisted b calls ip p.1 :=
        hagain ▸ h.blacklisted p (hsub.subset hp)
      have hout := hnew calls c ip List.prefix_rfl hcall hused p.1 hrepeat
      exact absurd (hwithin p hp) (by simp [hout])

/-- Run lemma: the queue holds the IPs that were newly blacklisted. -/
theorem events_run {b : Blacklist} (hb : b.events = []) {calls : List TimedCall}
    (hord : Ordered calls) (hnew : NotRepeated b calls) : ∃ q, Events b calls q := by
  induction calls using List.reverseRecOn with
  | nil => exact ⟨[], hb.symm, .nil, by simp, List.nodup_nil⟩
  | append_singleton calls c ih =>
    obtain ⟨q, hq⟩ := ih hord.init
      fun pre d ip hpre => hnew pre d ip (hpre.trans (List.prefix_append calls [c]))
    exact hq.step hord hnew

/-! ### Blocks that outlast the window -/

/-- The IP is blocked until `limit` at least. -/
def BlockedUntil (b : Blacklist) (ip : IpAddr) (limit : Instant) : Prop :=
  ∃ e t, AList.lookup ip b.state = some e ∧ e.blocked_until = some t ∧ limit ≤ t

/-- Step lemma: before the block ends it can only be extended. -/
theorem BlockedUntil.step {b : Blacklist} {ip : IpAddr} {limit : Instant} {c : TimedCall}
    (h : b.BlockedUntil ip limit) (hnow : c.now < limit) (hlater : limit ≤ c.now + b.duration) :
    (b.step c).BlockedUntil ip limit := by
  obtain ⟨e, t, hlookup, hblock, hle⟩ := h
  have hlive : c.now < t := hnow.trans_le hle
  unfold Blacklist.step
  cases c.call with
  | is_blocked ip' => exact ⟨e, t, hlookup, hblock, hle⟩
  | note_rejection => exact ⟨e, t, by rwa [note_rejection_state], hblock, hle⟩
  | shed =>
    dsimp only
    split
    · exact ⟨e, t, by rwa [note_lockdown_drop_state], hblock, hle⟩
    · exact ⟨e, t, hlookup, hblock, hle⟩
  | purge_stale =>
    refine ⟨e, t, ?_, hblock, hle⟩
    refine HashMap.lookup_retain_eq_some.mpr ⟨hlookup, ?_⟩
    simp [Entry.blocks, hblock, hlive]
  | record_faulty ip' =>
    rcases b.lookup_record_faulty ip ip' c.now with hkept | ⟨hip, hfault⟩
    · exact ⟨e, t, hkept.trans hlookup, hblock, hle⟩
    · refine ⟨_, c.now + b.duration, hfault, ?_, hlater⟩
      rw [hlookup, Option.getD_some]
      simp [fault, hblock, hlive]

/-- Run lemma: an IP that is newly blacklisted stays blocked for the duration. -/
theorem blocked_of_newly_blacklisted {b : Blacklist} {pre post : List TimedCall} {d : TimedCall}
    {ip : IpAddr} (hcall : d.call = .record_faulty ip)
    (htrip : ((b.run pre).record_faulty ip d.now).1 = true) (hord : Ordered (pre ++ d :: post))
    (hlive : ∀ c ∈ post, c.now < d.now + b.duration) :
    (b.run (pre ++ d :: post)).BlockedUntil ip (d.now + b.duration) := by
  induction post using List.reverseRecOn with
  | nil =>
    obtain ⟨hT, e, hlookup, hfree, hover⟩ := record_faulty_trips_iff.mp htrip
    have hmem : ip ∈ (b.run pre).state := AList.lookup_isSome.mp (by rw [hlookup]; rfl)
    have hblocks : (fault (b.run pre).threshold (b.run pre).duration d.now e).2.blocked_until =
        some (d.now + b.duration) := by
      rw [run_duration]
      unfold fault
      simp only [hfree]
      rw [if_pos hover]
    refine ⟨_, _, ?_, hblocks, le_rfl⟩
    rw [run_snoc, Blacklist.step, hcall]
    dsimp only
    rw [record_faulty_counted ip d.now hT (fun hfull => hfull.2.2 hmem), AList.lookup_insert,
      hlookup, Option.getD_some]
  | append_singleton post c ih =>
    rw [show pre ++ d :: (post ++ [c]) = (pre ++ d :: post) ++ [c] by simp] at hord ⊢
    have hbefore := ih hord.init (fun e he => hlive e (List.mem_append_left _ he))
    have hle : d.now ≤ c.now := hord.le_last d (by simp)
    rw [run_snoc]
    refine hbefore.step (hlive c (by simp)) ?_
    rw [run_duration]
    exact Nat.add_le_add_right hle _

/-- When a block outlasts the window, no IP is newly blacklisted twice within it. -/
theorem not_repeated_of_long_blocks {b : Blacklist} (hlong : b.attack_window < b.duration)
    {calls : List TimedCall} (hord : Ordered calls) : NotRepeated b calls := by
  intro pre c ip hpre hcall hused t hbefore
  obtain ⟨pre', d, ⟨post, rfl⟩, rfl, hd, htrip⟩ := hbefore
  have hord' : Ordered (pre' ++ d :: post ++ [c]) := by
    have hpast := hord.sublist hpre.sublist
    rwa [List.append_assoc pre' [d] post] at hpast
  -- were the block still running, the IP would not have used up its faults
  have hended : d.now + b.duration ≤ c.now := by
    by_contra hlive
    have hblocked := blocked_of_newly_blacklisted hd htrip hord'.init
      (fun e he => (hord'.le_last e (by simp [he])).trans_lt (Nat.not_le.mp hlive))
    obtain ⟨e, limit, hlookup, hlimit, -⟩ := hblocked
    obtain ⟨e', hlookup', hfree, -⟩ := hused
    rw [List.append_assoc, List.singleton_append, hlookup] at hlookup'
    obtain rfl := Option.some.inj hlookup'
    rw [hfree] at hlimit
    cases hlimit
  unfold within Instant.duration_since
  rw [decide_eq_false_iff_not]
  lia

/-- With the rejection trigger off, the lockdown is engaged by more than the threshold of distinct
    IPs, if no IP is newly blacklisted twice within the window; with blocks longer than the window
    that is so in every run. -/
theorem lockdown_engaged_by_distinct {T A : UInt32} {D W : UInt64} {max_entries : Nat}
    {base : Instant} {calls : List TimedCall} (hord : Ordered calls) :
    let b := new T D A 0 W max_entries base
    max W 1 < D ∨ NotRepeated b calls → ArmedByDistinct b calls := by
  intro b hcond pre c hpre hnodrop harms
  have hord' : Ordered (pre ++ [c]) := hord.sublist hpre.sublist
  have hnew : NotRepeated b (pre ++ [c]) := by
    rcases hcond with hlong | hnew
    · refine not_repeated_of_long_blocks ?_ hord'
      exact Nat.mul_lt_mul_of_pos_right (UInt64.lt_iff_toNat_lt.mp hlong) (by decide)
    · exact fun pre' d ip hpre' => hnew pre' d ip (hpre'.trans hpre)
  obtain ⟨q', hq'⟩ := events_run (b := b) rfl hord'.init
    fun pre' d ip hpre' => hnew pre' d ip (hpre'.trans (List.prefix_append pre [c]))
  obtain ⟨q, hq⟩ := hq'.step hord' hnew
  -- only a packet that newly blacklists its IP has armed the timer
  have hevents := step_events (b.run pre) c
  unfold arms at harms
  cases hcall : c.call with
  | is_blocked ip => simp [hcall] at harms
  | purge_stale => simp [hcall] at harms
  | shed => exact absurd hcall (hnodrop c (by simp))
  | note_rejection =>
    rw [hcall] at harms
    exact absurd (run_rejection_threshold b pre) harms.1
  | record_faulty ip =>
    rw [hcall] at harms hevents
    dsimp only at harms hevents
    obtain ⟨hT, htrip, hover⟩ := harms
    rw [if_pos (record_faulty_eq_true.mpr ⟨hT, htrip⟩), ← run_snoc] at hevents
    rw [← hevents, ← hq.times, List.length_map] at hover
    refine ⟨q.map Prod.snd, hq.distinct, ?_, ?_⟩
    · rw [List.length_map]
      have hlt := UInt32.lt_iff_toNat_lt.mp hover
      rw [UInt32.toNat_ofNat', run_attack_threshold] at hlt
      exact hlt.trans_le (Nat.mod_le _ _)
    · intro ip' hip'
      obtain ⟨p, hp, rfl⟩ := List.mem_map.mp hip'
      refine ⟨p.1, hq.blacklisted p hp, ?_⟩
      have hmem : p.1 ∈ (b.run (pre ++ [c])).events := by
        rw [← hq.times]
        exact List.mem_map_of_mem hp
      rw [hevents, run_attack_window] at hmem
      exact trim_within (hq'.queue_sorted hord') p.1 hmem

/-- Two sources that are blacklisted one after the other. -/
def two_sources : List TimedCall :=
  [⟨0, .record_faulty (.sample 1)⟩, ⟨0, .record_faulty (.sample 1)⟩,
    ⟨2000000000, .record_faulty (.sample 2)⟩, ⟨2000000000, .record_faulty (.sample 2)⟩]

theorem lockdown_engaged_by_distinct_two :
    ArmedByDistinct (new 1 600 1 0 60 0 0) two_sources :=
  lockdown_engaged_by_distinct (by unfold Ordered; decide) (.inl (by decide))

/-- One source whose block has ended when it is blacklisted again. -/
def one_source_twice : List TimedCall :=
  [⟨0, .record_faulty noisy_ip⟩, ⟨0, .record_faulty noisy_ip⟩,
    ⟨2000000000, .record_faulty noisy_ip⟩, ⟨2000000000, .record_faulty noisy_ip⟩]

/-- With blocks of one second, one source engages a lockdown that asks for more than one. -/
theorem one_source_engages_lockdown :
    Ordered one_source_twice ∧ ¬ ArmedByDistinct (new 1 1 1 0 60 0 0) one_source_twice := by
  refine ⟨by unfold Ordered; decide, ?_⟩
  intro h
  obtain ⟨ips, hnodup, hmany, hips⟩ := h (one_source_twice.take 3)
    ⟨2000000000, .record_faulty noisy_ip⟩ List.prefix_rfl (by decide) (show _ ∧ _ by decide)
  have hall : ∀ d ∈ one_source_twice, d.call = .record_faulty noisy_ip := by decide
  have hone : ∀ ip ∈ ips, ip = noisy_ip := by
    intro ip hip
    obtain ⟨t, ⟨pre, d, hpre, -, hcall, -⟩, -⟩ := hips ip hip
    have hd := hall d (hpre.subset (by simp))
    rw [hcall] at hd
    exact Call.record_faulty.inj hd
  -- so there is one IP at most
  have hfew : ips.length ≤ 1 := by
    rw [List.eq_replicate_of_mem hone] at hnodup
    exact List.nodup_replicate.mp hnodup
  exact absurd hmany (Nat.not_lt.mpr hfew)

end Blacklist

end SignedPulse
