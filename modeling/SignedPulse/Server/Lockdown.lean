import SignedPulse.Server.BlacklistRuns

/-! # What engages the lockdown

    With `attack_blacklist_threshold = 0` only the rejection rate is meant to
    engage the lockdown. The queue of rejections holds rejection times of the
    run inside the window (`rejections_sublist`, `trim_within`), so a lockdown
    that is engaged by a rejection has more than the threshold behind it. A
    packet that newly blacklists an IP engages the lockdown as well, since any
    event exceeds a threshold of zero.
-/

namespace SignedPulse

namespace Blacklist

/-! ### Engaging -/

/-- The IP has used up the faults it is tolerated: the next one blacklists it. -/
def used_up (b : Blacklist) (ip : IpAddr) : Prop :=
  ∃ e, AList.lookup ip b.state = some e ∧ e.blocked_until = none ∧ b.threshold < e.faults + 1

/-- A faulty packet of an IP that has not used up its faults trips nothing. -/
theorem count_fault_silent {b : Blacklist} (hT : b.threshold ≠ 0) {ip : IpAddr} {now : Instant}
    (h : ¬ b.used_up ip) : (b.count_fault ip now).1 = false := by
  have hone : ¬ b.threshold < 1 := by
    rw [UInt32.lt_iff_toNat_lt]
    intro hlt
    exact hT (UInt32.toNat_inj.mp (Nat.lt_one_iff.mp hlt))
  unfold count_fault
  split
  · rfl
  · unfold fault
    cases hl : AList.lookup ip b.state with
    | none => simp [hone]
    | some e =>
      -- an entry that is not blocked has faults to spare
      simp only [Option.getD_some]
      cases hb : e.blocked_until with
      | none =>
        have hlt : ¬ b.threshold < e.faults + 1 := fun hlt => h ⟨e, hl, hb, hlt⟩
        simp [hlt]
      | some t => by_cases ht : now < t <;> simp [ht, hone]

/-- The call is a faulty packet of an IP that has used up its faults. -/
def blacklists (b : Blacklist) (c : TimedCall) : Prop :=
  ∃ ip, c.call = .record_faulty ip ∧ b.used_up ip

theorem record_faulty_lockdown {b : Blacklist} {ip : IpAddr} {now : Instant}
    (h : ¬ b.used_up ip) : (b.record_faulty ip now).2.lockdown_until_ms = b.lockdown_until_ms := by
  unfold record_faulty record_faulty_at
  by_cases hT : b.threshold = 0
  · simp [hT]
  · simp only [hT, if_false, count_fault_silent hT h, Bool.false_eq_true]
    unfold count_fault
    split <;> rfl

/-! ### The queue of rejections -/

/-- When the run rejected a packet. -/
def rejection_times (calls : List TimedCall) : List Instant :=
  (calls.filter (fun c => c.call = .note_rejection)).map (fun c => c.now)

/-- The instant lies in the window that ends at `now`. -/
def within (window : Duration) (now t : Instant) : Bool :=
  decide (Instant.duration_since now t ≤ window)

/-- How many packets were rejected within the window that ends at `now`. -/
def rejected_within (window : Duration) (now : Instant) (calls : List TimedCall) : Nat :=
  ((rejection_times calls).filter (within window now)).length

theorem rejection_times_snoc (calls : List TimedCall) (c : TimedCall) :
    rejection_times (calls ++ [c]) =
      rejection_times calls ++ if c.call = .note_rejection then [c.now] else [] := by
  unfold rejection_times
  by_cases h : c.call = .note_rejection <;> simp [h]

theorem rejection_times_sorted {calls : List TimedCall} (h : Ordered calls) :
    (rejection_times calls).Pairwise (· ≤ ·) :=
  List.Pairwise.map _ (fun _ _ hle => hle) (h.sublist List.filter_sublist)

theorem trim_sublist (window : Duration) (q : List Instant) (now : Instant) :
    (trim window q now).Sublist q := List.dropWhile_sublist _

/-- Trimming a sorted queue leaves nothing outside the window. -/
theorem trim_within {window : Duration} {q : List Instant} {now : Instant}
    (hq : q.Pairwise (· ≤ ·)) : ∀ t ∈ trim window q now, within window now t = true := by
  unfold trim
  induction q with
  | nil => simp
  | cons front q ih =>
    rw [List.pairwise_cons] at hq
    obtain ⟨hfront, hq⟩ := hq
    by_cases hold : Instant.duration_since now front > window
    · rw [List.dropWhile_cons_of_pos (by simpa using hold)]
      exact ih hq
    · rw [List.dropWhile_cons_of_neg (by simpa using hold)]
      intro t ht
      -- everything behind the front is younger than the front
      have hle : front ≤ t := by
        rcases List.mem_cons.mp ht with rfl | ht
        · exact le_rfl
        · exact hfront t ht
      unfold within
      unfold Instant.duration_since at hold ⊢
      rw [decide_eq_true_eq]
      lia

theorem record_faulty_rejections (b : Blacklist) (ip : IpAddr) (now : Instant) :
    (b.record_faulty ip now).2.rejections = b.rejections := by
  unfold record_faulty record_faulty_at count_fault note_event
  dsimp only
  repeat' split
  all_goals rfl

theorem note_lockdown_drop_rejections (b : Blacklist) (now : Instant) :
    (b.note_lockdown_drop now).rejections = b.rejections := by
  unfold note_lockdown_drop
  dsimp only
  repeat' split
  all_goals rfl

theorem note_rejection_rejections {b : Blacklist} (hR : b.rejection_threshold ≠ 0)
    (now : Instant) :
    (b.note_rejection now).rejections = trim b.attack_window (b.rejections ++ [now]) now := by
  unfold note_rejection
  rw [if_neg hR]
  dsimp only
  split <;> rfl

/-- The queue holds rejection times of the run, in order. -/
theorem rejections_sublist {b : Blacklist} (hR : b.rejection_threshold ≠ 0)
    (hb : b.rejections = []) (calls : List TimedCall) :
    (b.run calls).rejections.Sublist (rejection_times calls) := by
  induction calls using List.reverseRecOn with
  | nil => rw [run_nil, hb]; exact List.nil_sublist _
  | append_singleton calls c ih =>
    have hR' : (b.run calls).rejection_threshold ≠ 0 := by
      rwa [run_rejection_threshold]
    have hkeep : (b.run calls).rejections.Sublist (rejection_times (calls ++ [c])) := by
      rw [rejection_times_snoc]
      exact ih.trans (List.sublist_append_left _ _)
    rw [run_snoc]
    unfold step
    cases hcall : c.call with
    | record_faulty ip => simpa only [record_faulty_rejections] using hkeep
    | is_blocked => exact hkeep
    | note_rejection =>
      -- a rejection is queued, and old ones are trimmed
      simp only [note_rejection_rejections hR']
      refine (trim_sublist _ _ _).trans ?_
      rw [rejection_times_snoc, if_pos hcall]
      exact ih.append_right [c.now]
    | shed =>
      dsimp only
      split
      · rwa [note_lockdown_drop_rejections]
      · exact hkeep
    | purge_stale => exact (trim_sublist _ _ _).trans hkeep

/-! ### The first engagement -/

/-- A rejection that engages the lockdown has more than the threshold behind it. -/
theorem over_of_note_rejection {b : Blacklist} (hR : b.rejection_threshold ≠ 0)
    (hb : b.rejections = []) {calls : List TimedCall} {c : TimedCall}
    (hcall : c.call = .note_rejection) (hord : Ordered (calls ++ [c]))
    (hbefore : (b.run calls).engaged = false) (hafter : (b.run (calls ++ [c])).engaged = true) :
    b.rejection_threshold.toNat < rejected_within b.attack_window c.now (calls ++ [c]) := by
  obtain ⟨q, hq⟩ : ∃ q, trim b.attack_window ((b.run calls).rejections ++ [c.now]) c.now = q :=
    ⟨_, rfl⟩
  -- the queue was over the threshold, or the timer would not have been armed
  have hover : b.rejection_threshold < UInt32.ofNat q.length := by
    by_contra hno
    have hsame : (b.run (calls ++ [c])).lockdown_until_ms = (b.run calls).lockdown_until_ms := by
      simp only [run_snoc, step, hcall, note_rejection, run_rejection_threshold,
        run_attack_window, if_neg hR, hq]
      rw [if_neg hno]
    simp only [engaged, hsame] at hbefore hafter
    rw [hbefore] at hafter
    exact absurd hafter (by decide)
  have hlen : b.rejection_threshold.toNat < q.length := by
    rw [UInt32.lt_iff_toNat_lt, UInt32.toNat_ofNat'] at hover
    exact hover.trans_le (Nat.mod_le _ _)
  -- and all of it lies in the window
  have htimes : ((b.run calls).rejections ++ [c.now]).Sublist (rejection_times (calls ++ [c])) := by
    rw [rejection_times_snoc, if_pos hcall]
    exact (rejections_sublist hR hb calls).append_right [c.now]
  have hsorted := (rejection_times_sorted hord).sublist htimes
  have hall : q.filter (within b.attack_window c.now) = q := by
    rw [List.filter_eq_self, ← hq]
    exact trim_within hsorted
  have hsub : q.Sublist ((rejection_times (calls ++ [c])).filter
    (within b.attack_window c.now)) := by
    rw [← hall, ← hq]
    exact ((trim_sublist _ _ _).trans htimes).filter _
  exact hlen.trans_le hsub.length_le

/-- In the whole run, the lockdown is first engaged only when more than the threshold of
    packets were rejected within the window. -/
def EngagedByRejections (b : Blacklist) (calls : List TimedCall) : Prop :=
  ∀ pre c, pre ++ [c] <+: calls →
    (b.run pre).engaged = false → (b.run (pre ++ [c])).engaged = true →
      b.rejection_threshold.toNat < rejected_within b.attack_window c.now (pre ++ [c])

/-- While the lockdown is off, no packet newly blacklists its IP. -/
def NoneBlacklisted (b : Blacklist) (calls : List TimedCall) : Prop :=
  ∀ pre c, pre ++ [c] <+: calls → (b.run pre).engaged = false → ¬ (b.run pre).blacklists c

/-- Step lemma: a call other than a rejection, or a packet that blacklists its IP, leaves a
    lockdown that is off as it is. -/
theorem step_not_engaged {b : Blacklist} {c : TimedCall} (hoff : b.engaged = false)
    (hcall : c.call ≠ .note_rejection) (hquiet : ¬ b.blacklists c) :
    (b.step c).engaged = false := by
  unfold step
  cases h : c.call with
  | record_faulty ip =>
    have hused : ¬ b.used_up ip := fun hused => hquiet ⟨ip, h, hused⟩
    simpa only [engaged, record_faulty_lockdown hused] using hoff
  | note_rejection => exact absurd h hcall
  | is_blocked => exact hoff
  | shed =>
    dsimp only
    -- nothing is shed while the lockdown is off
    rw [if_neg (by simp [hoff])]
    exact hoff
  | purge_stale => exact hoff

theorem lockdown_engaged_by_rejections {T R : UInt32} {D W : UInt64} {max_entries : Nat}
    {base : Instant} (hR : 0 < R) {calls : List TimedCall} (hord : Ordered calls)
    (hquiet : NoneBlacklisted (new T D 0 R W max_entries base) calls) :
    EngagedByRejections (new T D 0 R W max_entries base) calls := by
  intro pre c hpre hbefore hafter
  have hne : (new T D 0 R W max_entries base).rejection_threshold ≠ 0 := by
    intro h0
    rw [show R = 0 from h0] at hR
    exact absurd hR UInt32.not_lt_zero
  by_cases hcall : c.call = .note_rejection
  · exact over_of_note_rejection hne rfl hcall (hord.sublist hpre.sublist) hbefore hafter
  · have hoff := step_not_engaged hbefore hcall (hquiet pre c hpre hbefore)
    rw [← run_snoc, hafter] at hoff
    exact absurd hoff (by decide)

/-- Three packets that are rejected within one second. Two of them are faulty, and tolerated. -/
def rejected_burst : List TimedCall :=
  [⟨1000000000, .note_rejection⟩, ⟨1000000000, .record_faulty noisy_ip⟩,
    ⟨1400000000, .note_rejection⟩, ⟨1400000000, .record_faulty noisy_ip⟩,
    ⟨1800000000, .note_rejection⟩]

/-- Of ten faults that are tolerated, no prefix of the burst has used up more than one. -/
theorem rejected_burst_tolerated (k : Nat) (ip : IpAddr)
    (h : (rejected_burst[k]?).map (fun c => c.call) = some (.record_faulty ip)) :
    ¬ ((new 10 600 0 2 60 0 0).run (rejected_burst.take k)).used_up ip := by
  rintro ⟨e, he, -, hover⟩
  match k with
  | 0 => cases h
  | 1 =>
    obtain rfl : noisy_ip = ip := Call.record_faulty.inj (Option.some.inj h)
    cases he
  | 2 => cases h
  | 3 =>
    obtain rfl : noisy_ip = ip := Call.record_faulty.inj (Option.some.inj h)
    obtain rfl : (⟨1, none⟩ : Entry) = e := Option.some.inj he
    exact absurd hover (by decide)
  | 4 => cases h
  | k + 5 => cases h

theorem lockdown_engaged_by_rejections_burst :
    Ordered rejected_burst ∧ ((new 10 600 0 2 60 0 0).run rejected_burst).engaged = true ∧
      EngagedByRejections (new 10 600 0 2 60 0 0) rejected_burst := by
  have hord : Ordered rejected_burst := by unfold Ordered; decide
  refine ⟨hord, by decide, lockdown_engaged_by_rejections (by decide) hord ?_⟩
  rintro pre c hpre - ⟨ip, hcall, hused⟩
  have htake : pre = rejected_burst.take pre.length :=
    List.prefix_iff_eq_take.mp ((List.prefix_append pre [c]).trans hpre)
  have hc : rejected_burst[pre.length]? = some c := by
    obtain ⟨post, hpost⟩ := hpre
    rw [← hpost]
    simp
  rw [htake] at hused
  exact rejected_burst_tolerated pre.length ip (by rw [hc, ← hcall]; rfl) hused

/-- Two garbage packets of one source, each rejected and counted as faulty. -/
def garbage_pair : List TimedCall :=
  [⟨1000000000, .note_rejection⟩, ⟨1000000000, .record_faulty noisy_ip⟩,
    ⟨2000000000, .note_rejection⟩, ⟨2000000000, .record_faulty noisy_ip⟩]

/-- With the blacklist trigger set to zero, one blacklisted IP engages the lockdown after two
    rejections, where the rejection trigger asks for more than 256. -/
theorem blacklisting_engages_lockdown :
    Ordered garbage_pair ∧ ¬ EngagedByRejections (new 1 600 0 256 60 0 0) garbage_pair := by
  refine ⟨by unfold Ordered; decide, ?_⟩
  intro h
  have hover := h (garbage_pair.take 3) ⟨2000000000, .record_faulty noisy_ip⟩
    List.prefix_rfl (by decide) (by decide)
  exact absurd hover (by decide)

end Blacklist

end SignedPulse
