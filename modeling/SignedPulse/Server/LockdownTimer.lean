import SignedPulse.Server.Lockdown
import SignedPulse.Server.TimeArithmetic

/-! # The hold-down timer of the lockdown

    The timer is moved by calls that arm it, and by nothing else (`arms`,
    `step_lockdown`). So the lockdown is on as long as one of the calls that
    armed it is less than one window away (`lt_lockdown_iff`).

    - `lockdown_iff_rejections`: the rejection trigger is a sliding window over
      the rejections of the run
    - `rearmed_of_drops`: a flood at the gate arms the timer again, but it takes
      up to twice the threshold, since the drops are counted in fixed windows
-/

namespace SignedPulse

namespace Blacklist

/-! ### Arming -/

/-- The threshold that drops at the lockdown gate have to exceed. -/
def drop_threshold (b : Blacklist) : Option UInt32 :=
  if b.rejection_threshold > 0 then some b.rejection_threshold
  else if b.attack_threshold > 0 then some b.attack_threshold
  else none

/-- A drop at `now` begins a new window of the drop counter. -/
def opens_drop_window (b : Blacklist) (now : Instant) : Prop :=
  (b.now_ms now).toNat - b.drop_window_start_ms.toNat > (Duration.as_millis b.attack_window).toNat

instance (b : Blacklist) (now : Instant) : Decidable (b.opens_drop_window now) :=
  inferInstanceAs (Decidable (_ > _))

/-- The call runs into `arm_lockdown`. -/
def arms (b : Blacklist) (c : TimedCall) : Prop :=
  match c.call with
  | .record_faulty ip => b.threshold ≠ 0 ∧ (b.count_fault ip c.now).1 = true ∧
    UInt32.ofNat (trim b.attack_window (b.events ++ [c.now]) c.now).length > b.attack_threshold
  | .note_rejection => b.rejection_threshold ≠ 0 ∧
    UInt32.ofNat (trim b.attack_window (b.rejections ++ [c.now]) c.now).length >
      b.rejection_threshold
  | .shed => b.engaged = true ∧ ¬ b.opens_drop_window c.now ∧
    ∃ thresh, b.drop_threshold = some thresh ∧ b.drop_count + 1 > thresh.toUInt64
  | _ => False

theorem count_fault_lockdown (b : Blacklist) (ip : IpAddr) (now : Instant) :
    (b.count_fault ip now).2 =
      { b with state := (b.count_fault ip now).2.state } := by
  unfold count_fault
  split <;> rfl

/-- The drop counter after a drop. -/
theorem note_lockdown_drop_eq (b : Blacklist) (now : Instant) :
    b.note_lockdown_drop now =
      match b.drop_threshold with
      | none => b
      | some thresh =>
        if b.opens_drop_window now then
          { b with drop_window_start_ms := b.now_ms now, drop_count := 1 }
        else if b.drop_count + 1 > thresh.toUInt64 then
          { b with drop_count := b.drop_count + 1 }.arm_lockdown now
        else { b with drop_count := b.drop_count + 1 } := rfl

open Classical in
/-- Step lemma: the timer is moved by the calls that arm it. -/
theorem step_lockdown (b : Blacklist) (c : TimedCall) :
    (b.step c).lockdown_until_ms =
      if b.arms c then
        max b.lockdown_until_ms (b.now_ms c.now + Duration.as_millis b.attack_window)
      else b.lockdown_until_ms := by
  unfold step arms
  cases c.call with
  | is_blocked ip => simp
  | purge_stale => simp [purge_stale]
  | record_faulty ip =>
    dsimp only
    unfold record_faulty record_faulty_at
    -- threshold 0: faults are not counted
    by_cases hT : b.threshold = 0
    · simp [hT]
    · simp only [hT, if_false, ne_eq, not_false_eq_true, true_and]
      cases htrip : (b.count_fault ip c.now).1 with
      | false =>
        simp only [Bool.false_eq_true, if_false, false_and]
        rw [count_fault_lockdown]
      | true =>
        simp only [if_true, true_and]
        rw [count_fault_lockdown]
        unfold note_event
        dsimp only
        split <;> rfl
  | note_rejection =>
    dsimp only
    unfold note_rejection
    -- threshold 0: rejections are not counted
    by_cases hR : b.rejection_threshold = 0
    · simp [hR]
    · simp only [hR, if_false, ne_eq, not_false_eq_true, true_and]
      split <;> rfl
  | shed =>
    dsimp only
    cases hengaged : b.engaged with
    | false => simp
    | true =>
      simp only [if_true, true_and]
      rw [note_lockdown_drop_eq]
      cases b.drop_threshold with
      | none => simp
      | some thresh =>
        dsimp only
        -- the first drop of a window never arms
        by_cases hopens : b.opens_drop_window c.now
        · simp [hopens]
        · simp only [hopens, if_false, not_false_eq_true, true_and, Option.some.injEq,
            exists_eq_left']
          split <;> rfl

@[simp] theorem run_attack_threshold (b : Blacklist) (calls : List TimedCall) :
    (b.run calls).attack_threshold = b.attack_threshold :=
  congrArg Settings.attack_threshold (run_settings b calls)

@[simp] theorem run_base (b : Blacklist) (calls : List TimedCall) :
    (b.run calls).base = b.base :=
  congrArg Settings.base (run_settings b calls)

@[simp] theorem run_now_ms (b : Blacklist) (calls : List TimedCall) (now : Instant) :
    (b.run calls).now_ms now = b.now_ms now := by
  unfold now_ms
  rw [run_base]

/-- Run lemma: the timer shows the latest time that a call of the run has armed it for. -/
theorem lt_lockdown_iff {b : Blacklist} {calls : List TimedCall} {x : UInt64} :
    x < (b.run calls).lockdown_until_ms ↔ x < b.lockdown_until_ms ∨
      ∃ pre c, pre ++ [c] <+: calls ∧ (b.run pre).arms c ∧
        x < b.now_ms c.now + Duration.as_millis b.attack_window := by
  have hmax (u v : UInt64) : x < max u v ↔ x < u ∨ x < v := by
    rw [UInt64.lt_iff_toNat_lt, toNat_max, lt_max_iff, ← UInt64.lt_iff_toNat_lt,
      ← UInt64.lt_iff_toNat_lt]
  -- induction on the calls: the last one arms the timer, or leaves it
  induction calls using List.reverseRecOn with
  | nil =>
    rw [run_nil]
    constructor
    · exact .inl
    · rintro (h | ⟨pre, c, hpre, -⟩)
      · exact h
      · simp at hpre
  | append_singleton calls c ih =>
    have hstep : x < (b.run (calls ++ [c])).lockdown_until_ms ↔
        x < (b.run calls).lockdown_until_ms ∨ ((b.run calls).arms c ∧
          x < b.now_ms c.now + Duration.as_millis b.attack_window) := by
      rw [run_snoc, step_lockdown, run_now_ms, run_attack_window]
      split
      · rename_i harms
        simp [hmax, harms]
      · rename_i hquiet
        simp [hquiet]
    refine hstep.trans ((or_congr_left ih).trans (or_assoc.trans (or_congr_right ?_)))
    constructor
    · rintro (⟨pre, d, hpre, hd⟩ | hc)
      · exact ⟨pre, d, hpre.trans (List.prefix_append calls [c]), hd⟩
      · exact ⟨calls, c, List.prefix_rfl, hc⟩
    · rintro ⟨pre, d, hpre, hd⟩
      rcases List.prefix_concat_iff.mp hpre with heq | hpre
      · obtain ⟨rfl, hdc⟩ := List.append_inj' heq rfl
        obtain rfl := (List.cons.inj hdc).1
        exact .inr hd
      · exact .inl ⟨pre, d, hpre, hd⟩

/-! ### The rejection rate -/

/-- Trimming a sorted queue leaves what lies in the window. -/
theorem trim_eq_filter {window : Duration} {q : List Instant} {now : Instant}
    (hq : q.Pairwise (· ≤ ·)) : trim window q now = q.filter (within window now) := by
  induction q with
  | nil => rfl
  | cons front q ih =>
    obtain ⟨-, hrest⟩ := List.pairwise_cons.mp hq
    by_cases hold : Instant.duration_since now front > window
    · have hout : within window now front = false := decide_eq_false (Nat.not_le.mpr hold)
      unfold trim
      rw [List.dropWhile_cons_of_pos (by simpa using hold),
        List.filter_cons_of_neg (by simp [hout])]
      exact ih hrest
    · -- the front is inside, and so is the rest
      have hkept : trim window (front :: q) now = front :: q :=
        List.dropWhile_cons_of_neg (by simpa using hold)
      rw [hkept]
      exact (List.filter_eq_self.mpr (hkept ▸ trim_within hq)).symm

/-- What lies in a later window lies in the earlier one. -/
theorem filter_within_trim {window : Duration} {q : List Instant} {now later : Instant}
    (hq : q.Pairwise (· ≤ ·)) (hle : now ≤ later) :
    (trim window q now).filter (within window later) = q.filter (within window later) := by
  rw [trim_eq_filter hq, List.filter_filter]
  refine List.filter_congr fun t _ => ?_
  have himp : within window later t = true → within window now t = true := by
    intro h
    exact decide_eq_true (le_trans (Nat.sub_le_sub_right hle t) (of_decide_eq_true h))
  cases hlater : within window later t with
  | false => rfl
  | true => rw [himp hlater]; rfl

/-- The queue is exact: it holds all rejections of the run that lie in the window. -/
theorem rejections_exact {b : Blacklist} (hR : b.rejection_threshold ≠ 0) (hb : b.rejections = [])
    {calls : List TimedCall} (hord : Ordered calls) {now : Instant}
    (hpast : ∀ d ∈ calls, d.now ≤ now) :
    (b.run calls).rejections.filter (within b.attack_window now) =
      (rejection_times calls).filter (within b.attack_window now) := by
  induction calls using List.reverseRecOn with
  | nil => rw [run_nil, hb]; rfl
  | append_singleton calls c ih =>
    have hearlier := ih hord.init fun d hd => hpast d (List.mem_append_left _ hd)
    have hsub := rejections_sublist hR hb calls
    have hsorted := (rejection_times_sorted hord.init).sublist hsub
    have hc : c.now ≤ now := hpast c (by simp)
    rw [run_snoc, rejection_times_snoc]
    unfold step
    -- only a rejection is added, and trimming keeps what lies in the window
    cases hcall : c.call with
    | record_faulty ip => simpa [record_faulty_rejections] using hearlier
    | is_blocked ip => simpa using hearlier
    | shed =>
      dsimp only
      split
      · simpa [note_lockdown_drop_rejections] using hearlier
      · simpa using hearlier
    | purge_stale =>
      simp only [reduceCtorEq, if_false, List.append_nil]
      rw [← hearlier]
      simpa [purge_stale] using filter_within_trim hsorted hc
    | note_rejection =>
      have hqueue : ((b.run calls).rejections ++ [c.now]).Pairwise (· ≤ ·) := by
        refine (rejection_times_sorted hord).sublist ?_
        rw [rejection_times_snoc, if_pos hcall]
        exact hsub.append_right [c.now]
      simp only [if_true]
      rw [note_rejection_rejections (by rwa [run_rejection_threshold]), run_attack_window,
        filter_within_trim hqueue hc, List.filter_append, List.filter_append, hearlier]

/-- A rejection arms the timer when, with it, more than the threshold lie in the window; the count
    is a `u32`. -/
theorem arms_note_rejection {b : Blacklist} (hR : b.rejection_threshold ≠ 0)
    (hb : b.rejections = []) {pre : List TimedCall} {c : TimedCall}
    (hcall : c.call = .note_rejection) (hord : Ordered (pre ++ [c])) : (b.run pre).arms c ↔
      UInt32.ofNat (rejected_within b.attack_window c.now (pre ++ [c])) >
        b.rejection_threshold := by
  have hpast : ∀ d ∈ pre, d.now ≤ c.now := hord.le_last
  have hqueue : ((b.run pre).rejections ++ [c.now]).Pairwise (· ≤ ·) := by
    refine (rejection_times_sorted hord).sublist ?_
    rw [rejection_times_snoc, if_pos hcall]
    exact (rejections_sublist hR hb pre).append_right [c.now]
  have hlength : (trim b.attack_window ((b.run pre).rejections ++ [c.now]) c.now).length =
      rejected_within b.attack_window c.now (pre ++ [c]) := by
    unfold rejected_within
    rw [trim_eq_filter hqueue, rejection_times_snoc, if_pos hcall, List.filter_append,
      List.filter_append, rejections_exact hR hb hord.init hpast]
  unfold arms
  rw [hcall]
  simp only [run_rejection_threshold, run_attack_window, hlength, ne_eq, hR, not_false_eq_true,
    true_and]

/-- Without blacklisting and without drops at the gate, the lockdown is on at `now` just when some
    rejection that had more than the threshold in its window is less than one window away, in
    milliseconds since the start. -/
theorem lockdown_iff_rejections {R : UInt32} (hR : 0 < R) {D W : UInt64} {A : UInt32}
    {max_entries : Nat} {base : Instant} {calls : List TimedCall} (hord : Ordered calls)
    (hshed : ∀ d ∈ calls, d.call ≠ .shed) {now : Instant} :
    let b := new 0 D A R W max_entries base
    (b.run calls).under_attack now = true ↔
      ∃ pre c, pre ++ [c] <+: calls ∧ c.call = .note_rejection ∧
        R < UInt32.ofNat (rejected_within b.attack_window c.now (pre ++ [c])) ∧
        b.now_ms now < b.now_ms c.now + Duration.as_millis b.attack_window := by
  intro b
  have hne : b.rejection_threshold ≠ 0 := UInt32.pos_iff_ne_zero.mp hR
  have hon : (b.run calls).under_attack now = true ↔
      b.now_ms now < (b.run calls).lockdown_until_ms := by
    unfold under_attack
    rw [run_rejection_threshold, if_neg (fun hoff => hne hoff.2), run_now_ms, decide_eq_true_eq]
  rw [hon, lt_lockdown_iff]
  constructor
  · rintro (hzero | ⟨pre, c, hpre, harms, hlt⟩)
    · exact absurd hzero UInt64.not_lt_zero
    · -- what arms the timer is a rejection
      have hc : c.call ≠ .shed := hshed c (hpre.subset (by simp))
      have hcall : c.call = .note_rejection := by
        cases hcall : c.call with
        | note_rejection => rfl
        | shed => exact absurd hcall hc
        | record_faulty ip =>
          simp only [arms, hcall, run_threshold] at harms
          exact absurd rfl harms.1
        | _ => simp only [arms, hcall] at harms
      exact ⟨pre, c, hpre, hcall,
        (arms_note_rejection hne rfl hcall (hord.sublist hpre.sublist)).mp harms, hlt⟩
  · rintro ⟨pre, c, hpre, hcall, hover, hlt⟩
    exact .inr ⟨pre, c, hpre,
      (arms_note_rejection hne rfl hcall (hord.sublist hpre.sublist)).mpr hover, hlt⟩

/-- Two rejections in one second, the second of them at 0.9 ms. -/
def early_rejections : List TimedCall := [⟨0, .note_rejection⟩, ⟨900000, .note_rejection⟩]

theorem lockdown_iff_rejections_early :
    ((new 0 300 0 1 1 0 0).run early_rejections).under_attack 999000000 = true := by
  refine (lockdown_iff_rejections (by decide) (by unfold Ordered; decide) (by decide)).mpr ?_
  exact ⟨[⟨0, .note_rejection⟩], ⟨900000, .note_rejection⟩, List.prefix_rfl, rfl, by decide,
    by decide⟩

/-- Two rejections at the start. -/
def rejected_pair : List TimedCall := [⟨0, .note_rejection⟩, ⟨0, .note_rejection⟩]

/-- The lockdown is off 0.1 ms before the window after the last rejection is over; and when the
    milliseconds of the window do not fit a `u64`, it is off long before. -/
theorem lockdown_ends_early :
    (let b := new 0 300 0 1 1 0 0
    Ordered early_rejections ∧ 1 < rejected_within b.attack_window 900000 early_rejections ∧
      1000800000 < 900000 + b.attack_window ∧
      (b.run early_rejections).under_attack 1000800000 = false) ∧
    (let b := new 0 300 0 1 18446744073709552 0 0
    Ordered rejected_pair ∧ 1 < rejected_within b.attack_window 0 rejected_pair ∧
      1000000000 < 0 + b.attack_window ∧
      (b.run rejected_pair).under_attack 1000000000 = false) := by
  unfold Ordered
  decide

/-! ### A flood at the gate -/

/-- How many packets of the run were dropped at the gate. -/
def drops (calls : List TimedCall) : Nat := (calls.filter (fun d => d.call = .shed)).length

/-- How many of them were dropped between `u` and `v`. -/
def drops_between (u v : Instant) (calls : List TimedCall) : Nat :=
  drops (calls.filter (fun d => u < d.now ∧ d.now < v))

/-- Some call of `post` arms the timer within one window after `c`. -/
def Rearmed (b : Blacklist) (pre : List TimedCall) (c : TimedCall) (post : List TimedCall) : Prop :=
  ∃ mid d rest, post = mid ++ d :: rest ∧ c.now < d.now ∧ d.now < c.now + b.attack_window ∧
    (b.run (pre ++ c :: mid)).arms d

/-- No call but a drop moves the drop counter. -/
theorem step_drop_counter {b : Blacklist} {c : TimedCall} (hcall : c.call ≠ .shed) :
    (b.step c).drop_window_start_ms = b.drop_window_start_ms ∧
      (b.step c).drop_count = b.drop_count := by
  unfold step
  cases h : c.call with
  | is_blocked ip => exact ⟨rfl, rfl⟩
  | purge_stale => exact ⟨rfl, rfl⟩
  | shed => exact absurd h hcall
  | record_faulty ip =>
    dsimp only
    unfold record_faulty record_faulty_at count_fault note_event
    dsimp only
    repeat' split
    all_goals exact ⟨rfl, rfl⟩
  | note_rejection =>
    dsimp only
    unfold note_rejection
    dsimp only
    repeat' split
    all_goals exact ⟨rfl, rfl⟩

/-- A drop that does not arm the timer is the first of a window, or is counted up to the
    threshold. -/
theorem step_drop {b : Blacklist} {c : TimedCall} {thresh : UInt32} (hengaged : b.engaged = true)
    (hthresh : b.drop_threshold = some thresh) (hcall : c.call = .shed) (hquiet : ¬ b.arms c) :
    (b.opens_drop_window c.now ∧ (b.step c).drop_window_start_ms = b.now_ms c.now ∧
      (b.step c).drop_count = 1) ∨
    (¬ b.opens_drop_window c.now ∧ (b.step c).drop_window_start_ms = b.drop_window_start_ms ∧
      (b.step c).drop_count = b.drop_count + 1 ∧ b.drop_count + 1 ≤ thresh.toUInt64) := by
  have hstep : b.step c = b.note_lockdown_drop c.now := by
    unfold step
    rw [hcall]
    exact if_pos hengaged
  rw [hstep, note_lockdown_drop_eq, hthresh]
  by_cases hopens : b.opens_drop_window c.now
  · exact .inl ⟨hopens, by simp [hopens], by simp [hopens]⟩
  · have hle : ¬ b.drop_count + 1 > thresh.toUInt64 := by
      intro hover
      refine hquiet ?_
      unfold arms
      rw [hcall]
      exact ⟨hengaged, hopens, thresh, hthresh, hover⟩
    refine .inr ⟨hopens, ?_, ?_, UInt64.not_lt.mp hle⟩
    all_goals simp [hopens, hle]

theorem drops_snoc (calls : List TimedCall) (c : TimedCall) :
    drops (calls ++ [c]) = drops calls + if c.call = .shed then 1 else 0 := by
  unfold drops
  by_cases hcall : c.call = .shed <;> simp [hcall]

/-- The counter is at most the number of drops. -/
theorem drop_count_le {b : Blacklist} (hb : b.drop_count = 0) (calls : List TimedCall) :
    (b.run calls).drop_count.toNat ≤ drops calls := by
  induction calls using List.reverseRecOn with
  | nil => rw [run_nil, hb]; exact Nat.zero_le _
  | append_singleton calls c ih =>
    rw [run_snoc, drops_snoc]
    by_cases hcall : c.call = .shed
    swap
    · rwa [(step_drop_counter hcall).2, if_neg hcall]
    rw [if_pos hcall]
    have hadd : ((b.run calls).drop_count + 1).toNat ≤ drops calls + 1 := by
      rw [UInt64.toNat_add]
      exact (Nat.mod_le _ _).trans (Nat.succ_le_succ ih)
    unfold step
    rw [hcall]
    dsimp only
    split
    swap
    · exact Nat.le_succ_of_le ih
    rw [note_lockdown_drop_eq]
    cases (b.run calls).drop_threshold with
    | none => exact Nat.le_succ_of_le ih
    | some thresh =>
      dsimp only
      split
      · exact Nat.succ_le_succ (Nat.zero_le _)
      · split <;> exact hadd

/-- What the counter shows of `n` drops between `u` and `last` that have not armed the timer. They
    lie in at most two of its windows; `wrap` is 1 where a `u64` of drops may be exceeded. -/
inductive Dropped (T wrap : Nat) (u last : Instant) (b : Blacklist) : Nat → Prop
  | none : Dropped T wrap u last b 0
  | old_window {n : Nat} (hn : n ≤ b.drop_count.toNat + wrap) (hle : b.drop_count.toNat ≤ T) :
      Dropped T wrap u last b n
  | new_window {n : Nat} {t : Instant} (ht : u < t) (hlast : t ≤ last)
      (hstart : b.drop_window_start_ms = b.now_ms t) (hn : n ≤ T + wrap + b.drop_count.toNat)
      (hle : b.drop_count.toNat ≤ T) : Dropped T wrap u last b n

theorem step_now_ms (b : Blacklist) (c : TimedCall) (t : Instant) :
    (b.step c).now_ms t = b.now_ms t := by
  unfold now_ms
  rw [show (b.step c).base = b.base from congrArg Settings.base (step_settings b c)]

/-- At most the threshold in each of two windows. -/
theorem Dropped.le {T wrap n : Nat} {u last : Instant} {b : Blacklist}
    (h : Dropped T wrap u last b n) : n ≤ 2 * T + wrap := by
  cases h with
  | none => exact Nat.zero_le _
  | old_window hn hle => omega
  | new_window ht hlast hstart hn hle => omega

theorem Dropped.later {T wrap n : Nat} {u now last : Instant} {b : Blacklist}
    (h : Dropped T wrap u now b n) (hle : now ≤ last) : Dropped T wrap u last b n := by
  cases h with
  | none => exact .none
  | old_window hn hle => exact .old_window hn hle
  | new_window ht hlast hstart hn hle' => exact .new_window ht (hlast.trans hle) hstart hn hle'

theorem Dropped.other {T wrap n : Nat} {u last : Instant} {b : Blacklist} {c : TimedCall}
    (h : Dropped T wrap u last b n) (hcall : c.call ≠ .shed) (hlast : last ≤ c.now) :
    Dropped T wrap u c.now (b.step c) n := by
  obtain ⟨hstart, hcount⟩ := step_drop_counter (b := b) hcall
  cases h with
  | none => exact .none
  | old_window hn hle => exact .old_window (by rwa [hcount]) (by rwa [hcount])
  | new_window ht hle_last hopened hn hle =>
    refine .new_window ht (hle_last.trans hlast) ?_ (by rwa [hcount]) (by rwa [hcount])
    rw [hstart, hopened, step_now_ms]

/-- Step lemma: one more drop, in the current window or in a second one. A third does not fit. -/
theorem Dropped.drop {wrap n : Nat} {u last : Instant} {b : Blacklist} {c : TimedCall}
    {thresh : UInt32} (h : Dropped thresh.toNat wrap u last b n) (hpos : 0 < thresh)
    (hengaged : b.engaged = true) (hthresh : b.drop_threshold = some thresh)
    (hcall : c.call = .shed) (hquiet : ¬ b.arms c) (hu : u < c.now) (hlast : last ≤ c.now)
    (hsecond : ∀ t, u < t → t ≤ last → b.drop_window_start_ms = b.now_ms t →
      ¬ b.opens_drop_window c.now)
    (hwrap : wrap = 1 ∨ b.drop_count.toNat + 1 < 2 ^ 64) :
    Dropped thresh.toNat wrap u c.now (b.step c) (n + 1) := by
  have hone : 0 < thresh.toNat := by simpa using UInt32.lt_iff_toNat_lt.mp hpos
  rcases step_drop hengaged hthresh hcall hquiet with ⟨hopens, hstart, hcount⟩ |
    ⟨hsame, hstart, hcount, hle⟩
  · -- the drop opens a window
    have hfirst : (b.step c).drop_count.toNat = 1 := by rw [hcount]; rfl
    have hnow : (b.step c).drop_window_start_ms = (b.step c).now_ms c.now := by
      rw [hstart, step_now_ms]
    cases h with
    | none => exact .new_window hu le_rfl hnow (by omega) (by omega)
    | old_window hn hle => exact .new_window hu le_rfl hnow (by omega) (by omega)
    | new_window ht hle_last hopened => exact absurd hopens (hsecond _ ht hle_last hopened)
  · -- the drop is counted
    -- it has not armed the timer, so the counter is within the threshold
    have hle' : (b.drop_count + 1).toNat ≤ thresh.toNat := by
      simpa using UInt64.le_iff_toNat_le.mp hle
    have hsucc (hroom : b.drop_count.toNat + 1 < 2 ^ 64) :
        (b.drop_count + 1).toNat = b.drop_count.toNat + 1 := by
      rw [UInt64.toNat_add]
      exact Nat.mod_eq_of_lt hroom
    have hbound := thresh.toNat_lt
    cases h with
    | none =>
      refine .old_window ?_ (by rwa [hcount])
      rw [hcount]
      rcases hwrap with rfl | hroom
      · omega
      · have := hsucc hroom
        omega
    | old_window hn hle =>
      refine .old_window ?_ (by rwa [hcount])
      rw [hcount, hsucc (by omega)]
      omega
    | new_window ht hle_last hopened hn hle =>
      refine .new_window ht (hle_last.trans hlast) ?_ ?_ (by rwa [hcount])
      · rw [hstart, hopened, step_now_ms]
      · rw [hcount, hsucc (by omega)]
        omega

/-- Two instants less than a window apart lie in one window of the drop counter. -/
theorem not_opens_drop_window {b : Blacklist} {u t now : Instant}
    (hroom : Instant.duration_since u b.base / 1000000 + b.attack_window / 1000000 < 2 ^ 64)
    (hwhole : 1000000 ∣ b.attack_window) (ht : u < t) (hnow : now < u + b.attack_window)
    (hle : t ≤ now) (hstart : b.drop_window_start_ms = b.now_ms t) :
    ¬ b.opens_drop_window now := by
  obtain ⟨k, hk⟩ := hwhole
  have hms (v : Instant) (hv : v < u + b.attack_window) :
      (b.now_ms v).toNat = (v - b.base) / 1000000 := by
    unfold now_ms Duration.as_millis
    rw [UInt64.toNat_ofNat']
    refine Nat.mod_eq_of_lt ?_
    unfold Instant.duration_since at hroom ⊢
    lia
  have hwindow : (Duration.as_millis b.attack_window).toNat = b.attack_window / 1000000 := by
    unfold Duration.as_millis
    rw [UInt64.toNat_ofNat']
    exact Nat.mod_eq_of_lt ((Nat.le_add_left _ _).trans_lt hroom)
  unfold opens_drop_window
  rw [hstart, hms now hnow, hms t (hle.trans_lt hnow), hwindow]
  lia

theorem drops_between_snoc {u v : Instant} {calls : List TimedCall} {c : TimedCall} :
    drops_between u v (calls ++ [c]) = drops_between u v calls +
      if c.call = .shed ∧ u < c.now ∧ c.now < v then 1 else 0 := by
  unfold drops_between
  rw [List.filter_append]
  by_cases hin : u < c.now ∧ c.now < v
  · simp [hin, drops_snoc]
  · simp [hin]

theorem run_append (b : Blacklist) (calls more : List TimedCall) :
    b.run (calls ++ more) = (b.run calls).run more := List.foldl_append

theorem run_engaged {b : Blacklist} (h : b.engaged = true) (calls : List TimedCall) :
    (b.run calls).engaged = true := by
  induction calls using List.reverseRecOn with
  | nil => exact h
  | append_singleton calls c ih =>
    rw [run_snoc]
    exact step_engaged _ _ ih

/-- Run lemma: as long as nothing arms the timer, the drops are counted. -/
theorem Dropped.run {b : Blacklist} {thresh : UInt32} (hthresh : b.drop_threshold = some thresh)
    (hpos : 0 < thresh) (hcount : b.drop_count = 0) (hwhole : 1000000 ∣ b.attack_window)
    {pre : List TimedCall} {c : TimedCall} (harmed : (b.run (pre ++ [c])).engaged = true)
    (hroom : Instant.duration_since c.now b.base / 1000000 + b.attack_window / 1000000 < 2 ^ 64)
    {wrap : Nat} {mid : List TimedCall} (hord : Ordered (pre ++ c :: mid))
    (hin : ∀ d ∈ mid, d.now < c.now + b.attack_window) (hquiet : ¬ b.Rearmed pre c mid)
    (hwrap : wrap = 1 ∨ drops (pre ++ c :: mid) < 2 ^ 64) {last : Instant}
    (hlast : ∀ d ∈ mid, d.now ≤ last) :
    Dropped thresh.toNat wrap c.now last (b.run (pre ++ c :: mid))
      (drops_between c.now (c.now + b.attack_window) mid) := by
  -- induction on the calls since; the last one is a drop inside the window, or changes nothing
  induction mid using List.reverseRecOn generalizing last with
  | nil => exact .none
  | append_singleton mid d ih =>
    have happ : pre ++ c :: (mid ++ [d]) = (pre ++ c :: mid) ++ [d] := by simp
    rw [happ] at hord hwrap ⊢
    have hdlast : d.now ≤ last := hlast d (by simp)
    have hwindow : d.now < c.now + b.attack_window := hin d (by simp)
    have hmono : drops (pre ++ c :: mid) ≤ drops ((pre ++ c :: mid) ++ [d]) :=
      ((List.sublist_append_left _ _).filter _).length_le
    have hquiet' : ¬ b.Rearmed pre c mid := by
      rintro ⟨m, e, rest, rfl, he⟩
      exact hquiet ⟨m, e, rest ++ [d], by simp, he⟩
    have hbefore : Dropped thresh.toNat wrap c.now d.now (b.run (pre ++ c :: mid))
        (drops_between c.now (c.now + b.attack_window) mid) :=
      ih hord.init (fun e he => hin e (List.mem_append_left _ he)) hquiet'
        (hwrap.imp_right hmono.trans_lt) (fun e he => hord.le_last e (by simp [he]))
    suffices hnow : Dropped thresh.toNat wrap c.now d.now (b.run (pre ++ c :: mid ++ [d]))
        (drops_between c.now (c.now + b.attack_window) (mid ++ [d])) from hnow.later hdlast
    rw [run_snoc, drops_between_snoc]
    by_cases hcall : d.call = .shed
    swap
    · rw [if_neg (fun h => hcall h.1)]
      exact hbefore.other hcall le_rfl
    by_cases hu : c.now < d.now
    swap
    · -- a drop at `c.now` itself, and so were the calls before it
      have hzero : drops_between c.now (c.now + b.attack_window) mid = 0 := by
        unfold drops_between
        rw [List.filter_eq_nil_iff.mpr]
        · rfl
        · intro e he
          have hle : e.now ≤ d.now := hord.le_last e (by simp [he])
          rw [decide_eq_true_eq]
          intro hlater
          exact hu (hlater.1.trans_le hle)
      rw [if_neg (fun h => hu h.2.1), hzero]
      exact .none
    rw [if_pos ⟨hcall, hu, hwindow⟩]
    have hthresh' : (b.run (pre ++ c :: mid)).drop_threshold = some thresh := by
      unfold drop_threshold at hthresh ⊢
      rwa [run_rejection_threshold, run_attack_threshold]
    have hengaged : (b.run (pre ++ c :: mid)).engaged = true := by
      rw [show pre ++ c :: mid = (pre ++ [c]) ++ mid by simp, run_append]
      exact run_engaged harmed mid
    refine hbefore.drop hpos hengaged hthresh' hcall ?_ hu le_rfl ?_ ?_
    · intro harms
      exact hquiet ⟨mid, d, [], rfl, hu, hwindow, harms⟩
    · -- a window that began after `c.now` is not over yet
      intro t ht hle hstart
      refine not_opens_drop_window (u := c.now) ?_ ?_ ht ?_ hle hstart
      · rwa [run_base, run_attack_window]
      · rwa [run_attack_window]
      · rwa [run_attack_window]
    · -- the counter is at most the number of drops, so it does not overflow
      refine hwrap.imp_right fun hfew => ?_
      have hle := drop_count_le hcount (pre ++ c :: mid)
      rw [drops_snoc, if_pos hcall] at hfew
      exact (Nat.succ_le_succ hle).trans_lt hfew

theorem Ordered.split_at {calls : List TimedCall} (h : Ordered calls) (v : Instant) :
    ∃ early late, calls = early ++ late ∧ (∀ d ∈ early, d.now < v) ∧ ∀ d ∈ late, v ≤ d.now := by
  induction calls with
  | nil => exact ⟨[], [], rfl, by simp, by simp⟩
  | cons c calls ih =>
    obtain ⟨hc, hrest⟩ := List.pairwise_cons.mp h
    by_cases hlt : c.now < v
    · obtain ⟨early, late, rfl, hearly, hlate⟩ := ih hrest
      exact ⟨c :: early, late, rfl, List.forall_mem_cons.mpr ⟨hlt, hearly⟩, hlate⟩
    · have hle : v ≤ c.now := Nat.not_lt.mp hlt
      refine ⟨[], c :: calls, rfl, by simp, List.forall_mem_cons.mpr ⟨hle, ?_⟩⟩
      exact fun d hd => hle.trans (hc d hd)

theorem drops_between_late {u v : Instant} {early late : List TimedCall}
    (h : ∀ d ∈ late, v ≤ d.now) :
    drops_between u v (early ++ late) = drops_between u v early := by
  unfold drops_between
  rw [List.filter_append, List.filter_eq_nil_iff (l := late) |>.mpr, List.append_nil]
  intro d hd
  rw [decide_eq_true_eq]
  intro hin
  exact absurd hin.2 (Nat.not_lt.mpr (h d hd))

/-- Once the lockdown is armed until one window later, more than twice the threshold of drops in
    that time arm it again; one more is needed when the drop counter may have overflowed. -/
theorem rearmed_of_drops {T A R : UInt32} {D W : UInt64} {max_entries : Nat} {base : Instant}
    {pre post : List TimedCall} {c : TimedCall} (hord : Ordered (pre ++ c :: post)) :
    let b := new T D A R W max_entries base
    let thresh := if 0 < R then R else A
    let dropped := drops_between c.now (c.now + b.attack_window) post
    0 < thresh → (b.run pre).arms c → (b.run pre).ArmsExactly c.now →
      2 * thresh.toNat + 1 < dropped ∨
        2 * thresh.toNat < dropped ∧ drops (pre ++ c :: post) < 2 ^ 64 →
      b.Rearmed pre c post := by
  intro b thresh dropped hpos harms hexact hflood
  have hthresh : b.drop_threshold = some thresh := by
    change (if 0 < R then some R else if 0 < A then some A else none) =
      some (if 0 < R then R else A)
    by_cases hR : 0 < R
    · rw [if_pos hR, if_pos hR]
    · have hA : 0 < A := by simpa [thresh, hR] using hpos
      rw [if_neg hR, if_neg hR, if_pos hA]
  have hwhole : 1000000 ∣ b.attack_window := ⟨(max W 1).toNat * 1000, by
    change (max W 1).toNat * 1000000000 = _
    omega⟩
  have hwindow : 0 < b.attack_window := Duration.from_secs_max_pos W
  -- the timer shows the sum, which therefore fits
  have hsum : Instant.duration_since c.now b.base / 1000000 + b.attack_window / 1000000 ≤
      ((b.run pre).arm_lockdown c.now).lockdown_until_ms.toNat := by
    have h := hexact
    unfold ArmsExactly at h
    rw [run_base, run_attack_window] at h
    rw [h]
    exact Nat.le_max_right _ _
  have harmed : (b.run (pre ++ [c])).engaged = true := by
    have htimer : (b.run (pre ++ [c])).lockdown_until_ms =
        ((b.run pre).arm_lockdown c.now).lockdown_until_ms := by
      rw [run_snoc, step_lockdown, if_pos harms]
      rfl
    obtain ⟨k, hk⟩ := hwhole
    unfold engaged
    rw [htimer, bne_iff_ne]
    intro hzero
    rw [hzero, hk] at hsum
    have hk0 : 0 < k := Nat.pos_of_ne_zero fun h0 => by
      rw [hk, h0] at hwindow
      exact absurd hwindow (Nat.lt_irrefl _)
    rw [Nat.mul_div_cancel_left k (by decide)] at hsum
    exact absurd (hk0.trans_le (Nat.le_add_left k _)) (Nat.not_lt.mpr hsum)
  by_contra hno
  have hpost : Ordered post := (List.pairwise_cons.mp (List.pairwise_append.mp hord).2.1).2
  obtain ⟨early, late, rfl, hearly, hlate⟩ := hpost.split_at (c.now + b.attack_window)
  have hdropped : dropped = drops_between c.now (c.now + b.attack_window) early :=
    drops_between_late hlate
  have hinit : pre ++ c :: early <+: pre ++ c :: (early ++ late) := ⟨late, by simp⟩
  have hquiet : ¬ b.Rearmed pre c early := by
    rintro ⟨mid, d, rest, rfl, hd⟩
    exact hno ⟨mid, d, rest ++ late, by simp, hd⟩
  obtain ⟨wrap, hwrap, hover⟩ : ∃ wrap, (wrap = 1 ∨ drops (pre ++ c :: early) < 2 ^ 64) ∧
      2 * thresh.toNat + wrap < dropped := by
    rcases hflood with hmore | ⟨hmore, hfew⟩
    · exact ⟨1, .inl rfl, hmore⟩
    · exact ⟨0, .inr ((hinit.sublist.filter _).length_le.trans_lt hfew), hmore⟩
  have hcounted := Dropped.run hthresh hpos rfl hwhole harmed
    (hsum.trans_lt (UInt64.toNat_lt _)) (hord.sublist hinit.sublist) hearly hquiet hwrap
    (fun d hd => (hearly d hd).le)
  exact absurd (hdropped ▸ hcounted.le) (Nat.not_le.mpr hover)

/-- The second of two rejections arms the timer at 500 ms. -/
def rejection_at_500 : TimedCall := ⟨500000000, .note_rejection⟩

/-- Drops at 600 ms and at 1.1 s, in two windows of the drop counter. -/
def split_drops : List TimedCall := [⟨600000000, .shed⟩, ⟨1100000000, .shed⟩]

theorem rearmed_of_drops_third :
    (new 0 300 0 1 1 0 0).Rearmed [rejection_at_500] rejection_at_500
      (split_drops ++ [⟨1200000000, .shed⟩]) :=
  rearmed_of_drops (T := 0) (A := 0) (R := 1) (D := 300) (W := 1)
    (by unfold Ordered; decide) (by decide) (show _ ∧ _ by decide) (by decide)
    (.inr ⟨by decide, by decide⟩)

/-- With a threshold of one, two drops within the second after the timer was armed do not arm it
    again, and the lockdown ends. -/
theorem split_drops_not_rearmed :
    let b := new 0 300 0 1 1 0 0
    Ordered ([rejection_at_500] ++ rejection_at_500 :: split_drops) ∧
      (b.run [rejection_at_500]).arms rejection_at_500 ∧
      (b.run [rejection_at_500]).ArmsExactly rejection_at_500.now ∧
      1 < drops_between 500000000 (500000000 + b.attack_window) split_drops ∧
      ¬ b.Rearmed [rejection_at_500] rejection_at_500 split_drops ∧
      (b.run ([rejection_at_500] ++ rejection_at_500 :: split_drops)).under_attack
        1500000000 = false := by
  refine ⟨by unfold Ordered; decide, show _ ∧ _ by decide, by decide, by decide, ?_, by decide⟩
  rintro ⟨mid, d, rest, hsplit, -, -, harms⟩
  -- the timer would be past 1.5 s
  have hd : d ∈ split_drops := by rw [hsplit]; simp
  have hlate : ∀ d ∈ split_drops, let b := new 0 300 0 1 1 0 0
      (1500 : UInt64) < b.now_ms d.now + Duration.as_millis b.attack_window := by
    decide
  have hpast : (1500 : UInt64) < ((new 0 300 0 1 1 0 0).run
      ([rejection_at_500] ++ rejection_at_500 :: split_drops)).lockdown_until_ms := by
    refine lt_lockdown_iff.mpr (.inr ⟨_, d, ⟨rest, ?_⟩, harms, hlate d hd⟩)
    rw [hsplit]
    simp
  exact absurd hpast (by decide)

end Blacklist

end SignedPulse
