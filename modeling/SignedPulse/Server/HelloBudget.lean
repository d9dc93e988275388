import SignedPulse.Framework.FixedWindow
import SignedPulse.Server.Purges

/-! # The HELLO budget of one source

    Without a cap the limiter is one fixed-window counter for each source IP:
    what a source is answered depends on its own HELLOs alone, and not on
    purges. The bounds are those of the counter.
-/

namespace SignedPulse

open HashMap

/-- The window of an entry. -/
def Window.toCount (w : Window) : FixedWindow.Count where
  start := w.window_start
  count := w.count.toNat

namespace HelloRateLimiter

/-- When HELLOs of `ip` were checked. -/
def checks_of (ip : IpAddr) (calls : List (Timed Instant Call)) : List Instant :=
  (calls.filter (fun d => d.call = .check ip)).map (fun d => d.now)

/-- The checks of `ip`, and how they were answered. -/
def answers_to (ip : IpAddr) (r : HelloRateLimiter) :
    List (Timed Instant Call) → List (Instant × Bool)
  | [] => []
  | d :: calls =>
    (if d.call = .check ip then [(d.now, (r.check_at ip d.now).1)] else []) ++
      answers_to ip (step r d.now d.call).2 calls

/-- When HELLOs of `ip` were allowed. -/
def allowed (ds : List (Instant × Bool)) : List Instant :=
  (ds.filter (fun d => d.2)).map (fun d => d.1)

/-! ### The counter of a source -/

/-- The entry of a source stands for its counter: it is the running window, or has been purged after
    the end of it. -/
inductive Sync (W : Nat) (now : Instant) : Option Window → Option FixedWindow.Count → Prop where
  | running (old : Option Window) : Sync W now old (old.map Window.toCount)
  | purged (w : FixedWindow.Count) (hover : W ≤ now - w.start) : Sync W now none (some w)

section sync
variable {r : HelloRateLimiter} {now now' : Instant} {old : Option Window}
variable {w : Option FixedWindow.Count}

theorem Sync.later {W : Nat} (h : Sync W now old w) (hle : now ≤ now') : Sync W now' old w := by
  cases h with
  | running => exact .running old
  | purged w hover => exact .purged w (le_trans hover (Nat.sub_le_sub_right hle _))

/-- The next HELLO is counted in the same window. -/
theorem Sync.current (h : Sync r.window now old w) :
    (r.current now old).toCount = FixedWindow.current r.window now w := by
  cases h with
  | running =>
    unfold HelloRateLimiter.current FixedWindow.current
    cases old with
    | none =>
      dsimp only [Option.getD_none, Option.map_none]
      split <;> rfl
    | some w =>
      dsimp only [Option.getD_some, Option.map_some]
      by_cases hover : Instant.duration_since now w.window_start ≥ r.window
      · rw [if_pos hover, if_pos (show r.window ≤ now - w.toCount.start from hover)]
        rfl
      · rw [if_neg hover, if_neg (show ¬ r.window ≤ now - w.toCount.start from hover)]
  | purged w hover =>
    unfold HelloRateLimiter.current FixedWindow.current
    simp only [Option.getD_none, ite_self, hover, if_true]
    rfl

theorem Sync.allows (h : Sync r.window now old w) :
    decide ((r.current now old).count < r.max_per_window) =
      (FixedWindow.offer r.max_per_window.toNat r.window now w).1 := by
  have hcount : (r.current now old).count.toNat = (FixedWindow.current r.window now w).count :=
    congrArg FixedWindow.Count.count h.current
  unfold FixedWindow.offer
  dsimp only
  rw [← hcount]
  split
  · rename_i hspent
    exact decide_eq_false fun hlt => Nat.not_lt.mpr hspent (UInt32.lt_iff_toNat_lt.mp hlt)
  · rename_i hleft
    exact decide_eq_true (UInt32.lt_iff_toNat_lt.mpr (Nat.not_le.mp hleft))

theorem Sync.hit (h : Sync r.window now old w) :
    Sync r.window now (some (r.hit now old))
      (some (FixedWindow.offer r.max_per_window.toNat r.window now w).2) := by
  have hcurrent := h.current
  have hhit : (r.hit now old).toCount =
      (FixedWindow.offer r.max_per_window.toNat r.window now w).2 := by
    show Window.toCount (if (r.current now old).count ≥ r.max_per_window then r.current now old
      else { r.current now old with count := (r.current now old).count + 1 }) = _
    unfold FixedWindow.offer
    dsimp only
    rw [← hcurrent]
    by_cases hspent : (r.current now old).count ≥ r.max_per_window
    · have hspent' : r.max_per_window.toNat ≤ (r.current now old).toCount.count :=
        UInt32.le_iff_toNat_le.mp hspent
      rw [if_pos hspent, if_pos hspent']
    · have hleft : ¬ r.max_per_window.toNat ≤ (r.current now old).toCount.count :=
        fun hle => hspent (UInt32.le_iff_toNat_le.mpr hle)
      rw [if_neg hspent, if_neg hleft]
      -- a count below the budget has room for one more
      have hsmall : (r.current now old).count.toNat + 1 < 2 ^ 32 :=
        lt_of_le_of_lt (Nat.not_le.mp hleft) r.max_per_window.toNat_lt
      have hnext : ((r.current now old).count + 1).toNat = (r.current now old).count.toNat + 1 := by
        rw [UInt32.toNat_add]
        exact Nat.mod_eq_of_lt hsmall
      unfold Window.toCount
      rw [hnext]
  rw [← hhit]
  exact .running (some _)

theorem Sync.purge (h : Sync r.window now old w) :
    Sync r.window now
      (old.filter (fun w => decide (Instant.duration_since now w.window_start < r.window))) w := by
  cases h with
  | purged w hover => exact .purged w hover
  | running =>
    cases old with
    | none => exact .running none
    | some w =>
      rw [Option.filter_some]
      split
      · exact .running (some w)
      · rename_i hover
        exact .purged _ (not_lt.mp fun hlt => hover (decide_eq_true hlt))

end sync

/-! ### Every sequence of calls -/

/-- One call, without a cap. -/
theorem Sync.step {r : HelloRateLimiter} {now : Instant} {call : Call} {ip : IpAddr}
    {w : Option FixedWindow.Count} (hon : r.max_per_window ≠ 0) (hcap : r.max_entries = 0)
    (h : Sync r.window now (AList.lookup ip r.state) w) :
    Sync r.window now (AList.lookup ip (step r now call).2.state)
      (if call = .check ip then some (FixedWindow.offer r.max_per_window.toNat r.window now w).2
        else w) := by
  have hroom (ip' : IpAddr) : Admits r.max_entries r.state ip' := .inr (.inl hcap)
  cases call with
  | purge_stale =>
    rw [if_neg nofun]
    show Sync r.window now (AList.lookup ip (r.state.retain _)) w
    rw [lookup_retain]
    exact h.purge
  | check ip' =>
    show Sync r.window now (AList.lookup ip (r.check_at ip' now).2.state) _
    rw [check_at_eq hon, put_of_admits (hroom ip')]
    by_cases hip : ip' = ip
    · rw [hip, if_pos rfl, AList.lookup_insert]
      exact h.hit
    · rw [if_neg (fun heq => hip (Call.check.inj heq)), AList.lookup_insert_ne (Ne.symm hip)]
      exact h

theorem step_settings (r : HelloRateLimiter) (now : Instant) (call : Call) :
    (step r now call).2.max_per_window = r.max_per_window ∧
      (step r now call).2.window = r.window ∧ (step r now call).2.max_entries = r.max_entries := by
  cases call with
  | purge_stale => exact ⟨rfl, rfl, rfl⟩
  | check ip =>
    show (r.check_at ip now).2.max_per_window = _ ∧ (r.check_at ip now).2.window = _ ∧
      (r.check_at ip now).2.max_entries = _
    by_cases hoff : r.max_per_window = 0
    · rw [check_at_off hoff]
      exact ⟨rfl, rfl, rfl⟩
    · rw [check_at_eq hoff]
      exact ⟨rfl, rfl, rfl⟩

/-- Run lemma: a source is answered as its counter decides. -/
theorem answers_to_eq {ip : IpAddr} {calls : List (Timed Instant Call)} {r : HelloRateLimiter}
    (hon : r.max_per_window ≠ 0) (hcap : r.max_entries = 0) (hord : Timed.Ordered (· ≤ ·) calls)
    {w : Option FixedWindow.Count}
    (h : ∀ d ∈ calls, Sync r.window d.now (AList.lookup ip r.state) w) :
    answers_to ip r calls =
      FixedWindow.decisions r.max_per_window.toNat r.window w (checks_of ip calls) := by
  induction calls generalizing r w with
  | nil => rfl
  | cons d calls ih =>
    obtain ⟨hlater, hord⟩ := List.pairwise_cons.mp hord
    obtain ⟨hmax, hwindow, hentries⟩ := step_settings r d.now d.call
    have hnow := h d List.mem_cons_self
    have hrest := ih (r := (step r d.now d.call).2) (by rwa [hmax]) (by rwa [hentries]) hord
      (fun d' hd' => by rw [hwindow]; exact (hnow.step hon hcap).later (hlater d' hd'))
    unfold answers_to checks_of
    rw [hrest, hmax, hwindow]
    by_cases hcall : d.call = .check ip
    · have hroom : Admits r.max_entries r.state ip := .inr (.inl hcap)
      rw [if_pos hcall, if_pos hcall, List.filter_cons_of_pos (by simpa using hcall),
        check_at_answer hon hroom, hnow.allows]
      rfl
    · rw [if_neg hcall, if_neg hcall, List.filter_cons_of_neg (by simpa using hcall)]
      rfl

/-- What the limiter promises about one source, over any calls for any sources and any purges. -/
theorem hello_budget (max_per_window : UInt32) (hM : 1 ≤ max_per_window) (window_seconds : UInt64)
    (calls : List (Timed Instant Call)) (hord : Timed.Ordered (· ≤ ·) calls) (ip : IpAddr) :
    let r := new max_per_window window_seconds 0
    (∀ t, (allowed (answers_to ip r calls)).countP (fun s => decide (t ≤ s ∧ s < t + r.window)) ≤
      2 * max_per_window.toNat) ∧
    (∀ pre t post, answers_to ip r calls = pre ++ (t, false) :: post →
      max_per_window.toNat ≤
        (allowed pre).countP (fun s => decide (s ≤ t ∧ t < s + r.window))) ∧
    (∀ calls', Timed.Ordered (· ≤ ·) calls' → checks_of ip calls' = checks_of ip calls →
      answers_to ip r calls' = answers_to ip r calls) := by
  intro r
  have hpos : 1 ≤ max_per_window.toNat := UInt32.le_iff_toNat_le.mp hM
  have hon : r.max_per_window ≠ 0 := by
    intro hzero
    rw [show max_per_window = 0 from hzero] at hpos
    exact absurd hpos (by decide)
  have hwindow : 1 ≤ r.window := Duration.from_secs_max_pos window_seconds
  -- the answers to one source are those of a fixed window
  have heq (calls : List (Timed Instant Call)) (hord : Timed.Ordered (· ≤ ·) calls) :
      answers_to ip r calls =
        FixedWindow.decisions max_per_window.toNat r.window none (checks_of ip calls) :=
    answers_to_eq hon rfl hord fun _ _ => .running none
  have hsorted : (checks_of ip calls).Pairwise (· ≤ ·) :=
    List.Pairwise.map _ (fun _ _ hle => hle) (hord.sublist List.filter_sublist)
  refine ⟨fun t => ?_, ?_, ?_⟩
  · rw [heq calls hord]
    exact FixedWindow.granted_within hpos hwindow hsorted t
  · intro pre t post hsplit
    rw [heq calls hord] at hsplit
    obtain ⟨before, after, htimes, rfl, hrefused⟩ := FixedWindow.decisions_split hsplit
    refine FixedWindow.refused_after hpos hwindow ?_ hrefused.symm
    rw [htimes] at hsorted
    exact hsorted.sublist (List.Sublist.append_left (by simp) _)
  · intro calls' hord' hsame
    rw [heq calls hord, heq calls' hord', hsame]

/-- The HELLOs of one source next to those of another, with a purge between them. -/
def shared_limiter : List (Timed Instant Call) :=
  let ip : IpAddr := .sample 1
  let other : IpAddr := .sample 2
  [⟨0, .check ip⟩, ⟨0, .check other⟩, ⟨59000000000, .check ip⟩, ⟨60000000000, .purge_stale⟩,
    ⟨60000000000, .check ip⟩]

/-- With a budget of one a source is allowed twice in a minute and a nanosecond, and what it is
    answered is what it is answered alone. -/
theorem hello_budget_shared :
    let ip : IpAddr := .sample 1
    answers_to ip (new 1 60 0) shared_limiter =
      [(0, true), (59000000000, false), (60000000000, true)] ∧
    1 ≤ (allowed [(0, true)]).countP (fun s => decide (s ≤ 59000000000 ∧ 59000000000 <
      s + (new 1 60 0).window)) ∧
    (allowed (answers_to ip (new 1 60 0) shared_limiter)).countP
      (fun s => decide (1 ≤ s ∧ s < 1 + (new 1 60 0).window)) ≤ 2 * 1 ∧
    answers_to ip (new 1 60 0)
        [⟨0, .check ip⟩, ⟨59000000000, .check ip⟩, ⟨60000000000, .check ip⟩] =
      answers_to ip (new 1 60 0) shared_limiter := by
  intro ip
  have hord : Timed.Ordered (· ≤ ·) shared_limiter := by unfold Timed.Ordered; decide
  have hanswers : answers_to ip (new 1 60 0) shared_limiter =
      [(0, true), (59000000000, false), (60000000000, true)] := by decide
  obtain ⟨hwithin, hrefused, halone⟩ := hello_budget 1 (by decide) 60 shared_limiter hord ip
  refine ⟨hanswers, ?_, hwithin 1, ?_⟩
  · exact hrefused [(0, true)] 59000000000 [(60000000000, true)] hanswers
  · exact halone _ (by unfold Timed.Ordered; decide) (by decide)

end HelloRateLimiter

end SignedPulse
