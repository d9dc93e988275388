import Mathlib.Data.List.Induction
import Mathlib.Order.Nat

/-! # Fixed-window counters

    A counter grants at most `M` requests per window of length `W`. A window
    begins with the first request after the end of the one before, so windows
    do not overlap, but need not follow each other at once.

    - `granted_within`: no interval of length `W` sees more than `2 * M` grants
    - `refused_after`: a request is refused only after `M` grants within `W`
-/

namespace FixedWindow

/-- The window that is running, and the requests that were granted in it. -/
structure Count where
  start : Nat
  count : Nat
  deriving DecidableEq

/-- The window in which a request at `t` is counted. -/
def current (W : Nat) (t : Nat) (old : Option Count) : Count :=
  match old with
  | some w => if W ≤ t - w.start then { start := t, count := 0 } else w
  | none => { start := t, count := 0 }

/-- A request at `t`: whether it is granted, and the window afterwards. -/
def offer (M W : Nat) (t : Nat) (old : Option Count) : Bool × Count :=
  let w := current W t old
  if M ≤ w.count then (false, w) else (true, { w with count := w.count + 1 })

/-- The window after some requests. -/
def run (M W : Nat) (times : List Nat) : Option Count :=
  times.foldl (fun old t => some (offer M W t old).2) none

/-- Each request with the answer to it. -/
def decisions (M W : Nat) (old : Option Count) : List Nat → List (Nat × Bool)
  | [] => []
  | t :: times => (t, (offer M W t old).1) :: decisions M W (some (offer M W t old).2) times

/-- When requests were granted. -/
def granted (ds : List (Nat × Bool)) : List Nat := (ds.filter (fun d => d.2)).map (fun d => d.1)

section decisions
variable {M W : Nat}

@[simp] theorem run_nil : run M W [] = none := rfl

theorem run_snoc (times : List Nat) (t : Nat) :
    run M W (times ++ [t]) = some (offer M W t (run M W times)).2 := by
  simp [run]

theorem decisions_snoc (times : List Nat) (t : Nat) :
    decisions M W none (times ++ [t]) =
      decisions M W none times ++ [(t, (offer M W t (run M W times)).1)] := by
  have key (old : Option Count) : decisions M W old (times ++ [t]) = decisions M W old times ++
      [(t, (offer M W t (times.foldl (fun old t => some (offer M W t old).2) old)).1)] := by
    induction times generalizing old with
    | nil => rfl
    | cons t' times ih =>
      rw [List.cons_append, decisions, ih]
      rfl
  exact key none

theorem granted_snoc (ds : List (Nat × Bool)) (d : Nat × Bool) :
    granted (ds ++ [d]) = granted ds ++ if d.2 then [d.1] else [] := by
  unfold granted
  cases h : d.2 <;> simp [h]

/-- Only what was asked for is granted. -/
theorem mem_of_granted {times : List Nat} {s : Nat}
    (h : s ∈ granted (decisions M W none times)) : s ∈ times := by
  induction times using List.reverseRecOn with
  | nil => exact h
  | append_singleton times t ih =>
    rw [decisions_snoc, granted_snoc] at h
    rcases List.mem_append.mp h with h | h
    · exact List.mem_append_left _ (ih h)
    · split at h
      · exact List.mem_append_right _ h
      · cases h

/-- One of the decisions, and the requests before it. -/
theorem decisions_split {times : List Nat} {pre post : List (Nat × Bool)} {d : Nat × Bool}
    (h : decisions M W none times = pre ++ d :: post) :
    ∃ before after, times = before ++ d.1 :: after ∧ pre = decisions M W none before ∧
      d.2 = (offer M W d.1 (run M W before)).1 := by
  induction times using List.reverseRecOn generalizing post with
  | nil =>
    have hlength := congrArg List.length h
    simp [decisions] at hlength
  | append_singleton times t ih =>
    rw [decisions_snoc] at h
    rcases List.eq_nil_or_concat post with rfl | ⟨post', y, rfl⟩
    · -- the latest one
      obtain ⟨hpre, hd⟩ := List.append_inj' h rfl
      obtain rfl := (List.cons.inj hd).1
      exact ⟨times, [], rfl, hpre.symm, rfl⟩
    · rw [List.concat_eq_append, ← List.cons_append, ← List.append_assoc] at h
      obtain ⟨hearlier, -⟩ := List.append_inj' h rfl
      obtain ⟨before, after, hsplit, hpre, hd⟩ := ih hearlier
      exact ⟨before, after ++ [t], by rw [hsplit]; simp, hpre, hd⟩

end decisions

/-! ### What the counter knows of its past -/

/-- Grants before the running window, and grants in it. Those before it that are less than `W` away
    from its start all fell into the window before. -/
structure Inv (M W : Nat) (grants : List Nat) (w : Count) : Prop where
  split : ∃ old cur, grants = old ++ cur ∧ (∀ s ∈ old, s < w.start) ∧
    (∀ s ∈ cur, w.start ≤ s ∧ s < w.start + W) ∧ cur.length = w.count ∧
    old.countP (fun s => decide (w.start < s + W)) ≤ M
  spent : w.count ≤ M
  bound : ∀ x, grants.countP (fun s => decide (x ≤ s ∧ s < x + W)) ≤ 2 * M

section inv
variable {M W : Nat} {grants : List Nat} {w : Count} {t : Nat}

theorem Inv.fresh (hM : 1 ≤ M) (hW : 1 ≤ W) : Inv M W [t] { start := t, count := 1 } where
  split := ⟨[], [t], rfl, by simp, by simp; omega, rfl, by simp⟩
  spent := hM
  bound x := by
    rw [List.countP_singleton]
    split <;> omega

/-- A grant in the running window. -/
theorem Inv.grant (h : Inv M W grants w) (hstart : w.start ≤ t) (hrunning : t - w.start < W)
    (hleft : w.count < M) : Inv M W (grants ++ [t]) { w with count := w.count + 1 } := by
  obtain ⟨old, cur, rfl, hold, hcur, hlength, hclose⟩ := h.split
  have hin : ∀ s ∈ cur ++ [t], w.start ≤ s ∧ s < w.start + W := by
    intro s hs
    rcases List.mem_append.mp hs with hs | hs
    · exact hcur s hs
    · rw [List.mem_singleton.mp hs]
      omega
  refine ⟨⟨old, cur ++ [t], by simp, hold, hin, by simp [hlength], hclose⟩, hleft, fun x => ?_⟩
  by_cases hx : x ≤ t ∧ t < x + W
  · -- what lies in the interval before the window is close to its start
    have hbefore : old.countP (fun s => decide (x ≤ s ∧ s < x + W)) ≤ M := by
      refine le_trans (List.countP_mono_left fun s hs hsx => ?_) hclose
      simp only [decide_eq_true_eq] at hsx ⊢
      omega
    have hwithin : cur.countP (fun s => decide (x ≤ s ∧ s < x + W)) ≤ w.count :=
      hlength ▸ List.countP_le_length
    rw [List.countP_append, List.countP_append, List.countP_singleton]
    split <;> omega
  · rw [List.countP_append, List.countP_singleton, if_neg (by simpa using hx)]
    exact h.bound x

/-- A grant that opens a new window. -/
theorem Inv.reopen (h : Inv M W grants w) (hM : 1 ≤ M) (hW : 1 ≤ W) (hover : W ≤ t - w.start) :
    Inv M W (grants ++ [t]) { start := t, count := 1 } := by
  obtain ⟨old, cur, rfl, hold, hcur, hlength, -⟩ := h.split
  have hbefore : ∀ s ∈ old ++ cur, s < t := by
    intro s hs
    rcases List.mem_append.mp hs with hs | hs
    · have := hold s hs
      omega
    · have := (hcur s hs).2
      omega
  -- only the window that is over is less than `W` away
  have hclose : (old ++ cur).countP (fun s => decide (t < s + W)) ≤ M := by
    have hnone : old.countP (fun s => decide (t < s + W)) = 0 := by
      rw [List.countP_eq_zero]
      intro s hs
      have := hold s hs
      simp only [decide_eq_true_eq]
      omega
    rw [List.countP_append, hnone, Nat.zero_add]
    exact le_trans List.countP_le_length (hlength ▸ h.spent)
  refine ⟨⟨old ++ cur, [t], rfl, hbefore, by simp; omega, rfl, hclose⟩, hM, fun x => ?_⟩
  by_cases hx : x ≤ t ∧ t < x + W
  · have hfew : (old ++ cur).countP (fun s => decide (x ≤ s ∧ s < x + W)) ≤ M := by
      refine le_trans (List.countP_mono_left fun s hs hsx => ?_) hclose
      simp only [decide_eq_true_eq] at hsx ⊢
      omega
    rw [List.countP_append, List.countP_singleton]
    split <;> omega
  · rw [List.countP_append, List.countP_singleton, if_neg (by simpa using hx)]
    exact h.bound x

/-- A window that is opened by a request has room for it. -/
theorem offer_none (hM : 1 ≤ M) : offer M W t none = (true, { start := t, count := 1 }) :=
  if_neg (Nat.not_le.mpr hM)

theorem offer_over (hM : 1 ≤ M) (hover : W ≤ t - w.start) :
    offer M W t (some w) = (true, { start := t, count := 1 }) := by
  have hcurrent : current W t (some w) = { start := t, count := 0 } := if_pos hover
  unfold offer
  rw [hcurrent]
  exact if_neg (Nat.not_le.mpr hM)

theorem offer_running (hrunning : t - w.start < W) :
    offer M W t (some w) =
      if M ≤ w.count then (false, w) else (true, { w with count := w.count + 1 }) := by
  have hcurrent : current W t (some w) = w := if_neg (Nat.not_le.mpr hrunning)
  unfold offer
  rw [hcurrent]

end inv

/-! ### Runs -/

section runs
variable {M W : Nat}

/-- What is known after some requests, the latest of which came at `last`. -/
def Known (M W : Nat) (times : List Nat) : Prop :=
  match run M W times with
  | none => times = []
  | some w => Inv M W (granted (decisions M W none times)) w ∧ ∃ t ∈ times, w.start ≤ t

/-- Run lemma. -/
theorem known (hM : 1 ≤ M) (hW : 1 ≤ W) {times : List Nat} (hord : times.Pairwise (· ≤ ·)) :
    Known M W times := by
  induction times using List.reverseRecOn with
  | nil => exact rfl
  | append_singleton times t ih =>
    obtain ⟨hprev, -, hlast⟩ := List.pairwise_append.mp hord
    have hknown := ih hprev
    unfold Known at hknown ⊢
    rw [run_snoc, decisions_snoc, granted_snoc]
    cases hrun : run M W times with
    | none =>
      rw [hrun] at hknown
      rw [show times = [] from hknown, offer_none hM]
      exact ⟨Inv.fresh hM hW, t, by simp, le_rfl⟩
    | some w =>
      rw [hrun] at hknown
      obtain ⟨hinv, t', ht', hstart⟩ := hknown
      have hw : w.start ≤ t := le_trans hstart (hlast t' ht' t (by simp))
      by_cases hover : W ≤ t - w.start
      · rw [offer_over hM hover]
        exact ⟨hinv.reopen hM hW hover, t, by simp, le_rfl⟩
      · rw [offer_running (not_le.mp hover)]
        by_cases hspent : M ≤ w.count
        · rw [if_pos hspent]
          refine ⟨?_, t', by simp [ht'], hstart⟩
          simpa using hinv
        · rw [if_neg hspent]
          exact ⟨hinv.grant hw (not_le.mp hover) (not_le.mp hspent), t, by simp, hw⟩

/-- No half-open interval of length `W` sees more than `2 * M` grants. -/
theorem granted_within (hM : 1 ≤ M) (hW : 1 ≤ W) {times : List Nat}
    (hord : times.Pairwise (· ≤ ·)) (x : Nat) :
    (granted (decisions M W none times)).countP (fun s => decide (x ≤ s ∧ s < x + W)) ≤ 2 * M := by
  have hknown := known hM hW hord
  unfold Known at hknown
  split at hknown
  · rw [hknown]
    exact Nat.zero_le _
  · exact hknown.1.bound x

/-- A request is refused only after `M` grants within the preceding `W`. -/
theorem refused_after (hM : 1 ≤ M) (hW : 1 ≤ W) {times : List Nat} {t : Nat}
    (hord : (times ++ [t]).Pairwise (· ≤ ·))
    (hrefused : (offer M W t (run M W times)).1 = false) :
    M ≤ (granted (decisions M W none times)).countP (fun s => decide (s ≤ t ∧ t < s + W)) := by
  obtain ⟨hprev, -, hlast⟩ := List.pairwise_append.mp hord
  have hpast : ∀ s ∈ granted (decisions M W none times), s ≤ t :=
    fun s hs => hlast s (mem_of_granted hs) t (by simp)
  have hknown := known hM hW hprev
  unfold Known at hknown
  cases hrun : run M W times with
  | none =>
    rw [hrun, offer_none hM] at hrefused
    cases hrefused
  | some w =>
    rw [hrun] at hknown hrefused
    by_cases hover : W ≤ t - w.start
    · rw [offer_over hM hover] at hrefused
      cases hrefused
    · rw [offer_running (not_le.mp hover)] at hrefused
      split at hrefused
      · rename_i hspent
        obtain ⟨old, cur, hgrants, -, hcur, hlength, -⟩ := hknown.1.split
        have hall : cur.countP (fun s => decide (s ≤ t ∧ t < s + W)) = cur.length := by
          rw [List.countP_eq_length]
          intro s hs
          have hlow := (hcur s hs).1
          have hhigh : s ≤ t := hpast s (hgrants ▸ List.mem_append_right _ hs)
          simp only [decide_eq_true_eq]
          omega
        rw [hgrants, List.countP_append, hall, hlength]
        omega
      · cases hrefused

end runs

end FixedWindow
