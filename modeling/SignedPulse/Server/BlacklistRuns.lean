import SignedPulse.Server.Blacklist
import Mathlib.Data.List.Induction

/-! # Runs of the blacklist

    The server drives the blacklist by timed calls from its receive loop, its
    handlers and its cleanup task. This file sets up runs of such calls and
    says, call by call, what stays as it is:

    - `run_settings`: the configured limits never change
    - `lookup_step`: an unbounded table is a family of independent entries,
      each following `track`
-/

namespace SignedPulse

namespace Blacklist

/-! ### Calls -/

/-- The hold-down timer has been armed. -/
def engaged (b : Blacklist) : Bool := b.lockdown_until_ms != 0

theorem engaged_of_under_attack {b : Blacklist} {now : Instant} (h : b.under_attack now = true) :
    b.engaged = true := by
  unfold under_attack at h
  split at h
  · simp at h
  · have hlt : b.now_ms now < b.lockdown_until_ms := of_decide_eq_true h
    simp only [engaged, bne_iff_ne, ne_eq]
    intro h0
    rw [h0] at hlt
    exact absurd hlt UInt64.not_lt_zero

inductive Call where
  | record_faulty (ip : IpAddr)
  | note_rejection
  | is_blocked (ip : IpAddr)
  /-- The receive loop has seen the lockdown on, and drops a packet. -/
  | shed
  | purge_stale
  deriving DecidableEq

structure TimedCall where
  now : Instant
  call : Call
  deriving DecidableEq

def step (b : Blacklist) (c : TimedCall) : Blacklist :=
  match c.call with
  | .record_faulty ip => (b.record_faulty ip c.now).2
  | .note_rejection => b.note_rejection c.now
  | .is_blocked _ => b
  | .shed => if b.engaged then b.note_lockdown_drop c.now else b
  | .purge_stale => b.purge_stale c.now

def run (b : Blacklist) (calls : List TimedCall) : Blacklist := calls.foldl step b

@[simp] theorem run_nil (b : Blacklist) : b.run [] = b := rfl

@[simp] theorem run_snoc (b : Blacklist) (calls : List TimedCall) (c : TimedCall) :
    b.run (calls ++ [c]) = (b.run calls).step c := by
  simp [run]

/-- Calls come at non-decreasing times. -/
def Ordered (calls : List TimedCall) : Prop := calls.Pairwise (fun c d => c.now ≤ d.now)

theorem Ordered.init {calls : List TimedCall} {c : TimedCall} (h : Ordered (calls ++ [c])) :
    Ordered calls := (List.pairwise_append.mp h).1

theorem Ordered.le_last {calls : List TimedCall} {c : TimedCall} (h : Ordered (calls ++ [c])) :
    ∀ d ∈ calls, d.now ≤ c.now := by
  intro d hd
  exact (List.pairwise_append.mp h).2.2 d hd c (by simp)

/-! ### What a call leaves alone -/

theorem arm_lockdown_engaged (b : Blacklist) (now : Instant) (h : b.engaged = true) :
    (b.arm_lockdown now).engaged = true := by
  simp only [engaged, bne_iff_ne, ne_eq, arm_lockdown] at h ⊢
  intro h0
  rw [show ∀ a b : UInt64, max a b = if a ≤ b then b else a from fun _ _ => rfl] at h0
  split at h0
  · rename_i hle
    rw [h0] at hle
    exact h (UInt64.le_zero_iff.mp hle)
  · exact h h0

/-- Once armed, the timer stays armed. -/
theorem step_engaged (b : Blacklist) (c : TimedCall) (h : b.engaged = true) :
    (b.step c).engaged = true := by
  unfold step
  cases c.call with
  | record_faulty ip =>
    dsimp only
    unfold record_faulty record_faulty_at count_fault note_event
    dsimp only
    repeat' split
    all_goals first | exact h | exact arm_lockdown_engaged _ _ h
  | note_rejection =>
    dsimp only
    unfold note_rejection
    dsimp only
    repeat' split
    all_goals first | exact h | exact arm_lockdown_engaged _ _ h
  | is_blocked => exact h
  | shed =>
    dsimp only
    unfold note_lockdown_drop
    dsimp only
    repeat' split
    all_goals first | exact h | exact arm_lockdown_engaged _ _ h
  | purge_stale => exact h

/-- The fields that are set once by `new`. -/
structure Settings where
  threshold : UInt32
  duration : Duration
  attack_threshold : UInt32
  rejection_threshold : UInt32
  attack_window : Duration
  max_entries : Nat
  base : Instant

def settings (b : Blacklist) : Settings where
  threshold := b.threshold
  duration := b.duration
  attack_threshold := b.attack_threshold
  rejection_threshold := b.rejection_threshold
  attack_window := b.attack_window
  max_entries := b.max_entries
  base := b.base

@[simp] theorem arm_lockdown_settings (b : Blacklist) (now : Instant) :
    (b.arm_lockdown now).settings = b.settings := rfl

@[simp] theorem note_lockdown_drop_settings (b : Blacklist) (now : Instant) :
    (b.note_lockdown_drop now).settings = b.settings := by
  unfold note_lockdown_drop
  dsimp only
  repeat' split
  all_goals rfl

@[simp] theorem note_rejection_settings (b : Blacklist) (now : Instant) :
    (b.note_rejection now).settings = b.settings := by
  unfold note_rejection
  dsimp only
  repeat' split
  all_goals rfl

@[simp] theorem note_event_settings (b : Blacklist) (now : Instant) :
    (b.note_event now).settings = b.settings := by
  unfold note_event
  dsimp only
  split <;> rfl

@[simp] theorem count_fault_settings (b : Blacklist) (ip : IpAddr) (now : Instant) :
    (b.count_fault ip now).2.settings = b.settings := by
  unfold count_fault
  split <;> rfl

@[simp] theorem record_faulty_settings (b : Blacklist) (ip : IpAddr) (now : Instant) :
    (b.record_faulty ip now).2.settings = b.settings := by
  unfold record_faulty record_faulty_at
  dsimp only
  repeat' split
  all_goals simp

theorem step_settings (b : Blacklist) (c : TimedCall) : (b.step c).settings = b.settings := by
  unfold step
  split
  · simp
  · simp
  · rfl
  · split <;> simp
  · rfl

theorem run_settings (b : Blacklist) (calls : List TimedCall) :
    (b.run calls).settings = b.settings := by
  induction calls using List.reverseRecOn with
  | nil => rfl
  | append_singleton calls c ih => rw [run_snoc, step_settings, ih]

section settings
variable (b : Blacklist) (calls : List TimedCall)

@[simp] theorem run_threshold : (b.run calls).threshold = b.threshold :=
  congrArg Settings.threshold (run_settings b calls)

@[simp] theorem run_duration : (b.run calls).duration = b.duration :=
  congrArg Settings.duration (run_settings b calls)

@[simp] theorem run_rejection_threshold :
    (b.run calls).rejection_threshold = b.rejection_threshold :=
  congrArg Settings.rejection_threshold (run_settings b calls)

@[simp] theorem run_attack_window : (b.run calls).attack_window = b.attack_window :=
  congrArg Settings.attack_window (run_settings b calls)

@[simp] theorem run_max_entries : (b.run calls).max_entries = b.max_entries :=
  congrArg Settings.max_entries (run_settings b calls)

end settings

/-! ### The entry of one IP -/

/-- What a call does to the entry of `ip`, when the table is unbounded. -/
def track (threshold : UInt32) (duration : Duration) (ip : IpAddr) (o : Option Entry)
    (c : TimedCall) : Option Entry :=
  match c.call with
  | .record_faulty ip' =>
    if ip' = ip then
      some (fault threshold duration c.now (o.getD { faults := 0, blocked_until := none })).2
    else o
  | .purge_stale => o.filter (fun e => e.blocks c.now)
  | _ => o

@[simp] theorem note_event_state (b : Blacklist) (now : Instant) :
    (b.note_event now).state = b.state := by
  unfold note_event
  dsimp only
  split <;> rfl

@[simp] theorem note_rejection_state (b : Blacklist) (now : Instant) :
    (b.note_rejection now).state = b.state := by
  unfold note_rejection
  dsimp only
  repeat' split
  all_goals rfl

@[simp] theorem note_lockdown_drop_state (b : Blacklist) (now : Instant) :
    (b.note_lockdown_drop now).state = b.state := by
  unfold note_lockdown_drop
  dsimp only
  repeat' split
  all_goals rfl

/-- The table after a faulty packet that is counted. -/
theorem record_faulty_counted {b : Blacklist} (ip : IpAddr) (now : Instant) (hT : b.threshold ≠ 0)
    (hroom : ¬ (b.max_entries > 0 ∧ b.state.len ≥ b.max_entries ∧ ip ∉ b.state)) :
    (b.record_faulty ip now).2.state = AList.insert ip (fault b.threshold b.duration now
      ((AList.lookup ip b.state).getD { faults := 0, blocked_until := none })).2 b.state := by
  simp only [record_faulty, record_faulty_at, hT, if_false, count_fault, hroom]
  split <;> simp

/-- The table after a faulty packet that is not counted. -/
theorem record_faulty_refused {b : Blacklist} (ip : IpAddr) (now : Instant)
    (h : b.threshold = 0 ∨ b.max_entries > 0 ∧ b.state.len ≥ b.max_entries ∧ ip ∉ b.state) :
    (b.record_faulty ip now).2.state = b.state := by
  unfold record_faulty record_faulty_at count_fault
  rcases h with hT | hfull
  · rw [if_pos hT]
  · simp only [hfull, and_self, not_false_eq_true, if_true]
    split <;> rfl

/-- A faulty packet counts on the entry of its own IP, or the table is full. -/
theorem lookup_record_faulty (b : Blacklist) (ip ip' : IpAddr) (now : Instant) :
    AList.lookup ip (b.record_faulty ip' now).2.state = AList.lookup ip b.state ∨
      ip' = ip ∧ AList.lookup ip (b.record_faulty ip' now).2.state =
        some (fault b.threshold b.duration now
          ((AList.lookup ip b.state).getD { faults := 0, blocked_until := none })).2 := by
  by_cases hrefused : b.threshold = 0 ∨
      b.max_entries > 0 ∧ b.state.len ≥ b.max_entries ∧ ip' ∉ b.state
  · exact .inl (congrArg (AList.lookup ip) (record_faulty_refused ip' now hrefused))
  obtain ⟨hT, hroom⟩ := not_or.mp hrefused
  rw [record_faulty_counted ip' now hT hroom]
  by_cases hip : ip' = ip
  · subst hip
    exact .inr ⟨rfl, AList.lookup_insert _⟩
  · exact .inl (AList.lookup_insert_ne (Ne.symm hip))

/-- An unbounded table counts every faulty packet. -/
theorem record_faulty_state {b : Blacklist} (hT : b.threshold ≠ 0) (hM : b.max_entries = 0)
    (ip : IpAddr) (now : Instant) :
    (b.record_faulty ip now).2.state = AList.insert ip (fault b.threshold b.duration now
      ((AList.lookup ip b.state).getD { faults := 0, blocked_until := none })).2 b.state :=
  record_faulty_counted ip now hT (by omega)

/-- An unbounded table is a family of independent entries. -/
theorem lookup_step {b : Blacklist} (hT : b.threshold ≠ 0) (hM : b.max_entries = 0)
    (ip : IpAddr) (c : TimedCall) :
    AList.lookup ip (b.step c).state =
      track b.threshold b.duration ip (AList.lookup ip b.state) c := by
  unfold step track
  cases c.call with
  | record_faulty ip' =>
    simp only
    rw [record_faulty_state hT hM]
    by_cases h : ip' = ip
    · subst h; simp
    · rw [AList.lookup_insert_ne (Ne.symm h), if_neg h]
  | note_rejection => simp
  | is_blocked => rfl
  | shed => simp only; split <;> simp
  | purge_stale => exact HashMap.lookup_retain _ _ _

/-- A source of bad packets, for sample runs. -/
def noisy_ip : IpAddr := .V4 ⟨[203, 0, 113, 7], rfl⟩

end Blacklist

end SignedPulse
