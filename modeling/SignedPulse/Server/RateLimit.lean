import SignedPulse.Framework.HashMap
import SignedPulse.Framework.Text
import SignedPulse.Server.Environment

/-! # Rate limits

    The per-IP HELLO budget, the per-key cooldown of hook executions, and the
    source IPs that recently completed an exchange.
-/

namespace SignedPulse

/-! ### HELLO budget -/

structure Window where
  window_start : Instant
  count : UInt32
  deriving DecidableEq

structure HelloRateLimiter where
  max_per_window : UInt32
  window : Duration
  max_entries : Nat
  state : HashMap IpAddr Window

namespace HelloRateLimiter

def new (max_per_window : UInt32) (window_seconds : UInt64) (max_entries : Nat) :
    HelloRateLimiter where
  max_per_window := max_per_window
  window := Duration.from_secs (max window_seconds 1)
  max_entries := max_entries
  state := ∅

/-- Whether the HELLO is within the budget of its source IP. -/
def check_at (r : HelloRateLimiter) (ip : IpAddr) (now : Instant) : Bool × HelloRateLimiter :=
  if r.max_per_window = 0 then (true, r)
  else if r.max_entries > 0 ∧ r.state.len ≥ r.max_entries ∧ ip ∉ r.state then (true, r)
  else
    let entry := (AList.lookup ip r.state).getD { window_start := now, count := 0 }
    let entry :=
      if Instant.duration_since now entry.window_start ≥ r.window then
        { window_start := now, count := 0 }
      else entry
    if entry.count ≥ r.max_per_window then
      (false, { r with state := AList.insert ip entry r.state })
    else
      (true, { r with state := AList.insert ip { entry with count := entry.count + 1 } r.state })

def purge_stale (r : HelloRateLimiter) (now : Instant) : HelloRateLimiter :=
  { r with
    state := r.state.retain (fun _ w =>
      decide (Instant.duration_since now w.window_start < r.window)) }

end HelloRateLimiter

/-! ### Cooldown -/

structure CooldownTracker where
  cooldown : Duration
  last : HashMap Str Instant

namespace CooldownTracker

def new (cooldown_seconds : UInt64) : CooldownTracker where
  cooldown := Duration.from_secs cooldown_seconds
  last := ∅

/-- Whether `key` is still cooling down. -/
def in_cooldown (c : CooldownTracker) (key : Str) (now : Instant) : Bool :=
  if c.cooldown = 0 then false
  else
    match AList.lookup key c.last with
    | some t => decide (Instant.duration_since now t < c.cooldown)
    | none => false

def mark (c : CooldownTracker) (key : Str) (now : Instant) : CooldownTracker :=
  if c.cooldown = 0 then c else { c with last := AList.insert key now c.last }

def purge_stale (c : CooldownTracker) (now : Instant) : CooldownTracker :=
  if c.cooldown = 0 then c
  else
    { c with
      last := c.last.retain (fun _ t => decide (Instant.duration_since now t < c.cooldown)) }

section entries
variable {c : CooldownTracker} {key k : Str} {now : Instant}

@[simp] theorem mark_cooldown : (c.mark key now).cooldown = c.cooldown := by
  unfold mark
  split <;> rfl

@[simp] theorem purge_stale_cooldown : (c.purge_stale now).cooldown = c.cooldown := by
  unfold purge_stale
  split <;> rfl

theorem lookup_mark (hon : c.cooldown ≠ 0) :
    AList.lookup k (c.mark key now).last = if k = key then some now else AList.lookup k c.last := by
  unfold mark
  rw [if_neg hon]
  split
  · rename_i heq
    rw [heq, AList.lookup_insert]
  · rename_i hne
    exact AList.lookup_insert_ne hne

/-- Only marks that are too old to matter are purged. -/
theorem lookup_purge_stale (hon : c.cooldown ≠ 0) :
    AList.lookup k (c.purge_stale now).last =
      (AList.lookup k c.last).filter
        (fun t => decide (Instant.duration_since now t < c.cooldown)) := by
  unfold purge_stale
  rw [if_neg hon]
  exact HashMap.lookup_retain _ _ _

theorem in_cooldown_iff : c.in_cooldown key now = true ↔
    ∃ t, AList.lookup key c.last = some t ∧ Instant.duration_since now t < c.cooldown := by
  unfold in_cooldown
  split
  · rename_i hoff
    simp [hoff]
  · split
    · rename_i t ht
      simp [ht]
    · rename_i hnone
      simp [hnone]

end entries

/-- A key that is cooling down has been cooling down since it was marked. -/
theorem in_cooldown_of_later {c : CooldownTracker} {key : Str} {now later : Instant}
    (hle : now ≤ later) (h : c.in_cooldown key later = true) : c.in_cooldown key now = true := by
  unfold in_cooldown at h ⊢
  split at h
  · cases h
  · rename_i hon
    rw [if_neg hon]
    split at h
    · rename_i t ht
      have hsince : Instant.duration_since now t ≤ Instant.duration_since later t :=
        Nat.sub_le_sub_right hle t
      rw [decide_eq_true_eq] at h ⊢
      exact lt_of_le_of_lt hsince h
    · cases h

end CooldownTracker

/-! ### Active sources -/

structure ActiveIps where
  ttl : Duration
  max_entries : Nat
  seen : HashMap IpAddr Instant

namespace ActiveIps

def new (ttl_seconds : UInt64) (max_entries : Nat) : ActiveIps where
  ttl := Duration.from_secs (max ttl_seconds 1)
  max_entries := max max_entries 1
  seen := ∅

/-- An IP that is known is refreshed; a new one is refused when the table is full. -/
def mark (a : ActiveIps) (ip : IpAddr) (now : Instant) : ActiveIps :=
  if ip ∈ a.seen ∨ a.seen.len < a.max_entries then
    { a with seen := AList.insert ip now a.seen }
  else a

def is_active_at (a : ActiveIps) (ip : IpAddr) (now : Instant) : Bool :=
  match AList.lookup ip a.seen with
  | some t => decide (Instant.duration_since now t < a.ttl)
  | none => false

def purge_stale (a : ActiveIps) (now : Instant) : ActiveIps :=
  { a with
    seen := a.seen.retain (fun _ t => decide (Instant.duration_since now t < a.ttl)) }

end ActiveIps

end SignedPulse
