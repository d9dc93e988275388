import SignedPulse.Framework.HashMap
import SignedPulse.Server.Environment

/-! # Blacklist and lockdown

    `Blacklist` counts faulty packets per source IP and blocks an IP once it
    sent too many. Two triggers engage the lockdown on top of it: many blocked
    IPs, or many rejected packets, within one `attack_window`. Both share the
    hold-down timer `lockdown_until_ms`.

    Every method reads the monotonic clock; here the reading is its argument
    `now`.
-/

namespace SignedPulse

/-! ### State -/

/-- The faults counted against one source IP. -/
structure Blacklist.Entry where
  faults : UInt32
  /-- `some t` once blacklisted; the IP stays blocked until `t`. -/
  blocked_until : Option Instant
  deriving DecidableEq

structure Blacklist where
  threshold : UInt32
  duration : Duration
  attack_threshold : UInt32
  rejection_threshold : UInt32
  attack_window : Duration
  max_entries : Nat
  state : HashMap IpAddr Blacklist.Entry
  /-- When IPs were newly blocked, oldest first. -/
  events : List Instant
  /-- When packets were rejected, oldest first. -/
  rejections : List Instant
  base : Instant
  lockdown_until_ms : UInt64
  drop_window_start_ms : UInt64
  drop_count : UInt64

namespace Blacklist

def new (threshold : UInt32) (duration_seconds : UInt64) (attack_threshold : UInt32)
    (rejection_threshold : UInt32) (attack_window_seconds : UInt64) (max_entries : Nat)
    (now : Instant) : Blacklist where
  threshold := threshold
  duration := Duration.from_secs duration_seconds
  attack_threshold := attack_threshold
  rejection_threshold := rejection_threshold
  attack_window := Duration.from_secs (max attack_window_seconds 1)
  max_entries := max_entries
  state := ∅
  events := []
  rejections := []
  base := now
  lockdown_until_ms := 0
  drop_window_start_ms := 0
  drop_count := 0

/-! ### Lockdown -/

def now_ms (b : Blacklist) (now : Instant) : UInt64 :=
  Duration.as_millis (Instant.duration_since now b.base)

def under_attack (b : Blacklist) (now : Instant) : Bool :=
  if b.attack_threshold = 0 ∧ b.rejection_threshold = 0 then false
  else decide (b.now_ms now < b.lockdown_until_ms)

/-- Engage, or extend, lockdown for one `attack_window` from now. -/
def arm_lockdown (b : Blacklist) (now : Instant) : Blacklist :=
  let limit := b.now_ms now + Duration.as_millis b.attack_window
  { b with lockdown_until_ms := max b.lockdown_until_ms limit }

/-- A packet was dropped at the lockdown gate. -/
def note_lockdown_drop (b : Blacklist) (now : Instant) : Blacklist :=
  let thresh :=
    if b.rejection_threshold > 0 then some b.rejection_threshold
    else if b.attack_threshold > 0 then some b.attack_threshold
    else none
  match thresh with
  | none => b
  | some thresh =>
    let now_ms := b.now_ms now
    let window_ms := Duration.as_millis b.attack_window
    -- `saturating_sub` on `u64`
    if now_ms.toNat - b.drop_window_start_ms.toNat > window_ms.toNat then
      { b with drop_window_start_ms := now_ms, drop_count := 1 }
    else
      let count := b.drop_count + 1
      let b := { b with drop_count := count }
      if count > thresh.toUInt64 then b.arm_lockdown now else b

/-- Pop the front of the queue while it lies outside the window. -/
def trim (window : Duration) (q : List Instant) (now : Instant) : List Instant :=
  q.dropWhile (fun front => decide (Instant.duration_since now front > window))

/-- A packet was rejected, for any reason. -/
def note_rejection (b : Blacklist) (now : Instant) : Blacklist :=
  if b.rejection_threshold = 0 then b
  else
    let rejections := trim b.attack_window (b.rejections ++ [now]) now
    let b := { b with rejections := rejections }
    if UInt32.ofNat rejections.length > b.rejection_threshold then b.arm_lockdown now else b

/-! ### Blocking -/

/-- An entry that blocks at `now`. -/
def Entry.blocks (e : Entry) (now : Instant) : Bool :=
  match e.blocked_until with
  | some t => decide (now < t)
  | none => false

def is_blocked_at (b : Blacklist) (ip : IpAddr) (now : Instant) : Bool :=
  match AList.lookup ip b.state with
  | some e => e.blocks now
  | none => false

def is_blocked (b : Blacklist) (ip : IpAddr) (now : Instant) : Bool :=
  if b.threshold = 0 then false else b.is_blocked_at ip now

/-- One more fault on an entry, and whether it newly blacklists the IP. -/
def fault (threshold : UInt32) (duration : Duration) (now : Instant) (e : Entry) : Bool × Entry :=
  match e.blocked_until with
  | some t =>
    if now < t then
      -- already blacklisted: extend the block but stay silent
      (false, { e with blocked_until := some (now + duration) })
    else
      -- a previous block expired; start counting fresh
      (decide (1 > threshold), { faults := 1, blocked_until := none })
  | none =>
    let faults := e.faults + 1
    if faults > threshold then
      (true, { faults := faults, blocked_until := some (now + duration) })
    else
      (false, { faults := faults, blocked_until := none })

/-- The part of `record_faulty_at` under the state lock. -/
def count_fault (b : Blacklist) (ip : IpAddr) (now : Instant) : Bool × Blacklist :=
  if b.max_entries > 0 ∧ b.state.len ≥ b.max_entries ∧ ip ∉ b.state then (false, b)
  else
    let entry := (AList.lookup ip b.state).getD { faults := 0, blocked_until := none }
    let r := fault b.threshold b.duration now entry
    (r.1, { b with state := AList.insert ip r.2 b.state })

/-- The part of `record_faulty_at` after a trip: remember it and maybe arm lockdown. -/
def note_event (b : Blacklist) (now : Instant) : Blacklist :=
  let events := trim b.attack_window (b.events ++ [now]) now
  let b := { b with events := events }
  if UInt32.ofNat events.length > b.attack_threshold then b.arm_lockdown now else b

def record_faulty_at (b : Blacklist) (ip : IpAddr) (now : Instant) : Bool × Blacklist :=
  if b.threshold = 0 then (false, b)
  else
    let r := b.count_fault ip now
    if r.1 then (true, r.2.note_event now) else (false, r.2)

def record_faulty (b : Blacklist) (ip : IpAddr) (now : Instant) : Bool × Blacklist :=
  if b.threshold = 0 then (false, b) else b.record_faulty_at ip now

def purge_stale (b : Blacklist) (now : Instant) : Blacklist :=
  { b with
    state := b.state.retain (fun _ e => e.blocks now)
    events := trim b.attack_window b.events now
    rejections := trim b.attack_window b.rejections now }

end Blacklist

end SignedPulse
