import SignedPulse.Framework.Housekeeping
import SignedPulse.Server.Caps
import SignedPulse.Server.NonceStore
import SignedPulse.Server.SeenCache

/-! # Purges

    The cleanup task purges five tables: the HELLO budgets, the cooldowns, the
    active sources, the replay keys and the nonces. Each operation tells a
    stale entry from a missing one in no way but the error of a nonce that is
    refused, so that it does not matter when, and how often, a table is purged.
-/

namespace SignedPulse

open HashMap

/-! ### HELLO budgets -/

namespace HelloRateLimiter

inductive Call where
  | check (ip : IpAddr)
  | purge_stale
  deriving DecidableEq

def step : Store Instant Call Bool HelloRateLimiter := fun r now call =>
  match call with
  | .check ip => (some (r.check_at ip now).1, (r.check_at ip now).2)
  | .purge_stale => (none, r.purge_stale now)

/-- A check finds an entry, or room for one. -/
def Room (r : HelloRateLimiter) (_ : Instant) : Call → Prop
  | .check ip => Admits r.max_entries r.state ip
  | .purge_stale => True

/-- The window is over. -/
def Stale (r : HelloRateLimiter) (now : Instant) (w : Window) : Prop :=
  r.window ≤ Instant.duration_since now w.window_start

/-- `r'` is `r` purged up to `now`. -/
def Purged (now : Instant) (r r' : HelloRateLimiter) : Prop :=
  Bounded r.max_entries r.state ∧
    ∃ state', r' = { r with state := state' } ∧ Pruned (r.Stale now) r.state state'

/-- The window in which one more HELLO of a source IP is counted. -/
def current (r : HelloRateLimiter) (now : Instant) (old : Option Window) : Window :=
  let entry := old.getD { window_start := now, count := 0 }
  if Instant.duration_since now entry.window_start ≥ r.window then
    { window_start := now, count := 0 }
  else entry

/-- With a budget, a check that finds room answers whether the window has some of it left. -/
theorem check_at_answer {r : HelloRateLimiter} (h : r.max_per_window ≠ 0) {ip : IpAddr}
    {now : Instant} (hroom : Admits r.max_entries r.state ip) :
    (r.check_at ip now).1 =
      decide ((r.current now (AList.lookup ip r.state)).count < r.max_per_window) := by
  unfold check_at
  rw [if_neg h, if_neg (fun hfull => not_admits_iff.mpr hfull hroom)]
  show (if (r.current now (AList.lookup ip r.state)).count ≥ r.max_per_window then (false, _)
    else (true, _)).1 = _
  split
  · rename_i hspent
    exact (decide_eq_false (UInt32.not_lt.mpr hspent)).symm
  · rename_i hleft
    exact (decide_eq_true (UInt32.not_le.mp hleft)).symm

theorem check_at_answer_off {r : HelloRateLimiter} (h : r.max_per_window = 0) {ip : IpAddr}
    {now : Instant} : (r.check_at ip now).1 = true := by
  unfold check_at
  rw [if_pos h]

/-- A HELLO after the end of a window opens a new one. -/
theorem current_stale {r : HelloRateLimiter} {now : Instant} {w : Window} (h : r.Stale now w) :
    r.current now (some w) = r.current now none := by
  have hover : Instant.duration_since now w.window_start ≥ r.window := h
  unfold current
  simp only [Option.getD_some, hover, if_true, Option.getD_none, ite_self]

theorem hit_stale {r : HelloRateLimiter} {now : Instant} {w : Window} (h : r.Stale now w) :
    r.hit now (some w) = r.hit now none := by
  have hhit (old : Option Window) : r.hit now old =
      if (r.current now old).count ≥ r.max_per_window then r.current now old
      else { r.current now old with count := (r.current now old).count + 1 } := rfl
  rw [hhit, hhit, current_stale h]

/-- A check does not tell a limiter that has been purged from one that has not. -/
theorem Purged.check {r r' : HelloRateLimiter} {now : Instant} {ip : IpAddr}
    (h : r.Purged now r') (hroom : Admits r.max_entries r.state ip) :
    (r.check_at ip now).1 = (r'.check_at ip now).1 ∧
      Purged now (r.check_at ip now).2 (r'.check_at ip now).2 := by
  have hpurged := h
  obtain ⟨hbounded, state', hr', hpruned⟩ := h
  by_cases hoff : r.max_per_window = 0
  · have hoff' : r'.max_per_window = 0 := by rw [hr']; exact hoff
    rw [check_at_answer_off hoff, check_at_answer_off hoff', check_at_off hoff, check_at_off hoff']
    exact ⟨rfl, hpurged⟩
  · have hon' : r'.max_per_window ≠ 0 := by rw [hr']; exact hoff
    have hroom' : Admits r'.max_entries r'.state ip := by
      rw [hr']
      exact hpruned.admits hbounded hroom
    have hsame := hpruned.read (fun w hstale => current_stale hstale) ip
    rw [check_at_answer hoff hroom, check_at_answer hon' hroom', check_at_eq hoff, check_at_eq hon',
      hsame, hr']
    refine ⟨rfl, hbounded.put, _, rfl, ?_⟩
    exact hpruned.put hbounded hroom (fun w hstale => hit_stale hstale)

theorem unnoticed : Unnoticed step (· ≤ ·) (· = .purge_stale) Room Eq Purged where
  later := by
    rintro now now' r _ hle ⟨hbounded, state', rfl, hpruned⟩
    refine ⟨hbounded, state', rfl, hpruned.mono fun w hstale => ?_⟩
    exact le_trans hstale (Nat.sub_le_sub_right hle _)
  answer := by
    intro now r r' call hpurged hroom
    cases call with
    | check ip => exact .some (hpurged.check hroom).1
    | purge_stale => exact .none
  call := by
    intro now r r' call hpurged hroom
    cases call with
    | check ip => exact (hpurged.check hroom).2
    | purge_stale =>
      obtain ⟨hbounded, state', rfl, hpruned⟩ := hpurged
      refine ⟨hbounded.shrink (len_retain_le _ _), _, rfl, hpruned.retain fun ip w hstale => ?_⟩
      -- an entry that was purged would not have counted
      exact decide_eq_false (not_lt.mpr hstale)
  silent := by
    rintro now r _ rfl
    rfl
  extra := by
    rintro now r _ _ rfl ⟨hbounded, state', rfl, hpruned⟩
    refine ⟨hbounded, _, rfl, hpruned.retain_right ?_⟩
    intro ip w hover
    exact not_lt.mp (of_decide_eq_false hover)

end HelloRateLimiter

/-! ### Cooldowns -/

namespace CooldownTracker

inductive Call where
  | in_cooldown (key : Str)
  | mark (key : Str)
  | purge_stale
  deriving DecidableEq

def step : Store Instant Call Bool CooldownTracker := fun c now call =>
  match call with
  | .in_cooldown key => (some (c.in_cooldown key now), c)
  | .mark key => (none, c.mark key now)
  | .purge_stale => (none, c.purge_stale now)

/-- `c'` is `c` purged up to `now`. -/
def Purged (now : Instant) (c c' : CooldownTracker) : Prop :=
  ∃ last', c' = { c with last := last' } ∧
    Pruned (fun t => c.cooldown ≤ Instant.duration_since now t) c.last last'

theorem in_cooldown_eq (c : CooldownTracker) (key : Str) (now : Instant) :
    c.in_cooldown key now = (AList.lookup key c.last).any (fun t =>
      decide (Instant.duration_since now t < c.cooldown)) := by
  rw [Bool.eq_iff_iff, in_cooldown_iff]
  simp [Option.any_eq_true]

theorem unnoticed : Unnoticed step (· ≤ ·) (· = .purge_stale) (fun _ _ _ => True) Eq Purged where
  later := by
    rintro now now' c _ hle ⟨last', rfl, hpruned⟩
    refine ⟨last', rfl, hpruned.mono fun t hstale => ?_⟩
    exact le_trans hstale (Nat.sub_le_sub_right hle _)
  answer := by
    rintro now c _ call ⟨last', rfl, hpruned⟩ -
    cases call with
    | mark key => exact .none
    | purge_stale => exact .none
    | in_cooldown key =>
      refine .some ?_
      rw [in_cooldown_eq, in_cooldown_eq]
      refine hpruned.read (f := fun old => old.any fun t =>
        decide (Instant.duration_since now t < c.cooldown)) (fun t hstale => ?_) key
      exact decide_eq_false (not_lt.mpr hstale)
  call := by
    rintro now c _ call ⟨last', rfl, hpruned⟩ -
    cases call with
    | in_cooldown key => exact ⟨last', rfl, hpruned⟩
    | mark key =>
      show Purged now (c.mark key now) (mark _ key now)
      unfold mark
      split
      · exact ⟨last', rfl, hpruned⟩
      · exact ⟨_, rfl, hpruned.insert key now⟩
    | purge_stale =>
      show Purged now (c.purge_stale now) (purge_stale _ now)
      unfold purge_stale
      split
      · exact ⟨last', rfl, hpruned⟩
      · refine ⟨_, rfl, hpruned.retain fun key t hstale => ?_⟩
        exact decide_eq_false (not_lt.mpr hstale)
  silent := by
    rintro now c _ rfl
    rfl
  extra := by
    rintro now c _ _ rfl ⟨last', rfl, hpruned⟩
    show Purged now c (purge_stale _ now)
    unfold purge_stale
    split
    · exact ⟨last', rfl, hpruned⟩
    · refine ⟨_, rfl, hpruned.retain_right fun key t hover => ?_⟩
      exact not_lt.mp (of_decide_eq_false hover)

end CooldownTracker

/-! ### Active sources -/

namespace ActiveIps

inductive Call where
  | mark (ip : IpAddr)
  | is_active (ip : IpAddr)
  | purge_stale
  deriving DecidableEq

def step : Store Instant Call Bool ActiveIps := fun a now call =>
  match call with
  | .mark ip => (none, a.mark ip now)
  | .is_active ip => (some (a.is_active_at ip now), a)
  | .purge_stale => (none, a.purge_stale now)

/-- A mark finds an entry, or room for one. -/
def Room (a : ActiveIps) (_ : Instant) : Call → Prop
  | .mark ip => Admits a.max_entries a.seen ip
  | _ => True

/-- `a'` is `a` purged up to `now`. -/
def Purged (now : Instant) (a a' : ActiveIps) : Prop :=
  0 < a.max_entries ∧ Bounded a.max_entries a.seen ∧
    ∃ seen', a' = { a with seen := seen' } ∧
      Pruned (fun t => a.ttl ≤ Instant.duration_since now t) a.seen seen'

theorem is_active_eq (a : ActiveIps) (ip : IpAddr) (now : Instant) :
    a.is_active_at ip now = (AList.lookup ip a.seen).any (fun t =>
      decide (Instant.duration_since now t < a.ttl)) := by
  unfold is_active_at
  cases AList.lookup ip a.seen <;> rfl

theorem mark_eq {a : ActiveIps} (h : 0 < a.max_entries) (ip : IpAddr) (now : Instant) :
    a.mark ip now = { a with seen := put a.max_entries ip (fun _ => now) a.seen } := by
  rw [← mark_seen h]
  unfold mark
  split <;> rfl

theorem unnoticed : Unnoticed step (· ≤ ·) (· = .purge_stale) Room Eq Purged where
  later := by
    rintro now now' a _ hle ⟨hpos, hbounded, seen', rfl, hpruned⟩
    refine ⟨hpos, hbounded, seen', rfl, hpruned.mono fun t hstale => ?_⟩
    exact le_trans hstale (Nat.sub_le_sub_right hle _)
  answer := by
    rintro now a _ call ⟨hpos, hbounded, seen', rfl, hpruned⟩ -
    cases call with
    | mark ip => exact .none
    | purge_stale => exact .none
    | is_active ip =>
      refine .some ?_
      rw [is_active_eq, is_active_eq]
      refine hpruned.read (f := fun old => old.any fun t =>
        decide (Instant.duration_since now t < a.ttl)) (fun t hstale => ?_) ip
      exact decide_eq_false (not_lt.mpr hstale)
  call := by
    rintro now a _ call ⟨hpos, hbounded, seen', rfl, hpruned⟩ hroom
    cases call with
    | is_active ip => exact ⟨hpos, hbounded, seen', rfl, hpruned⟩
    | mark ip =>
      show Purged now (a.mark ip now) _
      rw [mark_eq hpos]
      refine ⟨hpos, hbounded.put, _, mark_eq (a := { a with seen := seen' }) hpos ip now, ?_⟩
      exact hpruned.put hbounded hroom (fun _ _ => rfl)
    | purge_stale =>
      refine ⟨hpos, hbounded.shrink (len_retain_le _ _), _, rfl, ?_⟩
      exact hpruned.retain fun ip t hstale => decide_eq_false (not_lt.mpr hstale)
  silent := by
    rintro now a _ rfl
    rfl
  extra := by
    rintro now a _ _ rfl ⟨hpos, hbounded, seen', rfl, hpruned⟩
    refine ⟨hpos, hbounded, _, rfl, hpruned.retain_right fun ip t hover => ?_⟩
    exact not_lt.mp (of_decide_eq_false hover)

end ActiveIps

/-! ### Replay keys -/

namespace SeenCache

inductive Call where
  | insert_if_absent (key : Bytes) (ttl_seconds : UInt64)
  | purge_expired
  deriving DecidableEq

def step : Store Int64 Call Bool SeenCache := fun cache now call =>
  match call with
  | .insert_if_absent key ttl_seconds =>
    (some (insert_if_absent cache key now ttl_seconds).1,
      (insert_if_absent cache key now ttl_seconds).2)
  | .purge_expired => (none, (purge_expired cache now).2)

/-- `cache'` is `cache` purged up to `now`. -/
def Purged (now : Int64) (cache cache' : SeenCache) : Prop := Pruned (· < now) cache cache'

/-- A key is absent if its entry is missing or has expired. -/
theorem insert_if_absent_eq (cache : SeenCache) (key : Bytes) (now : Int64)
    (ttl_seconds : UInt64) : insert_if_absent cache key now ttl_seconds =
      if (AList.lookup key cache).any (fun expires_at => decide (now ≤ expires_at)) then
        (false, cache)
      else (true, AList.insert key (unix_deadline now ttl_seconds) cache) := by
  unfold insert_if_absent
  cases AList.lookup key cache with
  | none => rfl
  | some expires_at => simp

theorem live_of_stale {now expires_at : Int64} (h : expires_at < now) :
    (some expires_at).any (fun expires_at => decide (now ≤ expires_at)) = false :=
  decide_eq_false (Int64.not_le.mpr h)

theorem unnoticed : Unnoticed step (· ≤ ·) (· = .purge_expired) (fun _ _ _ => True) Eq Purged where
  later := by
    intro now now' cache cache' hle hpruned
    exact hpruned.mono fun expires_at hstale => Int64.lt_of_lt_of_le hstale hle
  answer := by
    rintro now cache cache' call hpruned -
    cases call with
    | purge_expired => exact .none
    | insert_if_absent key ttl_seconds =>
      refine .some ?_
      rw [insert_if_absent_eq, insert_if_absent_eq,
        hpruned.read (fun _ hstale => live_of_stale hstale) key]
      split <;> rfl
  call := by
    rintro now cache cache' call hpruned -
    cases call with
    | purge_expired =>
      refine Pruned.retain hpruned fun key expires_at hstale => ?_
      exact decide_eq_false (Int64.not_le.mpr hstale)
    | insert_if_absent key ttl_seconds =>
      show Purged now (insert_if_absent cache key now ttl_seconds).2
        (insert_if_absent cache' key now ttl_seconds).2
      rw [insert_if_absent_eq, insert_if_absent_eq,
        hpruned.read (fun _ hstale => live_of_stale hstale) key]
      split
      · exact hpruned
      · exact Pruned.insert hpruned key _
  silent := by
    rintro now cache _ rfl
    rfl
  extra := by
    rintro now cache cache' _ rfl hpruned
    refine Pruned.retain_right hpruned fun key expires_at hover => ?_
    exact Int64.not_le.mp (of_decide_eq_false hover)

end SeenCache

/-! ### Nonces -/

namespace NonceStore

inductive Call where
  | insert (nonce : Bytes) (client_id : Str) (source_ip : IpAddr) (source_port : UInt16)
      (expires_at_unix : Int64)
  | validate (nonce : Bytes) (client_id : Str) (source_ip : IpAddr) (source_port : UInt16)
  | consume (nonce : Bytes) (client_id : Str) (source_ip : IpAddr) (source_port : UInt16)
  | purge_expired
  deriving DecidableEq

def step : Store Int64 Call (Except ConsumeError NonceEntry) NonceStore := fun store now call =>
  match call with
  | .insert nonce client_id source_ip source_port expires_at_unix =>
    (none, insert store nonce client_id source_ip source_port expires_at_unix now)
  | .validate nonce client_id source_ip source_port =>
    (some (validate store nonce client_id source_ip source_port now), store)
  | .consume nonce client_id source_ip source_port =>
    (some (consume store nonce client_id source_ip source_port now).1,
      (consume store nonce client_id source_ip source_port now).2)
  | .purge_expired => (none, (purge_expired store now).2)

/-- Both fail, or both return the same entry. -/
def SameOutcome (r r' : Except ConsumeError NonceEntry) : Prop := r.toOption = r'.toOption

/-- `store'` is `store` purged up to `now`. -/
def Purged (now : Int64) (store store' : NonceStore) : Prop :=
  Pruned (fun entry => entry.expires_at_unix < now) store store'

section bindings
variable {client_id : Str} {source_ip : IpAddr} {source_port : UInt16} {now : Int64}

/-- The entry that passes the checks. -/
def passing (client_id : Str) (source_ip : IpAddr) (source_port : UInt16) (now : Int64)
    (old : Option NonceEntry) : Option NonceEntry :=
  old.filter fun entry => (check entry client_id source_ip source_port now).isOk

/-- An entry that has expired does not pass. -/
theorem passing_stale {entry : NonceEntry} (h : entry.expires_at_unix < now) :
    passing client_id source_ip source_port now (some entry) = none := by
  unfold passing
  rw [Option.filter_some]
  split
  · rename_i hok
    cases hcheck : check entry client_id source_ip source_port now with
    | error e =>
      rw [hcheck] at hok
      cases hok
    | ok u => exact absurd h (Int64.not_lt.mpr (check_ok.mp hcheck).fresh)
  · rfl

theorem validate_outcome (store : NonceStore) (nonce : Bytes) :
    (validate store nonce client_id source_ip source_port now).toOption =
      passing client_id source_ip source_port now (AList.lookup nonce store) := by
  unfold validate passing
  cases AList.lookup nonce store with
  | none => rfl
  | some entry =>
    dsimp only
    rw [Option.filter_some]
    cases check entry client_id source_ip source_port now <;> rfl

/-- A nonce is spent if its entry passes. -/
theorem consume_outcome (store : NonceStore) (nonce : Bytes) :
    (consume store nonce client_id source_ip source_port now).1.toOption =
        (passing client_id source_ip source_port now (AList.lookup nonce store)).map
          (fun entry => { entry with used := true }) ∧
      (consume store nonce client_id source_ip source_port now).2 =
        ((passing client_id source_ip source_port now (AList.lookup nonce store)).map
          (fun entry => AList.insert nonce { entry with used := true } store)).getD store := by
  unfold consume passing
  cases AList.lookup nonce store with
  | none => exact ⟨rfl, rfl⟩
  | some entry =>
    dsimp only
    rw [Option.filter_some]
    cases check entry client_id source_ip source_port now <;> exact ⟨rfl, rfl⟩

end bindings

theorem unnoticed :
    Unnoticed step (· ≤ ·) (· = .purge_expired) (fun _ _ _ => True) SameOutcome Purged where
  later := by
    intro now now' store store' hle hpruned
    exact hpruned.mono fun entry hstale => Int64.lt_of_lt_of_le hstale hle
  answer := by
    rintro now store store' call hpruned -
    cases call with
    | insert => exact .none
    | purge_expired => exact .none
    | validate nonce client_id source_ip source_port =>
      refine .some ?_
      unfold SameOutcome
      rw [validate_outcome, validate_outcome]
      exact hpruned.read (fun entry hstale => passing_stale hstale) nonce
    | consume nonce client_id source_ip source_port =>
      refine .some ?_
      unfold SameOutcome
      rw [(consume_outcome store nonce).1, (consume_outcome store' nonce).1,
        hpruned.read (fun entry hstale => passing_stale hstale) nonce]
  call := by
    rintro now store store' call hpruned -
    cases call with
    | validate => exact hpruned
    | insert nonce client_id source_ip source_port expires_at_unix =>
      exact Pruned.insert hpruned nonce _
    | consume nonce client_id source_ip source_port =>
      show Purged now (consume store nonce client_id source_ip source_port now).2
        (consume store' nonce client_id source_ip source_port now).2
      rw [(consume_outcome store nonce).2, (consume_outcome store' nonce).2,
        hpruned.read (fun entry hstale => passing_stale hstale) nonce]
      cases passing client_id source_ip source_port now (AList.lookup nonce store') with
      | none => exact hpruned
      | some entry => exact Pruned.insert hpruned nonce _
    | purge_expired =>
      refine Pruned.retain hpruned fun nonce entry hstale => ?_
      exact decide_eq_false (Int64.not_le.mpr hstale)
  silent := by
    rintro now store _ rfl
    rfl
  extra := by
    rintro now store store' _ rfl hpruned
    refine Pruned.retain_right hpruned fun nonce entry hover => ?_
    exact Int64.not_le.mp (of_decide_eq_false hover)

end NonceStore

/-! ### All five tables -/

/-- Purges put in anywhere are seen in no answer of the five tables, as long as none of them turns a
    new key away. Of a nonce that is refused only the error may be another one. -/
theorem purges_unnoticed :
    (∀ (max_per_window : UInt32) (window_seconds : UInt64) (max_entries : Nat)
      (calls calls' : List (Timed Instant HelloRateLimiter.Call)),
      let r := HelloRateLimiter.new max_per_window window_seconds max_entries
      Extended (· = .purge_stale) calls calls' → Timed.Ordered (· ≤ ·) calls' →
      Store.Throughout HelloRateLimiter.step HelloRateLimiter.Room r calls →
      Store.answers HelloRateLimiter.step r calls' = Store.answers HelloRateLimiter.step r calls) ∧
    (∀ (cooldown_seconds : UInt64) (calls calls' : List (Timed Instant CooldownTracker.Call)),
      let c := CooldownTracker.new cooldown_seconds
      Extended (· = .purge_stale) calls calls' → Timed.Ordered (· ≤ ·) calls' →
      Store.answers CooldownTracker.step c calls' = Store.answers CooldownTracker.step c calls) ∧
    (∀ (ttl_seconds : UInt64) (max_entries : Nat)
      (calls calls' : List (Timed Instant ActiveIps.Call)),
      let a := ActiveIps.new ttl_seconds max_entries
      Extended (· = .purge_stale) calls calls' → Timed.Ordered (· ≤ ·) calls' →
      Store.Throughout ActiveIps.step ActiveIps.Room a calls →
      Store.answers ActiveIps.step a calls' = Store.answers ActiveIps.step a calls) ∧
    (∀ calls calls' : List (Timed Int64 SeenCache.Call),
      Extended (· = .purge_expired) calls calls' → Timed.Ordered (· ≤ ·) calls' →
      Store.answers SeenCache.step ∅ calls' = Store.answers SeenCache.step ∅ calls) ∧
    (∀ calls calls' : List (Timed Int64 NonceStore.Call),
      Extended (· = .purge_expired) calls calls' → Timed.Ordered (· ≤ ·) calls' →
      List.Forall₂ NonceStore.SameOutcome (Store.answers NonceStore.step ∅ calls)
        (Store.answers NonceStore.step ∅ calls')) := by
  -- each table starts out pruned of nothing
  refine ⟨?_, ?_, ?_, ?_, ?_⟩
  · intro max_per_window window_seconds max_entries calls calls' r hext hord hroom
    have hstart : ∀ d ∈ calls', HelloRateLimiter.Purged d.now r r :=
      fun _ _ => ⟨.empty, _, rfl, .refl _⟩
    exact (List.forall₂_eq_eq_eq ▸ HelloRateLimiter.unnoticed.answers hext hord hstart hroom).symm
  · intro cooldown_seconds calls calls' c hext hord
    have hstart : ∀ d ∈ calls', CooldownTracker.Purged d.now c c := fun _ _ => ⟨_, rfl, .refl _⟩
    exact (List.forall₂_eq_eq_eq ▸ CooldownTracker.unnoticed.answers hext hord hstart
      (Store.throughout_true _ _ _)).symm
  · intro ttl_seconds max_entries calls calls' a hext hord hroom
    have hpos : 0 < a.max_entries := Nat.lt_of_lt_of_le Nat.one_pos (Nat.le_max_right _ _)
    have hstart : ∀ d ∈ calls', ActiveIps.Purged d.now a a :=
      fun _ _ => ⟨hpos, .empty, _, rfl, .refl _⟩
    exact (List.forall₂_eq_eq_eq ▸ ActiveIps.unnoticed.answers hext hord hstart hroom).symm
  · intro calls calls' hext hord
    exact (List.forall₂_eq_eq_eq ▸ SeenCache.unnoticed.answers hext hord (fun _ _ => .refl _)
      (Store.throughout_true _ _ _)).symm
  · intro calls calls' hext hord
    exact NonceStore.unnoticed.answers hext hord (fun _ _ => .refl _) (Store.throughout_true _ _ _)

/-- Two calls with a purge between them. -/
theorem extended_between {T C : Type} {housekeeping : C → Prop} (d d' purge : Timed T C)
    (h : housekeeping purge.call) : Extended housekeeping [d, d'] [d, purge, d'] :=
  .same d (.extra purge h (.same d' .nil))

/-- One client is throttled, cools down, is active, and replays what is still remembered, whether or
    not the tables are purged in the meantime. -/
theorem purges_unnoticed_between :
    let ip : IpAddr := .sample 1
    Store.answers HelloRateLimiter.step (.new 1 60 1)
        [⟨0, .check ip⟩, ⟨1000000000, .purge_stale⟩, ⟨2000000000, .check ip⟩] =
      Store.answers HelloRateLimiter.step (.new 1 60 1)
        [⟨0, .check ip⟩, ⟨2000000000, .check ip⟩] ∧
    Store.answers CooldownTracker.step (.new 60)
        [⟨0, .mark ['1']⟩, ⟨1000000000, .purge_stale⟩, ⟨2000000000, .in_cooldown ['1']⟩] =
      Store.answers CooldownTracker.step (.new 60)
        [⟨0, .mark ['1']⟩, ⟨2000000000, .in_cooldown ['1']⟩] ∧
    Store.answers ActiveIps.step (.new 60 1)
        [⟨0, .mark ip⟩, ⟨1000000000, .purge_stale⟩, ⟨2000000000, .is_active ip⟩] =
      Store.answers ActiveIps.step (.new 60 1) [⟨0, .mark ip⟩, ⟨2000000000, .is_active ip⟩] ∧
    Store.answers SeenCache.step ∅
        [⟨0, .insert_if_absent [1] 30⟩, ⟨30, .purge_expired⟩, ⟨30, .insert_if_absent [1] 30⟩] =
      Store.answers SeenCache.step ∅
        [⟨0, .insert_if_absent [1] 30⟩, ⟨30, .insert_if_absent [1] 30⟩] ∧
    List.Forall₂ NonceStore.SameOutcome
      (Store.answers NonceStore.step ∅
        [⟨0, .insert [1] ['1'] ip 7370 30⟩, ⟨31, .consume [1] ['1'] ip 7370⟩])
      (Store.answers NonceStore.step ∅
        [⟨0, .insert [1] ['1'] ip 7370 30⟩, ⟨31, .purge_expired⟩,
          ⟨31, .consume [1] ['1'] ip 7370⟩]) := by
  obtain ⟨hlimiter, hcooldown, hactive, hseen, hnonces⟩ := purges_unnoticed
  refine ⟨?_, ?_, ?_, ?_, ?_⟩
  · exact hlimiter 1 60 1 _ _ (extended_between _ _ _ rfl) (by unfold Timed.Ordered; decide)
      ⟨.inr (.inr (by decide)), .inl (by decide), trivial⟩
  · exact hcooldown 60 _ _ (extended_between _ _ _ rfl) (by unfold Timed.Ordered; decide)
  · exact hactive 60 1 _ _ (extended_between _ _ _ rfl) (by unfold Timed.Ordered; decide)
      ⟨.inr (.inr (by decide)), trivial, trivial⟩
  · exact hseen _ _ (extended_between _ _ _ rfl) (by unfold Timed.Ordered; decide)
  · exact hnonces _ _ (extended_between _ _ _ rfl) (by unfold Timed.Ordered; decide)

end SignedPulse
