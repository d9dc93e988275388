import SignedPulse.Framework.HashMap
import SignedPulse.Server.Environment

/-! # The replay cache

    Keys of accepted HELLOs with the unix time at which each may be forgotten.
-/

namespace SignedPulse

abbrev SeenCache := HashMap Bytes Int64

namespace SeenCache

/-- Record `key` unless an entry for it is still live. -/
def insert_if_absent (cache : SeenCache) (key : Bytes) (now : Int64) (ttl_seconds : UInt64) :
    Bool × SeenCache :=
  match AList.lookup key cache with
  | some expires_at =>
    if now ≤ expires_at then (false, cache)
    else (true, AList.insert key (unix_deadline now ttl_seconds) cache)
  | none => (true, AList.insert key (unix_deadline now ttl_seconds) cache)

def purge_expired (cache : SeenCache) (now : Int64) : Nat × SeenCache :=
  let cache' := cache.retain (fun _ expires_at => decide (now ≤ expires_at))
  (cache.len - cache'.len, cache')

/-! ### What the cache remembers -/

/-- The entry of `key` lives at least until `limit`, or the clock has passed `limit`. `clock`
    lists the readings of past calls. -/
def Remembers (cache : SeenCache) (clock : List Int64) (key : Bytes) (limit : Int64) : Prop :=
  (∃ expires_at, AList.lookup key cache = some expires_at ∧ limit ≤ expires_at) ∨
    ∃ n ∈ clock, limit < n

theorem Remembers.later {cache : SeenCache} {clock : List Int64} {key : Bytes} {limit n : Int64}
    (h : limit < n) : Remembers cache (clock ++ [n]) key limit := .inr ⟨n, by simp, h⟩

/-- A key that is still live changes nothing. -/
theorem insert_absent {cache : SeenCache} {key : Bytes} {now : Int64} {ttl_seconds : UInt64}
    (h : (insert_if_absent cache key now ttl_seconds).1 = false) :
    (insert_if_absent cache key now ttl_seconds).2 = cache := by
  unfold insert_if_absent at h ⊢
  split at h
  · split at h
    · rename_i hlive
      rw [if_pos hlive]
    · cases h
  · cases h

/-- A key that is inserted had no live entry. -/
theorem insert_fresh {cache : SeenCache} {key : Bytes} {now : Int64}
    {ttl_seconds : UInt64} (h : (insert_if_absent cache key now ttl_seconds).1 = true)
    {expires_at : Int64} (hlookup : AList.lookup key cache = some expires_at) :
    expires_at < now := by
  unfold insert_if_absent at h
  rw [hlookup] at h
  dsimp only at h
  split at h
  · cases h
  · rename_i hexpired
    exact Int64.not_le.mp hexpired

/-- An accepted key is remembered until its deadline. -/
theorem insert_remembers {cache : SeenCache} {clock : List Int64} {key : Bytes} {now : Int64}
    {ttl_seconds : UInt64} (h : (insert_if_absent cache key now ttl_seconds).1 = true) :
    Remembers (insert_if_absent cache key now ttl_seconds).2 clock key
      (unix_deadline now ttl_seconds) := by
  refine .inl ⟨unix_deadline now ttl_seconds, ?_, Int64.le_refl _⟩
  unfold insert_if_absent at h ⊢
  split at h
  · split at h
    · simp at h
    · rename_i hexpired
      rw [if_neg hexpired]
      exact AList.lookup_insert _
  · exact AList.lookup_insert _

/-- Step lemma: a call for any key keeps what is remembered. -/
theorem Remembers.insert {cache : SeenCache} {clock : List Int64} {key key' : Bytes}
    {limit now : Int64} {ttl_seconds : UInt64} (h : Remembers cache clock key limit) :
    Remembers (insert_if_absent cache key' now ttl_seconds).2 (clock ++ [now]) key limit := by
  rcases h with ⟨expires_at, hlookup, hlimit⟩ | ⟨n, hn, hpast⟩
  swap
  · exact .inr ⟨n, List.mem_append_left _ hn, hpast⟩
  unfold insert_if_absent
  by_cases hkey : key' = key
  · subst hkey
    rw [hlookup]
    dsimp only
    by_cases hlive : now ≤ expires_at
    · rw [if_pos hlive]
      exact .inl ⟨expires_at, hlookup, hlimit⟩
    · -- the entry has expired, so the clock is past its limit
      exact Remembers.later (Int64.lt_of_le_of_lt hlimit (Int64.not_le.mp hlive))
  · have hframe (d : Int64) : AList.lookup key (AList.insert key' d cache) = some expires_at := by
      rw [AList.lookup_insert_ne (Ne.symm hkey), hlookup]
    split
    · split
      · exact .inl ⟨expires_at, hlookup, hlimit⟩
      · exact .inl ⟨expires_at, hframe _, hlimit⟩
    · exact .inl ⟨expires_at, hframe _, hlimit⟩

/-- Step lemma: a purge keeps what is remembered. -/
theorem Remembers.purge {cache : SeenCache} {clock : List Int64} {key : Bytes}
    {limit now : Int64} (h : Remembers cache clock key limit) :
    Remembers (purge_expired cache now).2 (clock ++ [now]) key limit := by
  rcases h with ⟨expires_at, hlookup, hlimit⟩ | ⟨n, hn, hpast⟩
  swap
  · exact .inr ⟨n, List.mem_append_left _ hn, hpast⟩
  by_cases hlive : now ≤ expires_at
  · refine .inl ⟨expires_at, ?_, hlimit⟩
    exact HashMap.lookup_retain_eq_some.mpr ⟨hlookup, decide_eq_true hlive⟩
  · exact Remembers.later (Int64.lt_of_le_of_lt hlimit (Int64.not_le.mp hlive))

/-- A key that is accepted again is past what was remembered of it. -/
theorem Remembers.past_of_insert {cache : SeenCache} {clock : List Int64} {key : Bytes}
    {limit now : Int64} {ttl_seconds : UInt64} (h : Remembers cache clock key limit)
    (hclock : ∀ n ∈ clock, n ≤ now)
    (haccepted : (insert_if_absent cache key now ttl_seconds).1 = true) : limit < now := by
  rcases h with ⟨expires_at, hlookup, hlimit⟩ | ⟨n, hn, hpast⟩
  · unfold insert_if_absent at haccepted
    rw [hlookup] at haccepted
    dsimp only at haccepted
    by_cases hlive : now ≤ expires_at
    · simp [hlive] at haccepted
    · exact Int64.lt_of_le_of_lt hlimit (Int64.not_le.mp hlive)
  · exact Int64.lt_of_lt_of_le hpast (hclock n hn)

end SeenCache

end SignedPulse
