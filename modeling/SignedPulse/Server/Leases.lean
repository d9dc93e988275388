import SignedPulse.Framework.HashMap
import SignedPulse.Framework.Text
import SignedPulse.Server.Environment

/-! # Access leases

    One lease per client id. A verified pulse renews it; a BYE releases it; the
    lease scan takes the expired ones. Who leaves is told how many other
    clients still hold a live lease on the same source IP.
-/

namespace SignedPulse

structure Lease where
  expires_at : Instant
  ip : IpAddr
  source_port : UInt16
  param : Option Str
  deriving DecidableEq

/-- A lease that ended, with the data the revoke hook needs. -/
structure ExpiredLease where
  ip : IpAddr
  client_id : Str
  source_port : UInt16
  param : Option Str
  deriving DecidableEq

structure LeaseTracker where
  max_entries : Nat
  leases : HashMap Str Lease

/-- A lease that has not expired at `now`. -/
def Lease.live (l : Lease) (now : Instant) : Bool := decide (now < l.expires_at)

/-- What is reported about the lease of `client_id` when it ends. -/
def Lease.ended (l : Lease) (client_id : Str) : ExpiredLease where
  ip := l.ip
  client_id := client_id
  source_port := l.source_port
  param := l.param

namespace LeaseTracker

def new (max_entries : Nat) : LeaseTracker where
  max_entries := max max_entries 1
  leases := ∅

/-- Create or renew a lease; whether the client held no live lease just before. A new client is
    not tracked when the table is full. -/
def renew_at (t : LeaseTracker) (client_id : Str) (ip : IpAddr) (source_port : UInt16)
    (param : Option Str) (ttl : Duration) (now : Instant) : Bool × LeaseTracker :=
  let is_new :=
    match AList.lookup client_id t.leases with
    | some l => decide (now ≥ l.expires_at)
    | none => true
  let lease := { expires_at := now + ttl, ip := ip, source_port := source_port, param := param }
  if client_id ∈ t.leases ∨ t.leases.len < t.max_entries then
    (is_new, { t with leases := AList.insert client_id lease t.leases })
  else
    (is_new, t)

/-- Remove the client's own lease and count the other live leases on its IP. -/
def release_at (t : LeaseTracker) (client_id : Str) (now : Instant) :
    Option (ExpiredLease × Nat) × LeaseTracker :=
  match AList.lookup client_id t.leases with
  | none => (none, t)
  | some l =>
    let leases := AList.erase client_id t.leases
    let remaining := HashMap.count (fun _ o => decide (now < o.expires_at ∧ o.ip = l.ip)) leases
    (some (l.ended client_id, remaining), { t with leases := leases })

/-- How many other clients hold a live lease on `ip`. -/
def others_on_ip (t : LeaseTracker) (ip : IpAddr) (client_id : Str) (now : Instant) : Nat :=
  t.leases.count (fun cid l => decide (now < l.expires_at ∧ l.ip = ip ∧ cid ≠ client_id))

/-- Remove every expired lease. The table is walked in the order that `order` decides. -/
def take_expired_at (t : LeaseTracker) (now : Instant) (order : List Nat) :
    List (ExpiredLease × Nat) × LeaseTracker :=
  let taken := HashMap.visit order (t.leases.entries.filter (fun e => !e.2.live now))
  let leases := t.leases.retain (fun _ l => l.live now)
  -- after draining, the remaining entries are all live
  let out := taken.map (fun e =>
    (e.2.ended e.1, HashMap.count (fun _ o => decide (o.ip = e.2.ip)) leases))
  (out, { t with leases := leases })

/-! ### What the operations do to an entry -/

/-- A renewal of `client_id` is tracked: it has an entry, or the table has room for one. -/
def HasRoom (t : LeaseTracker) (client_id : Str) : Prop :=
  client_id ∈ t.leases ∨ t.leases.len < t.max_entries

instance (t : LeaseTracker) (client_id : Str) : Decidable (t.HasRoom client_id) :=
  inferInstanceAs (Decidable (_ ∨ _))

/-- The entry that `client_id` has. -/
def entry (t : LeaseTracker) (client_id : Str) : Option Lease := AList.lookup client_id t.leases

/-- How many live leases there are on `ip`. -/
def live_on (t : LeaseTracker) (ip : IpAddr) (now : Instant) : Nat :=
  t.leases.count (fun _ l => decide (now < l.expires_at ∧ l.ip = ip))

section entries
variable {t : LeaseTracker} {client_id c : Str} {now : Instant}

@[simp] theorem entry_new {max_entries : Nat} : (new max_entries).entry c = none := rfl

theorem HasRoom.of_entry {l : Lease} (h : t.entry client_id = some l) : t.HasRoom client_id :=
  .inl (AList.lookup_isSome.mp (Option.isSome_of_eq_some h))

theorem live_on_eq_zero {ip : IpAddr} :
    t.live_on ip now = 0 ↔ ∀ c l, t.entry c = some l → l.live now = true → l.ip ≠ ip := by
  unfold live_on
  rw [HashMap.count_eq_zero]
  simp [entry, Lease.live]

section renew
variable {ip : IpAddr} {port : UInt16} {param : Option Str} {ttl : Duration}

/-- A pulse renews a live session. -/
theorem renew_at_not_new : (t.renew_at client_id ip port param ttl now).1 = false ↔
    ∃ l, t.entry client_id = some l ∧ l.live now = true := by
  have hnew : (t.renew_at client_id ip port param ttl now).1 =
      match t.entry client_id with
      | some l => decide (now ≥ l.expires_at)
      | none => true := by
    unfold renew_at
    dsimp only
    split <;> rfl
  rw [hnew]
  cases t.entry client_id with
  | none => simp
  | some l => simp [Lease.live]

theorem entry_renew_at (h : t.HasRoom client_id) :
    (t.renew_at client_id ip port param ttl now).2.entry c =
      if c = client_id then
        some { expires_at := now + ttl, ip := ip, source_port := port, param := param }
      else t.entry c := by
  have htable : (t.renew_at client_id ip port param ttl now).2.leases = AList.insert client_id
      { expires_at := now + ttl, ip := ip, source_port := port, param := param } t.leases := by
    unfold HasRoom at h
    unfold renew_at
    dsimp only
    rw [if_pos h]
  unfold entry
  rw [htable]
  split
  · rename_i heq
    rw [heq, AList.lookup_insert]
  · rename_i hne
    rw [AList.lookup_insert_ne hne]

/-- A new client is not tracked when the table is full. -/
theorem renew_at_full (h : ¬ t.HasRoom client_id) :
    (t.renew_at client_id ip port param ttl now).2 = t := by
  unfold HasRoom at h
  unfold renew_at
  dsimp only
  rw [if_neg h]

end renew

theorem release_at_none (h : (t.release_at client_id now).1 = none) :
    (t.release_at client_id now).2 = t := by
  unfold release_at at h ⊢
  split at h
  · rfl
  · cases h

theorem entry_of_release_none (h : (t.release_at client_id now).1 = none) :
    t.entry client_id = none := by
  unfold release_at at h
  split at h
  · assumption
  · cases h

theorem entry_release_at :
    (t.release_at client_id now).2.entry c = if c = client_id then none else t.entry c := by
  unfold release_at entry
  split
  · rename_i hnone
    split
    · rename_i heq
      rw [heq, hnone]
    · rfl
  · dsimp only
    split
    · rename_i heq
      rw [heq, AList.lookup_erase]
    · rename_i hne
      rw [AList.lookup_erase_ne hne]

/-- What is reported about a release. -/
theorem release_at_some {e : ExpiredLease} {remaining : Nat}
    (h : (t.release_at client_id now).1 = some (e, remaining)) :
    ∃ l, t.entry client_id = some l ∧ e = l.ended client_id ∧
      remaining = (t.release_at client_id now).2.live_on l.ip now := by
  unfold release_at at h ⊢
  split at h
  · cases h
  · rename_i l hl
    obtain ⟨rfl, rfl⟩ := Prod.mk.inj (Option.some.inj h)
    exact ⟨l, hl, rfl, rfl⟩

/-- The scan keeps the live entries. -/
theorem entry_take_expired_at {order : List Nat} :
    (t.take_expired_at now order).2.entry c = (t.entry c).filter (fun l => l.live now) :=
  HashMap.lookup_retain _ _ _

/-- What is reported about a scan: every entry that is not live, with the count of live leases
    on its IP. -/
theorem mem_take_expired_at {order : List Nat} {x : ExpiredLease × Nat} :
    x ∈ (t.take_expired_at now order).1 ↔
      ∃ c l, t.entry c = some l ∧ l.live now = false ∧
        x = (l.ended c, (t.take_expired_at now order).2.live_on l.ip now) := by
  -- what is left is live, so counting needs no clock
  have hcount (ip : IpAddr) :
      HashMap.count (fun _ o => decide (o.ip = ip)) (t.leases.retain (fun _ l => l.live now)) =
        (t.take_expired_at now order).2.live_on ip now := by
    refine List.countP_congr fun x hx => ?_
    have hlive : decide (now < x.2.expires_at) = true := (List.mem_filter.mp hx).2
    simp [of_decide_eq_true hlive]
  unfold take_expired_at
  simp only [List.mem_map, hcount]
  constructor
  · rintro ⟨e, he, rfl⟩
    have he := (HashMap.visit_perm _ _).mem_iff.mp he
    obtain ⟨hmem, hdead⟩ := List.mem_filter.mp he
    exact ⟨e.1, e.2, AList.mem_lookup_iff.mpr hmem, by simpa using hdead, rfl⟩
  · rintro ⟨c, l, hl, hdead, rfl⟩
    refine ⟨⟨c, l⟩, (HashMap.visit_perm _ _).mem_iff.mpr ?_, rfl⟩
    exact List.mem_filter.mpr ⟨AList.mem_lookup_iff.mp hl, by simpa using hdead⟩

theorem drained_of_dead {l : Lease} (h : t.entry c = some l) (hdead : l.live now = false)
    (order : List Nat) :
    (l.ended c, (t.take_expired_at now order).2.live_on l.ip now) ∈
      (t.take_expired_at now order).1 :=
  mem_take_expired_at.mpr ⟨c, l, h, hdead, rfl⟩

/-- A scan reports about a client once when its lease is over, and not at all otherwise. -/
theorem count_take_expired_at {order : List Nat} :
    ((t.take_expired_at now order).1.map (fun x => x.1.client_id)).count c =
      ((t.entry c).any (fun l => !l.live now)).toNat := by
  have hclients : ((t.take_expired_at now order).1.map (fun x => x.1.client_id)).Perm
      ((t.leases.entries.filter (fun e => !e.2.live now)).map Sigma.fst) := by
    unfold take_expired_at
    rw [List.map_map]
    exact (HashMap.visit_perm _ _).map _
  rw [hclients.count_eq]
  exact HashMap.count_key (fun _ l => !l.live now) t.leases c

/-- A release reports about the client alone, if it has a lease. -/
theorem count_release_at :
    ((t.release_at client_id now).1.toList.map (fun x => x.1.client_id)).count c =
      if c = client_id then (t.entry c).isSome.toNat else 0 := by
  cases h : (t.release_at client_id now).1 with
  | none =>
    have hnone := entry_of_release_none h
    split
    · rename_i heq
      rw [heq, hnone]
      rfl
    · rfl
  | some x =>
    obtain ⟨l, hl, he, -⟩ := release_at_some (e := x.1) h
    have hid : x.1.client_id = client_id := by rw [he]; rfl
    rw [Option.toList_some, List.map_singleton, List.count_singleton, hid]
    by_cases heq : c = client_id
    · rw [if_pos heq, if_pos (beq_iff_eq.mpr heq.symm), heq, hl]
      rfl
    · rw [if_neg heq, if_neg (fun hc => heq (beq_iff_eq.mp hc).symm)]

end entries

end LeaseTracker

end SignedPulse
