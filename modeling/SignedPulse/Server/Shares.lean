import SignedPulse.Framework.Twins
import SignedPulse.Server.Naming

/-! # A client's share of the tables

    All clients share the tables, but each has entries of its own there: its
    lease, the nonces minted for it, its HELLOs in the replay cache and its
    cooldown mark.

    `Share.after` is a server of one client. `share_perform` says that the
    tables project to it, operation by operation, and `perform_twins` that what
    an operation on behalf of a client gives back is a matter of the share.
-/

namespace SignedPulse

/-! ### Entries of one client -/

namespace NonceStore

/-- The entry of a nonce, if it was minted for the client. -/
def owned (client_id : Str) (store : NonceStore) (nonce : Bytes) : Option NonceEntry :=
  (AList.lookup nonce store).filter fun entry => entry.client_id = client_id

/-- What is left of the entry of a nonce that a client tries to spend. -/
def spend (client_id : Str) (source_ip : IpAddr) (source_port : UInt16) (now : Int64)
    (old : Option NonceEntry) : Option NonceEntry :=
  ((passing client_id source_ip source_port now old).map
    fun entry => { entry with used := true }).or old

section owned
variable {client_id other : Str} {store : NonceStore} {nonce k : Bytes} {source_ip : IpAddr}
  {source_port : UInt16} {now expires_at_unix : Int64}

theorem owned_eq_some {entry : NonceEntry} : owned client_id store nonce = some entry ↔
    AList.lookup nonce store = some entry ∧ entry.client_id = client_id := by
  unfold owned
  rw [Option.filter_eq_some_iff, decide_eq_true_iff]

theorem owned_insert_self : owned client_id
    (store.insert nonce client_id source_ip source_port expires_at_unix now) =
      Function.update (owned client_id store) nonce
        (some ⟨client_id, source_ip, source_port, now, expires_at_unix, false⟩) := by
  funext k
  unfold owned insert
  by_cases hk : k = nonce
  · rw [hk, AList.lookup_insert, Function.update_self]
    simp
  · rw [AList.lookup_insert_ne hk, Function.update_of_ne hk]

/-- A nonce minted for another client, unless it is one that the client has an entry for. -/
theorem owned_insert_other (hother : other ≠ client_id)
    (hfresh : owned client_id store nonce = none) :
    owned client_id (store.insert nonce other source_ip source_port expires_at_unix now) =
      owned client_id store := by
  funext k
  by_cases hk : k = nonce
  · rw [hk, hfresh]
    unfold owned insert
    rw [AList.lookup_insert]
    simp [hother]
  · unfold owned insert
    rw [AList.lookup_insert_ne hk]

/-- What a client passes for is its own. -/
theorem client_of_passing {old : Option NonceEntry} {entry : NonceEntry}
    (h : passing client_id source_ip source_port now old = some entry) :
    old = some entry ∧ entry.client_id = client_id := by
  obtain ⟨hold, hok⟩ := Option.filter_eq_some_iff.mp h
  refine ⟨hold, ?_⟩
  cases hcheck : check entry client_id source_ip source_port now with
  | error e =>
    rw [hcheck] at hok
    cases hok
  | ok u => exact (check_ok.mp hcheck).client

/-- Only an entry of the client passes for it. -/
theorem passing_owned : passing client_id source_ip source_port now (AList.lookup nonce store) =
    passing client_id source_ip source_port now (owned client_id store nonce) := by
  apply Option.ext
  intro entry
  constructor
  · intro h
    obtain ⟨hlookup, hclient⟩ := client_of_passing h
    rw [hlookup] at h
    rwa [owned_eq_some.mpr ⟨hlookup, hclient⟩]
  · intro h
    have howned := (client_of_passing h).1
    rw [howned] at h
    rwa [(owned_eq_some.mp howned).1]

theorem owned_consume_self :
    owned client_id (store.consume nonce client_id source_ip source_port now).2 =
      Function.update (owned client_id store) nonce
        (spend client_id source_ip source_port now (owned client_id store nonce)) := by
  unfold spend
  rw [(consume_outcome store nonce).2, passing_owned]
  cases hpassing : passing client_id source_ip source_port now (owned client_id store nonce) with
  | none => exact (Function.update_eq_self nonce _).symm
  | some entry =>
    have hclient := (client_of_passing hpassing).2
    funext k
    show owned client_id (AList.insert nonce { entry with used := true } store) k =
      Function.update (owned client_id store) nonce (some { entry with used := true }) k
    by_cases hk : k = nonce
    · rw [hk, Function.update_self, owned_eq_some]
      exact ⟨AList.lookup_insert _, hclient⟩
    · rw [Function.update_of_ne hk]
      unfold owned
      rw [AList.lookup_insert_ne hk]

theorem owned_consume_other (hother : other ≠ client_id) :
    owned client_id (store.consume nonce other source_ip source_port now).2 =
      owned client_id store := by
  rw [(consume_outcome store nonce).2]
  cases hpassing : passing other source_ip source_port now (AList.lookup nonce store) with
  | none => rfl
  | some entry =>
    obtain ⟨hentry, hclient⟩ := client_of_passing hpassing
    funext k
    show owned client_id (AList.insert nonce { entry with used := true } store) k = _
    unfold owned
    by_cases hk : k = nonce
    · rw [hk, AList.lookup_insert, hentry]
      simp [Option.filter, hclient, hother]
    · rw [AList.lookup_insert_ne hk]

theorem owned_purge_expired : owned client_id (store.purge_expired now).2 =
    fun k => (owned client_id store k).filter fun entry => now ≤ entry.expires_at_unix := by
  funext k
  unfold owned purge_expired
  rw [HashMap.lookup_retain, Option.filter_filter, Option.filter_filter]
  simp only [Bool.and_comm]

/-- Of a nonce that is refused, the error is left out. -/
def granted (r : Except ConsumeError NonceEntry) : Except ConsumeError NonceEntry :=
  r.mapError fun _ => .Unknown

theorem granted_of_toOption {r r' : Except ConsumeError NonceEntry} (h : r.toOption = r'.toOption) :
    granted r = granted r' := by
  cases r with
  | error e =>
    cases r' with
    | error e' => rfl
    | ok entry' => cases h
  | ok entry =>
    cases r' with
    | error e' => cases h
    | ok entry' => rw [Option.some.inj h]

theorem granted_validate {store' : NonceStore}
    (h : owned client_id store nonce = owned client_id store' nonce) :
    granted (store.validate nonce client_id source_ip source_port now) =
      granted (store'.validate nonce client_id source_ip source_port now) := by
  apply granted_of_toOption
  rw [validate_outcome, validate_outcome, passing_owned, passing_owned, h]

theorem granted_consume {store' : NonceStore}
    (h : owned client_id store nonce = owned client_id store' nonce) :
    granted (store.consume nonce client_id source_ip source_port now).1 =
      granted (store'.consume nonce client_id source_ip source_port now).1 := by
  apply granted_of_toOption
  rw [(consume_outcome store nonce).1, (consume_outcome store' nonce).1, passing_owned,
    passing_owned, h]

end owned

end NonceStore

namespace SeenCache

/-- The entries of the keys that begin alike. -/
def under (start : Bytes) (cache : SeenCache) (rest : Bytes) : Option Int64 :=
  AList.lookup (start ++ rest) cache

section under
variable {start key : Bytes} {cache : SeenCache} {now : Int64} {ttl_seconds : UInt64}

theorem under_insert_if_absent : under start (cache.insert_if_absent key now ttl_seconds).2 =
    fun rest =>
      if start ++ rest = key ∧
          ¬ (under start cache rest).any fun expires_at => now ≤ expires_at then
        some (unix_deadline now ttl_seconds)
      else under start cache rest := by
  funext rest
  rw [insert_if_absent_eq]
  unfold under
  by_cases hkey : start ++ rest = key
  · rw [hkey]
    cases (AList.lookup key cache).any fun expires_at => decide (now ≤ expires_at) with
    | true => simp
    | false => simp
  · simp only [hkey, false_and, if_false]
    split
    · rfl
    · exact AList.lookup_insert_ne hkey

theorem absent_of_lookup {cache' : SeenCache}
    (h : AList.lookup key cache = AList.lookup key cache') :
    (cache.insert_if_absent key now ttl_seconds).1 =
      (cache'.insert_if_absent key now ttl_seconds).1 := by
  rw [insert_if_absent_eq, insert_if_absent_eq, h]
  split <;> rfl

theorem under_purge_expired : under start (cache.purge_expired now).2 =
    fun rest => (under start cache rest).filter fun expires_at => now ≤ expires_at := by
  funext rest
  unfold under purge_expired
  exact HashMap.lookup_retain _ _ _

end under

end SeenCache

namespace CooldownTracker

section marked
variable {t : CooldownTracker} {key k : Str} {now : Instant}

theorem marked_mark : AList.lookup k (t.mark key now).last =
    if t.cooldown ≠ 0 ∧ k = key then some now else AList.lookup k t.last := by
  by_cases hoff : t.cooldown = 0
  · unfold mark
    rw [if_pos hoff, if_neg fun h => h.1 hoff]
  · rw [lookup_mark hoff]
    simp only [ne_eq, hoff, not_false_eq_true, true_and]

theorem marked_purge_stale : AList.lookup k (t.purge_stale now).last =
    (AList.lookup k t.last).filter fun since =>
      t.cooldown = 0 ∨ Instant.duration_since now since < t.cooldown := by
  by_cases hoff : t.cooldown = 0
  · unfold purge_stale
    rw [if_pos hoff]
    cases AList.lookup k t.last with
    | none => rfl
    | some since => simp [hoff, Option.filter]
  · rw [lookup_purge_stale hoff]
    simp only [hoff, false_or]

end marked

end CooldownTracker

namespace LeaseTracker

section answers
variable {t t' : LeaseTracker} {client_id : Str} {now : Instant}

/-- Whether a session is new is a matter of the client's own lease. -/
theorem is_new_of_entry (h : t.entry client_id = t'.entry client_id) (ip : IpAddr)
    (source_port : UInt16) (param : Option Str) (ttl : Duration) :
    (t.renew_at client_id ip source_port param ttl now).1 =
      (t'.renew_at client_id ip source_port param ttl now).1 := by
  rw [← Bool.not_inj_iff, Bool.eq_iff_iff, Bool.not_eq_true', Bool.not_eq_true', renew_at_not_new,
    renew_at_not_new, h]

/-- What is reported about a client that leaves, without the count of the others. -/
theorem released_of_entry (h : t.entry client_id = t'.entry client_id) (now' : Instant) :
    (t.release_at client_id now).1.map (fun x => (x.1, 0)) =
      (t'.release_at client_id now').1.map (fun x => (x.1, 0)) := by
  have hreleased (t : LeaseTracker) (now : Instant) :
      (t.release_at client_id now).1.map (fun x => (x.1, 0)) =
        (t.entry client_id).map fun l => (l.ended client_id, 0) := by
    unfold release_at entry
    cases AList.lookup client_id t.leases <;> rfl
  rw [hreleased, hreleased, h]

/-- A scan takes the client's own lease, if that is over. -/
theorem taken_eq {order : List Nat} :
    ((t.take_expired_at now order).1.filter fun x => x.1.client_id = client_id).map
        (fun x => (x.1, 0)) =
      ((t.entry client_id).filter fun l => !l.live now).toList.map
        fun l => (l.ended client_id, 0) := by
  -- a scan reports a client once at most, so the list has one element or none
  have hcount : ((t.take_expired_at now order).1.map fun x => x.1.client_id).count client_id =
      ((t.entry client_id).any fun l => !l.live now).toNat := t.count_take_expired_at
  have hlength :
      ((t.take_expired_at now order).1.filter fun x => x.1.client_id = client_id).length =
      ((t.entry client_id).any fun l => !l.live now).toNat := by
    rw [← hcount, List.count, List.countP_map, List.countP_eq_length_filter]
    exact congrArg List.length (List.filter_congr fun x _ => (beq_eq_decide ..).symm)
  have hown : ∀ x ∈ (t.take_expired_at now order).1.filter fun x => x.1.client_id = client_id,
      ∃ l, t.entry client_id = some l ∧ x.1 = l.ended client_id := by
    intro x hx
    obtain ⟨hmem, hid⟩ := List.mem_filter.mp hx
    obtain ⟨d, l, hl, -, rfl⟩ := mem_take_expired_at.mp hmem
    obtain rfl : d = client_id := of_decide_eq_true hid
    exact ⟨l, hl, rfl⟩
  generalize (t.take_expired_at now order).1.filter (fun x => x.1.client_id = client_id) = taken
    at hlength hown ⊢
  cases hl : t.entry client_id with
  | none =>
    rw [hl] at hlength
    rw [List.eq_nil_of_length_eq_zero hlength]
    rfl
  | some l =>
    rw [hl] at hlength hown
    cases hlive : l.live now with
    | true =>
      simp only [Option.any_some, hlive, Bool.not_true, Bool.toNat_false] at hlength
      rw [List.eq_nil_of_length_eq_zero hlength]
      simp [Option.filter, hlive]
    | false =>
      simp only [Option.any_some, hlive, Bool.not_false, Bool.toNat_true] at hlength
      obtain ⟨x, rfl⟩ := List.length_eq_one_iff.mp hlength
      obtain ⟨l', hl', hx⟩ := hown x List.mem_cons_self
      obtain rfl := Option.some.inj hl'
      simp [Option.filter, hlive, hx]

theorem taken_of_entry (h : t.entry client_id = t'.entry client_id) (order order' : List Nat) :
    ((t.take_expired_at now order).1.filter fun x => x.1.client_id = client_id).map
        (fun x => (x.1, 0)) =
      ((t'.take_expired_at now order').1.filter fun x => x.1.client_id = client_id).map
        (fun x => (x.1, 0)) := by
  rw [taken_eq, taken_eq, h]

end answers

end LeaseTracker

/-! ### The share -/

namespace Server

/-- What the tables hold for one client. -/
@[ext] structure Share where
  lease : Option Lease
  nonces : Bytes → Option NonceEntry
  /-- By the nonce of the HELLO. -/
  seen : Bytes → Option Int64
  cooldown : Duration
  marked : Option Instant

def share (c : ClientId) (s : State) : Share where
  lease := s.leases.entry c.to_hex
  nonces := NonceStore.owned c.to_hex s.nonce_store
  seen := SeenCache.under c.seen_start s.seen_hellos
  cooldown := s.cooldown.cooldown
  marked := AList.lookup (id_key c.to_hex) s.cooldown.last

/-- The effect of an operation, where no other client has any entries. -/
def Share.after (c : ClientId) (sh : Share) (now : Instant) (unix : Int64) : Op → Share
  | .nonce_insert nonce client_id source_ip source_port expires_at_unix =>
    if client_id = c.to_hex then
      { sh with
        nonces := Function.update sh.nonces nonce
          (some ⟨client_id, source_ip, source_port, unix, expires_at_unix, false⟩) }
    else sh
  | .nonce_consume nonce client_id source_ip source_port now =>
    if client_id = c.to_hex then
      { sh with
        nonces := Function.update sh.nonces nonce
          (NonceStore.spend client_id source_ip source_port now (sh.nonces nonce)) }
    else sh
  | .nonce_purge_expired now =>
    { sh with
      nonces := fun nonce => (sh.nonces nonce).filter fun entry => now ≤ entry.expires_at_unix }
  | .seen_insert_if_absent key now ttl_seconds =>
    { sh with
      seen := fun hello_nonce =>
        if c.seen_start ++ hello_nonce = key ∧
            ¬ (sh.seen hello_nonce).any fun expires_at => now ≤ expires_at then
          some (unix_deadline now ttl_seconds)
        else sh.seen hello_nonce }
  | .seen_purge_expired now =>
    { sh with
      seen := fun hello_nonce => (sh.seen hello_nonce).filter fun expires_at => now ≤ expires_at }
  | .cooldown_mark key =>
    { sh with
      marked := if sh.cooldown ≠ 0 ∧ id_key c.to_hex = key then some now else sh.marked }
  | .cooldown_purge_stale =>
    { sh with
      marked := sh.marked.filter fun since =>
        sh.cooldown = 0 ∨ Instant.duration_since now since < sh.cooldown }
  | .leases_renew client_id ip source_port param ttl =>
    { sh with
      lease := if c.to_hex = client_id then some ⟨now + ttl, ip, source_port, param⟩ else sh.lease }
  | .leases_release client_id =>
    { sh with lease := if c.to_hex = client_id then none else sh.lease }
  | .leases_take_expired => { sh with lease := sh.lease.filter fun l => l.live now }
  | _ => sh

/-! ### Operations on the share -/

section perform
variable {srv : Server} {c : ClientId} {o : Op} {e : Env} {s : State}

/-- The operation does not mint, for another client, a nonce that the client has an entry for, and
    it finds room for a lease of the client. -/
def Apart (c : ClientId) (s : State) : Op → Prop
  | .nonce_insert nonce client_id .. =>
    client_id ≠ c.to_hex → NonceStore.owned c.to_hex s.nonce_store nonce = none
  | .leases_renew client_id .. => client_id = c.to_hex → s.leases.HasRoom client_id
  | _ => True

instance (c : ClientId) (s : State) (o : Op) : Decidable (Apart c s o) :=
  match o with
  | .nonce_insert nonce client_id .. => inferInstanceAs
      (Decidable (client_id ≠ c.to_hex → NonceStore.owned c.to_hex s.nonce_store nonce = none))
  | .leases_renew client_id .. =>
    inferInstanceAs (Decidable (client_id = c.to_hex → s.leases.HasRoom client_id))
  | .now_unix | .nonce_generate | .verify_payload_raw .. | .rate_limiter_check _
  | .rate_limiter_purge_stale | .seen_insert_if_absent .. | .seen_purge_expired _
  | .nonce_validate .. | .nonce_consume .. | .nonce_purge_expired _ | .active_mark _ | .is_active _
  | .active_purge_stale | .is_blocked _ | .under_attack | .note_lockdown_drop | .note_rejection
  | .record_faulty _ | .blacklist_purge_stale | .lockdown_logged_store _ | .in_cooldown _
  | .cooldown_mark _ | .cooldown_purge_stale | .leases_release _ | .leases_others_on_ip ..
  | .leases_take_expired | .status_update _ | .seal_reply .. | .send_to .. | .inflight_acquire
  | .inflight_release | .hook_acquire .. | .hook_spawn .. | .hook_wait .. => isTrue trivial

theorem share_perform (h : Apart c s o) : share c (srv.perform o e s).2 =
    (share c s).after c (s.now + e.elapsed) e.unix o := by
  -- one case for each operation that writes to a table the share is cut from
  cases o
  case nonce_insert nonce client_id source_ip source_port expires_at_unix =>
    simp only [Share.after]
    split
    · rename_i hown
      subst hown
      exact Share.ext rfl NonceStore.owned_insert_self rfl rfl rfl
    · rename_i hother
      exact Share.ext rfl (NonceStore.owned_insert_other hother (h hother)) rfl rfl rfl
  case nonce_consume nonce client_id source_ip source_port now =>
    simp only [Share.after]
    split
    · rename_i hown
      subst hown
      exact Share.ext rfl NonceStore.owned_consume_self rfl rfl rfl
    · rename_i hother
      exact Share.ext rfl (NonceStore.owned_consume_other hother) rfl rfl rfl
  case nonce_purge_expired now => exact Share.ext rfl NonceStore.owned_purge_expired rfl rfl rfl
  case seen_insert_if_absent key now ttl_seconds =>
    exact Share.ext rfl rfl SeenCache.under_insert_if_absent rfl rfl
  case seen_purge_expired now => exact Share.ext rfl rfl SeenCache.under_purge_expired rfl rfl
  case cooldown_mark key =>
    exact Share.ext rfl rfl rfl CooldownTracker.mark_cooldown CooldownTracker.marked_mark
  case cooldown_purge_stale =>
    exact Share.ext rfl rfl rfl CooldownTracker.purge_stale_cooldown
      CooldownTracker.marked_purge_stale
  case leases_renew client_id ip source_port param ttl =>
    refine Share.ext ?_ rfl rfl rfl rfl
    by_cases hroom : s.leases.HasRoom client_id
    · exact LeaseTracker.entry_renew_at hroom
    · -- a full table turns another client away and stays as it is
      have hother : c.to_hex ≠ client_id := fun heq => hroom (h heq.symm)
      have htable : (s.leases.renew_at client_id ip source_port param ttl (s.now + e.elapsed)).2 =
          s.leases := LeaseTracker.renew_at_full hroom
      simp only [Share.after, if_neg hother]
      exact congrArg (LeaseTracker.entry · c.to_hex) htable
  case leases_release client_id =>
    exact Share.ext LeaseTracker.entry_release_at rfl rfl rfl rfl
  case leases_take_expired =>
    have hlease : ((tick s e).leases.take_expired_at (tick s e).now e.order).2.entry c.to_hex =
        ((tick s e).leases.entry c.to_hex).filter fun l => l.live (tick s e).now :=
      LeaseTracker.entry_take_expired_at
    exact Share.ext hlease rfl rfl rfl rfl
  all_goals rfl

end perform

/-! ### Operations on behalf of another client -/

theorem seen_start_injective {c d : ClientId} {rest rest' : Bytes}
    (h : c.seen_start ++ rest = d.seen_start ++ rest') : c = d := by
  unfold ClientId.seen_start at h
  rw [List.append_assoc, List.append_assoc] at h
  have hlength : c.bytes.val.length = d.bytes.val.length := by
    rw [c.bytes.property, d.bytes.property]
  have hbytes := (List.append_inj h hlength).1
  cases c
  cases d
  exact congrArg ClientId.mk (Subtype.ext hbytes)

section foreign
variable {srv : Server} {c d : ClientId} {o : Op} {e : Env} {s : State}

/-- The share of another client stays as it is. -/
theorem share_foreign (hdc : d ≠ c) (ho : Serves d o) (h : Apart c s o) :
    share c (srv.perform o e s).2 = share c s := by
  have hhex : d.to_hex ≠ c.to_hex := fun heq => hdc (ClientId.to_hex_injective heq)
  rw [share_perform h]
  cases o
  case nonce_insert => exact if_neg fun heq => hhex (ho.symm.trans heq)
  case nonce_consume => exact if_neg fun heq => hhex (ho.symm.trans heq)
  case seen_insert_if_absent key now ttl_seconds =>
    obtain ⟨hello_nonce, rfl⟩ := ho
    have hmiss (rest : Bytes) : c.seen_start ++ rest ≠ d.seen_start ++ hello_nonce :=
      fun heq => hdc (seen_start_injective heq).symm
    simp only [Share.after, hmiss, false_and, if_false]
  case cooldown_mark key =>
    have hmiss : id_key c.to_hex ≠ key := fun heq => hhex (id_key_injective (heq.trans ho)).symm
    simp only [Share.after, hmiss, and_false, if_false]
  case leases_renew =>
    simp only [Share.after]
    rw [if_neg fun heq => hhex (heq.trans ho).symm]
  case leases_release =>
    simp only [Share.after]
    rw [if_neg fun heq => hhex (heq.trans ho).symm]
  case nonce_purge_expired => exact ho.elim
  case seen_purge_expired => exact ho.elim
  case cooldown_purge_stale => exact ho.elim
  case leases_take_expired => exact ho.elim
  all_goals rfl

end foreign

/-! ### What a client has to do with an event -/

/-- The event, without what other clients have a part in: how many of them are on an IP, how many
    entries are purged, which of them hold leases that end, and why a nonce is refused. -/
def unshared (c : ClientId) : Event ops → Event ops
  | ⟨.nonce_validate nonce client_id ip port now, r⟩ =>
    ⟨.nonce_validate nonce client_id ip port now, NonceStore.granted r⟩
  | ⟨.nonce_consume nonce client_id ip port now, r⟩ =>
    ⟨.nonce_consume nonce client_id ip port now, NonceStore.granted r⟩
  | ⟨.nonce_purge_expired now, _⟩ => ⟨.nonce_purge_expired now, 0⟩
  | ⟨.seen_purge_expired now, _⟩ => ⟨.seen_purge_expired now, 0⟩
  | ⟨.leases_release client_id, r⟩ => ⟨.leases_release client_id, r.map fun x => (x.1, 0)⟩
  | ⟨.leases_others_on_ip ip client_id, _⟩ => ⟨.leases_others_on_ip ip client_id, 0⟩
  | ⟨.leases_take_expired, r⟩ =>
    ⟨.leases_take_expired, (r.filter fun x => x.1.client_id = c.to_hex).map fun x => (x.1, 0)⟩
  | ⟨.status_update (.rejected _), _⟩ => ⟨.status_update (.rejected false), ()⟩
  | ⟨.hook_acquire x h, permit⟩ => ⟨.hook_acquire x { h with ip_clients := 0 }, permit⟩
  | ⟨.hook_spawn x h, spawned⟩ => ⟨.hook_spawn x { h with ip_clients := 0 }, spawned⟩
  | ⟨.hook_wait x h, outcome⟩ => ⟨.hook_wait x { h with ip_clients := 0 }, outcome⟩
  | ev => ev

/-- What is decided at a step by others than the server and its clients: the clocks, the random
    generator, the network and the executors. -/
structure Input where
  time : Instant
  unix : Int64
  nonce : ByteVec NONCE_LEN
  xnonce : ByteVec XNONCE_LEN
  sent : Bool
  spawned : Bool
  outcome : WaitOutcome
  grant_permit : Bool
  revoke_permit : Bool
  deriving DecidableEq

def input (srv : Server) (e : Env) (s : State) : Input where
  time := s.now + e.elapsed
  unix := e.unix
  nonce := e.nonce
  xnonce := e.xnonce
  sent := e.sent
  spawned := e.spawned
  outcome := e.outcome
  grant_permit := srv.has_permit .grant s
  revoke_permit := srv.has_permit .revoke s

/-- The source of the packet is blocked, the server in lockdown, or the budget of HELLOs used up. -/
def hindered : Event ops → Bool
  | ⟨.is_blocked _, blocked⟩ => blocked
  | ⟨.under_attack, attacked⟩ => attacked
  | ⟨.rate_limiter_check _, allowed⟩ => !allowed
  | _ => false

abbrev Unhindered (ev : Event ops) : Prop := hindered ev = false

/-- The client has the same share of both states. -/
def Agree (c : ClientId) (s s' : State) : Prop := share c s = share c s' ∧ s.inflight = s'.inflight

/-- The answer is about the source of a packet, and others may have the same source. -/
def of_source : Op → Bool
  | .is_active _ | .record_faulty _ => true
  | _ => false

/-- Operations of a client that come to the same. -/
inductive Twin (c : ClientId) : Op → Op → Prop where
  | serves {o} (h : Serves c o) (ho : of_source o = false) : Twin c o o
  | sweep {o} (h : purges o = true ∨ o = .leases_take_expired) : Twin c o o
  | rejected (replay replay' : Bool) :
      Twin c (.status_update (.rejected replay)) (.status_update (.rejected replay'))
  | acquire (x : Executor) (h : HookCall) (n n' : Nat) :
      Twin c (.hook_acquire x { h with ip_clients := n })
        (.hook_acquire x { h with ip_clients := n' })
  | spawn (x : Executor) (h : HookCall) (n n' : Nat) :
      Twin c (.hook_spawn x { h with ip_clients := n }) (.hook_spawn x { h with ip_clients := n' })
  | wait (x : Executor) (h : HookCall) (n n' : Nat) :
      Twin c (.hook_wait x { h with ip_clients := n }) (.hook_wait x { h with ip_clients := n' })

section twins
variable {srv : Server} {c : ClientId} {o o' : Op} {e e' : Env} {s s' : State}

theorem share_twins (h : Twin c o o') (hagree : Agree c s s')
    (hinput : srv.input e s = srv.input e' s') (hs : Apart c s o) (hs' : Apart c s' o') :
    share c (srv.perform o e s).2 = share c (srv.perform o' e' s').2 := by
  have htime : s.now + e.elapsed = s'.now + e'.elapsed := congrArg Input.time hinput
  have hunix : e.unix = e'.unix := congrArg Input.unix hinput
  rw [share_perform hs, share_perform hs', hagree.1, htime, hunix]
  cases h <;> rfl

theorem inflight_twins (h : Twin c o o') (hagree : Agree c s s') :
    (srv.perform o e s).2.inflight = (srv.perform o' e' s').2.inflight := by
  have hinflight := hagree.2
  have hroom : srv.has_room (tick s e) = srv.has_room (tick s' e') := by
    unfold has_room tick
    dsimp only
    rw [hinflight]
  cases h with
  | serves h =>
    cases o
    case inflight_acquire =>
      show (if srv.has_room (tick s e) then s.inflight + 1 else s.inflight) =
        if srv.has_room (tick s' e') then s'.inflight + 1 else s'.inflight
      rw [hroom, hinflight]
    case inflight_release => exact congrArg (· - 1) hinflight
    all_goals exact hinflight
  | sweep h =>
    rcases h with h | rfl
    · cases o <;> first | exact hinflight | cases h
    · exact hinflight
  | rejected | acquire | spawn | wait => exact hinflight

theorem permit_of_input (x : Executor) (hinput : srv.input e s = srv.input e' s') :
    srv.has_permit x s = srv.has_permit x s' := by
  cases x with
  | grant => exact congrArg Input.grant_permit hinput
  | revoke => exact congrArg Input.revoke_permit hinput

/-- The same, except for what other clients have a part in. -/
theorem result_twins (h : Twin c o o') (hagree : Agree c s s')
    (hinput : srv.input e s = srv.input e' s')
    (hs : Unhindered ⟨o, (srv.perform o e s).1⟩) (hs' : Unhindered ⟨o', (srv.perform o' e' s').1⟩) :
    unshared c ⟨o, (srv.perform o e s).1⟩ = unshared c ⟨o', (srv.perform o' e' s').1⟩ := by
  have htime : s.now + e.elapsed = s'.now + e'.elapsed := congrArg Input.time hinput
  have hlease : s.leases.entry c.to_hex = s'.leases.entry c.to_hex :=
    congrArg Share.lease hagree.1
  -- the operations that may differ, and then those that are the same in both runs
  cases h with
  | rejected => rfl
  | acquire x h n n' =>
    have hpermit := permit_of_input x hinput
    exact congrArg (Event.mk (I := ops) (.hook_acquire x { h with ip_clients := 0 })) hpermit
  | spawn x h n n' =>
    exact congrArg (Event.mk (I := ops) (.hook_spawn x { h with ip_clients := 0 }))
      (congrArg Input.spawned hinput)
  | wait x h n n' =>
    exact congrArg (Event.mk (I := ops) (.hook_wait x { h with ip_clients := 0 }))
      (congrArg Input.outcome hinput)
  | sweep h =>
    -- only the reading of the clock and the expired leases come back from a sweep
    rcases h with h | rfl
    · cases o
      case now_unix => exact congrArg (Event.mk (I := ops) .now_unix) (congrArg Input.unix hinput)
      all_goals first | rfl | cases h
    · refine congrArg (Event.mk (I := ops) .leases_take_expired) ?_
      show ((s.leases.take_expired_at (s.now + e.elapsed) e.order).1.filter _).map _ =
        ((s'.leases.take_expired_at (s'.now + e'.elapsed) e'.order).1.filter _).map _
      rw [htime]
      exact LeaseTracker.taken_of_entry hlease e.order e'.order
  | serves h ho =>
    -- the result is read from the share or from the input, or it is a gate that both have passed
    cases o
    -- asked about the source of a datagram, not about a client
    case is_active => cases ho
    case record_faulty => cases ho
    case inflight_acquire =>
      have hroom : srv.has_room (tick s e) = srv.has_room (tick s' e') := by
        unfold has_room tick
        dsimp only
        rw [hagree.2]
      exact congrArg (Event.mk (I := ops) .inflight_acquire) hroom
    case now_unix => exact congrArg (Event.mk (I := ops) .now_unix) (congrArg Input.unix hinput)
    case nonce_generate =>
      exact congrArg (Event.mk (I := ops) .nonce_generate) (congrArg Input.nonce hinput)
    case verify_payload_raw => rfl
    case rate_limiter_check ip =>
      exact congrArg (Event.mk (I := ops) (.rate_limiter_check ip))
        (Bool.not_inj (hs.trans hs'.symm))
    case is_blocked ip => exact congrArg (Event.mk (I := ops) (.is_blocked ip)) (hs.trans hs'.symm)
    case under_attack => exact congrArg (Event.mk (I := ops) .under_attack) (hs.trans hs'.symm)
    case seen_insert_if_absent key now ttl_seconds =>
      obtain ⟨hello_nonce, rfl⟩ := h
      exact congrArg (Event.mk (I := ops) (.seen_insert_if_absent _ now ttl_seconds))
        (SeenCache.absent_of_lookup (congrFun (congrArg Share.seen hagree.1) hello_nonce))
    case nonce_validate nonce client_id source_ip source_port now =>
      obtain rfl : client_id = c.to_hex := h
      exact congrArg (Event.mk (I := ops) (.nonce_validate nonce _ source_ip source_port now))
        (NonceStore.granted_validate (congrFun (congrArg Share.nonces hagree.1) nonce))
    case nonce_consume nonce client_id source_ip source_port now =>
      obtain rfl : client_id = c.to_hex := h
      exact congrArg (Event.mk (I := ops) (.nonce_consume nonce _ source_ip source_port now))
        (NonceStore.granted_consume (congrFun (congrArg Share.nonces hagree.1) nonce))
    case in_cooldown key =>
      obtain rfl : key = id_key c.to_hex := h
      refine congrArg (Event.mk (I := ops) (.in_cooldown _)) ?_
      show s.cooldown.in_cooldown _ (s.now + e.elapsed) =
        s'.cooldown.in_cooldown _ (s'.now + e'.elapsed)
      have hcooldown : s.cooldown.cooldown = s'.cooldown.cooldown :=
        congrArg Share.cooldown hagree.1
      have hmarked : AList.lookup (id_key c.to_hex) s.cooldown.last =
        AList.lookup (id_key c.to_hex) s'.cooldown.last := congrArg Share.marked hagree.1
      rw [CooldownTracker.in_cooldown_eq, CooldownTracker.in_cooldown_eq, htime, hcooldown, hmarked]
    case leases_renew client_id ip source_port param ttl =>
      obtain rfl : client_id = c.to_hex := h
      refine congrArg (Event.mk (I := ops) (.leases_renew _ ip source_port param ttl)) ?_
      show ((tick s e).leases.renew_at _ _ _ _ _ (s.now + e.elapsed)).1 =
        ((tick s' e').leases.renew_at _ _ _ _ _ (s'.now + e'.elapsed)).1
      rw [htime]
      exact LeaseTracker.is_new_of_entry hlease ip source_port param ttl
    case leases_release client_id =>
      obtain rfl : client_id = c.to_hex := h
      exact congrArg (Event.mk (I := ops) (.leases_release _))
        (LeaseTracker.released_of_entry hlease (s'.now + e'.elapsed))
    case seal_reply secret eph plaintext bind =>
      exact congrArg (fun xnonce => Event.mk (I := ops) (.seal_reply secret eph plaintext bind)
        (srv.crypto.seal_reply secret eph plaintext bind xnonce)) (congrArg Input.xnonce hinput)
    case send_to datagram peer =>
      exact congrArg (Event.mk (I := ops) (.send_to datagram peer)) (congrArg Input.sent hinput)
    case hook_acquire x call =>
      have hpermit := permit_of_input x hinput
      exact congrArg (Event.mk (I := ops) (.hook_acquire x { call with ip_clients := 0 })) hpermit
    case hook_spawn x call =>
      exact congrArg (Event.mk (I := ops) (.hook_spawn x { call with ip_clients := 0 }))
        (congrArg Input.spawned hinput)
    case hook_wait x call =>
      exact congrArg (Event.mk (I := ops) (.hook_wait x { call with ip_clients := 0 }))
        (congrArg Input.outcome hinput)
    all_goals first | rfl | exact h.elim

end twins

end Server

end SignedPulse
