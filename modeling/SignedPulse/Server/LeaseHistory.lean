import SignedPulse.Framework.Housekeeping
import SignedPulse.Server.Leases
import Mathlib.Data.List.Dedup
import Mathlib.Data.List.Induction

/-! # Leases and the history of renewals

    `latest` is what a lease table is for: the latest renewal of a client since
    its last release. It can be read off the calls without a table, and scans
    have no part in it. The table drops a lease once a scan has taken it
    (`taken`); every answer but that of a release is a function of `latest`.
-/

namespace SignedPulse

namespace LeaseTracker

inductive Call where
  | renew (client_id : Str) (ip : IpAddr) (source_port : UInt16) (param : Option Str)
      (ttl : Duration)
  | release (client_id : Str)
  | others_on_ip (ip : IpAddr) (client_id : Str)
  /-- The table is walked in the order that `order` decides. -/
  | take_expired (order : List Nat)
  deriving DecidableEq

inductive Answer where
  | renewed (is_new : Bool)
  | released (ended : Option (ExpiredLease × Nat))
  | others (n : Nat)
  | expired (ended : List (ExpiredLease × Nat))
  deriving DecidableEq

def step : Store Instant Call Answer LeaseTracker := fun t now call =>
  match call with
  | .renew client_id ip source_port param ttl =>
    (some (.renewed (t.renew_at client_id ip source_port param ttl now).1),
      (t.renew_at client_id ip source_port param ttl now).2)
  | .release client_id =>
    (some (.released (t.release_at client_id now).1), (t.release_at client_id now).2)
  | .others_on_ip ip client_id => (some (.others (t.others_on_ip ip client_id now)), t)
  | .take_expired order =>
    (some (.expired (t.take_expired_at now order).1), (t.take_expired_at now order).2)

/-- The table is below its cap, or the client is in it. -/
def Room (t : LeaseTracker) (_ : Instant) : Call → Prop
  | .renew client_id .. => t.HasRoom client_id
  | _ => True

def Call.is_scan : Call → Bool
  | .take_expired _ => true
  | _ => false

/-! ### History -/

/-- The lease that a renewal creates. -/
def renewal (c : Str) (old : Option Lease) (d : Timed Instant Call) : Option Lease :=
  match d.call with
  | .renew client_id ip source_port param ttl =>
    if client_id = c then
      some { expires_at := d.now + ttl, ip := ip, source_port := source_port, param := param }
    else old
  | .release client_id => if client_id = c then none else old
  | _ => old

/-- The latest renewal of `c` since its last release. -/
def latest (calls : List (Timed Instant Call)) (c : Str) : Option Lease :=
  calls.foldl (renewal c) none

/-- Whether a scan has come since the latest renewal of `c` and found it expired. -/
def taken (c : Str) (calls : List (Timed Instant Call)) : Bool :=
  (calls.foldl (fun h d =>
    (renewal c h.1 d,
      match d.call with
      | .renew client_id .. => if client_id = c then false else h.2
      | .release client_id => if client_id = c then false else h.2
      | .others_on_ip .. => h.2
      | .take_expired _ => h.2 || h.1.any (fun l => !l.live d.now)))
    ((none, false) : Option Lease × Bool)).2

/-- The clients that were renewed. -/
def clients (calls : List (Timed Instant Call)) : List Str :=
  (calls.filterMap fun d =>
    match d.call with
    | .renew client_id .. => some client_id
    | _ => none).dedup

/-- How many clients other than `c` have a latest renewal that is on `ip` and has not expired. -/
def others (calls : List (Timed Instant Call)) (now : Instant) (ip : IpAddr) (c : Str) : Nat :=
  ((clients calls).filter fun c' =>
    c' ≠ c ∧ (latest calls c').any (fun l => l.live now && l.ip = ip)).length

section history
variable {calls : List (Timed Instant Call)} {d : Timed Instant Call} {c : Str}

@[simp] theorem latest_nil : latest [] c = none := rfl

theorem latest_snoc : latest (calls ++ [d]) c = renewal c (latest calls c) d := by
  simp [latest]

theorem taken_snoc : taken c (calls ++ [d]) =
    match d.call with
    | .renew client_id .. => if client_id = c then false else taken c calls
    | .release client_id => if client_id = c then false else taken c calls
    | .others_on_ip .. => taken c calls
    | .take_expired _ => taken c calls || (latest calls c).any (fun l => !l.live d.now) := by
  -- the first component is the history itself
  have hfst (calls : List (Timed Instant Call)) (h : Option Lease × Bool) :
      (calls.foldl (fun h d =>
        (renewal c h.1 d,
          match d.call with
          | .renew client_id .. => if client_id = c then false else h.2
          | .release client_id => if client_id = c then false else h.2
          | .others_on_ip .. => h.2
          | .take_expired _ => h.2 || h.1.any (fun l => !l.live d.now))) h).1 =
        calls.foldl (renewal c) h.1 := by
    induction calls generalizing h with
    | nil => rfl
    | cons d calls ih => exact ih _
  unfold taken latest
  rw [List.foldl_append, List.foldl_cons, List.foldl_nil]
  dsimp only
  rw [hfst]

/-- A client without a renewal has no lease. -/
theorem mem_clients {l : Lease} (h : latest calls c = some l) : c ∈ clients calls := by
  unfold clients
  rw [List.mem_dedup]
  induction calls using List.reverseRecOn with
  | nil => cases h
  | append_singleton calls d ih =>
    rw [List.filterMap_append, List.mem_append]
    rw [latest_snoc] at h
    unfold renewal at h
    split at h
    · split at h
      · rename_i hcall hc
        refine .inr ?_
        simp [hcall, hc]
      · exact .inl (ih h)
    · split at h
      · cases h
      · exact .inl (ih h)
    · exact .inl (ih h)

/-- The calls other than scans. -/
def unscanned (calls : List (Timed Instant Call)) : List (Timed Instant Call) :=
  calls.filter (fun d => !d.call.is_scan)

/-- Scans have no part in the history. -/
theorem latest_unscanned : latest (unscanned calls) c = latest calls c := by
  unfold unscanned
  induction calls using List.reverseRecOn with
  | nil => rfl
  | append_singleton calls d ih =>
    rw [List.filter_append, latest_snoc]
    cases hscan : d.call.is_scan with
    | false =>
      rw [List.filter_cons_of_pos (by simp [hscan]), List.filter_nil, latest_snoc, ih]
    | true =>
      rw [List.filter_cons_of_neg (by simp [hscan]), List.filter_nil, List.append_nil, ih]
      unfold renewal
      cases hcall : d.call with
      | take_expired => rfl
      | _ => simp [hcall, Call.is_scan] at hscan

theorem clients_unscanned : clients (unscanned calls) = clients calls := by
  unfold clients unscanned
  rw [List.filterMap_filter]
  congr 1
  refine List.filterMap_congr fun d _ => ?_
  cases d.call <;> rfl

theorem others_unscanned (now : Instant) (ip : IpAddr) (c : Str) :
    others (unscanned calls) now ip c = others calls now ip c := by
  unfold others
  rw [clients_unscanned]
  simp only [latest_unscanned]

end history

/-! ### The table and the history -/

/-- The table after some calls: the latest renewals, but for those that a scan has taken. -/
structure Keeps (calls : List (Timed Instant Call)) (t : LeaseTracker) : Prop where
  entry : ∀ c, t.entry c = if taken c calls then none else latest calls c
  swept : ∀ c, taken c calls = true → ∃ l, latest calls c = some l ∧
    ∃ d ∈ calls, l.expires_at ≤ d.now

section keeps
variable {calls : List (Timed Instant Call)} {t : LeaseTracker} {now : Instant}

/-- What a scan has taken was over. -/
theorem Keeps.dead (h : Keeps calls t) (hpast : ∀ d ∈ calls, d.now ≤ now) {c : Str}
    (htaken : taken c calls = true) : ∃ l, latest calls c = some l ∧ l.live now = false := by
  obtain ⟨l, hl, d, hd, hover⟩ := h.swept c htaken
  exact ⟨l, hl, decide_eq_false (Nat.not_lt.mpr (le_trans hover (hpast d hd)))⟩

/-- A live lease is in the table. -/
theorem Keeps.live (h : Keeps calls t) (hpast : ∀ d ∈ calls, d.now ≤ now) {c : Str} {l : Lease} :
    (t.entry c = some l ∧ l.live now = true) ↔ (latest calls c = some l ∧ l.live now = true) := by
  rw [h.entry c]
  split
  · rename_i htaken
    obtain ⟨l', hl', hdead⟩ := h.dead hpast htaken
    rw [hl']
    constructor
    · rintro ⟨hnone, -⟩
      cases hnone
    · rintro ⟨hsome, hlive⟩
      rw [← Option.some.inj hsome, hdead] at hlive
      cases hlive
  · exact Iff.rfl

/-- Counting live entries is counting clients. -/
theorem Keeps.count (h : Keeps calls t) (hpast : ∀ d ∈ calls, d.now ≤ now) (ip : IpAddr) (c : Str) :
    t.leases.count (fun cid l => decide (now < l.expires_at ∧ l.ip = ip ∧ cid ≠ c)) =
      others calls now ip c := by
  refine HashMap.count_eq_length ((List.nodup_dedup _).filter _) fun c' => ?_
  rw [List.mem_filter, decide_eq_true_eq, Option.any_eq_true]
  constructor
  · rintro ⟨-, hne, l, hl, hmatch⟩
    obtain ⟨hlive, hip⟩ := (Bool.and_eq_true _ _).mp hmatch
    refine ⟨l, ((h.live hpast).mpr ⟨hl, hlive⟩).1, ?_⟩
    exact decide_eq_true ⟨of_decide_eq_true hlive, of_decide_eq_true hip, hne⟩
  · rintro ⟨l, hl, hmatch⟩
    obtain ⟨hnow, hip, hne⟩ := of_decide_eq_true hmatch
    have hlive : l.live now = true := decide_eq_true hnow
    have hlatest := ((h.live hpast).mp ⟨hl, hlive⟩).1
    exact ⟨mem_clients hlatest, hne, l, hlatest, by simp [hlive, hip]⟩

/-- The live leases of a table from which nothing but the lease of `c` is missing. -/
theorem Keeps.live_on (h : Keeps calls t) (hpast : ∀ d ∈ calls, d.now ≤ now) {c : Str}
    {t' : LeaseTracker} (ht' : ∀ c' l, l.live now = true →
      (t'.entry c' = some l ↔ c' ≠ c ∧ t.entry c' = some l)) (ip : IpAddr) :
    t'.live_on ip now = others calls now ip c := by
  refine HashMap.count_eq_length ((List.nodup_dedup _).filter _) fun c' => ?_
  rw [List.mem_filter, decide_eq_true_eq, Option.any_eq_true]
  constructor
  · rintro ⟨-, hne, l, hl, hmatch⟩
    obtain ⟨hlive, hip⟩ := (Bool.and_eq_true _ _).mp hmatch
    refine ⟨l, (ht' c' l hlive).mpr ⟨hne, ((h.live hpast).mpr ⟨hl, hlive⟩).1⟩, ?_⟩
    exact decide_eq_true ⟨of_decide_eq_true hlive, of_decide_eq_true hip⟩
  · rintro ⟨l, hl, hmatch⟩
    obtain ⟨hnow, hip⟩ := of_decide_eq_true hmatch
    have hlive : l.live now = true := decide_eq_true hnow
    obtain ⟨hne, hentry⟩ := (ht' c' l hlive).mp hl
    have hlatest := ((h.live hpast).mp ⟨hentry, hlive⟩).1
    exact ⟨mem_clients hlatest, hne, l, hlatest, by simp [hlive, hip]⟩

/-- Step lemma. -/
theorem Keeps.step (h : Keeps calls t) {d : Timed Instant Call} (hroom : t.Room d.now d.call) :
    Keeps (calls ++ [d]) (LeaseTracker.step t d.now d.call).2 := by
  obtain ⟨now, call⟩ := d
  have hearlier {c : Str} (htaken : taken c calls = true) : ∃ l, latest calls c = some l ∧
      ∃ d ∈ calls ++ [⟨now, call⟩], l.expires_at ≤ d.now := by
    obtain ⟨l, hl, d, hd, hover⟩ := h.swept c htaken
    exact ⟨l, hl, d, List.mem_append_left _ hd, hover⟩
  cases call with
  | others_on_ip ip client_id =>
    exact ⟨fun c => by rw [taken_snoc, latest_snoc]; exact h.entry c, fun c htaken => by
      rw [taken_snoc] at htaken
      rw [latest_snoc]
      exact hearlier htaken⟩
  | renew client_id ip source_port param ttl =>
    refine ⟨fun c => ?_, fun c htaken => ?_⟩
    · rw [taken_snoc, latest_snoc]
      show (t.renew_at client_id ip source_port param ttl now).2.entry c = _
      rw [entry_renew_at hroom]
      unfold renewal
      by_cases hc : client_id = c
      · simp [hc]
      · simpa [hc, Ne.symm hc] using h.entry c
    · rw [taken_snoc] at htaken
      rw [latest_snoc]
      unfold renewal
      dsimp only at htaken ⊢
      split at htaken
      · cases htaken
      · rename_i hc
        rw [if_neg hc]
        exact hearlier htaken
  | release client_id =>
    refine ⟨fun c => ?_, fun c htaken => ?_⟩
    · rw [taken_snoc, latest_snoc]
      show (t.release_at client_id now).2.entry c = _
      rw [entry_release_at]
      unfold renewal
      by_cases hc : client_id = c
      · simp [hc]
      · simpa [hc, Ne.symm hc] using h.entry c
    · rw [taken_snoc] at htaken
      rw [latest_snoc]
      unfold renewal
      dsimp only at htaken ⊢
      split at htaken
      · cases htaken
      · rename_i hc
        rw [if_neg hc]
        exact hearlier htaken
  | take_expired order =>
    refine ⟨fun c => ?_, fun c htaken => ?_⟩
    · rw [taken_snoc, latest_snoc]
      show (t.take_expired_at now order).2.entry c = _
      rw [entry_take_expired_at, h.entry c]
      show _ = if (taken c calls || (latest calls c).any fun l => !l.live now) = true then none
        else latest calls c
      cases taken c calls with
      | true => rfl
      | false =>
        cases latest calls c with
        | none => rfl
        | some l => cases hlive : l.live now <;> simp [Option.filter, hlive]
    · rw [taken_snoc] at htaken
      rw [latest_snoc]
      rcases (Bool.or_eq_true _ _).mp htaken with htaken | hdead
      · exact hearlier htaken
      · -- taken by this scan
        obtain ⟨l, hl, hdead⟩ := (Option.any_eq_true _ _).mp hdead
        refine ⟨l, hl, ⟨now, .take_expired order⟩, by simp, ?_⟩
        exact Nat.not_lt.mp (of_decide_eq_false (by simpa [Lease.live] using hdead))

/-- Run lemma. -/
theorem keeps_after {max_entries : Nat} {calls : List (Timed Instant Call)}
    (hroom : Store.Throughout LeaseTracker.step Room (new max_entries) calls) :
    Keeps calls (Store.after LeaseTracker.step (new max_entries) calls) := by
  induction calls using List.reverseRecOn with
  | nil => exact ⟨fun c => rfl, fun c htaken => by cases htaken⟩
  | append_singleton calls d ih =>
    obtain ⟨hearlier, hnow⟩ := (Store.throughout_snoc _).mp hroom
    rw [Store.after_snoc]
    exact (ih hearlier).step hnow

end keeps

/-! ### Answers -/

/-- What a call at `now` is answered after `past`. -/
def Answered (past : List (Timed Instant Call)) (now : Instant) (answer : Option Answer) :
    Call → Prop
  | .renew client_id .. =>
    -- new, unless there is a renewal that has not expired
    answer = some (.renewed ((latest past client_id).all (fun l => !l.live now)))
  | .others_on_ip ip client_id => answer = some (.others (others past now ip client_id))
  | .release client_id =>
    answer = some (.released (if taken client_id past then none
      else (latest past client_id).map fun l =>
        (l.ended client_id, others past now l.ip client_id)))
  | .take_expired _ =>
    ∃ out, answer = some (.expired out) ∧ (out.map (fun x => x.1.client_id)).Nodup ∧
      ∀ x, x ∈ out ↔ ∃ c l, latest past c = some l ∧ l.live now = false ∧ taken c past = false ∧
        x = (l.ended c, others past now l.ip c)

section answers
variable {calls : List (Timed Instant Call)} {t : LeaseTracker} {now : Instant}

theorem Keeps.renew (h : Keeps calls t) (hpast : ∀ d ∈ calls, d.now ≤ now) (client_id : Str)
    (ip : IpAddr) (source_port : UInt16) (param : Option Str) (ttl : Duration) :
    (t.renew_at client_id ip source_port param ttl now).1 =
      (latest calls client_id).all (fun l => !l.live now) := by
  have hfalse : (t.renew_at client_id ip source_port param ttl now).1 = false ↔
      (latest calls client_id).all (fun l => !l.live now) = false := by
    rw [renew_at_not_new, exists_congr fun l => h.live hpast]
    cases latest calls client_id <;> simp
  cases hnew : (latest calls client_id).all (fun l => !l.live now) with
  | false => exact hfalse.mpr hnew
  | true =>
    rw [hnew] at hfalse
    exact Bool.eq_true_of_not_eq_false fun hold => Bool.noConfusion (hfalse.mp hold)

theorem Keeps.release (h : Keeps calls t) (hpast : ∀ d ∈ calls, d.now ≤ now) (client_id : Str) :
    (t.release_at client_id now).1 = if taken client_id calls then none
      else (latest calls client_id).map fun l =>
        (l.ended client_id, others calls now l.ip client_id) := by
  have hentry := h.entry client_id
  cases hrelease : (t.release_at client_id now).1 with
  | none =>
    rw [entry_of_release_none hrelease] at hentry
    split at hentry
    · rename_i htaken
      rw [if_pos htaken]
    · rename_i hkept
      rw [if_neg hkept, ← hentry]
      rfl
  | some x =>
    obtain ⟨l, hl, hended, hremaining⟩ := release_at_some (e := x.1) hrelease
    rw [hl] at hentry
    split at hentry
    · cases hentry
    · rename_i hkept
      rw [if_neg hkept, ← hentry]
      -- nothing but the lease of this client is missing afterwards
      have hothers : (t.release_at client_id now).2.live_on l.ip now =
          others calls now l.ip client_id := by
        refine h.live_on hpast (fun c' l' _ => ?_) l.ip
        rw [entry_release_at]
        by_cases hc : c' = client_id <;> simp [hc]
      rw [Option.map_some, ← hothers, ← hremaining, ← hended]

theorem Keeps.take_expired (h : Keeps calls t) (hpast : ∀ d ∈ calls, d.now ≤ now)
    (order : List Nat) (x : ExpiredLease × Nat) : x ∈ (t.take_expired_at now order).1 ↔
      ∃ c l, latest calls c = some l ∧ l.live now = false ∧ taken c calls = false ∧
        x = (l.ended c, others calls now l.ip c) := by
  have hothers {c : Str} {l : Lease} (hl : t.entry c = some l) (hdead : l.live now = false) :
      (t.take_expired_at now order).2.live_on l.ip now = others calls now l.ip c := by
    refine h.live_on hpast (fun c' l' hlive => ?_) l.ip
    rw [entry_take_expired_at, Option.filter_eq_some_iff]
    constructor
    · rintro ⟨hl', -⟩
      refine ⟨?_, hl'⟩
      rintro rfl
      rw [hl] at hl'
      rw [Option.some.inj hl', hlive] at hdead
      cases hdead
    · rintro ⟨-, hl'⟩
      exact ⟨hl', hlive⟩
  rw [mem_take_expired_at]
  refine exists_congr fun c => exists_congr fun l => ?_
  constructor
  · rintro ⟨hl, hdead, rfl⟩
    have hentry := h.entry c
    rw [hl] at hentry
    split at hentry
    · cases hentry
    · rename_i hkept
      exact ⟨hentry.symm, hdead, Bool.eq_false_iff.mpr hkept, by rw [hothers hl hdead]⟩
  · rintro ⟨hl, hdead, hkept, rfl⟩
    have hentry : t.entry c = some l := by
      rw [h.entry c, hkept]
      exact hl
    exact ⟨hentry, hdead, by rw [hothers hentry hdead]⟩

/-- A scan reports about no client twice. -/
theorem take_expired_nodup (t : LeaseTracker) (now : Instant) (order : List Nat) :
    ((t.take_expired_at now order).1.map (fun x => x.1.client_id)).Nodup := by
  rw [List.nodup_iff_count_le_one]
  intro c
  rw [count_take_expired_at]
  exact Bool.toNat_le _

theorem Keeps.answered (h : Keeps calls t) (hpast : ∀ d ∈ calls, d.now ≤ now) (call : Call) :
    Answered calls now (LeaseTracker.step t now call).1 call := by
  cases call with
  | renew client_id ip source_port param ttl =>
    exact congrArg (fun b => some (Answer.renewed b))
      (h.renew hpast client_id ip source_port param ttl)
  | release client_id =>
    exact congrArg (fun x => some (Answer.released x)) (h.release hpast client_id)
  | others_on_ip ip client_id =>
    exact congrArg (fun n => some (Answer.others n)) (h.count hpast ip client_id)
  | take_expired order =>
    exact ⟨_, rfl, take_expired_nodup t now order, h.take_expired hpast order⟩

end answers

/-- Calls before one of the calls came no later than it. -/
theorem past_of_split {calls pre post : List (Timed Instant Call)} {d : Timed Instant Call}
    (hord : Timed.Ordered (· ≤ ·) calls) (hsplit : calls = pre ++ d :: post) :
    ∀ d' ∈ pre, d'.now ≤ d.now := by
  rw [hsplit] at hord
  exact fun d' hd' => (List.pairwise_append.mp hord).2.2 d' hd' d List.mem_cons_self

/-- All answers are read off the history of renewals, and a scan keeps every lease that has not
    expired. Of when scans came, nothing is seen in the other answers, except that an expired lease
    is not found by a release once a scan has taken it. -/
theorem lease_answers (max_entries : Nat) (calls : List (Timed Instant Call))
    (hord : Timed.Ordered (· ≤ ·) calls)
    (hroom : Store.Throughout LeaseTracker.step Room (new max_entries) calls) :
    (∀ pre d post, calls = pre ++ d :: post →
      let t := Store.after LeaseTracker.step (new max_entries) pre
      Answered pre d.now (LeaseTracker.step t d.now d.call).1 d.call ∧
        (d.call.is_scan = true → ∀ c, (LeaseTracker.step t d.now d.call).2.entry c =
          (t.entry c).filter (fun l => l.live d.now))) ∧
    (∀ calls', Timed.Ordered (· ≤ ·) calls' →
      Store.Throughout LeaseTracker.step Room (new max_entries) calls' →
      ∀ pre pre' d post post', calls = pre ++ d :: post → calls' = pre' ++ d :: post' →
      unscanned pre' = unscanned pre → d.call.is_scan = false →
      let t := Store.after LeaseTracker.step (new max_entries) pre
      let t' := Store.after LeaseTracker.step (new max_entries) pre'
      (LeaseTracker.step t' d.now d.call).1 = (LeaseTracker.step t d.now d.call).1 ∨
        ∃ c l, d.call = .release c ∧ latest pre c = some l ∧ l.live d.now = false ∧
          taken c pre' ≠ taken c pre) := by
  have hkeeps {calls pre post : List (Timed Instant Call)} {d : Timed Instant Call}
      (hroom : Store.Throughout LeaseTracker.step Room (new max_entries) calls)
      (hsplit : calls = pre ++ d :: post) :
      Keeps pre (Store.after LeaseTracker.step (new max_entries) pre) := by
    refine keeps_after ?_
    rw [hsplit] at hroom
    exact hroom.init
  refine ⟨fun pre d post hsplit => ⟨?_, fun hscan c => ?_⟩, ?_⟩
  · exact (hkeeps hroom hsplit).answered (past_of_split hord hsplit) d.call
  · cases hcall : d.call with
    | take_expired order =>
      show (take_expired_at _ d.now order).2.entry c = _
      exact entry_take_expired_at
    | _ => simp [hcall, Call.is_scan] at hscan
  · intro calls' hord' hroom' pre pre' d post post' hsplit hsplit' hsame hscan t t'
    have hkeeps₁ := hkeeps hroom hsplit
    have hkeeps₂ := hkeeps hroom' hsplit'
    have hpast₁ := past_of_split hord hsplit
    have hpast₂ := past_of_split hord' hsplit'
    have hanswer₁ := hkeeps₁.answered hpast₁ d.call
    have hanswer₂ := hkeeps₂.answered hpast₂ d.call
    have hlatest (c : Str) : latest pre' c = latest pre c := by
      rw [← latest_unscanned, hsame, latest_unscanned]
    have hothers (ip : IpAddr) (c : Str) : others pre' d.now ip c = others pre d.now ip c := by
      rw [← others_unscanned, hsame, others_unscanned]
    cases hcall : d.call with
    | take_expired order => simp [hcall, Call.is_scan] at hscan
    | renew client_id ip source_port param ttl =>
      rw [hcall] at hanswer₁ hanswer₂
      refine .inl (hanswer₂.trans (Eq.trans ?_ hanswer₁.symm))
      rw [hlatest]
    | others_on_ip ip client_id =>
      rw [hcall] at hanswer₁ hanswer₂
      refine .inl (hanswer₂.trans (Eq.trans ?_ hanswer₁.symm))
      rw [hothers]
    | release client_id =>
      rw [hcall] at hanswer₁ hanswer₂
      by_cases htaken : taken client_id pre' = taken client_id pre
      · refine .inl (hanswer₂.trans (Eq.trans ?_ hanswer₁.symm))
        rw [htaken, hlatest]
        simp only [hothers]
      · -- one of the two has been taken, so it was over
        have hover : ∃ l, latest pre client_id = some l ∧ l.live d.now = false := by
          cases hpre : taken client_id pre with
          | true => exact hkeeps₁.dead hpast₁ hpre
          | false =>
            have hpre' : taken client_id pre' = true :=
              Bool.eq_true_of_not_eq_false fun hfalse => htaken (hfalse.trans hpre.symm)
            obtain ⟨l, hl, hdead⟩ := hkeeps₂.dead hpast₂ hpre'
            exact ⟨l, (hlatest client_id).symm.trans hl, hdead⟩
        obtain ⟨l, hl, hdead⟩ := hover
        exact .inr ⟨client_id, l, rfl, hl, hdead, htaken⟩

/-- A client whose lease has expired at 20. -/
def expired_calls : List (Timed Instant Call) :=
  [⟨0, .renew ['1'] (.sample 1) 7370 none 10⟩, ⟨20, .others_on_ip
    (.sample 1) ['2']⟩]

def scanned_calls : List (Timed Instant Call) := expired_calls ++ [⟨20, .take_expired []⟩]

/-- A release finds the expired lease, unless a scan has come before it. -/
theorem release_sees_scan :
    unscanned scanned_calls = unscanned expired_calls ∧
    (LeaseTracker.step (Store.after LeaseTracker.step (new 1) expired_calls) 30
      (.release ['1'])).1 = some (.released (some
        ({ ip := .sample 1, client_id := ['1'], source_port := 7370, param := none },
          0))) ∧
    (LeaseTracker.step (Store.after LeaseTracker.step (new 1) scanned_calls) 30
      (.release ['1'])).1 = some (.released none) := by
  decide

theorem lease_answers_expired :
    Answered expired_calls 20
      (LeaseTracker.step (Store.after LeaseTracker.step (new 1) expired_calls) 20
        (.take_expired [])).1 (.take_expired []) := by
  have hord : Timed.Ordered (· ≤ ·) scanned_calls := by unfold Timed.Ordered; decide
  have hroom : Store.Throughout LeaseTracker.step Room (new 1) scanned_calls :=
    ⟨.inr (by decide), trivial, trivial, trivial⟩
  exact ((lease_answers 1 scanned_calls hord hroom).1 expired_calls ⟨20, .take_expired []⟩ [] rfl).1

end LeaseTracker

end SignedPulse
