import SignedPulse.Server.Rules

/-! # A HELLO is accepted once

    The lifetime of a replay-cache entry is twice the skew, counted from the
    acceptance, while a timestamp stays acceptable for one skew to either side.
    `deadline_outlasts_window` compares the two, at both ends of `i64` and
    `u64`; over whole runs the cache remembers every accepted key until then.
-/

namespace SignedPulse

namespace Server

open Interleaving

/-! ### The window and the lifetime -/

/-- Whenever the same timestamp is acceptable again, the first entry is still live. -/
theorem deadline_outlasts_window {srv : Server} {hello hello' : Hello} {now now' : Int64}
    (hsame : hello'.client_timestamp_unix = hello.client_timestamp_unix)
    (h : srv.within_skew hello now = true) (h' : srv.within_skew hello' now' = true) :
    now' ≤ unix_deadline now (saturating_mul srv.config.hello_max_skew_seconds 2) := by
  unfold within_skew at h h'
  rw [decide_eq_true_eq] at h h'
  rw [hsame] at h'
  have hlow := now.le_toInt
  have hhigh := now'.toInt_le
  have hmax : Int64.maxValue.toInt = 2 ^ 63 - 1 := rfl
  have htwo : (2 : UInt64).toNat = 2 := rfl
  have hsize : UInt64.size = 2 ^ 64 := rfl
  rw [Int64.le_iff_toInt_le, unix_deadline_toInt, saturating_mul_toNat, htwo]
  omega

/-! ### Demands on single tasks -/

/-- The HELLO that a task handles. -/
def hello_of (srv : Server) : Job → Option Hello
  | .datagram data _ =>
    match srv.packet_of data with
    | some (.Hello hello, _) => some hello
    | _ => none
  | .cleanup => none

/-- A task shows the replay cache the key of its HELLO, once and within the skew, and it mints a
    nonce once and after the cache has accepted. -/
def HelloDemand (srv : Server) (job : Job) (h : List (Event ops)) (ev : Event ops) : Prop :=
  match ev.op with
  | .seen_insert_if_absent key now ttl_seconds =>
    (∃ hello, srv.hello_of job = some hello ∧ key = replay_key hello ∧
      ttl_seconds = saturating_mul srv.config.hello_max_skew_seconds 2 ∧
      srv.within_skew hello now = true) ∧
    ∀ e ∈ h, e.op.area ≠ .cache
  | .nonce_generate =>
    (∃ key now ttl_seconds, ⟨.seen_insert_if_absent key now ttl_seconds, true⟩ ∈ h) ∧
    ∀ e ∈ h, e.op.area ≠ .random
  | _ => True

theorem hello_demand_of_area {srv : Server} {job : Job} {h : List (Event ops)} {ev : Event ops}
    (hcache : ev.op.area ≠ .cache) (hrandom : ev.op.area ≠ .random) :
    srv.HelloDemand job h ev := by
  unfold HelloDemand
  split
  · rename_i hop
    simp [hop, Op.area] at hcache
  · rename_i hop
    simp [hop, Op.area] at hrandom
  · trivial

/-- A program that touches neither the replay cache nor the random generator. -/
theorem hello_demand_of_touches {srv : Server} {job : Job} {areas : List Area} {p : ServerM Unit}
    (hp : Touches areas p) (hcache : Area.cache ∉ areas) (hrandom : Area.random ∉ areas)
    (h : List (Event ops)) :
    Program.wp (Program.histories (srv.HelloDemand job)) (fun _ _ => True) p h := by
  refine Program.wp_mono (fun _ _ _ => trivial) (hp.histories ?_)
  intro h ev hev
  exact hello_demand_of_area (fun heq => hcache (heq ▸ hev)) (fun heq => hrandom (heq ▸ hev))

theorem handle_hello_demand {srv : Server} {job : Job} {hello : Hello}
    (hjob : srv.hello_of job = some hello) (peer : SocketAddr) (reply : ReplyMode)
    {h : List (Event ops)} (hcache : ∀ e ∈ h, e.op.area ≠ .cache)
    (hrandom : ∀ e ∈ h, e.op.area ≠ .random) :
    Program.wp (Program.histories (srv.HelloDemand job)) (fun _ _ => True)
      (srv.handle_hello hello peer reply) h := by
  have hrejected (replay : Bool) (h : List (Event ops)) :
      Program.wp (Program.histories (srv.HelloDemand job)) (fun _ _ => True)
        (note_rejected replay) h :=
    hello_demand_of_touches (note_rejected_touches replay) (by decide) (by decide) h
  have hquiet {o : Op} {h : List (Event ops)} (hc : (o.area != .cache) = true)
      (hr : (o.area != .random) = true) (r : o.Res) : srv.HelloDemand job h ⟨o, r⟩ :=
    hello_demand_of_area (by simpa using hc) (by simpa using hr)
  unfold handle_hello
  refine Program.wp_histories_perform_bind.mpr fun allowed => ⟨hquiet rfl rfl _, ?_⟩
  split
  · exact hrejected false _
  split
  · refine Program.wp_histories_perform_bind.mpr fun checked => ⟨hquiet rfl rfl _, ?_⟩
    exact hrejected false _
  refine Program.wp_histories_perform_bind.mpr fun checked => ⟨hquiet rfl rfl _, ?_⟩
  split
  · exact hrejected false _
  refine Program.wp_histories_perform_bind.mpr fun now => ⟨hquiet rfl rfl _, ?_⟩
  split
  · exact hrejected false _
  -- past the skew check: this is the only call on the replay cache
  rename_i hskew
  refine Program.wp_histories_perform_bind.mpr fun fresh => ⟨?_, ?_⟩
  · refine ⟨⟨hello, hjob, rfl, rfl, by simpa using hskew⟩, ?_⟩
    intro e he
    simp only [List.mem_append, List.mem_singleton] at he
    rcases he with ((he | rfl) | rfl) | rfl
    · exact hcache e he
    all_goals simp [Op.area]
  split
  · exact hrejected true _
  rename_i hfresh
  have hfresh : fresh = true := by simpa using hfresh
  subst hfresh
  -- past the replay cache: this is the only nonce
  unfold issue_challenge
  refine Program.wp_histories_perform_bind.mpr fun u => ⟨hquiet rfl rfl _, ?_⟩
  refine Program.wp_histories_perform_bind.mpr fun nonce => ⟨?_, ?_⟩
  · refine ⟨⟨replay_key hello, now, saturating_mul srv.config.hello_max_skew_seconds 2,
      by simp⟩, ?_⟩
    intro e he
    simp only [List.mem_append, List.mem_singleton] at he
    rcases he with ((((he | rfl) | rfl) | rfl) | rfl) | rfl
    · exact hrandom e he
    all_goals simp [Op.area]
  · refine Program.wp_histories_perform_bind.mpr fun u => ⟨hquiet rfl rfl _, ?_⟩
    exact hello_demand_of_touches (srv.send_challenge_touches _ _ _ _ _) (by decide) (by decide) _

/-- Every task meets the demand. -/
theorem prog_hello_demand (srv : Server) (job : Job) :
    Program.wp (Program.histories (srv.HelloDemand job)) (fun _ _ => True) (srv.prog job) [] := by
  cases job with
  | datagram data peer =>
    refine wp_receive (fun h => ∀ e ∈ h, e.op.area ≠ .cache ∧ e.op.area ≠ .random)
      (fun _ => True) ?_ (fun _ _ => trivial) ?_ ?_ (by simp)
    · rintro h o r _ ho hInv rfl
      have hnew : o.area ≠ .cache ∧ o.area ≠ .random := by
        constructor <;> (intro heq; simp [heq] at ho)
      refine ⟨hello_demand_of_area hnew.1 hnew.2, ?_⟩
      intro e he
      rcases List.mem_append.mp he with he | he
      · exact hInv e he
      · rw [List.mem_singleton.mp he]
        exact hnew
    · intro h hInv
      refine wp_handle_datagram trivial
        (hello_demand_of_touches (note_faulty_touches _) (by decide) (by decide) h)
        (hello_demand_of_touches (note_rejected_touches _) (by decide) (by decide) h) ?_ ?_ ?_
      · intro hello reply hpacket
        have hjob : srv.hello_of (.datagram data peer) = some hello := by simp [hello_of, hpacket]
        exact handle_hello_demand hjob peer reply (fun e he => (hInv e he).1)
          (fun e he => (hInv e he).2)
      · intro resp reply _
        exact hello_demand_of_touches (srv.handle_response_touches resp peer) (by decide)
          (by decide) h
      · intro bye reply _
        exact hello_demand_of_touches (srv.handle_bye_touches bye peer) (by decide) (by decide) h
    · rintro h r _ - rfl
      have hrelease : srv.HelloDemand (.datagram data peer) h ⟨.inflight_release, r⟩ := trivial
      exact ⟨hrelease, trivial⟩
  | cleanup =>
    refine wp_cleanup (fun _ => True) (fun _ => True) ?_ ?_ trivial
    · rintro h o r _ ho - rfl
      refine ⟨?_, trivial⟩
      unfold HelloDemand
      cases o <;> trivial
    · intro h _
      exact hello_demand_of_touches srv.run_lease_scan_touches (by decide) (by decide) h

/-! ### Whole runs -/

/-- The clock reading a call on the replay cache works with. -/
def cache_now (ev : Event ops) : Option Int64 :=
  match ev.op with
  | .seen_insert_if_absent _ now _ => some now
  | .seen_purge_expired now => some now
  | _ => none

/-- The readings of all calls on the replay cache, in order. -/
def cache_clock (log : Log ops) : List Int64 := log.filterMap (fun x => cache_now x.2)

/-- The clock of the replay cache never goes back. -/
def ClockNonDecreasing (log : Log ops) : Prop := (cache_clock log).Pairwise (· ≤ ·)

theorem cache_clock_snoc (log : Log ops) (i : Nat) (ev : Event ops) :
    cache_clock (log ++ [(i, ev)]) = cache_clock log ++ (cache_now ev).toList := by
  unfold cache_clock
  rw [List.filterMap_append, List.filterMap_cons, List.filterMap_nil]
  cases cache_now ev <;> rfl

/-- The cache accepts `key`. -/
def accepted (key : Bytes) (now : Int64) (ttl_seconds : UInt64) : Event ops :=
  ⟨.seen_insert_if_absent key now ttl_seconds, true⟩

/-- What the replay cache guarantees, as long as its clock does not go back: accepted keys are
    remembered until their deadline, and accepted again only after it. -/
structure ReplayInv (s : State) (log : Log ops) : Prop where
  remembers : ∀ i key now ttl_seconds, (i, accepted key now ttl_seconds) ∈ log →
    s.seen_hellos.Remembers (cache_clock log) key (unix_deadline now ttl_seconds)
  once : ∀ pre post i key now ttl_seconds, log = pre ++ (i, accepted key now ttl_seconds) :: post →
    ∀ j now' ttl_seconds', (j, accepted key now' ttl_seconds') ∈ pre →
      unix_deadline now' ttl_seconds' < now

/-- An event that is not an acceptance and keeps what is remembered. -/
theorem ReplayInv.snoc {s s' : State} {log : Log ops} {i : Nat} {ev : Event ops}
    (h : ReplayInv s log)
    (hkeep : ∀ key limit, s.seen_hellos.Remembers (cache_clock log) key limit →
      s'.seen_hellos.Remembers (cache_clock (log ++ [(i, ev)])) key limit)
    (hev : ∀ key now ttl_seconds, ev ≠ accepted key now ttl_seconds) :
    ReplayInv s' (log ++ [(i, ev)]) where
  remembers := by
    intro j key now ttl_seconds hmem
    rcases List.mem_append.mp hmem with hmem | hmem
    · exact hkeep _ _ (h.remembers j key now ttl_seconds hmem)
    · exact absurd (Prod.mk.inj (List.mem_singleton.mp hmem)).2.symm (hev _ _ _)
  once := by
    intro pre post j key now ttl_seconds hsplit
    rcases snoc_eq_split hsplit with ⟨-, heq, -⟩ | ⟨post', -, hold⟩
    · exact absurd (Prod.mk.inj heq).2 (hev _ _ _)
    · exact h.once pre post' j key now ttl_seconds hold

/-- An acceptance. -/
theorem ReplayInv.snoc_accepted {s s' : State} {log : Log ops} {i : Nat} {key : Bytes}
    {now : Int64} {ttl_seconds : UInt64} (h : ReplayInv s log)
    (hkeep : ∀ key' limit, s.seen_hellos.Remembers (cache_clock log) key' limit →
      s'.seen_hellos.Remembers (cache_clock (log ++ [(i, accepted key now ttl_seconds)])) key'
        limit)
    (hnew : s'.seen_hellos.Remembers (cache_clock (log ++ [(i, accepted key now ttl_seconds)])) key
      (unix_deadline now ttl_seconds))
    (hpast : ∀ limit, s.seen_hellos.Remembers (cache_clock log) key limit → limit < now) :
    ReplayInv s' (log ++ [(i, accepted key now ttl_seconds)]) where
  remembers := by
    intro j key' now' ttl_seconds' hmem
    rcases List.mem_append.mp hmem with hmem | hmem
    · exact hkeep _ _ (h.remembers j key' now' ttl_seconds' hmem)
    · have hev := (Prod.mk.inj (List.mem_singleton.mp hmem)).2
      simp only [accepted, Event.mk.injEq, Op.seen_insert_if_absent.injEq] at hev
      obtain ⟨⟨rfl, rfl, rfl⟩, -⟩ := hev
      exact hnew
  once := by
    intro pre post j key' now' ttl_seconds' hsplit k n ttl hk
    rcases snoc_eq_split hsplit with ⟨rfl, heq, -⟩ | ⟨post', -, hold⟩
    · have hev := (Prod.mk.inj heq).2
      simp only [accepted, Event.mk.injEq, Op.seen_insert_if_absent.injEq] at hev
      obtain ⟨⟨rfl, rfl, rfl⟩, -⟩ := hev
      -- the new acceptance: the cache had forgotten all earlier ones
      exact hpast _ (h.remembers k key n ttl hk)
    · exact h.once pre post' j key' now' ttl_seconds' hold k n ttl hk

/-- Step lemma. -/
theorem ReplayInv.step {srv : Server} {s : State} {log : Log ops} {i : Nat} {o : Op} {e : Env}
    (h : ReplayInv s log)
    (hclock : ClockNonDecreasing (log ++ [(i, ⟨o, (srv.perform o e s).1⟩)])) :
    ReplayInv (srv.perform o e s).2 (log ++ [(i, ⟨o, (srv.perform o e s).1⟩)]) := by
  unfold ClockNonDecreasing at hclock
  rw [cache_clock_snoc] at hclock
  by_cases harea : o.area = .cache
  swap
  · -- the cache and its clock stay as they are
    have hnone : cache_now ⟨o, (srv.perform o e s).1⟩ = none := by
      cases o <;> first | rfl | exact absurd rfl harea
    refine h.snoc ?_ ?_
    · intro key limit hrem
      rw [cache_clock_snoc, hnone, Option.toList_none, List.append_nil, perform_seen_hellos harea]
      exact hrem
    · rintro key now ttl_seconds heq
      exact harea (congrArg (fun ev : Event ops => ev.op.area) heq)
  cases o <;> simp only [Op.area, reduceCtorEq] at harea
  case seen_purge_expired now =>
    refine h.snoc ?_ ?_
    · intro key limit hrem
      rw [cache_clock_snoc]
      exact hrem.purge
    · rintro key now ttl_seconds heq
      cases congrArg Event.op heq
  case seen_insert_if_absent key now ttl_seconds =>
    have hkeep (key' : Bytes) (limit : Int64)
        (hrem : s.seen_hellos.Remembers (cache_clock log) key' limit) :
        (srv.perform (.seen_insert_if_absent key now ttl_seconds) e s).2.seen_hellos.Remembers
          (cache_clock log ++ [now]) key' limit := hrem.insert
    cases hr : (s.seen_hellos.insert_if_absent key now ttl_seconds).1 with
    | false =>
      refine h.snoc ?_ ?_
      · intro key' limit hrem
        rw [cache_clock_snoc]
        exact hkeep key' limit hrem
      · intro key' now' ttl_seconds' heq
        simp only [accepted, Event.mk.injEq, Op.seen_insert_if_absent.injEq] at heq
        obtain ⟨⟨rfl, rfl, rfl⟩, hres⟩ := heq
        have hfalse : (srv.perform (.seen_insert_if_absent key now ttl_seconds) e s).1 = false := hr
        rw [hfalse] at hres
        cases eq_of_heq hres
    | true =>
      have hevent : (⟨.seen_insert_if_absent key now ttl_seconds,
          (srv.perform (.seen_insert_if_absent key now ttl_seconds) e s).1⟩ : Event ops) =
          accepted key now ttl_seconds := congrArg (Event.mk (I := ops) _) hr
      -- the clock has not gone back, so the cache still remembers what is not over
      have hle : ∀ n ∈ cache_clock log, n ≤ now := fun n hn =>
        (List.pairwise_append.mp hclock).2.2 n hn now (by simp [cache_now])
      rw [hevent]
      refine h.snoc_accepted ?_ ?_ ?_
      · intro key' limit hrem
        rw [cache_clock_snoc]
        exact hkeep key' limit hrem
      · exact SeenCache.insert_remembers hr
      · intro limit hrem
        exact hrem.past_of_insert hle hr

/-- Run lemma. -/
theorem replay_inv {srv : Server} {now : Instant} {unix : Int64} {c : Config ops State Job}
    (h : Reachable srv.machine srv.prog (srv.start now unix) c)
    (hclock : ClockNonDecreasing c.log) : ReplayInv c.state c.log := by
  revert hclock
  refine Reachable.invariant (fun s l => ClockNonDecreasing l → ReplayInv s l)
    srv.prog_hello_demand ?_ ?_ h
  · intro _
    exact ⟨by simp, by simp⟩
  · intro s l i job o e hInv _ hclock
    refine (hInv ?_).step hclock
    unfold ClockNonDecreasing at hclock
    rw [cache_clock_snoc] at hclock
    exact (List.pairwise_append.mp hclock).1

/-! ### At most once -/

/-- The same signed message: client, timestamp and HELLO nonce. -/
def SameHello (hello hello' : Hello) : Prop :=
  hello'.client_id = hello.client_id ∧
    hello'.client_timestamp_unix = hello.client_timestamp_unix ∧
    hello'.hello_nonce = hello.hello_nonce

/-- At position `k` of the log, a task that handles `hello` passes the skew check and the replay
    cache. -/
def Passes (srv : Server) (c : Config ops State Job) (k : Nat) (hello : Hello) : Prop :=
  ∃ i task key now ttl_seconds, c.log[k]? = some (i, accepted key now ttl_seconds) ∧
    c.tasks[i]? = some task ∧ srv.hello_of task.job = some hello

/-- At position `k` of the log, a task that handles `hello` mints a nonce. -/
def Mints (srv : Server) (c : Config ops State Job) (k : Nat) (hello : Hello) : Prop :=
  ∃ i task nonce, c.log[k]? = some (i, ⟨.nonce_generate, nonce⟩) ∧
    c.tasks[i]? = some task ∧ srv.hello_of task.job = some hello

section once
variable {srv : Server} {now : Instant} {unix : Int64} {c : Config ops State Job}

/-- What the demand says about an acceptance. -/
theorem Passes.checked (h : Reachable srv.machine srv.prog (srv.start now unix) c) {k : Nat}
    {hello : Hello} (hk : srv.Passes c k hello) :
    ∃ i now', c.log[k]? = some (i, accepted (replay_key hello) now'
        (saturating_mul srv.config.hello_max_skew_seconds 2)) ∧
      srv.within_skew hello now' = true := by
  obtain ⟨i, task, key, now', ttl_seconds, hlog, htask, hjob⟩ := hk
  obtain ⟨task', htask', ⟨hello', hjob', rfl, rfl, hskew⟩, -⟩ :=
    Reachable.guarded_at srv.prog_hello_demand h hlog
  obtain rfl : task' = task := Option.some.inj (htask'.symm.trans htask)
  obtain rfl : hello' = hello := Option.some.inj (hjob'.symm.trans hjob)
  exact ⟨i, now', hlog, hskew⟩

theorem passes_not_before (h : Reachable srv.machine srv.prog (srv.start now unix) c)
    (hclock : ClockNonDecreasing c.log) {k k' : Nat} {hello hello' : Hello}
    (hsame : SameHello hello hello') (hk : srv.Passes c k hello) (hk' : srv.Passes c k' hello') :
    ¬ k < k' := by
  intro hlt
  obtain ⟨i, n, hlog, hskew⟩ := hk.checked h
  obtain ⟨i', n', hlog', hskew'⟩ := hk'.checked h
  obtain ⟨hid, hts, hnonce⟩ := hsame
  have hkey : replay_key hello' = replay_key hello := by simp only [replay_key, hid, hnonce]
  rw [hkey] at hlog'
  -- the earlier acceptance lies before the split at the later one
  have hmem := List.mem_of_getElem? ((List.getElem?_take_of_lt hlt).trans hlog)
  have hpast := (replay_inv h hclock).once _ _ _ _ _ _ (take_cons_drop hlog') _ _ _ hmem
  exact absurd (deadline_outlasts_window hts hskew hskew') (Int64.not_le.mpr hpast)

/-- A nonce is minted only by a task whose HELLO has passed, and once by each task. -/
theorem Mints.passes (h : Reachable srv.machine srv.prog (srv.start now unix) c) {k : Nat}
    {hello : Hello} (hk : srv.Mints c k hello) :
    ∃ i j nonce, c.log[k]? = some (i, ⟨.nonce_generate, nonce⟩) ∧ j < k ∧
      (∃ key n ttl_seconds, c.log[j]? = some (i, accepted key n ttl_seconds)) ∧
      srv.Passes c j hello := by
  obtain ⟨i, task, nonce, hlog, htask, hjob⟩ := hk
  obtain ⟨task', htask', ⟨key, n, ttl_seconds, hmem⟩, -⟩ :=
    Reachable.guarded_at srv.prog_hello_demand h hlog
  rw [mem_own] at hmem
  obtain ⟨j, hj⟩ := List.getElem?_of_mem hmem
  have hjk : j < k := by
    by_contra hle
    rw [List.getElem?_eq_none (by rw [List.length_take]; omega)] at hj
    cases hj
  rw [List.getElem?_take_of_lt hjk] at hj
  exact ⟨i, j, nonce, hlog, hjk, ⟨key, n, ttl_seconds, hj⟩,
    ⟨i, task, key, n, ttl_seconds, hj, htask, hjob⟩⟩

theorem hello_accepted_once (h : Reachable srv.machine srv.prog (srv.start now unix) c)
    (hclock : ClockNonDecreasing c.log) {hello hello' : Hello} (hsame : SameHello hello hello') :
    (∀ k k', srv.Passes c k hello → srv.Passes c k' hello' → k = k') ∧
      (∀ k k', srv.Mints c k hello → srv.Mints c k' hello' → k = k') := by
  have hsame' : SameHello hello' hello := ⟨hsame.1.symm, hsame.2.1.symm, hsame.2.2.symm⟩
  have hpasses : ∀ k k', srv.Passes c k hello → srv.Passes c k' hello' → k = k' := by
    intro k k' hk hk'
    have h₁ := passes_not_before h hclock hsame hk hk'
    have h₂ := passes_not_before h hclock hsame' hk' hk
    omega
  refine ⟨hpasses, ?_⟩
  intro k k' hk hk'
  obtain ⟨i, j, nonce, hlog, hjk, ⟨key, n, ttl, hj⟩, hpass⟩ := hk.passes h
  obtain ⟨i', j', nonce', hlog', hjk', ⟨key', n', ttl', hj'⟩, hpass'⟩ := hk'.passes h
  -- both have passed at the same position, so it is one task
  obtain rfl : j = j' := hpasses j j' hpass hpass'
  obtain ⟨rfl, -⟩ := Prod.mk.inj (Option.some.inj (hj.symm.trans hj'))
  -- and a task mints once
  have hone {k k' : Nat} {nonce nonce' : ByteVec NONCE_LEN}
      (hlog : c.log[k]? = some (i, ⟨.nonce_generate, nonce⟩))
      (hlog' : c.log[k']? = some (i, ⟨.nonce_generate, nonce'⟩)) : ¬ k < k' := by
    intro hlt
    obtain ⟨task, -, -, hfirst⟩ := Reachable.guarded_at srv.prog_hello_demand h hlog'
    exact hfirst _ (mem_own_take hlog hlt) rfl
  have h₁ := hone hlog hlog'
  have h₂ := hone hlog' hlog
  omega

end once

/-- A HELLO of client 1 is received, and received again from another address. -/
def replayed_hello : List (Label Env Job) :=
  let hello := sample_hello 1 1000 7
  let data := (Packet.Hello hello).encode
  (.begin (.datagram data (sample_peer 1)) ::
    List.replicate 14 (.run 0 (sample_env 1000 1)) : List (Label Env Job)) ++
  (.begin (.datagram data (sample_peer 2)) ::
    List.replicate 11 (.run 1 (sample_env 1030 2)) : List (Label Env Job))

theorem hello_accepted_once_replayed :
    ∃ c, Interleaving.run sample.machine sample.prog (init (sample.start 0 1000)) replayed_hello =
        some c ∧
      (∀ k k', sample.Passes c k (sample_hello 1 1000 7) →
        sample.Passes c k' (sample_hello 1 1000 7) → k = k') := by
  have hrun : (Interleaving.run sample.machine sample.prog (init (sample.start 0 1000))
      replayed_hello).any (fun c => decide ((cache_clock c.log).Pairwise (· ≤ ·))) = true := by
    decide +kernel
  obtain ⟨c, hc, hclock⟩ := (Option.any_eq_true _ _).mp hrun
  refine ⟨c, hc, ?_⟩
  have hmono : (cache_clock c.log).Pairwise (· ≤ ·) := of_decide_eq_true hclock
  exact (hello_accepted_once (reachable_of_run _ _ hc) hmono ⟨rfl, rfl, rfl⟩).1

end Server

end SignedPulse
