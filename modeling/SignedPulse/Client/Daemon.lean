import SignedPulse.Client.Cycle
import SignedPulse.Framework.Record

/-! # The client's daemon

    `run_forever` starts one pulse loop for each target and answers requests
    for its status until it is shut down; then it may release the leases. The
    loops share one status map, in which each has a leg under the name of its
    target.

    `legs_on_record` says that the map, and every copy that is written out,
    shows of each target what its own loop has done, whatever the others do.
-/

namespace SignedPulse

open Interleaving DaemonM

/-! ### The status map -/

def ServerLegStatus.update (leg : ServerLegStatus) : LegUpdate → ServerLegStatus
  | .attempt now => { leg with last_attempt_at_unix := some now }
  | .result now (.ok ()) => { leg with last_success_at_unix := some now, last_result := "ok" }
  | .result _ (.error e) => { leg with last_result := e }

/-- `get_mut`, and the update if there is such a leg. -/
def update_leg (servers : HashMap Str ServerLegStatus) (name : Str) (u : LegUpdate) :
    HashMap Str ServerLegStatus :=
  match AList.lookup name servers with
  | none => servers
  | some leg => AList.insert name (leg.update u) servers

/-- What the platform returns for each operation. -/
abbrev DaemonEnv := (o : DaemonOp) → o.Res

def daemon_machine : Machine daemon_ops DaemonEnv (HashMap Str ServerLegStatus) where
  perform o e servers :=
    match o with
    | .leg_update name u => ((), update_leg servers name u)
    | .status_clone => (servers, servers)
    | o => (e o, servers)

/-! ### The tasks -/

/-- The text that `status` shows for a failed cycle. -/
def cycle_text (result : Except CycleError Unit) : Except String Unit :=
  result.mapError fun e => String.ofList e.text

/-- The pulse loop, for so many rounds; a panic ends it. -/
def Pulser.run_loop (pulser : Pulser) : (rounds : Nat) → DaemonM Unit
  | 0 => return ()
  | rounds + 1 => do
    let now ← now_unix
    -- an attempt that is under way shows as such
    leg_update pulser.target.name (.attempt now)
    let result ← pulser.run_cycle pulser.target.retries .Renew none
    match result with
    | none => return ()
    | some result => do
      leg_update pulser.target.name (.result now (cycle_text result))
      sleep pulser.target.interval
      pulser.run_loop rounds

/-- The client, with what it signs and seals with. -/
structure Daemon where
  client : Client
  crypto : Primitives
  /-- Ed25519 `sign`. -/
  sign : ByteVec 32 → Bytes → ByteVec SIG_LEN

namespace Daemon

def pulser_for (d : Daemon) (target : ServerTarget) : Pulser where
  signing_key := d.client.signing_key
  client_id := d.client.client_id
  target := target
  crypto := d.crypto
  sign := d.sign

def write_status : DaemonM Unit := do
  let snapshot ← status_clone
  write_snapshot snapshot

/-- Release every lease, as far as that works. -/
def send_bye_all (d : Daemon) : DaemonM Unit :=
  Program.each (fun target => do
    let _ ← (d.pulser_for target).run_cycle 1 .Release none
    return ()) d.client.targets

/-- The main task, with so many requests for the status before the shutdown. -/
def run_forever (d : Daemon) : (dumps : Nat) → DaemonM Unit
  | 0 => if d.client.bye_on_shutdown then d.send_bye_all else return ()
  | dumps + 1 => do
    write_status
    d.run_forever dumps

end Daemon

inductive DaemonJob where
  | main (dumps : Nat)
  | leg (target : ServerTarget) (rounds : Nat)

namespace Daemon

def prog (d : Daemon) : DaemonJob → DaemonM Unit
  | .main dumps => d.run_forever dumps
  | .leg target rounds => (d.pulser_for target).run_loop rounds

/-- The state of the daemon's tasks. -/
abbrev DaemonConfig := Config daemon_ops (HashMap Str ServerLegStatus) DaemonJob

/-- Task `i` is the loop of the target. -/
def Pulses (c : DaemonConfig) (i : Nat) (t : ServerTarget) : Prop :=
  ∃ task rounds, c.tasks[i]? = some task ∧ task.job = .leg t rounds

/-- One loop for each target, at most. -/
structure Spawned (d : Daemon) (c : DaemonConfig) : Prop where
  targets : ∀ i t, Pulses c i t → t ∈ d.client.targets
  once : ∀ i j t, Pulses c i t → Pulses c j t → i = j

/-! ### The map as a record of updates -/

/-- The updates of the leg of that name, in order. -/
def leg_updates (name : Str) (evs : List (Event daemon_ops)) : List LegUpdate :=
  evs.filterMap fun ev =>
    match ev.op with
    | .leg_update name' u => if name' = name then some u else none
    | _ => none

theorem leg_updates_append (name : Str) (evs evs' : List (Event daemon_ops)) :
    leg_updates name (evs ++ evs') = leg_updates name evs ++ leg_updates name evs' :=
  List.filterMap_append

/-- Every leg is what its updates have made of it. -/
def OfUpdates (start servers : HashMap Str ServerLegStatus) (log : Log daemon_ops) : Prop :=
  ∀ name, AList.lookup name servers = (AList.lookup name start).map fun leg =>
    (leg_updates name (log.map Prod.snd)).foldl ServerLegStatus.update leg

theorem lookup_update_leg (servers : HashMap Str ServerLegStatus) (name name' : Str)
    (u : LegUpdate) : AList.lookup name' (update_leg servers name u) =
      (AList.lookup name' servers).map fun leg => if name = name' then leg.update u else leg := by
  unfold update_leg
  by_cases hname : name = name'
  · subst hname
    cases hleg : AList.lookup name servers with
    | none => simp [hleg]
    | some leg => simp [AList.lookup_insert]
  · cases hleg : AList.lookup name servers with
    | none => simp [hname]
    | some leg =>
      simp only [AList.lookup_insert_ne (Ne.symm hname), if_neg hname]
      cases AList.lookup name' servers <;> rfl

theorem of_updates_step {start servers : HashMap Str ServerLegStatus} {log : Log daemon_ops}
    (h : OfUpdates start servers log) (i : Nat) (o : DaemonOp) (e : DaemonEnv) :
    OfUpdates start (daemon_machine.perform o e servers).2
      (log ++ [(i, ⟨o, (daemon_machine.perform o e servers).1⟩)]) := by
  intro name
  rw [List.map_append, leg_updates_append, List.map_cons, List.map_nil]
  cases o with
  | leg_update name' u =>
    show AList.lookup name (update_leg servers name' u) = _
    rw [lookup_update_leg, h name, Option.map_map]
    congr 1
    funext leg
    simp only [Function.comp, leg_updates, List.filterMap_cons, List.filterMap_nil]
    split
    · simp [List.foldl_append]
    · simp
  | _ =>
    refine (h name).trans ?_
    simp [leg_updates]

/-- The times at which cycles began. -/
def attempts (us : List LegUpdate) : List Int64 :=
  us.filterMap fun u =>
    match u with
    | .attempt now => some now
    | .result .. => none

/-- The cycles that have ended, by the time they began. -/
def results (us : List LegUpdate) : List (Int64 × Except String Unit) :=
  us.filterMap fun u =>
    match u with
    | .attempt _ => none
    | .result now result => some (now, result)

/-- What `status` says of the latest cycle that has ended. -/
def result_text : Option (Int64 × Except String Unit) → String
  | none => "pending"
  | some (_, .ok ()) => "ok"
  | some (_, .error e) => e

/-- The leg shows the latest cycle that began, the latest that has ended and the latest that has
    ended well. -/
structure OnRecord (t : ServerTarget) (us : List LegUpdate) (leg : ServerLegStatus) : Prop where
  server_addr : leg.server_addr = t.server_addr
  server_id : leg.server_id = t.server_id
  interval_seconds : leg.interval_seconds = Duration.as_secs t.interval
  last_attempt : leg.last_attempt_at_unix = (attempts us).getLast?
  last_success : leg.last_success_at_unix =
    (((results us).filter fun x => x.2.isOk).map Prod.fst).getLast?
  last_result : leg.last_result = result_text (results us).getLast?

theorem on_record (t : ServerTarget) (us : List LegUpdate) :
    OnRecord t us (us.foldl ServerLegStatus.update t.leg) := by
  induction us using List.reverseRecOn with
  | nil => exact ⟨rfl, rfl, rfl, rfl, rfl, rfl⟩
  | append_singleton us u ih =>
    rw [List.foldl_append, List.foldl_cons, List.foldl_nil]
    cases u with
    | attempt now =>
      refine ⟨ih.server_addr, ih.server_id, ih.interval_seconds, ?_, ?_, ?_⟩
      · simp [attempts, ServerLegStatus.update]
      · simpa [results, ServerLegStatus.update] using ih.last_success
      · simpa [results, ServerLegStatus.update] using ih.last_result
    | result now result =>
      have hattempt : attempts (us ++ [.result now result]) = attempts us := by simp [attempts]
      have hresults : results (us ++ [.result now result]) = results us ++ [(now, result)] := by
        simp [results]
      cases result with
      | ok u =>
        refine ⟨ih.server_addr, ih.server_id, ih.interval_seconds, ?_, ?_, ?_⟩
        · rw [hattempt]
          exact ih.last_attempt
        · rw [hresults, List.filter_append, List.map_append, List.getLast?_append]
          rfl
        · rw [hresults, List.getLast?_append]
          rfl
      | error e =>
        refine ⟨ih.server_addr, ih.server_id, ih.interval_seconds, ?_, ?_, ?_⟩
        · rw [hattempt]
          exact ih.last_attempt
        · have hnone : [(now, Except.error e)].filter
              (fun x : Int64 × Except String Unit => x.2.isOk) = [] := rfl
          rw [hresults, List.filter_append, hnone, List.append_nil]
          exact ih.last_success
        · rw [hresults, List.getLast?_append]
          rfl

/-! ### What the loops write -/

/-- A cycle is noted when it begins, at the time just read, and again when it has ended. -/
def LegWrites (d : Daemon) (t : ServerTarget) (h : List (Event daemon_ops)) : LegUpdate → Prop
  | .attempt now => ∃ before, h = before ++ [⟨.client .now_unix, now⟩]
  | .result now result => ∃ before cycle outcome,
    h = before ++ ⟨.client .now_unix, now⟩ :: ⟨.leg_update t.name (.attempt now), ()⟩ :: cycle ∧
    (d.pulser_for t).CycleEnds (max t.retries.toNat 1) .Renew none cycle (some outcome) ∧
    result = cycle_text outcome

/-- Only the loop of a target writes to its leg, and what is written out was read before. -/
def DaemonDemand (d : Daemon) (job : DaemonJob) (h : List (Event daemon_ops))
    (ev : Event daemon_ops) : Prop :=
  match ev.op with
  | .leg_update name u => ∃ t rounds, job = .leg t rounds ∧ name = t.name ∧ d.LegWrites t h u
  | .write_snapshot servers => ⟨.status_clone, servers⟩ ∈ h
  | _ => True

/-- The operations of a cycle. -/
def of_cycle : DaemonOp → Prop
  | .client _ | .param_command .. | .socket_bind | .socket_connect _ => True
  | _ => False

theorem resolve_param_uses (pulser : Pulser) (mode : Mode) (param_override : Option Str) :
    (pulser.resolve_param mode param_override).Uses of_cycle := by
  cases param_override with
  | some p =>
    simp only [Pulser.resolve_param]
    split
    · exact Program.uses_pure
    · exact Program.uses_pure
  | none =>
    cases mode with
    | Release => exact Program.uses_pure
    | Renew =>
      simp only [Pulser.resolve_param, Pulser.generate_param]
      split
      · exact Program.uses_pure
      · exact Program.uses_pure
      refine Program.uses_bind (Program.uses_perform trivial) fun outcome => ?_
      cases outcome with
      | exited success status stdout =>
        dsimp only
        split
        · exact Program.uses_pure
        split
        · exact Program.uses_pure
        split
        · exact Program.uses_pure
        · exact Program.uses_pure
      | _ => exact Program.uses_pure

theorem run_cycle_uses (pulser : Pulser) (max_attempts : UInt32) (mode : Mode)
    (param_override : Option Str) :
    (pulser.run_cycle max_attempts mode param_override).Uses of_cycle := by
  unfold Pulser.run_cycle
  refine Program.uses_bind (resolve_param_uses pulser mode param_override) fun param => ?_
  split
  · exact Program.uses_pure
  · exact Program.uses_pure
  refine Program.uses_bind (Program.uses_perform trivial) fun bound => ?_
  split
  · exact Program.uses_pure
  refine Program.uses_bind (Program.uses_perform trivial) fun connected => ?_
  split
  · exact Program.uses_pure
  refine Program.uses_bind ?_ fun result => Program.uses_pure
  unfold Pulser.run_attempts
  refine Program.uses_bind (Program.uses_first_ok (fun attempt =>
    Program.uses_embed (fun _ => trivial) _) _) fun answered => ?_
  split
  · exact Program.uses_pure
  · exact Program.uses_pure

section demand
variable {d : Daemon} {h : List (Event daemon_ops)} {job : DaemonJob}

theorem demand_of_cycle {o : DaemonOp} (ho : of_cycle o) (r : o.Res) :
    d.DaemonDemand job h ⟨o, r⟩ := by
  cases o <;> trivial

/-- A cycle adds one of its traces to the history. -/
theorem run_cycle_demand (pulser : Pulser) (max_attempts : UInt32) (mode : Mode) :
    Program.wp (Program.histories (d.DaemonDemand job))
      (fun result h' => ∃ cycle, h' = h ++ cycle ∧
        (pulser.run_cycle max_attempts mode none).Yields cycle result)
      (pulser.run_cycle max_attempts mode none) h :=
  Program.wp_histories_yields (fun _ _ r ho => demand_of_cycle ho r)
    (run_cycle_uses pulser max_attempts mode none)

theorem run_loop_demand {t : ServerTarget} (hmax : t.retry_max ≤ Duration.MAX) {n : Nat}
    (rounds : Nat) :
    Program.wp (Program.histories (d.DaemonDemand (.leg t n))) (fun _ _ => True)
      ((d.pulser_for t).run_loop rounds) h := by
  induction rounds generalizing h with
  | zero => trivial
  | succ rounds ih =>
    unfold Pulser.run_loop
    refine Program.wp_histories_perform_bind.mpr fun now => ⟨trivial, ?_⟩
    refine Program.wp_histories_perform_bind.mpr fun _ => ⟨⟨t, n, rfl, rfl, h, rfl⟩, ?_⟩
    refine Program.wp_seq (run_cycle_demand _ _ _) fun result h' hcycle => ?_
    obtain ⟨cycle, rfl, hcycle⟩ := hcycle
    cases result with
    | none => trivial
    | some outcome =>
      have hends : (d.pulser_for t).CycleEnds _ .Renew none cycle (some outcome) :=
        Pulser.run_cycle_ends hmax hcycle
      refine Program.wp_histories_perform_bind.mpr fun _ =>
        ⟨⟨t, n, rfl, rfl, h, cycle, outcome, ?_, hends, rfl⟩, ?_⟩
      · simp
        rfl
      refine Program.wp_histories_perform_bind.mpr fun _ => ⟨trivial, ?_⟩
      exact ih

theorem run_forever_demand (dumps : Nat) :
    Program.wp (Program.histories (d.DaemonDemand job)) (fun _ _ => True)
      (d.run_forever dumps) h := by
  induction dumps generalizing h with
  | zero =>
    unfold run_forever
    split
    · unfold send_bye_all
      refine Program.wp_each (fun _ _ => True) (fun t ts h' _ => ?_) trivial
      exact Program.wp_seq (run_cycle_demand _ _ _) fun _ _ _ => trivial
    · trivial
  | succ dumps ih =>
    unfold run_forever write_status
    refine Program.wp_bind.mpr (Program.wp_histories_perform_bind.mpr fun servers => ⟨trivial, ?_⟩)
    refine Program.wp_histories_perform.mpr fun _ => ⟨?_, ih⟩
    exact List.mem_append_right h (List.mem_singleton.mpr rfl)

/-- The main task and the loops of the targets meet the demand. -/
theorem prog_demand (hmax : ∀ t ∈ d.client.targets, t.retry_max ≤ Duration.MAX) (job : DaemonJob) :
    Program.wp (Program.histories fun h ev =>
      (∀ t rounds, job = .leg t rounds → t ∈ d.client.targets) → d.DaemonDemand job h ev)
      (fun _ _ => True) (d.prog job) [] := by
  by_cases hjob : ∀ t rounds, job = .leg t rounds → t ∈ d.client.targets
  · refine Program.wp_histories_imp (fun _ _ hdemand _ => hdemand) ?_
    cases job with
    | main dumps => exact run_forever_demand dumps
    | leg t rounds => exact run_loop_demand (hmax t (hjob t rounds rfl)) rounds
  · exact Program.wp_histories_of_forall (fun _ _ hin => absurd hin hjob) _

end demand

/-! ### What the map shows -/

/-- Every target has a leg that shows its updates, and there are no other legs. -/
structure Shows (d : Daemon) (servers : HashMap Str ServerLegStatus) (log : Log daemon_ops) :
    Prop where
  names : ∀ name, name ∈ servers ↔ ∃ t ∈ d.client.targets, t.name = name
  legs : ∀ t ∈ d.client.targets, ∃ leg, AList.lookup t.name servers = some leg ∧
    OnRecord t (leg_updates t.name (log.map Prod.snd)) leg

theorem shows_of_updates {d : Daemon} {servers : HashMap Str ServerLegStatus}
    {log : Log daemon_ops} (hdistinct : (d.client.targets.map ServerTarget.name).Nodup)
    (hstatus : d.client.status = seed_legs ∅ d.client.targets)
    (h : OfUpdates d.client.status servers log) : d.Shows servers log := by
  obtain ⟨-, hlegs, hothers⟩ :=
    seed_legs_distinct ∅ hdistinct fun t _ => AList.notMem_empty t.name
  rw [← hstatus] at hlegs hothers
  have hleg : ∀ t ∈ d.client.targets, AList.lookup t.name servers =
      some ((leg_updates t.name (log.map Prod.snd)).foldl ServerLegStatus.update t.leg) := by
    intro t ht
    rw [h t.name, hlegs t ht]
    rfl
  constructor
  · intro name
    constructor
    · intro hmem
      by_contra hnone
      have hother : name ∉ d.client.targets.map ServerTarget.name := by
        intro hin
        obtain ⟨t, ht, hname⟩ := List.mem_map.mp hin
        exact hnone ⟨t, ht, hname⟩
      have hlookup : AList.lookup name servers = none := by
        rw [h name, hothers name hother]
        rfl
      exact AList.lookup_eq_none.mp hlookup hmem
    · rintro ⟨t, ht, rfl⟩
      exact AList.lookup_isSome.mp (by rw [hleg t ht]; rfl)
  · intro t ht
    exact ⟨_, hleg t ht, on_record t _⟩

/-- The map is what the updates have made of it, and so is every copy that was taken. -/
theorem reachable_of_updates {d : Daemon} {c : DaemonConfig} {start : HashMap Str ServerLegStatus}
    (h : Reachable daemon_machine d.prog start c) :
    OfUpdates start c.state c.log ∧ ∀ pre post i servers,
      c.log = pre ++ (i, ⟨.status_clone, servers⟩) :: post → OfUpdates start servers pre := by
  refine h.invariant (P := fun _ _ _ => True) (fun servers log => OfUpdates start servers log ∧
    ∀ pre post i copy, log = pre ++ (i, ⟨.status_clone, copy⟩) :: post →
      OfUpdates start copy pre) ?_ ?_ ?_
  · exact fun job => Program.wp_histories_of_forall (fun _ _ => trivial) _
  · refine ⟨fun name => ?_, fun pre post i copy hlog => ?_⟩
    · cases AList.lookup name start <;> rfl
    · simp at hlog
  · rintro servers log i job o e ⟨hmap, hcopies⟩ -
    refine ⟨of_updates_step hmap i o e, fun pre post j copy hlog => ?_⟩
    rcases snoc_eq_split hlog with ⟨rfl, hev, -⟩ | ⟨post', -, hold⟩
    · -- a copy that is taken now
      obtain ⟨-, hev⟩ := Prod.mk.inj hev
      cases o with
      | status_clone =>
        have hcopy : servers = copy := by
          cases hev
          rfl
        rwa [← hcopy]
      | _ => cases hev
    · exact hcopies pre post' j copy hold

/-- The updates of a leg are those of one task, when no other task writes to it. -/
theorem leg_updates_own {log : Log daemon_ops} {i : Nat} {name : Str}
    (h : ∀ x ∈ log, ∀ u, x.2.op = .leg_update name u → x.1 = i) :
    leg_updates name (log.map Prod.snd) = leg_updates name (own i log) := by
  induction log with
  | nil => rfl
  | cons x log ih =>
    obtain ⟨hx, hlog⟩ := List.forall_mem_cons.mp h
    have hrest := ih hlog
    by_cases hi : x.1 = i
    · have hown : own i (x :: log) = x.2 :: own i log := by simp [own, hi]
      rw [hown, List.map_cons]
      unfold leg_updates at hrest ⊢
      rw [List.filterMap_cons, List.filterMap_cons, hrest]
    · have hown : own i (x :: log) = own i log := by simp [own, hi]
      rw [hown, List.map_cons]
      unfold leg_updates at hrest ⊢
      rw [List.filterMap_cons, hrest]
      split
      · rfl
      · rename_i u hu
        exfalso
        split at hu
        · rename_i name' u' hop
          split at hu
          · rename_i hname
            subst hname
            exact hi (hx u' hop)
          · cases hu
        · cases hu

end Daemon

/-! ### The client that is started -/

theorem Duration.from_millis_le_max (ms : UInt64) : Duration.from_millis ms ≤ Duration.MAX := by
  have hms := ms.toNat_lt
  show ms.toNat * 1000000 ≤ 18446744073709551615 * 1000000000 + 999999999
  omega

theorem resolve_target_fields {k : Config.KeyDecoding} {name server_id server_addr : Str}
    {enc_key_b64 : Option Str} {wire_encryption : Bool}
    {interval_seconds retry_initial_ms retry_max_ms : UInt64} {retries : UInt32}
    {param_command : Option (List Str)} {param_command_timeout_seconds : UInt64}
    {param_max_len : Nat} {t : ServerTarget}
    (h : resolve_target k name server_id server_addr enc_key_b64 wire_encryption interval_seconds
      retry_initial_ms retry_max_ms retries param_command param_command_timeout_seconds
      param_max_len = .ok t) : t.name = name ∧ t.retry_max ≤ Duration.MAX := by
  unfold resolve_target at h
  split at h
  · cases h
  split at h
  · cases h
  split at h
  · cases h
  · rw [← Except.ok.inj h]
    exact ⟨rfl, Duration.from_millis_le_max retry_max_ms⟩

theorem resolve_overrides_fields {k : Config.KeyDecoding} {base : Config.ClientSection}
    {entries : List (Σ _ : Str, Config.ServerOverride)} {targets : List ServerTarget}
    (h : resolve_overrides k base entries = .ok targets) :
    targets.map ServerTarget.name = entries.map Sigma.fst ∧
      ∀ t ∈ targets, t.retry_max ≤ Duration.MAX := by
  induction entries generalizing targets with
  | nil =>
    rw [← Except.ok.inj h]
    exact ⟨rfl, by simp⟩
  | cons e entries ih =>
    unfold resolve_overrides at h
    split at h
    · cases h
    rename_i t ht
    split at h
    · cases h
    rename_i rest hrest
    obtain ⟨hnames, hmax⟩ := ih hrest
    obtain ⟨hname, ht⟩ := resolve_target_fields ht
    rw [← Except.ok.inj h]
    exact ⟨by rw [List.map_cons, List.map_cons, hname, hnames], List.forall_mem_cons.mpr ⟨ht, hmax⟩⟩

/-- A client that starts has one seeded leg for each target, with distinct names. -/
theorem from_config_seeded {parsed cfg : Config.ClientConfig}
    (hload : parsed.load = some (.ok cfg)) {k : Config.KeyDecoding} {client : Client}
    (h : Client.from_config k cfg = some (.ok client)) :
    (client.targets.map ServerTarget.name).Nodup ∧
      (∀ t ∈ client.targets, t.retry_max ≤ Duration.MAX) ∧
      client.status = seed_legs ∅ client.targets := by
  have haccepted := (Config.ClientConfig.load_ok.mp hload).2
  unfold Client.from_config at h
  dsimp only at h
  split at h
  · cases h
  split at h
  · cases h
  · cases h
  split at h
  · cases h
  rename_i primary hprimary
  split at h
  · cases h
  rename_i others hothers
  obtain ⟨hname, hmax⟩ := resolve_target_fields hprimary
  obtain ⟨hnames, hmaxes⟩ := resolve_overrides_fields hothers
  have hlabels : cfg.client.server_id ∉ cfg.client.servers.entries.map Sigma.fst := by
    intro hmem
    obtain ⟨e, he, hlabel⟩ := List.mem_map.mp hmem
    have hchecks := haccepted.servers e he
    simp [Config.ServerOverride.checks, hlabel] at hchecks
  rw [← Except.ok.inj (Option.some.inj h)]
  refine ⟨?_, List.forall_mem_cons.mpr ⟨hmax, hmaxes⟩, rfl⟩
  rw [List.map_cons, hname, hnames, List.nodup_cons]
  exact ⟨hlabels, cfg.client.servers.nodupKeys⟩

namespace Daemon

/-- In every interleaving of the loops with the main task, the status map shows of each target the
    cycles of its own loop, and so does every snapshot that is written out, of a moment before. -/
theorem legs_on_record {parsed cfg : Config.ClientConfig} (hload : parsed.load = some (.ok cfg))
    {k : Config.KeyDecoding} {d : Daemon}
    (hstarted : Client.from_config k cfg = some (.ok d.client))
    {c : DaemonConfig} (h : Reachable daemon_machine d.prog d.client.status c)
    (hspawned : d.Spawned c) :
    d.Shows c.state c.log ∧
    (∀ i t, Pulses c i t →
      leg_updates t.name (c.log.map Prod.snd) = leg_updates t.name (own i c.log)) ∧
    (∀ pre post i name u, c.log = pre ++ (i, ⟨.leg_update name u, ()⟩) :: post →
      ∃ t, Pulses c i t ∧ name = t.name ∧ d.LegWrites t (own i pre) u) ∧
    ∀ pre post i servers, c.log = pre ++ (i, ⟨.write_snapshot servers, ()⟩) :: post →
      ∃ seen, seen <+: pre ∧ d.Shows servers seen := by
  obtain ⟨hdistinct, hmax, hstatus⟩ := from_config_seeded hload hstarted
  obtain ⟨hmap, hcopies⟩ := reachable_of_updates h
  -- what a task writes is about the target of that task
  have hdemand {pre post i ev} (hlog : c.log = pre ++ (i, ev) :: post) :
      ∃ task, c.tasks[i]? = some task ∧ d.DaemonDemand task.job (own i pre) ev := by
    obtain ⟨task, htask, hmeets⟩ := h.event_guarded (prog_demand hmax) hlog
    refine ⟨task, htask, hmeets fun t rounds hjob => ?_⟩
    exact hspawned.targets i t ⟨task, rounds, htask, hjob⟩
  have hwrites {pre post i name u} (hlog : c.log = pre ++ (i, ⟨.leg_update name u, ()⟩) :: post) :
      ∃ t, Pulses c i t ∧ name = t.name ∧ d.LegWrites t (own i pre) u := by
    obtain ⟨task, htask, t, rounds, hjob, hname, hwrite⟩ := hdemand hlog
    exact ⟨t, ⟨task, rounds, htask, hjob⟩, hname, hwrite⟩
  refine ⟨shows_of_updates hdistinct hstatus hmap, ?_, ?_, ?_⟩
  · intro i t hi
    refine leg_updates_own fun x hx u hop => ?_
    obtain ⟨pre, post, hlog⟩ := List.append_of_mem hx
    obtain ⟨j, o, r⟩ := x
    dsimp only at hop
    subst hop
    obtain ⟨t', ht', hname, -⟩ := hwrites hlog
    have htarget := hspawned.targets i t hi
    have htarget' := hspawned.targets j t' ht'
    -- names are distinct, and so are the loops of distinct targets
    have hsame : t = t' := List.inj_on_of_nodup_map hdistinct htarget htarget' hname
    subst hsame
    exact hspawned.once j i t ht' hi
  · intro pre post i name u hlog
    exact hwrites hlog
  · -- what is written out is the copy that the task has made
    intro pre post i servers hlog
    obtain ⟨task, -, hcopied⟩ := hdemand hlog
    obtain ⟨seen, rest, hseen⟩ := List.append_of_mem (mem_own.mp hcopied)
    refine ⟨seen, ⟨_, hseen.symm⟩, shows_of_updates hdistinct hstatus ?_⟩
    refine hcopies seen (rest ++ (i, ⟨.write_snapshot servers, ()⟩) :: post) i servers ?_
    rw [hlog, hseen]
    simp

/-- What the operations return at the time 1000. -/
def quiet_env : DaemonEnv := Pulser.late_answer

/-- A loop begins its first cycle, and then the status is asked for. -/
def attempt_and_dump (t : ServerTarget) : List (Label DaemonEnv DaemonJob) :=
  [.begin (.leg t 1), .run 0 quiet_env, .run 0 quiet_env, .begin (.main 1), .run 1 quiet_env,
    .run 1 quiet_env]

theorem legs_on_record_dumped :
    ∃ (d : Daemon) (c : DaemonConfig) (t : ServerTarget) (servers : HashMap Str ServerLegStatus),
      Reachable daemon_machine d.prog d.client.status c ∧ t ∈ d.client.targets ∧
      (1, ⟨.write_snapshot servers, ()⟩) ∈ c.log ∧ d.Shows c.state c.log ∧
      ∃ leg, AList.lookup t.name c.state = some leg ∧ leg.last_attempt_at_unix = some 1000 := by
  obtain ⟨client, hstarted, hsound⟩ :=
    from_config_sound (Config.ClientConfig.load_ok.mp (two_servers_load 10)).2 (two_servers_keys 10)
  have hclient : client.Sound (two_servers 10) := by
    refine hsound.mpr (List.forall_mem_singleton.mpr fun _ _ hzero => ?_)
    exact absurd hzero (by decide)
  obtain ⟨t, ht⟩ : ∃ t, t ∈ client.targets := by
    refine List.exists_mem_of_ne_nil _ fun hnil => ?_
    have hnames := hclient.names
    rw [hnil] at hnames
    cases hnames
  -- what is signed does not matter here
  let d : Daemon := ⟨client, Server.meeting_pulser.crypto, fun _ _ => Server.filled 64 0⟩
  obtain ⟨c, hrun, hjobs, hlog⟩ : ∃ c, run daemon_machine d.prog (init d.client.status)
      (attempt_and_dump t) = some c ∧ c.tasks.map Task.job = [.leg t 1, .main 1] ∧
      c.log = [(0, ⟨.client .now_unix, 1000⟩), (0, ⟨.leg_update t.name (.attempt 1000), ()⟩),
        (1, ⟨.status_clone, update_leg client.status t.name (.attempt 1000)⟩),
        (1, ⟨.write_snapshot (update_leg client.status t.name (.attempt 1000)), ()⟩)] :=
    ⟨_, rfl, rfl, rfl⟩
  have hpulses {i t'} (hi : Pulses c i t') : i = 0 ∧ t' = t := by
    obtain ⟨task, rounds, htask, hjob⟩ := hi
    have hat : (c.tasks.map Task.job)[i]? = some (.leg t' rounds) := by
      rw [List.getElem?_map, htask, Option.map_some, hjob]
    rw [hjobs] at hat
    match i with
    | 0 =>
      cases hat
      exact ⟨rfl, rfl⟩
    | 1 => cases hat
    | i + 2 => cases hat
  have hspawned : d.Spawned c := by
    constructor
    · intro i t' hi
      rw [(hpulses hi).2]
      exact ht
    · intro i j t' hi hj
      rw [(hpulses hi).1, (hpulses hj).1]
  have hreach := reachable_of_run daemon_machine d.prog hrun
  have hshows := (legs_on_record (two_servers_load 10) hstarted hreach hspawned).1
  obtain ⟨leg, hleg, hrecord⟩ := hshows.legs t ht
  refine ⟨d, c, t, update_leg client.status t.name (.attempt 1000), hreach, ht, by simp [hlog],
    hshows, leg, hleg, ?_⟩
  rw [hrecord.last_attempt, hlog]
  simp [leg_updates, attempts]

end Daemon

end SignedPulse
