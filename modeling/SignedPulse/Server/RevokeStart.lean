import SignedPulse.Framework.Trace
import SignedPulse.Server.LeaseSteps

/-! # When a revoke hook starts

    A lease leaves the table first, by a lease scan or a BYE, and its revoke
    hook starts later, with any number of steps of other tasks in between. The
    hook was decided on when the lease left; `revoke_starts_without_lease` says
    that the decision still stands at the start, unless a pulse has renewed a
    lease on the IP in the meantime. `repulsed_address_revoked` is a run in which
    that happens.
-/

namespace SignedPulse

namespace Server

open Interleaving Trace

/-! ### Leases that ended -/

/-- The leases an event takes out of the table, each with the clients left on its IP. -/
def ended_by : Event ops → List (ExpiredLease × Nat)
  | ⟨.leases_release _, released⟩ => released.toList
  | ⟨.leases_take_expired, expired⟩ => expired
  | _ => []

/-- The event ended the lease that the revoke hook is about. -/
def EndsLease (call : HookCall) (ev : Event ops) : Prop :=
  ∃ x ∈ ended_by ev, x.1.client_id = call.client_id ∧ x.1.ip = call.source_ip ∧
    x.2 = call.ip_clients

instance (call : HookCall) : DecidablePred (EndsLease call) :=
  fun ev => inferInstanceAs (Decidable (∃ x ∈ ended_by ev, _ ∧ _))

/-- The client holds no live lease on the IP. -/
def NoLive (client_id : Str) (ip : IpAddr) (s : State) : Prop :=
  ∀ l, s.leases.entry client_id = some l → l.ip = ip → l.live s.now = false

section steps
variable {srv : Server} {o : Op} {e : Env} {s : State} {client_id : Str} {ip : IpAddr}

/-- An entry is an old one, or it was just renewed. -/
theorem perform_entry {l : Lease} (h : (srv.perform o e s).2.leases.entry client_id = some l) :
    renewal_of o = some (client_id, l.ip) ∨ s.leases.entry client_id = some l := by
  by_cases harea : o.area = .leases
  swap
  · rw [perform_leases harea] at h
    exact .inr h
  cases o <;> simp only [Op.area, reduceCtorEq] at harea
  case leases_renew c a port param ttl =>
    have h : (s.leases.renew_at c a port param ttl (s.now + e.elapsed)).2.entry client_id =
        some l := h
    -- a full table leaves the entries as they are
    by_cases hroom : s.leases.HasRoom c
    · rw [LeaseTracker.entry_renew_at hroom] at h
      split at h
      · rename_i hc
        rw [← Option.some.inj h, hc]
        exact .inl rfl
      · exact .inr h
    · rw [LeaseTracker.renew_at_full hroom] at h
      exact .inr h
  case leases_release c =>
    have h : (s.leases.release_at c (s.now + e.elapsed)).2.entry client_id = some l := h
    rw [LeaseTracker.entry_release_at] at h
    split at h
    · cases h
    · exact .inr h
  case leases_others_on_ip => exact .inr h
  case leases_take_expired =>
    have h : (s.leases.take_expired_at (s.now + e.elapsed) e.order).2.entry client_id =
        some l := h
    rw [LeaseTracker.entry_take_expired_at, Option.filter_eq_some_iff] at h
    exact .inr h.1

/-- Only a renewal makes a lease live. -/
theorem NoLive.perform (h : NoLive client_id ip s) (ho : renewal_of o ≠ some (client_id, ip)) :
    NoLive client_id ip (srv.perform o e s).2 := by
  intro l hl hip
  rcases perform_entry hl with hrenewed | hold
  · exact absurd (hip ▸ hrenewed) ho
  · have hdead := h l hold hip
    unfold Lease.live at hdead ⊢
    rw [perform_now]
    rw [decide_eq_false_iff_not, not_lt] at hdead ⊢
    exact hdead.trans (Nat.le_add_right _ _)

/-- Just after a lease has ended, its client holds no live lease on the IP, and nobody does if it
    was the last one. -/
theorem no_live_of_ended {ended : ExpiredLease} {remaining : Nat}
    (h : (ended, remaining) ∈ ended_by ⟨o, (srv.perform o e s).1⟩)
    (hwho : client_id = ended.client_id ∨ remaining = 0) :
    NoLive client_id ended.ip (srv.perform o e s).2 := by
  cases o <;> try exact absurd h List.not_mem_nil
  case leases_release c =>
    have hreleased : (s.leases.release_at c (s.now + e.elapsed)).1 = some (ended, remaining) :=
      Option.mem_toList.mp h
    obtain ⟨l₀, -, rfl, hcount⟩ := LeaseTracker.release_at_some hreleased
    intro l hl hip
    have hl : (s.leases.release_at c (s.now + e.elapsed)).2.entry client_id = some l := hl
    -- its own entry is gone; and when nobody is counted, nobody is live
    rcases hwho with hc | hzero
    · rw [LeaseTracker.entry_release_at, if_pos (show client_id = c from hc)] at hl
      cases hl
    · rw [hcount, LeaseTracker.live_on_eq_zero] at hzero
      show l.live (s.now + e.elapsed) = false
      by_contra hlive
      exact hzero client_id l hl (by simpa using hlive) hip
  case leases_take_expired =>
    have h : (ended, remaining) ∈
        (s.leases.take_expired_at (s.now + e.elapsed) e.order).1 := h
    obtain ⟨c, l₀, hl₀, hdead, heq⟩ := LeaseTracker.mem_take_expired_at.mp h
    obtain ⟨rfl, hcount⟩ := Prod.mk.inj heq
    intro l hl hip
    have hl : (s.leases.take_expired_at (s.now + e.elapsed) e.order).2.entry client_id =
        some l := hl
    rcases hwho with rfl | hzero
    · rw [LeaseTracker.entry_take_expired_at, Option.filter_eq_some_iff] at hl
      obtain ⟨hl, hlive⟩ := hl
      obtain rfl : l = l₀ := Option.some.inj (hl.symm.trans hl₀)
      exact absurd (hlive.symm.trans hdead) Bool.noConfusion
    · rw [hzero] at hcount
      show l.live (s.now + e.elapsed) = false
      by_contra hlive
      exact LeaseTracker.live_on_eq_zero.mp hcount.symm client_id l hl (by simpa using hlive) hip

end steps

/-! ### Demands on single tasks -/

/-- A task starts a revoke hook only for a lease that it has taken out of the table. -/
def RevokeDemand (h : List (Event ops)) (ev : Event ops) : Prop :=
  match ev.op with
  | .hook_spawn .revoke call => ∃ x ∈ h, EndsLease call x
  | _ => True

section demands
variable {srv : Server} {h : List (Event ops)}

theorem revoke_demand_of_area {ev : Event ops} (harea : ev.op.area ≠ .hook) :
    RevokeDemand h ev := by
  unfold RevokeDemand
  split
  · rename_i hop
    simp [hop, Op.area] at harea
  · trivial

/-- A program that runs no hook. -/
theorem revoke_demand_of_touches {α : Type} {areas : List Area} {p : ServerM α}
    (hp : Touches areas p) (hhook : Area.hook ∉ areas) :
    Program.wp (Program.histories RevokeDemand) (fun _ h' => h ⊆ h') p h := by
  refine Program.wp_mono (fun _ _ hext => hext.subset) (hp.histories ?_)
  intro h ev hev
  exact revoke_demand_of_area fun heq => hhook (heq ▸ hev)

theorem execute_demand {x : Executor} {call : HookCall}
    (hended : x = .revoke → ∃ y ∈ h, EndsLease call y) :
    Program.wp (Program.histories RevokeDemand) (fun _ h' => h ⊆ h') (execute x call) h := by
  have hgrow {l : List (Event ops)} : h ⊆ h ++ l := List.subset_append_left _ _
  have hspawn (permit spawned : Bool) :
      RevokeDemand (h ++ [⟨.hook_acquire x call, permit⟩]) ⟨.hook_spawn x call, spawned⟩ := by
    cases x with
    | grant => trivial
    | revoke =>
      obtain ⟨y, hy, hcall⟩ := hended rfl
      exact ⟨y, List.mem_append_left _ hy, hcall⟩
  unfold execute
  refine Program.wp_histories_perform_bind.mpr fun permit => ⟨trivial, ?_⟩
  split
  · exact hgrow
  refine Program.wp_histories_perform_bind.mpr fun spawned => ⟨hspawn permit spawned, ?_⟩
  rw [List.append_assoc]
  split
  · exact hgrow
  refine Program.wp_histories_perform_bind.mpr fun outcome => ⟨trivial, ?_⟩
  rw [List.append_assoc]
  split <;> exact hgrow

theorem run_grant_demand (name : Str) (call : HookCall) :
    Program.wp (Program.histories RevokeDemand) (fun _ h' => h ⊆ h') (run_grant name call) h := by
  unfold run_grant
  apply Program.wp_seq (execute_demand (by simp))
  intro result h₁ hsub
  split
  · exact hsub
  · exact Program.wp_mono (fun _ _ hsub' => List.Subset.trans hsub hsub')
      (revoke_demand_of_touches (note_granted_touches name call _) (by decide))

theorem run_revoke_demand {call : HookCall} (hended : ∃ y ∈ h, EndsLease call y) (name : Str) :
    Program.wp (Program.histories RevokeDemand) (fun _ h' => h ⊆ h') (run_revoke name call) h := by
  unfold run_revoke
  apply Program.wp_seq (execute_demand fun _ => hended)
  intro result h₁ hsub
  split
  · exact hsub
  · exact Program.wp_mono (fun _ _ hsub' => List.Subset.trans hsub hsub')
      (revoke_demand_of_touches (note_revoked_touches name call _) (by decide))

theorem handle_response_demand (resp : Response) (peer : SocketAddr) :
    Program.wp (Program.histories RevokeDemand) (fun _ _ => True)
      (srv.handle_response resp peer) h := by
  unfold handle_response
  apply Program.wp_seq
    (revoke_demand_of_touches (srv.verify_and_consume_touches _ _ _ _ _ _ _) (by decide))
  intro verified h₁ _
  split
  · trivial
  apply Program.wp_seq (revoke_demand_of_touches (srv.decrypt_param_touches _) (by decide))
  intro param h₂ _
  split
  · trivial
  unfold response_verified
  apply Program.wp_seq (revoke_demand_of_touches (note_pulse_touches _ _) (by decide))
  intro _ h₃ _
  refine Program.wp_histories_perform_bind.mpr fun is_new => ⟨trivial, ?_⟩
  apply Program.wp_seq (revoke_demand_of_touches (within_cooldown_touches _ _) (by decide))
  intro skip h₄ _
  split
  · trivial
  refine Program.wp_histories_perform_bind.mpr fun ip_clients => ⟨trivial, ?_⟩
  exact Program.wp_mono (fun _ _ _ => trivial) (run_grant_demand _ _)

theorem handle_bye_demand (bye : Bye) (peer : SocketAddr) :
    Program.wp (Program.histories RevokeDemand) (fun _ _ => True) (srv.handle_bye bye peer) h := by
  unfold handle_bye
  apply Program.wp_seq
    (revoke_demand_of_touches (srv.verify_and_consume_touches _ _ _ _ _ _ _) (by decide))
  intro verified h₁ _
  split
  · trivial
  apply Program.wp_seq (revoke_demand_of_touches (srv.decrypt_param_touches _) (by decide))
  intro bye_param h₂ _
  split
  · trivial
  unfold bye_verified
  refine Program.wp_histories_perform_bind.mpr fun released => ⟨trivial, ?_⟩
  split
  · trivial
  · rename_i e remaining
    split
    · trivial
    · refine Program.wp_mono (fun _ _ _ => trivial) (run_revoke_demand ?_ _)
      -- the lease was taken out by the release just before
      exact ⟨_, List.mem_append_right _ (List.mem_singleton.mpr rfl), (e, remaining),
        List.mem_singleton.mpr rfl, rfl, rfl, rfl⟩

theorem run_lease_scan_demand :
    Program.wp (Program.histories RevokeDemand) (fun _ _ => True) srv.run_lease_scan h := by
  unfold run_lease_scan
  refine Program.wp_histories_perform_bind.mpr fun expired => ⟨trivial, ?_⟩
  split
  · trivial
  -- every lease that is still to come was taken out by the scan
  refine Program.wp_mono (fun _ _ _ => trivial) (Program.wp_each
    (fun xs h' => ∀ x ∈ xs,
      ∃ y ∈ h', EndsLease (revoke_call x.1 x.1.param .expired x.2) y) ?_ ?_)
  · intro x xs h₁ hInv
    refine Program.wp_mono ?_ (run_revoke_demand (hInv x List.mem_cons_self) _)
    intro _ h₂ hsub x' hx'
    obtain ⟨y, hy, hcall⟩ := hInv x' (List.mem_cons_of_mem _ hx')
    exact ⟨y, hsub hy, hcall⟩
  · rintro ⟨e, remaining⟩ hx
    exact ⟨_, List.mem_append_right _ (List.mem_singleton.mpr rfl), (e, remaining), hx, rfl, rfl,
      rfl⟩

/-- Every task meets the demand. -/
theorem prog_revoke_demand (srv : Server) (job : Job) :
    Program.wp (Program.histories RevokeDemand) (fun _ _ => True) (srv.prog job) [] := by
  have hidle {areas : List Area} {p : ServerM Unit} (hp : Touches areas p)
      (hhook : Area.hook ∉ areas) (h : List (Event ops)) :
      Program.wp (Program.histories RevokeDemand) (fun _ _ => True) p h :=
    Program.wp_mono (fun _ _ _ => trivial) (revoke_demand_of_touches hp hhook)
  cases job with
  | datagram data peer =>
    refine wp_receive (fun _ => True) (fun _ => True) ?_ (fun _ _ => trivial) ?_ ?_
      trivial
    · rintro h o r _ ho - rfl
      refine ⟨revoke_demand_of_area ?_, trivial⟩
      intro heq
      simp [heq] at ho
    · intro h _
      refine wp_handle_datagram trivial (hidle (note_faulty_touches _) (by decide) h)
        (hidle (note_rejected_touches _) (by decide) h) ?_ ?_ ?_
      · intro hello reply _
        exact hidle (srv.handle_hello_touches _ _ _) (by decide) h
      · intro resp reply _
        exact handle_response_demand resp peer
      · intro bye reply _
        exact handle_bye_demand bye peer
    · rintro h r _ - rfl
      have hrelease : RevokeDemand h ⟨.inflight_release, r⟩ := trivial
      exact ⟨hrelease, trivial⟩
  | cleanup =>
    refine wp_cleanup (fun _ => True) (fun _ => True) ?_ (fun _ _ =>
      run_lease_scan_demand) trivial
    rintro h o r _ ho - rfl
    refine ⟨revoke_demand_of_area ?_, trivial⟩
    intro heq
    cases o <;> simp_all [purges, Op.area]

end demands

/-! ### Whole runs -/

/-- Task `i` ended the lease that the revoke hook is about. -/
def Ends (i : Nat) (call : HookCall) (x : Nat × Event ops) : Prop := x.1 = i ∧ EndsLease call x.2

/-- A pulse of the client renews its lease on the IP. -/
def Renews (client_id : Str) (ip : IpAddr) (x : Nat × Event ops) : Prop :=
  renewal_of x.2.op = some (client_id, ip)

instance (i : Nat) (call : HookCall) : DecidablePred (Ends i call) :=
  fun _ => inferInstanceAs (Decidable (_ ∧ _))

instance (client_id : Str) (ip : IpAddr) : DecidablePred (Renews client_id ip) :=
  fun _ => inferInstanceAs (Decidable (_ = _))

/-- The verdict about a lease that ended stands until a pulse renews one on its IP. -/
def VerdictStands (s : State) (log : Log ops) : Prop :=
  ∀ i call client_id, client_id = call.client_id ∨ call.ip_clients = 0 →
    Since (Ends i call) (Renews client_id call.source_ip) log →
    NoLive client_id call.source_ip s

/-- Step lemma. -/
theorem VerdictStands.step {srv : Server} {s : State} {log : Log ops} {i : Nat} {o : Op} {e : Env}
    (h : VerdictStands s log) :
    VerdictStands (srv.perform o e s).2 (log ++ [(i, ⟨o, (srv.perform o e s).1⟩)]) := by
  intro j call client_id hwho hsince
  rcases since_snoc.mp hsince with ⟨-, ⟨ended, remaining⟩, hended, hid, hip, hcount⟩ | ⟨hold, hno⟩
  · rw [← hip]
    exact no_live_of_ended hended (hwho.imp (·.trans hid.symm) hcount.trans)
  · exact (h j call client_id hwho hold).perform hno

/-- Run lemma. -/
theorem verdict_stands {srv : Server} {now : Instant} {unix : Int64} {c : Config ops State Job}
    (h : Reachable srv.machine srv.prog (srv.start now unix) c) : VerdictStands c.state c.log := by
  refine Reachable.invariant VerdictStands srv.prog_revoke_demand ?_ ?_ h
  · intro i call client_id _ hsince
    exact absurd hsince since_nil
  · intro s l i job o e hInv _
    exact hInv.step

/-! ### The start of a hook -/

/-- In the step from `c` to `c'`, task `i` starts a revoke hook. -/
def StartsRevoke (c c' : Config ops State Job) (i : Nat) (call : HookCall) : Prop :=
  ∃ ev, c'.log = c.log ++ [(i, ev)] ∧ hook_of ev = some (.revoke, call)

/-- The client has renewed a lease on the IP of the revoke hook since task `i` ended the lease
    that the hook is about. -/
def RenewedSince (log : Log ops) (i : Nat) (call : HookCall) (client_id : Str) : Prop :=
  Followed (Ends i call) (Renews client_id call.source_ip) log

instance (log : Log ops) (i : Nat) (call : HookCall) (client_id : Str) :
    Decidable (RenewedSince log i call client_id) := decidable_followed log

section start
variable {srv : Server} {now : Instant} {unix : Int64} {c c' : Config ops State Job}
variable {i : Nat} {call : HookCall}

theorem hook_of_revoke {ev : Event ops} (h : hook_of ev = some (.revoke, call)) :
    ev = ⟨.hook_spawn .revoke call, true⟩ := by
  unfold hook_of at h
  split at h
  · simp only [Option.some.injEq, Prod.mk.injEq] at h
    rw [h.1, h.2]
  · cases h

/-- A client holds a live lease on the IP only if it has renewed it since. -/
theorem no_live_at_start (h : Reachable srv.machine srv.prog (srv.start now unix) c)
    (hstep : Step srv.machine srv.prog c c') (hstart : StartsRevoke c c' i call) {client_id : Str}
    (hwho : client_id = call.client_id ∨ call.ip_clients = 0)
    (hquiet : ¬ RenewedSince c.log i call client_id) :
    NoLive client_id call.source_ip c'.state := by
  obtain ⟨ev, hlog, hev⟩ := hstart
  rw [hook_of_revoke hev] at hlog
  obtain ⟨job, hc'⟩ | ⟨j, job, o, next, e, hj, hc'⟩ := step_cases _ _ hstep
  · rw [hc'] at hlog
    simp at hlog
  rw [hc'] at hlog
  have hsame := List.append_cancel_left hlog
  simp only [List.cons.injEq, Prod.mk.injEq, Event.mk.injEq, and_true] at hsame
  obtain ⟨rfl, rfl, -⟩ := hsame
  -- the task has ended the lease itself
  obtain ⟨x, hx, hends⟩ := Reachable.next_guarded srv.prog_revoke_demand h hj true
  have hsince : Since (Ends j call) (Renews client_id call.source_ip) c.log :=
    since_of_not_followed (mem_own.mp hx) ⟨rfl, hends⟩ hquiet
  rw [hc']
  exact (verdict_stands h j call client_id hwho hsince).perform nofun

/-- When no pulse has intervened since the lease ended, nobody is cut off. -/
theorem revoke_starts_without_lease (h : Reachable srv.machine srv.prog (srv.start now unix) c)
    (hstep : Step srv.machine srv.prog c c') (hstart : StartsRevoke c c' i call) :
    (¬ RenewedSince c.log i call call.client_id →
      ∀ l, c'.state.leases.entry call.client_id = some l → l.ip = call.source_ip →
        l.live c'.state.now = false) ∧
    (call.ip_clients = 0 → (∀ client_id, ¬ RenewedSince c.log i call client_id) →
      ∀ client_id l, c'.state.leases.entry client_id = some l → l.ip = call.source_ip →
        l.live c'.state.now = false) :=
  ⟨no_live_at_start h hstep hstart (.inl rfl),
    fun hzero hquiet client_id => no_live_at_start h hstep hstart (.inr hzero) (hquiet client_id)⟩

end start

/-- Client 1 pulses, and its lease expires: the cleanup task takes it and gets a permit for the
    revoke hook. -/
def lease_taken : List (Label Env Job) :=
  (.begin (.datagram (Packet.Hello (sample_hello 1 1000 1)).encode (sample_peer 1)) ::
    List.replicate 14 (.run 0 (sample_env 1000 1)) : List (Label Env Job)) ++
  (.begin (.datagram (Packet.Response (sample_response 1 1)).encode (sample_peer 1)) ::
    List.replicate 21 (.run 1 (sample_env 1000 0)) : List (Label Env Job)) ++
  (.begin .cleanup :: List.replicate 9 (.run 2 { sample_env 1000 0 with elapsed := 50000000000 }) :
    List (Label Env Job))

/-- Client 1 pulses again in the meantime. -/
def pulsed_again : List (Label Env Job) :=
  (.begin (.datagram (Packet.Hello (sample_hello 1 1000 2)).encode (sample_peer 1)) ::
    List.replicate 14 (.run 3 (sample_env 1000 2)) : List (Label Env Job)) ++
  (.begin (.datagram (Packet.Response (sample_response 1 2)).encode (sample_peer 1)) ::
    List.replicate 21 (.run 4 (sample_env 1000 0)) : List (Label Env Job))

/-- The revoke hook for the lease that expired. -/
def expired_call : HookCall where
  client_id := (sample_id 1).to_hex
  source_ip := (sample_peer 1).ip
  source_port := 7370
  param := none
  is_new := false
  reason := .expired
  ip_clients := 0

theorem revoke_starts_without_lease_expired :
    ∃ c c', Interleaving.run sample.machine sample.prog (init (sample.start 0 1000)) lease_taken =
        some c ∧
      StartsRevoke c c' 2 expired_call ∧
      ∀ l, c'.state.leases.entry expired_call.client_id = some l → l.ip = expired_call.source_ip →
        l.live c'.state.now = false := by
  have hrun : (Interleaving.run sample.machine sample.prog (init (sample.start 0 1000))
      lease_taken).any (fun c =>
        (apply sample.machine sample.prog c (.run 2 (sample_env 1000 0))).any (fun c' =>
          decide (c'.log.getLast?.bind (fun x => hook_of x.2) = some (.revoke, expired_call)) &&
          decide (¬ RenewedSince c.log 2 expired_call expired_call.client_id))) = true := by
    decide +kernel
  obtain ⟨c, hc, happly⟩ := (Option.any_eq_true _ _).mp hrun
  obtain ⟨c', hc', hcheck⟩ := (Option.any_eq_true _ _).mp happly
  rw [Bool.and_eq_true, decide_eq_true_iff, decide_eq_true_iff] at hcheck
  obtain ⟨ev, hlog⟩ := apply_run_log _ _ hc'
  have hstart : StartsRevoke c c' 2 expired_call := ⟨ev, hlog, by simpa [hlog] using hcheck.1⟩
  exact ⟨c, c', hc, hstart,
    (revoke_starts_without_lease (reachable_of_run _ _ hc) ⟨_, hc'⟩ hstart).1 hcheck.2⟩

/-- Nothing is checked again: the hook starts although the client is back. -/
theorem repulsed_address_revoked :
    ∃ c c' i call, Reachable sample.machine sample.prog (sample.start 0 1000) c ∧
      Step sample.machine sample.prog c c' ∧ StartsRevoke c c' i call ∧ call.ip_clients = 0 ∧
      ∃ l, c'.state.leases.entry call.client_id = some l ∧ l.ip = call.source_ip ∧
        l.live c'.state.now = true := by
  have hrun : (Interleaving.run sample.machine sample.prog (init (sample.start 0 1000))
      (lease_taken ++ pulsed_again)).any (fun c =>
        (apply sample.machine sample.prog c (.run 2 (sample_env 1000 0))).any (fun c' =>
          decide (c'.log.getLast?.bind (fun x => hook_of x.2) = some (.revoke, expired_call)) &&
          decide (∃ l ∈ c'.state.leases.entry expired_call.client_id,
            l.ip = expired_call.source_ip ∧ l.live c'.state.now = true))) = true := by
    decide +kernel
  obtain ⟨c, hc, happly⟩ := (Option.any_eq_true _ _).mp hrun
  obtain ⟨c', hc', hcheck⟩ := (Option.any_eq_true _ _).mp happly
  rw [Bool.and_eq_true, decide_eq_true_iff, decide_eq_true_iff] at hcheck
  obtain ⟨ev, hlog⟩ := apply_run_log _ _ hc'
  exact ⟨c, c', 2, expired_call, reachable_of_run _ _ hc, ⟨_, hc'⟩,
    ⟨ev, hlog, by simpa [hlog] using hcheck.1⟩, rfl, hcheck.2⟩

end Server

end SignedPulse
