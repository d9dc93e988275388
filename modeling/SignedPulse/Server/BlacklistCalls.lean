import SignedPulse.Server.BlacklistRuns
import SignedPulse.Server.Rules

/-! # The calls the server makes on its blacklist

    Whatever the tasks of the server do, and in whatever order, its blacklist
    is the result of a run of timed calls at non-decreasing times, as in
    `BlacklistRuns` (`blacklist_of_reachable`). So what is proved about all such
    runs holds of the blacklist of the server.
-/

namespace SignedPulse

namespace Server

open Interleaving

/-- The call that an operation makes. -/
def call_of : Op → Option Blacklist.Call
  | .record_faulty ip => some (.record_faulty ip)
  | .note_rejection => some .note_rejection
  | .is_blocked ip => some (.is_blocked ip)
  | .note_lockdown_drop => some .shed
  | .blacklist_purge_stale => some .purge_stale
  | _ => none

theorem perform_blacklist {srv : Server} {o : Op} {e : Env} {s : State}
    (hshed : o = .note_lockdown_drop → s.blacklist.engaged = true) :
    (srv.perform o e s).2.blacklist =
      s.blacklist.run ((call_of o).map (fun call => ⟨s.now + e.elapsed, call⟩)).toList := by
  cases o
  case note_lockdown_drop =>
    show s.blacklist.note_lockdown_drop (s.now + e.elapsed) =
      if s.blacklist.engaged then s.blacklist.note_lockdown_drop (s.now + e.elapsed)
      else s.blacklist
    rw [if_pos (hshed rfl)]
  all_goals rfl

/-! ### Demands on single tasks -/

/-- A packet is dropped at the lockdown gate only after the gate was seen closed. -/
def ShedDemand (h : List (Event ops)) (ev : Event ops) : Prop :=
  ev.op = .note_lockdown_drop → ⟨.under_attack, true⟩ ∈ h

section demands
variable {srv : Server} {h : List (Event ops)}

/-- A program that does not come near the gate. -/
theorem shed_demand_of_touches {areas : List Area} {p : ServerM Unit} (hp : Touches areas p)
    (hlockdown : Area.lockdown ∉ areas) :
    Program.wp (Program.histories ShedDemand) (fun _ _ => True) p h := by
  refine Program.wp_mono (fun _ _ _ => trivial) (hp.histories ?_)
  intro h ev hev hdrop
  rw [hdrop] at hev
  exact absurd hev hlockdown

theorem handle_datagram_shed (data : Bytes) (peer : SocketAddr) :
    Program.wp (Program.histories ShedDemand) (fun _ _ => True)
      (srv.handle_datagram data peer) h := by
  refine wp_handle_datagram trivial (shed_demand_of_touches (note_faulty_touches _) (by decide))
    (shed_demand_of_touches (note_rejected_touches _) (by decide)) ?_ ?_ ?_
  · intro hello reply _
    exact shed_demand_of_touches (srv.handle_hello_touches _ _ _) (by decide)
  · intro resp reply _
    exact shed_demand_of_touches (srv.handle_response_touches _ _) (by decide)
  · intro bye reply _
    exact shed_demand_of_touches (srv.handle_bye_touches _ _) (by decide)

theorem with_permit_shed (data : Bytes) (peer : SocketAddr) :
    Program.wp (Program.histories ShedDemand) (fun _ _ => True) (srv.with_permit data peer) h := by
  unfold with_permit
  refine Program.wp_histories_perform_bind.mpr fun permit => ⟨nofun, ?_⟩
  split
  · trivial
  apply Program.wp_seq (handle_datagram_shed data peer)
  intro _ h' _
  exact Program.wp_histories_perform.mpr fun _ => ⟨nofun, trivial⟩

/-- Every task meets the demand. -/
theorem prog_shed_demand (srv : Server) (job : Job) :
    Program.wp (Program.histories ShedDemand) (fun _ _ => True) (srv.prog job) [] := by
  cases job with
  | datagram data peer =>
    show Program.wp _ _ (srv.receive data peer) []
    unfold receive
    -- no packet longer than the limit comes this far
    split
    · trivial
    refine Program.wp_histories_perform_bind.mpr fun blocked => ⟨nofun, ?_⟩
    split
    · trivial
    refine Program.wp_histories_perform_bind.mpr fun attacked => ⟨nofun, ?_⟩
    split
    · rename_i hattacked
      refine Program.wp_histories_perform_bind.mpr fun _ => ⟨nofun, ?_⟩
      refine Program.wp_histories_perform_bind.mpr fun active => ⟨nofun, ?_⟩
      split
      · refine Program.wp_histories_perform.mpr fun _ => ⟨fun _ => ?_, trivial⟩
        simp [hattacked]
      · exact with_permit_shed data peer
    · refine Program.wp_histories_perform_bind.mpr fun _ => ⟨nofun, ?_⟩
      exact with_permit_shed data peer
  | cleanup =>
    refine wp_cleanup (fun _ => True) (fun _ => True) ?_
      (fun _ _ => shed_demand_of_touches srv.run_lease_scan_touches (by decide)) trivial
    rintro h o r _ ho - rfl
    refine ⟨?_, trivial⟩
    rintro rfl
    cases ho

end demands

/-! ### Whole runs -/

/-- The blacklist `b` is what the calls in the log have made of `b₀`. -/
structure BlacklistInv (b₀ : Blacklist) (s : State) (log : Log ops) : Prop where
  calls : ∃ calls : List Blacklist.TimedCall, Blacklist.Ordered calls ∧
    (∀ d ∈ calls, d.now ≤ s.now) ∧ calls.map (·.call) = log.filterMap (fun x => call_of x.2.op) ∧
    s.blacklist = b₀.run calls
  seen : (∃ i, (i, ⟨.under_attack, true⟩) ∈ log) → s.blacklist.engaged = true

/-- Step lemma. -/
theorem BlacklistInv.step {srv : Server} {b₀ : Blacklist} {s : State} {log : Log ops} {i : Nat}
    {o : Op} {e : Env} (h : BlacklistInv b₀ s log)
    (hdemand : ShedDemand (own i log) ⟨o, (srv.perform o e s).1⟩) :
    BlacklistInv b₀ (srv.perform o e s).2 (log ++ [(i, ⟨o, (srv.perform o e s).1⟩)]) := by
  have hstep : (srv.perform o e s).2.blacklist =
      s.blacklist.run ((call_of o).map (fun call => ⟨s.now + e.elapsed, call⟩)).toList :=
    perform_blacklist fun ho => h.seen ⟨i, mem_own.mp (hdemand ho)⟩
  refine ⟨?_, ?_⟩
  · obtain ⟨calls, hord, hpast, hlog, hrun⟩ := h.calls
    refine ⟨calls ++ ((call_of o).map (fun call => ⟨s.now + e.elapsed, call⟩)).toList, ?_, ?_, ?_,
      ?_⟩
    · refine List.pairwise_append.mpr ⟨hord, by cases call_of o <;> simp, ?_⟩
      intro d hd d' hd'
      have hnow : d'.now = s.now + e.elapsed := by
        cases hcall : call_of o <;> simp_all
      rw [hnow]
      exact (hpast d hd).trans (Nat.le_add_right _ _)
    · intro d hd
      rw [perform_now]
      rcases List.mem_append.mp hd with hd | hd
      · exact (hpast d hd).trans (Nat.le_add_right _ _)
      · cases hcall : call_of o <;> simp_all
    · rw [List.map_append, hlog, List.filterMap_append]
      cases hcall : call_of o <;> simp [hcall]
    · rw [hstep, hrun]
      simp [Blacklist.run]
  · rintro ⟨j, hmem⟩
    -- calls never switch an engaged lockdown off
    have hengaged (hold : s.blacklist.engaged = true) :
        (srv.perform o e s).2.blacklist.engaged = true := by
      rw [hstep]
      cases call_of o with
      | none => exact hold
      | some call => exact Blacklist.step_engaged _ _ hold
    rcases List.mem_append.mp hmem with hmem | hmem
    · exact hengaged (h.seen ⟨j, hmem⟩)
    · -- the gate was just found closed
      have hev := (Prod.mk.inj (List.mem_singleton.mp hmem)).2
      obtain rfl : .under_attack = o := congrArg Event.op hev
      have hattack : s.blacklist.under_attack (s.now + e.elapsed) = true :=
        (eq_of_heq (Event.mk.inj hev).2).symm
      exact hengaged (Blacklist.engaged_of_under_attack hattack)

/-- Run lemma. -/
theorem blacklist_of_reachable {srv : Server} {now : Instant} {unix : Int64}
    {c : Config ops State Job} (h : Reachable srv.machine srv.prog (srv.start now unix) c) :
    ∃ calls : List Blacklist.TimedCall, Blacklist.Ordered calls ∧
      calls.map (·.call) = c.log.filterMap (fun x => call_of x.2.op) ∧
      c.state.blacklist = (srv.start now unix).blacklist.run calls := by
  have hinv := Reachable.invariant (BlacklistInv (srv.start now unix).blacklist)
    srv.prog_shed_demand ⟨⟨[], .nil, by simp, rfl, rfl⟩, by simp⟩
    (fun s l i job o e hInv hdemand => hInv.step hdemand) h
  obtain ⟨calls, hord, -, hlog, hrun⟩ := hinv.calls
  exact ⟨calls, hord, hlog, hrun⟩

end Server

end SignedPulse
