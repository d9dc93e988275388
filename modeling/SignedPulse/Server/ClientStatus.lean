import SignedPulse.Protocol.ClientIdSpelling
import SignedPulse.Server.Config
import SignedPulse.Server.RevokeStart
import SignedPulse.Server.Spending
import SignedPulse.Server.Moments

/-! # The status of a client

    The per-client view is keyed by display name, which is a client's label or
    else its id as it is written. Labels are not checked, so two clients may
    share a name, and then an entry tells of both of them.

    `status_own_of_distinct` says that the entry of a client whose name is its
    own changes only for that client, and has its latest verified pulse, grant
    and revoke. `shared_label_overwritten` is a run with a shared label.
-/

namespace SignedPulse

/-- What `execute` makes of the end of a process. -/
def WaitOutcome.result : WaitOutcome → Option CommandResult
  | .exited code => some { exit_code := code, timed_out := false }
  | .failed => none
  | .timed_out => some { exit_code := none, timed_out := true }

namespace Server

open Interleaving Trace

/-! ### What a task has done -/

/-- The hook process that an event has waited for. -/
def waited (ev : Event ops) : Option (Executor × HookCall × WaitOutcome) :=
  match ev with
  | ⟨.hook_wait x call, outcome⟩ => some (x, call, outcome)
  | _ => none

/-- The latest hook process of a task that has ended. -/
def ran (h : List (Event ops)) : Option (Executor × HookCall × WaitOutcome) :=
  latest (fun _ ev => waited ev) [] h

theorem ran_snoc (h : List (Event ops)) (ev : Event ops) :
    ran (h ++ [ev]) = (waited ev).or (ran h) :=
  latest_snoc _ [] h ev

/-- A hook process has ended with a result. -/
def HookEnded (ev : Event ops) : Prop :=
  ∃ x call outcome r, waited ev = some (x, call, outcome) ∧ outcome.result = some r

/-- The end of a hook process is written into the status. -/
def HookNoted (ev : Event ops) : Prop :=
  ∃ name hook, ev.op = .status_update (.last_hook name hook) ∨
    ev.op = .status_update (.last_revoke name hook)

/-- A hook process has ended, and the status does not say so yet. -/
def Outstanding (h : List (Event ops)) : Prop := Since HookEnded HookNoted h

theorem hook_ended_area {ev : Event ops} (h : HookEnded ev) : ev.op.area = .hook := by
  obtain ⟨o, r⟩ := ev
  obtain ⟨x, call, outcome, result, hwaited, -⟩ := h
  cases o
  case hook_wait => rfl
  all_goals cases hwaited

theorem Outstanding.snoc {h : List (Event ops)} {ev : Event ops} (hout : ¬ Outstanding h)
    (hev : ev.op.area ≠ .hook) : ¬ Outstanding (h ++ [ev]) := by
  intro hsince
  rcases since_snoc.mp hsince with hended | ⟨hold, -⟩
  · exact hev (hook_ended_area hended)
  · exact hout hold

theorem Outstanding.append {h l : List (Event ops)} (hout : ¬ Outstanding h)
    (hl : ∀ ev ∈ l, ev.op.area ≠ .hook) : ¬ Outstanding (h ++ l) := by
  intro hsince
  exact hout ((since_append fun ev hev hended => hl ev hev (hook_ended_area hended)).mp hsince).1

/-- The record is of the latest hook process of the task. -/
structure RecordsHook (x : Executor) (name : Str) (hook : HookInfo) (call : HookCall)
    (h : List (Event ops)) : Prop where
  started : ⟨.hook_spawn x call, true⟩ ∈ h
  ended : ∃ outcome, ran h = some (x, call, outcome) ∧
    outcome.result = some { exit_code := hook.exit_code, timed_out := hook.timed_out }
  read : ⟨.now_unix, hook.at_unix⟩ ∈ h
  name : hook.client_id = name
  source_ip : hook.source_ip = call.source_ip
  param : hook.param = call.param
  reason : hook.reason = call.reason

/-- What the task has done that it writes into the status. -/
def StatusRecord (srv : Server) (job : Job) (h : List (Event ops)) : StatusUpdate → Prop
  | .last_pulse name pulse => ∃ resp peer info expires,
    srv.packet_from job = some (.Response resp, peer) ∧
      Checked srv resp.credential peer info expires h ∧ name = info.name ∧
      pulse.source_ip = peer.ip ∧ pulse.source_port = peer.port ∧ ⟨.now_unix, pulse.at_unix⟩ ∈ h
  | .last_hook name hook => ∃ resp peer info call,
    srv.packet_from job = some (.Response resp, peer) ∧
      AList.lookup resp.client_id srv.clients = some info ∧ name = info.name ∧
      call.client_id = resp.client_id.to_hex ∧ RecordsHook .grant name hook call h
  | .last_revoke name hook => ∃ call,
    name = srv.display_name call.client_id ∧ RecordsHook .revoke name hook call h
  | _ => True

/-- The status is written after the fact, and before a lease is renewed; leases are those of
    configured clients, and only the cleanup scans them. -/
def StatusDemand (srv : Server) (job : Job) (h : List (Event ops)) (ev : Event ops) : Prop :=
  match ev.op with
  | .status_update u => StatusRecord srv job h u
  | .leases_renew client_id _ _ _ _ =>
    (∃ id info, AList.lookup id srv.clients = some info ∧ client_id = id.to_hex) ∧
      ∃ name pulse, ⟨.status_update (.last_pulse name pulse), ()⟩ ∈ h
  | .leases_take_expired => job = .cleanup
  | _ => True

section demand
variable {srv : Server} {job : Job} {h : List (Event ops)}

theorem status_demand_of_op {ev : Event ops} (hpersonal : ev.op.personal = false)
    (hleases : ev.op.area ≠ .leases) : srv.StatusDemand job h ev := by
  unfold StatusDemand
  split
  · rename_i u hop
    rw [hop] at hpersonal
    cases u with
    | rejected => trivial
    | hello_accepted => trivial
    | last_pulse => cases hpersonal
    | last_hook => cases hpersonal
    | last_revoke => cases hpersonal
  · rename_i hop
    exact absurd (by rw [hop]; rfl) hleases
  · rename_i hop
    exact absurd (by rw [hop]; rfl) hleases
  · trivial

theorem status_demand_of_spares {α : Type} {areas : List Area} {p : ServerM α}
    (hp : Spares Op.personal areas p) (hleases : Area.leases ∉ areas) (h : List (Event ops)) :
    Program.wp (Program.histories (srv.StatusDemand job)) (fun _ h' => Extends areas h h') p h := by
  refine Program.wp_of_uses (I := ops) ?_ hp .refl
  rintro h' o r _ ⟨harea, hpersonal⟩ hext rfl
  exact ⟨status_demand_of_op hpersonal fun heq => hleases (heq ▸ harea), hext.snoc harea⟩

/-- Nothing is outstanding after a program that neither runs a hook nor tells of a client. -/
theorem wp_idle {α : Type} {areas : List Area} {p : ServerM α} (hp : Spares Op.notes areas p)
    (hleases : Area.leases ∉ areas) (hhook : Area.hook ∉ areas) (hout : ¬ Outstanding h) :
    Program.wp (Program.histories (srv.StatusDemand job)) (fun _ h' => ¬ Outstanding h') p h := by
  refine Program.wp_mono ?_ (status_demand_of_spares hp.personal hleases h)
  rintro _ _ ⟨l, rfl, hl⟩
  exact Outstanding.append hout fun ev hev heq => hhook (heq ▸ hl ev hev)

theorem status_demand_of_checks (h : List (Event ops)) (ev : Event ops)
    (hchecks : checks ev.op = true) : srv.StatusDemand job h ev := by
  obtain ⟨o, r⟩ := ev
  cases o
  case status_update u =>
    cases u with
    | rejected => trivial
    | hello_accepted => trivial
    | last_pulse => cases hchecks
    | last_hook => cases hchecks
    | last_revoke => cases hchecks
  all_goals trivial

theorem checks_area {o : Op} (h : checks o = true) : o.area ≠ .hook := by
  intro harea
  cases o <;> first | exact absurd h Bool.false_ne_true | cases harea

theorem ChecksOnly.outstanding {h' : List (Event ops)} (honly : ChecksOnly h h')
    (hout : ¬ Outstanding h) : ¬ Outstanding h' := by
  obtain ⟨l, rfl, hl⟩ := honly
  exact Outstanding.append hout fun ev hev => checks_area (hl ev hev)

/-- A hook that has run is the latest one, and one that has not leaves nothing outstanding. -/
theorem execute_ran (x : Executor) (call : HookCall) (hout : ¬ Outstanding h) :
    Program.wp (Program.histories (srv.StatusDemand job))
      (fun result h' => match result with
        | .ok r => ⟨.hook_spawn x call, true⟩ ∈ h' ∧
          ∃ outcome, ran h' = some (x, call, outcome) ∧ outcome.result = some r
        | .error _ => ¬ Outstanding h')
      (execute x call) h := by
  have hended {ev : Event ops} {l : List (Event ops)} (hl : ¬ Outstanding l)
      (hev : waited ev = none) : ¬ Outstanding (l ++ [ev]) := by
    intro hsince
    rcases since_snoc.mp hsince with ⟨x, call, outcome, r, hwaited, -⟩ | ⟨hold, -⟩
    · rw [hev] at hwaited
      cases hwaited
    · exact hl hold
  unfold execute
  refine Program.wp_histories_perform_bind.mpr fun permit => ⟨trivial, ?_⟩
  split
  · exact hended hout rfl
  refine Program.wp_histories_perform_bind.mpr fun spawned => ⟨trivial, ?_⟩
  split
  · exact hended (hended hout rfl) rfl
  rename_i hspawned
  obtain rfl : spawned = true := by simpa using hspawned
  refine Program.wp_histories_perform_bind.mpr fun outcome => ⟨trivial, ?_⟩
  cases outcome with
  | exited code => exact ⟨by simp, .exited code, by rw [ran_snoc]; rfl, rfl⟩
  | failed =>
    -- waiting has failed, so there is no result to write down
    intro hsince
    rcases since_snoc.mp hsince with ⟨y, call', outcome, r, hwaited, hr⟩ | ⟨hold, -⟩
    · obtain ⟨-, -, rfl⟩ : x = y ∧ call = call' ∧ WaitOutcome.failed = outcome := by
        simpa [waited] using hwaited
      cases hr
    · exact hended (hended hout rfl) rfl hold
  | timed_out => exact ⟨by simp, .timed_out, by rw [ran_snoc]; rfl, rfl⟩

/-- The record of a hook that was the latest one, after operations that wait for none. -/
theorem RecordsHook.of_ran {x : Executor} {call : HookCall} {r : CommandResult} {name : Str}
    {unix : Int64} (hspawn : ⟨.hook_spawn x call, true⟩ ∈ h)
    (hran : ∃ outcome, ran h = some (x, call, outcome) ∧ outcome.result = some r)
    (hread : ⟨.now_unix, unix⟩ ∈ h) :
    RecordsHook x name
      { client_id := name, source_ip := call.source_ip, at_unix := unix, exit_code := r.exit_code,
        timed_out := r.timed_out, param := call.param, reason := call.reason } call h where
  started := hspawn
  ended := hran
  read := hread
  name := rfl
  source_ip := rfl
  param := rfl
  reason := rfl

/-- A hook that was written down is no longer outstanding. -/
theorem noted_not_outstanding {u : StatusUpdate} {name : Str} {hook : HookInfo}
    (hu : u = .last_hook name hook ∨ u = .last_revoke name hook) :
    ¬ Outstanding (h ++ [⟨.status_update u, ()⟩]) := by
  intro hsince
  rcases since_snoc.mp hsince with hended | ⟨-, hnot⟩
  · cases hook_ended_area hended
  · exact hnot ⟨name, hook, hu.imp (congrArg Op.status_update) (congrArg Op.status_update)⟩

theorem run_grant_status {resp : Response} {peer : SocketAddr} {info : ClientInfo}
    {call : HookCall} (hjob : srv.packet_from job = some (.Response resp, peer))
    (hinfo : AList.lookup resp.client_id srv.clients = some info)
    (hcall : call.client_id = resp.client_id.to_hex) (hreason : call.reason = .grant)
    (hout : ¬ Outstanding h) :
    Program.wp (Program.histories (srv.StatusDemand job)) (fun _ h' => ¬ Outstanding h')
      (run_grant info.name call) h := by
  unfold run_grant
  refine Program.wp_seq (execute_ran .grant call hout) ?_
  rintro result h₁ hresult
  split
  · exact hresult
  obtain ⟨hspawn, hran⟩ := hresult
  unfold note_granted
  refine Program.wp_histories_perform_bind.mpr fun _ => ⟨trivial, ?_⟩
  refine Program.wp_histories_perform_bind.mpr fun unix => ⟨trivial, ?_⟩
  refine Program.wp_histories_perform.mpr fun _ => ⟨?_, noted_not_outstanding (.inl rfl)⟩
  refine ⟨resp, peer, info, call, hjob, hinfo, rfl, hcall, ?_⟩
  rw [← hreason]
  refine .of_ran (by simp [hspawn]) ?_ (by simp)
  rwa [ran_snoc, ran_snoc]

theorem run_revoke_status (call : HookCall) (hout : ¬ Outstanding h) :
    Program.wp (Program.histories (srv.StatusDemand job)) (fun _ h' => ¬ Outstanding h')
      (run_revoke (srv.display_name call.client_id) call) h := by
  unfold run_revoke
  refine Program.wp_seq (execute_ran .revoke call hout) ?_
  rintro result h₁ hresult
  split
  · exact hresult
  obtain ⟨hspawn, hran⟩ := hresult
  unfold note_revoked
  refine Program.wp_histories_perform_bind.mpr fun unix => ⟨trivial, ?_⟩
  refine Program.wp_histories_perform.mpr fun _ => ⟨?_, noted_not_outstanding (.inr rfl)⟩
  refine ⟨call, rfl, .of_ran (by simp [hspawn]) ?_ (by simp)⟩
  rwa [ran_snoc]

theorem handle_response_status {resp : Response} {peer : SocketAddr}
    (hjob : srv.packet_from job = some (.Response resp, peer)) (hout : ¬ Outstanding h) :
    Program.wp (Program.histories (srv.StatusDemand job)) (fun _ h' => ¬ Outstanding h')
      (srv.handle_response resp peer) h := by
  unfold handle_response
  apply Program.wp_seq (wp_verify_and_consume status_demand_of_checks resp.credential peer)
  rintro verified h₁ ⟨honly₁, hchecked⟩
  have hout₁ := honly₁.outstanding hout
  split
  · exact hout₁
  rename_i name
  obtain ⟨info, expires, hpassed, rfl⟩ := hchecked name rfl
  apply Program.wp_seq (wp_decrypt_param status_demand_of_checks resp.param)
  rintro r h₂ ⟨honly₂, -⟩
  have hout₂ := honly₂.outstanding hout₁
  split
  · exact hout₂
  -- the pulse is noted under the name of the client that has signed it
  unfold response_verified note_pulse
  refine Program.wp_histories_perform_bind.mpr fun _ => ⟨trivial, ?_⟩
  refine Program.wp_histories_perform_bind.mpr fun unix => ⟨trivial, ?_⟩
  refine Program.wp_histories_perform_bind.mpr fun _ => ⟨?_, ?_⟩
  · refine ⟨resp, peer, info, expires, hjob, hpassed.mono fun ev hev => ?_, rfl, rfl, rfl, by simp⟩
    simp [honly₂.subset hev]
  refine Program.wp_histories_perform_bind.mpr fun is_new => ⟨?_, ?_⟩
  · exact ⟨⟨_, info, hpassed.known, rfl⟩, info.name, _,
      List.mem_append_right _ (List.mem_singleton.mpr rfl)⟩
  have hcooldown := (within_cooldown_touches is_new resp.client_id.to_hex).spares (by decide)
    (by decide)
  refine Program.wp_seq (wp_idle hcooldown (by decide) (by decide) ?_) fun skip h₃ hout₃ => ?_
  · iterate 4 refine Outstanding.snoc ?_ (by simp [Op.area])
    exact hout₂
  split
  · exact hout₃
  refine Program.wp_histories_perform_bind.mpr fun ip_clients => ⟨trivial, ?_⟩
  exact run_grant_status hjob hpassed.known rfl rfl (Outstanding.snoc hout₃ (by simp [Op.area]))

theorem handle_bye_status (bye : Bye) (peer : SocketAddr) (hout : ¬ Outstanding h) :
    Program.wp (Program.histories (srv.StatusDemand job)) (fun _ h' => ¬ Outstanding h')
      (srv.handle_bye bye peer) h := by
  unfold handle_bye
  apply Program.wp_seq (wp_verify_and_consume status_demand_of_checks bye.credential peer)
  rintro verified h₁ ⟨honly₁, -⟩
  have hout₁ := honly₁.outstanding hout
  split
  · exact hout₁
  apply Program.wp_seq (wp_decrypt_param status_demand_of_checks bye.param)
  rintro r h₂ ⟨honly₂, -⟩
  have hout₂ := honly₂.outstanding hout₁
  split
  · exact hout₂
  unfold bye_verified
  refine Program.wp_histories_perform_bind.mpr fun released => ⟨trivial, ?_⟩
  have hout₃ : ¬ Outstanding (h₂ ++ [⟨.leases_release bye.client_id.to_hex, released⟩]) :=
    Outstanding.snoc hout₂ (by simp [Op.area])
  split
  · exact hout₃
  · split
    · exact hout₃
    · exact run_revoke_status _ hout₃

/-- Every task meets the demand, and leaves nothing outstanding. -/
theorem prog_status_demand (srv : Server) (job : Job) :
    Program.wp (Program.histories (srv.StatusDemand job)) (fun _ h' => ¬ Outstanding h')
      (srv.prog job) [] := by
  have hnil : ¬ Outstanding [] := since_nil
  cases job with
  | datagram data peer =>
    -- only the handlers of RESPONSE and BYE run hooks, and note how they ended
    have hfrom {packet : Packet} {reply : ReplyMode}
        (hpacket : srv.packet_of data = some (packet, reply)) :
        srv.packet_from (.datagram data peer) = some (packet, peer) := by
      simp [packet_from, hpacket]
    refine wp_receive (fun h => ¬ Outstanding h) (fun h => ¬ Outstanding h) ?_ (fun _ h => h) ?_
      ?_ hnil
    · rintro h o r _ ho hout rfl
      refine ⟨?_, Outstanding.snoc hout fun heq => by simp [heq] at ho⟩
      cases o <;> trivial
    · intro h hout
      have hrejected : Program.wp (Program.histories (srv.StatusDemand (.datagram data peer)))
          (fun _ h' => ¬ Outstanding h') (note_rejected false) h :=
        wp_idle (note_rejected_spares false) (by decide) (by decide) hout
      refine wp_handle_datagram hout ?_ hrejected ?_ ?_ ?_
      · unfold note_faulty
        refine Program.wp_seq hrejected fun _ h' hout' => ?_
        exact Program.wp_histories_perform_bind.mpr fun _ =>
          ⟨trivial, Outstanding.snoc hout' (by simp [Op.area])⟩
      · exact fun hello reply _ =>
          wp_idle (srv.handle_hello_spares hello peer reply) (by decide) (by decide) hout
      · exact fun resp reply hpacket => handle_response_status (hfrom hpacket) hout
      · exact fun bye reply _ => handle_bye_status bye peer hout
    · rintro h r _ hout rfl
      exact ⟨trivial, Outstanding.snoc hout (by simp [Op.area])⟩
  | cleanup =>
    refine wp_cleanup (fun h => ¬ Outstanding h) (fun h => ¬ Outstanding h) ?_ ?_ hnil
    · rintro h o r _ ho hout rfl
      have harea : o.area ≠ .hook := by
        intro heq
        cases o <;> first | exact absurd ho Bool.false_ne_true | cases heq
      refine ⟨?_, Outstanding.snoc hout harea⟩
      cases o <;> trivial
    · intro h hout
      unfold run_lease_scan
      refine Program.wp_histories_perform_bind.mpr fun expired => ⟨rfl, ?_⟩
      have hout' : ¬ Outstanding (h ++ [⟨.leases_take_expired, expired⟩]) :=
        Outstanding.snoc hout (by simp [Op.area])
      split
      · exact hout'
      -- one revocation after the other
      refine Program.wp_each (fun _ h' => ¬ Outstanding h') ?_ hout'
      exact fun x _ _ hout => run_revoke_status (revoke_call x.1 x.1.param .expired x.2) hout

end demand

/-! ### Whom a moment is about -/

/-- The client that a task deals with: the sender of its packet, or in a lease scan the client of
    the latest revoke hook. -/
def subject (srv : Server) (job : Job) (h : List (Event ops)) : Option Str :=
  match srv.packet_from job with
  | some (.Hello hello, _) => some hello.client_id.to_hex
  | some (.Challenge challenge, _) => some challenge.client_id.to_hex
  | some (.Response resp, _) => some resp.client_id.to_hex
  | some (.Bye bye, _) => some bye.client_id.to_hex
  | none => (ran h).map (fun x => x.2.1.client_id)

/-- The client that a moment deals with; `past` are the moments before it. -/
def subject_at (srv : Server) (c : Config ops State Job) (past : List ServerMoment)
    (x : ServerMoment) : Option Str :=
  c.tasks[x.task]?.bind (fun task => srv.subject task.job (done_by srv.machine x.task past))

/-- What a moment writes into the status as it deals with the client. -/
def about (srv : Server) (c : Config ops State Job) (id : ClientId) (past : List ServerMoment)
    (x : ServerMoment) : Option StatusUpdate :=
  match x.op with
  | .status_update u => if srv.subject_at c past x = some id.to_hex then some u else none
  | _ => none

def written_pulse : StatusUpdate → Option PulseInfo
  | .last_pulse _ pulse => some pulse
  | _ => none

def written_grant : StatusUpdate → Option HookInfo
  | .last_hook _ hook => some hook
  | _ => none

def written_revoke : StatusUpdate → Option HookInfo
  | .last_revoke _ hook => some hook
  | _ => none

/-- The status entry of a name. -/
def entry_of (name : Str) (s : State) : Option ClientStatus := AList.lookup name s.status.clients

/-- The entry under the name is the client's own: nobody else's datagrams and lease ends touch it,
    and it has the client's latest pulse, grant and revoke. -/
structure OwnStatus (srv : Server) (c : Config ops State Job) (ms : List ServerMoment)
    (id : ClientId) (name : Str) : Prop where
  untouched : ∀ pre x post, ms = pre ++ x :: post → srv.subject_at c pre x ≠ some id.to_hex →
    entry_of name (x.after srv.machine) = entry_of name x.state
  last_pulse : (entry_of name c.state).bind ClientStatus.last_pulse =
    latest (fun past x => (srv.about c id past x).bind written_pulse) [] ms
  last_hook : (entry_of name c.state).bind ClientStatus.last_hook =
    latest (fun past x => (srv.about c id past x).bind written_grant) [] ms
  last_revoke : (entry_of name c.state).bind ClientStatus.last_revoke =
    latest (fun past x => (srv.about c id past x).bind written_revoke) [] ms
  /-- What is written is what the task has done. -/
  truthful : ∀ pre x post task u, ms = pre ++ x :: post → c.tasks[x.task]? = some task →
    srv.about c id pre x = some u → srv.StatusRecord task.job (done_by srv.machine x.task pre) u
  /-- A verified pulse is written down before its lease is renewed. -/
  pulses_written : ∀ pre x post ip, ms = pre ++ x :: post →
    renewal_of x.op = some (id.to_hex, ip) → ∃ name pulse,
      ⟨.status_update (.last_pulse name pulse), ()⟩ ∈ done_by srv.machine x.task pre
  /-- A hook execution is written down by the end of its task. -/
  hooks_written : ∀ i task, c.tasks[i]? = some task → task.ended = true →
    ¬ Outstanding (done_by srv.machine i ms)

section runs
variable {srv : Server} {now : Instant} {unix : Int64} {c : Config ops State Job}
variable {ms pre post : List ServerMoment} {x : ServerMoment} {id : ClientId} {info : ClientInfo}

theorem status_guarded (srv : Server) (job : Job) :
    Program.wp (Program.histories (srv.StatusDemand job)) (fun _ _ => True) (srv.prog job) [] :=
  Program.wp_mono (fun _ _ _ => trivial) (srv.prog_status_demand job)

/-- A configured client has its display name. -/
theorem display_name_to_hex (hinfo : AList.lookup id srv.clients = some info) :
    srv.display_name id.to_hex = info.name := by
  unfold display_name
  rw [from_hex_to_hex]
  dsimp only
  rw [hinfo]
  rfl

/-- Every lease is that of a configured client. -/
def KnownLeases (srv : Server) (s : State) : Prop :=
  ∀ client_id l, s.leases.entry client_id = some l →
    ∃ id info, AList.lookup id srv.clients = some info ∧ client_id = id.to_hex

theorem known_leases (h : Recorded srv.machine srv.prog (srv.start now unix) c ms) :
    KnownLeases srv c.state := by
  refine Reachable.invariant (fun s _ => KnownLeases srv s) srv.status_guarded ?_ ?_ h.reachable
  · intro client_id l hl
    cases hl
  · intro s l i job o e ih hdemand client_id lease hl
    rcases perform_entry hl with hrenewed | hold
    · cases o
      case leases_renew =>
        obtain ⟨rfl, -⟩ := Prod.mk.inj (Option.some.inj hrenewed)
        exact hdemand.1
      all_goals cases hrenewed
    · exact ih client_id lease hold

/-- A lease that ended was in the table, and its client is the one that was released. -/
theorem entry_of_ends {call : HookCall} (h : EndsLease call (x.event srv.machine)) :
    (∃ l, x.state.leases.entry call.client_id = some l) ∧
      (x.op = .leases_release call.client_id ∨ x.op = .leases_take_expired) := by
  obtain ⟨i, s, o, e⟩ := x
  obtain ⟨⟨ended, remaining⟩, hmem, hid, -, -⟩ := h
  rw [← hid]
  cases o
  case leases_release client_id =>
    have hreleased : (s.leases.release_at client_id (s.now + e.elapsed)).1 =
        some (ended, remaining) := Option.mem_toList.mp hmem
    obtain ⟨l, hl, rfl, -⟩ := LeaseTracker.release_at_some hreleased
    exact ⟨⟨l, hl⟩, .inl rfl⟩
  case leases_take_expired =>
    have hmem : (ended, remaining) ∈
        (s.leases.take_expired_at (s.now + e.elapsed) e.order).1 := hmem
    obtain ⟨client_id, l, hl, -, heq⟩ := LeaseTracker.mem_take_expired_at.mp hmem
    obtain ⟨rfl, -⟩ := Prod.mk.inj heq
    exact ⟨⟨l, hl⟩, .inr rfl⟩
  all_goals cases hmem

/-- The client of a revoke hook is configured, and the task deals with it. -/
theorem revoke_subject (h : Recorded srv.machine srv.prog (srv.start now unix) c (pre ++ x :: post))
    {task : Task ops Job} (htask : c.tasks[x.task]? = some task) {name : Str} {hook : HookInfo}
    {call : HookCall} (hrecord : RecordsHook .revoke name hook call
      (done_by srv.machine x.task pre)) :
    ∃ id info, AList.lookup id srv.clients = some info ∧ call.client_id = id.to_hex ∧
      srv.subject task.job (done_by srv.machine x.task pre) = some call.client_id := by
  obtain ⟨y, hy, hytask, hspawn⟩ := mem_done_by.mp hrecord.started
  obtain ⟨pre₁, post₁, rfl⟩ := List.append_of_mem hy
  rw [List.append_assoc, List.cons_append] at h
  obtain ⟨-, -, hdemand⟩ := h.guarded_at srv.prog_revoke_demand
  rw [hspawn] at hdemand
  obtain ⟨_, hev, hends⟩ := hdemand
  obtain ⟨z, hz, hztask, rfl⟩ := mem_done_by.mp hev
  obtain ⟨⟨l, hl⟩, hop⟩ := entry_of_ends hends
  obtain ⟨pre₂, post₂, rfl⟩ := List.append_of_mem hz
  rw [List.append_assoc, List.cons_append] at h
  obtain ⟨c', _, _, hrec, hstate, -⟩ := h.split
  obtain ⟨id, info, hinfo, hid⟩ := known_leases hrec _ l (hstate ▸ hl)
  refine ⟨id, info, hinfo, hid, ?_⟩
  have hsame {task' : Task ops Job} (htask' : c.tasks[z.task]? = some task') : task' = task := by
    rw [hztask, hytask, htask] at htask'
    exact (Option.some.inj htask').symm
  obtain ⟨i, s, o, e⟩ := z
  unfold subject
  rcases hop with rfl | rfl
  · -- a BYE has released the lease
    obtain ⟨task', htask', ⟨bye, peer, _, _, _, hpacket, -, -, hbye⟩, -⟩ :=
      h.guarded_at srv.prog_spend_demand
    rw [hsame htask'] at hpacket
    rw [hpacket, hbye]
  · -- the lease scan has taken it out
    obtain ⟨task', htask', hjob⟩ := h.guarded_at srv.status_guarded
    have hjob : task.job = .cleanup := hsame htask' ▸ hjob
    obtain ⟨outcome, hran, -⟩ := hrecord.ended
    rw [hjob, hran]
    rfl

/-- The name that an update is written under. -/
def name_of : StatusUpdate → Option Str
  | .last_pulse name _ | .last_hook name _ | .last_revoke name _ => some name
  | _ => none

/-- What is written under a name is about the configured client that the task deals with. -/
theorem written_known (h : Recorded srv.machine srv.prog (srv.start now unix) c (pre ++ x :: post))
    {u : StatusUpdate} {name : Str} (hop : x.op = .status_update u)
    (hname : name_of u = some name) :
    ∃ id info, AList.lookup id srv.clients = some info ∧ name = info.name ∧
      srv.subject_at c pre x = some id.to_hex := by
  obtain ⟨task, htask, hdemand⟩ := h.guarded_at srv.status_guarded
  have hrecord : srv.StatusRecord task.job (done_by srv.machine x.task pre) u := by
    obtain ⟨i, s, o, e⟩ := x
    subst hop
    exact hdemand
  unfold subject_at
  rw [htask, Option.bind_some]
  cases u with
  | rejected => cases hname
  | hello_accepted => cases hname
  | last_pulse name' pulse =>
    obtain rfl : name' = name := Option.some.inj hname
    obtain ⟨resp, peer, info, expires, hpacket, hchecked, rfl, -⟩ := hrecord
    exact ⟨resp.client_id, info, hchecked.known, rfl, by simp [subject, hpacket]⟩
  | last_hook name' hook =>
    obtain rfl : name' = name := Option.some.inj hname
    obtain ⟨resp, peer, info, call, hpacket, hinfo, rfl, -⟩ := hrecord
    exact ⟨resp.client_id, info, hinfo, rfl, by simp [subject, hpacket]⟩
  | last_revoke name' hook =>
    obtain rfl : name' = name := Option.some.inj hname
    obtain ⟨call, hcall, hhook⟩ := hrecord
    obtain ⟨id, info, hinfo, hid, hsubject⟩ := revoke_subject h htask hhook
    rw [hid] at hcall hsubject
    exact ⟨id, info, hinfo, hcall.trans (display_name_to_hex hinfo), hsubject⟩

/-! ### The entry of a client -/

/-- An update changes the entry of its own name. -/
theorem lookup_update (st : ServerStatus) {u : StatusUpdate} {name : Str}
    (hname : name_of u ≠ some name) :
    AList.lookup name (st.update u).clients = AList.lookup name st.clients := by
  cases u with
  | rejected => rfl
  | hello_accepted => rfl
  | last_pulse => exact AList.lookup_insert_ne fun heq => hname (congrArg some heq.symm)
  | last_hook => exact AList.lookup_insert_ne fun heq => hname (congrArg some heq.symm)
  | last_revoke => exact AList.lookup_insert_ne fun heq => hname (congrArg some heq.symm)

/-- `read` reads off an entry what the latest update with an `of` has written. -/
structure Reads {β : Type} (read : ClientStatus → Option β) (of : StatusUpdate → Option β) :
    Prop where
  named : ∀ u, name_of u = none → of u = none
  written : ∀ (st : ServerStatus) (u : StatusUpdate) (name : Str), name_of u = some name →
    (AList.lookup name (st.update u).clients).bind read =
      (of u).or ((AList.lookup name st.clients).bind read)

theorem reads_pulse : Reads ClientStatus.last_pulse written_pulse where
  named u hu := by cases u <;> first | rfl | cases hu
  written st u name hname := by
    cases hold : AList.lookup name st.clients <;> cases u <;> cases hname <;>
      simp [ServerStatus.update, ServerStatus.with_client, written_pulse, hold]

theorem reads_grant : Reads ClientStatus.last_hook written_grant where
  named u hu := by cases u <;> first | rfl | cases hu
  written st u name hname := by
    cases hold : AList.lookup name st.clients <;> cases u <;> cases hname <;>
      simp [ServerStatus.update, ServerStatus.with_client, written_grant, hold]

theorem reads_revoke : Reads ClientStatus.last_revoke written_revoke where
  named u hu := by cases u <;> first | rfl | cases hu
  written st u name hname := by
    cases hold : AList.lookup name st.clients <;> cases u <;> cases hname <;>
      simp [ServerStatus.update, ServerStatus.with_client, written_revoke, hold]

/-- No other configured client has the name. -/
def OwnName (srv : Server) (id : ClientId) (name : Str) : Prop :=
  ∀ id' info', AList.lookup id' srv.clients = some info' → id' ≠ id → info'.name ≠ name

section entries
variable (hinfo : AList.lookup id srv.clients = some info) (hown : OwnName srv id info.name)
include hinfo hown

/-- What is written while another client is dealt with goes under another name. -/
theorem entry_untouched
    (h : Recorded srv.machine srv.prog (srv.start now unix) c (pre ++ x :: post))
    (hother : srv.subject_at c pre x ≠ some id.to_hex) :
    entry_of info.name (x.after srv.machine) = entry_of info.name x.state := by
  by_cases hstatus : ∃ u, x.op = .status_update u
  · obtain ⟨u, hop⟩ := hstatus
    have hname : name_of u ≠ some info.name := by
      intro hname
      obtain ⟨id', info', hinfo', hsame, hsubject⟩ := written_known h hop hname
      refine hown id' info' hinfo' ?_ hsame.symm
      rintro rfl
      exact hother hsubject
    obtain ⟨i, s, o, e⟩ := x
    subst hop
    exact lookup_update s.status hname
  · obtain ⟨i, s, o, e⟩ := x
    cases o
    case status_update u => exact absurd ⟨u, rfl⟩ hstatus
    all_goals rfl

/-- What is written while the client is dealt with goes under its name. -/
theorem entry_written {β : Type} {read : ClientStatus → Option β} {of : StatusUpdate → Option β}
    (hreads : Reads read of)
    (h : Recorded srv.machine srv.prog (srv.start now unix) c (pre ++ x :: post)) {u : StatusUpdate}
    (hop : x.op = .status_update u) (hsubject : srv.subject_at c pre x = some id.to_hex) :
    (entry_of info.name (x.after srv.machine)).bind read =
      (of u).or ((entry_of info.name x.state).bind read) := by
  have hafter : (x.after srv.machine).status = x.state.status.update u := by
    obtain ⟨i, s, o, e⟩ := x
    subst hop
    rfl
  unfold entry_of
  rw [hafter]
  cases hname : name_of u with
  | none =>
    rw [lookup_update _ (by simp [hname]), hreads.named u hname]
    rfl
  | some name =>
    obtain ⟨id', info', hinfo', rfl, hsubject'⟩ := written_known h hop hname
    obtain rfl : id' = id :=
      ClientId.to_hex_injective (Option.some.inj (hsubject'.symm.trans hsubject))
    obtain rfl : info' = info := Option.some.inj (hinfo'.symm.trans hinfo)
    exact hreads.written _ u _ hname

/-- The entry has the latest of what was written about the client. -/
theorem entry_latest {β : Type} {read : ClientStatus → Option β} {of : StatusUpdate → Option β}
    (hreads : Reads read of) (h : Recorded srv.machine srv.prog (srv.start now unix) c ms) :
    (entry_of info.name c.state).bind read =
      latest (fun past x => (srv.about c id past x).bind of) [] ms := by
  refine h.along (fun s l => (entry_of info.name s).bind read =
    latest (fun past x => (srv.about c id past x).bind of) [] l) rfl ?_
  rintro pre x post rfl ih
  rw [latest_snoc, List.nil_append, ← ih]
  unfold about
  split
  · rename_i u hop
    split
    · rename_i hsubject
      exact entry_written hinfo hown hreads h hop hsubject
    · rename_i hother
      rw [entry_untouched hinfo hown h hother]
      rfl
  · rename_i hop
    -- the status is left alone
    obtain ⟨i, s, o, e⟩ := x
    cases o
    case status_update u => exact absurd rfl (hop u)
    all_goals rfl

end entries

/-- The status entry of a client whose display name is its own is its own. -/
theorem status_own_of_distinct (hinfo : AList.lookup id srv.clients = some info)
    (hown : OwnName srv id info.name)
    (h : Recorded srv.machine srv.prog (srv.start now unix) c ms) :
    OwnStatus srv c ms id info.name where
  untouched := by
    rintro pre x post rfl hother
    exact entry_untouched hinfo hown h hother
  last_pulse := entry_latest hinfo hown reads_pulse h
  last_hook := entry_latest hinfo hown reads_grant h
  last_revoke := entry_latest hinfo hown reads_revoke h
  truthful := by
    rintro pre ⟨i, s, o, e⟩ post task u rfl htask habout
    obtain ⟨task', htask', hdemand⟩ := h.guarded_at srv.status_guarded
    obtain rfl : task' = task := Option.some.inj (htask'.symm.trans htask)
    unfold about at habout
    split at habout
    · rename_i u' hop
      obtain rfl : o = .status_update u' := hop
      split at habout
      · rw [← Option.some.inj habout]
        exact hdemand
      · cases habout
    · cases habout
  pulses_written := by
    rintro pre ⟨i, s, o, e⟩ post ip rfl hrenews
    obtain ⟨_, _, hdemand⟩ := h.guarded_at srv.status_guarded
    cases o
    case leases_renew => exact hdemand.2
    all_goals cases hrenews
  hooks_written i task htask hend := h.ended_meets (fun job => srv.prog_status_demand job)
    htask hend

end runs

/-- The names of the sample server are distinct. -/
theorem sample_own_name : OwnName sample (sample_id 1) ['a'] := by
  intro id info hinfo hne
  unfold sample at hinfo
  dsimp only at hinfo
  rw [AList.lookup_insert_ne hne] at hinfo
  by_cases h2 : id = sample_id 2
  · subst h2
    rw [AList.lookup_insert] at hinfo
    rw [← Option.some.inj hinfo]
    decide
  · rw [AList.lookup_insert_ne h2] at hinfo
    cases hinfo

/-- A run in which the client pulses, is granted and leaves. -/
theorem status_own_of_distinct_sample :
    ∃ c ms, Recorded sample.machine sample.prog (sample.start 0 1000) c ms ∧
      ((entry_of ['a'] c.state).bind ClientStatus.last_pulse).isSome = true ∧
      ((entry_of ['a'] c.state).bind ClientStatus.last_hook).isSome = true ∧
      ((entry_of ['a'] c.state).bind ClientStatus.last_revoke).isSome = true ∧
      OwnStatus sample c ms (sample_id 1) ['a'] := by
  have hrun : (record sample.machine sample.prog (init (sample.start 0 1000), [])
      pulse_then_bye).any (fun t =>
        ((entry_of ['a'] t.1.state).bind ClientStatus.last_pulse).isSome &&
        ((entry_of ['a'] t.1.state).bind ClientStatus.last_hook).isSome &&
        ((entry_of ['a'] t.1.state).bind ClientStatus.last_revoke).isSome) = true := by
    decide +kernel
  obtain ⟨⟨c, ms⟩, ht, hcheck⟩ := (Option.any_eq_true _ _).mp hrun
  simp only [Bool.and_eq_true] at hcheck
  obtain ⟨⟨hpulse, hhook⟩, hrevoke⟩ := hcheck
  have hrec : Recorded sample.machine sample.prog (sample.start 0 1000) c ms :=
    record_sound (r := (c, ms)) .start ht
  exact ⟨c, ms, hrec, hpulse, hhook, hrevoke,
    status_own_of_distinct (AList.lookup_insert _) sample_own_name hrec⟩

/-- Two clients with the label `office`. -/
def shared_label : Config.ServerConfig :=
  let cfg := Config.two_clients (sample_id 1).to_hex (sample_id 2).to_hex
  { cfg with clients := cfg.clients.map (fun c => { c with label := some "office".toList }) }

/-- Key material that always decodes. -/
def sample_keys : Config.KeyDecoding where
  decode _ := some (List.replicate 32 0)
  from_bytes := some

/-- Client 2 shows up. -/
def second_pulses : List (Label Env Job) :=
  sample_task 0 2 (.Hello (sample_hello 2 1000 1)) 14 (sample_env 1000 1) ++
  sample_task 1 2 (.Response (sample_response 2 1)) 21 (sample_env 1000 0)

/-- With a shared label, a pulse of one client is what the entry of the other one shows. -/
theorem shared_label_overwritten :
    shared_label.validate = some (.ok ()) ∧ ∃ srv info c ms,
      shared_label.from_config sample_keys sample_crypto false = some (.ok srv) ∧
      AList.lookup (sample_id 1) srv.clients = some info ∧
      Recorded srv.machine srv.prog (srv.start 0 1000) c ms ∧
      ¬ OwnStatus srv c ms (sample_id 1) info.name := by
  refine ⟨by decide +kernel, ?_⟩
  have hrun : (shared_label.from_config sample_keys sample_crypto false).any (fun started =>
      started.toOption.any (fun srv => (AList.lookup (sample_id 1) srv.clients).any (fun info =>
        (record srv.machine srv.prog (init (srv.start 0 1000), []) second_pulses).any (fun t =>
          ((entry_of info.name t.1.state).bind ClientStatus.last_pulse).isSome &&
          (latest (fun past x => (srv.about t.1 (sample_id 1) past x).bind written_pulse) []
            t.2).isNone)))) = true := by
    decide +kernel
  obtain ⟨started, hstarted, hrun⟩ := (Option.any_eq_true _ _).mp hrun
  obtain ⟨srv, hsrv, hrun⟩ := (Option.any_eq_true _ _).mp hrun
  obtain ⟨info, hinfo, hrun⟩ := (Option.any_eq_true _ _).mp hrun
  obtain ⟨⟨c, ms⟩, ht, hcheck⟩ := (Option.any_eq_true _ _).mp hrun
  obtain ⟨hpulse, hnone⟩ := Bool.and_eq_true_iff.mp hcheck
  have hrec : Recorded srv.machine srv.prog (srv.start 0 1000) c ms :=
    record_sound (r := (c, ms)) .start ht
  have hok : started = .ok srv := by
    cases started with
    | error e => cases hsrv
    | ok srv' => rw [Option.some.inj hsrv]
  refine ⟨srv, info, c, ms, by rw [hstarted, hok], hinfo, hrec, fun hown => ?_⟩
  -- the first client has not pulsed
  rw [hown.last_pulse] at hpulse
  rw [Option.isNone_iff_eq_none] at hnone
  rw [hnone] at hpulse
  cases hpulse

end Server

end SignedPulse
