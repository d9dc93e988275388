import SignedPulse.Server.Stages

/-! # Recorded runs of the server

    A moment of a run is an operation of a task, with the state in which it was
    performed. Here is what every recorded run of the server offers: a clock
    that does not go back (`times_sorted`), tasks that go through their stages
    (`moment_goes`), and a cooldown that remembers the successful grants
    (`in_cooldown_iff`).
-/

namespace Interleaving

open SignedPulse

/-- When an operation of the server took place. -/
def Moment.time (x : Moment ops Env State) : Instant := x.state.now + x.env.elapsed

end Interleaving

namespace SignedPulse

open Interleaving

/-- A moment of a run of the server. -/
abbrev ServerMoment := Moment ops Env State

namespace Server

/-- The stage of task `i` after the moments. -/
abbrev stage_of (srv : Server) (i : Nat) (ms : List ServerMoment) : Stage :=
  srv.stages.stage srv.machine i ms

variable {srv : Server} {now : Instant} {unix : Int64} {c : Config ops State Job}
variable {ms pre post : List ServerMoment} {x : ServerMoment}

/-! ### Stages -/

/-- The move of a task at a moment. -/
theorem moment_goes
    (h : Recorded srv.machine srv.prog (srv.start now unix) c (pre ++ x :: post)) :
    Stage.Goes srv (srv.stage_of x.task pre) (x.event srv.machine)
      (srv.stage_of x.task (pre ++ [x])) :=
  goes_of_stages (Automaton.next_stage srv.prog_staged h)

/-- The other tasks stay where they are. -/
theorem stage_of_other {i : Nat} (h : i ≠ x.task) :
    srv.stage_of i (ms ++ [x]) = srv.stage_of i ms :=
  Automaton.stage_snoc_ne ms h.symm

/-- When all tasks have ended, each is at its end. -/
theorem stage_of_ended (h : Recorded srv.machine srv.prog (srv.start now unix) c ms)
    (hend : AllEnded c) (i : Nat) : srv.stage_of i ms = .idle ∨ srv.stage_of i ms = .over :=
  Automaton.final_of_all_ended srv.prog_staged (.inl rfl) h hend i

/-- What a task does after some moments takes it from its stage there to its latest stage. -/
theorem stage_path (h : Recorded srv.machine srv.prog (srv.start now unix) c (pre ++ post))
    (i : Nat) :
    srv.stages.Path (srv.stage_of i pre) (done_by srv.machine i post)
      (srv.stage_of i (pre ++ post)) :=
  Automaton.path_between srv.prog_staged h i

/-- Once every task has ended, a task has left the stages that are neither its beginning nor its
    end. -/
theorem left_at_end {φ : Stage → Prop} {ψ : Event ops → Prop}
    (hstep : ∀ q ev q', Stage.Goes srv q ev q' → φ q → φ q' ∨ ψ ev)
    (hidle : ¬ φ .idle) (hover : ¬ φ .over)
    (h : Recorded srv.machine srv.prog (srv.start now unix) c (pre ++ post)) (hend : AllEnded c)
    {i : Nat} (hi : φ (srv.stage_of i pre)) :
    ∃ z ∈ post, z.task = i ∧ ψ (z.event srv.machine) := by
  rcases (stage_path h i).left (fun q ev q' hnext => hstep q ev q' (goes_of_stages hnext)) hi with
    hstill | ⟨ev, hev, hψ⟩
  · rcases stage_of_ended h hend i with hfinal | hfinal
    · exact absurd (hfinal ▸ hstill) hidle
    · exact absurd (hfinal ▸ hstill) hover
  · obtain ⟨z, hz, htask, rfl⟩ := mem_done_by.mp hev
    exact ⟨z, hz, htask, hψ⟩

/-! ### The pulse behind a stage -/

/-- The client that a task has verified a pulse of, and whether the pulse opened a session. -/
def Stage.session : Stage → Option (Str × Bool)
  | .checking p | .cleared p => some (p.client_id, p.is_new)
  | .granting call | .grant_held call | .grant_running call | .marking call =>
    some (call.client_id, call.is_new)
  | _ => none

@[simp] theorem Stage.session_proceed (reason : Reason) (todo : List (ExpiredLease × Nat)) :
    (proceed reason todo).session = none := by
  cases todo <;> rfl

@[simp] theorem Stage.session_ended (srv : Server) (reason : Reason)
    (todo : List (ExpiredLease × Nat)) : (ended srv reason todo).session = none := by
  unfold ended
  split
  · exact session_proceed reason todo
  · rfl

/-- The task is past its cooldown check and has not invoked the grant hook. -/
def Stage.passed : Stage → Bool
  | .cleared _ | .granting _ => true
  | _ => false

@[simp] theorem Stage.passed_proceed (reason : Reason) (todo : List (ExpiredLease × Nat)) :
    (proceed reason todo).passed = false := by
  cases todo <;> rfl

@[simp] theorem Stage.passed_ended (srv : Server) (reason : Reason)
    (todo : List (ExpiredLease × Nat)) : (ended srv reason todo).passed = false := by
  unfold ended
  split
  · exact passed_proceed reason todo
  · rfl

/-- The event is a verified pulse of the client. -/
def Renewed (client_id : Str) (is_new : Bool) (ev : Event ops) : Prop :=
  ∃ ip port param ttl, ev = ⟨.leases_renew client_id ip port param ttl, is_new⟩

section sessions
variable {q q' : Stage} {ev : Event ops} {client_id : Str} {is_new : Bool}

/-- A session comes from a verified pulse. -/
theorem Stage.Goes.session (h : Goes srv q ev q') (hq' : q'.session = some (client_id, is_new)) :
    q.session = some (client_id, is_new) ∨ Renewed client_id is_new ev := by
  -- a renewal opens it, and the stages after that carry it along
  cases h with
  | quiet _ => exact .inl hq'
  | purged => exact .inl hq'
  | renewed p ttl =>
    have hp : (p.client_id, p.is_new) = (client_id, is_new) := by
      unfold Stage.renewed at hq'
      split at hq' <;> exact Option.some.inj hq'
    obtain ⟨rfl, rfl⟩ := Prod.mk.inj hp
    exact .inr ⟨p.ip, p.port, p.param, ttl, rfl⟩
  | checked p cooling =>
    cases cooling with
    | true => cases hq'
    | false => exact .inl hq'
  | counted p n => exact .inl hq'
  | released _ r => simp at hq'
  | taken expired => simp at hq'
  | grant_acquired call permit =>
    cases permit with
    | true => exact .inl hq'
    | false => cases hq'
  | grant_spawned call spawned =>
    cases spawned with
    | true => exact .inl hq'
    | false => cases hq'
  | grant_ended call outcome =>
    split at hq'
    · cases hq'
    · exact .inl hq'
  | revoke_acquired reason x param permit todo =>
    cases permit with
    | true => cases hq'
    | false => simp at hq'
  | revoke_spawned call spawned todo =>
    cases spawned with
    | true => cases hq'
    | false => simp at hq'
  | revoke_ended call outcome todo => simp at hq'
  | marked call => cases hq'

/-- A keep-alive passes the cooldown check by finding no cooldown. -/
theorem Stage.Goes.passed (h : Goes srv q ev q') (hq' : q'.session = some (client_id, false))
    (hpassed : q'.passed = true) :
    (q.session = some (client_id, false) ∧ q.passed = true) ∨
      ev = ⟨.in_cooldown (id_key client_id), false⟩ := by
  cases h with
  | quiet _ => exact .inl ⟨hq', hpassed⟩
  | purged => cases hq'
  | renewed p ttl =>
    -- only a new session passes without the check
    unfold Stage.renewed at hq' hpassed
    split at hq'
    · rename_i hnew
      have hp : (p.client_id, p.is_new) = (client_id, false) := Option.some.inj hq'
      rw [(Prod.mk.inj hp).2] at hnew
      cases hnew
    · rename_i hold
      rw [if_neg hold] at hpassed
      cases hpassed
  | checked p cooling =>
    cases cooling with
    | true => cases hq'
    | false =>
      have hp : (p.client_id, p.is_new) = (client_id, false) := Option.some.inj hq'
      rw [(Prod.mk.inj hp).1]
      exact .inr rfl
  | counted p n => exact .inl ⟨hq', rfl⟩
  | released _ r => simp at hq'
  | taken expired => simp at hq'
  | grant_acquired call permit => cases permit <;> cases hpassed
  | grant_spawned call spawned => cases spawned <;> cases hpassed
  | grant_ended call outcome => split at hpassed <;> cases hpassed
  | revoke_acquired reason x param permit todo =>
    cases permit with
    | true => cases hpassed
    | false => simp at hq'
  | revoke_spawned call spawned todo =>
    cases spawned with
    | true => cases hpassed
    | false => simp at hq'
  | revoke_ended call outcome todo => simp at hq'
  | marked call => cases hq'

/-- The pulse that a task has verified is in the record. -/
theorem renewed_of_session (h : Recorded srv.machine srv.prog (srv.start now unix) c ms) {i : Nat}
    (hi : (srv.stage_of i ms).session = some (client_id, is_new)) :
    ∃ x ∈ ms, x.task = i ∧ Renewed client_id is_new (x.event srv.machine) := by
  have hentered := (Automaton.path_of_recorded srv.prog_staged h i).entered
    (φ := fun q => q.session = some (client_id, is_new))
    (fun q ev q' hnext => (goes_of_stages hnext).session) hi
  rcases hentered with hstart | ⟨ev, hev, hrenewed⟩
  · cases hstart
  · obtain ⟨x, hx, htask, rfl⟩ := mem_done_by.mp hev
    exact ⟨x, hx, htask, hrenewed⟩

/-- The cooldown check that a keep-alive has passed is in the record. -/
theorem check_of_passed (h : Recorded srv.machine srv.prog (srv.start now unix) c ms) {i : Nat}
    (hi : (srv.stage_of i ms).session = some (client_id, false))
    (hpassed : (srv.stage_of i ms).passed = true) :
    ∃ x ∈ ms, x.task = i ∧ x.event srv.machine = ⟨.in_cooldown (id_key client_id), false⟩ := by
  have hentered := (Automaton.path_of_recorded srv.prog_staged h i).entered
    (φ := fun q => q.session = some (client_id, false) ∧ q.passed = true)
    (fun q ev q' hnext hq' => (goes_of_stages hnext).passed hq'.1 hq'.2) ⟨hi, hpassed⟩
  rcases hentered with hstart | ⟨ev, hev, hcheck⟩
  · cases hstart.1
  · obtain ⟨x, hx, htask, rfl⟩ := mem_done_by.mp hev
    exact ⟨x, hx, htask, hcheck⟩

end sessions

/-! ### The clock -/

theorem after_now (x : ServerMoment) : (x.after srv.machine).now = x.time :=
  perform_now

/-- No moment is later than the clock of the run. -/
theorem time_le_now (h : Recorded srv.machine srv.prog (srv.start now unix) c ms) :
    ∀ x ∈ ms, x.time ≤ c.state.now := by
  refine h.induction (fun s ms => ∀ x ∈ ms, x.time ≤ s.now) (by simp) ?_
  intro c ms x _ _ ih y hy
  rw [after_now]
  rcases List.mem_append.mp hy with hy | hy
  · exact (ih y hy).trans (Nat.le_add_right _ _)
  · rw [List.mem_singleton.mp hy]

/-- The moments are in the order of their times. -/
theorem times_sorted (h : Recorded srv.machine srv.prog (srv.start now unix) c ms) :
    ms.Pairwise (fun x y => x.time ≤ y.time) := by
  refine h.induction (fun _ ms => ms.Pairwise (fun x y => x.time ≤ y.time)) .nil ?_
  intro c ms x hrec hstate ih
  refine List.pairwise_append.mpr ⟨ih, List.pairwise_singleton _ _, ?_⟩
  intro y hy z hz
  have hle : y.time ≤ x.state.now := hstate ▸ time_le_now hrec y hy
  rw [List.mem_singleton.mp hz]
  exact hle.trans (Nat.le_add_right _ _)

theorem time_le_of_split
    (h : Recorded srv.machine srv.prog (srv.start now unix) c (pre ++ x :: post)) :
    (∀ y ∈ pre, y.time ≤ x.time) ∧ ∀ y ∈ post, x.time ≤ y.time := by
  have hsorted := times_sorted h
  rw [List.pairwise_append] at hsorted
  obtain ⟨-, hpost, hpre⟩ := hsorted
  exact ⟨fun y hy => hpre y hy x List.mem_cons_self, (List.pairwise_cons.mp hpost).1⟩

/-! ### Cooldown marks -/

/-- At this moment a grant hook of the client has ended in `Ok`, and is remembered. -/
def Marks (client_id : Str) (x : ServerMoment) : Prop := x.op = .cooldown_mark (id_key client_id)

/-- The cooldown that the server is configured with. -/
def cooldown (srv : Server) : Duration := Duration.from_secs srv.config.client_cooldown_seconds

theorem id_key_injective {a b : Str} (h : id_key a = id_key b) : a = b :=
  List.append_cancel_left h

/-- What the tracker has for a client: its latest mark, unless it is too old to matter. -/
structure CooldownInv (srv : Server) (s : State) (ms : List ServerMoment) : Prop where
  cooldown : s.cooldown.cooldown = srv.cooldown
  /-- What is remembered was marked. -/
  marked : ∀ client_id t, AList.lookup (id_key client_id) s.cooldown.last = some t →
    ∃ x ∈ ms, Marks client_id x ∧ x.time = t
  /-- What was marked is remembered, or is too old to matter. -/
  remembered : ∀ client_id, ∀ x ∈ ms, Marks client_id x → x.time + srv.cooldown ≤ s.now ∨
    ∃ t, x.time ≤ t ∧ AList.lookup (id_key client_id) s.cooldown.last = some t

section cooldown
variable {s s' : State} {key : Str}

/-- A moment that leaves the tracker as it is. -/
theorem CooldownInv.keep (h : CooldownInv srv x.state ms)
    (hsame : (x.after srv.machine).cooldown = x.state.cooldown)
    (hmark : ∀ client_id, ¬ Marks client_id x) :
    CooldownInv srv (x.after srv.machine) (ms ++ [x]) where
  cooldown := by rw [hsame]; exact h.cooldown
  marked client_id t ht := by
    rw [hsame] at ht
    obtain ⟨y, hy, hyt⟩ := h.marked client_id t ht
    exact ⟨y, List.mem_append_left _ hy, hyt⟩
  remembered client_id y hy hmarks := by
    rw [hsame, after_now]
    rcases List.mem_append.mp hy with hy | hy
    · exact (h.remembered client_id y hy hmarks).imp_left
        (fun hle => hle.trans (Nat.le_add_right _ _))
    · rw [List.mem_singleton.mp hy] at hmarks
      exact absurd hmarks (hmark client_id)

/-- Step lemma for a mark. -/
theorem CooldownInv.mark (h : CooldownInv srv x.state ms)
    (htime : ∀ y ∈ ms, y.time ≤ x.state.now) (hop : x.op = .cooldown_mark key)
    (hafter : (x.after srv.machine).cooldown = x.state.cooldown.mark key x.time) :
    CooldownInv srv (x.after srv.machine) (ms ++ [x]) where
  cooldown := by rw [hafter, CooldownTracker.mark_cooldown]; exact h.cooldown
  marked client_id t ht := by
    have hold (ht : AList.lookup (id_key client_id) x.state.cooldown.last = some t) :
        ∃ y ∈ ms ++ [x], Marks client_id y ∧ y.time = t := by
      obtain ⟨y, hy, hyt⟩ := h.marked client_id t ht
      exact ⟨y, List.mem_append_left _ hy, hyt⟩
    rw [hafter] at ht
    by_cases hoff : x.state.cooldown.cooldown = 0
    · rw [show x.state.cooldown.mark key x.time = x.state.cooldown from if_pos hoff] at ht
      exact hold ht
    · rw [CooldownTracker.lookup_mark hoff] at ht
      split at ht
      · rename_i hkey
        exact ⟨x, by simp, hop.trans (by rw [hkey]), Option.some.inj ht⟩
      · exact hold ht
  remembered client_id y hy hmarks := by
    have hle : y.time ≤ x.time := by
      rcases List.mem_append.mp hy with hy | hy
      · exact (htime y hy).trans (Nat.le_add_right _ _)
      · rw [List.mem_singleton.mp hy]
    rw [hafter, after_now]
    by_cases hoff : x.state.cooldown.cooldown = 0
    · -- nothing is remembered, and nothing matters
      rw [h.cooldown] at hoff
      rw [hoff]
      exact .inl hle
    · rw [CooldownTracker.lookup_mark hoff]
      split
      · exact .inr ⟨x.time, hle, rfl⟩
      · rename_i hkey
        rcases List.mem_append.mp hy with hy | hy
        · exact (h.remembered client_id y hy hmarks).imp_left
            (fun hle => hle.trans (Nat.le_add_right _ _))
        · -- the mark at this moment is for another key
          rw [List.mem_singleton.mp hy] at hmarks
          exact absurd (Op.cooldown_mark.inj (hmarks.symm.trans hop)) hkey

/-- Step lemma for a purge. -/
theorem CooldownInv.purge (h : CooldownInv srv x.state ms) (hop : x.op = .cooldown_purge_stale)
    (hafter : (x.after srv.machine).cooldown = x.state.cooldown.purge_stale x.time) :
    CooldownInv srv (x.after srv.machine) (ms ++ [x]) := by
  by_cases hoff : x.state.cooldown.cooldown = 0
  · refine h.keep (hafter.trans (if_pos hoff)) ?_
    intro client_id hmarks
    exact Op.noConfusion (hmarks.symm.trans hop)
  have hon : srv.cooldown ≠ 0 := h.cooldown ▸ hoff
  refine ⟨?_, ?_, ?_⟩
  · rw [hafter, CooldownTracker.purge_stale_cooldown]
    exact h.cooldown
  · intro client_id t ht
    rw [hafter, CooldownTracker.lookup_purge_stale hoff, Option.filter_eq_some_iff] at ht
    obtain ⟨y, hy, hyt⟩ := h.marked client_id t ht.1
    exact ⟨y, List.mem_append_left _ hy, hyt⟩
  · intro client_id y hy hmarks
    rw [hafter, after_now, CooldownTracker.lookup_purge_stale hoff]
    rcases List.mem_append.mp hy with hy | hy
    · rcases h.remembered client_id y hy hmarks with hold | ⟨t, hle, ht⟩
      · exact .inl (hold.trans (Nat.le_add_right _ _))
      · -- purged only when it is too old to matter
        rw [ht, h.cooldown]
        by_cases hyoung : x.time - t < srv.cooldown
        · exact .inr ⟨t, hle, by simp [Instant.duration_since, hyoung]⟩
        · left
          lia
    · rw [List.mem_singleton.mp hy] at hmarks
      exact Op.noConfusion (hmarks.symm.trans hop)

/-- Step lemma. -/
theorem CooldownInv.step (h : CooldownInv srv x.state ms)
    (htime : ∀ y ∈ ms, y.time ≤ x.state.now) :
    CooldownInv srv (x.after srv.machine) (ms ++ [x]) := by
  obtain ⟨i, s, o, e⟩ := x
  by_cases hmark : ∃ key, o = .cooldown_mark key
  · obtain ⟨key, rfl⟩ := hmark
    exact h.mark htime rfl rfl
  by_cases hpurge : o = .cooldown_purge_stale
  · subst hpurge
    exact h.purge rfl rfl
  refine h.keep ?_ (fun client_id hmarks => hmark ⟨_, hmarks⟩)
  cases o <;> first | rfl | exact absurd ⟨_, rfl⟩ hmark | exact absurd rfl hpurge

/-- Run lemma. -/
theorem cooldown_inv (h : Recorded srv.machine srv.prog (srv.start now unix) c ms) :
    CooldownInv srv c.state ms := by
  have hstart : CooldownInv srv (srv.start now unix) [] := by
    refine ⟨rfl, ?_, ?_⟩
    · intro client_id t ht
      cases ht
    · intro client_id x hx
      cases hx
  refine h.induction (CooldownInv srv) hstart ?_
  intro c ms x hrec hstate ih
  exact ih.step (hstate ▸ time_le_now hrec)

/-- A client is cooling down as long as one of its marks is younger than the cooldown. -/
theorem in_cooldown_iff (h : Recorded srv.machine srv.prog (srv.start now unix) c ms)
    {client_id : Str} {n : Instant} (hn : c.state.now ≤ n) :
    c.state.cooldown.in_cooldown (id_key client_id) n = true ↔
      ∃ x ∈ ms, Marks client_id x ∧ n < x.time + srv.cooldown := by
  have hInv := cooldown_inv h
  rw [CooldownTracker.in_cooldown_iff, hInv.cooldown]
  constructor
  · rintro ⟨t, ht, hyoung⟩
    obtain ⟨x, hx, hmarks, rfl⟩ := hInv.marked client_id t ht
    have hle := time_le_now h x hx
    unfold Instant.duration_since at hyoung
    exact ⟨x, hx, hmarks, by lia⟩
  · rintro ⟨x, hx, hmarks, hyoung⟩
    rcases hInv.remembered client_id x hx hmarks with hold | ⟨t, hle, ht⟩
    · lia
    · obtain ⟨y, hy, -, rfl⟩ := hInv.marked client_id t ht
      have hpast := time_le_now h y hy
      refine ⟨y.time, ht, ?_⟩
      unfold Instant.duration_since
      lia

end cooldown

/-! ### Sample runs -/

/-- Task `i` handles a packet of client `n`. -/
def sample_task (i : Nat) (n : UInt8) (packet : Packet) (steps : Nat) (e : Env) :
    List (Label Env Job) :=
  .begin (.datagram packet.encode (sample_peer n)) :: List.replicate steps (.run i e)

/-- Client 1 pulses, and leaves once its pulse was handled. -/
def pulse_then_bye : List (Label Env Job) :=
  sample_task 0 1 (.Hello (sample_hello 1 1000 1)) 14 (sample_env 1000 1) ++
  sample_task 1 1 (.Response (sample_response 1 1)) 21 (sample_env 1000 0) ++
  sample_task 2 1 (.Hello (sample_hello 1 1000 2)) 14 (sample_env 1000 2) ++
  sample_task 3 1 (.Bye (sample_bye 1 2)) 16 (sample_env 1000 0)

end Server

end SignedPulse
