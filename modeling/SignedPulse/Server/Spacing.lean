import SignedPulse.Server.Moments

/-! # The spacing of grant hooks

    The cooldown of a client is checked before its grant hook is invoked, and
    marked when the hook has ended in `Ok`. In between there is no mark, and a
    new session is not checked at all. Two consequences:

    - several verified pulses in flight can all pass the check.
      `grants_spaced` says when the configured spacing is kept all the same,
      and `overlapping_grants` is a run in which it is not
    - a new session whose grant hook failed can be held back by the mark of an
      earlier session. `regrant_iff` says when its next pulse invokes the grant
      hook, and `failed_session_skipped` is a run in which it does not
-/

namespace SignedPulse

namespace Server

open Interleaving

/-! ### Grant hooks -/

/-- The grant hook that an operation invokes. -/
def grant_of : Op → Option HookCall
  | .hook_acquire .grant call => some call
  | _ => none

/-- A grant hook ends in `Ok`. -/
def ended_ok : Event ops → Bool
  | ⟨.hook_wait .grant _, outcome⟩ => decide (outcome ≠ .failed)
  | _ => false

/-- A grant hook ends in `Err`: no permit, no process, or no result. -/
def failed_grant : Event ops → Option HookCall
  | ⟨.hook_acquire .grant call, false⟩ => some call
  | ⟨.hook_spawn .grant call, false⟩ => some call
  | ⟨.hook_wait .grant call, .failed⟩ => some call
  | _ => none

section moves
variable {srv : Server} {q q' : Stage} {ev : Event ops} {call : HookCall} {client_id : Str}

/-! ### What an event tells about its task -/

theorem Stage.Goes.of_grant (h : Goes srv q ev q') (hev : grant_of ev.op = some call) :
    q = .granting call := by
  cases h with
  | quiet harea =>
    obtain ⟨o, r⟩ := ev
    cases o <;> first | (simp [areas, Op.area] at harea; done) | cases hev
  | grant_acquired call' permit =>
    obtain rfl : call' = call := Option.some.inj hev
    rfl
  | _ => cases hev

theorem Stage.Goes.of_ended_ok (h : Goes srv q ev q') (hev : ended_ok ev = true) :
    ∃ call, q = .grant_running call ∧ q' = .marking call := by
  cases h with
  | quiet harea =>
    obtain ⟨o, r⟩ := ev
    cases o <;> first | (simp [areas, Op.area] at harea; done) | cases hev
  | grant_ended call outcome =>
    have hne : outcome ≠ .failed := of_decide_eq_true hev
    exact ⟨call, rfl, if_neg hne⟩
  | _ => cases hev

theorem Stage.Goes.of_failed_grant (h : Goes srv q ev q') (hev : failed_grant ev = some call) :
    q' = .over := by
  cases h with
  | quiet harea =>
    obtain ⟨o, r⟩ := ev
    cases o <;> first | (simp [areas, Op.area] at harea; done) | cases hev
  | grant_acquired call' permit =>
    cases permit with
    | true => cases hev
    | false => rfl
  | grant_spawned call' spawned =>
    cases spawned with
    | true => cases hev
    | false => rfl
  | grant_ended call' outcome =>
    cases outcome with
    | failed => rfl
    | _ => cases hev
  | _ => cases hev

theorem Stage.Goes.of_check {cooling : Bool}
    (h : Goes srv q ⟨.in_cooldown (id_key client_id), cooling⟩ q') :
    ∃ p : Pulse, p.client_id = client_id ∧ q = .checking p ∧
      q' = if cooling then .over else .cleared p := by
  generalize hkey : id_key client_id = key at h
  cases h with
  | quiet harea => simp [areas, Op.area] at harea
  | checked p => exact ⟨p, (id_key_injective hkey).symm, rfl, rfl⟩

theorem Stage.Goes.of_mark (h : Goes srv q ev q')
    (hev : ev.op = .cooldown_mark (id_key client_id)) :
    ∃ call, call.client_id = client_id ∧ q = .marking call ∧ q' = .over := by
  cases h with
  | quiet harea => simp [hev, areas, Op.area] at harea
  | marked call => exact ⟨call, id_key_injective (Op.cooldown_mark.inj hev), rfl, rfl⟩
  | _ => cases hev

/-- A session goes on until its task is over. -/
theorem Stage.Goes.keeps_session {client : Str × Bool} (h : Goes srv q ev q')
    (hq : q.session = some client ∨ q = .over) : q'.session = some client ∨ q' = .over := by
  rcases hq with hq | rfl
  swap
  · exact .inr (eq_over_of_rank h.rank_le)
  cases h with
  | quiet _ => exact .inl hq
  | checked p cooling =>
    cases cooling with
    | true => exact .inr rfl
    | false => exact .inl hq
  | counted p n => exact .inl hq
  | grant_acquired call permit =>
    cases permit with
    | true => exact .inl hq
    | false => exact .inr rfl
  | grant_spawned call spawned =>
    cases spawned with
    | true => exact .inl hq
    | false => exact .inr rfl
  | grant_ended call outcome =>
    split
    · exact .inr rfl
    · exact .inl hq
  | marked call => exact .inr rfl
  | _ => cases hq

/-- A grant hook that has ended in `Ok` is marked before its task is over. -/
theorem Stage.Goes.marks (h : Goes srv q ev q') (hq : q = .marking call) :
    q' = .marking call ∨ ev.op = .cooldown_mark (id_key call.client_id) := by
  subst hq
  cases h with
  | quiet _ => exact .inl rfl
  | marked => exact .inr rfl

theorem Stage.Goes.of_renewal {ip : IpAddr} (h : Goes srv q ev q')
    (hev : renewal_of ev.op = some (client_id, ip)) :
    ∃ (p : Pulse) (ttl : Duration), p.client_id = client_id ∧ q = .idle ∧ q' = Stage.renewed p ∧
      ev = ⟨.leases_renew p.client_id p.ip p.port p.param ttl, p.is_new⟩ := by
  cases h with
  | quiet harea =>
    obtain ⟨o, r⟩ := ev
    cases o <;> first | (simp [areas, Op.area] at harea; done) | cases hev
  | renewed p ttl => exact ⟨p, ttl, (Prod.mk.inj (Option.some.inj hev)).1, rfl, rfl, rfl⟩
  | _ => cases hev

/-- A keep-alive waits for its cooldown check. -/
theorem Stage.Goes.checks {p : Pulse} (h : Goes srv q ev q') (hq : q = .checking p) :
    q' = .checking p ∨ ∃ cooling, ev = ⟨.in_cooldown (id_key p.client_id), cooling⟩ := by
  subst hq
  cases h with
  | quiet _ => exact .inl rfl
  | checked _ cooling => exact .inr ⟨cooling, rfl⟩

/-- The grant hook of a pulse is still to be invoked. -/
def Stage.clears (p : Pulse) : Stage → Prop
  | .cleared p' => p' = p
  | .granting call => call.client_id = p.client_id
  | _ => False

/-- A pulse that the cooldown let pass waits for its grant hook. -/
theorem Stage.Goes.grants {p : Pulse} (h : Goes srv q ev q') (hq : q.clears p) :
    q'.clears p ∨ ∃ call, grant_of ev.op = some call ∧ call.client_id = p.client_id := by
  cases h with
  | quiet _ => exact .inl hq
  | counted p' n =>
    left
    show p'.client_id = p.client_id
    rw [show p' = p from hq]
  | grant_acquired call permit => exact .inr ⟨call, rfl, hq⟩
  | _ => exact hq.elim

end moves

section runs
variable {srv : Server} {now : Instant} {unix : Int64} {c : Config ops State Job}
variable {ms pre mid post : List ServerMoment} {x y z w : ServerMoment} {call call' : HookCall}

/-- A task does not go back. -/
theorem rank_mono (h : Recorded srv.machine srv.prog (srv.start now unix) c (pre ++ post))
    (i : Nat) : (srv.stage_of i pre).rank ≤ (srv.stage_of i (pre ++ post)).rank := by
  refine (stage_path h i).kept
    (φ := fun q => (srv.stage_of i pre).rank ≤ q.rank) ?_ le_rfl
  intro q ev q' hnext hle
  exact hle.trans (goes_of_stages hnext).rank_le

/-- The session of a task that has invoked a grant hook is that of the hook. -/
theorem session_since_grant (h : Recorded srv.machine srv.prog (srv.start now unix) c
    (pre ++ x :: mid)) (hx : grant_of x.op = some call) :
    (srv.stage_of x.task (pre ++ x :: mid)).session = some (call.client_id, call.is_new) ∨
      srv.stage_of x.task (pre ++ x :: mid) = .over := by
  have hgoes := moment_goes h
  have hbefore : srv.stage_of x.task pre = .granting call := hgoes.of_grant hx
  have hafter := hgoes.keeps_session (.inl (by rw [hbefore]; rfl))
  have hsplit : pre ++ x :: mid = (pre ++ [x]) ++ mid := by simp
  rw [hsplit] at h ⊢
  exact (stage_path h x.task).kept
    (φ := fun q => q.session = some (call.client_id, call.is_new) ∨ q = .over)
    (fun _ _ _ hnext => (goes_of_stages hnext).keeps_session) hafter

/-- A task that has invoked a grant hook and is over, and whose hook ends in `Ok` at some time,
    has marked the cooldown. -/
theorem mark_of_ended_ok
    (h : Recorded srv.machine srv.prog (srv.start now unix) c ((pre ++ x :: mid) ++ post))
    (hx : grant_of x.op = some call) (hover : srv.stage_of x.task (pre ++ x :: mid) = .over)
    (hw : w ∈ (pre ++ x :: mid) ++ post) (htask : w.task = x.task)
    (hok : ended_ok (w.event srv.machine) = true) : ∃ m ∈ mid, Marks call.client_id m := by
  have hgrant : srv.stage_of x.task pre = .granting call := by
    have h' : Recorded srv.machine srv.prog (srv.start now unix) c (pre ++ x :: (mid ++ post)) := by
      simpa using h
    exact (moment_goes h').of_grant hx
  rcases List.mem_append.mp hw with hw | hw
  swap
  · -- after the end of the task there is no hook to wait for
    obtain ⟨a, b, rfl⟩ := List.append_of_mem hw
    have h' : Recorded srv.machine srv.prog (srv.start now unix) c
        ((pre ++ x :: mid ++ a) ++ w :: b) := by simpa using h
    obtain ⟨call₀, hrunning, -⟩ := (moment_goes h').of_ended_ok hok
    obtain ⟨c', hrec⟩ := h'.initial
    have hle := rank_mono hrec x.task
    rw [htask] at hrunning
    rw [hover, hrunning] at hle
    simp [Stage.rank] at hle
  rcases List.mem_append.mp hw with hw | hw
  · -- before the invocation there is none yet
    obtain ⟨a, b, rfl⟩ := List.append_of_mem hw
    have h' : Recorded srv.machine srv.prog (srv.start now unix) c
        (a ++ w :: (b ++ x :: mid ++ post)) := by simpa using h
    obtain ⟨call₀, -, hmarking⟩ := (moment_goes h').of_ended_ok hok
    have h'' : Recorded srv.machine srv.prog (srv.start now unix) c
        (((a ++ [w]) ++ b) ++ (x :: mid ++ post)) := by simpa using h
    obtain ⟨c', hrec⟩ := h''.initial
    have hle := rank_mono hrec x.task
    rw [htask] at hmarking
    rw [hmarking, show (a ++ [w]) ++ b = a ++ w :: b by simp, hgrant] at hle
    simp [Stage.rank] at hle
  rcases List.mem_cons.mp hw with rfl | hw
  · -- the invocation is not the end
    obtain ⟨i, s, o, e⟩ := w
    cases o <;> first | cases hx | cases hok
  · obtain ⟨a, b, rfl⟩ := List.append_of_mem hw
    have h' : Recorded srv.machine srv.prog (srv.start now unix) c
        ((pre ++ x :: a) ++ w :: (b ++ post)) := by simpa using h
    obtain ⟨call₀, hrunning, hmarking⟩ := (moment_goes h').of_ended_ok hok
    rw [htask] at hrunning hmarking
    -- the hook that ends is the one that was invoked
    obtain ⟨c', hrec⟩ := h'.initial
    have hid : call₀.client_id = call.client_id := by
      rcases session_since_grant hrec hx with hsession | hsession
      · rw [hrunning] at hsession
        exact (Prod.mk.inj (Option.some.inj hsession)).1
      · rw [hrunning] at hsession
        cases hsession
    -- and its mark comes before the end of the task
    have h'' : Recorded srv.machine srv.prog (srv.start now unix) c
        (((pre ++ x :: a ++ [w]) ++ b) ++ post) := by simpa using h
    obtain ⟨c'', hrec'⟩ := h''.initial
    have hleft := (stage_path hrec' x.task).left
      (φ := fun q => q = .marking call₀)
      (ψ := fun ev : Event ops => ev.op = .cooldown_mark (id_key call₀.client_id))
      (fun _ _ _ hnext => (goes_of_stages hnext).marks) hmarking
    rcases hleft with hstill | ⟨ev, hev, hmark⟩
    · have hstill : srv.stage_of x.task (pre ++ x :: (a ++ w :: b)) = .marking call₀ := by
        simpa using hstill
      rw [hover] at hstill
      cases hstill
    · obtain ⟨m, hm, -, rfl⟩ := mem_done_by.mp hev
      exact ⟨m, by simp [hm], hid ▸ hmark⟩

/-- The cooldown check sees the marks before it. -/
theorem check_iff (h : Recorded srv.machine srv.prog (srv.start now unix) c (pre ++ z :: post))
    {client_id : Str} {cooling : Bool}
    (hz : z.event srv.machine = ⟨.in_cooldown (id_key client_id), cooling⟩) :
    cooling = true ↔ ∃ m ∈ pre, Marks client_id m ∧ z.time < m.time + srv.cooldown := by
  obtain ⟨c', -, -, hrec, hstate, -⟩ := h.split
  obtain ⟨i, s, o, e⟩ := z
  obtain ⟨rfl, hres⟩ := Event.mk.inj hz
  have hres : s.cooldown.in_cooldown (id_key client_id) (s.now + e.elapsed) = cooling :=
    eq_of_heq hres
  have hstate : c'.state = s := hstate
  rw [← hres, ← hstate]
  exact in_cooldown_iff hrec (Nat.le_add_right _ _)

/-! ### Keep-alives in flight -/

/-- The grant hook of task `i` ends in `Ok`. -/
def Succeeds (srv : Server) (ms : List ServerMoment) (i : Nat) : Prop :=
  ∃ w ∈ ms, w.task = i ∧ ended_ok (w.event srv.machine) = true

/-- A keep-alive does not invoke the grant hook within the cooldown after an invocation for the
    same client that ends in `Ok`. -/
def GrantsSpaced (srv : Server) (ms : List ServerMoment) : Prop :=
  ∀ (pre : List ServerMoment) (y : ServerMoment) (post : List ServerMoment),
    ms = pre ++ y :: post → ∀ call ∈ grant_of y.op, call.is_new = false →
    ∀ x ∈ pre, ∀ call' ∈ grant_of x.op, call'.client_id = call.client_id →
      srv.Succeeds ms x.task → x.time + srv.cooldown ≤ y.time

/-- When a keep-alive takes its cooldown check at `z` and invokes the grant hook at `y`, every
    earlier invocation for the client that ends in `Ok` is over at `z` or was long enough before,
    and there is none between `z` and `y`. -/
def ChecksAlone (srv : Server) (ms : List ServerMoment) : Prop :=
  ∀ (pre : List ServerMoment) (z : ServerMoment) (mid : List ServerMoment) (y : ServerMoment)
    (post : List ServerMoment), ms = pre ++ z :: (mid ++ y :: post) → z.task = y.task →
    ∀ call ∈ grant_of y.op, call.is_new = false → z.op = .in_cooldown (id_key call.client_id) →
      (∀ x ∈ pre, ∀ call' ∈ grant_of x.op, call'.client_id = call.client_id →
        srv.Succeeds ms x.task →
          srv.stage_of x.task pre = .over ∨ x.time + srv.cooldown ≤ z.time) ∧
      ∀ x ∈ mid, ∀ call' ∈ grant_of x.op, call'.client_id = call.client_id →
        ¬ srv.Succeeds ms x.task

/-- When no keep-alive overlaps with another grant of its client, the spacing is kept. -/
theorem grants_spaced (srv : Server) (now : Instant) (unix : Int64) (c : Config ops State Job)
    (ms : List ServerMoment) (h : Recorded srv.machine srv.prog (srv.start now unix) c ms)
    (halone : srv.ChecksAlone ms) : srv.GrantsSpaced ms := by
  rintro pre y post rfl call hy hold x hx call' hx' hid hok
  have hgoes := moment_goes h
  have hgranting : srv.stage_of y.task pre = .granting call := hgoes.of_grant hy
  -- the check that the keep-alive has passed
  obtain ⟨c', -, -, hrec, -, -⟩ := h.split
  have hsession : (srv.stage_of y.task pre).session = some (call.client_id, false) := by
    rw [hgranting, ← hold]
    rfl
  obtain ⟨z, hz, htask, hcheck⟩ := check_of_passed hrec hsession (by rw [hgranting]; rfl)
  have hop : z.op = .in_cooldown (id_key call.client_id) := congrArg Event.op hcheck
  obtain ⟨pre₁, mid, rfl⟩ := List.append_of_mem hz
  obtain ⟨hbefore, hbetween⟩ := halone pre₁ z mid y post (by simp) htask call hy hold hop
  have hzy : z.time ≤ y.time := (time_le_of_split h).1 z (by simp)
  rcases List.mem_append.mp hx with hx | hx
  swap
  · rcases List.mem_cons.mp hx with rfl | hx
    · -- the check is no invocation
      have hx' : grant_of x.op = some call' := hx'
      rw [hop] at hx'
      cases hx'
    · exact absurd hok (hbetween x hx call' hx' hid)
  rcases hbefore x hx call' hx' hid hok with hover | hlong
  swap
  · exact hlong.trans hzy
  -- the grant is marked, and the check has seen the mark
  obtain ⟨a, b, rfl⟩ := List.append_of_mem hx
  obtain ⟨w, hw, hwtask, hwok⟩ := hok
  have h' : Recorded srv.machine srv.prog (srv.start now unix) c
      ((a ++ x :: b) ++ (z :: mid ++ y :: post)) := by simpa using h
  obtain ⟨m, hm, hmark⟩ := mark_of_ended_ok h' hx' hover (by simpa using hw) hwtask hwok
  rw [hid] at hmark
  have hxm : x.time ≤ m.time := by
    have hx'' : Recorded srv.machine srv.prog (srv.start now unix) c
        (a ++ x :: (b ++ z :: mid ++ y :: post)) := by simpa using h
    exact (time_le_of_split hx'').2 m (by simp [hm])
  have hmz : m.time + srv.cooldown ≤ z.time := by
    by_contra hyoung
    have hz' : Recorded srv.machine srv.prog (srv.start now unix) c
        ((a ++ x :: b) ++ z :: (mid ++ y :: post)) := by simpa using h
    have hcooling := (check_iff hz' hcheck).mpr
      ⟨m, by simp [hm], hmark, Nat.lt_of_not_le hyoung⟩
    cases hcooling
  lia

/-- A cooldown check at `z` for the grant hook at `y` with no grant hook under way. -/
def check_alone (srv : Server) (pre : List ServerMoment) (z : ServerMoment)
    (mid : List ServerMoment) (y : ServerMoment) : Bool :=
  match grant_of y.op, z.op with
  | some _, .in_cooldown _ =>
    pre.all (fun x => (grant_of x.op).isNone || decide (srv.stage_of x.task pre = .over)) &&
      mid.all (fun x => (grant_of x.op).isNone)
  | _, _ => true

theorem checksAlone_of_checks
    (h : ∀ k < ms.length, ms[k]?.all (fun y => (List.range k).all (fun j =>
      ms[j]?.all (fun z => srv.check_alone (ms.take j) z ((ms.take k).drop (j + 1)) y))) = true) :
    srv.ChecksAlone ms := by
  rintro pre z mid y post rfl - call hy - hz
  have hsplit : pre ++ z :: (mid ++ y :: post) = (pre ++ z :: mid) ++ y :: post := by simp
  have hcheck := h (pre ++ z :: mid).length (by rw [hsplit]; simp)
  have hz' : (pre ++ z :: (mid ++ y :: post))[pre.length]? = some z := by simp
  have hpre : (pre ++ z :: (mid ++ y :: post)).take pre.length = pre := List.take_left' rfl
  have hdrop : (pre ++ z :: mid).drop (pre.length + 1) = mid := by simp
  rw [hsplit, show ((pre ++ z :: mid) ++ y :: post)[(pre ++ z :: mid).length]? = some y by simp,
    Option.all_some, List.all_eq_true] at hcheck
  have hcheck := hcheck pre.length (List.mem_range.mpr (by simp))
  rw [← hsplit, hz', Option.all_some, hpre, hsplit, List.take_left' rfl, hdrop] at hcheck
  unfold check_alone at hcheck
  rw [Option.mem_def.mp hy, hz] at hcheck
  simp only [Bool.and_eq_true, List.all_eq_true, Bool.or_eq_true, decide_eq_true_iff,
    Option.isNone_iff_eq_none] at hcheck
  constructor
  · intro x hx call' hx' _ _
    refine .inl ((hcheck.1 x hx).resolve_left ?_)
    rw [Option.mem_def.mp hx']
    nofun
  · intro x hx call' hx' _ _
    have hnone := hcheck.2 x hx
    rw [Option.mem_def.mp hx'] at hnone
    cases hnone

/-- Client 1 pulses, and once more when its cooldown is over. -/
def pulse_twice : List (Label Env Job) :=
  sample_task 0 1 (.Hello (sample_hello 1 1000 1)) 14 (sample_env 1000 1) ++
  sample_task 1 1 (.Response (sample_response 1 1)) 21 (sample_env 1000 0) ++
  sample_task 2 1 (.Hello (sample_hello 1 1000 2)) 14
    { sample_env 1000 2 with elapsed := Duration.from_secs 5 } ++
  sample_task 3 1 (.Response (sample_response 1 2)) 22 (sample_env 1000 0)

theorem grants_spaced_twice :
    ∃ c ms, record sample.machine sample.prog (init (sample.start 0 1000), []) pulse_twice =
        some (c, ms) ∧
      ((ms.filterMap (fun x => grant_of x.op)).map HookCall.is_new) = [true, false] ∧
      sample.GrantsSpaced ms := by
  have hrun : (record sample.machine sample.prog (init (sample.start 0 1000), [])
      pulse_twice).any (fun t =>
        decide (∀ k < t.2.length, t.2[k]?.all (fun y => (List.range k).all (fun j =>
          t.2[j]?.all (fun z =>
            sample.check_alone (t.2.take j) z ((t.2.take k).drop (j + 1)) y))) = true) &&
        decide ((t.2.filterMap (fun x => grant_of x.op)).map HookCall.is_new = [true, false])) =
        true := by
    decide +kernel
  obtain ⟨⟨c, ms⟩, ht, hcheck⟩ := (Option.any_eq_true _ _).mp hrun
  simp only [Bool.and_eq_true, decide_eq_true_iff] at hcheck
  exact ⟨c, ms, ht, hcheck.2, grants_spaced sample 0 1000 c ms
    (record_sound (r := (c, ms)) .start ht) (checksAlone_of_checks hcheck.1)⟩

/-- Client 1 pulses, and when its cooldown is over it pulses twice more. Both of these pulses are
    checked before the grant hook of either has ended. -/
def overlapping_pulses : List (Label Env Job) :=
  sample_task 0 1 (.Hello (sample_hello 1 1000 1)) 14 (sample_env 1000 1) ++
  sample_task 1 1 (.Response (sample_response 1 1)) 21 (sample_env 1000 0) ++
  sample_task 2 1 (.Hello (sample_hello 1 1000 2)) 14
    { sample_env 1000 2 with elapsed := Duration.from_secs 5 } ++
  sample_task 3 1 (.Hello (sample_hello 1 1000 3)) 14 (sample_env 1000 3) ++
  sample_task 4 1 (.Response (sample_response 1 2)) 14 (sample_env 1000 0) ++
  sample_task 5 1 (.Response (sample_response 1 3)) 14 (sample_env 1000 0) ++
  (List.replicate 8 (.run 4 (sample_env 1000 0)) : List (Label Env Job)) ++
  (List.replicate 8 (.run 5 (sample_env 1000 0)) : List (Label Env Job))

/-- The grant hook is invoked at 149 s and at 157 s, with a cooldown of 60 s. -/
theorem overlapping_grants :
    ∃ c ms, Recorded sample.machine sample.prog (sample.start 0 1000) c ms ∧ AllEnded c ∧
      sample.cooldown = Duration.from_secs 60 ∧ ¬ sample.GrantsSpaced ms := by
  have hrun : (record sample.machine sample.prog (init (sample.start 0 1000), [])
      overlapping_pulses).any (fun t =>
        decide (AllEnded t.1) &&
        t.2[100]?.any (fun y => (grant_of y.op).any (fun call => !call.is_new &&
          (t.2.take 100)[92]?.any (fun x =>
            (grant_of x.op).any (fun call' => decide (call'.client_id = call.client_id)) &&
            t.2[94]?.any (fun w =>
              decide (w.task = x.task) && ended_ok (w.event sample.machine)) &&
            decide (y.time < x.time + sample.cooldown))))) = true := by
    decide +kernel
  obtain ⟨⟨c, ms⟩, ht, hcheck⟩ := (Option.any_eq_true _ _).mp hrun
  simp only [Bool.and_eq_true, decide_eq_true_iff] at hcheck
  obtain ⟨hend, hcheck⟩ := hcheck
  have hrec : Recorded sample.machine sample.prog (sample.start 0 1000) c ms :=
    record_sound (r := (c, ms)) .start ht
  have hcooldown : sample.cooldown = Duration.from_secs 60 := rfl
  refine ⟨c, ms, hrec, hend, hcooldown, ?_⟩
  intro hspaced
  obtain ⟨y, hy, hcheck⟩ := (Option.any_eq_true _ _).mp hcheck
  obtain ⟨call, hcall, hcheck⟩ := (Option.any_eq_true _ _).mp hcheck
  simp only [Bool.and_eq_true, Bool.not_eq_true'] at hcheck
  obtain ⟨hold, hcheck⟩ := hcheck
  obtain ⟨x, hx, hcheck⟩ := (Option.any_eq_true _ _).mp hcheck
  simp only [Bool.and_eq_true, decide_eq_true_iff] at hcheck
  obtain ⟨⟨hcall', hok⟩, hsoon⟩ := hcheck
  obtain ⟨call', hcall', hid⟩ := (Option.any_eq_true _ _).mp hcall'
  obtain ⟨w, hw, hok⟩ := (Option.any_eq_true _ _).mp hok
  simp only [Bool.and_eq_true, decide_eq_true_iff] at hok hid
  have hle := hspaced _ _ _ (take_cons_drop hy) call hcall hold x (List.mem_of_getElem? hx) call'
    hcall' hid
    ⟨w, List.mem_of_getElem? hw, hok⟩
  exact Nat.not_le_of_lt hsoon hle

/-! ### A failed grant -/

/-- Once every task has ended, a pulse that the cooldown let pass has invoked its grant hook. -/
theorem grant_of_clears {p : Pulse}
    (h : Recorded srv.machine srv.prog (srv.start now unix) c ((pre ++ [x]) ++ post))
    (hend : AllEnded c) (hclears : (srv.stage_of x.task (pre ++ [x])).clears p) :
    ∃ z ∈ post, z.task = x.task ∧
      ∃ call, grant_of z.op = some call ∧ call.client_id = p.client_id := by
  exact left_at_end (φ := fun q => q.clears p)
    (ψ := fun ev => ∃ call, grant_of ev.op = some call ∧ call.client_id = p.client_id)
    (fun _ _ _ hgoes => hgoes.grants) id id h hend hclears

/-- Once every task has ended, a keep-alive has taken its cooldown check. -/
theorem check_of_checking {p : Pulse}
    (h : Recorded srv.machine srv.prog (srv.start now unix) c ((pre ++ [x]) ++ post))
    (hend : AllEnded c) (hchecking : srv.stage_of x.task (pre ++ [x]) = .checking p) :
    ∃ z ∈ post, z.task = x.task ∧
      ∃ cooling, z.event srv.machine = ⟨.in_cooldown (id_key p.client_id), cooling⟩ := by
  exact left_at_end (φ := fun q => q = .checking p)
    (ψ := fun ev => ∃ cooling, ev = ⟨.in_cooldown (id_key p.client_id), cooling⟩)
    (fun _ _ _ hgoes => hgoes.checks) nofun nofun h hend hchecking

/-- The client has a lease that is live at this moment. -/
def HoldsLease (client_id : Str) (x : ServerMoment) : Prop :=
  ∃ l, x.state.leases.entry client_id = some l ∧ l.live x.time = true

/-- A pulse that opens no session finds a live lease. -/
theorem holds_lease {p : Pulse} {ttl : Duration} (hy : y.event srv.machine =
    ⟨.leases_renew p.client_id p.ip p.port p.param ttl, p.is_new⟩) (hold : p.is_new = false) :
    HoldsLease p.client_id y := by
  obtain ⟨i, s, o, e⟩ := y
  obtain ⟨rfl, hres⟩ := Event.mk.inj hy
  have hres : (s.leases.renew_at p.client_id p.ip p.port p.param ttl (s.now + e.elapsed)).1 =
      p.is_new := eq_of_heq hres
  rw [hold] at hres
  exact LeaseTracker.renew_at_not_new.mp hres

/-- A keep-alive that is cooling down does not invoke the grant hook. -/
theorem no_grant_of_cooling {client_id : Str}
    (h : Recorded srv.machine srv.prog (srv.start now unix) c (pre ++ y :: (mid ++ z :: post)))
    (htask : z.task = y.task)
    (hz : z.event srv.machine = ⟨.in_cooldown (id_key client_id), true⟩) :
    ∀ w ∈ mid ++ z :: post, w.task = y.task → grant_of w.op = none := by
  have hsplit : pre ++ y :: (mid ++ z :: post) = (pre ++ y :: mid) ++ z :: post := by simp
  have hgoes := moment_goes (hsplit ▸ h)
  rw [hz] at hgoes
  obtain ⟨p, -, hbefore, hafter⟩ := hgoes.of_check
  have hafter : srv.stage_of z.task ((pre ++ y :: mid) ++ [z]) = .over := hafter
  intro w hw hwtask
  cases hgrant : grant_of w.op with
  | none => rfl
  | some call =>
    exfalso
    rcases List.mem_append.mp hw with hw | hw
    · -- a grant before the check
      obtain ⟨a, b, rfl⟩ := List.append_of_mem hw
      have h' : Recorded srv.machine srv.prog (srv.start now unix) c
          ((pre ++ y :: a) ++ w :: (b ++ z :: post)) := by simpa using h
      have hgranting : srv.stage_of w.task (pre ++ y :: a) = .granting call :=
        (moment_goes h').of_grant hgrant
      have h'' : Recorded srv.machine srv.prog (srv.start now unix) c
          (((pre ++ y :: a) ++ w :: b) ++ z :: post) := by simpa using h
      obtain ⟨c', hrec⟩ := h''.initial
      have hle := rank_mono hrec w.task
      have hchecking : srv.stage_of w.task ((pre ++ y :: a) ++ w :: b) = .checking p := by
        rw [hwtask, ← htask]
        simpa using hbefore
      rw [hgranting, hchecking] at hle
      simp [Stage.rank] at hle
    · rcases List.mem_cons.mp hw with rfl | hw
      · rw [show w.op = .in_cooldown (id_key client_id) from congrArg Event.op hz] at hgrant
        cases hgrant
      · -- a grant after the check
        obtain ⟨a, b, rfl⟩ := List.append_of_mem hw
        have h' : Recorded srv.machine srv.prog (srv.start now unix) c
            ((((pre ++ y :: mid) ++ [z]) ++ a) ++ w :: b) := by simpa using h
        have hgranting : srv.stage_of w.task (((pre ++ y :: mid) ++ [z]) ++ a) = .granting call :=
          (moment_goes h').of_grant hgrant
        obtain ⟨c', hrec⟩ := h'.initial
        have hle := rank_mono hrec w.task
        rw [hwtask, ← htask] at hle hgranting
        rw [hafter, hgranting] at hle
        simp [Stage.rank] at hle

/-- In a sequential run, the marks of a client that its next pulse after a failed grant finds are
    from before the failed grant. -/
theorem mark_before_failure {seg : List ServerMoment} {p : Pulse}
    (h : Recorded srv.machine srv.prog (srv.start now unix) c (pre ++ x :: (seg ++ z :: post)))
    (hturn : InTurn c (pre ++ x :: (seg ++ z :: post)))
    (hx : failed_grant (x.event srv.machine) = some call)
    (hfirst : ∀ r ∈ seg, ∀ ip, renewal_of r.op = some (call.client_id, ip) → r.task = z.task)
    (hchecking : srv.stage_of z.task (pre ++ x :: seg) = .checking p) :
    ∀ m ∈ pre ++ x :: seg, Marks call.client_id m → m ∈ pre := by
  intro m hm hmark
  rcases List.mem_append.mp hm with hm | hm
  · exact hm
  exfalso
  rcases List.mem_cons.mp hm with rfl | hm
  · obtain ⟨i, s, o, e⟩ := m
    cases o <;> first | cases hx | cases hmark
  obtain ⟨a, b, rfl⟩ := List.append_of_mem hm
  -- the stage of the task that makes the mark
  have hm' : Recorded srv.machine srv.prog (srv.start now unix) c
      ((pre ++ x :: a) ++ m :: (b ++ z :: post)) := by simpa using h
  obtain ⟨call', hid, hmarking, -⟩ := (moment_goes hm').of_mark hmark
  have hmarking : srv.stage_of m.task (pre ++ x :: a) = .marking call' := hmarking
  have hnotz : m.task ≠ z.task := by
    intro heq
    have hz' : Recorded srv.machine srv.prog (srv.start now unix) c
        (((pre ++ x :: a) ++ m :: b) ++ z :: post) := by simpa using h
    obtain ⟨c', hrec⟩ := hz'.initial
    have hle := rank_mono hrec m.task
    have hlate : srv.stage_of m.task ((pre ++ x :: a) ++ m :: b) = .checking p := by
      rw [heq]
      simpa using hchecking
    rw [hmarking, hlate] at hle
    simp [Stage.rank] at hle
  have hnotx : m.task ≠ x.task := by
    intro heq
    have hover : srv.stage_of x.task (pre ++ [x]) = .over :=
      (moment_goes h).of_failed_grant hx
    have hx' : Recorded srv.machine srv.prog (srv.start now unix) c
        (((pre ++ [x]) ++ a) ++ m :: (b ++ z :: post)) := by simpa using h
    obtain ⟨c', hrec⟩ := hx'.initial
    have hle := rank_mono hrec x.task
    have hlate : srv.stage_of x.task ((pre ++ [x]) ++ a) = .marking call' := by
      rw [← heq]
      simpa using hmarking
    rw [hover, hlate] at hle
    simp [Stage.rank] at hle
  -- its renewal is before the failed grant, or a later one of the client
  obtain ⟨c', -, -, hrec, -, -⟩ := hm'.split
  have hsession : (srv.stage_of m.task (pre ++ x :: a)).session =
      some (call.client_id, call'.is_new) := by
    rw [hmarking, ← hid]
    rfl
  obtain ⟨r, hr, hrtask, ip, port, param, ttl, hrenewed⟩ := renewed_of_session hrec hsession
  have hrenewal : renewal_of r.op = some (call.client_id, ip) := by
    rw [show r.op = .leases_renew call.client_id ip port param ttl from congrArg Event.op hrenewed]
    rfl
  have hsorted := hturn.sorted
  rcases List.mem_append.mp hr with hr | hr
  · have hrx : r.task ≤ x.task :=
      (List.pairwise_append.mp hsorted).2.2 r hr x List.mem_cons_self
    have hxm : x.task ≤ m.task :=
      (List.pairwise_cons.mp (List.pairwise_append.mp hsorted).2.1).1 m (by simp)
    omega
  rcases List.mem_cons.mp hr with rfl | hr
  · exact hnotx hrtask.symm
  · exact hnotz (hrtask.symm.trans (hfirst r (by simp [hr]) ip hrenewal))

/-- The next pulse after a failed grant, of a new session or not, invokes the grant hook if and
    only if it finds no live lease, or no mark from before the failed grant that its cooldown check
    still sees. -/
theorem regrant_iff (srv : Server) (now : Instant) (unix : Int64) (c : Config ops State Job)
    (pre : List ServerMoment) (x : ServerMoment) (mid : List ServerMoment) (y : ServerMoment)
    (post : List ServerMoment)
    (h : Recorded srv.machine srv.prog (srv.start now unix) c (pre ++ x :: (mid ++ y :: post)))
    (hturn : InTurn c (pre ++ x :: (mid ++ y :: post))) (hend : AllEnded c) (call : HookCall)
    (hx : failed_grant (x.event srv.machine) = some call) (ip : IpAddr)
    (hy : renewal_of y.op = some (call.client_id, ip))
    (hnext : ∀ m ∈ mid, ∀ ip, renewal_of m.op ≠ some (call.client_id, ip)) :
    (∃ z ∈ post, z.task = y.task ∧
      ∃ call', grant_of z.op = some call' ∧ call'.client_id = call.client_id) ↔
    (HoldsLease call.client_id y → ∀ z ∈ post, z.task = y.task →
      z.op = .in_cooldown (id_key call.client_id) →
        ∀ m ∈ pre, Marks call.client_id m → m.time + srv.cooldown ≤ z.time) := by
  have hsplit : pre ++ x :: (mid ++ y :: post) = (pre ++ x :: mid) ++ y :: post := by simp
  have hsplit' : pre ++ x :: (mid ++ y :: post) = ((pre ++ x :: mid) ++ [y]) ++ post := by simp
  constructor
  · rintro ⟨w, hw, hwtask, call', hgrant, -⟩ - z hz hztask hzop m hm hmark
    obtain ⟨a, b, rfl⟩ := List.append_of_mem hz
    have hz' : Recorded srv.machine srv.prog (srv.start now unix) c
        ((pre ++ x :: (mid ++ y :: a)) ++ z :: b) := by simpa using h
    by_contra hyoung
    have hcooling : z.event srv.machine = ⟨.in_cooldown (id_key call.client_id), true⟩ := by
      obtain ⟨cooling, hcheck⟩ : ∃ cooling,
          z.event srv.machine = ⟨.in_cooldown (id_key call.client_id), cooling⟩ := by
        obtain ⟨i, s, o, e⟩ := z
        obtain rfl : o = .in_cooldown (id_key call.client_id) := hzop
        exact ⟨_, rfl⟩
      rw [hcheck, (check_iff hz' hcheck).mpr ⟨m, by simp [hm], hmark, Nat.lt_of_not_le hyoung⟩]
    have hnone := no_grant_of_cooling (hsplit ▸ h) hztask hcooling w hw hwtask
    rw [hgrant] at hnone
    cases hnone
  · intro hquiet
    have hgoes := moment_goes (hsplit ▸ h)
    have h' : Recorded srv.machine srv.prog (srv.start now unix) c
        (((pre ++ x :: mid) ++ [y]) ++ post) := hsplit' ▸ h
    obtain ⟨p, hid, hres, hafter⟩ : ∃ p : Pulse, p.client_id = call.client_id ∧
        (p.is_new = false → HoldsLease call.client_id y) ∧
        srv.stage_of y.task ((pre ++ x :: mid) ++ [y]) = Stage.renewed p := by
      obtain ⟨p, ttl, hid, -, hafter, hev⟩ := hgoes.of_renewal hy
      exact ⟨p, hid, fun hold => hid ▸ holds_lease hev hold, hafter⟩
    unfold Stage.renewed at hafter
    split at hafter
    · rw [← hid]
      exact grant_of_clears h' hend (by rw [hafter]; rfl)
    · rename_i hold
      have hlive := hres (by simpa using hold)
      obtain ⟨z, hz, hztask, cooling, hcheck⟩ := check_of_checking h' hend hafter
      rw [hid] at hcheck
      have hzop : z.op = .in_cooldown (id_key call.client_id) := congrArg Event.op hcheck
      obtain ⟨a, b, rfl⟩ := List.append_of_mem hz
      have hz' : Recorded srv.machine srv.prog (srv.start now unix) c
          ((pre ++ x :: (mid ++ y :: a)) ++ z :: b) := by simpa using h
      have hzgoes := moment_goes hz'
      rw [hcheck] at hzgoes
      obtain ⟨p', hid', hchecking, hcleared⟩ := hzgoes.of_check
      have hcold : cooling = false := by
        cases hcooling : cooling with
        | false => rfl
        | true =>
          exfalso
          obtain ⟨m, hm, hmark, hyoung⟩ := (check_iff hz' hcheck).mp hcooling
          have hmpre : m ∈ pre := by
            have hz'' : Recorded srv.machine srv.prog (srv.start now unix) c
                (pre ++ x :: ((mid ++ y :: a) ++ z :: b)) := by simpa using h
            refine mark_before_failure hz'' (by simpa using hturn) hx ?_ hchecking m hm hmark
            intro r hr ip' hrenewal
            rcases List.mem_append.mp hr with hr | hr
            · exact absurd hrenewal (hnext r hr ip')
            rcases List.mem_cons.mp hr with rfl | hr
            · exact hztask.symm
            · -- between two moments of a task there is no other task
              have hsorted := hturn.sorted
              rw [hsplit, List.pairwise_append, List.pairwise_cons] at hsorted
              obtain ⟨-, ⟨hyr, hpost⟩, -⟩ := hsorted
              have hrz : r.task ≤ z.task :=
                (List.pairwise_append.mp hpost).2.2 r hr z List.mem_cons_self
              have hyr := hyr r (by simp [hr])
              omega
          have hold := hquiet hlive z hz hztask hzop m hmpre hmark
          lia
      -- the check lets the pulse pass
      rw [hcold] at hcleared
      have hz'' : Recorded srv.machine srv.prog (srv.start now unix) c
          (((pre ++ x :: (mid ++ y :: a)) ++ [z]) ++ b) := by simpa using h
      obtain ⟨w, hw, hwtask, hgrant⟩ := grant_of_clears (p := p') hz'' hend (by
        show (srv.stage_of z.task ((pre ++ x :: (mid ++ y :: a)) ++ [z])).clears p'
        rw [show srv.stage_of z.task ((pre ++ x :: (mid ++ y :: a)) ++ [z]) = .cleared p' from
          hcleared]
        rfl)
      rw [hid'] at hgrant
      exact ⟨w, by simp [hw], hwtask.trans hztask, hgrant⟩

/-- The key that an operation marks. -/
def mark_of : Op → Option Str
  | .cooldown_mark key => some key
  | _ => none

theorem marks_iff {client_id : Str} :
    Marks client_id x ↔ mark_of x.op = some (id_key client_id) := by
  unfold Marks
  cases x.op <;> simp [mark_of]

instance (client_id : Str) (x : ServerMoment) : Decidable (Marks client_id x) :=
  decidable_of_iff _ marks_iff.symm

/-- Client 1 pulses and leaves. When it pulses again its grant hook is not started; so it pulses
    once more, which takes `n` steps. -/
def pulse_after_failure (n : Nat) (e : Env) : List (Label Env Job) :=
  let still := { sample_env 1000 0 with elapsed := 0 }
  sample_task 0 1 (.Hello (sample_hello 1 1000 1)) 14 (sample_env 1000 1) ++
  sample_task 1 1 (.Response (sample_response 1 1)) 21 (sample_env 1000 0) ++
  sample_task 2 1 (.Hello (sample_hello 1 1000 2)) 14 { sample_env 1000 2 with elapsed := 0 } ++
  sample_task 3 1 (.Bye (sample_bye 1 2)) 16 still ++
  sample_task 4 1 (.Hello (sample_hello 1 1000 3)) 14 { sample_env 1000 3 with elapsed := 0 } ++
  sample_task 5 1 (.Response (sample_response 1 3)) 17 { still with spawned := false } ++
  sample_task 6 1 (.Hello (sample_hello 1 1000 4)) 14 e ++
  sample_task 7 1 (.Response (sample_response 1 4)) n (sample_env 1000 0)

/-- The moment of the failed grant and that of the pulse after it. -/
def failure_and_pulse (t : Config ops State Job × List ServerMoment) : Bool :=
  decide (AllEnded t.1) && decide (t.2.Pairwise (fun x y => x.task ≤ y.task)) &&
  t.2[94]?.any (fun x => (t.2.drop 95)[27]?.any (fun y =>
    (failed_grant (x.event sample.machine)).any (fun call =>
      call.is_new && (renewal_of y.op).any (fun r => decide (r.1 = call.client_id)) &&
      decide (((t.2.drop 95).take 27).all (fun m => (renewal_of m.op).isNone)))))

theorem failure_and_pulse_split {t : Config ops State Job × List ServerMoment}
    (h : failure_and_pulse t = true) : ∃ x mid y call ip,
      t.2 = t.2.take 94 ++ x :: (mid ++ y :: (t.2.drop 95).drop 28) ∧
      (InTurn t.1 t.2 ∧ AllEnded t.1) ∧
      (failed_grant (x.event sample.machine) = some call ∧ call.is_new = true) ∧
      renewal_of y.op = some (call.client_id, ip) ∧
      ∀ m ∈ mid, ∀ ip, renewal_of m.op ≠ some (call.client_id, ip) := by
  unfold failure_and_pulse at h
  simp only [Bool.and_eq_true, decide_eq_true_iff] at h
  obtain ⟨⟨hend, hsorted⟩, h⟩ := h
  obtain ⟨x, hx, h⟩ := (Option.any_eq_true _ _).mp h
  obtain ⟨y, hy, h⟩ := (Option.any_eq_true _ _).mp h
  obtain ⟨call, hcall, h⟩ := (Option.any_eq_true _ _).mp h
  simp only [Bool.and_eq_true, decide_eq_true_iff, List.all_eq_true, Option.isNone_iff_eq_none]
    at h
  obtain ⟨⟨hnew, h⟩, hmid⟩ := h
  obtain ⟨⟨client_id, ip⟩, hrenewal, hid⟩ := (Option.any_eq_true _ _).mp h
  obtain rfl : client_id = call.client_id := of_decide_eq_true hid
  refine ⟨x, (t.2.drop 95).take 27, y, call, ip, ?_, ⟨.of_ended hsorted hend, hend⟩,
    ⟨hcall, hnew⟩, hrenewal, ?_⟩
  · rw [← take_cons_drop hy]
    exact take_cons_drop hx
  · intro m hm ip' heq
    rw [hmid m hm] at heq
    cases heq

/-- When the mark of the first session is too old to matter, the grant hook is invoked. -/
theorem regrant_iff_later :
    ∃ c pre x mid y post, record sample.machine sample.prog (init (sample.start 0 1000), [])
        (pulse_after_failure 22 { sample_env 1000 4 with elapsed := Duration.from_secs 5 }) =
          some (c, pre ++ x :: (mid ++ y :: post)) ∧
      (∃ call, failed_grant (x.event sample.machine) = some call ∧ call.is_new = true) ∧
      ∃ z ∈ post, z.task = y.task ∧ (grant_of z.op).isSome := by
  have hrun : (record sample.machine sample.prog (init (sample.start 0 1000), [])
      (pulse_after_failure 22 { sample_env 1000 4 with elapsed := Duration.from_secs 5 })).any
      (fun t => failure_and_pulse t && decide (∀ z ∈ (t.2.drop 95).drop 28, ∀ m ∈ t.2.take 94,
        (mark_of m.op).isSome = true → m.time + sample.cooldown ≤ z.time)) = true := by
    decide +kernel
  obtain ⟨⟨c, ms⟩, ht, hcheck⟩ := (Option.any_eq_true _ _).mp hrun
  simp only [Bool.and_eq_true, decide_eq_true_iff] at hcheck
  obtain ⟨hcheck, hold⟩ := hcheck
  obtain ⟨x, mid, y, call, ip, hsplit, ⟨hturn, hend⟩, ⟨hx, hnew⟩, hy, hnext⟩ :=
    failure_and_pulse_split hcheck
  have hrec : Recorded sample.machine sample.prog (sample.start 0 1000) c ms :=
    record_sound (r := (c, ms)) .start ht
  dsimp only at hsplit hold hturn
  obtain ⟨z, hz, htask, call', hgrant, -⟩ :=
    (regrant_iff sample 0 1000 c _ x mid y _ (hsplit ▸ hrec) (hsplit ▸ hturn) hend call hx ip hy
      hnext).mpr fun _ z hz _ _ m hm hmark => hold z hz m hm (by rw [marks_iff.mp hmark]; rfl)
  refine ⟨c, ms.take 94, x, mid, y, (ms.drop 95).drop 28, ht.trans (congrArg _ ?_),
    ⟨call, hx, hnew⟩, z, hz, htask, ?_⟩
  · rw [← hsplit]
  · rw [hgrant]
    rfl

/-- When it is not, the pulse is skipped: the client has a live lease and only a failed grant. -/
theorem failed_session_skipped :
    ∃ c pre x mid y post call ip,
      Recorded sample.machine sample.prog (sample.start 0 1000) c
        (pre ++ x :: (mid ++ y :: post)) ∧
      InTurn c (pre ++ x :: (mid ++ y :: post)) ∧ AllEnded c ∧
      failed_grant (x.event sample.machine) = some call ∧ call.is_new = true ∧
      renewal_of y.op = some (call.client_id, ip) ∧
      (∀ m ∈ mid, ∀ ip, renewal_of m.op ≠ some (call.client_id, ip)) ∧
      ∀ z ∈ post, grant_of z.op = none := by
  have hrun : (record sample.machine sample.prog (init (sample.start 0 1000), [])
      (pulse_after_failure 15 { sample_env 1000 4 with elapsed := 0 })).any
      (fun t => failure_and_pulse t &&
        decide (∀ z ∈ (t.2.drop 95).drop 28, grant_of z.op = none)) = true := by
    decide +kernel
  obtain ⟨⟨c, ms⟩, ht, hcheck⟩ := (Option.any_eq_true _ _).mp hrun
  simp only [Bool.and_eq_true, decide_eq_true_iff] at hcheck
  obtain ⟨hcheck, hnone⟩ := hcheck
  obtain ⟨x, mid, y, call, ip, hsplit, ⟨hturn, hend⟩, ⟨hx, hnew⟩, hy, hnext⟩ :=
    failure_and_pulse_split hcheck
  have hrec : Recorded sample.machine sample.prog (sample.start 0 1000) c ms :=
    record_sound (r := (c, ms)) .start ht
  dsimp only at hsplit hnone hturn
  exact ⟨c, _, x, mid, y, _, call, ip, hsplit ▸ hrec, hsplit ▸ hturn, hend, hx, hnew, hy, hnext,
    hnone⟩

end runs

end Server

end SignedPulse
