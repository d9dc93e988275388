import SignedPulse.Framework.Trace
import SignedPulse.Server.Spacing

/-! # Access sessions

    A session of a client is opened by a grant hook that says so (`is_new`) and
    closed by a revoke hook. In sequential runs the two take turns
    (`revoked_between_sessions`), as long as no pulse comes upon a lease of its
    client that is over and was not scanned yet.

    A pulse that does puts the new lease in the place of the old one, and the
    old session never gets its revoke hook (`unreported_session`).
-/

namespace SignedPulse

namespace Server

open Interleaving Trace

/-! ### Opening and closing -/

/-- A grant hook is invoked for a new session of the client. -/
def opens (client_id : Str) (x : ServerMoment) : Bool :=
  (grant_of x.op).any (fun call => decide (call.client_id = client_id) && call.is_new)

/-- A revoke hook is invoked for the client. -/
def closes (client_id : Str) (x : ServerMoment) : Bool :=
  match x.op with
  | .hook_acquire .revoke call => decide (call.client_id = client_id)
  | _ => false

/-- The client has an entry in the lease table. -/
def held (client_id : Str) (s : State) : Nat := (s.leases.entry client_id).isSome.toNat

namespace Stage

/-- The grant hook of a new session of the client is still to be invoked. -/
def opening (client_id : Str) : Stage → Bool
  | .cleared p => decide (p.client_id = client_id) && p.is_new
  | .granting call => decide (call.client_id = client_id) && call.is_new
  | _ => false

/-- How many revoke hooks of the client the task has still to invoke. -/
def to_invoke (client_id : Str) : Stage → Nat
  | .revoking _ x todo => (x.1.client_id :: todo.map (fun y => y.1.client_id)).count client_id
  | .revoke_held _ todo => (todo.map (fun y => y.1.client_id)).count client_id
  | .revoke_running _ todo => (todo.map (fun y => y.1.client_id)).count client_id
  | _ => 0

section todo
variable {srv : Server} {client_id : Str} {reason : Reason} {todo : List (ExpiredLease × Nat)}

@[simp] theorem opening_proceed : (proceed reason todo).opening client_id = false := by
  cases todo <;> rfl

@[simp] theorem to_invoke_proceed : (proceed reason todo).to_invoke client_id =
    (todo.map (fun y => y.1.client_id)).count client_id := by
  cases todo <;> rfl

theorem ended_of_revoke (hrevoke : srv.revoke_executor = true) :
    ended srv reason todo = proceed reason todo := if_pos hrevoke

theorem proceed_ne_checking (p : Pulse) : proceed reason todo ≠ .checking p := by
  cases todo <;> nofun

end todo

end Stage

/-! ### The invariant -/

/-- How many revoke hooks of the client were invoked since its latest session was opened. -/
abbrev closed_since (client_id : Str) (ms : List ServerMoment) : Option Nat :=
  count_since (opens client_id) (closes client_id) ms

/-- An open session is in the lease table, or its revoke hook is on the list of the task under
    way, or was invoked. -/
structure SessionInv (client_id : Str) (s : State) (ms : List ServerMoment) (q : Stage) : Prop where
  keep_alive : ∀ p, q = .checking p → p.is_new = false
  opening : (q.opening client_id).toNat ≤ held client_id s
  first : closed_since client_id ms = none →
    held client_id s = (q.opening client_id).toNat ∧ q.to_invoke client_id = 0
  balance : ∀ n, closed_since client_id ms = some n →
    n + q.to_invoke client_id + held client_id s = 1 + (q.opening client_id).toNat

section moves
variable {srv : Server} {client_id : Str} {ms : List ServerMoment} {x : ServerMoment}
variable {q q' : Stage}

theorem held_le_one (client_id : Str) (s : State) : held client_id s ≤ 1 := Bool.toNat_le _

theorem held_of_area (srv : Server) (client_id : Str) (h : x.op.area ≠ .leases) :
    held client_id (x.after srv.machine) = held client_id x.state := by
  unfold held
  rw [show (x.after srv.machine).leases = x.state.leases from perform_leases h]

/-- Only an invocation opens or closes a session. -/
theorem hookless (client_id : Str) (h : ∀ y call, x.op ≠ .hook_acquire y call) :
    opens client_id x = false ∧ closes client_id x = false := by
  unfold opens closes grant_of
  constructor
  · split
    · rename_i heq
      exact absurd heq (h _ _)
    · rfl
  · split
    · rename_i heq
      exact absurd heq (h _ _)
    · rfl

/-- A move that invokes no hook of the client. -/
theorem SessionInv.move (h : SessionInv client_id x.state ms q)
    (hopens : opens client_id x = false) (hcloses : closes client_id x = false)
    (hkeep : ∀ p, q' = .checking p → p.is_new = false)
    (hle : (q'.opening client_id).toNat ≤ held client_id (x.after srv.machine))
    (hsum : q'.to_invoke client_id + held client_id (x.after srv.machine) +
        (q.opening client_id).toNat =
      q.to_invoke client_id + held client_id x.state + (q'.opening client_id).toNat) :
    SessionInv client_id (x.after srv.machine) (ms ++ [x]) q' where
  keep_alive := hkeep
  opening := hle
  first hnone := by
    unfold closed_since at hnone
    rw [count_since_snoc_of_not hopens hcloses] at hnone
    have := h.first hnone
    omega
  balance n hn := by
    unfold closed_since at hn
    rw [count_since_snoc_of_not hopens hcloses] at hn
    have := h.balance n hn
    omega

/-- The grant hook of a new session is invoked. -/
theorem SessionInv.opened (h : SessionInv client_id x.state ms q)
    (hopens : opens client_id x = true) (hq : q.opening client_id = true)
    (hheld : held client_id (x.after srv.machine) = held client_id x.state)
    (hkeep : ∀ p, q' = .checking p → p.is_new = false)
    (hq' : q'.opening client_id = false) (hinvoke : q'.to_invoke client_id = 0) :
    SessionInv client_id (x.after srv.machine) (ms ++ [x]) q' where
  keep_alive := hkeep
  opening := by rw [hq']; exact Nat.zero_le _
  first hnone := by
    unfold closed_since at hnone
    rw [count_since_snoc, if_pos hopens] at hnone
    cases hnone
  balance n hn := by
    unfold closed_since at hn
    rw [count_since_snoc, if_pos hopens] at hn
    obtain rfl : 0 = n := Option.some.inj hn
    have hone := h.opening
    have hle := held_le_one client_id x.state
    rw [hq] at hone
    rw [hq', hinvoke, hheld]
    simp only [Bool.toNat_true, Bool.toNat_false] at hone ⊢
    omega

/-- The revoke hook of the client is invoked. -/
theorem SessionInv.closed (h : SessionInv client_id x.state ms q)
    (hopens : opens client_id x = false) (hcloses : closes client_id x = true)
    (hheld : held client_id (x.after srv.machine) = held client_id x.state)
    (hkeep : ∀ p, q' = .checking p → p.is_new = false)
    (hq : q.opening client_id = false) (hq' : q'.opening client_id = false)
    (hinvoke : q.to_invoke client_id = q'.to_invoke client_id + 1) :
    SessionInv client_id (x.after srv.machine) (ms ++ [x]) q' where
  keep_alive := hkeep
  opening := by rw [hq']; exact Nat.zero_le _
  first hnone := by
    unfold closed_since at hnone
    rw [count_since_snoc, hopens, hcloses] at hnone
    have := (h.first (by simpa using hnone)).2
    omega
  balance n hn := by
    unfold closed_since at hn
    rw [count_since_snoc, hopens, hcloses] at hn
    obtain ⟨k, hk, rfl⟩ : ∃ k, closed_since client_id ms = some k ∧ k + 1 = n := by
      simpa using hn
    have := h.balance k hk
    rw [hq, hinvoke] at this
    rw [hq', hheld]
    omega

/-! ### Steps -/

/-- A pulse of the client is tracked, and comes upon no lease that is over. -/
structure NoticesEnd (client_id : Str) (x : ServerMoment) : Prop where
  room : x.state.leases.HasRoom client_id
  live : ∀ l, x.state.leases.entry client_id = some l → l.live x.time = true

theorem held_renewed {ip : IpAddr} {port : UInt16} {param : Option Str} {ttl : Duration}
    {c : Str} {is_new : Bool} (hnotice : c = client_id → NoticesEnd client_id x)
    (hx : x.event srv.machine = ⟨.leases_renew c ip port param ttl, is_new⟩) :
    held client_id (x.after srv.machine) =
      held client_id x.state + (decide (c = client_id) && is_new).toNat := by
  obtain ⟨i, s, o, e⟩ := x
  obtain ⟨rfl, hres⟩ := Event.mk.inj hx
  have hres : (s.leases.renew_at c ip port param ttl (s.now + e.elapsed)).1 = is_new :=
    eq_of_heq hres
  have hafter : held client_id (Moment.after srv.machine
      (⟨i, s, .leases_renew c ip port param ttl, e⟩ : ServerMoment)) =
      ((s.leases.renew_at c ip port param ttl (s.now + e.elapsed)).2.entry
        client_id).isSome.toNat := rfl
  rw [hafter]
  unfold held
  by_cases hc : c = client_id
  · subst hc
    obtain ⟨hroom, hlive⟩ := hnotice rfl
    rw [LeaseTracker.entry_renew_at hroom, if_pos rfl, decide_eq_true rfl, Bool.true_and]
    cases hentry : s.leases.entry c with
    | none =>
      -- there was no lease, so the session is new
      have hnew : is_new = true := by
        rw [← hres, ← Bool.not_eq_false, LeaseTracker.renew_at_not_new, hentry]
        nofun
      rw [hnew]
      rfl
    | some l =>
      have hold : is_new = false := by
        rw [← hres]
        exact LeaseTracker.renew_at_not_new.mpr ⟨l, hentry, hlive l hentry⟩
      rw [hold]
      rfl
  · rw [decide_eq_false hc, Bool.false_and]
    by_cases hroom : s.leases.HasRoom c
    · rw [LeaseTracker.entry_renew_at hroom, if_neg (Ne.symm hc)]
      rfl
    · rw [LeaseTracker.renew_at_full hroom]
      rfl

theorem held_released {c : Str} {r : Option (ExpiredLease × Nat)}
    (hx : x.event srv.machine = ⟨.leases_release c, r⟩) :
    (r.toList.map (fun y => y.1.client_id)).count client_id + held client_id (x.after srv.machine) =
      held client_id x.state := by
  obtain ⟨i, s, o, e⟩ := x
  obtain ⟨rfl, hres⟩ := Event.mk.inj hx
  have hres : (s.leases.release_at c (s.now + e.elapsed)).1 = r := eq_of_heq hres
  have hafter : held client_id (Moment.after srv.machine
    (⟨i, s, .leases_release c, e⟩ : ServerMoment)) =
      ((s.leases.release_at c (s.now + e.elapsed)).2.entry client_id).isSome.toNat := rfl
  rw [hafter, ← hres, LeaseTracker.count_release_at, LeaseTracker.entry_release_at]
  unfold held
  split
  · exact Nat.add_zero _
  · exact Nat.zero_add _

theorem held_taken {expired : List (ExpiredLease × Nat)}
    (hx : x.event srv.machine = ⟨.leases_take_expired, expired⟩) :
    (expired.map (fun y => y.1.client_id)).count client_id + held client_id (x.after srv.machine) =
      held client_id x.state := by
  obtain ⟨i, s, o, e⟩ := x
  obtain ⟨rfl, hres⟩ := Event.mk.inj hx
  have hres : (s.leases.take_expired_at (s.now + e.elapsed) e.order).1 = expired := eq_of_heq hres
  have hafter : held client_id (Moment.after srv.machine
    (⟨i, s, .leases_take_expired, e⟩ : ServerMoment)) =
      ((s.leases.take_expired_at (s.now + e.elapsed) e.order).2.entry client_id).isSome.toNat := rfl
  rw [hafter, ← hres, LeaseTracker.count_take_expired_at, LeaseTracker.entry_take_expired_at]
  unfold held
  cases s.leases.entry client_id with
  | none => rfl
  | some l => cases hlive : l.live (s.now + e.elapsed) <;> simp [Option.filter, hlive]

/-- A pulse renews or opens a lease. -/
theorem SessionInv.renewed {p : Pulse} {ttl : Duration} (h : SessionInv client_id x.state ms .idle)
    (hnotice : p.client_id = client_id → NoticesEnd client_id x)
    (hx : x.event srv.machine =
      ⟨.leases_renew p.client_id p.ip p.port p.param ttl, p.is_new⟩) :
    SessionInv client_id (x.after srv.machine) (ms ++ [x]) (.renewed p) := by
  have hop : x.op = .leases_renew p.client_id p.ip p.port p.param ttl := congrArg Event.op hx
  have hheld := held_renewed hnotice hx
  have hno := hookless client_id (x := x) (by rw [hop]; nofun)
  have hopening : (Stage.renewed p).opening client_id =
      (decide (p.client_id = client_id) && p.is_new) := by
    unfold Stage.renewed
    split
    · rfl
    · rename_i hold
      rw [Bool.eq_false_iff.mpr hold, Bool.and_false]
      rfl
  have hinvoke : (Stage.renewed p).to_invoke client_id = 0 := by
    unfold Stage.renewed
    split <;> rfl
  refine h.move hno.1 hno.2 ?_ ?_ ?_
  · intro p' heq
    unfold Stage.renewed at heq
    split at heq
    · cases heq
    · rename_i hold
      rw [← Stage.checking.inj heq]
      exact Bool.eq_false_iff.mpr hold
  · rw [hopening, hheld]
    exact Nat.le_add_left _ _
  · rw [hopening, hinvoke, hheld]
    show 0 + _ + 0 = 0 + _ + _
    omega

/-- Leases are taken out of the table, and their revoke hooks are still to be invoked. -/
theorem SessionInv.removed {reason : Reason} {todo : List (ExpiredLease × Nat)}
    (h : SessionInv client_id x.state ms .idle)
    (hno : opens client_id x = false ∧ closes client_id x = false)
    (hheld : (todo.map (fun y => y.1.client_id)).count client_id +
      held client_id (x.after srv.machine) = held client_id x.state) :
    SessionInv client_id (x.after srv.machine) (ms ++ [x]) (.proceed reason todo) := by
  refine h.move hno.1 hno.2 (fun p heq => absurd heq (Stage.proceed_ne_checking p)) ?_ ?_
  · rw [Stage.opening_proceed]
    exact Nat.zero_le _
  · rw [Stage.opening_proceed, Stage.to_invoke_proceed, hheld]
    show _ + 0 = 0 + _ + 0
    omega

/-- Step lemma. -/
theorem SessionInv.step (hrevoke : srv.revoke_executor = true)
    (h : SessionInv client_id x.state ms q)
    (hnotice : ∀ ip, renewal_of x.op = some (client_id, ip) → NoticesEnd client_id x)
    (hgoes : Stage.Goes srv q (x.event srv.machine) q') :
    SessionInv client_id (x.after srv.machine) (ms ++ [x]) q' := by
  -- a move that only passes the session on
  have hpass (harea : x.op.area ≠ .leases)
    (hno : opens client_id x = false ∧ closes client_id x = false)
      (hkeep : ∀ p, q' = .checking p → p.is_new = false)
      (hopening : q'.opening client_id = q.opening client_id)
      (hinvoke : q'.to_invoke client_id = q.to_invoke client_id) :
      SessionInv client_id (x.after srv.machine) (ms ++ [x]) q' := by
    have hheld := held_of_area srv client_id harea
    refine h.move hno.1 hno.2 hkeep ?_ ?_
    · rw [hopening, hheld]
      exact h.opening
    · rw [hopening, hinvoke, hheld]
  generalize hx : x.event srv.machine = ev at hgoes
  have hop : x.op = ev.op := congrArg Event.op hx
  cases hgoes with
  | quiet harea =>
    rw [← hop] at harea
    refine hpass ?_ (hookless _ ?_) h.keep_alive rfl rfl
    · intro heq
      exact harea (by rw [heq]; decide)
    · intro y call heq
      exact harea (by rw [heq]; exact List.mem_of_elem_eq_true rfl)
  | purged => exact hpass (by rw [hop]; nofun) (hookless _ (by rw [hop]; nofun)) nofun rfl rfl
  | renewed p ttl =>
    refine h.renewed (fun hc => hnotice p.ip ?_) hx
    rw [hop, ← hc]
    rfl
  | checked p cooling =>
    have hold := h.keep_alive p rfl
    refine hpass (by rw [hop]; nofun) (hookless _ (by rw [hop]; nofun)) ?_ ?_ ?_
    · cases cooling <;> nofun
    · cases cooling with
      | true => rfl
      | false =>
        show (decide (p.client_id = client_id) && p.is_new) = false
        rw [hold, Bool.and_false]
    · cases cooling <;> rfl
  | counted p n =>
    have hheld : held client_id (x.after srv.machine) = held client_id x.state := by
      obtain ⟨i, s, o, e⟩ := x
      obtain ⟨rfl, -⟩ := Event.mk.inj hx
      rfl
    have hno := hookless client_id (x := x) (by rw [hop]; nofun)
    refine h.move hno.1 hno.2 nofun ?_ ?_
    · rw [hheld]
      exact h.opening
    · rw [hheld]
      rfl
  | released c r =>
    rw [Stage.ended_of_revoke hrevoke]
    exact h.removed (hookless _ (by rw [hop]; nofun)) (held_released hx)
  | taken expired =>
    rw [Stage.ended_of_revoke hrevoke]
    exact h.removed (hookless _ (by rw [hop]; nofun)) (held_taken hx)
  | grant_acquired call permit =>
    have hheld := held_of_area srv client_id (x := x) (by rw [hop]; nofun)
    have hcloses : closes client_id x = false := by
      unfold closes
      rw [hop]
    have hopens : opens client_id x = (Stage.granting call).opening client_id := by
      unfold opens
      rw [hop]
      rfl
    cases hopening : (Stage.granting call).opening client_id with
    | true =>
      refine h.opened (hopens.trans hopening) hopening hheld ?_ ?_ ?_
      · cases permit <;> nofun
      · cases permit <;> rfl
      · cases permit <;> rfl
    | false =>
      refine hpass (by rw [hop]; nofun) ⟨hopens.trans hopening, hcloses⟩ ?_ ?_ ?_
      · cases permit <;> nofun
      · rw [hopening]
        cases permit <;> rfl
      · cases permit <;> rfl
  | grant_spawned call spawned =>
    refine hpass (by rw [hop]; nofun) (hookless _ (by rw [hop]; nofun)) ?_ ?_ ?_
    · cases spawned <;> nofun
    · cases spawned <;> rfl
    · cases spawned <;> rfl
  | grant_ended call outcome =>
    refine hpass (by rw [hop]; nofun) (hookless _ (by rw [hop]; nofun)) ?_ ?_ ?_
    · split <;> nofun
    · split <;> rfl
    · split <;> rfl
  | revoke_acquired reason y param permit todo =>
    have hheld := held_of_area srv client_id (x := x) (by rw [hop]; nofun)
    have hopens : opens client_id x = false := by
      unfold opens
      rw [hop]
      rfl
    have hcloses : closes client_id x = decide (y.1.client_id = client_id) := by
      unfold closes
      rw [hop]
      rfl
    obtain ⟨hchecking, hopening, hinvoke⟩ :
        (∀ p, (if permit then Stage.revoke_held (revoke_call y.1 param reason y.2) todo
          else Stage.proceed reason todo) ≠ .checking p) ∧
        (if permit then Stage.revoke_held (revoke_call y.1 param reason y.2) todo
          else Stage.proceed reason todo).opening client_id = false ∧
        (if permit then Stage.revoke_held (revoke_call y.1 param reason y.2) todo
          else Stage.proceed reason todo).to_invoke client_id =
            (todo.map (fun y => y.1.client_id)).count client_id := by
      cases permit with
      | true => exact ⟨nofun, rfl, rfl⟩
      | false =>
        exact ⟨Stage.proceed_ne_checking, Stage.opening_proceed, Stage.to_invoke_proceed⟩
    have hbefore : (Stage.revoking reason y todo).to_invoke client_id =
        (todo.map (fun y => y.1.client_id)).count client_id +
          if y.1.client_id = client_id then 1 else 0 := by
      show List.count _ (_ :: _) = _
      rw [List.count_cons]
      simp
    by_cases hid : y.1.client_id = client_id
    · refine h.closed hopens (hcloses.trans (decide_eq_true hid)) hheld
        (fun p heq => absurd heq (hchecking p)) rfl hopening ?_
      rw [hbefore, if_pos hid, hinvoke]
    · refine hpass (by rw [hop]; nofun) ⟨hopens, hcloses.trans (decide_eq_false hid)⟩
        (fun p heq => absurd heq (hchecking p)) hopening ?_
      rw [hbefore, if_neg hid, hinvoke]
      rfl
  | revoke_spawned call spawned todo =>
    cases spawned with
    | true => exact hpass (by rw [hop]; nofun) (hookless _ (by rw [hop]; nofun)) nofun rfl rfl
    | false =>
      exact hpass (by rw [hop]; nofun) (hookless _ (by rw [hop]; nofun))
        (fun p heq => absurd heq (Stage.proceed_ne_checking p)) Stage.opening_proceed
        Stage.to_invoke_proceed
  | revoke_ended call outcome todo =>
    exact hpass (by rw [hop]; nofun) (hookless _ (by rw [hop]; nofun))
      (fun p heq => absurd heq (Stage.proceed_ne_checking p)) Stage.opening_proceed
      Stage.to_invoke_proceed
  | marked call => exact hpass (by rw [hop]; nofun) (hookless _ (by rw [hop]; nofun)) nofun rfl rfl

end moves

/-! ### Runs -/

section runs
variable {srv : Server} {now : Instant} {unix : Int64} {c : Config ops State Job}
variable {ms pre post : List ServerMoment} {x : ServerMoment} {client_id : Str}

theorem SessionInv.start (client_id : Str) (srv : Server) (now : Instant) (unix : Int64) :
    SessionInv client_id (srv.start now unix) [] .idle where
  keep_alive := nofun
  opening := Nat.zero_le _
  first _ := ⟨rfl, rfl⟩
  balance := nofun

/-- Between two tasks there is nothing to invoke. -/
theorem SessionInv.final {s : State} {q q' : Stage} (hq : srv.stages.final q)
    (hq' : srv.stages.final q') (h : SessionInv client_id s ms q) :
    SessionInv client_id s ms q' := by
  have hnone (q : Stage) (hq : srv.stages.final q) :
      q.opening client_id = false ∧ q.to_invoke client_id = 0 ∧ ∀ p, q ≠ .checking p := by
    rcases hq with rfl | rfl
    · exact ⟨rfl, rfl, nofun⟩
    · exact ⟨rfl, rfl, nofun⟩
  obtain ⟨hopening, hinvoke, -⟩ := hnone q hq
  obtain ⟨hopening', hinvoke', hchecking⟩ := hnone q' hq'
  refine ⟨fun p heq => absurd heq (hchecking p), ?_, ?_, ?_⟩
  · rw [hopening', ← hopening]
    exact h.opening
  · intro hcount
    have hfirst := h.first hcount
    rw [hopening, hinvoke] at hfirst
    rw [hopening', hinvoke']
    exact hfirst
  · rw [hopening', hinvoke', ← hopening, ← hinvoke]
    exact h.balance

/-- Run lemma. -/
theorem session_inv (hrevoke : srv.revoke_executor = true)
    (h : Recorded srv.machine srv.prog (srv.start now unix) c ms) (hturn : InTurn c ms)
    (hnotice : ∀ x ∈ ms, ∀ ip, renewal_of x.op = some (client_id, ip) → NoticesEnd client_id x)
    (hsplit : ms = pre ++ x :: post) :
    SessionInv client_id x.state pre (srv.stage_of x.task pre) := by
  refine Automaton.invariant_inTurn srv.prog_staged (.inl rfl) h hturn (SessionInv client_id)
    (.start client_id srv now unix) (fun _ _ _ _ => SessionInv.final) ?_ hsplit
  intro pre x post q q' hsplit hnext hInv
  exact hInv.step hrevoke (hnotice x (by simp [hsplit])) (goes_of_stages hnext)

/-- Between two sessions of the client that follow each other, the revoke hook is invoked once. -/
def SessionsRevoked (client_id : Str) (ms : List ServerMoment) : Prop :=
  ∀ pre x mid y post, ms = pre ++ x :: (mid ++ y :: post) → opens client_id x = true →
    opens client_id y = true → (∀ m ∈ mid, opens client_id m = false) →
      mid.countP (closes client_id) = 1

/-- In a sequential run in which no pulse of a client comes upon a lease that is over, every
    session that ends gets its revoke hook before the next one opens. -/
theorem revoked_between_sessions (srv : Server) (hrevoke : srv.revoke_executor = true)
    (now : Instant) (unix : Int64) (c : Config ops State Job) (ms : List ServerMoment)
    (h : Recorded srv.machine srv.prog (srv.start now unix) c ms) (hturn : InTurn c ms)
    (client_id : Str)
    (hroom : ∀ x ∈ ms, ∀ ip, renewal_of x.op = some (client_id, ip) →
      x.state.leases.HasRoom client_id)
    (hlive : ∀ x ∈ ms, ∀ ip, renewal_of x.op = some (client_id, ip) →
      ∀ l, x.state.leases.entry client_id = some l → l.live x.time = true) :
    SessionsRevoked client_id ms := by
  intro pre x mid y post hsplit hx hy hmid
  have hsplit' : ms = (pre ++ x :: mid) ++ y :: post := by simp [hsplit]
  have hInv := session_inv hrevoke h hturn
    (fun x hx ip hip => ⟨hroom x hx ip hip, hlive x hx ip hip⟩) hsplit'
  have hopening : (srv.stage_of y.task (pre ++ x :: mid)).opening client_id = true ∧
      (srv.stage_of y.task (pre ++ x :: mid)).to_invoke client_id = 0 := by
    obtain ⟨call, hcall, hnew⟩ := (Option.any_eq_true _ _).mp hy
    have hgranting : srv.stage_of y.task (pre ++ x :: mid) = .granting call :=
      (moment_goes (hsplit' ▸ h)).of_grant hcall
    rw [hgranting]
    exact ⟨hnew, rfl⟩
  have hcount := count_since_split (q := closes client_id) (l := pre) hx hmid
  have hbalance := hInv.balance _ hcount
  have hone := hInv.opening
  have hle := held_le_one client_id y.state
  rw [hopening.1, hopening.2] at hbalance
  rw [hopening.1] at hone
  simp only [Bool.toNat_true] at hbalance hone
  omega

/-- Client 1 pulses, leaves, and comes back. -/
def leave_and_return : List (Label Env Job) :=
  pulse_then_bye ++
  sample_task 4 1 (.Hello (sample_hello 1 1000 3)) 14 (sample_env 1000 3) ++
  sample_task 5 1 (.Response (sample_response 1 3)) 21 (sample_env 1000 0)

theorem revoked_between_sessions_left :
    ∃ c ms, record sample.machine sample.prog (init (sample.start 0 1000), []) leave_and_return =
        some (c, ms) ∧
      ms.countP (opens (sample_id 1).to_hex) = 2 ∧ SessionsRevoked (sample_id 1).to_hex ms := by
  have hrun : (record sample.machine sample.prog (init (sample.start 0 1000), [])
      leave_and_return).any (fun t =>
        decide (AllEnded t.1) && decide (t.2.Pairwise (fun x y => x.task ≤ y.task)) &&
        decide (∀ x ∈ t.2, (renewal_of x.op).isSome = true →
          x.state.leases.HasRoom (sample_id 1).to_hex ∧
            (x.state.leases.entry (sample_id 1).to_hex).all (fun l => l.live x.time) = true) &&
        decide (t.2.countP (opens (sample_id 1).to_hex) = 2)) = true := by
    decide +kernel
  obtain ⟨⟨c, ms⟩, ht, hcheck⟩ := (Option.any_eq_true _ _).mp hrun
  simp only [Bool.and_eq_true, decide_eq_true_iff] at hcheck
  obtain ⟨⟨⟨hend, hsorted⟩, hrenewals⟩, htwo⟩ := hcheck
  have hrec : Recorded sample.machine sample.prog (sample.start 0 1000) c ms :=
    record_sound (r := (c, ms)) .start ht
  have hnotice (x : ServerMoment) (hx : x ∈ ms) (ip : IpAddr)
      (hip : renewal_of x.op = some ((sample_id 1).to_hex, ip)) :=
    hrenewals x hx (by rw [hip]; rfl)
  refine ⟨c, ms, ht, htwo, revoked_between_sessions sample rfl 0 1000 c ms hrec
    (.of_ended hsorted hend) _ (fun x hx ip hip => (hnotice x hx ip hip).1) ?_⟩
  intro x hx ip hip l hl
  have hall := (hnotice x hx ip hip).2
  rwa [hl] at hall

/-- Client 1 pulses, and again when its lease is over and no scan has run. -/
def return_before_scan : List (Label Env Job) :=
  sample_task 0 1 (.Hello (sample_hello 1 1000 1)) 14 (sample_env 1000 1) ++
  sample_task 1 1 (.Response (sample_response 1 1)) 21 (sample_env 1000 0) ++
  sample_task 2 1 (.Hello (sample_hello 1 1000 2)) 14
    { sample_env 1000 2 with elapsed := Duration.from_secs 20 } ++
  sample_task 3 1 (.Response (sample_response 1 2)) 21 (sample_env 1000 0)

/-- Two sessions are opened, and no revoke hook is invoked. -/
theorem unreported_session :
    ∃ c ms, Recorded sample.machine sample.prog (sample.start 0 1000) c ms ∧ InTurn c ms ∧
      AllEnded c ∧ sample.revoke_executor = true ∧
      (∀ x ∈ ms, ∀ r ∈ renewal_of x.op, x.state.leases.HasRoom r.1) ∧
      ms.countP (opens (sample_id 1).to_hex) = 2 ∧ ms.countP (closes (sample_id 1).to_hex) = 0 ∧
      ¬ SessionsRevoked (sample_id 1).to_hex ms := by
  have hrun : (record sample.machine sample.prog (init (sample.start 0 1000), [])
      return_before_scan).any (fun t =>
        decide (AllEnded t.1) && decide (t.2.Pairwise (fun x y => x.task ≤ y.task)) &&
        decide (∀ x ∈ t.2, ∀ r ∈ renewal_of x.op, x.state.leases.HasRoom r.1) &&
        decide (t.2.countP (opens (sample_id 1).to_hex) = 2) &&
        decide (t.2.countP (closes (sample_id 1).to_hex) = 0) &&
        t.2[28]?.any (opens (sample_id 1).to_hex) &&
        (t.2.drop 29)[34]?.any (opens (sample_id 1).to_hex) &&
        decide (∀ m ∈ (t.2.drop 29).take 34, opens (sample_id 1).to_hex m = false)) = true := by
    decide +kernel
  obtain ⟨⟨c, ms⟩, ht, hcheck⟩ := (Option.any_eq_true _ _).mp hrun
  simp only [Bool.and_eq_true, decide_eq_true_iff] at hcheck
  obtain ⟨⟨⟨⟨⟨⟨⟨hend, hsorted⟩, hroom⟩, htwo⟩, hnone⟩, hx⟩, hy⟩, hmid⟩ := hcheck
  refine ⟨c, ms, record_sound (r := (c, ms)) .start ht, .of_ended hsorted hend, hend, rfl, hroom,
    htwo, hnone, ?_⟩
  intro hrevoked
  obtain ⟨x, hx, hopens⟩ := (Option.any_eq_true _ _).mp hx
  obtain ⟨y, hy, hopens'⟩ := (Option.any_eq_true _ _).mp hy
  have hsplit := take_cons_drop hx
  rw [take_cons_drop hy] at hsplit
  have hone := hrevoked _ _ _ _ _ hsplit hopens hopens' hmid
  have hle := ((List.take_sublist 34 _).trans (List.drop_sublist 29 ms)).countP_le
    (p := closes (sample_id 1).to_hex)
  omega

end runs

end Server

end SignedPulse
