import SignedPulse.Server.Shares

/-! # Clients do not affect each other

    Two sequential runs of the server, in which one client does the same and
    the others do as they like: the client fares the same in both
    (`client_independent`), but for what `unshared` leaves out of its events:
    how many other clients are on its IP, which its hooks are told, and why one
    of its nonces is refused, which makes a rejection a replay or not. In
    particular the same is decided about the client (`client_served_alike`).

    This rests on the nonces being apart. The store is keyed by nonce, so that
    one that is drawn again, for another client, takes the place of the first
    (`redrawn_nonce_refused`).
-/

namespace SignedPulse

namespace Server

open Twins

/-! ### The client's own packets -/

/-- The result has nothing in it from other clients. -/
def settled : Op → Bool
  | .nonce_validate .. | .nonce_consume .. | .nonce_purge_expired _ | .seen_purge_expired _
  | .leases_release _ | .leases_others_on_ip .. | .leases_take_expired => false
  | _ => true

/-- The events come to the same for the client, and nothing hinders it. -/
def SameFor (c : ClientId) (ev ev' : Event ops) : Prop :=
  unshared c ev = unshared c ev' ∧ Unhindered ev ∧ Unhindered ev'

/-- The programs come to the same for the client. -/
abbrev Parallel (c : ClientId) {α : Type} (p p' : ServerM α) : Prop :=
  Similar (I := ops) (Twin c) (SameFor c) Eq p p'

section parallel
variable {srv : Server} {c : ClientId} {α β : Type}

theorem result_of_unshared {o : Op} (ho : settled o = true) {r r' : o.Res}
    (h : unshared c ⟨o, r⟩ = unshared c ⟨o, r'⟩) : r = r' := by
  cases o
  case nonce_validate => cases ho
  case nonce_consume => cases ho
  case nonce_purge_expired => cases ho
  case seen_purge_expired => cases ho
  case leases_release => cases ho
  case leases_others_on_ip => cases ho
  case leases_take_expired => cases ho
  case status_update => rfl
  all_goals exact eq_of_heq (Event.mk.inj h).2

theorem parallel_call {o : Op} {f f' : o.Res → ServerM β} (hserves : Serves c o)
    (hsource : of_source o = false) (ho : settled o = true)
    (hf : ∀ r, Unhindered ⟨o, r⟩ → Parallel c (f r) (f' r)) :
    Parallel c (ServerM.perform o >>= f) (ServerM.perform o >>= f') := by
  refine Similar.perform_bind (.serves hserves hsource) fun r r' h => ?_
  rw [← result_of_unshared ho h.1]
  exact hf r h.2.1

/-- Areas in which a result is the client's own. -/
def own_areas : List Area := [.clock, .random, .signature, .status, .reply, .hook]

theorem parallel_of_touches {areas : List Area} {p : ServerM α} (hp : Touches areas p)
    (hareas : areas ⊆ own_areas) : Parallel c p p := by
  have hown {o : Op} (ho : o.area ∈ own_areas) :
      Serves c o ∧ of_source o = false ∧ settled o = true := by
    cases o <;> first | exact ⟨trivial, rfl, rfl⟩ | simp [Op.area, own_areas] at ho
  refine Similar.of_uses (P := fun o : Op => o.area ∈ areas) ?_ ?_ hp
  · intro o ho
    exact .serves (hown (hareas ho)).1 (hown (hareas ho)).2.1
  · intro o ho r r' h
    exact result_of_unshared (hown (hareas ho)).2.2 h.1

theorem note_rejected_parallel (replay replay' : Bool) :
    Parallel c (note_rejected replay) (note_rejected replay') := by
  unfold note_rejected
  refine Similar.perform_bind (.rejected replay replay') fun _ _ _ => ?_
  exact .call (.serves trivial rfl) fun _ _ _ => .pure rfl

theorem handle_hello_parallel {hello : Hello} (hello_id : hello.client_id = c) (peer : SocketAddr)
    (reply : ReplyMode) :
    Parallel c (srv.handle_hello hello peer reply) (srv.handle_hello hello peer reply) := by
  subst hello_id
  unfold handle_hello
  refine parallel_call trivial rfl rfl fun allowed _ => ?_
  split
  · exact note_rejected_parallel _ _
  split
  · exact parallel_call trivial rfl rfl fun _ _ => note_rejected_parallel _ _
  refine parallel_call trivial rfl rfl fun checked _ => ?_
  split
  · exact note_rejected_parallel _ _
  refine parallel_call trivial rfl rfl fun now _ => ?_
  split
  · exact note_rejected_parallel _ _
  refine parallel_call ⟨hello.hello_nonce.val, rfl⟩ rfl rfl fun fresh _ => ?_
  split
  · exact note_rejected_parallel _ _
  unfold issue_challenge
  refine parallel_call trivial rfl rfl fun _ _ => ?_
  refine parallel_call trivial rfl rfl fun nonce _ => ?_
  refine parallel_call rfl rfl rfl fun _ _ => ?_
  exact parallel_of_touches (srv.send_challenge_touches _ _ _ _ _) (by simp [own_areas])

/-- A nonce is granted in both runs, or in neither. -/
theorem granted_cases {r r' : Except ConsumeError NonceEntry}
    (h : NonceStore.granted r = NonceStore.granted r') :
    (∃ e e', r = .error e ∧ r' = .error e') ∨ ∃ entry, r = .ok entry ∧ r' = .ok entry := by
  cases r with
  | error e =>
    cases r' with
    | error e' => exact .inl ⟨e, e', rfl, rfl⟩
    | ok entry' => cases h
  | ok entry =>
    cases r' with
    | error e' => cases h
    | ok entry' =>
      obtain rfl : entry = entry' := Except.ok.inj h
      exact .inr ⟨entry, rfl, rfl⟩

theorem verify_and_consume_parallel
    (payload : Str → Str → Str → UInt32 → Int64 → Str → Bytes) (nonce : ByteVec CHALLENGE_NONCE_LEN)
    (interval_seconds : UInt32) (param : Option Bytes) (signature : ByteVec SIG_LEN)
    (peer : SocketAddr) :
    Parallel c (srv.verify_and_consume payload c nonce interval_seconds param signature peer)
      (srv.verify_and_consume payload c nonce interval_seconds param signature peer) := by
  have hrejected (replay replay' : Bool) :
      Parallel c (do note_rejected replay; return (none : Option Str))
        (do note_rejected replay'; return (none : Option Str)) :=
    (note_rejected_parallel replay replay').bind fun _ _ _ => .pure rfl
  unfold verify_and_consume
  dsimp only
  split
  · exact parallel_call trivial rfl rfl fun _ _ => hrejected _ _
  refine parallel_call trivial rfl rfl fun now _ => ?_
  refine Similar.perform_bind (.serves rfl rfl) fun r r' h => ?_
  obtain ⟨e, e', rfl, rfl⟩ | ⟨entry, rfl, rfl⟩ := granted_cases (eq_of_heq (Event.mk.inj h.1).2)
  · exact hrejected _ _
  refine parallel_call trivial rfl rfl fun checked _ => ?_
  split
  · exact hrejected _ _
  refine parallel_call trivial rfl rfl fun now _ => ?_
  refine Similar.perform_bind (.serves rfl rfl) fun r r' h => ?_
  obtain ⟨e, e', rfl, rfl⟩ | ⟨entry, rfl, rfl⟩ := granted_cases (eq_of_heq (Event.mk.inj h.1).2)
  · exact hrejected _ _
  · exact .pure rfl

theorem execute_parallel (x : Executor) (call : HookCall) (n n' : Nat) :
    Parallel c (execute x { call with ip_clients := n })
      (execute x { call with ip_clients := n' }) := by
  unfold execute
  refine Similar.perform_bind (.acquire x call n n') fun permit permit' h => ?_
  obtain rfl : permit = permit' := eq_of_heq (Event.mk.inj h.1).2
  split
  · exact .pure rfl
  refine Similar.perform_bind (.spawn x call n n') fun spawned spawned' h => ?_
  obtain rfl : spawned = spawned' := eq_of_heq (Event.mk.inj h.1).2
  split
  · exact .pure rfl
  refine Similar.perform_bind (.wait x call n n') fun outcome outcome' h => ?_
  obtain rfl : outcome = outcome' := eq_of_heq (Event.mk.inj h.1).2
  split <;> exact .pure rfl

theorem run_grant_parallel (name : Str) (call : HookCall) (hcall : call.client_id = c.to_hex)
    (n n' : Nat) : Parallel c (run_grant name { call with ip_clients := n })
      (run_grant name { call with ip_clients := n' }) := by
  unfold run_grant
  refine (execute_parallel .grant call n n').bind fun result _ h => ?_
  subst h
  split
  · exact .pure rfl
  unfold note_granted
  refine parallel_call (congrArg id_key hcall) rfl rfl fun _ _ => ?_
  refine parallel_call trivial rfl rfl fun at_unix _ => ?_
  exact .call (.serves trivial rfl) fun _ _ _ => .pure rfl

theorem run_revoke_parallel (name : Str) (call : HookCall) (n n' : Nat) :
    Parallel c (run_revoke name { call with ip_clients := n })
      (run_revoke name { call with ip_clients := n' }) := by
  unfold run_revoke
  refine (execute_parallel .revoke call n n').bind fun result _ h => ?_
  subst h
  split
  · exact .pure rfl
  unfold note_revoked
  refine parallel_call trivial rfl rfl fun at_unix _ => ?_
  exact .call (.serves trivial rfl) fun _ _ _ => .pure rfl

theorem decrypt_param_parallel (blob : Option Bytes) :
    Parallel c (srv.decrypt_param blob) (srv.decrypt_param blob) := by
  unfold decrypt_param
  split
  · exact .pure rfl
  · split
    · exact .pure rfl
    · exact (note_rejected_parallel false false).bind fun _ _ _ => .pure rfl

theorem response_verified_parallel {client_hex : Str} (hclient : client_hex = c.to_hex)
    (interval_seconds : UInt32) (name : Str) (param : Option Str) (peer : SocketAddr) :
    Parallel c (srv.response_verified client_hex interval_seconds name param peer)
      (srv.response_verified client_hex interval_seconds name param peer) := by
  subst hclient
  unfold response_verified note_pulse
  refine parallel_call trivial rfl rfl fun _ _ => ?_
  refine parallel_call trivial rfl rfl fun at_unix _ => ?_
  refine parallel_call trivial rfl rfl fun _ _ => ?_
  refine parallel_call rfl rfl rfl fun is_new _ => ?_
  have hcooldown : Parallel c (within_cooldown is_new c.to_hex)
    (within_cooldown is_new c.to_hex) := by
    unfold within_cooldown
    split
    · exact .pure rfl
    · exact parallel_call rfl rfl rfl fun skip _ => .pure rfl
  refine hcooldown.bind fun skip _ h => ?_
  subst h
  split
  · exact .pure rfl
  -- the others on the IP are counted, and go into the call
  refine Similar.perform_bind (.serves rfl rfl) fun n n' _ => ?_
  exact run_grant_parallel name ⟨_, _, _, _, _, _, 0⟩ rfl n n'

theorem handle_response_parallel {resp : Response} (hclient : resp.client_id = c)
    (peer : SocketAddr) :
    Parallel c (srv.handle_response resp peer) (srv.handle_response resp peer) := by
  subst hclient
  unfold handle_response
  refine (verify_and_consume_parallel _ _ _ _ _ _).bind fun verified _ h => ?_
  subst h
  split
  · exact .pure rfl
  refine (decrypt_param_parallel _).bind fun param _ h => ?_
  subst h
  split
  · exact .pure rfl
  · exact response_verified_parallel rfl _ _ _ _

theorem bye_verified_parallel {client_hex : Str} (hclient : client_hex = c.to_hex)
    (bye_param : Option Str) :
    Parallel c (srv.bye_verified client_hex bye_param) (srv.bye_verified client_hex bye_param) := by
  unfold bye_verified
  refine Similar.perform_bind (.serves hclient rfl) fun r r' h => ?_
  have hreleased : r.map (fun x => (x.1, 0)) = r'.map fun x => (x.1, 0) :=
    eq_of_heq (Event.mk.inj h.1).2
  cases r with
  | none =>
    cases r' with
    | none => exact .pure rfl
    | some x' => cases hreleased
  | some x =>
    cases r' with
    | none => cases hreleased
    | some x' =>
      obtain ⟨e, n⟩ := x
      obtain ⟨e', n'⟩ := x'
      obtain rfl : e = e' := congrArg Prod.fst (Option.some.inj hreleased)
      dsimp only
      split
      · exact .pure rfl
      · exact run_revoke_parallel _ (revoke_call e (bye_param.or e.param) .bye 0) n n'

theorem handle_bye_parallel {bye : Bye} (hclient : bye.client_id = c) (peer : SocketAddr) :
    Parallel c (srv.handle_bye bye peer) (srv.handle_bye bye peer) := by
  subst hclient
  unfold handle_bye
  refine (verify_and_consume_parallel _ _ _ _ _ _).bind fun verified _ h => ?_
  subst h
  split
  · exact .pure rfl
  refine (decrypt_param_parallel _).bind fun bye_param _ h => ?_
  subst h
  split
  · exact .pure rfl
  · exact bye_verified_parallel rfl _

theorem handle_datagram_parallel {data : Bytes} {packet : Packet} {reply : ReplyMode}
    (hpacket : srv.packet_of data = some (packet, reply)) (hclient : packet.client_id = c)
    (peer : SocketAddr) :
    Parallel c (srv.handle_datagram data peer) (srv.handle_datagram data peer) := by
  unfold packet_of at hpacket
  unfold handle_datagram
  split at hpacket
  · rename_i packet_bytes reply' hunwrap
    rw [hunwrap]
    dsimp only
    cases hdecode : Packet.decode packet_bytes with
    | error e =>
      rw [hdecode] at hpacket
      cases hpacket
    | ok packet' =>
      rw [hdecode] at hpacket
      obtain ⟨rfl, -⟩ := Prod.mk.inj (Option.some.inj hpacket)
      cases packet' with
      | Hello hello => exact handle_hello_parallel hclient peer reply'
      | Challenge challenge => exact note_rejected_parallel false false
      | Response resp => exact handle_response_parallel hclient peer
      | Bye bye => exact handle_bye_parallel hclient peer
  · cases hpacket

/-- The gates are open, so that the handler takes its turn. -/
theorem receive_parallel {data : Bytes} {packet : Packet} {reply : ReplyMode}
    (hpacket : srv.packet_of data = some (packet, reply)) (hclient : packet.client_id = c)
    (peer : SocketAddr) : Parallel c (srv.receive data peer) (srv.receive data peer) := by
  unfold receive
  split
  · exact .pure rfl
  refine parallel_call trivial rfl rfl fun blocked hblocked => ?_
  obtain rfl : blocked = false := hblocked
  refine parallel_call trivial rfl rfl fun attacked hattacked => ?_
  obtain rfl : attacked = false := hattacked
  refine parallel_call trivial rfl rfl fun _ _ => ?_
  unfold with_permit
  refine parallel_call trivial rfl rfl fun permit _ => ?_
  split
  · exact .pure rfl
  refine (handle_datagram_parallel hpacket hclient peer).bind fun _ _ _ => ?_
  exact .call (.serves trivial rfl) fun _ _ _ => .pure rfl

end parallel

/-! ### The packets of others -/

/-- The turn is of concern to the client: its packet names it, or it is a cleanup tick. -/
def concerns (srv : Server) (c : ClientId) : Job → Bool
  | .datagram data _ => (srv.packet_of data).any fun x => x.1.client_id = c
  | .cleanup => true

section others
variable {srv : Server} {c : ClientId} {o : Op} {e : Env} {s s' : State} {job : Job}
  {xs : List (Step ops Env State)}

theorem share_nameless (h : o.area ∈ nameless) :
    share c (srv.perform o e s).2 = share c s := by
  cases o <;> first | rfl | simp [Op.area, nameless] at h

theorem inflight_of_touches {α : Type} {areas : List Area} {p : ServerM α} {n : Nat}
    (hp : Touches areas p) (hareas : Area.inflight ∉ areas) (hs : s.inflight = n) :
    Program.wp (serving srv.machine) (fun _ t => t.inflight = n) p s := by
  refine Program.wp_of_uses (I := ops) (P := fun o : Op => o.area ∈ areas) ?_ hp hs
  rintro t o _ _ ho ht ⟨e, rfl, rfl⟩
  have harea : o.area ≠ .inflight := fun h => hareas (h ▸ ho)
  exact ⟨trivial, (perform_inflight harea).trans ht⟩

/-- A turn gives back the permit that it takes. -/
theorem inflight_of_turn (h : Performs srv.machine (srv.prog job) s xs () s') :
    s'.inflight = s.inflight := by
  refine h.sound (Q := fun _ t => t.inflight = s.inflight) ?_
  cases job with
  | datagram data peer =>
    -- one more while the handler runs
    refine wp_receive_held (fun t : State => t.inflight = s.inflight)
      (fun t => t.inflight = s.inflight + 1) (fun t => t.inflight = s.inflight + 1) _
      ?_ (fun _ ht => ht) ?_ ?_ ?_ rfl
    · rintro t o _ _ ho ht ⟨e, rfl, rfl⟩
      have harea : o.area ≠ .inflight := fun h => by simp [h] at ho
      exact ⟨trivial, (perform_inflight harea).trans ht⟩
    · rintro t _ _ ht ⟨e, rfl, rfl⟩
      refine ⟨trivial, ?_⟩
      show if srv.has_room (tick t e) = true then
          (if srv.has_room (tick t e) then t.inflight + 1 else t.inflight) = s.inflight + 1
        else (if srv.has_room (tick t e) then t.inflight + 1 else t.inflight) = s.inflight
      split
      · rw [ht]
      · exact ht
    · intro t ht
      refine wp_handle_datagram ht (inflight_of_touches (note_faulty_touches _) (by decide) ht)
        (inflight_of_touches (note_rejected_touches _) (by decide) ht) ?_ ?_ ?_
      · intro hello reply _
        exact inflight_of_touches (srv.handle_hello_touches _ _ _) (by decide) ht
      · intro resp reply _
        exact inflight_of_touches (srv.handle_response_touches _ _) (by decide) ht
      · intro bye reply _
        exact inflight_of_touches (srv.handle_bye_touches _ _) (by decide) ht
    · rintro t _ _ ht ⟨e, rfl, rfl⟩
      refine ⟨trivial, ?_⟩
      show t.inflight - 1 = s.inflight
      omega
  | cleanup =>
    refine wp_cleanup (fun t : State => t.inflight = s.inflight) _ ?_ ?_ rfl
    · rintro t o _ _ ho ht ⟨e, rfl, rfl⟩
      have harea : o.area ≠ .inflight := by cases o <;> simp [Op.area, purges] at ho ⊢
      exact ⟨trivial, (perform_inflight harea).trans ht⟩
    · exact fun t ht => inflight_of_touches srv.run_lease_scan_touches (by decide) ht

/-- A turn that is of no concern to the client leaves its share as it is. -/
theorem agree_of_other (hconcerns : srv.concerns c job = false)
    (h : Performs srv.machine (srv.prog job) s xs () s')
    (hapart : ∀ x ∈ xs, Apart c x.before x.event.op) : Agree c s s' := by
  refine ⟨(h.kept ?_).symm, (inflight_of_turn h).symm⟩
  cases job with
  | cleanup => cases hconcerns
  | datagram data peer =>
    intro x hx
    cases hpacket : srv.packet_of data with
    | none => exact share_nameless (h.meets (receive_nameless hpacket) x hx)
    | some y =>
      have hother : y.1.client_id ≠ c := by
        simp only [concerns, hpacket] at hconcerns
        exact of_decide_eq_false hconcerns
      exact share_foreign hother (h.meets (receive_about hpacket) x hx).1 (hapart x hx)

end others

/-! ### Cleanup ticks -/

/-- A cleanup tick up to the moment that it has the expired leases. -/
def sweep : ServerM (List (ExpiredLease × Nat)) := do
  let now ← ServerM.now_unix
  let _ ← ServerM.nonce_purge_expired now
  let _ ← ServerM.seen_purge_expired now
  ServerM.rate_limiter_purge_stale
  ServerM.blacklist_purge_stale
  ServerM.active_purge_stale
  ServerM.cooldown_purge_stale
  ServerM.leases_take_expired

/-- And from there. -/
def revoke_expired (srv : Server) (expired : List (ExpiredLease × Nat)) : ServerM Unit :=
  if !srv.revoke_executor then return ()
  else
    Program.each (fun x =>
      run_revoke (srv.display_name x.1.client_id) (revoke_call x.1 x.1.param .expired x.2)) expired

theorem cleanup_eq (srv : Server) : srv.cleanup = sweep >>= srv.revoke_expired := rfl

/-- The leases of the client among those that expired. -/
def expired_of (c : ClientId) (expired : List (ExpiredLease × Nat)) : List (ExpiredLease × Nat) :=
  (expired.filter fun x => x.1.client_id = c.to_hex).map fun x => (x.1, 0)

section sweep
variable {srv : Server} {c : ClientId}

theorem sweep_parallel : Similar (I := ops) (Twin c) (SameFor c)
    (fun l l' => expired_of c l = expired_of c l') sweep sweep := by
  unfold sweep
  refine Similar.perform_bind (.sweep (.inl rfl)) fun now now' h => ?_
  obtain rfl : now = now' := result_of_unshared rfl h.1
  refine Similar.perform_bind (.sweep (.inl rfl)) fun _ _ _ => ?_
  refine Similar.perform_bind (.sweep (.inl rfl)) fun _ _ _ => ?_
  refine Similar.perform_bind (.sweep (.inl rfl)) fun _ _ _ => ?_
  refine Similar.perform_bind (.sweep (.inl rfl)) fun _ _ _ => ?_
  refine Similar.perform_bind (.sweep (.inl rfl)) fun _ _ _ => ?_
  refine Similar.perform_bind (.sweep (.inl rfl)) fun _ _ _ => ?_
  exact .call (.sweep (.inr rfl)) fun l l' h => .pure (eq_of_heq (Event.mk.inj h.1).2)

/-- What comes after the sweep is about hooks, and leaves the share as it is. -/
theorem revoke_expired_touches (expired : List (ExpiredLease × Nat)) :
    Touches [.hook, .clock, .status] (srv.revoke_expired expired) := by
  unfold revoke_expired
  split
  · exact touches_pure
  · exact touches_each (fun x => run_revoke_touches _ _) expired

/-- The call, if it is for the client. -/
def own_call (c : ClientId) (call : HookCall) : Option HookCall :=
  if call.client_id = c.to_hex then some { call with ip_clients := 0 } else none

/-- The revocations that the events ask for, for the client. -/
def revocations (c : ClientId) (evs : List (Event ops)) : List HookCall :=
  evs.filterMap fun ev =>
    match ev.op with
    | .hook_acquire .revoke call => own_call c call
    | _ => none

/-- A revocation for each of these leases. -/
def calls (expired : List (ExpiredLease × Nat)) : List HookCall :=
  expired.map fun x => revoke_call x.1 x.1.param .expired x.2

theorem revocations_snoc {evs : List (Event ops)} (o : Op) (r : o.Res)
    (h : ∀ call, o ≠ .hook_acquire .revoke call) :
    revocations c (evs ++ [⟨o, r⟩]) = revocations c evs := by
  unfold revocations
  rw [List.filterMap_append]
  cases o
  case hook_acquire x call =>
    cases x with
    | grant => simp
    | revoke => exact absurd rfl (h call)
  all_goals simp

theorem execute_revocations (c : ClientId) (call : HookCall) {h : List (Event ops)} :
    Program.wp (Program.histories fun _ _ => True)
      (fun _ h' => revocations c h' = revocations c h ++ (own_call c call).toList)
      (execute .revoke call) h := by
  unfold execute
  refine Program.wp_histories_perform_bind.mpr fun permit => ⟨trivial, ?_⟩
  have hacquired : revocations c (h ++ [⟨.hook_acquire .revoke call, permit⟩]) =
      revocations c h ++ (own_call c call).toList := by
    unfold revocations
    rw [List.filterMap_append]
    cases hown : own_call c call <;> simp [hown]
  split
  · exact hacquired
  refine Program.wp_histories_perform_bind.mpr fun spawned => ⟨trivial, ?_⟩
  have hspawned := (revocations_snoc (.hook_spawn .revoke call) spawned nofun).trans hacquired
  split
  · exact hspawned
  refine Program.wp_histories_perform_bind.mpr fun outcome => ⟨trivial, ?_⟩
  have hwaited := (revocations_snoc (.hook_wait .revoke call) outcome nofun).trans hspawned
  split <;> exact hwaited

theorem run_revoke_revocations (c : ClientId) (name : Str) (call : HookCall)
    {h : List (Event ops)} :
    Program.wp (Program.histories fun _ _ => True)
      (fun _ h' => revocations c h' = revocations c h ++ (own_call c call).toList)
      (run_revoke name call) h := by
  unfold run_revoke
  refine Program.wp_seq (execute_revocations c call) fun result h' hcalls => ?_
  split
  · exact hcalls
  unfold note_revoked
  refine Program.wp_histories_perform_bind.mpr fun at_unix => ⟨trivial, ?_⟩
  refine Program.wp_histories_perform.mpr fun _ => ⟨trivial, ?_⟩
  have hclock := (revocations_snoc .now_unix at_unix nofun).trans hcalls
  exact (revocations_snoc (.status_update _) () nofun).trans hclock

/-- A revocation is asked for, for each lease of the client that expired. -/
theorem revoke_expired_revocations (expired : List (ExpiredLease × Nat)) :
    Program.wp (Program.histories fun _ _ => True)
      (fun _ h => revocations c h =
        if srv.revoke_executor then calls (expired_of c expired) else [])
      (srv.revoke_expired expired) [] := by
  unfold revoke_expired
  cases srv.revoke_executor with
  | false => rfl
  | true =>
    refine Program.wp_mono ?_ (Program.wp_each
      (fun l h => revocations c h ++ calls (expired_of c l) = calls (expired_of c expired)) ?_ rfl)
    · intro _ h hcalls
      exact (List.append_nil _).symm.trans hcalls
    · intro x xs h hcalls
      refine Program.wp_mono (fun _ h' hcalls' => ?_) (run_revoke_revocations c _ _)
      rw [hcalls', ← hcalls, List.append_assoc]
      congr 1
      unfold calls expired_of own_call
      by_cases hown : x.1.client_id = c.to_hex <;> simp [hown, revoke_call]

theorem sweep_touches : Touches
    [.clock, .nonces, .cache, .rate, .blacklist, .active, .cooldown, .leases] sweep := by
  unfold sweep
  refine touches_call (by simp [Op.area]) fun _ => ?_
  refine touches_call (by simp [Op.area]) fun _ => ?_
  refine touches_call (by simp [Op.area]) fun _ => ?_
  refine touches_call (by simp [Op.area]) fun _ => ?_
  refine touches_call (by simp [Op.area]) fun _ => ?_
  refine touches_call (by simp [Op.area]) fun _ => ?_
  refine touches_call (by simp [Op.area]) fun _ => ?_
  exact touches_perform (by simp [Op.area])

variable {s s' : State} {xs : List (Step ops Env State)}

/-- After the sweep, a hook comes first. -/
theorem revoke_expired_starts {expired : List (ExpiredLease × Nat)}
    (h : Performs srv.machine (srv.revoke_expired expired) s xs () s') :
    xs.takeWhile (fun x => x.event.op.area ≠ .hook) = [] := by
  unfold revoke_expired at h
  split at h
  · cases h
    rfl
  · cases expired with
    | nil =>
      cases h
      rfl
    | cons x l =>
      cases h with
      | call e h => rfl

end sweep

/-! ### Two runs -/

/-- The steps of a turn that are taken for the client: of a cleanup tick, those up to the first
    hook. -/
def own_steps (t : Turn ops Env State Job) : List (Step ops Env State) :=
  match t.job with
  | .datagram .. => t.steps
  | .cleanup => t.steps.takeWhile fun x => x.event.op.area ≠ .hook

/-- What comes of a turn for the client: what was done for it, and which revocations were asked
    for. -/
def fared (c : ClientId) (t : Turn ops Env State Job) : List (Event ops) × List HookCall :=
  ((own_steps t).map fun x => unshared c x.event, revocations c (t.steps.map Step.event))

/-- The same job, with the same input at each step. -/
structure Alike (srv : Server) (t t' : Turn ops Env State Job) : Prop where
  job : t.job = t'.job
  inputs : ∀ (i : Nat) x x', (own_steps t)[i]? = some x → (own_steps t')[i]? = some x' →
    srv.input x.env x.before = srv.input x'.env x'.before

/-- No nonce of the client is drawn again for another client, its lease finds room, and the gates
    let its packets through. -/
structure LeftAlone (srv : Server) (c : ClientId) (t : Turn ops Env State Job) : Prop where
  apart : ∀ x ∈ t.steps, Apart c x.before x.event.op
  unhindered : srv.concerns c t.job = true → ∀ x ∈ t.steps, Unhindered x.event

section turns
variable {srv : Server} {c : ClientId} {s s' t t' : State} {xs xs' : List (Step ops Env State)}

theorem agree_equivalence (c : ClientId) : Equivalence (Agree c) where
  refl _ := ⟨rfl, rfl⟩
  symm h := ⟨h.1.symm, h.2.symm⟩
  trans h h' := ⟨h.1.trans h'.1, h.2.trans h'.2⟩

/-- Programs that come to the same for the client do the same for it. -/
theorem twins_of_parallel {α : Type} {R : α → α → Prop} {p p' : ServerM α} {a b : α}
    (hp : Similar (I := ops) (Twin c) (SameFor c) R p p') (h : Performs srv.machine p s xs a t)
    (h' : Performs srv.machine p' s' xs' b t') (hagree : Agree c s s')
    (hinputs : ∀ (i : Nat) x x', xs[i]? = some x → xs'[i]? = some x' →
      srv.input x.env x.before = srv.input x'.env x'.before)
    (hxs : ∀ x ∈ xs, Apart c x.before x.event.op ∧ Unhindered x.event)
    (hxs' : ∀ x ∈ xs', Apart c x.before x.event.op ∧ Unhindered x.event) :
    xs.map (fun x => unshared c x.event) = xs'.map (fun x => unshared c x.event) ∧ R a b ∧
      Agree c t t' := by
  let M (x x' : Step ops Env State) : Prop :=
    srv.input x.env x.before = srv.input x'.env x'.before ∧
    (Apart c x.before x.event.op ∧ Unhindered x.event) ∧
    (Apart c x'.before x'.event.op ∧ Unhindered x'.event)
  have hstep : ∀ o o' e e' s s', Twin c o o' → Agree c s s' →
      M (taken srv.machine o e s) (taken srv.machine o' e' s') →
      SameFor c (taken srv.machine o e s).event (taken srv.machine o' e' s').event ∧
        Agree c (srv.machine.perform o e s).2 (srv.machine.perform o' e' s').2 := by
    rintro o o' e e' s s' htwin hagree ⟨hinput, ⟨hapart, hfree⟩, hapart', hfree'⟩
    refine ⟨⟨result_twins htwin hagree hinput hfree hfree', hfree, hfree'⟩, ?_⟩
    exact ⟨share_twins htwin hagree hinput hapart hapart', inflight_twins htwin hagree⟩
  obtain ⟨hlike, hR, hend⟩ := Performs.twins hstep hp h h' hagree fun i x x' hx hx' =>
    ⟨hinputs i x x' hx hx', hxs x (List.mem_of_getElem? hx), hxs' x' (List.mem_of_getElem? hx')⟩
  refine ⟨?_, hR, hend⟩
  rw [← List.forall₂_eq_eq_eq, List.forall₂_map_left_iff, List.forall₂_map_right_iff]
  exact hlike.imp fun x x' hmatched => hmatched.1

/-- The revocations can be told from what is left of the events. -/
theorem revocations_unshared (evs : List (Event ops)) :
    revocations c (evs.map (unshared c)) = revocations c evs := by
  unfold revocations
  rw [List.filterMap_map]
  congr 1
  funext ev
  obtain ⟨o, r⟩ := ev
  cases o
  case status_update u => cases u <;> rfl
  case hook_acquire x call => cases x <;> rfl
  all_goals rfl

theorem revocations_of_steps
    (h : xs.map (fun x => unshared c x.event) = xs'.map (fun x => unshared c x.event)) :
    revocations c (xs.map Step.event) = revocations c (xs'.map Step.event) := by
  have hmap (xs : List (Step ops Env State)) :
      (xs.map Step.event).map (unshared c) = xs.map fun x => unshared c x.event := List.map_map
  rw [← revocations_unshared, hmap, h, ← hmap, revocations_unshared]

theorem fared_datagram {data : Bytes} {peer : SocketAddr}
    (hconcerns : srv.concerns c (.datagram data peer) = true) (hagree : Agree c s s')
    (h : Performs srv.machine (srv.receive data peer) s xs () t)
    (h' : Performs srv.machine (srv.receive data peer) s' xs' () t')
    (hinputs : ∀ (i : Nat) x x', xs[i]? = some x → xs'[i]? = some x' →
      srv.input x.env x.before = srv.input x'.env x'.before)
    (hxs : ∀ x ∈ xs, Apart c x.before x.event.op ∧ Unhindered x.event)
    (hxs' : ∀ x ∈ xs', Apart c x.before x.event.op ∧ Unhindered x.event) :
    fared c ⟨.datagram data peer, xs⟩ = fared c ⟨.datagram data peer, xs'⟩ ∧ Agree c t t' := by
  obtain ⟨⟨packet, reply⟩, hpacket, hclient⟩ := (Option.any_eq_true _ _).mp hconcerns
  obtain ⟨hevents, -, hend⟩ := twins_of_parallel
    (receive_parallel hpacket (of_decide_eq_true hclient) peer) h h' hagree hinputs hxs hxs'
  exact ⟨Prod.ext hevents (revocations_of_steps hevents), hend⟩

/-- A cleanup tick is a sweep, and then the hooks. -/
theorem cleanup_split (h : Performs srv.machine srv.cleanup s xs () t) :
    ∃ ys zs expired u, xs = ys ++ zs ∧ own_steps ⟨.cleanup, xs⟩ = ys ∧
      Performs srv.machine sweep s ys expired u ∧ Agree c u t ∧
      revocations c (zs.map Step.event) =
        if srv.revoke_executor then calls (expired_of c expired) else [] := by
  rw [cleanup_eq] at h
  obtain ⟨ys, zs, expired, u, rfl, hsweep, hrest⟩ := h.split
  refine ⟨ys, zs, expired, u, rfl, ?_, hsweep, ⟨?_, ?_⟩, ?_⟩
  · have hquiet : ∀ x ∈ ys, (fun x : Step ops Env State => x.event.op.area ≠ .hook) x := by
      intro x hx hhook
      have harea := hsweep.meets (sweep_touches.histories (P := fun _ ev =>
        ev.op.area ∈ [Area.clock, .nonces, .cache, .rate, .blacklist, .active, .cooldown, .leases])
        (fun _ _ h => h) (h := [])) x hx
      rw [hhook] at harea
      simp at harea
    unfold own_steps
    dsimp only
    rw [List.takeWhile_append_of_pos (by simpa using hquiet), revoke_expired_starts hrest,
      List.append_nil]
  · refine (hrest.kept fun x hx => ?_).symm
    have harea := hrest.meets ((revoke_expired_touches expired).histories
      (P := fun _ ev => ev.op.area ∈ [Area.hook, .clock, .status]) (fun _ _ h => h) (h := [])) x hx
    have hareas : [Area.hook, .clock, .status] ⊆ nameless := by simp [nameless]
    exact share_nameless (hareas harea)
  · have hinflight : Program.wp (serving srv.machine) (fun _ t => t.inflight = u.inflight)
        (srv.revoke_expired expired) u :=
      inflight_of_touches (revoke_expired_touches expired) (by decide) rfl
    exact (hrest.sound hinflight).symm
  · exact hrest.yields.of_histories (revoke_expired_revocations expired)

theorem fared_cleanup (hagree : Agree c s s') (h : Performs srv.machine srv.cleanup s xs () t)
    (h' : Performs srv.machine srv.cleanup s' xs' () t')
    (hinputs : ∀ (i : Nat) x x', (own_steps ⟨.cleanup, xs⟩)[i]? = some x →
      (own_steps ⟨.cleanup, xs'⟩)[i]? = some x' →
      srv.input x.env x.before = srv.input x'.env x'.before)
    (hxs : ∀ x ∈ xs, Apart c x.before x.event.op ∧ Unhindered x.event)
    (hxs' : ∀ x ∈ xs', Apart c x.before x.event.op ∧ Unhindered x.event) :
    fared c ⟨.cleanup, xs⟩ = fared c ⟨.cleanup, xs'⟩ ∧ Agree c t t' := by
  obtain ⟨ys, zs, expired, u, rfl, hown, hsweep, hrest, hcalls⟩ := cleanup_split (c := c) h
  obtain ⟨ys', zs', expired', u', rfl, hown', hsweep', hrest', hcalls'⟩ := cleanup_split (c := c) h'
  rw [hown, hown'] at hinputs
  obtain ⟨hevents, hexpired, hend⟩ := twins_of_parallel sweep_parallel hsweep hsweep' hagree hinputs
    (fun x hx => hxs x (List.mem_append_left _ hx)) (fun x hx => hxs' x (List.mem_append_left _ hx))
  have hrevocations : revocations c ((ys ++ zs).map Step.event) =
      revocations c ((ys' ++ zs').map Step.event) := by
    have hsplit (ys zs : List (Step ops Env State)) : revocations c ((ys ++ zs).map Step.event) =
        revocations c (ys.map Step.event) ++ revocations c (zs.map Step.event) := by
      unfold revocations
      rw [List.map_append, List.filterMap_append]
    rw [hsplit, hsplit, revocations_of_steps hevents, hcalls, hcalls', hexpired]
  refine ⟨Prod.ext ?_ hrevocations, ?_⟩
  · show List.map _ (own_steps _) = List.map _ (own_steps _)
    rw [hown, hown', hevents]
  · exact (agree_equivalence c).trans ((agree_equivalence c).symm hrest)
      ((agree_equivalence c).trans hend hrest')

theorem fared_alike {j j' : Job} (hconcerns : srv.concerns c j = true)
    (hxs : srv.LeftAlone c ⟨j, xs⟩) (hxs' : srv.LeftAlone c ⟨j', xs'⟩)
    (halike : srv.Alike ⟨j, xs⟩ ⟨j', xs'⟩) (hagree : Agree c s s')
    (h : Performs srv.machine (srv.prog j) s xs () t)
    (h' : Performs srv.machine (srv.prog j') s' xs' () t') :
    fared c ⟨j, xs⟩ = fared c ⟨j', xs'⟩ ∧ Agree c t t' := by
  obtain ⟨hjob, hinputs⟩ := halike
  obtain rfl : j = j' := hjob
  have hsteps : ∀ x ∈ xs, Apart c x.before x.event.op ∧ Unhindered x.event :=
    fun x hx => ⟨hxs.apart x hx, hxs.unhindered hconcerns x hx⟩
  have hsteps' : ∀ x ∈ xs', Apart c x.before x.event.op ∧ Unhindered x.event :=
    fun x hx => ⟨hxs'.apart x hx, hxs'.unhindered hconcerns x hx⟩
  cases j with
  | datagram data peer => exact fared_datagram hconcerns hagree h h' hinputs hsteps hsteps'
  | cleanup => exact fared_cleanup hagree h h' hinputs hsteps hsteps'

end turns

/-- Two sequential runs, in which the packets that name a client and the cleanup ticks are the same,
    come at the same times and find the same permits. Whatever the other packets are in either run,
    the client fares the same in both: the tasks do the same for it, with the same results, and it
    ends with the same lease. Not compared are the `ip_clients` of its hooks, and the replay flag of
    its rejections with the reason for it (`unshared`). -/
theorem client_independent (srv : Server) (c : ClientId) (now now' : Instant) (unix unix' : Int64)
    (ts ts' : List (Turn ops Env State Job)) (s s' : State)
    (h : Served srv.machine srv.prog (srv.start now unix) ts s)
    (h' : Served srv.machine srv.prog (srv.start now' unix') ts' s')
    (halike : List.Forall₂ srv.Alike (concerned (srv.concerns c) ts)
      (concerned (srv.concerns c) ts'))
    (hfree : ∀ x ∈ ts, srv.LeftAlone c x) (hfree' : ∀ x ∈ ts', srv.LeftAlone c x) :
    (concerned (srv.concerns c) ts).map (fared c) = (concerned (srv.concerns c) ts').map (fared c) ∧
      s.leases.entry c.to_hex = s'.leases.entry c.to_hex := by
  have hstart : Agree c (srv.start now unix) (srv.start now' unix') := ⟨rfl, rfl⟩
  obtain ⟨hfared, hend⟩ := Served.twins (agree_equivalence c) (fared c)
    (fun _ _ _ _ hconcerns hleft hj => agree_of_other hconcerns hj hleft.apart)
    (fun _ _ _ _ _ _ _ _ hconcerns hleft hleft' hlike hagree hj hj' =>
      fared_alike hconcerns hleft hleft' hlike hagree hj hj')
    hstart h h' halike hfree hfree'
  exact ⟨hfared, congrArg Share.lease hend.1⟩

/-! ### What is decided about the client -/

/-- A packet is accepted or rejected, a session is new or not, its grant is skipped or not, a hook
    is called. -/
inductive Decision where
  | rejected
  | hello_accepted
  | response_accepted (is_new : Bool)
  | cooldown (skip : Bool)
  | bye_accepted
  | hook (x : Executor) (call : HookCall)

/-- The decision that the event is about, if any. The `ip_clients` of a hook are left out. -/
def decision : Event ops → Option Decision
  | ⟨.status_update (.rejected _), _⟩ => some .rejected
  | ⟨.status_update .hello_accepted, _⟩ => some .hello_accepted
  | ⟨.leases_renew .., is_new⟩ => some (.response_accepted is_new)
  | ⟨.in_cooldown _, skip⟩ => some (.cooldown skip)
  | ⟨.leases_release _, _⟩ => some .bye_accepted
  | ⟨.hook_acquire x call, _⟩ => some (.hook x { call with ip_clients := 0 })
  | _ => none

/-- What is decided about the client in a turn. A cleanup tick only calls hooks for it. -/
def decisions (c : ClientId) (t : Turn ops Env State Job) : List Decision :=
  match t.job with
  | .datagram .. => t.steps.filterMap fun x => decision x.event
  | .cleanup => (revocations c (t.steps.map Step.event)).map (.hook .revoke)

/-- The operation does not mint, for another client, a nonce that the client has an entry for. -/
def MintsApart (c : ClientId) (s : State) : Op → Prop
  | .nonce_insert nonce client_id .. =>
    client_id ≠ c.to_hex → NonceStore.owned c.to_hex s.nonce_store nonce = none
  | _ => True

/-- The lease table has room for the client, and the gates let its packets through. -/
structure LetThrough (srv : Server) (c : ClientId) (t : Turn ops Env State Job) : Prop where
  room : ∀ x ∈ t.steps, x.before.leases.HasRoom c.to_hex
  unhindered : srv.concerns c t.job = true → ∀ x ∈ t.steps, Unhindered x.event

section decisions
variable {srv : Server} {c : ClientId}

/-- No decision is in what is left out of an event. -/
theorem decision_unshared (ev : Event ops) : decision (unshared c ev) = decision ev := by
  obtain ⟨o, r⟩ := ev
  cases o
  case status_update u => cases u <;> rfl
  all_goals rfl

theorem decisions_of_fared {t t' : Turn ops Env State Job} (hjob : t.job = t'.job)
    (h : fared c t = fared c t') : decisions c t = decisions c t' := by
  obtain ⟨j, xs⟩ := t
  obtain ⟨j', xs'⟩ := t'
  obtain rfl : j = j' := hjob
  obtain ⟨hevents, hcalls⟩ := Prod.mk.inj h
  cases j with
  | cleanup => exact congrArg (List.map (Decision.hook .revoke)) hcalls
  | datagram data peer =>
    have hread (xs : List (Step ops Env State)) : xs.filterMap (fun x => decision x.event) =
        (xs.map fun x => unshared c x.event).filterMap decision := by
      rw [List.filterMap_map]
      exact List.filterMap_congr fun x _ => (decision_unshared x.event).symm
    show xs.filterMap (fun x => decision x.event) = xs'.filterMap fun x => decision x.event
    rw [hread, hread]
    exact congrArg (List.filterMap decision) hevents

theorem left_alone_of_let_through {t : Turn ops Env State Job} (h : srv.LetThrough c t)
    (hmints : ∀ x ∈ t.steps, MintsApart c x.before x.event.op) : srv.LeftAlone c t := by
  refine ⟨fun x hx => ?_, h.unhindered⟩
  have hmint := hmints x hx
  have hroom := h.room x hx
  cases hop : x.event.op
  case nonce_insert => rwa [hop] at hmint
  case leases_renew =>
    intro hown
    rwa [hown]
  all_goals exact trivial

end decisions

/-- Two sequential runs, in which the packets that name a client and the cleanup ticks are the same,
    and so are the times, the nonces drawn and the executors at their steps (`Alike`). No nonce is
    minted for another client while the client has an entry for it. Then the same is decided about
    the client in both runs, whatever the other packets are, and it ends with the same lease. -/
theorem client_served_alike (srv : Server) (c : ClientId) (now now' : Instant) (unix unix' : Int64)
    (ts ts' : List (Turn ops Env State Job)) (s s' : State)
    (h : Served srv.machine srv.prog (srv.start now unix) ts s)
    (h' : Served srv.machine srv.prog (srv.start now' unix') ts' s')
    (halike : List.Forall₂ srv.Alike (concerned (srv.concerns c) ts)
      (concerned (srv.concerns c) ts'))
    (hthrough : ∀ t ∈ ts, srv.LetThrough c t) (hthrough' : ∀ t ∈ ts', srv.LetThrough c t)
    (hmints : ∀ t ∈ ts, ∀ x ∈ t.steps, MintsApart c x.before x.event.op)
    (hmints' : ∀ t ∈ ts', ∀ x ∈ t.steps, MintsApart c x.before x.event.op) :
    (concerned (srv.concerns c) ts).map (decisions c) =
        (concerned (srv.concerns c) ts').map (decisions c) ∧
      s.leases.entry c.to_hex = s'.leases.entry c.to_hex := by
  have hstart : Agree c (srv.start now unix) (srv.start now' unix') := ⟨rfl, rfl⟩
  have hdecided : ∀ j j' xs xs' s s' t t', srv.concerns c j = true → srv.LeftAlone c ⟨j, xs⟩ →
      srv.LeftAlone c ⟨j', xs'⟩ → srv.Alike ⟨j, xs⟩ ⟨j', xs'⟩ → Agree c s s' →
      Performs srv.machine (srv.prog j) s xs () t →
        Performs srv.machine (srv.prog j') s' xs' () t' →
      decisions c ⟨j, xs⟩ = decisions c ⟨j', xs'⟩ ∧ Agree c t t' := by
    intro j j' xs xs' s s' t t' hconcerns hleft hleft' hlike hagree hj hj'
    obtain ⟨hfared, hend⟩ := fared_alike hconcerns hleft hleft' hlike hagree hj hj'
    exact ⟨decisions_of_fared hlike.job hfared, hend⟩
  obtain ⟨hdecisions, hend⟩ := Served.twins (agree_equivalence c) (decisions c)
    (fun _ _ _ _ hconcerns hleft hj => agree_of_other hconcerns hj hleft.apart) hdecided
    hstart h h' halike
    (fun t ht => left_alone_of_let_through (hthrough t ht) (hmints t ht))
    (fun t ht => left_alone_of_let_through (hthrough' t ht) (hmints' t ht))
  exact ⟨hdecisions, congrArg Share.lease hend.1⟩

/-! ### Runs with another client -/

/-- Turns of the same jobs in which the input does not change. -/
theorem alike_of_constant {srv : Server} {i : Input} {ts ts' : List (Turn ops Env State Job)}
    (hjobs : ts.map Turn.job = ts'.map Turn.job)
    (h : ∀ t ∈ ts, ∀ x ∈ t.steps, srv.input x.env x.before = i)
    (h' : ∀ t ∈ ts', ∀ x ∈ t.steps, srv.input x.env x.before = i) :
    List.Forall₂ srv.Alike ts ts' := by
  have hown {t : Turn ops Env State Job} {n : Nat} {x} (hx : (own_steps t)[n]? = some x) :
      x ∈ t.steps := by
    have hmem := List.mem_of_getElem? hx
    unfold own_steps at hmem
    split at hmem
    · exact hmem
    · exact (List.takeWhile_sublist _).subset hmem
  have hpairs : List.Forall₂ (fun t t' => t.job = t'.job) ts ts' := by
    rwa [← List.forall₂_eq_eq_eq, List.forall₂_map_left_iff, List.forall₂_map_right_iff] at hjobs
  induction hpairs with
  | nil => exact .nil
  | cons hjob _ ih =>
    obtain ⟨hfirst, hrest⟩ := List.forall_mem_cons.mp h
    obtain ⟨hfirst', hrest'⟩ := List.forall_mem_cons.mp h'
    refine .cons ⟨hjob, fun n x x' hx hx' => ?_⟩ (ih (List.cons.inj hjobs).2 hrest hrest')
    exact (hfirst x (hown hx)).trans (hfirst' x' (hown hx')).symm

/-- Time stands still. -/
def still : Env := { sample_env 1000 1 with elapsed := 0 }

/-- Client 1 pulses, and the server cleans up. -/
def undisturbed_client : List (Job × List Env) :=
  sample_pulse 1 (sample_peer 1) 1 still ++ [(.cleanup, List.replicate 8 still)]

/-- The same, and client 2 pulses in between. -/
def busy_server : List (Job × List Env) :=
  sample_pulse 1 (sample_peer 1) 1 still ++ sample_pulse 2 (sample_peer 1) 2 still ++
    [(.cleanup, List.replicate 8 still)]

/-- The same, and client 2 says HELLO before client 1 answers, and draws the same nonce. -/
def redrawn_nonce : List (Job × List Env) :=
  (sample_pulse 1 (sample_peer 1) 1 still).take 1 ++
    (sample_pulse 2 (sample_peer 1) 1 still).take 1 ++
    (sample_pulse 1 (sample_peer 1) 1 still).drop 1 ++ [(.cleanup, List.replicate 8 still)]

/-- All that client 1 does is to pulse, once. Nothing is in its way, and it always gets the same
    input. -/
structure Calm (ts : List (Turn ops Env State Job)) : Prop where
  jobs : (concerned (sample.concerns (sample_id 1)) ts).map Turn.job =
    undisturbed_client.map Prod.fst
  room : ∀ t ∈ ts, ∀ x ∈ t.steps, x.before.leases.HasRoom (sample_id 1).to_hex
  unhindered : ∀ t ∈ concerned (sample.concerns (sample_id 1)) ts, ∀ x ∈ t.steps,
    Unhindered x.event
  input : ∀ t ∈ concerned (sample.concerns (sample_id 1)) ts, ∀ x ∈ t.steps,
    sample.input x.env x.before = sample.input still (sample.start 0 1000)

instance (ts : List (Turn ops Env State Job)) : Decidable (Calm ts) :=
  decidable_of_iff (_ ∧ _ ∧ _ ∧ _)
    ⟨fun h => ⟨h.1, h.2.1, h.2.2.1, h.2.2.2⟩, fun h => ⟨h.1, h.2, h.3, h.4⟩⟩

section calm
variable {ts ts' : List (Turn ops Env State Job)}

theorem Calm.let_through (h : Calm ts) : ∀ t ∈ ts, sample.LetThrough (sample_id 1) t :=
  fun t ht => ⟨h.room t ht, fun hconcerns => h.unhindered t (List.mem_filter.mpr ⟨ht, hconcerns⟩)⟩

theorem Calm.alike (h : Calm ts) (h' : Calm ts') :
    List.Forall₂ sample.Alike (concerned (sample.concerns (sample_id 1)) ts)
      (concerned (sample.concerns (sample_id 1)) ts') :=
  alike_of_constant (h.jobs.trans h'.jobs.symm) h.input h'.input

theorem calm_run (js : List (Job × List Env)) {P : List (Turn ops Env State Job) → State → Prop}
    [∀ ts s, Decidable (P ts s)]
    (h : (serve sample.machine sample.prog js (sample.start 0 1000)).any
      (fun r => decide (Calm r.1 ∧ P r.1 r.2)) = true) :
    ∃ ts s, Served sample.machine sample.prog (sample.start 0 1000) ts s ∧ Calm ts ∧ P ts s := by
  obtain ⟨⟨ts, s⟩, hts, hcheck⟩ := (Option.any_eq_true _ _).mp h
  exact ⟨ts, s, serve_sound .start hts, of_decide_eq_true hcheck⟩

theorem mints_apart {c : ClientId} {s : State} {o : Op} (h : Apart c s o) : MintsApart c s o := by
  cases o
  case nonce_insert => exact h
  all_goals exact trivial

end calm

/-- The two runs in which client 2 does not draw the nonce of client 1. -/
theorem calm_runs :
    ∃ ts ts' s s', Served sample.machine sample.prog (sample.start 0 1000) ts s ∧
      Served sample.machine sample.prog (sample.start 0 1000) ts' s' ∧ Calm ts ∧ Calm ts' ∧
      (∀ t ∈ ts, ∀ x ∈ t.steps, MintsApart (sample_id 1) x.before x.event.op) ∧
      (∀ t ∈ ts', ∀ x ∈ t.steps, MintsApart (sample_id 1) x.before x.event.op) ∧
      ts.length = 3 ∧ ts'.length = 5 ∧ (s.leases.entry (sample_id 1).to_hex).isSome := by
  obtain ⟨ts, s, h, hcalm, hapart, hlength, hlease⟩ := calm_run undisturbed_client
    (P := fun ts s => (∀ t ∈ ts, ∀ x ∈ t.steps, Apart (sample_id 1) x.before x.event.op) ∧
      ts.length = 3 ∧ (s.leases.entry (sample_id 1).to_hex).isSome = true) (by decide +kernel)
  obtain ⟨ts', s', h', hcalm', hapart', hlength'⟩ := calm_run busy_server
    (P := fun ts _ => (∀ t ∈ ts, ∀ x ∈ t.steps, Apart (sample_id 1) x.before x.event.op) ∧
      ts.length = 5) (by decide +kernel)
  exact ⟨ts, ts', s, s', h, h', hcalm, hcalm', fun t ht x hx => mints_apart (hapart t ht x hx),
    fun t ht x hx => mints_apart (hapart' t ht x hx), hlength, hlength', hlease⟩

theorem client_independent_busy :
    ∃ ts ts' s s', Served sample.machine sample.prog (sample.start 0 1000) ts s ∧
      Served sample.machine sample.prog (sample.start 0 1000) ts' s' ∧
      ts.length = 3 ∧ ts'.length = 5 ∧ (s.leases.entry (sample_id 1).to_hex).isSome ∧
      s.leases.entry (sample_id 1).to_hex = s'.leases.entry (sample_id 1).to_hex := by
  obtain ⟨ts, ts', s, s', h, h', hcalm, hcalm', hmints, hmints', hlength, hlength', hlease⟩ :=
    calm_runs
  refine ⟨ts, ts', s, s', h, h', hlength, hlength', hlease, ?_⟩
  exact (client_independent sample (sample_id 1) 0 0 1000 1000 ts ts' s s' h h'
    (hcalm.alike hcalm')
    (fun t ht => left_alone_of_let_through (hcalm.let_through t ht) (hmints t ht))
    (fun t ht => left_alone_of_let_through (hcalm'.let_through t ht) (hmints' t ht))).2

theorem client_served_alike_busy :
    ∃ ts ts' s s', Served sample.machine sample.prog (sample.start 0 1000) ts s ∧
      Served sample.machine sample.prog (sample.start 0 1000) ts' s' ∧
      ts.length = 3 ∧ ts'.length = 5 ∧ (s.leases.entry (sample_id 1).to_hex).isSome ∧
      (concerned (sample.concerns (sample_id 1)) ts).map (decisions (sample_id 1)) =
        (concerned (sample.concerns (sample_id 1)) ts').map (decisions (sample_id 1)) ∧
      s.leases.entry (sample_id 1).to_hex = s'.leases.entry (sample_id 1).to_hex := by
  obtain ⟨ts, ts', s, s', h, h', hcalm, hcalm', hmints, hmints', hlength, hlength', hlease⟩ :=
    calm_runs
  refine ⟨ts, ts', s, s', h, h', hlength, hlength', hlease, ?_⟩
  exact client_served_alike sample (sample_id 1) 0 0 1000 1000 ts ts' s s' h h'
    (hcalm.alike hcalm') hcalm.let_through hcalm'.let_through hmints hmints'

/-- Client 1 answers the CHALLENGE, but its nonce is the one of client 2 by then. -/
theorem redrawn_nonce_refused :
    ∃ ts ts' s s', Served sample.machine sample.prog (sample.start 0 1000) ts s ∧
      Served sample.machine sample.prog (sample.start 0 1000) ts' s' ∧
      List.Forall₂ sample.Alike (concerned (sample.concerns (sample_id 1)) ts)
        (concerned (sample.concerns (sample_id 1)) ts') ∧
      (∀ t ∈ ts, sample.LetThrough (sample_id 1) t) ∧
      (∀ t ∈ ts', sample.LetThrough (sample_id 1) t) ∧
      (s.leases.entry (sample_id 1).to_hex).isSome ∧
      s'.leases.entry (sample_id 1).to_hex = none := by
  obtain ⟨ts, s, h, hcalm, hlease⟩ := calm_run undisturbed_client
    (P := fun _ s => (s.leases.entry (sample_id 1).to_hex).isSome = true) (by decide +kernel)
  obtain ⟨ts', s', h', hcalm', hnone⟩ := calm_run redrawn_nonce
    (P := fun _ s => (s.leases.entry (sample_id 1).to_hex).isNone = true) (by decide +kernel)
  exact ⟨ts, ts', s, s', h, h', hcalm.alike hcalm', hcalm.let_through, hcalm'.let_through, hlease,
    Option.isNone_iff_eq_none.mp hnone⟩

end Server

end SignedPulse

