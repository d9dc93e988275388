import SignedPulse.Server.Rejections

/-! # What a rejected datagram changes

    A rejected datagram leaves no trace but its count. `RejectionFrame` says
    what the handler leaves as it was, and what becomes of the nonce that a
    RESPONSE or a BYE presents; `rejected_frame` puts it together with the rule
    that only a signed datagram can burn a nonce.
-/

namespace SignedPulse

namespace Server

open Sequential Interleaving

/-! ### What becomes of the state -/

/-- What a rejection leaves alone: leases, cooldown marks, active sources, the replay cache, the
    status of the clients and the counts of what was accepted. -/
def kept (s : State) :
    LeaseTracker × CooldownTracker × ActiveIps × SeenCache × HashMap Str ClientStatus ×
      UInt64 × UInt64 :=
  (s.leases, s.cooldown, s.active_ips, s.seen_hellos, s.status.clients, s.status.hello_accepted,
    s.status.verified)

/-- The nonce store after an event. -/
def spend (store : NonceStore) : Event ops → NonceStore
  | ⟨.nonce_consume nonce .., .ok entry⟩ => AList.insert nonce entry store
  | _ => store

theorem spend_of_unspent {store : NonceStore} {ev : Event ops} (h : consumption_of ev = none) :
    spend store ev = store := by
  unfold spend
  split
  · cases h
  · rfl

theorem harmless_area {ev : Event ops} (h : harmless ev = true) :
    ev.op.area ≠ .hook ∧ ev.op.area ≠ .reply := by
  unfold harmless at h
  split at h
  · simp [Op.area]
  · simp [Op.area]
  · simp [Op.area]
  · simp [Op.area]
  · have harea := of_decide_eq_true h
    constructor
    · intro hhook
      simp [hhook] at harea
    · intro hreply
      simp [hreply] at harea

section state
variable {srv : Server} {o : Op} {e : Env} {s : State}

theorem perform_kept (h : harmless ⟨o, (srv.perform o e s).1⟩ = true) :
    kept (srv.perform o e s).2 = kept s := by
  cases o
  case seen_insert_if_absent key now ttl_seconds =>
    -- only a key that was absent would change the cache
    have habsent : (s.seen_hellos.insert_if_absent key now ttl_seconds).1 = false := by
      simpa [harmless, perform, effect, tick] using h
    have hcache := SeenCache.insert_absent habsent
    have hafter : (srv.perform (.seen_insert_if_absent key now ttl_seconds) e s).2.seen_hellos =
        s.seen_hellos := hcache
    unfold kept
    rw [hafter]
    rfl
  case status_update u =>
    cases u with
    | rejected replay => rfl
    | hello_accepted => cases h
    | last_pulse name pulse => cases h
    | last_hook name hook => cases h
    | last_revoke name hook => cases h
  all_goals first | rfl | cases h

theorem perform_spend (h : harmless ⟨o, (srv.perform o e s).1⟩ = true) :
    (srv.perform o e s).2.nonce_store = spend s.nonce_store ⟨o, (srv.perform o e s).1⟩ := by
  cases o
  case nonce_consume nonce client_id ip port now =>
    have hstore : (srv.perform (.nonce_consume nonce client_id ip port now) e s).2.nonce_store =
        (s.nonce_store.consume nonce client_id ip port now).2 := rfl
    have hres : (srv.perform (.nonce_consume nonce client_id ip port now) e s).1 =
        (s.nonce_store.consume nonce client_id ip port now).1 := rfl
    rw [hstore, hres]
    cases hr : (s.nonce_store.consume nonce client_id ip port now).1 with
    | error err => exact NonceStore.consume_error hr
    | ok entry =>
      obtain ⟨_, -, -, -, hinsert⟩ := NonceStore.consume_ok hr
      exact hinsert
  all_goals first | rfl | cases h

/-- Nothing but the two events of a rejection counts it. -/
theorem perform_rejected : (srv.perform o e s).2.status.rejected =
    if counted ⟨o, (srv.perform o e s).1⟩ then s.status.rejected + 1 else s.status.rejected := by
  cases o
  case status_update u => cases u <;> rfl
  all_goals rfl

/-- An entry that becomes used is consumed for what it is bound to. -/
theorem consumed_of_used {nonce : Bytes} {old entry : NonceEntry}
    (hold : AList.lookup nonce s.nonce_store = some old) (hunused : old.used = false)
    (hnow : AList.lookup nonce (srv.perform o e s).2.nonce_store = some entry)
    (hused : entry.used = true) :
    ∃ now, o = .nonce_consume nonce old.client_id old.source_ip old.source_port now := by
  have hsame : AList.lookup nonce s.nonce_store ≠ some entry := by
    intro hentry
    obtain rfl : old = entry := Option.some.inj (hold.symm.trans hentry)
    rw [hunused] at hused
    cases hused
  by_cases harea : o.area = .nonces
  swap
  · rw [perform_nonce_store harea] at hnow
    exact absurd hnow hsame
  cases o <;> simp only [Op.area, reduceCtorEq] at harea
  case nonce_insert n client_id ip port expires =>
    have hnow : AList.lookup nonce (s.nonce_store.insert n client_id ip port expires e.unix) =
        some entry := hnow
    unfold NonceStore.insert at hnow
    by_cases hn : nonce = n
    · -- a new entry is unused
      subst hn
      rw [AList.lookup_insert] at hnow
      rw [← Option.some.inj hnow] at hused
      cases hused
    · rw [AList.lookup_insert_ne hn] at hnow
      exact absurd hnow hsame
  case nonce_validate => exact absurd hnow hsame
  case nonce_consume n client_id ip port now =>
    have hnow : AList.lookup nonce (s.nonce_store.consume n client_id ip port now).2 =
        some entry := hnow
    cases hr : (s.nonce_store.consume n client_id ip port now).1 with
    | error err =>
      rw [NonceStore.consume_error hr] at hnow
      exact absurd hnow hsame
    | ok spent =>
      obtain ⟨before, hbefore, husable, -, hstore⟩ := NonceStore.consume_ok hr
      rw [hstore] at hnow
      by_cases hn : nonce = n
      · subst hn
        obtain rfl : old = before := Option.some.inj (hold.symm.trans hbefore)
        exact ⟨now, by rw [husable.client, husable.ip, husable.port]⟩
      · rw [AList.lookup_insert_ne hn] at hnow
        exact absurd hnow hsame
  case nonce_purge_expired now =>
    have hnow : AList.lookup nonce (s.nonce_store.purge_expired now).2 = some entry := hnow
    exact absurd (HashMap.lookup_retain_eq_some.mp hnow).1 hsame

end state

/-! ### The frame -/

/-- What the handling of a rejected datagram does to the state. -/
structure RejectionFrame (srv : Server) (data : Bytes) (peer : SocketAddr) (s s' : State)
    (evs : List (Event ops)) : Prop where
  leases : s'.leases = s.leases
  cooldown : s'.cooldown = s.cooldown
  active_ips : s'.active_ips = s.active_ips
  seen_hellos : s'.seen_hellos = s.seen_hellos
  clients : s'.status.clients = s.status.clients
  hello_accepted : s'.status.hello_accepted = s.status.hello_accepted
  verified : s'.status.verified = s.status.verified
  no_hook : ∀ ev ∈ evs, ev.op.area ≠ .hook
  no_reply : ∀ ev ∈ evs, ev.op.area ≠ .reply
  rejected : s'.status.rejected = s.status.rejected + 1
  /-- Without a credential that passes its checks, the nonces stay as they are. -/
  nonces_kept : (∀ cr, srv.credential_of (.datagram data peer) = some (cr, peer) →
    srv.CredentialFails cr evs) → s'.nonce_store = s.nonce_store
  /-- With one, it is the parameter that is bad, and the presented nonce is now used. -/
  nonce_used : ∀ cr, srv.credential_of (.datagram data peer) = some (cr, peer) →
    ¬ srv.CredentialFails cr evs → srv.BadParam cr ∧ Signed srv cr peer evs ∧
      ∃ entry, AList.lookup cr.nonce.val s.nonce_store = some entry ∧
        entry.client_id = cr.client_id.to_hex ∧ entry.used = false ∧
        s'.nonce_store = AList.insert cr.nonce.val { entry with used := true } s.nonce_store

section frame
variable {srv : Server} {data : Bytes} {peer : SocketAddr} {s s' : State} {evs : List (Event ops)}
variable {A : Op → Env → State → Prop} {p : ServerM Unit}

/-- Nothing but the nonce store is left to be said of a harmless execution that counts once. -/
theorem rejection_frame_of_harmless (h : Exec srv.machine A p ⟨s, []⟩ () ⟨s', evs⟩)
    (hharmless : ∀ ev ∈ evs, harmless ev = true) (honce : evs.countP counted = 1)
    (hkept : (∀ cr, srv.credential_of (.datagram data peer) = some (cr, peer) →
      srv.CredentialFails cr evs) → s'.nonce_store = s.nonce_store)
    (hused : ∀ cr, srv.credential_of (.datagram data peer) = some (cr, peer) →
      ¬ srv.CredentialFails cr evs → srv.BadParam cr ∧ Signed srv cr peer evs ∧
        ∃ entry, AList.lookup cr.nonce.val s.nonce_store = some entry ∧
          entry.client_id = cr.client_id.to_hex ∧ entry.used = false ∧
          s'.nonce_store = AList.insert cr.nonce.val { entry with used := true } s.nonce_store) :
    RejectionFrame srv data peer s s' evs := by
  have hframe : kept s' = kept s :=
    h.frame (f := kept) (P := fun ev => harmless ev = true) (fun _ _ _ => perform_kept) rfl
      hharmless
  have hcount : s'.status.rejected = (· + 1)^[evs.countP counted] s.status.rejected :=
    h.count (f := fun s => s.status.rejected) (fun _ _ _ => perform_rejected) rfl
  rw [honce] at hcount
  simp only [kept, Prod.mk.injEq] at hframe
  obtain ⟨hleases, hcooldown, hactive, hseen, hclients, hhello, hverified⟩ := hframe
  exact
    { leases := hleases
      cooldown := hcooldown
      active_ips := hactive
      seen_hellos := hseen
      clients := hclients
      hello_accepted := hhello
      verified := hverified
      no_hook := fun ev hev => (harmless_area (hharmless ev hev)).1
      no_reply := fun ev hev => (harmless_area (hharmless ev hev)).2
      rejected := hcount
      nonces_kept := hkept
      nonce_used := hused }

theorem foldl_spend_of_unspent {store : NonceStore} (h : ∀ ev ∈ evs, consumption_of ev = none) :
    evs.foldl spend store = store := by
  induction evs generalizing store with
  | nil => rfl
  | cons ev evs ih =>
    obtain ⟨hfirst, hrest⟩ := List.forall_mem_cons.mp h
    rw [List.foldl_cons, spend_of_unspent hfirst, ih hrest]

theorem Spent.harmless {cr : Credential} {before : List (Event ops)} {ev : Event ops}
    (hspent : Spent srv cr peer before ev) :
    ∀ e ∈ before ++ [ev] ++ rejection false, Server.harmless e = true := by
  obtain ⟨now, entry, rfl⟩ := hspent.consumes
  have hrejection : ∀ e ∈ rejection false, Server.harmless e = true := by
    simp [rejection, Server.harmless, Op.area]
  refine List.forall_mem_append.mpr ⟨List.forall_mem_append.mpr ⟨hspent.quiet.harmless, ?_⟩,
    hrejection⟩
  exact List.forall_mem_singleton.mpr rfl

/-- The nonce is marked used in the entry that was there at the start. -/
theorem nonce_store_of_spent {cr : Credential} {before : List (Event ops)} {ev : Event ops}
    (h : Exec srv.machine A p ⟨s, []⟩ () ⟨s', before ++ [ev] ++ rejection false⟩)
    (hspent : Spent srv cr peer before ev) :
    ∃ entry, AList.lookup cr.nonce.val s.nonce_store = some entry ∧
      entry.client_id = cr.client_id.to_hex ∧ entry.used = false ∧
      s'.nonce_store = AList.insert cr.nonce.val { entry with used := true } s.nonce_store := by
  obtain ⟨now, spent, rfl⟩ := hspent.consumes
  -- the call sees the store as it was at the start
  have hquiet : ∀ ev ∈ before, harmless ev = true ∧ consumption_of ev = none :=
    fun ev hev => ⟨hspent.quiet.harmless ev hev, hspent.quiet.unspent ev hev⟩
  obtain ⟨e, st, hst, hres⟩ := h.result_at (f := State.nonce_store)
    (P := fun ev => harmless ev = true ∧ consumption_of ev = none)
    (fun o e s hok => (perform_spend hok.1).trans (spend_of_unspent hok.2))
    (by rw [List.nil_append, List.append_assoc]; rfl) hquiet
  have hcall : (s.nonce_store.consume cr.nonce.val cr.client_id.to_hex peer.ip peer.port now).1 =
      .ok spent := by
    rw [← hst]
    exact hres.symm
  obtain ⟨entry, hentry, husable, rfl, -⟩ := NonceStore.consume_ok hcall
  refine ⟨entry, hentry, husable.client, husable.unused, ?_⟩
  -- no other event spends anything
  have hfold := h.fold (f := State.nonce_store) (g := spend) (P := fun ev => harmless ev = true)
    (fun _ _ _ => perform_spend) (List.nil_append _).symm hspent.harmless
  rw [List.foldl_append, List.foldl_append, foldl_spend_of_unspent hspent.quiet.unspent] at hfold
  exact hfold

theorem Rejection.frame (h : Exec srv.machine A p ⟨s, []⟩ () ⟨s', evs⟩)
    (hrejection : Rejection srv data peer evs) : RejectionFrame srv data peer s s' evs := by
  cases hrejection with
  | refused hrefused hfails =>
    refine rejection_frame_of_harmless h hrefused.harmless hrefused.once (fun _ => ?_) ?_
    · have hfold := h.fold (f := State.nonce_store) (g := spend)
        (P := fun ev => harmless ev = true) (fun _ _ _ => perform_spend) rfl hrefused.harmless
      rwa [foldl_spend_of_unspent hrefused.unspent] at hfold
    · intro cr hjob hpassed
      exact absurd (hfails cr hjob) hpassed
  | bad_param cr before ev hjob hspent hbad hh =>
    subst hh
    have hstore := nonce_store_of_spent h hspent
    obtain ⟨now, spent, rfl⟩ := hspent.consumes
    have hpassed : ¬ srv.CredentialFails cr (before ++
        [⟨.nonce_consume cr.nonce.val cr.client_id.to_hex peer.ip peer.port now, .ok spent⟩] ++
        rejection false) := by
      rintro (hunknown | ⟨ev, hev, hfailing⟩)
      · exact hspent.known hunknown
      · have hrejection : Without failing (rejection false) := by simp [Without, rejection, failing]
        rw [List.forall_mem_append.mpr ⟨Without.snoc hspent.unfailed rfl, hrejection⟩ ev hev]
          at hfailing
        cases hfailing
    refine rejection_frame_of_harmless h ?_ ?_ (fun hfails => absurd (hfails cr hjob) hpassed) ?_
    · exact hspent.harmless
    · rw [List.countP_append, List.countP_append, hspent.quiet.uncounted]
      rfl
    · intro cr' hjob' _
      obtain rfl : cr = cr' := by simpa using hjob.symm.trans hjob'
      obtain ⟨info, now', entry, hinfo, hvalid, hverified⟩ := hspent.signed
      exact ⟨hbad, ⟨info, now', entry, hinfo, by simp [hvalid], by simp [hverified]⟩, hstore⟩

end frame

/-! ### All tasks -/

/-- Every task meets the demand. -/
theorem prog_consume_demand (srv : Server) (job : Job) :
    Program.wp (Program.histories (srv.ConsumeDemand job)) (fun _ _ => True) (srv.prog job) [] := by
  cases job with
  | datagram data peer =>
    refine wp_receive (fun _ => True) (fun _ => True) ?_ (fun _ _ => trivial) ?_ ?_ trivial
    · rintro h o r _ ho - rfl
      refine ⟨consume_demand_of_area ?_, trivial⟩
      intro hnonces
      simp [hnonces] at ho
    · intro h _
      exact Program.wp_mono (fun _ _ _ => trivial) (handle_datagram_outcome data peer)
    · rintro h r _ - rfl
      have hrelease : srv.ConsumeDemand (.datagram data peer) h ⟨.inflight_release, r⟩ := trivial
      exact ⟨hrelease, trivial⟩
  | cleanup =>
    refine wp_cleanup (fun _ => True) (fun _ => True) ?_ ?_ trivial
    · rintro h o r _ ho - rfl
      refine ⟨?_, trivial⟩
      cases o <;> first | exact trivial | cases ho
    · intro h _
      exact Program.wp_mono (fun _ _ _ => trivial)
        (consume_demand_of_touches srv.run_lease_scan_touches (by decide))

/-- A nonce that was issued to the client becomes used. -/
def Burns (before after : State) (nonce : Bytes) (client_id : ClientId) : Prop :=
  ∃ old entry, AList.lookup nonce before.nonce_store = some old ∧
    old.client_id = client_id.to_hex ∧ old.used = false ∧
    AList.lookup nonce after.nonce_store = some entry ∧ entry.used = true

/-- The handling of a rejected datagram changes nothing but what is said in `RejectionFrame`, from
    any state and whatever the environment does. And whatever other tasks are under way, only a
    datagram signed by the client burns a nonce that was issued to the client. -/
theorem rejected_frame (srv : Server) :
    (∀ data peer s s' evs, Exec srv.machine (fun _ _ _ => True) (srv.handle_datagram data peer)
        ⟨s, []⟩ () ⟨s', evs⟩ →
      srv.Rejected data evs → RejectionFrame srv data peer s s' evs) ∧
    ∀ s c c' i e nonce client_id, Reachable srv.machine srv.prog s c →
      apply srv.machine srv.prog c (.run i e) = some c' →
      Burns c.state c'.state nonce client_id →
      ∃ task cr peer, c.tasks[i]? = some task ∧ srv.credential_of task.job = some (cr, peer) ∧
        cr.client_id = client_id ∧ cr.nonce.val = nonce ∧ Signed srv cr peer (own i c.log) := by
  constructor
  · intro data peer s s' evs h hrejected
    have houtcome := h.of_histories (l := []) (handle_datagram_outcome data peer)
      (List.nil_append _).symm
    exact (houtcome rfl hrejected).frame h
  · intro s c c' i e nonce client_id hreach happly hburns
    obtain ⟨old, entry, hold, hclient, hunused, hnow, hused⟩ := hburns
    simp only [apply] at happly
    split at happly
    swap
    · cases happly
    rename_i job o next htask
    obtain rfl := Option.some.inj happly
    obtain ⟨now, rfl⟩ := consumed_of_used hold hunused hnow hused
    obtain ⟨cr, peer, hjob, hnonce, hid, -, -, hsigned⟩ :=
      hreach.next_guarded srv.prog_consume_demand htask
        (srv.machine.perform _ e c.state).1
    refine ⟨_, cr, peer, htask, hjob, ?_, hnonce.symm, hsigned⟩
    exact ClientId.to_hex_injective (hid.symm.trans hclient)

/-- A nonce was issued to client 1. -/
def issued : State :=
  { sample.start 0 1000 with
    nonce_store := AList.insert (List.replicate 32 1)
      { client_id := (sample_id 1).to_hex
        source_ip := (sample_peer 1).ip
        source_port := (sample_peer 1).port
        created_at_unix := 1000
        expires_at_unix := 1030
        used := false } ∅ }

/-- A RESPONSE with a parameter, which the sample server cannot open. -/
def with_param : Response := { sample_response 1 1 with param := some [1, 2, 3] }

theorem rejected_frame_bad_param :
    (∃ t, exec sample.machine (fun _ _ _ => True)
        (sample.handle_datagram (Packet.Response with_param).encode (sample_peer 1))
        (List.replicate 7 (sample_env 1000 0)) ⟨issued, []⟩ = some ((), t) ∧
      RejectionFrame sample (Packet.Response with_param).encode (sample_peer 1) issued t.state
        t.log ∧
      (AList.lookup (List.replicate 32 1) t.state.nonce_store).any NonceEntry.used = true) ∧
    ∃ c c', run sample.machine sample.prog (init issued)
        (.begin (.datagram (Packet.Response with_param).encode (sample_peer 1)) ::
          List.replicate 8 (.run 0 (sample_env 1000 0))) = some c ∧
      apply sample.machine sample.prog c (.run 0 (sample_env 1000 0)) = some c' ∧
      ∃ task cr peer, c.tasks[0]? = some task ∧ sample.credential_of task.job = some (cr, peer) ∧
        cr.client_id = sample_id 1 ∧ cr.nonce.val = List.replicate 32 1 ∧
        Signed sample cr peer (own 0 c.log) := by
  constructor
  · have hrun : (exec sample.machine (fun _ _ _ => True)
        (sample.handle_datagram (Packet.Response with_param).encode (sample_peer 1))
        (List.replicate 7 (sample_env 1000 0)) ⟨issued, []⟩).any (fun r =>
          (AList.lookup (List.replicate 32 1) r.2.state.nonce_store).any NonceEntry.used) =
            true := by
      decide +kernel
    obtain ⟨⟨⟨⟩, t⟩, ht, hused⟩ := (Option.any_eq_true _ _).mp hrun
    -- the parameter cannot be decrypted, once the nonce is spent
    refine ⟨t, ht, (rejected_frame sample).1 _ _ _ _ _ (exec_sound ht) ?_, hused⟩
    have hdecode : Packet.decode (Packet.Response with_param).encode =
        .ok (.Response with_param) := by decide +kernel
    have hunwrap : sample.unwrap (Packet.Response with_param).encode =
        some (.ok ((Packet.Response with_param).encode, .Cleartext)) := rfl
    unfold Rejected
    rw [hunwrap]
    dsimp only
    rw [hdecode]
    exact .inr ⟨_, rfl, rfl⟩
  · have hrun : (run sample.machine sample.prog (init issued)
        (.begin (.datagram (Packet.Response with_param).encode (sample_peer 1)) ::
          List.replicate 8 (.run 0 (sample_env 1000 0)))).any (fun c =>
          (apply sample.machine sample.prog c (.run 0 (sample_env 1000 0))).any (fun c' =>
            (AList.lookup (List.replicate 32 1) c.state.nonce_store).any (fun old =>
              decide (old.client_id = (sample_id 1).to_hex ∧ old.used = false)) &&
            (AList.lookup (List.replicate 32 1) c'.state.nonce_store).any
              NonceEntry.used)) = true := by decide +kernel
    obtain ⟨c, hc, hrun⟩ := (Option.any_eq_true _ _).mp hrun
    obtain ⟨c', hc', hburns⟩ := (Option.any_eq_true _ _).mp hrun
    obtain ⟨hbefore, hafter⟩ := Bool.and_eq_true_iff.mp hburns
    obtain ⟨old, hold, hunused⟩ := (Option.any_eq_true _ _).mp hbefore
    obtain ⟨entry, hentry, hused⟩ := (Option.any_eq_true _ _).mp hafter
    obtain ⟨hclient, hunused⟩ := of_decide_eq_true hunused
    exact ⟨c, c', hc, hc', (rejected_frame sample).2 _ _ _ _ _ _ _ (reachable_of_run _ _ hc) hc'
      ⟨old, entry, hold, hclient, hunused, hentry, hused⟩⟩

end Server

end SignedPulse
