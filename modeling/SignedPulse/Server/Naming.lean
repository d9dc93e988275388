import Mathlib.Data.List.Perm.Subperm
import SignedPulse.Server.Disclosure
import SignedPulse.Server.Purges

/-! # Whom a task is about

    A task handles one packet, and the packet names one client. Whatever the
    task looks up or stores under the name of a client is about that one, and
    it stores nothing unless the client is configured (`prog_naming`).

    So the tables that are kept by client never hold more than the configured
    clients, whatever is sent to the server (`tables_of_clients`).
-/

namespace SignedPulse

/-- The keys of a client in the replay cache begin with this. -/
def ClientId.seen_start (c : ClientId) : Bytes := c.bytes.val ++ [0]

namespace Server

open Interleaving

/-! ### Operations on behalf of a client -/

/-- The entries that the operation is about are the client's. Sweeps are about all of them. -/
def Serves (c : ClientId) : Op → Prop
  | .nonce_insert _ client_id .. | .nonce_validate _ client_id .. | .nonce_consume _ client_id ..
  | .leases_renew client_id .. | .leases_release client_id
  | .leases_others_on_ip _ client_id => client_id = c.to_hex
  | .seen_insert_if_absent key .. => ∃ hello_nonce, key = c.seen_start ++ hello_nonce
  | .in_cooldown key | .cooldown_mark key => key = id_key c.to_hex
  | .nonce_purge_expired _ | .seen_purge_expired _ | .cooldown_purge_stale
  | .leases_take_expired => False
  | _ => True

/-- The operation may store an entry for a client. -/
def stores : Op → Bool
  | .nonce_insert .. | .seen_insert_if_absent .. | .leases_renew .. | .cooldown_mark _ => true
  | _ => false

/-- The operation serves the client, and stores nothing unless the client is configured. -/
def ActsFor (srv : Server) (c : ClientId) (o : Op) : Prop :=
  Serves c o ∧ (stores o = true → c ∈ srv.clients)

/-- A task is about the client that its packet names. Without a packet it stores nothing. -/
def NamingDemand (srv : Server) (job : Job) (ev : Event ops) : Prop :=
  match srv.packet_from job with
  | some (packet, _) => ActsFor srv packet.client_id ev.op
  | none => stores ev.op = false

section demand
variable {srv : Server} {c : ClientId} {α : Type} {h : List (Event ops)}

/-- The areas without entries of clients. -/
def nameless : List Area :=
  [.clock, .random, .signature, .rate, .active, .blacklist, .lockdown, .status, .reply, .inflight,
    .hook]

theorem gates_nameless : [Area.blacklist, .lockdown, .active, .inflight] ⊆ nameless := by
  simp [nameless]

theorem acts_for_quiet {o : Op} (harea : o.area ∈ nameless) : ActsFor srv c o := by
  cases o <;>
    first
    | exact ⟨trivial, fun h => absurd h Bool.false_ne_true⟩
    | simp [Op.area, nameless] at harea

/-- A program in such areas. -/
theorem acts_for_of_touches {areas : List Area} {p : ServerM α} (hp : Touches areas p)
    (hareas : areas ⊆ nameless) :
    Program.wp (Program.histories fun _ ev => ActsFor srv c ev.op) (fun _ _ => True) p h := by
  refine Program.wp_mono (fun _ _ _ => trivial) (hp.histories ?_)
  intro _ ev harea
  exact acts_for_quiet (hareas harea)

theorem note_rejected_about (replay : Bool) :
    Program.wp (Program.histories fun _ ev => ActsFor srv c ev.op) (fun _ _ => True)
      (note_rejected replay) h :=
  acts_for_of_touches (note_rejected_touches replay) (by simp [nameless])

theorem decrypt_param_about (blob : Option Bytes) :
    Program.wp (Program.histories fun _ ev => ActsFor srv c ev.op) (fun _ _ => True)
      (srv.decrypt_param blob) h :=
  acts_for_of_touches (srv.decrypt_param_touches blob) (by simp [nameless])

theorem handle_hello_about (hello : Hello) (peer : SocketAddr) (reply : ReplyMode) :
    Program.wp (Program.histories fun _ ev => ActsFor srv hello.client_id ev.op) (fun _ _ => True)
      (srv.handle_hello hello peer reply) h := by
  unfold handle_hello
  refine Program.wp_histories_perform_bind.mpr fun allowed => ⟨⟨trivial, nofun⟩, ?_⟩
  split
  · exact note_rejected_about false
  cases hlookup : AList.lookup hello.client_id srv.clients with
  | none =>
    refine Program.wp_histories_perform_bind.mpr fun checked => ⟨⟨trivial, nofun⟩, ?_⟩
    exact note_rejected_about false
  | some info =>
    have hlisted : hello.client_id ∈ srv.clients :=
      AList.lookup_isSome.mp (Option.isSome_of_eq_some hlookup)
    refine Program.wp_histories_perform_bind.mpr fun checked => ⟨⟨trivial, nofun⟩, ?_⟩
    split
    · exact note_rejected_about false
    refine Program.wp_histories_perform_bind.mpr fun now => ⟨⟨trivial, nofun⟩, ?_⟩
    split
    · exact note_rejected_about false
    refine Program.wp_histories_perform_bind.mpr fun fresh => ⟨?_, ?_⟩
    · exact ⟨⟨hello.hello_nonce.val, rfl⟩, fun _ => hlisted⟩
    split
    · exact note_rejected_about true
    unfold issue_challenge
    refine Program.wp_histories_perform_bind.mpr fun _ => ⟨⟨trivial, nofun⟩, ?_⟩
    refine Program.wp_histories_perform_bind.mpr fun nonce => ⟨⟨trivial, nofun⟩, ?_⟩
    refine Program.wp_histories_perform_bind.mpr fun _ => ⟨⟨rfl, fun _ => hlisted⟩, ?_⟩
    exact acts_for_of_touches (srv.send_challenge_touches _ _ _ _ _) (by simp [nameless])

theorem verify_and_consume_about
    (payload : Str → Str → Str → UInt32 → Int64 → Str → Bytes) (client_id : ClientId)
    (nonce : ByteVec CHALLENGE_NONCE_LEN) (interval_seconds : UInt32) (param : Option Bytes)
    (signature : ByteVec SIG_LEN) (peer : SocketAddr) :
    Program.wp (Program.histories fun _ ev => ActsFor srv client_id ev.op)
      (fun verified _ => verified.isSome = true → client_id ∈ srv.clients)
      (srv.verify_and_consume payload client_id nonce interval_seconds param signature peer) h := by
  have hrejected (replay : Bool) (h : List (Event ops)) :
      Program.wp (Program.histories fun _ ev => ActsFor srv client_id ev.op)
        (fun verified _ => verified.isSome = true → client_id ∈ srv.clients)
        (do note_rejected replay; return (none : Option Str)) h :=
    Program.wp_seq (note_rejected_about replay) fun _ _ _ => nofun
  unfold verify_and_consume
  dsimp only
  cases hlookup : AList.lookup client_id srv.clients with
  | none =>
    refine Program.wp_histories_perform_bind.mpr fun checked => ⟨⟨trivial, nofun⟩, ?_⟩
    exact hrejected false _
  | some info =>
    refine Program.wp_histories_perform_bind.mpr fun now => ⟨⟨trivial, nofun⟩, ?_⟩
    refine Program.wp_histories_perform_bind.mpr fun entry => ⟨⟨rfl, nofun⟩, ?_⟩
    split
    · exact hrejected _ _
    refine Program.wp_histories_perform_bind.mpr fun checked => ⟨⟨trivial, nofun⟩, ?_⟩
    split
    · exact hrejected false _
    refine Program.wp_histories_perform_bind.mpr fun now => ⟨⟨trivial, nofun⟩, ?_⟩
    refine Program.wp_histories_perform_bind.mpr fun consumed => ⟨⟨rfl, nofun⟩, ?_⟩
    split
    · exact hrejected _ _
    · exact fun _ => AList.lookup_isSome.mp (Option.isSome_of_eq_some hlookup)

theorem run_grant_about (hlisted : c ∈ srv.clients) (name : Str) {call : HookCall}
    (hcall : call.client_id = c.to_hex) :
    Program.wp (Program.histories fun _ ev => ActsFor srv c ev.op) (fun _ _ => True)
      (run_grant name call) h := by
  unfold run_grant
  apply Program.wp_seq (acts_for_of_touches (execute_touches .grant call) (by simp [nameless]))
  intro result _ _
  split
  · trivial
  unfold note_granted
  refine Program.wp_histories_perform_bind.mpr fun _ =>
    ⟨⟨congrArg id_key hcall, fun _ => hlisted⟩, ?_⟩
  refine Program.wp_histories_perform_bind.mpr fun at_unix => ⟨⟨trivial, nofun⟩, ?_⟩
  exact Program.wp_histories_perform.mpr fun _ => ⟨⟨trivial, nofun⟩, trivial⟩

theorem handle_response_about (resp : Response) (peer : SocketAddr) :
    Program.wp (Program.histories fun _ ev => ActsFor srv resp.client_id ev.op) (fun _ _ => True)
      (srv.handle_response resp peer) h := by
  unfold handle_response
  apply Program.wp_seq (verify_and_consume_about _ _ _ _ _ _ _)
  intro verified _ hverified
  split
  · trivial
  have hlisted : resp.client_id ∈ srv.clients := hverified rfl
  apply Program.wp_seq (decrypt_param_about _)
  intro param _ _
  split
  · trivial
  unfold response_verified note_pulse
  refine Program.wp_histories_perform_bind.mpr fun _ => ⟨⟨trivial, nofun⟩, ?_⟩
  refine Program.wp_histories_perform_bind.mpr fun at_unix => ⟨⟨trivial, nofun⟩, ?_⟩
  refine Program.wp_histories_perform_bind.mpr fun _ => ⟨⟨trivial, nofun⟩, ?_⟩
  refine Program.wp_histories_perform_bind.mpr fun is_new => ⟨⟨rfl, fun _ => hlisted⟩, ?_⟩
  have hcooldown (h : List (Event ops)) :
      Program.wp (Program.histories fun _ ev => ActsFor srv resp.client_id ev.op) (fun _ _ => True)
        (within_cooldown is_new resp.client_id.to_hex) h := by
    unfold within_cooldown
    split
    · trivial
    · exact Program.wp_histories_perform.mpr fun _ => ⟨⟨rfl, nofun⟩, trivial⟩
  apply Program.wp_seq (hcooldown _)
  intro skip _ _
  split
  · trivial
  refine Program.wp_histories_perform_bind.mpr fun ip_clients => ⟨⟨rfl, nofun⟩, ?_⟩
  exact run_grant_about hlisted _ rfl

theorem handle_bye_about (bye : Bye) (peer : SocketAddr) :
    Program.wp (Program.histories fun _ ev => ActsFor srv bye.client_id ev.op) (fun _ _ => True)
      (srv.handle_bye bye peer) h := by
  unfold handle_bye
  apply Program.wp_seq (verify_and_consume_about _ _ _ _ _ _ _)
  intro verified _ _
  split
  · trivial
  apply Program.wp_seq (decrypt_param_about _)
  intro bye_param _ _
  split
  · trivial
  unfold bye_verified
  refine Program.wp_histories_perform_bind.mpr fun released => ⟨⟨rfl, nofun⟩, ?_⟩
  split
  · trivial
  split
  · trivial
  exact acts_for_of_touches (run_revoke_touches _ _) (by simp [nameless])

end demand

theorem stores_quiet {o : Op} (harea : o.area ∈ nameless) : stores o = false := by
  cases o <;> first | rfl | simp [Op.area, nameless] at harea

theorem receive_about {srv : Server} {data : Bytes} {peer : SocketAddr} {packet : Packet}
    {reply : ReplyMode} (hpacket : srv.packet_of data = some (packet, reply)) :
    Program.wp (Program.histories fun _ ev => ActsFor srv packet.client_id ev.op) (fun _ _ => True)
      (srv.receive data peer) [] := by
  refine wp_receive (fun _ => True) (fun _ => True) ?_ (fun _ _ => trivial) ?_ ?_ trivial
  · intro _ o r _ ho _ _
    exact ⟨acts_for_quiet (gates_nameless ho), trivial⟩
  · intro h _
    refine wp_handle_datagram trivial
      (acts_for_of_touches (note_faulty_touches _) (by simp [nameless]))
      (note_rejected_about false) ?_ ?_ ?_
    · intro hello reply' h'
      obtain ⟨rfl, -⟩ := Prod.mk.inj (Option.some.inj (hpacket.symm.trans h'))
      exact handle_hello_about hello peer reply'
    · intro resp reply' h'
      obtain ⟨rfl, -⟩ := Prod.mk.inj (Option.some.inj (hpacket.symm.trans h'))
      exact handle_response_about resp peer
    · intro bye reply' h'
      obtain ⟨rfl, -⟩ := Prod.mk.inj (Option.some.inj (hpacket.symm.trans h'))
      exact handle_bye_about bye peer
  · intro _ _ _ _ _
    exact ⟨⟨trivial, nofun⟩, trivial⟩

/-- Without a packet, nothing that has entries of clients is touched. -/
theorem receive_nameless {srv : Server} {data : Bytes} {peer : SocketAddr}
    (hpacket : srv.packet_of data = none) :
    Program.wp (Program.histories fun _ (ev : Event ops) => ev.op.area ∈ nameless) (fun _ _ => True)
      (srv.receive data peer) [] := by
  have hquiet {areas : List Area} {p : ServerM Unit} {h : List (Event ops)} (hp : Touches areas p)
      (hareas : areas ⊆ nameless) :
      Program.wp (Program.histories fun _ (ev : Event ops) => ev.op.area ∈ nameless)
        (fun _ _ => True) p h := by
    refine Program.wp_mono (fun _ _ _ => trivial) (hp.histories ?_)
    intro _ ev harea
    exact hareas harea
  refine wp_receive (fun _ => True) (fun _ => True) ?_ (fun _ _ => trivial) ?_ ?_ trivial
  · intro _ o r _ ho _ _
    exact ⟨gates_nameless ho, trivial⟩
  · intro h _
    refine wp_handle_datagram trivial (hquiet (note_faulty_touches _) (by simp [nameless]))
      (hquiet (note_rejected_touches false) (by simp [nameless])) ?_ ?_ ?_
    all_goals
      intro _ _ h'
      rw [hpacket] at h'
      cases h'
  · intro _ _ _ _ _
    have hrelease : Op.inflight_release.area ∈ nameless := by simp [Op.area, nameless]
    exact ⟨hrelease, trivial⟩

theorem cleanup_stores {srv : Server} :
    Program.wp (Program.histories fun _ ev => stores ev.op = false) (fun _ _ => True)
      srv.cleanup [] := by
  refine wp_cleanup (fun _ => True) (fun _ => True) ?_ ?_ trivial
  · intro _ o r _ ho _ _
    refine ⟨?_, trivial⟩
    cases o <;> first | rfl | simp [purges] at ho
  · intro h _
    unfold run_lease_scan
    refine Program.wp_histories_perform_bind.mpr fun expired => ⟨rfl, ?_⟩
    split
    · trivial
    refine Program.wp_each (fun _ _ => True) ?_ trivial
    intro x _ h _
    refine Program.wp_mono (fun _ _ _ => trivial) ((run_revoke_touches _ _).histories ?_)
    intro _ ev harea
    have hareas : [Area.hook, .clock, .status] ⊆ nameless := by simp [nameless]
    exact stores_quiet (hareas harea)

/-- Every task meets the demand. -/
theorem prog_naming (srv : Server) (job : Job) :
    Program.wp (Program.histories fun _ ev => srv.NamingDemand job ev) (fun _ _ => True)
      (srv.prog job) [] := by
  unfold NamingDemand
  cases job with
  | cleanup => exact cleanup_stores
  | datagram data peer =>
    simp only [packet_from]
    cases hpacket : srv.packet_of data with
    | none =>
      exact Program.wp_histories_imp (fun _ _ h => stores_quiet h) (receive_nameless hpacket)
    | some x => exact receive_about hpacket

/-- A task stores entries for a configured client only. -/
theorem listed_of_stores {srv : Server} {job : Job} {ev : Event ops} (h : srv.NamingDemand job ev)
    (hstores : stores ev.op = true) : ∃ d ∈ srv.clients, Serves d ev.op := by
  unfold NamingDemand at h
  split at h
  · exact ⟨_, h.2 hstores, h.1⟩
  · rw [h] at hstores
    cases hstores

/-! ### Tables that are kept by client -/

/-- The tables have entries of configured clients only. -/
structure OfClients (srv : Server) (s : State) : Prop where
  leases : ∀ key ∈ s.leases.leases, ∃ d ∈ srv.clients, key = d.to_hex
  cooldown : ∀ key ∈ s.cooldown.last, ∃ d ∈ srv.clients, key = id_key d.to_hex
  nonces : ∀ key entry, AList.lookup key s.nonce_store = some entry →
    ∃ d ∈ srv.clients, entry.client_id = d.to_hex
  seen : ∀ key ∈ s.seen_hellos, ∃ d ∈ srv.clients, ∃ hello_nonce, key = d.seen_start ++ hello_nonce
  cap : s.leases.max_entries = max srv.config.max_tracked_ips 1

theorem OfClients.start (srv : Server) (now : Instant) (unix : Int64) :
    OfClients srv (srv.start now unix) where
  leases := nofun
  cooldown := nofun
  nonces := nofun
  seen := nofun
  cap := rfl

section step
variable {srv : Server} {s : State} {o : Op} {e : Env}

theorem mem_of_retain {K V : Type} [DecidableEq K] {p : K → V → Bool} {t : HashMap K V} {key : K}
    (h : key ∈ t.retain p) : key ∈ t := by
  obtain ⟨v, hv⟩ := Option.isSome_iff_exists.mp (AList.lookup_isSome.mpr h)
  exact AList.lookup_isSome.mp (Option.isSome_of_eq_some (HashMap.lookup_retain_eq_some.mp hv).1)

theorem OfClients.step_leases (h : OfClients srv s)
    (hlisted : stores o = true → ∃ d ∈ srv.clients, Serves d o) :
    (∀ key ∈ (srv.perform o e s).2.leases.leases, ∃ d ∈ srv.clients, key = d.to_hex) ∧
      (srv.perform o e s).2.leases.max_entries = max srv.config.max_tracked_ips 1 := by
  cases o
  case leases_renew client_id ip source_port param ttl =>
    show (∀ key ∈ (s.leases.renew_at client_id ip source_port param ttl _).2.leases, _) ∧
      (s.leases.renew_at client_id ip source_port param ttl _).2.max_entries = _
    unfold LeaseTracker.renew_at
    dsimp only
    split
    · refine ⟨fun key hkey => ?_, h.cap⟩
      rcases (AList.mem_insert _).mp hkey with rfl | hkey
      · exact hlisted rfl
      · exact h.leases key hkey
    · exact ⟨h.leases, h.cap⟩
  case leases_release client_id =>
    show (∀ key ∈ (s.leases.release_at client_id _).2.leases, _) ∧
      (s.leases.release_at client_id _).2.max_entries = _
    unfold LeaseTracker.release_at
    split
    · exact ⟨h.leases, h.cap⟩
    · exact ⟨fun key hkey => h.leases key ((AList.mem_erase).mp hkey).2, h.cap⟩
  case leases_take_expired => exact ⟨fun key hkey => h.leases key (mem_of_retain hkey), h.cap⟩
  all_goals exact ⟨h.leases, h.cap⟩

theorem OfClients.step_cooldown (h : OfClients srv s)
    (hlisted : stores o = true → ∃ d ∈ srv.clients, Serves d o) :
    ∀ key ∈ (srv.perform o e s).2.cooldown.last, ∃ d ∈ srv.clients, key = id_key d.to_hex := by
  cases o
  case cooldown_mark key =>
    show ∀ k ∈ (s.cooldown.mark key _).last, _
    unfold CooldownTracker.mark
    split
    · exact h.cooldown
    · intro k hk
      rcases (AList.mem_insert _).mp hk with rfl | hk
      · exact hlisted rfl
      · exact h.cooldown k hk
  case cooldown_purge_stale =>
    show ∀ k ∈ (s.cooldown.purge_stale _).last, _
    unfold CooldownTracker.purge_stale
    split
    · exact h.cooldown
    · exact fun k hk => h.cooldown k (mem_of_retain hk)
  all_goals exact h.cooldown

theorem OfClients.step_nonces (h : OfClients srv s)
    (hlisted : stores o = true → ∃ d ∈ srv.clients, Serves d o) :
    ∀ key entry, AList.lookup key (srv.perform o e s).2.nonce_store = some entry →
      ∃ d ∈ srv.clients, entry.client_id = d.to_hex := by
  -- an entry is inserted for the client that is served, and only marked or dropped later
  cases o
  case nonce_insert nonce client_id source_ip source_port expires_at_unix =>
    intro key entry hentry
    by_cases hkey : key = nonce
    · rw [hkey] at hentry
      obtain rfl := Option.some.inj ((AList.lookup_insert _).symm.trans hentry)
      exact hlisted rfl
    · exact h.nonces key entry ((AList.lookup_insert_ne hkey).symm.trans hentry)
  case nonce_consume nonce client_id source_ip source_port now =>
    intro key entry hentry
    have hentry : AList.lookup key
      (s.nonce_store.consume nonce client_id source_ip source_port now).2 = some entry := hentry
    rw [(NonceStore.consume_outcome s.nonce_store nonce).2] at hentry
    cases hpassing : NonceStore.passing client_id source_ip source_port now
        (AList.lookup nonce s.nonce_store) with
    | none =>
      rw [hpassing] at hentry
      exact h.nonces key entry hentry
    | some old =>
      rw [hpassing] at hentry
      by_cases hkey : key = nonce
      · rw [hkey] at hentry
        obtain rfl := Option.some.inj ((AList.lookup_insert _).symm.trans hentry)
        exact h.nonces nonce old (Option.filter_eq_some_iff.mp hpassing).1
      · exact h.nonces key entry ((AList.lookup_insert_ne hkey).symm.trans hentry)
  case nonce_purge_expired now =>
    exact fun key entry hentry =>
      h.nonces key entry (HashMap.lookup_retain_eq_some.mp hentry).1
  all_goals exact h.nonces

theorem OfClients.step_seen (h : OfClients srv s)
    (hlisted : stores o = true → ∃ d ∈ srv.clients, Serves d o) :
    ∀ key ∈ (srv.perform o e s).2.seen_hellos,
      ∃ d ∈ srv.clients, ∃ hello_nonce, key = d.seen_start ++ hello_nonce := by
  cases o
  case seen_insert_if_absent key now ttl_seconds =>
    show ∀ k ∈ (s.seen_hellos.insert_if_absent key now ttl_seconds).2, _
    rw [SeenCache.insert_if_absent_eq]
    split
    · exact h.seen
    · intro k hk
      rcases (AList.mem_insert _).mp hk with rfl | hk
      · exact hlisted rfl
      · exact h.seen k hk
  case seen_purge_expired now => exact fun key hkey => h.seen key (mem_of_retain hkey)
  all_goals exact h.seen

theorem OfClients.step (h : OfClients srv s)
    (hlisted : stores o = true → ∃ d ∈ srv.clients, Serves d o) :
    OfClients srv (srv.perform o e s).2 where
  leases := (h.step_leases hlisted).1
  cooldown := h.step_cooldown hlisted
  nonces := h.step_nonces hlisted
  seen := h.step_seen hlisted
  cap := (h.step_leases hlisted).2

end step

theorem of_clients {srv : Server} {now : Instant} {unix : Int64} {c : Config ops State Job}
    (h : Reachable srv.machine srv.prog (srv.start now unix) c) : OfClients srv c.state := by
  refine Reachable.invariant (P := fun job _ ev => srv.NamingDemand job ev)
    (fun s _ => OfClients srv s) srv.prog_naming (OfClients.start srv now unix) ?_ h
  intro s l i job o e hinv hdemand
  exact hinv.step (listed_of_stores hdemand)

/-! ### Their size -/

/-- Keys that are made from the keys of another table, one from each. -/
theorem len_le_of_keys {K K' V V' : Type} [DecidableEq K] [DecidableEq K'] {t : HashMap K V}
    {t' : HashMap K' V'} {f : K' → K} (h : ∀ key ∈ t, ∃ k ∈ t', key = f k) : t.len ≤ t'.len := by
  rw [HashMap.len_eq_keys, HashMap.len_eq_keys, ← List.length_map f]
  refine (List.Nodup.subperm t.nodupKeys ?_).length_le
  intro key hkey
  obtain ⟨k, hk, rfl⟩ := h key hkey
  exact List.mem_map_of_mem hk

/-- Whatever is sent to the server, the tables that are kept by client have entries of configured
    clients only. The lease table and the cooldowns have one at most for each client, and
    `max_tracked_ips` turns no client away when it is not less than their number. -/
theorem tables_of_clients (srv : Server) (now : Instant) (unix : Int64) (c : Config ops State Job)
    (h : Reachable srv.machine srv.prog (srv.start now unix) c) :
    c.state.leases.leases.len ≤ srv.clients.len ∧
    c.state.cooldown.last.len ≤ srv.clients.len ∧
    (∀ nonce entry, AList.lookup nonce c.state.nonce_store = some entry →
      ∃ d ∈ srv.clients, entry.client_id = d.to_hex) ∧
    (∀ key ∈ c.state.seen_hellos, ∃ d ∈ srv.clients, ∃ hello_nonce,
      key = d.bytes.val ++ [0] ++ hello_nonce) ∧
    (srv.clients.len ≤ srv.config.max_tracked_ips →
      ∀ d ∈ srv.clients, c.state.leases.HasRoom d.to_hex) := by
  have hinv := of_clients h
  refine ⟨len_le_of_keys hinv.leases, len_le_of_keys hinv.cooldown, hinv.nonces, hinv.seen, ?_⟩
  intro hcap d hd
  by_cases hmem : d.to_hex ∈ c.state.leases.leases
  · exact .inl hmem
  · right
    rw [hinv.cap]
    -- with one more entry, the table would still be one of configured clients
    have hmore : ∀ key ∈ AList.insert d.to_hex (Lease.mk 0 (.sample 0) 0 none)
      c.state.leases.leases,
        ∃ k ∈ srv.clients, key = k.to_hex := by
      intro key hkey
      rcases (AList.mem_insert _).mp hkey with rfl | hkey
      · exact ⟨d, hd, rfl⟩
      · exact hinv.leases key hkey
    have hlen := len_le_of_keys hmore
    rw [HashMap.len_insert, if_neg hmem] at hlen
    omega

theorem tables_of_clients_sample :
    ∃ c, Reachable sample.machine sample.prog (sample.start 0 1000) c ∧
      c.state.leases.leases.len = 1 ∧ c.state.cooldown.last.len ≤ sample.clients.len ∧
      ∀ d ∈ sample.clients, c.state.leases.HasRoom d.to_hex := by
  have hrun : (Sequential.run_jobs sample.machine (fun _ _ _ => True) sample.prog
      (sample_pulse 1 (sample_peer 1) 1 (sample_env 1000 0))
      { state := sample.start 0 1000, log := [] }).any (fun t =>
        decide (t.state.leases.leases.len = 1)) = true := by decide +kernel
  obtain ⟨t, ht, hlen⟩ := (Option.any_eq_true _ _).mp hrun
  obtain ⟨c, hc, hstate, -⟩ := (Sequential.run_jobs_sound .start ht).reachable
  obtain ⟨-, hcooldown, -, -, hroom⟩ := tables_of_clients sample 0 1000 c hc
  rw [← hstate] at hlen
  exact ⟨c, hc, of_decide_eq_true hlen, hcooldown, hroom (by decide +kernel)⟩

end Server

end SignedPulse
