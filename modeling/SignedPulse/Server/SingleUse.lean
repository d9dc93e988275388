import SignedPulse.Server.Spending

/-! # Every action spends a nonce of its own

    `Spending` says what a task has done before it acts. Here the tasks are put
    together: the store only holds nonces that a HELLO has minted, a consumed
    nonce never becomes usable again, and so two actions never share a nonce
    (`every_action_spends_a_nonce`).

    The random generator and the signature scheme enter as two hypotheses: no
    nonce is drawn twice, and a signature under a client's key verifies only
    for what the client has signed.
-/

namespace SignedPulse

/-- What an issued nonce is bound to. -/
structure Binding where
  client_id : Str
  source_ip : IpAddr
  source_port : UInt16
  expires_at_unix : Int64

def NonceEntry.binding (entry : NonceEntry) : Binding where
  client_id := entry.client_id
  source_ip := entry.source_ip
  source_port := entry.source_port
  expires_at_unix := entry.expires_at_unix

namespace Server

open Interleaving

/-! ### Events about nonces -/

/-- The nonce that an event draws. -/
def drawing_of : Event ops → Option Bytes
  | ⟨.nonce_generate, nonce⟩ => some nonce.val
  | _ => none

/-- The nonce that an operation inserts, with its binding. -/
def insertion_of : Op → Option (Bytes × Binding)
  | .nonce_insert nonce client_id ip port expires => some (nonce, ⟨client_id, ip, port, expires⟩)
  | _ => none

/-- The nonce that an event consumes. -/
def consumption_of : Event ops → Option Bytes
  | ⟨.nonce_consume nonce _ _ _ _, .ok _⟩ => some nonce
  | _ => none

/-- All nonces drawn so far. -/
def drawn (log : Log ops) : List Bytes := log.filterMap (fun x => drawing_of x.2)

/-- All nonces consumed so far. -/
def consumed (log : Log ops) : List Bytes := log.filterMap (fun x => consumption_of x.2)

theorem eq_of_nodup_filterMap {α β : Type} {f : α → Option β} {l : List α}
    (h : (l.filterMap f).Nodup) {x y : α} {b : β} (hx : x ∈ l) (hy : y ∈ l) (hfx : f x = some b)
    (hfy : f y = some b) : x = y := by
  by_contra hne
  have hpairs := List.pairwise_filterMap.mp h
  have : Std.Symm fun a a' => ∀ b, f a = some b → ∀ b', f a' = some b' → b ≠ b' :=
    ⟨fun _ _ h b hb b' hb' heq => h b' hb' b hb heq.symm⟩
  exact hpairs.forall hx hy hne b hfx b hfy rfl

theorem consumed_snoc (log : Log ops) (x : Nat × Event ops) :
    consumed (log ++ [x]) = consumed log ++ (consumption_of x.2).toList := by
  unfold consumed
  rw [List.filterMap_append, List.filterMap_cons, List.filterMap_nil]
  cases consumption_of x.2 <;> rfl

theorem insertion_of_some {o : Op} {nonce : Bytes} {b : Binding}
    (h : insertion_of o = some (nonce, b)) :
    o = .nonce_insert nonce b.client_id b.source_ip b.source_port b.expires_at_unix := by
  unfold insertion_of at h
  split at h
  · obtain ⟨rfl, rfl⟩ := Prod.mk.inj (Option.some.inj h)
    rfl
  · cases h

/-- The event is a successful call on the store. -/
theorem consumption_of_perform {srv : Server} {o : Op} {e : Env} {s : State} {nonce : Bytes}
    (h : consumption_of ⟨o, (srv.perform o e s).1⟩ = some nonce) :
    ∃ client_id ip port now entry, o = .nonce_consume nonce client_id ip port now ∧
      (s.nonce_store.consume nonce client_id ip port now).1 = .ok entry := by
  cases o <;> try cases h
  case nonce_consume n client_id ip port now =>
    have h : consumption_of ⟨.nonce_consume n client_id ip port now,
        (s.nonce_store.consume n client_id ip port now).1⟩ = some nonce := h
    cases hr : (s.nonce_store.consume n client_id ip port now).1 with
    | error err =>
      rw [hr] at h
      cases h
    | ok entry =>
      rw [hr] at h
      obtain rfl : n = nonce := Option.some.inj h
      exact ⟨client_id, ip, port, now, entry, rfl, hr⟩

/-! ### The store -/

/-- An entry is a new one, or an old one with the same binding, which stays used once it is. -/
theorem perform_nonce_entry {srv : Server} {o : Op} {e : Env} {s : State} {nonce : Bytes}
    {entry : NonceEntry} (h : AList.lookup nonce (srv.perform o e s).2.nonce_store = some entry) :
    insertion_of o = some (nonce, entry.binding) ∨
      ∃ old, AList.lookup nonce s.nonce_store = some old ∧ old.binding = entry.binding ∧
        (old.used = true → entry.used = true) := by
  have hsame {entry : NonceEntry} (hold : AList.lookup nonce s.nonce_store = some entry) :
      ∃ old, AList.lookup nonce s.nonce_store = some old ∧ old.binding = entry.binding ∧
        (old.used = true → entry.used = true) := ⟨entry, hold, rfl, id⟩
  by_cases harea : o.area = .nonces
  swap
  · rw [perform_nonce_store harea] at h
    exact .inr (hsame h)
  cases o <;> simp only [Op.area, reduceCtorEq] at harea
  case nonce_insert n client_id ip port expires =>
    have h : AList.lookup nonce (s.nonce_store.insert n client_id ip port expires e.unix) =
        some entry := h
    unfold NonceStore.insert at h
    by_cases hn : nonce = n
    · subst hn
      rw [AList.lookup_insert] at h
      rw [← Option.some.inj h]
      exact .inl rfl
    · rw [AList.lookup_insert_ne hn] at h
      exact .inr (hsame h)
  case nonce_validate => exact .inr (hsame h)
  case nonce_consume n client_id ip port now =>
    have h : AList.lookup nonce (s.nonce_store.consume n client_id ip port now).2 = some entry := h
    cases hr : (s.nonce_store.consume n client_id ip port now).1 with
    | error err =>
      rw [NonceStore.consume_error hr] at h
      exact .inr (hsame h)
    | ok spent =>
      -- the spent entry keeps its binding, and is now used
      obtain ⟨before, hbefore, -, rfl, hstore⟩ := NonceStore.consume_ok hr
      rw [hstore] at h
      by_cases hn : nonce = n
      · subst hn
        rw [AList.lookup_insert] at h
        rw [← Option.some.inj h]
        exact .inr ⟨before, hbefore, rfl, fun _ => rfl⟩
      · rw [AList.lookup_insert_ne hn] at h
        exact .inr (hsame h)
  case nonce_purge_expired now =>
    have h : AList.lookup nonce (s.nonce_store.purge_expired now).2 = some entry := h
    exact .inr (hsame (HashMap.lookup_retain_eq_some.mp h).1)

/-- What the store and the log have to do with each other. -/
structure NonceInv (s : State) (log : Log ops) : Prop where
  /-- Every entry was inserted. -/
  entries : ∀ nonce entry, AList.lookup nonce s.nonce_store = some entry →
    ∃ x ∈ log, insertion_of x.2.op = some (nonce, entry.binding)
  /-- What is inserted was drawn by the same task. -/
  drawn : ∀ x ∈ log, ∀ nonce b, insertion_of x.2.op = some (nonce, b) →
    ∃ y ∈ log, y.1 = x.1 ∧ drawing_of y.2 = some nonce
  /-- What is validated was inserted with the binding it was validated for. -/
  validated : ∀ i nonce client_id ip port now entry,
    (i, ⟨.nonce_validate nonce client_id ip port now, .ok entry⟩) ∈ log →
    ∃ x ∈ log, insertion_of x.2.op = some (nonce, ⟨client_id, ip, port, entry.expires_at_unix⟩)
  /-- What is consumed was inserted, and stays used. -/
  spent : ∀ nonce ∈ consumed log, (∃ x ∈ log, ∃ b, insertion_of x.2.op = some (nonce, b)) ∧
    ∀ entry, AList.lookup nonce s.nonce_store = some entry → entry.used = true
  once : (consumed log).Nodup

/-- Only what is drawn for the first time is inserted, so it was not inserted before. -/
theorem not_inserted_before {srv : Server} {s : State} {log : Log ops} {i : Nat} {job : Job}
    {nonce client_id : _} {ip : IpAddr} {port : UInt16} (h : NonceInv s log)
    (hnodup : (drawn log).Nodup) (hminted : Minted srv job (own i log) nonce client_id ip port) :
    ∀ x ∈ log, ∀ b, insertion_of x.2.op ≠ some (nonce, b) := by
  obtain ⟨-, ⟨n, rfl, hdrawn⟩, hfirst⟩ := hminted
  intro x hx b hb
  obtain ⟨y, hy, hyx, hny⟩ := h.drawn x hx _ b hb
  obtain rfl : y = (i, ⟨.nonce_generate, n⟩) :=
    eq_of_nodup_filterMap hnodup hy (mem_own.mp hdrawn) hny rfl
  have hi : x.1 = i := hyx.symm
  have hown : x.2 ∈ own i log := mem_own.mpr (hi ▸ hx)
  refine hfirst _ hown ?_
  rw [insertion_of_some hb]
  rfl

/-- Step lemma. -/
theorem NonceInv.step {srv : Server} {s : State} {log : Log ops} {i : Nat} {job : Job} {o : Op}
    {e : Env} (h : NonceInv s log) (hnodup : (Server.drawn log).Nodup)
    (hdemand : srv.SpendDemand job (own i log) ⟨o, (srv.perform o e s).1⟩) :
    NonceInv (srv.perform o e s).2 (log ++ [(i, ⟨o, (srv.perform o e s).1⟩)]) := by
  have hkeep {P : Nat × Event ops → Prop} (hold : ∃ x ∈ log, P x) :
      ∃ x ∈ log ++ [(i, ⟨o, (srv.perform o e s).1⟩)], P x := by
    obtain ⟨x, hx, hP⟩ := hold
    exact ⟨x, List.mem_append_left _ hx, hP⟩
  have hlast : (i, (⟨o, (srv.perform o e s).1⟩ : Event ops)) ∈
      log ++ [(i, ⟨o, (srv.perform o e s).1⟩)] :=
        List.mem_append_right _ (List.mem_singleton.mpr rfl)
  refine ⟨?_, ?_, ?_, ?_, ?_⟩
  · intro nonce entry hentry
    rcases perform_nonce_entry hentry with hnew | ⟨old, hold, hbinding, -⟩
    · exact ⟨_, hlast, hnew⟩
    · rw [← hbinding]
      exact hkeep (h.entries nonce old hold)
  · intro x hx nonce b hb
    rcases List.mem_append.mp hx with hx | hx
    · exact hkeep (h.drawn x hx nonce b hb)
    · rw [List.mem_singleton.mp hx] at hb ⊢
      obtain rfl := insertion_of_some hb
      obtain ⟨-, ⟨n, rfl, hdrawn⟩, -⟩ := hdemand
      exact hkeep ⟨_, mem_own.mp hdrawn, rfl, rfl⟩
  · intro j nonce client_id ip port now entry hmem
    rcases List.mem_append.mp hmem with hmem | hmem
    · exact hkeep (h.validated j nonce client_id ip port now entry hmem)
    · have hev := (Prod.mk.inj (List.mem_singleton.mp hmem)).2
      obtain rfl : .nonce_validate nonce client_id ip port now = o := congrArg Event.op hev
      have hvalid : s.nonce_store.validate nonce client_id ip port now = .ok entry := by
        have hres := eq_of_heq (Event.mk.inj hev).2
        exact hres.symm
      obtain ⟨hlookup, -, -, rfl, rfl, rfl⟩ := NonceStore.validate_ok.mp hvalid
      exact hkeep (h.entries nonce entry hlookup)
  · intro nonce hmem
    rw [consumed_snoc, List.mem_append] at hmem
    rcases hmem with hmem | hmem
    · obtain ⟨hinserted, hused⟩ := h.spent nonce hmem
      refine ⟨hkeep hinserted, fun entry hentry => ?_⟩
      rcases perform_nonce_entry hentry with hnew | ⟨old, hold, -, hstays⟩
      · -- it cannot be inserted a second time
        obtain ⟨x, hx, b, hb⟩ := hinserted
        obtain rfl := insertion_of_some hnew
        exact absurd hb (not_inserted_before h hnodup hdemand x hx b)
      · exact hstays (hused old hold)
    · obtain ⟨client_id, ip, port, now, entry, rfl, hr⟩ :=
        consumption_of_perform (Option.mem_toList.mp hmem)
      obtain ⟨before, hbefore, -, rfl, hstore⟩ := NonceStore.consume_ok hr
      obtain ⟨x, hx, hinserted⟩ := h.entries nonce before hbefore
      refine ⟨hkeep ⟨x, hx, _, hinserted⟩, fun entry hentry => ?_⟩
      have hentry : AList.lookup nonce (s.nonce_store.consume nonce client_id ip port now).2 =
          some entry := hentry
      rw [hstore, AList.lookup_insert] at hentry
      rw [← Option.some.inj hentry]
  · -- a nonce that was consumed before is used, and `consume` refuses it
    rw [consumed_snoc, List.nodup_append]
    refine ⟨h.once, ?_, ?_⟩
    · cases consumption_of _ <;> simp
    · rintro nonce hmem _ hnew rfl
      obtain ⟨client_id, ip, port, now, entry, rfl, hr⟩ :=
        consumption_of_perform (Option.mem_toList.mp hnew)
      obtain ⟨before, hbefore, husable, -, -⟩ := NonceStore.consume_ok hr
      have hused := (h.spent nonce hmem).2 before hbefore
      rw [husable.unused] at hused
      cases hused

/-- Run lemma. -/
theorem nonce_inv {srv : Server} {now : Instant} {unix : Int64} {c : Config ops State Job}
    (h : Reachable srv.machine srv.prog (srv.start now unix) c) (hnodup : (drawn c.log).Nodup) :
    NonceInv c.state c.log := by
  revert hnodup
  refine Reachable.invariant (fun s l => (drawn l).Nodup → NonceInv s l)
    srv.prog_spend_demand ?_ ?_ h
  · intro _
    refine ⟨?_, by simp, by simp, by simp [consumed], by simp [consumed]⟩
    intro nonce entry hentry
    cases hentry
  · intro s l i job o e hInv hdemand hnodup
    have hsub : (drawn l).Sublist (drawn (l ++ [(i, ⟨o, (srv.perform o e s).1⟩)])) :=
      (List.sublist_append_left _ _).filterMap _
    have hnodup' : (drawn l).Nodup := hnodup.sublist hsub
    exact (hInv hnodup').step hnodup' hdemand

/-! ### What an action is authorised by -/

/-- The nonce was issued in a CHALLENGE to the client at `peer`: some task has accepted a HELLO
    that the client signed, has drawn the nonce and stored its expiry, and sends nothing but that
    CHALLENGE. -/
def Issued (srv : Server) (Signed : VerifyingKey → Bytes → Prop) (c : Config ops State Job)
    (client_id : ClientId) (info : ClientInfo) (peer : SocketAddr)
    (nonce : ByteVec CHALLENGE_NONCE_LEN) (expires : Int64) : Prop :=
  ∃ j task hello, c.tasks[j]? = some task ∧
    srv.packet_from task.job = some (.Hello hello, peer) ∧ hello.client_id = client_id ∧
    Signed info.verifying_key (srv.hello_payload hello) ∧
    (∃ key now ttl_seconds, (j, ⟨.seen_insert_if_absent key now ttl_seconds, true⟩) ∈ c.log) ∧
    (j, ⟨.nonce_generate, nonce⟩) ∈ c.log ∧
    (j, ⟨.nonce_insert nonce.val client_id.to_hex peer.ip peer.port expires, ()⟩) ∈ c.log ∧
    ∀ datagram dest sent, (j, ⟨.send_to datagram dest, sent⟩) ∈ c.log →
      dest = peer ∧ Carries (own j c.log) datagram (.Challenge ⟨client_id, nonce, expires⟩)

/-- The nonce of the credential was issued to its client at `peer`, and the client has signed the
    message with that nonce and its expiry. -/
def Authorised (srv : Server) (Signed : VerifyingKey → Bytes → Prop) (c : Config ops State Job)
    (cr : Credential) (peer : SocketAddr) : Prop :=
  ∃ info expires, AList.lookup cr.client_id srv.clients = some info ∧
    Signed info.verifying_key (cr.message srv.config.server_id expires) ∧
    srv.Issued Signed c cr.client_id info peer cr.nonce expires

/-- What justifies that task `i` runs the grant hook. -/
def GrantJustified (srv : Server) (Signed : VerifyingKey → Bytes → Prop)
    (c : Config ops State Job) (i : Nat) (call : HookCall) (nonce : Bytes) : Prop :=
  ∃ task resp peer, c.tasks[i]? = some task ∧
    srv.packet_from task.job = some (.Response resp, peer) ∧ resp.nonce.val = nonce ∧
    call.client_id = resp.client_id.to_hex ∧ call.source_ip = peer.ip ∧
    call.source_port = peer.port ∧ Decrypts srv resp.param call.param ∧
    srv.Authorised Signed c resp.credential peer

/-- What justifies that task `i` releases the lease of the client. -/
def ReleaseJustified (srv : Server) (Signed : VerifyingKey → Bytes → Prop)
    (c : Config ops State Job) (i : Nat) (client_id : Str) (nonce : Bytes) : Prop :=
  ∃ task bye peer param, c.tasks[i]? = some task ∧
    srv.packet_from task.job = some (.Bye bye, peer) ∧ bye.nonce.val = nonce ∧
    client_id = bye.client_id.to_hex ∧ Decrypts srv bye.param param ∧
    srv.Authorised Signed c bye.credential peer ∧
    ∀ call started, (i, ⟨.hook_spawn .revoke call, started⟩) ∈ c.log →
      ∃ e remaining, call = revoke_call e (param.or e.param) .bye remaining

/-- At position `k` of the log, task `i` runs the grant hook or releases a lease. -/
def ActsAt (c : Config ops State Job) (k i : Nat) : Prop :=
  ∃ ev, c.log[k]? = some (i, ev) ∧ acts ev.op = true

/-- Task `i` has consumed the nonce. -/
def SpentBy (c : Config ops State Job) (i : Nat) (nonce : Bytes) : Prop :=
  ∃ x ∈ c.log, x.1 = i ∧ consumption_of x.2 = some nonce

/-- The nonce of the credential that a task presents. -/
def nonce_of (srv : Server) (job : Job) : Bytes :=
  ((srv.credential_of job).map (fun x => x.1.nonce.val)).getD []

/-- The nonce that is spent at position `k` of the log. -/
def spent_at (srv : Server) (c : Config ops State Job) (k : Nat) : Bytes :=
  ((c.log[k]?.bind (fun x => c.tasks[x.1]?)).map (fun task => srv.nonce_of task.job)).getD []

theorem Decrypts.unique {srv : Server} {blob : Option Bytes} {param param' : Option Str}
    (h : Decrypts srv blob param) (h' : Decrypts srv blob param') : param = param' := by
  unfold Decrypts at h h'
  split at h
  · exact h.trans h'.symm
  · obtain ⟨text, ht, rfl⟩ := h
    obtain ⟨text', ht', rfl⟩ := h'
    exact ht.symm.trans ht'

section runs
variable {srv : Server} {Signed : VerifyingKey → Bytes → Prop} {now : Instant} {unix : Int64}
variable {c : Config ops State Job} {i k : Nat}

/-- The demand on an event, by its position or not. -/
theorem demand_of_mem (h : Reachable srv.machine srv.prog (srv.start now unix) c)
    {ev : Event ops} (hev : (i, ev) ∈ c.log) :
    ∃ task before, c.tasks[i]? = some task ∧ before ⊆ own i c.log ∧
      srv.SpendDemand task.job before ev := by
  obtain ⟨pre, post, hlog⟩ := List.append_of_mem hev
  obtain ⟨task, htask, hdemand⟩ := Reachable.event_guarded srv.prog_spend_demand h hlog
  refine ⟨task, _, htask, ?_, hdemand⟩
  rw [hlog, own_append]
  exact List.subset_append_left _ _

/-- A check that succeeded is a signature that verifies. -/
theorem verified_of_mem (h : Reachable srv.machine srv.prog (srv.start now unix) c)
    {verifying_key : VerifyingKey} {payload : Bytes} {signature : ByteVec SIG_LEN}
    (hev : (i, ⟨.verify_payload_raw verifying_key payload signature, .ok ()⟩) ∈ c.log) :
    srv.crypto.verify_payload_raw verifying_key payload signature = .ok () := by
  revert hev
  refine Reachable.invariant (fun _ l =>
    (i, ⟨.verify_payload_raw verifying_key payload signature, .ok ()⟩) ∈ l →
      srv.crypto.verify_payload_raw verifying_key payload signature = .ok ())
    srv.prog_spend_demand (by simp) ?_ h
  intro s l j job o e hInv _ hmem
  rcases List.mem_append.mp hmem with hmem | hmem
  · exact hInv hmem
  · have hev := (Prod.mk.inj (List.mem_singleton.mp hmem)).2
    obtain rfl : .verify_payload_raw verifying_key payload signature = o := congrArg Event.op hev
    exact (eq_of_heq (Event.mk.inj hev).2).symm

/-- A task inserts one nonce. -/
theorem insert_once (h : Reachable srv.machine srv.prog (srv.start now unix) c)
    {nonce nonce' : Bytes} {b b' : Binding} {ev ev' : Event ops} (hev : (i, ev) ∈ c.log)
    (hev' : (i, ev') ∈ c.log) (hb : insertion_of ev.op = some (nonce, b))
    (hb' : insertion_of ev'.op = some (nonce', b')) : ev.op = ev'.op := by
  have hnot {x y : Event ops} {n n' : Bytes} {bx b'' : Binding} {p q : Nat}
      (hx : insertion_of x.op = some (n, bx)) (hy : insertion_of y.op = some (n', b''))
      (hp : c.log[p]? = some (i, x)) (hq : c.log[q]? = some (i, y)) : ¬ p < q := by
    intro hlt
    obtain ⟨task, -, hdemand⟩ := Reachable.guarded_at srv.prog_spend_demand h hq
    have hmem := mem_own_take hp hlt
    obtain ⟨op, res⟩ := y
    obtain rfl := insertion_of_some hy
    refine hdemand.2.2 x hmem ?_
    rw [insertion_of_some hx]
    rfl
  obtain ⟨p, hp⟩ := List.getElem?_of_mem hev
  obtain ⟨q, hq⟩ := List.getElem?_of_mem hev'
  have hpq : p = q := by
    have h₁ := hnot hb hb' hp hq
    have h₂ := hnot hb' hb hq hp
    omega
  rw [hpq, hq] at hp
  rw [(Prod.mk.inj (Option.some.inj hp)).2]

/-- Where the insertion of a nonce comes from. -/
theorem issued_of_insertion (h : Reachable srv.machine srv.prog (srv.start now unix) c)
    (hsigned : ∀ client_id info payload signature,
      AList.lookup client_id srv.clients = some info →
      srv.crypto.verify_payload_raw info.verifying_key payload signature = .ok () →
      Signed info.verifying_key payload)
    {client_id : ClientId} {info : ClientInfo} {peer : SocketAddr}
    {nonce : ByteVec CHALLENGE_NONCE_LEN} {expires : Int64} {x : Nat × Event ops}
    (hknown : AList.lookup client_id srv.clients = some info) (hx : x ∈ c.log)
    (hins : insertion_of x.2.op =
      some (nonce.val, ⟨client_id.to_hex, peer.ip, peer.port, expires⟩)) :
    srv.Issued Signed c client_id info peer nonce expires := by
  obtain ⟨j, op, res⟩ := x
  obtain rfl := insertion_of_some hins
  obtain ⟨task, before, htask, hbefore, ⟨hello, peer', info', key, now', ttl_seconds, hjob, hinfo,
    hid, hip, hport, hverified, hseen⟩, ⟨drawn, hdrawn, hgenerated⟩, -⟩ := demand_of_mem h hx
  have hown {ev : Event ops} (hev : ev ∈ before) : (j, ev) ∈ c.log := mem_own.mp (hbefore hev)
  obtain rfl : hello.client_id = client_id := (ClientId.to_hex_injective hid).symm
  obtain rfl : info = info' := Option.some.inj (hknown.symm.trans hinfo)
  have hpeer : peer' = peer := by
    obtain ⟨ip, port⟩ := peer
    obtain ⟨ip', port'⟩ := peer'
    exact congrArg₂ SocketAddr.mk hip.symm hport.symm
  subst hpeer
  refine ⟨j, task, hello, htask, hjob, rfl,
    hsigned _ _ _ _ hknown (verified_of_mem h (hown hverified)),
      ⟨key, now', ttl_seconds, hown hseen⟩,
    ?_, hx, ?_⟩
  · obtain rfl : nonce = drawn := Subtype.ext hdrawn
    exact hown hgenerated
  · intro datagram dest sent hsent
    obtain ⟨task', before', htask', hbefore', hello', peer'', nonce', expires', hjob', hdest, hins',
      hcarries⟩ := demand_of_mem h hsent
    obtain rfl : task = task' := Option.some.inj (htask.symm.trans htask')
    obtain ⟨rfl, rfl⟩ : hello = hello' ∧ peer' = peer'' := by simpa using hjob.symm.trans hjob'
    -- the datagram is about the one nonce that the task has inserted
    have hsame := insert_once h (mem_own.mp (hbefore' hins')) hx rfl hins
    simp only [Op.nonce_insert.injEq, true_and] at hsame
    obtain rfl : nonce' = nonce := Subtype.ext hsame.1
    obtain rfl : expires' = expires := hsame.2
    refine ⟨hdest, hcarries.imp id ?_⟩
    rintro ⟨secret, eph, bind, hsealed⟩
    exact ⟨secret, eph, bind, hbefore' hsealed⟩

/-- Where the nonce of a checked credential comes from. -/
theorem authorised_of_checked (h : Reachable srv.machine srv.prog (srv.start now unix) c)
    (hnodup : (drawn c.log).Nodup)
    (hsigned : ∀ client_id info payload signature,
      AList.lookup client_id srv.clients = some info →
      srv.crypto.verify_payload_raw info.verifying_key payload signature = .ok () →
      Signed info.verifying_key payload)
    {cr : Credential} {peer : SocketAddr} {info : ClientInfo} {expires : Int64}
    {before : List (Event ops)} (hbefore : before ⊆ own i c.log)
    (hchecked : Checked srv cr peer info expires before) : srv.Authorised Signed c cr peer := by
  obtain ⟨now', entry, hvalidated, rfl⟩ := hchecked.validated
  obtain ⟨x, hx, hins⟩ := (nonce_inv h hnodup).validated _ _ _ _ _ _ _
    (mem_own.mp (hbefore hvalidated))
  have hverified := verified_of_mem h (mem_own.mp (hbefore hchecked.verified))
  exact ⟨info, _, hchecked.known, hsigned _ _ _ _ hchecked.known hverified,
    issued_of_insertion h hsigned hchecked.known hx hins⟩

/-- Two actions on one nonce are one action. -/
theorem action_unique (h : Reachable srv.machine srv.prog (srv.start now unix) c)
    (hnodup : (drawn c.log).Nodup) {k' i' : Nat} {nonce : Bytes}
    (hk : ActsAt c k i) (hk' : ActsAt c k' i') (hspent : SpentBy c i nonce)
    (hspent' : SpentBy c i' nonce) : k = k' := by
  obtain ⟨x, hx, rfl, hxn⟩ := hspent
  obtain ⟨y, hy, rfl, hyn⟩ := hspent'
  -- the nonce was consumed once, so it is one task
  obtain rfl : x = y := eq_of_nodup_filterMap (nonce_inv h hnodup).once hx hy hxn hyn
  -- and a task acts once
  have hnot {p q : Nat} {ev ev' : Event ops} (hp : c.log[p]? = some (x.1, ev))
      (hev : acts ev.op = true) (hq : c.log[q]? = some (x.1, ev')) (hev' : acts ev'.op = true) :
      ¬ p < q := by
    intro hlt
    obtain ⟨task, -, hdemand⟩ := Reachable.guarded_at srv.prog_spend_demand h hq
    have hyet : NotYet (own x.1 (c.log.take q)) := by
      obtain ⟨op, res⟩ := ev'
      obtain ⟨call, rfl⟩ | ⟨client_id, rfl⟩ := acts_cases hev'
      · exact hdemand.2
      · exact hdemand.2
    rw [hyet ev (mem_own_take hp hlt)] at hev
    cases hev
  obtain ⟨ev, hev, hacts⟩ := hk
  obtain ⟨ev', hev', hacts'⟩ := hk'
  have h₁ := hnot hev hacts hev' hacts'
  have h₂ := hnot hev' hacts' hev hacts
  omega

theorem spent_at_of_task {task : Task ops Job} {ev : Event ops} (hk : c.log[k]? = some (i, ev))
    (htask : c.tasks[i]? = some task) : srv.spent_at c k = srv.nonce_of task.job := by
  simp [spent_at, hk, htask]

/-- A checked credential is spent. -/
theorem Checked.spent {cr : Credential} {peer : SocketAddr} {info : ClientInfo} {expires : Int64}
    {before : List (Event ops)} (hbefore : before ⊆ own i c.log)
    (hchecked : Checked srv cr peer info expires before) : SpentBy c i cr.nonce.val := by
  obtain ⟨now', entry, hconsumed⟩ := hchecked.consumed
  exact ⟨_, mem_own.mp (hbefore hconsumed), rfl, rfl⟩

theorem grant_justified (h : Reachable srv.machine srv.prog (srv.start now unix) c)
    (hnodup : (drawn c.log).Nodup)
    (hsigned : ∀ client_id info payload signature,
      AList.lookup client_id srv.clients = some info →
      srv.crypto.verify_payload_raw info.verifying_key payload signature = .ok () →
      Signed info.verifying_key payload)
    {call : HookCall} {started : Bool}
    (hk : c.log[k]? = some (i, ⟨.hook_spawn .grant call, started⟩)) :
    srv.GrantJustified Signed c i call (srv.spent_at c k) ∧ SpentBy c i (srv.spent_at c k) := by
  obtain ⟨task, before, htask, hbefore, ⟨resp, peer, info, expires, hjob, hchecked, hparam,
    hid, hip, hport⟩, -⟩ := demand_of_mem h (List.mem_of_getElem? hk)
  have hspent : srv.spent_at c k = resp.nonce.val := by
    rw [spent_at_of_task hk htask]
    simp [nonce_of, credential_of, hjob, Response.credential]
  rw [hspent]
  exact ⟨⟨task, resp, peer, htask, hjob, rfl, hid, hip, hport, hparam,
    authorised_of_checked h hnodup hsigned hbefore hchecked⟩, hchecked.spent hbefore⟩

theorem release_justified (h : Reachable srv.machine srv.prog (srv.start now unix) c)
    (hnodup : (drawn c.log).Nodup)
    (hsigned : ∀ client_id info payload signature,
      AList.lookup client_id srv.clients = some info →
      srv.crypto.verify_payload_raw info.verifying_key payload signature = .ok () →
      Signed info.verifying_key payload)
    {client_id : Str} {released : Option (ExpiredLease × Nat)}
    (hk : c.log[k]? = some (i, ⟨.leases_release client_id, released⟩)) :
    srv.ReleaseJustified Signed c i client_id (srv.spent_at c k) ∧
      SpentBy c i (srv.spent_at c k) := by
  obtain ⟨task, before, htask, hbefore, ⟨bye, peer, info, expires, param, hjob, hchecked, hparam,
    hid⟩, -⟩ := demand_of_mem h (List.mem_of_getElem? hk)
  have hspent : srv.spent_at c k = bye.nonce.val := by
    rw [spent_at_of_task hk htask]
    simp [nonce_of, credential_of, hjob, Bye.credential]
  rw [hspent]
  refine ⟨⟨task, bye, peer, param, htask, hjob, rfl, hid, hparam,
    authorised_of_checked h hnodup hsigned hbefore hchecked, ?_⟩, hchecked.spent hbefore⟩
  intro call started hrevoke
  obtain ⟨task', _, htask', -, hdemand⟩ := demand_of_mem h hrevoke
  obtain rfl : task = task' := Option.some.inj (htask.symm.trans htask')
  obtain ⟨param', e, remaining, hparam', hcall⟩ := hdemand bye peer hjob
  obtain rfl : param = param' := hparam.unique hparam'
  exact ⟨e, remaining, hcall⟩

/-- Every grant hook and every release by a BYE is justified by a nonce of its own. -/
theorem every_action_spends_a_nonce
    (h : Reachable srv.machine srv.prog (srv.start now unix) c) (hnodup : (drawn c.log).Nodup)
    (hsigned : ∀ client_id info payload signature,
      AList.lookup client_id srv.clients = some info →
      srv.crypto.verify_payload_raw info.verifying_key payload signature = .ok () →
      Signed info.verifying_key payload) :
    ∃ spent : Nat → Bytes,
      (∀ k i call started, c.log[k]? = some (i, ⟨.hook_spawn .grant call, started⟩) →
        srv.GrantJustified Signed c i call (spent k)) ∧
      (∀ k i client_id released, c.log[k]? = some (i, ⟨.leases_release client_id, released⟩) →
        srv.ReleaseJustified Signed c i client_id (spent k)) ∧
      ∀ k k' i i', ActsAt c k i → ActsAt c k' i' → spent k = spent k' → k = k' := by
  have hspent {k i : Nat} (hk : ActsAt c k i) : SpentBy c i (srv.spent_at c k) := by
    obtain ⟨⟨op, res⟩, hev, hacts⟩ := hk
    obtain ⟨call, rfl⟩ | ⟨client_id, rfl⟩ := acts_cases hacts
    · exact (grant_justified h hnodup hsigned hev).2
    · exact (release_justified h hnodup hsigned hev).2
  refine ⟨srv.spent_at c, ?_, ?_, ?_⟩
  · intro k i call started hk
    exact (grant_justified h hnodup hsigned hk).1
  · intro k i client_id released hk
    exact (release_justified h hnodup hsigned hk).1
  · intro k k' i i' hk hk' heq
    exact action_unique h hnodup hk hk' (hspent hk) (heq ▸ hspent hk')

end runs

/-- What client 1 signs: two HELLOs, a RESPONSE and a BYE. -/
def signed_messages : List Bytes :=
  [sample.hello_payload (sample_hello 1 1000 1), sample.hello_payload (sample_hello 1 1000 2),
    (sample_response 1 1).credential.message sample_config.server_id 1030,
    (sample_bye 1 2).credential.message sample_config.server_id 1030]

/-- The sample server, with signatures that verify for these messages only. -/
def signing_sample : Server :=
  { sample with
    crypto := { sample_crypto with
      verify_strict := fun _ payload _ => decide (payload ∈ signed_messages) } }

/-- Client 1 pulses, and its RESPONSE arrives twice: both copies get past the signature check
    before one of them consumes the nonce. Then the client leaves. -/
def doubled_response : List (Label Env Job) :=
  let response := (Packet.Response (sample_response 1 1)).encode
  (.begin (.datagram (Packet.Hello (sample_hello 1 1000 1)).encode (sample_peer 1)) ::
    List.replicate 14 (.run 0 (sample_env 1000 1)) : List (Label Env Job)) ++
  (.begin (.datagram response (sample_peer 1)) :: .begin (.datagram response (sample_peer 1)) ::
    List.replicate 7 (.run 1 (sample_env 1000 0)) : List (Label Env Job)) ++
    (List.replicate 7 (.run 2 (sample_env 1000 0)) : List (Label Env Job)) ++
    (List.replicate 14 (.run 1 (sample_env 1000 0)) : List (Label Env Job)) ++
    (List.replicate 5 (.run 2 (sample_env 1000 0)) : List (Label Env Job)) ++
  (.begin (.datagram (Packet.Hello (sample_hello 1 1000 2)).encode (sample_peer 1)) ::
    List.replicate 14 (.run 3 (sample_env 1000 2)) : List (Label Env Job)) ++
  (.begin (.datagram (Packet.Bye (sample_bye 1 2)).encode (sample_peer 1)) ::
    List.replicate 16 (.run 4 (sample_env 1000 0)) : List (Label Env Job))

theorem every_action_spends_a_nonce_doubled :
    ∃ c, Interleaving.run signing_sample.machine signing_sample.prog
        (init (signing_sample.start 0 1000)) doubled_response = some c ∧
      (c.log.filter (fun x => acts x.2.op)).length = 2 ∧
      ∃ spent : Nat → Bytes,
        (∀ k i call started, c.log[k]? = some (i, ⟨.hook_spawn .grant call, started⟩) →
          signing_sample.GrantJustified (fun _ payload => payload ∈ signed_messages) c i call
            (spent k)) ∧
        (∀ k i client_id released, c.log[k]? = some (i, ⟨.leases_release client_id, released⟩) →
          signing_sample.ReleaseJustified (fun _ payload => payload ∈ signed_messages) c i client_id
            (spent k)) ∧
        ∀ k k' i i', ActsAt c k i → ActsAt c k' i' → spent k = spent k' → k = k' := by
  have hrun : (Interleaving.run signing_sample.machine signing_sample.prog
      (init (signing_sample.start 0 1000)) doubled_response).any (fun c =>
        decide ((c.log.filter (fun x => acts x.2.op)).length = 2) &&
        decide (drawn c.log).Nodup) = true := by decide +kernel
  obtain ⟨c, hc, hcheck⟩ := (Option.any_eq_true _ _).mp hrun
  rw [Bool.and_eq_true, decide_eq_true_iff, decide_eq_true_iff] at hcheck
  refine ⟨c, hc, hcheck.1, every_action_spends_a_nonce (reachable_of_run _ _ hc) hcheck.2 ?_⟩
  intro client_id info payload signature _ hverified
  unfold Primitives.verify_payload_raw at hverified
  split at hverified
  · rename_i hsigned
    exact of_decide_eq_true hsigned
  · cases hverified

end Server

end SignedPulse
