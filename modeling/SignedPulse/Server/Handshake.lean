import SignedPulse.Client.Pulser
import SignedPulse.Server.Moments
import SignedPulse.Server.OpenGates
import SignedPulse.Server.RejectionFrame
import SignedPulse.Server.SingleUse

/-! # The handshake

    One attempt of a client against a server that serves any other tasks
    meanwhile. Between the HELLO and the RESPONSE the nonce has to survive in
    the store: nothing inserts it again, only the bearer can consume it, and a
    purge leaves it until it expires (`Kept`). So both messages are taken as
    `OpenGates` says, and `attempt_once_accepted` says what comes of it.
-/

namespace SignedPulse

namespace Server

open Interleaving

/-! ### Clock readings and presented nonces -/

/-- A task uses its own clock readings, and checks a nonce before it consumes one. -/
def PresentDemand (h : List (Event ops)) (ev : Event ops) : Prop :=
  match ev.op with
  | .nonce_validate _ _ _ _ now | .nonce_consume _ _ _ _ now =>
    ⟨.now_unix, now⟩ ∈ h ∧ ∀ ev ∈ h, consumption_of ev = none
  | .nonce_purge_expired now => ⟨.now_unix, now⟩ ∈ h
  | _ => True

section demand
variable {srv : Server} {h : List (Event ops)}

/-- Checks nonces, or purges them. -/
def presents : Op → Bool
  | .nonce_validate .. | .nonce_consume .. | .nonce_purge_expired _ => true
  | _ => false

theorem present_demand_of_not {ev : Event ops} (hev : presents ev.op = false) :
    PresentDemand h ev := by
  unfold PresentDemand
  split
  case h_4 => trivial
  all_goals
    rename_i hop
    rw [hop] at hev
    cases hev

theorem consumption_of_not {ev : Event ops} (hev : presents ev.op = false) :
    consumption_of ev = none := by
  obtain ⟨o, r⟩ := ev
  cases o <;> first | rfl | cases hev

theorem not_presents {o : Op} (ho : o.area ≠ .nonces) : presents o = false := by
  cases o <;> first | rfl | exact absurd rfl ho

/-- A program that presents no nonce meets the demand. -/
theorem present_demand_of_uses {α : Type} {p : ServerM α}
    (hp : p.Uses (fun o => presents o = false)) :
    Program.wp (Program.histories (PresentDemand)) (fun _ _ => True) p h :=
  Program.wp_of_uses (P := fun o => presents o = false) (J := fun _ => True)
    (fun _ _ _ _ ho _ _ => ⟨present_demand_of_not ho, trivial⟩) hp trivial

theorem presents_of_touches {α : Type} {areas : List Area} {p : ServerM α} (hp : Touches areas p)
    (hareas : Area.nonces ∉ areas) : p.Uses (fun o => presents o = false) :=
  Program.Uses.imp (fun _ ho => not_presents fun harea => hareas (harea ▸ ho)) hp

theorem handle_hello_presents (srv : Server) (hello : Hello) (peer : SocketAddr)
    (reply : ReplyMode) :
    (srv.handle_hello hello peer reply).Uses (fun o => presents o = false) := by
  have hrejected (replay : Bool) : (note_rejected replay).Uses (fun o => presents o = false) :=
    presents_of_touches (note_rejected_touches replay) (by decide)
  unfold handle_hello
  refine Program.uses_bind (Program.uses_perform rfl) fun allowed => ?_
  split
  · exact hrejected false
  split
  · exact Program.uses_bind (Program.uses_perform rfl) fun _ => hrejected false
  refine Program.uses_bind (Program.uses_perform rfl) fun checked => ?_
  split
  · exact hrejected false
  refine Program.uses_bind (Program.uses_perform rfl) fun now => ?_
  split
  · exact hrejected false
  refine Program.uses_bind (Program.uses_perform rfl) fun fresh => ?_
  split
  · exact hrejected true
  unfold issue_challenge
  refine Program.uses_bind (Program.uses_perform rfl) fun _ => ?_
  refine Program.uses_bind (Program.uses_perform rfl) fun nonce => ?_
  refine Program.uses_bind (Program.uses_perform rfl) fun _ => ?_
  exact presents_of_touches (srv.send_challenge_touches hello nonce _ peer reply) (by decide)

/-- The checks of a credential meet the demand, when no nonce has been consumed before. -/
theorem verify_and_consume_present (hunspent : ∀ ev ∈ h, consumption_of ev = none)
    (payload : Str → Str → Str → UInt32 → Int64 → Str → Bytes) (client_id : ClientId)
    (nonce : ByteVec CHALLENGE_NONCE_LEN) (interval_seconds : UInt32) (param : Option Bytes)
    (signature : ByteVec SIG_LEN) (peer : SocketAddr) :
    Program.wp (Program.histories (PresentDemand)) (fun _ _ => True)
      (srv.verify_and_consume payload client_id nonce interval_seconds param signature peer) h := by
  have hrejected {α : Type} (replay : Bool) (a : α) (h : List (Event ops)) :
      Program.wp (Program.histories (PresentDemand)) (fun _ _ => True)
        (do note_rejected replay; return a) h := by
    refine present_demand_of_uses (Program.uses_bind ?_ fun _ => Program.uses_pure)
    exact presents_of_touches (note_rejected_touches replay) (by decide)
  unfold verify_and_consume
  dsimp only
  split
  · refine Program.wp_histories_perform_bind.mpr fun _ => ⟨trivial, ?_⟩
    exact hrejected false _ _
  refine Program.wp_histories_perform_bind.mpr fun now => ⟨trivial, ?_⟩
  refine Program.wp_histories_perform_bind.mpr fun validated => ⟨⟨by simp, ?_⟩, ?_⟩
  · exact List.forall_mem_append.mpr ⟨hunspent, by simp [consumption_of]⟩
  split
  · exact hrejected _ _ _
  refine Program.wp_histories_perform_bind.mpr fun checked => ⟨trivial, ?_⟩
  split
  · exact hrejected _ _ _
  refine Program.wp_histories_perform_bind.mpr fun now' => ⟨trivial, ?_⟩
  refine Program.wp_histories_perform_bind.mpr fun consumed => ⟨⟨by simp, ?_⟩, ?_⟩
  · simp only [List.forall_mem_append, List.forall_mem_singleton]
    exact ⟨⟨⟨⟨hunspent, rfl⟩, rfl⟩, rfl⟩, rfl⟩
  split
  · exact hrejected _ _ _
  · trivial

theorem handle_datagram_present (srv : Server) (data : Bytes) (peer : SocketAddr)
    (hunspent : ∀ ev ∈ h, consumption_of ev = none) :
    Program.wp (Program.histories (PresentDemand)) (fun _ _ => True)
      (srv.handle_datagram data peer) h := by
  have hparam (blob : Option Bytes) {β : Type} {f : Except Unit (Option Str) → ServerM β}
      (hf : ∀ a, (f a).Uses (fun o => presents o = false)) (h : List (Event ops)) :
      Program.wp (Program.histories (PresentDemand)) (fun _ _ => True)
        (srv.decrypt_param blob >>= f) h :=
    present_demand_of_uses (Program.uses_bind
      (presents_of_touches (srv.decrypt_param_touches blob) (by decide)) hf)
  refine wp_handle_datagram trivial ?_ ?_ ?_ ?_ ?_
  · exact present_demand_of_uses (presents_of_touches (note_faulty_touches peer.ip) (by decide))
  · exact present_demand_of_uses (presents_of_touches (note_rejected_touches false) (by decide))
  · intro hello reply _
    exact present_demand_of_uses (srv.handle_hello_presents hello peer reply)
  · intro resp reply _
    unfold handle_response
    refine Program.wp_seq (verify_and_consume_present hunspent _ _ _ _ _ _ _)
      fun verified h' _ => ?_
    split
    · trivial
    rename_i name
    refine hparam resp.param (fun param => ?_) h'
    split
    · exact Program.uses_pure
    · exact presents_of_touches (srv.response_verified_touches _ _ _ _ _) (by decide)
  · intro bye reply _
    unfold handle_bye
    refine Program.wp_seq (verify_and_consume_present hunspent _ _ _ _ _ _ _)
      fun verified h' _ => ?_
    split
    · trivial
    refine hparam bye.param (fun param => ?_) h'
    split
    · exact Program.uses_pure
    · exact presents_of_touches (srv.bye_verified_touches _ _) (by decide)

/-- Every task meets the demand. -/
theorem prog_present_demand (srv : Server) (job : Job) :
    Program.wp (Program.histories (PresentDemand)) (fun _ _ => True) (srv.prog job) [] := by
  cases job with
  | datagram data peer =>
    refine wp_receive (fun h => ∀ ev ∈ h, consumption_of ev = none) (fun _ => True) ?_
      (fun _ _ => trivial) (fun h hunspent => srv.handle_datagram_present data peer hunspent) ?_
      (by simp)
    · rintro h o r _ ho hunspent rfl
      have hnot : presents o = false := not_presents fun harea => by simp [harea] at ho
      refine ⟨present_demand_of_not hnot, List.forall_mem_append.mpr ⟨hunspent, ?_⟩⟩
      exact List.forall_mem_singleton.mpr (consumption_of_not hnot)
    · rintro h r _ - rfl
      exact ⟨trivial, trivial⟩
  | cleanup =>
    refine Program.wp_histories_perform_bind.mpr fun now => ⟨trivial, ?_⟩
    refine Program.wp_histories_perform_bind.mpr fun removed => ⟨by simp [PresentDemand], ?_⟩
    refine present_demand_of_uses ?_
    refine Program.uses_bind (Program.uses_perform rfl) fun _ => ?_
    refine Program.uses_bind (Program.uses_perform rfl) fun _ => ?_
    refine Program.uses_bind (Program.uses_perform rfl) fun _ => ?_
    refine Program.uses_bind (Program.uses_perform rfl) fun _ => ?_
    refine Program.uses_bind (Program.uses_perform rfl) fun _ => ?_
    exact presents_of_touches srv.run_lease_scan_touches (by decide)

end demand

/-! ### The nonce in the store -/

section kept
variable {srv : Server} {nonce : Bytes} {b : Binding}

/-- What is not inserted again, consumed or purged stays. -/
theorem perform_keeps_nonce {o : Op} {e : Env} {s : State} {entry : NonceEntry}
    (hentry : AList.lookup nonce s.nonce_store = some entry)
    (hinsert : ∀ b, insertion_of o ≠ some (nonce, b))
    (hconsume : consumption_of ⟨o, (srv.perform o e s).1⟩ ≠ some nonce)
    (hpurge : ∀ now, o = .nonce_purge_expired now → now ≤ entry.expires_at_unix) :
    AList.lookup nonce (srv.perform o e s).2.nonce_store = some entry := by
  by_cases harea : o.area = .nonces
  swap
  · rw [perform_nonce_store harea, hentry]
  cases o <;> simp only [Op.area, reduceCtorEq] at harea
  case nonce_insert n client_id ip port expires =>
    have hn : nonce ≠ n := fun hn => hinsert ⟨client_id, ip, port, expires⟩ (by rw [hn]; rfl)
    exact (AList.lookup_insert_ne hn).trans hentry
  case nonce_validate => exact hentry
  case nonce_consume n client_id ip port now =>
    show AList.lookup nonce (s.nonce_store.consume n client_id ip port now).2 = some entry
    cases hr : (s.nonce_store.consume n client_id ip port now).1 with
    | error err => rw [NonceStore.consume_error hr, hentry]
    | ok spent =>
      obtain ⟨-, -, -, -, hstore⟩ := NonceStore.consume_ok hr
      have hn : nonce ≠ n := by
        rintro rfl
        refine hconsume ?_
        show consumption_of ⟨.nonce_consume nonce client_id ip port now,
          (s.nonce_store.consume nonce client_id ip port now).1⟩ = some nonce
        rw [hr]
        rfl
      rw [hstore, AList.lookup_insert_ne hn, hentry]
  case nonce_purge_expired now =>
    exact HashMap.lookup_retain_eq_some.mpr ⟨hentry, decide_eq_true (hpurge now rfl)⟩

theorem perform_inserts_nonce {o : Op} {e : Env} {s : State}
    (h : insertion_of o = some (nonce, b)) :
    ∃ entry, AList.lookup nonce (srv.perform o e s).2.nonce_store = some entry ∧
      entry.binding = b ∧ entry.used = false := by
  obtain rfl := insertion_of_some h
  exact ⟨_, AList.lookup_insert _, rfl, rfl⟩

/-- Once it is inserted, the nonce stays unused in the store until task `j` consumes it. -/
def Kept (srv : Server) (j : Nat) (nonce : Bytes) (b : Binding) (s : State)
    (ms : List ServerMoment) : Prop :=
  (∃ y ∈ ms, insertion_of y.op = some (nonce, b)) →
    (∃ y ∈ ms, y.task = j ∧ consumption_of (y.event srv.machine) = some nonce) ∨
    ∃ entry, AList.lookup nonce s.nonce_store = some entry ∧ entry.binding = b ∧
      entry.used = false

/-- The clock reading of an event is what the clock showed. -/
theorem unix_of_reading {y : ServerMoment} {now : Int64}
    (h : y.event srv.machine = ⟨.now_unix, now⟩) : y.env.unix = now := by
  obtain ⟨i, s, o, e⟩ := y
  obtain rfl : o = .now_unix := congrArg Event.op h
  exact eq_of_heq (Event.mk.inj h).2

section runs
variable {now : Instant} {unix : Int64} {c : Config ops State Job} {ms : List ServerMoment}
variable {j : Nat}

/-- A nonce is inserted once. -/
theorem inserted_once (hrec : Recorded srv.machine srv.prog (srv.start now unix) c ms)
    (hnodup : (drawn c.log).Nodup) {pre post : List ServerMoment} {x y : ServerMoment}
    (hsplit : ms = pre ++ x :: post) (hy : y ∈ pre) (hyb : insertion_of y.op = some (nonce, b))
    (b' : Binding) : insertion_of x.op ≠ some (nonce, b') := by
  intro hx
  subst hsplit
  obtain ⟨c', job, next, hrec', -, htask⟩ := hrec.split
  have hsub : (drawn c'.log).Sublist (drawn c.log) := by
    rw [hrec.log, hrec'.log, List.map_append]
    exact (List.sublist_append_left _ _).filterMap _
  have hnodup' := hnodup.sublist hsub
  have hdemand := Reachable.next_guarded srv.prog_spend_demand hrec'.reachable htask
    (x.res srv.machine)
  obtain ⟨i, s, o, e⟩ := x
  obtain rfl := insertion_of_some hx
  have hmem : (y.task, y.event srv.machine) ∈ c'.log := by
    rw [hrec'.log]
    exact List.mem_map.mpr ⟨y, hy, rfl⟩
  exact not_inserted_before (nonce_inv hrec'.reachable hnodup') hnodup' hdemand _ hmem b hyb

/-- Step lemma: only task `j` can take the nonce away. -/
theorem Kept.step (hrec : Recorded srv.machine srv.prog (srv.start now unix) c ms)
    (hnodup : (drawn c.log).Nodup) (hclock : ∀ x ∈ ms, x.env.unix ≤ b.expires_at_unix)
    (hbearer : ∀ x ∈ ms, ∀ ip port at_unix,
      x.op = .nonce_consume nonce b.client_id ip port at_unix →
      consumption_of (x.event srv.machine) = some nonce → x.task = j)
    {pre post : List ServerMoment} {x : ServerMoment} (hsplit : ms = pre ++ x :: post)
    (h : Kept srv j nonce b x.state pre) :
    Kept srv j nonce b (x.after srv.machine) (pre ++ [x]) := by
  have hx : x ∈ ms := by rw [hsplit]; simp
  rintro ⟨y, hy, hyb⟩
  rcases List.mem_append.mp hy with hy | hy
  swap
  · -- the insertion itself
    obtain rfl := List.mem_singleton.mp hy
    exact .inr (perform_inserts_nonce hyb)
  · rcases h ⟨y, hy, hyb⟩ with ⟨z, hz, hzj, hzn⟩ | ⟨entry, hentry, hbinding, hunused⟩
    · exact .inl ⟨z, List.mem_append_left _ hz, hzj, hzn⟩
    by_cases hconsume : consumption_of (x.event srv.machine) = some nonce
    · -- a consumption is the bearer's
      refine .inl ⟨x, by simp, ?_, hconsume⟩
      obtain ⟨client_id, ip, port, at_unix, spent, hop, hr⟩ := consumption_of_perform hconsume
      obtain ⟨before, hbefore, husable, -, -⟩ := NonceStore.consume_ok hr
      obtain rfl : entry = before := Option.some.inj (hentry.symm.trans hbefore)
      have hclient : client_id = b.client_id := by
        rw [← husable.client, ← hbinding]
        rfl
      exact hbearer x hx ip port at_unix (hclient ▸ hop) hconsume
    · refine .inr ⟨entry, ?_, hbinding, hunused⟩
      refine perform_keeps_nonce hentry (inserted_once hrec hnodup hsplit hy hyb) hconsume ?_
      intro at_unix hop
      -- a purge goes by a reading of the clock
      subst hsplit
      obtain ⟨task, -, hdemand⟩ := hrec.guarded_at (P := fun _ => PresentDemand)
        srv.prog_present_demand
      have hread : ⟨.now_unix, at_unix⟩ ∈ done_by srv.machine x.task pre := by
        unfold PresentDemand at hdemand
        simpa only [Moment.event, hop] using hdemand
      obtain ⟨z, hz, -, hevent⟩ := mem_done_by.mp hread
      have hexpires : entry.expires_at_unix = b.expires_at_unix := by rw [← hbinding]; rfl
      rw [← unix_of_reading hevent, hexpires]
      exact hclock z (List.mem_append_left _ hz)

/-- Run lemma. -/
theorem nonce_kept (hrec : Recorded srv.machine srv.prog (srv.start now unix) c ms)
    (hnodup : (drawn c.log).Nodup) (hclock : ∀ x ∈ ms, x.env.unix ≤ b.expires_at_unix)
    (hbearer : ∀ x ∈ ms, ∀ ip port at_unix,
      x.op = .nonce_consume nonce b.client_id ip port at_unix →
      consumption_of (x.event srv.machine) = some nonce → x.task = j)
    {pre post : List ServerMoment} {x : ServerMoment} (hsplit : ms = pre ++ x :: post) :
    Kept srv j nonce b x.state pre := by
  have hrec' := hrec
  rw [hsplit] at hrec'
  obtain ⟨c', _, _, hinitial, hstate, -⟩ := hrec'.split
  rw [← hstate]
  refine hinitial.along (Kept srv j nonce b) ?_ ?_
  · rintro ⟨y, hy, -⟩
    cases hy
  · intro pre' x' post' hpre hkept
    have hsplit' : ms = pre' ++ x' :: (post' ++ x :: post) := by
      rw [hsplit, hpre]
      simp
    exact hkept.step hrec hnodup hclock hbearer hsplit'

/-- When the nonce was inserted before task `j` began, it is good whenever `j` presents it. -/
theorem honoured (hrec : Recorded srv.machine srv.prog (srv.start now unix) c ms)
    (hnodup : (drawn c.log).Nodup) (cr : Credential) {peer : SocketAddr} {expires : Int64}
    (hclock : ∀ x ∈ ms, x.env.unix ≤ expires)
    (hbearer : ∀ x ∈ ms, ∀ ip port at_unix,
      x.op = .nonce_consume cr.nonce.val cr.client_id.to_hex ip port at_unix →
      consumption_of (x.event srv.machine) = some cr.nonce.val → x.task = j)
    (hinserted : ∀ pre x post, ms = pre ++ x :: post → x.task = j → ∃ y ∈ pre, insertion_of y.op =
      some (cr.nonce.val, ⟨cr.client_id.to_hex, peer.ip, peer.port, expires⟩)) :
    ∀ ev ∈ done_by srv.machine j ms, Honoured cr peer expires ev := by
  intro ev hev
  obtain ⟨x, hx, hxj, rfl⟩ := mem_done_by.mp hev
  obtain ⟨pre, post, hsplit⟩ := List.append_of_mem hx
  have hkept := nonce_kept (b := ⟨cr.client_id.to_hex, peer.ip, peer.port, expires⟩) hrec
    hnodup hclock hbearer hsplit (hinserted pre x post hsplit hxj)
  subst hsplit
  obtain ⟨task, -, hdemand⟩ := hrec.guarded_at (P := fun _ => PresentDemand) srv.prog_present_demand
  -- a task that checks the nonce has not consumed it yet
  have hthere (hfirst : ∀ ev ∈ done_by srv.machine x.task pre, consumption_of ev = none) :
      ∃ entry, AList.lookup cr.nonce.val x.state.nonce_store = some entry ∧
        entry.binding = ⟨cr.client_id.to_hex, peer.ip, peer.port, expires⟩ ∧
        entry.used = false := by
    rcases hkept with ⟨y, hy, hyj, hyn⟩ | hthere
    · have hnone := hfirst _ (mem_done_by.mpr ⟨y, hy, hyj.trans hxj.symm, rfl⟩)
      rw [hyn] at hnone
      cases hnone
    · exact hthere
  -- and it checks it at a reading of the clock
  have husable {entry : NonceEntry} {at_unix : Int64}
      (hbinding : entry.binding = ⟨cr.client_id.to_hex, peer.ip, peer.port, expires⟩)
      (hunused : entry.used = false)
      (hread : ⟨.now_unix, at_unix⟩ ∈ done_by srv.machine x.task pre) :
      NonceStore.Usable entry cr.client_id.to_hex peer.ip peer.port at_unix := by
    obtain ⟨z, hz, -, hevent⟩ := mem_done_by.mp hread
    obtain ⟨client_id, ip, port, created, expires', used⟩ := entry
    obtain ⟨rfl, rfl, rfl, rfl⟩ := Binding.mk.inj hbinding
    refine ⟨hunused, ?_, rfl, rfl, rfl⟩
    rw [← unix_of_reading hevent]
    exact hclock z (List.mem_append_left _ hz)
  obtain ⟨i, s, o, e⟩ := x
  cases o
  case nonce_validate n client_id ip port at_unix =>
    rintro rfl rfl rfl rfl
    obtain ⟨hread, hfirst⟩ := hdemand
    obtain ⟨entry, hentry, hbinding, hunused⟩ := hthere hfirst
    refine ⟨entry, NonceStore.validate_ok.mpr ⟨hentry, husable hbinding hunused hread⟩, ?_⟩
    exact congrArg Binding.expires_at_unix hbinding
  case nonce_consume n client_id ip port at_unix =>
    rintro rfl rfl rfl rfl
    obtain ⟨hread, hfirst⟩ := hdemand
    obtain ⟨entry, hentry, hbinding, hunused⟩ := hthere hfirst
    exact NonceStore.consume_of_usable hentry (husable hbinding hunused hread)
  all_goals trivial

end runs

end kept

/-! ### Client and server -/

/-- The client and the server are set up for each other. -/
structure Matched (pulser : Pulser) (srv : Server) (info : ClientInfo) (param : Option Str) :
    Prop where
  /-- The server runs on an accepted configuration. -/
  settings : ∃ cfg : Config.ServerConfig, cfg.validate = some (.ok ()) ∧ srv.config = cfg.settings
  server_id : pulser.target.server_id = srv.config.server_id
  wire_encryption : pulser.target.wire_encryption = true ↔ srv.config.wire_encryption = .Required
  registered : AList.lookup pulser.client_id srv.clients = some info
  verifying_key : info.verifying_key = srv.crypto.verifying_key pulser.signing_key
  /-- The client has the public key of the server, if anything is to be sealed. -/
  encryption_key : pulser.target.wire_encryption = true ∨ param.isSome = true →
    ∃ secret, srv.server_secret = some secret ∧
      pulser.target.server_pub = some (srv.crypto.public_key secret)
  crypto : pulser.crypto = srv.crypto
  /-- What the client signs verifies under its key. -/
  signs : ∀ payload, srv.crypto.verify_strict (srv.crypto.verifying_key pulser.signing_key) payload
    (pulser.sign_payload_raw payload) = true

/-- What `decrypt_param` asks of a plaintext. -/
def ParamAllowed (srv : Server) (p : Str) : Prop :=
  (utf8 p).length ≤ srv.config.max_param_len ∧ p.any is_control = false ∧ p.head? ≠ some '-'

/-- An attempt of the client, and a run of the server in which the datagrams of the attempt arrive
    from `peer`: the HELLO is task `i`, the answer is task `j`. -/
structure Exchange (pulser : Pulser) (srv : Server) (peer : SocketAddr) (param : Option Str)
    (timeout : Duration) (mode : Mode) (evs : List (Event client_ops))
    (result : Except AttemptError Unit) (c : Config ops State Job) (ms : List ServerMoment)
    (i j : Nat) : Prop where
  attempt : (pulser.attempt_once param timeout mode).Yields evs result
  run : ∃ now unix, Recorded srv.machine srv.prog (srv.start now unix) c ms
  distinct : i ≠ j
  first : ∀ datagram, (Pulser.sent evs)[0]? = some datagram →
    ∃ task, c.tasks[i]? = some task ∧ task.job = .datagram datagram peer ∧ task.ended = true
  second : ∀ datagram, (Pulser.sent evs)[1]? = some datagram →
    ∃ task, c.tasks[j]? = some task ∧ task.job = .datagram datagram peer ∧ task.ended = true
  /-- What task `i` sends to the client is what the client receives. -/
  reply : ∀ datagram, (datagram, peer) ∈ replies (done_by srv.machine i ms) →
    ∀ outcome, ⟨.recv timeout, outcome⟩ ∈ evs → outcome = .received (datagram.take 2048)
  /-- The answer arrives after the CHALLENGE has been sent. -/
  later : ∀ pre x post, ms = pre ++ x :: post → x.task = i → sends (x.event srv.machine) = true →
    ∀ y ∈ pre, y.task ≠ j

/-- Nothing gets in the way of the exchange. -/
structure Undisturbed (pulser : Pulser) (srv : Server) (info : ClientInfo)
    (evs : List (Event client_ops)) (c : Config ops State Job) (ms : List ServerMoment)
    (i j : Nat) : Prop where
  delivered : ∀ ev ∈ evs, Pulser.delivered ev = true
  fits : ∀ datagram ∈ Pulser.sent evs, datagram.length ≤ srv.config.max_packet_size
  /-- Gates, rate limit and replay cache let both packets through. -/
  passes : ∀ ev ∈ done_by srv.machine i ms ++ done_by srv.machine j ms, passes ev = true
  skew : ∀ timestamp now, ⟨.now_unix, timestamp⟩ ∈ evs →
    ⟨.now_unix, now⟩ ∈ done_by srv.machine i ms →
    (now.toInt - timestamp.toInt).natAbs ≤ srv.config.hello_max_skew_seconds.toNat
  /-- The clocks stay within the lifetime of the nonce. -/
  in_time : ∀ now, ⟨.now_unix, now⟩ ∈ done_by srv.machine i ms →
    ∀ x ∈ ms, x.env.unix ≤ unix_deadline now srv.config.nonce_ttl_seconds
  /-- No nonce is drawn twice. -/
  fresh : (drawn c.log).Nodup
  /-- No other datagram bears the nonce with a signature of the client. -/
  bearer : ∀ k task cr peer' nonce expires, k ≠ j → c.tasks[k]? = some task →
    srv.credential_of task.job = some (cr, peer') →
    ⟨.nonce_generate, nonce⟩ ∈ done_by srv.machine i ms → cr.nonce.val = nonce.val →
    cr.client_id = pulser.client_id → srv.crypto.verify_strict info.verifying_key
      (cr.message srv.config.server_id expires) cr.signature = false

/-- How the server frames its reply to a datagram of the client. -/
def reply_mode (srv : Server) : Option X25519Bytes → ReplyMode
  | none => .Cleartext
  | some eph_secret => .Sealed (srv.crypto.public_key eph_secret)

section exchange
variable {pulser : Pulser} {srv : Server} {info : ClientInfo} {param : Option Str}

/-- The server reads what the client has framed. -/
theorem Matched.packet_of (h : Matched pulser srv info param) (hP : srv.crypto.Working)
    (packet : Packet) {datagram : Bytes} {session_secret : Option X25519Bytes}
    (hfits : ParamFits packet.param) (hframed : pulser.Framed packet datagram session_secret) :
    srv.packet_of datagram = some (packet, srv.reply_mode session_secret) := by
  have hdecode : Packet.decode packet.encode = .ok packet :=
    Packet.decode_eq_ok_iff.mpr ⟨hfits, rfl⟩
  unfold Server.packet_of unwrap
  cases session_secret with
  | none =>
    obtain ⟨hwire, rfl⟩ := hframed
    have hoff : srv.config.wire_encryption = .Off := by
      cases hmode : srv.config.wire_encryption with
      | Required =>
        rw [h.wire_encryption.mpr hmode] at hwire
        cases hwire
      | Off => rfl
    simp [hoff, hdecode, Except.toOption, reply_mode]
  | some eph_secret =>
    obtain ⟨hwire, server_pub, nonce_bytes, hpub, hseal⟩ := hframed
    obtain ⟨secret, hsecret, hpub'⟩ := h.encryption_key (.inl hwire)
    obtain rfl := Option.some.inj (hpub.symm.trans hpub')
    rw [h.crypto] at hseal
    have hopen := Primitives.open_seal hP.toSealing hseal
    simp [h.wire_encryption.mp hwire, hsecret, hopen, hdecode, Except.toOption, reply_mode]

/-- The client reads what the server has framed. -/
theorem Matched.read_challenge (h : Matched pulser srv info param) (hP : srv.crypto.Working)
    {packet : Packet} {first : Bytes} {session_secret : Option X25519Bytes}
    (hfirst : pulser.Framed packet first session_secret) {hello_nonce : ByteVec HELLO_NONCE_LEN}
    (challenge : Challenge) (hclient : challenge.client_id = pulser.client_id) {datagram : Bytes}
    (hframed : srv.Framed (.Challenge challenge) hello_nonce.val datagram
      (srv.reply_mode session_secret)) :
    pulser.read_challenge (datagram.take 2048) session_secret hello_nonce = .ok challenge := by
  have hdecode : Packet.decode (Packet.Challenge challenge).encode = .ok (.Challenge challenge) :=
    Packet.decode_eq_ok_iff.mpr ⟨.none, rfl⟩
  have hlength := length_encode_challenge challenge
  unfold Pulser.read_challenge Pulser.unframe_inbound
  cases session_secret with
  | none =>
    obtain ⟨hwire, -⟩ := hfirst
    obtain rfl : datagram = (Packet.Challenge challenge).encode := hframed
    rw [List.take_of_length_le (by omega)]
    simp [hwire, hdecode, hclient]
  | some eph_secret =>
    obtain ⟨hwire, server_pub, -, hpub, -⟩ := hfirst
    obtain ⟨secret, hsecret, hpub'⟩ := h.encryption_key (.inl hwire)
    obtain rfl := Option.some.inj (hpub.symm.trans hpub')
    obtain ⟨secret', nonce_bytes, hsecret', hseal⟩ := hframed
    obtain rfl : secret = secret' := Option.some.inj (hsecret.symm.trans hsecret')
    have hdatagram := Primitives.length_of_seal_reply hP.toTagged hseal
    rw [List.take_of_length_le (by omega)]
    have hopen := Primitives.open_reply_seal_reply hP.toSealing hseal
    simp [hwire, hpub, h.crypto, hopen, hdecode, hclient]

/-- The server opens the parameter that the client has sealed. -/
theorem Matched.decrypt_param (h : Matched pulser srv info param) (hP : srv.crypto.Working)
    (hallowed : ∀ p, param = some p → ParamAllowed srv p) {param_blob : Option Bytes}
    (hsealed : pulser.SealedParam param param_blob) :
    srv.decrypt_param param_blob = pure (.ok param) := by
  cases param with
  | none =>
    obtain rfl : param_blob = none := hsealed
    rfl
  | some p =>
    obtain ⟨server_pub, eph_secret, nonce_bytes, blob, hpub, rfl, hseal⟩ := hsealed
    obtain ⟨secret, hsecret, hpub'⟩ := h.encryption_key (.inr rfl)
    obtain rfl := Option.some.inj (hpub.symm.trans hpub')
    obtain ⟨hlength, hcontrol, hminus⟩ := hallowed p rfl
    rw [h.crypto] at hseal
    rw [decrypt_param_eq_pure, open_param_of_open hsecret (Primitives.open_seal hP.toSealing hseal),
      if_neg (Nat.not_lt.mpr hlength), if_neg (by simp [hcontrol]), if_neg hminus]

/-- What the client signs for this server is verified by this server. -/
theorem Matched.verifies (h : Matched pulser srv info param) (payload : Bytes) :
    srv.crypto.verify_payload_raw info.verifying_key payload (pulser.sign_payload_raw payload) =
      .ok () := by
  unfold Primitives.verify_payload_raw
  rw [h.verifying_key, if_pos (h.signs payload)]

/-- The gates send nothing and have no consequences. -/
theorem gates_quiet {h : List (Event ops)}
    (hareas : ∀ ev ∈ h, ev.op.area ∈ [Area.blacklist, .lockdown, .active, .inflight]) :
    replies h = [] ∧ consequences h = [] := by
  unfold replies consequences
  rw [List.filterMap_eq_nil_iff, List.filterMap_eq_nil_iff]
  constructor
  · intro ev hev
    have harea := hareas ev hev
    split
    · rename_i hop
      rw [hop] at harea
      simp [Op.area] at harea
    · rfl
  · intro ev hev
    have harea := hareas ev hev
    obtain ⟨o, r⟩ := ev
    cases o <;> first | rfl | (simp [Op.area] at harea)

section tasks
variable {peer : SocketAddr} {timeout : Duration} {mode : Mode} {evs : List (Event client_ops)}
variable {result : Except AttemptError Unit} {c : Config ops State Job}
variable {ms : List ServerMoment} {i j : Nat}

/-- The HELLO is answered. -/
theorem hello_answered (hmatched : Matched pulser srv info param) (hP : srv.crypto.Working)
    (hexchange : Exchange pulser srv peer param timeout mode evs result c ms i j)
    (hundisturbed : Undisturbed pulser srv info evs c ms i j) {timestamp : Int64}
    {hello_nonce : ByteVec HELLO_NONCE_LEN} {first : Bytes} {session_secret : Option X25519Bytes}
    (hframed : pulser.Framed (.Hello (pulser.hello timestamp hello_nonce)) first session_secret)
    (hsent : (Pulser.sent evs)[0]? = some first) (htime : ⟨.now_unix, timestamp⟩ ∈ evs) :
    Answered srv (pulser.hello timestamp hello_nonce) peer (srv.reply_mode session_secret)
      (done_by srv.machine i ms) := by
  obtain ⟨now, unix, hrec⟩ := hexchange.run
  obtain ⟨task, htask, hjob, hend⟩ := hexchange.first first hsent
  have hpacket := hmatched.packet_of hP (.Hello (pulser.hello timestamp hello_nonce)) .none
    hframed
  -- a sealed HELLO was sealed to the key that the server has
  have hreply : CanReply srv (srv.reply_mode session_secret) := by
    intro peer_eph hsealed
    cases session_secret with
    | none => cases hsealed
    | some eph_secret =>
      obtain ⟨secret, hsecret, -⟩ := hmatched.encryption_key (.inl hframed.1)
      exact ⟨secret, eph_secret, hsecret, (ReplyMode.Sealed.inj hsealed).symm⟩
  have hverified := hmatched.verifies (srv.hello_payload (pulser.hello timestamp hello_nonce))
  -- both sides sign the same payload, under the same server_id
  have hsignature : (pulser.hello timestamp hello_nonce).signature = pulser.sign_payload_raw
      (srv.hello_payload (pulser.hello timestamp hello_nonce)) := by
    unfold hello_payload Pulser.hello
    rw [hmatched.server_id]
  rw [← hsignature] at hverified
  -- the task of the HELLO has ended, and at each of its steps nothing stood in the way
  refine hrec.ended_favoured (G := fun ev => passes ev = true ∧ Computed srv ev ∧
    InSkew srv (pulser.hello timestamp hello_nonce) ev) ?_ htask hend ?_
  · rw [hjob]
    refine receive_open (fun ev hG => hG.1) (hundisturbed.fits first (List.mem_of_getElem? hsent))
      ?_ ?_
    · rintro h r ⟨now, nonce, datagram, hnow, hnonce, hinsert, hframed, hreplies, hnothing⟩
      refine ⟨now, nonce, datagram, List.mem_append_left _ hnow, List.mem_append_left _ hnonce,
        List.mem_append_left _ hinsert, hframed, ?_, ?_⟩
      · rw [replies_append, hreplies]
        rfl
      · rw [consequences_append, hnothing]
        rfl
    · intro h hareas
      obtain ⟨hreplies, hnothing⟩ := gates_quiet hareas
      rw [handle_datagram_of_packet hpacket]
      exact handle_hello_open (fun ev hG => hG) hP hreply hmatched.registered hverified hreplies
        hnothing
  · intro ev hev
    obtain ⟨x, hx, -, rfl⟩ := mem_done_by.mp hev
    refine ⟨hundisturbed.passes _ (List.mem_append_left _ hev), perform_computed srv _ _ _, ?_⟩
    unfold InSkew
    split
    · rename_i now hreading
      rw [hreading] at hev
      exact decide_eq_true (hundisturbed.skew timestamp now htime hev)
    · trivial

/-- The nonce is in the store before the answer arrives. -/
theorem inserted_before
    (hexchange : Exchange pulser srv peer param timeout mode evs result c ms i j)
    {nonce client_id : _} {expires : Int64} {datagram : Bytes}
    (hinserted : ⟨.nonce_insert nonce client_id peer.ip peer.port expires, ()⟩ ∈
      done_by srv.machine i ms)
    (hreplies : replies (done_by srv.machine i ms) = [(datagram, peer)]) :
    ∀ pre x post, ms = pre ++ x :: post → x.task = j → ∃ y ∈ pre,
      insertion_of y.op = some (nonce, ⟨client_id, peer.ip, peer.port, expires⟩) := by
  obtain ⟨now, unix, hrec⟩ := hexchange.run
  -- the moment of the reply, and the insertion that came before it
  have hsends : (datagram, peer) ∈ replies (done_by srv.machine i ms) := by simp [hreplies]
  obtain ⟨ev, hev, hreply⟩ := List.mem_filterMap.mp hsends
  obtain ⟨z, hz, rfl, rfl⟩ := mem_done_by.mp hev
  obtain ⟨pre', post', hsplit'⟩ := List.append_of_mem hz
  have hearlier : (⟨.nonce_insert nonce client_id peer.ip peer.port expires, ()⟩ : Event ops) ∈
      done_by srv.machine z.task pre' := by
    have hrec' := hrec
    rw [hsplit'] at hrec'
    obtain ⟨task, -, hdemand⟩ := hrec'.guarded_at srv.prog_spend_demand
    obtain ⟨k, s, o, e⟩ := z
    cases o
    case send_to =>
      obtain ⟨hello, peer', nonce', expires', -, -, hinserted', -⟩ := hdemand
      have hsame := insert_once hrec.reachable (hrec.mem_log.mpr hinserted)
        (hrec.mem_log.mpr (by
          rw [hsplit', done_by_append]
          exact List.mem_append_left _ hinserted')) rfl rfl
      obtain ⟨rfl, rfl, hip, hport, rfl⟩ := Op.nonce_insert.inj hsame
      rwa [hip, hport]
    all_goals cases hreply
  obtain ⟨y, hy, hyi, hyev⟩ := mem_done_by.mp hearlier
  intro pre x post hsplit hxj
  refine ⟨y, ?_, by rw [show y.op = _ from congrArg Event.op hyev]; rfl⟩
  -- nothing that task `j` does comes before the reply
  have hnot : x ∉ pre' := by
    intro hx
    have hz_sends : sends (z.event srv.machine) = true := by
      obtain ⟨k, s, o, e⟩ := z
      cases o
      case send_to => rfl
      all_goals cases hreply
    exact hexchange.later pre' z post' hsplit' rfl hz_sends x hx hxj
  have hprefix : pre' <+: ms := ⟨z :: post', hsplit'.symm⟩
  have hprefix' : pre ++ [x] <+: ms := ⟨post, by simp [hsplit]⟩
  rcases List.prefix_or_prefix_of_prefix hprefix hprefix' with hlater | hsooner
  · rcases List.mem_append.mp (hlater.subset hy) with hy | hy
    · exact hy
    · rw [List.mem_singleton.mp hy, hxj] at hyi
      exact absurd hyi.symm hexchange.distinct
  · exact absurd (hsooner.subset (by simp)) hnot

/-- Only the answer can consume the nonce. -/
theorem consumed_by_bearer (hmatched : Matched pulser srv info param)
    (hexchange : Exchange pulser srv peer param timeout mode evs result c ms i j)
    (hundisturbed : Undisturbed pulser srv info evs c ms i j) {nonce : ByteVec NONCE_LEN}
    (hdrawn : ⟨.nonce_generate, nonce⟩ ∈ done_by srv.machine i ms) :
    ∀ x ∈ ms, ∀ ip port at_unix,
      x.op = .nonce_consume nonce.val pulser.client_id.to_hex ip port at_unix →
      consumption_of (x.event srv.machine) = some nonce.val → x.task = j := by
  obtain ⟨now, unix, hrec⟩ := hexchange.run
  intro x hx ip port at_unix hop _
  by_contra hother
  obtain ⟨pre, post, rfl⟩ := List.append_of_mem hx
  obtain ⟨task, htask, hdemand⟩ := hrec.guarded_at srv.prog_consume_demand
  unfold ConsumeDemand at hdemand
  simp only [Moment.event, hop] at hdemand
  obtain ⟨cr, peer', hcredential, hnonce, hclient, -, -, info', _, entry, hinfo', -, hverified⟩ :=
    hdemand
  have hid : cr.client_id = pulser.client_id := (ClientId.to_hex_injective hclient).symm
  obtain rfl : info = info' := by
    rw [hid] at hinfo'
    exact Option.some.inj (hmatched.registered.symm.trans hinfo')
  have hfalse := hundisturbed.bearer x.task task cr peer' nonce entry.expires_at_unix hother htask
    hcredential hdrawn hnonce.symm hid
  -- a signature check that succeeded is a signature that verifies
  obtain ⟨z, -, -, hevent⟩ := mem_done_by.mp hverified
  have hcomputed := perform_computed srv z.op z.env z.state
  rw [show (⟨z.op, (srv.perform z.op z.env z.state).1⟩ : Event ops) = _ from hevent] at hcomputed
  have hok : .ok () = srv.crypto.verify_payload_raw info.verifying_key
    (cr.message srv.config.server_id entry.expires_at_unix) cr.signature := hcomputed
  unfold Primitives.verify_payload_raw at hok
  rw [hfalse] at hok
  cases hok

/-- The answer is handled as its credential deserves. -/
theorem answer_handled (hexchange : Exchange pulser srv peer param timeout mode evs result c ms i j)
    (hundisturbed : Undisturbed pulser srv info evs c ms i j) {cr : Credential} {expires : Int64}
    (hhonoured : ∀ ev ∈ done_by srv.machine j ms, Honoured cr peer expires ev) {second : Bytes}
    (hsent : (Pulser.sent evs)[1]? = some second) {Q : List Consequence → Prop}
    (hhandler : ∀ h, consequences h = [] →
      Program.wp (Program.favoured (fun ev => passes ev = true ∧ Computed srv ev ∧
        Honoured cr peer expires ev)) (fun _ h' => Q (consequences h'))
        (srv.handle_datagram second peer) h) : Q (consequences (done_by srv.machine j ms)) := by
  obtain ⟨now, unix, hrec⟩ := hexchange.run
  obtain ⟨task, htask, hjob, hend⟩ := hexchange.second second hsent
  refine hrec.ended_favoured (Q := fun evs => Q (consequences evs)) (G := fun ev =>
    passes ev = true ∧ Computed srv ev ∧ Honoured cr peer expires ev) ?_ htask hend ?_
  · rw [hjob]
    refine receive_open (fun ev hG => hG.1) (hundisturbed.fits second (List.mem_of_getElem? hsent))
      ?_ fun h hareas => hhandler h (gates_quiet hareas).2
    intro h r hQ
    have hsame : consequences (h ++ [⟨.inflight_release, r⟩]) = consequences h := by
      rw [consequences_append]
      exact List.append_nil _
    rwa [hsame]
  · intro ev hev
    obtain ⟨x, -, -, rfl⟩ := mem_done_by.mp hev
    exact ⟨hundisturbed.passes _ (List.mem_append_right _ hev), perform_computed srv _ _ _,
      hhonoured _ hev⟩

end tasks

/-! ### The whole exchange -/

/-- The table holds this lease of the client from then on; when it is full, it only takes the lease
    of a client that has one already. -/
def LeaseHeld (before after : LeaseTracker) (client_hex : Str) (lease : Lease) : Prop :=
  if before.HasRoom client_hex then
    ∀ id, after.entry id = if id = client_hex then some lease else before.entry id
  else after = before

/-- The lease of the client is gone and reported, and no other lease is touched. -/
def LeaseRemoved (before after : LeaseTracker) (client_hex : Str)
    (ended : Option (ExpiredLease × Nat)) : Prop :=
  (∀ id, after.entry id = if id = client_hex then none else before.entry id) ∧
    ended.map Prod.fst = (before.entry client_hex).map (fun l => l.ended client_hex)

theorem lease_held {x : ServerMoment} {client_hex : Str} {peer : SocketAddr} {ttl : Duration}
    {is_new : Bool} (h : x.event srv.machine =
      ⟨.leases_renew client_hex peer.ip peer.port param ttl, is_new⟩) :
    LeaseHeld x.state.leases (x.after srv.machine).leases client_hex
      { expires_at := (x.after srv.machine).now + ttl, ip := peer.ip, source_port := peer.port,
        param := param } := by
  obtain ⟨k, s, o, e⟩ := x
  obtain rfl : o = .leases_renew client_hex peer.ip peer.port param ttl := congrArg Event.op h
  unfold LeaseHeld
  split
  · rename_i hroom
    exact fun id => LeaseTracker.entry_renew_at hroom
  · rename_i hfull
    exact LeaseTracker.renew_at_full hfull

theorem lease_removed {x : ServerMoment} {client_hex : Str} {ended : Option (ExpiredLease × Nat)}
    (h : x.event srv.machine = ⟨.leases_release client_hex, ended⟩) :
    LeaseRemoved x.state.leases (x.after srv.machine).leases client_hex ended := by
  obtain ⟨k, s, o, e⟩ := x
  obtain rfl : o = .leases_release client_hex := congrArg Event.op h
  obtain rfl : (s.leases.release_at client_hex (tick s e).now).1 = ended :=
    eq_of_heq (Event.mk.inj h).2
  refine ⟨fun id => LeaseTracker.entry_release_at, ?_⟩
  cases hended : (s.leases.release_at client_hex (tick s e).now).1 with
  | none =>
    show none = (s.leases.entry client_hex).map _
    rw [LeaseTracker.entry_of_release_none hended]
    rfl
  | some ended =>
    obtain ⟨l, hl, hreport, -⟩ := LeaseTracker.release_at_some (e := ended.1) hended
    show some ended.1 = (s.leases.entry client_hex).map _
    rw [hl, hreport]
    rfl

/-- A client that is set up for the server is served: one attempt that nothing gets in the way of
    is one verified pulse of the client from its address with its parameter, or one release of its
    lease. -/
theorem attempt_once_accepted (hmatched : Matched pulser srv info param) (hP : srv.crypto.Working)
    (hallowed : ∀ p, param = some p → ParamAllowed srv p) {peer : SocketAddr} {timeout : Duration}
    {mode : Mode} {evs : List (Event client_ops)} {result : Except AttemptError Unit}
    {c : Config ops State Job} {ms : List ServerMoment} {i j : Nat}
    (hexchange : Exchange pulser srv peer param timeout mode evs result c ms i j)
    (hundisturbed : Undisturbed pulser srv info evs c ms i j) :
    result = .ok () ∧ (Pulser.sent evs).length = 2 ∧
      consequences (done_by srv.machine i ms) = [] ∧
      match mode with
      | .Renew =>
        PulseAccepted pulser.client_id.to_hex info.name peer param
          (consequences (done_by srv.machine j ms)) ∧
        ∀ x ∈ ms, x.task = j → ∀ ttl is_new, x.event srv.machine =
            ⟨.leases_renew pulser.client_id.to_hex peer.ip peer.port param ttl, is_new⟩ →
          LeaseHeld x.state.leases (x.after srv.machine).leases pulser.client_id.to_hex
            { expires_at := (x.after srv.machine).now + ttl, ip := peer.ip,
              source_port := peer.port, param := param }
      | .Release =>
        ByeAccepted srv pulser.client_id.to_hex param
          (consequences (done_by srv.machine j ms)) ∧
        ∀ x ∈ ms, x.task = j → ∀ ended,
          x.event srv.machine = ⟨.leases_release pulser.client_id.to_hex, ended⟩ →
          LeaseRemoved x.state.leases (x.after srv.machine).leases pulser.client_id.to_hex
            ended := by
  have hmax : srv.config.max_param_len ≤ 60000 := by
    obtain ⟨cfg, hvalid, hsettings⟩ := hmatched.settings
    have hchecks := (Config.ServerConfig.validate_ok hvalid).1
    unfold Config.ServerConfig.checks at hchecks
    simp only [List.mem_cons, List.not_mem_nil, or_false, forall_eq_or_imp, forall_eq] at hchecks
    obtain ⟨-, -, -, -, -, -, -, -, -, -, hparam⟩ := hchecks
    rw [hsettings]
    simp only [Bool.or_eq_false_iff, decide_eq_false_iff_not] at hparam
    exact Nat.not_lt.mp hparam.2
  have hlength : ∀ p, param = some p → (utf8 p).length ≤ 60000 :=
    fun p hp => (hallowed p hp).1.trans hmax
  have hkey : pulser.HasKey param := by
    intro hneeded
    obtain ⟨secret, -, hpub⟩ := hmatched.encryption_key hneeded
    exact ⟨secret, by rw [hmatched.crypto]; exact hpub⟩
  have hP' : pulser.crypto.Working := by
    rw [hmatched.crypto]
    exact hP
  obtain ⟨timestamp, nonce', first, session_secret, outcome, hhello, hrecv, hrest⟩ :=
    Pulser.attempt_completes hP' hkey hlength hexchange.attempt hundisturbed.delivered
  have hframed := hhello.framed
  -- the server answers the HELLO, and the client reads the CHALLENGE
  obtain ⟨now, nonce, datagram, hnow, hdrawn, hinserted, hchallenge, hreplies, hquiet⟩ :=
    hello_answered hmatched hP hexchange hundisturbed hframed hhello.first hhello.dated
  have hreceived := hexchange.reply datagram (by simp [hreplies]) outcome hrecv
  have hread := hmatched.read_challenge hP hframed
    ⟨pulser.client_id, nonce, unix_deadline now srv.config.nonce_ttl_seconds⟩ rfl
    hchallenge
  rcases hrest with ⟨received, challenge, houtcome, hread', hanswered, hresult⟩ | ⟨hunread, -, -⟩
  swap
  · exact absurd hread (hunread _ _ hreceived)
  obtain rfl : datagram.take 2048 = received :=
    RecvOutcome.received.inj (hreceived.symm.trans houtcome)
  obtain rfl := Except.ok.inj (hread.symm.trans hread')
  obtain ⟨param_blob, second, session_secret', hsealed, hfits, hframed', hsent⟩ := hanswered
  have hsecond : (Pulser.sent evs)[1]? = some second := by rw [hsent]; rfl
  refine ⟨hresult, by rw [hsent]; rfl, hquiet, ?_⟩
  -- the answer finds its nonce in the store
  have hbefore := inserted_before hexchange hinserted hreplies
  have hbearer := consumed_by_bearer hmatched hexchange hundisturbed hdrawn
  have hclock := hundisturbed.in_time now hnow
  obtain ⟨start, unix, hrec⟩ := hexchange.run
  have hparam := hmatched.decrypt_param hP hallowed hsealed
  obtain ⟨challenge, hchallenge'⟩ : ∃ challenge : Challenge, challenge =
    ⟨pulser.client_id, nonce, unix_deadline now srv.config.nonce_ttl_seconds⟩ := ⟨_, rfl⟩
  rw [← hchallenge'] at hframed'
  have hnonce : challenge.nonce = nonce := by rw [hchallenge']
  have hmessage (payload : Str → Str → Str → UInt32 → Int64 → Str → Bytes) :
      payload srv.config.server_id pulser.client_id.to_hex (base64 challenge.nonce.val)
        pulser.interval_seconds (unix_deadline now srv.config.nonce_ttl_seconds)
        ((param_blob.map base64).getD []) =
      pulser.final_payload payload challenge param_blob := by
    unfold Pulser.final_payload
    rw [hmatched.server_id, hchallenge']
  cases mode with
  | Renew =>
    refine ⟨?_, fun x _ _ ttl is_new hevent => lease_held hevent⟩
    have hpacket := hmatched.packet_of hP (.Response (pulser.response challenge param_blob))
      hfits hframed'
    have hhonoured := honoured hrec hundisturbed.fresh
      (pulser.response challenge param_blob).credential hclock (hnonce ▸ hbearer) (hnonce ▸ hbefore)
    refine answer_handled hexchange hundisturbed hhonoured hsecond fun h hnothing => ?_
    rw [handle_datagram_of_packet hpacket]
    refine handle_response_open (pulser.response challenge param_blob)
      (unix_deadline now srv.config.nonce_ttl_seconds) (fun ev hG => hG.2)
      hmatched.registered ?_ hparam hnothing
    have hsigned : (pulser.response challenge param_blob).credential.message srv.config.server_id
        (unix_deadline now srv.config.nonce_ttl_seconds) =
        pulser.final_payload response_signing_payload challenge param_blob :=
      hmessage response_signing_payload
    rw [hsigned]
    exact hmatched.verifies _
  | Release =>
    refine ⟨?_, fun x _ _ ended hevent => lease_removed hevent⟩
    have hpacket := hmatched.packet_of hP (.Bye (pulser.bye challenge param_blob))
      hfits hframed'
    have hhonoured := honoured hrec hundisturbed.fresh
      (pulser.bye challenge param_blob).credential hclock (hnonce ▸ hbearer) (hnonce ▸ hbefore)
    refine answer_handled hexchange hundisturbed hhonoured hsecond fun h hnothing => ?_
    rw [handle_datagram_of_packet hpacket]
    refine handle_bye_open (pulser.bye challenge param_blob)
      (unix_deadline now srv.config.nonce_ttl_seconds) (fun ev hG => hG.2)
      hmatched.registered ?_ hparam hnothing
    have hsigned : (pulser.bye challenge param_blob).credential.message srv.config.server_id
        (unix_deadline now srv.config.nonce_ttl_seconds) =
        pulser.final_payload bye_signing_payload challenge param_blob :=
      hmessage bye_signing_payload
    rw [hsigned]
    exact hmatched.verifies _

end exchange

/-! ### A sample exchange -/

theorem sealing_crypto_working : sealing_crypto.Working where
  toSealing := sealing_crypto_sealing
  toTagged := sealing_crypto_tagged
  contributory _ _ := rfl
  encrypts _ _ _ _ _ := ⟨_, rfl⟩

/-- An accepted configuration over a cleartext wire. -/
def meeting_config (max_tracked_ips : Nat) : Config.ServerConfig :=
  let cfg := Config.two_clients (Config.padded_id ['0', 'f']) (Config.padded_id ['f', '0'])
  { cfg with server := { cfg.server with max_tracked_ips := max_tracked_ips } }

def meeting_server (max_tracked_ips : Nat) : Server :=
  { sample with config := (meeting_config max_tracked_ips).settings, crypto := sealing_crypto }

/-- Client 1. -/
def meeting_pulser : Pulser where
  signing_key := filled 32 1
  client_id := sample_id 1
  target :=
    { name := "gate".toList
      server_id := "gate".toList
      server_addr := "192.0.2.9:7370".toList
      server_pub := none
      wire_encryption := false
      interval := 60000000000
      retry_initial := 1000000000
      retry_max := 4000000000
      retries := 3
      param_command := none
      param_command_timeout := 1000000000
      param_max_len := 256 }
  crypto := sealing_crypto
  sign _ _ := filled 64 0

/-- What the client is answered: a CHALLENGE with nonce 1. -/
def meeting_answer : (o : ClientOp) → o.Res
  | .now_unix => 1000
  | .nonce_generate => filled 32 5
  | .seal_draws => (filled 32 9, filled 24 1)
  | .send _ => true
  | .recv _ => .received (Packet.Challenge ⟨sample_id 1, filled 32 1, 1030⟩).encode

/-- The attempt of the client. -/
def meeting_attempt : List (Event client_ops) × Except AttemptError Unit :=
  (meeting_pulser.attempt_once none 1000000000 .Renew).follow meeting_answer

/-- Client 2 pulses, and then the datagrams of client 1 arrive. -/
def meeting : List (Label Env Job) :=
  sample_task 0 2 (.Hello (sample_hello 2 1000 1)) 14 (sample_env 1000 2) ++
  sample_task 1 2 (.Response (sample_response 2 2)) 21 (sample_env 1000 0) ++
  ((Pulser.sent meeting_attempt.1).zipIdx 2).flatMap fun x =>
    .begin (.datagram x.1 (sample_peer 1)) ::
      List.replicate (if x.2 = 2 then 14 else 21) (.run x.2 (sample_env 1000 1))

/-- The job of task `i` is to handle the datagram of client 1. -/
def handles (c : Config ops State Job) (i : Nat) (datagram : Bytes) : Bool :=
  match c.tasks[i]? with
  | some task =>
    match task.job with
    | .datagram data peer => decide (data = datagram) && decide (peer = sample_peer 1) && task.ended
    | .cleanup => false
  | none => false

theorem task_of_handles {c : Config ops State Job} {i : Nat} {datagram : Bytes}
    (h : handles c i datagram = true) :
    ∃ task, c.tasks[i]? = some task ∧ task.job = .datagram datagram (sample_peer 1) ∧
      task.ended = true := by
  unfold handles at h
  split at h
  swap
  · cases h
  rename_i task htask
  split at h
  swap
  · cases h
  rename_i data peer hjob
  simp only [Bool.and_eq_true, decide_eq_true_eq] at h
  obtain ⟨⟨rfl, rfl⟩, hend⟩ := h
  exact ⟨task, htask, hjob, hend⟩

/-- What an event of task 2 or 3 has to be like; `reply` is the CHALLENGE. -/
def meets_sample (x : Nat × Event ops) : Bool :=
  (x.1 < 2 || passes x.2) &&
  (x.1 != 2 ||
    match x.2 with
    | ⟨.now_unix, now⟩ => decide (now = 1000)
    | ⟨.nonce_generate, nonce⟩ => decide (nonce.val = List.replicate 32 1)
    | ⟨.send_to datagram _, _⟩ => decide (RecvOutcome.received (datagram.take 2048) =
        meeting_answer (.recv 1000000000))
    | _ => true)

/-- No task but the last one presents the nonce of client 1. -/
def others_nonce (srv : Server) (x : Task ops Job × Nat) : Bool :=
  x.2 == 3 ||
    match srv.credential_of x.1.job with
    | some (cr, _) => decide (cr.nonce.val ≠ List.replicate 32 1)
    | none => true

def meeting_check (srv : Server) (t : Config ops State Job × List ServerMoment) : Bool :=
  ((Pulser.sent meeting_attempt.1).zipIdx 2).all (fun x => handles t.1 x.2 x.1) &&
  t.1.log.all meets_sample && t.1.tasks.zipIdx.all (others_nonce srv) &&
  t.2.all (fun x => decide (x.env.unix ≤ 1030)) && decide (drawn t.1.log).Nodup &&
  decide (t.2.Pairwise (fun x y => x.task ≤ y.task))

theorem meeting_matched (max_tracked_ips : Nat) (info : ClientInfo)
    (hinfo : info = { verifying_key := filled 32 1, name := ['a'] })
    (hvalid : (meeting_config max_tracked_ips).validate = some (.ok ())) :
    Matched meeting_pulser (meeting_server max_tracked_ips) info none where
  settings := ⟨meeting_config max_tracked_ips, hvalid, rfl⟩
  server_id := rfl
  wire_encryption := ⟨fun h => (by cases h), fun h => (by cases h)⟩
  registered := by
    rw [hinfo]
    rfl
  verifying_key := by
    rw [hinfo]
    rfl
  encryption_key := by
    rintro (h | h)
    · cases h
    · cases h
  crypto := rfl
  signs _ := rfl

theorem meeting_outcome : ∀ outcome, ⟨.recv 1000000000, outcome⟩ ∈ meeting_attempt.1 →
    outcome = meeting_answer (.recv 1000000000) := by
  intro outcome hmem
  have hall : meeting_attempt.1.all (fun ev =>
      match ev with
      | ⟨.recv _, outcome⟩ => decide (outcome = meeting_answer (.recv 1000000000))
      | _ => true) = true := by decide +kernel
  exact of_decide_eq_true (List.all_eq_true.mp hall _ hmem)

theorem meeting_time : ∀ timestamp : Int64, ⟨.now_unix, timestamp⟩ ∈ meeting_attempt.1 →
    timestamp = 1000 := by
  intro timestamp hmem
  have hall : meeting_attempt.1.all (fun ev =>
      match ev with
      | ⟨.now_unix, timestamp⟩ => decide (timestamp = 1000)
      | _ => true) = true := by decide +kernel
  exact of_decide_eq_true (List.all_eq_true.mp hall _ hmem)

/-- A run that passes the check is an exchange that nothing gets in the way of. -/
theorem meeting_undisturbed {max_tracked_ips : Nat} {t : Config ops State Job × List ServerMoment}
    (hrec : Recorded (meeting_server max_tracked_ips).machine (meeting_server max_tracked_ips).prog
      ((meeting_server max_tracked_ips).start 0 1000) t.1 t.2)
    (hcheck : meeting_check (meeting_server max_tracked_ips) t = true) (info : ClientInfo) :
    Exchange meeting_pulser (meeting_server max_tracked_ips) (sample_peer 1) none 1000000000 .Renew
        meeting_attempt.1 meeting_attempt.2 t.1 t.2 2 3 ∧
      Undisturbed meeting_pulser (meeting_server max_tracked_ips) info meeting_attempt.1 t.1 t.2
        2 3 := by
  simp only [meeting_check, Bool.and_eq_true, decide_eq_true_eq] at hcheck
  obtain ⟨⟨⟨⟨⟨hhandles, hlog⟩, hothers⟩, htimes⟩, hfresh⟩, hsorted⟩ := hcheck
  have hlength : (Pulser.sent meeting_attempt.1).length = 2 := by decide +kernel
  obtain ⟨first, second, hsent⟩ := List.length_eq_two.mp hlength
  rw [hsent] at hhandles
  have hmeets {k : Nat} {ev : Event ops}
      (hev : ev ∈ done_by (meeting_server max_tracked_ips).machine k t.2) :
      meets_sample (k, ev) = true := List.all_eq_true.mp hlog _ (hrec.mem_log.mpr hev)
  have hnow {now : Int64}
      (hev : ⟨.now_unix, now⟩ ∈ done_by (meeting_server max_tracked_ips).machine 2 t.2) :
      now = 1000 := by
    have hsample := hmeets hev
    simp only [meets_sample, Bool.and_eq_true] at hsample
    exact of_decide_eq_true hsample.2
  constructor
  · refine ⟨Program.yields_follow _ _, ⟨0, 1000, hrec⟩, by decide, ?_, ?_, ?_, ?_⟩
    · intro datagram hdatagram
      rw [hsent] at hdatagram
      obtain rfl : first = datagram := Option.some.inj hdatagram
      exact task_of_handles (List.all_eq_true.mp hhandles (first, 2) (by simp))
    · intro datagram hdatagram
      rw [hsent] at hdatagram
      obtain rfl : second = datagram := Option.some.inj hdatagram
      exact task_of_handles (List.all_eq_true.mp hhandles (second, 3) (by simp))
    · intro datagram hdatagram outcome houtcome
      rw [meeting_outcome outcome houtcome]
      obtain ⟨ev, hev, hreply⟩ := List.mem_filterMap.mp hdatagram
      have hsample := hmeets hev
      obtain ⟨o, r⟩ := ev
      cases o
      case send_to data dest =>
        obtain ⟨rfl, -⟩ := Prod.mk.inj (Option.some.inj hreply)
        have hreceived : RecvOutcome.received (data.take 2048) =
            meeting_answer (.recv 1000000000) := by
          simp only [meets_sample, Bool.and_eq_true] at hsample
          simpa using hsample.2
        exact hreceived.symm
      all_goals cases hreply
    · rintro pre x post hsplit hx - y hy hyj
      rw [hsplit] at hsorted
      have hle := (List.pairwise_append.mp hsorted).2.2 y hy x List.mem_cons_self
      omega
  · refine ⟨?_, ?_, ?_, ?_, ?_, hfresh, ?_⟩
    · have hall : meeting_attempt.1.all Pulser.delivered = true := by decide +kernel
      exact List.all_eq_true.mp hall
    · have hall :
          (Pulser.sent meeting_attempt.1).all (fun d => decide (d.length ≤ 2048)) = true := by
        decide +kernel
      exact fun datagram hdatagram => of_decide_eq_true
        (List.all_eq_true.mp hall datagram hdatagram)
    · intro ev hev
      rcases List.mem_append.mp hev with hev | hev
      · have hsample := hmeets hev
        simp only [meets_sample, Bool.and_eq_true] at hsample
        simpa using hsample.1
      · have hsample := hmeets hev
        simp only [meets_sample, Bool.and_eq_true] at hsample
        simpa using hsample.1
    · intro timestamp now htime hreading
      rw [meeting_time timestamp htime, hnow hreading]
      exact Nat.zero_le _
    · intro now hreading x hx
      rw [hnow hreading]
      exact of_decide_eq_true (List.all_eq_true.mp htimes x hx)
    · intro k task cr peer' nonce expires hk htask hcredential hdrawn hnonce
      have hmem : (task, k) ∈ t.1.tasks.zipIdx :=
        List.mk_mem_zipIdx_iff_getElem?.mpr htask
      have hother := List.all_eq_true.mp hothers _ hmem
      have hone : nonce.val = List.replicate 32 1 := by
        have hsample := hmeets hdrawn
        simp only [meets_sample, Bool.and_eq_true] at hsample
        exact of_decide_eq_true hsample.2
      simp only [others_nonce, hcredential, Bool.or_eq_true, beq_iff_eq,
        decide_eq_true_eq] at hother
      rcases hother with hother | hother
      · exact absurd hother hk
      · exact absurd (hnonce.trans hone) hother

theorem attempt_once_accepted_meeting :
    ∃ c ms, Recorded (meeting_server 2).machine (meeting_server 2).prog
        ((meeting_server 2).start 0 1000) c ms ∧ meeting_attempt.2 = .ok () ∧
      PulseAccepted (sample_id 1).to_hex ['a'] (sample_peer 1) none
        (consequences (done_by (meeting_server 2).machine 3 ms)) := by
  have hrun : (record (meeting_server 2).machine (meeting_server 2).prog
      (init ((meeting_server 2).start 0 1000), []) meeting).any (meeting_check (meeting_server 2)) =
        true := by decide +kernel
  obtain ⟨t, ht, hcheck⟩ := (Option.any_eq_true _ _).mp hrun
  have hrec := record_sound (t := (init ((meeting_server 2).start 0 1000), [])) .start ht
  obtain ⟨hexchange, hundisturbed⟩ := meeting_undisturbed hrec hcheck _
  have hall := attempt_once_accepted (meeting_matched 2 _ rfl (by decide +kernel))
    sealing_crypto_working (fun _ hp => by cases hp) hexchange hundisturbed
  exact ⟨t.1, t.2, hrec, hall.1, hall.2.2.2.1⟩

/-- With room for one lease only, which client 2 has, the pulse of client 1 is verified and its
    grant hook runs, but it has no lease in the end. -/
theorem verified_without_lease :
    ∃ info c ms, Matched meeting_pulser (meeting_server 1) info none ∧
      Exchange meeting_pulser (meeting_server 1) (sample_peer 1) none 1000000000 .Renew
        meeting_attempt.1 meeting_attempt.2 c ms 2 3 ∧
      Undisturbed meeting_pulser (meeting_server 1) info meeting_attempt.1 c ms 2 3 ∧
      c.state.leases.entry meeting_pulser.client_id.to_hex = none := by
  have hrun : (record (meeting_server 1).machine (meeting_server 1).prog
      (init ((meeting_server 1).start 0 1000), []) meeting).any (fun t =>
        meeting_check (meeting_server 1) t &&
          (t.1.state.leases.entry meeting_pulser.client_id.to_hex).isNone) = true := by
    decide +kernel
  obtain ⟨t, ht, hcheck⟩ := (Option.any_eq_true _ _).mp hrun
  rw [Bool.and_eq_true, Option.isNone_iff_eq_none] at hcheck
  have hrec := record_sound (t := (init ((meeting_server 1).start 0 1000), [])) .start ht
  obtain ⟨hexchange, hundisturbed⟩ := meeting_undisturbed hrec hcheck.1 _
  exact ⟨_, t.1, t.2, meeting_matched 1 _ rfl (by decide +kernel), hexchange, hundisturbed,
    hcheck.2⟩

end Server

end SignedPulse
