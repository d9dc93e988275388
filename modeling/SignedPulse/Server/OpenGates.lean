import SignedPulse.Server.Replies

/-! # Handlers that nothing stands in the way of

    What a handler does when the gates let its packet through and the checks
    turn out well: a HELLO is answered by one CHALLENGE, a RESPONSE is one
    verified pulse, a BYE releases one lease. The conditions are on the events
    of the task alone, so this holds among any other tasks; whether the nonce
    is still good then is the matter of `Handshake`.
-/

namespace SignedPulse

namespace Server

/-! ### What comes of a packet -/

/-- What the sender of a packet can tell the server's actions by. -/
inductive Consequence where
  /-- A verified pulse is counted. -/
  | pulse (name : Str) (ip : IpAddr) (port : UInt16)
  | renewed (client_id : Str) (ip : IpAddr) (port : UInt16) (param : Option Str) (is_new : Bool)
  /-- The grant hook is left out within the cooldown of `key`. -/
  | skipped (key : Str)
  /-- A hook is invoked. -/
  | hook (x : Executor) (call : HookCall)
  /-- A lease is released; `ended` is the lease, if there was one. -/
  | released (client_id : Str) (ended : Option (ExpiredLease × Nat))
  deriving DecidableEq

def consequence_of : Event ops → Option Consequence
  | ⟨.status_update (.last_pulse name pulse), _⟩ =>
    some (.pulse name pulse.source_ip pulse.source_port)
  | ⟨.leases_renew client_id ip port param _, is_new⟩ =>
    some (.renewed client_id ip port param is_new)
  | ⟨.in_cooldown key, true⟩ => some (.skipped key)
  | ⟨.hook_acquire x call, _⟩ => some (.hook x call)
  | ⟨.leases_release client_id, ended⟩ => some (.released client_id ended)
  | _ => none

/-- In the order in which they come about. -/
def consequences (evs : List (Event ops)) : List Consequence := evs.filterMap consequence_of

/-- The datagrams that are sent, and where to. -/
def replies (evs : List (Event ops)) : List (Bytes × SocketAddr) :=
  evs.filterMap fun ev =>
    match ev.op with
    | .send_to datagram dest => some (datagram, dest)
    | _ => none

@[simp] theorem consequences_append (evs evs' : List (Event ops)) :
    consequences (evs ++ evs') = consequences evs ++ consequences evs' := List.filterMap_append

@[simp] theorem replies_append (evs evs' : List (Event ops)) :
    replies (evs ++ evs') = replies evs ++ replies evs' := List.filterMap_append

/-! ### Conditions on the events of a task -/

/-- The gates, the rate limit and the replay cache let the packet through, and what is sent
    leaves. -/
def passes : Event ops → Bool
  | ⟨.is_blocked _, blocked⟩ => !blocked
  | ⟨.is_active _, active⟩ => active
  | ⟨.inflight_acquire, permit⟩ => permit
  | ⟨.rate_limiter_check _, allowed⟩ => allowed
  | ⟨.seen_insert_if_absent .., fresh⟩ => fresh
  | ⟨.send_to .., ok⟩ => ok
  | _ => true

/-- Results that are computed, and left to nobody. -/
def Computed (srv : Server) : Event ops → Prop
  | ⟨.verify_payload_raw verifying_key payload signature, checked⟩ =>
    checked = srv.crypto.verify_payload_raw verifying_key payload signature
  | ⟨.seal_reply secret eph plaintext bind, blob⟩ =>
    ∃ nonce_bytes, blob = srv.crypto.seal_reply secret eph plaintext bind nonce_bytes
  | _ => True

theorem perform_computed (srv : Server) (o : Op) (e : Env) (s : State) :
    Computed srv ⟨o, (srv.perform o e s).1⟩ := by
  cases o
  case verify_payload_raw => rfl
  case seal_reply => exact ⟨e.xnonce, rfl⟩
  all_goals trivial

/-- The clock is within the skew of the HELLO's timestamp. -/
def InSkew (srv : Server) (hello : Hello) : Event ops → Prop
  | ⟨.now_unix, now⟩ => srv.within_skew hello now = true
  | _ => True

/-- The nonce of the credential is good whenever it is presented. -/
def Honoured (cr : Credential) (peer : SocketAddr) (expires : Int64) : Event ops → Prop
  | ⟨.nonce_validate nonce client_id ip port _, entry⟩ =>
    nonce = cr.nonce.val → client_id = cr.client_id.to_hex → ip = peer.ip → port = peer.port →
      ∃ e, entry = .ok e ∧ e.expires_at_unix = expires
  | ⟨.nonce_consume nonce client_id ip port _, entry⟩ =>
    nonce = cr.nonce.val → client_id = cr.client_id.to_hex → ip = peer.ip → port = peer.port →
      ∃ e, entry = .ok e
  | _ => True

/-! ### The gates -/

section gates
variable {srv : Server} {data : Bytes} {peer : SocketAddr} {G : Event ops → Prop}

/-- Gate rule: a packet of a proper size reaches its handler. -/
theorem receive_open (hG : ∀ ev, G ev → passes ev = true)
    (hlength : data.length ≤ srv.config.max_packet_size)
    {Q : List (Event ops) → Prop}
    (hrelease : ∀ h r, Q h → Q (h ++ [⟨.inflight_release, r⟩]))
    (hhandler : ∀ h, (∀ ev ∈ h, ev.op.area ∈ [Area.blacklist, .lockdown, .active, .inflight]) →
      Program.wp (Program.favoured G) (fun _ => Q) (srv.handle_datagram data peer) h) :
    Program.wp (Program.favoured G) (fun _ => Q) (srv.receive data peer) [] := by
  have hpermit (h : List (Event ops))
      (hh : ∀ ev ∈ h, ev.op.area ∈ [Area.blacklist, .lockdown, .active, .inflight]) :
      Program.wp (Program.favoured G) (fun _ => Q) (srv.with_permit data peer) h := by
    refine Program.wp_favoured_perform_bind.mpr fun permit hpermit => ?_
    rw [show permit = true from hG _ hpermit]
    refine Program.wp_seq (hhandler _ ?_) fun _ h' hQ => ?_
    · exact List.forall_mem_append.mpr ⟨hh, by simp [Op.area]⟩
    · exact Program.wp_favoured_perform.mpr fun r _ => hrelease h' r hQ
  unfold receive
  rw [if_neg (Nat.not_lt.mpr hlength)]
  refine Program.wp_favoured_perform_bind.mpr fun blocked hblocked => ?_
  rw [show blocked = false from Bool.not_eq_true' _ ▸ hG _ hblocked]
  refine Program.wp_favoured_perform_bind.mpr fun attacked _ => ?_
  cases attacked with
  | false =>
    refine Program.wp_favoured_perform_bind.mpr fun _ _ => hpermit _ ?_
    simp [Op.area]
  | true =>
    refine Program.wp_favoured_perform_bind.mpr fun _ _ => ?_
    refine Program.wp_favoured_perform_bind.mpr fun active hactive => ?_
    rw [show active = true from hG _ hactive]
    exact hpermit _ (by simp [Op.area])

/-- The dispatch on a packet that was read. -/
theorem handle_datagram_of_packet {packet : Packet} {reply : ReplyMode}
    (hpacket : srv.packet_of data = some (packet, reply)) : srv.handle_datagram data peer =
      match packet with
      | .Hello hello => srv.handle_hello hello peer reply
      | .Response resp => srv.handle_response resp peer
      | .Bye bye => srv.handle_bye bye peer
      | .Challenge _ => note_rejected false := by
  unfold packet_of at hpacket
  split at hpacket
  swap
  · cases hpacket
  rename_i packet_bytes reply' hunwrap
  obtain ⟨packet', hdecode, hpair⟩ := Option.map_eq_some_iff.mp hpacket
  obtain ⟨rfl, rfl⟩ := Prod.mk.inj hpair
  have hdecode : Packet.decode packet_bytes = .ok packet' := by
    cases hresult : Packet.decode packet_bytes with
    | error e =>
      rw [hresult] at hdecode
      cases hdecode
    | ok decoded =>
      rw [hresult] at hdecode
      rw [Option.some.inj hdecode]
  unfold handle_datagram
  simp only [hunwrap, hdecode]
  cases packet' <;> rfl

end gates

/-! ### HELLO -/

section hello
variable {srv : Server} {hello : Hello} {peer : SocketAddr} {reply : ReplyMode}
variable {h : List (Event ops)} {G : Event ops → Prop}

/-- The reply can be framed: it goes out in cleartext, or to the public key of some secret. -/
def CanReply (srv : Server) (reply : ReplyMode) : Prop :=
  ∀ peer_eph, reply = .Sealed peer_eph → ∃ secret eph_secret, srv.server_secret = some secret ∧
    peer_eph = srv.crypto.public_key eph_secret

theorem send_reply_open (hG : ∀ ev, G ev → passes ev = true ∧ Computed srv ev)
    (hP : srv.crypto.Working)
    (hreply : CanReply srv reply) (challenge : Challenge) (bind : Bytes) :
    Program.wp (Program.favoured G) (fun sent h' => sent = true ∧ h ⊆ h' ∧ ∃ datagram,
        Framed srv (.Challenge challenge) bind datagram reply ∧
        replies h' = replies h ++ [(datagram, peer)] ∧ consequences h' = consequences h)
      (srv.send_reply (.Challenge challenge) peer reply bind) h := by
  unfold send_reply
  cases reply with
  | Cleartext =>
    refine Program.wp_favoured_perform.mpr fun sent hsent => ?_
    refine ⟨(hG _ hsent).1, List.subset_append_left _ _, _, rfl, ?_, ?_⟩
    · simp [replies]
    · simp [consequences, consequence_of]
  | Sealed peer_eph =>
    obtain ⟨secret, eph_secret, hsecret, rfl⟩ := hreply peer_eph rfl
    have hlength : (Packet.Challenge challenge).encode.length < 2 ^ 32 := by
      rw [length_encode_challenge]
      decide
    simp only [hsecret]
    refine Program.wp_favoured_perform_bind.mpr fun blob hblob => ?_
    obtain ⟨nonce_bytes, rfl⟩ := (hG _ hblob).2
    obtain ⟨datagram, hseal⟩ := hP.seal_reply secret eph_secret hlength bind nonce_bytes
    simp only [hseal]
    refine Program.wp_favoured_perform.mpr fun sent hsent => ?_
    refine ⟨(hG _ hsent).1, ?_, datagram, ⟨secret, nonce_bytes, hsecret, hseal⟩, ?_, ?_⟩
    · exact List.Subset.trans (List.subset_append_left _ _) (List.subset_append_left _ _)
    · simp [replies]
    · simp [consequences, consequence_of]

/-- A HELLO was answered: a nonce was drawn at the clock reading `now`, and the CHALLENGE with it is
    all that was sent. -/
def Answered (srv : Server) (hello : Hello) (peer : SocketAddr) (reply : ReplyMode)
    (evs : List (Event ops)) : Prop :=
  ∃ (now : Int64) (nonce : ByteVec CHALLENGE_NONCE_LEN) (datagram : Bytes),
    ⟨.now_unix, now⟩ ∈ evs ∧ ⟨.nonce_generate, nonce⟩ ∈ evs ∧
    ⟨.nonce_insert nonce.val hello.client_id.to_hex peer.ip peer.port
      (unix_deadline now srv.config.nonce_ttl_seconds), ()⟩ ∈ evs ∧
    Framed srv (.Challenge ⟨hello.client_id, nonce,
      unix_deadline now srv.config.nonce_ttl_seconds⟩) hello.hello_nonce.val datagram reply ∧
    replies evs = [(datagram, peer)] ∧ consequences evs = []

theorem handle_hello_open (hG : ∀ ev, G ev → passes ev = true ∧ Computed srv ev ∧
    InSkew srv hello ev)
    (hP : srv.crypto.Working) (hreply : CanReply srv reply) {info : ClientInfo}
    (hinfo : AList.lookup hello.client_id srv.clients = some info)
    (hsigned : srv.crypto.verify_payload_raw info.verifying_key (srv.hello_payload hello)
      hello.signature = .ok ())
    (hreplies : replies h = []) (hconsequences : consequences h = []) :
    Program.wp (Program.favoured G) (fun _ h' => Answered srv hello peer reply h')
      (srv.handle_hello hello peer reply) h := by
  unfold handle_hello
  refine Program.wp_favoured_perform_bind.mpr fun allowed hallowed => ?_
  -- every gate is open: the rate limit, the signature, the skew and the replay cache
  rw [show allowed = true from (hG _ hallowed).1]
  simp only [Bool.not_true, Bool.false_eq_true, if_false, hinfo]
  refine Program.wp_favoured_perform_bind.mpr fun checked hchecked => ?_
  rw [show checked = .ok () from (hG _ hchecked).2.1.trans hsigned]
  refine Program.wp_favoured_perform_bind.mpr fun now hnow => ?_
  rw [show srv.within_skew hello now = true from (hG _ hnow).2.2]
  simp only [Bool.not_true, Bool.false_eq_true, if_false]
  refine Program.wp_favoured_perform_bind.mpr fun fresh hfresh => ?_
  rw [show fresh = true from (hG _ hfresh).1]
  simp only [Bool.not_true, Bool.false_eq_true, if_false]
  unfold issue_challenge
  refine Program.wp_favoured_perform_bind.mpr fun _ _ => ?_
  refine Program.wp_favoured_perform_bind.mpr fun nonce _ => ?_
  refine Program.wp_favoured_perform_bind.mpr fun _ _ => ?_
  -- the reply leaves, with the nonce that was drawn and stored
  unfold send_challenge
  refine Program.wp_seq (send_reply_open (fun ev hev => ⟨(hG ev hev).1, (hG ev hev).2.1⟩) hP hreply
    _ _) fun sent h' hsent => ?_
  obtain ⟨rfl, hsub, datagram, hframed, hreplied, hsame⟩ := hsent
  rw [if_pos rfl]
  refine Program.wp_favoured_perform.mpr fun _ _ => ?_
  refine ⟨now, nonce, datagram, ?_, ?_, ?_, hframed, ?_, ?_⟩
  · exact List.mem_append_left _ (hsub (by simp))
  · exact List.mem_append_left _ (hsub (by simp))
  · exact List.mem_append_left _ (hsub (by simp))
  · rw [replies_append, hreplied]
    simp only [replies_append, hreplies]
    simp [replies]
  · rw [consequences_append, hsame]
    simp only [consequences_append, hconsequences]
    simp [consequences, consequence_of]

end hello

/-! ### RESPONSE and BYE -/

section credentials
variable {srv : Server} {peer : SocketAddr} {h : List (Event ops)} {G : Event ops → Prop}

/-- A credential that is signed, and whose nonce is good, gets past the checks. -/
theorem verify_and_consume_open (cr : Credential) {info : ClientInfo} {expires : Int64}
    (hG : ∀ ev, G ev → Computed srv ev ∧ Honoured cr peer expires ev)
    (hinfo : AList.lookup cr.client_id srv.clients = some info)
    (hsigned : srv.crypto.verify_payload_raw info.verifying_key
      (cr.message srv.config.server_id expires) cr.signature = .ok ()) :
    Program.wp (Program.favoured G)
      (fun verified h' => verified = some info.name ∧ consequences h' = consequences h)
      (srv.verify_and_consume cr.payload cr.client_id cr.nonce cr.interval_seconds cr.param
        cr.signature peer) h := by
  unfold verify_and_consume
  simp only [hinfo]
  refine Program.wp_favoured_perform_bind.mpr fun now _ => ?_
  refine Program.wp_favoured_perform_bind.mpr fun validated hvalidated => ?_
  obtain ⟨entry, rfl, rfl⟩ := (hG _ hvalidated).2 rfl rfl rfl rfl
  refine Program.wp_favoured_perform_bind.mpr fun checked hchecked => ?_
  rw [show checked = .ok () from (hG _ hchecked).1.trans hsigned]
  refine Program.wp_favoured_perform_bind.mpr fun now' _ => ?_
  refine Program.wp_favoured_perform_bind.mpr fun consumed hconsumed => ?_
  obtain ⟨entry', rfl⟩ := (hG _ hconsumed).2 rfl rfl rfl rfl
  exact ⟨rfl, by simp [consequences, consequence_of]⟩

/-- Programs without consequences. -/
theorem no_consequences {α : Type} {p : ServerM α}
    (hp : p.Uses (fun o => ∀ r, consequence_of ⟨o, r⟩ = none)) :
    Program.wp (Program.favoured G) (fun _ h' => consequences h' = consequences h) p h := by
  refine Program.wp_of_uses (J := fun h' => consequences h' = consequences h) ?_ hp rfl
  rintro h' o r _ ho hsame ⟨-, rfl⟩
  refine ⟨trivial, ?_⟩
  rw [consequences_append, hsame]
  simp [consequences, ho r]

/-- An execution is one invocation of its hook. -/
theorem execute_consequence {x : Executor} {call : HookCall} :
    Program.wp (Program.favoured G)
      (fun _ h' => consequences h' = consequences h ++ [.hook x call]) (execute x call) h := by
  unfold execute
  refine Program.wp_favoured_perform_bind.mpr fun permit _ => ?_
  have hone : consequences (h ++ [⟨.hook_acquire x call, permit⟩]) =
      consequences h ++ [.hook x call] := by
    rw [consequences_append]
    rfl
  rw [← hone]
  refine no_consequences ?_
  split
  · exact Program.uses_pure
  refine Program.uses_bind (Program.uses_perform fun _ => rfl) fun spawned => ?_
  split
  · exact Program.uses_pure
  refine Program.uses_bind (Program.uses_perform fun _ => rfl) fun outcome => ?_
  cases outcome <;> exact Program.uses_pure

theorem run_grant_consequence {name : Str} {call : HookCall} : Program.wp (Program.favoured G)
    (fun _ h' => consequences h' = consequences h ++ [.hook .grant call])
    (run_grant name call) h := by
  unfold run_grant
  refine Program.wp_seq execute_consequence fun result h' hresult => ?_
  rw [← hresult]
  refine no_consequences ?_
  split
  · exact Program.uses_pure
  · unfold note_granted
    refine Program.uses_bind (Program.uses_perform fun _ => rfl) fun _ => ?_
    refine Program.uses_bind (Program.uses_perform fun _ => rfl) fun _ => ?_
    exact Program.uses_perform fun _ => rfl

theorem run_revoke_consequence {name : Str} {call : HookCall} : Program.wp (Program.favoured G)
    (fun _ h' => consequences h' = consequences h ++ [.hook .revoke call])
    (run_revoke name call) h := by
  unfold run_revoke
  refine Program.wp_seq execute_consequence fun result h' hresult => ?_
  rw [← hresult]
  refine no_consequences ?_
  split
  · exact Program.uses_pure
  · unfold note_revoked
    refine Program.uses_bind (Program.uses_perform fun _ => rfl) fun _ => ?_
    exact Program.uses_perform fun _ => rfl

/-- One verified pulse, one renewal of the lease, and the grant hook unless a live session is within
    its cooldown, all of the client at `peer` with the parameter. -/
def PulseAccepted (client_hex name : Str) (peer : SocketAddr) (param : Option Str)
    (cs : List Consequence) : Prop :=
  ∃ is_new last, cs = [.pulse name peer.ip peer.port,
      .renewed client_hex peer.ip peer.port param is_new, last] ∧
    ((is_new = false ∧ last = .skipped (id_key client_hex)) ∨
      ∃ ip_clients, last = .hook .grant
        { client_id := client_hex
          source_ip := peer.ip
          source_port := peer.port
          param := param
          is_new := is_new
          reason := .grant
          ip_clients := ip_clients })

theorem response_verified_open {client_hex name : Str} {interval_seconds : UInt32}
    {param : Option Str} (hconsequences : consequences h = []) :
    Program.wp (Program.favoured G)
      (fun _ h' => PulseAccepted client_hex name peer param (consequences h'))
      (srv.response_verified client_hex interval_seconds name param peer) h := by
  unfold response_verified note_pulse
  refine Program.wp_bind.mpr (Program.wp_favoured_perform_bind.mpr fun _ _ => ?_)
  refine Program.wp_favoured_perform_bind.mpr fun at_unix _ => ?_
  refine Program.wp_favoured_perform.mpr fun _ _ => ?_
  refine Program.wp_favoured_perform_bind.mpr fun is_new _ => ?_
  generalize hh : h ++ [_] ++ [_] ++ [_] ++ [_] = h₁
  have htwo : consequences h₁ = [.pulse name peer.ip peer.port,
      .renewed client_hex peer.ip peer.port param is_new] := by
    rw [← hh]
    simp only [consequences_append, hconsequences]
    rfl
  -- the grant hook, from any history with the same consequences
  have hgrant (h₂ : List (Event ops)) (hsame : consequences h₂ = consequences h₁) :
      Program.wp (Program.favoured G)
        (fun _ h' => PulseAccepted client_hex name peer param (consequences h'))
        (do
          let ip_clients ← ServerM.leases_others_on_ip peer.ip client_hex
          run_grant name
            { client_id := client_hex
              source_ip := peer.ip
              source_port := peer.port
              param := param
              is_new := is_new
              reason := .grant
              ip_clients := ip_clients }) h₂ := by
    refine Program.wp_favoured_perform_bind.mpr fun ip_clients _ => ?_
    refine Program.wp_mono ?_ run_grant_consequence
    rintro _ h' hh'
    rw [hh', consequences_append, hsame, htwo]
    exact ⟨is_new, _, rfl, .inr ⟨ip_clients, rfl⟩⟩
  unfold within_cooldown
  cases is_new with
  | true => exact hgrant h₁ rfl
  | false =>
    refine Program.wp_bind.mpr (Program.wp_favoured_perform.mpr fun skip _ => ?_)
    cases skip with
    | true =>
      refine ⟨false, _, ?_, .inl ⟨rfl, rfl⟩⟩
      rw [consequences_append, htwo]
      rfl
    | false =>
      refine hgrant _ ?_
      rw [consequences_append]
      simp [consequences, consequence_of]

/-- The lease of the client is released, and the revoke hook is invoked if there was a lease and
    there is a hook. -/
def ByeAccepted (srv : Server) (client_hex : Str) (param : Option Str)
    (cs : List Consequence) : Prop :=
  ∃ ended, cs = .released client_hex ended ::
    match ended with
    | none => []
    | some (e, remaining) =>
      if srv.revoke_executor then
        [.hook .revoke (revoke_call e (param.or e.param) .bye remaining)]
      else []

theorem bye_verified_open {client_hex : Str} {param : Option Str}
    (hconsequences : consequences h = []) :
    Program.wp (Program.favoured G) (fun _ h' => ByeAccepted srv client_hex param (consequences h'))
      (srv.bye_verified client_hex param) h := by
  unfold bye_verified
  refine Program.wp_favoured_perform_bind.mpr fun ended _ => ?_
  have hone : consequences (h ++ [⟨.leases_release client_hex, ended⟩]) =
      [.released client_hex ended] := by
    rw [consequences_append, hconsequences]
    rfl
  cases ended with
  | none => exact ⟨none, hone⟩
  | some ended =>
    obtain ⟨e, remaining⟩ := ended
    dsimp only
    cases hrevoke : srv.revoke_executor with
    | false => exact ⟨some (e, remaining), by simp [hone, hrevoke]⟩
    | true =>
      refine Program.wp_mono ?_ run_revoke_consequence
      rintro _ h' hh'
      exact ⟨some (e, remaining), by simp [hh', hone, hrevoke]⟩

theorem handle_response_open (resp : Response) {info : ClientInfo} (expires : Int64)
    {param : Option Str}
    (hG : ∀ ev, G ev → Computed srv ev ∧ Honoured resp.credential peer expires ev)
    (hinfo : AList.lookup resp.client_id srv.clients = some info)
    (hsigned : srv.crypto.verify_payload_raw info.verifying_key
      (resp.credential.message srv.config.server_id expires) resp.signature = .ok ())
    (hparam : srv.decrypt_param resp.param = pure (.ok param))
    (hconsequences : consequences h = []) :
    Program.wp (Program.favoured G)
      (fun _ h' => PulseAccepted resp.client_id.to_hex info.name peer param (consequences h'))
      (srv.handle_response resp peer) h := by
  unfold handle_response
  refine Program.wp_seq (verify_and_consume_open resp.credential hG hinfo hsigned) ?_
  rintro verified h' ⟨rfl, hsame⟩
  rw [hparam]
  exact response_verified_open (hsame.trans hconsequences)

theorem handle_bye_open (bye : Bye) {info : ClientInfo} (expires : Int64) {param : Option Str}
    (hG : ∀ ev, G ev → Computed srv ev ∧ Honoured bye.credential peer expires ev)
    (hinfo : AList.lookup bye.client_id srv.clients = some info)
    (hsigned : srv.crypto.verify_payload_raw info.verifying_key
      (bye.credential.message srv.config.server_id expires) bye.signature = .ok ())
    (hparam : srv.decrypt_param bye.param = pure (.ok param))
    (hconsequences : consequences h = []) :
    Program.wp (Program.favoured G)
      (fun _ h' => ByeAccepted srv bye.client_id.to_hex param (consequences h'))
      (srv.handle_bye bye peer) h := by
  unfold handle_bye
  refine Program.wp_seq (verify_and_consume_open bye.credential hG hinfo hsigned) ?_
  rintro verified h' ⟨rfl, hsame⟩
  rw [hparam]
  exact bye_verified_open (hsame.trans hconsequences)

end credentials

end Server

end SignedPulse
