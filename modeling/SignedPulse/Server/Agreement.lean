import SignedPulse.Server.Handshake

/-! # Agreement on the CHALLENGE

    On an encrypted wire the client answers a CHALLENGE only if the holder of
    the pinned key has made it for this very attempt. The datagrams are the
    attacker's to choose on both sides: what the client receives is arbitrary,
    and so are the tasks of the server.

    Ideal cryptography is a hypothesis (`Ideal`) about what is done in the run:
    what the attempt opens was encrypted under the same key with the same
    associated data, and a key that is derived from the secret shared by an
    attempt and the server is used by these two alone. A cipher that opens what
    it seals (`Primitives.Working`) can meet it; the sample at the end does.
-/

namespace SignedPulse

namespace Server

open Interleaving

/-! ### What the server seals -/

/-- A reply is sealed for a HELLO in a sealed datagram: to its ephemeral key, bound to its nonce,
    and what is sealed is the CHALLENGE that was stored for it. -/
def SealDemand (srv : Server) (job : Job) (h : List (Event ops)) (ev : Event ops) : Prop :=
  match ev.op with
  | .seal_reply secret peer_eph plaintext bind =>
    srv.server_secret = some secret ∧ ∃ data peer hello nonce expires,
      job = .datagram data peer ∧ srv.packet_of data = some (.Hello hello, .Sealed peer_eph) ∧
      bind = hello.hello_nonce.val ∧
      plaintext = (Packet.Challenge ⟨hello.client_id, nonce, expires⟩).encode ∧
      ⟨.nonce_insert nonce.val hello.client_id.to_hex peer.ip peer.port expires, ()⟩ ∈ h
  | _ => True

section demand
variable {srv : Server} {job : Job} {h : List (Event ops)}

theorem seal_demand_of_area {ev : Event ops} (hev : ev.op.area ≠ .reply) :
    srv.SealDemand job h ev := by
  unfold SealDemand
  split
  · rename_i hop
    rw [hop] at hev
    exact absurd rfl hev
  · trivial

theorem seal_demand_of_touches {α : Type} {areas : List Area} {p : ServerM α}
    (hp : Touches areas p) (hareas : Area.reply ∉ areas) :
    Program.wp (Program.histories (srv.SealDemand job)) (fun _ _ => True) p h := by
  refine Program.wp_of_uses (I := ops) (P := fun o : Op => o.area ∈ areas) (J := fun _ => True) ?_
    hp trivial
  intro h' o r _ ho _ _
  exact ⟨seal_demand_of_area fun harea => hareas (harea ▸ ho), trivial⟩

theorem handle_hello_seal {hello : Hello} {data : Bytes} {peer : SocketAddr} {reply : ReplyMode}
    (hpacket : srv.packet_of data = some (.Hello hello, reply)) :
    Program.wp (Program.histories (srv.SealDemand (.datagram data peer))) (fun _ _ => True)
      (srv.handle_hello hello peer reply) h := by
  have hrejected (replay : Bool) (h : List (Event ops)) :
      Program.wp (Program.histories (srv.SealDemand (.datagram data peer))) (fun _ _ => True)
        (note_rejected replay) h :=
    seal_demand_of_touches (note_rejected_touches replay) (by decide)
  -- a HELLO that fails a check is rejected, and nothing is sealed
  unfold handle_hello
  refine Program.wp_histories_perform_bind.mpr fun allowed => ⟨trivial, ?_⟩
  split
  · exact hrejected false _
  split
  · refine Program.wp_histories_perform_bind.mpr fun checked => ⟨trivial, ?_⟩
    exact hrejected false _
  refine Program.wp_histories_perform_bind.mpr fun checked => ⟨trivial, ?_⟩
  split
  · exact hrejected false _
  refine Program.wp_histories_perform_bind.mpr fun now => ⟨trivial, ?_⟩
  split
  · exact hrejected false _
  refine Program.wp_histories_perform_bind.mpr fun fresh => ⟨trivial, ?_⟩
  split
  · exact hrejected true _
  -- the nonce is stored before the CHALLENGE is sealed
  unfold issue_challenge
  refine Program.wp_histories_perform_bind.mpr fun _ => ⟨trivial, ?_⟩
  refine Program.wp_histories_perform_bind.mpr fun nonce => ⟨trivial, ?_⟩
  refine Program.wp_histories_perform_bind.mpr fun _ => ⟨trivial, ?_⟩
  unfold send_challenge send_reply
  refine Program.wp_bind.mpr ?_
  have hstatus : Touches [.status] (ServerM.status_update .hello_accepted) :=
    touches_perform (by simp [Op.area])
  have hdone (sent : Bool) (h : List (Event ops)) :
      Program.wp (Program.histories (srv.SealDemand (.datagram data peer))) (fun _ _ => True)
        (if sent then ServerM.status_update .hello_accepted else pure ()) h := by
    split
    · exact seal_demand_of_touches hstatus (by decide)
    · trivial
  cases reply with
  | Cleartext => exact Program.wp_histories_perform.mpr fun sent => ⟨trivial, hdone sent _⟩
  | Sealed peer_eph =>
    dsimp only
    split
    · rw [Program.wp_pure]
      exact hdone false _
    rename_i secret hsecret
    refine Program.wp_histories_perform_bind.mpr fun blob => ⟨?_, ?_⟩
    · -- the reply is for the packet of this datagram
      exact ⟨hsecret, data, peer, hello, nonce, _, rfl, hpacket, rfl, rfl, by simp⟩
    split
    · exact Program.wp_histories_perform.mpr fun sent => ⟨trivial, hdone sent _⟩
    · rw [Program.wp_pure]
      exact hdone false _

/-- Every task meets the demand. -/
theorem prog_seal_demand (srv : Server) (job : Job) :
    Program.wp (Program.histories (srv.SealDemand job)) (fun _ _ => True) (srv.prog job) [] := by
  cases job with
  | datagram data peer =>
    refine wp_receive (fun _ => True) (fun _ => True) ?_ (fun _ _ => trivial) ?_ ?_ trivial
    · rintro h o r _ ho - rfl
      exact ⟨seal_demand_of_area fun harea => by simp [harea] at ho, trivial⟩
    · -- only the handler of a HELLO seals
      intro h _
      refine wp_handle_datagram trivial ?_ ?_ ?_ ?_ ?_
      · exact seal_demand_of_touches (note_faulty_touches peer.ip) (by decide)
      · exact seal_demand_of_touches (note_rejected_touches false) (by decide)
      · exact fun hello reply hpacket => handle_hello_seal hpacket
      · exact fun resp reply _ => seal_demand_of_touches (srv.handle_response_touches resp peer)
          (by decide)
      · exact fun bye reply _ => seal_demand_of_touches (srv.handle_bye_touches bye peer)
          (by decide)
    · rintro h r _ - rfl
      exact ⟨trivial, trivial⟩
  | cleanup =>
    refine wp_cleanup (fun _ => True) (fun _ => True) ?_ ?_ trivial
    · rintro h o r _ ho - rfl
      refine ⟨seal_demand_of_area fun harea => ?_, trivial⟩
      cases o <;> simp [Op.area, purges] at harea ho
    · exact fun h _ => seal_demand_of_touches srv.run_lease_scan_touches (by decide)

end demand

/-! ### Ideal cryptography -/

/-- The server has sealed this reply. -/
def Replied (c : Config ops State Job) (secret peer_eph : X25519Bytes) (plaintext bind : Bytes) :
    Prop :=
  ∃ i blob, (i, ⟨.seal_reply secret peer_eph plaintext bind, .ok blob⟩) ∈ c.log

/-- The inputs from which the keys for replies are derived, by the server and by the attempt. -/
def ReplyInputs (P : Primitives) (c : Config ops State Job) (secret : X25519Bytes)
    (evs : List (Event client_ops)) : Set (ByteVec 32 × X25519Bytes) :=
  { x | (∃ plaintext bind, Replied c secret x.2 plaintext bind ∧
          x.1 = P.diffie_hellman secret x.2) ∨
        ∃ eph_secret nonce_bytes, ⟨.seal_draws, (eph_secret, nonce_bytes)⟩ ∈ evs ∧
          x = (P.diffie_hellman eph_secret (P.public_key secret), P.public_key eph_secret) }

/-- The attempt tries to open a datagram that it has received as the reply to its HELLO: the cipher
    is given this key, nonce, ciphertext and associated data, and it returns the message. -/
def Opens (P : Primitives) (secret : X25519Bytes) (evs : List (Event client_ops)) (key : ByteVec 32)
    (nonce_bytes : ByteVec XNONCE_LEN) (message aad ciphertext : Bytes) : Prop :=
  ∃ eph_secret draws nonce timeout,
    ⟨.seal_draws, (eph_secret, draws)⟩ ∈ evs ∧ ⟨.nonce_generate, nonce⟩ ∈ evs ∧
    ⟨.recv timeout, .received (nonce_bytes.val ++ ciphertext)⟩ ∈ evs ∧
    key = P.derive_key (P.diffie_hellman eph_secret (P.public_key secret)) (P.public_key secret)
      (P.public_key eph_secret) CTX_REPLY ∧
    aad = Primitives.reply_aad (hello_nonce_of nonce).val ∧
    P.decrypt key nonce_bytes ciphertext aad = some message

/-- `Encrypted key nonce message aad ciphertext` are the encryptions that anybody has made. -/
structure Ideal (P : Primitives) (c : Config ops State Job) (secret : X25519Bytes)
    (evs : List (Event client_ops))
    (Encrypted : ByteVec 32 → ByteVec XNONCE_LEN → Bytes → Bytes → Bytes → Prop) : Prop where
  /-- AEAD: what the attempt opens was encrypted under the same key with the same data. -/
  authentic : ∀ key nonce_bytes message aad ciphertext,
    Opens P secret evs key nonce_bytes message aad ciphertext →
      Encrypted key nonce_bytes message aad ciphertext
  /-- Diffie-Hellman: the secret that an attempt shares with the server is known to these two, so
      that keys derived from it encrypt the replies of the server, and the packets and parameters
      of the client, and nothing else. -/
  exclusive : ∀ eph_secret draws, ⟨.seal_draws, (eph_secret, draws)⟩ ∈ evs →
    ∀ pub_a pub_b info nonce_bytes message aad ciphertext,
      Encrypted (P.derive_key (P.diffie_hellman eph_secret (P.public_key secret)) pub_a pub_b info)
        nonce_bytes message aad ciphertext →
      (∃ peer_eph bind, Replied c secret peer_eph message bind ∧ aad = Primitives.reply_aad bind ∧
        P.derive_key (P.diffie_hellman eph_secret (P.public_key secret)) pub_a pub_b info =
          P.derive_key (P.diffie_hellman secret peer_eph) (P.public_key secret) peer_eph
            CTX_REPLY) ∨
      aad = CTX_WIRE ∨ aad = CTX_PARAM
  /-- HKDF: no two of the inputs that occur give the same key. -/
  collision_free : Set.InjOn
    (fun x : ByteVec 32 × X25519Bytes => P.derive_key x.1 (P.public_key secret) x.2 CTX_REPLY)
    (ReplyInputs P c secret evs)

/-- The associated data of a reply is not that of a sealed box. -/
theorem reply_aad_ne (hello_nonce : ByteVec HELLO_NONCE_LEN) :
    Primitives.reply_aad hello_nonce.val ≠ CTX_WIRE ∧
      Primitives.reply_aad hello_nonce.val ≠ CTX_PARAM := by
  have hlength : (Primitives.reply_aad hello_nonce.val).length = CTX_REPLY.length + 16 := by
    unfold Primitives.reply_aad
    rw [List.length_append, hello_nonce.property]
    rfl
  constructor
  · intro heq
    rw [heq] at hlength
    exact absurd hlength (by decide)
  · intro heq
    rw [heq] at hlength
    exact absurd hlength (by decide)

/-! ### The agreement -/

/-- The attempt has sent `second` in answer to `challenge`, and some task of the server has sealed
    this CHALLENGE for this client, in reply to a HELLO with the nonce and the ephemeral key of the
    attempt. -/
def Agreed (pulser : Pulser) (srv : Server) (mode : Mode) (evs : List (Event client_ops))
    (second : Bytes) (c : Config ops State Job) (secret : X25519Bytes) : Prop :=
  ∃ timestamp nonce first eph_secret challenge param_blob session_secret,
    (Pulser.sent evs)[0]? = some first ∧
    pulser.Framed (.Hello (pulser.hello timestamp (hello_nonce_of nonce))) first
      (some eph_secret) ∧
    pulser.Framed (pulser.final_packet mode challenge param_blob) second session_secret ∧
    challenge.client_id = pulser.client_id ∧
    ∃ i task data peer hello blob, c.tasks[i]? = some task ∧ task.job = .datagram data peer ∧
      srv.packet_of data = some (.Hello hello, .Sealed (srv.crypto.public_key eph_secret)) ∧
      hello.client_id = pulser.client_id ∧ hello.hello_nonce = hello_nonce_of nonce ∧
      (i, ⟨.seal_reply secret (srv.crypto.public_key eph_secret)
        (Packet.Challenge challenge).encode hello.hello_nonce.val, .ok blob⟩) ∈ c.log ∧
      (i, ⟨.nonce_insert challenge.nonce.val pulser.client_id.to_hex peer.ip peer.port
        challenge.expires_at_unix, ()⟩) ∈ c.log

theorem seal_of_mem {srv : Server} {now : Instant} {unix : Int64} {c : Config ops State Job}
    (h : Reachable srv.machine srv.prog (srv.start now unix) c) {i : Nat} {ev : Event ops}
    (hev : (i, ev) ∈ c.log) : ∃ task before, c.tasks[i]? = some task ∧ before ⊆ own i c.log ∧
      srv.SealDemand task.job before ev := by
  obtain ⟨pre, post, hlog⟩ := List.append_of_mem hev
  obtain ⟨task, htask, hdemand⟩ := Reachable.event_guarded srv.prog_seal_demand h hlog
  refine ⟨task, _, htask, ?_, hdemand⟩
  rw [hlog, own_append]
  exact List.subset_append_left _ _

/-- Whatever datagrams the attacker gives to the client and to the server: a client that answers a
    CHALLENGE answers the one that the holder of the pinned key has made for it. -/
theorem challenge_agreed {pulser : Pulser} {srv : Server} {secret : X25519Bytes}
    (hcrypto : pulser.crypto = srv.crypto) (hwire : pulser.target.wire_encryption = true)
    (hpinned : pulser.target.server_pub = some (srv.crypto.public_key secret))
    {now : Instant} {unix : Int64} {c : Config ops State Job}
    (hrun : Reachable srv.machine srv.prog (srv.start now unix) c) {param : Option Str}
    {timeout : Duration} {mode : Mode} {evs : List (Event client_ops)}
    {result : Except AttemptError Unit}
    (hattempt : (pulser.attempt_once param timeout mode).Yields evs result)
    {Encrypted : ByteVec 32 → ByteVec XNONCE_LEN → Bytes → Bytes → Bytes → Prop}
    (hideal : Ideal srv.crypto c secret evs Encrypted) {second : Bytes}
    (hsecond : (Pulser.sent evs)[1]? = some second) :
    Agreed pulser srv mode evs second c secret := by
  obtain ⟨timestamp, nonce, first, session_secret, received, challenge, param_blob, session_secret',
    hframed, hfirst, hdrawn, hnonce, hreceived, hread, hframed'⟩ :=
      (Pulser.attempt_sends hattempt).2 second hsecond
  -- the HELLO was sealed with a secret of the attempt
  cases session_secret with
  | none =>
    rw [hframed.1] at hwire
    cases hwire
  | some eph_secret =>
  obtain ⟨draws, hdraws⟩ := hdrawn eph_secret rfl
  -- the reply opened to a CHALLENGE of this client
  unfold Pulser.read_challenge Pulser.unframe_inbound at hread
  simp only [hwire, hpinned, hcrypto, Bool.not_true, Bool.false_eq_true, if_false] at hread
  cases hopen : srv.crypto.open_reply eph_secret (srv.crypto.public_key secret) received
      (hello_nonce_of nonce).val with
  | error e =>
    rw [hopen] at hread
    cases hread
  | ok plaintext =>
  simp only [hopen] at hread
  split at hread
  · cases hread
  · rename_i challenge' hdecode
    split at hread
    · cases hread
    rename_i hclient
    obtain rfl := Except.ok.inj hread
    -- somebody has encrypted it: the server, since the client's own boxes have other contexts
    obtain ⟨nonce_bytes, ciphertext, rfl, hdecrypt⟩ := Primitives.open_reply_ok hopen
    have hopens : Opens srv.crypto secret evs _ nonce_bytes plaintext _ ciphertext :=
      ⟨eph_secret, draws, nonce, timeout, hdraws, hnonce, hreceived, rfl, rfl, hdecrypt⟩
    obtain ⟨hnot_wire, hnot_param⟩ := reply_aad_ne (hello_nonce_of nonce)
    rcases hideal.exclusive eph_secret draws hdraws _ _ _ _ _ _ _
      (hideal.authentic _ _ _ _ _ hopens) with ⟨peer_eph, bind, hreplied, haad, hkey⟩ | haad | haad
    rotate_left
    · exact absurd haad hnot_wire
    · exact absurd haad hnot_param
    have hbind : (hello_nonce_of nonce).val = bind := List.append_cancel_left haad
    have hpeer : peer_eph = srv.crypto.public_key eph_secret := by
      have hserver : (srv.crypto.diffie_hellman secret peer_eph, peer_eph) ∈
          ReplyInputs srv.crypto c secret evs := .inl ⟨plaintext, bind, hreplied, rfl⟩
      have hclient : (srv.crypto.diffie_hellman eph_secret (srv.crypto.public_key secret),
          srv.crypto.public_key eph_secret) ∈ ReplyInputs srv.crypto c secret evs :=
        .inr ⟨eph_secret, draws, hdraws, rfl⟩
      exact (congrArg Prod.snd (hideal.collision_free hclient hserver hkey)).symm
    subst hpeer
    -- and a task of the server seals nothing but the CHALLENGE to the HELLO that it handles
    obtain ⟨i, blob, hmem⟩ := hreplied
    obtain ⟨task, before, htask, hbefore, -, data, peer, hello, drawn, expires, hjob, hpacket,
      hbind', hplaintext, hinserted⟩ := seal_of_mem hrun hmem
    have hsame : (⟨hello.client_id, drawn, expires⟩ : Challenge) = challenge' := by
      have hdecode' : Packet.decode plaintext =
        .ok (.Challenge ⟨hello.client_id, drawn, expires⟩) :=
        Packet.decode_eq_ok_iff.mpr ⟨.none, hplaintext.symm⟩
      rw [hdecode'] at hdecode
      exact Packet.Challenge.inj (Except.ok.inj hdecode)
    subst hsame
    have hid : hello.client_id = pulser.client_id := not_not.mp hclient
    refine ⟨timestamp, nonce, first, eph_secret, _, param_blob, session_secret', hfirst, hframed,
      hframed', hid, i, task, data, peer, hello, blob, htask, hjob, hpacket, hid,
      Subtype.ext (hbind'.symm.trans hbind.symm), ?_, ?_⟩
    · rwa [← hplaintext, ← hbind']
    · rw [← hid]
      exact mem_own.mp (hbefore hinserted)
  · cases hread

/-! ### A sample agreement -/

/-- The CHALLENGE of the sample. -/
def agreed_challenge : Bytes :=
  (Packet.Challenge ⟨sample_id 1, filled 32 1, 1030⟩).encode

/-- The reply in which the server seals it. -/
def agreed_reply : Bytes := List.replicate 24 0 ++ (agreed_challenge ++ List.replicate 16 0)

/-- Client 1, on an encrypted wire. -/
def agreed_pulser : Pulser :=
  { meeting_pulser with
    target := { meeting_pulser.target with
      wire_encryption := true
      server_pub := some (filled 32 7) } }

def agreed_answer : (o : ClientOp) → o.Res
  | .recv _ => .received agreed_reply
  | o => meeting_answer o

def agreed_attempt : List (Event client_ops) × Except AttemptError Unit :=
  (agreed_pulser.attempt_once none 1000000000 .Renew).follow agreed_answer

/-- The HELLO of client 1 arrives. -/
def agreed_run : List (Label Env Job) :=
  .begin (.datagram ((Pulser.sent agreed_attempt.1).headD []) (sample_peer 1)) ::
    List.replicate 15 (.run 0 (sample_env 1000 1))

/-- The key of client 1 and the server for replies. -/
def agreed_key : ByteVec 32 :=
  sealing_crypto.derive_key (sealing_crypto.diffie_hellman (filled 32 9) (filled 32 7))
    (filled 32 7) (filled 32 9) CTX_REPLY

/-- What is encrypted: boxes of the client, and the CHALLENGE. -/
def agreed_encrypted (key : ByteVec 32) (nonce_bytes : ByteVec XNONCE_LEN)
    (message aad ciphertext : Bytes) : Prop :=
  sealing_crypto.encrypt key nonce_bytes message aad = some ciphertext ∧
    (aad = CTX_WIRE ∨ aad = CTX_PARAM ∨
      key = agreed_key ∧ message = agreed_challenge ∧
        aad = Primitives.reply_aad (List.replicate 16 5))

/-- The only reply that the server seals is the sample CHALLENGE, and it does seal it. -/
def agreed_check (c : Config ops State Job) : Bool :=
  c.log.all (fun x =>
    match x.2 with
    | ⟨.seal_reply _ peer_eph _ _, _⟩ => decide (peer_eph.val = List.replicate 32 9)
    | _ => true) &&
  c.log.any (fun x =>
    match x.2 with
    | ⟨.seal_reply secret _ plaintext bind, .ok blob⟩ =>
      decide (secret.val = List.replicate 32 7 ∧ plaintext = agreed_challenge ∧
        bind = List.replicate 16 5 ∧ blob = agreed_reply)
    | _ => false)

/-- What client 1 draws and receives. -/
theorem agreed_events : agreed_attempt.1.all (fun ev =>
    match ev with
    | ⟨.seal_draws, (eph_secret, _)⟩ => decide (eph_secret.val = List.replicate 32 9)
    | ⟨.nonce_generate, nonce⟩ => decide (nonce.val = List.replicate 32 5)
    | ⟨.recv _, .received datagram⟩ => decide (datagram = agreed_reply)
    | _ => true) = true := by decide +kernel

theorem agreed_draws {eph_secret : X25519Bytes} {nonce_bytes : ByteVec XNONCE_LEN}
    (h : ⟨.seal_draws, (eph_secret, nonce_bytes)⟩ ∈ agreed_attempt.1) :
    eph_secret = filled 32 9 :=
  Subtype.ext (of_decide_eq_true (List.all_eq_true.mp agreed_events _ h))

/-- The client opens nothing but the reply to its HELLO. -/
theorem agreed_opens {key : ByteVec 32} {nonce_bytes : ByteVec XNONCE_LEN}
    {message aad ciphertext : Bytes}
    (h : Opens sealing_crypto (filled 32 7) agreed_attempt.1 key nonce_bytes message aad
      ciphertext) : agreed_encrypted key nonce_bytes message aad ciphertext := by
  obtain ⟨eph_secret, draws, nonce, timeout, hdraws, hnonce, hreceived, rfl, rfl, hdecrypt⟩ := h
  obtain rfl : nonce = filled 32 5 :=
    Subtype.ext (of_decide_eq_true (List.all_eq_true.mp agreed_events _ hnonce))
  obtain rfl := agreed_draws hdraws
  have hblob : nonce_bytes.val ++ ciphertext = agreed_reply :=
    of_decide_eq_true (List.all_eq_true.mp agreed_events _ hreceived)
  obtain ⟨-, rfl⟩ := List.append_inj hblob (by rw [nonce_bytes.property]; rfl)
  obtain rfl : agreed_challenge = message := Option.some.inj hdecrypt
  exact ⟨rfl, .inr (.inr ⟨rfl, rfl, rfl⟩)⟩

/-- The reply opens for the client that it was sealed for, with a cipher that works. -/
theorem challenge_agreed_sample :
    encrypted.crypto.Working ∧
      ∃ second c, (Pulser.sent agreed_attempt.1)[1]? = some second ∧
        Interleaving.run encrypted.machine encrypted.prog (init (encrypted.start 0 1000))
          agreed_run = some c ∧
        Agreed agreed_pulser encrypted .Renew agreed_attempt.1 second c (filled 32 7) := by
  have hlength : (Pulser.sent agreed_attempt.1).length = 2 := by decide +kernel
  obtain ⟨first, second, hsent⟩ := List.length_eq_two.mp hlength
  have hrun : (Interleaving.run encrypted.machine encrypted.prog
      (init (encrypted.start 0 1000)) agreed_run).any agreed_check = true := by decide +kernel
  obtain ⟨c, hc, hcheck⟩ := (Option.any_eq_true _ _).mp hrun
  obtain ⟨hall, hany⟩ := (Bool.and_eq_true _ _).mp hcheck
  have hsecond : (Pulser.sent agreed_attempt.1)[1]? = some second := congrArg (·[1]?) hsent
  have hattempt : (agreed_pulser.attempt_once none 1000000000 .Renew).Yields agreed_attempt.1
      agreed_attempt.2 := Program.yields_follow _ _
  refine ⟨sealing_crypto_working, second, c, hsecond, hc, ?_⟩
  -- the cipher opens what it seals, so what is left is what has been encrypted
  suffices hideal : Ideal sealing_crypto c (filled 32 7) agreed_attempt.1 agreed_encrypted from
    challenge_agreed rfl rfl rfl (reachable_of_run _ _ hc) hattempt hideal hsecond
  refine ⟨fun _ _ _ _ _ h => agreed_opens h, ?_, ?_⟩
  · -- the reply is in the log
    obtain ⟨x, hx, hsealed⟩ := List.any_eq_true.mp hany
    split at hsealed
    swap
    · cases hsealed
    rename_i secret peer_eph plaintext bind blob hevent
    obtain ⟨hsecret, rfl, rfl, -⟩ := of_decide_eq_true hsealed
    obtain rfl : secret = filled 32 7 := Subtype.ext hsecret
    have hmem : (x.1, (⟨.seal_reply (filled 32 7) peer_eph agreed_challenge
        (List.replicate 16 5), .ok blob⟩ : Event ops)) ∈ c.log := hevent ▸ hx
    obtain rfl : peer_eph = filled 32 9 :=
      Subtype.ext (of_decide_eq_true (List.all_eq_true.mp hall _ hmem))
    rintro eph_secret draws - pub_a pub_b info nonce_bytes message aad ciphertext ⟨-, hmade⟩
    rcases hmade with hwire | hparam | ⟨hkey, rfl, rfl⟩
    · exact .inr (.inl hwire)
    · exact .inr (.inr hparam)
    · refine .inl ⟨filled 32 9, _, ⟨x.1, blob, hmem⟩, rfl, ?_⟩
      have hdh : sealing_crypto.diffie_hellman (filled 32 9) (filled 32 7) =
          sealing_crypto.diffie_hellman (filled 32 7) (filled 32 9) :=
        sealing_crypto_sealing.dh_comm _ _
      rw [hkey, agreed_key, hdh]
      rfl
  · -- there is one input
    have hinput (x : ByteVec 32 × X25519Bytes) (hx : x ∈ ReplyInputs sealing_crypto c
        (filled 32 7) agreed_attempt.1) :
        x = (sealing_crypto.diffie_hellman (filled 32 9) (filled 32 7), filled 32 9) := by
      rcases hx with ⟨plaintext, bind, ⟨i, blob, hmem⟩, hdh⟩ | ⟨eph_secret, nonce_bytes, hmem, rfl⟩
      · have hpeer : x.2.val = List.replicate 32 9 :=
          of_decide_eq_true (List.all_eq_true.mp hall _ hmem)
        obtain ⟨dh, peer_eph⟩ := x
        obtain rfl : peer_eph = filled 32 9 := Subtype.ext hpeer
        refine Prod.ext (hdh.trans ?_) rfl
        exact sealing_crypto_sealing.dh_comm _ _
      · obtain rfl := agreed_draws hmem
        rfl
    intro x hx y hy _
    rw [hinput x hx, hinput y hy]

end Server

end SignedPulse
