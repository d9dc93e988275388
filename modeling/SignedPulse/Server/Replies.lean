import SignedPulse.Client.Param
import SignedPulse.Protocol.RoundTrip
import SignedPulse.Server.Spending

/-! # What the server sends

    The only datagram that the server ever sends is the CHALLENGE to a HELLO
    that has passed every check. `reply_sound` says so of the handling of any
    datagram from any state: what is sent, where to, what has been checked and
    stored by then, and that it is no longer than the datagram that it answers.

    It is about a handler that runs alone. With other tasks a purge may come
    between the storing of the nonce and the sending.
-/

namespace SignedPulse

namespace Server

open Sequential

/-! ### Lengths -/

theorem length_i64 (x : Int64) : (i64_to_le_bytes x).length = 8 := le_bytes_length _ _

theorem length_encode_hello (hello : Hello) : (Packet.Hello hello).encode.length = 122 := by
  simp only [Packet.encode, List.length_append, length_i64, hello.client_id.bytes.property,
    hello.hello_nonce.property, hello.signature.property]
  rfl

theorem length_encode_challenge (challenge : Challenge) :
    (Packet.Challenge challenge).encode.length = 74 := by
  simp only [Packet.encode, List.length_append, length_i64, challenge.client_id.bytes.property,
    challenge.nonce.property]
  rfl

/-! ### What is sent -/

/-- The datagram is the packet in the framing of the request. -/
def Framed (srv : Server) (packet : Packet) (bind : Bytes) (datagram : Bytes) :
    ReplyMode → Prop
  | .Cleartext => datagram = packet.encode
  | .Sealed peer_eph => ∃ secret xnonce, srv.server_secret = some secret ∧
    srv.crypto.seal_reply secret peer_eph packet.encode bind xnonce = .ok datagram

/-- The HELLO from `peer` is within every limit of the state in which its handling began, at the
    clock readings of its checks. -/
structure Accepted (srv : Server) (hello : Hello) (peer : SocketAddr) (s : State)
    (t : Snapshot ops State) : Prop where
  /-- Within the budget of its source. -/
  rate : ∃ now, s.now ≤ now ∧ now ≤ t.state.now ∧
    (s.rate_limiter.check_at peer.ip now).1 = true
  /-- From a configured client, and signed by it for this server. -/
  signed : ∃ info, AList.lookup hello.client_id srv.clients = some info ∧
    srv.crypto.verify_strict info.verifying_key (srv.hello_payload hello) hello.signature = true
  /-- Fresh, and without a live entry in the replay cache. -/
  fresh : ∃ unix : Int64, ⟨.now_unix, unix⟩ ∈ t.log ∧ srv.within_skew hello unix = true ∧
    ∀ expires_at, AList.lookup (replay_key hello) s.seen_hellos = some expires_at →
      expires_at < unix

/-- The nonce is stored for the HELLO's client and source, and unused. -/
def Stored (s : State) (challenge : Challenge) (peer : SocketAddr) : Prop :=
  ∃ entry, AList.lookup challenge.nonce.val s.nonce_store = some entry ∧ entry.used = false ∧
    entry.client_id = challenge.client_id.to_hex ∧ entry.source_ip = peer.ip ∧
    entry.source_port = peer.port ∧ entry.expires_at_unix = challenge.expires_at_unix

/-- `datagram` may be sent to `dest` at `t`, when the handling began in state `s`. -/
def ReplySound (srv : Server) (data : Bytes) (peer : SocketAddr) (s : State)
    (t : Snapshot ops State) (datagram : Bytes) (dest : SocketAddr) : Prop :=
  ∃ hello reply challenge, srv.packet_of data = some (.Hello hello, reply) ∧
    Accepted srv hello peer s t ∧ dest = peer ∧ challenge.client_id = hello.client_id ∧
    Framed srv (.Challenge challenge) hello.hello_nonce.val datagram reply ∧
    Stored t.state challenge peer

def sends (ev : Event ops) : Bool :=
  match ev.op with
  | .send_to .. => true
  | _ => false

/-- The first send of the handling is sound, and there is no other. -/
def ReplyDemand (srv : Server) (data : Bytes) (peer : SocketAddr) (s : State)
    (t : Snapshot ops State) (ev : Event ops) : Prop :=
  ∀ datagram dest, ev.op = .send_to datagram dest →
    t.log.countP sends = 0 ∧ ReplySound srv data peer s t datagram dest

/-! ### The handlers -/

section handlers
variable {srv : Server} {data : Bytes} {peer : SocketAddr} {s : State} {α : Type}
variable {t : Snapshot ops State}

/-- The surroundings in which every send has to be sound. -/
abbrev replying (srv : Server) (data : Bytes) (peer : SocketAddr) (s : State) :
    Program.Surroundings ops (Snapshot ops State) :=
  demanding srv.machine (fun _ _ _ => True) (srv.ReplyDemand data peer s)

theorem reply_demand_of_not_sends {ev : Event ops} (h : sends ev = false) :
    srv.ReplyDemand data peer s t ev := by
  intro datagram dest hsend
  simp [sends, hsend] at h

theorem Accepted.advance {hello : Hello} (h : Accepted srv hello peer s t) (o : Op) (e : Env) :
    Accepted srv hello peer s (Sequential.advance srv.machine o e t) where
  rate := by
    obtain ⟨now, hstart, hnow, hbudget⟩ := h.rate
    have hlater : t.state.now ≤ (srv.perform o e t.state).2.now := by
      rw [perform_now]
      exact Nat.le_add_right _ _
    exact ⟨now, hstart, hnow.trans hlater, hbudget⟩
  signed := h.signed
  fresh := by
    obtain ⟨unix, hread, hfresh⟩ := h.fresh
    exact ⟨unix, List.mem_append_left _ hread, hfresh⟩

/-- A program that sends nothing meets the demand. -/
theorem reply_demand_of_touches {areas : List Area} {p : ServerM α} (hp : Touches areas p)
    (hareas : Area.reply ∉ areas) :
    Program.wp (replying srv data peer s) (fun _ _ => True) p t := by
  refine Program.wp_of_uses (I := ops) (P := fun o : Op => o.area ∈ areas) ?_ hp trivial
  intro t' o r t'' ho _ _
  refine ⟨?_, trivial⟩
  intro datagram dest hsend
  rw [show o = .send_to datagram dest from hsend] at ho
  exact absurd ho hareas

/-- The reply is sent once its CHALLENGE is in the store. -/
theorem send_reply_sound {hello : Hello} {reply : ReplyMode} {challenge : Challenge}
    (hpacket : srv.packet_of data = some (.Hello hello, reply))
    (hhello : Accepted srv hello peer s t)
    (hclient : challenge.client_id = hello.client_id)
    (hstored : Stored t.state challenge peer) (hnone : t.log.countP sends = 0) :
    Program.wp (replying srv data peer s) (fun _ _ => True)
      (srv.send_reply (.Challenge challenge) peer reply hello.hello_nonce.val) t := by
  unfold send_reply
  dsimp only
  cases reply with
  | Cleartext =>
    refine Program.wp_perform.mpr fun r t' _ => ⟨?_, trivial⟩
    intro datagram dest hsend
    obtain ⟨rfl, rfl⟩ := Op.send_to.inj hsend
    exact ⟨hnone, hello, .Cleartext, challenge, hpacket, hhello, rfl, hclient, rfl, hstored⟩
  | Sealed peer_eph =>
    dsimp only
    split
    · trivial
    rename_i secret hsecret
    refine Program.wp_perform_bind.mpr fun r t₁ hs => ?_
    obtain ⟨e, -, rfl, rfl⟩ := hs
    refine ⟨reply_demand_of_not_sends rfl, ?_⟩
    split
    swap
    · trivial
    rename_i blob hblob
    refine Program.wp_perform.mpr fun r t' _ => ⟨?_, trivial⟩
    intro datagram dest hsend
    obtain ⟨rfl, rfl⟩ := Op.send_to.inj hsend
    refine ⟨?_, hello, .Sealed peer_eph, challenge, hpacket, hhello.advance _ _, rfl, hclient,
      ⟨secret, e.xnonce, hsecret, hblob⟩, hstored⟩
    simpa [advance, sends] using hnone

theorem send_challenge_sound {hello : Hello} {reply : ReplyMode}
    {nonce : ByteVec CHALLENGE_NONCE_LEN}
    {expires_at : Int64}
    (hpacket : srv.packet_of data = some (.Hello hello, reply))
    (hhello : Accepted srv hello peer s t)
    (hstored : Stored t.state ⟨hello.client_id, nonce, expires_at⟩ peer)
    (hnone : t.log.countP sends = 0) :
    Program.wp (replying srv data peer s) (fun _ _ => True)
      (srv.send_challenge hello nonce expires_at peer reply) t := by
  unfold send_challenge
  refine Program.wp_seq (send_reply_sound hpacket hhello rfl hstored hnone) fun sent t' _ => ?_
  split
  · exact Program.wp_perform.mpr fun r t'' _ => ⟨reply_demand_of_not_sends rfl, trivial⟩
  · trivial

theorem issue_challenge_sound {hello : Hello} {reply : ReplyMode} (now : Int64)
    (hpacket : srv.packet_of data = some (.Hello hello, reply))
    (hhello : Accepted srv hello peer s t)
    (hnone : t.log.countP sends = 0) :
    Program.wp (replying srv data peer s) (fun _ _ => True)
      (srv.issue_challenge hello peer reply now) t := by
  unfold issue_challenge
  refine Program.wp_perform_bind.mpr fun u t₁ hs => ⟨reply_demand_of_not_sends rfl, ?_⟩
  obtain ⟨e₁, -, rfl, rfl⟩ := hs
  refine Program.wp_perform_bind.mpr fun nonce t₂ hs => ⟨reply_demand_of_not_sends rfl, ?_⟩
  obtain ⟨e₂, -, rfl, rfl⟩ := hs
  refine Program.wp_perform_bind.mpr fun u t₃ hs => ⟨reply_demand_of_not_sends rfl, ?_⟩
  obtain ⟨e₃, -, rfl, rfl⟩ := hs
  refine send_challenge_sound hpacket (((hhello.advance _ _).advance _ _).advance _ _) ?_
    (by simpa [advance, sends] using hnone)
  -- the entry has just been inserted
  exact ⟨_, AList.lookup_insert _, rfl, rfl, rfl, rfl, rfl⟩

/-- Every check that comes before the CHALLENGE has been passed when it is sent. -/
theorem handle_hello_sound {hello : Hello} {reply : ReplyMode}
    (hpacket : srv.packet_of data = some (.Hello hello, reply)) :
    Program.wp (replying srv data peer s) (fun _ _ => True) (srv.handle_hello hello peer reply)
      ⟨s, []⟩ := by
  have hrejected (replay : Bool) (t : Snapshot ops State) :
      Program.wp (replying srv data peer s) (fun _ _ => True) (note_rejected replay) t :=
    reply_demand_of_touches (note_rejected_touches replay) (by decide)
  unfold handle_hello
  refine Program.wp_perform_bind.mpr fun allowed t₁ hs => ⟨reply_demand_of_not_sends rfl, ?_⟩
  obtain ⟨e₁, -, hallowed, rfl⟩ := hs
  split
  · exact hrejected false _
  rename_i hrate
  have hbudget : (s.rate_limiter.check_at peer.ip (s.now + e₁.elapsed)).1 = true := by
    rw [Bool.not_eq_true, Bool.not_eq_false'] at hrate
    exact hallowed.symm.trans hrate
  split
  · refine Program.wp_perform_bind.mpr fun r t₂ _ => ⟨reply_demand_of_not_sends rfl, ?_⟩
    exact hrejected false _
  rename_i info hinfo
  refine Program.wp_perform_bind.mpr fun checked t₂ hs => ⟨reply_demand_of_not_sends rfl, ?_⟩
  obtain ⟨e₂, -, hchecked, rfl⟩ := hs
  split
  · exact hrejected false _
  have hsigned : srv.crypto.verify_strict info.verifying_key (srv.hello_payload hello)
      hello.signature = true := by
    have hok : srv.crypto.verify_payload_raw info.verifying_key (srv.hello_payload hello)
        hello.signature = .ok () := hchecked.symm
    unfold Primitives.verify_payload_raw at hok
    split at hok
    · assumption
    · cases hok
  refine Program.wp_perform_bind.mpr fun unix t₃ hs => ⟨reply_demand_of_not_sends rfl, ?_⟩
  obtain ⟨e₃, -, rfl, rfl⟩ := hs
  split
  · exact hrejected false _
  rename_i hskew
  refine Program.wp_perform_bind.mpr fun fresh t₄ hs => ⟨reply_demand_of_not_sends rfl, ?_⟩
  obtain ⟨e₄, -, hfresh, rfl⟩ := hs
  split
  · exact hrejected true _
  rename_i hnew
  rw [Bool.not_eq_true, Bool.not_eq_false'] at hskew hnew
  refine issue_challenge_sound _ hpacket ?_ rfl
  refine { rate := ⟨_, Nat.le_add_right _ _, ?_, hbudget⟩, signed := ⟨info, hinfo, hsigned⟩,
           fresh := ⟨_, ?_, hskew, fun _ hlookup =>
             SeenCache.insert_fresh (hfresh.symm.trans hnew) hlookup⟩ }
  · -- the later operations have taken their time
    show s.now + e₁.elapsed ≤ s.now + e₁.elapsed + e₂.elapsed + e₃.elapsed + e₄.elapsed
    lia
  · simp [Sequential.advance]

theorem handle_datagram_sound (srv : Server) (data : Bytes) (peer : SocketAddr) (s : State) :
    Program.wp (replying srv data peer s) (fun _ _ => True) (srv.handle_datagram data peer)
      ⟨s, []⟩ := by
  refine wp_handle_datagram trivial ?_ ?_ ?_ ?_ ?_
  · exact reply_demand_of_touches (note_faulty_touches peer.ip) (by decide)
  · exact reply_demand_of_touches (note_rejected_touches false) (by decide)
  · exact fun hello reply hpacket => handle_hello_sound hpacket
  · exact fun resp reply _ => reply_demand_of_touches (srv.handle_response_touches resp peer)
      (by decide)
  · exact fun bye reply _ => reply_demand_of_touches (srv.handle_bye_touches bye peer) (by decide)

/-- A CHALLENGE is no longer than the HELLO that it answers, in either framing. -/
theorem reply_length (hP : srv.crypto.Tagged) {datagram : Bytes} {dest : SocketAddr}
    (h : ReplySound srv data peer s t datagram dest) : datagram.length ≤ data.length := by
  obtain ⟨hello, reply, challenge, hpacket, -, -, -, hframed, -⟩ := h
  unfold packet_of at hpacket
  split at hpacket
  swap
  · cases hpacket
  rename_i packet_bytes reply' hunwrap
  obtain ⟨packet, hdecode, hpair⟩ := Option.map_eq_some_iff.mp hpacket
  obtain ⟨rfl, rfl⟩ := Prod.mk.inj hpair
  have hbytes : packet_bytes.length = 122 := by
    have hencode : (Packet.Hello hello).encode = packet_bytes := by
      refine (Packet.decode_eq_ok_iff.mp ?_).2
      cases hresult : Packet.decode packet_bytes with
      | error e =>
        rw [hresult] at hdecode
        cases hdecode
      | ok decoded =>
        simp only [hresult, Except.toOption, Option.some.injEq] at hdecode
        rw [hdecode]
    rw [← hencode, length_encode_hello]
  unfold unwrap at hunwrap
  split at hunwrap
  · -- cleartext both ways
    obtain ⟨rfl, rfl⟩ := Prod.mk.inj (Except.ok.inj (Option.some.inj hunwrap))
    rw [show datagram = (Packet.Challenge challenge).encode from hframed,
      length_encode_challenge, hbytes]
    decide
  · split at hunwrap
    · cases hunwrap
    rename_i secret hsecret
    split at hunwrap
    swap
    · cases hunwrap
    rename_i inner peer_eph hopen
    obtain ⟨rfl, rfl⟩ := Prod.mk.inj (Except.ok.inj (Option.some.inj hunwrap))
    obtain ⟨secret', xnonce, -, hseal⟩ := hframed
    have hdata := Primitives.length_of_open hP hopen
    have hreply := Primitives.length_of_seal_reply hP hseal
    rw [length_encode_challenge] at hreply
    omega

end handlers

/-- From any state, the handling of a datagram, with no other task in between, sends one datagram at
    most, and that is the CHALLENGE to a HELLO that has passed every check, sent to where the HELLO
    came from once its nonce is stored, and no longer than the HELLO. -/
theorem reply_sound (srv : Server) (hP : srv.crypto.Tagged) (data : Bytes) (peer : SocketAddr)
    (s : State) :
    (∀ p t, UnderWay srv.machine (fun _ _ _ => True) (srv.handle_datagram data peer) ⟨s, []⟩ p t →
      t.log.countP sends ≤ 1) ∧
    ∀ datagram dest next t, UnderWay srv.machine (fun _ _ _ => True)
        (srv.handle_datagram data peer) ⟨s, []⟩ (.call (.send_to datagram dest) next) t →
      ReplySound srv data peer s t datagram dest ∧ datagram.length ≤ data.length := by
  have hdemand := handle_datagram_sound srv data peer s
  constructor
  · intro p t h
    refine h.once hdemand ?_ (Nat.zero_le 1)
    intro t ev hev hsends
    unfold sends at hsends
    split at hsends
    · rename_i datagram dest hop
      exact (hev datagram dest hop).1
    · cases hsends
  · intro datagram dest next t h
    have hsound := (h.demanded hdemand (sample_env 0 0) trivial datagram dest rfl).2
    exact ⟨hsound, reply_length hP hsound⟩

theorem sealing_crypto_tagged : sealing_crypto.Tagged where
  encrypt_length key nonce msg aad ciphertext h := by
    obtain rfl : msg ++ List.replicate 16 0 = ciphertext := Option.some.inj h
    simp
  decrypt_length key nonce ciphertext aad msg h := by
    have h : (if ciphertext.length < 16 then none
        else some (ciphertext.take (ciphertext.length - 16))) = some msg := h
    split at h
    · cases h
    · rw [← Option.some.inj h, List.length_take]
      omega

/-- The sample server, on an encrypted wire. -/
def encrypted : Server :=
  { sealed with config := { sample_config with wire_encryption := .Required } }

/-- A HELLO of client 1, sealed to that server. -/
def encrypted_hello : Bytes :=
  match sealing_crypto.seal (sealing_crypto.public_key ⟨List.replicate 32 7, List.length_replicate⟩)
      (Packet.Hello (sample_hello 1 1000 1)).encode CTX_WIRE
        ⟨List.replicate 32 9, List.length_replicate⟩
      ⟨List.replicate 24 1, List.length_replicate⟩ with
  | .ok (blob, _) => blob
  | .error _ => []

/-- The next operation of the task is a send. -/
def about_to_send : ServerM Unit → Bool
  | .call (.send_to ..) _ => true
  | _ => false

theorem about_to_send_iff {p : ServerM Unit} :
    about_to_send p = true ↔ ∃ datagram dest next, p = .call (.send_to datagram dest) next := by
  constructor
  · intro h
    unfold about_to_send at h
    split at h
    · exact ⟨_, _, _, rfl⟩
    · cases h
  · rintro ⟨_, _, _, rfl⟩
    rfl

theorem reply_sound_encrypted :
    ∃ datagram dest next t, UnderWay encrypted.machine (fun _ _ _ => True)
        (encrypted.handle_datagram encrypted_hello (sample_peer 1)) ⟨encrypted.start 0 1000, []⟩
        (.call (.send_to datagram dest) next) t ∧
      ReplySound encrypted encrypted_hello (sample_peer 1) (encrypted.start 0 1000) t
        datagram dest ∧ datagram.length ≤ encrypted_hello.length := by
  -- eight operations come before the reply is sent
  have hsteps := take_steps_sound (m := encrypted.machine)
    (encrypted.handle_datagram encrypted_hello (sample_peer 1), ⟨encrypted.start 0 1000, []⟩)
    (List.replicate 8 (sample_env 1000 1))
  have hsend : about_to_send (take_steps encrypted.machine
      (encrypted.handle_datagram encrypted_hello (sample_peer 1), ⟨encrypted.start 0 1000, []⟩)
      (List.replicate 8 (sample_env 1000 1))).1 = true := by decide +kernel
  generalize take_steps encrypted.machine
    (encrypted.handle_datagram encrypted_hello (sample_peer 1), ⟨encrypted.start 0 1000, []⟩)
    (List.replicate 8 (sample_env 1000 1)) = r at hsteps hsend
  obtain ⟨p, t⟩ := r
  dsimp only at hsteps hsend
  obtain ⟨datagram, dest, next, rfl⟩ := about_to_send_iff.mp hsend
  exact ⟨datagram, dest, next, t, hsteps,
    (reply_sound encrypted sealing_crypto_tagged _ _ _).2 _ _ _ _ hsteps⟩

end Server

end SignedPulse
