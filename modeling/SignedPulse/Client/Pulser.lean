import SignedPulse.Client.Config
import SignedPulse.Client.Param
import SignedPulse.Framework.Program
import SignedPulse.Protocol.RoundTrip
import SignedPulse.Protocol.SigningPayload

/-! # One attempt of the client

    `attempt_once` is one exchange with a server: a HELLO, the wait for the
    CHALLENGE, and then a RESPONSE or a BYE to which no reply is expected. It
    is a program over the operations of `ClientOp`; signing and sealing are
    computed in between.

    `attempt_sends` says what an attempt can send at all, `attempt_completes`
    what it does when the network lets it.
-/

namespace SignedPulse

/-! ### Operations -/

/-- How the wait for a datagram ends. -/
inductive RecvOutcome where
  | received (datagram : Bytes)
  | failed
  | timed_out
  deriving DecidableEq

inductive ClientOp where
  | now_unix
  | nonce_generate
  /-- The ephemeral secret and the nonce of a sealed box. -/
  | seal_draws
  | send (datagram : Bytes)
  /-- Receive into a buffer of 2048 bytes. -/
  | recv (timeout : Duration)

@[reducible] def ClientOp.Res : ClientOp → Type
  | .now_unix => Int64
  | .nonce_generate => ByteVec NONCE_LEN
  | .seal_draws => X25519Bytes × ByteVec XNONCE_LEN
  | .send _ => Bool
  | .recv _ => RecvOutcome

abbrev client_ops : Interface := ⟨ClientOp, ClientOp.Res⟩

/-- A task of the client. -/
abbrev ClientM := Program client_ops

namespace ClientM

abbrev perform (o : ClientOp) : ClientM o.Res := Program.perform (I := client_ops) o

abbrev now_unix : ClientM Int64 := perform .now_unix
abbrev nonce_generate : ClientM (ByteVec NONCE_LEN) := perform .nonce_generate
abbrev seal_draws : ClientM (X25519Bytes × ByteVec XNONCE_LEN) := perform .seal_draws
abbrev send (datagram : Bytes) : ClientM Bool := perform (.send datagram)
abbrev recv (timeout : Duration) : ClientM RecvOutcome := perform (.recv timeout)

end ClientM

open ClientM

/-! ### The pulser -/

/-- Whether the lease is renewed (RESPONSE) or released (BYE). -/
inductive Mode where
  | Renew
  | Release
  deriving DecidableEq

/-- Why an attempt fails. -/
inductive AttemptError where
  | client (e : ClientError)
  | crypto (e : CryptoError)
  | protocol (e : ProtocolError)
  /-- The socket reports an error. -/
  | io
  /-- `timed out waiting for CHALLENGE` -/
  | TimedOut
  /-- `expected CHALLENGE, got {other:?}` -/
  | ExpectedChallenge (other : Packet)
  /-- `challenge client_id mismatch` -/
  | ClientIdMismatch
  /-- `wire encryption requires server_encryption_key` -/
  | WireKeyMissing
  /-- `missing session secret` -/
  | MissingSecret
  /-- `CHALLENGE failed to authenticate as the configured server` -/
  | NotAuthenticated
  deriving DecidableEq

/-- What pulses one server. -/
structure Pulser where
  /-- The seed of the Ed25519 key. -/
  signing_key : ByteVec 32
  client_id : ClientId
  target : ServerTarget
  crypto : Primitives
  /-- Ed25519 `sign`. -/
  sign : ByteVec 32 → Bytes → ByteVec SIG_LEN

/-- The first bytes of a nonce. -/
def hello_nonce_of (nonce : ByteVec NONCE_LEN) : ByteVec HELLO_NONCE_LEN :=
  ByteVec.take HELLO_NONCE_LEN nonce.val (by rw [nonce.property]; decide)

/-- Whole seconds. -/
def Duration.as_secs (d : Duration) : Nat := d / 1000000000

namespace Pulser

def sign_payload_raw (pulser : Pulser) (payload : Bytes) : ByteVec SIG_LEN :=
  pulser.sign pulser.signing_key payload

/-- Frame an outbound packet: seal it to the server, and keep the ephemeral secret, or pass it
    through. -/
def frame_outbound (pulser : Pulser) (packet_bytes : Bytes) :
    ClientM (Except AttemptError (Bytes × Option X25519Bytes)) :=
  if !pulser.target.wire_encryption then return .ok (packet_bytes, none)
  else
    match pulser.target.server_pub with
    | none => return .error .WireKeyMissing
    | some server_pub => do
      let (eph_secret, nonce_bytes) ← seal_draws
      match pulser.crypto.seal server_pub packet_bytes CTX_WIRE eph_secret nonce_bytes with
      | .ok (blob, eph_secret) => return .ok (blob, some eph_secret)
      | .error e => return .error (.crypto e)

/-- Recover the cleartext of an inbound packet: open the reply, or pass it through. -/
def unframe_inbound (pulser : Pulser) (datagram : Bytes) (session_secret : Option X25519Bytes)
    (bind : Bytes) : Except AttemptError Bytes :=
  if !pulser.target.wire_encryption then .ok datagram
  else
    match session_secret with
    | none => .error .MissingSecret
    | some secret =>
      match pulser.target.server_pub with
      | none => .error .WireKeyMissing
      | some server_pub =>
        match pulser.crypto.open_reply secret server_pub datagram bind with
        | .ok plaintext => .ok plaintext
        | .error _ => .error .NotAuthenticated

/-- Frame a packet and send it; returns the ephemeral secret. -/
def send_packet (pulser : Pulser) (packet : Packet) :
    ClientM (Except AttemptError (Option X25519Bytes)) := do
  let framed ← pulser.frame_outbound packet.encode
  match framed with
  | .error e => return .error e
  | .ok (datagram, session_secret) => do
    let sent ← send datagram
    if sent then return .ok session_secret else return .error .io

/-- Seal the optional parameter. -/
def seal_param (pulser : Pulser) : Option Str → ClientM (Except AttemptError (Option Bytes))
  | none => return .ok none
  | some plaintext => do
    let (eph_secret, nonce_bytes) ← seal_draws
    match Target.seal_param ⟨pulser.target.server_pub, pulser.target.param_max_len⟩ pulser.crypto
      plaintext eph_secret nonce_bytes with
    | .ok blob => return .ok (some blob)
    | .error e => return .error (.client e)

/-- The signed HELLO. -/
def hello (pulser : Pulser) (timestamp : Int64)
    (hello_nonce : ByteVec HELLO_NONCE_LEN) : Hello where
  client_id := pulser.client_id
  client_timestamp_unix := timestamp
  hello_nonce := hello_nonce
  signature := pulser.sign_payload_raw (hello_signing_payload pulser.target.server_id
    pulser.client_id.to_hex timestamp (base64 hello_nonce.val))

def interval_seconds (pulser : Pulser) : UInt32 :=
  UInt32.ofNat (min pulser.target.interval.as_secs 4294967295)

/-- What is signed in answer to a CHALLENGE; `payload` is the kind of message. -/
def final_payload (pulser : Pulser) (payload : Str → Str → Str → UInt32 → Int64 → Str → Bytes)
    (challenge : Challenge) (param_blob : Option Bytes) : Bytes :=
  payload pulser.target.server_id pulser.client_id.to_hex (base64 challenge.nonce.val)
    pulser.interval_seconds challenge.expires_at_unix ((param_blob.map base64).getD [])

/-- The signed RESPONSE. -/
def response (pulser : Pulser) (challenge : Challenge) (param_blob : Option Bytes) : Response where
  client_id := pulser.client_id
  nonce := challenge.nonce
  interval_seconds := pulser.interval_seconds
  param := param_blob
  signature := pulser.sign_payload_raw
    (pulser.final_payload response_signing_payload challenge param_blob)

/-- The signed BYE: the same fields, but another kind of message is signed. -/
def bye (pulser : Pulser) (challenge : Challenge) (param_blob : Option Bytes) : Bye where
  client_id := pulser.client_id
  nonce := challenge.nonce
  interval_seconds := pulser.interval_seconds
  param := param_blob
  signature := pulser.sign_payload_raw
    (pulser.final_payload bye_signing_payload challenge param_blob)

def final_packet (pulser : Pulser) (mode : Mode) (challenge : Challenge)
    (param_blob : Option Bytes) : Packet :=
  match mode with
  | .Renew => .Response (pulser.response challenge param_blob)
  | .Release => .Bye (pulser.bye challenge param_blob)

/-- The CHALLENGE in a datagram that came in. -/
def read_challenge (pulser : Pulser) (datagram : Bytes) (session_secret : Option X25519Bytes)
    (hello_nonce : ByteVec HELLO_NONCE_LEN) : Except AttemptError Challenge :=
  match pulser.unframe_inbound datagram session_secret hello_nonce.val with
  | .error e => .error e
  | .ok challenge_bytes =>
    match Packet.decode challenge_bytes with
    | .error e => .error (.protocol e)
    | .ok (.Challenge challenge) =>
      if challenge.client_id ≠ pulser.client_id then .error .ClientIdMismatch else .ok challenge
    | .ok other => .error (.ExpectedChallenge other)

/-- Await the CHALLENGE. -/
def await_challenge (pulser : Pulser) (timeout : Duration) (session_secret : Option X25519Bytes)
    (hello_nonce : ByteVec HELLO_NONCE_LEN) : ClientM (Except AttemptError Challenge) := do
  let outcome ← recv timeout
  match outcome with
  | .failed => return .error .io
  | .timed_out => return .error .TimedOut
  | .received datagram => return pulser.read_challenge datagram session_secret hello_nonce

/-- Answer a CHALLENGE. -/
def answer (pulser : Pulser) (param : Option Str) (mode : Mode) (challenge : Challenge) :
    ClientM (Except AttemptError Unit) := do
  let param_blob ← pulser.seal_param param
  match param_blob with
  | .error e => return .error e
  | .ok param_blob => do
    let sent ← pulser.send_packet (pulser.final_packet mode challenge param_blob)
    match sent with
    | .error e => return .error e
    | .ok _ => return .ok ()

def attempt_once (pulser : Pulser) (param : Option Str) (timeout : Duration) (mode : Mode) :
    ClientM (Except AttemptError Unit) := do
  let timestamp ← now_unix
  let nonce ← nonce_generate
  let hello_nonce := hello_nonce_of nonce
  let sent ← pulser.send_packet (.Hello (pulser.hello timestamp hello_nonce))
  match sent with
  | .error e => return .error e
  | .ok session_secret => do
    let challenge ← pulser.await_challenge timeout session_secret hello_nonce
    match challenge with
    | .error e => return .error e
    | .ok challenge => pulser.answer param mode challenge

/-! ### What is sent -/

/-- The datagrams that were sent. -/
def sent (evs : List (Event client_ops)) : List Bytes :=
  evs.filterMap fun ev =>
    match ev.op with
    | .send datagram => some datagram
    | _ => none

@[simp] theorem sent_append (evs evs' : List (Event client_ops)) :
    sent (evs ++ evs') = sent evs ++ sent evs' := List.filterMap_append

/-- The datagram is the packet, as it is or sealed to the server with the ephemeral secret. -/
def Framed (pulser : Pulser) (packet : Packet) (datagram : Bytes) :
    (session_secret : Option X25519Bytes) → Prop
  | none => pulser.target.wire_encryption = false ∧ datagram = packet.encode
  | some eph_secret => pulser.target.wire_encryption = true ∧
    ∃ server_pub nonce_bytes, pulser.target.server_pub = some server_pub ∧
      pulser.crypto.seal server_pub packet.encode CTX_WIRE eph_secret nonce_bytes =
        .ok (datagram, eph_secret)

/-- The ephemeral secret was drawn by the attempt. -/
def Drawn (session_secret : Option X25519Bytes) (evs : List (Event client_ops)) : Prop :=
  ∀ eph_secret, session_secret = some eph_secret →
    ∃ nonce_bytes, ⟨.seal_draws, (eph_secret, nonce_bytes)⟩ ∈ evs

theorem Drawn.mono {session_secret : Option X25519Bytes} {evs evs' : List (Event client_ops)}
    (h : Drawn session_secret evs) (hsub : evs ⊆ evs') : Drawn session_secret evs' := by
  intro eph_secret hsome
  obtain ⟨nonce_bytes, hmem⟩ := h eph_secret hsome
  exact ⟨nonce_bytes, hsub hmem⟩

/-- The parameter of the packet is the parameter that was given, sealed to the server. -/
def SealedParam (pulser : Pulser) (param : Option Str) (param_blob : Option Bytes) : Prop :=
  match param with
  | none => param_blob = none
  | some plaintext => ∃ server_pub eph_secret nonce_bytes blob,
    pulser.target.server_pub = some server_pub ∧ param_blob = some blob ∧
      pulser.crypto.seal server_pub (utf8 plaintext) CTX_PARAM eph_secret nonce_bytes =
        .ok (blob, eph_secret)

section attempts
variable {pulser : Pulser} {h : List (Event client_ops)} {packet : Packet}
variable {param : Option Str} {timeout : Duration} {mode : Mode}

/-- The secret that `seal` returns is the one that was drawn. -/
theorem secret_of_seal {P : Primitives} {server_pub eph_secret kept : X25519Bytes}
    {plaintext context blob : Bytes} {nonce_bytes : ByteVec XNONCE_LEN}
    (hseal : P.seal server_pub plaintext context eph_secret nonce_bytes = .ok (blob, kept)) :
    kept = eph_secret := by
  obtain ⟨-, -, -, -, hkept⟩ := Primitives.seal_ok hseal
  exact hkept

/-! ### Whatever comes back -/

/-- Nothing is asked of the events. -/
abbrev Anything : List (Event client_ops) → Event client_ops → Prop := fun _ _ => True

theorem frame_outbound_framed : Program.wp (Program.histories Anything)
    (fun framed h' => h ⊆ h' ∧ sent h' = sent h ∧ ∀ datagram session_secret,
      framed = .ok (datagram, session_secret) →
        pulser.Framed packet datagram session_secret ∧ Drawn session_secret h')
    (pulser.frame_outbound packet.encode) h := by
  unfold frame_outbound
  split
  · rename_i hwire
    refine ⟨List.Subset.refl h, rfl, ?_⟩
    rintro datagram session_secret hframed
    obtain ⟨rfl, rfl⟩ := Prod.mk.inj (Except.ok.inj hframed)
    exact ⟨⟨by simpa using hwire, rfl⟩, fun _ hnone => by cases hnone⟩
  · rename_i hwire
    split
    · exact ⟨List.Subset.refl h, rfl, fun _ _ hframed => by cases hframed⟩
    · rename_i server_pub hpub
      refine Program.wp_histories_perform_bind.mpr fun draws => ⟨trivial, ?_⟩
      obtain ⟨eph_secret, nonce_bytes⟩ := draws
      dsimp only
      split
      · rename_i blob kept hseal
        obtain rfl := secret_of_seal hseal
        refine ⟨List.subset_append_left _ _, by simp [sent], ?_⟩
        rintro datagram session_secret hframed
        obtain ⟨rfl, rfl⟩ := Prod.mk.inj (Except.ok.inj hframed)
        refine ⟨⟨by simpa using hwire, server_pub, nonce_bytes, hpub, hseal⟩, ?_⟩
        intro eph_secret hsome
        obtain rfl := Option.some.inj hsome
        exact ⟨nonce_bytes, by simp⟩
      · exact ⟨List.subset_append_left _ _, by simp [sent], fun _ _ hframed => by cases hframed⟩

/-- A packet is sent once, in its framing, if it is sent at all. -/
theorem send_packet_framed : Program.wp (Program.histories Anything)
    (fun result h' => h ⊆ h' ∧
      (sent h' = sent h ∨ ∃ datagram session_secret,
        pulser.Framed packet datagram session_secret ∧ sent h' = sent h ++ [datagram]) ∧
      ∀ session_secret, result = .ok session_secret → ∃ datagram,
        pulser.Framed packet datagram session_secret ∧ Drawn session_secret h' ∧
          sent h' = sent h ++ [datagram])
    (pulser.send_packet packet) h := by
  unfold send_packet
  refine Program.wp_seq frame_outbound_framed fun framed h₁ hframed => ?_
  obtain ⟨hsub, hsame, hframed⟩ := hframed
  split
  · exact ⟨hsub, .inl hsame, fun _ hresult => by cases hresult⟩
  · rename_i datagram session_secret
    obtain ⟨hpacket, hdrawn⟩ := hframed datagram session_secret rfl
    refine Program.wp_histories_perform_bind.mpr fun ok => ⟨trivial, ?_⟩
    have hsub' : h ⊆ h₁ ++ [⟨.send datagram, ok⟩] :=
      List.Subset.trans hsub (List.subset_append_left _ _)
    have hsent : sent (h₁ ++ [⟨.send datagram, ok⟩]) = sent h ++ [datagram] := by
      rw [sent_append, hsame]
      rfl
    split
    · refine ⟨hsub', .inr ⟨datagram, session_secret, hpacket, hsent⟩, ?_⟩
      intro session_secret' hresult
      obtain rfl := Except.ok.inj hresult
      exact ⟨datagram, hpacket, hdrawn.mono (List.subset_append_left _ _), hsent⟩
    · exact ⟨hsub', .inr ⟨datagram, session_secret, hpacket, hsent⟩,
        fun _ hresult => by cases hresult⟩

theorem seal_param_idle : Program.wp (Program.histories Anything)
    (fun _ h' => h ⊆ h' ∧ sent h' = sent h) (pulser.seal_param param) h := by
  cases param with
  | none => exact ⟨List.Subset.refl h, rfl⟩
  | some plaintext =>
    refine Program.wp_histories_perform_bind.mpr fun draws => ⟨trivial, ?_⟩
    obtain ⟨eph_secret, nonce_bytes⟩ := draws
    dsimp only
    split
    · exact ⟨List.subset_append_left _ _, by simp [sent]⟩
    · exact ⟨List.subset_append_left _ _, by simp [sent]⟩

/-- A second datagram is an answer to a CHALLENGE that came in and was read under the secret and the
    nonce of the HELLO that the attempt has sent. -/
def Answers (pulser : Pulser) (timeout : Duration) (mode : Mode) (evs : List (Event client_ops))
    (datagram : Bytes) : Prop :=
  ∃ timestamp nonce first session_secret received challenge param_blob session_secret',
    pulser.Framed (.Hello (pulser.hello timestamp (hello_nonce_of nonce))) first session_secret ∧
    (sent evs)[0]? = some first ∧ Drawn session_secret evs ∧ ⟨.nonce_generate, nonce⟩ ∈ evs ∧
    ⟨.recv timeout, .received received⟩ ∈ evs ∧
    pulser.read_challenge received session_secret (hello_nonce_of nonce) = .ok challenge ∧
    pulser.Framed (pulser.final_packet mode challenge param_blob) datagram session_secret'

/-- Whatever comes back, an attempt sends a HELLO first, and then at most an answer. -/
theorem attempt_sends {evs : List (Event client_ops)} {result : Except AttemptError Unit}
    (hattempt : (pulser.attempt_once param timeout mode).Yields evs result) :
    (sent evs).length ≤ 2 ∧
      ∀ datagram, (sent evs)[1]? = some datagram → pulser.Answers timeout mode evs datagram := by
  refine hattempt.of_histories (P := Anything) (h := []) (Q := fun _ evs => (sent evs).length ≤ 2 ∧
    ∀ datagram, (sent evs)[1]? = some datagram → pulser.Answers timeout mode evs datagram) ?_
  have hfew {evs : List (Event client_ops)} (hlength : (sent evs).length ≤ 1) :
      (sent evs).length ≤ 2 ∧ ∀ datagram, (sent evs)[1]? = some datagram →
        pulser.Answers timeout mode evs datagram := by
    refine ⟨by omega, fun datagram hsecond => ?_⟩
    rw [List.getElem?_eq_none hlength] at hsecond
    cases hsecond
  unfold attempt_once
  refine Program.wp_histories_perform_bind.mpr fun timestamp => ⟨trivial, ?_⟩
  refine Program.wp_histories_perform_bind.mpr fun nonce => ⟨trivial, ?_⟩
  refine Program.wp_seq send_packet_framed fun sent₁ h₁ hfirst => ?_
  obtain ⟨hsub₁, hsome, hok⟩ := hfirst
  split
  · -- nothing comes after a HELLO that was not sent
    rcases hsome with hnone | ⟨first, _, -, hone⟩
    · exact hfew (by rw [hnone]; simp [sent])
    · exact hfew (by rw [hone]; simp [sent])
  rename_i session_secret
  obtain ⟨first, hframed, hdrawn, hone⟩ := hok session_secret rfl
  have hone : sent h₁ = [first] := by rw [hone]; rfl
  have hnonce : (⟨.nonce_generate, nonce⟩ : Event client_ops) ∈ h₁ := hsub₁ (by simp)
  unfold await_challenge
  refine Program.wp_bind.mpr (Program.wp_histories_perform_bind.mpr fun outcome => ⟨trivial, ?_⟩)
  have hwaited : sent (h₁ ++ [⟨.recv timeout, outcome⟩]) = [first] := by
    rw [sent_append, hone]
    rfl
  cases outcome with
  | failed => exact hfew (by rw [hwaited]; rfl)
  | timed_out => exact hfew (by rw [hwaited]; rfl)
  | received received =>
    dsimp only
    rw [Program.wp_pure]
    split
    · exact hfew (by rw [hwaited]; rfl)
    rename_i challenge hread
    unfold answer
    refine Program.wp_seq seal_param_idle fun param_blob h₂ hparam => ?_
    obtain ⟨hsub₂, hsame⟩ := hparam
    rw [hwaited] at hsame
    split
    · exact hfew (by rw [hsame]; rfl)
    rename_i param_blob
    refine Program.wp_seq send_packet_framed fun sent₂ h₃ hsecond => ?_
    obtain ⟨hsub₃, hsome, -⟩ := hsecond
    have hevs : h₁ ++ [⟨.recv timeout, .received received⟩] ⊆ h₃ :=
      List.Subset.trans hsub₂ hsub₃
    suffices hgoal : (sent h₃).length ≤ 2 ∧ ∀ datagram, (sent h₃)[1]? = some datagram →
        pulser.Answers timeout mode h₃ datagram by
      split
      · exact hgoal
      · exact hgoal
    rcases hsome with hnone | ⟨second, session_secret', hframed', htwo⟩
    · exact hfew (by rw [hnone, hsame]; rfl)
    · rw [hsame] at htwo
      rw [htwo]
      refine ⟨Nat.le_refl 2, fun datagram hdatagram => ?_⟩
      obtain rfl : second = datagram := by simpa using hdatagram
      exact ⟨timestamp, nonce, first, session_secret, received, challenge, param_blob,
        session_secret', hframed, by rw [htwo]; rfl,
        hdrawn.mono (List.Subset.trans (List.subset_append_left _ _) hevs),
        hevs (List.mem_append_left _ hnonce),
          hevs (List.mem_append_right _ (List.mem_singleton.mpr rfl)), hread, hframed'⟩

/-! ### When nothing is lost -/

/-- What the attempt sends leaves. -/
def delivered : Event client_ops → Bool
  | ⟨.send _, ok⟩ => ok
  | _ => true

/-- The target has the public key of some secret whenever something has to be sealed. -/
def HasKey (pulser : Pulser) (param : Option Str) : Prop :=
  pulser.target.wire_encryption = true ∨ param.isSome = true →
    ∃ secret, pulser.target.server_pub = some (pulser.crypto.public_key secret)

theorem frame_outbound_delivered (hP : pulser.crypto.Working) (hkey : pulser.HasKey param)
    (hfits : ParamFits packet.param) : Program.wp (Program.favoured (fun ev => delivered ev = true))
    (fun framed h' => ∃ datagram session_secret, framed = .ok (datagram, session_secret) ∧
      pulser.Framed packet datagram session_secret ∧ Drawn session_secret h' ∧ h ⊆ h' ∧
        sent h' = sent h)
    (pulser.frame_outbound packet.encode) h := by
  have hlength := Packet.length_encode_le hfits
  unfold frame_outbound
  cases hwire : pulser.target.wire_encryption with
  | false =>
    exact ⟨packet.encode, none, rfl, ⟨hwire, rfl⟩, fun _ hnone => (by cases hnone),
      List.Subset.refl h, rfl⟩
  | true =>
    obtain ⟨secret, hpub⟩ := hkey (.inl hwire)
    simp only [hpub, Bool.not_true, Bool.false_eq_true, if_false]
    refine Program.wp_favoured_perform_bind.mpr fun draws _ => ?_
    obtain ⟨eph_secret, nonce_bytes⟩ := draws
    obtain ⟨blob, hseal, -⟩ :=
      hP.seal secret packet.encode (by omega) CTX_WIRE eph_secret nonce_bytes
    dsimp only
    rw [hseal]
    refine ⟨blob, some eph_secret, rfl, ⟨hwire, _, nonce_bytes, hpub, hseal⟩, ?_,
      List.subset_append_left _ _, by simp [sent]⟩
    intro kept hkept
    obtain rfl := Option.some.inj hkept
    exact ⟨nonce_bytes, by simp⟩

theorem send_packet_delivered (hP : pulser.crypto.Working) (hkey : pulser.HasKey param)
    (hfits : ParamFits packet.param) : Program.wp (Program.favoured (fun ev => delivered ev = true))
    (fun result h' => ∃ datagram session_secret, result = .ok session_secret ∧
      pulser.Framed packet datagram session_secret ∧ Drawn session_secret h' ∧ h ⊆ h' ∧
        sent h' = sent h ++ [datagram])
    (pulser.send_packet packet) h := by
  unfold send_packet
  refine Program.wp_seq (frame_outbound_delivered hP hkey hfits) fun framed h₁ hframed => ?_
  obtain ⟨datagram, session_secret, rfl, hpacket, hdrawn, hsub, hsame⟩ := hframed
  refine Program.wp_favoured_perform_bind.mpr fun ok hok => ?_
  rw [show ok = true from hok, if_pos rfl]
  refine ⟨datagram, session_secret, rfl, hpacket, hdrawn.mono (List.subset_append_left _ _),
    List.Subset.trans hsub (List.subset_append_left _ _), ?_⟩
  rw [sent_append, hsame]
  rfl

theorem seal_param_delivered (hP : pulser.crypto.Working) (hkey : pulser.HasKey param)
    (hlength : ∀ p, param = some p → (utf8 p).length ≤ 60000) :
    Program.wp (Program.favoured (fun ev => delivered ev = true))
      (fun result h' => ∃ param_blob, result = .ok param_blob ∧
        pulser.SealedParam param param_blob ∧ ParamFits param_blob ∧ h ⊆ h' ∧ sent h' = sent h)
      (pulser.seal_param param) h := by
  cases param with
  | none => exact ⟨none, rfl, rfl, .none, List.Subset.refl h, rfl⟩
  | some plaintext =>
    obtain ⟨secret, hpub⟩ := hkey (.inr rfl)
    have hlength := hlength plaintext rfl
    refine Program.wp_favoured_perform_bind.mpr fun draws _ => ?_
    obtain ⟨eph_secret, nonce_bytes⟩ := draws
    obtain ⟨blob, hseal, hblob⟩ :=
      hP.seal secret (utf8 plaintext) (by omega) CTX_PARAM eph_secret nonce_bytes
    simp only [Target.seal_param, hpub, hseal]
    refine ⟨some blob, rfl, ⟨_, eph_secret, nonce_bytes, blob, hpub, rfl, hseal⟩, ?_,
      List.subset_append_left _ _, by simp [sent]⟩
    intro x hx
    obtain rfl := Option.some.inj hx
    omega

/-- The attempt has sent the HELLO of `nonce`, and keeps the secret that its reply is read with. -/
structure HelloSent (pulser : Pulser) (evs : List (Event client_ops)) (timestamp : Int64)
    (nonce : ByteVec NONCE_LEN) (first : Bytes) (session_secret : Option X25519Bytes) : Prop where
  dated : ⟨.now_unix, timestamp⟩ ∈ evs
  drawn : ⟨.nonce_generate, nonce⟩ ∈ evs
  secret : Drawn session_secret evs
  framed : pulser.Framed (.Hello (pulser.hello timestamp (hello_nonce_of nonce))) first
    session_secret
  first : (sent evs)[0]? = some first

/-- The second and last datagram of the attempt is the answer to the CHALLENGE. -/
def Answered (pulser : Pulser) (param : Option Str) (mode : Mode) (evs : List (Event client_ops))
    (first : Bytes) (challenge : Challenge) : Prop :=
  ∃ param_blob second session_secret, pulser.SealedParam param param_blob ∧ ParamFits param_blob ∧
    pulser.Framed (pulser.final_packet mode challenge param_blob) second session_secret ∧
    sent evs = [first, second]

/-- When what it sends leaves, an attempt comes to wait for a reply to its HELLO; when it is given a
    CHALLENGE that it can read, it sends the answer and ends well, and otherwise it sends nothing
    more and fails. -/
theorem attempt_completes (hP : pulser.crypto.Working) (hkey : pulser.HasKey param)
    (hlength : ∀ p, param = some p → (utf8 p).length ≤ 60000) {evs : List (Event client_ops)}
    {result : Except AttemptError Unit}
    (hattempt : (pulser.attempt_once param timeout mode).Yields evs result)
    (hdelivered : ∀ ev ∈ evs, delivered ev = true) :
    ∃ timestamp nonce first session_secret outcome,
      pulser.HelloSent evs timestamp nonce first session_secret ∧ ⟨.recv timeout, outcome⟩ ∈ evs ∧
      ((∃ received challenge, outcome = .received received ∧
        pulser.read_challenge received session_secret (hello_nonce_of nonce) = .ok challenge ∧
        pulser.Answered param mode evs first challenge ∧ result = .ok ()) ∨
      ((∀ received challenge, outcome = .received received →
        pulser.read_challenge received session_secret (hello_nonce_of nonce) ≠ .ok challenge) ∧
        sent evs = [first] ∧ ∃ e, result = .error e)) := by
  refine hattempt.of_favoured (Q := fun result evs => ∃ timestamp nonce first session_secret
    outcome, pulser.HelloSent evs timestamp nonce first session_secret ∧
      ⟨.recv timeout, outcome⟩ ∈ evs ∧
      ((∃ received challenge, outcome = .received received ∧
        pulser.read_challenge received session_secret (hello_nonce_of nonce) = .ok challenge ∧
        pulser.Answered param mode evs first challenge ∧ result = .ok ()) ∨
      ((∀ received challenge, outcome = .received received →
        pulser.read_challenge received session_secret (hello_nonce_of nonce) ≠ .ok challenge) ∧
        sent evs = [first] ∧ ∃ e, result = .error e))) ?_ hdelivered
  unfold attempt_once
  refine Program.wp_favoured_perform_bind.mpr fun timestamp _ => ?_
  refine Program.wp_favoured_perform_bind.mpr fun nonce _ => ?_
  have hfits : ParamFits (Packet.Hello (pulser.hello timestamp (hello_nonce_of nonce))).param :=
    .none
  refine Program.wp_seq (send_packet_delivered hP hkey hfits) fun result₁ h₁ hfirst => ?_
  obtain ⟨first, session_secret, rfl, hframed, hdrawn, hsub₁, hone⟩ := hfirst
  have hone : sent h₁ = [first] := by rw [hone]; rfl
  dsimp only
  unfold await_challenge
  refine Program.wp_bind.mpr (Program.wp_favoured_perform_bind.mpr fun outcome _ => ?_)
  have hwaited : sent (h₁ ++ [⟨.recv timeout, outcome⟩]) = [first] := by
    rw [sent_append, hone]
    rfl
  -- what is known before the reply is looked at
  have hhello {evs : List (Event client_ops)} (hsub : h₁ ⊆ evs)
    (hhead : (sent evs)[0]? = some first) :
      pulser.HelloSent evs timestamp nonce first session_secret :=
    ⟨hsub (hsub₁ (by simp)), hsub (hsub₁ (by simp)), hdrawn.mono hsub, hframed, hhead⟩
  have hrecv : (⟨.recv timeout, outcome⟩ : Event client_ops) ∈ h₁ ++ [⟨.recv timeout, outcome⟩] :=
    List.mem_append_right _ (List.mem_singleton.mpr rfl)
  have hwait := hhello (List.subset_append_left h₁ [⟨.recv timeout, outcome⟩])
    (by rw [hwaited]; rfl)
  cases outcome with
  | failed =>
    exact ⟨timestamp, nonce, first, session_secret, _, hwait, hrecv,
      .inr ⟨fun _ _ houtcome => (by cases houtcome), hwaited, _, rfl⟩⟩
  | timed_out =>
    exact ⟨timestamp, nonce, first, session_secret, _, hwait, hrecv,
      .inr ⟨fun _ _ houtcome => (by cases houtcome), hwaited, _, rfl⟩⟩
  | received received =>
    dsimp only
    rw [Program.wp_pure]
    split
    · rename_i e hread
      refine ⟨timestamp, nonce, first, session_secret, _, hwait, hrecv,
        .inr ⟨fun received' challenge houtcome hok => ?_, hwaited, e, rfl⟩⟩
      obtain rfl := RecvOutcome.received.inj houtcome
      rw [hread] at hok
      cases hok
    rename_i challenge hread
    unfold answer
    refine Program.wp_seq (seal_param_delivered hP hkey hlength) fun result₂ h₂ hparam => ?_
    obtain ⟨param_blob, rfl, hsealed, hfits, hsub₂, hsame⟩ := hparam
    rw [hwaited] at hsame
    have hfinal : ParamFits (pulser.final_packet mode challenge param_blob).param := by
      cases mode <;> exact hfits
    refine Program.wp_seq (send_packet_delivered hP hkey hfinal) fun result₃ h₃ hsecond => ?_
    obtain ⟨second, session_secret', rfl, hframed', -, hsub₃, htwo⟩ := hsecond
    rw [hsame] at htwo
    have hsub := List.Subset.trans hsub₂ hsub₃
    refine ⟨timestamp, nonce, first, session_secret, _,
      hhello (List.Subset.trans (List.subset_append_left _ _) hsub) (by rw [htwo]; rfl), hsub hrecv,
      .inl ⟨received, challenge, rfl, hread, ?_, rfl⟩⟩
    exact ⟨param_blob, second, session_secret', hsealed, hfits, hframed', htwo⟩

end attempts

end Pulser

end SignedPulse
