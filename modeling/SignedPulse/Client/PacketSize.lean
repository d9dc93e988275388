import SignedPulse.Server.Handshake

/-! # The size of a packet with a parameter

    A parameter is sealed, packed into a RESPONSE or a BYE, and on an encrypted
    wire sealed once more. Each layer adds a fixed number of bytes: 72 for a
    box, 136 for the packet.

    `validate` bounds the length of a parameter and the size of a packet one by
    one. `param_packets_fit_iff` says for which accepted configurations the
    packets of all allowed parameters are let in.
-/

namespace SignedPulse

namespace Pulser

/-- The datagram is a RESPONSE or BYE with this parameter, which is sealed to `blob`. -/
structure Carries (pulser : Pulser) (param : Str) (mode : Mode) (challenge : Challenge)
    (blob datagram : Bytes) : Prop where
  sealed : pulser.SealedParam (some param) (some blob)
  framed : ∃ session_secret,
    pulser.Framed (pulser.final_packet mode challenge (some blob)) datagram session_secret

section sizes
variable {pulser : Pulser} {param : Str} {mode : Mode} {challenge : Challenge}
variable {blob datagram : Bytes}

theorem final_packet_param (pulser : Pulser) (mode : Mode) (challenge : Challenge)
    (param_blob : Option Bytes) :
    (pulser.final_packet mode challenge param_blob).param = param_blob := by
  cases mode <;> rfl

theorem Carries.length_blob (hP : pulser.crypto.Tagged)
    (h : pulser.Carries param mode challenge blob datagram) :
    blob.length = (utf8 param).length + 72 := by
  obtain ⟨server_pub, eph_secret, nonce_bytes, blob', -, hblob, hseal⟩ := h.sealed
  rw [Option.some.inj hblob]
  exact Primitives.length_of_seal hP hseal

/-- What the layers add up to. -/
theorem Carries.length_datagram (hP : pulser.crypto.Tagged)
    (h : pulser.Carries param mode challenge blob datagram) :
    datagram.length =
      (utf8 param).length + 208 + if pulser.target.wire_encryption then 72 else 0 := by
  have hblob := h.length_blob hP
  have hpacket := Packet.length_encode_of_param
    (final_packet_param pulser mode challenge (some blob))
  obtain ⟨session_secret, hframed⟩ := h.framed
  cases session_secret with
  | none =>
    obtain ⟨hwire, rfl⟩ := hframed
    rw [hwire, hpacket, hblob]
    rfl
  | some eph_secret =>
    obtain ⟨hwire, server_pub, nonce_bytes, -, hseal⟩ := hframed
    have hsealed := Primitives.length_of_seal hP hseal
    rw [hwire, hsealed, hpacket, hblob]
    rfl

/-- With the key of a server, any parameter of a sane size is carried. -/
theorem exists_carries (hP : pulser.crypto.Working) {secret : X25519Bytes}
    (hpub : pulser.target.server_pub = some (pulser.crypto.public_key secret))
    (hlength : (utf8 param).length < 2 ^ 31) (mode : Mode) (challenge : Challenge)
    (eph_secret : X25519Bytes) (nonce_bytes : ByteVec XNONCE_LEN) :
    ∃ blob datagram, pulser.Carries param mode challenge blob datagram := by
  obtain ⟨blob, hseal, hblob⟩ :=
    hP.seal secret (utf8 param) (by omega) CTX_PARAM eph_secret nonce_bytes
  have hsealed : pulser.SealedParam (some param) (some blob) :=
    ⟨_, eph_secret, nonce_bytes, blob, hpub, rfl, hseal⟩
  have hpacket := Packet.length_encode_of_param
    (final_packet_param pulser mode challenge (some blob))
  by_cases hwire : pulser.target.wire_encryption = true
  · obtain ⟨datagram, hframed, -⟩ := hP.seal secret
      (pulser.final_packet mode challenge (some blob)).encode (by omega) CTX_WIRE eph_secret
      nonce_bytes
    exact ⟨blob, datagram, hsealed, some eph_secret, hwire, _, nonce_bytes, hpub, hframed⟩
  · have hclear : pulser.target.wire_encryption = false := by simpa using hwire
    exact ⟨blob, _, hsealed, none, hclear, rfl⟩

end sizes

end Pulser

open Pulser

/-- Every packet with a parameter that the configuration allows has a length that fits its prefix,
    and is no longer than what `receive` lets in. -/
def ParamPacketsFit (P : Primitives) (cfg : Config.ServerConfig) : Prop :=
  ∀ (pulser : Pulser) (param : Str) (mode : Mode) (challenge : Challenge) (blob datagram : Bytes),
    pulser.crypto = P →
    (pulser.target.wire_encryption = true ↔ cfg.server.wire_encryption = .Required) →
    1 ≤ (utf8 param).length → (utf8 param).length ≤ cfg.server.max_param_len →
    pulser.Carries param mode challenge blob datagram →
    blob.length ≤ 65535 ∧ datagram.length ≤ cfg.settings.max_packet_size

/-! ### Which limits go together -/

theorem Config.ServerConfig.param_limits {cfg : Config.ServerConfig}
    (h : cfg.validate = some (.ok ())) :
    1 ≤ cfg.server.max_param_len ∧ cfg.server.max_param_len ≤ 60000 := by
  have hchecks := (validate_ok h).1
  unfold checks at hchecks
  simp only [List.mem_cons, List.not_mem_nil, or_false, forall_eq_or_imp, forall_eq] at hchecks
  obtain ⟨-, -, -, -, -, -, -, -, -, -, hparam⟩ := hchecks
  simp only [Bool.or_eq_false_iff, decide_eq_false_iff_not] at hparam
  omega

theorem length_utf8_replicate (n : Nat) : (utf8 (List.replicate n 'a')).length = n := by
  induction n with
  | zero => rfl
  | succ n ih =>
    have hchar : (String.utf8EncodeChar 'a').length = 1 := by decide
    rw [List.replicate_succ, utf8, List.flatMap_cons, List.length_append, ← utf8, ih, hchar,
      Nat.add_comm]

/-- A client of a server with that configuration. -/
def keyed_pulser (P : Primitives) (cfg : Config.ServerConfig) : Pulser :=
  { Server.meeting_pulser with
    crypto := P
    target :=
      { Server.meeting_pulser.target with
        server_pub := some (P.public_key (Server.filled 32 7))
        wire_encryption := cfg.server.wire_encryption = .Required } }

/-- The longest allowed parameter makes the longest packet. -/
theorem exists_longest {P : Primitives} (hP : P.Working) (cfg : Config.ServerConfig)
    (hmax : cfg.server.max_param_len ≤ 60000) (mode : Mode) (challenge : Challenge) :
    ∃ blob datagram, (keyed_pulser P cfg).Carries
        (List.replicate cfg.server.max_param_len 'a') mode challenge blob datagram ∧
      datagram.length = cfg.server.max_param_len + 208 +
        if cfg.server.wire_encryption = .Required then 72 else 0 := by
  have hlength := length_utf8_replicate cfg.server.max_param_len
  obtain ⟨blob, datagram, hcarries⟩ : ∃ blob datagram, (keyed_pulser P cfg).Carries
      (List.replicate cfg.server.max_param_len 'a') mode challenge blob datagram :=
    exists_carries hP rfl (by omega) mode challenge (Server.filled 32 9) (Server.filled 24 1)
  have hdatagram := hcarries.length_datagram hP.toTagged
  rw [hlength] at hdatagram
  exact ⟨blob, datagram, hcarries, by simpa [keyed_pulser] using hdatagram⟩

/-- When all of them fit, the largest does. -/
theorem ParamPacketsFit.longest {P : Primitives} (hP : P.Working) {cfg : Config.ServerConfig}
    (hmin : 1 ≤ cfg.server.max_param_len) (hmax : cfg.server.max_param_len ≤ 60000)
    (hfit : ParamPacketsFit P cfg) :
    (cfg.server.max_param_len + 208 + if cfg.server.wire_encryption = .Required then 72 else 0) ≤
      cfg.server.max_packet_size := by
  have hlength := length_utf8_replicate cfg.server.max_param_len
  obtain ⟨blob, datagram, hcarries, hdatagram⟩ := exists_longest hP cfg hmax .Renew
    ⟨Server.sample_id 1, Server.filled 32 1, 0⟩
  have hlet_in := (hfit (keyed_pulser P cfg) _ _ _ blob datagram rfl (by simp [keyed_pulser])
    (by omega) (by omega) hcarries).2
  rw [hdatagram] at hlet_in
  exact hlet_in

/-- The packets fit iff the largest of them does: its parameter, 208 bytes, and 72 more on an
    encrypted wire. -/
theorem param_packets_fit_iff {P : Primitives} (hP : P.Working) {cfg : Config.ServerConfig}
    (hvalid : cfg.validate = some (.ok ())) :
    ParamPacketsFit P cfg ↔
      (cfg.server.max_param_len + 208 +
        if cfg.server.wire_encryption = .Required then 72 else 0) ≤ cfg.server.max_packet_size := by
  obtain ⟨hmin, hmax⟩ := cfg.param_limits hvalid
  constructor
  · exact ParamPacketsFit.longest hP hmin hmax
  · intro hroom pulser param mode challenge blob datagram hcrypto hwire hpos hle hcarries
    subst hcrypto
    have hblob := hcarries.length_blob hP.toTagged
    have hdatagram := hcarries.length_datagram hP.toTagged
    constructor
    · -- the sealed parameter fits its prefix, whatever the size of a packet
      omega
    · show datagram.length ≤ cfg.server.max_packet_size
      have hsame : (if pulser.target.wire_encryption then 72 else 0) =
          if cfg.server.wire_encryption = .Required then 72 else 0 := if_congr hwire rfl rfl
      omega

/-- The default limits go together. -/
theorem param_packets_fit_iff_defaults :
    ParamPacketsFit Server.sealing_crypto (Server.meeting_config 100000) :=
  (param_packets_fit_iff Server.sealing_crypto_working (by decide +kernel)).mpr (by decide)

/-- Parameters of up to 4096 bytes, and packets of up to 2048. -/
def narrow_config : Config.ServerConfig :=
  let cfg := Server.meeting_config 100000
  { cfg with server := { cfg.server with max_param_len := 4096 } }

/-- An accepted configuration under which an allowed parameter is dropped with its packet. -/
theorem allowed_param_dropped :
    narrow_config.validate = some (.ok ()) ∧ ¬ ParamPacketsFit Server.sealing_crypto narrow_config ∧
      ∀ mode challenge, ∃ param blob datagram,
        (utf8 param).length = narrow_config.server.max_param_len ∧
        (keyed_pulser Server.sealing_crypto narrow_config).Carries param mode challenge blob
          datagram ∧
        ∀ (srv : Server) (peer : SocketAddr), srv.config = narrow_config.settings →
          srv.receive datagram peer = pure () := by
  refine ⟨by decide +kernel, ?_, ?_⟩
  · intro hfit
    exact absurd (hfit.longest Server.sealing_crypto_working (by decide) (by decide)) (by decide)
  · intro mode challenge
    obtain ⟨blob, datagram, hcarries, hdatagram⟩ := exists_longest
      Server.sealing_crypto_working narrow_config (by decide) mode challenge
    refine ⟨_, blob, datagram, length_utf8_replicate _, hcarries, fun srv peer hsrv => ?_⟩
    have hlarge : datagram.length > srv.config.max_packet_size := by
      rw [hdatagram, hsrv]
      decide
    unfold Server.receive
    rw [if_pos hlarge]

end SignedPulse
