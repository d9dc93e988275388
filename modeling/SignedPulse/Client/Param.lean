import SignedPulse.Server.Handlers

/-! # The parameter on both sides

    The client checks a parameter before it seals it to the server's key; the
    server checks it again once it has opened it. Nothing tells the client when
    the two disagree, and by then the nonce is spent.

    `param_accepted_iff` says for which parameters they agree.
-/

namespace SignedPulse

/-! ### The client -/

/-- Why the client gives up a pulse. -/
inductive ClientError where
  | message (text : Str)
  | crypto (e : CryptoError)
  deriving DecidableEq

/-- One configured server. -/
structure Target where
  server_pub : Option X25519Bytes
  param_max_len : Nat

/-- The client's check of a parameter value: its length in bytes, and control characters. -/
def validate_param (value : Str) (max_len : Nat) : Except ClientError Unit :=
  if (utf8 value).length > max_len then
    .error (.message ("param (".toList ++ decimal (utf8 value).length ++
      " bytes) exceeds param_max_len ".toList ++ decimal max_len))
  else if value.any is_control then
    .error (.message "param contains control characters".toList)
  else .ok ()

/-- Seal a parameter to the server's key; `eph_secret` and `nonce_bytes` are drawn. -/
def Target.seal_param (target : Target) (P : Primitives) (plaintext : Str)
    (eph_secret : X25519Bytes) (nonce_bytes : ByteVec XNONCE_LEN) : Except ClientError Bytes :=
  match target.server_pub with
  | none => .error (.message "param requires server_encryption_key".toList)
  | some server_pub =>
    match P.seal server_pub (utf8 plaintext) CTX_PARAM eph_secret nonce_bytes with
    | .ok (blob, _) => .ok blob
    | .error e => .error (.crypto e)

theorem validate_param_ok {value : Str} {max_len : Nat} :
    validate_param value max_len = .ok () ↔
      (utf8 value).length ≤ max_len ∧ value.any is_control = false := by
  unfold validate_param
  by_cases hlen : (utf8 value).length > max_len
  · rw [if_pos hlen]
    constructor
    · intro h
      cases h
    · rintro ⟨hle, -⟩
      omega
  · rw [if_neg hlen]
    by_cases hcontrol : value.any is_control = true
    · simp [hcontrol]
    · simp [hcontrol, Nat.not_lt.mp hlen]

/-- A parameter that was sealed was sealed under some server's key. -/
theorem seal_param_ok {target : Target} {P : Primitives} {plaintext : Str}
    {eph_secret : X25519Bytes} {nonce_bytes : ByteVec XNONCE_LEN} {blob : Bytes}
    (h : target.seal_param P plaintext eph_secret nonce_bytes = .ok blob) :
    ∃ server_pub kept, target.server_pub = some server_pub ∧
      P.seal server_pub (utf8 plaintext) CTX_PARAM eph_secret nonce_bytes = .ok (blob, kept) := by
  unfold Target.seal_param at h
  split at h
  · cases h
  · rename_i server_pub hpub
    split at h
    · rename_i kept hseal
      rw [← Except.ok.inj h]
      exact ⟨server_pub, _, hpub, hseal⟩
    · cases h

/-! ### The server -/

namespace Server

/-- What the server makes of a blob that opens to a text. -/
theorem open_param_of_open {srv : Server} {secret peer_eph : X25519Bytes} {blob : Bytes}
    {text : Str} (hsecret : srv.server_secret = some secret)
    (hopen : srv.crypto.open secret blob CTX_PARAM = .ok (utf8 text, peer_eph)) :
    srv.open_param blob =
      if (utf8 text).length > srv.config.max_param_len then none
      else if text.any is_control then none
      else if text.head? = some '-' then none
      else some text := by
  unfold open_param
  simp only [hsecret, hopen, from_utf8_utf8]

/-- The program hands the text on and touches nothing. -/
theorem decrypt_param_eq_pure {srv : Server} {blob : Bytes} {text : Str} :
    srv.decrypt_param (some blob) = pure (.ok (some text)) ↔ srv.open_param blob = some text := by
  unfold decrypt_param
  dsimp only
  cases srv.open_param blob with
  | none =>
    constructor
    · intro h
      cases h
    · intro h
      cases h
  | some opened =>
    constructor
    · intro h
      rw [Option.some.inj (Except.ok.inj (Program.pure.inj h))]
    · intro h
      rw [Option.some.inj h]

/-- The server accepts what the client has validated and sealed to it iff it does not begin with a
    minus sign. -/
theorem param_accepted_iff {srv : Server} (hP : srv.crypto.Sealing) {secret : X25519Bytes}
    (hsecret : srv.server_secret = some secret) {target : Target}
    (hpub : target.server_pub = some (srv.crypto.public_key secret))
    (hmax : target.param_max_len ≤ srv.config.max_param_len) {p : Str}
    (hvalid : validate_param p target.param_max_len = .ok ()) {eph_secret : X25519Bytes}
    {nonce_bytes : ByteVec XNONCE_LEN} {blob : Bytes}
    (hseal : target.seal_param srv.crypto p eph_secret nonce_bytes = .ok blob) :
    srv.decrypt_param (some blob) = pure (.ok (some p)) ↔ p.head? ≠ some '-' := by
  obtain ⟨server_pub, kept, hpub', hsealed⟩ := seal_param_ok hseal
  obtain rfl : server_pub = srv.crypto.public_key secret :=
    Option.some.inj (hpub'.symm.trans hpub)
  obtain ⟨hlen, hcontrol⟩ := validate_param_ok.mp hvalid
  rw [decrypt_param_eq_pure, open_param_of_open hsecret (Primitives.open_seal hP hsealed)]
  -- length and control characters have been checked in the same way
  rw [if_neg (Nat.not_lt.mpr (hlen.trans hmax)), if_neg (by simp [hcontrol])]
  by_cases hminus : p.head? = some '-'
  · simp [hminus]
  · simp [hminus]

/-! ### A sample of both sides -/

/-- Primitives that seal: a key exchange that adds its two keys up, and a cipher that adds a tag. -/
def sealing_crypto : Primitives where
  verifying_key seed := seed
  verify_strict _ _ _ := true
  public_key secret := secret
  diffie_hellman a b := ⟨List.zipWith (· + ·) a.val b.val, by
    rw [List.length_zipWith, a.property, b.property]
    rfl⟩
  was_contributory _ := true
  hkdf := sample_crypto.hkdf
  encrypt _ _ msg _ := some (msg ++ List.replicate 16 0)
  decrypt _ _ ciphertext _ :=
    if ciphertext.length < 16 then none else some (ciphertext.take (ciphertext.length - 16))

theorem sealing_crypto_sealing : sealing_crypto.Sealing where
  dh_comm a b := by
    apply Subtype.ext
    exact List.zipWith_comm_of_comm UInt8.add_comm
  decrypt_encrypt key nonce msg aad ciphertext h := by
    obtain rfl : msg ++ List.replicate 16 0 = ciphertext := Option.some.inj h
    simp [sealing_crypto]

/-- The sample server with a key to open parameters. -/
def sealed : Server :=
  { sample with server_secret := some ⟨List.replicate 32 7, by decide⟩, crypto := sealing_crypto }

/-- A client of that server. -/
def sealed_target : Target where
  server_pub := some ⟨List.replicate 32 7, by decide⟩
  param_max_len := 256

/-- The blob in which the client sends a parameter. -/
def sealed_blob (p : Str) : Except ClientError Bytes :=
  sealed_target.seal_param sealing_crypto p ⟨List.replicate 32 9, by decide⟩
    ⟨List.replicate 24 1, by decide⟩

theorem param_accepted_iff_drain :
    ∃ blob, sealed_blob "drain".toList = .ok blob ∧
      (sealed.decrypt_param (some blob) = pure (.ok (some "drain".toList)) ↔
        "drain".toList.head? ≠ some '-') := by
  obtain ⟨blob, hblob⟩ : ∃ blob, sealed_blob "drain".toList = .ok blob := ⟨_, rfl⟩
  exact ⟨blob, hblob, param_accepted_iff sealing_crypto_sealing rfl rfl (by decide) (by decide)
    hblob⟩

/-- A parameter that the client accepts, and the server counts as a rejection. -/
theorem minus_param_rejected :
    ∃ p blob, validate_param p sealed_target.param_max_len = .ok () ∧
      sealed_target.param_max_len ≤ sealed.config.max_param_len ∧ sealed_blob p = .ok blob ∧
      sealed.decrypt_param (some blob) = (do note_rejected false; return .error ()) := by
  refine ⟨"-v2".toList, _, by decide, by decide, rfl, ?_⟩
  have hnone (blob : Bytes) (h : sealed.open_param blob = none) :
      sealed.decrypt_param (some blob) = (do note_rejected false; return .error ()) := by
    unfold decrypt_param
    simp only [h]
  exact hnone _ (by decide +kernel)

end Server

end SignedPulse
