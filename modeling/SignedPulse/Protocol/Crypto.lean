import SignedPulse.Framework.Text
import SignedPulse.Protocol.Packet

/-! # Signatures and sealed boxes

    The primitives (Ed25519, X25519, HKDF-SHA256, XChaCha20-Poly1305) come from
    other crates; they are parameters here. The constructions on top of them
    follow the source: which key is derived from what, what is authenticated
    along with a ciphertext, and how a blob is laid out.
-/

namespace SignedPulse

def NONCE_LEN : Nat := 32
def X25519_KEY_LEN : Nat := 32
def XNONCE_LEN : Nat := 24

/-- Raw X25519 material, public or secret. -/
abbrev X25519Bytes := ByteVec X25519_KEY_LEN

/-- The bytes of an Ed25519 public key. -/
abbrev VerifyingKey := ByteVec 32

inductive CryptoError where
  | VerificationFailed
  | EncryptionFailed
  | DecryptionFailed
  deriving DecidableEq, Repr

/-- The functions of the cryptography crates. -/
structure Primitives where
  /-- Ed25519: the public key of a 32-byte seed. -/
  verifying_key : ByteVec 32 → VerifyingKey
  /-- Ed25519 `verify_strict`. -/
  verify_strict : VerifyingKey → Bytes → ByteVec SIG_LEN → Bool
  /-- X25519: the public key of a secret. -/
  public_key : X25519Bytes → X25519Bytes
  diffie_hellman : X25519Bytes → X25519Bytes → ByteVec 32
  /-- Of a shared secret: not the result of a low-order public key. -/
  was_contributory : ByteVec 32 → Bool
  /-- HKDF-SHA256 of salt, input key and info, expanded to 32 bytes. -/
  hkdf : Bytes → Bytes → Bytes → ByteVec 32
  /-- XChaCha20-Poly1305 with key, nonce, message and associated data. -/
  encrypt : ByteVec 32 → ByteVec XNONCE_LEN → Bytes → Bytes → Option Bytes
  decrypt : ByteVec 32 → ByteVec XNONCE_LEN → Bytes → Bytes → Option Bytes

/-- Full packet, client to server. -/
def CTX_WIRE : Bytes := utf8 "signedpulse:v1:wire".toList

/-- The parameter of a RESPONSE or BYE. -/
def CTX_PARAM : Bytes := utf8 "signedpulse:v1:param".toList

/-- CHALLENGE, server to client. -/
def CTX_REPLY : Bytes := utf8 "signedpulse:v1:reply".toList

/-- The first `n` bytes of a string that is long enough. -/
def ByteVec.take (n : Nat) (bs : Bytes) (h : n ≤ bs.length) : ByteVec n :=
  ⟨bs.take n, by rw [List.length_take]; omega⟩

namespace Primitives

variable (P : Primitives)

def verify_payload_raw (verifying_key : VerifyingKey) (payload : Bytes)
    (signature : ByteVec SIG_LEN) : Except CryptoError Unit :=
  if P.verify_strict verifying_key payload signature then .ok () else .error .VerificationFailed

/-- The AEAD key, bound to both public keys and to the context. -/
def derive_key (shared : ByteVec 32) (pub_a pub_b : X25519Bytes) (info : Bytes) : ByteVec 32 :=
  P.hkdf (pub_a.val ++ pub_b.val) shared.val info

/-- Seal to the holder of a key: `eph_pub(32) || xnonce(24) || ct`, and the ephemeral secret that
    was drawn. -/
def «seal» (recipient_pub : X25519Bytes) (plaintext context : Bytes) (eph_secret : X25519Bytes)
    (nonce_bytes : ByteVec XNONCE_LEN) : Except CryptoError (Bytes × X25519Bytes) :=
  let eph_pub_bytes := P.public_key eph_secret
  let shared := P.diffie_hellman eph_secret recipient_pub
  if !P.was_contributory shared then .error .EncryptionFailed
  else
    let key := P.derive_key shared eph_pub_bytes recipient_pub context
    match P.encrypt key nonce_bytes plaintext context with
    | some ciphertext => .ok (eph_pub_bytes.val ++ nonce_bytes.val ++ ciphertext, eph_secret)
    | none => .error .EncryptionFailed

/-- Open a sealed blob: `eph_pub(32) || xnonce(24) || ct`. -/
def «open» (recipient_secret : X25519Bytes) (blob : Bytes) (context : Bytes) :
    Except CryptoError (Bytes × X25519Bytes) :=
  if h : X25519_KEY_LEN + XNONCE_LEN ≤ blob.length then
    let recipient_pub := P.public_key recipient_secret
    let eph_pub_bytes := ByteVec.take X25519_KEY_LEN blob (by omega)
    let nonce_bytes := ByteVec.take XNONCE_LEN (blob.drop X25519_KEY_LEN) (by
      rw [List.length_drop]; omega)
    let ciphertext := blob.drop (X25519_KEY_LEN + XNONCE_LEN)
    let shared := P.diffie_hellman recipient_secret eph_pub_bytes
    if !P.was_contributory shared then .error .DecryptionFailed
    else
      let key := P.derive_key shared eph_pub_bytes recipient_pub context
      match P.decrypt key nonce_bytes ciphertext context with
      | some plaintext => .ok (plaintext, eph_pub_bytes)
      | none => .error .DecryptionFailed
  else .error .DecryptionFailed

/-- The context of a reply, then the bytes that tie it to its request. -/
def reply_aad (bind : Bytes) : Bytes := CTX_REPLY ++ bind

/-- Seal a reply under the server's static secret: `xnonce(24) || ct`. -/
def seal_reply (server_secret client_eph_pub : X25519Bytes) (plaintext bind : Bytes)
    (nonce_bytes : ByteVec XNONCE_LEN) : Except CryptoError Bytes :=
  let server_pub := P.public_key server_secret
  let shared := P.diffie_hellman server_secret client_eph_pub
  if !P.was_contributory shared then .error .EncryptionFailed
  else
    let key := P.derive_key shared server_pub client_eph_pub CTX_REPLY
    match P.encrypt key nonce_bytes plaintext (reply_aad bind) with
    | some ciphertext => .ok (nonce_bytes.val ++ ciphertext)
    | none => .error .EncryptionFailed

/-- Open a reply with the ephemeral secret of the request and the server's public key. -/
def open_reply (client_eph_secret server_pub : X25519Bytes) (blob bind : Bytes) :
    Except CryptoError Bytes :=
  if h : XNONCE_LEN ≤ blob.length then
    let shared := P.diffie_hellman client_eph_secret server_pub
    if !P.was_contributory shared then .error .DecryptionFailed
    else
      let client_eph_pub := P.public_key client_eph_secret
      let key := P.derive_key shared server_pub client_eph_pub CTX_REPLY
      let nonce_bytes := ByteVec.take XNONCE_LEN blob h
      let ciphertext := blob.drop XNONCE_LEN
      match P.decrypt key nonce_bytes ciphertext (reply_aad bind) with
      | some plaintext => .ok plaintext
      | none => .error .DecryptionFailed
  else .error .DecryptionFailed

/-! ### What is sealed opens -/

/-- What the key exchange and the cipher are documented to do. -/
structure Sealing : Prop where
  /-- Both sides of a key exchange arrive at the same secret. -/
  dh_comm : ∀ a b, P.diffie_hellman a (P.public_key b) = P.diffie_hellman b (P.public_key a)
  /-- Decryption with the same key, nonce and associated data undoes encryption. -/
  decrypt_encrypt : ∀ key nonce msg aad ciphertext,
    P.encrypt key nonce msg aad = some ciphertext → P.decrypt key nonce ciphertext aad = some msg

/-- The documented lengths: a ciphertext is its message and a tag of 16 bytes. -/
structure Tagged : Prop where
  encrypt_length : ∀ key nonce msg aad ciphertext,
    P.encrypt key nonce msg aad = some ciphertext → ciphertext.length = msg.length + 16
  decrypt_length : ∀ key nonce ciphertext aad msg,
    P.decrypt key nonce ciphertext aad = some msg → ciphertext.length = msg.length + 16

/-- What more is documented about honest keys and messages of a sane size. -/
structure Working : Prop extends P.Sealing, P.Tagged where
  /-- A public key that was made from a secret is not of low order. -/
  contributory : ∀ a b, P.was_contributory (P.diffie_hellman a (P.public_key b)) = true
  /-- Only messages of hundreds of gigabytes cannot be encrypted. -/
  encrypts : ∀ key nonce msg aad, msg.length < 2 ^ 32 →
    ∃ ciphertext, P.encrypt key nonce msg aad = some ciphertext

theorem take_append {n : Nat} (a : ByteVec n) (bs : Bytes) (h : n ≤ (a.val ++ bs).length) :
    ByteVec.take n (a.val ++ bs) h = a := by
  apply Subtype.ext
  show (a.val ++ bs).take n = a.val
  rw [List.take_left' a.property]

variable {P}

/-- What is sealed, taken apart. -/
theorem seal_ok {recipient_pub eph_secret kept : X25519Bytes} {plaintext context blob : Bytes}
    {nonce_bytes : ByteVec XNONCE_LEN}
    (h : P.seal recipient_pub plaintext context eph_secret nonce_bytes = .ok (blob, kept)) :
    ∃ ciphertext, P.was_contributory (P.diffie_hellman eph_secret recipient_pub) = true ∧
      P.encrypt (P.derive_key (P.diffie_hellman eph_secret recipient_pub) (P.public_key eph_secret)
        recipient_pub context) nonce_bytes plaintext context = some ciphertext ∧
      blob = (P.public_key eph_secret).val ++ nonce_bytes.val ++ ciphertext ∧
        kept = eph_secret := by
  unfold «seal» at h
  dsimp only at h
  split at h
  · cases h
  rename_i hcontributory
  split at h
  swap
  · cases h
  rename_i ciphertext hencrypt
  obtain ⟨rfl, rfl⟩ := Prod.mk.inj (Except.ok.inj h)
  exact ⟨ciphertext, by simpa using hcontributory, hencrypt, rfl, rfl⟩

/-- What is sealed in a reply, taken apart. -/
theorem seal_reply_ok {server_secret client_eph_pub : X25519Bytes} {plaintext bind blob : Bytes}
    {nonce_bytes : ByteVec XNONCE_LEN}
    (h : P.seal_reply server_secret client_eph_pub plaintext bind nonce_bytes = .ok blob) :
    ∃ ciphertext, P.was_contributory (P.diffie_hellman server_secret client_eph_pub) = true ∧
      P.encrypt (P.derive_key (P.diffie_hellman server_secret client_eph_pub)
        (P.public_key server_secret) client_eph_pub CTX_REPLY) nonce_bytes plaintext
        (reply_aad bind) = some ciphertext ∧
      blob = nonce_bytes.val ++ ciphertext := by
  unfold seal_reply at h
  dsimp only at h
  split at h
  · cases h
  rename_i hcontributory
  split at h
  swap
  · cases h
  rename_i ciphertext hencrypt
  exact ⟨ciphertext, by simpa using hcontributory, hencrypt, (Except.ok.inj h).symm⟩

/-- A blob that is a public key, a nonce and a ciphertext. -/
theorem open_parts (secret peer_eph : X25519Bytes) (nonce_bytes : ByteVec XNONCE_LEN)
    (ciphertext context : Bytes) :
    P.open secret (peer_eph.val ++ nonce_bytes.val ++ ciphertext) context =
      if P.was_contributory (P.diffie_hellman secret peer_eph) then
        match P.decrypt (P.derive_key (P.diffie_hellman secret peer_eph) peer_eph
          (P.public_key secret) context) nonce_bytes ciphertext context with
        | some plaintext => .ok (plaintext, peer_eph)
        | none => .error .DecryptionFailed
      else .error .DecryptionFailed := by
  -- the blob comes apart where it was put together
  have hlength : X25519_KEY_LEN + XNONCE_LEN ≤
      (peer_eph.val ++ nonce_bytes.val ++ ciphertext).length := by
    rw [List.length_append, List.length_append, peer_eph.property, nonce_bytes.property]
    omega
  have hdrop : (peer_eph.val ++ nonce_bytes.val ++ ciphertext).drop
      (X25519_KEY_LEN + XNONCE_LEN) = ciphertext := by
    rw [List.drop_left']
    rw [List.length_append, peer_eph.property, nonce_bytes.property]
  have hnonce : (peer_eph.val ++ nonce_bytes.val ++ ciphertext).drop X25519_KEY_LEN =
      nonce_bytes.val ++ ciphertext := by
    rw [List.append_assoc, List.drop_left' peer_eph.property]
  unfold Primitives.open
  rw [dif_pos hlength]
  simp only [List.append_assoc] at hdrop hnonce ⊢
  simp only [hdrop, hnonce, take_append]
  cases P.was_contributory (P.diffie_hellman secret peer_eph) <;> rfl

/-- A blob that is a nonce and a ciphertext. -/
theorem open_reply_parts (client_eph_secret server_pub : X25519Bytes)
    (nonce_bytes : ByteVec XNONCE_LEN) (ciphertext bind : Bytes) :
    P.open_reply client_eph_secret server_pub (nonce_bytes.val ++ ciphertext) bind =
      if P.was_contributory (P.diffie_hellman client_eph_secret server_pub) then
        match P.decrypt (P.derive_key (P.diffie_hellman client_eph_secret server_pub) server_pub
          (P.public_key client_eph_secret) CTX_REPLY) nonce_bytes ciphertext (reply_aad bind) with
        | some plaintext => .ok plaintext
        | none => .error .DecryptionFailed
      else .error .DecryptionFailed := by
  have hlength : XNONCE_LEN ≤ (nonce_bytes.val ++ ciphertext).length := by
    rw [List.length_append, nonce_bytes.property]
    omega
  unfold open_reply
  rw [dif_pos hlength]
  simp only [take_append, List.drop_left' nonce_bytes.property]
  cases P.was_contributory (P.diffie_hellman client_eph_secret server_pub) <;> rfl

/-- A blob without room for its header does not open. -/
theorem open_short {secret : X25519Bytes} {blob context : Bytes}
    (h : blob.length < X25519_KEY_LEN + XNONCE_LEN) :
    P.open secret blob context = .error .DecryptionFailed := by
  unfold Primitives.open
  rw [dif_neg (Nat.not_le.mpr h)]

theorem open_reply_short {client_eph_secret server_pub : X25519Bytes} {blob bind : Bytes}
    (h : blob.length < XNONCE_LEN) :
    P.open_reply client_eph_secret server_pub blob bind = .error .DecryptionFailed := by
  unfold open_reply
  rw [dif_neg (Nat.not_le.mpr h)]

theorem reply_parts {blob : Bytes} (h : XNONCE_LEN ≤ blob.length) :
    ∃ (nonce_bytes : ByteVec XNONCE_LEN) (ciphertext : Bytes),
      blob = nonce_bytes.val ++ ciphertext :=
  ⟨ByteVec.take XNONCE_LEN blob h, blob.drop XNONCE_LEN, (List.take_append_drop _ _).symm⟩

theorem sealed_parts {blob : Bytes} (h : X25519_KEY_LEN + XNONCE_LEN ≤ blob.length) :
    ∃ (peer_eph : X25519Bytes) (nonce_bytes : ByteVec XNONCE_LEN) (ciphertext : Bytes),
      blob = peer_eph.val ++ nonce_bytes.val ++ ciphertext := by
  have hrest : XNONCE_LEN ≤ (blob.drop X25519_KEY_LEN).length := by
    rw [List.length_drop]
    omega
  obtain ⟨nonce_bytes, ciphertext, hparts⟩ := reply_parts hrest
  refine ⟨ByteVec.take X25519_KEY_LEN blob (by omega), nonce_bytes, ciphertext, ?_⟩
  rw [List.append_assoc, ← hparts]
  exact (List.take_append_drop _ _).symm

/-- A blob that opens, taken apart. -/
theorem open_ok {secret : X25519Bytes} {blob context : Bytes} {opened : Bytes × X25519Bytes}
    (h : P.open secret blob context = .ok opened) :
    ∃ nonce_bytes ciphertext, blob = opened.2.val ++ nonce_bytes.val ++ ciphertext ∧
      P.decrypt (P.derive_key (P.diffie_hellman secret opened.2) opened.2 (P.public_key secret)
        context) nonce_bytes ciphertext context = some opened.1 := by
  by_cases hlength : X25519_KEY_LEN + XNONCE_LEN ≤ blob.length
  · obtain ⟨peer_eph, nonce_bytes, ciphertext, rfl⟩ := sealed_parts hlength
    rw [open_parts] at h
    split at h
    · split at h
      · rename_i plaintext hdecrypt
        obtain rfl := Except.ok.inj h
        exact ⟨nonce_bytes, ciphertext, rfl, hdecrypt⟩
      · cases h
    · cases h
  · rw [open_short (Nat.not_le.mp hlength)] at h
    cases h

theorem open_reply_ok {client_eph_secret server_pub : X25519Bytes} {blob bind plaintext : Bytes}
    (h : P.open_reply client_eph_secret server_pub blob bind = .ok plaintext) :
    ∃ nonce_bytes ciphertext, blob = nonce_bytes.val ++ ciphertext ∧
      P.decrypt (P.derive_key (P.diffie_hellman client_eph_secret server_pub) server_pub
        (P.public_key client_eph_secret) CTX_REPLY) nonce_bytes ciphertext (reply_aad bind) =
          some plaintext := by
  by_cases hlength : XNONCE_LEN ≤ blob.length
  · obtain ⟨nonce_bytes, ciphertext, rfl⟩ := reply_parts hlength
    rw [open_reply_parts] at h
    split at h
    · split at h
      · rename_i opened hdecrypt
        obtain rfl := Except.ok.inj h
        exact ⟨nonce_bytes, ciphertext, rfl, hdecrypt⟩
      · cases h
    · cases h
  · rw [open_reply_short (Nat.not_le.mp hlength)] at h
    cases h

/-- A blob that was sealed to the key of the recipient opens in the same context. -/
theorem open_seal (hP : P.Sealing) {secret eph_secret : X25519Bytes} {plaintext context : Bytes}
    {nonce_bytes : ByteVec XNONCE_LEN} {blob : Bytes} {kept : X25519Bytes}
    (h : P.seal (P.public_key secret) plaintext context eph_secret nonce_bytes = .ok (blob, kept)) :
    P.open secret blob context = .ok (plaintext, P.public_key eph_secret) := by
  obtain ⟨ciphertext, hcontributory, hencrypt, rfl, -⟩ := seal_ok h
  rw [open_parts, hP.dh_comm secret eph_secret, if_pos hcontributory,
    hP.decrypt_encrypt _ _ _ _ _ hencrypt]

/-- A reply that was sealed to the ephemeral key opens with its secret and the same binding. -/
theorem open_reply_seal_reply (hP : P.Sealing) {secret eph_secret : X25519Bytes}
    {plaintext bind : Bytes} {nonce_bytes : ByteVec XNONCE_LEN} {blob : Bytes}
    (h : P.seal_reply secret (P.public_key eph_secret) plaintext bind nonce_bytes = .ok blob) :
    P.open_reply eph_secret (P.public_key secret) blob bind = .ok plaintext := by
  obtain ⟨ciphertext, hcontributory, hencrypt, rfl⟩ := seal_reply_ok h
  rw [open_reply_parts, hP.dh_comm eph_secret secret, if_pos hcontributory,
    hP.decrypt_encrypt _ _ _ _ _ hencrypt]

/-- What is sealed is longer by a public key, a nonce and a tag. -/
theorem length_of_seal (hP : P.Tagged) {recipient_pub eph_secret kept : X25519Bytes}
    {plaintext context blob : Bytes} {nonce_bytes : ByteVec XNONCE_LEN}
    (h : P.seal recipient_pub plaintext context eph_secret nonce_bytes = .ok (blob, kept)) :
    blob.length = plaintext.length + 72 := by
  obtain ⟨ciphertext, -, hencrypt, rfl, -⟩ := seal_ok h
  rw [List.length_append, List.length_append, (P.public_key eph_secret).property,
    nonce_bytes.property, hP.encrypt_length _ _ _ _ _ hencrypt]
  simp only [X25519_KEY_LEN, XNONCE_LEN]
  omega

/-- Anything of a sane size can be sealed to an honest key. -/
theorem Working.seal (hP : P.Working) (secret : X25519Bytes) (plaintext : Bytes)
    (hlength : plaintext.length < 2 ^ 32) (context : Bytes) (eph_secret : X25519Bytes)
    (nonce_bytes : ByteVec XNONCE_LEN) :
    ∃ blob, P.seal (P.public_key secret) plaintext context eph_secret nonce_bytes =
        .ok (blob, eph_secret) ∧ blob.length = plaintext.length + 72 := by
  obtain ⟨ciphertext, hencrypt⟩ := hP.encrypts
    (P.derive_key (P.diffie_hellman eph_secret (P.public_key secret)) (P.public_key eph_secret)
      (P.public_key secret) context) nonce_bytes plaintext context hlength
  have hseal : P.seal (P.public_key secret) plaintext context eph_secret nonce_bytes =
      .ok ((P.public_key eph_secret).val ++ nonce_bytes.val ++ ciphertext, eph_secret) := by
    unfold Primitives.seal
    simp only [hP.contributory, hencrypt, Bool.not_true, Bool.false_eq_true, if_false]
  exact ⟨_, hseal, length_of_seal hP.toTagged hseal⟩

/-- A reply to an honest key can be sealed. -/
theorem Working.seal_reply (hP : P.Working) (secret eph_secret : X25519Bytes) {plaintext : Bytes}
    (hlength : plaintext.length < 2 ^ 32) (bind : Bytes) (nonce_bytes : ByteVec XNONCE_LEN) :
    ∃ blob, P.seal_reply secret (P.public_key eph_secret) plaintext bind nonce_bytes =
      .ok blob := by
  obtain ⟨ciphertext, hencrypt⟩ := hP.encrypts
    (P.derive_key (P.diffie_hellman secret (P.public_key eph_secret)) (P.public_key secret)
      (P.public_key eph_secret) CTX_REPLY) nonce_bytes plaintext (reply_aad bind) hlength
  refine ⟨nonce_bytes.val ++ ciphertext, ?_⟩
  unfold Primitives.seal_reply
  simp only [hP.contributory, hencrypt, Bool.not_true, Bool.false_eq_true, if_false]

/-- A blob is longer than what it opens to by a public key, a nonce and a tag. -/
theorem length_of_open (hP : P.Tagged) {secret : X25519Bytes} {blob context plaintext : Bytes}
    {peer_eph : X25519Bytes} (h : P.open secret blob context = .ok (plaintext, peer_eph)) :
    blob.length = plaintext.length + 72 := by
  obtain ⟨nonce_bytes, ciphertext, rfl, hdecrypt⟩ := open_ok h
  rw [List.length_append, List.length_append, peer_eph.property, nonce_bytes.property,
    hP.decrypt_length _ _ _ _ _ hdecrypt]
  simp only [X25519_KEY_LEN, XNONCE_LEN]
  omega

/-- A reply is longer than its plaintext by a nonce and a tag. -/
theorem length_of_seal_reply (hP : P.Tagged) {server_secret client_eph_pub : X25519Bytes}
    {plaintext bind : Bytes} {nonce_bytes : ByteVec XNONCE_LEN} {blob : Bytes}
    (h : P.seal_reply server_secret client_eph_pub plaintext bind nonce_bytes = .ok blob) :
    blob.length = plaintext.length + 40 := by
  obtain ⟨ciphertext, -, hencrypt, rfl⟩ := seal_reply_ok h
  rw [List.length_append, nonce_bytes.property, hP.encrypt_length _ _ _ _ _ hencrypt]
  simp only [XNONCE_LEN]
  omega

end Primitives

end SignedPulse
