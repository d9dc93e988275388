import SignedPulse.Protocol.Crypto

/-! # What a sealed blob opens as

    There are two kinds of blobs: boxes that are sealed to a public key in a
    context, and replies that a server seals to an ephemeral key with bytes
    that bind them to a request.

    A blob opens for its recipient as what was sealed. That it opens in no
    other way takes more: the derivation must not give its key to other inputs,
    and the cipher must not open anything that was not sealed (`Alone`).
-/

namespace SignedPulse

/-- What goes into a blob: the inputs of its key, the nonce, the associated data, and the
    ciphertext that comes out. -/
structure Box where
  salt : Bytes
  shared : ByteVec 32
  info : Bytes
  nonce_bytes : ByteVec XNONCE_LEN
  aad : Bytes
  ciphertext : Bytes

namespace Primitives

variable (P : Primitives)

def box_key (box : Box) : ByteVec 32 := P.hkdf box.salt box.shared.val box.info

/-- What `seal` puts into a blob. -/
def sealed_box (recipient_pub : X25519Bytes) (context : Bytes) (eph_secret : X25519Bytes)
    (nonce_bytes : ByteVec XNONCE_LEN) (ciphertext : Bytes) : Box where
  salt := (P.public_key eph_secret).val ++ recipient_pub.val
  shared := P.diffie_hellman eph_secret recipient_pub
  info := context
  nonce_bytes := nonce_bytes
  aad := context
  ciphertext := ciphertext

/-- What `seal_reply` puts into a blob. -/
def reply_box (server_secret client_eph_pub : X25519Bytes) (bind : Bytes)
    (nonce_bytes : ByteVec XNONCE_LEN) (ciphertext : Bytes) : Box where
  salt := (P.public_key server_secret).val ++ client_eph_pub.val
  shared := P.diffie_hellman server_secret client_eph_pub
  info := CTX_REPLY
  nonce_bytes := nonce_bytes
  aad := reply_aad bind
  ciphertext := ciphertext

/-- Only the box was sealed: its key is derived from no other inputs, and of what a blob ends in
    the cipher opens the ciphertext alone, under the key, nonce and data it was sealed with. -/
structure Alone (box : Box) (blob : Bytes) : Prop where
  kdf : ∀ salt shared info, P.hkdf salt shared info = P.box_key box →
    salt = box.salt ∧ shared = box.shared.val ∧ info = box.info
  aead : ∀ key nonce_bytes ciphertext aad plaintext, ciphertext <:+ blob →
    P.decrypt key nonce_bytes ciphertext aad = some plaintext →
      key = P.box_key box ∧ nonce_bytes = box.nonce_bytes ∧ aad = box.aad ∧
        ciphertext = box.ciphertext

/-- A box opens for no other recipient, in no other context, and not as a reply. -/
structure OnlyForRecipient (recipient_pub : X25519Bytes) (context blob : Bytes) : Prop where
  other : ∀ secret context', P.public_key secret ≠ recipient_pub ∨ context' ≠ context →
    P.open secret blob context' = .error .DecryptionFailed
  as_reply : ∀ eph_secret server_pub bind,
    P.open_reply eph_secret server_pub blob bind = .error .DecryptionFailed

/-- A reply opens for no other client, from no other server, with no other binding, and not as a
    box. -/
structure OnlyForRequest (server_pub client_eph_pub : X25519Bytes) (bind blob : Bytes) :
    Prop where
  other : ∀ eph_secret server_pub' bind',
    P.public_key eph_secret ≠ client_eph_pub ∨ server_pub' ≠ server_pub ∨ bind' ≠ bind →
      P.open_reply eph_secret server_pub' blob bind' = .error .DecryptionFailed
  as_box : ∀ secret context, P.open secret blob context = .error .DecryptionFailed

variable {P}

/-! ### Failing to open -/

/-- There is only one way to fail. -/
theorem open_fails {secret : X25519Bytes} {blob context : Bytes}
    (h : ∀ opened, P.open secret blob context ≠ .ok opened) :
    P.open secret blob context = .error .DecryptionFailed := by
  cases hopen : P.open secret blob context with
  | ok opened => exact absurd hopen (h opened)
  | error e =>
    by_cases hlength : X25519_KEY_LEN + XNONCE_LEN ≤ blob.length
    · obtain ⟨peer_eph, nonce_bytes, ciphertext, rfl⟩ := sealed_parts hlength
      rw [open_parts] at hopen
      split at hopen
      · split at hopen
        · cases hopen
        · exact hopen.symm
      · exact hopen.symm
    · rw [← hopen]
      exact open_short (Nat.not_le.mp hlength)

theorem open_reply_fails {eph_secret server_pub : X25519Bytes} {blob bind : Bytes}
    (h : ∀ plaintext, P.open_reply eph_secret server_pub blob bind ≠ .ok plaintext) :
    P.open_reply eph_secret server_pub blob bind = .error .DecryptionFailed := by
  cases hopen : P.open_reply eph_secret server_pub blob bind with
  | ok plaintext => exact absurd hopen (h plaintext)
  | error e =>
    by_cases hlength : XNONCE_LEN ≤ blob.length
    · obtain ⟨nonce_bytes, ciphertext, rfl⟩ := reply_parts hlength
      rw [open_reply_parts] at hopen
      split at hopen
      · split at hopen
        · cases hopen
        · exact hopen.symm
      · exact hopen.symm
    · rw [← hopen]
      exact open_reply_short (Nat.not_le.mp hlength)

/-! ### What is behind a blob that opens -/

section alone
variable {box : Box} {blob : Bytes}

/-- Two public keys are both of them determined by the salt. -/
theorem salt_injective {a b a' b' : X25519Bytes} (h : a.val ++ b.val = a'.val ++ b'.val) :
    a = a' ∧ b = b' := by
  obtain ⟨ha, hb⟩ := List.append_inj h (by rw [a.property, a'.property])
  exact ⟨Subtype.ext ha, Subtype.ext hb⟩

theorem reply_aad_injective {bind bind' : Bytes} (h : reply_aad bind = reply_aad bind') :
    bind = bind' := List.append_cancel_left h

/-- What opens under a derived key was sealed with the inputs of that key. -/
theorem Alone.inputs (h : P.Alone box blob) {shared : ByteVec 32} {pub_a pub_b : X25519Bytes}
    {info aad plaintext ciphertext : Bytes} {nonce_bytes : ByteVec XNONCE_LEN}
    (hsuffix : ciphertext <:+ blob)
    (hdecrypt : P.decrypt (P.derive_key shared pub_a pub_b info) nonce_bytes ciphertext aad =
      some plaintext) :
    pub_a.val ++ pub_b.val = box.salt ∧ aad = box.aad ∧ ciphertext = box.ciphertext := by
  obtain ⟨hkey, -, haad, hciphertext⟩ := h.aead _ _ _ _ _ hsuffix hdecrypt
  obtain ⟨hsalt, -, -⟩ := h.kdf _ _ _ hkey
  exact ⟨hsalt, haad, hciphertext⟩

theorem Alone.of_open (h : P.Alone box blob) {secret : X25519Bytes} {context : Bytes}
    {opened : Bytes × X25519Bytes} (hopen : P.open secret blob context = .ok opened) :
    opened.2.val ++ (P.public_key secret).val = box.salt ∧ context = box.aad ∧
      blob.length = box.ciphertext.length + 56 := by
  obtain ⟨nonce_bytes, ciphertext, hblob, hdecrypt⟩ := open_ok hopen
  obtain ⟨hsalt, haad, hciphertext⟩ :=
    h.inputs (hblob ▸ List.suffix_append _ _) hdecrypt
  refine ⟨hsalt, haad, ?_⟩
  rw [← hciphertext, hblob, List.length_append, List.length_append, opened.2.property,
    nonce_bytes.property]
  simp only [X25519_KEY_LEN, XNONCE_LEN]
  omega

theorem Alone.of_open_reply (h : P.Alone box blob) {eph_secret server_pub : X25519Bytes}
    {bind plaintext : Bytes}
    (hopen : P.open_reply eph_secret server_pub blob bind = .ok plaintext) :
    server_pub.val ++ (P.public_key eph_secret).val = box.salt ∧ reply_aad bind = box.aad ∧
      blob.length = box.ciphertext.length + 24 := by
  obtain ⟨nonce_bytes, ciphertext, hblob, hdecrypt⟩ := open_reply_ok hopen
  obtain ⟨hsalt, haad, hciphertext⟩ :=
    h.inputs (hblob ▸ List.suffix_append _ _) hdecrypt
  refine ⟨hsalt, haad, ?_⟩
  rw [← hciphertext, hblob, List.length_append, nonce_bytes.property]
  simp only [XNONCE_LEN]
  omega

/-- A reply has no room for the header of a box, and the other way round. -/
theorem Alone.only_for_recipient {recipient_pub eph_secret : X25519Bytes}
    {context ciphertext : Bytes} {nonce_bytes : ByteVec XNONCE_LEN}
    (h : P.Alone (P.sealed_box recipient_pub context eph_secret nonce_bytes ciphertext) blob)
    (hlength : blob.length = ciphertext.length + 56) :
    P.OnlyForRecipient recipient_pub context blob where
  other := by
    intro secret context' hother
    apply open_fails
    intro opened hopen
    obtain ⟨hsalt, haad, -⟩ := h.of_open hopen
    obtain ⟨-, hpub⟩ := salt_injective hsalt
    rcases hother with hother | hother
    · exact hother hpub
    · exact hother haad
  as_reply := by
    intro client_secret server_pub bind
    apply open_reply_fails
    intro plaintext hopen
    obtain ⟨-, -, hreply⟩ := h.of_open_reply hopen
    have hciphertext : blob.length = ciphertext.length + 24 := hreply
    omega

theorem Alone.only_for_request {server_secret client_eph_pub : X25519Bytes}
    {bind ciphertext : Bytes} {nonce_bytes : ByteVec XNONCE_LEN}
    (h : P.Alone (P.reply_box server_secret client_eph_pub bind nonce_bytes ciphertext) blob)
    (hlength : blob.length = ciphertext.length + 24) :
    P.OnlyForRequest (P.public_key server_secret) client_eph_pub bind blob where
  other := by
    intro eph_secret server_pub bind' hother
    apply open_reply_fails
    intro plaintext hopen
    obtain ⟨hsalt, haad, -⟩ := h.of_open_reply hopen
    obtain ⟨hserver, hclient⟩ := salt_injective hsalt
    rcases hother with hother | hother | hother
    · exact hother hclient
    · exact hother hserver
    · exact hother (reply_aad_injective haad)
  as_box := by
    intro secret context
    apply open_fails
    intro opened hopen
    obtain ⟨-, -, hbox⟩ := h.of_open hopen
    have hciphertext : blob.length = ciphertext.length + 56 := hbox
    omega

end alone

/-! ### Both kinds of blobs -/

/-- When the cipher takes the plaintext, a blob is made of it. -/
theorem seal_of_encrypt {recipient_pub eph_secret : X25519Bytes}
    {plaintext context ciphertext : Bytes} {nonce_bytes : ByteVec XNONCE_LEN}
    (hcontributory : P.was_contributory (P.diffie_hellman eph_secret recipient_pub) = true)
    (hencrypt : P.encrypt (P.box_key
      (P.sealed_box recipient_pub context eph_secret nonce_bytes ciphertext)) nonce_bytes
        plaintext context = some ciphertext) :
    P.seal recipient_pub plaintext context eph_secret nonce_bytes =
      .ok ((P.public_key eph_secret).val ++ nonce_bytes.val ++ ciphertext, eph_secret) := by
  have hkey : P.encrypt (P.derive_key (P.diffie_hellman eph_secret recipient_pub)
      (P.public_key eph_secret) recipient_pub context) nonce_bytes plaintext context =
        some ciphertext := hencrypt
  unfold Primitives.seal
  simp only [hcontributory, hkey, Bool.not_true, Bool.false_eq_true, if_false]

theorem seal_reply_of_encrypt {server_secret client_eph_pub : X25519Bytes}
    {plaintext bind ciphertext : Bytes} {nonce_bytes : ByteVec XNONCE_LEN}
    (hcontributory : P.was_contributory (P.diffie_hellman server_secret client_eph_pub) = true)
    (hencrypt : P.encrypt (P.box_key
      (P.reply_box server_secret client_eph_pub bind nonce_bytes ciphertext)) nonce_bytes
        plaintext (reply_aad bind) = some ciphertext) :
    P.seal_reply server_secret client_eph_pub plaintext bind nonce_bytes =
      .ok (nonce_bytes.val ++ ciphertext) := by
  have hkey : P.encrypt (P.derive_key (P.diffie_hellman server_secret client_eph_pub)
      (P.public_key server_secret) client_eph_pub CTX_REPLY) nonce_bytes plaintext
        (reply_aad bind) = some ciphertext := hencrypt
  unfold seal_reply
  simp only [hcontributory, hkey, Bool.not_true, Bool.false_eq_true, if_false]

/-- A blob of either kind opens for the one it was made for as what was sealed; it opens in no other
    way when only its box was sealed; and a blob without room for a header does not open. -/
theorem blobs_open_as_sealed (hP : P.Sealing)
    (hcontributory : ∀ a b, P.was_contributory (P.diffie_hellman a (P.public_key b)) = true) :
    (∀ (secret eph_secret : X25519Bytes) (plaintext context ciphertext : Bytes)
        (nonce_bytes : ByteVec XNONCE_LEN),
      let box := P.sealed_box (P.public_key secret) context eph_secret nonce_bytes ciphertext
      P.encrypt (P.box_key box) nonce_bytes plaintext context = some ciphertext →
      ∃ blob, P.seal (P.public_key secret) plaintext context eph_secret nonce_bytes =
          .ok (blob, eph_secret) ∧
        P.open secret blob context = .ok (plaintext, P.public_key eph_secret) ∧
        (P.Alone box blob → P.OnlyForRecipient (P.public_key secret) context blob)) ∧
    (∀ (server_secret eph_secret : X25519Bytes) (plaintext bind ciphertext : Bytes)
        (nonce_bytes : ByteVec XNONCE_LEN),
      let box := P.reply_box server_secret (P.public_key eph_secret) bind nonce_bytes ciphertext
      P.encrypt (P.box_key box) nonce_bytes plaintext (reply_aad bind) = some ciphertext →
      ∃ blob, P.seal_reply server_secret (P.public_key eph_secret) plaintext bind nonce_bytes =
          .ok blob ∧
        P.open_reply eph_secret (P.public_key server_secret) blob bind = .ok plaintext ∧
        (P.Alone box blob →
          P.OnlyForRequest (P.public_key server_secret) (P.public_key eph_secret) bind blob)) ∧
    (∀ secret blob context, blob.length < X25519_KEY_LEN + XNONCE_LEN →
      P.open secret blob context = .error .DecryptionFailed) ∧
    ∀ eph_secret server_pub blob bind, blob.length < XNONCE_LEN →
      P.open_reply eph_secret server_pub blob bind = .error .DecryptionFailed := by
  refine ⟨?_, ?_, fun _ _ _ => open_short, fun _ _ _ _ => open_reply_short⟩
  · intro secret eph_secret plaintext context ciphertext nonce_bytes box hencrypt
    have hseal := seal_of_encrypt (hcontributory eph_secret secret) hencrypt
    -- the blob is long enough to have a header
    refine ⟨_, hseal, open_seal hP hseal, fun halone => halone.only_for_recipient ?_⟩
    rw [List.length_append, List.length_append, (P.public_key eph_secret).property,
      nonce_bytes.property]
    simp only [X25519_KEY_LEN, XNONCE_LEN]
    omega
  · intro server_secret eph_secret plaintext bind ciphertext nonce_bytes box hencrypt
    have hseal := seal_reply_of_encrypt (hcontributory server_secret eph_secret) hencrypt
    refine ⟨_, hseal, open_reply_seal_reply hP hseal, fun halone => halone.only_for_request ?_⟩
    rw [List.length_append, nonce_bytes.property]
    simp only [XNONCE_LEN]
    omega

/-! ### A cipher that marks one box -/

/-- Bytes of one kind. -/
def mark (n : Nat) (b : UInt8) : ByteVec n := ⟨List.replicate n b, List.length_replicate⟩

def xor_keys (a b : ByteVec 32) : ByteVec 32 := ⟨List.zipWith (· ^^^ ·) a.val b.val, by
  rw [List.length_zipWith, a.property, b.property, Nat.min_self]⟩

/-- Ones behind the length in the box, and zeros in any other. -/
def box_tag (box : Box) (key : ByteVec 32) (nonce_bytes : ByteVec XNONCE_LEN) (aad : Bytes)
    (n : Nat) : Bytes :=
  if key = mark 32 1 ∧ nonce_bytes = box.nonce_bytes ∧ aad = box.aad then
    UInt8.ofNat n :: List.replicate 15 1
  else List.replicate 16 0

/-- Primitives that keep one box apart from all others. -/
def marking_crypto (box : Box) : Primitives where
  verifying_key seed := seed
  verify_strict _ _ _ := true
  public_key secret := secret
  diffie_hellman := xor_keys
  was_contributory _ := true
  hkdf salt shared info :=
    if salt = box.salt ∧ shared = box.shared.val ∧ info = box.info then mark 32 1 else mark 32 0
  encrypt key nonce_bytes msg aad := some (msg ++ box_tag box key nonce_bytes aad msg.length)
  decrypt key nonce_bytes ciphertext aad :=
    let n := ciphertext.length - 16
    if ciphertext.drop n = box_tag box key nonce_bytes aad n then some (ciphertext.take n) else none

theorem length_box_tag (box : Box) (key : ByteVec 32) (nonce_bytes : ByteVec XNONCE_LEN)
    (aad : Bytes) (n : Nat) : (box_tag box key nonce_bytes aad n).length = 16 := by
  unfold box_tag
  split <;> rfl

theorem marking_crypto_sealing (box : Box) : (marking_crypto box).Sealing where
  dh_comm a b := by
    apply Subtype.ext
    exact List.zipWith_comm_of_comm UInt8.xor_comm
  decrypt_encrypt key nonce_bytes msg aad ciphertext h := by
    obtain rfl : msg ++ box_tag box key nonce_bytes aad msg.length = ciphertext :=
      Option.some.inj h
    have hlength : (msg ++ box_tag box key nonce_bytes aad msg.length).length - 16 =
        msg.length := by
      rw [List.length_append, length_box_tag]
      omega
    show (if List.drop _ _ = box_tag box key nonce_bytes aad _ then some (List.take _ _)
      else none) = _
    rw [hlength, List.drop_left, List.take_left, if_pos rfl]

theorem marking_crypto_key (box : Box) : (marking_crypto box).box_key box = mark 32 1 :=
  if_pos ⟨rfl, rfl, rfl⟩

/-- What the cipher opens ends in a tag. -/
theorem marking_crypto_decrypts {box : Box} {key : ByteVec 32} {nonce_bytes : ByteVec XNONCE_LEN}
    {ciphertext aad plaintext : Bytes}
    (h : (marking_crypto box).decrypt key nonce_bytes ciphertext aad = some plaintext) :
    ciphertext = plaintext ++ box_tag box key nonce_bytes aad plaintext.length := by
  have htag : (if ciphertext.drop (ciphertext.length - 16) =
      box_tag box key nonce_bytes aad (ciphertext.length - 16) then
        some (ciphertext.take (ciphertext.length - 16)) else none) = some plaintext := h
  split at htag
  · rename_i hdrop
    obtain rfl := Option.some.inj htag
    have hlength : (ciphertext.take (ciphertext.length - 16)).length = ciphertext.length - 16 := by
      rw [List.length_take]
      omega
    rw [hlength, ← hdrop, List.take_append_drop]
  · cases htag

/-- The marked box is alone in a short blob. -/
theorem marking_crypto_alone {box : Box} {header msg : Bytes}
    (hciphertext : box.ciphertext =
      msg ++ box_tag box (mark 32 1) box.nonce_bytes box.aad msg.length)
    (hshort : header.length + msg.length < 256) :
    (marking_crypto box).Alone box (header ++ box.ciphertext) where
  kdf := by
    intro salt shared info hkey
    rw [marking_crypto_key] at hkey
    have hinputs : (if salt = box.salt ∧ shared = box.shared.val ∧ info = box.info then
        mark 32 1 else mark 32 0) = mark 32 1 := hkey
    split at hinputs
    · rename_i hsame
      exact hsame
    · exact absurd hinputs (by decide)
  aead := by
    intro key nonce_bytes ciphertext aad plaintext hsuffix hdecrypt
    obtain ⟨pre, hblob⟩ := hsuffix
    have hparts := marking_crypto_decrypts hdecrypt
    -- both texts end in 16 bytes of a tag
    have hends : pre ++ plaintext = header ++ msg ∧ box_tag box key nonce_bytes aad
        plaintext.length = box_tag box (mark 32 1) box.nonce_bytes box.aad msg.length := by
      apply List.append_inj'
      · rw [List.append_assoc, List.append_assoc, ← hciphertext, ← hparts, hblob]
      · rw [length_box_tag, length_box_tag]
    obtain ⟨hfront, htag⟩ := hends
    have hlength : plaintext.length < 256 ∧ msg.length < 256 := by
      have hsum := congrArg List.length hfront
      rw [List.length_append, List.length_append] at hsum
      omega
    have hmarked : box_tag box (mark 32 1) box.nonce_bytes box.aad msg.length =
        UInt8.ofNat msg.length :: List.replicate 15 1 := if_pos ⟨rfl, rfl, rfl⟩
    rw [hmarked] at htag
    by_cases hsame : key = mark 32 1 ∧ nonce_bytes = box.nonce_bytes ∧ aad = box.aad
    · unfold box_tag at htag
      rw [if_pos hsame] at htag
      -- the tag holds the length
      have hhead := congrArg UInt8.toNat (List.cons.inj htag).1
      rw [UInt8.toNat_ofNat', UInt8.toNat_ofNat', Nat.mod_eq_of_lt hlength.1,
        Nat.mod_eq_of_lt hlength.2] at hhead
      obtain ⟨-, hmsg⟩ := List.append_inj' hfront hhead
      obtain ⟨hkey, hnonce, haad⟩ := hsame
      refine ⟨by rw [marking_crypto_key, hkey], hnonce, haad, ?_⟩
      rw [hparts, hciphertext, hmsg, hkey, hnonce, haad]
    · unfold box_tag at htag
      rw [if_neg hsame] at htag
      exact absurd (List.cons.inj htag).2 (by decide)

theorem marking_crypto_encrypts {box : Box} {msg : Bytes}
    (hciphertext : box.ciphertext =
      msg ++ box_tag box (mark 32 1) box.nonce_bytes box.aad msg.length) :
    (marking_crypto box).encrypt ((marking_crypto box).box_key box) box.nonce_bytes msg box.aad =
      some box.ciphertext := by
  rw [marking_crypto_key, hciphertext]
  rfl

/-- The parameter "drain" in a box. -/
def drain_box : Box where
  salt := (mark 32 9).val ++ (mark 32 7).val
  shared := xor_keys (mark 32 9) (mark 32 7)
  info := CTX_PARAM
  nonce_bytes := mark 24 1
  aad := CTX_PARAM
  ciphertext := utf8 "drain".toList ++ (5 :: List.replicate 15 1)

/-- Three bytes in a reply to a request of two bytes. -/
def bound_box : Box where
  salt := (mark 32 7).val ++ (mark 32 9).val
  shared := xor_keys (mark 32 7) (mark 32 9)
  info := CTX_REPLY
  nonce_bytes := mark 24 1
  aad := reply_aad [4, 5]
  ciphertext := [1, 2, 3] ++ (3 :: List.replicate 15 1)

/-- The box and the reply open for their recipients, and for nobody else. -/
theorem blobs_open_as_sealed_marked :
    (let P := marking_crypto drain_box
      ∃ blob, P.seal (P.public_key (mark 32 7)) (utf8 "drain".toList) CTX_PARAM (mark 32 9)
          (mark 24 1) = .ok (blob, mark 32 9) ∧
        P.open (mark 32 7) blob CTX_PARAM = .ok (utf8 "drain".toList, P.public_key (mark 32 9)) ∧
        P.OnlyForRecipient (P.public_key (mark 32 7)) CTX_PARAM blob) ∧
    let P := marking_crypto bound_box
    ∃ blob, P.seal_reply (mark 32 7) (P.public_key (mark 32 9)) [1, 2, 3] [4, 5] (mark 24 1) =
        .ok blob ∧
      P.open_reply (mark 32 9) (P.public_key (mark 32 7)) blob [4, 5] = .ok [1, 2, 3] ∧
      P.OnlyForRequest (P.public_key (mark 32 7)) (P.public_key (mark 32 9)) [4, 5] blob := by
  constructor
  · have hciphertext : drain_box.ciphertext = utf8 "drain".toList ++
        box_tag drain_box (mark 32 1) drain_box.nonce_bytes drain_box.aad 5 := by
      unfold box_tag
      rw [if_pos ⟨rfl, rfl, rfl⟩]
      rfl
    have hencrypt := marking_crypto_encrypts hciphertext
    obtain ⟨blob, hseal, hopen, honly⟩ :=
      (blobs_open_as_sealed (marking_crypto_sealing drain_box) (fun _ _ => rfl)).1
        (mark 32 7) (mark 32 9) _ CTX_PARAM _ (mark 24 1) hencrypt
    obtain ⟨ciphertext, -, hsealed, hblob, -⟩ := seal_ok hseal
    obtain rfl : drain_box.ciphertext = ciphertext := Option.some.inj (hencrypt.symm.trans hsealed)
    refine ⟨blob, hseal, hopen, honly ?_⟩
    rw [hblob]
    exact marking_crypto_alone hciphertext (by decide)
  · have hciphertext : bound_box.ciphertext = [1, 2, 3] ++
        box_tag bound_box (mark 32 1) bound_box.nonce_bytes bound_box.aad 3 := by
      unfold box_tag
      rw [if_pos ⟨rfl, rfl, rfl⟩]
      rfl
    have hencrypt := marking_crypto_encrypts hciphertext
    obtain ⟨blob, hseal, hopen, honly⟩ :=
      (blobs_open_as_sealed (marking_crypto_sealing bound_box) (fun _ _ => rfl)).2.1
        (mark 32 7) (mark 32 9) _ [4, 5] _ (mark 24 1) hencrypt
    obtain ⟨ciphertext, -, hsealed, hblob⟩ := seal_reply_ok hseal
    obtain rfl : bound_box.ciphertext = ciphertext := Option.some.inj (hencrypt.symm.trans hsealed)
    refine ⟨blob, hseal, hopen, honly ?_⟩
    rw [hblob]
    exact marking_crypto_alone hciphertext (by decide)

end Primitives

end SignedPulse
