import SignedPulse.Protocol.Packet

/-! # Packet round trips

    `Packet.decode` accepts exactly the encodings of packets whose parameter,
    if present, is 1 to 65535 bytes long, and gives back the packet encoded.
    A longer parameter has its length truncated by `encode`; such an encoding
    always leaves bytes over and is rejected.

    The argument goes field by field: a reader and a renderer form a `Codec`
    when the reader consumes exactly what the renderer produced.
-/

namespace SignedPulse

/-- A computation in `Except` succeeds iff both halves of it do. -/
theorem except_bind_eq_ok {ε α β : Type} {x : Except ε α} {f : α → Except ε β} {b : β} :
    (x >>= f) = .ok b ↔ ∃ a, x = .ok a ∧ f a = .ok b := by
  cases x with
  | error e => simp [bind, Except.bind]
  | ok a => simp [bind, Except.bind]

theorem except_ok_bind {ε α β : Type} (a : α) (f : α → Except ε β) :
    ((Except.ok a : Except ε α) >>= f) = f a := rfl

/-! ### Codecs -/

/-- `read` consumes exactly what `write` renders, on values that satisfy `valid`. -/
structure Codec {α : Type} (read : Reader → Except ProtocolError (α × Reader))
    (write : α → Bytes) (valid : α → Prop) : Prop where
  /-- What was read is valid, and is rendered by the bytes consumed. -/
  sound : ∀ {r a r'}, read r = .ok (a, r') → valid a ∧ r.rest = write a ++ r'.rest
  /-- The rendering of a valid value is read back, and nothing else is consumed. -/
  complete : ∀ {r a y}, valid a → r.rest = write a ++ y →
    ∃ r', read r = .ok (a, r') ∧ r'.rest = y

namespace Reader

@[simp] theorem rest_new (buf : Bytes) : (new buf).rest = buf := rfl

theorem rest_length (r : Reader) : r.rest.length = r.buf.length - r.pos := by
  simp [rest]

/-- A reader is empty iff nothing is left to read. -/
theorem is_empty_iff (r : Reader) : r.is_empty = true ↔ r.rest = [] := by
  have hle := r.pos_le
  rw [is_empty, decide_eq_true_eq, ← List.length_eq_zero_iff, rest_length]
  omega

/-- `take` succeeds iff enough bytes are left, and then splits them off. -/
theorem take_eq_ok_iff {r r' : Reader} {n : Nat} {v : ByteVec n} :
    r.take n = .ok (v, r') ↔ r.rest = v.val ++ r'.rest ∧ r'.buf = r.buf := by
  have hle := r.pos_le
  unfold take
  split
  · next h =>
    have hsplit : r.rest = (r.buf.drop r.pos).take n ++ (r.buf.drop (r.pos + n)) := by
      rw [← List.drop_drop, List.take_append_drop]; rfl
    constructor
    · rintro ⟨⟩
      exact ⟨hsplit, rfl⟩
    · rintro ⟨hrest, hbuf⟩
      obtain ⟨buf', pos', hpos'⟩ := r'
      simp only at hbuf
      subst hbuf
      have hlen := congrArg List.length hrest
      rw [rest_length, List.length_append, v.property, rest_length] at hlen
      simp only at hlen
      -- what is left over has to start right behind the bytes that were taken
      have hpos : pos' = r.pos + n := by omega
      subst hpos
      rw [hrest] at hsplit
      have hv := (List.append_inj hsplit (by
        rw [v.property, List.length_take, List.length_drop]; omega)).1
      simp only [Except.ok.injEq, Prod.mk.injEq, and_true]
      exact Subtype.ext hv.symm
  · next h =>
    constructor
    · intro hok; cases hok
    · rintro ⟨hrest, _⟩
      have hlen := congrArg List.length hrest
      rw [rest_length, List.length_append, v.property] at hlen
      omega

/-- With enough bytes left, `take` succeeds. -/
theorem take_of_le {r : Reader} {n : Nat} (h : n ≤ r.rest.length) :
    ∃ v r', r.take n = .ok (v, r') ∧ r'.rest = r.rest.drop n := by
  have hle := r.pos_le
  rw [rest_length] at h
  have hin : r.pos + n ≤ r.buf.length := by omega
  refine ⟨_, _, dif_pos hin, ?_⟩
  exact List.drop_drop.symm

theorem take_codec (n : Nat) : Codec (fun r => r.take n) (fun v => v.val) (fun _ => True) where
  sound h := ⟨trivial, (take_eq_ok_iff.mp h).1⟩
  complete := by
    intro r v y _ hrest
    have hlen : n ≤ r.rest.length := by
      rw [hrest, List.length_append, v.property]; omega
    obtain ⟨w, r', hok, hdrop⟩ := take_of_le hlen
    have hy : r'.rest = y := by
      have happ : (v.val ++ y).drop v.val.length = y := List.drop_left
      rw [v.property] at happ
      rw [hdrop, hrest, happ]
    have hw := (take_eq_ok_iff.mp hok).1
    rw [hrest, hy] at hw
    have hvw : v = w := Subtype.ext (List.append_cancel_right hw)
    exact ⟨r', by rw [hvw]; exact hok, hy⟩

/-- A fixed-width integer: `n` bytes converted by `ofNat`, rendered from `toNat`. -/
theorem int_codec {α : Type} {n : Nat} (ofNat : Nat → α) (toNat : α → Nat)
    (hleft : ∀ a, ofNat (toNat a) = a) (hlt : ∀ a, toNat a < 256 ^ n)
    (hright : ∀ m, m < 256 ^ n → toNat (ofNat m) = m) :
    Codec (fun r => do let (b, r) ← r.take n; return (ofNat (of_le_bytes b.val), r))
      (fun a => le_bytes n (toNat a)) (fun _ => True) where
  sound := by
    intro r a r' h
    obtain ⟨⟨b, r₁⟩, htake, hret⟩ := except_bind_eq_ok.mp h
    cases hret
    have hb : of_le_bytes b.val < 256 ^ n := by
      have := of_le_bytes_lt b.val
      rwa [b.property] at this
    have hbytes : le_bytes n (of_le_bytes b.val) = b.val := by
      have := le_bytes_of_le_bytes b.val
      rwa [b.property] at this
    refine ⟨trivial, ?_⟩
    -- the bytes that were read are those the value is rendered to
    rw [hright _ hb, hbytes]
    exact (take_eq_ok_iff.mp htake).1
  complete := by
    intro r a y _ hrest
    obtain ⟨r', hok, hy⟩ :=
      (take_codec n).complete (a := ⟨le_bytes n (toNat a), le_bytes_length n _⟩) trivial hrest
    have hval : ofNat (of_le_bytes (le_bytes n (toNat a))) = a := by
      rw [of_le_bytes_le_bytes, Nat.mod_eq_of_lt (hlt a), hleft]
    refine ⟨r', ?_, hy⟩
    rw [hok, except_ok_bind]
    show Except.ok (ofNat (of_le_bytes (le_bytes n (toNat a))), r') = _
    rw [hval]

theorem u8_codec : Codec u8 (fun x => le_bytes 1 x.toNat) (fun _ => True) :=
  int_codec UInt8.ofNat UInt8.toNat (fun _ => UInt8.ofNat_toNat) (fun x => x.toNat_lt)
    (fun _ hm => UInt8.toNat_ofNat_of_lt' hm)

theorem u16_codec : Codec u16 u16_to_le_bytes (fun _ => True) :=
  int_codec UInt16.ofNat UInt16.toNat (fun _ => UInt16.ofNat_toNat) (fun x => x.toNat_lt)
    (fun _ hm => UInt16.toNat_ofNat_of_lt' hm)

theorem u32_codec : Codec u32 u32_to_le_bytes (fun _ => True) :=
  int_codec UInt32.ofNat UInt32.toNat (fun _ => UInt32.ofNat_toNat) (fun x => x.toNat_lt)
    (fun _ hm => UInt32.toNat_ofNat_of_lt' hm)

theorem i64_codec : Codec i64 i64_to_le_bytes (fun _ => True) :=
  int_codec (fun n => (UInt64.ofNat n).toInt64) (fun x => x.toUInt64.toNat)
    (fun x => by rw [UInt64.ofNat_toNat]; rfl) (fun x => x.toUInt64.toNat_lt)
    (fun _ hm => UInt64.toNat_ofNat_of_lt' hm)

/-! ### The parameter field -/

end Reader

/-- A parameter that fits its length field, and is not confused with "none". -/
def ParamFits (param : Option Bytes) : Prop :=
  ∀ x, param = some x → 1 ≤ x.length ∧ x.length ≤ 65535

theorem ParamFits.none : ParamFits none := fun _ hx => nomatch hx

namespace Reader

theorem param_codec : Codec param encode_param ParamFits where
  sound := by
    intro r p r' h
    obtain ⟨⟨len, r₁⟩, hlen, h⟩ := except_bind_eq_ok.mp h
    obtain ⟨⟨bytes, r₂⟩, hbytes, hret⟩ := except_bind_eq_ok.mp h
    cases hret
    have h16 := (u16_codec.sound hlen).2
    have htake := (take_eq_ok_iff.mp hbytes).1
    have hsize : bytes.val.length = len.toNat := bytes.property
    -- a zero length is read as no parameter, and no parameter is written as a zero length
    by_cases hzero : len = 0
    · have hnil : bytes.val = [] := by
        rw [← List.length_eq_zero_iff, hsize, hzero]; rfl
      rw [if_pos hzero]
      refine ⟨fun x hx => (nomatch hx), ?_⟩
      rw [h16, htake, hnil, hzero]
      rfl
    · have hpos : len.toNat ≠ 0 := fun h0 => hzero (UInt16.toNat_inj.mp h0)
      have hlt := len.toNat_lt
      rw [if_neg hzero]
      constructor
      · rintro x ⟨⟩
        omega
      · have hcast : UInt16.ofNat bytes.val.length = len := by
          rw [hsize, UInt16.ofNat_toNat]
        simp only [encode_param, Option.getD_some, hcast]
        rw [h16, htake, List.append_assoc]
  complete := by
    intro r p y hfits hrest
    rw [encode_param, List.append_assoc] at hrest
    obtain ⟨r₁, hlen, hrest₁⟩ := u16_codec.complete trivial hrest
    -- the length field does not wrap
    have hsize : (p.getD []).length < 65536 := by
      cases p with
      | none => decide
      | some x => exact Nat.lt_succ_of_le (hfits x rfl).2
    have hcast : (UInt16.ofNat (p.getD []).length).toNat = (p.getD []).length :=
      UInt16.toNat_ofNat_of_lt' hsize
    obtain ⟨r₂, hbytes, hrest₂⟩ :=
      (take_codec _).complete (a := ⟨p.getD [], hcast.symm⟩) trivial hrest₁
    refine ⟨r₂, ?_, hrest₂⟩
    rw [param, hlen, except_ok_bind]
    show (r₁.take _ >>= _) = _
    rw [hbytes, except_ok_bind]
    cases p with
    | none => rfl
    | some x =>
      have hne : UInt16.ofNat x.length ≠ 0 := by
        intro h0
        have := congrArg UInt16.toNat h0
        rw [show (UInt16.ofNat x.length).toNat = x.length from hcast] at this
        have hpos := (hfits x rfl).1
        rw [this] at hpos
        exact absurd hpos (by decide)
      show Except.ok ((if UInt16.ofNat x.length = 0 then none else some x), r₂) = _
      rw [if_neg hne]

/-- A parameter of any length is read as far as its truncated length says. -/
theorem param_truncated {r : Reader} {x y : Bytes} (hrest : r.rest = encode_param (some x) ++ y) :
    ∃ p r', r.param = .ok (p, r') ∧ r'.rest = x.drop (x.length % 65536) ++ y := by
  rw [encode_param, Option.getD_some, List.append_assoc] at hrest
  obtain ⟨r₁, hlen, hrest₁⟩ := u16_codec.complete trivial hrest
  have hcast : (UInt16.ofNat x.length).toNat = x.length % 65536 := UInt16.toNat_ofNat'
  have hmod := Nat.mod_le x.length 65536
  obtain ⟨v, r₂, hbytes, hrest₂⟩ :=
    take_of_le (r := r₁) (n := (UInt16.ofNat x.length).toNat) (by
      rw [hrest₁, List.length_append]; omega)
  refine ⟨if UInt16.ofNat x.length = 0 then none else some v.val, r₂, ?_, ?_⟩
  · rw [param, hlen, except_ok_bind]
    show (r₁.take _ >>= _) = _
    rw [hbytes, except_ok_bind]
    rfl
  · rw [hrest₂, hrest₁, hcast, List.drop_append_of_le_length hmod]

end Reader

/-- The body shared by RESPONSE and BYE consumes what `encode_response_body` renders. -/
theorem Reader.response_body_sound {α : Type} {mk : ClientId → ByteVec CHALLENGE_NONCE_LEN →
    UInt32 → Option Bytes → ByteVec SIG_LEN → α} {r r' : Reader} {a : α}
    (h : r.response_body mk = .ok (a, r')) :
    ∃ client_id nonce interval param signature,
      a = mk client_id nonce interval param signature ∧ ParamFits param ∧
      r.rest = encode_response_body client_id nonce interval param signature ++ r'.rest := by
  obtain ⟨⟨client_id, r₁⟩, h1, h⟩ := except_bind_eq_ok.mp h
  obtain ⟨⟨nonce, r₂⟩, h2, h⟩ := except_bind_eq_ok.mp h
  obtain ⟨⟨interval, r₃⟩, h3, h⟩ := except_bind_eq_ok.mp h
  obtain ⟨⟨param, r₄⟩, h4, h⟩ := except_bind_eq_ok.mp h
  obtain ⟨⟨signature, r₅⟩, h5, h⟩ := except_bind_eq_ok.mp h
  cases h
  have hparam := param_codec.sound h4
  refine ⟨⟨client_id⟩, nonce, interval, param, signature, rfl, hparam.1, ?_⟩
  rw [((take_codec _).sound h1).2, ((take_codec _).sound h2).2, (u32_codec.sound h3).2,
    hparam.2, ((take_codec _).sound h5).2]
  simp [encode_response_body]

theorem Reader.response_body_complete {α : Type} (mk : ClientId → ByteVec CHALLENGE_NONCE_LEN →
    UInt32 → Option Bytes → ByteVec SIG_LEN → α) {r : Reader} {client_id : ClientId}
    {nonce : ByteVec CHALLENGE_NONCE_LEN} {interval : UInt32} {param : Option Bytes}
    {signature : ByteVec SIG_LEN} {y : Bytes} (hfits : ParamFits param)
    (hrest : r.rest = encode_response_body client_id nonce interval param signature ++ y) :
    ∃ r', r.response_body mk = .ok (mk client_id nonce interval param signature, r') ∧
      r'.rest = y := by
  simp only [encode_response_body, List.append_assoc] at hrest
  obtain ⟨r₁, h1, hrest⟩ := (take_codec CLIENT_ID_LEN).complete trivial hrest
  obtain ⟨r₂, h2, hrest⟩ := (take_codec CHALLENGE_NONCE_LEN).complete trivial hrest
  obtain ⟨r₃, h3, hrest⟩ := u32_codec.complete trivial hrest
  obtain ⟨r₄, h4, hrest⟩ := param_codec.complete hfits hrest
  obtain ⟨r₅, h5, hrest⟩ := (take_codec SIG_LEN).complete trivial hrest
  exact ⟨r₅, by simp [response_body, h1, h2, h3, h4, h5, except_ok_bind, pure, Except.pure],
    hrest⟩

/-- With a truncated parameter length the body is read, but bytes are left over. -/
theorem Reader.response_body_truncated {α : Type} (mk : ClientId →
    ByteVec CHALLENGE_NONCE_LEN → UInt32 → Option Bytes → ByteVec SIG_LEN → α) {r : Reader}
    {client_id : ClientId} {nonce : ByteVec CHALLENGE_NONCE_LEN} {interval : UInt32}
    {x : Bytes} {signature : ByteVec SIG_LEN} (hx : 65536 ≤ x.length)
    (hrest : r.rest = encode_response_body client_id nonce interval (some x) signature) :
    ∃ a r', r.response_body mk = .ok (a, r') ∧ r'.rest ≠ [] := by
  simp only [encode_response_body, List.append_assoc] at hrest
  obtain ⟨r₁, h1, hrest⟩ := (take_codec CLIENT_ID_LEN).complete trivial hrest
  obtain ⟨r₂, h2, hrest⟩ := (take_codec CHALLENGE_NONCE_LEN).complete trivial hrest
  obtain ⟨r₃, h3, hrest⟩ := u32_codec.complete trivial hrest
  obtain ⟨p, r₄, h4, hrest⟩ := param_truncated hrest
  -- at least 65536 bytes of the parameter are left, far more than a signature takes
  have hlen : r₄.rest.length = x.length - x.length % 65536 + SIG_LEN := by
    rw [hrest, List.length_append, List.length_drop, signature.property]
  have hmod := Nat.mod_lt x.length (show 0 < 65536 by decide)
  obtain ⟨s, r₅, h5, hrest₅⟩ := take_of_le (r := r₄) (n := SIG_LEN) (by omega)
  refine ⟨mk client_id nonce interval p s, r₅,
    by simp [response_body, h1, h2, h3, h4, h5, except_ok_bind, pure, Except.pure], ?_⟩
  rw [← List.length_pos_iff, hrest₅, List.length_drop]
  omega

/-! ### Packets -/

namespace Packet

/-- The packet type in the header. -/
def packet_type : Packet → UInt8
  | .Hello _ => TYPE_HELLO
  | .Challenge _ => TYPE_CHALLENGE
  | .Response _ => TYPE_RESPONSE
  | .Bye _ => TYPE_BYE

/-- The optional parameter of a packet. -/
def param : Packet → Option Bytes
  | .Response r => r.param
  | .Bye b => b.param
  | _ => none

theorem length_encode_response_body (client_id : ClientId) (nonce : ByteVec CHALLENGE_NONCE_LEN)
    (interval_seconds : UInt32) (param : Option Bytes) (signature : ByteVec SIG_LEN) :
    (encode_response_body client_id nonce interval_seconds param signature).length =
      (param.getD []).length + 134 := by
  have hu32 (x : UInt32) : (u32_to_le_bytes x).length = 4 := le_bytes_length _ _
  have hu16 (x : UInt16) : (u16_to_le_bytes x).length = 2 := le_bytes_length _ _
  simp only [encode_response_body, encode_param, List.length_append, hu32, hu16,
    client_id.bytes.property, nonce.property, signature.property, CLIENT_ID_LEN,
    CHALLENGE_NONCE_LEN, SIG_LEN]
  omega

theorem length_header (packet_type : UInt8) : (header packet_type).length = 2 := rfl

/-- A RESPONSE or a BYE is its parameter and 136 bytes. -/
theorem length_encode_of_param {p : Packet} {x : Bytes} (h : p.param = some x) :
    p.encode.length = x.length + 136 := by
  cases p with
  | Hello h' => cases h
  | Challenge c => cases h
  | Response r =>
    simp only [param] at h
    simp only [encode, List.length_append, length_header, length_encode_response_body, h,
      Option.getD_some]
    omega
  | Bye b =>
    simp only [param] at h
    simp only [encode, List.length_append, length_header, length_encode_response_body, h,
      Option.getD_some]
    omega

/-- A packet whose parameter fits its length field is not long. -/
theorem length_encode_le {p : Packet} (hfits : ParamFits p.param) : p.encode.length ≤ 65671 := by
  cases hp : p.param with
  | some x =>
    have hx := (hfits x hp).2
    rw [length_encode_of_param hp]
    omega
  | none =>
    have hi64 (x : Int64) : (i64_to_le_bytes x).length = 8 := le_bytes_length _ _
    cases p with
    | Hello h =>
      simp only [encode, List.length_append, length_header, hi64, h.client_id.bytes.property,
        h.hello_nonce.property, h.signature.property]
      decide
    | Challenge c =>
      simp only [encode, List.length_append, length_header, hi64, c.client_id.bytes.property,
        c.nonce.property]
      decide
    | Response r =>
      simp only [param] at hp
      simp only [encode, List.length_append, length_header, length_encode_response_body, hp]
      decide
    | Bye b =>
      simp only [param] at hp
      simp only [encode, List.length_append, length_header, length_encode_response_body, hp]
      decide

/-- The encoding behind the header. -/
def body (p : Packet) : Bytes := p.encode.drop 2

theorem encode_eq (p : Packet) : p.encode = header p.packet_type ++ p.body := by
  cases p <;> rfl

/-- The header bytes of a decoded type are those `header` writes. -/
theorem header_of_vt (vt : UInt8) (h : vt >>> 4 = PROTOCOL_VERSION) :
    header (vt &&& 0x0f) = [MAGIC, vt] := by
  have key : ∀ n < 256, UInt8.ofNat n >>> 4 = PROTOCOL_VERSION →
      (PROTOCOL_VERSION <<< 4) ||| ((UInt8.ofNat n &&& 0x0f) &&& 0x0f) = UInt8.ofNat n := by
    decide +kernel
  have := key vt.toNat vt.toNat_lt
  rw [UInt8.ofNat_toNat] at this
  rw [header, this h]

/-- What a decoded body consumed is the body of the packet. -/
theorem decode_body_sound {t : UInt8} {r r' : Reader} {p : Packet}
    (h : decode_body t r = .ok (p, r')) :
    p.packet_type = t ∧ ParamFits p.param ∧ r.rest = p.body ++ r'.rest := by
  have fits_none := ParamFits.none
  unfold decode_body at h
  split at h
  · next ht =>
    -- HELLO: the four fields in the order in which `encode` writes them
    obtain ⟨⟨client_id, r₁⟩, h1, h⟩ := except_bind_eq_ok.mp h
    obtain ⟨⟨timestamp, r₂⟩, h2, h⟩ := except_bind_eq_ok.mp h
    obtain ⟨⟨hello_nonce, r₃⟩, h3, h⟩ := except_bind_eq_ok.mp h
    obtain ⟨⟨signature, r₄⟩, h4, h⟩ := except_bind_eq_ok.mp h
    cases h
    refine ⟨ht.symm, fits_none, ?_⟩
    rw [((Reader.take_codec _).sound h1).2, (Reader.i64_codec.sound h2).2,
      ((Reader.take_codec _).sound h3).2, ((Reader.take_codec _).sound h4).2]
    simp [body, encode, header]
  · split at h
    · next _ ht =>
      obtain ⟨⟨client_id, r₁⟩, h1, h⟩ := except_bind_eq_ok.mp h
      obtain ⟨⟨nonce, r₂⟩, h2, h⟩ := except_bind_eq_ok.mp h
      obtain ⟨⟨expires_at, r₃⟩, h3, h⟩ := except_bind_eq_ok.mp h
      cases h
      refine ⟨ht.symm, fits_none, ?_⟩
      rw [((Reader.take_codec _).sound h1).2, ((Reader.take_codec _).sound h2).2,
        (Reader.i64_codec.sound h3).2]
      simp [body, encode, header]
    · split at h
      · next _ _ ht =>
        obtain ⟨client_id, nonce, interval, param, signature, rfl, hfits, hrest⟩ :=
          Reader.response_body_sound h
        exact ⟨ht.symm, hfits, hrest⟩
      · split at h
        · next _ _ _ ht =>
          obtain ⟨client_id, nonce, interval, param, signature, rfl, hfits, hrest⟩ :=
            Reader.response_body_sound h
          exact ⟨ht.symm, hfits, hrest⟩
        · cases h

/-- The body of a packet whose parameter fits is decoded to the packet. -/
theorem decode_body_complete {p : Packet} {r : Reader} {y : Bytes} (hfits : ParamFits p.param)
    (hrest : r.rest = p.body ++ y) :
    ∃ r', decode_body p.packet_type r = .ok (p, r') ∧ r'.rest = y := by
  cases p with
  | Hello h =>
    simp only [body, encode, header, List.append_assoc, List.cons_append, List.nil_append,
      List.drop_succ_cons, List.drop_zero] at hrest
    obtain ⟨r₁, h1, hrest⟩ := (Reader.take_codec CLIENT_ID_LEN).complete trivial hrest
    obtain ⟨r₂, h2, hrest⟩ := Reader.i64_codec.complete trivial hrest
    obtain ⟨r₃, h3, hrest⟩ := (Reader.take_codec HELLO_NONCE_LEN).complete trivial hrest
    obtain ⟨r₄, h4, hrest⟩ := (Reader.take_codec SIG_LEN).complete trivial hrest
    refine ⟨r₄, ?_, hrest⟩
    simp [packet_type, decode_body, h1, h2, h3, h4, except_ok_bind, pure, Except.pure]
  | Challenge c =>
    simp only [body, encode, header, List.append_assoc, List.cons_append, List.nil_append,
      List.drop_succ_cons, List.drop_zero] at hrest
    obtain ⟨r₁, h1, hrest⟩ := (Reader.take_codec CLIENT_ID_LEN).complete trivial hrest
    obtain ⟨r₂, h2, hrest⟩ := (Reader.take_codec CHALLENGE_NONCE_LEN).complete trivial hrest
    obtain ⟨r₃, h3, hrest⟩ := Reader.i64_codec.complete trivial hrest
    have hne : TYPE_CHALLENGE ≠ TYPE_HELLO := by decide
    refine ⟨r₃, ?_, hrest⟩
    simp [packet_type, decode_body, hne, h1, h2, h3, except_ok_bind, pure, Except.pure]
  | Response resp =>
    exact Reader.response_body_complete (fun id nonce interval param signature =>
      Packet.Response ⟨id, nonce, interval, param, signature⟩) hfits hrest
  | Bye bye =>
    exact Reader.response_body_complete (fun id nonce interval param signature =>
      Packet.Bye ⟨id, nonce, interval, param, signature⟩) hfits hrest

/-- Behind a well-formed header, decoding is decoding the body. -/
theorem decode_header (p : Packet) (x : Bytes) :
    ∃ r : Reader, r.rest = x ∧ decode (header p.packet_type ++ x) = (do
      let (packet, r) ← decode_body p.packet_type r
      if r.is_empty then return packet else .error .TrailingBytes) := by
  -- `vt` is the second header byte; each packet type survives the trip through it
  obtain ⟨vt, hheader, hversion, htype⟩ : ∃ vt, header p.packet_type = [MAGIC, vt] ∧
      vt >>> 4 = PROTOCOL_VERSION ∧ vt &&& 0x0f = p.packet_type := by
    have key : ∀ t ∈ [TYPE_HELLO, TYPE_CHALLENGE, TYPE_RESPONSE, TYPE_BYE],
        ((PROTOCOL_VERSION <<< 4) ||| (t &&& 0x0f)) >>> 4 = PROTOCOL_VERSION ∧
        ((PROTOCOL_VERSION <<< 4) ||| (t &&& 0x0f)) &&& 0x0f = t := by decide +kernel
    exact ⟨_, rfl, key p.packet_type (by cases p <;> simp [packet_type])⟩
  have hrest : (Reader.new (header p.packet_type ++ x)).rest =
      le_bytes 1 MAGIC.toNat ++ (le_bytes 1 vt.toNat ++ x) := by
    rw [Reader.rest_new, hheader]; simp [le_bytes]
  obtain ⟨r₁, h1, hrest₁⟩ := Reader.u8_codec.complete trivial hrest
  obtain ⟨r₂, h2, hrest₂⟩ := Reader.u8_codec.complete trivial hrest₁
  refine ⟨r₂, hrest₂, ?_⟩
  rw [decode, h1, except_ok_bind]
  simp only [ne_eq, not_true_eq_false, if_false, h2, except_ok_bind, hversion, htype]

/-- Decoding reads the two header bytes and then the body. -/
theorem decode_eq_ok_iff {b : Bytes} {p : Packet} :
    decode b = .ok p ↔ ParamFits p.param ∧ p.encode = b := by
  constructor
  · intro h
    obtain ⟨⟨magic, r₁⟩, h1, h⟩ := except_bind_eq_ok.mp h
    have hmagic := (Reader.u8_codec.sound h1).2
    simp only [ne_eq, ite_not] at h
    split at h
    · next hm =>
      obtain ⟨⟨vt, r₂⟩, h2, h⟩ := except_bind_eq_ok.mp h
      have hvt := (Reader.u8_codec.sound h2).2
      simp only at h
      split at h
      · next hv =>
        obtain ⟨⟨q, r₃⟩, h3, h⟩ := except_bind_eq_ok.mp h
        simp only at h
        split at h
        · next hempty =>
          cases h
          -- nothing is left over, so the datagram is the header and the body
          obtain ⟨htype, hfits, hbody⟩ := decode_body_sound h3
          refine ⟨hfits, ?_⟩
          rw [Reader.rest_new] at hmagic
          rw [encode_eq, htype, header_of_vt vt hv, hmagic, hvt, hbody,
            (Reader.is_empty_iff r₃).mp hempty, hm]
          simp [le_bytes]
        · cases h
      · cases h
    · cases h
  · rintro ⟨hfits, rfl⟩
    obtain ⟨r, hrest, hdecode⟩ := decode_header p p.body
    obtain ⟨r', hbody, hnil⟩ := decode_body_complete (y := []) hfits (by simpa using hrest)
    rw [encode_eq, hdecode, hbody, except_ok_bind]
    simp only [(Reader.is_empty_iff r').mpr hnil, if_true]
    rfl

/-- A parameter of 65536 bytes or more leaves trailing bytes behind. -/
theorem decode_encode_oversize {p : Packet} {x : Bytes} (hparam : p.param = some x)
    (hx : 65536 ≤ x.length) : decode p.encode = .error .TrailingBytes := by
  obtain ⟨r, hrest, hdecode⟩ := decode_header p p.body
  have hbody : ∃ q r', decode_body p.packet_type r = .ok (q, r') ∧ r'.rest ≠ [] := by
    cases p with
    | Hello h => cases hparam
    | Challenge c => cases hparam
    | Response resp =>
      obtain ⟨id, nonce, interval, param, signature⟩ := resp
      cases hparam
      exact Reader.response_body_truncated (fun id nonce interval param signature =>
        Packet.Response ⟨id, nonce, interval, param, signature⟩) hx hrest
    | Bye bye =>
      obtain ⟨id, nonce, interval, param, signature⟩ := bye
      cases hparam
      exact Reader.response_body_truncated (fun id nonce interval param signature =>
        Packet.Bye ⟨id, nonce, interval, param, signature⟩) hx hrest
  obtain ⟨q, r', hq, hleft⟩ := hbody
  -- the body is read, and the end of the datagram is not reached
  have hempty : r'.is_empty = false := by
    rw [Bool.eq_false_iff, ne_eq, Reader.is_empty_iff]; exact hleft
  rw [encode_eq, hdecode, hq, except_ok_bind]
  simp only [hempty, Bool.false_eq_true, if_false]

/-! ### Main result -/

/-- Decoding and encoding are inverse on packets whose parameter fits:
    decoding loses nothing, such packets come back, the accepted datagrams are
    exactly their encodings and decode to distinct packets, and an oversized
    parameter is never taken for some other packet. -/
theorem decode_encode_inverse :
    (∀ b p, decode b = .ok p → p.encode = b) ∧
    (∀ p : Packet, (∀ x, p.param = some x → 1 ≤ x.length ∧ x.length ≤ 65535) →
      decode p.encode = .ok p) ∧
    (∀ b, (∃ p, decode b = .ok p) ↔
      ∃ p : Packet, (∀ x, p.param = some x → 1 ≤ x.length ∧ x.length ≤ 65535) ∧
        p.encode = b) ∧
    (∀ b₁ b₂ p₁ p₂, decode b₁ = .ok p₁ → decode b₂ = .ok p₂ → b₁ ≠ b₂ → p₁ ≠ p₂) ∧
    (∀ (p : Packet) (x : Bytes), p.param = some x → 65536 ≤ x.length →
      ∃ e, decode p.encode = .error e) := by
  refine ⟨?_, ?_, ?_, ?_, ?_⟩
  · intro b p h
    exact (decode_eq_ok_iff.mp h).2
  · intro p hfits
    exact decode_eq_ok_iff.mpr ⟨hfits, rfl⟩
  · intro b
    exact exists_congr fun p => decode_eq_ok_iff
  · rintro b₁ b₂ p₁ p₂ h₁ h₂ hne rfl
    exact hne ((decode_eq_ok_iff.mp h₁).2.symm.trans (decode_eq_ok_iff.mp h₂).2)
  · intro p x hparam hx
    exact ⟨_, decode_encode_oversize hparam hx⟩

end Packet

end SignedPulse
