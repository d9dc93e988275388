import SignedPulse.Framework.Text

/-! # Wire packets

    The compact binary framing: a two-byte header (magic, then version and
    packet type packed into one byte) followed by a body with one of four
    layouts. Integers are little-endian; a RESPONSE and a BYE carry an
    optional parameter behind a `u16` length, where length zero stands for
    "no parameter".

    `Packet.encode` and `Packet.decode` follow the source; `RoundTrip` has the
    round trips.
-/

namespace SignedPulse

/-! ### Constants and errors -/

/-- The protocol version (four bits on the wire). -/
def PROTOCOL_VERSION : UInt8 := 2

/-- The first header byte. -/
def MAGIC : UInt8 := 0x5A

def TYPE_HELLO : UInt8 := 0
def TYPE_CHALLENGE : UInt8 := 1
def TYPE_RESPONSE : UInt8 := 2
def TYPE_BYE : UInt8 := 3

def CLIENT_ID_LEN : Nat := 32
def HELLO_NONCE_LEN : Nat := 16
def CHALLENGE_NONCE_LEN : Nat := 32
def SIG_LEN : Nat := 64

inductive ProtocolError where
  | Truncated
  | BadMagic
  | WrongVersion (version : UInt8)
  | UnknownType (packet_type : UInt8)
  | TrailingBytes
  | BadClientIdHex
  deriving DecidableEq, Repr

/-! ### Packets -/

/-- A 256-bit client identifier. -/
structure ClientId where
  bytes : ByteVec CLIENT_ID_LEN
  deriving DecidableEq

/-- Lower-case hex, 64 characters. -/
def ClientId.to_hex (id : ClientId) : Str := hex id.bytes.val

theorem ClientId.to_hex_injective : Function.Injective ClientId.to_hex := by
  intro a b h
  have hbytes : a.bytes = b.bytes := Subtype.ext (hex_injective h)
  cases a; cases b; exact congrArg ClientId.mk hbytes

/-- HELLO: the client announces itself. -/
structure Hello where
  client_id : ClientId
  client_timestamp_unix : Int64
  hello_nonce : ByteVec HELLO_NONCE_LEN
  signature : ByteVec SIG_LEN
  deriving DecidableEq

/-- CHALLENGE: the server's reply with the single-use nonce. -/
structure Challenge where
  client_id : ClientId
  nonce : ByteVec CHALLENGE_NONCE_LEN
  expires_at_unix : Int64
  deriving DecidableEq

/-- RESPONSE: the signed answer to a CHALLENGE, with an optional sealed parameter. -/
structure Response where
  client_id : ClientId
  nonce : ByteVec CHALLENGE_NONCE_LEN
  interval_seconds : UInt32
  param : Option Bytes
  signature : ByteVec SIG_LEN
  deriving DecidableEq

/-- BYE: laid out like a RESPONSE, but asks for the lease to be released. -/
structure Bye where
  client_id : ClientId
  nonce : ByteVec CHALLENGE_NONCE_LEN
  interval_seconds : UInt32
  param : Option Bytes
  signature : ByteVec SIG_LEN
  deriving DecidableEq

inductive Packet where
  | Hello (h : Hello)
  | Challenge (c : Challenge)
  | Response (r : Response)
  | Bye (b : Bye)
  deriving DecidableEq

/-! ### Encoding -/

def header (packet_type : UInt8) : Bytes :=
  [MAGIC, (PROTOCOL_VERSION <<< 4) ||| (packet_type &&& 0x0f)]

def i64_to_le_bytes (x : Int64) : Bytes := le_bytes 8 x.toUInt64.toNat

def u32_to_le_bytes (x : UInt32) : Bytes := le_bytes 4 x.toNat

def u16_to_le_bytes (x : UInt16) : Bytes := le_bytes 2 x.toNat

/-- `param.as_deref().unwrap_or(&[])` behind its length, which is cast to `u16`. -/
def encode_param (param : Option Bytes) : Bytes :=
  let param := param.getD []
  u16_to_le_bytes (UInt16.ofNat param.length) ++ param

/-- The body shared by RESPONSE and BYE. -/
def encode_response_body (client_id : ClientId) (nonce : ByteVec CHALLENGE_NONCE_LEN)
    (interval_seconds : UInt32) (param : Option Bytes) (signature : ByteVec SIG_LEN) : Bytes :=
  client_id.bytes.val ++ nonce.val ++ u32_to_le_bytes interval_seconds ++
    encode_param param ++ signature.val

namespace Packet

/-- The cleartext binary form of a packet. -/
def encode : Packet → Bytes
  | .Hello h =>
    header TYPE_HELLO ++ h.client_id.bytes.val ++ i64_to_le_bytes h.client_timestamp_unix ++
      h.hello_nonce.val ++ h.signature.val
  | .Challenge c =>
    header TYPE_CHALLENGE ++ c.client_id.bytes.val ++ c.nonce.val ++
      i64_to_le_bytes c.expires_at_unix
  | .Response r =>
    header TYPE_RESPONSE ++
      encode_response_body r.client_id r.nonce r.interval_seconds r.param r.signature
  | .Bye b =>
    header TYPE_BYE ++
      encode_response_body b.client_id b.nonce b.interval_seconds b.param b.signature

end Packet

/-! ### Reading

    A bounds-checked reader over a byte buffer. Each read is followed by what
    it consumed, so decoding can be compared with encoding field by field. -/

/-- A byte buffer and a position inside it. -/
structure Reader where
  buf : Bytes
  pos : Nat
  pos_le : pos ≤ buf.length

namespace Reader

def new (buf : Bytes) : Reader := ⟨buf, 0, Nat.zero_le _⟩

/-- The bytes not read yet. -/
def rest (r : Reader) : Bytes := r.buf.drop r.pos

/-- The next `n` bytes. A position past the end of the buffer is `Truncated`,
    whether or not the addition would overflow a `usize`. -/
def take (r : Reader) (n : Nat) : Except ProtocolError (ByteVec n × Reader) :=
  if h : r.pos + n ≤ r.buf.length then
    .ok (⟨(r.buf.drop r.pos).take n, by rw [List.length_take, List.length_drop]; omega⟩,
      ⟨r.buf, r.pos + n, h⟩)
  else
    .error .Truncated

def u8 (r : Reader) : Except ProtocolError (UInt8 × Reader) := do
  let (b, r) ← r.take 1
  return (UInt8.ofNat (of_le_bytes b.val), r)

def u16 (r : Reader) : Except ProtocolError (UInt16 × Reader) := do
  let (b, r) ← r.take 2
  return (UInt16.ofNat (of_le_bytes b.val), r)

def u32 (r : Reader) : Except ProtocolError (UInt32 × Reader) := do
  let (b, r) ← r.take 4
  return (UInt32.ofNat (of_le_bytes b.val), r)

def i64 (r : Reader) : Except ProtocolError (Int64 × Reader) := do
  let (b, r) ← r.take 8
  return ((UInt64.ofNat (of_le_bytes b.val)).toInt64, r)

def is_empty (r : Reader) : Bool := r.pos = r.buf.length

/-! ### Decoding -/

/-- The parameter of a RESPONSE or BYE: a `u16` length, then that many bytes;
    length zero is "no parameter". -/
def param (r : Reader) : Except ProtocolError (Option Bytes × Reader) := do
  let (param_len, r) ← r.u16
  let (param_bytes, r) ← r.take param_len.toNat
  return (if param_len = 0 then none else some param_bytes.val, r)

/-- The body shared by RESPONSE and BYE, handed to the packet's constructor. -/
def response_body {α : Type} (mk : ClientId → ByteVec CHALLENGE_NONCE_LEN → UInt32 →
    Option Bytes → ByteVec SIG_LEN → α) (r : Reader) : Except ProtocolError (α × Reader) := do
  let (client_id, r) ← r.take CLIENT_ID_LEN
  let (nonce, r) ← r.take CHALLENGE_NONCE_LEN
  let (interval_seconds, r) ← r.u32
  let (param, r) ← r.param
  let (signature, r) ← r.take SIG_LEN
  return (mk ⟨client_id⟩ nonce interval_seconds param signature, r)

end Reader

namespace Packet

/-- The body behind the header, by packet type. -/
def decode_body (packet_type : UInt8) (r : Reader) : Except ProtocolError (Packet × Reader) :=
  if packet_type = TYPE_HELLO then do
    let (client_id, r) ← r.take CLIENT_ID_LEN
    let (client_timestamp_unix, r) ← r.i64
    let (hello_nonce, r) ← r.take HELLO_NONCE_LEN
    let (signature, r) ← r.take SIG_LEN
    return (.Hello ⟨⟨client_id⟩, client_timestamp_unix, hello_nonce, signature⟩, r)
  else if packet_type = TYPE_CHALLENGE then do
    let (client_id, r) ← r.take CLIENT_ID_LEN
    let (nonce, r) ← r.take CHALLENGE_NONCE_LEN
    let (expires_at_unix, r) ← r.i64
    return (.Challenge ⟨⟨client_id⟩, nonce, expires_at_unix⟩, r)
  else if packet_type = TYPE_RESPONSE then
    r.response_body fun client_id nonce interval_seconds param signature =>
      .Response ⟨client_id, nonce, interval_seconds, param, signature⟩
  else if packet_type = TYPE_BYE then
    r.response_body fun client_id nonce interval_seconds param signature =>
      .Bye ⟨client_id, nonce, interval_seconds, param, signature⟩
  else
    .error (.UnknownType packet_type)

/-- Decode a cleartext packet: magic, version, type and exact length are checked. -/
def decode (bytes : Bytes) : Except ProtocolError Packet := do
  let (magic, r) ← (Reader.new bytes).u8
  if magic ≠ MAGIC then
    .error .BadMagic
  else do
    let (vt, r) ← r.u8
    if vt >>> 4 ≠ PROTOCOL_VERSION then
      .error (.WrongVersion (vt >>> 4))
    else do
      let (packet, r) ← decode_body (vt &&& 0x0f) r
      if r.is_empty then return packet else .error .TrailingBytes

end Packet

end SignedPulse
