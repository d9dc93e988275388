import Mathlib.Data.Set.Basic
import Mathlib.Order.Disjoint
import SignedPulse.Protocol.Packet

/-! # Canonical signing payloads

    The texts that a client signs in a HELLO, a RESPONSE and a BYE. Fields
    are neither escaped nor length-prefixed and the server id, which comes
    first, is an arbitrary text. The fields behind it are hex, base64 and
    decimal: none of them contains a line feed, so the lines of a payload can
    be read off from its right end, and the server id is what remains.
-/

namespace SignedPulse

/-- The protocol identifier, a label inside the payloads. -/
def PROTOCOL_NAME : Str := "signedpulse".toList

/-- A line feed followed by `key=value`. -/
def line (key : String) (value : Str) : Str := '\n' :: (key.toList ++ '=' :: value)

/-- The first line: protocol name, version and message kind. -/
def payload_header (kind : String) : Str :=
  PROTOCOL_NAME ++ ":v".toList ++ decimal PROTOCOL_VERSION.toNat ++ ":".toList ++ kind.toList

/-- The message signed in a RESPONSE. -/
def response_signing_payload (server_id client_id_hex nonce_b64 : Str)
    (interval_seconds : UInt32) (expires_at_unix : Int64) (param_ciphertext_b64 : Str) : Bytes :=
  utf8 (payload_header "response"
    ++ line "server_id" server_id
    ++ line "client_id" client_id_hex
    ++ line "nonce" nonce_b64
    ++ line "interval" (decimal interval_seconds.toNat)
    ++ line "expires_at" (decimal expires_at_unix.toInt)
    ++ line "param" param_ciphertext_b64)

/-- The message signed in a BYE: the same fields under another header. -/
def bye_signing_payload (server_id client_id_hex nonce_b64 : Str)
    (interval_seconds : UInt32) (expires_at_unix : Int64) (param_ciphertext_b64 : Str) : Bytes :=
  utf8 (payload_header "bye"
    ++ line "server_id" server_id
    ++ line "client_id" client_id_hex
    ++ line "nonce" nonce_b64
    ++ line "interval" (decimal interval_seconds.toNat)
    ++ line "expires_at" (decimal expires_at_unix.toInt)
    ++ line "param" param_ciphertext_b64)

/-- The message signed in a HELLO. -/
def hello_signing_payload (server_id client_id_hex : Str) (timestamp_unix : Int64)
    (hello_nonce_b64 : Str) : Bytes :=
  utf8 (payload_header "hello"
    ++ line "server_id" server_id
    ++ line "client_id" client_id_hex
    ++ line "timestamp" (decimal timestamp_unix.toInt)
    ++ line "hello_nonce" hello_nonce_b64)

/-! ### Reading lines off the right end -/

/-- A last line with a known key and no line feed in its value is unique. -/
theorem line_inj {key : String} {s t v w : Str} (hkey : '\n' ∉ key.toList)
    (hv : '\n' ∉ v) (hw : '\n' ∉ w) (h : s ++ line key v = t ++ line key w) :
    s = t ∧ v = w := by
  have mem_free : ∀ {u : Str}, '\n' ∉ u → '\n' ∉ key.toList ++ '=' :: u := by
    intro u hu hmem
    rcases List.mem_append.mp hmem with hmem | hmem
    · exact hkey hmem
    · rcases List.mem_cons.mp hmem with hmem | hmem
      · exact absurd hmem (by decide)
      · exact hu hmem
  obtain ⟨hst, hlast⟩ := last_line_inj (mem_free hv) (mem_free hw) h
  exact ⟨hst, (List.cons.inj (List.append_cancel_left hlast)).2⟩

/-- The first line does not absorb the server id. -/
theorem server_id_inj {kind : String} {s t : Str}
    (h : payload_header kind ++ line "server_id" s = payload_header kind ++ line "server_id" t) :
    s = t := by
  have hline := (List.cons.inj (List.append_cancel_left h)).2
  exact (List.cons.inj (List.append_cancel_left hline)).2

theorem toNat_int_injective {a b : UInt32} (h : decimal a.toNat = decimal b.toNat) : a = b :=
  UInt32.toNat_inj.mp (Int.ofNat.inj (decimal_injective h))

theorem toInt_injective {a b : Int64} (h : decimal a.toInt = decimal b.toInt) : a = b :=
  Int64.toInt_inj.mp (decimal_injective h)

/-! ### Injectivity -/

/-- The fields that RESPONSE and BYE share, under any header, determine each other. -/
theorem response_fields_inj {kind : String} {sid sid' : Str} {id id' : ClientId}
    {n n' c c' : Bytes} {i i' : UInt32} {e e' : Int64}
    (h : utf8 (payload_header kind ++ line "server_id" sid ++ line "client_id" id.to_hex
        ++ line "nonce" (base64 n) ++ line "interval" (decimal i.toNat)
        ++ line "expires_at" (decimal e.toInt) ++ line "param" (base64 c)) =
      utf8 (payload_header kind ++ line "server_id" sid' ++ line "client_id" id'.to_hex
        ++ line "nonce" (base64 n') ++ line "interval" (decimal i'.toNat)
        ++ line "expires_at" (decimal e'.toInt) ++ line "param" (base64 c'))) :
    sid = sid' ∧ id = id' ∧ n = n' ∧ i = i' ∧ e = e' ∧ c = c' := by
  obtain ⟨h, hc⟩ := line_inj (by decide) (newline_notMem_base64 c) (newline_notMem_base64 c')
    (utf8_injective h)
  obtain ⟨h, he⟩ := line_inj (by decide) (newline_notMem_decimal _) (newline_notMem_decimal _) h
  obtain ⟨h, hi⟩ := line_inj (by decide) (newline_notMem_decimal _) (newline_notMem_decimal _) h
  obtain ⟨h, hn⟩ := line_inj (by decide) (newline_notMem_base64 n) (newline_notMem_base64 n') h
  obtain ⟨h, hid⟩ := line_inj (by decide) (newline_notMem_hex _) (newline_notMem_hex _) h
  exact ⟨server_id_inj h, ClientId.to_hex_injective hid, base64_injective hn,
    toNat_int_injective hi, toInt_injective he, base64_injective hc⟩

theorem hello_fields_inj {sid sid' : Str} {id id' : ClientId} {n n' : Bytes} {t t' : Int64}
    (h : hello_signing_payload sid id.to_hex t (base64 n) =
      hello_signing_payload sid' id'.to_hex t' (base64 n')) :
    sid = sid' ∧ id = id' ∧ t = t' ∧ n = n' := by
  obtain ⟨h, hn⟩ := line_inj (by decide) (newline_notMem_base64 n) (newline_notMem_base64 n')
    (utf8_injective h)
  obtain ⟨h, ht⟩ := line_inj (by decide) (newline_notMem_decimal _) (newline_notMem_decimal _) h
  obtain ⟨h, hid⟩ := line_inj (by decide) (newline_notMem_hex _) (newline_notMem_hex _) h
  exact ⟨server_id_inj h, ClientId.to_hex_injective hid, toInt_injective ht,
    base64_injective hn⟩

/-! ### Disjointness -/

/-- Two message kinds with different first letters give different payloads. -/
theorem payload_header_ne {kind kind' : String} {s t : Str}
    (hkind : kind.toList.head? ≠ kind'.toList.head?)
    (hs : kind.toList ≠ []) (ht : kind'.toList ≠ []) :
    payload_header kind ++ s ≠ payload_header kind' ++ t := by
  intro h
  simp only [payload_header, List.append_assoc, List.append_cancel_left_eq] at h
  have hhead := congrArg List.head? h
  rw [List.head?_append_of_ne_nil _ hs, List.head?_append_of_ne_nil _ ht] at hhead
  exact hkind hhead

theorem response_ne_bye (sid sid' id id' n n' : Str) (i i' : UInt32) (e e' : Int64)
    (c c' : Str) :
    response_signing_payload sid id n i e c ≠ bye_signing_payload sid' id' n' i' e' c' := by
  intro h
  have htext := utf8_injective h
  simp only [List.append_assoc] at htext
  exact payload_header_ne (by decide) (by decide) (by decide) htext

theorem response_ne_hello (sid sid' id id' n n' : Str) (i : UInt32) (e t : Int64) (c : Str) :
    response_signing_payload sid id n i e c ≠ hello_signing_payload sid' id' t n' := by
  intro h
  have htext := utf8_injective h
  simp only [List.append_assoc] at htext
  exact payload_header_ne (by decide) (by decide) (by decide) htext

theorem bye_ne_hello (sid sid' id id' n n' : Str) (i : UInt32) (e t : Int64) (c : Str) :
    bye_signing_payload sid id n i e c ≠ hello_signing_payload sid' id' t n' := by
  intro h
  have htext := utf8_injective h
  simp only [List.append_assoc] at htext
  exact payload_header_ne (by decide) (by decide) (by decide) htext

/-! ### Main result -/

/-- Each payload determines all its fields, whatever the server ids are, and
    no payload is a payload of another kind: one signature authorises one message. -/
theorem signing_payloads_unambiguous :
    Function.Injective (fun a : Str × ClientId × Bytes × UInt32 × Int64 × Bytes =>
      response_signing_payload a.1 a.2.1.to_hex (base64 a.2.2.1) a.2.2.2.1 a.2.2.2.2.1
        (base64 a.2.2.2.2.2)) ∧
    Function.Injective (fun a : Str × ClientId × Bytes × UInt32 × Int64 × Bytes =>
      bye_signing_payload a.1 a.2.1.to_hex (base64 a.2.2.1) a.2.2.2.1 a.2.2.2.2.1
        (base64 a.2.2.2.2.2)) ∧
    Function.Injective (fun a : Str × ClientId × Int64 × Bytes =>
      hello_signing_payload a.1 a.2.1.to_hex a.2.2.1 (base64 a.2.2.2)) ∧
    (∀ sid sid' id id' n n' i i' e e' c c',
      response_signing_payload sid id n i e c ≠ bye_signing_payload sid' id' n' i' e' c') ∧
    (∀ sid sid' id id' n n' i e t c,
      response_signing_payload sid id n i e c ≠ hello_signing_payload sid' id' t n') ∧
    (∀ sid sid' id id' n n' i e t c,
      bye_signing_payload sid id n i e c ≠ hello_signing_payload sid' id' t n') := by
  refine ⟨?_, ?_, ?_, response_ne_bye, response_ne_hello, bye_ne_hello⟩
  · rintro ⟨sid, id, n, i, e, c⟩ ⟨sid', id', n', i', e', c'⟩ h
    obtain ⟨rfl, rfl, rfl, rfl, rfl, rfl⟩ := response_fields_inj h
    rfl
  · rintro ⟨sid, id, n, i, e, c⟩ ⟨sid', id', n', i', e', c'⟩ h
    obtain ⟨rfl, rfl, rfl, rfl, rfl, rfl⟩ := response_fields_inj h
    rfl
  · rintro ⟨sid, id, t, n⟩ ⟨sid', id', t', n'⟩ h
    obtain ⟨rfl, rfl, rfl, rfl⟩ := hello_fields_inj h
    rfl

end SignedPulse
