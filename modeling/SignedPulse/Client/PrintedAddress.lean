import SignedPulse.Client.Cli

/-! # The address that the server prints

    The server's `init` prints a `--server` value for its clients, and leaves
    out the port when it is the default one. The client puts the default port
    behind a value that has none, but only when the value has no colon.

    An IPv6 address has colons, so its default port is left out by the one and
    not filled in by the other: `printed_host_reads_iff`.
-/

namespace SignedPulse

namespace Client

open Server (host_with_port)

theorem decimal_port (port : UInt16) : decimal port.toNat = Nat.toDigits 10 port.toNat := rfl

/-- A value that reads as a socket address is left as it is. -/
theorem normalize_addr_of_reads {socket_addr : Str → Option SocketAddr} {input : Str}
    {addr : SocketAddr} (h : socket_addr input = some addr) :
    normalize_addr socket_addr input = input := by
  unfold normalize_addr
  rw [h]
  rfl

theorem normalize_addr_of_bare {socket_addr : Str → Option SocketAddr} {input : Str}
    (h : socket_addr input = none) : normalize_addr socket_addr input =
      if ':' ∈ input then input else input ++ ':' :: decimal DEFAULT_PORT.toNat := by
  unfold normalize_addr
  rw [h]
  rfl

theorem printed_v4_reads (octets : ByteVec 4) (port : UInt16) :
    SocketAddr.from_str (normalize_addr SocketAddr.from_str (host_with_port (.V4 octets) port)) =
      some ⟨.V4 octets, port⟩ := by
  unfold host_with_port
  by_cases hport : port = DEFAULT_PORT
  · -- the client fills in what the server has left out
    have hcolon : ':' ∉ ipv4_text octets.val := notMem_ipv4 (by decide) (by decide) _
    rw [if_pos hport]
    show SocketAddr.from_str (normalize_addr SocketAddr.from_str (ipv4_text octets.val)) = _
    rw [normalize_addr_of_bare (from_str_bare_v4 octets), if_neg hcolon, decimal_port, hport]
    exact from_str_v4 octets DEFAULT_PORT
  · have hreads := from_str_v4 octets port
    rw [if_neg hport]
    show SocketAddr.from_str (normalize_addr SocketAddr.from_str
      (ipv4_text octets.val ++ ':' :: decimal port.toNat)) = _
    rw [decimal_port, normalize_addr_of_reads hreads]
    exact hreads

theorem printed_v6_reads (octets : ByteVec 16) {port : UInt16} (hport : port ≠ DEFAULT_PORT) :
    SocketAddr.from_str (normalize_addr SocketAddr.from_str (host_with_port (.V6 octets) port)) =
      some ⟨.V6 octets, port⟩ := by
  have hreads := from_str_v6 octets port
  unfold host_with_port
  rw [if_neg hport]
  show SocketAddr.from_str (normalize_addr SocketAddr.from_str
    ('[' :: (ipv6_text octets.val ++ (']' :: ':' :: decimal port.toNat)))) = _
  rw [decimal_port, normalize_addr_of_reads hreads]
  exact hreads

/-- With the default port a bare IPv6 address is printed, and the client leaves it bare. -/
theorem printed_v6_bare (octets : ByteVec 16) :
    SocketAddr.from_str
      (normalize_addr SocketAddr.from_str (host_with_port (.V6 octets) DEFAULT_PORT)) = none := by
  have hbare := from_str_bare_v6 octets
  obtain ⟨xs, s, htext, -⟩ := ipv6_text_colon octets
  have hcolon : ':' ∈ ipv6_text octets.val := by
    rw [htext]
    exact List.mem_append_right _ List.mem_cons_self
  unfold host_with_port
  rw [if_pos rfl]
  show SocketAddr.from_str (normalize_addr SocketAddr.from_str (ipv6_text octets.val)) = none
  rw [normalize_addr_of_bare hbare, if_pos hcolon]
  exact hbare

/-- What the server prints is read as the same address, unless it is an IPv6 address with the
    default port. -/
theorem printed_host_reads_iff (ip : IpAddr) (port : UInt16) :
    SocketAddr.from_str (normalize_addr SocketAddr.from_str (host_with_port ip port)) =
        some ⟨ip, port⟩ ↔
      ip.is_ipv6 = false ∨ port ≠ DEFAULT_PORT := by
  cases ip with
  | V4 octets => exact ⟨fun _ => .inl rfl, fun _ => printed_v4_reads octets port⟩
  | V6 octets =>
    constructor
    · intro hreads
      right
      intro hport
      rw [hport, printed_v6_bare octets] at hreads
      cases hreads
    · intro hcondition
      exact printed_v6_reads octets (hcondition.resolve_left Bool.true_eq_false.mp)

/-- The address of the printer's own test, with the default port. -/
theorem bare_address_printed :
    let ip : IpAddr := .V6 ⟨[32, 1, 13, 184, 0, 0, 0, 0, 0, 0, 0, 0, 0, 0, 0, 1], rfl⟩
    host_with_port ip DEFAULT_PORT = "2001:db8::1".toList ∧
      SocketAddr.from_str (normalize_addr SocketAddr.from_str (host_with_port ip DEFAULT_PORT)) ≠
        some ⟨ip, DEFAULT_PORT⟩ := by
  intro ip
  constructor
  · decide +kernel
  · rw [printed_v6_bare]
    simp

end Client

end SignedPulse
