import SignedPulse.Protocol.ClientIdHex
import SignedPulse.Protocol.SigningPayload
import SignedPulse.Server.State

/-! # Handlers

    What the server does with a datagram and at a cleanup tick, as programs
    over the operations of `State`. Each `await`, call on a table, random draw
    and reading of the unix clock is an operation; the computation in between
    is pure.

    - `receive`: the gates of the receive loop, then the handler
    - `handle_datagram`: unwrap, decode and dispatch
    - `handle_hello`, `handle_response`, `handle_bye`
    - `cleanup`: the purges and the lease scan

    A RESPONSE and a BYE share their checks (`verify_and_consume`); what they
    do once verified is `response_verified` and `bye_verified`.

    Logging is left out. The receive loop and the cleanup loop each take one
    turn at a time; here turns may overlap, which allows more orders of these
    operations than the source.

    A call on a table has one time. In the source `leases_renew`,
    `leases_release`, `leases_take_expired` and most other calls read the
    monotonic clock before they take the lock, and `record_faulty`,
    `note_rejection`, `note_lockdown_drop` and `blacklist_purge_stale` take
    several locks or atomics in turn. That another task gets in between is not
    modelled.
-/

namespace SignedPulse

/-- A task of the server. -/
abbrev ServerM := Program ops

namespace ServerM

abbrev perform (o : Op) : ServerM o.Res := Program.perform (I := ops) o

abbrev now_unix : ServerM Int64 := perform .now_unix
abbrev nonce_generate : ServerM (ByteVec NONCE_LEN) := perform .nonce_generate
abbrev verify_payload_raw (verifying_key : VerifyingKey) (payload : Bytes)
    (signature : ByteVec SIG_LEN) : ServerM (Except CryptoError Unit) :=
  perform (.verify_payload_raw verifying_key payload signature)
abbrev rate_limiter_check (ip : IpAddr) : ServerM Bool := perform (.rate_limiter_check ip)
abbrev seen_insert_if_absent (key : Bytes) (now : Int64) (ttl_seconds : UInt64) : ServerM Bool :=
  perform (.seen_insert_if_absent key now ttl_seconds)
abbrev seen_purge_expired (now : Int64) : ServerM Nat := perform (.seen_purge_expired now)
abbrev rate_limiter_purge_stale : ServerM Unit := perform .rate_limiter_purge_stale
abbrev nonce_insert (nonce : Bytes) (client_id : Str) (peer : SocketAddr)
    (expires_at_unix : Int64) : ServerM Unit :=
  perform (.nonce_insert nonce client_id peer.ip peer.port expires_at_unix)
abbrev nonce_validate (nonce : Bytes) (client_id : Str) (peer : SocketAddr) (now : Int64) :
    ServerM (Except ConsumeError NonceEntry) :=
  perform (.nonce_validate nonce client_id peer.ip peer.port now)
abbrev nonce_consume (nonce : Bytes) (client_id : Str) (peer : SocketAddr) (now : Int64) :
    ServerM (Except ConsumeError NonceEntry) :=
  perform (.nonce_consume nonce client_id peer.ip peer.port now)
abbrev nonce_purge_expired (now : Int64) : ServerM Nat := perform (.nonce_purge_expired now)
abbrev active_mark (ip : IpAddr) : ServerM Unit := perform (.active_mark ip)
abbrev is_active (ip : IpAddr) : ServerM Bool := perform (.is_active ip)
abbrev active_purge_stale : ServerM Unit := perform .active_purge_stale
abbrev is_blocked (ip : IpAddr) : ServerM Bool := perform (.is_blocked ip)
abbrev under_attack : ServerM Bool := perform .under_attack
abbrev note_lockdown_drop : ServerM Unit := perform .note_lockdown_drop
abbrev note_rejection : ServerM Unit := perform .note_rejection
abbrev record_faulty (ip : IpAddr) : ServerM Bool := perform (.record_faulty ip)
abbrev blacklist_purge_stale : ServerM Unit := perform .blacklist_purge_stale
abbrev lockdown_logged_store (logged : Bool) : ServerM Unit :=
  perform (.lockdown_logged_store logged)
abbrev in_cooldown (key : Str) : ServerM Bool := perform (.in_cooldown key)
abbrev cooldown_mark (key : Str) : ServerM Unit := perform (.cooldown_mark key)
abbrev cooldown_purge_stale : ServerM Unit := perform .cooldown_purge_stale
abbrev leases_renew (client_id : Str) (peer : SocketAddr) (param : Option Str) (ttl : Duration) :
    ServerM Bool :=
  perform (.leases_renew client_id peer.ip peer.port param ttl)
abbrev leases_release (client_id : Str) : ServerM (Option (ExpiredLease × Nat)) :=
  perform (.leases_release client_id)
abbrev leases_others_on_ip (ip : IpAddr) (client_id : Str) : ServerM Nat :=
  perform (.leases_others_on_ip ip client_id)
abbrev leases_take_expired : ServerM (List (ExpiredLease × Nat)) := perform .leases_take_expired
abbrev status_update (u : StatusUpdate) : ServerM Unit := perform (.status_update u)
abbrev seal_reply (secret eph : X25519Bytes) (plaintext bind : Bytes) :
    ServerM (Except CryptoError Bytes) :=
  perform (.seal_reply secret eph plaintext bind)
abbrev send_to (datagram : Bytes) (peer : SocketAddr) : ServerM Bool :=
  perform (.send_to datagram peer)
abbrev inflight_acquire : ServerM Bool := perform .inflight_acquire
abbrev inflight_release : ServerM Unit := perform .inflight_release
abbrev hook_acquire (x : Executor) (h : HookCall) : ServerM Bool := perform (.hook_acquire x h)
abbrev hook_spawn (x : Executor) (h : HookCall) : ServerM Bool := perform (.hook_spawn x h)
abbrev hook_wait (x : Executor) (h : HookCall) : ServerM WaitOutcome := perform (.hook_wait x h)

end ServerM

open ServerM

/-! ### Hook execution -/

/-- `ProcessExecutor::execute`: take a permit or refuse, start the process, wait for it. -/
def execute (x : Executor) (h : HookCall) : ServerM (Except CommandError CommandResult) := do
  let permit ← hook_acquire x h
  if !permit then return .error .AtCapacity
  else
    let spawned ← hook_spawn x h
    if !spawned then return .error .Spawn
    else
      let outcome ← hook_wait x h
      match outcome with
      | .exited code => return .ok { exit_code := code, timed_out := false }
      | .failed => return .error .Wait
      | .timed_out => return .ok { exit_code := none, timed_out := true }

/-! ### Rejections -/

def note_rejected (replay : Bool) : ServerM Unit := do
  status_update (.rejected replay)
  note_rejection

def note_faulty (ip : IpAddr) : ServerM Unit := do
  note_rejected false
  let _ ← record_faulty ip

/-- `char::is_control`: the general category `Cc`. -/
def is_control (c : Char) : Bool :=
  c.toNat ≤ 0x1f || (0x7f ≤ c.toNat && c.toNat ≤ 0x9f)

/-- How a reply to a datagram must be framed. -/
inductive ReplyMode where
  | Cleartext
  | Sealed (peer_eph : X25519Bytes)
  deriving DecidableEq

namespace Server

/-- The key of the decoy signature check. -/
def dummy_verifying_key (srv : Server) : VerifyingKey :=
  srv.crypto.verifying_key ⟨List.replicate 32 0x11, by decide⟩

/-- The display name of a client given by its hex id, or the hex itself. -/
def display_name (srv : Server) (client_hex : Str) : Str :=
  match ClientId.from_hex client_hex with
  | some (.ok id) => ((AList.lookup id srv.clients).map ClientInfo.name).getD client_hex
  | _ => client_hex

/-! ### Parameters -/

/-- The checks of `decrypt_param`, in order; `none` is a rejection. -/
def open_param (srv : Server) (blob : Bytes) : Option Str :=
  match srv.server_secret with
  | none => none
  | some secret =>
    match srv.crypto.open secret blob CTX_PARAM with
    | .error _ => none
    | .ok (plaintext, _) =>
      if plaintext.length > srv.config.max_param_len then none
      else
        match from_utf8 plaintext with
        | none => none
        | some text =>
          if text.any is_control then none
          else if text.head? = some '-' then none
          else some text

/-- Decrypt and validate the optional parameter; a failure is counted as a rejection. -/
def decrypt_param (srv : Server) (blob : Option Bytes) : ServerM (Except Unit (Option Str)) :=
  match blob with
  | none => return .ok none
  | some blob =>
    match srv.open_param blob with
    | some text => return .ok (some text)
    | none => do
      note_rejected false
      return .error ()

/-! ### HELLO -/

/-- The sealed or cleartext reply; whether it was sent. -/
def send_reply (srv : Server) (packet : Packet) (peer : SocketAddr) (reply : ReplyMode)
    (bind : Bytes) : ServerM Bool :=
  let bytes := packet.encode
  match reply with
  | .Cleartext => send_to bytes peer
  | .Sealed peer_eph =>
    match srv.server_secret with
    | none => return false
    | some secret => do
      let blob ← seal_reply secret peer_eph bytes bind
      match blob with
      | .ok blob => send_to blob peer
      | .error _ => return false

/-- The key of a HELLO in the replay cache. -/
def replay_key (hello : Hello) : Bytes :=
  hello.client_id.bytes.val ++ [0] ++ hello.hello_nonce.val

/-- `|now - timestamp|` is at most the skew. -/
def within_skew (srv : Server) (hello : Hello) (now : Int64) : Bool :=
  decide ((now.toInt - hello.client_timestamp_unix.toInt).natAbs ≤
    srv.config.hello_max_skew_seconds.toNat)

/-- The message a HELLO has to be signed over. -/
def hello_payload (srv : Server) (hello : Hello) : Bytes :=
  hello_signing_payload srv.config.server_id hello.client_id.to_hex hello.client_timestamp_unix
    (base64 hello.hello_nonce.val)

/-- Send the CHALLENGE, and count the HELLO once it is out. -/
def send_challenge (srv : Server) (hello : Hello) (nonce : ByteVec CHALLENGE_NONCE_LEN)
    (expires_at : Int64) (peer : SocketAddr) (reply : ReplyMode) : ServerM Unit := do
  let sent ← srv.send_reply (.Challenge ⟨hello.client_id, nonce, expires_at⟩) peer reply
    hello.hello_nonce.val
  if sent then status_update .hello_accepted else return ()

/-- Mint a nonce for an accepted HELLO and send the CHALLENGE. -/
def issue_challenge (srv : Server) (hello : Hello) (peer : SocketAddr) (reply : ReplyMode)
    (now : Int64) : ServerM Unit := do
  active_mark peer.ip
  let nonce ← nonce_generate
  -- the same expiry goes into the CHALLENGE and into the store
  let expires_at := unix_deadline now srv.config.nonce_ttl_seconds
  nonce_insert nonce.val hello.client_id.to_hex peer expires_at
  srv.send_challenge hello nonce expires_at peer reply

def handle_hello (srv : Server) (hello : Hello) (peer : SocketAddr) (reply : ReplyMode) :
    ServerM Unit := do
  let allowed ← rate_limiter_check peer.ip
  if !allowed then note_rejected false
  else
    match AList.lookup hello.client_id srv.clients with
    | none => do
      -- decoy, so that an unknown client takes as long as a bad signature
      let _ ← verify_payload_raw srv.dummy_verifying_key (srv.hello_payload hello) hello.signature
      note_rejected false
    | some info => do
      let checked ← verify_payload_raw info.verifying_key (srv.hello_payload hello) hello.signature
      match checked with
      | .error _ => note_rejected false
      | .ok () => do
        let now ← now_unix
        if !srv.within_skew hello now then note_rejected false
        else
          let seen_ttl := saturating_mul srv.config.hello_max_skew_seconds 2
          let fresh ← seen_insert_if_absent (replay_key hello) now seen_ttl
          if !fresh then note_rejected true
          else srv.issue_challenge hello peer reply now

/-! ### RESPONSE and BYE -/

/-- The checks that RESPONSE and BYE share; `payload` is the kind of message that was signed.
    Returns the display name of the client once the nonce is spent. -/
def verify_and_consume (srv : Server)
    (payload : Str → Str → Str → UInt32 → Int64 → Str → Bytes) (client_id : ClientId)
    (nonce : ByteVec CHALLENGE_NONCE_LEN) (interval_seconds : UInt32) (param : Option Bytes)
    (signature : ByteVec SIG_LEN) (peer : SocketAddr) : ServerM (Option Str) :=
  let client_hex := client_id.to_hex
  let nonce_b64 := base64 nonce.val
  let param_b64 := (param.map base64).getD []
  match AList.lookup client_id srv.clients with
  | none => do
    let _ ← verify_payload_raw srv.dummy_verifying_key
      (payload srv.config.server_id client_hex nonce_b64 interval_seconds 0 param_b64) signature
    note_rejected false
    return none
  | some info => do
    -- peek first, so that a bad signature cannot burn the nonce
    let now ← now_unix
    let entry ← nonce_validate nonce.val client_hex peer now
    match entry with
    | .error e => do
      note_rejected (e = .AlreadyUsed)
      return none
    | .ok entry => do
      let checked ← verify_payload_raw info.verifying_key
        (payload srv.config.server_id client_hex nonce_b64 interval_seconds entry.expires_at_unix
          param_b64) signature
      match checked with
      | .error _ => do
        note_rejected false
        return none
      | .ok () => do
        -- the single-use gate: of several handlers past the peek, one gets through
        let now ← now_unix
        let consumed ← nonce_consume nonce.val client_hex peer now
        match consumed with
        | .error e => do
          note_rejected (e = .AlreadyUsed)
          return none
        | .ok _ => return some info.name

/-- The lease TTL that follows from the advertised interval. -/
def lease_ttl (srv : Server) (interval_seconds : UInt32) : Duration :=
  Duration.from_secs (clamp
    (saturating_mul interval_seconds.toUInt64 srv.config.lease_grace_multiplier.toUInt64)
    1 srv.config.lease_max_seconds)

/-- The cooldown key of a client. -/
def id_key (client_hex : Str) : Str := "id:".toList ++ client_hex

/-- Remember an execution of the grant hook. -/
def note_granted (name : Str) (h : HookCall) (result : CommandResult) : ServerM Unit := do
  cooldown_mark (id_key h.client_id)
  let at_unix ← now_unix
  status_update (.last_hook name
    { client_id := name
      source_ip := h.source_ip
      at_unix := at_unix
      exit_code := result.exit_code
      timed_out := result.timed_out
      param := h.param
      reason := .grant })

def run_grant (name : Str) (h : HookCall) : ServerM Unit := do
  let result ← execute .grant h
  match result with
  | .error _ => return ()
  | .ok result => note_granted name h result

/-- Remember a verified pulse. -/
def note_pulse (name : Str) (peer : SocketAddr) : ServerM Unit := do
  active_mark peer.ip
  let at_unix ← now_unix
  status_update (.last_pulse name
    { source_ip := peer.ip, source_port := peer.port, at_unix := at_unix })

/-- The cooldown check, which a new session does not take. -/
def within_cooldown (is_new : Bool) (client_hex : Str) : ServerM Bool :=
  if is_new then return false else in_cooldown (id_key client_hex)

/-- A RESPONSE past all its checks: renew the lease, and run the grant hook unless a live
    session is within its cooldown. -/
def response_verified (srv : Server) (client_hex : Str) (interval_seconds : UInt32) (name : Str)
    (param : Option Str) (peer : SocketAddr) : ServerM Unit := do
  note_pulse name peer
  let is_new ← leases_renew client_hex peer param (srv.lease_ttl interval_seconds)
  let skip ← within_cooldown is_new client_hex
  if skip then return ()
  else
    let ip_clients ← leases_others_on_ip peer.ip client_hex
    run_grant name
      { client_id := client_hex
        source_ip := peer.ip
        source_port := peer.port
        param := param
        is_new := is_new
        reason := .grant
        ip_clients := ip_clients }

def handle_response (srv : Server) (resp : Response) (peer : SocketAddr) : ServerM Unit := do
  let verified ← srv.verify_and_consume response_signing_payload resp.client_id resp.nonce
    resp.interval_seconds resp.param resp.signature peer
  match verified with
  | none => return ()
  | some name => do
    let param ← srv.decrypt_param resp.param
    match param with
    | .error () => return ()
    | .ok param =>
      srv.response_verified resp.client_id.to_hex resp.interval_seconds name param peer

/-- Remember an execution of the revoke hook. -/
def note_revoked (name : Str) (h : HookCall) (result : CommandResult) : ServerM Unit := do
  let at_unix ← now_unix
  status_update (.last_revoke name
    { client_id := name
      source_ip := h.source_ip
      at_unix := at_unix
      exit_code := result.exit_code
      timed_out := result.timed_out
      param := h.param
      reason := h.reason })

def run_revoke (name : Str) (h : HookCall) : ServerM Unit := do
  let result ← execute .revoke h
  match result with
  | .error _ => return ()
  | .ok result => note_revoked name h result

/-- The revoke hook's arguments for a lease that ended. -/
def revoke_call (e : ExpiredLease) (param : Option Str) (reason : Reason) (remaining : Nat) :
    HookCall where
  client_id := e.client_id
  source_ip := e.ip
  source_port := e.source_port
  param := param
  is_new := false
  reason := reason
  ip_clients := remaining

/-- A BYE past all its checks: release the lease and run the revoke hook. -/
def bye_verified (srv : Server) (client_hex : Str) (bye_param : Option Str) : ServerM Unit := do
  let released ← leases_release client_hex
  match released with
  | none => return ()
  | some (e, remaining) =>
    if !srv.revoke_executor then return ()
    else
      run_revoke (srv.display_name e.client_id)
        (revoke_call e (bye_param.or e.param) .bye remaining)

def handle_bye (srv : Server) (bye : Bye) (peer : SocketAddr) : ServerM Unit := do
  let verified ← srv.verify_and_consume bye_signing_payload bye.client_id bye.nonce
    bye.interval_seconds bye.param bye.signature peer
  match verified with
  | none => return ()
  | some _ => do
    let bye_param ← srv.decrypt_param bye.param
    match bye_param with
    | .error () => return ()
    | .ok bye_param => srv.bye_verified bye.client_id.to_hex bye_param

/-! ### Datagrams -/

/-- The cleartext of a datagram and the framing of a reply to it. `none` when the server has no
    key to open it with. -/
def unwrap (srv : Server) (data : Bytes) : Option (Except CryptoError (Bytes × ReplyMode)) :=
  match srv.config.wire_encryption with
  | .Off => some (.ok (data, .Cleartext))
  | .Required =>
    match srv.server_secret with
    | none => none
    | some secret =>
      match srv.crypto.open secret data CTX_WIRE with
      | .ok (inner, peer_eph) => some (.ok (inner, .Sealed peer_eph))
      | .error e => some (.error e)

def handle_datagram (srv : Server) (data : Bytes) (peer : SocketAddr) : ServerM Unit :=
  match srv.unwrap data with
  | none => return ()
  | some (.error _) => note_faulty peer.ip
  | some (.ok (packet_bytes, reply)) =>
    match Packet.decode packet_bytes with
    | .error _ => note_faulty peer.ip
    | .ok (.Hello hello) => srv.handle_hello hello peer reply
    | .ok (.Response resp) => srv.handle_response resp peer
    | .ok (.Bye bye) => srv.handle_bye bye peer
    | .ok (.Challenge _) => note_rejected false

/-- A handler holds an in-flight permit; without one the datagram is dropped. -/
def with_permit (srv : Server) (data : Bytes) (peer : SocketAddr) : ServerM Unit := do
  let permit ← inflight_acquire
  if !permit then return ()
  else
    srv.handle_datagram data peer
    inflight_release

/-- The gates of the receive loop. -/
def receive (srv : Server) (data : Bytes) (peer : SocketAddr) : ServerM Unit := do
  if data.length > srv.config.max_packet_size then return ()
  else
    let blocked ← is_blocked peer.ip
    if blocked then return ()
    else
      let attacked ← under_attack
      if attacked then
        lockdown_logged_store true
        let active ← is_active peer.ip
        if !active then note_lockdown_drop
        else srv.with_permit data peer
      else
        lockdown_logged_store false
        srv.with_permit data peer

/-! ### Cleanup -/

/-- Sweep expired leases and run the revoke hook for each, one after the other. -/
def run_lease_scan (srv : Server) : ServerM Unit := do
  let expired ← leases_take_expired
  if !srv.revoke_executor then return ()
  else
    Program.each (fun x =>
      run_revoke (srv.display_name x.1.client_id) (revoke_call x.1 x.1.param .expired x.2)) expired

/-- One cleanup tick. -/
def cleanup (srv : Server) : ServerM Unit := do
  let now ← now_unix
  let _ ← nonce_purge_expired now
  let _ ← seen_purge_expired now
  rate_limiter_purge_stale
  blacklist_purge_stale
  active_purge_stale
  cooldown_purge_stale
  srv.run_lease_scan

/-- The tasks of the server. -/
inductive Job where
  | datagram (data : Bytes) (peer : SocketAddr)
  | cleanup
  deriving DecidableEq

def prog (srv : Server) : Job → ServerM Unit
  | .datagram data peer => srv.receive data peer
  | .cleanup => srv.cleanup

/-! ### A sample server

    Used by the examples of later files: cleartext wire, a revoke hook, a
    cooldown of a minute, and primitives that accept everything. -/

def sample_crypto : Primitives where
  verifying_key seed := seed
  verify_strict _ _ _ := true
  public_key secret := secret
  diffie_hellman secret _ := secret
  was_contributory _ := true
  hkdf _ _ _ := ⟨List.replicate 32 0, by decide⟩
  encrypt _ _ msg _ := some msg
  decrypt _ _ ciphertext _ := some ciphertext

def sample_config : ServerConfig where
  server_id := "gate".toList
  nonce_ttl_seconds := 30
  client_cooldown_seconds := 60
  max_packet_size := 1200
  hello_rate_max := 30
  hello_rate_window_seconds := 60
  hello_max_skew_seconds := 30
  max_param_len := 256
  wire_encryption := .Off
  max_faulty_packets := 10
  blacklist_seconds := 600
  attack_blacklist_threshold := 100
  attack_window_seconds := 60
  attack_rejection_threshold := 1000
  active_ip_ttl_seconds := 600
  max_inflight_packets := 1024
  max_tracked_ips := 100000
  lease_grace_multiplier := 3
  lease_max_seconds := 86400
  max_concurrent := 4

/-- `n` equal bytes. -/
def filled (n : Nat) (b : UInt8) : ByteVec n := ⟨List.replicate n b, List.length_replicate⟩

/-- The client whose id consists of the byte `n`. -/
def sample_id (n : UInt8) : ClientId := ⟨⟨List.replicate 32 n, List.length_replicate⟩⟩

/-- The address 192.0.2.`n`. -/
def sample_peer (n : UInt8) : SocketAddr := { ip := .V4 ⟨[192, 0, 2, n], rfl⟩, port := 7370 }

/-- Two clients, 1 and 2. -/
def sample : Server where
  config := sample_config
  clients :=
    AList.insert (sample_id 1) { verifying_key := ⟨List.replicate 32 1, by decide⟩, name := ['a'] }
      (AList.insert (sample_id 2)
        { verifying_key := ⟨List.replicate 32 2, by decide⟩, name := ['b'] } ∅)
  server_secret := none
  revoke_executor := true
  crypto := sample_crypto

/-- One second passes; hooks start, and exit with code zero. `n` is the drawn nonce. -/
def sample_env (unix : Int64) (n : UInt8) : Env where
  elapsed := 1000000000
  unix := unix
  nonce := ⟨List.replicate 32 n, List.length_replicate⟩
  xnonce := ⟨List.replicate 24 0, by decide⟩
  sent := true
  spawned := true
  outcome := .exited (some 0)
  order := []

/-- A HELLO of client `n`. -/
def sample_hello (n : UInt8) (timestamp : Int64) (hello_nonce : UInt8) : Hello where
  client_id := sample_id n
  client_timestamp_unix := timestamp
  hello_nonce := ⟨List.replicate 16 hello_nonce, List.length_replicate⟩
  signature := ⟨List.replicate 64 0, by decide⟩

/-- The RESPONSE of client `n` to a CHALLENGE, at an interval of a minute. -/
def sample_response (n nonce : UInt8) : Response where
  client_id := sample_id n
  nonce := ⟨List.replicate 32 nonce, List.length_replicate⟩
  interval_seconds := 60
  param := none
  signature := ⟨List.replicate 64 0, by decide⟩

/-- The BYE of client `n`. -/
def sample_bye (n nonce : UInt8) : Bye where
  client_id := sample_id n
  nonce := ⟨List.replicate 32 nonce, List.length_replicate⟩
  interval_seconds := 60
  param := none
  signature := ⟨List.replicate 64 0, by decide⟩

/-- Client `n` shows up at `peer`: a HELLO and the RESPONSE to its CHALLENGE. -/
def sample_pulse (n : UInt8) (peer : SocketAddr) (nonce : UInt8)
    (e : Env) : List (Job × List Env) :=
  let e := { e with nonce := ⟨List.replicate 32 nonce, List.length_replicate⟩ }
  [(.datagram (Packet.Hello (sample_hello n e.unix nonce)).encode peer, List.replicate 24 e),
    (.datagram (Packet.Response (sample_response n nonce)).encode peer, List.replicate 24 e)]

end Server

end SignedPulse
