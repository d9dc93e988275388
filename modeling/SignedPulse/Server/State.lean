import SignedPulse.Framework.Sequential
import SignedPulse.Protocol.Crypto
import SignedPulse.Server.Blacklist
import SignedPulse.Server.Leases
import SignedPulse.Server.NonceStore
import SignedPulse.Server.RateLimit
import SignedPulse.Server.SeenCache

/-! # Server state and operations

    The server is a set of tables behind locks, shared by its tasks. `Op` lists
    everything a task does in one atomic step: a call on one table, a reading
    of the unix clock, a random draw, a signature check, a datagram sent, one
    phase of a hook execution. `perform` gives the effect of each.

    Whatever the environment decides at a step is in `Env`: how much time went
    by on the monotonic clock, what the unix clock shows, what the random
    generator draws, what becomes of a datagram or of a hook process, and in
    which order a hash map is walked.
-/

namespace SignedPulse

/-! ### Configuration -/

inductive WireEncryption where
  | Required
  | Off
  deriving DecidableEq

/-- The settings the handlers and tables read. -/
structure ServerConfig where
  server_id : Str
  nonce_ttl_seconds : UInt64
  client_cooldown_seconds : UInt64
  max_packet_size : Nat
  hello_rate_max : UInt32
  hello_rate_window_seconds : UInt64
  hello_max_skew_seconds : UInt64
  max_param_len : Nat
  wire_encryption : WireEncryption
  max_faulty_packets : UInt32
  blacklist_seconds : UInt64
  attack_blacklist_threshold : UInt32
  attack_window_seconds : UInt64
  attack_rejection_threshold : UInt32
  active_ip_ttl_seconds : UInt64
  max_inflight_packets : Nat
  max_tracked_ips : Nat
  lease_grace_multiplier : UInt32
  lease_max_seconds : UInt64
  max_concurrent : Nat

/-- Per-client state derived from the configuration. -/
structure ClientInfo where
  verifying_key : VerifyingKey
  name : Str

/-- What does not change while the server runs. -/
structure Server where
  config : ServerConfig
  clients : HashMap ClientId ClientInfo
  server_secret : Option X25519Bytes
  /-- A revoke hook is configured. -/
  revoke_executor : Bool
  crypto : Primitives

/-! ### Hooks -/

inductive Executor where
  | grant
  | revoke
  deriving DecidableEq

/-- Why a hook runs. -/
inductive Reason where
  | grant
  | expired
  | bye
  deriving DecidableEq

/-- The text of the `{reason}` placeholder. -/
def Reason.text : Reason → String
  | .grant => "grant"
  | .expired => "expired"
  | .bye => "bye"

/-- The arguments of `execute`. -/
structure HookCall where
  client_id : Str
  source_ip : IpAddr
  source_port : UInt16
  param : Option Str
  is_new : Bool
  reason : Reason
  ip_clients : Nat
  deriving DecidableEq

structure CommandResult where
  exit_code : Option Int32
  timed_out : Bool
  deriving DecidableEq

inductive CommandError where
  | Spawn
  | Wait
  | AtCapacity
  deriving DecidableEq

/-- How waiting for a hook process ends. -/
inductive WaitOutcome where
  | exited (code : Option Int32)
  | failed
  | timed_out
  deriving DecidableEq

/-! ### Status -/

structure PulseInfo where
  source_ip : IpAddr
  source_port : UInt16
  at_unix : Int64
  deriving DecidableEq

structure HookInfo where
  client_id : Str
  source_ip : IpAddr
  at_unix : Int64
  exit_code : Option Int32
  timed_out : Bool
  param : Option Str
  reason : Reason
  deriving DecidableEq

structure ClientStatus where
  last_pulse : Option PulseInfo
  last_hook : Option HookInfo
  last_revoke : Option HookInfo
  deriving DecidableEq

/-- The live counters, and the per-client view keyed by display name. -/
structure ServerStatus where
  hello_accepted : UInt64
  verified : UInt64
  rejected : UInt64
  replays : UInt64
  clients : HashMap Str ClientStatus

inductive StatusUpdate where
  | rejected (replay : Bool)
  | hello_accepted
  | last_pulse (name : Str) (pulse : PulseInfo)
  | last_hook (name : Str) (hook : HookInfo)
  | last_revoke (name : Str) (hook : HookInfo)

/-- `clients.entry(name).or_default()`, changed by `f`. -/
def ServerStatus.with_client (s : ServerStatus) (name : Str) (f : ClientStatus → ClientStatus) :
    ServerStatus :=
  let old := (AList.lookup name s.clients).getD
    { last_pulse := none, last_hook := none, last_revoke := none }
  { s with clients := AList.insert name (f old) s.clients }

def ServerStatus.update (s : ServerStatus) : StatusUpdate → ServerStatus
  | .rejected replay =>
    { s with rejected := s.rejected + 1, replays := if replay then s.replays + 1 else s.replays }
  | .hello_accepted => { s with hello_accepted := s.hello_accepted + 1 }
  | .last_pulse name pulse =>
    { s with verified := s.verified + 1 }.with_client name
      (fun c => { c with last_pulse := some pulse })
  | .last_hook name hook => s.with_client name (fun c => { c with last_hook := some hook })
  | .last_revoke name hook => s.with_client name (fun c => { c with last_revoke := some hook })

/-! ### State -/

structure State where
  now : Instant
  unix : Int64
  nonce_store : NonceStore
  seen_hellos : SeenCache
  rate_limiter : HelloRateLimiter
  cooldown : CooldownTracker
  blacklist : Blacklist
  active_ips : ActiveIps
  lockdown_logged : Bool
  leases : LeaseTracker
  status : ServerStatus
  /-- Datagrams that are being processed. -/
  inflight : Nat
  /-- Hook processes of each executor that hold a permit. -/
  running : Executor → Nat

/-- The tables as `Server::from_config` creates them. -/
def Server.start (srv : Server) (now : Instant) (unix : Int64) : State where
  now := now
  unix := unix
  nonce_store := ∅
  seen_hellos := ∅
  rate_limiter := .new srv.config.hello_rate_max srv.config.hello_rate_window_seconds
    srv.config.max_tracked_ips
  cooldown := .new srv.config.client_cooldown_seconds
  blacklist := .new srv.config.max_faulty_packets srv.config.blacklist_seconds
    srv.config.attack_blacklist_threshold srv.config.attack_rejection_threshold
    srv.config.attack_window_seconds srv.config.max_tracked_ips now
  active_ips := .new srv.config.active_ip_ttl_seconds srv.config.max_tracked_ips
  lockdown_logged := false
  leases := .new srv.config.max_tracked_ips
  status := { hello_accepted := 0, verified := 0, rejected := 0, replays := 0, clients := ∅ }
  inflight := 0
  running := fun _ => 0

/-! ### Operations -/

inductive Op where
  | now_unix
  | nonce_generate
  | verify_payload_raw (verifying_key : VerifyingKey) (payload : Bytes)
    (signature : ByteVec SIG_LEN)
  | rate_limiter_check (ip : IpAddr)
  | rate_limiter_purge_stale
  | seen_insert_if_absent (key : Bytes) (now : Int64) (ttl_seconds : UInt64)
  | seen_purge_expired (now : Int64)
  | nonce_insert (nonce : Bytes) (client_id : Str) (source_ip : IpAddr) (source_port : UInt16)
      (expires_at_unix : Int64)
  | nonce_validate (nonce : Bytes) (client_id : Str) (source_ip : IpAddr) (source_port : UInt16)
      (now : Int64)
  | nonce_consume (nonce : Bytes) (client_id : Str) (source_ip : IpAddr) (source_port : UInt16)
      (now : Int64)
  | nonce_purge_expired (now : Int64)
  | active_mark (ip : IpAddr)
  | is_active (ip : IpAddr)
  | active_purge_stale
  | is_blocked (ip : IpAddr)
  | under_attack
  | note_lockdown_drop
  | note_rejection
  | record_faulty (ip : IpAddr)
  | blacklist_purge_stale
  | lockdown_logged_store (logged : Bool)
  | in_cooldown (key : Str)
  | cooldown_mark (key : Str)
  | cooldown_purge_stale
  | leases_renew (client_id : Str) (ip : IpAddr) (source_port : UInt16) (param : Option Str)
      (ttl : Duration)
  | leases_release (client_id : Str)
  | leases_others_on_ip (ip : IpAddr) (client_id : Str)
  | leases_take_expired
  | status_update (u : StatusUpdate)
  | seal_reply (secret eph : X25519Bytes) (plaintext bind : Bytes)
  | send_to (datagram : Bytes) (peer : SocketAddr)
  | inflight_acquire
  | inflight_release
  | hook_acquire (x : Executor) (h : HookCall)
  | hook_spawn (x : Executor) (h : HookCall)
  | hook_wait (x : Executor) (h : HookCall)

@[reducible] def Op.Res : Op → Type
  | .now_unix => Int64
  | .nonce_generate => ByteVec NONCE_LEN
  | .verify_payload_raw .. => Except CryptoError Unit
  | .rate_limiter_check _ => Bool
  | .seen_insert_if_absent .. => Bool
  | .seen_purge_expired _ => Nat
  | .nonce_validate .. => Except ConsumeError NonceEntry
  | .nonce_consume .. => Except ConsumeError NonceEntry
  | .nonce_purge_expired _ => Nat
  | .is_active _ => Bool
  | .is_blocked _ => Bool
  | .under_attack => Bool
  | .record_faulty _ => Bool
  | .in_cooldown _ => Bool
  | .leases_renew .. => Bool
  | .leases_release _ => Option (ExpiredLease × Nat)
  | .leases_others_on_ip .. => Nat
  | .leases_take_expired => List (ExpiredLease × Nat)
  | .seal_reply .. => Except CryptoError Bytes
  | .send_to .. => Bool
  | .inflight_acquire => Bool
  | .hook_acquire .. => Bool
  | .hook_spawn .. => Bool
  | .hook_wait .. => WaitOutcome
  | _ => Unit

abbrev ops : Interface := ⟨Op, Op.Res⟩

/-- What the environment decides at a step. -/
structure Env where
  elapsed : Duration
  unix : Int64
  nonce : ByteVec NONCE_LEN
  xnonce : ByteVec XNONCE_LEN
  sent : Bool
  spawned : Bool
  outcome : WaitOutcome
  order : List Nat

namespace Server

/-- Time passes before every step. -/
def tick (s : State) (e : Env) : State := { s with now := s.now + e.elapsed, unix := e.unix }

/-- The executor's semaphore has a permit left. -/
def has_permit (srv : Server) (x : Executor) (s : State) : Bool :=
  decide (s.running x < max srv.config.max_concurrent 1)

/-- A permit is taken. -/
def take_permit (x : Executor) (running : Executor → Nat) : Executor → Nat :=
  Function.update running x (running x + 1)

/-- A permit is dropped. -/
def drop_permit (x : Executor) (running : Executor → Nat) : Executor → Nat :=
  Function.update running x (running x - 1)

/-- The in-flight semaphore has a permit left; a limit of zero stands for no limit. -/
def has_room (srv : Server) (s : State) : Bool :=
  decide (srv.config.max_inflight_packets = 0 ∨ s.inflight < srv.config.max_inflight_packets)

/-- The effect of an operation, once time has passed. -/
def effect (srv : Server) (o : Op) (e : Env) (s : State) : o.Res × State :=
  match o with
  | .now_unix => (s.unix, s)
  | .nonce_generate => (e.nonce, s)
  | .verify_payload_raw verifying_key payload signature =>
    (srv.crypto.verify_payload_raw verifying_key payload signature, s)
  | .rate_limiter_check ip =>
    let r := s.rate_limiter.check_at ip s.now
    (r.1, { s with rate_limiter := r.2 })
  | .rate_limiter_purge_stale => ((), { s with rate_limiter := s.rate_limiter.purge_stale s.now })
  | .seen_insert_if_absent key now ttl_seconds =>
    let r := s.seen_hellos.insert_if_absent key now ttl_seconds
    (r.1, { s with seen_hellos := r.2 })
  | .seen_purge_expired now =>
    let r := s.seen_hellos.purge_expired now
    (r.1, { s with seen_hellos := r.2 })
  | .nonce_insert nonce client_id source_ip source_port expires_at_unix =>
    ((), { s with
      nonce_store :=
        s.nonce_store.insert nonce client_id source_ip source_port expires_at_unix s.unix })
  | .nonce_validate nonce client_id source_ip source_port now =>
    (s.nonce_store.validate nonce client_id source_ip source_port now, s)
  | .nonce_consume nonce client_id source_ip source_port now =>
    let r := s.nonce_store.consume nonce client_id source_ip source_port now
    (r.1, { s with nonce_store := r.2 })
  | .nonce_purge_expired now =>
    let r := s.nonce_store.purge_expired now
    (r.1, { s with nonce_store := r.2 })
  | .active_mark ip => ((), { s with active_ips := s.active_ips.mark ip s.now })
  | .is_active ip => (s.active_ips.is_active_at ip s.now, s)
  | .active_purge_stale => ((), { s with active_ips := s.active_ips.purge_stale s.now })
  | .is_blocked ip => (s.blacklist.is_blocked ip s.now, s)
  | .under_attack => (s.blacklist.under_attack s.now, s)
  | .note_lockdown_drop => ((), { s with blacklist := s.blacklist.note_lockdown_drop s.now })
  | .note_rejection => ((), { s with blacklist := s.blacklist.note_rejection s.now })
  | .record_faulty ip =>
    let r := s.blacklist.record_faulty ip s.now
    (r.1, { s with blacklist := r.2 })
  | .blacklist_purge_stale => ((), { s with blacklist := s.blacklist.purge_stale s.now })
  | .lockdown_logged_store logged => ((), { s with lockdown_logged := logged })
  | .in_cooldown key => (s.cooldown.in_cooldown key s.now, s)
  | .cooldown_mark key => ((), { s with cooldown := s.cooldown.mark key s.now })
  | .cooldown_purge_stale => ((), { s with cooldown := s.cooldown.purge_stale s.now })
  | .leases_renew client_id ip source_port param ttl =>
    let r := s.leases.renew_at client_id ip source_port param ttl s.now
    (r.1, { s with leases := r.2 })
  | .leases_release client_id =>
    let r := s.leases.release_at client_id s.now
    (r.1, { s with leases := r.2 })
  | .leases_others_on_ip ip client_id => (s.leases.others_on_ip ip client_id s.now, s)
  | .leases_take_expired =>
    let r := s.leases.take_expired_at s.now e.order
    (r.1, { s with leases := r.2 })
  | .status_update u => ((), { s with status := s.status.update u })
  | .seal_reply secret eph plaintext bind =>
    (srv.crypto.seal_reply secret eph plaintext bind e.xnonce, s)
  | .send_to _ _ => (e.sent, s)
  | .inflight_acquire =>
    (srv.has_room s, { s with inflight := if srv.has_room s then s.inflight + 1 else s.inflight })
  | .inflight_release => ((), { s with inflight := s.inflight - 1 })
  | .hook_acquire x _ =>
    (srv.has_permit x s,
      { s with running := if srv.has_permit x s then take_permit x s.running else s.running })
  | .hook_spawn x _ =>
    -- a process that does not start gives its permit back
    (e.spawned, { s with running := if e.spawned then s.running else drop_permit x s.running })
  | .hook_wait x _ => (e.outcome, { s with running := drop_permit x s.running })

def perform (srv : Server) (o : Op) (e : Env) (s : State) : o.Res × State :=
  srv.effect o e (tick s e)

/-- The tables of the server, as a machine that serves any number of tasks. -/
def machine (srv : Server) : Machine ops Env State := ⟨srv.perform⟩

end Server

end SignedPulse
