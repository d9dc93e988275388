import SignedPulse.Protocol.ClientIdSpelling
import SignedPulse.Framework.Capped
import SignedPulse.Server.State

/-! # The configuration file

    What a server is configured with, which configurations `validate` accepts,
    and the server that `from_config` builds from one.

    `validate` keeps client ids apart by their lower-cased text, `from_config`
    by the bytes they parse to. `client_ids_distinct_iff` says for which
    accepted configurations that is the same.
-/

namespace SignedPulse

namespace Config

/-! ### Sections -/

/-- The section `[server]`. -/
structure ServerSection where
  bind : Str
  server_id : Str
  nonce_ttl_seconds : UInt64
  command_timeout_seconds : UInt64
  client_cooldown_seconds : UInt64
  max_packet_size : Nat
  hello_rate_max : UInt32
  hello_rate_window_seconds : UInt64
  hello_max_skew_seconds : UInt64
  state_file : Option Str
  encryption_private_key : Option Str
  max_param_len : Nat
  wire_encryption : WireEncryption
  max_faulty_packets : UInt32
  blacklist_seconds : UInt64
  attack_blacklist_threshold : UInt32
  attack_window_seconds : UInt64
  attack_rejection_threshold : UInt32
  active_ip_ttl_seconds : UInt64
  max_inflight_packets : Nat
  max_tracked_ips : Nat
  lease_grace_multiplier : UInt32
  lease_max_seconds : UInt64
  deriving DecidableEq

structure CommandSection where
  argv : List Str
  revoke_argv : Option (List Str)
  working_dir : Option Str
  max_concurrent : Nat
  allow_shell : Bool
  deriving DecidableEq

structure ClientEntry where
  client_id : Str
  public_key : Str
  label : Option Str
  deriving DecidableEq

structure ServerConfig where
  server : ServerSection
  command : CommandSection
  clients : List ClientEntry
  deriving DecidableEq

/-! ### Validation -/

inductive ConfigError where
  | Invalid (text : String)
  /-- `client_id {:?} must be 64 hex characters (256 bits)` -/
  | ClientIdHex (client_id : Str)
  /-- `duplicate client_id {:?} in config` -/
  | DuplicateClientId (client_id : Str)
  deriving DecidableEq

/-- The checks on single settings, in order: when each fails, and the text of its error. -/
def ServerConfig.checks (cfg : ServerConfig) : List (Bool × String) :=
  [(cfg.command.argv.isEmpty, "command.argv must contain at least the program path"),
    (cfg.command.max_concurrent = 0, "command.max_concurrent must be >= 1"),
    (cfg.command.revoke_argv = some [],
      "command.revoke_argv must contain at least the program path (omit it entirely to disable auto-revoke)"),
    (cfg.server.lease_grace_multiplier = 0, "server.lease_grace_multiplier must be >= 1"),
    (cfg.server.lease_max_seconds = 0 || cfg.server.lease_max_seconds > 31536000,
      "server.lease_max_seconds must be between 1 and 31536000 (1 year)"),
    (cfg.server.max_packet_size = 0 || cfg.server.max_packet_size > 65535,
      "server.max_packet_size must be between 1 and 65535"),
    (cfg.server.command_timeout_seconds = 0, "server.command_timeout_seconds must be >= 1"),
    (cfg.server.nonce_ttl_seconds = 0, "server.nonce_ttl_seconds must be >= 1"),
    (cfg.server.hello_max_skew_seconds = 0, "server.hello_max_skew_seconds must be >= 1"),
    (cfg.server.hello_rate_window_seconds = 0, "server.hello_rate_window_seconds must be >= 1"),
    (cfg.server.max_param_len = 0 || cfg.server.max_param_len > 60000,
      "server.max_param_len must be between 1 and 60000")]

/-- The first check that fails. -/
def ServerConfig.validate_settings (cfg : ServerConfig) : Except ConfigError Unit :=
  match cfg.checks.find? (fun x => x.1) with
  | some (_, text) => .error (.Invalid text)
  | none => .ok ()

/-- Client ids are hex, and no two are the same text but for case. `seen` are the ids so far.
    `none` is a panic of `from_hex`. -/
def validate_clients : (seen : List Str) → List ClientEntry → Option (Except ConfigError Unit)
  | _, [] => some (.ok ())
  | seen, c :: clients =>
    match ClientId.from_hex c.client_id with
    | none => none
    | some (.error _) => some (.error (.ClientIdHex c.client_id))
    | some (.ok _) =>
      let lower := to_lowercase c.client_id
      if lower ∈ seen then some (.error (.DuplicateClientId c.client_id))
      else validate_clients (lower :: seen) clients

def ServerConfig.validate (cfg : ServerConfig) : Option (Except ConfigError Unit) :=
  match cfg.validate_settings with
  | .error e => some (.error e)
  | .ok () =>
    match validate_clients [] cfg.clients with
    | none => none
    | some (.error e) => some (.error e)
    | some (.ok ()) =>
      if cfg.server.wire_encryption = .Required ∧ cfg.server.encryption_private_key = none then
        some (.error (.Invalid "server.wire_encryption = \"required\" needs server.encryption_private_key (run `signedpulse-server init`)"))
      else some (.ok ())

/-! ### Building the server -/

/-- Functions of the base64 and Ed25519 crates. -/
structure KeyDecoding where
  /-- Standard base64. -/
  decode : Str → Option Bytes
  /-- `VerifyingKey::from_bytes`: the bytes are a point of the curve. -/
  from_bytes : ByteVec 32 → Option VerifyingKey

inductive KeyError where
  | Base64
  | BadPublicKey
  | BadEncryptionKey
  deriving DecidableEq

def KeyDecoding.load_verifying_key (k : KeyDecoding) (public_key_b64 : Str) :
    Except KeyError VerifyingKey :=
  match k.decode public_key_b64 with
  | none => .error .Base64
  | some decoded =>
    if h : decoded.length = 32 then
      match k.from_bytes ⟨decoded, h⟩ with
      | some key => .ok key
      | none => .error .BadPublicKey
    else .error .BadPublicKey

def KeyDecoding.x25519_from_base64 (k : KeyDecoding) (b64 : Str) : Except KeyError X25519Bytes :=
  match k.decode b64 with
  | none => .error .Base64
  | some decoded =>
    if h : decoded.length = X25519_KEY_LEN then .ok ⟨decoded, h⟩ else .error .BadEncryptionKey

/-- Why the server does not start. -/
inductive StartError where
  /-- `client {:?} has a non-hex client_id` -/
  | ClientIdHex (client_id : Str)
  /-- `client {:?} has an invalid public_key: {e}` -/
  | PublicKey (client_id : Str) (e : KeyError)
  /-- `invalid server.encryption_private_key: {e}` -/
  | PrivateKey (e : KeyError)
  deriving DecidableEq

/-- What is looked up for a client: its key, and its label or else its id as it is written. -/
def ClientEntry.info (c : ClientEntry) (verifying_key : VerifyingKey) : ClientInfo where
  verifying_key := verifying_key
  name := c.label.getD c.client_id

/-- The lookup map; a later block replaces an earlier one with the same id. -/
def insert_clients (k : KeyDecoding) : HashMap ClientId ClientInfo → List ClientEntry →
    Option (Except StartError (HashMap ClientId ClientInfo))
  | map, [] => some (.ok map)
  | map, c :: clients =>
    match ClientId.from_hex c.client_id with
    | none => none
    | some (.error _) => some (.error (.ClientIdHex c.client_id))
    | some (.ok id) =>
      match k.load_verifying_key c.public_key with
      | .error e => some (.error (.PublicKey c.client_id e))
      | .ok verifying_key => insert_clients k (AList.insert id (c.info verifying_key) map) clients

/-- The settings that the handlers and tables read. -/
def ServerConfig.settings (cfg : ServerConfig) : SignedPulse.ServerConfig where
  server_id := cfg.server.server_id
  nonce_ttl_seconds := cfg.server.nonce_ttl_seconds
  client_cooldown_seconds := cfg.server.client_cooldown_seconds
  max_packet_size := cfg.server.max_packet_size
  hello_rate_max := cfg.server.hello_rate_max
  hello_rate_window_seconds := cfg.server.hello_rate_window_seconds
  hello_max_skew_seconds := cfg.server.hello_max_skew_seconds
  max_param_len := cfg.server.max_param_len
  wire_encryption := cfg.server.wire_encryption
  max_faulty_packets := cfg.server.max_faulty_packets
  blacklist_seconds := cfg.server.blacklist_seconds
  attack_blacklist_threshold := cfg.server.attack_blacklist_threshold
  attack_window_seconds := cfg.server.attack_window_seconds
  attack_rejection_threshold := cfg.server.attack_rejection_threshold
  active_ip_ttl_seconds := cfg.server.active_ip_ttl_seconds
  max_inflight_packets := cfg.server.max_inflight_packets
  max_tracked_ips := cfg.server.max_tracked_ips
  lease_grace_multiplier := cfg.server.lease_grace_multiplier
  lease_max_seconds := cfg.server.lease_max_seconds
  max_concurrent := cfg.command.max_concurrent

/-- The X25519 secret, when one is configured. -/
def ServerConfig.secret (cfg : ServerConfig) (k : KeyDecoding) :
    Except StartError (Option X25519Bytes) :=
  match cfg.server.encryption_private_key with
  | none => .ok none
  | some b64 =>
    match k.x25519_from_base64 b64 with
    | .ok secret => .ok (some secret)
    | .error e => .error (.PrivateKey e)

def ServerConfig.from_config (cfg : ServerConfig) (k : KeyDecoding) (crypto : Primitives)
    (revoke_executor : Bool) : Option (Except StartError Server) :=
  match insert_clients k ∅ cfg.clients with
  | none => none
  | some (.error e) => some (.error e)
  | some (.ok clients) =>
    match cfg.secret k with
    | .error e => some (.error e)
    | .ok server_secret => some (.ok
      { config := cfg.settings
        clients := clients
        server_secret := server_secret
        revoke_executor := revoke_executor
        crypto := crypto })

/-! ### What an accepted configuration is like -/

/-- The client id that a block parses to. -/
def ClientEntry.id (c : ClientEntry) : Option ClientId :=
  match ClientId.from_hex c.client_id with
  | some (.ok id) => some id
  | _ => none

theorem ClientEntry.id_eq_some {c : ClientEntry} {id : ClientId} :
    c.id = some id ↔ ClientId.from_hex c.client_id = some (.ok id) := by
  unfold ClientEntry.id
  split
  · rename_i id' h
    simp [h]
  · rename_i h
    constructor
    · intro hnone
      cases hnone
    · intro hid
      exact absurd hid (h id)

theorem validate_settings_ok {cfg : ServerConfig} (h : cfg.validate_settings = .ok ()) :
    ∀ x ∈ cfg.checks, x.1 = false := by
  unfold ServerConfig.validate_settings at h
  split at h
  · cases h
  · rename_i hnone
    intro x hx
    simpa using List.find?_eq_none.mp hnone x hx

theorem validate_clients_ok {seen : List Str} {clients : List ClientEntry}
    (h : validate_clients seen clients = some (.ok ())) : ∀ c ∈ clients, ∃ id, c.id = some id := by
  induction clients generalizing seen with
  | nil => simp
  | cons c clients ih =>
    unfold validate_clients at h
    split at h
    · cases h
    · cases h
    · rename_i id hid
      dsimp only at h
      split at h
      · cases h
      · intro c' hc'
        rcases List.mem_cons.mp hc' with rfl | hc'
        · exact ⟨id, ClientEntry.id_eq_some.mpr hid⟩
        · exact ih h c' hc'

/-- An accepted configuration has passed every check. -/
theorem ServerConfig.validate_ok {cfg : ServerConfig} (h : cfg.validate = some (.ok ())) :
    (∀ x ∈ cfg.checks, x.1 = false) ∧ ∀ c ∈ cfg.clients, ∃ id, c.id = some id := by
  unfold ServerConfig.validate at h
  split at h
  · cases h
  · rename_i hsettings
    split at h
    · cases h
    · cases h
    · rename_i hclients
      exact ⟨validate_settings_ok hsettings, validate_clients_ok hclients⟩

/-- The lease limits that every running server has. -/
theorem ServerConfig.lease_limits {cfg : ServerConfig} (h : cfg.validate = some (.ok ())) :
    1 ≤ cfg.settings.lease_grace_multiplier.toNat ∧ 1 ≤ cfg.settings.lease_max_seconds.toNat := by
  have hchecks := (validate_ok h).1
  unfold checks at hchecks
  simp only [List.mem_cons, List.not_mem_nil, or_false, forall_eq_or_imp, forall_eq] at hchecks
  obtain ⟨-, -, -, hgrace, hmax, -⟩ := hchecks
  simp only [decide_eq_false_iff_not, Bool.or_eq_false_iff] at hgrace hmax
  constructor
  · exact Nat.one_le_iff_ne_zero.mpr fun hzero => hgrace (UInt32.toNat_inj.mp hzero)
  · exact Nat.one_le_iff_ne_zero.mpr fun hzero => hmax.1 (UInt64.toNat_inj.mp hzero)

/-! ### The lookup map -/

section lookup_map
variable {k : KeyDecoding} {map result : HashMap ClientId ClientInfo} {clients : List ClientEntry}

/-- One block that is inserted. -/
theorem insert_clients_cons {c : ClientEntry}
    (h : insert_clients k map (c :: clients) = some (.ok result)) :
    ∃ id key, c.id = some id ∧ k.load_verifying_key c.public_key = .ok key ∧
      insert_clients k (AList.insert id (c.info key) map) clients = some (.ok result) := by
  unfold insert_clients at h
  split at h
  · cases h
  · cases h
  · rename_i id hid
    split at h
    · cases h
    · rename_i key hkey
      exact ⟨id, key, ClientEntry.id_eq_some.mpr hid, hkey, h⟩

/-- Only the ids of the blocks are inserted. -/
theorem lookup_insert_clients_of_not_mem (h : insert_clients k map clients = some (.ok result))
    {id : ClientId} (hid : ∀ c ∈ clients, c.id ≠ some id) :
    AList.lookup id result = AList.lookup id map := by
  induction clients generalizing map with
  | nil =>
    obtain rfl : map = result := by simpa [insert_clients] using h
    rfl
  | cons c clients ih =>
    obtain ⟨id', key, hc, -, hrest⟩ := insert_clients_cons h
    have hne : id ≠ id' := by
      rintro rfl
      exact hid c List.mem_cons_self hc
    rw [ih hrest fun c' hc' => hid c' (List.mem_cons_of_mem _ hc'), AList.lookup_insert_ne hne]

/-- Blocks with distinct ids each get an entry of their own. -/
theorem insert_clients_distinct (h : insert_clients k map clients = some (.ok result))
    (hdistinct : (clients.map ClientEntry.id).Nodup)
    (hnew : ∀ c ∈ clients, ∀ id, c.id = some id → id ∉ map) :
    result.len = map.len + clients.length ∧ ∀ c ∈ clients, ∃ id key, c.id = some id ∧
      k.load_verifying_key c.public_key = .ok key ∧
      AList.lookup id result = some (c.info key) := by
  induction clients generalizing map with
  | nil =>
    obtain rfl : map = result := by simpa [insert_clients] using h
    simp
  | cons c clients ih =>
    obtain ⟨id, key, hc, hkey, hrest⟩ := insert_clients_cons h
    rw [List.map_cons, List.nodup_cons] at hdistinct
    obtain ⟨hfirst, hdistinct⟩ := hdistinct
    have hother : ∀ c' ∈ clients, c'.id ≠ some id := fun c' hc' heq =>
      hfirst (List.mem_map.mpr ⟨c', hc', heq.trans hc.symm⟩)
    have hnew' : ∀ c' ∈ clients, ∀ id', c'.id = some id' →
        id' ∉ AList.insert id (c.info key) map := by
      intro c' hc' id' hid' hmem
      rcases (AList.mem_insert _).mp hmem with rfl | hmem
      · exact hother c' hc' hid'
      · exact hnew c' (List.mem_cons_of_mem _ hc') id' hid' hmem
    obtain ⟨hlen, hlookup⟩ := ih hrest hdistinct hnew'
    rw [HashMap.len_insert, if_neg (hnew c List.mem_cons_self id hc)] at hlen
    constructor
    · rw [hlen, List.length_cons]
      omega
    · intro c' hc'
      rcases List.mem_cons.mp hc' with rfl | hc'
      · refine ⟨id, key, hc, hkey, ?_⟩
        rw [lookup_insert_clients_of_not_mem hrest hother, AList.lookup_insert]
      · exact hlookup c' hc'

end lookup_map

theorem ServerConfig.from_config_clients {cfg : ServerConfig} {k : KeyDecoding}
    {crypto : Primitives} {revoke_executor : Bool} {srv : Server}
    (h : cfg.from_config k crypto revoke_executor = some (.ok srv)) :
    insert_clients k ∅ cfg.clients = some (.ok srv.clients) := by
  unfold from_config at h
  split at h
  · cases h
  · cases h
  · rename_i clients hclients
    split at h
    · cases h
    · rw [hclients, ← Except.ok.inj (Option.some.inj h)]

/-! ### Distinct ids -/

/-- The blocks have distinct ids, and whatever server is built has one entry for each block, with
    the key of that block. -/
def Unambiguous (cfg : ServerConfig) (k : KeyDecoding) (crypto : Primitives)
    (revoke_executor : Bool) : Prop :=
  (cfg.clients.map ClientEntry.id).Nodup ∧
    ∀ srv, cfg.from_config k crypto revoke_executor = some (.ok srv) →
      srv.clients.len = cfg.clients.length ∧ ∀ c ∈ cfg.clients, ∃ id key, c.id = some id ∧
        k.load_verifying_key c.public_key = .ok key ∧
        AList.lookup id srv.clients = some (c.info key)

/-- Parsed ids are equal iff their canonical spellings are. -/
theorem id_eq_iff {c c' : ClientEntry} {id id' : ClientId} (hc : c.id = some id)
    (hc' : c'.id = some id') :
    c.id = c'.id ↔ canonical_spelling c.client_id = canonical_spelling c'.client_id := by
  rw [canonical_of_from_hex (ClientEntry.id_eq_some.mp hc),
    canonical_of_from_hex (ClientEntry.id_eq_some.mp hc'), hc, hc', Option.some_inj]
  exact ClientId.to_hex_injective.eq_iff.symm

/-- An accepted configuration is unambiguous iff no two blocks have the same canonical spelling. -/
theorem client_ids_distinct_iff {cfg : ServerConfig} (h : cfg.validate = some (.ok ()))
    (k : KeyDecoding) (crypto : Primitives) (revoke_executor : Bool) :
    Unambiguous cfg k crypto revoke_executor ↔
      (cfg.clients.map (fun c => canonical_spelling c.client_id)).Nodup := by
  have hids := (ServerConfig.validate_ok h).2
  have hsame : (cfg.clients.map ClientEntry.id).Nodup ↔
      (cfg.clients.map (fun c => canonical_spelling c.client_id)).Nodup := by
    unfold List.Nodup
    rw [List.pairwise_map, List.pairwise_map]
    apply List.Pairwise.iff_of_mem
    intro c c' hmem hmem'
    obtain ⟨id, hc⟩ := hids c hmem
    obtain ⟨id', hc'⟩ := hids c' hmem'
    exact not_congr (id_eq_iff hc hc')
  constructor
  · intro hunambiguous
    exact hsame.mp hunambiguous.1
  · intro hspellings
    have hdistinct := hsame.mpr hspellings
    refine ⟨hdistinct, fun srv hsrv => ?_⟩
    have hmap := insert_clients_distinct (ServerConfig.from_config_clients hsrv) hdistinct
      fun _ _ id _ => AList.notMem_empty id
    rwa [show HashMap.len (∅ : HashMap ClientId ClientInfo) = 0 from rfl, Nat.zero_add] at hmap

/-! ### A sample configuration -/

/-- Two clients with the given ids, over a cleartext wire. -/
def two_clients (client_id client_id' : Str) : ServerConfig where
  server :=
    { bind := "0.0.0.0:7370".toList
      server_id := "gate".toList
      nonce_ttl_seconds := 30
      command_timeout_seconds := 10
      client_cooldown_seconds := 0
      max_packet_size := 2048
      hello_rate_max := 30
      hello_rate_window_seconds := 60
      hello_max_skew_seconds := 30
      state_file := none
      encryption_private_key := none
      max_param_len := 256
      wire_encryption := .Off
      max_faulty_packets := 10
      blacklist_seconds := 300
      attack_blacklist_threshold := 10
      attack_window_seconds := 10
      attack_rejection_threshold := 256
      active_ip_ttl_seconds := 900
      max_inflight_packets := 1024
      max_tracked_ips := 100000
      lease_grace_multiplier := 3
      lease_max_seconds := 86400 }
  command :=
    { argv := ["/bin/echo".toList]
      revoke_argv := none
      working_dir := none
      max_concurrent := 4
      allow_shell := false }
  clients :=
    [{ client_id := client_id
       public_key := "11qYAYKxCrfVS/7TyWQHOg7hcvPapiMlrwIaaPcHURo=".toList
       label := none },
      { client_id := client_id'
        public_key := "PUAXw+hDiVqStwqnTRt+vJyYLM8uxJaMwM1V8Sr0Zgw=".toList
        label := none }]

/-- The two digits, and then 62 zeros. -/
def padded_id (digits : Str) : Str := digits ++ List.replicate 62 '0'

theorem client_ids_distinct_iff_plain :
    (two_clients (padded_id ['0', 'f']) (padded_id ['f', '0'])).validate = some (.ok ()) ∧
      ∀ (k : KeyDecoding) (crypto : Primitives),
        Unambiguous (two_clients (padded_id ['0', 'f']) (padded_id ['f', '0'])) k crypto true := by
  have hvalid : (two_clients (padded_id ['0', 'f']) (padded_id ['f', '0'])).validate =
      some (.ok ()) := by decide +kernel
  refine ⟨hvalid, fun k crypto => ?_⟩
  exact (client_ids_distinct_iff hvalid k crypto true).mpr (by decide +kernel)

/-- A plus sign in place of a zero makes the same id of another text. -/
theorem plus_sign_accepted :
    ∃ cfg : ServerConfig, cfg.validate = some (.ok ()) ∧
      ¬ (cfg.clients.map ClientEntry.id).Nodup ∧
      ∀ k crypto revoke_executor, ¬ Unambiguous cfg k crypto revoke_executor := by
  have hsame : ¬ ((two_clients (padded_id ['0', 'f']) (padded_id ['+', 'f'])).clients.map
      ClientEntry.id).Nodup := by decide +kernel
  exact ⟨_, by decide +kernel, hsame, fun _ _ _ h => hsame h.1⟩

end Config

/-! ### A sample key -/

/-- Standard base64 of 32 zero bytes. -/
def zero_key : Str := List.replicate 43 'A' ++ ['=']

/-- Decodes that one key. -/
def sample_keys : Config.KeyDecoding where
  decode s := if s = zero_key then some (List.replicate 32 0) else none
  from_bytes := some

end SignedPulse
