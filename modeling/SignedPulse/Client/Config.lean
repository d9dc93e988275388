import SignedPulse.Server.Config

/-! # The client's configuration

    `[client]` names the primary server, and every `[client.servers.<label>]`
    table one more, which inherits from `[client]` what it leaves out. `load`
    checks the primary and the tables by separate conditions; `from_config`
    applies the inheritance afterwards.

    `targets_sound_iff` says for which accepted configurations every target
    that comes of it is one a pulse loop can work with.
-/

namespace SignedPulse

/-- `Duration::from_millis`. -/
def Duration.from_millis (ms : UInt64) : Duration := ms.toNat * 1000000

namespace Config

/-! ### Sections -/

/-- A table `[client.servers.<label>]`; what is `none` is taken from `[client]`. -/
structure ServerOverride where
  server_addr : Str
  server_id : Option Str
  server_encryption_key : Option Str
  wire_encryption : Option Bool
  interval_seconds : Option UInt64
  /-- Ignored. -/
  challenge_timeout_seconds : Option UInt64
  retry_initial_ms : Option UInt64
  retry_max_ms : Option UInt64
  retries : Option UInt32
  param_command : Option (List Str)
  param_command_timeout_seconds : Option UInt64
  param_max_len : Option Nat

/-- The section `[client]`. -/
structure ClientSection where
  client_id : Str
  server_addr : Str
  server_id : Str
  interval_seconds : UInt64
  private_key : Str
  /-- Ignored. -/
  challenge_timeout_seconds : UInt64
  retry_initial_ms : UInt64
  retry_max_ms : UInt64
  retries : UInt32
  state_file : Option Str
  param_command : Option (List Str)
  param_command_timeout_seconds : UInt64
  param_max_len : Nat
  server_encryption_key : Option Str
  wire_encryption : Bool
  bye_on_shutdown : Bool
  /-- By label; `entries` is in the order in which the map is walked. -/
  servers : HashMap Str ServerOverride

structure ClientConfig where
  client : ClientSection

/-! ### Validation -/

/-- The first check that fails. -/
def first_failed (checks : List (Bool × String)) : Except ConfigError Unit :=
  match checks.find? (fun x => x.1) with
  | some (_, text) => .error (.Invalid text)
  | none => .ok ()

/-- The checks on `[client]` once its id has been parsed. -/
def ClientSection.checks (c : ClientSection) : List (Bool × String) :=
  [((c.wire_encryption || c.param_command.isSome) && c.server_encryption_key.isNone,
      "client.server_encryption_key is required when wire_encryption is true or param_command is set (run `signedpulse-server init` to print it)"),
    (c.param_command = some [], "client.param_command must not be an empty array"),
    (c.retry_initial_ms = 0 || c.retry_max_ms = 0,
      "client.retry_initial_ms and client.retry_max_ms must be >= 1"),
    (c.retry_initial_ms > c.retry_max_ms,
      "client.retry_initial_ms must be <= client.retry_max_ms"),
    (c.param_command.isSome && c.param_command_timeout_seconds = 0,
      "client.param_command_timeout_seconds must be >= 1"),
    (c.param_max_len = 0 || c.param_max_len > 60000,
      "client.param_max_len must be between 1 and 60000")]

/-- A text about the table of `label`. -/
def about (label : Str) (text : String) : String :=
  "client.servers." ++ String.ofList label ++ text

/-- The checks on one table. -/
def ServerOverride.checks (ov : ServerOverride) (label : Str) (c : ClientSection) :
    List (Bool × String) :=
  let wire := ov.wire_encryption.getD c.wire_encryption
  let has_param := (ov.param_command.or c.param_command).isSome
  let rt_init := ov.retry_initial_ms.getD c.retry_initial_ms
  let rt_max := ov.retry_max_ms.getD c.retry_max_ms
  [(label.isEmpty, "client.servers entries must have a non-empty label (the table key)"),
    (label = c.server_id,
      about label " label collides with the primary [client] server_id; pick a different label"),
    (ov.server_addr.isEmpty, about label ".server_addr must not be empty"),
    ((wire || has_param) && ov.server_encryption_key.isNone,
      about label ".server_encryption_key is required when its wire_encryption is true or a param_command applies"),
    (ov.param_command = some [], about label ".param_command must not be an empty array"),
    (ov.interval_seconds = some 0, about label ".interval_seconds must be >= 1"),
    (rt_init = 0 || rt_max = 0 || rt_init > rt_max,
      about label " retry_initial_ms/retry_max_ms must be >= 1 with retry_initial_ms <= retry_max_ms"),
    -- the timeout that is written here, whether or not a command applies
    (ov.param_command_timeout_seconds = some 0,
      about label ".param_command_timeout_seconds must be >= 1"),
    (ov.param_max_len.any (fun n => n = 0 || n > 60000),
      about label ".param_max_len must be between 1 and 60000")]

/-- What `load` makes of a file that has been parsed. `none` is a panic of `from_hex`. -/
def ClientConfig.load (cfg : ClientConfig) : Option (Except ConfigError ClientConfig) :=
  let c := cfg.client
  if c.interval_seconds = 0 then some (.error (.Invalid "client.interval_seconds must be >= 1"))
  else
    match ClientId.from_hex c.client_id with
    | none => none
    | some (.error _) =>
      some (.error (.Invalid "client.client_id must be 64 hex characters (256 bits)"))
    | some (.ok _) =>
      match first_failed (c.checks ++ c.servers.entries.flatMap (fun e => e.2.checks e.1 c)) with
      | .error e => some (.error e)
      | .ok () => some (.ok cfg)

/-! ### Keys -/

inductive SigningKeyError where
  | Base64
  | BadPrivateKey
  deriving DecidableEq

/-- The 32-byte seed of an Ed25519 key. -/
def KeyDecoding.load_signing_key (k : KeyDecoding) (private_key_b64 : Str) :
    Except SigningKeyError (ByteVec 32) :=
  match k.decode private_key_b64 with
  | none => .error .Base64
  | some decoded => if h : decoded.length = 32 then .ok ⟨decoded, h⟩ else .error .BadPrivateKey

end Config

open Config

/-! ### Targets -/

/-- One server that the client pulses, with inheritance applied. -/
structure ServerTarget where
  /-- The local label. -/
  name : Str
  /-- The id that is signed. -/
  server_id : Str
  server_addr : Str
  server_pub : Option X25519Bytes
  wire_encryption : Bool
  interval : Duration
  retry_initial : Duration
  retry_max : Duration
  retries : UInt32
  param_command : Option (List Str)
  param_command_timeout : Duration
  param_max_len : Nat

/-- Why the client does not start. -/
inductive ClientStartError where
  /-- `invalid private_key in client config: {e}` -/
  | PrivateKey (e : SigningKeyError)
  /-- `client.client_id must be 64 hex characters` -/
  | ClientIdHex
  /-- `invalid server_encryption_key for {name}: {e}` -/
  | EncryptionKey (name : Str) (e : KeyError)
  /-- `server {name}: wire_encryption is on but server_encryption_key is missing` -/
  | WireKeyMissing (name : Str)
  /-- `server {name}: param_command requires server_encryption_key` -/
  | ParamKeyMissing (name : Str)
  deriving DecidableEq

/-- The server's public key, when one is configured. -/
def server_key (k : KeyDecoding) (name : Str) :
    (enc_key_b64 : Option Str) → Except ClientStartError (Option X25519Bytes)
  | none => .ok none
  | some b64 =>
    match k.x25519_from_base64 b64 with
    | .ok server_pub => .ok (some server_pub)
    | .error e => .error (.EncryptionKey name e)

def resolve_target (k : KeyDecoding) (name server_id server_addr : Str) (enc_key_b64 : Option Str)
    (wire_encryption : Bool) (interval_seconds retry_initial_ms retry_max_ms : UInt64)
    (retries : UInt32) (param_command : Option (List Str)) (param_command_timeout_seconds : UInt64)
    (param_max_len : Nat) : Except ClientStartError ServerTarget :=
  match server_key k name enc_key_b64 with
  | .error e => .error e
  | .ok server_pub =>
    if wire_encryption && server_pub.isNone then .error (.WireKeyMissing name)
    else if param_command.isSome && server_pub.isNone then .error (.ParamKeyMissing name)
    else .ok
      { name := name
        server_id := server_id
        server_addr := server_addr
        server_pub := server_pub
        wire_encryption := wire_encryption
        interval := .from_secs interval_seconds
        retry_initial := .from_millis retry_initial_ms
        retry_max := .from_millis retry_max_ms
        retries := retries
        param_command := param_command
        param_command_timeout := .from_secs param_command_timeout_seconds
        param_max_len := param_max_len }

/-- The primary server, straight from `[client]`. -/
def resolve_primary (k : KeyDecoding) (c : ClientSection) : Except ClientStartError ServerTarget :=
  resolve_target k c.server_id c.server_id c.server_addr c.server_encryption_key c.wire_encryption
    c.interval_seconds c.retry_initial_ms c.retry_max_ms c.retries c.param_command
    c.param_command_timeout_seconds c.param_max_len

def resolve_override (k : KeyDecoding) (name : Str) (ov : ServerOverride) (base : ClientSection) :
    Except ClientStartError ServerTarget :=
  resolve_target k name (ov.server_id.getD name) ov.server_addr ov.server_encryption_key
    (ov.wire_encryption.getD base.wire_encryption)
    (ov.interval_seconds.getD base.interval_seconds)
    (ov.retry_initial_ms.getD base.retry_initial_ms)
    (ov.retry_max_ms.getD base.retry_max_ms)
    (ov.retries.getD base.retries)
    (ov.param_command.or base.param_command)
    (ov.param_command_timeout_seconds.getD base.param_command_timeout_seconds)
    (ov.param_max_len.getD base.param_max_len)

/-- The targets of the tables, up to the first that fails. -/
def resolve_overrides (k : KeyDecoding) (base : ClientSection) :
    List (Σ _ : Str, ServerOverride) → Except ClientStartError (List ServerTarget)
  | [] => .ok []
  | e :: entries =>
    match resolve_override k e.1 e.2 base with
    | .error err => .error err
    | .ok target =>
      match resolve_overrides k base entries with
      | .error err => .error err
      | .ok targets => .ok (target :: targets)

/-! ### The client -/

/-- How one server's pulses go. -/
structure ServerLegStatus where
  server_addr : Str
  server_id : Str
  interval_seconds : Nat
  last_attempt_at_unix : Option Int64
  last_success_at_unix : Option Int64
  last_result : String

/-- A leg that has not been tried. -/
def ServerTarget.leg (t : ServerTarget) : ServerLegStatus where
  server_addr := t.server_addr
  server_id := t.server_id
  interval_seconds := t.interval / 1000000000
  last_attempt_at_unix := none
  last_success_at_unix := none
  last_result := "pending"

/-- One leg for each target, under its name. -/
def seed_legs (legs : HashMap Str ServerLegStatus) (targets : List ServerTarget) :
    HashMap Str ServerLegStatus :=
  targets.foldl (fun legs t => AList.insert t.name t.leg legs) legs

structure Client where
  signing_key : ByteVec 32
  client_id : ClientId
  targets : List ServerTarget
  /-- The `servers` of the status snapshot. -/
  status : HashMap Str ServerLegStatus
  bye_on_shutdown : Bool

/-- `none` is a panic of `from_hex`. -/
def Client.from_config (k : KeyDecoding) (config : ClientConfig) :
    Option (Except ClientStartError Client) :=
  let c := config.client
  match k.load_signing_key c.private_key with
  | .error e => some (.error (.PrivateKey e))
  | .ok signing_key =>
    match ClientId.from_hex c.client_id with
    | none => none
    | some (.error _) => some (.error .ClientIdHex)
    | some (.ok client_id) =>
      match resolve_primary k c with
      | .error e => some (.error e)
      | .ok primary =>
        match resolve_overrides k c c.servers.entries with
        | .error e => some (.error e)
        | .ok others => some (.ok
          { signing_key := signing_key
            client_id := client_id
            targets := primary :: others
            status := seed_legs ∅ (primary :: others)
            bye_on_shutdown := c.bye_on_shutdown })

/-! ### What a pulse loop relies on -/

structure ServerTarget.Sound (t : ServerTarget) : Prop where
  interval : Duration.from_secs 1 ≤ t.interval
  retry_initial : Duration.from_millis 1 ≤ t.retry_initial
  retry_max : t.retry_initial ≤ t.retry_max
  param_max_len : 1 ≤ t.param_max_len ∧ t.param_max_len ≤ 60000
  server_pub : t.wire_encryption = true ∨ t.param_command.isSome = true → t.server_pub.isSome = true
  param_command : ∀ argv, t.param_command = some argv →
    argv ≠ [] ∧ Duration.from_secs 1 ≤ t.param_command_timeout

/-- One target for `[client]` and one for each table, each sound, with a leg of its own. -/
structure Client.Sound (client : Client) (cfg : ClientConfig) : Prop where
  names : client.targets.map ServerTarget.name = cfg.client.server_id :: cfg.client.servers.keys
  distinct : (client.targets.map ServerTarget.name).Nodup
  targets : ∀ t ∈ client.targets, t.Sound
  legs : client.status.len = client.targets.length ∧
    ∀ t ∈ client.targets, AList.lookup t.name client.status = some t.leg

/-- Every key that the file has decodes. -/
structure Config.ClientConfig.KeysDecode (cfg : ClientConfig) (k : KeyDecoding) : Prop where
  private_key : ∃ seed, k.load_signing_key cfg.client.private_key = .ok seed
  primary : ∀ b64, cfg.client.server_encryption_key = some b64 →
    ∃ server_pub, k.x25519_from_base64 b64 = .ok server_pub
  servers : ∀ e ∈ cfg.client.servers.entries, ∀ b64, e.2.server_encryption_key = some b64 →
    ∃ server_pub, k.x25519_from_base64 b64 = .ok server_pub

/-- If a table has a command of its own and no timeout of its own, the timeout that it inherits is
    not zero. -/
def Config.ServerOverride.TimeoutSet (ov : ServerOverride) (base : ClientSection) : Prop :=
  ov.param_command.isSome = true → ov.param_command_timeout_seconds = none →
    base.param_command_timeout_seconds ≠ 0

/-! ### What `load` has checked -/

theorem Config.first_failed_ok {checks : List (Bool × String)} :
    first_failed checks = .ok () ↔ ∀ x ∈ checks, x.1 = false := by
  unfold first_failed
  constructor
  · intro h
    split at h
    · cases h
    · rename_i hnone
      intro x hx
      simpa using List.find?_eq_none.mp hnone x hx
  · intro h
    rw [List.find?_eq_none.mpr fun x hx => by simp [h x hx]]

/-- What holds of a file that was accepted. -/
structure Config.ClientConfig.Accepted (cfg : ClientConfig) : Prop where
  interval : cfg.client.interval_seconds ≠ 0
  client_id : ∃ id, ClientId.from_hex cfg.client.client_id = some (.ok id)
  primary : ∀ x ∈ cfg.client.checks, x.1 = false
  servers : ∀ e ∈ cfg.client.servers.entries, ∀ x ∈ e.2.checks e.1 cfg.client, x.1 = false

theorem Config.ClientConfig.load_ok {parsed cfg : ClientConfig} :
    parsed.load = some (.ok cfg) ↔ cfg = parsed ∧ cfg.Accepted := by
  constructor
  · intro h
    -- the interval, the id, and then the list of checks
    unfold ClientConfig.load at h
    dsimp only at h
    split at h
    · cases h
    rename_i hinterval
    split at h
    · cases h
    · cases h
    rename_i id hid
    split at h
    · cases h
    rename_i hchecks
    obtain rfl : parsed = cfg := Except.ok.inj (Option.some.inj h)
    have hall := first_failed_ok.mp hchecks
    refine ⟨rfl, hinterval, ⟨id, hid⟩, ?_, ?_⟩
    · intro x hx
      exact hall x (List.mem_append_left _ hx)
    · intro e he x hx
      exact hall x (List.mem_append_right _ (List.mem_flatMap.mpr ⟨e, he, hx⟩))
  · rintro ⟨rfl, haccepted⟩
    obtain ⟨id, hid⟩ := haccepted.client_id
    have hall : first_failed (cfg.client.checks ++
        cfg.client.servers.entries.flatMap (fun e => e.2.checks e.1 cfg.client)) = .ok () := by
      refine first_failed_ok.mpr fun x hx => ?_
      rcases List.mem_append.mp hx with hx | hx
      · exact haccepted.primary x hx
      · obtain ⟨e, he, hx⟩ := List.mem_flatMap.mp hx
        exact haccepted.servers e he x hx
    simp only [ClientConfig.load, if_neg haccepted.interval, hid, hall]

/-! ### Resolving -/

theorem Duration.from_secs_one_le {secs : UInt64} :
    Duration.from_secs 1 ≤ Duration.from_secs secs ↔ secs ≠ 0 := by
  have hone : Duration.from_secs 1 = 1000000000 := rfl
  have hzero : secs ≠ 0 ↔ secs.toNat ≠ 0 := not_congr UInt64.toNat_inj.symm
  rw [hzero, hone]
  unfold Duration.from_secs
  constructor <;> intro h <;> lia

theorem Duration.from_millis_one_le {ms : UInt64} :
    Duration.from_millis 1 ≤ Duration.from_millis ms ↔ ms ≠ 0 := by
  have hone : Duration.from_millis 1 = 1000000 := rfl
  have hzero : ms ≠ 0 ↔ ms.toNat ≠ 0 := not_congr UInt64.toNat_inj.symm
  rw [hzero, hone]
  unfold Duration.from_millis
  constructor <;> intro h <;> lia

theorem Duration.from_millis_le {ms ms' : UInt64} (h : ms ≤ ms') :
    Duration.from_millis ms ≤ Duration.from_millis ms' :=
  Nat.mul_le_mul_right _ (UInt64.le_iff_toNat_le.mp h)

theorem server_key_ok {k : KeyDecoding} {enc_key_b64 : Option Str} (name : Str)
    (hdecode : ∀ b64, enc_key_b64 = some b64 →
      ∃ server_pub, k.x25519_from_base64 b64 = .ok server_pub) :
    ∃ server_pub, server_key k name enc_key_b64 = .ok server_pub ∧
      server_pub.isSome = enc_key_b64.isSome := by
  cases enc_key_b64 with
  | none => exact ⟨none, rfl, rfl⟩
  | some b64 =>
    obtain ⟨server_pub, hpub⟩ := hdecode b64 rfl
    exact ⟨some server_pub, by rw [server_key, hpub], rfl⟩

section resolved
variable {k : KeyDecoding} {enc_key_b64 : Option Str} {wire_encryption : Bool}
  {interval_seconds retry_initial_ms retry_max_ms : UInt64} {param_command : Option (List Str)}
  {param_max_len : Nat}

/-- A key where one is needed is all that the resolution asks for. -/
theorem resolve_target_ok {name server_id server_addr : Str} {retries : UInt32}
    {param_command_timeout_seconds : UInt64} {server_pub : Option X25519Bytes}
    (hpub : server_key k name enc_key_b64 = .ok server_pub)
    (hneeds : wire_encryption = true ∨ param_command.isSome = true → server_pub.isSome = true) :
    resolve_target k name server_id server_addr enc_key_b64 wire_encryption interval_seconds
        retry_initial_ms retry_max_ms retries param_command param_command_timeout_seconds
        param_max_len = .ok
      { name := name
        server_id := server_id
        server_addr := server_addr
        server_pub := server_pub
        wire_encryption := wire_encryption
        interval := .from_secs interval_seconds
        retry_initial := .from_millis retry_initial_ms
        retry_max := .from_millis retry_max_ms
        retries := retries
        param_command := param_command
        param_command_timeout := .from_secs param_command_timeout_seconds
        param_max_len := param_max_len } := by
  have hpresent {needed : Bool} (h : needed = true → server_pub.isSome = true) :
      ¬ (needed && server_pub.isNone) = true := by
    intro hmissing
    rw [Bool.and_eq_true, Option.isNone_iff_eq_none] at hmissing
    have hsome := h hmissing.1
    rw [hmissing.2] at hsome
    cases hsome
  unfold resolve_target
  rw [hpub]
  dsimp only
  rw [if_neg (hpresent fun h => hneeds (.inl h)), if_neg (hpresent fun h => hneeds (.inr h))]

/-- From values that have been checked comes a target that is sound but for its timeout. -/
theorem resolve_target_sound (name server_id server_addr : Str) (retries : UInt32)
    (param_command_timeout_seconds : UInt64)
    (hdecode : ∀ b64, enc_key_b64 = some b64 →
      ∃ server_pub, k.x25519_from_base64 b64 = .ok server_pub)
    (hkey : ((wire_encryption || param_command.isSome) && enc_key_b64.isNone) = false)
    (hargv : param_command ≠ some [])
    (hinterval : interval_seconds ≠ 0) (hinitial : retry_initial_ms ≠ 0)
    (hmax : retry_initial_ms ≤ retry_max_ms) (hlen : 1 ≤ param_max_len ∧ param_max_len ≤ 60000) :
    ∃ t, resolve_target k name server_id server_addr enc_key_b64 wire_encryption interval_seconds
        retry_initial_ms retry_max_ms retries param_command param_command_timeout_seconds
        param_max_len = .ok t ∧ t.name = name ∧
      (t.Sound ↔ (param_command.isSome = true → param_command_timeout_seconds ≠ 0)) := by
  obtain ⟨server_pub, hpub, hsame⟩ := server_key_ok name hdecode
  have hneeds : wire_encryption = true ∨ param_command.isSome = true →
    server_pub.isSome = true := by
    intro hneeded
    rw [← Bool.or_eq_true] at hneeded
    rw [hneeded, Bool.true_and] at hkey
    rw [hsame, ← Option.not_isNone, hkey]
    rfl
  refine ⟨_, resolve_target_ok hpub hneeds, rfl, ?_⟩
  constructor
  · intro hsound hcommand
    obtain ⟨argv, hsome⟩ := Option.isSome_iff_exists.mp hcommand
    exact Duration.from_secs_one_le.mp (hsound.param_command argv hsome).2
  · intro htimeout
    exact
      { interval := Duration.from_secs_one_le.mpr hinterval
        retry_initial := Duration.from_millis_one_le.mpr hinitial
        retry_max := Duration.from_millis_le hmax
        param_max_len := hlen
        server_pub := hneeds
        param_command := fun argv hsome =>
          ⟨fun hnil => hargv (hnil ▸ hsome), Duration.from_secs_one_le.mpr
            (htimeout (Option.isSome_iff_exists.mpr ⟨argv, hsome⟩))⟩ }

end resolved

/-- The primary target is always sound: `load` checks it as it is resolved. -/
theorem resolve_primary_sound {cfg : ClientConfig} {k : KeyDecoding} (hcfg : cfg.Accepted)
    (hkeys : cfg.KeysDecode k) :
    ∃ t, resolve_primary k cfg.client = .ok t ∧ t.name = cfg.client.server_id ∧ t.Sound := by
  have hchecks := hcfg.primary
  unfold ClientSection.checks at hchecks
  simp only [List.mem_cons, List.not_mem_nil, or_false, forall_eq_or_imp, forall_eq,
    decide_eq_false_iff_not, Bool.or_eq_false_iff] at hchecks
  obtain ⟨hkey, hargv, ⟨hinitial, -⟩, hmax, htimeout, hzero, hlen⟩ := hchecks
  obtain ⟨t, hresolved, hname, hsound⟩ := resolve_target_sound (k := k) cfg.client.server_id
    cfg.client.server_id cfg.client.server_addr cfg.client.retries
    cfg.client.param_command_timeout_seconds hkeys.primary hkey hargv hcfg.interval hinitial
      (UInt64.not_lt.mp hmax)
    ⟨Nat.one_le_iff_ne_zero.mpr hzero, Nat.not_lt.mp hlen⟩
  refine ⟨t, hresolved, hname, hsound.mpr ?_⟩
  intro hcommand
  simpa [hcommand] using htimeout

/-- The target of a table is sound iff its timeout, inherited or not, is set where its command is
    its own. -/
theorem resolve_override_sound {cfg : ClientConfig} {k : KeyDecoding} (hcfg : cfg.Accepted)
    (hkeys : cfg.KeysDecode k) {e : Σ _ : Str, ServerOverride}
    (he : e ∈ cfg.client.servers.entries) :
    ∃ t, resolve_override k e.1 e.2 cfg.client = .ok t ∧ t.name = e.1 ∧
      (t.Sound ↔ e.2.TimeoutSet cfg.client) := by
  have hprimary := hcfg.primary
  unfold ClientSection.checks at hprimary
  simp only [List.mem_cons, List.not_mem_nil, or_false, forall_eq_or_imp, forall_eq,
    decide_eq_false_iff_not, Bool.or_eq_false_iff] at hprimary
  obtain ⟨-, hargv, -, -, htimeout, hzero, hlen⟩ := hprimary
  have hchecks := hcfg.servers e he
  unfold ServerOverride.checks at hchecks
  simp only [List.mem_cons, List.not_mem_nil, or_false, forall_eq_or_imp, forall_eq,
    decide_eq_false_iff_not, Bool.or_eq_false_iff] at hchecks
  obtain ⟨-, -, -, hkey, hown_argv, hinterval, ⟨⟨hinitial, -⟩, hmax⟩, hown_timeout, hown_len⟩ :=
    hchecks
  have hargv_or : e.2.param_command.or cfg.client.param_command ≠ some [] := by
    cases hcommand : e.2.param_command with
    | none => exact hargv
    | some argv =>
      rw [hcommand] at hown_argv
      exact hown_argv
  have hinterval_or : e.2.interval_seconds.getD cfg.client.interval_seconds ≠ 0 := by
    cases hown : e.2.interval_seconds with
    | none => exact hcfg.interval
    | some secs =>
      intro hzero'
      exact hinterval (hown.trans (congrArg some hzero'))
  have hlen_or : 1 ≤ e.2.param_max_len.getD cfg.client.param_max_len ∧
      e.2.param_max_len.getD cfg.client.param_max_len ≤ 60000 := by
    cases hown : e.2.param_max_len with
    | none => exact ⟨Nat.one_le_iff_ne_zero.mpr hzero, Nat.not_lt.mp hlen⟩
    | some n =>
      rw [hown] at hown_len
      simp only [Option.any_some, Bool.or_eq_false_iff, decide_eq_false_iff_not] at hown_len
      exact ⟨Nat.one_le_iff_ne_zero.mpr hown_len.1, Nat.not_lt.mp hown_len.2⟩
  obtain ⟨t, hresolved, hname, hsound⟩ := resolve_target_sound (k := k) e.1
    (e.2.server_id.getD e.1) e.2.server_addr (e.2.retries.getD cfg.client.retries)
    (e.2.param_command_timeout_seconds.getD cfg.client.param_command_timeout_seconds)
    (hkeys.servers e he) hkey hargv_or hinterval_or hinitial (UInt64.not_lt.mp hmax) hlen_or
  refine ⟨t, hresolved, hname, hsound.trans ?_⟩
  unfold ServerOverride.TimeoutSet
  -- a timeout of its own has been checked; one that is inherited was, if its command is as well
  cases hown : e.2.param_command_timeout_seconds with
  | some secs =>
    have hset : secs ≠ 0 := fun hzero' => hown_timeout (hown.trans (congrArg some hzero'))
    simp [hset]
  | none =>
    cases hcommand : e.2.param_command with
    | none =>
      have hinherited : cfg.client.param_command.isSome = true →
          cfg.client.param_command_timeout_seconds ≠ 0 := fun h => by simpa [h] using htimeout
      simpa using hinherited
    | some argv => simp

/-! ### The whole client -/

/-- The names are those of the entries, in order, and every target comes from its table. -/
theorem resolve_overrides_ok {k : KeyDecoding} {base : ClientSection}
    {entries : List (Σ _ : Str, ServerOverride)}
    (h : ∀ e ∈ entries, ∃ t, resolve_override k e.1 e.2 base = .ok t ∧ t.name = e.1 ∧
      (t.Sound ↔ e.2.TimeoutSet base)) :
    ∃ targets, resolve_overrides k base entries = .ok targets ∧
      targets.map ServerTarget.name = entries.map Sigma.fst ∧
      ((∀ t ∈ targets, t.Sound) ↔ ∀ e ∈ entries, e.2.TimeoutSet base) := by
  induction entries with
  | nil => exact ⟨[], rfl, rfl, by simp⟩
  | cons e entries ih =>
    obtain ⟨t, hresolved, hname, hsound⟩ := h e List.mem_cons_self
    obtain ⟨targets, hrest, hnames, hall⟩ := ih fun e' he' => h e' (List.mem_cons_of_mem _ he')
    refine ⟨t :: targets, ?_, ?_, ?_⟩
    · simp only [resolve_overrides, hresolved, hrest]
    · rw [List.map_cons, List.map_cons, hname, hnames]
    · simp only [List.forall_mem_cons, hsound, hall]

/-- Targets with distinct names get a leg each. -/
theorem seed_legs_distinct (legs : HashMap Str ServerLegStatus) {targets : List ServerTarget}
    (hdistinct : (targets.map ServerTarget.name).Nodup)
    (hnew : ∀ t ∈ targets, t.name ∉ legs) :
    (seed_legs legs targets).len = legs.len + targets.length ∧
      (∀ t ∈ targets, AList.lookup t.name (seed_legs legs targets) = some t.leg) ∧
      ∀ name, name ∉ targets.map ServerTarget.name →
        AList.lookup name (seed_legs legs targets) = AList.lookup name legs := by
  induction targets generalizing legs with
  | nil => exact ⟨rfl, by simp, fun _ _ => rfl⟩
  | cons t targets ih =>
    rw [List.map_cons, List.nodup_cons] at hdistinct
    obtain ⟨hfirst, hdistinct⟩ := hdistinct
    have hnew' : ∀ t' ∈ targets, t'.name ∉ AList.insert t.name t.leg legs := by
      intro t' ht' hmem
      rcases (AList.mem_insert _).mp hmem with hsame | hmem
      · exact hfirst (hsame ▸ List.mem_map_of_mem ht')
      · exact hnew t' (List.mem_cons_of_mem _ ht') hmem
    obtain ⟨hlen, hlegs, hother⟩ := ih _ hdistinct hnew'
    rw [HashMap.len_insert, if_neg (hnew t List.mem_cons_self)] at hlen
    refine ⟨?_, ?_, ?_⟩
    · show (seed_legs (AList.insert t.name t.leg legs) targets).len = _
      rw [hlen, List.length_cons]
      omega
    · intro t' ht'
      rcases List.mem_cons.mp ht' with rfl | ht'
      · exact (hother t'.name hfirst).trans (AList.lookup_insert _)
      · exact hlegs t' ht'
    · intro name hname
      rw [List.map_cons, List.mem_cons, not_or] at hname
      exact (hother name hname.2).trans (AList.lookup_insert_ne hname.1)

/-- An accepted configuration whose keys decode starts, and its targets are those of the file. -/
theorem from_config_sound {cfg : ClientConfig} {k : KeyDecoding} (hcfg : cfg.Accepted)
    (hkeys : cfg.KeysDecode k) :
    ∃ client, Client.from_config k cfg = some (.ok client) ∧
      (client.Sound cfg ↔ ∀ e ∈ cfg.client.servers.entries, e.2.TimeoutSet cfg.client) := by
  obtain ⟨seed, hseed⟩ := hkeys.private_key
  obtain ⟨id, hid⟩ := hcfg.client_id
  obtain ⟨primary, hprimary, hname, hsound⟩ := resolve_primary_sound hcfg hkeys
  obtain ⟨others, hothers, hnames, hall⟩ := resolve_overrides_ok fun e he =>
    resolve_override_sound hcfg hkeys he
  have hmap : (primary :: others).map ServerTarget.name =
      cfg.client.server_id :: cfg.client.servers.keys := by
    rw [List.map_cons, hname, hnames]
    rfl
  -- a table with the name of the primary is refused by `load`
  have hlabels : cfg.client.server_id ∉ cfg.client.servers.keys := by
    intro hmem
    obtain ⟨e, he, hlabel⟩ := List.mem_map.mp hmem
    have hchecks := hcfg.servers e he
    simp [ServerOverride.checks, hlabel] at hchecks
  have hdistinct : ((primary :: others).map ServerTarget.name).Nodup := by
    rw [hmap, List.nodup_cons]
    exact ⟨hlabels, cfg.client.servers.nodupKeys⟩
  obtain ⟨hlen, hlegs, -⟩ := seed_legs_distinct ∅ hdistinct fun t _ => AList.notMem_empty t.name
  have hstarted : Client.from_config k cfg = some (.ok
      { signing_key := seed
        client_id := id
        targets := primary :: others
        status := seed_legs ∅ (primary :: others)
        bye_on_shutdown := cfg.client.bye_on_shutdown }) := by
    simp only [Client.from_config, hseed, hid, hprimary, hothers]
  refine ⟨_, hstarted, ?_⟩
  rw [← hall]
  constructor
  · intro hclient t ht
    exact hclient.targets t (List.mem_cons_of_mem _ ht)
  · intro hothers_sound
    refine ⟨hmap, hdistinct, ?_, ?_, hlegs⟩
    · exact List.forall_mem_cons.mpr ⟨hsound, hothers_sound⟩
    · rw [hlen, show HashMap.len (∅ : HashMap Str ServerLegStatus) = 0 from rfl, Nat.zero_add]

/-- The client starts with sound targets iff no table with a command of its own inherits a timeout
    of zero. -/
theorem targets_sound_iff {parsed cfg : ClientConfig} (hload : parsed.load = some (.ok cfg))
    {k : KeyDecoding} (hkeys : cfg.KeysDecode k) :
    (∃ client, Client.from_config k cfg = some (.ok client) ∧ client.Sound cfg) ↔
      ∀ e ∈ cfg.client.servers.entries, e.2.TimeoutSet cfg.client := by
  obtain ⟨client, hstarted, hsound⟩ := from_config_sound (ClientConfig.load_ok.mp hload).2 hkeys
  constructor
  · rintro ⟨client', hstarted', hclient'⟩
    obtain rfl := Except.ok.inj (Option.some.inj (hstarted.symm.trans hstarted'))
    exact hsound.mp hclient'
  · intro htimeouts
    exact ⟨client, hstarted, hsound.mpr htimeouts⟩

/-! ### A sample configuration -/

/-- A table with a parameter command. -/
def sample_override : ServerOverride where
  server_addr := "203.0.113.11:7370".toList
  server_id := none
  server_encryption_key := some zero_key
  wire_encryption := none
  interval_seconds := none
  challenge_timeout_seconds := none
  retry_initial_ms := none
  retry_max_ms := none
  retries := none
  param_command := some ["/bin/hostname".toList]
  param_command_timeout_seconds := none
  param_max_len := none

/-- A primary server without a parameter command, and that table. -/
def two_servers (param_command_timeout_seconds : UInt64) : ClientConfig where
  client :=
    { client_id := padded_id ['0', 'f']
      server_addr := "203.0.113.10:7370".toList
      server_id := "signedpulse-main".toList
      interval_seconds := 300
      private_key := zero_key
      challenge_timeout_seconds := 5
      retry_initial_ms := 500
      retry_max_ms := 4000
      retries := 3
      state_file := none
      param_command := none
      param_command_timeout_seconds := param_command_timeout_seconds
      param_max_len := 256
      server_encryption_key := some zero_key
      wire_encryption := true
      bye_on_shutdown := true
      servers := AList.singleton "backup".toList sample_override }

theorem two_servers_load (timeout : UInt64) :
    (two_servers timeout).load = some (.ok (two_servers timeout)) := by
  have hid : ∃ id, ClientId.from_hex (two_servers timeout).client.client_id = some (.ok id) := by
    show ∃ id, ClientId.from_hex (padded_id ['0', 'f']) = some (.ok id)
    exact ⟨⟨15 :: List.replicate 31 0, by decide⟩, by decide +kernel⟩
  have hservers : ∀ x ∈ sample_override.checks "backup".toList (two_servers timeout).client,
      x.1 = false := by
    have hchecks : (sample_override.checks "backup".toList (two_servers 0).client).all
        (fun x => !x.1) = true := by decide +kernel
    intro x hx
    simpa using List.all_eq_true.mp hchecks x hx
  have haccepted : (two_servers timeout).Accepted :=
    { interval := by simp [two_servers]
      client_id := hid
      primary := by simp [ClientSection.checks, two_servers]
      servers := List.forall_mem_singleton.mpr hservers }
  exact ClientConfig.load_ok.mpr ⟨rfl, haccepted⟩

theorem two_servers_keys (timeout : UInt64) : (two_servers timeout).KeysDecode sample_keys := by
  have hdecode : sample_keys.decode zero_key = some (List.replicate 32 0) := by
    simp [sample_keys]
  have hpub (b64 : Str) (h : some zero_key = some b64) :
      ∃ server_pub, sample_keys.x25519_from_base64 b64 = .ok server_pub := by
    obtain rfl := Option.some.inj h
    refine ⟨⟨List.replicate 32 0, by decide⟩, ?_⟩
    simp only [KeyDecoding.x25519_from_base64, hdecode]
    rfl
  refine ⟨?_, hpub, ?_⟩
  · simp [KeyDecoding.load_signing_key, two_servers, hdecode]
  · intro e he
    obtain rfl := List.mem_singleton.mp he
    exact hpub

theorem targets_sound_iff_two_servers :
    (∃ client, Client.from_config sample_keys (two_servers 10) = some (.ok client) ∧
      client.Sound (two_servers 10)) ↔
      ∀ e ∈ (two_servers 10).client.servers.entries, e.2.TimeoutSet (two_servers 10).client :=
  targets_sound_iff (two_servers_load 10) (two_servers_keys 10)

/-- A timeout of zero is accepted of a primary without a command, and inherited by a table with
    one. -/
theorem zero_timeout_inherited :
    ∃ (cfg : ClientConfig) (k : KeyDecoding) (client : Client), cfg.load = some (.ok cfg) ∧
      cfg.KeysDecode k ∧ Client.from_config k cfg = some (.ok client) ∧ ¬ client.Sound cfg := by
  have hload := two_servers_load 0
  have hkeys := two_servers_keys 0
  obtain ⟨client, hstarted, hsound⟩ := from_config_sound (ClientConfig.load_ok.mp hload).2 hkeys
  refine ⟨two_servers 0, sample_keys, client, hload, hkeys, hstarted, ?_⟩
  intro hclient
  exact hsound.mp hclient ⟨"backup".toList, sample_override⟩ (List.mem_singleton.mpr rfl) rfl rfl
    rfl

end SignedPulse
