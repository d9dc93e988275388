import SignedPulse.Client.ConfigFile
import SignedPulse.Server.Cli

/-! # Setting up a client

    `init` writes a new configuration, and `add-server` puts one more table at
    the end of an existing one, checking part of what loading it will check.

    `add-server` replaces the file before it loads it again, and `init` never
    loads what it has written. `config_commands_iff` says for which arguments,
    all the same, a failure leaves the file as it was, a success adds the one
    server, and the new file is accepted.
-/

namespace SignedPulse

open Config Toml

namespace Client

/-- What the commands have from outside. -/
structure CliHost where
  parse : Str → Option Entries
  keys : KeyDecoding
  /-- `str::parse::<SocketAddr>`. -/
  socket_addr : Str → Option SocketAddr
  writes : Bool
  /-- The client id and the Ed25519 seed that `init` draws. -/
  nonce : ByteVec NONCE_LEN
  seed : ByteVec 32

inductive CliError where
  | Bail (text : String)
  /-- `cannot load {path} ({e}); run signedpulse-client init first` -/
  | CannotLoad (e : LoadError)
  /-- `--name {name:?} collides with the primary [client] server_id; pick another` -/
  | Collides (name : Str)
  /-- `server {name:?} is already configured` -/
  | AlreadyConfigured (name : Str)
  /-- `invalid --server-key: {e}` -/
  | ServerKey (e : KeyError)
  /-- `config {path} already exists; pass --force to overwrite` -/
  | AlreadyExists
  | Io
  | Reload (e : LoadError)
  deriving DecidableEq

/-- `if cond { bail!(..) }`. -/
def bail_if (cond : Bool) (e : CliError) : Except CliError Unit :=
  if cond then .error e else .ok ()

theorem bail_if_ok {cond : Bool} {e : CliError} : bail_if cond e = .ok () ↔ cond = false := by
  cases cond <;> simp [bail_if]

/-- One check after the other. -/
theorem checks_ok {x y : Except CliError Unit} :
    (x >>= fun _ => y) = .ok () ↔ x = .ok () ∧ y = .ok () := by
  cases x with
  | error e => simp [Bind.bind, Except.bind]
  | ok u => simp [Bind.bind, Except.bind]

/-! ### Arguments -/

/-- A label or an id. -/
def validate_token (field : String) (value : Str) : Except CliError Unit :=
  if value.isEmpty then .error (.Bail (field ++ " must not be empty"))
  else if !value.all (fun c => c.isAlphanum || c = '-' || c = '_' || c = '.') then
    .error (.Bail (field ++ " may only contain ASCII letters, digits, '-', '_', and '.'"))
  else .ok ()

/-- A host, with or without a port. -/
def validate_addr (value : Str) : Except CliError Unit :=
  if value.isEmpty then .error (.Bail "--server must not be empty")
  else if value.any (fun c => c = '"' || c = '\\' || is_whitespace c || is_control c) then
    .error (.Bail "--server must not contain quotes, backslashes, or whitespace")
  else .ok ()

/-- Append the default port if the user gave a bare host or IP. -/
def normalize_addr (socket_addr : Str → Option SocketAddr) (input : Str) : Str :=
  if (socket_addr input).isSome then input
  -- a bare IPv6 address has colons already
  else if ':' ∈ input then input
  else input ++ ':' :: decimal DEFAULT_PORT.toNat

/-! ### `add-server` -/

structure AddServerArgs where
  name : Str
  server : Str
  server_key : Option Str
  server_id : Option Str
  interval : Option UInt64
  no_encryption : Bool

/-- The key of a server, when one is given, has to decode. -/
def validate_server_key (k : KeyDecoding) : Option Str → Except CliError Unit
  | none => .ok ()
  | some key =>
    match k.x25519_from_base64 key with
    | .error e => .error (.ServerKey e)
    | .ok _ => .ok ()

/-- The checks before the file is touched. -/
def add_server_checks (h : CliHost) (existing : ClientConfig) (args : AddServerArgs) :
    Except CliError Unit := do
  validate_token "--name" args.name
  bail_if (args.name = existing.client.server_id) (.Collides args.name)
  bail_if (args.name ∈ existing.client.servers) (.AlreadyConfigured args.name)
  validate_token "--server-id" (args.server_id.getD args.name)
  bail_if (!args.no_encryption && args.server_key.isNone)
    (.Bail "encrypted mode (default) needs --server-key (run the new server's `init` to print it), or pass --no-encryption")
  validate_server_key h.keys args.server_key
  validate_addr (normalize_addr h.socket_addr args.server)

/-- The table that is added. The id is left out when it is the label. -/
def AddServerArgs.block (args : AddServerArgs) (server_addr : Str) : Block where
  element := false
  path := ["client".toList, "servers".toList, args.name]
  lines := ("server_addr", .basic server_addr) ::
    (optional_line "server_id" ((args.server_id.filter (· ≠ args.name)).map .basic) ++
      (optional_line "server_encryption_key" (args.server_key.map .basic) ++
        (optional_line "wire_encryption"
            (if args.no_encryption then some (.boolean false) else none) ++
          optional_line "interval_seconds" (args.interval.map fun n => .integer n.toNat))))

/-- What the command returns, and the file after it. `none` is a panic of `from_hex`. -/
def add_server (h : CliHost) (args : AddServerArgs) (file : Option Str) :
    Option (Except CliError Unit) × Option Str :=
  match ClientConfig.load_file h.parse file with
  | none => (none, file)
  | some (.error e) => (some (.error (.CannotLoad e)), file)
  | some (.ok existing) =>
    match add_server_checks h existing args with
    | .error e => (some (.error e), file)
    | .ok () =>
      match file with
      | none => (some (.error .Io), file)
      | some text =>
        let block := args.block (normalize_addr h.socket_addr args.server)
        match write_config_file h.writes file (append_block text block) with
        | (false, file) => (some (.error .Io), file)
        | (true, file) =>
          -- the file has been replaced by now
          match ClientConfig.load_file h.parse file with
          | none => (none, file)
          | some (.error e) => (some (.error (.Reload e)), file)
          | some (.ok _) => (some (.ok ()), file)

/-! ### `init` -/

structure InitArgs where
  server : Str
  server_key : Option Str
  client_id : Option Str
  label : Option Str
  server_id : Str
  interval : UInt64
  no_encryption : Bool
  force : Bool

/-- The id that was given, or a random one. `none` is a panic of `from_hex`. -/
def InitArgs.id (args : InitArgs) (h : CliHost) : Option (Except CliError Str) :=
  match args.client_id with
  | none => some (.ok (ClientId.mk h.nonce).to_hex)
  | some id =>
    match ClientId.from_hex id with
    | none => none
    | some (.error _) => some (.error (.Bail "--client-id must be 64 hex"))
    | some (.ok _) => some (.ok id)

/-- The checks before the id. -/
def init_checks (args : InitArgs) (file : Option Str) : Except CliError Unit := do
  bail_if (file.isSome && !args.force) .AlreadyExists
  bail_if (!args.no_encryption && args.server_key.isNone)
    (.Bail "encrypted mode (default) needs --server-key (run `signedpulse-server init` to print it), or pass --no-encryption")
  validate_token "--server-id" args.server_id
  match args.label with
  | some label => validate_token "--label" label
  | none => pure ()

def init_comment : Str := "# Generated by `signedpulse-client init`.".toList

def InitArgs.block (args : InitArgs) (h : CliHost) (client_id server_addr : Str) : Block where
  element := false
  path := ["client".toList]
  lines := ("client_id", .basic client_id) :: ("server_addr", .basic server_addr) ::
    ("server_id", .basic args.server_id) :: ("interval_seconds", .integer args.interval.toNat) ::
    ("private_key", .basic (base64 h.seed.val)) :: ("retry_initial_ms", .integer 500) ::
    ("retry_max_ms", .integer 4000) :: ("retries", .integer 3) ::
    ("wire_encryption", .boolean !args.no_encryption) ::
    optional_line "server_encryption_key" (args.server_key.map .basic)

def init (h : CliHost) (args : InitArgs) (file : Option Str) :
    Option (Except CliError Unit) × Option Str :=
  match init_checks args file with
  | .error e => (some (.error e), file)
  | .ok () =>
    match args.id h with
    | none => (none, file)
    | some (.error e) => (some (.error e), file)
    | some (.ok client_id) =>
      let server_addr := normalize_addr h.socket_addr args.server
      match validate_addr server_addr with
      | .error e => (some (.error e), file)
      | .ok () =>
        -- the key of the server has not been looked at
        let config := init_comment ++ '\n' :: (args.block h client_id server_addr).text
        match write_config_file h.writes file config with
        | (false, file) => (some (.error .Io), file)
        | (true, file) => (some (.ok ()), file)

/-! ### What the checks leave -/

theorem token_plain {field : String} {value : Str} (h : validate_token field value = .ok ()) :
    value ≠ [] ∧ Toml.Unescaped value ∧ Plain value := by
  unfold validate_token at h
  split at h
  · cases h
  rename_i hempty
  split at h
  · cases h
  rename_i hchars
  refine ⟨fun hnil => hempty (by rw [hnil]; rfl), plain_unescaped ?_⟩
  intro c hc
  simp only [Bool.not_eq_true, Bool.not_eq_false', List.all_eq_true, Bool.or_eq_true,
    decide_eq_true_eq] at hchars
  rcases hchars c hc with ((halnum | rfl) | rfl) | rfl
  · exact plain_of_alphanum halnum
  all_goals decide

theorem addr_plain {value : Str} (h : validate_addr value = .ok ()) :
    value ≠ [] ∧ Toml.Unescaped value ∧ Plain value := by
  unfold validate_addr at h
  split at h
  · cases h
  rename_i hempty
  split at h
  · cases h
  rename_i hchars
  refine ⟨fun hnil => hempty (by rw [hnil]; rfl), plain_unescaped ?_⟩
  intro c hc
  simp only [List.any_eq_true, not_exists, not_and, Bool.not_eq_true] at hchars
  have hchar := hchars c hc
  simp only [Bool.or_eq_false_iff, decide_eq_false_iff_not] at hchar
  obtain ⟨⟨⟨hquote, hslash⟩, -⟩, hcontrol⟩ := hchar
  exact ⟨Server.plain_of_not_control hcontrol, hquote, hslash⟩

/-- The arguments of `add-server` pass the checks. -/
structure AddServerArgs.Checked (args : AddServerArgs) (h : CliHost) (existing : ClientConfig) :
    Prop where
  name : validate_token "--name" args.name = .ok ()
  primary : args.name ≠ existing.client.server_id
  fresh : args.name ∉ existing.client.servers
  server_id : validate_token "--server-id" (args.server_id.getD args.name) = .ok ()
  encrypted : args.server_key = none → args.no_encryption = true
  server_key : validate_server_key h.keys args.server_key = .ok ()
  addr : validate_addr (normalize_addr h.socket_addr args.server) = .ok ()

theorem add_server_checks_ok {h : CliHost} {existing : ClientConfig} {args : AddServerArgs} :
    add_server_checks h existing args = .ok () ↔ args.Checked h existing := by
  unfold add_server_checks
  simp only [checks_ok, bail_if_ok, decide_eq_false_iff_not]
  constructor
  · intro hchecks
    obtain ⟨hname, hprimary, hfresh, hid, hencrypted, hkey, haddr⟩ := hchecks
    refine ⟨hname, hprimary, hfresh, hid, ?_, hkey, haddr⟩
    intro hnone
    simpa [hnone] using hencrypted
  · intro hchecked
    obtain ⟨hname, hprimary, hfresh, hid, hencrypted, hkey, haddr⟩ := hchecked
    refine ⟨hname, hprimary, hfresh, hid, ?_, hkey, haddr⟩
    cases hnone : args.server_key with
    | none => simp [hencrypted hnone]
    | some key => simp

section block
variable {h : CliHost} {existing : ClientConfig} {args : AddServerArgs}

theorem AddServerArgs.Checked.server_key_plain (hchecked : args.Checked h existing)
    (hb64 : h.keys.Alphabet) {key : Str} (hkey : args.server_key = some key) :
    Toml.Unescaped key ∧ Plain key := by
  have hdecodes := hchecked.server_key
  rw [hkey] at hdecodes
  unfold validate_server_key KeyDecoding.x25519_from_base64 at hdecodes
  dsimp only at hdecodes
  split at hdecodes
  · cases hdecodes
  rename_i hread
  split at hread
  · cases hread
  · rename_i decoded hdecoded
    exact hb64.plain hdecoded

/-- What the lines of the block are. -/
theorem AddServerArgs.mem_block {server_addr : Str} {line : String × Scalar}
    (hline : line ∈ (args.block server_addr).lines) :
    line.2 = .basic server_addr ∨ (∃ id, args.server_id = some id ∧ line.2 = .basic id) ∨
      (∃ key, args.server_key = some key ∧ line.2 = .basic key) ∨ line.2 = .boolean false ∨
      ∃ n, args.interval = some n ∧ line.2 = .integer n.toNat := by
  unfold AddServerArgs.block at hline
  simp only [List.mem_cons, List.mem_append, mem_optional_line, Option.map_eq_some_iff,
    Option.filter_eq_some_iff] at hline
  rcases hline with rfl | ⟨-, id, ⟨hid, -⟩, hv⟩ | ⟨-, key, hkey, hv⟩ | ⟨-, hv⟩ | ⟨-, n, hn, hv⟩
  · exact .inl rfl
  · exact .inr (.inl ⟨id, hid, hv.symm⟩)
  · exact .inr (.inr (.inl ⟨key, hkey, hv.symm⟩))
  · split at hv
    · exact .inr (.inr (.inr (.inl (Option.some.inj hv).symm)))
    · cases hv
  · exact .inr (.inr (.inr (.inr ⟨n, hn, hv.symm⟩)))

theorem AddServerArgs.block_keys (args : AddServerArgs) (server_addr : Str) :
    ((args.block server_addr).lines.map Prod.fst).Sublist
      ["server_addr", "server_id", "server_encryption_key", "wire_encryption",
        "interval_seconds"] := by
  unfold AddServerArgs.block
  simp only [List.map_cons, List.map_append]
  exact .cons_cons _ ((optional_line_keys _ _).append ((optional_line_keys _ _).append
    ((optional_line_keys _ _).append (optional_line_keys _ _))))

/-- Checked arguments do not break out of the block. -/
theorem AddServerArgs.Checked.clean (hchecked : args.Checked h existing) (hb64 : h.keys.Alphabet) :
    (args.block (normalize_addr h.socket_addr args.server)).Clean where
  path := by
    have hname := token_plain hchecked.name
    intro key hkey
    rcases List.mem_cons.mp hkey with rfl | hkey
    · decide
    rcases List.mem_cons.mp hkey with rfl | hkey
    · decide
    · obtain rfl := List.mem_singleton.mp hkey
      exact hname
  keys := Block.keys_of_sublist (args.block_keys _) (by decide) (by decide)
  values := by
    intro line hline
    rcases AddServerArgs.mem_block hline with hv | ⟨id, hid, hv⟩ | ⟨key, hkey, hv⟩ | hv | ⟨n, -, hv⟩
    · rw [hv]
      exact (addr_plain hchecked.addr).2.1
    · rw [hv]
      have htoken := hchecked.server_id
      rw [hid] at htoken
      exact (token_plain htoken).2.1
    · rw [hv]
      exact (hchecked.server_key_plain hb64 hkey).1
    · rw [hv]
      trivial
    · rw [hv]
      trivial

/-- The interval is the one value that need not be valid. -/
theorem AddServerArgs.Checked.valid_iff (hchecked : args.Checked h existing)
    (hb64 : h.keys.Alphabet) :
    (∀ line ∈ (args.block (normalize_addr h.socket_addr args.server)).lines, line.2.Valid) ↔
      ∀ n, args.interval = some n → n.toNat < 2 ^ 63 := by
  constructor
  · intro hvalid n hn
    apply hvalid ("interval_seconds", .integer n.toNat)
    unfold AddServerArgs.block
    simp [hn]
  · intro hinterval line hline
    rcases AddServerArgs.mem_block hline with
      hv | ⟨id, hid, hv⟩ | ⟨key, hkey, hv⟩ | hv | ⟨n, hn, hv⟩
    · rw [hv]
      exact (addr_plain hchecked.addr).2.2
    · rw [hv]
      have htoken := hchecked.server_id
      rw [hid] at htoken
      exact (token_plain htoken).2.2
    · rw [hv]
      exact (hchecked.server_key_plain hb64 hkey).2
    · rw [hv]
      trivial
    · rw [hv]
      exact hinterval n hn

/-- The server that was asked for. -/
def AddServerArgs.entry (args : AddServerArgs) (server_addr : Str) : ServerOverride where
  server_addr := server_addr
  server_id := args.server_id.filter (· ≠ args.name)
  server_encryption_key := args.server_key
  wire_encryption := if args.no_encryption then some false else none
  interval_seconds := args.interval
  challenge_timeout_seconds := none
  retry_initial_ms := none
  retry_max_ms := none
  retries := none
  param_command := none
  param_command_timeout_seconds := none
  param_max_len := none

theorem AddServerArgs.lookup_block (args : AddServerArgs) (server_addr : Str) :
    (args.block server_addr).lines.lookup "server_id" =
        (args.server_id.filter (· ≠ args.name)).map .basic ∧
      (args.block server_addr).lines.lookup "server_encryption_key" =
        args.server_key.map .basic ∧
      (args.block server_addr).lines.lookup "wire_encryption" =
        (if args.no_encryption then some (.boolean false) else none) ∧
      (args.block server_addr).lines.lookup "interval_seconds" =
        args.interval.map (fun n => .integer n.toNat) := by
  -- the first line is the address; the others are there or not, in this order
  have hskip (key : String) (hkey : key ≠ "server_addr") :
      (args.block server_addr).lines.lookup key = (args.block server_addr).lines.tail.lookup
        key := by
    show List.lookup key (("server_addr", _) :: _) = _
    rw [List.lookup_cons, show (key == "server_addr") = false by simpa using hkey]
    rfl
  refine ⟨?_, ?_, ?_, ?_⟩
  · rw [hskip _ (by decide)]
    show List.lookup "server_id" (optional_line "server_id" _ ++ _) = _
    rw [List.lookup_append, lookup_optional_line_self,
      lookup_optional_line_append_ne _ _ (by decide),
      lookup_optional_line_append_ne _ _ (by decide), lookup_optional_line_ne _ (by decide),
      Option.or_none]
  · rw [hskip _ (by decide)]
    show List.lookup "server_encryption_key" (optional_line "server_id" _ ++ _) = _
    rw [lookup_optional_line_append_ne _ _ (by decide), List.lookup_append,
      lookup_optional_line_self, lookup_optional_line_append_ne _ _ (by decide),
      lookup_optional_line_ne _ (by decide), Option.or_none]
  · rw [hskip _ (by decide)]
    show List.lookup "wire_encryption" (optional_line "server_id" _ ++ _) = _
    rw [lookup_optional_line_append_ne _ _ (by decide),
      lookup_optional_line_append_ne _ _ (by decide), List.lookup_append,
      lookup_optional_line_self, lookup_optional_line_ne _ (by decide), Option.or_none]
  · rw [hskip _ (by decide)]
    show List.lookup "interval_seconds" (optional_line "server_id" _ ++ _) = _
    rw [lookup_optional_line_append_ne _ _ (by decide),
      lookup_optional_line_append_ne _ _ (by decide),
      lookup_optional_line_append_ne _ _ (by decide), lookup_optional_line_self]

/-- The block is read as the server that was asked for. -/
theorem AddServerArgs.entry_from_toml (args : AddServerArgs) (server_addr : Str) :
    ServerOverride.from_toml (.table (args.block server_addr).entries) =
      some (args.entry server_addr) := by
  have hkeys := args.block_keys server_addr
  -- a field that is not written is read as none
  have habsent {α : Type} (read : Value → Option α) (key : String) (hkey : key ∉ ["server_addr",
      "server_id", "server_encryption_key", "wire_encryption", "interval_seconds"]) :
      omittable read (args.block server_addr).entries key = some none := by
    apply omittable_absent
    rw [Block.lookup_entries, Block.lookup_absent hkeys hkey]
    rfl
  have haddr : required Value.as_string (args.block server_addr).entries "server_addr" =
      some server_addr := by
    have hlookup : (args.block server_addr).entries.lookup "server_addr".toList =
        some (.string server_addr) := by
      rw [Block.lookup_entries]
      rfl
    exact required_of_lookup hlookup
  obtain ⟨hid, hkey, hwire, hinterval⟩ := args.lookup_block server_addr
  have hid' : omittable Value.as_string (args.block server_addr).entries "server_id" =
      some (args.server_id.filter (· ≠ args.name)) := by
    apply omittable_of_lookup (f := .string) ?_ fun _ => rfl
    rw [Block.lookup_entries, hid, Option.map_map]
    rfl
  have hkey' : omittable Value.as_string (args.block server_addr).entries
      "server_encryption_key" = some args.server_key := by
    apply omittable_of_lookup (f := .string) ?_ fun _ => rfl
    rw [Block.lookup_entries, hkey, Option.map_map]
    rfl
  have hwire' : omittable Value.as_bool (args.block server_addr).entries "wire_encryption" =
      some (if args.no_encryption then some false else none) := by
    apply omittable_of_lookup (f := .boolean) ?_ fun _ => rfl
    rw [Block.lookup_entries, hwire]
    split <;> rfl
  have hinterval' : omittable Value.as_u64 (args.block server_addr).entries "interval_seconds" =
      some args.interval := by
    apply omittable_of_lookup (f := fun n : UInt64 => .integer n.toNat) ?_ Value.as_u64_integer
    rw [Block.lookup_entries, hinterval, Option.map_map]
    rfl
  have hfields : ∀ key ∈ (args.block server_addr).lines.map Prod.fst,
      key ∈ ServerOverride.fields := (hkeys.trans (by decide)).subset
  unfold ServerOverride.from_toml
  rw [Block.as_struct hfields, Option.bind_eq_bind, Option.bind_some, haddr, hid', hkey', hwire',
    hinterval', habsent Value.as_u64 "challenge_timeout_seconds" (by decide),
    habsent Value.as_u64 "retry_initial_ms" (by decide),
    habsent Value.as_u64 "retry_max_ms" (by decide),
    habsent Value.as_u32 "retries" (by decide),
    habsent (Value.as_vec Value.as_string) "param_command" (by decide),
    habsent Value.as_u64 "param_command_timeout_seconds" (by decide),
    habsent Value.as_usize "param_max_len" (by decide)]
  rfl

/-- The checks that `load` makes on the new table, after those of the command. -/
theorem AddServerArgs.Checked.entry_checks (hchecked : args.Checked h existing)
    (hbefore : existing.Accepted) :
    (∀ x ∈ (args.entry (normalize_addr h.socket_addr args.server)).checks args.name
        existing.client, x.1 = false) ↔
      args.interval ≠ some 0 ∧
        (args.server_key = none → existing.client.param_command = none) := by
  have hlabel := (token_plain hchecked.name).1
  have haddr := (addr_plain hchecked.addr).1
  have hretry : ¬ existing.client.retry_initial_ms = 0 ∧ ¬ existing.client.retry_max_ms = 0 ∧
      ¬ existing.client.retry_initial_ms > existing.client.retry_max_ms := by
    have hprimary := hbefore.primary
    unfold ClientSection.checks at hprimary
    simp only [List.mem_cons, List.not_mem_nil, or_false, forall_eq_or_imp, forall_eq,
      decide_eq_false_iff_not, Bool.or_eq_false_iff] at hprimary
    obtain ⟨-, -, ⟨hinitial, hmax⟩, hle, -⟩ := hprimary
    exact ⟨hinitial, hmax, hle⟩
  -- without a key the wire is in the clear, so what counts is whether a command is inherited
  have hkey : ((((args.entry (normalize_addr h.socket_addr args.server)).wire_encryption.getD
        existing.client.wire_encryption || existing.client.param_command.isSome) &&
        args.server_key.isNone) = false) ↔
      (args.server_key = none → existing.client.param_command = none) := by
    cases hnone : args.server_key with
    | some key => simp
    | none =>
      unfold AddServerArgs.entry
      simp [hchecked.encrypted hnone]
  unfold ServerOverride.checks
  simp only [List.mem_cons, List.not_mem_nil, or_false, forall_eq_or_imp, forall_eq,
    decide_eq_false_iff_not, Bool.or_eq_false_iff]
  constructor
  · intro hall
    obtain ⟨-, -, -, hneeds, -, hinterval, -⟩ := hall
    exact ⟨hinterval, hkey.mp hneeds⟩
  · intro hcond
    obtain ⟨hinterval, hneeds⟩ := hcond
    refine ⟨?_, hchecked.primary, ?_, hkey.mpr hneeds, ?_, hinterval, ⟨⟨hretry.1, hretry.2.1⟩,
      hretry.2.2⟩, ?_, rfl⟩
    · simpa using hlabel
    · simpa [AddServerArgs.entry] using haddr
    · simp [AddServerArgs.entry]
    · simp [AddServerArgs.entry]

/-- The configuration with the new table is accepted iff the checks on the table pass. -/
theorem AddServerArgs.Checked.accepted_iff (hchecked : args.Checked h existing)
    (hbefore : existing.Accepted) {after : ClientConfig}
    (hextends : existing.Extends args.name
      (args.entry (normalize_addr h.socket_addr args.server)) after) :
    after.Accepted ↔
      args.interval ≠ some 0 ∧
        (args.server_key = none → existing.client.param_command = none) := by
  obtain ⟨hsettings, hservers⟩ := hextends
  rw [← hchecked.entry_checks hbefore]
  -- no check reads the map of the section
  have hsame (ov : ServerOverride) (label : Str) :
      ov.checks label after.client = ov.checks label existing.client := by
    rw [hsettings]
    rfl
  constructor
  · intro hafter x hx
    have hentry : (⟨args.name, args.entry (normalize_addr h.socket_addr args.server)⟩ :
        Σ _ : Str, ServerOverride) ∈ after.client.servers.entries := by
      apply AList.mem_lookup_iff.mp
      rw [Option.mem_def, hservers, if_pos rfl]
    rw [← hsame] at hx
    exact hafter.servers _ hentry x hx
  · intro hnew
    refine ⟨?_, ?_, ?_, ?_⟩
    · rw [hsettings]
      exact hbefore.interval
    · rw [hsettings]
      exact hbefore.client_id
    · rw [hsettings]
      exact hbefore.primary
    · intro e he x hx
      rw [hsame] at hx
      have hlookup := AList.mem_lookup_iff.mpr he
      rw [Option.mem_def, hservers] at hlookup
      by_cases hlabel : e.1 = args.name
      · rw [if_pos hlabel] at hlookup
        rw [← Option.some.inj hlookup, hlabel] at hx
        exact hnew x hx
      · rw [if_neg hlabel] at hlookup
        exact hbefore.servers e (AList.mem_lookup_iff.mp hlookup) x hx

end block

/-! ### Runs of `add-server` -/

/-- Either the file is as it was, or the command succeeds and the configuration is extended by the
    server that was asked for. -/
def AddServerSafe (h : CliHost) (args : AddServerArgs) (file : Option Str) : Prop :=
  match add_server h args file with
  | (some (.ok ()), after) =>
    ∃ existing updated, ClientConfig.load_file h.parse file = some (.ok existing) ∧
      ClientConfig.load_file h.parse after = some (.ok updated) ∧
      existing.Extends args.name (args.entry (normalize_addr h.socket_addr args.server)) updated
  | (_, after) => after = file

/-- The command gets as far as writing the file. -/
def AddServerWrites (h : CliHost) (args : AddServerArgs) (text : Str) (existing : ClientConfig) :
    Prop :=
  ClientConfig.load_file h.parse (some text) = some (.ok existing) ∧
    args.Checked h existing ∧ h.writes = true

/-- The table as it is written. -/
abbrev AddServerArgs.table (args : AddServerArgs) (h : CliHost) : Block :=
  args.block (normalize_addr h.socket_addr args.server)

/-- What makes the new file a configuration: there is room for the table, the interval is a
    positive 64-bit integer, and a command of the primary finds a key. -/
structure AddServerArgs.Loads (args : AddServerArgs) (doc : Entries) (existing : ClientConfig) :
    Prop where
  room : OpenServers doc
  interval : ∀ n, args.interval = some n → 1 ≤ n.toNat ∧ n.toNat < 2 ^ 63
  server_key : args.server_key = none → existing.client.param_command = none

section runs
variable {h : CliHost} {args : AddServerArgs} {text : Str} {existing : ClientConfig}

/-- Before that point the file is as it was. -/
theorem add_server_untouched (hno : ∀ existing, ¬ AddServerWrites h args text existing) :
    ∃ r, add_server h args (some text) = (r, some text) ∧ r ≠ some (.ok ()) := by
  unfold add_server
  split
  · exact ⟨_, rfl, by simp⟩
  · exact ⟨_, rfl, by simp⟩
  rename_i existing hload
  split
  · exact ⟨_, rfl, by simp⟩
  rename_i hchecks
  have hwrites : h.writes = false := by
    by_contra hwrites
    exact hno existing
      ⟨hload, add_server_checks_ok.mp hchecks, Bool.eq_true_of_not_eq_false hwrites⟩
  unfold write_config_file
  rw [hwrites]
  exact ⟨_, rfl, by simp⟩

/-- From there on it succeeds iff the new file is loaded. -/
theorem add_server_written (hwrites : AddServerWrites h args text existing) :
    ∃ r, add_server h args (some text) = (r, some (append_block text (args.table h))) ∧
      (r = some (.ok ()) ↔ ∃ updated,
        ClientConfig.load_file h.parse (some (append_block text (args.table h))) =
          some (.ok updated)) := by
  obtain ⟨hload, hchecked, hwrites⟩ := hwrites
  unfold add_server write_config_file
  rw [hload]
  dsimp only
  rw [add_server_checks_ok.mpr hchecked, if_pos hwrites]
  dsimp only
  split
  · rename_i hreload
    exact ⟨_, rfl, by simp [hreload]⟩
  · rename_i e hreload
    exact ⟨_, rfl, by simp [hreload]⟩
  · rename_i updated hreload
    exact ⟨_, rfl, by simp [hreload]⟩

/-- The new file is loaded iff it is a configuration, and then it is the extended one. -/
theorem load_table {doc : Entries} (hwrites : AddServerWrites h args text existing)
    (hdoc : h.parse text = some doc) (hb64 : h.keys.Alphabet)
    (htoml : Appends h.parse text (feeds text) (args.table h)) :
    (args.Loads doc existing → ∃ updated,
      ClientConfig.load_file h.parse (some (append_block text (args.table h))) =
        some (.ok updated) ∧
      existing.Extends args.name (args.entry (normalize_addr h.socket_addr args.server)) updated) ∧
    ((∃ updated, ClientConfig.load_file h.parse (some (append_block text (args.table h))) =
        some (.ok updated)) → args.Loads doc existing) := by
  obtain ⟨hload, hchecked, -⟩ := hwrites
  obtain ⟨doc', hdoc', hcfg, haccepted⟩ := ClientConfig.load_file_ok.mp hload
  obtain rfl := Option.some.inj (hdoc'.symm.trans hdoc)
  have hparse : h.parse (append_block text (args.table h)) = (args.table h).append doc' := by
    rw [append_block_eq]
    exact htoml doc' hdoc (one_le_feeds text) (hchecked.clean hb64)
      fun _ => contains_new hcfg hchecked.fresh
  have hlines := hchecked.valid_iff hb64
  -- with room and valid lines, the document is the extended one
  have hadded (hopen : OpenServers doc')
      (hvalid : ∀ line ∈ (args.table h).lines, line.2.Valid) :
      ∃ doc'' updated, h.parse (append_block text (args.table h)) = some doc'' ∧
        ClientConfig.from_toml doc'' = some updated ∧
        existing.Extends args.name (args.entry (normalize_addr h.socket_addr args.server))
          updated := by
    obtain ⟨doc'', updated, happend, hcfg', hextends⟩ := from_toml_add hcfg hopen hchecked.fresh
      rfl rfl hvalid (args.entry_from_toml _)
    exact ⟨doc'', updated, hparse.trans happend, hcfg', hextends⟩
  constructor
  · intro hloads
    have hvalid := hlines.mpr fun n hn => (hloads.interval n hn).2
    obtain ⟨doc'', updated, hdoc'', hcfg', hextends⟩ := hadded hloads.room hvalid
    refine ⟨updated, ClientConfig.load_file_ok.mpr ⟨doc'', hdoc'', hcfg', ?_⟩, hextends⟩
    rw [hchecked.accepted_iff haccepted hextends]
    refine ⟨fun hzero => ?_, hloads.server_key⟩
    have hpositive := (hloads.interval 0 hzero).1
    exact absurd hpositive (by decide)
  · intro ⟨updated, hreload⟩
    obtain ⟨doc'', hdoc'', hcfg', haccepted'⟩ := ClientConfig.load_file_ok.mp hreload
    have happend := hparse.symm.trans hdoc''
    have hopen : OpenServers doc' := by
      by_contra hshut
      rw [append_shut hcfg hshut rfl rfl] at happend
      cases happend
    have hvalid : ∀ line ∈ (args.table h).lines, line.2.Valid := by
      by_contra hinvalid
      unfold Block.append at happend
      rw [if_neg hinvalid] at happend
      cases happend
    obtain ⟨doc₂, updated₂, hdoc₂, hcfg₂, hextends⟩ := hadded hopen hvalid
    obtain rfl := Option.some.inj (hdoc₂.symm.trans hdoc'')
    obtain rfl := Option.some.inj (hcfg₂.symm.trans hcfg')
    obtain ⟨hzero, hkey⟩ := (hchecked.accepted_iff haccepted hextends).mp haccepted'
    refine ⟨hopen, fun n hn => ⟨?_, hlines.mp hvalid n hn⟩, hkey⟩
    by_contra hlt
    have hn0 : n = 0 := UInt64.toNat_inj.mp (by simpa using hlt)
    exact hzero (hn0 ▸ hn)

/-- Once the file is written, the command was safe iff the new file is a configuration. -/
theorem add_server_safe_of_writes {doc : Entries} (hwrites : AddServerWrites h args text existing)
    (hdoc : h.parse text = some doc) (hb64 : h.keys.Alphabet)
    (htoml : Appends h.parse text (feeds text) (args.table h)) :
    AddServerSafe h args (some text) ↔ args.Loads doc existing := by
  obtain ⟨r, hrun, hr⟩ := add_server_written hwrites
  obtain ⟨hloads, honly⟩ := load_table hwrites hdoc hb64 htoml
  unfold AddServerSafe
  rw [hrun]
  constructor
  · intro hsafe
    split at hsafe
    · rename_i heq
      exact honly (hr.mp (Prod.mk.inj heq).1)
    · -- not a success, but the file is another
      rename_i heq
      rw [← (Prod.mk.inj heq).2] at hsafe
      exact absurd (Option.some.inj hsafe) (append_block_ne _ _)
  · intro hcond
    obtain ⟨updated, hreload, hextends⟩ := hloads hcond
    rw [hr.mpr ⟨updated, hreload⟩]
    exact ⟨existing, updated, hwrites.1, hreload, hextends⟩

/-- The command is safe iff, whenever it gets as far as writing the file, that is a
    configuration. -/
theorem add_server_safe (hb64 : h.keys.Alphabet)
    (htoml : Appends h.parse text (feeds text) (args.table h)) :
    AddServerSafe h args (some text) ↔
      ∀ doc existing, h.parse text = some doc → AddServerWrites h args text existing →
        args.Loads doc existing := by
  constructor
  · intro hsafe doc existing hdoc hwrites
    exact (add_server_safe_of_writes hwrites hdoc hb64 htoml).mp hsafe
  · intro hall
    by_cases hreached : ∃ existing, AddServerWrites h args text existing
    · obtain ⟨existing, hwrites⟩ := hreached
      obtain ⟨doc, hdoc, -, -⟩ := ClientConfig.load_file_ok.mp hwrites.1
      exact (add_server_safe_of_writes hwrites hdoc hb64 htoml).mpr (hall doc existing hdoc hwrites)
    · obtain ⟨r, hrun, hr⟩ := add_server_untouched fun existing hwrites =>
        hreached ⟨existing, hwrites⟩
      unfold AddServerSafe
      rw [hrun]
      split
      · rename_i heq
        exact absurd (Prod.mk.inj heq).1 hr
      · rename_i heq
        exact (Prod.mk.inj heq).2.symm

end runs

/-! ### Runs of `init` -/

/-- Where the command succeeds, the file it wrote is accepted. -/
def InitSafe (h : CliHost) (args : InitArgs) (file : Option Str) : Prop :=
  match init h args file with
  | (some (.ok ()), after) => ∃ cfg, ClientConfig.load_file h.parse after = some (.ok cfg)
  | _ => True

/-- The command gets as far as writing the file, with this id in it. -/
structure InitWrites (h : CliHost) (args : InitArgs) (file : Option Str) (client_id : Str) :
    Prop where
  checks : init_checks args file = .ok ()
  client_id : args.id h = some (.ok client_id)
  addr : validate_addr (normalize_addr h.socket_addr args.server) = .ok ()
  writes : h.writes = true

/-- The section as it is written. -/
abbrev InitArgs.section (args : InitArgs) (h : CliHost) (client_id : Str) : Block :=
  args.block h client_id (normalize_addr h.socket_addr args.server)

/-- What makes the new file a configuration: the interval is a positive 64-bit integer, and neither
    the id nor the key of the server has a control character. -/
structure InitArgs.Loads (args : InitArgs) : Prop where
  interval : 1 ≤ args.interval.toNat ∧ args.interval.toNat < 2 ^ 63
  client_id : ∀ id, args.client_id = some id → Plain id
  server_key : ∀ key, args.server_key = some key → Plain key

section runs
variable {h : CliHost} {args : InitArgs} {file : Option Str} {client_id : Str}

theorem init_written (hwrites : InitWrites h args file client_id) :
    init h args file =
      (some (.ok ()), some (init_comment ++ '\n' :: (args.section h client_id).text)) := by
  unfold init write_config_file
  rw [hwrites.checks]
  dsimp only
  rw [hwrites.client_id]
  dsimp only
  rw [hwrites.addr, if_pos hwrites.writes]

theorem init_ok {after : Option Str} (hrun : init h args file = (some (.ok ()), after)) :
    ∃ client_id, InitWrites h args file client_id := by
  unfold init write_config_file at hrun
  split at hrun
  · cases hrun
  rename_i hchecks
  split at hrun
  · cases hrun
  · cases hrun
  rename_i client_id hid
  dsimp only at hrun
  split at hrun
  · cases hrun
  rename_i haddr
  by_cases hwrites : h.writes = true
  · exact ⟨client_id, hchecks, hid, haddr, hwrites⟩
  · rw [if_neg hwrites] at hrun
    cases hrun

theorem InitWrites.server_id (hwrites : InitWrites h args file client_id) :
    validate_token "--server-id" args.server_id = .ok () ∧
      (args.server_key = none → args.no_encryption = true) := by
  have hchecks := hwrites.checks
  unfold init_checks at hchecks
  simp only [checks_ok, bail_if_ok] at hchecks
  obtain ⟨-, hencrypted, htoken, -⟩ := hchecks
  refine ⟨htoken, ?_⟩
  intro hnone
  simpa [hnone] using hencrypted

/-- The id is read back, has nothing to escape, and is plain if the one that was given is. -/
theorem InitWrites.id_reads (hwrites : InitWrites h args file client_id) :
    (∃ id, ClientId.from_hex client_id = some (.ok id)) ∧ Toml.Unescaped client_id ∧
      (Plain client_id ↔ ∀ id, args.client_id = some id → Plain id) := by
  have hid := hwrites.client_id
  unfold InitArgs.id at hid
  split at hid
  · -- drawn, and written in hex
    rename_i hnone
    obtain rfl := Except.ok.inj (Option.some.inj hid)
    have hchars : ∀ c ∈ (ClientId.mk h.nonce).to_hex, plain_char c = true ∧ c ≠ '"' ∧ c ≠ '\\' :=
      forall_mem_hex (by decide) _
    obtain ⟨hunescaped, hplain⟩ := plain_unescaped hchars
    refine ⟨⟨_, from_hex_to_hex _⟩, hunescaped, fun _ id hsome => ?_, fun _ => hplain⟩
    rw [hnone] at hsome
    cases hsome
  · rename_i given hsome
    split at hid
    · cases hid
    · cases hid
    rename_i id hread
    obtain rfl := Except.ok.inj (Option.some.inj hid)
    refine ⟨⟨id, hread⟩, Server.unescaped_of_from_hex hread, ?_⟩
    simp [hsome]

theorem private_key_plain (seed : Bytes) :
    Toml.Unescaped (base64 seed) ∧ Plain (base64 seed) := by
  have hchars : ∀ c ∈ base64 seed, plain_char c = true ∧ c ≠ '"' ∧ c ≠ '\\' :=
    forall_mem_base64 (by decide +kernel) (by decide) seed
  exact plain_unescaped hchars

theorem InitArgs.block_keys (args : InitArgs) (h : CliHost) (client_id server_addr : Str) :
    ((args.block h client_id server_addr).lines.map Prod.fst).Sublist
      ["client_id", "server_addr", "server_id", "interval_seconds", "private_key",
        "retry_initial_ms", "retry_max_ms", "retries", "wire_encryption",
        "server_encryption_key"] := by
  have htail := optional_line_keys "server_encryption_key" (args.server_key.map .basic)
  exact htail.cons_cons _ |>.cons_cons _ |>.cons_cons _ |>.cons_cons _ |>.cons_cons _
    |>.cons_cons _ |>.cons_cons _ |>.cons_cons _ |>.cons_cons _

/-- Arguments that get as far do not break out of the block, if the key does not. -/
theorem InitWrites.clean (hwrites : InitWrites h args file client_id)
    (hkey : ∀ key, args.server_key = some key → Toml.Unescaped key) :
    (args.section h client_id).Clean where
  path := by
    intro key hpath
    obtain rfl := List.mem_singleton.mp hpath
    decide
  keys := Block.keys_of_sublist (args.block_keys h _ _) (by decide) (by decide)
  values := by
    intro line hline
    simp only [InitArgs.section, InitArgs.block, List.mem_cons, mem_optional_line,
      Option.map_eq_some_iff] at hline
    rcases hline with rfl | rfl | rfl | rfl | rfl | rfl | rfl | rfl | rfl | ⟨-, key, hsome, hv⟩
    · exact hwrites.id_reads.2.1
    · exact (addr_plain hwrites.addr).2.1
    · exact (token_plain hwrites.server_id.1).2.1
    · trivial
    · exact (private_key_plain _).1
    · trivial
    · trivial
    · trivial
    · trivial
    · rw [← hv]
      exact hkey key hsome

/-- The lines are valid just under these conditions. -/
theorem InitWrites.valid_iff (hwrites : InitWrites h args file client_id) :
    (∀ line ∈ (args.section h client_id).lines, line.2.Valid) ↔
      args.interval.toNat < 2 ^ 63 ∧ (∀ id, args.client_id = some id → Plain id) ∧
        ∀ key, args.server_key = some key → Plain key := by
  rw [← hwrites.id_reads.2.2]
  constructor
  · intro hvalid
    refine ⟨?_, ?_, ?_⟩
    · exact hvalid ("interval_seconds", .integer args.interval.toNat) (by simp [InitArgs.block])
    · exact hvalid ("client_id", .basic client_id) (by simp [InitArgs.block])
    · intro key hkey
      exact hvalid ("server_encryption_key", .basic key) (by simp [InitArgs.block, hkey])
  · intro hcond line hline
    obtain ⟨hinterval, hid, hkey⟩ := hcond
    simp only [InitArgs.section, InitArgs.block, List.mem_cons, mem_optional_line,
      Option.map_eq_some_iff] at hline
    rcases hline with rfl | rfl | rfl | rfl | rfl | rfl | rfl | rfl | rfl | ⟨-, key, hsome, hv⟩
    · exact hid
    · exact (addr_plain hwrites.addr).2.2
    · exact (token_plain hwrites.server_id.1).2.2
    · exact hinterval
    · exact (private_key_plain _).2
    · show 500 < 2 ^ 63
      decide
    · show 4000 < 2 ^ 63
      decide
    · show 3 < 2 ^ 63
      decide
    · trivial
    · rw [← hv]
      exact hkey key hsome

/-- The section that `init` writes, as it is read. -/
def InitArgs.client (args : InitArgs) (h : CliHost) (client_id server_addr : Str) :
    ClientSection where
  client_id := client_id
  server_addr := server_addr
  server_id := args.server_id
  interval_seconds := args.interval
  private_key := base64 h.seed.val
  challenge_timeout_seconds := 5
  retry_initial_ms := 500
  retry_max_ms := 4000
  retries := 3
  state_file := none
  param_command := none
  param_command_timeout_seconds := 5
  param_max_len := 256
  server_encryption_key := args.server_key
  wire_encryption := !args.no_encryption
  bye_on_shutdown := true
  servers := ∅

theorem InitArgs.client_from_toml (args : InitArgs) (h : CliHost) (client_id server_addr : Str) :
    ClientSection.from_toml (.table (args.block h client_id server_addr).entries) =
      some (args.client h client_id server_addr) := by
  have hkeys := args.block_keys h client_id server_addr
  -- a field that is not written takes its default
  have hnone (key : String) (hkey : key ∉ ["client_id", "server_addr", "server_id",
      "interval_seconds", "private_key", "retry_initial_ms", "retry_max_ms", "retries",
      "wire_encryption", "server_encryption_key"]) :
      (args.block h client_id server_addr).entries.lookup key.toList = none := by
    rw [Block.lookup_entries, Block.lookup_absent hkeys hkey]
    rfl
  have hread (key : String) (v : Scalar)
      (hlookup : (args.block h client_id server_addr).lines.lookup key = some v) :
      (args.block h client_id server_addr).entries.lookup key.toList = some v.value := by
    rw [Block.lookup_entries, hlookup]
    rfl
  have hkey : omittable Value.as_string (args.block h client_id server_addr).entries
      "server_encryption_key" = some args.server_key := by
    apply omittable_of_lookup (f := .string) ?_ fun _ => rfl
    rw [Block.lookup_entries]
    show ((optional_line "server_encryption_key" _).lookup "server_encryption_key").map
      Scalar.value = _
    rw [lookup_optional_line_self, Option.map_map]
    rfl
  -- no field of the block is unknown
  have hall : ∀ key ∈ (args.block h client_id server_addr).lines.map Prod.fst,
      key ∈ ClientSection.fields := by
    have hfields : ∀ key ∈ ["client_id", "server_addr", "server_id", "interval_seconds",
        "private_key", "retry_initial_ms", "retry_max_ms", "retries", "wire_encryption",
        "server_encryption_key"], key ∈ ClientSection.fields := by decide
    intro key hline
    exact hfields key (hkeys.subset hline)
  have hsection : ClientSection.from_fields (args.block h client_id server_addr).entries =
      some (args.client h client_id server_addr) := by
    unfold ClientSection.from_fields
    rw [required_of_lookup (hread "client_id" _ rfl),
      required_of_lookup (hread "server_addr" _ rfl),
      required_of_lookup (hread "server_id" _ rfl),
      defaulted_of_lookup (hread "interval_seconds" _ rfl),
      required_of_lookup (hread "private_key" _ rfl),
      defaulted_absent (hnone "challenge_timeout_seconds" (by decide)),
      defaulted_of_lookup (hread "retry_initial_ms" _ rfl),
      defaulted_of_lookup (hread "retry_max_ms" _ rfl),
      defaulted_of_lookup (hread "retries" _ rfl),
      omittable_absent (hnone "state_file" (by decide)),
      omittable_absent (hnone "param_command" (by decide)),
      defaulted_absent (hnone "param_command_timeout_seconds" (by decide)),
      defaulted_absent (hnone "param_max_len" (by decide)),
      hkey,
      defaulted_of_lookup (hread "wire_encryption" _ rfl),
      defaulted_absent (hnone "bye_on_shutdown" (by decide))]
    simp only [Scalar.value, Value.as_u64_integer]
    rfl
  rw [ClientSection.from_toml_eq_some]
  exact ⟨_, _, _, Block.as_struct hall, hsection,
    defaulted_absent (hnone "servers" (by decide)), rfl⟩

/-- The document of the new file is the one section. -/
theorem InitArgs.append_section {args : InitArgs} {h : CliHost} {client_id : Str}
    (hvalid : ∀ line ∈ (args.section h client_id).lines, line.2.Valid) :
    (args.section h client_id).append [] =
      some [("client".toList, .table (args.section h client_id).entries)] := by
  unfold Block.append
  rw [if_pos hvalid]
  rfl

theorem InitArgs.config_from_toml (args : InitArgs) (h : CliHost) (client_id : Str) :
    ClientConfig.from_toml [("client".toList, .table (args.section h client_id).entries)] =
      some ⟨args.client h client_id (normalize_addr h.socket_addr args.server)⟩ := by
  have hclient := args.client_from_toml h client_id (normalize_addr h.socket_addr args.server)
  rw [ClientConfig.from_toml_eq_some]
  refine ⟨_, rfl, ?_⟩
  rw [required_of_lookup (show _ = some (.table (args.section h client_id).entries) from rfl)]
  exact hclient

/-- The section passes the checks of `load` iff its interval is not zero. -/
theorem InitWrites.accepted_iff (hwrites : InitWrites h args file client_id) :
    ClientConfig.Accepted ⟨args.client h client_id (normalize_addr h.socket_addr args.server)⟩ ↔
      args.interval ≠ 0 := by
  constructor
  · intro haccepted
    exact haccepted.interval
  · intro hinterval
    refine ⟨hinterval, hwrites.id_reads.1, ?_, by simp [InitArgs.client]⟩
    have hneeds : (!args.no_encryption && args.server_key.isNone) = false := by
      cases hkey : args.server_key with
      | none => simp [hwrites.server_id.2 hkey]
      | some key => simp
    unfold ClientSection.checks InitArgs.client
    simp only [List.mem_cons, List.not_mem_nil, or_false, forall_eq_or_imp, forall_eq]
    refine ⟨?_, rfl, rfl, rfl, rfl, rfl⟩
    simpa using hneeds

/-- Where the key of the server has nothing to escape, the command is safe iff the file that it
    writes is a configuration. -/
theorem init_safe (hkey : ∀ key, args.server_key = some key → Toml.Unescaped key)
    (hcomment : h.parse init_comment = some [])
    (htoml : ∀ client_id, args.id h = some (.ok client_id) →
      Appends h.parse init_comment 1 (args.section h client_id)) :
    InitSafe h args file ↔
      ((∃ client_id, InitWrites h args file client_id) → args.Loads) := by
  by_cases hreached : ∃ client_id, InitWrites h args file client_id
  swap
  · constructor
    · intro _ hwrites
      exact absurd hwrites hreached
    · intro _
      unfold InitSafe
      split
      · rename_i hrun
        exact absurd (init_ok hrun) hreached
      · trivial
  obtain ⟨client_id, hwrites⟩ := hreached
  have hsafe : InitSafe h args file ↔ ∃ cfg, ClientConfig.load_file h.parse
      (some (init_comment ++ '\n' :: (args.section h client_id).text)) = some (.ok cfg) := by
    unfold InitSafe
    rw [init_written hwrites]
  -- the comment is no part of the document
  have hparse : h.parse (init_comment ++ '\n' :: (args.section h client_id).text) =
      (args.section h client_id).append [] := by
    have happends := htoml client_id hwrites.client_id [] hcomment (by decide) (hwrites.clean hkey)
      fun _ => rfl
    rw [← happends, List.append_assoc]
    rfl
  rw [hsafe]
  constructor
  · intro ⟨cfg, hload⟩ _
    obtain ⟨doc, hdoc, hcfg, haccepted⟩ := ClientConfig.load_file_ok.mp hload
    rw [hparse] at hdoc
    -- what has been parsed was valid TOML
    have hvalid : ∀ line ∈ (args.section h client_id).lines, line.2.Valid := by
      by_contra hinvalid
      unfold Block.append at hdoc
      rw [if_neg hinvalid] at hdoc
      cases hdoc
    obtain ⟨hinterval, hid, hplain⟩ := hwrites.valid_iff.mp hvalid
    have hsection := InitArgs.append_section hvalid
    obtain rfl := Option.some.inj (hdoc.symm.trans hsection)
    obtain rfl := Option.some.inj (hcfg.symm.trans (args.config_from_toml h client_id))
    refine ⟨⟨?_, hinterval⟩, hid, hplain⟩
    by_contra hlt
    exact hwrites.accepted_iff.mp haccepted (UInt64.toNat_inj.mp (by simpa using hlt))
  · intro hcond
    obtain ⟨⟨hpositive, hinterval⟩, hid, hplain⟩ := hcond ⟨client_id, hwrites⟩
    have hvalid := hwrites.valid_iff.mpr ⟨hinterval, hid, hplain⟩
    refine ⟨_, ClientConfig.load_file_ok.mpr
      ⟨_, hparse.trans (InitArgs.append_section hvalid), args.config_from_toml h client_id, ?_⟩⟩
    rw [hwrites.accepted_iff]
    intro hzero
    rw [hzero] at hpositive
    exact absurd hpositive (by decide)

end runs

/-- `add-server` is safe iff, whenever it gets as far as writing the file, there is room for the
    table, the interval is a positive 64-bit integer and a command of the primary finds a key;
    `init`, for a key of the server with nothing to escape, iff, whenever it gets as far, the
    interval is such a number and neither the id nor the key has a control character. -/
theorem config_commands_iff (h h' : CliHost) (args : AddServerArgs) (text : Str)
    (init_args : InitArgs) (file : Option Str) (hb64 : h.keys.Alphabet)
    (htoml : Appends h.parse text (feeds text) (args.table h))
    (hcomment : h'.parse init_comment = some [])
    (hsection : ∀ client_id, init_args.id h' = some (.ok client_id) →
      Appends h'.parse init_comment 1 (init_args.section h' client_id)) :
    (AddServerSafe h args (some text) ↔
      ∀ doc existing, h.parse text = some doc → AddServerWrites h args text existing →
        args.Loads doc existing) ∧
    ((∀ key, init_args.server_key = some key → Toml.Unescaped key) →
      (InitSafe h' init_args file ↔
        ((∃ client_id, InitWrites h' init_args file client_id) → init_args.Loads))) :=
  ⟨add_server_safe hb64 htoml, fun hkey => init_safe hkey hcomment hsection⟩

/-! ### A sample file -/

/-- One server, and a parameter command. -/
@[irreducible] def sample_file : Str :=
  "[client]\nclient_id = \"".toList ++ padded_id ['0', 'f'] ++
  "\"\nserver_addr = \"203.0.113.10:7370\"\nserver_id = \"signedpulse-main\"\n".toList ++
  "private_key = \"".toList ++ zero_key ++
  "\"\nparam_command = [\"/bin/hostname\"]\nserver_encryption_key = \"".toList ++ zero_key ++
  "\"\n".toList

def sample_entries : Entries :=
  [("client_id".toList, .string (padded_id ['0', 'f'])),
    ("server_addr".toList, .string "203.0.113.10:7370".toList),
    ("server_id".toList, .string "signedpulse-main".toList),
    ("private_key".toList, .string zero_key),
    ("param_command".toList, .array [.string "/bin/hostname".toList]),
    ("server_encryption_key".toList, .string zero_key)]

def sample_document : Entries := [("client".toList, .table sample_entries)]

def sample_client : ClientConfig where
  client :=
    { (two_servers 5).client with
      param_command := some ["/bin/hostname".toList]
      servers := ∅ }

theorem sample_from_toml : ClientConfig.from_toml sample_document = some sample_client := by
  rfl

theorem sample_accepted : sample_client.Accepted where
  interval := by decide
  client_id := reads_of_hexdigits ⟨by decide +kernel, by decide +kernel⟩
  primary := by
    have hchecks : sample_client.client.checks.all (fun x => !x.1) = true := by decide +kernel
    intro x hx
    simpa using List.all_eq_true.mp hchecks x hx
  servers := by simp [sample_client]

/-- No text is an address with a port, so a port is added wherever there is no colon. -/
def sample_host (text : Str) (doc : Entries) (feeds : Nat) (b : Block) : CliHost where
  parse := reader text doc feeds b
  keys := sample_keys
  socket_addr _ := none
  writes := true
  nonce := ClientId.bytes (Server.sample_id 7)
  seed := ClientId.bytes (Server.sample_id 9)

def sample_add (server_key : Option Str) (interval : UInt64) : AddServerArgs where
  name := "backup".toList
  server := "203.0.113.20".toList
  server_key := server_key
  server_id := none
  interval := some interval
  no_encryption := true

def sample_addr : Str := "203.0.113.20:7370".toList

/-- Reads the sample file, and it with the table of these arguments. -/
def add_host (args : AddServerArgs) : CliHost :=
  sample_host sample_file sample_document 1 (args.block sample_addr)

def sample_init (interval : UInt64) : InitArgs where
  server := "203.0.113.20".toList
  server_key := none
  client_id := none
  label := none
  server_id := "signedpulse-main".toList
  interval := interval
  no_encryption := true
  force := false

/-- Reads what `init` writes for these arguments. -/
def init_host (args : InitArgs) : CliHost :=
  sample_host init_comment [] 1
    (args.block (sample_host [] [] 0 ⟨false, [], []⟩) (ClientId.to_hex (Server.sample_id 7))
      sample_addr)

theorem add_host_parse (args : AddServerArgs) :
    (add_host args).parse sample_file = some sample_document := by
  unfold add_host sample_host
  dsimp only
  exact reader_text _ _ _ _

theorem add_host_appends (server_key : Option Str) (interval : UInt64) :
    Appends (add_host (sample_add server_key interval)).parse sample_file (feeds sample_file)
      ((sample_add server_key interval).table (add_host (sample_add server_key interval))) := by
  have hfeeds : feeds sample_file = 1 := by decide +kernel
  rw [hfeeds]
  exact reader_appends _ _ _ _

theorem add_host_writes {server_key : Option Str} (interval : UInt64)
    (hkey : validate_server_key sample_keys server_key = .ok ()) :
    AddServerWrites (add_host (sample_add server_key interval)) (sample_add server_key interval)
      sample_file sample_client := by
  refine ⟨ClientConfig.load_file_ok.mpr
    ⟨sample_document, add_host_parse _, sample_from_toml, sample_accepted⟩, ?_, rfl⟩
  exact
    { name := rfl
      primary := show "backup".toList ≠ "signedpulse-main".toList by decide
      fresh := AList.notMem_empty _
      server_id := rfl
      encrypted := fun _ => rfl
      server_key := hkey
      addr := rfl }

theorem init_host_writes (interval : UInt64) :
    InitWrites (init_host (sample_init interval)) (sample_init interval) none
      (ClientId.to_hex (Server.sample_id 7)) where
  checks := rfl
  client_id := rfl
  addr := rfl
  writes := rfl

theorem init_host_parse (args : InitArgs) : (init_host args).parse init_comment = some [] := by
  unfold init_host sample_host
  dsimp only
  exact reader_text _ _ _ _

theorem init_host_appends (interval : UInt64) (client_id : Str)
    (hid : (sample_init interval).id (init_host (sample_init interval)) =
      some (.ok client_id)) :
    Appends (init_host (sample_init interval)).parse init_comment 1
      ((sample_init interval).section (init_host (sample_init interval)) client_id) := by
  obtain rfl := Except.ok.inj (Option.some.inj hid)
  exact reader_appends _ _ _ _

theorem config_commands_iff_plain :
    (AddServerSafe (add_host (sample_add (some zero_key) 60)) (sample_add (some zero_key) 60)
        (some sample_file) ↔
      ∀ doc existing, (add_host (sample_add (some zero_key) 60)).parse sample_file = some doc →
        AddServerWrites (add_host (sample_add (some zero_key) 60)) (sample_add (some zero_key) 60)
          sample_file existing →
        (sample_add (some zero_key) 60).Loads doc existing) ∧
    ((∀ key, (sample_init 300).server_key = some key → Toml.Unescaped key) →
      (InitSafe (init_host (sample_init 300)) (sample_init 300) none ↔
        ((∃ client_id, InitWrites (init_host (sample_init 300)) (sample_init 300) none client_id) →
          (sample_init 300).Loads))) :=
  config_commands_iff (add_host (sample_add (some zero_key) 60)) (init_host (sample_init 300))
    (sample_add (some zero_key) 60) sample_file (sample_init 300) none sample_keys_alphabet
    (add_host_appends _ _) (init_host_parse _) (init_host_appends 300)

/-- An interval of zero is written and rejected, a server without a key is added below a parameter
    command and rejected, and `init` writes an interval of zero and reports success. -/
theorem rejected_after_writing :
    ¬ AddServerSafe (add_host (sample_add (some zero_key) 0)) (sample_add (some zero_key) 0)
      (some sample_file) ∧
    ¬ AddServerSafe (add_host (sample_add none 60)) (sample_add none 60) (some sample_file) ∧
    ¬ InitSafe (init_host (sample_init 0)) (sample_init 0) none := by
  refine ⟨?_, ?_, ?_⟩
  · intro hsafe
    have hloads := (add_server_safe_of_writes (add_host_writes 0 rfl) (add_host_parse _)
      sample_keys_alphabet (add_host_appends _ _)).mp hsafe
    exact absurd (hloads.interval 0 rfl).1 (by decide)
  · intro hsafe
    have hloads := (add_server_safe_of_writes (add_host_writes 60 rfl) (add_host_parse _)
      sample_keys_alphabet (add_host_appends _ _)).mp hsafe
    exact absurd (hloads.server_key rfl) (by decide)
  · intro hsafe
    have hkey : ∀ key, (sample_init 0).server_key = some key → Toml.Unescaped key := by
      intro key hkey
      cases hkey
    have hiff : InitSafe (init_host (sample_init 0)) (sample_init 0) none ↔ _ :=
      init_safe hkey (init_host_parse _) (init_host_appends 0)
    have hloads := hiff.mp hsafe ⟨_, init_host_writes 0⟩
    exact absurd hloads.interval.1 (by decide)

end Client

end SignedPulse
