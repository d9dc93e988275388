import SignedPulse.Framework.Toml
import SignedPulse.Server.Config

/-! # The server's configuration file

    `load` reads the file, parses it as TOML, takes the sections out of the
    document and validates them. The commands that extend the file put a block
    at the end of its text and write all of it again.

    The parser is a parameter. `from_toml_push` says what one more
    `[[clients]]` block is in the sections.
-/

namespace SignedPulse

namespace Config

open Toml

/-! ### Sections -/

def WireEncryption.from_toml : Value → Option WireEncryption :=
  Value.as_unit_variant fun name =>
    if name = "required".toList then some .Required
    else if name = "off".toList then some .Off
    else none

def ServerSection.fields : List String :=
  ["bind", "server_id", "nonce_ttl_seconds", "command_timeout_seconds", "client_cooldown_seconds",
    "max_packet_size", "hello_rate_max", "hello_rate_window_seconds", "hello_max_skew_seconds",
    "state_file", "encryption_private_key", "max_param_len", "wire_encryption",
    "max_faulty_packets", "blacklist_seconds", "attack_blacklist_threshold",
    "attack_window_seconds", "attack_rejection_threshold", "active_ip_ttl_seconds",
    "max_inflight_packets", "max_tracked_ips", "lease_grace_multiplier", "lease_max_seconds"]

def ServerSection.from_toml (v : Value) : Option ServerSection := do
  let es ← v.as_struct ServerSection.fields
  let bind ← required Value.as_string es "bind"
  let server_id ← required Value.as_string es "server_id"
  let nonce_ttl_seconds ← defaulted Value.as_u64 es "nonce_ttl_seconds" 30
  let command_timeout_seconds ← defaulted Value.as_u64 es "command_timeout_seconds" 10
  let client_cooldown_seconds ← defaulted Value.as_u64 es "client_cooldown_seconds" 0
  let max_packet_size ← defaulted Value.as_usize es "max_packet_size" 2048
  let hello_rate_max ← defaulted Value.as_u32 es "hello_rate_max" 30
  let hello_rate_window_seconds ← defaulted Value.as_u64 es "hello_rate_window_seconds" 60
  let hello_max_skew_seconds ← defaulted Value.as_u64 es "hello_max_skew_seconds" 30
  let state_file ← omittable Value.as_string es "state_file"
  let encryption_private_key ← omittable Value.as_string es "encryption_private_key"
  let max_param_len ← defaulted Value.as_usize es "max_param_len" 256
  let wire_encryption ← defaulted WireEncryption.from_toml es "wire_encryption" .Required
  let max_faulty_packets ← defaulted Value.as_u32 es "max_faulty_packets" 10
  let blacklist_seconds ← defaulted Value.as_u64 es "blacklist_seconds" 300
  let attack_blacklist_threshold ← defaulted Value.as_u32 es "attack_blacklist_threshold" 10
  let attack_window_seconds ← defaulted Value.as_u64 es "attack_window_seconds" 10
  let attack_rejection_threshold ← defaulted Value.as_u32 es "attack_rejection_threshold" 256
  let active_ip_ttl_seconds ← defaulted Value.as_u64 es "active_ip_ttl_seconds" 900
  let max_inflight_packets ← defaulted Value.as_usize es "max_inflight_packets" 1024
  let max_tracked_ips ← defaulted Value.as_usize es "max_tracked_ips" 100000
  let lease_grace_multiplier ← defaulted Value.as_u32 es "lease_grace_multiplier" 3
  let lease_max_seconds ← defaulted Value.as_u64 es "lease_max_seconds" 86400
  return {
    bind := bind
    server_id := server_id
    nonce_ttl_seconds := nonce_ttl_seconds
    command_timeout_seconds := command_timeout_seconds
    client_cooldown_seconds := client_cooldown_seconds
    max_packet_size := max_packet_size
    hello_rate_max := hello_rate_max
    hello_rate_window_seconds := hello_rate_window_seconds
    hello_max_skew_seconds := hello_max_skew_seconds
    state_file := state_file
    encryption_private_key := encryption_private_key
    max_param_len := max_param_len
    wire_encryption := wire_encryption
    max_faulty_packets := max_faulty_packets
    blacklist_seconds := blacklist_seconds
    attack_blacklist_threshold := attack_blacklist_threshold
    attack_window_seconds := attack_window_seconds
    attack_rejection_threshold := attack_rejection_threshold
    active_ip_ttl_seconds := active_ip_ttl_seconds
    max_inflight_packets := max_inflight_packets
    max_tracked_ips := max_tracked_ips
    lease_grace_multiplier := lease_grace_multiplier
    lease_max_seconds := lease_max_seconds }

def CommandSection.fields : List String :=
  ["argv", "revoke_argv", "working_dir", "max_concurrent", "allow_shell"]

def CommandSection.from_toml (v : Value) : Option CommandSection := do
  let es ← v.as_struct CommandSection.fields
  let argv ← required (Value.as_vec Value.as_string) es "argv"
  let revoke_argv ← omittable (Value.as_vec Value.as_string) es "revoke_argv"
  let working_dir ← omittable Value.as_string es "working_dir"
  let max_concurrent ← defaulted Value.as_usize es "max_concurrent" 4
  let allow_shell ← defaulted Value.as_bool es "allow_shell" false
  return {
    argv := argv
    revoke_argv := revoke_argv
    working_dir := working_dir
    max_concurrent := max_concurrent
    allow_shell := allow_shell }

def ClientEntry.fields : List String := ["client_id", "public_key", "label"]

def ClientEntry.from_toml (v : Value) : Option ClientEntry := do
  let es ← v.as_struct ClientEntry.fields
  let client_id ← required Value.as_string es "client_id"
  let public_key ← required Value.as_string es "public_key"
  let label ← omittable Value.as_string es "label"
  return { client_id := client_id, public_key := public_key, label := label }

def ServerConfig.fields : List String := ["server", "command", "clients"]

def ServerConfig.from_toml (doc : Entries) : Option ServerConfig := do
  let es ← (Value.table doc).as_struct ServerConfig.fields
  let server ← required ServerSection.from_toml es "server"
  let command ← required CommandSection.from_toml es "command"
  let clients ← defaulted (Value.as_vec ClientEntry.from_toml) es "clients" []
  return { server := server, command := command, clients := clients }

/-! ### Files -/

/-- Why a file is not loaded. -/
inductive LoadError where
  /-- `failed to read config file {path}: {source}` -/
  | Read
  /-- `failed to parse config file {path}: {source}` -/
  | Parse
  | Validation (e : ConfigError)
  deriving DecidableEq

/-- `none` is a panic of `from_hex`. -/
def ServerConfig.load (parse : Str → Option Entries) :
    (file : Option Str) → Option (Except LoadError ServerConfig)
  | none => some (.error .Read)
  | some text =>
    match (parse text).bind ServerConfig.from_toml with
    | none => some (.error .Parse)
    | some cfg =>
      match cfg.validate with
      | none => none
      | some (.error e) => some (.error (.Validation e))
      | some (.ok ()) => some (.ok cfg)

theorem ServerConfig.load_ok {parse : Str → Option Entries} {text : Str} {cfg : ServerConfig} :
    ServerConfig.load parse (some text) = some (.ok cfg) ↔
      ∃ doc, parse text = some doc ∧ ServerConfig.from_toml doc = some cfg ∧
        cfg.validate = some (.ok ()) := by
  unfold ServerConfig.load
  dsimp only
  constructor
  · intro h
    split at h
    · cases h
    rename_i cfg' hsections
    obtain ⟨doc, hdoc, hcfg⟩ := Option.bind_eq_some_iff.mp hsections
    split at h
    · cases h
    · cases h
    · rename_i hvalid
      obtain rfl := Except.ok.inj (Option.some.inj h)
      exact ⟨doc, hdoc, hcfg, hvalid⟩
  · intro h
    obtain ⟨doc, hdoc, hcfg, hvalid⟩ := h
    rw [hdoc, Option.bind_some, hcfg]
    dsimp only
    rw [hvalid]

/-- The text with a block at its end, and an empty line between them. -/
def append_block (text : Str) (b : Block) : Str :=
  let text := if text.getLast? = some '\n' then text else text ++ ['\n']
  text ++ '\n' :: b.text

/-- How many line feeds come before the block. -/
def feeds (text : Str) : Nat := if text.getLast? = some '\n' then 1 else 2

theorem one_le_feeds (text : Str) : 1 ≤ feeds text := by
  unfold feeds
  split <;> omega

theorem append_block_eq (text : Str) (b : Block) :
    append_block text b = text ++ List.replicate (feeds text) '\n' ++ b.text := by
  unfold append_block feeds
  by_cases h : text.getLast? = some '\n'
  · simp [h]
  · simp [h, List.replicate]

theorem append_block_ne (text : Str) (b : Block) : append_block text b ≠ text := by
  intro h
  have hlength := congrArg List.length h
  have hfeeds := one_le_feeds text
  rw [append_block_eq, List.length_append, List.length_append, List.length_replicate] at hlength
  omega

/-- The whole file is replaced at once, or it is left as it is. -/
def write_config_file (writes : Bool) (file : Option Str) (contents : Str) : Bool × Option Str :=
  if writes then (true, some contents) else (false, file)

/-- Only texts of base64 digits and padding are decoded. -/
def KeyDecoding.Alphabet (k : KeyDecoding) : Prop :=
  ∀ s bytes, k.decode s = some bytes →
    ∀ c ∈ s, c.isAlphanum = true ∨ c = '+' ∨ c = '/' ∨ c = '='

theorem KeyDecoding.Alphabet.plain {k : KeyDecoding} (hb64 : k.Alphabet) {s : Str} {bytes : Bytes}
    (h : k.decode s = some bytes) : Toml.Unescaped s ∧ Plain s := by
  apply plain_unescaped
  intro c hc
  rcases hb64 s bytes h c hc with halnum | rfl | rfl | rfl
  · exact plain_of_alphanum halnum
  all_goals decide

theorem sample_keys_alphabet : KeyDecoding.Alphabet sample_keys := by
  intro s bytes h c hc
  have hs : s = zero_key := by
    by_contra hne
    rw [show sample_keys.decode s = none from if_neg hne] at h
    cases h
  rw [hs] at hc
  rcases List.mem_append.mp hc with hdigit | hpad
  · rw [List.eq_of_mem_replicate hdigit]
    exact .inl rfl
  · exact .inr (.inr (.inr (List.mem_singleton.mp hpad)))

/-! ### One more client -/

/-- There are no clients, or they are written as `[[clients]]` blocks. -/
def OpenClients (doc : Entries) : Prop :=
  doc.lookup "clients".toList = none ∨
    ∃ tables, doc.lookup "clients".toList = some (.table_array tables)

theorem ServerConfig.from_toml_eq_some {doc : Entries} {cfg : ServerConfig} :
    ServerConfig.from_toml doc = some cfg ↔
      ∃ es, (Value.table doc).as_struct ServerConfig.fields = some es ∧
        required ServerSection.from_toml es "server" = some cfg.server ∧
        required CommandSection.from_toml es "command" = some cfg.command ∧
        defaulted (Value.as_vec ClientEntry.from_toml) es "clients" [] = some cfg.clients := by
  unfold ServerConfig.from_toml
  simp only [Option.bind_eq_bind, Option.bind_eq_some_iff, Option.pure_def, Option.some.injEq]
  constructor
  · intro h
    obtain ⟨es, hes, server, hserver, command, hcommand, clients, hclients, rfl⟩ := h
    exact ⟨es, hes, hserver, hcommand, hclients⟩
  · intro h
    obtain ⟨es, hes, hserver, hcommand, hclients⟩ := h
    exact ⟨es, hes, _, hserver, _, hcommand, _, hclients, rfl⟩

section push
variable {doc : Entries} {cfg : ServerConfig} {b : Block}

/-- The document with one more `[[clients]]` block has that client at the end. -/
theorem from_toml_push (hcfg : ServerConfig.from_toml doc = some cfg) (hopen : OpenClients doc)
    (helement : b.element = true) (hpath : b.path = ["clients".toList])
    (hvalid : ∀ line ∈ b.lines, line.2.Valid) {entry : ClientEntry}
    (hentry : ClientEntry.from_toml (.table b.entries) = some entry) :
    ∃ doc', b.append doc = some doc' ∧
      ServerConfig.from_toml doc' = some { cfg with clients := cfg.clients ++ [entry] } := by
  obtain ⟨es, hes, hserver, hcommand, hclients⟩ := ServerConfig.from_toml_eq_some.mp hcfg
  have hpush : ∃ doc', push_table b.entries "clients".toList doc = some doc' := by
    unfold push_table
    rcases hopen with hnone | ⟨tables, hsome⟩
    · exact ⟨_, by rw [hnone]⟩
    · exact ⟨_, by rw [hsome]⟩
  obtain ⟨doc', hdoc'⟩ := hpush
  refine ⟨doc', ?_, ServerConfig.from_toml_eq_some.mpr ⟨doc', ?_⟩⟩
  · unfold Block.append
    rw [if_pos hvalid, hpath, if_pos helement]
    exact hdoc'
  obtain ⟨tables, htables, hupdated⟩ := push_table_updated hdoc'
  obtain ⟨rfl, hes'⟩ := hupdated.as_struct (by decide) hes
  refine ⟨hes', ?_, ?_, ?_⟩
  · rw [← hserver]
    unfold required
    rw [hupdated.others _ (by decide)]
  · rw [← hcommand]
    unfold required
    rw [hupdated.others _ (by decide)]
  · -- the tables so far are the clients so far, and the new one comes last
    have hbefore : tables.mapM (fun t => ClientEntry.from_toml (.table t)) = some cfg.clients := by
      unfold defaulted at hclients
      rcases htables with ⟨hnone, rfl⟩ | hsome
      · rw [hnone] at hclients
        exact hclients
      · rw [hsome] at hclients
        exact hclients
    unfold defaulted
    rw [hupdated.self]
    show (tables ++ [b.entries]).mapM (fun t => ClientEntry.from_toml (.table t)) = _
    rw [List.mapM_append, hbefore]
    simp [hentry]

/-- Nothing can be added to clients in a static array. -/
theorem append_closed (hclosed : ¬ OpenClients doc) (helement : b.element = true)
    (hpath : b.path = ["clients".toList]) : b.append doc = none := by
  unfold Block.append
  rw [hpath, if_pos helement, ite_eq_right_iff]
  intro _
  show push_table b.entries "clients".toList doc = none
  unfold push_table
  split
  · rename_i hnone
    exact absurd (.inl hnone) hclosed
  · rename_i tables hsome
    exact absurd (.inr ⟨tables, hsome⟩) hclosed
  · rfl

end push

end Config

end SignedPulse
