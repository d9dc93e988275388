import SignedPulse.Protocol.ClientIdReading
import SignedPulse.Server.AddrText
import SignedPulse.Server.ConfigFile
import SignedPulse.Server.Handlers

/-! # Authorising a client

    `add-client` loads the configuration, checks its arguments, puts a
    `[[clients]]` block at the end of the file and loads the file once more.

    The file is replaced before it is loaded again, so a block that is rejected
    then stays in it. `add_client_safe_iff` says when that cannot happen, and
    when the new client is one that was not authorised before.
-/

namespace SignedPulse

open Config Toml

/-- The default UDP port, of the server and of its clients. -/
def DEFAULT_PORT : UInt16 := 7370

namespace Server

/-- What the command has from outside: the TOML parser, the key decoders, and whether a file can be
    written. -/
structure CliHost where
  parse : Str → Option Entries
  keys : KeyDecoding
  writes : Bool

structure AddClientArgs where
  client_id : Str
  public_key : Str
  label : Option Str

inductive AddClientError where
  /-- `cannot load {path} ({e}); run signedpulse-server init first` -/
  | CannotLoad (e : LoadError)
  | Bail (text : String)
  /-- `invalid --public-key: {e}` -/
  | PublicKey (e : KeyError)
  /-- `client_id {:?} is already authorized` -/
  | AlreadyAuthorized (client_id : Str)
  | Io
  | Reload (e : LoadError)
  deriving DecidableEq

/-- `str::eq_ignore_ascii_case`. -/
def eq_ignore_ascii_case (s t : Str) : Bool := s.map Char.toLower = t.map Char.toLower

/-- The checks before the file is touched. `none` is a panic of `from_hex`. -/
def add_client_checks (k : KeyDecoding) (existing : Config.ServerConfig) (args : AddClientArgs) :
    Option (Except AddClientError Unit) :=
  match ClientId.from_hex args.client_id with
  | none => none
  | some (.error _) =>
    some (.error (.Bail "--client-id must be 64 hex characters (256 bits)"))
  | some (.ok _) =>
    match k.load_verifying_key args.public_key with
    | .error e => some (.error (.PublicKey e))
    | .ok _ =>
      if args.label.any (fun label =>
          label.any (fun c => c = '"' || c = '\\' || is_control c)) then
        some (.error (.Bail
          "--label must not contain quotes, backslashes, or control characters"))
      else if existing.clients.any (fun c =>
          eq_ignore_ascii_case c.client_id args.client_id) then
        some (.error (.AlreadyAuthorized args.client_id))
      else some (.ok ())

/-- The block that is added. The id is written as it was given. -/
def AddClientArgs.block (args : AddClientArgs) : Block where
  element := true
  path := ["clients".toList]
  lines := ("client_id", .basic args.client_id) :: ("public_key", .basic args.public_key) ::
    optional_line "label" (args.label.map .basic)

/-- What the command returns, and the file after it. -/
def add_client (h : CliHost) (args : AddClientArgs) (file : Option Str) :
    Option (Except AddClientError Unit) × Option Str :=
  match Config.ServerConfig.load h.parse file with
  | none => (none, file)
  | some (.error e) => (some (.error (.CannotLoad e)), file)
  | some (.ok existing) =>
    match add_client_checks h.keys existing args with
    | none => (none, file)
    | some (.error e) => (some (.error e), file)
    | some (.ok ()) =>
      match file with
      | none => (some (.error .Io), file)
      | some text =>
        match write_config_file h.writes file (append_block text args.block) with
        | (false, file) => (some (.error .Io), file)
        | (true, file) =>
          -- the file has been replaced by now
          match Config.ServerConfig.load h.parse file with
          | none => (none, file)
          | some (.error e) => (some (.error (.Reload e)), file)
          | some (.ok _) => (some (.ok ()), file)

/-- The `--server` value that `init` prints. The port is left out when the client fills it in. -/
def host_with_port (ip : IpAddr) (port : UInt16) : Str :=
  if port = DEFAULT_PORT then ip.to_string
  else if ip.is_ipv6 then '[' :: (ip.to_string ++ (']' :: ':' :: decimal port.toNat))
  else ip.to_string ++ ':' :: decimal port.toNat

/-! ### What the command is for -/

/-- The client that was asked for. -/
def AddClientArgs.entry (args : AddClientArgs) : ClientEntry where
  client_id := args.client_id
  public_key := args.public_key
  label := args.label

/-- Either the file is as it was, or the command succeeds and the configuration has this client
    after those before, and with an id that none of those has. -/
def AddClientSafe (h : CliHost) (args : AddClientArgs) (file : Option Str) : Prop :=
  match add_client h args file with
  | (some (.ok ()), after) =>
    ∃ existing updated, Config.ServerConfig.load h.parse file = some (.ok existing) ∧
      Config.ServerConfig.load h.parse after = some (.ok updated) ∧
      updated = { existing with clients := existing.clients ++ [args.entry] } ∧
      ∀ c ∈ existing.clients, c.id ≠ args.entry.id
  | (_, after) => after = file

/-- The arguments pass the checks. -/
structure AddClientArgs.Checked (args : AddClientArgs) (k : KeyDecoding)
    (existing : Config.ServerConfig) : Prop where
  client_id : ∃ id, ClientId.from_hex args.client_id = some (.ok id)
  public_key : ∃ key, k.load_verifying_key args.public_key = .ok key
  label : ∀ label, args.label = some label → ∀ c ∈ label, c ≠ '"' ∧ c ≠ '\\' ∧ is_control c = false
  unused : ∀ c ∈ existing.clients, eq_ignore_ascii_case c.client_id args.client_id = false

theorem add_client_checks_ok {k : KeyDecoding} {existing : Config.ServerConfig}
    {args : AddClientArgs} :
    add_client_checks k existing args = some (.ok ()) ↔ args.Checked k existing := by
  unfold add_client_checks
  constructor
  · intro h
    -- the checks in their order
    split at h
    · cases h
    · cases h
    rename_i id hid
    split at h
    · cases h
    rename_i key hkey
    split at h
    · cases h
    rename_i hlabel
    split at h
    · cases h
    rename_i hunused
    refine ⟨⟨id, hid⟩, ⟨key, hkey⟩, ?_, ?_⟩
    · intro label hsome c hc
      rw [hsome] at hlabel
      simp only [Option.any_some, List.any_eq_true, not_exists, not_and, Bool.not_eq_true] at hlabel
      have hchar := hlabel c hc
      simp only [Bool.or_eq_false_iff, decide_eq_false_iff_not] at hchar
      exact ⟨hchar.1.1, hchar.1.2, hchar.2⟩
    · intro c hc
      simp only [List.any_eq_true, not_exists, not_and, Bool.not_eq_true] at hunused
      exact hunused c hc
  · intro h
    obtain ⟨⟨id, hid⟩, ⟨key, hkey⟩, hlabel, hunused⟩ := h
    rw [hid, hkey]
    dsimp only
    rw [if_neg, if_neg]
    · simp only [List.any_eq_true, not_exists, not_and, Bool.not_eq_true]
      exact hunused
    · cases hsome : args.label with
      | none => simp
      | some label =>
        simp only [Option.any_some, List.any_eq_true, not_exists, not_and, Bool.not_eq_true]
        intro c hc
        obtain ⟨hquote, hslash, hcontrol⟩ := hlabel label hsome c hc
        simp [hquote, hslash, hcontrol]

/-! ### The block -/

/-- What is trimmed is white space. -/
theorem mem_trim {s : Str} {c : Char} (hc : c ∈ s) : c ∈ trim s ∨ is_whitespace c = true := by
  have hdrop (t : Str) (ht : c ∈ t) : c ∈ t.dropWhile is_whitespace ∨ is_whitespace c = true := by
    rw [← List.takeWhile_append_dropWhile (p := is_whitespace) (l := t), List.mem_append] at ht
    rcases ht with hspace | hrest
    · exact .inr (List.all_eq_true.mp List.all_takeWhile c hspace)
    · exact .inl hrest
  unfold trim
  rw [List.mem_reverse]
  rcases hdrop s hc with hrest | hspace
  · exact hdrop _ (List.mem_reverse.mpr hrest)
  · exact .inr hspace

/-- An id that is read has no quotes and no backslashes. -/
theorem unescaped_of_from_hex {s : Str} {id : ClientId} (h : ClientId.from_hex s = some (.ok id)) :
    Toml.Unescaped s := by
  have hlen : (utf8 (trim s)).length = CLIENT_ID_LEN * 2 := by
    by_contra hlen
    unfold ClientId.from_hex at h
    dsimp only at h
    rw [if_pos hlen] at h
    cases h
  have hpairs : DigitPairs (trim s) := (from_hex_spec hlen).2.mp ⟨id, h⟩
  have hno (c : Char) (hdigit : is_ascii_hexdigit c = false) (hplus : c ≠ '+')
      (hspace : is_whitespace c = false) : c ∉ s := by
    intro hc
    rcases mem_trim hc with htrim | hwhite
    · exact hpairs.notMem hdigit hplus htrim
    · rw [hspace] at hwhite
      cases hwhite
  exact ⟨hno '"' rfl (by decide) rfl, hno '\\' rfl (by decide) rfl⟩

section block
variable {k : KeyDecoding} {existing : Config.ServerConfig} {args : AddClientArgs}

/-- No control character is in a checked label. -/
theorem plain_of_not_control {c : Char} (h : is_control c = false) : plain_char c = true := by
  unfold is_control at h
  unfold plain_char
  simp only [Bool.or_eq_false_iff, Bool.and_eq_false_iff, decide_eq_false_iff_not] at h
  simp only [Bool.or_eq_true, Bool.and_eq_true, decide_eq_true_eq]
  right
  omega

theorem AddClientArgs.Checked.public_key_plain (h : args.Checked k existing)
    (hb64 : k.Alphabet) : Toml.Unescaped args.public_key ∧ Plain args.public_key := by
  obtain ⟨key, hkey⟩ := h.public_key
  unfold KeyDecoding.load_verifying_key at hkey
  split at hkey
  · cases hkey
  · rename_i decoded hdecoded
    exact hb64.plain hdecoded

theorem AddClientArgs.Checked.label_plain (h : args.Checked k existing) {label : Str}
    (hlabel : args.label = some label) : Toml.Unescaped label ∧ Plain label := by
  apply plain_unescaped
  intro c hc
  obtain ⟨hquote, hslash, hcontrol⟩ := h.label label hlabel c hc
  exact ⟨plain_of_not_control hcontrol, hquote, hslash⟩

theorem AddClientArgs.block_keys (args : AddClientArgs) :
    (args.block.lines.map Prod.fst).Sublist ClientEntry.fields :=
  .cons_cons _ (.cons_cons _ (optional_line_keys "label" _))

/-- Checked arguments do not break out of the block. -/
theorem AddClientArgs.Checked.clean (h : args.Checked k existing) (hb64 : k.Alphabet) :
    args.block.Clean where
  path := by
    intro key hkey
    obtain rfl := List.mem_singleton.mp hkey
    decide
  keys := Block.keys_of_sublist args.block_keys (by decide) (by decide)
  values := by
    intro line hline
    obtain ⟨id, hid⟩ := h.client_id
    rcases List.mem_cons.mp hline with rfl | hline
    · exact unescaped_of_from_hex hid
    rcases List.mem_cons.mp hline with rfl | hline
    · exact (h.public_key_plain hb64).1
    · obtain ⟨label, hlabel, hvalue⟩ := Option.map_eq_some_iff.mp (mem_optional_line.mp hline).2
      rw [← hvalue]
      exact (h.label_plain hlabel).1

/-- The id is the one text that need not be valid. -/
theorem AddClientArgs.Checked.valid_iff (h : args.Checked k existing) (hb64 : k.Alphabet) :
    (∀ line ∈ args.block.lines, line.2.Valid) ↔ Plain args.client_id := by
  constructor
  · intro hvalid
    exact hvalid _ List.mem_cons_self
  · intro hplain line hline
    rcases List.mem_cons.mp hline with rfl | hline
    · exact hplain
    rcases List.mem_cons.mp hline with rfl | hline
    · exact (h.public_key_plain hb64).2
    · obtain ⟨label, hlabel, hvalue⟩ := Option.map_eq_some_iff.mp (mem_optional_line.mp hline).2
      rw [← hvalue]
      exact (h.label_plain hlabel).2

/-- The block is read as the client that was asked for. -/
theorem AddClientArgs.entry_from_toml (args : AddClientArgs) :
    ClientEntry.from_toml (.table args.block.entries) = some args.entry := by
  have hid : args.block.entries.lookup "client_id".toList = some (.string args.client_id) := by
    rw [Block.lookup_entries]
    rfl
  have hkey : args.block.entries.lookup "public_key".toList = some (.string args.public_key) := by
    rw [Block.lookup_entries]
    rfl
  have hlabel : args.block.entries.lookup "label".toList = args.label.map .string := by
    rw [Block.lookup_entries]
    show ((optional_line "label" (args.label.map .basic)).lookup "label").map Scalar.value = _
    rw [lookup_optional_line_self, Option.map_map]
    rfl
  unfold ClientEntry.from_toml
  simp only [Block.as_struct args.block_keys.subset, required, omittable, hid, hkey, hlabel,
    Option.bind_eq_bind, Option.bind_some, Value.as_string]
  cases h : args.label <;> simp [AddClientArgs.entry, h]

end block

/-! ### Validating once more -/

/-- One more client is accepted when its id is read and its text is new. -/
theorem validate_clients_snoc {seen : List Str} {clients : List ClientEntry} {c : ClientEntry}
    (h : validate_clients seen clients = some (.ok ())) {id : ClientId}
    (hid : ClientId.from_hex c.client_id = some (.ok id))
    (hseen : to_lowercase c.client_id ∉ seen)
    (hnew : ∀ c' ∈ clients, to_lowercase c.client_id ≠ to_lowercase c'.client_id) :
    validate_clients seen (clients ++ [c]) = some (.ok ()) := by
  induction clients generalizing seen with
  | nil =>
    simp only [List.nil_append, validate_clients, hid]
    rw [if_neg hseen]
  | cons c' clients ih =>
    rw [List.cons_append]
    unfold validate_clients at h ⊢
    split at h
    · cases h
    · cases h
    rename_i id' hid'
    dsimp only at h
    split at h
    · cases h
    rename_i hlower
    dsimp only
    rw [if_neg hlower]
    apply ih h
    · rw [List.mem_cons, not_or]
      exact ⟨hnew c' List.mem_cons_self, hseen⟩
    · intro c'' hc''
      exact hnew c'' (List.mem_cons_of_mem _ hc'')

/-- A checked client never makes an accepted configuration invalid. -/
theorem validate_snoc {k : KeyDecoding} {existing : Config.ServerConfig} {args : AddClientArgs}
    (hvalid : existing.validate = some (.ok ())) (h : args.Checked k existing) :
    Config.ServerConfig.validate { existing with clients := existing.clients ++ [args.entry] } =
      some (.ok ()) := by
  unfold Config.ServerConfig.validate at hvalid ⊢
  split at hvalid
  · cases hvalid
  rename_i hsettings
  split at hvalid
  · cases hvalid
  · cases hvalid
  rename_i hclients
  obtain ⟨id, hid⟩ := h.client_id
  have hnew : ∀ c ∈ existing.clients, to_lowercase args.client_id ≠ to_lowercase c.client_id := by
    intro c hc hsame
    have hunused := h.unused c hc
    unfold eq_ignore_ascii_case at hunused
    exact of_decide_eq_false hunused hsame.symm
  have hsnoc := @validate_clients_snoc [] existing.clients args.entry hclients id hid
    List.not_mem_nil hnew
  rw [show Config.ServerConfig.validate_settings
    { existing with clients := existing.clients ++ [args.entry] } = .ok () from hsettings]
  dsimp only
  rw [hsnoc]
  exact hvalid

/-! ### Runs of the command -/

section runs
variable {h : CliHost} {args : AddClientArgs} {text : Str} {existing : Config.ServerConfig}

/-- The command gets as far as writing the file. -/
def Writes (h : CliHost) (args : AddClientArgs) (text : Str) (existing : Config.ServerConfig) :
    Prop :=
  Config.ServerConfig.load h.parse (some text) = some (.ok existing) ∧
    args.Checked h.keys existing ∧ h.writes = true

/-- Before that point the file is as it was. -/
theorem add_client_untouched (hno : ∀ existing, ¬ Writes h args text existing) :
    ∃ r, add_client h args (some text) = (r, some text) ∧ r ≠ some (.ok ()) := by
  unfold add_client
  split
  · exact ⟨_, rfl, by simp⟩
  · exact ⟨_, rfl, by simp⟩
  rename_i existing hload
  split
  · exact ⟨_, rfl, by simp⟩
  · exact ⟨_, rfl, by simp⟩
  rename_i hchecks
  have hwrites : h.writes = false := by
    by_contra hwrites
    exact hno existing ⟨hload, add_client_checks_ok.mp hchecks,
      Bool.eq_true_of_not_eq_false hwrites⟩
  unfold write_config_file
  rw [hwrites]
  exact ⟨_, rfl, by simp⟩

/-- From there on it returns what loading the new file returns. -/
theorem add_client_written (hwrites : Writes h args text existing) :
    (∀ updated, Config.ServerConfig.load h.parse (some (append_block text args.block)) =
        some (.ok updated) →
      add_client h args (some text) = (some (.ok ()), some (append_block text args.block))) ∧
    ∀ e, Config.ServerConfig.load h.parse (some (append_block text args.block)) =
        some (.error e) →
      add_client h args (some text) =
        (some (.error (.Reload e)), some (append_block text args.block)) := by
  obtain ⟨hload, hchecked, hwrites⟩ := hwrites
  unfold add_client write_config_file
  rw [hload]
  dsimp only
  rw [add_client_checks_ok.mpr hchecked, if_pos hwrites]
  dsimp only
  constructor
  · intro updated hreload
    rw [hreload]
  · intro e hreload
    rw [hreload]

/-- What the new file is loaded as. -/
theorem load_append_block {doc : Entries} (hwrites : Writes h args text existing)
    (hdoc : h.parse text = some doc) (hb64 : h.keys.Alphabet)
    (htoml : Appends h.parse text (feeds text) args.block) :
    (OpenClients doc ∧ Plain args.client_id →
      Config.ServerConfig.load h.parse (some (append_block text args.block)) =
        some (.ok { existing with clients := existing.clients ++ [args.entry] })) ∧
    (¬ (OpenClients doc ∧ Plain args.client_id) →
      Config.ServerConfig.load h.parse (some (append_block text args.block)) =
        some (.error .Parse)) := by
  obtain ⟨hload, hchecked, -⟩ := hwrites
  obtain ⟨doc', hdoc', hcfg, hvalid⟩ := Config.ServerConfig.load_ok.mp hload
  obtain rfl := Option.some.inj (hdoc'.symm.trans hdoc)
  have hparse : h.parse (append_block text args.block) = args.block.append doc' := by
    rw [append_block_eq]
    apply htoml doc' hdoc (one_le_feeds text) (hchecked.clean hb64)
    intro helement
    cases helement
  have hlines := hchecked.valid_iff hb64
  constructor
  · intro ⟨hopen, hplain⟩
    obtain ⟨doc'', happend, hcfg'⟩ := from_toml_push hcfg hopen rfl rfl (hlines.mpr hplain)
      args.entry_from_toml
    exact Config.ServerConfig.load_ok.mpr
      ⟨doc'', hparse.trans happend, hcfg', validate_snoc hvalid hchecked⟩
  · intro hno
    have hnone : args.block.append doc' = none := by
      by_cases hopen : OpenClients doc'
      · -- the id has a character that no basic string may have
        have hplain : ¬ Plain args.client_id := fun hplain => hno ⟨hopen, hplain⟩
        unfold Block.append
        exact if_neg fun hvalid => hplain (hlines.mp hvalid)
      · exact append_closed hopen rfl rfl
    unfold Config.ServerConfig.load
    dsimp only
    rw [hparse, hnone]
    rfl

/-- Once the file is written, the command was safe iff the clients are not in a static array, the id
    has no control characters, and no client before has the same parsed id. -/
theorem safe_iff_of_writes {doc : Entries} (hwrites : Writes h args text existing)
    (hdoc : h.parse text = some doc) (hb64 : h.keys.Alphabet)
    (htoml : Appends h.parse text (feeds text) args.block) :
    AddClientSafe h args (some text) ↔
      OpenClients doc ∧ Plain args.client_id ∧ ∀ c ∈ existing.clients, c.id ≠ args.entry.id := by
  obtain ⟨hok, herror⟩ := add_client_written hwrites
  obtain ⟨hwell, hill⟩ := load_append_block hwrites hdoc hb64 htoml
  by_cases hcond : OpenClients doc ∧ Plain args.client_id
  · -- the new file is loaded, so what is left is that the id is new
    have hreload := hwell hcond
    unfold AddClientSafe
    rw [hok _ hreload]
    dsimp only
    constructor
    · intro hsafe
      obtain ⟨before, updated, hbefore, -, -, hdistinct⟩ := hsafe
      obtain rfl := Except.ok.inj (Option.some.inj (hbefore.symm.trans hwrites.1))
      exact ⟨hcond.1, hcond.2, hdistinct⟩
    · intro hall
      obtain ⟨-, -, hdistinct⟩ := hall
      exact ⟨existing, _, hwrites.1, hreload, rfl, hdistinct⟩
  · -- an error, but the file is another
    unfold AddClientSafe
    rw [herror _ (hill hcond)]
    dsimp only
    constructor
    · intro hsafe
      exact absurd (Option.some.inj hsafe) (append_block_ne text args.block)
    · intro hall
      obtain ⟨hopen, hplain, -⟩ := hall
      exact absurd ⟨hopen, hplain⟩ hcond

end runs

/-- The command is safe iff, whenever it gets as far as writing the file, the clients are not in a
    static array, the id has no control characters, and no client before has the same parsed id. -/
theorem add_client_safe_iff (h : CliHost) (args : AddClientArgs) (text : Str)
    (hb64 : h.keys.Alphabet) (htoml : Appends h.parse text (feeds text) args.block) :
    AddClientSafe h args (some text) ↔
      ∀ doc existing, h.parse text = some doc → Writes h args text existing →
        OpenClients doc ∧ Plain args.client_id ∧
          ∀ c ∈ existing.clients, c.id ≠ args.entry.id := by
  constructor
  · intro hsafe doc existing hdoc hwrites
    exact (safe_iff_of_writes hwrites hdoc hb64 htoml).mp hsafe
  · intro hall
    by_cases hreached : ∃ existing, Writes h args text existing
    · obtain ⟨existing, hwrites⟩ := hreached
      obtain ⟨doc, hdoc, -, -⟩ := Config.ServerConfig.load_ok.mp hwrites.1
      exact (safe_iff_of_writes hwrites hdoc hb64 htoml).mpr (hall doc existing hdoc hwrites)
    · obtain ⟨r, hrun, hr⟩ := add_client_untouched fun existing hwrites =>
        hreached ⟨existing, hwrites⟩
      unfold AddClientSafe
      rw [hrun]
      split
      · rename_i heq
        exact absurd (Prod.mk.inj heq).1 hr
      · rename_i heq
        exact (Prod.mk.inj heq).2.symm

/-! ### A sample file -/

/-- One client, over a cleartext wire. -/
@[irreducible] def sample_file : Str :=
  ("[server]\nbind = \"0.0.0.0:7370\"\nserver_id = \"gate\"\nwire_encryption = \"off\"\n" ++
    "[command]\nargv = [\"/bin/echo\"]\n").toList ++
  "[[clients]]\nclient_id = \"".toList ++ padded_id ['0', 'f'] ++
  "\"\npublic_key = \"".toList ++ zero_key ++ "\"\n".toList

/-- What the file stands for. -/
def sample_document : Entries :=
  [("server".toList, .table
      [("bind".toList, .string "0.0.0.0:7370".toList), ("server_id".toList, .string "gate".toList),
        ("wire_encryption".toList, .string "off".toList)]),
    ("command".toList, .table [("argv".toList, .array [.string "/bin/echo".toList])]),
    ("clients".toList, .table_array
      [[("client_id".toList, .string (padded_id ['0', 'f'])),
        ("public_key".toList, .string zero_key)]])]

def sample_clients : Config.ServerConfig :=
  { two_clients [] [] with
    clients := [{ client_id := padded_id ['0', 'f'], public_key := zero_key, label := none }] }

/-- Reads the sample file, and it with the block of these arguments. -/
def sample_host (args : AddClientArgs) : CliHost where
  parse := reader sample_file sample_document 1 args.block
  keys := sample_keys
  writes := true

def sample_args (client_id : Str) : AddClientArgs where
  client_id := client_id
  public_key := zero_key
  label := some "laptop".toList

theorem sample_parse (args : AddClientArgs) :
    (sample_host args).parse sample_file = some sample_document := by
  unfold sample_host
  dsimp only
  exact reader_text _ _ _ _

theorem sample_appends (args : AddClientArgs) :
    Appends (sample_host args).parse sample_file (feeds sample_file) args.block := by
  have hfeeds : feeds sample_file = 1 := by decide +kernel
  rw [hfeeds]
  exact reader_appends _ _ _ _

theorem sample_load (args : AddClientArgs) :
    Config.ServerConfig.load (sample_host args).parse (some sample_file) =
      some (.ok sample_clients) :=
  Config.ServerConfig.load_ok.mpr
    ⟨sample_document, sample_parse args, by decide +kernel, by decide +kernel⟩

theorem sample_checked {client_id : Str} (hdigits : HexDigits (trim client_id))
    (hother : eq_ignore_ascii_case (padded_id ['0', 'f']) client_id = false) :
    (sample_args client_id).Checked sample_keys sample_clients where
  client_id := reads_of_hexdigits hdigits
  public_key := by
    unfold KeyDecoding.load_verifying_key
    exact ⟨_, rfl⟩
  label := by
    intro label hlabel
    obtain rfl := Option.some.inj hlabel
    decide
  unused := List.forall_mem_singleton.mpr hother

theorem sample_writes {client_id : Str} (hdigits : HexDigits (trim client_id))
    (hother : eq_ignore_ascii_case (padded_id ['0', 'f']) client_id = false) :
    Writes (sample_host (sample_args client_id)) (sample_args client_id) sample_file
      sample_clients :=
  ⟨sample_load _, sample_checked hdigits hother, rfl⟩

theorem sample_open : OpenClients sample_document := .inr ⟨_, rfl⟩

theorem add_client_safe_iff_new :
    AddClientSafe (sample_host (sample_args (padded_id ['f', '0'])))
      (sample_args (padded_id ['f', '0'])) (some sample_file) := by
  let args := sample_args (padded_id ['f', '0'])
  apply (add_client_safe_iff (sample_host args) args sample_file sample_keys_alphabet
    (sample_appends args)).mpr
  intro doc existing hdoc hwrites
  obtain rfl := Option.some.inj ((sample_parse args).symm.trans hdoc)
  obtain rfl := Except.ok.inj (Option.some.inj ((sample_load args).symm.trans hwrites.1))
  have hplain : Plain (padded_id ['f', '0']) := by decide +kernel
  have hdistinct : ∀ c ∈ sample_clients.clients,
      c.id ≠ (sample_args (padded_id ['f', '0'])).entry.id := by decide +kernel
  exact ⟨sample_open, hplain, hdistinct⟩

/-- A line feed in front of the id is trimmed by the check and written to the file, which is not
    TOML any more; a space in front of it authorises a client twice. -/
theorem white_space_written :
    ¬ AddClientSafe (sample_host (sample_args ('\n' :: padded_id ['f', '0'])))
      (sample_args ('\n' :: padded_id ['f', '0'])) (some sample_file) ∧
    ¬ AddClientSafe (sample_host (sample_args (' ' :: padded_id ['0', 'f'])))
      (sample_args (' ' :: padded_id ['0', 'f'])) (some sample_file) := by
  constructor
  · intro hsafe
    have hdigits : HexDigits (trim ('\n' :: padded_id ['f', '0'])) :=
      ⟨by decide +kernel, by decide +kernel⟩
    have hother : eq_ignore_ascii_case (padded_id ['0', 'f']) ('\n' :: padded_id ['f', '0']) =
        false := by decide +kernel
    have hwrites := sample_writes hdigits hother
    have hiff := safe_iff_of_writes hwrites (sample_parse _) sample_keys_alphabet (sample_appends _)
    obtain ⟨-, hplain, -⟩ := hiff.mp hsafe
    exact absurd (hplain '\n' List.mem_cons_self) (by decide)
  · intro hsafe
    have hdigits : HexDigits (trim (' ' :: padded_id ['0', 'f'])) :=
      ⟨by decide +kernel, by decide +kernel⟩
    have hother : eq_ignore_ascii_case (padded_id ['0', 'f']) (' ' :: padded_id ['0', 'f']) =
        false := by decide +kernel
    have hwrites := sample_writes hdigits hother
    have hiff := safe_iff_of_writes hwrites (sample_parse _) sample_keys_alphabet (sample_appends _)
    obtain ⟨-, -, hdistinct⟩ := hiff.mp hsafe
    have hsame : ∃ c ∈ sample_clients.clients,
        c.id = (sample_args (' ' :: padded_id ['0', 'f'])).entry.id := by decide +kernel
    obtain ⟨c, hc, heq⟩ := hsame
    exact hdistinct c hc heq

end Server

end SignedPulse
