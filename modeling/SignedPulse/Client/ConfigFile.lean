import Mathlib.Data.Char
import Mathlib.Data.List.Induction
import Mathlib.Data.List.Lex
import Mathlib.Data.List.Sort
import SignedPulse.Server.ConfigFile
import SignedPulse.Client.Config

/-! # The client's configuration file

    As for the server: `load_file` reads the file, parses it as TOML, takes the
    sections out of the document and validates them.

    The tables `[client.servers.<label>]` make a map in the order of the
    labels. `from_toml_add` says what one more such table is in the sections.
-/

namespace SignedPulse

namespace Config

open Toml

/-! ### Sections -/

def ServerOverride.fields : List String :=
  ["server_addr", "server_id", "server_encryption_key", "wire_encryption", "interval_seconds",
    "challenge_timeout_seconds", "retry_initial_ms", "retry_max_ms", "retries", "param_command",
    "param_command_timeout_seconds", "param_max_len"]

def ServerOverride.from_toml (v : Value) : Option ServerOverride := do
  let es ← v.as_struct ServerOverride.fields
  let server_addr ← required Value.as_string es "server_addr"
  let server_id ← omittable Value.as_string es "server_id"
  let server_encryption_key ← omittable Value.as_string es "server_encryption_key"
  let wire_encryption ← omittable Value.as_bool es "wire_encryption"
  let interval_seconds ← omittable Value.as_u64 es "interval_seconds"
  let challenge_timeout_seconds ← omittable Value.as_u64 es "challenge_timeout_seconds"
  let retry_initial_ms ← omittable Value.as_u64 es "retry_initial_ms"
  let retry_max_ms ← omittable Value.as_u64 es "retry_max_ms"
  let retries ← omittable Value.as_u32 es "retries"
  let param_command ← omittable (Value.as_vec Value.as_string) es "param_command"
  let param_command_timeout_seconds ← omittable Value.as_u64 es "param_command_timeout_seconds"
  let param_max_len ← omittable Value.as_usize es "param_max_len"
  return {
    server_addr := server_addr
    server_id := server_id
    server_encryption_key := server_encryption_key
    wire_encryption := wire_encryption
    interval_seconds := interval_seconds
    challenge_timeout_seconds := challenge_timeout_seconds
    retry_initial_ms := retry_initial_ms
    retry_max_ms := retry_max_ms
    retries := retries
    param_command := param_command
    param_command_timeout_seconds := param_command_timeout_seconds
    param_max_len := param_max_len }

/-- The map of a list of entries: a later entry replaces an earlier one. -/
def collect {α : Type} (entries : List (Str × α)) : HashMap Str α :=
  entries.foldl (fun m e => AList.insert e.1 e.2 m) ∅

/-- The same map, walked in the order of its keys. -/
def in_order {α : Type} (m : HashMap Str α) : HashMap Str α where
  entries := m.entries.insertionSort (fun e e' => e.1 ≤ e'.1)
  nodupKeys := (List.perm_nodupKeys (List.perm_insertionSort _ _)).mpr m.nodupKeys

/-- A `BTreeMap` with texts for keys. -/
def as_btree_map {α : Type} (read : Value → Option α) (v : Value) : Option (HashMap Str α) :=
  (v.as_map read).map fun entries => in_order (collect entries)

def ClientSection.fields : List String :=
  ["client_id", "server_addr", "server_id", "interval_seconds", "private_key",
    "challenge_timeout_seconds", "retry_initial_ms", "retry_max_ms", "retries", "state_file",
    "param_command", "param_command_timeout_seconds", "param_max_len", "server_encryption_key",
    "wire_encryption", "bye_on_shutdown", "servers"]

/-- The fields before `servers`. -/
def ClientSection.from_fields (es : Entries) : Option ClientSection := do
  let client_id ← required Value.as_string es "client_id"
  let server_addr ← required Value.as_string es "server_addr"
  let server_id ← required Value.as_string es "server_id"
  let interval_seconds ← defaulted Value.as_u64 es "interval_seconds" 300
  let private_key ← required Value.as_string es "private_key"
  let challenge_timeout_seconds ← defaulted Value.as_u64 es "challenge_timeout_seconds" 5
  let retry_initial_ms ← defaulted Value.as_u64 es "retry_initial_ms" 500
  let retry_max_ms ← defaulted Value.as_u64 es "retry_max_ms" 4000
  let retries ← defaulted Value.as_u32 es "retries" 3
  let state_file ← omittable Value.as_string es "state_file"
  let param_command ← omittable (Value.as_vec Value.as_string) es "param_command"
  let param_command_timeout_seconds ← defaulted Value.as_u64 es "param_command_timeout_seconds" 5
  let param_max_len ← defaulted Value.as_usize es "param_max_len" 256
  let server_encryption_key ← omittable Value.as_string es "server_encryption_key"
  let wire_encryption ← defaulted Value.as_bool es "wire_encryption" true
  let bye_on_shutdown ← defaulted Value.as_bool es "bye_on_shutdown" true
  return {
    client_id := client_id
    server_addr := server_addr
    server_id := server_id
    interval_seconds := interval_seconds
    private_key := private_key
    challenge_timeout_seconds := challenge_timeout_seconds
    retry_initial_ms := retry_initial_ms
    retry_max_ms := retry_max_ms
    retries := retries
    state_file := state_file
    param_command := param_command
    param_command_timeout_seconds := param_command_timeout_seconds
    param_max_len := param_max_len
    server_encryption_key := server_encryption_key
    wire_encryption := wire_encryption
    bye_on_shutdown := bye_on_shutdown
    servers := ∅ }

def ClientSection.from_toml (v : Value) : Option ClientSection := do
  let es ← v.as_struct ClientSection.fields
  let c ← ClientSection.from_fields es
  let servers ← defaulted (as_btree_map ServerOverride.from_toml) es "servers" ∅
  return { c with servers := servers }

def ClientConfig.fields : List String := ["client"]

def ClientConfig.from_toml (doc : Entries) : Option ClientConfig := do
  let es ← (Value.table doc).as_struct ClientConfig.fields
  let client ← required ClientSection.from_toml es "client"
  return { client := client }

/-! ### Files -/

/-- `ClientConfig::load` from the file on. `none` is a panic of `from_hex`. -/
def ClientConfig.load_file (parse : Str → Option Entries) :
    (file : Option Str) → Option (Except LoadError ClientConfig)
  | none => some (.error .Read)
  | some text =>
    match (parse text).bind ClientConfig.from_toml with
    | none => some (.error .Parse)
    | some cfg =>
      match cfg.load with
      | none => none
      | some (.error e) => some (.error (.Validation e))
      | some (.ok cfg) => some (.ok cfg)

theorem ClientConfig.load_file_ok {parse : Str → Option Entries} {text : Str}
    {cfg : ClientConfig} :
    ClientConfig.load_file parse (some text) = some (.ok cfg) ↔
      ∃ doc, parse text = some doc ∧ ClientConfig.from_toml doc = some cfg ∧ cfg.Accepted := by
  unfold ClientConfig.load_file
  dsimp only
  constructor
  · intro h
    split at h
    · cases h
    rename_i parsed hsections
    obtain ⟨doc, hdoc, hcfg⟩ := Option.bind_eq_some_iff.mp hsections
    split at h
    · cases h
    · cases h
    · rename_i accepted hload
      obtain rfl := Except.ok.inj (Option.some.inj h)
      obtain ⟨rfl, haccepted⟩ := ClientConfig.load_ok.mp hload
      exact ⟨doc, hdoc, hcfg, haccepted⟩
  · intro h
    obtain ⟨doc, hdoc, hcfg, haccepted⟩ := h
    rw [hdoc, Option.bind_some, hcfg]
    dsimp only
    rw [ClientConfig.load_ok.mpr ⟨rfl, haccepted⟩]

/-! ### The map of the tables -/

section maps
variable {α : Type}

theorem lookup_in_order (m : HashMap Str α) (key : Str) :
    AList.lookup key (in_order m) = AList.lookup key m :=
  AList.perm_lookup (List.perm_insertionSort _ _)

theorem collect_snoc (entries : List (Str × α)) (key : Str) (v : α) :
    collect (entries ++ [(key, v)]) = AList.insert key v (collect entries) := by
  unfold collect
  rw [List.foldl_append]
  rfl

/-- Every key of the list is in the map. -/
theorem mem_collect {entries : List (Str × α)} {e : Str × α} (he : e ∈ entries) :
    e.1 ∈ collect entries := by
  induction entries using List.reverseRecOn with
  | nil => cases he
  | append_singleton entries last ih =>
    rw [collect_snoc, AList.mem_insert]
    rcases List.mem_append.mp he with hbefore | hlast
    · exact .inr (ih hbefore)
    · exact .inl (List.mem_singleton.mp hlast ▸ rfl)

end maps

/-- What is added: the settings stay, and the map has one more label. -/
structure ClientConfig.Extends (before : ClientConfig) (label : Str) (ov : ServerOverride)
    (after : ClientConfig) : Prop where
  settings : after.client = { before.client with servers := after.client.servers }
  servers : ∀ other, AList.lookup other after.client.servers =
    if other = label then some ov else AList.lookup other before.client.servers

/-- `client` is a table that headers can add to, and so is `client.servers`, if it is there. -/
def OpenServers (doc : Entries) : Prop :=
  ∃ es, doc.lookup "client".toList = some (.table es) ∧
    (es.lookup "servers".toList = none ∨
      ∃ sub, es.lookup "servers".toList = some (.table sub))

theorem ClientSection.from_toml_eq_some {v : Value} {c : ClientSection} :
    ClientSection.from_toml v = some c ↔
      ∃ es c₀ servers, v.as_struct ClientSection.fields = some es ∧
        ClientSection.from_fields es = some c₀ ∧
        defaulted (as_btree_map ServerOverride.from_toml) es "servers" ∅ = some servers ∧
        c = { c₀ with servers := servers } := by
  unfold ClientSection.from_toml
  simp only [Option.bind_eq_bind, Option.bind_eq_some_iff, Option.pure_def, Option.some.injEq]
  constructor
  · intro h
    obtain ⟨es, hes, c₀, hc₀, servers, hservers, rfl⟩ := h
    exact ⟨es, c₀, servers, hes, hc₀, hservers, rfl⟩
  · intro h
    obtain ⟨es, c₀, servers, hes, hc₀, hservers, rfl⟩ := h
    exact ⟨es, hes, c₀, hc₀, servers, hservers, rfl⟩

theorem ClientConfig.from_toml_eq_some {doc : Entries} {cfg : ClientConfig} :
    ClientConfig.from_toml doc = some cfg ↔
      ∃ es, (Value.table doc).as_struct ClientConfig.fields = some es ∧
        required ClientSection.from_toml es "client" = some cfg.client := by
  unfold ClientConfig.from_toml
  simp only [Option.bind_eq_bind, Option.bind_eq_some_iff, Option.pure_def, Option.some.injEq]
  constructor
  · intro h
    obtain ⟨es, hes, client, hclient, rfl⟩ := h
    exact ⟨es, hes, hclient⟩
  · intro h
    obtain ⟨es, hes, hclient⟩ := h
    exact ⟨es, hes, _, hclient, rfl⟩

/-- The fields before `servers` are read without it. -/
theorem ClientSection.from_fields_congr {es es' : Entries}
    (h : ∀ key : Str, key ≠ "servers".toList → es'.lookup key = es.lookup key) :
    ClientSection.from_fields es' = ClientSection.from_fields es := by
  have hsame (key : String) (hkey : key ≠ "servers") :
      es'.lookup key.toList = es.lookup key.toList := by
    apply h
    intro heq
    exact hkey (String.toList_inj.mp heq)
  unfold ClientSection.from_fields required defaulted omittable
  simp (disch := decide) only [hsame]

/-- A table with these entries is read as a map with one more label. -/
theorem as_btree_map_snoc {sub entries : Entries} {label : Str} {ov : ServerOverride}
    {m : HashMap Str ServerOverride}
    (hm : as_btree_map ServerOverride.from_toml (.table sub) = some m)
    (hov : ServerOverride.from_toml (.table entries) = some ov) :
    ∃ m', as_btree_map ServerOverride.from_toml (.table (sub ++ [(label, .table entries)])) =
        some m' ∧
      ∀ other, AList.lookup other m' = if other = label then some ov else AList.lookup other m := by
  unfold as_btree_map Value.as_map at hm ⊢
  dsimp only at hm ⊢
  obtain ⟨read, hread, rfl⟩ := Option.map_eq_some_iff.mp hm
  rw [List.mapM_append, hread]
  simp only [List.mapM_cons, List.mapM_nil, hov, Option.bind_eq_bind, Option.pure_def,
    Option.bind_some, Option.map_some, Option.some.injEq, exists_eq_left']
  intro other
  rw [lookup_in_order, lookup_in_order, collect_snoc]
  by_cases hother : other = label
  · rw [if_pos hother, hother, AList.lookup_insert]
  · rw [if_neg hother, AList.lookup_insert_ne hother]

section add
variable {doc : Entries} {cfg : ClientConfig} {b : Block} {label : Str}

/-- In an open document, the block adds its table to the tables that are there. -/
theorem append_open (hopen : OpenServers doc) (helement : b.element = false)
    (hpath : b.path = ["client".toList, "servers".toList, label])
    (hvalid : ∀ line ∈ b.lines, line.2.Valid)
    (hnew : ∀ es sub, doc.lookup "client".toList = some (.table es) →
      es.lookup "servers".toList = some (.table sub) → sub.lookup label = none) :
    ∃ doc' es es' sub, b.append doc = some doc' ∧
      doc.lookup "client".toList = some (.table es) ∧
      (es.lookup "servers".toList = none ∧ sub = [] ∨
        es.lookup "servers".toList = some (.table sub)) ∧
      Updated "servers".toList (.table (sub ++ [(label, .table b.entries)])) es es' ∧
      Updated "client".toList (.table es') doc doc' := by
  obtain ⟨es, hclient, hservers⟩ := hopen
  -- the tables of servers are extended, or there are none yet
  have hbelow : ∃ es' sub, edit (new_table b.entries) ["servers".toList, label] es = some es' ∧
      (es.lookup "servers".toList = none ∧ sub = [] ∨
        es.lookup "servers".toList = some (.table sub)) ∧
      Updated "servers".toList (.table (sub ++ [(label, .table b.entries)])) es es' := by
    rcases hservers with hnone | ⟨sub, hsome⟩
    · have hedit : edit (new_table b.entries) ["servers".toList, label] es =
          some (es ++ [("servers".toList, .table [(label, .table b.entries)])]) := by
        unfold edit
        rw [hnone]
        rfl
      exact ⟨_, [], hedit, .inl ⟨hnone, rfl⟩, Updated.snoc hnone⟩
    · have htable : edit (new_table b.entries) [label] sub =
          some (sub ++ [(label, .table b.entries)]) :=
        new_table_eq_some.mpr ⟨hnew es sub hclient hsome, rfl⟩
      have hedit : edit (new_table b.entries) ["servers".toList, label] es =
          some (set "servers".toList (.table (sub ++ [(label, .table b.entries)])) es) := by
        unfold edit
        rw [hsome]
        dsimp only
        rw [htable]
        rfl
      exact ⟨_, sub, hedit, .inr hsome, Updated.set hsome⟩
  obtain ⟨es', sub, hedit, hsub, hupdated⟩ := hbelow
  -- and `[client]` is there, whatever else the document has
  have hdoc : edit (new_table b.entries) ["client".toList, "servers".toList, label] doc =
      some (set "client".toList (.table es') doc) := by
    unfold edit
    rw [hclient]
    dsimp only
    rw [hedit]
    rfl
  refine ⟨_, es, es', sub, ?_, hclient, hsub, hupdated, Updated.set hclient⟩
  unfold Block.append
  rw [if_pos hvalid, hpath, helement]
  exact hdoc

theorem client_value (hcfg : ClientConfig.from_toml doc = some cfg) :
    ∃ v, doc.lookup "client".toList = some v ∧ ClientSection.from_toml v = some cfg.client := by
  obtain ⟨es, hes, hclient⟩ := ClientConfig.from_toml_eq_some.mp hcfg
  unfold Value.as_struct at hes
  dsimp only at hes
  split at hes
  · obtain rfl := Option.some.inj hes
    exact Option.bind_eq_some_iff.mp hclient
  · cases hes

/-- The tables of `[[client]]` are no section: the id would be the first of them. -/
theorem section_ne_table_array (tables : List Entries) :
    ClientSection.from_toml (.table_array tables) = none := by
  cases tables with
  | nil => rfl
  | cons t tables => rfl

/-- The tables of a section, if they can be seen by a header, are where its map comes from. -/
theorem servers_value {es : Entries} {v : Value} {c : ClientSection}
    (hv : v = .table es ∨ v = .inline_table es) (hc : ClientSection.from_toml v = some c)
    {w : Value} (hw : es.lookup "servers".toList = some w) :
    as_btree_map ServerOverride.from_toml w = some c.servers := by
  obtain ⟨es₀, c₀, servers, hes, -, hservers, rfl⟩ := ClientSection.from_toml_eq_some.mp hc
  have hsame : es₀ = es := by
    unfold Value.as_struct at hes
    rcases hv with rfl | rfl
    · dsimp only at hes
      split at hes
      · exact (Option.some.inj hes).symm
      · cases hes
    · dsimp only at hes
      split at hes
      · exact (Option.some.inj hes).symm
      · cases hes
  rw [hsame] at hservers
  unfold defaulted at hservers
  rw [hw] at hservers
  exact hservers

/-- A key of the table is a label of the map. -/
theorem mem_of_lookup {es : Entries} {v w : Value} {m : HashMap Str ServerOverride}
    (hv : v = .table es ∨ v = .inline_table es)
    (hm : as_btree_map ServerOverride.from_toml v = some m) (hw : es.lookup label = some w) :
    label ∈ m := by
  unfold as_btree_map at hm
  obtain ⟨read, hread, rfl⟩ := Option.map_eq_some_iff.mp hm
  have hmap : es.mapM (fun e => (ServerOverride.from_toml e.2).map fun a => (e.1, a)) =
      some read := by
    rcases hv with rfl | rfl
    · exact hread
    · exact hread
  have hkeys : ∃ e ∈ read, e.1 = label := by
    have hmem := mem_keys_of_lookup hw
    rw [← Value.keys_of_mapM hmap] at hmem
    exact List.mem_map.mp hmem
  obtain ⟨e, he, rfl⟩ := hkeys
  have hmem := mem_collect he
  rw [← AList.lookup_isSome] at hmem ⊢
  rwa [lookup_in_order]

/-- Nothing can be added below a table that is closed, in a document that is a configuration. -/
theorem append_shut (hcfg : ClientConfig.from_toml doc = some cfg) (hshut : ¬ OpenServers doc)
    (helement : b.element = false)
    (hpath : b.path = ["client".toList, "servers".toList, label]) : b.append doc = none := by
  obtain ⟨v, hv, hclient⟩ := client_value hcfg
  have hedit : edit (new_table b.entries) ["client".toList, "servers".toList, label] doc =
      none := by
    unfold edit
    rw [hv]
    cases v with
    | table es =>
      dsimp only
      rw [Option.map_eq_none_iff]
      unfold edit
      cases hw : es.lookup "servers".toList with
      | none => exact absurd ⟨es, hv, .inl hw⟩ hshut
      | some w =>
        have hmap := servers_value (.inl rfl) hclient hw
        cases w with
        | table sub => exact absurd ⟨es, hv, .inr ⟨sub, hw⟩⟩ hshut
        | table_array tables => cases hmap
        | _ => rfl
    | table_array tables =>
      rw [section_ne_table_array] at hclient
      cases hclient
    | _ => rfl
  unfold Block.append
  rw [hpath, helement, ite_eq_right_iff]
  intro _
  exact hedit

/-- A label that the configuration does not have is not in the document. -/
theorem contains_new (hcfg : ClientConfig.from_toml doc = some cfg)
    (hnew : label ∉ cfg.client.servers) :
    contains ["client".toList, "servers".toList, label] doc = false := by
  obtain ⟨v, hv, hclient⟩ := client_value hcfg
  -- a section in either form, with its tables in either form
  have hsection {es : Entries} (hes : v = .table es ∨ v = .inline_table es) :
      contains ["servers".toList, label] es = false := by
    unfold contains
    cases hw : es.lookup "servers".toList with
    | none => rfl
    | some w =>
      have hmap := servers_value hes hclient hw
      have htable {sub : Entries} (hsub : w = .table sub ∨ w = .inline_table sub) :
          contains [label] sub = false := by
        show (sub.lookup label).isSome = false
        cases hlabel : sub.lookup label with
        | none => rfl
        | some x => exact absurd (mem_of_lookup hsub hmap hlabel) hnew
      cases w with
      | table sub => exact htable (.inl rfl)
      | inline_table sub => exact htable (.inr rfl)
      | table_array tables => cases hmap
      | _ => rfl
  unfold contains
  rw [hv]
  cases v with
  | table es => exact hsection (.inl rfl)
  | inline_table es => exact hsection (.inr rfl)
  | table_array tables =>
    rw [section_ne_table_array] at hclient
    cases hclient
  | _ => rfl

/-- The document with one more table has that server, and all else as it was. -/
theorem from_toml_add (hcfg : ClientConfig.from_toml doc = some cfg) (hopen : OpenServers doc)
    (hnew : label ∉ cfg.client.servers) (helement : b.element = false)
    (hpath : b.path = ["client".toList, "servers".toList, label])
    (hvalid : ∀ line ∈ b.lines, line.2.Valid) {ov : ServerOverride}
    (hov : ServerOverride.from_toml (.table b.entries) = some ov) :
    ∃ doc' cfg', b.append doc = some doc' ∧ ClientConfig.from_toml doc' = some cfg' ∧
      cfg.Extends label ov cfg' := by
  obtain ⟨v, hv, hclient⟩ := client_value hcfg
  have hlookup : ∀ es sub, doc.lookup "client".toList = some (.table es) →
      es.lookup "servers".toList = some (.table sub) → sub.lookup label = none := by
    intro es sub hes hsub
    obtain rfl := Option.some.inj (hv.symm.trans hes)
    have hmap := servers_value (.inl rfl) hclient hsub
    by_contra hsome
    obtain ⟨w, hw⟩ := Option.ne_none_iff_exists'.mp hsome
    exact hnew (mem_of_lookup (.inl rfl) hmap hw)
  obtain ⟨doc', es, es', sub, happend, hes, hsub, hservers, hclient'⟩ :=
    append_open hopen helement hpath hvalid hlookup
  obtain rfl := Option.some.inj (hv.symm.trans hes)
  obtain ⟨es₀, c₀, servers, hfields, hc₀, hmap, hc⟩ := ClientSection.from_toml_eq_some.mp hclient
  obtain ⟨rfl, hfields'⟩ := hservers.as_struct (by decide) hfields
  -- the tables so far make the map so far
  have hbefore : ∃ m, as_btree_map ServerOverride.from_toml (.table sub) = some m ∧
      ∀ other, AList.lookup other m = AList.lookup other servers := by
    unfold defaulted at hmap
    rcases hsub with ⟨hnone, rfl⟩ | hsome
    · rw [hnone] at hmap
      obtain rfl := Option.some.inj hmap
      exact ⟨_, rfl, fun other => rfl⟩
    · rw [hsome] at hmap
      exact ⟨servers, hmap, fun other => rfl⟩
  obtain ⟨m, hm, hsame⟩ := hbefore
  obtain ⟨m', hm', hlabels⟩ := @as_btree_map_snoc _ _ label _ _ hm hov
  have hsection : ClientSection.from_toml (.table es') = some { c₀ with servers := m' } := by
    rw [ClientSection.from_toml_eq_some]
    refine ⟨es', c₀, m', hfields', ?_, ?_, rfl⟩
    · rw [ClientSection.from_fields_congr fun key hkey => hservers.others key hkey, hc₀]
    · unfold defaulted
      rw [hservers.self]
      exact hm'
  obtain ⟨es₁, hes₁, -⟩ := ClientConfig.from_toml_eq_some.mp hcfg
  obtain ⟨rfl, hdoc'⟩ := hclient'.as_struct (by decide) hes₁
  refine ⟨doc', ⟨{ c₀ with servers := m' }⟩, happend, ?_, ?_, ?_⟩
  · rw [ClientConfig.from_toml_eq_some]
    refine ⟨doc', hdoc', ?_⟩
    unfold required
    rw [hclient'.self]
    exact hsection
  · rw [hc]
  · intro other
    rw [hc, hlabels other, hsame other]

end add

end Config

end SignedPulse
