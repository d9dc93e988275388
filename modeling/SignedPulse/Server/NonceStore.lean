import SignedPulse.Framework.HashMap
import SignedPulse.Framework.Text
import SignedPulse.Server.Environment

/-! # The nonce store

    Issued challenge nonces, each bound to a client and to the exact source
    endpoint that asked for it. A nonce is single-use: `consume` marks its
    entry, `validate` only looks.
-/

namespace SignedPulse

/-- The binding recorded for an issued nonce. -/
structure NonceEntry where
  client_id : Str
  source_ip : IpAddr
  source_port : UInt16
  created_at_unix : Int64
  expires_at_unix : Int64
  used : Bool
  deriving DecidableEq

inductive ConsumeError where
  | Unknown
  | AlreadyUsed
  | Expired
  | ClientMismatch
  | EndpointMismatch
  deriving DecidableEq, Repr

/-- The text of the log line. -/
def ConsumeError.reason : ConsumeError → String
  | .Unknown => "nonce unknown"
  | .AlreadyUsed => "nonce already used (replay)"
  | .Expired => "nonce expired"
  | .ClientMismatch => "nonce client_id mismatch"
  | .EndpointMismatch => "nonce source endpoint mismatch"

/-- Keyed by the raw nonce bytes. -/
abbrev NonceStore := HashMap Bytes NonceEntry

namespace NonceStore

def insert (store : NonceStore) (nonce : Bytes) (client_id : Str) (source_ip : IpAddr)
    (source_port : UInt16) (expires_at_unix : Int64) (now_unix : Int64) : NonceStore :=
  AList.insert nonce
    { client_id := client_id
      source_ip := source_ip
      source_port := source_port
      created_at_unix := now_unix
      expires_at_unix := expires_at_unix
      used := false } store

/-- Check all bindings; replay and expiry come first. -/
def check (entry : NonceEntry) (client_id : Str) (source_ip : IpAddr) (source_port : UInt16)
    (now : Int64) : Except ConsumeError Unit :=
  if entry.used then .error .AlreadyUsed
  else if now > entry.expires_at_unix then .error .Expired
  else if entry.client_id ≠ client_id then .error .ClientMismatch
  else if entry.source_ip ≠ source_ip ∨ entry.source_port ≠ source_port then
    .error .EndpointMismatch
  else .ok ()

/-- Peek: all bindings hold, and the entry is left as it is. -/
def validate (store : NonceStore) (nonce : Bytes) (client_id : Str) (source_ip : IpAddr)
    (source_port : UInt16) (now : Int64) : Except ConsumeError NonceEntry :=
  match AList.lookup nonce store with
  | none => .error .Unknown
  | some entry => (check entry client_id source_ip source_port now).map (fun _ => entry)

/-- The single-use gate: all bindings hold, and the entry is marked used. -/
def consume (store : NonceStore) (nonce : Bytes) (client_id : Str) (source_ip : IpAddr)
    (source_port : UInt16) (now : Int64) : Except ConsumeError NonceEntry × NonceStore :=
  match AList.lookup nonce store with
  | none => (.error .Unknown, store)
  | some entry =>
    match check entry client_id source_ip source_port now with
    | .error e => (.error e, store)
    | .ok () =>
      let entry := { entry with used := true }
      (.ok entry, AList.insert nonce entry store)

/-- Drop expired entries; used ones stay until they expire. -/
def purge_expired (store : NonceStore) (now : Int64) : Nat × NonceStore :=
  let store' := store.retain (fun _ e => decide (now ≤ e.expires_at_unix))
  (store.len - store'.len, store')

/-! ### What a successful call says -/

/-- An entry that a client may use from an endpoint. -/
structure Usable (entry : NonceEntry) (client_id : Str) (source_ip : IpAddr)
    (source_port : UInt16) (now : Int64) : Prop where
  unused : entry.used = false
  fresh : now ≤ entry.expires_at_unix
  client : entry.client_id = client_id
  ip : entry.source_ip = source_ip
  port : entry.source_port = source_port

theorem check_ok {entry : NonceEntry} {client_id : Str} {source_ip : IpAddr}
    {source_port : UInt16} {now : Int64} :
    check entry client_id source_ip source_port now = .ok () ↔
      Usable entry client_id source_ip source_port now := by
  unfold check
  constructor
  · intro h
    split at h
    · cases h
    · rename_i hunused
      split at h
      · cases h
      · rename_i hfresh
        split at h
        · cases h
        · rename_i hclient
          split at h
          · cases h
          · rename_i hendpoint
            push Not at hclient hendpoint
            exact ⟨by simpa using hunused, Int64.not_lt.mp hfresh, hclient, hendpoint.1,
              hendpoint.2⟩
  · rintro ⟨hunused, hfresh, hclient, hip, hport⟩
    simp [hunused, Int64.not_lt.mpr hfresh, hclient, hip, hport]

theorem validate_ok {store : NonceStore} {nonce : Bytes} {client_id : Str} {source_ip : IpAddr}
    {source_port : UInt16} {now : Int64} {entry : NonceEntry} :
    validate store nonce client_id source_ip source_port now = .ok entry ↔
      AList.lookup nonce store = some entry ∧
        Usable entry client_id source_ip source_port now := by
  unfold validate
  cases hl : AList.lookup nonce store with
  | none => simp
  | some e =>
    simp only [Option.some.injEq]
    cases hc : check e client_id source_ip source_port now with
    | error err =>
      constructor
      · intro h; cases h
      · rintro ⟨rfl, husable⟩
        rw [check_ok.mpr husable] at hc
        cases hc
    | ok u =>
      have husable := check_ok.mp hc
      constructor
      · intro h
        obtain rfl : e = entry := Except.ok.inj h
        exact ⟨rfl, husable⟩
      · rintro ⟨rfl, -⟩
        rfl

/-- A successful `consume` found a usable entry and leaves it marked. -/
theorem consume_ok {store : NonceStore} {nonce : Bytes} {client_id : Str} {source_ip : IpAddr}
    {source_port : UInt16} {now : Int64} {entry : NonceEntry}
    (h : (consume store nonce client_id source_ip source_port now).1 = .ok entry) :
    ∃ before, AList.lookup nonce store = some before ∧
      Usable before client_id source_ip source_port now ∧ entry = { before with used := true } ∧
      (consume store nonce client_id source_ip source_port now).2 =
        AList.insert nonce entry store := by
  unfold consume at h ⊢
  cases hl : AList.lookup nonce store with
  | none => rw [hl] at h; cases h
  | some e =>
    rw [hl] at h
    dsimp only at h ⊢
    cases hc : check e client_id source_ip source_port now with
    | error err => rw [hc] at h; cases h
    | ok u =>
      rw [hc] at h
      obtain rfl : { e with used := true } = entry := Except.ok.inj h
      exact ⟨e, rfl, check_ok.mp hc, rfl, rfl⟩

theorem consume_of_usable {store : NonceStore} {nonce : Bytes} {client_id : Str}
    {source_ip : IpAddr} {source_port : UInt16} {now : Int64} {entry : NonceEntry}
    (hentry : AList.lookup nonce store = some entry)
    (husable : Usable entry client_id source_ip source_port now) :
    ∃ spent, (consume store nonce client_id source_ip source_port now).1 = .ok spent := by
  unfold consume
  simp only [hentry, check_ok.mpr husable]
  exact ⟨_, rfl⟩

/-- A failed `consume` changes nothing. -/
theorem consume_error {store : NonceStore} {nonce : Bytes} {client_id : Str} {source_ip : IpAddr}
    {source_port : UInt16} {now : Int64} {err : ConsumeError}
    (h : (consume store nonce client_id source_ip source_port now).1 = .error err) :
    (consume store nonce client_id source_ip source_port now).2 = store := by
  unfold consume at h ⊢
  cases hl : AList.lookup nonce store with
  | none => rfl
  | some e =>
    rw [hl] at h
    dsimp only at h ⊢
    cases hc : check e client_id source_ip source_port now with
    | error err => rfl
    | ok u => rw [hc] at h; cases h

end NonceStore

end SignedPulse
