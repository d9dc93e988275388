import Mathlib.Algebra.Order.BigOperators.Group.List
import SignedPulse.Client.Arrivals
import SignedPulse.Framework.Attempts
import SignedPulse.Protocol.ClientIdHex

/-! # One cycle of the client

    A cycle resolves the parameter once, opens a socket, and attempts the
    exchange until one attempt succeeds or the attempts are used up. Attempt
    `k` waits for its CHALLENGE as long as the backoff says.

    `CycleEnds` are the ways in which a cycle can end: at most one HELLO for
    each attempt, and one RESPONSE (or BYE) just when it succeeds.
    `cycle_answers_once` adds what that allows in datagrams and in time.
-/

namespace SignedPulse

/-! ### Operations -/

/-- How the parameter command ends. -/
inductive CommandOutcome where
  | spawn_failed (e : Str)
  | failed (e : Str)
  | timed_out
  | exited (success : Bool) (status : Str) (stdout : Bytes)

/-- One server's pulses, as `status` shows them. -/
inductive LegUpdate where
  /-- A cycle begins. -/
  | attempt (now : Int64)
  /-- A cycle that began at `now` has ended; an error has its text. -/
  | result (now : Int64) (result : Except String Unit)

/-- What the daemon asks of its platform, besides what an attempt asks. -/
inductive DaemonOp where
  | client (o : ClientOp)
  | param_command (argv : List Str) (timeout : Duration)
  /-- `some e` is an error. -/
  | socket_bind
  | socket_connect (server_addr : Str)
  /-- The lock of the status, and the leg of that name, if there is one. -/
  | leg_update (name : Str) (u : LegUpdate)
  | sleep (d : Duration)
  /-- The lock of the status, and a copy of it. -/
  | status_clone
  | write_snapshot (servers : HashMap Str ServerLegStatus)

@[reducible] def DaemonOp.Res : DaemonOp → Type
  | .client o => o.Res
  | .param_command .. => CommandOutcome
  | .socket_bind => Option Str
  | .socket_connect _ => Option Str
  | .leg_update .. => Unit
  | .sleep _ => Unit
  | .status_clone => HashMap Str ServerLegStatus
  | .write_snapshot _ => Unit

abbrev daemon_ops : Interface := ⟨DaemonOp, DaemonOp.Res⟩

abbrev DaemonM := Program daemon_ops

namespace DaemonM

abbrev perform (o : DaemonOp) : DaemonM o.Res := Program.perform (I := daemon_ops) o

abbrev now_unix : DaemonM Int64 := perform (.client .now_unix)
abbrev param_command (argv : List Str) (timeout : Duration) : DaemonM CommandOutcome :=
  perform (.param_command argv timeout)
abbrev socket_bind : DaemonM (Option Str) := perform .socket_bind
abbrev socket_connect (server_addr : Str) : DaemonM (Option Str) :=
  perform (.socket_connect server_addr)
abbrev leg_update (name : Str) (u : LegUpdate) : DaemonM Unit := perform (.leg_update name u)
abbrev sleep (d : Duration) : DaemonM Unit := perform (.sleep d)
abbrev status_clone : DaemonM (HashMap Str ServerLegStatus) := perform .status_clone
abbrev write_snapshot (servers : HashMap Str ServerLegStatus) : DaemonM Unit :=
  perform (.write_snapshot servers)

end DaemonM

/-- The operations of an attempt among those of the daemon. -/
def attempt_ops : Program.Embedding client_ops daemon_ops where
  op := .client
  res _ := Equiv.refl _

open DaemonM

/-! ### The parameter -/

/-- Why a cycle fails. -/
inductive CycleError where
  | param (e : ClientError)
  /-- `param_command failed to spawn: {e}` -/
  | Spawn (e : Str)
  /-- `param_command error: {e}` -/
  | Command (e : Str)
  /-- `param_command timed out` -/
  | CommandTimedOut
  /-- `param_command exited with {status}` -/
  | Exited (status : Str)
  /-- `param_command output is not UTF-8` -/
  | NotUtf8
  /-- The socket reports an error. -/
  | io (e : Str)
  /-- `all {attempts} handshake attempt(s) failed` -/
  | AllFailed (attempts : Nat)

def CryptoError.text : CryptoError → Str
  | .VerificationFailed => "signature verification failed".toList
  | .EncryptionFailed => "encryption failed".toList
  | .DecryptionFailed => "decryption failed".toList

def CycleError.text : CycleError → Str
  | .param (.message text) => text
  | .param (.crypto e) => e.text
  | .Spawn e => "param_command failed to spawn: ".toList ++ e
  | .Command e => "param_command error: ".toList ++ e
  | .CommandTimedOut => "param_command timed out".toList
  | .Exited status => "param_command exited with ".toList ++ status
  | .NotUtf8 => "param_command output is not UTF-8".toList
  | .io e => e
  | .AllFailed attempts =>
    "all ".toList ++ decimal attempts ++ " handshake attempt(s) failed".toList

namespace Pulser

/-- Run the configured command and validate what it prints; `none` is the panic of `argv[0]`. -/
def generate_param (pulser : Pulser) : DaemonM (Option (Except CycleError (Option Str))) :=
  match pulser.target.param_command with
  | none => return some (.ok none)
  | some [] => return none
  | some (program :: args) => do
    let outcome ← param_command (program :: args) pulser.target.param_command_timeout
    match outcome with
    | .spawn_failed e => return some (.error (.Spawn e))
    | .failed e => return some (.error (.Command e))
    | .timed_out => return some (.error .CommandTimedOut)
    | .exited success status stdout =>
      if !success then return some (.error (.Exited status))
      else
        match from_utf8 stdout with
        | none => return some (.error .NotUtf8)
        | some text =>
          match validate_param (trim text) pulser.target.param_max_len with
          | .error e => return some (.error (.param e))
          | .ok () => return some (.ok (some (trim text)))

/-- The parameter of a cycle: an explicit one, else what the command prints for a pulse. -/
def resolve_param (pulser : Pulser) :
    Mode → (param_override : Option Str) → DaemonM (Option (Except CycleError (Option Str)))
  | _, some p =>
    match validate_param p pulser.target.param_max_len with
    | .error e => return some (.error (.param e))
    | .ok () => return some (.ok (some p))
  | .Renew, none => pulser.generate_param
  | .Release, none => return some (.ok none)

end Pulser

/-! ### Attempts -/

/-- `Duration::MAX` -/
def Duration.MAX : Duration := 18446744073709551615 * 1000000000 + 999999999

/-- `Duration::saturating_mul`. -/
def Duration.saturating_mul (d : Duration) (n : UInt32) : Duration := min (d * n.toNat) Duration.MAX

/-- How long an attempt waits for its CHALLENGE; attempts are counted from 1. -/
def ServerTarget.retry_timeout (t : ServerTarget) (attempt : Nat) : Duration :=
  min (t.retry_initial.saturating_mul (1 <<< UInt32.ofNat (min (attempt - 1) 31))) t.retry_max

/-- The backoff of attempt `n + 1`: it doubles with every attempt up to a limit. -/
def ServerTarget.backoff (t : ServerTarget) (n : Nat) : Duration :=
  min (t.retry_initial * 2 ^ min n 31) t.retry_max

namespace Pulser

/-- Attempt until one attempt succeeds. -/
def run_attempts (pulser : Pulser) (attempts : Nat) (mode : Mode) (param : Option Str) :
    DaemonM (Except CycleError Unit) := do
  let answered ← Program.first_ok
    (fun attempt => (pulser.attempt_once param (pulser.target.retry_timeout attempt) mode).embed
      attempt_ops) (List.range' 1 attempts)
  match answered with
  | some () => return .ok ()
  | none => return .error (.AllFailed attempts)

/-- `none` is a panic. -/
def run_cycle (pulser : Pulser) (max_attempts : UInt32) (mode : Mode)
    (param_override : Option Str) : DaemonM (Option (Except CycleError Unit)) := do
  let param ← pulser.resolve_param mode param_override
  match param with
  | none => return none
  | some (.error e) => return some (.error e)
  | some (.ok param) => do
    let bound ← socket_bind
    match bound with
    | some e => return some (.error (.io e))
    | none => do
      let connected ← socket_connect pulser.target.server_addr
      match connected with
      | some e => return some (.error (.io e))
      | none => do
        let result ← pulser.run_attempts (max max_attempts.toNat 1) mode param
        return some result

/-! ### What an attempt does to the network -/

/-- The datagrams that the socket took. -/
def departed (evs : List (Event client_ops)) : List Bytes :=
  evs.filterMap fun ev =>
    match ev with
    | ⟨.send datagram, true⟩ => some datagram
    | _ => none

/-- The waits for a CHALLENGE. -/
def waits (evs : List (Event client_ops)) : List Duration :=
  evs.filterMap fun ev =>
    match ev.op with
    | .recv timeout => some timeout
    | _ => none

/-- The nonces that were drawn. -/
def draws (evs : List (Event client_ops)) : List (ByteVec NONCE_LEN) :=
  evs.filterMap fun ev =>
    match ev with
    | ⟨.nonce_generate, nonce⟩ => some nonce
    | _ => none

@[simp] theorem departed_append (evs evs' : List (Event client_ops)) :
    departed (evs ++ evs') = departed evs ++ departed evs' := List.filterMap_append

@[simp] theorem waits_append (evs evs' : List (Event client_ops)) :
    waits (evs ++ evs') = waits evs ++ waits evs' := List.filterMap_append

@[simp] theorem draws_append (evs evs' : List (Event client_ops)) :
    draws (evs ++ evs') = draws evs ++ draws evs' := List.filterMap_append

/-- The datagram is the HELLO of a nonce. Its timestamp and its secret were read and drawn. -/
def Greeting (pulser : Pulser) (evs : List (Event client_ops)) (nonce : ByteVec NONCE_LEN)
    (session_secret : Option X25519Bytes) (datagram : Bytes) : Prop :=
  ∃ timestamp, ⟨.now_unix, timestamp⟩ ∈ evs ∧ Drawn session_secret evs ∧
    pulser.Framed (.Hello (pulser.hello timestamp (hello_nonce_of nonce))) datagram session_secret

/-- The datagram is the answer to a CHALLENGE that was received, and was read under the nonce and
    the secret of a HELLO. -/
def Answering (pulser : Pulser) (param : Option Str) (mode : Mode) (evs : List (Event client_ops))
    (nonce : ByteVec NONCE_LEN) (session_secret : Option X25519Bytes) (datagram : Bytes) : Prop :=
  ∃ timeout received challenge param_blob session_secret',
    ⟨.recv timeout, .received received⟩ ∈ evs ∧
    pulser.read_challenge received session_secret (hello_nonce_of nonce) = .ok challenge ∧
    pulser.SealedParam param param_blob ∧
    pulser.Framed (pulser.final_packet mode challenge param_blob) datagram session_secret'

/-- How an attempt ends: without a datagram, after its HELLO, or with the answer. -/
inductive AttemptEnds (pulser : Pulser) (param : Option Str) (timeout : Duration) (mode : Mode)
    (evs : List (Event client_ops)) : Except AttemptError Unit → Prop
  | unsent (e : AttemptError) (departed : departed evs = [])
    (waits : (waits evs).Sublist [timeout]) :
      AttemptEnds pulser param timeout mode evs (.error e)
  | unanswered (e : AttemptError) (nonce : ByteVec NONCE_LEN) (session_secret : Option X25519Bytes)
      (first : Bytes) (greeting : pulser.Greeting evs nonce session_secret first)
      (draws : draws evs = [nonce]) (departed : departed evs = [first])
      (waits : (waits evs).Sublist [timeout]) : AttemptEnds pulser param timeout mode evs (.error e)
  | answered (nonce : ByteVec NONCE_LEN) (session_secret : Option X25519Bytes)
      (first second : Bytes) (greeting : pulser.Greeting evs nonce session_secret first)
      (answering : pulser.Answering param mode evs nonce session_secret second)
      (draws : draws evs = [nonce]) (departed : departed evs = [first, second])
      (waits : waits evs = [timeout]) : AttemptEnds pulser param timeout mode evs (.ok ())

section attempts
variable {pulser : Pulser} {h : List (Event client_ops)} {packet : Packet}
variable {param : Option Str} {timeout : Duration} {mode : Mode}

/-- Nothing departs, no nonce is drawn and nothing is waited for. -/
def Unmoved (h h' : List (Event client_ops)) : Prop :=
  departed h' = departed h ∧ draws h' = draws h ∧ waits h' = waits h

/-- Sealing asks for random bytes only. -/
abbrev seals (o : ClientOp) : Prop := o = .seal_draws

theorem unmoved_of_seals {α : Type} {p : ClientM α} (hp : p.Uses seals) :
    Program.wp (Program.histories Anything) (fun _ h' => Unmoved h h') p h := by
  refine Program.wp_of_uses (J := fun h' => Unmoved h h') ?_ hp ⟨rfl, rfl, rfl⟩
  rintro h₁ _ r _ rfl ⟨hdeparted, hdraws, hwaits⟩ rfl
  refine ⟨trivial, ?_, ?_, ?_⟩
  · rw [departed_append, hdeparted]
    exact List.append_nil _
  · rw [draws_append, hdraws]
    exact List.append_nil _
  · rw [waits_append, hwaits]
    exact List.append_nil _

theorem frame_outbound_uses (packet_bytes : Bytes) :
    (pulser.frame_outbound packet_bytes).Uses seals := by
  unfold frame_outbound
  split
  · exact Program.uses_pure
  split
  · exact Program.uses_pure
  refine Program.uses_bind (Program.uses_perform rfl) fun draws => ?_
  dsimp only
  split
  · exact Program.uses_pure
  · exact Program.uses_pure

theorem seal_param_uses : (pulser.seal_param param).Uses seals := by
  cases param with
  | none => exact Program.uses_pure
  | some plaintext =>
    refine Program.uses_bind (Program.uses_perform rfl) fun draws => ?_
    dsimp only
    split
    · exact Program.uses_pure
    · exact Program.uses_pure

/-- A packet departs in its framing just when sending it succeeds. -/
theorem send_packet_departs : Program.wp (Program.histories Anything)
    (fun result h' => h ⊆ h' ∧ draws h' = draws h ∧ waits h' = waits h ∧
      match result with
      | .ok session_secret => ∃ datagram, pulser.Framed packet datagram session_secret ∧
          Drawn session_secret h' ∧ departed h' = departed h ++ [datagram]
      | .error _ => departed h' = departed h)
    (pulser.send_packet packet) h := by
  unfold send_packet
  refine Program.wp_seq (Program.wp_and frame_outbound_framed
    (unmoved_of_seals (frame_outbound_uses _))) fun framed h₁ hframed => ?_
  obtain ⟨⟨hsub, -, hframed⟩, hdeparted, hdraws, hwaits⟩ := hframed
  split
  · exact ⟨hsub, hdraws, hwaits, hdeparted⟩
  · rename_i datagram session_secret
    obtain ⟨hpacket, hdrawn⟩ := hframed datagram session_secret rfl
    refine Program.wp_histories_perform_bind.mpr fun ok => ⟨trivial, ?_⟩
    have hsub' : h ⊆ h₁ ++ [⟨.send datagram, ok⟩] :=
      List.Subset.trans hsub (List.subset_append_left _ _)
    have hdraws' : draws (h₁ ++ [⟨.send datagram, ok⟩]) = draws h := by
      rw [draws_append, hdraws]
      exact List.append_nil _
    have hwaits' : waits (h₁ ++ [⟨.send datagram, ok⟩]) = waits h := by
      rw [waits_append, hwaits]
      exact List.append_nil _
    cases ok with
    | true =>
      refine ⟨hsub', hdraws', hwaits', datagram, hpacket,
        hdrawn.mono (List.subset_append_left _ _), ?_⟩
      rw [departed_append, hdeparted]
      rfl
    | false =>
      refine ⟨hsub', hdraws', hwaits', ?_⟩
      rw [departed_append, hdeparted]
      exact List.append_nil _

theorem seal_param_sealed : Program.wp (Program.histories Anything)
    (fun result h' => h ⊆ h' ∧
      ∀ param_blob, result = .ok param_blob → pulser.SealedParam param param_blob)
    (pulser.seal_param param) h := by
  cases param with
  | none =>
    refine ⟨List.Subset.refl h, fun param_blob hresult => ?_⟩
    exact (Except.ok.inj hresult).symm
  | some plaintext =>
    refine Program.wp_histories_perform_bind.mpr fun draws => ⟨trivial, ?_⟩
    obtain ⟨eph_secret, nonce_bytes⟩ := draws
    dsimp only
    split
    · rename_i blob hblob
      refine ⟨List.subset_append_left _ _, fun param_blob hresult => ?_⟩
      obtain ⟨server_pub, kept, hpub, hseal⟩ := seal_param_ok hblob
      obtain rfl := secret_of_seal hseal
      exact ⟨server_pub, _, nonce_bytes, blob, hpub, (Except.ok.inj hresult).symm, hseal⟩
    · exact ⟨List.subset_append_left _ _, fun _ hresult => by cases hresult⟩

theorem Greeting.mono {evs evs' : List (Event client_ops)} {nonce : ByteVec NONCE_LEN}
    {session_secret : Option X25519Bytes} {datagram : Bytes}
    (hg : pulser.Greeting evs nonce session_secret datagram) (hsub : evs ⊆ evs') :
    pulser.Greeting evs' nonce session_secret datagram := by
  obtain ⟨timestamp, hread, hdrawn, hframed⟩ := hg
  exact ⟨timestamp, hsub hread, hdrawn.mono hsub, hframed⟩

theorem Answering.mono {evs evs' : List (Event client_ops)} {nonce : ByteVec NONCE_LEN}
    {session_secret : Option X25519Bytes} {datagram : Bytes}
    (ha : pulser.Answering param mode evs nonce session_secret datagram) (hsub : evs ⊆ evs') :
    pulser.Answering param mode evs' nonce session_secret datagram := by
  obtain ⟨timeout, received, challenge, param_blob, session_secret', hreceived, hrest⟩ := ha
  exact ⟨timeout, received, challenge, param_blob, session_secret', hsub hreceived, hrest⟩

/-- Whatever comes back, an attempt ends in one of the three ways. -/
theorem attempt_ends {evs : List (Event client_ops)} {result : Except AttemptError Unit}
    (hattempt : (pulser.attempt_once param timeout mode).Yields evs result) :
    pulser.AttemptEnds param timeout mode evs result := by
  refine hattempt.of_histories (P := Anything) (h := [])
    (Q := fun result evs => pulser.AttemptEnds param timeout mode evs result) ?_
  unfold attempt_once
  refine Program.wp_histories_perform_bind.mpr fun timestamp => ⟨trivial, ?_⟩
  refine Program.wp_histories_perform_bind.mpr fun nonce => ⟨trivial, ?_⟩
  refine Program.wp_seq send_packet_departs fun sent₁ h₁ hfirst => ?_
  obtain ⟨hsub₁, hdraws₁, hwaits₁, hfirst⟩ := hfirst
  have hdraws₁ : draws h₁ = [nonce] := by rw [hdraws₁]; rfl
  have hwaits₁ : waits h₁ = [] := by rw [hwaits₁]; rfl
  cases sent₁ with
  | error e => exact .unsent e (by rw [hfirst]; rfl) (by rw [hwaits₁]; exact List.nil_sublist _)
  | ok session_secret =>
    obtain ⟨first, hframed, hdrawn, hdeparted₁⟩ := hfirst
    have hdeparted₁ : departed h₁ = [first] := by rw [hdeparted₁]; rfl
    have hgreeting : pulser.Greeting h₁ nonce session_secret first :=
      ⟨timestamp, hsub₁ (by simp), hdrawn, hframed⟩
    unfold await_challenge
    refine Program.wp_bind.mpr (Program.wp_histories_perform_bind.mpr fun outcome =>
      ⟨trivial, ?_⟩)
    have hsub₂ : h₁ ⊆ h₁ ++ [⟨.recv timeout, outcome⟩] := List.subset_append_left _ _
    have hdraws₂ : draws (h₁ ++ [⟨.recv timeout, outcome⟩]) = [nonce] := by
      rw [draws_append, hdraws₁]
      rfl
    have hdeparted₂ : departed (h₁ ++ [⟨.recv timeout, outcome⟩]) = [first] := by
      rw [departed_append, hdeparted₁]
      rfl
    have hwaits₂ : waits (h₁ ++ [⟨.recv timeout, outcome⟩]) = [timeout] := by
      rw [waits_append, hwaits₁]
      rfl
    -- whatever goes wrong from here on leaves the HELLO as the only datagram
    have hunanswered {h' : List (Event client_ops)} (e : AttemptError) (hsub : h₁ ⊆ h')
        (hdraws : draws h' = [nonce]) (hdeparted : departed h' = [first])
        (hwaits : waits h' = [timeout]) : pulser.AttemptEnds param timeout mode h' (.error e) :=
      .unanswered e nonce session_secret first (hgreeting.mono hsub) hdraws hdeparted
        (by rw [hwaits])
    cases outcome with
    | failed => exact hunanswered _ hsub₂ hdraws₂ hdeparted₂ hwaits₂
    | timed_out => exact hunanswered _ hsub₂ hdraws₂ hdeparted₂ hwaits₂
    | received received =>
      dsimp only
      rw [Program.wp_pure]
      cases hread : pulser.read_challenge received session_secret (hello_nonce_of nonce) with
      | error e => exact hunanswered _ hsub₂ hdraws₂ hdeparted₂ hwaits₂
      | ok challenge =>
        unfold answer
        refine Program.wp_seq (Program.wp_and seal_param_sealed
          (unmoved_of_seals seal_param_uses)) fun param_blob h₃ hparam => ?_
        obtain ⟨⟨hsub₃, hsealed⟩, hdeparted₃, hdraws₃, hwaits₃⟩ := hparam
        rw [hdeparted₂] at hdeparted₃
        rw [hdraws₂] at hdraws₃
        rw [hwaits₂] at hwaits₃
        cases param_blob with
        | error e => exact hunanswered _ (List.Subset.trans hsub₂ hsub₃) hdraws₃ hdeparted₃ hwaits₃
        | ok param_blob =>
          refine Program.wp_seq send_packet_departs fun sent₂ h₄ hsecond => ?_
          obtain ⟨hsub₄, hdraws₄, hwaits₄, hsecond⟩ := hsecond
          rw [hdraws₃] at hdraws₄
          rw [hwaits₃] at hwaits₄
          have hsub := List.Subset.trans hsub₃ hsub₄
          cases sent₂ with
          | error e =>
            exact hunanswered _ (List.Subset.trans hsub₂ hsub) hdraws₄
              (hsecond.trans hdeparted₃) hwaits₄
          | ok session_secret' =>
            obtain ⟨second, hframed', -, hdeparted₄⟩ := hsecond
            rw [hdeparted₃] at hdeparted₄
            have hreceived : (⟨.recv timeout, .received received⟩ : Event client_ops) ∈ h₄ :=
              hsub (List.mem_append_right _ (List.mem_singleton.mpr rfl))
            exact .answered nonce session_secret first second
              (hgreeting.mono (List.Subset.trans hsub₂ hsub))
              ⟨timeout, received, challenge, param_blob, session_secret', hreceived, hread,
                hsealed param_blob rfl, hframed'⟩ hdraws₄ hdeparted₄ hwaits₄

end attempts

/-! ### What a cycle does to the network -/

/-- The operations of the attempts. -/
def attempt_events (evs : List (Event daemon_ops)) : List (Event client_ops) :=
  evs.filterMap fun ev =>
    match ev with
    | ⟨.client o, r⟩ => some ⟨o, r⟩
    | _ => none

@[simp] theorem attempt_events_append (evs evs' : List (Event daemon_ops)) :
    attempt_events (evs ++ evs') = attempt_events evs ++ attempt_events evs' :=
  List.filterMap_append

@[simp] theorem attempt_events_embedded (own : List (Event client_ops)) :
    attempt_events (own.map attempt_ops.event) = own := by
  unfold attempt_events
  rw [List.filterMap_map]
  exact List.filterMap_some

/-- The parameter is the explicit one, or what the command has printed, and it was validated. -/
def Resolved (pulser : Pulser) (evs : List (Event daemon_ops)) :
    Mode → (param_override : Option Str) → Option Str → Prop
  | _, some p, param => param = some p ∧ validate_param p pulser.target.param_max_len = .ok ()
  | .Release, none, param => param = none
  | .Renew, none, param =>
    match pulser.target.param_command with
    | none => param = none
    | some argv => ∃ status stdout text,
      ⟨.param_command argv pulser.target.param_command_timeout, .exited true status stdout⟩ ∈ evs ∧
      from_utf8 stdout = some text ∧ param = some (trim text) ∧
      validate_param (trim text) pulser.target.param_max_len = .ok ()

/-- How the parameter is resolved. -/
inductive ParamEnds (pulser : Pulser) (mode : Mode) (param_override : Option Str)
    (evs : List (Event daemon_ops)) : Option (Except CycleError (Option Str)) → Prop
  | panicked (command : pulser.target.param_command = some [])
      (pulse : mode = .Renew ∧ param_override = none) (unattempted : attempt_events evs = []) :
      ParamEnds pulser mode param_override evs none
  | failed (e : CycleError) (other : ∀ n, e ≠ .AllFailed n)
      (unattempted : attempt_events evs = []) :
      ParamEnds pulser mode param_override evs (some (.error e))
  | resolved (param : Option Str) (resolved : pulser.Resolved evs mode param_override param)
      (unattempted : attempt_events evs = []) :
      ParamEnds pulser mode param_override evs (some (.ok param))

/-- The datagrams are HELLOs, each with a nonce that was drawn for it. -/
def Greetings (pulser : Pulser) (evs : List (Event client_ops)) :
    List (ByteVec NONCE_LEN) → List Bytes → Prop :=
  List.Forall₂ fun nonce datagram =>
    ∃ session_secret, pulser.Greeting evs nonce session_secret datagram

/-- How a cycle of so many attempts ends. -/
inductive CycleEnds (pulser : Pulser) (attempts : Nat) (mode : Mode) (param_override : Option Str)
    (evs : List (Event daemon_ops)) : Option (Except CycleError Unit) → Prop
  /-- There is no program to run. -/
  | panicked (command : pulser.target.param_command = some [])
      (pulse : mode = .Renew ∧ param_override = none) (unattempted : attempt_events evs = []) :
      CycleEnds pulser attempts mode param_override evs none
  /-- There is no parameter, or no socket. -/
  | unprepared (e : CycleError) (other : ∀ n, e ≠ .AllFailed n)
      (unattempted : attempt_events evs = []) :
      CycleEnds pulser attempts mode param_override evs (some (.error e))
  | exhausted (nonces : List (ByteVec NONCE_LEN)) (hellos : List Bytes)
      (departed : departed (attempt_events evs) = hellos)
      (greetings : pulser.Greetings (attempt_events evs) nonces hellos)
      (draws : nonces.Sublist (draws (attempt_events evs))) (few : hellos.length ≤ attempts)
      (waits : (waits (attempt_events evs)).Sublist
        ((List.range attempts).map pulser.target.backoff)) :
      CycleEnds pulser attempts mode param_override evs (some (.error (.AllFailed attempts)))
  | answered (param : Option Str) (nonces : List (ByteVec NONCE_LEN)) (hellos : List Bytes)
      (nonce : ByteVec NONCE_LEN) (session_secret : Option X25519Bytes) (hello answer : Bytes)
      (resolved : pulser.Resolved evs mode param_override param)
      (departed : departed (attempt_events evs) = hellos ++ [hello, answer])
      (greetings : pulser.Greetings (attempt_events evs) nonces hellos)
      (draws : (nonces ++ [nonce]).Sublist (draws (attempt_events evs)))
      (few : hellos.length < attempts)
      (greeting : pulser.Greeting (attempt_events evs) nonce session_secret hello)
      (answering : pulser.Answering param mode (attempt_events evs) nonce session_secret answer)
      (waits : (waits (attempt_events evs)).Sublist
        ((List.range attempts).map pulser.target.backoff)) :
      CycleEnds pulser attempts mode param_override evs (some (.ok ()))

section cycles
variable {pulser : Pulser} {param : Option Str} {mode : Mode} {attempts : Nat}

theorem Greetings.mono {evs evs' : List (Event client_ops)} {nonces : List (ByteVec NONCE_LEN)}
    {hellos : List Bytes} (h : pulser.Greetings evs nonces hellos) (hsub : evs ⊆ evs') :
    pulser.Greetings evs' nonces hellos :=
  h.imp fun _ _ ⟨session_secret, hgreeting⟩ => ⟨session_secret, hgreeting.mono hsub⟩

theorem Resolved.mono {evs evs' : List (Event daemon_ops)} {param_override : Option Str}
    (h : pulser.Resolved evs mode param_override param) (hsub : evs ⊆ evs') :
    pulser.Resolved evs' mode param_override param := by
  cases param_override with
  | some p => cases mode <;> exact h
  | none =>
    cases mode with
    | Release => exact h
    | Renew =>
      cases hcommand : pulser.target.param_command with
      | none =>
        simp only [Resolved, hcommand] at h ⊢
        exact h
      | some argv =>
        simp only [Resolved, hcommand] at h ⊢
        obtain ⟨status, stdout, text, hexited, hrest⟩ := h
        exact ⟨status, stdout, text, hsub hexited, hrest⟩

theorem retry_timeout_succ {t : ServerTarget} (hmax : t.retry_max ≤ Duration.MAX) (n : Nat) :
    t.retry_timeout (1 + n) = t.backoff n := by
  have hshift : ∀ k : Fin 32, ((1 : UInt32) <<< UInt32.ofNat k.val).toNat = 2 ^ k.val := by decide
  have hpow := hshift ⟨min n 31, by omega⟩
  unfold ServerTarget.retry_timeout ServerTarget.backoff Duration.saturating_mul
  rw [Nat.add_sub_cancel_left, hpow, Nat.min_assoc, Nat.min_eq_right hmax]

/-- What the failed attempts have sent, drawn and waited for. -/
theorem failures_greet {failed : List (Nat × List (Event daemon_ops))}
    (hfailed : Program.Failures (fun attempt => (pulser.attempt_once param
      (pulser.target.retry_timeout attempt) mode).embed attempt_ops) failed) :
    ∃ nonces, nonces.Sublist (draws (attempt_events (failed.map Prod.snd).flatten)) ∧
      pulser.Greetings (attempt_events (failed.map Prod.snd).flatten) nonces
        (departed (attempt_events (failed.map Prod.snd).flatten)) ∧
      (departed (attempt_events (failed.map Prod.snd).flatten)).length ≤ failed.length ∧
      (waits (attempt_events (failed.map Prod.snd).flatten)).Sublist
        (failed.map fun x => pulser.target.retry_timeout x.1) := by
  induction failed with
  | nil => exact ⟨[], List.Sublist.refl _, .nil, Nat.le_refl 0, List.Sublist.refl _⟩
  | cons x failed ih =>
    obtain ⟨⟨e, hx⟩, hfailed⟩ := List.forall_mem_cons.mp hfailed
    obtain ⟨nonces, hdraws, hgreetings, hfew, hwaits⟩ := ih hfailed
    obtain ⟨own, hown, hattempt⟩ := Program.yields_embed.mp hx
    simp only [List.map_cons, List.flatten_cons, attempt_events_append, hown,
      attempt_events_embedded, draws_append, departed_append, waits_append, List.length_cons]
    have hsub := List.subset_append_right own (attempt_events (failed.map Prod.snd).flatten)
    have hends := attempt_ends hattempt
    -- an attempt that failed has sent its HELLO, or not even that
    cases hends with
    | unsent _ hnone hwaited =>
      refine ⟨nonces, hdraws.trans (List.sublist_append_right _ _), ?_, ?_, ?_⟩
      · rw [hnone]
        exact hgreetings.mono hsub
      · rw [hnone]
        exact hfew.trans (Nat.le_succ _)
      · exact hwaited.append hwaits
    | unanswered _ nonce session_secret first hgreeting hdrawn hfirst hwaited =>
      refine ⟨nonce :: nonces, ?_, ?_, ?_, ?_⟩
      · rw [hdrawn]
        exact hdraws.cons_cons nonce
      · rw [hfirst]
        exact .cons ⟨session_secret, hgreeting.mono (List.subset_append_left _ _)⟩
          (hgreetings.mono hsub)
      · rw [hfirst]
        exact Nat.succ_le_succ hfew
      · exact hwaited.append hwaits

theorem generate_param_ends : Program.wp (Program.histories fun _ _ => True)
    (fun param evs => pulser.ParamEnds .Renew none evs param) pulser.generate_param [] := by
  unfold generate_param
  split
  · rename_i hnone
    exact .resolved none (by simp only [Resolved, hnone]) rfl
  · rename_i hempty
    exact .panicked hempty ⟨rfl, rfl⟩ rfl
  · rename_i program args hcommand
    refine Program.wp_histories_perform_bind.mpr fun outcome => ⟨trivial, ?_⟩
    cases outcome with
    | spawn_failed e => exact .failed (.Spawn e) nofun rfl
    | failed e => exact .failed (.Command e) nofun rfl
    | timed_out => exact .failed .CommandTimedOut nofun rfl
    | exited success status stdout =>
      cases success with
      | false => exact .failed (.Exited status) nofun rfl
      | true =>
        simp only [Bool.not_true, Bool.false_eq_true, if_false]
        split
        · exact .failed .NotUtf8 nofun rfl
        rename_i text htext
        split
        · rename_i e hinvalid
          exact .failed (.param e) nofun rfl
        · rename_i hvalid
          refine .resolved (some (trim text)) ?_ rfl
          simp only [Resolved, hcommand]
          exact ⟨status, stdout, text, List.mem_singleton.mpr rfl, htext, rfl, hvalid⟩

theorem resolve_param_ends (param_override : Option Str) :
    Program.wp (Program.histories fun _ _ => True)
      (fun param evs => pulser.ParamEnds mode param_override evs param)
      (pulser.resolve_param mode param_override) [] := by
  cases param_override with
  | some p =>
    simp only [resolve_param]
    split
    · rename_i e hinvalid
      exact .failed (.param e) nofun rfl
    · rename_i hvalid
      exact .resolved (some p) (by cases mode <;> exact ⟨rfl, hvalid⟩) rfl
  | none =>
    cases mode with
    | Renew => exact generate_param_ends
    | Release => exact .resolved none rfl rfl

/-- The attempts of a cycle whose parameter was resolved and whose socket is connected. -/
theorem run_attempts_ends (hmax : pulser.target.retry_max ≤ Duration.MAX)
    {param_override : Option Str} {before evs : List (Event daemon_ops)}
    {result : Except CycleError Unit}
    (hresolved : pulser.Resolved before mode param_override param)
    (hbefore : attempt_events before = [])
    (h : (pulser.run_attempts attempts mode param).Yields evs result) :
    pulser.CycleEnds attempts mode param_override (before ++ evs) (some result) := by
  unfold run_attempts at h
  obtain ⟨tried, rest, answered, rfl, htried, hrest⟩ := Program.yields_bind.mp h
  have hschedule : (List.range' 1 attempts).map pulser.target.retry_timeout =
      (List.range attempts).map pulser.target.backoff := by
    rw [List.range'_eq_map_range, List.map_map]
    exact List.map_congr_left fun n _ => retry_timeout_succ hmax n
  obtain ⟨failed, hfailed, hends⟩ := Program.yields_first_ok.mp htried
  obtain ⟨nonces, hdraws, hgreetings, hfew, hwaits⟩ := failures_greet hfailed
  rcases hends with ⟨rfl, hall, rfl⟩ | ⟨attempt, later, last, ⟨⟩, rfl, hall, rfl,
    hlast⟩
  · -- every attempt has failed
    obtain ⟨rfl, rfl⟩ := Program.yields_pure.mp hrest
    have hevs : attempt_events (before ++ ((failed.map Prod.snd).flatten ++ [])) =
        attempt_events (failed.map Prod.snd).flatten := by
      rw [attempt_events_append, hbefore, List.append_nil, List.nil_append]
    have hlength : failed.length = attempts := by simpa using (congrArg List.length hall).symm
    refine .exhausted nonces _ rfl ?_ ?_ ?_ ?_
    · rw [hevs]
      exact hgreetings
    · rw [hevs]
      exact hdraws
    · rw [hevs, ← hlength]
      exact hfew
    · rw [hevs, ← hschedule, hall, List.map_map]
      exact hwaits
  · -- the last one has succeeded
    obtain ⟨rfl, rfl⟩ := Program.yields_pure.mp hrest
    obtain ⟨own, rfl, hattempt⟩ := Program.yields_embed.mp hlast
    have hevs : attempt_events (before ++ ((failed.map Prod.snd).flatten ++
        own.map attempt_ops.event ++ [])) =
        attempt_events (failed.map Prod.snd).flatten ++ own := by
      rw [attempt_events_append, hbefore, List.append_nil, List.nil_append,
        attempt_events_append, attempt_events_embedded]
    have hlength : failed.length < attempts := by
      have := congrArg List.length hall
      simp only [List.length_range', List.length_append, List.length_map, List.length_cons] at this
      omega
    have hleft := List.subset_append_left (attempt_events (failed.map Prod.snd).flatten) own
    have hright := List.subset_append_right (attempt_events (failed.map Prod.snd).flatten) own
    cases attempt_ends hattempt with
    | answered nonce session_secret hello answer hgreeting hanswering hdrawn hdeparted hwaited =>
      refine .answered param nonces (departed (attempt_events (failed.map Prod.snd).flatten)) nonce
        session_secret hello answer ?_ ?_ ?_ ?_ ?_ ?_ ?_ ?_
      · exact hresolved.mono (List.subset_append_left _ _)
      · rw [hevs, departed_append, hdeparted]
      · rw [hevs]
        exact hgreetings.mono hleft
      · rw [hevs, draws_append, hdrawn]
        exact hdraws.append (List.Sublist.refl _)
      · exact lt_of_le_of_lt hfew hlength
      · rw [hevs]
        exact hgreeting.mono hright
      · rw [hevs]
        exact hanswering.mono hright
      · rw [hevs, waits_append, hwaited, ← hschedule, hall, List.map_append, List.map_cons,
          List.map_map]
        exact hwaits.append (List.singleton_sublist.mpr List.mem_cons_self)

/-- How a cycle that resolves its parameter, connects its socket and makes its attempts ends. -/
theorem run_cycle_ends (hmax : pulser.target.retry_max ≤ Duration.MAX)
    {max_attempts : UInt32} {param_override : Option Str} {evs : List (Event daemon_ops)}
    {result : Option (Except CycleError Unit)}
    (h : (pulser.run_cycle max_attempts mode param_override).Yields evs result) :
    pulser.CycleEnds (max max_attempts.toNat 1) mode param_override evs result := by
  unfold run_cycle at h
  obtain ⟨before, rest, param, rfl, hparam, hrest⟩ := Program.yields_bind.mp h
  have hends := hparam.of_histories (resolve_param_ends param_override)
  rw [List.nil_append] at hends
  cases hends with
  | panicked hcommand hpulse hquiet =>
    obtain ⟨rfl, rfl⟩ := Program.yields_pure.mp hrest
    exact .panicked hcommand hpulse (by rw [List.append_nil, hquiet])
  | failed e hother hquiet =>
    obtain ⟨rfl, rfl⟩ := Program.yields_pure.mp hrest
    exact .unprepared e hother (by rw [List.append_nil, hquiet])
  | resolved param hresolved hquiet =>
    -- the socket is bound and connected, or the cycle ends with an error
    obtain ⟨bound, rest₁, rfl, hbound⟩ := Program.yields_perform_bind.mp hrest
    cases bound with
    | some e =>
      obtain ⟨rfl, rfl⟩ := Program.yields_pure.mp hbound
      exact .unprepared (.io e) nofun (by rw [attempt_events_append, hquiet]; rfl)
    | none =>
      obtain ⟨connected, rest₂, rfl, hconnected⟩ := Program.yields_perform_bind.mp hbound
      cases connected with
      | some e =>
        obtain ⟨rfl, rfl⟩ := Program.yields_pure.mp hconnected
        exact .unprepared (.io e) nofun (by rw [attempt_events_append, hquiet]; rfl)
      | none =>
        obtain ⟨tried, last, result, rfl, htried, hlast⟩ := Program.yields_bind.mp hconnected
        obtain ⟨rfl, rfl⟩ := Program.yields_pure.mp hlast
        -- nothing of an attempt has happened yet
        have hbefore : attempt_events (before ++ [⟨.socket_bind, none⟩,
            ⟨.socket_connect pulser.target.server_addr, none⟩]) = [] := by
          rw [attempt_events_append, hquiet]
          rfl
        have hruns := run_attempts_ends hmax (hresolved.mono (List.subset_append_left _ _)) hbefore
          htried
        rwa [List.append_assoc, ← List.append_nil tried] at hruns

/-- A cycle sends a HELLO for each attempt, and one datagram more. -/
theorem CycleEnds.departed_le {param_override : Option Str} {evs : List (Event daemon_ops)}
    {result : Option (Except CycleError Unit)}
    (h : pulser.CycleEnds attempts mode param_override evs result) :
    (departed (attempt_events evs)).length ≤ attempts + 1 := by
  cases h with
  | panicked _ _ hnone =>
    rw [hnone]
    exact Nat.zero_le _
  | unprepared _ _ hnone =>
    rw [hnone]
    exact Nat.zero_le _
  | exhausted _ _ hdeparted _ _ hfew _ =>
    rw [hdeparted]
    omega
  | answered _ _ _ _ _ _ _ _ hdeparted _ _ hfew _ _ _ =>
    rw [hdeparted, List.length_append, List.length_cons, List.length_singleton]
    omega

/-- A cycle waits for its CHALLENGEs no longer than all backoffs together. -/
theorem CycleEnds.waits_le {param_override : Option Str} {evs : List (Event daemon_ops)}
    {result : Option (Except CycleError Unit)}
    (h : pulser.CycleEnds attempts mode param_override evs result) :
    (waits (attempt_events evs)).sum ≤
      ((List.range attempts).map pulser.target.backoff).sum := by
  have hschedule {waited : List Duration}
      (hsub : waited.Sublist ((List.range attempts).map pulser.target.backoff)) :
      waited.sum ≤ ((List.range attempts).map pulser.target.backoff).sum :=
    hsub.sum_le_sum fun _ _ => Nat.zero_le _
  cases h with
  | panicked _ _ hnone =>
    rw [hnone]
    exact Nat.zero_le _
  | unprepared _ _ hnone =>
    rw [hnone]
    exact Nat.zero_le _
  | exhausted _ _ _ _ _ _ hwaits => exact hschedule hwaits
  | answered _ _ _ _ _ _ _ _ _ _ _ _ _ _ hwaits => exact hschedule hwaits

/-- Whatever comes back, a cycle makes its attempts with one parameter, one HELLO and one wait each,
    until it has answered a CHALLENGE: an answer is sent once, and just when the cycle succeeds. So
    its datagrams are bounded by its attempts, and its waiting by the backoff. -/
theorem cycle_answers_once (hmax : pulser.target.retry_max ≤ Duration.MAX)
    {max_attempts : UInt32} {param_override : Option Str} {evs : List (Event daemon_ops)}
    {result : Option (Except CycleError Unit)}
    (h : (pulser.run_cycle max_attempts mode param_override).Yields evs result) :
    pulser.CycleEnds (max max_attempts.toNat 1) mode param_override evs result ∧
      (departed (attempt_events evs)).length ≤ max max_attempts.toNat 1 + 1 ∧
      (waits (attempt_events evs)).sum ≤
        ((List.range (max max_attempts.toNat 1)).map pulser.target.backoff).sum := by
  have hends := run_cycle_ends hmax h
  exact ⟨hends, hends.departed_le, hends.waits_le⟩

end cycles

/-- What a cycle of client 1 is given: no CHALLENGE within a second, but one within two. -/
def late_answer : (o : DaemonOp) → o.Res
  | .client (.recv timeout) =>
    if timeout = 1000000000 then .timed_out
    else .received (Packet.Challenge sample_challenge).encode
  | .client o => Server.meeting_answer o
  | .param_command .. => .timed_out
  | .socket_bind => none
  | .socket_connect _ => none
  | .leg_update .. => ()
  | .sleep _ => ()
  | .status_clone => ∅
  | .write_snapshot _ => ()

/-- The second attempt is answered after the first has timed out. -/
theorem cycle_answers_once_late :
    ∃ evs, (Server.meeting_pulser.run_cycle 3 .Renew none).Yields evs (some (.ok ())) ∧
      waits (attempt_events evs) = [1000000000, 2000000000] ∧
      (departed (attempt_events evs)).length = 3 ∧
      Server.meeting_pulser.CycleEnds 3 .Renew none evs (some (.ok ())) := by
  have hrun : (Server.meeting_pulser.run_cycle 3 .Renew none).Yields
      ((Server.meeting_pulser.run_cycle 3 .Renew none).follow late_answer).1 (some (.ok ())) :=
    Program.yields_follow late_answer (Server.meeting_pulser.run_cycle 3 .Renew none)
  exact ⟨_, hrun, by decide +kernel, by decide +kernel, (cycle_answers_once (by decide) hrun).1⟩

end Pulser
end SignedPulse
