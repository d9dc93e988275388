import SignedPulse.Framework.Observation
import SignedPulse.Server.Moments
import SignedPulse.Server.Spending

/-! # What a stranger can see

    A packet that names an unknown client and one that names a known client
    under a signature that is not its own take different branches. This file
    compares a server with one that has another client besides, in runs in
    which nobody has that client's signature. Apart from clock readings, peeks
    at a nonce, signature checks and the status, which stay inside, both servers
    do the same: the same replies, hooks and gate decisions.
-/

namespace SignedPulse

open Interleaving

/-- The client that a packet names. -/
def Packet.client_id : Packet → ClientId
  | .Hello hello => hello.client_id
  | .Challenge challenge => challenge.client_id
  | .Response resp => resp.client_id
  | .Bye bye => bye.client_id

namespace Server

/-- The server, with one more client in its configuration. -/
def listing (srv : Server) (id : ClientId) (info : ClientInfo) : Server :=
  { srv with clients := AList.insert id info srv.clients }

/-- The packet that a task handles names the client. -/
def Names (srv : Server) (id : ClientId) (job : Job) : Prop :=
  ∃ packet peer, srv.packet_from job = some (packet, peer) ∧ packet.client_id = id

/-- What cannot be seen: signature checks and the status, and when a packet names the client, also
    clock readings and peeks at a nonce. -/
def Hidden (srv : Server) (id : ClientId) (job : Job) : Op → Prop
  | .verify_payload_raw .. | .status_update _ => True
  | .now_unix | .nonce_validate .. => srv.Names id job
  | _ => False

/-- What is seen of a decision: when the operation took place, and all that was decided about its
    effect. -/
def plain_sight (srv : Server) (id : ClientId) : Observer ops Env (Instant × Env) State Job where
  hidden := srv.Hidden id
  fits d e s := s.now + e.elapsed = d.1 ∧ e = { d.2 with elapsed := e.elapsed }

/-- The outcome of a signature check is a matter of the signature. -/
def Gives (srv : Server) : (o : Op) → o.Res → Prop
  | .verify_payload_raw key payload signature, r =>
    r = srv.crypto.verify_payload_raw key payload signature
  | _, _ => True

/-- The packet in the datagram, if it names the client, has no signature of the client: not over its
    own fields, whatever the expiry. -/
def Unsigned (srv : Server) (id : ClientId) (key : VerifyingKey) (data : Bytes) : Prop :=
  ∀ packet reply, srv.packet_of data = some (packet, reply) → packet.client_id = id →
    match packet with
    | .Hello hello =>
      srv.crypto.verify_payload_raw key (srv.hello_payload hello) hello.signature ≠ .ok ()
    | .Challenge _ => True
    | .Response resp => ∀ expires, srv.crypto.verify_payload_raw key
      (resp.credential.message srv.config.server_id expires) resp.signature ≠ .ok ()
    | .Bye bye => ∀ expires, srv.crypto.verify_payload_raw key
      (bye.credential.message srv.config.server_id expires) bye.signature ≠ .ok ()

/-! ### Programs -/

section programs
variable {srv : Server} {id : ClientId} {info : ClientInfo} {job : Job} {peer : SocketAddr}

theorem lookup_listing_self : AList.lookup id (srv.listing id info).clients = some info :=
  AList.lookup_insert _

theorem lookup_listing_ne {id' : ClientId} (h : id' ≠ id) :
    AList.lookup id' (srv.listing id info).clients = AList.lookup id' srv.clients :=
  AList.lookup_insert_ne h

/-- A program that deals with no packet of the client is like itself. -/
theorem alike_refl {α : Type} (hother : ¬ srv.Names id job) (p : ServerM α) :
    Alike (I := ops) (srv.Hidden id job) srv.Gives Eq p p := by
  refine Alike.refl ?_ p
  intro o ho r r' hr hr'
  cases o
  case verify_payload_raw => exact hr.trans hr'.symm
  case status_update => rfl
  case now_unix => exact absurd ho hother
  case nonce_validate => exact absurd ho hother
  all_goals exact ho.elim

theorem note_rejected_alike (replay replay' : Bool) :
    Alike (I := ops) (srv.Hidden id job) srv.Gives Eq (note_rejected replay)
      (note_rejected replay') := by
  unfold note_rejected
  refine Alike.left_bind trivial fun _ _ => Alike.right_bind trivial fun _ _ => ?_
  exact .call not_false fun _ => .pure rfl

/-- The gates in front of a handler, and its permit. -/
theorem receive_alike {data : Bytes}
    (h : Alike (I := ops) (srv.Hidden id job) srv.Gives Eq (srv.handle_datagram data peer)
      ((srv.listing id info).handle_datagram data peer)) :
    Alike (I := ops) (srv.Hidden id job) srv.Gives Eq (srv.receive data peer)
      ((srv.listing id info).receive data peer) := by
  have hpermit : Alike (I := ops) (srv.Hidden id job) srv.Gives Eq (srv.with_permit data peer)
      ((srv.listing id info).with_permit data peer) := by
    unfold with_permit
    refine Alike.perform_bind not_false fun permit => .ite (.pure rfl) (h.bind fun _ _ _ => ?_)
    exact .call not_false fun _ => .pure rfl
  unfold receive
  refine .ite (.pure rfl) (Alike.perform_bind not_false fun blocked => .ite (.pure rfl) ?_)
  refine Alike.perform_bind not_false fun attacked => .ite ?_ ?_
  · refine Alike.perform_bind not_false fun _ => Alike.perform_bind not_false fun active => ?_
    exact .ite (.call not_false fun _ => .pure rfl) hpermit
  · exact Alike.perform_bind not_false fun _ => hpermit

/-! ### Packets that name the client -/

/-- An unknown client and a bad signature are rejected alike. -/
theorem handle_hello_alike {hello : Hello} {reply : ReplyMode}
    (hnew : AList.lookup id srv.clients = none) (hid : hello.client_id = id)
    (hunsigned : srv.crypto.verify_payload_raw info.verifying_key (srv.hello_payload hello)
      hello.signature ≠ .ok ()) :
    Alike (I := ops) (srv.Hidden id job) srv.Gives Eq (srv.handle_hello hello peer reply)
      ((srv.listing id info).handle_hello hello peer reply) := by
  unfold handle_hello
  rw [hid, hnew, lookup_listing_self]
  refine Alike.perform_bind not_false fun allowed => .ite (note_rejected_alike _ _) ?_
  refine Alike.left_bind trivial fun _ _ => Alike.right_bind trivial fun r hr => ?_
  cases r with
  | error e => exact note_rejected_alike _ _
  | ok u => exact absurd hr.symm hunsigned

/-- Neither server lets the credential through. -/
theorem verify_and_consume_alike {cr : Credential} (hnew : AList.lookup id srv.clients = none)
    (hid : cr.client_id = id) (hjob : srv.Names id job)
    (hunsigned : ∀ expires, srv.crypto.verify_payload_raw info.verifying_key
      (cr.message srv.config.server_id expires) cr.signature ≠ .ok ()) :
    Alike (I := ops) (srv.Hidden id job) srv.Gives (fun a b => a = none ∧ b = none)
      (srv.verify_and_consume cr.payload cr.client_id cr.nonce cr.interval_seconds cr.param
        cr.signature peer)
      ((srv.listing id info).verify_and_consume cr.payload cr.client_id cr.nonce
        cr.interval_seconds cr.param cr.signature peer) := by
  have hrejected (replay replay' : Bool) :
      Alike (I := ops) (srv.Hidden id job) srv.Gives (fun a b => a = none ∧ b = none)
        (do note_rejected replay; return (none : Option Str))
        (do note_rejected replay'; return (none : Option Str)) :=
    (note_rejected_alike replay replay').bind fun _ _ _ => .pure ⟨rfl, rfl⟩
  unfold verify_and_consume
  rw [hid, hnew, lookup_listing_self]
  refine Alike.left_bind trivial fun _ _ => ?_
  refine Alike.right_bind hjob fun now _ => Alike.right_bind hjob fun entry _ => ?_
  cases entry with
  | error e => exact hrejected _ _
  | ok entry =>
    refine Alike.right_bind trivial fun r hr => ?_
    cases r with
    | error e => exact hrejected _ _
    | ok u =>
      rw [← hid] at hr
      exact absurd hr.symm (hunsigned entry.expires_at_unix)

/-! ### Other packets -/

theorem handle_hello_other {hello : Hello} {reply : ReplyMode} (hid : hello.client_id ≠ id) :
    (srv.listing id info).handle_hello hello peer reply = srv.handle_hello hello peer reply := by
  unfold handle_hello
  rw [lookup_listing_ne hid]
  rfl

theorem verify_and_consume_other {cr : Credential} (hid : cr.client_id ≠ id) :
    (srv.listing id info).verify_and_consume cr.payload cr.client_id cr.nonce cr.interval_seconds
        cr.param cr.signature peer =
      srv.verify_and_consume cr.payload cr.client_id cr.nonce cr.interval_seconds cr.param
        cr.signature peer := by
  unfold verify_and_consume
  rw [lookup_listing_ne hid]
  rfl

/-- The name in the status is all that may differ. -/
theorem run_revoke_alike (hother : ¬ srv.Names id job) (name name' : Str) (call : HookCall) :
    Alike (I := ops) (srv.Hidden id job) srv.Gives Eq (run_revoke name call)
      (run_revoke name' call) := by
  unfold run_revoke
  refine (alike_refl hother (execute .revoke call)).bind ?_
  rintro result _ rfl
  cases result with
  | error e => exact .pure rfl
  | ok result =>
    refine Alike.perform_bind hother fun at_unix => ?_
    exact .left trivial fun _ _ => .right trivial fun _ _ => .pure rfl

theorem handle_bye_alike {bye : Bye} (hother : ¬ srv.Names id job) (hid : bye.client_id ≠ id) :
    Alike (I := ops) (srv.Hidden id job) srv.Gives Eq (srv.handle_bye bye peer)
      ((srv.listing id info).handle_bye bye peer) := by
  have hverify : (srv.listing id info).verify_and_consume bye_signing_payload bye.client_id
      bye.nonce bye.interval_seconds bye.param bye.signature peer =
      srv.verify_and_consume bye_signing_payload bye.client_id bye.nonce bye.interval_seconds
        bye.param bye.signature peer :=
    @verify_and_consume_other srv id info peer bye.credential hid
  unfold handle_bye
  rw [hverify]
  refine (alike_refl hother _).bind ?_
  rintro verified _ rfl
  cases verified with
  | none => exact .pure rfl
  | some name =>
    refine (alike_refl hother (srv.decrypt_param bye.param)).bind ?_
    rintro r _ rfl
    cases r with
    | error u => exact .pure rfl
    | ok bye_param =>
      refine Alike.perform_bind not_false fun released => ?_
      cases released with
      | none => exact .pure rfl
      | some ended => exact .ite (.pure rfl) (run_revoke_alike hother _ _ _)

theorem handle_response_other {resp : Response} (hid : resp.client_id ≠ id) :
    (srv.listing id info).handle_response resp peer = srv.handle_response resp peer := by
  have hverify : (srv.listing id info).verify_and_consume response_signing_payload resp.client_id
      resp.nonce resp.interval_seconds resp.param resp.signature peer =
      srv.verify_and_consume response_signing_payload resp.client_id resp.nonce
        resp.interval_seconds resp.param resp.signature peer :=
    @verify_and_consume_other srv id info peer resp.credential hid
  unfold handle_response
  rw [hverify]
  rfl

theorem cleanup_alike (hother : ¬ srv.Names id job) :
    Alike (I := ops) (srv.Hidden id job) srv.Gives Eq srv.cleanup
      (srv.listing id info).cleanup := by
  unfold cleanup
  refine Alike.perform_bind hother fun now => ?_
  iterate 6 refine Alike.perform_bind not_false fun _ => ?_
  unfold run_lease_scan
  refine Alike.perform_bind not_false fun expired => .ite (.pure rfl) ?_
  exact Alike.each (fun x => run_revoke_alike hother _ _ _) expired

/-! ### Tasks -/

theorem handle_datagram_alike {data : Bytes} (hnew : AList.lookup id srv.clients = none)
    (hunsigned : srv.Unsigned id info.verifying_key data) :
    Alike (I := ops) (srv.Hidden id (.datagram data peer)) srv.Gives Eq
      (srv.handle_datagram data peer) ((srv.listing id info).handle_datagram data peer) := by
  have hfaulty : Alike (I := ops) (srv.Hidden id (.datagram data peer)) srv.Gives Eq
      (note_faulty peer.ip) (note_faulty peer.ip) := by
    unfold note_faulty
    refine (note_rejected_alike false false).bind fun _ _ _ => ?_
    exact Alike.perform_bind not_false fun _ => .pure rfl
  unfold handle_datagram
  rw [show (srv.listing id info).unwrap data = srv.unwrap data from rfl]
  cases hunwrap : srv.unwrap data with
  | none => exact .pure rfl
  | some opened =>
    cases opened with
    | error e => exact hfaulty
    | ok inner =>
      obtain ⟨packet_bytes, reply⟩ := inner
      dsimp only
      cases hdecode : Packet.decode packet_bytes with
      | error e => exact hfaulty
      | ok packet =>
        have hpacket : srv.packet_of data = some (packet, reply) := by
          simp [packet_of, hunwrap, hdecode, Except.toOption]
        have hfrom : srv.packet_from (.datagram data peer) = some (packet, peer) := by
          simp [packet_from, hpacket]
        have hunsigned := hunsigned packet reply hpacket
        -- only a packet that names the new client is handled in another way
        by_cases hid : packet.client_id = id
        · have hnames : srv.Names id (.datagram data peer) := ⟨packet, peer, hfrom, hid⟩
          -- the new client has not signed it, so it is rejected on both sides
          have hunsigned := hunsigned hid
          cases packet with
          | Hello hello => exact handle_hello_alike hnew hid hunsigned
          | Challenge challenge => exact note_rejected_alike _ _
          | Response resp =>
            have hverify := @verify_and_consume_alike _ _ _ _ peer resp.credential hnew hid hnames
              hunsigned
            refine hverify.bind ?_
            rintro _ _ ⟨rfl, rfl⟩
            exact .pure rfl
          | Bye bye =>
            have hverify := @verify_and_consume_alike _ _ _ _ peer bye.credential hnew hid hnames
              hunsigned
            refine hverify.bind ?_
            rintro _ _ ⟨rfl, rfl⟩
            exact .pure rfl
        · have hother : ¬ srv.Names id (.datagram data peer) := by
            rintro ⟨packet', peer', hfrom', hid'⟩
            obtain ⟨rfl, -⟩ := Prod.mk.inj (Option.some.inj (hfrom'.symm.trans hfrom))
            exact hid hid'
          cases packet with
          | Hello hello =>
            dsimp only
            -- the table of clients is looked up for the id of the packet only
            rw [handle_hello_other hid]
            exact alike_refl hother _
          | Challenge challenge => exact note_rejected_alike _ _
          | Response resp =>
            dsimp only
            rw [handle_response_other hid]
            exact alike_refl hother _
          | Bye bye => exact handle_bye_alike hother hid

/-- Each task of the two servers does the same in plain sight. -/
theorem prog_alike (hnew : AList.lookup id srv.clients = none)
    (hunsigned : ∀ data peer, job = .datagram data peer →
      srv.Unsigned id info.verifying_key data) :
    Alike (I := ops) (srv.Hidden id job) srv.Gives Eq (srv.prog job)
      ((srv.listing id info).prog job) := by
  cases job with
  | datagram data peer =>
    exact receive_alike (handle_datagram_alike hnew (hunsigned data peer rfl))
  | cleanup =>
    refine cleanup_alike ?_
    rintro ⟨packet, peer, hfrom, -⟩
    cases hfrom

end programs

/-! ### States -/

/-- The states differ in their clocks and in the status at most. -/
def SameTables (s s' : State) : Prop :=
  s' = { s with now := s'.now, unix := s'.unix, status := s'.status }

section states
variable {srv : Server} {id : ClientId} {info : ClientInfo} {job : Job} {o : Op} {e e' : Env}
variable {s s' : State} {d : Instant × Env}

theorem SameTables.symm (h : SameTables s s') : SameTables s' s := by
  unfold SameTables at h ⊢
  rw [h]

theorem SameTables.trans {s'' : State} (h : SameTables s s') (h' : SameTables s' s'') :
    SameTables s s'' := by
  unfold SameTables at h h' ⊢
  rw [h', h]

/-- The additional client does not show in any operation. -/
theorem machine_listing : (srv.listing id info).machine = srv.machine := rfl

/-- A hidden operation leaves the tables as they are. -/
theorem same_tables_hidden (ho : srv.Hidden id job o) : SameTables s (srv.perform o e s).2 := by
  cases o <;> first | rfl | exact ho.elim

/-- With the same decision, an operation does the same to the same tables. -/
theorem same_tables_visible (hd : (srv.plain_sight id).fits d e s)
    (hd' : (srv.plain_sight id).fits d e' s') (hs : SameTables s s') :
    (srv.perform o e s).1 = (srv.perform o e' s').1 ∧
      SameTables (srv.perform o e s).2 (srv.perform o e' s').2 := by
  obtain ⟨t, env⟩ := d
  obtain ⟨hnow, he⟩ := hd
  obtain ⟨hnow', he'⟩ := hd'
  obtain ⟨l, rfl⟩ : ∃ l, e = { env with elapsed := l } := ⟨_, he⟩
  obtain ⟨l', rfl⟩ : ∃ l, e' = { env with elapsed := l } := ⟨_, he'⟩
  obtain ⟨n, u, st, rfl⟩ : ∃ n u st, s' = { s with now := n, unix := u, status := st } :=
    ⟨_, _, _, hs⟩
  -- once time has passed, only the status differs
  dsimp only at hnow hnow'
  unfold perform tick
  dsimp only
  rw [hnow, hnow']
  cases o <;> exact ⟨rfl, rfl⟩

/-- A decision with the same look, at the other state's clock. -/
theorem fits_later (hd : (srv.plain_sight id).fits d e s) (hle : s'.now ≤ s.now) :
    ∃ e', (srv.plain_sight id).fits d e' s' := by
  obtain ⟨hnow, -⟩ := hd
  refine ⟨{ d.2 with elapsed := d.1 - s'.now }, ?_, rfl⟩
  have hlater : s'.now ≤ d.1 := hle.trans (hnow ▸ Nat.le_add_right _ _)
  exact Nat.add_sub_cancel' hlater

theorem coupling : Coupling srv.machine srv.machine (srv.plain_sight id) SameTables where
  left _ _ _ _ _ ho hs := (same_tables_hidden ho).symm.trans hs
  right _ _ _ _ _ ho hs := hs.trans (same_tables_hidden ho)
  both _ _ _ _ _ _ _ _ hd hd' hs := same_tables_visible hd hd' hs

/-- A server with the same tables and a clock that is not ahead can follow. -/
theorem simulation : Simulation srv.machine srv.machine (srv.plain_sight id)
    (fun s s' => SameTables s s' ∧ s'.now ≤ s.now) where
  left _ o e s s' ho hs := by
    refine ⟨(same_tables_hidden ho).symm.trans hs.1, ?_⟩
    rw [show (srv.machine.perform o e s).2.now = s.now + e.elapsed from perform_now]
    exact hs.2.trans (Nat.le_add_right _ _)
  idle _ o s s' ho hs := by
    -- no time passes
    let still : Env := { sample_env s'.unix 0 with elapsed := 0 }
    refine ⟨still, hs.1.trans (same_tables_hidden ho), ?_⟩
    rw [show (srv.machine.perform o still s').2.now = s'.now + still.elapsed from perform_now]
    exact hs.2
  both _ o d e s s' _ hd hs := by
    obtain ⟨e', hd'⟩ := fits_later hd hs.2
    obtain ⟨hres, htables⟩ := same_tables_visible hd hd' hs.1
    refine ⟨e', hd', hres, htables, ?_⟩
    rw [show (srv.machine.perform o e s).2.now = s.now + e.elapsed from perform_now,
      show (srv.machine.perform o e' s').2.now = s'.now + e'.elapsed from perform_now, hd.1, hd'.1]

theorem gives_crypto : Interleaving.Gives srv.machine srv.Gives := by
  intro o e s
  cases o <;> trivial

end states

/-! ### Whole runs -/

section runs
variable {srv : Server} {id : ClientId} {info : ClientInfo} {now : Instant} {unix : Int64}

/-- Two servers that differ in one client, under the same cues, with nobody who has that client's
    signature: whatever is seen of one can be seen of the other, and nothing else. -/
theorem client_not_disclosed (hnew : AList.lookup id srv.clients = none)
    {cues : List (Cue Job (Instant × Env))}
    (hunsigned : ∀ data peer, .begin (.datagram data peer) ∈ cues →
      srv.Unsigned id info.verifying_key data) :
    (∀ obs, (∃ c, Observed srv.machine srv.prog (srv.plain_sight id) (srv.start now unix) cues
      obs c) ↔
      ∃ c, Observed (srv.listing id info).machine (srv.listing id info).prog (srv.plain_sight id)
        ((srv.listing id info).start now unix) cues obs c) ∧
    ∀ obs obs' c c',
      Observed srv.machine srv.prog (srv.plain_sight id) (srv.start now unix) cues obs c →
      Observed (srv.listing id info).machine (srv.listing id info).prog (srv.plain_sight id)
        ((srv.listing id info).start now unix) cues obs' c' → obs = obs' := by
  have halike (job : Job) (hjob : .begin job ∈ cues) :
      Alike (I := ops) (srv.Hidden id job) srv.Gives Eq (srv.prog job)
        ((srv.listing id info).prog job) := by
    refine prog_alike hnew ?_
    rintro data peer rfl
    exact hunsigned data peer hjob
  have hstart : SameTables (srv.start now unix) ((srv.listing id info).start now unix) := rfl
  rw [machine_listing]
  refine ⟨fun obs => ⟨?_, ?_⟩, ?_⟩
  · rintro ⟨c, h⟩
    obtain ⟨c', h', -⟩ := simulation.observed_related gives_crypto gives_crypto halike
      ⟨hstart, Nat.le_refl _⟩ h
    exact ⟨c', h'⟩
  · rintro ⟨c, h⟩
    obtain ⟨c', h', -⟩ := simulation.observed_related gives_crypto gives_crypto
      (fun job hjob => (halike job hjob).symm) ⟨hstart.symm, Nat.le_refl _⟩ h
    exact ⟨c', h'⟩
  · intro obs obs' c c' h h'
    exact (coupling.observed_related gives_crypto gives_crypto halike hstart h h').1

end runs

/-- A server that lets no signature under the key of client 3 pass. -/
def wary : Server :=
  { sample with
    crypto :=
      { sample_crypto with verify_strict := fun key _ _ => decide (key.val.head? ≠ some 3) } }

/-- Client 3, whom that server does not list. -/
def third : ClientInfo where
  verifying_key := ⟨List.replicate 32 3, List.length_replicate⟩
  name := ['c']

/-- Client 1 says hello, and then somebody else does in the name of client 3. -/
def two_hellos : List (Label Env Job) :=
  sample_task 0 1 (.Hello (sample_hello 1 1000 1)) 14 (sample_env 1000 1) ++
  sample_task 1 3 (.Hello (sample_hello 3 1000 1)) 9 (sample_env 1000 0)

theorem unsigned_third (data : Bytes) :
    wary.Unsigned (sample_id 3) third.verifying_key data := by
  have hnever (payload : Bytes) (signature : ByteVec SIG_LEN) :
      wary.crypto.verify_payload_raw third.verifying_key payload signature ≠ .ok () := by
    intro hok
    cases hok
  intro packet reply _ _
  cases packet with
  | Hello hello => exact hnever _ _
  | Challenge challenge => trivial
  | Response resp => exact fun expires => hnever _ _
  | Bye bye => exact fun expires => hnever _ _

/-- A reply to client 1 and a rejection of the other one are seen of both servers. -/
theorem client_not_disclosed_hello : ∃ cues obs,
    (∃ x ∈ obs, x.2.op.area = .reply) ∧ (∃ x ∈ obs, x.1 = 1 ∧ x.2.op.area = .rate) ∧
    (∃ c, Observed wary.machine wary.prog (wary.plain_sight (sample_id 3)) (wary.start 0 1000) cues
      obs c) ∧
    ∃ c, Observed (wary.listing (sample_id 3) third).machine (wary.listing (sample_id 3) third).prog
      (wary.plain_sight (sample_id 3)) ((wary.listing (sample_id 3) third).start 0 1000) cues
        obs c := by
  have hrun : (record wary.machine wary.prog (init (wary.start 0 1000), []) two_hellos).any
      (fun t => t.1.log.any (fun x => decide (x.2.op.area = .reply)) &&
        t.1.log.any (fun x => decide (x.1 = 1 ∧ x.2.op.area = .rate))) = true := by
    decide +kernel
  obtain ⟨⟨c, ms⟩, ht, hcheck⟩ := (Option.any_eq_true _ _).mp hrun
  simp only [Bool.and_eq_true, List.any_eq_true, decide_eq_true_iff] at hcheck
  obtain ⟨⟨x, hx, hreply⟩, y, hy, hfirst, hrate⟩ := hcheck
  have hrec : Recorded wary.machine wary.prog (wary.start 0 1000) c ms :=
    record_sound (r := (c, ms)) .start ht
  obtain ⟨cues, obs, hobs⟩ := hrec.reachable.observed (v := wary.plain_sight (sample_id 3))
    fun e s => ⟨(s.now + e.elapsed, e), rfl, rfl⟩
  have hseen {z : Nat × Event ops} (hz : z ∈ c.log)
      (hopen : ∀ job, ¬ wary.Hidden (sample_id 3) job z.2.op) : z ∈ obs := by
    have htask := List.getElem?_eq_getElem (hrec.reachable.owned z hz)
    exact hobs.mem_obs.mpr ⟨hz, (sees_iff htask).mpr (hopen _)⟩
  refine ⟨cues, obs, ⟨x, hseen hx ?_, hreply⟩, ⟨y, hseen hy ?_, hfirst, hrate⟩, ⟨c, hobs⟩, ?_⟩
  · intro job hidden
    obtain ⟨i, o, r⟩ := x
    cases o <;> first | exact hidden | cases hreply
  · intro job hidden
    obtain ⟨i, o, r⟩ := y
    cases o <;> first | exact hidden | cases hrate
  · exact ((client_not_disclosed rfl fun data _ _ => unsigned_third data).1 obs).mp ⟨c, hobs⟩

end Server

end SignedPulse
