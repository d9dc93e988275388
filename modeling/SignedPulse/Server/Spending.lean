import SignedPulse.Server.Rules

/-! # What a handler has done before it acts

    A RESPONSE acts by its grant hook, a BYE by releasing the lease. This file
    is about single tasks: before a task acts it has validated the nonce of its
    packet, verified the signature over the stored expiry and consumed the
    nonce, and it acts once. A task that mints a nonce has verified a HELLO
    first, and whatever it sends is the CHALLENGE with that nonce.

    `prog_spend_demand` says so of every task; `SingleUse` puts the tasks
    together.
-/

namespace SignedPulse

/-! ### Credentials -/

/-- What authorises a RESPONSE or a BYE; `payload` is the kind of message that is signed. -/
structure Credential where
  payload : Str → Str → Str → UInt32 → Int64 → Str → Bytes
  client_id : ClientId
  nonce : ByteVec CHALLENGE_NONCE_LEN
  interval_seconds : UInt32
  param : Option Bytes
  signature : ByteVec SIG_LEN

def Response.credential (resp : Response) : Credential where
  payload := response_signing_payload
  client_id := resp.client_id
  nonce := resp.nonce
  interval_seconds := resp.interval_seconds
  param := resp.param
  signature := resp.signature

def Bye.credential (bye : Bye) : Credential where
  payload := bye_signing_payload
  client_id := bye.client_id
  nonce := bye.nonce
  interval_seconds := bye.interval_seconds
  param := bye.param
  signature := bye.signature

/-- The message that has to be signed when the nonce expires at `expires`. -/
def Credential.message (cr : Credential) (server_id : Str) (expires : Int64) : Bytes :=
  cr.payload server_id cr.client_id.to_hex (base64 cr.nonce.val) cr.interval_seconds expires
    ((cr.param.map base64).getD [])

namespace Server

/-- The credential that a task presents, and from where. -/
def credential_of (srv : Server) (job : Job) : Option (Credential × SocketAddr) :=
  match srv.packet_from job with
  | some (.Response resp, peer) => some (resp.credential, peer)
  | some (.Bye bye, peer) => some (bye.credential, peer)
  | _ => none

/-- The plaintext of a parameter, and that it was accepted. -/
def Decrypts (srv : Server) (blob : Option Bytes) (param : Option Str) : Prop :=
  match blob with
  | none => param = none
  | some blob => ∃ text, srv.open_param blob = some text ∧ param = some text

/-! ### Demands on single tasks -/

/-- The history shows all the checks of a credential that was presented from `peer`. -/
structure Checked (srv : Server) (cr : Credential) (peer : SocketAddr) (info : ClientInfo)
    (expires : Int64) (h : List (Event ops)) : Prop where
  known : AList.lookup cr.client_id srv.clients = some info
  validated : ∃ now entry, ⟨.nonce_validate cr.nonce.val cr.client_id.to_hex peer.ip peer.port now,
    .ok entry⟩ ∈ h ∧ entry.expires_at_unix = expires
  verified : ⟨.verify_payload_raw info.verifying_key (cr.message srv.config.server_id expires)
    cr.signature, .ok ()⟩ ∈ h
  consumed : ∃ now entry, ⟨.nonce_consume cr.nonce.val cr.client_id.to_hex peer.ip peer.port now,
    .ok entry⟩ ∈ h

theorem Checked.mono {srv : Server} {cr : Credential} {peer : SocketAddr} {info : ClientInfo}
    {expires : Int64} {h h' : List (Event ops)} (hchecked : Checked srv cr peer info expires h)
    (hsub : h ⊆ h') : Checked srv cr peer info expires h' where
  known := hchecked.known
  validated := by
    obtain ⟨now, entry, hmem, hexpires⟩ := hchecked.validated
    exact ⟨now, entry, hsub hmem, hexpires⟩
  verified := hsub hchecked.verified
  consumed := by
    obtain ⟨now, entry, hmem⟩ := hchecked.consumed
    exact ⟨now, entry, hsub hmem⟩

/-- The operations that a nonce is spent on. -/
def acts : Op → Bool
  | .hook_spawn .grant _ => true
  | .leases_release _ => true
  | _ => false

/-- The task has not acted yet. -/
def NotYet (h : List (Event ops)) : Prop := ∀ ev ∈ h, acts ev.op = false

/-- The task has verified the HELLO and drawn the nonce, and inserts it only now. -/
def Minted (srv : Server) (job : Job) (h : List (Event ops)) (nonce : Bytes) (client_id : Str)
    (ip : IpAddr) (port : UInt16) : Prop :=
  (∃ hello peer info key now ttl_seconds, srv.packet_from job = some (.Hello hello, peer) ∧
    AList.lookup hello.client_id srv.clients = some info ∧
    client_id = hello.client_id.to_hex ∧ ip = peer.ip ∧ port = peer.port ∧
    ⟨.verify_payload_raw info.verifying_key (srv.hello_payload hello) hello.signature, .ok ()⟩ ∈ h ∧
    ⟨.seen_insert_if_absent key now ttl_seconds, true⟩ ∈ h) ∧
  (∃ drawn : ByteVec NONCE_LEN, nonce = drawn.val ∧ ⟨.nonce_generate, drawn⟩ ∈ h) ∧
  ∀ ev ∈ h, ev.op.area ≠ .nonces

/-- The datagram is the packet, or the packet sealed. -/
def Carries (h : List (Event ops)) (datagram : Bytes) (packet : Packet) : Prop :=
  datagram = packet.encode ∨
    ∃ secret eph bind, ⟨.seal_reply secret eph packet.encode bind, .ok datagram⟩ ∈ h

/-- The datagram is the CHALLENGE with the nonce that the task has inserted. -/
def Replies (srv : Server) (job : Job) (h : List (Event ops)) (datagram : Bytes)
    (dest : SocketAddr) : Prop :=
  ∃ (hello : Hello) (peer : SocketAddr) (nonce : ByteVec CHALLENGE_NONCE_LEN) (expires : Int64),
    srv.packet_from job = some (.Hello hello, peer) ∧ dest = peer ∧
    ⟨.nonce_insert nonce.val hello.client_id.to_hex peer.ip peer.port expires, ()⟩ ∈ h ∧
    Carries h datagram (.Challenge ⟨hello.client_id, nonce, expires⟩)

/-- What has to precede an event of a task. -/
def SpendDemand (srv : Server) (job : Job) (h : List (Event ops)) (ev : Event ops) : Prop :=
  match ev.op with
  | .nonce_insert nonce client_id ip port _ => Minted srv job h nonce client_id ip port
  | .send_to datagram dest => Replies srv job h datagram dest
  | .hook_spawn .grant call =>
    (∃ resp peer info expires, srv.packet_from job = some (.Response resp, peer) ∧
      Checked srv resp.credential peer info expires h ∧ Decrypts srv resp.param call.param ∧
      call.client_id = resp.client_id.to_hex ∧ call.source_ip = peer.ip ∧
      call.source_port = peer.port) ∧ NotYet h
  | .leases_release client_id =>
    (∃ bye peer info expires param, srv.packet_from job = some (.Bye bye, peer) ∧
      Checked srv bye.credential peer info expires h ∧ Decrypts srv bye.param param ∧
      client_id = bye.client_id.to_hex) ∧ NotYet h
  | .hook_spawn .revoke call =>
    ∀ bye peer, srv.packet_from job = some (.Bye bye, peer) →
      ∃ param e remaining, Decrypts srv bye.param param ∧
        call = revoke_call e (param.or e.param) .bye remaining
  | _ => True

section rules
variable {srv : Server} {job : Job} {h : List (Event ops)}

theorem NotYet.snoc {ev : Event ops} (hyet : NotYet h) (hev : acts ev.op = false) :
    NotYet (h ++ [ev]) := by
  intro e he
  rcases List.mem_append.mp he with he | he
  · exact hyet e he
  · rwa [List.mem_singleton.mp he]

theorem acts_cases {o : Op} (h : acts o = true) :
    (∃ call, o = .hook_spawn .grant call) ∨ ∃ client_id, o = .leases_release client_id := by
  unfold acts at h
  split at h
  · exact .inl ⟨_, rfl⟩
  · exact .inr ⟨_, rfl⟩
  · cases h

/-- Only hooks and leases are acted on. -/
theorem acts_area {o : Op} (h : acts o = true) : o.area = .hook ∨ o.area = .leases :=
  (acts_cases h).imp (fun ⟨_, ho⟩ => ho ▸ rfl) (fun ⟨_, ho⟩ => ho ▸ rfl)

theorem spend_demand_of_area {ev : Event ops}
    (h₁ : ev.op.area ∉ [Area.nonces, .reply, .hook, .leases]) : srv.SpendDemand job h ev := by
  unfold SpendDemand
  split
  case h_6 => trivial
  all_goals
    rename_i hop
    simp [hop, Op.area] at h₁

/-- A program without nonces, replies, hooks and leases. -/
theorem spend_demand_of_touches {α : Type} {areas : List Area} {p : ServerM α}
    (hp : Touches areas p) (hareas : ∀ a ∈ areas, a ∉ [Area.nonces, .reply, .hook, .leases]) :
    Program.wp (Program.histories (srv.SpendDemand job))
      (fun _ h' => h ⊆ h' ∧ (NotYet h → NotYet h')) p h := by
  refine Program.wp_mono ?_ (hp.histories ?_)
  · rintro _ h' ⟨l, rfl, hl⟩
    refine ⟨List.subset_append_left _ _, fun hyet ev hev => ?_⟩
    rcases List.mem_append.mp hev with hev | hev
    · exact hyet ev hev
    · by_contra hacts
      have harea := hareas _ (hl ev hev)
      rcases acts_area (by simpa using hacts) with heq | heq <;> simp [heq] at harea
  · intro h ev hev
    exact spend_demand_of_area (hareas _ hev)

/-- Whatever such a program is followed by, the demand is met. -/
theorem spend_demand_idle {areas : List Area} {p : ServerM Unit} (hp : Touches areas p)
    (hareas : ∀ a ∈ areas, a ∉ [Area.nonces, .reply, .hook, .leases]) :
    Program.wp (Program.histories (srv.SpendDemand job)) (fun _ _ => True) p h :=
  Program.wp_mono (fun _ _ _ => trivial) (spend_demand_of_touches hp hareas)

end rules

/-! ### HELLO -/

section hello
variable {srv : Server} {job : Job} {h : List (Event ops)} {hello : Hello} {peer : SocketAddr}

theorem send_reply_spend {nonce : ByteVec CHALLENGE_NONCE_LEN} {expires : Int64}
    (hjob : srv.packet_from job = some (.Hello hello, peer))
    (hinsert : ⟨.nonce_insert nonce.val hello.client_id.to_hex peer.ip peer.port expires, ()⟩ ∈ h)
    (reply : ReplyMode) (bind : Bytes) :
    Program.wp (Program.histories (srv.SpendDemand job)) (fun _ _ => True)
      (srv.send_reply (.Challenge ⟨hello.client_id, nonce, expires⟩) peer reply bind) h := by
  unfold send_reply
  dsimp only
  split
  · refine Program.wp_histories_perform.mpr fun sent => ⟨?_, trivial⟩
    exact ⟨hello, peer, nonce, expires, hjob, rfl, hinsert, .inl rfl⟩
  · split
    · trivial
    · rename_i peer_eph _ secret _
      refine Program.wp_histories_perform_bind.mpr fun blob => ⟨trivial, ?_⟩
      split
      · rename_i blob
        refine Program.wp_histories_perform.mpr fun sent => ⟨?_, trivial⟩
        exact ⟨hello, peer, nonce, expires, hjob, rfl, List.mem_append_left _ hinsert,
          .inr ⟨secret, peer_eph, bind, List.mem_append_right _ (List.mem_singleton.mpr rfl)⟩⟩
      · trivial

theorem handle_hello_spend (hjob : srv.packet_from job = some (.Hello hello, peer))
    (hnonces : ∀ ev ∈ h, ev.op.area ≠ .nonces) (reply : ReplyMode) :
    Program.wp (Program.histories (srv.SpendDemand job)) (fun _ _ => True)
      (srv.handle_hello hello peer reply) h := by
  have hrejected (replay : Bool) (h : List (Event ops)) :
      Program.wp (Program.histories (srv.SpendDemand job)) (fun _ _ => True)
        (note_rejected replay) h :=
    spend_demand_idle (note_rejected_touches replay) (by decide)
  unfold handle_hello
  refine Program.wp_histories_perform_bind.mpr fun allowed => ⟨trivial, ?_⟩
  split
  · exact hrejected false _
  split
  · refine Program.wp_histories_perform_bind.mpr fun checked => ⟨trivial, ?_⟩
    exact hrejected false _
  rename_i info hinfo
  refine Program.wp_histories_perform_bind.mpr fun checked => ⟨trivial, ?_⟩
  split
  · exact hrejected false _
  refine Program.wp_histories_perform_bind.mpr fun now => ⟨trivial, ?_⟩
  split
  · exact hrejected false _
  refine Program.wp_histories_perform_bind.mpr fun fresh => ⟨trivial, ?_⟩
  split
  · exact hrejected true _
  -- past the replay cache: the nonce is drawn, stored and sent
  rename_i hfresh
  have hfresh : fresh = true := by simpa using hfresh
  subst hfresh
  unfold issue_challenge
  refine Program.wp_histories_perform_bind.mpr fun _ => ⟨trivial, ?_⟩
  refine Program.wp_histories_perform_bind.mpr fun nonce => ⟨trivial, ?_⟩
  refine Program.wp_histories_perform_bind.mpr fun _ => ⟨⟨?_, ?_, ?_⟩, ?_⟩
  · exact ⟨hello, peer, info, replay_key hello, now,
      saturating_mul srv.config.hello_max_skew_seconds 2, hjob, hinfo, rfl, rfl, rfl, by simp,
      by simp⟩
  · exact ⟨nonce, rfl, by simp⟩
  · intro ev hev
    simp only [List.mem_append, List.mem_singleton] at hev
    rcases hev with ((((((hev | rfl) | rfl) | rfl) | rfl) | rfl) | rfl)
    · exact hnonces ev hev
    all_goals simp [Op.area]
  · unfold send_challenge
    apply Program.wp_seq (send_reply_spend hjob
      (List.mem_append_right _ (List.mem_singleton.mpr rfl)) reply _)
    intro sent h' _
    split
    · have hstatus : Touches [.status] (ServerM.status_update .hello_accepted) :=
        touches_perform (by simp [Op.area])
      exact spend_demand_idle hstatus (by decide)
    · trivial

end hello

/-! ### RESPONSE and BYE -/

section checks
variable {srv : Server} {job : Job} {h : List (Event ops)}

/-- The operations of the checks that a credential goes through, and of its rejection. -/
def checks : Op → Bool
  | .verify_payload_raw .. | .now_unix | .nonce_validate .. | .nonce_consume ..
  | .note_rejection | .status_update (.rejected _) => true
  | _ => false

/-- The history `h'` continues `h` with checks. -/
def ChecksOnly (h h' : List (Event ops)) : Prop :=
  ∃ l, h' = h ++ l ∧ ∀ ev ∈ l, checks ev.op = true

theorem ChecksOnly.refl : ChecksOnly h h := ⟨[], by simp, by simp⟩

theorem ChecksOnly.snoc {h' : List (Event ops)} {ev : Event ops} (honly : ChecksOnly h h')
    (hev : checks ev.op = true) : ChecksOnly h (h' ++ [ev]) := by
  obtain ⟨l, rfl, hl⟩ := honly
  exact ⟨l ++ [ev], by simp,
    List.forall_mem_append.mpr ⟨hl, List.forall_mem_singleton.mpr hev⟩⟩

theorem ChecksOnly.subset {h' : List (Event ops)} (honly : ChecksOnly h h') : h ⊆ h' := by
  obtain ⟨l, rfl, -⟩ := honly
  exact List.subset_append_left h l

theorem ChecksOnly.not_yet {h' : List (Event ops)} (honly : ChecksOnly h h') (hyet : NotYet h) :
    NotYet h' := by
  obtain ⟨l, rfl, hl⟩ := honly
  refine List.forall_mem_append.mpr ⟨hyet, fun ev hev => ?_⟩
  by_contra hacts
  have hchecks := hl ev hev
  rcases acts_cases (by simpa using hacts) with ⟨call, hop⟩ | ⟨client_id, hop⟩
  · simp [hop, checks] at hchecks
  · simp [hop, checks] at hchecks

section rules
variable {P : List (Event ops) → Event ops → Prop}

theorem wp_note_rejected (hP : ∀ h ev, checks ev.op = true → P h ev) (replay : Bool) :
    Program.wp (Program.histories P) (fun _ h' => ChecksOnly h h') (note_rejected replay) h := by
  unfold note_rejected
  refine Program.wp_histories_perform_bind.mpr fun _ => ⟨hP _ _ rfl, ?_⟩
  refine Program.wp_histories_perform.mpr fun _ => ⟨hP _ _ rfl, ?_⟩
  exact (ChecksOnly.refl.snoc rfl).snoc rfl

/-- A credential that is let through has been checked. -/
theorem wp_verify_and_consume (hP : ∀ h ev, checks ev.op = true → P h ev) (cr : Credential)
    (peer : SocketAddr) :
    Program.wp (Program.histories P)
      (fun verified h' => ChecksOnly h h' ∧ ∀ name, verified = some name →
        ∃ info expires, Checked srv cr peer info expires h' ∧ name = info.name)
      (srv.verify_and_consume cr.payload cr.client_id cr.nonce cr.interval_seconds cr.param
        cr.signature peer) h := by
  have hrejected (replay : Bool) {h' : List (Event ops)} (honly : ChecksOnly h h') :
      Program.wp (Program.histories P)
        (fun verified h' => ChecksOnly h h' ∧ ∀ name, verified = some name →
          ∃ info expires, Checked srv cr peer info expires h' ∧ name = info.name)
        (do note_rejected replay; return (none : Option Str)) h' := by
    refine Program.wp_bind.mpr (Program.wp_mono ?_ (wp_note_rejected hP replay))
    rintro _ h'' ⟨l, rfl, hl⟩
    obtain ⟨l', rfl, hl'⟩ := honly
    exact ⟨⟨l' ++ l, by simp, List.forall_mem_append.mpr ⟨hl', hl⟩⟩, nofun⟩
  unfold verify_and_consume
  dsimp only
  split
  · refine Program.wp_histories_perform_bind.mpr fun checked => ⟨hP _ _ rfl, ?_⟩
    exact hrejected false (ChecksOnly.refl.snoc rfl)
  rename_i info hinfo
  refine Program.wp_histories_perform_bind.mpr fun now => ⟨hP _ _ rfl, ?_⟩
  refine Program.wp_histories_perform_bind.mpr fun entry => ⟨hP _ _ rfl, ?_⟩
  split
  · exact hrejected _ ((ChecksOnly.refl.snoc rfl).snoc rfl)
  rename_i entry
  refine Program.wp_histories_perform_bind.mpr fun checked => ⟨hP _ _ rfl, ?_⟩
  split
  · exact hrejected _ (((ChecksOnly.refl.snoc rfl).snoc rfl).snoc rfl)
  refine Program.wp_histories_perform_bind.mpr fun now' => ⟨hP _ _ rfl, ?_⟩
  refine Program.wp_histories_perform_bind.mpr fun consumed => ⟨hP _ _ rfl, ?_⟩
  have honly : ChecksOnly h (h ++ [⟨.now_unix, now⟩] ++
      [⟨.nonce_validate cr.nonce.val cr.client_id.to_hex peer.ip peer.port now, .ok entry⟩] ++
      [⟨.verify_payload_raw info.verifying_key
        (cr.message srv.config.server_id entry.expires_at_unix) cr.signature, .ok ()⟩] ++
      [⟨.now_unix, now'⟩] ++
      [⟨.nonce_consume cr.nonce.val cr.client_id.to_hex peer.ip peer.port now', consumed⟩]) :=
    ((((ChecksOnly.refl.snoc rfl).snoc rfl).snoc rfl).snoc rfl).snoc rfl
  split
  · exact hrejected _ honly
  -- all three checks are in the history
  rename_i spent
  refine ⟨honly, fun name hname => ⟨info, entry.expires_at_unix,
    ⟨hinfo, ⟨now, entry, ?_, rfl⟩, ?_, now', spent, ?_⟩, (Option.some.inj hname).symm⟩⟩
  · simp
  · simp [Credential.message]
  · simp

theorem wp_decrypt_param (hP : ∀ h ev, checks ev.op = true → P h ev) (blob : Option Bytes) :
    Program.wp (Program.histories P)
      (fun r h' => ChecksOnly h h' ∧ ∀ param, r = .ok param → Decrypts srv blob param)
      (srv.decrypt_param blob) h := by
  unfold decrypt_param
  split
  · exact ⟨.refl, fun param hr => (Except.ok.inj hr).symm⟩
  · rename_i blob
    split
    · rename_i text htext
      exact ⟨.refl, fun param hr => ⟨text, htext, (Except.ok.inj hr).symm⟩⟩
    · exact Program.wp_bind.mpr (Program.wp_mono (fun _ _ honly => ⟨honly, nofun⟩)
        (wp_note_rejected hP false))

end rules

theorem spend_demand_of_checks (h : List (Event ops)) (ev : Event ops)
    (hchecks : checks ev.op = true) : srv.SpendDemand job h ev := by
  unfold SpendDemand
  split
  case h_6 => trivial
  all_goals
    rename_i hop
    simp [hop, checks] at hchecks

/-- A hook execution meets the demand if its start does. -/
theorem execute_spend {x : Executor} {call : HookCall} (hspawn : ∀ permit spawned,
      srv.SpendDemand job (h ++ [⟨.hook_acquire x call, permit⟩]) ⟨.hook_spawn x call, spawned⟩) :
    Program.wp (Program.histories (srv.SpendDemand job)) (fun _ _ => True) (execute x call) h := by
  unfold execute
  refine Program.wp_histories_perform_bind.mpr fun permit => ⟨trivial, ?_⟩
  split
  · trivial
  refine Program.wp_histories_perform_bind.mpr fun spawned => ⟨hspawn permit spawned, ?_⟩
  split
  · trivial
  refine Program.wp_histories_perform_bind.mpr fun outcome => ⟨trivial, ?_⟩
  split <;> trivial

theorem run_grant_spend (name : Str) {call : HookCall} (hspawn : ∀ permit spawned,
      srv.SpendDemand job (h ++ [⟨.hook_acquire .grant call, permit⟩])
        ⟨.hook_spawn .grant call, spawned⟩) :
    Program.wp (Program.histories (srv.SpendDemand job)) (fun _ _ => True)
      (run_grant name call) h := by
  unfold run_grant
  apply Program.wp_seq (execute_spend hspawn)
  intro result h' _
  split
  · trivial
  · exact spend_demand_idle (note_granted_touches name call _) (by decide)

theorem run_revoke_spend (name : Str) {call : HookCall} (hspawn : ∀ permit spawned,
      srv.SpendDemand job (h ++ [⟨.hook_acquire .revoke call, permit⟩])
        ⟨.hook_spawn .revoke call, spawned⟩) :
    Program.wp (Program.histories (srv.SpendDemand job)) (fun _ _ => True)
      (run_revoke name call) h := by
  unfold run_revoke
  apply Program.wp_seq (execute_spend hspawn)
  intro result h' _
  split
  · trivial
  · exact spend_demand_idle (note_revoked_touches name call _) (by decide)

end checks

section handlers
variable {srv : Server} {job : Job} {h : List (Event ops)} {peer : SocketAddr}

theorem response_verified_spend {resp : Response} {info : ClientInfo} {expires : Int64}
    {param : Option Str} (hjob : srv.packet_from job = some (.Response resp, peer))
    (hchecked : Checked srv resp.credential peer info expires h)
    (hparam : Decrypts srv resp.param param) (hyet : NotYet h) (name : Str) :
    Program.wp (Program.histories (srv.SpendDemand job)) (fun _ _ => True)
      (srv.response_verified resp.client_id.to_hex resp.interval_seconds name param peer) h := by
  unfold response_verified
  apply Program.wp_seq (spend_demand_of_touches (note_pulse_touches name peer) (by decide))
  rintro _ h₁ ⟨hsub₁, hkept₁⟩
  refine Program.wp_histories_perform_bind.mpr fun is_new => ⟨trivial, ?_⟩
  apply Program.wp_seq (spend_demand_of_touches (within_cooldown_touches _ _) (by decide))
  rintro skip h' ⟨hsub, hkept⟩
  have hyet' : NotYet h' := hkept ((hkept₁ hyet).snoc rfl)
  have hchecked' : Checked srv resp.credential peer info expires h' :=
    hchecked.mono fun ev hev => hsub (List.mem_append_left _ (hsub₁ hev))
  split
  · trivial
  refine Program.wp_histories_perform_bind.mpr fun ip_clients => ⟨trivial, ?_⟩
  -- the grant is the first action of the task
  refine run_grant_spend name fun permit spawned => ⟨?_, ?_⟩
  · refine ⟨resp, peer, info, expires, hjob, hchecked'.mono fun ev hev => ?_, hparam, rfl, rfl, rfl⟩
    simp [hev]
  · exact (hyet'.snoc rfl).snoc rfl

theorem handle_response_spend {resp : Response}
    (hjob : srv.packet_from job = some (.Response resp, peer)) (hyet : NotYet h) :
    Program.wp (Program.histories (srv.SpendDemand job)) (fun _ _ => True)
      (srv.handle_response resp peer) h := by
  unfold handle_response
  apply Program.wp_seq (wp_verify_and_consume spend_demand_of_checks resp.credential peer)
  rintro verified h₁ ⟨honly₁, hchecked⟩
  split
  · trivial
  rename_i name
  obtain ⟨info, expires, hchecked, -⟩ := hchecked name rfl
  apply Program.wp_seq (wp_decrypt_param spend_demand_of_checks resp.param)
  rintro r h₂ ⟨honly₂, hparam⟩
  split
  · trivial
  · rename_i param
    exact response_verified_spend hjob (hchecked.mono honly₂.subset) (hparam param rfl)
      (honly₂.not_yet (honly₁.not_yet hyet)) name

theorem handle_bye_spend {bye : Bye} (hjob : srv.packet_from job = some (.Bye bye, peer))
    (hyet : NotYet h) :
    Program.wp (Program.histories (srv.SpendDemand job)) (fun _ _ => True)
      (srv.handle_bye bye peer) h := by
  unfold handle_bye
  apply Program.wp_seq (wp_verify_and_consume spend_demand_of_checks bye.credential peer)
  rintro verified h₁ ⟨honly₁, hchecked⟩
  split
  · trivial
  rename_i name
  obtain ⟨info, expires, hchecked, -⟩ := hchecked name rfl
  apply Program.wp_seq (wp_decrypt_param spend_demand_of_checks bye.param)
  rintro r h₂ ⟨honly₂, hparam⟩
  split
  · trivial
  rename_i param
  -- the release is the first action of the task; a revoke hook may follow it
  unfold bye_verified
  refine Program.wp_histories_perform_bind.mpr fun released =>
    ⟨⟨?_, honly₂.not_yet (honly₁.not_yet hyet)⟩, ?_⟩
  · exact ⟨bye, peer, info, expires, param, hjob, hchecked.mono honly₂.subset,
      hparam param rfl, rfl⟩
  split
  · trivial
  · rename_i e remaining
    split
    · trivial
    · refine run_revoke_spend _ fun permit spawned => ?_
      intro bye' peer' hjob'
      obtain ⟨rfl, rfl⟩ : bye' = bye ∧ peer' = peer := by
        simpa using hjob'.symm.trans hjob
      exact ⟨param, e, remaining, hparam param rfl, rfl⟩

theorem run_lease_scan_spend :
    Program.wp (Program.histories (srv.SpendDemand .cleanup)) (fun _ _ => True)
      srv.run_lease_scan h := by
  unfold run_lease_scan
  refine Program.wp_histories_perform_bind.mpr fun expired => ⟨trivial, ?_⟩
  split
  · trivial
  · refine Program.wp_each (fun _ _ => True) (fun x xs h' _ => ?_) trivial
    exact run_revoke_spend _ fun permit spawned => nofun

/-- Every task meets the demand. -/
theorem prog_spend_demand (srv : Server) (job : Job) :
    Program.wp (Program.histories (srv.SpendDemand job)) (fun _ _ => True) (srv.prog job) [] := by
  cases job with
  | datagram data peer =>
    have hfrom {packet : Packet} {reply : ReplyMode}
        (hpacket : srv.packet_of data = some (packet, reply)) :
        srv.packet_from (.datagram data peer) = some (packet, peer) := by
      simp [packet_from, hpacket]
    refine wp_receive (fun h => ∀ ev ∈ h,
      ev.op.area ∈ [Area.blacklist, .lockdown, .active, .inflight])
      (fun _ => True) ?_ (fun _ _ => trivial) ?_ ?_ (by simp)
    · rintro h o r _ ho hInv rfl
      refine ⟨spend_demand_of_area ?_, ?_⟩
      · intro hmem
        simp only [List.mem_cons, List.not_mem_nil, or_false] at ho hmem
        rcases ho with ho | ho | ho | ho <;> simp [ho] at hmem
      · intro ev hev
        rcases List.mem_append.mp hev with hev | hev
        · exact hInv ev hev
        · rwa [List.mem_singleton.mp hev]
    · intro h hInv
      have hyet : NotYet h := by
        intro ev hev
        by_contra hacts
        rcases acts_area (by simpa using hacts) with heq | heq <;>
          simpa [heq] using hInv ev hev
      refine wp_handle_datagram trivial (spend_demand_idle (note_faulty_touches _) (by decide))
        (spend_demand_idle (note_rejected_touches _) (by decide)) ?_ ?_ ?_
      · intro hello reply hpacket
        refine handle_hello_spend (hfrom hpacket) (fun ev hev heq => ?_) reply
        simpa [heq] using hInv ev hev
      · intro resp reply hpacket
        exact handle_response_spend (hfrom hpacket) hyet
      · intro bye reply hpacket
        exact handle_bye_spend (hfrom hpacket) hyet
    · rintro h r _ - rfl
      have hrelease : srv.SpendDemand (.datagram data peer) h ⟨.inflight_release, r⟩ := trivial
      exact ⟨hrelease, trivial⟩
  | cleanup =>
    refine wp_cleanup (fun _ => True) (fun _ => True) ?_
      (fun _ _ => run_lease_scan_spend) trivial
    rintro h o r _ ho - rfl
    refine ⟨?_, trivial⟩
    cases o <;> first | exact trivial | simp [purges] at ho

end handlers

end Server

end SignedPulse
