import SignedPulse.Server.SingleUse

/-! # Rejected datagrams

    The ways in which a datagram is rejected (`Rejected`), and the events that
    are left of one (`handle_datagram_outcome`): no check that fails comes after
    anything but reading, and the count comes last. `RejectionFrame` turns the
    events into changes of the state.
-/

namespace SignedPulse

namespace Server

/-! ### Checks that fail -/

/-- A check answers no. -/
def failing : Event ops → Bool
  | ⟨.rate_limiter_check _, allowed⟩ => !allowed
  | ⟨.verify_payload_raw .., checked⟩ => !checked.toBool
  | ⟨.seen_insert_if_absent .., fresh⟩ => !fresh
  | ⟨.nonce_validate .., entry⟩ => !entry.toBool
  | ⟨.nonce_consume .., entry⟩ => !entry.toBool
  | _ => false

/-- A check of the HELLO answers no, or the clock is too far off. -/
def hello_failing (srv : Server) (hello : Hello) : Event ops → Bool
  | ⟨.now_unix, now⟩ => !srv.within_skew hello now
  | ev => failing ev

/-- The client is unknown, or a check of the HELLO fails. -/
def HelloFails (srv : Server) (hello : Hello) (evs : List (Event ops)) : Prop :=
  AList.lookup hello.client_id srv.clients = none ∨ ∃ ev ∈ evs, srv.hello_failing hello ev = true

/-- The client is unknown, or a check of the credential fails. -/
def CredentialFails (srv : Server) (cr : Credential) (evs : List (Event ops)) : Prop :=
  AList.lookup cr.client_id srv.clients = none ∨ ∃ ev ∈ evs, failing ev = true

/-- The parameter cannot be opened, or is not acceptable. -/
def BadParam (srv : Server) (cr : Credential) : Prop :=
  ∃ blob, cr.param = some blob ∧ srv.open_param blob = none

/-- The datagram is rejected, given the events of its handling. A server that lacks the key to open
    it drops it without a count. -/
def Rejected (srv : Server) (data : Bytes) (evs : List (Event ops)) : Prop :=
  match srv.unwrap data with
  | none => False
  | some (.error _) => True
  | some (.ok (packet_bytes, _)) =>
    match Packet.decode packet_bytes with
    | .error _ => True
    | .ok (.Hello hello) => srv.HelloFails hello evs
    | .ok (.Response resp) => srv.CredentialFails resp.credential evs ∨ srv.BadParam resp.credential
    | .ok (.Bye bye) => srv.CredentialFails bye.credential evs ∨ srv.BadParam bye.credential
    | .ok (.Challenge _) => True

/-! ### Harmless events -/

/-- The event is the count of a rejection. -/
def counted : Event ops → Bool
  | ⟨.status_update (.rejected _), _⟩ => true
  | _ => false

/-- The event can only change the blacklist, the rate limiter, the nonce store and the count of
    rejections. -/
def harmless : Event ops → Bool
  | ⟨.status_update (.rejected _), _⟩ => true
  | ⟨.seen_insert_if_absent .., fresh⟩ => !fresh
  | ⟨.nonce_validate .., _⟩ | ⟨.nonce_consume .., _⟩ => true
  | ⟨o, _⟩ => decide (o.area ∈ [Area.clock, .signature, .rate, .blacklist])

/-- The credential is signed by its client, over the expiry in the nonce store. -/
def Signed (srv : Server) (cr : Credential) (peer : SocketAddr) (evs : List (Event ops)) : Prop :=
  ∃ info now entry, AList.lookup cr.client_id srv.clients = some info ∧
    ⟨.nonce_validate cr.nonce.val cr.client_id.to_hex peer.ip peer.port now, .ok entry⟩ ∈ evs ∧
    ⟨.verify_payload_raw info.verifying_key (cr.message srv.config.server_id entry.expires_at_unix)
      cr.signature, .ok ()⟩ ∈ evs

/-- A nonce is consumed only for the credential that the task presents, and once it is signed. -/
def ConsumeDemand (srv : Server) (job : Job) (h : List (Event ops)) (ev : Event ops) : Prop :=
  match ev.op with
  | .nonce_consume nonce client_id ip port _ =>
    ∃ cr peer, srv.credential_of job = some (cr, peer) ∧ nonce = cr.nonce.val ∧
      client_id = cr.client_id.to_hex ∧ ip = peer.ip ∧ port = peer.port ∧ Signed srv cr peer h
  | _ => True

/-- Nothing has been changed or counted so far. -/
structure Quiet (h : List (Event ops)) : Prop where
  harmless : ∀ ev ∈ h, harmless ev = true
  unspent : ∀ ev ∈ h, consumption_of ev = none
  uncounted : h.countP counted = 0

/-- The history of a rejection that spends no nonce: it was counted once, and that is all. -/
structure Refused (h : List (Event ops)) : Prop where
  harmless : ∀ ev ∈ h, Server.harmless ev = true
  unspent : ∀ ev ∈ h, consumption_of ev = none
  once : h.countP counted = 1

/-- The credential has passed its checks, the latest of them being the consumption of its nonce. -/
structure Spent (srv : Server) (cr : Credential) (peer : SocketAddr) (before : List (Event ops))
    (ev : Event ops) : Prop where
  known : AList.lookup cr.client_id srv.clients ≠ none
  quiet : Quiet before
  unfailed : ∀ ev ∈ before, failing ev = false
  signed : Signed srv cr peer before
  consumes : ∃ now entry,
    ev = ⟨.nonce_consume cr.nonce.val cr.client_id.to_hex peer.ip peer.port now, .ok entry⟩

/-- The two events of a rejection. -/
def rejection (replay : Bool) : List (Event ops) :=
  [⟨.status_update (.rejected replay), ()⟩, ⟨.note_rejection, ()⟩]

/-- What the handling of a credential comes to: a check fails, the parameter fails, or nothing
    does. -/
inductive Outcome (srv : Server) (cr : Credential) (peer : SocketAddr) (h : List (Event ops)) :
    Prop where
  | refused (hrefused : Refused h) (hfails : srv.CredentialFails cr h)
  | bad_param (before : List (Event ops)) (ev : Event ops) (hspent : Spent srv cr peer before ev)
      (hbad : srv.BadParam cr) (hh : h = before ++ [ev] ++ rejection false)
  | accepted (hpassed : ¬ srv.CredentialFails cr h) (hparam : ¬ srv.BadParam cr)

section demand
variable {srv : Server} {job : Job} {h : List (Event ops)}

theorem consume_demand_of_area {ev : Event ops} (harea : ev.op.area ≠ .nonces) :
    srv.ConsumeDemand job h ev := by
  unfold ConsumeDemand
  split
  · rename_i hop
    rw [hop] at harea
    exact absurd rfl harea
  · trivial

/-- A program that leaves the nonces alone meets the demand. -/
theorem consume_demand_of_touches {α : Type} {areas : List Area} {p : ServerM α}
    (hp : Touches areas p) (hareas : Area.nonces ∉ areas) :
    Program.wp (Program.histories (srv.ConsumeDemand job)) (fun _ h' => Extends areas h h') p h :=
  hp.histories fun _ _ harea => consume_demand_of_area fun hnonces => hareas (hnonces ▸ harea)

/-! ### Quiet histories -/

theorem Quiet.nil : Quiet [] := ⟨by simp, by simp, rfl⟩

theorem Quiet.snoc {ev : Event ops} (hquiet : Quiet h) (hharmless : Server.harmless ev = true)
    (hunspent : consumption_of ev = none) (huncounted : counted ev = false) :
    Quiet (h ++ [ev]) where
  harmless := List.forall_mem_append.mpr ⟨hquiet.harmless, List.forall_mem_singleton.mpr hharmless⟩
  unspent := List.forall_mem_append.mpr ⟨hquiet.unspent, List.forall_mem_singleton.mpr hunspent⟩
  uncounted := by
    rw [List.countP_append, hquiet.uncounted, List.countP_singleton, huncounted]
    rfl

/-- A rejection after a quiet history. -/
theorem Quiet.refused (hquiet : Quiet h) (replay : Bool) : Refused (h ++ rejection replay) where
  harmless := by
    refine List.forall_mem_append.mpr ⟨hquiet.harmless, ?_⟩
    simp [rejection, Server.harmless, Op.area]
  unspent := by
    refine List.forall_mem_append.mpr ⟨hquiet.unspent, ?_⟩
    simp [rejection, consumption_of]
  once := by
    rw [List.countP_append, hquiet.uncounted]
    rfl

theorem Refused.snoc {ev : Event ops} (hrefused : Refused h) (hharmless : Server.harmless ev = true)
    (hunspent : consumption_of ev = none) (huncounted : counted ev = false) :
    Refused (h ++ [ev]) where
  harmless :=
    List.forall_mem_append.mpr ⟨hrefused.harmless, List.forall_mem_singleton.mpr hharmless⟩
  unspent := List.forall_mem_append.mpr ⟨hrefused.unspent, List.forall_mem_singleton.mpr hunspent⟩
  once := by
    rw [List.countP_append, hrefused.once, List.countP_singleton, huncounted]
    rfl

theorem note_rejected_events (replay : Bool) :
    Program.wp (Program.histories (srv.ConsumeDemand job)) (fun _ h' => h' = h ++ rejection replay)
      (note_rejected replay) h := by
  unfold note_rejected
  refine Program.wp_histories_perform_bind.mpr fun _ => ⟨trivial, ?_⟩
  refine Program.wp_histories_perform.mpr fun _ => ⟨trivial, ?_⟩
  rw [List.append_assoc]
  rfl

/-- A datagram that cannot be opened or decoded. -/
theorem note_faulty_refused (ip : IpAddr) :
    Program.wp (Program.histories (srv.ConsumeDemand job)) (fun _ h' => Quiet h → Refused h')
      (note_faulty ip) h := by
  unfold note_faulty
  apply Program.wp_seq (note_rejected_events false)
  rintro _ h' rfl
  refine Program.wp_histories_perform_bind.mpr fun blocked => ⟨trivial, ?_⟩
  intro hquiet
  exact (hquiet.refused false).snoc rfl rfl rfl

theorem note_rejected_refused (replay : Bool) :
    Program.wp (Program.histories (srv.ConsumeDemand job)) (fun _ h' => Quiet h → Refused h')
      (note_rejected replay) h := by
  refine Program.wp_mono ?_ (note_rejected_events replay)
  rintro _ h' rfl hquiet
  exact hquiet.refused replay

end demand

/-! ### RESPONSE and BYE -/

/-- What `verify_and_consume` returns, given the history it leaves. -/
inductive Verdict (srv : Server) (cr : Credential) (peer : SocketAddr) :
    Option Str → List (Event ops) → Prop where
  | rejected {h} (hrefused : Refused h) (hfails : srv.CredentialFails cr h) :
      Verdict srv cr peer none h
  | spent {name h} (before : List (Event ops)) (ev : Event ops)
      (hspent : Spent srv cr peer before ev) (hh : h = before ++ [ev]) :
      Verdict srv cr peer (some name) h

/-- No event of the history is of the kind `p`. -/
def Without (p : Event ops → Bool) (h : List (Event ops)) : Prop := ∀ ev ∈ h, p ev = false

theorem Without.snoc {p : Event ops → Bool} {h : List (Event ops)} {ev : Event ops}
    (hwithout : Without p h) (hev : p ev = false) : Without p (h ++ [ev]) :=
  List.forall_mem_append.mpr ⟨hwithout, List.forall_mem_singleton.mpr hev⟩

/-- The checks are calls on the rate limiter, the signature scheme, the cache and the nonces. -/
theorem failing_area {ev : Event ops} (hfailing : failing ev = true) :
    ev.op.area ∈ [Area.rate, .signature, .cache, .nonces] := by
  unfold failing at hfailing
  split at hfailing
  · simp [Op.area]
  · simp [Op.area]
  · simp [Op.area]
  · simp [Op.area]
  · simp [Op.area]
  · cases hfailing

theorem Without.extends {areas : List Area} {h h' : List (Event ops)} (hwithout : Without failing h)
    (hext : Extends areas h h')
    (hareas : ∀ a ∈ areas, a ∉ [Area.rate, .signature, .cache, .nonces]) : Without failing h' := by
  obtain ⟨l, rfl, hl⟩ := hext
  refine List.forall_mem_append.mpr ⟨hwithout, fun ev hev => ?_⟩
  by_contra hfailing
  exact hareas _ (hl ev hev) (failing_area (by simpa using hfailing))

section credentials
variable {srv : Server} {job : Job} {h : List (Event ops)} {cr : Credential} {peer : SocketAddr}

/-- The shared checks, from the first event of a task on. -/
theorem verify_and_consume_verdict (hjob : srv.credential_of job = some (cr, peer)) :
    Program.wp (Program.histories (srv.ConsumeDemand job))
      (fun verified h' => h = [] → Verdict srv cr peer verified h')
      (srv.verify_and_consume cr.payload cr.client_id cr.nonce cr.interval_seconds cr.param
        cr.signature peer) h := by
  have hrejected (replay : Bool) {h' : List (Event ops)}
      (hquiet : h = [] → Quiet h' ∧ srv.CredentialFails cr h') :
      Program.wp (Program.histories (srv.ConsumeDemand job))
        (fun verified h' => h = [] → Verdict srv cr peer verified h')
        (do note_rejected replay; return (none : Option Str)) h' := by
    refine Program.wp_bind.mpr (Program.wp_mono ?_ (note_rejected_events replay))
    rintro _ h'' rfl hnil
    obtain ⟨hquiet, hfails⟩ := hquiet hnil
    refine .rejected (hquiet.refused replay) (hfails.imp_right ?_)
    rintro ⟨ev, hev, hfailing⟩
    exact ⟨ev, List.mem_append_left _ hev, hfailing⟩
  -- the event that fails is the latest one
  have hlast {h' : List (Event ops)} {ev : Event ops} (hfailing : failing ev = true) :
      srv.CredentialFails cr (h' ++ [ev]) := .inr ⟨ev, by simp, hfailing⟩
  unfold verify_and_consume
  dsimp only
  split
  · rename_i hunknown
    refine Program.wp_histories_perform_bind.mpr fun checked => ⟨trivial, ?_⟩
    apply hrejected
    rintro rfl
    exact ⟨Quiet.nil.snoc rfl rfl rfl, .inl hunknown⟩
  rename_i info hinfo
  refine Program.wp_histories_perform_bind.mpr fun now => ⟨trivial, ?_⟩
  refine Program.wp_histories_perform_bind.mpr fun entry => ⟨trivial, ?_⟩
  split
  · apply hrejected
    rintro rfl
    exact ⟨(Quiet.nil.snoc rfl rfl rfl).snoc rfl rfl rfl, hlast rfl⟩
  rename_i entry
  refine Program.wp_histories_perform_bind.mpr fun checked => ⟨trivial, ?_⟩
  split
  · apply hrejected
    rintro rfl
    exact ⟨((Quiet.nil.snoc rfl rfl rfl).snoc rfl rfl rfl).snoc rfl rfl rfl, hlast rfl⟩
  refine Program.wp_histories_perform_bind.mpr fun now' => ⟨trivial, ?_⟩
  -- the signature is over the expiry that was found in the store
  have hsigned : Signed srv cr peer (h ++ [⟨.now_unix, now⟩] ++
      [⟨.nonce_validate cr.nonce.val cr.client_id.to_hex peer.ip peer.port now, .ok entry⟩] ++
      [⟨.verify_payload_raw info.verifying_key
        (cr.message srv.config.server_id entry.expires_at_unix) cr.signature, .ok ()⟩] ++
      [⟨.now_unix, now'⟩]) :=
    ⟨info, now, entry, hinfo, by simp, by simp⟩
  refine Program.wp_histories_perform_bind.mpr fun consumed => ⟨?_, ?_⟩
  · exact ⟨cr, peer, hjob, rfl, rfl, rfl, rfl, hsigned⟩
  have hquiet : h = [] → Quiet (h ++ [⟨.now_unix, now⟩] ++
      [⟨.nonce_validate cr.nonce.val cr.client_id.to_hex peer.ip peer.port now, .ok entry⟩] ++
      [⟨.verify_payload_raw info.verifying_key
        (cr.message srv.config.server_id entry.expires_at_unix) cr.signature, .ok ()⟩] ++
      [⟨.now_unix, now'⟩]) := by
    rintro rfl
    exact (((Quiet.nil.snoc rfl rfl rfl).snoc rfl rfl rfl).snoc rfl rfl rfl).snoc rfl rfl rfl
  split
  · apply hrejected
    intro hnil
    exact ⟨(hquiet hnil).snoc rfl rfl rfl, hlast rfl⟩
  · rename_i spent
    intro hnil
    refine .spent _ _ ⟨by simp [hinfo], hquiet hnil, ?_, hsigned, now', spent, rfl⟩ rfl
    subst hnil
    have hnone : Without failing [] := by simp [Without]
    exact (((hnone.snoc rfl).snoc rfl).snoc rfl).snoc rfl

/-- The parameter is opened; if it is bad, that is a rejection. -/
theorem decrypt_param_events :
    Program.wp (Program.histories (srv.ConsumeDemand job))
      (fun r h' => (r = .error () ∧ srv.BadParam cr ∧ h' = h ++ rejection false) ∨
        ∃ param, r = .ok param ∧ ¬ srv.BadParam cr ∧ h' = h) (srv.decrypt_param cr.param) h := by
  unfold decrypt_param
  split
  · rename_i hparam
    refine .inr ⟨none, rfl, ?_, rfl⟩
    rintro ⟨blob, hblob, -⟩
    rw [hparam] at hblob
    cases hblob
  · rename_i blob hparam
    split
    · rename_i text htext
      refine .inr ⟨some text, rfl, ?_, rfl⟩
      rintro ⟨blob', hblob, hopen⟩
      obtain rfl : blob = blob' := Option.some.inj (hparam.symm.trans hblob)
      rw [htext] at hopen
      cases hopen
    · rename_i hopen
      refine Program.wp_bind.mpr (Program.wp_mono ?_ (note_rejected_events false))
      rintro _ h' rfl
      exact .inl ⟨rfl, ⟨blob, hparam, hopen⟩, rfl⟩

/-- A RESPONSE and a BYE alike: the shared checks, the parameter, and then what `f` does. -/
theorem checked_outcome (hjob : srv.credential_of job = some (cr, peer))
    {f : Str → Option Str → ServerM Unit} {areas : List Area}
    (hf : ∀ name param, Touches areas (f name param))
    (hareas : ∀ a ∈ areas, a ∉ [Area.rate, .signature, .cache, .nonces]) :
    Program.wp (Program.histories (srv.ConsumeDemand job))
      (fun _ h' => h = [] → Outcome srv cr peer h')
      (do
        let verified ← srv.verify_and_consume cr.payload cr.client_id cr.nonce cr.interval_seconds
          cr.param cr.signature peer
        match verified with
        | none => return ()
        | some name => do
          let param ← srv.decrypt_param cr.param
          match param with
          | .error () => return ()
          | .ok param => f name param) h := by
  apply Program.wp_seq (verify_and_consume_verdict hjob)
  intro verified h₁ hverdict
  split
  · intro hnil
    cases hverdict hnil with
    | rejected hrefused hfails => exact .refused hrefused hfails
  rename_i name
  apply Program.wp_seq decrypt_param_events
  rintro r h₂ (⟨rfl, hbad, rfl⟩ | ⟨param, rfl, hgood, rfl⟩)
  · intro hnil
    cases hverdict hnil with
    | spent before ev hspent hh => exact .bad_param before ev hspent hbad (hh ▸ rfl)
  · refine Program.wp_mono ?_ (consume_demand_of_touches (hf name param)
      fun hnonces => hareas _ hnonces (by simp))
    intro _ h' hext hnil
    cases hverdict hnil with
    | spent before ev hspent hh =>
      -- none of the events after the checks is a check
      obtain ⟨now, entry, rfl⟩ := hspent.consumes
      have hunfailed : Without failing h₂ := hh ▸ Without.snoc hspent.unfailed rfl
      refine .accepted ?_ hgood
      rintro (hunknown | ⟨ev, hev, hfailing⟩)
      · exact hspent.known hunknown
      · rw [hunfailed.extends hext hareas ev hev] at hfailing
        cases hfailing

end credentials

theorem handle_response_outcome {srv : Server} {job : Job} {h : List (Event ops)} {resp : Response}
    {peer : SocketAddr} (hjob : srv.credential_of job = some (resp.credential, peer)) :
    Program.wp (Program.histories (srv.ConsumeDemand job))
      (fun _ h' => h = [] → Outcome srv resp.credential peer h') (srv.handle_response resp peer)
      h :=
  checked_outcome hjob (fun _ _ => srv.response_verified_touches _ _ _ _ _) (by decide)

theorem handle_bye_outcome {srv : Server} {job : Job} {h : List (Event ops)} {bye : Bye}
    {peer : SocketAddr} (hjob : srv.credential_of job = some (bye.credential, peer)) :
    Program.wp (Program.histories (srv.ConsumeDemand job))
      (fun _ h' => h = [] → Outcome srv bye.credential peer h') (srv.handle_bye bye peer) h :=
  checked_outcome hjob (fun _ _ => srv.bye_verified_touches _ _) (by decide)

/-! ### HELLO -/

section hello
variable {srv : Server} {job : Job} {h : List (Event ops)}

/-- Sending the CHALLENGE checks nothing. -/
theorem hello_failing_extends {hello : Hello} {h' : List (Event ops)}
    (hwithout : Without (srv.hello_failing hello) h) (hext : Extends [.reply, .status] h h') :
    Without (srv.hello_failing hello) h' := by
  obtain ⟨l, rfl, hl⟩ := hext
  refine List.forall_mem_append.mpr ⟨hwithout, fun ev hev => ?_⟩
  have harea := hl ev hev
  unfold hello_failing
  split
  · simp [Op.area] at harea
  · by_contra hfailing
    have hchecks := failing_area (eq_true_of_ne_false hfailing)
    simp only [List.mem_cons, List.not_mem_nil, or_false] at harea hchecks
    rcases harea with harea | harea <;> simp [harea] at hchecks

theorem issue_challenge_passes (hello : Hello) (peer : SocketAddr) (reply : ReplyMode)
    (now : Int64) :
    Program.wp (Program.histories (srv.ConsumeDemand job))
      (fun _ h' => Without (srv.hello_failing hello) h → Without (srv.hello_failing hello) h')
      (srv.issue_challenge hello peer reply now) h := by
  unfold issue_challenge
  refine Program.wp_histories_perform_bind.mpr fun _ => ⟨trivial, ?_⟩
  refine Program.wp_histories_perform_bind.mpr fun nonce => ⟨trivial, ?_⟩
  refine Program.wp_histories_perform_bind.mpr fun _ => ⟨trivial, ?_⟩
  refine Program.wp_mono ?_ (consume_demand_of_touches (srv.send_challenge_touches _ _ _ _ _)
    (by decide))
  intro _ h' hext hwithout
  exact hello_failing_extends (((hwithout.snoc rfl).snoc rfl).snoc rfl) hext

theorem handle_hello_outcome (hello : Hello) (peer : SocketAddr) (reply : ReplyMode) :
    Program.wp (Program.histories (srv.ConsumeDemand job))
      (fun _ h' => h = [] → Refused h' ∨ ¬ srv.HelloFails hello h')
      (srv.handle_hello hello peer reply) h := by
  have hrejected (replay : Bool) {h' : List (Event ops)} (hquiet : h = [] → Quiet h') :
      Program.wp (Program.histories (srv.ConsumeDemand job))
        (fun _ h' => h = [] → Refused h' ∨ ¬ srv.HelloFails hello h') (note_rejected replay)
        h' := by
    refine Program.wp_mono ?_ (note_rejected_refused replay)
    intro _ h'' hrefused hnil
    exact .inl (hrefused (hquiet hnil))
  unfold handle_hello
  refine Program.wp_histories_perform_bind.mpr fun allowed => ⟨trivial, ?_⟩
  split
  · apply hrejected
    rintro rfl
    exact Quiet.nil.snoc rfl rfl rfl
  rename_i hallowed
  split
  · refine Program.wp_histories_perform_bind.mpr fun checked => ⟨trivial, ?_⟩
    apply hrejected
    rintro rfl
    exact (Quiet.nil.snoc rfl rfl rfl).snoc rfl rfl rfl
  rename_i info hinfo
  refine Program.wp_histories_perform_bind.mpr fun checked => ⟨trivial, ?_⟩
  split
  · apply hrejected
    rintro rfl
    exact (Quiet.nil.snoc rfl rfl rfl).snoc rfl rfl rfl
  refine Program.wp_histories_perform_bind.mpr fun now => ⟨trivial, ?_⟩
  split
  · apply hrejected
    rintro rfl
    exact ((Quiet.nil.snoc rfl rfl rfl).snoc rfl rfl rfl).snoc rfl rfl rfl
  rename_i hskew
  refine Program.wp_histories_perform_bind.mpr fun fresh => ⟨trivial, ?_⟩
  split
  · rename_i hseen
    apply hrejected
    rintro rfl
    exact (((Quiet.nil.snoc rfl rfl rfl).snoc rfl rfl rfl).snoc rfl rfl rfl).snoc hseen rfl rfl
  -- all the checks are passed
  rename_i hfresh
  refine Program.wp_mono ?_ (issue_challenge_passes hello peer reply now)
  rintro _ h' hwithout rfl
  have hnone : Without (srv.hello_failing hello) [] := by simp [Without]
  have hpassed := hwithout ((((hnone.snoc (by simpa [hello_failing, failing] using hallowed)).snoc
    rfl).snoc (by simpa [hello_failing] using hskew)).snoc
      (by simpa [hello_failing, failing] using hfresh))
  refine .inr ?_
  rintro (hunknown | ⟨ev, hev, hfailing⟩)
  · rw [hinfo] at hunknown
    cases hunknown
  · rw [hpassed ev hev] at hfailing
    cases hfailing

/-! ### Datagrams -/

/-- The handling of a rejected datagram: no nonce is spent, or the parameter is bad. -/
inductive Rejection (srv : Server) (data : Bytes) (peer : SocketAddr) (h : List (Event ops)) :
    Prop where
  | refused (hrefused : Refused h)
      (hfails : ∀ cr, srv.credential_of (.datagram data peer) = some (cr, peer) →
        srv.CredentialFails cr h)
  | bad_param (cr : Credential) (before : List (Event ops)) (ev : Event ops)
      (hjob : srv.credential_of (.datagram data peer) = some (cr, peer))
      (hspent : Spent srv cr peer before ev) (hbad : srv.BadParam cr)
      (hh : h = before ++ [ev] ++ rejection false)

theorem Outcome.rejection {cr : Credential} {data : Bytes} {peer : SocketAddr}
    (hjob : srv.credential_of (.datagram data peer) = some (cr, peer))
    (houtcome : Outcome srv cr peer h) (hrejected : srv.CredentialFails cr h ∨ srv.BadParam cr) :
    Rejection srv data peer h := by
  cases houtcome with
  | refused hrefused hfails =>
    refine .refused hrefused fun cr' hjob' => ?_
    obtain rfl : cr = cr' := by simpa using hjob.symm.trans hjob'
    exact hfails
  | bad_param before ev hspent hbad hh => exact .bad_param cr before ev hjob hspent hbad hh
  | accepted hpassed hparam => exact absurd hrejected (not_or.mpr ⟨hpassed, hparam⟩)

/-- A datagram that is rejected presents no credential, or one that fails. -/
theorem handle_datagram_outcome (data : Bytes) (peer : SocketAddr) :
    Program.wp (Program.histories (srv.ConsumeDemand (.datagram data peer)))
      (fun _ h' => h = [] → srv.Rejected data h' → Rejection srv data peer h')
      (srv.handle_datagram data peer) h := by
  unfold handle_datagram Rejected
  cases hunwrap : srv.unwrap data with
  | none => exact fun _ => False.elim
  | some opened =>
    cases opened with
    | error e =>
      refine Program.wp_mono ?_ (note_faulty_refused peer.ip)
      rintro _ h' hrefused rfl -
      refine .refused (hrefused .nil) ?_
      simp [credential_of, packet_from, packet_of, hunwrap]
    | ok inner =>
      obtain ⟨packet_bytes, reply⟩ := inner
      dsimp only
      -- a datagram that does not decode is faulty, a packet goes to its handler
      cases hdecode : Packet.decode packet_bytes with
      | error e =>
        refine Program.wp_mono ?_ (note_faulty_refused peer.ip)
        rintro _ h' hrefused rfl -
        refine .refused (hrefused .nil) ?_
        simp [credential_of, packet_from, packet_of, hunwrap, hdecode, Except.toOption]
      | ok packet =>
        have hpacket : srv.packet_from (.datagram data peer) = some (packet, peer) := by
          simp [packet_from, packet_of, hunwrap, hdecode, Except.toOption]
        cases packet with
        | Hello hello =>
          refine Program.wp_mono ?_ (handle_hello_outcome hello peer reply)
          rintro _ h' houtcome hnil hfails
          refine .refused ((houtcome hnil).resolve_right (not_not_intro hfails)) ?_
          simp [credential_of, hpacket]
        | Challenge challenge =>
          refine Program.wp_mono ?_ (note_rejected_refused false)
          rintro _ h' hrefused rfl -
          refine .refused (hrefused .nil) ?_
          simp [credential_of, hpacket]
        | Response resp =>
          have hjob : srv.credential_of (.datagram data peer) = some (resp.credential, peer) := by
            simp [credential_of, hpacket]
          refine Program.wp_mono ?_ (handle_response_outcome hjob)
          intro _ h' houtcome hnil hrejected
          exact (houtcome hnil).rejection hjob hrejected
        | Bye bye =>
          have hjob : srv.credential_of (.datagram data peer) = some (bye.credential, peer) := by
            simp [credential_of, hpacket]
          refine Program.wp_mono ?_ (handle_bye_outcome hjob)
          intro _ h' houtcome hnil hrejected
          exact (houtcome hnil).rejection hjob hrejected

end hello

end Server

end SignedPulse
