import SignedPulse.Server.Handlers

/-! # Which task touches what

    `Op.area` groups the operations by the table or device they are about, and
    each program of `Handlers` comes with the list of areas it can touch. A
    proof about one table frames away all programs that never touch it.
-/

namespace SignedPulse

inductive Area where
  | clock
  | random
  | signature
  | rate
  | cache
  | nonces
  | active
  | blacklist
  | lockdown
  | cooldown
  | leases
  | status
  | reply
  | inflight
  | hook
  deriving DecidableEq

def Op.area : Op → Area
  | .now_unix => .clock
  | .nonce_generate => .random
  | .verify_payload_raw .. => .signature
  | .rate_limiter_check _ | .rate_limiter_purge_stale => .rate
  | .seen_insert_if_absent .. | .seen_purge_expired _ => .cache
  | .nonce_insert .. | .nonce_validate .. | .nonce_consume .. | .nonce_purge_expired _ => .nonces
  | .active_mark _ | .is_active _ | .active_purge_stale => .active
  | .is_blocked _ | .note_rejection | .record_faulty _ | .blacklist_purge_stale => .blacklist
  | .under_attack | .note_lockdown_drop | .lockdown_logged_store _ => .lockdown
  | .in_cooldown _ | .cooldown_mark _ | .cooldown_purge_stale => .cooldown
  | .leases_renew .. | .leases_release _ | .leases_others_on_ip .. | .leases_take_expired => .leases
  | .status_update _ => .status
  | .seal_reply .. | .send_to .. => .reply
  | .inflight_acquire | .inflight_release => .inflight
  | .hook_acquire .. | .hook_spawn .. | .hook_wait .. => .hook

/-- The operation counts a faulty packet, or forgets such counts. -/
def Op.faults : Op → Bool
  | .record_faulty _ | .blacklist_purge_stale => true
  | _ => false

theorem Op.faults_of_area {o : Op} (h : o.area ≠ .blacklist) : o.faults = false := by
  cases o
  case record_faulty => exact absurd rfl h
  case blacklist_purge_stale => exact absurd rfl h
  all_goals rfl

/-- The operation writes the status of one client. -/
def Op.personal : Op → Bool
  | .status_update (.last_pulse ..) | .status_update (.last_hook ..)
  | .status_update (.last_revoke ..) => true
  | _ => false

/-- The operation leaves a note about a source or a client. -/
def Op.notes (o : Op) : Bool := o.faults || o.personal

theorem Op.notes_of_area {o : Op} (hblacklist : o.area ≠ .blacklist) (hstatus : o.area ≠ .status) :
    o.notes = false := by
  have hpersonal : o.personal = false := by
    cases o
    case status_update => exact absurd rfl hstatus
    all_goals rfl
  simp [notes, faults_of_area hblacklist, hpersonal]

namespace Server

variable {α β : Type}

/-- The program only performs operations of the given areas. -/
def Touches (areas : List Area) (p : ServerM α) : Prop :=
  Program.Uses (I := ops) (fun o => o.area ∈ areas) p

theorem touches_pure {areas : List Area} {a : α} : Touches areas (pure a) :=
  Program.uses_pure

theorem touches_perform {areas : List Area} {o : Op} (h : o.area ∈ areas) :
    Touches areas (ServerM.perform o) :=
  Program.uses_perform h

theorem touches_bind {areas : List Area} {p : ServerM α} {f : α → ServerM β}
    (hp : Touches areas p) (hf : ∀ a, Touches areas (f a)) : Touches areas (p >>= f) :=
  Program.uses_bind hp hf

theorem touches_call {areas : List Area} {o : Op} {f : Op.Res o → ServerM β}
    (h : o.area ∈ areas) (hf : ∀ r, Touches areas (f r)) :
    Touches areas (ServerM.perform o >>= f) :=
  touches_bind (touches_perform h) hf

theorem Touches.mono {areas areas' : List Area} {p : ServerM α} (h : Touches areas p)
    (hsub : areas ⊆ areas') : Touches areas' p :=
  h.imp fun _ ho => hsub ho

theorem touches_each {areas : List Area} {body : β → ServerM Unit}
    (hbody : ∀ x, Touches areas (body x)) (xs : List β) : Touches areas (Program.each body xs) := by
  induction xs with
  | nil => trivial
  | cons x xs ih => exact touches_bind (hbody x) fun _ => ih

/-- The program only performs operations of the given areas, and none that is in `p`. -/
def Spares (p : Op → Bool) (areas : List Area) (q : ServerM α) : Prop :=
  Program.Uses (I := ops) (fun o => o.area ∈ areas ∧ p o = false) q

section spares
variable {p : Op → Bool} {areas areas' : List Area} {q : ServerM α}

theorem spares_pure {a : α} : Spares p areas (pure a : ServerM α) := Program.uses_pure

theorem spares_bind {f : α → ServerM β} (hq : Spares p areas q) (hf : ∀ a, Spares p areas (f a)) :
    Spares p areas (q >>= f) :=
  Program.uses_bind hq hf

theorem spares_perform {o : Op} (h : o.area ∈ areas) (ho : p o = false) :
    Spares p areas (ServerM.perform o) :=
  Program.uses_perform ⟨h, ho⟩

theorem spares_call {o : Op} {f : Op.Res o → ServerM β} (h : o.area ∈ areas) (ho : p o = false)
    (hf : ∀ r, Spares p areas (f r)) : Spares p areas (ServerM.perform o >>= f) :=
  spares_bind (spares_perform h ho) hf

theorem Spares.touches (h : Spares p areas q) : Touches areas q :=
  h.imp fun _ ho => ho.1

theorem Spares.mono (h : Spares p areas q) (hsub : areas ⊆ areas') : Spares p areas' q :=
  h.imp fun _ ho => ⟨hsub ho.1, ho.2⟩

theorem Spares.faults (h : Spares Op.notes areas q) : Spares Op.faults areas q :=
  h.imp fun _ ho => ⟨ho.1, (Bool.or_eq_false_iff.mp ho.2).1⟩

theorem Spares.personal (h : Spares Op.notes areas q) : Spares Op.personal areas q :=
  h.imp fun _ ho => ⟨ho.1, (Bool.or_eq_false_iff.mp ho.2).2⟩

/-- The fault counts are part of the blacklist. -/
theorem Touches.spares_faults (h : Touches areas q) (hblacklist : Area.blacklist ∉ areas) :
    Spares Op.faults areas q :=
  h.imp fun _ ho => ⟨ho, Op.faults_of_area fun harea => hblacklist (harea ▸ ho)⟩

theorem Touches.spares (h : Touches areas q) (hblacklist : Area.blacklist ∉ areas)
    (hstatus : Area.status ∉ areas) : Spares Op.notes areas q :=
  h.imp fun _ ho => ⟨ho, Op.notes_of_area (fun harea => hblacklist (harea ▸ ho))
    fun harea => hstatus (harea ▸ ho)⟩

end spares

/-- The history `h'` continues `h` with events of the given areas. -/
def Extends (areas : List Area) (h h' : List (Event ops)) : Prop :=
  ∃ l, h' = h ++ l ∧ ∀ ev ∈ l, ev.op.area ∈ areas

theorem Extends.refl {areas : List Area} {h : List (Event ops)} : Extends areas h h :=
  ⟨[], by simp, by simp⟩

theorem Extends.snoc {areas : List Area} {h h' : List (Event ops)} {ev : Event ops}
    (hext : Extends areas h h') (hev : ev.op.area ∈ areas) : Extends areas h (h' ++ [ev]) := by
  obtain ⟨l, rfl, hl⟩ := hext
  refine ⟨l ++ [ev], by simp, ?_⟩
  intro e he
  rcases List.mem_append.mp he with he | he
  · exact hl e he
  · rwa [List.mem_singleton.mp he]

theorem Extends.trans {areas : List Area} {h h' h'' : List (Event ops)}
    (h₁ : Extends areas h h') (h₂ : Extends areas h' h'') : Extends areas h h'' := by
  obtain ⟨l, rfl, hl⟩ := h₁
  obtain ⟨l', rfl, hl'⟩ := h₂
  refine ⟨l ++ l', by simp, ?_⟩
  intro e he
  rcases List.mem_append.mp he with he | he
  · exact hl e he
  · exact hl' e he

theorem Extends.subset {areas : List Area} {h h' : List (Event ops)} (hext : Extends areas h h') :
    h ⊆ h' := by
  obtain ⟨l, rfl, -⟩ := hext
  exact List.subset_append_left h l

/-- Frame rule for histories: a program meets any demand that is silent on its areas. -/
theorem Touches.histories {areas : List Area} {P : List (Event ops) → Event ops → Prop}
    (hP : ∀ h ev, ev.op.area ∈ areas → P h ev) {p : ServerM α} (hp : Touches areas p)
    {h : List (Event ops)} :
    Program.wp (Program.histories P) (fun _ h' => Extends areas h h') p h := by
  refine Program.wp_of_uses (I := ops) (P := fun o : Op => o.area ∈ areas) ?_ hp Extends.refl
  rintro h' o r _ ho hext rfl
  exact ⟨hP h' _ ho, hext.snoc ho⟩

end Server

/-! ### The areas of each program -/

section programs
open Server

theorem note_rejected_spares (replay : Bool) :
    Spares Op.notes [.status, .blacklist] (note_rejected replay) :=
  spares_call (by simp [Op.area]) rfl fun _ => spares_perform (by simp [Op.area]) rfl

theorem note_rejected_touches (replay : Bool) :
    Touches [.status, .blacklist] (note_rejected replay) := (note_rejected_spares replay).touches

theorem note_faulty_touches (ip : IpAddr) : Touches [.status, .blacklist] (note_faulty ip) :=
  touches_bind (note_rejected_touches false) fun _ =>
    touches_bind (touches_perform (by simp [Op.area])) fun _ => touches_pure

theorem execute_touches (x : Executor) (h : HookCall) : Touches [.hook] (execute x h) := by
  unfold execute
  apply touches_call (by simp [Op.area])
  intro permit
  split
  · exact touches_pure
  apply touches_call (by simp [Op.area])
  intro spawned
  split
  · exact touches_pure
  apply touches_call (by simp [Op.area])
  intro outcome
  split <;> exact touches_pure

namespace Server

variable (srv : Server)

theorem decrypt_param_spares (blob : Option Bytes) :
    Spares Op.notes [.status, .blacklist] (srv.decrypt_param blob) := by
  unfold decrypt_param
  split
  · exact spares_pure
  · split
    · exact spares_pure
    · exact spares_bind (note_rejected_spares false) fun _ => spares_pure

theorem decrypt_param_touches (blob : Option Bytes) :
    Touches [.status, .blacklist] (srv.decrypt_param blob) :=
      (srv.decrypt_param_spares blob).touches

theorem send_reply_touches (packet : Packet) (peer : SocketAddr) (reply : ReplyMode)
    (bind : Bytes) : Touches [.reply] (srv.send_reply packet peer reply bind) := by
  unfold send_reply
  dsimp only
  split
  · exact touches_perform (by simp [Op.area])
  · split
    · exact touches_pure
    · apply touches_call (by simp [Op.area])
      intro blob
      split
      · exact touches_perform (by simp [Op.area])
      · exact touches_pure

theorem send_challenge_spares (hello : Hello) (nonce : ByteVec CHALLENGE_NONCE_LEN)
    (expires_at : Int64) (peer : SocketAddr) (reply : ReplyMode) :
    Spares Op.notes [.reply, .status] (srv.send_challenge hello nonce expires_at peer reply) := by
  have hreply := (srv.send_reply_touches (.Challenge ⟨hello.client_id, nonce, expires_at⟩)
    peer reply hello.hello_nonce.val).spares (by decide) (by decide)
  unfold send_challenge
  refine spares_bind (hreply.mono (by simp)) fun sent => ?_
  split
  · exact spares_perform (by simp [Op.area]) rfl
  · exact spares_pure

theorem send_challenge_touches (hello : Hello) (nonce : ByteVec CHALLENGE_NONCE_LEN)
    (expires_at : Int64) (peer : SocketAddr) (reply : ReplyMode) :
    Touches [.reply, .status] (srv.send_challenge hello nonce expires_at peer reply) :=
  (srv.send_challenge_spares hello nonce expires_at peer reply).touches

theorem issue_challenge_spares (hello : Hello) (peer : SocketAddr) (reply : ReplyMode)
    (now : Int64) :
    Spares Op.notes [.active, .random, .nonces, .reply, .status]
      (srv.issue_challenge hello peer reply now) := by
  unfold issue_challenge
  apply spares_call (by simp [Op.area]) rfl
  intro _
  apply spares_call (by simp [Op.area]) rfl
  intro nonce
  apply spares_call (by simp [Op.area]) rfl
  intro _
  exact (srv.send_challenge_spares _ _ _ _ _).mono (by simp)

theorem handle_hello_spares (hello : Hello) (peer : SocketAddr) (reply : ReplyMode) :
    Spares Op.notes [.rate, .signature, .clock, .cache, .active, .random, .nonces, .reply, .status,
      .blacklist] (srv.handle_hello hello peer reply) := by
  have hrejected (replay : Bool) : Spares Op.notes
      [.rate, .signature, .clock, .cache, .active, .random, .nonces, .reply, .status, .blacklist]
      (note_rejected replay) :=
    (note_rejected_spares replay).mono (by simp)
  unfold handle_hello
  apply spares_call (by simp [Op.area]) rfl
  intro allowed
  split
  · exact hrejected false
  split
  · exact spares_bind (spares_perform (by simp [Op.area]) rfl) fun _ => hrejected false
  apply spares_call (by simp [Op.area]) rfl
  intro checked
  split
  · exact hrejected false
  apply spares_call (by simp [Op.area]) rfl
  intro now
  split
  · exact hrejected false
  apply spares_call (by simp [Op.area]) rfl
  intro fresh
  split
  · exact hrejected true
  · exact (srv.issue_challenge_spares hello peer reply now).mono (by simp)

theorem handle_hello_touches (hello : Hello) (peer : SocketAddr) (reply : ReplyMode) :
    Touches [.rate, .signature, .clock, .cache, .active, .random, .nonces, .reply, .status,
      .blacklist] (srv.handle_hello hello peer reply) :=
  (srv.handle_hello_spares hello peer reply).touches

theorem verify_and_consume_spares
    (payload : Str → Str → Str → UInt32 → Int64 → Str → Bytes) (client_id : ClientId)
    (nonce : ByteVec CHALLENGE_NONCE_LEN) (interval_seconds : UInt32) (param : Option Bytes)
    (signature : ByteVec SIG_LEN) (peer : SocketAddr) :
    Spares Op.notes [.signature, .clock, .nonces, .status, .blacklist]
      (srv.verify_and_consume payload client_id nonce interval_seconds param signature peer) := by
  have hrejected (replay : Bool) : Spares Op.notes
      [.signature, .clock, .nonces, .status, .blacklist]
      (do note_rejected replay; return (none : Option Str)) :=
    spares_bind ((note_rejected_spares replay).mono (by simp)) fun _ => spares_pure
  unfold verify_and_consume
  dsimp only
  split
  · exact spares_bind (spares_perform (by simp [Op.area]) rfl) fun _ => hrejected false
  apply spares_call (by simp [Op.area]) rfl
  intro now
  apply spares_call (by simp [Op.area]) rfl
  intro entry
  split
  · exact hrejected _
  apply spares_call (by simp [Op.area]) rfl
  intro checked
  split
  · exact hrejected false
  apply spares_call (by simp [Op.area]) rfl
  intro now
  apply spares_call (by simp [Op.area]) rfl
  intro consumed
  split
  · exact hrejected _
  · exact spares_pure

theorem verify_and_consume_touches
    (payload : Str → Str → Str → UInt32 → Int64 → Str → Bytes) (client_id : ClientId)
    (nonce : ByteVec CHALLENGE_NONCE_LEN) (interval_seconds : UInt32) (param : Option Bytes)
    (signature : ByteVec SIG_LEN) (peer : SocketAddr) :
    Touches [.signature, .clock, .nonces, .status, .blacklist]
      (srv.verify_and_consume payload client_id nonce interval_seconds param signature peer) :=
  (srv.verify_and_consume_spares _ _ _ _ _ _ _).touches

theorem note_granted_touches (name : Str) (h : HookCall) (result : CommandResult) :
    Touches [.cooldown, .clock, .status] (note_granted name h result) :=
  touches_bind (touches_perform (by simp [Op.area])) fun _ =>
    touches_bind (touches_perform (by simp [Op.area])) fun _ =>
      touches_perform (by simp [Op.area])

theorem run_grant_touches (name : Str) (h : HookCall) :
    Touches [.hook, .cooldown, .clock, .status] (run_grant name h) := by
  unfold run_grant
  refine touches_bind ((execute_touches _ _).mono (by simp)) fun result => ?_
  split
  · exact touches_pure
  · exact (note_granted_touches _ _ _).mono (by simp)

theorem note_revoked_touches (name : Str) (h : HookCall) (result : CommandResult) :
    Touches [.clock, .status] (note_revoked name h result) :=
  touches_bind (touches_perform (by simp [Op.area])) fun _ =>
    touches_perform (by simp [Op.area])

theorem run_revoke_touches (name : Str) (h : HookCall) :
    Touches [.hook, .clock, .status] (run_revoke name h) := by
  unfold run_revoke
  refine touches_bind ((execute_touches _ _).mono (by simp)) fun result => ?_
  split
  · exact touches_pure
  · exact (note_revoked_touches _ _ _).mono (by simp)

theorem note_pulse_touches (name : Str) (peer : SocketAddr) :
    Touches [.active, .clock, .status] (note_pulse name peer) :=
  touches_bind (touches_perform (by simp [Op.area])) fun _ =>
    touches_bind (touches_perform (by simp [Op.area])) fun _ =>
      touches_perform (by simp [Op.area])

theorem within_cooldown_touches (is_new : Bool) (client_hex : Str) :
    Touches [.cooldown] (within_cooldown is_new client_hex) := by
  unfold within_cooldown
  split
  · exact touches_pure
  · exact touches_perform (by simp [Op.area])

theorem response_verified_touches (client_hex : Str) (interval_seconds : UInt32) (name : Str)
    (param : Option Str) (peer : SocketAddr) :
    Touches [.active, .clock, .status, .leases, .cooldown, .hook]
      (srv.response_verified client_hex interval_seconds name param peer) := by
  unfold response_verified
  refine touches_bind ((note_pulse_touches name peer).mono (by simp)) fun _ => ?_
  apply touches_call (by simp [Op.area])
  intro is_new
  refine touches_bind ((within_cooldown_touches is_new client_hex).mono (by simp)) fun skip => ?_
  split
  · exact touches_pure
  apply touches_call (by simp [Op.area])
  intro ip_clients
  exact (run_grant_touches name _).mono (by simp)

theorem bye_verified_touches (client_hex : Str) (bye_param : Option Str) :
    Touches [.leases, .hook, .clock, .status] (srv.bye_verified client_hex bye_param) := by
  unfold bye_verified
  apply touches_call (by simp [Op.area])
  intro released
  split
  · exact touches_pure
  split
  · exact touches_pure
  · exact (run_revoke_touches _ _).mono (by simp)

theorem run_lease_scan_touches : Touches [.leases, .hook, .clock, .status] srv.run_lease_scan := by
  unfold run_lease_scan
  apply touches_call (by simp [Op.area])
  intro expired
  split
  · exact touches_pure
  · exact touches_each (fun x => (run_revoke_touches _ _).mono (by simp)) expired

theorem handle_response_spares (resp : Response) (peer : SocketAddr) :
    Spares Op.faults
      [.signature, .clock, .nonces, .status, .blacklist, .active, .leases, .cooldown, .hook]
      (srv.handle_response resp peer) := by
  unfold handle_response
  refine spares_bind ((srv.verify_and_consume_spares _ _ _ _ _ _ _).faults.mono (by simp))
    fun verified => ?_
  split
  · exact spares_pure
  refine spares_bind ((srv.decrypt_param_spares _).faults.mono (by simp)) fun param => ?_
  split
  · exact spares_pure
  · exact ((srv.response_verified_touches _ _ _ _ _).spares_faults (by decide)).mono (by simp)

theorem handle_response_touches (resp : Response) (peer : SocketAddr) :
    Touches [.signature, .clock, .nonces, .status, .blacklist, .active, .leases, .cooldown, .hook]
      (srv.handle_response resp peer) := (srv.handle_response_spares resp peer).touches

theorem handle_bye_spares (bye : Bye) (peer : SocketAddr) :
    Spares Op.faults [.signature, .clock, .nonces, .status, .blacklist, .leases, .hook]
      (srv.handle_bye bye peer) := by
  unfold handle_bye
  refine spares_bind ((srv.verify_and_consume_spares _ _ _ _ _ _ _).faults.mono (by simp))
    fun verified => ?_
  split
  · exact spares_pure
  refine spares_bind ((srv.decrypt_param_spares _).faults.mono (by simp)) fun bye_param => ?_
  split
  · exact spares_pure
  · exact ((srv.bye_verified_touches _ _).spares_faults (by decide)).mono (by simp)

theorem handle_bye_touches (bye : Bye) (peer : SocketAddr) :
    Touches [.signature, .clock, .nonces, .status, .blacklist, .leases, .hook]
      (srv.handle_bye bye peer) := (srv.handle_bye_spares bye peer).touches

end Server

end programs

end SignedPulse
