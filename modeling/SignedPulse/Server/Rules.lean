import SignedPulse.Server.Areas

/-! # Rules for whole tasks

    A task is a datagram or a cleanup tick. The rules here take a proof about
    the handlers to a proof about the tasks: the gates in front of a handler
    and the permit behind it only touch the blacklist, the active sources and
    the in-flight count.

    The second half says which operations change which table.
-/

namespace SignedPulse

namespace Server

variable {srv : Server} {τ : Type} {R : Program.Surroundings ops τ}

/-! ### From handlers to tasks -/

/-- The packet in a datagram, and the framing of a reply to it. -/
def packet_of (srv : Server) (data : Bytes) : Option (Packet × ReplyMode) :=
  match srv.unwrap data with
  | some (.ok (packet_bytes, reply)) => (Packet.decode packet_bytes).toOption.map (·, reply)
  | _ => none

/-- The packet that a task handles, and where it came from. -/
def packet_from (srv : Server) : Job → Option (Packet × SocketAddr)
  | .datagram data peer => (srv.packet_of data).map (fun x => (x.1, peer))
  | .cleanup => none

/-- Dispatch rule: one case per kind of packet. -/
theorem wp_handle_datagram {data : Bytes} {peer : SocketAddr} {Q : Unit → τ → Prop} {t : τ}
    (hdropped : Q () t) (hfaulty : Program.wp R Q (note_faulty peer.ip) t)
    (hrejected : Program.wp R Q (note_rejected false) t)
    (hhello : ∀ hello reply, srv.packet_of data = some (.Hello hello, reply) →
      Program.wp R Q (srv.handle_hello hello peer reply) t)
    (hresponse : ∀ resp reply, srv.packet_of data = some (.Response resp, reply) →
      Program.wp R Q (srv.handle_response resp peer) t)
    (hbye : ∀ bye reply, srv.packet_of data = some (.Bye bye, reply) →
      Program.wp R Q (srv.handle_bye bye peer) t) :
    Program.wp R Q (srv.handle_datagram data peer) t := by
  unfold handle_datagram
  cases hunwrap : srv.unwrap data with
  | none => exact hdropped
  | some opened =>
    cases opened with
    | error e => exact hfaulty
    | ok inner =>
      obtain ⟨packet_bytes, reply⟩ := inner
      dsimp only
      cases hdecode : Packet.decode packet_bytes with
      | error e => exact hfaulty
      | ok packet =>
        have hpacket : srv.packet_of data = some (packet, reply) := by
          simp [packet_of, hunwrap, hdecode, Except.toOption]
        cases packet with
        | Hello hello => exact hhello hello reply hpacket
        | Challenge challenge => exact hrejected
        | Response resp => exact hresponse resp reply hpacket
        | Bye bye => exact hbye bye reply hpacket

/-- Permit rule: the gates preserve an invariant, and the permit, once it is acquired, what the
    handler starts with. -/
theorem wp_receive_held (Inv Held Done Q : τ → Prop) {data : Bytes} {peer : SocketAddr}
    (hgate : ∀ t o r t', o.area ∈ [Area.blacklist, .lockdown, .active] → Inv t →
      R.step t o r t' → R.must t ⟨o, r⟩ ∧ Inv t')
    (hdropped : ∀ t, Inv t → Q t)
    (hacquire : ∀ t r t', Inv t → R.step t .inflight_acquire r t' →
      R.must t ⟨.inflight_acquire, r⟩ ∧ if r = true then Held t' else Q t')
    (hhandler : ∀ t, Held t → Program.wp R (fun _ => Done) (srv.handle_datagram data peer) t)
    (hrelease : ∀ t r t', Done t → R.step t .inflight_release r t' →
      R.must t ⟨.inflight_release, r⟩ ∧ Q t')
    {t : τ} (h : Inv t) : Program.wp R (fun _ => Q) (srv.receive data peer) t := by
  have hpermit : ∀ t, Inv t → Program.wp R (fun _ => Q) (srv.with_permit data peer) t := by
    intro t h
    refine Program.wp_perform_bind.mpr fun permit t' hs => ?_
    obtain ⟨hmust, h'⟩ := hacquire t permit t' h hs
    refine ⟨hmust, ?_⟩
    cases permit with
    | false => exact h'
    | true =>
      apply Program.wp_seq (hhandler t' h')
      intro _ t₁ hdone
      exact Program.wp_perform.mpr fun r t₂ hs => hrelease t₁ r t₂ hdone hs
  unfold receive
  split
  · exact hdropped t h
  refine Program.wp_perform_bind.mpr fun blocked t₁ hs₁ => ?_
  obtain ⟨hm₁, h₁⟩ := hgate t _ blocked t₁ (by simp [Op.area]) h hs₁
  refine ⟨hm₁, ?_⟩
  split
  · exact hdropped t₁ h₁
  refine Program.wp_perform_bind.mpr fun attacked t₂ hs₂ => ?_
  obtain ⟨hm₂, h₂⟩ := hgate t₁ _ attacked t₂ (by simp [Op.area]) h₁ hs₂
  refine ⟨hm₂, ?_⟩
  split
  · refine Program.wp_perform_bind.mpr fun u t₃ hs₃ => ?_
    obtain ⟨hm₃, h₃⟩ := hgate t₂ _ u t₃ (by simp [Op.area]) h₂ hs₃
    refine ⟨hm₃, Program.wp_perform_bind.mpr fun active t₄ hs₄ => ?_⟩
    obtain ⟨hm₄, h₄⟩ := hgate t₃ _ active t₄ (by simp [Op.area]) h₃ hs₄
    refine ⟨hm₄, ?_⟩
    split
    · refine Program.wp_perform.mpr fun v t₅ hs₅ => ?_
      obtain ⟨hm₅, h₅⟩ := hgate t₄ _ v t₅ (by simp [Op.area]) h₄ hs₅
      exact ⟨hm₅, hdropped t₅ h₅⟩
    · exact hpermit t₄ h₄
  · refine Program.wp_perform_bind.mpr fun u t₃ hs₃ => ?_
    obtain ⟨hm₃, h₃⟩ := hgate t₂ _ u t₃ (by simp [Op.area]) h₂ hs₃
    exact ⟨hm₃, hpermit t₃ h₃⟩

/-- Gate rule: what the gates preserve holds when the handler starts. -/
theorem wp_receive (Inv Q : τ → Prop) {data : Bytes} {peer : SocketAddr}
    (hgate : ∀ t o r t', o.area ∈ [Area.blacklist, .lockdown, .active, .inflight] → Inv t →
      R.step t o r t' → R.must t ⟨o, r⟩ ∧ Inv t')
    (hdropped : ∀ t, Inv t → Q t)
    (hhandler : ∀ t, Inv t → Program.wp R (fun _ => Q) (srv.handle_datagram data peer) t)
    (hrelease : ∀ t r t', Q t → R.step t .inflight_release r t' →
      R.must t ⟨.inflight_release, r⟩ ∧ Q t')
    {t : τ} (h : Inv t) : Program.wp R (fun _ => Q) (srv.receive data peer) t := by
  refine wp_receive_held Inv Inv Q Q ?_ hdropped ?_ hhandler hrelease h
  · intro t o r t' ho
    exact hgate t o r t' (List.subset_append_left _ [Area.inflight] ho)
  · intro t permit t' h hs
    obtain ⟨hmust, h'⟩ := hgate t .inflight_acquire permit t' (by simp [Op.area]) h hs
    refine ⟨hmust, ?_⟩
    cases permit with
    | false => exact hdropped t' h'
    | true => exact h'

/-- What the cleanup tick does before the lease scan. -/
def purges : Op → Bool
  | .now_unix | .nonce_purge_expired _ | .seen_purge_expired _ | .rate_limiter_purge_stale
  | .blacklist_purge_stale | .active_purge_stale | .cooldown_purge_stale => true
  | _ => false

/-- Cleanup rule: what the purges preserve holds when the lease scan starts. -/
theorem wp_cleanup (Inv Q : τ → Prop)
    (hpurge : ∀ t o r t', purges o = true → Inv t → R.step t o r t' →
      R.must t ⟨o, r⟩ ∧ Inv t')
    (hscan : ∀ t, Inv t → Program.wp R (fun _ => Q) srv.run_lease_scan t)
    {t : τ} (h : Inv t) : Program.wp R (fun _ => Q) srv.cleanup t := by
  unfold cleanup
  refine Program.wp_perform_bind.mpr fun now t₁ hs => ?_
  obtain ⟨hm₁, h₁⟩ := hpurge t _ now t₁ rfl h hs
  refine ⟨hm₁, Program.wp_perform_bind.mpr fun removed t₂ hs => ?_⟩
  obtain ⟨hm₂, h₂⟩ := hpurge t₁ _ removed t₂ rfl h₁ hs
  refine ⟨hm₂, Program.wp_perform_bind.mpr fun forgotten t₃ hs => ?_⟩
  obtain ⟨hm₃, h₃⟩ := hpurge t₂ _ forgotten t₃ rfl h₂ hs
  refine ⟨hm₃, Program.wp_perform_bind.mpr fun u t₄ hs => ?_⟩
  obtain ⟨hm₄, h₄⟩ := hpurge t₃ _ u t₄ rfl h₃ hs
  refine ⟨hm₄, Program.wp_perform_bind.mpr fun u t₅ hs => ?_⟩
  obtain ⟨hm₅, h₅⟩ := hpurge t₄ _ u t₅ rfl h₄ hs
  refine ⟨hm₅, Program.wp_perform_bind.mpr fun u t₆ hs => ?_⟩
  obtain ⟨hm₆, h₆⟩ := hpurge t₅ _ u t₆ rfl h₅ hs
  refine ⟨hm₆, Program.wp_perform_bind.mpr fun u t₇ hs => ?_⟩
  obtain ⟨hm₇, h₇⟩ := hpurge t₆ _ u t₇ rfl h₆ hs
  exact ⟨hm₇, hscan t₇ h₇⟩

/-! ### Which operations change which table -/

variable {o : Op} {e : Env} {s : State}

theorem perform_seen_hellos (h : o.area ≠ .cache) :
    (srv.perform o e s).2.seen_hellos = s.seen_hellos := by
  cases o
  case seen_insert_if_absent => simp [Op.area] at h
  case seen_purge_expired => simp [Op.area] at h
  all_goals rfl

theorem perform_nonce_store (h : o.area ≠ .nonces) :
    (srv.perform o e s).2.nonce_store = s.nonce_store := by
  cases o
  case nonce_insert => simp [Op.area] at h
  case nonce_validate => simp [Op.area] at h
  case nonce_consume => simp [Op.area] at h
  case nonce_purge_expired => simp [Op.area] at h
  all_goals rfl

theorem perform_leases (h : o.area ≠ .leases) : (srv.perform o e s).2.leases = s.leases := by
  cases o
  case leases_renew => simp [Op.area] at h
  case leases_release => simp [Op.area] at h
  case leases_others_on_ip => simp [Op.area] at h
  case leases_take_expired => simp [Op.area] at h
  all_goals rfl

theorem perform_inflight (h : o.area ≠ .inflight) :
    (srv.perform o e s).2.inflight = s.inflight := by
  cases o <;> first | rfl | exact absurd rfl h

/-- Every operation takes its time, and nothing else moves the clock. -/
theorem perform_now : (srv.perform o e s).2.now = s.now + e.elapsed := by
  cases o <;> rfl

end Server

end SignedPulse
