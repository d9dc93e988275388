import SignedPulse.Framework.Automaton
import SignedPulse.Server.Rules

/-! # Every datagram is accounted for

    A datagram that gets past the gates takes an in-flight permit, and the
    server counts it: as rejected, as an accepted HELLO or as a verified pulse.
    `Passage` is how far the handling has come, and `prog_counted` says that
    every task goes that way.

    `datagrams_accounted` is what comes of it for the counters and for the
    permits, whatever the order of the steps.
-/

namespace SignedPulse

namespace Server

open Interleaving

/-! ### Passages -/

/-- What a datagram is tallied as. -/
inductive Tally where
  | rejected (replay : Bool)
  | hello_accepted
  | verified
  deriving DecidableEq

/-- The handling of a datagram that has a permit. -/
inductive Handling where
  | checking
  /-- A nonce was minted for the HELLO. -/
  | minted
  /-- A nonce was spent. -/
  | spent
  /-- The lease was released. -/
  | released
  | tallied (t : Tally)
  deriving DecidableEq

inductive Passage where
  /-- In front of the gates, or turned away there. -/
  | outside
  | inside (p : Handling)
  | left (p : Handling)
  deriving DecidableEq

/-- What an event has to do with it. -/
inductive Mark where
  | acquired (permit : Bool)
  | given_back
  | minted
  | spent
  | released
  | tallied (t : Tally)

def Mark.of_event : Event ops → Option Mark
  | ⟨.inflight_acquire, permit⟩ => some (.acquired permit)
  | ⟨.inflight_release, _⟩ => some .given_back
  | ⟨.nonce_insert .., _⟩ => some .minted
  | ⟨.nonce_consume .., .ok _⟩ => some .spent
  | ⟨.leases_release _, _⟩ => some .released
  | ⟨.status_update (.rejected replay), _⟩ => some (.tallied (.rejected replay))
  | ⟨.status_update .hello_accepted, _⟩ => some (.tallied .hello_accepted)
  | ⟨.status_update (.last_pulse ..), _⟩ => some (.tallied .verified)
  | _ => none

/-- The server has no key to open datagrams with. -/
def keyless (srv : Server) : Bool :=
  srv.config.wire_encryption = .Required && srv.server_secret.isNone

/-- When the handling may end. -/
def Handling.ends (srv : Server) : Handling → Bool
  | .checking => srv.keyless
  | .spent => false
  | _ => true

def Passage.next (srv : Server) : Passage → Mark → Option Passage
  | .outside, .acquired permit => some (if permit then .inside .checking else .outside)
  | .inside .checking, .minted => some (.inside .minted)
  | .inside .checking, .spent => some (.inside .spent)
  | .inside .spent, .released => some (.inside .released)
  | .inside .checking, .tallied (.rejected replay)
  | .inside .spent, .tallied (.rejected replay) => some (.inside (.tallied (.rejected replay)))
  | .inside .minted, .tallied .hello_accepted => some (.inside (.tallied .hello_accepted))
  | .inside .spent, .tallied .verified => some (.inside (.tallied .verified))
  | .inside p, .given_back => if p.ends srv then some (.left p) else none
  | _, _ => none

/-- The way of a datagram through the server. -/
def passages (srv : Server) : Automaton ops Passage where
  start := .outside
  next p ev :=
    match Mark.of_event ev with
    | none => some p
    | some mark => p.next srv mark
  final
    | .inside _ => False
    | _ => True

/-! ### The programs -/

section programs
variable {srv : Server} {α : Type} {p : Passage}

/-- Areas without marks. -/
def unmarked : List Area :=
  [.clock, .random, .signature, .rate, .cache, .active, .blacklist, .lockdown, .cooldown, .reply,
    .hook]

theorem mark_of_unmarked {o : Op} (h : o.area ∈ unmarked) (r : o.Res) :
    Mark.of_event ⟨o, r⟩ = none := by
  cases o <;> first | rfl | simp [Op.area, unmarked] at h

theorem passes_unmarked {ev : Event ops} (h : Mark.of_event ev = none) :
    srv.passages.next p ev = some p := by
  simp only [passages, h]

theorem passes_of_touches {areas : List Area} {q : ServerM α} (hq : Touches areas q)
    (hareas : areas ⊆ unmarked) :
    Program.wp srv.passages.follow (fun _ p' => p' = p) q p :=
  Automaton.wp_follow_of_uses (I := ops) (P := fun o : Op => o.area ∈ areas)
    (fun _ _ r ho => passes_unmarked (mark_of_unmarked (hareas ho) r)) hq

/-- An operation without a mark. -/
theorem passes_call {β : Type} {o : Op} {f : Op.Res o → ServerM β} {Q : β → Passage → Prop}
    (ho : ∀ r, Mark.of_event ⟨o, r⟩ = none)
    (hf : ∀ r, Program.wp srv.passages.follow Q (f r) p) :
    Program.wp srv.passages.follow Q (ServerM.perform o >>= f) p :=
  Automaton.wp_follow_call (fun _ => p) (fun r => passes_unmarked (ho r)) hf

theorem note_rejected_passes {q : Handling} (hq : q = .checking ∨ q = .spent) (replay : Bool) :
    Program.wp srv.passages.follow (fun _ p' => p' = .inside (.tallied (.rejected replay)))
      (note_rejected replay) (.inside q) := by
  unfold note_rejected
  refine Automaton.wp_follow_call (fun _ => .inside (.tallied (.rejected replay))) ?_ fun _ => ?_
  · intro _
    rcases hq with rfl | rfl <;> rfl
  · exact passes_of_touches (touches_perform (List.mem_singleton_self Area.blacklist))
      (by simp [unmarked])

/-- The handling has come to an end. -/
def Done (srv : Server) (p : Passage) : Prop := ∃ q, p = .inside q ∧ q.ends srv = true

theorem done_of_rejected {q : Handling} (hq : q = .checking ∨ q = .spent) (replay : Bool) :
    Program.wp srv.passages.follow (fun _ p' => srv.Done p') (note_rejected replay) (.inside q) :=
  Program.wp_mono (fun _ _ hp => ⟨_, hp, rfl⟩) (note_rejected_passes hq replay)

theorem note_faulty_passes (ip : IpAddr) :
    Program.wp srv.passages.follow (fun _ p' => srv.Done p') (note_faulty ip)
      (.inside .checking) := by
  unfold note_faulty
  refine Program.wp_seq (note_rejected_passes (.inl rfl) false) ?_
  rintro _ _ rfl
  exact passes_call (fun _ => rfl) fun _ => ⟨_, rfl, rfl⟩

theorem send_challenge_passes (hello : Hello) (nonce : ByteVec CHALLENGE_NONCE_LEN)
    (expires_at : Int64) (peer : SocketAddr) (reply : ReplyMode) :
    Program.wp srv.passages.follow (fun _ p' => srv.Done p')
      (srv.send_challenge hello nonce expires_at peer reply) (.inside .minted) := by
  unfold send_challenge
  refine Program.wp_seq (passes_of_touches (srv.send_reply_touches _ _ _ _) (by simp [unmarked])) ?_
  rintro sent _ rfl
  split
  · exact Automaton.wp_follow_call (fun _ => .inside (.tallied .hello_accepted)) (fun _ => rfl)
      fun _ => ⟨_, rfl, rfl⟩
  · exact ⟨_, rfl, rfl⟩

theorem handle_hello_passes (hello : Hello) (peer : SocketAddr) (reply : ReplyMode) :
    Program.wp srv.passages.follow (fun _ p' => srv.Done p') (srv.handle_hello hello peer reply)
      (.inside .checking) := by
  unfold handle_hello
  refine passes_call (fun _ => rfl) fun allowed => ?_
  split
  · exact done_of_rejected (.inl rfl) false
  split
  · exact passes_call (fun _ => rfl) fun _ => done_of_rejected (.inl rfl) false
  refine passes_call (fun _ => rfl) fun checked => ?_
  split
  · exact done_of_rejected (.inl rfl) false
  refine passes_call (fun _ => rfl) fun now => ?_
  split
  · exact done_of_rejected (.inl rfl) false
  refine passes_call (fun _ => rfl) fun fresh => ?_
  split
  · exact done_of_rejected (.inl rfl) true
  unfold issue_challenge
  refine passes_call (fun _ => rfl) fun _ => ?_
  refine passes_call (fun _ => rfl) fun nonce => ?_
  refine Automaton.wp_follow_call (fun _ => .inside .minted) (fun _ => rfl) fun _ => ?_
  exact send_challenge_passes _ _ _ _ _

/-- Either the nonce is spent, or the packet is tallied as rejected. -/
theorem verify_and_consume_passes
    (payload : Str → Str → Str → UInt32 → Int64 → Str → Bytes) (client_id : ClientId)
    (nonce : ByteVec CHALLENGE_NONCE_LEN) (interval_seconds : UInt32) (param : Option Bytes)
    (signature : ByteVec SIG_LEN) (peer : SocketAddr) :
    Program.wp srv.passages.follow
      (fun verified p' => if verified.isSome then p' = .inside .spent else srv.Done p')
      (srv.verify_and_consume payload client_id nonce interval_seconds param signature peer)
      (.inside .checking) := by
  have hrejected (replay : Bool) : Program.wp srv.passages.follow
      (fun verified p' => if verified.isSome then p' = .inside .spent else srv.Done p')
      (do note_rejected replay; return (none : Option Str)) (.inside .checking) :=
    Program.wp_seq (done_of_rejected (.inl rfl) replay) fun _ _ h => h
  unfold verify_and_consume
  dsimp only
  split
  · exact passes_call (fun _ => rfl) fun _ => hrejected false
  refine passes_call (fun _ => rfl) fun now => ?_
  refine passes_call (fun _ => rfl) fun entry => ?_
  split
  · exact hrejected _
  refine passes_call (fun _ => rfl) fun checked => ?_
  split
  · exact hrejected false
  refine passes_call (fun _ => rfl) fun now => ?_
  refine Automaton.wp_follow_call
    (fun consumed => .inside (if consumed.toOption.isSome then .spent else .checking)) ?_ ?_
  · intro consumed
    cases consumed <;> rfl
  · intro consumed
    cases consumed with
    | error e => exact hrejected _
    | ok entry => exact rfl

theorem decrypt_param_passes (blob : Option Bytes) :
    Program.wp srv.passages.follow
      (fun param p' => if param.toOption.isSome then p' = .inside .spent else srv.Done p')
      (srv.decrypt_param blob) (.inside .spent) := by
  unfold decrypt_param
  split
  · exact rfl
  · split
    · exact rfl
    · exact Program.wp_seq (done_of_rejected (.inr rfl) false) fun _ _ h => h

theorem execute_passes (x : Executor) (call : HookCall) :
    Program.wp srv.passages.follow (fun _ p' => p' = p) (execute x call) p :=
  passes_of_touches (execute_touches x call) (by simp [unmarked])

theorem run_revoke_passes (name : Str) (call : HookCall) :
    Program.wp srv.passages.follow (fun _ p' => p' = p) (run_revoke name call) p := by
  unfold run_revoke
  refine Program.wp_seq (execute_passes .revoke call) ?_
  rintro result _ rfl
  split
  · exact rfl
  unfold note_revoked
  refine passes_call (fun _ => rfl) fun at_unix => ?_
  exact passes_call (fun _ => rfl) fun _ => rfl

theorem run_grant_passes (name : Str) (call : HookCall) :
    Program.wp srv.passages.follow (fun _ p' => p' = p) (run_grant name call) p := by
  unfold run_grant
  refine Program.wp_seq (execute_passes .grant call) ?_
  rintro result _ rfl
  split
  · exact rfl
  unfold note_granted
  refine passes_call (fun _ => rfl) fun _ => ?_
  refine passes_call (fun _ => rfl) fun at_unix => ?_
  exact passes_call (fun _ => rfl) fun _ => rfl

theorem response_verified_passes (client_hex : Str) (interval_seconds : UInt32) (name : Str)
    (param : Option Str) (peer : SocketAddr) :
    Program.wp srv.passages.follow (fun _ p' => srv.Done p')
      (srv.response_verified client_hex interval_seconds name param peer) (.inside .spent) := by
  unfold response_verified note_pulse
  refine passes_call (fun _ => rfl) fun _ => ?_
  refine passes_call (fun _ => rfl) fun at_unix => ?_
  refine Automaton.wp_follow_call (fun _ => .inside (.tallied .verified)) (fun _ => rfl) fun _ => ?_
  refine passes_call (fun _ => rfl) fun is_new => ?_
  refine Program.wp_seq
    (passes_of_touches (within_cooldown_touches is_new client_hex) (by simp [unmarked])) ?_
  rintro skip _ rfl
  split
  · exact ⟨_, rfl, rfl⟩
  refine passes_call (fun _ => rfl) fun ip_clients => ?_
  exact Program.wp_mono (fun _ _ hp => ⟨_, hp, rfl⟩) (run_grant_passes _ _)

theorem handle_response_passes (resp : Response) (peer : SocketAddr) :
    Program.wp srv.passages.follow (fun _ p' => srv.Done p') (srv.handle_response resp peer)
      (.inside .checking) := by
  unfold handle_response
  refine Program.wp_seq (verify_and_consume_passes _ _ _ _ _ _ _) fun verified p' hp' => ?_
  cases verified with
  | none => exact hp'
  | some name =>
    obtain rfl : p' = .inside .spent := hp'
    refine Program.wp_seq (decrypt_param_passes _) fun param p' hp' => ?_
    cases param with
    | error _ => exact hp'
    | ok param =>
      obtain rfl : p' = .inside .spent := hp'
      exact response_verified_passes _ _ _ _ _

theorem bye_verified_passes (client_hex : Str) (bye_param : Option Str) :
    Program.wp srv.passages.follow (fun _ p' => srv.Done p') (srv.bye_verified client_hex bye_param)
      (.inside .spent) := by
  unfold bye_verified
  refine Automaton.wp_follow_call (fun _ => .inside .released) (fun _ => rfl) fun released => ?_
  split
  · exact ⟨_, rfl, rfl⟩
  split
  · exact ⟨_, rfl, rfl⟩
  exact Program.wp_mono (fun _ _ hp => ⟨_, hp, rfl⟩) (run_revoke_passes _ _)

theorem handle_bye_passes (bye : Bye) (peer : SocketAddr) :
    Program.wp srv.passages.follow (fun _ p' => srv.Done p') (srv.handle_bye bye peer)
      (.inside .checking) := by
  unfold handle_bye
  refine Program.wp_seq (verify_and_consume_passes _ _ _ _ _ _ _) fun verified p' hp' => ?_
  cases verified with
  | none => exact hp'
  | some name =>
    obtain rfl : p' = .inside .spent := hp'
    refine Program.wp_seq (decrypt_param_passes _) fun bye_param p' hp' => ?_
    cases bye_param with
    | error _ => exact hp'
    | ok bye_param =>
      obtain rfl : p' = .inside .spent := hp'
      exact bye_verified_passes _ _

theorem keyless_of_unwrap {data : Bytes} (h : srv.unwrap data = none) : srv.keyless = true := by
  unfold unwrap at h
  split at h
  · cases h
  · rename_i hwire
    split at h
    · rename_i hsecret
      simp [keyless, hwire, hsecret]
    · split at h <;> cases h

theorem handle_datagram_passes (data : Bytes) (peer : SocketAddr) :
    Program.wp srv.passages.follow (fun _ p' => srv.Done p') (srv.handle_datagram data peer)
      (.inside .checking) := by
  unfold handle_datagram
  split
  · rename_i hunwrap
    exact ⟨.checking, rfl, keyless_of_unwrap hunwrap⟩
  · exact note_faulty_passes _
  split
  · exact note_faulty_passes _
  · exact handle_hello_passes _ _ _
  · exact handle_response_passes _ _
  · exact handle_bye_passes _ _
  · exact done_of_rejected (.inl rfl) false

/-- Every task goes the way of a datagram. -/
theorem prog_counted (srv : Server) (job : Job) : srv.passages.Accepts (srv.prog job) := by
  cases job with
  | datagram data peer =>
    refine wp_receive_held (fun p => p = .outside) (fun p => p = .inside .checking) srv.Done
      srv.passages.final ?_ ?_ ?_ ?_ ?_ rfl
    · rintro _ o r _ ho rfl rfl
      have hnext : srv.passages.next .outside ⟨o, r⟩ = some .outside :=
        passes_unmarked (mark_of_unmarked (by simp [unmarked] at ho ⊢; grind) r)
      exact ⟨Option.isSome_of_eq_some hnext, Automaton.advance_of_next hnext⟩
    · rintro _ rfl
      trivial
    · rintro _ permit _ rfl rfl
      cases permit with
      | false => exact ⟨rfl, trivial⟩
      | true => exact ⟨rfl, rfl⟩
    · rintro _ rfl
      exact handle_datagram_passes data peer
    · rintro _ r _ ⟨q, rfl, hends⟩ rfl
      have hnext : srv.passages.next (.inside q) ⟨.inflight_release, r⟩ = some (.left q) := by
        cases q <;> simp [passages, Mark.of_event, Passage.next, hends]
      exact ⟨Option.isSome_of_eq_some hnext, by rw [Automaton.advance_of_next hnext]; trivial⟩
  | cleanup =>
    refine wp_cleanup (fun p => p = .outside) srv.passages.final ?_ ?_ rfl
    · rintro _ o r _ ho rfl rfl
      have hnext : srv.passages.next .outside ⟨o, r⟩ = some .outside := by
        cases o <;> first | rfl | cases ho
      exact ⟨Option.isSome_of_eq_some hnext, Automaton.advance_of_next hnext⟩
    · rintro _ rfl
      unfold run_lease_scan
      refine passes_call (fun _ => rfl) fun expired => ?_
      split
      · trivial
      refine Program.wp_mono ?_ (Program.wp_each (fun _ p => p = .outside) ?_ rfl)
      · rintro _ _ rfl
        trivial
      · rintro x xs _ rfl
        exact run_revoke_passes _ _

end programs

/-! ### What the events of a task say -/

def Mark.tally : Mark → Option Tally
  | .tallied t => some t
  | _ => none

def Passage.tally : Passage → Option Tally
  | .inside (.tallied t) | .left (.tallied t) => some t
  | _ => none

def Mark.admits : Mark → Bool
  | .acquired permit => permit
  | _ => false

def Mark.returns : Mark → Bool
  | .given_back => true
  | _ => false

/-- What the task was tallied as. -/
def tallies (evs : List (Event ops)) : List Tally :=
  evs.filterMap fun ev => (Mark.of_event ev).bind Mark.tally

/-- The task has got a permit. -/
def admitted (evs : List (Event ops)) : Bool :=
  evs.any fun ev => (Mark.of_event ev).any Mark.admits

/-- The task has given its permit back. -/
def returned (evs : List (Event ops)) : Bool :=
  evs.any fun ev => (Mark.of_event ev).any Mark.returns

section paths
variable {srv : Server} {p p' : Passage} {ev : Event ops} {evs : List (Event ops)} {mark : Mark}

theorem passes_cases (h : srv.passages.next p ev = some p') :
    (Mark.of_event ev = none ∧ p' = p) ∨ ∃ mark, Mark.of_event ev = some mark ∧
      p.next srv mark = some p' := by
  simp only [passages] at h
  cases hmark : Mark.of_event ev with
  | none =>
    rw [hmark] at h
    exact .inl ⟨rfl, (Option.some.inj h).symm⟩
  | some mark =>
    rw [hmark] at h
    exact .inr ⟨mark, rfl, h⟩

/-- The moves, one by one. -/
inductive Passage.Goes (srv : Server) : Passage → Mark → Passage → Prop where
  | refused : Goes srv .outside (.acquired false) .outside
  | admitted : Goes srv .outside (.acquired true) (.inside .checking)
  | minted : Goes srv (.inside .checking) .minted (.inside .minted)
  | spent : Goes srv (.inside .checking) .spent (.inside .spent)
  | released : Goes srv (.inside .spent) .released (.inside .released)
  | rejected (q : Handling) (hq : q = .checking ∨ q = .spent) (replay : Bool) :
      Goes srv (.inside q) (.tallied (.rejected replay)) (.inside (.tallied (.rejected replay)))
  | accepted :
      Goes srv (.inside .minted) (.tallied .hello_accepted) (.inside (.tallied .hello_accepted))
  | verified : Goes srv (.inside .spent) (.tallied .verified) (.inside (.tallied .verified))
  | given_back (q : Handling) (hends : q.ends srv = true) :
      Goes srv (.inside q) .given_back (.left q)

theorem Passage.goes_of_next (h : p.next srv mark = some p') : p.Goes srv mark p' := by
  unfold Passage.next at h
  split at h
  case h_1 permit =>
    obtain rfl := Option.some.inj h
    cases permit with
    | false => exact .refused
    | true => exact .admitted
  case h_5 replay =>
    obtain rfl := Option.some.inj h
    exact .rejected _ (.inl rfl) replay
  case h_6 replay =>
    obtain rfl := Option.some.inj h
    exact .rejected _ (.inr rfl) replay
  case h_9 q =>
    split at h
    · rename_i hends
      obtain rfl := Option.some.inj h
      exact .given_back q hends
    · cases h
  all_goals
    cases h
    try constructor

/-- An event is silent, or the task makes a move. -/
theorem passes_goes (h : srv.passages.next p ev = some p') :
    (Mark.of_event ev = none ∧ p' = p) ∨ ∃ mark, Mark.of_event ev = some mark ∧
      p.Goes srv mark p' := by
  rcases passes_cases h with hquiet | ⟨mark, hmark, hnext⟩
  · exact .inl hquiet
  · exact .inr ⟨mark, hmark, Passage.goes_of_next hnext⟩

theorem Passage.Goes.tally (h : p.Goes srv mark p') :
    p'.tally.toList = p.tally.toList ++ mark.tally.toList := by
  cases h with
  | rejected q hq replay => rcases hq with rfl | rfl <;> rfl
  | given_back q hends => cases q <;> rfl
  | _ => rfl

def Passage.is_admitted : Passage → Bool
  | .outside => false
  | _ => true

def Passage.has_left : Passage → Bool
  | .left _ => true
  | _ => false

theorem Passage.Goes.admissions (h : p.Goes srv mark p') :
    p'.is_admitted = (p.is_admitted || mark.admits) := by
  cases h <;> rfl

theorem Passage.Goes.returns (h : p.Goes srv mark p') :
    p'.has_left = (p.has_left || mark.returns) := by
  cases h <;> rfl

/-- What a task was tallied as, and whether it holds a permit, can be told from its passage. -/
theorem told_of_path (h : srv.passages.Path p evs p') :
    p'.tally.toList = p.tally.toList ++ tallies evs ∧
      p'.is_admitted = (p.is_admitted || admitted evs) ∧
      p'.has_left = (p.has_left || returned evs) := by
  induction evs generalizing p with
  | nil =>
    obtain rfl : p = p' := h
    simp [tallies, admitted, returned]
  | cons ev evs ih =>
    obtain ⟨p₁, hnext, hrest⟩ := h
    obtain ⟨htally, hadmitted, hreturned⟩ := ih hrest
    rcases passes_goes hnext with ⟨hmark, rfl⟩ | ⟨mark, hmark, hgoes⟩
    · simpa [tallies, admitted, returned, hmark] using ⟨htally, hadmitted, hreturned⟩
    · rw [hgoes.tally] at htally
      rw [hgoes.admissions] at hadmitted
      rw [hgoes.returns] at hreturned
      refine ⟨?_, ?_, ?_⟩
      · rw [htally]
        unfold tallies
        rw [List.filterMap_cons, hmark]
        cases htold : mark.tally <;> simp [htold]
      · rw [hadmitted]
        simp [admitted, hmark, Bool.or_assoc]
      · rw [hreturned]
        simp [returned, hmark, Bool.or_assoc]

/-- A HELLO whose nonce was minted, and a BYE that released its lease, need not be tallied; nor what
    a server without a key receives. -/
def silent (srv : Server) (evs : List (Event ops)) : Prop :=
  srv.keyless = true ∨ ∃ ev ∈ evs, Mark.of_event ev = some .minted ∨
    Mark.of_event ev = some .released

/-- Who has left without being tallied. -/
theorem silent_of_path {q : Handling} (h : srv.passages.Path .outside evs (.left q))
    (huncounted : Passage.tally (.left q) = none) : srv.silent evs := by
  have hends : (Passage.left q).has_left = true → q.ends srv = true := by
    have hkept := h.kept (φ := fun p => ∀ q, p = .left q → q.ends srv = true) ?_ nofun
    · exact fun _ => hkept q rfl
    · intro p ev p' hnext hp q hq
      rcases passes_goes hnext with ⟨-, rfl⟩ | ⟨mark, -, hgoes⟩
      · exact hp q hq
      · cases hgoes <;> cases hq
        assumption
  -- where the handling has ended tells what it did last
  have hentered (p : Handling) (mark : Mark) (hp : p ≠ .checking)
      (honly : ∀ p₁ mark', Passage.Goes srv p₁ mark' (.inside p) → mark' = mark)
      (hq : q = p) : ∃ ev ∈ evs, Mark.of_event ev = some mark := by
    subst hq
    have hor := h.entered (φ := fun p' => p' = .inside q ∨ p' = .left q)
      (ψ := fun ev => Mark.of_event ev = some mark) ?_ (.inr rfl)
    · rcases hor with (hp | hp) | hev
      · cases hp
      · cases hp
      · exact hev
    · intro p₁ ev p₂ hnext hp₂
      rcases passes_goes hnext with ⟨-, rfl⟩ | ⟨mark', hmark, hgoes⟩
      · exact .inl hp₂
      · rcases hp₂ with rfl | rfl
        · exact .inr (by rw [hmark, honly p₁ mark' hgoes])
        · cases hgoes
          exact .inl (.inl rfl)
  cases q with
  | checking => exact .inl (hends rfl)
  | minted =>
    obtain ⟨ev, hev, hmark⟩ := hentered .minted .minted nofun (fun _ _ h => by cases h; rfl) rfl
    exact .inr ⟨ev, hev, .inl hmark⟩
  | spent => cases hends rfl
  | released =>
    obtain ⟨ev, hev, hmark⟩ := hentered .released .released nofun (fun _ _ h => by cases h; rfl) rfl
    exact .inr ⟨ev, hev, .inr hmark⟩
  | tallied t => cases huncounted

end paths

/-! ### Counters and permits -/

section runs
variable {srv : Server} {now : Instant} {unix : Int64} {c : Config ops State Job}
  {ms : List (Moment ops Env State)} {p p' : Passage} {o : Op} {e : Env} {s : State}

/-- The passage of task `i`. -/
abbrev passage_of (srv : Server) (i : Nat) (ms : List (Moment ops Env State)) : Passage :=
  srv.passages.stage srv.machine i ms

theorem told_of_recorded (h : Recorded srv.machine srv.prog (srv.start now unix) c ms) (i : Nat) :
    (srv.passage_of i ms).tally.toList = tallies (own i c.log) ∧
      (srv.passage_of i ms).is_admitted = admitted (own i c.log) ∧
      (srv.passage_of i ms).has_left = returned (own i c.log) := by
  have hpath := Automaton.path_of_recorded srv.prog_counted h i
  rw [h.log, own_events]
  exact told_of_path hpath

/-- A counter of the status that goes up by one whenever a task is tallied as `k`. -/
structure CounterOf (srv : Server) (f : ServerStatus → UInt64) (k : Tally → Bool) : Prop where
  start : f (srv.start 0 0).status = 0
  step : ∀ o e s, f (srv.perform o e s).2.status = f s.status + UInt64.ofNat
    (((Mark.of_event ⟨o, (srv.perform o e s).1⟩).bind Mark.tally).toList.countP k)

theorem counter_eq {f : ServerStatus → UInt64} {k : Tally → Bool} (hf : srv.CounterOf f k)
    (h : Recorded srv.machine srv.prog (srv.start now unix) c ms) :
    ∀ n, (∀ y ∈ ms, y.task < n) → f c.state.status =
      UInt64.ofNat (srv.passages.count srv.machine (fun p => p.tally.any k) n ms) := by
  refine Automaton.invariant srv.prog_counted (fun s ms => ∀ n, (∀ y ∈ ms, y.task < n) →
    f s.status = UInt64.ofNat (srv.passages.count srv.machine (fun p => p.tally.any k) n ms))
    ?_ ?_ h
  · intro n _
    have hnone : srv.passages.count srv.machine (fun p => p.tally.any k) n [] = 0 :=
      List.countP_eq_zero.mpr fun _ _ => Bool.noConfusion
    rw [hnone]
    exact hf.start
  · intro c ms x p' _ _ ih hnext n hn
    have hold := ih n fun z hz => hn z (List.mem_append_left _ hz)
    have hcount := Automaton.count_snoc (A := srv.passages) (m := srv.machine) ms
      (fun p => p.tally.any k) (hn x (by simp))
    rw [Automaton.stage_snoc_self, Automaton.advance_of_next hnext] at hcount
    have hany (t : Option Tally) : (t.any k).toNat = t.toList.countP k := by
      cases t with
      | none => rfl
      | some t => cases ht : k t <;> simp [ht]
    -- the move adds to the task what the event adds to the counter
    have htally : p'.tally.toList.countP k =
        (srv.passages.stage srv.machine x.task ms).tally.toList.countP k +
        ((Mark.of_event (x.event srv.machine)).bind Mark.tally).toList.countP k := by
      rcases passes_goes hnext with ⟨hmark, rfl⟩ | ⟨mark, hmark, hgoes⟩
      · rw [hmark]
        rfl
      · rw [hmark, hgoes.tally, List.countP_append]
        rfl
    rw [hany, hany] at hcount
    have hsum : srv.passages.count srv.machine (fun p => p.tally.any k) n (ms ++ [x]) =
        srv.passages.count srv.machine (fun p => p.tally.any k) n ms +
          ((Mark.of_event (x.event srv.machine)).bind Mark.tally).toList.countP k := by omega
    rw [hsum, UInt64.ofNat_add, ← hold]
    exact hf.step x.op x.env x.state

/-- The task has a permit. -/
def Passage.holds (p : Passage) : Bool := p.is_admitted && !p.has_left

theorem mark_of_other {ev : Event ops} (h : ev.op.area ≠ .inflight) :
    (∀ permit, Mark.of_event ev ≠ some (.acquired permit)) ∧
      Mark.of_event ev ≠ some .given_back := by
  obtain ⟨o, r⟩ := ev
  cases o
  case inflight_acquire => exact absurd rfl h
  case inflight_release => exact absurd rfl h
  case nonce_consume => cases r <;> exact ⟨nofun, nofun⟩
  case status_update u => cases u <;> exact ⟨nofun, nofun⟩
  all_goals exact ⟨nofun, nofun⟩

theorem inflight_step (hnext : srv.passages.next p ⟨o, (srv.perform o e s).1⟩ = some p')
    (hpos : p.holds = true → 0 < s.inflight) :
    (srv.perform o e s).2.inflight + p.holds.toNat = s.inflight + p'.holds.toNat := by
  by_cases harea : o.area = .inflight
  · cases o <;> simp only [Op.area, reduceCtorEq] at harea
    case inflight_acquire =>
      have hafter : (srv.perform .inflight_acquire e s).2.inflight =
          if (srv.perform .inflight_acquire e s).1 then s.inflight + 1 else s.inflight := rfl
      rw [hafter]
      rcases passes_goes hnext with ⟨hmark, -⟩ | ⟨mark, hmark, hgoes⟩
      · cases hmark
      · obtain rfl := Option.some.inj hmark
        generalize (srv.perform .inflight_acquire e s).1 = permit at hgoes ⊢
        cases hgoes <;> rfl
    case inflight_release =>
      have hafter : (srv.perform .inflight_release e s).2.inflight = s.inflight - 1 := rfl
      rw [hafter]
      rcases passes_goes hnext with ⟨hmark, -⟩ | ⟨mark, hmark, hgoes⟩
      · cases hmark
      · obtain rfl := Option.some.inj hmark
        cases hgoes with
        | given_back q _ =>
          -- the permit that is given back was counted
          have hheld := hpos rfl
          show s.inflight - 1 + 1 = s.inflight + 0
          omega
  · rw [perform_inflight harea]
    rcases passes_goes hnext with ⟨-, rfl⟩ | ⟨mark, hmark, hgoes⟩
    · rfl
    · cases hgoes with
      | refused => rfl
      | admitted => exact absurd hmark ((mark_of_other harea).1 true)
      | given_back q _ => exact absurd hmark (mark_of_other harea).2
      | rejected q hq replay => rfl
      | _ => rfl

theorem inflight_eq (h : Recorded srv.machine srv.prog (srv.start now unix) c ms) :
    ∀ n, (∀ y ∈ ms, y.task < n) →
      c.state.inflight = srv.passages.count srv.machine Passage.holds n ms := by
  refine Automaton.invariant srv.prog_counted (fun s ms => ∀ n, (∀ y ∈ ms, y.task < n) →
    s.inflight = srv.passages.count srv.machine Passage.holds n ms) ?_ ?_ h
  · intro n _
    exact (List.countP_eq_zero.mpr fun _ _ => Bool.noConfusion).symm
  · intro c ms x p' _ _ ih hnext n hn
    have hold := ih n fun z hz => hn z (List.mem_append_left _ hz)
    have hx : x.task < n := hn x (by simp)
    have hcount := Automaton.count_snoc (A := srv.passages) (m := srv.machine) ms Passage.holds hx
    rw [Automaton.stage_snoc_self, Automaton.advance_of_next hnext] at hcount
    -- a task that has a permit is tallied
    have hpos (hheld : (srv.passages.stage srv.machine x.task ms).holds = true) :
        0 < x.state.inflight := by
      rw [hold]
      exact List.countP_pos_iff.mpr ⟨x.task, List.mem_range.mpr hx, hheld⟩
    have hstep := inflight_step hnext hpos
    show (srv.perform x.op x.env x.state).2.inflight = _
    omega

theorem inflight_le (hmax : srv.config.max_inflight_packets ≠ 0)
    (h : Recorded srv.machine srv.prog (srv.start now unix) c ms) :
    c.state.inflight ≤ srv.config.max_inflight_packets := by
  refine h.induction (fun s _ => s.inflight ≤ srv.config.max_inflight_packets) (Nat.zero_le _) ?_
  intro c ms x _ _ hle
  obtain ⟨i, s, o, e⟩ := x
  by_cases harea : o.area = .inflight
  · cases o <;> simp only [Op.area, reduceCtorEq] at harea
    case inflight_acquire =>
      show (if srv.has_room (tick s e) then s.inflight + 1 else s.inflight) ≤ _
      split
      · rename_i hroom
        exact (of_decide_eq_true hroom).resolve_left hmax
      · exact hle
    case inflight_release => exact (Nat.sub_le _ _).trans hle
  · exact (perform_inflight harea).le.trans hle

/-- How many tasks were tallied so. -/
def tallied (k : Tally → Bool) (c : Config ops State Job) : Nat :=
  (List.range c.tasks.length).countP fun i => (tallies (own i c.log)).any k

/-- The task has a permit. -/
def in_flight (evs : List (Event ops)) : Bool := admitted evs && !returned evs

/-- The counters and the permits are those of the tasks. -/
structure Accounts (srv : Server) (c : Config ops State Job) : Prop where
  once : ∀ i, (tallies (own i c.log)).length ≤ 1
  rejected : c.state.status.rejected = UInt64.ofNat (tallied (fun t => t matches .rejected _) c)
  replays : c.state.status.replays = UInt64.ofNat (tallied (fun t => t matches .rejected true) c)
  hello_accepted :
    c.state.status.hello_accepted = UInt64.ofNat (tallied (fun t => t matches .hello_accepted) c)
  verified : c.state.status.verified = UInt64.ofNat (tallied (fun t => t matches .verified) c)
  inflight : c.state.inflight =
    (List.range c.tasks.length).countP fun i => in_flight (own i c.log)
  limit : srv.config.max_inflight_packets ≠ 0 → c.state.inflight ≤ srv.config.max_inflight_packets
  ended : ∀ i task, c.tasks[i]? = some task → task.ended = true →
    in_flight (own i c.log) = false ∧
      (admitted (own i c.log) = true → tallies (own i c.log) = [] → srv.silent (own i c.log))

/-- Only status updates change the counters. -/
theorem counter_of {f : ServerStatus → UInt64} {k : Tally → Bool}
    (hstart : f (srv.start 0 0).status = 0)
    (hupdate : ∀ (st : ServerStatus) u, f (st.update u) = f st + UInt64.ofNat
      (((Mark.of_event ⟨.status_update u, ()⟩).bind Mark.tally).toList.countP k)) :
    srv.CounterOf f k where
  start := hstart
  step o e s := by
    cases o
    case status_update u => exact hupdate s.status u
    case nonce_consume nonce client_id source_ip source_port now =>
      have hsilent (r : Except ConsumeError NonceEntry) :
          (Mark.of_event ⟨.nonce_consume nonce client_id source_ip source_port now, r⟩).bind
            Mark.tally =
            none := by cases r <;> rfl
      rw [hsilent]
      exact (UInt64.add_zero _).symm
    all_goals exact (UInt64.add_zero _).symm

/-- In every interleaving, a datagram is tallied once at most, and the counters of the status are
    the numbers of datagrams that were. The in-flight count is the number of datagrams that have a
    permit, and within its limit. A datagram that had a permit has given it back in the end, and if
    it was not tallied then it is a HELLO whose nonce was minted (so its CHALLENGE was not sent), a
    BYE that released its lease, or the server has no key to open it with. -/
theorem datagrams_accounted (srv : Server) (now : Instant) (unix : Int64)
    (c : Config ops State Job) (h : Reachable srv.machine srv.prog (srv.start now unix) c) :
    srv.Accounts c := by
  -- the passage of each task says what has become of its datagram
  obtain ⟨ms, hrec⟩ := h.recorded
  have howned := Automaton.owned hrec
  have htold := told_of_recorded hrec
  have hcounted (k : Tally → Bool) :
      srv.passages.count srv.machine (fun p => p.tally.any k) c.tasks.length ms = tallied k c := by
    refine List.countP_congr fun i _ => ?_
    show (srv.passage_of i ms).tally.any k = true ↔ _
    rw [← (htold i).1]
    cases (srv.passage_of i ms).tally <;> simp
  have hholds (i : Nat) : (srv.passage_of i ms).holds = in_flight (own i c.log) := by
    unfold Passage.holds in_flight
    rw [(htold i).2.1, (htold i).2.2]
  constructor
  case once =>
    intro i
    rw [← (htold i).1]
    exact Option.length_toList_le
  -- each counter is the number of tasks whose tally it counts
  case rejected =>
    rw [← hcounted]
    refine counter_eq (counter_of rfl ?_) hrec _ howned
    intro st u
    cases u <;> first | rfl | exact (UInt64.add_zero _).symm
  case replays =>
    rw [← hcounted]
    refine counter_eq (counter_of rfl ?_) hrec _ howned
    intro st u
    cases u with
    | rejected replay => cases replay <;> first | rfl | exact (UInt64.add_zero _).symm
    | _ => exact (UInt64.add_zero _).symm
  case hello_accepted =>
    rw [← hcounted]
    refine counter_eq (counter_of rfl ?_) hrec _ howned
    intro st u
    cases u <;> first | rfl | exact (UInt64.add_zero _).symm
  case verified =>
    rw [← hcounted]
    refine counter_eq (counter_of rfl ?_) hrec _ howned
    intro st u
    cases u <;> first | rfl | exact (UInt64.add_zero _).symm
  case inflight =>
    rw [inflight_eq hrec _ howned]
    exact List.countP_congr fun i _ => by rw [hholds]
  case limit => exact fun hmax => inflight_le hmax hrec
  -- a task that has ended is where its passage can end
  case ended =>
    intro i task hi hend
    have hfinal : srv.passages.final (srv.passage_of i ms) :=
      Automaton.final_of_ended srv.prog_counted hrec hi hend
    have hpath : srv.passages.Path .outside (done_by srv.machine i ms) (srv.passage_of i ms) :=
      Automaton.path_of_recorded srv.prog_counted hrec i
    have hlog : own i c.log = done_by srv.machine i ms := by rw [hrec.log, own_events]
    obtain ⟨htally, hadmitted, -⟩ := htold i
    rw [← hholds, ← hadmitted, ← htally, hlog]
    generalize srv.passage_of i ms = p at hfinal hpath ⊢
    cases p with
    | outside => exact ⟨rfl, nofun⟩
    | inside q => exact hfinal.elim
    | left q =>
      exact ⟨rfl, fun _ htally => silent_of_path hpath (Option.toList_eq_nil_iff.mp htally)⟩

end runs

/-- A HELLO, received twice. -/
def hello_twice : List (Job × List Env) :=
  let data := (Packet.Hello (sample_hello 1 1000 7)).encode
  [(.datagram data (sample_peer 1), List.replicate 14 (sample_env 1000 1)),
    (.datagram data (sample_peer 2), List.replicate 14 (sample_env 1000 2))]

theorem datagrams_accounted_replayed :
    ∃ c, Reachable sample.machine sample.prog (sample.start 0 1000) c ∧
      c.state.status.hello_accepted = 1 ∧ c.state.status.replays = 1 ∧ sample.Accounts c := by
  have hrun : (Sequential.run_jobs sample.machine (fun _ _ _ => True) sample.prog hello_twice
      { state := sample.start 0 1000, log := [] }).any (fun t =>
        decide (t.state.status.hello_accepted = 1 ∧ t.state.status.replays = 1)) = true := by
    decide +kernel
  obtain ⟨t, ht, hcounts⟩ := (Option.any_eq_true _ _).mp hrun
  obtain ⟨c, hc, hstate, -⟩ := (Sequential.run_jobs_sound .start ht).reachable
  obtain ⟨haccepted, hreplays⟩ := of_decide_eq_true hcounts
  rw [← hstate] at haccepted hreplays
  exact ⟨c, hc, haccepted, hreplays, datagrams_accounted sample 0 1000 c hc⟩

end Server

end SignedPulse
