import SignedPulse.Client.Pulser
import SignedPulse.Server.Handshake

/-! # What an attempt reads

    An attempt is documented to wait for the CHALLENGE until its timeout. It
    receives one datagram: whatever reaches the socket first ends the wait, be
    it malformed, forged, or a late reply to an earlier attempt, which had
    another nonce and another secret. So a CHALLENGE behind another datagram is
    not answered (`attempt_answers_iff`).
-/

namespace SignedPulse

namespace Pulser

/-! ### The socket -/

/-- What `recv` returns, with a buffer of 2048 bytes, when these datagrams reach the socket before
    the timeout. -/
def recv_from : List Bytes → RecvOutcome
  | [] => .timed_out
  | datagram :: _ => .received (datagram.take 2048)

/-- The datagram is a CHALLENGE that unframes under the HELLO of the attempt and names the
    client. -/
def Genuine (pulser : Pulser) (nonce : ByteVec NONCE_LEN) (session_secret : Option X25519Bytes)
    (datagram : Bytes) (challenge : Challenge) : Prop :=
  pulser.read_challenge (datagram.take 2048) session_secret (hello_nonce_of nonce) = .ok challenge

/-- If a genuine CHALLENGE is among the arrivals, the attempt answers such a CHALLENGE. -/
def AnswersGenuine (pulser : Pulser) (param : Option Str) (mode : Mode)
    (evs : List (Event client_ops)) (nonce : ByteVec NONCE_LEN) (first : Bytes)
    (session_secret : Option X25519Bytes) (arrivals : List Bytes) : Prop :=
  (∃ datagram ∈ arrivals, ∃ challenge, pulser.Genuine nonce session_secret datagram challenge) →
    ∃ datagram ∈ arrivals, ∃ challenge, pulser.Genuine nonce session_secret datagram challenge ∧
      pulser.Answered param mode evs first challenge

/-- The first arrival is a genuine CHALLENGE, if any arrival is one. -/
def FirstIsGenuine (pulser : Pulser) (nonce : ByteVec NONCE_LEN)
    (session_secret : Option X25519Bytes) (arrivals : List Bytes) : Prop :=
  (∃ datagram ∈ arrivals, ∃ challenge, pulser.Genuine nonce session_secret datagram challenge) →
    ∃ datagram rest challenge, arrivals = datagram :: rest ∧
      pulser.Genuine nonce session_secret datagram challenge

/-! ### The attempt -/

/-- An attempt answers a genuine CHALLENGE just when that is the first datagram to arrive. -/
theorem attempt_answers_iff {pulser : Pulser} {param : Option Str} {timeout : Duration}
    {mode : Mode} (hP : pulser.crypto.Working) (hkey : pulser.HasKey param)
    (hlength : ∀ p, param = some p → (utf8 p).length ≤ 60000) {evs : List (Event client_ops)}
    {result : Except AttemptError Unit}
    (hattempt : (pulser.attempt_once param timeout mode).Yields evs result)
    (hdelivered : ∀ ev ∈ evs, delivered ev = true) {arrivals : List Bytes}
    (hrecv : ∀ outcome, ⟨.recv timeout, outcome⟩ ∈ evs → outcome = recv_from arrivals) :
    ∃ timestamp nonce first session_secret,
      pulser.HelloSent evs timestamp nonce first session_secret ∧
      (pulser.AnswersGenuine param mode evs nonce first session_secret arrivals ↔
        pulser.FirstIsGenuine nonce session_secret arrivals) := by
  obtain ⟨timestamp, nonce, first, session_secret, outcome, hhello, houtcome, hends⟩ :=
    attempt_completes hP hkey hlength hattempt hdelivered
  refine ⟨timestamp, nonce, first, session_secret, hhello, ?_⟩
  have houtcome := hrecv outcome houtcome
  rcases hends with ⟨received, challenge, hreceived, hread, hanswered, -⟩ | ⟨hunread, hnone, -⟩
  · -- the first arrival was read and answered
    rw [houtcome] at hreceived
    cases arrivals with
    | nil => cases hreceived
    | cons datagram rest =>
      obtain rfl : datagram.take 2048 = received := RecvOutcome.received.inj hreceived
      constructor
      · intro _ _
        exact ⟨datagram, rest, challenge, rfl, hread⟩
      · intro _ _
        exact ⟨datagram, List.mem_cons_self, challenge, hread, hanswered⟩
  · -- nothing was answered, and the first arrival is not genuine
    have hfirst : ∀ datagram rest challenge, arrivals = datagram :: rest →
        ¬ pulser.Genuine nonce session_secret datagram challenge := by
      intro datagram rest challenge harrivals hgenuine
      rw [harrivals] at houtcome
      exact hunread _ _ houtcome hgenuine
    constructor
    · intro hanswers hexists
      obtain ⟨datagram, -, challenge, -, hanswered⟩ := hanswers hexists
      obtain ⟨param_blob, second, session_secret', -, -, -, hsent⟩ := hanswered
      rw [hnone] at hsent
      cases hsent
    · intro hgenuine hexists
      obtain ⟨datagram, rest, challenge, harrivals, hread⟩ := hgenuine hexists
      exact absurd hread (hfirst datagram rest challenge harrivals)

/-! ### A datagram in front -/

open Server

/-- The CHALLENGE for client 1. -/
def sample_challenge : Challenge := ⟨sample_id 1, filled 32 1, 1030⟩

/-- What the operations of an attempt return when these datagrams arrive. -/
def arrivals_answer (arrivals : List Bytes) : (o : ClientOp) → o.Res
  | .recv _ => recv_from arrivals
  | o => meeting_answer o

/-- The attempt of client 1 with these arrivals. -/
def sample_attempt (arrivals : List Bytes) : List (Event client_ops) × Except AttemptError Unit :=
  (meeting_pulser.attempt_once none 1000000000 .Renew).follow (arrivals_answer arrivals)

theorem attempt_answers_iff_first :
    ∃ timestamp nonce first session_secret,
      meeting_pulser.HelloSent (sample_attempt [(Packet.Challenge sample_challenge).encode]).1
        timestamp nonce first session_secret ∧
      (meeting_pulser.AnswersGenuine none .Renew
          (sample_attempt [(Packet.Challenge sample_challenge).encode]).1 nonce first session_secret
          [(Packet.Challenge sample_challenge).encode] ↔
        meeting_pulser.FirstIsGenuine nonce session_secret
          [(Packet.Challenge sample_challenge).encode]) := by
  refine attempt_answers_iff sealing_crypto_working ?_ (fun _ hp => by cases hp)
    (Program.yields_follow _ _) (by decide +kernel) ?_
  · intro h
    rcases h with h | h <;> cases h
  · exact fun outcome hmem => Program.mem_follow hmem

/-- Behind an empty datagram the CHALLENGE is not answered: the attempt sends its HELLO only. -/
theorem challenge_behind_junk :
    ∃ evs e, (meeting_pulser.attempt_once none 1000000000 .Renew).Yields evs (.error e) ∧
      (∀ ev ∈ evs, delivered ev = true) ∧
      (∀ outcome, ⟨.recv 1000000000, outcome⟩ ∈ evs →
        outcome = recv_from [[], (Packet.Challenge sample_challenge).encode]) ∧
      (∀ nonce, meeting_pulser.Genuine nonce none (Packet.Challenge sample_challenge).encode
        sample_challenge) ∧
      (sent evs).length = 1 := by
  obtain ⟨e, he⟩ : ∃ e,
      (sample_attempt [[], (Packet.Challenge sample_challenge).encode]).2 = .error e :=
    ⟨_, rfl⟩
  refine ⟨_, e, he ▸ Program.yields_follow _ _, by decide +kernel,
    fun outcome hmem => Program.mem_follow hmem, ?_, by decide +kernel⟩
  have hgenuine : meeting_pulser.Genuine (filled 32 5) none
      (Packet.Challenge sample_challenge).encode sample_challenge := by
    unfold Genuine
    decide +kernel
  exact fun nonce => hgenuine

end Pulser

end SignedPulse
