import SignedPulse.Server.BlacklistCalls
import SignedPulse.Server.FaultCounter
import SignedPulse.Server.Moments

/-! # Blocks are earned

    An IP is blocked only for datagrams of its own: since its previous block
    ended, more of them than the threshold could not be opened or decoded, and
    the latest of these is younger than a block is long (`Earned`). A datagram
    that opens and decodes leaves all entries of the blacklist as they are,
    whatever else is wrong with it.

    `block_earned` says so of every run. The invariant `EntryInv` follows the
    entry of one IP and the moments that it goes back to.
-/

namespace SignedPulse

namespace Blacklist

/-! ### The entry of one IP -/

/-- An IP without a block in its entry is not blocked. -/
theorem is_blocked_of_unblocked {b : Blacklist} {ip : IpAddr}
    (h : ∀ e, AList.lookup ip b.state = some e → e.blocked_until = none) (t : Instant) :
    b.is_blocked ip t = false := by
  unfold is_blocked is_blocked_at
  split
  · rfl
  · cases hlookup : AList.lookup ip b.state with
    | none => rfl
    | some e => simp [Entry.blocks, h e hlookup]

/-- A block that has ended stays so. -/
theorem is_blocked_of_ended {b : Blacklist} {ip : IpAddr} {e : Entry} {limit t : Instant}
    (hlookup : AList.lookup ip b.state = some e) (hentry : e.blocked_until = some limit)
    (hended : limit ≤ t) : b.is_blocked ip t = false := by
  unfold is_blocked is_blocked_at
  split
  · rfl
  · simp [hlookup, Entry.blocks, hentry, Nat.not_lt.mpr hended]

end Blacklist

namespace Server

open Interleaving

/-! ### Faulty datagrams -/

/-- The datagram cannot be opened or decoded. A server that lacks the key to open it does not look
    any further. -/
def faulty (srv : Server) (data : Bytes) : Bool :=
  match srv.unwrap data with
  | none => false
  | some (.error _) => true
  | some (.ok (packet_bytes, _)) => !(Packet.decode packet_bytes).toBool

theorem not_faulty_of_packet {srv : Server} {data : Bytes}
    (h : (srv.packet_of data).isSome = true) : srv.faulty data = false := by
  unfold packet_of at h
  unfold faulty
  split at h
  · rename_i packet_bytes reply hunwrap
    cases hdecode : Packet.decode packet_bytes with
    | ok packet => simp [hunwrap, hdecode, Except.toBool]
    | error e => simp [hdecode, Except.toOption] at h
  · cases h

/-- A faulty packet from `ip` is counted. -/
def blames (ip : IpAddr) (x : ServerMoment) : Bool :=
  match x.op with
  | .record_faulty ip' => decide (ip' = ip)
  | _ => false

theorem blames_iff {ip : IpAddr} {x : ServerMoment} :
    blames ip x = true ↔ x.op = .record_faulty ip := by
  unfold blames
  constructor
  · intro h
    split at h
    · rename_i ip' hop
      rw [hop, of_decide_eq_true h]
    · cases h
  · intro h
    rw [h]
    exact decide_eq_true rfl

/-- Nothing has changed the fault counts so far. -/
def Spared (h : List (Event ops)) : Prop := ∀ ev ∈ h, ev.op.faults = false

/-- The fault counts change for a faulty datagram, once, or at a cleanup tick. -/
def FaultDemand (srv : Server) (job : Job) (h : List (Event ops)) (ev : Event ops) : Prop :=
  ev.op.faults = true →
    match job with
    | .datagram data peer => Spared h ∧ srv.faulty data = true ∧ ev.op = .record_faulty peer.ip
    | .cleanup => ev.op = .blacklist_purge_stale

section demand
variable {srv : Server} {job : Job} {h : List (Event ops)}

theorem Spared.snoc {ev : Event ops} (hspared : Spared h) (hev : ev.op.faults = false) :
    Spared (h ++ [ev]) :=
  List.forall_mem_append.mpr ⟨hspared, List.forall_mem_singleton.mpr hev⟩

theorem fault_demand_of_spared {ev : Event ops} (hev : ev.op.faults = false) :
    srv.FaultDemand job h ev := by
  intro hfaults
  rw [hev] at hfaults
  cases hfaults

theorem fault_demand_of_spares {α : Type} {areas : List Area} {p : ServerM α}
    (hp : Spares Op.faults areas p) (h : List (Event ops)) :
    Program.wp (Program.histories (srv.FaultDemand job)) (fun _ _ => True) p h := by
  refine Program.wp_of_uses (I := ops) ?_ hp trivial
  intro h' o r h'' ho _ _
  exact ⟨fault_demand_of_spared ho.2, trivial⟩

/-- A faulty datagram is counted once. -/
theorem note_faulty_demand {data : Bytes} {peer : SocketAddr} (hfaulty : srv.faulty data = true)
    (hspared : Spared h) :
    Program.wp (Program.histories (srv.FaultDemand (.datagram data peer))) (fun _ _ => True)
      (note_faulty peer.ip) h := by
  unfold note_faulty note_rejected
  refine Program.wp_histories_perform_bind.mpr fun _ => ⟨fault_demand_of_spared rfl, ?_⟩
  refine Program.wp_histories_perform_bind.mpr fun _ => ⟨fault_demand_of_spared rfl, ?_⟩
  refine Program.wp_histories_perform_bind.mpr fun blocked => ⟨fun _ => ?_, trivial⟩
  exact ⟨(hspared.snoc rfl).snoc rfl, hfaulty, rfl⟩

theorem handle_datagram_faults (srv : Server) (data : Bytes) (peer : SocketAddr)
    (hspared : Spared h) :
    Program.wp (Program.histories (srv.FaultDemand (.datagram data peer))) (fun _ _ => True)
      (srv.handle_datagram data peer) h := by
  unfold handle_datagram
  cases hunwrap : srv.unwrap data with
  | none => trivial
  | some opened =>
    cases opened with
    | error e =>
      have hfaulty : srv.faulty data = true := by simp [faulty, hunwrap]
      exact note_faulty_demand hfaulty hspared
    | ok inner =>
      obtain ⟨packet_bytes, reply⟩ := inner
      dsimp only
      cases hdecode : Packet.decode packet_bytes with
      | error e =>
        have hfaulty : srv.faulty data = true := by simp [faulty, hunwrap, hdecode, Except.toBool]
        exact note_faulty_demand hfaulty hspared
      | ok packet =>
        -- from here on it is no longer the blacklist's business
        cases packet with
        | Hello hello =>
          exact fault_demand_of_spares (srv.handle_hello_spares hello peer reply).faults h
        | Challenge challenge => exact fault_demand_of_spares (note_rejected_spares false).faults h
        | Response resp => exact fault_demand_of_spares (srv.handle_response_spares resp peer) h
        | Bye bye => exact fault_demand_of_spares (srv.handle_bye_spares bye peer) h

theorem with_permit_faults (srv : Server) (data : Bytes) (peer : SocketAddr)
    (hspared : Spared h) :
    Program.wp (Program.histories (srv.FaultDemand (.datagram data peer))) (fun _ _ => True)
      (srv.with_permit data peer) h := by
  unfold with_permit
  refine Program.wp_histories_perform_bind.mpr fun permit => ⟨fault_demand_of_spared rfl, ?_⟩
  split
  · trivial
  refine Program.wp_seq (handle_datagram_faults srv data peer (hspared.snoc rfl)) fun _ h' _ => ?_
  exact Program.wp_histories_perform.mpr fun _ => ⟨fault_demand_of_spared rfl, trivial⟩

theorem receive_faults (srv : Server) (data : Bytes) (peer : SocketAddr) :
    Program.wp (Program.histories (srv.FaultDemand (.datagram data peer))) (fun _ _ => True)
      (srv.receive data peer) [] := by
  have hnil : Spared [] := by simp [Spared]
  unfold receive
  split
  · trivial
  refine Program.wp_histories_perform_bind.mpr fun blocked => ⟨fault_demand_of_spared rfl, ?_⟩
  split
  · trivial
  refine Program.wp_histories_perform_bind.mpr fun attacked => ⟨fault_demand_of_spared rfl, ?_⟩
  split
  · refine Program.wp_histories_perform_bind.mpr fun _ => ⟨fault_demand_of_spared rfl, ?_⟩
    refine Program.wp_histories_perform_bind.mpr fun active => ⟨fault_demand_of_spared rfl, ?_⟩
    split
    · exact Program.wp_histories_perform.mpr fun _ => ⟨fault_demand_of_spared rfl, trivial⟩
    · exact with_permit_faults srv data peer
        ((((hnil.snoc rfl).snoc rfl).snoc rfl).snoc rfl)
  · refine Program.wp_histories_perform_bind.mpr fun _ => ⟨fault_demand_of_spared rfl, ?_⟩
    exact with_permit_faults srv data peer (((hnil.snoc rfl).snoc rfl).snoc rfl)

/-- Every task meets the demand. -/
theorem prog_fault_demand (srv : Server) (job : Job) :
    Program.wp (Program.histories (srv.FaultDemand job)) (fun _ _ => True) (srv.prog job) [] := by
  cases job with
  | datagram data peer => exact receive_faults srv data peer
  | cleanup =>
    refine wp_cleanup (fun _ => True) (fun _ => True) ?_ ?_ trivial
    · rintro h o r _ hpurge - rfl
      refine ⟨fun hfaults => ?_, trivial⟩
      cases o <;> first | rfl | exact absurd hfaults Bool.false_ne_true |
        exact absurd hpurge Bool.false_ne_true
    · intro h _
      exact fault_demand_of_spares (srv.run_lease_scan_touches.spares_faults (by decide)) h

end demand

/-! ### The counted datagrams -/

section runs
variable {srv : Server} {now : Instant} {unix : Int64} {c : Config ops State Job}
variable {ms : List ServerMoment} {x : ServerMoment} {ip : IpAddr}

/-- A moment at which a faulty packet is counted belongs to a faulty datagram from the IP. -/
theorem faulty_of_blames (h : Recorded srv.machine srv.prog (srv.start now unix) c ms)
    (hx : x ∈ ms) (hblames : blames ip x = true) :
    ∃ data peer task, c.tasks[x.task]? = some task ∧ task.job = .datagram data peer ∧
      peer.ip = ip ∧ srv.faulty data = true := by
  rw [blames_iff] at hblames
  obtain ⟨task, evs, htask, hdemand⟩ := h.guarded srv.prog_fault_demand hx
  have hfaults : (x.event srv.machine).op.faults = true := by
    rw [show (x.event srv.machine).op = .record_faulty ip from hblames]
    rfl
  have hjob := hdemand hfaults
  cases hcase : task.job with
  | datagram data peer =>
    simp only [hcase] at hjob
    obtain ⟨-, hfaulty, hop⟩ := hjob
    have hip : ip = peer.ip := Op.record_faulty.inj (hblames.symm.trans hop)
    exact ⟨data, peer, task, htask, hcase, hip.symm, hfaulty⟩
  | cleanup =>
    simp only [hcase] at hjob
    cases hblames.symm.trans hjob

/-- No task counts twice. -/
theorem blames_once (h : Recorded srv.machine srv.prog (srv.start now unix) c ms) :
    ((ms.filter (blames ip)).map (fun x => x.task)).Nodup := by
  refine h.once srv.prog_fault_demand ?_
  intro job evs x y hdemand hx hy hmem
  have hfaults {z : ServerMoment} (hz : blames ip z = true) :
      (z.event srv.machine).op.faults = true := by
    rw [show (z.event srv.machine).op = .record_faulty ip from blames_iff.mp hz]
    rfl
  have hjob := hdemand (hfaults hx)
  cases job with
  | datagram data peer =>
    have hspared := hjob.1 _ hmem
    rw [hfaults hy] at hspared
    cases hspared
  | cleanup => cases (blames_iff.mp hx).symm.trans hjob

/-! ### What an entry goes back to -/

/-- At the moments, all of them after `since`, the IP is not blocked, nor is it going to be. -/
def Free (ip : IpAddr) (since : Instant) (ms : List ServerMoment) : Prop :=
  ∀ x ∈ ms, since ≤ x.time ∧ ∀ t, since ≤ t → x.state.blacklist.is_blocked ip t = false

/-- The IP is blocked at each of the moments. -/
def Held (ip : IpAddr) (ms : List ServerMoment) : Prop :=
  ∀ x ∈ ms, x.state.blacklist.is_blocked ip x.time = true

/-- What the entry of `ip` goes back to. The moments in `counted` are those since its latest block
    ended, or since the count was last dropped. -/
inductive EntryInv (ip : IpAddr) (T : UInt32) (D : Duration) (s : State) :
    List ServerMoment → Option Blacklist.Entry → Prop where
  | counting {o : Option Blacklist.Entry} (before counted : List ServerMoment) (since : Instant)
      (hentry : ∀ e, o = some e → e.blocked_until = none) (hsince : since ≤ s.now)
      (hfree : Free ip since counted)
      (hcount : Blacklist.counted o ≤ counted.countP (blames ip)) :
      EntryInv ip T D s (before ++ counted) o
  | blocked {e : Blacklist.Entry} (before counted : List ServerMoment) (trip : ServerMoment)
      (during : List ServerMoment) (since : Instant) (latest : ServerMoment)
      (hentry : e.blocked_until = some (latest.time + D))
      (hfree : Free ip since (counted ++ [trip]))
      (hcount : T.toNat < (counted ++ [trip]).countP (blames ip))
      (hheld : ∀ x ∈ during, x.time < latest.time + D →
        x.state.blacklist.is_blocked ip x.time = true)
      (hlatest : latest ∈ trip :: during) (hblames : blames ip latest = true) :
      EntryInv ip T D s (before ++ counted ++ trip :: during) (some e)

section entries
variable {T : UInt32} {D : Duration} {o : Option Blacklist.Entry}

/-- A moment that leaves the entry as it is. -/
theorem EntryInv.keep (h : EntryInv ip T D x.state ms o) (hT : x.state.blacklist.threshold ≠ 0)
    (hlookup : AList.lookup ip x.state.blacklist.state = o) :
    EntryInv ip T D (x.after srv.machine) (ms ++ [x]) o := by
  have hlater : x.state.now ≤ x.time := Nat.le_add_right _ _
  cases h with
  | counting before counted since hentry hsince hfree hcount =>
    rw [List.append_assoc]
    refine .counting before (counted ++ [x]) since hentry ?_ ?_ ?_
    · rw [after_now]
      exact hsince.trans hlater
    · refine List.forall_mem_append.mpr ⟨hfree, List.forall_mem_singleton.mpr ?_⟩
      exact ⟨hsince.trans hlater, fun t _ =>
        Blacklist.is_blocked_of_unblocked (fun e he => hentry e (hlookup ▸ he)) t⟩
    · rw [List.countP_append]
      exact hcount.trans (Nat.le_add_right _ _)
  | @blocked e before counted trip during since latest hentry hfree hcount hheld hlatest hblames =>
    rw [List.append_assoc, List.cons_append]
    refine .blocked before counted trip (during ++ [x]) since latest hentry hfree hcount ?_ ?_
      hblames
    · refine List.forall_mem_append.mpr ⟨hheld, List.forall_mem_singleton.mpr fun hlive => ?_⟩
      refine (Blacklist.is_blocked_iff hT).mpr ⟨e, hlookup, ?_⟩
      simp [Blacklist.Entry.blocks, hentry, hlive]
    · rw [← List.cons_append]
      exact List.mem_append_left _ hlatest

/-- A moment at which the entry of the IP is dropped by a purge. -/
theorem EntryInv.dropped : EntryInv ip T D (x.after srv.machine) (ms ++ [x]) none := by
  have hnone : Free ip 0 [] := by simp [Free]
  have h : EntryInv ip T D (x.after srv.machine) (ms ++ [x] ++ []) none :=
    .counting (ms ++ [x]) [] 0 (by simp) (Nat.zero_le _) hnone (Nat.zero_le _)
  rwa [List.append_nil] at h

/-- A moment at which a faulty packet of the IP is counted. -/
theorem EntryInv.fault (h : EntryInv ip T D x.state ms o) (hT : x.state.blacklist.threshold = T)
    (hne : T ≠ 0) (hlookup : AList.lookup ip x.state.blacklist.state = o)
    (hpast : ∀ y ∈ ms, y.time ≤ x.time) (hblames : blames ip x = true) :
    EntryInv ip T D (x.after srv.machine) (ms ++ [x])
      (some (Blacklist.fault T D x.time (o.getD { faults := 0, blocked_until := none })).2) := by
  have hlater : x.state.now ≤ x.time := Nat.le_add_right _ _
  have hafter : x.time ≤ (x.after srv.machine).now := (after_now x).ge
  cases h with
  | counting before counted since hentry hsince hfree hcount =>
    obtain ⟨e, he, hnone, hcounted⟩ := Blacklist.counted_entry hentry
    have hfree' : Free ip since (counted ++ [x]) := by
      refine List.forall_mem_append.mpr ⟨hfree, List.forall_mem_singleton.mpr ?_⟩
      exact ⟨hsince.trans hlater, fun t _ =>
        Blacklist.is_blocked_of_unblocked (fun e he => hentry e (hlookup ▸ he)) t⟩
    have hmore : e.faults.toNat + 1 ≤ (counted ++ [x]).countP (blames ip) := by
      rw [List.countP_append, List.countP_singleton, hblames, hcounted]
      exact Nat.succ_le_succ hcount
    -- the `u32` counter may wrap, but never shows more than was counted
    have hwrap : (e.faults + 1).toNat ≤ e.faults.toNat + 1 := by
      rw [UInt32.toNat_add]
      exact Nat.mod_le _ _
    rw [he, Blacklist.fault_counting hnone, List.append_assoc]
    by_cases htrip : T < e.faults + 1
    · rw [if_pos htrip]
      have hT' : T.toNat < (e.faults + 1).toNat := UInt32.lt_iff_toNat_lt.mp htrip
      have hover : T.toNat < (counted ++ [x]).countP (blames ip) := by omega
      have h := EntryInv.blocked (s := x.after srv.machine) (T := T) (D := D)
        (e := { faults := e.faults + 1, blocked_until := some (x.time + D) })
        before counted x [] since x rfl hfree' hover (by simp) (by simp) hblames
      rwa [List.append_assoc] at h
    · rw [if_neg htrip]
      refine .counting before (counted ++ [x]) since (by simp) ?_ hfree' (hwrap.trans hmore)
      exact (hsince.trans hlater).trans hafter
  | @blocked e before counted trip during since latest hentry hfree hcount hheld hlatest hbl =>
    rw [Option.getD_some]
    by_cases hlive : x.time < latest.time + D
    · -- the block is extended
      have he : (Blacklist.fault T D x.time e).2 =
        { e with blocked_until := some (x.time + D) } := by
        simp [Blacklist.fault, hentry, hlive]
      rw [he, List.append_assoc, List.cons_append]
      refine .blocked before counted trip (during ++ [x]) since x rfl hfree hcount ?_ (by simp)
        hblames
      refine List.forall_mem_append.mpr ⟨fun y hy _ => hheld y hy ?_, ?_⟩
      · exact (hpast y (by simp [hy])).trans_lt hlive
      · refine List.forall_mem_singleton.mpr fun _ => ?_
        refine (Blacklist.is_blocked_iff (hT.trans_ne hne)).mpr ⟨e, hlookup, ?_⟩
        simp [Blacklist.Entry.blocks, hentry, hlive]
    · -- the block has ended, and a new count begins
      have he : (Blacklist.fault T D x.time e).2 = { faults := 1, blocked_until := none } := by
        simp [Blacklist.fault, hentry, hlive]
      rw [he]
      refine .counting _ [x] x.time (by simp) hafter ?_ ?_
      · refine List.forall_mem_singleton.mpr ⟨le_rfl, fun t ht => ?_⟩
        exact Blacklist.is_blocked_of_ended hlookup hentry ((Nat.not_lt.mp hlive).trans ht)
      · rw [List.countP_singleton, hblames]
        rfl

/-- What a moment can do to the entry of an IP. -/
theorem entry_cases (x : ServerMoment) (ip : IpAddr) :
    AList.lookup ip (x.after srv.machine).blacklist.state =
        AList.lookup ip x.state.blacklist.state ∨
      AList.lookup ip (x.after srv.machine).blacklist.state = none ∨
      blames ip x = true ∧ AList.lookup ip (x.after srv.machine).blacklist.state =
        some (Blacklist.fault x.state.blacklist.threshold x.state.blacklist.duration x.time
          ((AList.lookup ip x.state.blacklist.state).getD
            { faults := 0, blocked_until := none })).2 := by
  obtain ⟨i, s, op, e⟩ := x
  -- only faults and purges write entries
  cases op
  case record_faulty ip' =>
    rcases s.blacklist.lookup_record_faulty ip ip' (s.now + e.elapsed) with h | ⟨hip, h⟩
    · exact .inl h
    · exact .inr (.inr ⟨decide_eq_true hip, h⟩)
  case blacklist_purge_stale =>
    have hpurge : AList.lookup ip (s.blacklist.purge_stale (s.now + e.elapsed)).state =
        (AList.lookup ip s.blacklist.state).filter (fun e' => e'.blocks (s.now + e.elapsed)) :=
      HashMap.lookup_retain _ _ _
    cases hlookup : AList.lookup ip s.blacklist.state with
    | none =>
      rw [hlookup] at hpurge
      exact .inr (.inl hpurge)
    | some e' =>
      rw [hlookup] at hpurge
      cases hblocks : e'.blocks (s.now + e.elapsed) with
      | true => exact .inl (hpurge.trans (Option.filter_some_pos hblocks))
      | false => exact .inr (.inl (hpurge.trans (Option.filter_some_neg (by simp [hblocks]))))
  case note_rejection =>
    exact .inl (congrArg (AList.lookup ip)
      (Blacklist.note_rejection_state s.blacklist (s.now + e.elapsed)))
  case note_lockdown_drop =>
    exact .inl (congrArg (AList.lookup ip)
      (Blacklist.note_lockdown_drop_state s.blacklist (s.now + e.elapsed)))
  all_goals exact .inl rfl

/-- The settings of the blacklist are those of the configuration. -/
theorem blacklist_configured (h : Recorded srv.machine srv.prog (srv.start now unix) c ms) :
    c.state.blacklist.threshold = srv.config.max_faulty_packets ∧
      c.state.blacklist.duration = Duration.from_secs srv.config.blacklist_seconds := by
  obtain ⟨calls, -, -, hrun⟩ := blacklist_of_reachable h.reachable
  rw [hrun, Blacklist.run_threshold, Blacklist.run_duration]
  exact ⟨rfl, rfl⟩

/-- Run lemma. -/
theorem entry_inv (h : Recorded srv.machine srv.prog (srv.start now unix) c ms)
    (hT : srv.config.max_faulty_packets ≠ 0) :
    EntryInv ip srv.config.max_faulty_packets (Duration.from_secs srv.config.blacklist_seconds)
      c.state ms (AList.lookup ip c.state.blacklist.state) := by
  refine h.induction (fun s ms => EntryInv ip srv.config.max_faulty_packets
    (Duration.from_secs srv.config.blacklist_seconds) s ms
    (AList.lookup ip s.blacklist.state)) ?_ ?_
  · have hnone : Free ip 0 [] := by simp [Free]
    exact .counting [] [] 0 (fun e he => by cases he) (Nat.zero_le _) hnone (Nat.zero_le _)
  intro c ms x hrec hstate hinv
  obtain ⟨hthreshold, hduration⟩ := blacklist_configured hrec
  rw [hstate] at hthreshold hduration
  rcases @entry_cases srv x ip with hsame | hnone | ⟨hblames, hfault⟩
  · rw [hsame]
    exact hinv.keep (hthreshold.trans_ne hT) rfl
  · rw [hnone]
    exact .dropped
  · rw [hfault, hthreshold, hduration]
    refine hinv.fault hthreshold hT rfl (fun y hy => ?_) hblames
    have := time_le_now hrec y hy
    rw [hstate] at this
    exact this.trans (Nat.le_add_right _ _)

end entries

/-! ### Blocks -/

/-- The tasks are different datagrams from `ip` that could not be opened or decoded, and each was
    found so at one of the moments. -/
def FaultyAt (srv : Server) (c : Config ops State Job) (ip : IpAddr) (tasks : List Nat)
    (ms : List ServerMoment) : Prop :=
  tasks.Nodup ∧ ∀ i ∈ tasks, (∃ x ∈ ms, x.task = i ∧ x.op = .record_faulty ip) ∧
    ∃ data peer task, c.tasks[i]? = some task ∧ task.job = .datagram data peer ∧ peer.ip = ip ∧
      srv.faulty data = true

/-- The block of `ip` at `t` is earned. Since the previous block ended, more datagrams of the IP
    than the threshold were faulty; with the last of them the block began and has held until now,
    and the latest one since then is younger than a block is long. -/
def Earned (srv : Server) (c : Config ops State Job) (ms : List ServerMoment) (ip : IpAddr)
    (t : Instant) : Prop :=
  ∃ before counted trip during since tasks latest,
    ms = before ++ counted ++ trip :: during ∧ Free ip since (counted ++ [trip]) ∧
    Held ip during ∧ FaultyAt srv c ip tasks (counted ++ [trip]) ∧
    srv.config.max_faulty_packets.toNat < tasks.length ∧
    latest ∈ trip :: during ∧ FaultyAt srv c ip [latest.task] [latest] ∧ latest.time ≤ t ∧
    t < latest.time + Duration.from_secs srv.config.blacklist_seconds

/-- The moments at which the faulty packets of the IP are counted are as many different faulty
    datagrams. -/
theorem faulty_at_of_blames (h : Recorded srv.machine srv.prog (srv.start now unix) c ms)
    {part : List ServerMoment} (hpart : part.Sublist ms) :
    FaultyAt srv c ip ((part.filter (blames ip)).map (fun x => x.task)) part := by
  refine ⟨(blames_once h).sublist ((hpart.filter _).map _), ?_⟩
  intro i hi
  obtain ⟨x, hx, rfl⟩ := List.mem_map.mp hi
  obtain ⟨hmem, hblames⟩ := List.mem_filter.mp hx
  exact ⟨⟨x, hmem, rfl, blames_iff.mp hblames⟩,
    faulty_of_blames h (hpart.subset hmem) hblames⟩

/-- The entries of the blacklist change only where faults are counted or forgotten. -/
theorem entries_unchanged (x : ServerMoment) (hop : x.op.faults = false) :
    (x.after srv.machine).blacklist.state = x.state.blacklist.state := by
  obtain ⟨i, s, op, e⟩ := x
  cases op
  case record_faulty => cases hop
  case blacklist_purge_stale => cases hop
  case note_rejection => exact Blacklist.note_rejection_state s.blacklist (s.now + e.elapsed)
  case note_lockdown_drop =>
    exact Blacklist.note_lockdown_drop_state s.blacklist (s.now + e.elapsed)
  all_goals rfl

/-- In every run each block is earned, and a datagram that opens and decodes never changes an entry
    of the blacklist. -/
theorem block_earned (h : Recorded srv.machine srv.prog (srv.start now unix) c ms) :
    (∀ ip t, c.state.now ≤ t → c.state.blacklist.is_blocked ip t = true →
      Earned srv c ms ip t) ∧
    ∀ x ∈ ms, ∀ task data peer, c.tasks[x.task]? = some task → task.job = .datagram data peer →
      (srv.packet_of data).isSome → ∀ ip,
        AList.lookup ip (x.after srv.machine).blacklist.state =
          AList.lookup ip x.state.blacklist.state := by
  constructor
  · intro ip t ht hblocked
    obtain ⟨hthreshold, -⟩ := blacklist_configured h
    have hT : srv.config.max_faulty_packets ≠ 0 := by
      intro h0
      simp [Blacklist.is_blocked, hthreshold, h0] at hblocked
    have hinv : EntryInv ip _ _ c.state ms _ := entry_inv h hT
    obtain ⟨e, hlookup, hblocks⟩ := (Blacklist.is_blocked_iff (hthreshold.trans_ne hT)).mp hblocked
    rw [hlookup] at hinv
    obtain ⟨l, hall⟩ : ∃ l, ms = l := ⟨_, rfl⟩
    rw [hall] at hinv
    -- the invariant of the entry has the faults since the previous block
    cases hinv with
    | counting before counted since hentry => simp [Blacklist.Entry.blocks, hentry e rfl] at hblocks
    | blocked before counted trip during since latest hentry hfree hcount hheld hlatest hblames =>
      have hlive : t < latest.time + Duration.from_secs srv.config.blacklist_seconds := by
        simpa [Blacklist.Entry.blocks, hentry] using hblocks
      have hpast : ∀ y ∈ ms, y.time ≤ t := fun y hy => (time_le_now h y hy).trans ht
      have hcounted : (counted ++ [trip]).Sublist ms := by
        rw [hall]
        simp
      have hmem : latest ∈ ms := by
        rw [hall]
        exact List.mem_append_right _ hlatest
      refine ⟨before, counted, trip, during, since, _, latest, hall, hfree, ?_,
        faulty_at_of_blames h hcounted, ?_, hlatest, ?_, hpast latest hmem, hlive⟩
      · intro y hy
        exact hheld y hy ((hpast y (by simp [hall, hy])).trans_lt hlive)
      · simpa [List.countP_eq_length_filter] using hcount
      · have hfaulty : FaultyAt srv c ip _ [latest] :=
          faulty_at_of_blames h (List.singleton_sublist.mpr hmem)
        rwa [List.filter_singleton, hblames] at hfaulty
  · intro x hx task data peer htask hjob hpacket ip
    obtain ⟨task', evs, htask', hdemand⟩ := h.guarded srv.prog_fault_demand hx
    obtain rfl : task = task' := Option.some.inj (htask.symm.trans htask')
    cases hfaults : x.op.faults with
    | false => rw [entries_unchanged x hfaults]
    -- a fault is noted only for what does not open or decode
    | true =>
      have hfaulty := hdemand hfaults
      simp only [hjob] at hfaulty
      rw [not_faulty_of_packet hpacket] at hfaulty
      exact absurd hfaulty.2.1 Bool.false_ne_true

end runs

/-- The sample server, which tolerates one faulty packet. -/
def strict : Server := { sample with config := { sample_config with max_faulty_packets := 1 } }

/-- Two empty datagrams from one source, and a HELLO from another. -/
def two_empty_datagrams : List (Label Env Job) :=
  (.begin (.datagram [] (sample_peer 1)) :: List.replicate 8 (.run 0 (sample_env 1000 0)) :
    List (Label Env Job)) ++
  (.begin (.datagram [] (sample_peer 1)) :: List.replicate 8 (.run 1 (sample_env 1000 0)) :
    List (Label Env Job)) ++
  sample_task 2 2 (.Hello (sample_hello 2 1000 1)) 14 (sample_env 1000 1)

theorem block_earned_two_empty :
    ∃ c ms, Recorded strict.machine strict.prog (strict.start 0 1000) c ms ∧
      c.state.blacklist.is_blocked (sample_peer 1).ip c.state.now = true ∧
      Earned strict c ms (sample_peer 1).ip c.state.now ∧
      ∀ x ∈ ms, ∀ task data peer, c.tasks[x.task]? = some task →
        task.job = .datagram data peer → (strict.packet_of data).isSome → ∀ ip,
          AList.lookup ip (x.after strict.machine).blacklist.state =
            AList.lookup ip x.state.blacklist.state := by
  have hrun : (record strict.machine strict.prog (init (strict.start 0 1000), [])
      two_empty_datagrams).any (fun t =>
        t.1.state.blacklist.is_blocked (sample_peer 1).ip t.1.state.now) = true := by
    decide +kernel
  obtain ⟨⟨c, ms⟩, ht, hblocked⟩ := (Option.any_eq_true _ _).mp hrun
  have hrec : Recorded strict.machine strict.prog (strict.start 0 1000) c ms :=
    record_sound (r := (c, ms)) .start ht
  have hearned := block_earned hrec
  exact ⟨c, ms, hrec, hblocked, hearned.1 _ _ le_rfl hblocked, hearned.2⟩

end Server

end SignedPulse
