import SignedPulse.Server.BlacklistRuns

/-! # The fault counter

    `Faults` says what the counter of one source IP is for, without a table:
    how many faulty packets count, and until when the IP is to be blocked. The
    table stands for it (`Sync`) as long as no purge drops a count that later
    exceeds the threshold; `blocks_after_threshold_iff` is the exact condition.
-/

namespace SignedPulse

namespace Blacklist

/-! ### The ideal counter -/

/-- What the counter of one IP is for: how many faulty packets came since the start or
    since the last block ended, and until when the IP is to be blocked. `purged`
    remembers that a purge ran while the packets were being counted; it has no
    influence on the other two. -/
structure Faults where
  count : Nat
  blocked_until : Option Instant
  purged : Bool
  deriving DecidableEq

namespace Faults

def init : Faults := { count := 0, blocked_until := none, purged := false }

def blocked (f : Faults) (t : Instant) : Bool :=
  match f.blocked_until with
  | some limit => decide (t < limit)
  | none => false

/-- Counting starts afresh once a block has ended. -/
def fresh (f : Faults) : Faults := if f.blocked_until.isSome then init else f

/-- A faulty packet at `now` exceeds the threshold. -/
def exceeds (T : Nat) (f : Faults) (now : Instant) : Prop :=
  f.blocked now = false ∧ T < f.fresh.count + 1

/-- A faulty packet at `now`; while the IP is blocked it extends the block. -/
def record (T : Nat) (D : Duration) (f : Faults) (now : Instant) : Faults :=
  if f.blocked now then { f with blocked_until := some (now + D) }
  else
    { f.fresh with
      count := f.fresh.count + 1
      blocked_until := if T < f.fresh.count + 1 then some (now + D) else none }

def purge (f : Faults) : Faults :=
  if 0 < f.count ∧ f.blocked_until = none then { f with purged := true } else f

def step (T : Nat) (D : Duration) (ip : IpAddr) (f : Faults) (c : TimedCall) : Faults :=
  match c.call with
  | .record_faulty ip' => if ip' = ip then f.record T D c.now else f
  | .purge_stale => f.purge
  | _ => f

def run (T : Nat) (D : Duration) (ip : IpAddr) (calls : List TimedCall) : Faults :=
  calls.foldl (step T D ip) init

@[simp] theorem run_snoc (T : Nat) (D : Duration) (ip : IpAddr) (calls : List TimedCall)
    (c : TimedCall) : run T D ip (calls ++ [c]) = step T D ip (run T D ip calls) c := by
  simp [run]

end Faults

/-- The call is the packet with which `ip` exceeds the threshold. -/
def trips (T : Nat) (D : Duration) (ip : IpAddr) (pre : List TimedCall) (c : TimedCall) : Prop :=
  c.call = .record_faulty ip ∧ (Faults.run T D ip pre).exceeds T c.now

/-- No purge ran between the first counted packet and the one that exceeds the threshold,
    and the threshold leaves the counter room to exceed it. -/
def CountsThrough (T : UInt32) (D : Duration) (ip : IpAddr) (calls : List TimedCall) : Prop :=
  ∀ pre c, pre ++ [c] <+: calls → trips T.toNat D ip pre c →
    (Faults.run T.toNat D ip pre).purged = false ∧ T.toNat + 1 < UInt32.size

theorem CountsThrough.init {T : UInt32} {D : Duration} {ip : IpAddr} {calls : List TimedCall}
    {c : TimedCall} (h : CountsThrough T D ip (calls ++ [c])) : CountsThrough T D ip calls := by
  intro pre d hpre
  exact h pre d (hpre.trans (List.prefix_append calls [c]))

/-! ### The table in step with the ideal counter -/

/-- The fault count an entry stands for; no entry stands for zero. -/
def counted (o : Option Entry) : Nat := (o.map (fun e => e.faults.toNat)).getD 0

/-- How the entry of one IP stands for its `Faults`, after calls up to `last`. -/
inductive Sync (T : UInt32) (last : Instant) : Option Entry → Faults → Prop where
  | counting {o : Option Entry} {f : Faults} (hblock : f.blocked_until = none)
      (hentry : ∀ e, o = some e → e.blocked_until = none) (hle : f.count ≤ T.toNat)
      (hexact : f.purged = false → counted o = f.count)
      (hless : f.purged = true → counted o < f.count) : Sync T last o f
  | blocked {e : Entry} {f : Faults} {t : Instant} (hblock : f.blocked_until = some t)
      (hentry : e.blocked_until = some t) : Sync T last (some e) f
  | dropped {f : Faults} {t : Instant} (hblock : f.blocked_until = some t) (hpast : t ≤ last) :
      Sync T last none f

/-- The entry of an IP that is not blocked, or the one that is about to be created for it. -/
theorem counted_entry {o : Option Entry} (hentry : ∀ e, o = some e → e.blocked_until = none) :
    ∃ e, o.getD { faults := 0, blocked_until := none } = e ∧ e.blocked_until = none ∧
      e.faults.toNat = counted o := by
  cases o with
  | none => exact ⟨_, rfl, rfl, rfl⟩
  | some e => exact ⟨e, rfl, hentry e rfl, rfl⟩

/-- A threshold of at least one is not the value that turns the blacklist off. -/
theorem ne_zero_of_one_le {T : UInt32} (hT : 1 ≤ T.toNat) : T ≠ 0 := by
  intro h0
  rw [h0] at hT
  exact absurd hT (by decide)

/-- What `Sync` is for: a block of the ideal counter is a block of the table. -/
theorem Sync.blocks {T : UInt32} {last t : Instant} {o : Option Entry} {f : Faults}
    (h : Sync T last o f) (hlast : last ≤ t) (hblocked : f.blocked t = true) :
    ∃ e, o = some e ∧ e.blocks t = true := by
  unfold Faults.blocked at hblocked
  cases h with
  | counting hblock => simp [hblock] at hblocked
  | blocked hblock hentry =>
    rename_i e limit
    refine ⟨e, rfl, ?_⟩
    simp only [hblock] at hblocked
    simp [Entry.blocks, hentry, hblocked]
  | dropped hblock hpast =>
    simp only [hblock, decide_eq_true_eq] at hblocked
    lia

theorem Sync.later {T : UInt32} {last now : Instant} {o : Option Entry} {f : Faults}
    (h : Sync T last o f) (hnow : last ≤ now) : Sync T now o f := by
  cases h with
  | counting hblock hentry hle hexact hless => exact .counting hblock hentry hle hexact hless
  | blocked hblock hentry => exact .blocked hblock hentry
  | dropped hblock hpast => exact .dropped hblock (hpast.trans hnow)

/-- A faulty packet after the end of a block starts a new count. -/
theorem Faults.record_ended {T : Nat} {D : Duration} {now limit : Instant} {f : Faults}
    (hT : 1 ≤ T) (hblock : f.blocked_until = some limit) (hended : ¬ now < limit) :
    f.record T D now = { count := 1, blocked_until := none, purged := false } := by
  have hle : ¬ T < 1 := by omega
  simp [Faults.record, Faults.blocked, Faults.fresh, Faults.init, hblock, hended, hle]

/-- A faulty packet of an IP that is not blocked, on the side of the table. -/
theorem fault_counting {T : UInt32} {D : Duration} {now : Instant} {e : Entry}
    (hentry : e.blocked_until = none) :
    (fault T D now e).2 = { faults := e.faults + 1,
                            blocked_until :=
                              if T < e.faults + 1 then some (now + D) else none } := by
  unfold fault
  rw [hentry]
  by_cases h : T < e.faults + 1 <;> simp [h]

/-- A faulty packet of an IP that is not blocked, on the side of its `Faults`. -/
theorem Faults.record_counting {T : Nat} {D : Duration} {now : Instant} {f : Faults}
    (hblock : f.blocked_until = none) :
    f.record T D now =
      { f with count := f.count + 1,
               blocked_until := if T < f.count + 1 then some (now + D) else none } := by
  simp [Faults.record, Faults.blocked, Faults.fresh, hblock]

/-- The packet that exceeds the threshold is to be blocked. -/
theorem Faults.exceeds.blocked_record {T : Nat} {D : Duration} {now : Instant} {f : Faults}
    (hD : 0 < D) (h : f.exceeds T now) : (f.record T D now).blocked now = true := by
  obtain ⟨hfree, hover⟩ := h
  have hrecord : (f.record T D now).blocked_until = some (now + D) := by
    simp [Faults.record, hfree, hover]
  unfold Faults.blocked
  rw [hrecord]
  exact decide_eq_true (Nat.lt_add_of_pos_right hD)

/-- Step lemma: a faulty packet of this IP keeps the two in step. -/
theorem Sync.record {T : UInt32} {D : Duration} {last now : Instant} {o : Option Entry}
    {f : Faults} (hT : 1 ≤ T.toNat) (h : Sync T last o f) (hnow : last ≤ now)
    (hgood : f.exceeds T.toNat now → f.purged = false ∧ T.toNat + 1 < UInt32.size) :
    Sync T now
      (some (fault T D now (o.getD { faults := 0, blocked_until := none })).2)
      (f.record T.toNat D now) := by
  have hone : ¬ T < 1 := by
    rw [UInt32.lt_iff_toNat_lt]
    exact Nat.not_lt.mpr hT
  cases h with
  | counting hblock hentry hle hexact hless =>
    obtain ⟨e, he, hnone, hcount⟩ := counted_entry hentry
    have hcounted_le : counted o ≤ f.count := by
      cases hp : f.purged with
      | false => exact (hexact hp).le
      | true => exact (hless hp).le
    rw [he, fault_counting hnone, Faults.record_counting hblock]
    by_cases hover : T.toNat < f.count + 1
    · -- the threshold is exceeded: the table has counted every packet, so it trips as well
      have hexceeds : f.exceeds T.toNat now := by
        simp [Faults.exceeds, Faults.blocked, Faults.fresh, hblock, hover]
      obtain ⟨hpurged, hroom⟩ := hgood hexceeds
      have hfaults : e.faults.toNat = T.toNat := by
        have := hexact hpurged
        omega
      have htrip : T < e.faults + 1 := by
        rw [UInt32.lt_iff_toNat_lt, UInt32.toNat_add, hfaults]
        rw [show (1 : UInt32).toNat = 1 from rfl, Nat.mod_eq_of_lt hroom]
        omega
      rw [if_pos hover, if_pos htrip]
      exact .blocked rfl rfl
    · -- below the threshold the `u32` counter does not wrap
      have hlt : e.faults.toNat + 1 < 2 ^ 32 := by
        have := T.toNat_lt
        omega
      have hsucc : (e.faults + 1).toNat = e.faults.toNat + 1 := by
        rw [UInt32.toNat_add, show (1 : UInt32).toNat = 1 from rfl, Nat.mod_eq_of_lt hlt]
      have htrip : ¬ T < e.faults + 1 := by
        rw [UInt32.lt_iff_toNat_lt, hsucc]
        omega
      have hnew : counted (some { faults := e.faults + 1, blocked_until := none }) =
          counted o + 1 := by
        rw [← hcount, ← hsucc]; rfl
      rw [if_neg hover, if_neg htrip]
      refine .counting rfl (by simp) (Nat.not_lt.mp hover) ?_ ?_
      · intro hp
        rw [hnew, hexact hp]
      · intro hp
        have := hless hp
        rw [hnew]
        exact Nat.succ_lt_succ this
  | blocked hblock hentry =>
    rename_i e limit
    rw [Option.getD_some]
    by_cases hlive : now < limit
    · -- the block is extended on both sides
      have hf : f.record T.toNat D now = { f with blocked_until := some (now + D) } := by
        simp [Faults.record, Faults.blocked, hblock, hlive]
      have he : (fault T D now e).2 = { e with blocked_until := some (now + D) } := by
        simp [fault, hentry, hlive]
      rw [hf, he]
      exact .blocked rfl rfl
    · -- the block has ended: both count one
      have he : (fault T D now e).2 = { faults := 1, blocked_until := none } := by
        simp [fault, hentry, hlive]
      rw [Faults.record_ended hT hblock hlive, he]
      exact .counting rfl (by simp) hT (by simp [counted]) (by simp)
  | dropped hblock hpast =>
    -- the table has forgotten a block that has ended; both count one
    rw [Option.getD_none, fault_counting rfl, Faults.record_ended hT hblock (by lia)]
    refine .counting rfl ?_ hT (by simp [counted]) (by simp)
    simp [hone]

/-- Step lemma: a purge keeps the two in step. -/
theorem Sync.purge {T : UInt32} {last now : Instant} {o : Option Entry} {f : Faults}
    (h : Sync T last o f) (hnow : last ≤ now) :
    Sync T now (o.filter (fun e => e.blocks now)) f.purge := by
  cases h with
  | counting hblock hentry hle hexact hless =>
    -- an entry without a block is dropped, and with it its count
    have hdrop : o.filter (fun e => e.blocks now) = none := by
      cases o with
      | none => rfl
      | some e => simp [Entry.blocks, hentry e rfl]
    rw [hdrop]
    -- what was counted so far is lost, and `purged` says so
    by_cases hpos : 0 < f.count
    · have hf : f.purge = { f with purged := true } := by simp [Faults.purge, hpos, hblock]
      rw [hf]
      exact .counting hblock (by simp) hle (by simp) (by simp [counted, hpos])
    · have hf : f.purge = f := by simp [Faults.purge, hpos]
      rw [hf]
      refine .counting hblock (by simp) hle ?_ ?_
      · intro _
        exact (Nat.eq_zero_of_not_pos hpos).symm
      · intro hp
        have := hless hp
        omega
  | blocked hblock hentry =>
    rename_i e limit
    have hf : f.purge = f := by simp [Faults.purge, hblock]
    rw [hf]
    -- a block that has not ended is kept
    by_cases hlive : now < limit
    · rw [Option.filter_some_pos (by simp [Entry.blocks, hentry, hlive])]
      exact .blocked hblock hentry
    · rw [Option.filter_some_neg (by simp [Entry.blocks, hentry, hlive])]
      exact .dropped hblock (by lia)
  | dropped hblock hpast =>
    have hf : f.purge = f := by simp [Faults.purge, hblock]
    rw [hf]
    exact .dropped hblock (hpast.trans hnow)

/-- The packet that exceeds the threshold blocks the entry only if every packet was counted. -/
theorem Sync.of_trip {T : UInt32} {D : Duration} {now : Instant} {o : Option Entry} {f : Faults}
    (hT : 1 ≤ T.toNat) (h : Sync T now o f) (hexceeds : f.exceeds T.toNat now)
    (hblocks :
      (fault T D now (o.getD { faults := 0, blocked_until := none })).2.blocks now = true) :
    f.purged = false ∧ T.toNat + 1 < UInt32.size := by
  obtain ⟨hfree, hover⟩ := hexceeds
  -- an ended block starts a new count, which is at most the threshold
  have hended {limit : Instant} (hblock : f.blocked_until = some limit) : False := by
    simp only [Faults.fresh, hblock, Option.isSome_some, if_true, Faults.init] at hover
    omega
  cases h with
  | blocked hblock => exact (hended hblock).elim
  | dropped hblock => exact (hended hblock).elim
  | counting hblock hentry hle hexact hless =>
    have hcount : f.count = T.toNat := by
      simp only [Faults.fresh, hblock, Option.isSome_none] at hover
      exact Nat.le_antisymm hle (Nat.lt_succ_iff.mp hover)
    obtain ⟨e, he, hnone, hcounted⟩ := counted_entry hentry
    -- the entry blocks, so its `u32` counter went past the threshold
    have htrip : T.toNat < (e.faults.toNat + 1) % 2 ^ 32 := by
      rw [he, fault_counting hnone] at hblocks
      by_contra hno
      have hlt : ¬ T < e.faults + 1 := by
        rw [UInt32.lt_iff_toNat_lt, UInt32.toNat_add]
        exact hno
      simp [Entry.blocks, hlt] at hblocks
    have hmod : (e.faults.toNat + 1) % 2 ^ 32 ≤ e.faults.toNat + 1 := Nat.mod_le _ _
    -- a table that has lost a packet would be below the threshold
    have hfull : f.purged = false := by
      cases hp : f.purged with
      | false => rfl
      | true =>
        have := hless hp
        omega
    refine ⟨hfull, ?_⟩
    have := hexact hfull
    have hsize : UInt32.size = 2 ^ 32 := rfl
    omega

/-- Run lemma: the table stands for the `Faults` of every IP. -/
theorem Sync.run {T : UInt32} {D : Duration} {b : Blacklist} (hT : 1 ≤ T.toNat)
    (hthreshold : b.threshold = T) (hduration : b.duration = D) (hmax : b.max_entries = 0)
    (hstate : b.state = ∅) {calls : List TimedCall} (hord : Ordered calls) {ip : IpAddr}
    (hgood : CountsThrough T D ip calls) {last : Instant} (hlast : ∀ c ∈ calls, c.now ≤ last) :
    Sync T last (AList.lookup ip (b.run calls).state) (Faults.run T.toNat D ip calls) := by
  induction calls using List.reverseRecOn generalizing last with
  | nil =>
    rw [run_nil, hstate, AList.lookup_empty]
    exact .counting rfl (by simp) (Nat.zero_le _) (fun _ => rfl) (by simp [Faults.run, Faults.init])
  | append_singleton calls c ih =>
    have hT' : (b.run calls).threshold = T := (run_threshold b calls).trans hthreshold
    have hD' : (b.run calls).duration = D := (run_duration b calls).trans hduration
    have hM' : (b.run calls).max_entries = 0 := (run_max_entries b calls).trans hmax
    have hne : (b.run calls).threshold ≠ 0 := hT'.trans_ne (ne_zero_of_one_le hT)
    have hbefore : Sync T c.now (AList.lookup ip (b.run calls).state)
        (Faults.run T.toNat D ip calls) := ih hord.init hgood.init hord.le_last
    -- each call is made in the state that the calls before it have left
    suffices hafter : Sync T c.now (AList.lookup ip (b.run (calls ++ [c])).state)
        (Faults.run T.toNat D ip (calls ++ [c])) from hafter.later (hlast c (by simp))
    have htrips := hgood calls c List.prefix_rfl
    unfold trips at htrips
    rw [run_snoc, Faults.run_snoc, lookup_step hne hM', hT', hD']
    unfold track Faults.step
    cases hcall : c.call with
    | record_faulty ip' =>
      by_cases hip : ip' = ip
      · simp only [hip, if_true]
        -- `hgood` speaks of the packet that exceeds the threshold, which is this one
        refine hbefore.record hT le_rfl (fun hexceeds => htrips ⟨?_, hexceeds⟩)
        rw [hcall, hip]
      · simpa only [hip, if_false] using hbefore
    | purge_stale => exact hbefore.purge le_rfl
    | note_rejection => exact hbefore
    | is_blocked => exact hbefore
    | shed => exact hbefore

/-! ### When the threshold blocks -/

/-- After every part of the run, whatever is to be blocked is blocked. -/
def BlocksAfterThreshold (b : Blacklist) (ip : IpAddr) (calls : List TimedCall) : Prop :=
  ∀ pre, pre <+: calls → ∀ t, (∀ c ∈ pre, c.now ≤ t) →
    (Faults.run b.threshold.toNat b.duration ip pre).blocked t = true →
      (b.run pre).is_blocked ip t = true

theorem BlocksAfterThreshold.init {b : Blacklist} {ip : IpAddr} {calls : List TimedCall}
    {c : TimedCall} (h : BlocksAfterThreshold b ip (calls ++ [c])) :
    BlocksAfterThreshold b ip calls := by
  intro pre hpre
  exact h pre (hpre.trans (List.prefix_append calls [c]))

/-- `is_blocked` looks at nothing but the entry of the IP. -/
theorem is_blocked_iff {b : Blacklist} (hT : b.threshold ≠ 0) {ip : IpAddr} {t : Instant} :
    b.is_blocked ip t = true ↔ ∃ e, AList.lookup ip b.state = some e ∧ e.blocks t = true := by
  unfold is_blocked is_blocked_at
  rw [if_neg hT]
  cases AList.lookup ip b.state with
  | none => simp
  | some e => simp

/-- If every packet is counted through, the threshold blocks. -/
theorem blocks_of_counts_through {b : Blacklist} (hT : 1 ≤ b.threshold.toNat)
    (hmax : b.max_entries = 0) (hstate : b.state = ∅) {calls : List TimedCall}
    (hord : Ordered calls) {ip : IpAddr}
    (hgood : CountsThrough b.threshold b.duration ip calls) : BlocksAfterThreshold b ip calls := by
  intro pre hpre t ht hblocked
  have hne : (b.run pre).threshold ≠ 0 := by
    rw [run_threshold]
    exact ne_zero_of_one_le hT
  have hsync := Sync.run hT rfl rfl hmax hstate (hord.sublist hpre.sublist)
    (fun p c hp => hgood p c (hp.trans hpre)) ht
  exact (is_blocked_iff hne).mpr (hsync.blocks le_rfl hblocked)

/-- If the threshold blocks, every packet was counted through. -/
theorem counts_through_of_blocks {b : Blacklist} (hT : 1 ≤ b.threshold.toNat)
    (hD : 0 < b.duration) (hmax : b.max_entries = 0) (hstate : b.state = ∅)
    {calls : List TimedCall} (hord : Ordered calls) {ip : IpAddr}
    (hblocks : BlocksAfterThreshold b ip calls) :
    CountsThrough b.threshold b.duration ip calls := by
  induction calls using List.reverseRecOn with
  | nil =>
    intro pre c hpre
    simp at hpre
  | append_singleton calls c ih =>
    have hbefore := ih hord.init hblocks.init
    intro pre d hpre htrips
    rcases List.prefix_concat_iff.mp hpre with heq | hshorter
    swap
    · exact hbefore pre d hshorter htrips
    -- the last call is the packet that exceeds the threshold
    obtain ⟨rfl, rfl⟩ : pre = calls ∧ d = c := by simpa using heq
    obtain ⟨hcall, hexceeds⟩ := htrips
    have hM' : (b.run pre).max_entries = 0 := (run_max_entries b pre).trans hmax
    have hne (cs : List TimedCall) : (b.run cs).threshold ≠ 0 := by
      rw [run_threshold]
      exact ne_zero_of_one_le hT
    have hideal :
        (Faults.run b.threshold.toNat b.duration ip (pre ++ [d])).blocked d.now = true := by
      rw [Faults.run_snoc, Faults.step, hcall]
      simpa only [if_true] using hexceeds.blocked_record hD
    have hlast : ∀ e ∈ pre ++ [d], e.now ≤ d.now := by
      intro e he
      rcases List.mem_append.mp he with he | he
      · exact hord.le_last e he
      · rw [List.mem_singleton.mp he]
    -- the table blocks the IP at the time of that packet
    have htable := hblocks (pre ++ [d]) List.prefix_rfl d.now hlast hideal
    obtain ⟨e, hlookup, hlive⟩ := (is_blocked_iff (hne (pre ++ [d]))).mp htable
    rw [run_snoc, lookup_step (hne pre) hM', run_threshold, run_duration, track, hcall] at hlookup
    simp only [if_true, Option.some.injEq] at hlookup
    have hsync := Sync.run hT rfl rfl hmax hstate hord.init hbefore hord.le_last
    exact hsync.of_trip hT hexceeds (hlookup ▸ hlive)

/-- The threshold blocks in a run iff no purge comes between the packets it counts
    (and the threshold is not the largest `u32`). -/
theorem blocks_after_threshold_iff {T A R : UInt32} {D W : UInt64} {base : Instant}
    (hT : 1 ≤ T) (hD : 1 ≤ D) {calls : List TimedCall} (hord : Ordered calls) (ip : IpAddr) :
    BlocksAfterThreshold (new T D A R W 0 base) ip calls ↔
      CountsThrough T (Duration.from_secs D) ip calls := by
  have hT' : 1 ≤ T.toNat := by simpa using UInt32.le_iff_toNat_le.mp hT
  constructor
  · exact counts_through_of_blocks (b := new T D A R W 0 base) hT' (Duration.from_secs_pos hD)
      rfl rfl hord
  · exact blocks_of_counts_through (b := new T D A R W 0 base) hT' rfl rfl hord

/-- Two faulty packets two seconds apart. -/
def two_faults : List TimedCall :=
  [⟨4000000000, .record_faulty noisy_ip⟩, ⟨6000000000, .record_faulty noisy_ip⟩]

/-- The cleanup tick falls between the two. -/
def two_faults_and_purge : List TimedCall :=
  [⟨4000000000, .record_faulty noisy_ip⟩, ⟨5000000000, .purge_stale⟩,
    ⟨6000000000, .record_faulty noisy_ip⟩]

theorem blocks_after_threshold_iff_two_faults :
    BlocksAfterThreshold (new 1 600 0 0 60 0 0) noisy_ip two_faults ↔
      CountsThrough 1 (Duration.from_secs 600) noisy_ip two_faults :=
  blocks_after_threshold_iff (by decide) (by decide) (by unfold Ordered; decide) noisy_ip

/-- With a threshold of one, two faulty packets do not block when a purge comes between them. -/
theorem purge_forgets_faults :
    Ordered two_faults_and_purge ∧
      ¬ BlocksAfterThreshold (new 1 600 0 0 60 0 0) noisy_ip two_faults_and_purge := by
  refine ⟨by unfold Ordered; decide, ?_⟩
  intro h
  have hblocked := h two_faults_and_purge List.prefix_rfl 6000000000 (by decide) (by decide)
  exact absurd hblocked (by decide)

end Blacklist

end SignedPulse
