import SignedPulse.Framework.Scanner
import SignedPulse.Server.Environment

/-! # Addresses as text

    How the standard library prints an IP address, and how it reads a socket
    address. An IPv6 address is printed with its longest run of zero groups as
    `::`, and with the last four bytes in decimal when it is an IPv4 address
    mapped into IPv6.

    What is printed is read back: bare with a port behind it for IPv4, and in
    brackets for IPv6. A bare IPv6 address is no socket address.
-/

namespace SignedPulse

open Scan

/-! ### Printing -/

/-- A `u16` in lower-case hex, without leading zeros. -/
def lower_hex (segment : Nat) : Str :=
  match (hex [UInt8.ofNat (segment / 256), UInt8.ofNat segment]).dropWhile (fun d => d = '0') with
  | [] => ['0']
  | digits => digits

/-- A run of zero segments. -/
structure Span where
  start : Nat
  len : Nat

/-- The longest run and the current one, after one segment more. -/
def Span.step (spans : Span × Span) (segment : Nat × Nat) : Span × Span :=
  if segment.1 = 0 then
    let current : Span :=
      { start := if spans.2.len = 0 then segment.2 else spans.2.start
        len := spans.2.len + 1 }
    (if current.len > spans.1.len then current else spans.1, current)
  else (spans.1, ⟨0, 0⟩)

/-- The first of the longest runs of zeros. -/
def inner_zeroes (segments : List Nat) : Span :=
  (segments.zipIdx.foldl Span.step (⟨0, 0⟩, ⟨0, 0⟩)).1

/-- Segments, separated by colons. -/
def fmt_subslice (chunk : List Nat) : Str := List.intercalate [':'] (chunk.map lower_hex)

def ipv4_text (octets : Bytes) : Str :=
  List.intercalate ['.'] (octets.map (fun b => decimal b.toNat))

/-- The 16-bit segments of an address, most significant first. -/
def ipv6_segments : Bytes → List Nat
  | hi :: lo :: rest => (256 * hi.toNat + lo.toNat) :: ipv6_segments rest
  | _ => []

/-- `Ipv6Addr`'s `Display`: an embedded IPv4 address, or the longest run of zeros left out. -/
def ipv6_text (octets : Bytes) : Str :=
  if octets.take 12 = List.replicate 10 0 ++ [0xff, 0xff] then
    "::ffff:".toList ++ ipv4_text (octets.drop 12)
  else
    let segments := ipv6_segments octets
    let zeroes := inner_zeroes segments
    if zeroes.len > 1 then
      fmt_subslice (segments.take zeroes.start) ++ "::".toList ++
        fmt_subslice (segments.drop (zeroes.start + zeroes.len))
    else fmt_subslice segments

def IpAddr.to_string : IpAddr → Str
  | .V4 octets => ipv4_text octets.val
  | .V6 octets => ipv6_text octets.val

def IpAddr.is_ipv6 : IpAddr → Bool
  | .V4 _ => false
  | .V6 _ => true

/-! ### Reading -/

def read_octet (index : Nat) : Scanner Nat :=
  read_separator '.' index (read_number 10 (some 3) 256 false)

def read_ipv4_addr : Scanner (ByteVec 4) := fun s => do
  let (a, s) ← read_octet 0 s
  let (b, s) ← read_octet 1 s
  let (c, s) ← read_octet 2 s
  let (d, s) ← read_octet 3 s
  return (⟨[UInt8.ofNat a, UInt8.ofNat b, UInt8.ofNat c, UInt8.ofNat d], rfl⟩, s)

def read_group (index : Nat) : Scanner Nat :=
  read_separator ':' index (read_number 16 (some 4) 65536 true)

/-- Groups for the last `k` places, the first of which has the index `i`, and whether they end in
    an embedded IPv4 address, which takes two places. -/
def read_groups (i : Nat) : Nat → Str → (List Nat × Bool) × Str
  | 0, s => (([], false), s)
  | k + 1, s =>
    match (if 0 < k then read_separator ':' i read_ipv4_addr s else none) with
    | some (ipv4, s) => ((ipv6_segments ipv4.val, true), s)
    | none =>
      match read_group i s with
      | none => (([], false), s)
      | some (g, s) =>
        let rest := read_groups (i + 1) k s
        ((g :: rest.1.1, rest.1.2), rest.2)

/-- The bytes of eight groups. -/
def group_bytes (gs : List Nat) : Bytes :=
  gs.flatMap fun g => [UInt8.ofNat (g / 256), UInt8.ofNat (g % 256)]

/-- `Ipv6Addr::from` of a buffer of eight groups, zero where nothing was read. -/
def from_groups (gs : List Nat) : ByteVec 16 :=
  ⟨(group_bytes gs ++ List.replicate 16 0).take 16, by
    rw [List.length_take, List.length_append, List.length_replicate]
    exact Nat.min_eq_left (Nat.le_add_left 16 _)⟩

def read_ipv6_addr : Scanner (ByteVec 16) := fun s =>
  let ((head, head_ipv4), s) := read_groups 0 8 s
  if head.length = 8 then some (from_groups head, s)
  -- an embedded IPv4 address ends the address
  else if head_ipv4 then none
  else do
    let (_, s) ← read_char ':' s
    let (_, s) ← read_char ':' s
    -- `::` stands for one group at least
    let ((tail, _), s) := read_groups 0 (8 - (head.length + 1)) s
    let zero := List.replicate (8 - head.length - tail.length) 0
    return (from_groups (head ++ zero ++ tail), s)

def read_port : Scanner UInt16 := fun s => do
  let (_, s) ← read_char ':' s
  let (port, s) ← read_number 10 none 65536 true s
  return (UInt16.ofNat port, s)

def read_scope_id : Scanner Nat := fun s => do
  let (_, s) ← read_char '%' s
  read_number 10 none 4294967296 true s

def read_socket_addr_v4 : Scanner SocketAddr := fun s => do
  let (ip, s) ← read_ipv4_addr s
  let (port, s) ← read_port s
  return (⟨.V4 ip, port⟩, s)

/-- The scope of an address is read and not looked at again. -/
def read_socket_addr_v6 : Scanner SocketAddr := fun s => do
  let (_, s) ← read_char '[' s
  let (ip, s) ← read_ipv6_addr s
  let s := ((read_scope_id s).map Prod.snd).getD s
  let (_, s) ← read_char ']' s
  let (port, s) ← read_port s
  return (⟨.V6 ip, port⟩, s)

/-- `str::parse::<SocketAddr>`: nothing may be left. -/
def SocketAddr.from_str (s : Str) : Option SocketAddr :=
  match (read_socket_addr_v4 s).or (read_socket_addr_v6 s) with
  | some (addr, []) => some addr
  | _ => none

/-! ### IPv4 -/

theorem noDigit_of_hex {s : Str} (h : NoDigit 16 s) : NoDigit 10 s := by
  intro c hc
  have hhex := h c hc
  unfold to_digit at hhex ⊢
  rw [Option.filter_eq_none_iff] at hhex ⊢
  intro d hd hlt
  exact hhex d hd (decide_eq_true (Nat.lt_trans (of_decide_eq_true hlt) (by decide)))

theorem read_octet_text (b : UInt8) {s : Str} (hs : NoDigit 10 s) :
    read_number 10 (some 3) 256 false (Nat.toDigits 10 b.toNat ++ s) = some (b.toNat, s) := by
  have hb : b.toNat < 256 := b.toNat_lt
  apply read_number_toDigits (by decide) (by decide) hb _ hs
  intro m hm
  obtain rfl := Option.some.inj hm
  exact ⟨by decide, by omega⟩

theorem noDigit_dot (s : Str) : NoDigit 10 ('.' :: s) := noDigit_cons.mpr (by decide)

theorem notMem_ipv4 {c : Char} (hdigit : c.isDigit = false) (hdot : c ≠ '.') (octets : Bytes) :
    c ∉ ipv4_text octets := by
  intro hmem
  rcases mem_intercalate hmem with hc | ⟨s, hs, hc⟩
  · exact hdot hc
  · obtain ⟨b, -, rfl⟩ := List.mem_map.mp hs
    exact not_mem_toDigits_of_not_digit hdigit _ hc

theorem read_ipv4_text (octets : ByteVec 4) {s : Str} (hs : NoDigit 10 s) :
    read_ipv4_addr (ipv4_text octets.val ++ s) = some (octets, s) := by
  obtain ⟨octets, hlength⟩ := octets
  match octets, hlength with
  | [a, b, c, d], _ =>
    have htext : ipv4_text [a, b, c, d] ++ s = Nat.toDigits 10 a.toNat ++
        ('.' :: (Nat.toDigits 10 b.toNat ++ ('.' :: (Nat.toDigits 10 c.toNat ++
          ('.' :: (Nat.toDigits 10 d.toNat ++ s)))))) := by
      show List.intercalate ['.'] (List.map _ [a, b, c, d]) ++ s = _
      rw [List.map_cons, intercalate_eq_flatMap]
      simp [decimal]
    show read_ipv4_addr (ipv4_text [a, b, c, d] ++ s) = _
    rw [htext]
    simp only [read_ipv4_addr, read_octet, read_separator_zero, read_separator_succ,
      read_octet_text _ (noDigit_dot _), read_octet_text _ hs, Option.bind_eq_bind,
      Option.bind_some, UInt8.ofNat_toNat]
    rfl

/-- The digits end before a text that starts with neither a digit nor a dot. -/
theorem read_digits_no_dot {xs s : Str} (hxs : '.' ∉ xs) (hs : NoDigit 10 s)
    (hdot : s.head? ≠ some '.') : (read_digits 10 (xs ++ s)).2.head? ≠ some '.' := by
  induction xs with
  | nil =>
    rw [List.nil_append, read_digits_stop hs]
    exact hdot
  | cons x xs ih =>
    rw [List.mem_cons, not_or] at hxs
    show (read_digits 10 (x :: (xs ++ s))).2.head? ≠ _
    unfold read_digits
    split
    · intro hhead
      exact hxs.1 (Option.some.inj hhead).symm
    · exact ih hxs.2

/-- An IPv4 address has a dot behind its first digits. -/
theorem read_ipv4_none {xs s : Str} (hxs : '.' ∉ xs) (hs : NoDigit 10 s)
    (hdot : s.head? ≠ some '.') : read_ipv4_addr (xs ++ s) = none := by
  unfold read_ipv4_addr
  cases hfirst : read_octet 0 (xs ++ s) with
  | none => rfl
  | some r =>
    obtain ⟨a, t⟩ := r
    have hrest : t.head? ≠ some '.' := by
      rw [read_number_rest hfirst]
      exact read_digits_no_dot hxs hs hdot
    have hsecond : read_octet 1 t = none := read_separator_none hrest (by decide)
    show (read_octet 1 t).bind _ = none
    rw [hsecond]
    rfl

/-! ### Groups -/

/-- Neither a group nor an IPv4 address starts here. -/
structure NoGroup (s : Str) : Prop where
  noDigit : NoDigit 16 s
  dot : s.head? ≠ some '.'

/-- No group follows, with or without a colon in front. -/
structure GroupsEnd (s : Str) : Prop extends NoGroup s where
  colon : ∀ t, s = ':' :: t → NoGroup t

theorem noGroup_cons {c : Char} {s : Str} (hdigit : to_digit 16 c = none) (hdot : c ≠ '.') :
    NoGroup (c :: s) where
  noDigit := noDigit_cons.mpr hdigit
  dot := by
    intro hhead
    exact hdot (Option.some.inj hhead)

theorem groupsEnd_bracket (s : Str) : GroupsEnd (']' :: s) where
  toNoGroup := noGroup_cons (by decide) (by decide)
  colon := by
    intro t ht
    exact absurd (List.cons.inj ht).1 (by decide)

theorem groupsEnd_colons (s : Str) : GroupsEnd (':' :: ':' :: s) where
  toNoGroup := noGroup_cons (by decide) (by decide)
  colon := by
    intro t ht
    rw [← (List.cons.inj ht).2]
    exact noGroup_cons (by decide) (by decide)

theorem NoGroup.reads_nothing {s : Str} (h : NoGroup s) :
    read_ipv4_addr s = none ∧ read_group 0 s = none :=
  ⟨read_ipv4_none List.not_mem_nil (noDigit_of_hex h.noDigit) h.dot, read_number_none h.noDigit⟩

theorem notMem_group {c : Char} (hc : ∀ d < 16, Nat.digitChar d ≠ c) (g : Nat) :
    c ∉ Nat.toDigits 16 g := by
  obtain ⟨ds, htext, hlt, -⟩ := toDigits_spec (show 1 < 16 by decide) g
  rw [htext]
  intro hmem
  obtain ⟨d, hd, hchar⟩ := List.mem_map.mp hmem
  exact hc d (hlt d hd) hchar

theorem dot_notMem_group (g : Nat) : '.' ∉ Nat.toDigits 16 g := notMem_group (by decide) g

theorem read_group_text {g : Nat} (hg : g < 65536) {s : Str} (hs : NoDigit 16 s) :
    read_number 16 (some 4) 65536 true (Nat.toDigits 16 g ++ s) = some (g, s) := by
  apply read_number_toDigits (by decide) (by decide) hg _ hs
  intro m hm
  obtain rfl := Option.some.inj hm
  exact ⟨by decide, hg⟩

/-- Groups, each with a colon in front of it. -/
def more_groups (gs : List Nat) : Str := gs.flatMap fun g => ':' :: Nat.toDigits 16 g

theorem hex_segment {segment : Nat} (h : segment < 65536) :
    hex [UInt8.ofNat (segment / 256), UInt8.ofNat segment] =
      [hex_digit (segment / 4096), hex_digit (segment / 256 % 16), hex_digit (segment / 16 % 16),
        hex_digit (segment % 16)] := by
  have hhi : (UInt8.ofNat (segment / 256)).toNat = segment / 256 := by
    rw [UInt8.toNat_ofNat']
    omega
  have hlo : (UInt8.ofNat segment).toNat = segment % 256 := UInt8.toNat_ofNat'
  have htop : segment / 256 / 16 = segment / 4096 := by omega
  have hthird : segment % 256 / 16 = segment / 16 % 16 := by omega
  have hlast : segment % 256 % 16 = segment % 16 := by omega
  simp only [hex, List.flatMap_cons, List.flatMap_nil, List.append_nil, List.cons_append,
    List.nil_append, hhi, hlo, htop, hthird, hlast]

/-- Without leading zeros, the digits of a segment are those of the number. -/
theorem lower_hex_eq {segment : Nat} (h : segment < 65536) :
    lower_hex segment = Nat.toDigits 16 segment := by
  have hzero : ∀ d < 16, decide (hex_digit d = '0') = decide (d = 0) := by decide
  have htop : segment / 4096 < 16 := by omega
  have hmod (n : Nat) : n % 16 < 16 := Nat.mod_lt _ (by decide)
  have hsplit {n : Nat} (hn : 16 ≤ n) :
      Nat.toDigits 16 n = Nat.toDigits 16 (n / 16) ++ [hex_digit (n % 16)] :=
    Nat.toDigits_of_base_le (by decide) hn
  have hone {n : Nat} (hn : n < 16) : Nat.toDigits 16 n = [hex_digit n] :=
    Nat.toDigits_of_lt_base hn
  have hdiv : segment / 16 / 16 = segment / 256 ∧ segment / 256 / 16 = segment / 4096 := by omega
  unfold lower_hex
  rw [hex_segment h]
  simp only [List.dropWhile_cons, hzero _ htop, hzero _ (hmod _)]
  -- by the number of digits, from four to one
  by_cases hfour : 4096 ≤ segment
  · have hd : segment / 4096 ≠ 0 := by omega
    rw [hsplit (by omega), hsplit (by omega), hdiv.1, hsplit (by omega), hdiv.2, hone htop]
    simp [hd]
  have hzero_top : segment / 4096 = 0 := by omega
  by_cases hthree : 256 ≤ segment
  · have hd : segment / 256 % 16 ≠ 0 := by omega
    have hlt : segment / 256 < 16 := by omega
    rw [hsplit (by omega), hsplit (by omega), hdiv.1, hone hlt]
    simp [hzero_top, Nat.mod_eq_of_lt hlt, show segment / 256 ≠ 0 by omega]
  have hzero_second : segment / 256 % 16 = 0 := by omega
  by_cases htwo : 16 ≤ segment
  · have hlt : segment / 16 < 16 := by omega
    rw [hsplit htwo, hone hlt]
    simp [hzero_top, hzero_second, Nat.mod_eq_of_lt hlt, show segment / 16 ≠ 0 by omega]
  have hlt : segment < 16 := by omega
  have hzero_third : segment / 16 % 16 = 0 := by omega
  rw [hone hlt]
  by_cases hnone : segment = 0
  · subst hnone
    rfl
  · simp [hzero_top, hzero_second, hzero_third, Nat.mod_eq_of_lt hlt, hnone]

theorem fmt_subslice_cons {g : Nat} {gs : List Nat} (hgs : ∀ e ∈ g :: gs, e < 65536) :
    fmt_subslice (g :: gs) = Nat.toDigits 16 g ++ more_groups gs := by
  have hmore : (gs.map lower_hex).flatMap (':' :: ·) = more_groups gs := by
    rw [List.flatMap_map]
    apply List.flatMap_congr
    intro e he
    rw [lower_hex_eq (hgs e (List.mem_cons_of_mem _ he))]
  unfold fmt_subslice
  rw [List.map_cons, intercalate_eq_flatMap, hmore, lower_hex_eq (hgs g List.mem_cons_self)]

/-- What is behind a group is not a part of it. -/
theorem more_groups_noGroup (gs : List Nat) {s : Str} (hs : GroupsEnd s) :
    NoGroup (more_groups gs ++ s) := by
  cases gs with
  | nil => exact hs.toNoGroup
  | cons g gs => exact noGroup_cons (by decide) (by decide)

/-- Where the groups end, neither a group nor an embedded address is read. -/
theorem read_groups_end {s : Str} (hs : GroupsEnd s) (i k : Nat) :
    read_groups i k s = (([], false), s) := by
  have hread : read_separator ':' i read_ipv4_addr s = none ∧ read_group i s = none := by
    cases i with
    | zero => exact hs.reads_nothing
    | succ i =>
      unfold read_group
      by_cases hcolon : s.head? = some ':'
      · obtain ⟨t, rfl⟩ := List.head?_eq_some_iff.mp hcolon
        rw [read_separator_succ, read_separator_succ]
        exact (hs.colon t rfl).reads_nothing
      · exact ⟨read_separator_none hcolon (Nat.succ_pos i),
          read_separator_none hcolon (Nat.succ_pos i)⟩
  cases k with
  | zero => rfl
  | succ k =>
    unfold read_groups
    rw [hread.1, hread.2, ite_self]

/-- One group is read. -/
theorem read_groups_step {g i k : Nat} {s t : Str} (hg : g < 65536) (ht : NoGroup t)
    (hfirst : ∀ {α : Type} (inner : Scanner α),
      read_separator ':' i inner s = inner (Nat.toDigits 16 g ++ t)) :
    read_groups i (k + 1) s =
      ((g :: (read_groups (i + 1) k t).1.1, (read_groups (i + 1) k t).1.2),
        (read_groups (i + 1) k t).2) := by
  have hipv4 : read_ipv4_addr (Nat.toDigits 16 g ++ t) = none :=
    read_ipv4_none (dot_notMem_group g) (noDigit_of_hex ht.noDigit) ht.dot
  conv_lhs => unfold read_groups read_group
  rw [hfirst, hfirst, hipv4, read_group_text hg ht.noDigit, ite_self]

/-- Groups with colons in front of them, at a place behind the first one. -/
theorem read_more_groups {gs : List Nat} {i k : Nat} {s : Str} (hgs : ∀ g ∈ gs, g < 65536)
    (hlength : gs.length ≤ k) (hs : GroupsEnd s) :
    read_groups (i + 1) k (more_groups gs ++ s) = ((gs, false), s) := by
  induction gs generalizing i k with
  | nil => exact read_groups_end hs (i + 1) k
  | cons g gs ih =>
    obtain ⟨k, rfl⟩ : ∃ n, k = n + 1 := ⟨k - 1, by simp at hlength; omega⟩
    have htext : more_groups (g :: gs) ++ s =
        ':' :: (Nat.toDigits 16 g ++ (more_groups gs ++ s)) := by
      simp [more_groups]
    have hstep := read_groups_step (i := i + 1) (k := k) (hgs g List.mem_cons_self)
      (more_groups_noGroup gs hs) (fun inner => read_separator_succ ':' i inner _)
    have hrest := ih (i := i + 1) (k := k) (fun e he => hgs e (List.mem_cons_of_mem _ he))
      (by simpa using hlength)
    rw [htext, hstep, hrest]

/-- Printed groups are read back, when they fit. -/
theorem read_groups_text {gs : List Nat} {k : Nat} {s : Str} (hgs : ∀ g ∈ gs, g < 65536)
    (hlength : gs.length ≤ k) (hs : GroupsEnd s) :
    read_groups 0 k (fmt_subslice gs ++ s) = ((gs, false), s) := by
  cases gs with
  | nil => exact read_groups_end hs 0 k
  | cons g gs =>
    obtain ⟨k, rfl⟩ : ∃ n, k = n + 1 := ⟨k - 1, by simp at hlength; omega⟩
    have hstep := read_groups_step (i := 0) (k := k) (hgs g List.mem_cons_self)
      (more_groups_noGroup gs hs) (fun inner => read_separator_zero ':' inner _)
    have hrest := read_more_groups (i := 0) (k := k)
      (fun e he => hgs e (List.mem_cons_of_mem _ he)) (by simpa using hlength) hs
    rw [fmt_subslice_cons hgs, List.append_assoc, hstep, hrest]

/-! ### Runs of zero groups -/

/-- The groups of the span are zero. -/
def Span.Zero (run : Span) (gs : List Nat) : Prop :=
  ∃ before behind, gs = before ++ (List.replicate run.len 0 ++ behind) ∧ before.length = run.start

theorem Span.Zero.append {run : Span} {gs : List Nat} (h : run.Zero gs) (g : Nat) :
    run.Zero (gs ++ [g]) := by
  obtain ⟨before, behind, rfl, hstart⟩ := h
  exact ⟨before, behind ++ [g], by simp, hstart⟩

/-- The current run is at the end of what has been looked at. -/
def Span.Current (run : Span) (gs : List Nat) : Prop :=
  run.len = 0 ∨ ∃ before, gs = before ++ List.replicate run.len 0 ∧ before.length = run.start

theorem Span.Current.zero {run : Span} {gs : List Nat} (h : run.Current gs) (hlen : run.len ≠ 0) :
    run.Zero gs := by
  obtain ⟨before, hgs, hstart⟩ := h.resolve_left hlen
  exact ⟨before, [], by rw [hgs, List.append_nil], hstart⟩

/-- One more zero: the run goes on, or starts here. -/
theorem Span.Current.zero_group {run : Span} {gs : List Nat} (h : run.Current gs) :
    Span.Current ⟨if run.len = 0 then gs.length else run.start, run.len + 1⟩ (gs ++ [0]) := by
  right
  by_cases hlen : run.len = 0
  · exact ⟨gs, by simp [hlen], by simp [hlen]⟩
  · obtain ⟨before, hgs, hstart⟩ := h.resolve_left hlen
    refine ⟨before, ?_, by simp [hlen, hstart]⟩
    rw [hgs, List.append_assoc, List.replicate_succ']

theorem foldl_step_zero {seen gs : List Nat} {longest current : Span}
    (hlongest : longest.Zero seen) (hcurrent : current.Current seen) :
    ((gs.zipIdx seen.length).foldl Span.step (longest, current)).1.Zero (seen ++ gs) := by
  induction gs generalizing seen longest current with
  | nil => simpa using hlongest
  | cons g gs ih =>
    have hseen : seen ++ g :: gs = (seen ++ [g]) ++ gs := by simp
    have hlength : seen.length + 1 = (seen ++ [g]).length := by simp
    rw [hseen, List.zipIdx_cons, List.foldl_cons, hlength]
    unfold Span.step
    by_cases hg : g = 0
    · subst hg
      have hnext := hcurrent.zero_group
      rw [if_pos rfl]
      dsimp only
      by_cases hlonger : current.len + 1 > longest.len
      · rw [if_pos hlonger]
        exact ih (hnext.zero (Nat.succ_ne_zero _)) hnext
      · rw [if_neg hlonger]
        exact ih (hlongest.append 0) hnext
    · rw [if_neg hg]
      exact ih (hlongest.append g) (.inl rfl)

theorem inner_zeroes_zero (gs : List Nat) : (inner_zeroes gs).Zero gs := by
  have hempty : Span.Zero ⟨0, 0⟩ [] := ⟨[], [], rfl, rfl⟩
  exact foldl_step_zero hempty (.inl rfl)

/-! ### IPv6 -/

theorem segments_lt (bs : Bytes) : ∀ g ∈ ipv6_segments bs, g < 65536 := by
  induction bs using ipv6_segments.induct with
  | case1 hi lo rest ih =>
    have hhi : hi.toNat < 256 := hi.toNat_lt
    have hlo : lo.toNat < 256 := lo.toNat_lt
    intro g hg
    rcases List.mem_cons.mp hg with rfl | hg
    · omega
    · exact ih g hg
  | case2 bs hbs =>
    intro g hg
    rw [ipv6_segments.eq_def] at hg
    split at hg
    · rename_i hi lo rest
      exact absurd rfl (hbs hi lo rest)
    · cases hg

theorem group_bytes_segments {n : Nat} {bs : Bytes} (hlength : bs.length = 2 * n) :
    group_bytes (ipv6_segments bs) = bs ∧ (ipv6_segments bs).length = n := by
  induction n generalizing bs with
  | zero =>
    obtain rfl := List.length_eq_zero_iff.mp hlength
    exact ⟨rfl, rfl⟩
  | succ n ih =>
    match bs, hlength with
    | hi :: lo :: rest, hlength =>
      have hrest : rest.length = 2 * n := by
        simp only [List.length_cons] at hlength
        omega
      obtain ⟨hbytes, hgroups⟩ := ih hrest
      have hlo : lo.toNat < 256 := lo.toNat_lt
      have hdiv : (256 * hi.toNat + lo.toNat) / 256 = hi.toNat := by omega
      have hmod : (256 * hi.toNat + lo.toNat) % 256 = lo.toNat := by omega
      constructor
      · show [UInt8.ofNat ((256 * hi.toNat + lo.toNat) / 256),
          UInt8.ofNat ((256 * hi.toNat + lo.toNat) % 256)] ++ group_bytes (ipv6_segments rest) = _
        rw [hdiv, hmod, hbytes, UInt8.ofNat_toNat, UInt8.ofNat_toNat]
        rfl
      · show (ipv6_segments rest).length + 1 = n + 1
        rw [hgroups]
    | [_], hlength => simp at hlength; omega
    | [], hlength => simp at hlength

theorem from_groups_segments (octets : ByteVec 16) :
    from_groups (ipv6_segments octets.val) = octets := by
  have hbytes := (group_bytes_segments (n := 8) octets.property).1
  apply Subtype.ext
  show (group_bytes (ipv6_segments octets.val) ++ List.replicate 16 0).take 16 = octets.val
  rw [hbytes]
  exact List.take_left' octets.property

theorem length_segments (octets : ByteVec 16) : (ipv6_segments octets.val).length = 8 :=
  (group_bytes_segments (n := 8) octets.property).2

/-- The groups in front of `::` and those behind it. -/
theorem read_ipv6_colons {head tail : List Nat} {ipv4 : Bool} {s t u : Str}
    (hhead : read_groups 0 8 s = ((head, false), ':' :: ':' :: t)) (hshort : head.length ≠ 8)
    (htail : read_groups 0 (8 - (head.length + 1)) t = ((tail, ipv4), u)) :
    read_ipv6_addr s =
      some (from_groups (head ++ List.replicate (8 - head.length - tail.length) 0 ++ tail), u) := by
  unfold read_ipv6_addr
  rw [hhead]
  dsimp only
  rw [if_neg hshort, if_neg Bool.false_ne_true]
  simp only [read_char, if_true, Option.bind_eq_bind, Option.bind_some, htail]
  rfl

/-- A run of zero groups is left out, and filled in again. -/
theorem read_ipv6_run {before behind : List Nat} {len : Nat} {s : Str}
    (hbefore : ∀ g ∈ before, g < 65536) (hbehind : ∀ g ∈ behind, g < 65536)
    (hlength : before.length + len + behind.length = 8) (hlen : 1 < len) (hs : GroupsEnd s) :
    read_ipv6_addr (fmt_subslice before ++ (':' :: ':' :: (fmt_subslice behind ++ s))) =
      some (from_groups (before ++ List.replicate len 0 ++ behind), s) := by
  have hhead := read_groups_text (k := 8) hbefore (by omega)
    (groupsEnd_colons (fmt_subslice behind ++ s))
  have htail := read_groups_text (k := 8 - (before.length + 1)) hbehind (by omega) hs
  have hzero : 8 - before.length - behind.length = len := by omega
  rw [read_ipv6_colons hhead (by omega) htail, hzero]

theorem read_ipv6_groups {gs : List Nat} {s : Str} (hgs : ∀ g ∈ gs, g < 65536)
    (hlength : gs.length = 8) (hs : GroupsEnd s) :
    read_ipv6_addr (fmt_subslice gs ++ s) = some (from_groups gs, s) := by
  unfold read_ipv6_addr
  rw [read_groups_text hgs (by omega) hs]
  simp only [hlength, if_pos]

/-- The last two groups in decimal. -/
theorem read_ipv6_mapped (ipv4 : ByteVec 4) {s : Str} (hs : NoDigit 10 s) :
    read_ipv6_addr ("::ffff:".toList ++ (ipv4_text ipv4.val ++ s)) =
      some (from_groups (List.replicate 5 0 ++ 65535 :: ipv6_segments ipv4.val), s) := by
  have hhead := read_groups_end (groupsEnd_colons ("ffff:".toList ++ (ipv4_text ipv4.val ++ s))) 0 8
  have hlast : read_groups 1 6 (':' :: (ipv4_text ipv4.val ++ s)) =
      ((ipv6_segments ipv4.val, true), s) := by
    unfold read_groups
    rw [if_pos (by decide), read_separator_succ, read_ipv4_text ipv4 hs]
  have htail := read_groups_step (g := 65535) (i := 0) (k := 6)
    (t := ':' :: (ipv4_text ipv4.val ++ s)) (by decide) (noGroup_cons (by decide) (by decide))
    (fun inner => read_separator_zero ':' inner _)
  rw [hlast] at htail
  have hgroups : (ipv6_segments ipv4.val).length = 2 :=
    (group_bytes_segments (n := 2) ipv4.property).2
  have hread := read_ipv6_colons hhead (by decide) htail
  rw [List.length_cons, hgroups] at hread
  exact hread

theorem segments_of_mapped {octets : ByteVec 16}
    (h : octets.val.take 12 = List.replicate 10 0 ++ [0xff, 0xff]) :
    ipv6_segments octets.val =
      List.replicate 5 0 ++ 65535 :: ipv6_segments (octets.val.drop 12) := by
  conv_lhs => rw [← List.take_append_drop 12 octets.val, h]
  rfl

/-- A printed IPv6 address is read back. -/
theorem read_ipv6_text (octets : ByteVec 16) (s : Str) :
    read_ipv6_addr (ipv6_text octets.val ++ (']' :: s)) = some (octets, ']' :: s) := by
  have hend := groupsEnd_bracket s
  have hlt := segments_lt octets.val
  have hlength := length_segments octets
  unfold ipv6_text
  split
  · rename_i hmapped
    -- an IPv4-mapped address is printed with its dotted part
    have hfour : (octets.val.drop 12).length = 4 := by rw [List.length_drop, octets.property]
    rw [List.append_assoc, read_ipv6_mapped ⟨_, hfour⟩ (noDigit_of_hex hend.noDigit),
      ← segments_of_mapped hmapped, from_groups_segments]
  · dsimp only
    by_cases hrun : (inner_zeroes (ipv6_segments octets.val)).len > 1
    · -- the longest run of zeros is left out, as `::`
      obtain ⟨before, behind, hgroups, hstart⟩ := inner_zeroes_zero (ipv6_segments octets.val)
      rw [if_pos hrun]
      generalize inner_zeroes (ipv6_segments octets.val) = run at *
      have htake : (ipv6_segments octets.val).take run.start = before := by
        rw [hgroups, ← hstart, List.take_left]
      have hdrop : (ipv6_segments octets.val).drop (run.start + run.len) = behind := by
        rw [hgroups, ← List.append_assoc]
        apply List.drop_left'
        rw [List.length_append, List.length_replicate, hstart]
      have hsum : before.length + run.len + behind.length = 8 := by
        rw [← hlength, hgroups, List.length_append, List.length_append, List.length_replicate]
        omega
      have hbefore : ∀ g ∈ before, g < 65536 := by
        intro g hg
        exact hlt g (hgroups ▸ List.mem_append_left _ hg)
      have hbehind : ∀ g ∈ behind, g < 65536 := by
        intro g hg
        exact hlt g (hgroups ▸ List.mem_append_right _ (List.mem_append_right _ hg))
      rw [htake, hdrop, List.append_assoc, List.append_assoc]
      show read_ipv6_addr (fmt_subslice before ++ (':' :: ':' :: (fmt_subslice behind ++ _))) = _
      rw [read_ipv6_run hbefore hbehind hsum hrun hend, List.append_assoc, ← hgroups,
        from_groups_segments]
    · rw [if_neg hrun, read_ipv6_groups hlt hlength hend, from_groups_segments]

/-- The text starts with a colon, or with a group and a colon. -/
def ColonFirst (s : Str) : Prop := ∃ xs t, s = xs ++ ':' :: t ∧ '.' ∉ xs ∧ '[' ∉ xs

theorem colonFirst_colon (s : Str) : ColonFirst (':' :: s) :=
  ⟨[], s, rfl, List.not_mem_nil, List.not_mem_nil⟩

theorem colonFirst_group (g : Nat) (s : Str) : ColonFirst (Nat.toDigits 16 g ++ ':' :: s) :=
  ⟨_, s, rfl, dot_notMem_group g, notMem_group (by decide) g⟩

theorem colonFirst_groups {gs : List Nat} (hgs : ∀ g ∈ gs, g < 65536) (s : Str) :
    ColonFirst (fmt_subslice gs ++ ':' :: s) := by
  match gs with
  | [] => exact colonFirst_colon s
  | [g] =>
    rw [fmt_subslice_cons hgs, List.append_assoc]
    exact colonFirst_group g s
  | g :: g' :: gs =>
    rw [fmt_subslice_cons hgs, List.append_assoc]
    exact colonFirst_group g _

theorem ipv6_text_colon (octets : ByteVec 16) : ColonFirst (ipv6_text octets.val) := by
  have hlt := segments_lt octets.val
  have hlength := length_segments octets
  unfold ipv6_text
  split
  · exact colonFirst_colon _
  · dsimp only
    split
    · rw [List.append_assoc]
      exact colonFirst_groups (fun g hg => hlt g (List.mem_of_mem_take hg)) _
    · match hgs : ipv6_segments octets.val with
      | g :: g' :: gs =>
        rw [fmt_subslice_cons (hgs ▸ hlt)]
        exact colonFirst_group g _
      | [_] => rw [hgs] at hlength; cases hlength
      | [] => rw [hgs] at hlength; cases hlength

/-! ### Socket addresses -/

theorem read_port_text (port : UInt16) :
    read_port (':' :: Nat.toDigits 10 port.toNat) = some (port, []) := by
  have hport : port.toNat < 65536 := port.toNat_lt
  have hread : read_number 10 none 65536 true (Nat.toDigits 10 port.toNat ++ []) =
      some (port.toNat, []) :=
    read_number_toDigits (by decide) (by decide) hport (by simp) (noDigit_nil 10)
  rw [List.append_nil] at hread
  simp only [read_port, read_char, if_true, Option.bind_eq_bind, Option.bind_some, hread,
    UInt16.ofNat_toNat]
  rfl

theorem from_str_v4 (octets : ByteVec 4) (port : UInt16) :
    SocketAddr.from_str (ipv4_text octets.val ++ ':' :: Nat.toDigits 10 port.toNat) =
      some ⟨.V4 octets, port⟩ := by
  have hip := read_ipv4_text octets
    (s := ':' :: Nat.toDigits 10 port.toNat) (noDigit_cons.mpr (by decide))
  have hread : read_socket_addr_v4 (ipv4_text octets.val ++ ':' :: Nat.toDigits 10 port.toNat) =
      some (⟨.V4 octets, port⟩, []) := by
    simp only [read_socket_addr_v4, hip, read_port_text, Option.bind_eq_bind, Option.bind_some]
    rfl
  unfold SocketAddr.from_str
  rw [hread]
  rfl

theorem read_socket_addr_v4_none {xs s : Str} (hxs : '.' ∉ xs) (hs : NoDigit 10 s)
    (hdot : s.head? ≠ some '.') : read_socket_addr_v4 (xs ++ s) = none := by
  simp only [read_socket_addr_v4, read_ipv4_none hxs hs hdot, Option.bind_eq_bind,
    Option.bind_none]

theorem from_str_v6 (octets : ByteVec 16) (port : UInt16) :
    SocketAddr.from_str
        ('[' :: (ipv6_text octets.val ++ (']' :: ':' :: Nat.toDigits 10 port.toNat))) =
      some ⟨.V6 octets, port⟩ := by
  have hv4 : ∀ s, read_socket_addr_v4 ('[' :: s) = none := by
    intro s
    exact read_socket_addr_v4_none List.not_mem_nil (noDigit_cons.mpr (by decide)) (by simp)
  have hip := read_ipv6_text octets (':' :: Nat.toDigits 10 port.toNat)
  have hscope : ∀ s, read_scope_id (']' :: s) = none := by
    intro s
    rfl
  unfold SocketAddr.from_str
  rw [hv4, Option.none_or]
  simp only [read_socket_addr_v6, read_char, if_true, hip, hscope, Option.bind_eq_bind,
    Option.bind_some, Option.map_none, Option.getD_none, read_port_text]
  rfl

theorem read_socket_addr_v6_none {s : Str} (h : s.head? ≠ some '[') :
    read_socket_addr_v6 s = none := by
  simp only [read_socket_addr_v6, read_char_none h, Option.bind_eq_bind, Option.bind_none]

/-- A bare IPv4 address has no port. -/
theorem from_str_bare_v4 (octets : ByteVec 4) :
    SocketAddr.from_str (ipv4_text octets.val) = none := by
  have hip := read_ipv4_text octets (noDigit_nil 10)
  rw [List.append_nil] at hip
  have hv4 : read_socket_addr_v4 (ipv4_text octets.val) = none := by
    simp only [read_socket_addr_v4, hip, read_port, read_char, Option.bind_eq_bind,
      Option.bind_some, Option.bind_none]
  have hv6 := read_socket_addr_v6_none (s := ipv4_text octets.val) (by
    intro hhead
    exact notMem_ipv4 (by decide) (by decide) _ (List.mem_of_mem_head? hhead))
  unfold SocketAddr.from_str
  rw [hv4, hv6]
  rfl

/-- A bare IPv6 address is no socket address. -/
theorem from_str_bare_v6 (octets : ByteVec 16) :
    SocketAddr.from_str (ipv6_text octets.val) = none := by
  obtain ⟨xs, s, htext, hdot, hbracket⟩ := ipv6_text_colon octets
  have hv4 := read_socket_addr_v4_none (s := ':' :: s) hdot (noDigit_cons.mpr (by decide)) (by simp)
  have hv6 := read_socket_addr_v6_none (s := xs ++ ':' :: s) (by
    intro hhead
    cases xs with
    | nil => exact absurd (Option.some.inj hhead) (by decide)
    | cons x xs => exact hbracket (by rw [← Option.some.inj hhead]; exact List.mem_cons_self))
  unfold SocketAddr.from_str
  rw [htext, hv4, hv6]
  rfl

end SignedPulse
