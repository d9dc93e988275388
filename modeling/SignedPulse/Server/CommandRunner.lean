import SignedPulse.Framework.Replace
import SignedPulse.Client.Param
import SignedPulse.Server.AddrText

/-! # The argv of a hook

    Each element of the configured argv has its placeholders replaced one after
    the other, so a value that is put in early is searched again for the
    placeholders that come later. Only the parameter, which the client chooses,
    can be mistaken for one of them or complete one.

    `substitute_one_scan_iff` says for which elements and parameters the result
    is the one scan in which every value is put in literally.
-/

namespace SignedPulse

open Replace (replace fill occurrences Table Bracketed Inert)

/-! ### Substitution -/

/-- The values as they are substituted in order. -/
def substitute_placeholders (arg : Str) (ip : IpAddr) (client_id : Str) (source_port : UInt16)
    (param new reason ip_clients : Str) : Str :=
  replace "{ip_clients}".toList ip_clients
    (replace "{reason}".toList reason
      (replace "{new}".toList new
        (replace "{param}".toList param
          (replace "{source_port}".toList (decimal source_port.toNat)
            (replace "{client_id}".toList client_id
              (replace "{ip}".toList ip.to_string arg))))))

def build_argv (template : List Str) (ip : IpAddr) (client_id : Str) (source_port : UInt16)
    (param new reason ip_clients : Str) : List Str :=
  template.map (fun a =>
    substitute_placeholders a ip client_id source_port param new reason ip_clients)

/-- The text of the `{new}` placeholder. -/
def new_flag (is_new : Bool) : Str := if is_new then ['1'] else ['0']

/-- The argv of one execution. -/
def HookCall.argv (call : HookCall) (argv_template : List Str) : List Str :=
  build_argv argv_template call.source_ip call.client_id call.source_port (call.param.getD [])
    (new_flag call.is_new) call.reason.text.toList (decimal call.ip_clients)

/-! ### The values are put in literally -/

/-- The placeholders that come after the parameter. -/
def later (new reason ip_clients : Str) : Table Char :=
  [("{new}".toList, new), ("{reason}".toList, reason), ("{ip_clients}".toList, ip_clients)]

/-- Every placeholder with its value. -/
def placeholders (ip : IpAddr) (client_id : Str) (source_port : UInt16)
    (param new reason ip_clients : Str) : Table Char :=
  ("{ip}".toList, ip.to_string) :: ("{client_id}".toList, client_id) ::
    ("{source_port}".toList, decimal source_port.toNat) :: ("{param}".toList, param) ::
      later new reason ip_clients

/-- A text without the brackets of a placeholder. -/
def Plain (s : Str) : Prop := '{' ∉ s ∧ '}' ∉ s

theorem Plain.append {s t : Str} (hs : Plain s) (ht : Plain t) : Plain (s ++ t) := by
  simp only [Plain, List.mem_append, not_or]
  exact ⟨⟨hs.1, ht.1⟩, hs.2, ht.2⟩

theorem Plain.intercalate {sep : Str} {xs : List Str} (hsep : Plain sep) (h : ∀ x ∈ xs, Plain x) :
    Plain (List.intercalate sep xs) := by
  induction xs with
  | nil => exact ⟨List.not_mem_nil, List.not_mem_nil⟩
  | cons x xs ih =>
    have hx := h x List.mem_cons_self
    have hxs := ih fun y hy => h y (List.mem_cons_of_mem _ hy)
    cases xs with
    | nil => rwa [List.intercalate_singleton]
    | cons y ys =>
      rw [List.intercalate_cons_cons]
      exact (hx.append hsep).append hxs

theorem plain_decimal (n : Nat) : Plain (decimal n) :=
  ⟨not_mem_toDigits_of_not_digit (by decide) n, not_mem_toDigits_of_not_digit (by decide) n⟩

theorem plain_hex (bs : Bytes) : Plain (hex bs) :=
  ⟨not_mem_hex (by decide) bs, not_mem_hex (by decide) bs⟩

theorem plain_lower_hex (segment : Nat) : Plain (lower_hex segment) := by
  unfold lower_hex
  split
  · exact ⟨by decide, by decide⟩
  · have hplain := plain_hex [UInt8.ofNat (segment / 256), UInt8.ofNat segment]
    have hsub := List.dropWhile_sublist (fun d => d = '0')
      (l := hex [UInt8.ofNat (segment / 256), UInt8.ofNat segment])
    exact ⟨fun h => hplain.1 (hsub.subset h), fun h => hplain.2 (hsub.subset h)⟩

theorem plain_fmt_subslice (chunk : List Nat) : Plain (fmt_subslice chunk) := by
  refine Plain.intercalate ⟨by decide, by decide⟩ fun x hx => ?_
  obtain ⟨segment, -, rfl⟩ := List.mem_map.mp hx
  exact plain_lower_hex segment

theorem plain_ipv4_text (octets : Bytes) : Plain (ipv4_text octets) := by
  refine Plain.intercalate ⟨by decide, by decide⟩ fun x hx => ?_
  obtain ⟨b, -, rfl⟩ := List.mem_map.mp hx
  exact plain_decimal b.toNat

theorem IpAddr.plain_to_string (ip : IpAddr) : Plain ip.to_string := by
  cases ip with
  | V4 octets => exact plain_ipv4_text octets.val
  | V6 octets =>
    show Plain (ipv6_text octets.val)
    unfold ipv6_text
    split
    · exact Plain.append ⟨by decide, by decide⟩ (plain_ipv4_text _)
    · dsimp only
      split
      · exact ((plain_fmt_subslice _).append ⟨by decide, by decide⟩).append (plain_fmt_subslice _)
      · exact plain_fmt_subslice _

/-- The separator stands between two or more. -/
theorem sep_mem_intercalate {sep : Char} {x y : Str} {xs : List Str} :
    sep ∈ List.intercalate [sep] (x :: y :: xs) := by
  rw [List.intercalate_cons_cons]
  simp

/-- Every address has a dot or a colon, which no placeholder has. -/
theorem IpAddr.separator_mem (ip : IpAddr) : '.' ∈ ip.to_string ∨ ':' ∈ ip.to_string := by
  cases ip with
  | V4 octets =>
    left
    obtain ⟨bs, hbs⟩ := octets
    match bs, hbs with
    | [a, b, c, d], _ => exact sep_mem_intercalate
  | V6 octets =>
    right
    obtain ⟨bs, hbs⟩ := octets
    show ':' ∈ ipv6_text bs
    unfold ipv6_text
    split
    · exact List.mem_append_left _ (by decide)
    · dsimp only
      split
      · exact List.mem_append_left _ (List.mem_append_right _ (by decide))
      · match bs, hbs with
        | a :: b :: c :: d :: rest, _ => exact sep_mem_intercalate

/-! ### Patterns and values -/

/-- What is searched for. -/
def patterns : List Str :=
  ["{ip}".toList, "{client_id}".toList, "{source_port}".toList, "{param}".toList, "{new}".toList,
    "{reason}".toList, "{ip_clients}".toList]

theorem patterns_bracketed : ∀ p ∈ patterns, Bracketed '{' '}' p := by
  have h : ∀ p ∈ patterns, p = '{' :: ((p.drop 1).dropLast ++ ['}']) ∧
      '{' ∉ (p.drop 1).dropLast ++ ['}'] ∧ '}' ∉ (p.drop 1).dropLast := by decide
  intro p hp
  exact ⟨_, h p hp⟩

section values
variable {σ : Table Char} (hσ : ∀ e ∈ σ, e.1 ∈ patterns)
include hσ

theorem table_bracketed : ∀ e ∈ σ, Bracketed '{' '}' e.1 :=
  fun e he => patterns_bracketed e.1 (hσ e he)

/-- A value with a character that no pattern has is no part of one. -/
theorem inert_of_mem {v : Str} (hv : Plain v) {a : Char} (ha : a ∈ v)
    (hstrange : ∀ p ∈ patterns, a ∉ p) : Inert '{' '}' σ v where
  no_open := hv.1
  no_close := hv.2
  no_part e he hpart := hstrange e.1 (hσ e he) (hpart.subset ha)

theorem inert_ip (ip : IpAddr) : Inert '{' '}' σ ip.to_string := by
  rcases ip.separator_mem with h | h
  · exact inert_of_mem hσ ip.plain_to_string h (by decide)
  · exact inert_of_mem hσ ip.plain_to_string h (by decide)

/-- A client id is longer than any pattern. -/
theorem inert_client_id (id : ClientId) : Inert '{' '}' σ id.to_hex where
  no_open := (plain_hex _).1
  no_close := (plain_hex _).2
  no_part e he hpart := by
    have hshort : ∀ p ∈ patterns, p.length ≤ 13 := by decide
    have hlong : id.to_hex.length = 64 := by
      rw [ClientId.to_hex, length_hex, id.bytes.property]
      rfl
    have := hpart.length_le
    have := hshort e.1 (hσ e he)
    omega

theorem inert_digit {v : Str} (hv : Plain v) {d : Char} (hd : d ∈ v) (hdigit : d.isDigit = true) :
    Inert '{' '}' σ v := by
  refine inert_of_mem hσ hv hd fun p hp hmem => ?_
  have hletters : patterns.all (fun p => p.all (fun a => !a.isDigit)) = true := by decide
  simp only [List.all_eq_true, Bool.not_eq_true'] at hletters
  rw [hletters p hp d hmem] at hdigit
  cases hdigit

theorem inert_decimal (n : Nat) : Inert '{' '}' σ (decimal n) := by
  obtain ⟨d, rest, hcons⟩ := List.exists_cons_of_ne_nil (Nat.toDigits_ne_nil (n := n) (b := 10))
  have hd : d ∈ decimal n := by
    show d ∈ Nat.toDigits 10 n
    simp [hcons]
  exact inert_digit hσ (plain_decimal n) hd (Nat.isDigit_of_mem_toDigits (by decide) (by decide) hd)

theorem inert_new_flag (is_new : Bool) : Inert '{' '}' σ (new_flag is_new) := by
  cases is_new with
  | false => exact inert_digit hσ ⟨by decide, by decide⟩ List.mem_cons_self (by decide)
  | true => exact inert_digit hσ ⟨by decide, by decide⟩ List.mem_cons_self (by decide)

end values

/-- The reason is no part of the one placeholder that comes after it. -/
theorem inert_reason (reason : Reason) (ip_clients : Str) :
    Inert '{' '}' [("{ip_clients}".toList, ip_clients)] reason.text.toList := by
  have hpart : ∀ reason : Reason, ¬ reason.text.toList <:+: "{ip_clients}".toList := by
    intro reason
    cases reason <;> decide
  refine ⟨?_, ?_, List.forall_mem_singleton.mpr (hpart reason)⟩
  · cases reason <;> decide
  · cases reason <;> decide

/-! ### One scan -/

/-- The placeholders after the parameter are filled in one scan. -/
theorem later_one_scan (arg : Str) (is_new : Bool) (reason : Reason) (ip_clients : Nat) :
    replace "{ip_clients}".toList (decimal ip_clients)
        (replace "{reason}".toList reason.text.toList
          (replace "{new}".toList (new_flag is_new) arg)) =
      fill (later (new_flag is_new) reason.text.toList (decimal ip_clients)) arg := by
  have hlast : ∀ e ∈ [("{ip_clients}".toList, decimal ip_clients)], e.1 ∈ patterns := by
    simp [patterns]
  have htwo : ∀ e ∈ [("{reason}".toList, reason.text.toList),
      ("{ip_clients}".toList, decimal ip_clients)], e.1 ∈ patterns := by simp [patterns]
  have hreason := Replace.fill_replace (table_bracketed hlast)
    (patterns_bracketed "{reason}".toList (by decide)) (by simp) (inert_reason reason _)
    (replace "{new}".toList (new_flag is_new) arg)
  have hnew := Replace.fill_replace (table_bracketed htwo)
    (patterns_bracketed "{new}".toList (by decide)) (by simp) (inert_new_flag htwo is_new) arg
  exact hreason.trans hnew

section earlier
variable {σ : Table Char} (hσ : ∀ e ∈ σ, e.1 ∈ patterns.drop 3) (ip : IpAddr) (id : ClientId)
  (source_port : UInt16)

/-- The placeholders before the parameter. -/
def earlier : Table Char :=
  [("{ip}".toList, ip.to_string), ("{client_id}".toList, id.to_hex),
    ("{source_port}".toList, decimal source_port.toNat)]

/-- The text once they have been replaced. -/
def replace_earlier (arg : Str) : Str :=
  replace "{source_port}".toList (decimal source_port.toNat)
    (replace "{client_id}".toList id.to_hex (replace "{ip}".toList ip.to_string arg))

include hσ

theorem earlier_patterns {τ : Table Char} (hτ : ∀ e ∈ τ, e.1 ∈ patterns.take 3) :
    ∀ e ∈ τ ++ σ, e.1 ∈ patterns := by
  intro e he
  rcases List.mem_append.mp he with he | he
  · exact List.mem_of_mem_take (hτ e he)
  · exact List.mem_of_mem_drop (hσ e he)

/-- Each of the three comes up once. -/
theorem earlier_new {p : Str} (hp : p ∈ patterns.take 3) {τ : Table Char}
    (hτ : ∀ e ∈ τ, e.1 ≠ p) : ∀ e ∈ τ ++ σ, e.1 ≠ p := by
  have hnodup : ∀ p ∈ patterns.take 3, ∀ q ∈ patterns.drop 3, q ≠ p := by decide
  intro e he
  rcases List.mem_append.mp he with he | he
  · exact hτ e he
  · exact hnodup p hp e.1 (hσ e he)

/-- Replacing them, and then filling others, is one scan. -/
theorem fill_earlier (arg : Str) :
    fill σ (replace_earlier ip id source_port arg) = fill (earlier ip id source_port ++ σ) arg := by
  have hport_table : ∀ e ∈ [("{source_port}".toList, decimal source_port.toNat)] ++ σ,
      e.1 ∈ patterns := earlier_patterns hσ (by simp [patterns])
  have hid_table : ∀ e ∈ [("{client_id}".toList, id.to_hex),
      ("{source_port}".toList, decimal source_port.toNat)] ++ σ, e.1 ∈ patterns :=
    earlier_patterns hσ (by simp [patterns])
  have hσ' : ∀ e ∈ σ, e.1 ∈ patterns := fun e he => List.mem_of_mem_drop (hσ e he)
  have hport := Replace.fill_replace (table_bracketed hσ')
    (patterns_bracketed "{source_port}".toList (by decide))
    (earlier_new hσ (by decide) (τ := []) (by simp)) (inert_decimal hσ' source_port.toNat)
    (replace "{client_id}".toList id.to_hex (replace "{ip}".toList ip.to_string arg))
  have hid := Replace.fill_replace (table_bracketed hport_table)
    (patterns_bracketed "{client_id}".toList (by decide))
    (earlier_new hσ (by decide) (by simp)) (inert_client_id hport_table id)
    (replace "{ip}".toList ip.to_string arg)
  have hip := Replace.fill_replace (table_bracketed hid_table)
    (patterns_bracketed "{ip}".toList (by decide))
    (earlier_new hσ (by decide) (by simp)) (inert_ip hid_table ip) arg
  exact hport.trans (hid.trans hip)

/-- Filling them along with others adds no occurrence of any pattern. -/
theorem occurrences_earlier {τ : Table Char} (hτ : ∀ e ∈ τ, e.1 ∈ patterns.drop 3) (arg : Str) :
    occurrences τ (fill (earlier ip id source_port ++ σ) arg) = occurrences τ (fill σ arg) := by
  have hport_table : ∀ e ∈ [("{source_port}".toList, decimal source_port.toNat)] ++ σ,
      e.1 ∈ patterns := earlier_patterns hσ (by simp [patterns])
  have hid_table : ∀ e ∈ [("{client_id}".toList, id.to_hex),
      ("{source_port}".toList, decimal source_port.toNat)] ++ σ, e.1 ∈ patterns :=
    earlier_patterns hσ (by simp [patterns])
  have hσ' : ∀ e ∈ σ, e.1 ∈ patterns := fun e he => List.mem_of_mem_drop (hσ e he)
  have hτ' : ∀ e ∈ τ, e.1 ∈ patterns := fun e he => List.mem_of_mem_drop (hτ e he)
  have hip := Replace.occurrences_fill (table_bracketed hid_table) (table_bracketed hτ')
    (patterns_bracketed "{ip}".toList (by decide)) (earlier_new hσ (by decide) (by simp))
    (earlier_new hτ (by decide) (τ := []) (by simp)) (inert_ip hτ' ip) arg
  have hid := Replace.occurrences_fill (table_bracketed hport_table) (table_bracketed hτ')
    (patterns_bracketed "{client_id}".toList (by decide)) (earlier_new hσ (by decide) (by simp))
    (earlier_new hτ (by decide) (τ := []) (by simp)) (inert_client_id hτ' id) arg
  have hport := Replace.occurrences_fill (table_bracketed hσ') (table_bracketed hτ')
    (patterns_bracketed "{source_port}".toList (by decide))
    (earlier_new hσ (by decide) (τ := []) (by simp))
    (earlier_new hτ (by decide) (τ := []) (by simp)) (inert_decimal hτ' source_port.toNat) arg
  exact hip.trans (hid.trans hport)

end earlier

/-- The result is the scan that puts every value in literally iff putting the parameter in the
    element adds no `{new}`, `{reason}` or `{ip_clients}`. -/
theorem substitute_one_scan_iff (arg : Str) (ip : IpAddr) (id : ClientId) (source_port : UInt16)
    (param : Str) (is_new : Bool) (reason : Reason) (ip_clients : Nat) :
    substitute_placeholders arg ip id.to_hex source_port param (new_flag is_new)
        reason.text.toList (decimal ip_clients) =
      fill (placeholders ip id.to_hex source_port param (new_flag is_new) reason.text.toList
        (decimal ip_clients)) arg ↔
    occurrences (later (new_flag is_new) reason.text.toList (decimal ip_clients))
        (replace "{param}".toList param arg) =
      occurrences (later (new_flag is_new) reason.text.toList (decimal ip_clients)) arg := by
  have hlater : ∀ e ∈ later (new_flag is_new) reason.text.toList (decimal ip_clients),
      e.1 ∈ patterns.drop 3 := by simp [later, patterns]
  have hparam : ∀ e ∈ [("{param}".toList, param)], e.1 ∈ patterns.drop 3 := by simp [patterns]
  have hall : ∀ e ∈ ("{param}".toList, param) ::
      later (new_flag is_new) reason.text.toList (decimal ip_clients),
      e.1 ∈ patterns.drop 3 :=
    List.forall_mem_cons.mpr ⟨by simp [patterns], hlater⟩
  have hbracketed := table_bracketed fun e he => List.mem_of_mem_drop (hlater e he)
  -- what is put in before the parameter makes no difference to either side
  have hscan := fill_earlier hall ip id source_port arg
  have hfilled : occurrences (later (new_flag is_new) reason.text.toList (decimal ip_clients))
        (replace "{param}".toList param (replace_earlier ip id source_port arg)) =
      occurrences (later (new_flag is_new) reason.text.toList (decimal ip_clients))
        (replace "{param}".toList param arg) := by
    rw [replace, fill_earlier hparam, occurrences_earlier hparam ip id source_port hlater]
    rfl
  have hplain : occurrences (later (new_flag is_new) reason.text.toList (decimal ip_clients))
        (replace_earlier ip id source_port arg) =
      occurrences (later (new_flag is_new) reason.text.toList (decimal ip_clients)) arg := by
    have hnone : ∀ e ∈ ([] : Table Char), e.1 ∈ patterns.drop 3 := by simp
    rw [← Replace.fill_empty (replace_earlier ip id source_port arg), fill_earlier hnone,
      occurrences_earlier hnone ip id source_port hlater, Replace.fill_empty]
  have hvalues : ∀ e ∈ later (new_flag is_new) reason.text.toList (decimal ip_clients),
      '{' ∉ e.2 := by
    have hnew : '{' ∉ new_flag is_new := by cases is_new <;> decide
    have hreason : '{' ∉ reason.text.toList := by cases reason <;> decide
    simp [later, hnew, hreason, (plain_decimal ip_clients).1]
  have hiff := Replace.fill_replace_iff hbracketed
    (patterns_bracketed "{param}".toList (by decide)) (by simp [later]) hvalues param
    (replace_earlier ip id source_port arg)
  rw [hscan, hfilled, hplain] at hiff
  rw [← hiff, ← later_one_scan]
  rfl

/-- A parameter that the server admits, and the hook gets as something else. -/
theorem param_expanded :
    ∃ (arg param : Str) (srv : Server) (blob : Bytes), srv.open_param blob = some param ∧
      ∀ (ip : IpAddr) (id : ClientId),
        substitute_placeholders arg ip id.to_hex 7370 param (new_flag true)
            Reason.grant.text.toList (decimal 0) ≠
          fill (placeholders ip id.to_hex 7370 param (new_flag true) Reason.grant.text.toList
            (decimal 0)) arg := by
  refine ⟨"{param}".toList, "{new}".toList, Server.sealed,
    (Server.sealed_blob "{new}".toList).toOption.getD [], by decide +kernel, ?_⟩
  intro ip id h
  cases h

end SignedPulse
