import SignedPulse.Framework.Quoting
import SignedPulse.Server.Handlers

/-! # The systemd unit

    `render_systemd_unit` writes the unit file of a service, and systemd reads
    it: lines of settings, and words in the value of `ExecStart`.

    Control characters are dropped, so no text of the specification ends its
    line, and in `ExecStart` backslashes and quotes are escaped. In the
    description they are not: `outline_iff` says for which descriptions systemd
    reads the same settings as for any other.
-/

namespace SignedPulse

open Quoting

/-- What is rendered of a service. -/
structure ServiceSpec where
  description : Str
  exec_path : Str
  args : List Str
  launchd_label : Str

/-! ### Rendering -/

/-- Drop control characters. -/
def strip_control (s : Str) : Str := s.filter fun c => !is_control c

def systemd_quote (s : Str) : Str :=
  let cleaned := strip_control s
  '"' :: (replace_char '"' "\\\"".toList (replace_char '\\' "\\\\".toList cleaned) ++ ['"'])

def exec_line (exec_path : Str) (args : List Str) : Str :=
  systemd_quote exec_path ++ args.flatMap fun a => ' ' :: systemd_quote a

/-- The lines of the unit, in order. -/
def unit_lines (spec : ServiceSpec) (user : Bool) : List Str :=
  let wanted_by := if user then "default.target" else "multi-user.target"
  let description := strip_control spec.description
  ["[Unit]".toList,
    "Description=".toList ++ description,
    "After=network-online.target".toList,
    "Wants=network-online.target".toList,
    [],
    "[Service]".toList,
    "Type=simple".toList,
    "ExecStart=".toList ++ exec_line spec.exec_path spec.args,
    "Restart=on-failure".toList,
    "RestartSec=5".toList,
    "NoNewPrivileges=true".toList,
    [],
    "[Install]".toList,
    "WantedBy=".toList ++ wanted_by.toList]

def render_systemd_unit (spec : ServiceSpec) (user : Bool) : Str := unlines (unit_lines spec user)

/-! ### Reading -/

/-- The settings and section headers of a unit, each with its value. `continued` says which lines
    go on in the next one. -/
def directives (continued : Str → Bool) (unit : Str) : List (Str × Str) :=
  (join_continued continued (lines unit)).map fun line => (key line, value line)

/-- The words of the command that a unit starts. -/
def exec_words (continued : Str → Bool) (unit : Str) : Option (List Str) :=
  match (directives continued unit).find? (fun d => d.1 = "ExecStart".toList) with
  | none => none
  | some d => words false none d.2

/-- The service of the repository's own tests. -/
def plain_spec : ServiceSpec where
  description := "SignedPulse server".toList
  exec_path := "/usr/local/bin/signedpulse-server".toList
  args := ["--config".toList, "/etc/signedpulse/server.toml".toList]
  launchd_label := "com.signedpulse.server".toList

/-- Only a line that ends in a backslash is continued. -/
def ByBackslash (continued : Str → Bool) : Prop :=
  ∀ line, continued line = true → line.getLast? = some '\\'

/-! ### Lines -/

theorem newline_notMem_strip (s : Str) : '\n' ∉ strip_control s := by
  intro h
  have hplain := (List.mem_filter.mp h).2
  revert hplain
  decide

theorem systemd_quote_eq (s : Str) : systemd_quote s = quote (strip_control s) := by
  show '"' :: (replace_char '"' ['\\', '"'] (replace_char '\\' ['\\', '\\'] _) ++ ['"']) = _
  rw [escaped_in_turn]
  rfl

theorem exec_line_eq (exec_path : Str) (args : List Str) :
    exec_line exec_path args = quoted_words (strip_control exec_path) (args.map strip_control) := by
  unfold exec_line quoted_words
  rw [systemd_quote_eq, List.flatMap_map]
  simp only [systemd_quote_eq]

theorem newline_notMem_exec (exec_path : Str) (args : List Str) :
    '\n' ∉ exec_line exec_path args := by
  rw [exec_line_eq]
  apply notMem_quoted_words (by decide) (by decide) (by decide)
  intro t ht
  rcases List.mem_cons.mp ht with rfl | ht
  · exact newline_notMem_strip exec_path
  · obtain ⟨a, -, rfl⟩ := List.mem_map.mp ht
    exact newline_notMem_strip a

theorem newline_notMem_unit (spec : ServiceSpec) (user : Bool) :
    ∀ l ∈ unit_lines spec user, '\n' ∉ l := by
  have hdescription : '\n' ∉ "Description=".toList ++ strip_control spec.description := by
    rw [List.mem_append, not_or]
    exact ⟨by decide, newline_notMem_strip _⟩
  have hexec : '\n' ∉ "ExecStart=".toList ++ exec_line spec.exec_path spec.args := by
    rw [List.mem_append, not_or]
    exact ⟨by decide, newline_notMem_exec _ _⟩
  have hwanted_by : '\n' ∉ "WantedBy=".toList ++
      (if user then "default.target" else "multi-user.target").toList := by
    cases user <;> decide
  simp only [unit_lines, List.forall_mem_cons]
  exact ⟨by decide, hdescription, by decide, by decide, by decide, by decide, by decide, hexec,
    by decide, by decide, by decide, by decide, by decide, hwanted_by, by simp⟩

/-- No text of the specification ends its line. -/
theorem lines_unit (spec : ServiceSpec) (user : Bool) :
    lines (render_systemd_unit spec user) = unit_lines spec user :=
  lines_unlines (newline_notMem_unit spec user)

theorem unit_keys (spec : ServiceSpec) (user : Bool) :
    (unit_lines spec user).map key = (unit_lines plain_spec user).map key := rfl

/-! ### Settings -/

section continued
variable {continued : Str → Bool} {spec : ServiceSpec} {user : Bool}

/-- The one line of a unit that ends as a text of the specification does. -/
def description_line (spec : ServiceSpec) : Str :=
  "Description=".toList ++ strip_control spec.description

theorem ByBackslash.not_continued (h : ByBackslash continued) {line : Str}
    (hlast : line.getLast? ≠ some '\\') : continued line = false := by
  by_contra hcontinued
  exact hlast (h line (by simpa using hcontinued))

theorem getLast_exec (spec : ServiceSpec) :
    ("ExecStart=".toList ++ exec_line spec.exec_path spec.args).getLast? ≠ some '\\' := by
  rw [exec_line_eq]
  have hlast := getLast_quoted_words (strip_control spec.exec_path) (spec.args.map strip_control)
  have hne : quoted_words (strip_control spec.exec_path) (spec.args.map strip_control) ≠ [] := by
    intro hnil
    rw [hnil] at hlast
    cases hlast
  rw [List.getLast?_append_of_ne_nil _ hne, hlast]
  decide

/-- No line but the description can be continued. -/
theorem ByBackslash.after_description (h : ByBackslash continued) (spec : ServiceSpec)
    (user : Bool) : ∀ l ∈ (unit_lines spec user).drop 2, continued l = false := by
  have hwanted_by : ("WantedBy=".toList ++
      (if user then "default.target" else "multi-user.target").toList).getLast? ≠ some '\\' := by
    cases user <;> decide
  intro l hl
  apply h.not_continued
  revert l
  simp only [unit_lines, List.drop_succ_cons, List.drop_zero, List.forall_mem_cons]
  exact ⟨by decide, by decide, by decide, by decide, by decide, getLast_exec spec, by decide,
    by decide, by decide, by decide, by decide, hwanted_by, by simp⟩

theorem unit_lines_eq (spec : ServiceSpec) (user : Bool) :
    unit_lines spec user =
      "[Unit]".toList :: description_line spec :: (unit_lines spec user).drop 2 := rfl

theorem ByBackslash.header (h : ByBackslash continued) : continued "[Unit]".toList = false :=
  h.not_continued (by decide)

/-- Without a continued description, the lines are read one by one. -/
theorem directives_plain (h : ByBackslash continued)
    (hdescription : continued (description_line spec) = false) :
    directives continued (render_systemd_unit spec user) =
      (unit_lines spec user).map fun line => (key line, value line) := by
  unfold directives
  rw [lines_unit, join_continued_of_none]
  intro l hl
  rw [unit_lines_eq] at hl
  rcases List.mem_cons.mp hl with rfl | hl
  · exact h.header
  rcases List.mem_cons.mp hl with rfl | hl
  · exact hdescription
  · exact h.after_description spec user l hl

/-- A continued description ends in a backslash. -/
theorem ByBackslash.description (h : ByBackslash continued)
    (hdescription : continued (description_line spec) = true) :
    ∃ text, strip_control spec.description = text ++ ['\\'] := by
  have hlast := h _ hdescription
  unfold description_line at hlast
  by_cases hempty : strip_control spec.description = []
  · rw [hempty] at hlast
    exact absurd hlast (by decide)
  · rw [List.getLast?_append_of_ne_nil _ hempty] at hlast
    exact List.getLast?_eq_some_iff.mp hlast

/-- A continued description takes the next line, and the setting there is lost. -/
theorem directives_continued (user : Bool) (h : ByBackslash continued)
    (hdescription : continued (description_line spec) = true) :
    ∃ text, directives continued (render_systemd_unit spec user) =
      ("[Unit]".toList ::
        ("Description=".toList ++ (text ++ ' ' :: "After=network-online.target".toList)) ::
          (unit_lines spec user).drop 3).map fun line => (key line, value line) := by
  obtain ⟨text, htext⟩ := h.description hdescription
  have hdrop : (description_line spec).dropLast = "Description=".toList ++ text := by
    unfold description_line
    rw [htext, ← List.append_assoc, List.dropLast_concat]
  have hafter : (unit_lines spec user).drop 2 =
      "After=network-online.target".toList :: (unit_lines spec user).drop 3 := rfl
  have hnone := h.after_description spec user
  rw [hafter] at hnone
  have hheader : ∀ l ∈ ["[Unit]".toList], continued l = false := by
    intro l hl
    rw [List.mem_singleton.mp hl]
    exact h.header
  have hjoined := join_continued_of_one hheader hdescription hnone
  rw [hdrop, List.append_assoc] at hjoined
  refine ⟨text, ?_⟩
  unfold directives
  rw [lines_unit, unit_lines_eq, hafter]
  exact congrArg (List.map fun line => (key line, value line)) hjoined

/-- The settings and headers of a unit, without their values. -/
def outline (continued : Str → Bool) (unit : Str) : List Str :=
  (directives continued unit).map Prod.fst

/-- The settings are those of any other unit iff the description is not continued. -/
theorem outline_iff (h : ByBackslash continued) :
    outline continued (render_systemd_unit spec user) =
        outline continued (render_systemd_unit plain_spec user) ↔
      continued (description_line spec) = false := by
  have hplain : continued (description_line plain_spec) = false := h.not_continued (by decide)
  unfold outline
  rw [directives_plain h hplain]
  constructor
  · intro houtline
    by_contra hcontinued
    obtain ⟨text, hdirectives⟩ := directives_continued user h (by simpa using hcontinued)
    rw [hdirectives] at houtline
    -- one setting is missing
    have hlength := congrArg List.length houtline
    rw [List.length_map, List.length_map, List.length_map, List.length_map] at hlength
    have hfewer : 13 = 14 := hlength
    exact absurd hfewer (by decide)
  · intro hdescription
    rw [directives_plain h hdescription]
    rfl

/-- The command is taken apart into its path and its arguments. -/
theorem exec_words_unit (h : ByBackslash continued) :
    exec_words continued (render_systemd_unit spec user) =
      some (strip_control spec.exec_path :: spec.args.map strip_control) := by
  have hwords : words false none (value ("ExecStart=".toList ++
      exec_line spec.exec_path spec.args)) =
        some (strip_control spec.exec_path :: spec.args.map strip_control) := by
    rw [exec_line_eq]
    exact words_quoted_words _ _
  unfold exec_words
  by_cases hdescription : continued (description_line spec) = true
  · obtain ⟨text, hdirectives⟩ := directives_continued user h hdescription
    rw [hdirectives]
    exact hwords
  · rw [directives_plain h (by simpa using hdescription)]
    exact hwords

end continued

end SignedPulse
