import SignedPulse.Framework.Markup
import SignedPulse.Service.Systemd

/-! # The launchd agent

    `render_launchd_plist` writes the property list of a service: its label,
    the command with its arguments, and where its logs go. All texts are
    escaped, so the list has the same tags whatever they are, and the command
    reads back as it is.

    `rendered_as_data_iff` puts this together with what systemd reads.
-/

namespace SignedPulse

open Quoting Markup

/-! ### Rendering -/

def xml_escape (s : Str) : Str :=
  replace_char '>' "&gt;".toList (replace_char '<' "&lt;".toList
    (replace_char '&' "&amp;".toList s))

/-- `Path::join`: an absolute path replaces what it is joined to. -/
def path_join (dir path : Str) : Str :=
  if path.head? = some '/' then path
  else if dir = [] ∨ dir.getLast? = some '/' then dir ++ path
  else dir ++ '/' :: path

def program_arg (s : Str) : Str :=
  "    <string>".toList ++ xml_escape s ++ "</string>\n".toList

/-- Where the logs go. Without `HOME` they go nowhere. -/
def log_section (home : Option Str) (label : Str) : Str :=
  match home with
  | none => []
  | some home =>
    let dir := path_join home "Library/Logs".toList
    "           <key>StandardOutPath</key>\n".toList ++
      ("  <string>".toList ++ xml_escape (path_join dir (label ++ ".out.log".toList)) ++
        "</string>\n".toList) ++
      "  <key>StandardErrorPath</key>\n".toList ++
      ("  <string>".toList ++ xml_escape (path_join dir (label ++ ".err.log".toList)) ++
        "</string>\n".toList)

/-- `home` is the variable `HOME` of the process. -/
def render_launchd_plist (home : Option Str) (spec : ServiceSpec) : Str :=
  let program_args := program_arg spec.exec_path ++ spec.args.flatMap program_arg
  "<?xml version=\"1.0\" encoding=\"UTF-8\"?>\n".toList ++
    ("<!DOCTYPE plist PUBLIC \"-//Apple//DTD PLIST 1.0//EN\" ".toList ++
      "\"http://www.apple.com/DTDs/PropertyList-1.0.dtd\">\n".toList) ++
    "<plist version=\"1.0\">\n".toList ++
    "<dict>\n".toList ++
    "  <key>Label</key>\n".toList ++
    ("  <string>".toList ++ xml_escape spec.launchd_label ++ "</string>\n".toList) ++
    "  <key>ProgramArguments</key>\n".toList ++
    "  <array>\n".toList ++
    program_args ++
    "  </array>\n".toList ++
    "  <key>RunAtLoad</key>\n".toList ++
    "  <true/>\n".toList ++
    "  <key>KeepAlive</key>\n".toList ++
    "  <true/>\n".toList ++
    log_section home spec.launchd_label ++
    "</dict>\n".toList ++
    "</plist>\n".toList

/-! ### Reading -/

def tags (plist : Str) : List Str := (elements plist).map Prod.fst

/-- The strings behind the key `ProgramArguments`, up to the end of the array. -/
def program_arguments (plist : Str) : List Str :=
  let behind := (elements plist).dropWhile (· ≠ ("key".toList, "ProgramArguments".toList))
  let array := behind.takeWhile (·.1 ≠ "/array".toList)
  (array.filter (·.1 = "string".toList)).map fun e => unescape e.2

/-! ### The elements of the list -/

/-- The arguments; the indentation of an element belongs to the text in front of it. -/
def string_elements : List Str → List (Str × Str)
  | [] => []
  | [s] => [("string".toList, xml_escape s), ("/string".toList, ['\n', ' ', ' '])]
  | s :: t :: ss =>
    ("string".toList, xml_escape s) :: ("/string".toList, ['\n', ' ', ' ', ' ', ' ']) ::
      string_elements (t :: ss)

def head_elements (spec : ServiceSpec) : List (Str × Str) :=
  [("?xml version=\"1.0\" encoding=\"UTF-8\"?".toList, ['\n']),
    ("!DOCTYPE plist PUBLIC \"-//Apple//DTD PLIST 1.0//EN\" ".toList ++
      "\"http://www.apple.com/DTDs/PropertyList-1.0.dtd\"".toList, ['\n']),
    ("plist version=\"1.0\"".toList, ['\n']),
    ("dict".toList, ['\n', ' ', ' ']),
    ("key".toList, "Label".toList), ("/key".toList, ['\n', ' ', ' ']),
    ("string".toList, xml_escape spec.launchd_label), ("/string".toList, ['\n', ' ', ' '])]

def array_elements (spec : ServiceSpec) : List (Str × Str) :=
  ("key".toList, "ProgramArguments".toList) :: ("/key".toList, ['\n', ' ', ' ']) ::
    ("array".toList, ['\n', ' ', ' ', ' ', ' ']) :: string_elements (spec.exec_path :: spec.args)

def log_elements (home : Option Str) (label : Str) : List (Str × Str) :=
  match home with
  | none => [("true/".toList, ['\n'])]
  | some home =>
    let dir := path_join home "Library/Logs".toList
    [("true/".toList, '\n' :: List.replicate 11 ' '),
      ("key".toList, "StandardOutPath".toList), ("/key".toList, ['\n', ' ', ' ']),
      ("string".toList, xml_escape (path_join dir (label ++ ".out.log".toList))),
      ("/string".toList, ['\n', ' ', ' ']),
      ("key".toList, "StandardErrorPath".toList), ("/key".toList, ['\n', ' ', ' ']),
      ("string".toList, xml_escape (path_join dir (label ++ ".err.log".toList))),
      ("/string".toList, ['\n'])]

def tail_elements (home : Option Str) (spec : ServiceSpec) : List (Str × Str) :=
  [("/array".toList, ['\n', ' ', ' ']),
    ("key".toList, "RunAtLoad".toList), ("/key".toList, ['\n', ' ', ' ']),
    ("true/".toList, ['\n', ' ', ' ']),
    ("key".toList, "KeepAlive".toList), ("/key".toList, ['\n', ' ', ' '])] ++
    (log_elements home spec.launchd_label ++
      [("/dict".toList, ['\n']), ("/plist".toList, ['\n'])])

/-! ### From lines to elements -/

theorem argument_open :
    "    <string>".toList = ' ' :: ' ' :: ' ' :: ' ' :: '<' :: ("string".toList ++ ['>']) := by
  simp

theorem string_open : "  <string>".toList = ' ' :: ' ' :: '<' :: ("string".toList ++ ['>']) := by
  simp

theorem string_close : "</string>\n".toList = '<' :: ("/string".toList ++ ['>', '\n']) := by
  simp

theorem program_arg_eq (s rest : Str) :
    program_arg s ++ rest = ' ' :: ' ' :: ' ' :: ' ' ::
      (markup [("string".toList, xml_escape s), ("/string".toList, ['\n'])] ++ rest) := by
  unfold program_arg
  rw [argument_open, string_close]
  simp only [markup, List.flatMap_cons, List.flatMap_nil, List.append_assoc, List.cons_append,
    List.nil_append]

theorem string_line_eq (s rest : Str) :
    "  <string>".toList ++ (xml_escape s ++ ("</string>\n".toList ++ rest)) = ' ' :: ' ' ::
      (markup [("string".toList, xml_escape s), ("/string".toList, ['\n'])] ++ rest) := by
  rw [string_open, string_close]
  simp only [markup, List.flatMap_cons, List.flatMap_nil, List.append_assoc, List.cons_append,
    List.nil_append]

/-- The arguments, and the indentation of what comes after them. -/
theorem markup_strings (s : Str) (ss : List Str) (rest : Str) :
    program_arg s ++ (ss.flatMap program_arg ++ (' ' :: ' ' :: rest)) =
      ' ' :: ' ' :: ' ' :: ' ' :: (markup (string_elements (s :: ss)) ++ rest) := by
  induction ss generalizing s with
  | nil =>
    rw [program_arg_eq]
    simp only [string_elements, markup, List.flatMap_cons, List.flatMap_nil, List.append_assoc,
      List.cons_append, List.nil_append]
  | cons t ss ih =>
    have hrest := ih t
    rw [List.flatMap_cons, List.append_assoc, hrest, program_arg_eq]
    simp only [string_elements, markup, List.flatMap_cons, List.append_assoc, List.cons_append,
      List.nil_append, List.flatMap_nil]

theorem xml_line : "<?xml version=\"1.0\" encoding=\"UTF-8\"?>\n".toList =
    markup [("?xml version=\"1.0\" encoding=\"UTF-8\"?".toList, ['\n'])] := by
  simp [markup]

theorem doctype_end : "\"http://www.apple.com/DTDs/PropertyList-1.0.dtd\">\n".toList =
    "\"http://www.apple.com/DTDs/PropertyList-1.0.dtd\"".toList ++ ['>', '\n'] := by
  simp

theorem doctype_start : "<!DOCTYPE plist PUBLIC \"-//Apple//DTD PLIST 1.0//EN\" ".toList =
    '<' :: "!DOCTYPE plist PUBLIC \"-//Apple//DTD PLIST 1.0//EN\" ".toList := by
  simp

theorem label_lines (rest : Str) :
    "<plist version=\"1.0\">\n".toList ++ ("<dict>\n".toList ++
      ("  <key>Label</key>\n".toList ++ rest)) =
      markup [("plist version=\"1.0\"".toList, ['\n']), ("dict".toList, ['\n', ' ', ' ']),
        ("key".toList, "Label".toList), ("/key".toList, ['\n'])] ++ rest := by
  simp [markup]

theorem array_lines (rest : Str) :
    "  <key>ProgramArguments</key>\n".toList ++ ("  <array>\n".toList ++ rest) =
      ' ' :: ' ' :: (markup [("key".toList, "ProgramArguments".toList),
        ("/key".toList, ['\n', ' ', ' ']), ("array".toList, ['\n'])] ++ rest) := by
  simp [markup]

theorem array_end_lines (rest : Str) :
    "  </array>\n".toList ++ ("  <key>RunAtLoad</key>\n".toList ++ ("  <true/>\n".toList ++
      ("  <key>KeepAlive</key>\n".toList ++ ("  <true/>\n".toList ++ rest)))) =
      ' ' :: ' ' :: (markup [("/array".toList, ['\n', ' ', ' ']),
        ("key".toList, "RunAtLoad".toList), ("/key".toList, ['\n', ' ', ' ']),
        ("true/".toList, ['\n', ' ', ' ']), ("key".toList, "KeepAlive".toList),
        ("/key".toList, ['\n', ' ', ' '])] ++ (markup [("true/".toList, ['\n'])] ++ rest)) := by
  simp [markup]

theorem out_line : "           <key>StandardOutPath</key>\n".toList = List.replicate 11 ' ' ++
    markup [("key".toList, "StandardOutPath".toList), ("/key".toList, ['\n'])] := by
  simp [markup]

theorem err_line : "  <key>StandardErrorPath</key>\n".toList = ' ' :: ' ' ::
    markup [("key".toList, "StandardErrorPath".toList), ("/key".toList, ['\n'])] := by
  simp [markup]

theorem markup_log (home : Option Str) (label : Str) :
    markup [("true/".toList, ['\n'])] ++ log_section home label =
      markup (log_elements home label) := by
  cases home with
  | none => rfl
  | some home =>
    unfold log_section log_elements
    dsimp only
    rw [out_line, err_line, string_open, string_close]
    simp only [markup, List.flatMap_cons, List.flatMap_nil, List.append_assoc, List.cons_append,
      List.nil_append, List.append_nil]

theorem dict_end_lines : "</dict>\n".toList ++ "</plist>\n".toList =
    markup [("/dict".toList, ['\n']), ("/plist".toList, ['\n'])] := by
  simp [markup]

theorem markup_tail (home : Option Str) (spec : ServiceSpec) :
    "  </array>\n".toList ++ ("  <key>RunAtLoad</key>\n".toList ++ ("  <true/>\n".toList ++
      ("  <key>KeepAlive</key>\n".toList ++ ("  <true/>\n".toList ++
        (log_section home spec.launchd_label ++
          ("</dict>\n".toList ++ "</plist>\n".toList)))))) =
      ' ' :: ' ' :: markup (tail_elements home spec) := by
  unfold tail_elements
  rw [array_end_lines, dict_end_lines, markup_append, markup_append, ← markup_log,
    List.append_assoc]

/-- The property list is put together from its elements. -/
theorem render_eq (home : Option Str) (spec : ServiceSpec) :
    render_launchd_plist home spec =
      markup (head_elements spec ++ (array_elements spec ++ tail_elements home spec)) := by
  have hstrings := markup_strings spec.exec_path spec.args (markup (tail_elements home spec))
  unfold render_launchd_plist head_elements array_elements
  simp only [List.append_assoc]
  rw [markup_tail, hstrings, array_lines, string_line_eq, label_lines, doctype_end, doctype_start,
    xml_line]
  simp only [markup, List.flatMap_cons, List.flatMap_nil, List.flatMap_append, List.append_assoc,
    List.cons_append, List.nil_append]

/-! ### Reading back -/

theorem xml_escape_eq (s : Str) : xml_escape s = s.flatMap entity := entities_in_turn s

theorem separate_string (s : Str) : Separate ("string".toList, xml_escape s) := by
  have hopening : '<' ∉ "string".toList := by decide
  have hclosing : '>' ∉ "string".toList := by decide
  rw [xml_escape_eq]
  constructor
  · rw [List.mem_append, not_or]
    exact ⟨hopening, notMem_escaped (.inl rfl) s⟩
  · exact hclosing

theorem separate_strings (ss : List Str) : ∀ e ∈ string_elements ss, Separate e := by
  induction ss with
  | nil => simp [string_elements]
  | cons s ss ih =>
    cases ss with
    | nil =>
      simp only [string_elements, List.forall_mem_cons]
      exact ⟨separate_string s, by decide, by simp⟩
    | cons t ss =>
      simp only [string_elements, List.forall_mem_cons]
      exact ⟨separate_string s, by decide, ih⟩

theorem separate_head (spec : ServiceSpec) : ∀ e ∈ head_elements spec, Separate e := by
  simp only [head_elements, List.forall_mem_cons]
  exact ⟨⟨by simp, by simp⟩, ⟨by simp, by simp⟩, by decide, by decide, by decide, by decide,
    separate_string _, by decide, by simp⟩

theorem separate_array (spec : ServiceSpec) : ∀ e ∈ array_elements spec, Separate e := by
  simp only [array_elements, List.forall_mem_cons]
  exact ⟨by decide, by decide, by decide, separate_strings _⟩

theorem separate_log (home : Option Str) (label : Str) :
    ∀ e ∈ log_elements home label, Separate e := by
  cases home with
  | none =>
    simp only [log_elements, List.forall_mem_cons]
    exact ⟨by decide, by simp⟩
  | some home =>
    simp only [log_elements, List.forall_mem_cons]
    exact ⟨by decide, by decide, by decide, separate_string _, by decide, by decide, by decide,
      separate_string _, by decide, by simp⟩

theorem separate_tail (home : Option Str) (spec : ServiceSpec) :
    ∀ e ∈ tail_elements home spec, Separate e := by
  unfold tail_elements
  rw [List.forall_mem_append, List.forall_mem_append]
  exact ⟨by decide, separate_log home _, by decide⟩

/-- No text of the specification opens or closes an element. -/
theorem elements_render (home : Option Str) (spec : ServiceSpec) :
    elements (render_launchd_plist home spec) =
      head_elements spec ++ (array_elements spec ++ tail_elements home spec) := by
  rw [render_eq, elements_markup]
  intro e he
  rcases List.mem_append.mp he with he | he
  · exact separate_head spec e he
  rcases List.mem_append.mp he with he | he
  · exact separate_array spec e he
  · exact separate_tail home spec e he

theorem tags_strings (ss : List Str) :
    (string_elements ss).map Prod.fst =
      ss.flatMap fun _ => ["string".toList, "/string".toList] := by
  induction ss with
  | nil => rfl
  | cons s ss ih =>
    cases ss with
    | nil => rfl
    | cons t ss =>
      rw [List.flatMap_cons, ← ih]
      rfl

theorem tag_of_string {ss : List Str} {e : Str × Str} (he : e ∈ string_elements ss) :
    decide (e.1 ≠ "/array".toList) = true := by
  have htag : e.1 ∈ (string_elements ss).map Prod.fst := List.mem_map_of_mem he
  rw [tags_strings] at htag
  obtain ⟨_, -, htag⟩ := List.mem_flatMap.mp htag
  have hother : ∀ tag ∈ ["string".toList, "/string".toList],
      decide (tag ≠ "/array".toList) = true := by decide
  exact hother e.1 htag

theorem tags_log (home : Option Str) (label label' : Str) :
    (log_elements home label).map Prod.fst = (log_elements home label').map Prod.fst := by
  cases home <;> rfl

/-- The tags depend on the number of the arguments alone. -/
theorem tags_render (home : Option Str) (spec spec' : ServiceSpec)
    (hargs : spec.args.length = spec'.args.length) :
    tags (render_launchd_plist home spec) = tags (render_launchd_plist home spec') := by
  have hhead : (head_elements spec).map Prod.fst = (head_elements spec').map Prod.fst := rfl
  have hstrings : (string_elements (spec.exec_path :: spec.args)).map Prod.fst =
      (string_elements (spec'.exec_path :: spec'.args)).map Prod.fst := by
    rw [tags_strings, tags_strings, List.flatMap_def, List.flatMap_def, List.map_const',
      List.map_const', List.length_cons, List.length_cons, hargs]
  have harray : (array_elements spec).map Prod.fst = (array_elements spec').map Prod.fst := by
    unfold array_elements
    rw [List.map_cons, List.map_cons, List.map_cons, hstrings]
    rfl
  have htail : (tail_elements home spec).map Prod.fst =
      (tail_elements home spec').map Prod.fst := by
    unfold tail_elements
    rw [List.map_append, List.map_append, tags_log home _ spec'.launchd_label, List.map_append,
      List.map_append]
  unfold tags
  rw [elements_render, elements_render, List.map_append, List.map_append, List.map_append,
    List.map_append, hhead, harray, htail]

theorem texts_strings (ss : List Str) :
    ((string_elements ss).filter (·.1 = "string".toList)).map (fun e => unescape e.2) = ss := by
  induction ss with
  | nil => rfl
  | cons s ss ih =>
    have hs : unescape (xml_escape s) = s := by rw [xml_escape_eq, unescape_escaped]
    cases ss with
    | nil =>
      show [unescape (xml_escape s)] = [s]
      rw [hs]
    | cons t ss =>
      show unescape (xml_escape s) ::
        ((string_elements (t :: ss)).filter (·.1 = "string".toList)).map _ = _
      rw [hs, ih]

/-- The command is read back as its path and its arguments. -/
theorem program_arguments_render (home : Option Str) (spec : ServiceSpec) :
    program_arguments (render_launchd_plist home spec) = spec.exec_path :: spec.args := by
  have hhead : ∀ e ∈ head_elements spec,
      decide (e ≠ ("key".toList, "ProgramArguments".toList)) = true := by
    unfold head_elements
    repeat rw [List.forall_mem_cons]
    exact ⟨by simp, by simp, by decide, by decide, by decide, by decide, rfl,
      by decide, List.forall_mem_nil _⟩
  have harray : ∀ e ∈ array_elements spec, decide (e.1 ≠ "/array".toList) = true := by
    unfold array_elements
    repeat rw [List.forall_mem_cons]
    exact ⟨by decide, by decide, by decide, fun e he => tag_of_string he⟩
  have hdrop : (elements (render_launchd_plist home spec)).dropWhile
      (· ≠ ("key".toList, "ProgramArguments".toList)) =
        array_elements spec ++ tail_elements home spec := by
    rw [elements_render, List.dropWhile_append_of_pos hhead]
    rfl
  have htake : (array_elements spec ++ tail_elements home spec).takeWhile
      (·.1 ≠ "/array".toList) = array_elements spec := by
    rw [List.takeWhile_append_of_pos harray]
    exact List.append_nil _
  unfold program_arguments
  dsimp only
  rw [hdrop, htake]
  exact texts_strings (spec.exec_path :: spec.args)

/-! ### The texts of a specification are data -/

/-- What systemd and launchd read of a service. `continued` says which lines of a unit go on in the
    next one. -/
structure RendersAsData (continued : Str → Bool) (spec : ServiceSpec) : Prop where
  /-- No line is added or lost. -/
  lines_kept : ∀ user, (lines (render_systemd_unit spec user)).map key =
    (lines (render_systemd_unit plain_spec user)).map key
  outline_kept : ∀ user, outline continued (render_systemd_unit spec user) =
    outline continued (render_systemd_unit plain_spec user)
  exec_read : ∀ user, exec_words continued (render_systemd_unit spec user) =
    some (strip_control spec.exec_path :: spec.args.map strip_control)
  /-- No element is added or closed. -/
  tags_kept : ∀ home, tags (render_launchd_plist home spec) =
    tags (render_launchd_plist home { plain_spec with args := spec.args.map fun _ => [] })
  arguments_read : ∀ home,
    program_arguments (render_launchd_plist home spec) = spec.exec_path :: spec.args

/-- The texts of a specification are read as data iff the description is not continued. -/
theorem rendered_as_data_iff {continued : Str → Bool} (h : ByBackslash continued)
    (spec : ServiceSpec) :
    RendersAsData continued spec ↔ continued (description_line spec) = false := by
  constructor
  · intro hdata
    exact (outline_iff h).mp (hdata.outline_kept true)
  · intro hdescription
    constructor
    case lines_kept =>
      intro user
      rw [lines_unit, lines_unit, unit_keys]
    case outline_kept =>
      intro user
      exact (outline_iff h).mpr hdescription
    case exec_read =>
      intro user
      exact exec_words_unit h
    case tags_kept =>
      intro home
      apply tags_render
      rw [List.length_map]
    case arguments_read =>
      intro home
      exact program_arguments_render home spec

/-- The documented rule for the lines of a unit. -/
def ends_in_backslash (line : Str) : Bool := line.getLast? = some '\\'

theorem by_backslash_documented : ByBackslash ends_in_backslash := by
  intro line hline
  simpa [ends_in_backslash] using hline

theorem ends_in_backslash_description (spec : ServiceSpec) :
    ends_in_backslash (description_line spec) = false ↔
      (strip_control spec.description).getLast? ≠ some '\\' := by
  unfold ends_in_backslash description_line
  rw [decide_eq_false_iff_not]
  by_cases hempty : strip_control spec.description = []
  · rw [hempty, List.append_nil]
    decide
  · rw [List.getLast?_append_of_ne_nil _ hempty]

theorem rendered_as_data_iff_plain : RendersAsData ends_in_backslash plain_spec :=
  (rendered_as_data_iff by_backslash_documented plain_spec).mpr (by decide)

/-- A description that ends in a backslash takes the line after it. -/
theorem backslash_takes_a_setting :
    ¬ RendersAsData ends_in_backslash { plain_spec with description := ['x', '\\'] } := by
  intro hdata
  have houtline := (outline_iff by_backslash_documented).mp (hdata.outline_kept true)
  revert houtline
  decide

end SignedPulse
