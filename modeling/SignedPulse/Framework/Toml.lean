import SignedPulse.Framework.Text
import Mathlib.Data.List.Basic

/-! # TOML documents

    A document is a tree of tables. What a header may extend depends on how a
    table was written: `[a]` and dotted keys leave it open, `{..}` and `[..]`
    close it.

    - `edit`: what a header at the end of a document adds to the tree, and
      `Updated`: that one key has changed and no other
    - `Block`: a header with its lines, as text and as an edit; `Appends` is what
      a parser makes of it
    - `required`, `defaulted`, `omittable`: the fields of a struct
-/

namespace Toml

/-! ### Trees -/

inductive Value where
  | string (s : Str)
  | integer (n : Int)
  | float
  | boolean (b : Bool)
  | datetime
  /-- `[v, ..]`. -/
  | array (elems : List Value)
  /-- `{k = v, ..}`, which nothing can be added to. -/
  | inline_table (entries : List (Str × Value))
  /-- A table that is given by a header, by dotted keys, or by a header below it. -/
  | table (entries : List (Str × Value))
  /-- The tables of the headers `[[..]]`. -/
  | table_array (tables : List (List (Str × Value)))

/-- The entries of a table, or a whole document. -/
abbrev Entries := List (Str × Value)

/-- Give the key another value. -/
def set (key : Str) (v : Value) (es : Entries) : Entries :=
  es.map fun e => if e.1 = key then (key, v) else e

@[simp] theorem map_fst_set (key : Str) (v : Value) (es : Entries) :
    (set key v es).map Prod.fst = es.map Prod.fst := by
  unfold set
  rw [List.map_map]
  refine List.map_congr_left fun e _ => ?_
  by_cases h : e.1 = key <;> simp [h]

theorem lookup_set_self {key : Str} {v w : Value} {es : Entries} (h : es.lookup key = some w) :
    (set key v es).lookup key = some v := by
  induction es with
  | nil => cases h
  | cons e es ih =>
    by_cases heq : e.1 = key
    · simp [set, heq]
    · have hne : (key == e.1) = false := by simp [Ne.symm heq]
      rw [List.lookup_cons, hne] at h
      have hrest := ih h
      unfold set at hrest ⊢
      rw [List.map_cons, if_neg heq, List.lookup_cons, hne]
      exact hrest

theorem lookup_set_ne {key other : Str} {v : Value} {es : Entries} (h : other ≠ key) :
    (set key v es).lookup other = es.lookup other := by
  induction es with
  | nil => rfl
  | cons e es ih =>
    unfold set at ih ⊢
    rw [List.map_cons, List.lookup_cons, List.lookup_cons]
    by_cases heq : e.1 = key
    · have hne : (other == e.1) = false := by simp [heq, h]
      have hne' : (other == key) = false := by simp [h]
      rw [if_pos heq, hne, hne']
      exact ih
    · rw [if_neg heq]
      split
      · rfl
      · exact ih

theorem lookup_snoc_self {key : Str} {v : Value} {es : Entries} (h : es.lookup key = none) :
    (es ++ [(key, v)]).lookup key = some v := by
  rw [List.lookup_append, h]
  simp

theorem lookup_snoc_ne {key other : Str} {v : Value} {es : Entries} (h : other ≠ key) :
    (es ++ [(key, v)]).lookup other = es.lookup other := by
  have hne : (other == key) = false := by simp [h]
  rw [List.lookup_append, List.lookup_cons, hne]
  simp

/-- The key has this value now, and nothing else has changed. -/
structure Updated (key : Str) (v : Value) (es es' : Entries) : Prop where
  self : es'.lookup key = some v
  others : ∀ other, other ≠ key → es'.lookup other = es.lookup other
  keys : ∀ e ∈ es', e.1 = key ∨ e.1 ∈ es.map Prod.fst

theorem Updated.set {key : Str} {v w : Value} {es : Entries} (h : es.lookup key = some w) :
    Updated key v es (set key v es) where
  self := lookup_set_self h
  others _ hne := lookup_set_ne hne
  keys e he := by
    right
    rw [← map_fst_set key v es]
    exact List.mem_map_of_mem he

theorem Updated.snoc {key : Str} {v : Value} {es : Entries} (h : es.lookup key = none) :
    Updated key v es (es ++ [(key, v)]) where
  self := lookup_snoc_self h
  others _ hne := lookup_snoc_ne hne
  keys e he := by
    rcases List.mem_append.mp he with hold | hnew
    · exact .inr (List.mem_map_of_mem hold)
    · exact .inl (List.mem_singleton.mp hnew ▸ rfl)

/-! ### Headers -/

/-- Follow the keys before the last one, and change the table that they lead to. Keys that do not
    exist are created; `[[..]]` leads to its last table. -/
def edit (last : Str → Entries → Option Entries) : List Str → Entries → Option Entries
  | [], _ => none
  | [key], es => last key es
  | key :: path, es =>
    match es.lookup key with
    | none => (edit last path []).map fun sub => es ++ [(key, .table sub)]
    | some (.table sub) => (edit last path sub).map fun sub => set key (.table sub) es
    | some (.table_array tables) =>
      match tables.getLast? with
      | none => none
      | some sub => (edit last path sub).map fun sub =>
        set key (.table_array (tables.dropLast ++ [sub])) es
    | some _ => none

/-- The key is defined in the table that the others lead to. -/
def contains : List Str → Entries → Bool
  | [], _ => false
  | [key], es => (es.lookup key).isSome
  | key :: path, es =>
    match es.lookup key with
    | some (.table sub) => contains path sub
    | some (.inline_table sub) => contains path sub
    | some (.table_array tables) =>
      match tables.getLast? with
      | none => false
      | some sub => contains path sub
    | _ => false

/-- `[key]`, for a key that is new. -/
def new_table (entries : Entries) (key : Str) (es : Entries) : Option Entries :=
  match es.lookup key with
  | none => some (es ++ [(key, .table entries)])
  | some _ => none

/-- `[[key]]`: one more table, unless the key is something else. -/
def push_table (entries : Entries) (key : Str) (es : Entries) : Option Entries :=
  match es.lookup key with
  | none => some (es ++ [(key, .table_array [entries])])
  | some (.table_array tables) => some (set key (.table_array (tables ++ [entries])) es)
  | some _ => none

theorem new_table_eq_some {entries : Entries} {key : Str} {es es' : Entries} :
    new_table entries key es = some es' ↔
      es.lookup key = none ∧ es' = es ++ [(key, .table entries)] := by
  unfold new_table
  cases h : es.lookup key with
  | none => simp [eq_comm]
  | some v => simp

/-- The tables of `[[key]]` so far, if there can be one more. -/
theorem push_table_updated {entries : Entries} {key : Str} {es es' : Entries}
    (h : push_table entries key es = some es') :
    ∃ tables, (es.lookup key = none ∧ tables = [] ∨ es.lookup key = some (.table_array tables)) ∧
      Updated key (.table_array (tables ++ [entries])) es es' := by
  unfold push_table at h
  split at h
  · rename_i hnone
    obtain rfl := Option.some.inj h
    exact ⟨[], .inl ⟨hnone, rfl⟩, Updated.snoc hnone⟩
  · rename_i tables hsome
    obtain rfl := Option.some.inj h
    exact ⟨tables, .inr hsome, Updated.set hsome⟩
  · cases h

/-! ### Blocks -/

/-- A character that stands for itself in a basic string: no control character but the tab. -/
def plain_char (c : Char) : Bool :=
  c = '\t' || (32 ≤ c.toNat && c.toNat ≠ 127)

/-- Text without quotes and backslashes, so that nothing ends the string or is an escape. -/
def Unescaped (s : Str) : Prop := '"' ∉ s ∧ '\\' ∉ s

/-- Every character stands for itself. -/
def Plain (s : Str) : Prop := ∀ c ∈ s, plain_char c = true

instance (s : Str) : Decidable (Unescaped s) := inferInstanceAs (Decidable (_ ∧ _))

instance (s : Str) : Decidable (Plain s) := inferInstanceAs (Decidable (∀ c ∈ s, _))

/-- The value on a line. -/
inductive Scalar where
  /-- Text that is put between quotes as it is. -/
  | basic (s : Str)
  | integer (n : Nat)
  | boolean (b : Bool)

def Scalar.text : Scalar → Str
  | .basic s => '"' :: s ++ ['"']
  | .integer n => decimal n
  | .boolean true => "true".toList
  | .boolean false => "false".toList

/-- What is meant by the line. -/
def Scalar.value : Scalar → Value
  | .basic s => .string s
  | .integer n => .integer n
  | .boolean b => .boolean b

/-- The line can be read: a basic string holds plain characters only, and an integer has 64 bits
    with its sign. -/
def Scalar.Valid : Scalar → Prop
  | .basic s => Plain s
  | .integer n => n < 2 ^ 63
  | .boolean _ => True

instance : DecidablePred Scalar.Valid
  | .basic s => inferInstanceAs (Decidable (Plain s))
  | .integer n => inferInstanceAs (Decidable (n < 2 ^ 63))
  | .boolean _ => inferInstanceAs (Decidable True)

def Scalar.Unescaped : Scalar → Prop
  | .basic s => Toml.Unescaped s
  | _ => True

/-- A character of a bare key. -/
def bare_char (c : Char) : Bool := c.isAlphanum || c = '_' || c = '-'

theorem ascii_of_alphanum {c : Char} (h : c.isAlphanum = true) : c.toNat < 128 := by
  unfold Char.isAlphanum Char.isAlpha Char.isUpper Char.isLower Char.isDigit at h
  simp only [Bool.or_eq_true, Bool.and_eq_true, decide_eq_true_eq, ge_iff_le,
    UInt32.le_iff_toNat_le] at h
  show c.val.toNat < 128
  rcases h with (⟨-, h⟩ | ⟨-, h⟩) | ⟨-, h⟩
  · exact Nat.lt_of_le_of_lt h (by decide)
  · exact Nat.lt_of_le_of_lt h (by decide)
  · exact Nat.lt_of_le_of_lt h (by decide)

theorem plain_of_alphanum {c : Char} (h : c.isAlphanum = true) :
    plain_char c = true ∧ c ≠ '"' ∧ c ≠ '\\' := by
  have key : ∀ n < 128, (Char.ofNat n).isAlphanum = true →
      plain_char (Char.ofNat n) = true ∧ Char.ofNat n ≠ '"' ∧ Char.ofNat n ≠ '\\' := by decide
  have hc := key c.toNat (ascii_of_alphanum h)
  rw [Char.ofNat_toNat] at hc
  exact hc h

theorem plain_unescaped {s : Str}
    (h : ∀ c ∈ s, plain_char c = true ∧ c ≠ '"' ∧ c ≠ '\\') : Unescaped s ∧ Plain s := by
  refine ⟨⟨?_, ?_⟩, fun c hc => (h c hc).1⟩
  · intro hquote
    exact (h _ hquote).2.1 rfl
  · intro hslash
    exact (h _ hslash).2.2 rfl

/-- A key as it stands in a header: bare if it can be, and otherwise between quotes. -/
def key_text (key : Str) : Str := if key.all bare_char then key else '"' :: key ++ ['"']

def line_text (line : String × Scalar) : Str :=
  line.1.toList ++ " = ".toList ++ line.2.text ++ ['\n']

/-- A line that is left out when there is no value for it. -/
def optional_line (key : String) (o : Option Scalar) : List (String × Scalar) :=
  o.toList.map fun v => (key, v)

@[simp] theorem lookup_optional_line_self (key : String) (o : Option Scalar) :
    (optional_line key o).lookup key = o := by
  cases o <;> simp [optional_line]

theorem lookup_optional_line_ne {key other : String} (o : Option Scalar) (h : other ≠ key) :
    (optional_line key o).lookup other = none := by
  cases o <;> simp [optional_line, h]

theorem lookup_optional_line_append_ne {key other : String} (o : Option Scalar)
    (rest : List (String × Scalar)) (h : other ≠ key) :
    (optional_line key o ++ rest).lookup other = rest.lookup other := by
  rw [List.lookup_append, lookup_optional_line_ne o h]
  rfl

@[simp] theorem mem_optional_line {key : String} {o : Option Scalar} {line : String × Scalar} :
    line ∈ optional_line key o ↔ line.1 = key ∧ o = some line.2 := by
  obtain ⟨k, v⟩ := line
  simp only [optional_line, List.mem_map, Option.mem_toList, Prod.mk.injEq]
  constructor
  · intro h
    obtain ⟨a, ha, rfl, rfl⟩ := h
    exact ⟨rfl, ha⟩
  · intro h
    exact ⟨v, h.2, h.1.symm, rfl⟩

theorem optional_line_keys (key : String) (o : Option Scalar) :
    ((optional_line key o).map Prod.fst).Sublist [key] := by
  cases o with
  | none => exact List.nil_sublist _
  | some v => exact .refl _

/-- A header `[..]` or, for an element of an array, `[[..]]`, with its lines. -/
structure Block where
  element : Bool
  path : List Str
  lines : List (String × Scalar)

namespace Block

def header (b : Block) : Str :=
  let keys := ['.'].intercalate (b.path.map key_text)
  if b.element then "[[".toList ++ keys ++ "]]\n".toList else '[' :: keys ++ "]\n".toList

def text (b : Block) : Str := b.header ++ b.lines.flatMap line_text

/-- The entries that the lines stand for. -/
def entries (b : Block) : Entries := b.lines.map fun line => (line.1.toList, line.2.value)

theorem lookup_entries (b : Block) (key : String) :
    b.entries.lookup key.toList = (b.lines.lookup key).map Scalar.value := by
  unfold entries
  induction b.lines with
  | nil => rfl
  | cons line lines ih =>
    rw [List.map_cons, List.lookup_cons, List.lookup_cons, ih]
    by_cases h : key = line.1
    · simp [h]
    · have hne : (key.toList == line.1.toList) = false := by
        simpa [String.toList_inj] using h
      rw [hne, show (key == line.1) = false by simpa using h]

theorem lookup_absent {b : Block} {fields : List String} {key : String}
    (h : (b.lines.map Prod.fst).Sublist fields) (hkey : key ∉ fields) :
    b.lines.lookup key = none := by
  rw [List.lookup_eq_none_iff]
  intro line hline
  rw [bne_iff_ne]
  intro heq
  exact hkey (heq ▸ h.subset (List.mem_map_of_mem hline))

/-- The document with the block at its end. -/
def append (b : Block) (doc : Entries) : Option Entries :=
  if ∀ line ∈ b.lines, line.2.Valid then
    edit (if b.element then push_table b.entries else new_table b.entries) b.path doc
  else none

/-- The text of the block is read as it is meant: no key is there twice or needs an escape, and no
    string does. -/
structure Clean (b : Block) : Prop where
  path : ∀ key ∈ b.path, key ≠ [] ∧ Toml.Unescaped key ∧ Plain key
  keys : (b.lines.map Prod.fst).Nodup ∧ ∀ line ∈ b.lines, line.1.toList.all bare_char = true
  values : ∀ line ∈ b.lines, line.2.Unescaped

/-- The keys are among those of a struct, in their order. -/
theorem keys_of_sublist {b : Block} {fields : List String}
    (h : (b.lines.map Prod.fst).Sublist fields) (hnodup : fields.Nodup)
    (hbare : ∀ field ∈ fields, field.toList.all bare_char = true) :
    (b.lines.map Prod.fst).Nodup ∧ ∀ line ∈ b.lines, line.1.toList.all bare_char = true := by
  refine ⟨hnodup.sublist h, ?_⟩
  intro line hline
  exact hbare _ (h.subset (List.mem_map_of_mem hline))

end Block

/-- What the specification of TOML says of a document to which line feeds and a block are added: if
    the block is clean, and no header gives a table that is there already, the result is the edited
    document, and an error when a line is not valid or the edit is none. -/
def Appends (parse : Str → Option Entries) (text : Str) (feeds : Nat) (b : Block) : Prop :=
  ∀ doc, parse text = some doc → 1 ≤ feeds → b.Clean →
    (b.element = false → contains b.path doc = false) →
    parse (text ++ List.replicate feeds '\n' ++ b.text) = b.append doc

/-! ### Readers -/

namespace Value

def as_string : Value → Option Str
  | .string s => some s
  | _ => none

def as_bool : Value → Option Bool
  | .boolean b => some b
  | _ => none

/-- A number below `2 ^ bits`. -/
def as_unsigned (bits : Nat) : Value → Option Nat
  | .integer n => if 0 ≤ n ∧ n < 2 ^ bits then some n.toNat else none
  | _ => none

def as_u64 (v : Value) : Option UInt64 := (v.as_unsigned 64).map UInt64.ofNat

def as_u32 (v : Value) : Option UInt32 := (v.as_unsigned 32).map UInt32.ofNat

/-- `usize` has 64 bits. -/
def as_usize (v : Value) : Option Nat := v.as_unsigned 64

/-- Nothing between the brackets. -/
def is_empty : Value → Bool
  | .array [] => true
  | .inline_table [] => true
  | .table [] => true
  | .table_array [] => true
  | _ => false

/-- A variant without data: its name, or a table of its name and nothing. -/
def as_unit_variant {α : Type} (variant : Str → Option α) : Value → Option α
  | .string s => variant s
  | .inline_table [(name, v)] => if v.is_empty then variant name else none
  | .table [(name, v)] => if v.is_empty then variant name else none
  | _ => none

def as_vec {α : Type} (read : Value → Option α) : Value → Option (List α)
  | .array elems => elems.mapM read
  | .table_array tables => tables.mapM fun t => read (.table t)
  | _ => none

/-- A map from the keys of a table. -/
def as_map {α : Type} (read : Value → Option α) : Value → Option (List (Str × α))
  | .table es => es.mapM fun e => (read e.2).map fun a => (e.1, a)
  | .inline_table es => es.mapM fun e => (read e.2).map fun a => (e.1, a)
  | _ => none

/-- A struct that denies unknown fields: a table with no other keys, or its fields in order. -/
def as_struct (fields : List String) : Value → Option Entries
  | .table es => if ∀ e ∈ es, e.1 ∈ fields.map String.toList then some es else none
  | .inline_table es => if ∀ e ∈ es, e.1 ∈ fields.map String.toList then some es else none
  | .array elems => some ((fields.map String.toList).zip elems)
  | .table_array tables => some ((fields.map String.toList).zip (tables.map .table))
  | _ => none

/-- The keys are those of the table. -/
theorem keys_of_mapM {α : Type} {read : Value → Option α} {es : Entries} {entries : List (Str × α)}
    (h : (es.mapM fun e => (read e.2).map fun a => (e.1, a)) = some entries) :
    entries.map Prod.fst = es.map Prod.fst := by
  induction es generalizing entries with
  | nil =>
    obtain rfl := Option.some.inj h
    rfl
  | cons e es ih =>
    rw [List.mapM_cons] at h
    simp only [Option.bind_eq_bind, Option.bind_eq_some_iff, Option.map_eq_some_iff,
      Option.pure_def, Option.some.injEq] at h
    obtain ⟨_, ⟨a, -, rfl⟩, rest, hrest, rfl⟩ := h
    rw [List.map_cons, List.map_cons, ih hrest]

end Value

theorem mem_keys_of_lookup {key : Str} {v : Value} {es : Entries} (h : es.lookup key = some v) :
    key ∈ es.map Prod.fst := by
  by_contra hno
  have hnone : es.lookup key = none := by
    rw [List.lookup_eq_none_iff]
    intro e he
    rw [bne_iff_ne]
    intro heq
    exact hno (heq ▸ List.mem_map_of_mem he)
  rw [hnone] at h
  cases h

section fields
variable {α : Type} (read : Value → Option α) (es : Entries) (key : String)

/-- A field that has to be there. -/
def required : Option α := (es.lookup key.toList).bind read

/-- A field with a default. -/
def defaulted (d : α) : Option α :=
  match es.lookup key.toList with
  | none => some d
  | some v => read v

/-- A field that may be left out. -/
def omittable : Option (Option α) :=
  match es.lookup key.toList with
  | none => some none
  | some v => (read v).map some

variable {read es key}

theorem omittable_of_lookup {β : Type} {read : Value → Option β} {o : Option β} {f : β → Value}
    (h : es.lookup key.toList = o.map f) (hread : ∀ a, read (f a) = some a) :
    omittable read es key = some o := by
  unfold omittable
  rw [h]
  cases o with
  | none => rfl
  | some a => simp [hread a]

theorem omittable_absent (h : es.lookup key.toList = none) : omittable read es key = some none := by
  unfold omittable
  rw [h]

theorem required_of_lookup {v : Value} (h : es.lookup key.toList = some v) :
    required read es key = read v := by
  unfold required
  rw [h, Option.bind_some]

theorem defaulted_of_lookup {v : Value} {d : α} (h : es.lookup key.toList = some v) :
    defaulted read es key d = read v := by
  unfold defaulted
  rw [h]

theorem defaulted_absent {d : α} (h : es.lookup key.toList = none) :
    defaulted read es key d = some d := by
  unfold defaulted
  rw [h]

end fields

theorem Value.as_u64_integer (n : UInt64) : Value.as_u64 (.integer n.toNat) = some n := by
  have hlt : (n.toNat : Int) < 2 ^ 64 := by
    have := n.toNat_lt
    omega
  unfold Value.as_u64 Value.as_unsigned
  dsimp only
  rw [if_pos ⟨by omega, hlt⟩]
  simp

theorem Updated.as_struct {key : String} {v : Value} {es es' es₀ : Entries}
    {fields : List String} (h : Updated key.toList v es es') (hkey : key ∈ fields)
    (hes : (Value.table es).as_struct fields = some es₀) :
    es₀ = es ∧ (Value.table es').as_struct fields = some es' := by
  unfold Value.as_struct at hes ⊢
  dsimp only at hes ⊢
  split at hes
  · rename_i hfields
    refine ⟨(Option.some.inj hes).symm, if_pos ?_⟩
    intro e he
    rcases h.keys e he with hself | hold
    · rw [hself]
      exact List.mem_map_of_mem hkey
    · obtain ⟨e', he', hsame⟩ := List.mem_map.mp hold
      rw [← hsame]
      exact hfields e' he'
  · cases hes

theorem Block.as_struct {b : Block} {fields : List String}
    (h : ∀ key ∈ b.lines.map Prod.fst, key ∈ fields) :
    (Value.table b.entries).as_struct fields = some b.entries := by
  unfold Value.as_struct
  dsimp only
  apply if_pos
  intro e he
  obtain ⟨line, hline, rfl⟩ := List.mem_map.mp he
  exact List.mem_map_of_mem (h _ (List.mem_map_of_mem hline))

/-! ### A reader of two texts -/

/-- Reads one text, and the same text with a block at its end. -/
def reader (text : Str) (doc : Entries) (feeds : Nat) (b : Block) (t : Str) : Option Entries :=
  if t = text then some doc
  else if t = text ++ List.replicate feeds '\n' ++ b.text then b.append doc
  else none

theorem reader_text (text : Str) (doc : Entries) (feeds : Nat) (b : Block) :
    reader text doc feeds b text = some doc := if_pos rfl

theorem reader_appends (text : Str) (doc : Entries) (feeds : Nat) (b : Block) :
    Appends (reader text doc feeds b) text feeds b := by
  intro doc' hdoc hfeeds _ _
  rw [reader_text] at hdoc
  obtain rfl := Option.some.inj hdoc
  have hlonger : text ++ List.replicate feeds '\n' ++ b.text ≠ text := by
    intro hsame
    have hlength := congrArg List.length hsame
    simp only [List.length_append, List.length_replicate] at hlength
    omega
  unfold reader
  rw [if_neg hlonger, if_pos rfl]

end Toml
