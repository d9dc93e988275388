import Mathlib.Data.List.Basic
import SignedPulse.Framework.Text

/-! # Lines, words and escapes

    How a reader takes a text apart, next to how the text is put together:

    - lines that end in a line feed, some of which go on in the next line
    - words in double quotes, where a backslash takes the next character as it
      is

    What is put together from parts is taken apart into the same parts, when no
    part has a separator in it or when it is escaped.
-/

namespace Quoting

/-- `str::replace` of a single character. -/
def replace_char (c : Char) (by_text : Str) (s : Str) : Str :=
  s.flatMap fun d => if d = c then by_text else [d]

/-! ### Lines -/

/-- The lines of a text that ends in a line feed. -/
def lines (s : Str) : List Str := (s.splitOn '\n').dropLast

def unlines (ls : List Str) : Str := ls.flatMap (· ++ ['\n'])

theorem splitOn_unlines {ls : List Str} (h : ∀ l ∈ ls, '\n' ∉ l) :
    (unlines ls).splitOn '\n' = ls ++ [[]] := by
  induction ls with
  | nil => rfl
  | cons l ls ih =>
    have htext : unlines (l :: ls) = l ++ '\n' :: unlines ls := by
      simp [unlines]
    rw [htext, List.splitOn_append_cons_self_of_not_mem (h l List.mem_cons_self),
      ih (fun m hm => h m (List.mem_cons_of_mem _ hm))]
    rfl

theorem lines_unlines {ls : List Str} (h : ∀ l ∈ ls, '\n' ∉ l) : lines (unlines ls) = ls := by
  unfold lines
  rw [splitOn_unlines h, List.dropLast_concat]

/-- A line that is continued has a blank in the place of its last character, and then the next
    line. -/
def join_continued (continued : Str → Bool) : List Str → List Str
  | [] => []
  | l :: ls =>
    if continued l then
      match join_continued continued ls with
      | [] => [l.dropLast ++ [' ']]
      | m :: ms => (l.dropLast ++ ' ' :: m) :: ms
    else l :: join_continued continued ls

theorem join_continued_of_none {continued : Str → Bool} {ls : List Str}
    (h : ∀ l ∈ ls, continued l = false) : join_continued continued ls = ls := by
  induction ls with
  | nil => rfl
  | cons l ls ih =>
    have hhead := h l List.mem_cons_self
    have htail := ih (fun m hm => h m (List.mem_cons_of_mem _ hm))
    simp only [join_continued, hhead, htail, Bool.false_eq_true, if_false]

/-- One line that is continued, among lines that are not. -/
theorem join_continued_of_one {continued : Str → Bool} {before after : List Str} {l m : Str}
    (hbefore : ∀ k ∈ before, continued k = false) (hl : continued l = true)
    (hafter : ∀ k ∈ m :: after, continued k = false) :
    join_continued continued (before ++ l :: m :: after) =
      before ++ (l.dropLast ++ ' ' :: m) :: after := by
  induction before with
  | nil =>
    have hrest := join_continued_of_none hafter
    show join_continued continued (l :: m :: after) = _
    unfold join_continued
    rw [if_pos hl, hrest]
    rfl
  | cons k before ih =>
    have hhead := hbefore k List.mem_cons_self
    have htail := ih (fun j hj => hbefore j (List.mem_cons_of_mem _ hj))
    show join_continued continued (k :: (before ++ l :: m :: after)) = _
    unfold join_continued
    rw [hhead, htail]
    rfl

/-! ### Settings -/

/-- What is in front of the first equals sign, or all of the line. -/
def key (line : Str) : Str := line.takeWhile (· ≠ '=')

/-- What is behind the first equals sign. -/
def value (line : Str) : Str := (line.dropWhile (· ≠ '=')).drop 1

/-! ### Words -/

/-- The words of a line. `word` is the word that has been started, if any; a quote starts one and
    does not belong to it. There are none when a quote or an escape is left open. -/
def words : (quoted : Bool) → (word : Option Str) → Str → Option (List Str)
  | quoted, word, [] => if quoted then none else some word.toList
  | _, _, ['\\'] => none
  | quoted, word, '\\' :: c :: s => words quoted (some (word.getD [] ++ [c])) s
  | quoted, word, c :: s =>
    if c = '"' then words (!quoted) (some (word.getD [])) s
    else if c = ' ' ∧ quoted = false then (words false none s).map (word.toList ++ ·)
    else words quoted (some (word.getD [] ++ [c])) s

def escape_char (c : Char) : Str := if c = '\\' ∨ c = '"' then ['\\', c] else [c]

/-- In double quotes. -/
def quote (s : Str) : Str := '"' :: (s.flatMap escape_char ++ ['"'])

/-- Quoted words with blanks between them. -/
def quoted_words (s : Str) (ss : List Str) : Str := quote s ++ ss.flatMap fun t => ' ' :: quote t

theorem mem_quote {c : Char} {s : Str} (h : c ∈ quote s) : c = '"' ∨ c = '\\' ∨ c ∈ s := by
  rcases List.mem_cons.mp h with h | h
  · exact .inl h
  rcases List.mem_append.mp h with h | h
  · obtain ⟨d, hd, hc⟩ := List.mem_flatMap.mp h
    unfold escape_char at hc
    split at hc
    · rcases List.mem_cons.mp hc with hc | hc
      · exact .inr (.inl hc)
      · exact .inr (.inr (List.mem_singleton.mp hc ▸ hd))
    · exact .inr (.inr (List.mem_singleton.mp hc ▸ hd))
  · exact .inl (List.mem_singleton.mp h)

theorem notMem_quoted_words {c : Char} (hquote : c ≠ '"') (hslash : c ≠ '\\') (hblank : c ≠ ' ')
    {s : Str} {ss : List Str} (h : ∀ t ∈ s :: ss, c ∉ t) : c ∉ quoted_words s ss := by
  have hnot : ∀ t ∈ s :: ss, c ∉ quote t := by
    intro t ht hc
    rcases mem_quote hc with hc | hc | hc
    · exact hquote hc
    · exact hslash hc
    · exact h t ht hc
  intro hc
  rcases List.mem_append.mp hc with hc | hc
  · exact hnot s List.mem_cons_self hc
  · obtain ⟨t, ht, hc⟩ := List.mem_flatMap.mp hc
    rcases List.mem_cons.mp hc with hc | hc
    · exact hblank hc
    · exact hnot t (List.mem_cons_of_mem _ ht) hc

/-- Quoted words end in a quote. -/
theorem getLast_quoted_words (s : Str) (ss : List Str) :
    (quoted_words s ss).getLast? = some '"' := by
  induction ss generalizing s with
  | nil =>
    show (('"' :: s.flatMap escape_char) ++ ['"'] ++ []).getLast? = _
    rw [List.append_nil, List.getLast?_concat]
  | cons t ss ih =>
    have htext : quoted_words s (t :: ss) = (quote s ++ [' ']) ++ quoted_words t ss := by
      simp [quoted_words]
    have hne : quoted_words t ss ≠ [] := by
      simp [quoted_words, quote]
    rw [htext, List.getLast?_append_of_ne_nil _ hne, ih]

theorem words_backslash (quoted : Bool) (word : Option Str) (c : Char) (t : Str) :
    words quoted word ('\\' :: c :: t) = words quoted (some (word.getD [] ++ [c])) t := by
  rw [words.eq_def]
  rfl

theorem words_plain {quoted : Bool} {word : Option Str} {c : Char} {t : Str} (hslash : c ≠ '\\') :
    words quoted word (c :: t) =
      if c = '"' then words (!quoted) (some (word.getD [])) t
      else if c = ' ' ∧ quoted = false then (words false none t).map (word.toList ++ ·)
      else words quoted (some (word.getD [] ++ [c])) t := by
  rw [words.eq_def]
  split
  · rename_i heq
    cases heq
  · rename_i heq
    exact absurd (List.cons.inj heq).1 hslash
  · rename_i heq
    exact absurd (List.cons.inj heq).1 hslash
  · rename_i heq
    obtain ⟨rfl, rfl⟩ := List.cons.inj heq
    rfl

theorem words_escape_char (c : Char) (word t : Str) :
    words true (some word) (escape_char c ++ t) = words true (some (word ++ [c])) t := by
  unfold escape_char
  by_cases hspecial : c = '\\' ∨ c = '"'
  · rw [if_pos hspecial]
    exact words_backslash true (some word) c t
  · rw [if_neg hspecial]
    obtain ⟨hslash, hquote⟩ := not_or.mp hspecial
    have hblank : ¬ (c = ' ' ∧ true = false) := by simp
    show words true (some word) (c :: t) = _
    rw [words_plain hslash, if_neg hquote, if_neg hblank]
    rfl

theorem words_escaped (s word t : Str) :
    words true (some word) (s.flatMap escape_char ++ t) = words true (some (word ++ s)) t := by
  induction s generalizing word with
  | nil => simp
  | cons c s ih =>
    rw [List.flatMap_cons, List.append_assoc, words_escape_char, ih, List.append_assoc]
    rfl

/-- A quoted text is one word. -/
theorem words_quote (s t : Str) : words false none (quote s ++ t) = words false (some s) t := by
  have hopen : words false none ('"' :: (s.flatMap escape_char ++ '"' :: t)) =
      words true (some []) (s.flatMap escape_char ++ '"' :: t) := words_plain (by decide)
  have hclose : words true (some s) ('"' :: t) = words false (some s) t := words_plain (by decide)
  have htext : quote s ++ t = '"' :: (s.flatMap escape_char ++ '"' :: t) := by
    simp [quote]
  rw [htext, hopen, words_escaped, List.nil_append, hclose]

theorem words_quoted_words (s : Str) (ss : List Str) :
    words false none (quoted_words s ss) = some (s :: ss) := by
  induction ss generalizing s with
  | nil =>
    show words false none (quote s ++ []) = _
    rw [words_quote]
    rfl
  | cons t ss ih =>
    have hblank : words false (some s) (' ' :: quoted_words t ss) =
        (words false none (quoted_words t ss)).map ([s] ++ ·) := words_plain (by decide)
    show words false none (quote s ++ (' ' :: quoted_words t ss)) = _
    rw [words_quote, hblank, ih]
    rfl

/-- Escaping backslashes first and quotes next is one pass. -/
theorem escaped_in_turn (s : Str) :
    replace_char '"' ['\\', '"'] (replace_char '\\' ['\\', '\\'] s) = s.flatMap escape_char := by
  unfold replace_char
  rw [List.flatMap_assoc]
  apply List.flatMap_congr
  intro c _
  unfold escape_char
  by_cases hslash : c = '\\'
  · subst hslash
    rfl
  · by_cases hquote : c = '"'
    · subst hquote
      rfl
    · simp [hslash, hquote]

end Quoting
