import SignedPulse.Framework.Quoting

/-! # Markup

    A text of tags in angle brackets, each with a text behind it, and how a
    reader takes it apart: `elements_markup`.

    Three characters have a meaning in such a text. They are written as
    entities, and what is written so reads back as it was.
-/

namespace Markup

open Quoting

/-- Each tag, and the text behind it. -/
def markup (es : List (Str × Str)) : Str := es.flatMap fun e => '<' :: (e.1 ++ '>' :: e.2)

/-- A tag ends at the first closing bracket. -/
def element (piece : Str) : Str × Str :=
  (piece.takeWhile (· ≠ '>'), (piece.dropWhile (· ≠ '>')).drop 1)

/-- The tags of a text, each with the text up to the next one. -/
def elements (s : Str) : List (Str × Str) := (s.splitOn '<').tail.map element

theorem markup_append (es es' : List (Str × Str)) : markup (es ++ es') = markup es ++ markup es' :=
  List.flatMap_append

/-- Neither the tag nor the text looks like another tag. -/
structure Separate (e : Str × Str) : Prop where
  opening : '<' ∉ e.1 ++ e.2
  closing : '>' ∉ e.1

instance (e : Str × Str) : Decidable (Separate e) :=
  decidable_of_iff ('<' ∉ e.1 ++ e.2 ∧ '>' ∉ e.1)
    ⟨fun h => ⟨h.1, h.2⟩, fun h => ⟨h.opening, h.closing⟩⟩

theorem element_piece {e : Str × Str} (h : '>' ∉ e.1) : element (e.1 ++ '>' :: e.2) = e := by
  have htag : ∀ c ∈ e.1, decide (c ≠ '>') = true := by
    intro c hc
    have hne : c ≠ '>' := fun heq => h (heq ▸ hc)
    simpa using hne
  unfold element
  rw [List.takeWhile_append_of_pos htag, List.dropWhile_append_of_pos htag]
  simp

theorem splitOn_markup {es : List (Str × Str)} (h : ∀ e ∈ es, Separate e) {s : Str}
    (hs : '<' ∉ s) :
    (s ++ markup es).splitOn '<' = s :: es.map fun e => e.1 ++ '>' :: e.2 := by
  induction es generalizing s with
  | nil =>
    show (s ++ []).splitOn '<' = _
    rw [List.append_nil, List.splitOn_eq_singleton hs]
    rfl
  | cons e es ih =>
    have hpiece : '<' ∉ e.1 ++ '>' :: e.2 := by
      have hopening := (h e List.mem_cons_self).opening
      simp only [List.mem_append, List.mem_cons, not_or] at hopening ⊢
      exact ⟨hopening.1, by decide, hopening.2⟩
    have htext : s ++ markup (e :: es) = s ++ '<' :: ((e.1 ++ '>' :: e.2) ++ markup es) := by
      simp [markup]
    rw [htext, List.splitOn_append_cons_self_of_not_mem hs,
      ih (fun f hf => h f (List.mem_cons_of_mem _ hf)) hpiece]
    rfl

/-- What is put together from separate parts is taken apart into them. -/
theorem elements_markup {es : List (Str × Str)} (h : ∀ e ∈ es, Separate e) :
    elements (markup es) = es := by
  have hsplit := splitOn_markup h List.not_mem_nil
  rw [List.nil_append] at hsplit
  unfold elements
  rw [hsplit, List.tail_cons, List.map_map]
  conv_rhs => rw [← List.map_id es]
  apply List.map_congr_left
  intro e he
  exact element_piece (h e he).closing

/-! ### Entities -/

def entity (c : Char) : Str :=
  if c = '&' then "&amp;".toList else if c = '<' then "&lt;".toList
  else if c = '>' then "&gt;".toList else [c]

/-- Replace the predefined entities. -/
def unescape : Str → Str
  | [] => []
  | '&' :: 'a' :: 'm' :: 'p' :: ';' :: s => '&' :: unescape s
  | '&' :: 'l' :: 't' :: ';' :: s => '<' :: unescape s
  | '&' :: 'g' :: 't' :: ';' :: s => '>' :: unescape s
  | '&' :: 'q' :: 'u' :: 'o' :: 't' :: ';' :: s => '"' :: unescape s
  | '&' :: 'a' :: 'p' :: 'o' :: 's' :: ';' :: s => '\'' :: unescape s
  | c :: s => c :: unescape s

theorem unescape_plain {c : Char} (hc : c ≠ '&') (s : Str) :
    unescape (c :: s) = c :: unescape s := by
  rw [unescape.eq_def]
  split <;> simp_all

theorem unescape_entity (c : Char) (s : Str) : unescape (entity c ++ s) = c :: unescape s := by
  unfold entity
  by_cases hamp : c = '&'
  · subst hamp
    rfl
  by_cases hlt : c = '<'
  · subst hlt
    rfl
  by_cases hgt : c = '>'
  · subst hgt
    rfl
  rw [if_neg hamp, if_neg hlt, if_neg hgt]
  exact unescape_plain hamp s

theorem unescape_escaped (s : Str) : unescape (s.flatMap entity) = s := by
  induction s with
  | nil => rfl
  | cons c s ih => rw [List.flatMap_cons, unescape_entity, ih]

/-- An escaped text has no brackets. -/
theorem notMem_escaped {c : Char} (hc : c = '<' ∨ c = '>') (s : Str) : c ∉ s.flatMap entity := by
  intro hmem
  obtain ⟨d, -, hd⟩ := List.mem_flatMap.mp hmem
  have hentities : c ∉ "&amp;".toList ∧ c ∉ "&lt;".toList ∧ c ∉ "&gt;".toList := by
    rcases hc with rfl | rfl <;> decide
  unfold entity at hd
  split at hd
  · exact hentities.1 hd
  split at hd
  · exact hentities.2.1 hd
  rename_i hlt
  split at hd
  · exact hentities.2.2 hd
  rename_i hgt
  -- the character stands for itself
  obtain rfl := List.mem_singleton.mp hd
  rcases hc with hc | hc
  · exact hlt hc
  · exact hgt hc

/-- Ampersands first, and then the brackets, is one pass. -/
theorem entities_in_turn (s : Str) :
    replace_char '>' "&gt;".toList (replace_char '<' "&lt;".toList
      (replace_char '&' "&amp;".toList s)) = s.flatMap entity := by
  unfold replace_char
  rw [List.flatMap_assoc, List.flatMap_assoc]
  apply List.flatMap_congr
  intro c _
  unfold entity
  by_cases hamp : c = '&'
  · subst hamp
    rfl
  by_cases hlt : c = '<'
  · subst hlt
    rfl
  by_cases hgt : c = '>'
  · subst hgt
    rfl
  simp [hamp, hlt, hgt]

end Markup
