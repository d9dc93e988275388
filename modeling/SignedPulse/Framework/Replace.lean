import Mathlib.Data.List.Infix
import Mathlib.Data.List.Count

/-! # Replacement

    `replace` puts a text in the place of every occurrence of a pattern; `fill`
    does so for several patterns in one scan, from left to right, that never
    looks at what it has put in.

    A pattern is bracketed when it begins with an opening symbol, ends with a
    closing one, and has neither in between. Occurrences of bracketed patterns
    do not overlap, and this file shows for them

    - replacing a pattern and then filling the others is one scan, if what is
      put in is `Inert`: it has no brackets and is not a part of the others
    - in general it is one scan iff the replacement adds no occurrence of the
      others
-/

universe u

namespace Replace

variable {A : Type u}

/-- Patterns, each with the text that takes its place. -/
abbrev Table (A : Type u) := List (List A × List A)

/-! ### Bracketed patterns -/

/-- An opening symbol, a name without either symbol, and a closing symbol. -/
def Bracketed (o c : A) (p : List A) : Prop :=
  ∃ name, p = o :: (name ++ [c]) ∧ o ∉ name ++ [c] ∧ c ∉ name

variable {o c : A} {σ : Table A} {p v s s' : List A}

theorem Bracketed.ne_nil (hp : Bracketed o c p) : p ≠ [] := by
  obtain ⟨name, rfl, -, -⟩ := hp
  exact List.cons_ne_nil _ _

/-- Names that end at their first closing symbol. -/
theorem name_unique {name name' : List A} (hname : c ∉ name) (hname' : c ∉ name')
    (h : name ++ [c] <+: s) (h' : name' ++ [c] <+: s) : name = name' := by
  induction name generalizing name' s with
  | nil =>
    cases name' with
    | nil => rfl
    | cons b name' =>
      obtain ⟨rest, rfl⟩ := h
      obtain ⟨rfl, -⟩ := List.cons_prefix_cons.mp h'
      exact absurd List.mem_cons_self hname'
  | cons a name ih =>
    obtain ⟨rest, rfl⟩ := h
    cases name' with
    | nil =>
      obtain ⟨rfl, -⟩ := List.cons_prefix_cons.mp h'
      exact absurd List.mem_cons_self hname
    | cons b name' =>
      obtain ⟨rfl, htail⟩ := List.cons_prefix_cons.mp h'
      rw [ih (List.not_mem_of_not_mem_cons hname) (List.not_mem_of_not_mem_cons hname')
        ⟨rest, rfl⟩ htail]

/-- A text begins with one bracketed pattern at most. -/
theorem Bracketed.unique {q : List A} (hp : Bracketed o c p) (hq : Bracketed o c q)
    (h : p <+: s) (h' : q <+: s) : p = q := by
  obtain ⟨name, rfl, -, hname⟩ := hp
  obtain ⟨name', rfl, -, hname'⟩ := hq
  obtain ⟨rest, rfl⟩ := h
  have htail := (List.cons_prefix_cons.mp h').2
  rw [name_unique hname hname' ⟨rest, rfl⟩ htail]

/-! ### Texts that differ in what stands for a pattern -/

/-- The second text has `v` at some of the places where the first has `p`. -/
inductive Swapped (p v : List A) : List A → List A → Prop
  | nil : Swapped p v [] []
  | cons (a : A) {s s' : List A} : Swapped p v s s' → Swapped p v (a :: s) (a :: s')
  | swap {s s' : List A} : Swapped p v s s' → Swapped p v (p ++ s) (v ++ s')

theorem Swapped.append_left (w : List A) (h : Swapped p v s s') :
    Swapped p v (w ++ s) (w ++ s') := by
  induction w with
  | nil => exact h
  | cons a w ih => exact .cons a ih

/-- What can stand in a text without completing a pattern of the table. -/
structure Inert (o c : A) (σ : Table A) (v : List A) : Prop where
  no_open : o ∉ v
  no_close : c ∉ v
  no_part : ∀ e ∈ σ, ¬ v <:+: e.1

/-- The rest of a pattern stands in both texts or in neither. -/
theorem Swapped.rest_iff (h : Swapped p v s s') (hp : Bracketed o c p) (hclose : c ∉ v)
    {rest : List A} (hopen : o ∉ rest ++ [c]) (hrest : c ∉ rest) (hpart : ¬ v <:+: rest) :
    rest ++ [c] <+: s ↔ rest ++ [c] <+: s' := by
  induction h generalizing rest with
  | nil => rfl
  | cons a h ih =>
    cases rest with
    | nil => simp [List.cons_prefix_cons]
    | cons b rest =>
      have htail : ¬ v <:+: rest := fun h => hpart (h.trans (List.suffix_cons b rest).isInfix)
      rw [List.cons_append, List.cons_prefix_cons, List.cons_prefix_cons,
        ih (List.not_mem_of_not_mem_cons hopen) (List.not_mem_of_not_mem_cons hrest) htail]
  | swap h ih =>
    obtain ⟨name, rfl, -, -⟩ := hp
    constructor
    · -- the first text has the opening symbol here
      intro hprefix
      cases rest with
      | nil => exact absurd (by simp [(List.cons_prefix_cons.mp hprefix).1]) hopen
      | cons b rest => exact absurd (by simp [(List.cons_prefix_cons.mp hprefix).1]) hopen
    · -- the second has all of `v` within the name
      intro hprefix
      rcases List.prefix_or_prefix_of_prefix hprefix (List.prefix_append v _) with hin | hin
      · exact absurd (hin.subset (by simp)) hclose
      · rcases List.prefix_concat_iff.mp hin with heq | hin
        · exact absurd (by simp [heq]) hclose
        · exact absurd hin.isInfix hpart

/-- So the same patterns begin in both. -/
theorem Swapped.begins_iff (h : Swapped p v s s') (hp : Bracketed o c p) {σ : Table A}
    (hσ : ∀ e ∈ σ, Bracketed o c e.1) (hv : Inert o c σ v) (a : A) {e : List A × List A}
    (he : e ∈ σ) : e.1 <+: a :: s ↔ e.1 <+: a :: s' := by
  obtain ⟨name, hname, hopen, hclose⟩ := hσ e he
  have hpart : ¬ v <:+: name := by
    intro hin
    apply hv.no_part e he
    rw [hname]
    exact hin.trans ⟨[o], [c], rfl⟩
  rw [hname, List.cons_prefix_cons, List.cons_prefix_cons,
    h.rest_iff hp hv.no_close hopen hclose hpart]

variable [DecidableEq A]

/-! ### One scan -/

/-- The first entry whose pattern the text begins with. -/
def starting (σ : Table A) (s : List A) : Option (List A × List A) :=
  σ.find? (fun e => e.1.isPrefixOf s)

/-- The scan; the next `skip` symbols belong to an occurrence that has been replaced. -/
def fill_from (σ : Table A) : (skip : Nat) → List A → List A
  | _, [] => []
  | skip + 1, _ :: s => fill_from σ skip s
  | 0, a :: s =>
    match starting σ (a :: s) with
    | some e => e.2 ++ fill_from σ (e.1.length - 1) s
    | none => a :: fill_from σ 0 s

def fill (σ : Table A) (s : List A) : List A := fill_from σ 0 s

/-- Every occurrence of a pattern, which is not empty, from left to right. -/
def replace (p v s : List A) : List A := fill [(p, v)] s

/-- At how many places a pattern begins. -/
def occurrences (σ : Table A) : List A → Nat
  | [] => 0
  | a :: s => occurrences σ s + if (starting σ (a :: s)).isSome then 1 else 0

theorem starting_eq_none {σ : Table A} {s : List A} :
    starting σ s = none ↔ ∀ e ∈ σ, ¬ e.1 <+: s := by
  simp [starting, List.find?_eq_none]

theorem starting_some {σ : Table A} {s : List A} {e : List A × List A}
    (h : starting σ s = some e) : e ∈ σ ∧ e.1 <+: s := by
  constructor
  · exact List.mem_of_find?_eq_some h
  · simpa using List.find?_some h

theorem starting_congr {σ : Table A} {s s' : List A}
    (h : ∀ e ∈ σ, e.1 <+: s ↔ e.1 <+: s') : starting σ s = starting σ s' := by
  unfold starting
  induction σ with
  | nil => rfl
  | cons e σ ih =>
    have hhead : e.1.isPrefixOf s = e.1.isPrefixOf s' := by
      rw [Bool.eq_iff_iff, List.isPrefixOf_iff_prefix, List.isPrefixOf_iff_prefix]
      exact h e List.mem_cons_self
    rw [List.find?_cons, List.find?_cons, hhead, ih fun e' he' => h e' (List.mem_cons_of_mem _ he')]

theorem fill_from_eq (σ : Table A) (n : Nat) (s : List A) :
    fill_from σ n s = fill σ (s.drop n) := by
  induction s generalizing n with
  | nil => cases n <;> rfl
  | cons a s ih =>
    cases n with
    | zero => rfl
    | succ n => exact ih n

theorem fill_cons {σ : Table A} {a : A} {s : List A} (h : starting σ (a :: s) = none) :
    fill σ (a :: s) = a :: fill σ s := by
  rw [fill, fill_from, h]
  rfl

theorem fill_append {σ : Table A} {e : List A × List A} {s : List A} (hne : e.1 ≠ [])
    (h : starting σ (e.1 ++ s) = some e) : fill σ (e.1 ++ s) = e.2 ++ fill σ s := by
  obtain ⟨a, p, hp⟩ := List.exists_cons_of_ne_nil hne
  rw [hp, List.cons_append] at h ⊢
  rw [fill, fill_from, h]
  dsimp only
  rw [fill_from_eq, hp, List.length_cons, Nat.add_sub_cancel, List.drop_left]

theorem fill_empty (s : List A) : fill [] s = s := by
  induction s with
  | nil => rfl
  | cons a s ih => rw [fill_cons rfl, ih]

/-- Induction along the scan: an occurrence at a time, or a symbol where none begins. -/
theorem scan_induction (σ : Table A) {motive : List A → Prop} (hne : ∀ e ∈ σ, e.1 ≠ [])
    (nil : motive [])
    (occurrence : ∀ e s, starting σ (e.1 ++ s) = some e → motive s → motive (e.1 ++ s))
    (symbol : ∀ a s, starting σ (a :: s) = none → motive s → motive (a :: s)) (s : List A) :
    motive s := by
  induction hn : s.length using Nat.strong_induction_on generalizing s with
  | _ n ih =>
    cases s with
    | nil => exact nil
    | cons a s =>
      cases h : starting σ (a :: s) with
      | none => exact symbol a s h (ih s.length (by rw [← hn]; simp) s rfl)
      | some e =>
        obtain ⟨hmem, rest, hrest⟩ := starting_some h
        have hlen : rest.length < n := by
          have hpos := List.length_pos_iff.mpr (hne e hmem)
          rw [← hn, ← hrest, List.length_append]
          omega
        rw [← hrest] at h ⊢
        exact occurrence e rest h (ih rest.length hlen rest rfl)

/-! ### Bracketed patterns in the scan -/

theorem Bracketed.count_open (hp : Bracketed o c p) : p.count o = 1 := by
  obtain ⟨name, rfl, hopen, -⟩ := hp
  rw [List.count_cons_self, List.count_eq_zero_of_not_mem hopen]

/-- No pattern begins at another symbol than the opening one. -/
theorem starting_of_ne (hσ : ∀ e ∈ σ, Bracketed o c e.1) {a : A} (ha : a ≠ o) :
    starting σ (a :: s) = none := by
  refine starting_eq_none.mpr fun e he hprefix => ?_
  obtain ⟨name, hname, -, -⟩ := hσ e he
  rw [hname] at hprefix
  exact ha (List.cons_prefix_cons.mp hprefix).1.symm

theorem fill_append_left (hσ : ∀ e ∈ σ, Bracketed o c e.1) (hv : o ∉ v) :
    fill σ (v ++ s) = v ++ fill σ s := by
  induction v with
  | nil => rfl
  | cons a v ih =>
    rw [List.mem_cons, not_or] at hv
    rw [List.cons_append, fill_cons (starting_of_ne hσ (Ne.symm hv.1)), ih hv.2, List.cons_append]

theorem occurrences_append_left (hσ : ∀ e ∈ σ, Bracketed o c e.1) (hv : o ∉ v) :
    occurrences σ (v ++ s) = occurrences σ s := by
  induction v with
  | nil => rfl
  | cons a v ih =>
    rw [List.mem_cons, not_or] at hv
    rw [List.cons_append, occurrences, starting_of_ne hσ (Ne.symm hv.1), ih hv.2]
    rfl

theorem occurrences_le_append (v s : List A) : occurrences σ s ≤ occurrences σ (v ++ s) := by
  induction v with
  | nil => exact le_refl _
  | cons a v ih => exact le_trans ih (Nat.le_add_right _ _)

/-- What the table makes of a pattern that the text begins with. -/
theorem starting_pattern (hσ : ∀ e ∈ σ, Bracketed o c e.1) (hp : Bracketed o c p) :
    starting σ (p ++ s) = starting σ p := by
  refine starting_congr fun e he => ?_
  constructor
  · intro h
    rw [(hσ e he).unique hp h (List.prefix_append p s)]
  · intro h
    exact h.trans (List.prefix_append p s)

theorem starting_other (hσ : ∀ e ∈ σ, Bracketed o c e.1) (hp : Bracketed o c p)
    (hnew : ∀ e ∈ σ, e.1 ≠ p) : starting σ (p ++ s) = none :=
  starting_eq_none.mpr fun e he h => hnew e he ((hσ e he).unique hp h (List.prefix_append p s))

/-- A pattern that is not in the table is copied. -/
theorem fill_other (hσ : ∀ e ∈ σ, Bracketed o c e.1) (hp : Bracketed o c p)
    (hnew : ∀ e ∈ σ, e.1 ≠ p) : fill σ (p ++ s) = p ++ fill σ s := by
  have hnone := starting_other (s := s) hσ hp hnew
  obtain ⟨name, rfl, hopen, -⟩ := hp
  rw [List.cons_append] at hnone ⊢
  rw [fill_cons hnone, fill_append_left hσ hopen, List.cons_append]

theorem occurrences_pattern (hσ : ∀ e ∈ σ, Bracketed o c e.1) (hp : Bracketed o c p) :
    occurrences σ (p ++ s) = occurrences σ s + if (starting σ (p ++ s)).isSome then 1 else 0 := by
  obtain ⟨name, rfl, hopen, -⟩ := hp
  rw [List.cons_append, occurrences, occurrences_append_left hσ hopen]

/-! ### Texts that fill no pattern -/

/-- Swapping a pattern that is not in the table for an inert text leaves the occurrences alone. -/
theorem Swapped.occurrences_eq (h : Swapped p v s s') (hσ : ∀ e ∈ σ, Bracketed o c e.1)
    (hp : Bracketed o c p) (hnew : ∀ e ∈ σ, e.1 ≠ p) (hv : Inert o c σ v) :
    occurrences σ s = occurrences σ s' := by
  induction h with
  | nil => rfl
  | cons a h ih =>
    rw [occurrences, occurrences, ih, starting_congr fun e he => h.begins_iff hp hσ hv a he]
  | swap h ih =>
    rw [occurrences_pattern hσ hp, starting_other hσ hp hnew, occurrences_append_left hσ hv.no_open,
      ih]
    rfl

/-! ### One pattern more -/

section one_more
variable (hσ : ∀ e ∈ σ, Bracketed o c e.1) (hp : Bracketed o c p)
include hσ hp

/-- Induction along the scan for a table and one pattern more. -/
theorem one_more_induction {motive : List A → Prop} (nil : motive [])
    (first : ∀ s, motive s → motive (p ++ s))
    (other : ∀ e s, e ∈ σ → starting σ (e.1 ++ s) = some e → motive s → motive (e.1 ++ s))
    (symbol : ∀ a s, starting σ (a :: s) = none → ¬ p <+: a :: s → motive s → motive (a :: s))
    (s : List A) : motive s := by
  have hne : ∀ e ∈ (p, p) :: σ, e.1 ≠ [] :=
    List.forall_mem_cons.mpr ⟨hp.ne_nil, fun e he => (hσ e he).ne_nil⟩
  refine scan_induction ((p, p) :: σ) hne nil ?_ ?_ s
  · intro e s hstart ih
    rw [starting, List.find?_cons] at hstart
    split at hstart
    · obtain rfl := Option.some.inj hstart
      exact first s ih
    · exact other e s (starting_some hstart).1 hstart ih
  · intro a s hstart ih
    rw [starting_eq_none, List.forall_mem_cons] at hstart
    exact symbol a s (starting_eq_none.mpr hstart.2) hstart.1 ih

omit hσ in
theorem fill_first : fill ((p, v) :: σ) (p ++ s) = v ++ fill ((p, v) :: σ) s := by
  have hstart : starting ((p, v) :: σ) (p ++ s) = some (p, v) := by
    rw [starting, List.find?_cons_of_pos]
    exact List.isPrefixOf_iff_prefix.mpr (List.prefix_append p s)
  exact fill_append (e := (p, v)) hp.ne_nil hstart

omit [DecidableEq A] in
theorem not_first (hnew : ∀ e ∈ σ, e.1 ≠ p) {e : List A × List A} (he : e ∈ σ) (s : List A) :
    ¬ p <+: e.1 ++ s := fun h =>
  hnew e he ((hσ e he).unique hp (List.prefix_append e.1 s) h)

theorem fill_rest (hnew : ∀ e ∈ σ, e.1 ≠ p) {e : List A × List A} (he : e ∈ σ)
    (hstart : starting σ (e.1 ++ s) = some e) :
    fill ((p, v) :: σ) (e.1 ++ s) = e.2 ++ fill ((p, v) :: σ) s := by
  refine fill_append (hσ e he).ne_nil ?_
  rw [starting, List.find?_cons_of_neg]
  · exact hstart
  · rw [List.isPrefixOf_iff_prefix]
    exact not_first hσ hp hnew he s

omit hσ hp in
theorem fill_symbol {a : A} (hstart : starting σ (a :: s) = none) (hfirst : ¬ p <+: a :: s) :
    fill ((p, v) :: σ) (a :: s) = a :: fill ((p, v) :: σ) s :=
  fill_cons (starting_eq_none.mpr (List.forall_mem_cons.mpr ⟨hfirst, starting_eq_none.mp hstart⟩))

omit hσ in
theorem replace_first : replace p v (p ++ s) = v ++ replace p v s :=
  fill_first hp

theorem replace_other (hnew : ∀ e ∈ σ, e.1 ≠ p) {e : List A × List A} (he : e ∈ σ) :
    replace p v (e.1 ++ s) = e.1 ++ replace p v s :=
  fill_other (List.forall_mem_singleton.mpr hp) (hσ e he)
    (List.forall_mem_singleton.mpr (hnew e he).symm)

omit hσ hp in
theorem replace_symbol {a : A} (hfirst : ¬ p <+: a :: s) :
    replace p v (a :: s) = a :: replace p v s :=
  fill_symbol rfl hfirst

/-- Filling one pattern more is a swap. -/
theorem fill_swapped (hnew : ∀ e ∈ σ, e.1 ≠ p) (v s : List A) :
    Swapped p v (fill σ s) (fill ((p, v) :: σ) s) := by
  induction s using one_more_induction hσ hp with
  | nil => exact .nil
  | first s ih =>
    rw [fill_first hp, fill_other hσ hp hnew]
    exact .swap ih
  | other e s he hstart ih =>
    rw [fill_rest hσ hp hnew he hstart, fill_append (hσ e he).ne_nil hstart]
    exact ih.append_left e.2
  | symbol a s hstart hfirst ih =>
    rw [fill_symbol hstart hfirst, fill_cons hstart]
    exact .cons a ih

omit hσ in
theorem replace_swapped : Swapped p v s (replace p v s) := by
  have h := fill_swapped (σ := []) (by simp) hp (by simp) v s
  rwa [fill_empty] at h

/-- Replacing a pattern by an inert text, and then filling the others, is one scan. -/
theorem fill_replace (hnew : ∀ e ∈ σ, e.1 ≠ p) (hv : Inert o c σ v) (s : List A) :
    fill σ (replace p v s) = fill ((p, v) :: σ) s := by
  induction s using one_more_induction hσ hp with
  | nil => rfl
  | first s ih =>
    rw [replace_first hp, fill_append_left hσ hv.no_open, ih, fill_first hp]
  | other e s he hstart ih =>
    have hstart' : starting σ (e.1 ++ replace p v s) = some e := by
      rw [starting_pattern hσ (hσ e he), ← hstart, starting_pattern hσ (hσ e he)]
    rw [replace_other hσ hp hnew he, fill_append (hσ e he).ne_nil hstart', ih,
      fill_rest hσ hp hnew he hstart]
  | symbol a s hstart hfirst ih =>
    -- what is put in further on does not complete a pattern that begins here
    have hstart' : starting σ (a :: replace p v s) = none := by
      rw [← hstart]
      refine (starting_congr fun e he => ?_).symm
      exact (replace_swapped (v := v) hp).begins_iff hp hσ hv a he
    rw [replace_symbol hfirst, fill_cons hstart', ih, fill_symbol hstart hfirst]

/-! ### Occurrences that come up -/

theorem occurrences_replace_first (hnew : ∀ e ∈ σ, e.1 ≠ p) :
    occurrences σ (p ++ s) = occurrences σ s := by
  rw [occurrences_pattern hσ hp, starting_other hσ hp hnew]
  rfl

/-- A replacement never loses an occurrence of the others. -/
theorem occurrences_le_replace (hnew : ∀ e ∈ σ, e.1 ≠ p) (v s : List A) :
    occurrences σ s ≤ occurrences σ (replace p v s) := by
  induction s using one_more_induction hσ hp with
  | nil => exact le_refl _
  | first s ih =>
    rw [replace_first hp, occurrences_replace_first hσ hp hnew]
    exact le_trans ih (occurrences_le_append v _)
  | other e s he hstart ih =>
    rw [replace_other hσ hp hnew he, occurrences_pattern hσ (hσ e he),
      occurrences_pattern hσ (hσ e he),
      starting_pattern hσ (hσ e he), starting_pattern hσ (hσ e he)]
    omega
  | symbol a s hstart hfirst ih =>
    rw [replace_symbol hfirst, occurrences,
      occurrences, hstart]
    exact le_trans ih (Nat.le_add_right _ _)

omit hσ hp in
/-- Where no occurrence begins within a text, the scan copies it. -/
theorem fill_append_of_occurrences (h : occurrences σ (v ++ s) = occurrences σ s) :
    fill σ (v ++ s) = v ++ fill σ s := by
  induction v with
  | nil => rfl
  | cons a v ih =>
    have hle := occurrences_le_append (σ := σ) v s
    rw [List.cons_append, occurrences] at h
    cases hstart : starting σ (a :: (v ++ s)) with
    | some e =>
      rw [hstart] at h
      simp only [Option.isSome_some, if_true] at h
      omega
    | none =>
      rw [hstart] at h
      rw [List.cons_append, fill_cons hstart, ih h, List.cons_append]

omit hp in
/-- Each occurrence that is filled takes one opening symbol with it. -/
theorem count_fill (hvalues : ∀ e ∈ σ, o ∉ e.2) (s : List A) :
    (fill σ s).count o + occurrences σ s = s.count o := by
  induction s using scan_induction σ (fun e he => (hσ e he).ne_nil) with
  | nil => rfl
  | occurrence e s hstart ih =>
    have he := (starting_some hstart).1
    rw [fill_append (hσ e he).ne_nil hstart, occurrences_pattern hσ (hσ e he), hstart,
      List.count_append, List.count_append, List.count_eq_zero_of_not_mem (hvalues e he)]
    have hpattern := (hσ e he).count_open
    simp only [Option.isSome_some, if_true]
    omega
  | symbol a s hstart ih =>
    rw [fill_cons hstart, occurrences, hstart, List.count_cons, List.count_cons]
    simp only [Option.isSome_none, Bool.false_eq_true, if_false]
    omega

theorem count_fill_one_more (hnew : ∀ e ∈ σ, e.1 ≠ p) (hvalues : ∀ e ∈ σ, o ∉ e.2)
    (v s : List A) :
    (fill ((p, v) :: σ) s).count o + occurrences σ s = (replace p v s).count o := by
  induction s using one_more_induction hσ hp with
  | nil => rfl
  | first s ih =>
    rw [replace_first hp, fill_first hp, occurrences_replace_first hσ hp hnew, List.count_append,
      List.count_append]
    omega
  | other e s he hstart ih =>
    have hpattern := (hσ e he).count_open
    rw [replace_other hσ hp hnew he, fill_rest hσ hp hnew he hstart,
      occurrences_pattern hσ (hσ e he), hstart,
      List.count_append, List.count_append, List.count_eq_zero_of_not_mem (hvalues e he)]
    simp only [Option.isSome_some, if_true]
    omega
  | symbol a s hstart hfirst ih =>
    rw [replace_symbol hfirst,
      fill_symbol hstart hfirst, occurrences, hstart, List.count_cons, List.count_cons]
    simp only [Option.isSome_none, Bool.false_eq_true, if_false]
    omega

/-- Replacing a pattern by any text, and then filling the others, is one scan iff the replacement
    adds no occurrence of the others. -/
theorem fill_replace_iff (hnew : ∀ e ∈ σ, e.1 ≠ p) (hvalues : ∀ e ∈ σ, o ∉ e.2) (v s : List A) :
    fill σ (replace p v s) = fill ((p, v) :: σ) s ↔
      occurrences σ (replace p v s) = occurrences σ s := by
  constructor
  · intro h
    have hscan := count_fill_one_more hσ hp hnew hvalues v s
    have hchain := count_fill hσ hvalues (replace p v s)
    rw [← h] at hscan
    omega
  · intro h
    induction s using one_more_induction hσ hp with
    | nil => rfl
    | first s ih =>
      have hle := occurrences_le_replace hσ hp hnew v s
      have happend := occurrences_le_append (σ := σ) v (replace p v s)
      rw [replace_first hp] at h ⊢
      rw [occurrences_replace_first hσ hp hnew] at h
      rw [fill_append_of_occurrences (by omega), ih (by omega), fill_first hp]
    | other e s he hstart ih =>
      have hstart' : starting σ (e.1 ++ replace p v s) = some e := by
        rw [starting_pattern hσ (hσ e he), ← hstart, starting_pattern hσ (hσ e he)]
      rw [replace_other hσ hp hnew he, occurrences_pattern hσ (hσ e he),
        occurrences_pattern hσ (hσ e he), hstart,
        hstart'] at h
      rw [replace_other hσ hp hnew he, fill_append (hσ e he).ne_nil hstart',
        ih (Nat.add_right_cancel h),
        fill_rest hσ hp hnew he hstart]
    | symbol a s hstart hfirst ih =>
      have hle := occurrences_le_replace hσ hp hnew v s
      rw [replace_symbol hfirst] at h ⊢
      rw [occurrences, occurrences, hstart] at h
      simp only [Option.isSome_none, Bool.false_eq_true, if_false] at h
      cases hstart' : starting σ (a :: replace p v s) with
      | some e =>
        -- an occurrence that begins here is one too many
        rw [hstart'] at h
        simp only [Option.isSome_some, if_true] at h
        omega
      | none =>
        rw [hstart'] at h
        rw [fill_cons hstart', ih h, fill_symbol hstart hfirst]

end one_more

/-- An inert text in the place of a pattern more changes nothing for the others. -/
theorem occurrences_fill {τ : Table A} (hσ : ∀ e ∈ σ, Bracketed o c e.1)
    (hτ : ∀ e ∈ τ, Bracketed o c e.1) (hp : Bracketed o c p) (hnewσ : ∀ e ∈ σ, e.1 ≠ p)
    (hnewτ : ∀ e ∈ τ, e.1 ≠ p) (hv : Inert o c τ v) (s : List A) :
    occurrences τ (fill ((p, v) :: σ) s) = occurrences τ (fill σ s) :=
  ((fill_swapped hσ hp hnewσ v s).occurrences_eq hτ hp hnewτ hv).symm

end Replace
