/-
TriageDesk.Proofs.Text.Search — what searching text finds.

A text is cut at a word exactly when the word is a part of it
(`cutAtFirst_eq_none_iff`). A word that lacks a character lies before it or
after it, never across it (`isInfix_append_cons`), so that replacing the word
goes on separately on both sides (`replaceAll_append_cons`). Pieces without the separator
are split as they were joined (`splitOn_join`), whatever is split is joined again
(`join_splitOn`), and blanks around a text make no difference to what trimming leaves
(`trim_gaps`).
-/
import Mathlib.Data.List.Infix
import Mathlib.Data.List.TakeWhile
import TriageDesk.Text.Blank
import TriageDesk.Text.Search

namespace TriageDesk.Text

variable {word text rest : List Char}

/-! ## Words at the front -/

theorem after?_eq_some_iff : after? word text = some rest ↔ text = word ++ rest := by
  induction word generalizing text with
  | nil => simp [after?]
  | cons w word ih =>
    cases text with
    | nil => simp [after?]
    | cons c text =>
      rw [after?]
      split_ifs with same
      · rw [ih, same]
        simp
      · simp [Ne.symm same]

theorem startsWith_iff : startsWith word text = true ↔ word <+: text := by
  rw [startsWith, Option.isSome_iff_exists]
  simp only [after?_eq_some_iff]
  exact ⟨fun ⟨rest, same⟩ => ⟨rest, same.symm⟩, fun ⟨rest, same⟩ => ⟨rest, same.symm⟩⟩

/-- Texts that are cut at their first occurrences of a character have equal parts if they are
equal. -/
theorem append_cons_inj {c : Char} {a a' b b' : List Char} (lacks : c ∉ a) (lacks' : c ∉ a')
    (same : a ++ c :: b = a' ++ c :: b') : a = a' ∧ b = b' := by
  induction a generalizing a' with
  | nil =>
    cases a' with
    | nil => exact ⟨rfl, List.tail_eq_of_cons_eq same⟩
    | cons d a' => exact absurd ((List.cons_eq_cons.mp same).1 ▸ List.mem_cons_self) lacks'
  | cons d a ih =>
    cases a' with
    | nil => exact absurd ((List.cons_eq_cons.mp same).1 ▸ List.mem_cons_self) lacks
    | cons d' a' =>
      obtain ⟨rfl, rest⟩ := List.cons_eq_cons.mp same
      rw [List.mem_cons, not_or] at lacks lacks'
      obtain ⟨rfl, behind⟩ := ih lacks.2 lacks'.2 rest
      exact ⟨rfl, behind⟩

/-! ## Words inside -/

theorem cutAtFirst_eq_none_iff : cutAtFirst word text = none ↔ ¬ word <:+: text := by
  induction text with
  | nil =>
    rw [cutAtFirst, List.infix_nil]
    split_ifs with empty <;> simp [empty]
  | cons c text ih =>
    rw [cutAtFirst, List.infix_cons_iff, ← startsWith_iff, startsWith]
    cases after? word (c :: text) with
    | none => simp [ih]
    | some tail => simp

/-- A text begins with a word that lacks a character exactly when what stands before that
character does. -/
theorem isPrefix_append_cons {c : Char} (lacks : c ∉ word) (a b : List Char) :
    word <+: a ++ c :: b ↔ word <+: a := by
  induction a generalizing word with
  | nil =>
    constructor
    · intro front
      rcases List.prefix_cons_iff.mp front with rfl | ⟨tail, rfl, _⟩
      · exact List.nil_prefix
      · exact absurd List.mem_cons_self lacks
    · intro front
      rw [List.prefix_nil.mp front]
      exact List.nil_prefix
  | cons d a ih =>
    cases word with
    | nil => simp
    | cons w word =>
      rw [List.cons_append, List.cons_prefix_cons, List.cons_prefix_cons,
        ih fun among => lacks (List.mem_cons_of_mem _ among)]

/-- A word that lacks a character lies before it or after it. -/
theorem isInfix_append_cons {c : Char} (lacks : c ∉ word) (a b : List Char) :
    word <:+: a ++ c :: b ↔ word <:+: a ∨ word <:+: b := by
  constructor
  · rw [List.infix_append_iff, List.infix_cons_iff]
    rintro (inside | (front | inside) | ⟨first, last, rfl, ends, front⟩)
    · exact .inl inside
    · rcases List.prefix_cons_iff.mp front with rfl | ⟨tail, rfl, _⟩
      · exact .inl (List.nil_infix)
      · exact absurd List.mem_cons_self lacks
    · exact .inr inside
    · rcases List.prefix_cons_iff.mp front with rfl | ⟨tail, rfl, _⟩
      · rw [List.append_nil]
        exact .inl ends.isInfix
      · exact absurd (List.mem_append_right _ List.mem_cons_self) lacks
  · rintro (inside | inside)
    · exact inside.trans (List.prefix_append a _).isInfix
    · exact inside.trans ((List.suffix_cons c b).trans (List.suffix_append a _)).isInfix

/-- What does not have the first character of a word has no part in its occurrences. -/
theorem isInfix_append_of_notMem {c : Char} {before : List Char} (lacks : c ∉ before)
    (text : List Char) : (c :: word) <:+: before ++ text ↔ (c :: word) <:+: text := by
  induction before with
  | nil => rfl
  | cons d before ih =>
    rw [List.mem_cons, not_or] at lacks
    rw [List.cons_append, List.infix_cons_iff, List.cons_prefix_cons, ih lacks.2]
    simp [lacks.1]

/-! ## Cutting -/

/-- A cut text is put together again with the word. -/
theorem eq_of_cutAtFirst {before after : List Char}
    (cut : cutAtFirst word text = some (before, after)) : text = before ++ (word ++ after) := by
  induction text generalizing before with
  | nil =>
    rw [cutAtFirst] at cut
    split_ifs at cut with empty
    cases cut
    simp [empty]
  | cons c text ih =>
    rw [cutAtFirst] at cut
    cases found : after? word (c :: text) with
    | some tail =>
      rw [found] at cut
      cases cut
      rw [List.nil_append, after?_eq_some_iff.mp found]
    | none =>
      rw [found] at cut
      obtain ⟨⟨front, tail⟩, further, same⟩ := Option.map_eq_some_iff.mp cut
      cases same
      rw [ih further, List.cons_append]

/-- Where no occurrence begins in a part of the text, the cut is behind that part. -/
theorem cutAtFirst_through {before after : List Char}
    (apart : ∀ part, part <:+ before → part ≠ [] → ¬ word <+: part ++ after) :
    cutAtFirst word (before ++ after) =
      (cutAtFirst word after).map fun (front, tail) => (before ++ front, tail) := by
  induction before with
  | nil => simp
  | cons c before ih =>
    have here := apart (c :: before) (List.suffix_refl _) (List.cons_ne_nil _ _)
    have other : after? word (c :: (before ++ after)) = none := by
      rw [← List.cons_append, Option.eq_none_iff_forall_ne_some]
      intro rest found
      exact here ⟨rest, (after?_eq_some_iff.mp found).symm⟩
    rw [List.cons_append, cutAtFirst, other,
      ih fun part inside => apart part (inside.trans (List.suffix_cons c before))]
    cases cutAtFirst word after <;> rfl

/-- The cut is never across a character that the word lacks. -/
theorem cutAtFirst_append_cons {c : Char} {before : List Char} (lacks : c ∉ word)
    (free : ¬ word <:+: before) (after : List Char) :
    cutAtFirst word (before ++ c :: after) =
      (cutAtFirst word after).map fun (front, tail) => (before ++ c :: front, tail) := by
  have apart : ∀ part, part <:+ before ++ [c] → part ≠ [] → ¬ word <+: part ++ after := by
    intro part inside nonempty front
    rcases List.suffix_concat_iff.mp inside with rfl | ⟨start, rfl, within⟩
    · exact nonempty rfl
    · rw [List.append_assoc, List.singleton_append, isPrefix_append_cons lacks] at front
      exact free (front.isInfix.trans within.isInfix)
  simpa using cutAtFirst_through apart

/-- The cut is behind a text without the first character of the word. -/
theorem cutAtFirst_lacking {c : Char} {before : List Char} (lacks : c ∉ before)
    (after : List Char) :
    cutAtFirst (c :: word) (before ++ after) =
      (cutAtFirst (c :: word) after).map fun (front, tail) => (before ++ front, tail) := by
  refine cutAtFirst_through fun part inside nonempty front => ?_
  obtain ⟨d, part, rfl⟩ := List.exists_cons_of_ne_nil nonempty
  obtain ⟨rfl, _⟩ := List.cons_prefix_cons.mp front
  exact lacks (inside.subset List.mem_cons_self)

/-- A word at the front is cut off. -/
theorem cutAtFirst_front (c : Char) (word rest : List Char) :
    cutAtFirst (c :: word) (c :: word ++ rest) = some ([], rest) := by
  have found : after? (c :: word) (c :: (word ++ rest)) = some rest :=
    after?_eq_some_iff.mpr rfl
  rw [List.cons_append, cutAtFirst, found]

/-- A word that does not begin as it ends is cut off where it stands, behind a text without
it: no occurrence reaches from that text into the word. -/
theorem cutAtFirst_word {c : Char} {before : List Char}
    (unbordered : ∀ part ∈ (c :: word).tails, part <+: c :: word → part = [] ∨ part = c :: word)
    (free : ¬ (c :: word) <:+: before) (rest : List Char) :
    cutAtFirst (c :: word) (before ++ (c :: word ++ rest)) = some (before, rest) := by
  rw [cutAtFirst_through, cutAtFirst_front]
  · simp
  · intro part inside nonempty front
    -- the occurrence ends in the word, so that what it has of the word is an end of itself
    obtain ⟨more, same⟩ := front
    rcases List.append_eq_append_iff.mp same with ⟨_, rfl, _⟩ | ⟨last, whole, continued⟩
    · exact free ((List.prefix_append _ _).isInfix.trans inside.isInfix)
    · have suffix : last <:+ c :: word := ⟨part, whole.symm⟩
      have begins : last <+: c :: word := by
        refine List.prefix_of_prefix_length_le ?_ (List.prefix_append _ rest) suffix.length_le
        exact ⟨more, continued.symm⟩
      rcases unbordered last ((List.mem_tails _ _).mpr suffix) begins with rfl | rfl
      · rw [List.append_nil] at whole
        exact free (whole ▸ inside.isInfix)
      · exact nonempty (List.append_left_eq_self.mp whole.symm)

/-! ## Replacing -/

/-- A character with which the word does not begin is copied. -/
theorem replaceAll_cons {c : Char} (value : List Char) (other : ¬ word <+: c :: text) :
    replaceAll word value (c :: text) = c :: replaceAll word value text := by
  rw [← startsWith_iff] at other
  rw [replaceAll, replaceScan, if_neg other, replaceAll]

/-- A text without the word stays as it is. -/
theorem replaceAll_eq_self (value : List Char) (free : ¬ word <:+: text) :
    replaceAll word value text = text := by
  induction text with
  | nil => rfl
  | cons c text ih =>
    rw [List.infix_cons_iff, not_or] at free
    rw [replaceAll_cons value free.1, ih free.2]

theorem replaceScan_append_cons {c w : Char} {value : List Char} (lacks : c ∉ w :: word)
    (a b : List Char) {skip : Nat} (within : skip ≤ a.length) :
    replaceScan (w :: word) value skip (a ++ c :: b) =
      replaceScan (w :: word) value skip a ++ c :: replaceScan (w :: word) value 0 b := by
  induction a generalizing skip with
  | nil =>
    obtain rfl : skip = 0 := Nat.le_zero.mp within
    have other : ¬ (w :: word) <+: c :: b := fun front =>
      lacks ((List.cons_prefix_cons.mp front).1 ▸ List.mem_cons_self)
    exact replaceAll_cons value other
  | cons d a ih =>
    cases skip with
    | succ skip => exact ih (Nat.le_of_succ_le_succ within)
    | zero =>
      have front : startsWith (w :: word) (d :: (a ++ c :: b)) = startsWith (w :: word) (d :: a) := by
        rw [Bool.eq_iff_iff, startsWith_iff, startsWith_iff]
        exact isPrefix_append_cons lacks (d :: a) b
      rw [List.cons_append, replaceScan, replaceScan, front]
      split_ifs with here
      · have fits := (startsWith_iff.mp here).length_le
        rw [ih (Nat.sub_le_of_le_add fits), List.append_assoc]
      · rw [ih (Nat.zero_le _), List.cons_append]

/-- Replacing a word that lacks a character goes on separately before and after it. -/
theorem replaceAll_append_cons {c w : Char} (value : List Char) (lacks : c ∉ w :: word)
    (a b : List Char) :
    replaceAll (w :: word) value (a ++ c :: b) =
      replaceAll (w :: word) value a ++ c :: replaceAll (w :: word) value b :=
  replaceScan_append_cons lacks a b (Nat.zero_le _)

/-- A part of the text in which no occurrence begins is copied. -/
theorem replaceAll_through {before after : List Char} (value : List Char)
    (apart : ∀ part, part <:+ before → part ≠ [] → ¬ word <+: part ++ after) :
    replaceAll word value (before ++ after) = before ++ replaceAll word value after := by
  induction before with
  | nil => rfl
  | cons c before ih =>
    have here := apart (c :: before) (List.suffix_refl _) (List.cons_ne_nil _ _)
    rw [List.cons_append] at here ⊢
    rw [replaceAll_cons value here, List.cons_append,
      ih fun part inside => apart part (inside.trans (List.suffix_cons c before))]

/-- A part of the text without the first character of the word is copied. -/
theorem replaceAll_lacking {c : Char} {before : List Char} (value : List Char) (lacks : c ∉ before)
    (after : List Char) :
    replaceAll (c :: word) value (before ++ after) = before ++ replaceAll (c :: word) value after := by
  refine replaceAll_through value fun part inside nonempty front => ?_
  obtain ⟨d, part, rfl⟩ := List.exists_cons_of_ne_nil nonempty
  obtain ⟨rfl, _⟩ := List.cons_prefix_cons.mp front
  exact lacks (inside.subset List.mem_cons_self)

/-- The characters of an occurrence that still have to pass leave nothing. -/
theorem replaceScan_skip (value before after : List Char) :
    replaceScan word value before.length (before ++ after) = replaceAll word value after := by
  induction before with
  | nil => rfl
  | cons c before ih => exact ih

/-- The word at the front becomes the value. -/
theorem replaceAll_front {c : Char} (value after : List Char) :
    replaceAll (c :: word) value (c :: word ++ after) =
      value ++ replaceAll (c :: word) value after := by
  rw [replaceAll, List.cons_append, replaceScan, ← List.cons_append,
    if_pos (startsWith_iff.mpr (List.prefix_append _ _))]
  exact congrArg (value ++ ·) (replaceScan_skip value word after)

/-- The word itself becomes the value. -/
theorem replaceAll_self {c : Char} (value : List Char) :
    replaceAll (c :: word) value (c :: word) = value := by
  simpa [replaceAll, replaceScan] using @replaceAll_front word c value []

/-- What replacing leaves is of the value or of the text. -/
theorem mem_replaceScan {c : Char} {value : List Char} {skip : Nat}
    (among : c ∈ replaceScan word value skip text) : c ∈ value ∨ c ∈ text := by
  induction text generalizing skip with
  | nil => cases skip <;> cases among
  | cons d text ih =>
    have later {skip : Nat} (among : c ∈ replaceScan word value skip text) :
        c ∈ value ∨ c ∈ d :: text := (ih among).imp_right (List.mem_cons_of_mem _)
    cases skip with
    | succ skip => exact later among
    | zero =>
      rw [replaceScan] at among
      split_ifs at among
      · exact (List.mem_append.mp among).elim .inl later
      · rcases List.mem_cons.mp among with rfl | among
        · exact .inr List.mem_cons_self
        · exact later among

theorem mem_replaceAll {c : Char} {value : List Char} (among : c ∈ replaceAll word value text) :
    c ∈ value ∨ c ∈ text := mem_replaceScan among

/-! ## Splitting -/

theorem splitOn_plain {sep : Char} {piece : List Char} (plain : sep ∉ piece) :
    splitOn sep piece = [piece] := by
  induction piece with
  | nil => rfl
  | cons c piece ih =>
    rw [List.mem_cons, not_or] at plain
    rw [splitOn, if_neg (Ne.symm plain.1), ih plain.2]

theorem splitOn_piece {sep : Char} {piece : List Char} (plain : sep ∉ piece) (rest : List Char) :
    splitOn sep (piece ++ sep :: rest) = piece :: splitOn sep rest := by
  induction piece with
  | nil => rw [List.nil_append, splitOn, if_pos rfl]
  | cons c piece ih =>
    rw [List.mem_cons, not_or] at plain
    rw [List.cons_append, splitOn, if_neg (Ne.symm plain.1), ih plain.2]

/-- Pieces without the separator are split as they were joined; no pieces at all read as an empty
one. -/
theorem splitOn_join {sep : Char} {pieces : List (List Char)} (some : pieces ≠ [])
    (plain : ∀ piece ∈ pieces, sep ∉ piece) : splitOn sep (join [sep] pieces) = pieces := by
  induction pieces with
  | nil => exact absurd rfl some
  | cons piece rest ih =>
    rw [List.forall_mem_cons] at plain
    cases rest with
    | nil => rw [join, splitOn_plain plain.1]
    | cons next more =>
      rw [join, List.append_assoc, List.singleton_append, splitOn_piece plain.1,
        ih (List.cons_ne_nil _ _) plain.2]
      exact List.cons_ne_nil _ _

theorem notMem_join {c sep : Char} (other : c ≠ sep) {pieces : List (List Char)}
    (lacks : ∀ piece ∈ pieces, c ∉ piece) : c ∉ join [sep] pieces := by
  induction pieces with
  | nil => exact List.not_mem_nil
  | cons piece rest ih =>
    rw [List.forall_mem_cons] at lacks
    cases rest with
    | nil => exact lacks.1
    | cons next more =>
      rw [join]
      · simp only [List.mem_append, List.mem_singleton, not_or]
        exact ⟨⟨lacks.1, other⟩, ih lacks.2⟩
      · exact List.cons_ne_nil _ _

theorem splitOn_ne_nil (sep : Char) (text : List Char) : splitOn sep text ≠ [] := by
  cases text with
  | nil => exact List.cons_ne_nil _ _
  | cons c rest =>
    rw [splitOn]
    split
    · exact List.cons_ne_nil _ _
    · split <;> exact List.cons_ne_nil _ _

theorem splitOn_sep (sep : Char) (rest : List Char) :
    splitOn sep (sep :: rest) = [] :: splitOn sep rest := by
  rw [splitOn, if_pos rfl]

/-- A character that does not separate belongs to the first piece. -/
theorem splitOn_other {sep c : Char} (other : c ≠ sep) (rest : List Char) :
    ∃ first more, splitOn sep rest = first :: more ∧
      splitOn sep (c :: rest) = (c :: first) :: more := by
  obtain ⟨first, more, cut⟩ := List.exists_cons_of_ne_nil (splitOn_ne_nil sep rest)
  exact ⟨first, more, cut, by rw [splitOn, if_neg other, cut]⟩

theorem notMem_splitOn {sep : Char} {text piece : List Char} (among : piece ∈ splitOn sep text) :
    sep ∉ piece := by
  induction text generalizing piece with
  | nil =>
    rw [List.mem_singleton.mp among]
    exact List.not_mem_nil
  | cons c rest ih =>
    by_cases same : c = sep
    · rw [same, splitOn_sep] at among
      rcases List.mem_cons.mp among with rfl | among
      · exact List.not_mem_nil
      · exact ih among
    · obtain ⟨first, more, cut, cut'⟩ := splitOn_other same rest
      rw [cut] at ih
      rw [cut'] at among
      rcases List.mem_cons.mp among with rfl | among
      · rw [List.mem_cons, not_or]
        exact ⟨Ne.symm same, ih List.mem_cons_self⟩
      · exact ih (List.mem_cons_of_mem _ among)

theorem join_cons (c : Char) (sep first : List Char) (more : List (List Char)) :
    join sep ((c :: first) :: more) = c :: join sep (first :: more) := by
  cases more <;> rfl

/-- What was split is joined again. -/
theorem join_splitOn (sep : Char) (text : List Char) : join [sep] (splitOn sep text) = text := by
  induction text with
  | nil => rfl
  | cons c rest ih =>
    by_cases same : c = sep
    · rw [same, splitOn_sep, join, ih]
      · rfl
      · exact splitOn_ne_nil sep rest
    · obtain ⟨first, more, cut, cut'⟩ := splitOn_other same rest
      rw [cut', join_cons, ← cut, ih]

/-- Two texts with a separator between them are split one after the other. -/
theorem splitOn_append (sep : Char) (a b : List Char) :
    splitOn sep (a ++ sep :: b) = splitOn sep a ++ splitOn sep b := by
  induction a with
  | nil => rw [List.nil_append, splitOn_sep]; rfl
  | cons c rest ih =>
    by_cases same : c = sep
    · rw [same, List.cons_append, splitOn_sep, splitOn_sep, ih, List.cons_append]
    · obtain ⟨first, more, cut, cut'⟩ := splitOn_other same rest
      rw [cut', List.cons_append, splitOn, if_neg same, ih, cut]
      rfl

theorem splitOnce_plain {sep : Char} (plain : sep ∉ text) : splitOnce sep text = none := by
  induction text with
  | nil => rfl
  | cons c text ih =>
    rw [List.mem_cons, not_or] at plain
    rw [splitOnce, if_neg (Ne.symm plain.1), ih plain.2, Option.map_none]

/-- The first separator is the one behind a text without it. -/
theorem splitOnce_append {sep : Char} {before : List Char} (plain : sep ∉ before)
    (after : List Char) : splitOnce sep (before ++ sep :: after) = some (before, after) := by
  induction before with
  | nil => rw [List.nil_append, splitOnce, if_pos rfl]
  | cons c before ih =>
    rw [List.mem_cons, not_or] at plain
    rw [List.cons_append, splitOnce, if_neg (Ne.symm plain.1), ih plain.2, Option.map_some]

/-! ## Trimming -/

theorem trimLeft_solid {c : Char} (solid : isBlank c = false) (rest : List Char) :
    trimLeft (c :: rest) = c :: rest :=
  List.dropWhile_cons_of_neg (by simp [solid])

theorem trimLeft_append {c : Char} (solid : isBlank c = false) (before rest : List Char) :
    trimLeft (before ++ c :: rest) = trimLeft before ++ c :: rest := by
  rw [trimLeft, List.dropWhile_append]
  split_ifs with blank
  · rw [List.dropWhile_cons_of_neg (by simp [solid]), trimLeft, List.isEmpty_iff.mp blank,
      List.nil_append]
  · rfl

theorem trimRight_append {c : Char} (solid : isBlank c = false) (text after : List Char) :
    trimRight (text ++ c :: after) = text ++ c :: trimRight after := by
  have mirrored := trimLeft_append solid after.reverse text.reverse
  rw [trimRight, trimRight, List.reverse_append, List.reverse_cons, List.append_assoc,
    List.singleton_append]
  rw [trimLeft, trimLeft] at mirrored
  rw [mirrored]
  simp

/-- A text that neither begins nor ends with a blank is not trimmed, whatever is around it. -/
theorem trim_around {first last : Char} (begins : isBlank first = false)
    (ends : isBlank last = false) (before inner after : List Char) :
    trim (before ++ (first :: (inner ++ [last]) ++ after)) =
      trimLeft before ++ (first :: (inner ++ [last]) ++ trimRight after) := by
  have right := trimRight_append ends (trimLeft before ++ first :: inner) after
  rw [trim, List.cons_append, trimLeft_append begins]
  simpa using right

/-- Blanks around a text make no difference to what trimming leaves. -/
theorem trim_gaps {gap gap' : List Char} (blank : gap.all isBlank = true)
    (blank' : gap'.all isBlank = true) (text : List Char) :
    trim (gap ++ (text ++ gap')) = trim text := by
  rw [List.all_eq_true] at blank blank'
  have before (more : List Char) : trimLeft (gap ++ more) = trimLeft more := by
    rw [trimLeft, List.dropWhile_append_of_pos blank, trimLeft]
  have behind (front : List Char) : trimRight (front ++ gap') = trimRight front := by
    rw [trimRight, List.reverse_append,
      List.dropWhile_append_of_pos fun c among => blank' c (List.mem_reverse.mp among), trimRight]
  have nothing : trimLeft gap' = [] := List.dropWhile_eq_nil_iff.mpr blank'
  rw [trim, before, trimLeft, List.dropWhile_append]
  split_ifs with empty
  · rw [← trimLeft, nothing, trim, trimLeft, List.isEmpty_iff.mp empty]
  · rw [behind, trim, trimLeft]

/-- A text that neither begins nor ends with a blank is not trimmed. -/
theorem trim_eq_self (begins : ∀ c ∈ text.head?, isBlank c = false)
    (ends : ∀ c ∈ text.getLast?, isBlank c = false) : trim text = text := by
  have left : trimLeft text = text := by
    cases text with
    | nil => rfl
    | cons c rest => exact trimLeft_solid (begins c rfl) rest
  rw [trim, left, trimRight]
  rw [← List.head?_reverse] at ends
  cases mirrored : text.reverse with
  | nil => rw [List.reverse_eq_nil_iff.mp mirrored, List.dropWhile_nil, List.reverse_nil]
  | cons c rest =>
    rw [mirrored] at ends
    rw [List.dropWhile_cons_of_neg (by simp [ends c rfl]), ← mirrored, List.reverse_reverse]

/-- Blanks around a text that neither begins nor ends with one are trimmed off. -/
theorem trim_blanks {first last : Char} (begins : isBlank first = false)
    (ends : isBlank last = false) {gap gap' : List Char} (blank : gap.all isBlank = true)
    (blank' : gap'.all isBlank = true) (inner : List Char) :
    trim (gap ++ (first :: (inner ++ [last]) ++ gap')) = first :: (inner ++ [last]) := by
  have alone := trim_around begins ends [] inner []
  rw [trim_gaps blank blank']
  simpa [trimLeft, trimRight] using alone

/-- A text is what trimming leaves of it, and blanks around that. -/
theorem exists_gaps (text : List Char) : ∃ gap gap', text = gap ++ (trim text ++ gap') ∧
    gap.all isBlank = true ∧ gap'.all isBlank = true := by
  refine ⟨text.takeWhile isBlank, ((trimLeft text).reverse.takeWhile isBlank).reverse, ?_, ?_, ?_⟩
  · have right : trim text ++ ((trimLeft text).reverse.takeWhile isBlank).reverse =
        trimLeft text := by
      rw [trim, trimRight, ← List.reverse_append, List.takeWhile_append_dropWhile,
        List.reverse_reverse]
    rw [right, trimLeft, List.takeWhile_append_dropWhile]
  · rw [List.all_takeWhile]
  · rw [List.all_reverse, List.all_takeWhile]

theorem trim_eq_nil_iff : trim text = [] ↔ text.all isBlank = true := by
  constructor
  · intro nothing
    obtain ⟨gap, gap', same, blank, blank'⟩ := exists_gaps text
    rw [same, nothing, List.nil_append, List.all_append, blank, blank', Bool.and_self]
  · intro blank
    have gaps := trim_gaps blank (show ([] : List Char).all isBlank = true from rfl) []
    rw [List.append_nil, List.append_nil] at gaps
    exact gaps.trans rfl

theorem trimmed_eq_empty_iff {s : String} : trimmed s = "" ↔ allBlank s = true := by
  rw [trimmed, ← String.toList_eq_nil_iff, String.toList_ofList, trim_eq_nil_iff, allBlank]

theorem trimLeft_isSuffix (text : List Char) : trimLeft text <:+ text := List.dropWhile_suffix _

theorem trimRight_isPrefix (text : List Char) : trimRight text <+: text := by
  rw [trimRight, ← List.reverse_suffix, List.reverse_reverse]
  exact List.dropWhile_suffix _

theorem trim_isInfix (text : List Char) : trim text <:+: text :=
  (trimRight_isPrefix _).isInfix.trans (trimLeft_isSuffix text).isInfix

/-! ## From one character to another -/

theorem fromFirst_isSuffix (c : Char) (text : List Char) : fromFirst c text <:+ text :=
  List.dropWhile_suffix _

theorem throughLast_isPrefix (c : Char) (text : List Char) : throughLast c text <+: text := by
  rw [throughLast, ← List.reverse_suffix, List.reverse_reverse]
  exact List.dropWhile_suffix _

/-- What begins with the first of the characters begins with it. -/
theorem eq_of_fromFirst {c d : Char} {rest : List Char} (found : fromFirst c text = d :: rest) :
    d = c := by
  induction text with
  | nil => cases found
  | cons e text ih =>
    by_cases same : e = c
    · rw [fromFirst, List.dropWhile_cons_of_neg (by simp [same])] at found
      exact (List.cons.inj found).1.symm.trans same
    · rw [fromFirst, List.dropWhile_cons_of_pos (by simp [same])] at found
      exact ih found

/-- What stands before the first of the characters is left out. -/
theorem fromFirst_append {c : Char} {before : List Char} (lacks : c ∉ before) (text : List Char) :
    fromFirst c (before ++ c :: text) = c :: text := by
  have others : ∀ d ∈ before, decide (d ≠ c) = true := by
    intro d among
    rw [decide_eq_true_iff]
    rintro rfl
    exact lacks among
  rw [fromFirst, List.dropWhile_append_of_pos others, List.dropWhile_cons_of_neg (by simp)]

/-- What stands after the last of the characters is left out. -/
theorem throughLast_append {c : Char} {after : List Char} (lacks : c ∉ after) (text : List Char) :
    throughLast c (text ++ c :: after) = text ++ [c] := by
  have mirrored := fromFirst_append (by rwa [List.mem_reverse] : c ∉ after.reverse) text.reverse
  rw [throughLast, List.reverse_append, List.reverse_cons, List.append_assoc,
    List.singleton_append]
  rw [fromFirst] at mirrored
  rw [mirrored]
  simp

end TriageDesk.Text
