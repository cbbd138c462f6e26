/-
TriageDesk.Proofs.Template.Pieces — templates as pieces, filled all at once.

A template is a sequence of literals and placeholders. Filling rewrites the
whole text three times for each parameter; `fill_write` says that this comes to
one reading of the pieces, in which every placeholder is exchanged for itself
(`filled`) and all else stays.

The invariant is `Delimited`: the marks that begin a placeholder, a dollar and
two braces, stand nowhere but at the placeholders that are left. So one rewriting
of the text is one change of the pieces (`replaceAll_chars`), and what stands in
the place of a placeholder keeps the invariant (`Delimited.map_pass`). That a
shorter name does not come before a longer one is in the order of filling
(`findSome?_dollar`).
-/
import Mathlib.Data.List.Basic
import TriageDesk.Proofs.Template.Filling

namespace TriageDesk.Template

open Text

/-! ## Pieces -/

/-- How a placeholder is spelled. -/
inductive Spelling
  | dotted
  | braced
  | dollar
deriving DecidableEq, Repr

/-- A name in a spelling. -/
def Spelling.write : Spelling → List Char → List Char
  | .dotted, name => '{' :: '{' :: '.' :: (name ++ ['}', '}'])
  | .braced, name => '{' :: '{' :: (name ++ ['}', '}'])
  | .dollar, name => '$' :: name

/-- What stands between the braces of a spelling. -/
def Spelling.inside : Spelling → List Char → List Char
  | .dotted, name => '.' :: name
  | _, name => name

theorem Spelling.write_of_ne {spelling : Spelling} (braces : spelling ≠ .dollar) (name : List Char) :
    spelling.write name = '{' :: '{' :: (spelling.inside name ++ ['}', '}']) := by
  cases spelling with
  | dollar => exact absurd rfl braces
  | dotted | braced => rfl

/-- A piece of a template. -/
inductive Piece
  | literal (text : String)
  | hole (spelling : Spelling) (name : String)
deriving DecidableEq, Repr

/-- The characters of a piece. -/
def Piece.chars : Piece → List Char
  | .literal text => text.toList
  | .hole spelling name => spelling.write name.toList

/-- The characters of pieces. -/
def chars (pieces : List Piece) : List Char := pieces.flatMap Piece.chars

/-- A template of pieces as text. -/
def write (pieces : List Piece) : String := String.ofList (chars pieces)

@[simp] theorem chars_nil : chars [] = [] := rfl

@[simp] theorem chars_cons (p : Piece) (rest : List Piece) :
    chars (p :: rest) = p.chars ++ chars rest := List.flatMap_cons

/-- A class of characters in which names are written has no marks of placeholders. -/
def Markless (word : Char → Bool) : Prop := ∀ c ∈ ['$', '{', '}', '.'], word c = false

instance (word : Char → Bool) : Decidable (Markless word) :=
  List.decidableBAll (word · = false) _

/-- A name of characters of a class. -/
def IsWord (word : Char → Bool) (name : String) : Prop :=
  name ≠ "" ∧ ∀ c ∈ name.toList, word c = true

instance (word : Char → Bool) (name : String) : Decidable (IsWord word name) :=
  have := List.decidableBAll (word · = true) name.toList
  inferInstanceAs (Decidable (_ ∧ _))

/-- Whether a name that no brace ends is ended by what follows it: by the end, or by a literal
that does not go on with the name. -/
def EndsName (word : Char → Bool) : List Piece → Prop
  | [] => True
  | .literal text :: _ => ∃ c ∈ text.toList.head?, word c = false
  | .hole .. :: _ => False

instance (word : Char → Bool) : (rest : List Piece) → Decidable (EndsName word rest)
  | [] => .isTrue trivial
  | .literal text :: _ =>
    decidable_of_iff (text.toList.head?.any (! word ·) = true) (by simp [EndsName, Option.any_eq_true])
  | .hole .. :: _ => .isFalse id

/-- Pieces that can be told apart in the text they make. -/
inductive Delimited (word : Char → Bool) : List Piece → Prop
  | nil : Delimited word []
  /-- A literal begins no placeholder, not even with what follows it: one that ends with a
  brace is the last piece. -/
  | literal {text : String} {rest : List Piece} (noDollar : '$' ∉ text.toList)
      (noBraces : ¬ ['{', '{'] <:+: text.toList)
      (ends : rest = [] ∨ text.toList.getLast? ≠ some '{') (tail : Delimited word rest) :
      Delimited word (.literal text :: rest)
  | hole {spelling : Spelling} {name : String} {rest : List Piece} (isWord : IsWord word name)
      (ends : spelling = .dollar → EndsName word rest) (tail : Delimited word rest) :
      Delimited word (.hole spelling name :: rest)

theorem delimited_literal_iff {word : Char → Bool} {text : String} {rest : List Piece} :
    Delimited word (.literal text :: rest) ↔
      '$' ∉ text.toList ∧ ¬ ['{', '{'] <:+: text.toList ∧
        (rest = [] ∨ text.toList.getLast? ≠ some '{') ∧ Delimited word rest := by
  constructor
  · rintro ⟨⟩
    exact ⟨‹_›, ‹_›, ‹_›, ‹_›⟩
  · rintro ⟨noDollar, noBraces, ends, tail⟩
    exact .literal noDollar noBraces ends tail

theorem delimited_hole_iff {word : Char → Bool} {spelling : Spelling} {name : String}
    {rest : List Piece} :
    Delimited word (.hole spelling name :: rest) ↔
      IsWord word name ∧ (spelling = .dollar → EndsName word rest) ∧ Delimited word rest := by
  constructor
  · rintro ⟨⟩
    exact ⟨‹_›, ‹_›, ‹_›⟩
  · rintro ⟨isWord, ends, tail⟩
    exact .hole isWord ends tail

instance (word : Char → Bool) : (pieces : List Piece) → Decidable (Delimited word pieces)
  | [] => .isTrue .nil
  | .literal _ :: rest =>
    have := instDecidableDelimited word rest
    decidable_of_iff' _ delimited_literal_iff
  | .hole _ _ :: rest =>
    have := instDecidableDelimited word rest
    decidable_of_iff' _ delimited_hole_iff

/-! ## What stands in the place of a placeholder -/

/-- The value of the longest name in a table that is among the first `n` characters of a
name, and the characters behind it. -/
def longestMatch? (params : Parameters) (name : List Char) : (n : Nat) → Option String
  | 0 => (params.get? "").map (· ++ String.ofList name)
  | n + 1 =>
    match params.get? (String.ofList (name.take (n + 1))) with
    | some value => some (value ++ String.ofList (name.drop (n + 1)))
    | none => longestMatch? params name n

/-- The text that a table gives for a placeholder: between braces the value of its name,
behind a dollar the value of the longest name that begins it, with the rest of it. -/
def given? (params : Parameters) : Spelling → String → Option String
  | .dollar, name => longestMatch? params name.toList name.length
  | _, name => params.get? name

/-- A piece of a template filled with parameters. -/
def filled (params : Parameters) : Piece → Piece
  | .literal text => .literal text
  | .hole spelling name =>
    match given? params spelling name with
    | some text => .literal text
    | none => .hole spelling name

theorem filled_filled (params : Parameters) (p : Piece) :
    filled params (filled params p) = filled params p := by
  cases p with
  | literal text => rfl
  | hole spelling name =>
    cases same : given? params spelling name with
    | none => simp only [filled, same]
    | some text => simp only [filled, same]

/-! ## One rewriting -/

/-- What follows a parameter's name in the name of a placeholder, if the one is found in the
other: a name between braces has to be found whole. -/
def Spelling.rest? : Spelling → (key name : String) → Option String
  | .dollar, key, name => (after? key.toList name.toList).map String.ofList
  | _, key, name => if key = name then some "" else none

/-- A piece after one spelling of a parameter has been replaced by its value. -/
def pass (spelling : Spelling) (param : String × String) : Piece → Piece
  | .literal text => .literal text
  | .hole own name =>
    if own = spelling then
      match spelling.rest? param.1 name with
      | some rest => .literal (param.2 ++ rest)
      | none => .hole own name
    else .hole own name

section
variable {word : Char → Bool} {pieces : List Piece} {key name value : String}

theorem IsWord.notMem (isWord : IsWord word name) {c : Char} (other : word c = false) :
    c ∉ name.toList := by
  intro among
  rw [isWord.2 c among] at other
  cases other

theorem IsWord.exists_cons (isWord : IsWord word name) : ∃ c rest, name.toList = c :: rest := by
  cases text : name.toList with
  | nil => exact absurd (String.toList_inj.mp text) isWord.1
  | cons c rest => exact ⟨c, rest, rfl⟩

/-- Behind a dollar a parameter is found exactly if its name begins the one that stands there. -/
theorem dollar_isPrefix (isWord : IsWord word key) (ends : EndsName word pieces) :
    key.toList <+: name.toList ++ chars pieces ↔ key.toList <+: name.toList := by
  match pieces, ends with
  | [], _ => rw [chars_nil, List.append_nil]
  | .literal text :: more, ends =>
    obtain ⟨c, first, other⟩ := ends
    obtain ⟨rest, text⟩ : ∃ rest, text.toList = c :: rest := List.head?_eq_some_iff.mp first
    rw [chars_cons, Piece.chars, text, List.cons_append]
    exact isPrefix_append_cons (isWord.notMem other) _ _

theorem inside_lacks (isWord : IsWord word name) {c : Char} (other : word c = false) (noDot : c ≠ '.')
    (spelling : Spelling) : c ∉ spelling.inside name.toList := by
  have lacks := isWord.notMem other
  cases spelling with
  | dotted => simpa [Spelling.inside, noDot] using lacks
  | braced | dollar => exact lacks

/-- What stands between braces tells the spelling and the name. -/
theorem inside_inj {spelling own : Spelling} (noDot : word '.' = false) (braces : spelling ≠ .dollar)
    (braces' : own ≠ .dollar) (isKey : IsWord word key) (isWord : IsWord word name)
    (same : spelling.inside key.toList = own.inside name.toList) : spelling = own ∧ key = name := by
  have dotless := isKey.notMem noDot
  have dotless' := isWord.notMem noDot
  cases spelling with
  | dollar => exact absurd rfl braces
  | dotted =>
    cases own with
    | dollar => exact absurd rfl braces'
    | dotted => exact ⟨rfl, String.toList_inj.mp (List.tail_eq_of_cons_eq same)⟩
    | braced =>
      have same : '.' :: key.toList = name.toList := same
      exact absurd (same ▸ List.mem_cons_self) dotless'
  | braced =>
    cases own with
    | dollar => exact absurd rfl braces'
    | dotted =>
      have same : key.toList = '.' :: name.toList := same
      exact absurd (same ▸ List.mem_cons_self) dotless
    | braced => exact ⟨rfl, String.toList_inj.mp same⟩

/-- Between braces a parameter is found exactly if it stands there in the same spelling. -/
theorem braces_isPrefix {spelling own : Spelling} (markless : Markless word)
    (braces : spelling ≠ .dollar) (braces' : own ≠ .dollar) (isKey : IsWord word key)
    (isWord : IsWord word name) (after : List Char) :
    spelling.write key.toList <+: own.write name.toList ++ after ↔ spelling = own ∧ key = name := by
  constructor
  · intro front
    have noBrace := markless '}' (by decide)
    rw [Spelling.write_of_ne braces, Spelling.write_of_ne braces', List.cons_append, List.cons_append,
      List.cons_prefix_cons, List.cons_prefix_cons] at front
    obtain ⟨rest, whole⟩ := front.2.2
    simp only [List.append_assoc, List.cons_append] at whole
    have same := (append_cons_inj (inside_lacks isKey noBrace (by decide) spelling)
      (inside_lacks isWord noBrace (by decide) own) whole).1
    exact inside_inj (markless '.' (by decide)) braces braces' isKey isWord same
  · rintro ⟨rfl, rfl⟩
    exact List.prefix_append _ _

/-- A placeholder between braces is passed over by the search for another one. -/
theorem replaceAll_braces {spelling own : Spelling} (markless : Markless word)
    (braces : spelling ≠ .dollar) (braces' : own ≠ .dollar) (isKey : IsWord word key)
    (isWord : IsWord word name) (other : ¬ (spelling = own ∧ key = name)) (value after : List Char) :
    replaceAll (spelling.write key.toList) value (own.write name.toList ++ after) =
      own.write name.toList ++ replaceAll (spelling.write key.toList) value after := by
  have here : ¬ spelling.write key.toList <+: own.write name.toList ++ after := fun front =>
    other ((braces_isPrefix markless braces braces' isKey isWord after).mp front)
  have plain : '{' ∉ own.inside name.toList ++ ['}', '}'] := by
    have lacks := inside_lacks isWord (markless '{' (by decide)) (by decide) own
    simp [lacks]
  rw [Spelling.write_of_ne braces, Spelling.write_of_ne braces'] at here ⊢
  -- the second brace begins no placeholder, since none stands behind it
  have next : ¬ '{' :: '{' :: (spelling.inside key.toList ++ ['}', '}']) <+:
      '{' :: (own.inside name.toList ++ ['}', '}'] ++ after) := by
    intro front
    obtain ⟨c, rest, text⟩ := List.exists_cons_of_ne_nil
      (List.append_ne_nil_of_right_ne_nil (own.inside name.toList) (List.cons_ne_nil '}' ['}']))
    rw [text, List.cons_append, List.cons_prefix_cons, List.cons_prefix_cons] at front
    rw [text, ← front.2.1] at plain
    exact plain List.mem_cons_self
  simp only [List.cons_append] at here ⊢
  rw [replaceAll_cons value here, replaceAll_cons value next, replaceAll_lacking value plain]

/-- A literal is passed over by the search for a placeholder. -/
theorem replaceAll_literal {text : String} (noDollar : '$' ∉ text.toList)
    (noBraces : ¬ ['{', '{'] <:+: text.toList)
    (ends : pieces = [] ∨ text.toList.getLast? ≠ some '{') (spelling : Spelling)
    (name value : List Char) :
    replaceAll (spelling.write name) value (text.toList ++ chars pieces) =
      text.toList ++ replaceAll (spelling.write name) value (chars pieces) := by
  by_cases braces : spelling = .dollar
  · rw [braces]
    exact replaceAll_lacking value noDollar _
  rw [Spelling.write_of_ne braces]
  refine replaceAll_through value fun part inside nonempty front => ?_
  obtain ⟨c, part, rfl⟩ := List.exists_cons_of_ne_nil nonempty
  rw [List.cons_append, List.cons_prefix_cons] at front
  obtain ⟨rfl, front⟩ := front
  cases part with
  | nil =>
    -- the literal ends with a brace, so that nothing comes after it
    have last : text.toList.getLast? = some '{' := by
      obtain ⟨before, whole⟩ := inside
      rw [← whole, List.getLast?_append]
      rfl
    rw [ends.resolve_right fun other => other last, chars_nil] at front
    exact List.cons_ne_nil _ _ (List.prefix_nil.mp front)
  | cons d part =>
    obtain ⟨rfl, _⟩ := List.cons_prefix_cons.mp front
    exact noBraces ((List.prefix_append ['{', '{'] part).isInfix.trans inside.isInfix)

theorem pass_of_other {spelling own : Spelling} (other : own ≠ spelling) (param : String × String)
    (name : String) : pass spelling param (.hole own name) = .hole own name := if_neg other

theorem pass_found {spelling : Spelling} {rest : String} (found : spelling.rest? key name = some rest) :
    pass spelling (key, value) (.hole spelling name) = .literal (value ++ rest) := by
  simp only [pass, if_true, found]

theorem pass_missed {spelling : Spelling} (missed : spelling.rest? key name = none) :
    pass spelling (key, value) (.hole spelling name) = .hole spelling name := by
  simp only [pass, if_true, missed]

theorem rest?_of_braces {spelling : Spelling} (braces : spelling ≠ .dollar) :
    spelling.rest? key name = if key = name then some "" else none := by
  cases spelling with
  | dollar => exact absurd rfl braces
  | dotted | braced => rfl

theorem rest?_subset {spelling : Spelling} {rest : String} (found : spelling.rest? key name = some rest) :
    rest.toList ⊆ name.toList := by
  cases spelling with
  | dollar =>
    obtain ⟨behind, cut, rfl⟩ := Option.map_eq_some_iff.mp found
    rw [after?_eq_some_iff.mp cut, String.toList_ofList]
    exact List.subset_append_right _ _
  | dotted | braced =>
    rw [rest?_of_braces (by decide)] at found
    split_ifs at found
    cases found
    exact List.nil_subset _

/-- A placeholder behind a dollar, after the search for a name behind a dollar. -/
theorem replaceAll_dollar (markless : Markless word) (isKey : IsWord word key)
    (isWord : IsWord word name) (ends : EndsName word pieces) :
    replaceAll ('$' :: key.toList) value.toList ('$' :: name.toList ++ chars pieces) =
      (pass .dollar (key, value) (.hole .dollar name)).chars ++
        replaceAll ('$' :: key.toList) value.toList (chars pieces) := by
  have lacks : '$' ∉ name.toList := isWord.notMem (markless '$' (by decide))
  cases found : after? key.toList name.toList with
  | some rest =>
    have name_eq : name.toList = key.toList ++ rest := after?_eq_some_iff.mp found
    have lacksRest : '$' ∉ rest := fun among => lacks (name_eq ▸ List.mem_append_right _ among)
    have split : '$' :: name.toList ++ chars pieces = '$' :: key.toList ++ (rest ++ chars pieces) := by
      rw [name_eq, List.cons_append, List.cons_append, List.append_assoc]
    have match_ : Spelling.dollar.rest? key name = some (String.ofList rest) := by
      rw [Spelling.rest?, found]
      rfl
    rw [split, replaceAll_front, replaceAll_lacking _ lacksRest, pass_found match_, Piece.chars,
      String.toList_append, String.toList_ofList, List.append_assoc]
  | none =>
    have here : ¬ '$' :: key.toList <+: '$' :: (name.toList ++ chars pieces) := by
      rw [List.cons_prefix_cons, dollar_isPrefix isKey ends, ← startsWith_iff, startsWith, found]
      simp
    have missed : Spelling.dollar.rest? key name = none := by
      rw [Spelling.rest?, found]
      rfl
    rw [List.cons_append, replaceAll_cons _ here, replaceAll_lacking _ lacks, pass_missed missed]
    rfl

/-- A placeholder, after the search for a name in a spelling. -/
theorem replaceAll_hole {own : Spelling} (markless : Markless word) (isKey : IsWord word key)
    (isWord : IsWord word name) (ends : own = .dollar → EndsName word pieces) (spelling : Spelling) :
    replaceAll (spelling.write key.toList) value.toList (own.write name.toList ++ chars pieces) =
      (pass spelling (key, value) (.hole own name)).chars ++
        replaceAll (spelling.write key.toList) value.toList (chars pieces) := by
  by_cases braces : spelling = .dollar <;> by_cases braces' : own = .dollar
  · subst braces braces'
    exact replaceAll_dollar markless isKey isWord (ends rfl)
  · -- no dollar stands between braces
    subst braces
    have lacks : '$' ∉ own.write name.toList := by
      have lacks := inside_lacks isWord (markless '$' (by decide)) (by decide) own
      rw [Spelling.write_of_ne braces']
      simpa using lacks
    rw [pass_of_other braces']
    exact replaceAll_lacking _ lacks _
  · -- no brace stands behind a dollar
    subst braces'
    have lacks : '{' ∉ Spelling.dollar.write name.toList := by
      have lacks := isWord.notMem (markless '{' (by decide))
      simpa [Spelling.write] using lacks
    rw [pass_of_other (Ne.symm braces), Spelling.write_of_ne braces]
    exact replaceAll_lacking _ lacks _
  · by_cases same : spelling = own ∧ key = name
    · obtain ⟨rfl, rfl⟩ := same
      have found : spelling.rest? key key = some "" := by rw [rest?_of_braces braces, if_pos rfl]
      rw [pass_found found, String.append_empty, Spelling.write_of_ne braces]
      exact replaceAll_front _ _
    · rw [replaceAll_braces markless braces braces' isKey isWord same]
      congr 1
      by_cases alike : own = spelling
      · subst alike
        have missed : own.rest? key name = none := by
          rw [rest?_of_braces braces, if_neg fun names => same ⟨rfl, names⟩]
        rw [pass_missed missed]
        rfl
      · rw [pass_of_other alike]
        rfl

/-- **One rewriting of the text** is one change of its pieces. -/
theorem replaceAll_chars (markless : Markless word) (delimited : Delimited word pieces)
    (isKey : IsWord word key) (spelling : Spelling) :
    replaceAll (spelling.write key.toList) value.toList (chars pieces) =
      chars (pieces.map (pass spelling (key, value))) := by
  induction delimited with
  | nil => rfl
  | literal noDollar noBraces ends _ ih =>
    rw [chars_cons, Piece.chars, replaceAll_literal noDollar noBraces ends, ih]
    rfl
  | hole isWord ends _ ih =>
    rw [chars_cons, Piece.chars, replaceAll_hole markless isKey isWord ends, ih]
    rfl

/-- A value that begins no placeholder, and whatever follows it, keeps the pieces apart. -/
theorem Delimited.map_pass (markless : Markless word) (delimited : Delimited word pieces)
    (noDollar : '$' ∉ value.toList) (noBrace : '{' ∉ value.toList) (spelling : Spelling) (key : String) :
    Delimited word (pieces.map (pass spelling (key, value))) := by
  have mapped {rest : List Piece} (ends : EndsName word rest) :
      EndsName word (rest.map (pass spelling (key, value))) := by
    match rest, ends with
    | [], _ => trivial
    | .literal text :: more, ends => exact ends
  induction delimited with
  | nil => exact .nil
  | literal noDollar noBraces ends _ ih =>
    exact .literal noDollar noBraces (ends.imp_left fun none => by rw [none]; rfl) ih
  | @hole own name rest isWord ends _ ih =>
    by_cases alike : own = spelling
    · subst alike
      cases found : own.rest? key name with
      | none =>
        rw [List.map_cons, pass_missed found]
        exact .hole isWord (fun dollar => mapped (ends dollar)) ih
      | some behind =>
        have plain {c : Char} (mark : c ∈ ['$', '{', '}', '.']) (lacks : c ∉ value.toList) :
            c ∉ (value ++ behind).toList := by
          rw [String.toList_append, List.mem_append, not_or]
          exact ⟨lacks, fun among => isWord.notMem (markless c mark) (rest?_subset found among)⟩
        have noBrace := plain (by decide) noBrace
        rw [List.map_cons, pass_found found]
        refine .literal (plain (by decide) noDollar) (fun inside => ?_) (.inr fun last => ?_) ih
        · exact noBrace (inside.subset List.mem_cons_self)
        · exact noBrace (List.mem_of_getLast? last)
    · rw [List.map_cons, pass_of_other alike]
      exact .hole isWord (fun dollar => mapped (ends dollar)) ih

/-! ## All parameters -/

/-- Parameters that have words for names, and values that begin no placeholder. -/
structure Harmless (word : Char → Bool) (entries : List (String × String)) : Prop where
  isWord : ∀ e ∈ entries, IsWord word e.1
  noDollar : ∀ e ∈ entries, '$' ∉ e.2.toList
  noBrace : ∀ e ∈ entries, '{' ∉ e.2.toList

/-- A piece after a parameter has been filled in. -/
def fillPiece (p : Piece) (param : String × String) : Piece :=
  pass .dollar param (pass .braced param (pass .dotted param p))

theorem fillOne_chars (markless : Markless word) (delimited : Delimited word pieces)
    {param : String × String} (isKey : IsWord word param.1) (noDollar : '$' ∉ param.2.toList)
    (noBrace : '{' ∉ param.2.toList) :
    fillOne (chars pieces) param = chars (pieces.map (fillPiece · param)) ∧
      Delimited word (pieces.map (fillPiece · param)) := by
  have first := delimited.map_pass markless noDollar noBrace .dotted param.1
  have second := first.map_pass markless noDollar noBrace .braced param.1
  have third := second.map_pass markless noDollar noBrace .dollar param.1
  have all : ((pieces.map (pass .dotted param)).map (pass .braced param)).map (pass .dollar param) =
      pieces.map (fillPiece · param) := by
    rw [List.map_map, List.map_map]
    rfl
  rw [← all]
  refine ⟨?_, third⟩
  rw [← replaceAll_chars markless second isKey, ← replaceAll_chars markless first isKey,
    ← replaceAll_chars markless delimited isKey]
  simp only [fillOne, spellings_eq, List.foldl_cons, List.foldl_nil, Spelling.write]

/-- Filling the text with parameters, one after the other, fills the pieces with them. -/
theorem foldl_fillOne_chars (markless : Markless word) (delimited : Delimited word pieces)
    {entries : List (String × String)} (plain : Harmless word entries) :
    entries.foldl fillOne (chars pieces) = chars (pieces.map (entries.foldl fillPiece)) ∧
      Delimited word (pieces.map (entries.foldl fillPiece)) := by
  induction entries generalizing pieces with
  | nil =>
    have same : pieces.map (List.foldl fillPiece · []) = pieces := List.map_id _
    exact ⟨congrArg chars same.symm, same.symm ▸ delimited⟩
  | cons e rest ih =>
    obtain ⟨first, delimited⟩ := fillOne_chars markless delimited
      (plain.isWord e List.mem_cons_self) (plain.noDollar e List.mem_cons_self)
      (plain.noBrace e List.mem_cons_self)
    obtain ⟨later, delimited⟩ := ih delimited
      ⟨fun f h => plain.isWord f (List.mem_cons_of_mem _ h),
        fun f h => plain.noDollar f (List.mem_cons_of_mem _ h),
        fun f h => plain.noBrace f (List.mem_cons_of_mem _ h)⟩
    rw [List.map_map] at later delimited
    exact ⟨by rw [List.foldl_cons, first, later]; rfl, delimited⟩

theorem foldl_literal (entries : List (String × String)) (text : String) :
    entries.foldl fillPiece (.literal text) = .literal text :=
  List.foldl_fixed' (fun _ => rfl) entries

/-- What a parameter gives for a placeholder. -/
def gives? (spelling : Spelling) (name : String) (e : String × String) : Option String :=
  (spelling.rest? e.1 name).map (e.2 ++ ·)

theorem fillPiece_hole (spelling : Spelling) (name : String) (e : String × String) :
    fillPiece (.hole spelling name) e =
      match gives? spelling name e with
      | some text => .literal text
      | none => .hole spelling name := by
  cases found : spelling.rest? e.1 name with
  | none => cases spelling <;> simp [fillPiece, pass, gives?, found]
  | some rest => cases spelling <;> simp [fillPiece, pass, gives?, found]

/-- Of the parameters the first counts that gives something for a placeholder. -/
theorem foldl_hole (spelling : Spelling) (name : String) (entries : List (String × String)) :
    entries.foldl fillPiece (.hole spelling name) =
      match entries.findSome? (gives? spelling name) with
      | some text => .literal text
      | none => .hole spelling name := by
  induction entries with
  | nil => rfl
  | cons e rest ih =>
    rw [List.foldl_cons, fillPiece_hole, List.findSome?_cons]
    cases gives? spelling name e with
    | none => exact ih
    | some text => exact foldl_literal rest text

/-- The longest name that begins another one gives its value and what follows it. -/
theorem longestMatch?_eq_some {params : Parameters} {cs : List Char} {k n : Nat} (le : k ≤ n)
    (found : params.get? (String.ofList (cs.take k)) = some value)
    (longest : ∀ j, k < j → j ≤ n → params.get? (String.ofList (cs.take j)) = none) :
    longestMatch? params cs n = some (value ++ String.ofList (cs.drop k)) := by
  induction n with
  | zero =>
    obtain rfl := Nat.le_zero.mp le
    have found : params.get? "" = some value := found
    rw [longestMatch?, found]
    rfl
  | succ n ih =>
    rcases Nat.eq_or_lt_of_le le with rfl | lt
    · rw [longestMatch?, found]
    · rw [longestMatch?, longest (n + 1) lt (Nat.le_refl _)]
      exact ih (Nat.le_of_lt_succ lt) fun j above below => longest j above (Nat.le_succ_of_le below)

theorem longestMatch?_eq_none {params : Parameters} {cs : List Char} {n : Nat}
    (missing : ∀ j ≤ n, params.get? (String.ofList (cs.take j)) = none) :
    longestMatch? params cs n = none := by
  induction n with
  | zero =>
    have missing : params.get? "" = none := missing 0 (Nat.le_refl 0)
    rw [longestMatch?, missing]
    rfl
  | succ n ih =>
    rw [longestMatch?, missing (n + 1) (Nat.le_refl _)]
    exact ih fun j le => missing j (Nat.le_succ_of_le le)

theorem gives?_of_braces {spelling : Spelling} (braces : spelling ≠ .dollar) (name : String)
    (e : String × String) : gives? spelling name e = if e.1 = name then some e.2 else none := by
  rw [gives?, rest?_of_braces braces]
  split_ifs <;> simp

theorem gives?_dollar_eq_some {name text : String} {e : String × String}
    (gives : gives? .dollar name e = some text) :
    ∃ rest, name.toList = e.1.toList ++ rest ∧ text = e.2 ++ String.ofList rest := by
  obtain ⟨behind, found, rfl⟩ := Option.map_eq_some_iff.mp gives
  obtain ⟨rest, cut, rfl⟩ := Option.map_eq_some_iff.mp found
  exact ⟨rest, after?_eq_some_iff.mp cut, rfl⟩

theorem gives?_dollar_ne_none {name : String} {e : String × String}
    (begins : e.1.toList <+: name.toList) : gives? .dollar name e ≠ none := by
  rw [← startsWith_iff, startsWith, Option.isSome_iff_exists] at begins
  obtain ⟨rest, found⟩ := begins
  simp [gives?, Spelling.rest?, found]

/-- Between braces a parameter gives its value, whatever the order of filling. -/
theorem findSome?_braces {spelling : Spelling} (braces : spelling ≠ .dollar) (params : Parameters)
    (name : String) : (fillOrder params).findSome? (gives? spelling name) = params.get? name := by
  cases found : params.get? name with
  | none =>
    rw [List.findSome?_eq_none_iff]
    intro e among
    rw [gives?_of_braces braces, if_neg]
    rintro rfl
    rw [mem_fillOrder, params.mem_entries_iff, found] at among
    cases among
  | some value =>
    obtain ⟨before, after, order⟩ :=
      List.append_of_mem (mem_fillOrder.mpr ((params.mem_entries_iff name value).mpr found))
    have distinct := fillOrder_distinct params
    rw [order, List.pairwise_append] at distinct
    rw [List.findSome?_eq_some_iff]
    refine ⟨before, _, after, order, by rw [gives?_of_braces braces, if_pos rfl], fun e among => ?_⟩
    rw [gives?_of_braces braces, if_neg (distinct.2.2 e among _ List.mem_cons_self)]

/-- Of the parameters whose names begin a name, the longest one comes first in the order of
filling. -/
theorem longest_first {params : Parameters} {before after : List (String × String)}
    {e f : String × String} (order : fillOrder params = before ++ e :: after)
    (earlier : ∀ f ∈ before, gives? .dollar name f = none) (begins : e.1.toList <+: name.toList)
    (among : f ∈ fillOrder params) (begins' : f.1.toList <+: name.toList) :
    f.1.toList.length ≤ e.1.toList.length := by
  have sorted := fillOrder_sorted params
  have distinct := fillOrder_distinct params
  rw [order, List.pairwise_append, List.pairwise_cons] at sorted distinct
  rw [order, List.mem_append, List.mem_cons] at among
  rcases among with among | rfl | among
  · exact absurd (earlier f among) (gives?_dollar_ne_none begins')
  · exact Nat.le_refl _
  · have size : f.1.utf8ByteSize ≤ e.1.utf8ByteSize := by
      rcases fillsBefore_iff.mp (sorted.2.1.1 f among) with longer | ⟨same, _⟩
      · exact Nat.le_of_lt longer
      · exact Nat.le_of_eq same.symm
    rcases List.prefix_or_prefix_of_prefix begins begins' with inside | inside
    · exact absurd inside (not_prefix_of_size size (distinct.2.1.1 f among))
    · exact inside.length_le

/-- Behind a dollar the parameter that is found first is the longest. -/
theorem findSome?_dollar (params : Parameters) (name : String) :
    (fillOrder params).findSome? (gives? .dollar name) =
      longestMatch? params name.toList name.toList.length := by
  have front {j : Nat} {value : String}
      (found : params.get? (String.ofList (name.toList.take j)) = some value) :
      (String.ofList (name.toList.take j), value) ∈ fillOrder params :=
    mem_fillOrder.mpr ((params.mem_entries_iff _ value).mpr found)
  have begins (j : Nat) : (String.ofList (name.toList.take j)).toList <+: name.toList := by
    rw [String.toList_ofList]
    exact List.take_prefix j _
  cases first : (fillOrder params).findSome? (gives? .dollar name) with
  | none =>
    rw [List.findSome?_eq_none_iff] at first
    refine (longestMatch?_eq_none fun j _ => ?_).symm
    cases found : params.get? (String.ofList (name.toList.take j)) with
    | none => rfl
    | some value => exact absurd (first _ (front found)) (gives?_dollar_ne_none (begins j))
  | some text =>
    obtain ⟨before, e, after, order, gives, earlier⟩ := List.findSome?_eq_some_iff.mp first
    obtain ⟨rest, name_eq, rfl⟩ := gives?_dollar_eq_some gives
    have own : e.1.toList <+: name.toList := ⟨rest, name_eq.symm⟩
    have found : params.get? (String.ofList (name.toList.take e.1.toList.length)) = some e.2 := by
      rw [name_eq, List.take_left, String.ofList_toList, ← params.mem_entries_iff, ← mem_fillOrder, order]
      exact List.mem_append_right _ List.mem_cons_self
    have longest (j : Nat) (above : e.1.toList.length < j) (below : j ≤ name.toList.length) :
        params.get? (String.ofList (name.toList.take j)) = none := by
      cases longer : params.get? (String.ofList (name.toList.take j)) with
      | none => rfl
      | some value =>
        have shorter := longest_first order earlier own (front longer) (begins j)
        rw [String.toList_ofList, List.length_take, Nat.min_eq_left below] at shorter
        exact absurd shorter (Nat.not_le_of_lt above)
    rw [longestMatch?_eq_some own.length_le found longest, name_eq, List.drop_left]

/-- Filled in one after the other, the parameters give what the table gives. -/
theorem foldl_fillPiece (params : Parameters) (p : Piece) :
    (fillOrder params).foldl fillPiece p = filled params p := by
  cases p with
  | literal text => exact foldl_literal _ text
  | hole spelling name =>
    have gives : (fillOrder params).findSome? (gives? spelling name) = given? params spelling name := by
      cases spelling with
      | dollar => exact findSome?_dollar params name
      | dotted | braced => exact findSome?_braces (by decide) params name
    rw [foldl_hole, gives]
    rfl

/-- The order in which a table is walked through leaves no trace in the order of filling. -/
theorem mergeSort_of_perm {params : Parameters} {entries : List (String × String)}
    (same : entries.Perm params.entries) : entries.mergeSort fillsBefore = fillOrder params := by
  have perm : (entries.mergeSort fillsBefore).Perm (fillOrder params) :=
    (List.mergeSort_perm _ _).trans (same.trans (List.mergeSort_perm _ _).symm)
  refine perm.eq_of_pairwise (fun a b among among' first second => ?_)
    (List.pairwise_mergeSort fillsBefore_trans fillsBefore_total _) (fillOrder_sorted params)
  have names : a.1 = b.1 := by
    rcases fillsBefore_iff.mp first with longer | ⟨same, le⟩ <;>
      rcases fillsBefore_iff.mp second with longer' | ⟨same', le'⟩
    · omega
    · omega
    · omega
    · exact String.le_antisymm le le'
  have mine := (params.mem_entries_iff a.1 a.2).mp (mem_fillOrder.mp (perm.subset among))
  have other := (params.mem_entries_iff b.1 b.2).mp (mem_fillOrder.mp among')
  rw [names, other] at mine
  exact Prod.ext names (Option.some.inj mine).symm

/-- Filling a template of pieces with a table that is walked through in some order. -/
def fillWalking (entries : List (String × String)) (template : String) : String :=
  String.ofList ((entries.mergeSort fillsBefore).foldl fillOne template.toList)

/-- **Filling is exact.** Whatever the order in which the table is walked through, a template
becomes its pieces with every placeholder exchanged for what the table gives for it and all
else unchanged, and filling once more changes nothing. -/
theorem fill_write (markless : Markless word) (delimited : Delimited word pieces)
    {params : Parameters} (plain : Harmless word params.entries) :
    fill (write pieces) params = write (pieces.map (filled params)) ∧
      (∀ entries : List (String × String), entries.Perm params.entries →
        fillWalking entries (write pieces) = write (pieces.map (filled params))) ∧
      fill (write (pieces.map (filled params))) params = write (pieces.map (filled params)) := by
  have inOrder : Harmless word (fillOrder params) :=
    ⟨fun e among => plain.isWord e (mem_fillOrder.mp among),
      fun e among => plain.noDollar e (mem_fillOrder.mp among),
      fun e among => plain.noBrace e (mem_fillOrder.mp among)⟩
  have whole {pieces : List Piece} (delimited : Delimited word pieces) :
      fill (write pieces) params = write (pieces.map (filled params)) ∧
        Delimited word (pieces.map (filled params)) := by
    have walked := foldl_fillOne_chars markless delimited inOrder
    simp only [foldl_fillPiece] at walked
    rw [fill, write, String.toList_ofList, walked.1]
    exact ⟨rfl, walked.2⟩
  obtain ⟨once, again⟩ := whole delimited
  refine ⟨once, fun entries same => ?_, ?_⟩
  · rw [fillWalking, mergeSort_of_perm same]
    exact once
  · have twice := (whole again).1
    have settled : (pieces.map (filled params)).map (filled params) = pieces.map (filled params) := by
      rw [List.map_map]
      exact List.map_congr_left fun p _ => filled_filled params p
    rwa [settled] at twice

end

/-- Letters and digits of ASCII, and the underscore. -/
def isWordChar (c : Char) : Bool := c.isAlphanum || c = '_'

/-- A template with names that begin one another, with names that nobody gives, and with
braces of its own. -/
def tangled : List Piece := [.hole .dollar "hostnames", .literal "' \x7b\x7d: ", .hole .dotted "host",
  .hole .braced "ho", .hole .dollar "hos", .literal "-", .hole .dollar "x", .literal " ",
  .hole .braced "hostnames", .hole .dotted "host_1", .literal "\x7b"]

/-- Parameters for it, one of them empty. -/
def tangledParams : Parameters := Table.ofList [("host", "a.com"), ("hostname", "web-01"), ("ho", ""),
  ("host_1", "用户 7")]

/-- The tangled template, filled. -/
theorem fill_tangled : Markless isWordChar ∧ Delimited isWordChar tangled ∧
    Harmless isWordChar tangledParams.entries ∧
    fill "$hostnames' \x7b\x7d: \x7b\x7b.host\x7d\x7d\x7b\x7bho\x7d\x7d$hos-$x \x7b\x7bhostnames\x7d\x7d\x7b\x7b.host_1\x7d\x7d\x7b"
      tangledParams = "web-01s' \x7b\x7d: a.coms-$x \x7b\x7bhostnames\x7d\x7d用户 7\x7b" := by
  have markless : Markless isWordChar := by decide
  have delimited : Delimited isWordChar tangled := by decide
  have plain : Harmless isWordChar tangledParams.entries := ⟨by decide, by decide, by decide⟩
  exact ⟨markless, delimited, plain, (fill_write markless delimited plain).1⟩

end TriageDesk.Template
