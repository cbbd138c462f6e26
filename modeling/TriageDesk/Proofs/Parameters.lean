/-
TriageDesk.Proofs.Parameters — what texts of parameters mean, and that the two
ways of giving a table mean the same table.

`Plain` says which tables can be given as text at all: a comma cannot be
escaped, nor can an equals sign in a name, and blanks at the ends are lost. It
allows more than one might think: a value may be empty, hold equals signs and
hold blanks inside.

A `Piece` is one entry as it is written, with the blanks around its parts, and
`written` joins pieces. `ofText_written` reads them back in whatever order they
stand, `ofJson?_ofTexts` reads the object. Both end in `Table.ofList_of_perm`: a
table is made of its own entries.

Any other text has a meaning as well. `IsCut`, `Gives` and `Silent` say it without
the reader, `TextLaws` collects what follows, and `ofText_textLaws` is the theorem.
-/
import TriageDesk.Parameters
import TriageDesk.Proofs.Table
import TriageDesk.Proofs.Text.Search

namespace TriageDesk

open Text

namespace Parameters

/-! ## Tables that can be written -/

/-- A text that neither begins nor ends with white space. -/
def Bare (s : String) : Prop :=
  (∀ c ∈ s.toList.head?, isBlank c = false) ∧ ∀ c ∈ s.toList.getLast?, isBlank c = false

/-- A name that can be written. -/
structure IsName (name : String) : Prop where
  nonempty : name ≠ ""
  bare : Bare name
  noComma : ',' ∉ name.toList
  noEquals : '=' ∉ name.toList

/-- A value that can be written. -/
structure IsValue (value : String) : Prop where
  bare : Bare value
  noComma : ',' ∉ value.toList

/-- A table that can be written. -/
def Plain (m : Parameters) : Prop := ∀ e ∈ m.entries, IsName e.1 ∧ IsValue e.2

instance (s : String) : Decidable (Bare s) :=
  decidable_of_iff ((s.toList.head?.all fun c => !isBlank c) = true ∧
      (s.toList.getLast?.all fun c => !isBlank c) = true)
    (by simp only [Option.all_eq_true, Bool.not_eq_true', Bare, Option.mem_def])

instance (name : String) : Decidable (IsName name) :=
  decidable_of_iff (name ≠ "" ∧ Bare name ∧ ',' ∉ name.toList ∧ '=' ∉ name.toList)
    ⟨fun ⟨nonempty, bare, noComma, noEquals⟩ => ⟨nonempty, bare, noComma, noEquals⟩,
      fun ⟨nonempty, bare, noComma, noEquals⟩ => ⟨nonempty, bare, noComma, noEquals⟩⟩

instance (value : String) : Decidable (IsValue value) :=
  decidable_of_iff (Bare value ∧ ',' ∉ value.toList)
    ⟨fun ⟨bare, noComma⟩ => ⟨bare, noComma⟩, fun ⟨bare, noComma⟩ => ⟨bare, noComma⟩⟩

instance (m : Parameters) : Decidable (Plain m) := inferInstanceAs (Decidable (∀ e ∈ _, _))

theorem Bare.trimmed_eq {s : String} (bare : Bare s) : trimmed s = s := by
  rw [trimmed, trim_eq_self bare.1 bare.2, String.ofList_toList]

/-! ## Tables as they are written -/

/-- Nothing but white space. -/
abbrev Blanks := {gap : List Char // gap.all isBlank = true}

theorem Blanks.notMem (gap : Blanks) {c : Char} (solid : isBlank c = false) : c ∉ gap.val := by
  intro among
  have blank := List.all_eq_true.mp gap.property c among
  rw [solid] at blank
  exact Bool.false_ne_true blank

/-- A text with white space around it. -/
structure Padded where
  text : String
  before : Blanks
  after : Blanks

/-- The characters of a padded text. -/
def Padded.chars (p : Padded) : List Char := p.before.val ++ (p.text.toList ++ p.after.val)

theorem Padded.trim_chars (p : Padded) : trim p.chars = trim p.text.toList :=
  trim_gaps p.before.property p.after.property _

theorem Padded.notMem_chars (p : Padded) {c : Char} (solid : isBlank c = false)
    (lacks : c ∉ p.text.toList) : c ∉ p.chars := by
  rw [chars, List.mem_append, List.mem_append, not_or, not_or]
  exact ⟨p.before.notMem solid, lacks, p.after.notMem solid⟩

/-- One entry as it is written. -/
structure Piece where
  name : Padded
  value : Padded

/-- The entry of a piece. -/
def Piece.entry (p : Piece) : String × String := (p.name.text, p.value.text)

/-- The characters of a piece. -/
def Piece.chars (p : Piece) : List Char := p.name.chars ++ '=' :: p.value.chars

/-- Pieces with commas between them. -/
def written (pieces : List Piece) : String := String.ofList (join [','] (pieces.map Piece.chars))

/-- Whether pieces write a table: each entry once, in any order. -/
def Writes (m : Parameters) (pieces : List Piece) : Prop := (pieces.map Piece.entry).Perm m.entries

instance (m : Parameters) (pieces : List Piece) : Decidable (Writes m pieces) :=
  inferInstanceAs (Decidable (List.Perm _ _))

/-! ## Reading them -/

/-- A piece is read as its entry: the first equals sign is the one behind the name. -/
theorem Piece.read {p : Piece} (name : IsName p.entry.1) (value : IsValue p.entry.2) :
    ofPiece? p.chars = some p.entry := by
  have cut : splitOnce '=' p.chars = some (p.name.chars, p.value.chars) :=
    splitOnce_append (p.name.notMem_chars (by decide) name.noEquals) _
  have named : trim p.name.chars = p.name.text.toList :=
    p.name.trim_chars.trans (trim_eq_self name.bare.1 name.bare.2)
  have valued : trim p.value.chars = p.value.text.toList :=
    p.value.trim_chars.trans (trim_eq_self value.bare.1 value.bare.2)
  have nonempty : p.name.text.toList ≠ [] := fun empty =>
    name.nonempty (String.toList_eq_nil_iff.mp empty)
  simp only [ofPiece?, cut, named, valued, if_neg nonempty, String.ofList_toList, entry]

theorem Piece.noComma {p : Piece} (name : IsName p.entry.1) (value : IsValue p.entry.2) :
    ',' ∉ p.chars := by
  rw [chars, List.mem_append, List.mem_cons, not_or, not_or]
  exact ⟨p.name.notMem_chars (by decide) name.noComma, by decide,
    p.value.notMem_chars (by decide) value.noComma⟩

theorem ofPiece?_plain {piece : List Char} (noEquals : '=' ∉ piece) : ofPiece? piece = none := by
  rw [ofPiece?, splitOnce_plain noEquals]

/-- Without a comma and an equals sign a text gives nothing. -/
theorem ofText_plain {s : String} (noComma : ',' ∉ s.toList) (noEquals : '=' ∉ s.toList) :
    ofText s = ∅ := by
  rw [ofText, splitOn_plain noComma, List.filterMap_cons_none (ofPiece?_plain noEquals),
    List.filterMap_nil]
  rfl

/-- A written table is read back, in whatever order its entries stand and with whatever white
space around them. -/
theorem ofText_written {m : Parameters} (plain : Plain m) {pieces : List Piece}
    (writes : Writes m pieces) : ofText (written pieces) = m := by
  have sound : ∀ p ∈ pieces, IsName p.entry.1 ∧ IsValue p.entry.2 := fun p among =>
    plain p.entry (writes.subset (List.mem_map_of_mem among))
  by_cases empty : pieces = []
  · -- no pieces are read as one that is empty
    subst empty
    refine (ofText_plain List.not_mem_nil List.not_mem_nil).trans ?_
    exact Table.ofList_of_perm writes
  have cut : splitOn ',' (written pieces).toList = pieces.map Piece.chars := by
    rw [written, String.toList_ofList]
    refine splitOn_join (by simpa using empty) fun chars written => ?_
    obtain ⟨p, among, rfl⟩ := List.mem_map.mp written
    exact Piece.noComma (sound p among).1 (sound p among).2
  have read : (pieces.map Piece.chars).filterMap ofPiece? = pieces.map Piece.entry := by
    rw [List.filterMap_map, ← List.filterMap_eq_map]
    exact List.filterMap_congr fun p among => Piece.read (sound p among).1 (sound p among).2
  rw [ofText, cut, read, Table.ofList_of_perm writes]

/-- The object of a table gives the table. -/
theorem ofJson?_ofTexts {m : Parameters} (plain : Plain m) : ofJson? (some (.ofTexts m)) = m := by
  have read : ∀ e ∈ m.entries, (ofMember? ∘ fun e => (e.1, Json.string e.2)) e = some e := by
    intro e among
    obtain ⟨name, value⟩ := plain e among
    simp only [Function.comp_apply, ofMember?, name.bare.trimmed_eq, value.bare.trimmed_eq,
      if_neg name.nonempty]
  show Table.ofList ((m.entries.map fun e => (e.1, Json.string e.2)).filterMap ofMember?) = m
  rw [List.filterMap_map, List.filterMap_congr read, List.filterMap_some]
  exact Table.ofList_of_perm (List.Perm.refl _)

/-! ## Texts of any kind -/

/-- The pieces of a text between its commas. -/
structure IsCut (s : String) (pieces : List (List Char)) : Prop where
  nonempty : pieces ≠ []
  noComma : ∀ piece ∈ pieces, ',' ∉ piece
  whole : join [','] pieces = s.toList

/-- What a piece says: the name is what stands before its first equals sign, the value what
stands behind it, both without the white space at their ends. -/
def Gives (piece : List Char) (name value : String) : Prop :=
  ∃ before after, piece = before ++ '=' :: after ∧ '=' ∉ before ∧
    String.ofList (trim before) = name ∧ String.ofList (trim after) = value

/-- Whether a piece gives some value to a name. -/
def Names (piece : List Char) (name : String) : Prop := ∃ value, Gives piece name value

/-- Whether a piece has no equals sign, or only white space before the first one. -/
def Silent (piece : List Char) : Prop := '=' ∉ piece ∨ Names piece ""

/-- A text is cut in one way only. -/
theorem isCut_iff {s : String} {pieces : List (List Char)} :
    IsCut s pieces ↔ splitOn ',' s.toList = pieces := by
  constructor
  · rintro ⟨nonempty, noComma, whole⟩
    rw [← whole, splitOn_join nonempty noComma]
  · rintro rfl
    refine ⟨fun none => ?_, fun _ => notMem_splitOn, join_splitOn _ _⟩
    have empty := join_splitOn ',' s.toList
    rw [none] at empty
    rw [← empty] at none
    cases none

theorem ofPiece?_append {before : List Char} (noEquals : '=' ∉ before) (after : List Char) :
    ofPiece? (before ++ '=' :: after) = if trim before = [] then none
      else some (String.ofList (trim before), String.ofList (trim after)) := by
  rw [ofPiece?, splitOnce_append noEquals]

/-- A piece is read as what it says, unless the name is blank. -/
theorem ofPiece?_eq_some_iff {piece : List Char} {name value : String} :
    ofPiece? piece = some (name, value) ↔ name ≠ "" ∧ Gives piece name value := by
  constructor
  · intro read
    by_cases has : '=' ∈ piece
    · obtain ⟨before, after, rfl, noEquals⟩ := List.eq_append_cons_of_mem has
      rw [ofPiece?_append noEquals, Option.ite_none_left_eq_some] at read
      obtain ⟨solid, same⟩ := read
      cases same
      refine ⟨fun empty => solid ?_, before, after, rfl, noEquals, rfl, rfl⟩
      exact String.ofList_eq_empty_iff.mp empty
    · rw [ofPiece?_plain has] at read
      cases read
  · rintro ⟨named, before, after, rfl, noEquals, rfl, rfl⟩
    exact (ofPiece?_append noEquals after).trans (if_neg fun blank => named (by rw [blank]))

theorem ofPiece?_silent {piece : List Char} (silent : Silent piece) : ofPiece? piece = none := by
  rcases silent with noEquals | ⟨value, before, after, rfl, noEquals, blank, -⟩
  · exact ofPiece?_plain noEquals
  · rw [ofPiece?_append noEquals, if_pos (String.ofList_eq_empty_iff.mp blank)]

/-- What a text says is what its pieces say, the last one of a name counting. -/
theorem ofText_cut {s : String} {pieces : List (List Char)} (cut : IsCut s pieces) :
    ofText s = Table.ofList (pieces.filterMap ofPiece?) := by
  rw [ofText, isCut_iff.mp cut]

/-- Pieces without commas are read one by one, even if there are none. -/
theorem ofText_join {pieces : List (List Char)} (noComma : ∀ piece ∈ pieces, ',' ∉ piece) :
    ofText (String.ofList (join [','] pieces)) = Table.ofList (pieces.filterMap ofPiece?) := by
  cases pieces with
  | nil => exact ofText_plain List.not_mem_nil List.not_mem_nil
  | cons first more =>
    exact ofText_cut ⟨List.cons_ne_nil _ _, noComma, String.toList_ofList.symm⟩

/-- **What a text of parameters means.** -/
structure TextLaws (s : String) : Prop where
  /-- With another text behind a comma it is overridden by what that one says. -/
  append : ∀ more, ofText (s ++ "," ++ more) = (ofText s).override (ofText more)
  /-- A name has the value that the last piece gives which names it; no name is blank. -/
  get?_iff : ∀ name value, (ofText s).get? name = some value ↔
    name ≠ "" ∧ ∃ earlier piece later, IsCut s (earlier ++ piece :: later) ∧
      Gives piece name value ∧ ∀ other ∈ later, ¬ Names other name
  /-- Without a piece that has no equals sign or a blank name it says the same. -/
  silent : ∀ earlier piece later, IsCut s (earlier ++ piece :: later) → Silent piece →
    ofText s = ofText (String.ofList (join [','] (earlier ++ later)))

/-- **The last piece of a name wins, and texts are read one after the other.** -/
theorem ofText_textLaws (s : String) : TextLaws s where
  append more := by
    have cut : splitOn ',' (s ++ "," ++ more).toList =
        splitOn ',' s.toList ++ splitOn ',' more.toList := by
      rw [String.toList_append, String.toList_append, List.append_assoc]
      exact splitOn_append ',' s.toList more.toList
    rw [ofText, cut, List.filterMap_append, Table.ofList_append]
    rfl
  get?_iff name value := by
    rw [ofText, Table.get?_ofList, Entries.find?_filterMap_reverse]
    simp only [isCut_iff, ofPiece?_eq_some_iff, ne_eq]
    constructor
    · rintro ⟨earlier, piece, later, cut, ⟨named, gives⟩, others⟩
      exact ⟨named, earlier, piece, later, cut, gives,
        fun other among ⟨value', gives'⟩ => others other among value' ⟨named, gives'⟩⟩
    · rintro ⟨named, earlier, piece, later, cut, gives, others⟩
      exact ⟨earlier, piece, later, cut, ⟨named, gives⟩,
        fun other among value' read => others other among ⟨value', read.2⟩⟩
  silent earlier piece later cut silent := by
    have noComma : ∀ other ∈ earlier ++ later, ',' ∉ other := fun other among =>
      cut.noComma other (by simp only [List.mem_append, List.mem_cons] at among ⊢; tauto)
    rw [ofText_cut cut, ofText_join noComma, List.filterMap_append,
      List.filterMap_cons_none (ofPiece?_silent silent), ← List.filterMap_append]

/-- Repeated names, an equals sign in a value, a piece without one and a blank name. -/
example : (ofText "a=1,b = x=y ,c, =d,a= 2").entries = [("a", "2"), ("b", "x=y")] := by decide

end Parameters

end TriageDesk
