/-
TriageDesk.Proofs.Json.Grammar — the grammar of JSON texts, and what its texts mean.

A text is described by what it is made of, whatever reads it: `IsValue` are the
texts of values, `Means v` those of a value `v`. The two share the grammar of
brackets (`Bracketed`): items with commas between them and blanks around each.
A number means what it is read as when it stands alone, for its digits may be
cut off at the precision of the 64-bit binary format.

`IsValue` asks less of strings and numbers than `Means`: an escape may be half
of a surrogate pair, and a number may be out of range.
-/
import TriageDesk.Proofs.Json.Reading

namespace TriageDesk.Json

open Text Reader

variable {ι κ : Type}

/-! ## Strings -/

/-- Four hexadecimal digits and their number. -/
inductive HexCode : List Char → Nat → Prop
  | mk {a b c d : Char} {w x y z : Nat} (ha : hexValue? a = some w) (hb : hexValue? b = some x)
      (hc : hexValue? c = some y) (hd : hexValue? d = some z) :
    HexCode [a, b, c, d] (((w * 16 + x) * 16 + y) * 16 + z)

/-- The characters that stand for others behind a backslash. -/
def shortEscapes : List (Char × Char) :=
  [('"', '"'), ('\\', '\\'), ('/', '/'), ('b', '\x08'), ('f', '\x0c'), ('n', '\n'), ('r', '\r'),
    ('t', '\t')]

/-- A character that stands for itself. -/
structure StandsForItself (c : Char) : Prop where
  noQuote : c ≠ '"'
  noBackslash : c ≠ '\\'
  printable : ¬ c.toNat < 0x20

/-- A piece of a string and the character that it stands for. -/
inductive Spells : List Char → Char → Prop
  | plain {c : Char} (itself : StandsForItself c) : Spells [c] c
  | short {mark c : Char} (known : (mark, c) ∈ shortEscapes) : Spells ['\\', mark] c
  | code {digits : List Char} {n : Nat} (hex : HexCode digits n) (whole : n < 0xD800 ∨ 0xDFFF < n) :
    Spells ('\\' :: 'u' :: digits) (Char.ofNat n)
  | pair {high low : List Char} {n m : Nat} (hex : HexCode high n) (hex' : HexCode low m)
      (first : 0xD800 ≤ n ∧ n ≤ 0xDBFF) (second : 0xDC00 ≤ m ∧ m ≤ 0xDFFF) :
    Spells ('\\' :: 'u' :: (high ++ '\\' :: 'u' :: low))
      (Char.ofNat ((n - 0xD800) * 0x400 + (m - 0xDC00) + 0x10000))

/-- What stands between the quotes of a string, and its characters. -/
inductive Spelled : List Char → List Char → Prop
  | nil : Spelled [] []
  | cons {piece raw cs : List Char} {c : Char} (first : Spells piece c) (rest : Spelled raw cs) :
    Spelled (piece ++ raw) (c :: cs)

/-- The text of a string. -/
inductive StringText (s : String) : List Char → Prop
  | mk {raw : List Char} (spelled : Spelled raw s.toList) : StringText s ('"' :: (raw ++ ['"']))

/-- A piece of a string, where an escape may be half of a pair. -/
inductive IsPiece : List Char → Prop
  | plain {c : Char} (itself : StandsForItself c) : IsPiece [c]
  | short {mark c : Char} (known : (mark, c) ∈ shortEscapes) : IsPiece ['\\', mark]
  | code {digits : List Char} {n : Nat} (hex : HexCode digits n) : IsPiece ('\\' :: 'u' :: digits)

/-- What stands between the quotes of a string. -/
inductive IsSpelled : List Char → Prop
  | nil : IsSpelled []
  | cons {piece raw : List Char} (first : IsPiece piece) (rest : IsSpelled raw) :
    IsSpelled (piece ++ raw)

/-- The text of any string. -/
inductive IsString : List Char → Prop
  | mk {raw : List Char} (spelled : IsSpelled raw) : IsString ('"' :: (raw ++ ['"']))

/-! ## Numbers -/

/-- One or more digits. -/
structure IsDigits (ds : List Char) : Prop where
  some : ds ≠ []
  digits : ∀ d ∈ ds, d.isDigit = true

/-- The digits before the point: no zero stands before others. -/
inductive IsWhole : List Char → Prop
  | zero : IsWhole ['0']
  | digits {d : Char} {ds : List Char} (head : d ≠ '0') (all : ∀ c ∈ d :: ds, c.isDigit = true) :
    IsWhole (d :: ds)

/-- The point and the digits behind it, if there is one. -/
inductive IsFraction : List Char → Prop
  | none : IsFraction []
  | digits {ds : List Char} (some : IsDigits ds) : IsFraction ('.' :: ds)

/-- The exponent, if there is one. -/
inductive IsExponent : List Char → Prop
  | none : IsExponent []
  | digits {mark : Char} {sign ds : List Char} (marked : mark = 'e' ∨ mark = 'E')
      (signed : sign ∈ [[], ['+'], ['-']]) (some : IsDigits ds) :
    IsExponent (mark :: (sign ++ ds))

/-- A number without a sign. -/
inductive IsUnsigned : List Char → Prop
  | mk {whole fraction exponent : List Char} (hw : IsWhole whole) (hf : IsFraction fraction)
      (he : IsExponent exponent) : IsUnsigned (whole ++ (fraction ++ exponent))

/-- A number. -/
inductive IsNumeral : List Char → Prop
  | positive {cs : List Char} (unsigned : IsUnsigned cs) : IsNumeral cs
  | negative {cs : List Char} (unsigned : IsUnsigned cs) : IsNumeral ('-' :: cs)

/-! ## Lists and objects -/

/-- What follows an item between brackets, up to the closing one: further items, each behind a
comma. -/
inductive Tail (close : Char) (Piece : ι → List Char → Prop) : List ι → List Char → Prop
  | close {gap : List Char} (blank : gap.all isGap = true) : Tail close Piece [] (gap ++ [close])
  | next {i : ι} {is : List ι} {gap gap' piece rest : List Char} (blank : gap.all isGap = true)
      (blank' : gap'.all isGap = true) (here : Piece i piece) (more : Tail close Piece is rest) :
    Tail close Piece (i :: is) (gap ++ ',' :: (gap' ++ (piece ++ rest)))

/-- Items between brackets. -/
inductive Bracketed (opening close : Char) (Piece : ι → List Char → Prop) :
    List ι → List Char → Prop
  | empty {gap : List Char} (blank : gap.all isGap = true) :
    Bracketed opening close Piece [] (opening :: (gap ++ [close]))
  | items {i : ι} {is : List ι} {gap piece rest : List Char} (blank : gap.all isGap = true)
      (here : Piece i piece) (more : Tail close Piece is rest) :
    Bracketed opening close Piece (i :: is) (opening :: (gap ++ (piece ++ rest)))

/-- A name and a value with a colon between them. -/
inductive Named (Name : ι → List Char → Prop) (Value : κ → List Char → Prop) :
    ι × κ → List Char → Prop
  | mk {k : ι} {v : κ} {name gap gap' value : List Char} (named : Name k name)
      (blank : gap.all isGap = true) (blank' : gap'.all isGap = true) (here : Value v value) :
    Named Name Value (k, v) (name ++ (gap ++ ':' :: (gap' ++ value)))

/-! ## Values -/

/-- The text of any value. -/
inductive IsValue : List Char → Prop
  | literal {word : List Char} (known : word ∈ ["null", "true", "false"].map String.toList) :
    IsValue word
  | number {text : List Char} (numeral : IsNumeral text) : IsValue text
  | string {text : List Char} (string : IsString text) : IsValue text
  | list {items : List Unit} {text : List Char}
      (listed : Bracketed '[' ']' (fun _ => IsValue) items text) : IsValue text
  | object {members : List (Unit × Unit)} {text : List Char}
      (listed : Bracketed '{' '}' (Named (fun _ => IsString) fun _ => IsValue) members text) :
    IsValue text

/-- The text of a value. -/
inductive Means : Json → List Char → Prop
  | null : Means .null "null".toList
  | true : Means (.bool true) "true".toList
  | false : Means (.bool false) "false".toList
  | number {n : Number} {text : List Char} (numeral : IsNumeral text)
      (alone : value 0 (runes text) = .ok (.number n, [])) : Means (.number n) text
  | string {s : String} {text : List Char} (string : StringText s text) : Means (.string s) text
  | array {items : List Json} {text : List Char} (listed : Bracketed '[' ']' Means items text) :
    Means (.array items) text
  | object {members : List (String × Json)} {text : List Char}
      (listed : Bracketed '{' '}' (Named StringText Means) members text) :
    Means (.ofMembers members) text

end TriageDesk.Json
