/-
TriageDesk.Text.Search — finding, cutting and replacing text inside text.

Everything works on lists of characters. `cutAtFirst` cuts at the first
occurrence of a word, `fromFirst` and `throughLast` keep what lies behind the
first or before the last occurrence of a character, `replaceAll` exchanges
every occurrence of a word that a scan from the left meets, and `splitOn` cuts
at each separator.
-/

namespace TriageDesk.Text

/-! ## Words at the front -/

/-- The characters after `word` when the text begins with it. -/
def after? : (word text : List Char) → Option (List Char)
  | [], text => some text
  | _ :: _, [] => none
  | w :: word, c :: text => if w = c then after? word text else none

/-- Whether the text begins with the word. -/
def startsWith (word text : List Char) : Bool := (after? word text).isSome

/-! ## Cutting -/

/-- The text cut at the first occurrence of `word`: what stands before it
and what stands after it. -/
def cutAtFirst (word : List Char) : List Char → Option (List Char × List Char)
  | [] => if word = [] then some ([], []) else none
  | c :: rest =>
    match after? word (c :: rest) with
    | some tail => some ([], tail)
    | none => (cutAtFirst word rest).map fun (before, tail) => (c :: before, tail)

/-- The text from the first occurrence of a character on. -/
def fromFirst (c : Char) (text : List Char) : List Char := text.dropWhile (· ≠ c)

/-- The text up to and with the last occurrence of a character; empty if it
does not occur. -/
def throughLast (c : Char) (text : List Char) : List Char :=
  (text.reverse.dropWhile (· ≠ c)).reverse

/-- The text before and after the first separator, if there is one. -/
def splitOnce (sep : Char) : List Char → Option (List Char × List Char)
  | [] => none
  | c :: rest =>
    if c = sep then some ([], rest)
    else (splitOnce sep rest).map fun (before, tail) => (c :: before, tail)

/-- The pieces between separators, in order; a text without one is a single
piece, and so is the empty text. -/
def splitOn (sep : Char) : List Char → List (List Char)
  | [] => [[]]
  | c :: rest =>
    if c = sep then [] :: splitOn sep rest
    else
      match splitOn sep rest with
      | [] => [[c]]
      | piece :: pieces => (c :: piece) :: pieces

/-! ## Replacing -/

/-- Scans for `word`, copying what is not part of an occurrence. `skip`
counts the characters of the present occurrence that still have to pass. -/
def replaceScan (word value : List Char) : (skip : Nat) → List Char → List Char
  | _, [] => []
  | skip + 1, _ :: rest => replaceScan word value skip rest
  | 0, c :: rest =>
    if startsWith word (c :: rest) then value ++ replaceScan word value (word.length - 1) rest
    else c :: replaceScan word value 0 rest

/-- The text with every occurrence of a non-empty `word`, met from the left
and without overlap, exchanged for `value`. -/
def replaceAll (word value text : List Char) : List Char := replaceScan word value 0 text

/-! ## Joining -/

/-- The pieces with `sep` between neighbours. -/
def join (sep : List Char) : List (List Char) → List Char
  | [] => []
  | [piece] => piece
  | piece :: pieces => piece ++ sep ++ join sep pieces

/-- The texts with `sep` between neighbours. -/
def joined (sep : String) (pieces : List String) : String :=
  String.ofList (join sep.toList (pieces.map String.toList))

/-- The first `n` characters of a text. -/
def firstChars (n : Nat) (s : String) : String := String.ofList (s.toList.take n)

/-- The first `n` characters of a text; dots stand for what is left out. -/
def shortened (n : Nat) (s : String) : String :=
  if n < s.length then firstChars n s ++ "..." else s

/-! ## Letters of ASCII -/

/-- A text with the capital letters of ASCII made small. -/
def asciiLower (s : String) : String := String.ofList (s.toList.map Char.toLower)

/-- A text with the small letters of ASCII made capital. -/
def asciiUpper (s : String) : String := String.ofList (s.toList.map Char.toUpper)

end TriageDesk.Text
