/-
TriageDesk.Toml.Strings — strings and keys in TOML.

A string stands between quotes of one or the other kind, one or three at a
time. Between `"` a backslash begins an escape; between `'` every character
stands for itself. Only with three quotes may a string have line breaks. A key
is a word or a string, and keys are joined by points.
-/
import TriageDesk.Toml.Scalar

namespace TriageDesk.Toml

open Text

/-- Reads from the characters that remain; a result comes with what follows. -/
abbrev Reader (α : Type) := List Char → Option (α × List Char)

/-! ## Blanks and line breaks -/

/-- Whether a character is a blank within a line. -/
def isLineBlank (c : Char) : Bool := c = ' ' || c = '\t'

/-- What follows after blanks. -/
def skipLineBlanks (cs : List Char) : List Char := cs.dropWhile isLineBlank

/-- Whether a character may stand in a comment or a string. -/
def isPlain (c : Char) : Bool := c = '\t' || (0x20 ≤ c.toNat && c.toNat ≠ 0x7F)

/-- What follows a line break. -/
def afterBreak? : List Char → Option (List Char)
  | '\n' :: rest => some rest
  | '\r' :: '\n' :: rest => some rest
  | _ => none

/-- What follows after blanks and line breaks. -/
def skipWhite : List Char → List Char
  | '\r' :: '\n' :: rest => skipWhite rest
  | c :: rest => if isLineBlank c || c = '\n' then skipWhite rest else c :: rest
  | [] => []

/-! ## Escapes -/

/-- The number of so many hexadecimal digits. -/
def hexDigits? : Nat → Nat → Reader Nat
  | 0, n, cs => some (n, cs)
  | _ + 1, _, [] => none
  | count + 1, n, c :: rest =>
    match hexValue? c with
    | some d => hexDigits? count (n * 16 + d) rest
    | none => none

/-- The character of so many hexadecimal digits. -/
def codePoint? (count : Nat) : Reader Char := fun cs =>
  match hexDigits? count 0 cs with
  | some (n, rest) => if n.isValidChar then some (Char.ofNat n, rest) else none
  | none => none

/-- The character of an escape, from after the backslash on. -/
def escaped? : Reader Char
  | 'b' :: rest => some ('\x08', rest)
  | 't' :: rest => some ('\t', rest)
  | 'n' :: rest => some ('\n', rest)
  | 'f' :: rest => some ('\x0c', rest)
  | 'r' :: rest => some ('\r', rest)
  | '"' :: rest => some ('"', rest)
  | '\\' :: rest => some ('\\', rest)
  | 'u' :: rest => codePoint? 4 rest
  | 'U' :: rest => codePoint? 8 rest
  | _ => none

/-- What follows a line break that a backslash takes away, together with the white
space around it. -/
def joinedLine? (cs : List Char) : Option (List Char) :=
  (afterBreak? (skipLineBlanks cs)).map skipWhite

/-! ## Strings -/

/-- The characters of a string of one line, from after the opening quote on. -/
def lineString : (fuel : Nat) → (quote : Char) → Reader (List Char)
  | 0, _, _ => none
  | _ + 1, _, [] => none
  | fuel + 1, quote, c :: rest =>
    if c = quote then some ([], rest)
    else if c = '\\' ∧ quote = '"' then do
      let (e, rest) ← escaped? rest
      let (cs, rest) ← lineString fuel quote rest
      return (e :: cs, rest)
    else if isPlain c then do
      let (cs, rest) ← lineString fuel quote rest
      return (c :: cs, rest)
    else none

/-- The characters of a string of many lines, from after the opening quotes on. It ends
with three quotes; up to two more before them belong to it. -/
def blockString : (fuel : Nat) → (quote : Char) → Reader (List Char)
  | 0, _, _ => none
  | _ + 1, _, [] => none
  | fuel + 1, quote, c :: rest =>
    if c = quote then
      let quotes := (c :: rest).takeWhile (· = quote)
      let rest := rest.dropWhile (· = quote)
      if quotes.length < 3 then do
        let (cs, rest) ← blockString fuel quote rest
        return (quotes ++ cs, rest)
      else if quotes.length ≤ 5 then some (quotes.drop 3, rest)
      else none
    else if c = '\\' ∧ quote = '"' then
      match joinedLine? rest with
      | some rest => blockString fuel quote rest
      | none => do
        let (e, rest) ← escaped? rest
        let (cs, rest) ← blockString fuel quote rest
        return (e :: cs, rest)
    else
      match afterBreak? (c :: rest) with
      | some rest => do
        let (cs, rest) ← blockString fuel quote rest
        return ('\n' :: cs, rest)
      | none =>
        if isPlain c then do
          let (cs, rest) ← blockString fuel quote rest
          return (c :: cs, rest)
        else none

/-- A string of one line or of many. A line break right after three quotes is not part
of it. -/
def string? (quote : Char) (cs : List Char) : Option (String × List Char) :=
  match after? [quote, quote, quote] cs with
  | some rest =>
    let rest := (afterBreak? rest).getD rest
    (blockString (rest.length + 1) quote rest).map fun (s, rest) => (String.ofList s, rest)
  | none =>
    match cs with
    | [] => none
    | _ :: rest =>
      (lineString (rest.length + 1) quote rest).map fun (s, rest) => (String.ofList s, rest)

/-! ## Keys -/

/-- Whether a character may stand in a key without quotes. -/
def isKeyChar (c : Char) : Bool := c.isAlphanum || c = '_' || c = '-'

/-- A single key. -/
def key? : Reader String
  | [] => none
  | c :: rest =>
    if c = '"' ∨ c = '\'' then
      (lineString (rest.length + 1) c rest).map fun (s, rest) => (String.ofList s, rest)
    else if isKeyChar c then
      some (String.ofList ((c :: rest).takeWhile isKeyChar), rest.dropWhile isKeyChar)
    else none

/-- Keys joined by points, with blanks around them. -/
def keys? : (fuel : Nat) → Reader (List String)
  | 0, _ => none
  | fuel + 1, cs => do
    let (k, rest) ← key? (skipLineBlanks cs)
    match skipLineBlanks rest with
    | '.' :: rest =>
      let (ks, rest) ← keys? fuel rest
      return (k :: ks, rest)
    | rest => return ([k], rest)

end TriageDesk.Toml
