/-
TriageDesk.Json.Reader — reading the pieces of a JSON text.

A reader takes the runes that remain and gives a result with what remains
after it, or the first fault. `string`, `number` and `literal` read the
scalars, `skipValue` passes over a value that nobody asked for, and
`value` reads any value.

A number whose digits fit 64 bits is a whole number if it has neither
point nor exponent. Every other number is the nearest product or quotient
of the leading digits and a power of ten, both of the 64-bit binary
format, taken in that one operation.
-/
import TriageDesk.Json.Fault
import TriageDesk.Text.Digit

namespace TriageDesk.Json.Reader

open Text Decimal

/-- What remains to be read. -/
abbrev Rest := List Rune

/-- A reader of results of a type. -/
abbrev Reading (α : Type) := Rest → Except Fault (α × Rest)

/-! ## Blanks -/

/-- Whether a rune may stand between the pieces of a text. -/
def isBlankRune : Rune → Bool
  | .char c => c = ' ' || c = '\n' || c = '\t' || c = '\r'
  | .stray _ => false

/-- What remains after blanks. -/
def skipBlanks (s : Rest) : Rest := s.dropWhile isBlankRune

/-! ## Strings -/

/-- The value of four hexadecimal digits at the front, and what follows. -/
def fourHex? : Rest → Option (Nat × Rest)
  | .char a :: .char b :: .char c :: .char d :: rest => do
    let a ← hexValue? a
    let b ← hexValue? b
    let c ← hexValue? c
    let d ← hexValue? d
    return (((a * 16 + b) * 16 + c) * 16 + d, rest)
  | _ => none

/-- Four hexadecimal digits. Four octets are taken in any case; fewer are an
unfinished string. -/
def fourHex (s : Rest) : Except Fault (Nat × Rest) :=
  match fourHex? s with
  | some r => .ok r
  | none =>
    if Rune.octets s < 4 then .error ⟨.endInString, 0⟩
    else .error ⟨.invalidEscape, Rune.octets s - 4⟩

/-- A given character at the front, of which the second half of a surrogate
pair needs two. -/
def expectInPair (c : Char) : Rest → Except Fault Rest
  | [] => .error ⟨.endInString, 0⟩
  | r :: rest => if r = .char c then .ok rest else .error (Flaw.unfinishedSurrogate.at (r :: rest))

/-- The character of a hexadecimal escape; one beyond sixteen bits takes a pair
of them. -/
def unicodeEscape (s : Rest) : Except Fault (Char × Rest) := do
  let (n, rest) ← fourHex s
  if 0xDC00 ≤ n ∧ n ≤ 0xDFFF then throw (Flaw.loneSurrogate.before rest)
  if n < 0xD800 ∨ 0xDBFF < n then return (Char.ofNat n, rest)
  let rest ← expectInPair '\\' rest
  let rest ← expectInPair 'u' rest
  let (m, rest) ← fourHex rest
  if m < 0xDC00 ∨ 0xDFFF < m then throw (Flaw.loneSurrogate.before rest)
  return (Char.ofNat ((n - 0xD800) * 0x400 + (m - 0xDC00) + 0x10000), rest)

/-- The character of an escape, from after the backslash on. -/
def escape : Rest → Except Fault (Char × Rest)
  | [] => .error ⟨.endInString, 0⟩
  | .char '"' :: rest => .ok ('"', rest)
  | .char '\\' :: rest => .ok ('\\', rest)
  | .char '/' :: rest => .ok ('/', rest)
  | .char 'b' :: rest => .ok ('\x08', rest)
  | .char 'f' :: rest => .ok ('\x0c', rest)
  | .char 'n' :: rest => .ok ('\n', rest)
  | .char 'r' :: rest => .ok ('\r', rest)
  | .char 't' :: rest => .ok ('\t', rest)
  | .char 'u' :: rest => unicodeEscape rest
  | r :: rest => .error (Flaw.invalidEscape.at (r :: rest))

/-- The characters of a string up to its closing quote. `sound` is false once a
stray octet has been met; such a string is refused at its end. -/
def stringBody : (fuel : Nat) → (sound : Bool) → Rest → Except Fault (List Char × Rest)
  | 0, _, s => .error (Flaw.endInString.before s)
  | _ + 1, _, [] => .error ⟨.endInString, 0⟩
  | _ + 1, sound, .char '"' :: rest =>
    if sound then .ok ([], rest) else .error (Flaw.invalidCodePoint.before (.char '"' :: rest))
  | fuel + 1, sound, .char '\\' :: rest => do
    let (c, rest) ← escape rest
    let (cs, rest) ← stringBody fuel sound rest
    return (c :: cs, rest)
  | fuel + 1, sound, .char c :: rest =>
    if c.toNat < 0x20 then .error (Flaw.controlCharacter.before rest)
    else do
      let (cs, rest) ← stringBody fuel sound rest
      return (c :: cs, rest)
  | fuel + 1, _, .stray _ :: rest => stringBody fuel false rest

/-- A string from after its opening quote on. -/
def string : Reading String := fun s => do
  let (cs, rest) ← stringBody (s.length + 1) true s
  return (String.ofList cs, rest)

/-! ## Numbers -/

/-- The value of a decimal digit. -/
def digit? : Rune → Option Nat
  | .char c => if '0' ≤ c ∧ c ≤ '9' then some (c.toNat - '0'.toNat) else none
  | .stray _ => none

/-- Whether a digit comes next. -/
def digitNext : Rest → Bool
  | [] => false
  | r :: _ => (digit? r).isSome

/-- Whether the mark of an exponent comes next. -/
def exponentNext : Rest → Bool
  | .char c :: _ => c = 'e' || c = 'E'
  | _ => false

/-- Takes digits onto a value as long as it stays within a limit: the value, the
number of digits taken, and what remains. -/
def takeDigits (limit : Nat) : (value taken : Nat) → Rest → Nat × Nat × Rest
  | value, taken, [] => (value, taken, [])
  | value, taken, r :: rest =>
    match digit? r with
    | some d =>
      if limit < value * 10 + d then (value, taken, r :: rest)
      else takeDigits limit (value * 10 + d) (taken + 1) rest
    | none => (value, taken, r :: rest)

/-- Passes over digits: their number, and what remains. -/
def dropDigits : Rest → Nat × Rest
  | [] => (0, [])
  | r :: rest =>
    if (digit? r).isSome then let (n, rest) := dropDigits rest; (n + 1, rest) else (0, r :: rest)

/-- Greatest value of leading digits. -/
def maxSignificand : Nat := Nat.pow 2 64 - 1

/-- Greatest exponent that is not cut off. -/
def maxExponent : Nat := Nat.pow 2 31 - 1

/-- Divides by the greatest power of ten there is until the exponent is in reach
or nothing is left. -/
def scaleDown : (fuel : Nat) → Float → Int → Float × Int
  | 0, f, e => (f, e)
  | fuel + 1, f, e =>
    if e < -308 ∧ f != 0.0 then scaleDown fuel (f / Float.ofScientific 1 false 308) (e + 308)
    else (f, e)

/-- A sign, leading digits and an exponent of ten as a number; none if it is out
of range. -/
def assemble (positive : Bool) (significand : Nat) (exponent : Int) : Option Binary64 :=
  let start := significand.toUInt64.toFloat
  let (f, e) := scaleDown 4 start exponent
  let size :=
    if f == 0.0 then some f
    else if 308 < e then none
    else if 0 ≤ e then
      let g := f * Float.ofScientific 1 false e.toNat
      if g.isInf then none else some g
    else some (f / Float.ofScientific 1 false e.natAbs)
  size.map fun g => Binary64.ofFloat (if positive then g else -g)

/-- The number of the parts read so far. -/
def finishNumber (positive : Bool) (significand : Nat) (exponent : Int) : Reading Number :=
  fun s =>
    match assemble positive significand exponent with
    | some x => .ok (.float x, s)
    | none => .error (Flaw.numberOutOfRange.before s)

/-- The exponent part, from its mark on. -/
def exponentPart (positive : Bool) (significand : Nat) (start : Int) : Reading Number := fun s =>
  let s := s.tail
  let (up, s) :=
    match s with
    | .char '+' :: rest => (true, rest)
    | .char '-' :: rest => (false, rest)
    | _ => (true, s)
  match s with
  | [] => .error ⟨.endInValue, 0⟩
  | r :: _ =>
    if (digit? r).isNone then .error (Flaw.invalidNumber.at s)
    else
      let (value, _, rest) := takeDigits maxExponent 0 0 s
      if digitNext rest then
        if significand ≠ 0 ∧ up then .error (Flaw.numberOutOfRange.before rest.tail)
        else
          let zero : Float := if positive then 0.0 else -0.0
          .ok (.float (Binary64.ofFloat zero), (dropDigits rest).2)
      else
        finishNumber positive significand (if up then start + value else start - value) rest

/-- The part after the point, from the point on. -/
def fractionPart (positive : Bool) (significand : Nat) (start : Int) : Reading Number := fun s =>
  let (value, taken, rest) := takeDigits maxSignificand significand 0 s.tail
  if digitNext rest then
    let rest := (dropDigits rest).2
    if exponentNext rest then exponentPart positive value (start - taken) rest
    else finishNumber positive value (start - taken) rest
  else if taken = 0 then
    match rest with
    | [] => .error ⟨.endInValue, 0⟩
    | _ => .error (Flaw.invalidNumber.at rest)
  else if exponentNext rest then exponentPart positive value (start - taken) rest
  else finishNumber positive value (start - taken) rest

/-- Whether the point of a number comes next. -/
def pointNext : Rest → Bool
  | .char '.' :: _ => true
  | _ => false

/-- What follows the digits before the point. -/
def numberTail (positive : Bool) (significand : Nat) : Reading Number := fun s =>
  if pointNext s then fractionPart positive significand 0 s
  else if exponentNext s then exponentPart positive significand 0 s
  else if positive then .ok (.int significand, s)
  else if significand = 0 ∨ Nat.pow 2 63 < significand then finishNumber false significand 0 s
  else .ok (.int (-significand), s)

/-- A number, from after its sign on. -/
def number (positive : Bool) : Reading Number
  | [] => .error ⟨.endInValue, 0⟩
  | .char '0' :: rest =>
    if digitNext rest then .error (Flaw.invalidNumber.at rest) else numberTail positive 0 rest
  | r :: rest =>
    if (digit? r).isNone then .error (Flaw.invalidNumber.at (r :: rest))
    else
      let (value, _, tail) := takeDigits maxSignificand 0 0 (r :: rest)
      if digitNext tail then
        let (more, tail) := dropDigits tail
        if pointNext tail then fractionPart positive value more tail
        else if exponentNext tail then exponentPart positive value more tail
        else finishNumber positive value more tail
      else numberTail positive value tail

/-! ## Literals -/

/-- The letters of a literal. -/
def literal : List Char → Rest → Except Fault Rest
  | [], s => .ok s
  | _ :: _, [] => .error ⟨.endInValue, 0⟩
  | c :: word, r :: rest =>
    if r = .char c then literal word rest else .error (Flaw.expectedLiteral.at (r :: rest))

/-! ## Separators -/

/-- The colon after a name. -/
def colon (s : Rest) : Except Fault Rest :=
  match skipBlanks s with
  | .char ':' :: rest => .ok rest
  | [] => .error ⟨.endInObject, 0⟩
  | rest => .error (Flaw.expectedColon.at rest)

/-- Whether another item of a list follows, and the text from it on. -/
def nextItem (first : Bool) (s : Rest) : Except Fault (Bool × Rest) :=
  match skipBlanks s with
  | [] => .error ⟨.endInList, 0⟩
  | .char ']' :: rest => .ok (false, .char ']' :: rest)
  | r :: rest =>
    if first then .ok (true, r :: rest)
    else if r = .char ',' then
      match skipBlanks rest with
      | [] => .error ⟨.endInValue, 0⟩
      | .char ']' :: rest => .error (Flaw.trailingComma.at (.char ']' :: rest))
      | rest => .ok (true, rest)
    else .error (Flaw.expectedListCommaOrEnd.at (r :: rest))

/-- The name of the next member of an object, if one follows. -/
def nextName (first : Bool) (s : Rest) : Except Fault (Option String × Rest) :=
  match skipBlanks s with
  | [] => .error ⟨.endInObject, 0⟩
  | .char '}' :: rest => .ok (none, .char '}' :: rest)
  | r :: rest =>
    if first then name (r :: rest)
    else if r = .char ',' then
      match skipBlanks rest with
      | [] => .error ⟨.endInValue, 0⟩
      | .char '}' :: rest => .error (Flaw.trailingComma.at (.char '}' :: rest))
      | rest => name rest
    else .error (Flaw.expectedObjectCommaOrEnd.at (r :: rest))
where
  name : Rest → Except Fault (Option String × Rest)
    | .char '"' :: rest => do
      let (k, rest) ← string rest
      return (some k, rest)
    | rest => .error (Flaw.keyMustBeString.at rest)

/-- The end of a list after its last item: what remains, or the flaw; with it the
place that has been reached. -/
def closeList (s : Rest) : Except Fault Rest × Rest :=
  match skipBlanks s with
  | .char ']' :: rest => (.ok rest, rest)
  | .char ',' :: rest =>
    match skipBlanks rest with
    | .char ']' :: rest => (.error (Flaw.trailingComma.at (.char ']' :: rest)), .char ']' :: rest)
    | rest => (.error (Flaw.trailingCharacters.at rest), rest)
  | [] => (.error ⟨.endInList, 0⟩, [])
  | rest => (.error (Flaw.trailingCharacters.at rest), rest)

/-- The end of an object after its last member, in the same way. -/
def closeObject (s : Rest) : Except Fault Rest × Rest :=
  match skipBlanks s with
  | .char '}' :: rest => (.ok rest, rest)
  | .char ',' :: rest => (.error (Flaw.trailingComma.at (.char ',' :: rest)), .char ',' :: rest)
  | [] => (.error ⟨.endInObject, 0⟩, [])
  | rest => (.error (Flaw.trailingCharacters.at rest), rest)

/-! ## Lists and objects -/

/-- The items of a list, from after its bracket to after the closing one. -/
def items {α : Type} (item : Reading α) : (fuel : Nat) → (first : Bool) → Reading (List α)
  | 0, _, s => .error (Flaw.endInList.before s)
  | fuel + 1, first, s => do
    match ← nextItem first s with
    | (false, rest) => return ([], rest.tail)
    | (true, rest) =>
      let (a, rest) ← item rest
      let (more, rest) ← items item fuel false rest
      return (a :: more, rest)

/-- The members of an object, from after its brace to after the closing one. -/
def members {α : Type} (item : Reading α) : (fuel : Nat) → (first : Bool) → Reading (List (String × α))
  | 0, _, s => .error (Flaw.endInObject.before s)
  | fuel + 1, first, s => do
    match ← nextName first s with
    | (none, rest) => return ([], rest.tail)
    | (some k, rest) =>
      let rest ← colon rest
      let (a, rest) ← item rest
      let (more, rest) ← members item fuel false rest
      return ((k, a) :: more, rest)

/-! ## Any value -/

/-- Any value. `room` is the number of brackets that may still be opened inside
one another. -/
def value : (room : Nat) → Reading Json
  | room, s =>
    match skipBlanks s with
    | [] => .error ⟨.endInValue, 0⟩
    | .char 'n' :: rest => do return (.null, ← literal ['u', 'l', 'l'] rest)
    | .char 't' :: rest => do return (.bool true, ← literal ['r', 'u', 'e'] rest)
    | .char 'f' :: rest => do return (.bool false, ← literal ['a', 'l', 's', 'e'] rest)
    | .char '-' :: rest => do
      let (n, rest) ← number false rest
      return (.number n, rest)
    | .char '"' :: rest => do
      let (t, rest) ← string rest
      return (.string t, rest)
    | .char '[' :: rest =>
      match room with
      | 0 => .error (Flaw.tooDeep.at (.char '[' :: rest))
      | room + 1 => do
        let (vs, rest) ← items (value room) rest.length true rest
        return (.array vs, rest)
    | .char '{' :: rest =>
      match room with
      | 0 => .error (Flaw.tooDeep.at (.char '{' :: rest))
      | room + 1 => do
        let (ms, rest) ← members (value room) rest.length true rest
        return (ofMembers ms, rest)
    | r :: rest =>
      if (digit? r).isSome then do
        let (n, rest) ← number true (r :: rest)
        return (.number n, rest)
      else .error (Flaw.expectedValue.at (r :: rest))

/-- The number of brackets that may be open at once in a text. -/
def maxDepth : Nat := 127

/-! ## Values nobody asked for -/

/-- A bracket that is open while a value is passed over. -/
inductive Frame
  | list
  | object
deriving DecidableEq, Repr

/-- Passes over an escape; a code that is no character is accepted. -/
def skipEscape : Rest → Except Fault Rest
  | .char 'u' :: rest => do return (← fourHex rest).2
  | s => do return (← escape s).2

/-- Passes over a string from after its opening quote on. -/
def skipString : (fuel : Nat) → Rest → Except Fault Rest
  | 0, s => .error (Flaw.endInString.before s)
  | _ + 1, [] => .error ⟨.endInString, 0⟩
  | _ + 1, .char '"' :: rest => .ok rest
  | fuel + 1, .char '\\' :: rest => do skipString fuel (← skipEscape rest)
  | fuel + 1, .char c :: rest =>
    if c.toNat < 0x20 then .error (Flaw.controlCharacter.before (.char c :: rest))
    else skipString fuel rest
  | fuel + 1, .stray _ :: rest => skipString fuel rest

/-- Passes over an exponent part, from its mark on. -/
def skipExponent (s : Rest) : Except Fault Rest :=
  let s := s.tail
  let s :=
    match s with
    | .char '+' :: rest => rest
    | .char '-' :: rest => rest
    | _ => s
  match s with
  | [] => .error ⟨.invalidNumber, 0⟩
  | r :: rest =>
    if (digit? r).isSome then .ok (dropDigits rest).2 else .error (Flaw.invalidNumber.at (r :: rest))

/-- Passes over a number, from after its sign on. -/
def skipNumber (s : Rest) : Except Fault Rest := do
  let rest ←
    match s with
    | [] => throw ⟨.invalidNumber, 0⟩
    | .char '0' :: rest =>
      if digitNext rest then throw (Flaw.invalidNumber.at rest) else pure rest
    | r :: rest =>
      if (digit? r).isSome then pure (dropDigits rest).2
      else throw (Flaw.invalidNumber.at (r :: rest))
  if pointNext rest then
    let (n, rest) := dropDigits rest.tail
    if n = 0 then throw (Flaw.invalidNumber.at rest)
    if exponentNext rest then skipExponent rest else pure rest
  else if exponentNext rest then skipExponent rest
  else pure rest

/-- Passes over a scalar, or opens a bracket. -/
def skipScalar (s : Rest) : Except Fault (Option Frame × Rest) :=
  match skipBlanks s with
  | [] => .error ⟨.endInValue, 0⟩
  | .char 'n' :: rest => do return (none, ← literal ['u', 'l', 'l'] rest)
  | .char 't' :: rest => do return (none, ← literal ['r', 'u', 'e'] rest)
  | .char 'f' :: rest => do return (none, ← literal ['a', 'l', 's', 'e'] rest)
  | .char '-' :: rest => do return (none, ← skipNumber rest)
  | .char '"' :: rest => do return (none, ← skipString (rest.length + 1) rest)
  | .char '[' :: rest => .ok (some .list, rest)
  | .char '{' :: rest => .ok (some .object, rest)
  | r :: rest =>
    if (digit? r).isSome then do return (none, ← skipNumber (r :: rest))
    else .error (Flaw.expectedValue.at (r :: rest))

/-- Passes over the name of a member and its colon. -/
def skipName (s : Rest) : Except Fault Rest :=
  match skipBlanks s with
  | .char '"' :: rest => do colon (← skipString (rest.length + 1) rest)
  | [] => .error ⟨.endInObject, 0⟩
  | rest => .error (Flaw.keyMustBeString.at rest)

/-- What comes after a value, or after an opening bracket if `comma` is false:
brackets are closed until a comma announces another value or all are
closed. -/
def skipCloses : (open_ : List Frame) → (comma : Bool) → Rest → Except Fault (List Frame × Rest)
  | [], _, s => .ok ([], s)
  | frame :: outer, comma, s =>
    match skipBlanks s with
    | [] => .error ⟨match frame with | .list => .endInList | .object => .endInObject, 0⟩
    | r :: rest =>
      if comma ∧ r = .char ',' then .ok (frame :: outer, rest)
      else if r = .char (match frame with | .list => ']' | .object => '}') then
        skipCloses outer true rest
      else if comma then
        .error ((match frame with
          | .list => Flaw.expectedListCommaOrEnd
          | .object => Flaw.expectedObjectCommaOrEnd).at (r :: rest))
      else .ok (frame :: outer, r :: rest)

/-- Passes over values until every open bracket is closed. -/
def skipOpen : (fuel : Nat) → List Frame → Rest → Except Fault Rest
  | 0, _, s => .error (Flaw.endInValue.before s)
  | fuel + 1, frames, s => do
    let (opened, rest) ← skipScalar s
    let (frames, rest) ←
      match opened with
      | some frame => skipCloses (frame :: frames) false rest
      | none => skipCloses frames true rest
    match frames with
    | [] => return rest
    | .list :: _ => skipOpen fuel frames rest
    | .object :: _ => do skipOpen fuel frames (← skipName rest)

/-- Passes over a value. It has to be well-formed, but may be nested to any
depth and hold any number and any escape. -/
def skipValue (s : Rest) : Except Fault Rest := skipOpen (s.length + 1) [] s

end TriageDesk.Json.Reader
