/-
TriageDesk.Json.Fault — why a text or a value cannot be read, and where.

A `Mismatch` is a value of the wrong form; a `Flaw` is anything that can be
wrong with a text: its form as JSON, or a mismatch of a value in it. A
`Fault` is a flaw with its place, given by the octets that follow it.
-/
import TriageDesk.Json.Printer
import TriageDesk.Text.Rune
import TriageDesk.Text.Search

namespace TriageDesk.Json

open Text

/-! ## Values of the wrong form -/

/-- What was found where something else was expected. -/
inductive Found
  | unit
  | bool (b : Bool)
  | number (n : Number)
  | text (s : String)
  | sequence
  | map
deriving DecidableEq, Repr

/-- A value as it is described when it was not expected. -/
def found : Json → Found
  | .null => .unit
  | .bool b => .bool b
  | .number n => .number n
  | .string s => .text s
  | .array _ => .sequence
  | .object _ => .map

/-- Why a value does not have the form that was expected. -/
inductive Mismatch
  | wrongType (found : Found) (expected : String)
  | wrongValue (found : Found) (expected : String)
  | unknownVariant (name : String) (variants : List String)
  | missingField (name : String)
  | duplicateField (name : String)
  | wrongLength (length : Nat) (expected : String)
  | malformed (reason : String)
deriving DecidableEq, Repr

/-- What was found, in words. -/
def Found.describe : Found → String
  | .unit => "null"
  | .bool b => s!"boolean `{b}`"
  | .number (.int n) => s!"integer `{n}`"
  | .number (.float x) => s!"floating point `{String.ofList (numberLayout.write x)}`"
  | .text s => s!"string {quoted s}"
  | .sequence => "sequence"
  | .map => "map"

/-- A choice of names, in words. -/
def describeVariants : List String → String
  | [] => "there are no variants"
  | [a] => s!"expected `{a}`"
  | [a, b] => s!"expected `{a}` or `{b}`"
  | many => "expected one of " ++ joined ", " (many.map fun v => s!"`{v}`")

/-- A mismatch in words. -/
def Mismatch.message : Mismatch → String
  | .wrongType found expected => s!"invalid type: {found.describe}, expected {expected}"
  | .wrongValue found expected => s!"invalid value: {found.describe}, expected {expected}"
  | .unknownVariant name variants => s!"unknown variant `{name}`, {describeVariants variants}"
  | .missingField name => s!"missing field `{name}`"
  | .duplicateField name => s!"duplicate field `{name}`"
  | .wrongLength length expected => s!"invalid length {length}, expected {expected}"
  | .malformed reason => reason

/-! ## Texts that cannot be read -/

/-- What is wrong with a text. -/
inductive Flaw
  | endInList
  | endInObject
  | endInString
  | endInValue
  | expectedColon
  | expectedListCommaOrEnd
  | expectedObjectCommaOrEnd
  | expectedLiteral
  | expectedValue
  | invalidEscape
  | invalidNumber
  | numberOutOfRange
  | invalidCodePoint
  | controlCharacter
  | keyMustBeString
  | loneSurrogate
  | trailingComma
  | trailingCharacters
  | unfinishedSurrogate
  | tooDeep
  | mismatch (m : Mismatch)
deriving DecidableEq, Repr

/-- A flaw in words. -/
def Flaw.message : Flaw → String
  | .endInList => "EOF while parsing a list"
  | .endInObject => "EOF while parsing an object"
  | .endInString => "EOF while parsing a string"
  | .endInValue => "EOF while parsing a value"
  | .expectedColon => "expected `:`"
  | .expectedListCommaOrEnd => "expected `,` or `]`"
  | .expectedObjectCommaOrEnd => "expected `,` or `\x7d`"
  | .expectedLiteral => "expected ident"
  | .expectedValue => "expected value"
  | .invalidEscape => "invalid escape"
  | .invalidNumber => "invalid number"
  | .numberOutOfRange => "number out of range"
  | .invalidCodePoint => "invalid unicode code point"
  | .controlCharacter => "control character (\\u0000-\\u001F) found while parsing a string"
  | .keyMustBeString => "key must be a string"
  | .loneSurrogate => "lone leading surrogate in hex escape"
  | .trailingComma => "trailing comma"
  | .trailingCharacters => "trailing characters"
  | .unfinishedSurrogate => "unexpected end of hex escape"
  | .tooDeep => "recursion limit exceeded"
  | .mismatch m => m.message

/-- A flaw and its place: the number of octets of the text after it. -/
structure Fault where
  flaw : Flaw
  left : Nat
deriving DecidableEq, Repr

/-- A fault right before the rest of the text. -/
def Flaw.before (flaw : Flaw) (rest : List Rune) : Fault := ⟨flaw, Rune.octets rest⟩

/-- A fault in the first of the remaining octets, if there is one. -/
def Flaw.at (flaw : Flaw) (rest : List Rune) : Fault := ⟨flaw, Rune.octets rest - 1⟩

/-- Line and column after a number of octets of a text. Lines count from one;
the column is the number of octets since the line began. -/
def positionAfter (octets : Nat) (text : List Rune) : Nat × Nat :=
  go text octets 1 0
where
  go : List Rune → Nat → Nat → Nat → Nat × Nat
    | [], _, line, column => (line, column)
    | r :: rest, octets, line, column =>
      if octets < r.width then (line, column + octets)
      else if r = .char '\n' then go rest (octets - r.width) (line + 1) 0
      else go rest (octets - r.width) line (column + r.width)

/-- A fault of a text in words, with line and column. -/
def Fault.message (fault : Fault) (text : List Rune) : String :=
  let (line, column) := positionAfter (Rune.octets text - fault.left) text
  s!"{fault.flaw.message} at line {line} column {column}"

end TriageDesk.Json
