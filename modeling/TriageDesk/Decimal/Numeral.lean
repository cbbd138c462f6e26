/-
TriageDesk.Decimal.Numeral — decimal numerals as numbers of the 64-bit binary
format.

A numeral stands for the nearest number of the format, infinity included.
Digits before or after the point may be missing, but not both; an exponent
may follow. The words `inf`, `infinity` and `nan`, in any letters, are
numerals too.
-/
import TriageDesk.Decimal.Binary64
import TriageDesk.Text.Search

namespace TriageDesk.Decimal

open Text

/-- The natural number of some decimal digits. -/
def digitsValue (digits : List Char) : Nat :=
  digits.foldl (fun n c => n * 10 + (c.toNat - '0'.toNat)) 0

/-- The number nearest to `digits * 10 ^ exponent`. -/
def nearest (digits : Nat) (exponent : Int) : Float :=
  let leading := exponent + (Nat.toDigits 10 digits).length
  if digits = 0 ∨ leading < -330 then 0.0
  else if 310 < leading then Float.ofScientific 1 false 400
  else Float.ofScientific digits (exponent < 0) exponent.natAbs

/-- A number with a sign. -/
def signed (negative : Bool) (x : Float) : Binary64 := .ofFloat (if negative then -x else x)

/-- Whether a numeral begins with a minus sign, and what follows its sign. -/
def takeSign : List Char → Bool × List Char
  | '-' :: rest => (true, rest)
  | '+' :: rest => (false, rest)
  | cs => (false, cs)

/-- The exponent of a numeral, from after its mark on. -/
def exponent? (cs : List Char) : Option Int :=
  let (negative, digits) := takeSign cs
  if digits ≠ [] ∧ digits.all Char.isDigit then
    some (if negative then -(digitsValue digits : Int) else digitsValue digits)
  else none

/-- The number of a numeral without sign. -/
def unsigned? (cs : List Char) : Option Float :=
  let whole := cs.takeWhile Char.isDigit
  let rest := cs.dropWhile Char.isDigit
  let (fraction, rest) :=
    match rest with
    | '.' :: rest => (rest.takeWhile Char.isDigit, rest.dropWhile Char.isDigit)
    | rest => ([], rest)
  if whole = [] ∧ fraction = [] then none
  else
    let digits := digitsValue (whole ++ fraction)
    match rest with
    | [] => some (nearest digits (-(fraction.length : Int)))
    | c :: rest =>
      if c = 'e' ∨ c = 'E' then
        (exponent? rest).map fun e => nearest digits (e - (fraction.length : Int))
      else none

/-- The number of a word for one. -/
def word? (cs : List Char) : Option Float :=
  match asciiLower (String.ofList cs) with
  | "inf" | "infinity" => some (Float.ofScientific 1 false 400)
  | "nan" => some (0.0 / 0.0)
  | _ => none

/-- The number of a numeral. -/
def numeral? (cs : List Char) : Option Binary64 :=
  let (negative, rest) := takeSign cs
  ((word? rest).or (unsigned? rest)).map (signed negative)

end TriageDesk.Decimal
