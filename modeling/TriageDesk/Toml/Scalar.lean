/-
TriageDesk.Toml.Scalar — numbers, truth values and moments in TOML.

A scalar that is no string is a word of letters, digits and the marks `+`,
`-`, `.`, `:` and `_`. A whole number has at most 64 bits. Moments become
texts in one form: a capital `T` between date and time of day, a capital `Z`
for universal time, and no zeros at the end of a fraction.
-/
import TriageDesk.Decimal.Numeral
import TriageDesk.Json.Value
import TriageDesk.Text.Digit
import TriageDesk.Time.Instant

namespace TriageDesk.Toml

open Text Decimal

/-! ## Digits -/

/-- Digits without the underscores between them. Each underscore stands between two
digits. -/
def grouped? (isDigit : Char → Bool) : List Char → Option (List Char)
  | [] => none
  | [c] => if isDigit c then some [c] else none
  | c :: '_' :: rest => if isDigit c then (grouped? isDigit rest).map (c :: ·) else none
  | c :: rest => if isDigit c then (grouped? isDigit rest).map (c :: ·) else none

/-- The number of digits of a base. -/
def inBase? (base : Nat) (cs : List Char) : Option Nat :=
  (grouped? (fun c => (digitValue? base c).isSome) cs).map
    (·.foldl (fun n c => n * base + (digitValue? base c).getD 0) 0)

/-! ## Numbers -/

/-- Digits of which the first is no zero, unless it stands alone. -/
def plainDigits? (cs : List Char) : Option (List Char) :=
  match grouped? Char.isDigit cs with
  | some ('0' :: _ :: _) => none
  | digits => digits

/-- A whole number, if it fits 64 bits with a sign. -/
def fitting? (n : Int) : Option Int := if -(Nat.pow 2 63) ≤ n ∧ n < Nat.pow 2 63 then some n else none

/-- A whole number. -/
def integer? (cs : List Char) : Option Int :=
  match cs with
  | '0' :: 'x' :: digits => (inBase? 16 digits).bind fun n => fitting? n
  | '0' :: 'o' :: digits => (inBase? 8 digits).bind fun n => fitting? n
  | '0' :: 'b' :: digits => (inBase? 2 digits).bind fun n => fitting? n
  | cs =>
    let (negative, digits) := takeSign cs
    (plainDigits? digits).bind fun digits =>
      fitting? (if negative then -(digitsValue digits : Int) else digitsValue digits)

/-- Splits a numeral at the mark of its exponent. -/
def splitExponent (cs : List Char) : List Char × Option (List Char) :=
  let isMark (c : Char) : Bool := c = 'e' || c = 'E'
  match cs.dropWhile (!isMark ·) with
  | [] => (cs, none)
  | _ :: exponent => (cs.takeWhile (!isMark ·), some exponent)

/-- A number with a point or an exponent, both of them between digits. -/
def fractional? (cs : List Char) : Option Binary64 := do
  let (negative, rest) := takeSign cs
  if rest = ['i', 'n', 'f'] then return signed negative (Float.ofScientific 1 false 400)
  if rest = ['n', 'a', 'n'] then return signed negative (0.0 / 0.0)
  let (significand, exponent?) := splitExponent rest
  let whole ← plainDigits? (significand.takeWhile (· ≠ '.'))
  let fraction ←
    match significand.dropWhile (· ≠ '.') with
    | [] => if exponent?.isNone then none else some []
    | _ :: digits => grouped? Char.isDigit digits
  let exponent ←
    match exponent? with
    | none => some 0
    | some cs =>
      let (negative, digits) := takeSign cs
      (grouped? Char.isDigit digits).map fun digits =>
        if negative then -(digitsValue digits : Int) else digitsValue digits
  let x := nearest (digitsValue (whole ++ fraction)) (exponent - (fraction.length : Int))
  if x.isInf ∧ !negative then none
  return signed negative x

/-! ## Moments -/

/-- Two digits, up to a bound. -/
def twoDigits? (most : Nat) (a b : Char) : Option Nat :=
  if a.isDigit ∧ b.isDigit ∧ digitsValue [a, b] ≤ most then some (digitsValue [a, b]) else none

/-- A date, and what follows it. -/
def date? : List Char → Option (List Char × List Char)
  | a :: b :: c :: d :: '-' :: e :: f :: '-' :: g :: h :: rest => do
    if [a, b, c, d].all Char.isDigit then
      let month ← twoDigits? 12 e f
      let day ← twoDigits? 31 g h
      if month = 0 ∨ day = 0 then none
      if Time.daysInMonth (digitsValue [a, b, c, d]) month < day then none
      return ([a, b, c, d, '-', e, f, '-', g, h], rest)
    else none
  | _ => none

/-- The fraction of a second in at most nine digits, without zeros at its end. -/
def fractionText (digits : List Char) : List Char :=
  match ((digits.take 9).reverse.dropWhile (· = '0')).reverse with
  | [] => []
  | digits => '.' :: digits

/-- A time of day, and what follows it. -/
def clock? : List Char → Option (List Char × List Char)
  | a :: b :: ':' :: c :: d :: ':' :: e :: f :: rest => do
    let _ ← twoDigits? 23 a b
    let _ ← twoDigits? 59 c d
    let _ ← twoDigits? 60 e f
    let time := [a, b, ':', c, d, ':', e, f]
    match rest with
    | '.' :: rest =>
      let digits := rest.takeWhile Char.isDigit
      if digits = [] then none
      return (time ++ fractionText digits, rest.dropWhile Char.isDigit)
    | rest => return (time, rest)
  | _ => none

/-- The distance to universal time, at the end of a moment. -/
def offset? : List Char → Option (List Char)
  | [] => some []
  | ['Z'] | ['z'] => some ['Z']
  | [sign, a, b, ':', c, d] => do
    let hours ← twoDigits? 23 a b
    let minutes ← twoDigits? 59 c d
    if sign ≠ '+' ∧ sign ≠ '-' then none
    let sign := if hours = 0 ∧ minutes = 0 then '+' else sign
    return [sign, a, b, ':', c, d]
  | _ => none

/-- A moment: a date, a time of day, or both with or without the distance to
universal time. -/
def moment? (cs : List Char) : Option (List Char) :=
  match date? cs with
  | some (date, []) => some date
  | some (date, c :: rest) =>
    if c = 'T' ∨ c = 't' ∨ c = ' ' then do
      let (time, rest) ← clock? rest
      return date ++ 'T' :: time ++ (← offset? rest)
    else none
  | none =>
    match clock? cs with
    | some (time, []) => some time
    | _ => none

/-! ## Words -/

/-- Whether a character may stand in a word. -/
def isWordChar (c : Char) : Bool :=
  c.isAlphanum || c = '+' || c = '-' || c = '.' || c = ':' || c = '_'

/-- Cuts off the word at the front. A blank between a date and a digit belongs to it. -/
def takeWord (cs : List Char) : List Char × List Char :=
  let word := cs.takeWhile isWordChar
  let rest := cs.dropWhile isWordChar
  match date? word, rest with
  | some (_, []), ' ' :: c :: more =>
    if c.isDigit then (word ++ ' ' :: (c :: more).takeWhile isWordChar, (c :: more).dropWhile isWordChar)
    else (word, rest)
  | _, rest => (word, rest)

/-- The value of a word. -/
def scalar? (word : List Char) : Option Json :=
  if word = "true".toList then some (.bool true)
  else if word = "false".toList then some (.bool false)
  else
    match integer? word, fractional? word, moment? word with
    | some n, _, _ => some (.int n)
    | none, some x, _ => some (.number (.float x))
    | none, none, some t => some (.string (String.ofList t))
    | none, none, none => none

end TriageDesk.Toml
