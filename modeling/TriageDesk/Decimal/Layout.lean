/-
TriageDesk.Decimal.Layout — how the digits of a number are written down.

A `Layout` fixes the decisions of one output format: which numbers are
written positionally, whether a whole number keeps its point, how an
exponent is marked, and which way a tie between digits goes.
-/
import TriageDesk.Decimal.Shortest

namespace TriageDesk.Decimal

/-- The decisions of a format for numbers. -/
structure Layout where
  /-- Least exponent of a leading digit that is written positionally. -/
  plainFrom : Int
  /-- Greatest exponent of a leading digit that is written positionally. -/
  plainTo : Int
  /-- A whole number ends in `.0`. -/
  keepPoint : Bool
  /-- A positive exponent has a plus sign. -/
  plusSign : Bool
  /-- Which way a tie goes. -/
  tie : Tie

/-- Digits with the point after the first `whole` of them, zeros filling what is
missing on either side. -/
def Layout.positional (layout : Layout) (digits : List Char) (whole : Int) : List Char :=
  if whole ≤ 0 then '0' :: '.' :: List.replicate (-whole).toNat '0' ++ digits
  else
    let w := whole.toNat
    if w < digits.length then digits.take w ++ '.' :: digits.drop w
    else
      digits ++ List.replicate (w - digits.length) '0' ++
        (if layout.keepPoint then ['.', '0'] else [])

/-- Digits with the point after the first and an exponent of ten. -/
def Layout.scientific (layout : Layout) (digits : List Char) (exponent : Int) : List Char :=
  let mark :=
    if exponent < 0 then '-' :: (Nat.toDigits 10 exponent.natAbs)
    else (if layout.plusSign then ['+'] else []) ++ Nat.toDigits 10 exponent.natAbs
  match digits with
  | [] => []
  | [d] => d :: 'e' :: mark
  | d :: rest => d :: '.' :: rest ++ 'e' :: mark

/-- A finite number as text. -/
def Layout.write (layout : Layout) (x : Binary64) : List Char :=
  let sign := if x.isNegative then ['-'] else []
  let d := x.magnitude.shortest layout.tie
  let digits := Nat.toDigits 10 d.digits
  let leading := d.exponent + digits.length - 1
  sign ++
    if d.digits = 0 then '0' :: (if layout.keepPoint then ['.', '0'] else [])
    else if layout.plainFrom ≤ leading ∧ leading ≤ layout.plainTo then
      layout.positional digits (leading + 1)
    else layout.scientific digits leading

end TriageDesk.Decimal
