/-
TriageDesk.Decimal.Shortest — the fewest decimal digits that identify a
number of the 64-bit binary format.

The reals that round to a number form an interval around it. For one
digit, two digits and so on up to seventeen, the two neighbours of the
number on that decimal grid are tried: the first grid with a neighbour in
the interval wins, and of two neighbours the nearer. All comparisons are
exact, on natural numbers.
-/
import TriageDesk.Decimal.Binary64

namespace TriageDesk.Decimal

/-- The decimal number `digits * 10 ^ exponent`. -/
structure Scaled where
  digits : Nat
  exponent : Int
deriving DecidableEq, Repr

/-- What becomes of a number that lies half-way between two candidates. -/
inductive Tie
  | toEven
  | away
deriving DecidableEq, Repr

/-! ## The interval -/

/-- Compares `a * 10 ^ i` with `n * 2 ^ j`. -/
def compareScaled (a : Nat) (i : Int) (n : Nat) (j : Int) : Ordering :=
  compare (a * Nat.pow 10 i.toNat * Nat.pow 2 (-j).toNat)
    (n * Nat.pow 2 j.toNat * Nat.pow 10 (-i).toNat)

/-- Whether a decimal lies among the reals that round to the number. The ends
of the interval belong to it when the mantissa is even. -/
def Magnitude.identifiedBy (x : Magnitude) (d : Scaled) : Bool :=
  let low := if x.narrowBelow then 4 * x.mantissa - 1 else 4 * x.mantissa - 2
  let high := 4 * x.mantissa + 2
  let closed := x.mantissa % 2 == 0
  let atLow := compareScaled d.digits d.exponent low (x.exponent - 2)
  let atHigh := compareScaled d.digits d.exponent high (x.exponent - 2)
  (atLow == .gt || (closed && atLow == .eq)) && (atHigh == .lt || (closed && atHigh == .eq))

/-! ## The search -/

/-- Raises `k` until the number is below `10 ^ k`, by `fuel` steps at most. -/
def Magnitude.raiseScale (x : Magnitude) : (fuel : Nat) → Int → Int
  | 0, k => k
  | fuel + 1, k =>
    if compareScaled 1 k x.mantissa x.exponent == .gt then k else x.raiseScale fuel (k + 1)

/-- The least `k` with the number below `10 ^ k`. The estimate from the binary
logarithm is never above it and at most a few steps below. -/
def Magnitude.scale (x : Magnitude) : Int :=
  x.raiseScale 8 (Int.fdiv (((Nat.log2 x.mantissa : Nat) + x.exponent) * 30103) 100000 - 1)

/-- The number divided by `10 ^ grid`, rounded down. -/
def Magnitude.floorOn (x : Magnitude) (grid : Int) : Nat :=
  (x.mantissa * Nat.pow 2 x.exponent.toNat * Nat.pow 10 (-grid).toNat) /
    (Nat.pow 2 (-x.exponent).toNat * Nat.pow 10 grid.toNat)

/-- The neighbour of the number on the grid `10 ^ grid` that identifies it. -/
def Magnitude.onGrid? (x : Magnitude) (tie : Tie) (grid : Int) : Option Scaled :=
  let below := x.floorOn grid
  let lower : Scaled := ⟨below, grid⟩
  let upper : Scaled := ⟨below + 1, grid⟩
  match x.identifiedBy lower, x.identifiedBy upper with
  | true, true =>
    match compareScaled (2 * below + 1) grid (2 * x.mantissa) x.exponent with
    | .gt => some lower
    | .lt => some upper
    | .eq =>
      match tie with
      | .away => some upper
      | .toEven => if below % 2 = 0 then some lower else some upper
  | true, false => some lower
  | false, true => some upper
  | false, false => none

/-- Moves zeros from the end of the digits into the exponent, `fuel` of them at
most. -/
def Scaled.strip : (fuel : Nat) → Scaled → Scaled
  | 0, d => d
  | fuel + 1, d =>
    if d.digits % 10 = 0 ∧ d.digits ≠ 0 then Scaled.strip fuel ⟨d.digits / 10, d.exponent + 1⟩
    else d

/-- The fewest digits that identify the number; a zero is `0 * 10 ^ 0`. -/
def Magnitude.shortest (x : Magnitude) (tie : Tie) : Scaled :=
  if x.mantissa = 0 then ⟨0, 0⟩
  else
    let k := x.scale
    match (List.range 17).findSome? fun n => x.onGrid? tie (k - (n + 1 : Nat)) with
    | some d => d.strip 20
    | none => ⟨x.floorOn (k - 17), k - 17⟩

end TriageDesk.Decimal
