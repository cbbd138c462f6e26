/-
TriageDesk.Decimal.Binary64 — numbers of the 64-bit binary format, kept as
their bits.

Bits have decidable equality, so a value that holds such a number can be
compared; arithmetic goes through `Float` and comes back.
-/

namespace TriageDesk.Decimal

/-- A number of the 64-bit binary format. -/
structure Binary64 where
  bits : UInt64
deriving DecidableEq, Repr, Inhabited

namespace Binary64

/-- The number as a machine number. -/
def toFloat (x : Binary64) : Float := Float.ofBits x.bits

/-- A machine number as its bits. -/
def ofFloat (x : Float) : Binary64 := ⟨x.toBits⟩

/-- Whether the sign bit is set. -/
def isNegative (x : Binary64) : Bool := x.bits >>> 63 == 1

/-- The exponent field. -/
def exponentField (x : Binary64) : Nat := ((x.bits >>> 52) &&& 0x7FF).toNat

/-- The fraction field. -/
def fractionField (x : Binary64) : Nat := (x.bits &&& 0xFFFFFFFFFFFFF).toNat

/-- Whether the number is neither infinite nor a NaN. -/
def isFinite (x : Binary64) : Bool := x.exponentField != 0x7FF

/-- Whether the number is a zero of either sign. -/
def isZero (x : Binary64) : Bool := x.exponentField == 0 && x.fractionField == 0

end Binary64

/-- The size of a finite number: `mantissa * 2 ^ exponent`. -/
structure Magnitude where
  mantissa : Nat
  exponent : Int
  /-- The gap to the number below is half the gap to the number above. -/
  narrowBelow : Bool
deriving DecidableEq, Repr

/-- The size of a finite number, read off its bits. -/
def Binary64.magnitude (x : Binary64) : Magnitude :=
  let e := x.exponentField
  let f := x.fractionField
  if e = 0 then ⟨f, -1074, false⟩
  else ⟨Nat.pow 2 52 + f, (e : Int) - 1075, f == 0 && decide (1 < e)⟩

end TriageDesk.Decimal
