/-
TriageDesk.Text.Digit — digits of bases up to sixteen.

Reading takes letters of either size. Small letters are written in names and
escapes, capital letters in the octets of addresses.
-/

namespace TriageDesk.Text

/-- The value of a digit of a base up to sixteen. -/
def digitValue? (base : Nat) (c : Char) : Option Nat :=
  let value? :=
    if '0' ≤ c ∧ c ≤ '9' then some (c.toNat - 48)
    else if 'a' ≤ c ∧ c ≤ 'f' then some (c.toNat - 87)
    else if 'A' ≤ c ∧ c ≤ 'F' then some (c.toNat - 55)
    else none
  value?.filter (· < base)

/-- The value of a hexadecimal digit. -/
def hexValue? (c : Char) : Option Nat := digitValue? 16 c

/-- A hexadecimal digit, in capital letters. -/
def hexDigit (n : Nat) : Char :=
  if n < 10 then Char.ofNat (48 + n) else Char.ofNat (55 + n)

/-- The digits of a number to base sixteen, in small letters. -/
def hexDigits (n : Nat) : List Char := Nat.toDigits 16 n

end TriageDesk.Text
