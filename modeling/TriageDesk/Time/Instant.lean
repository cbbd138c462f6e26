/-
TriageDesk.Time.Instant — moments of universal time and the calendar.

A moment is a number of seconds since the start of 1970 and a number of
nanoseconds. A leap second is written as the second before it with a
thousand million nanoseconds or more, so that moments keep their order.
Years follow the Gregorian calendar in both directions.
-/

namespace TriageDesk.Time

/-- A moment of universal time. -/
structure Instant where
  seconds : Int
  nanos : Nat
deriving DecidableEq, Repr, Inhabited

namespace Instant

/-- Whether a moment comes before another. -/
def before (a b : Instant) : Bool :=
  decide (a.seconds < b.seconds) || (a.seconds == b.seconds && decide (a.nanos < b.nanos))

/-- The earlier of two moments. -/
def earlier (a b : Instant) : Instant := if b.before a then b else a

end Instant

/-! ## The calendar -/

/-- Whether a year has a leap day. -/
def isLeapYear (year : Int) : Bool :=
  year % 4 == 0 && (year % 100 != 0 || year % 400 == 0)

/-- The number of days of a month. -/
def daysInMonth (year : Int) (month : Nat) : Nat :=
  if month = 2 then (if isLeapYear year then 29 else 28)
  else if month = 4 ∨ month = 6 ∨ month = 9 ∨ month = 11 then 30
  else 31

/-- The days from the first of March of year zero to a date; years begin in
March, so that a leap day is the last of its year. -/
def daysFromMarch (year : Int) (month day : Nat) : Int :=
  let y := if month ≤ 2 then year - 1 else year
  let m := (month + 9) % 12
  y * 365 + y / 4 - y / 100 + y / 400 + ((153 * m + 2) / 5 : Nat) + day - 1

/-- The days from the first of January 1970 to a date. -/
def dayNumber (year : Int) (month day : Nat) : Int := daysFromMarch year month day - 719468

/-- The date of a day number: year, month and day. -/
def dateOf (days : Int) : Int × Nat × Nat :=
  let z := days + 719468
  let era := z / 146097
  let ofEra := (z % 146097).toNat
  let yearOfEra := (ofEra - ofEra / 1460 + ofEra / 36524 - ofEra / 146096) / 365
  let ofYear := ofEra - (365 * yearOfEra + yearOfEra / 4 - yearOfEra / 100)
  let m := (5 * ofYear + 2) / 153
  let day := ofYear - (153 * m + 2) / 5 + 1
  let month := if m < 10 then m + 3 else m - 9
  let year := (yearOfEra : Int) + era * 400 + (if month ≤ 2 then 1 else 0)
  (year, month, day)

/-- A moment as date and time of day, the second of a leap second being 60. -/
structure Fields where
  year : Int
  month : Nat
  day : Nat
  hour : Nat
  minute : Nat
  second : Nat
  nanos : Nat
deriving DecidableEq, Repr

/-- Date and time of day of a moment. -/
def Instant.fields (t : Instant) : Fields :=
  let (year, month, day) := dateOf (t.seconds / 86400)
  let ofDay := (t.seconds % 86400).toNat
  let leap := t.nanos / 1000000000
  { year, month, day
    hour := ofDay / 3600, minute := ofDay / 60 % 60, second := ofDay % 60 + leap
    nanos := t.nanos % 1000000000 }

/-- The moment of a date and time of day. -/
def Fields.instant (f : Fields) : Instant :=
  let leap := if f.second = 60 then 1 else 0
  { seconds := dayNumber f.year f.month f.day * 86400 + (f.hour * 3600 + f.minute * 60 + (f.second - leap) : Nat)
    nanos := f.nanos + leap * 1000000000 }

/-! ## Writing -/

/-- A number in decimal digits, filled with zeros to a width. -/
def padded (width n : Nat) : List Char :=
  let ds := Nat.toDigits 10 n
  List.replicate (width - ds.length) '0' ++ ds

/-- A year: four digits, and a sign in front when it needs one. -/
def writeYear (year : Int) : List Char :=
  if 0 ≤ year ∧ year ≤ 9999 then padded 4 year.toNat
  else (if year < 0 then '-' else '+') :: padded 4 year.natAbs

/-- A fraction of a second, with three, six or nine digits as it needs them. -/
def writeFraction (nanos : Nat) : List Char :=
  if nanos = 0 then []
  else if nanos % 1000000 = 0 then '.' :: padded 3 (nanos / 1000000)
  else if nanos % 1000 = 0 then '.' :: padded 6 (nanos / 1000)
  else '.' :: padded 9 nanos

/-- The date with dashes. -/
def Fields.writeDate (f : Fields) : List Char :=
  writeYear f.year ++ '-' :: padded 2 f.month ++ '-' :: padded 2 f.day

/-- The time of day with colons, without fraction. -/
def Fields.writeClock (f : Fields) : List Char :=
  padded 2 f.hour ++ ':' :: padded 2 f.minute ++ ':' :: padded 2 f.second

/-- A moment in the format of RFC 3339, in universal time. -/
def Instant.write (t : Instant) : String :=
  let f := t.fields
  String.ofList (f.writeDate ++ 'T' :: f.writeClock ++ writeFraction f.nanos ++ ['Z'])

/-- A moment in the format of RFC 3339, with the offset of universal time. -/
def Instant.writeWithOffset (t : Instant) : String :=
  let f := t.fields
  String.ofList (f.writeDate ++ 'T' :: f.writeClock ++ writeFraction f.nanos ++ "+00:00".toList)

/-- A moment to the second, as it is shown in a list. -/
def Instant.writeShort (t : Instant) : String :=
  let f := t.fields
  String.ofList (f.writeDate ++ ' ' :: f.writeClock)

end TriageDesk.Time
