/-
TriageDesk.Interval — how often an activity runs, as written in a schedule.

A schedule is a count with one of the units `s`, `m` and `h`, white space
around it aside. The count is a natural number, which may begin with a plus
sign; with its unit it comes to at least one second and at most a hundred
years. Everything else stands for half an hour.

Counts and seconds are numbers of 64 bits: what does not fit is refused, on
the way through the digits as well as at the end. The unit is cut off as the
last octet of the text. Where that octet is only a part of a character there
is nothing to go on with, which `read` keeps apart from an unreadable text.

Follows `parse_schedule`, here `parse`, and `try_parse_schedule`, here
`parse?`.
-/
import TriageDesk.Text.Blank
import TriageDesk.Text.Digit

namespace TriageDesk.Interval

open Text

/-- Half an hour, in seconds. -/
def default : Nat := 1800

/-- A hundred years of 365 days, in seconds. -/
def longest : Nat := 100 * 365 * 24 * 3600

/-! ## Numbers of 64 bits -/

/-- A number as one of 64 bits, if it fits. -/
def fit? (n : Nat) : Option UInt64 := if n < UInt64.size then some (.ofNat n) else none

/-- The sum, if it fits. -/
def plus? (a b : UInt64) : Option UInt64 := fit? (a.toNat + b.toNat)

/-- The product, if it fits. -/
def times? (a b : UInt64) : Option UInt64 := fit? (a.toNat * b.toNat)

theorem fit?_eq_some_iff {n : Nat} {m : UInt64} : fit? n = some m ↔ m.toNat = n := by
  unfold fit?
  split
  · rename_i fits
    rw [Option.some.injEq, ← UInt64.toNat_inj, UInt64.toNat_ofNat_of_lt' fits]
    exact eq_comm
  · rename_i large
    simp only [reduceCtorEq, false_iff]
    rintro rfl
    exact large m.toNat_lt_size

/-! ## Counts -/

/-- The seconds of a unit. -/
def unitSeconds? (c : Char) : Option UInt64 :=
  if c = 's' then some 1
  else if c = 'm' then some 60
  else if c = 'h' then some 3600
  else none

/-- A number with one more decimal digit behind it, if it still fits. -/
def push? (n : UInt64) (c : Char) : Option UInt64 := do
  let shifted ← times? n 10
  let digit ← digitValue? 10 c
  plus? shifted (.ofNat digit)

/-- The number written by decimal digits, if there is at least one and nothing
else. -/
def digitsValue? (cs : List Char) : Option UInt64 :=
  if cs = [] then none else cs.foldlM push? 0

/-- A natural number, which may begin with a plus sign. -/
def count? (cs : List Char) : Option UInt64 :=
  match cs with
  | '+' :: rest => digitsValue? rest
  | cs => digitsValue? cs

/-- The seconds of a count of some unit, if they lie within the limits. -/
def total? (counted : List Char) (seconds : UInt64) : Option UInt64 := do
  let n ← count? counted
  if n = 0 then none
  let total ← times? n seconds
  if total.toNat ≤ longest then some total else none

theorem total?_eq_some_iff {counted : List Char} {seconds total : UInt64} :
    total? counted seconds = some total ↔ ∃ n, count? counted = some n ∧ n ≠ 0 ∧
      total.toNat = n.toNat * seconds.toNat ∧ total.toNat ≤ longest := by
  simp only [total?, Option.bind_eq_bind, Option.bind_eq_some_iff]
  refine exists_congr fun n => and_congr_right fun _ => ?_
  split
  · rename_i zero
    simp [zero]
  · rename_i positive
    simp only [times?, Option.bind_eq_some_iff, fit?_eq_some_iff]
    constructor
    · rintro ⟨m, product, within⟩
      split at within
      · cases within
        exact ⟨positive, product, ‹_›⟩
      · cases within
    · rintro ⟨_, product, within⟩
      exact ⟨total, product, if_pos within⟩

/-! ## Schedules -/

/-- The number of octets of a text. -/
def octets (cs : List Char) : Nat := cs.foldr (fun c n => c.utf8Size + n) 0

/-- The characters that the first octets of a text make up, if none of them is
cut. -/
def upTo? : (octets : Nat) → List Char → Option (List Char)
  | 0, _ => some []
  | _ + 1, [] => none
  | n + 1, c :: rest =>
    if c.utf8Size ≤ n + 1 then (upTo? (n + 1 - c.utf8Size) rest).map (c :: ·) else none

/-- What the reading of a schedule comes to. -/
inductive Reading
  | seconds (n : UInt64)
  | unreadable
  /-- The text would have to be cut inside a character. -/
  | torn
deriving DecidableEq, Repr

/-- Reads a schedule. -/
def read (schedule : String) : Reading :=
  let cs := trim schedule.toList
  match cs.getLast?.bind unitSeconds? with
  | none => .unreadable
  | some seconds =>
    match upTo? (octets cs - 1) cs with
    | none => .torn
    | some counted => (total? counted seconds).elim .unreadable .seconds

/-- The seconds of a schedule, if it is well-formed. -/
def parse? (schedule : String) : Option Nat :=
  match read schedule with
  | .seconds n => some n.toNat
  | _ => none

/-- The seconds of a schedule; half an hour if it is not well-formed. -/
def parse (schedule : String) : Nat := (parse? schedule).getD default

/-- A schedule is well-formed if what stands before its unit is a count whose seconds lie
within the limits. -/
theorem parse?_eq_some_iff {schedule : String} {d : Nat} : parse? schedule = some d ↔
    ∃ seconds counted total, (trim schedule.toList).getLast?.bind unitSeconds? = some seconds ∧
      upTo? (octets (trim schedule.toList) - 1) (trim schedule.toList) = some counted ∧
      total? counted seconds = some total ∧ total.toNat = d := by
  simp only [parse?, read]
  cases unit : (trim schedule.toList).getLast?.bind unitSeconds? with
  | none => simp
  | some seconds =>
    cases cut : upTo? (octets (trim schedule.toList) - 1) (trim schedule.toList) with
    | none => simp
    | some counted => cases found : total? counted seconds <;> simp [found]

/-- Every unit is worth something. -/
theorem unitSeconds?_pos {c : Char} {seconds : UInt64} (unit : unitSeconds? c = some seconds) :
    0 < seconds.toNat := by
  unfold unitSeconds? at unit
  split at unit
  · cases unit
    decide
  · split at unit
    · cases unit
      decide
    · split at unit
      · cases unit
        decide
      · cases unit

/-- No schedule stands for less than a second. -/
theorem parse_pos (schedule : String) : 0 < parse schedule := by
  unfold parse
  cases parsed : parse? schedule with
  | none => decide
  | some d =>
    obtain ⟨seconds, counted, total, unit, -, found, rfl⟩ := parse?_eq_some_iff.mp parsed
    obtain ⟨c, -, worth⟩ := Option.bind_eq_some_iff.mp unit
    obtain ⟨n, -, positive, product, -⟩ := total?_eq_some_iff.mp found
    rw [Option.getD_some, product]
    exact Nat.mul_pos (Nat.pos_of_ne_zero fun zero => positive (UInt64.toNat_inj.mp zero))
      (unitSeconds?_pos worth)

end TriageDesk.Interval
