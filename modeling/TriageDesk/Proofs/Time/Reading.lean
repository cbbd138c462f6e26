/-
TriageDesk.Proofs.Time.Reading — a moment that has been written is read back.

The reader takes the parts of a moment one after the other, and so do the lemmas:
a number that fills its width (`number_padded`), a field within its bounds, a
mark, a year of four digits, and a fraction, which is written with as many digits
as it needs and scaled back to nanoseconds. With the calendar, which gives the
moment of the fields that were read, they make up `Instant.read_write`.
-/
import Mathlib.Algebra.Group.Nat.Defs
import TriageDesk.Proofs.Text.Digits
import TriageDesk.Proofs.Text.Search
import TriageDesk.Proofs.Time.Calendar
import TriageDesk.Time.Reader

namespace TriageDesk.Time

open Text

variable {w n : Nat}

/-! ## Digits that fill a width -/

theorem isDigit_of_mem_padded {c : Char} (h : c ∈ padded w n) : c.isDigit = true := by
  simp only [padded, List.mem_append, List.mem_replicate] at h
  rcases h with ⟨_, rfl⟩ | h
  · rfl
  · exact Nat.isDigit_of_mem_toDigits (by decide) (by decide) h

theorem length_padded (some : 0 < w) (fits : n < 10 ^ w) : (padded w n).length = w := by
  have := (Nat.length_toDigits_le_iff (b := 10) (by decide) some).mpr fits
  simp only [padded, List.length_append, List.length_replicate]
  omega

theorem ofDigitChars_padded : Nat.ofDigitChars 10 (padded w n) 0 = n := by
  simp only [padded]
  rw [Nat.ofDigitChars_append, Nat.ofDigitChars_replicate_zero, Nat.mul_zero,
    Nat.ofDigitChars_toDigits (by decide) (by decide)]

theorem exists_padded (some : 0 < w) (fits : n < 10 ^ w) :
    ∃ d ds, padded w n = d :: ds ∧ d.isDigit = true := by
  cases digits : padded w n with
  | nil =>
    have length := length_padded some fits
    simp [digits] at length
    omega
  | cons d ds => exact ⟨d, ds, rfl, isDigit_of_mem_padded (w := w) (n := n) (by simp [digits])⟩

/-! ## Numbers -/

/-- The text does not go on with a digit. -/
def Stops (rest : List Char) : Prop := ∀ c ∈ rest.head?, c.isDigit = false

/-- Digits are taken one after the other, up to the count or to what is none. -/
theorem takeNumber_digits {ds : List Char} (digits : ∀ d ∈ ds, d.isDigit = true) {count v : Nat}
    {rest : List Char} (within : Nat.ofDigitChars 10 ds v ≤ maxNumber)
    (room : ds.length ≤ count) (stops : ds.length < count → Stops rest) :
    takeNumber count v (ds ++ rest) = .ok (Nat.ofDigitChars 10 ds v, rest) := by
  induction ds generalizing count v with
  | nil =>
    cases count with
    | zero => rfl
    | succ count =>
      cases rest with
      | nil => rfl
      | cons c rest =>
        have other := stops (Nat.succ_pos count) c rfl
        simp [takeNumber, other]
  | cons d ds ih =>
    cases count with
    | zero => cases room
    | succ count =>
      rw [Nat.ofDigitChars_cons] at within ⊢
      have digit := digits d List.mem_cons_self
      have small := le_ofDigitChars ds (10 * v + (d.toNat - '0'.toNat))
      have value : v * 10 + (d.toNat - '0'.toNat) = 10 * v + (d.toNat - '0'.toNat) := by omega
      rw [List.cons_append, takeNumber, if_pos digit]
      simp only [value]
      rw [if_neg (by omega)]
      exact ih (fun x h => digits x (List.mem_cons_of_mem _ h)) within (Nat.le_of_succ_le_succ room)
        (fun h => stops (Nat.succ_lt_succ h))

theorem number_padded (some : 0 < w) (fits : n < 10 ^ w) (small : w ≤ 9) {count : Nat}
    (room : w ≤ count) {rest : List Char} (stops : w < count → Stops rest) :
    number count (padded w n ++ rest) = .ok (n, rest) := by
  have length := length_padded some fits
  have within : Nat.ofDigitChars 10 (padded w n) 0 ≤ maxNumber := by
    have most := Nat.pow_le_pow_right (n := 10) (by decide) small
    have limit : maxNumber = 9223372036854775807 := rfl
    rw [ofDigitChars_padded]
    omega
  have ends : (padded w n).length < count → Stops rest := length.symm ▸ stops
  have read := takeNumber_digits (fun d h => isDigit_of_mem_padded h) within (length.symm ▸ room)
    ends
  rw [ofDigitChars_padded] at read
  obtain ⟨d, ds, digits, digit⟩ := exists_padded some fits
  rw [digits, List.cons_append] at read ⊢
  rw [number, if_pos digit, read]

/-! ## The parts of a moment -/

theorem bind_of_ok {ε α β : Type} {x : Except ε α} {a : α} (h : x = .ok a)
    (next : α → Except ε β) : (x >>= next) = next a := by
  rw [h]
  rfl

theorem trimLeft_padded (some : 0 < w) (fits : n < 10 ^ w) (rest : List Char) :
    trimLeft (padded w n ++ rest) = padded w n ++ rest := by
  obtain ⟨d, ds, digits, digit⟩ := exists_padded some fits
  rw [digits]
  exact trimLeft_solid (isBlank_of_isDigit digit) _

theorem field_padded {low high : Nat} (least : low ≤ n) (most : n ≤ high) (two : n < 100)
    (rest : List Char) : field low high (padded 2 n ++ rest) = .ok (n, rest) := by
  have read : number 2 (padded 2 n ++ rest) = .ok (n, rest) :=
    number_padded (by decide) two (by decide) (Nat.le_refl 2) fun h => absurd h (by decide)
  rw [field, trimLeft_padded (by decide) two]
  refine (bind_of_ok read _).trans ?_
  exact if_pos ⟨least, most⟩

theorem mark_solid {c : Char} (solid : isBlank c = false) (rest : List Char) :
    mark c (c :: rest) = .ok rest := by
  rw [mark, trimLeft_solid solid]
  simp

theorem year_padded (four : n < 10000) (rest : List Char) :
    year (padded 4 n ++ rest) = .ok ((n : Int), rest) := by
  have read : number 4 (padded 4 n ++ rest) = .ok (n, rest) :=
    number_padded (by decide) four (by decide) (Nat.le_refl 4) fun h => absurd h (by decide)
  have inRange : -((Nat.pow 2 31 : Nat) : Int) ≤ n ∧ (n : Int) < (Nat.pow 2 31 : Nat) := by
    have value : Nat.pow 2 31 = 2147483648 := rfl
    rw [value]
    omega
  obtain ⟨d, ds, digits, digit⟩ := exists_padded (w := 4) (by decide) four
  rw [year, trimLeft_padded (by decide) four]
  rw [digits, List.cons_append] at read ⊢
  -- a year begins with a digit, so neither of the signs is met
  split
  · rename_i same
    cases same
    cases digit
  · rename_i same
    cases same
    cases digit
  · rw [read]
    refine (bind_of_ok rfl _).trans ?_
    refine (bind_of_ok rfl _).trans ?_
    dsimp only
    rw [if_pos inRange]
    rfl

/-- A point and digits that fill a width are a fraction of a second. -/
theorem fraction_padded (some : 0 < w) (fits : n < 10 ^ w) (small : w ≤ 9) {rest : List Char}
    (stops : Stops rest) :
    fraction ('.' :: padded w n ++ rest) = .ok (n * 10 ^ (9 - w), rest.dropWhile Char.isDigit) := by
  have taken : (padded w n ++ rest).length - rest.length = w := by
    rw [List.length_append, length_padded some fits]
    omega
  rw [List.cons_append, fraction]
  refine (bind_of_ok (number_padded some fits small small fun _ => stops) _).trans ?_
  simp only [taken]
  rfl

/-- A fraction is read back, whichever number of digits it was written with. -/
theorem fraction_written (below : n < 1000000000) (rest : List Char) :
    fraction (writeFraction n ++ 'Z' :: rest) = .ok (n, 'Z' :: rest) := by
  have stops : Stops ('Z' :: rest) := by simp [Stops]
  unfold writeFraction
  split
  · rename_i none
    rw [none]
    rfl
  · split
    · rw [fraction_padded (by decide) (by omega) (by decide) stops]
      congr 2
      omega
    · split
      · rw [fraction_padded (by decide) (by omega) (by decide) stops]
        congr 2
        omega
      · rw [fraction_padded (by decide) below (by decide) stops]
        congr 2
        omega

/-! ## Whole moments -/

/-- A moment as text, part by part. -/
theorem toList_write {t : Instant} {y : Nat} (year : t.fields.year = y) (four : y < 10000) :
    t.write.toList = padded 4 y ++ '-' :: (padded 2 t.fields.month ++ '-' ::
      (padded 2 t.fields.day ++ 'T' :: (padded 2 t.fields.hour ++ ':' ::
        (padded 2 t.fields.minute ++ ':' :: (padded 2 t.fields.second ++
          (writeFraction t.fields.nanos ++ ['Z'])))))) := by
  have written : writeYear t.fields.year = padded 4 y := by
    rw [writeYear, year, if_pos (by omega)]
    rfl
  simp [Instant.write, Fields.writeDate, Fields.writeClock, written]

/-- **A moment that has been written is read back**, to the nanosecond, from the first to the
last year of four digits and leap seconds aside. -/
theorem Instant.read_write {t : Instant} (noLeap : t.nanos < 1000000000)
    (first : 0 ≤ t.fields.year) (last : t.fields.year ≤ 9999) : read t.write = .ok t := by
  obtain ⟨month_pos, month_le, day_pos, day_le, hour_le, minute_le, second_le, nanos_lt⟩ :=
    fields_valid noLeap
  have days := daysInMonth_le t.fields.year t.fields.month
  obtain ⟨y, hy⟩ := Int.eq_ofNat_of_zero_le first
  have year := year_padded (n := y) (by omega)
  have dash := mark_solid (show isBlank '-' = false by decide)
  have month := field_padded month_pos month_le (by omega)
  have day := field_padded day_pos (show t.fields.day ≤ 31 by omega) (by omega)
  have hour := field_padded (Nat.zero_le t.fields.hour) hour_le (by omega)
  have colon := mark_solid (show isBlank ':' = false by decide)
  have minute := field_padded (Nat.zero_le t.fields.minute) minute_le (by omega)
  have second := field_padded (Nat.zero_le t.fields.second) (show _ ≤ 60 by omega) (by omega)
  have fraction := fraction_written nanos_lt
  have inBounds : yearInBounds t.fields.year = true := by
    rw [yearInBounds, Bool.and_eq_true, decide_eq_true_eq, decide_eq_true_eq]
    exact ⟨Int.le_trans (by decide) first, Int.le_trans last (by decide)⟩
  have onCalendar : ¬ ((!yearInBounds t.fields.year) = true ∨
      daysInMonth t.fields.year t.fields.month < t.fields.day) := by
    rw [inBounds]
    rintro (h | h)
    · cases h
    · omega
  have moment : (⟨t.fields.instant.seconds - 0, t.fields.instant.nanos⟩ : Instant) = t := by
    rw [instant_fields noLeap, Int.sub_zero]
  rw [← hy] at year
  rw [read, toList_write hy (by omega)]
  -- the parts are met in the order in which they were written
  refine (bind_of_ok (year _) _).trans ?_
  refine (bind_of_ok (dash _) _).trans ?_
  refine (bind_of_ok (month _) _).trans ?_
  refine (bind_of_ok (dash _) _).trans ?_
  refine (bind_of_ok (day _) _).trans ?_
  refine (if_pos (Or.inl rfl)).trans ?_
  refine (bind_of_ok rfl _).trans ?_
  refine (bind_of_ok (hour _) _).trans ?_
  refine (bind_of_ok (colon _) _).trans ?_
  refine (bind_of_ok (minute _) _).trans ?_
  refine (bind_of_ok (colon _) _).trans ?_
  refine (bind_of_ok (second _) _).trans ?_
  refine (bind_of_ok (fraction _) _).trans ?_
  refine (bind_of_ok (show zone (trimLeft ['Z']) = .ok (0, []) from rfl) _).trans ?_
  -- nothing is left over, and the checks of the date and of the zone are passed
  refine (if_neg (fun h => h rfl)).trans ?_
  refine (if_neg onCalendar).trans ?_
  refine (if_neg (by decide)).trans ?_
  show (if yearInBounds (Instant.fields ⟨t.fields.instant.seconds - 0,
    t.fields.instant.nanos⟩).year = true then _ else _) = _
  rw [if_pos (by rw [moment]; exact inBounds)]
  exact congrArg Except.ok moment

end TriageDesk.Time
