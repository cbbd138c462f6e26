/-
TriageDesk.Proofs.Time.Calendar — a day number is the number of its date.

A day of an era of 400 years, counted from the first of March, has a `Place`: so
many whole centuries, groups of four years and years, and a day of the year that
they leave over. The quotients by which `dateOf` finds the year and the day are
linear in the place, so each fact about dates is a fact about places
(`Place.dateOf`): the date of a day is a date of the calendar (`dateOf_valid`),
and the number of that date is the day (`dayNumber_dateOf`). With the time of day
a moment without leap second is the moment of its fields
(`Instant.instant_fields`).
-/
import TriageDesk.Time.Instant

namespace TriageDesk.Time

/-! ## Places in an era -/

/-- A day of an era by centuries, groups of four years, years and days. -/
structure Place (n century group year day : Nat) : Prop where
  total : n = 36524 * century + 1461 * group + 365 * year + day
  century_le : century ≤ 3
  group_le : group ≤ 24
  year_le : year ≤ 3
  day_le : day ≤ 365
  /-- Only a year that ends with a leap day has so many days. -/
  leap : day = 365 → year = 3 ∧ (group < 24 ∨ century = 3)

/-- Every day of an era has a place: the last day of a fourth year, and that of a fourth
century, still belong to it. -/
theorem exists_place {n : Nat} (h : n < 146097) : ∃ c g y d, Place n c g y d := by
  refine ⟨min (n / 36524) 3, (n - 36524 * min (n / 36524) 3) / 1461,
    min ((n - 36524 * min (n / 36524) 3) % 1461 / 365) 3,
    (n - 36524 * min (n / 36524) 3) % 1461 -
      365 * min ((n - 36524 * min (n / 36524) 3) % 1461 / 365) 3, ?_, ?_, ?_, ?_, ?_, ?_⟩ <;> omega

namespace Place

variable {n c g y d : Nat}

theorem yearOfEra (place : Place n c g y d) :
    (n - n / 1460 + n / 36524 - n / 146096) / 365 = 100 * c + 4 * g + y := by
  obtain ⟨total, hc, hg, hy, hd, leap⟩ := place
  -- the last day of the era counts as a century of its own in both of the last quotients
  have centuries : n / 36524 - n / 146096 = c ∧ n / 146096 ≤ n / 36524 := by omega
  have groups : n / 1460 = 25 * c + g ∨ n / 1460 = 25 * c + g + 1 := by omega
  omega

theorem dayOfYear (place : Place n c g y d) :
    n - (365 * (100 * c + 4 * g + y) + (100 * c + 4 * g + y) / 4 -
      (100 * c + 4 * g + y) / 100) = d := by
  obtain ⟨total, hc, hg, hy, hd, leap⟩ := place
  omega

/-- The date of a day, from its place. Months are counted from March, and January and February
belong to the year that has begun since. -/
theorem dateOf {days era : Int} (place : Place n c g y d) (h : days + 719468 = 146097 * era + n)
    {m : Nat} (hm : (5 * d + 2) / 153 = m) :
    dateOf days = ((100 * c + 4 * g + y : Nat) + era * 400 +
        (if (if m < 10 then m + 3 else m - 9) ≤ 2 then 1 else 0),
      if m < 10 then m + 3 else m - 9, d - (153 * m + 2) / 5 + 1) := by
  have hn : n < 146097 := by
    obtain ⟨total, hc, hg, hy, hd, leap⟩ := place
    omega
  have hera : (days + 719468) / 146097 = era := by omega
  have hof : ((days + 719468) % 146097).toNat = n := by omega
  simp only [Time.dateOf, hera, hof, place.yearOfEra, place.dayOfYear, hm]

end Place

theorem exists_place_of_day (days : Int) : ∃ (era : Int) (n c g y d : Nat),
    Place n c g y d ∧ days + 719468 = 146097 * era + n := by
  have hn : ((days + 719468) % 146097).toNat < 146097 := by omega
  obtain ⟨c, g, y, d, place⟩ := exists_place hn
  exact ⟨(days + 719468) / 146097, _, c, g, y, d, place, by omega⟩

/-! ## Dates -/

/-- The number of the date of a day is that day. -/
theorem dayNumber_dateOf (days : Int) :
    dayNumber (dateOf days).1 (dateOf days).2.1 (dateOf days).2.2 = days := by
  obtain ⟨era, n, c, g, y, d, place, h⟩ := exists_place_of_day days
  rw [place.dateOf h rfl]
  obtain ⟨total, hc, hg, hy, hd, leap⟩ := place
  generalize hm : (5 * d + 2) / 153 = m
  have last : m ≤ 11 := by omega
  have fromMarch : ((if m < 10 then m + 3 else m - 9) + 9) % 12 = m := by split <;> omega
  simp only [dayNumber, daysFromMarch, fromMarch]
  split <;> omega

/-- The date of a day is a date of the calendar. -/
theorem dateOf_valid (days : Int) :
    1 ≤ (dateOf days).2.1 ∧ (dateOf days).2.1 ≤ 12 ∧ 1 ≤ (dateOf days).2.2 ∧
      (dateOf days).2.2 ≤ daysInMonth (dateOf days).1 (dateOf days).2.1 := by
  obtain ⟨era, n, c, g, y, d, place, h⟩ := exists_place_of_day days
  rw [place.dateOf h rfl]
  obtain ⟨total, hc, hg, hy, hd, leap⟩ := place
  generalize hm : (5 * d + 2) / 153 = m
  have last : m ≤ 11 := by omega
  refine ⟨by dsimp only; split <;> omega, by dsimp only; split <;> omega, Nat.le_add_left 1 _, ?_⟩
  -- the last month from March on is February, and only there the year counts
  simp only [daysInMonth, isLeapYear, Bool.and_eq_true, beq_iff_eq, Bool.or_eq_true, bne_iff_ne]
  repeat' split
  all_goals omega

theorem daysInMonth_le (year : Int) (month : Nat) : daysInMonth year month ≤ 31 := by
  unfold daysInMonth
  split
  · split <;> decide
  · split <;> decide

/-! ## Moments -/

/-- Fields that a clock and a calendar can show, the second of a leap second apart. -/
structure Fields.Valid (f : Fields) : Prop where
  month_pos : 1 ≤ f.month
  month_le : f.month ≤ 12
  day_pos : 1 ≤ f.day
  day_le : f.day ≤ daysInMonth f.year f.month
  hour_le : f.hour ≤ 23
  minute_le : f.minute ≤ 59
  second_le : f.second ≤ 59
  nanos_lt : f.nanos < 1000000000

namespace Instant

variable {t : Instant}

theorem fields_valid (noLeap : t.nanos < 1000000000) : t.fields.Valid := by
  obtain ⟨month_pos, month_le, day_pos, day_le⟩ := dateOf_valid (t.seconds / 86400)
  refine ⟨month_pos, month_le, day_pos, day_le, ?_, ?_, ?_, ?_⟩ <;> simp only [fields] <;> omega

/-- A moment without leap second is the moment of its fields. -/
theorem instant_fields (noLeap : t.nanos < 1000000000) : t.fields.instant = t := by
  have day := dayNumber_dateOf (t.seconds / 86400)
  have second := (fields_valid noLeap).second_le
  have notLast : t.fields.second ≠ 60 := by omega
  obtain ⟨seconds, nanos⟩ := t
  simp only [Fields.instant, if_neg notLast]
  simp only [fields, day] at noLeap ⊢
  congr 1 <;> omega

end Instant

end TriageDesk.Time
