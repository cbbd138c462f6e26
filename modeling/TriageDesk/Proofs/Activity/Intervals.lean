/-
TriageDesk.Proofs.Activity.Intervals — which texts are schedules, and for how long.

`IsSchedule text d` is the grammar: white space, a plus sign that may be missing,
decimal digits, one of three units, white space; and the number that the digits
denote, times the worth of the unit, comes to `d`, which is at least a second and at
most a hundred years. The number is an unbounded one. `schedule_laws` says that
exactly these texts are read, although the reader counts with 64 bits: a count that
does not fit would be too large anyway (`digitsValue?_eq_some_iff`), and what the
digits read so far come to is never more than the whole (`le_ofDigitChars`).

The unit is cut off by its octet. It is an ASCII letter, so no character is torn
(`upTo?_unit`).
-/
import TriageDesk.Proofs.Activity.Punctuality
import TriageDesk.Proofs.Text.Digits
import TriageDesk.Proofs.Text.Search

namespace TriageDesk.Interval

open Text

/-! ## The grammar -/

/-- A unit, and its worth in seconds. -/
inductive IsUnit : Char → Nat → Prop
  | second : IsUnit 's' 1
  | minute : IsUnit 'm' 60
  | hour : IsUnit 'h' 3600

/-- Decimal digits, at least one, and the number that they denote. -/
structure Denotes (digits : List Char) (n : Nat) : Prop where
  some : digits ≠ []
  decimal : ∀ c ∈ digits, c.isDigit = true
  value : Nat.ofDigitChars 10 digits 0 = n

/-- A text is a schedule of some seconds. -/
inductive IsSchedule (text : List Char) (d : Nat) : Prop
  | intro {gap sign digits gap' : List Char} {unit : Char} {n worth : Nat}
      (written : text = gap ++ (sign ++ (digits ++ [unit]) ++ gap'))
      (blank : gap.all isBlank = true) (blank' : gap'.all isBlank = true)
      (plus : sign = [] ∨ sign = ['+']) (count : Denotes digits n) (counts : IsUnit unit worth)
      (least : 1 ≤ n * worth) (most : n * worth ≤ 3153600000) (same : d = n * worth)

theorem unitSeconds?_eq_some_iff {c : Char} {seconds : UInt64} :
    unitSeconds? c = some seconds ↔ IsUnit c seconds.toNat := by
  constructor
  · intro unit
    unfold unitSeconds? at unit
    split at unit
    · rename_i same
      cases unit
      rw [same]
      exact .second
    · split at unit
      · rename_i same
        cases unit
        rw [same]
        exact .minute
      · split at unit
        · rename_i same
          cases unit
          rw [same]
          exact .hour
        · cases unit
  · generalize worth : seconds.toNat = w
    intro unit
    cases unit <;> simp [unitSeconds?, ← UInt64.toNat_inj, worth]

theorem exists_unit {c : Char} {worth : Nat} (unit : IsUnit c worth) :
    ∃ seconds, unitSeconds? c = some seconds ∧ seconds.toNat = worth := by
  cases unit
  · exact ⟨1, rfl, rfl⟩
  · exact ⟨60, rfl, rfl⟩
  · exact ⟨3600, rfl, rfl⟩

theorem IsUnit.pos {c : Char} {worth : Nat} (unit : IsUnit c worth) : 0 < worth := by
  cases unit <;> decide

theorem IsUnit.solid {c : Char} {worth : Nat} (unit : IsUnit c worth) :
    isBlank c = false ∧ c.utf8Size = 1 := by
  cases unit <;> exact ⟨rfl, rfl⟩

/-! ## Digits -/

theorem isDigit_iff {c : Char} : c.isDigit = true ↔ 48 ≤ c.toNat ∧ c.toNat ≤ 57 := by
  simp [Char.isDigit, UInt32.le_iff_toNat_le]

/-- Letters are digits to larger bases only. -/
theorem digitValue?_ten_eq_some_iff {c : Char} {d : Nat} :
    digitValue? 10 c = some d ↔ c.isDigit = true ∧ c.toNat - '0'.toNat = d := by
  have order (a b : Char) : a ≤ b ↔ a.toNat ≤ b.toNat := Char.le_def.trans UInt32.le_iff_toNat_le
  simp only [digitValue?, order, isDigit_iff, Char.reduceToNat]
  split_ifs <;> simp [Option.filter_some] <;> omega

theorem toNat_digit {c : Char} (digit : c.isDigit = true) :
    (UInt64.ofNat (c.toNat - '0'.toNat)).toNat = c.toNat - '0'.toNat := by
  have bounds := isDigit_iff.mp digit
  refine UInt64.toNat_ofNat_of_lt' ?_
  show c.toNat - 48 < 2 ^ 64
  omega

theorem push?_eq_some_iff {n m : UInt64} {c : Char} : push? n c = some m ↔
    c.isDigit = true ∧ m.toNat = 10 * n.toNat + (c.toNat - '0'.toNat) := by
  have ten : (10 : UInt64).toNat = 10 := rfl
  simp only [push?, Option.bind_eq_bind, Option.bind_eq_some_iff, times?, plus?, fit?_eq_some_iff,
    digitValue?_ten_eq_some_iff, ten]
  constructor
  · rintro ⟨shifted, tenfold, _, ⟨digit, rfl⟩, sum⟩
    rw [toNat_digit digit, tenfold, Nat.mul_comm] at sum
    exact ⟨digit, sum⟩
  · rintro ⟨digit, value⟩
    have fits : n.toNat * 10 < UInt64.size := by
      have := m.toNat_lt
      show n.toNat * 10 < 2 ^ 64
      omega
    have shifted := UInt64.toNat_ofNat_of_lt' fits
    refine ⟨.ofNat (n.toNat * 10), shifted, _, ⟨digit, rfl⟩, ?_⟩
    rw [toNat_digit digit, shifted, value, Nat.mul_comm]

theorem foldlM_push?_eq_some_iff {cs : List Char} {acc n : UInt64} :
    cs.foldlM push? acc = some n ↔
      (∀ c ∈ cs, c.isDigit = true) ∧ Nat.ofDigitChars 10 cs acc.toNat = n.toNat := by
  induction cs generalizing acc with
  | nil => simp [UInt64.toNat_inj]
  | cons c cs ih =>
    rw [List.foldlM_cons, Option.bind_eq_bind, Option.bind_eq_some_iff, Nat.ofDigitChars_cons,
      List.forall_mem_cons]
    constructor
    · rintro ⟨m, pushed, rest⟩
      obtain ⟨digit, value⟩ := push?_eq_some_iff.mp pushed
      obtain ⟨decimal, total⟩ := ih.mp rest
      rw [value] at total
      exact ⟨⟨digit, decimal⟩, total⟩
    · rintro ⟨⟨digit, decimal⟩, total⟩
      -- what has been read so far is at most the whole, so it fits
      have below := le_ofDigitChars cs (10 * acc.toNat + (c.toNat - '0'.toNat))
      rw [total] at below
      have fits := Nat.lt_of_le_of_lt below n.toNat_lt
      refine ⟨.ofNat (10 * acc.toNat + (c.toNat - '0'.toNat)), ?_, ?_⟩
      · exact push?_eq_some_iff.mpr ⟨digit, UInt64.toNat_ofNat_of_lt' fits⟩
      · rw [ih, UInt64.toNat_ofNat_of_lt' fits]
        exact ⟨decimal, total⟩

/-- Digits are read as a number of 64 bits exactly where they denote one. -/
theorem digitsValue?_eq_some_iff {cs : List Char} {n : UInt64} :
    digitsValue? cs = some n ↔ Denotes cs n.toNat := by
  unfold digitsValue?
  split
  · rename_i empty
    simp only [reduceCtorEq, false_iff]
    exact fun denotes => denotes.some empty
  · rename_i some
    rw [foldlM_push?_eq_some_iff]
    exact ⟨fun ⟨decimal, value⟩ => ⟨some, decimal, value⟩, fun h => ⟨h.decimal, h.value⟩⟩

theorem count?_eq_some_iff {cs : List Char} {n : UInt64} : count? cs = some n ↔
    ∃ sign digits, cs = sign ++ digits ∧ (sign = [] ∨ sign = ['+']) ∧
      Denotes digits n.toNat := by
  constructor
  · intro counted
    unfold count? at counted
    split at counted
    · exact ⟨['+'], _, rfl, .inr rfl, digitsValue?_eq_some_iff.mp counted⟩
    · exact ⟨[], cs, rfl, .inl rfl, digitsValue?_eq_some_iff.mp counted⟩
  · rintro ⟨sign, digits, rfl, rfl | rfl, denotes⟩
    · have read := digitsValue?_eq_some_iff.mpr denotes
      unfold count?
      split
      · rename_i rest same
        rw [List.nil_append] at same
        exact absurd (denotes.decimal '+' (same ▸ List.mem_cons_self)) (by decide)
      · exact read
    · exact digitsValue?_eq_some_iff.mpr denotes

/-! ## Cutting off the unit -/

theorem upTo?_append (cs rest : List Char) : upTo? (octets cs) (cs ++ rest) = some cs := by
  induction cs with
  | nil => exact upTo?.eq_1 rest
  | cons c cs ih =>
    obtain ⟨n, size⟩ : ∃ n, octets (c :: cs) = n + 1 :=
      Nat.exists_eq_add_one.mpr (Nat.add_pos_left c.utf8Size_pos _)
    have whole : n + 1 = c.utf8Size + octets cs := size.symm
    rw [size, List.cons_append, upTo?, if_pos (by omega), show n + 1 - c.utf8Size = octets cs by omega,
      ih]
    rfl

/-- An ASCII character at the end of a text is its last octet. -/
theorem octets_unit {c : Char} (ascii : c.utf8Size = 1) (cs : List Char) :
    octets (cs ++ [c]) = octets cs + 1 := by
  induction cs with
  | nil => simp [octets, ascii]
  | cons d cs ih =>
    show d.utf8Size + octets (cs ++ [c]) = d.utf8Size + octets cs + 1
    rw [ih, Nat.add_assoc]

theorem upTo?_unit {c : Char} (ascii : c.utf8Size = 1) (cs : List Char) :
    upTo? (octets (cs ++ [c]) - 1) (cs ++ [c]) = some cs := by
  rw [octets_unit ascii, Nat.add_sub_cancel]
  exact upTo?_append cs [c]

/-- A text that ends with a unit is cut there. -/
theorem exists_cut {cs : List Char} {seconds : UInt64}
    (unit : cs.getLast?.bind unitSeconds? = some seconds) : ∃ counted c,
      cs = counted ++ [c] ∧ IsUnit c seconds.toNat ∧ upTo? (octets cs - 1) cs = some counted := by
  obtain ⟨c, last, worth⟩ := Option.bind_eq_some_iff.mp unit
  obtain ⟨counted, rfl⟩ := List.getLast?_eq_some_iff.mp last
  have here := unitSeconds?_eq_some_iff.mp worth
  exact ⟨counted, c, rfl, here, upTo?_unit here.solid.2 counted⟩

/-- **No schedule is torn.** Where a unit is found, it is an octet of its own. -/
theorem read_ne_torn (schedule : String) : read schedule ≠ .torn := by
  unfold read
  intro torn
  simp only at torn
  split at torn
  · cases torn
  · rename_i seconds unit
    obtain ⟨counted, c, -, -, cut⟩ := exists_cut unit
    rw [cut] at torn
    cases found : total? counted seconds <;> simp [found] at torn

/-! ## Schedules -/

theorem isSchedule_of_parse? {schedule : String} {d : Nat} (parsed : parse? schedule = some d) :
    IsSchedule schedule.toList d := by
  obtain ⟨seconds, counted, total, unit, cut, found, rfl⟩ := parse?_eq_some_iff.mp parsed
  obtain ⟨counted', c, trimmed, worth, cut'⟩ := exists_cut unit
  rw [cut] at cut'
  cases cut'
  obtain ⟨n, counts, positive, product, within⟩ := total?_eq_some_iff.mp found
  obtain ⟨sign, digits, rfl, plus, denotes⟩ := count?_eq_some_iff.mp counts
  obtain ⟨gap, gap', written, blank, blank'⟩ := exists_gaps schedule.toList
  rw [trimmed, List.append_assoc sign] at written
  have some : 0 < n.toNat := Nat.pos_of_ne_zero fun zero => positive (UInt64.toNat_inj.mp zero)
  exact .intro written blank blank' plus denotes worth (Nat.mul_pos some worth.pos)
    (product ▸ within) product

/-- A count begins with a sign or a digit. -/
theorem exists_front {sign digits : List Char} {n : Nat} (plus : sign = [] ∨ sign = ['+'])
    (denotes : Denotes digits n) :
    ∃ first inner, sign ++ digits = first :: inner ∧ isBlank first = false := by
  rcases plus with rfl | rfl
  · obtain ⟨first, inner, rfl⟩ := List.exists_cons_of_ne_nil denotes.some
    exact ⟨first, inner, rfl, isBlank_of_isDigit (denotes.decimal first List.mem_cons_self)⟩
  · exact ⟨'+', digits, rfl, by decide⟩

theorem parse?_of_isSchedule {schedule : String} {d : Nat}
    (is : IsSchedule schedule.toList d) : parse? schedule = some d := by
  obtain @⟨gap, sign, digits, gap', unit, n, worth, written, blank, blank', plus, count, counts,
    least, most, rfl⟩ := is
  have trimmed : trim schedule.toList = sign ++ digits ++ [unit] := by
    obtain ⟨first, inner, front, solid⟩ := exists_front plus count
    rw [written, ← List.append_assoc sign, front]
    exact trim_blanks solid counts.solid.1 blank blank' inner
  obtain ⟨seconds, unitRead, rfl⟩ := exists_unit counts
  -- a count is at most the seconds that it comes to, so both are numbers of 64 bits
  have small : n ≤ n * seconds.toNat := Nat.le_mul_of_pos_right n counts.pos
  have fits {k : Nat} (within : k ≤ 3153600000) : (UInt64.ofNat k).toNat = k :=
    UInt64.toNat_ofNat_of_lt' (Nat.lt_of_le_of_lt within (by decide))
  have countRead : count? (sign ++ digits) = some (.ofNat n) := by
    refine count?_eq_some_iff.mpr ⟨sign, digits, rfl, plus, ?_⟩
    rwa [fits (Nat.le_trans small most)]
  have positive : UInt64.ofNat n ≠ 0 := by
    intro zero
    have none : n = 0 := by rw [← fits (Nat.le_trans small most), zero]; rfl
    rw [none, Nat.zero_mul] at least
    exact absurd least (by decide)
  have total : total? (sign ++ digits) seconds = some (.ofNat (n * seconds.toNat)) := by
    refine total?_eq_some_iff.mpr ⟨_, countRead, positive, ?_, ?_⟩
    · rw [fits most, fits (Nat.le_trans small most)]
    · rw [fits most]
      exact most
  refine parse?_eq_some_iff.mpr ⟨seconds, sign ++ digits, _, ?_, ?_, total, fits most⟩
  · rw [trimmed, List.getLast?_append]
    exact unitRead
  · rw [trimmed]
    exact upTo?_unit counts.solid.2 _

theorem parse_le (schedule : String) : parse schedule ≤ 3153600000 := by
  unfold parse
  cases parsed : parse? schedule with
  | none => decide
  | some d =>
    obtain ⟨-, -, -, -, -, -, -, most, rfl⟩ := isSchedule_of_parse? parsed
    exact most

/-! ## The laws -/

/-- What can be said of the interval that a text stands for. -/
structure ScheduleLaws (schedule : String) : Prop where
  /-- Exactly the texts of the grammar are read, each as its seconds. -/
  grammar : ∀ d, parse? schedule = some d ↔ IsSchedule schedule.toList d
  /-- Reading never breaks off. -/
  whole : read schedule ≠ .torn
  kept : ∀ d, IsSchedule schedule.toList d → parse schedule = d
  fallback : (¬ ∃ d, IsSchedule schedule.toList d) → parse schedule = 1800
  positive : 1 ≤ parse schedule
  bounded : parse schedule ≤ 3153600000
  /-- A clock that counts seconds with 63 bits does not overflow within half of its range. -/
  room : ∀ now, now < 4611686018427387904 → now + parse schedule < 9223372036854775808
  /-- A loop that follows the schedule waits for some time, and at most for a hundred years. -/
  period : ∀ l : Activity.Loop Activity.Job, l.activity.schedule = schedule →
    0 < l.interval ∧ ∀ now due, l.dueAfter? now = some due →
      now < due ∧ due ≤ now + 3153600000 * 1000

/-- When the next run of a loop is due. -/
theorem due_within {l : Activity.Loop Activity.Job} {now due : Nat}
    (isDue : l.dueAfter? now = some due) : now < due ∧ due ≤ now + l.interval := by
  have long : 5 < l.interval := l.grace_lt_interval
  rcases Activity.Loop.dueAfter?_eq_some isDue with ⟨-, rfl⟩ | ⟨last, -, late, rfl⟩
  · omega
  · unfold Activity.Ticker.next Activity.Ticker.grace
    split <;> omega

/-- **A schedule is read by its grammar, with exact numbers.** -/
theorem schedule_laws (schedule : String) : ScheduleLaws schedule where
  grammar d := ⟨isSchedule_of_parse?, parse?_of_isSchedule⟩
  whole := read_ne_torn schedule
  kept := by
    intro d is
    rw [parse, parse?_of_isSchedule is, Option.getD_some]
  fallback := by
    intro unwritten
    have refused : parse? schedule = none := Option.eq_none_iff_forall_ne_some.mpr
      fun d parsed => unwritten ⟨d, isSchedule_of_parse? parsed⟩
    rw [parse, refused]
    rfl
  positive := parse_pos schedule
  bounded := parse_le schedule
  room := by
    intro now early
    have := parse_le schedule
    omega
  period := by
    intro l follows
    have long : l.interval = parse schedule * 1000 := by rw [← follows]; rfl
    have most := parse_le schedule
    have least := parse_pos schedule
    refine ⟨by omega, fun now due isDue => ?_⟩
    have within := due_within isDue
    omega

/-- The largest interval has many spellings; an hour more has none, and the unit counts only where
it is the last character. -/
example : parse? "\t+000876000h " = some 3153600000 ∧ parse? "876001h" = none ∧
    parse? "18446744073709551617s" = none ∧ parse? "5時" = none ∧ parse? "時m" = none := by
  decide +kernel

end TriageDesk.Interval
