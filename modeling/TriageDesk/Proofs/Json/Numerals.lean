/-
TriageDesk.Proofs.Json.Numerals — what the reader takes for a number.

A number is taken as if it stood alone: what comes behind it ends it and has no
other part in it (`number_alone`). Where a reader stops depends on one rune of
what follows, so each lemma says that the text it took is read alike with less
behind it. The digits of a number are taken up to the precision of the format
and passed over beyond it (`DigitRun`).

The reader that passes over a number takes the same texts (`skipNumber_took`).
-/
import Mathlib.Data.List.TakeWhile
import TriageDesk.Proofs.Json.Strings

namespace TriageDesk.Json

open Text Decimal Reader

variable {text : List Char} {rest : Rest}

/-! ## Digits -/

theorem isSome_digit? (c : Char) : (digit? (.char c)).isSome = c.isDigit := by
  have bounds : c.isDigit = true ↔ '0' ≤ c ∧ c ≤ '9' := by simp [Char.isDigit, Char.le_def]
  simp only [digit?]
  split_ifs with digit
  · exact (bounds.mpr digit).symm
  · rw [← bounds, Bool.not_eq_true] at digit
    exact digit.symm

theorem isNone_digit? (c : Char) : (digit? (.char c)).isNone = !c.isDigit := by
  rw [← isSome_digit?]
  cases digit? (.char c) <;> rfl

theorem digitNext_runes (text : List Char) :
    digitNext (runes text) = (text.head?.map Char.isDigit).getD false := by
  cases text with
  | nil => rfl
  | cons c text => exact isSome_digit? c

/-- What comes next does not depend on what comes after it. -/
theorem head?_of_isPrefix {short : List Char} (front : short <+: text) (some : short ≠ []) :
    short.head? = text.head? := by
  obtain ⟨more, rfl⟩ := front
  obtain ⟨c, cs, rfl⟩ := List.exists_cons_of_ne_nil some
  rfl

theorem digitNext_of_isPrefix {short : List Char} (front : short <+: text)
    (stops : digitNext (runes text) = false) : digitNext (runes short) = false := by
  cases short with
  | nil => rfl
  | cons c cs =>
    rw [digitNext_runes] at stops ⊢
    rwa [head?_of_isPrefix front (List.cons_ne_nil _ _)]

theorem pointNext_runes (text : List Char) :
    pointNext (runes text) = true ↔ ∃ digits, text = '.' :: digits := by
  constructor
  · intro next
    cases text with
    | nil => cases next
    | cons c text =>
      unfold pointNext at next
      split at next
      · rename_i same
        cases same
        exact ⟨text, rfl⟩
      · cases next
  · rintro ⟨digits, rfl⟩
    rfl

theorem dropDigits_runes (text : List Char) :
    dropDigits (runes text) =
      ((text.takeWhile Char.isDigit).length, runes (text.dropWhile Char.isDigit)) := by
  induction text with
  | nil => rfl
  | cons c text ih =>
    rw [runes_cons, dropDigits, isSome_digit?, List.takeWhile_cons, List.dropWhile_cons]
    split_ifs with digit
    · rw [ih]
      rfl
    · rfl

theorem digitNext_dropWhile (text : List Char) :
    digitNext (runes (text.dropWhile Char.isDigit)) = false := by
  induction text with
  | nil => rfl
  | cons c text ih =>
    rw [List.dropWhile_cons]
    split_ifs with digit
    · exact ih
    · rw [digitNext_runes]
      simpa using digit

theorem takeDigits_stop {limit value taken : Nat} (stops : digitNext rest = false) :
    takeDigits limit value taken rest = (value, taken, rest) := by
  cases rest with
  | nil => rfl
  | cons r rest =>
    have none : digit? r = none := by simpa [digitNext] using stops
    simp [takeDigits, none]

/-- Digits are taken in the same way if less follows them. -/
theorem takeDigits_took {limit value taken value' taken' : Nat}
    (read : takeDigits limit value taken (runes text) = (value', taken', rest)) :
    ∃ ds more, text = ds ++ more ∧ rest = runes more ∧ (∀ d ∈ ds, d.isDigit = true) ∧
      taken' = taken + ds.length ∧ ∀ short, short <+: more →
        takeDigits limit value taken (runes (ds ++ short)) = (value', taken', runes short) := by
  induction text generalizing value taken with
  | nil =>
    cases read
    refine ⟨[], [], rfl, rfl, by simp, rfl, ?_⟩
    intro short front
    rw [List.prefix_nil.mp front]
    rfl
  | cons c text ih =>
    rw [runes_cons, takeDigits] at read
    cases digit : digit? (.char c) with
    | none =>
      simp only [digit] at read
      cases read
      have stops : digitNext (runes (c :: text)) = false := by simp [digitNext, digit]
      refine ⟨[], c :: text, rfl, rfl, by simp, rfl, ?_⟩
      intro short front
      exact takeDigits_stop (digitNext_of_isPrefix front stops)
    | some d =>
      simp only [digit] at read
      split_ifs at read with extra
      · cases read
        refine ⟨[], c :: text, rfl, rfl, by simp, rfl, ?_⟩
        intro short front
        cases short with
        | nil => rfl
        | cons e short =>
          obtain ⟨rfl, _⟩ := List.cons_prefix_cons.mp front
          rw [List.nil_append, runes_cons, takeDigits]
          simp only [digit]
          rw [if_pos extra]
      · obtain ⟨ds, more, rfl, ends, digits, count, again⟩ := ih read
        have first : c.isDigit = true := by rw [← isSome_digit?, digit]; rfl
        refine ⟨c :: ds, more, rfl, ends, ?_, ?_, ?_⟩
        · simpa [first] using digits
        · rw [count, List.length_cons]
          omega
        · intro short front
          rw [List.cons_append, runes_cons, takeDigits]
          simp only [digit]
          rw [if_neg extra, again short front]

/-- The digits at the front of a text: those that are taken and, if they are too many, those that
are passed over. They are found in the same way if less follows them. -/
structure DigitRun (limit value taken : Nat) (text ds extra tail : List Char) (value' : Nat) :
    Prop where
  text_eq : text = ds ++ (extra ++ tail)
  digits : ∀ d ∈ ds ++ extra, d.isDigit = true
  ends : digitNext (runes tail) = false
  takes : ∀ short, short <+: tail →
    takeDigits limit value taken (runes (ds ++ (extra ++ short))) =
      (value', taken + ds.length, runes (extra ++ short))
  drops : ∀ short, short <+: tail →
    dropDigits (runes (extra ++ short)) = (extra.length, runes short)
  next : ∀ short, short <+: tail → digitNext (runes (extra ++ short)) = !extra.isEmpty

theorem exists_digitRun (limit value taken : Nat) (text : List Char) :
    ∃ ds extra tail value', DigitRun limit value taken text ds extra tail value' := by
  obtain ⟨value', taken', rest, read⟩ :
      ∃ v t r, takeDigits limit value taken (runes text) = (v, t, r) := ⟨_, _, _, rfl⟩
  obtain ⟨ds, more, rfl, _, digits, count, again⟩ := takeDigits_took read
  have all : ∀ d ∈ more.takeWhile Char.isDigit, d.isDigit = true :=
    fun d among => List.mem_takeWhile_imp among
  have stops := digitNext_dropWhile more
  have apart (short : List Char) (front : short <+: more.dropWhile Char.isDigit) :
      (more.takeWhile Char.isDigit ++ short).takeWhile Char.isDigit = more.takeWhile Char.isDigit ∧
      (more.takeWhile Char.isDigit ++ short).dropWhile Char.isDigit = short := by
    have none := digitNext_of_isPrefix front stops
    rw [List.takeWhile_append_of_pos all, List.dropWhile_append_of_pos all]
    cases short with
    | nil => simp
    | cons c short =>
      rw [digitNext_runes] at none
      have other : c.isDigit = false := none
      simp [other]
  refine ⟨ds, more.takeWhile Char.isDigit, more.dropWhile Char.isDigit, value',
    ?_, ?_, stops, ?_, ?_, ?_⟩
  · rw [List.takeWhile_append_dropWhile]
  · intro d among
    exact (List.mem_append.mp among).elim (digits d) (all d)
  · intro short front
    rw [← count]
    refine again _ ?_
    obtain ⟨rest, same⟩ := front
    refine ⟨rest, ?_⟩
    rw [List.append_assoc, same, List.takeWhile_append_dropWhile]
  · intro short front
    rw [dropDigits_runes, (apart short front).1, (apart short front).2]
  · intro short front
    cases extra : more.takeWhile Char.isDigit with
    | nil => exact digitNext_of_isPrefix front stops
    | cons d extra =>
      rw [digitNext_runes]
      simpa using all d (by simp [extra])

/-! ## Numbers -/

/-- A reader of numbers takes texts of a kind, and reads them alike when they stand alone. -/
def Alone (P : List Char → Prop) (read : Reading Number) : Prop :=
  ∀ ⦃text : List Char⦄ ⦃n : Number⦄ ⦃rest : Rest⦄, read (runes text) = .ok (n, rest) →
    ∃ cs more, text = cs ++ more ∧ rest = runes more ∧ P cs ∧ read (runes cs) = .ok (n, [])

/-- A reader of numbers takes nothing, and reads the same whatever comes next. -/
def Stays (read : Reading Number) : Prop :=
  ∀ ⦃s : Rest⦄ ⦃n : Number⦄ ⦃rest : Rest⦄, read s = .ok (n, rest) →
    rest = s ∧ ∀ t, read t = .ok (n, t)

theorem finishNumber_stays (positive : Bool) (significand : Nat) (exponent : Int) :
    Stays (finishNumber positive significand exponent) := by
  intro s n rest read
  unfold finishNumber at read ⊢
  cases size : assemble positive significand exponent with
  | none => simp [size] at read
  | some x =>
    simp only [size] at read
    cases read
    exact ⟨rfl, fun t => rfl⟩

/-- The exponent part from behind its mark and its sign on. -/
def exponentDigits (positive up : Bool) (significand : Nat) (start : Int) : Reading Number
  | [] => .error ⟨.endInValue, 0⟩
  | r :: rest =>
    if (digit? r).isNone then .error (Flaw.invalidNumber.at (r :: rest))
    else
      let (value, _, rest) := takeDigits maxExponent 0 0 (r :: rest)
      if digitNext rest then
        if significand ≠ 0 ∧ up then .error (Flaw.numberOutOfRange.before rest.tail)
        else
          let zero : Float := if positive then 0.0 else -0.0
          .ok (.float (Binary64.ofFloat zero), (dropDigits rest).2)
      else
        finishNumber positive significand (if up then start + value else start - value) rest

theorem exponentPart_sign (positive : Bool) (significand : Nat) (start : Int) (mark : Char)
    (text : List Char) : ∃ sign digits up, text = sign ++ digits ∧ sign ∈ [[], ['+'], ['-']] ∧
      ∀ short, short <+: digits →
        exponentPart positive significand start (runes (mark :: (sign ++ short))) =
          exponentDigits positive up significand start (runes short) := by
  by_cases plus : ∃ digits, text = '+' :: digits
  · obtain ⟨digits, rfl⟩ := plus
    refine ⟨['+'], digits, true, rfl, by simp, ?_⟩
    intro short _
    cases short <;> rfl
  by_cases minus : ∃ digits, text = '-' :: digits
  · obtain ⟨digits, rfl⟩ := minus
    refine ⟨['-'], digits, false, rfl, by simp, ?_⟩
    intro short _
    cases short <;> rfl
  · refine ⟨[], text, true, rfl, by simp, ?_⟩
    intro short front
    cases short with
    | nil => rfl
    | cons c short =>
      obtain ⟨more, rfl⟩ := front
      have noPlus : c ≠ '+' := fun same => plus ⟨short ++ more, by simp [same]⟩
      have noMinus : c ≠ '-' := fun same => minus ⟨short ++ more, by simp [same]⟩
      simp [exponentPart, exponentDigits, noPlus, noMinus]

theorem exponentDigits_alone (positive up : Bool) (significand : Nat) (start : Int) :
    Alone IsDigits (exponentDigits positive up significand start) := by
  intro text n rest read
  obtain ⟨ds, extra, tail, value, run⟩ := exists_digitRun maxExponent 0 0 text
  cases front : ds ++ extra with
  | nil =>
    obtain ⟨rfl, rfl⟩ := List.append_eq_nil_iff.mp front
    have stops := run.ends
    obtain rfl := run.text_eq
    cases text with
    | nil => cases read
    | cons c text =>
      have none : c.isDigit = false := by rwa [digitNext_runes] at stops
      simp [exponentDigits, isNone_digit?, none] at read
  | cons d digits =>
    have first : (digit? (.char d)).isNone = false := by
      rw [isNone_digit?, run.digits d (by simp [front])]
      rfl
    have unfolded (short : List Char) (within : short <+: tail) :
        exponentDigits positive up significand start (runes (ds ++ (extra ++ short))) =
          if extra.isEmpty then
            finishNumber positive significand (if up then start + value else start - value)
              (runes short)
          else if significand ≠ 0 ∧ up then
            .error (Flaw.numberOutOfRange.before (runes (extra ++ short)).tail)
          else .ok (.float (Binary64.ofFloat (if positive then 0.0 else -0.0)), runes short) := by
      have takes := run.takes short within
      rw [← List.append_assoc, front, List.cons_append, runes_cons] at takes ⊢
      rw [exponentDigits, takes]
      simp only [first, run.next short within, run.drops short within]
      cases none : extra.isEmpty with
      | true =>
        rw [List.isEmpty_iff.mp none]
        simp
      | false => simp
    have digits : IsDigits (ds ++ extra) := ⟨by simp [front], run.digits⟩
    have text_eq : text = (ds ++ extra) ++ tail := by rw [run.text_eq, List.append_assoc]
    have alone := unfolded [] List.nil_prefix
    rw [List.append_nil] at alone
    rw [run.text_eq, unfolded tail (List.prefix_refl _)] at read
    by_cases none : extra.isEmpty = true
    · rw [if_pos none] at read alone
      obtain ⟨rfl, again⟩ := finishNumber_stays _ _ _ read
      exact ⟨ds ++ extra, tail, text_eq, rfl, digits, alone.trans (again _)⟩
    by_cases beyond : significand ≠ 0 ∧ up = true
    · rw [if_neg none, if_pos beyond] at read
      cases read
    · rw [if_neg none, if_neg beyond] at read alone
      obtain ⟨rfl, rfl⟩ := Prod.mk.inj (Except.ok.inj read)
      exact ⟨ds ++ extra, tail, text_eq, rfl, digits, alone⟩

/-- The reader of what follows the digits: the exponent part, if there is one. -/
theorem exponent_alone {read : Reading Number} (stays : Stays read) (positive : Bool)
    (significand : Nat) (start : Int) :
    Alone IsExponent fun s =>
      if exponentNext s then exponentPart positive significand start s else read s := by
  intro text n rest ok
  simp only at ok
  split_ifs at ok with marked
  · cases text with
    | nil => cases marked
    | cons mark text =>
      obtain ⟨sign, digits, up, rfl, signed, again⟩ :=
        exponentPart_sign positive significand start mark text
      rw [again digits (List.prefix_refl _)] at ok
      obtain ⟨ds, more, rfl, rfl, some, alone⟩ := exponentDigits_alone _ _ _ _ ok
      refine ⟨mark :: (sign ++ ds), more, by simp, rfl, .digits ?_ signed some, ?_⟩
      · simpa [exponentNext] using marked
      · have next : exponentNext (runes (mark :: (sign ++ ds))) = true := marked
        exact (if_pos next).trans ((again ds (List.prefix_append _ _)).trans alone)
  · obtain ⟨rfl, again⟩ := stays ok
    exact ⟨[], text, rfl, rfl, .none, again []⟩

/-- What may follow the digits before the point. -/
def IsDecimal (cs : List Char) : Prop :=
  ∃ fraction exponent, cs = fraction ++ exponent ∧ IsFraction fraction ∧ IsExponent exponent

theorem fractionPart_alone (positive : Bool) (significand : Nat) (start : Int) {text : List Char}
    {n : Number} {rest : Rest}
    (read : fractionPart positive significand start (runes ('.' :: text)) = .ok (n, rest)) :
    ∃ cs more, text = cs ++ more ∧ rest = runes more ∧ IsDecimal ('.' :: cs) ∧
      fractionPart positive significand start (runes ('.' :: cs)) = .ok (n, []) := by
  obtain ⟨ds, extra, tail, value, run⟩ := exists_digitRun maxSignificand significand 0 text
  have unfolded (short : List Char) (within : short <+: tail) (some : ds ++ extra ≠ []) :
      fractionPart positive significand start (runes ('.' :: (ds ++ (extra ++ short)))) =
        if exponentNext (runes short) then
          exponentPart positive value (start - ds.length) (runes short)
        else finishNumber positive value (start - ds.length) (runes short) := by
    rw [fractionPart, runes_cons, List.tail_cons, run.takes short within]
    simp only [run.next short within, run.drops short within]
    cases none : extra.isEmpty with
    | true =>
      rw [List.isEmpty_iff.mp none] at some ⊢
      rw [List.append_nil] at some
      simp [some]
    | false => simp
  by_cases none : ds ++ extra = []
  · obtain ⟨rfl, rfl⟩ := List.append_eq_nil_iff.mp none
    obtain rfl := run.text_eq
    have takes := run.takes text (List.prefix_refl _)
    rw [List.nil_append, List.nil_append] at takes
    rw [fractionPart, runes_cons, List.tail_cons, takes] at read
    simp only [run.ends] at read
    cases text <;> cases read
  · rw [run.text_eq, unfolded tail (List.prefix_refl _) none] at read
    obtain ⟨exponent, more, rfl, rfl, marked, alone⟩ :=
      exponent_alone (finishNumber_stays _ _ _) _ _ _ read
    refine ⟨ds ++ (extra ++ exponent), more, ?_, rfl, ?_, ?_⟩
    · rw [run.text_eq]
      simp
    · exact ⟨'.' :: (ds ++ extra), exponent, by simp, .digits ⟨none, run.digits⟩, marked⟩
    · exact (unfolded exponent (List.prefix_append _ _) none).trans alone

/-- The reader of what follows the digits before the point. -/
theorem decimal_alone {read : Reading Number} (stays : Stays read) (positive : Bool)
    (significand : Nat) (start : Int) :
    Alone IsDecimal fun s =>
      if pointNext s then fractionPart positive significand start s
      else if exponentNext s then exponentPart positive significand start s else read s := by
  intro text n rest ok
  by_cases point : ∃ digits, text = '.' :: digits
  · obtain ⟨digits, rfl⟩ := point
    obtain ⟨cs, more, rfl, rfl, decimal, alone⟩ := fractionPart_alone _ _ _ ok
    exact ⟨'.' :: cs, more, rfl, rfl, decimal, alone⟩
  · have noPoint {short : List Char} (front : short <+: text) :
        ¬ pointNext (runes short) = true := by
      rw [pointNext_runes]
      rintro ⟨digits, rfl⟩
      obtain ⟨more, rfl⟩ := front
      exact point ⟨digits ++ more, rfl⟩
    simp only [if_neg (noPoint (List.prefix_refl _))] at ok
    obtain ⟨exponent, more, rfl, rfl, marked, alone⟩ := exponent_alone stays _ _ _ ok
    refine ⟨exponent, more, rfl, rfl, ⟨[], exponent, rfl, .none, marked⟩, ?_⟩
    exact (if_neg (noPoint (List.prefix_append _ _))).trans alone

theorem numberTail_alone (positive : Bool) (significand : Nat) :
    Alone IsDecimal (numberTail positive significand) := by
  have stays : Stays fun s =>
      if positive then .ok (.int significand, s)
      else if significand = 0 ∨ Nat.pow 2 63 < significand then finishNumber false significand 0 s
      else .ok (.int (-significand), s) := by
    intro s n rest read
    simp only at read ⊢
    split_ifs at read ⊢ with sign float
    · cases read
      exact ⟨rfl, fun _ => rfl⟩
    · exact finishNumber_stays _ _ _ read
    · cases read
      exact ⟨rfl, fun _ => rfl⟩
  exact decimal_alone stays positive significand 0

/-- **A number** is taken as if it stood alone. -/
theorem number_alone (positive : Bool) : Alone IsUnsigned (Reader.number positive) := by
  intro text n rest read
  by_cases zero : ∃ digits, text = '0' :: digits
  · obtain ⟨digits, rfl⟩ := zero
    rw [runes_cons, Reader.number] at read
    split_ifs at read with padded
    obtain ⟨_, more, rfl, rfl, ⟨fraction, exponent, rfl, hf, he⟩, alone⟩ :=
      numberTail_alone _ _ read
    refine ⟨'0' :: (fraction ++ exponent), more, rfl, rfl, .mk .zero hf he, ?_⟩
    have stops : ¬ digitNext (runes (fraction ++ exponent)) = true := by
      rw [Bool.not_eq_true] at padded ⊢
      exact digitNext_of_isPrefix (List.prefix_append _ _) padded
    rw [runes_cons, Reader.number, if_neg stops]
    exact alone
  · cases text with
    | nil => cases read
    | cons c text =>
      have head : c ≠ '0' := fun same => zero ⟨text, by rw [same]⟩
      have noZero : Rune.char c = Rune.char '0' → False := by
        rintro ⟨⟩
        exact head rfl
      have digit : c.isDigit = true := by
        rw [runes_cons, Reader.number.eq_3 _ _ _ noZero] at read
        split_ifs at read with none
        simpa [isNone_digit?] using none
      obtain ⟨ds, extra, tail, value, run⟩ := exists_digitRun maxSignificand 0 0 (c :: text)
      obtain ⟨digits, front⟩ : ∃ digits, ds ++ extra = c :: digits := by
        have text_eq := run.text_eq
        rw [← List.append_assoc] at text_eq
        cases front : ds ++ extra with
        | nil =>
          rw [front, List.nil_append] at text_eq
          have stops := run.ends
          rw [← text_eq, digitNext_runes] at stops
          simp [digit] at stops
        | cons d digits =>
          rw [front, List.cons_append] at text_eq
          cases text_eq
          exact ⟨digits, rfl⟩
      have unfolded (short : List Char) (within : short <+: tail) :
          Reader.number positive (runes (ds ++ (extra ++ short))) =
            if extra.isEmpty then numberTail positive value (runes short)
            else if pointNext (runes short) then
              fractionPart positive value extra.length (runes short)
            else if exponentNext (runes short) then
              exponentPart positive value extra.length (runes short)
            else finishNumber positive value extra.length (runes short) := by
        have takes := run.takes short within
        rw [← List.append_assoc, front, List.cons_append, runes_cons] at takes ⊢
        rw [Reader.number.eq_3 _ _ _ noZero, takes]
        simp only [isNone_digit?, digit, run.next short within, run.drops short within]
        cases none : extra.isEmpty with
        | true =>
          rw [List.isEmpty_iff.mp none]
          simp
        | false => simp
      have whole : IsWhole (ds ++ extra) := by
        rw [front]
        exact .digits head (front ▸ run.digits)
      have read_tail := unfolded tail (List.prefix_refl _)
      rw [← run.text_eq, read] at read_tail
      -- what follows the digits is read in one of two ways, by whether they are too many
      have decimal : ∃ cs more, tail = cs ++ more ∧ rest = runes more ∧ IsDecimal cs ∧
          Reader.number positive (runes (ds ++ (extra ++ cs))) = .ok (n, []) := by
        by_cases none : extra.isEmpty = true
        · rw [if_pos none] at read_tail
          obtain ⟨cs, more, rfl, ends, decimal, alone⟩ := numberTail_alone _ _ read_tail.symm
          refine ⟨cs, more, rfl, ends, decimal, ?_⟩
          rw [unfolded cs (List.prefix_append _ _), if_pos none]
          exact alone
        · rw [if_neg none] at read_tail
          obtain ⟨cs, more, rfl, ends, decimal, alone⟩ :=
            decimal_alone (finishNumber_stays _ _ _) _ _ _ read_tail.symm
          refine ⟨cs, more, rfl, ends, decimal, ?_⟩
          rw [unfolded cs (List.prefix_append _ _), if_neg none]
          exact alone
      obtain ⟨_, more, rfl, ends, ⟨fraction, exponent, rfl, hf, he⟩, alone⟩ := decimal
      refine ⟨(ds ++ extra) ++ (fraction ++ exponent), more, ?_, ends, .mk whole hf he, ?_⟩
      · rw [run.text_eq]
        simp
      · rwa [List.append_assoc]

/-! ## Numbers that are passed over -/

/-- Digits that are passed over behind a first one. -/
theorem dropDigits_took {c : Char} (digit : c.isDigit = true) :
    Took IsDigits (c :: text) (dropDigits (runes text)).2 := by
  refine ⟨c :: text.takeWhile Char.isDigit, text.dropWhile Char.isDigit, ?_, ?_, ?_, ?_⟩
  · rw [List.cons_append, List.takeWhile_append_dropWhile]
  · rw [dropDigits_runes]
  · simp
  · intro d among
    rcases List.mem_cons.mp among with rfl | among
    · exact digit
    · exact List.mem_takeWhile_imp among

theorem skipExponent_took (marked : exponentNext (runes text) = true)
    (read : skipExponent (runes text) = .ok rest) : Took IsExponent text rest := by
  cases text with
  | nil => cases marked
  | cons mark text =>
    -- behind the sign, if there is one, come the digits
    have digits (sign : List Char) {body : List Char} (same : text = sign ++ body)
        (signed : sign ∈ [[], ['+'], ['-']]) (took : Took IsDigits body rest) :
        Took IsExponent (mark :: text) rest := by
      obtain ⟨ds, more, rfl, ends, some⟩ := took
      refine ⟨mark :: (sign ++ ds), more, by simp [same], ends, .digits ?_ signed some⟩
      simpa [exponentNext] using marked
    have first {c : Char} {body : List Char}
        (read : (if (digit? (.char c)).isSome then .ok (dropDigits (runes body)).2
          else .error (Flaw.invalidNumber.at (.char c :: runes body))) = Except.ok rest) :
        Took IsDigits (c :: body) rest := by
      rw [isSome_digit?] at read
      split_ifs at read with digit
      cases read
      exact dropDigits_took digit
    by_cases plus : ∃ body, text = '+' :: body
    · obtain ⟨body, rfl⟩ := plus
      cases body with
      | nil => cases read
      | cons c body => exact digits ['+'] rfl (by simp) (first read)
    by_cases minus : ∃ body, text = '-' :: body
    · obtain ⟨body, rfl⟩ := minus
      cases body with
      | nil => cases read
      | cons c body => exact digits ['-'] rfl (by simp) (first read)
    cases text with
    | nil => cases read
    | cons c body =>
      have noPlus : c ≠ '+' := fun same => plus ⟨body, by rw [same]⟩
      have noMinus : c ≠ '-' := fun same => minus ⟨body, by rw [same]⟩
      refine digits [] rfl (by simp) (first ?_)
      simpa [skipExponent, noPlus, noMinus] using read

/-- What is passed over behind the digits before the point. -/
def skipDecimal (s : Rest) : Except Fault Rest :=
  if pointNext s then
    let (n, rest) := dropDigits s.tail
    if n = 0 then .error (Flaw.invalidNumber.at rest)
    else if exponentNext rest then skipExponent rest
    else .ok rest
  else if exponentNext s then skipExponent s
  else .ok s

theorem skipNumber_zero (rest : Rest) : skipNumber (.char '0' :: rest) =
    if digitNext rest then .error (Flaw.invalidNumber.at rest) else skipDecimal rest := by
  unfold skipNumber skipDecimal
  simp only [bind, Except.bind, pure, Except.pure]
  split_ifs <;> rfl

theorem skipNumber_digits {r : Rune} (other : r ≠ .char '0') (rest : Rest) :
    skipNumber (r :: rest) = if (digit? r).isSome then skipDecimal (dropDigits rest).2
      else .error (Flaw.invalidNumber.at (r :: rest)) := by
  unfold skipNumber skipDecimal
  simp only [bind, Except.bind, pure, Except.pure]
  split_ifs <;> rfl

theorem skipDecimal_took (read : skipDecimal (runes text) = .ok rest) :
    Took IsDecimal text rest := by
  have exponent {text : List Char} (read : (if exponentNext (runes text) then
      skipExponent (runes text) else .ok (runes text)) = .ok rest) : Took IsExponent text rest := by
    split_ifs at read with marked
    · exact skipExponent_took marked read
    · cases read
      exact ⟨[], text, rfl, rfl, .none⟩
  unfold skipDecimal at read
  by_cases point : ∃ digits, text = '.' :: digits
  · obtain ⟨digits, rfl⟩ := point
    have here : pointNext (runes ('.' :: digits)) = true := rfl
    rw [if_pos here, runes_cons, List.tail_cons, dropDigits_runes] at read
    simp only at read
    by_cases none : (digits.takeWhile Char.isDigit).length = 0
    · rw [if_pos none] at read
      cases read
    · rw [if_neg none] at read
      obtain ⟨cs, more, same, ends, kind⟩ := exponent read
      refine ⟨'.' :: (digits.takeWhile Char.isDigit ++ cs), more, ?_, ends,
        '.' :: digits.takeWhile Char.isDigit, cs, rfl, .digits ⟨?_, ?_⟩, kind⟩
      · rw [List.cons_append, List.append_assoc, ← same, List.takeWhile_append_dropWhile]
      · exact fun empty => none (by rw [empty]; rfl)
      · exact fun d among => List.mem_takeWhile_imp among
  · rw [← pointNext_runes] at point
    rw [if_neg point] at read
    obtain ⟨cs, more, same, ends, kind⟩ := exponent read
    exact ⟨cs, more, same, ends, [], cs, rfl, .none, kind⟩

theorem skipNumber_took (read : skipNumber (runes text) = .ok rest) :
    Took IsUnsigned text rest := by
  cases text with
  | nil => cases read
  | cons c text =>
    rw [runes_cons] at read
    by_cases zero : c = '0'
    · subst zero
      rw [skipNumber_zero] at read
      split_ifs at read
      obtain ⟨_, more, rfl, ends, fraction, exponent, rfl, hf, he⟩ := skipDecimal_took read
      exact ⟨'0' :: (fraction ++ exponent), more, rfl, ends, .mk .zero hf he⟩
    · have other : Rune.char c ≠ .char '0' := by
        rintro ⟨⟩
        exact zero rfl
      rw [skipNumber_digits other, isSome_digit?] at read
      split_ifs at read with digit
      rw [dropDigits_runes] at read
      obtain ⟨_, more, same, ends, fraction, exponent, rfl, hf, he⟩ := skipDecimal_took read
      have all : ∀ d ∈ c :: text.takeWhile Char.isDigit, d.isDigit = true := by
        intro d among
        rcases List.mem_cons.mp among with rfl | among
        · exact digit
        · exact List.mem_takeWhile_imp among
      refine ⟨(c :: text.takeWhile Char.isDigit) ++ (fraction ++ exponent), more, ?_, ends,
        .mk (.digits zero all) hf he⟩
      rw [List.append_assoc, ← same, List.cons_append, List.takeWhile_append_dropWhile]

end TriageDesk.Json
