/-
TriageDesk.Proofs.Json.Reading — what is written as JSON is read back.

Values are written with `Gaps`: blanks at the places where a layout puts them.
Written without any they are the compact text (`writeWith_none`), written with
lines the text over several lines (`writeWith_lines`). Whatever the gaps are, the
reader gives the value back and stops where its text ends (`value_writeWith`).
This needs a value that a text can hold at all, `Fits`: whole numbers of 64 bits,
and no more brackets inside one another than there is room for. The members of
its objects are put in order, which changes nothing where they are in order
already (`Sorted.ordered_eq_self`).

The lemmas follow the reader: the characters of a string
(`stringBody_escaped`), the digits of a number (`number_digits`), and the
items and members of a list and an object, each with what follows it.
-/
import Mathlib.Data.List.Basic
import TriageDesk.Json.Decoder
import TriageDesk.Json.Printer
import TriageDesk.Proofs.Text.Digits

namespace TriageDesk.Json

open Text Reader

variable {α : Type}

/-! ## Runes of characters -/

/-- Characters as runes. -/
def runes (cs : List Char) : Rest := cs.map .char

@[simp] theorem runes_nil : runes [] = [] := rfl

@[simp] theorem runes_cons (c : Char) (cs : List Char) : runes (c :: cs) = .char c :: runes cs := rfl

@[simp] theorem runes_append (cs ds : List Char) : runes (cs ++ ds) = runes cs ++ runes ds :=
  List.map_append

@[simp] theorem length_runes (cs : List Char) : (runes cs).length = cs.length := List.length_map _

/-- Whether a character may stand between the pieces of a text. -/
def isGap (c : Char) : Bool := isBlankRune (.char c)

/-- Blanks before a rune that is none are skipped. -/
theorem skipBlanks_runes {gap : List Char} (blank : gap.all isGap = true) (rest : Rest) :
    skipBlanks (runes gap ++ rest) = skipBlanks rest := by
  induction gap with
  | nil => rfl
  | cons c cs ih =>
    simp only [List.all_cons, Bool.and_eq_true] at blank
    rw [runes_cons, List.cons_append, skipBlanks,
      List.dropWhile_cons_of_pos (show isBlankRune (.char c) = true from blank.1)]
    exact ih blank.2

theorem skipBlanks_cons {c : Char} (solid : isGap c = false) (rest : Rest) :
    skipBlanks (.char c :: rest) = .char c :: rest :=
  List.dropWhile_cons_of_neg (by rw [show isBlankRune (.char c) = false from solid]; simp)

theorem eq_of_isGap {c : Char} (gap : isGap c = true) :
    c = ' ' ∨ c = '\n' ∨ c = '\t' ∨ c = '\r' := by
  simpa [isGap, isBlankRune, or_assoc] using gap

/-! ## Strings -/

/-- A character that needs no escape. -/
theorem stringBody_plain {c : Char} (quote : c ≠ '"') (backslash : c ≠ '\\')
    (printable : ¬ c.toNat < 0x20) {fuel : Nat} {cs : List Char} {more rest : Rest}
    (read : stringBody fuel true more = .ok (cs, rest)) :
    stringBody (fuel + 1) true (.char c :: more) = .ok (c :: cs, rest) := by
  rw [stringBody]
  · rw [if_neg printable, read]
    rfl
  · intro h
    cases h
    exact quote rfl
  · intro h
    cases h
    exact backslash rfl

/-- A character that is written as an escape. -/
theorem stringBody_escape {c : Char} {code more rest : Rest} {fuel : Nat} {cs : List Char}
    (escaped : escape code = .ok (c, more)) (read : stringBody fuel true more = .ok (cs, rest)) :
    stringBody (fuel + 1) true (.char '\\' :: code) = .ok (c :: cs, rest) := by
  rw [stringBody, escaped]
  show (stringBody fuel true more >>= _) = _
  rw [read]
  rfl

theorem hexValue?_digitChar : ∀ n < 16, hexValue? (Nat.digitChar n) = some n := by decide

/-- The escape of a control character that has no short one. -/
theorem escape_control {c : Char} (control : c.toNat < 0x20) (more : Rest) :
    escape (.char 'u' :: .char '0' :: .char '0' :: .char (Nat.digitChar (c.toNat / 16)) ::
      .char (Nat.digitChar (c.toNat % 16)) :: more) = .ok (c, more) := by
  have high := hexValue?_digitChar (c.toNat / 16) (by omega)
  have low := hexValue?_digitChar (c.toNat % 16) (by omega)
  have value : ((0 * 16 + 0) * 16 + c.toNat / 16) * 16 + c.toNat % 16 = c.toNat := by omega
  have digits : fourHex (.char '0' :: .char '0' :: .char (Nat.digitChar (c.toNat / 16)) ::
      .char (Nat.digitChar (c.toNat % 16)) :: more) = .ok (c.toNat, more) := by
    have zero : hexValue? '0' = some 0 := by decide
    simp only [fourHex, fourHex?, zero, high, low, Option.bind_eq_bind, Option.bind_some, value]
    rfl
  rw [escape, unicodeEscape, digits]
  simp only [bind, Except.bind]
  rw [if_neg (by omega)]
  simp only [pure, Except.pure]
  rw [if_pos (by omega), Char.ofNat_toNat]

/-- One character of a string is read back. -/
theorem stringBody_cons {fuel : Nat} {cs : List Char} {more rest : Rest}
    (read : stringBody fuel true more = .ok (cs, rest)) (c : Char) :
    stringBody (fuel + 1) true (runes (escapeChar c) ++ more) = .ok (c :: cs, rest) := by
  unfold escapeChar
  split_ifs with quote backslash backspace formFeed lineFeed carriageReturn tab control
  case neg => exact stringBody_plain quote backslash control read
  -- the short escapes, and the one in numbers
  all_goals
    first
    | exact stringBody_escape (escape_control control more) read
    | subst c
      exact stringBody_escape rfl read

/-- The characters of a string are read back, however many there are. -/
theorem stringBody_escaped (cs : List Char) (rest : Rest) {fuel : Nat} (enough : cs.length < fuel) :
    stringBody fuel true (runes (cs.flatMap escapeChar) ++ .char '"' :: rest) = .ok (cs, rest) := by
  induction cs generalizing fuel with
  | nil =>
    obtain ⟨fuel, rfl⟩ := Nat.exists_eq_add_one.mpr enough
    rfl
  | cons c cs ih =>
    obtain ⟨fuel, rfl⟩ := Nat.exists_eq_add_one.mpr (Nat.zero_lt_of_lt enough)
    rw [List.flatMap_cons, runes_append, List.append_assoc]
    exact stringBody_cons (ih (by simpa using enough)) c

theorem length_le_escaped (cs : List Char) : cs.length ≤ (cs.flatMap escapeChar).length := by
  induction cs with
  | nil => exact Nat.le_refl _
  | cons c cs ih =>
    have one : 1 ≤ (escapeChar c).length := by
      unfold escapeChar
      split_ifs <;> simp
    rw [List.flatMap_cons, List.length_append, List.length_cons]
    omega

/-- A string that has been written is read back. -/
theorem string_written (s : String) (rest : Rest) :
    Reader.string (runes (s.toList.flatMap escapeChar ++ ['"']) ++ rest) = .ok (s, rest) := by
  have text : runes (s.toList.flatMap escapeChar ++ ['"']) ++ rest =
      runes (s.toList.flatMap escapeChar) ++ .char '"' :: rest := by
    rw [runes_append, List.append_assoc]
    rfl
  have enough : s.toList.length <
      (runes (s.toList.flatMap escapeChar ++ ['"']) ++ rest).length + 1 := by
    have longer := length_le_escaped s.toList
    simp only [List.length_append, length_runes]
    omega
  unfold Reader.string
  rw [text] at enough ⊢
  rw [stringBody_escaped s.toList rest enough]
  show Except.ok (String.ofList s.toList, rest) = _
  rw [String.ofList_toList]

/-! ## Numbers -/

/-- What follows a value and does not go on with a number. -/
structure Ends (rest : Rest) : Prop where
  noDigit : digitNext rest = false
  noPoint : pointNext rest = false
  noExponent : exponentNext rest = false

theorem digit?_of_isDigit {c : Char} (h : c.isDigit = true) :
    digit? (.char c) = some (c.toNat - '0'.toNat) := by
  have bounds : '0' ≤ c ∧ c ≤ '9' := by
    simpa [Char.isDigit, Char.le_def] using h
  rw [digit?, if_pos bounds]

/-- Digits are taken as long as they stay within the limit. -/
theorem takeDigits_digits {limit : Nat} {ds : List Char} (digits : ∀ d ∈ ds, d.isDigit = true)
    {v : Nat} (within : Nat.ofDigitChars 10 ds v ≤ limit) (taken : Nat) {rest : Rest}
    (ends : digitNext rest = false) :
    takeDigits limit v taken (runes ds ++ rest) =
      (Nat.ofDigitChars 10 ds v, taken + ds.length, rest) := by
  induction ds generalizing v taken with
  | nil =>
    cases rest with
    | nil => rfl
    | cons r rest =>
      have none : digit? r = none := by simpa [digitNext] using ends
      simp only [runes_nil, List.nil_append, takeDigits, none]
      rfl
  | cons d ds ih =>
    rw [Nat.ofDigitChars_cons] at within ⊢
    have value : v * 10 + (d.toNat - '0'.toNat) = 10 * v + (d.toNat - '0'.toNat) := by omega
    have small := le_ofDigitChars ds (10 * v + (d.toNat - '0'.toNat))
    rw [runes_cons, List.cons_append, takeDigits, digit?_of_isDigit (digits d List.mem_cons_self)]
    simp only [value]
    rw [if_neg (by omega), ih (fun x h => digits x (List.mem_cons_of_mem _ h)) within,
      List.length_cons]
    congr 2
    omega

theorem isGap_of_isDigit {c : Char} (digit : c.isDigit = true) : isGap c = false := by
  cases gap : isGap c with
  | false => rfl
  | true =>
    rcases eq_of_isGap gap with rfl | rfl | rfl | rfl <;> cases digit

/-- The digits of a number are read up to what ends them. -/
theorem number_digits {n : Nat} (within : n ≤ maxSignificand) (positive : Bool) {rest : Rest}
    (ends : Ends rest) :
    Reader.number positive (runes (Nat.toDigits 10 n) ++ rest) = numberTail positive n rest := by
  rcases Nat.eq_zero_or_pos n with rfl | more
  · show Reader.number positive (.char '0' :: rest) = _
    rw [Reader.number, ends.noDigit]
    rfl
  · obtain ⟨d, ds, digits, head⟩ := exists_head_toDigits more
    have all : ∀ c ∈ Nat.toDigits 10 n, c.isDigit = true :=
      fun c h => Nat.isDigit_of_mem_toDigits (by decide) (by decide) h
    have total : Nat.ofDigitChars 10 (Nat.toDigits 10 n) 0 = n :=
      Nat.ofDigitChars_toDigits (by decide) (by decide)
    have taken := takeDigits_digits all (total.symm ▸ within) 0 ends.noDigit
    rw [total] at taken
    rw [digits] at taken all ⊢
    rw [runes_cons, List.cons_append] at taken ⊢
    rw [Reader.number]
    · rw [digit?_of_isDigit (all d List.mem_cons_self), taken]
      simp [ends.noDigit]
    · intro h
      cases h
      exact head rfl

/-- A whole number of 64 bits that is not below zero is read back. -/
theorem number_nat {n : Nat} (high : n ≤ maxSignificand) {rest : Rest} (ends : Ends rest) :
    Reader.number true (runes (Nat.toDigits 10 n) ++ rest) = .ok (.int n, rest) := by
  rw [number_digits high true ends, numberTail, ends.noPoint, ends.noExponent]
  rfl

/-- A whole number of 64 bits below zero is read back, from after its sign on. -/
theorem number_neg {n : Nat} (positive : 0 < n) (low : n ≤ 9223372036854775808) {rest : Rest}
    (ends : Ends rest) :
    Reader.number false (runes (Nat.toDigits 10 n) ++ rest) = .ok (.int (-n), rest) := by
  have within : n ≤ maxSignificand := by
    have : maxSignificand = 18446744073709551615 := rfl
    omega
  have inRange : ¬ (n = 0 ∨ Nat.pow 2 63 < n) := by
    have : Nat.pow 2 63 = 9223372036854775808 := rfl
    omega
  rw [number_digits within false ends, numberTail, ends.noPoint, ends.noExponent]
  simp only [Bool.false_eq_true, if_false]
  rw [if_neg inRange]

theorem toString_nat (n : Nat) : (toString (n : Int)).toList = Nat.toDigits 10 n := by
  show (Nat.repr n).toList = _
  simp [Nat.repr]

theorem toString_neg (n : Nat) :
    (toString (Int.negSucc n)).toList = '-' :: Nat.toDigits 10 (n + 1) := by
  show ("-" ++ Nat.repr (n + 1)).toList = _
  simp [Nat.repr]

/-! ## Writing with gaps -/

/-- The blanks that a layout puts between the pieces of a value, at each level of nesting. -/
structure Gaps where
  /-- Before the first item. -/
  first : Nat → List Char
  /-- After a comma. -/
  next : Nat → List Char
  /-- Before the closing bracket. -/
  last : Nat → List Char
  /-- After a colon. -/
  colon : List Char
  first_blank : ∀ level, (first level).all isGap = true
  next_blank : ∀ level, (next level).all isGap = true
  last_blank : ∀ level, (last level).all isGap = true
  colon_blank : colon.all isGap = true

namespace Gaps

/-- No blanks. -/
def none : Gaps := ⟨fun _ => [], fun _ => [], fun _ => [], [], by simp, by simp, by simp, rfl⟩

/-- A space after each comma and each colon. -/
def spaces : Gaps :=
  ⟨fun _ => [], fun _ => [' '], fun _ => [], [' '], by simp, fun _ => by decide, by simp, by decide⟩

theorem newLine_blank (level : Nat) : (newLine level).all isGap = true :=
  List.all_eq_true.mpr fun _ among => (List.mem_cons.mp among).elim (fun same => same ▸ by decide)
    fun among => List.eq_of_mem_replicate among ▸ by decide

/-- A line for each item and each member. -/
def lines : Gaps :=
  ⟨fun level => newLine (level + 1), fun level => newLine (level + 1), newLine, [' '],
    fun _ => newLine_blank _, fun _ => newLine_blank _, newLine_blank, by decide⟩

end Gaps

mutual

/-- A value with gaps. -/
def writeWith (g : Gaps) (level : Nat) : Json → List Char
  | .array [] => ['[', ']']
  | .array (v :: rest) =>
    '[' :: (g.first level ++ (writeWith g (level + 1) v ++ writeMoreItems g level rest))
  | .object [] => ['{', '}']
  | .object ((k, v) :: rest) =>
    '{' :: (g.first level ++ (writeString k ++ ':' :: (g.colon ++
      (writeWith g (level + 1) v ++ writeMoreMembers g level rest))))
  | v => writeCompact v

/-- The items after the first one, and the end of their list. -/
def writeMoreItems (g : Gaps) (level : Nat) : List Json → List Char
  | [] => g.last level ++ [']']
  | v :: rest => ',' :: (g.next level ++ (writeWith g (level + 1) v ++ writeMoreItems g level rest))

/-- The members after the first one, and the end of their object. -/
def writeMoreMembers (g : Gaps) (level : Nat) : List (String × Json) → List Char
  | [] => g.last level ++ ['}']
  | (k, v) :: rest =>
    ',' :: (g.next level ++ (writeString k ++ ':' :: (g.colon ++
      (writeWith g (level + 1) v ++ writeMoreMembers g level rest))))

end

mutual

/-- Without blanks a value is written as its compact text. -/
theorem writeWith_none (level : Nat) : ∀ v, writeWith .none level v = writeCompact v
  | .null | .bool _ | .number _ | .string _ => by simp [writeWith]
  | .array [] => rfl
  | .array (v :: rest) => by
    rw [writeWith, writeWith_none (level + 1) v, writeMoreItems_none level v rest, writeCompact]
    rfl
  | .object [] => rfl
  | .object ((k, v) :: rest) => by
    rw [writeWith, writeWith_none (level + 1) v, writeCompact]
    exact congrArg ('{' :: ·) (writeMoreMembers_none level k v rest)

theorem writeMoreItems_none (level : Nat) : ∀ v rest,
    writeCompact v ++ writeMoreItems .none level rest = writeItems (v :: rest) ++ [']']
  | v, [] => rfl
  | v, w :: rest => by
    rw [writeMoreItems, writeWith_none (level + 1) w, writeMoreItems_none level w rest, writeItems,
      List.append_assoc]
    rfl

theorem writeMoreMembers_none (level : Nat) : ∀ k v rest,
    writeString k ++ ':' :: (writeCompact v ++ writeMoreMembers .none level rest) =
      writeMembers ((k, v) :: rest) ++ ['}']
  | k, v, [] => by
    rw [writeMembers, writeMoreMembers, List.append_assoc]
    rfl
  | k, v, (j, w) :: rest => by
    have more := writeMoreMembers_none level j w rest
    rw [writeMoreMembers, writeWith_none (level + 1) w, writeMembers]
    simp only [Gaps.none, List.nil_append, List.append_assoc, List.cons_append] at more ⊢
    rw [more]

end

mutual

/-- With a line for each item a value is written as its text over several lines. -/
theorem writeWith_lines (level : Nat) : ∀ v, writeWith .lines level v = writePretty level v
  | .null | .bool _ | .number _ | .string _ => by simp [writeWith, writePretty]
  | .array [] => rfl
  | .array (v :: rest) => by
    rw [writeWith, writeWith_lines (level + 1) v, writePretty]
    exact congrArg ('[' :: ·) (writeMoreItems_lines level v rest)
  | .object [] => rfl
  | .object ((k, v) :: rest) => by
    rw [writeWith, writeWith_lines (level + 1) v, writePretty]
    exact congrArg ('{' :: ·) (writeMoreMembers_lines level k v rest)

theorem writeMoreItems_lines (level : Nat) : ∀ v rest,
    newLine (level + 1) ++ (writePretty (level + 1) v ++ writeMoreItems .lines level rest) =
      writePrettyItems (level + 1) (v :: rest) ++ newLine level ++ [']']
  | v, [] => by
    rw [writePrettyItems, writeMoreItems]
    simp only [List.append_assoc]
    rfl
  | v, w :: rest => by
    have more := writeMoreItems_lines level w rest
    rw [writeMoreItems, writeWith_lines (level + 1) w, writePrettyItems]
    simp only [Gaps.lines, List.append_assoc, List.cons_append] at more ⊢
    rw [more]

theorem writeMoreMembers_lines (level : Nat) : ∀ k v rest,
    newLine (level + 1) ++ (writeString k ++ ':' :: ([' '] ++
        (writePretty (level + 1) v ++ writeMoreMembers .lines level rest))) =
      writePrettyMembers (level + 1) ((k, v) :: rest) ++ newLine level ++ ['}']
  | k, v, [] => by
    rw [writePrettyMembers, writeMoreMembers]
    simp only [List.append_assoc, List.cons_append, List.nil_append]
    rfl
  | k, v, (j, w) :: rest => by
    have more := writeMoreMembers_lines level j w rest
    rw [writeMoreMembers, writeWith_lines (level + 1) w, writePrettyMembers]
    simp only [Gaps.lines, List.nil_append, List.append_assoc, List.cons_append] at more ⊢
    rw [more]

end

/-! ## Reading values -/

/-- A value that a text can hold, with so many brackets inside one another: its numbers are
whole numbers of 64 bits. -/
inductive Fits : Nat → Json → Prop
  | null {room : Nat} : Fits room .null
  | bool {room : Nat} (b : Bool) : Fits room (.bool b)
  | int {room : Nat} {n : Int} (low : -9223372036854775808 ≤ n) (high : n ≤ 18446744073709551615) :
    Fits room (.number (.int n))
  | string {room : Nat} (s : String) : Fits room (.string s)
  | array {room : Nat} {items : List Json} (fit : ∀ v ∈ items, Fits room v) :
    Fits (room + 1) (.array items)
  | object {room : Nat} {members : List (String × Json)} (fit : ∀ e ∈ members, Fits room e.2) :
    Fits (room + 1) (.object members)

mutual

/-- A value as it is read: the members of an object in order, and of a name the last one. -/
def ordered : Json → Json
  | .array items => .array (orderedItems items)
  | .object members => ofMembers (orderedMembers members)
  | v => v

/-- Items as they are read. -/
def orderedItems : List Json → List Json
  | [] => []
  | v :: rest => ordered v :: orderedItems rest

/-- Members as they are read. -/
def orderedMembers : List (String × Json) → List (String × Json)
  | [] => []
  | (k, v) :: rest => (k, ordered v) :: orderedMembers rest

end

/-- A text is read as a value, up to what ends it. -/
def Reads (room : Nat) (text : List Char) (v : Json) : Prop :=
  ∀ rest, Ends rest → value room (runes text ++ rest) = .ok (v.ordered, rest)

/-- A text, with blanks before it or without, is read as a datum up to what ends it. -/
def Takes (read : Reading α) (text : List Char) (a : α) : Prop :=
  ∀ gap : List Char, gap.all isGap = true → ∀ rest, Ends rest →
    read (runes gap ++ (runes text ++ rest)) = .ok (a, rest)

theorem value_skipBlanks {gap : List Char} (blank : gap.all isGap = true) (room : Nat)
    (rest : Rest) : value room (runes gap ++ rest) = value room rest := by
  unfold value
  rw [skipBlanks_runes blank]

theorem Reads.takes {room : Nat} {text : List Char} {v : Json} (reads : Reads room text v) :
    Takes (value room) text v.ordered := by
  intro gap blank rest ends
  rw [value_skipBlanks blank]
  exact reads rest ends

/-- A text begins with a character that begins a value. -/
def Begins (text : List Char) : Prop :=
  ∃ c cs, text = c :: cs ∧ isGap c = false ∧ c ≠ ']'

theorem begins_writeWith (g : Gaps) (level : Nat) {room : Nat} {v : Json} (fits : Fits room v) :
    Begins (writeWith g level v) := by
  cases fits with
  | null => exact ⟨_, _, rfl, by decide, by decide⟩
  | bool b => cases b <;> exact ⟨_, _, rfl, by decide, by decide⟩
  | string s => exact ⟨'"', _, rfl, by decide, by decide⟩
  | @array room items =>
    cases items <;> exact ⟨'[', _, rfl, by decide, by decide⟩
  | @object room members =>
    cases members <;> exact ⟨'{', _, rfl, by decide, by decide⟩
  | @int room n low high =>
    show Begins (toString n).toList
    cases n with
    | negSucc n =>
      rw [toString_neg]
      exact ⟨'-', _, rfl, by decide, by decide⟩
    | ofNat n =>
      rw [Int.ofNat_eq_natCast, toString_nat]
      obtain ⟨d, ds, digits, digit⟩ := exists_digit n
      refine ⟨d, ds, digits, isGap_of_isDigit digit, ?_⟩
      rintro rfl
      cases digit

/-! ### What ends a value -/

theorem ends_gap {c : Char} (gap : isGap c = true) (rest : Rest) : Ends (.char c :: rest) := by
  rcases eq_of_isGap gap with rfl | rfl | rfl | rfl <;> exact ⟨rfl, rfl, rfl⟩

/-- Blanks and a closing bracket end a value. -/
theorem ends_close {gap : List Char} (blank : gap.all isGap = true) {rest : Rest}
    (ends : Ends rest) : Ends (runes gap ++ rest) := by
  cases gap with
  | nil => exact ends
  | cons c cs =>
    simp only [List.all_cons, Bool.and_eq_true] at blank
    exact ends_gap blank.1 _

theorem ends_moreItems (g : Gaps) (level : Nat) (vs : List Json) (rest : Rest) :
    Ends (runes (writeMoreItems g level vs) ++ rest) := by
  cases vs with
  | nil =>
    rw [writeMoreItems, runes_append, List.append_assoc]
    exact ends_close (g.last_blank level) ⟨rfl, rfl, rfl⟩
  | cons v vs => exact ⟨rfl, rfl, rfl⟩

theorem ends_moreMembers (g : Gaps) (level : Nat) (ms : List (String × Json)) (rest : Rest) :
    Ends (runes (writeMoreMembers g level ms) ++ rest) := by
  cases ms with
  | nil =>
    rw [writeMoreMembers, runes_append, List.append_assoc]
    exact ends_close (g.last_blank level) ⟨rfl, rfl, rfl⟩
  | cons e ms => exact ⟨rfl, rfl, rfl⟩

/-! ### Lists -/

theorem nextItem_close {gap : List Char} (blank : gap.all isGap = true) (first : Bool)
    (rest : Rest) :
    nextItem first (runes gap ++ .char ']' :: rest) = .ok (false, .char ']' :: rest) := by
  rw [nextItem, skipBlanks_runes blank, skipBlanks_cons (by decide)]
  rfl

theorem nextItem_first {gap text : List Char} (blank : gap.all isGap = true)
    (begins : Begins text) (rest : Rest) :
    nextItem true (runes gap ++ (runes text ++ rest)) = .ok (true, runes text ++ rest) := by
  obtain ⟨c, cs, rfl, solid, open_⟩ := begins
  rw [nextItem, skipBlanks_runes blank, runes_cons, List.cons_append, skipBlanks_cons solid]
  simp [open_]

theorem nextItem_next {gap text : List Char} (blank : gap.all isGap = true)
    (begins : Begins text) (rest : Rest) :
    nextItem false (.char ',' :: (runes gap ++ (runes text ++ rest))) =
      .ok (true, runes text ++ rest) := by
  obtain ⟨c, cs, rfl, solid, open_⟩ := begins
  have next : skipBlanks (runes gap ++ .char c :: (runes cs ++ rest)) =
      .char c :: (runes cs ++ rest) := by
    rw [skipBlanks_runes blank, skipBlanks_cons solid]
  rw [nextItem, skipBlanks_cons (by decide)]
  simp [next, open_]

/-- The items after the first one are read, and the end of their list. -/
theorem items_more (g : Gaps) (level : Nat) {read : Reading α} {vs : List Json} {as : List α}
    (takes : List.Forall₂ (fun v a => Takes read (writeWith g (level + 1) v) a) vs as)
    (begins : ∀ v ∈ vs, Begins (writeWith g (level + 1) v)) (rest : Rest) {fuel : Nat}
    (enough : vs.length < fuel) :
    items read fuel false (runes (writeMoreItems g level vs) ++ rest) = .ok (as, rest) := by
  induction takes generalizing fuel with
  | nil =>
    obtain ⟨fuel, rfl⟩ := Nat.exists_eq_add_one.mpr enough
    rw [writeMoreItems, runes_append, List.append_assoc, items]
    show (nextItem false (runes (g.last level) ++ .char ']' :: rest) >>= _) = _
    rw [nextItem_close (g.last_blank level)]
    rfl
  | @cons v a vs as takes _ ih =>
    obtain ⟨fuel, rfl⟩ := Nat.exists_eq_add_one.mpr (Nat.zero_lt_of_lt enough)
    have more := ih (fun w h => begins w (List.mem_cons_of_mem _ h)) (Nat.lt_of_succ_lt_succ enough)
    have item := takes [] rfl _ (ends_moreItems g level vs rest)
    rw [runes_nil, List.nil_append] at item
    rw [writeMoreItems, runes_cons, runes_append, runes_append, List.cons_append, List.append_assoc,
      List.append_assoc, items, nextItem_next (g.next_blank level) (begins v List.mem_cons_self)]
    show (read _ >>= _) = _
    rw [item]
    show (items read fuel false _ >>= _) = _
    rw [more]
    rfl

/-! ### Objects -/

theorem nextName_close {gap : List Char} (blank : gap.all isGap = true) (first : Bool)
    (rest : Rest) :
    nextName first (runes gap ++ .char '}' :: rest) = .ok (none, .char '}' :: rest) := by
  rw [nextName, skipBlanks_runes blank, skipBlanks_cons (by decide)]
  rfl

/-- A name that has been written is its opening quote and what is read as a string. -/
theorem exists_name (k : String) (rest : Rest) :
    ∃ tail, runes (writeString k) ++ rest = .char '"' :: tail ∧
      Reader.string tail = .ok (k, rest) :=
  ⟨_, rfl, string_written k rest⟩

theorem nextName_first {gap : List Char} (blank : gap.all isGap = true) (k : String)
    (rest : Rest) :
    nextName true (runes gap ++ (runes (writeString k) ++ rest)) = .ok (some k, rest) := by
  obtain ⟨tail, name, read⟩ := exists_name k rest
  rw [name, nextName, skipBlanks_runes blank, skipBlanks_cons (by decide)]
  show nextName.name (.char '"' :: tail) = _
  rw [nextName.name, read]
  rfl

theorem nextName_next {gap : List Char} (blank : gap.all isGap = true) (k : String)
    (rest : Rest) :
    nextName false (.char ',' :: (runes gap ++ (runes (writeString k) ++ rest))) =
      .ok (some k, rest) := by
  obtain ⟨tail, name, read⟩ := exists_name k rest
  have next : skipBlanks (runes gap ++ .char '"' :: tail) = .char '"' :: tail := by
    rw [skipBlanks_runes blank, skipBlanks_cons (by decide)]
  rw [name, nextName, skipBlanks_cons (by decide)]
  simp [next]
  show nextName.name (.char '"' :: tail) = _
  rw [nextName.name, read]
  rfl

theorem colon_written (rest : Rest) : colon (.char ':' :: rest) = .ok rest := by
  rw [colon, skipBlanks_cons (by decide)]
  rfl

/-- A member is written with its name and read as a datum. -/
def Member (g : Gaps) (level : Nat) (read : Reading α) (e : String × Json) (m : String × α) :
    Prop :=
  e.1 = m.1 ∧ Takes read (writeWith g (level + 1) e.2) m.2

/-- The members after the first one are read, and the end of their object. -/
theorem members_more (g : Gaps) (level : Nat) {read : Reading α} {es : List (String × Json)}
    {ms : List (String × α)} (takes : List.Forall₂ (Member g level read) es ms) (rest : Rest)
    {fuel : Nat} (enough : es.length < fuel) :
    members read fuel false (runes (writeMoreMembers g level es) ++ rest) = .ok (ms, rest) := by
  induction takes generalizing fuel with
  | nil =>
    obtain ⟨fuel, rfl⟩ := Nat.exists_eq_add_one.mpr enough
    rw [writeMoreMembers, runes_append, List.append_assoc, members]
    show (nextName false (runes (g.last level) ++ .char '}' :: rest) >>= _) = _
    rw [nextName_close (g.last_blank level)]
    rfl
  | @cons e m es ms takes _ ih =>
    obtain ⟨k, v⟩ := e
    obtain ⟨k, a⟩ := m
    obtain ⟨rfl, takes⟩ := takes
    obtain ⟨fuel, rfl⟩ := Nat.exists_eq_add_one.mpr (Nat.zero_lt_of_lt enough)
    have more := ih (Nat.lt_of_succ_lt_succ enough)
    have item := takes g.colon g.colon_blank _ (ends_moreMembers g level es rest)
    simp only [writeMoreMembers, runes_cons, runes_append, List.cons_append, List.append_assoc]
    rw [members, nextName_next (g.next_blank level)]
    simp only [bind, Except.bind, colon_written, item, more]
    rfl

theorem length_lt_moreItems (g : Gaps) (level : Nat) (vs : List Json) :
    vs.length < (writeMoreItems g level vs).length := by
  induction vs with
  | nil => simp [writeMoreItems]
  | cons v vs ih =>
    simp only [writeMoreItems, List.length_cons, List.length_append]
    omega

theorem length_lt_moreMembers (g : Gaps) (level : Nat) (ms : List (String × Json)) :
    ms.length < (writeMoreMembers g level ms).length := by
  induction ms with
  | nil => simp [writeMoreMembers]
  | cons e ms ih =>
    obtain ⟨k, v⟩ := e
    simp only [writeMoreMembers, List.length_cons, List.length_append]
    omega

/-- A list is its bracket and what is read as its items. -/
theorem items_written (g : Gaps) (level : Nat) {read : Reading α} {vs : List Json} {as : List α}
    (takes : List.Forall₂ (fun v a => Takes read (writeWith g (level + 1) v) a) vs as)
    (begins : ∀ v ∈ vs, Begins (writeWith g (level + 1) v)) (rest : Rest) :
    ∃ s, runes (writeWith g level (.array vs)) ++ rest = .char '[' :: s ∧
      items read s.length true s = .ok (as, rest) := by
  cases takes with
  | nil => exact ⟨_, rfl, rfl⟩
  | @cons v a vs as takes more =>
    have item := takes [] rfl _ (ends_moreItems g level vs rest)
    rw [runes_nil, List.nil_append] at item
    rw [writeWith, runes_cons, List.cons_append]
    refine ⟨_, rfl, ?_⟩
    generalize text : runes (g.first level ++ (writeWith g (level + 1) v ++
      writeMoreItems g level vs)) ++ rest = s
    have enough : ∃ fuel, s.length = fuel + 1 ∧ vs.length < fuel := by
      obtain ⟨c, cs, first, _⟩ := begins v List.mem_cons_self
      have longer := length_lt_moreItems g level vs
      refine ⟨s.length - 1, ?_, ?_⟩ <;>
        simp only [← text, first, List.length_append, length_runes, List.length_cons] <;> omega
    obtain ⟨fuel, length, enough⟩ := enough
    have others := items_more g level more (fun w h => begins w (List.mem_cons_of_mem _ h)) rest
      enough
    rw [length, ← text]
    simp only [runes_append, List.append_assoc]
    rw [items, nextItem_first (g.first_blank level) (begins v List.mem_cons_self)]
    simp only [bind, Except.bind, item, others]
    rfl

/-- An object is its brace and what is read as its members. -/
theorem members_written (g : Gaps) (level : Nat) {read : Reading α} {es : List (String × Json)}
    {ms : List (String × α)} (takes : List.Forall₂ (Member g level read) es ms) (rest : Rest) :
    ∃ s, runes (writeWith g level (.object es)) ++ rest = .char '{' :: s ∧
      members read s.length true s = .ok (ms, rest) := by
  cases takes with
  | nil => exact ⟨_, rfl, rfl⟩
  | @cons e m es ms takes more =>
    obtain ⟨k, v⟩ := e
    obtain ⟨k, a⟩ := m
    obtain ⟨rfl, takes⟩ := takes
    have item := takes g.colon g.colon_blank _ (ends_moreMembers g level es rest)
    rw [writeWith, runes_cons, List.cons_append]
    refine ⟨_, rfl, ?_⟩
    generalize text : runes (g.first level ++ (writeString k ++ ':' :: (g.colon ++
      (writeWith g (level + 1) v ++ writeMoreMembers g level es)))) ++ rest = s
    have enough : ∃ fuel, s.length = fuel + 1 ∧ es.length < fuel := by
      have longer := length_lt_moreMembers g level es
      refine ⟨s.length - 1, ?_, ?_⟩ <;>
        simp only [← text, List.length_append, length_runes, List.length_cons] <;> omega
    obtain ⟨fuel, length, enough⟩ := enough
    have others := members_more g level more rest enough
    rw [length, ← text]
    simp only [runes_append, runes_cons, List.append_assoc, List.cons_append]
    rw [members, nextName_first (g.first_blank level)]
    simp only [bind, Except.bind, colon_written, item, others]
    rfl

/-- A value that begins with a digit is a number. -/
theorem value_digit {d : Char} (digit : d.isDigit = true) (room : Nat) (rest : Rest) :
    value room (.char d :: rest) =
      (Reader.number true (.char d :: rest)).map fun r => (.number r.1, r.2) := by
  unfold value
  rw [skipBlanks_cons (isGap_of_isDigit digit)]
  split
  case h_1 same => cases same
  case h_9 r tail _ _ _ _ _ _ _ same =>
    cases same
    rw [digit?_of_isDigit digit]
    rfl
  all_goals
    rename_i same
    cases same
    cases digit

theorem forall₂_orderedItems {g : Gaps} {level room : Nat} {vs : List Json}
    (takes : ∀ v ∈ vs, Takes (value room) (writeWith g (level + 1) v) v.ordered) :
    List.Forall₂ (fun v w => Takes (value room) (writeWith g (level + 1) v) w) vs
      (orderedItems vs) := by
  induction vs with
  | nil => exact .nil
  | cons v vs ih =>
    exact .cons (takes v List.mem_cons_self) (ih fun w among => takes w (List.mem_cons_of_mem _ among))

theorem forall₂_orderedMembers {g : Gaps} {level room : Nat} {es : List (String × Json)}
    (takes : ∀ e ∈ es, Takes (value room) (writeWith g (level + 1) e.2) e.2.ordered) :
    List.Forall₂ (Member g level (value room)) es (orderedMembers es) := by
  induction es with
  | nil => exact .nil
  | cons e es ih =>
    exact .cons ⟨rfl, takes e List.mem_cons_self⟩
      (ih fun f among => takes f (List.mem_cons_of_mem _ among))

/-- **What is written is read.** A value that fits is read from its text, with its members in
order, whatever blanks are put between its pieces, and what follows is left. -/
theorem value_writeWith (g : Gaps) {room : Nat} {v : Json} (fits : Fits room v) :
    ∀ level, Reads room (writeWith g level v) v := by
  induction fits with
  | null =>
    intro level rest _
    unfold value
    rfl
  | bool b =>
    intro level rest _
    unfold value
    cases b <;> rfl
  | @int room n low high =>
    intro level rest ends
    show value room (runes (toString n).toList ++ rest) = _
    cases n with
    | negSucc n =>
      rw [toString_neg, runes_cons, List.cons_append]
      unfold value
      rw [skipBlanks_cons (by decide)]
      simp only [number_neg (Nat.succ_pos n) (by omega) ends]
      rfl
    | ofNat n =>
      have within : n ≤ maxSignificand := by
        have : maxSignificand = 18446744073709551615 := rfl
        rw [Int.ofNat_eq_natCast] at high
        omega
      have read := number_nat within ends
      obtain ⟨d, ds, digits, digit⟩ := exists_digit n
      rw [Int.ofNat_eq_natCast, toString_nat]
      rw [digits, runes_cons, List.cons_append] at read ⊢
      rw [value_digit digit, read]
      rfl
  | @string room s =>
    intro level rest _
    obtain ⟨tail, text, read⟩ := exists_name s rest
    show value room (runes (writeString s) ++ rest) = _
    rw [text]
    unfold value
    rw [skipBlanks_cons (by decide)]
    simp only [read]
    rfl
  | @array room items fit ih =>
    intro level rest _
    have takes := forall₂_orderedItems fun v among => (ih v among (level + 1)).takes
    have begins := fun v among => begins_writeWith g (level + 1) (fit v among)
    obtain ⟨s, text, read⟩ := items_written g level takes begins rest
    rw [text]
    unfold value
    rw [skipBlanks_cons (by decide)]
    simp only [read]
    rfl
  | @object room members fit ih =>
    intro level rest _
    have takes : List.Forall₂ (Member g level (value room)) members (orderedMembers members) :=
      forall₂_orderedMembers fun e among => (ih e among (level + 1)).takes
    obtain ⟨s, text, read⟩ := members_written g level takes rest
    rw [text]
    unfold value
    rw [skipBlanks_cons (by decide)]
    simp only [read]
    rfl

/-! ### Members in order -/

/-- A value with the members of its objects in order. -/
inductive Sorted : Json → Prop
  | null : Sorted .null
  | bool (b : Bool) : Sorted (.bool b)
  | number (n : Number) : Sorted (.number n)
  | string (s : String) : Sorted (.string s)
  | array {items : List Json} (sorted : ∀ v ∈ items, Sorted v) : Sorted (.array items)
  | object {members : List (String × Json)} (ascending : Entries.Ascending members)
      (sorted : ∀ e ∈ members, Sorted e.2) : Sorted (.object members)

/-- An entry behind all others. -/
theorem insert_last {k : String} {v : Json} {entries : List (String × Json)}
    (behind : ∀ e ∈ entries, e.1 < k) : Entries.insert k v entries = entries ++ [(k, v)] := by
  induction entries with
  | nil => rfl
  | cons e rest ih =>
    obtain ⟨j, w⟩ := e
    have before : j < k := behind (j, w) List.mem_cons_self
    have other : k ≠ j := fun same => String.lt_irrefl j (same ▸ before)
    have notBefore : ¬ k < j := String.lt_asymm before
    rw [Entries.insert, if_neg other, if_neg notBefore,
      ih fun e h => behind e (List.mem_cons_of_mem _ h)]
    rfl

theorem foldl_insert {members acc : List (String × Json)}
    (ascending : Entries.Ascending (acc ++ members)) :
    members.foldl (fun acc e => Entries.insert e.1 e.2 acc) acc = acc ++ members := by
  induction members generalizing acc with
  | nil => rw [List.append_nil, List.foldl_nil]
  | cons e rest ih =>
    have behind : ∀ f ∈ acc, f.1 < e.1 := fun f h =>
      (List.pairwise_append.mp ascending).2.2 f h e List.mem_cons_self
    have shifted : acc ++ [(e.1, e.2)] ++ rest = acc ++ e :: rest := by simp
    rw [List.foldl_cons, insert_last behind, ih (by rw [shifted]; exact ascending), shifted]

/-- An object that is made of members in order has just these. -/
theorem ofMembers_ascending {members : List (String × Json)}
    (ascending : Entries.Ascending members) : ofMembers members = .object members :=
  congrArg Json.object (foldl_insert (List.nil_append _ ▸ ascending))

theorem orderedItems_eq_self {items : List Json} (same : ∀ v ∈ items, v.ordered = v) :
    orderedItems items = items := by
  induction items with
  | nil => rfl
  | cons v rest ih =>
    rw [orderedItems, same v List.mem_cons_self, ih fun w h => same w (List.mem_cons_of_mem _ h)]

theorem orderedMembers_eq_self {members : List (String × Json)}
    (same : ∀ e ∈ members, e.2.ordered = e.2) : orderedMembers members = members := by
  induction members with
  | nil => rfl
  | cons e rest ih =>
    rw [orderedMembers, same e List.mem_cons_self, ih fun f h => same f (List.mem_cons_of_mem _ h)]

/-- A value with its members in order is read as it is. -/
theorem Sorted.ordered_eq_self {v : Json} (sorted : Sorted v) : v.ordered = v := by
  induction sorted with
  | null | bool | number | string => rfl
  | array _ same => rw [ordered, orderedItems_eq_self same]
  | object ascending _ same =>
    rw [ordered, orderedMembers_eq_self same, ofMembers_ascending ascending]

/-! ## Reading whole texts -/

theorem ofText_runes (cs : List Char) : Rune.ofText (String.ofList cs) = runes cs := by
  rw [Rune.ofText, String.toList_ofList]
  rfl

/-- A text is read by a decoder that reads it up to its end. -/
theorem ofText_of_read {α : Type} {d : Decoder α} {cs : List Char} {a : α}
    (read : d.read maxDepth (runes cs) = .ok (a, [])) : d.ofText (String.ofList cs) = .ok a := by
  rw [Decoder.ofText, ofText_runes, Decoder.ofRunesWithMessage, Decoder.ofRunes, read]
  rfl

/-- **A text is read as the value that was written.** -/
theorem parse?_writeWith (g : Gaps) {v : Json} (fits : Fits maxDepth v) :
    parse? (String.ofList (writeWith g 0 v)) = some v.ordered := by
  have read := value_writeWith g fits 0 [] ⟨rfl, rfl, rfl⟩
  rw [List.append_nil] at read
  rw [parse?, ofText_of_read (d := Decoder.any) read]
  rfl

end TriageDesk.Json
