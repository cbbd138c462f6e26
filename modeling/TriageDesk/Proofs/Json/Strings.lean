/-
TriageDesk.Proofs.Json.Strings — what the reader takes for blanks, literals and
strings.

`Took P text rest` says that a reader has taken a text of the kind `P` from the
front. The lemmas give it for the readers of strings and for those that pass
over strings; the latter take half a surrogate pair for a piece of a string.
-/
import TriageDesk.Proofs.Json.Grammar

namespace TriageDesk.Json

open Text Reader

variable {α β : Type} {text : List Char} {rest : Rest}

/-! ## Taking a text from the front -/

/-- The rest is what remains after a text of a kind. -/
def Took (P : List Char → Prop) (text : List Char) (rest : Rest) : Prop :=
  ∃ cs more, text = cs ++ more ∧ rest = runes more ∧ P cs

theorem Took.imp {P Q : List Char → Prop} (h : ∀ cs, P cs → Q cs) (took : Took P text rest) :
    Took Q text rest := by
  obtain ⟨cs, more, same, ends, kind⟩ := took
  exact ⟨cs, more, same, ends, h cs kind⟩

/-- A reader that succeeded has done so in its first part and then in the others. -/
theorem exists_of_bind {ε : Type} {x : Except ε α} {f : α → Except ε β} {b : β}
    (ok : (x >>= f) = .ok b) : ∃ a, x = .ok a ∧ f a = .ok b := by
  cases x with
  | error e => cases ok
  | ok a => exact ⟨a, rfl, ok⟩

/-- Blanks are taken up to something else. -/
theorem skipBlanks_took (text : List Char) :
    ∃ gap more, text = gap ++ more ∧ gap.all isGap = true ∧
      skipBlanks (runes text) = runes more := by
  induction text with
  | nil => exact ⟨[], [], rfl, rfl, rfl⟩
  | cons c text ih =>
    by_cases blank : isGap c = true
    · obtain ⟨gap, more, rfl, blanks, skipped⟩ := ih
      refine ⟨c :: gap, more, rfl, by simp [blank, blanks], ?_⟩
      rw [← skipped, runes_cons, skipBlanks,
        List.dropWhile_cons_of_pos (show isBlankRune (.char c) = true from blank)]
      rfl
    · rw [Bool.not_eq_true] at blank
      exact ⟨[], c :: text, rfl, rfl, skipBlanks_cons blank _⟩

theorem literal_took {word : List Char} (read : literal word (runes text) = .ok rest) :
    Took (fun cs => cs = word) text rest := by
  induction word generalizing text with
  | nil =>
    cases read
    exact ⟨[], text, rfl, rfl, rfl⟩
  | cons w word ih =>
    cases text with
    | nil => cases read
    | cons c text =>
      rw [runes_cons, literal] at read
      split_ifs at read with same
      cases same
      obtain ⟨_, more, rfl, ends, rfl⟩ := ih read
      exact ⟨_ :: _, more, rfl, ends, rfl⟩

/-! ## Strings -/

theorem fourHex_took {n : Nat} (read : fourHex (runes text) = .ok (n, rest)) :
    Took (HexCode · n) text rest := by
  unfold fourHex at read
  cases digits : fourHex? (runes text) with
  | none =>
    simp only [digits] at read
    split_ifs at read
  | some r =>
    simp only [digits] at read
    cases read
    match text, digits with
    | a :: b :: c :: d :: text, digits =>
      simp only [runes_cons, fourHex?, Option.bind_eq_bind, Option.bind_eq_some_iff] at digits
      obtain ⟨w, ha, x, hb, y, hc, z, hd, same⟩ := digits
      cases same
      exact ⟨[a, b, c, d], text, rfl, rfl, .mk ha hb hc hd⟩

theorem expectInPair_took {c : Char} (read : expectInPair c (runes text) = .ok rest) :
    Took (fun cs => cs = [c]) text rest := by
  cases text with
  | nil => cases read
  | cons d text =>
    rw [runes_cons, expectInPair] at read
    split_ifs at read with same
    cases same
    cases read
    exact ⟨[c], text, rfl, rfl, rfl⟩

/-- The code of a character is taken, be it one escape or a pair of them. -/
theorem unicodeEscape_took {c : Char} (read : unicodeEscape (runes text) = .ok (c, rest)) :
    Took (fun code => Spells ('\\' :: 'u' :: code) c) text rest := by
  unfold unicodeEscape at read
  obtain ⟨⟨n, first⟩, digits, next⟩ := exists_of_bind read
  obtain ⟨high, more, rfl, rfl, hex⟩ := fourHex_took digits
  by_cases lone : 0xDC00 ≤ n ∧ n ≤ 0xDFFF
  · simp only [if_pos lone] at next
    cases next
  simp only [if_neg lone] at next
  by_cases whole : n < 0xD800 ∨ 0xDBFF < n
  · simp only [if_pos whole] at next
    cases next
    exact ⟨high, more, rfl, rfl, .code hex (by omega)⟩
  simp only [if_neg whole] at next
  obtain ⟨_, backslash, next'⟩ := exists_of_bind next
  obtain ⟨_, _, rfl, rfl, rfl⟩ := expectInPair_took backslash
  obtain ⟨_, mark, last⟩ := exists_of_bind next'
  obtain ⟨_, _, rfl, rfl, rfl⟩ := expectInPair_took mark
  obtain ⟨⟨m, second⟩, digits', result⟩ := exists_of_bind last
  obtain ⟨low, more, rfl, rfl, hex'⟩ := fourHex_took digits'
  by_cases lone' : m < 0xDC00 ∨ 0xDFFF < m
  · simp only [if_pos lone'] at result
    cases result
  · simp only [if_neg lone'] at result
    obtain ⟨rfl, rfl⟩ := Prod.mk.inj (Except.ok.inj result)
    exact ⟨high ++ '\\' :: 'u' :: low, more, by simp, rfl, .pair hex hex' (by omega) (by omega)⟩

theorem escape_took {c : Char} (read : escape (runes text) = .ok (c, rest)) :
    Took (fun code => Spells ('\\' :: code) c) text rest := by
  cases text with
  | nil => cases read
  | cons mark text =>
    rw [runes_cons] at read
    unfold escape at read
    split at read
    case h_1 => cases read
    case h_10 same =>
      cases same
      obtain ⟨code, more, rfl, ends, spells⟩ := unicodeEscape_took read
      exact ⟨'u' :: code, more, rfl, ends, spells⟩
    case h_11 => cases read
    -- the escapes of one letter
    all_goals
      rename_i same
      cases same
      cases read
      exact ⟨[_], text, rfl, rfl, .short (by decide)⟩

/-- The characters of a string are taken with the closing quote. -/
theorem stringBody_took {fuel : Nat} {cs : List Char}
    (read : stringBody fuel true (runes text) = .ok (cs, rest)) :
    Took (fun body => ∃ raw, body = raw ++ ['"'] ∧ Spelled raw cs) text rest := by
  induction fuel generalizing text cs rest with
  | zero => cases read
  | succ fuel ih =>
    cases text with
    | nil => cases read
    | cons c text =>
      rw [runes_cons] at read
      by_cases quote : c = '"'
      · subst quote
        cases read
        exact ⟨['"'], text, rfl, rfl, [], rfl, .nil⟩
      by_cases backslash : c = '\\'
      · subst backslash
        obtain ⟨⟨d, _⟩, escaped, next⟩ := exists_of_bind read
        obtain ⟨code, _, rfl, rfl, spells⟩ := escape_took escaped
        obtain ⟨⟨ds, _⟩, others, last⟩ := exists_of_bind next
        obtain ⟨_, more, rfl, rfl, raw, rfl, spelled⟩ := ih others
        cases last
        exact ⟨'\\' :: code ++ raw ++ ['"'], more, by simp, rfl, _, rfl, .cons spells spelled⟩
      · rw [stringBody] at read
        · split_ifs at read with control
          obtain ⟨⟨ds, _⟩, others, last⟩ := exists_of_bind read
          obtain ⟨_, more, rfl, rfl, raw, rfl, spelled⟩ := ih others
          cases last
          exact ⟨[c] ++ raw ++ ['"'], more, by simp, rfl, _, rfl,
            .cons (.plain ⟨quote, backslash, control⟩) spelled⟩
        · rintro ⟨⟩
          exact quote rfl
        · rintro ⟨⟩
          exact backslash rfl

/-- A string is taken from behind its opening quote on. -/
theorem string_took {s : String} (read : Reader.string (runes text) = .ok (s, rest)) :
    Took (fun body => StringText s ('"' :: body)) text rest := by
  unfold Reader.string at read
  obtain ⟨⟨cs, _⟩, body, last⟩ := exists_of_bind read
  obtain ⟨_, more, rfl, rfl, raw, rfl, spelled⟩ := stringBody_took body
  cases last
  exact ⟨raw ++ ['"'], more, rfl, rfl, .mk (by simpa using spelled)⟩

/-- An escape that is passed over is one, but maybe half of a pair. -/
theorem skipEscape_took (read : skipEscape (runes text) = .ok rest) :
    Took (fun code => IsPiece ('\\' :: code)) text rest := by
  unfold skipEscape at read
  split at read
  · rename_i same
    cases text with
    | nil => cases same
    | cons c text =>
      cases same
      obtain ⟨⟨n, _⟩, digits, last⟩ := exists_of_bind read
      obtain ⟨code, more, rfl, rfl, hex⟩ := fourHex_took digits
      cases last
      exact ⟨'u' :: code, more, rfl, rfl, .code hex⟩
  · rename_i other
    obtain ⟨⟨c, _⟩, escaped, last⟩ := exists_of_bind read
    obtain ⟨code, more, rfl, rfl, spells⟩ := escape_took escaped
    cases last
    cases spells with
    | short known => exact ⟨_, more, rfl, rfl, .short known⟩
    | plain itself => exact absurd rfl itself.noBackslash
    | code | pair => exact absurd rfl (other _)

theorem skipString_took {fuel : Nat} (read : skipString fuel (runes text) = .ok rest) :
    Took (fun body => IsString ('"' :: body)) text rest := by
  suffices body : Took (fun body => ∃ raw, body = raw ++ ['"'] ∧ IsSpelled raw) text rest by
    refine body.imp ?_
    rintro _ ⟨raw, rfl, spelled⟩
    exact ⟨spelled⟩
  induction fuel generalizing text rest with
  | zero => cases read
  | succ fuel ih =>
    cases text with
    | nil => cases read
    | cons c text =>
      rw [runes_cons] at read
      by_cases quote : c = '"'
      · subst quote
        cases read
        exact ⟨['"'], text, rfl, rfl, [], rfl, .nil⟩
      by_cases backslash : c = '\\'
      · subst backslash
        obtain ⟨_, escaped, others⟩ := exists_of_bind read
        obtain ⟨code, _, rfl, rfl, piece⟩ := skipEscape_took escaped
        obtain ⟨_, more, rfl, rfl, raw, rfl, spelled⟩ := ih others
        exact ⟨'\\' :: code ++ raw ++ ['"'], more, by simp, rfl, _, rfl, .cons piece spelled⟩
      · rw [skipString] at read
        · split_ifs at read with control
          obtain ⟨_, more, rfl, rfl, raw, rfl, spelled⟩ := ih read
          exact ⟨[c] ++ raw ++ ['"'], more, by simp, rfl, _, rfl,
            .cons (.plain ⟨quote, backslash, control⟩) spelled⟩
        · rintro ⟨⟩
          exact quote rfl
        · rintro ⟨⟩
          exact backslash rfl

/-- What is spelled with whole characters is spelled. -/
theorem Spelled.isSpelled {raw cs : List Char} (spelled : Spelled raw cs) : IsSpelled raw := by
  induction spelled with
  | nil => exact .nil
  | cons first _ ih =>
    cases first with
    | plain itself => exact .cons (.plain itself) ih
    | short known => exact .cons (.short known) ih
    | code hex => exact .cons (.code hex) ih
    | pair hex hex' =>
      have two := IsSpelled.cons (.code hex) (.cons (.code hex') ih)
      simpa using two

theorem StringText.isString {s : String} (string : StringText s text) : IsString text := by
  obtain ⟨spelled⟩ := string
  exact ⟨spelled.isSpelled⟩

end TriageDesk.Json
