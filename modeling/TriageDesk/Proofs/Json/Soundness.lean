/-
TriageDesk.Proofs.Json.Soundness — what the reader takes for a value is one.

`value_sound` is the theorem: where the reader gives a value, it has taken the
text of that value. `skipValue_sound` says the same of the reader that passes
over values, which keeps a stack of the brackets that are open instead of
calling itself; the invariant is `Closes`, what the open brackets still ask of
the text.
-/
import TriageDesk.Proofs.Json.Numerals

namespace TriageDesk.Json

open Text Reader

variable {α ι κ : Type} {text : List Char} {rest : Rest}

/-! ## Sound readers -/

/-- A reader takes, behind blanks, a text that means what it gives. -/
def Sound (read : Reading α) (Piece : α → List Char → Prop) : Prop :=
  ∀ ⦃text : List Char⦄ ⦃a : α⦄ ⦃rest : Rest⦄, read (runes text) = .ok (a, rest) →
    ∃ gap cs more, text = gap ++ (cs ++ more) ∧ gap.all isGap = true ∧ rest = runes more ∧
      Piece a cs

/-! ## Separators -/

theorem colon_took (read : colon (runes text) = .ok rest) :
    Took (fun cs => ∃ gap, cs = gap ++ [':'] ∧ gap.all isGap = true) text rest := by
  obtain ⟨gap, more, rfl, blank, skipped⟩ := skipBlanks_took text
  unfold colon at read
  rw [skipped] at read
  split at read
  · rename_i same
    cases more with
    | nil => cases same
    | cons c more =>
      cases same
      cases read
      exact ⟨gap ++ [':'], more, by simp, rfl, gap, rfl, blank⟩
  · cases read
  · cases read

/-- What stands before an item: a comma, if it is not the first one. -/
def Lead (first : Bool) (cs : List Char) : Prop :=
  if first then cs.all isGap = true
  else ∃ gap gap', cs = gap ++ ',' :: gap' ∧ gap.all isGap = true ∧ gap'.all isGap = true

/-- What follows an opening bracket, if no item has been read, or an item. -/
def Inside (opening close : Char) (Piece : ι → List Char → Prop) (first : Bool) (is : List ι)
    (cs : List Char) : Prop :=
  if first then Bracketed opening close Piece is (opening :: cs) else Tail close Piece is cs

theorem Inside.close {opening close : Char} {Piece : ι → List Char → Prop} {gap : List Char}
    (blank : gap.all isGap = true) (first : Bool) :
    Inside opening close Piece first [] (gap ++ [close]) := by
  cases first with
  | true => exact Bracketed.empty blank
  | false => exact Tail.close blank

theorem Inside.item {opening close : Char} {Piece : ι → List Char → Prop} {first : Bool}
    {lead gap piece cs : List Char} {i : ι} {is : List ι} (leads : Lead first lead)
    (blank : gap.all isGap = true) (here : Piece i piece)
    (more : Inside opening close Piece false is cs) :
    Inside opening close Piece first (i :: is) (lead ++ (gap ++ (piece ++ cs))) := by
  cases first with
  | true =>
    have blanks : (lead ++ gap).all isGap = true := by
      rw [List.all_append, blank]
      simpa [Lead] using leads
    have listed : Bracketed opening close Piece (i :: is) _ := .items blanks here more
    simpa [Inside] using listed
  | false =>
    obtain ⟨before, behind, rfl, blank', blank''⟩ := leads
    have blanks : (behind ++ gap).all isGap = true := by
      rw [List.all_append, blank, blank'', Bool.and_self]
    have listed : Tail close Piece (i :: is) _ := .next blank' blanks here more
    simpa [Inside] using listed

theorem nextItem_took {first more : Bool} (read : nextItem first (runes text) = .ok (more, rest)) :
    (more = true ∧ Took (Lead first) text rest) ∨
      (more = false ∧ ∃ gap after, text = gap ++ ']' :: after ∧ gap.all isGap = true ∧
        rest = runes (']' :: after)) := by
  obtain ⟨gap, tail, rfl, blank, skipped⟩ := skipBlanks_took text
  unfold nextItem at read
  rw [skipped] at read
  split at read
  · cases read
  · rename_i same
    cases tail with
    | nil => cases same
    | cons c tail =>
      cases same
      cases read
      exact .inr ⟨rfl, gap, tail, rfl, blank, rfl⟩
  · rename_i same
    cases tail with
    | nil => cases same
    | cons c tail =>
      obtain ⟨rfl, rfl⟩ := List.cons.inj ((runes_cons c tail).symm.trans same)
      left
      cases first with
      | true =>
        cases read
        exact ⟨rfl, gap, c :: tail, rfl, rfl, blank⟩
      | false =>
        rw [if_neg (by simp)] at read
        split_ifs at read with comma
        cases comma
        obtain ⟨gap', more, rfl, blank', skipped'⟩ := skipBlanks_took tail
        rw [skipped'] at read
        have leads : Lead false (gap ++ ',' :: gap') := ⟨gap, gap', rfl, blank, blank'⟩
        split at read
        · cases read
        · cases read
        · cases read
          exact ⟨rfl, gap ++ ',' :: gap', more, by simp, rfl, leads⟩

theorem items_took {item : Reading α} {Piece : α → List Char → Prop} (sound : Sound item Piece)
    {fuel : Nat} {first : Bool} {as : List α}
    (read : items item fuel first (runes text) = .ok (as, rest)) :
    Took (Inside '[' ']' Piece first as) text rest := by
  induction fuel generalizing first text as rest with
  | zero => cases read
  | succ fuel ih =>
    obtain ⟨⟨more, after⟩, next, body⟩ := exists_of_bind read
    rcases nextItem_took next with
      ⟨rfl, lead, tail, rfl, rfl, leads⟩ | ⟨rfl, gap, tail, rfl, blank, rfl⟩
    · obtain ⟨⟨a, _⟩, here, body'⟩ := exists_of_bind body
      obtain ⟨gap, piece, tail, rfl, blank, rfl, kind⟩ := sound here
      obtain ⟨⟨others, _⟩, later, last⟩ := exists_of_bind body'
      obtain ⟨cs, tail, rfl, rfl, inside⟩ := ih later
      cases last
      exact ⟨lead ++ (gap ++ (piece ++ cs)), tail, by simp, rfl, .item leads blank kind inside⟩
    · cases body
      exact ⟨gap ++ [']'], tail, by simp, rfl, .close blank first⟩

theorem nextName_took {first : Bool} {k? : Option String}
    (read : nextName first (runes text) = .ok (k?, rest)) :
    (∃ k, k? = some k ∧ ∃ lead name more, text = lead ++ (name ++ more) ∧ rest = runes more ∧
        Lead first lead ∧ StringText k name) ∨
      (k? = none ∧ ∃ gap after, text = gap ++ '}' :: after ∧ gap.all isGap = true ∧
        rest = runes ('}' :: after)) := by
  have named {text : List Char} (read : nextName.name (runes text) = .ok (k?, rest)) :
      ∃ k, k? = some k ∧ ∃ name more, text = name ++ more ∧ rest = runes more ∧
        StringText k name := by
    unfold nextName.name at read
    split at read
    · rename_i same
      cases text with
      | nil => cases same
      | cons c text =>
        cases same
        obtain ⟨⟨k, _⟩, string, last⟩ := exists_of_bind read
        obtain ⟨body, more, rfl, rfl, kind⟩ := string_took string
        cases last
        exact ⟨k, rfl, '"' :: body, more, rfl, rfl, kind⟩
    · cases read
  obtain ⟨gap, tail, rfl, blank, skipped⟩ := skipBlanks_took text
  unfold nextName at read
  rw [skipped] at read
  split at read
  · cases read
  · rename_i same
    cases tail with
    | nil => cases same
    | cons c tail =>
      cases same
      cases read
      exact .inr ⟨rfl, gap, tail, rfl, blank, rfl⟩
  · rename_i same
    cases tail with
    | nil => cases same
    | cons c tail =>
      obtain ⟨rfl, rfl⟩ := List.cons.inj ((runes_cons c tail).symm.trans same)
      left
      cases first with
      | true =>
        rw [if_pos rfl, ← runes_cons] at read
        obtain ⟨k, rfl, name, more, whole, ends, kind⟩ := named read
        exact ⟨k, rfl, gap, name, more, by rw [whole], ends, blank, kind⟩
      | false =>
        rw [if_neg (by simp)] at read
        split_ifs at read with comma
        cases comma
        obtain ⟨gap', more, rfl, blank', skipped'⟩ := skipBlanks_took tail
        rw [skipped'] at read
        have leads : Lead false (gap ++ ',' :: gap') := ⟨gap, gap', rfl, blank, blank'⟩
        split at read
        · cases read
        · cases read
        · obtain ⟨k, rfl, name, more, rfl, ends, kind⟩ := named read
          exact ⟨k, rfl, gap ++ ',' :: gap', name, more, by simp, ends, leads, kind⟩

theorem members_took {item : Reading α} {Piece : α → List Char → Prop} (sound : Sound item Piece)
    {fuel : Nat} {first : Bool} {ms : List (String × α)}
    (read : members item fuel first (runes text) = .ok (ms, rest)) :
    Took (Inside '{' '}' (Named StringText Piece) first ms) text rest := by
  induction fuel generalizing first text ms rest with
  | zero => cases read
  | succ fuel ih =>
    obtain ⟨⟨k?, after⟩, next, body⟩ := exists_of_bind read
    rcases nextName_took next with
      ⟨k, rfl, lead, name, tail, rfl, rfl, leads, named⟩ | ⟨rfl, gap, tail, rfl, blank, rfl⟩
    · obtain ⟨_, marked, body'⟩ := exists_of_bind body
      obtain ⟨_, tail, rfl, rfl, gap, rfl, blank⟩ := colon_took marked
      obtain ⟨⟨a, _⟩, here, body''⟩ := exists_of_bind body'
      obtain ⟨gap', piece, tail, rfl, blank', rfl, kind⟩ := sound here
      obtain ⟨⟨others, _⟩, later, last⟩ := exists_of_bind body''
      obtain ⟨cs, tail, rfl, rfl, inside⟩ := ih later
      cases last
      have member : Named StringText Piece (k, a) _ := .mk named blank blank' kind
      have nothing : ([] : List Char).all isGap = true := rfl
      exact ⟨_, tail, by simp, rfl, .item leads nothing member inside⟩
    · cases body
      exact ⟨gap ++ ['}'], tail, by simp, rfl, .close blank first⟩

/-! ## Lists of other kinds -/

theorem Tail.map {close : Char} {P : ι → List Char → Prop} {Q : κ → List Char → Prop} {f : ι → κ}
    (h : ∀ i cs, P i cs → Q (f i) cs) {is : List ι} {cs : List Char} (tail : Tail close P is cs) :
    Tail close Q (is.map f) cs := by
  induction tail with
  | close blank => exact .close blank
  | next blank blank' here _ ih => exact .next blank blank' (h _ _ here) ih

theorem Bracketed.map {opening close : Char} {P : ι → List Char → Prop}
    {Q : κ → List Char → Prop} {f : ι → κ} (h : ∀ i cs, P i cs → Q (f i) cs) {is : List ι}
    {cs : List Char} (listed : Bracketed opening close P is cs) :
    Bracketed opening close Q (is.map f) cs := by
  cases listed with
  | empty blank => exact .empty blank
  | items blank here more => exact .items blank (h _ _ here) (more.map h)

/-- What is listed may be described in another way. -/
theorem Bracketed.imp {opening close : Char} {P Q : ι → List Char → Prop}
    (h : ∀ i cs, P i cs → Q i cs) {is : List ι} {cs : List Char}
    (listed : Bracketed opening close P is cs) : Bracketed opening close Q is cs := by
  have mapped := listed.map (f := id) h
  rwa [List.map_id] at mapped

/-! ## Values -/

/-- A text of a value, by the grammar and by its meaning. -/
structure Denotes (v : Json) (cs : List Char) : Prop where
  means : Means v cs
  isValue : IsValue cs

theorem Denotes.array {items : List Json} {cs : List Char}
    (listed : Bracketed '[' ']' Denotes items cs) : Denotes (.array items) cs where
  means := .array (listed.imp fun _ _ denotes => denotes.means)
  isValue := .list (listed.map (f := fun _ => ()) fun _ _ denotes => denotes.isValue)

theorem Denotes.object {members : List (String × Json)} {cs : List Char}
    (listed : Bracketed '{' '}' (Named StringText Denotes) members cs) :
    Denotes (.ofMembers members) cs where
  means := by
    refine .object (listed.imp ?_)
    rintro _ _ ⟨named, blank, blank', here⟩
    exact ⟨named, blank, blank', here.means⟩
  isValue := by
    refine .object (listed.map (f := fun _ => ((), ())) ?_)
    rintro _ _ ⟨named, blank, blank', here⟩
    exact ⟨named.isString, blank, blank', here.isValue⟩

theorem IsUnsigned.head {cs : List Char} (unsigned : IsUnsigned cs) :
    ∃ d ds, cs = d :: ds ∧ d.isDigit = true := by
  obtain ⟨hw, hf, he⟩ := unsigned
  cases hw with
  | zero => exact ⟨_, _, rfl, by decide⟩
  | digits head all => exact ⟨_, _, rfl, all _ List.mem_cons_self⟩

/-- The reader of values is sound, if it is for what stands inside brackets. -/
theorem value_sound_of {room : Nat} (deeper : ∀ r, room = r + 1 → Sound (value r) Denotes) :
    Sound (value room) Denotes := by
  intro text v rest read
  obtain ⟨gap, tail, rfl, blank, skipped⟩ := skipBlanks_took text
  unfold value at read
  rw [skipped] at read
  -- what comes next decides which kind of value is read
  suffices body : ∃ cs more, tail = cs ++ more ∧ rest = runes more ∧ Denotes v cs by
    obtain ⟨cs, more, rfl, ends, denotes⟩ := body
    exact ⟨gap, cs, more, rfl, blank, ends, denotes⟩
  cases tail with
  | nil => cases read
  | cons c tail =>
    split at read
    case h_1 same => cases same
    case h_2 same | h_3 same | h_4 same =>
      cases same
      obtain ⟨_, letters, last⟩ := exists_of_bind read
      obtain ⟨_, more, rfl, rfl, rfl⟩ := literal_took letters
      cases last
      exact ⟨_ :: _, more, rfl, rfl, by constructor, .literal (by simp)⟩
    case h_5 same =>
      cases same
      obtain ⟨⟨n, _⟩, digits, last⟩ := exists_of_bind read
      obtain ⟨cs, more, rfl, rfl, unsigned, alone⟩ := number_alone false digits
      cases last
      have numeral : IsNumeral ('-' :: cs) := .negative unsigned
      refine ⟨'-' :: cs, more, rfl, rfl, .number numeral ?_, .number numeral⟩
      unfold value
      rw [runes_cons, skipBlanks_cons (by decide)]
      simp only [alone]
      rfl
    case h_6 same =>
      cases same
      obtain ⟨⟨s, _⟩, string, last⟩ := exists_of_bind read
      obtain ⟨body, more, rfl, rfl, kind⟩ := string_took string
      cases last
      exact ⟨'"' :: body, more, rfl, rfl, .string kind, .string kind.isString⟩
    case h_7 same =>
      cases same
      cases room with
      | zero => cases read
      | succ room =>
        obtain ⟨⟨vs, _⟩, listed, last⟩ := exists_of_bind read
        obtain ⟨cs, more, rfl, rfl, inside⟩ := items_took (deeper room rfl) listed
        cases last
        have denotes := Denotes.array inside
        exact ⟨'[' :: cs, more, rfl, rfl, denotes.means, denotes.isValue⟩
    case h_8 same =>
      cases same
      cases room with
      | zero => cases read
      | succ room =>
        obtain ⟨⟨ms, _⟩, listed, last⟩ := exists_of_bind read
        obtain ⟨cs, more, rfl, rfl, inside⟩ := members_took (deeper room rfl) listed
        cases last
        have denotes := Denotes.object inside
        exact ⟨'{' :: cs, more, rfl, rfl, denotes.means, denotes.isValue⟩
    case h_9 same =>
      cases same
      split_ifs at read with digit
      obtain ⟨⟨n, _⟩, digits, last⟩ := exists_of_bind read
      change Reader.number true (runes (c :: tail)) = _ at digits
      obtain ⟨cs, more, whole, rfl, unsigned, alone⟩ := number_alone true digits
      cases last
      have numeral : IsNumeral cs := .positive unsigned
      refine ⟨cs, more, whole, rfl, .number numeral ?_, .number numeral⟩
      obtain ⟨d, ds, rfl, first⟩ := unsigned.head
      rw [runes_cons] at alone ⊢
      rw [value_digit first, alone]
      rfl

/-- **What is read as a value is one**, by the grammar, and means the value that is read. -/
theorem value_sound (room : Nat) : Sound (value room) Denotes := by
  induction room with
  | zero => exact value_sound_of fun r none => by cases none
  | succ room ih =>
    refine value_sound_of fun r same => ?_
    cases same
    exact ih

/-! ## Values that are passed over -/

namespace Reader.Frame

/-- The bracket that opened. -/
def opening : Frame → Char
  | .list => '['
  | .object => '{'

/-- The bracket that will close. -/
def close : Frame → Char
  | .list => ']'
  | .object => '}'

/-- What stands inside. -/
def Piece : Frame → Unit → List Char → Prop
  | .list, _ => IsValue
  | .object, _ => Named (fun _ => IsString) (fun _ => IsValue) ((), ())

theorem isValue (frame : Frame) {is : List Unit} {cs : List Char}
    (listed : Bracketed frame.opening frame.close frame.Piece is cs) : IsValue cs := by
  cases frame with
  | list => exact .list listed
  | object =>
    exact .object (listed.map (P := Frame.object.Piece) (f := fun _ => ((), ()))
      fun _ _ here => here)

end Reader.Frame

/-- What the brackets that are open ask of the text behind a value. -/
inductive Closes : List Frame → List Char → Prop
  | nil : Closes [] []
  | cons {frame : Frame} {outer : List Frame} {is : List Unit} {tail cs : List Char}
      (here : Tail frame.close frame.Piece is tail) (others : Closes outer cs) :
    Closes (frame :: outer) (tail ++ cs)

/-- What they ask of it where the next item begins, if there is one. -/
def Resumes : List Frame → List Char → Prop
  | [], cs => cs = []
  | frame :: outer, cs => ∃ gap piece tail, cs = gap ++ (piece ++ tail) ∧ gap.all isGap = true ∧
      frame.Piece () piece ∧ Closes (frame :: outer) tail

/-- Brackets are closed up to the next item. -/
theorem skipCloses_took {frames frames' : List Frame}
    (read : skipCloses frames true (runes text) = .ok (frames', rest)) :
    ∃ cs more, text = cs ++ more ∧ rest = runes more ∧
      ∀ after, Resumes frames' after → Closes frames (cs ++ after) := by
  induction frames generalizing text with
  | nil =>
    cases read
    refine ⟨[], text, rfl, rfl, ?_⟩
    rintro _ rfl
    exact .nil
  | cons frame outer ih =>
    obtain ⟨gap, tail, rfl, blank, skipped⟩ := skipBlanks_took text
    unfold skipCloses at read
    rw [skipped] at read
    cases tail with
    | nil => cases read
    | cons c tail =>
      simp only [runes_cons, true_and] at read
      split_ifs at read with comma closing
      · cases comma
        cases read
        refine ⟨gap ++ [','], tail, by simp, rfl, ?_⟩
        rintro _ ⟨gap', piece, _, rfl, blank', here, closes⟩
        cases closes with
        | cons more others =>
          have closes := Closes.cons (.next blank blank' here more) others
          simpa using closes
      · obtain ⟨cs, more, rfl, rfl, resumes⟩ := ih read
        have same : c = frame.close := by
          cases frame <;> exact Rune.char.inj closing
        subst same
        refine ⟨gap ++ [frame.close] ++ cs, more, by simp, rfl, ?_⟩
        intro after resumed
        rw [List.append_assoc]
        exact .cons (.close blank) (resumes after resumed)

/-- A bracket that has been opened is closed at once, or its first item begins. -/
theorem skipCloses_opened {frame : Frame} {frames frames' : List Frame}
    (read : skipCloses (frame :: frames) false (runes text) = .ok (frames', rest)) :
    (frames' = frame :: frames ∧ Took (fun gap => gap.all isGap = true) text rest) ∨
      ∃ gap after, text = gap ++ frame.close :: after ∧ gap.all isGap = true ∧
        skipCloses frames true (runes after) = .ok (frames', rest) := by
  obtain ⟨gap, tail, rfl, blank, skipped⟩ := skipBlanks_took text
  unfold skipCloses at read
  rw [skipped] at read
  cases tail with
  | nil => cases read
  | cons c tail =>
    simp only [runes_cons, Bool.false_eq_true, false_and, if_false] at read
    split_ifs at read with closing
    · have same : c = frame.close := by
        cases frame <;> exact Rune.char.inj closing
      subst same
      exact .inr ⟨gap, tail, rfl, blank, read⟩
    · cases read
      exact .inl ⟨rfl, gap, c :: tail, rfl, rfl, blank⟩

/-- The text of a scalar, or the bracket that has been opened. -/
def Begun : Option Frame → List Char → Prop
  | none, cs => IsValue cs
  | some frame, cs => cs = [frame.opening]

theorem skipScalar_took {opened : Option Frame}
    (read : skipScalar (runes text) = .ok (opened, rest)) :
    ∃ gap cs more, text = gap ++ (cs ++ more) ∧ gap.all isGap = true ∧ rest = runes more ∧
      Begun opened cs := by
  obtain ⟨gap, tail, rfl, blank, skipped⟩ := skipBlanks_took text
  unfold skipScalar at read
  rw [skipped] at read
  suffices body : ∃ cs more, tail = cs ++ more ∧ rest = runes more ∧ Begun opened cs by
    obtain ⟨cs, more, rfl, ends, kind⟩ := body
    exact ⟨gap, cs, more, rfl, blank, ends, kind⟩
  cases tail with
  | nil => cases read
  | cons c tail =>
    split at read
    case h_1 same => cases same
    case h_2 same | h_3 same | h_4 same =>
      cases same
      obtain ⟨_, letters, last⟩ := exists_of_bind read
      obtain ⟨_, more, rfl, rfl, rfl⟩ := literal_took letters
      cases last
      exact ⟨_ :: _, more, rfl, rfl, .literal (by simp)⟩
    case h_5 same =>
      cases same
      obtain ⟨_, digits, last⟩ := exists_of_bind read
      obtain ⟨cs, more, rfl, rfl, unsigned⟩ := skipNumber_took digits
      cases last
      exact ⟨'-' :: cs, more, rfl, rfl, .number (.negative unsigned)⟩
    case h_6 same =>
      cases same
      obtain ⟨_, string, last⟩ := exists_of_bind read
      obtain ⟨body, more, rfl, rfl, kind⟩ := skipString_took string
      cases last
      exact ⟨'"' :: body, more, rfl, rfl, .string kind⟩
    case h_7 same =>
      cases same
      cases read
      exact ⟨['['], tail, rfl, rfl, rfl⟩
    case h_8 same =>
      cases same
      cases read
      exact ⟨['{'], tail, rfl, rfl, rfl⟩
    case h_9 same =>
      cases same
      split_ifs at read
      obtain ⟨_, digits, last⟩ := exists_of_bind read
      change skipNumber (runes (c :: tail)) = _ at digits
      obtain ⟨cs, more, whole, rfl, unsigned⟩ := skipNumber_took digits
      cases last
      exact ⟨cs, more, whole, rfl, .number (.positive unsigned)⟩

theorem skipName_took (read : skipName (runes text) = .ok rest) :
    ∃ gap name gap' more, text = gap ++ (name ++ (gap' ++ ':' :: more)) ∧ gap.all isGap = true ∧
      gap'.all isGap = true ∧ rest = runes more ∧ IsString name := by
  obtain ⟨gap, tail, rfl, blank, skipped⟩ := skipBlanks_took text
  unfold skipName at read
  rw [skipped] at read
  split at read
  · rename_i same
    cases tail with
    | nil => cases same
    | cons c tail =>
      cases same
      obtain ⟨_, string, marked⟩ := exists_of_bind read
      obtain ⟨body, _, rfl, rfl, kind⟩ := skipString_took string
      obtain ⟨_, more, rfl, rfl, gap', rfl, blank'⟩ := colon_took marked
      exact ⟨gap, '"' :: body, gap', more, by simp, blank, blank', rfl, kind⟩
  · cases read
  · cases read

/-- What is passed over behind a value, or behind an opening bracket. -/
def goOn (fuel : Nat) : List Frame → Rest → Except Fault Rest
  | [], rest => .ok rest
  | .list :: outer, rest => skipOpen fuel (.list :: outer) rest
  | .object :: outer, rest => do skipOpen fuel (.object :: outer) (← skipName rest)

/-- What is passed over behind a scalar, or behind a bracket that has been opened. -/
def goOnBehind (fuel : Nat) (frames : List Frame) : Option Frame → Rest → Except Fault Rest
  | none, rest => do
    let (frames, rest) ← skipCloses frames true rest
    goOn fuel frames rest
  | some frame, rest => do
    let (frames, rest) ← skipCloses (frame :: frames) false rest
    goOn fuel frames rest

theorem skipOpen_succ (fuel : Nat) (frames : List Frame) (s : Rest) :
    skipOpen (fuel + 1) frames s =
      (skipScalar s >>= fun r => goOnBehind fuel frames r.1 r.2) := by
  rw [skipOpen]
  refine congrArg (skipScalar s >>= ·) (funext ?_)
  rintro ⟨opened, rest⟩
  cases opened with
  | none =>
    refine congrArg (skipCloses frames true rest >>= ·) (funext ?_)
    rintro ⟨_ | ⟨_ | _, outer⟩, rest⟩ <;> rfl
  | some frame =>
    refine congrArg (skipCloses (frame :: frames) false rest >>= ·) (funext ?_)
    rintro ⟨_ | ⟨_ | _, outer⟩, rest⟩ <;> rfl

/-- **What is passed over** behind blanks is a value, and then what the open brackets ask for. -/
theorem skipOpen_took {fuel : Nat} {frames : List Frame}
    (read : skipOpen fuel frames (runes text) = .ok rest) :
    ∃ gap cs after more, text = gap ++ (cs ++ (after ++ more)) ∧ gap.all isGap = true ∧
      rest = runes more ∧ IsValue cs ∧ Closes frames after := by
  induction fuel generalizing frames text with
  | zero => cases read
  | succ fuel ih =>
    -- the next item and what follows it, by the induction hypothesis
    have resumes {frames : List Frame} {text : List Char}
        (read : goOn fuel frames (runes text) = .ok rest) : Took (Resumes frames) text rest := by
      match frames with
      | [] =>
        cases read
        exact ⟨[], text, rfl, rfl, rfl⟩
      | .list :: outer =>
        obtain ⟨gap, cs, after, more, rfl, blank, ends, kind, closes⟩ := ih read
        exact ⟨gap ++ (cs ++ after), more, by simp, ends, gap, cs, after, rfl, blank, kind, closes⟩
      | .object :: outer =>
        obtain ⟨_, named, read'⟩ := exists_of_bind read
        obtain ⟨gap, name, gap', tail, rfl, blank, blank', rfl, string⟩ := skipName_took named
        obtain ⟨gap'', cs, after, more, rfl, blank'', ends, kind, closes⟩ := ih read'
        have member : Named (fun _ => IsString) (fun _ => IsValue) ((), ()) _ :=
          .mk string blank' blank'' kind
        exact ⟨_, more, by simp, ends, gap, _, after, rfl, blank, member, closes⟩
    have behind {frames frames' : List Frame} {text : List Char} {middle : Rest}
        (closed : skipCloses frames true (runes text) = .ok (frames', middle))
        (read : goOn fuel frames' middle = .ok rest) : Took (Closes frames) text rest := by
      obtain ⟨cs, tail, rfl, rfl, closes⟩ := skipCloses_took closed
      obtain ⟨after, more, rfl, ends, resumed⟩ := resumes read
      exact ⟨cs ++ after, more, by simp, ends, closes after resumed⟩
    rw [skipOpen_succ] at read
    obtain ⟨⟨opened, _⟩, begun, read'⟩ := exists_of_bind read
    obtain ⟨gap, cs, tail, rfl, blank, rfl, kind⟩ := skipScalar_took begun
    cases opened with
    | none =>
      obtain ⟨⟨frames', middle⟩, closed, last⟩ := exists_of_bind read'
      obtain ⟨after, more, rfl, ends, closes⟩ := behind closed last
      exact ⟨gap, cs, after, more, rfl, blank, ends, kind, closes⟩
    | some frame =>
      obtain rfl : cs = [frame.opening] := kind
      obtain ⟨⟨frames', middle⟩, closed, last⟩ := exists_of_bind read'
      rcases skipCloses_opened closed with ⟨rfl, inner, tail, rfl, rfl, blank'⟩ |
        ⟨inner, tail, rfl, blank', closed'⟩
      · obtain ⟨_, more, rfl, ends, gap', piece, _, rfl, blank'', here, closes⟩ := resumes last
        cases closes with
        | @cons _ _ _ inside after listed closes =>
          have blanks : (inner ++ gap').all isGap = true := by
            rw [List.all_append, blank', blank'', Bool.and_self]
          refine ⟨gap, _, after, more, ?_, blank, ends, frame.isValue (.items blanks here listed),
            closes⟩
          simp
      · obtain ⟨after, more, rfl, ends, closes⟩ := behind closed' last
        refine ⟨gap, _, after, more, ?_, blank, ends, frame.isValue (.empty blank'), closes⟩
        simp

/-- **What is passed over is a value.** -/
theorem skipValue_sound (read : skipValue (runes text) = .ok rest) :
    ∃ gap cs more, text = gap ++ (cs ++ more) ∧ gap.all isGap = true ∧ rest = runes more ∧
      IsValue cs := by
  obtain ⟨gap, cs, _, more, rfl, blank, ends, kind, closes⟩ := skipOpen_took read
  cases closes
  exact ⟨gap, cs, more, rfl, blank, ends, kind⟩

end TriageDesk.Json
