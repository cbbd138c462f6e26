/-
TriageDesk.Proofs.Json.Tokens — the pieces of a written value.

The text of a value is its strings and names, each in quotes, with pieces between
them that hold no text of their own (`writeWith_eq_tokens`). What searching or
replacing does to the text of a value is proved by going through its tokens.
-/
import TriageDesk.Proofs.Json.Reading

namespace TriageDesk.Json

/-! ## Tokens -/

/-- A part of the text of a value. -/
inductive Token
  /-- Brackets, separators, blanks, or a value without a string. -/
  | piece (cs : List Char)
  /-- A string, or a name after the first one. -/
  | quoted (s : String)
  /-- An opening brace, blanks, and the first name. -/
  | opening (gap : List Char) (name : String)

/-- The text of a token. -/
def Token.write : Token → List Char
  | .piece cs => cs
  | .quoted s => writeString s
  | .opening gap name => '{' :: (gap ++ writeString name)

/-- The strings in a token. -/
def Token.strings : Token → List String
  | .piece _ => []
  | .quoted s => [s]
  | .opening _ name => [name]

/-- A token with its string changed. -/
def Token.map (f : String → String) : Token → Token
  | .piece cs => .piece cs
  | .quoted s => .quoted (f s)
  | .opening gap name => .opening gap (f name)

/-- The text of tokens. -/
def writeTokens (ts : List Token) : List Char := ts.flatMap Token.write

@[simp] theorem writeTokens_nil : writeTokens [] = [] := rfl

@[simp] theorem writeTokens_cons (t : Token) (ts : List Token) :
    writeTokens (t :: ts) = t.write ++ writeTokens ts := List.flatMap_cons

@[simp] theorem writeTokens_append (ts us : List Token) :
    writeTokens (ts ++ us) = writeTokens ts ++ writeTokens us := List.flatMap_append

mutual

/-- The tokens of a value. -/
def tokens (g : Gaps) (level : Nat) : Json → List Token
  | .array [] => [.piece ['[', ']']]
  | .array (v :: rest) =>
    .piece ('[' :: g.first level) :: (tokens g (level + 1) v ++ tokensOfItems g level rest)
  | .object [] => [.piece ['{', '}']]
  | .object ((k, v) :: rest) =>
    .opening (g.first level) k :: .piece (':' :: g.colon) ::
      (tokens g (level + 1) v ++ tokensOfMembers g level rest)
  | .string s => [.quoted s]
  | v => [.piece (writeCompact v)]

/-- The tokens of the items after the first one. -/
def tokensOfItems (g : Gaps) (level : Nat) : List Json → List Token
  | [] => [.piece (g.last level ++ [']'])]
  | v :: rest =>
    .piece (',' :: g.next level) :: (tokens g (level + 1) v ++ tokensOfItems g level rest)

/-- The tokens of the members after the first one. -/
def tokensOfMembers (g : Gaps) (level : Nat) : List (String × Json) → List Token
  | [] => [.piece (g.last level ++ ['}'])]
  | (k, v) :: rest =>
    .piece (',' :: g.next level) :: .quoted k :: .piece (':' :: g.colon) ::
      (tokens g (level + 1) v ++ tokensOfMembers g level rest)

end

mutual

/-- **The text of a value is the text of its tokens.** -/
theorem writeWith_eq_tokens (g : Gaps) (level : Nat) : ∀ v,
    writeWith g level v = writeTokens (tokens g level v)
  | .null | .bool _ | .number _ | .string _ => (List.append_nil _).symm
  | .array [] | .object [] => by simp [writeWith, tokens, Token.write]
  | .array (v :: rest) => by
    simp [writeWith, tokens, Token.write, writeWith_eq_tokens g (level + 1) v,
      writeMoreItems_eq_tokens g level rest]
  | .object ((k, v) :: rest) => by
    simp [writeWith, tokens, Token.write, writeWith_eq_tokens g (level + 1) v,
      writeMoreMembers_eq_tokens g level rest]

theorem writeMoreItems_eq_tokens (g : Gaps) (level : Nat) : ∀ vs,
    writeMoreItems g level vs = writeTokens (tokensOfItems g level vs)
  | [] => by simp [writeMoreItems, tokensOfItems, Token.write]
  | v :: rest => by
    simp [writeMoreItems, tokensOfItems, Token.write, writeWith_eq_tokens g (level + 1) v,
      writeMoreItems_eq_tokens g level rest]

theorem writeMoreMembers_eq_tokens (g : Gaps) (level : Nat) : ∀ ms,
    writeMoreMembers g level ms = writeTokens (tokensOfMembers g level ms)
  | [] => by simp [writeMoreMembers, tokensOfMembers, Token.write]
  | (k, v) :: rest => by
    simp [writeMoreMembers, tokensOfMembers, Token.write, writeWith_eq_tokens g (level + 1) v,
      writeMoreMembers_eq_tokens g level rest]

end

/-! ## The strings of a value -/

mutual

/-- The strings of a value, and the names of its members. -/
def strings : Json → List String
  | .string s => [s]
  | .array items => stringsOfItems items
  | .object members => stringsOfMembers members
  | _ => []

/-- The strings of items. -/
def stringsOfItems : List Json → List String
  | [] => []
  | v :: rest => strings v ++ stringsOfItems rest

/-- The names of members, and the strings of their values. -/
def stringsOfMembers : List (String × Json) → List String
  | [] => []
  | (k, v) :: rest => k :: (strings v ++ stringsOfMembers rest)

end

mutual

/-- The strings of a value are those of its tokens. -/
theorem strings_tokens (g : Gaps) (level : Nat) : ∀ v,
    (tokens g level v).flatMap Token.strings = v.strings
  | .null | .bool _ | .number _ | .string _ => by simp [strings, tokens, Token.strings]
  | .array [] | .object [] => by
    simp [strings, stringsOfItems, stringsOfMembers, tokens, Token.strings]
  | .array (v :: rest) => by
    simp [strings, stringsOfItems, tokens, Token.strings, strings_tokens g (level + 1) v,
      strings_tokensOfItems g level rest]
  | .object ((k, v) :: rest) => by
    simp [strings, stringsOfMembers, tokens, Token.strings, strings_tokens g (level + 1) v,
      strings_tokensOfMembers g level rest]

theorem strings_tokensOfItems (g : Gaps) (level : Nat) : ∀ vs,
    (tokensOfItems g level vs).flatMap Token.strings = stringsOfItems vs
  | [] => by simp [stringsOfItems, tokensOfItems, Token.strings]
  | v :: rest => by
    simp [stringsOfItems, tokensOfItems, Token.strings, strings_tokens g (level + 1) v,
      strings_tokensOfItems g level rest]

theorem strings_tokensOfMembers (g : Gaps) (level : Nat) : ∀ ms,
    (tokensOfMembers g level ms).flatMap Token.strings = stringsOfMembers ms
  | [] => by simp [stringsOfMembers, tokensOfMembers, Token.strings]
  | (k, v) :: rest => by
    simp [stringsOfMembers, tokensOfMembers, Token.strings, strings_tokens g (level + 1) v,
      strings_tokensOfMembers g level rest]

end

/-! ## What stands between strings -/

/-- A character that may stand between the strings of a value. -/
def isFrame (c : Char) : Bool := isGap c || "[]\x7d,:-".toList.contains c || c.isAlphanum

theorem isFrame_of_gap {gap : List Char} (blank : gap.all isGap = true) :
    ∀ c ∈ gap, isFrame c = true := fun c among => by
  rw [isFrame, List.all_eq_true.mp blank c among]
  rfl

/-- A token whose pieces hold no text of their own; a brace opens only before a name or the
brace that closes it. -/
def Token.Inert : Token → Prop
  | .piece cs => (∀ c ∈ cs, isFrame c = true) ∨ cs = ['{', '}']
  | .quoted _ => True
  | .opening gap _ => ∀ c ∈ gap, isFrame c = true

theorem inert_gap {c : Char} {gap : List Char} (frame : isFrame c = true)
    (blank : gap.all isGap = true) : (Token.piece (c :: gap)).Inert := by
  refine .inl fun d among => ?_
  rcases List.mem_cons.mp among with rfl | among
  · exact frame
  · exact isFrame_of_gap blank d among

theorem inert_close {c : Char} {gap : List Char} (frame : isFrame c = true)
    (blank : gap.all isGap = true) : (Token.piece (gap ++ [c])).Inert := by
  refine .inl fun d among => ?_
  rcases List.mem_append.mp among with among | among
  · exact isFrame_of_gap blank d among
  · exact List.mem_singleton.mp among ▸ frame

theorem isFrame_int (n : Int) : ∀ c ∈ (toString n).toList, isFrame c = true := by
  have digits (k : Nat) : ∀ c ∈ Nat.toDigits 10 k, isFrame c = true := by
    intro c among
    have digit := Nat.isDigit_of_mem_toDigits (by decide) (by decide) among
    simp [isFrame, Char.isAlphanum, digit]
  cases n with
  | negSucc k =>
    rw [toString_neg]
    intro c among
    rcases List.mem_cons.mp among with rfl | among
    · decide
    · exact digits _ c among
  | ofNat k =>
    rw [Int.ofNat_eq_natCast, toString_nat]
    exact digits k

theorem inert_items (g : Gaps) (level : Nat) {vs : List Json}
    (inert : ∀ v ∈ vs, ∀ t ∈ tokens g (level + 1) v, t.Inert) :
    ∀ t ∈ tokensOfItems g level vs, t.Inert := by
  induction vs with
  | nil =>
    intro t among
    obtain rfl := List.mem_singleton.mp among
    exact inert_close (by decide) (g.last_blank level)
  | cons v vs ih =>
    have rest := ih fun w h => inert w (List.mem_cons_of_mem _ h)
    simp only [tokensOfItems, List.mem_cons, List.mem_append]
    rintro t (rfl | among | among)
    · exact inert_gap (by decide) (g.next_blank level)
    · exact inert v List.mem_cons_self t among
    · exact rest t among

theorem inert_members (g : Gaps) (level : Nat) {ms : List (String × Json)}
    (inert : ∀ e ∈ ms, ∀ t ∈ tokens g (level + 1) e.2, t.Inert) :
    ∀ t ∈ tokensOfMembers g level ms, t.Inert := by
  induction ms with
  | nil =>
    intro t among
    obtain rfl := List.mem_singleton.mp among
    exact inert_close (by decide) (g.last_blank level)
  | cons e ms ih =>
    obtain ⟨k, v⟩ := e
    have rest := ih fun w h => inert w (List.mem_cons_of_mem _ h)
    simp only [tokensOfMembers, List.mem_cons, List.mem_append]
    rintro t (rfl | rfl | rfl | among | among)
    · exact inert_gap (by decide) (g.next_blank level)
    · trivial
    · exact inert_gap (by decide) g.colon_blank
    · exact inert (k, v) List.mem_cons_self t among
    · exact rest t among

/-- What stands between the strings of a value that fits holds no text of its own. -/
theorem inert_tokens (g : Gaps) {room : Nat} {v : Json} (fits : Fits room v) :
    ∀ level, ∀ t ∈ tokens g level v, t.Inert := by
  induction fits with
  | null =>
    intro level t among
    obtain rfl := List.mem_singleton.mp among
    exact .inl (List.all_eq_true.mp (by decide))
  | bool b =>
    intro level t among
    obtain rfl := List.mem_singleton.mp among
    exact .inl (List.all_eq_true.mp (by cases b <;> decide))
  | @int room n low high =>
    intro level t among
    obtain rfl := List.mem_singleton.mp among
    exact .inl (isFrame_int n)
  | string s =>
    intro level t among
    obtain rfl := List.mem_singleton.mp among
    trivial
  | @array room items fit ih =>
    intro level
    cases items with
    | nil =>
      intro t among
      obtain rfl := List.mem_singleton.mp among
      exact .inl (List.all_eq_true.mp (by decide))
    | cons v vs =>
      have rest := inert_items g level fun w h => ih w (List.mem_cons_of_mem _ h) (level + 1)
      simp only [tokens, List.mem_cons, List.mem_append]
      rintro t (rfl | among | among)
      · exact inert_gap (by decide) (g.first_blank level)
      · exact ih v List.mem_cons_self (level + 1) t among
      · exact rest t among
  | @object room members fit ih =>
    intro level
    cases members with
    | nil =>
      intro t among
      obtain rfl := List.mem_singleton.mp among
      exact .inr rfl
    | cons e ms =>
      obtain ⟨k, v⟩ := e
      have rest := inert_members g level fun w h => ih w (List.mem_cons_of_mem _ h) (level + 1)
      simp only [tokens, List.mem_cons, List.mem_append]
      rintro t (rfl | rfl | among | among)
      · exact isFrame_of_gap (g.first_blank level)
      · exact inert_gap (by decide) g.colon_blank
      · exact ih (k, v) List.mem_cons_self (level + 1) t among
      · exact rest t among

end TriageDesk.Json
