/-
TriageDesk.Proofs.Json.Occurrences — where a word stands in a written value.

Text is searched for a mark without being read first. A mark that begins with
a backtick can stand in the text of a value only inside a string, for nothing
else is written with a backtick, and it stands there exactly when it stands in
the string itself, for none of its characters is escaped (`isInfix_writeWith`).
-/
import TriageDesk.Proofs.Json.Tokens
import TriageDesk.Proofs.Text.Search

namespace TriageDesk.Json

open Text

/-! ## Words in strings -/

/-- Whether a word stands in one of some texts. -/
def Holds (word : List Char) (texts : List String) : Prop := ∃ s ∈ texts, word <:+: s.toList

@[simp] theorem holds_nil (word : List Char) : ¬ Holds word [] := by simp [Holds]

@[simp] theorem holds_cons (word : List Char) (s : String) (texts : List String) :
    Holds word (s :: texts) ↔ word <:+: s.toList ∨ Holds word texts := by simp [Holds]

@[simp] theorem holds_append (word : List Char) (texts more : List String) :
    Holds word (texts ++ more) ↔ Holds word texts ∨ Holds word more := by
  simp only [Holds, List.mem_append, or_and_right, exists_or]

/-- A character that is written in a string as it is. -/
def Plain (c : Char) : Prop := c ≠ '"' ∧ c ≠ '\\' ∧ ¬ c.toNat < 0x20

instance : DecidablePred Plain := fun _ => inferInstanceAs (Decidable (_ ∧ _ ∧ _))

/-- Characters are plain if a check of each says so. -/
theorem plain_of_all {cs : List Char} (all : cs.all (fun c => decide (Plain c)) = true) :
    ∀ c ∈ cs, Plain c := fun c among => of_decide_eq_true (List.all_eq_true.mp all c among)

theorem plain_texts_of_all {texts : List String}
    (all : texts.all (fun s => s.toList.all fun c => decide (Plain c)) = true) :
    ∀ s ∈ texts, ∀ c ∈ s.toList, Plain c := fun s among =>
  plain_of_all (List.all_eq_true.mp all s among)

theorem escapeChar_plain {c : Char} (plain : Plain c) : escapeChar c = [c] := by
  obtain ⟨quote, backslash, printable⟩ := plain
  -- the characters with short escapes are control characters
  have short : ∀ d : Char, d.toNat < 0x20 → c ≠ d := fun d control same => printable (same ▸ control)
  unfold escapeChar
  rw [if_neg quote, if_neg backslash, if_neg (short _ (by decide)), if_neg (short _ (by decide)),
    if_neg (short _ (by decide)), if_neg (short _ (by decide)), if_neg (short _ (by decide)),
    if_neg printable]

/-- A character that is not written as it is becomes a backslash and a code, without a
backtick. -/
theorem escapeChar_coded {c : Char} (coded : ¬ Plain c) :
    ∃ code, escapeChar c = '\\' :: code ∧ '`' ∉ code := by
  have digit : ∀ n < 16, Nat.digitChar n ≠ '`' := by decide
  unfold escapeChar
  split_ifs with quote backslash backspace formFeed lineFeed carriageReturn tab control
  case neg => exact absurd ⟨quote, backslash, control⟩ coded
  all_goals
    first
    | exact ⟨_, rfl, by decide⟩
    | exact ⟨_, rfl, by
        simp [(digit (c.toNat / 16) (by omega)).symm, (digit (c.toNat % 16) (by omega)).symm]⟩

variable {word : List Char}

/-- A string begins with a plain word exactly when its text does. -/
theorem isPrefix_escaped (plain : ∀ c ∈ word, Plain c) (cs : List Char) :
    word <+: cs.flatMap escapeChar ↔ word <+: cs := by
  induction cs generalizing word with
  | nil => rfl
  | cons c cs ih =>
    cases word with
    | nil => simp
    | cons w word =>
      have first : Plain w := plain w List.mem_cons_self
      rw [List.flatMap_cons, List.cons_prefix_cons]
      by_cases here : Plain c
      · rw [escapeChar_plain here, List.singleton_append, List.cons_prefix_cons,
          ih fun d h => plain d (List.mem_cons_of_mem _ h)]
      · obtain ⟨code, coded, _⟩ := escapeChar_coded here
        rw [coded, List.cons_append, List.cons_prefix_cons]
        exact iff_of_false (fun h => first.2.1 h.1) (fun h => here (h.1 ▸ first))

/-- A plain word with a backtick before it stands in a string exactly when it stands in its
text. -/
theorem isInfix_escaped (plain : ∀ c ∈ word, Plain c) (cs : List Char) :
    ('`' :: word) <:+: cs.flatMap escapeChar ↔ ('`' :: word) <:+: cs := by
  have marked : ∀ c ∈ '`' :: word, Plain c := by
    simpa using ⟨(by decide : Plain '`'), plain⟩
  induction cs with
  | nil => rfl
  | cons c cs ih =>
    by_cases here : Plain c
    · have front := isPrefix_escaped marked (c :: cs)
      rw [List.flatMap_cons, escapeChar_plain here, List.singleton_append] at front ⊢
      rw [List.infix_cons_iff, List.infix_cons_iff]
      exact or_congr front ih
    · obtain ⟨code, coded, foreign⟩ := escapeChar_coded here
      have other : '`' ≠ c := fun same => here (same ▸ by decide)
      rw [List.flatMap_cons, coded, isInfix_append_of_notMem (by simpa using foreign),
        List.infix_cons_iff, List.cons_prefix_cons]
      simpa [other] using ih

theorem isInfix_writeString (plain : ∀ c ∈ word, Plain c) (s : String) (rest : List Char) :
    ('`' :: word) <:+: writeString s ++ rest ↔
      ('`' :: word) <:+: s.toList ∨ ('`' :: word) <:+: rest := by
  have noQuote : '"' ∉ '`' :: word := by
    rw [List.mem_cons, not_or]
    exact ⟨by decide, fun among => (plain _ among).1 rfl⟩
  have text : writeString s ++ rest =
      ['"'] ++ (s.toList.flatMap escapeChar ++ '"' :: rest) := by simp [writeString]
  rw [text, isInfix_append_of_notMem (by decide), isInfix_append_cons noQuote,
    isInfix_escaped plain]

/-! ## Words in values -/

theorem backtick_notMem_frame {cs : List Char} (frame : ∀ c ∈ cs, isFrame c = true) : '`' ∉ cs :=
  fun among => absurd (frame _ among) (by decide)

/-- A mark stands in the text of tokens exactly when it stands in one of their strings. -/
theorem isInfix_writeTokens (plain : ∀ c ∈ word, Plain c) {ts : List Token}
    (inert : ∀ t ∈ ts, t.Inert) :
    ('`' :: word) <:+: writeTokens ts ↔ Holds ('`' :: word) (ts.flatMap Token.strings) := by
  induction ts with
  | nil => simp
  | cons t ts ih =>
    have rest := ih fun u h => inert u (List.mem_cons_of_mem _ h)
    have here := inert t List.mem_cons_self
    rw [writeTokens_cons, List.flatMap_cons, holds_append, ← rest]
    cases t with
    | piece cs =>
      have foreign : '`' ∉ cs := by
        rcases here with frame | rfl
        · exact backtick_notMem_frame frame
        · decide
      rw [Token.write, isInfix_append_of_notMem foreign]
      simp [Token.strings]
    | quoted s =>
      rw [Token.write, isInfix_writeString plain]
      simp [Token.strings]
    | opening gap name =>
      have foreign : '`' ∉ '{' :: gap := by simp [backtick_notMem_frame here]
      rw [Token.write, ← List.cons_append, List.append_assoc, isInfix_append_of_notMem foreign,
        isInfix_writeString plain]
      simp [Token.strings]

/-- **A mark stands where its string has it.** A plain word with a backtick before it stands in
the text of a value exactly when it stands in one of its strings or names. -/
theorem isInfix_writeWith (plain : ∀ c ∈ word, Plain c) (g : Gaps) (level : Nat) {room : Nat}
    {v : Json} (fits : Fits room v) :
    ('`' :: word) <:+: writeWith g level v ↔ Holds ('`' :: word) v.strings := by
  rw [writeWith_eq_tokens, isInfix_writeTokens plain (inert_tokens g fits level), strings_tokens]

end TriageDesk.Json
