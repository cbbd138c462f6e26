/-
TriageDesk.Proofs.Json.Records — the texts from which a record is read.

A record is read from an object or from a list (`record_sound`). `ObjectText` is
the text of an object with its members, each a name and the text of a value, in
the order in which they are written and as often as they are; `Fills` tells how a
record is filled from them: a member whose name is no field is passed over, and
each field is filled once, by what its own text means (`Fills.field`). `ListText`
and `FillsInOrder` say the same of lists, whose items are the fields in order.
-/
import TriageDesk.Proofs.Json.Decoding
import TriageDesk.Proofs.Json.Soundness

namespace TriageDesk.Json

open Text Reader Decoder

variable {α β : Type} {text : List Char} {rest : Rest}

/-- The text of an object with given members: the names, and the texts of the values. -/
def ObjectText (members : List (String × List Char)) (text : List Char) : Prop :=
  Bracketed '{' '}' (Named StringText fun t cs => cs = t ∧ IsValue t) members text

/-- The text of a list with given items, as they are written. -/
def ListText (items : List (List Char)) (text : List Char) : Prop :=
  Bracketed '[' ']' (fun t cs => cs = t ∧ IsValue t) items text

/-! ## Sound decoders -/

theorem Sound.imp {read : Reading α} {P Q : α → List Char → Prop} (h : ∀ a cs, P a cs → Q a cs)
    (sound : Sound read P) : Sound read Q := by
  intro text a rest here
  obtain ⟨gap, cs, more, same, blank, ends, kind⟩ := sound here
  exact ⟨gap, cs, more, same, blank, ends, h a cs kind⟩

/-- A whole text is what a sound decoder takes for a datum, and blanks around it. -/
theorem Sound.ofText {d : Decoder α} {Piece : α → List Char → Prop} {a : α}
    (sound : Sound (d.read maxDepth) Piece) (decoded : d.ofText (String.ofList text) = .ok a) :
    ∃ gap cs gap', text = gap ++ (cs ++ gap') ∧ gap.all isGap = true ∧ gap'.all isGap = true ∧
      Piece a cs := by
  rw [Decoder.ofText, ofText_runes, ofRunesWithMessage_eq_ok_iff, ofRunes_eq_ok_iff] at decoded
  obtain ⟨rest, read, ends⟩ := decoded
  obtain ⟨gap, cs, more, rfl, blank, rfl, kind⟩ := sound read
  obtain ⟨gap', tail, rfl, blank', skipped⟩ := skipBlanks_took more
  cases tail with
  | nil => exact ⟨gap, cs, gap', by simp, blank, blank', kind⟩
  | cons c tail =>
    rw [skipped] at ends
    cases ends

theorem any_sound (room : Nat) : Sound (any.read room) Denotes := value_sound room

theorem textAs_sound (expected : String) (room : Nat) :
    Sound ((textAs expected).read room) fun s => Denotes (.string s) := by
  intro text s rest read
  obtain ⟨gap, tail, rfl, blank, skipped⟩ := skipBlanks_took text
  unfold textAs at read
  simp only [skipped] at read
  split at read
  · rename_i same
    cases tail with
    | nil => cases same
    | cons c tail =>
      cases same
      obtain ⟨body, more, rfl, rfl, kind⟩ := string_took read
      exact ⟨gap, '"' :: body, more, rfl, blank, rfl, .string kind, .string kind.isString⟩
  · cases read

/-- A field is set to what its text means. -/
theorem map_sound {d : Decoder β} {room : Nat} {Piece : β → List Char → Prop}
    (sound : Sound (d.read room) Piece) (set : β → α → α) :
    Sound ((d.map set).read room) fun change t => ∃ b, change = set b ∧ Piece b t := by
  intro text change rest read
  obtain ⟨⟨b, _⟩, here, last⟩ := exists_of_bind read
  obtain ⟨gap, cs, more, rfl, blank, rfl, kind⟩ := sound here
  cases last
  exact ⟨gap, cs, more, rfl, blank, rfl, b, rfl, kind⟩

/-! ## Objects -/

/-- A record with some members that fill it, where `P` says by what the field of a name is changed
in which way: by the text of a value, or by the value itself. -/
inductive Fills {γ : Type} (fields : List (Decoder.Field α)) (P : String → (α → α) → γ → Prop) :
    Progress α → List (String × γ) → Progress α → Prop
  | nothing (p : Progress α) : Fills fields P p [] p
  | unknown {p q : Progress α} {k : String} {t : γ} {members : List (String × γ)}
      (other : fields.find? (·.name = k) = none) (more : Fills fields P p members q) :
    Fills fields P p ((k, t) :: members) q
  | known {p q : Progress α} {k : String} {t : γ} {members : List (String × γ)}
      {change : α → α} (fresh : k ∉ p.seen) (here : P k change t)
      (more : Fills fields P ⟨change p.record, k :: p.seen⟩ members q) :
    Fills fields P p ((k, t) :: members) q

variable {fields : List (Decoder.Field α)} {P : String → (α → α) → List Char → Prop}

theorem readMembers_took {room fuel : Nat}
    (sound : ∀ f ∈ fields, Sound (f.change.read room) (P f.name))
    (values : ∀ k change t, P k change t → IsValue t) {first : Bool} {p : Progress α} {record : α}
    (read : readMembers fields room fuel first p (runes text) = .ok (.ok record, rest)) :
    ∃ members q cs more, text = cs ++ '}' :: more ∧ rest = runes ('}' :: more) ∧
      Inside '{' '}' (Named StringText fun t cs => cs = t ∧ IsValue t) first members (cs ++ ['}']) ∧
      Fills fields P p members q ∧ q.finish fields = .ok record := by
  induction fuel generalizing text first p with
  | zero => cases read
  | succ fuel ih =>
    obtain ⟨⟨k?, after⟩, next, body⟩ := exists_of_bind read
    rcases nextName_took next with
      ⟨k, rfl, lead, name, tail, rfl, rfl, leads, named⟩ | ⟨rfl, gap, tail, rfl, blank, rfl⟩
    · -- a member is added to those that follow
      have member {gap gap' piece cs : List Char} {members : List (String × List Char)}
          (blank : gap.all isGap = true) (blank' : gap'.all isGap = true) (value : IsValue piece)
          (inside : Inside '{' '}' (Named StringText fun t cs => cs = t ∧ IsValue t) false members
            (cs ++ ['}'])) :
          Inside '{' '}' (Named StringText fun t cs => cs = t ∧ IsValue t) first
            ((k, piece) :: members)
            (lead ++ (name ++ (gap ++ ':' :: (gap' ++ piece))) ++ cs ++ ['}']) := by
        have here : Named StringText (fun t cs => cs = t ∧ IsValue t) (k, piece) _ :=
          .mk named blank blank' ⟨rfl, value⟩
        have nothing : ([] : List Char).all isGap = true := rfl
        have whole := Inside.item leads nothing here inside
        simpa using whole
      cases found : fields.find? (·.name = k) with
      | none =>
        simp only [found] at body
        obtain ⟨_, marked, body'⟩ := exists_of_bind body
        obtain ⟨_, tail, rfl, rfl, gap, rfl, blank⟩ := colon_took marked
        obtain ⟨_, skipped, last⟩ := exists_of_bind body'
        obtain ⟨gap', piece, tail, rfl, blank', rfl, value⟩ := skipValue_sound skipped
        obtain ⟨members, q, cs, more, rfl, rfl, inside, fills, finished⟩ := ih last
        exact ⟨_, q, _, more, by simp, rfl, member blank blank' value inside,
          .unknown found fills, finished⟩
      | some field =>
        simp only [found] at body
        split_ifs at body with seen
        · cases body
        have among := List.mem_of_find?_eq_some found
        have same : field.name = k := by simpa using List.find?_some found
        obtain ⟨_, marked, body'⟩ := exists_of_bind body
        obtain ⟨_, tail, rfl, rfl, gap, rfl, blank⟩ := colon_took marked
        obtain ⟨⟨change, _⟩, here, last⟩ := exists_of_bind body'
        obtain ⟨gap', piece, tail, rfl, blank', rfl, kind⟩ := sound field among here
        rw [same] at kind
        obtain ⟨members, q, cs, more, rfl, rfl, inside, fills, finished⟩ := ih last
        have fresh : k ∉ p.seen := by simpa using seen
        exact ⟨_, q, _, more, by simp, rfl, member blank blank' (values _ _ _ kind) inside,
          .known fresh kind fills, finished⟩
    · cases finished : p.finish fields with
      | error m =>
        simp only [finished] at body
        cases body
      | ok record' =>
        simp only [finished] at body
        cases body
        exact ⟨[], p, gap, tail, rfl, rfl, .close blank first, .nothing p, finished⟩

/-- A field that has been filled is not filled again. -/
theorem Fills.seen {γ : Type} {P : String → (α → α) → γ → Prop} {k : String} {g : α → β}
    (known : fields.find? (·.name = k) ≠ none)
    (keeps : ∀ k' ≠ k, ∀ change t a, P k' change t → g (change a) = g a) {p q : Progress α}
    {members : List (String × γ)} (fills : Fills fields P p members q)
    (there : k ∈ p.seen) :
    members.filter (·.1 = k) = [] ∧ g q.record = g p.record ∧ k ∈ q.seen := by
  induction fills with
  | nothing p => exact ⟨rfl, rfl, there⟩
  | @unknown p q k' t members other _ ih =>
    have differs : k' ≠ k := by
      rintro rfl
      exact known other
    rw [List.filter_cons_of_neg (by simpa using differs)]
    exact ih there
  | @known p q k' t members change fresh here _ ih =>
    have differs : k' ≠ k := by
      rintro rfl
      exact fresh there
    obtain ⟨none, same, seen⟩ := ih (List.mem_cons_of_mem _ there)
    rw [List.filter_cons_of_neg (by simpa using differs)]
    exact ⟨none, same.trans (keeps k' differs change t p.record here), seen⟩

/-- **A field is filled from the one member of its name**, or there is none and it keeps its
value. -/
theorem Fills.field {γ : Type} {P : String → (α → α) → γ → Prop} {k : String} {g : α → β}
    {Q : β → γ → Prop} (known : fields.find? (·.name = k) ≠ none)
    (sets : ∀ change t a, P k change t → Q (g (change a)) t)
    (keeps : ∀ k' ≠ k, ∀ change t a, P k' change t → g (change a) = g a) {p q : Progress α}
    {members : List (String × γ)} (fills : Fills fields P p members q)
    (new : k ∉ p.seen) :
    (∃ t, members.filter (·.1 = k) = [(k, t)] ∧ Q (g q.record) t) ∨
      (members.filter (·.1 = k) = [] ∧ g q.record = g p.record ∧ k ∉ q.seen) := by
  induction fills with
  | nothing p => exact .inr ⟨rfl, rfl, new⟩
  | @unknown p q k' t members other _ ih =>
    have differs : k' ≠ k := by
      rintro rfl
      exact known other
    rw [List.filter_cons_of_neg (by simpa using differs)]
    exact ih new
  | @known p q k' t members change fresh here more ih =>
    by_cases same : k' = k
    · -- this is the member of the name, and behind it there is no other
      subst same
      obtain ⟨none, kept, _⟩ := more.seen known keeps List.mem_cons_self
      left
      refine ⟨t, ?_, ?_⟩
      · rw [List.filter_cons_of_pos (by simp), none]
      · rw [kept]
        exact sets change t p.record here
    · have new' : k ∉ k' :: p.seen := by
        rw [List.mem_cons, not_or]
        exact ⟨fun h => same h.symm, new⟩
      have kept := keeps k' same change t p.record here
      rw [List.filter_cons_of_neg (by simpa using same), ← kept]
      exact ih new'

/-- A finished record has each field that has to be there. -/
theorem seen_of_finish {p : Progress α} {a : α}
    (finished : p.finish fields = .ok a) :
    a = p.record ∧ ∀ f ∈ fields, f.required = true → f.name ∈ p.seen := by
  rw [Progress.finish] at finished
  split at finished
  · cases finished
  · rename_i none
    cases finished
    refine ⟨rfl, fun f among needed => ?_⟩
    have there := List.find?_eq_none.mp none f among
    simpa [needed] using there

/-! ## Lists -/

/-- A record with some items that fill its fields in order; the last fields may be left out if
they need not be there. -/
inductive FillsInOrder (P : String → (α → α) → List Char → Prop) :
    List (Decoder.Field α) → α → List (List Char) → α → Prop
  | left {fields : List (Decoder.Field α)} (a : α) (free : ∀ f ∈ fields, f.required = false) :
    FillsInOrder P fields a [] a
  | item {f : Decoder.Field α} {fields : List (Decoder.Field α)} {a b : α} {t : List Char}
      {ts : List (List Char)} {change : α → α} (here : P f.name change t) (more : FillsInOrder P fields (change a) ts b) :
    FillsInOrder P (f :: fields) a (t :: ts) b

/-- Where a list has come to its end, no further field is read. -/
theorem readFields_end {expected : String} {room index : Nat} {first : Bool} {a b : α}
    {tail : List Char}
    (read : readFields expected room fields index first a (runes (']' :: tail)) =
      .ok (.ok b, rest)) :
    b = a ∧ rest = runes (']' :: tail) ∧ ∀ f ∈ fields, f.required = false := by
  induction fields generalizing index with
  | nil =>
    cases read
    exact ⟨rfl, rfl, by simp⟩
  | cons f fields ih =>
    have ended : nextItem first (runes (']' :: tail)) = .ok (false, runes (']' :: tail)) := rfl
    rw [readFields, ended] at read
    cases needed : f.required with
    | true =>
      rw [needed] at read
      cases read
    | false =>
      rw [needed] at read
      obtain ⟨same, ends, free⟩ := ih read
      exact ⟨same, ends, by simpa [needed] using free⟩

theorem closeList_took {after : Rest} (closed : closeList (runes text) = (.ok rest, after)) :
    Took (fun cs => ∃ gap, cs = gap ++ [']'] ∧ gap.all isGap = true) text rest := by
  obtain ⟨gap, tail, rfl, blank, skipped⟩ := skipBlanks_took text
  unfold closeList at closed
  rw [skipped] at closed
  cases tail with
  | nil => cases closed
  | cons c tail =>
    split at closed
    · rename_i same
      cases same
      cases closed
      exact ⟨gap ++ [']'], tail, by simp, rfl, gap, rfl, blank⟩
    · split at closed <;> cases closed
    · cases closed
    · cases closed

theorem readFields_took {expected : String} {room index : Nat}
    (sound : ∀ f ∈ fields, Sound (f.change.read room) (P f.name))
    (values : ∀ k change t, P k change t → IsValue t) {first : Bool} {a b : α}
    {middle after : Rest}
    (read : readFields expected room fields index first a (runes text) = .ok (.ok b, middle))
    (closed : closeList middle = (.ok rest, after)) :
    ∃ items, FillsInOrder P fields a items b ∧
      Took (Inside '[' ']' (fun t cs => cs = t ∧ IsValue t) first items) text rest := by
  induction fields generalizing text index first a with
  | nil =>
    cases read
    obtain ⟨_, more, rfl, ends, gap, rfl, blank⟩ := closeList_took closed
    exact ⟨[], .left _ (by simp), gap ++ [']'], more, rfl, ends, .close blank first⟩
  | cons f fields ih =>
    obtain ⟨⟨another, _⟩, next, body⟩ := exists_of_bind read
    rcases nextItem_took next with
      ⟨rfl, lead, tail, rfl, rfl, leads⟩ | ⟨rfl, gap, tail, rfl, blank, rfl⟩
    · obtain ⟨⟨change, _⟩, here, body'⟩ := exists_of_bind body
      obtain ⟨gap, piece, tail, rfl, blank, rfl, kind⟩ := sound f List.mem_cons_self here
      obtain ⟨items, fills, cs, more, rfl, ends, inside⟩ :=
        ih (fun g among => sound g (List.mem_cons_of_mem _ among)) body'
      refine ⟨piece :: items, .item kind fills, lead ++ (gap ++ (piece ++ cs)), more, by simp,
        ends, ?_⟩
      exact .item leads blank ⟨rfl, values _ _ _ kind⟩ inside
    · have whole : readFields expected room (f :: fields) index first a (runes (']' :: tail)) =
          .ok (.ok b, middle) := body
      obtain ⟨rfl, rfl, free⟩ := readFields_end whole
      cases closed
      exact ⟨[], .left b free, gap ++ [']'], tail, by simp, rfl, .close blank first⟩

/-! ## Records -/

theorem exists_of_closeRecord {close : Rest → Except Fault Rest × Rest}
    {r : Except Mismatch α × Rest} {a : α} (closed : closeRecord close r = .ok (a, rest)) :
    ∃ after, r.1 = .ok a ∧ close r.2 = (.ok rest, after) := by
  obtain ⟨record, s⟩ := r
  cases record with
  | error m => cases closed
  | ok b =>
    obtain ⟨rest', done, last⟩ := exists_of_bind closed
    cases last
    exact ⟨(close s).2, rfl, Prod.ext done rfl⟩

/-- **A record is read from an object or from a list**: from the members that have the names of
its fields, or from items for its fields in order. -/
theorem record_sound {name : String} {start : α} {room : Nat}
    (sound : ∀ room, ∀ f ∈ fields, Sound (f.change.read room) (P f.name))
    (values : ∀ k change t, P k change t → IsValue t) :
    Sound ((record name fields start).read room) fun a text =>
      (∃ members q, ObjectText members text ∧ Fills fields P ⟨start, []⟩ members q ∧
        q.finish fields = .ok a) ∨
      ∃ items, ListText items text ∧ FillsInOrder P fields start items a := by
  intro text a rest read
  obtain ⟨gap, tail, rfl, blank, skipped⟩ := skipBlanks_took text
  unfold record at read
  simp only [skipped] at read
  cases tail with
  | nil => cases read
  | cons c tail =>
    split at read
    · rename_i same
      cases same
      cases room with
      | zero => cases read
      | succ room =>
        obtain ⟨⟨record, middle⟩, filled, closed⟩ := exists_of_bind read
        obtain ⟨_, rfl, closed⟩ := exists_of_closeRecord closed
        obtain ⟨members, q, cs, more, rfl, rfl, inside, fills, finished⟩ :=
          readMembers_took (sound room) values filled
        cases closed
        exact ⟨gap, '{' :: (cs ++ ['}']), more, by simp, blank, rfl,
          .inl ⟨members, q, inside, fills, finished⟩⟩
    · rename_i same
      cases same
      cases room with
      | zero => cases read
      | succ room =>
        obtain ⟨⟨record, middle⟩, listed, closed⟩ := exists_of_bind read
        obtain ⟨_, rfl, closed⟩ := exists_of_closeRecord closed
        obtain ⟨items, fills, cs, more, rfl, ends, inside⟩ :=
          readFields_took (sound room) values listed closed
        exact ⟨gap, '[' :: cs, more, by simp, blank, ends, .inr ⟨items, inside, fills⟩⟩
    · cases read

end TriageDesk.Json
