/-
TriageDesk.Proofs.Json.Filling — filling the text of a value.

A template of a value is filled as text, without being read. As long as no name
has a quote and no string needs an escape, this comes to the same as filling
every string of the value (`fill_writeWith`): a placeholder begins with a dollar
or with two braces, and neither stands in the text of a value outside of its
strings.
-/
import TriageDesk.Proofs.Json.Occurrences
import TriageDesk.Proofs.Template.Filling

namespace TriageDesk.Json

open Text Template

/-! ## Changing strings -/

mutual

/-- A value with every string and every name changed. -/
def mapStrings (f : String → String) : Json → Json
  | .string s => .string (f s)
  | .array items => .array (mapItems f items)
  | .object members => .object (mapMembers f members)
  | v => v

/-- Items with every string changed. -/
def mapItems (f : String → String) : List Json → List Json
  | [] => []
  | v :: rest => mapStrings f v :: mapItems f rest

/-- Members with every string and every name changed. -/
def mapMembers (f : String → String) : List (String × Json) → List (String × Json)
  | [] => []
  | (k, v) :: rest => (f k, mapStrings f v) :: mapMembers f rest

end

mutual

theorem tokens_mapStrings (f : String → String) (g : Gaps) (level : Nat) : ∀ v,
    tokens g level (v.mapStrings f) = (tokens g level v).map (Token.map f)
  | .null | .bool _ | .number _ | .string _ | .array [] | .object [] => rfl
  | .array (v :: rest) => by
    simp [mapStrings, mapItems, tokens, Token.map, tokens_mapStrings f g (level + 1) v,
      tokensOfItems_mapItems f g level rest]
  | .object ((k, v) :: rest) => by
    simp [mapStrings, mapMembers, tokens, Token.map, tokens_mapStrings f g (level + 1) v,
      tokensOfMembers_mapMembers f g level rest]

theorem tokensOfItems_mapItems (f : String → String) (g : Gaps) (level : Nat) : ∀ vs,
    tokensOfItems g level (mapItems f vs) = (tokensOfItems g level vs).map (Token.map f)
  | [] => rfl
  | v :: rest => by
    simp [mapItems, tokensOfItems, Token.map, tokens_mapStrings f g (level + 1) v,
      tokensOfItems_mapItems f g level rest]

theorem tokensOfMembers_mapMembers (f : String → String) (g : Gaps) (level : Nat) : ∀ ms,
    tokensOfMembers g level (mapMembers f ms) = (tokensOfMembers g level ms).map (Token.map f)
  | [] => rfl
  | (k, v) :: rest => by
    simp [mapMembers, tokensOfMembers, Token.map, tokens_mapStrings f g (level + 1) v,
      tokensOfMembers_mapMembers f g level rest]

end

mutual

theorem mapStrings_congr {f h : String → String} : ∀ v : Json,
    (∀ s ∈ v.strings, f s = h s) → v.mapStrings f = v.mapStrings h
  | .null, _ | .bool _, _ | .number _, _ => rfl
  | .string s, same => congrArg Json.string (same s List.mem_cons_self)
  | .array vs, same => congrArg Json.array (mapItems_congr vs same)
  | .object ms, same => congrArg Json.object (mapMembers_congr ms same)

theorem mapItems_congr {f h : String → String} : ∀ vs : List Json,
    (∀ s ∈ stringsOfItems vs, f s = h s) → mapItems f vs = mapItems h vs
  | [], _ => rfl
  | v :: rest, same => by
    simp only [stringsOfItems, List.mem_append] at same
    rw [mapItems, mapItems, mapStrings_congr v fun s among => same s (.inl among),
      mapItems_congr rest fun s among => same s (.inr among)]

theorem mapMembers_congr {f h : String → String} : ∀ ms : List (String × Json),
    (∀ s ∈ stringsOfMembers ms, f s = h s) → mapMembers f ms = mapMembers h ms
  | [], _ => rfl
  | (k, v) :: rest, same => by
    simp only [stringsOfMembers, List.mem_cons, List.mem_append] at same
    rw [mapMembers, mapMembers, same k (.inl rfl),
      mapStrings_congr v fun s among => same s (.inr (.inl among)),
      mapMembers_congr rest fun s among => same s (.inr (.inr among))]

end

theorem mem_mapItems {f : String → String} {w : Json} {vs : List Json} (among : w ∈ mapItems f vs) :
    ∃ v ∈ vs, w = v.mapStrings f := by
  induction vs with
  | nil => cases among
  | cons v rest ih =>
    rcases List.mem_cons.mp among with rfl | among
    · exact ⟨v, List.mem_cons_self, rfl⟩
    · obtain ⟨u, later, same⟩ := ih among
      exact ⟨u, List.mem_cons_of_mem _ later, same⟩

theorem mem_mapMembers {f : String → String} {d : String × Json} {ms : List (String × Json)}
    (among : d ∈ mapMembers f ms) : ∃ e ∈ ms, d = (f e.1, e.2.mapStrings f) := by
  induction ms with
  | nil => cases among
  | cons e rest ih =>
    rcases List.mem_cons.mp among with rfl | among
    · exact ⟨e, List.mem_cons_self, rfl⟩
    · obtain ⟨u, later, same⟩ := ih among
      exact ⟨u, List.mem_cons_of_mem _ later, same⟩

/-- A value still fits when its strings are changed. -/
theorem Fits.mapStrings {room : Nat} {v : Json} (fits : Fits room v) (f : String → String) :
    Fits room (v.mapStrings f) := by
  induction fits with
  | null => exact .null
  | bool b => exact .bool b
  | int low high => exact .int low high
  | string s => exact .string (f s)
  | array _ ih =>
    refine .array fun w among => ?_
    obtain ⟨v, there, rfl⟩ := mem_mapItems among
    exact ih v there
  | object _ ih =>
    refine .object fun d among => ?_
    obtain ⟨e, there, rfl⟩ := mem_mapMembers among
    exact ih e there

/-! ## Changing text -/

theorem writeString_plain {s : String} (plain : ∀ c ∈ s.toList, Plain c) :
    writeString s = '"' :: (s.toList ++ ['"']) := by
  have same : s.toList.flatMap escapeChar = s.toList := by
    rw [List.flatMap_congr fun c among => escapeChar_plain (plain c among)]
    exact List.flatMap_singleton' _
  rw [writeString, same]
  rfl

/-- A change of strings, given as a change of their characters. -/
def onString (change : List Char → List Char) (s : String) : String :=
  String.ofList (change s.toList)

/-- A change of text that, applied to the text of a value, changes each of its strings
separately. -/
structure Pointwise (change : List Char → List Char) : Prop where
  plain : ∀ cs : List Char, (∀ c ∈ cs, Plain c) → ∀ c ∈ change cs, Plain c
  tokens : ∀ ts : List Token, (∀ t ∈ ts, t.Inert) →
    (∀ s ∈ ts.flatMap Token.strings, ∀ c ∈ s.toList, Plain c) →
      change (writeTokens ts) = writeTokens (ts.map (Token.map (onString change)))

theorem Token.inert_map {f : String → String} {ts : List Token} (inert : ∀ t ∈ ts, t.Inert) :
    ∀ t ∈ ts.map (Token.map f), t.Inert := by
  intro u among
  obtain ⟨t, there, rfl⟩ := List.mem_map.mp among
  have here := inert t there
  cases t <;> exact here

theorem Token.strings_map (f : String → String) (ts : List Token) :
    (ts.map (Token.map f)).flatMap Token.strings = (ts.flatMap Token.strings).map f := by
  induction ts with
  | nil => rfl
  | cons t ts ih =>
    rw [List.map_cons, List.flatMap_cons, List.flatMap_cons, List.map_append, ih]
    cases t <;> rfl

theorem Token.map_map (f h : String → String) (t : Token) :
    (t.map f).map h = t.map (h ∘ f) := by
  cases t <;> rfl

theorem Pointwise.id : Pointwise fun cs => cs where
  plain _ plain := plain
  tokens ts _ _ := by
    have same : ∀ t ∈ ts, t.map (onString fun cs => cs) = t := fun t _ => by
      cases t <;> simp [Token.map, onString]
    rw [List.map_congr_left same, List.map_id']

/-- One change after another. -/
theorem Pointwise.comp {first second : List Char → List Char} (h : Pointwise second)
    (h' : Pointwise first) : Pointwise fun cs => second (first cs) where
  plain cs plain := h.plain _ (h'.plain cs plain)
  tokens ts inert plain := by
    have both : onString second ∘ onString first = onString fun cs => second (first cs) := by
      funext s
      simp [onString]
    have between : ∀ s ∈ (ts.map (Token.map (onString first))).flatMap Token.strings,
        ∀ c ∈ s.toList, Plain c := by
      rw [Token.strings_map]
      intro u among
      obtain ⟨s, there, rfl⟩ := List.mem_map.mp among
      rw [onString, String.toList_ofList]
      exact h'.plain _ (plain s there)
    rw [h'.tokens ts inert plain, h.tokens _ (Token.inert_map inert) between, List.map_map]
    congr 1
    refine List.map_congr_left fun t _ => ?_
    rw [Function.comp_apply, Token.map_map, both]

/-- A change for each of some data, one after another. -/
theorem Pointwise.foldl {α : Type} {change : List Char → α → List Char} {entries : List α}
    (each : ∀ e ∈ entries, Pointwise (change · e)) :
    Pointwise fun cs => entries.foldl change cs := by
  induction entries with
  | nil => exact .id
  | cons e rest ih =>
    exact (ih fun f h => each f (List.mem_cons_of_mem _ h)).comp (each e List.mem_cons_self)

/-! ## Replacing a placeholder -/

/-- How a placeholder begins: with a dollar or with two braces. It has no quote. -/
inductive Mark : List Char → Prop
  | dollar {w : List Char} (quoteless : '"' ∉ w) : Mark ('$' :: w)
  | braces {w : List Char} (quoteless : '"' ∉ w) : Mark ('{' :: '{' :: w)

variable {word : List Char}

/-- No placeholder begins between the strings of a value. -/
theorem Mark.not_frame (mark : Mark word) {c : Char} (frame : isFrame c = true) (rest : List Char) :
    ¬ word <+: c :: rest := by
  cases mark <;> rw [List.cons_prefix_cons] <;> rintro ⟨rfl, _⟩ <;> revert frame <;> decide

/-- A single brace begins no placeholder. -/
theorem Mark.not_brace (mark : Mark word) {c : Char} (other : c ≠ '{') (rest : List Char) :
    ¬ word <+: '{' :: c :: rest := by
  cases mark with
  | dollar =>
    rw [List.cons_prefix_cons]
    exact fun front => absurd front.1 (by decide)
  | braces =>
    rw [List.cons_prefix_cons, List.cons_prefix_cons]
    exact fun front => other front.2.1.symm

theorem Mark.exists_cons (mark : Mark word) : ∃ w ws, word = w :: ws ∧ '"' ∉ w :: ws := by
  cases mark with
  | dollar quoteless => exact ⟨_, _, rfl, by simp [quoteless]⟩
  | braces quoteless => exact ⟨_, _, rfl, by simp [quoteless]⟩

theorem Mark.replaceAll_frame (mark : Mark word) (value : List Char) {cs : List Char}
    (frame : ∀ c ∈ cs, isFrame c = true) (rest : List Char) :
    replaceAll word value (cs ++ rest) = cs ++ replaceAll word value rest := by
  induction cs with
  | nil => rfl
  | cons c cs ih =>
    rw [List.cons_append, replaceAll_cons value (mark.not_frame (frame c List.mem_cons_self) _),
      ih fun d h => frame d (List.mem_cons_of_mem _ h), List.cons_append]

theorem Mark.replaceAll_writeString (mark : Mark word) {value : List Char}
    (clean : ∀ c ∈ value, Plain c) {s : String} (plain : ∀ c ∈ s.toList, Plain c)
    (rest : List Char) :
    replaceAll word value (writeString s ++ rest) =
      writeString (onString (replaceAll word value) s) ++ replaceAll word value rest := by
  obtain ⟨w, ws, rfl, quoteless⟩ := mark.exists_cons
  have result : ∀ c ∈ (onString (replaceAll (w :: ws) value) s).toList, Plain c := by
    rw [onString, String.toList_ofList]
    exact fun c among => (mem_replaceAll among).elim (clean c) (plain c)
  have before := replaceAll_append_cons value quoteless [] (s.toList ++ '"' :: rest)
  have inside := replaceAll_append_cons value quoteless s.toList rest
  rw [List.nil_append, inside] at before
  rw [writeString_plain plain, writeString_plain result]
  simpa [onString, replaceAll, replaceScan] using before

/-- Replacing a placeholder in the text of a value replaces it in each of its strings. -/
theorem Mark.pointwise (mark : Mark word) {value : List Char} (clean : ∀ c ∈ value, Plain c) :
    Pointwise (replaceAll word value) where
  plain _ plain c among := (mem_replaceAll among).elim (clean c) (plain c)
  tokens ts inert plain := by
    induction ts with
    | nil => rfl
    | cons t ts ih =>
      rw [List.flatMap_cons] at plain
      have rest := ih (fun u h => inert u (List.mem_cons_of_mem _ h))
        fun s h => plain s (List.mem_append_right _ h)
      have here := inert t List.mem_cons_self
      rw [writeTokens_cons, List.map_cons, writeTokens_cons, ← rest]
      cases t with
      | piece cs =>
        rcases here with frame | rfl
        · exact mark.replaceAll_frame value frame _
        · show replaceAll word value ('{' :: '}' :: writeTokens ts) = _
          rw [replaceAll_cons value (mark.not_brace (by decide) _),
            replaceAll_cons value (mark.not_frame (by decide) _)]
          rfl
      | quoted s =>
        exact mark.replaceAll_writeString clean
          (plain s (List.mem_append_left _ List.mem_cons_self)) _
      | opening gap name =>
        have string := mark.replaceAll_writeString clean
          (plain name (List.mem_append_left _ List.mem_cons_self)) (writeTokens ts)
        -- after the brace comes a blank or the quote of the name
        have single : ¬ word <+: '{' :: (gap ++ (writeString name ++ writeTokens ts)) := by
          cases gap with
          | nil => exact mark.not_brace (by decide) _
          | cons c gap =>
            refine mark.not_brace ?_ _
            rintro rfl
            exact absurd (here _ List.mem_cons_self) (by decide)
        simp only [Token.write, Token.map, List.cons_append, List.append_assoc]
        rw [replaceAll_cons value single, mark.replaceAll_frame value here, string]

/-! ## Filling -/

theorem pointwise_fillOne {e : String × String} (quoteless : '"' ∉ e.1.toList)
    (clean : ∀ c ∈ e.2.toList, Plain c) : Pointwise (fillOne · e) := by
  refine .foldl fun word among => ?_
  rw [spellings_eq] at among
  simp only [List.mem_cons, List.not_mem_nil, or_false] at among
  rcases among with rfl | rfl | rfl
  · exact (Mark.braces (by simp [quoteless])).pointwise clean
  · exact (Mark.braces (by simp [quoteless])).pointwise clean
  · exact (Mark.dollar quoteless).pointwise clean

/-- **Filling the text of a value fills its strings.** No name of a parameter has a quote, and
neither the strings nor the values need an escape. -/
theorem fill_writeWith (g : Gaps) (level : Nat) {room : Nat} {v : Json} (fits : Fits room v)
    (plain : ∀ s ∈ v.strings, ∀ c ∈ s.toList, Plain c) {params : Parameters}
    (quoteless : ∀ e ∈ params.entries, '"' ∉ e.1.toList)
    (clean : ∀ e ∈ params.entries, ∀ c ∈ e.2.toList, Plain c) :
    fill (String.ofList (writeWith g level v)) params =
      String.ofList (writeWith g level (v.mapStrings (onString (fillText params)))) := by
  have pointwise : Pointwise (fillText params) := .foldl fun e among =>
    pointwise_fillOne (quoteless e (mem_fillOrder.mp among)) (clean e (mem_fillOrder.mp among))
  rw [← strings_tokens g level] at plain
  rw [fill_eq, String.toList_ofList, writeWith_eq_tokens, writeWith_eq_tokens, tokens_mapStrings,
    pointwise.tokens _ (inert_tokens g fits level) plain]

end TriageDesk.Json
