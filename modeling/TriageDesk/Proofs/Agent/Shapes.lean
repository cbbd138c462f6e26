/-
TriageDesk.Proofs.Agent.Shapes — what the text of a call looks like.

A call is decoded as a record, and a record may be written as an object or as a
list of its fields. An object is a call if it has one member `tool`, a string,
and at most one member `args` (`Call.IsObject`); what else it has makes no
difference. A list is a call if it has a string and at most one further item
(`Call.IsList`). Nothing else is one (`Call.decoder_sound`).

What is looked at without a fence begins with a brace, so a list is taken for a
call only as a whole fenced block (`Reply.call_shape`), and there it is
(`Reply.read_fenced_list`).
-/
import TriageDesk.Agent.Reply
import TriageDesk.Proofs.Json.Records
import TriageDesk.Proofs.Text.Search

namespace TriageDesk.Agent

open Text Json Reader Decoder

/-! ## Shapes of calls -/

/-- The text of an object with the name and the arguments of a call. There may be further
members. -/
def Call.IsObject (c : Call) (text : List Char) : Prop :=
  ∃ members, ObjectText members text ∧
    (∃ t, members.filter (·.1 = "tool") = [("tool", t)] ∧ Means (.string c.tool) t) ∧
    ((∃ t, members.filter (·.1 = "args") = [("args", t)] ∧ Means c.args t) ∨
      members.filter (·.1 = "args") = [] ∧ c.args = .null)

/-- The text of a list with the name of a call and then its arguments, if it has any. -/
def Call.IsList (c : Call) (text : List Char) : Prop :=
  ∃ items, ListText items text ∧
    ((∃ t, items = [t] ∧ Means (.string c.tool) t ∧ c.args = .null) ∨
      ∃ t u, items = [t, u] ∧ Means (.string c.tool) t ∧ Means c.args u)

/-- What the value of a member changes in a call. -/
inductive Call.Sets (k : String) : (Call → Call) → List Char → Prop
  | tool {s : String} {t : List Char} (name : k = "tool") (here : Denotes (.string s) t) :
    Call.Sets k (fun c => { c with tool := s }) t
  | args {v : Json} {t : List Char} (name : k = "args") (here : Denotes v t) :
    Call.Sets k (fun c => { c with args := v }) t

namespace Call

variable {k : String} {change : Call → Call} {t : List Char}

/-- The fields of a call, in order. -/
def fields : List (Decoder.Field Call) :=
  [.needed "tool" .text fun x c => { c with tool := x },
   .optional "args" .any fun x c => { c with args := x }]

theorem Sets.isValue (sets : Sets k change t) : IsValue t := by
  cases sets with
  | tool name here => exact here.isValue
  | args name here => exact here.isValue

theorem sound_fields (room : Nat) :
    ∀ f ∈ fields, Sound (f.change.read room) (Sets f.name) := by
  intro f among
  simp only [fields, List.mem_cons, List.not_mem_nil, or_false] at among
  rcases among with rfl | rfl
  · have set := map_sound (textAs_sound "a string" room) fun x (c : Call) => { c with tool := x }
    refine set.imp ?_
    rintro _ t ⟨s, rfl, here⟩
    exact .tool rfl here
  · have set := map_sound (any_sound room) fun x (c : Call) => { c with args := x }
    refine set.imp ?_
    rintro _ t ⟨v, rfl, here⟩
    exact .args rfl here

/-- Members that fill a call are those of an object of its shape. -/
theorem isObject_of_fills {c : Call} {q : Progress Call} {members : List (String × List Char)}
    (object : ObjectText members t) (fills : Fills fields Sets ⟨⟨"", .null⟩, []⟩ members q)
    (finished : q.finish fields = .ok c) : c.IsObject t := by
  obtain ⟨rfl, seen⟩ := seen_of_finish finished
  refine ⟨members, object, ?_, ?_⟩
  · have tool := fills.field (k := "tool") (g := Call.tool) (Q := fun s t => Means (.string s) t)
      (by simp [fields, Field.needed]) ?_ ?_ List.not_mem_nil
    · rcases tool with one | ⟨_, _, missing⟩
      · exact one
      · exact absurd (seen _ List.mem_cons_self rfl) missing
    · rintro _ t c (⟨_, here⟩ | ⟨name, _⟩)
      · exact here.means
      · exact absurd name (by decide)
    · rintro k other _ t c (⟨name, _⟩ | ⟨_, _⟩)
      · exact absurd name other
      · rfl
  · have args := fills.field (k := "args") (g := Call.args) (Q := Means)
      (by simp [fields, Field.needed, Field.optional]) ?_ ?_ List.not_mem_nil
    · rcases args with one | ⟨none, default, _⟩
      · exact .inl one
      · exact .inr ⟨none, default⟩
    · rintro _ t c (⟨name, _⟩ | ⟨_, here⟩)
      · exact absurd name (by decide)
      · exact here.means
    · rintro k other _ t c (⟨_, _⟩ | ⟨name, _⟩)
      · rfl
      · exact absurd name other

/-- Items that fill a call are those of a list of its shape. -/
theorem isList_of_fills {c : Call} {items : List (List Char)} (list : ListText items t)
    (fills : FillsInOrder Sets fields ⟨"", .null⟩ items c) : c.IsList t := by
  refine ⟨items, list, ?_⟩
  cases fills with
  | left _ free => exact absurd (free _ List.mem_cons_self) (by decide)
  | item tool more =>
    rcases tool with ⟨_, tool⟩ | ⟨name, _⟩
    · cases more with
      | left => exact .inl ⟨_, rfl, tool.means, rfl⟩
      | item args done =>
        rcases args with ⟨name, _⟩ | ⟨_, args⟩
        · exact absurd name (by decide)
        · cases done
          exact .inr ⟨_, _, rfl, tool.means, args.means⟩
    · exact absurd name (by decide)

/-- **A call is decoded from an object or a list of its shape**, and from nothing else. -/
theorem decoder_sound (room : Nat) :
    Sound (decoder.read room) fun c t => c.IsObject t ∨ c.IsList t := by
  refine Sound.imp ?_ (record_sound sound_fields fun _ _ _ sets => sets.isValue)
  rintro c t (⟨members, q, object, fills, finished⟩ | ⟨items, list, fills⟩)
  · exact .inl (isObject_of_fills object fills finished)
  · exact .inr (isList_of_fills list fills)

end Call

/-! ## Where a list is looked at -/

theorem fenced?_isInfix {reply found : List Char} (looked : fenced? reply = some found) :
    found <:+: reply := by
  obtain ⟨⟨before, rest⟩, opened, body⟩ := Option.bind_eq_some_iff.mp looked
  have inside : rest <:+: reply := by
    rw [eq_of_cutAtFirst opened]
    exact ((List.suffix_append _ _).trans (List.suffix_append _ _)).isInfix
  cases closed : cutAtFirst fenceCloser rest with
  | none =>
    simp only [closed] at body
    cases body
    exact (trim_isInfix rest).trans inside
  | some cut =>
    simp only [closed] at body
    cases body
    rw [eq_of_cutAtFirst closed] at inside
    exact (trim_isInfix _).trans ((List.prefix_append _ _).isInfix.trans inside)

theorem braced?_eq_some {reply found : List Char} (looked : braced? reply = some found) :
    found <:+: reply ∧ found.head? = some '{' := by
  have same : throughLast '}' (fromFirst '{' reply) = found := by
    rw [braced?] at looked
    split at looked
    · cases looked
    · cases looked
      rfl
  have front := throughLast_isPrefix '}' (fromFirst '{' reply)
  rw [same] at front
  refine ⟨front.isInfix.trans (fromFirst_isSuffix _ _).isInfix, ?_⟩
  cases found with
  | nil =>
    rw [braced?, same] at looked
    cases looked
  | cons c found =>
    obtain ⟨more, whole⟩ := front
    rw [eq_of_fromFirst whole.symm]
    rfl

/-- What is looked at is part of the reply, and without a fence it begins with a brace. -/
theorem candidate?_eq_some {reply found : List Char} (looked : candidate? reply = some found) :
    found <:+: reply ∧ (fenced? reply = some found ∨ found.head? = some '{') := by
  rw [candidate?] at looked
  cases fenced : fenced? reply with
  | some block =>
    rw [fenced] at looked
    cases looked
    exact ⟨fenced?_isInfix fenced, .inl rfl⟩
  | none =>
    rw [fenced] at looked
    cases braced : braced? reply with
    | some inner =>
      rw [braced] at looked
      cases looked
      exact ⟨(braced?_eq_some braced).1, .inr (braced?_eq_some braced).2⟩
    | none =>
      simp only [braced] at looked
      split_ifs at looked with begins
      cases looked
      obtain ⟨rest, rfl⟩ := startsWith_iff.mp begins
      exact ⟨List.infix_rfl, .inr rfl⟩

/-- A list does not begin with a brace, nor with blanks and one. -/
theorem Call.IsList.head_ne_brace {c : Call} {gap text gap' : List Char} (list : c.IsList text)
    (blank : gap.all isGap = true) : (gap ++ (text ++ gap')).head? ≠ some '{' := by
  obtain ⟨items, listed, _⟩ := list
  cases gap with
  | nil =>
    cases listed <;> simp
  | cons d gap =>
    intro same
    cases same
    rw [List.all_cons] at blank
    cases blank

/-- **What is read as a call is a part of the output that gives it**: an object with the name and
the arguments of the call or, as the whole of a fenced block, a list of the two. -/
theorem Reply.call_shape {output : String} {c : Call} (read : Reply.read output = .ok (.call c)) :
    ∃ gap text gap', gap ++ (text ++ gap') <:+: output.toList ∧
      gap.all isGap = true ∧ gap'.all isGap = true ∧
      (c.IsObject text ∨
        c.IsList text ∧ fenced? (trim output.toList) = some (gap ++ (text ++ gap'))) := by
  obtain ⟨found, looked, decoded, _⟩ := Reply.read_eq_call_iff.mp read
  obtain ⟨gap, text, gap', rfl, blank, blank', shape⟩ :=
    (Call.decoder_sound maxDepth).ofText decoded
  obtain ⟨inside, place⟩ := candidate?_eq_some looked
  refine ⟨gap, text, gap', inside.trans (trim_isInfix _), blank, blank', ?_⟩
  rcases shape with object | list
  · exact .inl object
  · rcases place with fenced | braced
    · exact .inr ⟨list, fenced⟩
    · exact absurd braced (list.head_ne_brace blank)

/-- A call whose members come in another order, with one that it does not have. -/
def aside : String := "So: \x7b\"note\": [\"tool\"], \"args\": null, \"tool\" : \"t\"\x7d."

theorem Reply.call_shape_aside : Reply.read aside = .ok (.call ⟨"t", .null⟩) ∧
    ∃ gap text gap', gap ++ (text ++ gap') <:+: aside.toList ∧
      gap.all isGap = true ∧ gap'.all isGap = true ∧
      (Call.IsObject ⟨"t", .null⟩ text ∨
        Call.IsList ⟨"t", .null⟩ text ∧
          fenced? (trim aside.toList) = some (gap ++ (text ++ gap'))) := by
  have read : Reply.read aside = .ok (.call ⟨"t", .null⟩) := rfl
  exact ⟨read, Reply.call_shape read⟩

/-- The text of an object begins with a brace. -/
theorem Call.IsObject.brace_mem {c : Call} {text : List Char} (object : c.IsObject text) :
    '{' ∈ text := by
  obtain ⟨members, listed, _⟩ := object
  cases listed <;> exact List.mem_cons_self

/-- A list in a fenced block is taken for a call, and there is no object at all. -/
theorem Reply.read_fenced_list :
    Reply.read "```json\n[\"t\", 1]\n```" = .ok (.call ⟨"t", .number (.int 1)⟩) ∧
      ∀ (c : Call) (text : List Char), text <:+: "```json\n[\"t\", 1]\n```".toList →
        ¬ c.IsObject text := by
  refine ⟨rfl, fun c text inside object => ?_⟩
  have brace := inside.subset object.brace_mem
  exact absurd brace (by decide)

end TriageDesk.Agent
