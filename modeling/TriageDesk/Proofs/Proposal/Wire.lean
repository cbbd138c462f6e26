/-
TriageDesk.Proofs.Proposal.Wire — proposals survive being written.

What is written for a proposal is read as that proposal (`read_written`), in
whatever order its members and those of its tables are written, and whatever the
moments are that would stand for missing ones. Nothing is asked of its texts. Its
details have to fit, and its moments have to lie in years of four digits and in no
leap second (`Portable`).

Each part has its lemma (`Param.decodes`, `Action.decodes`, `decodes`), put
together from those of the decoders. The text is one line: no character of a
compact text is a control character (`printable_compact`).
-/
import TriageDesk.Proofs.Json.Decoding
import TriageDesk.Proofs.Time.Reading
import TriageDesk.Proposal.Wire

namespace TriageDesk

open Json Json.Reader Json.Decoder Time

/-! ## Texts of one line -/

namespace Json

/-- A text without control characters. -/
def Printable (text : List Char) : Prop := ∀ c ∈ text, 0x20 ≤ c.toNat

@[simp] theorem printable_nil : Printable [] := List.forall_mem_nil _

@[simp] theorem printable_cons {c : Char} {cs : List Char} :
    Printable (c :: cs) ↔ 0x20 ≤ c.toNat ∧ Printable cs := List.forall_mem_cons

@[simp] theorem printable_append {cs ds : List Char} :
    Printable (cs ++ ds) ↔ Printable cs ∧ Printable ds := List.forall_mem_append

theorem printable_digits (n : Nat) : Printable (Nat.toDigits 10 n) := by
  intro c among
  have digit := Nat.isDigit_of_mem_toDigits (by decide) (by decide) among
  simp only [Char.isDigit, Bool.and_eq_true, decide_eq_true_eq] at digit
  exact Nat.le_trans (by decide) (UInt32.le_iff_toNat_le.mp digit.1)

theorem printable_escapeChar (c : Char) : Printable (escapeChar c) := by
  by_cases control : c.toNat < 0x20
  · have digit : ∀ n < 16, 0x20 ≤ (Nat.digitChar n).toNat := by decide
    have high := digit (c.toNat / 16) (by omega)
    have low := digit (c.toNat % 16) (by omega)
    unfold escapeChar
    split_ifs <;> simp [high, low]
  · unfold escapeChar
    split_ifs
    case neg => simpa using Nat.le_of_not_lt control
    all_goals simp

theorem printable_writeString (s : String) : Printable (writeString s) := by
  have inside : Printable (s.toList.flatMap escapeChar) := by
    intro c among
    obtain ⟨d, _, among⟩ := List.mem_flatMap.mp among
    exact printable_escapeChar d c among
  simp [writeString, inside]

theorem printable_items {vs : List Json} (each : ∀ v ∈ vs, Printable (writeCompact v)) :
    Printable (writeItems vs) := by
  induction vs with
  | nil => simp [writeItems]
  | cons v vs ih =>
    have first := each v List.mem_cons_self
    have rest := ih fun w among => each w (List.mem_cons_of_mem _ among)
    cases vs with
    | nil => exact first
    | cons w vs => simp [writeItems, first, rest]

theorem printable_members {ms : List (String × Json)}
    (each : ∀ e ∈ ms, Printable (writeCompact e.2)) : Printable (writeMembers ms) := by
  induction ms with
  | nil => simp [writeMembers]
  | cons e ms ih =>
    have first := each e List.mem_cons_self
    have rest := ih fun f among => each f (List.mem_cons_of_mem _ among)
    cases ms with
    | nil => simp [writeMembers, printable_writeString, first]
    | cons f ms => simp [writeMembers, printable_writeString, first, rest]

/-- A value that fits is written without control characters. -/
theorem printable_compact {room : Nat} {v : Json} (fits : Fits room v) :
    Printable (writeCompact v) := by
  induction fits with
  | null => simp [writeCompact]
  | bool b => cases b <;> simp [writeCompact]
  | @int _ n =>
    show Printable (toString n).toList
    cases n with
    | negSucc n =>
      rw [toString_neg, printable_cons]
      exact ⟨by decide, printable_digits _⟩
    | ofNat n =>
      rw [Int.ofNat_eq_natCast, toString_nat]
      exact printable_digits n
  | string s => exact printable_writeString s
  | array _ ih => simp [writeCompact, printable_items ih]
  | object _ ih => simp [writeCompact, printable_members ih]

end Json

/-! ## What can be written -/

/-- A moment in a year of four digits, and in no leap second. -/
structure Time.Instant.Plain (t : Instant) : Prop where
  noLeap : t.nanos < 1000000000
  first : 0 ≤ t.fields.year
  last : t.fields.year ≤ 9999

namespace Proposal

/-- A proposal that can be written without loss. Its details stand inside two brackets. -/
structure Portable (p : Proposal) : Prop where
  details : ∀ e ∈ p.details.entries, Fits (maxDepth - 2) e.2 ∧ Sorted e.2
  created : p.createdAt.Plain
  updated : p.updatedAt.Plain

/-! ## Reading the parts -/

theorem Status.lookup_name (s : Status) : Status.named.lookup s.name = some s := by
  cases s <;> rfl

theorem ActionKind.lookup_name (k : ActionKind) : ActionKind.named.lookup k.name = some k := by
  cases k <;> rfl

theorem ParamKind.lookup_name (k : ParamKind) : ParamKind.named.lookup k.name = some k := by
  cases k <;> rfl

theorem decodes_instant {t : Instant} (plain : t.Plain) (room : Nat) :
    instantDecoder.Decodes room (.string t.write) t :=
  (decodes_textAs _ room t.write).refine (by
    rw [Instant.read_write plain.noLeap plain.first plain.last]
    rfl)

theorem decodes_texts (t : Table String) (room : Nat) :
    (table text).Decodes (room + 1) (.ofTexts t) t :=
  decodes_table fun e _ => decodes_textAs _ room e.2

theorem Action.decodes (a : Action) (room : Nat) :
    Action.decoder.Decodes (room + 2) a.toJson a := by
  have label := (decodes_textAs "a string" (room + 1) a.label).map
    fun x (a : Action) => { a with label := x }
  have kind := (decodes_choice (room + 1) a.kind.lookup_name).map
    fun x (a : Action) => { a with kind := x }
  have params := (decodes_texts a.params room).map fun x (a : Action) => { a with params := x }
  exact decodes_record (.cons ⟨_, rfl, label⟩ (.cons ⟨_, rfl, kind⟩ (.cons ⟨_, rfl, params⟩ .nil)))
    (by simp) (by simp [Field.needed, Field.optional])
    (by simp) rfl

theorem Param.decodes (p : Param) (room : Nat) :
    Param.decoder.Decodes (room + 2) p.toJson p := by
  have key := (decodes_textAs "a string" (room + 1) p.key).map
    fun x (p : Param) => { p with key := x }
  have label := (decodes_textAs "a string" (room + 1) p.label).map
    fun x (p : Param) => { p with label := x }
  have kind := (decodes_choice (room + 1) p.kind.lookup_name).map
    fun x (p : Param) => { p with kind := x }
  have value := (decodes_textAs "a string" (room + 1) p.value).map
    fun x (p : Param) => { p with value := x }
  have options := (decodes_list fun s (_ : s ∈ p.options) => decodes_textAs "a string" room s).map
    fun x (p : Param) => { p with options := x }
  unfold toJson
  split
  case isTrue none =>
    exact decodes_record (.cons ⟨_, rfl, key⟩ (.cons ⟨_, rfl, label⟩ (.cons ⟨_, rfl, kind⟩
        (.cons ⟨_, rfl, value⟩ .nil))))
      (by simp) (by simp [Field.needed, Field.optional])
      (by simp)
      (by cases p; cases none; rfl)
  case isFalse some =>
    exact decodes_record (.cons ⟨_, rfl, key⟩ (.cons ⟨_, rfl, label⟩ (.cons ⟨_, rfl, kind⟩
        (.cons ⟨_, rfl, value⟩ (.cons ⟨_, rfl, options⟩ .nil)))))
      (by simp) (by simp [Field.needed, Field.optional])
      (by simp) rfl

/-- A written proposal is decoded. -/
theorem decodes {p : Proposal} (portable : p.Portable) (created updated : Instant) :
    (decoder created updated).Decodes maxDepth p.toJson p := by
  have id := (decodes_textAs "a string" 126 p.id).map fun x (p : Proposal) => { p with id := x }
  have kind := (decodes_textAs "a string" 126 p.kind).map
    fun x (p : Proposal) => { p with kind := x }
  have title := (decodes_textAs "a string" 126 p.title).map
    fun x (p : Proposal) => { p with title := x }
  have summary := (decodes_textAs "a string" 126 p.summary).map
    fun x (p : Proposal) => { p with summary := x }
  have details := (decodes_values fun e among => (portable.details e among).1).map
    fun x (p : Proposal) => { p with details := x }
  have actions := (decodes_list fun a (_ : a ∈ p.actions) => a.decodes 123).map
    fun x (p : Proposal) => { p with actions := x }
  have parameters := (decodes_table fun e (_ : e ∈ p.parameters.entries) => e.2.decodes 123).map
    fun x (p : Proposal) => { p with parameters := x }
  have status := (decodes_choice 126 p.status.lookup_name).map
    fun x (p : Proposal) => { p with status := x }
  have createdAt := (decodes_instant portable.created 126).map
    fun x (p : Proposal) => { p with createdAt := x }
  have updatedAt := (decodes_instant portable.updated 126).map
    fun x (p : Proposal) => { p with updatedAt := x }
  exact decodes_record (.cons ⟨_, rfl, id⟩ (.cons ⟨_, rfl, kind⟩ (.cons ⟨_, rfl, title⟩
      (.cons ⟨_, rfl, summary⟩ (.cons ⟨_, rfl, details⟩ (.cons ⟨_, rfl, actions⟩
        (.cons ⟨_, rfl, parameters⟩ (.cons ⟨_, rfl, status⟩ (.cons ⟨_, rfl, createdAt⟩
          (.cons ⟨_, rfl, updatedAt⟩ .nil))))))))))
    (by simp) (by simp [Field.needed, Field.optional])
    (by simp) rfl

/-! ## The order of the members -/

/-- An action with its members in the order of its fields. -/
def Action.inOrder (a : Action) : Json :=
  .object [("label", .string a.label), ("type", .string a.kind.name), ("params", .ofTexts a.params)]

/-- A parameter with its members in the order of its fields. -/
def Param.inOrder (p : Param) : Json :=
  .object ([("key", .string p.key), ("label", .string p.label), ("type", .string p.kind.name),
    ("value", .string p.value)] ++
    if p.options = [] then [] else [("options", .array (p.options.map .string))])

/-- A proposal with its members in the order of its fields. -/
def inOrder (p : Proposal) : Json :=
  .object [("id", .string p.id), ("type", .string p.kind), ("title", .string p.title),
    ("summary", .string p.summary), ("details", .ofTable p.details),
    ("actions", .array (p.actions.map Action.inOrder)),
    ("parameters", .ofTable (p.parameters.map Param.inOrder)),
    ("status", .string p.status.name), ("createdAt", .string p.createdAt.write),
    ("updatedAt", .string p.updatedAt.write)]

theorem sorted_ofTable {t : Table Json} (sorted : ∀ e ∈ t.entries, Sorted e.2) :
    Sorted (.ofTable t) := .object t.ascending sorted

theorem sorted_ofTexts (t : Table String) : Sorted (.ofTexts t) :=
  sorted_ofTable fun e among => by
    obtain ⟨e, _, rfl⟩ := List.mem_map.mp among
    exact .string e.2

theorem Action.inOrder_arranges (a : Action) : a.inOrder.Arranges a.toJson :=
  arranges_ofMembers (by simp) (by simp [sorted_ofTexts, Sorted.string])

theorem Param.inOrder_arranges (p : Param) : p.inOrder.Arranges p.toJson := by
  have options : Sorted (.array (p.options.map .string)) :=
    .array fun v among => by
      obtain ⟨s, _, rfl⟩ := List.mem_map.mp among
      exact .string s
  refine arranges_ofMembers ?_ ?_
  · split <;> simp
  · split <;> simp [options, Sorted.string]

theorem inOrder_arranges {p : Proposal} (portable : p.Portable) : p.inOrder.Arranges p.toJson := by
  have texts (s : String) : Arranges (.string s) (.string s) := (Sorted.string s).arranges
  have details : Arranges (.ofTable p.details) (.ofTable p.details) :=
    (sorted_ofTable fun e among => (portable.details e among).2).arranges
  have actions : Arranges (.array (p.actions.map Action.inOrder))
      (.array (p.actions.map Action.toJson)) :=
    arranges_array (by simp [List.forall₂_same, Action.inOrder_arranges])
  have parameters : Arranges (.ofTable (p.parameters.map Param.inOrder))
      (.ofTable (p.parameters.map Param.toJson)) :=
    arranges_ofTable fun e _ => e.2.inOrder_arranges
  refine arranges_object (by simp) ?_
  simp [texts, details, actions, parameters]

/-- **A proposal survives being written.** Its members may be written in any order that is an
arrangement, among them the order of its fields and the one of the names. Whatever moments would
stand for missing ones, the text is read as the proposal, and it is a single line. -/
theorem read_written {p : Proposal} (portable : p.Portable) :
    (p.inOrder.Arranges p.toJson ∧ p.toJson.Arranges p.toJson) ∧
      ∀ w : Json, w.Arranges p.toJson → ∀ created updated : Instant,
        (decoder created updated).ofText w.compact = .ok p ∧
          ∀ c ∈ w.compact.toList, c ≠ '\n' ∧ c ≠ '\r' := by
  have fields := inOrder_arranges portable
  refine ⟨⟨fields, fields.sorted.arranges⟩, fun w arranges created updated => ?_⟩
  have decodes := decodes portable created updated
  have read := decodes.ofText arranges .none
  rw [writeWith_none] at read
  have printable := printable_compact (arranges.fits decodes.fits)
  refine ⟨read, fun c among => ?_⟩
  rw [compact, String.toList_ofList] at among
  have visible := printable c among
  constructor <;> rintro rfl <;> exact absurd visible (by decide)

/-- A proposal with the first and the last moment that can be written, the largest numbers, and
texts with quotes, line breaks and characters beyond the basic plane. -/
def troublesome : Proposal where
  id := ""
  kind := "risk"
  title := "SQL \"注入\"\r\n\\ 😀"
  summary := "\u0000\u001f\u007f"
  details := ⟨[("", .array [.null, .bool true, .object []]),
    ("hits", .int 18446744073709551615), ("host", .object [("\n", .int (-9223372036854775808))])],
    by unfold Entries.Ascending; decide⟩
  actions := [⟨"确认", .modify, ⟨[("a", "\t"), ("b", "")], by unfold Entries.Ascending; decide⟩⟩]
  parameters := ⟨[("level", ⟨"level", "等级", .select, "高", ["高", ""]⟩),
    ("note", .ofValue "note" "\"")], by unfold Entries.Ascending; decide⟩
  status := .modified
  createdAt := ⟨-62167219200, 0⟩
  updatedAt := ⟨253402300799, 999999999⟩

theorem read_written_troublesome : troublesome.Portable ∧
    (decoder ⟨0, 0⟩ ⟨0, 0⟩).ofText troublesome.inOrder.compact = .ok troublesome ∧
    (decoder ⟨0, 0⟩ ⟨0, 0⟩).ofText troublesome.toJson.compact = .ok troublesome := by
  have details : ∀ e ∈ troublesome.details.entries, Fits (maxDepth - 2) e.2 ∧ Sorted e.2 := by
    intro e among
    simp only [troublesome, List.mem_cons, List.not_mem_nil, or_false] at among
    rcases among with rfl | rfl | rfl
    · have empty : Sorted (.object []) := .object .nil (List.forall_mem_nil _)
      have scalars : ∀ v ∈ [.null, .bool true, .object []], Fits 124 v ∧ Sorted v := by
        simp [Fits.null, Fits.bool, Fits.object, Sorted.null, Sorted.bool, empty]
      exact ⟨.array fun v among => (scalars v among).1, .array fun v among => (scalars v among).2⟩
    · exact ⟨.int (by decide) (by decide), .number _⟩
    · refine ⟨.object fun e among => ?_, .object (List.pairwise_singleton _ _) fun e among => ?_⟩
      · rw [List.mem_singleton.mp among]
        exact .int (by decide) (by decide)
      · rw [List.mem_singleton.mp among]
        exact .number _
  have portable : troublesome.Portable :=
    ⟨details, ⟨by decide, by decide, by decide⟩, ⟨by decide, by decide, by decide⟩⟩
  have written := read_written portable
  exact ⟨portable, (written.2 _ written.1.1 _ _).1, (written.2 _ written.1.2 _ _).1⟩

end Proposal

end TriageDesk
