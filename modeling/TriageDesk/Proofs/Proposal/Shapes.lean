/-
TriageDesk.Proofs.Proposal.Shapes — which values are parameters of a proposal.

`Param.Described` says what has to be given under the names of the fields, and
`Param.IsParam` where it may be given: in an object, each field at most once and
with anything else beside them, or in a list of the first few fields in order.
`Param.ofValue_iff` is the theorem: these values are read, as that parameter, and
all others are refused.

One direction follows what each member changes (`Param.Sets`). The other is for
free: where nothing can go wrong some parameter is read, and what describes a
parameter describes no other (`Param.Described.unique`).
-/
import TriageDesk.Proofs.Json.Values
import TriageDesk.Proposal.Wire

namespace TriageDesk.Proposal

open Json Decoder

theorem ParamKind.lookup_iff {name : String} {k : ParamKind} :
    ParamKind.named.lookup name = some k ↔ name = k.name := by
  simp only [named, List.lookup_cons, List.lookup_nil]
  cases k <;> grind [ParamKind.name]

namespace Param

/-! ## Values that describe a parameter -/

/-- A value is a text. -/
def IsText (s : String) (v : Json) : Prop := v = .string s

/-- A value is a list of texts. -/
def IsTexts (ss : List String) (v : Json) : Prop := v = .array (ss.map .string)

/-- A value names a kind: as a text, or as an object with that one name and null. -/
def NamesKind (k : ParamKind) (v : Json) : Prop :=
  v = .string k.name ∨ v = .object [(k.name, .null)]

/-- What a field is that may be missing. -/
def Gives {β : Type} (given : Option Json) (default : β) (Means : β → Json → Prop) (x : β) : Prop :=
  (∃ v, given = some v ∧ Means x v) ∨ given = none ∧ x = default

/-- A parameter is described by what is given under the names of its fields. -/
structure Described (given : String → Option Json) (p : Param) : Prop where
  key : given "key" = some (.string p.key)
  label : Gives (given "label") "" IsText p.label
  kind : Gives (given "type") .text NamesKind p.kind
  value : Gives (given "value") "" IsText p.value
  options : Gives (given "options") [] IsTexts p.options

/-- The names of the fields, in order. -/
def fieldNames : List String := ["key", "label", "type", "value", "options"]

/-- A value is a parameter: an object that describes it and gives no field twice, or a list of
items that do so under the names of the fields in their order. -/
def IsParam (v : Json) (p : Param) : Prop :=
  ∃ ms, (v = .object ms ∨
      ∃ items, v = .array items ∧ items.length ≤ fieldNames.length ∧ ms = fieldNames.zip items) ∧
    (∀ name ∈ fieldNames, (ms.map (·.1)).count name ≤ 1) ∧ Described (Entries.find? · ms) p

/-! ## A description is of one parameter -/

theorem Gives.unique {β : Type} {given : Option Json} {default x y : β} {Means : β → Json → Prop}
    (functional : ∀ v x y, Means x v → Means y v → x = y) (gx : Gives given default Means x)
    (gy : Gives given default Means y) : x = y := by
  rcases gx with ⟨v, found, means⟩ | ⟨missing, rfl⟩
  · rcases gy with ⟨w, found', means'⟩ | ⟨missing, _⟩
    · obtain rfl : v = w := Option.some.inj (found.symm.trans found')
      exact functional v x y means means'
    · rw [missing] at found
      cases found
  · rcases gy with ⟨w, found, _⟩ | ⟨_, same⟩
    · rw [missing] at found
      cases found
    · exact same.symm

theorem IsText.unique (v : Json) (s t : String) (hs : IsText s v) (ht : IsText t v) : s = t :=
  Json.string.inj (hs.symm.trans ht)

theorem IsTexts.unique (v : Json) (ss ts : List String) (hs : IsTexts ss v) (ht : IsTexts ts v) :
    ss = ts :=
  List.map_injective_iff.mpr (fun _ _ => Json.string.inj) (Json.array.inj (hs.symm.trans ht))

theorem NamesKind.unique (v : Json) (j k : ParamKind) (hj : NamesKind j v) (hk : NamesKind k v) :
    j = k := by
  have names {j k : ParamKind} (same : j.name = k.name) : j = k := by
    have known := ParamKind.lookup_iff.mpr same
    rw [ParamKind.lookup_iff.mpr rfl] at known
    exact Option.some.inj known
  rcases hj with rfl | rfl <;> rcases hk with same | same
  · exact names (Json.string.inj same)
  · cases same
  · cases same
  · exact names (congrArg Prod.fst (List.head_eq_of_cons_eq (Json.object.inj same)))

theorem Described.unique {given : String → Option Json} {p q : Param} (hp : Described given p)
    (hq : Described given q) : p = q := by
  have key := Json.string.inj (Option.some.inj (hp.key.symm.trans hq.key))
  have label := hp.label.unique IsText.unique hq.label
  have kind := hp.kind.unique NamesKind.unique hq.kind
  have value := hp.value.unique IsText.unique hq.value
  have options := hp.options.unique IsTexts.unique hq.options
  cases p
  cases q
  simp_all

/-! ## What the members change -/

/-- The fields of a parameter, in order. -/
def fields : List (Decoder.Field Param) :=
  [.needed "key" .text fun x (p : Param) => { p with key := x },
   .optional "label" .text fun x p => { p with label := x },
   .optional "type" (.choice ParamKind.named) fun x p => { p with kind := x },
   .optional "value" .text fun x p => { p with value := x },
   .optional "options" (.list .text) fun x p => { p with options := x }]

/-- A parameter before anything has been read. -/
def blank : Param := ⟨"", "", .text, "", []⟩

/-- What the value of a member changes in a parameter. -/
inductive Sets (k : String) : (Param → Param) → Json → Prop
  | key {s : String} {v : Json} (name : k = "key") (means : IsText s v) :
    Sets k (fun p => { p with key := s }) v
  | label {s : String} {v : Json} (name : k = "label") (means : IsText s v) :
    Sets k (fun p => { p with label := s }) v
  | kind {x : ParamKind} {v : Json} (name : k = "type") (means : NamesKind x v) :
    Sets k (fun p => { p with kind := x }) v
  | value {s : String} {v : Json} (name : k = "value") (means : IsText s v) :
    Sets k (fun p => { p with value := s }) v
  | options {ss : List String} {v : Json} (name : k = "options") (means : IsTexts ss v) :
    Sets k (fun p => { p with options := ss }) v

theorem namesKind_iff {v : Json} {k : ParamKind} :
    (choice ParamKind.named).ofValue v = .ok k ↔ NamesKind k v := by
  rw [choice_iff]
  simp only [ParamKind.lookup_iff, exists_eq_left]
  rfl

variable {k : String} {change : Param → Param} {v : Json} {ms : List (String × Json)}
  {q : Progress Param}

theorem alters_iff : Alters fields k change v ↔ Sets k change v := by
  constructor
  · rintro ⟨f, found, read⟩
    have named : f.name = k := by simpa using List.find?_some found
    have among := List.mem_of_find?_eq_some found
    simp only [fields, List.mem_cons, List.not_mem_nil, or_false] at among
    rcases among with rfl | rfl | rfl | rfl | rfl <;> obtain ⟨x, here, rfl⟩ := map_iff.mp read
    · exact .key named.symm (textAs_iff.mp here)
    · exact .label named.symm (textAs_iff.mp here)
    · exact .kind named.symm (namesKind_iff.mp here)
    · exact .value named.symm (textAs_iff.mp here)
    · exact .options named.symm (texts_iff.mp here)
  · rintro (⟨rfl, means⟩ | ⟨rfl, means⟩ | ⟨rfl, means⟩ | ⟨rfl, means⟩ | ⟨rfl, means⟩)
    · exact ⟨_, rfl, map_iff.mpr ⟨_, textAs_iff.mpr means, rfl⟩⟩
    · exact ⟨_, rfl, map_iff.mpr ⟨_, textAs_iff.mpr means, rfl⟩⟩
    · exact ⟨_, rfl, map_iff.mpr ⟨_, namesKind_iff.mpr means, rfl⟩⟩
    · exact ⟨_, rfl, map_iff.mpr ⟨_, textAs_iff.mpr means, rfl⟩⟩
    · exact ⟨_, rfl, map_iff.mpr ⟨_, texts_iff.mpr means, rfl⟩⟩

theorem mem_fieldNames_iff : k ∈ fieldNames ↔ fields.find? (·.name = k) ≠ none := by
  rw [← Option.isSome_iff_ne_none, List.find?_isSome]
  simp [fieldNames, fields, Field.needed, Field.optional, eq_comm]

/-- A field in the parameter that members leave: `changes` says that the members of its name are
all that changes it. -/
theorem given {β : Type} (g : Param → β) (Means : β → Json → Prop) (known : k ∈ fieldNames)
    (changes : ∀ j change v p, Sets j change v →
      if j = k then Means (g (change p)) v else g (change p) = g p)
    (fills : Fills fields (Alters fields) ⟨blank, []⟩ ms q) :
    (ms.map (·.1)).count k ≤ 1 ∧ Gives (Entries.find? k ms) (g blank) Means (g q.record) ∧
      (Entries.find? k ms = none → k ∉ q.seen) := by
  have sets : ∀ change v p, Alters fields k change v → Means (g (change p)) v := by
    intro change v p alters
    have here := changes k change v p (alters_iff.mp alters)
    rwa [if_pos rfl] at here
  have keeps : ∀ j ≠ k, ∀ change v p, Alters fields j change v → g (change p) = g p := by
    intro j other change v p alters
    have here := changes j change v p (alters_iff.mp alters)
    rwa [if_neg other] at here
  obtain ⟨once, ⟨v, found, means⟩ | ⟨missing, kept, unseen⟩⟩ :=
    fills.given (mem_fieldNames_iff.mp known) sets keeps List.not_mem_nil
  · refine ⟨once, .inl ⟨v, found, means⟩, fun missing => ?_⟩
    rw [missing] at found
    cases found
  · exact ⟨once, .inr ⟨missing, kept⟩, fun _ => unseen⟩

/-- Members that fill a parameter describe it, and give no field twice. -/
theorem described_of_fills {p : Param} (fills : Fills fields (Alters fields) ⟨blank, []⟩ ms q)
    (finished : q.finish fields = .ok p) :
    (∀ name ∈ fieldNames, (ms.map (·.1)).count name ≤ 1) ∧ Described (Entries.find? · ms) p := by
  obtain ⟨rfl, seen⟩ := seen_of_finish finished
  obtain ⟨once, key, missing⟩ := given Param.key IsText (k := "key") (by decide)
    (fun _ _ _ _ sets => by cases sets <;> simp_all) fills
  obtain ⟨once', label, _⟩ := given Param.label IsText (k := "label") (by decide)
    (fun _ _ _ _ sets => by cases sets <;> simp_all) fills
  obtain ⟨once'', kind, _⟩ := given Param.kind NamesKind (k := "type") (by decide)
    (fun _ _ _ _ sets => by cases sets <;> simp_all) fills
  obtain ⟨once₃, value, _⟩ := given Param.value IsText (k := "value") (by decide)
    (fun _ _ _ _ sets => by cases sets <;> simp_all) fills
  obtain ⟨once₄, options, _⟩ := given Param.options IsTexts (k := "options") (by decide)
    (fun _ _ _ _ sets => by cases sets <;> simp_all) fills
  refine ⟨by simp [fieldNames, once, once', once'', once₃, once₄], ?_, label, kind, value, options⟩
  rcases key with ⟨v, found, rfl⟩ | ⟨none, _⟩
  · exact found
  · exact absurd (seen _ List.mem_cons_self rfl) (missing none)

/-! ## What is read -/

/-- Whatever is given to describe a parameter can be read. -/
theorem Described.exists_change {given : String → Option Json} {p : Param}
    (described : Described given p) (known : k ∈ fieldNames) (found : given k = some v) :
    ∃ change, Sets k change v := by
  have means {β : Type} {default x : β} {Means : β → Json → Prop}
      (gives : Gives (given k) default Means x) : Means x v := by
    rcases gives with ⟨w, found', means⟩ | ⟨missing, _⟩
    · obtain rfl : v = w := Option.some.inj (found.symm.trans found')
      exact means
    · rw [missing] at found
      cases found
  simp only [fieldNames, List.mem_cons, List.not_mem_nil, or_false] at known
  rcases known with rfl | rfl | rfl | rfl | rfl
  · exact ⟨_, .key rfl (Option.some.inj (found.symm.trans described.key))⟩
  · exact ⟨_, .label rfl (means described.label)⟩
  · exact ⟨_, .kind rfl (means described.kind)⟩
  · exact ⟨_, .value rfl (means described.value)⟩
  · exact ⟨_, .options rfl (means described.options)⟩

theorem ofValue_object_iff {p : Param} : decoder.ofValue (.object ms) = .ok p ↔
    (∀ name ∈ fieldNames, (ms.map (·.1)).count name ≤ 1) ∧ Described (Entries.find? · ms) p := by
  show (record "Param" fields blank).ofValue (.object ms) = .ok p ↔ _
  rw [record_object_iff]
  constructor
  · rintro ⟨q, fills, finished⟩
    exact described_of_fills fills finished
  · rintro ⟨once, described⟩
    obtain ⟨q, fills⟩ : ∃ q, Fills fields (Alters fields) ⟨blank, []⟩ ms q := by
      refine exists_fills (fun k known => once k (mem_fieldNames_iff.mpr known)) (by simp) ?_
      intro k f v known found
      obtain ⟨change, sets⟩ := described.exists_change
        (mem_fieldNames_iff.mpr (by simp [known])) found
      obtain ⟨f', known', read⟩ := alters_iff.mpr sets
      rw [known] at known'
      cases known'
      exact ⟨change, read⟩
    have there : "key" ∈ ms.map (·.1) := by
      by_contra missing
      have found := described.key
      rw [Entries.find?_eq_none_iff.mpr missing] at found
      cases found
    have seen := fills.mem_seen (mem_fieldNames_iff.mp (by decide)) (.inr there)
    have finished : q.finish fields = .ok q.record :=
      finish_of_seen (by simpa [fields, Field.needed, Field.optional] using seen)
    -- what has been read is described as the parameter is
    obtain rfl := (described_of_fills fills finished).2.unique described
    exact ⟨q, fills, finished⟩

/-- **A parameter is read from the values that are it**, and from no others. -/
theorem ofValue_iff {p : Param} : decoder.ofValue v = .ok p ↔ IsParam v p := by
  have listed {items : List Json} : decoder.ofValue (.array items) = .ok p ↔
      items.length ≤ fieldNames.length ∧
        decoder.ofValue (.object (fieldNames.zip items)) = .ok p :=
    record_list_iff (by decide)
  constructor
  · intro read
    cases v with
    | object ms =>
      obtain ⟨once, described⟩ := ofValue_object_iff.mp read
      exact ⟨ms, .inl rfl, once, described⟩
    | array items =>
      obtain ⟨short, read⟩ := listed.mp read
      obtain ⟨once, described⟩ := ofValue_object_iff.mp read
      exact ⟨_, .inr ⟨items, rfl, short, rfl⟩, once, described⟩
    | null => cases read
    | bool b => cases read
    | number n => cases read
    | string s => cases read
  · rintro ⟨ms, rfl | ⟨items, rfl, short, rfl⟩, once, described⟩
    · exact ofValue_object_iff.mpr ⟨once, described⟩
    · exact listed.mpr ⟨short, ofValue_object_iff.mpr ⟨once, described⟩⟩

end Param

end TriageDesk.Proposal
