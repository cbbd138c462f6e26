/-
TriageDesk.Proofs.Tool.Filing — a call files one proposal, or does nothing.

Everything is checked before anything is stored, so there are two ways a call may
end. `Refused` tells the calls that are refused and in which words, the first fault
counting. Any other call has a form (`IsForm`), and the proposal that is stored is
described by the call alone (`Describes`), up to its name and its moments.

Parameters are put in one after the other under their own keys, so the last of a
key stays (`parameters_stored`). Details mean the same as an object and as the
text of one, in whatever layout and order it is written (`DetailsLaws.formed`).
-/
import TriageDesk.Proofs.Json.Decoding
import TriageDesk.Proofs.Proposal.Shapes
import TriageDesk.Proofs.Table
import TriageDesk.Proofs.Text.Search
import TriageDesk.Proofs.Tool.Effects

namespace TriageDesk.Filing

open Text Json Proposal

/-! ## What a call says -/

/-- A text that has to be given is missing: there is no string under its name, or a blank one. -/
def Lacks (args : Json) (name : String) : Prop :=
  ∀ s, args.member? name = some (.string s) → allBlank s = true

/-- A list of parameters holds something that is none. -/
def Spoiled (args : Json) : Prop :=
  ∃ items, args.member? "parameters" = some (.array items) ∧ ∃ v ∈ items, ∀ p, ¬ Param.IsParam v p

/-- The words with which a call is refused: the first fault counts. -/
inductive Refused (args : Json) : String → Prop
  | kind (lacks : Lacks args "type") : Refused args "type is required"
  | title (there : ¬ Lacks args "type") (lacks : Lacks args "title") :
    Refused args "title is required"
  | parameter {before after : List Json} {v : Json} {m : Mismatch} (kind : ¬ Lacks args "type")
      (title : ¬ Lacks args "title")
      (listed : args.member? "parameters" = some (.array (before ++ v :: after)))
      (sound : ∀ u ∈ before, ∃ p, Param.IsParam u p) (spoils : ∀ p, ¬ Param.IsParam v p)
      (told : Param.decoder.ofValue v = .error m) :
    Refused args ("invalid parameter: " ++ m.message)

/-- The details that a call gives. -/
structure DetailsLaws (given : Option Json) (details : Table Json) : Prop where
  /-- As an object and as the text of one, in any layout and with its members in any order. -/
  formed : ∀ t w g, Fits Reader.maxDepth (.ofTable t) → Arranges w (.ofTable t) →
    given = some (.ofTable t) ∨ given = some (.string (String.ofList (writeWith g 0 w))) →
      details = t
  object : ∀ ms, given = some (.object ms) → details = Table.ofList ms
  parsed : ∀ s ms, given = some (.string s) → Json.parse? s = some (.object ms) →
    details = Table.ofList ms
  /-- Any other text is kept as it is. -/
  text : ∀ s, given = some (.string s) → s ≠ "" → (∀ ms, Json.parse? s ≠ some (.object ms)) →
    details = Table.ofList [("content", .string s)]
  /-- There are none where none are given, or an empty text, or any other value. -/
  absent : (∀ ms, given ≠ some (.object ms)) → (∀ s, given = some (.string s) → s = "") →
    details = ∅

/-- A proposal is what a call describes. -/
structure Describes (args : Json) (p : Proposal) : Prop where
  kind : ∃ s, args.member? "type" = some (.string s) ∧ p.kind = trimmed s
  title : ∃ s, args.member? "title" = some (.string s) ∧ p.title = trimmed s
  summary : p.summary = (args.textMember? "summary").getD ""
  status : p.status = .pending
  actions : p.actions =
    [.ofKind "确认" .accept, .ofKind "忽略" .ignore, .ofKind "修改参数" .modify]
  keyed : ∀ k param, p.parameters.get? k = some param → param.key = k
  /-- Of a list of parameters the last of a key stays. -/
  listed : ∀ items, args.member? "parameters" = some (.array items) →
    ∃ params, List.Forall₂ Param.IsParam items params ∧
      ∀ k, p.parameters.get? k = params.reverse.find? (·.key = k)
  /-- Names with values become parameters that are entered as text. -/
  named : (∀ items, args.member? "parameters" ≠ some (.array items)) → ∀ k, p.parameters.get? k =
    ((Parameters.ofJson? (args.member? "parameters")).get? k).map (Param.ofValue k)
  details : DetailsLaws (args.member? "details") p.details

/-- The second desk is the first with one more proposal, of which word is given. -/
structure Adds (d : Desk) (p : Proposal) (d' : Desk) : Prop where
  proposals : ∀ id, d'.store.get? id = if id = p.id then some p else d.store.get? id
  one : d.store.get? p.id = none → d'.store.proposals.size = d.store.proposals.size + 1
  told : d'.store.channel = d.store.channel.offer p
  supply : d'.supply = { d.supply with
    instantsDrawn := d.supply.instantsDrawn + 2
    namesDrawn := d.supply.namesDrawn + 1 }
  rest : d' = { d with store := d'.store, supply := d'.supply }

/-- What comes of a call. -/
structure FilingLaws (args : Json) (d : Desk) (done : Act.Done Desk Tool.Outcome) : Prop where
  refused : (∃ message, done.result = .returned 0 (.error message)) ↔
    Lacks args "type" ∨ Lacks args "title" ∨ Spoiled args
  worded : ∀ message, done.result = .returned 0 (.error message) → Refused args message
  unchanged : ∀ message, done.result = .returned 0 (.error message) →
    done.world = d ∧ done.events = []
  filed : (∀ message, done.result ≠ .returned 0 (.error message)) → ∃ p, Describes args p ∧
    p.id = d.supply.name d.supply.namesDrawn ∧
    done.result = .returned 0 (.ok ("Proposal created: id=" ++ p.id)) ∧ Adds d p done.world

/-! ## Reading the arguments -/

/-- A text that has to be given is missing, or it is given and read without the white space at its
ends. -/
theorem required_cases (args : Json) (name : String) :
    Lacks args name ∧ required args name = .error (.missing name) ∨
      ∃ s, args.member? name = some (.string s) ∧ allBlank s = false ∧
        required args name = .ok (trimmed s) := by
  cases text : args.textMember? name with
  | none =>
    refine .inl ⟨fun s found => ?_, by rw [required, text]; rfl⟩
    rw [textMember?_eq_some_iff.mpr found] at text
    cases text
  | some s =>
    have found := textMember?_eq_some_iff.mp text
    cases blank : allBlank s with
    | true =>
      refine .inl ⟨fun s' found' => ?_, ?_⟩
      · rw [found] at found'
        cases found'
        exact blank
      · rw [required, text, Option.map_some, trimmed_eq_empty_iff.mpr blank]
        rfl
    | false =>
      have solid : decide (trimmed s ≠ "") = true := by
        rw [decide_eq_true_iff, Ne, trimmed_eq_empty_iff, blank]
        exact Bool.false_ne_true
      refine .inr ⟨s, found, blank, ?_⟩
      rw [required, text, Option.map_some, Option.filter_some_pos (p := (· ≠ "")) solid]

theorem not_lacks {args : Json} {name s : String} (found : args.member? name = some (.string s))
    (solid : allBlank s = false) : ¬ Lacks args name := fun lacks => by
  have blank := lacks s found
  rw [solid] at blank
  cases blank

/-! ### Parameters -/

theorem parameters_list_iff {items : List Json} {params : List Param} :
    parameters (some (.array items)) = .ok params ↔ List.Forall₂ Param.IsParam items params := by
  show (items.mapM fun v => (Param.decoder.ofValue v).mapError Failure.badParameter) = .ok params ↔ _
  rw [mapM_eq_ok_iff]
  simp only [mapError_eq_ok_iff, Param.ofValue_iff]

/-- A list of parameters is refused for the first item that is none. -/
theorem parameters_list_error {items : List Json} {f : Failure}
    (failed : parameters (some (.array items)) = .error f) :
    ∃ before v after m, items = before ++ v :: after ∧ (∀ u ∈ before, ∃ p, Param.IsParam u p) ∧
      (∀ p, ¬ Param.IsParam v p) ∧ Param.decoder.ofValue v = .error m ∧ f = .badParameter m := by
  obtain ⟨before, v, after, rfl, sound, here⟩ := mapM_eq_error_iff.mp failed
  obtain ⟨m, told, rfl⟩ := mapError_eq_error_iff.mp here
  refine ⟨before, v, after, m, rfl, fun u among => ?_, fun p spoils => ?_, told, rfl⟩
  · obtain ⟨p, read⟩ := sound u among
    exact ⟨p, Param.ofValue_iff.mp (mapError_eq_ok_iff.mp read)⟩
  · rw [Param.ofValue_iff.mpr spoils] at told
    cases told

/-- Anything but a list gives parameters. -/
theorem parameters_named {given : Option Json} (other : ∀ items, given ≠ some (.array items)) :
    parameters given = .ok ((Parameters.ofJson? given).entries.map fun e => .ofValue e.1 e.2) := by
  unfold parameters
  split
  · exact absurd rfl (other _)
  · rfl

/-! ### Details -/

/-- An object means the same as every text of it. -/
theorem details_formed {t : Table Json} {w : Json} {g : Gaps} (fits : Fits Reader.maxDepth (.ofTable t))
    (arranges : Arranges w (.ofTable t)) :
    details (some (.ofTable t)) = t ∧
      details (some (.string (String.ofList (writeWith g 0 w)))) = t := by
  have same : Table.ofList t.entries = t := Table.ofList_of_perm (List.Perm.refl _)
  have read : Json.parse? (String.ofList (writeWith g 0 w)) = some (.ofTable t) := by
    rw [Json.parse?, (Decoder.decodes_any fits).ofText arranges g]
    rfl
  have nonempty : String.ofList (writeWith g 0 w) ≠ "" := by
    intro empty
    rw [empty] at read
    cases read
  refine ⟨same, ?_⟩
  rw [details, if_neg nonempty, read]
  exact same

theorem details_laws (given : Option Json) : DetailsLaws given (details given) where
  formed t w g fits arranges form := by
    obtain ⟨object, text⟩ := details_formed fits arranges (g := g)
    rcases form with rfl | rfl
    · exact object
    · exact text
  object ms found := by
    rw [found]
    rfl
  parsed s ms found read := by
    have nonempty : s ≠ "" := by
      rintro rfl
      cases read
    rw [found, details, if_neg nonempty, read]
    rfl
  text s found nonempty other := by
    have unread : (Json.parse? s).bind table? = none := by
      cases read : Json.parse? s with
      | none => rfl
      | some v =>
        cases v with
        | object ms => exact absurd read (other ms)
        | _ => rfl
    rw [found, details, if_neg nonempty, unread]
    rfl
  absent noObject noText := by
    unfold details
    split
    · exact absurd rfl (noObject _)
    · rw [if_pos (noText _ rfl)]
    · rfl

/-! ### The form -/

/-- A form is what a call says. -/
structure IsForm (args : Json) (form : Form) : Prop where
  kind : ∃ s, args.member? "type" = some (.string s) ∧ allBlank s = false ∧ form.kind = trimmed s
  title : ∃ s, args.member? "title" = some (.string s) ∧ allBlank s = false ∧
    form.title = trimmed s
  summary : form.summary = (args.textMember? "summary").getD ""
  details : form.details = Filing.details (args.member? "details")
  parameters : Filing.parameters (args.member? "parameters") = .ok form.parameters

/-- A call is refused, or it has a form. -/
theorem read_cases (args : Json) :
    (∃ f, Form.read args = .error f ∧ Refused args f.message) ∨
      ∃ form, Form.read args = .ok form ∧ IsForm args form := by
  unfold Form.read
  rcases required_cases args "type" with ⟨lacks, missing⟩ | ⟨kind, given, solid, read⟩
  · rw [missing]
    exact .inl ⟨_, rfl, .kind lacks⟩
  rw [read]
  rcases required_cases args "title" with ⟨lacks, missing⟩ | ⟨title, given', solid', read'⟩
  · rw [missing]
    exact .inl ⟨_, rfl, .title (not_lacks given solid) lacks⟩
  rw [read']
  cases entered : parameters (args.member? "parameters") with
  | ok params =>
    exact .inr ⟨_, rfl, ⟨kind, given, solid, rfl⟩, ⟨title, given', solid', rfl⟩, rfl, rfl, entered⟩
  | error f =>
    refine .inl ⟨f, rfl, ?_⟩
    by_cases list : ∃ items, args.member? "parameters" = some (.array items)
    · obtain ⟨items, listed⟩ := list
      rw [listed] at entered
      obtain ⟨before, v, after, m, rfl, sound, spoils, told, rfl⟩ := parameters_list_error entered
      exact .parameter (not_lacks given solid) (not_lacks given' solid') listed sound spoils told
    · rw [parameters_named fun items listed => list ⟨items, listed⟩] at entered
      cases entered

/-- A call that has a form is not refused. -/
theorem IsForm.accepted {args : Json} {form : Form} (h : IsForm args form) :
    ¬ (Lacks args "type" ∨ Lacks args "title" ∨ Spoiled args) := by
  obtain ⟨kind, given, solid, _⟩ := h.kind
  obtain ⟨title, given', solid', _⟩ := h.title
  rintro (lacks | lacks | ⟨items, listed, v, among, spoils⟩)
  · exact not_lacks given solid lacks
  · exact not_lacks given' solid' lacks
  · have entered := h.parameters
    rw [listed, parameters_list_iff] at entered
    obtain ⟨p, _, sound⟩ := exists_of_forall₂ entered among
    exact spoils p sound

theorem Refused.refusable {args : Json} {message : String} (h : Refused args message) :
    Lacks args "type" ∨ Lacks args "title" ∨ Spoiled args := by
  cases h with
  | kind lacks => exact .inl lacks
  | title _ lacks => exact .inr (.inl lacks)
  | parameter _ _ listed _ spoils _ =>
    exact .inr (.inr ⟨_, listed, _, List.mem_append_right _ List.mem_cons_self, spoils⟩)

/-! ## What is stored -/

theorem find?_keyed (params : List Param) (k : String) :
    Entries.find? k (params.map fun q => (q.key, q)) = params.find? (·.key = k) := by
  induction params with
  | nil => rfl
  | cons q rest ih =>
    rw [List.map_cons, Entries.find?, List.find?_cons, ih]
    by_cases same : k = q.key
    · simp [same]
    · simp [same, Ne.symm same]

/-- Of a key the last parameter stays. -/
theorem parameters_stored (form : Form) (s : Supply) (k : String) :
    (stored form s).parameters.get? k = form.parameters.reverse.find? (·.key = k) := by
  rw [stored_eq]
  show (Table.empty.insertAll _).get? k = _
  rw [Table.get?_insertAll_reverse, ← List.map_reverse, find?_keyed]
  exact Option.or_none

/-- The proposal that is stored is what the call describes. -/
theorem describes_stored {args : Json} {form : Form} (h : IsForm args form) (s : Supply) :
    Describes args (stored form s) where
  kind := by
    obtain ⟨kind, given, _, same⟩ := h.kind
    exact ⟨kind, given, by rw [stored_eq]; exact same⟩
  title := by
    obtain ⟨title, given, _, same⟩ := h.title
    exact ⟨title, given, by rw [stored_eq]; exact same⟩
  summary := by rw [stored_eq]; exact h.summary
  status := stored_status form s
  actions := stored_actions form s
  keyed k param found := by
    rw [parameters_stored] at found
    simpa using List.find?_some found
  listed items listed := by
    have entered := h.parameters
    rw [listed, parameters_list_iff] at entered
    exact ⟨form.parameters, entered, parameters_stored form s⟩
  named other k := by
    have entered := h.parameters
    rw [parameters_named other] at entered
    have table : (stored form s).parameters =
        (Parameters.ofJson? (args.member? "parameters")).mapWithKey Param.ofValue := by
      rw [stored_eq, ← Except.ok.inj entered, List.map_map]
      exact Table.ofList_of_perm (List.Perm.refl _)
    rw [table, Table.get?_mapWithKey]
  details := by
    rw [stored_eq]
    show DetailsLaws _ form.details
    rw [h.details]
    exact details_laws _

/-- A call that has a form adds its proposal, and does nothing else. -/
theorem adds_file {args : Json} {form : Form} (read : Form.read args = .ok form) (d : Desk) :
    Adds d (stored form d.supply) (file args d).world := by
  rw [file_world read]
  exact
    { proposals := fun id => Table.get?_insert _ _ _ id
      one := fun fresh => Table.size_insert fresh _
      told := rfl
      supply := rfl
      rest := rfl }

/-! ## Calls -/

/-- **A call files one proposal, which is what it describes, or it is refused and nothing
happens.** -/
theorem filing_laws (args : Json) (d : Desk) : FilingLaws args d (tool.run args d) := by
  have run : tool.run args d =
      ⟨.returned 0 (present (file args d).result), (file args d).world, (file args d).events⟩ := by
    simp [tool, Tool.atOnce]
  rw [run]
  rcases read_cases args with ⟨f, read, refused⟩ | ⟨form, read, isForm⟩
  · rw [file_unread read]
    have only (message : String) (told : Tool.Outcome.returned 0 (present (.error f)) =
        .returned 0 (.error message)) : message = f.message := by
      cases told
      rfl
    exact
      { refused := ⟨fun _ => refused.refusable, fun _ => ⟨f.message, rfl⟩⟩
        worded := fun message told => only message told ▸ refused
        unchanged := fun _ _ => ⟨rfl, rfl⟩
        filed := fun fine => absurd rfl (fine f.message) }
  · obtain ⟨result, _, _⟩ := file_read read d
    rw [result]
    have never (message : String) : Tool.Outcome.returned 0
        (present (.ok (stored form d.supply).id)) ≠ .returned 0 (.error message) :=
      fun told => by cases told
    exact
      { refused := ⟨fun ⟨message, told⟩ => absurd told (never message),
          fun bad => absurd bad isForm.accepted⟩
        worded := fun message told => absurd told (never message)
        unchanged := fun message told => absurd told (never message)
        filed := fun _ => ⟨stored form d.supply, describes_stored isForm d.supply,
          stored_id form d.supply, rfl, adds_file read d⟩ }

/-- One parameter of two is without a key, so that neither is stored, nor anything else. -/
example (d : Desk) : tool.run (.object [("parameters", .array [.array [.string "host"],
      .object [("label", .string "Host")]]), ("title", .string "t"), ("type", .string "risk")]) d =
    ⟨.returned 0 (.error "invalid parameter: missing field `key`"), d, []⟩ := rfl

end TriageDesk.Filing
