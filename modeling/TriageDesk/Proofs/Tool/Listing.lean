/-
TriageDesk.Proofs.Tool.Listing — the model is told of the tools that can be run.

Tools are registered one after the other, and of two of one name the later one
counts: `IsLatest` says which tool that is without the registry. A registry is the
table of the tools under their names (`tools_ofTools`), so a look-up finds exactly
the latest tool of a name (`get?_ofTools_iff`).

The names, the descriptions, the schemas and the lines of the instructions are
views of one list of tools, `shown`, which has the latest tool of each name. A
call runs that tool, and a call of any other name runs none. `ListingLaws` collects
this and `ofTools_listingLaws` is the theorem.
-/
import TriageDesk.Agent.Engine
import TriageDesk.Proofs.Json.Arrangement
import TriageDesk.Proofs.Table

namespace TriageDesk.Registry

open Agent Json Text

variable {World : Type} {tools : List (Tool World)} {name : String} {t : Tool World}

/-! ## The latest tool of a name -/

/-- Of some tools, registered in their order, the last one of a name. -/
def IsLatest (tools : List (Tool World)) (name : String) (t : Tool World) : Prop :=
  ∃ earlier later, tools = earlier ++ t :: later ∧ t.name = name ∧ ∀ u ∈ later, u.name ≠ name

theorem tools_register (r : Registry World) (tools : List (Tool World)) :
    (tools.foldl register r).tools = r.tools.insertAll (tools.map fun t => (t.name, t)) := by
  induction tools generalizing r with
  | nil => rfl
  | cons t rest ih => exact ih (r.register t)

/-- A registry is the table of its tools under their names. -/
theorem tools_ofTools (tools : List (Tool World)) :
    (ofTools tools).tools = .ofList (tools.map fun t => (t.name, t)) :=
  tools_register empty tools

/-- **A look-up finds the latest tool of a name.** -/
theorem get?_ofTools_iff : (ofTools tools).get? name = some t ↔ IsLatest tools name t := by
  rw [get?, tools_ofTools, Table.get?_ofList, ← List.filterMap_eq_map,
    Entries.find?_filterMap_reverse]
  constructor
  · rintro ⟨earlier, x, later, cut, same, others⟩
    cases same
    exact ⟨earlier, later, cut, rfl, fun u among named => others u among u (by rw [← named]; rfl)⟩
  · rintro ⟨earlier, later, cut, rfl, others⟩
    exact ⟨earlier, t, later, cut, rfl, fun u among _ same =>
      others u among (Prod.mk.inj (Option.some.inj same)).1⟩

theorem mem_names_iff : name ∈ (ofTools tools).names ↔ ∃ t, IsLatest tools name t := by
  simp only [← get?_ofTools_iff]
  exact Table.mem_keys_iff

/-- A name is listed when some tool has been registered under it. -/
theorem exists_isLatest_iff : (∃ t, IsLatest tools name t) ↔ ∃ t ∈ tools, t.name = name := by
  simp only [← get?_ofTools_iff, get?, tools_ofTools, Table.get?_ofList]
  rw [← Option.isSome_iff_exists, Option.isSome_iff_ne_none, Ne, Entries.find?_eq_none_iff]
  simp

/-! ## What the model is told of a tool -/

/-- What the model is told of a tool. -/
def entry (t : Tool World) : Json :=
  .object [("description", .string t.description), ("name", .string t.name),
    ("parameters", t.parameters)]

theorem schemaOf_eq (t : Tool World) : schemaOf t = entry t := by
  simp only [schemaOf, entry, ofMembers, List.foldl_cons, List.foldl_nil, Entries.insert,
    String.reduceEq, String.reduceLT, if_true, if_false]

/-- The line of the instructions about a tool. -/
def line (t : Tool World) : String := "- " ++ t.name ++ ": " ++ t.description

/-- What the instructions say before the tools. -/
def opening : String := Engine.mission ++ "\n\nAvailable tools:\n"

/-- What the instructions say after the tools. -/
def closing : String :=
  "\n\n" ++
    "To call a tool, reply with exactly one JSON object: \x7b\"tool\": \"tool_name\", \"args\": \x7b...\x7d\x7d.\n" ++
    "After each call you will receive an observation. When the task is finished, reply with a plain-text summary."

/-- Whether a schema can be read back from a text: it has its members in order, whole numbers
of 64 bits, and room for the brackets around it. -/
def Readable (t : Tool World) : Prop := Sorted t.parameters ∧ Fits 125 t.parameters

theorem sorted_entry (readable : Readable t) : Sorted (entry t) := by
  have names : ["description", "name", "parameters"].Pairwise (· < ·) := by decide
  refine .object (List.pairwise_map (f := Prod.fst) |>.mp names) ?_
  simp only [List.forall_mem_cons, List.not_mem_nil, false_imp_iff, implies_true, and_true]
  exact ⟨.string _, .string _, readable.1⟩

theorem fits_entry (readable : Readable t) : Fits 126 (entry t) := by
  refine .object ?_
  simp only [List.forall_mem_cons, List.not_mem_nil, false_imp_iff, implies_true, and_true]
  exact ⟨.string _, .string _, readable.2⟩

/-- What the model is told of some tools is read back. -/
theorem parse?_entries {shown : List (Tool World)} (readable : ∀ t ∈ shown, Readable t) :
    parse? (Json.array (shown.map entry)).pretty = some (.array (shown.map entry)) := by
  have fits : Fits Reader.maxDepth (.array (shown.map entry)) :=
    .array (List.forall_mem_map.mpr fun t among => fits_entry (readable t among))
  have sorted : Sorted (.array (shown.map entry)) :=
    .array (List.forall_mem_map.mpr fun t among => sorted_entry (readable t among))
  rw [pretty, ← writeWith_lines, parse?_writeWith .lines fits, sorted.ordered_eq_self]

/-! ## The views -/

/-- The views of a registry are those of one list of tools: the latest tool of each name. -/
structure Shows (tools shown : List (Tool World)) : Prop where
  latest : List.Forall₂ (IsLatest tools) (ofTools tools).names shown
  descriptions : (ofTools tools).descriptions = shown.map fun t => (t.name, t.description)
  schemas : (ofTools tools).schemaText = (Json.array (shown.map entry)).pretty
  /-- The text of the schemas is read as what was written. -/
  schemasRead : (∀ t ∈ tools, Readable t) →
    parse? (ofTools tools).schemaText = some (.array (shown.map entry))
  instructions : ∀ e : Engine World, e.executor.registry = ofTools tools →
    e.systemPrompt = opening ++ joined "\n" (shown.map line) ++ closing

theorem shows_values (tools : List (Tool World)) : Shows tools (ofTools tools).tools.values := by
  have latest : ∀ e ∈ (ofTools tools).tools.entries, IsLatest tools e.1 e.2 := fun e among =>
    get?_ofTools_iff.mp ((Table.mem_entries_iff _ e.1 e.2).mp among)
  have named : ∀ e ∈ (ofTools tools).tools.entries, e.1 = e.2.name := fun e among => by
    obtain ⟨_, _, _, named, _⟩ := latest e among
    exact named.symm
  have schemas : (ofTools tools).schemaText =
      (Json.array ((ofTools tools).tools.values.map entry)).pretty := by
    rw [schemaText, funext schemaOf_eq]
  have described : (ofTools tools).descriptions =
      (ofTools tools).tools.values.map fun t => (t.name, t.description) := by
    rw [descriptions, Table.values, List.map_map]
    exact List.map_congr_left fun e among => congrArg (·, e.2.description) (named e among)
  refine ⟨?_, described, schemas, fun readable => ?_, fun e registered => ?_⟩
  · exact List.forall₂_map_left_iff.mpr
      (List.forall₂_map_right_iff.mpr (List.forall₂_same.mpr latest))
  · rw [schemas, parse?_entries]
    intro t shown
    obtain ⟨e, among, rfl⟩ := List.mem_map.mp shown
    obtain ⟨earlier, later, cut, -, -⟩ := latest e among
    exact readable e.2 (by rw [cut]; simp)
  · rw [Engine.systemPrompt, registered, described, List.map_map]
    show _ ++ _ ++ joined "\n" ((ofTools tools).tools.values.map line) ++ _ ++ _ ++ _ = _
    simp only [opening, closing, String.append_assoc]

/-! ## Calls -/

/-- The failure of a call that no tool takes. -/
def refusal (tools : List (Tool World)) (name : String) : String :=
  "Unknown tool: " ++ name ++ ". Available: " ++ joined ", " (ofTools tools).names

theorem run_latest (latest : IsLatest tools name t) (args : Json) :
    (ofTools tools).run name args = t.run args := by
  rw [run, get?_ofTools_iff.mpr latest]

theorem get?_unknown (missing : name ∉ (ofTools tools).names) : (ofTools tools).get? name = none :=
  Option.eq_none_iff_forall_ne_some.mpr fun t found =>
    missing (mem_names_iff.mpr ⟨t, get?_ofTools_iff.mp found⟩)

theorem run_unknown (missing : name ∉ (ofTools tools).names) (args : Json) (w : World) :
    (ofTools tools).run name args w = ⟨.returned 0 (.error (refusal tools name)), w, []⟩ := by
  rw [run, get?_unknown missing]
  rfl

/-- **What the model is told and what can be called.** -/
structure ListingLaws (tools : List (Tool World)) : Prop where
  ascending : (ofTools tools).names.Pairwise (· < ·)
  /-- The names are those of the tools that were registered. -/
  listed : ∀ name, name ∈ (ofTools tools).names ↔ ∃ t ∈ tools, t.name = name
  views : ∃ shown, Shows tools shown
  /-- A name that is listed calls the latest tool of that name, also through an executor. -/
  dispatch : ∀ name ∈ (ofTools tools).names, ∃ t, IsLatest tools name t ∧
    (ofTools tools).get? name = some t ∧
    (∀ args, (ofTools tools).run name args = t.run args) ∧
    ∀ x : Executor World, x.registry = ofTools tools → ∀ args,
      x.execute name args = t.run args >>= x.conclude name args
  /-- Any other name fails and runs nothing. -/
  unknown : ∀ name ∉ (ofTools tools).names, (ofTools tools).get? name = none ∧
    ∀ args w, (ofTools tools).run name args w =
        ⟨.returned 0 (.error (refusal tools name)), w, []⟩ ∧
      ∀ x : Executor World, x.registry = ofTools tools →
        (x.execute name args w).result = .error (.toolFailed (refusal tools name)) ∧
          (x.execute name args w).world = w

/-- **The model is told of exactly the tools that can be run.** -/
theorem ofTools_listingLaws (tools : List (Tool World)) : ListingLaws tools where
  ascending := List.pairwise_map.mpr (ofTools tools).tools.ascending
  listed _ := mem_names_iff.trans exists_isLatest_iff
  views := ⟨_, shows_values tools⟩
  dispatch name among := by
    obtain ⟨t, latest⟩ := mem_names_iff.mp among
    refine ⟨t, latest, get?_ofTools_iff.mpr latest, run_latest latest, fun x same args => ?_⟩
    rw [Executor.execute, same, run_latest latest]
  unknown name missing := by
    refine ⟨get?_unknown missing, fun args w => ⟨run_unknown missing args w, fun x same => ?_⟩⟩
    rw [Executor.execute, same, Act.bind_apply, run_unknown missing]
    exact ⟨rfl, rfl⟩

/-- A tool that takes the name of an earlier one. -/
example (run : Json → Act Unit Tool.Outcome) :
    (ofTools [⟨"b", "old", .null, run⟩, ⟨"a", "x", .null, run⟩, ⟨"b", "new", .null, run⟩]).descriptions =
      [("a", "x"), ("b", "new")] := by cbv

end TriageDesk.Registry
