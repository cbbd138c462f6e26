/-
TriageDesk.Proofs.Tool.Forms — the tools ask the same, in whichever form the
parameters are given.

Text goes a way of its own through both tools, which fills a template from the
text and leaves it alone where there is nothing to fill in or to fill in with.
`fillFromText_eq` is the whole of the matter: the early exits are those at which
the filling would have changed nothing. So either tool reads its parameters by
one rule (`Query.resolveArguments_eq`, `Disposal.prepareArguments_eq`), and what
holds of the two ways of giving a table carries over to calls.
-/
import TriageDesk.Proofs.Parameters
import TriageDesk.Proofs.Template.Filling
import TriageDesk.Tool.Disposal
import TriageDesk.Tool.Query

namespace TriageDesk

open Text

/-! ## Filling from text -/

namespace Template

@[simp] theorem fillOne_nil (param : String × String) : fillOne [] param = [] := rfl

theorem fill_empty (params : Parameters) : fill "" params = "" := by
  have untouched : (fillOrder params).foldl fillOne [] = [] :=
    foldl_fillOne_eq_self fun e _ => fillOne_nil e
  rw [fill_eq, fillText, String.toList_empty, untouched]

theorem fill_without (template : String) : fill template ∅ = template := by
  have nothing : fillOrder ∅ = [] := List.mergeSort_nil
  rw [fill_eq, fillText, nothing, List.foldl_nil, String.ofList_toList]

/-- The early exits of filling from text make no difference. -/
theorem fillFromText_eq (template params : String) :
    fillFromText template params = fill template (Parameters.ofText params) := by
  rw [fillFromText]
  split_ifs with early
  · rcases early with rfl | blank
    · exact (fill_empty _).symm
    · have lacks {c : Char} (solid : isBlank c = false) : c ∉ params.toList :=
        Parameters.Blanks.notMem ⟨params.toList, blank⟩ solid
      rw [Parameters.ofText_plain (lacks (by decide)) (lacks (by decide)), fill_without]
  · rfl

end Template

/-! ## Calls -/

/-- Two calls that differ in the form of their parameters: the first gives a text, the second an
object. -/
structure Counterparts (text : String) (m : Parameters) (args args' : Json) : Prop where
  string : args.member? "params" = some (.string text)
  object : args'.member? "params" = some (.ofTexts m)
  others : ∀ name, name ≠ "params" → args'.member? name = args.member? name

theorem Counterparts.textMember? {text : String} {m : Parameters} {args args' : Json}
    (alike : Counterparts text m args args') {name : String} (other : name ≠ "params") :
    args'.textMember? name = args.textMember? name := by
  rw [Json.textMember?, alike.others name other, Json.textMember?]

namespace Query

/-- A query reads its parameters by one rule. -/
theorem resolveArguments_eq (q : Query) (args : Json) : q.resolveArguments args =
    q.resolve (args.textMember? "sql_id") (Parameters.ofJson? (args.member? "params"))
      (args.textMember? "raw_sql") := by
  rw [resolveArguments]
  split
  · next params given =>
    rw [given, resolve]
    exact congrArg _ (funext fun template => Template.fillFromText_eq template params)
  · rfl

/-- The tool works on nothing but the query that is asked for. -/
theorem run_congr (q : Query) {args args' : Json}
    (same : q.resolveArguments args' = q.resolveArguments args) :
    q.tool.run args' = q.tool.run args := by
  have executed : q.execute args' = q.execute args := by rw [execute, same, execute]
  simp only [tool, Tool.atOnce, executed]

end Query

namespace Disposal

/-- A disposal reads its parameters by one rule. -/
theorem prepareArguments_eq (d : Disposal) (args : Json) : d.prepareArguments args =
    match endpointId? args with
    | none => .error .nothingAsked
    | some id => (d.prepare id (Parameters.ofJson? (args.member? "params"))).map (id, ·) := by
  rw [prepareArguments]
  cases endpointId? args with
  | none => rfl
  | some id =>
    dsimp only
    split
    · next params given =>
      rw [given, prepare]
      have filled : (Template.fillFromText · params) =
          (Template.fill · (Parameters.ofJson? (some (.string params)))) :=
        funext fun template => Template.fillFromText_eq template params
      rw [filled]
    · rfl

/-- The tool works on nothing but the disposal that is asked for. -/
theorem run_congr (d : Disposal) {args args' : Json}
    (same : d.prepareArguments args' = d.prepareArguments args) :
    d.tool.run args' = d.tool.run args := by
  have executed : d.execute args' = d.execute args := by rw [execute, same, execute]
  simp only [tool, Tool.atOnce, executed]

end Disposal

/-! ## Both forms -/

/-- What a table comes to, given as text or as an object. -/
structure FormsLaws (m : Parameters) : Prop where
  /-- A text that writes the table gives the table. -/
  text : ∀ pieces, Parameters.Writes m pieces → Parameters.ofText (Parameters.written pieces) = m
  /-- So does its object. -/
  object : Parameters.ofJson? (some (.ofTexts m)) = m
  /-- A query is the one with that table, or the same failure, and the tool does the same. -/
  queries : ∀ (q : Query) pieces args args', Parameters.Writes m pieces →
    Counterparts (Parameters.written pieces) m args args' →
      q.resolveArguments args =
          q.resolve (args.textMember? "sql_id") m (args.textMember? "raw_sql") ∧
        q.resolveArguments args' = q.resolveArguments args ∧ q.tool.run args' = q.tool.run args
  /-- A disposal is the one with that table, or the same failure, and the tool does the same. -/
  disposals : ∀ (d : Disposal) pieces args args', Parameters.Writes m pieces →
    Counterparts (Parameters.written pieces) m args args' →
      (∀ id, Disposal.endpointId? args = some id →
          d.prepareArguments args = (d.prepare id m).map (id, ·)) ∧
        d.prepareArguments args' = d.prepareArguments args ∧ d.tool.run args' = d.tool.run args
  /-- Filling a template from any text is filling it with the parameters of that text. -/
  filling : ∀ template params, Template.fillFromText template params =
    Template.fill template (Parameters.ofJson? (some (.string params)))

section

variable {m : Parameters} {pieces : List Parameters.Piece} {args args' : Json}

theorem queries_agree (plain : Parameters.Plain m) (writes : Parameters.Writes m pieces)
    (alike : Counterparts (Parameters.written pieces) m args args') (q : Query) :
    q.resolveArguments args = q.resolve (args.textMember? "sql_id") m (args.textMember? "raw_sql") ∧
      q.resolveArguments args' = q.resolveArguments args := by
  have first : q.resolveArguments args =
      q.resolve (args.textMember? "sql_id") m (args.textMember? "raw_sql") := by
    rw [Query.resolveArguments_eq, alike.string, Parameters.ofJson?,
      Parameters.ofText_written plain writes]
  refine ⟨first, ?_⟩
  rw [first, Query.resolveArguments_eq, alike.object, Parameters.ofJson?_ofTexts plain,
    alike.textMember? (by decide), alike.textMember? (by decide)]

theorem disposals_agree (plain : Parameters.Plain m) (writes : Parameters.Writes m pieces)
    (alike : Counterparts (Parameters.written pieces) m args args') (d : Disposal) :
    (∀ id, Disposal.endpointId? args = some id →
        d.prepareArguments args = (d.prepare id m).map (id, ·)) ∧
      d.prepareArguments args' = d.prepareArguments args := by
  have given : Parameters.ofJson? (args.member? "params") = m := by
    rw [alike.string, Parameters.ofJson?, Parameters.ofText_written plain writes]
  have given' : Parameters.ofJson? (args'.member? "params") = m := by
    rw [alike.object, Parameters.ofJson?_ofTexts plain]
  have named : Disposal.endpointId? args' = Disposal.endpointId? args := by
    rw [Disposal.endpointId?, alike.textMember? (by decide), Disposal.endpointId?]
  constructor
  · intro id found
    rw [Disposal.prepareArguments_eq, found, given]
  · rw [Disposal.prepareArguments_eq, Disposal.prepareArguments_eq, given, given', named]

/-- Whatever can be written as text means the same as text and as an object, to both tools. -/
theorem forms_agree (plain : Parameters.Plain m) : FormsLaws m where
  text _ writes := Parameters.ofText_written plain writes
  object := Parameters.ofJson?_ofTexts plain
  queries q _ _ _ writes alike := by
    obtain ⟨first, same⟩ := queries_agree plain writes alike q
    exact ⟨first, same, q.run_congr same⟩
  disposals d _ _ _ writes alike := by
    obtain ⟨first, same⟩ := disposals_agree plain writes alike d
    exact ⟨first, same, d.run_congr same⟩
  filling := Template.fillFromText_eq

/-- A table with a blank inside a name, equals signs in a value and an empty value. -/
def crowded : Parameters :=
  ⟨[("a b", "c d"), ("host", "db=1=2"), ("note", "")], by unfold Entries.Ascending; decide⟩

/-- The table as text, in another order and with white space of several kinds. -/
def crowdedPieces : List Parameters.Piece :=
  [⟨⟨"note", ⟨[' '], by decide⟩, ⟨['\t'], by decide⟩⟩, ⟨"", ⟨['\u3000'], by decide⟩, ⟨[], by decide⟩⟩⟩,
    ⟨⟨"host", ⟨[], by decide⟩, ⟨['\u0085', ' '], by decide⟩⟩,
      ⟨"db=1=2", ⟨[], by decide⟩, ⟨['\n'], by decide⟩⟩⟩,
    ⟨⟨"a b", ⟨['\u2028'], by decide⟩, ⟨[' '], by decide⟩⟩,
      ⟨"c d", ⟨[' '], by decide⟩, ⟨[' '], by decide⟩⟩⟩]

theorem forms_agree_crowded : Parameters.Plain crowded ∧ FormsLaws crowded ∧
    Parameters.ofText (Parameters.written crowdedPieces) = crowded := by
  have plain : Parameters.Plain crowded := by decide
  have writes : Parameters.Writes crowded crowdedPieces := List.reverse_perm crowded.entries
  exact ⟨plain, forms_agree plain, (forms_agree plain).text crowdedPieces writes⟩

end

end TriageDesk
