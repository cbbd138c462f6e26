/-
TriageDesk.Proofs.Tool.Bodies — what the body of a disposal says.

Seven of the built-in endpoints have a body in which every placeholder is a
string of its own (`quotedBodies`). Their templates are the texts of documents
(`builtin_quoted`), and the body that is prepared from them is read as that
document with the values put in (`prepare_carries_values`), unless a value needs
an escape: filling adds none (`prepare_unescaped`).
-/
import TriageDesk.Catalog
import TriageDesk.Proofs.Json.Filling
import TriageDesk.Tool.Disposal

namespace TriageDesk

open Json Json.Reader Template

/-! ## Templates of documents -/

namespace Template

/-- The name of the parameter that a string stands for: what follows a dollar. -/
def hole? (s : String) : Option String :=
  match s.toList with
  | '$' :: name => some (String.ofList name)
  | _ => none

/-- A string, or the value of the parameter it stands for. -/
def putIn (params : Parameters) (s : String) : String :=
  match hole? s with
  | some name => (params.get? name).getD s
  | none => s

/-- A document in which every placeholder is a string of its own and nothing needs an
escape. -/
structure Quoted (document : Json) : Prop where
  fits : Fits maxDepth document
  plain : ∀ s ∈ document.strings, ∀ c ∈ s.toList, Plain c
  unbraced : ∀ s ∈ document.strings, '{' ∉ s.toList
  whole : ∀ s ∈ document.strings, '$' ∉ s.toList.tail

/-- A table that gives a value to each placeholder of a document. -/
def Gives (params : Parameters) (document : Json) : Prop :=
  ∀ s ∈ document.strings, ∀ name ∈ hole? s, (params.get? name).isSome = true

instance (params : Parameters) (document : Json) : Decidable (Gives params document) :=
  inferInstanceAs (Decidable (∀ s ∈ document.strings, ∀ name ∈ hole? s, _))

/-- A table whose names have no quote and whose values need no escape and begin no
placeholder. -/
structure Tame (params : Parameters) : Prop where
  quoteless : ∀ e ∈ params.entries, '"' ∉ e.1.toList
  plain : ∀ e ∈ params.entries, ∀ c ∈ e.2.toList, Plain c
  unmarked : ∀ e ∈ params.entries, '$' ∉ e.2.toList ∧ '{' ∉ e.2.toList

/-- Filling a string puts in the value it stands for. -/
theorem onString_fillText {params : Parameters} (tame : Tame params) {s : String}
    (noBrace : '{' ∉ s.toList) (whole : '$' ∉ s.toList.tail)
    (given : ∀ name ∈ hole? s, (params.get? name).isSome = true) :
    onString (fillText params) s = putIn params s := by
  by_cases dollar : ∃ name, s.toList = '$' :: name
  · obtain ⟨name, text⟩ := dollar
    have hole : hole? s = some (String.ofList name) := by
      rw [hole?, text]
      rfl
    obtain ⟨value, found⟩ := Option.isSome_iff_exists.mp (given _ hole)
    have unmarked := tame.unmarked _ ((params.mem_entries_iff _ value).mpr found)
    rw [text, List.tail_cons] at whole
    rw [text, List.mem_cons, not_or] at noBrace
    have filled := fillText_hole found (by rwa [String.toList_ofList])
      (by rw [String.toList_ofList]; exact noBrace.2) unmarked.1 unmarked.2
    rw [String.toList_ofList] at filled
    rw [onString, text, filled, String.ofList_toList, putIn, hole]
    simp [found]
  · have noHole : hole? s = none := by
      unfold hole?
      split
      · next name text => exact absurd ⟨name, text⟩ dollar
      · rfl
    have noDollar : '$' ∉ s.toList := by
      cases text : s.toList with
      | nil => simp
      | cons c cs =>
        rw [text, List.tail_cons] at whole
        rw [List.mem_cons, not_or]
        exact ⟨fun same => dollar ⟨cs, same ▸ text⟩, whole⟩
    rw [onString, fillText_plain params noDollar noBrace, String.ofList_toList, putIn, noHole]

/-- **A filled template is read as its document with the values put in.** -/
theorem parse?_fill (g : Gaps) {document : Json} (quoted : Quoted document) {params : Parameters}
    (gives : Gives params document) (tame : Tame params) :
    parse? (fill (String.ofList (writeWith g 0 document)) params) =
      some (document.mapStrings (putIn params)).ordered := by
  have filled := fill_writeWith g 0 quoted.fits quoted.plain tame.quoteless tame.plain
  have values : document.mapStrings (onString (fillText params)) =
      document.mapStrings (putIn params) :=
    mapStrings_congr document fun s among => onString_fillText tame
      (quoted.unbraced s among) (quoted.whole s among) (gives s among)
  rw [filled, values, parse?_writeWith g (quoted.fits.mapStrings _)]

end Template

/-! ## The built-in bodies -/

namespace Disposal

/-- The document that names a risk. -/
def riskDocument : Json :=
  .array [.object [("content", .string "$content"), ("host", .string "$host"),
    ("risk", .string "$risk"), ("note", .string "$note")]]

/-- The document that tags a weakness. -/
def weakDocument (tag : String) : Json :=
  .object [("tag", .string tag),
    ("apiWeakMgts", .array [.object [("defectId", .string "$weak_name"), ("host", .string "$host"),
      ("method", .string "$method"), ("url", .string "$url")]]),
    ("message", .string "$note")]

/-- The document that keeps the analysis of an interface. -/
def analysisDocument : Json :=
  .object [("host", .string "$host"), ("method", .string "$method"), ("path", .string "$path"),
    ("biz_analysis", .string "$biz_analysis"),
    ("importance_analysis", .string "$importance_analysis"),
    ("param_analysis", .string "$param_analysis"), ("importance", .string "$importance"),
    ("skip_if_exist", .bool true)]

/-- The document of a new application. -/
def newAppDocument : Json :=
  .object [("name", .string "$app_name"), ("domainList", .array [.string "$host"]),
    ("urlPrefix", .string "/"), ("isMirror", .bool true), ("desc", .string "$app_desc")]

/-- The document that describes an application anew. -/
def appDocument : Json := .object [("desc", .string "$app_desc")]

/-- The built-in endpoints whose placeholders all stand in quotes, with their bodies as
documents. -/
def quotedBodies : List (String × Json) := [
  ("confirm_risk", riskDocument),
  ("ignore_risk", riskDocument),
  ("confirm_weak", weakDocument "todo"),
  ("ignore_weak", weakDocument "ignore"),
  ("save_api_analysis", analysisDocument),
  ("create_app", newAppDocument),
  ("update_app", appDocument)]

/-- An object of strings fits. -/
theorem fits_strings {room : Nat} {members : List (String × Json)}
    (strings : ∀ e ∈ members, ∃ s, e.2 = .string s) : Fits (room + 1) (.object members) := by
  refine .object fun e among => ?_
  obtain ⟨s, same⟩ := strings e among
  exact same ▸ .string s

theorem quoted_riskDocument : Quoted riskDocument where
  fits := by
    refine .array fun v among => ?_
    obtain rfl := List.mem_singleton.mp among
    exact fits_strings (by simp)
  plain := plain_texts_of_all (by decide)
  unbraced := by decide
  whole := by decide

theorem fits_weakDocument (tag : String) : Fits maxDepth (weakDocument tag) := by
  refine .object fun e among => ?_
  simp only [List.mem_cons, List.not_mem_nil, or_false] at among
  rcases among with rfl | rfl | rfl
  · exact .string tag
  · refine .array fun v among => ?_
    obtain rfl := List.mem_singleton.mp among
    exact fits_strings (by simp)
  · exact .string _

theorem quoted_weakDocument_todo : Quoted (weakDocument "todo") where
  fits := fits_weakDocument "todo"
  plain := plain_texts_of_all (by decide)
  unbraced := by decide
  whole := by decide

theorem quoted_weakDocument_ignore : Quoted (weakDocument "ignore") where
  fits := fits_weakDocument "ignore"
  plain := plain_texts_of_all (by decide)
  unbraced := by decide
  whole := by decide

theorem quoted_analysisDocument : Quoted analysisDocument where
  fits := by
    refine .object fun e among => ?_
    simp only [List.mem_cons, List.not_mem_nil, or_false] at among
    rcases among with rfl | rfl | rfl | rfl | rfl | rfl | rfl | rfl
    all_goals constructor
  plain := plain_texts_of_all (by decide)
  unbraced := by decide
  whole := by decide

theorem quoted_newAppDocument : Quoted newAppDocument where
  fits := by
    refine .object fun e among => ?_
    simp only [List.mem_cons, List.not_mem_nil, or_false] at among
    rcases among with rfl | rfl | rfl | rfl | rfl
    case inr.inl =>
      refine .array fun v among => ?_
      obtain rfl := List.mem_singleton.mp among
      exact .string _
    all_goals constructor
  plain := plain_texts_of_all (by decide)
  unbraced := by decide
  whole := by decide

theorem quoted_appDocument : Quoted appDocument where
  fits := fits_strings (by simp)
  plain := plain_texts_of_all (by decide)
  unbraced := by decide
  whole := by decide

set_option maxRecDepth 2000 in
/-- The template of each of these endpoints is the text of its document. -/
theorem builtin_quoted : ∀ entry ∈ quotedBodies, Quoted entry.2 ∧
    ∃ e, Catalog.builtinEndpoints.get? entry.1 = some e ∧ Endpoint.isToken e.methodName = true ∧
      e.body = String.ofList (writeWith .spaces 0 entry.2) := by
  simp only [quotedBodies, List.forall_mem_cons, List.not_mem_nil, false_imp_iff, implies_true,
    and_true]
  exact ⟨⟨quoted_riskDocument, _, rfl, rfl, rfl⟩,
    ⟨quoted_riskDocument, _, rfl, rfl, rfl⟩,
    ⟨quoted_weakDocument_todo, _, rfl, rfl, rfl⟩,
    ⟨quoted_weakDocument_ignore, _, rfl, rfl, rfl⟩,
    ⟨quoted_analysisDocument, _, rfl, rfl, rfl⟩,
    ⟨quoted_newAppDocument, _, rfl, rfl, rfl⟩,
    ⟨quoted_appDocument, _, rfl, rfl, rfl⟩⟩

/-- **The body of a disposal carries the given values.** It is read as the document of its
endpoint with the value of each parameter in the place of its placeholder, and nothing else
changed. The values are texts that need no escape. -/
theorem prepare_carries_values (d : Disposal) {id : String} {document : Json}
    (builtin : (id, document) ∈ quotedBodies)
    (kept : d.endpoints.get? id = Catalog.builtinEndpoints.get? id) {params : Parameters}
    (gives : Gives params document) (tame : Tame params) :
    ∃ prepared body, d.prepare id params = .ok prepared ∧ prepared.body = some body ∧
      parse? body = some (document.mapStrings (putIn params)).ordered := by
  obtain ⟨quoted, e, found, token, template⟩ := builtin_quoted _ builtin
  have nonempty : e.body ≠ "" := by
    intro empty
    obtain ⟨c, cs, text, _⟩ := begins_writeWith .spaces 0 quoted.fits
    rw [template, text] at empty
    exact absurd (congrArg String.toList empty) (by simp)
  have prepared : d.prepare id params = .ok
      { method := e.methodName
        url := d.baseUrl ++ fill e.path params
        body := some (fill e.body params) } := by
    rw [prepare, prepareWith, kept, found]
    simp only [token, if_true]
    rw [if_neg nonempty]
  refine ⟨_, _, prepared, rfl, ?_⟩
  rw [template]
  exact parse?_fill .spaces quoted gives tame

/-- Parameters of a weakness, with a name that begins another one and an empty name. -/
def injection : Parameters := Table.ofList [("weak_name", "SQL 注入"), ("host", "a.com"),
  ("hostname", "b.com"), ("ho", "c.com"), ("", "d.com"), ("method", "POST"),
  ("url", "/login?id=1' OR '1'='1&x=<%>"), ("note", "")]

/-- The body for an injection of SQL. -/
theorem prepare_carries_injection : Gives injection (weakDocument "todo") ∧ Tame injection ∧
    ∃ prepared body,
      (ofServer Catalog.builtinEndpoints "" "").prepare "confirm_weak" injection = .ok prepared ∧
      prepared.body = some body ∧ parse? body = some (.object [
        ("apiWeakMgts", .array [.object [("defectId", .string "SQL 注入"), ("host", .string "a.com"),
          ("method", .string "POST"), ("url", .string "/login?id=1' OR '1'='1&x=<%>")]]),
        ("message", .string ""), ("tag", .string "todo")]) := by
  have gives : Gives injection (weakDocument "todo") := by decide
  have tame : Tame injection :=
    ⟨by decide, fun e among => plain_of_all (by revert e; decide), by decide⟩
  have builtin : ("confirm_weak", weakDocument "todo") ∈ quotedBodies := by simp [quotedBodies]
  exact ⟨gives, tame, prepare_carries_values _ builtin rfl gives tame⟩

/-- The parameters that describe an application. -/
def describing (text : String) : Parameters := Table.ofList [("app_id", "1"), ("app_desc", text)]

/-- A value with quotes, although it begins no placeholder: the body that carries it is no text
of JSON. -/
theorem prepare_unescaped : Gives (describing "say \"hi\"") appDocument ∧
    (∀ e ∈ (describing "say \"hi\"").entries,
      '$' ∉ e.2.toList ∧ '{' ∉ e.2.toList ∧ '}' ∉ e.2.toList) ∧
      ∃ prepared body, (ofServer Catalog.builtinEndpoints "" "").prepare "update_app"
          (describing "say \"hi\"") = .ok prepared ∧
        prepared.body = some body ∧ parse? body = none := by
  refine ⟨by decide, by decide, _, _, rfl, rfl, ?_⟩
  have order : fillOrder (describing "say \"hi\"") = (describing "say \"hi\"").entries :=
    fillOrder_eq_entries (by decide)
  show parse? (fill "\x7b\"desc\": \"$app_desc\"\x7d" _) = none
  rw [fill, order]
  rfl

end Disposal

end TriageDesk
