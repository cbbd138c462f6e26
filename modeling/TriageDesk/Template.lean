/-
TriageDesk.Template — texts with placeholders, and their filling.

A parameter may be written in three ways: `{{.name}}`, `{{name}}` and
`$name`. Filling replaces the three spellings of one parameter after the
other, a longer name before a shorter one, so that `$hostname` is not taken
for `$host`. Names that no table gives are left as they stand.

Follows `substitute`, here `fill`, and `replace_params`, here `fillFromText`.
-/
import TriageDesk.Parameters

namespace TriageDesk.Template

open Text

/-! ## The order of filling -/

/-- Whether a parameter is filled in before another: the longer name first,
names of one length in their order. -/
def fillsBefore (a b : String × String) : Bool :=
  if a.1.utf8ByteSize = b.1.utf8ByteSize then decide (a.1 ≤ b.1)
  else decide (b.1.utf8ByteSize < a.1.utf8ByteSize)

/-- The parameters in the order of filling. -/
def fillOrder (params : Parameters) : List (String × String) :=
  params.entries.mergeSort fillsBefore

/-! ## Filling -/

/-- The three spellings of a placeholder. -/
def spellings (name : String) : List (List Char) :=
  ["\x7b\x7b.".toList ++ name.toList ++ "\x7d\x7d".toList,
   "\x7b\x7b".toList ++ name.toList ++ "\x7d\x7d".toList,
   '$' :: name.toList]

/-- A text with every spelling of one parameter replaced by its value. -/
def fillOne (text : List Char) (param : String × String) : List Char :=
  (spellings param.1).foldl (fun text word => replaceAll word param.2.toList text) text

/-- A template filled with parameters. -/
def fill (template : String) (params : Parameters) : String :=
  String.ofList ((fillOrder params).foldl fillOne template.toList)

/-- A template filled with the parameters of a text; a blank one changes
nothing. -/
def fillFromText (template params : String) : String :=
  if template = "" ∨ allBlank params then template
  else fill template (Parameters.ofText params)

end TriageDesk.Template
