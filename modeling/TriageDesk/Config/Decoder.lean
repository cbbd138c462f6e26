/-
TriageDesk.Config.Decoder — typed data from settings.

Scalars are turned into what is expected as far as that makes sense: texts
into numbers and truth values, numbers into texts, fractions into the nearest
whole number. A setting that does not fit is reported with the way to it and
the source that it comes from.

Follows what `load_config` and `from_toml_str` leave to the library of
settings: the conversion of settings to the fields of `AppConfig`.
-/
import TriageDesk.Config.Setting
import TriageDesk.Decimal.Layout
import TriageDesk.Decimal.Numeral
import TriageDesk.Text.Quoted

namespace TriageDesk.Config

open Decimal Text

/-! ## Failures -/

/-- Why there is no configuration. -/
inductive Failure
  /-- A source cannot be read. -/
  | unreadable
  /-- A setting is not what was expected. -/
  | mismatch (found expected : String) (way : Option String) (origin : Option String)
  /-- Anything else that is wrong with the settings. -/
  | other (reason : String)
deriving DecidableEq, Repr

/-- A failure in words. -/
def Failure.message : Failure → String
  | .unreadable => "the configuration cannot be read"
  | .mismatch found expected way origin =>
    let place := (way.map fun way => s!" for key `{way}`").getD ""
    let source := (origin.map fun origin => s!" in {origin}").getD ""
    s!"invalid type: {found}, expected {expected}" ++ place ++ source
  | .other reason => reason

/-- A failure, seen from one step further out. -/
def Failure.within (step : String) : Failure → Failure
  | .mismatch found expected way origin =>
    let rest := way.getD ""
    let dot := if startsWith ['['] rest.toList || rest = "" then "" else "."
    .mismatch found expected (some (step ++ dot ++ rest)) origin
  | f => f

/-- A failure, seen from outside of a list. -/
def Failure.withinItem (index : Nat) : Failure → Failure
  | .mismatch found expected way origin =>
    .mismatch found expected (some (s!"[{index}]" ++ way.getD "")) origin
  | f => f

/-! ## What was found -/

/-- Numbers in settings are written without an exponent and without a point that they do
not need. -/
def numberLayout : Layout := ⟨-400, 400, false, false, .toEven⟩

/-- A number as text. -/
def writeFloat (x : Binary64) : String :=
  if x.isFinite then String.ofList (numberLayout.write x)
  else if x.fractionField ≠ 0 then "NaN"
  else if x.isNegative then "-inf"
  else "inf"

/-- A scalar where something else was expected of a scalar. -/
def Scalar.describe : Scalar → String
  | .nil => "unit value"
  | .bool b => s!"boolean `{b}`"
  | .int n => s!"64-bit integer `{n}`"
  | .float x => s!"floating point `{writeFloat x}`"
  | .text s => s!"string {quoted s}"

/-- A setting where a scalar was expected. -/
def Setting.describe : Setting → String
  | .scalar v _ => v.describe
  | .list .. => "sequence"
  | .table .. => "map"

/-- A setting where a table or a list was expected. -/
def Setting.describeWhole : Setting → String
  | .scalar (.int n) _ => s!"integer `{n}`"
  | .scalar (.float x) _ =>
    let text := writeFloat x
    let point := if x.isFinite && !text.toList.contains '.' then ".0" else ""
    s!"floating point `{text}{point}`"
  | setting => setting.describe

/-! ## Scalars -/

/-- How data of a type are read from a setting. -/
abbrev Decoder (α : Type) := Setting → Except Failure α

/-- The failure of a setting where a scalar was expected. -/
def unexpected {α : Type} (expected : String) (s : Setting) : Except Failure α :=
  .error (.mismatch s.describe expected none s.origin)

/-- A text. -/
def text : Decoder String
  | .scalar (.text s) _ => .ok s
  | .scalar (.bool b) _ => .ok (toString b)
  | .scalar (.int n) _ => .ok (toString n)
  | .scalar (.float x) _ => .ok (writeFloat x)
  | s => unexpected "a string" s

/-- A truth value. -/
def truth : Decoder Bool
  | .scalar (.bool b) _ => .ok b
  | .scalar (.int n) _ => .ok (n ≠ 0)
  | .scalar (.float x) _ => .ok (!x.isZero)
  | .scalar (.text s) origin =>
    let word := lower s
    if ["1", "true", "on", "yes"].contains word then .ok true
    else if ["0", "false", "off", "no"].contains word then .ok false
    else .error (.mismatch s!"string {quoted word}" "a boolean" none origin)
  | s => unexpected "a boolean" s

/-- The natural number of decimal digits with or without a plus sign, if it has at most
64 bits. -/
def natural? (cs : List Char) : Option Nat :=
  let digits := (after? ['+'] cs).getD cs
  if digits ≠ [] ∧ digits.all Char.isDigit ∧ digitsValue digits < Nat.pow 2 64 then
    some (digitsValue digits)
  else none

/-- A natural number of at most 64 bits. -/
def natural : Decoder Nat
  | .scalar (.int n) origin =>
    if 0 ≤ n then .ok n.toNat
    else
      .error (.mismatch s!"64-bit integer `{n}`" "an unsigned 64 bit or less integer" none origin)
  | .scalar (.bool b) _ => .ok b.toNat
  | .scalar (.float x) _ => .ok x.toFloat.round.toUInt64.toNat
  | .scalar (.text s) origin =>
    let word := lower s
    if ["true", "on", "yes"].contains word then .ok 1
    else if ["false", "off", "no"].contains word then .ok 0
    else
      match natural? s.toList with
      | some n => .ok n
      | none => unexpected "an integer" (.scalar (.text s) origin)
  | s => unexpected "an integer" s

/-- A natural number of at most 16 bits. -/
def natural16 : Decoder Nat := fun s => do
  let n ← natural s
  if n < Nat.pow 2 16 then return n
  else
    throw (.mismatch s!"64-bit unsigned integer `{n}`" "an unsigned 16 bit integer" none s.origin)

/-- What may be set to nothing. -/
def option {α : Type} (d : Decoder α) : Decoder (Option α)
  | .scalar .nil _ => .ok none
  | s => (d s).map some

/-! ## Choices, tables and records -/

/-- One of some names, in letters of any size. It may stand alone or as the only name of
a table. -/
def choice {α : Type} (name : String) (variants : List (String × α)) : Decoder α := fun s => do
  let shape := s!"value of enum {name} should be represented by either string or table with exactly one key"
  let word ←
    match s with
    | .scalar (.text word) _ => pure word
    | .table [(word, _)] _ => pure word
    | _ => throw (.other shape)
  match variants.find? fun v => lower v.1 = lower word with
  | some (_, a) => return a
  | none => throw (.other s!"enum {name} does not have variant constructor {word}")

/-- The failure of a setting where a table or a list was expected. -/
def unexpectedWhole {α : Type} (expected : String) (s : Setting) : Except Failure α :=
  .error (.other s!"invalid type: {s.describeWhole}, expected {expected}")

/-- The members of a table, each read alike. -/
def members {α : Type} (d : Decoder α) : Settings → Except Failure (List (String × α))
  | [] => .ok []
  | (k, v) :: rest => do
    let a ← (d v).mapError (Failure.within k)
    return (k, a) :: (← members d rest)

/-- A table of data of one type. -/
def table {α : Type} (d : Decoder α) : Decoder (Table α)
  | .table ms _ => (members d ms).map Table.ofList
  | s => unexpectedWhole "a map" s

/-- A field of a record: how it is read, as a change of the record. -/
structure Field (α : Type) where
  name : String
  required : Bool
  change : Decoder (α → α)

/-- A field that has to be there. -/
def Field.needed {α β : Type} (name : String) (d : Decoder β) (set : β → α → α) : Field α :=
  ⟨name, true, fun s => (d s).map set⟩

/-- A field that may be missing. -/
def Field.optional {α β : Type} (name : String) (d : Decoder β) (set : β → α → α) : Field α :=
  ⟨name, false, fun s => (d s).map set⟩

/-- The fields of a record from a table; names that no field has are passed over. -/
def ofTable {α : Type} (fields : List (Field α)) : Settings → α → Except Failure α
  | [], a => .ok a
  | (k, v) :: rest, a =>
    match fields.find? (·.name = k) with
    | none => ofTable fields rest a
    | some field => do
      let change ← (field.change v).mapError (Failure.within k)
      ofTable fields rest (change a)

/-- The fields of a record from a list, in their order; what the list has beyond them is
passed over. -/
def ofList {α : Type} (shape : String) : (index : Nat) → List (Field α) → List Setting → α →
    Except Failure α
  | _, [], _, a => .ok a
  | index, field :: fields, [], a =>
    if field.required then .error (.other s!"invalid length {index}, expected {shape}")
    else ofList shape index fields [] a
  | index, field :: fields, v :: rest, a => do
    let change ← (field.change v).mapError (Failure.withinItem index)
    ofList shape (index + 1) fields rest (change a)

/-- A record of a name, from a table or a list; `start` holds the defaults. -/
def record {α : Type} (name : String) (fields : List (Field α)) (start : α) : Decoder α
  | .table ms _ => do
    let a ← ofTable fields ms start
    match fields.find? fun f => f.required && (Entries.find? f.name ms).isNone with
    | some f => throw (.other s!"missing field `{f.name}`")
    | none => return a
  | .list items _ =>
    ofList s!"struct {name} with {fields.length} elements" 0 fields items start
  | s => unexpectedWhole s!"struct {name}" s

end TriageDesk.Config
