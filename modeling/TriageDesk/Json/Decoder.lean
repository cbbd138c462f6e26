/-
TriageDesk.Json.Decoder — typed data from JSON, as a text or as a value.

A decoder reads data of one type from the two sources. From a text it reads
as it goes, so the first fault of the text is the one reported, with its
place; from a value it reports the first mismatch, objects being walked in
the order of their names.

A record may be written as an object, or as a list of its fields in their
order. Unknown members are passed over; a field that may be missing keeps
its default; a member given twice is refused. A choice of names may be
written as a string or as an object with that one name and null.
-/
import TriageDesk.Json.Reader

namespace TriageDesk.Json

open Text Reader

/-- How data of a type are read from a text and from a value. -/
structure Decoder (α : Type) where
  /-- Reads from a text in which so many brackets may still be opened. -/
  read : (room : Nat) → Reading α
  /-- Reads from a value. -/
  ofValue : Json → Except Mismatch α

namespace Decoder

variable {α β : Type}

/-! ## What was found instead -/

/-- The fault of a value that is not of the expected kind. A scalar is read
first, and a fault in it comes before. -/
def unexpected (expected : String) (s : Rest) : Fault :=
  match s with
  | [] => ⟨.endInValue, 0⟩
  | .char '[' :: _ => (Flaw.mismatch (.wrongType .sequence expected)).before s
  | .char '{' :: _ => (Flaw.mismatch (.wrongType .map expected)).before s
  | _ =>
    match value 0 s with
    | .error fault => fault
    | .ok (v, rest) => (Flaw.mismatch (.wrongType (found v) expected)).before rest

/-! ## Scalars -/

/-- Any value. -/
def any : Decoder Json where
  read := value
  ofValue v := .ok v

/-- A text, described as `expected` where it is missing. -/
def textAs (expected : String) : Decoder String where
  read _ s :=
    match skipBlanks s with
    | .char '"' :: rest => Reader.string rest
    | rest => .error (unexpected expected rest)
  ofValue
    | .string s => .ok s
    | v => .error (.wrongType (found v) expected)

/-- A text. -/
def text : Decoder String := textAs "a string"

/-- A truth value. -/
def bool : Decoder Bool where
  read _ s :=
    match skipBlanks s with
    | .char 't' :: rest => do return (true, ← literal ['r', 'u', 'e'] rest)
    | .char 'f' :: rest => do return (false, ← literal ['a', 'l', 's', 'e'] rest)
    | rest => .error (unexpected "a boolean" rest)
  ofValue
    | .bool b => .ok b
    | v => .error (.wrongType (found v) "a boolean")

/-- Null. -/
def unit : Decoder Unit where
  read _ s :=
    match skipBlanks s with
    | .char 'n' :: rest => do return ((), ← literal ['u', 'l', 'l'] rest)
    | rest => .error (unexpected "unit" rest)
  ofValue
    | .null => .ok ()
    | v => .error (.wrongType (found v) "unit")

/-! ## Data made of other data -/

/-- Data changed by a function. -/
def map (f : α → β) (d : Decoder α) : Decoder β where
  read room s := do
    let (a, rest) ← d.read room s
    return (f a, rest)
  ofValue v := (d.ofValue v).map f

/-- Data changed by a function that may refuse them. -/
def refine (d : Decoder α) (f : α → Except Mismatch β) : Decoder β where
  read room s := do
    let (a, rest) ← d.read room s
    match f a with
    | .ok b => return (b, rest)
    | .error m => throw ((Flaw.mismatch m).before rest)
  ofValue v := do f (← d.ofValue v)

/-- A list. -/
def list (d : Decoder α) : Decoder (List α) where
  read room s :=
    match skipBlanks s with
    | .char '[' :: rest =>
      match room with
      | 0 => .error (Flaw.tooDeep.at (.char '[' :: rest))
      | room + 1 => items (d.read room) rest.length true rest
    | rest => .error (unexpected "a sequence" rest)
  ofValue
    | .array vs => vs.mapM d.ofValue
    | v => .error (.wrongType (found v) "a sequence")

/-- A table; the last of a name stays. -/
def table (d : Decoder α) : Decoder (Table α) where
  read room s :=
    match skipBlanks s with
    | .char '{' :: rest =>
      match room with
      | 0 => .error (Flaw.tooDeep.at (.char '{' :: rest))
      | room + 1 => do
        let (ms, rest) ← members (d.read room) rest.length true rest
        return (Table.ofList ms, rest)
    | rest => .error (unexpected "a map" rest)
  ofValue
    | .object ms => do
      let es ← ms.mapM fun (k, v) => do return (k, ← d.ofValue v)
      return Table.ofList es
    | v => .error (.wrongType (found v) "a map")

/-! ## Choices -/

/-- The datum of a name among named ones. -/
def variantNamed (variants : List (String × α)) (name : String) : Except Mismatch α :=
  match variants.lookup name with
  | some a => .ok a
  | none => .error (.unknownVariant name (variants.map (·.1)))

/-- One of some named data. -/
def choice (variants : List (String × α)) : Decoder α where
  read room s :=
    let name := (textAs "variant identifier").refine (variantNamed variants)
    match skipBlanks s with
    | [] => .error ⟨.endInValue, 0⟩
    | .char '"' :: rest => name.read room (.char '"' :: rest)
    | .char '{' :: rest =>
      match room with
      | 0 => .error (Flaw.tooDeep.at (.char '{' :: rest))
      | room + 1 => do
        let (a, rest) ← name.read room rest
        let rest ← colon rest
        let ((), rest) ← unit.read room rest
        match skipBlanks rest with
        | .char '}' :: rest => return (a, rest)
        | [] => throw ⟨.endInObject, 0⟩
        | rest => throw (Flaw.expectedValue.before rest)
    | rest => .error (Flaw.expectedValue.at rest)
  ofValue
    | .string name => variantNamed variants name
    | .object [(name, v)] => do
      let a ← variantNamed variants name
      let () ← unit.ofValue v
      return a
    | .object _ => .error (.wrongValue .map "map with a single key")
    | v => .error (.wrongType (found v) "string or map")

/-! ## Records -/

/-- A field of a record: how it is read, as a change of the record. -/
structure Field (α : Type) where
  name : String
  required : Bool
  change : Decoder (α → α)

/-- A field that has to be there. -/
def Field.needed (name : String) (d : Decoder β) (set : β → α → α) : Field α :=
  ⟨name, true, d.map set⟩

/-- A field that may be missing. -/
def Field.optional (name : String) (d : Decoder β) (set : β → α → α) : Field α :=
  ⟨name, false, d.map set⟩

/-- A record with those of its fields that have been read. -/
structure Progress (α : Type) where
  record : α
  seen : List String

/-- The record, unless a field that has to be there is missing. -/
def Progress.finish (fields : List (Field α)) (p : Progress α) : Except Mismatch α :=
  match fields.find? fun f => f.required && !p.seen.contains f.name with
  | some f => .error (.missingField f.name)
  | none => .ok p.record

/-- Reads the members of a record. A mismatch of the record as a whole is kept
apart from faults of the text. -/
def readMembers (fields : List (Field α)) (room : Nat) :
    (fuel : Nat) → (first : Bool) → Progress α → Reading (Except Mismatch α)
  | 0, _, _, s => .error (Flaw.endInObject.before s)
  | fuel + 1, first, p, s => do
    match ← nextName first s with
    | (none, rest) => return (p.finish fields, rest)
    | (some k, rest) =>
      match fields.find? (·.name = k) with
      | none => do
        let rest ← skipValue (← colon rest)
        readMembers fields room fuel false p rest
      | some field =>
        if p.seen.contains k then return (.error (.duplicateField k), rest)
        else do
          let (change, rest) ← field.change.read room (← colon rest)
          readMembers fields room fuel false ⟨change p.record, k :: p.seen⟩ rest

/-- Reads the fields of a record from the items of a list, in their order. -/
def readFields (expected : String) (room : Nat) :
    (fields : List (Field α)) → (index : Nat) → (first : Bool) → α → Reading (Except Mismatch α)
  | [], _, _, record, s => .ok (.ok record, s)
  | field :: fields, index, first, record, s => do
    match ← nextItem first s with
    | (true, rest) =>
      let (change, rest) ← field.change.read room rest
      readFields expected room fields (index + 1) false (change record) rest
    | (false, rest) =>
      if field.required then return (.error (.wrongLength index expected), rest)
      else readFields expected room fields (index + 1) first record rest

/-- The end of a record: a mismatch of the record has its place where the
reading of the closing bracket ends. -/
def closeRecord (close : Rest → Except Fault Rest × Rest) :
    Except Mismatch α × Rest → Except Fault (α × Rest)
  | (.ok a, s) => do return (a, ← (close s).1)
  | (.error m, s) => .error ((Flaw.mismatch m).before (close s).2)

/-- How the fields of a record are counted in a message. -/
def shape (name : String) (count : Nat) : String :=
  let elements := if count = 1 then "element" else "elements"
  s!"struct {name} with {count} {elements}"

/-- Reads the fields of a record from the members of an object value. -/
def membersOfValue (fields : List (Field α)) :
    List (String × Json) → Progress α → Except Mismatch (Progress α)
  | [], p => .ok p
  | (k, v) :: rest, p =>
    match fields.find? (·.name = k) with
    | none => membersOfValue fields rest p
    | some field => do
      if p.seen.contains k then throw (.duplicateField k)
      let change ← field.change.ofValue v
      membersOfValue fields rest ⟨change p.record, k :: p.seen⟩

/-- Reads the fields of a record from the items of a list value. -/
def fieldsOfValue (expected : String) :
    List (Field α) → (index : Nat) → α → List Json → Except Mismatch (α × List Json)
  | [], _, record, rest => .ok (record, rest)
  | field :: fields, index, record, v :: rest => do
    let change ← field.change.ofValue v
    fieldsOfValue expected fields (index + 1) (change record) rest
  | field :: fields, index, record, [] =>
    if field.required then .error (.wrongLength index expected)
    else fieldsOfValue expected fields (index + 1) record []

/-- A record of a name, with its fields in order; `start` holds the defaults. -/
def record (name : String) (fields : List (Field α)) (start : α) : Decoder α where
  read room s :=
    match skipBlanks s with
    | .char '{' :: rest =>
      match room with
      | 0 => .error (Flaw.tooDeep.at (.char '{' :: rest))
      | room + 1 => do
        closeRecord closeObject (← readMembers fields room (rest.length + 1) true ⟨start, []⟩ rest)
    | .char '[' :: rest =>
      match room with
      | 0 => .error (Flaw.tooDeep.at (.char '[' :: rest))
      | room + 1 => do
        closeRecord closeList
          (← readFields (shape name fields.length) room fields 0 true start rest)
    | rest => .error (unexpected s!"struct {name}" rest)
  ofValue
    | .object ms => do (← membersOfValue fields ms ⟨start, []⟩).finish fields
    | .array vs => do
      match ← fieldsOfValue (shape name fields.length) fields 0 start vs with
      | (record, []) => return record
      | (_, _ :: _) => throw (.wrongLength vs.length "fewer elements in array")
    | v => .error (.wrongType (found v) s!"struct {name}")

/-! ## Whole texts -/

/-- Reads a whole text: one value, and blanks around it. -/
def ofRunes (d : Decoder α) (runes : List Rune) : Except Fault α := do
  let (a, rest) ← d.read maxDepth runes
  match skipBlanks rest with
  | [] => return a
  | rest => throw (Flaw.trailingCharacters.at rest)

/-- Reads a whole text; the fault is given in words. -/
def ofRunesWithMessage (d : Decoder α) (runes : List Rune) : Except String α :=
  (d.ofRunes runes).mapError fun fault => fault.message runes

/-- Reads a whole text; the fault is given in words. -/
def ofText (d : Decoder α) (s : String) : Except String α := d.ofRunesWithMessage (Rune.ofText s)

end Decoder

/-- Reads a value from a text. -/
def parse? (s : String) : Option Json := (Decoder.any.ofText s).toOption

end TriageDesk.Json
