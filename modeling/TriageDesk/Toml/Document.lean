/-
TriageDesk.Toml.Document — what the lines of a TOML text add up to.

A table comes into being through a header of its own, on the way to a table
further in, or through a key with points. The first kind is complete once its
section ends; the second can still get a header; the third can be extended by
further keys with points. What is there stays: nothing is ever replaced.
-/
import TriageDesk.Json.Value

namespace TriageDesk.Toml

/-- How a table came into being. -/
inductive Origin
  /-- Through a header. -/
  | headed
  /-- On the way to a table further in. -/
  | implied
  /-- Through a key with points. -/
  | dotted
deriving DecidableEq, Repr

/-- A part of a document. -/
inductive Node
  /-- A value that is complete. -/
  | value (v : Json)
  | table (origin : Origin) (members : List (String × Node))
  /-- Tables under headers in double brackets. -/
  | tables (items : List (List (String × Node)))

/-- The members of a table. -/
abbrev Members := List (String × Node)

namespace Members

/-- Puts a value under a key with points. -/
def put (members : Members) (k : String) : List String → Json → Option Members
  | [], v =>
    match Entries.find? k members with
    | none => some (Entries.insert k (.value v) members)
    | some _ => none
  | k' :: path, v =>
    match Entries.find? k members with
    | none => (put [] k' path v).map fun inner => Entries.insert k (.table .dotted inner) members
    | some (.table .dotted inner) =>
      (put inner k' path v).map fun inner => Entries.insert k (.table .dotted inner) members
    | some (.table .implied inner) =>
      if path = [] then none
      else (put inner k' path v).map fun inner => Entries.insert k (.table .implied inner) members
    | some _ => none

/-- Changes the table at the end of a way. Tables on the way that are missing come into
being; of several tables under double brackets the last one counts. -/
def along (change : Members → Option Members) : List String → Members → Option Members
  | [], members => change members
  | k :: path, members =>
    match Entries.find? k members with
    | none =>
      (along change path []).map fun inner => Entries.insert k (.table .implied inner) members
    | some (.table origin inner) =>
      (along change path inner).map fun inner => Entries.insert k (.table origin inner) members
    | some (.tables items) =>
      match items.getLast? with
      | none => none
      | some inner =>
        (along change path inner).map fun inner =>
          Entries.insert k (.tables (items.dropLast ++ [inner])) members
    | some (.value _) => none

/-- Opens the table of a header. -/
def openTable (k : String) (members : Members) : Option Members :=
  match Entries.find? k members with
  | none => some (Entries.insert k (.table .headed []) members)
  | some (.table .implied inner) => some (Entries.insert k (.table .headed inner) members)
  | some _ => none

/-- Opens one more table of a header in double brackets. -/
def openItem (k : String) (members : Members) : Option Members :=
  match Entries.find? k members with
  | none => some (Entries.insert k (.tables [[]]) members)
  | some (.tables items) => some (Entries.insert k (.tables (items ++ [[]])) members)
  | some _ => none

/-- Does something with the last key of a way, in the table to which the others lead. -/
def atEnd (change : String → Members → Option Members) (path : List String) (members : Members) :
    Option Members :=
  match path.getLast? with
  | none => none
  | some k => along (change k) path.dropLast members

end Members

/-! ## The finished document -/

mutual

/-- A part of a document as a value. -/
def Node.toJson : Node → Json
  | .value v => v
  | .table _ members => .object (membersToJson members)
  | .tables items => .array (itemsToJson items)

/-- The members of a table as values. -/
def membersToJson : List (String × Node) → List (String × Json)
  | [] => []
  | (k, node) :: rest => (k, node.toJson) :: membersToJson rest

/-- Tables as values. -/
def itemsToJson : List (List (String × Node)) → List Json
  | [] => []
  | members :: rest => .object (membersToJson members) :: itemsToJson rest

end

end TriageDesk.Toml
