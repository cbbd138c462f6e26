/-
TriageDesk.Config.Setting — settings from several sources, laid one over the
other.

A setting is a scalar, a list or a table of settings, and knows the source
that it comes from. Names of settings are in small letters. When a layer is
put over others its scalars and lists replace what is there, while its tables
are merged name by name.

Follows the values and paths of that library, on which `load_config` rests.
-/
import TriageDesk.Json.Value
import TriageDesk.Text.Lower
import TriageDesk.Text.Search

namespace TriageDesk.Config

open Decimal

/-! ## Settings -/

/-- A scalar setting. -/
inductive Scalar
  | nil
  | bool (b : Bool)
  | int (n : Int)
  | float (x : Binary64)
  | text (s : String)
deriving DecidableEq, Repr

/-- A setting with the source that it comes from, if that has a name. -/
inductive Setting
  | scalar (v : Scalar) (origin : Option String)
  | list (items : List Setting) (origin : Option String)
  | table (members : List (String × Setting)) (origin : Option String)

/-- Settings by name. -/
abbrev Settings := List (String × Setting)

namespace Setting

/-- The source that a setting comes from. -/
def origin : Setting → Option String
  | .scalar _ origin | .list _ origin | .table _ origin => origin

/-- A whole number as a scalar; beyond 64 bits with a sign it becomes the nearest
number of the binary format. -/
def ofInt (n : Int) : Scalar :=
  if n < Nat.pow 2 63 then .int n else .float (.ofFloat (Float.ofScientific n.toNat false 0))

mutual

/-- A value of a source as a setting. -/
def ofJson (origin : Option String) : Json → Setting
  | .null => .scalar .nil origin
  | .bool b => .scalar (.bool b) origin
  | .number (.int n) => .scalar (ofInt n) origin
  | .number (.float x) => .scalar (.float x) origin
  | .string s => .scalar (.text s) origin
  | .array items => .list (ofItems origin items) origin
  | .object members => .table (ofMembers origin members) origin

/-- The items of a list as settings. -/
def ofItems (origin : Option String) : List Json → List Setting
  | [] => []
  | v :: rest => ofJson origin v :: ofItems origin rest

/-- The members of an object as settings. -/
def ofMembers (origin : Option String) : List (String × Json) → Settings
  | [] => []
  | (k, v) :: rest => (k, ofJson origin v) :: ofMembers origin rest

end

/-! ## Layers -/

mutual

/-- A setting laid over an older one. An empty table leaves an older scalar or list as it
is. -/
def overlay (old : Option Setting) : Setting → Setting
  | .table members _ =>
    match old with
    | some (.table below _) => .table (overlayAll below members) none
    | some older => if members.isEmpty then older else .table (overlayAll [] members) none
    | none => .table (overlayAll [] members) none
  | setting => setting

/-- Settings laid over older ones, one after the other. -/
def overlayAll (old : Settings) : Settings → Settings
  | [] => old
  | (k, v) :: rest =>
    let name := Text.lower k
    overlayAll (Entries.insert name (overlay (Entries.find? name old) v) old) rest

end

/-- Whether a character may stand in a step of a way. -/
def isStepChar (c : Char) : Bool := c.isAlphanum || c = ' ' || c = '_' || c = '-'

/-- The way that a name stands for: its steps are joined by points. A name that does not
have this form is a single step. -/
def way (name : String) : List String :=
  let steps := Text.splitOn '.' name.toList
  if steps.all fun step => step ≠ [] && step.all isStepChar then steps.map String.ofList
  else [name]

/-- A setting at the end of a way. -/
def atEnd : List String → Setting → Setting
  | [], setting => setting
  | step :: rest, setting => .table [(step, atEnd rest setting)] none

/-- Settings with a layer over them. -/
def withLayer (settings layer : Settings) : Settings :=
  layer.foldl (fun settings (name, setting) =>
    match atEnd (way name) setting with
    | .table members _ => overlayAll settings members
    | _ => settings) settings

end Setting

end TriageDesk.Config
