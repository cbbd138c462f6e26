/-
TriageDesk.Config.Sources — where the configuration comes from.

The first of the usual files that exists is the lowest layer. A file that is
named explicitly lies over it, if it exists, and the environment over both. In
the environment a variable whose name begins with `SECOPS__` is a setting; two
underscores separate the steps of the way to it. Its value is a truth value or
a number if it reads as one.

A file is looked for by its name without the ending: a file of just that name
goes before, whatever it is, and endings of several formats are tried. So what
exists and what is read need not be the same file.

Follows `load_config`, here `Host.load`, and `from_toml_str`, here `ofToml`.
-/
import TriageDesk.Config.Basic
import TriageDesk.Toml.Reader

namespace TriageDesk.Config

open Text

/-! ## Files -/

/-- The formats of files. -/
inductive Format
  | toml
  | json
  | yaml
  | ini
  | ron
  | json5
deriving DecidableEq, Repr

/-- All formats. -/
def Format.all : List Format := [.toml, .json, .yaml, .ini, .ron, .json5]

/-- What the names of files of a format end in. -/
def Format.endings : Format → List String
  | .toml => ["toml"]
  | .json => ["json"]
  | .yaml => ["yaml", "yml"]
  | .ini => ["ini"]
  | .ron => ["ron"]
  | .json5 => ["json5"]

/-- What follows the last point of a file's name, if there is anything before it. -/
def extension? (path : String) : Option (List Char) :=
  let name := ((splitOn '/' path.toList).getLast?).getD []
  match name.reverse.dropWhile (· ≠ '.') with
  | [] | ['.'] => none
  | _ => some (name.reverse.takeWhile (· ≠ '.')).reverse

/-- The format of a file, if it is a known one. -/
def Format.ofPath? (path : String) : Option Format :=
  (extension? path).bind fun ending =>
    all.find? fun format => format.endings.contains (String.ofList ending)

/-- A path without the steps that lead nowhere. -/
def plainPath (path : String) : String :=
  let steps := (splitOn '/' path.toList).filter fun step => step ≠ [] && step ≠ ['.']
  String.ofList (join ['/'] steps)

/-- The characters of a path, from behind, without the steps at its end that lead nowhere. -/
def withoutTail : List Char → List Char
  | '/' :: rest => withoutTail rest
  | '.' :: '/' :: rest => withoutTail rest
  | cs => cs

/-- A path with an ending behind its last name, if it ends in a name. -/
def withEnding (path ending : String) : String :=
  let bare := (withoutTail path.toList.reverse).reverse
  match (splitOn '/' bare).getLast? with
  | none | some [] | some ['.'] | some ['.', '.'] => path
  | some _ => String.ofList bare ++ "." ++ ending

/-- What there is at a path. -/
inductive Entry
  | text (content : String)
  /-- A file that is no text, or one that may not be read. -/
  | unreadable
  | directory
deriving DecidableEq, Repr

/-- Where files are looked for. -/
structure Host where
  /-- What there is at a path, if there is anything. -/
  at? : String → Option Entry
  /-- The formats in the order in which their endings are tried; no order is promised. -/
  tried : List Format
  /-- Reads the formats that are not read here. -/
  foreign : Format → String → Option (List (String × Json))

namespace Host

variable (h : Host)

/-- A host of which only the texts of files are known. -/
def ofFiles (file : String → Option String) : Host :=
  ⟨fun path => (file path).map .text, Format.all, fun _ _ => some []⟩

/-- Whether there is anything at a path. -/
def has (path : String) : Bool := (h.at? path).isSome

/-- Whether there is a file at a path. -/
def isFile (path : String) : Bool :=
  match h.at? path with
  | some (.text _) | some .unreadable => true
  | some .directory | none => false

/-- The endings of files, in the order in which they are tried. -/
def endings : List String := h.tried.flatMap Format.endings

/-- Where the file of a name is: at the name itself, or at the first of the endings behind it
at which there is one. -/
def found? (name : String) : Option String :=
  if h.isFile name then some name else (h.endings.map (withEnding name)).find? h.isFile

/-- The members of the table in a text. -/
def read? (format : Format) (content : String) : Option (List (String × Json)) :=
  match format with
  | .toml => Toml.parse? content
  | .json =>
    match Json.parse? content with
    | some (.object members) => some members
    | _ => none
  | format => h.foreign format content

end Host

/-- The settings of a table that was read from a source, if it could be read. -/
def layerOf (origin : Option String) : Option (List (String × Json)) → Except Failure Settings
  | some members => .ok (Setting.ofMembers origin members)
  | none => .error .unreadable

/-- The settings of the file at a path. One without a text, or of an unknown format, has none. -/
def Host.fileLayer (h : Host) (path : String) : Except Failure Settings :=
  match Format.ofPath? path, h.at? path with
  | some format, some (.text content) =>
    layerOf (some (plainPath path)) (h.read? format content)
  | _, _ => .ok []

/-- The settings of the file of a name. -/
def Host.namedLayer (h : Host) (name : String) : Except Failure Settings :=
  match h.found? name with
  | some path => h.fileLayer path
  | none => .ok []

/-! ## The environment -/

/-- What the names of variables that are settings begin with, in small letters. -/
def variableStart : List Char := "secops__".toList

/-- The source of the settings in the environment. -/
def environmentOrigin : String := "the environment"

/-- The whole number of a text, if it has at most 64 bits with a sign. -/
def integer? (cs : List Char) : Option Int :=
  let (negative, digits) := Decimal.takeSign cs
  if digits ≠ [] ∧ digits.all Char.isDigit then
    Toml.fitting? (if negative then -(Decimal.digitsValue digits : Int) else Decimal.digitsValue digits)
  else none

/-- The value of a variable. -/
def Scalar.ofText (s : String) : Scalar :=
  let word := lower s
  if word = "true" then .bool true
  else if word = "false" then .bool false
  else
    match integer? s.toList, Decimal.numeral? s.toList with
    | some n, _ => .int n
    | none, some x => .float x
    | none, none => .text s

/-- The setting of a variable, if it is one. -/
def settingOf? (entry : String × String) : Option (String × Setting) :=
  (after? variableStart (lower entry.1).toList).map fun rest =>
    (String.ofList (replaceAll ['_', '_'] ['.'] rest),
      .scalar (.ofText entry.2) (some environmentOrigin))

/-- The settings in an environment. -/
def environmentLayer (environment : Table String) : Settings :=
  environment.entries.filterMap settingOf?

/-! ## Loading -/

/-- The names of the usual files. -/
def usualNames : List String := ["config/default", "../config/default", "default"]

/-- The file that tells whether a usual name counts; the first one counts that exists. -/
def usualFile (name : String) : String := name ++ ".toml"

/-- The usual files. -/
def usualFiles : List String := usualNames.map usualFile

/-- The first of the usual names that counts. -/
def Host.first? (h : Host) : Option String := usualNames.find? fun name => h.has (usualFile name)

/-- The lowest layer. -/
def Host.usualLayer (h : Host) : Except Failure Settings :=
  match h.first? with
  | some name => h.namedLayer name
  | none => .ok []

/-- The layer of the file that was named, if it exists. -/
def Host.givenLayer (h : Host) : (path : Option String) → Except Failure Settings
  | some path => if h.has path then h.namedLayer path else .ok []
  | none => .ok []

/-- The layers of a configuration, the lowest first. -/
def Host.layers (h : Host) (environment : Table String) (path : Option String) :
    Except Failure (List Settings) := do
  let usual ← h.usualLayer
  let given ← h.givenLayer path
  return [usual, given, environmentLayer environment]

/-- The configuration of some layers, the lowest first. -/
def ofLayers (layers : List Settings) : Except Failure Config :=
  decoder (.table (layers.foldl Setting.withLayer []) none)

/-- Loads the configuration; `path` is the file that was named. -/
def Host.load (h : Host) (environment : Table String) (path : Option String) :
    Except Failure Config := do
  ofLayers (← h.layers environment path)

/-- Loads the configuration where `file` gives the text of a file that exists. -/
def load (file : String → Option String) (environment : Table String) (path : Option String) :
    Except Failure Config :=
  (Host.ofFiles file).load environment path

/-- Every path at which something is looked for. -/
def consulted (path : Option String) : List String :=
  usualFiles ++ (usualNames ++ path.toList).flatMap fun name =>
    name :: (Format.all.flatMap Format.endings).map (withEnding name)

/-- The configuration of a single text. -/
def ofToml (content : String) : Except Failure Config := do
  ofLayers [← layerOf none (Toml.parse? content)]

end TriageDesk.Config
