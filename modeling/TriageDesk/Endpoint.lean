/-
TriageDesk.Endpoint — the interfaces through which a disposal is applied.

An endpoint is a method, a path and a template of the request body. It is
sound when the method is a token of HTTP and the path starts with a slash.

Follows `ApiEndpoint` and its `validate`, here `defect?`.
-/
import TriageDesk.Json.Decoder
import TriageDesk.Text.Blank

namespace TriageDesk

open Text

/-- A method, a path and a template of the request body. -/
structure Endpoint where
  method : String
  path : String
  body : String
deriving DecidableEq, Repr, Inhabited

namespace Endpoint

/-- Whether a character may stand in a token of HTTP. -/
def isTokenChar (c : Char) : Bool :=
  c.isAlphanum || "!#$%&'*+-.^_`|~".toList.contains c

/-- Whether a text is a token of HTTP. -/
def isToken (s : String) : Bool := s ≠ "" && s.toList.all isTokenChar

/-- The method without white space around it and in capital letters. -/
def methodName (e : Endpoint) : String := asciiUpper (trimmed e.method)

/-- Why an endpoint is not sound. -/
inductive Defect
  | method (given : String)
  | path (given : String)
deriving DecidableEq, Repr

/-- A defect in words. -/
def Defect.message : Defect → String
  | .method given => s!"invalid method: {quoted given}"
  | .path given => s!"path must start with '/': {quoted given}"

/-- The first defect of an endpoint, if it has one. -/
def defect? (e : Endpoint) : Option Defect :=
  if !isToken e.methodName then some (.method e.method)
  else if !startsWith ['/'] e.path.toList then some (.path e.path)
  else none

/-- An endpoint as a value. -/
def toJson (e : Endpoint) : Json :=
  .object [("body", .string e.body), ("method", .string e.method), ("path", .string e.path)]

end Endpoint

end TriageDesk
