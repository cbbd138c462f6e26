/-
TriageDesk.Proposal.Basic — recommendations that wait for a human decision.

A proposal names what should be done and why, the actions a human is
offered, and the parameters that may be adjusted. It is pending until it is
accepted, ignored or handed in again with other parameters.

Follows `Proposal`, `ProposalStatus`, `ProposalAction`, `ActionKind`, `Param`
and `ParamType`.
-/
import TriageDesk.Parameters
import TriageDesk.Time.Reader

namespace TriageDesk

open Time

/-! ## Parts of a proposal -/

/-- Where a proposal stands. -/
inductive Proposal.Status
  | pending
  | accepted
  | ignored
  | modified
deriving DecidableEq, Repr, Inhabited

/-- What a button of a proposal stands for. -/
inductive Proposal.ActionKind
  | accept
  | ignore
  | modify
deriving DecidableEq, Repr, Inhabited

/-- A button of a proposal. -/
structure Proposal.Action where
  label : String
  kind : Proposal.ActionKind
  params : Parameters
deriving DecidableEq

/-- How the value of a parameter is entered. -/
inductive Proposal.ParamKind
  | text
  | number
  | select
deriving DecidableEq, Repr, Inhabited

/-- A parameter that may be adjusted. -/
structure Proposal.Param where
  key : String
  label : String
  kind : Proposal.ParamKind
  value : String
  /-- What can be selected. -/
  options : List String
deriving DecidableEq, Repr, Inhabited

/-- A recommendation that waits for a human decision. -/
structure Proposal where
  /-- Empty until the proposal is stored. -/
  id : String
  kind : String
  title : String
  summary : String
  details : Table Json
  actions : List Proposal.Action
  parameters : Table Proposal.Param
  status : Proposal.Status
  createdAt : Instant
  updatedAt : Instant

namespace Proposal

/-! ## Names -/

/-- The statuses with their names. -/
def Status.named : List (String × Status) :=
  [("pending", .pending), ("accepted", .accepted), ("ignored", .ignored), ("modified", .modified)]

/-- The name of a status. -/
def Status.name : Status → String
  | .pending => "pending"
  | .accepted => "accepted"
  | .ignored => "ignored"
  | .modified => "modified"

/-- The status of a name, in small or capital letters and with white space
around it. -/
def Status.parse? (s : String) : Option Status :=
  Status.named.lookup (Text.asciiLower (Text.trimmed s))

/-- The kinds of action with their names. -/
def ActionKind.named : List (String × ActionKind) :=
  [("accept", .accept), ("ignore", .ignore), ("modify", .modify)]

/-- The name of a kind of action. -/
def ActionKind.name : ActionKind → String
  | .accept => "accept"
  | .ignore => "ignore"
  | .modify => "modify"

/-- The kinds of parameter with their names. -/
def ParamKind.named : List (String × ParamKind) :=
  [("string", .text), ("number", .number), ("select", .select)]

/-- The name of a kind of parameter. -/
def ParamKind.name : ParamKind → String
  | .text => "string"
  | .number => "number"
  | .select => "select"

/-! ## Making proposals -/

/-- An action without parameters. -/
def Action.ofKind (label : String) (kind : ActionKind) : Action := ⟨label, kind, ∅⟩

/-- The actions that every recommendation offers. -/
def defaultActions : List Action :=
  [.ofKind "确认" .accept, .ofKind "忽略" .ignore, .ofKind "修改参数" .modify]

/-- A parameter that is entered as text, labelled with its name. -/
def Param.ofValue (key value : String) : Param := ⟨key, key, .text, value, []⟩

/-- A parameter to be selected from some values. -/
def Param.withOptions (p : Param) (options : List String) : Param :=
  { p with kind := .select, options }

/-- A pending proposal without actions and parameters. -/
def new (kind title summary : String) (details : Table Json) (now : Instant) : Proposal :=
  { id := "", kind, title, summary, details, actions := [], parameters := ∅
    status := .pending, createdAt := now, updatedAt := now }

/-- The proposal with one more action. -/
def withAction (p : Proposal) (a : Action) : Proposal := { p with actions := p.actions ++ [a] }

/-- The proposal with a parameter, in the place of one with the same key. -/
def withParam (p : Proposal) (param : Param) : Proposal :=
  { p with parameters := p.parameters.insert param.key param }

/-- Whether the proposal waits for a decision. -/
def isPending (p : Proposal) : Bool := p.status = .pending

/-- The text of a detail, if there is a text under the name. -/
def detailText? (p : Proposal) (name : String) : Option String :=
  (p.details.get? name).bind Json.text?

end Proposal

end TriageDesk
