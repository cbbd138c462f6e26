/-
TriageDesk.Proposal.Wire — proposals as JSON.

The decoders say which members a proposal, an action and a parameter have,
in which order they stand in a list, and what they default to; the
functions `toJson` write them.

Follows the forms in which `Proposal`, `ProposalAction` and `Param` are
serialized.
-/
import TriageDesk.Proposal.Basic

namespace TriageDesk.Proposal

open Json Time

/-! ## Reading -/

/-- Reads an action. -/
def Action.decoder : Decoder Action :=
  .record "ProposalAction"
    [.needed "label" .text fun x (a : Action) => { a with label := x },
     .optional "type" (.choice ActionKind.named) fun x a => { a with kind := x },
     .optional "params" (.table .text) fun x a => { a with params := x }]
    (.ofKind "" .accept)

/-- Reads a parameter. -/
def Param.decoder : Decoder Param :=
  .record "Param"
    [.needed "key" .text fun x (p : Param) => { p with key := x },
     .optional "label" .text fun x p => { p with label := x },
     .optional "type" (.choice ParamKind.named) fun x p => { p with kind := x },
     .optional "value" .text fun x p => { p with value := x },
     .optional "options" (.list .text) fun x p => { p with options := x }]
    ⟨"", "", .text, "", []⟩

/-- Reads a moment. -/
def instantDecoder : Decoder Instant :=
  (Decoder.textAs "an RFC 3339 formatted date and time string").refine fun s =>
    (Instant.read s).mapError fun problem => .malformed problem.message

/-- Reads a proposal. Moments that it does not give are those of its reading. -/
def decoder (created updated : Instant) : Decoder Proposal :=
  .record "Proposal"
    [.optional "id" .text fun x (p : Proposal) => { p with id := x },
     .needed "type" .text fun x p => { p with kind := x },
     .needed "title" .text fun x p => { p with title := x },
     .optional "summary" .text fun x p => { p with summary := x },
     .optional "details" (.table .any) fun x p => { p with details := x },
     .optional "actions" (.list Action.decoder) fun x p => { p with actions := x },
     .optional "parameters" (.table Param.decoder) fun x p => { p with parameters := x },
     .optional "status" (.choice Status.named) fun x p => { p with status := x },
     .optional "createdAt" instantDecoder fun x p => { p with createdAt := x },
     .optional "updatedAt" instantDecoder fun x p => { p with updatedAt := x }]
    { new "" "" "" ∅ created with updatedAt := updated }

/-! ## Writing -/

/-- An action as a value. -/
def Action.toJson (a : Action) : Json :=
  .ofMembers [("label", .string a.label), ("type", .string a.kind.name),
    ("params", .ofTexts a.params)]

/-- A parameter as a value; options are left out when there are none. -/
def Param.toJson (p : Param) : Json :=
  .ofMembers ([("key", .string p.key), ("label", .string p.label), ("type", .string p.kind.name),
    ("value", .string p.value)] ++
    if p.options = [] then [] else [("options", .array (p.options.map .string))])

/-- A proposal as a value. -/
def toJson (p : Proposal) : Json :=
  .ofMembers [("id", .string p.id), ("type", .string p.kind), ("title", .string p.title),
    ("summary", .string p.summary), ("details", .ofTable p.details),
    ("actions", .array (p.actions.map Action.toJson)),
    ("parameters", .ofTable (p.parameters.map Param.toJson)),
    ("status", .string p.status.name), ("createdAt", .string p.createdAt.write),
    ("updatedAt", .string p.updatedAt.write)]

end TriageDesk.Proposal
