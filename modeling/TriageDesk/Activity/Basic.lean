/-
TriageDesk.Activity.Basic — tasks that run at a fixed interval.

An activity has a name, which is also the name of its session, a schedule
and a mode. In automatic mode it applies its decisions itself; in manual
mode it files them as proposals.

Follows `ActivityMode` and `Activity`, whose `interval` is what
`parse_schedule` makes of the schedule.
-/
import TriageDesk.Interval
import TriageDesk.Json.Decoder

namespace TriageDesk

/-- Whether an activity applies its decisions itself. -/
inductive Activity.Mode
  | auto
  | manual
deriving DecidableEq, Repr, Inhabited

/-- A task that runs at a fixed interval. -/
structure Activity where
  name : String
  schedule : String
  mode : Activity.Mode
  enabled : Bool
deriving DecidableEq, Repr, Inhabited

namespace Activity

/-- The modes with their names. -/
def Mode.named : List (String × Mode) := [("auto", .auto), ("manual", .manual)]

/-- The name of a mode. -/
def Mode.name : Mode → String
  | .auto => "auto"
  | .manual => "manual"

/-- Seconds from one run to the next. -/
def interval (a : Activity) : Nat := Interval.parse a.schedule

open Json in
/-- Reads an activity. -/
def decoder : Decoder Activity :=
  .record "Activity"
    [.needed "name" .text fun x (a : Activity) => { a with name := x },
     .needed "schedule" .text fun x a => { a with schedule := x },
     .optional "mode" (.choice Mode.named) fun x a => { a with mode := x },
     .optional "enabled" .bool fun x a => { a with enabled := x }]
    ⟨"", "", .manual, true⟩

/-- An activity as a value. -/
def toJson (a : Activity) : Json :=
  .ofMembers [("name", .string a.name), ("schedule", .string a.schedule),
    ("mode", .string a.mode.name), ("enabled", .bool a.enabled)]

end Activity

end TriageDesk
