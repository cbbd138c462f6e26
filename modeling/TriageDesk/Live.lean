/-
TriageDesk.Live — a service at work while a clock goes on.

A clock only ever says how many milliseconds have passed and what moment it
is. Between two looks at the clock everything happens that was due, in its
order. Names are numbered on from a number that was drawn at the start. There
is no way to other servers here: every request finds that no server listens.

Follows the running service of the two functions `main`, and
`create_llm_from_config` in the model that it asks.
-/
import TriageDesk.Model.Choice
import TriageDesk.Model.Script
import TriageDesk.Service
import TriageDesk.Text.Digit

namespace TriageDesk

open Activity

/-! ## The model -/

/-- What a model keeps from one question to the next. -/
structure Model.Memory where
  script : Script
  usage : Usage

/-- Nothing has been asked yet. -/
def Model.Memory.none : Memory := ⟨.ofReplies [], .none⟩

/-- Asks the model that was chosen. -/
def Model.Choice.ask : Choice → Service.Asking Memory
  | .script => fun messages =>
    Act.within (·.model.script) (fun script w => { w with model := { w.model with script } })
      (Script.complete messages)
  | .remote r => fun messages => do
    let answer ←
      Act.within (·.desk) (fun desk w => { w with desk }) (Desk.send (r.request messages))
    match Model.Remote.read (← Act.look).model.usage answer with
    | .ok (text, usage) =>
      Act.change fun w => { w with model := { w.model with usage } }
      return some (.ok text)
    | .error f => return some (.error f.message)

/-! ## The supply -/

/-- A number of 128 bits as a name that was drawn at random: 32 digits in five groups, two
of which say how the name was made. -/
def nameOf (n : Nat) : String :=
  let digits := Text.hexDigits (n % Nat.pow 2 128)
  let digits := List.replicate (32 - digits.length) '0' ++ digits
  let digits := (digits.set 12 '4').set 16 (Nat.digitChar (8 + n % 4))
  let group (start length : Nat) : String := String.ofList ((digits.drop start).take length)
  Text.joined "-" [group 0 8, group 8 4, group 12 4, group 16 4, group 20 12]

/-- The supply at a moment, with names numbered on from a start. -/
def Supply.still (moment : Time.Instant) (firstName : Nat) : Supply :=
  { instant := fun _ => moment
    name := fun n => nameOf (firstName + n)
    outcome := fun _ _ => .noServer
    instantsDrawn := 0
    namesDrawn := 0 }

/-! ## The course of time -/

namespace Live

/-- A service in the course of time, with the memory of its model. -/
abbrev Course := Service.Course Model.Memory

/-- A course before anything is done. -/
def opening (moment : Time.Instant) (firstName : Nat) : Course :=
  Service.opening (.still moment firstName) .none

/-- The clock shows another moment. -/
def setClock (moment : Time.Instant) : Act Course Unit :=
  Service.onDesk
    (Act.change fun d => { d with supply := { d.supply with instant := fun _ => moment } })

/-- Starts the activities. -/
def start (s : Service) (model : Model.Choice) : Act Course Unit := do
  s.start
  Timeline.settle (s.surroundings model.ask)

/-- The clock shows a moment, and so many milliseconds have passed since the start. -/
def goOn (s : Service) (model : Model.Choice) (moment : Time.Instant) (passed : Nat) :
    Act Course Unit := do
  setClock moment
  Timeline.pass (s.surroundings model.ask) (passed - (← Act.look).now)

/-- How many milliseconds after the start something is due again. -/
def due? (course : Course) : Option Nat := course.nextTime?

end Live

end TriageDesk
