/-
TriageDesk.Log — which events are written to the log.

A filter is a list of directives with commas between them. A directive is a
level, or the beginning of a topic, or both with `=` between them; a topic
alone stands for all its events. Of the directives that apply to an event the
one with the longest topic counts, and of equal topics the last one.

Follows `init`: the filter of the log and the lines that it lets through.
-/
import TriageDesk.Event
import TriageDesk.Time.Instant

namespace TriageDesk.Log

open Text

/-! ## Levels -/

/-- How far down a level lies: the lower, the less it matters. -/
def depth : Event.Level → Nat
  | .error => 1
  | .warn => 2
  | .info => 3
  | .debug => 4

/-- The depth down to which everything is written. -/
def bottom : Nat := 5

/-- The names of depths, in small letters. -/
def depths : List (String × Nat) :=
  [("off", 0), ("error", 1), ("warn", 2), ("info", 3), ("debug", 4), ("trace", 5),
   ("0", 0), ("1", 1), ("2", 2), ("3", 3), ("4", 4), ("5", 5)]

/-- The depth of a name. -/
def depth? (name : List Char) : Option Nat := depths.lookup (asciiLower (String.ofList name))

/-! ## Directives -/

/-- A part of a filter. -/
inductive Directive
  /-- Events of topics that begin like this are written down to a depth. -/
  | events (topic : Option (List Char)) (depth : Nat)
  /-- Something about spans, of which this program has none. -/
  | spans
deriving DecidableEq, Repr

/-- Whether a character may stand in a topic. -/
def isTopicChar (c : Char) : Bool :=
  c.isAlphanum || c = '_' || c = ':' || c = '-' || 0x80 ≤ c.toNat

/-- The depth after a topic; a topic alone goes to the bottom. -/
def depthAfter? : List Char → Option Nat
  | [] | ['='] => some bottom
  | '=' :: name => depth? name
  | _ => none

/-- What follows a span in brackets. -/
def afterSpan? : List Char → Option (List Char)
  | '[' :: rest =>
    match rest.dropWhile (· ≠ ']') with
    | _ :: rest => some rest
    | [] => none
  | _ => none

/-- A directive. -/
def Directive.parse? (cs : List Char) : Option Directive :=
  match depth? cs with
  | some depth => some (.events none depth)
  | none =>
    let topic := cs.takeWhile isTopicChar
    let rest := cs.dropWhile isTopicChar
    match afterSpan? rest with
    | some rest => (depthAfter? rest).map fun _ => .spans
    | none => if topic = [] then none else (depthAfter? rest).map fun d => .events (some topic) d

/-- How closely a directive applies to a topic, if it does, and the depth it gives. -/
def Directive.closeness? (topic : String) : Directive → Option (Nat × Nat)
  | .spans => none
  | .events none depth => some (0, depth)
  | .events (some start) depth =>
    if startsWith start topic.toList then some (start.length + 1, depth) else none

/-! ## Filters -/

/-- A filter of events. -/
abbrev Filter := List Directive

/-- The filter where none is given. -/
def usual : Filter := [.events none 3]

/-- A filter; one without directives lets errors through. -/
def Filter.parse? (s : String) : Option Filter :=
  match (splitOn ',' s.toList).filter (· ≠ []) with
  | [] => some [.events none 1]
  | pieces => pieces.mapM Directive.parse?

/-- The filter that an environment asks for. -/
def Filter.ofEnvironment (environment : Table String) : Filter :=
  ((environment.get? "RUST_LOG").bind Filter.parse?).getD usual

/-- The closest of some directives to a topic and the depth it gives; of equally close ones
the last. -/
def Filter.closest? (f : Filter) (topic : String) : Option (Nat × Nat) :=
  (f.filterMap (Directive.closeness? topic)).foldl (fun best d =>
    match best with
    | some b => if b.1 ≤ d.1 then some d else some b
    | none => some d) none

/-- Whether an event is written. -/
def Filter.lets (f : Filter) (e : Event) : Bool :=
  match f.closest? e.topic with
  | some (_, depth) => Log.depth e.level ≤ depth
  | none => false

/-- The lines of the events that are written. -/
def Filter.lines (f : Filter) (events : List Event) : List String :=
  (events.filter f.lets).map Event.line

/-- The line of an event behind a moment. The names of the levels end in one column. -/
def stampedLine (moment : Time.Instant) (e : Event) : String :=
  let gap := String.ofList (List.replicate (6 - e.level.name.length) ' ')
  s!"{moment.write}{gap}{e.line}"

/-- The lines of the events that are written, behind a moment. -/
def Filter.stampedLines (f : Filter) (moment : Time.Instant) (events : List Event) : List String :=
  (events.filter f.lets).map (stampedLine moment)

end TriageDesk.Log
