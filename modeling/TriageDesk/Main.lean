/-
TriageDesk.Main — the command line.

The first argument may name a program; what follows is the path of a
configuration. Here files and the environment are read, events and failures
are shown, and the clock is looked at. What is done is decided elsewhere.

Follows the two functions `main`.
-/
import Std.Time.DateTime.Timestamp
import TriageDesk.Live
import TriageDesk.Program

namespace TriageDesk.Main

/-- The number of the failure to read a directory like a file. -/
def readDirectory : UInt32 := 21

/-- What there is at a path. -/
def entryAt (path : String) : IO (Option Config.Entry) := do
  try return some (.text (← IO.FS.readFile path))
  catch
    | .noFileOrDirectory .. => return none
    | .inappropriateType _ code _ =>
      return if code = readDirectory then some .directory else none
    | _ => return some .unreadable

/-- The host, as far as some paths on it go. -/
def hostOf (paths : List String) : IO Config.Host := do
  let found ← paths.mapM fun path => return (path, ← entryAt path)
  return { Config.Host.ofFiles fun _ => none with at? := fun path => (found.lookup path).join }

/-- The variables of the environment. -/
def environment : IO (Table String) := do
  let octets ← try IO.FS.readBinFile "/proc/self/environ" catch _ => return .ofList []
  let entries := Text.splitOn (Char.ofNat 0) (Text.decodeLossy octets.data.toList).toList
  return .ofList (entries.filterMap fun entry =>
    (Text.splitOnce '=' entry).map fun (name, value) => (String.ofList name, String.ofList value))

/-- The moment that the clock shows. -/
def moment : IO Time.Instant := do
  let nanos := (← Std.Time.Timestamp.now).toNanosecondsSinceUnixEpoch.val
  return { seconds := nanos / 1000000000, nanos := (nanos % 1000000000).toNat }

/-- Shows the events that a filter lets through. -/
def showEvents (filter : Log.Filter) (events : List Event) : IO Unit := do
  for line in filter.stampedLines (← moment) events do IO.println line
  (← IO.getStdout).flush

/-- Shows a failure. -/
def fail (f : Program.Failure) : IO UInt32 := do
  IO.eprint f.message
  return 1

/-- Keeps a service going; `began` is when it was started. -/
partial def keepGoing (s : Service) (model : Model.Choice) (filter : Log.Filter) (began : Nat)
    (course : Live.Course) : IO UInt32 := do
  let passed := (← IO.monoMsNow) - began
  let rest := ((Live.due? course).getD (passed + 1000)) - passed
  IO.sleep (min (rest + 1) 1000).toUInt32
  let done := Live.goOn s model (← moment) ((← IO.monoMsNow) - began) course
  showEvents filter done.events
  keepGoing s model filter began done.world

/-- Runs a program. -/
def run (p : Program) (path : Option String) : IO UInt32 := do
  let environment ← environment
  let host ← hostOf (Config.consulted path)
  let filter := Log.Filter.ofEnvironment environment
  let begun := (p.startOn host environment path : Act Unit _) ()
  showEvents filter begun.events
  match begun.result with
  | .failed f => fail f
  | .idle => return 0
  | .ready s c model =>
    let octets ← IO.getRandomBytes 16
    let firstName := octets.data.toList.foldl (fun n octet => n * 256 + octet.toNat) 0
    let started := Live.start s model (Live.opening (← moment) firstName)
    showEvents filter started.events
    match p with
    | .headless => keepGoing s model filter (← IO.monoMsNow) started.world
    | .pages =>
      fail (Program.unreachable (Program.address c environment) "there is no way to listen here")

end TriageDesk.Main

/-- Runs the program that the first argument names, or the one that runs the activities. -/
def main (args : List String) : IO UInt32 :=
  match args with
  | name :: rest =>
    match TriageDesk.Program.named.lookup name with
    | some p => TriageDesk.Main.run p rest.head?
    | none => TriageDesk.Main.run .headless (some name)
  | [] => TriageDesk.Main.run .headless none
