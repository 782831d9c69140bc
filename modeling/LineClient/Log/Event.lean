/-!
# Log events

An event has a level, the part of the program it comes from, a message, perhaps what caused it, and
up to three fields.

* `Level`, `Source`, `Event`;
* `Event.text`, `Event.line`, the event in words and as one line.
-/

namespace LineClient

/-- How grave an event is. -/
inductive Level where
  | error
  | warn
  | info
  | debug
  deriving DecidableEq, Repr

namespace Level

def name : Level → String
  | .error => "ERROR"
  | .warn => "WARN"
  | .info => "INFO"
  | .debug => "DEBUG"

/-- The place of a level when the gravest comes first. -/
def verbosity : Level → Nat
  | .error => 1
  | .warn => 2
  | .info => 3
  | .debug => 4

end Level

/-- The parts of the program that report events. -/
inductive Source where
  | program
  | connection
  | telemetry
  | load
  deriving DecidableEq, Repr

/-- The name under which a part appears in the log. -/
def Source.target : Source → String
  | .program => "pihub_harness"
  | .connection => "pihub_harness::connection"
  | .telemetry => "pihub_harness::telemetry"
  | .load => "pihub_harness::load"

/-- Something worth telling. -/
structure Event where
  level : Level
  source : Source
  message : String
  /-- What it comes from, in words that are not the program's own. -/
  cause : Option String := none
  worker : Option Nat := none
  command : Option String := none
  response : Option String := none
  deriving DecidableEq, Repr

namespace Event

/-- The fields in the order in which they are shown. -/
def fields (e : Event) : List (String × String) :=
  (e.worker.map fun id => ("worker", toString id)).toList ++
    (e.command.map fun text => ("command", text)).toList ++
    (e.response.map fun text => ("response", text)).toList

/-- The message, and behind it the cause. -/
def text (e : Event) : String := e.message ++ ((e.cause.map (": " ++ ·)).getD "")

/-- The event as a line: level, source, message, cause and fields. -/
def line (e : Event) : String :=
  e.fields.foldl (fun text (name, value) => text ++ " " ++ name ++ "=" ++ value)
    (e.level.name ++ " " ++ e.source.target ++ ": " ++ e.text)

end Event

end LineClient
