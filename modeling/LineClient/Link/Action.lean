import LineClient.Log.Event
import LineClient.Link.Error
import LineClient.Series.Basic

/-!
# What a client does and meets

A run of a client is told by its record: one entry for each thing that the client did or met, with
its time, in the order of time.

* `Action`, `Entry`;
* `Record.events`, `Record.samples`: what was logged, and what was recorded in the series;
* `Record.written`: the bytes that were written on each connection.
-/

namespace LineClient

/-- What a client does or meets. -/
inductive Action where
  | logged (e : Event)
  /-- A connection was made. -/
  | opened
  /-- A connection could not be made. -/
  | unopened (cause : IoError)
  /-- A command was written as a whole line. -/
  | sent (command : String)
  /-- Only the first `count` bytes of the line of a command were written. -/
  | cut (command : String) (count : Nat)
  | received (bytes : List UInt8)
  /-- Nothing came within the time allowed. -/
  | silence (wait : Duration)
  /-- The peer has closed, or counts as having closed. -/
  | ended
  | closed
  | waited (d : Duration)
  /-- A sample was recorded. -/
  | appended (x : Sample)
  deriving DecidableEq, Repr

/-- Something that happened, and when. -/
structure Entry where
  time : Duration
  action : Action
  deriving DecidableEq, Repr

/-- The line of a command. -/
def commandLine (command : String) : ByteArray := (command ++ "\n").toUTF8

/-- The event that an action logs. -/
def Action.event? : Action → Option Event
  | .logged e => some e
  | _ => none

/-- The sample that an action records. -/
def Action.sample? : Action → Option Sample
  | .appended x => some x
  | _ => none

/-- The bytes that an action writes. -/
def Action.written : Action → List UInt8
  | .sent command => (commandLine command).data.toList
  | .cut command count => (commandLine command).data.toList.take count
  | _ => []

/-- What happened in the course of a run. -/
abbrev Record := List Entry

namespace Record

/-- What was logged. -/
def events (r : Record) : List Event := r.filterMap (·.action.event?)

/-- What was recorded in the series. -/
def samples (r : Record) : List Sample := r.filterMap (·.action.sample?)

/-- What was recorded in the series, with the times at which it was. -/
def timedSamples (r : Record) : List (Duration × Sample) :=
  r.filterMap fun entry => entry.action.sample?.map (entry.time, ·)

/-- Adds an entry in front of a run to the bytes written before its first connection and on each
of its connections. -/
def addWritten (entry : Entry) : List UInt8 × List (List UInt8) → List UInt8 × List (List UInt8)
  | (pending, rest) =>
    if entry.action = .opened then ([], pending :: rest)
    else (entry.action.written ++ pending, rest)

/-- The bytes that were written on each connection. -/
def written (r : Record) : List (List UInt8) := (r.foldr addWritten ([], [])).2

end Record

end LineClient
