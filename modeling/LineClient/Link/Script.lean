import LineClient.Link.Wire

/-!
# Scripts of a server

A script tells what a server does on one connection: how it greets, and how it takes each line that
comes in. The script has one step for each line, and one for all lines after these.

* `Turn`, `Script`;
* `splitLines`, the lines in a run of bytes;
* `Visit`, a connection on the side of the server; `Visit.attend`, what the server does when it
  gets its turn.
-/

namespace LineClient

/-- How a server takes a line. -/
inductive Turn where
  | reply (bytes : List UInt8)
  | silent
  /-- The server sends no more and reads no more. -/
  | close
  /-- The server throws the connection away. -/
  | reset
  /-- The server gives the sign to stop. -/
  | cancel
  deriving DecidableEq, Repr

/-- What a server does on one connection. -/
structure Script where
  banner : List UInt8 := []
  /-- What follows the greeting, before any line. -/
  arrival : Turn := .silent
  steps : List Turn := []
  /-- The turn on every line after the steps. -/
  after : Turn := .silent
  deriving DecidableEq, Repr

/-- The lines in a run of bytes, and what follows the last of them. -/
def splitLines : List UInt8 → List (List UInt8) × List UInt8
  | [] => ([], [])
  | b :: rest =>
    let (lines, tail) := splitLines rest
    if b = 10 then ([] :: lines, tail)
    else match lines with
      | [] => ([], b :: tail)
      | line :: lines => ((b :: line) :: lines, tail)

/-- A connection on the side of the server. -/
structure Visit where
  wire : Wire
  /-- What is left of the script. -/
  script : Script
  accepted : Bool := false
  /-- Whether the server still reads. -/
  reading : Bool := true
  /-- The lines read so far, the last one first. -/
  lines : List (List UInt8) := []

namespace Visit

/-- Takes a turn. The flag tells whether the sign to stop was given. -/
def take (v : Visit) : Turn → Visit × Bool
  | .reply bytes => ({ v with wire := v.wire.deliver bytes }, false)
  | .silent => (v, false)
  | .close => ({ v with wire := v.wire.finish, reading := false }, false)
  | .reset => ({ v with wire := v.wire.reset, reading := false }, false)
  | .cancel => (v, true)

/-- Takes a line by the next step of the script. A server that reads no more lets it lie. -/
def takeLine (v : Visit) (line : List UInt8) : Visit × Bool :=
  if v.reading then
    let read := { v with lines := line :: v.lines }
    match v.script.steps with
    | [] => read.take v.script.after
    | turn :: steps => { read with script := { v.script with steps } }.take turn
  else (v, false)

/-- Takes lines one after the other. -/
def takeLines (v : Visit) : List (List UInt8) → Visit × Bool
  | [] => (v, false)
  | line :: rest =>
    let (v, cancelled) := v.takeLine line
    let (v, later) := v.takeLines rest
    (v, cancelled || later)

/-- Greets a client that has just come. -/
def accept (v : Visit) : Visit × Bool :=
  if v.accepted then (v, false)
  else { v with accepted := true, wire := v.wire.deliver v.script.banner }.take v.script.arrival

/-- Greets the client if it has just come, and takes the lines that it has sent. -/
def attend (v : Visit) : Visit × Bool :=
  let (v, early) := v.accept
  let (lines, tail) := splitLines v.wire.outbound.data.toList
  let kept := { v with wire := { v.wire with outbound := ⟨tail.toArray⟩ } }
  let (v, late) := kept.takeLines lines
  (v, early || late)

end Visit

end LineClient
