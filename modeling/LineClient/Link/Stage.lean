import LineClient.Link.Script

/-!
# A stage for clients

On a stage a client meets a server that plays scripts, one for each connection, and a clock that
only waiting moves. The server gets its turn whenever the client waits. So a run depends on nothing
but the scripts.

* `Reach`, `Trigger`, `Stage`;
* `Stage.attend`, the turn of the server;
* **`Stage.host`**, the stage as a host;
* `Stage.received`, the lines that the server has read.
-/

namespace LineClient

/-- What a client finds at the address of the server. -/
inductive Reach where
  /-- Nobody listens. -/
  | refused
  /-- Nobody answers. -/
  | full
  /-- A server plays these scripts, the last of them again and again. -/
  | scripts (first : Script) (others : List Script)
  deriving Repr

/-- What of the client's doing gives the sign to stop. -/
inductive Trigger where
  | none
  /-- The event with the given text that comes after so many others. -/
  | log (text : String) (others : Nat)
  /-- The series having so many samples. -/
  | samples (wanted : Nat) (series : Series)
  deriving Repr

/-- Whether `part` stands somewhere in a text. -/
def occursIn (part : List Char) : List Char → Bool
  | [] => part.isEmpty
  | c :: rest => part.isPrefixOf (c :: rest) || occursIn part rest

/-- Whether an action gives the sign to stop, and the trigger after it. -/
def Trigger.observe (t : Trigger) (a : Action) : Bool × Trigger :=
  match t, a with
  | .log text others, .logged e =>
    if occursIn text.toList e.message.toList then
      match others with
      | 0 => (true, .none)
      | others + 1 => (false, .log text others)
    else (false, t)
  | .samples wanted series, .appended x =>
    let series := series.append x
    (wanted ≤ series.length, .samples wanted series)
  | _, _ => (false, t)

/-- A server, a clock, and the sign to stop. -/
structure Stage where
  address : String
  reach : Reach
  trigger : Trigger := .none
  clock : Duration := .zero
  cancelled : Bool := false
  /-- When the sign to stop came, if it has come. -/
  signTime : Duration := .zero
  /-- The connection of the client. -/
  current : Option Visit := none
  /-- Connections that the client has left and the server has not looked at since. -/
  left : List Visit := []
  /-- The lines of all other connections, the last connection first. -/
  done : List (List (List UInt8)) := []
  /-- The number of connections so far. -/
  count : Nat := 0

namespace Stage

/-- The script of a connection. -/
def scriptAt (first : Script) (others : List Script) (i : Nat) : Script :=
  (first :: others).getD i ((first :: others).getLastD first)

/-- The stage on which the script of one connection is played for all of them. -/
def only (s : Stage) (i : Nat) : Stage :=
  match s.reach with
  | .scripts first others => { s with reach := .scripts (scriptAt first others i) [] }
  | _ => s

/-- When the sign to stop came, if it may be given now. Only the first one counts. -/
def signTimeAfter (s : Stage) (given : Bool) : Duration :=
  if given && !s.cancelled then s.clock else s.signTime

/-- The connections that the client has left are looked at for the last time. -/
def settle (s : Stage) : Stage :=
  let settled := s.left.map Visit.attend
  let given := settled.any (·.2)
  { s with
    cancelled := s.cancelled || given
    signTime := s.signTimeAfter given
    done := settled.map (·.1.lines.reverse) ++ s.done
    left := [] }

/-- The server gets its turn. -/
def attend (s : Stage) : Stage :=
  let s := s.settle
  match s.current with
  | none => s
  | some v =>
    let (v, given) := v.attend
    { s with
      current := some v
      cancelled := s.cancelled || given
      signTime := s.signTimeAfter given }

/-- Time passes, in which the server gets its turn. -/
def pause (d : Duration) (s : Stage) : Stage :=
  if d = .zero then s else { s.attend with clock := s.clock.after d }

/-- Leaves the connection. -/
def leave (s : Stage) : Stage :=
  match s.current with
  | none => s
  | some v => { s with current := none, left := v :: s.left }

/-- Makes a connection. -/
def connect (address : String) (wait : Duration) (s : Stage) : Except IoError Unit × Stage :=
  if address ≠ s.address then (.error .refused, s)
  else match s.reach with
    | .refused => (.error .refused, s)
    | .full => (.error .timedOut, s.pause wait)
    | .scripts first others =>
      let visit : Visit := { wire := {}, script := scriptAt first others s.count }
      (.ok (), { s.leave with current := some visit, count := s.count + 1 })

/-- Writes a line. The server takes whatever comes, so a line never waits. -/
def write (line : ByteArray) (s : Stage) : WriteOutcome line × Stage :=
  match s.current with
  | none => (.complete, s)
  | some v =>
    if h : v.wire.broken ∧ 0 < line.size then (.failed ⟨0, h.2⟩ .brokenPipe, s)
    else (.complete, { s with current := some { v with wire := v.wire.push line } })

/-- Whether a reading need not wait. -/
def readable (s : Stage) : Bool := s.current.all (·.wire.readable)

/-- Reads what waits. -/
def readWaiting (max : Nat) (s : Stage) : ReadOutcome max × Stage :=
  match s.current with
  | none => (.ended none, s)
  | some v =>
    let (outcome, wire) := v.wire.read max
    (outcome, { s with current := some { v with wire } })

/-- Reads. If nothing waits, the server gets its turn; if nothing comes of it, the time allowed
passes. -/
def read (max : Nat) (wait : Duration) (s : Stage) : ReadOutcome max × Stage :=
  if s.readable ∨ wait = .zero then s.readWaiting max
  else
    let s := s.attend
    if s.readable then s.readWaiting max
    else (.silence, { s with clock := s.clock.after wait })

/-- Whether the sign to stop comes before the client has got what it waits for. -/
def stops (w : Waiting) (s : Stage) : Bool × Stage :=
  let s := match w with
    | .connection => s
    | .reply wait => if s.cancelled ∨ s.readable ∨ wait = .zero then s else s.attend
    | .pause d => if s.cancelled ∨ d = .zero then s else s.attend
  (s.cancelled, s)

/-- Whether the sign to stop comes before a line is written. -/
def stopsWriting (line : ByteArray) (s : Stage) : Option (Fin line.size) × Stage :=
  (if h : s.cancelled ∧ 0 < line.size then some ⟨0, h.2⟩ else none, s)

/-- Takes note of what the client does. -/
def observe (a : Action) (s : Stage) : Stage :=
  let (given, trigger) := s.trigger.observe a
  { s with trigger, cancelled := s.cancelled || given, signTime := s.signTimeAfter given }

/-- The sign to stop comes as soon as nothing else is waited for. -/
def awaitStop (s : Stage) : Stage :=
  { s with cancelled := true, signTime := s.signTimeAfter true }

/-- The stage as a host. -/
def host : Host Stage where
  now := clock
  listening s := if s.cancelled then .signed s.signTime else .waiting
  connect := connect
  write line _ := write line
  read := read
  shutdownFailure? _ := none
  close := leave
  pause := pause
  stops := stops
  stopsWriting := stopsWriting
  awaitStop := awaitStop
  abortText message _ := message
  observe := observe

/-- The lines that the server has read on each connection, once it has looked at all of them. -/
def received (s : Stage) : List (List (List UInt8)) := s.leave.settle.done.reverse

end Stage

end LineClient
