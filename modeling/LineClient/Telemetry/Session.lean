import LineClient.Link.Connection
import LineClient.Reading
import LineClient.Text.Blank

/-!
# Telemetry sessions

A reader polls one reading over one connection: a command, a reply, a pause, and so on. Every reply
that carries the reading is recorded, and the others are logged and passed over. A session ends
when the sign to stop comes, or when the connection fails.

* `Reader`, `Reader.ofSettings`;
* `Session`, how far a session has got; `Session.step`, one round of it;
* **`Session.run`**, a number of rounds.
-/

namespace LineClient

/-- What a reader polls, how often, and how it recovers from failures. -/
structure Reader where
  address : String
  link : LinkSettings
  command : String
  key : String
  interval : Duration
  attempts : Nat
  backoff : Duration
  deriving DecidableEq, Repr

/-- The reader of the settings. -/
def Reader.ofSettings (s : Settings) : Reader where
  address := s.address
  link := s.link
  command := s.telemetry.command
  key := s.telemetry.measurement
  interval := s.telemetry.interval
  attempts := s.telemetry.reconnectAttempts
  backoff := s.telemetry.reconnectBackoff

namespace Reader

/-! ## Events -/

/-- An event of the reader. -/
def event (level : Level) (message : String) : Event where
  level := level
  source := .telemetry
  message := message

/-- Tells how the server greets. -/
def greeted (banner : String) : Event := event .debug ("Server says: " ++ trimBlanks banner)

/-- Tells that polling begins. -/
def begins (r : Reader) : Event :=
  event .info ("Polling `" ++ r.command ++ "` every " ++ r.interval.text)

/-- Tells of a reply without the reading. -/
def unreadable (r : Reader) (response : String) : Event :=
  event .warn ("Failed to parse " ++ r.key ++ " from response: " ++ trimBlanks response)

end Reader

/-- How a session ends. -/
inductive SessionEnd where
  /-- The sign to stop has come. -/
  | stopped
  | failed (e : ConnectionError)
  /-- There can be no buffer of the size wanted. -/
  | aborted
  deriving DecidableEq, Repr

/-- How far a session has got. -/
inductive Session where
  | opening
  /-- A connection is there, and so many replies have come. -/
  | polling (roundTrips : Nat)
  | over (result : SessionEnd) (roundTrips : Nat)
  deriving DecidableEq, Repr

namespace Session

variable {σ : Type} (r : Reader) (h : Host σ)

/-- Records the reading of a reply, or logs the reply. -/
def record (response : String) : Client σ Unit := do
  match reading? response r.key with
  | some value =>
    let time ← .perform fun s => (h.now s, s)
    .act h (.appended ⟨time, value⟩)
  | none => .log h (r.unreadable response)

/-- Reads the greeting of the server. -/
def greet : Client σ Unit := do
  if let some banner ← drainBanner h r.link then
    .log h (Reader.greeted banner)

/-- Makes the connection and reads the greeting. -/
def start : Client σ Session := do
  if ← .perform (h.stops .connection) then return .over .stopped 0
  else match ← openLink h r.link r.address with
    | .failed e => return .over (.failed e) 0
    | .aborted => return .over .aborted 0
    | .opened =>
      greet r h
      .log h r.begins
      return .polling 0

/-- Polls once and pauses. -/
def poll (roundTrips : Nat) : Client σ Session := do
  match ← requestUnlessStopped h r.link r.command with
  | none =>
    closeLink h
    return .over .stopped roundTrips
  | some (.error e) =>
    dropLink h
    return .over (.failed e) roundTrips
  | some (.ok response) =>
    record r h response
    if ← .perform (h.stops (.pause r.interval)) then
      closeLink h
      return .over .stopped (roundTrips + 1)
    else
      .pause h r.interval
      return .polling (roundTrips + 1)

/-- One round of a session. -/
def step : Session → Client σ Session
  | .opening => start r h
  | .polling roundTrips => poll r h roundTrips
  | .over result roundTrips => return .over result roundTrips

/-- At most `rounds` rounds of a session. -/
def run : (rounds : Nat) → Session → Client σ Session
  | 0, session => return session
  | _, .over result roundTrips => return .over result roundTrips
  | rounds + 1, session => do run rounds (← session.step r h)

end Session

end LineClient
