import LineClient.Link.Connection
import LineClient.Load.Summary
import LineClient.Random.Generator
import LineClient.Text.Blank

/-!
# Load workers

A worker makes one connection, lets the greeting come, draws how many commands it will send, and
sends that many, each drawn from the same list, waiting for a reply to each. A reply that does not
come in time is counted; every other failure ends the worker, and its report says why.

* `Worker`, `Worker.ofSettings`;
* `Worker.greet`, the greeting; `Worker.rounds`, the commands and their replies;
* **`Worker.run`**, the report of a worker, or none if it is aborted.
-/

namespace LineClient

/-- One simulated client. -/
structure Worker where
  id : Nat
  address : String
  link : LinkSettings
  commands : List String
  minIterations : Nat
  maxIterations : Nat
  bannerGrace : Duration
  commandDelay : Duration
  deriving DecidableEq, Repr

/-- The worker with a number. -/
def Worker.ofSettings (s : Settings) (id : Nat) : Worker where
  id := id
  address := s.address
  link := s.link
  commands := s.load.commands
  minIterations := s.load.minIterations
  maxIterations := s.load.maxIterations
  bannerGrace := s.load.bannerGrace
  commandDelay := s.load.commandDelay

/-- The commands that a worker has sent and got a reply to, or waited in vain for one. -/
structure Tally where
  iterations : Nat := 0
  timeouts : Nat := 0
  deriving DecidableEq, Repr

namespace Worker

variable {σ ρ : Type} (w : Worker)

/-! ## Events -/

/-- An event of the worker. -/
def event (level : Level) (message : String) : Event where
  level := level
  source := .load
  message := message
  worker := some w.id

/-- Tells that the worker has a connection. -/
def ready : Event := w.event .info "Connected to server"

/-- Tells how the server greets. -/
def greeted (banner : String) : Event := w.event .debug ("Server says: " ++ trimBlanks banner)

/-- Tells what the server replied to a command. -/
def answered (command response : String) : Event :=
  { w.event .info "Command answered" with
    command := some command
    response := some (trimBlanks response) }

/-- Tells that there was no reply to a command. -/
def unanswered (command : String) : Event :=
  { w.event .warn "Timeout waiting for response" with command := some command }

/-- Tells why the worker stopped early. -/
def stopped (t : Tally) (e : ConnectionError) : Event :=
  w.event .error ("Worker stopped after " ++ toString t.iterations ++ " commands: " ++ e.message)

/-! ## Runs -/

variable (h : Host σ) (g : Generator ρ)

/-- Sends a command and waits for a reply. The result is the new tally, or the failure that ends
the worker. -/
def exchange (command : String) (t : Tally) : Client σ (Except ConnectionError Tally) := do
  match ← sendCommand h w.link command with
  | .error e => return .error e
  | .ok () =>
    match ← receive h w.link with
    | .ok response =>
      .log h (w.answered command response)
      .pause h w.commandDelay
      return .ok { t with iterations := t.iterations + 1 }
    | .error e =>
      if e.isTimeout then
        .log h (w.unanswered command)
        .pause h w.commandDelay
        return .ok ⟨t.iterations + 1, t.timeouts + 1⟩
      else return .error e

/-- Sends `count` commands. Without any command to choose from there is nothing to do. -/
def rounds : (count : Nat) → ρ → Tally → Client σ (Tally × Option ConnectionError)
  | 0, _, t => return (t, none)
  | count + 1, s, t => do
    if w.commands.isEmpty then return (t, none)
    else
      let (i, s) := g.index w.commands.length s
      match ← exchange w h (w.commands.getD i "") t with
      | .ok t => rounds count s t
      | .error e => return (t, some e)

/-- The report of a worker that was to send `planned` commands. -/
def report (planned : Nat) (t : Tally) (failure : Option ConnectionError) : WorkerReport :=
  ⟨w.id, planned, t.iterations, t.timeouts, failure⟩

/-- The end of a worker that fails. -/
def fail (planned : Nat) (t : Tally) (e : ConnectionError) : Client σ WorkerReport := do
  .log h (w.stopped t e)
  return w.report planned t (some e)

/-- The end of a worker that has a connection. Only a worker that does not fail bids farewell. -/
def finish (planned : Nat) (t : Tally) :
    Option ConnectionError → Client σ (Option WorkerReport)
  | none => do
    closeLink h
    return some (w.report planned t none)
  | some e => do
    dropLink h
    some <$> w.fail h planned t e

/-- Lets the greeting of the server come and reads it. -/
def greet : Client σ Unit := do
  .log h w.ready
  .pause h w.bannerGrace
  if let some banner ← drainBanner h w.link then
    .log h (w.greeted banner)

/-- Draws the number of commands and sends them. The result is none if the bounds on the number are
inverted. -/
def converse (s : ρ) : Client σ (Option WorkerReport) := do
  if w.maxIterations < w.minIterations then
    dropLink h
    return none
  else
    let (planned, s) := g.between w.minIterations w.maxIterations s
    let (t, failure) ← rounds w h g planned s {}
    finish w h planned t failure

/-- Runs a worker. It is aborted if it can have no buffer, or if the bounds on the number of its
commands are inverted. -/
def run (s : ρ) : Client σ (Option WorkerReport) := do
  match ← openLink h w.link w.address with
  | .failed e => some <$> w.fail h 0 {} e
  | .aborted => return none
  | .opened =>
    greet w h
    converse w h g s

end Worker

end LineClient
