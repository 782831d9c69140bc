import LineClient.CommandLine.Arguments
import LineClient.Load.Coordinator
import LineClient.Log.Filter
import LineClient.Settings.Sources
import LineClient.Telemetry.Mode

/-!
# The program

The program reads its arguments and its settings, and then loads the server or polls it. What it
logs is filtered by the variable `RUST_LOG`, or else by the settings.

* `Failure`, why the program fails, and `Failure.text`, how it says so;
* `Surroundings`, what the program finds, and `Outcome`, what it leaves;
* **`runProgram`**.
-/

namespace LineClient

/-! ## Failures -/

/-- Why the program fails after it has understood its arguments. -/
inductive Failure where
  | settings (e : SettingsError)
  | telemetry (e : TelemetryError)
  deriving DecidableEq, Repr

/-- The message of a failure. -/
def Failure.message : Failure → String
  | .settings _ => "Error loading config"
  | .telemetry (.aborted _) => "Telemetry task panicked"
  | .telemetry (.uncreated path _) => "Error creating " ++ path
  | .telemetry (.unfinished cause) => cause.message

/-- What a malformed file is told by. -/
def malformedText : String := "malformed configuration file"

/-- What a failure follows from, each cause in front of its own cause. -/
def Failure.causes : Failure → List String
  | .settings .malformed => [malformedText]
  | .settings .outOfReach => ["list index out of reach"]
  | .settings (.mismatch path m) => ["Invalid configuration in " ++ path, m.message]
  | .settings (.fault f) => [f.message]
  | .telemetry (.aborted text) => [text]
  | .telemetry (.uncreated _ cause) => [cause.message]
  | .telemetry (.unfinished _) => []

/-- A text whose later lines begin with `margin`. -/
def hang (margin text : String) : String := ("\n" ++ margin).intercalate (text.splitOn "\n")

/-- The causes on lines of their own, numbered if there are several. -/
def causeLines : List String → List String
  | [cause] => ["    " ++ hang "    " cause]
  | causes => causes.zipIdx.map fun (cause, i) =>
    String.ofList (List.replicate (5 - (toString i).length) ' ') ++ toString i ++ ": " ++
      hang "       " cause

/-- A failure and its causes, if it has any. -/
def Failure.text (f : Failure) : String :=
  let first := "Error: " ++ f.message
  if f.causes.isEmpty then first
  else "\n".intercalate (first :: "" :: "Caused by:" :: causeLines f.causes)

/-! ## Runs -/

/-- What the program finds: files, variables, a state of the host for each worker, the first of
which telemetry uses too, and random numbers for workers without a seed. -/
structure Surroundings (σ : Type) where
  files : FileTree
  environment : List (String × String)
  states : Nat → σ
  unseeded : Nat → ChaCha

/-- How a run of the program ends. -/
inductive Ending where
  | done
  | help
  /-- The arguments cannot be understood. -/
  | misused
  | failed (f : Failure)
  deriving DecidableEq, Repr

/-- The number that the program answers with. -/
def Ending.code : Ending → UInt32
  | .done => 0
  | .help => 0
  | .misused => 2
  | .failed _ => 1

/-- What the program leaves. -/
structure Outcome (σ : Type) where
  ending : Ending
  log : List Event
  files : FileTree
  states : List σ

/-- The file of settings that is read if none is named. -/
def defaultSettingsFile : String := "config.toml"

/-- The settings with what the command line says. -/
def Settings.withOptions (s : Settings) (o : Options) : Settings :=
  { s with host := o.host.getD s.host, port := o.port.getD s.port }

/-- The filter of the variable `RUST_LOG`, or else of the settings. -/
def logFilter (environment : List (String × String)) (s : Settings) : Filter :=
  let named := (environment.reverse.find? (·.1 = "RUST_LOG")).bind fun (_, text) =>
    Filter.ofText? text
  named.getD (.ofText s.logLevel)

/-- Runs the program; none if telemetry has not ended after so many rounds. -/
def runProgram {σ : Type} (h : Host σ) (rounds : Nat) (around : Surroundings σ)
    (args : List String) : Option (Outcome σ) :=
  let only (ending : Ending) : Outcome σ := ⟨ending, [], around.files, []⟩
  match Arguments.ofList args with
  | .help => some (only .help)
  | .wrong => some (only .misused)
  | .run invocation =>
    let path := invocation.options.config.getD defaultSettingsFile
    match Settings.ofSources around.files around.environment path with
    | .error e => some (only (.failed (.settings e)))
    | .ok settings =>
      let settings := settings.withOptions invocation.options
      let filter := logFilter around.environment settings
      match invocation.mode with
      | .load =>
        let run := runLoad h settings around.unseeded around.states
        some ⟨.done, run.events.filter filter.admits, around.files, run.workers.map (·.state)⟩
      | .telemetry =>
        (telemetryRun? h settings around.files rounds (around.states 0)).map fun run =>
          let ending := match run.error with
            | none => .done
            | some e => .failed (.telemetry e)
          ⟨ending, run.events.filter filter.admits, run.files, [run.state]⟩

end LineClient
