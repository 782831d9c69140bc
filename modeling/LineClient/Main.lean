import LineClient.CommandLine.Program
import LineClient.Link.Stage

/-!
# The command line

The outer layer: it gathers files and variables, runs the program, and prints what it logs. There
is no network here, so the program runs on a stage where nobody listens.

* `findDirectories`, `findFile`, `findFiles`, `findVariables`;
* `main`.
-/

namespace LineClient

/-- The variables that the program looks at. -/
def variableNames : List String :=
  "RUST_LOG" :: [
    "LOG_LEVEL", "HOST", "PORT", "CONNECT_TIMEOUT_MS", "SEND_TIMEOUT_MS", "RESPONSE_TIMEOUT_MS",
    "BANNER_TIMEOUT_MS", "RECV_BUFFER_SIZE", "TELEMETRY__SENSOR_ID", "TELEMETRY__MEASUREMENT",
    "TELEMETRY__INTERVAL_MS", "TELEMETRY__REPORT_PERIOD_MS", "TELEMETRY__MAX_SAMPLES",
    "TELEMETRY__RECONNECT_ATTEMPTS", "TELEMETRY__RECONNECT_BACKOFF_MS", "TELEMETRY__EXPORT_CSV",
    "LOAD__WORKERS", "LOAD__MIN_ITERATIONS", "LOAD__MAX_ITERATIONS", "LOAD__BANNER_GRACE_MS",
    "LOAD__COMMAND_DELAY_MS", "LOAD__SEED", "LOAD__COMMANDS"].map ("PIHUB__" ++ ·)

/-- The variables that are set, with their values. -/
def findVariables : IO (List (String × String)) :=
  variableNames.filterMapM fun name => do return (← IO.getEnv name).map (name, ·)

/-- The name of a place. -/
def placeText (place : List String) : String := "/" ++ "/".intercalate place

/-- Adds the directories on a path to a tree, as far as they are there, and what the path names if
this is one. -/
def findDirectories (t : FileTree) (path : String) : IO FileTree :=
  let p := Path.ofText path
  (List.range (p.components.length + 1)).foldlM (fun t n => do
    let place := t.placeOf { p with components := p.components.take n }
    try
      let real ← IO.FS.realPath (placeText place)
      return if ← real.isDir then t.withDirectory place else t
    catch _ => return t) t

/-- Adds a file to a tree, if it is there, and the directories on the way to it. -/
def findFile (t : FileTree) (path : String) : IO FileTree := do
  let t ← findDirectories t path
  try return t.put (t.placeOf (.ofText path)) (← IO.FS.readBinFile path)
  catch _ => return t

/-- The files and directories that the program asks for. -/
def findFiles (environment : List (String × String)) (args : List String) : IO FileTree := do
  let home := (Path.ofText (← IO.currentDir).toString).components
  match Arguments.ofList args with
  | .run invocation =>
    let path := invocation.options.config.getD defaultSettingsFile
    let t ← findFile (← findFile { home } path) (path ++ ".toml")
    match Settings.ofSources t environment path with
    | .ok s => (s.telemetry.exportCsv.map (findDirectories t)).getD (pure t)
    | .error _ => return t
  | _ => return { home }

/-- How the program is called. -/
def usage : String :=
  "Telemetry reader and load generator\n\n" ++
    "Usage: [--config <CONFIG>] [--host <HOST>] [--port <PORT>] <telemetry|load>"

end LineClient

open LineClient in
/-- Runs the program. -/
def main (args : List String) : IO UInt32 := do
  let environment ← findVariables
  let files ← findFiles environment args
  let seed ← IO.rand 0 (2 ^ 64 - 1)
  let around : Surroundings Stage := {
    files := files
    environment := environment
    states := fun _ => { address := "", reach := .refused }
    unseeded := fun id => .ofSeed (workerSeed seed id) }
  let some outcome := runProgram Stage.host (2 ^ 62) around args | return 1
  for event in outcome.log do
    IO.println event.line
  match outcome.ending with
  | .done => pure ()
  | .help => IO.println usage
  | .misused => IO.eprintln usage
  | .failed f => IO.eprintln f.text
  for (place, content) in outcome.files.files do
    unless files.files.contains (place, content) do
      IO.FS.writeBinFile (placeText place) content
  return outcome.ending.code
