import LineClient.Settings.Basic
import LineClient.Settings.Mismatch

/-!
# Settings out of a tree

Each setting is read from the place of its name; a setting without a place keeps its default. The
settings of a section may also stand in a list, in the order of their declaration. Booleans,
numbers and texts stand for each other where that makes sense.

* `Tree.natural`, `Tree.text`, `Tree.optional`, `Tree.texts`: one setting;
* `Section`, `Section.read`: the places of a section;
* **`Settings.ofTree`**, all settings.
-/

namespace LineClient

/-! ## Single values -/

/-- The natural number that a text stands for: a switch word in any case, or digits with an
optional plus, within 64 bits. -/
def naturalOfText? (text : String) : Option Nat :=
  let word := String.ofList (asciiLower text.toList)
  if word = "true" ∨ word = "on" ∨ word = "yes" then some 1
  else if word = "false" ∨ word = "off" ∨ word = "no" then some 0
  else if text.toList.head? = some '-' then none
  else (Decimal.integer? text.toList).bind fun i => if i < 2 ^ 64 then some i.toNat else none

namespace Tree

/-- A natural number of at most 64 bits. -/
def unsigned (key : String) (t : Tree) : Except Mismatch Nat :=
  match t with
  | .scalar origin (.integer i) =>
    if 0 ≤ i then .ok i.toNat
    else .error (.value (describe "64-bit integer" (toString i))
      "an unsigned 64 bit or less integer" key origin)
  | .scalar _ (.boolean b) => .ok (if b then 1 else 0)
  | .scalar _ (.float x) => .ok (x.toNatUpTo (2 ^ 64 - 1))
  | .scalar _ (.text s) =>
    match naturalOfText? s with
    | some n => .ok n
    | none => .error (t.mismatch "an integer" key)
  | _ => .error (t.mismatch "an integer" key)

/-- A natural number of at most `bits` bits. -/
def natural (bits : Nat) (key : String) (t : Tree) : Except Mismatch Nat := do
  let n ← t.unsigned key
  if n < 2 ^ bits then .ok n
  else .error (.value (describe "64-bit unsigned integer" (toString n))
    ("an unsigned " ++ toString bits ++ " bit integer") key none)

/-- A text, or a single value in its written form. -/
def text (key : String) (t : Tree) : Except Mismatch String :=
  match t with
  | .scalar _ (.text s) => .ok s
  | .scalar _ (.boolean b) => .ok (toString b)
  | .scalar _ (.integer i) => .ok (toString i)
  | .scalar _ (.float x) => .ok x.shortest
  | _ => .error (t.mismatch "a string" key)

/-- A setting that may be left out on purpose. -/
def optional {α : Type} (read : String → Tree → Except Mismatch α) (key : String) (t : Tree) :
    Except Mismatch (Option α) :=
  match t with
  | .scalar _ .nil => .ok none
  | t => some <$> read key t

/-- The path of an element. -/
def elementKey (key : String) (i : Nat) : String := key ++ "[" ++ toString i ++ "]"

/-- A list of texts. -/
def texts (key : String) : Tree → Except Mismatch (List String)
  | .list _ items => items.zipIdx.mapM fun (t, i) => t.text (elementKey key i)
  | t => .error (t.shapeMismatch "a sequence")

end Tree

/-! ## Sections -/

/-- The places of the settings of a section. -/
inductive Section where
  /-- Settings by name. The path of the section stands in front of their names. -/
  | named (path : String) (entries : Entries Tree)
  /-- Settings in the order of their declaration. -/
  | listed (path : String) (items : List Tree)

/-- The section at a path. -/
def Tree.asSection (wanted path : String) : Tree → Except Mismatch Section
  | .table _ entries => .ok (.named (path ++ ".") entries)
  | .list _ items => .ok (.listed path items)
  | t => .error (t.shapeMismatch wanted)

namespace Section

/-- The value of a setting and its path. -/
def find? (s : Section) (index : Nat) (name : String) : Option (String × Tree) :=
  match s with
  | .named path entries => (entries.find? name).map (path ++ name, ·)
  | .listed path items => items[index]?.map (Tree.elementKey path index, ·)

/-- Reads a setting. One without a place keeps its default. -/
def read {α : Type} (s : Section) (index : Nat) (name : String) (default : α)
    (read : String → Tree → Except Mismatch α) : Except Mismatch α :=
  match s.find? index name with
  | some (key, t) => read key t
  | none => .ok default

end Section

/-- The settings of telemetry. -/
def TelemetrySettings.ofTree (path : String) (t : Tree) : Except Mismatch TelemetrySettings := do
  let s ← t.asSection "struct TelemetryConfig" path
  let d : TelemetrySettings := {}
  return {
    sensorId := ← s.read 0 "sensor_id" d.sensorId (Tree.natural 32)
    measurement := ← s.read 1 "measurement" d.measurement Tree.text
    intervalMs := ← s.read 2 "interval_ms" d.intervalMs (Tree.natural 64)
    reportPeriodMs := ← s.read 3 "report_period_ms" d.reportPeriodMs (Tree.natural 64)
    maxSamples := ← s.read 4 "max_samples" d.maxSamples (Tree.optional (Tree.natural 64))
    reconnectAttempts := ← s.read 5 "reconnect_attempts" d.reconnectAttempts (Tree.natural 32)
    reconnectBackoffMs :=
      ← s.read 6 "reconnect_backoff_ms" d.reconnectBackoffMs (Tree.natural 64)
    exportCsv := ← s.read 7 "export_csv" d.exportCsv (Tree.optional Tree.text) }

/-- The settings of the load. -/
def LoadSettings.ofTree (path : String) (t : Tree) : Except Mismatch LoadSettings := do
  let s ← t.asSection "struct LoadConfig" path
  let d : LoadSettings := {}
  return {
    workers := ← s.read 0 "workers" d.workers (Tree.natural 64)
    minIterations := ← s.read 1 "min_iterations" d.minIterations (Tree.natural 64)
    maxIterations := ← s.read 2 "max_iterations" d.maxIterations (Tree.natural 64)
    bannerGraceMs := ← s.read 3 "banner_grace_ms" d.bannerGraceMs (Tree.natural 64)
    commandDelayMs := ← s.read 4 "command_delay_ms" d.commandDelayMs (Tree.natural 64)
    seed := ← s.read 5 "seed" d.seed (Tree.optional (Tree.natural 64))
    commands := ← s.read 6 "commands" d.commands Tree.texts }

/-- All settings. -/
def Settings.ofTree (t : Tree) : Except Mismatch Settings := do
  let s : Section := .named "" t.entries
  let d : Settings := {}
  return {
    logLevel := ← s.read 0 "log_level" d.logLevel Tree.text
    host := ← s.read 1 "host" d.host Tree.text
    port := ← s.read 2 "port" d.port (Tree.natural 16)
    connectTimeoutMs := ← s.read 3 "connect_timeout_ms" d.connectTimeoutMs (Tree.natural 64)
    sendTimeoutMs := ← s.read 4 "send_timeout_ms" d.sendTimeoutMs (Tree.natural 64)
    responseTimeoutMs := ← s.read 5 "response_timeout_ms" d.responseTimeoutMs (Tree.natural 64)
    bannerTimeoutMs := ← s.read 6 "banner_timeout_ms" d.bannerTimeoutMs (Tree.natural 64)
    recvBufferSize := ← s.read 7 "recv_buffer_size" d.recvBufferSize (Tree.natural 64)
    telemetry := ← s.read 8 "telemetry" d.telemetry TelemetrySettings.ofTree
    load := ← s.read 9 "load" d.load LoadSettings.ofTree }

end LineClient
