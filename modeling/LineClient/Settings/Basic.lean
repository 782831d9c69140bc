import LineClient.Duration

/-!
# Settings

The settings of a client: where the server is, how long to wait for it, how to poll it and how to
load it. Times are whole milliseconds, and accessors turn them into durations.

* `Settings`, `TelemetrySettings`, `LoadSettings`, with their defaults;
* `LinkSettings`, what a single connection needs to know.
-/

namespace LineClient

/-- How to poll one reading. -/
structure TelemetrySettings where
  sensorId : Nat := 0
  measurement : String := "temp"
  intervalMs : Nat := 100
  reportPeriodMs : Nat := 500
  maxSamples : Option Nat := none
  reconnectAttempts : Nat := 0
  reconnectBackoffMs : Nat := 500
  exportCsv : Option String := none
  deriving DecidableEq, Repr

/-- How to load the server. -/
structure LoadSettings where
  workers : Nat := 25
  minIterations : Nat := 100
  maxIterations : Nat := 200
  bannerGraceMs : Nat := 500
  commandDelayMs : Nat := 50
  seed : Option Nat := none
  commands : List String := ["server uptime", "gpio set 0 1", "server net", "sensor list",
    "server help", "gpio get 1", "sensor read 0"]
  deriving DecidableEq, Repr

/-- The settings of a client. -/
structure Settings where
  logLevel : String := "info"
  host : String := "127.0.0.1"
  port : Nat := 65002
  connectTimeoutMs : Nat := 3000
  sendTimeoutMs : Nat := 2000
  responseTimeoutMs : Nat := 2000
  bannerTimeoutMs : Nat := 1000
  recvBufferSize : Nat := 2048
  telemetry : TelemetrySettings := {}
  load : LoadSettings := {}
  deriving DecidableEq, Repr

/-- What a connection needs to know: how long its operations may take, and how many bytes it reads
at once. -/
structure LinkSettings where
  connectTimeout : Duration
  sendTimeout : Duration
  responseTimeout : Duration
  bannerTimeout : Duration
  recvBufferSize : Nat
  deriving DecidableEq, Repr

namespace TelemetrySettings

def interval (s : TelemetrySettings) : Duration := .ofMillis s.intervalMs
def reportPeriod (s : TelemetrySettings) : Duration := .ofMillis s.reportPeriodMs
def reconnectBackoff (s : TelemetrySettings) : Duration := .ofMillis s.reconnectBackoffMs

/-- The command that asks for the reading. -/
def command (s : TelemetrySettings) : String :=
  "sensor get " ++ toString s.sensorId ++ " " ++ s.measurement

end TelemetrySettings

namespace LoadSettings

def bannerGrace (s : LoadSettings) : Duration := .ofMillis s.bannerGraceMs
def commandDelay (s : LoadSettings) : Duration := .ofMillis s.commandDelayMs

end LoadSettings

namespace Settings

def link (s : Settings) : LinkSettings where
  connectTimeout := .ofMillis s.connectTimeoutMs
  sendTimeout := .ofMillis s.sendTimeoutMs
  responseTimeout := .ofMillis s.responseTimeoutMs
  bannerTimeout := .ofMillis s.bannerTimeoutMs
  recvBufferSize := s.recvBufferSize

/-- The address of the server, as host and port. -/
def address (s : Settings) : String := s.host ++ ":" ++ toString s.port

end Settings

end LineClient
