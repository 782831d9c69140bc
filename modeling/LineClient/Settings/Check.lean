import LineClient.Settings.Basic

/-!
# Checking settings

Some settings are readable but of no use. The first fault in a fixed order is reported.

* `SettingsFault`, `SettingsFault.message`;
* **`Settings.fault?`**, `none` for settings that can be used.
-/

namespace LineClient

/-- Why settings cannot be used. -/
inductive SettingsFault where
  | noBuffer
  | noReportPeriod
  | noRetention
  | noWorkers
  | invertedIterations (min max : Nat)
  | noCommands
  deriving DecidableEq, Repr

def SettingsFault.message : SettingsFault → String
  | .noBuffer => "recv_buffer_size must be greater than 0"
  | .noReportPeriod => "telemetry.report_period_ms must be greater than 0"
  | .noRetention => "telemetry.max_samples must be greater than 0 when set"
  | .noWorkers => "load.workers must be greater than 0"
  | .invertedIterations min max => "load.min_iterations (" ++ toString min ++
      ") must not exceed load.max_iterations (" ++ toString max ++ ")"
  | .noCommands => "load.commands must contain at least one command"

/-- The first fault of the settings. -/
def Settings.fault? (s : Settings) : Option SettingsFault :=
  if s.recvBufferSize = 0 then some .noBuffer
  else if s.telemetry.reportPeriodMs = 0 then some .noReportPeriod
  else if s.telemetry.maxSamples = some 0 then some .noRetention
  else if s.load.workers = 0 then some .noWorkers
  else if s.load.maxIterations < s.load.minIterations then
    some (.invertedIterations s.load.minIterations s.load.maxIterations)
  else if s.load.commands.isEmpty then some .noCommands
  else none

end LineClient
