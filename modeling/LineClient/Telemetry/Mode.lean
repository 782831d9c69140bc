import LineClient.Series.Export
import LineClient.Telemetry.Reporter
import LineClient.Telemetry.Supervisor

/-!
# Telemetry from beginning to end

The reader and the reporter run side by side, and somebody listens for the sign to stop. A reader
that fails stops nothing: the reporter goes on until listening is over, which it is when the sign
comes, or when nobody can listen for it. Then the series is written to a file, if one is named, and
its length is told.

* `mergeByTime`, events in the order of time; `eventsUntil`, all events until the end;
* `Listening.told`, `Listening.stop`, what the listener tells, and when the reporter is stopped;
* `TelemetryRun`, `finishTelemetry`, **`telemetryRun?`**.
-/

namespace LineClient

/-- Two runs of events in the order of time. Of two events at the same moment the one of the first
run comes first. -/
def mergeByTime (first second : List (Duration × Event)) : List (Duration × Event) :=
  first.merge second fun x y => x.1.nanos ≤ y.1.nanos

/-- The events of a run, with their times. -/
def Record.timedEvents (r : Record) : List (Duration × Event) :=
  r.filterMap fun entry => entry.action.event?.map (entry.time, ·)

/-- Why telemetry ends without having done all of its work. -/
inductive TelemetryError where
  /-- The reader could have no buffer. -/
  | aborted (text : String)
  /-- The file that the settings name cannot be created. -/
  | uncreated (path : String) (cause : FileError)
  /-- The series cannot be written to the file. -/
  | unfinished (cause : FileError)
  deriving DecidableEq, Repr

/-- What came of telemetry. -/
structure TelemetryRun (σ : Type) where
  events : List Event
  series : Series
  files : FileTree
  error : Option TelemetryError
  state : σ

namespace TelemetryRun

/-- An event of the program. -/
def event (level : Level) (message : String) : Event where
  level := level
  source := .program
  message := message

/-- Tells that the sign to stop has come. -/
def interrupted : Event := event .debug "Ctrl-C received, stopping telemetry"

/-- Tells why nobody can listen for the sign to stop. -/
def unheard (cause : IoError) : Event :=
  event .warn ("Unable to listen for Ctrl-C: " ++ cause.message)

/-- Tells why the reader has failed. -/
def readerFailed (e : ConnectionError) : Event :=
  event .error ("Telemetry stopped: " ++ e.message ++ ". Press Ctrl-C to exit")

/-- Tells how many samples there are at the end. -/
def finished (s : Series) : Event :=
  event .info ("Telemetry stopped, " ++ toString s.length ++ " samples collected")

end TelemetryRun

namespace Listening

/-- What the listener tells. -/
def told : Listening → List (Duration × Event)
  | .waiting => []
  | .signed time => [(time, TelemetryRun.interrupted)]
  | .failed time cause => [(time, TelemetryRun.unheard cause)]

/-- When the reporter is stopped: at the sign, or else at the end. -/
def stop (last : Duration) : Listening → Duration
  | .signed time => time
  | _ => last

end Listening

/-- The series of the samples that were recorded in a run. -/
def Record.series (limit : Option Nat) (r : Record) : Series :=
  r.samples.foldl Series.append (.empty limit)

/-- What the reporter, the reader, the listener and the program tell until the reporter is stopped.
`closing` is what is told of the end of the reader. -/
def eventsUntil (settings : Settings) (record : Record) (closing : List (Duration × Event))
    (listening : Listening) (stop : Duration) : List Event :=
  let told := (reportLoop? settings.telemetry.reportPeriod settings.telemetry.maxSamples
    record.timedSamples stop).getD []
  let read := mergeByTime (record.timedEvents ++ closing) listening.told
  (mergeByTime told read).map (·.2)

section

variable {σ : Type} (h : Host σ)

/-- All that is told in the course of telemetry that is over in a state. -/
def telemetryEvents (settings : Settings) (record : Record)
    (closing : List (Duration × Event)) (state : σ) : List Event :=
  let listening := h.listening state
  eventsUntil settings record closing listening (listening.stop (h.now state))

/-- What follows the reader, once listening for the sign to stop is over: the reporter is stopped,
and the series is exported. -/
def finishTelemetry (settings : Settings) (files : FileTree) (record : Record)
    (closing : List (Duration × Event)) (state : σ) : TelemetryRun σ :=
  let series := record.series settings.telemetry.maxSamples
  let events := telemetryEvents h settings record closing state
  match settings.telemetry.exportCsv with
  | none => ⟨events ++ [TelemetryRun.finished series], series, files, none, state⟩
  | some path =>
    match files.exportSamples path series.toList with
    | .ok (files, exported) =>
      ⟨events ++ [exported, TelemetryRun.finished series], series, files, none, state⟩
    | .error (.uncreated cause) => ⟨events, series, files, some (.uncreated path cause), state⟩
    | .error (.unfinished files cause) => ⟨events, series, files, some (.unfinished cause), state⟩

/-- Runs telemetry; none if the reader has not ended after so many rounds, or has failed and the
sign to stop never comes. -/
def telemetryRun? (settings : Settings) (files : FileTree) (rounds : Nat) (state : σ) :
    Option (TelemetryRun σ) :=
  let reader := Reader.ofSettings settings
  let (supervision, record, state) := ((Supervision.begin.run reader h rounds).run state)
  match supervision with
  | .over .stopped => some (finishTelemetry h settings files record [] state)
  | .over (.failed e) =>
    let failed := (h.now state, TelemetryRun.readerFailed e)
    let state := h.awaitStop state
    if h.listening state = .waiting then none
    else some (finishTelemetry h settings files record [failed] state)
  | .over .aborted =>
    let text := h.abortText bufferTooLarge state
    some ⟨telemetryEvents h settings record [] state,
      record.series settings.telemetry.maxSamples, files, some (.aborted text), state⟩
  | .running .. => none

end

end LineClient
