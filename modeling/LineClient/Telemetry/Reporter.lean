import LineClient.Log.Event
import LineClient.Series.Report

/-!
# The reporter

The reporter looks at the series at the beginning and then once in every period, until it is
stopped. It reports what it sees, or that there is nothing yet.

* `reportEvent`, what is told of a series;
* `reportsFrom`, what is told from one look on;
* **`reportLoop?`**, what is told until a moment, none without a period.
-/

namespace LineClient

/-- Tells that the series is still empty. -/
def noSamples : Event where
  level := .debug
  source := .telemetry
  message := "No samples yet"

/-- What is told of a series. -/
def reportEvent (samples : List Sample) : Event :=
  match Report.ofSamples? samples with
  | some report => { level := .info, source := .telemetry, message := report.text }
  | none => noSamples

/-- What is told from the look at `time` on, with the times, until the reporter is stopped. What
comes in is in the order of time, and what comes at the moment of a look comes too late for it. -/
def reportsFrom (period : Duration) (hperiod : period ≠ .zero) (stop time : Duration)
    (series : Series) (incoming : List (Duration × Sample)) : List (Duration × Event) :=
  if stop.nanos < time.nanos then []
  else
    let earlier := incoming.takeWhile (·.1.nanos < time.nanos)
    let later := incoming.dropWhile (·.1.nanos < time.nanos)
    let series := earlier.foldl (fun series x => series.append x.2) series
    (time, reportEvent series.toList) ::
      reportsFrom period hperiod stop (time.after period) series later
termination_by stop.nanos + 1 - time.nanos
decreasing_by
  have hpos : period.nanos ≠ 0 := fun h => hperiod (congrArg Duration.mk h)
  simp only [Duration.after]
  omega

/-- What the reporter tells until it is stopped, with the times. -/
def reportLoop? (period : Duration) (limit : Option Nat) (incoming : List (Duration × Sample))
    (stop : Duration) : Option (List (Duration × Event)) :=
  if hperiod : period = .zero then none
  else some (reportsFrom period hperiod stop .zero (.empty limit) incoming)

end LineClient
