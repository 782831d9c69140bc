import LineClient.Series.Basic

/-!
# Series as comma separated values

One row for each sample: the seconds since the first one with three places, and the value in its
shortest form.

* `csvHeader`, `csvRow`, `csvText`.
-/

namespace LineClient

/-- The names of the two columns. -/
def csvHeader : String := "elapsed_secs,value\n"

/-- The row of a sample, with times counted from `start`. -/
def csvRow (start : Duration) (s : Sample) : String :=
  (s.time.since start).seconds.fixed 3 ++ "," ++ s.value.shortest ++ "\n"

/-- The header and the rows of the samples. -/
def csvText (samples : List Sample) : String :=
  match samples with
  | [] => csvHeader
  | first :: _ => samples.foldl (fun text s => text ++ csvRow first.time s) csvHeader

end LineClient
