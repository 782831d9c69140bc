import LineClient.Series.Basic

/-!
# Reports on a series

A report counts the samples and gives their span, the latest value and the extremes. NaN is no
extreme: with nothing but NaN the least value is infinity and the greatest its negative.

* `Report.ofSamples?`, `Report.text`.
-/

namespace LineClient

/-- What is said about the samples of a series. -/
structure Report where
  count : Nat
  span : Duration
  latest : Binary64
  least : Binary64
  greatest : Binary64
  deriving DecidableEq, Repr

namespace Report

/-- The smallest value, or infinity. -/
def leastOf (samples : List Sample) : Binary64 :=
  samples.foldl (fun x s => x.least s.value) .infinity

/-- The largest value, or negative infinity. -/
def greatestOf (samples : List Sample) : Binary64 :=
  samples.foldl (fun x s => x.greatest s.value) .negInfinity

/-- The report on some samples, unless there are none. -/
def ofSamples? (samples : List Sample) : Option Report :=
  match samples.head?, samples.getLast? with
  | some first, some last => some {
      count := samples.length
      span := last.time.since first.time
      latest := last.value
      least := leastOf samples
      greatest := greatestOf samples }
  | _, _ => none

/-- The report as a line: the span with one place, the values with two. -/
def text (r : Report) : String :=
  toString r.count ++ " samples over " ++ r.span.seconds.fixed 1 ++ "s, latest " ++
    r.latest.fixed 2 ++ " (min " ++ r.least.fixed 2 ++ ", max " ++ r.greatest.fixed 2 ++ ")"

end Report

end LineClient
