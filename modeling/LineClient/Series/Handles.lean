import LineClient.Series.Report

/-!
# Shared series

Any number of handles may share one series. Each handle has a limit with it, which a new handle
takes over from the one that it is made from; the samples they have in common.

* `SharedSeries`, `SharedSeries.Step`, `SharedSeries.Answer`;
* `SharedSeries.seen?`, the series as a handle has it;
* `SharedSeries.take?`, one step through a handle;
* `SharedSeries.course`, a list of steps, and `SharedSeries.answers`, the answers to them.
-/

namespace LineClient

/-- The samples that all handles share, the newest first, and the limits of the handles. -/
structure SharedSeries where
  newestFirst : List Sample
  limits : List (Option Nat)
  deriving DecidableEq, Repr

namespace SharedSeries

/-- What can be done through a handle. -/
inductive Step where
  | append (x : Sample)
  | snapshot
  | latest
  | length
  | isEmpty
  | share
  | report
  deriving DecidableEq, Repr

/-- What a step answers. -/
inductive Answer where
  | count (n : Nat)
  | samples (xs : List Sample)
  | sample (x : Option Sample)
  | flag (b : Bool)
  | report (r : Option Report)
  deriving DecidableEq, Repr

/-- A new series under one handle, the handle `0`. -/
def new (limit : Option Nat) : SharedSeries := ⟨[], [limit]⟩

/-- The series as a handle has it; none if there is no such handle. -/
def seen? (s : SharedSeries) (handle : Nat) : Option Series :=
  s.limits[handle]?.map fun limit => ⟨limit, s.newestFirst⟩

/-- One step through a handle that has the series. Recording answers the new length, sharing the
number of the new handle. -/
def take (s : SharedSeries) (series : Series) : Step → Answer × SharedSeries
  | .append x =>
    let series := series.append x
    (.count series.length, { s with newestFirst := series.newestFirst })
  | .snapshot => (.samples series.toList, s)
  | .latest => (.sample series.latest?, s)
  | .length => (.count series.length, s)
  | .isEmpty => (.flag series.isEmpty, s)
  | .share => (.count s.limits.length, { s with limits := s.limits ++ [series.limit] })
  | .report => (.report (Report.ofSamples? series.toList), s)

/-- One step through the handle of a number; none if there is no such handle. -/
def take? (s : SharedSeries) (handle : Nat) (step : Step) : Option (Answer × SharedSeries) :=
  (s.seen? handle).map (s.take · step)

/-- Steps one after the other, each through the handle of the given number: the answers, and what
there is at the end. Nothing is done through a handle that there is not. -/
def course (s : SharedSeries) : List (Nat × Step) → List Answer × SharedSeries
  | [] => ([], s)
  | (handle, step) :: rest =>
    match s.take? handle step with
    | none => s.course rest
    | some (answer, s) =>
      let (answers, s) := s.course rest
      (answer :: answers, s)

/-- The answers to steps. -/
def answers (s : SharedSeries) (steps : List (Nat × Step)) : List Answer := (s.course steps).1

end SharedSeries

end LineClient
