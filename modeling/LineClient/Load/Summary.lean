import LineClient.Link.Error

/-!
# The summary of a load

Every worker leaves a report, or nothing if it was aborted. The summary counts what the reports
say; an aborted worker counts as a failed one.

* `WorkerReport`, `LoadSummary`;
* `LoadSummary.collect`, the summary of what the workers leave, in any order;
* `LoadSummary.workers`, `failed`, `commands`, `timeouts`, and `text`.
-/

namespace LineClient

/-- What one worker did: how many commands it was to send, how many were answered or waited for in
vain, and why it stopped early. -/
structure WorkerReport where
  id : Nat
  planned : Nat
  iterations : Nat
  timeouts : Nat
  failure : Option ConnectionError
  deriving DecidableEq, Repr

/-- The reports of the workers, and the number of those that left none. -/
structure LoadSummary where
  reports : List WorkerReport
  aborted : Nat
  deriving DecidableEq, Repr

namespace LoadSummary

/-- Adds what one worker leaves. -/
def add (s : LoadSummary) : Option WorkerReport → LoadSummary
  | some report => { s with reports := s.reports ++ [report] }
  | none => { s with aborted := s.aborted + 1 }

/-- The reports in the order of the workers. -/
def sorted (s : LoadSummary) : LoadSummary :=
  { s with reports := s.reports.mergeSort fun a b => a.id ≤ b.id }

/-- The summary of what the workers leave. -/
def collect (results : List (Option WorkerReport)) : LoadSummary :=
  (results.foldl add ⟨[], 0⟩).sorted

/-! ## Counts -/

def workers (s : LoadSummary) : Nat := s.reports.length + s.aborted

def failed (s : LoadSummary) : Nat := s.reports.countP (·.failure.isSome) + s.aborted

def commands (s : LoadSummary) : Nat := s.reports.foldl (fun n r => n + r.iterations) 0

def timeouts (s : LoadSummary) : Nat := s.reports.foldl (fun n r => n + r.timeouts) 0

/-- The summary in one line. -/
def text (s : LoadSummary) : String :=
  "All " ++ toString s.workers ++ " workers finished: " ++ toString s.failed ++ " failed, " ++
    toString s.commands ++ " commands sent, " ++ toString s.timeouts ++ " timeouts"

end LoadSummary

end LineClient
