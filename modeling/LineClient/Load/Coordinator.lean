import LineClient.Load.Worker
import LineClient.Random.ChaCha

/-!
# Load

All workers run at the same time, each on its own connection and with its own random numbers, so
no worker depends on another one. The load is over when all of them are.

* `workerSeed`, `WorkerRun`, `runWorker`;
* `Settings.abortMessage`, `abortText`, why a worker leaves no report;
* **`LoadRun`**, **`runLoad`**, the workers and the summary of their reports.
-/

namespace LineClient

/-- The seed of a worker: the seed of the load and the number of the worker, modulo `2 ^ 64`. -/
def workerSeed (seed id : Nat) : UInt64 := UInt64.ofNat (seed + id)

/-- What came of a worker. -/
structure WorkerRun (σ : Type) where
  id : Nat
  report : Option WorkerReport
  record : Record
  state : σ

/-- The load: its workers and their summary. -/
structure LoadRun (σ : Type) where
  settings : Settings
  workers : List (WorkerRun σ)
  summary : LoadSummary
  /-- How it is told of each worker that it was aborted, if it was. -/
  abortText : Nat → String

/-- Why a worker is aborted that has no number of commands to draw from. -/
def emptyRange : String := "cannot sample empty range"

/-- Why a worker is aborted. -/
def Settings.abortMessage (s : Settings) : String :=
  if largestBuffer < s.recvBufferSize then bufferTooLarge else emptyRange

section

variable {σ : Type} (h : Host σ) (settings : Settings)

/-- Runs one worker. Without a seed its random numbers come from elsewhere. -/
def runWorker (unseeded : Nat → ChaCha) (states : Nat → σ) (id : Nat) : WorkerRun σ :=
  let random := match settings.load.seed with
    | some seed => ChaCha.ofSeed (workerSeed seed id)
    | none => unseeded id
  let (report, record, state) :=
    ((Worker.ofSettings settings id).run h ChaCha.generator random).run (states id)
  ⟨id, report, record, state⟩

/-- How it is told that a worker was aborted. -/
def abortText (states : Nat → σ) (id : Nat) : String :=
  h.abortText settings.abortMessage (states id)

/-- Runs all workers. -/
def runLoad (unseeded : Nat → ChaCha) (states : Nat → σ) : LoadRun σ :=
  let workers := (List.range settings.load.workers).map (runWorker h settings unseeded states)
  ⟨settings, workers, .collect (workers.map (·.report)), abortText h settings states⟩

end

namespace LoadRun

variable {σ : Type}

/-- An event of the load as a whole. -/
def event (level : Level) (message : String) : Event where
  level := level
  source := .load
  message := message

/-- Tells that the workers begin. -/
def starting (s : Settings) : Event :=
  event .info ("Starting " ++ toString s.load.workers ++ " workers against " ++ s.address)

/-- Tells that a worker left no report. -/
def aborted (text : String) : Event :=
  { event .error "Worker task aborted" with cause := some text }

/-- The workers that were aborted. -/
def abortedIds (run : LoadRun σ) : List Nat :=
  (run.workers.filter (·.report.isNone)).map (·.id)

/-- What was logged: the beginning, what the workers did, the aborted ones, and the summary. -/
def events (run : LoadRun σ) : List Event :=
  starting run.settings :: run.workers.flatMap (·.record.events) ++
    run.abortedIds.map (aborted ∘ run.abortText) ++ [event .info run.summary.text]

end LoadRun

end LineClient
