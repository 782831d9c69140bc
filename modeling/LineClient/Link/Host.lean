import LineClient.Link.Action

/-!
# What a client runs on

A host offers a client one connection at a time, a clock, and a sign to stop. It may do so over a
network or by pretending to; whatever it does, a reading that yields bytes yields at least one and
not more than asked for, and a line is written up to its end or not. It may turn out that nobody can
listen for the sign; then it never comes.

* `ReadOutcome`, `WriteOutcome`, `Waiting`, `Listening`;
* **`Host`**, the operations on a state of the host; `Host.signTime?`.
-/

namespace LineClient

/-- Bytes that were read at once: at least one, and at most `max`. -/
structure Chunk (max : Nat) where
  bytes : List UInt8
  nonempty : bytes ≠ []
  length_le : bytes.length ≤ max

/-- How a reading of at most `max` bytes ends. -/
inductive ReadOutcome (max : Nat) where
  | chunk (c : Chunk max)
  /-- The peer has closed, or the reading has failed for a reason that the system tells. -/
  | ended (failure : Option IoError)
  /-- Nothing came within the time allowed. -/
  | silence

/-- How the writing of a line ends. A line that is not complete is cut short. -/
inductive WriteOutcome (line : ByteArray) where
  | complete
  | failed (count : Fin line.size) (cause : IoError)
  /-- The peer did not take the line within the time allowed. -/
  | stalled (count : Fin line.size)

/-- What a client may be waiting for when it is told to stop. -/
inductive Waiting where
  | connection
  | reply (wait : Duration)
  | pause (d : Duration)
  deriving DecidableEq, Repr

/-- What has become of listening for the sign to stop. -/
inductive Listening where
  | waiting
  /-- The sign came. -/
  | signed (time : Duration)
  /-- Nobody can listen for it. -/
  | failed (time : Duration) (cause : IoError)
  deriving DecidableEq, Repr

/-- What a client runs on. Every operation changes the state of the host; waiting takes time. -/
structure Host (σ : Type) where
  now : σ → Duration
  listening : σ → Listening
  /-- Makes a connection to an address within the time allowed. -/
  connect : (address : String) → (wait : Duration) → σ → Except IoError Unit × σ
  /-- Writes a line within the time allowed. -/
  write : (line : ByteArray) → (wait : Duration) → σ → WriteOutcome line × σ
  /-- Reads at most `max` bytes within the time allowed. -/
  read : (max : Nat) → (wait : Duration) → σ → ReadOutcome max × σ
  /-- What the system says against ending the conversation in good order, if it does. -/
  shutdownFailure? : σ → Option IoError
  /-- Gives up the connection. -/
  close : σ → σ
  /-- Lets time pass. -/
  pause : (d : Duration) → σ → σ
  /-- Whether the sign to stop comes before the client has got what it waits for. -/
  stops : Waiting → σ → Bool × σ
  /-- Whether the sign to stop comes before a line is written, and after how many bytes of it. -/
  stopsWriting : (line : ByteArray) → σ → Option (Fin line.size) × σ
  /-- Waits until listening for the sign to stop is over. -/
  awaitStop : σ → σ
  /-- How it is told that the client was aborted with a message. -/
  abortText : (message : String) → σ → String
  /-- Takes note of what the client does. -/
  observe : Action → σ → σ

/-- When the sign to stop came, if it has come. -/
def Host.signTime? {σ : Type} (h : Host σ) (s : σ) : Option Duration :=
  match h.listening s with
  | .signed time => some time
  | _ => none

end LineClient
