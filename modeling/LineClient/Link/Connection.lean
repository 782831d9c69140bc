import LineClient.Link.Client
import LineClient.Settings.Basic
import LineClient.Text.Utf8

/-!
# A connection

A connection carries commands, one on a line, and replies, which have no frame: whatever one
reading yields is a reply. A reply in two pieces is therefore two replies, and the second one
answers the next command.

* `openLink`, `drainBanner`;
* `closeLink`, `dropLink`, the end of a connection with and without a farewell;
* `sendCommand`, `receive`, `request`;
* `requestUnlessStopped`, a request that the sign to stop interrupts.
-/

namespace LineClient

variable {σ : Type} (h : Host σ) (settings : LinkSettings)

/-- How the making of a connection ends. -/
inductive Opening where
  | opened
  | failed (e : ConnectionError)
  /-- There can be no buffer of the size wanted. -/
  | aborted
  deriving DecidableEq, Repr

/-- The greatest size of a buffer. -/
def largestBuffer : Nat := 2 ^ 63 - 1

/-- Why a client is aborted that wants a larger one. -/
def bufferTooLarge : String := "capacity overflow"

/-- Tells that a connection was made. -/
def connected (address : String) : Event where
  level := .debug
  source := .connection
  message := "Connected to " ++ address

/-- Tells that the server did not greet. -/
def noBanner (e : ConnectionError) : Event where
  level := .debug
  source := .connection
  message := "No banner received: " ++ e.message

/-- Tells why a reading has failed. -/
def readFailed (cause : IoError) : Event where
  level := .debug
  source := .connection
  message := "Read failed, treating connection as closed: " ++ cause.message

/-- Tells why a conversation has not ended in good order. -/
def shutdownFailed (cause : IoError) : Event where
  level := .debug
  source := .connection
  message := "Error shutting down connection: " ++ cause.message

/-- Logs what the system tells, if it tells anything. -/
def logFailure (event : IoError → Event) : Option IoError → Client σ Unit
  | none => return
  | some cause => .log h (event cause)

/-- Gives up the connection. -/
def dropLink : Client σ Unit := do
  .perform fun s => ((), h.close s)
  .act h .closed

/-- Ends the conversation and gives up the connection. -/
def closeLink : Client σ Unit := do
  let failure ← .perform fun s => (h.shutdownFailure? s, s)
  logFailure h shutdownFailed failure
  dropLink h

/-- Makes a connection. -/
def openLink (address : String) : Client σ Opening := do
  match ← .perform (h.connect address settings.connectTimeout) with
  | .error cause =>
    .act h (.unopened cause)
    return .failed (.connect address cause)
  | .ok () =>
    .act h .opened
    .log h (connected address)
    if largestBuffer < settings.recvBufferSize then
      dropLink h
      return .aborted
    else return .opened

/-- Reads once. -/
def readOnce (wait : Duration) : Client σ (Except ConnectionError String) := do
  match ← .perform (h.read settings.recvBufferSize wait) with
  | .chunk c =>
    .act h (.received c.bytes)
    return .ok (decodeLossy c.bytes)
  | .ended failure =>
    logFailure h readFailed failure
    .act h .ended
    return .error .closed
  | .silence =>
    .act h (.silence wait)
    return .error (.timeout wait)

/-- Reads the greeting of the server, if there is one. -/
def drainBanner : Client σ (Option String) := do
  match ← readOnce h settings settings.bannerTimeout with
  | .ok banner => return some banner
  | .error e =>
    .log h (noBanner e)
    return none

/-- Writes a command as a line. -/
def sendCommand (command : String) : Client σ (Except ConnectionError Unit) := do
  match ← .perform (h.write (commandLine command) settings.sendTimeout) with
  | .complete =>
    .act h (.sent command)
    return .ok ()
  | .failed count cause =>
    .act h (.cut command count)
    return .error (.write cause)
  | .stalled count =>
    .act h (.cut command count)
    return .error (.write .timedOut)

/-- Reads a reply. -/
def receive : Client σ (Except ConnectionError String) :=
  readOnce h settings settings.responseTimeout

/-- Writes a command and reads a reply. -/
def request (command : String) : Client σ (Except ConnectionError String) := do
  match ← sendCommand h settings command with
  | .ok () => receive h settings
  | .error e => return .error e

/-- As `request`; none if the sign to stop comes first. A line may then be cut short. -/
def requestUnlessStopped (command : String) :
    Client σ (Option (Except ConnectionError String)) := do
  match ← .perform (h.stopsWriting (commandLine command)) with
  | some count =>
    .act h (.cut command count)
    return none
  | none =>
    match ← sendCommand h settings command with
    | .error e => return some (.error e)
    | .ok () =>
      if ← .perform (h.stops (.reply settings.responseTimeout)) then return none
      else some <$> receive h settings

end LineClient
