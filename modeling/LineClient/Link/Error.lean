import LineClient.Duration

/-!
# Connection errors

A connection cannot be made, a command cannot be written, a reply does not come in time, or the
peer has closed. All but the missing reply end a conversation.

* `IoKind`, `IoError`, what the system says about a failed operation;
* `ConnectionError`, `ConnectionError.message`, `ConnectionError.cause?`.
-/

namespace LineClient

/-- The kinds of failure that the system tells apart. -/
inductive IoKind where
  | connectionRefused
  | connectionReset
  | brokenPipe
  | notConnected
  | timedOut
  | unexpectedEof
  deriving DecidableEq, Repr

/-- What the system says about a failed operation. -/
inductive IoError where
  /-- The system's answer, with its number. -/
  | system (kind : IoKind) (number : Nat)
  /-- A kind of failure and no more. -/
  | plain (kind : IoKind)
  /-- A failure told in words. -/
  | worded (text : String)
  deriving DecidableEq, Repr

/-- The kind of failure in a few words. -/
def IoKind.description : IoKind → String
  | .connectionRefused => "connection refused"
  | .connectionReset => "connection reset"
  | .brokenPipe => "broken pipe"
  | .notConnected => "not connected"
  | .timedOut => "timed out"
  | .unexpectedEof => "unexpected end of file"

/-- The system's words for a kind of failure. -/
def IoKind.systemText : IoKind → String
  | .connectionRefused => "Connection refused"
  | .connectionReset => "Connection reset by peer"
  | .brokenPipe => "Broken pipe"
  | .notConnected => "Transport endpoint is not connected"
  | .timedOut => "Connection timed out"
  | .unexpectedEof => "Unexpected end of file"

namespace IoError

def message : IoError → String
  | .system kind number => kind.systemText ++ " (os error " ++ toString number ++ ")"
  | .plain kind => kind.description
  | .worded text => text

/-- The kind of failure, if it has one. -/
def kind? : IoError → Option IoKind
  | .system kind _ => some kind
  | .plain kind => some kind
  | .worded _ => none

/-- Nobody listens at the address. -/
def refused : IoError := .system .connectionRefused 111

/-- The peer takes nothing any more. -/
def brokenPipe : IoError := .system .brokenPipe 32

/-- The time allowed is over. -/
def timedOut : IoError := .plain .timedOut

end IoError

/-- How a conversation with a peer fails. -/
inductive ConnectionError where
  | connect (address : String) (cause : IoError)
  | write (cause : IoError)
  /-- Nothing came within the time allowed. -/
  | timeout (wait : Duration)
  | closed
  deriving DecidableEq, Repr

namespace ConnectionError

def message : ConnectionError → String
  | .connect address cause => "failed to connect to " ++ address ++ ": " ++ cause.message
  | .write cause => "failed to write command: " ++ cause.message
  | .timeout wait => "no response within " ++ wait.text
  | .closed => "connection closed by peer"

/-- What the system said, if it was asked. -/
def cause? : ConnectionError → Option IoError
  | .connect _ cause => some cause
  | .write cause => some cause
  | .timeout _ => none
  | .closed => none

/-- Whether only the reply is missing. -/
def isTimeout : ConnectionError → Bool
  | .timeout _ => true
  | _ => false

end ConnectionError

end LineClient
