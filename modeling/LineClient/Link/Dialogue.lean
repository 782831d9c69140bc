import LineClient.Link.Connection
import LineClient.Link.Wire

/-!
# Dialogues over a wire

A client and a peer take turns on one wire. Whatever the peer does is complete before the client
goes on, so a client that finds nothing waits in vain.

* `Wire.host`, a wire as a host;
* `Move`, `Answer`, `Dialogue`;
* **`Dialogue.apply`**, one move, and `Dialogue.answers`, the answers to a list of moves.
-/

namespace LineClient

/-- A wire as a host. A connection may be refused for a reason; no sign to stop ever comes. -/
def Wire.host (refusal : Option IoError) : Host Wire where
  now _ := .zero
  listening _ := .waiting
  connect _ _ w := (match refusal with
    | none => .ok ()
    | some cause => .error cause, w)
  write line _ := Wire.write line
  read max _ := Wire.read max
  shutdownFailure? _ := none
  close w := { w with closed := true }
  pause _ w := w
  stops _ w := (false, w)
  stopsWriting _ w := (none, w)
  awaitStop w := w
  abortText message _ := message
  observe _ w := w

/-- What one of the two does next. -/
inductive Move where
  | drainBanner
  | send (command : String)
  | receive
  | request (command : String)
  /-- The client gives up the connection. -/
  | leave
  /-- The peer sends bytes. -/
  | deliver (bytes : List UInt8)
  /-- The peer will send no more. -/
  | finish
  /-- The peer throws the wire away. -/
  | reset
  /-- The peer takes all that waits for it. -/
  | collect

/-- What comes of a move. -/
inductive Answer where
  | done
  | text (s : Option String)
  | count (n : Nat)
  /-- What the peer has taken, and whether the client will send no more. -/
  | collected (s : String) (ended : Bool)
  | failed (e : ConnectionError)
  /-- The one whose move it is has left. -/
  | unavailable
  deriving DecidableEq, Repr

/-- A wire, and whether the two are still there. -/
structure Dialogue where
  wire : Wire := {}
  clientLeft : Bool := false
  peerLeft : Bool := false

namespace Dialogue

/-- The answer to an operation that yields nothing. -/
def ofUnit : Except ConnectionError Unit → Answer
  | .ok () => .done
  | .error e => .failed e

/-- The answer to an operation that yields a text. -/
def ofText : Except ConnectionError String → Answer
  | .ok s => .text (some s)
  | .error e => .failed e

/-- A move of the client, which is a program on the wire. -/
def client (d : Dialogue) (move : Client Wire Answer) : Answer × Record × Dialogue :=
  if d.clientLeft then (.unavailable, [], d)
  else
    let (answer, record, wire) := move.run d.wire
    (answer, record, { d with wire })

/-- A move of the peer. -/
def peer (d : Dialogue) (answer : Answer) (wire : Wire) : Answer × Record × Dialogue :=
  if d.peerLeft then (.unavailable, [], d) else (answer, [], { d with wire })

/-- One move. -/
def apply (settings : LinkSettings) (d : Dialogue) : Move → Answer × Record × Dialogue :=
  let h := Wire.host none
  fun
  | .drainBanner => d.client (Answer.text <$> LineClient.drainBanner h settings)
  | .send command => d.client (ofUnit <$> sendCommand h settings command)
  | .receive => d.client (ofText <$> LineClient.receive h settings)
  | .request command => d.client (ofText <$> LineClient.request h settings command)
  | .leave =>
    let (answer, record, d) := d.client (do closeLink h; return .done)
    (answer, record, { d with clientLeft := true })
  | .deliver bytes => d.peer (.count bytes.length) (d.wire.deliver bytes)
  | .finish => d.peer .done d.wire.finish
  | .reset =>
    let (answer, record, d) := d.peer .done d.wire.reset
    (answer, record, { d with peerLeft := true })
  | .collect =>
    d.peer (.collected (decodeLossy d.wire.outbound.data.toList) d.wire.closed)
      { d.wire with outbound := .empty }

/-- The answers to moves, and what the client did. -/
def answers (settings : LinkSettings) : Dialogue → List Move → List Answer × Record
  | _, [] => ([], [])
  | d, move :: rest =>
    let (answer, record, d) := d.apply settings move
    let (more, later) := answers settings d rest
    (answer :: more, record ++ later)

end Dialogue

end LineClient
