import LineClient.Link.Dialogue
import LineClient.Proofs.Link.Ways

/-!
# Meetings of a client and a peer

The peer does as it likes while the client is at work: before each reading and each writing of the
client it may have sent bytes in any number of pieces, ended its direction or thrown the wire away.
The client reads into the one buffer of its connection, and takes its text from the front of it.

* `Deed`, what a peer does; `Meeting`, a connection and what the peer is going to do;
* **`Meeting.host`**, a meeting as a host;
* `Operation`, **`Meeting.course`**, the operations of a client one after the other;
* `Meeting.Reading`, `Meeting.readWaiting_reads`, the ways in which a reading ends.
-/

namespace LineClient

/-- What a peer does. -/
inductive Deed where
  | deliver (bytes : List UInt8)
  | finish
  /-- The peer throws the wire away. The system may tell so of the next reading. -/
  | reset (said : Option IoError)
  /-- The peer takes all that waits for it. -/
  | collect
  deriving DecidableEq, Repr

/-- A connection that meets a peer. -/
structure Meeting where
  wire : Wire
  /-- The buffer of the connection, with what earlier readings have left in it. -/
  buffer : List UInt8
  /-- What the peer does before each of the next readings and writings of the client. -/
  deeds : List (List Deed)
  /-- Everything that the peer has sent. -/
  delivered : List UInt8 := []
  /-- What the system says of the next reading on a wire that was thrown away. -/
  said : Option IoError := none

namespace Meeting

/-- The peer does something. When its direction has ended it can send nothing more. -/
def undergo (m : Meeting) : Deed → Meeting
  | .deliver bytes =>
    if m.wire.ended || m.wire.broken then m
    else { m with wire := m.wire.deliver bytes, delivered := m.delivered ++ bytes }
  | .finish => { m with wire := m.wire.finish }
  | .reset said => { m with wire := m.wire.reset, said }
  | .collect => { m with wire := { m.wire with outbound := .empty } }

/-- The peer does what it does before the next reading or writing. -/
def advance (m : Meeting) : Meeting :=
  match m.deeds with
  | [] => m
  | now :: later => now.foldl undergo { m with deeds := later }

/-- What is in the buffer after a reading: the bytes that were read, and behind them what was there
before. -/
def fill (buffer bytes : List UInt8) : List UInt8 := bytes ++ buffer.drop bytes.length

theorem take_fill (buffer bytes : List UInt8) : (fill buffer bytes).take bytes.length = bytes :=
  List.take_left

/-- The front of the buffer after a reading. -/
def front {max : Nat} (buffer : List UInt8) (c : Chunk max) : Chunk max where
  bytes := (fill buffer c.bytes).take c.bytes.length
  nonempty := by
    rw [take_fill]
    exact c.nonempty
  length_le := by
    rw [take_fill]
    exact c.length_le

/-- **What earlier readings have left in the buffer is not read again.** -/
theorem front_eq {max : Nat} (buffer : List UInt8) (c : Chunk max) : front buffer c = c := by
  unfold front
  congr 1
  exact take_fill buffer c.bytes

/-- Reads what waits, into the buffer. -/
def readWaiting (max : Nat) (m : Meeting) : ReadOutcome max × Meeting :=
  match m.wire.read max with
  | (.chunk c, wire) =>
    (.chunk (front m.buffer c), { m with wire, buffer := fill m.buffer c.bytes })
  | (.ended _, wire) => (.ended m.said, { m with wire, said := none })
  | (.silence, wire) => (.silence, { m with wire })

/-- Reads, once the peer has done what it does before. -/
def read (max : Nat) (m : Meeting) : ReadOutcome max × Meeting := m.advance.readWaiting max

/-- Writes a line, once the peer has done what it does before. -/
def write (line : ByteArray) (m : Meeting) : WriteOutcome line × Meeting :=
  ((m.advance.wire.write line).1, { m.advance with wire := (m.advance.wire.write line).2 })

/-- A meeting as a host, for a client that has its connection. No sign to stop ever comes. -/
def host : Host Meeting where
  now _ := .zero
  listening _ := .waiting
  connect _ _ m := (.ok (), m)
  write line _ := write line
  read max _ := read max
  shutdownFailure? _ := none
  close m := { m with wire := { m.wire with closed := true } }
  pause _ m := m
  stops _ m := (false, m)
  stopsWriting _ m := (none, m)
  awaitStop m := m
  abortText message _ := message
  observe _ m := m

/-- The client has just got its connection. -/
def start (settings : LinkSettings) (deeds : List (List Deed)) : Meeting where
  wire := {}
  buffer := List.replicate settings.recvBufferSize 0
  deeds := deeds

end Meeting

/-! ## Operations of the client -/

/-- What a client does on its connection. -/
inductive Operation where
  | drainBanner
  | send (command : String)
  | receive
  | request (command : String)
  deriving DecidableEq, Repr

/-- An operation, its answer and its actions. -/
structure Exchange where
  operation : Operation
  answer : Answer
  actions : List Action
  deriving DecidableEq, Repr

namespace Meeting

/-- An operation as a program. -/
def perform (settings : LinkSettings) : Operation → Client Meeting Answer
  | .drainBanner => Answer.text <$> drainBanner host settings
  | .send command => Dialogue.ofUnit <$> sendCommand host settings command
  | .receive => Dialogue.ofText <$> receive host settings
  | .request command => Dialogue.ofText <$> request host settings command

/-- Operations one after the other. -/
def course (settings : LinkSettings) : List Operation → Meeting → List Exchange × Meeting
  | [], m => ([], m)
  | op :: ops, m =>
    let (answer, record, m) := (perform settings op).run m
    let (later, m) := course settings ops m
    (⟨op, answer, record.actions⟩ :: later, m)

/-! ## One reading -/

/-- No reading finds anything any more. -/
def Exhausted (m : Meeting) : Prop :=
  m.wire.broken = true ∨ m.wire.ended = true ∧ m.wire.inbound = []

theorem Exhausted.of_broken_eq_false {m : Meeting} (h : m.Exhausted)
    (hbroken : m.wire.broken = false) : m.wire.ended = true ∧ m.wire.inbound = [] := by
  refine h.resolve_left fun h => ?_
  rw [hbroken] at h
  exact Bool.false_ne_true h

/-- How a reading of at most `max` bytes ends, and the meeting after it. -/
inductive Reading (max : Nat) (m : Meeting) : ReadOutcome max → Meeting → Prop
  | chunk (c : Chunk max) (rest : List UInt8) (hbroken : m.wire.broken = false)
    (hbytes : c.bytes = m.wire.inbound.take max) (hrest : rest = m.wire.inbound.drop max) :
    Reading max m (.chunk c)
      { m with wire := { m.wire with inbound := rest }, buffer := fill m.buffer c.bytes }
  | ended (failure : Option IoError) (h : m.Exhausted) :
    Reading max m (.ended failure) { m with said := none }
  | silence (hbroken : m.wire.broken = false) (hended : m.wire.ended = false)
    (hinbound : m.wire.inbound = []) : Reading max m .silence m

theorem readWaiting_reads {max : Nat} (hmax : 1 ≤ max) (m : Meeting) :
    Reading max m (m.readWaiting max).1 (m.readWaiting max).2 := by
  unfold readWaiting
  by_cases hbroken : m.wire.broken = true
  · have hread : m.wire.read max = (.ended none, m.wire) := by rw [Wire.read, if_pos hbroken]
    rw [hread]
    exact .ended _ (.inl hbroken)
  · rw [Bool.not_eq_true] at hbroken
    cases hinbound : m.wire.inbound with
    | nil =>
      cases hended : m.wire.ended with
      | true =>
        have hread : m.wire.read max = (.ended none, m.wire) := by
          simp [Wire.read, hbroken, hinbound, hended]
        rw [hread]
        exact .ended _ (.inr ⟨hended, hinbound⟩)
      | false =>
        have hread : m.wire.read max = (.silence, m.wire) := by
          simp [Wire.read, hbroken, hinbound, hended]
        rw [hread]
        exact .silence hbroken hended hinbound
    | cons b rest =>
      have hpos : max ≠ 0 := by omega
      have hread : m.wire.read max = (.chunk (Wire.firstChunk max hpos b rest),
          { m.wire with inbound := (b :: rest).drop max }) := by
        simp [Wire.read, hbroken, hinbound, hpos]
      rw [hread]
      simp only [front_eq]
      refine .chunk _ _ hbroken ?_ ?_
      · rw [hinbound]
        rfl
      · rw [hinbound]

end Meeting

end LineClient
