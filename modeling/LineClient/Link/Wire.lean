import LineClient.Link.Host

/-!
# A wire between a client and a peer

A wire keeps the bytes that wait in each direction. A peer may end its own direction, after which
the client still reads what waits, or reset the wire, after which nothing waits any more and
nothing can be written.

* `Wire`, and what the peer does to it;
* **`Wire.read`**, **`Wire.write`**, what a client finds without waiting.
-/

namespace LineClient

/-- A wire. -/
structure Wire where
  /-- The bytes that wait for the client. -/
  inbound : List UInt8 := []
  /-- The bytes that wait for the peer. -/
  outbound : ByteArray := .empty
  /-- Whether the peer will send no more. -/
  ended : Bool := false
  /-- Whether the peer has thrown the wire away. -/
  broken : Bool := false
  /-- Whether the client will send no more. -/
  closed : Bool := false

namespace Wire

/-- The number of bytes that may wait for the peer. -/
def capacity : Nat := 8 * 2 ^ 20

/-! ## The peer -/

/-- Sends bytes to the client. -/
def deliver (w : Wire) (bytes : List UInt8) : Wire := { w with inbound := w.inbound ++ bytes }

/-- Ends the direction to the client. -/
def finish (w : Wire) : Wire := { w with ended := true }

/-- Throws the wire away, with all that waits. -/
def reset (w : Wire) : Wire := { w with inbound := [], outbound := .empty, broken := true }

/-! ## The client -/

/-- Whether a reading need not wait. -/
def readable (w : Wire) : Bool := !w.inbound.isEmpty || w.ended || w.broken

/-- The first `max` of the bytes that wait. -/
def firstChunk (max : Nat) (hmax : max ≠ 0) (b : UInt8) (rest : List UInt8) : Chunk max where
  bytes := (b :: rest).take max
  nonempty h := (List.take_eq_nil_iff.1 h).elim hmax (List.cons_ne_nil b rest)
  length_le := List.length_take_le max (b :: rest)

/-- Reads at most `max` bytes of those that wait, without waiting for more. That a wire was thrown
away is not put into the system's words. -/
def read (max : Nat) (w : Wire) : ReadOutcome max × Wire :=
  if w.broken then (.ended none, w)
  else match w.inbound with
    | [] => (if w.ended then .ended none else .silence, w)
    | b :: rest =>
      if hmax : max = 0 then (.ended none, w)
      else (.chunk (firstChunk max hmax b rest), { w with inbound := (b :: rest).drop max })

/-- Writes a line as a whole. -/
def push (line : ByteArray) (w : Wire) : Wire := { w with outbound := w.outbound ++ line }

/-- Writes a line, or as much of it as there is room for. -/
def write (line : ByteArray) (w : Wire) : WriteOutcome line × Wire :=
  let room := capacity - w.outbound.size
  if h : w.broken ∧ 0 < line.size then (.failed ⟨0, h.2⟩ .brokenPipe, w)
  else if h : room < line.size then (.stalled ⟨room, h⟩, w.push (line.extract 0 room))
  else (.complete, w.push line)

end Wire

end LineClient
