import LineClient.Telemetry.Session

/-!
# Supervised telemetry

After a session that fails, another one is opened, unless as many attempts in a row have failed as
the settings allow. A session with a reply ends the row. The pause before an attempt doubles with
each attempt in the row, up to a limit.

* `backoffFactor`, `Reader.backoffAfter`;
* `nextAttempt?`, whether there is another attempt;
* `Supervision`, how far it has got; `Supervision.step`, one round of it;
* **`Supervision.run`**, a number of rounds.
-/

namespace LineClient

/-- The power of two for an attempt, as far as 32 bits can hold it. -/
def backoffFactor (attempt : Nat) : Nat := min (2 ^ min attempt 32) (2 ^ 32 - 1)

/-- The pause after `attempt` failed attempts in a row. -/
def Reader.backoffAfter (r : Reader) (attempt : Nat) : Duration :=
  r.backoff.scale (backoffFactor attempt)

/-- The number of attempts in the row before another one that follows a failed session; none if
there is none. -/
def nextAttempt? (limit attempt roundTrips : Nat) : Option Nat :=
  let attempt := if roundTrips = 0 then attempt else 0
  if attempt < limit then some attempt else none

/-- Tells that another attempt follows. -/
def Reader.reconnecting (r : Reader) (e : ConnectionError) (attempt : Nat) : Event :=
  event .warn ("Telemetry connection failed: " ++ e.message ++ ", reconnecting in " ++
    (r.backoffAfter attempt).text ++ " [attempt=" ++ toString (attempt + 1) ++ "/" ++
    toString r.attempts ++ "]")

/-- How far supervised telemetry has got. -/
inductive Supervision where
  /-- A session, after so many attempts in a row. -/
  | running (attempt : Nat) (session : Session)
  | over (result : SessionEnd)
  deriving DecidableEq, Repr

namespace Supervision

variable {σ : Type} (r : Reader) (h : Host σ)

/-- What follows a failed session. -/
def recover (attempt : Nat) (e : ConnectionError) (roundTrips : Nat) : Client σ Supervision := do
  match nextAttempt? r.attempts attempt roundTrips with
  | none => return .over (.failed e)
  | some attempt =>
    .log h (r.reconnecting e attempt)
    if ← .perform (h.stops (.pause (r.backoffAfter attempt))) then return .over .stopped
    else
      .pause h (r.backoffAfter attempt)
      return .running (attempt + 1) .opening

/-- One round of supervised telemetry. -/
def step : Supervision → Client σ Supervision
  | .running attempt (.over (.failed e) roundTrips) => recover r h attempt e roundTrips
  | .running _ (.over .stopped _) => return .over .stopped
  | .running _ (.over .aborted _) => return .over .aborted
  | .running attempt session => .running attempt <$> session.step r h
  | .over result => return .over result

/-- At most `rounds` rounds of supervised telemetry. -/
def run : (rounds : Nat) → Supervision → Client σ Supervision
  | 0, state => return state
  | _, .over result => return .over result
  | rounds + 1, state => do run rounds (← state.step r h)

/-- The beginning of supervised telemetry. -/
def begin : Supervision := .running 0 .opening

end Supervision

end LineClient
