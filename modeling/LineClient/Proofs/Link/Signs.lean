import LineClient.Proofs.Link.Meter

/-!
# Signs to stop

Here the sign to stop is given from outside, at any moment, and the peer does not care. So a run
that a sign ends can be set beside the run that goes on, on one and the same host.

* `Signs`, when a sign is given; `Signs.Steady`, no sign comes later than the line it breaks off;
* **`Host.stoppedBy`**, **`Host.unstopped`**, a host with signs and without;
* **`Client.Matches`**, a program that asks for no sign does the same on both;
* `openLink_matches`, `readOnce_matches`, `drainBanner_matches`, `sendCommand_matches`,
  `closeLink_matches`, `dropLink_matches`, the operations of a connection.
-/

namespace LineClient

/-! ## Hosts with signs and without -/

/-- When the sign to stop comes. It may depend on the host, and on whatever the memory `τ` keeps. -/
structure Signs (σ τ : Type) where
  stops : Waiting → σ → τ → Bool × τ
  stopsWriting : (line : ByteArray) → σ → τ → Option (Fin line.size) × τ

/-- A state of a host with signs: whatever the host does has its course, and a sign that was given
is kept in mind. -/
structure Signalled (σ τ : Type) where
  host : σ
  memory : τ
  given : Bool := false
  deriving DecidableEq, Repr

namespace Host

variable {σ τ : Type} (h : Host σ)

/-- The host on which no sign to stop ever comes. -/
def unstopped : Host σ :=
  { h with
    stops := fun w s => (false, (h.stops w s).2)
    stopsWriting := fun line s => (none, (h.stopsWriting line s).2) }

/-- The host on which the signs tell when to stop, and all else is as without them. -/
def stoppedBy (signs : Signs σ τ) : Host (Signalled σ τ) where
  now s := h.now s.host
  listening s := if s.given then .signed (h.now s.host) else .waiting
  connect address wait s :=
    let (o, host) := h.connect address wait s.host
    (o, { s with host })
  write line wait s :=
    let (o, host) := h.write line wait s.host
    (o, { s with host })
  read max wait s :=
    let (o, host) := h.read max wait s.host
    (o, { s with host })
  shutdownFailure? s := h.shutdownFailure? s.host
  close s := { s with host := h.close s.host }
  pause d s := { s with host := h.pause d s.host }
  stops w s :=
    let (o, memory) := signs.stops w s.host s.memory
    (o, { host := (h.stops w s.host).2, memory, given := s.given || o })
  stopsWriting line s :=
    let (o, memory) := signs.stopsWriting line s.host s.memory
    (o, { host := (h.stopsWriting line s.host).2, memory, given := s.given || o.isSome })
  awaitStop s := { s with host := h.awaitStop s.host, given := true }
  abortText message s := h.abortText message s.host
  observe a s := { s with host := h.observe a s.host }

end Host

/-- When a sign breaks off a line, the host has taken no more of the line than it takes of it in the
time allowed without a sign. -/
def Signs.Steady {σ τ : Type} (signs : Signs σ τ) (h : Host σ) (wait : Duration) : Prop :=
  ∀ (line : ByteArray) (s : σ) (t : τ) (count : Fin line.size),
    (signs.stopsWriting line s t).1 = some count →
      count ≤ (h.write line wait (h.stopsWriting line s).2).1.taken.length

/-! ## Programs that ask for no sign -/

namespace Client

variable {σ τ α β : Type}

/-- The program does with signs just what it does without, and leaves the signs alone. -/
def Matches (c : Client (Signalled σ τ) α) (c' : Client σ α) : Prop :=
  ∀ s, c.run s =
    ((c'.run s.host).1, (c'.run s.host).2.1, { s with host := (c'.run s.host).2.2 })

variable {c : Client (Signalled σ τ) α} {c' : Client σ α}

theorem Matches.bind {f : α → Client (Signalled σ τ) β} {f' : α → Client σ β} (hc : c.Matches c')
    (hf : ∀ a, (f a).Matches (f' a)) : (c >>= f).Matches (c' >>= f') := by
  intro s
  rw [run_bind, run_bind, hc s, hf]

theorem matches_pure (a : α) :
    (pure a : Client (Signalled σ τ) α).Matches (pure a : Client σ α) := fun _ => rfl

theorem matches_perform {op : Signalled σ τ → α × Signalled σ τ} {op' : σ → α × σ}
    (hop : ∀ s, op s = ((op' s.host).1, { s with host := (op' s.host).2 })) :
    (perform op).Matches (perform op') := by
  intro s
  change ((op s).1, [], (op s).2) = _
  rw [hop]
  rfl

variable (h : Host σ) (signs : Signs σ τ)

theorem matches_act (a : Action) : (act (h.stoppedBy signs) a).Matches (act h.unstopped a) :=
  fun _ => rfl

theorem matches_log (e : Event) : (log (h.stoppedBy signs) e).Matches (log h.unstopped e) :=
  matches_act h signs (.logged e)

theorem matches_pause (d : Duration) :
    (pause (h.stoppedBy signs) d).Matches (pause h.unstopped d) := fun _ => rfl

end Client

/-! ## The operations of a connection -/

section

open Client

variable {σ τ : Type} (h : Host σ) (signs : Signs σ τ) (settings : LinkSettings)

theorem logFailure_matches (event : IoError → Event) (failure : Option IoError) :
    (logFailure (h.stoppedBy signs) event failure).Matches
      (logFailure h.unstopped event failure) := by
  cases failure with
  | none => exact matches_pure _
  | some cause => exact matches_log h signs _

theorem dropLink_matches : (dropLink (h.stoppedBy signs)).Matches (dropLink h.unstopped) :=
  fun _ => rfl

theorem closeLink_matches : (closeLink (h.stoppedBy signs)).Matches (closeLink h.unstopped) := by
  rw [closeLink, closeLink]
  have hask : (perform fun s => ((h.stoppedBy signs).shutdownFailure? s, s)).Matches
      (perform fun s => (h.unstopped.shutdownFailure? s, s)) := fun _ => rfl
  refine hask.bind fun failure => ?_
  exact (logFailure_matches h signs shutdownFailed failure).bind fun _ => dropLink_matches h signs

theorem openLink_matches (address : String) :
    (openLink (h.stoppedBy signs) settings address).Matches
      (openLink h.unstopped settings address) := by
  rw [openLink, openLink]
  refine (matches_perform fun _ => rfl).bind fun o => ?_
  cases o with
  | error cause => exact (matches_act h signs _).bind fun _ => matches_pure _
  | ok =>
    refine (matches_act h signs .opened).bind fun _ => (matches_log h signs _).bind fun _ => ?_
    split_ifs
    · exact (dropLink_matches h signs).bind fun _ => matches_pure _
    · exact matches_pure _

theorem readOnce_matches (wait : Duration) :
    (readOnce (h.stoppedBy signs) settings wait).Matches (readOnce h.unstopped settings wait) := by
  rw [readOnce, readOnce]
  refine (matches_perform fun _ => rfl).bind fun o => ?_
  cases o with
  | chunk c => exact (matches_act h signs (.received c.bytes)).bind fun _ => matches_pure _
  | ended failure =>
    refine (logFailure_matches h signs readFailed failure).bind fun _ => ?_
    exact (matches_act h signs .ended).bind fun _ => matches_pure _
  | silence => exact (matches_act h signs (.silence wait)).bind fun _ => matches_pure _

theorem drainBanner_matches :
    (drainBanner (h.stoppedBy signs) settings).Matches (drainBanner h.unstopped settings) := by
  rw [drainBanner, drainBanner]
  refine (readOnce_matches h signs settings _).bind fun o => ?_
  cases o with
  | ok banner => exact matches_pure _
  | error e => exact (matches_log h signs _).bind fun _ => matches_pure _

theorem sendCommand_matches (command : String) :
    (sendCommand (h.stoppedBy signs) settings command).Matches
      (sendCommand h.unstopped settings command) := by
  rw [sendCommand, sendCommand]
  refine (matches_perform fun _ => rfl).bind fun o => ?_
  cases o with
  | complete => exact (matches_act h signs (.sent command)).bind fun _ => matches_pure _
  | failed count cause =>
    exact (matches_act h signs (.cut command count)).bind fun _ => matches_pure _
  | stalled count => exact (matches_act h signs (.cut command count)).bind fun _ => matches_pure _

end

end LineClient
