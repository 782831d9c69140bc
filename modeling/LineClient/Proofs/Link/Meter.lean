import LineClient.Link.Connection
import LineClient.Proofs.Link.Run

/-!
# Meters

A meter counts the bytes that a host takes, connection by connection. It stands between a client and
any host and changes nothing. So it shows whether the record of a client, which the client keeps
itself, tells what has really gone out.

* `Meter`, **`Host.metered`**, a host with a meter;
* `Meter.note`, what an action in the record says about the meter;
* **`Client.Faithful`**, the record of a client says just what the meter shows;
* `openLink_faithful`, `sendCommand_faithful`, `requestUnlessStopped_faithful`,
  `closeLink_faithful`, `dropLink_faithful`, `drainBanner_faithful`, the operations of a connection.
-/

namespace LineClient

/-! ## Hosts with meters -/

/-- The bytes taken on the present connection, and those taken on each of the connections before it.
The first of all are the bytes taken before there was a connection. -/
structure Meter where
  earlier : List (List UInt8) := []
  current : List UInt8 := []
  deriving DecidableEq, Repr

namespace Meter

/-- Another connection begins. -/
def next (m : Meter) : Meter := ⟨m.earlier ++ [m.current], []⟩

/-- Some bytes are taken. -/
def add (bytes : List UInt8) (m : Meter) : Meter := { m with current := m.current ++ bytes }

@[simp] theorem add_nil (m : Meter) : m.add [] = m := by simp [add]

/-- What an action says about the meter. -/
def note (m : Meter) : Action → Meter
  | .opened => m.next
  | a => m.add a.written

end Meter

/-- The bytes that were taken of a line. -/
def WriteOutcome.taken {line : ByteArray} : WriteOutcome line → List UInt8
  | .complete => line.data.toList
  | .failed count _ => line.data.toList.take count
  | .stalled count => line.data.toList.take count

namespace Host

variable {σ : Type} (h : Host σ)

/-- A host with a meter. -/
def metered : Host (σ × Meter) where
  now s := h.now s.1
  listening s := h.listening s.1
  connect address wait s :=
    let (o, s') := h.connect address wait s.1
    (o, s', match o with
      | .ok () => s.2.next
      | .error _ => s.2)
  write line wait s :=
    let (o, s') := h.write line wait s.1
    (o, s', s.2.add o.taken)
  read max wait s :=
    let (o, s') := h.read max wait s.1
    (o, s', s.2)
  shutdownFailure? s := h.shutdownFailure? s.1
  close s := (h.close s.1, s.2)
  pause d s := (h.pause d s.1, s.2)
  stops w s :=
    let (o, s') := h.stops w s.1
    (o, s', s.2)
  stopsWriting line s :=
    let (o, s') := h.stopsWriting line s.1
    (o, s', match o with
      | some count => s.2.add (line.data.toList.take count)
      | none => s.2)
  awaitStop s := (h.awaitStop s.1, s.2)
  abortText message s := h.abortText message s.1
  observe a s := (h.observe a s.1, s.2)

theorem metered_connect (address : String) (wait : Duration) (s : σ × Meter) :
    h.metered.connect address wait s =
      ((h.connect address wait s.1).1, (h.connect address wait s.1).2,
        match (h.connect address wait s.1).1 with
        | .ok () => s.2.next
        | .error _ => s.2) := rfl

theorem metered_write (line : ByteArray) (wait : Duration) (s : σ × Meter) :
    h.metered.write line wait s =
      ((h.write line wait s.1).1, (h.write line wait s.1).2,
        s.2.add (h.write line wait s.1).1.taken) := rfl

theorem metered_stopsWriting (line : ByteArray) (s : σ × Meter) :
    h.metered.stopsWriting line s =
      ((h.stopsWriting line s.1).1, (h.stopsWriting line s.1).2,
        match (h.stopsWriting line s.1).1 with
        | some count => s.2.add (line.data.toList.take count)
        | none => s.2) := rfl

end Host

/-! ## Faithful records -/

namespace Client

variable {σ α β : Type}

/-- Whatever the record of a run says about the meter is what the meter shows. -/
def Faithful (c : Client (σ × Meter) α) : Prop :=
  ∀ s, c.Reaches s fun _ as s' => s'.2 = as.foldl Meter.note s.2

variable {c : Client (σ × Meter) α} {f : α → Client (σ × Meter) β}

theorem Faithful.bind (hc : c.Faithful) (hf : ∀ a, (f a).Faithful) : (c >>= f).Faithful := by
  intro s
  refine (hc s).bind fun a as s' hs' => ?_
  refine (hf a s').mono fun b as' s'' hs'' => ?_
  rw [hs'', hs', List.foldl_append]

theorem faithful_pure (a : α) : (pure a : Client (σ × Meter) α).Faithful := fun _ => rfl

theorem Faithful.map (hc : c.Faithful) (g : α → β) : (g <$> c).Faithful := by
  rw [← bind_pure_comp]
  exact hc.bind fun a => faithful_pure (g a)

/-- An operation that leaves the meter alone needs no entry. -/
theorem faithful_perform {op : σ × Meter → α × (σ × Meter)} (hop : ∀ s, (op s).2.2 = s.2) :
    (perform op).Faithful := hop

variable (h : Host σ)

/-- An entry that tells of no bytes needs no operation. -/
theorem faithful_act (a : Action) (ha : ∀ m : Meter, m.note a = m.add []) :
    (act h.metered a).Faithful := by
  intro s
  have hnote : s.2.note a = s.2 := (ha s.2).trans s.2.add_nil
  exact hnote.symm

theorem faithful_log (e : Event) : (log h.metered e).Faithful :=
  faithful_act h (.logged e) fun _ => rfl

theorem faithful_pause (d : Duration) : (pause h.metered d).Faithful :=
  (faithful_perform fun _ => rfl).bind fun _ => faithful_act h (.waited d) fun _ => rfl

end Client

/-! ## The operations of a connection -/

section

open Client

variable {σ : Type} (h : Host σ) (settings : LinkSettings)

theorem logFailure_faithful (event : IoError → Event) (failure : Option IoError) :
    (logFailure h.metered event failure).Faithful := by
  cases failure with
  | none => exact faithful_pure _
  | some cause => exact faithful_log h _

theorem dropLink_faithful : (dropLink h.metered).Faithful :=
  (faithful_perform fun _ => rfl).bind fun _ => faithful_act h .closed fun _ => rfl

theorem closeLink_faithful : (closeLink h.metered).Faithful :=
  (faithful_perform fun _ => rfl).bind fun _ =>
    (logFailure_faithful h shutdownFailed _).bind fun _ => dropLink_faithful h

theorem openLink_faithful (address : String) :
    (openLink h.metered settings address).Faithful := by
  -- After the entry of the connection nothing is written.
  have hrest : (log h.metered (connected address) >>= fun _ =>
      if largestBuffer < settings.recvBufferSize then do
        dropLink h.metered
        return Opening.aborted
      else return Opening.opened).Faithful := by
    refine (faithful_log h _).bind fun _ => ?_
    split_ifs
    · exact (dropLink_faithful h).bind fun _ => faithful_pure _
    · exact faithful_pure _
  intro s
  rw [openLink, reaches_bind, reaches_perform, Host.metered_connect]
  cases (h.connect address settings.connectTimeout s.1).1 with
  | error cause =>
    have hrefused := (faithful_act h (.unopened cause) fun _ => rfl).bind fun _ =>
      faithful_pure (Opening.failed (.connect address cause))
    exact hrefused _
  | ok =>
    refine (reaches_bind _).mpr ?_
    rw [reaches_act]
    refine (hrest _).mono fun _ as s' hs' => ?_
    rw [List.nil_append, hs', List.foldl_append]
    rfl

theorem readOnce_faithful (wait : Duration) : (readOnce h.metered settings wait).Faithful := by
  rw [readOnce]
  refine (faithful_perform fun _ => rfl).bind fun o => ?_
  cases o with
  | chunk c => exact (faithful_act h (.received c.bytes) fun _ => rfl).bind fun _ => faithful_pure _
  | ended failure =>
    refine (logFailure_faithful h readFailed failure).bind fun _ => ?_
    exact (faithful_act h .ended fun _ => rfl).bind fun _ => faithful_pure _
  | silence => exact (faithful_act h (.silence wait) fun _ => rfl).bind fun _ => faithful_pure _

theorem drainBanner_faithful : (drainBanner h.metered settings).Faithful := by
  rw [drainBanner]
  refine (readOnce_faithful h settings _).bind fun o => ?_
  cases o with
  | ok banner => exact faithful_pure _
  | error e => exact (faithful_log h _).bind fun _ => faithful_pure _

/-- **The record of a writing says how much of the line the host has taken.** -/
theorem sendCommand_faithful (command : String) :
    (sendCommand h.metered settings command).Faithful := by
  intro s
  rw [sendCommand, reaches_bind, reaches_perform, Host.metered_write]
  cases (h.write (commandLine command) settings.sendTimeout s.1).1 <;> exact rfl

/-- What follows the writing of a request that the sign to stop may interrupt. -/
def replyUnlessStopped (h : Host σ) :
    Except ConnectionError Unit → Client σ (Option (Except ConnectionError String))
  | .error e => return some (.error e)
  | .ok () => do
    if ← .perform (h.stops (.reply settings.responseTimeout)) then return none
    else some <$> receive h settings

theorem replyUnlessStopped_faithful (o : Except ConnectionError Unit) :
    (replyUnlessStopped settings h.metered o).Faithful := by
  cases o with
  | error e => exact faithful_pure _
  | ok =>
    refine (faithful_perform fun _ => rfl).bind fun stop => ?_
    split_ifs
    · exact faithful_pure _
    · exact (readOnce_faithful h settings _).map _

theorem requestUnlessStopped_faithful (command : String) :
    (requestUnlessStopped h.metered settings command).Faithful := by
  have hrest : (sendCommand h.metered settings command >>=
      replyUnlessStopped settings h.metered).Faithful :=
    (sendCommand_faithful h settings command).bind (replyUnlessStopped_faithful h settings)
  intro s
  rw [requestUnlessStopped, reaches_bind, reaches_perform, Host.metered_stopsWriting]
  cases (h.stopsWriting (commandLine command) s.1).1 with
  | some count => exact rfl
  | none => exact hrest _

end

end LineClient
