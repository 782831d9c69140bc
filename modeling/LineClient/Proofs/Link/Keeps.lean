import LineClient.Link.Connection
import LineClient.Proofs.Link.Run
import Mathlib.Order.Defs.Unbundled

/-!
# What a host keeps

A relation between the states of a host that holds across each of its operations holds across
every program on the host: what a clock or a sign does from one operation to the next it does in
the course of a whole run.

* `Host.Keeps`, a relation that holds across every operation of a host; `Host.Punctual` and
  `Host.Signals`, what may be asked of its clock and of its sign to stop;
* **`Client.Keeps`**, one that holds across a program; `Client.Keeps.bind`;
* `openLink_keeps`, `drainBanner_keeps`, `sendCommand_keeps`, `requestUnlessStopped_keeps`,
  `closeLink_keeps`, `dropLink_keeps`, the operations of a connection.
-/

namespace LineClient

variable {σ : Type}

/-- The states before and after an operation of the host, whichever it is, are related. -/
structure Host.Keeps (h : Host σ) (R : σ → σ → Prop) : Prop where
  connect : ∀ address wait s, R s (h.connect address wait s).2
  write : ∀ line wait s, R s (h.write line wait s).2
  read : ∀ max wait s, R s (h.read max wait s).2
  close : ∀ s, R s (h.close s)
  pause : ∀ d s, R s (h.pause d s)
  stops : ∀ w s, R s (h.stops w s).2
  stopsWriting : ∀ line s, R s (h.stopsWriting line s).2
  awaitStop : ∀ s, R s (h.awaitStop s)
  observe : ∀ a s, R s (h.observe a s)

theorem Host.Keeps.mono {h : Host σ} {R R' : σ → σ → Prop} (hkeeps : h.Keeps R)
    (hle : ∀ s s', R s s' → R' s s') : h.Keeps R' where
  connect address wait s := hle _ _ (hkeeps.connect address wait s)
  write line wait s := hle _ _ (hkeeps.write line wait s)
  read max wait s := hle _ _ (hkeeps.read max wait s)
  close s := hle _ _ (hkeeps.close s)
  pause d s := hle _ _ (hkeeps.pause d s)
  stops w s := hle _ _ (hkeeps.stops w s)
  stopsWriting line s := hle _ _ (hkeeps.stopsWriting line s)
  awaitStop s := hle _ _ (hkeeps.awaitStop s)
  observe a s := hle _ _ (hkeeps.observe a s)

namespace Host

variable (h : Host σ)

/-- The clock has not gone back from one state to the other. -/
def Later (s s' : σ) : Prop := (h.now s).nanos ≤ (h.now s').nanos

instance : IsPreorder σ h.Later where
  refl s := Nat.le_refl (h.now s).nanos
  trans _ _ _ := Nat.le_trans

/-- The clock never goes back, and no pause ends early. -/
structure Punctual : Prop where
  keeps : h.Keeps h.Later
  pause : ∀ d s, ((h.now s).after d).nanos ≤ (h.now (h.pause d s)).nanos

/-- A sign to stop that has come in the first state has come in the second, at the same time. -/
def Remembers (s s' : σ) : Prop :=
  ∀ time, h.signTime? s = some time → h.signTime? s' = some time

instance : IsPreorder σ h.Remembers where
  refl _ _ htime := htime
  trans _ _ _ hs hs' time htime := hs' time (hs time htime)

/-- A sign to stop comes once, and the client is told to stop only when it has come. Whether it ever
comes is left open. -/
structure Signals : Prop where
  keeps : h.Keeps h.Remembers
  stops : ∀ w s, (h.stops w s).1 = true → (h.signTime? (h.stops w s).2).isSome
  stopsWriting : ∀ line s, (h.stopsWriting line s).1.isSome →
    (h.signTime? (h.stopsWriting line s).2).isSome

end Host

/-! ## Programs -/

namespace Client

/-- The states before and after a run of the program are related. -/
def Keeps (R : σ → σ → Prop) {α : Type} (c : Client σ α) : Prop := ∀ s, R s (c.run s).2.2

variable {R : σ → σ → Prop} {α β : Type}

theorem Keeps.reaches {c : Client σ α} (hc : c.Keeps R) (s : σ) :
    c.Reaches s fun _ _ s' => R s s' := hc s

theorem keeps_perform {op : σ → α × σ} (hop : ∀ s, R s (op s).2) : (perform op).Keeps R := hop

theorem Keeps.map {c : Client σ α} (hc : c.Keeps R) (g : α → β) : (g <$> c).Keeps R := hc

section

variable {h : Host σ} (hkeeps : h.Keeps R)
include hkeeps

theorem keeps_act (a : Action) : (act h a).Keeps R := hkeeps.observe a

theorem keeps_log (e : Event) : (log h e).Keeps R := keeps_act hkeeps (.logged e)

end

variable [IsPreorder σ R]

theorem keeps_pure (a : α) : (pure a : Client σ α).Keeps R := fun s => refl_of R s

theorem Keeps.bind {c : Client σ α} {f : α → Client σ β} (hc : c.Keeps R)
    (hf : ∀ a, (f a).Keeps R) : (c >>= f).Keeps R := fun s => trans_of R (hc s) (hf _ _)

theorem keeps_pause {h : Host σ} (hkeeps : h.Keeps R) (d : Duration) : (pause h d).Keeps R :=
  (keeps_perform (hkeeps.pause d)).bind fun _ => keeps_act hkeeps (.waited d)

end Client

/-! ## The operations of a connection -/

section

open Client

variable {R : σ → σ → Prop} [IsPreorder σ R] {h : Host σ} (hkeeps : h.Keeps R)
  (settings : LinkSettings)
include hkeeps

theorem logFailure_keeps (event : IoError → Event) (failure : Option IoError) :
    (logFailure h event failure).Keeps R := by
  cases failure with
  | none => exact keeps_pure _
  | some cause => exact keeps_log hkeeps _

theorem dropLink_keeps : (dropLink h).Keeps R :=
  (keeps_perform hkeeps.close).bind fun _ => keeps_act hkeeps .closed

theorem closeLink_keeps : (closeLink h).Keeps R :=
  (keeps_perform fun s => refl_of R s).bind fun _ =>
    (logFailure_keeps hkeeps shutdownFailed _).bind fun _ => dropLink_keeps hkeeps

theorem openLink_keeps (address : String) : (openLink h settings address).Keeps R := by
  rw [openLink]
  refine (keeps_perform (hkeeps.connect address settings.connectTimeout)).bind fun o => ?_
  cases o with
  | error cause => exact (keeps_act hkeeps _).bind fun _ => keeps_pure _
  | ok =>
    refine (keeps_act hkeeps .opened).bind fun _ => (keeps_log hkeeps _).bind fun _ => ?_
    split_ifs
    · exact (dropLink_keeps hkeeps).bind fun _ => keeps_pure _
    · exact keeps_pure _

theorem readOnce_keeps (wait : Duration) : (readOnce h settings wait).Keeps R := by
  rw [readOnce]
  refine (keeps_perform (hkeeps.read settings.recvBufferSize wait)).bind fun o => ?_
  cases o with
  | chunk c => exact (keeps_act hkeeps (.received c.bytes)).bind fun _ => keeps_pure _
  | ended failure =>
    refine (logFailure_keeps hkeeps readFailed failure).bind fun _ => ?_
    exact (keeps_act hkeeps .ended).bind fun _ => keeps_pure _
  | silence => exact (keeps_act hkeeps (.silence wait)).bind fun _ => keeps_pure _

theorem drainBanner_keeps : (drainBanner h settings).Keeps R := by
  rw [drainBanner]
  refine (readOnce_keeps hkeeps settings _).bind fun o => ?_
  cases o with
  | ok banner => exact keeps_pure _
  | error e => exact (keeps_log hkeeps _).bind fun _ => keeps_pure _

theorem sendCommand_keeps (command : String) : (sendCommand h settings command).Keeps R := by
  rw [sendCommand]
  refine (keeps_perform (hkeeps.write (commandLine command) settings.sendTimeout)).bind fun o => ?_
  cases o with
  | complete => exact (keeps_act hkeeps (.sent command)).bind fun _ => keeps_pure _
  | failed count cause => exact (keeps_act hkeeps (.cut command count)).bind fun _ => keeps_pure _
  | stalled count => exact (keeps_act hkeeps (.cut command count)).bind fun _ => keeps_pure _

theorem requestUnlessStopped_keeps (command : String) :
    (requestUnlessStopped h settings command).Keeps R := by
  rw [requestUnlessStopped]
  refine (keeps_perform (hkeeps.stopsWriting (commandLine command))).bind fun o => ?_
  cases o with
  | some count => exact (keeps_act hkeeps (.cut command count)).bind fun _ => keeps_pure _
  | none =>
    refine (sendCommand_keeps hkeeps settings command).bind fun o => ?_
    cases o with
    | error e => exact keeps_pure _
    | ok =>
      refine (keeps_perform (hkeeps.stops (.reply settings.responseTimeout))).bind fun stop => ?_
      split_ifs
      · exact keeps_pure _
      · exact (readOnce_keeps hkeeps settings _).map _

end

end LineClient
