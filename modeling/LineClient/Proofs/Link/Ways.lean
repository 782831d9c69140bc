import LineClient.Link.Connection
import LineClient.Proofs.Link.Run

/-!
# The ways in which the operations of a connection end

Whatever the host does, an operation of a connection ends in one of a few ways, each with its own
result and its own actions.

* `OpenWay`, `ReadWay`, `BannerWay`, `SendWay`, `RequestWay`, the ways;
* **`openLink_reaches`**, `readOnce_reaches`, `drainBanner_reaches`, `sendCommand_reaches`,
  `requestUnlessStopped_reaches`, `closeLink_reaches`, `dropLink_reaches`: there are no others.
-/

namespace LineClient

/-- What is recorded of what the system tells. -/
def failureLog (event : IoError → Event) (failure : Option IoError) : List Action :=
  (failure.map fun cause => .logged (event cause)).toList

@[simp] theorem failureLog_none (event : IoError → Event) : failureLog event none = [] := rfl

@[simp] theorem failureLog_some (event : IoError → Event) (cause : IoError) :
    failureLog event (some cause) = [.logged (event cause)] := rfl

@[simp] theorem mem_failureLog {event : IoError → Event} {failure : Option IoError} {a : Action} :
    a ∈ failureLog event failure ↔ ∃ cause, failure = some cause ∧ a = .logged (event cause) := by
  cases failure <;> simp

/-- The last actions on a connection whose conversation has ended. -/
def farewell (failure : Option IoError) : List Action :=
  failureLog shutdownFailed failure ++ [.closed]

/-- How the making of a connection to `address` ends. -/
inductive OpenWay (settings : LinkSettings) (address : String) : Opening → List Action → Prop
  | refused (cause : IoError) :
    OpenWay settings address (.failed (.connect address cause)) [.unopened cause]
  | opened (hsize : settings.recvBufferSize ≤ largestBuffer) :
    OpenWay settings address .opened [.opened, .logged (connected address)]
  | aborted (hsize : largestBuffer < settings.recvBufferSize) :
    OpenWay settings address .aborted [.opened, .logged (connected address), .closed]

/-- How a reading of at most `max` bytes ends. -/
inductive ReadWay (max : Nat) (wait : Duration) :
    Except ConnectionError String → List Action → Prop
  | chunk (c : Chunk max) : ReadWay max wait (.ok (decodeLossy c.bytes)) [.received c.bytes]
  | ended (failure : Option IoError) :
    ReadWay max wait (.error .closed) (failureLog readFailed failure ++ [.ended])
  | silence : ReadWay max wait (.error (.timeout wait)) [.silence wait]

/-- How the reading of the greeting ends. -/
inductive BannerWay (settings : LinkSettings) : Option String → List Action → Prop
  | greeted (c : Chunk settings.recvBufferSize) :
    BannerWay settings (some (decodeLossy c.bytes)) [.received c.bytes]
  | ended (failure : Option IoError) : BannerWay settings none
    (failureLog readFailed failure ++ [.ended] ++ [.logged (noBanner .closed)])
  | silence : BannerWay settings none
    [.silence settings.bannerTimeout, .logged (noBanner (.timeout settings.bannerTimeout))]

/-- How the writing of a command ends. -/
inductive SendWay (command : String) : Except ConnectionError Unit → List Action → Prop
  | sent : SendWay command (.ok ()) [.sent command]
  | cut (count : Nat) (hcount : count < (commandLine command).size) (cause : IoError) :
    SendWay command (.error (.write cause)) [.cut command count]

/-- How a request that the sign to stop may interrupt ends. -/
inductive RequestWay (settings : LinkSettings) (command : String) :
    Option (Except ConnectionError String) → List Action → Prop
  | stoppedWriting (count : Nat) (hcount : count < (commandLine command).size) :
    RequestWay settings command none [.cut command count]
  | cut (count : Nat) (hcount : count < (commandLine command).size) (cause : IoError) :
    RequestWay settings command (some (.error (.write cause))) [.cut command count]
  | stoppedReading : RequestWay settings command none [.sent command]
  | replied (c : Chunk settings.recvBufferSize) :
    RequestWay settings command (some (.ok (decodeLossy c.bytes)))
      [.sent command, .received c.bytes]
  | ended (failure : Option IoError) : RequestWay settings command (some (.error .closed))
    (.sent command :: (failureLog readFailed failure ++ [.ended]))
  | silence : RequestWay settings command (some (.error (.timeout settings.responseTimeout)))
    [.sent command, .silence settings.responseTimeout]

variable {σ : Type} (h : Host σ) (settings : LinkSettings) (s : σ)

theorem logFailure_reaches (event : IoError → Event) (failure : Option IoError) :
    (logFailure h event failure).Reaches s fun _ as _ => as = failureLog event failure := by
  cases failure with
  | none => exact rfl
  | some cause => exact rfl

theorem dropLink_reaches : (dropLink h).Reaches s fun _ as s' =>
    as = [.closed] ∧ s' = h.observe .closed (h.close s) := by
  rw [dropLink, Client.reaches_bind, Client.reaches_perform, Client.reaches_act]
  exact ⟨rfl, rfl⟩

theorem closeLink_reaches : (closeLink h).Reaches s fun _ as _ =>
    as = farewell (h.shutdownFailure? s) := by
  rw [closeLink, Client.reaches_bind, Client.reaches_perform]
  refine (logFailure_reaches h s shutdownFailed _).bind fun _ as s' has => ?_
  refine (dropLink_reaches h s').mono fun _ as' _ has' => ?_
  rw [has, has'.1]
  rfl

theorem openLink_reaches (address : String) : (openLink h settings address).Reaches s fun o as _ =>
    OpenWay settings address o as := by
  rw [openLink, Client.reaches_bind, Client.reaches_perform]
  cases (h.connect address settings.connectTimeout s).1 with
  | error cause => exact .refused cause
  | ok =>
    rw [Client.reaches_bind, Client.reaches_act, Client.reaches_bind, Client.reaches_log]
    split_ifs with hsize
    · refine (dropLink_reaches h _).bind fun _ as _ has => ?_
      rw [has.1]
      exact .aborted hsize
    · exact .opened (Nat.le_of_not_lt hsize)

/-- What a reading yields. -/
def ReadOutcome.result {max : Nat} (wait : Duration) :
    ReadOutcome max → Except ConnectionError String
  | .chunk c => .ok (decodeLossy c.bytes)
  | .ended _ => .error .closed
  | .silence => .error (.timeout wait)

/-- What is recorded of a reading. -/
def ReadOutcome.actions {max : Nat} (wait : Duration) : ReadOutcome max → List Action
  | .chunk c => [.received c.bytes]
  | .ended failure => failureLog readFailed failure ++ [.ended]
  | .silence => [.silence wait]

theorem reaches_readOnce (wait : Duration)
    (Q : Except ConnectionError String → List Action → σ → Prop) :
    (readOnce h settings wait).Reaches s Q ↔
      Q ((h.read settings.recvBufferSize wait s).1.result wait)
        ((h.read settings.recvBufferSize wait s).1.actions wait)
        (((h.read settings.recvBufferSize wait s).1.actions wait).foldl (fun s a => h.observe a s)
          (h.read settings.recvBufferSize wait s).2) := by
  rw [readOnce, Client.reaches_bind, Client.reaches_perform]
  cases (h.read settings.recvBufferSize wait s).1 with
  | ended failure => cases failure <;> exact Iff.rfl
  | _ => exact Iff.rfl

theorem readOnce_reaches (wait : Duration) : (readOnce h settings wait).Reaches s fun o as _ =>
    ReadWay settings.recvBufferSize wait o as := by
  rw [reaches_readOnce]
  cases (h.read settings.recvBufferSize wait s).1 with
  | chunk c => exact .chunk c
  | ended failure => exact .ended failure
  | silence => exact .silence

theorem drainBanner_reaches : (drainBanner h settings).Reaches s fun o as _ =>
    BannerWay settings o as := by
  rw [drainBanner]
  refine (readOnce_reaches h settings s _).bind fun o as s' ho => ?_
  cases ho with
  | chunk c => exact .greeted c
  | ended failure => exact .ended failure
  | silence => exact .silence

theorem sendCommand_reaches (command : String) :
    (sendCommand h settings command).Reaches s fun o as _ => SendWay command o as := by
  rw [sendCommand, Client.reaches_bind, Client.reaches_perform]
  cases (h.write (commandLine command) settings.sendTimeout s).1 with
  | complete => exact .sent
  | failed count cause => exact .cut count count.isLt cause
  | stalled count => exact .cut count count.isLt .timedOut

theorem requestUnlessStopped_reaches (command : String) :
    (requestUnlessStopped h settings command).Reaches s fun o as _ =>
      RequestWay settings command o as := by
  rw [requestUnlessStopped, Client.reaches_bind, Client.reaches_perform]
  cases (h.stopsWriting (commandLine command) s).1 with
  | some count => exact .stoppedWriting count count.isLt
  | none =>
    refine (sendCommand_reaches h settings _ command).bind fun o as s' ho => ?_
    cases ho with
    | cut count hcount cause => exact .cut count hcount cause
    | sent =>
      rw [Client.reaches_bind, Client.reaches_perform]
      split_ifs
      · exact .stoppedReading
      · rw [Client.reaches_map]
        refine (readOnce_reaches h settings _ settings.responseTimeout).mono fun o as s' ho => ?_
        cases ho with
        | chunk c => exact .replied c
        | ended failure => exact .ended failure
        | silence => exact .silence

end LineClient
