import LineClient.Proofs.Link.Ways
import LineClient.Telemetry.Supervisor

/-!
# The ways in which rounds of telemetry end

Whatever the host does, a round of a session ends in one of a few ways, and so does the recovery
from a failed session.

* `StartWay`, `RecordWay`, `PollWay`, `RecoverWay`, the ways of their parts;
* `SessionWay`, `SupervisionWay`, the ways of a whole round;
* **`Session.step_reaches`**, **`Supervision.step_reaches`**: there are no others.
-/

namespace LineClient

variable (r : Reader)

/-- What follows the reading of the greeting. -/
def Reader.greeting (banner : Option String) : List Action :=
  (banner.map fun banner => .logged (Reader.greeted banner)).toList

/-- How the first round of a session ends. -/
inductive StartWay : Session → List Action → Prop
  | stopped : StartWay (.over .stopped 0) []
  | refused (cause : IoError) :
    StartWay (.over (.failed (.connect r.address cause)) 0) [.unopened cause]
  | aborted (hsize : largestBuffer < r.link.recvBufferSize) :
    StartWay (.over .aborted 0) [.opened, .logged (connected r.address), .closed]
  | polling (hsize : r.link.recvBufferSize ≤ largestBuffer) {banner : Option String}
    {as : List Action} (hbanner : BannerWay r.link banner as) :
    StartWay (.polling 0) ([.opened, .logged (connected r.address)] ++
      (as ++ (Reader.greeting banner ++ [.logged r.begins])))

/-- What is recorded of a reply. -/
inductive RecordWay (response : String) : Action → Prop
  | sample {value : Binary64} (hvalue : reading? response r.key = some value) (time : Duration) :
    RecordWay response (.appended ⟨time, value⟩)
  | unreadable (hnone : reading? response r.key = none) :
    RecordWay response (.logged (r.unreadable response))

/-- How a later round of a session ends, after so many replies. -/
inductive PollWay (roundTrips : Nat) : Session → List Action → Prop
  | stoppedWriting (count : Nat) (hcount : count < (commandLine r.command).size)
    (failure : Option IoError) :
    PollWay roundTrips (.over .stopped roundTrips) (.cut r.command count :: farewell failure)
  | stoppedReading (failure : Option IoError) :
    PollWay roundTrips (.over .stopped roundTrips) (.sent r.command :: farewell failure)
  | cut (count : Nat) (hcount : count < (commandLine r.command).size) (cause : IoError) :
    PollWay roundTrips (.over (.failed (.write cause)) roundTrips) [.cut r.command count, .closed]
  | ended (failure : Option IoError) : PollWay roundTrips (.over (.failed .closed) roundTrips)
    (.sent r.command :: (failureLog readFailed failure ++ [.ended, .closed]))
  | silence : PollWay roundTrips (.over (.failed (.timeout r.link.responseTimeout)) roundTrips)
    [.sent r.command, .silence r.link.responseTimeout, .closed]
  | stoppedPausing (c : Chunk r.link.recvBufferSize) {a : Action}
    (ha : RecordWay r (decodeLossy c.bytes) a) (failure : Option IoError) :
    PollWay roundTrips (.over .stopped (roundTrips + 1))
      (.sent r.command :: .received c.bytes :: a :: farewell failure)
  | polled (c : Chunk r.link.recvBufferSize) {a : Action}
    (ha : RecordWay r (decodeLossy c.bytes) a) :
    PollWay roundTrips (.polling (roundTrips + 1))
      [.sent r.command, .received c.bytes, a, .waited r.interval]

/-- What follows a failed session. -/
inductive RecoverWay (attempt : Nat) (e : ConnectionError) (roundTrips : Nat) :
    Supervision → List Action → Prop
  | gaveUp (hnone : nextAttempt? r.attempts attempt roundTrips = none) :
    RecoverWay attempt e roundTrips (.over (.failed e)) []
  | stopped {n : Nat} (hnext : nextAttempt? r.attempts attempt roundTrips = some n) :
    RecoverWay attempt e roundTrips (.over .stopped) [.logged (r.reconnecting e n)]
  | again {n : Nat} (hnext : nextAttempt? r.attempts attempt roundTrips = some n) :
    RecoverWay attempt e roundTrips (.running (n + 1) .opening)
      [.logged (r.reconnecting e n), .waited (r.backoffAfter n)]

/-- How a round of a session ends. -/
inductive SessionWay : Session → Session → List Action → Prop
  | start {session : Session} {as : List Action} (hway : StartWay r session as) :
    SessionWay .opening session as
  | poll {roundTrips : Nat} {session : Session} {as : List Action}
    (hway : PollWay r roundTrips session as) : SessionWay (.polling roundTrips) session as
  | over (result : SessionEnd) (roundTrips : Nat) :
    SessionWay (.over result roundTrips) (.over result roundTrips) []

/-- How a round of supervised telemetry ends. -/
inductive SupervisionWay : Supervision → Supervision → List Action → Prop
  | round (attempt : Nat) {session session' : Session} {as : List Action}
    (hway : SessionWay r session session' as) :
    SupervisionWay (.running attempt session) (.running attempt session') as
  | recover {attempt roundTrips : Nat} {e : ConnectionError} {state : Supervision}
    {as : List Action} (hway : RecoverWay r attempt e roundTrips state as) :
    SupervisionWay (.running attempt (.over (.failed e) roundTrips)) state as
  | stopped (attempt roundTrips : Nat) :
    SupervisionWay (.running attempt (.over .stopped roundTrips)) (.over .stopped) []
  | aborted (attempt roundTrips : Nat) :
    SupervisionWay (.running attempt (.over .aborted roundTrips)) (.over .aborted) []
  | over (result : SessionEnd) : SupervisionWay (.over result) (.over result) []

variable {σ : Type} (h : Host σ) (s : σ)

namespace Session

theorem greet_reaches : (greet r h).Reaches s fun _ as _ =>
    ∃ banner bs, BannerWay r.link banner bs ∧ as = bs ++ Reader.greeting banner := by
  rw [greet]
  refine (drainBanner_reaches h r.link s).bind fun banner as s' hbanner => ?_
  cases banner with
  | none => exact ⟨none, as, hbanner, rfl⟩
  | some banner => exact ⟨some banner, as, hbanner, rfl⟩

theorem start_reaches : (start r h).Reaches s fun session as _ => StartWay r session as := by
  rw [start, Client.reaches_bind, Client.reaches_perform]
  split_ifs
  · exact .stopped
  · refine (openLink_reaches h r.link _ r.address).bind fun o as s' ho => ?_
    cases ho with
    | refused cause => exact .refused cause
    | aborted hsize => exact .aborted hsize
    | opened hsize =>
      refine (greet_reaches r h s').bind ?_
      rintro _ _ s'' ⟨banner, as, hbanner, rfl⟩
      rw [Client.reaches_bind, Client.reaches_log, Client.reaches_pure, List.append_nil,
        List.append_assoc]
      exact .polling hsize hbanner

theorem record_reaches (response : String) : (record r h response).Reaches s fun _ as _ =>
    ∃ a, as = [a] ∧ RecordWay r response a := by
  rw [record]
  cases hvalue : reading? response r.key with
  | none => exact ⟨_, rfl, .unreadable hvalue⟩
  | some value => exact ⟨_, rfl, .sample hvalue _⟩

theorem poll_reaches (roundTrips : Nat) : (poll r h roundTrips).Reaches s fun session as _ =>
    PollWay r roundTrips session as := by
  have hclose (before : List Action) {session : Session} (s : σ)
      (hway : ∀ failure, PollWay r roundTrips session (before ++ farewell failure)) :
      (closeLink h >>= fun _ => pure session).Reaches s fun session as _ =>
        PollWay r roundTrips session (before ++ as) := by
    refine (closeLink_reaches h s).bind fun _ as _ has => ?_
    rw [has, Client.reaches_pure, List.append_nil]
    exact hway _
  have hdrop (before : List Action) {session : Session} (s : σ)
      (hway : PollWay r roundTrips session (before ++ [.closed])) :
      (dropLink h >>= fun _ => pure session).Reaches s fun session as _ =>
        PollWay r roundTrips session (before ++ as) := by
    refine (dropLink_reaches h s).bind ?_
    rintro _ _ s' ⟨rfl, -⟩
    exact hway
  rw [poll]
  refine (requestUnlessStopped_reaches h r.link s r.command).bind fun o as s' ho => ?_
  cases ho with
  | stoppedWriting count hcount => exact hclose _ s' (.stoppedWriting count hcount)
  | cut count hcount cause => exact hdrop _ s' (.cut count hcount cause)
  | stoppedReading => exact hclose _ s' .stoppedReading
  | ended failure =>
    refine hdrop _ s' ?_
    rw [List.cons_append, List.append_assoc]
    exact .ended failure
  | silence => exact hdrop [.sent r.command, .silence r.link.responseTimeout] s' .silence
  | replied c =>
    refine (record_reaches r h s' (decodeLossy c.bytes)).bind ?_
    rintro _ _ s'' ⟨a, rfl, ha⟩
    rw [Client.reaches_bind, Client.reaches_perform]
    split_ifs
    · exact hclose [.sent r.command, .received c.bytes, a] _ (.stoppedPausing c ha)
    · exact .polled c ha

theorem step_reaches (session : Session) : (session.step r h).Reaches s fun session' as _ =>
    SessionWay r session session' as := by
  cases session with
  | opening => exact (start_reaches r h s).mono fun _ _ _ hway => .start hway
  | polling roundTrips => exact (poll_reaches r h s roundTrips).mono fun _ _ _ hway => .poll hway
  | «over» result roundTrips => exact .over result roundTrips

end Session

namespace Supervision

theorem recover_reaches (attempt : Nat) (e : ConnectionError) (roundTrips : Nat) :
    (recover r h attempt e roundTrips).Reaches s fun state as _ =>
      RecoverWay r attempt e roundTrips state as := by
  rw [recover]
  cases hnext : nextAttempt? r.attempts attempt roundTrips with
  | none => exact .gaveUp hnext
  | some n =>
    refine (Client.reaches_bind _).mpr ?_
    rw [Client.reaches_log, Client.reaches_bind, Client.reaches_perform]
    split_ifs
    · exact .stopped hnext
    · exact .again hnext

/-- **There are no other ways for a round of supervised telemetry.** -/
theorem step_reaches (state : Supervision) : (state.step r h).Reaches s fun state' as _ =>
    SupervisionWay r state state' as := by
  have hround (attempt : Nat) (session : Session) :
      (running attempt <$> session.step r h).Reaches s fun state' as _ =>
        SupervisionWay r (.running attempt session) state' as := by
    rw [Client.reaches_map]
    exact (Session.step_reaches r h s session).mono fun _ _ _ hway => .round attempt hway
  cases state with
  | «over» result => exact .over result
  | running attempt session =>
    cases session with
    | opening => exact hround attempt _
    | polling roundTrips => exact hround attempt _
    | «over» result roundTrips =>
      cases result with
      | stopped => exact .stopped attempt roundTrips
      | aborted => exact .aborted attempt roundTrips
      | failed e =>
        exact (recover_reaches r h s attempt e roundTrips).mono fun _ _ _ hway => .recover hway

end Supervision

end LineClient
