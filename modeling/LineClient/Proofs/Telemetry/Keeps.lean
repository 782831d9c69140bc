import LineClient.Proofs.Link.Keeps
import LineClient.Proofs.Telemetry.Rounds

/-!
# What a host keeps in the course of telemetry

Whatever holds across each operation of a host holds across a round of a session, across the
recovery from a failed one, and across any number of rounds.

* `Session.poll_keeps`, `Session.step_keeps`, one round of a session;
* `Supervision.step_keeps`, **`Supervision.run_keeps`**.
-/

namespace LineClient

open Client

variable {σ : Type} {R : σ → σ → Prop} [IsPreorder σ R] (r : Reader) {h : Host σ}
  (hkeeps : h.Keeps R)
include hkeeps

namespace Session

theorem record_keeps (response : String) : (record r h response).Keeps R := by
  rw [record]
  cases reading? response r.key with
  | none => exact keeps_log hkeeps _
  | some value =>
    exact (keeps_perform fun s => refl_of R s).bind fun _ => keeps_act hkeeps _

theorem greet_keeps : (greet r h).Keeps R := by
  rw [greet]
  refine (drainBanner_keeps hkeeps r.link).bind fun banner => ?_
  cases banner with
  | none => exact keeps_pure _
  | some banner => exact keeps_log hkeeps _

theorem start_keeps : (start r h).Keeps R := by
  rw [start]
  refine (keeps_perform (hkeeps.stops .connection)).bind fun stop => ?_
  split_ifs
  · exact keeps_pure _
  · refine (openLink_keeps hkeeps r.link r.address).bind fun o => ?_
    cases o with
    | failed e => exact keeps_pure _
    | aborted => exact keeps_pure _
    | opened =>
      exact (greet_keeps r hkeeps).bind fun _ => (keeps_log hkeeps _).bind fun _ => keeps_pure _

theorem poll_keeps (roundTrips : Nat) : (poll r h roundTrips).Keeps R := by
  have hclose (session : Session) :
      (closeLink h >>= fun _ => (pure session : Client σ Session)).Keeps R :=
    (closeLink_keeps hkeeps).bind fun _ => keeps_pure _
  have hdrop (session : Session) :
      (dropLink h >>= fun _ => (pure session : Client σ Session)).Keeps R :=
    (dropLink_keeps hkeeps).bind fun _ => keeps_pure _
  rw [poll]
  refine (requestUnlessStopped_keeps hkeeps r.link r.command).bind fun o => ?_
  match o with
  | none => exact hclose _
  | some (.error e) => exact hdrop _
  | some (.ok response) =>
    refine (record_keeps r hkeeps response).bind fun _ => ?_
    refine (keeps_perform (hkeeps.stops (.pause r.interval))).bind fun stop => ?_
    split_ifs
    · exact hclose _
    · exact (keeps_pause hkeeps r.interval).bind fun _ => keeps_pure _

theorem step_keeps (session : Session) : (session.step r h).Keeps R := by
  cases session with
  | opening => exact start_keeps r hkeeps
  | polling roundTrips => exact poll_keeps r hkeeps roundTrips
  | «over» result roundTrips => exact keeps_pure _

end Session

namespace Supervision

theorem recover_keeps (attempt : Nat) (e : ConnectionError) (roundTrips : Nat) :
    (recover r h attempt e roundTrips).Keeps R := by
  rw [recover]
  cases nextAttempt? r.attempts attempt roundTrips with
  | none => exact keeps_pure _
  | some n =>
    refine (keeps_log hkeeps _).bind fun _ => ?_
    refine (keeps_perform (hkeeps.stops (.pause (r.backoffAfter n)))).bind fun stop => ?_
    split_ifs
    · exact keeps_pure _
    · exact (keeps_pause hkeeps (r.backoffAfter n)).bind fun _ => keeps_pure _

theorem step_keeps (state : Supervision) : (state.step r h).Keeps R := by
  match state with
  | .over result => exact keeps_pure _
  | .running attempt .opening => exact (Session.step_keeps r hkeeps _).map _
  | .running attempt (.polling roundTrips) => exact (Session.step_keeps r hkeeps _).map _
  | .running attempt (.over .stopped roundTrips) => exact keeps_pure _
  | .running attempt (.over .aborted roundTrips) => exact keeps_pure _
  | .running attempt (.over (.failed e) roundTrips) =>
    exact recover_keeps r hkeeps attempt e roundTrips

/-- **Whatever holds across each operation of a host holds across any number of rounds.** -/
theorem run_keeps (rounds : Nat) (state : Supervision) : (run r h rounds state).Keeps R := by
  induction rounds generalizing state with
  | zero => exact keeps_pure _
  | succ rounds ih =>
    rw [run_succ]
    exact (step_keeps r hkeeps state).bind ih

end Supervision

end LineClient
