import LineClient.Link.Dialogue
import LineClient.Proofs.Link.Truncated
import LineClient.Proofs.Telemetry.Rounds
import LineClient.Proofs.Telemetry.Ways

/-!
# Telemetry that is stopped

Whenever the sign to stop comes, telemetry ends as if it had been cut off: it returns without a
failure, and whatever it has recorded, opened and written is the beginning of what it would have
without the sign. A failure that it returns is that of its last session, and then no sign has come.

* `Session.Stopped`, `Supervision.Stopped`, the states after a sign;
* `Session.step_beside`, `Supervision.step_beside`, one round with signs and one without;
* `Session.run_beside`, `Supervision.run_beside`, any number of rounds;
* `Supervision.LastSession`; **`Supervision.run_failed`**, where a failure comes from;
* **`signs_curtail`**: a sign only cuts telemetry short.
-/

namespace LineClient

/-- The session has stopped at a sign. -/
def Session.Stopped (session : Session) : Prop := ∃ roundTrips, session = .over .stopped roundTrips

/-- Supervised telemetry has stopped at a sign, or its session has. -/
def Supervision.Stopped (state : Supervision) : Prop :=
  state = .over .stopped ∨ ∃ attempt session, state = .running attempt session ∧ session.Stopped

section

open Client

variable {σ τ : Type} (r : Reader) (h : Host σ) (signs : Signs σ τ)

/-! ## Sessions -/

namespace Session

theorem not_stopped_opening : ¬ opening.Stopped := by
  rintro ⟨_, ⟨⟩⟩

theorem not_stopped_polling (roundTrips : Nat) : ¬ (polling roundTrips).Stopped := by
  rintro ⟨_, ⟨⟩⟩

theorem not_stopped_failed (e : ConnectionError) (roundTrips : Nat) :
    ¬ (Session.over (.failed e) roundTrips).Stopped := by
  rintro ⟨_, ⟨⟩⟩

theorem record_matches (response : String) :
    (record r (h.stoppedBy signs) response).Matches (record r h.unstopped response) := by
  rw [record, record]
  cases reading? response r.key with
  | none => exact matches_log h signs _
  | some value => exact fun _ => rfl

theorem greet_matches : (greet r (h.stoppedBy signs)).Matches (greet r h.unstopped) := by
  rw [greet, greet]
  refine (drainBanner_matches h signs r.link).bind fun banner => ?_
  cases banner with
  | none => exact matches_pure _
  | some banner => exact matches_log h signs _

theorem start_beside (s : σ) (t : τ) :
    Beside Stopped ((start r (h.stoppedBy signs)).run ⟨s, t, false⟩)
      ((start r h.unstopped).run s) := by
  rw [start, start]
  refine (stops_beside h signs .connection s t).bind (fun stop s t hstop => ?_)
    fun stop s t hstop => ?_
  · rw [if_neg hstop, if_neg hstop]
    refine (openLink_matches h signs r.link r.address).beside_bind fun o s t => ?_
    cases o with
    | failed e => exact beside_pure (not_stopped_failed e 0)
    | aborted => exact beside_pure (by rintro ⟨_, ⟨⟩⟩)
    | opened =>
      refine (greet_matches r h signs).beside_bind fun _ s t => ?_
      refine (matches_log h signs r.begins).beside_bind fun _ s t => ?_
      exact beside_pure (not_stopped_polling 0)
  · rw [if_pos hstop]
    exact leavesOff_pure ⟨0, rfl⟩

theorem closeLink_leavesOff (roundTrips : Nat) (s : σ) (t : τ) :
    LeavesOff Stopped ((closeLink (h.stoppedBy signs) >>= fun _ =>
      pure (Session.over .stopped roundTrips)).run ⟨s, t, true⟩) := by
  have hleaves : (closeLink (h.stoppedBy signs) >>= fun _ =>
      pure (Session.over .stopped roundTrips)).Reaches ⟨s, t, true⟩ fun _ as _ =>
        ∀ a ∈ as, a.Leaves := by
    refine (closeLink_reaches (h.stoppedBy signs) _).bind fun _ as _ has => ?_
    rw [Client.reaches_pure, List.append_nil, has]
    intro a ha
    rcases List.mem_append.mp ha with ha | ha
    · obtain ⟨cause, -, rfl⟩ := mem_failureLog.mp ha
      exact .inr ⟨cause, rfl⟩
    · exact .inl (List.mem_singleton.mp ha)
  have hgiven := (closeLink_matches h signs) ⟨s, t, true⟩
  refine ⟨⟨roundTrips, rfl⟩, hleaves, ?_⟩
  rw [Client.run_bind, hgiven]
  rfl

theorem poll_beside (hsteady : signs.Steady h r.link.sendTimeout) (roundTrips : Nat) (s : σ)
    (t : τ) :
    Beside Stopped ((poll r (h.stoppedBy signs) roundTrips).run ⟨s, t, false⟩)
      ((poll r h.unstopped roundTrips).run s) := by
  rw [poll, poll]
  refine (requestUnlessStopped_beside h signs r.link hsteady r.command s t).bind
    (fun o s t ho => ?_) fun o s t ho => ?_
  · cases o with
    | none => exact absurd rfl ho
    | some o =>
      cases o with
      | error e =>
        refine (dropLink_matches h signs).beside_bind fun _ s t => ?_
        exact beside_pure (not_stopped_failed e roundTrips)
      | ok response =>
        refine (record_matches r h signs response).beside_bind fun _ s t => ?_
        refine (stops_beside h signs (.pause r.interval) s t).bind (fun stop s t hstop => ?_)
          fun stop s t hstop => ?_
        · rw [if_neg hstop, if_neg hstop]
          refine (matches_pause h signs r.interval).beside_bind fun _ s t => ?_
          exact beside_pure (not_stopped_polling (roundTrips + 1))
        · rw [if_pos hstop]
          exact closeLink_leavesOff h signs (roundTrips + 1) s t
  · rw [ho]
    exact closeLink_leavesOff h signs roundTrips s t

theorem step_beside (hsteady : signs.Steady h r.link.sendTimeout) {session : Session}
    (hsession : ¬ session.Stopped) (s : σ) (t : τ) :
    Beside Stopped ((session.step r (h.stoppedBy signs)).run ⟨s, t, false⟩)
      ((session.step r h.unstopped).run s) := by
  cases session with
  | opening => exact start_beside r h signs s t
  | polling roundTrips => exact poll_beside r h signs hsteady roundTrips s t
  | «over» result roundTrips => exact beside_pure hsession

/-- **Any number of rounds of a session, with signs and without.** -/
theorem run_beside (hsteady : signs.Steady h r.link.sendTimeout) (rounds : Nat) {session : Session}
    (hsession : ¬ session.Stopped) (s : σ) (t : τ) :
    Beside Stopped ((run r (h.stoppedBy signs) rounds session).run ⟨s, t, false⟩)
      ((run r h.unstopped rounds session).run s) := by
  induction rounds generalizing session s t with
  | zero => exact beside_pure hsession
  | succ rounds ih =>
    rw [run_succ, run_succ]
    refine (step_beside r h signs hsteady hsession s t).bind (fun session s t hsession => ?_) ?_
    · exact ih hsession s t
    · rintro _ s t ⟨roundTrips, rfl⟩
      rw [run_over]
      exact leavesOff_pure ⟨roundTrips, rfl⟩

end Session

/-! ## Supervised telemetry -/

namespace Supervision

theorem not_stopped_running {session : Session} (hsession : ¬ session.Stopped) (attempt : Nat) :
    ¬ (running attempt session).Stopped := by
  rintro (heq | ⟨_, _, heq, hstopped⟩)
  · cases heq
  · cases heq
    exact hsession hstopped

theorem recover_beside (attempt : Nat) (e : ConnectionError) (roundTrips : Nat) (s : σ) (t : τ) :
    Beside Stopped ((recover r (h.stoppedBy signs) attempt e roundTrips).run ⟨s, t, false⟩)
      ((recover r h.unstopped attempt e roundTrips).run s) := by
  rw [recover, recover]
  cases nextAttempt? r.attempts attempt roundTrips with
  | none =>
    refine beside_pure ?_
    rintro (heq | ⟨_, _, heq, -⟩) <;> cases heq
  | some n =>
    refine (matches_log h signs (r.reconnecting e n)).beside_bind fun _ s t => ?_
    refine (stops_beside h signs _ s t).bind (fun stop s t hstop => ?_) fun stop s t hstop => ?_
    · rw [if_neg hstop, if_neg hstop]
      refine (matches_pause h signs (r.backoffAfter n)).beside_bind fun _ s t => ?_
      exact beside_pure (not_stopped_running Session.not_stopped_opening (n + 1))
    · rw [if_pos hstop]
      exact leavesOff_pure (.inl rfl)

theorem round_beside (hsteady : signs.Steady h r.link.sendTimeout) (attempt : Nat)
    {session : Session} (hsession : ¬ session.Stopped) (s : σ) (t : τ) :
    Beside Stopped
      ((running attempt <$> session.step r (h.stoppedBy signs)).run ⟨s, t, false⟩)
      ((running attempt <$> session.step r h.unstopped).run s) := by
  rw [← bind_pure_comp, ← bind_pure_comp]
  refine (Session.step_beside r h signs hsteady hsession s t).bind
    (fun session s t hsession => ?_) fun session s t hsession => ?_
  · exact beside_pure (not_stopped_running hsession attempt)
  · exact leavesOff_pure (.inr ⟨attempt, session, rfl, hsession⟩)

/-- **A round of supervised telemetry, with signs and without.** -/
theorem step_beside (hsteady : signs.Steady h r.link.sendTimeout) {state : Supervision}
    (hstate : ¬ state.Stopped) (s : σ) (t : τ) :
    Beside Stopped ((state.step r (h.stoppedBy signs)).run ⟨s, t, false⟩)
      ((state.step r h.unstopped).run s) := by
  cases state with
  | «over» result => exact beside_pure hstate
  | running attempt session =>
    have hsession : ¬ session.Stopped := fun hsession =>
      hstate (.inr ⟨attempt, session, rfl, hsession⟩)
    cases session with
    | opening => exact round_beside r h signs hsteady attempt hsession s t
    | polling roundTrips => exact round_beside r h signs hsteady attempt hsession s t
    | «over» result roundTrips =>
      cases result with
      | stopped => exact absurd ⟨roundTrips, rfl⟩ hsession
      | failed e => exact recover_beside r h signs attempt e roundTrips s t
      | aborted =>
        refine beside_pure ?_
        rintro (heq | ⟨_, _, heq, -⟩) <;> cases heq

/-- After a sign nothing more is done. -/
theorem Stopped.leavesOff {state : Supervision} (hstate : state.Stopped) (rounds : Nat) (s : σ)
    (t : τ) : LeavesOff Stopped ((run r (h.stoppedBy signs) rounds state).run ⟨s, t, true⟩) := by
  rcases hstate with rfl | ⟨attempt, _, rfl, roundTrips, rfl⟩
  · rw [run_over]
    exact leavesOff_pure (.inl rfl)
  · cases rounds with
    | zero => exact leavesOff_pure (.inr ⟨attempt, _, rfl, roundTrips, rfl⟩)
    | succ rounds =>
      rw [run_succ, step, pure_bind, run_over]
      exact leavesOff_pure (.inl rfl)

/-- **Any number of rounds, with signs and without.** -/
theorem run_beside (hsteady : signs.Steady h r.link.sendTimeout) (rounds : Nat)
    {state : Supervision} (hstate : ¬ state.Stopped) (s : σ) (t : τ) :
    Beside Stopped ((run r (h.stoppedBy signs) rounds state).run ⟨s, t, false⟩)
      ((run r h.unstopped rounds state).run s) := by
  induction rounds generalizing state s t with
  | zero => exact beside_pure hstate
  | succ rounds ih =>
    rw [run_succ, run_succ]
    refine (step_beside r h signs hsteady hstate s t).bind (fun state s t hstate => ?_)
      fun state s t hstate => ?_
    · exact ih hstate s t
    · exact hstate.leavesOff r h signs rounds s t

end Supervision

end

/-! ## Where a failure comes from -/

namespace Supervision

variable {σ : Type} (r : Reader) (h : Host σ)

/-- The record ends with the session that was opened last, which has got so far. -/
def LastSession (s : σ) (session : Session) (record : Record) (s' : σ) : Prop :=
  ∃ before last, record = before ++ last ∧ ∃ rounds attempt s₁,
    (run r h rounds begin).run s = (.running attempt .opening, before, s₁) ∧
    ∃ rounds', (Session.run r h rounds' .opening).run s₁ = (session, last, s')

/-- What a state owes to its last session. -/
def Owes (s : σ) : Supervision → Record → σ → Prop
  | .running _ session => LastSession r h s session
  | .over (.failed e) => fun record s' =>
    ∃ roundTrips, LastSession r h s (.over (.failed e) roundTrips) record s'
  | .over _ => fun _ _ => True

variable {r h} {s s' : σ} {record : Record}

theorem LastSession.step {session : Session} (hlast : LastSession r h s session record s') :
    LastSession r h s ((session.step r h).run s').1 (record ++ ((session.step r h).run s').2.1)
      ((session.step r h).run s').2.2 := by
  obtain ⟨before, last, rfl, rounds, attempt, s₁, hopening, rounds', hrun⟩ := hlast
  refine ⟨before, last ++ ((session.step r h).run s').2.1, List.append_assoc _ _ _, rounds, attempt,
    s₁, hopening, rounds' + 1, ?_⟩
  have hone : Session.run r h 1 = Session.step r h := by
    funext session
    rw [Session.run_succ]
    exact bind_pure _
  rw [Session.run_add, hone, Client.run_bind, hrun]

theorem lastSession_opening {rounds attempt : Nat}
    (hrun : (run r h rounds begin).run s = (.running attempt .opening, record, s')) :
    LastSession r h s .opening record s' :=
  ⟨record, [], (List.append_nil record).symm, rounds, attempt, s', hrun, 0, rfl⟩

theorem Owes.round {attempt : Nat} {session : Session}
    (howes : LastSession r h s session record s') :
    Owes r h s ((running attempt <$> session.step r h).run s').1
      (record ++ ((running attempt <$> session.step r h).run s').2.1)
      ((running attempt <$> session.step r h).run s').2.2 := by
  rw [← bind_pure_comp, Client.run_bind, Client.run_pure, List.append_nil]
  exact howes.step

/-- Another session is opened, or a sign comes first. -/
theorem recover_again {attempt roundTrips n : Nat}
    (hnext : nextAttempt? r.attempts attempt roundTrips = some n) (e : ConnectionError) (s : σ) :
    (recover r h attempt e roundTrips).Reaches s fun state _ _ =>
      state = .over .stopped ∨ ∃ attempt, state = .running attempt .opening := by
  refine (recover_reaches r h s attempt e roundTrips).mono fun state as _ hway => ?_
  cases hway with
  | gaveUp hnone => exact absurd (hnext.symm.trans hnone) (Option.some_ne_none n)
  | stopped => exact .inl rfl
  | again => exact .inr ⟨_, rfl⟩

/-- **A round keeps what a state owes to its last session.** -/
theorem Owes.step {rounds : Nat} {state : Supervision}
    (hrun : (run r h rounds begin).run s = (state, record, s'))
    (howes : Owes r h s state record s') :
    Owes r h s ((state.step r h).run s').1 (record ++ ((state.step r h).run s').2.1)
      ((state.step r h).run s').2.2 := by
  have hnext : (run r h (rounds + 1) begin).run s = (((state.step r h).run s').1,
      record ++ ((state.step r h).run s').2.1, ((state.step r h).run s').2.2) := by
    rw [run_succ_last, Client.run_bind, hrun]
  cases state with
  | «over» result =>
    rw [Supervision.step, Client.run_pure, List.append_nil]
    exact howes
  | running attempt session =>
    cases session with
    | opening => exact Owes.round howes
    | polling roundTrips => exact Owes.round howes
    | «over» result roundTrips =>
      cases result with
      | stopped => exact trivial
      | aborted => exact trivial
      | failed e =>
        rw [Supervision.step] at hnext ⊢
        cases hattempt : nextAttempt? r.attempts attempt roundTrips with
        | none =>
          rw [recover, hattempt, Client.run_pure, List.append_nil]
          exact ⟨roundTrips, howes⟩
        | some n =>
          have hagain := recover_again (h := h) hattempt e s'
          unfold Client.Reaches at hagain
          rcases hagain with hstopped | ⟨attempt, hopening⟩
          · rw [hstopped]
            exact trivial
          · rw [hopening] at hnext ⊢
            exact lastSession_opening hnext

/-- **A failure that supervised telemetry returns is that of its last session.** -/
theorem run_failed (rounds : Nat) (s : σ) {e : ConnectionError}
    (hfailed : ((run r h rounds begin).run s).1 = .over (.failed e)) :
    ∃ roundTrips, LastSession r h s (.over (.failed e) roundTrips)
      ((run r h rounds begin).run s).2.1 ((run r h rounds begin).run s).2.2 := by
  have howes : Owes r h s ((run r h rounds begin).run s).1 ((run r h rounds begin).run s).2.1
      ((run r h rounds begin).run s).2.2 := by
    clear hfailed
    induction rounds with
    | zero => exact ⟨[], [], rfl, 0, 0, s, rfl, 0, rfl⟩
    | succ rounds ih =>
      rw [run_succ_last, Client.run_bind]
      exact Owes.step rfl ih
  rw [hfailed] at howes
  exact howes

end Supervision

/-! ## The result -/

/-- **Signs only cut telemetry short**, whenever they are given. This holds of single sessions and
of supervised telemetry, and a failure that the latter returns is that of its last session. -/
theorem signs_curtail {σ τ : Type} (r : Reader) (h : Host σ) (signs : Signs σ τ)
    (hsteady : signs.Steady h r.link.sendTimeout) (rounds : Nat) (s : σ) (t : τ) :
    Client.Curtails Session.Stopped
      ((Session.run r (h.stoppedBy signs) rounds .opening).run ⟨s, t, false⟩)
      ((Session.run r h.unstopped rounds .opening).run s) ∧
    let out := (Supervision.run r (h.stoppedBy signs) rounds .begin).run ⟨s, t, false⟩
    Client.Curtails Supervision.Stopped out ((Supervision.run r h.unstopped rounds .begin).run s) ∧
    ∀ e, out.1 = .over (.failed e) → ∃ roundTrips,
      Supervision.LastSession r (h.stoppedBy signs) ⟨s, t, false⟩ (.over (.failed e) roundTrips)
        out.2.1 out.2.2 := by
  have hbegin : ¬ Supervision.begin.Stopped :=
    Supervision.not_stopped_running Session.not_stopped_opening 0
  have hsession := Session.run_beside r h signs hsteady rounds Session.not_stopped_opening s t
  have hsupervision := Supervision.run_beside r h signs hsteady rounds hbegin s t
  exact ⟨hsession.curtails, hsupervision.curtails, fun e hfailed =>
    Supervision.run_failed rounds _ hfailed⟩

/-- A sign breaks off the second line after three bytes. -/
theorem signs_curtail_second :
    let settings : Settings := { recvBufferSize := 12 }
    let r := Reader.ofSettings settings
    let h := Wire.host none
    let signs : Signs Wire Nat :=
      { stops := fun _ _ t => (false, t)
        stopsWriting := fun line w t =>
          (if hline : t = 1 ∧ 3 < line.size then
            some ⟨min 3 (w.write line).1.taken.length, by omega⟩
          else none, t + 1) }
    let w : Wire := { inbound := utf8Bytes "hello there\ntemp: 21.5 C\ntemp: 22.5 C\n" }
    let out := (Supervision.run r (h.stoppedBy signs) 3 .begin).run ⟨w, 0, false⟩
    let whole := (Supervision.run r h.unstopped 3 .begin).run w
    out.1 = .running 0 (.over .stopped 1) ∧
      out.2.1.written = [utf8Bytes (r.command ++ "\nsen")] ∧
      out.2.1.samples.length = 1 ∧ whole.2.1.samples.length = 2 ∧
      out.2.1.Truncates whole.2.1 := by
  intro settings r h signs w out whole
  have hsteady : signs.Steady h r.link.sendTimeout := by
    intro line w t count hcount
    obtain ⟨hline, heq⟩ := Option.dite_none_right_eq_some.mp hcount
    cases heq
    exact Nat.min_le_right _ _
  refine ⟨by decide +kernel, by decide +kernel, by decide +kernel, by decide +kernel, ?_⟩
  have hcurtails : Client.Curtails Supervision.Stopped out whole :=
    (signs_curtail r h signs hsteady 3 w 0).2.1
  exact hcurtails.truncates

end LineClient
