import LineClient.Link.Dialogue
import LineClient.Proofs.Link.Meter
import LineClient.Proofs.Link.Whole
import LineClient.Proofs.Load.Scripted
import LineClient.Proofs.Telemetry.Rounds
import LineClient.Proofs.Telemetry.Ways

/-!
# What clients write

Load workers and telemetry readers are orderly: every failure of a writing, and every sign to stop
that comes in the middle of a line, ends the conversation. Their records tell what the host has
taken. So whatever the peer does and whenever the sign to stop comes, there are whole commands on
each connection, and at most one unfinished line at its end.

* `Worker.run_orderly`, `Session.run_orderly`, `Supervision.run_orderly`: after an unfinished line
  there is no other one on the same connection;
* `Worker.run_faithful`, `Session.run_faithful`, `Supervision.run_faithful`: the record tells what
  has gone out;
* `Written`; **`clients_write_whole_lines`**.
-/

namespace LineClient

variable {σ ρ : Type}

theorem BannerWay.aside {settings : LinkSettings} {banner : Option String} {as : List Action}
    (hway : BannerWay settings banner as) : as.all Action.isAside = true := by
  cases hway with
  | ended failure => cases failure <;> rfl
  | _ => rfl

theorem aside_farewell (failure : Option IoError) :
    (farewell failure).all Action.isAside = true := by
  cases failure <;> rfl

/-! ## Load workers -/

namespace Worker

section

variable (w : Worker)

theorem ExchangeWay.orderly {w : Worker} {command : String} {t : Tally}
    {o : Except ConnectionError Tally} {as : List Action} (h : w.ExchangeWay command t o as)
    (hcommand : command ∈ w.commands) :
    ∃ ready, Orderly w.commands true as ready ∧ (o.isOk = true → ready = true) := by
  cases h with
  | answered c => exact ⟨true, by simp [Orderly, Action.ready?, hcommand], fun _ => rfl⟩
  | unanswered => exact ⟨true, by simp [Orderly, Action.ready?, hcommand], fun _ => rfl⟩
  | closed failure =>
    cases failure <;> exact ⟨true, by simp [Orderly, Action.ready?, hcommand], fun _ => rfl⟩
  | cut count hcount cause =>
    exact ⟨false, by simp [Orderly, Action.ready?, hcommand, hcount],
      fun hok => (Bool.false_ne_true hok).elim⟩

variable (h : Host σ) (g : Generator ρ)

theorem rounds_orderly (count : Nat) (x : ρ) (t : Tally) (s : σ) :
    (rounds w h g count x t).Reaches s fun _ as _ => ∃ ready, Orderly w.commands true as ready := by
  induction count generalizing x t s with
  | zero => exact ⟨true, rfl⟩
  | succ count ih =>
    rw [rounds]
    by_cases hempty : w.commands.isEmpty = true
    · rw [if_pos hempty]
      exact ⟨true, rfl⟩
    · rw [if_neg hempty]
      have hdraw := w.draw_mem g (fun e => hempty (List.isEmpty_iff.mpr e)) x
      refine (exchange_reaches w h _ t s).bind fun o as s' ho => ?_
      obtain ⟨ready, horderly, hok⟩ := ho.orderly hdraw
      cases o with
      | error e =>
        have hnone : Orderly w.commands ready [] ready := rfl
        exact ⟨ready, horderly.append hnone⟩
      | ok t' =>
        obtain rfl := hok rfl
        refine (ih _ t' s').mono fun _ as' _ hrest => ?_
        obtain ⟨ready, hrest⟩ := hrest
        exact ⟨ready, horderly.append hrest⟩

theorem greet_aside (s : σ) :
    (w.greet h).Reaches s fun _ as _ => as.all Action.isAside = true := by
  rw [greet, Client.reaches_bind, Client.reaches_log, Client.reaches_bind, Client.reaches_pause]
  refine (drainBanner_reaches h w.link _).bind fun banner as s' hbanner => ?_
  have haside := hbanner.aside
  cases banner with
  | none => simpa [Action.isAside] using haside
  | some banner => simpa [Action.isAside] using haside

/-- The end of a conversation writes nothing more. -/
theorem Leaving.aside {w : Worker} {t : Tally} {failure : Option ConnectionError}
    {as : List Action} (hlast : w.Leaving t failure as) : as.all Action.isAside = true := by
  cases hlast with
  | done failure => exact aside_farewell failure
  | failed e => rfl

theorem converse_orderly (x : ρ) (s : σ) :
    (w.converse h g x).Reaches s fun _ as _ => ∃ ready, Orderly w.commands true as ready := by
  unfold converse
  split_ifs
  · refine (dropLink_reaches h s).bind ?_
    rintro _ _ _ ⟨rfl, -⟩
    exact ⟨true, rfl⟩
  · refine (rounds_orderly w h g _ _ {} s).bind fun o as s' hrounds => ?_
    obtain ⟨t, failure⟩ := o
    obtain ⟨ready, horderly⟩ := hrounds
    refine (finish_reaches h _ t failure s').mono fun _ last _ hfinish => ?_
    exact ⟨ready, horderly.append (orderly_of_aside hfinish.2.aside ready)⟩

/-- **A load worker is orderly.** -/
theorem run_orderly (x : ρ) (s : σ) :
    (w.run h g x).Reaches s fun _ as _ => ∃ ready, Orderly w.commands false as ready := by
  rw [run]
  refine (openLink_reaches h w.link s w.address).bind fun o as s' ho => ?_
  cases ho with
  | refused cause =>
    rw [Client.reaches_map]
    refine (fail_reaches h 0 {} _ s').mono ?_
    rintro _ _ _ ⟨-, rfl⟩
    exact ⟨false, rfl⟩
  | aborted hsize => exact ⟨true, rfl⟩
  | opened hsize =>
    have hopened : Orderly w.commands false [.opened, .logged (connected w.address)] true := rfl
    refine (greet_aside w h s').bind fun _ as s'' has => ?_
    refine (converse_orderly w h g x s'').mono fun _ as' _ hrest => ?_
    obtain ⟨ready, hrest⟩ := hrest
    exact ⟨ready, hopened.append ((orderly_of_aside has true).append hrest)⟩

end

section

open Client

variable (w : Worker) (h : Host σ) (g : Generator ρ)

theorem exchange_faithful (command : String) (t : Tally) :
    (exchange w h.metered command t).Faithful := by
  have hlogged (e : Event) (t : Tally) : (log h.metered e >>= fun _ =>
      pause h.metered w.commandDelay >>= fun _ =>
        pure (Except.ok t : Except ConnectionError Tally)).Faithful :=
    (faithful_log h e).bind fun _ => (faithful_pause h _).bind fun _ => faithful_pure _
  unfold exchange
  refine (sendCommand_faithful h w.link command).bind fun o => ?_
  cases o with
  | error e => exact faithful_pure _
  | ok =>
    refine (readOnce_faithful h w.link w.link.responseTimeout).bind fun o => ?_
    cases o with
    | ok response => exact hlogged _ _
    | error e =>
      dsimp only
      split_ifs
      · exact hlogged _ _
      · exact faithful_pure _

theorem rounds_faithful (count : Nat) (x : ρ) (t : Tally) :
    (rounds w h.metered g count x t).Faithful := by
  induction count generalizing x t with
  | zero => exact faithful_pure _
  | succ count ih =>
    rw [rounds]
    split_ifs
    · exact faithful_pure _
    · refine (exchange_faithful w h _ t).bind fun o => ?_
      cases o with
      | error e => exact faithful_pure _
      | ok t' => exact ih _ t'

theorem greet_faithful : (w.greet h.metered).Faithful := by
  unfold greet
  refine (faithful_log h _).bind fun _ => (faithful_pause h _).bind fun _ => ?_
  refine (drainBanner_faithful h w.link).bind fun banner => ?_
  cases banner with
  | none => exact faithful_pure _
  | some banner => exact faithful_log h _

theorem fail_faithful (planned : Nat) (t : Tally) (e : ConnectionError) :
    (w.fail h.metered planned t e).Faithful :=
  (faithful_log h _).bind fun _ => faithful_pure _

theorem finish_faithful (planned : Nat) (t : Tally) (failure : Option ConnectionError) :
    (w.finish h.metered planned t failure).Faithful := by
  cases failure with
  | none => exact (closeLink_faithful h).bind fun _ => faithful_pure _
  | some e => exact (dropLink_faithful h).bind fun _ => (fail_faithful w h planned t e).map _

theorem converse_faithful (x : ρ) : (w.converse h.metered g x).Faithful := by
  unfold converse
  split_ifs
  · exact (dropLink_faithful h).bind fun _ => faithful_pure _
  · exact (rounds_faithful w h g _ _ {}).bind fun o => finish_faithful w h _ o.1 o.2

/-- **The record of a load worker tells what has gone out.** -/
theorem run_faithful (x : ρ) : (w.run h.metered g x).Faithful := by
  unfold run
  refine (openLink_faithful h w.link w.address).bind fun o => ?_
  cases o with
  | failed e => exact (fail_faithful w h _ _ e).map _
  | aborted => exact faithful_pure _
  | opened => exact (greet_faithful w h).bind fun _ => converse_faithful w h g x

end

end Worker

/-! ## Telemetry -/

/-- A session that polls has a connection, on which no line is unfinished. -/
def Session.MayWrite (session : Session) (ready : Bool) : Prop :=
  (∃ roundTrips, session = .polling roundTrips) → ready = true

/-- As long as the present session polls it has a connection, on which no line is unfinished. -/
def Supervision.MayWrite (state : Supervision) (ready : Bool) : Prop :=
  ∀ attempt session, state = .running attempt session → session.MayWrite ready

section

variable {r : Reader}

theorem StartWay.orderly {session : Session} {as : List Action} (h : StartWay r session as)
    (ready : Bool) : ∃ ready', Orderly [r.command] ready as ready' ∧ session.MayWrite ready' := by
  cases h with
  | stopped => exact ⟨ready, rfl, by rintro ⟨_, ⟨⟩⟩⟩
  | refused cause => exact ⟨ready, rfl, by rintro ⟨_, ⟨⟩⟩⟩
  | aborted hsize => exact ⟨true, rfl, fun _ => rfl⟩
  | @polling _ banner as hbanner =>
    have hopened : Orderly [r.command] ready [.opened, .logged (connected r.address)] true := rfl
    have hrest : (as ++ (Reader.greeting banner ++ [Action.logged r.begins])).all
        Action.isAside = true := by
      rw [List.all_append, hbanner.aside]
      cases banner <;> rfl
    exact ⟨true, hopened.append (orderly_of_aside hrest true), fun _ => rfl⟩

/-- A line that is cut short ends the session. -/
theorem PollWay.orderly {roundTrips : Nat} {session : Session} {as : List Action}
    (h : PollWay r roundTrips session as) :
    ∃ ready, Orderly [r.command] true as ready ∧ session.MayWrite ready := by
  have hsent : Orderly [r.command] true [.sent r.command] true := by simp [Orderly, Action.ready?]
  have haside {as : List Action} (has : as.all Action.isAside = true) :
      Orderly [r.command] true (.sent r.command :: as) true :=
    hsent.append (orderly_of_aside has true)
  cases h with
  | stoppedWriting count hcount failure =>
    have hcut : Orderly [r.command] true [.cut r.command count] false := by
      simp [Orderly, Action.ready?, hcount]
    exact ⟨false, hcut.append (orderly_of_aside (aside_farewell failure) false),
      by rintro ⟨_, ⟨⟩⟩⟩
  | cut count hcount cause =>
    exact ⟨false, by simp [Orderly, Action.ready?, hcount], by rintro ⟨_, ⟨⟩⟩⟩
  | stoppedReading failure => exact ⟨true, haside (aside_farewell failure), fun _ => rfl⟩
  | ended failure => exact ⟨true, haside (by cases failure <;> rfl), fun _ => rfl⟩
  | silence => exact ⟨true, haside rfl, fun _ => rfl⟩
  | stoppedPausing c ha failure =>
    have hrest := aside_farewell failure
    exact ⟨true, haside (by cases ha <;> exact hrest), fun _ => rfl⟩
  | polled c ha => exact ⟨true, haside (by cases ha <;> rfl), fun _ => rfl⟩

theorem SessionWay.orderly {session session' : Session} {as : List Action}
    (h : SessionWay r session session' as) {ready : Bool} (hready : session.MayWrite ready) :
    ∃ ready', Orderly [r.command] ready as ready' ∧ session'.MayWrite ready' := by
  cases h with
  | start hway => exact hway.orderly ready
  | poll hway =>
    obtain rfl := hready ⟨_, rfl⟩
    exact hway.orderly
  | «over» result roundTrips => exact ⟨ready, rfl, hready⟩

theorem SupervisionWay.orderly {state state' : Supervision} {as : List Action}
    (h : SupervisionWay r state state' as) {ready : Bool} (hready : state.MayWrite ready) :
    ∃ ready', Orderly [r.command] ready as ready' ∧ state'.MayWrite ready' := by
  have hover (result : SessionEnd) : (Supervision.over result).MayWrite ready :=
    fun _ _ heq => nomatch heq
  cases h with
  | round attempt hway =>
    obtain ⟨ready', horderly, hready'⟩ := hway.orderly (hready attempt _ rfl)
    refine ⟨ready', horderly, ?_⟩
    rintro _ _ ⟨⟩
    exact hready'
  | recover hway =>
    cases hway with
    | gaveUp hnone => exact ⟨ready, rfl, hover _⟩
    | stopped hnext => exact ⟨ready, rfl, hover _⟩
    | again hnext =>
      refine ⟨ready, rfl, ?_⟩
      rintro _ _ ⟨⟩ ⟨_, heq⟩
      cases heq
  | stopped attempt roundTrips => exact ⟨ready, rfl, hover _⟩
  | aborted attempt roundTrips => exact ⟨ready, rfl, hover _⟩
  | «over» result => exact ⟨ready, rfl, hover _⟩

end

namespace Session

variable (r : Reader) (h : Host σ)

/-- **A session is orderly.** -/
theorem run_orderly (rounds : Nat) {session : Session} {ready : Bool}
    (hready : session.MayWrite ready) (s : σ) :
    (run r h rounds session).Reaches s fun _ as _ =>
      ∃ ready', Orderly [r.command] ready as ready' := by
  induction rounds generalizing session ready s with
  | zero => exact ⟨ready, rfl⟩
  | succ rounds ih =>
    rw [run_succ]
    refine (step_reaches r h s session).bind fun session' as s' hway => ?_
    obtain ⟨ready', horderly, hready'⟩ := hway.orderly hready
    refine (ih hready' s').mono fun _ as' _ hrest => ?_
    obtain ⟨ready'', hrest⟩ := hrest
    exact ⟨ready'', horderly.append hrest⟩

open Client

theorem start_faithful : (start r h.metered).Faithful := by
  have hgreet : (greet r h.metered).Faithful := by
    unfold greet
    refine (drainBanner_faithful h r.link).bind fun banner => ?_
    cases banner with
    | none => exact faithful_pure _
    | some banner => exact faithful_log h _
  unfold start
  refine (faithful_perform fun _ => rfl).bind fun stop => ?_
  split_ifs
  · exact faithful_pure _
  · refine (openLink_faithful h r.link r.address).bind fun o => ?_
    cases o with
    | failed e => exact faithful_pure _
    | aborted => exact faithful_pure _
    | opened => exact hgreet.bind fun _ => (faithful_log h _).bind fun _ => faithful_pure _

theorem record_faithful (response : String) : (record r h.metered response).Faithful := by
  unfold record
  cases reading? response r.key with
  | none => exact faithful_log h _
  | some value =>
    exact (faithful_perform fun _ => rfl).bind fun time => faithful_act h (.appended _) fun _ => rfl

theorem poll_faithful (roundTrips : Nat) : (poll r h.metered roundTrips).Faithful := by
  have hclose (session : Session) : (closeLink h.metered >>= fun _ => pure session).Faithful :=
    (closeLink_faithful h).bind fun _ => faithful_pure session
  have hdrop (session : Session) : (dropLink h.metered >>= fun _ => pure session).Faithful :=
    (dropLink_faithful h).bind fun _ => faithful_pure session
  unfold poll
  refine (requestUnlessStopped_faithful h r.link r.command).bind fun o => ?_
  cases o with
  | none => exact hclose _
  | some o =>
    cases o with
    | error e => exact hdrop _
    | ok response =>
      refine (record_faithful r h response).bind fun _ => ?_
      refine (faithful_perform fun _ => rfl).bind fun stop => ?_
      split_ifs
      · exact hclose _
      · exact (faithful_pause h _).bind fun _ => faithful_pure _

theorem step_faithful (session : Session) : (session.step r h.metered).Faithful := by
  cases session with
  | opening => exact start_faithful r h
  | polling roundTrips => exact poll_faithful r h roundTrips
  | «over» result roundTrips => exact faithful_pure _

/-- **The record of a session tells what has gone out.** -/
theorem run_faithful (rounds : Nat) (session : Session) :
    (run r h.metered rounds session).Faithful := by
  induction rounds generalizing session with
  | zero => exact faithful_pure _
  | succ rounds ih =>
    rw [run_succ]
    exact (step_faithful r h session).bind ih

end Session

namespace Supervision

variable (r : Reader) (h : Host σ)

/-- **Supervised telemetry is orderly.** -/
theorem run_orderly (rounds : Nat) {state : Supervision} {ready : Bool}
    (hready : state.MayWrite ready) (s : σ) :
    (run r h rounds state).Reaches s fun _ as _ =>
      ∃ ready', Orderly [r.command] ready as ready' := by
  induction rounds generalizing state ready s with
  | zero => exact ⟨ready, rfl⟩
  | succ rounds ih =>
    rw [run_succ]
    refine (step_reaches r h s state).bind fun state' as s' hway => ?_
    obtain ⟨ready', horderly, hready'⟩ := hway.orderly hready
    refine (ih hready' s').mono fun _ as' _ hrest => ?_
    obtain ⟨ready'', hrest⟩ := hrest
    exact ⟨ready'', horderly.append hrest⟩

open Client

theorem recover_faithful (attempt : Nat) (e : ConnectionError) (roundTrips : Nat) :
    (recover r h.metered attempt e roundTrips).Faithful := by
  unfold recover
  cases nextAttempt? r.attempts attempt roundTrips with
  | none => exact faithful_pure _
  | some n =>
    refine (faithful_log h _).bind fun _ => (faithful_perform fun _ => rfl).bind fun stop => ?_
    split_ifs
    · exact faithful_pure _
    · exact (faithful_pause h _).bind fun _ => faithful_pure _

theorem step_faithful (state : Supervision) : (state.step r h.metered).Faithful := by
  cases state with
  | «over» result => exact faithful_pure _
  | running attempt session =>
    cases session with
    | opening => exact (Session.step_faithful r h _).map _
    | polling roundTrips => exact (Session.step_faithful r h _).map _
    | «over» result roundTrips =>
      cases result with
      | stopped => exact faithful_pure _
      | aborted => exact faithful_pure _
      | failed e => exact recover_faithful r h attempt e roundTrips

/-- **The record of supervised telemetry tells what has gone out.** -/
theorem run_faithful (rounds : Nat) (state : Supervision) :
    (run r h.metered rounds state).Faithful := by
  induction rounds generalizing state with
  | zero => exact faithful_pure _
  | succ rounds ih =>
    rw [run_succ]
    exact (step_faithful r h state).bind ih

end Supervision

/-! ## All clients -/

/-- A run of a client that knows some commands has left whole lines on each of its connections, and
its record tells all the bytes that the meter shows. -/
structure Written (commands : List String) (r : Record) (m : Meter) : Prop where
  /-- Nothing is written before there is a connection. -/
  taken : m.earlier ++ [m.current] = [] :: r.written
  bytes : r.written = (conversations r.actions).2.map bytesWritten
  whole : ∀ as ∈ (conversations r.actions).2, Whole commands as

theorem Meter.foldl_note (as : List Action) (m : Meter) :
    (as.foldl note m).earlier ++ [(as.foldl note m).current] =
      m.earlier ++ (m.current ++ bytesWritten (conversations as).1) ::
        (conversations as).2.map bytesWritten := by
  induction as generalizing m with
  | nil => simp [conversations, bytesWritten]
  | cons a as ih =>
    rw [List.foldl_cons, ih]
    by_cases ha : a = .opened
    · rw [ha, conversations_opened]
      simp [note, next, bytesWritten]
    · have hnote : m.note a = m.add a.written := by
        cases a <;> first | rfl | exact absurd rfl ha
      rw [hnote, conversations_cons ha]
      simp [add, bytesWritten]

theorem written_of_orderly {α : Type} {c : Client (σ × Meter) α} {s : σ} {commands : List String}
    (hfaithful : c.Faithful)
    (horderly : c.Reaches (s, {}) fun _ as _ => ∃ ready, Orderly commands false as ready) :
    Written commands (c.run (s, {})).2.1 (c.run (s, {})).2.2.2 := by
  obtain ⟨ready, horderly⟩ := horderly
  have hmeter : (c.run (s, {})).2.2.2 = (c.run (s, {})).2.1.actions.foldl Meter.note {} :=
    hfaithful (s, {})
  have hbefore := Unwritten.bytesWritten_eq horderly.unbroken.1
  refine ⟨?_, Record.written_eq _, horderly.whole⟩
  rw [hmeter, Meter.foldl_note, hbefore, Record.written_eq]
  rfl

/-- **Clients write whole lines.** This holds of load workers, of sessions and of supervised
telemetry, after any number of rounds. -/
theorem clients_write_whole_lines (h : Host σ) (s : σ) :
    (∀ (w : Worker) (g : Generator ρ) (x : ρ),
      let out := (w.run h.metered g x).run (s, {})
      Written w.commands out.2.1 out.2.2.2) ∧
    (∀ (r : Reader) (rounds : Nat),
      let out := (Session.run r h.metered rounds .opening).run (s, {})
      Written [r.command] out.2.1 out.2.2.2) ∧
    ∀ (r : Reader) (rounds : Nat),
      let out := (Supervision.run r h.metered rounds .begin).run (s, {})
      Written [r.command] out.2.1 out.2.2.2 := by
  have hopening : Session.opening.MayWrite false := fun ⟨_, heq⟩ => nomatch heq
  have hbegin : Supervision.begin.MayWrite false := by
    rintro _ _ ⟨⟩
    exact hopening
  refine ⟨fun w g x => ?_, fun r rounds => ?_, fun r rounds => ?_⟩
  · exact written_of_orderly (Worker.run_faithful w h g x) (Worker.run_orderly w h.metered g x _)
  · exact written_of_orderly (Session.run_faithful r h rounds _)
      (Session.run_orderly r h.metered rounds hopening _)
  · exact written_of_orderly (Supervision.run_faithful r h rounds _)
      (Supervision.run_orderly r h.metered rounds hbegin _)

/-- A load worker whose server takes three bytes of a line and no more. -/
theorem clients_write_whole_lines_stalled :
    let h : Host Wire :=
      { Wire.host none with
        write := fun line _ w =>
          (if hroom : 3 < line.size then .stalled ⟨3, hroom⟩ else .complete, w) }
    let w := Worker.ofSettings {} 0
    let out := (w.run h.metered .listed []).run ({}, {})
    out.2.1.written = [utf8Bytes "ser"] ∧ Written w.commands out.2.1 out.2.2.2 := by
  intro h w out
  refine ⟨by decide +kernel, ?_⟩
  exact (clients_write_whole_lines h {}).1 w .listed []

end LineClient
