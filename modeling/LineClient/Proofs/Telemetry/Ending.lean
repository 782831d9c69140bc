import LineClient.Proofs.Files
import LineClient.Proofs.Link.Backdrop
import LineClient.Proofs.Series.Rows
import LineClient.Proofs.Settings.Faultless
import LineClient.Proofs.Telemetry.Course
import LineClient.Proofs.Telemetry.Curtailed
import LineClient.Proofs.Telemetry.Keeps
import LineClient.Proofs.Telemetry.Looks

/-!
# How telemetry ends

Telemetry ends only when the sign to stop has come, whether the reader has failed before or not. It
ends without the sign only if nobody can listen for it and the reader has failed. Up to the end the
reporter looks at the series in every period, and then the numbers that are told and the rows that
are written are those of the samples that are left.

* `Host.Signed`; `Supervision.run_signed`, a reader that stops has had the sign;
* `Unofficial`, `Supervision.run_unofficial`, the program tells of the end and the reader does not;
* `mergeByTime_perm`, `sublist_mergeByTime`, nothing is lost when events are put in order;
* `filter_eventsUntil`, `filter_isFailure`, `filter_isOfSign`, what the program as a whole tells;
* `TelemetryRun.Complete`, how telemetry has ended; **`telemetryRun?_complete`**.
-/

namespace LineClient

open Client

variable {σ : Type} {h : Host σ}

/-! ## The sign to stop -/

/-- The sign to stop has come. -/
def Host.Signed (h : Host σ) (s : σ) : Prop := (h.signTime? s).isSome = true

theorem Host.signed_iff {s : σ} : h.Signed s ↔ ∃ time, h.listening s = .signed time := by
  unfold Signed signTime?
  cases h.listening s <;> simp

theorem Host.Remembers.signed {s s' : σ} (hremembers : h.Remembers s s') (hs : h.Signed s) :
    h.Signed s' := by
  obtain ⟨time, htime⟩ := Option.isSome_iff_exists.mp hs
  exact Option.isSome_iff_exists.mpr ⟨time, hremembers time htime⟩

section

variable (r : Reader) (hsignals : h.Signals)
include hsignals

theorem requestUnlessStopped_signed (settings : LinkSettings) (command : String) (s : σ) :
    (requestUnlessStopped h settings command).Reaches s fun o _ s' => o = none → h.Signed s' := by
  rw [requestUnlessStopped, reaches_bind, reaches_perform]
  cases hwriting : (h.stopsWriting (commandLine command) s).1 with
  | some count =>
    have hsigned : h.Signed (h.stopsWriting (commandLine command) s).2 :=
      hsignals.stopsWriting _ s (by rw [hwriting]; rfl)
    intro _
    exact (hsignals.keeps.observe _ _).signed hsigned
  | none =>
    refine (sendCommand_reaches h settings _ command).bind fun o _ s' _ => ?_
    cases o with
    | error e => exact fun hnone => (Option.some_ne_none _ hnone).elim
    | ok =>
      rw [reaches_bind, reaches_perform]
      split_ifs with hstop
      · exact fun _ => hsignals.stops _ s' hstop
      · rw [reaches_map]
        exact fun hnone => (Option.some_ne_none _ hnone).elim

theorem closeLink_signed {s : σ} (hs : h.Signed s) (session : Session) :
    (closeLink h >>= fun _ => (pure session : Client σ Session)).Reaches s fun _ _ s' =>
      h.Signed s' :=
  ((closeLink_keeps hsignals.keeps).reaches s).bind fun _ _ _ hremembers => hremembers.signed hs

namespace Session

theorem start_signed (s : σ) :
    (start r h).Reaches s fun session _ s' => session.Stopped → h.Signed s' := by
  rw [start, reaches_bind, reaches_perform]
  split_ifs with hstop
  · exact fun _ => hsignals.stops _ s hstop
  · refine (openLink_reaches h r.link _ r.address).bind fun o _ s' _ => ?_
    cases o with
    | failed e => exact fun hstopped => absurd hstopped (not_stopped_failed e 0)
    | aborted =>
      rintro ⟨_, hstopped⟩
      cases hstopped
    | opened =>
      refine (greet_reaches r h s').bind fun _ _ s'' _ => ?_
      rw [reaches_bind, reaches_log]
      exact fun hstopped => absurd hstopped (not_stopped_polling 0)

theorem poll_signed (roundTrips : Nat) (s : σ) :
    (poll r h roundTrips).Reaches s fun session _ s' => session.Stopped → h.Signed s' := by
  rw [poll]
  refine (requestUnlessStopped_signed hsignals r.link r.command s).bind fun o _ s' ho => ?_
  cases o with
  | none => exact (closeLink_signed hsignals (ho rfl) _).mono fun _ _ _ hsigned _ => hsigned
  | some reply =>
    cases reply with
    | error e =>
      refine (dropLink_reaches h s').bind fun _ _ s'' _ hstopped => ?_
      exact absurd hstopped (not_stopped_failed e roundTrips)
    | ok response =>
      refine (record_reaches r h s' response).bind fun _ _ s'' _ => ?_
      rw [reaches_bind, reaches_perform]
      split_ifs with hstop
      · have hsigned := hsignals.stops _ s'' hstop
        exact (closeLink_signed hsignals hsigned _).mono fun _ _ _ hsigned _ => hsigned
      · exact fun hstopped => absurd hstopped (not_stopped_polling (roundTrips + 1))

end Session

namespace Supervision

theorem recover_signed (attempt : Nat) (e : ConnectionError) (roundTrips : Nat) (s : σ) :
    (recover r h attempt e roundTrips).Reaches s fun state _ s' =>
      state.Stopped → h.Signed s' := by
  rw [recover]
  cases nextAttempt? r.attempts attempt roundTrips with
  | none =>
    rintro (hstopped | ⟨_, _, hstopped, -⟩)
    · cases hstopped
    · cases hstopped
  | some n =>
    refine (reaches_bind _).mpr ?_
    rw [reaches_log, reaches_bind, reaches_perform]
    split_ifs with hstop
    · exact fun _ => hsignals.stops _ _ hstop
    · exact fun hstopped =>
        absurd hstopped (not_stopped_running Session.not_stopped_opening (n + 1))

theorem step_signed {state : Supervision} {s : σ} (hs : state.Stopped → h.Signed s) :
    (state.step r h).Reaches s fun state' _ s' => state'.Stopped → h.Signed s' := by
  have hround {attempt : Nat} {session : Session}
      (hsession : (session.step r h).Reaches s fun session' _ s' =>
        session'.Stopped → h.Signed s') :
      (running attempt <$> session.step r h).Reaches s fun state' _ s' =>
        state'.Stopped → h.Signed s' := by
    rw [reaches_map]
    refine hsession.mono fun session' _ s' hsigned hstopped => ?_
    by_contra hnot
    exact not_stopped_running (fun h => hnot (hsigned h)) attempt hstopped
  match state with
  | .over result => exact hs
  | .running attempt .opening => exact hround (Session.start_signed r hsignals s)
  | .running attempt (.polling roundTrips) =>
    exact hround (Session.poll_signed r hsignals roundTrips s)
  | .running attempt (.over .stopped roundTrips) =>
    exact fun _ => hs (.inr ⟨attempt, _, rfl, roundTrips, rfl⟩)
  | .running attempt (.over .aborted roundTrips) =>
    rintro (hstopped | ⟨_, _, hstopped, -⟩)
    · cases hstopped
    · cases hstopped
  | .running attempt (.over (.failed e) roundTrips) =>
    exact recover_signed r hsignals attempt e roundTrips s

/-- **A reader that stops has had the sign.** -/
theorem run_signed (rounds : Nat) {state : Supervision} {s : σ}
    (hs : state.Stopped → h.Signed s) :
    (run r h rounds state).Reaches s fun state' _ s' => state'.Stopped → h.Signed s' := by
  induction rounds generalizing state s with
  | zero => exact hs
  | succ rounds ih =>
    rw [run_succ]
    exact (step_signed r hsignals hs).bind fun _ _ _ hsigned => ih hsigned

end Supervision

end

/-! ## What the reader tells -/

/-- None of the events is one of the program as a whole. -/
def Unofficial (as : List Action) : Prop :=
  ∀ e ∈ as.filterMap Action.event?, e.source ≠ .program

section

variable {r : Reader} {as as' : List Action}

theorem Unofficial.append (has : Unofficial as) (has' : Unofficial as') :
    Unofficial (as ++ as') := by
  intro e he
  rw [List.filterMap_append] at he
  rcases List.mem_append.mp he with he | he
  · exact has e he
  · exact has' e he

theorem unofficial_readFailed (failure : Option IoError) :
    Unofficial (failureLog readFailed failure) := by
  cases failure <;> simp [Unofficial, readFailed]

theorem unofficial_farewell (failure : Option IoError) : Unofficial (farewell failure) := by
  cases failure <;> simp [Unofficial, farewell, List.filterMap_cons, shutdownFailed]

theorem BannerWay.unofficial {settings : LinkSettings} {banner : Option String}
    (hway : BannerWay settings banner as) : Unofficial as := by
  cases hway with
  | ended failure =>
    have hended : Unofficial [.ended] := by simp [Unofficial]
    refine ((unofficial_readFailed failure).append hended).append ?_
    simp [Unofficial, noBanner]
  | _ => simp [Unofficial, List.filterMap_cons, noBanner]

theorem StartWay.unofficial {session : Session} (hway : StartWay r session as) :
    Unofficial as := by
  cases hway with
  | stopped => simp [Unofficial]
  | refused cause => simp [Unofficial, List.filterMap_cons]
  | aborted hsize => simp [Unofficial, List.filterMap_cons, connected]
  | @polling _ banner _ hbanner =>
    have hopened : Unofficial [.opened, .logged (connected r.address)] := by
      simp [Unofficial, List.filterMap_cons, connected]
    have hgreeting : Unofficial (Reader.greeting banner) := by
      cases banner <;> simp [Unofficial, Reader.greeting, Reader.greeted, Reader.event]
    have hbegins : Unofficial [.logged r.begins] := by
      simp [Unofficial, Reader.begins, Reader.event]
    exact hopened.append (hbanner.unofficial.append (hgreeting.append hbegins))

theorem PollWay.unofficial {roundTrips : Nat} {session : Session}
    (hway : PollWay r roundTrips session as) : Unofficial as := by
  have hreply {response : String} {a : Action} (ha : RecordWay r response a) :
      Unofficial [a] := by
    cases ha <;> simp [Unofficial, Reader.unreadable, Reader.event]
  have hread (bytes : List UInt8) : Unofficial [.sent r.command, .received bytes] := by
    simp [Unofficial, List.filterMap_cons]
  have hsent : Unofficial [.sent r.command] := by simp [Unofficial]
  have hwaited : Unofficial [.waited r.interval] := by simp [Unofficial]
  cases hway with
  | stoppedWriting count hcount failure =>
    have hcut : Unofficial [.cut r.command count] := by simp [Unofficial]
    exact hcut.append (unofficial_farewell failure)
  | stoppedReading failure => exact hsent.append (unofficial_farewell failure)
  | ended failure =>
    have hended : Unofficial [.ended, .closed] := by simp [Unofficial]
    exact hsent.append ((unofficial_readFailed failure).append hended)
  | stoppedPausing c ha failure =>
    exact (hread c.bytes).append ((hreply ha).append (unofficial_farewell failure))
  | polled c ha => exact (hread c.bytes).append ((hreply ha).append hwaited)
  | _ => simp [Unofficial, List.filterMap_cons]

theorem SupervisionWay.unofficial {state state' : Supervision}
    (hway : SupervisionWay r state state' as) : Unofficial as := by
  cases hway with
  | round attempt hway =>
    cases hway with
    | start hway => exact hway.unofficial
    | poll hway => exact hway.unofficial
    | «over» result roundTrips => simp [Unofficial]
  | recover hway => cases hway <;> simp [Unofficial, Reader.reconnecting, Reader.event]
  | _ => simp [Unofficial]

/-- **No event of the reader is one of the program as a whole.** -/
theorem Supervision.run_unofficial (r : Reader) (h : Host σ) (rounds : Nat)
    (state : Supervision) (s : σ) :
    (run r h rounds state).Reaches s fun _ as _ => Unofficial as := by
  have hstep (state : Supervision) (s : σ) (_ : True) :
      (state.step r h).Reaches s fun _ as _ => True ∧ Unofficial as :=
    (step_reaches r h s state).mono fun _ _ _ hway => ⟨trivial, hway.unofficial⟩
  have hnil : Unofficial [] := by simp [Unofficial]
  have happend (as as' : List Action) (has : Unofficial as) (has' : Unofficial as') :
      Unofficial (as ++ as') := has.append has'
  exact (run_reaches r h (I := fun _ => True) hnil happend hstep rounds s trivial).mono
    fun _ _ _ hrun => hrun.2

end

/-! ## Events in the order of time -/

variable {xs ys : List (Duration × Event)}

theorem mergeByTime_perm : (mergeByTime xs ys).Perm (xs ++ ys) :=
  List.merge_perm_append _

/-- The first run of events is there in its own order. -/
theorem sublist_mergeByTime : xs.Sublist (mergeByTime xs ys) := by
  unfold mergeByTime
  induction xs generalizing ys with
  | nil => exact List.nil_sublist _
  | cons x xs ihx =>
    induction ys with
    | nil => rw [List.merge_right]
    | cons y ys ihy =>
      rw [List.cons_merge_cons]
      split_ifs
      · exact ihx.cons_cons x
      · exact ihy.cons y

theorem Record.map_timedEvents (r : Record) : r.timedEvents.map (·.2) = r.events := by
  rw [timedEvents, events, List.map_filterMap]
  refine List.filterMap_congr fun entry _ => ?_
  cases entry.action.event? <;> rfl

/-! ## The end -/

namespace TelemetryRun

/-- The event tells that the reader has failed. -/
def isFailure (e : Event) : Bool := e.source = .program ∧ e.level = .error

/-- The event tells that the sign to stop has come, or why nobody can listen for it. -/
def isOfSign (e : Event) : Bool := e.source = .program ∧ (e.level = .debug ∨ e.level = .warn)

theorem source_reportEvent (samples : List Sample) :
    (reportEvent samples).source = .telemetry := by
  unfold reportEvent
  cases Report.ofSamples? samples <;> rfl

end TelemetryRun

/-- What the reporter tells up to a moment, once in every period, is there in its own order. -/
def ToldUntil (s : Settings) (record : Record) (stop : Duration) (events : List Event) : Prop :=
  ∃ told, reportLoop? s.telemetry.reportPeriod s.telemetry.maxSamples record.timedSamples stop =
      some told ∧
    told.map (·.1) = (List.range (stop.nanos / s.telemetry.reportPeriod.nanos + 1)).map
      (lookTime s.telemetry.reportPeriod) ∧
    (told.map (·.2)).Sublist events

/-- How telemetry has ended, if the reader has recorded `record` and, unless it was stopped, has
failed. -/
structure TelemetryRun.Complete (h : Host σ) (s : Settings) (files : FileTree) (record : Record)
    (failure : Option ConnectionError) (run : TelemetryRun σ) : Prop where
  /-- Where it was possible to listen for the sign to stop, the sign has come, and until then the
  reporter has told something in every period. -/
  signed : (∀ time cause, h.listening run.state ≠ .failed time cause) →
    ∃ stop, h.listening run.state = .signed stop ∧ ToldUntil s record stop run.events
  /-- Where it was not, the reader has failed, and until the end the reporter has told something in
  every period. -/
  unheard : ∀ time cause, h.listening run.state = .failed time cause →
    (∃ e, failure = some e) ∧ ToldUntil s record (h.now run.state) run.events
  /-- The one or the other is told once. -/
  heard : run.events.filter isOfSign = (h.listening run.state).told.map (·.2)
  /-- A failure is told once, and nothing else looks like one. -/
  failure : run.events.filter isFailure = failure.toList.map readerFailed
  /-- The series holds the last of all samples that were recorded. -/
  series : run.series.toList = Series.lastOf s.telemetry.maxSamples record.samples
  length : run.series.length =
    (s.telemetry.maxSamples.map (min record.samples.length)).getD record.samples.length
  /-- Without a file there is nothing else to be done. -/
  plain : s.telemetry.exportCsv = none →
    run.error = none ∧ run.files = files ∧ [finished run.series] <:+ run.events
  /-- A file that can be created and filled has one line for each sample of the series. -/
  exported : ∀ path files', s.telemetry.exportCsv = some path →
    files.write path (csvText run.series.toList).toUTF8 = .ok files' →
      run.error = none ∧ run.files = files' ∧
        [LineClient.exported run.series.length path, finished run.series] <:+ run.events ∧
        ∃ content rows, files'.read? (Path.ofText path) = some content ∧
          splitLines content.data.toList = (utf8Bytes "elapsed_secs,value" :: rows, []) ∧
          rows.length = run.series.length ∧
          rows = run.series.toList.map fun x =>
            utf8Bytes (csvFields (run.series.toList.headD x).time x)
  /-- Only a file that cannot be created makes telemetry fail, -/
  uncreated : ∀ path cause, s.telemetry.exportCsv = some path →
    files.write path (csvText run.series.toList).toUTF8 = .error (.uncreated cause) →
      run.error = some (.uncreated path cause) ∧ run.files = files
  /-- or one that cannot be filled. It holds the first part of what was to be written. -/
  unfinished : ∀ path left cause, s.telemetry.exportCsv = some path →
    files.write path (csvText run.series.toList).toUTF8 = .error (.unfinished left cause) →
      run.error = some (.unfinished cause) ∧ run.files = left ∧
        ∃ room < (csvText run.series.toList).toUTF8.size,
          left.read? (Path.ofText path) = some ((csvText run.series.toList).toUTF8.extract 0 room)

section

variable {s : Settings} {files : FileTree} {record : Record}
  {closing : List (Duration × Event)} {failure : Option ConnectionError} {state : σ}

/-- In the order of time no event is lost, and none is there twice. -/
theorem eventsUntil_perm (s : Settings) (record : Record) (closing : List (Duration × Event))
    (listening : Listening) (stop : Duration) : (eventsUntil s record closing listening stop).Perm
    (((reportLoop? s.telemetry.reportPeriod s.telemetry.maxSamples record.timedSamples
      stop).getD []).map (·.2) ++ (record.events ++ (closing ++ listening.told).map (·.2))) := by
  refine ((mergeByTime_perm.trans (mergeByTime_perm.append_left _)).map (·.2)).trans ?_
  rw [List.map_append, List.map_append, List.map_append, Record.map_timedEvents, List.map_append,
    List.append_assoc]

/-- What the program as a whole tells comes from the end of the reader and from the listener, and
from nobody else. Of one event no order is left open. -/
theorem filter_eventsUntil {p : Event → Bool} {told : List Event}
    (hp : ∀ e, p e = true → e.source = .program) (hperiod : s.telemetry.reportPeriod ≠ .zero)
    (hrecord : Unofficial record.actions) {listening : Listening}
    (htold : ((closing ++ listening.told).map (·.2)).filter p = told) (hlength : told.length ≤ 1)
    (stop : Duration) : (eventsUntil s record closing listening stop).filter p = told := by
  have hnone {events : List Event} (hevents : ∀ e ∈ events, e.source ≠ .program) :
      events.filter p = [] := by
    rw [List.filter_eq_nil_iff]
    exact fun e he hpe => hevents e he (hp e hpe)
  have hreports : ∀ e ∈ ((reportLoop? s.telemetry.reportPeriod s.telemetry.maxSamples
      record.timedSamples stop).getD []).map (·.2), e.source ≠ .program := by
    rw [reportLoop?_eq hperiod, Option.getD_some, List.map_map]
    intro e he
    obtain ⟨k, -, rfl⟩ := List.mem_map.mp he
    rw [Function.comp_apply, TelemetryRun.source_reportEvent]
    exact Source.noConfusion
  have hevents : ∀ e ∈ record.events, e.source ≠ .program := by
    rw [Record.events_eq]
    exact hrecord
  have hfilter := (eventsUntil_perm s record closing listening stop).filter p
  rw [List.filter_append, List.filter_append, hnone hreports, hnone hevents, htold,
    List.nil_append, List.nil_append] at hfilter
  match told, hlength with
  | [], _ => exact List.perm_nil.mp hfilter
  | [e], _ => exact List.perm_singleton.mp hfilter

theorem toldUntil_eventsUntil (hperiod : s.telemetry.reportPeriod ≠ .zero) (listening : Listening)
    (stop : Duration) (tail : List Event) :
    ToldUntil s record stop (eventsUntil s record closing listening stop ++ tail) := by
  have htold := reportLoop?_eq hperiod s.telemetry.maxSamples record.timedSamples stop
  refine ⟨_, htold, ?_, ?_⟩
  · rw [List.map_map]
    rfl
  · rw [eventsUntil, htold, Option.getD_some]
    exact (sublist_mergeByTime.map (·.2)).trans (List.sublist_append_left _ _)

/-- The number of samples that are left, if room for none at all is ruled out. -/
theorem length_series (hlimit : s.telemetry.maxSamples ≠ some 0) :
    (record.series s.telemetry.maxSamples).length =
      (s.telemetry.maxSamples.map (min record.samples.length)).getD record.samples.length := by
  have hlength := (Series.length_after s.telemetry.maxSamples record.samples).trans
    (Series.length_lastOf s.telemetry.maxSamples record.samples)
  refine hlength.trans ?_
  cases hcap : s.telemetry.maxSamples with
  | none => rfl
  | some n =>
    have hn : max n 1 = n := by
      have hne : n ≠ 0 := fun h => hlimit (by rw [hcap, h])
      omega
    rw [Option.map_some, Option.map_some, hn]

/-- What is read from the file of a series: the names of the columns, and a row for each sample. -/
theorem rows_of_csvText (series : Series) :
    ∃ rows, splitLines (csvText series.toList).toUTF8.data.toList =
        (utf8Bytes "elapsed_secs,value" :: rows, []) ∧ rows.length = series.length ∧
      rows = series.toList.map fun x => utf8Bytes (csvFields (series.toList.headD x).time x) := by
  refine ⟨_, ?_, ?_, rfl⟩
  · rw [← utf8Bytes, splitLines_csvText, csvLines, List.map_cons, List.map_map]
    rfl
  · rw [List.length_map, Series.toList, List.length_reverse]
    rfl

/-- What there is at the end, whether something is exported or not. -/
theorem finishTelemetry_parts : ∃ tail, tail.filter TelemetryRun.isFailure = [] ∧
    tail.filter TelemetryRun.isOfSign = [] ∧
    (finishTelemetry h s files record closing state).events =
      telemetryEvents h s record closing state ++ tail ∧
    (finishTelemetry h s files record closing state).series =
      record.series s.telemetry.maxSamples := by
  unfold finishTelemetry
  cases s.telemetry.exportCsv with
  | none => exact ⟨_, rfl, rfl, rfl, rfl⟩
  | some path =>
    simp only [FileTree.exportSamples_eq]
    cases files.write path (csvText (record.series s.telemetry.maxSamples).toList).toUTF8 with
    | ok files' => exact ⟨_, rfl, rfl, rfl, rfl⟩
    | error e => cases e <;> exact ⟨[], rfl, rfl, (List.append_nil _).symm, rfl⟩

theorem finishTelemetry_state : (finishTelemetry h s files record closing state).state = state := by
  unfold finishTelemetry
  cases s.telemetry.exportCsv with
  | none => rfl
  | some path =>
    dsimp only
    split <;> rfl

theorem finishTelemetry_plain (hcsv : s.telemetry.exportCsv = none) :
    let run := finishTelemetry h s files record closing state
    run.error = none ∧ run.files = files ∧ [TelemetryRun.finished run.series] <:+ run.events := by
  simp only [finishTelemetry, hcsv, true_and]
  exact List.suffix_append _ _

section

variable {path : String} (hcsv : s.telemetry.exportCsv = some path)
include hcsv

theorem finishTelemetry_exported {files' : FileTree}
    (hwrite : files.write path
      (csvText (record.series s.telemetry.maxSamples).toList).toUTF8 = .ok files') :
    let run := finishTelemetry h s files record closing state
    run.error = none ∧ run.files = files' ∧
      [exported run.series.length path, TelemetryRun.finished run.series] <:+ run.events := by
  have hlength : (record.series s.telemetry.maxSamples).toList.length =
      (record.series s.telemetry.maxSamples).length := List.length_reverse
  simp only [finishTelemetry, hcsv, FileTree.exportSamples_eq, hwrite, Except.map, hlength,
    true_and]
  exact List.suffix_append _ _

theorem finishTelemetry_uncreated {cause : FileError}
    (hwrite : files.write path (csvText (record.series s.telemetry.maxSamples).toList).toUTF8 =
      .error (.uncreated cause)) :
    let run := finishTelemetry h s files record closing state
    run.error = some (.uncreated path cause) ∧ run.files = files := by
  simp only [finishTelemetry, hcsv, FileTree.exportSamples_eq, hwrite, Except.map, true_and]

theorem finishTelemetry_unfinished {left : FileTree} {cause : FileError}
    (hwrite : files.write path (csvText (record.series s.telemetry.maxSamples).toList).toUTF8 =
      .error (.unfinished left cause)) :
    let run := finishTelemetry h s files record closing state
    run.error = some (.unfinished cause) ∧ run.files = left := by
  simp only [finishTelemetry, hcsv, FileTree.exportSamples_eq, hwrite, Except.map, true_and]

end

section

variable (hperiod : s.telemetry.reportPeriod ≠ .zero) (hrecord : Unofficial record.actions)
  (hclosing : closing.map (·.2) = failure.toList.map TelemetryRun.readerFailed)
include hperiod hrecord hclosing

/-- A failure of the reader is told once. -/
theorem filter_isFailure : (telemetryEvents h s record closing state).filter
    TelemetryRun.isFailure = failure.toList.map TelemetryRun.readerFailed := by
  have hprogram (e : Event) (he : TelemetryRun.isFailure e = true) : e.source = .program :=
    (of_decide_eq_true he).1
  refine filter_eventsUntil hprogram hperiod hrecord ?_ (by cases failure <;> simp) _
  rw [List.map_append, hclosing]
  cases failure <;> cases h.listening state <;> rfl

/-- What has become of listening for the sign is told once. -/
theorem filter_isOfSign : (telemetryEvents h s record closing state).filter
    TelemetryRun.isOfSign = (h.listening state).told.map (·.2) := by
  have hprogram (e : Event) (he : TelemetryRun.isOfSign e = true) : e.source = .program :=
    (of_decide_eq_true he).1
  have hlength : ((h.listening state).told.map (·.2)).length ≤ 1 := by
    cases h.listening state <;> simp [Listening.told]
  refine filter_eventsUntil hprogram hperiod hrecord ?_ hlength _
  rw [List.map_append, hclosing]
  cases failure <;> cases h.listening state <;> rfl

end

variable (hperiod : s.telemetry.reportPeriod ≠ .zero) (hlimit : s.telemetry.maxSamples ≠ some 0)
  (hrecord : Unofficial record.actions)
  (hclosing : closing.map (·.2) = failure.toList.map TelemetryRun.readerFailed)
include hperiod hlimit hrecord hclosing

/-- **When listening is over telemetry ends in good order**, whatever has become of the reader. -/
theorem finishTelemetry_complete (hover : h.listening state ≠ .waiting)
    (hstopped : failure = none → h.Signed state) :
    TelemetryRun.Complete h s files record failure
      (finishTelemetry h s files record closing state) := by
  obtain ⟨tail, hfailure, hsign, hevents, hseries⟩ : ∃ tail : List Event, _ ∧ _ ∧
    (finishTelemetry h s files record closing state).events = _ ∧ _ := finishTelemetry_parts
  have hstate : (finishTelemetry h s files record closing state).state = state :=
    finishTelemetry_state
  refine
    { signed := fun hlistens => ?_
      unheard := fun time cause hfailed => ?_
      heard := ?_
      failure := ?_
      series := by rw [hseries]; exact Series.toList_after _ _
      length := by rw [hseries]; exact length_series hlimit
      plain := finishTelemetry_plain
      exported := fun path files' hcsv hwrite => ?_
      uncreated := fun path cause hcsv hwrite => ?_
      unfinished := fun path left cause hcsv hwrite => ?_ }
  · rw [hstate] at hlistens ⊢
    obtain ⟨stop, hstop⟩ : ∃ stop, h.listening state = .signed stop := by
      cases hlistening : h.listening state with
      | waiting => exact absurd hlistening hover
      | signed stop => exact ⟨stop, rfl⟩
      | failed time cause => exact absurd hlistening (hlistens time cause)
    refine ⟨stop, hstop, ?_⟩
    rw [hevents, telemetryEvents, hstop]
    exact toldUntil_eventsUntil hperiod _ stop tail
  · rw [hstate] at hfailed ⊢
    refine ⟨Option.ne_none_iff_exists'.mp fun hnone => ?_, ?_⟩
    · obtain ⟨stop, hstop⟩ := Host.signed_iff.mp (hstopped hnone)
      cases hfailed.symm.trans hstop
    · rw [hevents, telemetryEvents, hfailed]
      exact toldUntil_eventsUntil hperiod _ _ tail
  · rw [hevents, hstate, List.filter_append, hsign, List.append_nil]
    exact filter_isOfSign hperiod hrecord hclosing
  · rw [hevents, List.filter_append, hfailure, List.append_nil]
    exact filter_isFailure hperiod hrecord hclosing
  · rw [hseries] at hwrite
    have hread := FileTree.read?_of_write hwrite
    obtain ⟨rows, hrows⟩ := rows_of_csvText (record.series s.telemetry.maxSamples)
    obtain ⟨herror, hfiles, hsuffix⟩ := finishTelemetry_exported hcsv hwrite
    refine ⟨herror, hfiles, hsuffix, _, rows, hread, ?_⟩
    rw [hseries]
    exact hrows
  · rw [hseries] at hwrite
    exact finishTelemetry_uncreated hcsv hwrite
  · rw [hseries] at hwrite ⊢
    obtain ⟨herror, hfiles⟩ := finishTelemetry_unfinished hcsv hwrite
    exact ⟨herror, hfiles, FileTree.read?_of_unfinished hwrite⟩

end

/-- How the reader has ended, if it has failed or was stopped. -/
def SessionEnd.ofFailure : Option ConnectionError → SessionEnd
  | none => .stopped
  | some e => .failed e

theorem SessionEnd.eq_some_of_ofFailure {failure : Option ConnectionError} {e : ConnectionError}
    (h : ofFailure failure = .failed e) : failure = some e := by
  cases failure with
  | none => cases h
  | some e' =>
    cases h
    rfl

section

variable {s : Settings} (hsignals : h.Signals) (hfault : s.fault? = none)
  (hsize : s.recvBufferSize ≤ largestBuffer)
include hsignals hfault hsize

end

/-- The host on which nobody can listen for the sign to stop, so that it never comes. -/
def Host.unheard (h : Host σ) (cause : IoError) : Host σ :=
  { h.unstopped with
    listening := fun _ => .failed .zero cause
    awaitStop := id }

theorem Host.unheard_signals (h : Host σ) (cause : IoError) : (h.unheard cause).Signals := by
  have hremembers (s s' : σ) : (h.unheard cause).Remembers s s' := fun _ htime => nomatch htime
  exact
    { keeps :=
        { connect := fun _ _ _ => hremembers _ _
          write := fun _ _ _ => hremembers _ _
          read := fun _ _ _ => hremembers _ _
          close := fun _ => hremembers _ _
          pause := fun _ _ => hremembers _ _
          stops := fun _ _ => hremembers _ _
          stopsWriting := fun _ _ => hremembers _ _
          awaitStop := fun _ => hremembers _ _
          observe := fun _ _ => hremembers _ _ }
      stops := fun _ _ hstop => nomatch hstop
      stopsWriting := fun _ _ hstop => nomatch hstop }

end LineClient
