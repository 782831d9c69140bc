import LineClient.Proofs.Link.Backdrop
import LineClient.Proofs.Link.Whole
import LineClient.Proofs.Series.Rows
import LineClient.Proofs.Series.Window
import LineClient.Proofs.Telemetry.Keeps
import LineClient.Proofs.Telemetry.Ways
import LineClient.Series.Report
import LineClient.Telemetry.Mode

/-!
# The times of the samples

On a host whose clock does not go back and whose pauses are not cut short, the samples of a reader
come in the order of time, and two of them on one connection are at least the interval of the
reader apart. So no difference of times is ever cut off at zero, whatever part of the series is
left of it and whenever it is looked at.

* `TimelyRound`, the samples of one round; `Session.poll_timely`, `Supervision.step_timely`;
* `Timely`, the samples of a run; `Timely.round`, one round and then more of them;
* `SnapshotTimes`, what is true of the times in a part of the series;
* **`Supervision.run_timely`**.
-/

namespace LineClient

open Client

/-! ## One round -/

/-- The samples that actions record. -/
def samplesIn (as : List Action) : List Sample := as.filterMap Action.sample?

@[simp] theorem samplesIn_append (as as' : List Action) :
    samplesIn (as ++ as') = samplesIn as ++ samplesIn as' := List.filterMap_append

@[simp] theorem samplesIn_farewell (failure : Option IoError) :
    samplesIn (farewell failure) = [] := by
  cases failure <;> rfl

/-- The reader is polling. -/
def Supervision.Polls : Supervision → Prop
  | .running _ (.polling _) => True
  | _ => False

/-- What a round that lasts from `start` to `stop` records: nothing, or one sample on the connection
that there is. If the reader goes on polling, the pause after the sample is over. -/
inductive TimelyRound (interval start stop : Duration) (state state' : Supervision) :
    List Action → Prop
  | idle {as : List Action} (hopened : .opened ∉ as) (hsamples : samplesIn as = [])
    (hpolls : state'.Polls → state.Polls) : TimelyRound interval start stop state state' as
  | opened {as : List Action} (hopened : .opened ∉ as) (hsamples : samplesIn as = []) :
    TimelyRound interval start stop state state' (.opened :: as)
  | sample {as : List Action} (x : Sample) (hpolls : state.Polls) (hopened : .opened ∉ as)
    (hsamples : samplesIn as = [x]) (hstart : start.nanos ≤ x.time.nanos)
    (hstop : x.time.nanos ≤ stop.nanos)
    (hnext : state'.Polls → (x.time.after interval).nanos ≤ stop.nanos) :
    TimelyRound interval start stop state state' as

variable {σ : Type} (r : Reader) {h : Host σ}

theorem BannerWay.idle {settings : LinkSettings} {banner : Option String} {as : List Action}
    (hway : BannerWay settings banner as) : .opened ∉ as ∧ samplesIn as = [] := by
  cases hway with
  | ended failure => cases failure <;> exact ⟨by simp, rfl⟩
  | _ => exact ⟨by simp, rfl⟩

theorem idle_greeting (banner : Option String) :
    .opened ∉ Reader.greeting banner ∧ samplesIn (Reader.greeting banner) = [] := by
  cases banner <;> exact ⟨by simp [Reader.greeting], rfl⟩

section

variable {r} {start stop : Duration} {attempt : Nat}

theorem StartWay.timely {session : Session} {as : List Action} (hway : StartWay r session as) :
    TimelyRound r.interval start stop (.running attempt .opening) (.running attempt session)
      as := by
  cases hway with
  | stopped => exact .idle (by simp) rfl False.elim
  | refused cause => exact .idle (by simp) rfl False.elim
  | aborted hsize => exact .opened (by simp) rfl
  | @polling hsize banner as hbanner =>
    obtain ⟨hopened, hsamples⟩ := hbanner.idle
    obtain ⟨hopened', hsamples'⟩ := idle_greeting banner
    refine .opened (by simp [hopened, hopened']) ?_
    change samplesIn (as ++ (Reader.greeting banner ++ [.logged r.begins])) = []
    rw [samplesIn_append, samplesIn_append, hsamples, hsamples']
    rfl

theorem RecoverWay.timely {roundTrips : Nat} {e : ConnectionError} {state : Supervision}
    {as : List Action} (hway : RecoverWay r attempt e roundTrips state as) :
    TimelyRound r.interval start stop (.running attempt (.over (.failed e) roundTrips)) state
      as := by
  cases hway <;> exact .idle (by simp) rfl False.elim

end

/-- What is recorded of a reply is at most one sample, with the time at which it is recorded. -/
theorem Session.record_timely (response : String) (s : σ) :
    (record r h response).Reaches s fun _ as _ => .opened ∉ as ∧
      (samplesIn as = [] ∨ ∃ x, samplesIn as = [x] ∧ x.time = h.now s) := by
  rw [record]
  cases reading? response r.key with
  | none =>
    rw [Client.reaches_log]
    exact ⟨by simp, .inl rfl⟩
  | some value =>
    rw [Client.reaches_bind, Client.reaches_perform, Client.reaches_act]
    exact ⟨by simp, .inr ⟨⟨h.now s, value⟩, rfl, rfl⟩⟩

variable (hpunctual : h.Punctual)
include hpunctual

/-- **A poll records at most one sample**, and the pause after it is as long as the interval. -/
theorem Session.poll_timely (attempt roundTrips : Nat) (s : σ) :
    (poll r h roundTrips).Reaches s fun session as s' =>
      TimelyRound r.interval (h.now s) (h.now s') (.running attempt (.polling roundTrips))
        (.running attempt session) as := by
  -- a poll that has no reply records nothing
  have hclose {before : List Action} {result : SessionEnd} (s₁ : σ)
      (hopened : .opened ∉ before) (hsamples : samplesIn before = []) :
      (closeLink h >>= fun _ => (pure (.over result roundTrips) : Client σ Session)).Reaches s₁
        fun session as s' => TimelyRound r.interval (h.now s) (h.now s')
          (.running attempt (.polling roundTrips)) (.running attempt session) (before ++ as) := by
    refine (closeLink_reaches h s₁).bind fun _ as s' has => ?_
    rw [Client.reaches_pure, List.append_nil, has]
    refine .idle (by simp [hopened, farewell]) ?_ False.elim
    rw [samplesIn_append, hsamples, samplesIn_farewell]
    rfl
  have hdrop {before : List Action} {result : SessionEnd} (s₁ : σ)
      (hopened : .opened ∉ before) (hsamples : samplesIn before = []) :
      (dropLink h >>= fun _ => (pure (.over result roundTrips) : Client σ Session)).Reaches s₁
        fun session as s' => TimelyRound r.interval (h.now s) (h.now s')
          (.running attempt (.polling roundTrips)) (.running attempt session) (before ++ as) := by
    refine (dropLink_reaches h s₁).bind ?_
    rintro _ _ s' ⟨rfl, -⟩
    rw [Client.reaches_pure, List.append_nil]
    refine .idle (by simp [hopened]) ?_ False.elim
    rw [samplesIn_append, hsamples]
    rfl
  have hasked := (requestUnlessStopped_reaches h r.link s r.command).and
    ((requestUnlessStopped_keeps hpunctual.keeps r.link r.command).reaches s)
  rw [poll]
  refine hasked.bind ?_
  rintro o as s₁ ⟨ho, hlater₁⟩
  cases ho with
  | stoppedWriting count hcount => exact hclose s₁ (by simp) rfl
  | cut count hcount cause => exact hdrop s₁ (by simp) rfl
  | stoppedReading => exact hclose s₁ (by simp) rfl
  | ended failure => exact hdrop s₁ (by simp) (by cases failure <;> rfl)
  | silence => exact hdrop s₁ (by simp) rfl
  | replied c =>
    have hrecorded := (record_timely r (decodeLossy c.bytes) s₁).and
      ((record_keeps r hpunctual.keeps (decodeLossy c.bytes)).reaches s₁)
    refine hrecorded.bind ?_
    rintro _ as s₂ ⟨⟨hopened, hsamples⟩, hlater₂⟩
    -- the rest of the round comes after the sample and records nothing
    have hround {session : Session} {rest : List Action} {s' : σ} (hopened' : .opened ∉ rest)
        (hrest : samplesIn rest = []) (hlater' : h.Later s₂ s')
        (hnext : Supervision.Polls (.running attempt session) →
          ((h.now s₂).after r.interval).nanos ≤ (h.now s').nanos) :
        TimelyRound r.interval (h.now s) (h.now s') (.running attempt (.polling roundTrips))
          (.running attempt session) ([.sent r.command, .received c.bytes] ++ (as ++ rest)) := by
      have hall : .opened ∉ [.sent r.command, .received c.bytes] ++ (as ++ rest) := by
        simp [hopened, hopened']
      have hsame : samplesIn ([.sent r.command, .received c.bytes] ++ (as ++ rest)) =
          samplesIn as := by
        rw [samplesIn_append, samplesIn_append, hrest, List.append_nil]
        rfl
      rcases hsamples with hnone | ⟨x, hx, htime⟩
      · exact .idle hall (hsame.trans hnone) fun _ => trivial
      · refine .sample x trivial hall (hsame.trans hx) ?_ ?_ fun hpolls => ?_
        · rw [htime]
          exact hlater₁
        · rw [htime]
          exact Nat.le_trans hlater₂ hlater'
        · rw [htime]
          exact Nat.le_trans (Nat.add_le_add_right hlater₂ _) (hnext hpolls)
    rw [Client.reaches_bind, Client.reaches_perform]
    have hlater₃ : h.Later s₂ (h.stops (.pause r.interval) s₂).2 :=
      hpunctual.keeps.stops _ s₂
    split_ifs
    · have hclosed := (closeLink_reaches h (h.stops (.pause r.interval) s₂).2).and
        ((closeLink_keeps hpunctual.keeps).reaches _)
      refine hclosed.bind ?_
      rintro _ as' s' ⟨has', hlater'⟩
      rw [Client.reaches_pure, List.append_nil, has']
      exact hround (by simp [farewell]) (samplesIn_farewell _)
        (trans_of h.Later hlater₃ hlater') False.elim
    · rw [Client.reaches_bind, Client.reaches_pause, Client.reaches_pure, List.append_nil]
      have hlater' := keeps_pause hpunctual.keeps r.interval (h.stops (.pause r.interval) s₂).2
      refine hround (by simp) rfl (trans_of h.Later hlater₃ hlater') fun _ => ?_
      have hpause := hpunctual.pause r.interval (h.stops (.pause r.interval) s₂).2
      have hnote := hpunctual.keeps.observe (.waited r.interval)
        (h.pause r.interval (h.stops (.pause r.interval) s₂).2)
      exact Nat.le_trans (Nat.add_le_add_right hlater₃ _) (Nat.le_trans hpause hnote)

/-- **One round of supervised telemetry records at most one sample**, and only while it polls. -/
theorem Supervision.step_timely (state : Supervision) (s : σ) :
    (state.step r h).Reaches s fun state' as s' =>
      TimelyRound r.interval (h.now s) (h.now s') state state' as := by
  match state with
  | .over result => exact .idle List.not_mem_nil rfl id
  | .running attempt .opening =>
    refine (reaches_map _ _).mpr ((Session.start_reaches r h s).mono fun _ _ _ hway => ?_)
    exact hway.timely
  | .running attempt (.polling roundTrips) =>
    exact (reaches_map _ _).mpr (Session.poll_timely r hpunctual attempt roundTrips s)
  | .running attempt (.over .stopped roundTrips) => exact .idle List.not_mem_nil rfl False.elim
  | .running attempt (.over .aborted roundTrips) => exact .idle List.not_mem_nil rfl False.elim
  | .running attempt (.over (.failed e) roundTrips) =>
    exact (recover_reaches r h s attempt e roundTrips).mono fun _ _ _ hway => hway.timely

omit hpunctual

/-! ## All rounds -/

/-- The second sample is recorded when the interval after the first is over, or later. -/
def Apart (interval : Duration) (x y : Sample) : Prop :=
  (x.time.after interval).nanos ≤ y.time.nanos

/-- The samples that a run records from `start` on. At the beginning there may be a connection that
the reader polls on. -/
structure Timely (interval start : Duration) (polls : Prop) (as : List Action) : Prop where
  start_le : ∀ x ∈ samplesIn as, start.nanos ≤ x.time.nanos
  sorted : (samplesIn as).Pairwise fun x y => x.time.nanos ≤ y.time.nanos
  present : (samplesIn (conversations as).1).Pairwise (Apart interval)
  others : ∀ c ∈ (conversations as).2, (samplesIn c).Pairwise (Apart interval)
  silent : ¬ polls → samplesIn (conversations as).1 = []

variable {interval start stop : Duration} {state state' : Supervision} {as as' : List Action}

theorem Timely.nil (polls : Prop) : Timely interval start polls [] where
  start_le := by simp [samplesIn]
  sorted := List.Pairwise.nil
  present := List.Pairwise.nil
  others := by simp [conversations]
  silent _ := rfl

/-- **One round, and then more of them.** -/
theorem Timely.round (hle : start.nanos ≤ stop.nanos)
    (hround : TimelyRound interval start stop state state' as)
    (hrest : Timely interval stop state'.Polls as') :
    Timely interval start state.Polls (as ++ as') := by
  have hlater : ∀ y ∈ samplesIn as', start.nanos ≤ y.time.nanos := fun y hy =>
    Nat.le_trans hle (hrest.start_le y hy)
  cases hround with
  | idle hopened hsamples hpolls =>
    have hall : samplesIn (as ++ as') = samplesIn as' := by
      rw [samplesIn_append, hsamples, List.nil_append]
    have hpresent : samplesIn (as ++ (conversations as').1) = samplesIn (conversations as').1 := by
      rw [samplesIn_append, hsamples, List.nil_append]
    constructor
    case start_le => exact hall ▸ hlater
    case sorted => exact hall ▸ hrest.sorted
    all_goals rw [conversations_append_unopened hopened]
    case present => exact hpresent ▸ hrest.present
    case others => exact hrest.others
    case silent => exact fun hnot => hpresent ▸ hrest.silent fun h => hnot (hpolls h)
  | @opened as hopened hsamples =>
    have hall : samplesIn (.opened :: as ++ as') = samplesIn as' := by
      change samplesIn (as ++ as') = _
      rw [samplesIn_append, hsamples, List.nil_append]
    have hpresent : samplesIn (as ++ (conversations as').1) = samplesIn (conversations as').1 := by
      rw [samplesIn_append, hsamples, List.nil_append]
    constructor
    case start_le => exact hall ▸ hlater
    case sorted => exact hall ▸ hrest.sorted
    all_goals rw [List.cons_append, conversations_opened, conversations_append_unopened hopened]
    case present => exact List.Pairwise.nil
    case others =>
      intro c hc
      rcases List.mem_cons.mp hc with rfl | hc
      · exact hpresent ▸ hrest.present
      · exact hrest.others c hc
    case silent => exact fun _ => rfl
  | sample x hpolls hopened hsamples hstart hstop hnext =>
    have hall : samplesIn (as ++ as') = x :: samplesIn as' := by
      rw [samplesIn_append, hsamples, List.singleton_append]
    have hpresent : samplesIn (as ++ (conversations as').1) =
        x :: samplesIn (conversations as').1 := by
      rw [samplesIn_append, hsamples, List.singleton_append]
    constructor
    case start_le =>
      rw [hall]
      exact List.forall_mem_cons.mpr ⟨hstart, hlater⟩
    case sorted =>
      rw [hall]
      refine List.pairwise_cons.mpr ⟨fun y hy => ?_, hrest.sorted⟩
      exact Nat.le_trans hstop (hrest.start_le y hy)
    all_goals rw [conversations_append_unopened hopened]
    case present =>
      rw [hpresent]
      refine List.pairwise_cons.mpr ⟨fun y hy => ?_, hrest.present⟩
      by_cases hpolls' : state'.Polls
      · have hmem : y ∈ samplesIn as' :=
          ((conversations_fst_isPrefix as').filterMap _).subset hy
        exact Nat.le_trans (hnext hpolls') (hrest.start_le y hmem)
      · rw [hrest.silent hpolls'] at hy
        exact absurd hy List.not_mem_nil
    case others => exact hrest.others
    case silent => exact fun hnot => absurd hpolls hnot

/-- **Any number of rounds**, by induction from the first of them. -/
theorem Supervision.run_keeps_time (hpunctual : h.Punctual) (rounds : Nat) (state : Supervision)
    (s : σ) : (run r h rounds state).Reaches s fun _ as _ =>
      Timely r.interval (h.now s) state.Polls as := by
  induction rounds generalizing state s with
  | zero => exact Timely.nil _
  | succ rounds ih =>
    rw [run_succ]
    have hstep := (step_timely r hpunctual state s).and
      ((step_keeps r hpunctual.keeps state).reaches s)
    refine hstep.bind fun state' as s' ⟨hround, hlater⟩ => ?_
    exact (ih state' s').mono fun _ as' _ hrest => hrest.round hlater hround

/-! ## Snapshots -/

/-- What is true of the times in a snapshot of the series, which may have lost its first samples:
no difference from the first sample that is left is cut off at zero. -/
structure SnapshotTimes (samples : List Sample) : Prop where
  sorted : samples.Pairwise fun x y => x.time.nanos ≤ y.time.nanos
  /-- The span of a report is the time from the first sample to the last. -/
  span : ∀ report, Report.ofSamples? samples = some report → ∃ first last,
    samples.head? = some first ∧ samples.getLast? = some last ∧
      (report.span.nanos : Int) = last.time.nanos - first.time.nanos
  /-- The first field of a row is the time from the first sample, in seconds with three places. -/
  rows : ∀ first, samples.head? = some first → ∃ elapsed : Sample → Duration,
    (∀ x ∈ samples, ((elapsed x).nanos : Int) = x.time.nanos - first.time.nanos) ∧
      splitLines (utf8Bytes (csvText samples)) = (("elapsed_secs,value" ::
        samples.map fun x =>
          (elapsed x).seconds.fixed 3 ++ "," ++ x.value.shortest).map utf8Bytes, [])

theorem SnapshotTimes.of_sorted {samples : List Sample}
    (hsorted : samples.Pairwise fun x y => x.time.nanos ≤ y.time.nanos) :
    SnapshotTimes samples := by
  have hsince {first x : Sample} (hfirst : samples.head? = some first) (hx : x ∈ samples) :
      ((x.time.since first.time).nanos : Int) = x.time.nanos - first.time.nanos := by
    obtain ⟨rest, rfl⟩ := List.head?_eq_some_iff.mp hfirst
    have hle : first.time.nanos ≤ x.time.nanos := by
      rcases List.mem_cons.mp hx with rfl | hx
      · exact Nat.le_refl _
      · exact (List.pairwise_cons.mp hsorted).1 x hx
    simp only [Duration.since]
    omega
  refine ⟨hsorted, fun report hreport => ?_, fun first hfirst => ?_⟩
  · cases hfirst : samples.head? with
    | none => simp [Report.ofSamples?, hfirst] at hreport
    | some first =>
      cases hlast : samples.getLast? with
      | none => simp [Report.ofSamples?, hlast] at hreport
      | some last =>
        rw [Report.ofSamples?, hfirst, hlast, Option.some.injEq] at hreport
        refine ⟨first, last, rfl, rfl, ?_⟩
        rw [← hreport]
        exact hsince hfirst (List.mem_of_getLast? hlast)
  · refine ⟨fun x => x.time.since first.time, fun x hx => hsince hfirst hx, ?_⟩
    obtain ⟨rest, rfl⟩ := List.head?_eq_some_iff.mp hfirst
    rw [splitLines_csvText]
    rfl

/-- **The samples of a reader come in the order of time**, whenever the series is looked at and
however many samples it keeps, and on one connection they are at least the interval apart. -/
theorem Supervision.run_timely (hpunctual : h.Punctual) (rounds : Nat) (s : σ) :
    let record := ((run r h rounds begin).run s).2.1
    (∀ part : Record, part <+: record → ∀ limit, SnapshotTimes (part.series limit).toList) ∧
      samplesIn (conversations record.actions).1 = [] ∧
      ∀ c ∈ (conversations record.actions).2, (samplesIn c).Pairwise (Apart r.interval) := by
  intro record
  have htimely : Timely r.interval (h.now s) begin.Polls record.actions :=
    run_keeps_time r hpunctual rounds begin s
  refine ⟨fun part hpart limit => .of_sorted ?_, htimely.silent id, htimely.others⟩
  have hsamples : part.samples <+: samplesIn record.actions := by
    rw [samplesIn, ← Record.samples_eq]
    exact hpart.filterMap _
  rw [Record.series, Series.toList_foldl_append]
  exact (htimely.sorted.sublist hsamples.sublist).sublist (Series.lastOf_suffix limit _).sublist

/-- Two connections to a server that gives a reading, then none, then another one, and closes. With
room for two samples the first one is lost. -/
theorem Supervision.run_timely_twice :
    let reader := Reader.ofSettings { telemetry := { reconnectAttempts := 1 } }
    let script : Script :=
      { steps := [.reply (utf8Bytes "temp: 1"), .reply (utf8Bytes "busy"),
          .reply (utf8Bytes "temp: 2"), .close] }
    let s : Stage := { address := reader.address, reach := .scripts script [] }
    let record := ((run reader Stage.host 10 begin).run s).2.1
    Stage.host.Punctual ∧ record.samples.length = 4 ∧
      SnapshotTimes (record.series (some 2)).toList ∧
      (conversations record.actions).2.map (fun c => (samplesIn c).length) = [2, 2] ∧
      ∀ c ∈ (conversations record.actions).2, (samplesIn c).Pairwise (Apart reader.interval) := by
  intro reader script s record
  obtain ⟨hsnapshots, -, hconversations⟩ := run_timely reader Stage.host_punctual 10 s
  exact ⟨Stage.host_punctual, by decide +kernel, hsnapshots record List.prefix_rfl (some 2),
    by decide +kernel, hconversations⟩

end LineClient
