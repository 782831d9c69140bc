import LineClient.Proofs.Load.Summary
import LineClient.Proofs.Telemetry.Retry
import LineClient.Settings.Check
import LineClient.Telemetry.Mode

/-!
# Settings without a fault

Settings without a fault ask for nothing that cannot be done, as long as there can be a buffer of
the size wanted: the check sets no limit to that size. Then no worker, no reader and no reporter is
aborted, whatever the server does, and no counter outgrows the setting that limits it.

* `Settings.fault?_eq_none`, what a setting without a fault is like;
* `LoadRun.Sound`, a load in which no worker is aborted; `runLoad_sound`;
* `Session.Sound`, `Supervision.Sound`, a reader that is not aborted; `Supervision.run_sound`;
* `Settings.Sound`; **`Settings.sound_of_fault?`**; `Settings.fault?_allows_no_buffer`, why the size
  of the buffer is limited there.
-/

namespace LineClient

/-! ## The check -/

/-- **What settings without a fault are like.** -/
theorem Settings.fault?_eq_none {s : Settings} : s.fault? = none ↔
    s.recvBufferSize ≠ 0 ∧ s.telemetry.reportPeriodMs ≠ 0 ∧ s.telemetry.maxSamples ≠ some 0 ∧
      s.load.workers ≠ 0 ∧ s.load.minIterations ≤ s.load.maxIterations ∧ s.load.commands ≠ [] := by
  unfold fault?
  split_ifs <;> simp_all

/-! ## Workers -/

namespace Worker

variable {w : Worker}

theorem Accounted.planned_le {report : WorkerReport} {as : List Action}
    (haccounted : w.Accounted report as) : report.planned ≤ w.maxIterations := by
  by_cases hopened : .opened ∈ as
  · exact (haccounted.planned hopened).2
  · rw [(haccounted.nothing hopened).1]
    exact Nat.zero_le _

end Worker

/-! ## Loads -/

/-- No worker of a load was aborted, and no counter outgrows the settings. -/
structure LoadRun.Sound {σ : Type} (s : Settings) (run : LoadRun σ) : Prop where
  aborted : run.summary.aborted = 0
  reports : run.summary.reports.length = s.load.workers
  counters : ∀ report ∈ run.summary.reports, report.timeouts ≤ report.iterations ∧
    report.iterations ≤ report.planned ∧ report.planned ≤ s.load.maxIterations
  failed_le : run.summary.failed ≤ s.load.workers
  timeouts_le : run.summary.timeouts ≤ run.summary.commands
  commands_le : run.summary.commands ≤ s.load.workers * s.load.maxIterations

theorem runLoad_sound {σ : Type} (h : Host σ) {s : Settings}
    (hle : s.load.minIterations ≤ s.load.maxIterations) (hsize : s.recvBufferSize ≤ largestBuffer)
    (unseeded : Nat → ChaCha) (states : Nat → σ) :
    LoadRun.Sound s (runLoad h s unseeded states) := by
  let left (id : Nat) := (runWorker h s unseeded states id).report
  have hmay (id : Nat) (_ : id < s.load.workers) : (Worker.ofSettings s id).MayLeave (left id) :=
    Worker.mayLeave_of_run rfl
  have hleft (id : Nat) : left id ≠ none := fun hnone => by
    have hno := (Worker.run_eq_none (Worker.ofSettings s id) h _ hle _ (states id)).mp hnone
    exact absurd hsize (Nat.not_le.mpr hno.2)
  have hsummary : (runLoad h s unseeded states).summary =
      .collect ((List.range s.load.workers).map left) := by
    rw [runLoad, List.map_map]
    rfl
  have hcovers := LoadSummary.covers hmay (List.Perm.refl _)
  rw [← hsummary] at hcovers
  have haborted : (runLoad h s unseeded states).summary.aborted = 0 := by
    rw [hcovers.aborted, List.length_eq_zero_iff, List.filter_eq_nil_iff]
    exact fun id _ hnone => hleft id (Option.isNone_iff_eq_none.mp hnone)
  have hreports : (runLoad h s unseeded states).summary.reports.length = s.load.workers := by
    have hworkers := hcovers.workers
    rwa [LoadSummary.workers, haborted] at hworkers
  have hcounters : ∀ report ∈ (runLoad h s unseeded states).summary.reports,
      report.timeouts ≤ report.iterations ∧ report.iterations ≤ report.planned ∧
        report.planned ≤ s.load.maxIterations := by
    intro report hreport
    obtain ⟨id, hid, hresult⟩ := (hcovers.reports report).mp hreport
    obtain ⟨as, haccounted⟩ := (hmay id hid).accounted hresult
    exact ⟨haccounted.timeouts_le, haccounted.iterations_le, haccounted.planned_le⟩
  have hcommands : (runLoad h s unseeded states).summary.commands ≤
      s.load.workers * s.load.maxIterations := by
    rw [hcovers.commands, ← hreports]
    refine (List.sum_le_card_nsmul _ s.load.maxIterations fun n hn => ?_).trans_eq ?_
    · obtain ⟨report, hreport, rfl⟩ := List.mem_map.mp hn
      obtain ⟨-, hiterations, hplanned⟩ := hcounters report hreport
      exact Nat.le_trans hiterations hplanned
    · rw [List.length_map]
      rfl
  exact
    { aborted := haborted
      reports := hreports
      counters := hcounters
      failed_le := Nat.le_trans hcovers.failed_le (Nat.le_of_eq hcovers.workers)
      timeouts_le := hcovers.timeouts_le
      commands_le := hcommands }

/-! ## Readers -/

/-- After at most so many rounds the session is not aborted, and has had no more replies. -/
def Session.Sound (rounds : Nat) : Session → Prop
  | .opening => True
  | .polling roundTrips => roundTrips ≤ rounds
  | .over result roundTrips => result ≠ .aborted ∧ roundTrips ≤ rounds

/-- After at most so many rounds the reader is not aborted, and its counters are within their
limits. -/
def Supervision.Sound (r : Reader) (rounds : Nat) : Supervision → Prop
  | .running attempt session => attempt ≤ r.attempts ∧ session.Sound rounds
  | .over result => result ≠ .aborted

section

variable {r : Reader}

theorem Session.Sound.step {rounds : Nat} {session session' : Session} {as : List Action}
    (hsession : session.Sound rounds) (hsize : r.link.recvBufferSize ≤ largestBuffer)
    (hway : SessionWay r session session' as) : session'.Sound (rounds + 1) := by
  have hgoes {result : SessionEnd} {k : Nat} (hresult : result ≠ .aborted) (hk : k ≤ rounds + 1) :
      (Session.over result k).Sound (rounds + 1) := ⟨hresult, hk⟩
  cases hway with
  | start hway =>
    cases hway with
    | aborted hlarge => exact absurd hsize (Nat.not_le.mpr hlarge)
    | polling => exact Nat.zero_le _
    | stopped => exact hgoes (by simp) (Nat.zero_le _)
    | refused => exact hgoes (by simp) (Nat.zero_le _)
  | @poll roundTrips _ _ hway =>
    have hk : roundTrips ≤ rounds := hsession
    cases hway with
    | polled => exact Nat.succ_le_succ hk
    | stoppedPausing => exact hgoes (by simp) (Nat.succ_le_succ hk)
    | _ => exact hgoes (by simp) (Nat.le_succ_of_le hk)
  | «over» result roundTrips => exact hgoes hsession.1 (Nat.le_succ_of_le hsession.2)

theorem Supervision.Sound.step {rounds : Nat} {state state' : Supervision} {as : List Action}
    (hstate : state.Sound r rounds) (hsize : r.link.recvBufferSize ≤ largestBuffer)
    (hway : SupervisionWay r state state' as) : state'.Sound r (rounds + 1) := by
  cases hway with
  | round attempt hway => exact ⟨hstate.1, hstate.2.step hsize hway⟩
  | stopped => exact SessionEnd.noConfusion
  | aborted attempt roundTrips => exact absurd rfl hstate.2.1
  | «over» result => exact hstate
  | recover hway =>
    cases hway with
    | again hnext => exact ⟨nextAttempt?_lt hnext, trivial⟩
    | gaveUp => exact SessionEnd.noConfusion
    | stopped => exact SessionEnd.noConfusion

variable {σ : Type} (h : Host σ)

/-- **A reader that can have a buffer is not aborted**, and its counters stay within their
limits. -/
theorem Supervision.run_sound (hsize : r.link.recvBufferSize ≤ largestBuffer) (rounds : Nat)
    (s : σ) : (run r h rounds begin).Reaches s fun state _ _ => state.Sound r rounds := by
  induction rounds with
  | zero => exact ⟨Nat.zero_le _, trivial⟩
  | succ rounds ih =>
    rw [run_succ_last]
    refine ih.bind fun state as s' hstate => ?_
    exact (step_reaches r h s' state).mono fun _ _ _ hway => hstate.step hsize hway

end

/-! ## Telemetry as a whole -/

section

variable {σ : Type} (h : Host σ) {s : Settings}

theorem finishTelemetry_error (files : FileTree) (record : Record)
    (closing : List (Duration × Event)) (state : σ) (text : String) :
    (finishTelemetry h s files record closing state).error ≠ some (.aborted text) := by
  unfold finishTelemetry
  cases s.telemetry.exportCsv with
  | none => simp
  | some path =>
    dsimp only
    split <;> simp

theorem telemetryRun?_error (hsize : s.recvBufferSize ≤ largestBuffer) (files : FileTree)
    (rounds : Nat) (state : σ) :
    ∀ out ∈ telemetryRun? h s files rounds state, ∀ text,
      out.error ≠ some (.aborted text) := by
  intro out hout text
  have hsound := Supervision.run_sound (r := .ofSettings s) h hsize rounds state
  dsimp only [telemetryRun?] at hout
  unfold Client.Reaches at hsound
  generalize (Supervision.run (.ofSettings s) h rounds .begin).run state = ended at hout hsound
  obtain ⟨supervision, record, state⟩ := ended
  cases supervision with
  | running attempt session => cases hout
  | «over» result =>
    cases result with
    | aborted => exact absurd rfl hsound
    | stopped =>
      cases hout
      exact finishTelemetry_error h files record _ _ text
    | failed e =>
      dsimp only at hout
      split_ifs at hout
      · cases hout
      · cases hout
        exact finishTelemetry_error h files record _ _ text

end

/-! ## The result -/

/-- Nothing that the settings ask for is aborted, and no counter outgrows its limit. -/
structure Settings.Sound (s : Settings) : Prop where
  load : ∀ {σ : Type} (h : Host σ) (unseeded : Nat → ChaCha) (states : Nat → σ),
    LoadRun.Sound s (runLoad h s unseeded states)
  reader : ∀ {σ : Type} (h : Host σ) (rounds : Nat) (state : σ),
    (Supervision.run (.ofSettings s) h rounds .begin).Reaches state fun supervision _ _ =>
      supervision.Sound (.ofSettings s) rounds
  backoff : ∀ attempt, backoffFactor attempt < 2 ^ 32 ∧
    ((Reader.ofSettings s).backoffAfter attempt).nanos ≤ Duration.max.nanos
  reporter : ∀ (incoming : List (Duration × Sample)) (stop : Duration),
    reportLoop? s.telemetry.reportPeriod s.telemetry.maxSamples incoming stop ≠ none
  telemetry : ∀ {σ : Type} (h : Host σ) (files : FileTree) (rounds : Nat) (state : σ),
    ∀ run ∈ telemetryRun? h s files rounds state, ∀ text, run.error ≠ some (.aborted text)

theorem Settings.sound {s : Settings} (hfault : s.fault? = none)
    (hsize : s.recvBufferSize ≤ largestBuffer) : s.Sound := by
  obtain ⟨-, hperiod, -, -, hle, -⟩ := fault?_eq_none.mp hfault
  refine
    { load := fun h unseeded states => runLoad_sound h hle hsize unseeded states
      reader := fun h rounds state => Supervision.run_sound h hsize rounds state
      backoff := fun attempt => ⟨?_, Nat.min_le_right _ _⟩
      reporter := fun incoming stop => ?_
      telemetry := fun h files rounds state => telemetryRun?_error h hsize files rounds state }
  · have hfactor : backoffFactor attempt ≤ 2 ^ 32 - 1 := Nat.min_le_right _ _
    omega
  · have hzero : s.telemetry.reportPeriod ≠ .zero := by
      intro heq
      have hnanos : s.telemetry.reportPeriodMs * 10 ^ 6 = 0 := congrArg Duration.nanos heq
      omega
    rw [reportLoop?, dif_neg hzero]
    exact Option.some_ne_none _

/-- **Settings without a fault ask for nothing that is aborted**, wherever the server is, if there
can be a buffer of the size that they want. -/
theorem Settings.sound_of_fault? {s : Settings} (hfault : s.fault? = none)
    (hsize : s.recvBufferSize ≤ largestBuffer) (host : String) (port : Nat) :
    Sound { s with host, port } := by
  -- the check does not look at the address
  have hfault' : ({ s with host, port } : Settings).fault? = none := hfault
  exact sound hfault' hsize

/-- Settings at their limits: the largest buffer, the shortest period, as many attempts, pauses and
commands as there can be, and no choice of their number. -/
theorem Settings.sound_of_fault?_limits :
    let s : Settings :=
      { recvBufferSize := largestBuffer
        telemetry :=
          { reportPeriodMs := 1
            maxSamples := some 1
            reconnectAttempts := 2 ^ 32 - 1
            reconnectBackoffMs := 2 ^ 64 - 1 }
        load :=
          { workers := 1
            minIterations := 2 ^ 64 - 1
            maxIterations := 2 ^ 64 - 1
            commands := [""] } }
    s.fault? = none ∧ s.recvBufferSize ≤ largestBuffer ∧
      Sound { s with host := "localhost", port := 2 ^ 16 - 1 } := by
  intro s
  have hfault : s.fault? = none := by decide
  have hsize : s.recvBufferSize ≤ largestBuffer := Nat.le_refl _
  exact ⟨hfault, hsize, sound_of_fault? hfault hsize "localhost" (2 ^ 16 - 1)⟩

/-- The check sets no limit to the size of the buffer. A worker that can have no buffer is aborted,
and so is a reader. -/
theorem Settings.fault?_allows_no_buffer :
    let s : Settings :=
      { recvBufferSize := 2 ^ 63
        load :=
          { workers := 1
            minIterations := 1
            maxIterations := 1
            bannerGraceMs := 0
            commandDelayMs := 0
            seed := some 0
            commands := ["uptime"] } }
    s.fault? = none ∧
      (runLoad (Wire.host none) s (fun _ => .ofSeed 0) fun _ => {}).summary.aborted = 1 ∧
      ((Supervision.run (.ofSettings s) (Wire.host none) 2 .begin).run {}).1 = .over .aborted ∧
      ¬ s.Sound := by
  intro s
  have haborted :
      (runLoad (Wire.host none) s (fun _ => .ofSeed 0) fun _ => {}).summary.aborted = 1 := by
    decide +kernel
  refine ⟨by decide, haborted, by decide +kernel, fun hsound => ?_⟩
  have hnone := (hsound.load (Wire.host none) (fun _ => .ofSeed 0) fun _ => {}).aborted
  rw [haborted] at hnone
  exact Nat.one_ne_zero hnone

end LineClient
