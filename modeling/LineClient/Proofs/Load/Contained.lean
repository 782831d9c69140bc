import LineClient.Link.Dialogue
import LineClient.Proofs.Load.Schedule
import LineClient.Proofs.Load.Seeded
import LineClient.Proofs.Written

/-!
# Aborted workers

A worker that has a connection and whose bounds are inverted is aborted, before it writes anything.
This is nobody's concern but its own: the load goes on without it, and the other workers leave what
they leave alone.

* `Worker.AbortWay`, how a worker whose bounds are inverted ends; `Worker.run_eq_none_iff`, which
  workers are aborted;
* `LoadRun.Inverted`, a load of such workers; `LoadCourse.Contained`, a load whose workers take
  turns;
* **`runLoad_contained`**: no worker is aborted for another reason, and none stops another one.
-/

namespace LineClient

variable {σ ρ : Type}

/-! ## One worker -/

theorem Action.written_of_isAside {a : Action} (ha : a.isAside = true) : a.written = [] := by
  cases a <;> first | rfl | exact absurd ha Bool.false_ne_true

/-- Of actions that write nothing nothing is left on any connection. -/
theorem conversations_mute {as : List Action} (has : ∀ a ∈ as, a.written = []) :
    ∀ bytes ∈ (conversations as).2.map bytesWritten, bytes = [] := by
  have hall : bytesWritten (conversations as).1 = [] ∧
      ∀ bytes ∈ (conversations as).2.map bytesWritten, bytes = [] := by
    induction as with
    | nil => simp [conversations, bytesWritten]
    | cons a as ih =>
      obtain ⟨hfirst, hrest⟩ := ih fun a' ha' => has a' (List.mem_cons_of_mem a ha')
      by_cases ha : a = .opened
      · rw [ha, conversations_opened]
        refine ⟨rfl, ?_⟩
        simp only [List.map_cons, List.forall_mem_cons]
        exact ⟨hfirst, hrest⟩
      · rw [conversations_cons ha]
        refine ⟨?_, hrest⟩
        unfold bytesWritten at hfirst ⊢
        rw [List.flatMap_cons, has a List.mem_cons_self, hfirst, List.append_nil]
  exact hall.2

namespace Worker

/-- How a worker whose bounds are inverted ends. -/
inductive AbortWay (w : Worker) : Option WorkerReport → List Action → Prop
  | aborted {as : List Action} (hopened : .opened ∈ as) (has : ∀ a ∈ as, a.written = []) :
    AbortWay w none as
  | refused (cause : IoError) :
    AbortWay w (some (w.report 0 {} (some (.connect w.address cause))))
      [.unopened cause, .logged (w.stopped {} (.connect w.address cause))]

variable {w : Worker}

theorem AbortWay.mute {o : Option WorkerReport} {as : List Action} (hway : w.AbortWay o as) :
    ∀ a ∈ as, a.written = [] := by
  cases hway with
  | aborted hopened has => exact has
  | refused cause => simp [Action.written]

theorem AbortWay.eq_none_iff {o : Option WorkerReport} {as : List Action}
    (hway : w.AbortWay o as) : o = none ↔ .opened ∈ as := by
  cases hway with
  | aborted hopened has => simp [hopened]
  | refused cause => simp

theorem AbortWay.report_eq {report : WorkerReport} {as : List Action}
    (hway : w.AbortWay (some report) as) :
    ∃ cause, report = ⟨w.id, 0, 0, 0, some (.connect w.address cause)⟩ := by
  cases hway with
  | refused cause => exact ⟨cause, rfl⟩

variable (w) (h : Host σ) (g : Generator ρ)

/-- **A worker whose bounds are inverted is aborted or finds no server.** -/
theorem run_aborts (hlt : w.maxIterations < w.minIterations) (x : ρ) (s : σ) :
    (w.run h g x).Reaches s fun o as _ => w.AbortWay o as := by
  rw [run]
  refine (openLink_reaches h w.link s w.address).bind fun o as s' ho => ?_
  cases ho with
  | refused cause =>
    rw [Client.reaches_map]
    refine (fail_reaches h 0 {} _ s').mono ?_
    rintro _ _ _ ⟨rfl, rfl⟩
    exact .refused cause
  | aborted hsize =>
    refine (Client.reaches_pure _ _).mpr (.aborted ?_ ?_)
    · simp
    · simp [Action.written]
  | opened hsize =>
    refine (greet_aside w h s').bind fun _ as s'' haside => ?_
    rw [converse, if_pos hlt]
    refine (dropLink_reaches h s'').bind ?_
    rintro _ _ s''' ⟨rfl, -⟩
    refine (Client.reaches_pure _ _).mpr (.aborted (by simp) ?_)
    intro a ha
    simp only [List.append_nil, List.mem_append, List.mem_cons, List.not_mem_nil, or_false] at ha
    obtain (rfl | rfl) | has | rfl := ha
    · rfl
    · rfl
    · exact Action.written_of_isAside (List.all_eq_true.mp haside a has)
    · rfl

/-- **A worker that can have a buffer is aborted just if it has a connection and its bounds are
inverted.** -/
theorem run_eq_none_iff (hsize : w.link.recvBufferSize ≤ largestBuffer) (x : ρ) (s : σ) :
    (w.run h g x).Reaches s fun o as _ =>
      o = none ↔ .opened ∈ as ∧ w.maxIterations < w.minIterations := by
  by_cases hlt : w.maxIterations < w.minIterations
  · refine (run_aborts w h g hlt x s).mono fun o as _ hway => ?_
    simp [hway.eq_none_iff, hlt]
  · refine (run_eq_none w h g (Nat.le_of_not_lt hlt) x s).mono fun o as _ hnone => ?_
    simp [hnone, hlt, Nat.not_lt.mpr hsize]

end Worker

/-! ## All workers -/

instance : DecidablePred (WorkerRun.Connected (σ := σ)) :=
  fun run => inferInstanceAs (Decidable (Action.opened ∈ run.record.actions))

/-- What a load leaves whose bounds are inverted. -/
structure LoadRun.Inverted (run : LoadRun σ) : Prop where
  aborted : run.summary.aborted = (run.workers.filter fun worker => worker.Connected).length
  /-- All the others have left reports. -/
  ids : run.summary.reports.map (·.id) =
    (run.workers.filter fun worker => ¬ worker.Connected).map (·.id)
  reports : ∀ report ∈ run.summary.reports, ∃ cause,
    report = ⟨report.id, 0, 0, 0, some (.connect run.settings.address cause)⟩
  commands : run.summary.commands = 0
  timeouts : run.summary.timeouts = 0
  workers : run.summary.workers = run.settings.load.workers
  failed : run.summary.failed = run.settings.load.workers
  mute : ∀ worker ∈ run.workers, ∀ a ∈ worker.record.actions, a.written = []

section

variable (h : Host σ) (settings : Settings) (unseeded : Nat → ChaCha) (states : Nat → σ)

theorem runWorker_aborts (hlt : settings.load.maxIterations < settings.load.minIterations)
    (id : Nat) : (Worker.ofSettings settings id).AbortWay
      (runWorker h settings unseeded states id).report
      (runWorker h settings unseeded states id).record.actions := by
  obtain ⟨x, hrun⟩ := runWorker_eq h settings unseeded states id
  rw [hrun]
  exact Worker.run_aborts _ h ChaCha.generator hlt x (states id)

theorem runWorker_eq_none_iff (hsize : settings.recvBufferSize ≤ largestBuffer) (id : Nat) :
    (runWorker h settings unseeded states id).report = none ↔
      (runWorker h settings unseeded states id).Connected ∧
        settings.load.maxIterations < settings.load.minIterations := by
  obtain ⟨x, hrun⟩ := runWorker_eq h settings unseeded states id
  unfold WorkerRun.Connected
  rw [hrun]
  exact Worker.run_eq_none_iff (.ofSettings settings id) h ChaCha.generator hsize x (states id)

variable {h settings unseeded states}

/-- A load reports on all of its workers. -/
theorem workers_runLoad :
    (runLoad h settings unseeded states).summary.workers = settings.load.workers := by
  have hleft : ∀ id < settings.load.workers, (Worker.ofSettings settings id).MayLeave
      (runWorker h settings unseeded states id).report := fun _ _ => Worker.mayLeave_of_run rfl
  have hcovers := LoadSummary.covers hleft (List.Perm.refl _)
  rw [runLoad, List.map_map]
  exact hcovers.workers

/-- With the bounds in order every worker of a load leaves a report. -/
theorem runLoad_reports (hsize : settings.recvBufferSize ≤ largestBuffer)
    (hle : settings.load.minIterations ≤ settings.load.maxIterations) :
    (runLoad h settings unseeded states).summary.aborted = 0 ∧
      (runLoad h settings unseeded states).summary.reports.length = settings.load.workers := by
  have haborted : (runLoad h settings unseeded states).summary.aborted = 0 := by
    rw [runLoad_summary, List.countP_eq_zero]
    intro id _
    rw [Option.isNone_iff_eq_none, runWorker_eq_none_iff h settings unseeded states hsize]
    omega
  have hworkers : (runLoad h settings unseeded states).summary.workers = _ := workers_runLoad
  unfold LoadSummary.workers at hworkers
  exact ⟨haborted, by omega⟩

section

variable (hlt : settings.load.maxIterations < settings.load.minIterations)
include hlt

/-- A report comes from a worker that found no server. -/
theorem report_of_inverted {report : WorkerReport}
    (hreport : report ∈ (runLoad h settings unseeded states).summary.reports) :
    ∃ cause, report = ⟨report.id, 0, 0, 0, some (.connect settings.address cause)⟩ := by
  rw [runLoad_summary, List.mem_filterMap] at hreport
  obtain ⟨id, -, hleft⟩ := hreport
  have hway := runWorker_aborts h settings unseeded states hlt id
  rw [hleft] at hway
  obtain ⟨cause, rfl⟩ := hway.report_eq
  exact ⟨cause, rfl⟩

theorem sum_of_inverted {f : WorkerReport → Nat}
    (hf : ∀ id cause, f ⟨id, 0, 0, 0, some (.connect settings.address cause)⟩ = 0) :
    ((runLoad h settings unseeded states).summary.reports.map f).sum = 0 := by
  apply List.sum_eq_zero
  intro n hn
  obtain ⟨report, hreport, rfl⟩ := List.mem_map.mp hn
  obtain ⟨cause, heq⟩ := report_of_inverted hlt hreport
  rw [heq]
  exact hf _ cause

/-- **In a load whose bounds are inverted nobody sends anything**, and only those without a
connection leave reports. -/
theorem runLoad_inverted : (runLoad h settings unseeded states).Inverted := by
  have hway := runWorker_aborts h settings unseeded states hlt
  have hconnected (id : Nat) : (runWorker h settings unseeded states id).Connected ↔
      (runWorker h settings unseeded states id).report = none := (hway id).eq_none_iff.symm
  have hworkers : (runLoad h settings unseeded states).summary.workers = _ := workers_runLoad
  refine
    { aborted := ?_
      ids := ?_
      reports := fun report hreport => report_of_inverted hlt hreport
      commands := (LoadSummary.commands_eq _).trans (sum_of_inverted hlt fun _ _ => rfl)
      timeouts := (LoadSummary.timeouts_eq _).trans (sum_of_inverted hlt fun _ _ => rfl)
      workers := hworkers
      failed := ?_
      mute := fun worker hworker => ?_ }
  · rw [runLoad_summary, List.countP_eq_length_filter]
    simp only [runLoad, List.filter_map, List.length_map, Function.comp_def, hconnected]
    refine congrArg List.length (List.filter_congr fun id _ => ?_)
    cases (runWorker h settings unseeded states id).report <;> rfl
  · rw [runLoad_summary, (numbered_runWorker h settings unseeded states).map_id]
    simp only [runLoad, List.filter_map, List.map_map, Function.comp_def, hconnected]
    have hid (id : Nat) : (runWorker h settings unseeded states id).id = id := rfl
    simp only [hid, List.map_id']
    refine List.filter_congr fun id _ => ?_
    cases (runWorker h settings unseeded states id).report <;> rfl
  · rw [LoadSummary.failed, List.countP_eq_length.mpr]
    · exact hworkers
    · intro report hreport
      obtain ⟨cause, heq⟩ := report_of_inverted hlt hreport
      rw [heq]
      rfl
  · obtain ⟨-, heq⟩ := mem_workers h settings unseeded states hworker
    rw [heq]
    exact (hway worker.id).mute

/-- What a meter shows of a worker whose bounds are inverted. -/
theorem runWorker_meter (id : Nat) :
    let meter := (runWorker h.metered settings unseeded (fun id => (states id, {})) id).state.2
    ∀ bytes ∈ meter.earlier ++ [meter.current], bytes = [] := by
  intro meter
  have hmute := (runWorker_aborts h.metered settings unseeded (fun id => (states id, {})) hlt
    id).mute
  obtain ⟨x, hrun⟩ := runWorker_eq h.metered settings unseeded (fun id => (states id, {})) id
  have hwritten := written_of_orderly (Worker.run_faithful (.ofSettings settings id) h
    ChaCha.generator x) (Worker.run_orderly _ h.metered ChaCha.generator x (states id, {}))
  rw [hrun] at hmute
  unfold meter
  rw [hrun, hwritten.taken, hwritten.bytes]
  simp only [List.mem_cons, forall_eq_or_imp, true_and]
  exact conversations_mute hmute

end

/-! ## Workers that take turns -/

/-- A load whose workers take turns, beside the one whose workers run one by one. -/
structure LoadCourse.Contained (h : Host σ) (settings : Settings) (unseeded : Nat → ChaCha)
    (states : Nat → σ) (c : LoadCourse σ) : Prop where
  /-- Whatever the others do, a worker leaves what it leaves alone. -/
  alone : ∀ id report, (c.tasks id).phase.report? = some report →
    runWorker h settings unseeded states id =
      ⟨id, report, (c.tasks id).record, (c.tasks id).state⟩
  worker : ∀ id, c.told (some id) = (c.tasks id).record.events
  coordinator : c.told none = LoadRun.starting settings ::
    (c.joined.filter fun id => (runWorker h settings unseeded states id).report.isNone).map
      fun id => LoadRun.aborted (abortText h settings states id)
  aborted : c.collected.aborted =
    (c.joined.filter fun id => (runWorker h settings unseeded states id).report.isNone).length
  /-- Whatever becomes of the others, the load goes on until all workers are over. -/
  move : ¬ c.Complete settings → ∃ m, (c.move? h settings states m).isSome
  complete : c.Complete settings →
    c.collected.sorted = (runLoad h settings unseeded states).summary ∧
      ∀ id < settings.load.workers, (c.tasks id).phase.report?.isSome

theorem LoadCourse.Sound.contained {c : LoadCourse σ} (hc : c.Sound h settings unseeded states) :
    c.Contained h settings unseeded states where
  alone _ _ := hc.of_done
  worker := hc.worker
  coordinator := hc.coordinator
  aborted := hc.aborted
  move hcomplete := by
    obtain ⟨id, hlt, hnew⟩ := c.exists_not_mem_joined hcomplete
    exact c.exists_move hlt hnew
  complete hcomplete := by
    refine ⟨hc.collected_sorted hcomplete, fun id hlt => ?_⟩
    obtain ⟨-, hdone⟩ := hc.done id (hcomplete id hlt)
    rw [hdone]
    rfl

variable (h settings unseeded states)

/-- **An aborted worker stops nobody else.** It had a connection, and the bounds on the number of
its commands were inverted; it has written nothing. In whatever order the workers take turns and are
collected, each of them leaves what it leaves alone, and the load ends with the same summary. -/
theorem runLoad_contained (hsize : settings.recvBufferSize ≤ largestBuffer) :
    let run := runLoad h settings unseeded states
    (∀ worker ∈ run.workers, worker.report = none ↔
      worker.Connected ∧ settings.load.maxIterations < settings.load.minIterations) ∧
    (settings.load.minIterations ≤ settings.load.maxIterations →
      run.summary.aborted = 0 ∧ run.summary.reports.length = settings.load.workers) ∧
    (settings.load.maxIterations < settings.load.minIterations → run.Inverted ∧
      ∀ id, let meter :=
          (runWorker h.metered settings unseeded (fun id => (states id, {})) id).state.2
        ∀ bytes ∈ meter.earlier ++ [meter.current], bytes = []) ∧
    (∀ moves c, LoadCourse.play h settings states moves (.start settings unseeded states) = some c →
      moves.length ≤ settings.load.workers * (3 * settings.load.maxIterations + 5) ∧
        c.Contained h settings unseeded states) ∧
    ∃ moves c, LoadCourse.play h settings states moves (.start settings unseeded states) = some c ∧
      c.Complete settings := by
  intro run
  refine ⟨fun worker hworker => ?_, runLoad_reports hsize,
    fun hlt => ⟨runLoad_inverted hlt, runWorker_meter hlt⟩, fun moves c hplay => ⟨?_, ?_⟩,
    LoadCourse.exists_complete _⟩
  · obtain ⟨-, heq⟩ := mem_workers h settings unseeded states hworker
    rw [heq]
    exact runWorker_eq_none_iff h settings unseeded states hsize worker.id
  · have hlength := LoadCourse.length_add_left_le hplay
    rw [LoadCourse.left_start] at hlength
    omega
  · exact (LoadCourse.sound_start.play hplay).contained

/-- Worker 1 finds no server, and the other two are aborted. Worker 1 is collected while the other
two still have turns. -/
theorem runLoad_contained_refused :
    let h : Host Wire := { Wire.host none with
      connect := fun _ _ w => (if w.broken then .error .refused else .ok (), w) }
    let settings : Settings := { load := { workers := 3, minIterations := 5, maxIterations := 2 } }
    let states := fun id => { broken := id = 1 : Wire }
    let run := runLoad h settings (fun _ => .ofSeed 0) states
    let moves : List LoadMove := [.turn 2, .turn 1, .turn 0, .join 1, .turn 2, .turn 0, .turn 2,
      .join 2, .turn 0, .join 0]
    run.summary = ⟨[⟨1, 0, 0, 0, some (.connect settings.address .refused)⟩], 2⟩ ∧
      run.Inverted ∧
      ∃ c, LoadCourse.play h settings states moves
          (.start settings (fun _ => .ofSeed 0) states) = some c ∧
        c.joined = [1, 2, 0] ∧ c.collected.sorted = run.summary := by
  intro h settings states run moves
  obtain ⟨-, -, hinverted, hplays, -⟩ :=
    runLoad_contained h settings (fun _ => .ofSeed 0) states (by decide)
  have hplay : (LoadCourse.play h settings states moves
      (.start settings (fun _ => .ofSeed 0) states)).map (·.joined) = some [1, 2, 0] := by
    decide +kernel
  obtain ⟨c, hc, hjoined⟩ := Option.map_eq_some_iff.mp hplay
  have hcomplete : c.Complete settings := by
    unfold LoadCourse.Complete
    rw [hjoined]
    decide
  refine ⟨by decide +kernel, (hinverted (by decide)).1, c, hc, hjoined, ?_⟩
  exact ((hplays moves c hc).2.complete hcomplete).1

end

end LineClient
