import LineClient.Load.Coordinator
import LineClient.Proofs.Load.Summary
import LineClient.Proofs.Load.Turns
import Mathlib.Algebra.BigOperators.Group.Finset.Basic
import Mathlib.Algebra.Order.BigOperators.Group.Finset
import Mathlib.Data.List.Perm.Basic
import Mathlib.Data.Finset.Range

/-!
# Loads turn by turn

The workers of a load take turns in any order, and whoever is over may be collected at any time,
also while others still go on. Nothing that comes of a worker depends on this order.

* `LoadCourse`, a load that has come so far; `LoadMove`, `LoadCourse.move?`, `LoadCourse.play`;
* `LoadCourse.Sound`, what holds all the time; **`LoadCourse.Sound.play`**;
* `LoadCourse.length_add_left_le`, every load ends; `LoadCourse.exists_move`, none gets stuck
  before it does;
* **`LoadCourse.Sound.collected_sorted`**, the summary at the end.
-/

namespace LineClient

/-! ## The workers one by one -/

section

variable {σ : Type} (h : Host σ) (settings : Settings) (unseeded : Nat → ChaCha)
  (states : Nat → σ)

/-- The reports of the workers name them. -/
theorem numbered_runWorker : LoadSummary.Numbered settings.load.workers fun id =>
    (runWorker h settings unseeded states id).report :=
  LoadSummary.numbered fun _ _ => Worker.mayLeave_of_run rfl

theorem runLoad_summary : (runLoad h settings unseeded states).summary =
    ⟨(List.range settings.load.workers).filterMap fun id =>
        (runWorker h settings unseeded states id).report,
      (List.range settings.load.workers).countP fun id =>
        (runWorker h settings unseeded states id).report.isNone⟩ := by
  rw [runLoad, List.map_map]
  exact LoadSummary.collect_of_perm (numbered_runWorker h settings unseeded states)
    (List.Perm.refl _)

end

/-! ## Moves -/

/-- A load that has come so far. -/
structure LoadCourse (σ : Type) where
  tasks : Nat → Task σ ChaCha
  /-- The workers that were collected, in this order. -/
  joined : List Nat
  collected : LoadSummary
  /-- What was logged, and by which worker. -/
  log : List (Option Nat × Event)

/-- What may come next in a load. -/
inductive LoadMove where
  | turn (id : Nat)
  | join (id : Nat)
  deriving DecidableEq, Repr

namespace LoadCourse

section

variable {σ : Type} (h : Host σ) (settings : Settings) (unseeded : Nat → ChaCha)
  (states : Nat → σ)

/-- The random numbers of a worker. -/
def random (id : Nat) : ChaCha :=
  match settings.load.seed with
  | some seed => .ofSeed (workerSeed seed id)
  | none => unseeded id

/-- All workers have begun. -/
def start : LoadCourse σ where
  tasks id := ⟨.opening (random settings unseeded id), [], states id⟩
  joined := []
  collected := ⟨[], 0⟩
  log := [(none, LoadRun.starting settings)]

/-- A worker has a turn. -/
def turn (id : Nat) (c : LoadCourse σ) : LoadCourse σ :=
  let w := Worker.ofSettings settings id
  { c with
    tasks := Function.update c.tasks id ((c.tasks id).next w h ChaCha.generator)
    log := c.log ++
      ((c.tasks id).turn w h ChaCha.generator).2.1.events.map (some id, ·) }

/-- A worker that left `report` is collected. If it was aborted, this is told. -/
def join (id : Nat) (report : Option WorkerReport) (c : LoadCourse σ) : LoadCourse σ :=
  { c with
    joined := c.joined ++ [id]
    collected := c.collected.add report
    log := c.log ++ if report.isNone then
      [(none, LoadRun.aborted (abortText h settings states id))] else [] }

/-- The load after a move, if this may come next. -/
def move? (c : LoadCourse σ) : LoadMove → Option (LoadCourse σ)
  | .turn id =>
    if id < settings.load.workers ∧ (c.tasks id).phase.report? = none then
      some (c.turn h settings id)
    else none
  | .join id =>
    if id < settings.load.workers ∧ id ∉ c.joined then
      (c.tasks id).phase.report?.map (c.join h settings states id)
    else none

/-- The load after some moves. -/
def play : List LoadMove → LoadCourse σ → Option (LoadCourse σ)
  | [], c => some c
  | m :: moves, c => do play moves (← c.move? h settings states m)

/-- The events of a worker, or those of the load as a whole. -/
def told (c : LoadCourse σ) (who : Option Nat) : List Event :=
  (c.log.filter fun line => line.1 = who).map (·.2)

/-! ## One move -/

section

variable (c : LoadCourse σ) {id id' : Nat}

@[simp] theorem turn_tasks_self : (c.turn h settings id).tasks id =
    (c.tasks id).next (.ofSettings settings id) h ChaCha.generator := by
  simp [turn]

@[simp] theorem turn_tasks_of_ne (hne : id' ≠ id) :
    (c.turn h settings id).tasks id' = c.tasks id' := by
  simp [turn, hne]

/-- A turn of a worker leaves its events to itself. -/
theorem told_turn (id : Nat) (who : Option Nat) : (c.turn h settings id).told who =
    c.told who ++ if who = some id then
      ((c.tasks id).turn (.ofSettings settings id) h ChaCha.generator).2.1.events else [] := by
  rw [told, turn, List.filter_append, List.map_append, List.filter_map, List.map_map]
  split_ifs with hwho
  · simp [told, hwho, Function.comp_def]
  · simp [told, Function.comp_def, Ne.symm hwho]

theorem told_join (id : Nat) (report : Option WorkerReport) (who : Option Nat) :
    (c.join h settings states id report).told who = c.told who ++
      if who = none ∧ report = none then
        [LoadRun.aborted (abortText h settings states id)] else [] := by
  cases report <;> cases who <;> simp [told, join]

end

/-! ## What holds all the time -/

variable {h settings states} in
/-- Either a worker that is not over has a turn, or one that is over is collected. -/
theorem move?_cases {c c' : LoadCourse σ} {m : LoadMove}
    (hmove : c.move? h settings states m = some c') :
    (∃ id < settings.load.workers, (c.tasks id).phase.report? = none ∧
      c' = c.turn h settings id) ∨
    ∃ id < settings.load.workers, id ∉ c.joined ∧
      ∃ report, (c.tasks id).phase.report? = some report ∧
        c' = c.join h settings states id report := by
  cases m with
  | turn id =>
    simp only [move?] at hmove
    split_ifs at hmove with hon
    exact .inl ⟨id, hon.1, hon.2, (Option.some.inj hmove).symm⟩
  | join id =>
    simp only [move?] at hmove
    split_ifs at hmove with hdone
    obtain ⟨report, hreport, hc'⟩ := Option.map_eq_some_iff.mp hmove
    exact .inr ⟨id, hdone.1, hdone.2, report, hreport, hc'.symm⟩

/-- What holds of a load all the time. -/
structure Sound (c : LoadCourse σ) : Prop where
  /-- What comes of a worker is what comes of it alone. -/
  outcome : ∀ id, (c.tasks id).outcome (.ofSettings settings id) h ChaCha.generator =
    ((Worker.ofSettings settings id).run h ChaCha.generator
      (random settings unseeded id)).run (states id)
  nodup : c.joined.Nodup
  done : ∀ id ∈ c.joined, id < settings.load.workers ∧
    (c.tasks id).phase.report? = some (runWorker h settings unseeded states id).report
  collected : c.collected =
    (c.joined.map fun id => (runWorker h settings unseeded states id).report).foldl
      LoadSummary.add ⟨[], 0⟩
  coordinator : c.told none = LoadRun.starting settings ::
    (c.joined.filter fun id => (runWorker h settings unseeded states id).report.isNone).map
      fun id => LoadRun.aborted (abortText h settings states id)
  worker : ∀ id, c.told (some id) = (c.tasks id).record.events

variable {h settings unseeded states} {c : LoadCourse σ}

theorem runWorker_eq_random (id : Nat) :
    ((Worker.ofSettings settings id).run h ChaCha.generator (random settings unseeded id)).run
      (states id) = ((runWorker h settings unseeded states id).report,
        (runWorker h settings unseeded states id).record,
        (runWorker h settings unseeded states id).state) := rfl

theorem sound_start : (start settings unseeded states).Sound h settings unseeded states where
  outcome _ := rfl
  nodup := List.nodup_nil
  done _ hid := nomatch hid
  collected := rfl
  coordinator := rfl
  worker _ := rfl

/-- **What came of a worker that is over is what comes of it alone.** -/
theorem Sound.of_done (hc : c.Sound h settings unseeded states) {id : Nat}
    {report : Option WorkerReport} (hdone : (c.tasks id).phase.report? = some report) :
    runWorker h settings unseeded states id =
      ⟨id, report, (c.tasks id).record, (c.tasks id).state⟩ := by
  have hout := hc.outcome id
  rw [Task.outcome_done _ _ _ _ hdone, runWorker_eq_random] at hout
  obtain ⟨hreport, hrest⟩ := Prod.mk.inj hout
  obtain ⟨hrecord, hstate⟩ := Prod.mk.inj hrest
  rw [hreport, hrecord, hstate]
  rfl

theorem Sound.turn (hc : c.Sound h settings unseeded states) {id : Nat}
    (hon : (c.tasks id).phase.report? = none) :
    (c.turn h settings id).Sound h settings unseeded states where
  outcome id' := by
    by_cases heq : id' = id
    · subst heq
      rw [turn_tasks_self, Task.outcome_next]
      exact hc.outcome id'
    · rw [turn_tasks_of_ne _ _ _ heq]
      exact hc.outcome id'
  nodup := hc.nodup
  done id' hid' := by
    obtain ⟨hlt, hdone⟩ := hc.done id' hid'
    have hne : id' ≠ id := fun heq => by simp [← heq, hdone] at hon
    rw [turn_tasks_of_ne _ _ _ hne]
    exact ⟨hlt, hdone⟩
  collected := hc.collected
  coordinator := by
    rw [told_turn, if_neg (Option.some_ne_none id).symm, List.append_nil]
    exact hc.coordinator
  worker id' := by
    by_cases heq : id' = id
    · subst heq
      rw [told_turn, if_pos rfl, turn_tasks_self, hc.worker]
      exact List.filterMap_append.symm
    · have hne : some id' ≠ some id := fun h => heq (Option.some.inj h)
      rw [told_turn, if_neg hne, turn_tasks_of_ne _ _ _ heq, List.append_nil, hc.worker]

theorem Sound.join (hc : c.Sound h settings unseeded states) {id : Nat}
    (hlt : id < settings.load.workers) (hnew : id ∉ c.joined) {report : Option WorkerReport}
    (hdone : (c.tasks id).phase.report? = some report) :
    (c.join h settings states id report).Sound h settings unseeded states := by
  have hreport : (runWorker h settings unseeded states id).report = report := by
    rw [hc.of_done hdone]
  refine
    { outcome := hc.outcome
      nodup := ?_
      done := fun id' hid' => ?_
      collected := ?_
      coordinator := ?_
      worker := fun id' => ?_ }
  · simpa [LoadCourse.join] using hc.nodup.concat hnew
  · obtain hid' | hid' := List.mem_append.mp hid'
    · exact hc.done id' hid'
    · obtain rfl := List.mem_singleton.mp hid'
      exact ⟨hlt, hreport ▸ hdone⟩
  · simp only [LoadCourse.join, List.map_append, List.foldl_append, ← hc.collected, hreport,
      List.map_cons, List.map_nil, List.foldl_cons, List.foldl_nil]
  · rw [told_join, hc.coordinator]
    cases report with
    | none => simp [LoadCourse.join, hreport]
    | some report => simp [LoadCourse.join, hreport]
  · rw [told_join, hc.worker]
    simp [LoadCourse.join]

theorem Sound.move {c' : LoadCourse σ} {m : LoadMove} (hc : c.Sound h settings unseeded states)
    (hmove : c.move? h settings states m = some c') : c'.Sound h settings unseeded states := by
  obtain ⟨id, -, hon, rfl⟩ | ⟨id, hlt, hnew, report, hdone, rfl⟩ := move?_cases hmove
  · exact hc.turn hon
  · exact hc.join hlt hnew hdone

/-- Of each worker that was aborted and collected, this is told once. -/
theorem Sound.aborted (hc : c.Sound h settings unseeded states) : c.collected.aborted =
    (c.joined.filter fun id => (runWorker h settings unseeded states id).report.isNone).length := by
  rw [hc.collected, LoadSummary.foldl_add, List.countP_eq_length_filter]
  exact Nat.zero_add _

/-- **Whatever the order of the moves, all is as it should be.** -/
theorem Sound.play {c' : LoadCourse σ} {moves : List LoadMove}
    (hc : c.Sound h settings unseeded states) (hplay : play h settings states moves c = some c') :
    c'.Sound h settings unseeded states := by
  induction moves generalizing c with
  | nil =>
    obtain rfl := Option.some.inj hplay
    exact hc
  | cons m moves ih =>
    obtain ⟨c₁, hmove, hrest⟩ := Option.bind_eq_some_iff.mp hplay
    exact ih (hc.move hmove) hrest

/-! ## The end -/

/-- The moves of a worker that can still come. -/
def leftOf (settings : Settings) (c : LoadCourse σ) (id : Nat) : Nat :=
  (Worker.ofSettings settings id).turnsLeft (c.tasks id).phase + if id ∈ c.joined then 0 else 1

/-- The moves that can still come. -/
def left (settings : Settings) (c : LoadCourse σ) : Nat :=
  ∑ id ∈ Finset.range settings.load.workers, c.leftOf settings id

/-- A move of one worker takes no moves from the others. -/
theorem left_lt {c' : LoadCourse σ} {id : Nat} (hlt : id < settings.load.workers)
    (hself : c'.leftOf settings id < c.leftOf settings id)
    (hothers : ∀ id' ≠ id, c'.leftOf settings id' = c.leftOf settings id') :
    c'.left settings < c.left settings := by
  refine Finset.sum_lt_sum (fun id' _ => ?_) ⟨id, Finset.mem_range.mpr hlt, hself⟩
  by_cases heq : id' = id
  · exact heq ▸ hself.le
  · exact (hothers id' heq).le

theorem left_move {c' : LoadCourse σ} {m : LoadMove}
    (hmove : c.move? h settings states m = some c') :
    c'.left settings < c.left settings := by
  obtain ⟨id, hlt, hon, rfl⟩ | ⟨id, hlt, hnew, report, hdone, rfl⟩ := move?_cases hmove
  · refine left_lt hlt ?_ fun id' hne => ?_
    · have hpos := (Worker.ofSettings settings id).turnsLeft_pos hon
      have hnext := (c.tasks id).turnsLeft_next (.ofSettings settings id) h ChaCha.generator
      rw [leftOf, leftOf, turn_tasks_self]
      refine Nat.add_lt_add_right (by omega) _
    · rw [leftOf, leftOf, turn_tasks_of_ne _ _ _ hne]
      rfl
  · refine left_lt hlt ?_ fun id' hne => ?_
    · simp [leftOf, join, hnew]
    · simp [leftOf, join, hne]

/-- **Every load ends.** -/
theorem length_add_left_le {c' : LoadCourse σ} {moves : List LoadMove}
    (hplay : play h settings states moves c = some c') :
    moves.length + c'.left settings ≤ c.left settings := by
  induction moves generalizing c with
  | nil =>
    obtain rfl := Option.some.inj hplay
    exact (Nat.zero_add _).le
  | cons m moves ih =>
    obtain ⟨c₁, hmove, hrest⟩ := Option.bind_eq_some_iff.mp hplay
    have hlt := left_move hmove
    have hle := ih hrest
    rw [List.length_cons]
    omega

theorem left_start : (start settings unseeded states).left settings =
    settings.load.workers * (3 * settings.load.maxIterations + 5) := by
  simp [left, leftOf, start, Worker.turnsLeft, Worker.ofSettings]

/-- **As long as some worker was not collected, there is a move.** -/
theorem exists_move (c : LoadCourse σ) {id : Nat} (hlt : id < settings.load.workers)
    (hnew : id ∉ c.joined) : ∃ m, (c.move? h settings states m).isSome := by
  cases hphase : (c.tasks id).phase.report? with
  | none =>
    refine ⟨.turn id, ?_⟩
    simp [move?, hlt, hphase]
  | some report =>
    refine ⟨.join id, ?_⟩
    simp [move?, hlt, hnew, hphase]

/-- All workers were collected. -/
def Complete (settings : Settings) (c : LoadCourse σ) : Prop :=
  ∀ id < settings.load.workers, id ∈ c.joined

theorem exists_not_mem_joined (c : LoadCourse σ) (hcomplete : ¬ c.Complete settings) :
    ∃ id < settings.load.workers, id ∉ c.joined := by
  simpa [Complete] using hcomplete

/-- **Every load can be brought to its end.** -/
theorem exists_complete (c : LoadCourse σ) :
    ∃ moves c', play h settings states moves c = some c' ∧ c'.Complete settings := by
  -- The moves that can still come get fewer with every move.
  induction hleft : c.left settings using Nat.strong_induction_on generalizing c with
  | _ n ih =>
    by_cases hcomplete : c.Complete settings
    · exact ⟨[], c, rfl, hcomplete⟩
    · obtain ⟨id, hlt, hnew⟩ := c.exists_not_mem_joined hcomplete
      obtain ⟨m, hsome⟩ := c.exists_move (h := h) hlt hnew
      obtain ⟨c₁, hmove⟩ := Option.isSome_iff_exists.mp hsome
      obtain ⟨moves, c', hplay, hend⟩ := ih _ (hleft ▸ left_move hmove) c₁ rfl
      refine ⟨m :: moves, c', ?_, hend⟩
      rw [play, hmove]
      exact hplay

theorem Sound.joined_perm (hc : c.Sound h settings unseeded states)
    (hcomplete : c.Complete settings) : c.joined.Perm (List.range settings.load.workers) := by
  refine (List.perm_ext_iff_of_nodup hc.nodup List.nodup_range).mpr fun id => ?_
  rw [List.mem_range]
  exact ⟨fun hid => (hc.done id hid).1, hcomplete id⟩

/-- **The summary at the end is the same for every order.** -/
theorem Sound.collected_sorted (hc : c.Sound h settings unseeded states)
    (hcomplete : c.Complete settings) :
    c.collected.sorted = (runLoad h settings unseeded states).summary := by
  have hperm := LoadSummary.collect_of_perm (numbered_runWorker h settings unseeded states)
    (hc.joined_perm hcomplete)
  rw [hc.collected, runLoad_summary]
  exact hperm

end

end LoadCourse

end LineClient
