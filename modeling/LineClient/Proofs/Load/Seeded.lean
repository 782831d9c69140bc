import LineClient.Link.Dialogue
import LineClient.Load.Coordinator
import LineClient.Proofs.Load.Scripted

/-!
# Loads with a seed

A worker draws once for the number of its commands and once for each command, whatever the server
does with it. So the commands that it tries to send are the first ones of a list that its random
numbers tell, and with a seed this list is the same in every load.

* `Action.tried?`, the command that an action sends or breaks off;
* `Worker.draws_prefix`; `Worker.rounds_tries`, `Worker.converse_tries`, what a worker tries to
  send;
* `workerSeed_eq_iff`, which workers have the same random numbers;
* `WorkerRun.Agrees`; **`seeded_load_reproducible`**: two loads with seeds, side by side.
-/

namespace LineClient

/-- The command that an action sends, as a whole line or not. -/
def Action.tried? : Action → Option String
  | .sent command => some command
  | .cut command _ => some command
  | _ => none

/-! ## What a worker tries to send -/

namespace Worker

variable {σ ρ : Type} (w : Worker) (h : Host σ) (g : Generator ρ)

theorem length_draws (n : Nat) (x : ρ) : (w.draws g n x).length = n := by
  induction n generalizing x with
  | zero => rfl
  | succ n ih => simp [draws, ih]

theorem draws_prefix {m n : Nat} (hle : m ≤ n) (x : ρ) : w.draws g m x <+: w.draws g n x := by
  induction n generalizing m x with
  | zero =>
    obtain rfl : m = 0 := by omega
    exact List.prefix_refl _
  | succ n ih =>
    cases m with
    | zero => exact List.nil_prefix
    | succ m => exact (List.prefix_cons_inj _).mpr (ih (by omega) _)

/-- The commands that a worker would send if the server ended nothing. -/
def plan (x : ρ) : List String :=
  let (planned, x) := g.between w.minIterations w.maxIterations x
  w.draws g planned x

theorem length_plan (x : ρ) :
    (w.plan g x).length = (g.between w.minIterations w.maxIterations x).1 :=
  w.length_draws g _ _

/-- The random numbers of a worker tell nothing but how often it draws, and what. -/
theorem plan_congr {w' : Worker} (hcommands : w.commands = w'.commands)
    (hmin : w.minIterations = w'.minIterations) (hmax : w.maxIterations = w'.maxIterations)
    (x : ρ) : w.plan g x = w'.plan g x := by
  have hdraws (n : Nat) (x : ρ) : w.draws g n x = w'.draws g n x := by
    induction n generalizing x with
    | zero => rfl
    | succ n ih => simp only [draws, hcommands, ih]
  simp only [plan, hmin, hmax, hdraws]

variable {w}

/-- An exchange tries to send its command, however it ends. -/
theorem ExchangeWay.tried {command : String} {t : Tally} {o : Except ConnectionError Tally}
    {as : List Action} (hway : w.ExchangeWay command t o as) :
    as.filterMap Action.tried? = [command] := by
  cases hway with
  | closed failure => cases failure <;> rfl
  | _ => rfl

variable (w)

theorem rounds_tries (count : Nat) (x : ρ) (t : Tally) (s : σ) :
    (rounds w h g count x t).Reaches s fun o as _ => ∃ n ≤ count,
      as.filterMap Action.tried? = w.draws g n x ∧
        (o.2 = none → w.commands ≠ [] → n = count) := by
  induction count generalizing x t s with
  | zero => exact ⟨0, Nat.le_refl 0, rfl, fun _ _ => rfl⟩
  | succ count ih =>
    rw [rounds]
    by_cases hempty : w.commands.isEmpty = true
    · rw [if_pos hempty]
      exact ⟨0, Nat.zero_le _, rfl, fun _ hne => absurd (List.isEmpty_iff.mp hempty) hne⟩
    · rw [if_neg hempty]
      refine (exchange_reaches w h _ t s).bind fun o as s' hway => ?_
      have htried := hway.tried
      cases o with
      | error e =>
        refine (Client.reaches_pure _ _).mpr
          ⟨1, Nat.le_add_left 1 count, ?_, fun hnone => (Option.some_ne_none e hnone).elim⟩
        rw [List.append_nil, htried]
        rfl
      | ok t' =>
        refine (ih _ t' s').mono ?_
        rintro o' as' _ ⟨n, hn, hrest, hcomplete⟩
        refine ⟨n + 1, by omega, ?_, fun hnone hne => by rw [hcomplete hnone hne]⟩
        rw [List.filterMap_append, htried, hrest]
        rfl

variable {w} in
theorem Leaving.tried {t : Tally} {failure : Option ConnectionError} {as : List Action}
    (hlast : w.Leaving t failure as) : as.filterMap Action.tried? = [] := by
  cases hlast with
  | done failure => cases failure <;> rfl
  | failed e => rfl

/-- What the run of a worker says of its plan. -/
structure Tries (x : ρ) (o : Option WorkerReport) (as : List Action) : Prop where
  tried : as.filterMap Action.tried? <+: w.plan g x
  planned : .opened ∈ as → ∀ report ∈ o, report.planned = (w.plan g x).length
  complete : .opened ∈ as → ∀ report ∈ o, report.failure = none → w.commands ≠ [] →
    as.filterMap Action.tried? = w.plan g x

theorem converse_tries (hle : w.minIterations ≤ w.maxIterations) (x : ρ) (s : σ) :
    (w.converse h g x).Reaches s fun o as _ => ∃ report, o = some report ∧
      report.planned = (w.plan g x).length ∧ as.filterMap Action.tried? <+: w.plan g x ∧
        (report.failure = none → w.commands ≠ [] →
          as.filterMap Action.tried? = w.plan g x) := by
  rw [converse, if_neg (Nat.not_lt.mpr hle), length_plan]
  unfold plan
  generalize g.between w.minIterations w.maxIterations x = drawn
  obtain ⟨planned, x'⟩ := drawn
  refine (w.rounds_tries h g planned x' {} s).bind ?_
  rintro ⟨t, failure⟩ as s' ⟨n, hn, htried, hcomplete⟩
  refine (finish_reaches h planned t failure s').mono ?_
  rintro _ last _ ⟨rfl, hlast⟩
  have hall : (as ++ last).filterMap Action.tried? = w.draws g n x' := by
    rw [List.filterMap_append, hlast.tried, List.append_nil, htried]
  refine ⟨_, rfl, rfl, ?_, fun hnone hne => ?_⟩
  · rw [hall]
    exact w.draws_prefix g hn x'
  · rw [hall, hcomplete hnone hne]

/-- **A worker tries to send the first commands of its plan.** -/
theorem run_tries (hle : w.minIterations ≤ w.maxIterations) (x : ρ) (s : σ) :
    (w.run h g x).Reaches s fun o as _ => w.Tries g x o as := by
  have hgreet (s : σ) :
      (w.greet h).Reaches s fun _ as _ => as.filterMap Action.tried? = [] := by
    rw [greet, Client.reaches_bind, Client.reaches_log, Client.reaches_bind, Client.reaches_pause]
    refine (drainBanner_reaches h w.link _).bind fun banner as s' hbanner => ?_
    cases hbanner with
    | greeted c => exact rfl
    | ended failure => cases failure <;> exact rfl
    | silence => exact rfl
  rw [run]
  refine (openLink_reaches h w.link s w.address).bind fun o as s' ho => ?_
  cases ho with
  | refused cause =>
    rw [Client.reaches_map]
    refine (fail_reaches h 0 {} _ s').mono ?_
    rintro _ _ _ ⟨rfl, rfl⟩
    have hno : Action.opened ∉ [Action.unopened cause,
        .logged (w.stopped {} (.connect w.address cause))] := by simp
    exact ⟨List.nil_prefix, (absurd · hno), (absurd · hno)⟩
  | aborted hsize =>
    exact ⟨List.nil_prefix, fun _ _ hno => (Option.not_mem_none _ hno).elim,
      fun _ _ hno => (Option.not_mem_none _ hno).elim⟩
  | opened hsize =>
    refine (hgreet s').bind fun _ as s'' hnone => ?_
    refine (w.converse_tries h g hle x s'').mono ?_
    rintro _ as' _ ⟨report, rfl, hplanned, hprefix, hcomplete⟩
    have htried : ([Action.opened, .logged (connected w.address)] ++ (as ++ as')).filterMap
        Action.tried? = as'.filterMap Action.tried? := by
      simp [Action.tried?, List.filterMap_cons, hnone]
    refine ⟨?_, fun _ _ hreport => ?_, fun _ _ hreport => ?_⟩
    · rwa [htried]
    · cases hreport
      exact hplanned
    · cases hreport
      rwa [htried]

end Worker

/-! ## Seeds of workers -/

theorem workerSeed_eq_iff (seed id seed' id' : Nat) :
    workerSeed seed id = workerSeed seed' id' ↔
      (seed + id) % 2 ^ 64 = (seed' + id') % 2 ^ 64 := by
  rw [workerSeed, workerSeed, ← UInt64.toNat_inj, UInt64.toNat_ofNat', UInt64.toNat_ofNat']

/-- No two workers of a load have the same seed. -/
theorem workerSeed_injective {seed i j : Nat} (hi : i < 2 ^ 64) (hj : j < 2 ^ 64)
    (h : workerSeed seed i = workerSeed seed j) : i = j := by
  rw [workerSeed_eq_iff] at h
  omega

/-! ## Two loads -/

namespace WorkerRun

variable {σ σ' : Type}

/-- The commands that the worker tried to send, in order. -/
def tried (run : WorkerRun σ) : List String := run.record.actions.filterMap Action.tried?

/-- The worker had a connection. -/
def Connected (run : WorkerRun σ) : Prop := .opened ∈ run.record.actions

/-- Two workers that had a connection were to send the same commands. -/
structure Agrees (run : WorkerRun σ) (run' : WorkerRun σ') (commands : List String) : Prop where
  planned : ∀ report ∈ run.report, ∀ report' ∈ run'.report, report.planned = report'.planned
  /-- One of them got no further than the other one. -/
  tried : run.tried <+: run'.tried ∨ run'.tried <+: run.tried
  complete : commands ≠ [] → ∀ report ∈ run.report, ∀ report' ∈ run'.report,
    report.failure = none → report'.failure = none →
      run.tried = run'.tried ∧ run.tried.length = report.planned

theorem Agrees.of_tries {ρ : Type} {g : Generator ρ} {w w' : Worker} {x : ρ} {run : WorkerRun σ}
    {run' : WorkerRun σ'} (htries : w.Tries g x run.report run.record.actions)
    (htries' : w'.Tries g x run'.report run'.record.actions) (hplan : w.plan g x = w'.plan g x)
    (hcommands : w.commands = w'.commands) (hopened : run.Connected) (hopened' : run'.Connected) :
    run.Agrees run' w.commands where
  planned report hreport report' hreport' := by
    rw [htries.planned hopened report hreport, htries'.planned hopened' report' hreport', hplan]
  tried := by
    have htried' := htries'.tried
    rw [← hplan] at htried'
    exact List.prefix_or_prefix_of_prefix htries.tried htried'
  complete hne report hreport report' hreport' hnone hnone' := by
    have hall := htries.complete hopened report hreport hnone hne
    have hall' := htries'.complete hopened' report' hreport' hnone' (hcommands ▸ hne)
    refine ⟨hall.trans (hplan.trans hall'.symm), ?_⟩
    rw [htries.planned hopened report hreport]
    exact congrArg List.length hall

end WorkerRun

section

variable {σ σ' : Type} (h : Host σ) (settings : Settings) (unseeded : Nat → ChaCha)
  (states : Nat → σ)

theorem runWorker_tries (id : Nat) {seed : Nat} (hseed : settings.load.seed = some seed)
    (hle : settings.load.minIterations ≤ settings.load.maxIterations) :
    (Worker.ofSettings settings id).Tries ChaCha.generator (ChaCha.ofSeed (workerSeed seed id))
      (runWorker h settings unseeded states id).report
      (runWorker h settings unseeded states id).record.actions := by
  rw [runWorker, hseed]
  exact Worker.run_tries _ h _ hle _ _

theorem runWorker_eq (id : Nat) : ∃ x,
    let out := ((Worker.ofSettings settings id).run h ChaCha.generator x).run (states id)
    runWorker h settings unseeded states id = ⟨id, out.1, out.2.1, out.2.2⟩ := ⟨_, rfl⟩

theorem runWorker_report (id : Nat)
    (hle : settings.load.minIterations ≤ settings.load.maxIterations)
    (hopened : (runWorker h settings unseeded states id).Connected) :
    (runWorker h settings unseeded states id).report = none ↔
      largestBuffer < settings.recvBufferSize := by
  obtain ⟨x, hrun⟩ := runWorker_eq h settings unseeded states id
  unfold WorkerRun.Connected at hopened
  rw [hrun] at hopened ⊢
  have hreport := Worker.run_eq_none (.ofSettings settings id) h ChaCha.generator hle x (states id)
  exact hreport.trans (and_iff_right hopened)

theorem mem_workers {run : WorkerRun σ}
    (hrun : run ∈ (runLoad h settings unseeded states).workers) :
    run.id < settings.load.workers ∧ run = runWorker h settings unseeded states run.id := by
  obtain ⟨id, hid, rfl⟩ := List.mem_map.mp hrun
  exact ⟨List.mem_range.mp hid, rfl⟩

/-- **Loads with seeds can be repeated.** Two loads may differ in everything but the commands and
the bounds on their number: two of their workers agree if the sums of seed and number do, and no two
workers of one load have the same seed. -/
theorem seeded_load_reproducible (h' : Host σ') (settings' : Settings)
    (unseeded' : Nat → ChaCha) (states' : Nat → σ') {seed seed' : Nat}
    (hseed : settings.load.seed = some seed) (hseed' : settings'.load.seed = some seed')
    (hcommands : settings.load.commands = settings'.load.commands)
    (hmin : settings.load.minIterations = settings'.load.minIterations)
    (hmax : settings.load.maxIterations = settings'.load.maxIterations)
    (hle : settings.load.minIterations ≤ settings.load.maxIterations) :
    (∀ run ∈ (runLoad h settings unseeded states).workers,
      ∀ run' ∈ (runLoad h' settings' unseeded' states').workers,
        (seed + run.id) % 2 ^ 64 = (seed' + run'.id) % 2 ^ 64 → run.Connected → run'.Connected →
          (run.report = none ↔ largestBuffer < settings.recvBufferSize) ∧
            run.Agrees run' settings.load.commands) ∧
    (settings.load.workers ≤ 2 ^ 64 → ∀ run ∈ (runLoad h settings unseeded states).workers,
      ∀ other ∈ (runLoad h settings unseeded states).workers, run.id ≠ other.id →
        workerSeed seed run.id ≠ workerSeed seed other.id) := by
  constructor
  · intro run hrun run' hrun' hsum hopened hopened'
    obtain ⟨-, heq⟩ := mem_workers h settings unseeded states hrun
    obtain ⟨-, heq'⟩ := mem_workers h' settings' unseeded' states' hrun'
    have htries := runWorker_tries h settings unseeded states run.id hseed hle
    have htries' := runWorker_tries h' settings' unseeded' states' run'.id hseed'
      (by rw [← hmin, ← hmax]; exact hle)
    rw [← (workerSeed_eq_iff seed run.id seed' run'.id).mpr hsum] at htries'
    rw [← heq] at htries
    rw [← heq'] at htries'
    refine ⟨?_, .of_tries htries htries' ?_ hcommands hopened hopened'⟩
    · have hreport := runWorker_report h settings unseeded states run.id hle (heq ▸ hopened)
      rwa [← heq] at hreport
    · exact Worker.plan_congr _ _ hcommands hmin hmax _
  · intro hworkers run hrun other hother hne heq
    obtain ⟨hid, -⟩ := mem_workers h settings unseeded states hrun
    obtain ⟨hid', -⟩ := mem_workers h settings unseeded states hother
    exact hne (workerSeed_injective (by omega) (by omega) heq)

/-- The seed of worker 1 under the greatest seed is that of worker 0 under seed 0. One of them has
a server that keeps silent, the other one a server that closes. -/
theorem seeded_load_reproducible_wrapped :
    let settings : Settings := { load :=
      { workers := 2, minIterations := 2, maxIterations := 2, seed := some (2 ^ 64 - 1) } }
    let settings' : Settings := { load :=
      { workers := 1, minIterations := 2, maxIterations := 2, seed := some 0 } }
    let run := runWorker (Wire.host none) settings (fun _ => .ofSeed 0) (fun _ => {}) 1
    let run' := runWorker (Wire.host none) settings' (fun _ => .ofSeed 0)
      (fun _ => { ended := true }) 0
    run.tried.length = 2 ∧ run'.tried.length = 1 ∧ run.Agrees run' settings.load.commands := by
  intro settings settings' run run'
  have hload := (seeded_load_reproducible (Wire.host none) settings (fun _ => .ofSeed 0)
    (fun _ => {}) (Wire.host none) settings' (fun _ => .ofSeed 0) (fun _ => { ended := true })
    rfl rfl rfl rfl rfl (by decide)).1
  have hagrees := hload run (List.mem_map.mpr ⟨1, by decide, rfl⟩) run'
    (List.mem_map.mpr ⟨0, by decide, rfl⟩) (by decide)
    (by unfold WorkerRun.Connected; decide +kernel)
    (by unfold WorkerRun.Connected; decide +kernel)
  exact ⟨by decide +kernel, by decide +kernel, hagrees.2⟩

end

end LineClient
