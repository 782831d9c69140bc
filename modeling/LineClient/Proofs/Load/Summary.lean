import LineClient.Load.Coordinator
import LineClient.Proofs.Load.Accounting
import Mathlib.Algebra.Order.BigOperators.Group.List
import Mathlib.Algebra.Order.Ring.Nat
import Mathlib.Data.List.Sort
import Mathlib.Tactic.IntervalCases

/-!
# A load summed up

The workers of a load finish in any order, and each leaves a report or nothing. The summary is the
same for every order, and counts every worker once.

* `Worker.MayLeave`, what may come of a worker; `Worker.run_reports`, what all reports of it share;
* `LoadSummary.collect_map`, what is collected; `LoadSummary.collect_of_perm`, the order does not
  matter; `LoadSummary.ids_perm`, every worker is there once;
* `LoadSummary.Covers`, what a summary says of the workers;
* **`LoadSummary.collect_covers`**, it says so whatever comes of them and in whatever order.
-/

namespace LineClient

/-! ## One worker -/

namespace Worker

variable (w : Worker)

/-- **Every report accounts for some actions**, also of a worker whose bounds are not in order. -/
theorem run_reports {σ ρ : Type} (h : Host σ) (g : Generator ρ) (x : ρ) (s : σ) :
    (w.run h g x).Reaches s fun o _ _ => ∀ report ∈ o, ∃ as, w.Accounted report as := by
  rw [run]
  refine (openLink_reaches h w.link s w.address).bind fun o as s' ho => ?_
  cases ho with
  | refused cause =>
    rw [Client.reaches_map]
    refine (fail_reaches h 0 {} _ s').mono ?_
    rintro _ _ _ ⟨rfl, -⟩ _ ⟨⟩
    exact ⟨_, accounted_refused cause⟩
  | aborted hsize => exact fun _ hno => (Option.not_mem_none _ hno).elim
  | opened hsize =>
    refine (greet_reaches h s').bind fun _ as s'' hgreet => ?_
    by_cases hle : w.minIterations ≤ w.maxIterations
    · have hbefore := (ledger_opened (.opened hsize)).append hgreet
      refine (converse_reaches h g hle hbefore (by simp) x s'').mono ?_
      rintro _ as' _ ⟨report, rfl, haccounted⟩ _ ⟨⟩
      exact ⟨_, haccounted⟩
    · rw [converse, if_pos (Nat.not_le.mp hle)]
      exact (dropLink_reaches h s'').bind fun _ _ _ _ _ hno =>
        (Option.not_mem_none _ hno).elim

/-- What may come of a worker: nothing, if it is aborted, or the report of any of its runs. -/
def MayLeave (o : Option WorkerReport) : Prop :=
  ∀ report ∈ o, ∃ (σ ρ : Type) (h : Host σ) (g : Generator ρ) (x : ρ) (s : σ),
    ((w.run h g x).run s).1 = some report

variable {w}

theorem mayLeave_none : w.MayLeave none := fun _ hno => nomatch hno

theorem mayLeave_of_run {σ ρ : Type} {h : Host σ} {g : Generator ρ} {x : ρ} {s : σ}
    {o : Option WorkerReport} (hrun : ((w.run h g x).run s).1 = o) : w.MayLeave o :=
  fun _ hreport => ⟨σ, ρ, h, g, x, s, hrun.trans hreport⟩

theorem MayLeave.accounted {o : Option WorkerReport} (h : w.MayLeave o) {report : WorkerReport}
    (hreport : o = some report) : ∃ as, w.Accounted report as := by
  obtain ⟨σ, ρ, host, g, x, s, hrun⟩ := h report hreport
  exact w.run_reports host g x s report hrun

end Worker

/-! ## Collecting -/

namespace LoadSummary

variable {result : Nat → Option WorkerReport} {order : List Nat} {n : Nat}

/-- **What one worker leaves is a report more or an aborted worker more.** -/
theorem foldl_add (order : List Nat) (s : LoadSummary) :
    (order.map result).foldl add s =
      ⟨s.reports ++ order.filterMap result,
        s.aborted + order.countP fun id => (result id).isNone⟩ := by
  induction order generalizing s with
  | nil => simp
  | cons id order ih =>
    rw [List.map_cons, List.foldl_cons, ih, List.filterMap_cons, List.countP_cons]
    cases hid : result id with
    | none =>
      simp only [add, Option.isNone_none, if_true]
      congr 1
      omega
    | some report => simp [add]

theorem collect_map (result : Nat → Option WorkerReport) (order : List Nat) :
    collect (order.map result) =
      ⟨(order.filterMap result).mergeSort fun a b => a.id ≤ b.id,
        order.countP fun id => (result id).isNone⟩ := by
  rw [collect, foldl_add]
  simp [sorted]

/-- The reports name their workers. -/
def Numbered (n : Nat) (result : Nat → Option WorkerReport) : Prop :=
  ∀ id < n, ∀ report ∈ result id, report.id = id

/-- A report says whose it is. -/
theorem Numbered.mem_iff (h : Numbered n result) (report : WorkerReport) :
    report ∈ (List.range n).filterMap result ↔ report.id < n ∧ result report.id = some report := by
  rw [List.mem_filterMap]
  constructor
  · rintro ⟨id, hid, hresult⟩
    rw [List.mem_range] at hid
    rw [h id hid report hresult]
    exact ⟨hid, hresult⟩
  · rintro ⟨hid, hresult⟩
    exact ⟨report.id, List.mem_range.mpr hid, hresult⟩

/-- In the order of the workers, the numbers of the reports increase. -/
theorem Numbered.increasing (h : Numbered n result) :
    ((List.range n).filterMap result).Pairwise fun a b => a.id < b.id := by
  rw [List.pairwise_filterMap]
  refine List.pairwise_lt_range.imp_of_mem fun {i j} hi hj hlt a ha b hb => ?_
  rw [h i (List.mem_range.mp hi) a ha, h j (List.mem_range.mp hj) b hb]
  exact hlt

/-- **The order in which the workers finish does not matter.** -/
theorem collect_of_perm (h : Numbered n result) (horder : order.Perm (List.range n)) :
    collect (order.map result) =
      ⟨(List.range n).filterMap result, (List.range n).countP fun id => (result id).isNone⟩ := by
  rw [collect_map, horder.countP_eq]
  have hperm := (List.mergeSort_perm (order.filterMap result)
    fun a b => a.id ≤ b.id).trans (horder.filterMap result)
  have hsorted := @List.pairwise_mergeSort _ (fun a b : WorkerReport => a.id ≤ b.id)
    (fun a b c hab hbc => by simp only [decide_eq_true_eq] at hab hbc ⊢; omega)
    (fun a b => by simp only [Bool.or_eq_true, decide_eq_true_eq]; omega)
    (order.filterMap result)
  congr 1
  -- no two reports have one number, so there is one sorted list of them
  refine hperm.eq_of_pairwise (fun a b ha hb hab hba => ?_) hsorted
    (h.increasing.imp fun hlt => decide_eq_true hlt.le)
  obtain ⟨-, ha⟩ := (h.mem_iff a).mp (hperm.mem_iff.mp ha)
  obtain ⟨-, hb⟩ := (h.mem_iff b).mp hb
  simp only [decide_eq_true_eq] at hab hba
  rw [le_antisymm hab hba, hb] at ha
  exact (Option.some.inj ha).symm

/-- The reports are those of the workers that leave one. -/
theorem Numbered.map_id (h : Numbered n result) :
    ((List.range n).filterMap result).map (·.id) =
      (List.range n).filter fun id => (result id).isSome := by
  rw [List.map_filterMap, ← List.filterMap_eq_filter]
  refine List.filterMap_congr fun id hid => ?_
  cases hresult : result id with
  | none => simp [Option.guard, hresult]
  | some report => simp [Option.guard, hresult, h id (List.mem_range.mp hid) report hresult]

/-- **Every worker is there once**, with a report or among the aborted ones. -/
theorem ids_perm (h : Numbered n result) :
    (((List.range n).filterMap result).map (·.id) ++
      (List.range n).filter fun id => (result id).isNone).Perm (List.range n) := by
  have hrest : (fun id => (result id).isNone) = fun id => !(result id).isSome :=
    funext fun id => (Option.not_isSome (result id)).symm
  rw [h.map_id, hrest]
  exact List.filter_append_perm (fun id => (result id).isSome) (List.range n)

/-! ## The whole load -/

/-- What a summary says of `n` workers, given what each of them leaves. -/
structure Covers (n : Nat) (result : Nat → Option WorkerReport) (s : LoadSummary) : Prop where
  /-- The reports stand in the order of the workers. -/
  increasing : s.reports.Pairwise fun a b => a.id < b.id
  reports : ∀ report, report ∈ s.reports ↔ ∃ id < n, result id = some report
  /-- The workers with a report and the aborted ones are all the workers, each of them once. -/
  ids : (s.reports.map (·.id) ++ (List.range n).filter fun id => (result id).isNone).Perm
    (List.range n)
  aborted : s.aborted = ((List.range n).filter fun id => (result id).isNone).length
  workers : s.workers = n
  commands : s.commands = (s.reports.map (·.iterations)).sum
  timeouts : s.timeouts = (s.reports.map (·.timeouts)).sum
  failed : s.failed = (s.reports.filter (·.failure.isSome)).length + s.aborted
  failed_le : s.failed ≤ s.workers
  timeouts_le : s.timeouts ≤ s.commands
  commands_le : s.commands ≤ (s.reports.map (·.planned)).sum

theorem commands_eq (s : LoadSummary) : s.commands = (s.reports.map (·.iterations)).sum := by
  rw [commands, List.sum_eq_foldl, List.foldl_map]

theorem timeouts_eq (s : LoadSummary) : s.timeouts = (s.reports.map (·.timeouts)).sum := by
  rw [timeouts, List.sum_eq_foldl, List.foldl_map]

variable {settings : Settings}

/-- What comes of the workers of a load is numbered. -/
theorem numbered (hresult : ∀ id < n, (Worker.ofSettings settings id).MayLeave (result id)) :
    Numbered n result := fun id hid report hreport => by
  obtain ⟨as, haccounted⟩ := (hresult id hid).accounted hreport
  exact haccounted.id

theorem covers (hresult : ∀ id < n, (Worker.ofSettings settings id).MayLeave (result id))
    (horder : order.Perm (List.range n)) : Covers n result (collect (order.map result)) := by
  have hnumbered := numbered hresult
  have haccounted : ∀ report ∈ (List.range n).filterMap result,
      ∃ (w : Worker) (as : List Action), w.Accounted report as := fun report hreport => by
    obtain ⟨hid, hleft⟩ := (hnumbered.mem_iff report).mp hreport
    exact ⟨_, (hresult _ hid).accounted hleft⟩
  have hids := ids_perm hnumbered
  rw [collect_of_perm hnumbered horder, List.countP_eq_length_filter]
  refine
    { increasing := hnumbered.increasing
      reports := fun report => by simp only [List.mem_filterMap, List.mem_range]
      ids := hids
      aborted := rfl
      workers := ?_
      commands := commands_eq _
      timeouts := timeouts_eq _
      failed := by rw [failed, List.countP_eq_length_filter]
      failed_le := Nat.add_le_add_right List.countP_le_length _
      timeouts_le := ?_
      commands_le := ?_ }
  · have hlength := hids.length_eq
    rwa [List.length_append, List.length_map, List.length_range] at hlength
  · rw [timeouts_eq, commands_eq]
    refine List.sum_le_sum fun report hreport => ?_
    obtain ⟨w, as, h⟩ := haccounted report hreport
    exact h.timeouts_le
  · rw [commands_eq]
    refine List.sum_le_sum fun report hreport => ?_
    obtain ⟨w, as, h⟩ := haccounted report hreport
    exact h.iterations_le

/-- **A load is summed up in the same way whatever the order in which its workers finish**, and the
summary counts each of them once. So it does for a load that is run. -/
theorem collect_covers (settings : Settings) (result : Nat → Option WorkerReport)
    (hresult : ∀ id < settings.load.workers,
      (Worker.ofSettings settings id).MayLeave (result id))
    {order : List Nat} (horder : order.Perm (List.range settings.load.workers)) :
    Covers settings.load.workers result (collect (order.map result)) ∧
      (∀ order' : List Nat, order'.Perm (List.range settings.load.workers) →
        collect (order'.map result) = collect (order.map result) ∧
        (collect (order'.map result)).text = (collect (order.map result)).text) ∧
      ∀ {σ : Type} (h : Host σ) (unseeded : Nat → ChaCha) (states : Nat → σ),
        let left := fun id => (runWorker h settings unseeded states id).report
        (runLoad h settings unseeded states).summary = collect (order.map left) ∧
          Covers settings.load.workers left (collect (order.map left)) := by
  refine ⟨covers hresult horder, fun order' horder' => ?_, fun h unseeded states => ?_⟩
  · have heq : collect (order'.map result) = collect (order.map result) := by
      rw [collect_of_perm (numbered hresult) horder', collect_of_perm (numbered hresult) horder]
    exact ⟨heq, congrArg text heq⟩
  · intro left
    have hleft : ∀ id < settings.load.workers, (Worker.ofSettings settings id).MayLeave (left id) :=
      fun id _ => Worker.mayLeave_of_run rfl
    have hrun : (runLoad h settings unseeded states).summary =
        collect ((List.range settings.load.workers).map left) := by
      rw [runLoad, List.map_map]
      rfl
    refine ⟨?_, covers hleft horder⟩
    rw [hrun, collect_of_perm (numbered hleft) (List.Perm.refl _),
      collect_of_perm (numbered hleft) horder]

/-- Three workers: the server keeps silent to one, refuses another one, and the third is aborted. -/
theorem collect_covers_three :
    let settings : Settings := { load := { workers := 3, minIterations := 2, maxIterations := 2 } }
    let silence : WorkerReport := ⟨0, 2, 2, 2, none⟩
    let refusal : WorkerReport := ⟨2, 0, 0, 0, some (.connect settings.address .refused)⟩
    let result := fun id => [some silence, none, some refusal].getD id none
    let summary := collect ([2, 1, 0].map result)
    summary = ⟨[silence, refusal], 1⟩ ∧ Covers 3 result summary ∧
      collect ([1, 0, 2].map result) = summary := by
  intro settings silence refusal result summary
  have hresult : ∀ id < settings.load.workers,
      (Worker.ofSettings settings id).MayLeave (result id) := by
    intro id hid
    have hid : id < 3 := hid
    interval_cases id
    · have hrun : (((Worker.ofSettings settings 0).run (Wire.host none) .listed []).run {}).1 =
          some silence := by decide +kernel
      exact Worker.mayLeave_of_run hrun
    · exact Worker.mayLeave_none
    · have hrun : (((Worker.ofSettings settings 2).run (Wire.host (some .refused)) .listed []).run
          {}).1 = some refusal := by decide +kernel
      exact Worker.mayLeave_of_run hrun
  have horder : [2, 1, 0].Perm (List.range settings.load.workers) := by decide
  obtain ⟨hcovers, horders, -⟩ := collect_covers settings result hresult horder
  refine ⟨?_, hcovers, (horders [1, 0, 2] (by decide)).1⟩
  exact collect_of_perm (numbered hresult) (by decide)

end LoadSummary

end LineClient
