import LineClient.Proofs.Series.Window
import LineClient.Telemetry.Reporter
import Mathlib.Data.List.Basic
import Mathlib.Data.List.Induction
import Mathlib.Tactic.SplitIfs

/-!
# The looks of the reporter

The reporter looks at the series at the multiples of its period, up to the moment at which it is
stopped, and each time it sees the last of the samples that came in before.

* `seenBefore`, the samples that come in before a moment;
* `intake`, what has been taken in by a look, piece by piece; `InOrder.intake_eq`, all that came in
  before;
* `reportsFrom_eq`, `reportLoop?_eq`, all that is told, by induction on the looks;
  `InOrder.reportLoop?_filter`, nothing that comes in after the end;
* `ReporterLines`, what the lines of the reporter are; **`reportLoop?_lines`**.
-/

namespace LineClient

/-! ## What comes in before a moment -/

/-- What comes in is in the order of time. -/
def InOrder (incoming : List (Duration × Sample)) : Prop :=
  incoming.Pairwise fun x y => x.1.nanos ≤ y.1.nanos

/-- The samples that come in before a moment. -/
def seenBefore (incoming : List (Duration × Sample)) (time : Duration) : List Sample :=
  (incoming.filter (·.1.nanos < time.nanos)).map (·.2)

/-- What comes in before a moment, and what comes later. -/
def cutAt (incoming : List (Duration × Sample)) (time : Duration) :
    List (Duration × Sample) × List (Duration × Sample) :=
  (incoming.takeWhile (·.1.nanos < time.nanos), incoming.dropWhile (·.1.nanos < time.nanos))

section

variable {incoming : List (Duration × Sample)} {time later : Duration}

theorem seenBefore_eq_nil : seenBefore incoming time = [] ↔
    ∀ x ∈ incoming, time.nanos ≤ x.1.nanos := by
  simp [seenBefore]

/-- The samples before a later moment are those up to the cut and those behind it. -/
theorem seenBefore_split (hle : time.nanos ≤ later.nanos) : seenBefore incoming later =
    (cutAt incoming time).1.map (·.2) ++ seenBefore (cutAt incoming time).2 later := by
  have hearlier : (cutAt incoming time).1.filter (·.1.nanos < later.nanos) =
      (cutAt incoming time).1 := by
    rw [List.filter_eq_self]
    intro x hx
    have hbefore := List.mem_takeWhile_imp hx
    simp only [decide_eq_true_eq] at hbefore ⊢
    omega
  unfold seenBefore
  conv_lhs => rw [← List.takeWhile_append_dropWhile (p := (·.1.nanos < time.nanos)) (l := incoming)]
  rw [List.filter_append, List.map_append]
  exact congrArg (List.map (·.2) · ++ _) hearlier

theorem InOrder.cutAt (h : InOrder incoming) (time : Duration) :
    InOrder (cutAt incoming time).2 := h.sublist (List.dropWhile_sublist _)

/-- Behind the cut there is nothing that comes in before. -/
theorem InOrder.seenBefore_cutAt (h : InOrder incoming) (time : Duration) :
    seenBefore (LineClient.cutAt incoming time).2 time = [] := by
  rw [seenBefore_eq_nil]
  unfold LineClient.cutAt
  induction incoming with
  | nil => simp
  | cons x incoming ih =>
    obtain ⟨hx, hrest⟩ := List.pairwise_cons.mp h
    rw [List.dropWhile_cons]
    split_ifs with hbefore
    · exact ih hrest
    · simp only [decide_eq_true_eq, Nat.not_lt] at hbefore
      intro y hy
      rcases List.mem_cons.mp hy with rfl | hy
      · exact hbefore
      · exact Nat.le_trans hbefore (hx y hy)

end

/-! ## All looks -/

/-- The moment of a look, the look `0` at the beginning. -/
def lookTime (period : Duration) (k : Nat) : Duration := ⟨k * period.nanos⟩

theorem Duration.le_after (time wait : Duration) : time.nanos ≤ (time.after wait).nanos :=
  Nat.le_add_right _ _

theorem Duration.zero_after (d : Duration) : Duration.zero.after d = d := by
  simp [after, Duration.zero]

theorem after_lookTime_zero (period time : Duration) : time.after (lookTime period 0) = time := by
  simp [lookTime, Duration.after]

theorem after_lookTime_succ (period time : Duration) (k : Nat) :
    time.after (lookTime period (k + 1)) = (time.after period).after (lookTime period k) := by
  simp only [lookTime, Duration.after, Duration.mk.injEq, Nat.succ_mul]
  omega

/-- The samples that have been taken in by the look `k`, if the look `0` is at `time`. -/
def intake (period : Duration) : (k : Nat) → (time : Duration) → List (Duration × Sample) →
    List Sample
  | 0, time, incoming => (cutAt incoming time).1.map (·.2)
  | k + 1, time, incoming =>
    (cutAt incoming time).1.map (·.2) ++
      intake period k (time.after period) (cutAt incoming time).2

/-- **What has been taken in is all that came in before**, if it comes in order. -/
theorem InOrder.intake_eq {incoming : List (Duration × Sample)} (h : InOrder incoming)
    (period : Duration) (k : Nat) (time : Duration) :
    intake period k time incoming = seenBefore incoming (time.after (lookTime period k)) := by
  rw [seenBefore_split (time.le_after _)]
  induction k generalizing time incoming with
  | zero => rw [after_lookTime_zero, h.seenBefore_cutAt, List.append_nil, intake]
  | succ k ih =>
    have hrest := ih (h.cutAt time) (time.after period)
    rw [← seenBefore_split (Duration.le_after _ _)] at hrest
    rw [after_lookTime_succ, intake, hrest]

/-- The number of looks from `time` on: one at `time`, if the reporter is not stopped before, and
one at the end of each period that ends before it is stopped. -/
def looksFrom (period stop time : Duration) : Nat :=
  (stop.nanos + period.nanos - time.nanos) / period.nanos

section

variable {period stop : Duration}

theorem nanos_pos (hperiod : period ≠ .zero) : 0 < period.nanos :=
  Nat.pos_of_ne_zero fun h => hperiod (congrArg Duration.mk h)

theorem looksFrom_of_lt {time : Duration} (hperiod : period ≠ .zero)
    (hlt : stop.nanos < time.nanos) : looksFrom period stop time = 0 := by
  have hpos := nanos_pos hperiod
  exact Nat.div_eq_of_lt (by omega)

theorem looksFrom_succ {time : Duration} (hperiod : period ≠ .zero)
    (hle : time.nanos ≤ stop.nanos) :
    looksFrom period stop time = looksFrom period stop (time.after period) + 1 := by
  have hpos := nanos_pos hperiod
  unfold looksFrom Duration.after
  rw [Nat.div_eq_sub_div hpos (by omega)]
  congr 2
  change _ = stop.nanos + period.nanos - (time.nanos + period.nanos)
  omega

theorem looksFrom_zero (hperiod : period ≠ .zero) :
    looksFrom period stop .zero = stop.nanos / period.nanos + 1 := by
  have hzero : Duration.zero.nanos = 0 := rfl
  rw [looksFrom, hzero, Nat.sub_zero, Nat.add_div_right _ (nanos_pos hperiod)]

theorem reportsFrom_of_lt (hperiod : period ≠ .zero) {time : Duration} (series : Series)
    (incoming : List (Duration × Sample)) (hlt : stop.nanos < time.nanos) :
    reportsFrom period hperiod stop time series incoming = [] := by
  rw [reportsFrom, if_pos hlt]

/-- One look, at what has come in since the look before, and then the others. -/
theorem reportsFrom_of_le (hperiod : period ≠ .zero) (limit : Option Nat) (past : List Sample)
    {time : Duration} (incoming : List (Duration × Sample)) (hle : time.nanos ≤ stop.nanos) :
    reportsFrom period hperiod stop time (.after limit past) incoming =
      (time, reportEvent (Series.lastOf limit (past ++ (cutAt incoming time).1.map (·.2)))) ::
        reportsFrom period hperiod stop (time.after period)
          (.after limit (past ++ (cutAt incoming time).1.map (·.2))) (cutAt incoming time).2 := by
  have hseries : (cutAt incoming time).1.foldl (fun (series : Series) x => series.append x.2)
      (.after limit past) = Series.after limit (past ++ (cutAt incoming time).1.map (·.2)) := by
    rw [Series.after, Series.after, List.foldl_append, List.foldl_map]
  rw [← Series.toList_after, ← hseries, reportsFrom, if_neg (Nat.not_lt.mpr hle)]
  rfl

/-- **All that is told from one look on.** The samples of the past are in the series already. -/
theorem reportsFrom_eq (limit : Option Nat) (hperiod : period ≠ .zero) (past : List Sample)
    (time : Duration) (incoming : List (Duration × Sample)) :
    reportsFrom period hperiod stop time (.after limit past) incoming =
      (List.range (looksFrom period stop time)).map fun k => (time.after (lookTime period k),
        reportEvent (Series.lastOf limit (past ++ intake period k time incoming))) := by
  generalize hn : looksFrom period stop time = n
  induction n generalizing past time incoming with
  | zero =>
    rw [List.range_zero, List.map_nil]
    refine reportsFrom_of_lt hperiod _ _ ?_
    by_contra hle
    rw [looksFrom_succ hperiod (Nat.le_of_not_lt hle)] at hn
    exact Nat.succ_ne_zero _ hn
  | succ n ih =>
    have hle : time.nanos ≤ stop.nanos := by
      by_contra hlt
      rw [looksFrom_of_lt hperiod (Nat.lt_of_not_le hlt)] at hn
      exact Nat.succ_ne_zero n hn.symm
    have hnext : looksFrom period stop (time.after period) = n := by
      rw [looksFrom_succ hperiod hle] at hn
      exact Nat.succ_injective hn
    rw [reportsFrom_of_le hperiod limit past incoming hle, ih _ (time.after period) _ hnext,
      List.range_succ_eq_map, List.map_cons, List.map_map]
    congr 1
    · rw [after_lookTime_zero]
      rfl
    · refine List.map_congr_left fun k _ => ?_
      rw [Function.comp_apply, after_lookTime_succ, intake, List.append_assoc]

/-- **All that the reporter tells.** -/
theorem reportLoop?_eq (hperiod : period ≠ .zero) (limit : Option Nat)
    (incoming : List (Duration × Sample)) (stop : Duration) :
    reportLoop? period limit incoming stop =
      some ((List.range (stop.nanos / period.nanos + 1)).map fun k => (lookTime period k,
        reportEvent (Series.lastOf limit (intake period k .zero incoming)))) := by
  have hall : reportsFrom period hperiod stop .zero (.empty limit) incoming = _ :=
    reportsFrom_eq limit hperiod [] .zero incoming
  simp only [looksFrom_zero hperiod, Duration.zero_after, List.nil_append] at hall
  rw [reportLoop?, dif_neg hperiod, hall]

/-- What the reporter sees at each look, if all comes in order. -/
theorem InOrder.reportLoop?_eq {incoming : List (Duration × Sample)} (h : InOrder incoming)
    (hperiod : period ≠ .zero) (limit : Option Nat) (stop : Duration) :
    reportLoop? period limit incoming stop =
      some ((List.range (stop.nanos / period.nanos + 1)).map fun k => (lookTime period k,
        reportEvent (Series.lastOf limit (seenBefore incoming (lookTime period k))))) := by
  rw [LineClient.reportLoop?_eq hperiod]
  simp only [h.intake_eq, Duration.zero_after]

/-- **What comes in after the end is not seen.** -/
theorem InOrder.reportLoop?_filter {incoming : List (Duration × Sample)} (h : InOrder incoming)
    (hperiod : period ≠ .zero) (limit : Option Nat) (stop : Duration) :
    reportLoop? period limit (incoming.filter (·.1.nanos < stop.nanos)) stop =
      reportLoop? period limit incoming stop := by
  have hfilter : InOrder (incoming.filter (·.1.nanos < stop.nanos)) :=
    h.sublist List.filter_sublist
  rw [h.reportLoop?_eq hperiod, hfilter.reportLoop?_eq hperiod]
  refine congrArg some (List.map_congr_left fun k hk => ?_)
  -- the last look is not after the end
  have hle : (lookTime period k).nanos ≤ stop.nanos :=
    Nat.le_trans (Nat.mul_le_mul_right _ (Nat.le_of_lt_succ (List.mem_range.mp hk)))
      (Nat.div_mul_le_self _ _)
  have hseen : seenBefore (incoming.filter (·.1.nanos < stop.nanos)) (lookTime period k) =
      seenBefore incoming (lookTime period k) := by
    unfold seenBefore
    rw [List.filter_filter]
    congr 1
    refine List.filter_congr fun x _ => ?_
    simp only [Bool.and_eq_left_iff_imp, decide_eq_true_eq]
    omega
  rw [hseen]

end

/-! ## The lines -/

theorem exists_report {samples : List Sample} (hne : samples ≠ []) :
    ∃ report, Report.ofSamples? samples = some report := by
  rw [Report.ofSamples?, List.head?_eq_some_head hne, List.getLast?_eq_some_getLast hne]
  exact ⟨_, rfl⟩

theorem reportEvent_eq_noSamples {samples : List Sample} :
    reportEvent samples = noSamples ↔ samples = [] := by
  constructor
  · intro h
    by_contra hne
    obtain ⟨report, hreport⟩ := exists_report hne
    rw [reportEvent, hreport] at h
    exact absurd (congrArg Event.level h) (by simp [noSamples])
  · rintro rfl
    rfl

/-- What the reporter tells until it is stopped, if it keeps as many samples as `limit` says. -/
structure ReporterLines (period : Duration) (limit : Option Nat)
    (incoming : List (Duration × Sample)) (stop : Duration) (lines : List (Duration × Event)) :
    Prop where
  length : lines.length = stop.nanos / period.nanos + 1
  /-- The line of a look is about the last samples of those that came in before. -/
  line : ∀ k (hk : k < lines.length), lines[k] =
    (lookTime period k,
      reportEvent (Series.lastOf limit (seenBefore incoming (lookTime period k))))
  /-- It is a report whenever anything came in before. -/
  report : ∀ k (hk : k < lines.length), seenBefore incoming (lookTime period k) ≠ [] →
    ∃ report, Report.ofSamples? (Series.lastOf limit
        (seenBefore incoming (lookTime period k))) = some report ∧
      lines[k].2 = { level := .info, source := .telemetry, message := report.text }
  /-- It says that there is nothing just if nothing came in before. -/
  nothing : ∀ k (hk : k < lines.length), lines[k].2 = noSamples ↔
    ∀ x ∈ incoming, (lookTime period k).nanos ≤ x.1.nanos
  /-- After a report there is always one. -/
  stays : ∀ j k (hj : j < lines.length) (hk : k < lines.length), j ≤ k →
    lines[j].2 ≠ noSamples → lines[k].2 ≠ noSamples
  /-- What comes in after the end is not seen. -/
  late : reportLoop? period limit (incoming.filter (·.1.nanos < stop.nanos)) stop = some lines

/-- **The reporter looks at each multiple of its period until it is stopped, and sees the last of
the samples that came in before.** -/
theorem reportLoop?_lines {period : Duration} (hperiod : period ≠ .zero) (limit : Option Nat)
    {incoming : List (Duration × Sample)} (hincoming : InOrder incoming) (stop : Duration) :
    ∃ lines, reportLoop? period limit incoming stop = some lines ∧
      ReporterLines period limit incoming stop lines := by
  have hlines := hincoming.reportLoop?_eq hperiod limit stop
  refine ⟨_, hlines, ?_⟩
  have hnothing (k : Nat) : reportEvent (Series.lastOf limit
      (seenBefore incoming (lookTime period k))) = noSamples ↔
        ∀ x ∈ incoming, (lookTime period k).nanos ≤ x.1.nanos := by
    rw [reportEvent_eq_noSamples, Series.lastOf_eq_nil, seenBefore_eq_nil]
  refine
    { length := by simp
      line := fun k hk => by simp
      report := fun k hk hne => ?_
      nothing := fun k hk => ?_
      stays := fun j k hj hk hle hreport hnone => ?_
      late := (hincoming.reportLoop?_filter hperiod limit stop).trans hlines }
  · obtain ⟨report, hreport⟩ := exists_report (Series.lastOf_ne_nil limit hne)
    refine ⟨report, hreport, ?_⟩
    simp only [List.getElem_map, List.getElem_range, reportEvent, hreport]
  · simpa using hnothing k
  · simp only [List.getElem_map, List.getElem_range] at hreport hnone
    refine hreport ((hnothing j).mpr fun x hx => ?_)
    exact Nat.le_trans (Nat.mul_le_mul_right _ hle) ((hnothing k).mp hnone x hx)

/-- Four looks at a series of two samples. The first one comes before any sample, and the last
sample comes in too late for the last one. -/
theorem reportLoop?_lines_four :
    let x (nanos : Nat) : Duration × Sample := (⟨nanos⟩, ⟨⟨nanos⟩, .zero⟩)
    let incoming := [x 3, x 12, x 14, x 27, x 33]
    ∃ lines, reportLoop? ⟨10⟩ (some 2) incoming ⟨35⟩ = some lines ∧
      ReporterLines ⟨10⟩ (some 2) incoming ⟨35⟩ lines ∧ lines.length = 4 ∧
      lines[0]? = some (⟨0⟩, noSamples) ∧
      lines[3]? = some (⟨30⟩, reportEvent [(x 14).2, (x 27).2]) := by
  intro x incoming
  have hincoming : InOrder incoming := by simp [InOrder, incoming, x]
  have hperiod : (⟨10⟩ : Duration) ≠ .zero := by decide
  obtain ⟨lines, hlines, hall⟩ := reportLoop?_lines hperiod (some 2) hincoming ⟨35⟩
  have hlength : lines.length = 4 := hall.length
  refine ⟨lines, hlines, hall, hlength, ?_, ?_⟩
  · rw [List.getElem?_eq_getElem (by omega), hall.line 0 (by omega)]
    rfl
  · rw [List.getElem?_eq_getElem (by omega), hall.line 3 (by omega)]
    rfl

end LineClient
