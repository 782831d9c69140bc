import LineClient.Link.Stage
import LineClient.Proofs.Binary64.Order
import LineClient.Proofs.Reading.Grammar
import LineClient.Proofs.Series.Window
import LineClient.Proofs.Telemetry.Replies
import LineClient.Series.Report
import LineClient.Telemetry.Mode
import Mathlib.Algebra.Order.Group.MinMax

/-!
# What a report says

The extremes of a report are the smallest and the largest of the values that are numbers, whatever
their order. If there are none, they are the infinities that the search for them begins with.

* `Picks`, `Extreme`, the search for the smallest value by some measure; `Picks.foldl_extreme`, what
  it finds; `Extreme.exists_mem`, it does not find its beginning unless this is a value;
* `Extreme.eq_of_mem_iff`, `Extreme.append`, the order of the values does not matter;
* `Report.extremes`, `Report.number_of_perm`, `Report.number_append`, the extremes of a report;
* `Report.Summarises`, `Report.summarises`, what a report says about samples;
* **`Report.ofSamples?_spec`**, reports on any samples, and on those of a reader.
-/

namespace LineClient

open Binary64

/-! ## The search for an extreme -/

/-- A function that takes the number with the smaller measure, and a number instead of a NaN. -/
def Picks (f : Binary64 → ℚ) (pick : Binary64 → Binary64 → Binary64) : Prop :=
  ∀ x y, x.isNaN = false → pick x y = if y.isNaN then x else if f y < f x then y else x

/-- The number with the smallest measure among `start` and the values. -/
structure Extreme (f : Binary64 → ℚ) (start : Binary64) (samples : List Sample) (m : Binary64) :
    Prop where
  isNumber : m.isNaN = false
  mem : m = start ∨ ∃ x ∈ samples, x.value = m
  le_iff (q : ℚ) : q ≤ f m ↔ q ≤ f start ∧ ∀ x ∈ samples, x.value.isNaN = false → q ≤ f x.value

theorem picks_least : Picks number least := fun _ _ => least_eq_ite

theorem picks_greatest : Picks (fun x => -x.number) greatest := fun x y hx => by
  simp only [neg_lt_neg_iff]
  exact greatest_eq_ite hx

section

variable {f : Binary64 → ℚ} {pick : Binary64 → Binary64 → Binary64} {x start m : Binary64}
  {samples : List Sample}

/-- One step of the search. -/
theorem Picks.step (h : Picks f pick) (hx : x.isNaN = false) (y : Binary64) :
    (pick x y).isNaN = false ∧ (pick x y = x ∨ pick x y = y) ∧
      ∀ q, q ≤ f (pick x y) ↔ q ≤ f x ∧ (y.isNaN = false → q ≤ f y) := by
  rw [h x y hx]
  split_ifs with hy hlt
  · exact ⟨hx, .inl rfl, fun q => by simp [hy]⟩
  · have hy' : y.isNaN = false := Bool.eq_false_of_not_eq_true hy
    exact ⟨hy', .inr rfl, fun q => ⟨fun hq => ⟨hq.trans hlt.le, fun _ => hq⟩, fun hq => hq.2 hy'⟩⟩
  · have hle : f x ≤ f y := not_lt.mp hlt
    exact ⟨hx, .inl rfl, fun q => ⟨fun hq => ⟨hq, fun _ => hq.trans hle⟩, fun hq => hq.1⟩⟩

/-- **The whole search**, by induction on the samples, from any number on. -/
theorem Picks.foldl_extreme (h : Picks f pick) (hstart : start.isNaN = false)
    (samples : List Sample) :
    Extreme f start samples (samples.foldl (fun x s => pick x s.value) start) := by
  induction samples generalizing start with
  | nil => exact ⟨hstart, .inl rfl, fun q => by simp⟩
  | cons s samples ih =>
    obtain ⟨hnumber, hpick, hle⟩ := h.step hstart s.value
    obtain ⟨hnumber', hmem, hle'⟩ := ih hnumber
    refine ⟨hnumber', ?_, fun q => ?_⟩
    · rcases hmem with heq | ⟨x, hx, hvalue⟩
      · rw [List.foldl_cons, heq]
        exact hpick.imp id fun hs => ⟨s, List.mem_cons_self, hs.symm⟩
      · exact .inr ⟨x, List.mem_cons_of_mem s hx, hvalue⟩
    · rw [List.foldl_cons, hle', hle, List.forall_mem_cons, and_assoc]

namespace Extreme

theorem le_of_mem (h : Extreme f start samples m) {x : Sample} (hx : x ∈ samples)
    (hnumber : x.value.isNaN = false) : f m ≤ f x.value :=
  ((h.le_iff _).mp le_rfl).2 x hx hnumber

/-- The number is one of the values, even if none of them is smaller than the beginning. -/
theorem exists_mem (h : Extreme f start samples m)
    (hstart : ∀ y, y.isNaN = false → f start ≤ f y → y = start)
    (hsome : ∃ x ∈ samples, x.value.isNaN = false) : ∃ x ∈ samples, x.value = m := by
  rcases h.mem with rfl | hmem
  · obtain ⟨x, hx, hnumber⟩ := hsome
    exact ⟨x, hx, hstart x.value hnumber (h.le_of_mem hx hnumber)⟩
  · exact hmem

theorem eq_start (h : Extreme f start samples m)
    (hnone : ∀ x ∈ samples, x.value.isNaN = true) : m = start := by
  refine h.mem.resolve_right ?_
  rintro ⟨x, hx, rfl⟩
  exact Bool.false_ne_true (h.isNumber.symm.trans (hnone x hx))

/-- **The order of the values does not matter.** -/
theorem eq_of_mem_iff {samples' : List Sample} {m' : Binary64} (h : Extreme f start samples m)
    (h' : Extreme f start samples' m') (hsame : ∀ x, x ∈ samples ↔ x ∈ samples') : f m = f m' := by
  refine eq_of_forall_le_iff fun q => ?_
  rw [h.le_iff, h'.le_iff]
  simp only [hsame]

theorem append {samples' : List Sample} {m' m'' : Binary64} (h : Extreme f start samples m)
    (h' : Extreme f start samples' m') (h'' : Extreme f start (samples ++ samples') m'') :
    f m'' = min (f m) (f m') := by
  refine eq_of_forall_le_iff fun q => ?_
  rw [le_min_iff, h.le_iff, h'.le_iff, h''.le_iff, List.forall_mem_append, and_and_left]

end Extreme

end

/-! ## Reports -/

namespace Report

variable {samples : List Sample} {r : Report}

theorem leastOf_extreme (samples : List Sample) :
    Extreme number .infinity samples (leastOf samples) :=
  picks_least.foldl_extreme (by decide) samples

theorem greatestOf_extreme (samples : List Sample) :
    Extreme (fun x => -x.number) .negInfinity samples (greatestOf samples) :=
  picks_greatest.foldl_extreme (by decide) samples

theorem ofSamples?_eq_some_iff : ofSamples? samples = some r ↔ ∃ first last,
    samples.head? = some first ∧ samples.getLast? = some last ∧
      r = ⟨samples.length, last.time.since first.time, last.value, leastOf samples,
        greatestOf samples⟩ := by
  unfold ofSamples?
  cases samples.head? <;> cases samples.getLast? <;> simp [eq_comm]

theorem ofSamples?_eq_none_iff : ofSamples? samples = none ↔ samples = [] := by
  cases samples with
  | nil => simp [ofSamples?]
  | cons x samples => simp [ofSamples?, List.getLast?_cons]

theorem extremes (h : ofSamples? samples = some r) : Extreme number .infinity samples r.least ∧
    Extreme (fun x => -x.number) .negInfinity samples r.greatest := by
  obtain ⟨first, last, -, -, rfl⟩ := ofSamples?_eq_some_iff.mp h
  exact ⟨leastOf_extreme samples, greatestOf_extreme samples⟩

/-- The same samples in another order have the same extremes. -/
theorem number_of_perm {samples' : List Sample} {r' : Report} (hperm : samples.Perm samples')
    (h : ofSamples? samples = some r) (h' : ofSamples? samples' = some r') :
    r.least.number = r'.least.number ∧ r.greatest.number = r'.greatest.number := by
  obtain ⟨hleast, hgreatest⟩ := extremes h
  obtain ⟨hleast', hgreatest'⟩ := extremes h'
  have hmem (x : Sample) : x ∈ samples ↔ x ∈ samples' := hperm.mem_iff
  exact ⟨hleast.eq_of_mem_iff hleast' hmem, neg_inj.mp (hgreatest.eq_of_mem_iff hgreatest' hmem)⟩

theorem number_append {samples' : List Sample} {r' r'' : Report} (h : ofSamples? samples = some r)
    (h' : ofSamples? samples' = some r') (h'' : ofSamples? (samples ++ samples') = some r'') :
    r''.least.number = min r.least.number r'.least.number ∧
      r''.greatest.number = max r.greatest.number r'.greatest.number := by
  obtain ⟨hleast, hgreatest⟩ := extremes h
  obtain ⟨hleast', hgreatest'⟩ := extremes h'
  obtain ⟨hleast'', hgreatest''⟩ := extremes h''
  refine ⟨hleast.append hleast' hleast'', neg_inj.mp ?_⟩
  rw [← min_neg_neg]
  exact hgreatest.append hgreatest' hgreatest''

/-- What a report says about samples. Values are compared as numbers. -/
structure Summarises (r : Report) (samples : List Sample) : Prop where
  count : r.count = samples.length
  latest : ∃ last, samples.getLast? = some last ∧ r.latest = last.value
  /-- The span is cut off at zero when the last sample is older than the first. -/
  span : ∃ first last, samples.head? = some first ∧ samples.getLast? = some last ∧
    (r.span.nanos : ℤ) = max 0 ((last.time.nanos : ℤ) - first.time.nanos)
  isNumber : r.least.isNaN = false ∧ r.greatest.isNaN = false
  bounds : ∀ x ∈ samples, x.value.isNaN = false →
    r.least.number ≤ x.value.number ∧ x.value.number ≤ r.greatest.number
  values : (∃ x ∈ samples, x.value.isNaN = false) →
    (∃ x ∈ samples, x.value = r.least) ∧ ∃ x ∈ samples, x.value = r.greatest
  nothing : (∀ x ∈ samples, x.value.isNaN = true) →
    r.least = .infinity ∧ r.greatest = .negInfinity
  between : r.latest.isNaN = false →
    r.least.number ≤ r.latest.number ∧ r.latest.number ≤ r.greatest.number

/-- **A report says what there is to say.** -/
theorem summarises (h : ofSamples? samples = some r) : r.Summarises samples := by
  obtain ⟨hleast, hgreatest⟩ := extremes h
  obtain ⟨first, last, hfirst, hlast, rfl⟩ := ofSamples?_eq_some_iff.mp h
  have hbounds : ∀ x ∈ samples, x.value.isNaN = false →
      (leastOf samples).number ≤ x.value.number ∧ x.value.number ≤ (greatestOf samples).number :=
    fun x hx hnumber =>
      ⟨hleast.le_of_mem hx hnumber, neg_le_neg_iff.mp (hgreatest.le_of_mem hx hnumber)⟩
  exact
    { count := rfl
      latest := ⟨last, hlast, rfl⟩
      span := ⟨first, last, hfirst, hlast, by simp only [Duration.since]; omega⟩
      isNumber := ⟨hleast.isNumber, hgreatest.isNumber⟩
      bounds := hbounds
      values := fun hsome =>
        ⟨hleast.exists_mem (fun y hy => eq_infinity hy) hsome,
          hgreatest.exists_mem (fun y hy hle => eq_negInfinity hy (neg_le_neg_iff.mp hle)) hsome⟩
      nothing := fun hnone => ⟨hleast.eq_start hnone, hgreatest.eq_start hnone⟩
      between := hbounds last (List.mem_of_getLast? hlast) }

end Report

/-! ## Readers -/

/-- **A reader records no NaN.** -/
theorem Supervision.run_isNaN {σ : Type} (r : Reader) (h : Host σ) (rounds : Nat)
    (state : Supervision) (s : σ) :
    ∀ x ∈ ((run r h rounds state).run s).2.1.samples, x.value.isNaN = false := by
  intro x hx
  obtain ⟨text, hread⟩ := exists_reading r h rounds state s x hx
  exact isNaN_of_readingAmong? hread

/-- The samples that a series keeps are among those that were recorded. -/
theorem Record.mem_samples_of_series {part record : Record} (hpart : part <+: record)
    {limit : Option Nat} {x : Sample} (hx : x ∈ (part.series limit).toList) :
    x ∈ record.samples := by
  rw [Record.series, Series.toList_foldl_append] at hx
  exact (hpart.filterMap _).subset ((Series.lastOf_suffix limit _).subset hx)

/-- **Reports say what there is to say**, whatever the values and the times are. The extremes do not
depend on the order of the samples, and those of two lists are found among the extremes of each. The
latest value of a reader is always between them. -/
theorem Report.ofSamples?_spec :
    (∀ samples, ofSamples? samples = none ↔ samples = []) ∧
      (∀ samples r, ofSamples? samples = some r → r.Summarises samples) ∧
      (∀ xs ys r r', xs.Perm ys → ofSamples? xs = some r → ofSamples? ys = some r' →
        r.least.number = r'.least.number ∧ r.greatest.number = r'.greatest.number) ∧
      (∀ xs ys r r' r'', ofSamples? xs = some r → ofSamples? ys = some r' →
        ofSamples? (xs ++ ys) = some r'' →
          r''.least.number = min r.least.number r'.least.number ∧
            r''.greatest.number = max r.greatest.number r'.greatest.number) ∧
      ∀ {σ : Type} (reader : Reader) (h : Host σ) (rounds : Nat) (state : Supervision) (s : σ),
        ∀ part : Record, part <+: ((Supervision.run reader h rounds state).run s).2.1 → ∀ limit r,
          ofSamples? (part.series limit).toList = some r → r.latest.isNaN = false ∧
            r.least.number ≤ r.latest.number ∧ r.latest.number ≤ r.greatest.number := by
  refine ⟨fun _ => ofSamples?_eq_none_iff, fun _ _ => summarises, fun _ _ _ _ => number_of_perm,
    fun _ _ _ _ _ => number_append, fun reader h rounds state s part hpart limit r hr => ?_⟩
  have hsummary := summarises hr
  obtain ⟨last, hlast, hlatest⟩ := hsummary.latest
  have hrecorded := Record.mem_samples_of_series hpart (List.mem_of_getLast? hlast)
  have hnumber : r.latest.isNaN = false :=
    hlatest ▸ Supervision.run_isNaN reader h rounds state s last hrecorded
  exact ⟨hnumber, hsummary.between hnumber⟩

/-- Samples that run backwards in time, with a NaN, infinity and two zeros. The zeros take each
other's place when the order changes, and the NaN is not the greatest value. A reader of two
readings keeps the second one. -/
theorem Report.ofSamples?_spec_some :
    let xs : List Sample := [⟨.ofMillis 9, .nan⟩, ⟨.ofMillis 7, .zero⟩]
    let ys : List Sample := [⟨.ofMillis 5, .infinity⟩, ⟨.ofMillis 1, .ofRank true 0⟩]
    let reader := Reader.ofSettings {}
    let script : Script := { steps := [.reply (utf8Bytes "temp: 2"), .reply (utf8Bytes "temp:1")] }
    let s : Stage := { address := reader.address, reach := .scripts script [] }
    let record := ((Supervision.run reader Stage.host 6 .begin).run s).2.1
    (∃ r r', ofSamples? (xs ++ ys) = some r ∧ ofSamples? (ys ++ xs) = some r' ∧
        r.Summarises (xs ++ ys) ∧ r.span = .zero ∧ r.least = .zero ∧ r'.least = .ofRank true 0 ∧
        r.least.number = r'.least.number ∧
        r.greatest.number = max Binary64.zero.number infinity.number) ∧
      ∃ r, ofSamples? (record.series (some 1)).toList = some r ∧ r.latest = .ofNat 1 ∧
        r.least.number ≤ r.latest.number := by
  intro xs ys reader script s record
  obtain ⟨-, hsummary, hperm, happend, hreader⟩ := ofSamples?_spec
  have hsame := hperm (xs ++ ys) (ys ++ xs) _ _ (by decide) rfl rfl
  have hboth := happend xs ys _ _ _ rfl rfl rfl
  refine ⟨⟨_, _, rfl, rfl, hsummary _ _ rfl, by decide, by decide, by decide, hsame.1, hboth.2⟩, ?_⟩
  obtain ⟨r, hr, hlatest⟩ : ∃ r, ofSamples? (record.series (some 1)).toList = some r ∧
      r.latest = .ofNat 1 := by
    refine ⟨⟨1, .zero, .ofNat 1, .ofNat 1, .ofNat 1⟩, ?_, rfl⟩
    decide +kernel
  have hlast := hreader reader Stage.host 6 .begin s record List.prefix_rfl (some 1) r hr
  exact ⟨r, hr, hlatest, hlast.2.1⟩

end LineClient
