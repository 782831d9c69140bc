import LineClient.Proofs.Series.Retention
import LineClient.Series.Handles

/-!
# A shared series is one sliding window

Whatever handles there are, and in whatever order they are used, the series is told by the list of
all samples recorded so far through any of them: it holds the last ones of this list, and every step
answers accordingly.

* `SharedSeries.recorded`, `SharedSeries.handlesAfter`, what steps record and how many handles they
  leave; `SharedSeries.Handled`, steps through handles that are there;
* `SharedSeries.told`, what a step answers, told by the samples recorded before it;
* `SharedSeries.take?_reached`, **`SharedSeries.course_take`**, where one step and all steps lead;
* `SharedSeries.SlidingWindow`; **`SharedSeries.answers_window`**: the answers, the contents, and
  how a later snapshot follows from an earlier one.
-/

namespace LineClient

namespace Series

variable {α : Type} (limit : Option Nat)

theorem lastOf_nil : lastOf limit ([] : List α) = [] := by
  cases limit with
  | none => rfl
  | some n => simp [lastOf]

theorem lastOf_suffix (xs : List α) : lastOf limit xs <:+ xs := by
  cases limit with
  | none => exact List.suffix_refl xs
  | some n => exact List.drop_suffix _ xs

theorem length_lastOf (xs : List α) : (lastOf limit xs).length =
    (limit.map fun n => min xs.length (max n 1)).getD xs.length := by
  cases limit with
  | none => rfl
  | some n =>
    simp only [lastOf, List.rtake, List.length_drop, Option.map_some, Option.getD_some]
    omega

theorem lastOf_ne_nil {xs : List α} (h : xs ≠ []) : lastOf limit xs ≠ [] := by
  have hpos := List.length_pos_iff.mpr h
  have hlength := length_lastOf limit xs
  intro hnil
  rw [hnil] at hlength
  cases limit with
  | none => simp at hlength; omega
  | some n => simp at hlength; omega

theorem lastOf_eq_nil {xs : List α} : lastOf limit xs = [] ↔ xs = [] := by
  constructor
  · intro h
    by_contra hne
    exact lastOf_ne_nil limit hne h
  · rintro rfl
    exact lastOf_nil limit

/-- A later window holds nothing that an earlier one has lost. -/
theorem lastOf_append_suffix (xs ys : List α) :
    lastOf limit (xs ++ ys) <:+ lastOf limit xs ++ ys := by
  cases limit with
  | none => exact List.suffix_refl _
  | some n =>
    have hdrop : xs.drop (xs.length - max 1 n) ++ ys = (xs ++ ys).drop (xs.length - max 1 n) :=
      (List.drop_append_of_le_length (by omega)).symm
    simp only [lastOf, List.rtake, hdrop, List.length_append]
    exact List.drop_suffix_drop_left _ (by omega)

theorem getLast?_lastOf (xs : List α) : (lastOf limit xs).getLast? = xs.getLast? := by
  by_cases h : xs = []
  · rw [h, lastOf_nil]
  · obtain ⟨before, hbefore⟩ := lastOf_suffix limit xs
    conv_rhs => rw [← hbefore]
    rw [List.getLast?_append_of_ne_nil _ (lastOf_ne_nil limit h)]

/-! ## A series by the samples that it was given -/

/-- The series after some samples. -/
def after (xs : List Sample) : Series := xs.foldl append (empty limit)

variable (xs : List Sample)

theorem after_concat (x : Sample) : (after limit xs).append x = after limit (xs ++ [x]) := by
  rw [after, after, List.foldl_append]
  rfl

theorem limit_after : (after limit xs).limit = limit := by rw [after, foldl_append]

theorem toList_after : (after limit xs).toList = lastOf limit xs := toList_foldl_append limit xs

theorem length_after : (after limit xs).length = (lastOf limit xs).length := by
  rw [← toList_after, toList, List.length_reverse]
  rfl

theorem latest?_after : (after limit xs).latest? = xs.getLast? := by
  rw [← getLast?_lastOf limit, ← toList_after, toList, List.getLast?_reverse]
  rfl

theorem isEmpty_after : (after limit xs).isEmpty = xs.isEmpty := by
  have hlist : (after limit xs).isEmpty = (lastOf limit xs).isEmpty := by
    rw [← toList_after, toList, List.isEmpty_reverse]
    rfl
  rw [hlist]
  by_cases h : xs = []
  · rw [h, lastOf_nil]
  · rw [List.isEmpty_eq_false_iff.mpr h, List.isEmpty_eq_false_iff.mpr (lastOf_ne_nil limit h)]

end Series

namespace SharedSeries

/-! ## What is told by the steps so far -/

/-- The sample that a step records. -/
def Step.sample? : Step → Option Sample
  | .append x => some x
  | _ => none

/-- The samples that steps record, through whatever handle. -/
def recorded (steps : List (Nat × Step)) : List Sample := steps.filterMap (·.2.sample?)

/-- The number of handles after steps. -/
def handlesAfter (steps : List (Nat × Step)) : Nat := steps.countP (·.2 = .share) + 1

/-- Every step is through a handle that is there by then. -/
def Handled (steps : List (Nat × Step)) : Prop :=
  ∀ n (hn : n < steps.length), steps[n].1 < handlesAfter (steps.take n)

instance (steps : List (Nat × Step)) : Decidable (Handled steps) :=
  inferInstanceAs (Decidable (∀ n (_ : n < steps.length), _ < _))

/-- What a step answers after steps that are past. -/
def told (limit : Option Nat) (past : List (Nat × Step)) : Step → Answer
  | .append x => .count (Series.lastOf limit (recorded past ++ [x])).length
  | .snapshot => .samples (Series.lastOf limit (recorded past))
  | .latest => .sample (recorded past).getLast?
  | .length => .count (Series.lastOf limit (recorded past)).length
  | .isEmpty => .flag (recorded past).isEmpty
  | .share => .count (handlesAfter past)
  | .report => .report (Report.ofSamples? (Series.lastOf limit (recorded past)))

theorem recorded_append (steps more : List (Nat × Step)) :
    recorded (steps ++ more) = recorded steps ++ recorded more := List.filterMap_append

theorem recorded_take {m n : Nat} (h : m ≤ n) (steps : List (Nat × Step)) :
    recorded (steps.take n) = recorded (steps.take m) ++ recorded ((steps.take n).drop m) := by
  have hsplit := List.take_append_drop m (steps.take n)
  rw [List.take_take, Nat.min_eq_left h] at hsplit
  rw [← recorded_append, hsplit]

theorem Handled.take {steps : List (Nat × Step)} (h : Handled steps) (n : Nat) :
    Handled (steps.take n) := by
  intro m hm
  rw [List.length_take] at hm
  have hstep := h m (by omega)
  rwa [List.getElem_take, List.take_take, Nat.min_eq_left (by omega)]

/-! ## Where steps lead -/

/-- The series after steps: all handles have the same limit with the same samples. -/
def reached (limit : Option Nat) (steps : List (Nat × Step)) : SharedSeries where
  newestFirst := (Series.after limit (recorded steps)).newestFirst
  limits := List.replicate (handlesAfter steps) limit

variable (limit : Option Nat) {steps : List (Nat × Step)}

theorem seen?_reached {handle : Nat} (h : handle < handlesAfter steps) :
    (reached limit steps).seen? handle = some (Series.after limit (recorded steps)) := by
  have hlimit := Series.limit_after limit (recorded steps)
  simp only [seen?, reached, List.getElem?_replicate, if_pos h, Option.map_some]
  generalize Series.after limit (recorded steps) = series at hlimit
  subst hlimit
  rfl

/-- **One step leads on as told.** -/
theorem take?_reached {handle : Nat} (step : Step) (h : handle < handlesAfter steps) :
    (reached limit steps).take? handle step =
      some (told limit steps step, reached limit (steps ++ [(handle, step)])) := by
  -- Only two kinds of steps change anything.
  have hsame (hsample : step.sample? = none) (hshare : step ≠ .share) :
      reached limit (steps ++ [(handle, step)]) = reached limit steps := by
    simp [reached, recorded, handlesAfter, hsample, hshare]
  rw [take?, seen?_reached limit h, Option.map_some]
  congr 1
  cases step with
  | append x =>
    simp only [take, told, Series.after_concat, Series.length_after]
    simp [reached, recorded, Step.sample?, handlesAfter]
  | snapshot => rw [hsame rfl (by simp), take, Series.toList_after, told]
  | latest => rw [hsame rfl (by simp), take, Series.latest?_after, told]
  | length => rw [hsame rfl (by simp), take, Series.length_after, told]
  | isEmpty => rw [hsame rfl (by simp), take, Series.isEmpty_after, told]
  | report => rw [hsame rfl (by simp), take, Series.toList_after, told]
  | share =>
    simp only [take, told, Series.limit_after]
    simp [reached, recorded, Step.sample?, handlesAfter, List.replicate_succ']

theorem course_append (s : SharedSeries) (steps more : List (Nat × Step)) :
    s.course (steps ++ more) = ((s.course steps).1 ++ ((s.course steps).2.course more).1,
      ((s.course steps).2.course more).2) := by
  induction steps generalizing s with
  | nil => rfl
  | cons first steps ih =>
    obtain ⟨handle, step⟩ := first
    simp only [List.cons_append, course]
    cases s.take? handle step with
    | none => exact ih s
    | some taken => simp only [ih, List.cons_append]

/-- **Steps from a new series lead where the recorded samples tell.** -/
theorem course_take (h : Handled steps) {n : Nat} (hn : n ≤ steps.length) :
    ((new limit).course (steps.take n)).2 = reached limit (steps.take n) ∧
      ((new limit).course (steps.take n)).1.length = n := by
  induction n with
  | zero => exact ⟨rfl, rfl⟩
  | succ n ih =>
    obtain ⟨hcourse, hlength⟩ := ih (by omega)
    have hnext := (List.take_succ_eq_append_getElem hn).symm
    have hstep := take?_reached limit steps[n].2 (h n hn)
    rw [hnext] at hstep
    rw [← hnext, course_append, hcourse]
    simp [course, hstep, hlength]

theorem course_new (h : Handled steps) : ((new limit).course steps).2 = reached limit steps := by
  have hcourse := (course_take limit h (Nat.le_refl _)).1
  rwa [List.take_length] at hcourse

theorem length_answers (h : Handled steps) :
    ((new limit).answers steps).length = steps.length := by
  have hlength := (course_take limit h (Nat.le_refl _)).2
  rwa [List.take_length] at hlength

/-- The answer to a step is told by the steps before it. -/
theorem answers_getElem? (h : Handled steps) (n : Nat) (hn : n < steps.length) :
    ((new limit).answers steps)[n]? = some (told limit (steps.take n) steps[n].2) := by
  obtain ⟨hcourse, hlength⟩ := course_take limit h (Nat.le_of_lt hn)
  have hstep := take?_reached limit steps[n].2 (h n hn)
  have hsplit : steps = steps.take n ++ steps[n] :: steps.drop (n + 1) := by simp
  unfold answers
  conv_lhs => rw [hsplit]
  rw [course_append, hcourse, List.getElem?_append_right (by omega), hlength, Nat.sub_self]
  simp only [course, hstep]
  rfl

/-! ## The window -/

/-- A series that is shared by any number of handles acts as one window on the samples recorded
through all of them. -/
structure SlidingWindow (steps : List (Nat × Step)) : Prop where
  length : ((new limit).answers steps).length = steps.length
  answers (n : Nat) (hn : n < steps.length) :
    ((new limit).answers steps)[n]? = some (told limit (steps.take n) steps[n].2)
  /-- Every handle has the last samples of those that were recorded through any. -/
  contents (handle : Nat) (hhandle : handle < handlesAfter steps) :
    ∃ series, ((new limit).course steps).2.seen? handle = some series ∧
      series.toList = Series.lastOf limit (recorded steps)
  size : (Series.lastOf limit (recorded steps)).length =
    (limit.map fun n => min (recorded steps).length (max n 1)).getD (recorded steps).length
  /-- A later snapshot ends the earlier one and what was recorded since. -/
  snapshots (m n : Nat) (hmn : m < n) (hn : n < steps.length) (hm : steps[m].2 = .snapshot)
    (hlater : steps[n].2 = .snapshot) :
    ∃ xs ys, ((new limit).answers steps)[m]? = some (.samples xs) ∧
      ((new limit).answers steps)[n]? = some (.samples ys) ∧
      ys <:+ xs ++ recorded ((steps.take n).drop m)
  /-- What has been recorded into is never empty again. -/
  inhabited (n : Nat) (hne : recorded (steps.take n) ≠ []) :
    Series.lastOf limit (recorded steps) ≠ []

variable (steps)

/-- **A shared series is one sliding window.** -/
theorem answers_window (h : Handled steps) : SlidingWindow limit steps where
  length := length_answers limit h
  answers n hn := answers_getElem? limit h n hn
  contents handle hhandle := by
    refine ⟨_, ?_, Series.toList_after limit (recorded steps)⟩
    rw [course_new limit h, seen?_reached limit hhandle]
  size := Series.length_lastOf limit (recorded steps)
  snapshots m n hmn hn hm hlater := by
    have hfirst := answers_getElem? limit h m (by omega)
    have hsecond := answers_getElem? limit h n hn
    rw [hm] at hfirst
    rw [hlater] at hsecond
    refine ⟨_, _, hfirst, hsecond, ?_⟩
    rw [recorded_take (Nat.le_of_lt hmn)]
    exact Series.lastOf_append_suffix limit _ _
  inhabited n hne := by
    have hsplit : recorded steps = recorded (steps.take n) ++ recorded (steps.drop n) := by
      rw [← recorded_append, List.take_append_drop]
    rw [hsplit]
    exact Series.lastOf_ne_nil limit (List.append_ne_nil_of_left_ne_nil hne _)

/-- Three handles on a window of one sample, for a limit of zero. -/
theorem answers_window_three :
    let x : Sample := ⟨⟨1⟩, .zero⟩
    let y : Sample := ⟨⟨2⟩, .infinity⟩
    let steps : List (Nat × Step) := [(0, .append x), (0, .share), (1, .share), (0, .snapshot),
      (2, .append y), (1, .snapshot), (0, .isEmpty)]
    (new (some 0)).answers steps =
        [.count 1, .count 1, .count 2, .samples [x], .count 1, .samples [y], .flag false] ∧
      [y] <:+ [x] ++ [y] := by
  intro x y steps
  refine ⟨by decide, ?_⟩
  have hwindow := answers_window (some 0) steps (by decide)
  obtain ⟨xs, ys, hxs, hys, hsuffix⟩ := hwindow.snapshots 3 5 (by decide) (by decide) rfl rfl
  cases hxs
  cases hys
  exact hsuffix

end SharedSeries

end LineClient
