import LineClient.Series.Basic
import Mathlib.Data.List.DropRight
import Mathlib.Data.List.Induction

/-!
# What a series keeps

However many samples have been recorded, a series holds the last ones of them: all of them without
a limit, and at least one with any limit.

* `Series.lastOf`, the last ones in a list;
* **`Series.toList_foldl_append`**.
-/

namespace LineClient

namespace Series

variable {α : Type} (limit : Option Nat)

/-- The last ones in a list, as many as a series with this limit keeps. -/
def lastOf : Option Nat → List α → List α
  | none, xs => xs
  | some n, xs => xs.rtake (max 1 n)

theorem map_lastOf {β : Type} (f : α → β) (xs : List α) :
    (lastOf limit xs).map f = lastOf limit (xs.map f) := by
  cases limit with
  | none => rfl
  | some n => simp only [lastOf, List.rtake, List.map_drop, List.length_map]

theorem retain_cons (x : Sample) (xs : List Sample) :
    retain limit (x :: retain limit xs) = retain limit (x :: xs) := by
  cases limit with
  | none => rfl
  | some n =>
    obtain ⟨k, hk⟩ := Nat.exists_eq_succ_of_ne_zero (show max n 1 ≠ 0 by omega)
    simp only [retain, hk, List.take_succ_cons, List.take_take]
    rw [Nat.min_eq_left (Nat.le_succ k)]

theorem foldl_append (xs : List Sample) :
    xs.foldl append (empty limit) = ⟨limit, retain limit xs.reverse⟩ := by
  induction xs using List.reverseRecOn with
  | nil => cases limit <;> simp [empty, retain]
  | append_singleton xs x ih =>
    rw [List.foldl_append, ih, List.reverse_append, List.foldl_cons, List.foldl_nil]
    exact congrArg (Series.mk limit) (retain_cons limit x xs.reverse)

/-- **A series holds the last samples that were recorded.** -/
theorem toList_foldl_append (xs : List Sample) :
    (xs.foldl append (empty limit)).toList = lastOf limit xs := by
  rw [foldl_append]
  cases limit with
  | none => exact List.reverse_reverse xs
  | some n =>
    rw [lastOf, List.rtake_eq_reverse_take_reverse, Nat.max_comm]
    rfl

end Series

end LineClient
