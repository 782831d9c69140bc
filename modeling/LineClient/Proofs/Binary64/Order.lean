import LineClient.Proofs.Binary64.Nearest

/-!
# Doubles as numbers

The doubles that are not NaN are ordered as the numbers they stand for, with both zeros equal and
the infinities at the ends. A NaN gives way to any number when the smaller or the larger of two is
taken.

* `Binary64.number`; **`Binary64.number_lt_iff`**, the order of the signed ranks is that of numbers;
* `Binary64.least_eq_ite`, `Binary64.greatest_eq_ite`, the smaller and the larger of two numbers;
* `Binary64.eq_infinity`, `Binary64.eq_negInfinity`, nothing lies beyond the infinities.
-/

namespace LineClient

namespace Binary64

/-- The number that a double stands for. An infinity stands for the first magnitude that is too
large, which is above all others. -/
def number (x : Binary64) : ℚ := if x.negative then -x.magnitude else x.magnitude

variable {x y : Binary64}

/-! ## Order -/

theorem magnitude_lt_iff : x.magnitude < y.magnitude ↔ x.rank < y.rank :=
  ⟨fun h => Nat.lt_of_not_le fun hle => absurd (magnitude_le hle) (not_le.mpr h), magnitude_lt⟩

theorem magnitude_nonneg (x : Binary64) : 0 ≤ x.magnitude :=
  div_nonneg (Nat.cast_nonneg _) (Nat.cast_nonneg _)

theorem magnitude_eq_zero_iff : x.magnitude = 0 ↔ x.rank = 0 := by
  have hone : (unitsPerOne : ℚ) ≠ 0 := Nat.cast_ne_zero.mpr unitsPerOne_pos.ne'
  have hzero : unitsOfRank 0 = 0 := if_pos (by decide)
  rw [magnitude, div_eq_zero_iff, or_iff_left hone, Nat.cast_eq_zero, units]
  exact ⟨fun h => unitsOfRank_strictMono.injective (h.trans hzero.symm), fun h => h ▸ hzero⟩

/-- **Numbers are ordered by their signed ranks.** -/
theorem number_lt_iff : x.number < y.number ↔ x.signedRank < y.signedRank := by
  have hx := x.magnitude_nonneg
  have hy := y.magnitude_nonneg
  unfold number signedRank
  split_ifs
  · rw [neg_lt_neg_iff, neg_lt_neg_iff, magnitude_lt_iff, Nat.cast_lt]
  · -- only two zeros are not in this order
    have hboth : ¬ -x.magnitude < y.magnitude ↔ x.magnitude = 0 ∧ y.magnitude = 0 := by
      rw [not_lt]
      exact ⟨fun h => ⟨by linarith, by linarith⟩, fun h => by linarith⟩
    rw [← not_iff_not, hboth, magnitude_eq_zero_iff, magnitude_eq_zero_iff]
    omega
  · refine ⟨fun h => ?_, fun h => ?_⟩
    · linarith
    · omega
  · rw [magnitude_lt_iff, Nat.cast_lt]

/-! ## The smaller and the larger of two -/

theorem least_eq_ite (hx : x.isNaN = false) :
    x.least y = if y.isNaN then x else if y.number < x.number then y else x := by
  simp only [least, hx, number_lt_iff]
  rfl

theorem greatest_eq_ite (hx : x.isNaN = false) :
    x.greatest y = if y.isNaN then x else if x.number < y.number then y else x := by
  simp only [greatest, hx, number_lt_iff]
  rfl

/-! ## Infinities -/

/-- No number is larger than infinity. -/
theorem eq_infinity (hx : x.isNaN = false) (h : infinity.number ≤ x.number) : x = infinity := by
  have hsigned : infinity.signedRank = rankInfinity := by decide
  have hpos : (0 : ℤ) < rankInfinity := by decide
  have hle := rank_le_of_isNaN_eq_false hx
  rw [← not_lt, number_lt_iff, hsigned] at h
  unfold signedRank at h
  split_ifs at h with hnegative
  · omega
  · have hrank : x.rank = rankInfinity := by omega
    exact ext_rank (Bool.eq_false_of_not_eq_true hnegative) hrank

theorem eq_negInfinity (hx : x.isNaN = false) (h : x.number ≤ negInfinity.number) :
    x = negInfinity := by
  have hsigned : negInfinity.signedRank = -rankInfinity := by decide
  have hpos : (0 : ℤ) < rankInfinity := by decide
  have hle := rank_le_of_isNaN_eq_false hx
  rw [← not_lt, number_lt_iff, hsigned] at h
  unfold signedRank at h
  split_ifs at h with hnegative
  · have hrank : x.rank = rankInfinity := by omega
    exact ext_rank hnegative hrank
  · omega

end Binary64

end LineClient
