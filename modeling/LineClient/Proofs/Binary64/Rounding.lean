import LineClient.Binary64.Decimal
import Mathlib.Algebra.Order.Field.Basic
import Mathlib.Algebra.Order.Field.Rat
import Mathlib.Data.Nat.Dist
import Mathlib.Order.Monotone.Basic
import Mathlib.Tactic.Linarith

/-!
# Rounding to the nearest double

The magnitudes of the doubles are ordered by their ranks, and the rank of a quotient is that of the
magnitude nearest to it.

* `roundHalfEven_best`, the nearest natural number to a quotient;
* `unitsOfRank_eq`, `unitsOfRank_strictMono`, the magnitudes of the ranks;
* **`nearestRank_best`**, no rank is nearer to a quotient than `nearestRank`;
* `Binary64.Nearest`; **`Decimal.nearest_spec`**, decimals are rounded to the nearest double.
-/

namespace LineClient

/-! ## Whole numbers -/

theorem le_roundHalfEven (num den : Nat) : num / den ≤ roundHalfEven num den := by
  unfold roundHalfEven
  dsimp only
  split_ifs <;> omega

theorem roundHalfEven_le (num den : Nat) : roundHalfEven num den ≤ num / den + 1 := by
  unfold roundHalfEven
  dsimp only
  split_ifs <;> omega

/-- The distance of a number from a multiple that is not above it. -/
theorem dist_mul_of_le {num den k : Nat} (hk : k ≤ num / den) :
    num.dist (k * den) = num % den + (num / den - k) * den := by
  have hnum := Nat.div_add_mod' num den
  have hle : k * den ≤ num / den * den := Nat.mul_le_mul_right den hk
  rw [Nat.sub_mul]
  unfold Nat.dist
  omega

/-- The distance of a number from a multiple above it. -/
theorem dist_mul_of_lt {num den k : Nat} (hden : 0 < den) (hk : num / den < k) :
    num.dist (k * den) + num % den = (k - num / den) * den := by
  have hnum := Nat.div_add_mod' num den
  have hmod := Nat.mod_lt num hden
  have hle : (num / den + 1) * den ≤ k * den := Nat.mul_le_mul_right den hk
  rw [Nat.succ_mul] at hle
  rw [Nat.sub_mul]
  unfold Nat.dist
  omega

/-- **No multiple of `den` is nearer to `num` than that of the rounded quotient**, which is even
when another one is as near. -/
theorem roundHalfEven_best (num : Nat) {den : Nat} (hden : 0 < den) (k : Nat) :
    num.dist (roundHalfEven num den * den) ≤ num.dist (k * den) ∧
      (num.dist (roundHalfEven num den * den) = num.dist (k * den) →
        k = roundHalfEven num den ∨ roundHalfEven num den % 2 = 0) := by
  have hmod := Nat.mod_lt num hden
  have hself : num.dist (num / den * den) = num % den := by
    rw [dist_mul_of_le (Nat.le_refl _), Nat.sub_self, Nat.zero_mul, Nat.add_zero]
  have hnext : num.dist ((num / den + 1) * den) + num % den = den := by
    rw [dist_mul_of_lt hden (Nat.lt_add_one _), Nat.add_sub_cancel_left, Nat.one_mul]
  have hbelow : k < num / den → num % den + den ≤ num.dist (k * den) := fun hk => by
    rw [dist_mul_of_le hk.le]
    have := Nat.le_mul_of_pos_left den (Nat.sub_pos_of_lt hk)
    omega
  have habove : num / den + 1 < k → 2 * den ≤ num.dist (k * den) + num % den := fun hk => by
    rw [dist_mul_of_lt hden (by omega)]
    exact Nat.mul_le_mul_right den (by omega)
  -- the multiples next to `num` are those of `num / den` and of `num / den + 1`
  have hcases : k < num / den ∨ k = num / den ∨ k = num / den + 1 ∨ num / den + 1 < k := by omega
  unfold roundHalfEven
  dsimp only
  split_ifs with hlow hhigh
  · rcases hcases with hk | rfl | rfl | hk
    · have := hbelow hk
      omega
    · exact ⟨Nat.le_refl _, fun _ => .inl rfl⟩
    · omega
    · have := habove hk
      omega
  · rcases hcases with hk | rfl | rfl | hk
    · have := hbelow hk
      omega
    · omega
    · exact ⟨Nat.le_refl _, fun _ => .inl rfl⟩
    · have := habove hk
      omega
  · have heven : num.dist ((num / den + num / den % 2) * den) = num % den := by
      rcases Nat.mod_two_eq_zero_or_one (num / den) with h | h <;> rw [h]
      · exact hself
      · omega
    refine ⟨?_, fun _ => .inr (by omega)⟩
    rcases hcases with hk | rfl | rfl | hk
    · have := hbelow hk
      omega
    · omega
    · omega
    · have := habove hk
      omega

/-! ## The magnitudes of the ranks -/

namespace Binary64

/-- The units of a rank: its lower digits, in the units of its binade. -/
theorem unitsOfRank_eq {shift m : Nat} (h : shift = 0 ∨ 2 ^ 52 ≤ m) (hm : m ≤ 2 ^ 53) :
    unitsOfRank (shift * 2 ^ 52 + m) = m * 2 ^ shift := by
  unfold unitsOfRank
  rcases Nat.lt_or_ge m (2 ^ 52) with hlow | hhigh
  · have hshift : shift = 0 := by omega
    subst hshift
    rw [if_pos (by omega)]
    omega
  · rw [if_neg (by omega)]
    rcases Nat.lt_or_ge m (2 ^ 53) with hm | hm'
    · have hquotient : (shift * 2 ^ 52 + m) / 2 ^ 52 - 1 = shift := by omega
      have hrest : 2 ^ 52 + (shift * 2 ^ 52 + m) % 2 ^ 52 = m := by omega
      rw [hquotient, hrest]
    · have hm : m = 2 ^ 53 := by omega
      subst hm
      have hquotient : (shift * 2 ^ 52 + 2 ^ 53) / 2 ^ 52 - 1 = shift + 1 := by omega
      have hrest : (shift * 2 ^ 52 + 2 ^ 53) % 2 ^ 52 = 0 := by omega
      rw [hquotient, hrest, Nat.pow_succ]
      omega

/-- Every rank has a binade and lower digits. -/
theorem exists_rank_eq (r : Nat) :
    ∃ shift m, r = shift * 2 ^ 52 + m ∧ (shift = 0 ∨ 2 ^ 52 ≤ m) ∧ m < 2 ^ 53 := by
  rcases Nat.lt_or_ge r (2 ^ 52) with hlow | hhigh
  · exact ⟨0, r, by omega, .inl rfl, by omega⟩
  · exact ⟨r / 2 ^ 52 - 1, 2 ^ 52 + r % 2 ^ 52, by omega, .inr (by omega), by omega⟩

theorem unitsOfRank_strictMono : StrictMono unitsOfRank := by
  refine strictMono_nat_of_lt_succ fun r => ?_
  obtain ⟨shift, m, rfl, h, hm⟩ := exists_rank_eq r
  rw [unitsOfRank_eq h hm.le, Nat.add_assoc, unitsOfRank_eq (by omega) hm]
  exact Nat.mul_lt_mul_of_pos_right (Nat.lt_succ_self m) (Nat.two_pow_pos shift)

/-- From the beginning of a binade on, magnitudes are multiples of its unit. -/
theorem exists_unitsOfRank_eq_mul {shift r : Nat} (h : shift = 0 ∨ shift * 2 ^ 52 + 2 ^ 52 ≤ r) :
    ∃ k, unitsOfRank r = k * 2 ^ shift := by
  obtain ⟨shift', m, rfl, h', hm⟩ := exists_rank_eq r
  have hle : shift ≤ shift' := by omega
  refine ⟨m * 2 ^ (shift' - shift), ?_⟩
  rw [unitsOfRank_eq h' hm.le, Nat.mul_assoc, ← Nat.pow_add, Nat.sub_add_cancel hle]

/-! ## The nearest rank -/

/-- A quotient of `s` lies in the binade of `shift`, where `m` units are nearest to it. -/
structure InBinade (s den shift m : Nat) : Prop where
  rounded : m = roundHalfEven s (den * 2 ^ shift)
  le : m ≤ 2 ^ 53
  /-- Unless it is the first binade, the quotient is not below it. -/
  above : shift = 0 ∨ 2 ^ 52 ≤ m ∧ 2 ^ 52 * 2 ^ shift * den ≤ s

theorem inBinade (s : Nat) {den : Nat} (hden : 0 < den) :
    InBinade s den ((s / den).log2 - 52)
      (roundHalfEven s (den * 2 ^ ((s / den).log2 - 52))) := by
  generalize hshift : (s / den).log2 - 52 = shift
  have hstep : s / (den * 2 ^ shift) = s / den / 2 ^ shift := (Nat.div_div_eq_div_mul _ _ _).symm
  have hlt : s / den / 2 ^ shift < 2 ^ 53 := by
    rw [Nat.div_lt_iff_lt_mul (Nat.two_pow_pos shift), ← Nat.pow_add]
    exact Nat.lt_log2_self.trans_le (Nat.pow_le_pow_right (by decide) (by omega))
  have hfloor := le_roundHalfEven s (den * 2 ^ shift)
  refine ⟨rfl, (roundHalfEven_le _ _).trans (by omega), ?_⟩
  rcases Nat.eq_zero_or_pos shift with hzero | hpos
  · exact .inl hzero
  · have hne : s / den ≠ 0 := fun h0 => by
      rw [h0] at hshift
      simp at hshift
      omega
    have hle : 2 ^ 52 * 2 ^ shift ≤ s / den := by
      rw [← Nat.pow_add, show 52 + shift = (s / den).log2 by omega]
      exact Nat.log2_self_le hne
    refine .inr ⟨?_, ?_⟩
    · have := (Nat.le_div_iff_mul_le (Nat.two_pow_pos shift)).mpr hle
      omega
    · exact (Nat.le_div_iff_mul_le hden).mp hle

/-- The rank of the rounded quotient, before it is bounded by that of infinity. -/
theorem InBinade.best {s den shift m : Nat} (h : InBinade s den shift m) (hden : 0 < den)
    (r : Nat) :
    s.dist (unitsOfRank (shift * 2 ^ 52 + m) * den) ≤ s.dist (unitsOfRank r * den) ∧
      (s.dist (unitsOfRank (shift * 2 ^ 52 + m) * den) = s.dist (unitsOfRank r * den) →
        r = shift * 2 ^ 52 + m ∨ (shift * 2 ^ 52 + m) % 2 = 0) := by
  have hunits : unitsOfRank (shift * 2 ^ 52 + m) = m * 2 ^ shift :=
    unitsOfRank_eq (h.above.imp id (·.1)) h.le
  have hstep (k : Nat) : k * 2 ^ shift * den = k * (den * 2 ^ shift) := by
    rw [Nat.mul_assoc, Nat.mul_comm (2 ^ shift)]
  have hpos : 0 < den * 2 ^ shift := Nat.mul_pos hden (Nat.two_pow_pos shift)
  have hbest := roundHalfEven_best s hpos
  rw [← h.rounded] at hbest
  rw [hunits, hstep]
  by_cases hr : shift = 0 ∨ shift * 2 ^ 52 + 2 ^ 52 ≤ r
  · obtain ⟨k, hk⟩ := exists_unitsOfRank_eq_mul hr
    rw [hk, hstep]
    refine ⟨(hbest k).1, fun heq => ?_⟩
    rcases (hbest k).2 heq with rfl | heven
    · exact .inl (unitsOfRank_strictMono.injective (hk.trans hunits.symm))
    · exact .inr (by omega)
  · -- a rank of a lower binade is farther away than the beginning of this one
    rw [not_or] at hr
    obtain ⟨-, habove⟩ := h.above.resolve_left hr.1
    have hlow : unitsOfRank r < 2 ^ 52 * 2 ^ shift := by
      rw [← unitsOfRank_eq (.inr (Nat.le_refl _)) (by decide : 2 ^ 52 ≤ 2 ^ 53)]
      exact unitsOfRank_strictMono (Nat.not_le.mp hr.2)
    have hfar := Nat.mul_lt_mul_of_pos_right hlow hden
    have hnear := (hbest (2 ^ 52)).1
    rw [← hstep (2 ^ 52), Nat.dist_eq_sub_of_le_right habove] at hnear
    rw [Nat.dist_eq_sub_of_le_right (hfar.le.trans habove)]
    omega

/-- **No rank up to that of infinity is nearer to a quotient**, and the rank is even if another one
is as near. -/
theorem nearestRank_best (num : Nat) {den : Nat} (hden : 0 < den) {r : Nat}
    (hr : r ≤ rankInfinity) :
    (num * unitsPerOne).dist (unitsOfRank (nearestRank num den) * den) ≤
        (num * unitsPerOne).dist (unitsOfRank r * den) ∧
      ((num * unitsPerOne).dist (unitsOfRank (nearestRank num den) * den) =
          (num * unitsPerOne).dist (unitsOfRank r * den) →
        r = nearestRank num den ∨ nearestRank num den % 2 = 0) := by
  unfold nearestRank
  dsimp only
  generalize num * unitsPerOne = s
  have h := inBinade s hden
  generalize (s / den).log2 - 52 = shift at h ⊢
  generalize roundHalfEven s (den * 2 ^ shift) = m at h ⊢
  rcases Nat.lt_or_ge rankInfinity (shift * 2 ^ 52 + m) with hgt | hle
  · -- the quotient is not below infinity, so no other rank is as near
    rw [Nat.min_eq_left hgt.le]
    have hm := h.le
    unfold rankInfinity at hgt
    obtain ⟨-, habove⟩ := h.above.resolve_left (by omega)
    have hinfinity : unitsOfRank rankInfinity ≤ 2 ^ 52 * 2 ^ shift := by
      rw [← unitsOfRank_eq (.inr (Nat.le_refl _)) (by decide : 2 ^ 52 ≤ 2 ^ 53)]
      refine unitsOfRank_strictMono.monotone ?_
      unfold rankInfinity
      omega
    have hle : unitsOfRank r * den ≤ unitsOfRank rankInfinity * den :=
      Nat.mul_le_mul_right den (unitsOfRank_strictMono.monotone hr)
    have hs : unitsOfRank rankInfinity * den ≤ s :=
      (Nat.mul_le_mul_right den hinfinity).trans habove
    rw [Nat.dist_eq_sub_of_le_right hs, Nat.dist_eq_sub_of_le_right (hle.trans hs)]
    exact ⟨Nat.sub_le_sub_left hle s, fun _ => .inr rfl⟩
  · rw [Nat.min_eq_right hle]
    exact h.best hden r

theorem nearestRank_le (num den : Nat) : nearestRank num den ≤ rankInfinity :=
  Nat.min_le_left _ _

/-! ## The nearest double -/

theorem toNat_ofRank {r : Nat} (negative : Bool) (hr : r < 2 ^ 63) :
    (ofRank negative r).bits.toNat = (if negative then 2 ^ 63 else 0) + r := by
  refine Nat.mod_eq_of_lt ?_
  split_ifs <;> omega

theorem rank_ofRank {r : Nat} (negative : Bool) (hr : r < 2 ^ 63) :
    (ofRank negative r).rank = r := by
  rw [rank, toNat_ofRank negative hr]
  split_ifs <;> omega

theorem negative_ofRank {r : Nat} (negative : Bool) (hr : r < 2 ^ 63) :
    (ofRank negative r).negative = negative := by
  rw [Binary64.negative, toNat_ofRank negative hr]
  cases negative with
  | false => exact decide_eq_false (by simpa using hr)
  | true => exact decide_eq_true (by simp)

/-- The magnitude of a double. That of infinity is `2 ^ 1024`, the first one that is too large. -/
def magnitude (x : Binary64) : ℚ := x.units / unitsPerOne

/-- A double is the nearest one to a magnitude with a sign, and if another one is as near, its rank
is even. -/
structure Nearest (negative : Bool) (v : ℚ) (x : Binary64) : Prop where
  sign : x.negative = negative
  isNumber : x.isNaN = false
  le : ∀ y : Binary64, y.isNaN = false → |v - x.magnitude| ≤ |v - y.magnitude|
  even : ∀ y : Binary64, y.isNaN = false → |v - x.magnitude| = |v - y.magnitude| →
    y.rank = x.rank ∨ x.rank % 2 = 0

theorem rank_le_of_isNaN_eq_false {x : Binary64} (h : x.isNaN = false) : x.rank ≤ rankInfinity :=
  Nat.le_of_not_lt (of_decide_eq_false h)

theorem isNaN_ofRank {r : Nat} (negative : Bool) (hr : r ≤ rankInfinity) :
    (ofRank negative r).isNaN = false := by
  rw [isNaN, rank_ofRank negative (hr.trans_lt (by decide))]
  exact decide_eq_false (Nat.not_lt.mpr hr)

theorem unitsPerOne_pos : 0 < unitsPerOne := by
  unfold unitsPerOne
  exact Nat.two_pow_pos 1074

theorem cast_dist (a b : Nat) : ((a.dist b : ℕ) : ℚ) = |(a : ℚ) - b| := by
  rcases Nat.le_total a b with hle | hle
  · rw [Nat.dist_eq_sub_of_le hle, Nat.cast_sub hle, abs_sub_comm,
      abs_of_nonneg (sub_nonneg.mpr (Nat.cast_le.mpr hle))]
  · rw [Nat.dist_eq_sub_of_le_right hle, Nat.cast_sub hle,
      abs_of_nonneg (sub_nonneg.mpr (Nat.cast_le.mpr hle))]

/-- Distances of quotients, over a common denominator. -/
theorem abs_sub_magnitude (num : Nat) {den : Nat} (hden : 0 < den) (x : Binary64) :
    |(num : ℚ) / den - x.magnitude| =
      ((num * unitsPerOne).dist (x.units * den) : ℕ) / ((den * unitsPerOne : ℕ) : ℚ) := by
  have hunits := unitsPerOne_pos
  unfold magnitude
  generalize unitsPerOne = one at hunits ⊢
  have hden' : (0 : ℚ) < den := Nat.cast_pos.mpr hden
  have hone : (0 : ℚ) < one := Nat.cast_pos.mpr hunits
  rw [cast_dist, div_sub_div _ _ hden'.ne' hone.ne', abs_div, abs_of_pos (mul_pos hden' hone),
    Nat.cast_mul, Nat.cast_mul, Nat.cast_mul, mul_comm (den : ℚ) (x.units : ℚ)]

theorem ofRatio_nearest (negative : Bool) (num : Nat) {den : Nat} (hden : 0 < den) :
    (ofRatio negative num den).Nearest negative (num / den) := by
  have hle := nearestRank_le num den
  have hlt : nearestRank num den < 2 ^ 63 := hle.trans_lt (by decide)
  have hpos : (0 : ℚ) < (den * unitsPerOne : ℕ) :=
    Nat.cast_pos.mpr (Nat.mul_pos hden unitsPerOne_pos)
  have hrank : (ofRatio negative num den).rank = nearestRank num den := rank_ofRank negative hlt
  refine ⟨negative_ofRank negative hlt, isNaN_ofRank negative hle, fun y hy => ?_,
    fun y hy heq => ?_⟩
  · rw [abs_sub_magnitude num hden, abs_sub_magnitude num hden, units, units, hrank]
    have hbest := (nearestRank_best num hden (rank_le_of_isNaN_eq_false hy)).1
    exact div_le_div_of_nonneg_right (Nat.cast_le.mpr hbest) hpos.le
  · rw [abs_sub_magnitude num hden, abs_sub_magnitude num hden, units, units, hrank,
      div_left_inj' hpos.ne', Nat.cast_inj] at heq
    rw [hrank]
    exact (nearestRank_best num hden (rank_le_of_isNaN_eq_false hy)).2 heq

/-- A magnitude of at most half a unit is rounded to zero. -/
theorem nearest_zero (negative : Bool) {v : ℚ} (hv : 0 ≤ v) (hsmall : 2 * (v * unitsPerOne) ≤ 1) :
    (ofRank negative 0).Nearest negative v := by
  have hrank : (ofRank negative 0).rank = 0 := rank_ofRank negative (by decide)
  have hmagnitude : (ofRank negative 0).magnitude = 0 := by
    rw [magnitude, units, hrank, unitsOfRank, if_pos (by decide), Nat.cast_zero, zero_div]
  refine ⟨negative_ofRank negative (by decide), isNaN_ofRank negative (Nat.zero_le _),
    fun y _ => ?_, fun y _ _ => .inr (by rw [hrank])⟩
  have hone : (0 : ℚ) < unitsPerOne := Nat.cast_pos.mpr unitsPerOne_pos
  rw [hmagnitude, sub_zero, abs_of_nonneg hv, magnitude]
  generalize (unitsPerOne : ℚ) = one at hsmall hone
  rcases Nat.eq_zero_or_pos y.units with hzero | hpos
  · rw [hzero, Nat.cast_zero, zero_div, sub_zero]
    exact le_abs_self v
  · have hunit : (1 : ℚ) ≤ y.units := Nat.one_le_cast.mpr hpos
    have hle : 2 * v ≤ y.units / one := by
      rw [le_div_iff₀ hone]
      linarith
    rw [abs_sub_comm]
    exact le_trans (by linarith) (le_abs_self _)

/-- The exponents are variables here, since powers as great as these are not to be computed. -/
theorem exists_exponents : ∃ i u, i = 2098 ∧ u = 1074 ∧ unitsOfRank rankInfinity = 2 ^ i ∧
    unitsPerOne = 2 ^ u := by
  obtain ⟨shift, hshift, hrank⟩ : ∃ shift, shift = 2046 ∧
    rankInfinity = shift * 2 ^ 52 + 2 ^ 52 := ⟨2046, rfl, rfl⟩
  refine ⟨52 + shift, 1074, by omega, rfl, ?_, by rw [unitsPerOne]⟩
  rw [hrank, unitsOfRank_eq (.inr le_rfl) (by decide), ← Nat.pow_add]

/-- A magnitude that is not below that of infinity is rounded to infinity. -/
theorem nearest_infinity (negative : Bool) {v : ℚ}
    (hlarge : (unitsOfRank rankInfinity : ℚ) ≤ v * unitsPerOne) :
    (ofRank negative rankInfinity).Nearest negative v := by
  have hrank : (ofRank negative rankInfinity).rank = rankInfinity :=
    rank_ofRank negative (by decide)
  refine ⟨negative_ofRank negative (by decide), isNaN_ofRank negative (Nat.le_refl _),
    fun y hy => ?_, fun y _ _ => .inr (by rw [hrank]; rfl)⟩
  have hone : (0 : ℚ) < unitsPerOne := Nat.cast_pos.mpr unitsPerOne_pos
  have hle : (y.units : ℚ) ≤ unitsOfRank rankInfinity :=
    Nat.cast_le.mpr (unitsOfRank_strictMono.monotone (rank_le_of_isNaN_eq_false hy))
  have hinfinity : (unitsOfRank rankInfinity : ℚ) / unitsPerOne ≤ v := (div_le_iff₀ hone).mpr hlarge
  have hbelow := div_le_div_of_nonneg_right hle hone.le
  rw [magnitude, magnitude, units, hrank, abs_of_nonneg (sub_nonneg.mpr hinfinity)]
  exact le_trans (sub_le_sub_left hbelow v) (le_abs_self _)

end Binary64

/-! ## Decimals -/

namespace Decimal

/-- The exact magnitude of a decimal. -/
def magnitude (d : Decimal) : ℚ := d.digits * 10 ^ d.exponent

variable (d : Decimal)

theorem magnitude_of_nonneg (h : 0 ≤ d.exponent) :
    d.magnitude = (d.digits * 10 ^ d.exponent.toNat : ℕ) := by
  conv_lhs => rw [magnitude, ← Int.toNat_of_nonneg h, zpow_natCast]
  push_cast
  rfl

theorem magnitude_of_neg (h : d.exponent < 0) :
    d.magnitude = (d.digits : ℚ) / (10 ^ (-d.exponent).toNat : ℕ) := by
  have hexponent : d.exponent = -((-d.exponent).toNat : ℤ) := by omega
  conv_lhs => rw [magnitude, hexponent, zpow_neg, zpow_natCast, ← div_eq_mul_inv]
  push_cast
  rfl

theorem two_pow_le_ten_pow (n : Nat) : 2 ^ (3 * n) ≤ 10 ^ n := by
  rw [Nat.pow_mul]
  exact Nat.pow_le_pow_left (by decide) n

/-- Powers of ten beyond the four hundredth exceed all finite doubles. -/
theorem unitsOfRank_rankInfinity_le {e : Nat} (he : 400 < e) :
    Binary64.unitsOfRank Binary64.rankInfinity ≤ 10 ^ e * Binary64.unitsPerOne := by
  obtain ⟨i, u, hi, hu, hinfinity, hone⟩ := Binary64.exists_exponents
  rw [hinfinity, hone]
  calc 2 ^ i ≤ 2 ^ (3 * e + u) := Nat.pow_le_pow_right Nat.two_pos (by omega)
    _ = 2 ^ (3 * e) * 2 ^ u := Nat.pow_add 2 _ _
    _ ≤ 10 ^ e * 2 ^ u := Nat.mul_le_mul_right _ (two_pow_le_ten_pow e)

/-- So many places make a number less than half of the least double. -/
theorem two_mul_units_le {digits places : Nat} (h : digits.log2 + 401 < places) :
    2 * (digits * Binary64.unitsPerOne) ≤ 10 ^ places := by
  obtain ⟨i, u, hi, hu, hinfinity, hone⟩ := Binary64.exists_exponents
  have hdigits : digits ≤ 2 ^ (digits.log2 + 1) := Nat.lt_log2_self.le
  rw [hone]
  calc 2 * (digits * 2 ^ u) ≤ 2 * (2 ^ (digits.log2 + 1) * 2 ^ u) :=
        Nat.mul_le_mul_left 2 (Nat.mul_le_mul_right _ hdigits)
    _ = 2 ^ (digits.log2 + 1 + u + 1) := by rw [← Nat.pow_add, Nat.pow_succ', Nat.mul_comm]
    _ ≤ 2 ^ (3 * places) := Nat.pow_le_pow_right Nat.two_pos (by omega)
    _ ≤ 10 ^ places := two_pow_le_ten_pow places

/-- **Decimals are rounded to the nearest double.** -/
theorem nearest_spec : d.nearest.Nearest d.negative d.magnitude := by
  unfold nearest
  dsimp only
  split_ifs with hzero hsign hlarge hsmall
  · have hmagnitude : d.magnitude = 0 := by rw [magnitude, hzero, Nat.cast_zero, zero_mul]
    rw [hmagnitude]
    exact Binary64.nearest_zero _ le_rfl (by rw [zero_mul, mul_zero]; exact zero_le_one)
  · rw [d.magnitude_of_nonneg hsign]
    refine Binary64.nearest_infinity _ ?_
    rw [← Nat.cast_mul, Nat.cast_le, Nat.mul_assoc]
    exact (unitsOfRank_rankInfinity_le (by omega)).trans
      (Nat.le_mul_of_pos_left _ (Nat.pos_of_ne_zero hzero))
  · have hratio :=
      Binary64.ofRatio_nearest d.negative (d.digits * 10 ^ d.exponent.toNat) Nat.one_pos
    rwa [Nat.cast_one, div_one, ← d.magnitude_of_nonneg hsign] at hratio
  · rw [d.magnitude_of_neg (Int.not_le.mp hsign)]
    have hpos : (0 : ℚ) < (10 ^ (-d.exponent).toNat : ℕ) :=
      Nat.cast_pos.mpr (Nat.pow_pos (by decide))
    refine Binary64.nearest_zero _ (div_nonneg (Nat.cast_nonneg _) hpos.le) ?_
    rw [div_mul_eq_mul_div, ← mul_div_assoc, div_le_one hpos]
    exact_mod_cast two_mul_units_le hsmall
  · rw [d.magnitude_of_neg (Int.not_le.mp hsign)]
    exact Binary64.ofRatio_nearest _ _ (Nat.pow_pos (by decide))

end Decimal

end LineClient
