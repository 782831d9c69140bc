import LineClient.Proofs.Binary64.Rounding
import Mathlib.Tactic.Ring

/-!
# The nearest double

A sign and a magnitude have just one nearest double, since between two doubles of even rank there
is always another one. It is infinite from the middle between the largest finite magnitude and that
of infinity on.

* `Binary64.ext_rank`, `Binary64.magnitude_lt`, doubles by sign and rank;
* **`Binary64.Nearest.unique`**, there is no other nearest double;
* **`Binary64.Nearest.isInfinite_iff`**, where the infinities begin.
-/

namespace LineClient

namespace Binary64

/-! ## Signs and ranks -/

/-- A double is its sign and its rank. -/
theorem ext_rank {x y : Binary64} (hsign : x.negative = y.negative) (hrank : x.rank = y.rank) :
    x = y := by
  have hsign' : 2 ^ 63 ≤ x.bits.toNat ↔ 2 ^ 63 ≤ y.bits.toNat := decide_eq_decide.mp hsign
  have hx := x.bits.toNat_lt
  have hy := y.bits.toNat_lt
  unfold rank at hrank
  have hbits : x.bits.toNat = y.bits.toNat := by omega
  cases x
  cases y
  exact congrArg mk (UInt64.toNat_inj.mp hbits)

theorem rank_lt (x : Binary64) : x.rank < 2 ^ 63 := Nat.mod_lt _ (Nat.two_pow_pos 63)

theorem ofRank_rank (x : Binary64) : ofRank x.negative x.rank = x :=
  ext_rank (negative_ofRank _ x.rank_lt) (rank_ofRank _ x.rank_lt)

theorem magnitude_lt {x y : Binary64} (h : x.rank < y.rank) : x.magnitude < y.magnitude :=
  div_lt_div_of_pos_right (Nat.cast_lt.mpr (unitsOfRank_strictMono h))
    (Nat.cast_pos.mpr unitsPerOne_pos)

theorem magnitude_le {x y : Binary64} (h : x.rank ≤ y.rank) : x.magnitude ≤ y.magnitude :=
  div_le_div_of_nonneg_right (Nat.cast_le.mpr (unitsOfRank_strictMono.monotone h))
    (Nat.cast_nonneg _)

/-! ## Uniqueness -/

namespace Nearest

variable {negative : Bool} {v : ℚ} {x y : Binary64}

/-- Of two ranks that are as near, one is odd, since there is none in between. -/
theorem not_lt (hx : x.Nearest negative v) (hy : y.Nearest negative v) : ¬ x.rank < y.rank := by
  intro hlt
  have hdist : |v - x.magnitude| = |v - y.magnitude| :=
    le_antisymm (hx.le y hy.isNumber) (hy.le x hx.isNumber)
  have hxeven := (hx.even y hy.isNumber hdist).resolve_left hlt.ne'
  have hyeven := (hy.even x hx.isNumber hdist.symm).resolve_left hlt.ne
  have hyle := rank_le_of_isNaN_eq_false hy.isNumber
  have hnext : x.rank + 1 < y.rank := by omega
  have hrank : (ofRank false (x.rank + 1)).rank = x.rank + 1 :=
    rank_ofRank false ((hnext.trans_le hyle).trans (by decide))
  have hlow : x.magnitude < (ofRank false (x.rank + 1)).magnitude := magnitude_lt (by omega)
  have hhigh : (ofRank false (x.rank + 1)).magnitude < y.magnitude := magnitude_lt (by omega)
  have hnear := hx.le _ (isNaN_ofRank false (hnext.le.trans hyle))
  generalize (ofRank false (x.rank + 1)).magnitude = m at hlow hhigh hnear
  -- `v` is the middle between `x` and `y`, and `m` is nearer to it
  have hmiddle : 2 * v = x.magnitude + y.magnitude := by
    rcases abs_eq_abs.mp hdist with h | h
    · linarith
    · linarith
  have hfar : |v - x.magnitude| = (y.magnitude - x.magnitude) / 2 := by
    rw [abs_of_nonneg (by linarith)]
    linarith
  have hless : |v - m| < (y.magnitude - x.magnitude) / 2 :=
    abs_lt.mpr ⟨by linarith, by linarith⟩
  linarith

/-- **There is just one nearest double.** -/
theorem unique (hx : x.Nearest negative v) (hy : y.Nearest negative v) : x = y :=
  ext_rank (hx.sign.trans hy.sign.symm)
    (Nat.le_antisymm (Nat.le_of_not_lt (hy.not_lt hx)) (Nat.le_of_not_lt (hx.not_lt hy)))

/-- Only a zero is nearest to zero. -/
theorem eq_zero (hx : x.Nearest negative 0) : x = ofRank negative 0 := by
  refine hx.unique (nearest_zero negative le_rfl ?_)
  rw [zero_mul, mul_zero]
  exact zero_le_one

end Nearest

/-- A double is the nearest one to its own magnitude. -/
theorem nearest_magnitude {x : Binary64} (hx : x.isNaN = false) :
    x.Nearest x.negative x.magnitude := by
  refine ⟨rfl, hx, fun y _ => ?_, fun y _ heq => .inl ?_⟩
  · rw [sub_self, abs_zero]
    exact abs_nonneg _
  · rw [sub_self, abs_zero, eq_comm, abs_eq_zero, sub_eq_zero] at heq
    rcases Nat.lt_trichotomy y.rank x.rank with hlt | hrank | hlt
    · exact absurd heq (magnitude_lt hlt).ne'
    · exact hrank
    · exact absurd heq (magnitude_lt hlt).ne

/-! ## Overflow -/

/-- The magnitudes of infinity and of the largest finite rank. The exponents are variables, since
powers as great as these are not to be computed. -/
theorem exists_largest : ∃ e, e = 971 ∧ (ofRank false rankInfinity).magnitude = 2 ^ (e + 53) ∧
    (ofRank false (rankInfinity - 1)).magnitude = 2 ^ (e + 53) - 2 ^ e := by
  obtain ⟨shift, hshift, hinfinity, hlargest⟩ : ∃ shift, shift = 2045 ∧
      rankInfinity = (shift + 1) * 2 ^ 52 + 2 ^ 52 ∧
      rankInfinity - 1 = shift * 2 ^ 52 + (2 ^ 53 - 1) := ⟨2045, rfl, rfl, rfl⟩
  obtain ⟨-, u, -, hu, -, hone⟩ := exists_exponents
  obtain ⟨e, he, hsum⟩ : ∃ e, e = 971 ∧ shift = e + u := ⟨971, rfl, by omega⟩
  have hpow : (2 : ℚ) ^ u ≠ 0 := pow_ne_zero u two_ne_zero
  refine ⟨e, he, ?_, ?_⟩
  · rw [magnitude, units, rank_ofRank false (by decide), hone, hinfinity,
      unitsOfRank_eq (.inr le_rfl) (by decide), hsum]
    push_cast
    rw [div_eq_iff hpow]
    ring
  · rw [magnitude, units, rank_ofRank false (by decide), hone, hlargest,
      unitsOfRank_eq (.inr (by decide)) (by decide), hsum, Nat.cast_mul, Nat.cast_sub (by decide)]
    push_cast
    rw [div_eq_iff hpow]
    ring

section

variable {top step : ℚ} (hinfinity : (ofRank false rankInfinity).magnitude = top)
  (hlargest : (ofRank false (rankInfinity - 1)).magnitude = top - step) (hstep : 0 < step)
  {negative : Bool} {v : ℚ} {x : Binary64} (hx : x.Nearest negative v)

include hinfinity hlargest hstep hx

/-- Below the middle the largest finite double is nearer than infinity. -/
theorem Nearest.le_of_isInfinite (h : x.isInfinite = true) : top - step / 2 ≤ v := by
  have hmagnitude : x.magnitude = top := by
    rw [← hinfinity, magnitude, magnitude, units, units, rank_ofRank false (by decide),
      beq_iff_eq.mp h]
  have hnear := hx.le _ (isNaN_ofRank false (Nat.sub_le rankInfinity 1))
  rw [hmagnitude, hlargest] at hnear
  by_contra hlt
  rw [not_le] at hlt
  rw [abs_sub_comm, abs_of_pos (by linarith)] at hnear
  exact absurd (abs_lt.mpr ⟨by linarith, by linarith⟩) hnear.not_gt

/-- From the middle on infinity is at least as near as any finite double, and the largest one of
these has an odd rank. -/
theorem Nearest.isInfinite_of_le (h : top - step / 2 ≤ v) : x.isInfinite = true := by
  have hrank : (ofRank false (rankInfinity - 1)).rank = rankInfinity - 1 :=
    rank_ofRank false (by decide)
  by_contra hfinite
  have hle : x.rank ≤ rankInfinity - 1 := by
    have hle' := rank_le_of_isNaN_eq_false hx.isNumber
    have hne : x.rank ≠ rankInfinity := fun heq => hfinite (beq_iff_eq.mpr heq)
    omega
  have hmagnitude : x.magnitude ≤ top - step := hlargest ▸ magnitude_le (hle.trans_eq hrank.symm)
  have hnear := hx.le _ (isNaN_ofRank false le_rfl)
  rw [hinfinity] at hnear
  have hself : |v - x.magnitude| = v - x.magnitude := abs_of_nonneg (by linarith)
  have hfar : |v - top| ≤ v - (top - step) := abs_le.mpr ⟨by linarith, by linarith⟩
  have hdist : |v - x.magnitude| = |v - (ofRank false rankInfinity).magnitude| := by
    rw [hinfinity]
    linarith
  have hodd : x.rank = rankInfinity - 1 := by
    refine Nat.le_antisymm hle (Nat.le_of_not_lt fun hlt => ?_)
    have hstrict := magnitude_lt (hlt.trans_eq hrank.symm)
    rw [hlargest] at hstrict
    linarith
  rcases hx.even _ (isNaN_ofRank false le_rfl) hdist with heq | heven
  · rw [rank_ofRank false (by decide), hodd] at heq
    exact absurd heq (by decide)
  · rw [hodd] at heven
    exact absurd heven (by decide)

end

/-- **The nearest double is infinite just from the middle between the largest finite double and
`2 ^ 1024` on.** -/
theorem Nearest.isInfinite_iff {negative : Bool} {v : ℚ} {x : Binary64}
    (hx : x.Nearest negative v) : x.isInfinite = true ↔ 2 ^ 1024 - 2 ^ 970 ≤ v := by
  obtain ⟨e, he, hinfinity, hlargest⟩ := exists_largest
  have htop : (2 : ℚ) ^ 1024 = 2 ^ (e + 53) := by rw [he]
  have hhalf : (2 : ℚ) ^ 970 = 2 ^ e / 2 := by
    rw [he, eq_div_iff two_ne_zero, ← pow_succ]
  have hstep : (0 : ℚ) < 2 ^ e := pow_pos two_pos e
  rw [htop, hhalf]
  exact ⟨hx.le_of_isInfinite hinfinity hlargest hstep,
    hx.isInfinite_of_le hinfinity hlargest hstep⟩

end Binary64

end LineClient
