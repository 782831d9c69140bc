import LineClient.Proofs.Binary64.Nearest

/-!
# Rounding keeps the order

Of two magnitudes the larger one never has the smaller nearest double. Whole numbers of at most 53
bits are doubles themselves; beyond them the doubles are so far apart that a fraction of one is lost
when it is added.

* `roundHalfEven_mono`; **`Binary64.Nearest.rank_le`**, rounding keeps the order;
* `Binary64.magnitude_ofNat`, whole numbers that are not rounded;
* `Binary64.addNonneg_nearest`; **`Binary64.addNonneg_fraction`**, a fraction that is lost.
-/

namespace LineClient

theorem roundHalfEven_mono {num num' : Nat} (h : num ≤ num') (den : Nat) :
    roundHalfEven num den ≤ roundHalfEven num' den := by
  rcases (Nat.div_le_div_right h : num / den ≤ num' / den).lt_or_eq with hlt | heq
  · exact (roundHalfEven_le num den).trans (Nat.le_trans hlt (le_roundHalfEven num' den))
  · have hnum := Nat.div_add_mod num den
    have hnum' := Nat.div_add_mod num' den
    rw [← heq] at hnum'
    have hmod : num % den ≤ num' % den := by omega
    unfold roundHalfEven
    rw [← heq]
    dsimp only
    split_ifs <;> omega

namespace Binary64

/-! ## The order of rounded numbers -/

/-- What is at least as near to the larger of two numbers is not below their middle. -/
theorem add_le_of_abs_sub_le {a b v : ℚ} (hab : a < b) (h : |v - b| ≤ |v - a|) :
    a + b ≤ 2 * v := by
  by_contra hlt
  rw [not_le] at hlt
  rw [abs_sub_comm, abs_of_pos (by linarith)] at h
  exact absurd (abs_lt.mpr ⟨by linarith, by linarith⟩) h.not_gt

theorem le_add_of_abs_sub_le {a b v : ℚ} (hab : a < b) (h : |v - a| ≤ |v - b|) :
    2 * v ≤ a + b := by
  have hneg : -b + -a ≤ 2 * -v := by
    refine add_le_of_abs_sub_le (neg_lt_neg hab) ?_
    rwa [neg_sub_neg, neg_sub_neg, abs_sub_comm a, abs_sub_comm b]
  linarith

/-- **A larger number has no smaller nearest double.** -/
theorem Nearest.rank_le {negative : Bool} {v w : ℚ} {x y : Binary64} (hx : x.Nearest negative v)
    (hy : y.Nearest negative w) (h : v ≤ w) : x.rank ≤ y.rank := by
  by_contra hlt
  rw [not_le] at hlt
  have hmagnitude := magnitude_lt hlt
  have hlow := add_le_of_abs_sub_le hmagnitude (hx.le y hy.isNumber)
  have hhigh := le_add_of_abs_sub_le hmagnitude (hy.le x hx.isNumber)
  -- both numbers are the middle of the two doubles, which cannot both be nearest to it
  obtain rfl : v = w := by linarith
  exact hlt.ne' (congrArg rank (hx.unique hy))

theorem Nearest.magnitude_le {negative : Bool} {v w : ℚ} {x y : Binary64}
    (hx : x.Nearest negative v) (hy : y.Nearest negative w) (h : v ≤ w) :
    x.magnitude ≤ y.magnitude :=
  Binary64.magnitude_le (hx.rank_le hy h)

/-! ## Whole numbers -/

theorem ofNat_nearest (n : Nat) : (ofNat n).Nearest false n := by
  have hnearest := ofRatio_nearest false n Nat.one_pos
  rwa [Nat.cast_one, div_one] at hnearest

/-- At most 53 bits at any place are a magnitude. -/
theorem exists_unitsOfRank_eq {m : Nat} (hm : m ≤ 2 ^ 53) (shift : Nat) :
    ∃ r, unitsOfRank r = m * 2 ^ shift := by
  induction shift generalizing m with
  | zero => exact ⟨0 * 2 ^ 52 + m, unitsOfRank_eq (.inl rfl) hm⟩
  | succ shift ih =>
    rcases Nat.lt_or_ge m (2 ^ 52) with hlow | hhigh
    · obtain ⟨r, hr⟩ := ih (m := 2 * m) (by omega)
      refine ⟨r, ?_⟩
      rw [hr, Nat.pow_succ', Nat.mul_left_comm, Nat.mul_assoc]
    · exact ⟨_, unitsOfRank_eq (.inr hhigh) hm⟩

/-- Whole numbers of at most 53 bits are not rounded. -/
theorem magnitude_ofNat {n : Nat} (hn : n ≤ 2 ^ 53) : (ofNat n).magnitude = n := by
  obtain ⟨i, u, hi, hu, hinfinity, hone⟩ := exists_exponents
  obtain ⟨r, hr⟩ := exists_unitsOfRank_eq hn u
  have hlt : unitsOfRank r < unitsOfRank rankInfinity := by
    rw [hr, hinfinity]
    calc n * 2 ^ u ≤ 2 ^ (53 + u) := by
          rw [Nat.pow_add]
          exact Nat.mul_le_mul_right _ hn
      _ < 2 ^ i := Nat.pow_lt_pow_right Nat.one_lt_two (by omega)
  have hrank : r < rankInfinity := unitsOfRank_strictMono.lt_iff_lt.mp hlt
  have hlt' : r < 2 ^ 63 := hrank.trans (by decide)
  have hmagnitude : (ofRank false r).magnitude = n := by
    have hpos : (unitsPerOne : ℚ) ≠ 0 := Nat.cast_ne_zero.mpr unitsPerOne_pos.ne'
    rw [magnitude, units, rank_ofRank false hlt', hr, ← hone, Nat.cast_mul,
      mul_div_cancel_right₀ _ hpos]
  have hself := nearest_magnitude (isNaN_ofRank false hrank.le)
  rw [hmagnitude, negative_ofRank false hlt'] at hself
  rw [(ofNat_nearest n).unique hself, hmagnitude]

theorem le_magnitude_ofNat {n : Nat} (hn : 2 ^ 53 ≤ n) : 2 ^ 53 ≤ (ofNat n).magnitude := by
  have hle := (ofNat_nearest (2 ^ 53)).magnitude_le (ofNat_nearest n) (Nat.cast_le.mpr hn)
  rw [magnitude_ofNat le_rfl] at hle
  exact_mod_cast hle

/-! ## Sums -/

theorem addNonneg_nearest (x y : Binary64) :
    (x.addNonneg y).Nearest false (x.magnitude + y.magnitude) := by
  have hnearest := ofRatio_nearest false (x.units + y.units) unitsPerOne_pos
  rwa [Nat.cast_add, add_div] at hnearest

/-- From `2 ^ 53` on the next double is at least two larger. -/
theorem magnitude_add_two_le {x y : Binary64} (hx : 2 ^ 53 ≤ x.magnitude) (h : x.rank < y.rank) :
    x.magnitude + 2 ≤ y.magnitude := by
  obtain ⟨-, u, -, -, -, hone⟩ := exists_exponents
  have hpos : (0 : ℚ) < unitsPerOne := Nat.cast_pos.mpr unitsPerOne_pos
  have hfrom : (u + 1) * 2 ^ 52 + 2 ^ 52 ≤ x.rank := by
    have hunits : 2 ^ 53 * unitsPerOne ≤ x.units := by
      rw [magnitude, le_div_iff₀ hpos] at hx
      generalize unitsPerOne = one at hx ⊢
      exact_mod_cast hx
    refine unitsOfRank_strictMono.le_iff_le.mp (le_trans (le_of_eq ?_) hunits)
    rw [unitsOfRank_eq (.inr le_rfl) (by decide), hone, Nat.pow_succ' (n := u), ← Nat.mul_assoc]
  obtain ⟨k, hk⟩ := exists_unitsOfRank_eq_mul (.inr hfrom)
  obtain ⟨l, hl⟩ := exists_unitsOfRank_eq_mul (.inr (hfrom.trans h.le))
  have hlt : k * 2 ^ (u + 1) < l * 2 ^ (u + 1) := hk ▸ hl ▸ unitsOfRank_strictMono h
  have hkl : k + 1 ≤ l := Nat.lt_of_mul_lt_mul_right hlt
  have hstep : x.units + 2 * unitsPerOne ≤ y.units := by
    rw [units, units, hk, hl, hone, ← Nat.pow_succ', ← Nat.succ_mul]
    exact Nat.mul_le_mul_right _ hkl
  rw [magnitude, magnitude, ← le_sub_iff_add_le', ← sub_div, le_div_iff₀ hpos, le_sub_iff_add_le']
  generalize unitsPerOne = one at hstep ⊢
  exact_mod_cast hstep

/-- **A fraction that is added to a large whole number is lost.** -/
theorem addNonneg_fraction {x y : Binary64} (hnumber : x.isNaN = false)
    (hsign : x.negative = false) (hx : 2 ^ 53 ≤ x.magnitude) (hy : y.magnitude < 1) :
    x.addNonneg y = x := by
  have hnonneg : 0 ≤ y.magnitude := div_nonneg (Nat.cast_nonneg _) (Nat.cast_nonneg _)
  have hself : |x.magnitude + y.magnitude - x.magnitude| = y.magnitude := by
    rw [add_sub_cancel_left, abs_of_nonneg hnonneg]
  have hbelow {z : Binary64} (hz : z.rank ≤ x.rank) :
      |x.magnitude + y.magnitude - z.magnitude| = y.magnitude + (x.magnitude - z.magnitude) := by
    have hle := magnitude_le hz
    rw [abs_of_nonneg (by linarith)]
    ring
  have habove {z : Binary64} (hz : x.rank < z.rank) :
      y.magnitude < |x.magnitude + y.magnitude - z.magnitude| := by
    have hstep := magnitude_add_two_le hx hz
    rw [abs_of_neg (by linarith)]
    linarith
  refine (addNonneg_nearest x y).unique ⟨hsign, hnumber, fun z _ => ?_, fun z _ heq => .inl ?_⟩
  · rw [hself]
    rcases Nat.lt_or_ge x.rank z.rank with hz | hz
    · exact (habove hz).le
    · have hle := magnitude_le hz
      rw [hbelow hz]
      linarith
  · rw [hself] at heq
    rcases Nat.lt_trichotomy z.rank x.rank with hz | hz | hz
    · have hlt := magnitude_lt hz
      rw [hbelow hz.le] at heq
      linarith
    · exact hz
    · exact absurd heq (habove hz).ne

end Binary64

end LineClient
