import LineClient.Proofs.Binary64.Rounding

/-!
# Large whole numbers as doubles

A double has 53 significant bits. Of a natural number with more bits it keeps the nearest multiple
of the power of two that is out of their reach, so that a whole number of 64 bits comes back from a
double as the nearest multiple of `2 ^ 11`.

* `roundHalfEven_mul`, which only looks at the quotient;
* `Binary64.toNatUpTo_ofNat`, a natural number as a double and back;
* **`Binary64.toNatUpTo_ofNat_of_lt`**, **`Binary64.toNatUpTo_ofNat_of_le`**, with a limit of 64
  bits.
-/

namespace LineClient

/-- Only the quotient counts. -/
theorem roundHalfEven_mul (num den : Nat) {k : Nat} (hk : 0 < k) :
    roundHalfEven (num * k) (den * k) = roundHalfEven num den := by
  have hdouble : 2 * (num % den * k) = 2 * (num % den) * k := (Nat.mul_assoc _ _ _).symm
  simp only [roundHalfEven, Nat.mul_div_mul_right num den hk, Nat.mul_mod_mul_right, hdouble,
    Nat.mul_lt_mul_right hk]

/-- A multiple is not rounded. -/
theorem roundHalfEven_of_dvd {num den : Nat} (hden : 0 < den) (h : den ∣ num) :
    roundHalfEven num den * den = num := by
  have hmod : num % den = 0 := Nat.mod_eq_zero_of_dvd h
  simp only [roundHalfEven, hmod, Nat.mul_zero, if_pos hden]
  exact Nat.div_mul_cancel h

namespace Binary64

theorem log2_mul_two_pow {n : Nat} (hn : n ≠ 0) (u : Nat) : (n * 2 ^ u).log2 = n.log2 + u := by
  have hne : n * 2 ^ u ≠ 0 := Nat.mul_ne_zero hn (Nat.two_pow_pos u).ne'
  refine (Nat.log2_eq_iff hne).mpr ⟨?_, ?_⟩
  · rw [Nat.pow_add]
    exact Nat.mul_le_mul_right _ (Nat.log2_self_le hn)
  · rw [Nat.add_right_comm, Nat.pow_add]
    exact Nat.mul_lt_mul_of_pos_right Nat.lt_log2_self (Nat.two_pow_pos u)

/-- A whole number that is taken from a double. -/
theorem toNatUpTo_ofRank {r k limit : Nat} (hr : r < rankInfinity)
    (hunits : unitsOfRank r = k * unitsPerOne) :
    (ofRank false r).toNatUpTo limit = min limit k := by
  have hlt : r < 2 ^ 63 := hr.trans (by decide)
  have hrank : (ofRank false r).rank = r := rank_ofRank false hlt
  have hfinite : (ofRank false r).isInfinite = false := by
    rw [isInfinite, hrank]
    exact beq_eq_false_iff_ne.mpr hr.ne
  rw [toNatUpTo, isNaN_ofRank false hr.le, negative_ofRank false hlt, hfinite, units, hrank, hunits]
  have hone := unitsPerOne_pos
  generalize unitsPerOne = one at hone ⊢
  have hquotient : (2 * (k * one) + one) / (2 * one) = k := by
    have hhalf : one / (2 * one) = 0 := Nat.div_eq_of_lt (by omega)
    rw [Nat.mul_left_comm, Nat.mul_comm k, Nat.mul_add_div (by omega), hhalf, Nat.add_zero]
  simp [hquotient]

theorem toNatUpTo_infinity (limit : Nat) : (ofRank false rankInfinity).toNatUpTo limit = limit := by
  have hrank : (ofRank false rankInfinity).rank = rankInfinity := rank_ofRank false (by decide)
  have hinfinite : (ofRank false rankInfinity).isInfinite = true := by
    rw [isInfinite, hrank]
    exact beq_self_eq_true _
  rw [toNatUpTo, isNaN_ofRank false le_rfl, negative_ofRank false (by decide), hinfinite]
  rfl

/-- The rank of a natural number of more than 52 bits, and the significand in it. -/
theorem nearestRank_whole {n t : Nat} (ht : n.log2 = 52 + t) :
    ∃ u m, unitsPerOne = 2 ^ u ∧ u = 1074 ∧ m = roundHalfEven n (2 ^ t) ∧ 2 ^ 52 ≤ m ∧ m ≤ 2 ^ 53 ∧
      nearestRank n 1 = min rankInfinity ((t + u) * 2 ^ 52 + m) := by
  obtain ⟨i, u, -, hu, -, hone⟩ := exists_exponents
  have hne : n ≠ 0 := fun h => by
    rw [h, Nat.log2_zero] at ht
    omega
  have hshift : (n * unitsPerOne / 1).log2 - 52 = t + u := by
    rw [Nat.div_one, hone, log2_mul_two_pow hne, ht]
    omega
  have hround : roundHalfEven (n * unitsPerOne) (1 * 2 ^ (t + u)) = roundHalfEven n (2 ^ t) := by
    rw [hone, Nat.one_mul, Nat.pow_add, roundHalfEven_mul _ _ (Nat.two_pow_pos u)]
  have hbinade := inBinade (n * unitsPerOne) Nat.one_pos
  rw [hshift, hround] at hbinade
  obtain ⟨hlow, -⟩ := hbinade.above.resolve_left (by omega)
  refine ⟨u, _, hone, hu, rfl, hlow, hbinade.le, ?_⟩
  simp only [nearestRank, hshift, hround]

/-- **A natural number of more than 52 bits as a double and back**: its first 53 bits stay, rounded
by those behind them. -/
theorem toNatUpTo_ofNat {n t limit : Nat} (ht : n.log2 = 52 + t) (hlimit : limit ≤ 2 ^ 64) :
    (ofNat n).toNatUpTo limit = min limit (roundHalfEven n (2 ^ t) * 2 ^ t) := by
  obtain ⟨u, m, hone, hu, rfl, hlow, hhigh, hrank⟩ := nearestRank_whole ht
  generalize roundHalfEven n (2 ^ t) = m at *
  rw [ofNat, ofRatio, hrank]
  have hinfinity : rankInfinity = 2047 * 2 ^ 52 := by decide
  by_cases hfinite : (t + u) * 2 ^ 52 + m < rankInfinity
  · rw [Nat.min_eq_right hfinite.le]
    refine toNatUpTo_ofRank hfinite ?_
    rw [unitsOfRank_eq (.inr hlow) hhigh, hone, Nat.pow_add, Nat.mul_assoc]
  · rw [Nat.min_eq_left (Nat.le_of_not_lt hfinite), toNatUpTo_infinity, Nat.min_eq_left]
    have ht' : 12 ≤ t := by omega
    calc limit ≤ 2 ^ 52 * 2 ^ 12 := hlimit
      _ ≤ m * 2 ^ t := Nat.mul_le_mul hlow (Nat.pow_le_pow_right Nat.two_pos ht')

theorem toNatUpTo_ofNat_of_lt {n : Nat} (hlow : 2 ^ 63 ≤ n) (hhigh : n < 2 ^ 64) :
    (ofNat n).toNatUpTo (2 ^ 64 - 1) =
      min (2 ^ 64 - 1) (roundHalfEven n (2 ^ 11) * 2 ^ 11) :=
  toNatUpTo_ofNat ((Nat.log2_eq_iff (by omega)).mpr ⟨hlow, hhigh⟩) (by decide)

theorem toNatUpTo_ofNat_of_le {n : Nat} (h : 2 ^ 64 ≤ n) :
    (ofNat n).toNatUpTo (2 ^ 64 - 1) = 2 ^ 64 - 1 := by
  have hlog : 64 ≤ n.log2 := (Nat.le_log2 (by omega)).mpr h
  obtain ⟨t, ht⟩ := Nat.exists_eq_add_of_le (Nat.le_trans (by decide : 52 ≤ 64) hlog)
  obtain ⟨u, m, -, -, rfl, hlow, -, -⟩ := nearestRank_whole ht
  rw [toNatUpTo_ofNat ht (by decide), Nat.min_eq_left]
  have ht' : 12 ≤ t := by omega
  calc 2 ^ 64 - 1 ≤ 2 ^ 52 * 2 ^ 12 := by decide
    _ ≤ roundHalfEven n (2 ^ t) * 2 ^ t :=
      Nat.mul_le_mul hlow (Nat.pow_le_pow_right Nat.two_pos ht')

end Binary64

theorem Decimal.nearest_natural {n : Nat} (hn : n ≠ 0) :
    nearest ⟨false, n, 0⟩ = Binary64.ofNat n := by
  have hexponent : ¬ (400 : Int) < 0 := by decide
  simp only [nearest, if_neg hn, if_pos le_rfl, if_neg hexponent, Int.toNat_zero, Nat.pow_zero,
    Nat.mul_one]
  rfl

end LineClient
