import LineClient.Duration
import LineClient.Proofs.Binary64.Monotone
import LineClient.Proofs.Binary64.Shortest

/-!
# Times with three places

A time is written in seconds with a number of places. It is rounded four times on the way, its
seconds, its fraction, their sum and the places, and still a longer time is never written as a
smaller number.

* `Binary64.Unsigned`, `Binary64.HasPlaces`; `Binary64.hasPlaces_fixed`,
  `Binary64.magnitude_fixed_le`, numbers with a fixed number of places;
* `Duration.seconds_unsigned`; **`Duration.rank_seconds_le`**, longer times have no fewer seconds.
-/

namespace LineClient

/-! ## Numbers with a fixed number of places -/

namespace Binary64

/-- A finite number without a sign. -/
structure Unsigned (x : Binary64) : Prop where
  sign : x.negative = false
  finite : x.rank < rankInfinity

/-- Digits, a point, and just so many digits behind it. -/
def HasPlaces (places : Nat) (cs : List Char) : Prop :=
  ∃ whole rest, cs = whole ++ '.' :: rest ∧ whole ≠ [] ∧ rest.length = places ∧
    ∀ c ∈ whole ++ rest, c.isDigit = true

variable {x y : Binary64} {places : Nat}

theorem toList_fixed (hx : x.Unsigned) : (x.fixed places).toList =
    writePlaces (roundHalfEven (x.units * 10 ^ places) unitsPerOne) places := by
  have hnumber : x.isNaN = false := decide_eq_false (Nat.not_lt.mpr hx.finite.le)
  have hfinite : x.isInfinite = false := beq_eq_false_iff_ne.mpr hx.finite.ne
  rw [fixed, withSign, hnumber, hfinite, hx.sign]
  exact String.toList_ofList

theorem hasPlaces_fixed (hx : x.Unsigned) (hplaces : places ≠ 0) :
    HasPlaces places (x.fixed places).toList := by
  obtain ⟨whole, rest, hrun, hwhole, hrest, hdigits, -⟩ := Numeral.exists_writePlaces
    (roundHalfEven (x.units * 10 ^ places) unitsPerOne) hplaces
  rw [toList_fixed hx, hrun]
  exact ⟨whole, rest, rfl, hwhole, hrest, hdigits⟩

/-- Rounding to places keeps the order. -/
theorem magnitude_fixed_le (hx : x.Unsigned) (hy : y.Unsigned) (h : x.rank ≤ y.rank)
    (hplaces : places ≠ 0) :
    Numeral.magnitude (x.fixed places).toList ≤ Numeral.magnitude (y.fixed places).toList := by
  have hunits : x.units * 10 ^ places ≤ y.units * 10 ^ places :=
    Nat.mul_le_mul_right _ (unitsOfRank_strictMono.monotone h)
  have hrounded := roundHalfEven_mono hunits unitsPerOne
  rw [toList_fixed hx, toList_fixed hy, (Numeral.writes_writePlaces _ hplaces).value,
    (Numeral.writes_writePlaces _ hplaces).value]
  exact div_le_div_of_nonneg_right (Nat.cast_le.mpr hrounded)
    (pow_nonneg (Nat.cast_nonneg 10) places)

end Binary64

/-! ## Seconds -/

namespace Duration

open Binary64

/-- Whole seconds as a double. -/
def wholeSeconds (d : Duration) : Binary64 := ofNat (d.nanos / 10 ^ 9)

/-- The fraction of a second as a double. -/
def fraction (d : Duration) : Binary64 := ofRatio false (d.nanos % 10 ^ 9) (10 ^ 9)

variable {d e : Duration}

theorem fraction_nearest (d : Duration) :
    d.fraction.Nearest false ((d.nanos % 10 ^ 9 : ℕ) / (10 ^ 9 : ℕ)) :=
  ofRatio_nearest false _ (Nat.pow_pos (by decide))

theorem fraction_lt_one (d : Duration) : d.fraction.magnitude < 1 := by
  have hmod : d.nanos % 10 ^ 9 ≤ 999999999 :=
    Nat.le_of_lt_succ (Nat.mod_lt d.nanos (by decide))
  have hlast : (ofRatio false 999999999 (10 ^ 9)).rank < (ofNat 1).rank := by decide +kernel
  have hone : (ofNat 1).magnitude = 1 := by
    rw [magnitude_ofNat (by decide), Nat.cast_one]
  have hle := d.fraction_nearest.magnitude_le
    (ofRatio_nearest false 999999999 (Nat.pow_pos (by decide : 0 < 10)))
    (div_le_div_of_nonneg_right (Nat.cast_le.mpr hmod) (Nat.cast_nonneg (10 ^ 9)))
  rw [← hone]
  exact hle.trans_lt (magnitude_lt hlast)

theorem seconds_nearest (d : Duration) :
    d.seconds.Nearest false (d.wholeSeconds.magnitude + d.fraction.magnitude) :=
  addNonneg_nearest d.wholeSeconds d.fraction

/-- Whole seconds beyond `2 ^ 53` swallow the fraction. -/
theorem seconds_of_le (h : 2 ^ 53 ≤ d.nanos / 10 ^ 9) : d.seconds = d.wholeSeconds :=
  addNonneg_fraction (ofNat_nearest _).isNumber (ofNat_nearest _).sign (le_magnitude_ofNat h)
    d.fraction_lt_one

/-- A sum with an earlier second is not above a later second alone. -/
theorem seconds_le_wholeSeconds (h : d.nanos / 10 ^ 9 < e.nanos / 10 ^ 9) :
    d.seconds.magnitude ≤ e.wholeSeconds.magnitude := by
  have hself := nearest_magnitude (ofNat_nearest (e.nanos / 10 ^ 9)).isNumber
  rw [(ofNat_nearest (e.nanos / 10 ^ 9)).sign] at hself
  rcases Nat.lt_or_ge (d.nanos / 10 ^ 9) (2 ^ 53) with hsmall | hlarge
  · -- both seconds next to each other are doubles
    have hnext := (ofNat_nearest (d.nanos / 10 ^ 9 + 1)).magnitude_le
      (ofNat_nearest (e.nanos / 10 ^ 9)) (Nat.cast_le.mpr h)
    rw [magnitude_ofNat hsmall, Nat.cast_add_one] at hnext
    have hwhole : d.wholeSeconds.magnitude = (d.nanos / 10 ^ 9 : ℕ) := magnitude_ofNat hsmall.le
    refine d.seconds_nearest.magnitude_le hself ?_
    rw [hwhole]
    linarith [d.fraction_lt_one]
  · rw [seconds_of_le hlarge]
    exact (ofNat_nearest _).magnitude_le (ofNat_nearest _) (Nat.cast_le.mpr h.le)

/-- **A longer time has no fewer seconds**, whatever is lost by rounding. -/
theorem rank_seconds_le (h : d.nanos ≤ e.nanos) : d.seconds.rank ≤ e.seconds.rank := by
  rcases (Nat.div_le_div_right h : d.nanos / 10 ^ 9 ≤ e.nanos / 10 ^ 9).lt_or_eq with hlt | heq
  · have hself := nearest_magnitude d.seconds_nearest.isNumber
    rw [d.seconds_nearest.sign] at hself
    refine hself.rank_le e.seconds_nearest ((seconds_le_wholeSeconds hlt).trans ?_)
    exact le_add_of_nonneg_right (div_nonneg (Nat.cast_nonneg _) (Nat.cast_nonneg _))
  · have hmod : d.nanos % 10 ^ 9 ≤ e.nanos % 10 ^ 9 := by omega
    have hfraction := d.fraction_nearest.magnitude_le e.fraction_nearest
      (div_le_div_of_nonneg_right (Nat.cast_le.mpr hmod) (Nat.cast_nonneg _))
    have hwhole : d.wholeSeconds = e.wholeSeconds := congrArg ofNat heq
    refine d.seconds_nearest.rank_le e.seconds_nearest ?_
    rw [hwhole]
    exact add_le_add_right hfraction _

/-- The seconds of the longest time are still finite. -/
theorem seconds_unsigned (h : d.nanos ≤ max.nanos) : d.seconds.Unsigned where
  sign := d.seconds_nearest.sign
  finite := (rank_seconds_le h).trans_lt (by decide +kernel)

end Duration

end LineClient
