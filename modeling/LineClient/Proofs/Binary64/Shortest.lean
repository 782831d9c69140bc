import LineClient.Binary64.Text
import LineClient.Proofs.Binary64.Nearest
import LineClient.Proofs.Text.Numeral

/-!
# The shortest text of a double reads back

A finite double is written as a sign and a numeral, and it is the double nearest to the value of the
numeral. So the text reads back as the same double, whatever other texts would have done so too.

* `Numeral.Writes`, a run of digits and dots with a value; `writes_positional`;
* `candidate?_nearest`, `shortestDigits_nearest`, the digits that are chosen;
* `Binary64.shortest_numeral`, the text of a finite double;
* **`Binary64.ofText?_shortest`**, this text reads back; `Binary64.exists_ofText?_shortest`, and so
  do the special values; `Binary64.alike_of_shortest_eq`, no two of them have the same text.
-/

namespace LineClient

/-! ## Digits and places -/

namespace Numeral

/-- A run of digits and dots that is a numeral with the value `v`. -/
structure Writes (v : ℚ) (run : List Char) : Prop where
  chars : ∀ c ∈ run, c.isDigit = true ∨ c = '.'
  numeral : IsNumeral run
  value : magnitude run = v

theorem magnitude_eq (run : List Char) :
    magnitude run = Decimal.natOfDigits (run.filter Char.isDigit) / 10 ^ places run := by
  rw [magnitude, Decimal.natOfDigits_eq]

/-- Digits alone. -/
theorem writes_digits {run : List Char} (hne : run ≠ []) (hdigits : ∀ c ∈ run, c.isDigit = true) :
    Writes (Decimal.natOfDigits run) run := by
  obtain ⟨c, hc⟩ := List.exists_mem_of_ne_nil run hne
  refine ⟨fun c hc => .inl (hdigits c hc), ⟨⟨c, hc, hdigits c hc⟩, ?_⟩, ?_⟩
  · rw [Decimal.count_dot_of_all hdigits]
    exact Nat.zero_le 1
  · have hplaces : places run = 0 := by
      rw [places, List.dropWhile_eq_nil_iff.mpr fun c hc =>
        Decimal.bne_dot_of_isDigit (hdigits c hc)]
      rfl
    rw [magnitude_eq, hplaces, List.filter_eq_self.mpr hdigits, pow_zero, div_one]

/-- Digits with a dot among them. -/
theorem writes_dot {whole rest : List Char} (hne : whole ++ rest ≠ [])
    (hdigits : ∀ c ∈ whole ++ rest, c.isDigit = true) :
    Writes (Decimal.natOfDigits (whole ++ rest) / 10 ^ rest.length) (whole ++ '.' :: rest) := by
  obtain ⟨c, hc⟩ := List.exists_mem_of_ne_nil _ hne
  have hwhole : ∀ c ∈ whole, c.isDigit = true := fun c hc =>
    hdigits c (List.mem_append_left _ hc)
  have hrest : ∀ c ∈ rest, c.isDigit = true := fun c hc => hdigits c (List.mem_append_right _ hc)
  refine ⟨fun c hc => ?_, ⟨⟨c, ?_, hdigits c hc⟩, ?_⟩, ?_⟩
  · rcases List.mem_append.mp hc with hc | hc
    · exact .inl (hwhole c hc)
    · exact (List.mem_cons.mp hc).elim .inr fun hc => .inl (hrest c hc)
  · exact (List.mem_append.mp hc).elim (List.mem_append_left _) fun hc =>
      List.mem_append_right _ (List.mem_cons_of_mem _ hc)
  · rw [List.count_append, Decimal.count_dot_of_all hwhole, List.count_cons_self,
      Decimal.count_dot_of_all hrest]
  · have hplaces : places (whole ++ '.' :: rest) = rest.length := by
      rw [places, List.dropWhile_append_of_pos fun c hc =>
        Decimal.bne_dot_of_isDigit (hwhole c hc)]
      rfl
    have hfilter : (whole ++ '.' :: rest).filter Char.isDigit = whole ++ rest := by
      rw [List.filter_append, List.filter_eq_self.mpr hwhole, List.filter_cons_of_neg (by decide),
        List.filter_eq_self.mpr hrest]
    rw [magnitude_eq, hplaces, hfilter]

theorem isDigit_decimalDigits {n : Nat} {c : Char} (hc : c ∈ decimalDigits n) :
    c.isDigit = true :=
  Nat.isDigit_of_mem_toDigits (by decide) (by decide) hc

theorem isDigit_of_mem_padded {k n : Nat} {c : Char}
    (hc : c ∈ List.replicate k '0' ++ decimalDigits n) : c.isDigit = true := by
  rcases List.mem_append.mp hc with hc | hc
  · rw [(List.mem_replicate.mp hc).2]
    rfl
  · exact isDigit_decimalDigits hc

/-- Zeros in front do not count. -/
theorem natOfDigits_padded (k n : Nat) :
    Decimal.natOfDigits (List.replicate k '0' ++ decimalDigits n) = n := by
  rw [Decimal.natOfDigits, ← Nat.ofDigitChars_eq_foldl, Nat.ofDigitChars_append,
    Nat.ofDigitChars_replicate_zero, Nat.mul_zero, decimalDigits, Nat.ofDigitChars_ten_toDigits]

theorem natOfDigits_decimalDigits (n : Nat) : Decimal.natOfDigits (decimalDigits n) = n :=
  natOfDigits_padded 0 n

theorem writes_decimalDigits (n : Nat) : Writes n (decimalDigits n) := by
  have hwrites : Writes (Decimal.natOfDigits (decimalDigits n)) (decimalDigits n) :=
    writes_digits Nat.toDigits_ne_nil fun _ => isDigit_decimalDigits
  rwa [natOfDigits_decimalDigits] at hwrites

/-- Digits with a point, and so many of them behind it as there are places. -/
theorem exists_writePlaces (digits : Nat) {places : Nat} (hplaces : places ≠ 0) :
    ∃ whole rest, writePlaces digits places = whole ++ '.' :: rest ∧ whole ≠ [] ∧
      rest.length = places ∧ (∀ c ∈ whole ++ rest, c.isDigit = true) ∧
      Decimal.natOfDigits (whole ++ rest) = digits := by
  rw [writePlaces, if_neg hplaces]
  have hall : ∀ c ∈ List.replicate (places + 1 - (decimalDigits digits).length) '0' ++
      decimalDigits digits, c.isDigit = true := fun _ => isDigit_of_mem_padded
  have hvalue := natOfDigits_padded (places + 1 - (decimalDigits digits).length) digits
  have hlength : places + 1 ≤ (List.replicate (places + 1 - (decimalDigits digits).length) '0' ++
      decimalDigits digits).length := by
    rw [List.length_append, List.length_replicate]
    omega
  generalize List.replicate (places + 1 - (decimalDigits digits).length) '0' ++
    decimalDigits digits = padded at hall hvalue hlength ⊢
  refine ⟨_, _, rfl, List.ne_nil_of_length_pos ?_, ?_, ?_, ?_⟩
  · rw [List.length_take]
    omega
  · rw [List.length_drop]
    omega
  · rwa [List.take_append_drop]
  · rwa [List.take_append_drop]

theorem writes_writePlaces (digits : Nat) {places : Nat} (hplaces : places ≠ 0) :
    Writes (digits / 10 ^ places) (writePlaces digits places) := by
  obtain ⟨whole, rest, hrun, hwhole, hrest, hdigits, hvalue⟩ := exists_writePlaces digits hplaces
  have hwrites := writes_dot (List.append_ne_nil_of_left_ne_nil hwhole rest) hdigits
  rwa [← hrun, hvalue, hrest] at hwrites

/-- A minus sign in front makes the number negative, and changes nothing else. -/
theorem Writes.signed {v : ℚ} {run : List Char} (h : Writes v run) {sign : List Char}
    {b : Bool} (hsign : sign = if b then ['-'] else []) :
    Shape (sign ++ run) ∧ IsNumeral (sign ++ run) ∧ negative (sign ++ run) = b ∧
      magnitude (sign ++ run) = v := by
  cases b with
  | false =>
    subst hsign
    exact ⟨.unsigned h.chars, h.numeral, (negative_run h.chars).1, h.value⟩
  | true =>
    have hminus : ∀ c ∈ sign, c.isDigit = false ∧ c ≠ '.' := by
      rw [hsign, if_pos rfl, List.forall_mem_singleton]
      decide
    have hmagnitude := (magnitude_append hminus).trans h.value
    refine ⟨?_, (isNumeral_append hminus).mpr h.numeral, ?_, hmagnitude⟩
    · rw [hsign]
      exact .signed (.inr rfl) h.chars
    · rw [hsign]
      rfl

end Numeral

namespace Binary64

open Numeral

theorem writes_positional (digits : Nat) (exponent : Int) :
    Writes (digits * 10 ^ exponent) (positional digits exponent) := by
  rw [positional]
  split_ifs with hsign
  · have hvalue : ((digits * 10 ^ exponent.toNat : ℕ) : ℚ) = digits * 10 ^ exponent := by
      conv_rhs => rw [← Int.toNat_of_nonneg hsign, zpow_natCast]
      push_cast
      rfl
    exact hvalue ▸ writes_decimalDigits _
  · have hvalue : (digits : ℚ) / 10 ^ (-exponent).toNat = digits * 10 ^ exponent := by
      have hexponent : exponent = -((-exponent).toNat : ℤ) := by omega
      conv_rhs => rw [hexponent, zpow_neg, zpow_natCast, ← div_eq_mul_inv]
    exact hvalue ▸ writes_writePlaces digits (by omega)

/-- A number without a point has no zeros in front. -/
theorem positional_plain (digits : Nat) (exponent : Int) :
    '.' ∈ positional digits exponent ∨ ∃ n, positional digits exponent = decimalDigits n := by
  rw [positional]
  split_ifs with hsign
  · exact .inr ⟨_, rfl⟩
  · have hplaces : (-exponent).toNat ≠ 0 := by omega
    obtain ⟨whole, rest, hrun, -⟩ := exists_writePlaces digits hplaces
    rw [hrun]
    exact .inl (List.mem_append_right _ List.mem_cons_self)

/-! ## The digits that are chosen -/

/-- Digits that read back, over a power of ten; a power of ten is written as a single digit. -/
theorem answer_nearest {rank d dropped scale n : Nat} (negative : Bool)
    (hback : (nearestRank (d * 10 ^ dropped) (10 ^ scale) == rank) = true) {p : Nat × Int}
    (hp : p = if d = 10 ^ n then (1, ((dropped + n : ℕ) : ℤ) - scale)
      else (d, (dropped : ℤ) - scale)) :
    (ofRank negative rank).Nearest negative (p.1 * 10 ^ p.2) := by
  have hten : (10 : ℚ) ≠ 0 := by norm_num
  have hvalue : (p.1 : ℚ) * 10 ^ p.2 = (d * 10 ^ dropped : ℕ) / (10 ^ scale : ℕ) := by
    rw [hp]
    split_ifs with hd
    · rw [hd, zpow_sub₀ hten, zpow_natCast, zpow_natCast]
      push_cast
      ring
    · rw [zpow_sub₀ hten, zpow_natCast, zpow_natCast]
      push_cast
      ring
  rw [hvalue, ← beq_iff_eq.mp hback]
  exact ofRatio_nearest negative _ (Nat.pow_pos (by decide))

theorem candidate?_nearest {rank n : Nat} {p : Nat × Int} (negative : Bool)
    (h : candidate? rank n = some p) :
    (ofRank negative rank).Nearest negative (p.1 * 10 ^ p.2) := by
  unfold candidate? at h
  extract_lets scaled whole dropped step below readsBack answer nearerAbove at h
  split_ifs at h with hbelow habove
  · exact answer_nearest negative hbelow.1 (Option.some.inj h).symm
  · exact answer_nearest negative habove (Option.some.inj h).symm

/-- The exact value reads back, too. The exponent is a variable, since a power as great as this is
not to be computed. -/
theorem exact_nearest {rank u : Nat} (negative : Bool) (hrank : rank ≤ rankInfinity)
    (hu : u = 1074) {p : Nat × Int} (hp : p = (unitsOfRank rank * 5 ^ u, -(u : ℤ))) :
    (ofRank negative rank).Nearest negative (p.1 * 10 ^ p.2) := by
  obtain ⟨-, u', -, hu', -, hone⟩ := exists_exponents
  obtain rfl : u = u' := hu.trans hu'.symm
  have hlt : rank < 2 ^ 63 := hrank.trans_lt (by decide)
  have hvalue : (p.1 : ℚ) * 10 ^ p.2 = (ofRank negative rank).magnitude := by
    have hten : (10 : ℚ) ^ u = 5 ^ u * 2 ^ u := by
      rw [← mul_pow]
      norm_num
    rw [hp, magnitude, units, rank_ofRank negative hlt, hone, zpow_neg, zpow_natCast, hten]
    push_cast
    have hfive : (5 : ℚ) ^ u ≠ 0 := pow_ne_zero u (by norm_num)
    rw [← div_eq_mul_inv, mul_comm (5 ^ u : ℚ) (2 ^ u), mul_div_mul_right _ _ hfive]
  have hself := nearest_magnitude (isNaN_ofRank negative hrank)
  rw [negative_ofRank negative hlt] at hself
  rwa [hvalue]

theorem shortestDigits_nearest {rank : Nat} (negative : Bool) (hrank : rank ≤ rankInfinity) :
    (ofRank negative rank).Nearest negative
      ((shortestDigits rank).1 * 10 ^ (shortestDigits rank).2) := by
  unfold shortestDigits
  cases hfound : (List.range' 1 17).findSome? (candidate? rank) with
  | none => exact exact_nearest negative hrank rfl rfl
  | some p =>
    obtain ⟨n, -, hn⟩ := List.exists_of_findSome?_eq_some hfound
    exact candidate?_nearest negative hn

/-! ## The text of a double -/

/-- The run of a finite double, behind its sign. -/
theorem exists_writes {x : Binary64} (hx : x.isNaN = false) (hfinite : x.isInfinite = false) :
    ∃ v run, x.shortest.toList = (if x.negative then ['-'] else []) ++ run ∧ Writes v run ∧
      ('.' ∈ run ∨ ∃ n, run = decimalDigits n) ∧ x.Nearest x.negative v := by
  rw [shortest, withSign, hx, hfinite, if_neg Bool.false_ne_true, if_neg Bool.false_ne_true,
    String.toList_ofList]
  by_cases hrank : x.rank = 0
  · rw [if_pos hrank]
    refine ⟨_, _, rfl, writes_decimalDigits 0, .inr ⟨0, rfl⟩, ?_⟩
    have hmagnitude : x.magnitude = (0 : ℕ) := by
      rw [magnitude, units, hrank, unitsOfRank, if_pos (by decide), Nat.cast_zero, zero_div]
    exact hmagnitude ▸ nearest_magnitude hx
  · have hnearest := shortestDigits_nearest x.negative (rank_le_of_isNaN_eq_false hx)
    rw [ofRank_rank] at hnearest
    rw [if_neg hrank]
    generalize shortestDigits x.rank = decimal at hnearest ⊢
    obtain ⟨digits, exponent⟩ := decimal
    exact ⟨_, _, rfl, writes_positional digits exponent, positional_plain digits exponent, hnearest⟩

/-- **A finite double is written as a numeral that it is nearest to.** -/
theorem shortest_numeral {x : Binary64} (hx : x.isNaN = false) (hfinite : x.isInfinite = false) :
    Shape x.shortest.toList ∧ IsNumeral x.shortest.toList ∧
      x.Nearest (Numeral.negative x.shortest.toList) (Numeral.magnitude x.shortest.toList) := by
  obtain ⟨v, run, htext, hwrites, -, hnearest⟩ := exists_writes hx hfinite
  obtain ⟨hshape, hnumeral, hnegative, hmagnitude⟩ := hwrites.signed (b := x.negative) rfl
  rw [htext, hnegative, hmagnitude]
  exact ⟨hshape, hnumeral, hnearest⟩

/-- **The text of a finite double reads back** as this double, down to its bits. -/
theorem ofText?_shortest {x : Binary64} (hx : x.isNaN = false) (hfinite : x.isInfinite = false) :
    ofText? x.shortest.toList = some x := by
  obtain ⟨hshape, hnumeral, hnearest⟩ := shortest_numeral hx hfinite
  obtain ⟨y, hy, hnearest'⟩ := (ofText?_spec hshape).1 hnumeral
  rw [hy, hnearest'.unique hnearest]

/-! ## Special values -/

theorem shortest_of_isNaN {x : Binary64} (hx : x.isNaN = true) : x.shortest = "NaN" := by
  rw [shortest, withSign, if_pos hx]

theorem shortest_of_isInfinite {x : Binary64} (hx : x.isInfinite = true) :
    x.shortest = if x.negative then "-inf" else "inf" := by
  have hnumber : x.isNaN = false := by
    rw [isNaN, beq_iff_eq.mp hx]
    exact decide_eq_false (lt_irrefl _)
  rw [shortest, withSign, hnumber, hx]
  cases x.negative <;> rfl

/-- A double is finite or has a name. -/
theorem finite_or_named (x : Binary64) :
    (x.isNaN = false ∧ x.isInfinite = false) ∨ x.shortest ∈ ["NaN", "inf", "-inf"] := by
  cases hnumber : x.isNaN with
  | true => exact .inr (by rw [shortest_of_isNaN hnumber]; decide)
  | false =>
    cases hfinite : x.isInfinite with
    | true =>
      rw [shortest_of_isInfinite hfinite]
      exact .inr (by split_ifs <;> decide)
    | false => exact .inl ⟨rfl, rfl⟩

/-- The same double, or another NaN. -/
def Alike (x y : Binary64) : Prop := x = y ∨ (x.isNaN = true ∧ y.isNaN = true)

theorem Alike.symm {x y : Binary64} (h : x.Alike y) : y.Alike x := h.imp Eq.symm And.symm

theorem Alike.trans {x y z : Binary64} (h : x.Alike y) (h' : y.Alike z) : x.Alike z := by
  rcases h with rfl | h
  · exact h'
  · rcases h' with rfl | h'
    · exact .inr h
    · exact .inr ⟨h.1, h'.2⟩

theorem Alike.shortest_eq {x y : Binary64} (h : x.Alike y) : x.shortest = y.shortest := by
  rcases h with rfl | ⟨hx, hy⟩
  · rfl
  · rw [shortest_of_isNaN hx, shortest_of_isNaN hy]

/-- **Every double reads back**, except for the bits of a NaN. -/
theorem exists_ofText?_shortest (x : Binary64) :
    ∃ y, ofText? x.shortest.toList = some y ∧ y.Alike x := by
  by_cases hnumber : x.isNaN = true
  · rw [shortest_of_isNaN hnumber]
    exact ⟨nan, by decide +kernel, .inr ⟨by decide, hnumber⟩⟩
  by_cases hfinite : x.isInfinite = true
  · have hx : ofRank x.negative rankInfinity = x := by
      rw [← beq_iff_eq.mp hfinite, ofRank_rank]
    rw [shortest_of_isInfinite hfinite]
    refine ⟨x, ?_, .inl rfl⟩
    rw [← hx]
    cases x.negative <;> decide +kernel
  · exact ⟨x, ofText?_shortest (Bool.eq_false_of_not_eq_true hnumber)
      (Bool.eq_false_of_not_eq_true hfinite), .inl rfl⟩

/-- Doubles with the same text are the same, except for the bits of a NaN. -/
theorem alike_of_shortest_eq {x y : Binary64} (h : x.shortest = y.shortest) : x.Alike y := by
  obtain ⟨u, hu, hx⟩ := x.exists_ofText?_shortest
  obtain ⟨v, hv, hy⟩ := y.exists_ofText?_shortest
  rw [h, hv] at hu
  obtain rfl := Option.some.inj hu
  exact hx.symm.trans hy

end Binary64

end LineClient
