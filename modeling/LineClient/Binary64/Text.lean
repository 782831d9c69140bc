import LineClient.Binary64.Decimal

/-!
# Writing doubles

Both forms are positional and exact: no exponent is ever written.

* `Binary64.fixed`: a given number of places, the exact value rounded to nearest, ties to even;
* **`Binary64.shortest`**: the fewest digits that read back as the same double, and of those the
  nearest;
* `Binary64.withPoint`: as `shortest`, but a finite whole number ends in `.0`.
-/

namespace LineClient

/-- The decimal digits of a natural number. -/
def decimalDigits (n : Nat) : List Char := Nat.toDigits 10 n

/-- Writes `digits / 10 ^ places`, with exactly `places` digits after the point. -/
def writePlaces (digits places : Nat) : List Char :=
  let cs := decimalDigits digits
  let padded := List.replicate (places + 1 - cs.length) '0' ++ cs
  let whole := padded.take (padded.length - places)
  if places = 0 then whole else whole ++ '.' :: padded.drop (padded.length - places)

namespace Binary64

/-- A sign, and the magnitude or the name of a special value. -/
def withSign (x : Binary64) (magnitude : List Char) : String :=
  if x.isNaN then "NaN"
  else String.ofList ((if x.negative then ['-'] else []) ++
    if x.isInfinite then ['i', 'n', 'f'] else magnitude)

/-- Writes a number with `places` digits after the point. -/
def fixed (places : Nat) (x : Binary64) : String :=
  x.withSign (writePlaces (roundHalfEven (x.units * 10 ^ places) unitsPerOne) places)

/-! ## The fewest digits that read back -/

/-- Every positive finite magnitude times this power of ten has at least seventeen digits before
the point. -/
def scaleDigits : Nat := 340

/-- The candidate with `n` digits for the magnitude of a rank: digits and power of ten. The two
neighbours of the value on the grid of `n` digits are tried, and the nearer one that reads back
is taken. -/
def candidate? (rank n : Nat) : Option (Nat × Int) :=
  let scaled := unitsOfRank rank * 10 ^ scaleDigits
  let whole := scaled / unitsPerOne
  let dropped := (decimalDigits whole).length - n
  let step := 10 ^ dropped
  let below := whole / step
  let readsBack (d : Nat) := nearestRank (d * step) (10 ^ scaleDigits) == rank
  let answer (d : Nat) : Nat × Int :=
    if d = 10 ^ n then (1, (dropped + n : Nat) - (scaleDigits : Int))
    else (d, (dropped : Int) - scaleDigits)
  let nearerAbove := (2 * below + 1) * step * unitsPerOne ≤ 2 * scaled
  if readsBack below ∧ ¬ (readsBack (below + 1) ∧ nearerAbove) then some (answer below)
  else if readsBack (below + 1) then some (answer (below + 1))
  else none

/-- Digits and power of ten of the shortest decimal that reads back as the given rank. Seventeen
digits are always enough; the exact expansion closes the list. -/
def shortestDigits (rank : Nat) : Nat × Int :=
  ((List.range' 1 17).findSome? (candidate? rank)).getD (unitsOfRank rank * 5 ^ 1074, -1074)

/-- Writes `digits * 10 ^ exponent` without an exponent. -/
def positional (digits : Nat) (exponent : Int) : List Char :=
  if 0 ≤ exponent then decimalDigits (digits * 10 ^ exponent.toNat)
  else writePlaces digits (-exponent).toNat

/-- Writes a number with the fewest digits that read back as the same double. -/
def shortest (x : Binary64) : String :=
  x.withSign (if x.rank = 0 then ['0'] else
    let (digits, exponent) := shortestDigits x.rank
    positional digits exponent)

/-- As `shortest`, but with `.0` after a finite whole number. -/
def withPoint (x : Binary64) : String :=
  let text := x.shortest
  if x.isNaN || x.isInfinite || text.toList.contains '.' then text else text ++ ".0"

end Binary64

end LineClient
