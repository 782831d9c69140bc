import LineClient.Power

/-!
# Binary64 — double precision numbers as bit patterns

A double is its 64 bits. Below the sign bit lies the **rank**, which counts the magnitudes in
ascending order: rank `0` is zero, `rankInfinity` is infinity, and the ranks above it are the NaNs.
Every finite magnitude is a whole number of **units** of `2 ^ -1074`.

* `rank`, `units`, `ofRank`, `isNaN`, `isInfinite`;
* `roundHalfEven`, the nearest integer to a quotient, ties to the even one;
* **`nearestRank`**: the rank nearest to a quotient of naturals, so that every rounding in this
  library is one exact division.
-/

namespace LineClient

/-- A double precision number, given by its bits. -/
structure Binary64 where
  bits : UInt64
  deriving DecidableEq, Repr, Inhabited

/-- The integer nearest to `num / den`, the even one of two that are equally near. -/
def roundHalfEven (num den : Nat) : Nat :=
  let q := num / den
  let r := num % den
  if 2 * r < den then q else if den < 2 * r then q + 1 else q + q % 2

namespace Binary64

/-- The rank of infinity. -/
def rankInfinity : Nat := 0x7FF0000000000000

/-- The least unit: finite magnitudes are multiples of `1 / unitsPerOne`. -/
def unitsPerOne : Nat := 2 ^ 1074

/-- Whether the sign bit is set. -/
def negative (x : Binary64) : Bool := 2 ^ 63 ≤ x.bits.toNat

/-- The place of the magnitude among all magnitudes. -/
def rank (x : Binary64) : Nat := x.bits.toNat % 2 ^ 63

/-- Whether the number is not a number. -/
def isNaN (x : Binary64) : Bool := rankInfinity < x.rank

/-- Whether the number is one of the two infinities. -/
def isInfinite (x : Binary64) : Bool := x.rank == rankInfinity

/-- The number of a sign and a rank. -/
def ofRank (negative : Bool) (rank : Nat) : Binary64 :=
  ⟨UInt64.ofNat ((if negative then 2 ^ 63 else 0) + rank)⟩

/-- The magnitude of a finite rank, in units of `2 ^ -1074`. -/
def unitsOfRank (rank : Nat) : Nat :=
  if rank < 2 ^ 52 then rank else (2 ^ 52 + rank % 2 ^ 52) * 2 ^ (rank / 2 ^ 52 - 1)

/-- The magnitude of a finite number, in units of `2 ^ -1074`. -/
def units (x : Binary64) : Nat := unitsOfRank x.rank

/-- The rank nearest to `num / den`, the even one of two that are equally near; a quotient too
large for every finite rank has the rank of infinity. -/
def nearestRank (num den : Nat) : Nat :=
  let scaled := num * unitsPerOne
  let shift := (scaled / den).log2 - 52
  min rankInfinity (shift * 2 ^ 52 + roundHalfEven scaled (den * 2 ^ shift))

/-- The double nearest to `num / den` with the given sign. -/
def ofRatio (negative : Bool) (num den : Nat) : Binary64 :=
  ofRank negative (nearestRank num den)

/-- The double nearest to a natural number. -/
def ofNat (n : Nat) : Binary64 := ofRatio false n 1

def zero : Binary64 := ofRank false 0
def infinity : Binary64 := ofRank false rankInfinity
def negInfinity : Binary64 := ofRank true rankInfinity
def nan : Binary64 := ofRank false 0x7FF8000000000000

/-- The sum of two finite numbers that are not negative, rounded once. -/
def addNonneg (x y : Binary64) : Binary64 := ofRatio false (x.units + y.units) unitsPerOne

/-! ## Order

Numbers are compared by signed rank, in which both zeros are `0`. -/

/-- The signed rank: the order of doubles that are not NaN. -/
def signedRank (x : Binary64) : Int := if x.negative then -(x.rank : Int) else x.rank

/-- The smaller of two numbers; a NaN gives way to the other one. -/
def least (x y : Binary64) : Binary64 :=
  if x.isNaN then y else if y.isNaN then x else if y.signedRank < x.signedRank then y else x

/-- The larger of two numbers; a NaN gives way to the other one. -/
def greatest (x y : Binary64) : Binary64 :=
  if x.isNaN then y else if y.isNaN then x else if x.signedRank < y.signedRank then y else x

/-! ## Whole numbers -/

/-- The nearest natural number up to `limit`, halves away from zero: negative numbers and NaN give
`0`, larger ones give `limit`. -/
def toNatUpTo (limit : Nat) (x : Binary64) : Nat :=
  if x.isNaN || x.negative then 0
  else if x.isInfinite then limit
  else min limit ((2 * x.units + unitsPerOne) / (2 * unitsPerOne))

end Binary64

end LineClient
