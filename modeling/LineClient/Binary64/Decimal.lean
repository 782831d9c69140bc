import LineClient.Binary64.Basic

/-!
# Reading decimal numerals

A numeral is a run of ASCII digits with at most one dot and at least one digit. Its value is a
natural number over a power of ten, which `Decimal.nearest` rounds to a double in one step.

* `Decimal`, `Decimal.nearest`;
* `Decimal.ofNumeral?`: the whole run must be a numeral;
* `Binary64.ofText?`: numerals with sign and exponent, and the names of the special values.
-/

namespace LineClient

/-- The number `digits * 10 ^ exponent`, negated if `negative`. -/
structure Decimal where
  negative : Bool
  digits : Nat
  exponent : Int
  deriving DecidableEq, Repr

namespace Decimal

/-- The value of a run of digits, most significant first. -/
def natOfDigits (cs : List Char) : Nat :=
  cs.foldl (fun n c => 10 * n + (c.toNat - '0'.toNat)) 0

/-- The double nearest to a decimal. Beyond four hundred powers of ten every number but zero is
infinite, and below them it is zero, so no power is larger than the digits call for. -/
def nearest (d : Decimal) : Binary64 :=
  if d.digits = 0 then .ofRank d.negative 0
  else if 0 ≤ d.exponent then
    if 400 < d.exponent then .ofRank d.negative Binary64.rankInfinity
    else .ofRatio d.negative (d.digits * 10 ^ d.exponent.toNat) 1
  else
    let places := (-d.exponent).toNat
    if d.digits.log2 + 401 < places then .ofRank d.negative 0
    else .ofRatio d.negative d.digits (10 ^ places)

/-- Reads digits with at most one dot and at least one digit, up to the end of the text. -/
def ofNumeral? (negative : Bool) (cs : List Char) : Option Decimal :=
  let whole := cs.takeWhile Char.isDigit
  match cs.dropWhile Char.isDigit with
  | [] => if whole.isEmpty then none else some ⟨negative, natOfDigits whole, 0⟩
  | c :: rest =>
    if c = '.' ∧ rest.all Char.isDigit ∧ !(whole ++ rest).isEmpty then
      some ⟨negative, natOfDigits (whole ++ rest), -(rest.length : Int)⟩
    else none

/-- Separates an optional sign from the rest. -/
def splitSign : List Char → Bool × List Char
  | '+' :: rest => (false, rest)
  | '-' :: rest => (true, rest)
  | rest => (false, rest)

/-- Reads a whole number with an optional sign and at least one digit. -/
def integer? (cs : List Char) : Option Int :=
  let (negative, digits) := splitSign cs
  if digits.isEmpty || !digits.all Char.isDigit then none
  else if negative then some (-(natOfDigits digits : Int)) else some (natOfDigits digits)

/-- Reads a numeral with an optional sign and an optional exponent, up to the end of the text. -/
def ofText? (cs : List Char) : Option Decimal :=
  let (negative, rest) := splitSign cs
  let isMark (c : Char) := c == 'e' || c == 'E'
  match rest.dropWhile (fun c => !isMark c) with
  | [] => ofNumeral? negative rest
  | _ :: power => do
    let d ← ofNumeral? negative (rest.takeWhile (fun c => !isMark c))
    let e ← integer? power
    some { d with exponent := d.exponent + e }

end Decimal

/-- ASCII letters in lower case; every other character stays. -/
def asciiLower (cs : List Char) : List Char := cs.map Char.toLower

/-- Reads a number: a decimal with an optional exponent, or `inf`, `infinity` and `nan` in any
case, all with an optional sign. -/
def Binary64.ofText? (cs : List Char) : Option Binary64 :=
  let (negative, rest) := Decimal.splitSign cs
  let name := String.ofList (asciiLower rest)
  if name = "inf" ∨ name = "infinity" then some (.ofRank negative rankInfinity)
  else if name = "nan" then some (.ofRank negative 0x7FF8000000000000)
  else (Decimal.ofText? cs).map Decimal.nearest

end LineClient
