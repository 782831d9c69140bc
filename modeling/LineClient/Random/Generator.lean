import LineClient.Power

/-!
# Drawing numbers

A generator yields words of 32 and of 64 bits. A number below a bound is the upper part of the
product of a word and the bound; words whose product has its lower part beyond a whole number of
rounds are passed over, so that all numbers are equally likely.

* `Generator`, and two that follow a list or a fixed stride;
* `drawBelow`, from words of any width;
* **`Generator.between`**, a number within bounds, and `Generator.index`, a position in a list.
-/

namespace LineClient

/-- A source of words with states `ρ`. -/
structure Generator (ρ : Type) where
  word32 : ρ → UInt32 × ρ
  word64 : ρ → UInt64 × ρ

namespace Generator

/-- The generator whose words of 32 bits are the lower halves of those of 64 bits. -/
def ofWords {ρ : Type} (word64 : ρ → UInt64 × ρ) : Generator ρ where
  word32 s := let (w, s) := word64 s; (w.toUInt32, s)
  word64 := word64

/-- The words of a list, and then zeros. -/
def listed : Generator (List UInt64) :=
  ofWords fun
    | [] => (0, [])
    | w :: rest => (w, rest)

/-- Words with a fixed stride. -/
def arithmetic (stride : UInt64) : Generator UInt64 := ofWords fun w => (w, w + stride)

end Generator

/-! ## Numbers below a bound -/

/-- The greatest lower part of a product that still belongs to a whole number of rounds. -/
def roundLimit (width bound : Nat) : Nat := bound * 2 ^ (width - 1 - bound.log2) - 1

/-- Draws a number below `bound` from words of `width` bits. No word in `2 ^ 32` being of use, the
number is `0`. -/
def drawFrom {ρ : Type} (width bound : Nat) (word : ρ → Nat × ρ) : (fuel : Nat) → ρ → Nat × ρ
  | 0, s => (0, s)
  | fuel + 1, s =>
    let (w, s) := word s
    let product := w * bound
    if product % 2 ^ width ≤ roundLimit width bound then (product / 2 ^ width, s)
    else drawFrom width bound word fuel s

/-- Draws a number below `bound`, which is positive and at most `2 ^ width`. -/
def drawBelow {ρ : Type} (width bound : Nat) (word : ρ → Nat × ρ) (s : ρ) : Nat × ρ :=
  if bound = 2 ^ width then word s else drawFrom width bound word (2 ^ 32) s

namespace Generator

variable {ρ : Type} (g : Generator ρ)

/-- Draws a number of 64 bits from `low` to `high`. -/
def between (low high : Nat) (s : ρ) : Nat × ρ :=
  let word (s : ρ) : Nat × ρ := let (w, s) := g.word64 s; (w.toNat, s)
  let (n, s) := drawBelow 64 (high - low + 1) word s
  (low + n, s)

/-- Draws a position in a list of `length` elements, from words of 32 bits as long as these can
number all of them. -/
def index (length : Nat) (s : ρ) : Nat × ρ :=
  let short (s : ρ) : Nat × ρ := let (w, s) := g.word32 s; (w.toNat, s)
  let long (s : ρ) : Nat × ρ := let (w, s) := g.word64 s; (w.toNat, s)
  if length < 2 ^ 32 then drawBelow 32 length short s else drawBelow 64 length long s

end Generator

end LineClient
