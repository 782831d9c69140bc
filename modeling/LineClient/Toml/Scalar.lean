import LineClient.Toml.Moment
import LineClient.Toml.Quoted
import LineClient.Toml.Value

/-!
# Scalars of TOML

All scalars but the quoted texts are words: truth values, whole numbers to base ten or with a mark
of their base, floating point numbers, and moments. Digits may be grouped by single underscores.

* `grouped?`, a run of digits without its underscores;
* `integer?`, `based?`, `float?`;
* **`word?`**, the value of a word, and `scalar?`, a scalar and what follows it.
-/

namespace LineClient.Toml

/-! ## Numbers -/

/-- The digits of a run without the underscores, each of which stands between two digits. -/
def grouped? (isDigit : Char → Bool) : List Char → Option (List Char)
  | [] => none
  | [c] => if isDigit c then some [c] else none
  | c :: '_' :: rest => if isDigit c then (grouped? isDigit rest).map (c :: ·) else none
  | c :: rest => if isDigit c then (grouped? isDigit rest).map (c :: ·) else none

/-- The digits of a whole number to base ten, which has no leading zeros. -/
def wholeDigits? (cs : List Char) : Option (List Char) :=
  match grouped? Char.isDigit cs with
  | some digits => if digits.head? = some '0' ∧ digits ≠ ['0'] then none else some digits
  | none => none

/-- A whole number within 64 bits with sign. -/
def bounded? (i : Int) : Option Int := if -(2 ^ 63) ≤ i ∧ i < 2 ^ 63 then some i else none

/-- A whole number to base ten. -/
def integer? (cs : List Char) : Option Int := do
  let (negative, cs) := Decimal.splitSign cs
  let n := Decimal.natOfDigits (← wholeDigits? cs)
  bounded? (if negative then -n else n)

/-- A whole number to base sixteen, eight or two, behind the mark of its base. -/
def based? : List Char → Option Int
  | '0' :: mark :: cs => do
    let base ← if mark = 'x' then some 16 else if mark = 'o' then some 8
      else if mark = 'b' then some 2 else none
    let isDigit (c : Char) := (hexValue? c).any (· < base)
    let digits ← grouped? isDigit cs
    bounded? (digits.foldl (fun (n : Nat) c => base * n + (hexValue? c).getD 0) 0 : Nat)
  | _ => none

/-- A character of a run of digits. -/
def isGroupChar (c : Char) : Bool := c.isDigit || c == '_'

/-- The exponent of a floating point number, or none at all. -/
def exponent? : List Char → Option Int
  | [] => some 0
  | c :: cs =>
    if c = 'e' ∨ c = 'E' then do
      let (negative, cs) := Decimal.splitSign cs
      let n := Decimal.natOfDigits (← grouped? Char.isDigit cs)
      some (if negative then -n else n)
    else none

/-- A floating point number, which has a fraction or an exponent. One too large for a double is
none. -/
def decimal? (cs : List Char) : Option Binary64 := do
  let (negative, cs) := Decimal.splitSign cs
  let whole ← wholeDigits? (cs.takeWhile isGroupChar)
  let (fraction, rest) ← match cs.dropWhile isGroupChar with
    | '.' :: rest => do
      some (← grouped? Char.isDigit (rest.takeWhile isGroupChar), rest.dropWhile isGroupChar)
    | rest => some ([], rest)
  if fraction.isEmpty ∧ rest.isEmpty then none
  let e ← exponent? rest
  let x := Decimal.nearest
    ⟨negative, Decimal.natOfDigits (whole ++ fraction), e - (fraction.length : Int)⟩
  if x = .infinity then none else some x

/-- A floating point number, or the name of a special value with an optional sign. -/
def float? (cs : List Char) : Option Binary64 :=
  let (negative, name) := Decimal.splitSign cs
  if name = ['i', 'n', 'f'] then some (.ofRank negative Binary64.rankInfinity)
  else if name = ['n', 'a', 'n'] then some (.ofRank negative Binary64.nan.rank)
  else decimal? cs

/-! ## Words -/

/-- A character of a word. -/
def isWordChar (c : Char) : Bool :=
  c.isAlphanum || c == '_' || c == '+' || c == '-' || c == '.' || c == ':'

/-- The value of a word. -/
def word? (cs : List Char) : Option Value :=
  if cs = ['t', 'r', 'u', 'e'] then some (.boolean true)
  else if cs = ['f', 'a', 'l', 's', 'e'] then some (.boolean false)
  else match integer? cs <|> based? cs with
    | some i => some (.integer i)
    | none =>
      match float? cs with
      | some x => some (.float x)
      | none => (momentText? cs).map .text

/-- Takes a word. A date and a time may stand apart by one space. -/
def takeWord (cs : List Char) : List Char × List Char :=
  let word := cs.takeWhile isWordChar
  match date? word, cs.dropWhile isWordChar with
  | some (_, []), ' ' :: d :: rest =>
    if d.isDigit then
      (word ++ ' ' :: (d :: rest).takeWhile isWordChar, (d :: rest).dropWhile isWordChar)
    else (word, ' ' :: d :: rest)
  | _, rest => (word, rest)

/-- Reads a scalar. -/
def scalar? (cs : List Char) : Option (Value × List Char) :=
  match quoted? cs with
  | some (text, rest) => some (.text (String.ofList text), rest)
  | none =>
    let (word, rest) := takeWord cs
    (word? word).map (·, rest)

end LineClient.Toml
