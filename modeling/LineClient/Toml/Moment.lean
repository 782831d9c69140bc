import LineClient.Binary64.Decimal

/-!
# Dates and times of TOML

A moment is a date, a time, or a date and a time, the last also with an offset. Its text is
RFC 3339 with a `T` between date and time, at most nine decimal places of a second, and no
trailing zeros in them.

* `date?`, `time?`, `offset?`, each with what follows it;
* **`momentText?`**, the text of a moment.
-/

namespace LineClient.Toml

/-- A part of a moment: its text, and what follows it. -/
abbrev MomentRead := Option (List Char × List Char)

/-- A number of exactly `count` digits that lies from `low` to `high`. -/
def field? (count low high : Nat) (cs : List Char) : MomentRead :=
  let digits := cs.take count
  let n := Decimal.natOfDigits digits
  if digits.length = count ∧ digits.all Char.isDigit ∧ low ≤ n ∧ n ≤ high then
    some (digits, cs.drop count)
  else none

/-- Reads a mark. -/
def mark? (c : Char) : List Char → Option (List Char)
  | d :: rest => if d = c then some rest else none
  | [] => none

/-- Whether a year has a 29th of February. -/
def isLeapYear (year : Nat) : Bool := year % 4 == 0 && (year % 100 != 0 || year % 400 == 0)

/-- The number of days of a month. -/
def daysInMonth (year month : Nat) : Nat :=
  if month = 2 then if isLeapYear year then 29 else 28
  else if month = 4 ∨ month = 6 ∨ month = 9 ∨ month = 11 then 30 else 31

/-- Reads a date. -/
def date? (cs : List Char) : MomentRead := do
  let (year, cs) ← field? 4 0 9999 cs
  let (month, cs) ← field? 2 1 12 (← mark? '-' cs)
  let days := daysInMonth (Decimal.natOfDigits year) (Decimal.natOfDigits month)
  let (day, cs) ← field? 2 1 days (← mark? '-' cs)
  some (year ++ '-' :: month ++ '-' :: day, cs)

/-- The digits of a fraction without those beyond the ninth and without trailing zeros, after a
point unless none is left. -/
def fractionText (digits : List Char) : List Char :=
  let kept := ((digits.take 9).reverse.dropWhile (· == '0')).reverse
  if kept.isEmpty then [] else '.' :: kept

/-- Reads a time. -/
def time? (cs : List Char) : MomentRead := do
  let (hour, cs) ← field? 2 0 23 cs
  let (minute, cs) ← field? 2 0 59 (← mark? ':' cs)
  let (second, cs) ← field? 2 0 60 (← mark? ':' cs)
  let whole := hour ++ ':' :: minute ++ ':' :: second
  match mark? '.' cs with
  | none => some (whole, cs)
  | some rest =>
    let digits := rest.takeWhile Char.isDigit
    if digits.isEmpty then none
    else some (whole ++ fractionText digits, rest.dropWhile Char.isDigit)

/-- Reads an offset. An offset of zero is never negative. -/
def offset? : List Char → MomentRead
  | [] => none
  | c :: cs =>
    if c = 'Z' ∨ c = 'z' then some (['Z'], cs)
    else if c = '+' ∨ c = '-' then do
      let (hour, cs) ← field? 2 0 23 cs
      let (minute, cs) ← field? 2 0 59 (← mark? ':' cs)
      let zero := (hour ++ minute).all (· == '0')
      some ((if zero then '+' else c) :: hour ++ ':' :: minute, cs)
    else none

/-- The text of a moment that fills the whole of `cs`. -/
def momentText? (cs : List Char) : Option String :=
  match date? cs with
  | none =>
    match time? cs with
    | some (text, []) => some (String.ofList text)
    | _ => none
  | some (date, []) => some (String.ofList date)
  | some (date, c :: rest) =>
    if c = 'T' ∨ c = 't' ∨ c = ' ' then
      match time? rest with
      | some (time, []) => some (String.ofList (date ++ 'T' :: time))
      | some (time, rest) =>
        match offset? rest with
        | some (offset, []) => some (String.ofList (date ++ 'T' :: time ++ offset))
        | _ => none
      | none => none
    else none

end LineClient.Toml
