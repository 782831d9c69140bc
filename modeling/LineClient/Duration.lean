import LineClient.Binary64.Text

/-!
# Durations

A duration is a number of nanoseconds, at most `Duration.max`: the whole seconds are a 64-bit
number. Products stop at that limit.

* `Duration.ofMillis`, `Duration.scale`, `Duration.since`;
* `Duration.text`: the largest unit that has a whole part, then the exact fraction;
* `Duration.seconds`: the number of seconds as a double.
-/

namespace LineClient

/-- A span of time in nanoseconds. -/
structure Duration where
  nanos : Nat
  deriving DecidableEq, Repr, Inhabited

namespace Duration

/-- The longest duration: `2 ^ 64 - 1` seconds and 999999999 nanoseconds. -/
def max : Duration := ⟨(2 ^ 64 - 1) * 10 ^ 9 + 999999999⟩

def zero : Duration := ⟨0⟩

/-- A duration of whole milliseconds. -/
def ofMillis (ms : Nat) : Duration := ⟨ms * 10 ^ 6⟩

/-- A duration of seconds and nanoseconds. -/
def ofSecs (secs nanos : Nat) : Duration := ⟨secs * 10 ^ 9 + nanos⟩

/-- The duration `factor` times as long, or the longest one. -/
def scale (d : Duration) (factor : Nat) : Duration := ⟨min (d.nanos * factor) max.nanos⟩

/-- The time from `earlier` to `d`, or zero if `earlier` is later. -/
def since (d earlier : Duration) : Duration := ⟨d.nanos - earlier.nanos⟩

/-- The moment `wait` after `d`. -/
def after (d wait : Duration) : Duration := ⟨d.nanos + wait.nanos⟩

/-! ## Text -/

/-- `whole` units and `part` of `10 ^ places` parts of one, without trailing zeros. -/
def writeFraction (whole part places : Nat) : String :=
  let cs := decimalDigits part
  let padded := List.replicate (places - cs.length) '0' ++ cs
  let kept := (padded.reverse.dropWhile (· == '0')).reverse
  toString whole ++ if part = 0 then "" else "." ++ String.ofList kept

/-- The duration in the largest of `s`, `ms`, `µs` and `ns` that has a whole part. -/
def text (d : Duration) : String :=
  let n := d.nanos
  if 10 ^ 9 ≤ n then writeFraction (n / 10 ^ 9) (n % 10 ^ 9) 9 ++ "s"
  else if 10 ^ 6 ≤ n then writeFraction (n / 10 ^ 6) (n % 10 ^ 6) 6 ++ "ms"
  else if 10 ^ 3 ≤ n then writeFraction (n / 10 ^ 3) (n % 10 ^ 3) 3 ++ "µs"
  else toString n ++ "ns"

/-- The number of seconds: whole seconds and the fraction are rounded to doubles, and so is their
sum. -/
def seconds (d : Duration) : Binary64 :=
  (Binary64.ofNat (d.nanos / 10 ^ 9)).addNonneg (.ofRatio false (d.nanos % 10 ^ 9) (10 ^ 9))

end Duration

end LineClient
