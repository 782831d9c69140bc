import LineClient.Binary64.Decimal
import LineClient.Text.Blank

/-!
# Readings — a number under a key in free text

A reply names its values as `key: number` or `key:number`. Only the leading numeral of the value
counts, so units and other trailing text do no harm. The first mention of the key that carries a
numeral is the reading; the others are passed over.

* `leadingNumber?`, the numeral at the beginning of a word;
* `afterKey?`, the rest of a word that begins with the key and a colon;
* **`reading?`**, the reading of a key in a text.
-/

namespace LineClient

/-- A character of an unsigned numeral. -/
def isNumeralChar (c : Char) : Bool := c.isDigit || c == '.'

/-- The number that a word begins with: an optional sign and the longest run of digits and dots,
which must be a numeral as a whole. -/
def leadingNumber? (word : List Char) : Option Binary64 :=
  let (negative, rest) := Decimal.splitSign word
  (Decimal.ofNumeral? negative (rest.takeWhile isNumeralChar)).map Decimal.nearest

/-- What follows the key and a colon at the beginning of a word. -/
def afterKey? (key word : List Char) : Option (List Char) :=
  if (key ++ [':']).isPrefixOf word then some (word.drop (key.length + 1)) else none

/-- The first reading among words. A value stands right after the colon, or else it is the next
word, which may mention the key again. -/
def readingAmong? (key : List Char) : List (List Char) → Option Binary64
  | [] => none
  | word :: rest =>
    match afterKey? key word with
    | none => readingAmong? key rest
    | some value =>
      match (if value.isEmpty then rest.head? else some value).bind leadingNumber? with
      | some x => some x
      | none => readingAmong? key rest

/-- The reading of a key in a text. -/
def reading? (text key : String) : Option Binary64 := readingAmong? key.toList (words text.toList)

end LineClient
