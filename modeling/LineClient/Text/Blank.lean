/-!
# Blank characters

The blanks are the characters with the Unicode property White_Space. They divide a text into
words and are dropped at the ends of a trimmed text.

* `isBlank`, `words`, `trimBlanks`.
-/

namespace LineClient

/-- The Unicode property White_Space. -/
def isBlank (c : Char) : Bool :=
  let n := c.toNat
  (0x9 ≤ n && n ≤ 0xD) || n == 0x20 || n == 0x85 || n == 0xA0 || n == 0x1680 ||
    (0x2000 ≤ n && n ≤ 0x200A) || n == 0x2028 || n == 0x2029 || n == 0x202F || n == 0x205F ||
    n == 0x3000

/-- Puts a character in front of a text that is cut into words. The flag tells whether the text
begins with a character that is not blank, which then belongs to the first word. -/
def consToWords (c : Char) : List (List Char) × Bool → List (List Char) × Bool
  | (ws, inWord) =>
    if isBlank c then (ws, false)
    else match inWord, ws with
      | true, w :: rest => ((c :: w) :: rest, true)
      | _, _ => ([c] :: ws, true)

/-- The maximal runs of characters that are not blank. -/
def words (text : List Char) : List (List Char) := (text.foldr consToWords ([], false)).1

/-- The text without the blanks at its two ends. -/
def trimBlanks (text : String) : String :=
  String.ofList ((text.toList.dropWhile isBlank).reverse.dropWhile isBlank).reverse

end LineClient
