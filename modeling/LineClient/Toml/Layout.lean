/-!
# Layout of a TOML document

Spaces and tabs separate, a line feed or a carriage return with a line feed ends a line, and a
hash begins a comment that runs to the end of its line. No control character but the tab may stand
in a comment or a quoted text.

* `isTextChar`, `skipSpaces`, `newline?`;
* `lineEnd?`, what may follow a statement;
* `skipLayout`, what may stand between the elements of an array.
-/

namespace LineClient.Toml

/-- A space or a tab. -/
def isSpace (c : Char) : Bool := c == ' ' || c == '\t'

/-- A character that may stand in comments and quoted texts. -/
def isTextChar (c : Char) : Bool := c == '\t' || (0x20 ≤ c.toNat && c.toNat != 0x7F)

/-- Leaves out spaces and tabs. -/
def skipSpaces (cs : List Char) : List Char := cs.dropWhile isSpace

/-- Reads the end of a line. -/
def newline? : List Char → Option (List Char)
  | '\n' :: rest => some rest
  | '\r' :: '\n' :: rest => some rest
  | _ => none

/-- Leaves out a comment. -/
def skipComment : List Char → List Char
  | '#' :: rest => rest.dropWhile isTextChar
  | cs => cs

/-- Reads spaces, a comment and the end of the line or of the document. -/
def lineEnd? (cs : List Char) : Option (List Char) :=
  match skipComment (skipSpaces cs) with
  | [] => some []
  | rest => newline? rest

/-- Leaves out spaces and line ends. -/
def skipBlank : List Char → List Char
  | '\n' :: rest => skipBlank rest
  | '\r' :: '\n' :: rest => skipBlank rest
  | c :: rest => if isSpace c then skipBlank rest else c :: rest
  | [] => []

/-- Leaves out spaces, line ends and comments; the flag tells whether a comment has begun. A
comment without a line end leaves nothing that could follow it. -/
def skipLayout : Bool → List Char → List Char
  | _, '\n' :: rest => skipLayout false rest
  | _, '\r' :: '\n' :: rest => skipLayout false rest
  | true, c :: rest => if isTextChar c then skipLayout true rest else c :: rest
  | false, c :: rest =>
    if isSpace c then skipLayout false rest
    else if c = '#' then skipLayout true rest
    else c :: rest
  | _, [] => []

theorem length_skipSpaces_le (cs : List Char) : (skipSpaces cs).length ≤ cs.length :=
  (List.dropWhile_sublist _).length_le

theorem length_skipBlank_le (cs : List Char) : (skipBlank cs).length ≤ cs.length := by
  fun_induction skipBlank cs <;> grind

end LineClient.Toml
