import LineClient.Toml.Layout

/-!
# Quoted texts of TOML

A text stands between double quotes, where a backslash escapes, or between single quotes, where
every character stands for itself. Three quotes enclose a text of several lines, which may hold
up to two quotes in a row, also right before its end; a line end right after the opening quotes
does not count, and every line end is read as a line feed.

* `escape?`, what follows a backslash;
* `basic?`, `basicLines?`, `literal?`, `literalLines?`, the rest of a text after its opening
  quotes;
* **`quoted?`**, a text of any of the four forms.
-/

namespace LineClient.Toml

/-- A text that has been read, and what follows it. -/
abbrev TextRead := Option (List Char × List Char)

/-- Puts a character in front of a text that has been read. -/
def TextRead.cons (c : Char) (r : TextRead) : TextRead :=
  r.map fun (text, rest) => (c :: text, rest)

/-! ## Escapes -/

/-- The value of a hexadecimal digit. -/
def hexValue? (c : Char) : Option Nat :=
  if c.isDigit then some (c.toNat - '0'.toNat)
  else if 'a' ≤ c ∧ c ≤ 'f' then some (c.toNat - 'a'.toNat + 10)
  else if 'A' ≤ c ∧ c ≤ 'F' then some (c.toNat - 'A'.toNat + 10)
  else none

/-- The character whose number has the given `count` hexadecimal digits. Surrogates and numbers
beyond the last character are none. -/
def numbered? (count : Nat) (cs : List Char) : Option Char := do
  let digits ← (cs.take count).mapM hexValue?
  let n := digits.foldl (fun n d => 16 * n + d) 0
  if digits.length = count ∧ n.isValidChar then some (Char.ofNat n) else none

/-- The character that an escape stands for, and how many characters follow the backslash. -/
def escape? : List Char → Option (Char × Nat)
  | 'b' :: _ => some ('\x08', 1)
  | 't' :: _ => some ('\t', 1)
  | 'n' :: _ => some ('\n', 1)
  | 'f' :: _ => some ('\x0c', 1)
  | 'r' :: _ => some ('\r', 1)
  | '"' :: _ => some ('"', 1)
  | '\\' :: _ => some ('\\', 1)
  | 'u' :: rest => (numbered? 4 rest).map (·, 5)
  | 'U' :: rest => (numbered? 8 rest).map (·, 9)
  | _ => none

/-- What follows a backslash that ends a line: the first character that is no space and no line
end. -/
def joinLines? (cs : List Char) : Option (List Char) := (newline? (skipSpaces cs)).map skipBlank

theorem length_newline_le {cs rest : List Char} (h : newline? cs = some rest) :
    rest.length ≤ cs.length := by
  unfold newline? at h
  split at h
  · cases h
    exact Nat.le_succ _
  · cases h
    exact Nat.le_add_right _ 2
  · cases h

theorem length_joinLines_le {cs rest : List Char} (h : joinLines? cs = some rest) :
    rest.length ≤ cs.length := by
  obtain ⟨r, hr, rfl⟩ := Option.map_eq_some_iff.1 h
  have := length_skipBlank_le r
  have := length_newline_le hr
  have := length_skipSpaces_le cs
  omega

/-! ## Texts of one line -/

/-- The rest of a text in double quotes. -/
def basic? : List Char → TextRead
  | [] => none
  | c :: rest =>
    if c = '"' then some ([], rest)
    else if c = '\\' then
      match escape? rest with
      | some (e, used) => .cons e (basic? (rest.drop used))
      | none => none
    else if isTextChar c then .cons c (basic? rest)
    else none
termination_by cs => cs.length
decreasing_by all_goals simp; try omega

/-- The rest of a text in single quotes. -/
def literal? : List Char → TextRead
  | [] => none
  | c :: rest =>
    if c = '\'' then some ([], rest)
    else if isTextChar c then .cons c (literal? rest)
    else none

/-! ## Texts of several lines -/

/-- Up to two quotes before the end of a text, of which three have been read. -/
def closing (quote : Char) (cs : List Char) : List Char × List Char :=
  let extra := min 2 (cs.takeWhile (· == quote)).length
  (cs.take extra, cs.drop extra)

/-- Leaves out a line end right at the beginning. -/
def dropNewline (cs : List Char) : List Char := (newline? cs).getD cs

/-- The rest of a text in three double quotes. -/
def basicLines? : List Char → TextRead
  | [] => none
  | '"' :: '"' :: '"' :: rest => some (closing '"' rest)
  | '\r' :: '\n' :: rest => .cons '\n' (basicLines? rest)
  | c :: rest =>
    if c = '\\' then
      match h : joinLines? rest with
      | some next =>
        have := length_joinLines_le h
        basicLines? next
      | none =>
        match escape? rest with
        | some (e, used) => .cons e (basicLines? (rest.drop used))
        | none => none
    else if c = '\n' ∨ isTextChar c then .cons c (basicLines? rest)
    else none
termination_by cs => cs.length
decreasing_by all_goals simp; try omega

/-- The rest of a text in three single quotes. -/
def literalLines? : List Char → TextRead
  | [] => none
  | '\'' :: '\'' :: '\'' :: rest => some (closing '\'' rest)
  | '\r' :: '\n' :: rest => .cons '\n' (literalLines? rest)
  | c :: rest => if c = '\n' ∨ isTextChar c then .cons c (literalLines? rest) else none

/-- Reads a quoted text of one line, as it may also stand for a key. -/
def quotedLine? : List Char → TextRead
  | '"' :: rest => basic? rest
  | '\'' :: rest => literal? rest
  | _ => none

/-- Reads a quoted text. -/
def quoted? : List Char → TextRead
  | '"' :: '"' :: '"' :: rest => basicLines? (dropNewline rest)
  | '\'' :: '\'' :: '\'' :: rest => literalLines? (dropNewline rest)
  | cs => quotedLine? cs

end LineClient.Toml
