import LineClient.Toml.Draft
import LineClient.Toml.Scalar

/-!
# TOML documents

A document is a list of statements, each on lines of its own: a key with a value, or the header of
a table or of an element of a list of tables.

* `keyPath?`, `value?`, `statement?`, each with what follows it;
* `Statement`, `DraftAt.apply?`, what a statement does to the table under construction;
* **`document?`**, the table that a document describes.

Lists and tables in braces may be nested 79 deep, and a key may have 79 names.
-/

namespace LineClient.Toml

/-! ## Keys -/

/-- A character of a key without quotes. -/
def isKeyChar (c : Char) : Bool := c.isAlphanum || c == '_' || c == '-'

/-- Reads one name of a key. -/
def keyName? (cs : List Char) : Option (String × List Char) :=
  match quotedLine? cs with
  | some (name, rest) => some (String.ofList name, rest)
  | none =>
    let name := cs.takeWhile isKeyChar
    if name.isEmpty then none else some (String.ofList name, cs.dropWhile isKeyChar)

/-- Reads a key of at most `most` names, which dots separate. Its names but the last come first,
then the last. -/
def keyPath? : (most : Nat) → List Char → Option ((List String × String) × List Char)
  | 0, _ => none
  | most + 1, cs => do
    let (name, rest) ← keyName? (skipSpaces cs)
    match skipSpaces rest with
    | '.' :: more =>
      let ((path, last), rest) ← keyPath? most more
      some ((name :: path, last), rest)
    | rest => some (([], name), rest)

/-- The greatest number of names of a key, and the greatest depth of lists and tables. -/
def nesting : Nat := 79

/-- Reads a key and the equals sign behind it. -/
def assigned? (cs : List Char) : Option ((List String × String) × List Char) :=
  match keyPath? nesting cs with
  | some (key, '=' :: rest) => some (key, skipSpaces rest)
  | _ => none

/-! ## Values -/

/-- The table of values under keys, if they agree. -/
def inlineTable? (pairs : List ((List String × String) × Value)) : Option Value :=
  let add (d : Draft) (pair : (List String × String) × Value) : Option Draft :=
    d.insert? pair.1.1 pair.1.2 pair.2
  (pairs.foldlM add []).map fun d => .table (Draft.values d)

mutual

/-- Reads a value. No more than `depth` lists and tables may be nested in it. -/
def value? : (fuel depth : Nat) → List Char → Option (Value × List Char)
  | 0, _, _ => none
  | fuel + 1, depth, cs =>
    match depth, cs with
    | depth + 1, '[' :: rest =>
      (items? fuel depth rest).map fun (items, rest) => (.list items, rest)
    | depth + 1, '{' :: rest =>
      match skipSpaces rest with
      | '}' :: rest => some (.table [], rest)
      | rest => do
        let (pairs, rest) ← pairs? fuel depth rest
        (inlineTable? pairs).map (·, rest)
    | _, cs => scalar? cs

/-- Reads the elements of a list and the bracket that ends it. -/
def items? : (fuel depth : Nat) → List Char → Option (List Value × List Char)
  | 0, _, _ => none
  | fuel + 1, depth, cs =>
    match skipLayout false cs with
    | ']' :: rest => some ([], rest)
    | cs => do
      let (v, rest) ← value? fuel depth cs
      match skipLayout false rest with
      | ',' :: rest => (items? fuel depth rest).map fun (items, rest) => (v :: items, rest)
      | ']' :: rest => some ([v], rest)
      | _ => none

/-- Reads keys with values and the brace that ends them. -/
def pairs? : (fuel depth : Nat) → List Char →
    Option (List ((List String × String) × Value) × List Char)
  | 0, _, _ => none
  | fuel + 1, depth, cs => do
    let (key, rest) ← assigned? cs
    let (v, rest) ← value? fuel depth rest
    match skipSpaces rest with
    | ',' :: rest => (pairs? fuel depth rest).map fun (pairs, rest) => ((key, v) :: pairs, rest)
    | '}' :: rest => some ([(key, v)], rest)
    | _ => none

end

/-! ## Statements -/

/-- A line of a document. -/
inductive Statement where
  /-- The header of a table. -/
  | table (path : List String) (name : String)
  /-- The header of a new element of a list of tables. -/
  | element (path : List String) (name : String)
  | pair (path : List String) (name : String) (v : Value)

/-- Reads a header between brackets, of which one has been read. -/
def header? (cs : List Char) : Option (Statement × List Char) :=
  match cs with
  | '[' :: cs =>
    match keyPath? nesting cs with
    | some ((path, name), ']' :: ']' :: rest) => some (.element path name, rest)
    | _ => none
  | cs =>
    match keyPath? nesting cs with
    | some ((path, name), ']' :: rest) => some (.table path name, rest)
    | _ => none

/-- Reads a statement up to the end of its last line. -/
def statement? (cs : List Char) : Option (Statement × List Char) := do
  let (s, rest) ← match cs with
    | '[' :: cs => header? cs
    | cs => do
      let ((path, name), rest) ← assigned? cs
      let (v, rest) ← value? (2 * rest.length + 2) nesting rest
      some (.pair path name v, rest)
  (lineEnd? rest).map (s, ·)

/-- Reads statements; lines without one are left out. -/
def statements? : (fuel : Nat) → List Char → Option (List Statement)
  | 0, _ => none
  | fuel + 1, cs =>
    match skipSpaces cs with
    | [] => some []
    | cs =>
      match (if cs.head? = some '#' then lineEnd? cs else newline? cs) with
      | some rest => statements? fuel rest
      | none => do
        let (s, rest) ← statement? cs
        (statements? fuel rest).map (s :: ·)

/-! ## Meaning -/

/-- A table under construction, and the path of the header in force. -/
structure DraftAt where
  draft : Draft
  header : List String

/-- What a statement does, unless it contradicts an earlier one. -/
def DraftAt.apply? (d : DraftAt) : Statement → Option DraftAt
  | .table path name => (d.draft.openTable? path name).map (⟨·, path ++ [name]⟩)
  | .element path name => (d.draft.openElement? path name).map (⟨·, path ++ [name]⟩)
  | .pair path name v => (d.draft.insertBelow? d.header path name v).map (⟨·, d.header⟩)

/-- The table that a document describes. A byte order mark may stand in front of it. -/
def document? (text : String) : Option (Entries Value) := do
  let cs := match text.toList with
    | '\uFEFF' :: cs => cs
    | cs => cs
  let statements ← statements? (cs.length + 1) cs
  let d ← statements.foldlM DraftAt.apply? ⟨[], []⟩
  some d.draft.values

end LineClient.Toml
