import LineClient.Binary64.Decimal

/-!
# Paths of settings

A path names a value in a tree of settings: a name, and then members `.name` and elements
`[number]`. The elements of a list are counted from its end by negative numbers.

* `Step`, `KeyPath`;
* **`KeyPath.ofText`**: a text that is no path is one name as a whole.
-/

namespace LineClient

/-- One step down a tree of settings. -/
inductive Step where
  | member (name : String)
  | element (index : Int)
  deriving DecidableEq, Repr

/-- A name and the steps below it. -/
structure KeyPath where
  name : String
  steps : List Step
  deriving DecidableEq, Repr

namespace KeyPath

/-- A character of a name. -/
def isNameChar (c : Char) : Bool := c.isAlphanum || c == '_' || c == '-' || c == ' ' || c == '\n'

/-- Reads a name. -/
def name? (cs : List Char) : Option (String × List Char) :=
  let name := cs.takeWhile isNameChar
  if name.isEmpty then none else some (String.ofList name, cs.dropWhile isNameChar)

/-- A whole number within 64 bits with sign, written with digits and an optional minus. -/
def index? (cs : List Char) : Option Int :=
  if cs.head? = some '+' then none
  else (Decimal.integer? cs).filter fun i => -(2 ^ 63) ≤ i ∧ i < 2 ^ 63

/-- Reads one step. -/
def step? : List Char → Option (Step × List Char)
  | '.' :: cs => (name? cs).map fun (name, rest) => (.member name, rest)
  | '[' :: cs =>
    let isSpace (c : Char) := c == ' ' || c == '\t'
    let number := (cs.dropWhile isSpace).takeWhile fun c => c == '-' || c.isDigit
    match ((cs.dropWhile isSpace).drop number.length).dropWhile isSpace with
    | ']' :: rest => (index? number).map fun i => (.element i, rest)
    | _ => none
  | _ => none

/-- Reads steps up to the end of the text. -/
def steps? : (fuel : Nat) → List Char → Option (List Step)
  | _, [] => some []
  | 0, _ => none
  | fuel + 1, cs => do
    let (step, rest) ← step? cs
    (steps? fuel rest).map (step :: ·)

/-- The path that a text spells. -/
def ofText (text : String) : KeyPath :=
  let path : Option KeyPath := do
    let (name, rest) ← name? text.toList
    (steps? rest.length rest).map (⟨name, ·⟩)
  path.getD ⟨text, []⟩

end KeyPath

end LineClient
