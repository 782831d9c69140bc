import LineClient.Settings.KeyPath
import LineClient.Toml.Value

/-!
# Trees of settings

Settings are collected in a tree of tables and lists, layer by layer. Each value knows where it
comes from, unless it was made on the way to another one.

* `Scalar`, `Tree`, `Tree.ofToml`;
* `Tree.set`, a value under a name: tables are merged, everything else is replaced;
* **`Tree.setAt?`**, a value at the end of a path.
-/

namespace LineClient

/-- A value without parts. -/
inductive Scalar where
  | nil
  | boolean (b : Bool)
  | integer (i : Int)
  | float (x : Binary64)
  | text (s : String)
  deriving DecidableEq, Repr

/-- A tree of settings. -/
inductive Tree where
  | scalar (origin : Option String) (s : Scalar)
  | list (origin : Option String) (items : List Tree)
  | table (origin : Option String) (entries : List (String × Tree))
  deriving Repr

namespace Tree

/-- A value that is there only to fill a place. -/
def filler : Tree := .scalar none .nil

/-- A table without origin. -/
def fresh : Tree := .table none []

/-- A name in lower case. Beside the ASCII letters the Kelvin sign has an ASCII lower case; the
other letters keep their form, as no setting is named by them. -/
def lowerName (name : String) : String :=
  String.ofList (name.toList.map fun c => if c = '\u212A' then 'k' else c.toLower)

mutual

/-- The tree of a value of a document, with names in lower case. -/
def ofToml (origin : String) : Toml.Value → Tree
  | .text s => .scalar origin (.text s)
  | .integer i => .scalar origin (.integer i)
  | .float x => .scalar origin (.float x)
  | .boolean b => .scalar origin (.boolean b)
  | .list items => .list origin (ofTomlItems origin items)
  | .table entries => .table origin (Entries.ofList (ofTomlEntries origin entries))

/-- The trees of the elements of a list. -/
def ofTomlItems (origin : String) : List Toml.Value → List Tree
  | [] => []
  | v :: rest => ofToml origin v :: ofTomlItems origin rest

/-- The trees of entries. -/
def ofTomlEntries (origin : String) : List (String × Toml.Value) → List (String × Tree)
  | [] => []
  | (name, v) :: rest => (lowerName name, ofToml origin v) :: ofTomlEntries origin rest

end

/-! ## Parts -/

/-- The entries of a table; other trees have none. -/
def entries : Tree → Entries Tree
  | .table _ entries => entries
  | _ => []

/-- The elements of a list; other trees have none. -/
def items : Tree → List Tree
  | .list _ items => items
  | _ => []

/-- The value under a name. -/
def find? (t : Tree) (name : String) : Option Tree := t.entries.find? name

/-- The origin of a table, or none for a table that takes the place of another value. -/
def tableOrigin : Tree → Option String
  | .table origin _ => origin
  | _ => none

/-- The origin of a list, or none for a list that takes the place of another value. -/
def listOrigin : Tree → Option String
  | .list origin _ => origin
  | _ => none

/-- Replaces the value under a name. A value that is no table becomes one. -/
def put (t : Tree) (name : String) (v : Tree) : Tree :=
  .table t.tableOrigin (t.entries.put name v)

/-- The greatest position that a list is filled up to. -/
def farthest : Nat := 2 ^ 26

/-- The position of an element, counted from the end if `index` is negative; none if the list
begins after it, or if it is out of reach. -/
def position? (index : Int) (length : Nat) : Option Nat :=
  let i := if 0 ≤ index then index else index + length
  if 0 ≤ i ∧ i ≤ farthest then some i.toNat else none

/-- Replaces the element at a position and fills the list up to it. A value that is no list
becomes one. -/
def putItem (t : Tree) (i : Nat) (v : Tree) : Tree :=
  .list t.listOrigin
    ((t.items ++ List.replicate (i + 1 - t.items.length) filler).set i v)

/-! ## Setting values -/

mutual

/-- Sets the value under a name. The entries of a table are set one by one in the value that is
there. -/
def set (name : String) : (v : Tree) → Tree → Tree
  | .table _ incoming, t => t.put name (setAll incoming ((t.find? name).getD fresh))
  | .list origin items, t => t.put name (.list origin items)
  | .scalar origin s, t => t.put name (.scalar origin s)

/-- Sets values under their names. -/
def setAll : List (String × Tree) → Tree → Tree
  | [], t => t
  | (name, v) :: rest, t => setAll rest (set name v t)

end

/-- Sets the value at the end of a path. What stands on the way and has the wrong form gives way;
none if an element is out of reach. -/
def setAt? (v : Tree) : Step → List Step → Tree → Option Tree
  | .member name, [], t => some (set name v t)
  | .member name, step :: rest, t =>
    (setAt? v step rest ((t.find? name).getD filler)).map (t.put name)
  | .element index, [], t => (position? index t.items.length).map fun i => t.putItem i v
  | .element index, step :: rest, t => do
    let i ← position? index t.items.length
    (setAt? v step rest (t.items.getD i filler)).map (t.putItem i)

/-- Sets the values of a layer, each at the end of the path that its name spells. -/
def overlay? (t : Tree) (layer : Entries Tree) : Option Tree :=
  layer.foldlM (fun (t : Tree) (name, v) =>
    let path := KeyPath.ofText name
    setAt? v (.member path.name) path.steps t) t

end Tree

end LineClient
