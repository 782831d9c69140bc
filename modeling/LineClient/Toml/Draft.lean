import LineClient.Toml.Value

/-!
# Tables under construction

A document names its tables and values by paths. A table is declared once, by a header or between
braces; before that it may be implied by the header of a table below it. A table that keys with
dots build is dotted, and only they add to it. The path of a header leads through a list of
tables to the last of them.

* `Node`, `Draft`;
* `Draft.insert?`, `Draft.openTable?`, `Draft.openElement?`, none if the path is taken;
* `Draft.values`, the finished table.
-/

namespace LineClient.Toml

/-- How a table came about. -/
inductive TableKind where
  | declared
  | implied
  | dotted
  deriving DecidableEq, Repr

/-- What stands under a key of a table under construction. -/
inductive Node where
  | leaf (v : Value)
  | table (kind : TableKind) (entries : List (String × Node))
  /-- A list of tables: the earlier ones, the last of them first, and the current one. -/
  | tables (earlier : List (List (String × Node))) (current : List (String × Node))

/-- A table under construction. -/
abbrev Draft := Entries Node

namespace Draft

/-- Changes the table at the end of a path by `f`, which is told how the table came about. Tables
that are missing on the way are made, `dotted` or implied. Keys with dots do not lead into
declared tables. -/
def descend? (dotted : Bool) (f : TableKind → Draft → Option Draft) (kind : TableKind) :
    List String → Draft → Option Draft
  | [], d => f kind d
  | key :: path, d =>
    match d.find? key with
    | none =>
      let kind := if dotted then .dotted else .implied
      (descend? dotted f kind path []).map fun sub => d.put key (.table kind sub)
    | some (.leaf _) => none
    | some (.table kind sub) =>
      if dotted ∧ kind = .declared then none
      else (descend? dotted f kind path sub).map fun sub => d.put key (.table kind sub)
    | some (.tables earlier current) =>
      (descend? dotted f .declared path current).map fun sub => d.put key (.tables earlier sub)

/-- Puts a value at the end of a path of keys with dots, where nothing may be yet. A path of more
than one key ends in a dotted table. -/
def insert? (path : List String) (name : String) (v : Value) (d : Draft) : Option Draft :=
  let add (kind : TableKind) (d : Draft) : Option Draft :=
    if decide (kind = .dotted) = path.isEmpty ∨ (d.find? name).isSome then none
    else some (d.put name (.leaf v))
  d.descend? true add .declared path

/-- Declares a table that is not there, or only implied. -/
def openTable? (path : List String) (name : String) (d : Draft) : Option Draft :=
  let declare (_ : TableKind) (d : Draft) : Option Draft :=
    match d.find? name with
    | none => some (d.put name (.table .declared []))
    | some (.table .implied sub) => some (d.put name (.table .declared sub))
    | some _ => none
  d.descend? false declare .declared path

/-- Adds an empty table to a list of tables, or begins such a list. -/
def openElement? (path : List String) (name : String) (d : Draft) : Option Draft :=
  let add (_ : TableKind) (d : Draft) : Option Draft :=
    match d.find? name with
    | none => some (d.put name (.tables [] []))
    | some (.tables earlier current) => some (d.put name (.tables (current :: earlier) []))
    | some _ => none
  d.descend? false add .declared path

/-- Puts a value below the table of a header. -/
def insertBelow? (header path : List String) (name : String) (v : Value) (d : Draft) :
    Option Draft :=
  d.descend? false (fun _ table => insert? path name v table) .declared header

end Draft

/-! ## Finished tables -/

mutual

/-- The finished value of a node. -/
def Node.value : Node → Value
  | .leaf v => v
  | .table _ entries => .table (entryValues entries)
  | .tables earlier current => .list (tableValues earlier [.table (entryValues current)])

/-- The finished values of entries. -/
def entryValues : List (String × Node) → List (String × Value)
  | [] => []
  | (key, node) :: rest => (key, node.value) :: entryValues rest

/-- The finished tables in front of `later`, of tables that begin with the last. -/
def tableValues : List (List (String × Node)) → List Value → List Value
  | [], later => later
  | entries :: rest, later => tableValues rest (.table (entryValues entries) :: later)

end

/-- The finished table. -/
def Draft.values (d : Draft) : Entries Value := entryValues d

end LineClient.Toml
