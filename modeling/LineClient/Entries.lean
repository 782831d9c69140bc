/-!
# Entries — values under names

A table is a list of entries, each a name and a value, in the ascending order of the names. A name
occurs at most once.

* `Entries.find?`, the value under a name;
* `Entries.put`, which adds an entry or replaces one;
* `Entries.ofList`, where the last of several entries of one name counts.
-/

namespace LineClient

/-- Values under names. -/
abbrev Entries (α : Type) := List (String × α)

namespace Entries

variable {α : Type}

/-- The value under a name. -/
def find? (name : String) : Entries α → Option α
  | [] => none
  | (key, a) :: rest => if key = name then some a else find? name rest

/-- Puts a value under a name, in place of one that is there. -/
def put (name : String) (a : α) : Entries α → Entries α
  | [] => [(name, a)]
  | (key, b) :: rest =>
    if name < key then (name, a) :: (key, b) :: rest
    else if key = name then (name, a) :: rest
    else (key, b) :: put name a rest

/-- The entries of a list of pairs. -/
def ofList (pairs : List (String × α)) : Entries α :=
  pairs.foldl (fun entries (name, a) => entries.put name a) []

end Entries

end LineClient
