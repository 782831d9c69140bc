import LineClient.Binary64.Text
import LineClient.Entries

/-!
# TOML values

Dates and times are kept as text. The entries of a table stand in the order of their keys.

* `Toml.Value`.
-/

namespace LineClient.Toml

/-- A value of a TOML document. -/
inductive Value where
  | text (s : String)
  | integer (i : Int)
  | float (x : Binary64)
  | boolean (b : Bool)
  | list (items : List Value)
  | table (entries : List (String × Value))
  deriving Repr

end LineClient.Toml
