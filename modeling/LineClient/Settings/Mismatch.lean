import LineClient.Settings.Tree
import LineClient.Text.Quoted

/-!
# Values of the wrong kind

A value that does not fit its setting is told with the kind that was wanted. Where a single value
was wanted, the path of the setting is told too, and the origin of the value if it has one.

* `Mismatch`, `Mismatch.message`.
-/

namespace LineClient

/-- A value of the wrong kind. -/
inductive Mismatch where
  /-- The value of a setting that takes a single value. -/
  | value (found wanted key : String) (origin : Option String)
  /-- A value where several were wanted. -/
  | shape (found wanted : String)
  deriving DecidableEq, Repr

namespace Mismatch

def message : Mismatch → String
  | value found wanted key origin =>
    "invalid type: " ++ found ++ ", expected " ++ wanted ++ " for key `" ++ key ++ "`" ++
      (origin.map (" in " ++ ·)).getD ""
  | shape found wanted => "invalid type: " ++ found ++ ", expected " ++ wanted

end Mismatch

/-- A kind of value and the value, in backquotes. -/
def describe (kind text : String) : String := kind ++ " `" ++ text ++ "`"

/-- A scalar, told by its kind and value. -/
def Scalar.description (integer : String) : Scalar → String
  | .nil => "unit value"
  | .boolean b => describe "boolean" (toString b)
  | .integer i => describe integer (toString i)
  | .float x => describe "floating point" x.withPoint
  | .text s => "string " ++ quoted s

namespace Tree

/-- The value, told by its kind. -/
def description (t : Tree) (integer : String) : String :=
  match t with
  | .scalar _ s => s.description integer
  | .list .. => "sequence"
  | .table .. => "map"

def origin : Tree → Option String
  | .scalar origin _ => origin
  | .list origin _ => origin
  | .table origin _ => origin

/-- The mismatch of a tree with a single value. -/
def mismatch (t : Tree) (wanted key : String) : Mismatch :=
  .value (t.description "64-bit integer") wanted key t.origin

/-- The mismatch of a tree with several values. -/
def shapeMismatch (t : Tree) (wanted : String) : Mismatch :=
  .shape (t.description "integer") wanted

end Tree

end LineClient
