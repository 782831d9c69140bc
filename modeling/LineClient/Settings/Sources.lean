import LineClient.Files
import LineClient.Settings.Check
import LineClient.Settings.Fields
import LineClient.Toml.Document

/-!
# Where settings come from

Settings come from their defaults, from a file, and from the environment. Each of these goes
before the one in front of it, setting by setting.

* `FileTree.settingsFile?`, the file that a path names;
* `fileLayer`, `environmentLayer`;
* `SettingsError`, **`Settings.ofSources`**.
-/

namespace LineClient

/-! ## The file -/

/-- The path of a settings file, as it is seen from the working directory, and its content. The path
may lack the extension of the file. A file with another extension is not read. -/
def FileTree.settingsFile? (files : FileTree) (path : String) : Option (String × ByteArray) :=
  let p := Path.ofText path
  match files.read? p with
  | some content =>
    let name := p.components.getLast?.getD ""
    if name.endsWith ".toml" ∧ name ≠ ".toml" then some (files.relativeText p, content) else none
  | none =>
    match p.withSuffix? ".toml" with
    | some p => (files.read? p).map (files.relativeText p, ·)
    | none => none

/-- The settings of a file; none if it is malformed. A file that is not there, or that is no text,
has no settings. -/
def fileLayer? (files : FileTree) (path : String) : Option (Entries Tree) :=
  match files.settingsFile? path with
  | none => some []
  | some (origin, content) =>
    match String.fromUTF8? content with
    | none => some []
    | some text => (Toml.document? text).map fun d => Entries.ofList (Tree.ofTomlEntries origin d)

/-! ## The environment -/

/-- What the names of the variables begin with, in lower case. -/
def variablePrefix : List Char := "pihub__".toList

/-- Writes a dot for each two underscores. -/
def dotted : List Char → List Char
  | '_' :: '_' :: rest => '.' :: dotted rest
  | c :: rest => c :: dotted rest
  | [] => []

/-- The path that the name of a variable stands for. -/
def variablePath? (name : String) : Option String :=
  let cs := (Tree.lowerName name).toList
  if variablePrefix.isPrefixOf cs then
    some (String.ofList (dotted (cs.drop variablePrefix.length)))
  else none

/-- The value that the text of a variable stands for: a truth value in any case, a whole number
within 64 bits with sign, a number, or else the text. -/
def variableValue (text : String) : Scalar :=
  let word := String.ofList (asciiLower text.toList)
  if word = "true" then .boolean true
  else if word = "false" then .boolean false
  else match (Decimal.integer? text.toList).filter fun i => -(2 ^ 63) ≤ i ∧ i < 2 ^ 63 with
    | some i => .integer i
    | none =>
      match Binary64.ofText? text.toList with
      | some x => .float x
      | none => .text text

/-- The settings of the environment. -/
def environmentLayer (environment : List (String × String)) : Entries Tree :=
  Entries.ofList (environment.filterMap fun (name, text) =>
    (variablePath? name).map (·, .scalar "the environment" (variableValue text)))

/-! ## Settings -/

/-- Why settings cannot be had. -/
inductive SettingsError where
  /-- The file is malformed. -/
  | malformed
  /-- A list would have to begin after one of its elements, or to grow out of reach. -/
  | outOfReach
  | mismatch (path : String) (m : Mismatch)
  | fault (f : SettingsFault)
  deriving DecidableEq, Repr

/-- The settings of a file and an environment. -/
def Settings.ofSources (files : FileTree) (environment : List (String × String)) (path : String) :
    Except SettingsError Settings := do
  let some layer := fileLayer? files path | throw .malformed
  let tree := do (← Tree.fresh.overlay? layer).overlay? (environmentLayer environment)
  let some tree := tree | throw .outOfReach
  match Settings.ofTree tree with
  | .error m => throw (.mismatch path m)
  | .ok settings =>
    match settings.fault? with
    | some f => throw (.fault f)
    | none => return settings

end LineClient
