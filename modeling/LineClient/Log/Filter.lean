import LineClient.Binary64.Decimal
import LineClient.Log.Event

/-!
# Filters of the log

A filter is a list of directives, each a level, a target, or a target with its level; commas
separate them. An event shows if the directive with the longest target that its own target begins
with admits its level, the last one of several. Without any directive only errors show.

* `Directive`, `Filter`;
* `Filter.ofText?`, which fails on a directive that cannot be read, and `Filter.ofText`, which
  leaves it out;
* **`Filter.admits`**.
-/

namespace LineClient

/-- Up to which level the events of a target show; `0` is none at all, and without a target all
events are meant. -/
structure Directive where
  target : Option String
  verbosity : Nat
  deriving DecidableEq, Repr

/-- Directives, the last of them the strongest. -/
abbrev Filter := List Directive

/-- The greatest verbosity. -/
def fullVerbosity : Nat := 5

/-- The verbosity of a level, by its name in any case or by its number. No name at all stands for
errors. -/
def verbosity? (text : String) : Option Nat :=
  let name := String.ofList (asciiLower text.toList)
  if name = "off" then some 0
  else if name = "error" ∨ name = "" then some 1
  else if name = "warn" then some 2
  else if name = "info" then some 3
  else if name = "debug" then some 4
  else if name = "trace" then some fullVerbosity
  else if text.toList.head? = some '-' then none
  else (Decimal.integer? text.toList).bind fun i =>
    if i ≤ fullVerbosity then some i.toNat else none

namespace Directive

/-- A character that a directive may begin with. -/
def isStart (c : Char) : Bool :=
  c.isAlphanum || c == '-' || c == ':' || c == '_' || 0x80 ≤ c.toNat

/-- Reads a directive. A target without a level shows in full. -/
def ofText? (text : String) : Option Directive :=
  if !text.toList.head?.any isStart then none
  else match text.toList.dropWhile (· != '=') with
    | [] => some (match verbosity? text with
      | some v => ⟨none, v⟩
      | none => ⟨some text, fullVerbosity⟩)
    | _ :: level =>
      (verbosity? (String.ofList level)).map
        (⟨some (String.ofList (text.toList.takeWhile (· != '='))), ·⟩)

/-- Whether a directive is about an event. -/
def covers (d : Directive) (e : Event) : Bool :=
  match d.target with
  | none => true
  | some target => e.source.target.startsWith target

/-- How narrow the target of a directive is. -/
def narrowness (d : Directive) : Nat :=
  match d.target with
  | none => 0
  | some target => target.length + 1

end Directive

namespace Filter

/-- The directives in a text. -/
def parts (text : String) : List String := (text.splitOn ",").filter (· ≠ "")

/-- A filter with at least one directive. -/
def orErrors (f : Filter) : Filter := if f.isEmpty then [⟨none, 1⟩] else f

/-- Reads a filter all of whose directives can be read. -/
def ofText? (text : String) : Option Filter :=
  ((parts text).mapM Directive.ofText?).map orErrors

/-- Reads the directives of a filter that can be read. -/
def ofText (text : String) : Filter := orErrors ((parts text).filterMap Directive.ofText?)

/-- The strongest of the directives about an event. -/
def governing? (f : Filter) (e : Event) : Option Directive :=
  (f.filter (·.covers e)).foldl (fun best d =>
    if best.any (d.narrowness < ·.narrowness) then best else some d) none

/-- Whether an event shows. -/
def admits (f : Filter) (e : Event) : Bool :=
  (f.governing? e).any (e.level.verbosity ≤ ·.verbosity)

end Filter

end LineClient
