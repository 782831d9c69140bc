import LineClient.Binary64.Decimal

/-!
# Arguments of the command line

Options come first, then the mode. An option stands in one argument with its value, after an equals
sign, or in front of it. A value in front of which the option stands is looked at when the next
option or flag comes, or at the end; so a plea for help further right may come first.

* `Mode`, `Invocation`, `Arguments`;
* `OptionName`, `Options`, `Options.set?`: the options one by one;
* **`Arguments.ofList`**, what a list of arguments asks for.
-/

namespace LineClient

/-- What the program is to do. -/
inductive Mode where
  | telemetry
  | load
  deriving DecidableEq, Repr

/-- The options with a value. -/
inductive OptionName where
  | config
  | host
  | port
  deriving DecidableEq, Repr

/-- The options given so far. -/
structure Options where
  config : Option String := none
  host : Option String := none
  port : Option Nat := none
  deriving DecidableEq, Repr

/-- The options and the mode of a run. -/
structure Invocation where
  options : Options
  mode : Mode
  deriving DecidableEq, Repr

/-- What a list of arguments asks for. -/
inductive Arguments where
  | run (invocation : Invocation)
  | help
  /-- The arguments cannot be understood. -/
  | wrong
  deriving DecidableEq, Repr

/-- The mode of a name. -/
def Mode.ofName? (name : String) : Option Mode :=
  if name = "telemetry" then some .telemetry
  else if name = "load" then some .load
  else none

/-- The option of a name. -/
def OptionName.ofName? (name : String) : Option OptionName :=
  if name = "config" then some .config
  else if name = "host" then some .host
  else if name = "port" then some .port
  else none

namespace Options

/-- A port: a whole number of 16 bits. -/
def port? (value : String) : Option Nat :=
  (Decimal.integer? value.toList).bind fun i =>
    if 0 ≤ i ∧ i < 2 ^ 16 then some i.toNat else none

/-- Sets an option; none if it is set already or the value does not fit. -/
def set? (o : Options) (value : String) : OptionName → Option Options
  | .config => if o.config.isSome then none else some { o with config := some value }
  | .host => if o.host.isSome then none else some { o with host := some value }
  | .port =>
    if o.port.isSome then none else (port? value).map fun n => { o with port := some n }

end Options

namespace Arguments

/-- The kinds of arguments, by the hyphens at the beginning. -/
inductive Kind where
  /-- Two hyphens and no more. -/
  | endOfOptions
  /-- Two hyphens, a name, and a value after an equals sign. -/
  | long (name : String) (value : Option String)
  /-- One hyphen and at least one letter. -/
  | short (letter : Char)
  | plain
  deriving DecidableEq, Repr

/-- The kind of an argument. -/
def kind (text : String) : Kind :=
  match text.toList with
  | '-' :: '-' :: [] => .endOfOptions
  | '-' :: '-' :: cs =>
    match cs.dropWhile (· != '=') with
    | [] => .long (String.ofList cs) none
    | _ :: value => .long (String.ofList (cs.takeWhile (· != '='))) (some (String.ofList value))
  | '-' :: c :: _ => .short c
  | _ => .plain

/-- Whether an argument is a plea for help. -/
def isHelp (text : String) : Bool :=
  kind text == .long "help" none || kind text == .short 'h'

/-- An option whose value has not been looked at yet. -/
structure Pending where
  option : OptionName
  value : String
  deriving DecidableEq, Repr

/-- Looks at a value that is still pending. -/
def settle? (o : Options) : Option Pending → Option Options
  | none => some o
  | some p => o.set? p.value p.option

/-- What the arguments after a mode ask for. -/
def afterMode (invocation : Option Invocation) : List String → Arguments
  | [] => (invocation.map run).getD .wrong
  | text :: rest =>
    if isHelp text then .help
    else if kind text = .endOfOptions ∧ rest.isEmpty then (invocation.map run).getD .wrong
    else .wrong

/-- What the arguments after the word `help` ask for: a mode or the word itself may follow. -/
def afterHelp : List String → Arguments
  | [] => .help
  | [topic] => if topic = "help" ∨ (Mode.ofName? topic).isSome then .help else .wrong
  | _ => .wrong

/-- What the arguments ask for, after these options. -/
def read (o : Options) (pending : Option Pending) : List String → Arguments
  | [] => .wrong
  | text :: rest =>
    match kind text with
    | .endOfOptions => .wrong
    | .short c => if c = 'h' ∧ (settle? o pending).isSome then .help else .wrong
    | .long name value =>
      match settle? o pending with
      | none => .wrong
      | some o =>
        if name = "help" ∧ value = none then .help
        else match OptionName.ofName? name, value with
          | none, _ => .wrong
          | some option, some value =>
            match o.set? value option with
            | some o => read o none rest
            | none => .wrong
          | some option, none =>
            match rest with
            | value :: rest =>
              if kind value = .plain then read o (some ⟨option, value⟩) rest else .wrong
            | [] => .wrong
    | .plain =>
      if text = "help" then afterHelp rest
      else match Mode.ofName? text with
        | some mode => afterMode ((settle? o pending).map (⟨·, mode⟩)) rest
        | none => .wrong

/-- What a list of arguments asks for. -/
def ofList (args : List String) : Arguments := read {} none args

end Arguments

end LineClient
