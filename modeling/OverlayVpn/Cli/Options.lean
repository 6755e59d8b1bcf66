import OverlayVpn.Text.Blank

set_option autoImplicit false

/-! # Options

A command line starts with options and goes on with whatever else there is. An option is
`--name value`, `--name=value`, `-n value`, `-nvalue` or `-n=value`, and may be given once. A
value does not start with a hyphen, unless it is one or is joined to its option. -/

namespace OverlayVpn

open Text

/-- An option. -/
structure OptionSpec where
  name : String
  /-- Its short name. -/
  letter : Option Char := none
  /-- Whether a value follows. -/
  hasValue : Bool := true
  deriving DecidableEq, Repr

/-- The options that were given, with their values, and what follows them. -/
structure Options where
  given : List (String × String) := []
  rest : List String := []
  deriving DecidableEq, Repr

namespace Options

/-- The value of an option. -/
def value? (o : Options) (name : String) : Option String := o.given.lookup name

/-- What an argument says if it is an option: the option, and a value that is joined to it. -/
inductive Reading where
  | option (spec : OptionSpec) (joined : Option String)
  | plain
  | unknown

/-- An argument as an option. -/
def Reading.ofText (specs : List OptionSpec) (arg : String) : Reading :=
  let found (spec? : Option OptionSpec) (joined : Option String) : Reading :=
    match spec? with
    | some spec => .option spec joined
    | none => .unknown
  match arg.toList with
  | '-' :: '-' :: name =>
    match cutAt '=' name with
    | some (name, joined) =>
      found (specs.find? (·.name == String.ofList name)) (some (String.ofList joined))
    | none => found (specs.find? (·.name == String.ofList name)) none
  | ['-'] => .plain
  | '-' :: letter :: joined =>
    let joined := match joined with
      | [] => none
      | '=' :: joined => some (String.ofList joined)
      | joined => some (String.ofList joined)
    found (specs.find? (·.letter == some letter)) joined
  | _ => .plain

/-- Whether an argument can be the value of the option in front of it. -/
def isValue (arg : String) : Bool :=
  match arg.toList with
  | '-' :: _ :: _ => false
  | _ => true

/-- Reads options up to the first argument that is none; `none` when they make no sense. -/
def readFrom (specs : List OptionSpec) (given : List (String × String)) :
    List String → Option Options
  | [] => some { given }
  | arg :: rest =>
    match Reading.ofText specs arg with
    | .unknown => none
    | .plain => some { given, rest := arg :: rest }
    | .option spec joined =>
      if (given.lookup spec.name).isSome then none
      else match spec.hasValue, joined, rest with
        | false, none, rest => readFrom specs (given ++ [(spec.name, "")]) rest
        | false, some _, _ => none
        | true, some value, rest => readFrom specs (given ++ [(spec.name, value)]) rest
        | true, none, value :: rest =>
          if isValue value then readFrom specs (given ++ [(spec.name, value)]) rest else none
        | true, none, [] => none

/-- Reads options. -/
def read (specs : List OptionSpec) (args : List String) : Option Options := readFrom specs [] args

end Options

end OverlayVpn
