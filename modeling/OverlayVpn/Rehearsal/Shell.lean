import OverlayVpn.System.Command
import OverlayVpn.Text.Decimal

set_option autoImplicit false

/-! # A small shell

Four programs that every machine has: `sh`, `echo`, `true` and `false`. A script of the shell is a
sequence of simple commands with quotes, parameters and redirections; it is read and carried out
command by command. -/

namespace OverlayVpn.Shell

open Text

/-! ## Escapes -/

/-- Whether a character is an octal digit. -/
def isOctal (c : Char) : Bool := '0' ≤ c && c ≤ '7'

/-- The byte that octal digits tell. -/
def octalByte (digits : List Char) : UInt8 :=
  UInt8.ofNat (digits.foldl (fun n c => n * 8 + (c.toNat - 48)) 0)

/-- The control characters that have an escape. -/
def controlEscapes : List (Char × UInt8) :=
  [('a', 7), ('b', 8), ('f', 12), ('n', 10), ('r', 13), ('t', 9), ('v', 11), ('\\', 92)]

/-- The bytes of a text in which a backslash starts an escape. Numbers are octal; with `zero` they
start with an extra zero. -/
def unescape (zero : Bool) : Nat → List Char → List UInt8
  | steps + 1, '\\' :: c :: rest =>
    let number := if zero then rest else c :: rest
    let digits := (number.take 3).takeWhile isOctal
    match controlEscapes.lookup c with
    | some byte => byte :: unescape zero steps rest
    | none =>
      if if zero then c == '0' else isOctal c then
        octalByte digits :: unescape zero steps (number.drop digits.length)
      else 92 :: Utf8.encodeChar c ++ unescape zero steps rest
  | steps + 1, c :: rest => Utf8.encodeChar c ++ unescape zero steps rest
  | _, _ => []

/-! ## Formats -/

/-- A conversion in a format: `%`, a width, a precision and a letter. -/
structure Conversion where
  left : Bool
  width : Nat
  precision : Option Nat
  letter : Char

/-- The conversion after a percent sign, and what follows it. -/
def conversion? (cs : List Char) : Option (Conversion × List Char) :=
  let isDigit (c : Char) : Bool := (Decimal.digit? c).isSome
  let number (digits : List Char) : Nat := (Decimal.digits? digits).getD 0
  let left := cs.head? == some '-'
  let cs := if left then cs.drop 1 else cs
  let width := cs.takeWhile isDigit
  let cs := cs.drop width.length
  let (precision, cs) := match cs with
    | '.' :: rest =>
      let digits := rest.takeWhile isDigit
      (some (number digits), rest.drop digits.length)
    | _ => (none, cs)
  match cs with
  | letter :: rest => some ({ left, width := number width, precision, letter }, rest)
  | [] => none

/-- An argument as a conversion shows it. -/
def Conversion.show (c : Conversion) (arg : String) : List UInt8 :=
  let shown := match c.letter with
    | 'd' | 'i' | 'u' => (Decimal.renderInt ((Decimal.signed64? arg).getD 0)).toList
    | 'c' => arg.toList.take 1
    | _ => match c.precision with
      | some limit => arg.toList.take limit
      | none => arg.toList
  let room := List.replicate (c.width - shown.length) ' '
  Utf8.encodeChars (if c.left then shown ++ room else room ++ shown)

/-- A format filled in once, and the arguments that it leaves. -/
def fill : Nat → List String → List Char → List UInt8 × List String
  | steps + 1, args, '%' :: '%' :: rest =>
    let (bytes, args) := fill steps args rest
    (37 :: bytes, args)
  | steps + 1, args, '%' :: rest =>
    match conversion? rest with
    | some (c, rest) =>
      let (bytes, left) := fill steps (args.drop 1) rest
      (c.show (args.headD "") ++ bytes, left)
    | none => ([37], args)
  | steps + 1, args, cs =>
    let plain := cs.takeWhile (· != '%')
    let (bytes, left) := if cs.isEmpty then ([], args) else fill steps args (cs.drop plain.length)
    (unescape false plain.length plain ++ bytes, left)
  | 0, args, _ => ([], args)

/-- A format filled in as often as its arguments last, but once at least. -/
def fillAll (format : List Char) : Nat → List String → List UInt8
  | 0, _ => []
  | times + 1, args =>
    let (bytes, left) := fill (format.length + 1) args format
    if left.isEmpty || left.length = args.length then bytes
    else bytes ++ fillAll format times left

/-- What `printf` writes. -/
def formatted (format : String) (args : List String) : List UInt8 :=
  fillAll format.toList (args.length + 1) args

/-! ## Programs and commands -/

/-- Where output goes. -/
inductive Channel where
  | stdout
  | stderr
  | nowhere
  deriving DecidableEq, Repr

/-- A simple command. -/
structure Simple where
  words : List String := []
  outTo : Channel := .stdout
  errTo : Channel := .stderr

/-- What follows a command. -/
inductive Joint where
  | always
  | ifWell
  | ifBadly
  deriving DecidableEq, Repr

/-- A shell that runs a script. -/
structure State where
  name : String
  params : List String
  status : Nat := 0
  ended : Option ExitStatus := none
  stdout : List UInt8 := []
  stderr : List UInt8 := []

/-- The texts with blanks between them and a line feed at the end. -/
def echoBytes (newLine escapes : Bool) (words : List String) : List UInt8 :=
  let cs := (join " " words).toList
  let bytes := if escapes then unescape true cs.length cs else Utf8.encodeChars cs
  if newLine then bytes ++ [10] else bytes

/-- The shell after output on a channel. -/
def State.emit (s : State) (bytes : List UInt8) : Channel → State
  | .stdout => { s with stdout := s.stdout ++ bytes }
  | .stderr => { s with stderr := s.stderr ++ bytes }
  | .nowhere => s

/-- The shell after it has ended. -/
def State.finish (s : State) (status : ExitStatus) : State := { s with ended := some status }

/-- The number of a signal by its name or its number, after a hyphen. -/
def signal? (option : String) : Option Nat :=
  match after? ['-'] option.toList with
  | some name =>
    Decimal.digits? name <|>
      (signalNames.find? fun (_, known) =>
        known == String.ofList name || known == "SIG" ++ String.ofList name).map (·.1)
  | none => none

/-- The shell after a command. -/
def State.perform (s : State) (c : Simple) : State :=
  match c.words with
  | [] | ":" :: _ | "true" :: _ | "sleep" :: _ => { s with status := 0 }
  | "false" :: _ => { s with status := 1 }
  | "echo" :: "-n" :: words => { s.emit (echoBytes false true words) c.outTo with status := 0 }
  | "echo" :: words => { s.emit (echoBytes true true words) c.outTo with status := 0 }
  | "printf" :: format :: args => { s.emit (formatted format args) c.outTo with status := 0 }
  | ["exit"] => s.finish (.code s.status)
  | "exit" :: n :: _ => s.finish (.code ((Decimal.digits? n.toList).getD 2 % 256))
  | ["kill", option, "1"] => s.finish (.signal ((signal? option).getD 15))
  | ["kill", "1"] => s.finish (.signal 15)
  | word :: _ =>
    { s.emit (Utf8.encode (s!"{s.name}: 1: {word}: not found\n")) c.errTo with status := 127 }

/-! ## Scripts -/

/-- The quotes that a character stands in. -/
inductive Quotes where
  | none
  | single
  | double
  deriving DecidableEq, Repr

/-- A command that is read: its words, the latest first, and the characters of a word that is not
complete, the latest first. -/
structure Draft where
  words : List String := []
  current : Option (List Char) := none
  outTo : Channel := .stdout
  errTo : Channel := .stderr

namespace Draft

/-- With a character added to the current word. -/
def push (d : Draft) (c : Char) : Draft := { d with current := some (c :: d.current.getD []) }

/-- With a word begun. -/
def begin (d : Draft) : Draft := { d with current := some (d.current.getD []) }

/-- With the current word complete. -/
def close (d : Draft) : Draft :=
  match d.current with
  | some cs => { d with words := String.ofList cs.reverse :: d.words, current := none }
  | none => d

/-- With a text added to the current word. -/
def pushText (d : Draft) (s : String) : Draft := s.toList.foldl push d

/-- With texts added, each but the first as a new word. -/
def pushTexts (d : Draft) : List String → Draft
  | [] => d
  | [s] => (d.begin).pushText s
  | s :: rest => ((d.begin.pushText s).close).pushTexts rest

/-- With output sent elsewhere; a number in front of the sign says which. -/
def redirect (d : Draft) (target : Channel → Channel → Channel) : Draft :=
  match d.current with
  | some ['2'] => { d with current := none, errTo := target d.outTo d.errTo }
  | some ['1'] => { d with current := none, outTo := target d.outTo d.errTo }
  | _ => { d.close with outTo := target d.outTo d.errTo }

/-- The command. -/
def simple (d : Draft) : Simple :=
  { words := d.close.words.reverse, outTo := d.outTo, errTo := d.errTo }

end Draft

/-- The texts that a parameter stands for. The shell's own process has the number 1. -/
def State.expand (s : State) (quoted : Bool) (c : Char) : Option (List String) :=
  match c with
  | '$' => some ["1"]
  | '?' => some [Decimal.render s.status]
  | '#' => some [Decimal.render s.params.length]
  | '@' => some s.params
  | '*' => some (if quoted then [join " " s.params] else s.params)
  | '0' => some [s.name]
  | _ => (Decimal.digit? c).map fun n => [(s.params[n - 1]?).getD ""]

/-- Reads a command up to its end: the command, what joins the next one to it, and the rest; `none`
in a script that breaks off. -/
def readCommand (s : State) : Quotes → Draft → List Char → Option (Draft × Joint × List Char)
  | .none, d, [] => some (d, .always, [])
  | _, _, [] => none
  | .single, d, c :: rest =>
    if c = '\'' then readCommand s .none d rest else readCommand s .single (d.push c) rest
  | .double, d, '"' :: rest => readCommand s .none d rest
  | .double, d, '\\' :: c :: rest =>
    if c = '"' || c = '\\' || c = '$' then readCommand s .double (d.push c) rest
    else readCommand s .double ((d.push '\\').push c) rest
  | .double, d, '$' :: c :: rest =>
    match s.expand true c with
    | some texts => readCommand s .double (d.pushTexts texts) rest
    | none => readCommand s .double ((d.push '$').push c) rest
  | .double, d, c :: rest => readCommand s .double (d.push c) rest
  | .none, d, '\'' :: rest => readCommand s .single d.begin rest
  | .none, d, '"' :: rest => readCommand s .double d.begin rest
  | .none, d, '\\' :: c :: rest => readCommand s .none (d.push c) rest
  | .none, d, '$' :: c :: rest =>
    match s.expand false c with
    | some texts => readCommand s .none (d.pushTexts (texts.filter (! ·.isEmpty))) rest
    | none => readCommand s .none ((d.push '$').push c) rest
  | .none, d, '&' :: '&' :: rest => some (d, .ifWell, rest)
  | .none, d, '|' :: '|' :: rest => some (d, .ifBadly, rest)
  | .none, d, '>' :: '&' :: '1' :: rest => readCommand s .none (d.redirect fun out _ => out) rest
  | .none, d, '>' :: '&' :: '2' :: rest => readCommand s .none (d.redirect fun _ err => err) rest
  | .none, d, '>' :: '/' :: 'd' :: 'e' :: 'v' :: '/' :: 'n' :: 'u' :: 'l' :: 'l' :: rest =>
    readCommand s .none (d.redirect fun _ _ => .nowhere) rest
  | .none, d, '>' :: ' ' :: '/' :: 'd' :: 'e' :: 'v' :: '/' :: 'n' :: 'u' :: 'l' :: 'l' :: rest =>
    readCommand s .none (d.redirect fun _ _ => .nowhere) rest
  | .none, d, c :: rest =>
    if c = ';' || c = '\n' then some (d, .always, rest)
    else if c = ' ' || c = '\t' then readCommand s .none d.close rest
    else readCommand s .none (d.push c) rest

/-- Whether a command after a joint is carried out. -/
def Joint.holds (status : Nat) : Joint → Bool
  | .always => true
  | .ifWell => status == 0
  | .ifBadly => status != 0

/-- Runs a script from a command on. -/
def runScript : Nat → Joint → State → List Char → State
  | 0, _, s, _ => s
  | steps + 1, joint, s, cs =>
    if cs.isEmpty then s
    else match readCommand s .none {} cs with
      | none => s.finish (.code 2)
      | some (draft, next, rest) =>
        let s := if joint.holds s.status then s.perform draft.simple else s
        if s.ended.isSome then s else runScript steps next s rest

/-- What a script writes, and how it ends. -/
def script (text name : String) (params : List String) : ProgramOutput :=
  let cs := text.toList
  let s := runScript (cs.length + 1) .always { name, params } cs
  { stdout := s.stdout, stderr := s.stderr, status := s.ended.getD (.code s.status) }

/-- Whether a word is an option of `echo`: a hyphen and letters of which each is one. -/
def isEchoOption (word : String) : Bool :=
  match word.toList with
  | '-' :: c :: letters => (c :: letters).all fun c => c == 'n' || c == 'e' || c == 'E'
  | _ => false

/-- What `echo` writes as a program of its own, with its options. -/
def echo (words : List String) : ProgramOutput :=
  -- of `e` and `E` the last one counts
  let letters := (words.takeWhile isEchoOption).flatMap fun word => word.toList.drop 1
  let escapes := (letters.filter (· != 'n')).getLast? == some 'e'
  { stdout := echoBytes (! letters.contains 'n') escapes (words.dropWhile isEchoOption) }

/-- What one of the programs does; `none` for another program. -/
def program? (c : Command) : Option ProgramOutput :=
  match c.program, c.args with
  | "true", _ => some {}
  | "false", _ => some { status := .code 1 }
  | "echo", words => some (echo words)
  | "sh", "-c" :: text :: name :: params => some (script text name params)
  | "sh", ["-c", text] => some (script text "sh" [])
  | "sh", ["-c"] =>
    some { stderr := Utf8.encode "sh: 0: -c requires an argument\n", status := .code 2 }
  | "sh", _ => some {}
  | _, _ => none

end OverlayVpn.Shell
