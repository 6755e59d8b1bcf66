import OverlayVpn.Text.Blank
import OverlayVpn.Text.Decimal
import OverlayVpn.Toml.Basic

set_option autoImplicit false

/-! # Writing TOML

A text is written in the plainest notation that can hold it: between double quotes, between
single quotes, or over several lines between three of either; only where none of these will do
are characters escaped. Lists of two or more items are written one item a line. -/

namespace OverlayVpn.Toml

open Text

/-- What a text needs of the notation it is written in. -/
structure Needs where
  /-- It holds control characters other than tabs and line feeds. -/
  controls : Bool
  backslash : Bool
  lineFeed : Bool
  /-- The longest runs of double and of single quotes. -/
  doubleQuotes : Nat
  singleQuotes : Nat
  deriving DecidableEq, Repr

/-- The longest run of a character, `current` of which stand in front. -/
def longestRun (c : Char) (current : Nat) : List Char → Nat
  | [] => current
  | d :: rest =>
    if d = c then longestRun c (current + 1) rest else max current (longestRun c 0 rest)

/-- Whether a character can only be written by an escape. -/
def isControl (c : Char) : Bool := (c.toNat < 32 && c != '\t' && c != '\n') || c.toNat == 127

/-- What a text needs. -/
def needs (cs : List Char) : Needs :=
  { controls := cs.any isControl
    backslash := cs.contains '\\'
    lineFeed := cs.contains '\n'
    doubleQuotes := longestRun '"' 0 cs
    singleQuotes := longestRun '\'' 0 cs }

/-- A way of quoting texts. -/
inductive Quoting where
  | basic
  | literal
  | longBasic
  | longLiteral
  deriving DecidableEq, Repr

/-- The quoting for a text that needs `n`. -/
def Needs.choose (n : Needs) : Quoting :=
  if ! n.controls && ! n.backslash && n.doubleQuotes = 0 && ! n.lineFeed then .basic
  else if ! n.controls && n.singleQuotes = 0 && ! n.lineFeed then .literal
  else if ! n.controls && ! n.backslash && n.doubleQuotes ≤ 2 then .longBasic
  else if ! n.controls && n.singleQuotes ≤ 2 then .longLiteral
  else if n.lineFeed then .longBasic
  else .basic

/-- An escape by the number of a character. -/
def numberEscape (c : Char) : List Char :=
  let digit (n : Nat) : Char := if n < 10 then Char.ofNat (48 + n) else Char.ofNat (55 + n)
  ['\\', 'u', '0', '0', digit (c.toNat / 16 % 16), digit (c.toNat % 16)]

/-- A character between double quotes. -/
def escapeChar (c : Char) : List Char :=
  if c = '\x08' then ['\\', 'b']
  else if c = '\t' then ['\\', 't']
  else if c = '\x0c' then ['\\', 'f']
  else if c = '\r' then ['\\', 'r']
  else if c = '\\' then ['\\', '\\']
  else if isControl c then numberEscape c
  else [c]

/-- Characters on one line between double quotes. -/
def escapeLine (cs : List Char) : List Char :=
  cs.flatMap fun c =>
    if c = '\n' then ['\\', 'n'] else if c = '"' then ['\\', '"'] else escapeChar c

/-- Characters over several lines between double quotes: of quotes in a row, of which `run` stand in
front, every third is escaped. -/
def escapeLong (run : Nat) : List Char → List Char
  | [] => []
  | c :: rest =>
    if c = '"' then
      if run = 2 then '\\' :: '"' :: escapeLong 0 rest else '"' :: escapeLong (run + 1) rest
    else if c = '\n' then '\n' :: escapeLong 0 rest
    else escapeChar c ++ escapeLong 0 rest

/-- A text in quotes. A text with line feeds starts on a line of its own. -/
def Quoting.chars (cs : List Char) : Quoting → List Char
  | .basic => ['"'] ++ escapeLine cs ++ ['"']
  | .literal => ['\''] ++ cs ++ ['\'']
  | .longBasic =>
    ['"', '"', '"'] ++ (if cs.contains '\n' then ['\n'] else []) ++ escapeLong 0 cs ++
      ['"', '"', '"']
  | .longLiteral =>
    ['\'', '\'', '\''] ++ (if cs.contains '\n' then ['\n'] else []) ++ cs ++ ['\'', '\'', '\'']

/-- A text as a value. -/
def stringText (s : String) : String := String.ofList ((needs s.toList).choose.chars s.toList)

mutual

/-- A value as text; tables under headers are written elsewhere. -/
def valueText : Toml → String
  | .string s => stringText s
  | .integer n => Decimal.renderInt n
  | .boolean b => if b then "true" else "false"
  | .array [] => "[]"
  | .array [item] => "[" ++ valueText item ++ "]"
  | .array items => "[\n" ++ itemLines items ++ "]"
  | .float | .dateTime | .tables _ | .table .. => ""

/-- The items of a list, one a line. -/
def itemLines : List Toml → String
  | [] => ""
  | item :: rest => "    " ++ valueText item ++ ",\n" ++ itemLines rest

end

/-- A line `key = value`. -/
def assignmentText (key : String) (value : Toml) : String :=
  key ++ " = " ++ valueText value ++ "\n"

/-- Whether a value is a table. -/
def isTable : Toml → Bool
  | .table .. => true
  | _ => false

/-- The lines of the entries that are no tables. -/
def plainText (entries : Entries) : String :=
  join "" ((entries.filter (! isTable ·.2)).map fun (key, value) => assignmentText key value)

/-- A document of entries and of one level of tables, each of which follows a blank line. The keys
are bare words. -/
def text (entries : Entries) : String :=
  plainText entries ++ join "" (entries.filterMap fun
    | (key, .table _ inside) => some ("\n[" ++ key ++ "]\n" ++ plainText inside)
    | _ => none)

end OverlayVpn.Toml
