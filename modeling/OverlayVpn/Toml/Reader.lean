import OverlayVpn.Text.Decimal
import OverlayVpn.Time.Timestamp
import OverlayVpn.Toml.Basic

set_option autoImplicit false

/-! # Reading TOML

A reader takes characters from the front of a list and gives what they mean together with the
characters that follow. Values are read up to a depth of nesting; lists of things are read in as
many steps as there are characters. -/

namespace OverlayVpn.Toml

open Text

/-- A reader of an `α`. -/
abbrev Reader (α : Type) := List Char → Option (α × List Char)

/-! ## Blanks, line ends and comments -/

/-- Drops blanks within a line. -/
def skipSpace (cs : List Char) : List Char := cs.dropWhile fun c => c == ' ' || c == '\t'

/-- What follows a line end. -/
def newLine? : List Char → Option (List Char)
  | '\n' :: rest => some rest
  | '\r' :: '\n' :: rest => some rest
  | _ => none

/-- Whether a character may stand in a comment or a literal string. -/
def isPlain (c : Char) : Bool := c == '\t' || (32 ≤ c.toNat && c.toNat != 127)

/-- Drops a comment, if one starts here. -/
def skipComment : List Char → List Char
  | '#' :: rest => rest.dropWhile isPlain
  | cs => cs

/-- Drops blanks and a comment, and then a line end or the end of the text. -/
def endLine (cs : List Char) : Option (List Char) :=
  match skipComment (skipSpace cs) with
  | [] => some []
  | cs => newLine? cs

/-- Drops blanks, line ends and comments, each comment with its line end. -/
def skipLines : Nat → List Char → Option (List Char)
  | 0, cs => some cs
  | steps + 1, cs =>
    match skipSpace cs with
    | '#' :: rest =>
      match newLine? (rest.dropWhile isPlain) with
      | some rest => skipLines steps rest
      | none => none
    | cs =>
      match newLine? cs with
      | some rest => skipLines steps rest
      | none => some cs

/-! ## Strings -/

/-- A character by the hexadecimal digits of its number. -/
def charByNumber (count : Nat) (cs : List Char) : Option (Char × List Char) := do
  let digits := cs.take count
  if digits.length ≠ count then none
  let n ← digits.foldlM (fun n c =>
    if '0' ≤ c ∧ c ≤ '9' then some (n * 16 + (c.toNat - 48))
    else if 'a' ≤ c ∧ c ≤ 'f' then some (n * 16 + (c.toNat - 87))
    else if 'A' ≤ c ∧ c ≤ 'F' then some (n * 16 + (c.toNat - 55))
    else none) 0
  if n < 0xD800 || (0xDFFF < n && n < 0x110000) then some (Char.ofNat n, cs.drop count) else none

/-- The character that an escape stands for, after its backslash. -/
def escaped : Reader Char
  | 'b' :: rest => some ('\x08', rest)
  | 't' :: rest => some ('\t', rest)
  | 'n' :: rest => some ('\n', rest)
  | 'f' :: rest => some ('\x0c', rest)
  | 'r' :: rest => some ('\r', rest)
  | '"' :: rest => some ('"', rest)
  | '\\' :: rest => some ('\\', rest)
  | 'u' :: rest => charByNumber 4 rest
  | 'U' :: rest => charByNumber 8 rest
  | _ => none

/-- The rest of a string on one line, after its opening quote. -/
def basicString : Nat → Reader (List Char)
  | 0, _ => none
  | steps + 1, cs =>
    match cs with
    | '"' :: rest => some ([], rest)
    | '\\' :: rest => do
      let (c, rest) ← escaped rest
      let (more, rest) ← basicString steps rest
      return (c :: more, rest)
    | c :: rest =>
      if isPlain c then (basicString steps rest).map fun (more, rest) => (c :: more, rest)
      else none
    | [] => none

/-- The rest of a literal string on one line, after its opening quote. -/
def literalString (cs : List Char) : Option (List Char × List Char) :=
  let inside := cs.takeWhile fun c => isPlain c && c != '\''
  match cs.drop inside.length with
  | '\'' :: rest => some (inside, rest)
  | _ => none

/-- The quotes at the front of a list, and what follows them. -/
def spanQuotes (quote : Char) (cs : List Char) : Nat × List Char :=
  ((cs.takeWhile (· == quote)).length, cs.dropWhile (· == quote))

/-- Drops a line end right after the opening quotes. -/
def dropFirstLine (cs : List Char) : List Char := (newLine? cs).getD cs

/-- Drops blanks and line ends. -/
def skipBlankLines (cs : List Char) : List Char :=
  match cs with
  | ' ' :: rest | '\t' :: rest | '\n' :: rest => skipBlankLines rest
  | '\r' :: '\n' :: rest => skipBlankLines rest
  | cs => cs

/-- The rest of a string over lines, after its opening quotes: one or two quotes belong to it, of
more the last three end it. A backslash at a line's end takes the blanks after it away. -/
def longString (quote : Char) (escapes : Bool) : Nat → Reader (List Char)
  | 0, _ => none
  | steps + 1, cs =>
    match cs with
    | [] => none
    | c :: rest =>
      if c == quote then
        let (count, rest) := spanQuotes quote cs
        -- two quotes that belong to the text and the three that end it
        if 5 < count then none
        else if 3 ≤ count then some (List.replicate (count - 3) quote, rest)
        else (longString quote escapes steps rest).map fun (more, rest) =>
          (List.replicate count quote ++ more, rest)
      else if c == '\\' && escapes then
        match newLine? (skipSpace rest) with
        | some rest => longString quote escapes steps (skipBlankLines rest)
        | none => do
          let (c, rest) ← escaped rest
          let (more, rest) ← longString quote escapes steps rest
          return (c :: more, rest)
      else match newLine? cs with
        | some rest => (longString quote escapes steps rest).map fun (more, rest) =>
          ('\n' :: more, rest)
        | none =>
          if isPlain c then
            (longString quote escapes steps rest).map fun (more, rest) => (c :: more, rest)
          else none

/-- A string of any kind. -/
def stringValue (cs : List Char) : Option (String × List Char) :=
  let text := fun ((s, rest) : List Char × List Char) => (String.ofList s, rest)
  match cs with
  | '"' :: '"' :: '"' :: rest =>
    (longString '"' true (rest.length + 1) (dropFirstLine rest)).map text
  | '\'' :: '\'' :: '\'' :: rest =>
    (longString '\'' false (rest.length + 1) (dropFirstLine rest)).map text
  | '"' :: rest => (basicString (rest.length + 1) rest).map text
  | '\'' :: rest => (literalString rest).map text
  | _ => none

/-! ## Numbers and dates -/

/-- Digits of a base with single underscores between them. -/
def groupedDigits (isDigit : Char → Bool) : Nat → Reader (List Char)
  | 0, _ => none
  | steps + 1, cs =>
    match cs with
    | c :: rest =>
      if isDigit c then
        match rest with
        | '_' :: more => (groupedDigits isDigit steps more).map fun (ds, rest) => (c :: ds, rest)
        | _ =>
          match groupedDigits isDigit steps rest with
          | some (ds, rest) => some (c :: ds, rest)
          -- digits follow, but not all of them can be read: an underscore stands at their end
          | none => if (rest.head?.map isDigit).getD false then none else some ([c], rest)
      else none
    | [] => none

/-- Whether a character is a decimal digit. -/
def isDecimal (c : Char) : Bool := (Decimal.digit? c).isSome

/-- Decimal digits with single underscores between them. -/
def decimals (cs : List Char) : Option (List Char × List Char) :=
  groupedDigits isDecimal (cs.length + 1) cs

/-- A number's sign. -/
def sign : List Char → Bool × List Char
  | '-' :: rest => (true, rest)
  | '+' :: rest => (false, rest)
  | cs => (false, cs)

/-- A decimal integer without leading zeros. -/
def wholeDigits (cs : List Char) : Option (List Char × List Char) :=
  match cs with
  | '0' :: rest => some (['0'], rest)
  | _ => decimals cs

/-- The value of a digit in a base up to 16. -/
def digitIn (base : Nat) (c : Char) : Option Nat :=
  let value :=
    if '0' ≤ c ∧ c ≤ '9' then c.toNat - 48
    else if 'a' ≤ c ∧ c ≤ 'f' then c.toNat - 87
    else if 'A' ≤ c ∧ c ≤ 'F' then c.toNat - 55
    else 16
  if value < base then some value else none

/-- The value of digits in a base. -/
def valueIn (base : Nat) (digits : List Char) : Nat :=
  digits.foldl (fun n c => n * base + (digitIn base c).getD 0) 0

/-- An integer in a base other than ten, after what announces it. -/
def basedInteger (base : Nat) (cs : List Char) : Option (Toml × List Char) := do
  let (digits, rest) ← groupedDigits (fun c => (digitIn base c).isSome) (cs.length + 1) cs
  let n := valueIn base digits
  if n < Decimal.signedBound then some (.integer n, rest) else none

/-- A decimal integer. -/
def decimalInteger (cs : List Char) : Option (Toml × List Char) := do
  let (negative, digits) := sign cs
  let (digits, rest) ← wholeDigits digits
  let n := valueIn 10 digits
  if negative then (if n ≤ Decimal.signedBound then some (.integer (-(n : Int)), rest) else none)
  else if n < Decimal.signedBound then some (.integer n, rest) else none

/-- Whether a number is too large for double precision. -/
def overflows (whole fraction : List Char) (exponent : Int) : Bool :=
  let digits := whole ++ fraction
  Decimal.tooLarge digits.length (valueIn 10 digits) (exponent - fraction.length)

/-- An exponent, after its letter. -/
def exponent (cs : List Char) : Option (Int × List Char) := do
  let (negative, digits) := sign cs
  let (digits, rest) ← decimals digits
  let n : Int := valueIn 10 digits
  return (if negative then -n else n, rest)

/-- Digits after a point. -/
def fraction : Reader (List Char)
  | '.' :: rest => decimals rest
  | _ => none

/-- The letter of an exponent and the exponent. -/
def exponentPart : Reader Int
  | 'e' :: rest | 'E' :: rest => exponent rest
  | _ => none

/-- A number with a fraction or an exponent; `none` when it has neither. -/
def decimalFloat (cs : List Char) : Option (Option (Toml × List Char)) := do
  let (negative, digits) := sign cs
  let (whole, rest) ← wholeDigits digits
  let (part, power, rest) ← match fraction rest with
    | some (part, rest) =>
      match rest with
      | 'e' :: _ | 'E' :: _ => (exponentPart rest).map fun (power, rest) => (part, power, rest)
      | _ => some (part, 0, rest)
    | none => (exponentPart rest).map fun (power, rest) => ([], power, rest)
  if ! negative && overflows whole part power then return none
  return some (.float, rest)

/-- The numbers that have names. -/
def namedFloat (cs : List Char) : Option (Toml × List Char) :=
  match (sign cs).2 with
  | 'i' :: 'n' :: 'f' :: rest => some (.float, rest)
  | 'n' :: 'a' :: 'n' :: rest => some (.float, rest)
  | _ => none

/-- A number of exactly `count` digits. -/
def fixed (count : Nat) (cs : List Char) : Option (Nat × List Char) :=
  let digits := cs.take count
  if digits.length = count ∧ digits.all isDecimal then some (valueIn 10 digits, cs.drop count)
  else none

/-- What follows a character. -/
def past (c : Char) : List Char → Option (List Char)
  | d :: rest => if d = c then some rest else none
  | [] => none

/-- A date. -/
def date (cs : List Char) : Option (Unit × List Char) := do
  let (year, cs) ← fixed 4 cs
  let (month, cs) ← past '-' cs >>= fixed 2
  let (day, cs) ← past '-' cs >>= fixed 2
  if 1 ≤ month && month ≤ 12 && 1 ≤ day && day ≤ Calendar.daysInMonth year month then
    some ((), cs) else none

/-- Hours and minutes. -/
def hourAndMinute (cs : List Char) : Option (Unit × List Char) := do
  let (hour, cs) ← fixed 2 cs
  let (minute, cs) ← past ':' cs >>= fixed 2
  if hour < 24 && minute < 60 then some ((), cs) else none

/-- A time of day. -/
def time (cs : List Char) : Option (Unit × List Char) := do
  let (_, cs) ← hourAndMinute cs
  let (second, cs) ← past ':' cs >>= fixed 2
  if 60 < second then none
  match cs with
  | '.' :: rest =>
    let digits := rest.takeWhile isDecimal
    if digits.isEmpty then none else some ((), rest.drop digits.length)
  | _ => some ((), cs)

/-- An offset, if there is one. -/
def offset (cs : List Char) : Option (Unit × List Char) :=
  match cs with
  | 'Z' :: rest | 'z' :: rest => some ((), rest)
  | '+' :: rest | '-' :: rest => hourAndMinute rest
  | _ => some ((), cs)

/-- A date, a time of day or both. -/
def dateOrTime (cs : List Char) : Option (Toml × List Char) :=
  match date cs with
  | some (_, rest) =>
    let timed (after : List Char) : Option (Toml × List Char) := do
      let (_, rest) ← time after
      let (_, rest) ← offset rest
      return (.dateTime, rest)
    match rest with
    | 'T' :: after | 't' :: after => timed after
    -- a blank after a date may be just that
    | ' ' :: after => timed after <|> some (.dateTime, rest)
    | _ => some (.dateTime, rest)
  | none => (time cs).map fun (_, rest) => (.dateTime, rest)

/-- A number or a date. -/
def number (cs : List Char) : Option (Toml × List Char) :=
  match cs with
  | '0' :: 'x' :: rest => basedInteger 16 rest
  | '0' :: 'o' :: rest => basedInteger 8 rest
  | '0' :: 'b' :: rest => basedInteger 2 rest
  | _ =>
    -- a date begins like an integer, and so does a float
    match dateOrTime cs with
    | some found => some found
    | none =>
      match decimalFloat cs with
      | some found => found
      | none => namedFloat cs <|> decimalInteger cs

/-! ## Keys -/

/-- Whether a character may stand in a key without quotes. -/
def isBare (c : Char) : Bool :=
  ('a' ≤ c && c ≤ 'z') || ('A' ≤ c && c ≤ 'Z') || ('0' ≤ c && c ≤ '9') || c == '_' || c == '-'

/-- A key without dots. -/
def simpleKey (cs : List Char) : Option (String × List Char) :=
  match cs with
  | '"' :: rest => (basicString (rest.length + 1) rest).map fun (s, rest) => (String.ofList s, rest)
  | '\'' :: rest => (literalString rest).map fun (s, rest) => (String.ofList s, rest)
  | _ =>
    let name := cs.takeWhile isBare
    if name.isEmpty then none else some (String.ofList name, cs.drop name.length)

/-- A key, by its parts between dots, with the blanks around it. -/
def dottedKey : Nat → Reader (List String)
  | 0, _ => none
  | steps + 1, cs => do
    let (part, rest) ← simpleKey (skipSpace cs)
    match skipSpace rest with
    | '.' :: rest =>
      let (parts, rest) ← dottedKey steps rest
      return (part :: parts, rest)
    | rest => return ([part], rest)

/-- A key of at most as many parts as values may be nested. -/
def key (cs : List Char) : Option (List String × List Char) := dottedKey maxDepth cs

/-! ## Values -/

/-- A key, an equals sign and a value. -/
def assignment (value : Reader Toml) (cs : List Char) :
    Option ((List String × Toml) × List Char) := do
  let (path, rest) ← key cs
  let rest ← past '=' rest
  let (v, rest) ← value (skipSpace rest)
  return ((path, v), rest)

/-- The items of a list, after its opening bracket or a comma. -/
def items (value : Reader Toml) : Nat → Reader (List Toml)
  | 0, _ => none
  | steps + 1, cs => do
    let cs ← skipLines (cs.length + 1) cs
    match cs with
    | ']' :: rest => return ([], rest)
    | _ =>
      let (v, rest) ← value cs
      let rest ← skipLines (rest.length + 1) rest
      match rest with
      | ',' :: rest =>
        let (vs, rest) ← items value steps rest
        return (v :: vs, rest)
      | ']' :: rest => return ([v], rest)
      | _ => none

/-- The assignments between braces, after the opening brace or a comma. -/
def assignments (value : Reader Toml) : Nat → Reader (List (List String × Toml))
  | 0, _ => none
  | steps + 1, cs => do
    let (a, rest) ← assignment value (skipSpace cs)
    match skipSpace rest with
    | ',' :: rest =>
      let (more, rest) ← assignments value steps rest
      return (a :: more, rest)
    | '\x7d' :: rest => return ([a], rest)
    | _ => none

/-- The table that assignments between braces make. -/
def ofAssignments (found : List (List String × Toml)) : Option Toml := do
  let (_, entries) ← found.foldlM (fun draft (path, v) => putAt path v draft) (.inBraces, [])
  return .table .inBraces entries

/-- A table between braces, after the opening one. -/
def inlineTable (value : Reader Toml) (cs : List Char) : Option (Toml × List Char) :=
  match skipSpace cs with
  | '\x7d' :: rest => some (.table .inBraces [], rest)
  | _ => do
    let (found, rest) ← assignments value (cs.length + 1) cs
    let table ← ofAssignments found
    return (table, rest)

/-- A value nested at most `depth` deep. -/
def value : Nat → Reader Toml
  | depth, cs =>
    match cs with
    | '"' :: _ | '\'' :: _ => (stringValue cs).map fun (s, rest) => (.string s, rest)
    | 't' :: 'r' :: 'u' :: 'e' :: rest => some (.boolean true, rest)
    | 'f' :: 'a' :: 'l' :: 's' :: 'e' :: rest => some (.boolean false, rest)
    | '[' :: rest =>
      match depth with
      | 0 => none
      | depth + 1 =>
        (items (value depth) (rest.length + 1) rest).map fun (vs, rest) => (.array vs, rest)
    | '\x7b' :: rest =>
      match depth with
      | 0 => none
      | depth + 1 => inlineTable (value depth) rest
    | _ => number cs

/-! ## Documents -/

/-- A header in single or double brackets, after the first. -/
def header (cs : List Char) : Option (Statement × List Char) :=
  match cs with
  | '[' :: rest => do
    let (path, rest) ← key rest
    let rest ← past ']' rest >>= past ']'
    return (.item path, rest)
  | _ => do
    let (path, rest) ← key cs
    let rest ← past ']' rest
    return (.table path, rest)

/-- The statement of a line; `none` where the line has none. -/
def statement (cs : List Char) : Option (Option Statement × List Char) :=
  match skipSpace cs with
  | [] => some (none, [])
  | '[' :: rest => (header rest).map fun (s, rest) => (some s, rest)
  | '#' :: rest => some (none, '#' :: rest)
  | c :: rest =>
    if (newLine? (c :: rest)).isSome then some (none, c :: rest)
    else (assignment (value maxDepth) (c :: rest)).map fun ((path, v), rest) =>
      (some (.assign path v), rest)

/-- The statements of a document, line by line. -/
def statements : Nat → List Char → Option (List Statement)
  | 0, _ => none
  | steps + 1, cs => do
    let (found, rest) ← statement cs
    let rest ← endLine rest
    if rest.isEmpty then return found.toList
    let more ← statements steps rest
    return found.toList ++ more

/-- The entries of the document that a text holds. A mark of the byte order in front does not
count. -/
def read (s : String) : Option Entries :=
  let cs := match s.toList with
    | '\uFEFF' :: rest => rest
    | cs => cs
  (statements (cs.length + 1) cs).bind ofStatements

end OverlayVpn.Toml
