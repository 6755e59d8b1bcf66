import OverlayVpn.Text.Blank
import OverlayVpn.Text.Decimal
import OverlayVpn.Time.Timestamp

set_option autoImplicit false

/-! # Timestamps as text

A timestamp is written as `YYYY-MM-DDTHH:MM:SS` with the fewest of 0, 3, 6 or 9 digits of a
fraction that tell it exactly, and `Z`. Years beyond four digits carry a sign. Reading is more
generous: blanks may stand before numbers and separators, numbers may be short, and the time may
be that of any zone. -/

namespace OverlayVpn

open Text Calendar

namespace Timestamp

/-! ## Writing -/

/-- A year: four digits, or a sign and at least four digits. -/
def yearText (year : Int) : String :=
  if 0 ≤ year ∧ year ≤ 9999 then Decimal.padded 4 year.toNat
  else (if year < 0 then "-" else "+") ++ Decimal.padded 4 year.natAbs

/-- The fraction of a second, in the fewest groups of three digits. -/
def fractionText (nano : Nat) : String :=
  if nano = 0 then ""
  else if nano % 1000000 = 0 then "." ++ Decimal.padded 3 (nano / 1000000)
  else if nano % 1000 = 0 then "." ++ Decimal.padded 6 (nano / 1000)
  else "." ++ Decimal.padded 9 nano

/-- The timestamp as text. -/
def text (t : Timestamp) : String :=
  -- a leap second is kept as second 59 with a second's worth of nanoseconds more
  let leap := 1000000000 ≤ t.time.nano
  let second := if leap then t.time.second + 1 else t.time.second
  let nano := if leap then t.time.nano - 1000000000 else t.time.nano
  yearText t.date.year ++ "-" ++ Decimal.padded 2 t.date.month ++ "-" ++
    Decimal.padded 2 t.date.day ++ "T" ++ Decimal.padded 2 t.time.hour ++ ":" ++
    Decimal.padded 2 t.time.minute ++ ":" ++ Decimal.padded 2 second ++ fractionText nano ++ "Z"

/-! ## Reading -/

/-- The text without the blanks in front. -/
def skipBlanks (cs : List Char) : List Char := cs.dropWhile isBlank

/-- A number of one to `most` digits and what follows it. -/
def number? (most : Nat) (cs : List Char) : Option (Nat × List Char) :=
  let ds := (cs.take most).takeWhile (Decimal.digit? · |>.isSome)
  (Decimal.digits? ds).map (·, cs.drop ds.length)

/-- A number of any length and what follows it. -/
def longNumber? (cs : List Char) : Option (Nat × List Char) := number? cs.length cs

/-- A number of one or two digits with blanks in front. -/
def short? (cs : List Char) : Option (Nat × List Char) := number? 2 (skipBlanks cs)

/-- A year, with blanks in front: one to four digits, or any number of them after a sign. -/
def year? (cs : List Char) : Option (Int × List Char) :=
  match skipBlanks cs with
  | '-' :: rest => (longNumber? rest).map fun (n, rest) => (-(n : Int), rest)
  | '+' :: rest => (longNumber? rest).map fun (n, rest) => ((n : Int), rest)
  | cs => (number? 4 cs).map fun (n, rest) => ((n : Int), rest)

/-- What follows a separator, with blanks in front of it. -/
def past (separator : Char) (cs : List Char) : Option (List Char) :=
  match skipBlanks cs with
  | c :: rest => if c = separator then some rest else none
  | [] => none

/-- A date and what follows it. -/
def date? (cs : List Char) : Option (Date × List Char) := do
  let (year, cs) ← year? cs
  let (month, cs) ← past '-' cs >>= short?
  let (day, cs) ← past '-' cs >>= short?
  return (⟨year, month, day⟩, cs)

/-- Nanoseconds: of a fraction's digits the first nine count. -/
def fraction? (cs : List Char) : Option (Nat × List Char) :=
  match cs with
  | '.' :: cs => do
    let (n, rest) ← number? 9 cs
    let used := cs.length - rest.length
    return (n * Nat.pow 10 (9 - used), rest.dropWhile (Decimal.digit? · |>.isSome))
  | _ => some (0, cs)

/-- A time of day and what follows it; second 60 is a leap second. -/
def time? (cs : List Char) : Option (TimeOfDay × List Char) := do
  let (hour, cs) ← short? cs
  let (minute, cs) ← past ':' cs >>= short?
  let (second, cs) ← past ':' cs >>= short?
  let (nano, cs) ← fraction? cs
  let time : TimeOfDay :=
    if second = 60 then ⟨hour, minute, 59, nano + 1000000000⟩ else ⟨hour, minute, second, nano⟩
  return (time, skipBlanks cs)

/-- A number of exactly two digits and what follows it. -/
def pair? : List Char → Option (Nat × List Char)
  | a :: b :: rest => (Decimal.digits? [a, b]).map (·, rest)
  | _ => none

/-- Hours and minutes of an offset, as minutes. -/
def offset? (cs : List Char) : Option (Nat × List Char) := do
  let (hours, cs) ← pair? cs
  let (minutes, cs) ← pair? (cs.dropWhile fun c => c == ':' || isBlank c)
  if hours < 24 && minutes < 60 then return (hours * 60 + minutes, cs) else none

/-- A zone, as the minutes that its clocks are ahead, and what follows it. -/
def zone? (cs : List Char) : Option (Int × List Char) :=
  if lower (String.ofList (cs.take 3)) = "utc" then some (0, cs.drop 3)
  else match cs with
    | 'Z' :: rest | 'z' :: rest => some (0, rest)
    | '+' :: rest => (offset? rest).map fun (n, rest) => ((n : Int), rest)
    | '-' :: rest | '\u2212' :: rest => (offset? rest).map fun (n, rest) => (-(n : Int), rest)
    | _ => none

/-- The timestamp that characters tell. -/
def ofChars? (cs : List Char) : Option Timestamp := do
  let (date, cs) ← date? cs
  let cs ← match cs with
    | 'T' :: rest | 't' :: rest | ' ' :: rest => some rest
    | _ => none
  let (time, cs) ← time? cs
  let (offset, cs) ← zone? cs
  if cs.all isBlank then ofLocal? date time offset else none

/-- The timestamp that a text tells. -/
def read? (s : String) : Option Timestamp := ofChars? s.toList

end Timestamp

end OverlayVpn
