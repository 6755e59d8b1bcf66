set_option autoImplicit false

/-! # Blanks, lines and words

Blank characters are those with the Unicode property `White_Space`. Texts are taken apart as
lists of characters: `trim` drops the blanks at both ends, `lines` cuts at line feeds, `words`
cuts at blanks and `cutAt` cuts once, at the first occurrence of a separator. -/

namespace OverlayVpn.Text

/-- The Unicode property `White_Space`. -/
def isBlank (c : Char) : Bool :=
  let n := c.toNat
  (9 ≤ n && n ≤ 13) || n == 0x20 || n == 0x85 || n == 0xA0 || n == 0x1680 ||
    (0x2000 ≤ n && n ≤ 0x200A) || n == 0x2028 || n == 0x2029 || n == 0x202F ||
    n == 0x205F || n == 0x3000

/-- Drops the elements at the end of a list that satisfy `p`. -/
def dropEndWhile {α : Type} (p : α → Bool) (xs : List α) : List α :=
  (xs.reverse.dropWhile p).reverse

/-- The characters without the blanks at both ends. -/
def trimmed (cs : List Char) : List Char := dropEndWhile isBlank (cs.dropWhile isBlank)

/-- The text without the blanks at both ends. -/
def trim (s : String) : String := String.ofList (trimmed s.toList)

/-- The text without the blanks at its end. -/
def trimEnd (s : String) : String := String.ofList (dropEndWhile isBlank s.toList)

/-- Whether a text holds nothing but blanks. -/
def blank (s : String) : Bool := s.toList.all isBlank

/-- The pieces between the elements that satisfy `p`: one more than there are such elements. -/
def pieces {α : Type} (p : α → Bool) : List α → List (List α)
  | [] => [[]]
  | c :: rest =>
    match pieces p rest with
    | [] => [[c]]
    | piece :: more => if p c then [] :: piece :: more else (c :: piece) :: more

/-- The texts between the occurrences of `separator`. -/
def splitOn (separator : Char) (s : String) : List String :=
  (pieces (· == separator) s.toList).map String.ofList

/-- The words of a text: its longest stretches without blanks. -/
def words (s : String) : List String :=
  ((pieces isBlank s.toList).filter (! ·.isEmpty)).map String.ofList

/-- A line without the carriage return that stood before its line feed. -/
def dropReturn (line : List Char) : List Char :=
  match line.reverse with
  | '\r' :: rest => rest.reverse
  | _ => line

/-- The lines of a list of characters: each line feed ends one, a carriage return before it
belongs to the line's end, and what follows the last line feed is a line unless it is empty. -/
def linesOf (cs : List Char) : List (List Char) :=
  match (pieces (· == '\n') cs).reverse with
  | [] => []
  | last :: ended =>
    let whole := (ended.map dropReturn).reverse
    if last.isEmpty then whole else whole ++ [last]

/-- The lines of a text. -/
def lines (s : String) : List String := (linesOf s.toList).map String.ofList

/-- Cuts at the first `separator`; `none` when there is none. -/
def cutAt (separator : Char) : List Char → Option (List Char × List Char)
  | [] => none
  | c :: rest =>
    if c = separator then some ([], rest)
    else (cutAt separator rest).map fun (before, after) => (c :: before, after)

/-- Cuts a text at the first `separator`. -/
def cut (separator : Char) (s : String) : Option (String × String) :=
  (cutAt separator s.toList).map fun (before, after) => (String.ofList before, String.ofList after)

/-- What follows `start` in a list that begins with it. -/
def after? (start : List Char) (cs : List Char) : Option (List Char) :=
  match start, cs with
  | [], rest => some rest
  | _ :: _, [] => none
  | s :: start, c :: cs => if s = c then after? start cs else none

/-- Whether characters hold others in a row. -/
def holdsChars (part : List Char) : List Char → Bool
  | [] => part.isEmpty
  | c :: rest => part.isPrefixOf (c :: rest) || holdsChars part rest

/-- Whether a text holds another. -/
def holds (part s : String) : Bool := holdsChars part.toList s.toList

/-- A letter's lower case, for the ASCII letters; all else is kept. -/
def lower (s : String) : String := String.ofList (s.toList.map Char.toLower)

/-- The texts with `separator` between them. -/
def join (separator : String) (texts : List String) : String := separator.intercalate texts

end OverlayVpn.Text
