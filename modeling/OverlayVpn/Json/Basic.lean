set_option autoImplicit false

/-! # JSON documents

A document is a tree of values. Where the text of a document breaks off, so does the tree: a
value is `broken`, or the items of a list and the members of an object end in `cut`. A reader of
records thus sees all that stands in front of the fault. A whole tree is written with two blanks
a level. -/

namespace OverlayVpn

mutual

/-- A JSON value, as far as its text goes. -/
inductive Json where
  | null
  | bool (value : Bool)
  /-- A number, as it is spelled. -/
  | number (spelling : List Char)
  | string (value : String)
  /-- A string whose end can be told, but which holds no text. -/
  | garbled
  | array (items : JsonItems)
  | object (members : JsonMembers)
  /-- No value. -/
  | broken

/-- The items of a list. -/
inductive JsonItems where
  | nil
  /-- The list is not closed. -/
  | cut
  | cons (head : Json) (tail : JsonItems)

/-- The members of an object. A key that holds no text is `none`. -/
inductive JsonMembers where
  | nil
  /-- The object is not closed. -/
  | cut
  | cons (key : Option String) (value : Json) (tail : JsonMembers)

end

namespace Json

/-- The object with the given members. -/
def ofMembers (members : List (String × Json)) : Json :=
  .object (members.foldr (fun m rest => .cons (some m.1) m.2 rest) .nil)

mutual

/-- Whether the text of a value does not break off. -/
def intact : Json → Bool
  | .broken => false
  | .array items => intactItems items
  | .object members => intactMembers members
  | _ => true

/-- Whether the text of a list does not break off. -/
def intactItems : JsonItems → Bool
  | .nil => true
  | .cut => false
  | .cons head tail => intact head && intactItems tail

/-- Whether the text of an object does not break off. -/
def intactMembers : JsonMembers → Bool
  | .nil => true
  | .cut => false
  | .cons _ value tail => intact value && intactMembers tail

end

/-! ## Writing -/

/-- A character inside a string. -/
def escape (c : Char) : List Char :=
  if c = '"' then ['\\', '"']
  else if c = '\\' then ['\\', '\\']
  else if c = '\n' then ['\\', 'n']
  else if c = '\r' then ['\\', 'r']
  else if c = '\t' then ['\\', 't']
  else if c = '\x08' then ['\\', 'b']
  else if c = '\x0c' then ['\\', 'f']
  else if c.toNat < 32 then
    ['\\', 'u', '0', '0', if c.toNat < 16 then '0' else '1', Nat.digitChar (c.toNat % 16)]
  else [c]

/-- A string with its quotes. -/
def quote (s : String) : List Char := '"' :: s.toList.flatMap escape ++ ['"']

/-- A new line, `depth` levels deep. -/
def newLine (depth : Nat) : List Char := '\n' :: List.replicate (2 * depth) ' '

mutual

/-- A value at a depth. -/
def chars (depth : Nat) : Json → List Char
  | .null => "null".toList
  | .bool true => "true".toList
  | .bool false => "false".toList
  | .number spelling => spelling
  | .string value => quote value
  | .garbled | .broken => []
  | .array .nil => ['[', ']']
  | .array items => '[' :: itemChars depth true items
  | .object .nil => ['\x7b', '\x7d']
  | .object members => '\x7b' :: memberChars depth true members

/-- The items of a list at a depth, and its end. -/
def itemChars (depth : Nat) (isFirst : Bool) : JsonItems → List Char
  | .nil => newLine depth ++ [']']
  | .cut => []
  | .cons head tail =>
    (if isFirst then [] else [',']) ++ newLine (depth + 1) ++ chars (depth + 1) head ++
      itemChars depth false tail

/-- The members of an object at a depth, and its end. -/
def memberChars (depth : Nat) (isFirst : Bool) : JsonMembers → List Char
  | .nil => newLine depth ++ ['\x7d']
  | .cut => []
  | .cons key value tail =>
    (if isFirst then [] else [',']) ++ newLine (depth + 1) ++ quote (key.getD "") ++ [':', ' '] ++
      chars (depth + 1) value ++ memberChars depth false tail

end

/-- The text of a document. -/
def text (j : Json) : String := String.ofList (chars 0 j)

end Json

end OverlayVpn
