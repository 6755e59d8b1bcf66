import OverlayVpn.Json.Reader
import OverlayVpn.Store.KeyMap

set_option autoImplicit false

/-! # Records in JSON documents

A record is an object whose known members are texts, or a list of those texts in the order of
the record's fields. Members that are not known are passed over as long as they are whole. Of
several faults the one that stands first in the document is reported. -/

namespace OverlayVpn.Json

open Text

/-- What is wrong with a document. -/
inductive Fault where
  /-- It is not JSON. -/
  | grammar
  /-- It is JSON of another shape. -/
  | shape
  deriving DecidableEq, Repr

/-- A field of a record. -/
structure Field where
  /-- The names of its member; the first is the one it is written with. -/
  names : List String
  /-- Which texts it may hold. -/
  accepts : String → Bool := fun _ => true
  /-- What it holds when it is left out. -/
  default : Option String := none

/-- Whether a number is too large to be one: it rounds to infinity in double precision. -/
def tooLarge (spelling : List Char) : Bool :=
  let digits := spelling.dropWhile (· == '-')
  let exponentPart := digits.dropWhile (· != 'e')
  let mantissa := digits.takeWhile (· != 'e')
  let fraction := (mantissa.dropWhile (· != '.')).drop 1
  let significand := (Decimal.digits? (mantissa.filter (· != '.'))).getD 0
  let written := exponentPart.drop 1
  let power : Int := (Decimal.digits? (written.filter (· != '-'))).getD 0
  let power := if written.head? == some '-' then -power else power
  Decimal.tooLarge mantissa.length significand (power - fraction.length)

/-- The fault of a value that stands where another kind is expected. -/
def mismatch : Json → Fault
  | .garbled | .broken => .grammar
  | .number spelling => if tooLarge spelling then .grammar else .shape
  | _ => .shape

/-- The text of a field. -/
def readText (field : Field) : Json → Except Fault String
  | .string s => if field.accepts s then .ok s else .error .shape
  | j => .error (mismatch j)

/-- The texts of a record that is given as a list. -/
def textsOfItems : List Field → JsonItems → Except Fault (List String)
  | [], .nil => .ok []
  | [], _ => .error .grammar
  | _ :: _, .cut => .error .grammar
  | field :: fields, .nil =>
    match field.default with
    | some text => (textsOfItems fields .nil).map (text :: ·)
    | none => .error .shape
  | field :: fields, .cons head tail => do
    let text ← readText field head
    let texts ← textsOfItems fields tail
    return text :: texts

/-- The texts that the members of a record give, after those seen already. -/
def textsOfMembers (fields : List Field) (seen : List (Option String)) :
    JsonMembers → Except Fault (List (Option String))
  | .nil => .ok seen
  | .cut => .error .grammar
  | .cons none _ _ => .error .grammar
  | .cons (some key) value tail =>
    match fields.findIdx? (·.names.contains key) with
    | none => if value.intact then textsOfMembers fields seen tail else .error .grammar
    | some i =>
      match fields[i]?, seen[i]? with
      | some field, some none => do
        let text ← readText field value
        textsOfMembers fields (seen.set i (some text)) tail
      | _, _ => .error .shape

/-- The text of each field, where those left out have one. -/
def fillIn : List Field → List (Option String) → Except Fault (List String)
  | field :: fields, text :: texts =>
    match text <|> field.default with
    | some text => (fillIn fields texts).map (text :: ·)
    | none => .error .shape
  | _, _ => .ok []

/-- The texts of a record. -/
def readRecord (fields : List Field) : Json → Except Fault (List String)
  | .array items => textsOfItems fields items
  | .object members => do
    let seen ← textsOfMembers fields (fields.map fun _ => none) members
    fillIn fields seen
  | j => .error (mismatch j)

/-- The entries of an object whose members are all read in one way. -/
def readEntries {α : Type} (read : Json → Except Fault α) :
    JsonMembers → Except Fault (List (String × α))
  | .nil => .ok []
  | .cut => .error .grammar
  | .cons none _ _ => .error .grammar
  | .cons (some key) value tail => do
    let a ← read value
    let entries ← readEntries read tail
    return (key, a) :: entries

/-- The map that an object is; of several members with one key the last counts. -/
def readMap {α : Type} (read : Json → Except Fault α) : Json → Except Fault (KeyMap α)
  | .object members => (readEntries read members).map KeyMap.ofList
  | j => .error (mismatch j)

/-- What a byte string holds, read in a given way. -/
def readDocument {α : Type} (read : Json → Except Fault α) (bytes : List UInt8) :
    Except Fault α := do
  let document := Document.ofBytes bytes
  let a ← read document.root
  if document.ended then return a else throw .grammar

end OverlayVpn.Json
