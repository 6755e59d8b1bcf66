import OverlayVpn.Json.Basic
import OverlayVpn.Json.Token

set_option autoImplicit false

/-! # Reading JSON documents

A text is read into the tree of all that stands in front of its first fault. The readers are
bounded by a number of steps; twice the number of the tokens is always enough, since every
second step takes a token. -/

namespace OverlayVpn.Json

mutual

/-- The value at the start of a list of tokens, and the tokens after it. -/
def readValue : Nat → List Token → Json × List Token
  | 0, _ => (.broken, [])
  | steps + 1, tokens =>
    match tokens with
    | .null :: rest => (.null, rest)
    | .bool b :: rest => (.bool b, rest)
    | .number spelling :: rest => (.number spelling, rest)
    | .string (some s) :: rest => (.string s, rest)
    | .string none :: rest => (.garbled, rest)
    | .openBracket :: .closeBracket :: rest => (.array .nil, rest)
    | .openBracket :: rest =>
      let (items, rest) := readItems steps rest
      (.array items, rest)
    | .openBrace :: .closeBrace :: rest => (.object .nil, rest)
    | .openBrace :: rest =>
      let (members, rest) := readMembers steps rest
      (.object members, rest)
    | _ => (.broken, [])

/-- The items of a list from one of them on, and the tokens after the list. -/
def readItems : Nat → List Token → JsonItems × List Token
  | 0, _ => (.cut, [])
  | steps + 1, tokens =>
    let (head, rest) := readValue steps tokens
    match rest with
    | .comma :: rest =>
      let (tail, rest) := readItems steps rest
      (.cons head tail, rest)
    | .closeBracket :: rest => (.cons head .nil, rest)
    | _ => (.cons head .cut, [])

/-- The members of an object from one of them on, and the tokens after the object. -/
def readMembers : Nat → List Token → JsonMembers × List Token
  | 0, _ => (.cut, [])
  | steps + 1, tokens =>
    match tokens with
    | .string key :: .colon :: rest =>
      let (value, rest) := readValue steps rest
      match rest with
      | .comma :: rest =>
        let (tail, rest) := readMembers steps rest
        (.cons key value tail, rest)
      | .closeBrace :: rest => (.cons key value .nil, rest)
      | _ => (.cons key value .cut, [])
    | .string key :: _ => (.cons key .broken .cut, [])
    | _ => (.cut, [])

end

/-- A text as a document. -/
structure Document where
  root : Json
  /-- Whether nothing follows the document. -/
  ended : Bool

/-- The document that a byte string holds. -/
def Document.ofBytes (bytes : List UInt8) : Document :=
  let ts := tokens (gapped bytes)
  let (root, rest) := readValue (2 * ts.length + 2) ts
  { root, ended := rest.isEmpty }

end OverlayVpn.Json
