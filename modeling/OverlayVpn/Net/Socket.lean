import OverlayVpn.Net.Ipv6

set_option autoImplicit false

/-! # Socket addresses

An address with a port: `a.b.c.d:p`, or `[v6]:p` where the address may carry a numeric scope
`%n`, which is shown unless it is zero. -/

namespace OverlayVpn

open Text

/-- Where a datagram is sent. -/
structure Socket where
  address : IpAddress
  port : UInt16
  /-- The link that an IPv6 address is meant on. -/
  scope : UInt32 := 0
  deriving DecidableEq

namespace Socket

/-- The socket address as text. -/
def text (s : Socket) : String :=
  let port := Decimal.render s.port.toNat
  match s.address with
  | .v4 a => a.text ++ ":" ++ port
  | .v6 a =>
    let scope := if s.scope = 0 then "" else "%" ++ Decimal.render s.scope.toNat
    "[" ++ a.text ++ scope ++ "]:" ++ port

/-- A number of digits alone, below `bound`. -/
def number? (bound : Nat) (cs : List Char) : Option Nat := (Decimal.digits? cs).filter (· < bound)

/-- Cuts at the last colon. -/
def cutLastColon (cs : List Char) : Option (List Char × List Char) :=
  (cutAt ':' cs.reverse).map fun (after, before) => (before.reverse, after.reverse)

/-- What stands in brackets: an IPv6 address and its scope. -/
def bracketed? (cs : List Char) : Option (Ipv6 × UInt32) :=
  match cutAt '%' cs with
  | none => (Ipv6.ofChars? cs).map (·, 0)
  | some (address, scope) => do
    let address ← Ipv6.ofChars? address
    let scope ← number? UInt32.size scope
    return (address, UInt32.ofNat scope)

/-- A socket address. -/
def ofChars? (cs : List Char) : Option Socket := do
  let (host, port) ← cutLastColon cs
  let port ← number? UInt16.size port
  match host with
  | '[' :: rest =>
    match rest.reverse with
    | ']' :: inside => do
      let (address, scope) ← bracketed? inside.reverse
      return { address := .v6 address, port := UInt16.ofNat port, scope }
    | _ => none
  | _ => do
    let address ← Ipv4.ofChars? false host
    return { address := .v4 address, port := UInt16.ofNat port }

/-- A socket address. -/
def read? (s : String) : Option Socket := ofChars? s.toList

end Socket

end OverlayVpn
