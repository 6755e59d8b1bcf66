import OverlayVpn.Net.Ipv4
import OverlayVpn.Text.Quoted

set_option autoImplicit false

/-! # Address pools

A pool is the part of a network that is handed out to clients. The network's own address and the
gateway are never handed out, and neither is the broadcast address, except in a network of four
addresses, where both addresses after the first are. -/

namespace OverlayVpn

/-- The assignable part of a network. Addresses are compared as numbers. -/
structure Pool where
  /-- The network, without host bits. -/
  network : Network
  gateway : Ipv4
  /-- The lowest and the highest address of the range. -/
  first : Nat
  last : Nat
  deriving DecidableEq

namespace Pool

/-- Why a network has no pool. -/
inductive Reason where
  | notNetwork
  | tooSmall
  | gatewayNotAddress (gateway : String)
  | gatewayOutside (gateway : Ipv4)
  | noneAssignable
  deriving DecidableEq, Repr

/-- What is said of a reason. -/
def Reason.message : Reason → String
  | .notNetwork => Network.badText
  | .tooSmall => "prefix must be /30 or shorter"
  | .gatewayNotAddress gateway => s!"gateway {Text.quoted gateway} is not an IPv4 address"
  | .gatewayOutside gateway => s!"gateway {gateway.text} lies outside the network"
  | .noneAssignable => "no assignable addresses"

/-- Why no address or no pool can be had. -/
inductive Fault where
  /-- The network `cidr` has no pool. -/
  | invalid (cidr : String) (reason : Reason)
  /-- Every address of the pool is in use. -/
  | exhausted (network : Network)
  deriving DecidableEq

/-- What is said of a fault. -/
def Fault.message : Fault → String
  | .invalid cidr reason => s!"invalid address pool {cidr}: {reason.message}"
  | .exhausted network => s!"no free addresses left in {network.text}"

/-- Whether an address number lies in the range and is not the gateway's. -/
def assignableNumber (pool : Pool) (n : Nat) : Bool :=
  pool.first ≤ n && n ≤ pool.last && n != pool.gateway.toNat

/-- Whether an address may be handed out. -/
def assignable (pool : Pool) (a : Ipv4) : Bool := pool.assignableNumber a.toNat

/-- Whether the gateway lies in `[start, stop)`. -/
def gatewayWithin (pool : Pool) (start stop : Nat) : Bool :=
  start ≤ pool.gateway.toNat && pool.gateway.toNat < stop

/-- How many addresses from the range's start up to `stop` may be handed out. -/
def assignableBelow (pool : Pool) (stop : Nat) : Nat :=
  let span := stop - pool.first
  if pool.gatewayWithin pool.first stop then span - 1 else span

/-- How many addresses may be handed out. They are counted without bounds. In 32-bit words the number
after `last` overflows for one pool, that of the four highest addresses, whose range ends at
255.255.255.255: its capacity cannot be counted in words. -/
def capacity (pool : Pool) : Nat := pool.assignableBelow (pool.last + 1)

/-- The pool of a truncated network with its gateway. -/
def ofNetwork (network : Network) (gateway : Ipv4) : Pool :=
  { network, gateway
    first := network.base + 1
    last := if network.length = 30 then network.top else network.top - 1 }

/-- The pool that a configuration names. -/
def create (cidr gateway : String) : Except Fault Pool :=
  let invalid (reason : Reason) : Except Fault Pool := .error (.invalid cidr reason)
  match Network.ofChars? (Text.trimmed cidr.toList) with
  | none => invalid .notNetwork
  | some network =>
    if 31 ≤ network.length then invalid .tooSmall
    else match Ipv4.ofEntry? gateway with
    | none => invalid (.gatewayNotAddress gateway)
    | some gateway =>
      if ! network.contains gateway then invalid (.gatewayOutside gateway)
      else
        let pool := ofNetwork network.truncate gateway
        if pool.capacity = 0 then invalid .noneAssignable else .ok pool

/-- The lowest address of the range. -/
def firstAddress (pool : Pool) : Ipv4 := .ofNat pool.first

/-- The highest address of the range. -/
def lastAddress (pool : Pool) : Ipv4 := .ofNat pool.last

/-- The range as text. -/
def rangeText (pool : Pool) : String :=
  pool.firstAddress.text ++ "-" ++ pool.lastAddress.text

end Pool

end OverlayVpn
