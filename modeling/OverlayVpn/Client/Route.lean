import OverlayVpn.Net.Ipv4
import OverlayVpn.System.Command

set_option autoImplicit false

/-! # Routes

A route sends a network through a device, with or without a gateway. The system's default route
is read off the listing of the routing table: of its first line that starts with `default`, the
word after `via` is the gateway and the word after `dev` the device. -/

namespace OverlayVpn

open Text

/-- One IPv4 route. -/
structure Route where
  destination : Network
  via : Option Ipv4 := none
  device : String
  deriving DecidableEq

/-- The route as text. -/
def Route.text (r : Route) : String :=
  let via := match r.via with
    | some gateway => " via " ++ gateway.text
    | none => ""
  r.destination.text ++ via ++ " dev " ++ r.device

/-- The default route of the system. -/
structure DefaultRoute where
  gateway : Option Ipv4 := none
  device : String
  deriving DecidableEq

/-- What became of a route that was to be added. -/
inductive RouteAddition where
  | installed
  /-- It was there before, and is not ours to remove. -/
  | alreadyPresent
  deriving DecidableEq, Repr

namespace DefaultRoute

/-- Why a listing tells no default route. -/
inductive Fault where
  | missing
  /-- The default route's line makes no sense. -/
  | garbled (line : String)
  deriving DecidableEq, Repr

/-- What is said of a fault. -/
def Fault.message : Fault → String
  | .missing => "no IPv4 default route is configured"
  | .garbled line => "unexpected routing table output: " ++ line

/-- The gateway and the device that words tell, after those read so far; `none` when a gateway
is announced that is no address. Of several the last counts. -/
def scan (gateway : Option Ipv4) (device : Option String) :
    List String → Option (Option Ipv4 × Option String)
  | [] => some (gateway, device)
  | ["via"] => none
  | ["dev"] => some (gateway, none)
  | word :: next :: rest =>
    if word = "via" then
      match Ipv4.read? next with
      | some address => scan (some address) device rest
      | none => none
    else if word = "dev" then scan gateway (some next) rest
    else scan gateway device (next :: rest)
  | [_] => some (gateway, device)

/-- The default route that a line tells. -/
def ofLine (line : String) : Except Fault DefaultRoute :=
  match scan none none (words line) with
  | some (gateway, some device) => .ok { gateway, device }
  | _ => .error (.garbled line)

/-- Whether a line tells a default route. -/
def isDefaultLine (line : String) : Bool := (after? "default".toList line.toList).isSome

/-- The default route that a listing tells. -/
def read (listing : String) : Except Fault DefaultRoute :=
  match ((lines listing).map trim).find? isDefaultLine with
  | some line => ofLine line
  | none => .error .missing

end DefaultRoute

/-- What goes wrong with a routing table. -/
inductive RoutingFault where
  | command (fault : CommandFault)
  | defaultRoute (fault : DefaultRoute.Fault)
  deriving DecidableEq, Repr

/-- What is said of a fault. -/
def RoutingFault.message : RoutingFault → String
  | command fault => fault.message
  | defaultRoute fault => fault.message

/-- A routing table in a world `ω`. -/
structure RouteTable (ω : Type) where
  /-- The system's default route. -/
  current : ω → Except RoutingFault DefaultRoute × ω
  add : Route → ω → Except RoutingFault RouteAddition × ω
  remove : Route → ω → Except RoutingFault Unit × ω

end OverlayVpn
