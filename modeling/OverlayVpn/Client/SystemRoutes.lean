import OverlayVpn.Client.Route

set_option autoImplicit false

/-! # The system's routing table

The routing table is looked at and changed by the system's `ip` program. A route that is there
already is not an error when it is added, and one that is gone is not when it is removed. -/

namespace OverlayVpn.SystemRoutes

variable {ω : Type}

/-- The command that shows the default route. -/
def showDefault : Command := { program := "ip", args := ["-4", "route", "show", "default"] }

/-- The command that does something with a route. -/
def routeCommand (verb : String) (route : Route) : Command :=
  let via := match route.via with
    | some gateway => ["via", gateway.text]
    | none => []
  { program := "ip"
    args := ["-4", "route", verb, route.destination.text] ++ via ++ ["dev", route.device] }

/-- What the system says when a route that is to be removed is not there. -/
def absences : List String := ["No such process", "Cannot find device", "No such device"]

/-- Adds a route. -/
def add (run : Runner ω) (route : Route) (w : ω) : Except RoutingFault RouteAddition × ω :=
  match run.run (routeCommand "add" route) w with
  | (.ok _, w) => (.ok .installed, w)
  | (.error fault, w) =>
    if Text.holds "File exists" fault.stderr then (.ok .alreadyPresent, w)
    else (.error (.command fault), w)

/-- Removes a route. -/
def remove (run : Runner ω) (route : Route) (w : ω) : Except RoutingFault Unit × ω :=
  match run.run (routeCommand "del" route) w with
  | (.ok _, w) => (.ok (), w)
  | (.error fault, w) =>
    if absences.any (Text.holds · fault.stderr) then (.ok (), w)
    else (.error (.command fault), w)

/-- The routing table behind a runner. -/
def table (run : Runner ω) : RouteTable ω where
  current w :=
    match run.run showDefault w with
    | (.error fault, w) => (.error (.command fault), w)
    | (.ok listing, w) => ((DefaultRoute.read listing).mapError .defaultRoute, w)
  add := add run
  remove := remove run

end OverlayVpn.SystemRoutes
