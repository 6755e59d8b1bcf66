import OverlayVpn.Cli.Options
import OverlayVpn.Cli.Outcome
import OverlayVpn.Engine.Launch
import OverlayVpn.Tunnel.EngineTunnel

set_option autoImplicit false

/-! # The server's program

The server opens its registry, starts its control plane and stops it when the program is
interrupted. -/

namespace OverlayVpn.Cli.Server

variable {ω : Type}

/-- The server's options. How and where it logs makes no difference to what is printed. -/
def options : List OptionSpec :=
  [{ name := "config", letter := some 'c' }, { name := "log-level", letter := some 'l' },
    { name := "log-dir" }, { name := "json-logs", hasValue := false }]

/-- The configuration's file, when none is named. -/
def defaultConfig : Path := .ofText "/etc/veil/server.toml"

/-- The configuration's file that arguments tell. -/
def configFile? (args : List String) : Option Path := do
  let given ← Options.read options args
  if ! given.rest.isEmpty || given.value? "config" = some "" then none
  return ((given.value? "config").map .ofText).getD defaultConfig

/-- How the server is called. -/
def usage : String :=
  "Usage: server [--config FILE] [--log-level LEVEL] [--log-dir DIR] [--json-logs]"

/-- The failure that a fault of opening is. -/
def openFailure : Plane.OpenFault → Outcome
  | .registry fault => .failure "opening peer registry" (fault.message :: fault.causes)
  | .pool fault => .failure fault.message

/-- The failure that a fault of the control plane is. -/
def controlFailure (fault : ControlFault) : Outcome := .failure fault.message fault.causes

/-- Starts a control plane, and stops it when the program is interrupted. -/
def serve (sys : System ω) (config : Config) (plane : Plane (EngineTunnel EngineProcess × ω)) :
    Outcome × ω :=
  let backend := EngineTunnel.backend (EngineProcess.engine sys (.ofConfig config.engine))
  match TunnelSettings.ofServer config.server with
  | .error fault => (controlFailure fault, plane.backend.2)
  | .ok settings =>
    match (Plane.start backend settings).run plane with
    | (.error fault, plane) => (controlFailure fault, plane.backend.2)
    | (.ok (), plane) =>
      let deadline := config.server.stopTimeoutSecs.toNat * 1000
      let (_, plane) := (Plane.stop backend deadline).run plane
      ({}, plane.backend.2)

/-- Opens the control plane of a configuration. The engine sees the disk as it is then. -/
def openPlane (sys : System ω) (config : Config) (w : ω) :
    Except Plane.OpenFault (Plane (EngineTunnel EngineProcess × ω)) :=
  let idle : EngineTunnel EngineProcess := {}
  (Plane.openAt (sys.host w) config.server.registryPath config.pool (idle, w)).map fun plane =>
    { plane with backend := (idle, sys.withHost plane.host w) }

/-- Runs the server with arguments, in an environment. -/
def run (sys : System ω) (env : Environment) (args : List String) (w : ω) : Outcome × ω :=
  match configFile? args with
  | none => ({ ending := .misused usage }, w)
  | some file =>
    match Config.load (sys.disk w) env file with
    | .error fault => (.failure ("loading " ++ file.text) (fault.message :: fault.causes), w)
    | .ok config =>
      if config.role ≠ .server then
        (.failure (file.text ++ " is not a server configuration"), w)
      else match openPlane sys config w with
        | .error fault => (openFailure fault, w)
        | .ok plane => serve sys config plane

end OverlayVpn.Cli.Server
