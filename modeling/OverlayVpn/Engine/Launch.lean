import OverlayVpn.Config.Basic
import OverlayVpn.Engine.Exchange
import OverlayVpn.Engine.Request
import OverlayVpn.System.Process

set_option autoImplicit false

/-! # Engines that are processes

The engine is a program that is launched for an interface and opens a socket named after it.
Requests go through the socket, one connection each. The interface itself is set up and deleted
by the system's `ip` program. -/

namespace OverlayVpn

open Engine

/-- How an engine is launched. -/
structure LaunchSettings where
  command : String
  /-- The arguments in front of the interface name. -/
  args : List String
  /-- The directory in which the engine opens its socket. -/
  socketDir : Path
  /-- How long it may take to do so, in milliseconds. -/
  startupTimeout : Nat
  deriving DecidableEq, Repr

/-- The settings that a configuration gives. -/
def LaunchSettings.ofConfig (c : EngineConfig) : LaunchSettings :=
  { command := c.command
    args := c.args
    socketDir := .ofText c.socketDir
    startupTimeout := c.startupTimeoutMs.toNat }

/-- An interface and the process behind it. -/
structure EngineProcess where
  interface : String
  socket : Path
  process : ProcessId
  deriving DecidableEq, Repr

namespace EngineProcess

variable {ω : Type}

/-- How long to wait between two looks for the socket, in milliseconds. -/
def pollInterval : Nat := 50

/-- How long an engine may take to end when it is asked to, in milliseconds. -/
def endingGrace : Nat := 2000

/-- A call of the `ip` program. -/
def ip (args : List String) : Command := { program := "ip", args }

/-- Whether the system knows an interface. -/
def linkExists (sys : System ω) (interface : String) (w : ω) : Except EngineFault Bool × ω :=
  let (r, w) := sys.run.succeeds (ip ["link", "show", "dev", interface]) none w
  (match r with
    | .ok found => .ok (found == some true)
    | .error fault => .error (.command fault), w)

/-- Runs the `ip` program. -/
def runIp (sys : System ω) (args : List String) (w : ω) : Except CommandFault String × ω :=
  sys.run.run (ip args) w

/-- The socket of an interface. -/
def socketPath (settings : LaunchSettings) (interface : String) : Path :=
  settings.socketDir.append (.ofText (interface ++ ".sock"))

/-- Makes room for the socket: one that was left behind is removed, unless its interface is
there. -/
def clearSocket (sys : System ω) (interface : String) (socket : Path) (w : ω) :
    Except EngineFault Unit × ω :=
  match sys.pathExists socket w with
  | .error e => (.error (.io e), w)
  | .ok false => (.ok (), w)
  -- a socket without an interface belongs to an engine that is gone
  | .ok true =>
    match linkExists sys interface w with
    | (.error fault, w) => (.error fault, w)
    | (.ok true, w) =>
      (.error (.startup s!"interface {interface} is already managed by another engine"), w)
    | (.ok false, w) =>
      let (r, w) := sys.remove socket w
      (r.mapError .io, w)

/-- Waits until a process has opened its socket, for `left` milliseconds at most. -/
def awaitSocket (sys : System ω) (command : String) (socket : Path) (process : ProcessId)
    (left : Nat) (w : ω) : Except EngineFault Unit × ω :=
  match sys.pathExists socket w with
  | .error e => (.error (.io e), sys.kill process w)
  | .ok true => (.ok (), w)
  | .ok false =>
    match sys.exited process w with
    | some status =>
      (.error (.startup s!"{command} exited with {status.text} before opening {socket.text}"), w)
    | none =>
      if left = 0 then
        (.error (.startup ("timed out waiting for " ++ socket.text)), sys.kill process w)
      else
        awaitSocket sys command socket process (left - pollInterval) (sys.sleep pollInterval w)
  termination_by left
  decreasing_by simp only [pollInterval]; omega

/-- Launches the engine for an interface and waits for its socket. -/
def create (sys : System ω) (settings : LaunchSettings) (interface : String) (w : ω) :
    Except EngineFault EngineProcess × ω :=
  let socket := socketPath settings interface
  match clearSocket sys interface socket w with
  | (.error fault, w) => (.error fault, w)
  | (.ok (), w) =>
    match sys.launch ⟨settings.command, settings.args ++ [interface]⟩ w with
    | (.error e, w) =>
      (.error (.startup s!"failed to launch {settings.command}: {e.message}"), w)
    | (.ok process, w) =>
      let (r, w) := awaitSocket sys settings.command socket process settings.startupTimeout w
      (r.map fun _ => { interface, socket, process }, w)

/-- Sends a request and reads the reply. -/
def ask (sys : System ω) (device : EngineProcess) (request : String) (w : ω) :
    Except EngineFault (List String) × ω :=
  match sys.exchange device.socket request w with
  | (.error e, w) => (.error (.io e), w)
  | (.ok reply, w) => (readReply reply, w)

/-- Gives the interface its address, if it has not got it yet, and sets it up. -/
def activate (sys : System ω) (device : EngineProcess) (address : String) (w : ω) :
    Except EngineFault Unit × ω :=
  let setUp (w : ω) : Except EngineFault Unit × ω :=
    match runIp sys ["link", "set", "up", "dev", device.interface] w with
    | (.ok _, w) => (.ok (), w)
    | (.error fault, w) => (.error (.command fault), w)
  match runIp sys ["address", "add", address, "dev", device.interface] w with
  | (.ok _, w) => setUp w
  | (.error fault, w) =>
    if Text.holds "File exists" fault.stderr then setUp w else (.error (.command fault), w)

/-- Asks the process to end, kills it when it does not, and removes the socket. -/
def close (sys : System ω) (device : EngineProcess) (limit : Option Nat) (w : ω) : Closing × ω :=
  let patience := min endingGrace (limit.getD endingGrace)
  match sys.terminate device.process patience w with
  | (true, w) => (.closed, (sys.remove device.socket w).2)
  | (false, w) =>
    -- the caller's limit came first: nothing more is done to the process here
    if patience < endingGrace then (.cutOff, w)
    else (.closed, (sys.remove device.socket (sys.kill device.process w)).2)

/-- Deletes the interface if it is still there. -/
def deleteLink (sys : System ω) (device : EngineProcess) (w : ω) :
    Except EngineFault Unit × ω :=
  match linkExists sys device.interface w with
  | (.error fault, w) => (.error fault, w)
  | (.ok false, w) => (.ok (), w)
  | (.ok true, w) =>
    match runIp sys ["link", "delete", "dev", device.interface] w with
    | (.ok _, w) => (.ok (), w)
    | (.error fault, w) => (.error (.command fault), w)

/-- The engine whose devices are processes. -/
def engine (sys : System ω) (settings : LaunchSettings) : Engine ω EngineProcess where
  create := create sys settings
  set device body w :=
    let (r, w) := ask sys device (setRequest body) w
    (r.map fun _ => (), w)
  get device := ask sys device getRequest
  activate := activate sys
  close := close sys
  deleteLink := deleteLink sys
  discard device w := sys.kill device.process w

end EngineProcess

end OverlayVpn
