import OverlayVpn.Disk.Replace
import OverlayVpn.Net.Socket
import OverlayVpn.System.Command

set_option autoImplicit false

/-! # The system

What the program needs of the machine it runs on, as operations on a world `ω`: files and a
clock, programs that are run to their end, and processes that are launched, talked to through a
socket in the file system, and ended. -/

namespace OverlayVpn

/-- The number of a process. -/
abbrev ProcessId := Nat

/-- A system in a world `ω`. -/
structure System (ω : Type) where
  host : ω → Host
  withHost : Host → ω → ω
  /-- Runs a program to its end. -/
  run : Runner ω
  /-- Launches a program and leaves it running. -/
  launch : Command → ω → Except OsError ProcessId × ω
  /-- How a process has ended; `none` while it runs. -/
  exited : ProcessId → ω → Option ExitStatus
  /-- Asks a process to end and waits for it, up to a limit in milliseconds; says whether it has
  ended. -/
  terminate : ProcessId → (limit : Nat) → ω → Bool × ω
  /-- Ends a process at once. -/
  kill : ProcessId → ω → ω
  /-- Connects to a socket, sends a request and takes the reply until the other side closes. -/
  exchange : Path → (request : String) → ω → Except OsError (List UInt8) × ω
  /-- Lets milliseconds pass. -/
  sleep : Nat → ω → ω
  /-- The socket addresses of a host and a port; `none` when they cannot be found. -/
  resolve : String → ω → Option (List Socket) × ω

namespace System

variable {ω : Type}

/-- The file system. -/
def disk (sys : System ω) (w : ω) : Disk := (sys.host w).disk

/-- The world with another file system. -/
def withDisk (sys : System ω) (disk : Disk) (w : ω) : ω :=
  sys.withHost { sys.host w with disk } w

/-- The present moment. -/
def now (sys : System ω) (w : ω) : Timestamp × ω :=
  let host := sys.host w
  let (t, clock) := host.clock.read
  (t, sys.withHost { host with clock } w)

/-- Whether there is something at a path. -/
def pathExists (sys : System ω) (path : Path) (w : ω) : Except OsError Bool :=
  match (sys.disk w).find path with
  | .ok _ => .ok true
  | .error .noEntry => .ok false
  | .error e => .error e

/-- Removes a file. -/
def remove (sys : System ω) (path : Path) (w : ω) : Except OsError Unit × ω :=
  let (r, disk) := (sys.disk w).perform (.remove path)
  (r, sys.withDisk disk w)

end System

end OverlayVpn
