import Std.Time.DateTime.Timestamp
import OverlayVpn.Cli.Client
import OverlayVpn.Cli.Server
import OverlayVpn.Rehearsal.Machine

set_option autoImplicit false

/-! # The program

The first argument says which program is meant, `client` or `server`. The files that a run may
touch are read first; the run is then a computation on a machine that has these files and only the
shell's programs; at last the files that it changed are written. -/

namespace OverlayVpn

/-- A program: the configuration's file that it is called with, the other files that it may touch
under a configuration, and its run. -/
structure Program where
  configFile? : Environment → List String → Option Path
  files : Environment → Config → List Path
  run : Environment → Key → List String → Machine → Outcome × Machine

namespace Program

/-- The variables that are looked at. -/
def variableNames : List String :=
  ["HOME", "XDG_CONFIG_HOME", "VEIL_ROLE", "VEIL_LOG_LEVEL", "VEIL_SERVER_INTERFACE_NAME",
    "VEIL_SERVER_PRIVATE_KEY", "VEIL_SERVER_LISTEN_PORT", "VEIL_SERVER_ADDRESS",
    "VEIL_SERVER_DATA_DIR", "VEIL_SERVER_STOP_TIMEOUT_SECS", "VEIL_IPAM_CIDR",
    "VEIL_IPAM_GATEWAY", "VEIL_IPAM_STRATEGY", "VEIL_ENGINE_COMMAND", "VEIL_ENGINE_ARGS",
    "VEIL_ENGINE_SOCKET_DIR", "VEIL_CLIENT_INTERFACE_NAME", "VEIL_CLIENT_SESSION_FILE",
    "VEIL_CLIENT_ROUTE_MODE", "VEIL_CLIENT_KEEPALIVE_SECS"]

/-- The environment of this process. -/
def environment : IO Environment := do
  let found ← variableNames.filterMapM fun name => do
    return (← IO.getEnv name).map (name, ·)
  return { bindings := found }

/-- The present moment. -/
def moment : IO Timestamp := do
  let now ← Std.Time.Timestamp.now
  let nanos := now.toNanosecondsSinceUnixEpoch.val
  return (Timestamp.ofUnix? (nanos / 1000000000) (nanos % 1000000000).toNat).getD
    ⟨⟨1970, 1, 1⟩, ⟨0, 0, 0, 0⟩, by decide, by decide⟩

/-- A key that nobody knows. -/
def freshKey : IO Key := do
  let bytes ← IO.getRandomBytes 32
  return Key.ofNat (bytes.foldl (fun n b => n * 256 + b.toNat) 0)

/-- The disk with what this machine has at a path. -/
def fetch (disk : Disk) (path : Path) : IO Disk := do
  let here ← IO.currentDir
  let made (p : Path) : Disk := (disk.makeAll p).toOption.getD disk
  if ← (here / path.text).isDir then return made path
  let disk ← match path.parent? with
    | some parent => do return if ← (here / parent.text).isDir then made parent else disk
    | none => pure disk
  try
    let bytes ← IO.FS.readBinFile path.text
    return (disk.write path bytes.toList).toOption.getD disk
  catch _ => return disk

/-- Writes a file in one step: its contents go into a sibling for the owner alone, which is moved
over it. -/
def writeFile (path : Path) (contents : List UInt8) : IO Unit := do
  let sibling := path.tempSibling.text
  if let some parent := path.parent? then
    if ! parent.isEmpty then IO.FS.createDirAll parent.text
  IO.FS.writeBinFile sibling (ByteArray.mk contents.toArray)
  IO.setAccessRights sibling { user := { read := true, write := true } }
  IO.FS.rename sibling path.text

/-- Writes what a run changed at a path. -/
def store (before after : Disk) (path : Path) : IO Unit := do
  let node (d : Disk) : Option Node := (d.find path).toOption.map (·.2)
  if node before == node after then return ()
  match node after with
  | some (.file contents _) => writeFile path contents
  | some (.directory _) => return ()
  | none => IO.FS.removeFile path.text

/-- The client. -/
def client : Program where
  configFile? env args := (Cli.Client.Call.read args).map (Cli.Client.configFile env)
  files env config := [config.client.sessionPath env]
  run env fresh args := Cli.Client.run Machine.system env fresh args

/-- The server. -/
def server : Program where
  configFile? _ args := Cli.Server.configFile? args
  files _ config := [config.server.registryPath, config.server.registryPath.tempSibling]
  run env _ args := Cli.Server.run Machine.system env args

/-- The disk with the files that a run may touch, and their paths. -/
def gather (program : Program) (env : Environment) (args : List String) :
    IO (Disk × List Path) := do
  let here := Path.ofText (← IO.currentDir).toString
  let empty : Disk := { workingDirectory := here.names }
  let disk := (empty.makeAll here).toOption.getD empty
  match program.configFile? env args with
  | none => return (disk, [])
  | some file =>
    let disk ← fetch disk file
    match Config.loadIfPresent disk env file with
    | .error _ => return (disk, [])
    | .ok config =>
      let paths := program.files env config
      return (← paths.foldlM fetch disk, paths)

/-- Runs a program on this machine's files; the exit code. -/
def perform (program : Program) (args : List String) : IO UInt32 := do
  let env ← environment
  let (disk, paths) ← gather program env args
  let host : Host := { disk, clock := .still (← moment) }
  let (outcome, machine) := program.run env (← freshKey) args { host }
  paths.forM (store disk machine.host.disk)
  IO.print outcome.stdout
  IO.eprint outcome.stderr
  return UInt32.ofNat outcome.code

end Program

end OverlayVpn

/-- Runs the program that the first argument names. -/
def main (args : List String) : IO UInt32 := do
  match args with
  | "client" :: args => OverlayVpn.Program.perform .client args
  | "server" :: args => OverlayVpn.Program.perform .server args
  | _ =>
    IO.eprintln "Usage: <client|server> ..."
    return 2
