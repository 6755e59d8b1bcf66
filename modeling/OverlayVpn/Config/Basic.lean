import OverlayVpn.Path

set_option autoImplicit false

/-! # Configuration

The settings of server and client, with the values that hold when a file leaves them out. One
document has them all; its role says which part is used and has to make sense. -/

namespace OverlayVpn

/-- What this machine does in the tunnel. -/
inductive Role where
  | client
  | server
  deriving DecidableEq, Repr

/-- How the allocator looks for a free address. -/
inductive Strategy where
  /-- Through the whole range, each time. -/
  | linear
  /-- From the lowest address that may be free. -/
  | tracked
  deriving DecidableEq, Repr

/-- Which destinations a client sends through the tunnel. -/
inductive RouteMode where
  /-- All of them. -/
  | full
  /-- The tunnel's network. -/
  | subnet
  deriving DecidableEq, Repr

/-- The name of a role. -/
def Role.name : Role → String
  | client => "client"
  | server => "server"

/-- The name of a strategy. -/
def Strategy.name : Strategy → String
  | linear => "linear"
  | tracked => "tracked"

/-- The name of a route mode. -/
def RouteMode.name : RouteMode → String
  | full => "full"
  | subnet => "subnet"

/-- The role with a name. -/
def Role.ofName? : String → Option Role
  | "client" => some client
  | "server" => some server
  | _ => none

/-- The strategy with a name. -/
def Strategy.ofName? : String → Option Strategy
  | "linear" => some linear
  | "tracked" => some tracked
  | _ => none

/-- The route mode with a name. -/
def RouteMode.ofName? : String → Option RouteMode
  | "full" => some full
  | "subnet" => some subnet
  | _ => none

/-- The settings of a server. -/
structure ServerConfig where
  interfaceName : String := "wg0"
  /-- The server's private key in base64. -/
  privateKey : Option String := none
  listenPort : UInt16 := 51820
  /-- The server's address inside the tunnel, with the network's length. -/
  serverAddress : String := "10.0.0.1/24"
  /-- The directory of the registry's file. -/
  dataDir : String := "/var/lib/veil"
  /-- How long a graceful stop may take, in seconds. -/
  stopTimeoutSecs : UInt64 := 10
  deriving DecidableEq, Repr

/-- The settings of the address pool. -/
structure PoolConfig where
  cidr : String := "10.0.0.0/24"
  /-- The address that is never handed out. -/
  gateway : String := "10.0.0.1"
  strategy : Strategy := .tracked
  deriving DecidableEq, Repr

/-- The settings of the engine. -/
structure EngineConfig where
  /-- The engine's program. -/
  command : String := "wireguard-go"
  /-- Its arguments in front of the interface name. -/
  args : List String := ["-f"]
  /-- The directory in which the engine opens its socket. -/
  socketDir : String := "/var/run/wireguard"
  /-- How long the engine may take to open it, in milliseconds. -/
  startupTimeoutMs : UInt64 := 5000
  deriving DecidableEq, Repr

/-- The settings of a client. -/
structure ClientConfig where
  interfaceName : String := "veil0"
  /-- Where the profile is; in the home directory when unset. -/
  sessionFile : Option String := none
  keepaliveSecs : UInt16 := 25
  routeMode : RouteMode := .full
  /-- What is routed when only the tunnel's network is. -/
  tunnelNetwork : String := "10.0.0.0/24"
  /-- How long the server's address may take to answer, in seconds. -/
  probeTimeoutSecs : UInt64 := 3
  /-- How long the server may take to answer through the tunnel, in seconds. -/
  tunnelProbeTimeoutSecs : UInt64 := 5
  /-- How long to wait before the first probe, in seconds. -/
  handshakeGraceSecs : UInt64 := 3
  deriving DecidableEq, Repr

/-- A configuration. -/
structure Config where
  role : Role := .client
  logLevel : String := "info"
  server : ServerConfig := {}
  pool : PoolConfig := {}
  engine : EngineConfig := {}
  client : ClientConfig := {}
  deriving DecidableEq, Repr

/-- How much is logged. -/
inductive LogLevel where
  | trace
  | debug
  | info
  | warn
  | error
  deriving DecidableEq, Repr

namespace LogLevel

/-- The level that a text names, in either case and with blanks around it; else `info`. -/
def ofText (s : String) : LogLevel :=
  match Text.lower (Text.trim s) with
  | "trace" => trace
  | "debug" => debug
  | "warn" | "warning" => warn
  | "error" => error
  | _ => info

/-- The name of a level. -/
def name : LogLevel → String
  | trace => "TRACE"
  | debug => "DEBUG"
  | info => "INFO"
  | warn => "WARN"
  | error => "ERROR"

end LogLevel

/-- The variables of a process, and the home directory of its account. -/
structure Environment where
  bindings : List (String × String) := []
  accountHome : String := "/root"
  deriving DecidableEq, Repr

namespace Environment

/-- The value of a variable. -/
def get? (env : Environment) (name : String) : Option String := env.bindings.lookup name

/-- The home directory: `HOME` unless it is empty, else the account's. -/
def home (env : Environment) : Path :=
  match env.get? "HOME" with
  | some home => .ofText (if home.isEmpty then env.accountHome else home)
  | none => .ofText env.accountHome

/-- The directory for configuration files: `XDG_CONFIG_HOME` if that is absolute. -/
def configDir (env : Environment) : Path :=
  let default := env.home.push ".config"
  match env.get? "XDG_CONFIG_HOME" with
  | some dir => if (Path.ofText dir).isAbsolute then .ofText dir else default
  | none => default

end Environment

/-- The registry's file. -/
def ServerConfig.registryPath (c : ServerConfig) : Path := (Path.ofText c.dataDir).push "peers.json"

/-- The profile's file. -/
def ClientConfig.sessionPath (c : ClientConfig) (env : Environment) : Path :=
  match c.sessionFile with
  | some path => .ofText path
  | none => (env.home.push ".veil").push "session.json"

/-- The configuration's file, when none is named. -/
def Config.defaultPath (env : Environment) : Path := (env.configDir.push "veil").push "config.toml"

end OverlayVpn
