import OverlayVpn.Config.File
import OverlayVpn.Text.Decimal

set_option autoImplicit false

/-! # Loading a configuration

A configuration is read from its file, then overridden by the variables of the environment that
start with `VEIL_`, and then checked for its role. -/

namespace OverlayVpn

open Text

/-- Why a configuration cannot be had or saved. -/
inductive ConfigFault where
  | io (error : OsError)
  /-- The file holds no configuration. -/
  | unreadable
  /-- A number is too large for the file. -/
  | unwritable
  | missing (key : String)
  | invalid (key message : String)
  | notFound (path : Path)
  deriving DecidableEq, Repr

/-- What is said of a fault. -/
def ConfigFault.message : ConfigFault → String
  | io error => "Failed to read config file: " ++ error.message
  | unreadable => "Failed to parse TOML config"
  | unwritable => "Failed to serialize config to TOML: out-of-range value for u64 type"
  | missing key => "Missing required configuration value: " ++ key
  | invalid key text => s!"Invalid configuration value for {key}: {text}"
  | notFound path => "Configuration file not found at " ++ path.text

/-! ## The environment -/

namespace Environment

/-- The value of a variable that is not blank. -/
def filled? (env : Environment) (name : String) : Option String :=
  (env.get? name).filter (! blank ·)

end Environment

/-- The parts of a text between commas, without blanks around them and without the empty ones. -/
def commaParts (s : String) : List String :=
  ((splitOn ',' s).map trim).filter (! ·.isEmpty)

namespace Config

/-- The server's settings with the variables that concern them. -/
def overrideServer (env : Environment) (c : ServerConfig) : ServerConfig :=
  { c with
    interfaceName := (env.filled? "VEIL_SERVER_INTERFACE_NAME").getD c.interfaceName
    privateKey := env.filled? "VEIL_SERVER_PRIVATE_KEY" <|> c.privateKey
    listenPort :=
      ((env.filled? "VEIL_SERVER_LISTEN_PORT").bind Decimal.word16?).getD c.listenPort
    serverAddress := (env.filled? "VEIL_SERVER_ADDRESS").getD c.serverAddress
    dataDir := (env.filled? "VEIL_SERVER_DATA_DIR").getD c.dataDir
    stopTimeoutSecs :=
      ((env.filled? "VEIL_SERVER_STOP_TIMEOUT_SECS").bind Decimal.word64?).getD
        c.stopTimeoutSecs }

/-- The pool's settings with the variables that concern them. -/
def overridePool (env : Environment) (c : PoolConfig) : PoolConfig :=
  { cidr := (env.filled? "VEIL_IPAM_CIDR").getD c.cidr
    gateway := (env.filled? "VEIL_IPAM_GATEWAY").getD c.gateway
    strategy :=
      ((env.filled? "VEIL_IPAM_STRATEGY").bind fun s => Strategy.ofName? (lower s)).getD
        c.strategy }

/-- The engine's settings with the variables that concern them. The arguments are replaced
whenever their variable is set. -/
def overrideEngine (env : Environment) (c : EngineConfig) : EngineConfig :=
  { c with
    command := (env.filled? "VEIL_ENGINE_COMMAND").getD c.command
    args := ((env.get? "VEIL_ENGINE_ARGS").map commaParts).getD c.args
    socketDir := (env.filled? "VEIL_ENGINE_SOCKET_DIR").getD c.socketDir }

/-- The client's settings with the variables that concern them. A route mode that is not known
stands for the full one. -/
def overrideClient (env : Environment) (c : ClientConfig) : ClientConfig :=
  { c with
    interfaceName := (env.filled? "VEIL_CLIENT_INTERFACE_NAME").getD c.interfaceName
    sessionFile := env.filled? "VEIL_CLIENT_SESSION_FILE" <|> c.sessionFile
    routeMode :=
      ((env.filled? "VEIL_CLIENT_ROUTE_MODE").map fun s =>
        if lower s = "subnet" then RouteMode.subnet else .full).getD c.routeMode
    keepaliveSecs :=
      ((env.filled? "VEIL_CLIENT_KEEPALIVE_SECS").bind Decimal.word16?).getD c.keepaliveSecs }

/-- The configuration with the variables of the environment. A role that is not known stands for
the client's. -/
def override (env : Environment) (c : Config) : Config :=
  { role :=
      ((env.filled? "VEIL_ROLE").map fun s =>
        if lower s = "server" then Role.server else .client).getD c.role
    logLevel := (env.filled? "VEIL_LOG_LEVEL").getD c.logLevel
    server := overrideServer env c.server
    pool := overridePool env c.pool
    engine := overrideEngine env c.engine
    client := overrideClient env c.client }

/-! ## Checking -/

/-- Checks what a server needs. -/
def validateServer (c : Config) : Except ConfigFault Unit := do
  if blank c.server.interfaceName then throw (.invalid "server.interface_name" "cannot be empty")
  if c.server.privateKey.isNone then throw (.missing "server.private_key")
  if c.server.listenPort = 0 then
    throw (.invalid "server.listen_port" "must be between 1 and 65535")
  if blank c.server.serverAddress then throw (.invalid "server.server_address" "cannot be empty")
  if ! c.pool.cidr.toList.contains '/' then
    throw (.invalid "ipam.cidr" "expected CIDR notation")
  if blank c.pool.gateway then throw (.invalid "ipam.gateway" "cannot be empty")

/-- Checks what a client needs. -/
def validateClient (c : Config) : Except ConfigFault Unit := do
  if blank c.client.interfaceName then throw (.invalid "client.interface_name" "cannot be empty")
  if c.client.probeTimeoutSecs = 0 || c.client.tunnelProbeTimeoutSecs = 0 then
    throw (.invalid "client.probe_timeout_secs" "must be greater than 0")

/-- Checks a configuration for its role. -/
def validate (c : Config) : Except ConfigFault Unit := do
  match c.role with
  | .server => validateServer c
  | .client => validateClient c
  if blank c.engine.command then throw (.invalid "engine.command" "cannot be empty")

/-- The configuration with the environment's variables, if it makes sense. -/
def finish (env : Environment) (c : Config) : Except ConfigFault Config := do
  let c := c.override env
  c.validate
  return c

/-! ## Files -/

/-- The configuration in a file. -/
def load (disk : Disk) (env : Environment) (path : Path) : Except ConfigFault Config :=
  if ! disk.pathExists path then .error (.notFound path)
  else match disk.read path with
    | .error e => .error (.io e)
    | .ok bytes =>
      match Utf8.read? bytes with
      | none => .error (.io .notText)
      | some text =>
        match ofText? text with
        | none => .error .unreadable
        | some c => c.finish env

/-- The configuration in a file, or the default one where there is no file. -/
def loadIfPresent (disk : Disk) (env : Environment) (path : Path) : Except ConfigFault Config :=
  match load disk env path with
  | .error (.notFound _) => Config.finish env {}
  | other => other

/-- Writes the configuration to a file. -/
def save (c : Config) (disk : Disk) (path : Path) : Except ConfigFault Disk :=
  if ! c.writable then .error .unwritable
  else match disk.write path (Utf8.encode c.text) with
    | .ok disk => .ok disk
    | .error e => .error (.io e)

end Config

end OverlayVpn
