import OverlayVpn.Config.Basic
import OverlayVpn.Disk.Basic
import OverlayVpn.Text.Utf8
import OverlayVpn.Toml.Printer
import OverlayVpn.Toml.Reader

set_option autoImplicit false

/-! # Configuration files

A configuration is kept in a TOML document with a table for each of its parts. Keys that are
missing have their defaults, keys that are not known are passed over, and a value of another type
or out of its range makes the document unfit. A part may also be given as a list of its values in
order. -/

namespace OverlayVpn

open Toml (Entries)

/-! ## Reading -/

namespace Toml

/-- A text. -/
def asText? : Toml → Option String
  | .string s => some s
  | _ => none

/-- A natural number below a bound. -/
def asNatural? (bound : Nat) : Toml → Option Nat
  | .integer n => if 0 ≤ n ∧ n < bound then some n.toNat else none
  | _ => none

/-- A 16-bit number. -/
def asWord16? (v : Toml) : Option UInt16 := (asNatural? UInt16.size v).map UInt16.ofNat

/-- A 64-bit number. -/
def asWord64? (v : Toml) : Option UInt64 := (asNatural? UInt64.size v).map UInt64.ofNat

/-- A list of texts. -/
def asTexts? : Toml → Option (List String)
  | .array items => items.mapM asText?
  | _ => none

/-- Whether a value holds nothing. -/
def isVoid : Toml → Bool
  | .array [] | .table _ [] => true
  | _ => false

/-- A name out of a choice: a text, or a table whose key it is. -/
def asChoice? {α : Type} (choose : String → Option α) : Toml → Option α
  | .string s => choose s
  | .table form ((name, inside) :: rest) =>
    if form == .inBraces && ! rest.isEmpty then none
    else if isVoid inside then choose name else none
  | _ => none

/-- The entries of a part: those of a table, or the values of a list under the names in order. The
list has to reach at least as far as the `needed` names that have no default there. -/
def asPart? (names : List String) (needed : Nat) : Toml → Option Entries
  | .table _ entries => some entries
  | .array items => if items.length < needed then none else some (names.zip items)
  | .tables items => if items.length < needed then none else some (names.zip items)
  | _ => none

/-- The value of a key, or its default where the key is missing. -/
def field? {α : Type} (entries : Entries) (name : String) (read : Toml → Option α)
    (default : α) : Option α :=
  match entries.lookup name with
  | some v => read v
  | none => some default

/-- The value of a key, if it is there. -/
def optional? {α : Type} (entries : Entries) (name : String) (read : Toml → Option α) :
    Option (Option α) :=
  match entries.lookup name with
  | some v => (read v).map some
  | none => some none

end Toml

open Toml

/-- The settings of a server. -/
def ServerConfig.ofToml? (v : Toml) : Option ServerConfig := do
  let d : ServerConfig := {}
  let e ← asPart? ["interface_name", "private_key", "listen_port", "server_address", "data_dir",
    "stop_timeout_secs"] 2 v
  return {
    interfaceName := ← field? e "interface_name" asText? d.interfaceName
    privateKey := ← optional? e "private_key" asText?
    listenPort := ← field? e "listen_port" asWord16? d.listenPort
    serverAddress := ← field? e "server_address" asText? d.serverAddress
    dataDir := ← field? e "data_dir" asText? d.dataDir
    stopTimeoutSecs := ← field? e "stop_timeout_secs" asWord64? d.stopTimeoutSecs }

/-- The settings of the address pool. -/
def PoolConfig.ofToml? (v : Toml) : Option PoolConfig := do
  let d : PoolConfig := {}
  let e ← asPart? ["cidr", "gateway", "strategy"] 0 v
  return {
    cidr := ← field? e "cidr" asText? d.cidr
    gateway := ← field? e "gateway" asText? d.gateway
    strategy := ← field? e "strategy" (asChoice? Strategy.ofName?) d.strategy }

/-- The settings of the engine. -/
def EngineConfig.ofToml? (v : Toml) : Option EngineConfig := do
  let d : EngineConfig := {}
  let e ← asPart? ["command", "args", "socket_dir", "startup_timeout_ms"] 0 v
  return {
    command := ← field? e "command" asText? d.command
    args := ← field? e "args" asTexts? d.args
    socketDir := ← field? e "socket_dir" asText? d.socketDir
    startupTimeoutMs := ← field? e "startup_timeout_ms" asWord64? d.startupTimeoutMs }

/-- The settings of a client. -/
def ClientConfig.ofToml? (v : Toml) : Option ClientConfig := do
  let d : ClientConfig := {}
  let e ← asPart? ["interface_name", "session_file", "keepalive_secs", "route_mode",
    "tunnel_network", "probe_timeout_secs", "tunnel_probe_timeout_secs",
    "handshake_grace_secs"] 0 v
  return {
    interfaceName := ← field? e "interface_name" asText? d.interfaceName
    sessionFile := ← optional? e "session_file" asText?
    keepaliveSecs := ← field? e "keepalive_secs" asWord16? d.keepaliveSecs
    routeMode := ← field? e "route_mode" (asChoice? RouteMode.ofName?) d.routeMode
    tunnelNetwork := ← field? e "tunnel_network" asText? d.tunnelNetwork
    probeTimeoutSecs := ← field? e "probe_timeout_secs" asWord64? d.probeTimeoutSecs
    tunnelProbeTimeoutSecs :=
      ← field? e "tunnel_probe_timeout_secs" asWord64? d.tunnelProbeTimeoutSecs
    handshakeGraceSecs := ← field? e "handshake_grace_secs" asWord64? d.handshakeGraceSecs }

namespace Config

/-- The configuration that the entries of a document give. -/
def ofEntries? (e : Entries) : Option Config := do
  let d : Config := {}
  return {
    role := ← field? e "role" (asChoice? Role.ofName?) d.role
    logLevel := ← field? e "log_level" asText? d.logLevel
    server := ← field? e "server" ServerConfig.ofToml? d.server
    pool := ← field? e "ipam" PoolConfig.ofToml? d.pool
    engine := ← field? e "engine" EngineConfig.ofToml? d.engine
    client := ← field? e "client" ClientConfig.ofToml? d.client }

/-- The configuration that a text holds. -/
def ofText? (s : String) : Option Config := (Toml.read s).bind ofEntries?

/-! ## Writing -/

/-- An entry that is left out when there is no value. -/
def optionalEntry (name : String) (v : Option String) : Entries :=
  (v.map fun s => (name, Toml.string s)).toList

/-- A number as a value. -/
def numberValue (n : Nat) : Toml := .integer n

/-- The configuration as the entries of a document. -/
def toEntries (c : Config) : Entries :=
  [("role", .string c.role.name), ("log_level", .string c.logLevel),
    ("server", .table .header
      ([("interface_name", .string c.server.interfaceName)] ++
        optionalEntry "private_key" c.server.privateKey ++
        [("listen_port", numberValue c.server.listenPort.toNat),
          ("server_address", .string c.server.serverAddress),
          ("data_dir", .string c.server.dataDir),
          ("stop_timeout_secs", numberValue c.server.stopTimeoutSecs.toNat)])),
    ("ipam", .table .header
      [("cidr", .string c.pool.cidr), ("gateway", .string c.pool.gateway),
        ("strategy", .string c.pool.strategy.name)]),
    ("engine", .table .header
      [("command", .string c.engine.command),
        ("args", .array (c.engine.args.map .string)),
        ("socket_dir", .string c.engine.socketDir),
        ("startup_timeout_ms", numberValue c.engine.startupTimeoutMs.toNat)]),
    ("client", .table .header
      ([("interface_name", .string c.client.interfaceName)] ++
        optionalEntry "session_file" c.client.sessionFile ++
        [("keepalive_secs", numberValue c.client.keepaliveSecs.toNat),
          ("route_mode", .string c.client.routeMode.name),
          ("tunnel_network", .string c.client.tunnelNetwork),
          ("probe_timeout_secs", numberValue c.client.probeTimeoutSecs.toNat),
          ("tunnel_probe_timeout_secs", numberValue c.client.tunnelProbeTimeoutSecs.toNat),
          ("handshake_grace_secs", numberValue c.client.handshakeGraceSecs.toNat)]))]

/-- Whether every number of a configuration can be written: a document's integers have 64 bits
with their sign. -/
def writable (c : Config) : Bool :=
  [c.server.stopTimeoutSecs, c.engine.startupTimeoutMs, c.client.probeTimeoutSecs,
    c.client.tunnelProbeTimeoutSecs, c.client.handshakeGraceSecs].all
    (·.toNat < Text.Decimal.signedBound)

/-- The configuration as text. -/
def text (c : Config) : String := Toml.text c.toEntries

end Config

end OverlayVpn
