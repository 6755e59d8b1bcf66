import OverlayVpn.Pool.Allocator
import OverlayVpn.Registry
import OverlayVpn.Task
import OverlayVpn.Tunnel.Backend

set_option autoImplicit false

/-! # The control plane

The control plane owns a tunnel backend, the registry of peers and the allocator of addresses.
While it runs, clients register and are removed; a peer is first told to the backend and then
written down. Every call is a task, so that calls of several callers can meet; starting and
stopping exclude the others. -/

namespace OverlayVpn

/-- What a client needs to reach the server. -/
structure ServerContact where
  publicKey : String
  /-- A colon and the port; the caller knows the host. -/
  endpoint : String
  serverAddress : String
  deriving DecidableEq, Repr

/-- The server's description as a document. -/
def ServerContact.toJson (i : ServerContact) : Json :=
  .ofMembers [("publicKey", .string i.publicKey), ("endpoint", .string i.endpoint),
    ("serverAddress", .string i.serverAddress)]

/-- What a client is given when it registers. -/
structure Registration where
  assignedAddress : String
  registeredAt : Timestamp
  server : ServerContact
  deriving DecidableEq

/-- The registration as a document. -/
def Registration.toJson (r : Registration) : Json :=
  .ofMembers [("assignedAddress", .string r.assignedAddress),
    ("registeredAt", .string r.registeredAt.text), ("server", r.server.toJson)]

/-- What is wrong with a configuration or an argument. -/
inductive ControlReason where
  | noPrivateKey
  | emptyInterface
  | zeroPort
  | emptyAddress
  | privateKey (fault : Key.Fault)
  | clientAddress (address : String)
  deriving DecidableEq, Repr

/-- What is said of a reason. -/
def ControlReason.message : ControlReason → String
  | noPrivateKey => "server private key is not set"
  | emptyInterface => "interface name cannot be empty"
  | zeroPort => "listen port must be between 1 and 65535"
  | emptyAddress => "server address cannot be empty"
  | privateKey fault => "server private key: " ++ fault.message
  | clientAddress address => "client address " ++ Text.quoted address ++ " is not an IPv4 address"

/-- Why the control plane refuses. -/
inductive ControlFault where
  | invalidConfig (reason : ControlReason)
  | notRunning
  | alreadyRunning
  | invalidKey (fault : Key.Fault)
  | alreadyRegistered (key existing : String)
  | poolExhausted (fault : Pool.Fault)
  | backend (fault : BackendFault)
  | persistence (fault : Registry.Fault)
  deriving DecidableEq

/-- What is said of a fault. -/
def ControlFault.message : ControlFault → String
  | invalidConfig reason => "invalid configuration: " ++ reason.message
  | notRunning => "control plane is not running"
  | alreadyRunning => "control plane is already running"
  | invalidKey fault => "invalid public key: " ++ fault.message
  | alreadyRegistered key existing => s!"peer {key} is already registered with {existing}"
  | poolExhausted fault => fault.message
  | backend fault => "tunnel backend error: " ++ fault.message
  | persistence fault => "peer registry error: " ++ fault.message

/-- The settings of the server's interface. -/
def TunnelSettings.ofServer (server : ServerConfig) : Except ControlFault TunnelSettings :=
  match server.privateKey with
  | none => .error (.invalidConfig .noPrivateKey)
  | some privateKey => .ok
    { interfaceName := server.interfaceName
      privateKey
      listenPort := server.listenPort
      serverCidr := server.serverAddress }

/-- What the control plane knows while it runs. -/
structure ServerRun where
  config : TunnelSettings
  publicKey : String
  startedAt : Timestamp
  deriving DecidableEq

/-- The server as clients see it. -/
def ServerRun.contact (r : ServerRun) : ServerContact :=
  { publicKey := r.publicKey
    endpoint := ":" ++ Text.Decimal.render r.config.listenPort.toNat
    serverAddress := r.config.serverCidr }

/-- A control plane whose backend has the state `β`. -/
structure Plane (β : Type) where
  backend : β
  registry : Registry
  allocator : Allocator
  host : Host
  running : Option ServerRun := none

namespace Plane

variable {β : Type}

/-! ## Steps -/

/-- The public key of a configuration that makes sense. -/
def validate (config : TunnelSettings) : Except ControlReason String :=
  if Text.blank config.interfaceName then .error .emptyInterface
  else if config.listenPort = 0 then .error .zeroPort
  else if Text.blank config.serverCidr then .error .emptyAddress
  else match Key.read config.privateKey with
    | .error fault => .error (.privateKey fault)
    | .ok key => .ok key.publicKey.text

/-- A step on the backend. -/
def onBackend {α : Type} (f : β → α × β) : Task (Plane β) α :=
  .atomic fun p =>
    let (a, backend) := f p.backend
    (a, { p with backend })

/-- Tells the backend of a peer. -/
def allowPeer (b : Backend β) (key : String) (allowed : List String) :
    Task (Plane β) (Except BackendFault Unit) :=
  onBackend (b.allowPeer key allowed)

/-- Takes a peer from the backend. -/
def dropPeer (b : Backend β) (key : String) : Task (Plane β) (Except BackendFault Unit) :=
  onBackend (b.erasePeer key)

/-- The record of a key. -/
def lookUp (key : String) : Task (Plane β) (Option RegisteredPeer) :=
  .look (·.registry.peers.get? key)

/-- Writes a peer down. -/
def record (key address : String) : Task (Plane β) (Except Registry.Fault RegisteredPeer) :=
  .atomic fun p =>
    let (r, registry, host) := p.registry.add p.host key address
    (r, { p with registry, host })

/-- Strikes a peer out. -/
def strike (key : String) : Task (Plane β) (Except Registry.Fault (Option RegisteredPeer)) :=
  .atomic fun p =>
    let (r, registry, host) := p.registry.remove p.host key
    (r, { p with registry, host })

/-- Hands an address out. -/
def allocate (known : List String) : Task (Plane β) (Except Pool.Fault Network) :=
  .atomic fun p =>
    let (now, clock) := p.host.clock.read
    let (r, allocator) := p.allocator.allocate known now
    (r, { p with allocator, host := { p.host with clock } })

/-- Takes an address back. -/
def release (address : Ipv4) : Task (Plane β) Unit :=
  .change fun p => { p with allocator := (p.allocator.release address).2 }

/-- The present moment. -/
def readClock : Task (Plane β) Timestamp :=
  .atomic fun p =>
    let (now, clock) := p.host.clock.read
    (now, { p with host := { p.host with clock } })

/-! ## Starting and stopping -/

/-- The counts of peers that were restored and of peers that were passed over, with one more. -/
def tally (told : Except BackendFault Unit) (counts : Nat × Nat) : Nat × Nat :=
  match told with
  | .ok () => (counts.1 + 1, counts.2)
  | .error _ => (counts.1, counts.2 + 1)

/-- Tells the backend of every registered peer; one that it refuses is passed over. -/
def replay (b : Backend β) : List (String × RegisteredPeer) → Task (Plane β) (Nat × Nat)
  | [] => return (0, 0)
  | (key, record) :: rest => do
    let told ← allowPeer b key [record.allowedAddress]
    let counts ← replay b rest
    return tally told counts

/-- Starts the backend and restores every registered peer. -/
def start (b : Backend β) (config : TunnelSettings) :
    Task (Plane β) (Except ControlFault Unit) := do
  if (← Task.look (·.running)).isSome then return .error .alreadyRunning
  match validate config with
  | .error reason => return .error (.invalidConfig reason)
  | .ok publicKey =>
    match ← onBackend (b.start config) with
    | .error fault => return .error (.backend fault)
    | .ok () =>
      let peers ← Task.look (·.registry.peers.entries)
      let _ ← replay b peers
      let startedAt ← readClock
      Task.change fun p => { p with running := some { config, publicKey, startedAt } }
      return .ok ()

/-- Stops the backend; when that fails or takes longer than `deadline` milliseconds, the backend
is given up. The control plane is stopped in any case. -/
def stop (b : Backend β) (deadline : Nat) : Task (Plane β) Unit :=
  .change fun p =>
    if p.running.isNone then p
    else
      let p := { p with running := none }
      match b.stop (some deadline) p.backend with
      -- a failure and a limit that has passed come to the same
      | (some (.ok ()), backend) => { p with backend }
      | (_, backend) => { p with backend := b.abort backend }

/-! ## Clients -/

/-- Puts the backend's peer back to the one address that is written down. -/
def reinstate (b : Backend β) (key address : String) : Task (Plane β) Unit := do
  let _ ← dropPeer b key
  let _ ← allowPeer b key [address]

/-- Adds a client to a control plane that runs, with its address alone allowed. A failure to write
the client down costs it only the next start. -/
def addRunning (b : Backend β) (key address : String) :
    Task (Plane β) (Except ControlFault String) := do
  match Key.check key with
  | .error fault => return .error (.invalidKey fault)
  | .ok () =>
    match Ipv4.ofEntry? address with
    | none => return .error (.invalidConfig (.clientAddress address))
    | some host =>
      let allowed := (Network.host host).text
      let existing ← lookUp key
      match existing.filter (·.allowedAddress ≠ allowed) with
      | some existing => return .error (.alreadyRegistered key existing.allowedAddress)
      | none =>
        match ← allowPeer b key [allowed] with
        | .error fault => return .error (.backend fault)
        | .ok () =>
          match ← record key allowed with
          -- another caller registered the key while the backend was told of it
          | .error (.conflict _ existing) =>
            reinstate b key existing
            return .error (.alreadyRegistered key existing)
          | _ => return .ok allowed

/-- Adds a client with a given address. -/
def insertClient (b : Backend β) (key address : String) :
    Task (Plane β) (Except ControlFault String) := do
  if (← Task.look (·.running)).isNone then return .error .notRunning
  addRunning b key address

/-- Removes a client and takes its address back. -/
def eraseClient (b : Backend β) (key : String) : Task (Plane β) (Except ControlFault Unit) := do
  if (← Task.look (·.running)).isNone then return .error .notRunning
  match ← dropPeer b key with
  | .error fault => return .error (.backend fault)
  | .ok () =>
    let record ← lookUp key
    let _ ← strike key
    match record.bind fun r => Ipv4.ofEntry? r.allowedAddress with
    | some address => release address
    | none => pure ()
    return .ok ()

/-- Registers a client: one that is written down keeps its address, another is given one. -/
def register (b : Backend β) (key : String) :
    Task (Plane β) (Except ControlFault Registration) := do
  match ← Task.look (·.running) with
  | none => return .error .notRunning
  | some running =>
    match Key.check key with
    | .error fault => return .error (.invalidKey fault)
    | .ok () =>
      match ← lookUp key with
      | some existing =>
        match ← allowPeer b key [existing.allowedAddress] with
        | .error fault => return .error (.backend fault)
        | .ok () =>
          return .ok {
            assignedAddress := existing.allowedAddress
            registeredAt := existing.registeredAt
            server := running.contact }
      | none =>
        let known ← Task.look (·.registry.addresses)
        match ← allocate known with
        | .error fault => return .error (.poolExhausted fault)
        | .ok assigned =>
          match ← addRunning b key assigned.text with
          | .ok allowed =>
            let registeredAt ← match ← lookUp key with
              | some record => pure record.registeredAt
              | none => readClock
            return .ok { assignedAddress := allowed, registeredAt, server := running.contact }
          | .error fault =>
            release assigned.address
            return .error fault

/-- The server as clients see it. -/
def contact (p : Plane β) : Except ControlFault ServerContact :=
  match p.running with
  | some running => .ok running.contact
  | none => .error .notRunning

/-- The registered clients. -/
def clients (p : Plane β) : Except ControlFault (KeyMap RegisteredPeer) :=
  if p.running.isSome then .ok p.registry.peers else .error .notRunning

/-! ## Opening -/

/-- Why a control plane cannot be opened. -/
inductive OpenFault where
  | registry (fault : Registry.Fault)
  | pool (fault : Pool.Fault)
  deriving DecidableEq

/-- What is said of a fault. -/
def OpenFault.message : OpenFault → String
  | registry fault => fault.message
  | pool fault => fault.message

/-- A control plane over the registry at a path and a fresh backend. -/
def openAt (host : Host) (path : Path) (pool : PoolConfig) (backend : β) :
    Except OpenFault (Plane β) :=
  match Registry.openAt host.disk path with
  | (.error fault, _) => .error (.registry fault)
  | (.ok registry, disk) =>
    match Allocator.ofConfig pool with
    | .error fault => .error (.pool fault)
    | .ok allocator => .ok { backend, registry, allocator, host := { host with disk } }

/-- The control plane of a new process: its registry is read again, its allocator is fresh and so
is its backend. A registry that cannot be read leaves all as it was. -/
def restart (fresh : β → β) (p : Plane β) : Except Registry.Fault Unit × Plane β :=
  match Registry.openAt p.host.disk p.registry.path with
  | (.error fault, disk) => (.error fault, { p with host := { p.host with disk } })
  | (.ok registry, disk) =>
    (.ok (),
      { backend := fresh p.backend
        registry
        allocator := .create p.allocator.pool p.allocator.strategy
        host := { p.host with disk } })

end Plane

end OverlayVpn
