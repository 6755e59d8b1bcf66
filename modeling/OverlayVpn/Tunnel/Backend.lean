import OverlayVpn.Engine.Device
import OverlayVpn.Json.Basic
import OverlayVpn.Key
import OverlayVpn.Net.Socket
import OverlayVpn.Time.Rfc3339

set_option autoImplicit false

/-! # Tunnel backends

A backend carries a tunnel: it is started with the settings of an interface, told of peers, and
stopped. The control plane and the client's session use any backend through these operations. -/

namespace OverlayVpn

/-- Which key of a request is meant. -/
inductive KeyRole where
  | privateKey
  | peerPublicKey
  deriving DecidableEq, Repr

/-- The name of a key's role. -/
def KeyRole.text : KeyRole → String
  | privateKey => "private key"
  | peerPublicKey => "peer public key"

/-- Why a backend refuses. -/
inductive BackendFault where
  | alreadyRunning
  | notRunning
  | invalidKey (role : KeyRole) (fault : Key.Fault)
  | deviceMissing
  | engine (fault : EngineFault)
  deriving DecidableEq, Repr

/-- What is said of a fault. -/
def BackendFault.message : BackendFault → String
  | alreadyRunning => "backend is already running"
  | notRunning => "backend is not running"
  | invalidKey role fault => s!"invalid {role.text}: {fault.message}"
  | deviceMissing => "engine device handle is missing"
  | engine fault => fault.message

/-- The settings of an interface. -/
structure TunnelSettings where
  interfaceName : String
  /-- The private key in base64. -/
  privateKey : String
  /-- The port to listen on; 0 lets the engine choose. -/
  listenPort : UInt16
  /-- The interface's address with its network's length. -/
  serverCidr : String
  deriving DecidableEq, Repr

/-- What is shown of the settings; the private key is not. -/
def TunnelSettings.shown (c : TunnelSettings) : String :=
  "BackendConfig \x7b interface_name: " ++ Text.quoted c.interfaceName ++
    ", private_key: \"[REDACTED]\", listen_port: " ++ Text.Decimal.render c.listenPort.toNat ++
    ", server_cidr: " ++ Text.quoted c.serverCidr ++ " \x7d"

/-- A peer as it is to be configured. -/
structure TunnelPeer where
  /-- The public key in base64. -/
  publicKey : String
  allowedAddresses : List String
  endpoint : Option Socket := none
  /-- The interval of keepalives in seconds. -/
  keepalive : Option UInt16 := none
  deriving DecidableEq

/-- What passed through a tunnel, over all its peers. -/
structure Transfer where
  received : UInt64 := 0
  sent : UInt64 := 0
  lastHandshake : Option Timestamp := none
  deriving DecidableEq

/-- What is said when counts are too large together for 64 bits, and the program breaks off. -/
def Transfer.overflowMessage : String := "attempt to add with overflow"

/-- The counts as a document. -/
def Transfer.toJson (s : Transfer) : Json :=
  .ofMembers [("rx_bytes", .number (Text.Decimal.digits s.received.toNat)),
    ("tx_bytes", .number (Text.Decimal.digits s.sent.toNat)),
    ("last_handshake", match s.lastHandshake with
      | some t => .string t.text
      | none => .null)]

/-- A tunnel backend whose state is a `β`. -/
structure Backend (β : Type) where
  start : TunnelSettings → β → Except BackendFault Unit × β
  /-- Stops the tunnel; `none` when it takes longer than the limit in milliseconds. -/
  stop : (limit : Option Nat) → β → Option (Except BackendFault Unit) × β
  insertPeer : TunnelPeer → β → Except BackendFault Unit × β
  erasePeer : String → β → Except BackendFault Unit × β
  knownPeers : β → List TunnelPeer
  isRunning : β → Bool
  /-- What passed through the tunnel; `none` when the counts of the peers do not fit in 64 bits
  together, so that the call breaks off without a reply. -/
  transferred : β → Option (Except BackendFault Transfer) × β
  /-- Gives everything up without waiting for the engine. -/
  abort : β → β

/-- Adds a peer with allowed addresses alone. -/
def Backend.allowPeer {β : Type} (b : Backend β) (key : String) (allowed : List String) (s : β) :
    Except BackendFault Unit × β :=
  b.insertPeer { publicKey := key, allowedAddresses := allowed } s

end OverlayVpn
