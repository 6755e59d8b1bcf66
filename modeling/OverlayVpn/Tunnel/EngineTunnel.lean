import OverlayVpn.Engine.DeviceState
import OverlayVpn.Engine.Request
import OverlayVpn.Store.KeyMap
import OverlayVpn.Tunnel.Backend

set_option autoImplicit false

/-! # The backend that drives an engine

The backend holds at most one device. It keeps the configuration and the peers that the device
has accepted; a device that cannot be configured is torn down at once, and whatever goes wrong
while a device closes, its interface is removed afterwards. -/

namespace OverlayVpn

open Engine

/-- The state of a backend with a device `δ`. -/
structure EngineTunnel (δ : Type) where
  device : Option δ := none
  config : Option TunnelSettings := none
  /-- The peers that were accepted, by their keys as they were given. -/
  peers : KeyMap TunnelPeer := ∅
  running : Bool := false

namespace EngineTunnel

variable {ω δ : Type}

/-- The name of the interface that is up. -/
def interfaceName (s : EngineTunnel δ) : Option String := s.config.map (·.interfaceName)

/-- Closes a device and removes its interface; `none` when the limit cuts the closing off. -/
def dismantle (e : Engine ω δ) (device : δ) (limit : Option Nat) (w : ω) : Option Unit × ω :=
  match e.close device limit w with
  | (.cutOff, w) => (none, e.discard device w)
  | (_, w) => (some (), e.discard device (e.deleteLink device w).2)

/-- Configures a fresh device and sets its interface up. -/
def configure (e : Engine ω δ) (device : δ) (key : Key) (config : TunnelSettings) (w : ω) :
    Except EngineFault Unit × ω :=
  match e.set device (body [.privateKey key, .listenPort config.listenPort]) w with
  | (.ok (), w) => e.activate device config.serverCidr w
  | failed => failed

/-- Starts the tunnel. The key is looked at before any device is made. -/
def start (e : Engine ω δ) (config : TunnelSettings) (s : EngineTunnel δ × ω) :
    Except BackendFault Unit × EngineTunnel δ × ω :=
  let (b, w) := s
  if b.device.isSome then (.error .alreadyRunning, b, w)
  else match Key.read config.privateKey with
    | .error fault => (.error (.invalidKey .privateKey fault), b, w)
    | .ok key =>
      match e.create config.interfaceName w with
      | (.error fault, w) => (.error (.engine fault), b, w)
      | (.ok device, w) =>
        match configure e device key config w with
        | (.error fault, w) => (.error (.engine fault), b, (dismantle e device none w).2)
        | (.ok (), w) =>
          (.ok (), { device := some device, config := some config, running := true }, w)

/-- Stops the tunnel. A tunnel that is stopped stays so. -/
def stop (e : Engine ω δ) (limit : Option Nat) (s : EngineTunnel δ × ω) :
    Option (Except BackendFault Unit) × EngineTunnel δ × ω :=
  let (b, w) := s
  match b.device with
  | none => (some (.ok ()), b, w)
  | some device =>
    let (ended, w) := dismantle e device limit w
    (ended.map .ok, {}, w)

/-- Sends a body to the device of a tunnel that runs. -/
def send (e : Engine ω δ) (body : String) (s : EngineTunnel δ × ω) :
    Except BackendFault Unit × EngineTunnel δ × ω :=
  let (b, w) := s
  if b.running then
    match b.device with
    | none => (.error .deviceMissing, b, w)
    | some device =>
      let (r, w) := e.set device body w
      (r.mapError .engine, b, w)
  else (.error .notRunning, b, w)

/-- The settings of a peer. -/
def peerSettings (key : Key) (peer : TunnelPeer) : List Setting :=
  [.publicKey key] ++ (peer.endpoint.map Setting.endpoint).toList ++
    (peer.keepalive.map Setting.keepalive).toList ++ peer.allowedAddresses.map .allowedIp

/-- Configures a peer, and remembers it once the device has accepted it. -/
def insertPeer (e : Engine ω δ) (peer : TunnelPeer) (s : EngineTunnel δ × ω) :
    Except BackendFault Unit × EngineTunnel δ × ω :=
  match Key.read peer.publicKey with
  | .error fault => (.error (.invalidKey .peerPublicKey fault), s)
  | .ok key =>
    match send e (body (peerSettings key peer)) s with
    | (.ok (), b, w) => (.ok (), { b with peers := b.peers.insert peer.publicKey peer }, w)
    | failed => failed

/-- Removes a peer from the device, and forgets it. -/
def erasePeer (e : Engine ω δ) (publicKey : String) (s : EngineTunnel δ × ω) :
    Except BackendFault Unit × EngineTunnel δ × ω :=
  match Key.read publicKey with
  | .error fault => (.error (.invalidKey .peerPublicKey fault), s)
  | .ok key =>
    match send e (body [.publicKey key, .remove]) s with
    | (.ok (), b, w) => (.ok (), { b with peers := b.peers.erase publicKey }, w)
    | failed => failed

/-- The time of a peer's last handshake, if it had one and the time can be told. -/
def handshake (peer : PeerState) : Option Timestamp :=
  if 0 < peer.handshakeSeconds then
    Timestamp.ofUnix? peer.handshakeSeconds peer.handshakeNanos.toNat
  else none

/-- The later of two times, where there are any. -/
def latest : Option Timestamp → Option Timestamp → Option Timestamp
  | some a, some b => some (a.later b)
  | some a, none => some a
  | none, b => b

/-- The sum of two counts, if it fits in 64 bits. -/
def add? (a b : UInt64) : Option UInt64 :=
  if a.toNat + b.toNat < UInt64.size then some (a + b) else none

/-- The counts with those of one more peer, as long as they fit. -/
def count (stats : Transfer) (peer : PeerState) : Option Transfer := do
  let received ← add? stats.received peer.received
  let sent ← add? stats.sent peer.sent
  return { received, sent, lastHandshake := latest stats.lastHandshake (handshake peer) }

/-- What passed through the tunnel, summed over the peers that the device tells of; `none` when a
sum does not fit. -/
def statsOf (state : DeviceState) : Option Transfer := state.peers.foldlM count {}

/-- Asks the device what passed through the tunnel. A sum that does not fit breaks the call off, and
leaves the tunnel as it is. -/
def transferred (e : Engine ω δ) (s : EngineTunnel δ × ω) :
    Option (Except BackendFault Transfer) × EngineTunnel δ × ω :=
  let (b, w) := s
  if b.running then
    match b.device with
    | none => (some (.error .deviceMissing), b, w)
    | some device =>
      match e.get device w with
      | (.error fault, w) => (some (.error (.engine fault)), b, w)
      | (.ok lines, w) =>
        match DeviceState.ofLines lines with
        | .error fault => (some (.error (.engine (.reply fault))), b, w)
        | .ok state => ((statsOf state).map .ok, b, w)
  else (some (.error .notRunning), b, w)

/-- Gives the device up without asking it. -/
def abort (e : Engine ω δ) (s : EngineTunnel δ × ω) : EngineTunnel δ × ω :=
  match s.1.device with
  | some device => ({}, e.discard device s.2)
  | none => ({}, s.2)

/-- The backend of an engine. -/
def backend (e : Engine ω δ) : Backend (EngineTunnel δ × ω) where
  start := start e
  stop := stop e
  insertPeer := insertPeer e
  erasePeer := erasePeer e
  knownPeers s := s.1.peers.values
  isRunning s := s.1.running
  transferred := transferred e
  abort := abort e

end EngineTunnel

end OverlayVpn
