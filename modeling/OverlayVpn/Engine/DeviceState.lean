import OverlayVpn.Engine.Reply

set_option autoImplicit false

/-! # The state of an engine's device

An engine tells its device's state in lines `name=value`: the device's own lines first, then one
section a peer, each opened by the peer's public key. Lines with other names are passed over. -/

namespace OverlayVpn.Engine

open Text

/-- What an engine tells of one peer. -/
structure PeerState where
  /-- The public key, in hexadecimal. -/
  publicKey : String
  endpoint : Option String := none
  allowedIps : List String := []
  received : UInt64 := 0
  sent : UInt64 := 0
  /-- The time of the last handshake in seconds since 1970; 0 when there was none. -/
  handshakeSeconds : Int := 0
  handshakeNanos : UInt32 := 0
  deriving DecidableEq, Repr

/-- What an engine tells of its device. -/
structure DeviceState where
  listenPort : Option UInt16 := none
  peers : List PeerState := []
  deriving DecidableEq, Repr

/-- A number, or the line as a fault. -/
def numberOf {α : Type} (name value : String) (read : String → Option α) :
    Except ReplyFault α :=
  match read value with
  | some n => .ok n
  | none => .error (.malformed (name ++ "=" ++ value))

/-- The peer after a line of its section. -/
def PeerState.set (peer : PeerState) (name value : String) : Except ReplyFault PeerState :=
  match name with
  | "endpoint" => .ok { peer with endpoint := some value }
  | "allowed_ip" => .ok { peer with allowedIps := peer.allowedIps ++ [value] }
  | "rx_bytes" => (numberOf name value Decimal.word64?).map ({ peer with received := · })
  | "tx_bytes" => (numberOf name value Decimal.word64?).map ({ peer with sent := · })
  | "last_handshake_time_sec" =>
    (numberOf name value Decimal.signed64?).map ({ peer with handshakeSeconds := · })
  | "last_handshake_time_nsec" =>
    (numberOf name value Decimal.word32?).map ({ peer with handshakeNanos := · })
  | _ => .ok peer

/-- The state after a line `name=value`. -/
def DeviceState.set (state : DeviceState) (name value : String) : Except ReplyFault DeviceState :=
  if name = "public_key" then .ok { state with peers := state.peers ++ [{ publicKey := value }] }
  else match state.peers.getLast? with
    | some peer =>
      (peer.set name value).map fun peer => { state with peers := state.peers.dropLast ++ [peer] }
    | none =>
      if name = "listen_port" then
        (numberOf name value Decimal.word16?).map fun port => { state with listenPort := some port }
      else .ok state

/-- The state after a line; blank lines say nothing. -/
def DeviceState.add (state : DeviceState) (line : String) : Except ReplyFault DeviceState :=
  let line := trim line
  if line.isEmpty then .ok state
  else match cut '=' line with
    | none => .error (.malformed line)
    | some (name, value) => state.set name value

/-- The state that lines tell. -/
def DeviceState.ofLines (lines : List String) : Except ReplyFault DeviceState :=
  lines.foldlM DeviceState.add {}

end OverlayVpn.Engine
