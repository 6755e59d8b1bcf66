import OverlayVpn.Key
import OverlayVpn.Net.Socket

set_option autoImplicit false

/-! # Requests to an engine

An engine is spoken to in lines `name=value`. A request to change its configuration is the line
`set=1`, a body of settings and a blank line; a request for its state is `get=1` and a blank line.
Settings of a peer apply to the last public key above them. -/

namespace OverlayVpn.Engine

open Text

/-- One line of a request's body. -/
inductive Setting where
  | privateKey (key : Key)
  | listenPort (port : UInt16)
  | publicKey (key : Key)
  | endpoint (address : Socket)
  | allowedIp (cidr : String)
  | keepalive (seconds : UInt16)
  | remove

/-- The name of a setting. -/
def Setting.name : Setting → String
  | .privateKey _ => "private_key"
  | .listenPort _ => "listen_port"
  | .publicKey _ => "public_key"
  | .endpoint _ => "endpoint"
  | .allowedIp _ => "allowed_ip"
  | .keepalive _ => "persistent_keepalive_interval"
  | .remove => "remove"

/-- The value of a setting. -/
def Setting.value : Setting → String
  | .privateKey key => key.hex
  | .listenPort port => Decimal.render port.toNat
  | .publicKey key => key.hex
  | .endpoint address => address.text
  | .allowedIp cidr => cidr
  | .keepalive seconds => Decimal.render seconds.toNat
  | .remove => "true"

/-- The line of a setting. -/
def Setting.line (s : Setting) : String := s.name ++ "=" ++ s.value ++ "\n"

/-- The body of a request. -/
def body (settings : List Setting) : String := Text.join "" (settings.map Setting.line)

/-- The request to apply a body. -/
def setRequest (body : String) : String := "set=1\n" ++ body ++ "\n"

/-- The request for the engine's state. -/
def getRequest : String := "get=1\n\n"

end OverlayVpn.Engine
