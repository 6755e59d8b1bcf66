import OverlayVpn.Config.Basic
import OverlayVpn.Net.Ipv4
import OverlayVpn.Text.Quoted

set_option autoImplicit false

/-! # Settings of a session

What a session takes from the client's configuration, with the tunnel's network read. -/

namespace OverlayVpn

/-- What a session is told by the configuration. Times are in seconds. -/
structure SessionPlan where
  interfaceName : String
  keepalive : UInt16
  routeMode : RouteMode
  /-- The tunnel's network, without host bits. -/
  tunnelNetwork : Network
  probeTimeout : Nat
  tunnelProbeTimeout : Nat
  handshakeGrace : Nat
  deriving DecidableEq

namespace SessionPlan

/-- The network that is configured makes no sense. -/
structure Fault where
  network : String
  deriving DecidableEq, Repr

/-- What is said of a fault. -/
def Fault.message (fault : Fault) : String :=
  "tunnel network " ++ Text.quoted fault.network ++ ": " ++ Network.badText

/-- The settings that a configuration gives. -/
def ofConfig (config : ClientConfig) : Except Fault SessionPlan :=
  match Network.read? config.tunnelNetwork with
  | none => .error ⟨config.tunnelNetwork⟩
  | some network => .ok
    { interfaceName := config.interfaceName
      keepalive := config.keepaliveSecs
      routeMode := config.routeMode
      tunnelNetwork := network.truncate
      probeTimeout := config.probeTimeoutSecs.toNat
      tunnelProbeTimeout := config.tunnelProbeTimeoutSecs.toNat
      handshakeGrace := config.handshakeGraceSecs.toNat }

end SessionPlan

end OverlayVpn
