import OverlayVpn.Net.Socket
import OverlayVpn.System.Command

set_option autoImplicit false

/-! # Probing with `ping`

An address is reachable when one ping to it is answered. The `ping` program is told to wait for
the whole seconds of a timeout, one at least, and gets a second more than the timeout to end. -/

namespace OverlayVpn.Ping

variable {ω : Type}

/-- How much longer than a probe the program may take, in milliseconds. -/
def slack : Nat := 1000

/-- The command for a probe. -/
def command (target : IpAddress) (timeoutMs : Nat) : Command :=
  let seconds := max 1 (timeoutMs / 1000)
  { program := "ping", args := ["-c", "1", "-W", Text.Decimal.render seconds, target.text] }

/-- Whether an address answers in time. A program that cannot be run finds nothing. -/
def probe (run : Runner ω) (target : IpAddress) (timeoutMs : Nat) (w : ω) : Bool × ω :=
  match run.succeeds (command target timeoutMs) (some (timeoutMs + slack)) w with
  | (.ok (some answered), w) => (answered, w)
  | (_, w) => (false, w)

end OverlayVpn.Ping
