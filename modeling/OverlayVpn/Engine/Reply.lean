import OverlayVpn.Text.Blank
import OverlayVpn.Text.Decimal
import OverlayVpn.Text.Quoted

set_option autoImplicit false

/-! # Replies of an engine

Every reply ends with a line `errno=n`; zero means that the request was carried out. -/

namespace OverlayVpn.Engine

open Text

/-- What is wrong with a reply. -/
inductive ReplyFault where
  /-- The engine refused the request. -/
  | errno (code : Int)
  /-- The reply does not follow the protocol. -/
  | malformed (text : String)
  deriving DecidableEq, Repr

/-- What is said of a fault. -/
def ReplyFault.message : ReplyFault → String
  | .errno code => "engine rejected the request with errno=" ++ Decimal.renderInt code
  | .malformed text => "malformed engine reply: " ++ text

/-- The outcome that a reply's last line tells; `none` for any other line. -/
def trailer? (line : String) : Option (Except ReplyFault Unit) :=
  (after? "errno=".toList (trimmed line.toList)).map fun value =>
    match Decimal.integer? Decimal.signedBound value with
    | some 0 => .ok ()
    | some code => .error (.errno code)
    | none => .error (.malformed ("bad errno value " ++ quoted (String.ofList value)))

end OverlayVpn.Engine
