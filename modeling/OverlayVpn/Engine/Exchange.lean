import OverlayVpn.Engine.Device

set_option autoImplicit false

/-! # What an engine's reply says

A reply is read line by line up to the line that tells its outcome; what follows that line does
not matter. Blank lines and blanks at the end of lines are dropped. -/

namespace OverlayVpn.Engine

open Text

/-- The lines of a byte string, each with its line feed. -/
def byteLines : List UInt8 → List (List UInt8)
  | [] => []
  | b :: rest =>
    match b == 10, byteLines rest with
    | false, line :: lines => (b :: line) :: lines
    | _, lines => [b] :: lines

/-- The lines in front of the one that tells the outcome, if that is a success. -/
def collect : List (List UInt8) → Except EngineFault (List String)
  | [] => .error (.reply (.malformed "connection closed before errno"))
  | line :: rest =>
    match Utf8.read line with
    | .error fault => .error (.io (.faultyText fault.message))
    | .ok text =>
      match trailer? text with
      | some (.ok ()) => .ok []
      | some (.error fault) => .error (.reply fault)
      | none =>
        let kept := trimEnd text
        if kept.isEmpty then collect rest else (collect rest).map (kept :: ·)

/-- The lines of a reply. -/
def readReply (bytes : List UInt8) : Except EngineFault (List String) := collect (byteLines bytes)

end OverlayVpn.Engine
