import OverlayVpn.Engine.Reply
import OverlayVpn.System.Command

set_option autoImplicit false

/-! # Engines and their devices

An engine makes one device for an interface; the device takes requests as text and owns the
interface while it lives. All acts on a world `ω`, which holds what the engine is made of. -/

namespace OverlayVpn

/-- What goes wrong with an engine. -/
inductive EngineFault where
  | io (error : OsError)
  | command (fault : CommandFault)
  | reply (fault : Engine.ReplyFault)
  | startup (reason : String)
  deriving DecidableEq, Repr

/-- What is said of a fault. -/
def EngineFault.message : EngineFault → String
  | io error => "I/O error: " ++ error.message
  | command fault => fault.message
  | reply fault => fault.message
  | startup reason => "engine failed to start: " ++ reason

/-- How the closing of a device ends. -/
inductive Closing where
  | closed
  | failed (fault : EngineFault)
  /-- The engine broke down while it closed. -/
  | brokeDown
  /-- The time for it ran out. -/
  | cutOff
  deriving DecidableEq, Repr

/-- An engine with devices `δ` in a world `ω`. -/
structure Engine (ω δ : Type) where
  /-- Makes the device of an interface. -/
  create : (interface : String) → ω → Except EngineFault δ × ω
  /-- Applies the body of a request. -/
  set : δ → (body : String) → ω → Except EngineFault Unit × ω
  /-- Asks for the device's state, line by line. -/
  get : δ → ω → Except EngineFault (List String) × ω
  /-- Gives the interface its address and sets it up. -/
  activate : δ → (address : String) → ω → Except EngineFault Unit × ω
  /-- Shuts the device down, within a limit of milliseconds if there is one. -/
  close : δ → (limit : Option Nat) → ω → Closing × ω
  /-- Deletes the interface if it is still there. -/
  deleteLink : δ → ω → Except EngineFault Unit × ω
  /-- Gives the device up without asking it. -/
  discard : δ → ω → ω

end OverlayVpn
