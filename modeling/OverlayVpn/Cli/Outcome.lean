import OverlayVpn.Client.Session
import OverlayVpn.Config.Load
import OverlayVpn.Control.Plane

set_option autoImplicit false

/-! # How a run of a program ends

A run prints lines and then succeeds, fails, finds that it was called wrongly or breaks off. A
failure has a message and the chain of its causes. -/

namespace OverlayVpn

/-! ## Causes -/

/-- What lies below a command's fault. -/
def CommandFault.causes : CommandFault → List String
  | io _ error => [error.message]
  | failure .. => []

/-- What lies below an engine's fault. -/
def EngineFault.causes : EngineFault → List String
  | io error => [error.message]
  | command fault => fault.causes
  | reply _ | startup _ => []

/-- What lies below a backend's fault. -/
def BackendFault.causes : BackendFault → List String
  | invalidKey _ fault => [fault.message]
  | engine fault => fault.causes
  | alreadyRunning | notRunning | deviceMissing => []

/-- What lies below a fault of the routing table. -/
def RoutingFault.causes : RoutingFault → List String
  | command fault => fault.causes
  | defaultRoute _ => []

/-- What lies below a session's fault. -/
def SessionFault.causes : SessionFault → List String
  | backend fault => fault.message :: fault.causes
  | routing fault => fault.message :: fault.causes
  | alreadyConnected | notConnected | invalidConfig _ | handshakeIncomplete _
  | serverUnreachable _ => []

/-- What lies below a fault of the registry. -/
def Registry.Fault.causes : Registry.Fault → List String
  | .io _ error => [error.message]
  | .corrupt .. | .notFound _ | .conflict .. => []

/-- What lies below a fault of the control plane. -/
def ControlFault.causes : ControlFault → List String
  | invalidKey fault => [fault.message]
  | backend fault => fault.message :: fault.causes
  | persistence fault => fault.message :: fault.causes
  | invalidConfig _ | notRunning | alreadyRunning | alreadyRegistered .. | poolExhausted _ => []

/-- What lies below a fault of the profile. -/
def Profile.Fault.causes : Profile.Fault → List String
  | .io _ error => [error.message]
  | .unreadable .. => []

/-- What lies below a fault of the configuration. -/
def ConfigFault.causes : ConfigFault → List String
  | io error => [error.message]
  | unreadable | unwritable | missing _ | invalid .. | notFound _ => []

/-! ## Failures -/

/-- A failure of a program. -/
structure Failure where
  message : String
  /-- What caused it, and what caused that, and so on. -/
  causes : List String := []
  deriving DecidableEq, Repr

namespace Failure

open Text

/-- A text whose further lines are moved in. -/
def indented (margin s : String) : String := join ("\n" ++ margin) (splitOn '\n' s)

/-- Causes under their numbers. -/
def numbered : Nat → List String → List String
  | _, [] => []
  | n, cause :: rest =>
    let number := Decimal.render n
    let room := String.ofList (List.replicate (5 - number.length) ' ')
    (room ++ number ++ ": " ++ indented "       " cause) :: numbered (n + 1) rest

/-- The lines that tell the causes; a single one has no number. -/
def causeLines : List String → List String
  | [] => []
  | [cause] => ["", "Caused by:", "    " ++ indented "    " cause]
  | causes => ["", "Caused by:"] ++ numbered 0 causes

/-- What is said of a failure. -/
def lines (f : Failure) : List String := ("Error: " ++ f.message) :: causeLines f.causes

end Failure

/-- How a run ends. -/
inductive Ending where
  | done
  | failed (failure : Failure)
  /-- The program was called wrongly. -/
  | misused (usage : String)
  /-- The program broke off in the middle of a computation. -/
  | brokenOff (message : String)
  deriving DecidableEq, Repr

/-- What a run prints and how it ends. -/
structure Outcome where
  printed : List String := []
  ending : Ending := .done
  deriving DecidableEq, Repr

namespace Outcome

/-- The outcome of a run that fails before it prints anything. -/
def failure (message : String) (causes : List String := []) : Outcome :=
  { ending := .failed { message, causes } }

/-- The exit code. -/
def code (o : Outcome) : Nat :=
  match o.ending with
  | .done => 0
  | .failed _ => 1
  | .misused _ => 2
  | .brokenOff _ => 101

/-- Lines as text. -/
def unlines (lines : List String) : String := Text.join "" (lines.map (· ++ "\n"))

/-- What goes to the standard output. -/
def stdout (o : Outcome) : String := unlines o.printed

/-- What goes to the standard error. -/
def stderr (o : Outcome) : String :=
  match o.ending with
  | .done => ""
  | .failed failure => unlines failure.lines
  | .misused usage => unlines ["error: the arguments make no sense", "", usage]
  | .brokenOff message => unlines [message]

end Outcome

end OverlayVpn
