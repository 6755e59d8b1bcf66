import OverlayVpn.Disk.OsError
import OverlayVpn.Text.Blank
import OverlayVpn.Text.Decimal
import OverlayVpn.Text.Utf8

set_option autoImplicit false

/-! # Running programs

How the system's programs are called, and what is made of the way they end. -/

namespace OverlayVpn

open Text

/-- How a program ended. -/
inductive ExitStatus where
  | code (n : Nat)
  | signal (n : Nat)
  deriving DecidableEq, Repr

/-- Whether a program ended well. -/
def ExitStatus.succeeded (s : ExitStatus) : Bool := s == .code 0

/-- The names of the signals that end programs. -/
def signalNames : List (Nat × String) :=
  [(1, "SIGHUP"), (2, "SIGINT"), (3, "SIGQUIT"), (6, "SIGABRT"), (9, "SIGKILL"), (13, "SIGPIPE"),
    (14, "SIGALRM"), (15, "SIGTERM")]

/-- How a program ended, as text. -/
def ExitStatus.text : ExitStatus → String
  | code n => "exit status: " ++ Decimal.render n
  | signal n =>
    "signal: " ++ Decimal.render n ++ ((signalNames.lookup n).map (" (" ++ · ++ ")")).getD ""

/-- What a program wrote, and how it ended. -/
structure ProgramOutput where
  stdout : List UInt8 := []
  stderr : List UInt8 := []
  status : ExitStatus := .code 0
  deriving DecidableEq, Repr

/-- A call of a program: its name and its arguments. -/
structure Command where
  program : String
  args : List String := []
  deriving DecidableEq, Repr

/-- The command as one line. -/
def Command.text (c : Command) : String := Text.join " " (c.program :: c.args)

/-- Why a command failed. -/
inductive CommandFault where
  /-- The program could not be started. -/
  | io (command : String) (error : OsError)
  /-- The program ended with an error. -/
  | failure (command stderr : String)
  deriving DecidableEq, Repr

namespace CommandFault

/-- What is said of a fault. -/
def message : CommandFault → String
  | io command error => s!"I/O error running `{command}`: {error.message}"
  | failure command stderr => s!"System command `{command}` failed: {stderr}"

/-- What a program that failed wrote as its error. -/
def stderr : CommandFault → String
  | io .. => ""
  | failure _ stderr => stderr

end CommandFault

/-- Means to run a program to its end on a state `σ`. With a limit in milliseconds the answer is
`none` when the program takes longer; it is stopped then. -/
abbrev Runner (σ : Type) :=
  Command → (limit : Option Nat) → σ → Except OsError (Option ProgramOutput) × σ

namespace Runner

variable {σ : Type}

/-- Runs a command and gives what it wrote, without the blanks around it. -/
def run (runner : Runner σ) (command : Command) (s : σ) : Except CommandFault String × σ :=
  match runner command none s with
  | (.error e, s) => (.error (.io command.text e), s)
  | (.ok output, s) =>
    let output := output.getD { status := .signal 9 }
    if output.status.succeeded then (.ok (trim (Utf8.readLossy output.stdout)), s)
    else (.error (.failure command.text (trim (Utf8.readLossy output.stderr))), s)

/-- Runs a command and tells whether it ended well; `none` when it took longer than the limit. -/
def succeeds (runner : Runner σ) (command : Command) (limit : Option Nat) (s : σ) :
    Except CommandFault (Option Bool) × σ :=
  match runner command limit s with
  | (.error e, s) => (.error (.io command.text e), s)
  | (.ok output, s) => (.ok (output.map (·.status.succeeded)), s)

end Runner

end OverlayVpn
