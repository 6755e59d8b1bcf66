import OverlayVpn.Rehearsal.Shell
import OverlayVpn.System.Process

set_option autoImplicit false

/-! # Rehearsals on a machine

A machine stands in for a whole system. It has a file system, the four programs of the shell,
programs that give prepared answers, and at most one engine that plays a part. It keeps account of
every call. A process that was launched begins its work when its launcher sleeps for the first
time. -/

namespace OverlayVpn

/-- A prepared answer of a program. -/
inductive ProgramReply where
  | output (output : ProgramOutput)
  /-- The program does not end. -/
  | hangs

/-- A program with prepared answers for one call after the other. -/
structure PreparedProgram where
  name : String
  /-- The answers to come; when there are no more the program says nothing and ends well. -/
  replies : List ProgramReply := []
  /-- The arguments of the calls that were answered, the latest first. -/
  calls : List (List String) := []

/-- What an engine does once it is launched. -/
inductive EngineConduct where
  /-- It opens its socket and answers. -/
  | serves
  /-- It ends without opening its socket. -/
  | exits (code : Nat)
  /-- It neither ends nor opens its socket. -/
  | isSilent
  deriving DecidableEq, Repr

/-- An engine that plays a part. -/
structure EngineRole where
  command : String
  conduct : EngineConduct
  /-- Where its sockets are opened. -/
  socketDir : Path
  /-- What its connections are answered, in order; nothing for `none` and at the end. -/
  replies : List (Option (List UInt8)) := []
  /-- Whether it goes on when it is asked to end. -/
  isStubborn : Bool := false

/-- What an engine saw. -/
inductive EngineEvent where
  | launched (args : List String)
  | asked (request : String)
  deriving DecidableEq, Repr

/-- Where a process stands. -/
inductive ProcessState where
  | begins
  | works
  | ended (status : ExitStatus)
  deriving DecidableEq, Repr

/-- A process. -/
structure MachineProcess where
  id : ProcessId
  args : List String
  state : ProcessState := .begins
  /-- How it ends by itself; `none` for an engine that goes on. -/
  ending : Option ExitStatus := none
  /-- Whether it is the engine that plays a part. -/
  isEngine : Bool := false
  /-- How many connections it has had. -/
  served : Nat := 0

/-- A machine. -/
structure Machine where
  host : Host
  prepared : List PreparedProgram := []
  engine : Option EngineRole := none
  processes : List MachineProcess := []
  /-- What the engine saw, the latest first. -/
  events : List EngineEvent := []
  /-- How much time has passed, in milliseconds. -/
  elapsedMs : Nat := 0

namespace Machine

/-! ## Programs -/

/-- What starting a program by a path comes to: there is no file that may be run. -/
def pathFault (m : Machine) (program : String) : OsError :=
  match m.host.disk.find (.ofText program) with
  | .ok _ => .denied
  | .error e => e

/-- Why a command cannot name a program, whatever there is on the machine. -/
def nameFault? (m : Machine) (c : Command) : Option OsError :=
  if (c.program :: c.args).any (·.toList.contains '\x00') then some .nulByte
  else if c.program.toList.contains '/' then some (m.pathFault c.program)
  else if c.program = "." || c.program = ".." then some .denied
  else none

/-- The machine with another state of a prepared program. -/
def withPrepared (m : Machine) (p : PreparedProgram) : Machine :=
  { m with prepared := m.prepared.map fun q => if q.name == p.name then p else q }

/-- A call of a prepared program. -/
def call (m : Machine) (p : PreparedProgram) (args : List String) :
    Option ProgramOutput × Machine :=
  match p.replies with
  | .hangs :: rest => (none, m.withPrepared { p with replies := rest })
  | .output output :: rest =>
    (some output, m.withPrepared { p with replies := rest, calls := args :: p.calls })
  | [] => (some {}, m.withPrepared { p with calls := args :: p.calls })

/-- Runs a program to its end. -/
def run : Runner Machine := fun c limit m =>
  match m.nameFault? c with
  | some e => (.error e, m)
  | none =>
    match m.prepared.find? (·.name == c.program) with
    | some p =>
      let (output, m) := m.call p c.args
      let waited := if output.isNone then limit.getD 0 else 0
      (.ok output, { m with elapsedMs := m.elapsedMs + waited })
    | none =>
      match Shell.program? c with
      | some output => (.ok (some output), m)
      | none => (.error .noEntry, m)

/-- The arguments of the calls of a prepared program, in order. -/
def callsOf (m : Machine) (name : String) : List (List String) :=
  ((m.prepared.find? (·.name == name)).map (·.calls.reverse)).getD []

/-! ## Processes -/

/-- The machine with another state of a process. -/
def withProcess (m : Machine) (p : MachineProcess) : Machine :=
  { m with processes := m.processes.map fun q => if q.id = p.id then p else q }

/-- A process. -/
def process? (m : Machine) (id : ProcessId) : Option MachineProcess :=
  m.processes.find? (·.id == id)

/-- The socket of an engine that was launched with the given arguments. -/
def engineSocket (role : EngineRole) (args : List String) : Path :=
  role.socketDir.append (.ofText (args.getLastD "" ++ ".sock"))

/-- The machine with one more process. -/
def spawn (m : Machine) (args : List String) (ending : Option ExitStatus) (isEngine : Bool) :
    ProcessId × Machine :=
  let id := m.processes.length + 1
  (id, { m with processes := { id, args, ending, isEngine } :: m.processes })

/-- Launches a program. One that is no engine runs to its end. -/
def launch (c : Command) (m : Machine) : Except OsError ProcessId × Machine :=
  let role := m.engine.filter (·.command == c.program)
  match m.nameFault? c, role with
  | some e, _ => (.error e, m)
  | none, some role =>
    let ending := match role.conduct with
      | .exits code => some (ExitStatus.code code)
      | _ => none
    let (id, m) := m.spawn c.args ending true
    (.ok id, m)
  | none, none =>
    match run c none m with
    | (.error e, m) => (.error e, m)
    | (.ok output, m) =>
      let (id, m) := m.spawn c.args (output.map (·.status)) false
      (.ok id, m)

/-- The machine after a process has begun its work: an engine that serves opens its socket, and a
process that ends by itself does so. -/
def beginWork (m : Machine) (p : MachineProcess) : Machine :=
  let state := match p.ending with
    | some status => ProcessState.ended status
    | none => .works
  let m := m.withProcess { p with state }
  match m.engine, p.isEngine with
  | some role, true =>
    let noted := { m with events := .launched p.args :: m.events }
    match role.conduct with
    | .serves =>
      match m.host.disk.write (engineSocket role p.args) [] with
      | .ok disk => { noted with host := { m.host with disk } }
      -- an engine that cannot open its socket gives up
      | .error _ => noted.withProcess { p with state := .ended (.code 1) }
    | .exits _ => noted
    | .isSilent => m
  | _, _ => m

/-- Lets time pass; every process that was just launched begins its work. -/
def sleep (ms : Nat) (m : Machine) : Machine :=
  let m := { m with elapsedMs := m.elapsedMs + ms }
  (m.processes.filter (·.state == .begins)).foldl beginWork m

/-- How a process has ended. -/
def exited (id : ProcessId) (m : Machine) : Option ExitStatus :=
  (m.process? id).bind fun p =>
    match p.state with
    | .ended status => some status
    | _ => none

/-- The machine with a process ended by a signal, unless it has ended before. -/
def signalled (signal : Nat) (p : MachineProcess) (m : Machine) : Machine :=
  match p.state with
  | .ended _ => m
  | _ => m.withProcess { p with state := .ended (.signal signal) }

/-- How long a process takes to end when it is asked to, in milliseconds. -/
def endingTime : Nat := 1

/-- Asks a process to end. -/
def terminate (id : ProcessId) (limit : Nat) (m : Machine) : Bool × Machine :=
  match m.process? id with
  | none => (true, m)
  | some p =>
    let stubborn := p.isEngine && (m.engine.map (·.isStubborn)).getD false
    match p.state with
    | .ended _ => (true, m)
    | _ =>
      let m := { m with elapsedMs := m.elapsedMs + min limit endingTime }
      if stubborn || limit < endingTime then (false, m) else (true, m.signalled 15 p)

/-- Ends a process at once. -/
def kill (id : ProcessId) (m : Machine) : Machine :=
  match m.process? id with
  | some p => m.signalled 9 p
  | none => m

/-! ## Sockets -/

/-- The engine that answers at a place. -/
def serverAt (m : Machine) (role : EngineRole) (place : Place) : Option MachineProcess :=
  m.processes.find? fun p =>
    p.isEngine && p.state == .works && role.conduct == .serves &&
      (m.host.disk.resolve (engineSocket role p.args)).toOption == some place

/-- Connects to a socket, sends a request and takes the reply. -/
def exchange (path : Path) (request : String) (m : Machine) :
    Except OsError (List UInt8) × Machine :=
  match m.host.disk.find path with
  | .error e => (.error e, m)
  | .ok (place, _) =>
    match m.engine.bind fun role => (m.serverAt role place).map (role, ·) with
    | none => (.error .refusedConnection, m)
    | some (role, p) =>
      let reply := (role.replies[p.served]?).join.getD []
      let m := m.withProcess { p with served := p.served + 1 }
      (.ok reply, { m with events := .asked request :: m.events })

/-- The machine as a system. Only literal addresses and the machine's own name can be resolved. -/
def system : System Machine where
  host := (·.host)
  withHost host m := { m with host }
  run := run
  launch := launch
  exited := exited
  terminate := terminate
  kill := kill
  exchange := exchange
  sleep := sleep
  resolve target m :=
    let own := match Text.after? "localhost:".toList target.toList with
      | some port => "127.0.0.1:" ++ String.ofList port
      | none => target
    ((Socket.read? own).map ([·]), m)

end Machine

end OverlayVpn
